import Bubble.Staking.Withdrew
import Bubble.Lib.Compare
import Bubble.Lib.QuickSort

/-!
# Sorting validators

`ValidatorQueue.ValidatorSort` of `x/staking/staking_types.go` and its two comparisons.
`CompareDefault` ranks the validators kept in a round: those not to be removed first, then by
major.minor version, shares, staking block and transaction index.  `CompareForDel` ranks them for
removal: those to be removed first, and among them the duplicate signers, the low-ratio deletions
and the low ratios ahead of the rest; then the lower version, the longer term, the fewer shares,
the later staking block and the later transaction first.  Each closure of the two functions is a
layer of `Compare`, so both rank by a total preorder, and the hand-written quicksort of
`QuickSort` sorts by them.
-/

namespace Bubble
namespace Staking

open Compare QuickSort

/-! ## Candidate status bits -/

/-- `staking.LowRatio`. -/
def lowRatio : CandidateStatus := 2

/-- `staking.NotEnough`. -/
def notEnough : CandidateStatus := 4

/-- `staking.DuplicateSign`. -/
def duplicateSign : CandidateStatus := 8

/-- `staking.LowRatioDel`. -/
def lowRatioDel : CandidateStatus := 16

/-- `staking.Withdrew`. -/
def withdrew : CandidateStatus := 32

/-- The tests of `CandidateStatus`: every bit of `flags` is set. -/
def CandidateStatus.has (status flags : CandidateStatus) : Bool :=
  status &&& flags == flags

/-- `CandidateStatus.IsDuplicateSign`. -/
def CandidateStatus.isDuplicateSign (status : CandidateStatus) : Bool := status.has duplicateSign

/-- `CandidateStatus.IsLowRatioDel`. -/
def CandidateStatus.isLowRatioDel (status : CandidateStatus) : Bool := status.has lowRatioDel

/-- `CandidateStatus.IsLowRatio`. -/
def CandidateStatus.isLowRatio (status : CandidateStatus) : Bool := status.has lowRatio

/-- `xutil.CalcVersion`: the version with its patch byte cleared. -/
def calcVersion (programVersion : UInt32) : UInt32 :=
  (programVersion >>> 8) <<< 8

/-! ## Validators -/

/-- The fields of `staking.Validator` that the election reads. -/
structure Validator where
  programVersion : UInt32
  stakingTxIndex : UInt32
  /-- The validator's term in the consensus round. -/
  validatorTerm : UInt32
  stakingBlockNum : UInt64
  nodeAddress : Address
  nodeId : NodeID
  shares : ℤ
  deriving DecidableEq, Repr, Inhabited

/-- `staking.NeedRemoveCans`: the validators to remove, by node, with the status of their
candidate record, the only field the comparisons read. -/
def NeedRemoveCans := NodeID → Option CandidateStatus

/-- `CompareDefault`: positive when `left` ranks higher.  A validator to be removed ranks below one
that is not; then the higher version, the more shares, the earlier staking block and the earlier
transaction rank higher. -/
def compareDefault (removes : NeedRemoveCans) : Validator → Validator → ℤ :=
  let compareTxIndexFunc := byField (·.stakingTxIndex.toNat) (-1) fun _ _ => 0
  let compareBlockNumberFunc := byField (·.stakingBlockNum.toNat) (-1) compareTxIndexFunc
  let compareSharesFunc := byField (·.shares) 1 compareBlockNumberFunc
  let compareVersion := byField (fun v => (calcVersion v.programVersion).toNat) 1 compareSharesFunc
  byFlag (fun v => (removes v.nodeId).isNone) compareVersion compareVersion

/-- `CompareForDel`: positive when `left` is the more removable.  A validator to be removed ranks
above one that is not; two of them rank by duplicate signing, then low-ratio deletion, then low
ratio, each flagged one above the others and two flagged ones by shares; all other ties go to the
lower version, the longer term, the fewer shares, the later block and the later transaction. -/
def compareForDel (removes : NeedRemoveCans) : Validator → Validator → ℤ :=
  let compareTxIndexFunc := byField (·.stakingTxIndex.toNat) 1 fun _ _ => 0
  let compareBlockNumberFunc := byField (·.stakingBlockNum.toNat) 1 compareTxIndexFunc
  let compareSharesFunc := byField (·.shares) (-1) compareBlockNumberFunc
  let compareTermFunc := byField (·.validatorTerm.toNat) 1 compareSharesFunc
  let compareVersionFunc :=
    byField (fun v => (calcVersion v.programVersion).toNat) (-1) compareTermFunc
  -- the status tests read the record of the removal map, present in the branch that uses them
  let status (test : CandidateStatus → Bool) (v : Validator) := (removes v.nodeId).any test
  byFlag (fun v => (removes v.nodeId).isSome)
    (byFlag (status CandidateStatus.isDuplicateSign) compareSharesFunc
      (byFlag (status CandidateStatus.isLowRatioDel) compareSharesFunc
        (byFlag (status CandidateStatus.isLowRatio) compareSharesFunc compareVersionFunc)))
    compareVersionFunc

/-- `ValidatorQueue.ValidatorSort`: `quickSort` over the whole queue, by `CompareDefault` when no
comparison is given. -/
def validatorSort (removes : NeedRemoveCans)
    (compare : Option (NeedRemoveCans → Validator → Validator → ℤ)) (arr : Array Validator) :
    Array Validator :=
  if arr.size ≤ 1 then arr
  else quickSort ((compare.getD compareDefault) removes) arr.size arr 0 (arr.size - 1)

/-! ## The comparisons rank by total preorders -/

theorem compareDefault_totalPreorder (removes : NeedRemoveCans) :
    TotalPreorder (compareDefault removes) := by
  unfold compareDefault
  refine byFlag_totalPreorder ?_ ?_ <;>
    exact byField_totalPreorder (.inl rfl) (byField_totalPreorder (.inl rfl)
      (byField_totalPreorder (.inr rfl) (byField_totalPreorder (.inr rfl) totalPreorder_zero)))

theorem compareForDel_totalPreorder (removes : NeedRemoveCans) :
    TotalPreorder (compareForDel removes) := by
  unfold compareForDel
  refine byFlag_totalPreorder (byFlag_totalPreorder ?shares (byFlag_totalPreorder ?shares
    (byFlag_totalPreorder ?shares ?version))) ?version
  case version => exact byField_totalPreorder (.inr rfl) (byField_totalPreorder (.inl rfl) ?shares)
  case shares =>
    exact byField_totalPreorder (.inr rfl) (byField_totalPreorder (.inl rfl)
      (byField_totalPreorder (.inl rfl) totalPreorder_zero))

theorem compareForDel_kept_removed {removes : NeedRemoveCans} {a b : Validator}
    (kept : removes a.nodeId = none) (removed : (removes b.nodeId).isSome) :
    compareForDel removes a b = -1 := by
  simp [compareForDel, byFlag, kept, removed]

/-! ## Sorting -/

theorem validatorSort_spec {removes : NeedRemoveCans}
    {compare : NeedRemoveCans → Validator → Validator → ℤ} (total : TotalPreorder (compare removes))
    (arr : Array Validator) :
    (validatorSort removes (some compare) arr).Perm arr ∧
      (validatorSort removes (some compare) arr).toList.IsChain
        fun a b => 0 ≤ compare removes a b := by
  unfold validatorSort
  by_cases small : arr.size ≤ 1
  · rw [if_pos small]
    refine ⟨.refl arr, List.isChain_iff_getElem.mpr fun i bound => ?_⟩
    simp only [Array.length_toList] at bound
    omega
  · rw [if_neg small, Option.getD_some]
    exact quickSort_sorted (fun _ _ => total.nonneg_of_neg) arr

/-- `ValidatorSort` by `CompareForDel` or by `CompareDefault` leaves a permutation of the queue in
which each validator ranks at least as high as the next, the two comparisons ranking by total
preorders; by `CompareForDel`, the validators to be removed come before all others. -/
theorem validatorSort_sorts (removes : NeedRemoveCans) (arr : Array Validator) :
    TotalPreorder (compareForDel removes) ∧ TotalPreorder (compareDefault removes) ∧
      ((validatorSort removes (some compareForDel) arr).Perm arr ∧
        (validatorSort removes (some compareForDel) arr).toList.IsChain
          fun a b => 0 ≤ compareForDel removes a b) ∧
      ((validatorSort removes (some compareDefault) arr).Perm arr ∧
        (validatorSort removes (some compareDefault) arr).toList.IsChain
          fun a b => 0 ≤ compareDefault removes a b) ∧
      (validatorSort removes (some compareForDel) arr).toList.Pairwise
        fun a b => (removes b.nodeId).isSome → (removes a.nodeId).isSome := by
  have forDel := compareForDel_totalPreorder removes
  have byDefault := compareDefault_totalPreorder removes
  have sorted := validatorSort_spec forDel arr
  refine ⟨forDel, byDefault, sorted, validatorSort_spec byDefault arr, ?_⟩
  refine (forDel.pairwise_of_isChain sorted.2).imp fun {a b} ranked removed => ?_
  by_contra kept
  have below := compareForDel_kept_removed (by simpa using kept) removed
  omega

end Staking
end Bubble
