import Bubble.Slashing.Slash

/-!
# A duplicate signature is punished once

`Slash` records every successful report under `duplicateSignKey(NodeID, BlockNumber, Type)` and
refuses a report whose key is recorded.  Records are never removed, so after a successful report
every later report of the same pair fails: with `ErrSlashingExist`, or with the error of a check
that comes before the record is read (a report from a block the evidence is newer than, or after
the evidence has expired).  A pair reported in the other order has the same key when its two
messages carry one block number; proposals and votes always do.  View changes need not, and a
view-change pair for two heights is slashed once in each order (`view_change_slashed_twice`).
-/

namespace Bubble
namespace Slashing

open Cbft

variable {Key Signature σ : Type} [DecidableEq Key]
variable (bls : Bls Key Signature) (executeSlash : ExecuteSlash Key Signature σ)

/-- A successful report passed every check and recorded its key. -/
theorem slash_eq_ok {ctx : SlashContext} {evidence : Evidence Key Signature} {caller : Address}
    {state next : SlashState σ}
    (success : slash bls executeSlash ctx evidence caller state = .ok next) :
    evidence.validate bls = .ok () ∧ evidence.blockNumber ≤ ctx.blockNumber ∧
      state.slashTxHash evidence.key = none ∧
      next.slashTxHash = Function.update state.slashTxHash evidence.key (some ctx.txHash) := by
  unfold slash at success
  cases valid : evidence.validate bls with
  | error failure => simp [valid] at success
  | ok _ =>
      by_cases future : ctx.blockNumber < evidence.blockNumber
      · simp [valid, future] at success
      cases aged : checkEvidenceAge ctx evidence.blockNumber with
      | error failure => simp [valid, future, aged] at success
      | ok _ =>
          by_cases recorded : (state.slashTxHash evidence.key).isSome
          · simp [valid, future, aged, recorded] at success
          cases executed : executeSlash evidence ctx caller state.staking with
          | error failure => simp [valid, future, aged, recorded, executed] at success
          | ok staking =>
              simp only [valid, future, aged, recorded, executed, if_false, Bool.false_eq_true,
                Except.ok.injEq] at success
              subst success
              exact ⟨rfl, UInt64.not_lt.mp future, by simpa using recorded, rfl⟩

theorem SlashOp.step_keeps_record (op : SlashOp Key Signature σ) {state next : SlashState σ}
    (success : op.step bls executeSlash state = .ok next) {key : NodeID × UInt64 × UInt16}
    {txHash : Hash} (recorded : state.slashTxHash key = some txHash) :
    next.slashTxHash key = some txHash := by
  cases op with
  | reportDuplicateSign ctx evidence caller =>
      obtain ⟨-, -, empty, records⟩ := slash_eq_ok bls executeSlash success
      have other : key ≠ evidence.key := by
        rintro rfl
        simp [empty] at recorded
      simp [records, other, recorded]
  | other step =>
      obtain ⟨staking, -, rfl⟩ := Rollback.map_eq_ok.mp success
      exact recorded

theorem run_keeps_record (ops : List (SlashOp Key Signature σ)) {state : SlashState σ}
    {key : NodeID × UInt64 × UInt16} {txHash : Hash}
    (recorded : state.slashTxHash key = some txHash) :
    (Rollback.run (SlashOp.step bls executeSlash) ops state).slashTxHash key = some txHash := by
  have preserve : ∀ op current next, True → current.slashTxHash key = some txHash →
      SlashOp.step bls executeSlash op current = .ok next → next.slashTxHash key = some txHash :=
    fun op _ _ _ kept success => op.step_keeps_record bls executeSlash success kept
  exact Rollback.run_invariant preserve ops (fun _ _ => trivial) recorded

theorem slash_of_recorded {ctx : SlashContext} {evidence : Evidence Key Signature}
    {caller : Address} {state : SlashState σ} (valid : evidence.validate bls = .ok ())
    (past : evidence.blockNumber ≤ ctx.blockNumber) {txHash : Hash}
    (recorded : state.slashTxHash evidence.key = some txHash) :
    ∃ failure, slash bls executeSlash ctx evidence caller state = .error failure ∧
      (failure = .errSlashingExist ∨ checkEvidenceAge ctx evidence.blockNumber = .error failure) := by
  have current : ¬ ctx.blockNumber < evidence.blockNumber := UInt64.not_lt.mpr past
  cases aged : checkEvidenceAge ctx evidence.blockNumber with
  | error failure => exact ⟨failure, by simp [slash, valid, current, aged], .inr rfl⟩
  | ok _ => exact ⟨_, by simp [slash, valid, current, aged, recorded], .inl rfl⟩

/-- A duplicate signature is punished once: after a report of a pair succeeds, and whatever
transactions run after it, a report of the same pair (in the same order, or in either order when
its two messages carry one block number) from a later block fails before the staking side runs,
with `ErrSlashingExist` or, once the evidence has expired, with the expiry check's error; and the
chain stays as it was. -/
theorem slash_once {ctx : SlashContext} {evidence : Evidence Key Signature} {caller : Address}
    {state first : SlashState σ}
    (slashed : slash bls executeSlash ctx evidence caller state = .ok first)
    (ops : List (SlashOp Key Signature σ)) {again : Evidence Key Signature}
    (same_pair : again = evidence ∨ (again = evidence.swap ∧ evidence.SameBlock))
    {later : SlashContext} (after : ctx.blockNumber ≤ later.blockNumber) (reporter : Address) :
    let current := Rollback.run (SlashOp.step bls executeSlash) ops first
    ∃ failure, slash bls executeSlash later again reporter current = .error failure ∧
      (failure = .errSlashingExist ∨ checkEvidenceAge later again.blockNumber = .error failure) ∧
      Rollback.commit (slash bls executeSlash later again reporter) current = current := by
  intro current
  obtain ⟨valid, past, -, records⟩ := slash_eq_ok bls executeSlash slashed
  have recorded : current.slashTxHash evidence.key = some ctx.txHash :=
    run_keeps_record bls executeSlash ops (by simp [records])
  obtain ⟨again_valid, same_key⟩ : again.validate bls = .ok () ∧ again.key = evidence.key := by
    rcases same_pair with rfl | ⟨rfl, same⟩
    · exact ⟨valid, rfl⟩
    · exact ⟨(evidence.validate_swap bls).mpr valid, evidence.key_swap bls valid same⟩
  have same_number : again.blockNumber = evidence.blockNumber := congrArg (·.2.1) same_key
  rw [← same_key] at recorded
  obtain ⟨failure, failed, cause⟩ := slash_of_recorded bls executeSlash again_valid
    (same_number ▸ UInt64.le_trans past after) recorded
  exact ⟨failure, failed, cause, Rollback.commit_of_error failed⟩

theorem slash_keeps_swapped_key {ctx : SlashContext} {viewA viewB : EvidenceView Key Signature}
    {caller : Address} {state next : SlashState σ} (different : viewA.blockNumber ≠ viewB.blockNumber)
    (success : slash bls executeSlash ctx (.duplicateViewChange viewA viewB) caller state = .ok next) :
    next.slashTxHash (Evidence.duplicateViewChange viewA viewB).swap.key =
      state.slashTxHash (Evidence.duplicateViewChange viewA viewB).swap.key := by
  obtain ⟨-, -, -, records⟩ := slash_eq_ok bls executeSlash success
  simp [records, Evidence.key_swap_ne different]

/-! ## Sample reports -/

/-- The validator of the sample reports, with node ID one. -/
def sampleNode : EvidenceNode ℕ := ⟨0, .ofFin ⟨1, @Nat.one_lt_two_pow 512 (by decide)⟩, 0⟩

/-- A vote of `sampleNode` for a block at height 5 in view 0 of epoch 1, signed under
`signerBls`. -/
def sampleVote (blockHash : Hash) : EvidenceVote ℕ (List ℕ × SignedBytes) :=
  ⟨1, 0, blockHash, 5, 0, sampleNode, ([0], .quorumCert 1 0 blockHash 5 0)⟩

/-- Two votes of one validator for two blocks at one height. -/
def doubleVote : Evidence ℕ (List ℕ × SignedBytes) :=
  .duplicatePrepareVote (sampleVote 1#256) (sampleVote 2#256)

/-- A staking side that slashes every reported validator and keeps nothing of it. -/
def acceptSlash : ExecuteSlash ℕ (List ℕ × SignedBytes) Unit := fun _ _ _ _ => .ok ()

/-- A report at a block of a chain with epochs of ten blocks and `MaxEvidenceAge` one. -/
def reportAt (blockNumber : UInt64) : SlashContext :=
  ⟨blockNumber, BitVec.ofNat 256 blockNumber.toNat, 10, .ok 1⟩

/-- A chain with no slashing records. -/
def noRecords : SlashState Unit := ⟨fun _ => none, ()⟩

/-- The sample double vote, reported at block 6 and again in the other order at block 7: the
second report fails before the staking side runs. -/
theorem double_vote_punished_once :
    ∃ first, slash signerBls acceptSlash (reportAt 6) doubleVote zeroAddress noRecords = .ok first ∧
      doubleVote.SameBlock ∧
      ∃ failure, slash signerBls acceptSlash (reportAt 7) doubleVote.swap zeroAddress first = .error failure ∧
        (failure = .errSlashingExist ∨
          checkEvidenceAge (reportAt 7) doubleVote.swap.blockNumber = .error failure) ∧
        Rollback.commit (slash signerBls acceptSlash (reportAt 7) doubleVote.swap zeroAddress) first = first := by
  obtain ⟨first, slashed⟩ :
      ∃ first, slash signerBls acceptSlash (reportAt 6) doubleVote zeroAddress noRecords = .ok first :=
    ⟨_, rfl⟩
  exact ⟨first, slashed, rfl,
    slash_once signerBls acceptSlash slashed [] (.inr ⟨rfl, rfl⟩) (by decide) zeroAddress⟩

/-- A view change of `sampleNode` in view 0 of epoch 1 for a block at the height, signed under
`signerBls`. -/
def sampleViewChange (blockHash : Hash) (blockNumber : UInt64) :
    EvidenceView ℕ (List ℕ × SignedBytes) :=
  ⟨1, 0, blockHash, blockNumber, sampleNode,
    ([0], .viewChangeQuorumCert 1 0 blockHash blockNumber 0 0), 0, 0⟩

/-- Two view changes of one validator in one view, for blocks at heights 5 and 6. -/
def doubleViewChange : Evidence ℕ (List ℕ × SignedBytes) :=
  .duplicateViewChange (sampleViewChange 1#256 5) (sampleViewChange 2#256 6)

/-- The sample double view change, reported at block 7 and again in the other order at block 8,
is slashed twice: the first report records the key of height 5, the second one's key is of
height 6. -/
theorem view_change_slashed_twice :
    ∃ first second,
      slash signerBls acceptSlash (reportAt 7) doubleViewChange zeroAddress noRecords = .ok first ∧
      slash signerBls acceptSlash (reportAt 8) doubleViewChange.swap zeroAddress first =
        .ok second := by
  obtain ⟨first, slashed⟩ : ∃ first,
      slash signerBls acceptSlash (reportAt 7) doubleViewChange zeroAddress noRecords = .ok first :=
    ⟨_, rfl⟩
  have fresh : first.slashTxHash doubleViewChange.swap.key = none :=
    slash_keeps_swapped_key signerBls acceptSlash (by decide) slashed
  have valid : doubleViewChange.swap.validate signerBls = .ok () := rfl
  have current : ¬ (reportAt 8).blockNumber < doubleViewChange.swap.blockNumber := by decide
  have aged : checkEvidenceAge (reportAt 8) doubleViewChange.swap.blockNumber = .ok () := rfl
  refine ⟨first, ⟨Function.update first.slashTxHash doubleViewChange.swap.key
    (some (reportAt 8).txHash), ()⟩, slashed, ?_⟩
  simp only [slash, valid, current, aged, fresh, if_false, Option.isSome_none, Bool.false_eq_true]
  rfl

end Slashing
end Bubble
