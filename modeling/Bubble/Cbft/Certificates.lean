import Bubble.Cbft.Verify

/-!
# What the certificate checks guarantee

Two facts about `verifyPrepareQC` and `verifyViewChangeQC`.  A bit array whose slice is shorter
than its bit count reaches the counting loop unchecked and panics there, on either path; arrays
sized as `NewBitArray` sizes them never panic.  The view-change check adds up the signer counts of
the certificates, so one validator whose bit is set in several certificates is counted once per
certificate; only when no validator signs two certificates does the sum count distinct signers.
-/

namespace Bubble
namespace Cbft

open Traverse BitArray

variable {Key Signature : Type}

/-! ## Epochs -/

namespace ValidatorPool

variable (pool : ValidatorPool Key)

theorem validators_of_enabled {epoch : UInt64} (started : pool.epoch ≠ 0)
    (enabled : pool.enableVerifyEpoch epoch = .ok ()) :
    ∃ validators, pool.validators epoch = .ok validators := by
  have known : ¬ pool.epoch < epoch := by
    unfold enableVerifyEpoch at enabled
    split_ifs at enabled with recent
    grind
  by_cases previous : epoch + 1 = pool.epoch
  · exact ⟨_, by simp [validators, epochToBlockNumber, known, previous, bind, Except.bind]; rfl⟩
  · exact ⟨_, by simp [validators, epochToBlockNumber, known, previous, bind, Except.bind]; rfl⟩

theorem len_of_enabled {epoch : UInt64} (started : pool.epoch ≠ 0)
    (enabled : pool.enableVerifyEpoch epoch = .ok ()) :
    ∃ validators, pool.validators epoch = .ok validators ∧
      pool.len epoch = .ok validators.length := by
  obtain ⟨validators, chosen⟩ := pool.validators_of_enabled started enabled
  exact ⟨validators, chosen, by simp [len, chosen, Except.map]⟩

end ValidatorPool

/-! ## Panics -/

theorem countSet_outcome (array : Option BitArray) :
    (∃ count, countSet array = .ok count) ∨ countSet array = .error .indexOutOfRange := by
  cases array with
  | none => exact .inl ⟨_, countSet_of_sized trivial⟩
  | some array =>
      by_cases wellFormed : array.WellFormed
      · exact .inl ⟨_, countSet_of_sized wellFormed⟩
      · exact .inr (countSet_eq_error wellFormed)

theorem verifyPrepareQC_malformed (bls : Bls Key Signature) (pool : ValidatorPool Key)
    (oriNum : UInt64) (oriHash : Hash) {qc : QuorumCert Signature} {array : BitArray}
    (started : pool.epoch ≠ 0) (enabled : pool.enableVerifyEpoch qc.epoch = .ok ())
    (decoded : qc.validatorSet = some array) (malformed : ¬ array.WellFormed) :
    verifyPrepareQC bls pool oriNum oriHash (some qc) = .error (.panic .indexOutOfRange) := by
  obtain ⟨validators, -, counted⟩ := pool.len_of_enabled started enabled
  have panics : qc.len = .error .indexOutOfRange := by
    rw [QuorumCert.len, decoded]
    exact countSet_eq_error malformed
  simp [verifyPrepareQC, enabled, counted, panics, readBits, bind, Except.bind, Except.mapError]

theorem sized_of_len {qc : ViewChangeQC Signature} {total : ℕ} (counted : qc.len = .ok total) :
    ∀ vc ∈ qc.qcs, Sized vc.validatorSet := by
  intro vc member
  cases decoded : vc.validatorSet with
  | none => trivial
  | some array =>
      by_contra malformed
      have panics : qc.len = .error .indexOutOfRange := by
        refine sumM_eq_error_of_mem (fun other _ => countSet_outcome other.validatorSet)
          ⟨vc, member, ?_⟩
        rw [ViewChangeQuorumCert.len, decoded]
        exact countSet_eq_error malformed
      rw [counted] at panics
      cases panics

theorem len_of_sized {qc : ViewChangeQC Signature} (sized : ∀ vc ∈ qc.qcs, Sized vc.validatorSet) :
    qc.len = .ok (qc.qcs.map fun vc => (setIndices vc.validatorSet).length).sum :=
  sumM_eq_ok fun vc member => countSet_of_sized (sized vc member)

/-- Certificates none of whose validators signs another certificate. -/
def DisjointSigners (qc : ViewChangeQC Signature) : Prop :=
  qc.qcs.Pairwise fun first second =>
    (setIndices first.validatorSet).Disjoint (setIndices second.validatorSet)

theorem signers_length_of_disjoint {qc : ViewChangeQC Signature} (disjoint : DisjointSigners qc) :
    qc.signers.length = (qc.qcs.map fun vc => (setIndices vc.validatorSet).length).sum := by
  have distinct : (qc.qcs.flatMap fun vc => setIndices vc.validatorSet).Nodup :=
    List.nodup_flatMap.mpr ⟨fun vc _ => setIndices_nodup vc.validatorSet, disjoint⟩
  rw [ViewChangeQC.signers, distinct.dedup, List.length_flatMap]

/-- A view-change certificate that passes `verifyViewChangeQC` and in which no validator signs
two certificates has at least `threshold(n)` distinct signers, `n` validators in its epoch. -/
theorem verifyViewChangeQC_distinct_signers (bls : Bls Key Signature) (pool : ValidatorPool Key)
    {qc : ViewChangeQC Signature} (started : pool.epoch ≠ 0)
    (accepted : verifyViewChangeQC bls pool qc = .ok ()) (disjoint : DisjointSigners qc) :
    ∃ validators, pool.validators qc.maxBlock.1 = .ok validators ∧
      threshold validators.length ≤ qc.signers.length := by
  obtain ⟨enabled, validated⟩ : pool.enableVerifyEpoch qc.maxBlock.1 = .ok () ∧
      validateViewChangeQC pool qc = .ok () := by
    cases enable : pool.enableVerifyEpoch qc.maxBlock.1 with
    | error failure => simp [verifyViewChangeQC, enable, bind, Except.bind] at accepted
    | ok _ =>
        cases validate : validateViewChangeQC pool qc with
        | error failure => simp [verifyViewChangeQC, enable, validate, bind, Except.bind] at accepted
        | ok _ => exact ⟨rfl, rfl⟩
  obtain ⟨validators, chosen, counted⟩ := pool.len_of_enabled started enabled
  refine ⟨validators, chosen, ?_⟩
  cases summed : qc.len with
  | error failure =>
      by_cases limit : validators.length < qc.qcs.length <;>
        simp [validateViewChangeQC, counted, summed, readBits, bind, Except.bind, Except.mapError,
          limit] at validated
  | ok total =>
      have total_eq := len_of_sized (sized_of_len summed)
      rw [summed, Except.ok.injEq] at total_eq
      rw [signers_length_of_disjoint disjoint, ← total_eq]
      by_contra short
      by_cases limit : validators.length < qc.qcs.length <;>
        simp [validateViewChangeQC, counted, summed, readBits, bind, Except.bind, Except.mapError,
          Nat.lt_of_not_le short, limit] at validated

/-! ## Certificates from the network -/

/-- A pool in its first epoch with four validators, each known by its index. -/
def fourValidators : ValidatorPool ℕ where
  switchPoint := 0
  epoch := 1
  prevValidators := [0, 1, 2, 3]
  currentValidators := [0, 1, 2, 3]

/-- A prepare certificate whose validator set claims one bit and carries no word. -/
def shortPrepareQC : QuorumCert (List ℕ × SignedBytes) where
  epoch := 1
  viewNumber := 0
  blockHash := 1#256
  blockNumber := 5
  blockIndex := 0
  signature := ([], .quorumCert 1 0 1#256 5 0)
  validatorSet := some ⟨1, []⟩

theorem verifyPrepareQC_panics_on_short_slice :
    verifyPrepareQC signerBls fourValidators 5 1#256 (some shortPrepareQC) =
      .error (.panic .indexOutOfRange) :=
  verifyPrepareQC_malformed signerBls fourValidators 5 1#256 (by decide) (by decide) rfl
    (by decide)

/-- Validator `0`'s view change for the block of a given hash, with its signature. -/
def soloViewChange (hash : Hash) : ViewChangeQuorumCert (List ℕ × SignedBytes) where
  epoch := 1
  viewNumber := 0
  blockHash := hash
  blockNumber := 5
  blockEpoch := 1
  blockViewNumber := 0
  signature := ([0], .viewChangeQuorumCert 1 0 hash 5 1 0)
  validatorSet := some ⟨4, [1]⟩

/-- Three view changes of validator `0`, for three different blocks. -/
def soloViewChangeQC : ViewChangeQC (List ℕ × SignedBytes) :=
  ⟨[soloViewChange 1#256, soloViewChange 2#256, soloViewChange 3#256]⟩

theorem verifyViewChangeQC_counts_one_signer_thrice :
    verifyViewChangeQC signerBls fourValidators soloViewChangeQC = .ok () ∧
      soloViewChangeQC.signers.length < threshold fourValidators.currentValidators.length := by
  decide

/-- Validator `i`'s view change for the block of a given hash, its own bit set. -/
def signedViewChange (i : ℕ) (hash : Hash) : ViewChangeQuorumCert (List ℕ × SignedBytes) where
  epoch := 1
  viewNumber := 0
  blockHash := hash
  blockNumber := 5
  blockEpoch := 1
  blockViewNumber := 0
  signature := ([i], .viewChangeQuorumCert 1 0 hash 5 1 0)
  validatorSet := some ⟨4, [UInt64.ofNat (2 ^ i)]⟩

/-- View changes of validators `0`, `1` and `2`, for three different blocks. -/
def spreadViewChangeQC : ViewChangeQC (List ℕ × SignedBytes) :=
  ⟨[signedViewChange 0 1#256, signedViewChange 1 2#256, signedViewChange 2 3#256]⟩

theorem spread_view_changes_reach_threshold :
    fourValidators.epoch ≠ 0 ∧
      verifyViewChangeQC signerBls fourValidators spreadViewChangeQC = .ok () ∧
      DisjointSigners spreadViewChangeQC ∧
      ∃ validators, fourValidators.validators spreadViewChangeQC.maxBlock.1 = .ok validators ∧
        threshold validators.length ≤ spreadViewChangeQC.signers.length := by
  have started : fourValidators.epoch ≠ 0 := by decide
  have accepted : verifyViewChangeQC signerBls fourValidators spreadViewChangeQC = .ok () := by
    decide
  have disjoint : DisjointSigners spreadViewChangeQC := by
    have first : setIndices (signedViewChange 0 1#256).validatorSet = [0] := rfl
    have second : setIndices (signedViewChange 1 2#256).validatorSet = [1] := rfl
    have third : setIndices (signedViewChange 2 3#256).validatorSet = [2] := rfl
    simp [DisjointSigners, spreadViewChangeQC, first, second, third]
  exact ⟨started, accepted, disjoint,
    verifyViewChangeQC_distinct_signers signerBls fourValidators started accepted disjoint⟩

end Cbft
end Bubble
