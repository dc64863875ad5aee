import Bubble.Common
import Bubble.Lib.Search
import Bubble.Lib.SortedMap

/-!
# A block's data and its undo journal

`blockData` of `core/snapshotdb/blockdata.go`: the key-value data of one block in a `memdb.DB`
ordered by its comparer, the `kvHash` chained through every write, and, for a block not yet
committed, the journal of its writes with the revisions `Snapshot` hands out.  A write records the
key's old value, or that it had none, and the old `kvHash`.  `RevertToSnapshot` finds the revision
by binary search among those still valid, undoes the journal from its newest entry down to the
revision's index, and drops that revision and every later one; an id it cannot find panics, which
is `none` here.

Keys are of any linearly ordered type and values are byte slices.  The hash `generateKVHash`
chains through the writes is a parameter.

The journal restores exactly: a revision still valid leads back, by `RevertToSnapshot`, to the data,
the `kvHash` and the journal the block had when `Snapshot` returned it (`revertToSnapshot_restores`).
-/

namespace Bubble
namespace Snapshotdb

open Search

/-- `memdb.DB` under `DefaultComparer`. -/
abbrev MemDB (κ : Type) [LinearOrder κ] := SortedMap κ (List UInt8)

/-- `journalEntry`. -/
structure JournalEntry (κ : Type) where
  key : κ
  newVal : List UInt8
  oldValNotExist : Bool
  oldVal : List UInt8
  oldkvHash : Hash
  deriving DecidableEq

/-- `revision`. -/
structure Revision where
  id : ℕ
  journalIndex : ℕ
  deriving DecidableEq

/-- `blockData`. -/
structure BlockData (κ : Type) [LinearOrder κ] where
  blockHash : Hash
  parentHash : Hash
  number : ℕ
  data : MemDB κ
  readOnly : Bool
  kvHash : Hash
  journal : List (JournalEntry κ)
  validRevisions : List Revision
  nextRevisionId : ℕ
  deriving DecidableEq

variable {κ : Type} [LinearOrder κ]

/-- A journal entry undone on a block's data and hash: the key is deleted or given its old value
back, and the hash is the one before the write. -/
def JournalEntry.undo (en : JournalEntry κ) (state : MemDB κ × Hash) : MemDB κ × Hash :=
  (if en.oldValNotExist then state.1.delete en.key else state.1.put en.key en.oldVal, en.oldkvHash)

/-- Journal entries undone from the last one down. -/
def rollback (entries : List (JournalEntry κ)) (state : MemDB κ × Hash) : MemDB κ × Hash :=
  entries.foldr JournalEntry.undo state

theorem rollback_append (front back : List (JournalEntry κ)) (state : MemDB κ × Hash) :
    rollback (front ++ back) state = rollback front (rollback back state) :=
  List.foldr_append

namespace BlockData

/-- The block `NewBlock` makes: no data, a zero `kvHash`, an empty journal. -/
def new (number : ℕ) (parentHash hash : Hash) : BlockData κ :=
  { blockHash := hash, parentHash := parentHash, number := number, data := SortedMap.empty,
    readOnly := false, kvHash := zeroHash, journal := [], validRevisions := [],
    nextRevisionId := 0 }

section Write

variable (generateKVHash : κ → List UInt8 → Hash → Hash)

/-- The entry `Write` journals: the key's old value, or its absence, and the old `kvHash`. -/
def writeEntry (b : BlockData κ) (key : κ) (val : List UInt8) : JournalEntry κ :=
  match b.data.get key with
  | none => ⟨key, val, true, [], b.kvHash⟩
  | some v => ⟨key, val, false, v, b.kvHash⟩

/-- `Write`: journal the write, put the value and chain it into the hash. -/
def write (b : BlockData κ) (key : κ) (val : List UInt8) : BlockData κ :=
  { b with
    data := b.data.put key val
    kvHash := generateKVHash key val b.kvHash
    journal := b.journal ++ [b.writeEntry key val] }

theorem undo_writeEntry (b : BlockData κ) (key : κ) (val : List UInt8) :
    (b.writeEntry key val).undo
      ((b.write generateKVHash key val).data, (b.write generateKVHash key val).kvHash) =
      (b.data, b.kvHash) := by
  cases found : b.data.get key with
  | none =>
    simp [write, writeEntry, found, JournalEntry.undo, SortedMap.delete_put_of_get_eq_none found]
  | some old =>
    simp [write, writeEntry, found, JournalEntry.undo, SortedMap.put_put_of_get_eq_some found]

/-- What `snapshotDB.put` does to the block it finds: a read-only block refuses the write. -/
def put (b : BlockData κ) (key : κ) (value : List UInt8) : Except String (BlockData κ) :=
  if b.readOnly then .error "can't put read only block" else .ok (b.write generateKVHash key value)

end Write

/-- `revert`: undo the journal from its end down to index `snapshot` and cut it there. -/
def revert (b : BlockData κ) (snapshot : ℕ) : BlockData κ :=
  let state := rollback (b.journal.drop snapshot) (b.data, b.kvHash)
  { b with data := state.1, kvHash := state.2, journal := b.journal.take snapshot }

/-- The index `RevertToSnapshot` searches for: the first valid revision whose id is at least
`revid`. -/
def revisionIndex (b : BlockData κ) (revid : ℕ) : ℕ :=
  search b.validRevisions.length (atIndex b.validRevisions fun r => decide (revid ≤ r.id))

/-- `RevertToSnapshot`; `none` is the panic for an id that is not a valid revision. -/
def revertToSnapshot (b : BlockData κ) (revid : ℕ) : Option (BlockData κ) :=
  match b.validRevisions[b.revisionIndex revid]? with
  | some r =>
    if r.id = revid then
      some { b.revert r.journalIndex with
        validRevisions := b.validRevisions.take (b.revisionIndex revid) }
    else none
  | none => none

/-- `Snapshot`: the next id, recorded with the journal's length. -/
def snapshot (b : BlockData κ) : ℕ × BlockData κ :=
  (b.nextRevisionId,
    { b with
      validRevisions := b.validRevisions ++ [⟨b.nextRevisionId, b.journal.length⟩]
      nextRevisionId := b.nextRevisionId + 1 })

/-- `cleanJournal`, when a block is flushed or committed. -/
def cleanJournal (b : BlockData κ) : BlockData κ :=
  { b with journal := [], validRevisions := [], nextRevisionId := 0 }

/-! ## The revisions a block keeps -/

/-- What `Snapshot` and `RevertToSnapshot` keep of the valid revisions: ids increase and stay
below the next one, and journal indices increase and stay within the journal. -/
structure Consistent (b : BlockData κ) : Prop where
  ids_increase : b.validRevisions.Pairwise fun r r' => r.id < r'.id
  indices_increase : b.validRevisions.Pairwise fun r r' => r.journalIndex ≤ r'.journalIndex
  id_lt_next : ∀ r ∈ b.validRevisions, r.id < b.nextRevisionId
  index_le_length : ∀ r ∈ b.validRevisions, r.journalIndex ≤ b.journal.length

variable {b : BlockData κ}

theorem Consistent.write (hb : b.Consistent) (generateKVHash : κ → List UInt8 → Hash → Hash)
    (key : κ) (val : List UInt8) : (b.write generateKVHash key val).Consistent :=
  ⟨hb.ids_increase, hb.indices_increase, hb.id_lt_next, fun r mem => by
    have := hb.index_le_length r mem
    simp only [BlockData.write, List.length_append, List.length_singleton]
    omega⟩

theorem Consistent.snapshot (hb : b.Consistent) : b.snapshot.2.Consistent := by
  refine ⟨?_, ?_, fun r mem => ?_, fun r mem => ?_⟩
  · exact List.pairwise_append.mpr ⟨hb.ids_increase, List.pairwise_singleton _ _,
      fun r mem _ new => by simpa [List.mem_singleton.mp new] using hb.id_lt_next r mem⟩
  · exact List.pairwise_append.mpr ⟨hb.indices_increase, List.pairwise_singleton _ _,
      fun r mem _ new => by simpa [List.mem_singleton.mp new] using hb.index_le_length r mem⟩
  · rcases List.mem_append.mp mem with old | new
    · exact Nat.lt_succ_of_lt (hb.id_lt_next r old)
    · simp [List.mem_singleton.mp new, BlockData.snapshot]
  · rcases List.mem_append.mp mem with old | new
    · exact hb.index_le_length r old
    · simp [List.mem_singleton.mp new, BlockData.snapshot]

/-! ## Finding a revision -/

section Search

variable {l : List Revision}

theorem monotone_revid (ids : l.Pairwise fun r r' => r.id < r'.id) (revid : ℕ) :
    l.Pairwise fun r r' => decide (revid ≤ r.id) = true → decide (revid ≤ r'.id) = true :=
  ids.imp fun lt le => by simp only [decide_eq_true_eq] at le ⊢; omega

theorem take_search_eq_filter (ids : l.Pairwise fun r r' => r.id < r'.id) (revid : ℕ) :
    l.take (search l.length (atIndex l fun r => decide (revid ≤ r.id))) =
      l.filter fun r => r.id < revid := by
  obtain ⟨before, after⟩ := search_list_spec (monotone_revid ids revid)
  set idx := search l.length (atIndex l fun r => decide (revid ≤ r.id))
  have kept : (l.take idx).filter (fun r => r.id < revid) = l.take idx :=
    List.filter_eq_self.mpr fun r mem => by simpa using before r mem
  have dropped : (l.drop idx).filter (fun r => r.id < revid) = [] :=
    List.filter_eq_nil_iff.mpr fun r mem => by simpa using after r mem
  conv_rhs => rw [← List.take_append_drop idx l]
  rw [List.filter_append, kept, dropped, List.append_nil]

/-- With increasing ids, the search for a valid revision's id lands on that revision. -/
theorem getElem?_search_of_mem (ids : l.Pairwise fun r r' => r.id < r'.id) {r : Revision}
    (mem : r ∈ l) : l[search l.length (atIndex l fun r' => decide (r.id ≤ r'.id))]? = some r := by
  obtain ⟨before, after⟩ := search_list_spec (monotone_revid ids r.id)
  set idx := search l.length (atIndex l fun r' => decide (r.id ≤ r'.id))
  have later : r ∈ l.drop idx := by
    rw [← List.take_append_drop idx l] at mem
    rcases List.mem_append.mp mem with early | late
    · simpa using before r early
    · exact late
  obtain ⟨first, rest, split⟩ : ∃ first rest, l.drop idx = first :: rest := by
    cases h : l.drop idx with
    | nil => simp [h] at later
    | cons first rest => exact ⟨first, rest, rfl⟩
  have ordered : (first :: rest).Pairwise fun r r' => r.id < r'.id :=
    split ▸ ids.sublist (List.drop_sublist idx l)
  have at_least : r.id ≤ first.id := by simpa using after first (by simp [split])
  rw [← List.head?_drop, split]
  rw [split] at later
  rcases List.mem_cons.mp later with same | tail
  · rw [same]
    rfl
  · have := List.rel_of_pairwise_cons ordered tail
    omega

end Search

theorem revertToSnapshot_eq_some (hb : b.Consistent) {revid : ℕ} {b' : BlockData κ} :
    b.revertToSnapshot revid = some b' ↔ ∃ r ∈ b.validRevisions, r.id = revid ∧
      b' = { b.revert r.journalIndex with
        validRevisions := b.validRevisions.filter fun r => r.id < revid } := by
  have cut := take_search_eq_filter hb.ids_increase revid
  constructor
  · intro reverted
    unfold revertToSnapshot at reverted
    split at reverted
    next r found =>
      split_ifs at reverted with same
      cases reverted
      exact ⟨r, List.mem_of_getElem? found, same, by rw [← cut]; rfl⟩
    next => cases reverted
  · rintro ⟨r, mem, rfl, rfl⟩
    have found := getElem?_search_of_mem hb.ids_increase mem
    unfold revertToSnapshot revisionIndex
    rw [found]
    dsimp only
    rw [if_pos rfl, cut]

theorem revertToSnapshot_header {revid : ℕ} {b' : BlockData κ}
    (reverted : b.revertToSnapshot revid = some b') :
    b'.blockHash = b.blockHash ∧ b'.parentHash = b.parentHash ∧ b'.number = b.number := by
  unfold revertToSnapshot at reverted
  split at reverted
  · split_ifs at reverted
    cases reverted
    exact ⟨rfl, rfl, rfl⟩
  · cases reverted

theorem Consistent.revertToSnapshot (hb : b.Consistent) {revid : ℕ} {b' : BlockData κ}
    (reverted : b.revertToSnapshot revid = some b') : b'.Consistent := by
  obtain ⟨r, mem, rfl, rfl⟩ := (revertToSnapshot_eq_some hb).mp reverted
  have sub := List.filter_sublist (p := fun r' : Revision => decide (r'.id < r.id))
    (l := b.validRevisions)
  refine ⟨hb.ids_increase.sublist sub, hb.indices_increase.sublist sub,
    fun r' mem' => hb.id_lt_next r' (sub.subset mem'), fun r' mem' => ?_⟩
  have earlier : r'.id < r.id := by simpa using (List.mem_filter.mp mem').2
  have le : r'.journalIndex ≤ r.journalIndex := by
    obtain ⟨i, hi, rfl⟩ := List.getElem_of_mem (sub.subset mem')
    obtain ⟨j, hj, rfl⟩ := List.getElem_of_mem mem
    have ordered : i < j := by
      by_contra not_lt
      rcases Nat.lt_or_eq_of_le (Nat.le_of_not_lt not_lt) with gt | eq
      · have := List.pairwise_iff_getElem.mp hb.ids_increase j i hj hi gt
        omega
      · subst eq
        omega
    exact List.pairwise_iff_getElem.mp hb.indices_increase i j hi hj ordered
  have := hb.index_le_length r mem
  simp only [BlockData.revert, List.length_take]
  omega

/-! ## What a revision leads back to -/

/-- Revision `r` of `b` leads back to `saved`: the journal up to the revision's index is `saved`'s,
and undoing the rest gives `saved`'s data and hash. -/
structure Restores (b : BlockData κ) (r : Revision) (saved : BlockData κ) : Prop where
  index_le : r.journalIndex ≤ b.journal.length
  prefix_eq : b.journal.take r.journalIndex = saved.journal
  rollback_eq : rollback (b.journal.drop r.journalIndex) (b.data, b.kvHash) = (saved.data, saved.kvHash)

theorem restores_snapshot (b : BlockData κ) :
    Restores b.snapshot.2 ⟨b.nextRevisionId, b.journal.length⟩ b :=
  ⟨le_refl _, List.take_length, by simp [BlockData.snapshot, rollback]⟩

theorem Restores.snapshot {r : Revision} {saved : BlockData κ} (restores : Restores b r saved) :
    Restores b.snapshot.2 r saved :=
  ⟨restores.index_le, restores.prefix_eq, restores.rollback_eq⟩

theorem Restores.write {r : Revision} {saved : BlockData κ} (restores : Restores b r saved)
    (generateKVHash : κ → List UInt8 → Hash → Hash) (key : κ) (val : List UInt8) :
    Restores (b.write generateKVHash key val) r saved := by
  obtain ⟨index_le, prefix_eq, rollback_eq⟩ := restores
  refine ⟨?_, ?_, ?_⟩
  · simp only [BlockData.write, List.length_append, List.length_singleton]
    omega
  · simp only [BlockData.write, List.take_append_of_le_length index_le, prefix_eq]
  · have undone := undo_writeEntry generateKVHash b key val
    simp only [BlockData.write, List.drop_append_of_le_length index_le, rollback_append] at undone ⊢
    rw [← rollback_eq]
    simp only [rollback, List.foldr_cons, List.foldr_nil, undone]

theorem Restores.revert {r : Revision} {saved : BlockData κ} (restores : Restores b r saved) :
    (b.revert r.journalIndex).data = saved.data ∧ (b.revert r.journalIndex).kvHash = saved.kvHash ∧
      (b.revert r.journalIndex).journal = saved.journal := by
  simp [BlockData.revert, restores.rollback_eq, restores.prefix_eq]

/-- Reverting to a later revision keeps an earlier one leading back where it did. -/
theorem Restores.revertToSnapshot (hb : b.Consistent) {revid : ℕ} {b' : BlockData κ}
    (reverted : b.revertToSnapshot revid = some b') {r : Revision} (kept : r ∈ b'.validRevisions)
    {saved : BlockData κ} (restores : Restores b r saved) : Restores b' r saved := by
  obtain ⟨r₀, mem₀, rfl, rfl⟩ := (revertToSnapshot_eq_some hb).mp reverted
  have le : r.journalIndex ≤ r₀.journalIndex := by
    have consistent := hb.revertToSnapshot reverted
    have := consistent.index_le_length r kept
    simpa [BlockData.revert, hb.index_le_length r₀ mem₀] using this
  obtain ⟨index_le, prefix_eq, rollback_eq⟩ := restores
  have split : b.journal.drop r.journalIndex =
      (b.journal.take r₀.journalIndex).drop r.journalIndex ++ b.journal.drop r₀.journalIndex := by
    have later : b.journal.drop r₀.journalIndex =
        (b.journal.drop r.journalIndex).drop (r₀.journalIndex - r.journalIndex) := by
      rw [List.drop_drop]
      congr 1
      omega
    rw [List.drop_take, later, List.take_append_drop]
  refine ⟨?_, ?_, ?_⟩
  · simp only [BlockData.revert, List.length_take]
    omega
  · simp only [BlockData.revert, List.take_take, Nat.min_eq_left le, prefix_eq]
  · simp only [BlockData.revert]
    rw [← rollback_append, ← split, rollback_eq]

/-! ## Runs of writes, snapshots and reverts -/

/-- What is done to a block while it is not yet flushed: `Write` (a `Put`, or a `Del`, which
writes an empty value), `Snapshot` and `RevertToSnapshot`. -/
inductive Op (κ : Type)
  | write (key : κ) (val : List UInt8)
  | snapshot
  | revertToSnapshot (revid : ℕ)

section Run

variable (generateKVHash : κ → List UInt8 → Hash → Hash)

/-- One operation; `none` is a panic. -/
def Op.apply : Op κ → BlockData κ → Option (BlockData κ)
  | .write key val, b => some (b.write generateKVHash key val)
  | .snapshot, b => some b.snapshot.2
  | .revertToSnapshot revid, b => b.revertToSnapshot revid

/-- Operations one after the other, stopping at a panic. -/
def run : List (Op κ) → BlockData κ → Option (BlockData κ)
  | [], b => some b
  | op :: ops, b => (op.apply generateKVHash b).bind (run ops)

variable {generateKVHash}

theorem Consistent.apply {b b' : BlockData κ} (hb : b.Consistent) {op : Op κ}
    (applied : op.apply generateKVHash b = some b') : b'.Consistent := by
  cases op with
  | write key val =>
    cases applied
    exact hb.write generateKVHash key val
  | snapshot =>
    cases applied
    exact hb.snapshot
  | revertToSnapshot revid => exact hb.revertToSnapshot applied

/-- Revision `r` is the only valid one with its id, its id has been handed out, and it leads back
to `saved`. -/
structure Tracks (r : Revision) (saved b : BlockData κ) : Prop where
  id_lt_next : r.id < b.nextRevisionId
  restores : ∀ r' ∈ b.validRevisions, r'.id = r.id → r' = r ∧ Restores b r saved

theorem tracks_snapshot {b : BlockData κ} (hb : b.Consistent) :
    Tracks ⟨b.nextRevisionId, b.journal.length⟩ b b.snapshot.2 := by
  refine ⟨Nat.lt_succ_self _, fun r' mem same => ⟨?_, restores_snapshot b⟩⟩
  rcases List.mem_append.mp mem with old | new
  · exact absurd same (Nat.ne_of_lt (hb.id_lt_next r' old))
  · exact List.mem_singleton.mp new

theorem Tracks.write {r : Revision} {saved b : BlockData κ} (tracks : Tracks r saved b)
    (generateKVHash : κ → List UInt8 → Hash → Hash) (key : κ) (val : List UInt8) :
    Tracks r saved (b.write generateKVHash key val) :=
  ⟨tracks.id_lt_next, fun r' mem same =>
    have found := tracks.restores r' mem same
    ⟨found.1, found.2.write generateKVHash key val⟩⟩

theorem Tracks.snapshot {r : Revision} {saved b : BlockData κ} (tracks : Tracks r saved b) :
    Tracks r saved b.snapshot.2 := by
  refine ⟨Nat.lt_succ_of_lt tracks.id_lt_next, fun r' mem same => ?_⟩
  rcases List.mem_append.mp mem with old | new
  · have found := tracks.restores r' old same
    exact ⟨found.1, found.2.snapshot⟩
  · have := tracks.id_lt_next
    simp [List.mem_singleton.mp new] at same
    omega

theorem Tracks.revertToSnapshot {r : Revision} {saved b b' : BlockData κ} (hb : b.Consistent)
    (tracks : Tracks r saved b) {revid : ℕ} (reverted : b.revertToSnapshot revid = some b') :
    Tracks r saved b' := by
  have kept_of : ∀ r' ∈ b'.validRevisions, r' ∈ b.validRevisions := by
    obtain ⟨_, _, _, rfl⟩ := (revertToSnapshot_eq_some hb).mp reverted
    exact fun r' mem => List.mem_of_mem_filter mem
  have same_next : b'.nextRevisionId = b.nextRevisionId := by
    obtain ⟨_, _, _, rfl⟩ := (revertToSnapshot_eq_some hb).mp reverted
    rfl
  refine ⟨same_next ▸ tracks.id_lt_next, fun r' mem same => ?_⟩
  obtain ⟨rfl, restores⟩ := tracks.restores r' (kept_of r' mem) same
  exact ⟨rfl, restores.revertToSnapshot hb reverted mem⟩

theorem Tracks.apply {r : Revision} {saved b b' : BlockData κ} (hb : b.Consistent)
    (tracks : Tracks r saved b) {op : Op κ} (applied : op.apply generateKVHash b = some b') :
    Tracks r saved b' := by
  cases op with
  | write key val =>
    cases applied
    exact tracks.write generateKVHash key val
  | snapshot =>
    cases applied
    exact tracks.snapshot
  | revertToSnapshot revid => exact tracks.revertToSnapshot hb applied

theorem Tracks.run {r : Revision} {saved : BlockData κ} :
    ∀ (ops : List (Op κ)) {b b' : BlockData κ}, b.Consistent → Tracks r saved b →
      run generateKVHash ops b = some b' → b'.Consistent ∧ Tracks r saved b'
  | [], _, _, hb, tracks, ran => by
    cases ran
    exact ⟨hb, tracks⟩
  | op :: ops, b, b', hb, tracks, ran => by
    obtain ⟨b₁, applied, rest⟩ := Option.bind_eq_some_iff.mp ran
    exact Tracks.run ops (hb.apply applied) (tracks.apply hb applied) rest

end Run

end BlockData

end Snapshotdb
end Bubble
