import Mathlib
import Bubble.Lib.Layers
import Bubble.Snapshotdb.Recover

/-!
# Reading the snapshot database

What `Get` reads.  The blocks committed so far, oldest first, are a stack of layers: those
`Compaction` has written sit in the base, the rest in the committed list (`Represents`).  A live
block is one from which the walk along parent hashes through the uncommitted blocks reaches the
head, the highest committed block (`Chain`).  From a live block, for a key that is not one of the
database's own records, `Get` reads the last write to the key in the stack topped by the blocks of
the walk, and `ErrNotFound` when that write is empty or there is none (`get_of_chain`).

The records sit in the base beside the user keys and `Get` falls through to the base for every
key, so a live block reads the WAL entry of a committed block as a value no block wrote, until
`Compaction` deletes it (`wal_key_read_until_compaction`).

`Sound` is what a run keeps for the read semantics: the stack is represented, the committed list
is linked by parent hash up to the head, and each uncommitted block is numbered one above its
parent.  Every operation keeps it when `NewBlock` and `Flush` take fresh hashes, `NewBlock`
numbers its block one above its parent, and `Commit` extends the committed chain (`Proper`).
`Compaction` then leaves every live block live, and so changes no read of it
(`get_compaction_of_chain`).
-/

namespace Bubble
namespace Snapshotdb

open SortedMap (lastWrite lastWrite_append lastWrite_map)

variable {κ : Type} [LinearOrder κ]

/-- The keys under which the database keeps its own records in the base. -/
def Layout.IsRecord (layout : Layout κ) (k : κ) : Prop :=
  k = layout.currentHighestBlock ∨ k = layout.currentBaseNum ∨ k = layout.currentSet ∨
    ∃ n, k = layout.walKey n

/-- What `Get` answers for the last write to a key: the value, and `ErrNotFound` when the value
is empty or there is none. -/
def readValue : Option (List UInt8) → Except String (List UInt8)
  | some v => if v = [] then .error errNotFound else .ok v
  | none => .error errNotFound

variable (layout : Layout κ)

/-- The base holds under each user key the last write of the layers written to it, as bytes,
and nothing where that write is empty or there is none. -/
def BaseHolds (baseDB : LevelDB κ) (layers : List (MemDB κ)) : Prop :=
  ∀ k, ¬ layout.IsRecord k →
    baseDB.get k = ((lastWrite layers k).filter fun v => !v.isEmpty).map .bytes

namespace SnapshotDB

variable (s : SnapshotDB κ)

/-- The blocks committed so far, oldest first, are those written to the base and then the
committed list. -/
def Represents (blocks : List (BlockData κ)) : Prop :=
  ∃ compacted, blocks = compacted ++ s.committed ∧
    BaseHolds layout s.baseDB (compacted.map BlockData.data)

/-- `path` is the walk through the uncommitted blocks from `hash` along parent hashes, newest
first, and it ends at the head, the hash of the highest committed block, which no uncommitted
block has. -/
inductive Chain : Hash → List (BlockData κ) → Prop
  | head : s.findBlock s.highest.2 = none → Chain s.highest.2 []
  | block {hash : Hash} {block : BlockData κ} {path : List (BlockData κ)} :
      s.findBlock hash = some block → Chain block.parentHash path → Chain hash (block :: path)

namespace Chain

variable {s} {hash : Hash} {path : List (BlockData κ)}

theorem unique {path' : List (BlockData κ)} (chain : s.Chain hash path)
    (chain' : s.Chain hash path') : path = path' := by
  induction chain generalizing path' with
  | head absent =>
    cases chain' with
    | head _ => rfl
    | block found _ => simp [absent] at found
  | block found _ ih =>
    cases chain' with
    | head absent => simp [absent] at found
    | block found' rest' =>
      rw [found] at found'
      cases found'
      rw [ih rest']

theorem mem_unCommit (chain : s.Chain hash path) {b : BlockData κ} (mem : b ∈ path) :
    b ∈ s.unCommit := by
  induction chain with
  | head _ => simp at mem
  | block found _ ih =>
    rcases List.mem_cons.mp mem with rfl | later
    · exact (Keyed.find_mem found).1
    · exact ih later

theorem of_mem (chain : s.Chain hash path) {b : BlockData κ} (mem : b ∈ path) :
    ∃ rest, s.Chain b.blockHash (b :: rest) ∧ rest.length < path.length := by
  induction chain with
  | head _ => simp at mem
  | block found rest ih =>
    rcases List.mem_cons.mp mem with rfl | later
    · rw [(Keyed.find_mem found).2]
      exact ⟨_, .block found rest, by simp⟩
    · obtain ⟨tail, chain, shorter⟩ := ih later
      exact ⟨tail, chain, by simp; omega⟩

theorem nodup (chain : s.Chain hash path) : path.Nodup := by
  induction chain with
  | head _ => exact List.nodup_nil
  | @block hash block path found rest ih =>
    refine List.nodup_cons.mpr ⟨fun mem => ?_, ih⟩
    obtain ⟨tail, again, shorter⟩ := rest.of_mem mem
    have whole : s.Chain block.blockHash (block :: path) := by
      rw [(Keyed.find_mem found).2]
      exact .block found rest
    have same := again.unique whole
    simp only [List.cons.injEq, true_and] at same
    rw [same] at shorter
    exact lt_irrefl _ shorter

theorem length_le (chain : s.Chain hash path) : path.length ≤ s.unCommit.length :=
  (chain.nodup.subperm fun _ mem => chain.mem_unCommit mem).length_le

theorem ne_parent {block : BlockData κ} (chain : s.Chain hash (block :: path)) :
    hash ≠ block.parentHash := by
  intro loop
  rcases chain with _ | ⟨found, rest⟩
  have whole : s.Chain hash (block :: path) := .block found rest
  rw [← loop] at rest
  exact List.cons_ne_self block path (rest.unique whole).symm

end Chain

theorem walkUnCommit_of_chain (key : κ) {hash : Hash} {path : List (BlockData κ)}
    (chain : s.Chain hash path) {fuel : ℕ} (enough : path.length < fuel) :
    s.walkUnCommit key fuel hash =
      some ((path.findSome? fun b => b.data.get key).elim (.error errNotFound) .ok) := by
  induction chain generalizing fuel with
  | head absent =>
    obtain ⟨fuel, rfl⟩ : ∃ f, fuel = f + 1 := ⟨fuel - 1, by simp at enough; omega⟩
    simp [walkUnCommit, absent]
  | @block hash block path found rest ih =>
    obtain ⟨fuel, rfl⟩ : ∃ f, fuel = f + 1 := ⟨fuel - 1, by simp at enough; omega⟩
    have noLoop := Chain.ne_parent (.block found rest)
    cases written : block.data.get key with
    | some v => simp [walkUnCommit, found, noLoop, written]
    | none =>
      simp only [walkUnCommit, found, noLoop, if_false, written]
      rw [ih (by simpa using enough), List.findSome?_cons_of_isNone (by simp [written])]

theorem getFromCommit_eq (key : κ) :
    s.getFromCommit key = lastWrite (s.committed.map BlockData.data) key := by
  rw [getFromCommit, lastWrite_map]

theorem getBaseDB_of_holds {layers : List (MemDB κ)} (holds : BaseHolds layout s.baseDB layers)
    {key : κ} (user : ¬ layout.IsRecord key) :
    s.getBaseDB layout key = readValue (lastWrite layers key) := by
  cases written : lastWrite layers key with
  | none => simp [getBaseDB, holds key user, written, readValue]
  | some v =>
    by_cases empty : v = []
    · simp [getBaseDB, holds key user, written, readValue, empty, Option.filter_some]
    · simp [getBaseDB, holds key user, written, readValue, empty, Option.filter_some,
        Stored.toBytes]

theorem get_of_chain {blocks : List (BlockData κ)} (represents : s.Represents layout blocks)
    {hash : Hash} {path : List (BlockData κ)} (chain : s.Chain hash path) {key : κ}
    (user : ¬ layout.IsRecord key) :
    s.get layout hash key =
      some (readValue (lastWrite ((blocks ++ path.reverse).map BlockData.data) key)) := by
  obtain ⟨compacted, rfl, holds⟩ := represents
  have walk := s.walkUnCommit_of_chain key chain (Nat.lt_succ_of_le chain.length_le)
  rw [List.map_append, lastWrite_append, lastWrite_map, List.reverse_reverse]
  simp only [get, getFromUnCommit, walk, Option.map_some]
  cases inPath : path.findSome? fun b => b.data.get key with
  | some v => by_cases empty : v = [] <;> simp [readValue, empty]
  | none =>
    rw [List.map_append, lastWrite_append, ← getFromCommit_eq]
    cases inCommitted : s.getFromCommit key with
    | some v => by_cases empty : v = [] <;> simp [readValue, empty]
    | none => simpa using s.getBaseDB_of_holds layout holds user

/-! ## The invariant of a run -/

/-- A block on `parentHash` numbered `number` is one above the head when its parent is the head,
and one above the block under `parentHash` when there is one. -/
def NumberedAbove (parentHash : Hash) (number : ℕ) : Prop :=
  (parentHash = s.highest.2 → number = s.highest.1 + 1) ∧
    ∀ parent, s.findBlock parentHash = some parent → number = parent.number + 1

/-- A hash a block may take: not the head's, and no uncommitted block's parent. -/
def FreshHash (hash : Hash) : Prop :=
  hash ≠ s.highest.2 ∧ ∀ b ∈ s.unCommit, b.parentHash ≠ hash

/-- The committed side: the blocks committed so far are represented, counted from the base, and
linked by parent hash up to the head. -/
structure Committed (blocks : List (BlockData κ)) : Prop where
  represents : s.Represents layout blocks
  counted : s.baseNum + s.committed.length = s.highest.1
  linked : s.committed.IsChain fun a b => b.parentHash = a.blockHash
  last : ∀ c ∈ s.committed.getLast?, c.blockHash = s.highest.2

/-- The uncommitted side: distinct hashes, none of them the head's, and each block numbered one
above its parent. -/
structure Uncommitted : Prop where
  keys : (s.unCommit.map BlockData.blockHash).Nodup
  notHead : ∀ b ∈ s.unCommit, b.blockHash ≠ s.highest.2
  numbered : ∀ b ∈ s.unCommit, s.NumberedAbove b.parentHash b.number

/-- What the read semantics needs of a database holding the committed `blocks`. -/
def Sound (blocks : List (BlockData κ)) : Prop :=
  s.Committed layout blocks ∧ s.Uncommitted

/-- What the read semantics asks of an operation: `NewBlock` and `Flush` take a fresh hash,
`NewBlock` numbers its block one above its parent, and `Commit` extends the committed chain. -/
def Proper : Step κ → Prop
  | .newBlock blockNumber parentHash hash =>
    s.FreshHash hash ∧ parentHash ≠ hash ∧ s.NumberedAbove parentHash blockNumber
  | .flush hash _ => s.FreshHash hash
  | .commit hash => ∀ block, s.findBlock hash = some block →
      s.theBlockIsCommit block = true ∨ block.parentHash = s.highest.2
  | _ => True

/-- The block an operation commits: `Commit` of a block other than the highest committed one. -/
def Step.commits : Step κ → List (BlockData κ)
  | .commit hash =>
    match s.findBlock hash with
    | some block =>
      if s.theBlockIsCommit block then [] else [{ block with readOnly := true }.cleanJournal]
    | none => []
  | _ => []

/-! ## Reading after each operation -/

variable {s}

theorem findBlock_setBlock {hash : Hash} {block : BlockData κ} (keyed : block.blockHash = hash)
    (x : Hash) : (s.setBlock hash block).findBlock x = if x = hash then some block else s.findBlock x := by
  subst keyed
  unfold findBlock setBlock
  rw [Keyed.find_append_singleton, Keyed.find_erase]
  by_cases same : x = block.blockHash
  · simp [same]
  · simp [same, Ne.symm same]

theorem findBlock_removeBlock (hash x : Hash) :
    (s.removeBlock hash).findBlock x = if x = hash then none else s.findBlock x :=
  Keyed.find_erase _ hash x

@[simp]
theorem mem_setBlock {hash : Hash} {block b : BlockData κ} :
    b ∈ (s.setBlock hash block).unCommit ↔ (b ∈ s.unCommit ∧ b.blockHash ≠ hash) ∨ b = block := by
  simp [setBlock]

@[simp]
theorem mem_removeBlock {hash : Hash} {b : BlockData κ} :
    b ∈ (s.removeBlock hash).unCommit ↔ b ∈ s.unCommit ∧ b.blockHash ≠ hash := by
  simp [removeBlock]

theorem NumberedAbove.transfer {s' : SnapshotDB κ} {parentHash : Hash} {number : ℕ}
    (numbered : s.NumberedAbove parentHash number) (highest : s'.highest = s.highest)
    (found : ∀ q, s'.findBlock parentHash = some q →
      ∃ q', s.findBlock parentHash = some q' ∧ q'.number = q.number) :
    s'.NumberedAbove parentHash number := by
  refine ⟨fun head => ?_, fun q found' => ?_⟩
  · rw [highest] at head ⊢
    exact numbered.1 head
  · obtain ⟨q', before, same⟩ := found q found'
    rw [← same]
    exact numbered.2 q' before

theorem Uncommitted.of_eq {s' : SnapshotDB κ} (sound : s.Uncommitted)
    (unCommit : s'.unCommit = s.unCommit) (highest : s'.highest = s.highest) : s'.Uncommitted := by
  have find : s'.findBlock = s.findBlock := by
    funext x
    simp [findBlock, unCommit]
  refine ⟨?_, ?_, ?_⟩
  · rw [unCommit]
    exact sound.keys
  · rw [unCommit, highest]
    exact sound.notHead
  · simp only [NumberedAbove, find, unCommit, highest]
    exact sound.numbered

/-- Writing a block in place of the one under its hash, with the same hash, parent and number. -/
theorem Uncommitted.setBlock_same (sound : s.Uncommitted) {hash : Hash} {b b' : BlockData κ}
    (found : s.findBlock hash = some b) (keyed : b'.blockHash = b.blockHash)
    (parent : b'.parentHash = b.parentHash) (number : b'.number = b.number) :
    (s.setBlock hash b').Uncommitted := by
  obtain ⟨mem, key⟩ := Keyed.find_mem found
  have read := findBlock_setBlock (s := s) (keyed.trans key)
  have transfer : ∀ p n, s.NumberedAbove p n → (s.setBlock hash b').NumberedAbove p n := by
    intro p n numbered
    refine numbered.transfer rfl fun q found' => ?_
    rw [read] at found'
    split_ifs at found' with same
    · cases found'
      exact ⟨b, same ▸ found, number.symm⟩
    · exact ⟨q, found', rfl⟩
  refine ⟨Keyed.nodup_map_erase_append sound.keys (keyed.trans key), ?_, ?_⟩
  · intro c member
    rcases mem_setBlock.mp member with ⟨old, _⟩ | rfl
    · exact sound.notHead c old
    · rw [keyed]
      exact sound.notHead b mem
  · intro c member
    rcases mem_setBlock.mp member with ⟨old, _⟩ | rfl
    · exact transfer _ _ (sound.numbered c old)
    · rw [parent, number]
      exact transfer _ _ (sound.numbered b mem)

theorem Uncommitted.newBlock (sound : s.Uncommitted) {blockNumber : ℕ} {parentHash hash : Hash}
    (fresh : s.FreshHash hash) (other : parentHash ≠ hash)
    (numbered : s.NumberedAbove parentHash blockNumber) :
    (s.setBlock hash (BlockData.new blockNumber parentHash hash)).Uncommitted := by
  have read := findBlock_setBlock (s := s)
    (show (BlockData.new blockNumber parentHash hash : BlockData κ).blockHash = hash from rfl)
  have transfer : ∀ p n, p ≠ hash → s.NumberedAbove p n →
      (s.setBlock hash (BlockData.new blockNumber parentHash hash)).NumberedAbove p n := by
    intro p n away numbered
    refine numbered.transfer rfl fun q found' => ⟨q, ?_, rfl⟩
    rwa [read, if_neg away] at found'
  refine ⟨Keyed.nodup_map_erase_append sound.keys rfl, ?_, ?_⟩
  · intro c member
    rcases mem_setBlock.mp member with ⟨old, _⟩ | rfl
    · exact sound.notHead c old
    · exact fresh.1
  · intro c member
    rcases mem_setBlock.mp member with ⟨old, _⟩ | rfl
    · exact transfer _ _ (fresh.2 c old) (sound.numbered c old)
    · exact transfer _ _ other numbered

theorem Uncommitted.removeBlock (sound : s.Uncommitted) (hash : Hash) :
    (s.removeBlock hash).Uncommitted := by
  refine ⟨sound.keys.sublist ((Keyed.erase_sublist _ hash).map _), ?_, ?_⟩
  · intro c member
    exact sound.notHead c (mem_removeBlock.mp member).1
  · intro c member
    refine (sound.numbered c (mem_removeBlock.mp member).1).transfer rfl fun q found' => ⟨q, ?_, rfl⟩
    rw [findBlock_removeBlock] at found'
    split_ifs at found'
    exact found'

/-- `Flush` moves the unrecognized block to a fresh hash. -/
theorem Uncommitted.flush (sound : s.Uncommitted) {hash : Hash} {block : BlockData κ}
    (found : s.findBlock zeroHash = some block) (absent : s.findBlock hash = none)
    (fresh : s.FreshHash hash) :
    ((s.setBlock hash { block.cleanJournal with blockHash := hash, readOnly := true }).removeBlock
      zeroHash).Uncommitted := by
  have away : hash ≠ zeroHash := fun same => by simp [same, found] at absent
  have mem := (Keyed.find_mem found).1
  have read := findBlock_setBlock (s := s)
    (show ({ block.cleanJournal with blockHash := hash, readOnly := true } : BlockData κ).blockHash =
      hash from rfl)
  have transfer : ∀ p n, p ≠ hash → s.NumberedAbove p n →
      ((s.setBlock hash { block.cleanJournal with blockHash := hash, readOnly := true }).removeBlock
        zeroHash).NumberedAbove p n := by
    intro p n other numbered
    refine numbered.transfer rfl fun q found' => ⟨q, ?_, rfl⟩
    rw [findBlock_removeBlock, read, if_neg other] at found'
    split_ifs at found'
    exact found'
  refine ⟨?_, ?_, ?_⟩
  · exact (Keyed.nodup_map_erase_append sound.keys (k := hash) rfl).sublist
      ((Keyed.erase_sublist _ zeroHash).map _)
  · intro c member
    rcases mem_setBlock.mp (mem_removeBlock.mp member).1 with ⟨old, _⟩ | rfl
    · exact sound.notHead c old
    · exact fresh.1
  · intro c member
    rcases mem_setBlock.mp (mem_removeBlock.mp member).1 with ⟨old, _⟩ | rfl
    · exact transfer _ _ (fresh.2 c old) (sound.numbered c old)
    · exact transfer _ _ (fresh.2 block mem) (sound.numbered block mem)

theorem Uncommitted.commit (sound : s.Uncommitted) {hash : Hash} {block : BlockData κ}
    (found : s.findBlock hash = some block) (onHead : block.parentHash = s.highest.2)
    (committed walQueue : List (BlockData κ)) :
    ({ s with highest := (s.highest.1 + 1, hash), committed := committed, walQueue := walQueue } :
      SnapshotDB κ).removeBlock hash |>.Uncommitted := by
  have above : block.number = s.highest.1 + 1 :=
    (sound.numbered block (Keyed.find_mem found).1).1 onHead
  refine ⟨sound.keys.sublist ((Keyed.erase_sublist _ hash).map _), ?_, ?_⟩
  · intro c member
    exact (mem_removeBlock.mp member).2
  · intro c member
    have numbered := sound.numbered c (mem_removeBlock.mp member).1
    refine ⟨fun onNew => ?_, fun q found' => ?_⟩
    · have child := numbered.2 block (onNew ▸ found)
      show c.number = s.highest.1 + 1 + 1
      omega
    · rw [findBlock_removeBlock] at found'
      split_ifs at found'
      exact numbered.2 q found'

theorem Uncommitted.rmExpireForkBlock (sound : s.Uncommitted) : s.rmExpireForkBlock.Uncommitted := by
  unfold SnapshotDB.rmExpireForkBlock
  split_ifs
  · refine ⟨sound.keys.sublist (List.filter_sublist.map _), ?_, ?_⟩
    · intro c member
      exact sound.notHead c (List.mem_filter.mp member).1
    · intro c member
      refine (sound.numbered c (List.mem_filter.mp member).1).transfer rfl
        fun q found' => ⟨q, ?_, rfl⟩
      exact ((Keyed.find_filter_eq_some_iff sound.keys _).mp found').1
  · exact sound

end SnapshotDB

/-! ## The committed side after each operation -/

theorem BaseHolds.put_record {baseDB : LevelDB κ} {layers : List (MemDB κ)}
    (holds : BaseHolds layout baseDB layers) {r : κ} (record : layout.IsRecord r) (v : Stored κ) :
    BaseHolds layout (baseDB.put r v) layers := by
  intro k user
  rw [SortedMap.get_put, if_neg fun (same : r = k) => user (same ▸ record)]
  exact holds k user

/-- `writeToBasedb`'s batch lands the blocks' data on the base. -/
theorem BaseHolds.writeToBasedb {baseDB : LevelDB κ} {layers : List (MemDB κ)}
    (holds : BaseHolds layout baseDB layers) (blocks : List (BlockData κ)) :
    BaseHolds layout (SnapshotDB.writeToBasedb layout baseDB blocks)
      (layers ++ blocks.map BlockData.data) := by
  induction blocks using List.reverseRecOn with
  | nil => simpa [SnapshotDB.writeToBasedb] using holds
  | append_singleton blocks block ih =>
    intro k user
    have reads : ∀ (m : LevelDB κ) (e : κ × List UInt8) k,
        (if e.2 = [] then m.delete e.1 else m.put e.1 (.bytes e.2)).get k =
          if e.1 = k then (fun v : List UInt8 => if v = [] then none else some (Stored.bytes v)) e.2
          else m.get k := by
      intro m e k
      by_cases hit : e.1 = k
      · subst hit
        by_cases empty : e.2 = [] <;> simp [empty]
      · by_cases empty : e.2 = [] <;> simp [empty, hit, Ne.symm hit]
    have notWal : k ≠ layout.walKey block.number := fun same => user (.inr (.inr (.inr ⟨_, same⟩)))
    simp only [SnapshotDB.writeToBasedb, List.foldl_append, List.foldl_cons, List.foldl_nil] at ih ⊢
    rw [SortedMap.get_delete, if_neg notWal, @SortedMap.get_foldl_entries _ _ _ _ _
      (fun v : List UInt8 => if v = [] then none else some (Stored.bytes v)) reads block.data _ k,
      ih k user,
      List.map_append, List.map_singleton, ← List.append_assoc,
      SortedMap.lastWrite_append_singleton]
    cases written : block.data.get k with
    | none => rfl
    | some v => by_cases empty : v = [] <;> simp [empty, Option.filter_some]

namespace SnapshotDB

variable {s : SnapshotDB κ} {blocks : List (BlockData κ)}

theorem Committed.of_frame {s' : SnapshotDB κ} (sound : s.Committed layout blocks)
    (committed : s'.committed = s.committed) (baseNum : s'.baseNum = s.baseNum)
    (highest : s'.highest = s.highest)
    (holds : ∀ layers, BaseHolds layout s.baseDB layers → BaseHolds layout s'.baseDB layers) :
    s'.Committed layout blocks := by
  obtain ⟨⟨compacted, split, base⟩, counted, linked, last⟩ := sound
  refine ⟨⟨compacted, by rw [committed]; exact split, holds _ base⟩, ?_, ?_, ?_⟩
  · rw [baseNum, committed, highest]
    exact counted
  · rw [committed]
    exact linked
  · rw [committed, highest]
    exact last

/-- `Commit` of a block on the head appends it to the committed list and makes it the head. -/
theorem Committed.commit (sound : s.Committed layout blocks) {hash : Hash} {block : BlockData κ}
    (found : s.findBlock hash = some block) (onHead : block.parentHash = s.highest.2)
    (walQueue : List (BlockData κ)) :
    (({ s with
          highest := (s.highest.1 + 1, hash)
          committed := s.committed ++ [{ block with readOnly := true }.cleanJournal]
          walQueue := walQueue } : SnapshotDB κ).removeBlock hash).Committed layout
      (blocks ++ [{ block with readOnly := true }.cleanJournal]) := by
  obtain ⟨⟨compacted, split, base⟩, counted, linked, last⟩ := sound
  refine ⟨⟨compacted, by rw [split, List.append_assoc]; rfl, base⟩, ?_, ?_, ?_⟩
  · show s.baseNum + (s.committed ++ _).length = s.highest.1 + 1
    simp only [List.length_append, List.length_singleton]
    omega
  · refine linked.append (List.isChain_singleton _) fun c lastOne b first => ?_
    simp only [List.head?_cons, Option.mem_def, Option.some.injEq] at first
    rw [← first, last c lastOne]
    exact onHead
  · intro c lastOne
    simp only [removeBlock, List.getLast?_append, List.getLast?_singleton, Option.some_or,
      Option.mem_def, Option.some.injEq] at lastOne
    rw [← lastOne]
    exact (Keyed.find_mem found).2

/-! ## The operations' effects -/

variable (generateKVHash : κ → List UInt8 → Hash → Hash)

theorem newBlock_eq {blockNumber : ℕ} {parentHash hash : Hash} {s' : SnapshotDB κ}
    (made : s.newBlock blockNumber parentHash hash = .ok s') :
    s' = s.setBlock hash (BlockData.new blockNumber parentHash hash) := by
  unfold SnapshotDB.newBlock at made
  split_ifs at made
  injection made with same
  exact same.symm

theorem put_eq {hash : Hash} {key : κ} {value : List UInt8} {s' : SnapshotDB κ}
    (written : s.put generateKVHash hash key value = .ok s') :
    ∃ b, s.findBlock hash = some b ∧ s' = s.setBlock hash (b.write generateKVHash key value) := by
  unfold SnapshotDB.put at written
  split at written
  · cases written
  · rename_i b found
    unfold BlockData.put at written
    split_ifs at written
    injection written with same
    exact ⟨b, found, same.symm⟩

theorem snapshot_cases (hash : Hash) :
    (s.snapshot hash).2 = s ∨
      ∃ b, s.findBlock hash = some b ∧ (s.snapshot hash).2 = s.setBlock hash b.snapshot.2 := by
  unfold SnapshotDB.snapshot
  split
  · exact .inl rfl
  · rename_i b found
    exact .inr ⟨b, found, rfl⟩

theorem revertToSnapshot_cases {hash : Hash} {revid : ℕ} {s' : SnapshotDB κ}
    (reverted : s.revertToSnapshot hash revid = some s') :
    s' = s ∨ ∃ b b', s.findBlock hash = some b ∧ b.revertToSnapshot revid = some b' ∧
      s' = s.setBlock hash b' := by
  unfold SnapshotDB.revertToSnapshot at reverted
  split at reverted
  · injection reverted with same
    exact .inl same.symm
  · rename_i b found
    obtain ⟨b', back, rfl⟩ := Option.map_eq_some_iff.mp reverted
    exact .inr ⟨b, b', found, back, rfl⟩

theorem flush_eq {hash : Hash} {blockNumber : ℕ} {s' : SnapshotDB κ}
    (flushed : s.flush hash blockNumber = .ok s') :
    ∃ block, s.findBlock zeroHash = some block ∧ s.findBlock hash = none ∧
      s' = (s.setBlock hash { block.cleanJournal with blockHash := hash, readOnly := true }).removeBlock
        zeroHash := by
  unfold SnapshotDB.flush at flushed
  split at flushed
  · cases flushed
  · split at flushed
    · cases flushed
    · rename_i block found
      split_ifs at flushed with taken
      injection flushed with same
      exact ⟨block, found, Option.not_isSome_iff_eq_none.mp taken, same.symm⟩

theorem commit_eq {hash : Hash} {s' : SnapshotDB κ} (committed : s.commit hash = .ok s') :
    ∃ block, s.findBlock hash = some block ∧
      (s.theBlockIsCommit block = true ∧ s' = s.removeBlock hash ∨
        s.theBlockIsCommit block = false ∧
          s' = ({ s with
                  highest := (s.highest.1 + 1, hash)
                  committed := s.committed ++ [{ block with readOnly := true }.cleanJournal]
                  walQueue := s.walQueue ++ [{ block with readOnly := true }.cleanJournal] } :
              SnapshotDB κ).removeBlock hash) := by
  unfold SnapshotDB.commit at committed
  split at committed
  · cases committed
  · split at committed
    · cases committed
    · rename_i block found
      refine ⟨block, found, ?_⟩
      split_ifs at committed with highest
      · injection committed with same
        exact .inl ⟨highest, same.symm⟩
      · injection committed with same
        exact .inr ⟨by simpa using highest, same.symm⟩

theorem scanToWrite_le (i kvsize : ℕ) (blocks : List (BlockData κ)) :
    scanToWrite i kvsize blocks ≤ i + blocks.length := by
  induction blocks generalizing i kvsize with
  | nil => simp [scanToWrite]
  | cons block rest ih =>
    have further := ih (i + 1) (kvsize + block.data.entries.length)
    simp only [scanToWrite, List.length_cons]
    split_ifs <;> omega

theorem findToWrite_spec (chainHead : Option ℕ) (nonempty : s.committed ≠ []) :
    (s.findToWrite layout chainHead).2 ≤ s.committed.length ∧
      ((s.findToWrite layout chainHead).1 = s ∨
        (s.findToWrite layout chainHead).1 = { s with dbError := some "get current highest block fail" } ∧
          (s.findToWrite layout chainHead).2 = 0) := by
  have scanned := scanToWrite_le 0 0 s.committed
  have counted : 1 ≤ s.committed.length := List.length_pos_iff.mpr nonempty
  unfold SnapshotDB.findToWrite
  split_ifs
  · exact ⟨Nat.sub_le _ _, .inl rfl⟩
  · split
    · exact ⟨le_trans (Nat.sub_le _ _) (max_le (by omega) counted), .inl rfl⟩
    · exact ⟨Nat.zero_le _, .inr ⟨rfl, rfl⟩⟩

/-- `compactionBatch` writes some of the first committed blocks to the base, and may set
`dbError`. -/
theorem compactionBatch_spec (chainHead : Option ℕ) :
    ∃ dbError, (s.compactionBatch layout chainHead).2 ≤ s.committed.length ∧
      (s.compactionBatch layout chainHead).1 = { s with
        dbError := dbError
        baseDB := writeToBasedb layout s.baseDB
          (s.committed.take (s.compactionBatch layout chainHead).2) } := by
  unfold SnapshotDB.compactionBatch
  split_ifs with empty
  · exact ⟨s.dbError, Nat.zero_le _, rfl⟩
  · obtain ⟨bound, same | ⟨failed, none⟩⟩ := s.findToWrite_spec layout chainHead empty
    · rcases found : s.findToWrite layout chainHead with ⟨s₁, _ | n⟩
      all_goals rw [found] at bound same
      all_goals simp only at same
      all_goals subst same
      · exact ⟨s₁.dbError, Nat.zero_le _, rfl⟩
      · exact ⟨s₁.dbError, bound, rfl⟩
    · rcases found : s.findToWrite layout chainHead with ⟨s₁, n⟩
      rw [found] at failed none
      simp only at failed none
      subst failed none
      exact ⟨some "get current highest block fail", Nat.zero_le _, rfl⟩

/-! ## A run keeps the invariant -/

theorem ok_of_toOption {α : Type} {result : Except String α} {a : α}
    (succeeded : result.toOption = some a) : result = .ok a := by
  cases result with
  | error e => cases succeeded
  | ok v => cases succeeded; rfl

theorem Sound.setBlock_same (sound : s.Sound layout blocks) {hash : Hash} {b b' : BlockData κ}
    (found : s.findBlock hash = some b) (keyed : b'.blockHash = b.blockHash)
    (parent : b'.parentHash = b.parentHash) (number : b'.number = b.number) :
    (s.setBlock hash b').Sound layout blocks :=
  ⟨sound.1.of_frame layout rfl rfl rfl fun _ holds => holds,
    sound.2.setBlock_same found keyed parent number⟩

theorem Sound.walWriter (sound : s.Sound layout blocks) : (s.walWriter layout).Sound layout blocks := by
  unfold SnapshotDB.walWriter
  split
  · exact sound
  · split
    · exact ⟨sound.1.of_frame layout rfl rfl rfl fun _ holds => holds.put_record layout (.inl rfl) _,
        sound.2.of_eq rfl rfl⟩
    · exact ⟨sound.1.of_frame layout rfl rfl rfl
          fun _ holds => holds.put_record layout (.inr (.inr (.inr ⟨_, rfl⟩))) _,
        sound.2.of_eq rfl rfl⟩

@[simp]
theorem rmExpireForkBlock_committed : s.rmExpireForkBlock.committed = s.committed := by
  unfold SnapshotDB.rmExpireForkBlock
  split_ifs <;> rfl

@[simp]
theorem rmExpireForkBlock_baseNum : s.rmExpireForkBlock.baseNum = s.baseNum := by
  unfold SnapshotDB.rmExpireForkBlock
  split_ifs <;> rfl

@[simp]
theorem rmExpireForkBlock_baseDB : s.rmExpireForkBlock.baseDB = s.baseDB := by
  unfold SnapshotDB.rmExpireForkBlock
  split_ifs <;> rfl

@[simp]
theorem rmExpireForkBlock_highest : s.rmExpireForkBlock.highest = s.highest := by
  unfold SnapshotDB.rmExpireForkBlock
  split_ifs <;> rfl

theorem Sound.rmExpireForkBlock (sound : s.Sound layout blocks) :
    s.rmExpireForkBlock.Sound layout blocks :=
  ⟨sound.1.of_frame layout (by simp) (by simp) (by simp) fun _ holds => by simpa using holds,
    sound.2.rmExpireForkBlock⟩

/-- `Compaction` moves the blocks it writes from the committed list to the base. -/
theorem Sound.compaction (sound : s.Sound layout blocks) (chainHead : Option ℕ) :
    (s.compaction layout chainHead).Sound layout blocks := by
  obtain ⟨⟨⟨compacted, split, holds⟩, counted, linked, last⟩, uncommitted⟩ := sound
  obtain ⟨dbError, bound, batch⟩ := s.compactionBatch_spec layout chainHead
  unfold SnapshotDB.compaction
  rw [batch]
  generalize (s.compactionBatch layout chainHead).2 = n at bound ⊢
  unfold SnapshotDB.compactionFinish
  split_ifs with none
  · subst none
    exact ⟨⟨⟨compacted, split, holds⟩, counted, linked, last⟩, uncommitted.of_eq rfl rfl⟩
  · apply Sound.rmExpireForkBlock
    refine ⟨⟨⟨compacted ++ s.committed.take n, ?_, ?_⟩, ?_, linked.drop n, ?_⟩,
      uncommitted.of_eq rfl rfl⟩
    · dsimp only
      rw [split, List.append_assoc, List.take_append_drop]
    · dsimp only
      rw [List.map_append]
      exact (holds.writeToBasedb layout _).put_record layout (.inr (.inl rfl)) _
    · show s.baseNum + n + (s.committed.drop n).length = s.highest.1
      rw [List.length_drop]
      omega
    · intro c lastOne
      dsimp only at lastOne
      rw [List.getLast?_drop] at lastOne
      split_ifs at lastOne
      · simp at lastOne
      · exact last c lastOne

theorem sound_openFresh : (openFresh layout SortedMap.empty).Sound layout [] := by
  have empty : BaseHolds layout (SortedMap.empty : LevelDB κ) [] := fun k _ => rfl
  refine ⟨⟨⟨[], rfl, ?_⟩, rfl, List.isChain_nil, by simp [openFresh]⟩, ⟨List.nodup_nil, ?_, ?_⟩⟩
  · exact ((empty.put_record layout (.inl rfl) _).put_record layout (.inr (.inl rfl)) _).put_record
      layout (.inr (.inr (.inl rfl))) _
  · simp [openFresh]
  · simp [openFresh]

/-- One proper operation keeps the invariant, with the block it commits added. -/
theorem Sound.step (sound : s.Sound layout blocks) {step : Step κ} (proper : s.Proper step)
    {s' : SnapshotDB κ} (applied : step.apply layout generateKVHash s = some s') :
    s'.Sound layout (blocks ++ step.commits s) := by
  cases step with
  | newBlock blockNumber parentHash hash =>
    simp only [Step.commits, List.append_nil]
    obtain ⟨fresh, other, numbered⟩ := proper
    rw [newBlock_eq (ok_of_toOption applied)]
    exact ⟨sound.1.of_frame layout rfl rfl rfl fun _ holds => holds,
      sound.2.newBlock fresh other numbered⟩
  | put hash key value =>
    simp only [Step.commits, List.append_nil]
    obtain ⟨b, found, rfl⟩ := put_eq generateKVHash (ok_of_toOption applied)
    exact sound.setBlock_same layout found rfl rfl rfl
  | snapshot hash =>
    simp only [Step.commits, List.append_nil]
    simp only [Step.apply, Option.some.injEq] at applied
    subst applied
    rcases s.snapshot_cases hash with same | ⟨b, found, same⟩ <;> rw [same]
    · exact sound
    · exact sound.setBlock_same layout found rfl rfl rfl
  | revertToSnapshot hash revid =>
    simp only [Step.commits, List.append_nil]
    rcases revertToSnapshot_cases applied with rfl | ⟨b, b', found, back, rfl⟩
    · exact sound
    · obtain ⟨keyed, parent, number⟩ := BlockData.revertToSnapshot_header back
      exact sound.setBlock_same layout found keyed parent number
  | flush hash blockNumber =>
    simp only [Step.commits, List.append_nil]
    obtain ⟨block, found, absent, rfl⟩ := flush_eq (ok_of_toOption applied)
    exact ⟨sound.1.of_frame layout rfl rfl rfl fun _ holds => holds,
      sound.2.flush found absent proper⟩
  | commit hash =>
    obtain ⟨block, found, ⟨highest, rfl⟩ | ⟨moved, rfl⟩⟩ :=
      commit_eq (ok_of_toOption applied)
    · simp only [Step.commits, found, highest, if_true, List.append_nil]
      exact ⟨sound.1.of_frame layout rfl rfl rfl fun _ holds => holds, sound.2.removeBlock hash⟩
    · have onHead := (proper block found).resolve_left (by simp [moved])
      simp only [Step.commits, found, moved]
      exact ⟨sound.1.commit layout found onHead _, sound.2.commit found onHead _ _⟩
  | walWriter =>
    simp only [Step.commits, List.append_nil]
    simp only [Step.apply, Option.some.injEq] at applied
    subst applied
    exact sound.walWriter layout
  | compaction chainHead =>
    simp only [Step.commits, List.append_nil]
    simp only [Step.apply, Option.some.injEq] at applied
    subst applied
    exact sound.compaction layout chainHead

/-- The runs the read semantics speaks of: proper operations from a fresh database on an empty
base, with the blocks they committed, oldest first. -/
inductive ProperRun : SnapshotDB κ → List (BlockData κ) → Prop
  | openFresh : ProperRun (openFresh layout SortedMap.empty) []
  | step {s s' : SnapshotDB κ} {blocks : List (BlockData κ)} (step : Step κ) :
      ProperRun s blocks → s.Proper step → step.apply layout generateKVHash s = some s' →
      ProperRun s' (blocks ++ step.commits s)

theorem ProperRun.sound (run : ProperRun layout generateKVHash s blocks) :
    s.Sound layout blocks := by
  induction run with
  | openFresh => exact sound_openFresh layout
  | step step _ proper applied ih => exact ih.step layout generateKVHash proper applied

/-! ## `Compaction` keeps every live block live -/

namespace Chain

variable {hash : Hash} {path : List (BlockData κ)}

theorem start (chain : s.Chain hash path) :
    hash = s.highest.2 ∧ path = [] ∨ ∃ b, s.findBlock hash = some b ∧ b ∈ path := by
  cases chain with
  | head _ => exact .inl ⟨rfl, rfl⟩
  | block found _ => exact .inr ⟨_, found, List.mem_cons_self⟩

theorem above (sound : s.Uncommitted) (chain : s.Chain hash path) :
    ∀ b ∈ path, s.highest.1 < b.number := by
  induction chain with
  | head _ => simp
  | @block hash block path found rest ih =>
    intro b mem
    rcases List.mem_cons.mp mem with rfl | later
    · have numbered := sound.numbered b (Keyed.find_mem found).1
      rcases rest.start with ⟨onHead, _⟩ | ⟨parent, found', mem'⟩
      · rw [numbered.1 onHead]
        exact Nat.lt_succ_self _
      · rw [numbered.2 parent found']
        exact Nat.lt_succ_of_lt (ih parent mem')
    · exact ih b later

theorem transfer {s' : SnapshotDB κ} (chain : s.Chain hash path) (highest : s'.highest = s.highest)
    (kept : ∀ x b, b ∈ path → s.findBlock x = some b → s'.findBlock x = some b)
    (absent : s.findBlock s.highest.2 = none → s'.findBlock s.highest.2 = none) :
    s'.Chain hash path := by
  induction chain with
  | head none =>
    rw [← highest]
    exact .head (by rw [highest]; exact absent none)
  | block found _ ih =>
    exact .block (kept _ _ List.mem_cons_self found)
      (ih fun x b mem => kept x b (List.mem_cons_of_mem _ mem))

end Chain

theorem findBlock_rmExpireForkBlock (sound : s.Uncommitted) {x : Hash} {b : BlockData κ}
    (found : s.findBlock x = some b) (above : s.baseNum < b.number) :
    s.rmExpireForkBlock.findBlock x = some b := by
  unfold SnapshotDB.rmExpireForkBlock
  split_ifs
  · exact (Keyed.find_filter_eq_some_iff sound.keys _).mpr ⟨found, by simpa using above⟩
  · exact found

theorem findBlock_rmExpireForkBlock_eq_none {x : Hash} (absent : s.findBlock x = none) :
    s.rmExpireForkBlock.findBlock x = none := by
  unfold SnapshotDB.rmExpireForkBlock
  split_ifs
  · exact Keyed.find_filter_eq_none absent _
  · exact absent

/-- `Compaction` raises the base no higher than the head, and the blocks of a live walk lie above
the head, so `rmExpireForkBlock` keeps them all. -/
theorem Chain.compaction (sound : s.Sound layout blocks) {hash : Hash}
    {path : List (BlockData κ)} (chain : s.Chain hash path) (chainHead : Option ℕ) :
    (s.compaction layout chainHead).Chain hash path := by
  have above := chain.above sound.2
  obtain ⟨dbError, bound, batch⟩ := s.compactionBatch_spec layout chainHead
  unfold SnapshotDB.compaction
  rw [batch]
  generalize (s.compactionBatch layout chainHead).2 = n at bound ⊢
  unfold SnapshotDB.compactionFinish
  split_ifs
  · exact chain.transfer rfl (fun _ _ _ found => found) id
  · have raised : s.baseNum + n ≤ s.highest.1 := by
      have := sound.1.counted
      omega
    refine chain.transfer (by simp) (fun x b mem found => ?_)
      (fun absent => findBlock_rmExpireForkBlock_eq_none absent)
    have higher := above b mem
    refine findBlock_rmExpireForkBlock ?_ found ?_
    · exact sound.2.of_eq rfl rfl
    · show s.baseNum + n < b.number
      omega

theorem get_compaction_of_chain (sound : s.Sound layout blocks) {hash : Hash}
    {path : List (BlockData κ)} (chain : s.Chain hash path) {key : κ}
    (user : ¬ layout.IsRecord key) (chainHead : Option ℕ) :
    (s.compaction layout chainHead).get layout hash key = s.get layout hash key := by
  rw [get_of_chain layout _ (sound.compaction layout chainHead).1.represents
      (chain.compaction layout sound chainHead) user,
    get_of_chain layout _ sound.1.represents chain user]

end SnapshotDB

/-! ## The records read through `Get` -/

/-- The hash of the third block, made on the head of `twoBlocks`. -/
def blockThreeHash : Hash := 3#256

/-- After `twoBlocks`, a third block on the head is live and reads the WAL entry of the first
block, which no block wrote, under its WAL key; `Compaction` then writes the first block and
deletes the entry, and the same read becomes `ErrNotFound`. -/
theorem wal_key_read_until_compaction :
    ∃ s, SnapshotDB.run numberedLayout (fun _ _ kvHash => kvHash)
        (twoBlocks ++ [.newBlock 3 blockTwoHash blockThreeHash])
        (SnapshotDB.openFresh numberedLayout SortedMap.empty) = some s ∧
      s.Chain blockThreeHash [BlockData.new 3 blockTwoHash blockThreeHash] ∧
      (∃ v, v ≠ [] ∧ s.get numberedLayout blockThreeHash (numberedLayout.walKey 1) = some (.ok v)) ∧
      (s.compaction numberedLayout none).get numberedLayout blockThreeHash
        (numberedLayout.walKey 1) = some (.error errNotFound) := by
  refine ⟨_, rfl, .block rfl (.head rfl), ⟨_, ?_, rfl⟩, rfl⟩
  decide

end Snapshotdb
end Bubble
