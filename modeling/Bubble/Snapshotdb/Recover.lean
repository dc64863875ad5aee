import Mathlib
import Bubble.Snapshotdb.Db

/-!
# Opening the snapshot database after a restart

`open` of `core/snapshotdb/snapshotdb.go` on a base leveldb that holds the `CurrentSet` marker:
`loadCurrent` reads the base and highest records, and `recover` rebuilds the committed list from
the WAL entries between them and writes the current records back.  A crash leaves the base as the
last atomic write made it; reopening that base is all the database keeps of the run.

`Compaction` makes two writes: the batch that writes the oldest committed blocks to the base and
deletes their WAL entries, and then `CurrentBaseNum`.  A crash between them leaves a base whose
WAL no longer starts right above `CurrentBaseNum`, and `recover` refuses it.
-/

namespace Bubble
namespace Snapshotdb

variable {κ : Type} [LinearOrder κ] (layout : Layout κ)

/-- What `open` asks of the blockchain when there is one: its current header, and the numbers it
has a header for. -/
structure Chain where
  currentHeader : ℕ × Hash
  hasHeader : ℕ → Bool

/-- `loadCurrent`: the base number and the highest block from the base, the highest lowered to the
chain's current header (and saved) when it is above it. -/
def loadCurrent (chain : Option Chain) (baseDB : LevelDB κ) :
    Except String (LevelDB κ × ℕ × (ℕ × Hash)) :=
  match baseDB.get layout.currentBaseNum with
  | none => .error "get current base num fail"
  | some (.base base) =>
    match baseDB.get layout.currentHighestBlock with
    | none => .error "get current highest block fail"
    | some (.highest num hash) =>
      if num < base then .error "base num can't be greater than highest Num"
      else
        match chain with
        | none => .ok (baseDB, base, (num, hash))
        | some chain =>
          if chain.currentHeader.1 < base then
            .error "base num can't be greater than currentHead Number"
          else if chain.currentHeader.1 < num then
            .ok (baseDB.put layout.currentHighestBlock
              (.highest chain.currentHeader.1 chain.currentHeader.2), base, chain.currentHeader)
          else .ok (baseDB, base, (num, hash))
    | some _ => .error "decode current highest block fail"
  | some _ => .error "decode current base num fail"

/-- The WAL entries of the base, as number, key and value, by number. -/
def walEntries (baseDB : LevelDB κ) : List (ℕ × κ × Stored κ) :=
  List.insertionSort (fun a b => a.1 ≤ b.1)
    (baseDB.entries.filterMap fun e => (layout.walNumber e.1).map fun n => (n, e.1, e.2))

/-- The variables of `recover`'s loop over the WAL. -/
structure Recovery (κ : Type) [LinearOrder κ] where
  journalBrokenNum : ℕ
  committed : List (BlockData κ)
  walNeedDelete : List κ

/-- One round of `recover`'s loop: after a broken entry every later one goes; an entry in
`(baseNum, highestNum]` is recovered unless the chain lacks its header or it does not decode; any
other entry is deleted by its value, not its key. -/
def recoverWal (chain : Option Chain) (baseNum highestNum : ℕ) (r : Recovery κ)
    (wal : ℕ × κ × Stored κ) : Recovery κ :=
  if r.journalBrokenNum ≠ 0 ∧ r.journalBrokenNum ≤ wal.1 then
    { r with walNeedDelete := r.walNeedDelete ++ [wal.2.1] }
  else if baseNum < wal.1 ∧ wal.1 ≤ highestNum then
    if chain.any fun chain => !chain.hasHeader wal.1 then
      { r with walNeedDelete := r.walNeedDelete ++ [wal.2.1], journalBrokenNum := wal.1 }
    else
      match wal.2.2 with
      | .wal block => { r with committed := r.committed ++ [block.toBlockData] }
      | _ => { r with walNeedDelete := r.walNeedDelete ++ [wal.2.1], journalBrokenNum := wal.1 }
  else
    { r with walNeedDelete :=
        r.walNeedDelete ++ [layout.keyOfBytes (wal.2.2.toBytes layout.keyBytes)] }

/-- `recover`: the WAL must start no higher than right above the base; the recovered blocks become
the committed list, `SetCurrent` records the last of them (or the base) as the highest, and then the
batch of deletes is written. -/
def recover (chain : Option Chain) (baseDB : LevelDB κ) (baseNum : ℕ) (highest : ℕ × Hash) :
    Except String (SnapshotDB κ) :=
  let wals := walEntries layout baseDB
  if wals.head?.any fun wal => baseNum + 1 < wal.1 then .error "wal is not enough"
  else
    let r := wals.foldl (recoverWal layout chain baseNum highest.1) ⟨0, [], []⟩
    let top := match r.committed.getLast? with
      | some block => (block.number, block.blockHash)
      | none => (baseNum, zeroHash)
    .ok { dbError := none, highest := top, baseNum := baseNum,
          baseDB := r.walNeedDelete.foldl SortedMap.delete
            (SnapshotDB.setCurrentBatch layout baseDB top.2 baseNum top.1),
          unCommit := [], committed := r.committed, walQueue := [], walWritten := false }

/-- `open`: recover from a base with the `CurrentSet` marker, start afresh on one without. -/
def openDB (chain : Option Chain) (baseDB : LevelDB κ) : Except String (SnapshotDB κ) :=
  match baseDB.get layout.currentSet with
  | none => .ok (SnapshotDB.openFresh layout baseDB)
  | some _ =>
    match loadCurrent layout chain baseDB with
    | .error e => .error e
    | .ok (baseDB, baseNum, highest) => recover layout chain baseDB baseNum highest

/-! ## A crash inside `Compaction` -/

/-- A layout over numbered keys: the records at `0`, `1` and `2`, the WAL entry of block `n` at
`2 * n + 3`, and the user keys even from `4`; a key's bytes are its big-endian digits. -/
def numberedLayout : Layout ℕ where
  currentHighestBlock := 0
  currentBaseNum := 1
  currentSet := 2
  walKey n := 2 * n + 3
  walNumber k := if 3 ≤ k ∧ k % 2 = 1 then some ((k - 3) / 2) else none
  keyBytes k := (Nat.digits 256 k).reverse.map Nat.toUInt8
  keyOfBytes bytes := Nat.ofDigits 256 (bytes.reverse.map UInt8.toNat)

/-- The hash of the first block of `twoBlocks`. -/
def blockOneHash : Hash := 1#256

/-- The hash of the second block of `twoBlocks`. -/
def blockTwoHash : Hash := 2#256

/-- Two blocks made and committed one after the other, the WAL goroutine finishing each. -/
def twoBlocks : List (SnapshotDB.Step ℕ) :=
  [.newBlock 1 zeroHash blockOneHash, .commit blockOneHash, .walWriter, .walWriter,
   .newBlock 2 blockOneHash blockTwoHash, .commit blockTwoHash, .walWriter, .walWriter]

/-- After two committed blocks, `Compaction` writes the first; its batch deletes `journal-1` while
`CurrentBaseNum` stays `0` under `CurrentHighestBlock` `2`, and a crash there leaves a base that
`open` refuses. -/
theorem compaction_crash_breaks_recover (generateKVHash : ℕ → List UInt8 → Hash → Hash) :
    ∃ s, SnapshotDB.run numberedLayout generateKVHash twoBlocks
        (SnapshotDB.openFresh numberedLayout SortedMap.empty) = some s ∧
      (s.compactionBatch numberedLayout none).2 = 1 ∧
      (s.compactionBatch numberedLayout none).1.baseDB.get numberedLayout.currentBaseNum =
        some (.base 0) ∧
      (s.compactionBatch numberedLayout none).1.baseDB.get numberedLayout.currentHighestBlock =
        some (.highest 2 blockTwoHash) ∧
      (s.compactionBatch numberedLayout none).1.baseDB.get (numberedLayout.walKey 1) = none ∧
      openDB numberedLayout none (s.compactionBatch numberedLayout none).1.baseDB =
        .error "wal is not enough" :=
  ⟨_, rfl, rfl, rfl, rfl, rfl, rfl⟩

end Snapshotdb
end Bubble
