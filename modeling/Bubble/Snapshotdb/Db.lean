import Bubble.Lib.Keyed
import Bubble.Rlp.Encode
import Bubble.Snapshotdb.BlockData

/-!
# The snapshot database

`snapshotDB` of `core/snapshotdb/snapshotdb.go`: the blocks not yet committed, by hash, each with
its data and journal (`BlockData`); the committed blocks not yet compacted, oldest first; the base
leveldb; and `current`, the highest committed block and the highest compacted one.  `NewBlock`
makes a block, `Put` and `Del` write it, `Flush` turns the unrecognized block (hash zero) into a
recognized one, and `Commit` moves a block to the committed list and hands it to a goroutine that
writes its WAL entry `journal-n` to the base and then records it as `CurrentHighestBlock`.
`Compaction` writes the oldest committed blocks' data to the base in one batch, which also deletes
their WAL entries, and then records the new `CurrentBaseNum`.  `Get` reads a key in the uncommitted
blocks from a hash along their parents, then in the committed blocks from the newest, then in the
base.

The base is one ordered key space: the database's own records sit under the keys a `Layout` names,
the user keys beside them.  Each leveldb write is atomic.  The WAL goroutine's two writes are two
steps of `walWriter`, and `Compaction`'s are `compactionBatch` and `compactionFinish`, so that a
crash can fall between them.
-/

namespace Bubble
namespace Snapshotdb

open Rlp

/-- `kvLIMIT`. -/
def kvLIMIT : ℕ := 2000

/-- `UnBlockNeedClean`. -/
def unBlockNeedClean : ℕ := 200

/-- `MaxBlockCompaction`. -/
def maxBlockCompaction : ℕ := 10

/-- `MaxBlockNotCompactionSync`. -/
def maxBlockNotCompactionSync : ℕ := 10

/-- `MaxBlockTriggerCompaction`. -/
def maxBlockTriggerCompaction : ℕ := 200

/-- `ErrNotFound`. -/
def errNotFound : String := "snapshotDB: not found"

/-- Where the database keeps its own records among the keys of the base leveldb. -/
structure Layout (κ : Type) where
  /-- `CurrentHighestBlock`. -/
  currentHighestBlock : κ
  /-- `CurrentBaseNum`. -/
  currentBaseNum : κ
  /-- `CurrentSet`. -/
  currentSet : κ
  /-- `EncodeWalKey`: `journal-` and the bytes of the block number. -/
  walKey : ℕ → κ
  /-- `DecodeWalKey` on the keys under the `journal-` prefix, which `recover` iterates. -/
  walNumber : κ → Option ℕ
  /-- The bytes of a key, as a WAL entry encodes them. -/
  keyBytes : κ → List UInt8
  /-- The key whose bytes these are, as `Delete` takes it. -/
  keyOfBytes : List UInt8 → κ

/-- `blockWal`: what a WAL entry keeps of a committed block. -/
structure BlockWal (κ : Type) where
  parentHash : Hash
  blockHash : Hash
  blockNumber : ℕ
  kvHash : Hash
  data : List (κ × List UInt8)
  deriving DecidableEq

/-- A value of the base leveldb, by the record it encodes. -/
inductive Stored (κ : Type)
  /-- A user value. -/
  | bytes (value : List UInt8)
  /-- `CurrentHighest`. -/
  | highest (num : ℕ) (hash : Hash)
  /-- `CurrentBase`. -/
  | base (num : ℕ)
  /-- The `CurrentSet` marker, whose value is its own key's text. -/
  | set
  /-- A WAL entry. -/
  | wal (block : BlockWal κ)
  deriving DecidableEq

/-- The bytes leveldb holds for a stored value: the records are RLP encodings, with the numbers
of `big.Int` fields below `2 ^ 64`. -/
def Stored.toBytes {κ : Type} (keyBytes : κ → List UInt8) : Stored κ → List UInt8
  | .bytes value => value
  | .highest num hash => encodeToBytes (.list [.uint num.toUInt64, .byteArray hash.bytes])
  | .base num => encodeToBytes (.list [.uint num.toUInt64])
  | .set => "snapshotdbCurrentSet".toUTF8.toList
  | .wal block => encodeToBytes (.list [.byteArray block.parentHash.bytes,
      .byteArray block.blockHash.bytes, .uint block.blockNumber.toUInt64,
      .byteArray block.kvHash.bytes,
      .list (block.data.map fun kv => .list [.bytes (keyBytes kv.1), .bytes kv.2])])

variable {κ : Type} [LinearOrder κ]

/-- The base leveldb. -/
abbrev LevelDB (κ : Type) [LinearOrder κ] := SortedMap κ (Stored κ)

/-- `blockData.EncodeRLP`: the block's header fields and its data in key order. -/
def BlockData.toWal (b : BlockData κ) : BlockWal κ :=
  ⟨b.parentHash, b.blockHash, b.number, b.kvHash, b.data.entries⟩

/-- `blockData.DecodeRLP`: a read-only block with the entry's data and no journal. -/
def BlockWal.toBlockData (w : BlockWal κ) : BlockData κ :=
  { blockHash := w.blockHash, parentHash := w.parentHash, number := w.blockNumber,
    data := w.data.foldl (fun data kv => data.put kv.1 kv.2) SortedMap.empty, readOnly := true,
    kvHash := w.kvHash, journal := [], validRevisions := [], nextRevisionId := 0 }

/-- `snapshotDB` in memory, with its base leveldb. -/
structure SnapshotDB (κ : Type) [LinearOrder κ] where
  /-- `dbError`, which stops `Flush` and `Commit` once set. -/
  dbError : Option String
  /-- `current.highest`: the number and hash of the highest committed block. -/
  highest : ℕ × Hash
  /-- `current.base`: the number of the highest compacted block. -/
  baseNum : ℕ
  /-- The base leveldb. -/
  baseDB : LevelDB κ
  /-- `unCommit.blocks`, by `BlockHash`. -/
  unCommit : List (BlockData κ)
  /-- `committed`, oldest first. -/
  committed : List (BlockData κ)
  /-- The blocks `Commit` handed to the WAL goroutine and it has not finished, oldest first. -/
  walQueue : List (BlockData κ)
  /-- Whether the WAL goroutine has written the first queued block's entry. -/
  walWritten : Bool

namespace SnapshotDB

variable (layout : Layout κ)

/-- `SetCurrent` on a fresh base: one batch with the current records and the `CurrentSet`
marker, as `open` writes when the base has no marker. -/
def setCurrentBatch (baseDB : LevelDB κ) (highestHash : Hash) (base height : ℕ) : LevelDB κ :=
  ((baseDB.put layout.currentHighestBlock (.highest height highestHash)).put
    layout.currentBaseNum (.base base)).put layout.currentSet .set

/-- The database `open` makes on a base without `CurrentSet`: `SetCurrent(ZeroHash, 0, 0)`. -/
def openFresh (baseDB : LevelDB κ) : SnapshotDB κ :=
  { dbError := none, highest := (0, zeroHash), baseNum := 0,
    baseDB := setCurrentBatch layout baseDB zeroHash 0 0, unCommit := [], committed := [],
    walQueue := [], walWritten := false }

variable (s : SnapshotDB κ)

/-- `unCommit.Get`. -/
def findBlock (hash : Hash) : Option (BlockData κ) :=
  Keyed.find BlockData.blockHash s.unCommit hash

/-- `unCommit.Set`, for a block whose `BlockHash` is `hash`. -/
def setBlock (hash : Hash) (block : BlockData κ) : SnapshotDB κ :=
  { s with unCommit := Keyed.erase BlockData.blockHash s.unCommit hash ++ [block] }

/-- `delete(unCommit.blocks, hash)`. -/
def removeBlock (hash : Hash) : SnapshotDB κ :=
  { s with unCommit := Keyed.erase BlockData.blockHash s.unCommit hash }

/-- `NewBlock`: a block above the highest committed one, under `hash`. -/
def newBlock (blockNumber : ℕ) (parentHash hash : Hash) : Except String (SnapshotDB κ) :=
  if blockNumber ≤ s.highest.1 then .error "the block is less than commit highest block"
  else .ok (s.setBlock hash (BlockData.new blockNumber parentHash hash))

/-- `put`, under `Put` and `Del` (which writes an empty value). -/
def put (generateKVHash : κ → List UInt8 → Hash → Hash) (hash : Hash) (key : κ)
    (value : List UInt8) : Except String (SnapshotDB κ) :=
  match s.findBlock hash with
  | none => .error "not find the block by hash"
  | some block =>
    match block.put generateKVHash key value with
    | .error e => .error e
    | .ok block => .ok (s.setBlock hash block)

/-- `Snapshot`: zero when there is no block under `hash`. -/
def snapshot (hash : Hash) : ℕ × SnapshotDB κ :=
  match s.findBlock hash with
  | none => (0, s)
  | some block => (block.snapshot.1, s.setBlock hash block.snapshot.2)

/-- `RevertToSnapshot`: nothing when there is no block under `hash`; `none` is the block's
panic. -/
def revertToSnapshot (hash : Hash) (revid : ℕ) : Option (SnapshotDB κ) :=
  match s.findBlock hash with
  | none => some s
  | some block => (block.revertToSnapshot revid).map (s.setBlock hash)

/-- `Flush`: the unrecognized block becomes the read-only block `hash`. -/
def flush (hash : Hash) (blockNumber : ℕ) : Except String (SnapshotDB κ) :=
  match s.dbError with
  | some e => .error e
  | none =>
    match s.findBlock zeroHash with
    | none => .error "[snapshotdb]the unRecognized is nil, can't flush"
    | some block =>
      if (s.findBlock hash).isSome then .error "the hash is exist in recognized data"
      else if blockNumber ≠ block.number then
        .error "[snapshotdb]blocknumber not compare the unRecognized blocknumber"
      else
        .ok ((s.setBlock hash { block.cleanJournal with blockHash := hash, readOnly := true }).removeBlock
          zeroHash)

/-- `theBlockIsCommit`. -/
def theBlockIsCommit (block : BlockData κ) : Bool :=
  block.number = s.highest.1 && block.blockHash = s.highest.2

/-- `Commit`: the block extends the highest committed one, joins the committed list and the WAL
goroutine's queue, and leaves the uncommitted blocks. -/
def commit (hash : Hash) : Except String (SnapshotDB κ) :=
  match s.dbError with
  | some e => .error e
  | none =>
    match s.findBlock hash with
    | none => .error "[snapshotdb]commit fail, not found block from recognized"
    | some block =>
      if s.theBlockIsCommit block then .ok (s.removeBlock hash)
      else if !(s.highest.1 = 0 && block.number = 0) && block.number ≤ s.highest.1 then
        .error "[snapshotdb]commit fail,the commit block num is less or eq than HighestNum"
      else if !(s.highest.1 = 0 && block.number = 0) && block.number - s.highest.1 ≠ 1 then
        .error "[snapshotdb]commit fail,the commit block num - HighestNum should be eq 1"
      else if !(s.highest.1 = 0 && block.number = 0) && s.highest.2 ≠ zeroHash &&
          block.parentHash ≠ s.highest.2 then
        .error "[snapshotdb]commit fail,the commit block ParentHash not eq HighestHash of commit hash"
      else
        let block := { block with readOnly := true }.cleanJournal
        .ok ({ s with
          highest := (s.highest.1 + 1, hash)
          committed := s.committed ++ [block]
          walQueue := s.walQueue ++ [block] }.removeBlock hash)

/-- One write of the WAL goroutine: `writeWal` of the first queued block, then the
`CurrentHighestBlock` record of it. -/
def walWriter : SnapshotDB κ :=
  match s.walQueue with
  | [] => s
  | block :: rest =>
    if s.walWritten then
      { s with
        baseDB := s.baseDB.put layout.currentHighestBlock (.highest block.number block.blockHash)
        walQueue := rest
        walWritten := false }
    else
      { s with
        baseDB := s.baseDB.put (layout.walKey block.number) (.wal block.toWal)
        walWritten := true }

/-! ## Compaction -/

/-- The loop of `findToWrite` over the committed blocks, from index `i` with `kvsize` keys
counted: it stops before the keys pass `kvLIMIT` or at `MaxBlockCompaction` blocks, and gives `0`
when it runs out of blocks. -/
def scanToWrite : ℕ → ℕ → List (BlockData κ) → ℕ
  | _, _, [] => 0
  | i, kvsize, block :: rest =>
    if i < maxBlockCompaction then
      if kvsize > kvLIMIT then i - 1 else scanToWrite (i + 1) (kvsize + block.data.entries.length) rest
    else i

/-- `findToWrite`, with the number of the chain's current header if there is a chain: reading the
highest block from the base may fail, which sets `dbError` and writes nothing. -/
def findToWrite (chainHead : Option ℕ) : SnapshotDB κ × ℕ :=
  if maxBlockTriggerCompaction < s.committed.length then
    (s, s.committed.length - maxBlockNotCompactionSync)
  else
    let commitNum := max (scanToWrite 0 0 s.committed) 1
    match s.baseDB.get layout.currentHighestBlock with
    | some (.highest num _) =>
      let minimumHeight := match chainHead with
        | some head => min num head
        | none => num
      (s, commitNum - ((s.committed.take commitNum).filter fun b => minimumHeight < b.number).length)
    | _ => ({ s with dbError := some "get current highest block fail" }, 0)

/-- `writeToBasedb`'s batch: each block's data in key order, an empty value as a delete, and the
block's WAL entry deleted. -/
def writeToBasedb (baseDB : LevelDB κ) (blocks : List (BlockData κ)) : LevelDB κ :=
  blocks.foldl (fun db block =>
    (block.data.entries.foldl (fun db kv =>
      if kv.2 = [] then db.delete kv.1 else db.put kv.1 (.bytes kv.2)) db).delete
        (layout.walKey block.number)) baseDB

/-- `Compaction` up to its first durable write, with the number of blocks it writes. -/
def compactionBatch (chainHead : Option ℕ) : SnapshotDB κ × ℕ :=
  if s.committed = [] then (s, 0)
  else
    match s.findToWrite layout chainHead with
    | (s, 0) => (s, 0)
    | (s, commitNum) =>
      ({ s with baseDB := writeToBasedb layout s.baseDB (s.committed.take commitNum) }, commitNum)

/-- `rmExpireForkBlock`: past `UnBlockNeedClean` uncommitted blocks, those no higher than the base
go. -/
def rmExpireForkBlock : SnapshotDB κ :=
  if unBlockNeedClean < s.unCommit.length then
    { s with unCommit := s.unCommit.filter fun b => s.baseNum < b.number }
  else s

/-- The rest of `Compaction` after the batch: drop the written blocks, `increaseBase`, which
records `CurrentBaseNum`, and `rmExpireForkBlock`. -/
def compactionFinish (commitNum : ℕ) : SnapshotDB κ :=
  if commitNum = 0 then s
  else
    rmExpireForkBlock { s with
      committed := s.committed.drop commitNum
      baseNum := s.baseNum + commitNum
      baseDB := s.baseDB.put layout.currentBaseNum (.base (s.baseNum + commitNum)) }

/-- `Compaction`. -/
def compaction (chainHead : Option ℕ) : SnapshotDB κ :=
  (s.compactionBatch layout chainHead).1.compactionFinish layout (s.compactionBatch layout chainHead).2

/-! ## Reading -/

/-- The loop of `getFromUnCommit` from `hash` along parents, allowed `fuel` blocks; `none` is a
walk longer than the blocks there are, which goes round a cycle for ever. -/
def walkUnCommit (key : κ) : ℕ → Hash → Option (Except String (List UInt8))
  | 0, _ => none
  | fuel + 1, hash =>
    match s.findBlock hash with
    | none => some (.error errNotFound)
    | some block =>
      if hash = block.parentHash then some (.error "getFromRecognized loop error")
      else
        match block.data.get key with
        | some v => some (.ok v)
        | none => walkUnCommit key fuel block.parentHash

/-- `getFromUnCommit`. -/
def getFromUnCommit (hash : Hash) (key : κ) : Option (Except String (List UInt8)) :=
  s.walkUnCommit key (s.unCommit.length + 1) hash

/-- `getFromCommit`: the committed blocks from the newest. -/
def getFromCommit (key : κ) : Option (List UInt8) :=
  s.committed.reverse.findSome? fun block => block.data.get key

/-- `GetBaseDB`: whatever bytes the base holds under the key. -/
def getBaseDB (key : κ) : Except String (List UInt8) :=
  match s.baseDB.get key with
  | some stored => .ok (stored.toBytes layout.keyBytes)
  | none => .error errNotFound

/-- `Get`: an empty value in a block reads as `ErrNotFound`. -/
def get (hash : Hash) (key : κ) : Option (Except String (List UInt8)) :=
  (s.getFromUnCommit hash key).map fun found =>
    match found with
    | .ok v => if v = [] then .error errNotFound else .ok v
    | .error e =>
      if e ≠ errNotFound then .error e
      else
        match s.getFromCommit key with
        | some v => if v = [] then .error errNotFound else .ok v
        | none => s.getBaseDB layout key

/-! ## Runs -/

/-- The operations of the database, `Del` being a `put` of the empty value, and one write of the
WAL goroutine. -/
inductive Step (κ : Type)
  | newBlock (blockNumber : ℕ) (parentHash hash : Hash)
  | put (hash : Hash) (key : κ) (value : List UInt8)
  | snapshot (hash : Hash)
  | revertToSnapshot (hash : Hash) (revid : ℕ)
  | flush (hash : Hash) (blockNumber : ℕ)
  | commit (hash : Hash)
  | walWriter
  | compaction (chainHead : Option ℕ)

variable (generateKVHash : κ → List UInt8 → Hash → Hash)

/-- One operation; `none` when it fails, which changes nothing, or panics. -/
def Step.apply : Step κ → SnapshotDB κ → Option (SnapshotDB κ)
  | .newBlock blockNumber parentHash hash, s => (s.newBlock blockNumber parentHash hash).toOption
  | .put hash key value, s => (s.put generateKVHash hash key value).toOption
  | .snapshot hash, s => some (s.snapshot hash).2
  | .revertToSnapshot hash revid, s => s.revertToSnapshot hash revid
  | .flush hash blockNumber, s => (s.flush hash blockNumber).toOption
  | .commit hash, s => (s.commit hash).toOption
  | .walWriter, s => some (s.walWriter layout)
  | .compaction chainHead, s => some (s.compaction layout chainHead)

/-- A run of operations that all succeed. -/
def run : List (Step κ) → SnapshotDB κ → Option (SnapshotDB κ)
  | [], s => some s
  | step :: rest, s => (step.apply layout generateKVHash s).bind (run rest)

end SnapshotDB

end Snapshotdb
end Bubble
