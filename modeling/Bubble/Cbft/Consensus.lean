import Bubble.Cbft.BlockTree

/-!
# Inserting QC blocks and committing

`Cbft.insertQCBlock`, `TrySetHighestQCBlock` and `tryCommitNewBlock` of
`consensus/cbft/consensus_process.go`, with `HasBlock`, `Cbft.commitBlock` and the start of the
tree in `Cbft.Start` (`consensus/cbft/cbft.go`).  `OnInsertQCBlock`, `findQCBlock` and
`insertPrepareQC` all reach the tree through `insertQCBlock`.

The state is the block tree, the three blocks of the `ViewState` that the commit path reads and
writes, and the blocks `commitBlock` has posted to the miner.  `insertQCBlock` also records the
block and its certificate in the view, resets the transaction pool, tries to vote and to change
the view; none of these touches the tree or the three blocks.  The write-ahead log that
`UpdateChainState` keeps is not modelled.
-/

namespace Bubble
namespace Cbft

variable {Signature : Type}

namespace QuorumCert

/-- `QuorumCert.HigherBlockView`. -/
def higherBlockView (qc : QuorumCert Signature) (blockEpoch blockView : UInt64) : Bool :=
  blockEpoch < qc.epoch || (qc.epoch = blockEpoch && blockView < qc.viewNumber)

/-- `QuorumCert.HigherQuorumCert`. -/
def higherQuorumCert (qc : QuorumCert Signature) (blockNumber blockEpoch blockView : UInt64) :
    Bool :=
  if blockNumber < qc.blockNumber then true
  else if qc.blockNumber = blockNumber then qc.higherBlockView blockEpoch blockView
  else false

end QuorumCert

/-- The consensus state of the commit path. -/
structure CbftState (Signature : Type) where
  blockTree : BlockTree Signature
  highestQCBlock : Block
  highestLockBlock : Block
  highestCommitBlock : Block
  /-- The blocks `commitBlock` posted as `CbftResult`s, oldest first. -/
  committed : List Block

namespace CbftState

/-- `Cbft.Start` on the current head `block` of the chain, with the certificate its extra data
carries (none for the genesis block): the head is the tree's root and the highest QC, lock and
commit block. -/
def start (block : Block) (qc : Option (QuorumCert Signature)) :
    Except TreePanic (CbftState Signature) :=
  (newBlockTree block qc).map fun blockTree => ⟨blockTree, block, block, block, []⟩

/-- `HasBlock`: a block below the highest QC block, or that block itself. -/
def hasBlock (s : CbftState Signature) (hash : Hash) (number : ℕ) : Bool :=
  decide (number < s.highestQCBlock.number) ||
    (decide (s.highestQCBlock.number = number) && decide (s.highestQCBlock.hash = hash))

/-- `TrySetHighestQCBlock`: the inserted block becomes the highest QC block when the tree has no
certificate for the current one, or when its own certificate is higher.  A block the tree stores
without a certificate is a `nil` receiver. -/
def trySetHighestQCBlock (s : CbftState Signature) (block : Block) :
    Except TreePanic (CbftState Signature) :=
  let qc := (s.blockTree.findBlockAndQC block.hash block.number).2
  let h := s.highestQCBlock
  let hqc := (s.blockTree.findBlockAndQC h.hash h.number).2
  match hqc, qc with
  | none, _ => .ok { s with highestQCBlock := block }
  | some _, none => .error .nilDereference
  | some hqc, some qc =>
      if qc.higherQuorumCert hqc.blockNumber hqc.epoch hqc.viewNumber then
        .ok { s with highestQCBlock := block }
      else .ok s

/-- `Cbft.commitBlock`: post a copy of the committed block to the miner.  Encoding its
certificate into the extra data never fails, also for a `nil` one. -/
def commitBlock (s : CbftState Signature) (commitBlock : Block) : CbftState Signature :=
  { s with committed := s.committed ++ [commitBlock] }

/-- `tryCommitNewBlock`: a commit two below the inserted block and one above the last commit is
committed, becomes the tree's root, and the lock it came with the lock.  A commit at the height of
the last one is a fork, which only informs the write-ahead log.  The block and certificate that
`FindBlockAndQC` reads for the commit go into the extra data and the log only. -/
def tryCommitNewBlock (s : CbftState Signature) (lock commit : Option Block) (qc : Block) :
    Except TreePanic (CbftState Signature) :=
  match lock, commit with
  | some lock, some commit =>
      if commit.number + 2 ≠ qc.number then .ok s
      else
        let oldCommit := s.highestCommitBlock
        if oldCommit.number + 1 = commit.number then do
          let s := s.commitBlock commit
          let s := { s with highestLockBlock := lock, highestCommitBlock := commit }
          let blockTree ← s.blockTree.pruneBlock commit.hash commit.number
          let blockTree ← blockTree.newRoot commit
          .ok { s with blockTree }
        else .ok s
  | _, _ => .ok s

/-- `insertQCBlock`: a block at or below the lock, or one `HasBlock` knows, is ignored; another
one goes into the tree, may become the highest QC block, and may commit. -/
def insertQCBlock (s : CbftState Signature) (block : Block) (qc : QuorumCert Signature) :
    Except TreePanic (CbftState Signature) :=
  if block.number ≤ s.highestLockBlock.number ∨ s.hasBlock block.hash block.number then .ok s
  else do
    let (lock, commit, blockTree) ← s.blockTree.insertQCBlock block qc
    let s ← { s with blockTree }.trySetHighestQCBlock block
    s.tryCommitNewBlock lock commit block

/-- One step of a run: `insertQCBlock` of a block whose parent the tree holds. -/
inductive Step : CbftState Signature → CbftState Signature → Prop
  | insert {s next : CbftState Signature} (block : Block) (qc : QuorumCert Signature)
      (linked : (s.blockTree.findBlockExt block.parentHash (block.number - 1)).isSome)
      (inserted : s.insertQCBlock block qc = .ok next) : Step s next

end CbftState

end Cbft
end Bubble
