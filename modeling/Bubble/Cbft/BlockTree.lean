import Bubble.Cbft.Verify
import Bubble.Lib.Keyed

/-!
# The block tree

`BlockTree` of `consensus/cbft/types/block_tree.go`: the blocks that reached a quorum certificate
and are not committed yet, stored by height and hash under a root, the highest committed block.
Each `blockExt` points to its parent and to its children, and `InsertQCBlock` reports the lock and
the commit its insertion makes.

The objects form a list with one record per object; a `*blockExt` is the height and hash that
store the object, and writing through the pointer maps the record with that key.  An object the
tree no longer stores is gone, so a pointer to it reads as `nil`.  Go iterates its maps in a
random order; the model iterates the list.  Block numbers are natural numbers: `NumberU64` never
comes near `2^64` on a running chain.
-/

namespace Bubble
namespace Cbft

variable {Signature : Type}

/-- `types.Block`, reduced to the header fields the tree reads. -/
structure Block where
  number : ℕ
  hash : Hash
  parentHash : Hash
  deriving DecidableEq, Repr

/-- The runtime panics of the tree and of the commit path. -/
inductive TreePanic
  /-- `panic(fmt.Sprintf("%s,%d", hash, number))` of `commitBlock`: the block has no parent. -/
  | noParent (hash : Hash) (number : ℕ)
  /-- A read through a `nil` pointer. -/
  | nilDereference
  deriving DecidableEq, Repr

/-- `blockExt`, without its receipt time. -/
structure BlockExt (Signature : Type) where
  viewNumber : UInt64
  block : Block
  qc : Option (QuorumCert Signature)
  /-- `Parent`: the hash of the block one lower that it points to. -/
  parent : Option Hash
  /-- The keys of `Children`, blocks one higher. -/
  children : List Hash

/-- The height and hash under which `BlockTree.blocks` stores an object; the model's pointer to
it. -/
def BlockExt.key (ext : BlockExt Signature) : ℕ × Hash :=
  (ext.block.number, ext.block.hash)

/-- `x` is a child of `p`: one higher, with `p`'s hash for its parent hash. -/
def BlockExt.IsChild (p x : BlockExt Signature) : Prop :=
  x.block.number = p.block.number + 1 ∧ x.block.parentHash = p.block.hash

/-- `math.MaxUint64`, the view number of the genesis block. -/
def maxUint64 : UInt64 := 18446744073709551615

/-- `BlockTree`: `root` is `nil` only after `NewRoot` looked for a block it does not hold. -/
structure BlockTree (Signature : Type) where
  root : Option Block
  blocks : List (BlockExt Signature)

namespace BlockTree

/-! ## Reading and writing through pointers -/

/-- `findBlockExt`. -/
def findBlockExt (tree : BlockTree Signature) (hash : Hash) (number : ℕ) :
    Option (BlockExt Signature) :=
  Keyed.find BlockExt.key tree.blocks (number, hash)

/-- `FindBlockAndQC`. -/
def findBlockAndQC (tree : BlockTree Signature) (hash : Hash) (number : ℕ) :
    Option Block × Option (QuorumCert Signature) :=
  match tree.findBlockExt hash number with
  | some ext => (some ext.block, ext.qc)
  | none => (none, none)

/-- The object `ext.Parent` points to. -/
def parentOf (tree : BlockTree Signature) (ext : BlockExt Signature) :
    Option (BlockExt Signature) :=
  ext.parent.bind fun hash => tree.findBlockExt hash (ext.block.number - 1)

/-- Write `f` through the pointer `key`. -/
def update (tree : BlockTree Signature) (key : ℕ × Hash)
    (f : BlockExt Signature → BlockExt Signature) : BlockTree Signature :=
  { tree with blocks := Keyed.update BlockExt.key tree.blocks key f }

/-- `delete(extMap, hash)`. -/
def erase (tree : BlockTree Signature) (key : ℕ × Hash) : BlockTree Signature :=
  { tree with blocks := Keyed.erase BlockExt.key tree.blocks key }

/-- The `delete(b.blocks, num)` loop of `PruneBlock` and `NewRoot`, over the heights from `low`
up to `high`. -/
def deleteHeights (tree : BlockTree Signature) (low high : ℕ) : BlockTree Signature :=
  { tree with blocks := tree.blocks.filter fun ext => ¬(low ≤ ext.block.number ∧ ext.block.number < high) }

/-- The keys of `b.blocks[number]`. -/
def hashesAt (tree : BlockTree Signature) (number : ℕ) : List Hash :=
  (tree.blocks.filter (·.block.number = number)).map (·.block.hash)

/-- `blockExt.clearParent`: empty the parent's `Children`, then drop the pointer. -/
def clearParent (tree : BlockTree Signature) (ext : BlockExt Signature) : BlockTree Signature :=
  match ext.parent with
  | none => tree
  | some parent =>
      (tree.update (ext.block.number - 1, parent) fun p => { p with children := [] }).update
        ext.key fun e => { e with parent := none }

/-- `blockExt.clearChildren`. -/
def clearChildren (tree : BlockTree Signature) (ext : BlockExt Signature) : BlockTree Signature :=
  tree.update ext.key fun e => { e with children := [] }

/-! ## Pruning -/

/-- One turn of `pruneBranch`'s loop: the child `hash` one level above `number` is unlinked,
deleted and pruned in turn. -/
def pruneChild (prune : BlockTree Signature → BlockExt Signature → BlockTree Signature)
    (number : ℕ) (tree : BlockTree Signature) (hash : Hash) : BlockTree Signature :=
  match tree.findBlockExt hash (number + 1) with
  | none => tree
  | some e => prune ((tree.clearParent e).erase e.key) e

/-- `pruneBranch(ext, nil)`: delete the branch under `ext`, depth first.  Go's recursion has no
bound; each level deletes one block, so `fuel` at the size of the tree is never the reason it
stops. -/
def pruneBranch : ℕ → BlockTree Signature → BlockExt Signature → BlockTree Signature
  | 0, tree, _ => tree
  | fuel + 1, tree, ext =>
      (ext.children.foldl (pruneChild (pruneBranch fuel) ext.block.number) tree).clearChildren ext

/-- One turn of `PruneBlock`'s loop over the blocks at `number`: the block `hash` becomes the root,
and every other one is deleted with its branch. -/
def pruneAt (hash : Hash) (number : ℕ) (tree : BlockTree Signature) (h : Hash) :
    BlockTree Signature :=
  match tree.findBlockExt h number with
  | none => tree
  | some ext =>
      let tree := tree.clearParent ext
      if h ≠ hash then
        let tree := tree.erase ext.key
        pruneBranch tree.blocks.length tree ext
      else { tree with root := some ext.block }

/-- `PruneBlock(hash, number, nil)`. -/
def pruneBlock (tree : BlockTree Signature) (hash : Hash) (number : ℕ) :
    Except TreePanic (BlockTree Signature) :=
  match tree.root with
  | none => .error .nilDereference
  | some root =>
      let tree := tree.deleteHeights root.number number
      .ok ((tree.hashesAt number).foldl (pruneAt hash number) tree)

/-- `NewRoot`. -/
def newRoot (tree : BlockTree Signature) (block : Block) : Except TreePanic (BlockTree Signature) :=
  match tree.root with
  | none => .error .nilDereference
  | some root =>
      let tree := tree.deleteHeights root.number block.number
      .ok { tree with root := (tree.findBlockExt block.hash block.number).map (·.block) }

/-! ## Insertion -/

/-- `findParent`: the block one lower with hash `hash`. -/
def findParent (tree : BlockTree Signature) (hash : Hash) (number : ℕ) :
    Option (BlockExt Signature) :=
  (tree.blocks.filter (·.block.number = number - 1)).find? (·.block.hash = hash)

/-- `findChild`: a block one higher with parent hash `hash`. -/
def findChild (tree : BlockTree Signature) (hash : Hash) (number : ℕ) :
    Option (BlockExt Signature) :=
  (tree.blocks.filter (·.block.number = number + 1)).find? (·.block.parentHash = hash)

/-- `fixTree`: link the stored `ext` to its parent and to a child. -/
def fixTree (tree : BlockTree Signature) (ext : BlockExt Signature) : BlockTree Signature :=
  let parent := tree.findParent ext.block.parentHash ext.block.number
  let child := tree.findChild ext.block.hash ext.block.number
  let tree :=
    match parent with
    | none => tree
    | some parent =>
        (tree.update parent.key fun p => { p with children := p.children.insert ext.block.hash }).update
          ext.key fun e => { e with parent := some parent.block.hash }
  match child with
  | none => tree
  | some child =>
      (tree.update child.key fun c => { c with parent := some ext.block.hash }).update ext.key
        fun e => { e with children := e.children.insert child.block.hash }

/-- `maxBlock`: the block of the highest view at the height of `ext` that has a parent, `ext`
itself on a tie.  The genesis view `MaxUint64` wraps to zero under `+ 1`. -/
def maxBlock (tree : BlockTree Signature) (ext : BlockExt Signature) : BlockExt Signature :=
  (tree.blocks.filter (·.block.number = ext.block.number)).foldl
    (fun max e => if max.viewNumber + 1 < e.viewNumber + 1 ∧ e.parent.isSome then e else max) ext

/-- `commitBlock`: the lock is the parent of `ext` and the commit the lock's parent, both the root
when the lock is. -/
def commitBlock (tree : BlockTree Signature) (ext : BlockExt Signature) :
    Except TreePanic (Block × Block) :=
  match tree.parentOf ext, tree.root with
  | none, _ => .error (.noParent ext.block.hash ext.block.number)
  | some _, none => .error .nilDereference
  | some lock, some root =>
      if lock.block.hash = root.hash then .ok (root, root)
      else
        match tree.parentOf lock with
        | none => .error .nilDereference
        | some commit => .ok (lock.block, commit.block)

/-- `insertBlock`: a block the tree holds changes nothing; another one is stored and linked, and
the highest-view block at its height decides the lock and the commit.  `ext` is a pointer, so
`maxBlock` starts from the object as `fixTree` left it. -/
def insertBlock (tree : BlockTree Signature) (ext : BlockExt Signature) :
    Except TreePanic (Option Block × Option Block × BlockTree Signature) :=
  if (tree.findBlockExt ext.block.hash ext.block.number).isSome then .ok (none, none, tree)
  else
    let tree := fixTree { tree with blocks := tree.blocks ++ [ext] } ext
    let ext := (tree.findBlockExt ext.block.hash ext.block.number).getD ext
    (tree.commitBlock (tree.maxBlock ext)).map fun (lock, commit) => (some lock, some commit, tree)

/-- The `blockExt` that `InsertQCBlock` builds for a block and its certificate. -/
def qcBlockExt (block : Block) (qc : QuorumCert Signature) : BlockExt Signature :=
  { viewNumber := if block.number = 0 then maxUint64 else qc.viewNumber
    block
    qc := some qc
    parent := none
    children := [] }

/-- `InsertQCBlock`. -/
def insertQCBlock (tree : BlockTree Signature) (block : Block) (qc : QuorumCert Signature) :
    Except TreePanic (Option Block × Option Block × BlockTree Signature) :=
  tree.insertBlock (qcBlockExt block qc)

end BlockTree

/-- `NewBlockTree`: the root alone.  `Cbft.Start` passes a certificate for every root but the
genesis block, and reading the view of a missing one panics. -/
def newBlockTree (root : Block) (qc : Option (QuorumCert Signature)) :
    Except TreePanic (BlockTree Signature) :=
  let viewNumber : Except TreePanic UInt64 :=
    if root.number = 0 then .ok maxUint64
    else
      match qc with
      | some qc => .ok qc.viewNumber
      | none => .error .nilDereference
  viewNumber.map fun viewNumber =>
    { root := some root, blocks := [{ viewNumber, block := root, qc, parent := none, children := [] }] }

end Cbft
end Bubble
