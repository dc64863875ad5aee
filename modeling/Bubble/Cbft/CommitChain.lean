import Bubble.Cbft.Shape
import Bubble.Cbft.Consensus

/-!
# The local commit chain

Along every run of `insertQCBlock` from `Cbft.Start`, each inserting a block whose parent the tree
holds, the block tree keeps its shape with the highest commit block as its root, the lock stays
at the commit or one above it, and the blocks posted to the miner form a hash chain from the start
block whose last link is the highest commit block (`Committing`).  Every such insertion succeeds,
and the lock and commit numbers only grow (`Advances`).
-/

namespace Bubble
namespace Cbft

open Relation

variable {Signature : Type}

/-- `b` is a child of `a` on a chain: one higher, with `a`'s hash as its parent hash. -/
def Block.IsChild (a b : Block) : Prop :=
  b.number = a.number + 1 ∧ b.parentHash = a.hash

namespace CbftState

/-- What the commit path keeps on a run from the start block `origin`. -/
structure Committing (origin : Block) (s : CbftState Signature) : Prop where
  shaped : Shaped s.blockTree s.highestCommitBlock
  lock_low : s.highestCommitBlock.number ≤ s.highestLockBlock.number
  lock_high : s.highestLockBlock.number ≤ s.highestCommitBlock.number + 1
  chain : (origin :: s.committed).IsChain Block.IsChild
  last : (origin :: s.committed).getLast? = some s.highestCommitBlock

/-- A later state of a run: the lock and the commit are no lower, and what was posted to the miner
is still the first of what is posted. -/
structure Advances (s next : CbftState Signature) : Prop where
  lock : s.highestLockBlock.number ≤ next.highestLockBlock.number
  commit : s.highestCommitBlock.number ≤ next.highestCommitBlock.number
  committed : s.committed <+: next.committed

theorem Advances.refl (s : CbftState Signature) : Advances s s :=
  ⟨le_rfl, le_rfl, List.prefix_refl _⟩

theorem Advances.trans {s mid next : CbftState Signature} (first : Advances s mid)
    (second : Advances mid next) : Advances s next :=
  ⟨first.lock.trans second.lock, first.commit.trans second.commit,
    first.committed.trans second.committed⟩

variable {origin : Block} {s : CbftState Signature}

theorem start_committing {qc : Option (QuorumCert Signature)} (started : start origin qc = .ok s) :
    Committing origin s := by
  obtain ⟨tree, built, rfl⟩ := Rollback.map_eq_ok.mp started
  exact ⟨newBlockTree_shaped built, le_rfl, Nat.le_succ _, List.isChain_singleton _, rfl⟩

theorem trySetHighestQCBlock_eq {block : Block} {x : BlockExt Signature}
    (found : s.blockTree.findBlockExt block.hash block.number = some x) (certified : x.qc.isSome) :
    ∃ qcBlock, s.trySetHighestQCBlock block = .ok { s with highestQCBlock := qcBlock } := by
  obtain ⟨q, has_qc⟩ := Option.isSome_iff_exists.mp certified
  have qc_eq : (s.blockTree.findBlockAndQC block.hash block.number).2 = some q := by
    simp only [BlockTree.findBlockAndQC, found, has_qc]
  cases hqc_eq : (s.blockTree.findBlockAndQC s.highestQCBlock.hash s.highestQCBlock.number).2 with
  | none => exact ⟨block, by simp only [trySetHighestQCBlock, qc_eq, hqc_eq]⟩
  | some hqc =>
    by_cases higher : q.higherQuorumCert hqc.blockNumber hqc.epoch hqc.viewNumber
    · exact ⟨block, by simp only [trySetHighestQCBlock, qc_eq, hqc_eq, higher, if_true]⟩
    · exact ⟨s.highestQCBlock, by simp only [trySetHighestQCBlock, qc_eq, hqc_eq, higher]; rfl⟩

/-- `tryCommitNewBlock` with a lock and commit that `InsertQCBlock` may report never panics and
keeps what the commit path keeps.  It commits only a block one above the root: that block is
posted to the miner, becomes the root, and its child the lock. -/
theorem tryCommitNewBlock_spec (inv : Committing origin s) {lock commit : Option Block}
    (qc : Block)
    (reported : ∀ l c, lock = some l → commit = some c →
      Shaped.Reported s.blockTree s.highestCommitBlock l c) :
    ∃ next, s.tryCommitNewBlock lock commit qc = .ok next ∧ Committing origin next ∧
      Advances s next := by
  have unchanged : s.tryCommitNewBlock lock commit qc = .ok s →
      ∃ next, s.tryCommitNewBlock lock commit qc = .ok next ∧ Committing origin next ∧
        Advances s next :=
    fun same => ⟨s, same, inv, .refl s⟩
  rcases lock with _ | l
  · exact unchanged rfl
  rcases commit with _ | c
  · exact unchanged rfl
  by_cases far : c.number + 2 ≠ qc.number
  · exact unchanged (by simp only [tryCommitNewBlock]; exact if_pos far)
  by_cases next_level : s.highestCommitBlock.number + 1 = c.number
  · rcases reported l c rfl rfl with ⟨-, rfl⟩ | ⟨lk, -, cm, cm_mem, rfl, rfl, link, -⟩
    · exact absurd next_level (Nat.succ_ne_self _)
    obtain ⟨pruned, moved, pruning, moving, shaped⟩ :=
      inv.shaped.pruneBlock_newRoot cm_mem next_level.symm
    have parent_hash := inv.shaped.parentHash_of_level cm_mem next_level.symm
    refine ⟨⟨moved, s.highestQCBlock, lk.block, cm.block, s.committed ++ [cm.block]⟩, ?_, ?_, ?_⟩
    · simp only [tryCommitNewBlock]
      rw [if_neg far, if_pos next_level]
      simp only [commitBlock, pruning, moving, bind, Except.bind]
    · refine ⟨shaped, ?_, ?_, ?_, ?_⟩
      · simp only [link.1, Nat.le_succ]
      · simp only [link.1, le_refl]
      · rw [← List.cons_append]
        refine inv.chain.append (List.isChain_singleton _) ?_
        intro x x_last y y_head
        rw [inv.last, Option.mem_some_iff] at x_last
        rw [List.head?_singleton, Option.mem_some_iff] at y_head
        rw [← x_last, ← y_head]
        exact ⟨next_level.symm, parent_hash⟩
      · rw [← List.cons_append, List.getLast?_append, List.getLast?_singleton]
        rfl
    · refine ⟨?_, ?_, List.prefix_append _ _⟩
      · have := inv.lock_high
        simp only [link.1]
        omega
      · simp only [← next_level, Nat.le_succ]
  · exact unchanged (by simp only [tryCommitNewBlock]; rw [if_neg far, if_neg next_level])

/-- One insertion of a block whose parent the tree holds never panics and keeps what the commit
path keeps. -/
theorem insertQCBlock_step (inv : Committing origin s) (block : Block) (qc : QuorumCert Signature)
    (linked : (s.blockTree.findBlockExt block.parentHash (block.number - 1)).isSome) :
    ∃ next, s.insertQCBlock block qc = .ok next ∧ Committing origin next ∧ Advances s next := by
  by_cases ignored : block.number ≤ s.highestLockBlock.number ∨ s.hasBlock block.hash block.number
  · exact ⟨s, by simp only [insertQCBlock, ignored, if_true], inv, .refl s⟩
  have high : s.highestCommitBlock.number < block.number := by
    have := inv.lock_low
    have := not_or.mp ignored
    omega
  obtain ⟨lock, commit, tree, inserted, shaped, ⟨x, x_mem, x_key⟩, reported⟩ :=
    inv.shaped.insertQCBlock_spec block qc high linked
  have found : tree.findBlockExt block.hash block.number = some x :=
    (BlockTree.findBlockExt_eq_some_iff shaped.wired.distinct).mpr ⟨x_mem, x_key⟩
  have x_high : s.highestCommitBlock.number < x.block.number := by
    rw [show x.block.number = block.number from congrArg Prod.fst x_key]
    exact high
  obtain ⟨qcBlock, set_qc⟩ :=
    trySetHighestQCBlock_eq (s := { s with blockTree := tree }) found (shaped.certified x x_mem x_high)
  obtain ⟨next, committed, inv', advances⟩ :=
    tryCommitNewBlock_spec (s := { s with blockTree := tree, highestQCBlock := qcBlock })
      ⟨shaped, inv.lock_low, inv.lock_high, inv.chain, inv.last⟩ block reported
  refine ⟨next, ?_, inv', advances.lock, advances.commit, advances.committed⟩
  simp only [insertQCBlock, ignored, if_false, inserted, set_qc, bind, Except.bind]
  exact committed

theorem Step.committing {next : CbftState Signature} (inv : Committing origin s)
    (step : Step s next) : Committing origin next ∧ Advances s next := by
  obtain ⟨block, qc, linked, inserted⟩ := step
  obtain ⟨next', inserted', inv', advances⟩ := insertQCBlock_step inv block qc linked
  obtain rfl : next = next' := Except.ok.inj (inserted.symm.trans inserted')
  exact ⟨inv', advances⟩

theorem committing_of_run {next : CbftState Signature} (inv : Committing origin s)
    (run : ReflTransGen Step s next) : Committing origin next ∧ Advances s next := by
  induction run with
  | refl => exact ⟨inv, .refl s⟩
  | tail _ step ih =>
    obtain ⟨inv_mid, first⟩ := ih
    obtain ⟨inv_next, second⟩ := Step.committing inv_mid step
    exact ⟨inv_next, first.trans second⟩

/-- The local commit chain.  On every run from `Cbft.Start` that inserts blocks whose parents the
tree holds: the tree's root is the highest commit block; every other stored block points to a
stored parent one lower whose hash is its parent hash, and descends from the root; inserting a
block whose parent the tree holds never panics; the blocks posted to the miner form a hash chain
from the start block; and along every further run the lock and commit numbers never decrease. -/
theorem commit_chain {qc : Option (QuorumCert Signature)} {s₀ : CbftState Signature}
    (started : start origin qc = .ok s₀) (run : ReflTransGen Step s₀ s) :
    s.blockTree.root = some s.highestCommitBlock ∧
      (∀ x ∈ s.blockTree.blocks, x.block ≠ s.highestCommitBlock →
        ∃ p ∈ s.blockTree.blocks, s.blockTree.parentOf x = some p ∧ p.IsChild x ∧
          ∃ r ∈ s.blockTree.blocks, r.block = s.highestCommitBlock ∧
            TransGen (Under s.blockTree.blocks) r x) ∧
      (∀ (block : Block) (qc : QuorumCert Signature),
        (s.blockTree.findBlockExt block.parentHash (block.number - 1)).isSome →
          ∃ next, s.insertQCBlock block qc = .ok next) ∧
      (origin :: s.committed).IsChain Block.IsChild ∧
      ∀ next, ReflTransGen Step s next →
        s.highestLockBlock.number ≤ next.highestLockBlock.number ∧
          s.highestCommitBlock.number ≤ next.highestCommitBlock.number := by
  obtain ⟨inv, -⟩ := committing_of_run (start_committing started) run
  refine ⟨inv.shaped.root_eq, fun x x_mem other => inv.shaped.linked_descendant x_mem other,
    fun block qc linked => ?_, inv.chain, fun next later => ?_⟩
  · obtain ⟨next, inserted, -⟩ := insertQCBlock_step inv block qc linked
    exact ⟨next, inserted⟩
  · obtain ⟨-, advances⟩ := committing_of_run inv later
    exact ⟨advances.lock, advances.commit⟩

/-- The genesis block as the start of a run. -/
def genesis : Block := ⟨0, zeroHash, zeroHash⟩

/-- Block `n` of a sample chain on `genesis`, with hash `n`. -/
def chainBlock (n : ℕ) : Block := ⟨n, BitVec.ofNat 256 n, BitVec.ofNat 256 (n - 1)⟩

/-- The certificate of `chainBlock n`, from view `n` of epoch 1. -/
def chainQC (n : ℕ) : QuorumCert Unit :=
  ⟨1, n.toUInt64, BitVec.ofNat 256 n, n.toUInt64, 0, (), none⟩

/-- The run from the genesis block that inserts blocks 1, 2 and 3 with their certificates: the
third insertion commits block 1. -/
theorem commit_chain_three_blocks :
    ∃ s₀ s₃ : CbftState Unit, start genesis none = .ok s₀ ∧ ReflTransGen Step s₀ s₃ ∧
      s₃.committed = [chainBlock 1] ∧
      (s₃.blockTree.root = some s₃.highestCommitBlock ∧
      (∀ x ∈ s₃.blockTree.blocks, x.block ≠ s₃.highestCommitBlock →
        ∃ p ∈ s₃.blockTree.blocks, s₃.blockTree.parentOf x = some p ∧ p.IsChild x ∧
          ∃ r ∈ s₃.blockTree.blocks, r.block = s₃.highestCommitBlock ∧
            TransGen (Under s₃.blockTree.blocks) r x) ∧
      (∀ (block : Block) (qc : QuorumCert Unit),
        (s₃.blockTree.findBlockExt block.parentHash (block.number - 1)).isSome →
          ∃ next, s₃.insertQCBlock block qc = .ok next) ∧
      (genesis :: s₃.committed).IsChain Block.IsChild ∧
      ∀ next, ReflTransGen Step s₃ next →
        s₃.highestLockBlock.number ≤ next.highestLockBlock.number ∧
          s₃.highestCommitBlock.number ≤ next.highestCommitBlock.number) := by
  obtain ⟨s₀, s₃, started, run, committed⟩ : ∃ s₀ s₃ : CbftState Unit,
      start genesis none = .ok s₀ ∧ ReflTransGen Step s₀ s₃ ∧ s₃.committed = [chainBlock 1] :=
    ⟨_, _, rfl, .tail (.tail (.single (.insert (chainBlock 1) (chainQC 1) rfl rfl))
      (.insert (chainBlock 2) (chainQC 2) rfl rfl)) (.insert (chainBlock 3) (chainQC 3) rfl rfl),
      rfl⟩
  exact ⟨s₀, s₃, started, run, committed, commit_chain started run⟩

end CbftState

end Cbft
end Bubble
