import Bubble.Cbft.Prune
import Bubble.Lib.Rollback

/-!
# The shape of the tree

`Shaped tree root` is what the commit path keeps of the block tree.  The root block is stored,
alone at its height and below every other block.  Every other block points to a stored parent
one lower, whose hash is its parent hash, and carries a certificate.  The `Children` pointers are
right (`Wired`).  From the shape, every stored block descends from the root (`Shaped.reaches`).

Three operations keep the shape:

* inserting a block whose parent the tree holds (`Shaped.insertQCBlock`), with the lock and
  commit it reports being the root twice or a stored block and its stored parent;
* pruning at a stored child of the root (`Shaped.pruneBlock`);
* moving the root there (`Shaped.newRoot`), which makes that child the root.
-/

namespace Bubble
namespace Cbft

open Relation

variable {Signature : Type}

/-- The shape the tree keeps, with `root` its root block. -/
structure Shaped (tree : BlockTree Signature) (root : Block) : Prop where
  root_eq : tree.root = some root
  wired : Wired tree.blocks
  root_mem : ∃ r ∈ tree.blocks, r.block = root
  above : ∀ x ∈ tree.blocks, root.number ≤ x.block.number
  alone : ∀ x ∈ tree.blocks, x.block.number = root.number → x.block = root
  linked : ∀ x ∈ tree.blocks, root.number < x.block.number → ∃ p ∈ tree.blocks, p.IsChild x
  certified : ∀ x ∈ tree.blocks, root.number < x.block.number → x.qc.isSome

theorem Wired.filter {blocks : List (BlockExt Signature)} (wired : Wired blocks)
    (keep : BlockExt Signature → Bool)
    (up : ∀ p ∈ blocks, ∀ x ∈ blocks, p.IsChild x → keep p → keep x) :
    Wired (blocks.filter keep) where
  distinct := wired.distinct.sublist (List.filter_sublist.map _)
  sound p member hash listed := by
    obtain ⟨p_mem, kept⟩ := List.mem_filter.mp member
    obtain ⟨x, x_mem, named, link⟩ := wired.sound p p_mem hash listed
    exact ⟨x, List.mem_filter.mpr ⟨x_mem, up p p_mem x x_mem link kept⟩, named, link⟩
  complete p p_mem x x_mem link :=
    wired.complete p (List.mem_filter.mp p_mem).1 x (List.mem_filter.mp x_mem).1 link
  pointed p p_mem x x_mem link :=
    wired.pointed p (List.mem_filter.mp p_mem).1 x (List.mem_filter.mp x_mem).1 link

namespace BlockTree

theorem findParent_eq (tree : BlockTree Signature) (hash : Hash) (number : ℕ) :
    tree.findParent hash number = tree.findBlockExt hash (number - 1) := by
  simp only [findParent, findBlockExt, Keyed.find, List.find?_filter]
  congr 1
  funext a
  simp [BlockExt.key, Prod.ext_iff]

theorem maxBlock_mem (tree : BlockTree Signature) (ext : BlockExt Signature) :
    tree.maxBlock ext = ext ∨
      (tree.maxBlock ext ∈ tree.blocks ∧ (tree.maxBlock ext).block.number = ext.block.number) := by
  rcases Traverse.foldl_pick (fun max e : BlockExt Signature =>
      max.viewNumber + 1 < e.viewNumber + 1 ∧ e.parent.isSome)
      (tree.blocks.filter (·.block.number = ext.block.number)) ext with same | member
  · exact .inl same
  · have picked := List.mem_filter.mp member
    exact .inr ⟨picked.1, of_decide_eq_true picked.2⟩

@[simp]
theorem qcBlockExt_block (block : Block) (qc : QuorumCert Signature) :
    (qcBlockExt block qc).block = block := rfl

end BlockTree

/-- `NewBlockTree` gives the shape, with its root alone in the tree. -/
theorem newBlockTree_shaped {root : Block} {qc : Option (QuorumCert Signature)}
    {tree : BlockTree Signature} (built : newBlockTree root qc = .ok tree) : Shaped tree root := by
  obtain ⟨viewNumber, -, rfl⟩ := Rollback.map_eq_ok.mp built
  have no_link : ∀ p ∈ [({ viewNumber, block := root, qc, parent := none, children := [] } :
      BlockExt Signature)], ∀ x ∈ [({ viewNumber, block := root, qc, parent := none, children := [] } :
      BlockExt Signature)], ¬p.IsChild x := by
    intro p p_mem x x_mem link
    rw [List.mem_singleton.mp p_mem, List.mem_singleton.mp x_mem] at link
    exact Nat.succ_ne_self _ link.1.symm
  refine ⟨rfl, ⟨by simp, ?_, ?_, ?_⟩, ⟨_, List.mem_singleton_self _, rfl⟩, ?_, ?_, ?_, ?_⟩
  · intro p p_mem hash listed
    rw [List.mem_singleton.mp p_mem] at listed
    exact absurd listed List.not_mem_nil
  · exact fun p p_mem x x_mem link => absurd link (no_link p p_mem x x_mem)
  · exact fun p p_mem x x_mem link => absurd link (no_link p p_mem x x_mem)
  · intro x x_mem
    rw [List.mem_singleton.mp x_mem]
  · intro x x_mem _
    rw [List.mem_singleton.mp x_mem]
  · intro x x_mem high
    rw [List.mem_singleton.mp x_mem] at high
    exact absurd high (Nat.lt_irrefl _)
  · intro x x_mem high
    rw [List.mem_singleton.mp x_mem] at high
    exact absurd high (Nat.lt_irrefl _)

namespace Shaped

variable {tree : BlockTree Signature} {root : Block}

theorem pointer (shaped : Shaped tree root) {x : BlockExt Signature} (x_mem : x ∈ tree.blocks)
    (high : root.number < x.block.number) : x.parent = some x.block.parentHash := by
  obtain ⟨p, p_mem, link⟩ := shaped.linked x x_mem high
  exact shaped.wired.pointed p p_mem x x_mem link

theorem parentOf_eq (shaped : Shaped tree root) {x : BlockExt Signature} (x_mem : x ∈ tree.blocks)
    (high : root.number < x.block.number) :
    ∃ p ∈ tree.blocks, tree.parentOf x = some p ∧ p.IsChild x := by
  obtain ⟨p, p_mem, link⟩ := shaped.linked x x_mem high
  refine ⟨p, p_mem, ?_, link⟩
  simp only [BlockTree.parentOf, shaped.pointer x_mem high, Option.bind_some]
  exact (BlockTree.findBlockExt_eq_some_iff shaped.wired.distinct).mpr ⟨p_mem, link.key_eq⟩

theorem eq_root_record (shaped : Shaped tree root) {r x : BlockExt Signature}
    (r_mem : r ∈ tree.blocks) (r_root : r.block = root) (x_mem : x ∈ tree.blocks)
    (level : x.block.number = root.number) : x = r := by
  apply Keyed.eq_of_key_eq shaped.wired.distinct x_mem r_mem
  rw [BlockExt.key, BlockExt.key, shaped.alone x x_mem level, r_root]

theorem reaches (shaped : Shaped tree root) :
    ∃ r ∈ tree.blocks, r.block = root ∧ ∀ x ∈ tree.blocks, ReflTransGen (Under tree.blocks) r x := by
  obtain ⟨r, r_mem, r_root⟩ := shaped.root_mem
  refine ⟨r, r_mem, r_root, Rooted.reflTransGen_of_parents (fun x : BlockExt Signature => x.block.number)
    fun x x_mem other => ?_⟩
  have high : root.number < x.block.number := by
    rcases Nat.lt_or_eq_of_le (shaped.above x x_mem) with lower | level
    · exact lower
    · exact absurd (shaped.eq_root_record r_mem r_root x_mem level.symm) other
  obtain ⟨p, p_mem, link⟩ := shaped.linked x x_mem high
  exact ⟨p, p_mem, Under.number_lt ⟨x_mem, link⟩, x_mem, link⟩

theorem linked_descendant (shaped : Shaped tree root) {x : BlockExt Signature}
    (x_mem : x ∈ tree.blocks) (other : x.block ≠ root) :
    ∃ p ∈ tree.blocks, tree.parentOf x = some p ∧ p.IsChild x ∧
      ∃ r ∈ tree.blocks, r.block = root ∧ TransGen (Under tree.blocks) r x := by
  have high : root.number < x.block.number := by
    rcases Nat.lt_or_eq_of_le (shaped.above x x_mem) with lower | level
    · exact lower
    · exact absurd (shaped.alone x x_mem level.symm) other
  obtain ⟨p, p_mem, parent_eq, link⟩ := shaped.parentOf_eq x_mem high
  obtain ⟨r, r_mem, r_root, reach⟩ := shaped.reaches
  refine ⟨p, p_mem, parent_eq, link, r, r_mem, r_root, ?_⟩
  rcases reflTransGen_iff_eq_or_transGen.mp (reach x x_mem) with same | path
  · exact absurd (by rw [same, r_root]) other
  · exact path

theorem parentHash_of_level (shaped : Shaped tree root) {x : BlockExt Signature}
    (x_mem : x ∈ tree.blocks) (level : x.block.number = root.number + 1) :
    x.block.parentHash = root.hash := by
  obtain ⟨p, p_mem, link⟩ := shaped.linked x x_mem (by rw [level]; exact Nat.lt_succ_self _)
  have p_level : p.block.number = root.number := Nat.succ_injective (link.1.symm.trans level)
  rw [link.2, shaped.alone p p_mem p_level]

/-! ## The lock and the commit -/

/-- What `InsertQCBlock` may report on a tree of root `root`: the root as lock and commit, or a
stored block above the root as lock with its stored parent as commit. -/
def Reported (tree : BlockTree Signature) (root lock commit : Block) : Prop :=
  (lock = root ∧ commit = root) ∨
    ∃ l ∈ tree.blocks, ∃ c ∈ tree.blocks, l.block = lock ∧ c.block = commit ∧ c.IsChild l ∧
      root.number < l.block.number

theorem commitBlock_spec (shaped : Shaped tree root) {ext : BlockExt Signature}
    (ext_mem : ext ∈ tree.blocks) (high : root.number < ext.block.number) :
    ∃ lock commit, tree.commitBlock ext = .ok (lock, commit) ∧
      ((lock = root ∧ commit = root) ∨
        ∃ l ∈ tree.blocks, ∃ c ∈ tree.blocks, l.block = lock ∧ c.block = commit ∧ c.IsChild l ∧
          l.IsChild ext ∧ root.number < l.block.number) := by
  obtain ⟨l, l_mem, lock_eq, l_link⟩ := shaped.parentOf_eq ext_mem high
  by_cases at_root : l.block.hash = root.hash
  · refine ⟨root, root, ?_, .inl ⟨rfl, rfl⟩⟩
    simp only [BlockTree.commitBlock, lock_eq, shaped.root_eq, at_root, if_true]
  · have l_high : root.number < l.block.number := by
      rcases Nat.lt_or_eq_of_le (shaped.above l l_mem) with lower | level
      · exact lower
      · exact absurd (by rw [shaped.alone l l_mem level.symm]) at_root
    obtain ⟨c, c_mem, commit_eq, c_link⟩ := shaped.parentOf_eq l_mem l_high
    refine ⟨l.block, c.block, ?_, .inr ⟨l, l_mem, c, c_mem, rfl, rfl, c_link, l_link, l_high⟩⟩
    simp only [BlockTree.commitBlock, lock_eq, shaped.root_eq, at_root, if_false, commit_eq]

/-! ## Moving the root -/

/-- `PruneBlock` and then `NewRoot` at a stored child `c` of the root never panic, and give the
shape with `c` as the root: the blocks beside `c` are deleted with their branches, and everything
left descends from `c`. -/
theorem pruneBlock_newRoot (shaped : Shaped tree root) {c : BlockExt Signature}
    (c_mem : c ∈ tree.blocks) (level : c.block.number = root.number + 1) :
    ∃ pruned next, tree.pruneBlock c.block.hash c.block.number = .ok pruned ∧
      pruned.newRoot c.block = .ok next ∧ Shaped next c.block := by
  let T := tree.blocks.filter fun x => ¬(root.number ≤ x.block.number ∧ x.block.number < c.block.number)
  have mem_T : ∀ x, x ∈ T ↔ x ∈ tree.blocks ∧ root.number < x.block.number := by
    intro x
    simp only [T, List.mem_filter, decide_eq_true_eq, level]
    constructor
    · rintro ⟨x_mem, off⟩
      exact ⟨x_mem, by have := shaped.above x x_mem; omega⟩
    · rintro ⟨x_mem, high⟩
      exact ⟨x_mem, by omega⟩
  have wired : Wired T := shaped.wired.filter _ fun p p_mem x x_mem link kept => by
    have p_high := ((mem_T p).mp (List.mem_filter.mpr ⟨p_mem, kept⟩)).2
    exact (List.mem_filter.mp ((mem_T x).mpr ⟨x_mem, by have := link.1; omega⟩)).2
  have c_T : c ∈ T := (mem_T c).mpr ⟨c_mem, by omega⟩
  have low : ∀ x ∈ T, c.block.number ≤ x.block.number := fun x member => by
    have := ((mem_T x).mp member).2
    omega
  have pointers : ∀ x ∈ T, x.block.number = c.block.number → x.parent = some x.block.parentHash :=
    fun x member _ => shaped.pointer ((mem_T x).mp member).1 ((mem_T x).mp member).2
  let start : BlockTree Signature := ⟨tree.root, T⟩
  have loop := (pruning_start wired c_T tree.root).foldl_pruneAt wired c_T low (by omega) pointers
    (start.hashesAt c.block.number) (BlockTree.hashesAt_nodup wired.distinct _)
    (fun _ _ absent => List.not_mem_nil absent)
    (fun _ member => BlockTree.mem_hashesAt.mp member)
  rw [List.nil_append] at loop
  set pruned := (start.hashesAt c.block.number).foldl (BlockTree.pruneAt c.block.hash c.block.number)
    start with pruned_eq
  have c_listed : c.block.hash ∈ start.hashesAt c.block.number :=
    BlockTree.mem_hashesAt.mpr ⟨c, c_T, rfl, rfl⟩
  have pruned_root : pruned.root = some c.block := by
    rw [loop.root_eq, if_pos c_listed]
  have mem_pruned : ∀ x, x ∈ pruned.blocks ↔
      (x ∈ T ∧ x.key ≠ c.key ∧ ¬Cut T c (start.hashesAt c.block.number) x) ∨ x = c.detach := by
    intro x
    rw [loop.mem_iff, if_pos c_listed]
  have detach_mem : c.detach ∈ pruned.blocks := (mem_pruned _).mpr (.inr rfl)
  have pruneBlock_eq : tree.pruneBlock c.block.hash c.block.number = .ok pruned := by
    simp only [BlockTree.pruneBlock, shaped.root_eq]
    rfl
  have kept : pruned.blocks.filter (fun x => ¬(c.block.number ≤ x.block.number ∧
      x.block.number < c.block.number)) = pruned.blocks :=
    List.filter_eq_self.mpr fun x _ => by simp
  have found : Keyed.find BlockExt.key pruned.blocks (c.block.number, c.block.hash) = some c.detach :=
    (Keyed.find_eq_some_iff loop.distinct).mpr ⟨detach_mem, rfl⟩
  refine ⟨pruned, ⟨some c.block, pruned.blocks⟩, pruneBlock_eq, ?_, ?_⟩
  · simp only [BlockTree.newRoot, pruned_root, BlockTree.deleteHeights, kept, BlockTree.findBlockExt]
    rw [found]
    rfl
  have origin : ∀ p ∈ pruned.blocks, p = c.detach ∨ (p ∈ T ∧ p.key ≠ c.key ∧
      ¬Cut T c (start.hashesAt c.block.number) p) := fun p member =>
    ((mem_pruned p).mp member).symm
  have child_kept : ∀ p x, (p = c ∨ (p ∈ T ∧ ¬Cut T c (start.hashesAt c.block.number) p)) →
      x ∈ T → p.IsChild x → x ∈ pruned.blocks := by
    intro p x p_ok x_T link
    have p_T : p ∈ T := p_ok.elim (fun same => same ▸ c_T) And.left
    have higher : c.block.number < x.block.number := by
      have := low p p_T
      have := link.1
      omega
    refine (mem_pruned x).mpr (.inl ⟨x_T, fun same => ?_, fun cut => ?_⟩)
    · have : x.block.number = c.block.number := congrArg Prod.fst same
      omega
    · have p_cut := cut_of_child wired cut ⟨x_T, link⟩ p_T (low p p_T)
      rcases p_ok with rfl | ⟨-, uncut⟩
      · exact not_cut_self p_cut
      · exact uncut p_cut
  have behind : ∀ p ∈ pruned.blocks, ∃ q, (q = c ∨ (q ∈ T ∧ ¬Cut T c (start.hashesAt c.block.number) q)) ∧
      q.block = p.block ∧ q.children = p.children := by
    intro p member
    rcases origin p member with rfl | ⟨p_T, -, uncut⟩
    · exact ⟨c, .inl rfl, rfl, rfl⟩
    · exact ⟨p, .inr ⟨p_T, uncut⟩, rfl, rfl⟩
  have x_in_T : ∀ p x, p ∈ pruned.blocks → x ∈ pruned.blocks → p.IsChild x → x ∈ T := by
    intro p x p_mem x_mem link
    rcases origin x x_mem with rfl | ⟨x_T, -, -⟩
    · have := link.1
      have : c.block.number ≤ p.block.number := by
        rcases origin p p_mem with rfl | ⟨p_T, -, -⟩
        · exact Nat.le_refl _
        · exact low p p_T
      simp only [BlockExt.detach_block] at *
      omega
    · exact x_T
  refine ⟨rfl, ⟨loop.distinct, ?_, ?_, ?_⟩, ⟨c.detach, detach_mem, rfl⟩, ?_, ?_, ?_, ?_⟩
  · -- sound
    intro p p_mem hash listed
    obtain ⟨q, q_ok, q_block, q_children⟩ := behind p p_mem
    have q_T : q ∈ T := q_ok.elim (fun same => same ▸ c_T) And.left
    obtain ⟨x, x_T, named, link⟩ := wired.sound q q_T hash (q_children ▸ listed)
    refine ⟨x, child_kept q x q_ok x_T link, named, ?_⟩
    rw [BlockExt.IsChild, ← q_block]
    exact link
  · -- complete
    intro p p_mem x x_mem link
    obtain ⟨q, q_ok, q_block, q_children⟩ := behind p p_mem
    have q_T : q ∈ T := q_ok.elim (fun same => same ▸ c_T) And.left
    rw [← q_children]
    refine wired.complete q q_T x (x_in_T p x p_mem x_mem link) ?_
    rw [BlockExt.IsChild, q_block]
    exact link
  · -- pointed
    intro p p_mem x x_mem link
    obtain ⟨q, q_ok, q_block, -⟩ := behind p p_mem
    have q_T : q ∈ T := q_ok.elim (fun same => same ▸ c_T) And.left
    refine wired.pointed q q_T x (x_in_T p x p_mem x_mem link) ?_
    rw [BlockExt.IsChild, q_block]
    exact link
  · -- above
    intro x x_mem
    rcases origin x x_mem with rfl | ⟨x_T, -, -⟩
    · exact Nat.le_refl _
    · exact low x x_T
  · intro x x_mem x_level
    rcases origin x x_mem with rfl | ⟨x_T, x_key, uncut⟩
    · rfl
    · refine absurd ⟨x, x_T, x_level, BlockTree.mem_hashesAt.mpr ⟨x, x_T, x_level, rfl⟩, ?_, .refl⟩ uncut
      intro same
      exact x_key (by simp only [BlockExt.key, x_level, same])
  · intro x x_mem high
    rcases origin x x_mem with rfl | ⟨x_T, -, uncut⟩
    · exact absurd high (Nat.lt_irrefl _)
    · obtain ⟨x_tree, x_high⟩ := (mem_T x).mp x_T
      obtain ⟨p, p_mem, link⟩ := shaped.linked x x_tree x_high
      have p_T : p ∈ T := (mem_T p).mpr ⟨p_mem, by have := link.1; omega⟩
      by_cases at_c : p.key = c.key
      · rw [Keyed.eq_of_key_eq wired.distinct p_T c_T at_c] at link
        exact ⟨c.detach, detach_mem, link⟩
      · refine ⟨p, (mem_pruned p).mpr (.inl ⟨p_T, at_c, fun cut => uncut ?_⟩), link⟩
        obtain ⟨e, e_mem, e_level, hit, other, path⟩ := cut
        exact ⟨e, e_mem, e_level, hit, other, path.tail ⟨x_T, link⟩⟩
  · -- certified
    intro x x_mem high
    rcases origin x x_mem with rfl | ⟨x_T, -, -⟩
    · exact absurd high (Nat.lt_irrefl _)
    · exact shaped.certified x ((mem_T x).mp x_T).1 ((mem_T x).mp x_T).2

/-! ## Inserting a block -/

section Insert

variable (shaped : Shaped tree root) {ext : BlockExt Signature}
  (high : root.number < ext.block.number)
  (absent : tree.findBlockExt ext.block.hash ext.block.number = none)
include shaped high absent

theorem no_child_of_absent {x : BlockExt Signature} (x_mem : x ∈ tree.blocks) : ¬ext.IsChild x := by
  intro link
  obtain ⟨q, q_mem, q_link⟩ := shaped.linked x x_mem (by rw [link.1]; omega)
  apply BlockTree.findBlockExt_eq_none_iff.mp absent q q_mem
  rw [q_link.key_eq, link.1, link.2, Nat.add_sub_cancel]

variable {P : BlockExt Signature}
  (P_found : tree.findBlockExt ext.block.parentHash (ext.block.number - 1) = some P)
include P_found

/-- `fixTree` on a new block whose parent `P` the tree holds: `P` lists it as a child and it
points to `P`; no stored block is its child. -/
theorem fixTree_fresh :
    BlockTree.fixTree { tree with blocks := tree.blocks ++ [ext] } ext =
      ⟨tree.root, Keyed.update BlockExt.key tree.blocks P.key
          (fun p => { p with children := p.children.insert ext.block.hash }) ++
        [{ ext with parent := some P.block.hash }]⟩ := by
  have ⟨P_mem, P_key⟩ := (BlockTree.findBlockExt_eq_some_iff shaped.wired.distinct).mp P_found
  have ext_key : ext.key ≠ P.key := by
    rw [P_key]
    intro same
    have : ext.block.number = ext.block.number - 1 := congrArg Prod.fst same
    omega
  have parent : BlockTree.findParent { tree with blocks := tree.blocks ++ [ext] }
      ext.block.parentHash ext.block.number = some P := by
    rw [BlockTree.findParent_eq]
    simp only [BlockTree.findBlockExt, Keyed.find, List.find?_append] at P_found ⊢
    rw [P_found]
    rfl
  have child : BlockTree.findChild { tree with blocks := tree.blocks ++ [ext] }
      ext.block.hash ext.block.number = none := by
    refine List.find?_eq_none.mpr fun x member named => ?_
    obtain ⟨x_mem, x_level⟩ := List.mem_filter.mp member
    have x_level := of_decide_eq_true x_level
    rcases List.mem_append.mp x_mem with x_tree | x_new
    · exact shaped.no_child_of_absent high absent x_tree ⟨x_level, of_decide_eq_true named⟩
    · rw [List.mem_singleton.mp x_new] at x_level
      omega
  simp only [BlockTree.fixTree, parent, child, BlockTree.update]
  rw [Keyed.update_append_singleton, Keyed.update_append_singleton, if_neg ext_key,
    Keyed.update_of_absent]
  · simp
  · intro a member same
    obtain ⟨y, y_mem, rfl⟩ := List.mem_map.mp member
    refine BlockTree.findBlockExt_eq_none_iff.mp absent y y_mem ?_
    show y.key = ext.key
    rw [← same]
    split <;> rfl

/-- The tree `fixTree_fresh` gives keeps the shape: the new block is a stored child of `P`, and
every other record keeps its block, certificate and parent, with `P` one more child. -/
theorem shaped_fresh (empty : ext.children = []) (certified : ext.qc.isSome) :
    Shaped ⟨tree.root, Keyed.update BlockExt.key tree.blocks P.key
        (fun p => { p with children := p.children.insert ext.block.hash }) ++
      [{ ext with parent := some P.block.hash }]⟩ root := by
  have ⟨P_mem, P_key⟩ := (BlockTree.findBlockExt_eq_some_iff shaped.wired.distinct).mp P_found
  let g := fun y : BlockExt Signature =>
    if y.key = P.key then { y with children := y.children.insert ext.block.hash } else y
  let ext' : BlockExt Signature := { ext with parent := some P.block.hash }
  have g_block : ∀ y, (g y).block = y.block := fun y => by simp only [g]; split <;> rfl
  have g_qc : ∀ y, (g y).qc = y.qc := fun y => by simp only [g]; split <;> rfl
  have g_parent : ∀ y, (g y).parent = y.parent := fun y => by simp only [g]; split <;> rfl
  have g_grows : ∀ y, ∀ h ∈ y.children, h ∈ (g y).children := fun y h listed => by
    simp only [g]
    split
    · exact List.mem_insert_of_mem listed
    · exact listed
  have g_new : ∀ y, ∀ h ∈ (g y).children, h ∈ y.children ∨ (y.key = P.key ∧ h = ext.block.hash) := by
    intro y h listed
    simp only [g] at listed
    split at listed
    · rcases List.mem_insert_iff.mp listed with now | before
      · exact .inr ⟨by assumption, now⟩
      · exact .inl before
    · exact .inl listed
  have g_key : ∀ y, (g y).key = y.key := fun y => by simp only [BlockExt.key, g_block]
  have child_g : ∀ p x, (g p).IsChild x ↔ p.IsChild x := fun p x => by
    simp only [BlockExt.IsChild, g_block]
  have g_child : ∀ p x : BlockExt Signature, p.IsChild (g x) ↔ p.IsChild x := fun p x => by
    simp only [BlockExt.IsChild, g_block]
  have mem_next : ∀ x, x ∈ Keyed.update BlockExt.key tree.blocks P.key
      (fun p => { p with children := p.children.insert ext.block.hash }) ++ [ext'] ↔
      (∃ y ∈ tree.blocks, g y = x) ∨ x = ext' := by
    intro x
    simp only [Keyed.update, List.mem_append, List.mem_map, List.mem_singleton]
    rfl
  have P_ext : P.IsChild ext' := by
    have : P.block.number = ext.block.number - 1 := congrArg Prod.fst P_key
    exact ⟨by show ext.block.number = _; omega, (congrArg Prod.snd P_key).symm⟩
  have no_child : ∀ y ∈ tree.blocks, ¬ext'.IsChild y := fun y y_mem =>
    shaped.no_child_of_absent high absent y_mem
  have ext'_high : root.number < ext'.block.number := high
  refine ⟨shaped.root_eq, ⟨?_, ?_, ?_, ?_⟩, ?_, ?_, ?_, ?_, ?_⟩
  · have keys : (Keyed.update BlockExt.key tree.blocks P.key
        (fun p => { p with children := p.children.insert ext.block.hash })).map BlockExt.key =
        tree.blocks.map BlockExt.key := by
      apply Keyed.map_key_update
      intro _
      rfl
    rw [List.map_append, keys]
    refine List.nodup_append.mpr ⟨shaped.wired.distinct, List.nodup_singleton _, ?_⟩
    intro a a_mem b b_mem same
    obtain ⟨y, y_mem, rfl⟩ := List.mem_map.mp a_mem
    rw [List.mem_singleton.mp b_mem] at same
    exact BlockTree.findBlockExt_eq_none_iff.mp absent y y_mem same
  · -- sound
    intro p p_mem hash listed
    rcases (mem_next p).mp p_mem with ⟨y, y_mem, rfl⟩ | rfl
    · rcases g_new y hash listed with before | ⟨y_key, rfl⟩
      · obtain ⟨x, x_mem, named, link⟩ := shaped.wired.sound y y_mem hash before
        exact ⟨g x, (mem_next _).mpr (.inl ⟨x, x_mem, rfl⟩), by rw [g_block]; exact named,
          (child_g y _).mpr ((g_child y x).mpr link)⟩
      · rw [Keyed.eq_of_key_eq shaped.wired.distinct y_mem P_mem y_key]
        exact ⟨ext', (mem_next _).mpr (.inr rfl), rfl, (child_g P ext').mpr P_ext⟩
    · simp only [ext', empty] at listed
      exact absurd listed List.not_mem_nil
  · -- complete
    intro p p_mem x x_mem link
    rcases (mem_next p).mp p_mem with ⟨y, y_mem, rfl⟩ | rfl
    · rcases (mem_next x).mp x_mem with ⟨z, z_mem, rfl⟩ | rfl
      · exact g_grows y _ (by
          rw [g_block]
          exact shaped.wired.complete y y_mem z z_mem ((g_child y z).mp ((child_g y _).mp link)))
      · have y_key : y.key = P.key := by
          rw [((child_g y ext').mp link).key_eq, P_ext.key_eq]
        simp only [g, y_key, if_true]
        exact List.mem_insert_self
    · rcases (mem_next x).mp x_mem with ⟨z, z_mem, rfl⟩ | rfl
      · exact absurd ((g_child ext' z).mp link) (no_child z z_mem)
      · exact absurd link.1 (by omega)
  · -- pointed
    intro p p_mem x x_mem link
    rcases (mem_next x).mp x_mem with ⟨z, z_mem, rfl⟩ | rfl
    · rw [g_parent, g_block]
      rcases (mem_next p).mp p_mem with ⟨y, y_mem, rfl⟩ | rfl
      · exact shaped.wired.pointed y y_mem z z_mem ((g_child y z).mp ((child_g y _).mp link))
      · exact absurd ((g_child ext' z).mp link) (no_child z z_mem)
    · show some P.block.hash = some ext.block.parentHash
      rw [P_ext.2]
  · -- root_mem
    obtain ⟨r, r_mem, r_root⟩ := shaped.root_mem
    exact ⟨g r, (mem_next _).mpr (.inl ⟨r, r_mem, rfl⟩), by rw [g_block, r_root]⟩
  · -- above
    intro x x_mem
    rcases (mem_next x).mp x_mem with ⟨y, y_mem, rfl⟩ | rfl
    · rw [g_block]
      exact shaped.above y y_mem
    · exact Nat.le_of_lt ext'_high
  · -- alone
    intro x x_mem level
    rcases (mem_next x).mp x_mem with ⟨y, y_mem, rfl⟩ | rfl
    · rw [g_block] at level ⊢
      exact shaped.alone y y_mem level
    · exact absurd level (Nat.ne_of_gt ext'_high)
  · -- linked
    intro x x_mem x_high
    rcases (mem_next x).mp x_mem with ⟨y, y_mem, rfl⟩ | rfl
    · rw [g_block] at x_high
      obtain ⟨q, q_mem, link⟩ := shaped.linked y y_mem x_high
      exact ⟨g q, (mem_next _).mpr (.inl ⟨q, q_mem, rfl⟩), (child_g q _).mpr ((g_child q y).mpr link)⟩
    · exact ⟨g P, (mem_next _).mpr (.inl ⟨P, P_mem, rfl⟩), (child_g P ext').mpr P_ext⟩
  · -- certified
    intro x x_mem x_high
    rcases (mem_next x).mp x_mem with ⟨y, y_mem, rfl⟩ | rfl
    · rw [g_block] at x_high
      rw [g_qc]
      exact shaped.certified y y_mem x_high
    · exact certified

end Insert

/-- `InsertQCBlock` of a block above the root whose parent the tree holds never panics and keeps
the shape.  The block is stored afterwards, and the lock and commit it reports are the root twice,
or a stored block and its stored parent. -/
theorem insertQCBlock_spec (shaped : Shaped tree root) (block : Block) (qc : QuorumCert Signature)
    (high : root.number < block.number)
    (linked : (tree.findBlockExt block.parentHash (block.number - 1)).isSome) :
    ∃ lock commit next, tree.insertQCBlock block qc = .ok (lock, commit, next) ∧ Shaped next root ∧
      (∃ x ∈ next.blocks, x.key = (block.number, block.hash)) ∧
      ∀ l c, lock = some l → commit = some c → Reported next root l c := by
  by_cases dup : (tree.findBlockExt block.hash block.number).isSome
  · obtain ⟨x, found⟩ := Option.isSome_iff_exists.mp dup
    refine ⟨none, none, tree, ?_, shaped, ⟨x, Keyed.find_mem found⟩, fun _ _ none_eq => by cases none_eq⟩
    simp only [BlockTree.insertQCBlock, BlockTree.insertBlock, BlockTree.qcBlockExt_block, dup, if_true]
  · have absent : tree.findBlockExt (BlockTree.qcBlockExt block qc).block.hash
        (BlockTree.qcBlockExt block qc).block.number = none :=
      Option.not_isSome_iff_eq_none.mp dup
    obtain ⟨P, P_found⟩ := Option.isSome_iff_exists.mp linked
    have P_found' : tree.findBlockExt (BlockTree.qcBlockExt block qc).block.parentHash
        ((BlockTree.qcBlockExt block qc).block.number - 1) = some P := P_found
    have high' : root.number < (BlockTree.qcBlockExt block qc).block.number := high
    have fixed := shaped.fixTree_fresh high' absent P_found'
    have shaped' := shaped.shaped_fresh high' absent P_found' rfl rfl
    set ext' : BlockExt Signature := { BlockTree.qcBlockExt block qc with parent := some P.block.hash }
    set next : BlockTree Signature := ⟨tree.root, Keyed.update BlockExt.key tree.blocks P.key
      (fun p => { p with children := p.children.insert (BlockTree.qcBlockExt block qc).block.hash }) ++
        [ext']⟩
    have ext_mem : ext' ∈ next.blocks := List.mem_append_right _ (List.mem_singleton_self _)
    have found : next.findBlockExt (BlockTree.qcBlockExt block qc).block.hash
        (BlockTree.qcBlockExt block qc).block.number = some ext' :=
      (BlockTree.findBlockExt_eq_some_iff shaped'.wired.distinct).mpr ⟨ext_mem, rfl⟩
    obtain ⟨M_mem, M_level⟩ : next.maxBlock ext' ∈ next.blocks ∧
        (next.maxBlock ext').block.number = block.number := by
      rcases BlockTree.maxBlock_mem next ext' with same | ⟨member, level⟩
      · rw [same]
        exact ⟨ext_mem, rfl⟩
      · exact ⟨member, level⟩
    obtain ⟨lock, commit, committed, cases⟩ := shaped'.commitBlock_spec M_mem (M_level ▸ high)
    refine ⟨some lock, some commit, next, ?_, shaped', ⟨ext', ext_mem, rfl⟩, ?_⟩
    · simp only [BlockTree.insertQCBlock, BlockTree.insertBlock, absent, Option.isSome_none,
        Bool.false_eq_true, if_false, fixed, found, Option.getD_some, committed]
      rfl
    · intro l c lock_eq commit_eq
      obtain rfl := Option.some.inj lock_eq
      obtain rfl := Option.some.inj commit_eq
      rcases cases with same | ⟨lk, lk_mem, cm, cm_mem, lk_block, cm_block, cm_link, -, lk_high⟩
      · exact Or.inl same
      · exact Or.inr ⟨lk, lk_mem, cm, cm_mem, lk_block, cm_block, cm_link, lk_high⟩

end Shaped

end Cbft
end Bubble
