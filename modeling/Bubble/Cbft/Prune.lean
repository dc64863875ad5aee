import Bubble.Cbft.BlockTree
import Bubble.Lib.Rooted

/-!
# What pruning deletes

`pruneBranch` follows the `Children` pointers depth first, and it deletes the branch under a block
only if those pointers are right.  `Wired` says they are, for a list of records: keys are
distinct, the children of a record are exactly the stored blocks one higher that name it as
parent, and every child points back to its parent.  In a wired list `pruneBranch` deletes exactly
the descendants of the block it starts from (`pruneBranch_spec`), however the branch was already
cut into, provided every record it may meet is still the one of the list (`Ready`).

The proof is an induction on the fuel for the recursion, inside it an induction on the list of
children for the loop, with `Ready` as the invariant of the loop.
-/

namespace Bubble
namespace Cbft

open Relation

variable {Signature : Type}

/-! ## Small facts about the tree operations -/

namespace BlockTree

@[simp]
theorem erase_root (tree : BlockTree Signature) (key : ℕ × Hash) :
    (tree.erase key).root = tree.root := rfl

@[simp]
theorem erase_blocks (tree : BlockTree Signature) (key : ℕ × Hash) :
    (tree.erase key).blocks = Keyed.erase BlockExt.key tree.blocks key := rfl

theorem findBlockExt_eq_some_iff {tree : BlockTree Signature}
    (distinct : (tree.blocks.map BlockExt.key).Nodup) {hash : Hash} {number : ℕ}
    {ext : BlockExt Signature} :
    tree.findBlockExt hash number = some ext ↔ ext ∈ tree.blocks ∧ ext.key = (number, hash) :=
  Keyed.find_eq_some_iff distinct

theorem findBlockExt_eq_none_iff {tree : BlockTree Signature} {hash : Hash} {number : ℕ} :
    tree.findBlockExt hash number = none ↔ ∀ ext ∈ tree.blocks, ext.key ≠ (number, hash) :=
  Keyed.find_eq_none_iff

theorem clearParent_erase {tree : BlockTree Signature} {ext : BlockExt Signature}
    (pointer : ext.parent = some ext.block.parentHash)
    (orphan : ∀ p ∈ tree.blocks, p.key ≠ (ext.block.number - 1, ext.block.parentHash)) :
    (tree.clearParent ext).erase ext.key = tree.erase ext.key := by
  simp only [clearParent, pointer, erase, update]
  rw [Keyed.update_of_absent orphan]
  congr 1
  apply Keyed.erase_update_self
  intro _
  rfl

theorem hashesAt_nodup {tree : BlockTree Signature}
    (distinct : (tree.blocks.map BlockExt.key).Nodup) (number : ℕ) :
    (tree.hashesAt number).Nodup := by
  have level_distinct := distinct.sublist ((List.filter_sublist (p := fun x : BlockExt Signature =>
    decide (x.block.number = number))).map BlockExt.key)
  refine List.Nodup.map_on (fun x x_mem y y_mem same => ?_) (level_distinct.of_map _)
  apply Keyed.eq_of_key_eq level_distinct x_mem y_mem
  have x_level := of_decide_eq_true (List.mem_filter.mp x_mem).2
  have y_level := of_decide_eq_true (List.mem_filter.mp y_mem).2
  simp only [BlockExt.key, x_level, y_level, same]

theorem mem_hashesAt {tree : BlockTree Signature} {number : ℕ} {hash : Hash} :
    hash ∈ tree.hashesAt number ↔
      ∃ e ∈ tree.blocks, e.block.number = number ∧ e.block.hash = hash := by
  simp [hashesAt, and_assoc]

end BlockTree

/-! ## Wired records -/

/-- One level of a branch among `blocks`: `x` is stored, and is a child of `p`. -/
def Under (blocks : List (BlockExt Signature)) (p x : BlockExt Signature) : Prop :=
  x ∈ blocks ∧ p.IsChild x

theorem Under.number_lt {blocks : List (BlockExt Signature)} {p x : BlockExt Signature}
    (link : Under blocks p x) : p.block.number < x.block.number := by
  rw [link.2.1]
  exact Nat.lt_succ_self _

theorem number_lt_of_transGen {blocks : List (BlockExt Signature)} {p x : BlockExt Signature}
    (path : TransGen (Under blocks) p x) : p.block.number < x.block.number :=
  Rooted.height_lt_of_transGen (fun _ _ link => Under.number_lt link) path

theorem mem_of_transGen {blocks : List (BlockExt Signature)} {p x : BlockExt Signature}
    (path : TransGen (Under blocks) p x) : x ∈ blocks := by
  cases path with
  | single link => exact link.1
  | tail _ link => exact link.1

theorem mem_of_reflTransGen {blocks : List (BlockExt Signature)} {p x : BlockExt Signature}
    (p_mem : p ∈ blocks) (path : ReflTransGen (Under blocks) p x) : x ∈ blocks := by
  rcases reflTransGen_iff_eq_or_transGen.mp path with same | strict
  · exact same ▸ p_mem
  · exact mem_of_transGen strict

theorem BlockExt.IsChild.key_eq {p x : BlockExt Signature} (link : p.IsChild x) :
    p.key = (x.block.number - 1, x.block.parentHash) := by
  simp only [BlockExt.key, link.1, link.2, Nat.add_sub_cancel]

/-- Records whose pointers are right: distinct keys, `Children` listing exactly the stored
children, and every child pointing back to its parent. -/
structure Wired (blocks : List (BlockExt Signature)) : Prop where
  distinct : (blocks.map BlockExt.key).Nodup
  sound : ∀ p ∈ blocks, ∀ hash ∈ p.children, ∃ x ∈ blocks, x.block.hash = hash ∧ p.IsChild x
  complete : ∀ p ∈ blocks, ∀ x ∈ blocks, p.IsChild x → x.block.hash ∈ p.children
  pointed : ∀ p ∈ blocks, ∀ x ∈ blocks, p.IsChild x → x.parent = some x.block.parentHash

theorem Wired.child_unique {blocks : List (BlockExt Signature)} (wired : Wired blocks)
    {p x y : BlockExt Signature} (first : Under blocks p x) (second : Under blocks p y)
    (same : x.block.hash = y.block.hash) : x = y := by
  apply Keyed.eq_of_key_eq wired.distinct first.1 second.1
  simp only [BlockExt.key, first.2.1, second.2.1, same]

/-- The state `pruneBranch` may start from on the branch under `s`: distinct keys, every stored
record at the key of a descendant of `s` still that descendant, `s` deleted, and a descendant
deleted only with its children. -/
structure Ready (T : List (BlockExt Signature)) (s : BlockExt Signature)
    (tree : BlockTree Signature) : Prop where
  distinct : (tree.blocks.map BlockExt.key).Nodup
  original : ∀ x ∈ tree.blocks, ∀ y, TransGen (Under T) s y → y.key = x.key → x = y
  gone : ∀ x ∈ tree.blocks, x.key ≠ s.key
  closed : ∀ y x, TransGen (Under T) s y → Under T y x → y ∉ tree.blocks → x ∉ tree.blocks

namespace Ready

variable {T : List (BlockExt Signature)} {s : BlockExt Signature} {tree : BlockTree Signature}

theorem of_sublist (ready : Ready T s tree) {next : BlockTree Signature}
    (sub : next.blocks.Sublist tree.blocks)
    (closed : ∀ y x, TransGen (Under T) s y → Under T y x → y ∉ next.blocks → x ∉ next.blocks) :
    Ready T s next where
  distinct := ready.distinct.sublist (sub.map _)
  original x member := ready.original x (sub.subset member)
  gone x member := ready.gone x (sub.subset member)
  closed := closed

theorem not_mem_of_branch (ready : Ready T s tree) {e : BlockExt Signature}
    (below : TransGen (Under T) s e) (missing : e ∉ tree.blocks) :
    ∀ x, ReflTransGen (Under T) e x → x ∉ tree.blocks :=
  Rooted.of_reflTransGen (P := fun x => x ∉ tree.blocks) ready.closed below missing

theorem erase_child (ready : Ready T s tree) {e : BlockExt Signature} (link : Under T s e) :
    Ready T e (tree.erase e.key) where
  distinct := ready.distinct.sublist ((Keyed.erase_sublist _ _).map _)
  original x member y below same :=
    ready.original x (Keyed.mem_erase.mp member).1 y (TransGen.head link below) same
  gone x member := (Keyed.mem_erase.mp member).2
  closed y x below step missing member := by
    have higher : e.block.number < y.block.number := number_lt_of_transGen below
    have kept : y ∉ tree.blocks := by
      intro present
      apply missing
      refine Keyed.mem_erase.mpr ⟨present, fun same => ?_⟩
      have : y.block.number = e.block.number := congrArg Prod.fst same
      omega
    exact ready.closed y x (TransGen.head link below) step kept (Keyed.mem_erase.mp member).1

end Ready

/-! ## The depth-first deletion -/

section Branch

variable {T : List (BlockExt Signature)} (wired : Wired T)
include wired

/-- The branches under the children of `s` named in `hashes`. -/
def InBranches (T : List (BlockExt Signature)) (s : BlockExt Signature) (hashes : List Hash)
    (x : BlockExt Signature) : Prop :=
  ∃ e, Under T s e ∧ e.block.hash ∈ hashes ∧ ReflTransGen (Under T) e x

omit wired in
theorem inBranches_nil {s x : BlockExt Signature} : ¬InBranches T s [] x := by
  rintro ⟨e, -, absent, -⟩
  exact List.not_mem_nil absent

theorem inBranches_children_iff {s : BlockExt Signature} (s_mem : s ∈ T) {x : BlockExt Signature} :
    InBranches T s s.children x ↔ TransGen (Under T) s x := by
  constructor
  · rintro ⟨e, link, -, path⟩
    exact TransGen.head' link path
  · intro path
    obtain ⟨e, link, rest⟩ := TransGen.head'_iff.mp path
    exact ⟨e, link, wired.complete s s_mem e link.1 link.2, rest⟩

theorem inBranches_cons {s e x : BlockExt Signature} (link : Under T s e) (hashes : List Hash) :
    InBranches T s (e.block.hash :: hashes) x ↔
      ReflTransGen (Under T) e x ∨ InBranches T s hashes x := by
  constructor
  · rintro ⟨e', link', hit, path⟩
    rcases List.mem_cons.mp hit with same | later
    · rw [wired.child_unique link' link same] at path
      exact .inl path
    · exact .inr ⟨e', link', later, path⟩
  · rintro (path | ⟨e', link', later, path⟩)
    · exact ⟨e, link, List.mem_cons_self, path⟩
    · exact ⟨e', link', List.mem_cons_of_mem _ later, path⟩

theorem child_of_hash {s : BlockExt Signature} (s_mem : s ∈ T) {hash : Hash}
    (listed : hash ∈ s.children) : ∃ e, Under T s e ∧ e.block.hash = hash := by
  obtain ⟨e, e_mem, named, link⟩ := wired.sound s s_mem hash listed
  exact ⟨e, ⟨e_mem, link⟩, named⟩

/-- The induction hypothesis on the fuel: the recursive call deletes the branch it starts from. -/
def PrunesBranches (T : List (BlockExt Signature)) (fuel : ℕ) : Prop :=
  ∀ (tree : BlockTree Signature) (e : BlockExt Signature), e ∈ T → Ready T e tree →
    tree.blocks.length ≤ fuel →
    (BlockTree.pruneBranch fuel tree e).root = tree.root ∧
    (BlockTree.pruneBranch fuel tree e).blocks.Sublist tree.blocks ∧
    ∀ x ∈ tree.blocks, x ∈ (BlockTree.pruneBranch fuel tree e).blocks ↔ ¬TransGen (Under T) e x

/-- One turn of the loop, for a child the state still holds: it is unlinked, deleted, and its
branch pruned. -/
theorem pruneChild_of_mem {fuel : ℕ} (ih : PrunesBranches T fuel) {s : BlockExt Signature}
    (s_mem : s ∈ T) {cur : BlockTree Signature} (ready : Ready T s cur)
    (enough : cur.blocks.length ≤ fuel + 1) {e : BlockExt Signature} (link : Under T s e)
    (present : e ∈ cur.blocks) :
    (cur.pruneChild (BlockTree.pruneBranch fuel) s.block.number e.block.hash).root = cur.root ∧
    (cur.pruneChild (BlockTree.pruneBranch fuel) s.block.number e.block.hash).blocks.Sublist
      cur.blocks ∧
    Ready T s (cur.pruneChild (BlockTree.pruneBranch fuel) s.block.number e.block.hash) ∧
    ∀ x ∈ cur.blocks,
      x ∈ (cur.pruneChild (BlockTree.pruneBranch fuel) s.block.number e.block.hash).blocks ↔
        ¬ReflTransGen (Under T) e x := by
  have found : cur.findBlockExt e.block.hash (s.block.number + 1) = some e := by
    refine (BlockTree.findBlockExt_eq_some_iff ready.distinct).mpr ⟨present, ?_⟩
    simp only [BlockExt.key, link.2.1]
  have orphan : ∀ p ∈ cur.blocks, p.key ≠ (e.block.number - 1, e.block.parentHash) := by
    intro p member same
    apply ready.gone p member
    rw [same, link.2.1, link.2.2]
    rfl
  have unlinked : (cur.clearParent e).erase e.key = cur.erase e.key :=
    BlockTree.clearParent_erase (wired.pointed s s_mem e link.1 link.2) orphan
  have turn : cur.pruneChild (BlockTree.pruneBranch fuel) s.block.number e.block.hash =
      BlockTree.pruneBranch fuel (cur.erase e.key) e := by
    simp only [BlockTree.pruneChild, found, unlinked]
  have shorter : (cur.erase e.key).blocks.length ≤ fuel := by
    have : (cur.erase e.key).blocks.length < cur.blocks.length :=
      List.length_filter_lt_length_iff_exists.mpr ⟨e, present, by simp⟩
    omega
  obtain ⟨root_eq, sub, mem⟩ := ih _ e link.1 (ready.erase_child link) shorter
  rw [turn]
  have sub' := sub.trans (Keyed.erase_sublist _ _)
  have kept : ∀ x ∈ cur.blocks,
      x ∈ (BlockTree.pruneBranch fuel (cur.erase e.key) e).blocks ↔ ¬ReflTransGen (Under T) e x := by
    intro x member
    rw [reflTransGen_iff_eq_or_transGen]
    by_cases same : x = e
    · subst same
      have gone : x ∉ (cur.erase x.key).blocks := by simp
      exact iff_of_false (fun inside => gone (sub.subset inside)) (not_not.mpr (.inl rfl))
    · have stays : x ∈ (cur.erase e.key).blocks :=
        Keyed.mem_erase.mpr ⟨member, fun k => same (Keyed.eq_of_key_eq ready.distinct member present k)⟩
      rw [mem x stays]
      simp [same]
  refine ⟨root_eq, sub', ready.of_sublist sub' ?_, kept⟩
  intro y x below step missing member
  by_cases y_cur : y ∈ cur.blocks
  · have on_branch : ReflTransGen (Under T) e y :=
      not_not.mp fun off => missing ((kept y y_cur).mpr off)
    exact (kept x (sub'.subset member)).mp member (on_branch.tail step)
  · exact ready.closed y x below step y_cur (sub'.subset member)

omit wired in
theorem pruneChild_of_not_mem {prune : BlockTree Signature → BlockExt Signature → BlockTree Signature}
    {s : BlockExt Signature} {cur : BlockTree Signature} (ready : Ready T s cur)
    {e : BlockExt Signature} (link : Under T s e) (missing : e ∉ cur.blocks) :
    cur.pruneChild prune s.block.number e.block.hash = cur := by
  have absent : cur.findBlockExt e.block.hash (s.block.number + 1) = none := by
    refine BlockTree.findBlockExt_eq_none_iff.mpr fun x member same => missing ?_
    have key : e.key = x.key := by
      rw [same]
      simp only [BlockExt.key, link.2.1]
    rw [← ready.original x member e (TransGen.single link) key]
    exact member
  simp only [BlockTree.pruneChild, absent]

/-- The loop of `pruneBranch` over some children of `s` deletes their branches. -/
theorem foldl_pruneChild {fuel : ℕ} (ih : PrunesBranches T fuel) {s : BlockExt Signature}
    (s_mem : s ∈ T) :
    ∀ (hashes : List Hash), (∀ hash ∈ hashes, hash ∈ s.children) →
    ∀ (cur : BlockTree Signature), Ready T s cur → cur.blocks.length ≤ fuel + 1 →
      (hashes.foldl (BlockTree.pruneChild (BlockTree.pruneBranch fuel) s.block.number) cur).root =
          cur.root ∧
        (hashes.foldl (BlockTree.pruneChild (BlockTree.pruneBranch fuel) s.block.number)
            cur).blocks.Sublist cur.blocks ∧
        ∀ x ∈ cur.blocks,
          x ∈ (hashes.foldl (BlockTree.pruneChild (BlockTree.pruneBranch fuel) s.block.number)
            cur).blocks ↔ ¬InBranches T s hashes x
  | [], _, cur, _, _ => ⟨rfl, List.Sublist.refl _, fun _ member => iff_of_true member inBranches_nil⟩
  | hash :: hashes, listed, cur, ready, enough => by
      obtain ⟨e, link, rfl⟩ := child_of_hash wired s_mem (listed hash List.mem_cons_self)
      have rest := foldl_pruneChild ih s_mem hashes fun h member => listed h (List.mem_cons_of_mem _ member)
      rw [List.foldl_cons]
      by_cases present : e ∈ cur.blocks
      · obtain ⟨root₁, sub₁, ready₁, mem₁⟩ := pruneChild_of_mem wired ih s_mem ready enough link present
        obtain ⟨root₂, sub₂, mem₂⟩ := rest _ ready₁ (sub₁.length_le.trans enough)
        refine ⟨root₂.trans root₁, sub₂.trans sub₁, fun x member => ?_⟩
        rw [inBranches_cons wired link, not_or]
        by_cases inside : x ∈ (cur.pruneChild (BlockTree.pruneBranch fuel) s.block.number
            e.block.hash).blocks
        · rw [mem₂ x inside, ← mem₁ x member]
          exact ⟨fun off => ⟨inside, off⟩, fun both => both.2⟩
        · exact iff_of_false (fun out => inside (sub₂.subset out))
            fun both => inside ((mem₁ x member).mpr both.1)
      · rw [pruneChild_of_not_mem ready link present]
        obtain ⟨root₂, sub₂, mem₂⟩ := rest cur ready enough
        refine ⟨root₂, sub₂, fun x member => ?_⟩
        rw [mem₂ x member, inBranches_cons wired link, not_or]
        have off : ¬ReflTransGen (Under T) e x := fun path =>
          ready.not_mem_of_branch (TransGen.single link) present x path member
        exact ⟨fun later => ⟨off, later⟩, fun both => both.2⟩

theorem pruneBranch_spec : ∀ fuel, PrunesBranches T fuel
  | 0 => fun tree _ _ _ enough => by
      have empty : tree.blocks = [] := List.eq_nil_of_length_eq_zero (Nat.le_zero.mp enough)
      refine ⟨rfl, List.Sublist.refl _, fun x member => ?_⟩
      rw [empty] at member
      exact absurd member List.not_mem_nil
  | fuel + 1 => fun tree s s_mem ready enough => by
      obtain ⟨root, sub, mem⟩ :=
        foldl_pruneChild wired (pruneBranch_spec fuel) s_mem s.children (fun _ listed => listed)
          tree ready enough
      have absent : ∀ x ∈ (s.children.foldl (BlockTree.pruneChild (BlockTree.pruneBranch fuel)
          s.block.number) tree).blocks, x.key ≠ s.key :=
        fun x member => ready.gone x (sub.subset member)
      simp only [BlockTree.pruneBranch, BlockTree.clearChildren, BlockTree.update,
        Keyed.update_of_absent absent]
      exact ⟨root, sub, fun x member => (mem x member).trans (not_congr (inBranches_children_iff wired s_mem))⟩

end Branch

/-! ## The loop of `PruneBlock` -/

/-- The record `c` once `clearParent` has dropped its parent pointer. -/
def BlockExt.detach (c : BlockExt Signature) : BlockExt Signature :=
  { c with parent := none }

@[simp]
theorem BlockExt.detach_key (c : BlockExt Signature) : c.detach.key = c.key := rfl

@[simp]
theorem BlockExt.detach_block (c : BlockExt Signature) : c.detach.block = c.block := rfl

/-- The branches of the blocks beside `c`, at its height, whose hashes are in `done`. -/
def Cut (T : List (BlockExt Signature)) (c : BlockExt Signature) (done : List Hash)
    (x : BlockExt Signature) : Prop :=
  ∃ e ∈ T, e.block.number = c.block.number ∧ e.block.hash ∈ done ∧ e.block.hash ≠ c.block.hash ∧
    ReflTransGen (Under T) e x

theorem cut_of_child {T : List (BlockExt Signature)} (wired : Wired T) {c : BlockExt Signature}
    {done : List Hash} {p x : BlockExt Signature} (cut : Cut T c done x) (link : Under T p x)
    (p_mem : p ∈ T) (high : c.block.number ≤ p.block.number) : Cut T c done p := by
  obtain ⟨e, e_mem, level, hit, other, path⟩ := cut
  refine ⟨e, e_mem, level, hit, other, ?_⟩
  rcases reflTransGen_iff_eq_or_transGen.mp path with same | strict
  · have := link.number_lt
    rw [same] at this
    omega
  · obtain ⟨y, to_y, step⟩ := TransGen.tail'_iff.mp strict
    have : y = p := Keyed.eq_of_key_eq wired.distinct (mem_of_reflTransGen e_mem to_y) p_mem
      (step.2.key_eq.trans link.2.key_eq.symm)
    exact this ▸ to_y

theorem not_cut_self {T : List (BlockExt Signature)} {c : BlockExt Signature} {done : List Hash} :
    ¬Cut T c done c := by
  rintro ⟨e, -, level, -, other, path⟩
  have := Rooted.eq_of_reflTransGen_of_height (fun _ _ link => Under.number_lt link) path level.symm
  exact other (this ▸ rfl)

/-- `PruneBlock`'s loop, started on the records `T` with root `start`, has passed the hashes
`done` of the height of `c`: the branches beside `c` are deleted, and once the loop reached `c`, it
is the root and no longer points to its parent. -/
structure Pruning (T : List (BlockExt Signature)) (c : BlockExt Signature) (start : Option Block)
    (done : List Hash) (cur : BlockTree Signature) : Prop where
  root_eq : cur.root = if c.block.hash ∈ done then some c.block else start
  distinct : (cur.blocks.map BlockExt.key).Nodup
  mem_iff : ∀ x, x ∈ cur.blocks ↔
    (x ∈ T ∧ x.key ≠ c.key ∧ ¬Cut T c done x) ∨ x = if c.block.hash ∈ done then c.detach else c

section Loop

variable {T : List (BlockExt Signature)} {c : BlockExt Signature} (wired : Wired T) (c_mem : c ∈ T)
  (low : ∀ x ∈ T, c.block.number ≤ x.block.number)

omit wired c_mem low in
theorem number_eq_of_eq_kept {done : List Hash} {x : BlockExt Signature}
    (is_c : x = if c.block.hash ∈ done then c.detach else c) : x.block.number = c.block.number := by
  split at is_c <;> subst is_c <;> rfl

omit wired c_mem in
include low in
theorem Pruning.number_le {start : Option Block} {done : List Hash} {cur : BlockTree Signature}
    (pruning : Pruning T c start done cur) {x : BlockExt Signature} (member : x ∈ cur.blocks) :
    c.block.number ≤ x.block.number := by
  rcases (pruning.mem_iff x).mp member with ⟨x_mem, -, -⟩ | same
  · exact low x x_mem
  · exact (number_eq_of_eq_kept same).ge

omit wired c_mem low in
theorem eq_of_reflTransGen_level {e x : BlockExt Signature} (path : ReflTransGen (Under T) e x)
    (level : x.block.number = e.block.number) : e = x :=
  Rooted.eq_of_reflTransGen_of_height (fun _ _ link => Under.number_lt link) path level

omit c_mem low in
include wired in
theorem cut_append_iff {done : List Hash} {e : BlockExt Signature} (e_mem : e ∈ T)
    (level : e.block.number = c.block.number) (beside : e.block.hash ≠ c.block.hash)
    {x : BlockExt Signature} :
    Cut T c (done ++ [e.block.hash]) x ↔ Cut T c done x ∨ ReflTransGen (Under T) e x := by
  constructor
  · rintro ⟨e', e'_mem, level', hit, other, path⟩
    rcases List.mem_append.mp hit with earlier | now
    · exact .inl ⟨e', e'_mem, level', earlier, other, path⟩
    · have same : e' = e := Keyed.eq_of_key_eq wired.distinct e'_mem e_mem (by
        simp only [BlockExt.key, level', level, List.mem_singleton.mp now])
      exact .inr (same ▸ path)
  · rintro (⟨e', e'_mem, level', earlier, other, path⟩ | path)
    · exact ⟨e', e'_mem, level', List.mem_append_left _ earlier, other, path⟩
    · exact ⟨e, e_mem, level, List.mem_append_right _ (List.mem_singleton_self _), beside, path⟩

include wired c_mem low

/-- The loop's turn at a block beside `c`: it is unlinked, deleted, and its branch pruned. -/
theorem Pruning.pruneAt_beside (positive : 0 < c.block.number)
    (pointers : ∀ x ∈ T, x.block.number = c.block.number → x.parent = some x.block.parentHash)
    {start : Option Block} {done : List Hash} {cur : BlockTree Signature}
    (pruning : Pruning T c start done cur) {e : BlockExt Signature} (e_mem : e ∈ T)
    (level : e.block.number = c.block.number) (beside : e.block.hash ≠ c.block.hash)
    (fresh : e.block.hash ∉ done) :
    Pruning T c start (done ++ [e.block.hash])
      (BlockTree.pruneAt c.block.hash c.block.number cur e.block.hash) := by
  have e_key : e.key ≠ c.key := fun same => beside (congrArg Prod.snd same)
  have e_cur : e ∈ cur.blocks := by
    refine (pruning.mem_iff e).mpr (.inl ⟨e_mem, e_key, ?_⟩)
    rintro ⟨e', -, level', hit, -, path⟩
    have := eq_of_reflTransGen_level path (level.trans level'.symm)
    exact fresh (this ▸ hit)
  have found : cur.findBlockExt e.block.hash c.block.number = some e :=
    (BlockTree.findBlockExt_eq_some_iff pruning.distinct).mpr ⟨e_cur, by rw [← level]; rfl⟩
  have orphan : ∀ p ∈ cur.blocks, p.key ≠ (e.block.number - 1, e.block.parentHash) := by
    intro p member same
    have := pruning.number_le low member
    have : p.block.number = e.block.number - 1 := congrArg Prod.fst same
    omega
  have unlinked := BlockTree.clearParent_erase (pointers e e_mem level) orphan
  have turn : BlockTree.pruneAt c.block.hash c.block.number cur e.block.hash =
      BlockTree.pruneBranch (cur.erase e.key).blocks.length (cur.erase e.key) e := by
    simp only [BlockTree.pruneAt, found, ne_eq, beside, not_false_eq_true, if_true, unlinked]
  have above_c : ∀ y, TransGen (Under T) e y → c.block.number < y.block.number := fun y path =>
    level ▸ number_lt_of_transGen path
  have ready : Ready T e (cur.erase e.key) := by
    refine ⟨pruning.distinct.sublist ((Keyed.erase_sublist _ _).map _), ?_, ?_, ?_⟩
    · intro x member y path same
      have x_cur := (Keyed.mem_erase.mp member).1
      rcases (pruning.mem_iff x).mp x_cur with ⟨x_mem, -, -⟩ | is_c
      · exact Keyed.eq_of_key_eq wired.distinct x_mem (mem_of_transGen path) same.symm
      · have : y.block.number = x.block.number := congrArg Prod.fst same
        have := above_c y path
        have := number_eq_of_eq_kept is_c
        omega
    · exact fun x member => (Keyed.mem_erase.mp member).2
    · intro y x path step missing member
      have y_mem : y ∈ T := mem_of_transGen path
      have y_key : y.key ≠ c.key := fun same => by
        have := above_c y path
        have : y.block.number = c.block.number := congrArg Prod.fst same
        omega
      have y_out : y ∉ cur.blocks := fun present => missing (Keyed.mem_erase.mpr ⟨present, fun same => by
        have := number_lt_of_transGen path
        have : y.block.number = e.block.number := congrArg Prod.fst same
        omega⟩)
      have y_cut : Cut T c done y := by
        by_contra uncut
        refine y_out ((pruning.mem_iff y).mpr (.inl ⟨y_mem, y_key, uncut⟩))
      obtain ⟨e', e'_mem, level', hit, other, below⟩ := y_cut
      have x_cur := (Keyed.mem_erase.mp member).1
      have x_high : c.block.number < x.block.number := by
        have := above_c y path
        have := step.number_lt
        omega
      rcases (pruning.mem_iff x).mp x_cur with ⟨-, -, uncut⟩ | is_c
      · exact uncut ⟨e', e'_mem, level', hit, other, below.tail step⟩
      · have := number_eq_of_eq_kept is_c
        omega
  obtain ⟨root_eq, sub, mem⟩ := pruneBranch_spec wired _ _ e e_mem ready (Nat.le_refl _)
  rw [turn]
  have survives : ∀ x, x ∈ (BlockTree.pruneBranch (cur.erase e.key).blocks.length
      (cur.erase e.key) e).blocks ↔ x ∈ cur.blocks ∧ ¬ReflTransGen (Under T) e x := by
    intro x
    rw [reflTransGen_iff_eq_or_transGen]
    constructor
    · intro member
      have x_erased := sub.subset member
      have ⟨x_cur, x_key⟩ := Keyed.mem_erase.mp x_erased
      exact ⟨x_cur, fun off => off.elim (fun same => x_key (same ▸ rfl))
        fun path => (mem x x_erased).mp member path⟩
    · rintro ⟨x_cur, off⟩
      have x_erased : x ∈ (cur.erase e.key).blocks := Keyed.mem_erase.mpr ⟨x_cur, fun same =>
        off (.inl (Keyed.eq_of_key_eq pruning.distinct x_cur e_cur same))⟩
      exact (mem x x_erased).mpr fun path => off (.inr path)
  have c_off : ∀ x, x = (if c.block.hash ∈ done then c.detach else c) →
      ¬ReflTransGen (Under T) e x := by
    intro x is_c path
    have x_level : x.block.number = e.block.number := by
      split at is_c <;> subst is_c <;> simp [level]
    have := eq_of_reflTransGen_level path x_level
    apply e_key
    split at is_c <;> subst is_c <;> simp [this]
  refine ⟨?_, pruning.distinct.sublist ((sub.trans (Keyed.erase_sublist _ _)).map _), ?_⟩
  · rw [root_eq, BlockTree.erase_root, pruning.root_eq]
    simp [beside.symm]
  · intro x
    have fresh_c : (c.block.hash ∈ done ++ [e.block.hash]) ↔ c.block.hash ∈ done := by
      simp [Ne.symm beside]
    simp only [survives, pruning.mem_iff, cut_append_iff wired e_mem level beside, fresh_c]
    constructor
    · rintro ⟨⟨x_mem, x_key, uncut⟩ | is_c, off⟩
      · exact .inl ⟨x_mem, x_key, not_or.mpr ⟨uncut, off⟩⟩
      · exact .inr is_c
    · rintro (⟨x_mem, x_key, uncut⟩ | is_c)
      · exact ⟨.inl ⟨x_mem, x_key, (not_or.mp uncut).1⟩, (not_or.mp uncut).2⟩
      · exact ⟨.inr is_c, c_off x is_c⟩

omit wired in
/-- The loop's turn at `c`: it becomes the root, and no longer points to its parent. -/
theorem Pruning.pruneAt_self (positive : 0 < c.block.number)
    (pointers : ∀ x ∈ T, x.block.number = c.block.number → x.parent = some x.block.parentHash)
    {start : Option Block} {done : List Hash} {cur : BlockTree Signature}
    (pruning : Pruning T c start done cur) (fresh : c.block.hash ∉ done) :
    Pruning T c start (done ++ [c.block.hash])
      (BlockTree.pruneAt c.block.hash c.block.number cur c.block.hash) := by
  have c_cur : c ∈ cur.blocks := (pruning.mem_iff c).mpr (.inr (by simp [fresh]))
  have found : cur.findBlockExt c.block.hash c.block.number = some c :=
    (BlockTree.findBlockExt_eq_some_iff pruning.distinct).mpr ⟨c_cur, rfl⟩
  have orphan : ∀ p ∈ cur.blocks, p.key ≠ (c.block.number - 1, c.block.parentHash) := by
    intro p member same
    have := pruning.number_le low member
    have : p.block.number = c.block.number - 1 := congrArg Prod.fst same
    omega
  have turn : BlockTree.pruneAt c.block.hash c.block.number cur c.block.hash =
      ⟨some c.block, Keyed.update BlockExt.key cur.blocks c.key BlockExt.detach⟩ := by
    simp only [BlockTree.pruneAt, found, ne_eq, not_true_eq_false, if_false,
      BlockTree.clearParent, pointers c c_mem rfl, BlockTree.update, Keyed.update_of_absent orphan]
    rfl
  have same_cut : ∀ x, Cut T c (done ++ [c.block.hash]) x ↔ Cut T c done x := by
    intro x
    constructor
    · rintro ⟨e, e_mem, level, hit, other, path⟩
      refine ⟨e, e_mem, level, (List.mem_append.mp hit).resolve_right fun now => ?_, other, path⟩
      exact other (List.mem_singleton.mp now)
    · rintro ⟨e, e_mem, level, hit, other, path⟩
      exact ⟨e, e_mem, level, List.mem_append_left _ hit, other, path⟩
  rw [turn]
  refine ⟨by simp, ?_, fun x => ?_⟩
  · show (List.map BlockExt.key (Keyed.update BlockExt.key cur.blocks c.key BlockExt.detach)).Nodup
    rw [Keyed.map_key_update (f := BlockExt.detach) fun _ => rfl]
    exact pruning.distinct
  · simp only [Keyed.mem_update, same_cut, List.mem_append, List.mem_singleton, or_true, if_true]
    constructor
    · rintro (⟨b, b_mem, b_key, rfl⟩ | ⟨x_cur, x_key⟩)
      · rw [Keyed.eq_of_key_eq pruning.distinct b_mem c_cur b_key]
        exact .inr rfl
      · rcases (pruning.mem_iff x).mp x_cur with left | is_c
        · exact .inl left
        · simp only [fresh, if_false] at is_c
          exact absurd (congrArg BlockExt.key is_c) x_key
    · rintro (⟨x_mem, x_key, uncut⟩ | rfl)
      · exact .inr ⟨(pruning.mem_iff x).mpr (.inl ⟨x_mem, x_key, uncut⟩), x_key⟩
      · exact .inl ⟨c, c_cur, rfl, rfl⟩

omit low in
theorem pruning_start (start : Option Block) : Pruning T c start [] ⟨start, T⟩ where
  root_eq := by simp
  distinct := wired.distinct
  mem_iff x := by
    simp only [List.not_mem_nil, if_false]
    constructor
    · intro member
      by_cases same : x.key = c.key
      · exact .inr (Keyed.eq_of_key_eq wired.distinct member c_mem same)
      · exact .inl ⟨member, same, fun ⟨_, _, _, absent, _⟩ => List.not_mem_nil absent⟩
    · rintro (⟨member, -, -⟩ | rfl)
      · exact member
      · exact c_mem

/-- `PruneBlock`'s loop over hashes of the height of `c` not passed yet. -/
theorem Pruning.foldl_pruneAt (positive : 0 < c.block.number)
    (pointers : ∀ x ∈ T, x.block.number = c.block.number → x.parent = some x.block.parentHash)
    {start : Option Block} :
    ∀ (hashes : List Hash) {done : List Hash} {cur : BlockTree Signature}, hashes.Nodup →
      (∀ hash ∈ hashes, hash ∉ done) →
      (∀ hash ∈ hashes, ∃ e ∈ T, e.block.number = c.block.number ∧ e.block.hash = hash) →
      Pruning T c start done cur →
      Pruning T c start (done ++ hashes) (hashes.foldl (BlockTree.pruneAt c.block.hash c.block.number) cur)
  | [], _, _, _, _, _, pruning => by simpa using pruning
  | hash :: hashes, done, cur, nodup, fresh, named, pruning => by
      obtain ⟨e, e_mem, level, rfl⟩ := named _ List.mem_cons_self
      have next : Pruning T c start (done ++ [e.block.hash])
          (BlockTree.pruneAt c.block.hash c.block.number cur e.block.hash) := by
        by_cases self : e.block.hash = c.block.hash
        · rw [self] at fresh ⊢
          exact pruning.pruneAt_self c_mem low positive pointers (fresh _ List.mem_cons_self)
        · exact pruning.pruneAt_beside wired c_mem low positive pointers e_mem level self
            (fresh _ List.mem_cons_self)
      have rest := Pruning.foldl_pruneAt positive pointers hashes (List.nodup_cons.mp nodup).2
        (fun h member passed => by
          rcases List.mem_append.mp passed with earlier | now
          · exact fresh h (List.mem_cons_of_mem _ member) earlier
          · exact (List.nodup_cons.mp nodup).1 (List.mem_singleton.mp now ▸ member))
        (fun h member => named h (List.mem_cons_of_mem _ member)) next
      rw [List.foldl_cons]
      simpa using rest

end Loop

end Cbft
end Bubble
