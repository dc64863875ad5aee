import Mathlib

/-!
# Comparisons by sign

A comparison in the style of Go's sort comparators returns an integer: positive when its left
argument ranks higher, negative when it ranks lower, zero on a tie.  It ranks by a total preorder
when swapping its arguments negates it and ranking at least as high is transitive
(`TotalPreorder`).  Such comparisons are written a layer at a time: a field compared one way or
the other, the next layer breaking ties (`byField`), or a flag that ranks the flagged entries
above the others, each side then ranked its own way (`byFlag`).  Every layer keeps the laws, so a
comparison assembled from them ranks by a total preorder.
-/

namespace Bubble
namespace Compare

variable {α β : Type}

/-- A comparison ranking by a total preorder. -/
structure TotalPreorder (cmp : α → α → ℤ) : Prop where
  /-- Swapping the arguments negates the comparison. -/
  antisymm : ∀ a b, cmp b a = -cmp a b
  /-- Ranking at least as high is transitive. -/
  trans : ∀ a b c, 0 ≤ cmp a b → 0 ≤ cmp b c → 0 ≤ cmp a c

namespace TotalPreorder

variable {cmp : α → α → ℤ} (total : TotalPreorder cmp)
include total

theorem nonneg_of_neg {a b : α} (lower : cmp a b < 0) : 0 ≤ cmp b a := by
  rw [total.antisymm]
  omega

theorem pairwise_of_isChain {l : List α} (chain : l.IsChain fun a b => 0 ≤ cmp a b) :
    l.Pairwise fun a b => 0 ≤ cmp a b := by
  induction l with
  | nil => exact .nil
  | cons a rest ih =>
    have tail := ih chain.tail
    refine List.pairwise_cons.mpr ⟨fun b mem => ?_, tail⟩
    cases rest with
    | nil => simp at mem
    | cons next rest =>
      have first : 0 ≤ cmp a next := (List.isChain_cons_cons.mp chain).1
      rcases List.mem_cons.mp mem with rfl | later
      · exact first
      · exact total.trans a next b first (List.rel_of_pairwise_cons tail later)

end TotalPreorder

theorem totalPreorder_zero : TotalPreorder fun (_ _ : α) => (0 : ℤ) :=
  ⟨fun _ _ => by simp, fun _ _ _ _ _ => le_refl 0⟩

/-! ## By a field -/

section Field

variable [LinearOrder β]

/-- Ranks by a field: `greater` when the left field is the larger, its negation when it is the
smaller, and `next` on a tie. -/
def byField (field : α → β) (greater : ℤ) (next : α → α → ℤ) (l r : α) : ℤ :=
  if field r < field l then greater else if field l < field r then -greater else next l r

theorem byField_neg (field : α → β) (next : α → α → ℤ) :
    byField field (-1) next = byField (fun a => OrderDual.toDual (field a)) 1 next := by
  funext l r
  simp only [byField, OrderDual.toDual_lt_toDual]
  rcases lt_trichotomy (field l) (field r) with lt | eq | gt
  · simp [lt, not_lt_of_gt lt]
  · simp [eq]
  · simp [gt, not_lt_of_gt gt]

theorem byField_nonneg_iff {field : α → β} {next : α → α → ℤ} {l r : α} :
    0 ≤ byField field 1 next l r ↔ field r < field l ∨ field l = field r ∧ 0 ≤ next l r := by
  unfold byField
  rcases lt_trichotomy (field l) (field r) with lt | eq | gt
  · simp [lt, not_lt_of_gt lt, ne_of_lt lt]
  · simp [eq]
  · simp [gt]

theorem byField_one {field : α → β} {next : α → α → ℤ} (tie : TotalPreorder next) :
    TotalPreorder (byField field 1 next) where
  antisymm a b := by
    unfold byField
    rcases lt_trichotomy (field a) (field b) with lt | eq | gt
    · simp [lt, not_lt_of_gt lt]
    · simp [eq, tie.antisymm a b]
    · simp [gt, not_lt_of_gt gt]
  trans a b c ab bc := by
    rw [byField_nonneg_iff] at ab bc ⊢
    rcases ab with ab | ⟨ab, ab_tie⟩ <;> rcases bc with bc | ⟨bc, bc_tie⟩
    · exact .inl (bc.trans ab)
    · exact .inl (bc ▸ ab)
    · exact .inl (ab ▸ bc)
    · exact .inr ⟨ab.trans bc, tie.trans a b c ab_tie bc_tie⟩

theorem byField_totalPreorder {field : α → β} {greater : ℤ} {next : α → α → ℤ}
    (unit : greater = 1 ∨ greater = -1) (tie : TotalPreorder next) :
    TotalPreorder (byField field greater next) := by
  rcases unit with rfl | rfl
  · exact byField_one tie
  · rw [byField_neg]
    exact byField_one tie

end Field

/-! ## By a flag -/

/-- Ranks the entries with the flag above those without; two flagged entries are ranked by
`both`, two others by `neither`. -/
def byFlag (flag : α → Bool) (both neither : α → α → ℤ) (l r : α) : ℤ :=
  if flag l && !flag r then 1
  else if !flag l && flag r then -1
  else if flag l then both l r
  else neither l r

theorem byFlag_totalPreorder {flag : α → Bool} {both neither : α → α → ℤ}
    (flagged : TotalPreorder both) (others : TotalPreorder neither) :
    TotalPreorder (byFlag flag both neither) where
  antisymm a b := by
    cases fa : flag a <;> cases fb : flag b <;>
      simp [byFlag, fa, fb, flagged.antisymm a b, others.antisymm a b]
  trans a b c ab bc := by
    cases fa : flag a <;> cases fb : flag b <;> cases fc : flag c <;>
      simp only [byFlag, fa, fb, fc, Bool.not_true, Bool.not_false, Bool.and_true, Bool.and_false,
        Bool.and_self, if_true, if_false, Bool.false_eq_true] at ab bc ⊢ <;>
      first
        | omega
        | exact flagged.trans a b c ab bc
        | exact others.trans a b c ab bc

end Compare
end Bubble
