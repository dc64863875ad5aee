import Mathlib

/-!
# Trees by parent links

Nodes with a height and a child relation that goes one level up.  A set in which every node but
the root has a parent strictly lower is reached from the root; descendants are strictly higher
than their ancestors; and a property that every child of a descendant inherits holds on the whole
branch under a descendant that has it.  A tree stored as parent and child pointers is checked
through these facts: the pointers give the parents, and the heights give the induction.
-/

namespace Bubble
namespace Rooted

open Relation

variable {α : Type} {child : α → α → Prop}

theorem reflTransGen_of_parents (height : α → ℕ) {S : α → Prop} {root : α}
    (parent : ∀ x, S x → x ≠ root → ∃ p, S p ∧ height p < height x ∧ child p x) :
    ∀ x, S x → ReflTransGen child root x := by
  intro x
  -- strong induction on the height of `x`
  induction hx : height x using Nat.strong_induction_on generalizing x with
  | _ n ih =>
    intro member
    by_cases top : x = root
    · rw [top]
    · obtain ⟨p, p_mem, lower, link⟩ := parent x member top
      exact (ih (height p) (hx ▸ lower) p rfl p_mem).tail link

theorem height_lt_of_transGen {height : α → ℕ} (grows : ∀ p x, child p x → height p < height x) {a b : α}
    (path : TransGen child a b) : height a < height b := by
  induction path with
  | single link => exact grows _ _ link
  | tail _ link ih => exact Nat.lt_trans ih (grows _ _ link)

theorem eq_of_reflTransGen_of_height {height : α → ℕ} (grows : ∀ p x, child p x → height p < height x) {a b : α}
    (path : ReflTransGen child a b) (level : height b = height a) : a = b := by
  rcases reflTransGen_iff_eq_or_transGen.mp path with same | strict
  · exact same.symm
  · have := height_lt_of_transGen grows strict
    omega

theorem of_reflTransGen {P : α → Prop} {s e : α}
    (inherit : ∀ y x, TransGen child s y → child y x → P y → P x)
    (below : TransGen child s e) (start : P e) : ∀ x, ReflTransGen child e x → P x := by
  intro x path
  induction path with
  | refl => exact start
  | tail path link ih => exact inherit _ _ (below.trans_left path) link ih

end Rooted
end Bubble
