import Mathlib

/-!
# Binary search for the first index a monotone test accepts

`sort.Search` of Go's library: over `[0, n)` a test that stays true once it holds, and the search
returns the least index where it holds, or `n`.  The loop keeps an interval `[i, j)` with the test
false below `i` and true at `j`, and halves it.  On a list whose elements pass a test from some
point on, the search splits the list into the prefix that fails the test and the rest.
-/

namespace Bubble
namespace Search

/-- The loop of `sort.Search` on `[i, j)`, allowed `fuel` rounds. -/
def loop (f : ℕ → Bool) : ℕ → ℕ → ℕ → ℕ
  | 0, i, _ => i
  | fuel + 1, i, j =>
    if i < j then
      let h := (i + j) / 2
      if !f h then loop f fuel (h + 1) j else loop f fuel i h
    else i

/-- `sort.Search n f`; each round shortens the interval, so `n` rounds finish it. -/
def search (n : ℕ) (f : ℕ → Bool) : ℕ :=
  loop f n 0 n

/-- Below `n`, the test keeps holding once it holds. -/
def MonotoneBelow (n : ℕ) (f : ℕ → Bool) : Prop :=
  ∀ a b, a ≤ b → b < n → f a = true → f b = true

/-- The loop's invariant: the test fails below `i` and holds at `j`, unless `j` is `n`. -/
structure Bracket (n : ℕ) (f : ℕ → Bool) (i j : ℕ) : Prop where
  le : i ≤ j
  le_n : j ≤ n
  below : ∀ k < i, f k = false
  at_upper : j < n → f j = true

section Bracket

variable {n : ℕ} {f : ℕ → Bool}

theorem bracket_start : Bracket n f 0 n :=
  ⟨Nat.zero_le n, Nat.le_refl n, fun _ h => absurd h (Nat.not_lt_zero _),
    fun h => absurd h (Nat.lt_irrefl n)⟩

theorem Bracket.raise (mono : MonotoneBelow n f) {i j : ℕ} (inv : Bracket n f i j) (lt : i < j)
    (fails : f ((i + j) / 2) = false) : Bracket n f ((i + j) / 2 + 1) j := by
  refine ⟨by omega, inv.le_n, fun k hk => ?_, inv.at_upper⟩
  by_cases low : k < i
  · exact inv.below k low
  · cases hfk : f k with
    | false => rfl
    | true =>
      have := mono k ((i + j) / 2) (by omega) (by have := inv.le_n; omega) hfk
      rw [fails] at this
      contradiction

theorem Bracket.lower {i j : ℕ} (inv : Bracket n f i j) (lt : i < j)
    (holds : f ((i + j) / 2) = true) : Bracket n f i ((i + j) / 2) :=
  ⟨by omega, by have := inv.le_n; omega, inv.below, fun _ => holds⟩

/-- With as many rounds as the interval is long, the loop closes the bracket at its answer. -/
theorem bracket_loop (mono : MonotoneBelow n f) (fuel i j : ℕ) (inv : Bracket n f i j)
    (enough : j - i ≤ fuel) : Bracket n f (loop f fuel i j) (loop f fuel i j) := by
  induction fuel generalizing i j with
  | zero =>
    have same : j = i := by have := inv.le; omega
    subst same
    exact inv
  | succ fuel ih =>
    by_cases lt : i < j
    · cases hmid : f ((i + j) / 2) with
      | false =>
        rw [loop, if_pos lt]
        simp only [hmid, Bool.not_false, if_true]
        exact ih _ _ (inv.raise mono lt hmid) (by omega)
      | true =>
        rw [loop, if_pos lt]
        simp only [hmid, Bool.not_true]
        exact ih _ _ (inv.lower lt hmid) (by omega)
    · have same : j = i := by have := inv.le; omega
      subst same
      rw [loop, if_neg lt]
      exact inv

theorem search_spec (mono : MonotoneBelow n f) :
    search n f ≤ n ∧ (∀ k < search n f, f k = false) ∧ (search n f < n → f (search n f) = true) :=
  have closed := bracket_loop mono n 0 n bracket_start (by omega)
  ⟨closed.le_n, closed.below, closed.at_upper⟩

end Bracket

/-! ## Searching a list -/

section List

variable {α : Type} (l : List α) (p : α → Bool)

/-- The test of `sort.Search` over a list: `p` of the element at the index. -/
def atIndex (i : ℕ) : Bool :=
  (l[i]?).any p

variable {l p}

theorem monotoneBelow_atIndex (mono : l.Pairwise fun a b => p a = true → p b = true) :
    MonotoneBelow l.length (atIndex l p) := by
  intro a b hab hb ha
  have hal : a < l.length := Nat.lt_of_le_of_lt hab hb
  simp only [atIndex, List.getElem?_eq_getElem hal, List.getElem?_eq_getElem hb,
    Option.any_some] at ha ⊢
  rcases Nat.lt_or_eq_of_le hab with lt | rfl
  · exact List.pairwise_iff_getElem.mp mono a b hal hb lt ha
  · exact ha

/-- Searching a list along which `p` stays true once it holds splits it into the elements before
the index, which fail `p`, and those from it on, which pass. -/
theorem search_list_spec (mono : l.Pairwise fun a b => p a = true → p b = true) :
    (∀ a ∈ l.take (search l.length (atIndex l p)), p a = false) ∧
      ∀ a ∈ l.drop (search l.length (atIndex l p)), p a = true := by
  obtain ⟨le, below, at_index⟩ := search_spec (monotoneBelow_atIndex mono)
  set r := search l.length (atIndex l p)
  constructor
  · intro a mem
    obtain ⟨k, hk, rfl⟩ := List.getElem_of_mem mem
    have hkr : k < r := by simp at hk; omega
    have := below k hkr
    simpa [atIndex, List.getElem?_eq_getElem (by simp at hk; omega : k < l.length)] using this
  · intro a mem
    obtain ⟨k, hk, rfl⟩ := List.getElem_of_mem mem
    have hkl : r + k < l.length := by simp at hk; omega
    have first := at_index (by omega)
    simp only [atIndex, List.getElem?_eq_getElem (Nat.lt_of_le_of_lt (Nat.le_add_right r k) hkl),
      Option.any_some] at first
    rw [List.getElem_drop]
    rcases Nat.eq_zero_or_pos k with rfl | pos
    · simpa using first
    · exact List.pairwise_iff_getElem.mp mono r (r + k) (by omega) hkl (by omega) first

theorem takeWhile_dropWhile_eq_filter (mono : l.Pairwise fun a b => p b = true → p a = true) :
    l.takeWhile p = l.filter p ∧ l.dropWhile p = l.filter fun a => !p a := by
  induction l with
  | nil => simp
  | cons a rest ih =>
    rw [List.pairwise_cons] at mono
    by_cases pass : p a = true
    · simp [pass, ih mono.2]
    · have fail : ∀ b ∈ rest, p b = false := fun b mem =>
        Bool.eq_false_iff.mpr fun passes => pass (mono.1 b mem passes)
      have none : rest.filter p = [] := List.filter_eq_nil_iff.mpr fun b mem => by simp [fail b mem]
      have all : (rest.filter fun b => !p b) = rest := List.filter_eq_self.mpr fun b mem => by
        simp [fail b mem]
      simp [pass, none, all]

theorem drop_countP_eq_filter (mono : l.Pairwise fun a b => p b = true → p a = true) :
    l.drop (l.countP p) = l.filter fun a => !p a := by
  obtain ⟨taken, dropped⟩ := takeWhile_dropWhile_eq_filter mono
  have split : l.takeWhile p ++ l.dropWhile p = l := List.takeWhile_append_dropWhile
  calc l.drop (l.countP p)
      = (l.takeWhile p ++ l.dropWhile p).drop (l.takeWhile p).length := by
        rw [split, taken, List.countP_eq_length_filter]
    _ = l.filter fun a => !p a := by rw [List.drop_left, dropped]

end List

end Search
end Bubble
