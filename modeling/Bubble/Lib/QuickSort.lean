import Mathlib

/-!
# Quicksort in place

A hand-written quicksort on an index range of an array.  `partition` keeps the pivot at one end of
the interval `[left, right]` it narrows: it scans from the far end for an entry on the wrong side
of the pivot and swaps the two, so the pivot moves to the other end, and scans back.  Both scans
keep an entry in place when it ranks at least as high as the pivot, so ties may go either way.
`quickSort` then sorts the two sides of the pivot.

The order sorted into is descending: each entry ranks at least as high as the next.  That needs
only that an entry ranking below another makes that one rank at least as high (`weak`), not
transitivity.  Entries move only by swaps inside the range being sorted (`Reorders`), so the array
stays a permutation of its input, and what stands in a range after sorting it came from that
range.
-/

namespace Bubble
namespace QuickSort

variable {α : Type}

/-! ## Reordering a range -/

/-- `b` is `a` with only the entries from `lo` to `hi` moved among themselves. -/
structure Reorders (lo hi : ℕ) (a b : Array α) : Prop where
  perm : b.Perm a
  moves : ∃ σ : Equiv.Perm ℕ, (∀ i, (i < lo ∨ hi < i) → σ i = i) ∧ ∀ i, b[i]? = a[σ i]?

namespace Reorders

variable {lo hi : ℕ} {a b c : Array α}

theorem refl (lo hi : ℕ) (a : Array α) : Reorders lo hi a a :=
  ⟨.refl a, 1, fun _ _ => rfl, fun _ => rfl⟩

theorem trans (first : Reorders lo hi a b) (second : Reorders lo hi b c) : Reorders lo hi a c := by
  obtain ⟨σ, σ_fixes, σ_moves⟩ := first.moves
  obtain ⟨τ, τ_fixes, τ_moves⟩ := second.moves
  refine ⟨second.perm.trans first.perm, τ.trans σ, fun i out => ?_, fun i => ?_⟩
  · rw [Equiv.trans_apply, τ_fixes i out, σ_fixes i out]
  · rw [τ_moves, σ_moves, Equiv.trans_apply]

theorem widen {lo' hi' : ℕ} (lower : lo ≤ lo') (upper : hi' ≤ hi) (inner : Reorders lo' hi' a b) :
    Reorders lo hi a b := by
  obtain ⟨σ, fixes, moves⟩ := inner.moves
  exact ⟨inner.perm, σ, fun i out => fixes i (by omega), moves⟩

theorem size_eq (moved : Reorders lo hi a b) : b.size = a.size :=
  moved.perm.size_eq

theorem getElem?_outside (moved : Reorders lo hi a b) {i : ℕ} (out : i < lo ∨ hi < i) :
    b[i]? = a[i]? := by
  obtain ⟨σ, fixes, moves⟩ := moved.moves
  rw [moves, fixes i out]

theorem exists_inside (moved : Reorders lo hi a b) {i : ℕ} (low : lo ≤ i) (high : i ≤ hi) :
    ∃ j, lo ≤ j ∧ j ≤ hi ∧ b[i]? = a[j]? := by
  obtain ⟨σ, fixes, moves⟩ := moved.moves
  have inside : ¬(σ i < lo ∨ hi < σ i) := fun out => by
    have := σ.injective (fixes (σ i) out)
    omega
  exact ⟨σ i, by omega, by omega, moves i⟩

theorem swap {i j : ℕ} (i_lo : lo ≤ i) (i_hi : i ≤ hi) (j_lo : lo ≤ j) (j_hi : j ≤ hi)
    (i_lt : i < a.size) (j_lt : j < a.size) : Reorders lo hi a (a.swapIfInBounds i j) := by
  rw [Array.swapIfInBounds_def, dif_pos i_lt, dif_pos j_lt]
  refine ⟨Array.swap_perm i_lt j_lt, Equiv.swap i j,
    fun k out => Equiv.swap_apply_of_ne_of_ne (by omega) (by omega), fun k => ?_⟩
  rw [Array.getElem?_swap, Equiv.swap_apply_def]
  by_cases at_j : j = k
  · subst at_j
    by_cases at_i : j = i
    · subst at_i
      simp [Array.getElem?_eq_getElem i_lt]
    · simp [at_i, Array.getElem?_eq_getElem i_lt]
  · by_cases at_i : i = k
    · subst at_i
      simp [at_j, Array.getElem?_eq_getElem j_lt]
    · simp [at_j, at_i, Ne.symm at_j, Ne.symm at_i]

end Reorders

/-! ## Reading entries -/

section Read

variable [Inhabited α]

theorem getElem!_congr {a b : Array α} {i j : ℕ} (same : b[i]? = a[j]?) : b[i]! = a[j]! := by
  rw [getElem!_def, getElem!_def, same]

theorem Reorders.getElem!_outside {lo hi : ℕ} {a b : Array α} (moved : Reorders lo hi a b)
    {i : ℕ} (out : i < lo ∨ hi < i) : b[i]! = a[i]! :=
  getElem!_congr (moved.getElem?_outside out)

theorem getElem!_swap_left {a : Array α} {i j : ℕ} (i_lt : i < a.size) (j_lt : j < a.size) :
    (a.swapIfInBounds i j)[i]! = a[j]! := by
  rw [getElem!_pos _ i (by simpa using i_lt), getElem!_pos _ j j_lt,
    Array.getElem_swapIfInBounds_left j_lt]

theorem getElem!_swap_right {a : Array α} {i j : ℕ} (i_lt : i < a.size) (j_lt : j < a.size) :
    (a.swapIfInBounds i j)[j]! = a[i]! := by
  rw [getElem!_pos _ j (by simpa using j_lt), getElem!_pos _ i i_lt,
    Array.getElem_swapIfInBounds_right i_lt]

theorem getElem!_swap_of_ne {a : Array α} {i j k : ℕ} (not_i : k ≠ i) (not_j : k ≠ j) :
    (a.swapIfInBounds i j)[k]! = a[k]! := by
  by_cases k_lt : k < a.size
  · rw [getElem!_pos _ k (by simpa using k_lt), getElem!_pos _ k k_lt,
      Array.getElem_swapIfInBounds_of_ne_of_ne not_i not_j]
  · rw [getElem!_neg _ k (by simpa using k_lt), getElem!_neg _ k k_lt]

end Read

/-! ## The loops -/

variable [Inhabited α] (cmp : α → α → ℤ)

/-- The first inner loop of `partition`: `right` moves down while the entry at `left` ranks at
least as high as the one at `right`. -/
def scanRight (arr : Array α) (left : ℕ) : ℕ → ℕ
  | 0 => 0
  | right + 1 =>
    if left < right + 1 ∧ 0 ≤ cmp arr[left]! arr[right + 1]! then scanRight arr left right
    else right + 1

/-- The second inner loop of `partition`: `left` moves up while the entry at `left` ranks at
least as high as the one at `right`.  `fuel` is `right - left`, the most steps the loop takes. -/
def scanLeft (arr : Array α) (right : ℕ) : (fuel left : ℕ) → ℕ
  | 0, left => left
  | fuel + 1, left =>
    if left < right ∧ 0 ≤ cmp arr[left]! arr[right]! then scanLeft arr right fuel (left + 1)
    else left

/-- The first half of a pass of `partition`'s outer loop: the scan from the right, and a swap that
moves the pivot from `left` to `right`. -/
def moveRight (arr : Array α) (left right : ℕ) : Array α × ℕ × ℕ :=
  let right := scanRight cmp arr left right
  if left < right then (arr.swapIfInBounds left right, left + 1, right) else (arr, left, right)

/-- The second half: the scan from the left, and a swap that moves the pivot back to `left`. -/
def moveLeft (arr : Array α) (left right : ℕ) : Array α × ℕ × ℕ :=
  let left := scanLeft cmp arr right (right - left) left
  if left < right then (arr.swapIfInBounds left right, left, right - 1) else (arr, left, right)

/-- One pass of the outer loop of `partition`. -/
def partitionRound (arr : Array α) (left right : ℕ) : Array α × ℕ × ℕ :=
  let (arr, left, right) := moveRight cmp arr left right
  moveLeft cmp arr left right

/-- The outer loop of `partition`, run while `left < right`; each pass that goes on brings them
closer, so `fuel` at least `right - left` runs it to the end. -/
def partitionLoop : (fuel : ℕ) → Array α → ℕ → ℕ → Array α × ℕ
  | 0, arr, left, _ => (arr, left)
  | fuel + 1, arr, left, right =>
    if left < right then
      let (arr, left, right) := partitionRound cmp arr left right
      partitionLoop fuel arr left right
    else (arr, left)

/-- `partition`: the pivot, first at `left`, ends at the index returned, with what ranks at least
as high before it and the rest after it. -/
def partition (arr : Array α) (left right : ℕ) : Array α × ℕ :=
  partitionLoop cmp (right - left) arr left right

/-- `quickSort`: the range from `left` to `right` sorted in place.  The indices are natural
numbers: where the source calls itself on `pivot - 1 = -1`, here on `0`, which is as empty a
range, since `left = 0` there.  `fuel` at least the length of the range runs it to the end. -/
def quickSort : (fuel : ℕ) → Array α → ℕ → ℕ → Array α
  | 0, arr, _, _ => arr
  | fuel + 1, arr, left, right =>
    if left < right then
      let (arr, pivot) := partition cmp arr left right
      let arr := quickSort fuel arr left (pivot - 1)
      quickSort fuel arr (pivot + 1) right
    else arr

/-! ## The scans -/

/-- `scanRight` stops at `left`, or at the first entry from the right that ranks above the one at
`left`; every entry it passes ranks at most as high. -/
theorem scanRight_spec (arr : Array α) (left : ℕ) {right r : ℕ} (le : left ≤ right)
    (scan : scanRight cmp arr left right = r) :
    left ≤ r ∧ r ≤ right ∧ (∀ i, r < i → i ≤ right → 0 ≤ cmp arr[left]! arr[i]!) ∧
      (left < r → cmp arr[left]! arr[r]! < 0) := by
  induction right generalizing r with
  | zero =>
    rw [scanRight] at scan
    exact ⟨by omega, by omega, fun i _ _ => by omega, fun _ => by omega⟩
  | succ right ih =>
    rw [scanRight] at scan
    split at scan
    case isTrue passes =>
      obtain ⟨le_r, r_le, passed, stop⟩ := ih (by omega) scan
      refine ⟨le_r, by omega, fun i r_i i_le => ?_, stop⟩
      rcases Nat.lt_or_eq_of_le i_le with lt | rfl
      · exact passed i r_i (by omega)
      · exact passes.2
    case isFalse stops =>
      subst scan
      exact ⟨le, le_rfl, fun i _ _ => by omega, fun lt => by omega⟩

theorem scanLeft_spec (arr : Array α) (right : ℕ) {fuel left l : ℕ} (le : left ≤ right)
    (enough : right - left ≤ fuel) (scan : scanLeft cmp arr right fuel left = l) :
    left ≤ l ∧ l ≤ right ∧ (∀ i, left ≤ i → i < l → 0 ≤ cmp arr[i]! arr[right]!) ∧
      (l < right → cmp arr[l]! arr[right]! < 0) := by
  induction fuel generalizing left with
  | zero =>
    rw [scanLeft] at scan
    exact ⟨by omega, by omega, fun i _ _ => by omega, fun _ => by omega⟩
  | succ fuel ih =>
    rw [scanLeft] at scan
    split at scan
    case isTrue passes =>
      obtain ⟨le_l, l_le, passed, stop⟩ := ih (by omega) (by omega) scan
      refine ⟨by omega, l_le, fun i left_i i_l => ?_, stop⟩
      rcases Nat.lt_or_eq_of_le left_i with lt | rfl
      · exact passed i lt i_l
      · exact passes.2
    case isFalse stops =>
      subst scan
      exact ⟨le_rfl, le, fun i _ _ => by omega, fun lt => by omega⟩

/-! ## The partition invariant -/

/-- What holds between the passes of `partition` on the range from `lo` to `hi` of `arr₀`, whose
pivot `p` stands at `left` or at `right`: the entries before `left` rank at least as high as the
pivot, and those after `right` at most as high. -/
structure Split (lo hi : ℕ) (p : α) (arr₀ arr : Array α) (left right : ℕ) : Prop where
  reorders : Reorders lo hi arr₀ arr
  lo_le : lo ≤ left
  le_right : left ≤ right
  right_le : right ≤ hi
  hi_lt : hi < arr.size
  below : ∀ i, lo ≤ i → i < left → 0 ≤ cmp arr[i]! p
  above : ∀ i, right < i → i ≤ hi → 0 ≤ cmp p arr[i]!

section Partition

variable {cmp} (weak : ∀ a b, cmp a b < 0 → 0 ≤ cmp b a)
variable {lo hi : ℕ} {p : α} {arr₀ arr arr' : Array α} {left right left' right' : ℕ}
include weak

theorem Split.moveRight (split : Split cmp lo hi p arr₀ arr left right) (pivot : arr[left]! = p)
    (lt : left < right) (step : moveRight cmp arr left right = (arr', left', right')) :
    Split cmp lo hi p arr₀ arr' left' right' ∧ arr'[right']! = p ∧ right' - left' < right - left := by
  dsimp only [QuickSort.moveRight] at step
  generalize scan : scanRight cmp arr left right = r at step
  obtain ⟨le_r, r_le, passed, stop⟩ := scanRight_spec cmp arr left split.le_right scan
  have size := split.hi_lt
  have lo_left := split.lo_le
  have right_hi := split.right_le
  have above : ∀ i, r < i → i ≤ hi → 0 ≤ cmp p arr[i]! := fun i r_i i_hi => by
    by_cases passes : i ≤ right
    · exact pivot ▸ passed i r_i passes
    · exact split.above i (by omega) i_hi
  split at step <;> simp only [Prod.mk.injEq] at step <;> obtain ⟨rfl, rfl, rfl⟩ := step
  case isTrue swapped =>
    have left_lt : left < arr.size := by omega
    have r_lt : r < arr.size := by omega
    refine ⟨⟨split.reorders.trans (.swap (by omega) (by omega)
        (by omega) (by omega) left_lt r_lt), by omega,
        by omega, by omega, by simpa using size, fun i lo_i i_lt => ?_,
        fun i r_i i_hi => ?_⟩, ?_, by omega⟩
    · rcases Nat.lt_or_eq_of_le (Nat.le_of_lt_succ i_lt) with before | rfl
      · rw [getElem!_swap_of_ne (by omega) (by omega)]
        exact split.below i lo_i before
      · rw [getElem!_swap_left left_lt r_lt, ← pivot]
        exact weak _ _ (stop swapped)
    · rw [getElem!_swap_of_ne (by omega) (by omega)]
      exact above i r_i i_hi
    · rw [getElem!_swap_right left_lt r_lt, pivot]
  case isFalse stays =>
    have at_left : r = left := by omega
    subst at_left
    exact ⟨⟨split.reorders, split.lo_le, le_rfl, by omega, size, split.below, above⟩, pivot,
      by omega⟩

theorem Split.moveLeft (split : Split cmp lo hi p arr₀ arr left right) (pivot : arr[right]! = p)
    (step : moveLeft cmp arr left right = (arr', left', right')) :
    Split cmp lo hi p arr₀ arr' left' right' ∧ arr'[left']! = p ∧ right' - left' ≤ right - left := by
  dsimp only [QuickSort.moveLeft] at step
  generalize scan : scanLeft cmp arr right (right - left) left = l at step
  obtain ⟨le_l, l_le, passed, stop⟩ := scanLeft_spec cmp arr right split.le_right le_rfl scan
  have size := split.hi_lt
  have lo_left := split.lo_le
  have right_hi := split.right_le
  have lo_l : lo ≤ l := by omega
  have below : ∀ i, lo ≤ i → i < l → 0 ≤ cmp arr[i]! p := fun i lo_i i_l => by
    by_cases passes : left ≤ i
    · exact pivot ▸ passed i passes i_l
    · exact split.below i lo_i (by omega)
  split at step <;> simp only [Prod.mk.injEq] at step <;> obtain ⟨rfl, rfl, rfl⟩ := step
  case isTrue swapped =>
    have l_lt : l < arr.size := by omega
    have right_lt : right < arr.size := by omega
    refine ⟨⟨split.reorders.trans (.swap lo_l (by omega)
        (by omega) split.right_le l_lt right_lt), lo_l, by omega,
        by omega, by simpa using size, fun i lo_i i_lt => ?_,
        fun i r_i i_hi => ?_⟩, ?_, by omega⟩
    · rw [getElem!_swap_of_ne (by omega) (by omega)]
      exact below i lo_i i_lt
    · rcases Nat.lt_or_eq_of_le (show right ≤ i by omega) with after | rfl
      · rw [getElem!_swap_of_ne (by omega) (by omega)]
        exact split.above i after i_hi
      · rw [getElem!_swap_right l_lt right_lt, ← pivot]
        exact weak _ _ (stop swapped)
    · rw [getElem!_swap_left l_lt right_lt, pivot]
  case isFalse stays =>
    have at_right : l = right := by omega
    subst at_right
    exact ⟨⟨split.reorders, lo_l, le_rfl, split.right_le, size, below, split.above⟩, pivot,
      by omega⟩

theorem Split.partitionRound (split : Split cmp lo hi p arr₀ arr left right)
    (pivot : arr[left]! = p) (lt : left < right)
    (step : partitionRound cmp arr left right = (arr', left', right')) :
    Split cmp lo hi p arr₀ arr' left' right' ∧ arr'[left']! = p ∧ right' - left' < right - left := by
  unfold QuickSort.partitionRound at step
  generalize half : QuickSort.moveRight cmp arr left right = mid at step
  obtain ⟨arr₁, left₁, right₁⟩ := mid
  obtain ⟨split₁, pivot₁, closer⟩ := split.moveRight weak pivot lt half
  obtain ⟨split₂, pivot₂, closer₂⟩ := split₁.moveLeft weak pivot₁ step
  exact ⟨split₂, pivot₂, by omega⟩

/-- The outer loop ends with the pivot where `left` and `right` meet. -/
theorem Split.partitionLoop {k : ℕ} : ∀ {fuel : ℕ} {arr : Array α} {left right : ℕ},
    Split cmp lo hi p arr₀ arr left right → arr[left]! = p → right - left ≤ fuel →
      partitionLoop cmp fuel arr left right = (arr', k) →
      Split cmp lo hi p arr₀ arr' k k ∧ arr'[k]! = p := by
  intro fuel
  induction fuel with
  | zero =>
    intro arr left right split pivot enough step
    simp only [QuickSort.partitionLoop, Prod.mk.injEq] at step
    obtain ⟨rfl, rfl⟩ := step
    have meet : right = left := by have := split.le_right; omega
    exact ⟨meet ▸ split, pivot⟩
  | succ fuel ih =>
    intro arr left right split pivot enough step
    rw [QuickSort.partitionLoop] at step
    split at step
    case isTrue lt =>
      generalize pass : QuickSort.partitionRound cmp arr left right = next at step
      obtain ⟨arr₁, left₁, right₁⟩ := next
      obtain ⟨split₁, pivot₁, closer⟩ := split.partitionRound weak pivot lt pass
      exact ih split₁ pivot₁ (by omega) step
    case isFalse done =>
      simp only [Prod.mk.injEq] at step
      obtain ⟨rfl, rfl⟩ := step
      have meet : right = left := by have := split.le_right; omega
      exact ⟨meet ▸ split, pivot⟩

theorem partition_spec {arr arr' : Array α} {lo hi k : ℕ} (le : lo ≤ hi) (hi_lt : hi < arr.size)
    (step : partition cmp arr lo hi = (arr', k)) :
    Split cmp lo hi arr[lo]! arr arr' k k ∧ arr'[k]! = arr[lo]! :=
  have start : Split cmp lo hi arr[lo]! arr arr lo hi :=
    ⟨.refl lo hi arr, le_rfl, le, le_rfl, hi_lt, fun _ _ _ => by omega, fun _ _ _ => by omega⟩
  start.partitionLoop weak rfl le_rfl step

end Partition

/-! ## Sorting -/

/-- Each entry from `lo` to `hi` ranks at least as high as the next. -/
def SortedOn (lo hi : ℕ) (arr : Array α) : Prop :=
  ∀ i, lo ≤ i → i < hi → 0 ≤ cmp arr[i]! arr[i + 1]!

theorem quickSort_of_le {fuel left right : ℕ} (arr : Array α) (le : right ≤ left) :
    quickSort cmp fuel arr left right = arr := by
  cases fuel with
  | zero => rfl
  | succ fuel => rw [quickSort, if_neg (by omega)]

section Sorting

variable {cmp} (weak : ∀ a b, cmp a b < 0 → 0 ≤ cmp b a)
include weak

/-- With fuel beyond the length of the range, `quickSort` sorts it, moving entries only inside
it.  The two sides of the pivot are sorted by induction; at the pivot they are joined by the
partition, since the entries sorted on each side came from that side. -/
theorem quickSort_spec : ∀ {fuel : ℕ} {arr : Array α} {left right : ℕ}, right - left < fuel →
    right < arr.size →
      Reorders left right arr (quickSort cmp fuel arr left right) ∧
        SortedOn cmp left right (quickSort cmp fuel arr left right) := by
  intro fuel
  induction fuel with
  | zero => intro arr left right bound; omega
  | succ fuel ih =>
    intro arr left right bound size
    by_cases lt : left < right
    case neg =>
      rw [quickSort_of_le cmp arr (by omega)]
      exact ⟨.refl left right arr, fun i _ _ => by omega⟩
    case pos =>
      rw [quickSort, if_pos lt]
      generalize part : partition cmp arr left right = parted
      obtain ⟨arr₁, k⟩ := parted
      obtain ⟨split, pivot⟩ := partition_spec weak lt.le size part
      have size₁ := split.hi_lt
      have left_k := split.lo_le
      have k_right := split.right_le
      obtain ⟨moved₂, sorted₂⟩ := @ih arr₁ left (k - 1) (by omega) (by omega)
      have keep_k : (quickSort cmp fuel arr₁ left (k - 1))[k]! = arr₁[k]! := by
        by_cases empty : k ≤ left
        · rw [quickSort_of_le cmp arr₁ (by omega)]
        · exact moved₂.getElem!_outside (.inr (by omega))
      generalize first : quickSort cmp fuel arr₁ left (k - 1) = arr₂ at keep_k moved₂ sorted₂
      obtain ⟨moved₃, sorted₃⟩ := @ih arr₂ (k + 1) right (by omega) (by rw [moved₂.size_eq]; omega)
      dsimp only
      rw [first]
      generalize quickSort cmp fuel arr₂ (k + 1) right = arr₃ at moved₃ sorted₃
      refine ⟨split.reorders.trans ((moved₂.widen le_rfl (by omega)).trans
        (moved₃.widen (by omega) le_rfl)), fun i left_i i_lt => ?_⟩
      have at_k : arr₃[k]! = arr[left]! := by
        rw [moved₃.getElem!_outside (.inl (by omega)), keep_k, pivot]
      rcases lt_trichotomy (i + 1) k with before | rfl | after
      · rw [moved₃.getElem!_outside (.inl (by omega)), moved₃.getElem!_outside (.inl (by omega))]
        exact sorted₂ i left_i (by omega)
      · obtain ⟨j, left_j, j_k, same⟩ := moved₂.exists_inside left_i (by omega)
        rw [at_k, moved₃.getElem!_outside (.inl (by omega)), getElem!_congr same]
        exact split.below j left_j (by omega)
      · rcases Nat.lt_or_eq_of_le (Nat.le_of_lt_succ after) with beyond | rfl
        · exact sorted₃ i (by omega) i_lt
        · obtain ⟨j, k_j, j_right, same⟩ := moved₃.exists_inside le_rfl (by omega)
          rw [at_k, getElem!_congr same, moved₂.getElem!_outside (.inr (by omega))]
          exact split.above j (by omega) j_right

theorem quickSort_sorted (arr : Array α) :
    (quickSort cmp arr.size arr 0 (arr.size - 1)).Perm arr ∧
      (quickSort cmp arr.size arr 0 (arr.size - 1)).toList.IsChain fun a b => 0 ≤ cmp a b := by
  rcases Nat.eq_zero_or_pos arr.size with empty | nonempty
  · rw [empty, quickSort]
    refine ⟨.refl arr, List.isChain_iff_getElem.mpr fun i bound => ?_⟩
    simp only [Array.length_toList] at bound
    omega
  · obtain ⟨moved, sorted⟩ := @quickSort_spec _ _ cmp weak arr.size arr 0 (arr.size - 1) (by omega)
      (by omega)
    refine ⟨moved.perm, List.isChain_iff_getElem.mpr fun i bound => ?_⟩
    simp only [Array.length_toList, moved.size_eq] at bound
    rw [Array.getElem_toList, Array.getElem_toList, ← getElem!_pos, ← getElem!_pos]
    exact sorted i (Nat.zero_le i) (by omega)

end Sorting

end QuickSort
end Bubble
