import Mathlib

/-!
# Deleting from a slice while walking it

A loop that walks a slice by index and may delete the element it stands on: after a deletion the
elements behind close up, so the index is moved back by one and the increment of the loop lands on
the element that took the deleted one's place.  `sweepLoop` is that loop, with the deletion helper
`del` as a parameter; `step` decides for each element whether it goes (`none`) or stays, perhaps
changed (`some`), threading a state and failing early.  `sweep` says what the loop computes: each
element decided once, in order, the ones kept in their order.  `sweepLoop_eq` proves that the loop
computes it, for any helper that deletes the way the loop expects (`Deletes`).
-/

namespace Bubble
namespace Sweep

variable {α σ ε : Type}

/-- What the walk computes: the elements kept, in order, and the final state. -/
def sweep (step : σ → α → Except ε (σ × Option α)) : List α → σ → Except ε (List α × σ)
  | [], s => .ok ([], s)
  | x :: rest, s => do
    let (s, kept) ← step s x
    let (others, s) ← sweep step rest s
    pure (kept.toList ++ others, s)

theorem sweep_cons_eq_ok {step : σ → α → Except ε (σ × Option α)} {x : α} {rest kept : List α}
    {s last : σ} :
    sweep step (x :: rest) s = .ok (kept, last) ↔
      ∃ next decided others, step s x = .ok (next, decided) ∧
        sweep step rest next = .ok (others, last) ∧ kept = decided.toList ++ others := by
  simp only [sweep, bind, Except.bind]
  constructor
  · intro result
    split at result
    case h_1 => cases result
    case h_2 next decided decision =>
      split at result
      case h_1 => cases result
      case h_2 others last' swept =>
        simp only [pure, Except.pure, Except.ok.injEq, Prod.mk.injEq] at result
        obtain ⟨rfl, rfl⟩ := result
        exact ⟨_, _, _, decision, swept, rfl⟩
  · rintro ⟨next, decided, others, decision, swept, rfl⟩
    simp [decision, swept, pure, Except.pure]

/-- A deletion helper as the loop needs it: with `done` before the current element and `rest` after
it, it leaves `done ++ rest` and the index before the next element, or, at the end of the slice,
`done` and an index from which the loop stops. -/
def Deletes (del : List α → ℤ → List α × ℤ) : Prop :=
  ∀ (done rest : List α) (x : α),
    del (done ++ x :: rest) done.length = (done ++ rest, (done.length : ℤ) - 1) ∨
      rest = [] ∧ (del (done ++ x :: rest) done.length).1 = done ∧
        (done.length : ℤ) ≤ (del (done ++ x :: rest) done.length).2 + 1

variable [Inhabited α]

/-- The loop, by index; `fuel` bounds the number of elements still to decide. -/
def sweepLoop (del : List α → ℤ → List α × ℤ) (step : σ → α → Except ε (σ × Option α)) :
    (fuel : ℕ) → List α → ℤ → σ → Except ε (List α × σ)
  | 0, list, _, s => .ok (list, s)
  | fuel + 1, list, index, s =>
    if index < list.length then
      match step s list[index.toNat]! with
      | .error e => .error e
      | .ok (s, none) =>
        let (list, index) := del list index
        sweepLoop del step fuel list (index + 1) s
      | .ok (s, some x) => sweepLoop del step fuel (list.set index.toNat x) (index + 1) s
    else .ok (list, s)

theorem sweepLoop_of_le {del : List α → ℤ → List α × ℤ} {step : σ → α → Except ε (σ × Option α)}
    {fuel : ℕ} {list : List α} {index : ℤ} (past : list.length ≤ index) (s : σ) :
    sweepLoop del step fuel list index s = .ok (list, s) := by
  cases fuel with
  | zero => rfl
  | succ fuel => rw [sweepLoop, if_neg (by omega)]

/-- With fuel for the elements after `done`, the loop standing after `done` computes `sweep` of
them.  The induction is on the elements still to decide: a kept one joins `done`, a deleted one
closes the gap, so the index stays the length of `done`. -/
theorem sweepLoop_eq {del : List α → ℤ → List α × ℤ} (deletes : Deletes del)
    (step : σ → α → Except ε (σ × Option α)) :
    ∀ (rest done : List α) (s : σ) (fuel : ℕ), rest.length ≤ fuel →
      sweepLoop del step fuel (done ++ rest) done.length s =
        (sweep step rest s).map fun (kept, s) => (done ++ kept, s) := by
  intro rest
  induction rest with
  | nil =>
    intro done s fuel _
    rw [List.append_nil, sweepLoop_of_le (by omega)]
    simp [sweep, Except.map]
  | cons x rest ih =>
    intro done s fuel enough
    obtain ⟨fuel, rfl⟩ : ∃ f, fuel = f + 1 := ⟨fuel - 1, by simp at enough; omega⟩
    have current : (done ++ x :: rest)[(done.length : ℤ).toNat]! = x := by
      simp
    rw [sweepLoop, if_pos (by simp), current]
    rcases decision : step s x with e | ⟨next, _ | y⟩
    · simp [sweep, decision, bind, Except.bind, Except.map]
    · rcases deletes done rest x with closes | ⟨rfl, left, stops⟩
      · simp only [closes, sub_add_cancel]
        rw [ih done next fuel (by simp at enough; omega)]
        simp [sweep, decision, bind, Except.bind, Except.map]
        cases sweep step rest next <;> rfl
      · generalize del (done ++ [x]) done.length = deleted at left stops ⊢
        obtain ⟨list, index⟩ := deleted
        simp only at left stops
        subst left
        dsimp only
        rw [sweepLoop_of_le stops]
        simp [sweep, decision, bind, Except.bind, Except.map, pure, Except.pure]
    · -- kept: it joins `done`
      have moved : (done ++ x :: rest).set (done.length : ℤ).toNat y = (done ++ [y]) ++ rest := by
        simp
      simp only [moved]
      rw [show (done.length : ℤ) + 1 = ((done ++ [y]).length : ℤ) by simp,
        ih (done ++ [y]) next fuel (by simp at enough; omega)]
      simp only [sweep, decision, bind, Except.bind, Except.map]
      cases sweep step rest next <;> simp [pure, Except.pure]

end Sweep
end Bubble
