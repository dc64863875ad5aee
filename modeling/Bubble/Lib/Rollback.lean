import Mathlib

/-!
# Transactions that roll back

A state machine whose steps may fail, executed the way a transaction processor does: a failed step
is rolled back and leaves the state as it was, a successful one commits its post-state.  A run of
such steps preserves every invariant that successful steps preserve; the theorems here package
that induction once, together with the bind rule that peels a failing computation apart.
-/

namespace Bubble
namespace Rollback

variable {σ ω ε α β : Type}

theorem bind_eq_ok {first : Except ε α} {rest : α → Except ε β} {result : β} :
    first >>= rest = .ok result ↔ ∃ value, first = .ok value ∧ rest value = .ok result := by
  cases first with
  | error failure => simp [bind, Except.bind]
  | ok value => simp [bind, Except.bind]

theorem mapError_eq_ok {ε' : Type} {first : Except ε α} {f : ε → ε'} {result : α} :
    first.mapError f = .ok result ↔ first = .ok result := by
  cases first with
  | error failure => simp [Except.mapError]
  | ok value => simp [Except.mapError]

theorem map_eq_ok {first : Except ε α} {f : α → β} {result : β} :
    first.map f = .ok result ↔ ∃ value, first = .ok value ∧ f value = result := by
  cases first with
  | error failure => simp [Except.map]
  | ok value => simp [Except.map]

theorem throw_bind_eq_ok {failure : ε} {rest : α → Except ε β} {result : β} :
    (throw failure >>= rest : Except ε β) = .ok result ↔ False := by
  simp [throw, throwThe, MonadExceptOf.throw, bind, Except.bind]

theorem map_throw_eq_ok {failure : ε} {f : α → β} {result : β} :
    (f <$> throw failure : Except ε β) = .ok result ↔ False := by
  simp [throw, throwThe, MonadExceptOf.throw, Functor.map, Except.map]

theorem throw_eq_ok {failure : ε} {result : β} :
    (throw failure : Except ε β) = .ok result ↔ False := by
  simp [throw, throwThe, MonadExceptOf.throw]

/-- Keep the post-state of a successful step, and the pre-state of a failed one. -/
def commit (step : σ → Except ε σ) (state : σ) : σ :=
  match step state with
  | .ok next => next
  | .error _ => state

theorem commit_of_ok {step : σ → Except ε σ} {state next : σ} (success : step state = .ok next) :
    commit step state = next := by
  simp [commit, success]

theorem commit_of_error {step : σ → Except ε σ} {state : σ} {failure : ε}
    (failed : step state = .error failure) : commit step state = state := by
  simp [commit, failed]

/-- Execute operations in order, rolling back each one that fails. -/
def run (step : ω → σ → Except ε σ) : List ω → σ → σ
  | [], state => state
  | op :: ops, state => run step ops (commit (step op) state)

@[simp]
theorem run_nil (step : ω → σ → Except ε σ) (state : σ) : run step [] state = state := rfl

@[simp]
theorem run_cons (step : ω → σ → Except ε σ) (op : ω) (ops : List ω) (state : σ) :
    run step (op :: ops) state = run step ops (commit (step op) state) := rfl

theorem run_append (step : ω → σ → Except ε σ) (front back : List ω) (state : σ) :
    run step (front ++ back) state = run step back (run step front state) := by
  induction front generalizing state with
  | nil => rfl
  | cons op ops ih => exact ih (commit (step op) state)

section Invariant

variable {step : ω → σ → Except ε σ} {Admissible : ω → Prop} {Inv : σ → Prop}

theorem commit_invariant
    (preserve : ∀ op state next, Admissible op → Inv state → step op state = .ok next → Inv next)
    {op : ω} {state : σ} (admissible : Admissible op) (holds : Inv state) :
    Inv (commit (step op) state) := by
  cases result : step op state with
  | error failure => rwa [commit_of_error result]
  | ok next => rw [commit_of_ok result]; exact preserve op state next admissible holds result

theorem run_invariant
    (preserve : ∀ op state next, Admissible op → Inv state → step op state = .ok next → Inv next)
    (ops : List ω) (admissible : ∀ op ∈ ops, Admissible op) {state : σ} (holds : Inv state) :
    Inv (run step ops state) := by
  induction ops generalizing state with
  | nil => exact holds
  | cons op ops ih =>
      have head : Admissible op := admissible op List.mem_cons_self
      have tail : ∀ other ∈ ops, Admissible other :=
        fun other member => admissible other (List.mem_cons_of_mem op member)
      exact ih tail (commit_invariant preserve head holds)

end Invariant

end Rollback
end Bubble
