import Bubble.Common
import Bubble.Lib.Search
import Mathlib

/-!
# Delegations and their locks

`x/staking/delegation_types.go`.  A delegation holds six balances: free (`Released`) and
restricting (`RestrictingPlan`) funds, each effective or still in hesitation (`Hes`), and the
hesitation funds that were re-delegated out of the account's own `DelegationLock`.  Withdrawn
effective funds are frozen in the `DelegationLock` as lock periods, each ending at an epoch; once
the epoch has passed, `update` moves the period to the lock's unlocked balances, which
`RedeemDelegation` pays out.  Amounts are `big.Int`.
-/

namespace Bubble
namespace Staking

/-- `staking.Delegation`. -/
structure Delegation where
  /-- The epoch of the last change, from which hesitation funds count. -/
  delegateEpoch : UInt32
  released : ℤ
  releasedHes : ℤ
  restrictingPlan : ℤ
  restrictingPlanHes : ℤ
  /-- Delegate income not yet withdrawn. -/
  cumulativeIncome : ℤ
  /-- Hesitation funds delegated out of the account's `DelegationLock`. -/
  lockReleasedHes : ℤ
  lockRestrictingPlanHes : ℤ
  deriving DecidableEq, Repr

/-- `calcDelegateTotalAmount`: all six balances. -/
def calcDelegateTotalAmount (del : Delegation) : ℤ :=
  del.released + del.releasedHes + del.lockReleasedHes +
    (del.restrictingPlan + del.restrictingPlanHes + del.lockRestrictingPlanHes)

/-- `xcom.HesitateRatio()`: hesitation lasts one epoch. -/
def hesitateRatio : UInt64 := 1

/-- `lazyCalcDelegateAmount`: an epoch after the last change, every hesitation balance becomes
effective; the lock-origin ones join the free and restricting effective balances. -/
def lazyCalcDelegateAmount (epoch : UInt64) (del : Delegation) : Delegation :=
  if del.delegateEpoch = 0 then del
  else if epoch - del.delegateEpoch.toUInt64 < hesitateRatio then del
  else
    let del :=
      if 0 < del.releasedHes then
        { del with released := del.released + del.releasedHes, releasedHes := 0 }
      else del
    let del :=
      if 0 < del.restrictingPlanHes then
        { del with
            restrictingPlan := del.restrictingPlan + del.restrictingPlanHes
            restrictingPlanHes := 0 }
      else del
    let del :=
      if 0 < del.lockReleasedHes then
        { del with released := del.released + del.lockReleasedHes, lockReleasedHes := 0 }
      else del
    if 0 < del.lockRestrictingPlanHes then
      { del with
          restrictingPlan := del.restrictingPlan + del.lockRestrictingPlanHes
          lockRestrictingPlanHes := 0 }
    else del

/-- `staking.DelegationLockPeriod`: funds frozen until the end of `epoch`. -/
structure DelegationLockPeriod where
  epoch : UInt32
  released : ℤ
  restrictingPlan : ℤ
  deriving DecidableEq, Repr

/-- The periods' frozen funds are not negative. -/
def DelegationLockPeriod.Nonneg (period : DelegationLockPeriod) : Prop :=
  0 ≤ period.released ∧ 0 ≤ period.restrictingPlan

instance : DecidablePred DelegationLockPeriod.Nonneg := fun period =>
  inferInstanceAs (Decidable (0 ≤ period.released ∧ 0 ≤ period.restrictingPlan))

/-- `staking.DelegationLock`: the frozen periods, oldest first, and the funds already unlocked.
`change` is the unexported flag that tells the plugin to store the lock again; it is not encoded,
so a lock read from the database starts with it cleared. -/
structure DelegationLock where
  locks : List DelegationLockPeriod
  released : ℤ
  restrictingPlan : ℤ
  change : Bool
  deriving DecidableEq, Repr

namespace DelegationLock

/-- `NewDelegationLock`. -/
def newDelegationLock : DelegationLock := ⟨[], 0, 0, false⟩

/-- `AddLock`: funds frozen until `lockEpoch` join the last period when it ends then, and start a
new period otherwise. -/
def addLock (d : DelegationLock) (lockEpoch : UInt32) (released restrictingPlan : ℤ) :
    DelegationLock :=
  let locks :=
    match d.locks.getLast? with
    | some last =>
        if last.epoch ≠ lockEpoch then d.locks ++ [⟨lockEpoch, released, restrictingPlan⟩]
        else
          d.locks.dropLast ++
            [{ last with
                released := last.released + released
                restrictingPlan := last.restrictingPlan + restrictingPlan }]
    | none => [⟨lockEpoch, released, restrictingPlan⟩]
  { d with locks, change := true }

/-- `update`: the periods that ended before `currentEpoch`, a prefix of the list, are unlocked.
The loop stops at the first period still running. -/
def update (d : DelegationLock) (currentEpoch : UInt32) : DelegationLock :=
  let expired := d.locks.takeWhile (·.epoch < currentEpoch)
  if expired = [] then d
  else
    { locks := d.locks.dropWhile (·.epoch < currentEpoch)
      released := d.released + (expired.map (·.released)).sum
      restrictingPlan := d.restrictingPlan + (expired.map (·.restrictingPlan)).sum
      change := true }

/-- `shouldDel`: nothing frozen and nothing unlocked left. -/
def shouldDel (d : DelegationLock) : Bool :=
  d.locks.isEmpty && d.restrictingPlan + d.released = 0

theorem addLock_single {lockEpoch : UInt32} {released restrictingPlan : ℤ}
    (d : DelegationLock) (single : d.locks = [⟨lockEpoch, released, restrictingPlan⟩])
    (moreReleased moreRestrictingPlan : ℤ) :
    (d.addLock lockEpoch moreReleased moreRestrictingPlan).locks =
      [⟨lockEpoch, released + moreReleased, restrictingPlan + moreRestrictingPlan⟩] := by
  simp [addLock, single]

theorem addLock_of_nil (d : DelegationLock) (empty : d.locks = []) (lockEpoch : UInt32)
    (released restrictingPlan : ℤ) :
    (d.addLock lockEpoch released restrictingPlan).locks = [⟨lockEpoch, released, restrictingPlan⟩] := by
  simp [addLock, empty]

theorem addLock_endsAt {d : DelegationLock} {lockEpoch : UInt32}
    (ends : (d.locks.map (·.epoch)).Sublist [lockEpoch]) (released restrictingPlan : ℤ) :
    ((d.addLock lockEpoch released restrictingPlan).locks.map (·.epoch)).Sublist [lockEpoch] := by
  rcases List.sublist_singleton.mp ends with empty | single
  · rw [addLock_of_nil d (List.map_eq_nil_iff.mp empty)]
    exact List.Sublist.refl _
  · obtain ⟨period, only, rfl⟩ := List.map_eq_singleton_iff.mp single
    rw [addLock_single d only]
    exact List.Sublist.refl _

/-- On periods in increasing order of their epochs, `update` unlocks exactly the periods that
ended before `currentEpoch`: it keeps the others and adds the funds of those to the unlocked
balances. -/
theorem update_of_sorted {d : DelegationLock} (sorted : (d.locks.map (·.epoch)).Pairwise (· < ·))
    (currentEpoch : UInt32) :
    (d.update currentEpoch).locks = d.locks.filter (fun p => currentEpoch ≤ p.epoch) ∧
      (d.update currentEpoch).released =
        d.released + ((d.locks.filter (·.epoch < currentEpoch)).map (·.released)).sum ∧
      (d.update currentEpoch).restrictingPlan = d.restrictingPlan +
        ((d.locks.filter (·.epoch < currentEpoch)).map (·.restrictingPlan)).sum := by
  have mono : d.locks.Pairwise fun a b =>
      decide (b.epoch < currentEpoch) = true → decide (a.epoch < currentEpoch) = true :=
    (List.pairwise_map.mp sorted).imp fun earlier later => by
      simp only [decide_eq_true_eq] at later ⊢
      exact UInt32.lt_trans earlier later
  obtain ⟨taken, dropped⟩ := Search.takeWhile_dropWhile_eq_filter mono
  have kept : (d.locks.filter fun p => !decide (p.epoch < currentEpoch)) =
      d.locks.filter fun p => currentEpoch ≤ p.epoch := by
    refine List.filter_congr fun p _ => ?_
    simp only [← decide_not, UInt32.not_lt]
  by_cases none : d.locks.takeWhile (fun p => decide (p.epoch < currentEpoch)) = []
  · rw [taken] at none
    simp only [update, taken, none, if_true, List.map_nil, List.sum_nil, add_zero, and_true]
    rw [← kept, List.filter_eq_self.mpr]
    intro p mem
    simpa using List.filter_eq_nil_iff.mp none p mem
  · simp only [update, none, if_false]
    exact ⟨by rw [dropped, kept], by rw [taken], by rw [taken]⟩

theorem update_epochs_sublist (d : DelegationLock) (currentEpoch : UInt32) :
    ((d.update currentEpoch).locks.map (·.epoch)).Sublist (d.locks.map (·.epoch)) := by
  by_cases none : d.locks.takeWhile (fun p => decide (p.epoch < currentEpoch)) = []
  · simp only [update, none, if_true]
    exact List.Sublist.refl _
  · simp only [update, none, if_false]
    exact (List.dropWhile_sublist _).map _

theorem update_total (d : DelegationLock) (currentEpoch : UInt32) :
    (d.update currentEpoch).released + (d.update currentEpoch).restrictingPlan +
        ((d.update currentEpoch).locks.map fun p => p.released + p.restrictingPlan).sum =
      d.released + d.restrictingPlan + (d.locks.map fun p => p.released + p.restrictingPlan).sum := by
  by_cases none : d.locks.takeWhile (fun p => decide (p.epoch < currentEpoch)) = []
  · simp only [update, none, if_true]
  · simp only [update, none, if_false]
    have whole := congrArg (fun l : List DelegationLockPeriod =>
      (l.map fun p => p.released + p.restrictingPlan).sum)
      (List.takeWhile_append_dropWhile (p := fun p => decide (p.epoch < currentEpoch)) (l := d.locks))
    simp only [List.map_append, List.sum_append, List.sum_map_add] at whole ⊢
    linarith

/-- The loop of `AdvanceLockedFunds`, over the periods newest first: `older.reverse` is the slice
`d.Locks[:i]` before the period at `i`.  A period's restricting part is used before its released
part, and the loop returns as soon as `left` is used up, keeping the slice up to the period it
stopped in (dropped when nothing is left in it).  None when the periods run out first; the lock is
written only on the returns. -/
def advanceLoop (released restricting left : ℤ) :
    List DelegationLockPeriod → Option (ℤ × ℤ × List DelegationLockPeriod)
  | [] => none
  | period :: older =>
    if period.restrictingPlan ≤ left then
      let left := left - period.restrictingPlan
      let restricting := restricting + period.restrictingPlan
      if period.released < left then
        advanceLoop (released + period.released) restricting (left - period.released) older
      else
        let rest := { period with restrictingPlan := 0, released := period.released - left }
        some (released + left, restricting,
          if rest.released = 0 then older.reverse else older.reverse ++ [rest])
    else
      some (released, restricting + left,
        older.reverse ++ [{ period with restrictingPlan := period.restrictingPlan - left }])

/-- `AdvanceLockedFunds`: `amount` of the frozen funds is taken for a new delegation, newest
periods first.  Returns the released and restricting parts taken, none for
`ErrDelegateLockBalanceNotEnough`, and the lock after the call. -/
def advanceLockedFunds (d : DelegationLock) (amount : ℤ) : Option (ℤ × ℤ) × DelegationLock :=
  if d.locks = [] then (none, d)
  else
    match advanceLoop 0 0 amount d.locks.reverse with
    | some (released, restricting, locks) =>
        (some (released, restricting), { d with locks, change := true })
    | none => (none, d)

theorem total_nonneg {periods : List DelegationLockPeriod} (nonneg : ∀ p ∈ periods, p.Nonneg) :
    0 ≤ (periods.map fun p => p.released + p.restrictingPlan).sum := by
  refine List.sum_nonneg fun x mem => ?_
  obtain ⟨p, p_mem, rfl⟩ := List.mem_map.mp mem
  exact add_nonneg (nonneg p p_mem).1 (nonneg p p_mem).2

/-- The loop fails exactly when the periods hold less than is asked for. -/
theorem advanceLoop_eq_none_iff {released restricting left : ℤ} {periods : List DelegationLockPeriod}
    (nonneg : ∀ p ∈ periods, p.Nonneg) (started : 0 < left ∨ periods ≠ []) (left_nonneg : 0 ≤ left) :
    advanceLoop released restricting left periods = none ↔
      (periods.map fun p => p.released + p.restrictingPlan).sum < left := by
  induction periods generalizing released restricting left with
  | nil =>
    simp only [advanceLoop, List.map_nil, List.sum_nil, true_iff]
    exact started.resolve_right (absurd rfl)
  | cons period older ih =>
    have older_nonneg : ∀ p ∈ older, p.Nonneg := fun p mem => nonneg p (List.mem_cons_of_mem _ mem)
    have rest := total_nonneg older_nonneg
    have := nonneg period List.mem_cons_self
    simp only [advanceLoop, List.map_cons, List.sum_cons]
    by_cases used : period.restrictingPlan ≤ left
    · by_cases more : period.released < left - period.restrictingPlan
      · rw [if_pos used, if_pos more, ih older_nonneg (.inl (by omega)) (by omega)]
        omega
      · simp only [if_pos used, if_neg more, reduceCtorEq, false_iff, not_lt]
        omega
    · simp only [if_neg used, reduceCtorEq, false_iff, not_lt]
      unfold DelegationLockPeriod.Nonneg at this
      omega

/-- The periods a successful loop keeps are a prefix of the periods oldest first, with their
epochs. -/
theorem advanceLoop_prefix {released restricting left r s : ℤ}
    {periods kept : List DelegationLockPeriod}
    (found : advanceLoop released restricting left periods = some (r, s, kept)) :
    kept.map (·.epoch) <+: periods.reverse.map (·.epoch) := by
  induction periods generalizing released restricting left with
  | nil => simp [advanceLoop] at found
  | cons period older ih =>
    simp only [List.reverse_cons, List.map_append, List.map_cons, List.map_nil]
    by_cases used : period.restrictingPlan ≤ left
    · by_cases more : period.released < left - period.restrictingPlan
      · rw [advanceLoop, if_pos used, if_pos more] at found
        exact (ih found).trans (List.prefix_append _ _)
      · simp only [advanceLoop, if_pos used, if_neg more, Option.some.injEq, Prod.mk.injEq] at found
        rw [← found.2.2]
        split
        · rw [List.map_reverse]
          exact List.prefix_append _ _
        · simp only [List.map_append, List.map_reverse, List.map_cons, List.map_nil]
          exact List.prefix_rfl
    · simp only [advanceLoop, if_neg used, Option.some.injEq, Prod.mk.injEq] at found
      rw [← found.2.2]
      simp only [List.map_append, List.map_reverse, List.map_cons, List.map_nil]
      exact List.prefix_rfl

/-- What a successful loop takes: the amounts it reports add up to what was asked for, and the
periods kept hold exactly that much less. -/
theorem advanceLoop_eq_some {released restricting left r s : ℤ}
    {periods kept : List DelegationLockPeriod} (nonneg : ∀ p ∈ periods, p.Nonneg)
    (found : advanceLoop released restricting left periods = some (r, s, kept)) :
    r + s = released + restricting + left ∧
      (kept.map (·.released)).sum + (r - released) = (periods.map (·.released)).sum ∧
      (kept.map (·.restrictingPlan)).sum + (s - restricting) =
        (periods.map (·.restrictingPlan)).sum ∧
      ∀ p ∈ kept, p.Nonneg := by
  induction periods generalizing released restricting left with
  | nil => simp [advanceLoop] at found
  | cons period older ih =>
    have older_nonneg : ∀ p ∈ older, p.Nonneg := fun p mem => nonneg p (List.mem_cons_of_mem _ mem)
    obtain ⟨rel_nonneg, res_nonneg⟩ := nonneg period List.mem_cons_self
    simp only [List.map_cons, List.sum_cons]
    by_cases used : period.restrictingPlan ≤ left
    · by_cases more : period.released < left - period.restrictingPlan
      · rw [advanceLoop, if_pos used, if_pos more] at found
        obtain ⟨sum, rel, res, kept_nonneg⟩ := ih older_nonneg found
        exact ⟨by omega, by omega, by omega, kept_nonneg⟩
      · simp only [advanceLoop, if_pos used, if_neg more, Option.some.injEq, Prod.mk.injEq] at found
        obtain ⟨rfl, rfl, rfl⟩ := found
        split
        · simp only [List.map_reverse, List.sum_reverse]
          exact ⟨by omega, by omega, by omega, fun p mem => older_nonneg p (List.mem_reverse.mp mem)⟩
        · simp only [List.map_append, List.map_reverse, List.sum_append, List.sum_reverse,
            List.map_cons, List.map_nil, List.sum_cons, List.sum_nil]
          refine ⟨by omega, by omega, by omega, fun p mem => ?_⟩
          rcases List.mem_append.mp mem with old | last
          · exact older_nonneg p (List.mem_reverse.mp old)
          · rw [List.mem_singleton.mp last]
            exact ⟨by simp only; omega, le_refl 0⟩
    · simp only [advanceLoop, if_neg used, Option.some.injEq, Prod.mk.injEq] at found
      obtain ⟨rfl, rfl, rfl⟩ := found
      simp only [List.map_append, List.map_reverse, List.sum_append, List.sum_reverse,
        List.map_cons, List.map_nil, List.sum_cons, List.sum_nil]
      refine ⟨by omega, by omega, by omega, fun p mem => ?_⟩
      rcases List.mem_append.mp mem with old | last
      · exact older_nonneg p (List.mem_reverse.mp old)
      · rw [List.mem_singleton.mp last]
        exact ⟨rel_nonneg, by simp only; omega⟩

theorem advanceLockedFunds_cases (d : DelegationLock) (amount : ℤ) :
    (d.locks ≠ [] ∧ ∃ released restricting locks,
        advanceLoop 0 0 amount d.locks.reverse = some (released, restricting, locks) ∧
        d.advanceLockedFunds amount =
          (some (released, restricting), { d with locks, change := true })) ∨
      ((d.locks = [] ∨ advanceLoop 0 0 amount d.locks.reverse = none) ∧
        d.advanceLockedFunds amount = (none, d)) := by
  by_cases empty : d.locks = []
  · exact .inr ⟨.inl empty, by simp [advanceLockedFunds, empty]⟩
  · cases found : advanceLoop 0 0 amount d.locks.reverse with
    | none => exact .inr ⟨.inr rfl, by simp [advanceLockedFunds, empty, found]⟩
    | some result =>
      obtain ⟨released, restricting, locks⟩ := result
      exact .inl ⟨empty, released, restricting, locks, rfl, by simp [advanceLockedFunds, empty, found]⟩

theorem advanceLockedFunds_epochs (d : DelegationLock) (amount : ℤ) :
    (d.advanceLockedFunds amount).2.locks.map (·.epoch) <+: d.locks.map (·.epoch) := by
  rcases advanceLockedFunds_cases d amount with ⟨-, released, restricting, locks, found, result⟩ |
    ⟨-, result⟩
  · rw [result]
    simpa using advanceLoop_prefix found
  · rw [result]

/-- `AdvanceLockedFunds` is exact and atomic.  On periods that hold no negative amounts, and for an
amount that is not negative, it succeeds exactly when there is a period and the amount is at most
what the periods hold.  It then reports released and restricting parts adding up to the amount,
takes exactly those from the periods, keeps a prefix of the periods with their epochs, and leaves
the unlocked funds alone.  When it fails the lock is left as it was. -/
theorem advanceLockedFunds_exact (d : DelegationLock) (nonneg : ∀ p ∈ d.locks, p.Nonneg)
    {amount : ℤ} (amount_nonneg : 0 ≤ amount) :
    ((d.advanceLockedFunds amount).1.isSome ↔
        d.locks ≠ [] ∧ amount ≤ (d.locks.map fun p => p.released + p.restrictingPlan).sum) ∧
      (∀ released restricting next,
        d.advanceLockedFunds amount = (some (released, restricting), next) →
          released + restricting = amount ∧
          (next.locks.map (·.released)).sum = (d.locks.map (·.released)).sum - released ∧
          (next.locks.map (·.restrictingPlan)).sum =
            (d.locks.map (·.restrictingPlan)).sum - restricting ∧
          (∀ p ∈ next.locks, p.Nonneg) ∧ next.locks.map (·.epoch) <+: d.locks.map (·.epoch) ∧
          next.released = d.released ∧ next.restrictingPlan = d.restrictingPlan) ∧
      ∀ next, d.advanceLockedFunds amount = (none, next) → next = d := by
  have reversed : ∀ p ∈ d.locks.reverse, p.Nonneg := fun p mem => nonneg p (List.mem_reverse.mp mem)
  have total : (d.locks.reverse.map fun p => p.released + p.restrictingPlan).sum =
      (d.locks.map fun p => p.released + p.restrictingPlan).sum := by
    rw [List.map_reverse, List.sum_reverse]
  rcases advanceLockedFunds_cases d amount with
    ⟨nonempty, released, restricting, locks, found, result⟩ | ⟨failed, result⟩
  · have enough : amount ≤ (d.locks.map fun p => p.released + p.restrictingPlan).sum := by
      rw [← total, ← not_lt, ← advanceLoop_eq_none_iff reversed (.inr (by simpa using nonempty))
        amount_nonneg, found]
      exact Option.some_ne_none _
    obtain ⟨sum, rel, res, kept_nonneg⟩ := advanceLoop_eq_some reversed found
    have pre := advanceLoop_prefix found
    simp only [List.map_reverse, List.sum_reverse, List.reverse_reverse] at rel res pre
    refine ⟨by simpa only [result, Option.isSome_some, true_iff] using ⟨nonempty, enough⟩,
      fun r s next same => ?_, fun next same => ?_⟩
    · rw [result, Prod.mk.injEq, Option.some.injEq, Prod.mk.injEq] at same
      obtain ⟨⟨rfl, rfl⟩, rfl⟩ := same
      exact ⟨by omega, by simp only; omega, by simp only; omega, kept_nonneg, pre, rfl, rfl⟩
    · simp [result] at same
  · have short : ¬(d.locks ≠ [] ∧
        amount ≤ (d.locks.map fun p => p.released + p.restrictingPlan).sum) := by
      rintro ⟨nonempty, enough⟩
      rcases failed with empty | none
      · exact nonempty empty
      · rw [advanceLoop_eq_none_iff reversed (.inr (by simpa using nonempty)) amount_nonneg,
          total] at none
        omega
    refine ⟨by simpa [result] using short, fun r s next same => by simp [result] at same,
      fun next same => ?_⟩
    rw [result, Prod.mk.injEq] at same
    exact same.2.symm

/-- A lock with two periods, frozen until epochs 3 and 5. -/
def twoPeriodLock : DelegationLock := ⟨[⟨3, 4, 2⟩, ⟨5, 1, 3⟩], 0, 0, false⟩

theorem advanceLockedFunds_exact_two_periods :
    (∀ p ∈ twoPeriodLock.locks, p.Nonneg) ∧ (0 : ℤ) ≤ 5 ∧
      (twoPeriodLock.advanceLockedFunds 5).1.isSome ∧
      ∀ released restricting next,
        twoPeriodLock.advanceLockedFunds 5 = (some (released, restricting), next) →
          released + restricting = 5 := by
  have nonneg : ∀ p ∈ twoPeriodLock.locks, p.Nonneg := by decide
  obtain ⟨ok, taken, -⟩ := @advanceLockedFunds_exact twoPeriodLock nonneg 5 (by decide)
  exact ⟨nonneg, by decide, ok.mpr ⟨by decide, by decide⟩,
    fun released restricting next same => (taken released restricting next same).1⟩

end DelegationLock

end Staking
end Bubble
