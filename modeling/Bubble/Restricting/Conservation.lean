import Bubble.Restricting.Plugin
import Bubble.Lib.Rollback
import Mathlib

/-!
# Conservation of restricted funds

The restricting contract's balance is what it owes: the genesis allowances not yet paid out plus,
for every account with a record, the locked funds not lent to the staking contract
(`CachePlanAmount - AdvanceAmount`).  This file proves that every operation keeps that equation
and the bounds `0 ≤ NeedRelease`, `0 ≤ AdvanceAmount ≤ CachePlanAmount` on every record, as long as
no operation names the restricting contract itself as an account.
-/

namespace Bubble
namespace Restricting

open Ledger RestrictingState

/-! ## The invariant -/

/-- What the contract holds for a record: the locked funds not lent to staking. -/
def RestrictingInfo.held (info : RestrictingInfo) : ℤ :=
  info.cachePlanAmount - info.advanceAmount

/-- What the contract holds for a slot. -/
def heldOf : Option RestrictingInfo → ℤ
  | none => 0
  | some info => info.held

@[simp]
theorem heldOf_none : heldOf none = 0 := rfl

@[simp]
theorem heldOf_some (info : RestrictingInfo) : heldOf (some info) = info.held := rfl

/-- The funds the contract holds for all records. -/
def totalHeld (state : RestrictingState) : ℤ :=
  ∑ account, heldOf (state.restrictingInfo account)

/-- The genesis allowances not yet paid out. -/
def genesisRemaining (state : RestrictingState) : ℤ :=
  (state.genesisAllowancePlans.getD []).sum

/-- The bounds every stored record keeps. -/
structure RestrictingInfo.Bounded (info : RestrictingInfo) : Prop where
  needRelease_nonneg : 0 ≤ info.needRelease
  advanceAmount_nonneg : 0 ≤ info.advanceAmount
  advance_le_cache : info.advanceAmount ≤ info.cachePlanAmount

/-- The conservation invariant of the restricting contract. -/
structure Conserved (state : RestrictingState) : Prop where
  balance_eq : state.balance restrictingContractAddr = genesisRemaining state + totalHeld state
  bounded : ∀ account info, state.restrictingInfo account = some info → info.Bounded
  genesis_nonneg : ∀ allowance ∈ state.genesisAllowancePlans.getD [], 0 ≤ allowance
  contract_unrecorded : state.restrictingInfo restrictingContractAddr = none

theorem RestrictingInfo.Bounded.held_nonneg {info : RestrictingInfo} (bounded : info.Bounded) :
    0 ≤ info.held := by
  have := bounded.advance_le_cache
  simp only [RestrictingInfo.held]
  omega

theorem totalHeld_nonneg {state : RestrictingState}
    (bounded : ∀ account info, state.restrictingInfo account = some info → info.Bounded) :
    0 ≤ totalHeld state := by
  apply Finset.sum_nonneg
  intro account _
  cases found : state.restrictingInfo account with
  | none => simp
  | some info => exact (bounded account info found).held_nonneg

theorem genesisRemaining_nonneg {state : RestrictingState}
    (nonneg : ∀ allowance ∈ state.genesisAllowancePlans.getD [], 0 ≤ allowance) :
    0 ≤ genesisRemaining state :=
  List.sum_nonneg nonneg

theorem Conserved.balance_nonneg {state : RestrictingState} (conserved : Conserved state) :
    0 ≤ state.balance restrictingContractAddr := by
  rw [conserved.balance_eq]
  have := totalHeld_nonneg conserved.bounded
  have := genesisRemaining_nonneg conserved.genesis_nonneg
  omega

theorem totalHeld_of_update {state next : RestrictingState} {account : Address}
    {slot : Option RestrictingInfo}
    (records : next.restrictingInfo = Function.update state.restrictingInfo account slot) :
    totalHeld next = totalHeld state - heldOf (state.restrictingInfo account) + heldOf slot := by
  unfold totalHeld
  have pushed : (fun other => heldOf (next.restrictingInfo other)) =
      Function.update (fun other => heldOf (state.restrictingInfo other)) account (heldOf slot) := by
    funext other
    by_cases same : other = account
    · subst same; simp [records]
    · simp [records, same]
  simp only [pushed]
  exact sum_update _ account (heldOf slot)

theorem Conserved.congr {state next : RestrictingState} (conserved : Conserved state)
    (balance_eq : next.balance restrictingContractAddr = state.balance restrictingContractAddr)
    (records : next.restrictingInfo = state.restrictingInfo)
    (genesis : next.genesisAllowancePlans = state.genesisAllowancePlans) : Conserved next where
  balance_eq := by
    rw [balance_eq, conserved.balance_eq, genesisRemaining, genesisRemaining, genesis, totalHeld,
      totalHeld, records]
  bounded := by rw [records]; exact conserved.bounded
  genesis_nonneg := by rw [genesis]; exact conserved.genesis_nonneg
  contract_unrecorded := by rw [records]; exact conserved.contract_unrecorded

/-- The step rule for one record: if an operation moves `paid` out of the contract, rewrites the
record of `account` (not the contract) into a bounded slot, and the slot's holding drops by the
same `paid`, the invariant survives. -/
theorem Conserved.write {state next : RestrictingState} (conserved : Conserved state)
    {account : Address} (not_contract : account ≠ restrictingContractAddr)
    (slot : Option RestrictingInfo) (slot_bounded : ∀ info, slot = some info → info.Bounded)
    (paid : ℤ)
    (balance_eq : next.balance restrictingContractAddr = state.balance restrictingContractAddr - paid)
    (records : next.restrictingInfo = Function.update state.restrictingInfo account slot)
    (genesis : next.genesisAllowancePlans = state.genesisAllowancePlans)
    (held_eq : heldOf slot = heldOf (state.restrictingInfo account) - paid) :
    Conserved next where
  balance_eq := by
    rw [balance_eq, conserved.balance_eq, totalHeld_of_update records, held_eq, genesisRemaining,
      genesisRemaining, genesis]
    ring
  bounded := by
    intro other info found
    rw [records] at found
    by_cases same : other = account
    · subst same
      exact slot_bounded info (by simpa using found)
    · exact conserved.bounded other info (by simpa [same] using found)
  genesis_nonneg := by rw [genesis]; exact conserved.genesis_nonneg
  contract_unrecorded := by
    rw [records]
    simpa [Ne.symm not_contract] using conserved.contract_unrecorded

theorem Conserved.ne_contract {state : RestrictingState} (conserved : Conserved state)
    {account : Address} {info : RestrictingInfo} (found : state.restrictingInfo account = some info) :
    account ≠ restrictingContractAddr := by
  rintro rfl
  simp [conserved.contract_unrecorded] at found

/-! ## Record arithmetic -/

theorem heldOf_clearable {info : RestrictingInfo} (bounded : info.Bounded) (clear : Bool)
    (cleared : clear = true → info.cachePlanAmount = 0) :
    heldOf (if clear then none else some info) = info.held := by
  cases clear with
  | false => rfl
  | true =>
      have cache_zero := cleared rfl
      have := bounded.advanceAmount_nonneg
      have := bounded.advance_le_cache
      simp only [if_true, heldOf_none, RestrictingInfo.held]
      omega

theorem isSpent_cache {info : RestrictingInfo} (spent : info.isSpent = true) :
    info.cachePlanAmount = 0 := by
  simp [RestrictingInfo.isSpent] at spent
  exact spent.2

theorem isReleased_cache {info : RestrictingInfo} (released : info.isReleased = true) :
    info.cachePlanAmount = 0 := by
  simp [RestrictingInfo.isReleased] at released
  exact released.1

theorem storeOrClear_eq_ok {state next : RestrictingState} {account : Address}
    {info : RestrictingInfo} {clear : Bool}
    (success : storeOrClear state account info clear = .ok next) :
    next = { state with
      restrictingInfo := Function.update state.restrictingInfo account
        (if clear then none else some info) } := by
  unfold storeOrClear at success
  cases clear with
  | true =>
      simp only [if_true, Except.ok.injEq] at success
      simp [← success, clearRestrictingInfo]
  | false =>
      simpa using (storeRestrictingInfo_eq_ok.mp success).2

theorem returnInfo_spec {info : RestrictingInfo} (bounded : info.Bounded) {amount : ℤ}
    (positive : 0 < amount) (covered : amount ≤ info.advanceAmount) :
    (returnInfo info amount).1.Bounded ∧
      (returnInfo info amount).1.held = info.held + amount - (returnInfo info amount).2 := by
  have := bounded.needRelease_nonneg
  have := bounded.advance_le_cache
  unfold returnInfo
  split_ifs with owing settles <;>
    exact ⟨⟨by dsimp only; omega, by dsimp only; omega, by dsimp only; omega⟩,
      by simp only [RestrictingInfo.held]; omega⟩

theorem releaseInfo_spec {info : RestrictingInfo} (bounded : info.Bounded) {releaseAmount : ℤ}
    (nonneg : 0 ≤ releaseAmount) :
    (releaseInfo info releaseAmount).1.Bounded ∧
      (releaseInfo info releaseAmount).1.held = info.held - (releaseInfo info releaseAmount).2 := by
  have := bounded.needRelease_nonneg
  have := bounded.advanceAmount_nonneg
  have := bounded.advance_le_cache
  dsimp only [releaseInfo]
  split_ifs with owing covered <;>
    exact ⟨⟨by dsimp only; omega, by dsimp only; omega, by dsimp only; omega⟩,
      by simp only [RestrictingInfo.held]; omega⟩

/-! ## Lending operations -/

/-- The step rule for lending: the record of `account` lends `lent` more, within its unlocked
funds, and the contract pays it to staking.  Moves of free balance before the write (`mid`) leave
the contract alone. -/
theorem Conserved.lend {state mid written : RestrictingState} (conserved : Conserved state)
    {account : Address} {info : RestrictingInfo} (found : state.restrictingInfo account = some info)
    {lent : ℤ}
    (stored : mid.storeRestrictingInfo account
      { info with advanceAmount := info.advanceAmount + lent } = .ok written)
    (mid_balance : mid.balance restrictingContractAddr = state.balance restrictingContractAddr)
    (mid_records : mid.restrictingInfo = state.restrictingInfo)
    (mid_genesis : mid.genesisAllowancePlans = state.genesisAllowancePlans)
    (nonneg : 0 ≤ lent) (covered : lent ≤ info.cachePlanAmount - info.advanceAmount) :
    Conserved (written.transferAmount restrictingContractAddr stakingContractAddr lent) := by
  obtain ⟨-, rfl⟩ := storeRestrictingInfo_eq_ok.mp stored
  have bounded := conserved.bounded account info found
  have := bounded.advanceAmount_nonneg
  refine conserved.write (conserved.ne_contract found)
    (some { info with advanceAmount := info.advanceAmount + lent }) ?_ lent ?_ ?_ mid_genesis ?_
  · rintro _ ⟨⟩
    exact ⟨bounded.needRelease_nonneg, by dsimp only; omega, by dsimp only; omega⟩
  · simp [transfer_src restricting_ne_staking, mid_balance]
  · simp [mid_records]
  · simp only [found, heldOf_some, RestrictingInfo.held]
    ring

theorem advanceLockedFunds_conserved {state next : RestrictingState} {account : Address}
    {amount : ℤ} (conserved : Conserved state)
    (success : advanceLockedFunds state account amount = .ok next) : Conserved next := by
  unfold advanceLockedFunds at success
  cases found : state.restrictingInfo account with
  | none => simp [mustGetRestrictingInfo, found] at success
  | some info =>
      simp only [mustGetRestrictingInfo, found] at success
      by_cases negative : amount < 0
      · simp [negative] at success
      by_cases zero : amount = 0
      · subst zero
        simp only [lt_self_iff_false, if_false, if_true, Except.ok.injEq] at success
        exact success ▸ conserved
      by_cases short : info.cachePlanAmount - info.advanceAmount < amount
      · simp [negative, zero, short] at success
      simp only [negative, zero, short, if_false] at success
      cases stored : state.storeRestrictingInfo account
          { info with advanceAmount := info.advanceAmount + amount } with
      | error failure => simp [stored] at success
      | ok written =>
          simp only [stored, Except.ok.injEq] at success
          subst success
          exact conserved.lend found stored rfl rfl rfl (by omega) (by omega)

theorem mixAdvanceLockedFunds_conserved {state next : RestrictingState} {account : Address}
    {amount forRestricting forFree : ℤ} (conserved : Conserved state)
    (not_contract : account ≠ restrictingContractAddr)
    (success : mixAdvanceLockedFunds state account amount = .ok (next, forRestricting, forFree)) :
    Conserved next := by
  unfold mixAdvanceLockedFunds at success
  cases found : state.restrictingInfo account with
  | none =>
      simp only [mustGetRestrictingInfo, found] at success
      by_cases poor : state.balance account < amount
      · simp [poor] at success
      simp only [poor, if_false, Except.ok.injEq, Prod.mk.injEq] at success
      obtain ⟨rfl, -, -⟩ := success
      exact conserved.congr
        (by simp [transfer_of_ne (Ne.symm not_contract) restricting_ne_staking]) rfl rfl
  | some info =>
      simp only [mustGetRestrictingInfo, found] at success
      have bounded := conserved.bounded account info found
      have := bounded.advance_le_cache
      by_cases negative : amount < 0
      · simp [negative] at success
      by_cases zero : amount = 0
      · subst zero
        simp only [lt_self_iff_false, if_false, if_true, Except.ok.injEq, Prod.mk.injEq] at success
        exact success.1 ▸ conserved
      by_cases poor : info.cachePlanAmount - info.advanceAmount + state.balance account < amount
      · simp [negative, zero, poor] at success
      simp only [negative, zero, poor, if_false] at success
      by_cases shortfall : info.cachePlanAmount - info.advanceAmount < amount
      · simp only [shortfall, if_true] at success
        cases stored : (state.transferAmount account stakingContractAddr
            (amount - (info.cachePlanAmount - info.advanceAmount))).storeRestrictingInfo account
            { info with advanceAmount := info.cachePlanAmount } with
        | error failure => simp [stored] at success
        | ok written =>
            simp [stored] at success
            obtain ⟨rfl, -, -⟩ := success
            have lent_all : (state.transferAmount account stakingContractAddr
                (amount - (info.cachePlanAmount - info.advanceAmount))).storeRestrictingInfo account
                { info with advanceAmount :=
                    info.advanceAmount + (info.cachePlanAmount - info.advanceAmount) } =
                  .ok written := by
              rwa [add_sub_cancel]
            exact conserved.lend found lent_all
              (by simp [transfer_of_ne (Ne.symm not_contract) restricting_ne_staking]) rfl rfl
              (by omega) le_rfl
      · simp only [shortfall, if_false] at success
        cases stored : state.storeRestrictingInfo account
            { info with advanceAmount := info.advanceAmount + amount } with
        | error failure => simp [stored] at success
        | ok written =>
            simp only [stored, Except.ok.injEq, Prod.mk.injEq] at success
            obtain ⟨rfl, -, -⟩ := success
            exact conserved.lend found stored rfl rfl rfl (by omega) (by omega)

theorem slashingNotify_conserved {state next : RestrictingState} {account : Address}
    {amount : ℤ} (conserved : Conserved state)
    (success : slashingNotify state account amount = .ok next) : Conserved next := by
  unfold slashingNotify at success
  cases found : state.restrictingInfo account with
  | none => simp [mustGetRestrictingInfo, found] at success
  | some info =>
      simp only [mustGetRestrictingInfo, found] at success
      have bounded := conserved.bounded account info found
      by_cases negative : amount < 0
      · simp [negative] at success
      by_cases zero : amount = 0
      · subst zero
        simp only [lt_self_iff_false, if_false, if_true, Except.ok.injEq] at success
        exact success ▸ conserved
      by_cases empty : info.advanceAmount ≤ 0
      · simp [negative, zero, empty] at success
      by_cases tooMuch : info.advanceAmount < amount
      · simp [negative, zero, empty, tooMuch] at success
      simp only [negative, zero, empty, tooMuch, if_false] at success
      let slashed : RestrictingInfo :=
        { info with
          advanceAmount := info.advanceAmount - amount
          cachePlanAmount := info.cachePlanAmount - amount }
      have slashed_bounded : slashed.Bounded :=
        ⟨bounded.needRelease_nonneg, by simp [slashed]; omega,
          by simp [slashed]; have := bounded.advance_le_cache; omega⟩
      rw [storeOrClear_eq_ok success]
      refine conserved.write (conserved.ne_contract found) _ ?_ 0 (by simp) rfl rfl ?_
      · intro stored stored_eq
        split_ifs at stored_eq
        cases stored_eq
        exact slashed_bounded
      · rw [heldOf_clearable slashed_bounded _ isSpent_cache, found]
        simp [slashed, RestrictingInfo.held]

theorem returnLockFunds_conserved {state next : RestrictingState} {account : Address}
    {amount : ℤ} (conserved : Conserved state)
    (success : returnLockFunds state account amount = .ok next) : Conserved next := by
  unfold returnLockFunds at success
  by_cases zero : amount = 0
  · simp only [zero, if_true, Except.ok.injEq] at success
    exact success ▸ conserved
  by_cases negative : amount < 0
  · simp [zero, negative] at success
  simp only [zero, negative, if_false] at success
  cases found : state.restrictingInfo account with
  | none => simp [mustGetRestrictingInfo, found] at success
  | some info =>
      simp only [mustGetRestrictingInfo, found] at success
      have bounded := conserved.bounded account info found
      have not_contract := conserved.ne_contract found
      by_cases short : info.advanceAmount < amount
      · simp [short] at success
      simp only [short, if_false] at success
      obtain ⟨returned_bounded, returned_held⟩ :=
        returnInfo_spec bounded (by omega) (not_lt.mp short)
      rw [storeOrClear_eq_ok success]
      refine conserved.write not_contract _ ?_ ((returnInfo info amount).2 - amount) ?_ rfl rfl ?_
      · intro stored stored_eq
        split_ifs at stored_eq
        cases stored_eq
        exact returned_bounded
      · simp [transfer_dst (Ne.symm restricting_ne_staking), transfer_src (Ne.symm not_contract)]
        ring
      · rw [heldOf_clearable returned_bounded _ isSpent_cache, found, heldOf_some, returned_held]
        ring

/-! ## Releasing -/

theorem releaseAt_conserved {state next : RestrictingState} {epoch : UInt64} {index : UInt32}
    (conserved : Conserved state) (success : releaseAt epoch state index = .ok next) :
    Conserved next := by
  unfold releaseAt at success
  cases found : state.restrictingInfo (state.releaseAccount (epoch, index)) with
  | none =>
      simp only [mustGetRestrictingInfo, found, Except.ok.injEq] at success
      exact success ▸ conserved
  | some info =>
      simp only [mustGetRestrictingInfo, found] at success
      have not_contract := conserved.ne_contract found
      obtain ⟨released_bounded, released_held⟩ :=
        releaseInfo_spec (conserved.bounded _ info found)
          (Int.natCast_nonneg (state.releaseAmount (epoch, state.releaseAccount (epoch, index))))
      generalize releaseInfo info _ = outcome at success released_bounded released_held
      obtain ⟨released, paid⟩ := outcome
      rw [storeOrClear_eq_ok success]
      have kept_bounded : (released.removeEpoch epoch).Bounded :=
        ⟨by simpa using released_bounded.needRelease_nonneg,
          by simpa using released_bounded.advanceAmount_nonneg,
          by simpa using released_bounded.advance_le_cache⟩
      refine conserved.write not_contract _ ?_ paid ?_ rfl rfl ?_
      · intro stored stored_eq
        split_ifs at stored_eq
        cases stored_eq
        exact kept_bounded
      · simp [transfer_src (Ne.symm not_contract)]
      · rw [heldOf_clearable kept_bounded _ isReleased_cache, found, heldOf_some]
        simpa [RestrictingInfo.held] using released_held

theorem releaseLoop_conserved {epoch : UInt64} (count : ℕ) {state next : RestrictingState}
    (conserved : Conserved state) (success : releaseLoop epoch count state = .ok next) :
    Conserved next := by
  induction count generalizing state with
  | zero =>
      simp only [releaseLoop, Except.ok.injEq] at success
      exact success ▸ conserved
  | succ count ih =>
      rw [releaseLoop] at success
      cases released : releaseAt epoch state (UInt32.ofNat (count + 1)) with
      | error failure => rw [released] at success; cases success
      | ok mid =>
          rw [released] at success
          exact ih (releaseAt_conserved conserved released) success

theorem releaseRestricting_conserved {state next : RestrictingState} {epoch : UInt64}
    (conserved : Conserved state) (success : releaseRestricting state epoch = .ok next) :
    Conserved next := by
  unfold releaseRestricting at success
  by_cases none_due : state.releaseEpochNumber epoch = 0
  · simp only [none_due, if_true, Except.ok.injEq] at success
    exact success ▸ conserved
  simp only [none_due, if_false] at success
  cases looped : releaseLoop epoch (state.releaseEpochNumber epoch).toNat state with
  | error failure => simp [looped] at success
  | ok mid =>
      simp only [looped, Except.ok.injEq] at success
      subst success
      exact (releaseLoop_conserved _ conserved looped).congr rfl rfl rfl

/-! ## Creating plans -/

theorem mergeAmountLoop_total_nonneg {latestEpoch : UInt64} {minimumAmount : ℤ}
    (plans : List RestrictingPlan) {totalAmount : ℤ} {planMap : List (UInt64 × ℤ)}
    {result : ℤ × List (UInt64 × ℤ)} (nonneg : 0 ≤ totalAmount)
    (success : mergeAmountLoop latestEpoch minimumAmount totalAmount planMap plans = .ok result) :
    0 ≤ result.1 := by
  induction plans generalizing totalAmount planMap with
  | nil =>
      simp only [mergeAmountLoop, Except.ok.injEq] at success
      exact success ▸ nonneg
  | cons plan plans ih =>
      simp only [mergeAmountLoop] at success
      split_ifs at success with epoch_zero not_positive below_minimum
      exact ih (by omega) success

theorem mergeAmount_total_nonneg {blocksEachEpoch blockNum : UInt64}
    {minimumAmount : Except RestrictingError ℤ} {plans : List RestrictingPlan}
    {result : ℤ × List (UInt64 × ℤ)}
    (success : mergeAmount blocksEachEpoch blockNum minimumAmount plans = .ok result) :
    0 ≤ result.1 := by
  unfold mergeAmount at success
  cases minimumAmount with
  | error failure => cases success
  | ok minimum => exact mergeAmountLoop_total_nonneg plans le_rfl success

theorem foldl_initEpochInfo_frame (account : Address) (planMap : List (UInt64 × ℤ))
    (state : RestrictingState) :
    let scheduled :=
      planMap.foldl (fun current entry => initEpochInfo current entry.1 account entry.2) state
    scheduled.balance = state.balance ∧ scheduled.restrictingInfo = state.restrictingInfo ∧
      scheduled.genesisAllowancePlans = state.genesisAllowancePlans := by
  induction planMap generalizing state with
  | nil => simp
  | cons entry planMap ih => simpa using ih (initEpochInfo state entry.1 account entry.2)

theorem foldl_scheduleRelease_frame (account : Address) (planMap : List (UInt64 × ℤ))
    (start : RestrictingState × RestrictingInfo) :
    let scheduled := planMap.foldl (scheduleRelease account) start
    scheduled.1.balance = start.1.balance ∧
      scheduled.1.restrictingInfo = start.1.restrictingInfo ∧
      scheduled.1.genesisAllowancePlans = start.1.genesisAllowancePlans ∧
      scheduled.2.needRelease = start.2.needRelease ∧
      scheduled.2.advanceAmount = start.2.advanceAmount ∧
      scheduled.2.cachePlanAmount = start.2.cachePlanAmount := by
  induction planMap generalizing start with
  | nil => simp
  | cons entry planMap ih =>
      obtain ⟨state, info⟩ := start
      obtain ⟨epoch, amount⟩ := entry
      have step := ih (scheduleRelease account (state, info) (epoch, amount))
      simp only [List.foldl_cons]
      by_cases fresh : state.releaseAmount (epoch, account) = 0 <;>
        simpa [scheduleRelease, fresh] using step

/-- The debt branch of `AddRestrictingRecord` pays out of the contract exactly what it takes off
the record's holding increase. -/
theorem payNeedRelease_spec (state : RestrictingState) {account : Address}
    (not_contract : account ≠ restrictingContractAddr) {info : RestrictingInfo}
    (bounded : info.Bounded) {totalAmount : ℤ} (nonneg : 0 ≤ totalAmount) :
    let settled := payNeedRelease state account info totalAmount
    settled.1.restrictingInfo = state.restrictingInfo ∧
      settled.1.genesisAllowancePlans = state.genesisAllowancePlans ∧ settled.2.Bounded ∧
      ∃ paid, settled.1.balance restrictingContractAddr =
          state.balance restrictingContractAddr - paid ∧
        settled.2.held = info.held + totalAmount - paid := by
  have := bounded.needRelease_nonneg
  have := bounded.advanceAmount_nonneg
  have := bounded.advance_le_cache
  have leaves : ∀ amount, transfer state.balance restrictingContractAddr account amount
      restrictingContractAddr = state.balance restrictingContractAddr - amount :=
    transfer_src (Ne.symm not_contract)
  unfold payNeedRelease
  split_ifs with owing settles
  · refine ⟨rfl, rfl, ⟨by dsimp only; omega, bounded.advanceAmount_nonneg, by dsimp only; omega⟩,
      totalAmount, by simp [leaves], by simp [RestrictingInfo.held]⟩
  · refine ⟨rfl, rfl, ⟨le_rfl, bounded.advanceAmount_nonneg, by dsimp only; omega⟩,
      info.needRelease, by simp [leaves], by simp [RestrictingInfo.held]; ring⟩
  · refine ⟨rfl, rfl, ⟨bounded.needRelease_nonneg, bounded.advanceAmount_nonneg,
      by dsimp only; omega⟩, 0, by simp, by simp [RestrictingInfo.held]; ring⟩

theorem addRestrictingRecord_conserved {blocksEachEpoch : UInt64} {state next : RestrictingState}
    {sender account : Address} {blockNum : UInt64} {minimumAmount : Except RestrictingError ℤ}
    {plans : List RestrictingPlan} {txhash : Hash} (conserved : Conserved state)
    (sender_ne : sender ≠ restrictingContractAddr) (account_ne : account ≠ restrictingContractAddr)
    (success : addRestrictingRecord blocksEachEpoch state sender account blockNum minimumAmount
      plans txhash = .ok next) : Conserved next := by
  unfold addRestrictingRecord at success
  by_cases count : plans.length = 0 ∨ restrictTxPlanSize < plans.length
  · rw [if_pos count] at success
    cases success
  rw [if_neg count] at success
  cases merged : mergeAmount blocksEachEpoch blockNum minimumAmount plans with
  | error failure => simp [merged] at success
  | ok result =>
      obtain ⟨totalAmount, planMap⟩ := result
      have total_nonneg : 0 ≤ totalAmount := mergeAmount_total_nonneg merged
      simp only [merged] at success
      by_cases poor : state.balance sender < totalAmount
      · simp [poor] at success
      simp only [poor, if_false] at success
      by_cases unsent : txhash = zeroHash
      · simp only [unsent, if_true, Except.ok.injEq] at success
        exact success ▸ conserved
      simp only [unsent, if_false, transferAmount_restrictingInfo] at success
      have funded : (state.transferAmount sender restrictingContractAddr totalAmount).balance
          restrictingContractAddr = state.balance restrictingContractAddr + totalAmount := by
        simp [transfer_dst sender_ne]
      cases found : state.restrictingInfo account with
      | none =>
          simp only [found] at success
          obtain ⟨-, rfl⟩ := storeRestrictingInfo_eq_ok.mp success
          obtain ⟨scheduled_balance, scheduled_records, scheduled_genesis⟩ :=
            foldl_initEpochInfo_frame account planMap
              (state.transferAmount sender restrictingContractAddr totalAmount)
          refine conserved.write account_ne
            (some { cachePlanAmount := totalAmount, needRelease := 0, advanceAmount := 0,
                    releaseList := sortReleaseList (planMap.map Prod.fst) })
            ?_ (-totalAmount) ?_ ?_ ?_ ?_
          · rintro _ ⟨⟩
            exact ⟨le_rfl, le_rfl, by dsimp only; omega⟩
          · simp [scheduled_balance, funded]
          · simp [scheduled_records]
          · simp [scheduled_genesis]
          · simp [found, RestrictingInfo.held]
      | some info =>
          simp only [found] at success
          obtain ⟨settled_records, settled_genesis, settled_bounded, paid, settled_balance,
            settled_held⟩ :=
            payNeedRelease_spec (state.transferAmount sender restrictingContractAddr totalAmount)
              account_ne (conserved.bounded account info found) total_nonneg
          set settled := payNeedRelease (state.transferAmount sender restrictingContractAddr
            totalAmount) account info totalAmount
          obtain ⟨scheduled_balance, scheduled_records, scheduled_genesis, scheduled_debt,
            scheduled_lent, scheduled_cache⟩ := foldl_scheduleRelease_frame account planMap settled
          set scheduled := planMap.foldl (scheduleRelease account) settled
          obtain ⟨-, rfl⟩ := storeRestrictingInfo_eq_ok.mp success
          refine conserved.write account_ne
            (some { scheduled.2 with releaseList := sortReleaseList scheduled.2.releaseList }) ?_
            (paid - totalAmount) ?_ ?_ ?_ ?_
          · rintro _ ⟨⟩
            exact ⟨by simpa [scheduled_debt] using settled_bounded.needRelease_nonneg,
              by simpa [scheduled_lent] using settled_bounded.advanceAmount_nonneg,
              by simpa [scheduled_lent, scheduled_cache] using settled_bounded.advance_le_cache⟩
          · simp only [scheduled_balance, settled_balance, funded]
            ring
          · simp [scheduled_records, settled_records]
          · simp [scheduled_genesis, settled_genesis]
          · simp only [heldOf_some, found, RestrictingInfo.held, scheduled_lent, scheduled_cache]
            simp only [RestrictingInfo.held] at settled_held
            rw [settled_held]
            ring

/-! ## Genesis allowances -/

theorem releaseGenesisRestrictingPlans_conserved {state next : RestrictingState}
    (conserved : Conserved state) (success : releaseGenesisRestrictingPlans state = .ok next) :
    Conserved next := by
  unfold releaseGenesisRestrictingPlans at success
  cases plans : state.genesisAllowancePlans with
  | none =>
      simp only [plans, Except.ok.injEq] at success
      exact success ▸ conserved
  | some allowances =>
      cases allowances with
      | nil =>
          simp only [plans, Except.ok.injEq] at success
          subst success
          have balance_eq := conserved.balance_eq
          simp only [genesisRemaining, plans] at balance_eq
          exact ⟨by simpa [genesisRemaining, totalHeld] using balance_eq,
            conserved.bounded, by simp, conserved.contract_unrecorded⟩
      | cons allowance rest =>
          simp only [plans, Except.ok.injEq] at success
          subst success
          have balance_eq := conserved.balance_eq
          have nonneg := conserved.genesis_nonneg
          simp only [genesisRemaining, plans, Option.getD_some, List.sum_cons] at balance_eq nonneg
          refine ⟨?_, conserved.bounded, ?_, conserved.contract_unrecorded⟩
          · simp [genesisRemaining, totalHeld, transfer_src restricting_ne_rewardPool, balance_eq]
            ring
          · simpa using fun other member => nonneg other (List.mem_cons_of_mem _ member)

theorem genesisAllowancePlans_sum : genesisAllowancePlans.sum = 259096239 * 10 ^ 18 := by
  norm_num [genesisAllowancePlans]

theorem initGenesisRestrictingPlans_conserved {cdfAccount : Address}
    (cdf_ne : cdfAccount ≠ restrictingContractAddr) {state : RestrictingState}
    (empty : state.balance restrictingContractAddr = 0)
    (unrecorded : ∀ account, state.restrictingInfo account = none) :
    Conserved (initGenesisRestrictingPlans cdfAccount state) where
  balance_eq := by
    simp [initGenesisRestrictingPlans, genesisRemaining, totalHeld, unrecorded,
      transfer_dst cdf_ne, transfer_of_ne (Ne.symm cdf_ne) restricting_ne_rewardPool, empty,
      genesisAllowancePlans_sum]
  bounded := by simp [initGenesisRestrictingPlans, unrecorded]
  genesis_nonneg := by
    simp only [initGenesisRestrictingPlans, Option.getD_some]
    decide
  contract_unrecorded := unrecorded restrictingContractAddr

/-! ## Runs -/

/-- An operation is admissible when it names the contract neither as sender nor as account. -/
def RestrictingOp.Admissible (op : RestrictingOp) : Prop :=
  ∀ account ∈ op.accounts, account ≠ restrictingContractAddr

-- checked along the list: the instance search would otherwise enumerate all addresses
instance (op : RestrictingOp) : Decidable op.Admissible :=
  List.decidableBAll (fun account => account ≠ restrictingContractAddr) op.accounts

theorem RestrictingOp.step_conserved (blocksEachEpoch : UInt64) (op : RestrictingOp)
    (state next : RestrictingState) (admissible : op.Admissible) (conserved : Conserved state)
    (success : op.step blocksEachEpoch state = .ok next) : Conserved next := by
  cases op with
  | addRestrictingRecord sender account blockNum minimumAmount plans txhash =>
      exact addRestrictingRecord_conserved conserved
        (admissible sender (by simp [RestrictingOp.accounts]))
        (admissible account (by simp [RestrictingOp.accounts])) success
  | advanceLockedFunds account amount => exact advanceLockedFunds_conserved conserved success
  | mixAdvanceLockedFunds account amount =>
      obtain ⟨⟨mid, forRestricting, forFree⟩, mixed, rfl⟩ := Rollback.map_eq_ok.mp success
      exact mixAdvanceLockedFunds_conserved conserved
        (admissible account (by simp [RestrictingOp.accounts])) mixed
  | returnLockFunds account amount => exact returnLockFunds_conserved conserved success
  | slashingNotify account amount => exact slashingNotify_conserved conserved success
  | releaseRestricting epoch => exact releaseRestricting_conserved conserved success
  | releaseGenesisRestrictingPlans => exact releaseGenesisRestrictingPlans_conserved conserved success

theorem run_conserved (blocksEachEpoch : UInt64) (ops : List RestrictingOp)
    (admissible : ∀ op ∈ ops, op.Admissible) {state : RestrictingState}
    (conserved : Conserved state) :
    Conserved (Rollback.run (RestrictingOp.step blocksEachEpoch) ops state) :=
  Rollback.run_invariant (RestrictingOp.step_conserved blocksEachEpoch) ops admissible conserved

/-- Restricting accounting from genesis: after any run of admissible operations the contract's
balance is the unpaid genesis allowances plus the locked funds not lent out, it is never negative,
and every record keeps its bounds. -/
theorem restricting_conserved_from_genesis (blocksEachEpoch : UInt64) {cdfAccount : Address}
    (cdf_ne : cdfAccount ≠ restrictingContractAddr) {genesis : RestrictingState}
    (empty : genesis.balance restrictingContractAddr = 0)
    (unrecorded : ∀ account, genesis.restrictingInfo account = none)
    (ops : List RestrictingOp) (admissible : ∀ op ∈ ops, op.Admissible) :
    let final := Rollback.run (RestrictingOp.step blocksEachEpoch) ops
      (initGenesisRestrictingPlans cdfAccount genesis)
    final.balance restrictingContractAddr = genesisRemaining final + totalHeld final ∧
      0 ≤ final.balance restrictingContractAddr ∧
      ∀ account info, final.restrictingInfo account = some info → info.Bounded := by
  intro final
  have conserved : Conserved final := run_conserved blocksEachEpoch ops admissible
    (initGenesisRestrictingPlans_conserved cdf_ne empty unrecorded)
  exact ⟨conserved.balance_eq, conserved.balance_nonneg, conserved.bounded⟩

/-- A chain on which the restricting contract has not run yet, with the given balances. -/
def RestrictingState.fresh (balance : Address → ℤ) : RestrictingState where
  balance := balance
  restrictingInfo _ := none
  releaseEpochNumber _ := 0
  releaseAccount _ := zeroAddress
  releaseAmount _ := 0
  genesisAllowancePlans := none

/-- The foundation account of the sample runs. -/
def sampleFoundation : Address := 0xBB#160

/-- The plan creator of the sample runs. -/
def sampleSender : Address := 0xAA#160

/-- The plan account of the sample runs. -/
def sampleAccount : Address := 0xAB#160

/-- The chain of the sample runs before genesis: only the plan creator holds funds. -/
def sampleChain : RestrictingState := RestrictingState.fresh (Function.update 0 sampleSender 100)

/-- A run of every kind of operation from genesis. -/
theorem restricting_conserved_from_genesis_run :
    let final := Rollback.run (RestrictingOp.step 250)
      [.releaseGenesisRestrictingPlans,
        .addRestrictingRecord sampleSender sampleAccount 1 (.ok 1) [⟨1, 10⟩, ⟨2, 5⟩] 1#256,
        .advanceLockedFunds sampleAccount 12, .releaseRestricting 1,
        .slashingNotify sampleAccount 2, .returnLockFunds sampleAccount 10,
        .mixAdvanceLockedFunds sampleAccount 4]
      (initGenesisRestrictingPlans sampleFoundation sampleChain)
    final.balance restrictingContractAddr = genesisRemaining final + totalHeld final ∧
      0 ≤ final.balance restrictingContractAddr ∧
      ∀ account info, final.restrictingInfo account = some info → info.Bounded :=
  restricting_conserved_from_genesis 250 (by decide) (by decide) (fun _ => rfl) _ (by decide)

theorem contract_plan_released :
    let final := Rollback.run (RestrictingOp.step 250)
      [.addRestrictingRecord sampleSender restrictingContractAddr 1 (.ok 1) [⟨1, 10⟩] 1#256,
        .releaseRestricting 1]
      (initGenesisRestrictingPlans sampleFoundation sampleChain)
    (∀ account, final.restrictingInfo account = none) ∧
      final.balance restrictingContractAddr = 259096239 * 10 ^ 18 + 10 := by
  intro final
  obtain ⟨created, records⟩ : ∃ created, final.restrictingInfo =
      Function.update (Function.update (fun _ => none) restrictingContractAddr (some created))
        restrictingContractAddr none := ⟨_, by rfl⟩
  refine ⟨fun account => ?_, by decide⟩
  rw [records, Function.update_idem, Function.update_apply]
  split_ifs <;> rfl

/-- With the contract itself as a plan's account, the release pays the contract to itself: its
balance keeps the released funds while the record that accounted for them is deleted. -/
theorem restricting_conservation_fails_for_contract_account :
    let final := Rollback.run (RestrictingOp.step 250)
      [.addRestrictingRecord sampleSender restrictingContractAddr 1 (.ok 1) [⟨1, 10⟩] 1#256,
        .releaseRestricting 1]
      (initGenesisRestrictingPlans sampleFoundation sampleChain)
    final.balance restrictingContractAddr ≠ genesisRemaining final + totalHeld final := by
  intro final
  obtain ⟨deleted, balance⟩ : (∀ account, final.restrictingInfo account = none) ∧
      final.balance restrictingContractAddr = 259096239 * 10 ^ 18 + 10 := contract_plan_released
  have total : totalHeld final = 0 := by
    simp [totalHeld, deleted]
  have plans : final.genesisAllowancePlans = some genesisAllowancePlans := by decide
  rw [balance, total, genesisRemaining, plans, Option.getD_some, genesisAllowancePlans_sum]
  omega

end Restricting
end Bubble
