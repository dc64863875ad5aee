import Bubble.Restricting.State

/-!
# The restricting plugin

The operations of `x/plugin/restricting_plugin.go` as functions on `RestrictingState`.  Go's
in-place `big.Int` updates become record updates, and each function returns the state or the
error the Go function returns.  `AddRestrictingRecord` iterates over a Go map of plans in random
order; every iteration touches only the slots of its own epoch and appends to `ReleaseList`, which
is sorted afterwards, so the model iterates in insertion order without loss.
-/

namespace Bubble
namespace Restricting

open Ledger RestrictingState

/-! ## Creating a plan -/

/-- Add `amount` to the entry of `epoch` in the plan map, or append a new entry. -/
def addPlan : List (UInt64 × ℤ) → UInt64 → ℤ → List (UInt64 × ℤ)
  | [], epoch, amount => [(epoch, amount)]
  | (key, value) :: rest, epoch, amount =>
      if key = epoch then (key, amount + value) :: rest
      else (key, value) :: addPlan rest epoch amount

/-- The loop of `mergeAmount`: each plan is checked, counted, and filed under the epoch
`epoch + latestEpoch - 1` (in `uint64` arithmetic). -/
def mergeAmountLoop (latestEpoch : UInt64) (minimumAmount : ℤ) :
    ℤ → List (UInt64 × ℤ) → List RestrictingPlan →
      Except RestrictingError (ℤ × List (UInt64 × ℤ))
  | totalAmount, planMap, [] => .ok (totalAmount, planMap)
  | totalAmount, planMap, plan :: plans =>
      if plan.epoch = 0 then .error .errParamEpochInvalid
      else if plan.amount ≤ 0 then .error .errCreatePlanAmountLessThanZero
      else if plan.amount < minimumAmount then .error .errCreatePlanAmountLessThanMiniAmount
      else
        mergeAmountLoop latestEpoch minimumAmount (totalAmount + plan.amount)
          (addPlan planMap (plan.epoch + latestEpoch - 1) plan.amount) plans

/-- `mergeAmount`: the total of the plans and their amounts per release epoch.  The governance
parameter `RestrictingMinimumAmount` is passed as read, failure included. -/
def mergeAmount (blocksEachEpoch blockNum : UInt64) (minimumAmount : Except RestrictingError ℤ)
    (plans : List RestrictingPlan) : Except RestrictingError (ℤ × List (UInt64 × ℤ)) :=
  match minimumAmount with
  | .error failure => .error failure
  | .ok minimum => mergeAmountLoop (calculateEpoch blocksEachEpoch blockNum) minimum 0 [] plans

/-- `initEpochInfo`: give the account the next index at the epoch and record its amount. -/
def initEpochInfo (state : RestrictingState) (epoch : UInt64) (account : Address) (amount : ℤ) :
    RestrictingState :=
  let index := state.releaseEpochNumber epoch + 1
  { state with
    releaseEpochNumber := Function.update state.releaseEpochNumber epoch index
    releaseAccount := Function.update state.releaseAccount (epoch, index) account
    releaseAmount := Function.update state.releaseAmount (epoch, account) amount.natAbs }

@[simp]
theorem initEpochInfo_balance (state : RestrictingState) (epoch : UInt64) (account : Address)
    (amount : ℤ) : (initEpochInfo state epoch account amount).balance = state.balance := rfl

@[simp]
theorem initEpochInfo_restrictingInfo (state : RestrictingState) (epoch : UInt64)
    (account : Address) (amount : ℤ) :
    (initEpochInfo state epoch account amount).restrictingInfo = state.restrictingInfo := rfl

@[simp]
theorem initEpochInfo_genesisAllowancePlans (state : RestrictingState) (epoch : UInt64)
    (account : Address) (amount : ℤ) :
    (initEpochInfo state epoch account amount).genesisAllowancePlans =
      state.genesisAllowancePlans := rfl

/-- The `NeedRelease` branch of `AddRestrictingRecord` for an existing record: new funds first
settle the debt, which goes to the account at once, and only the rest is locked. -/
def payNeedRelease (state : RestrictingState) (account : Address) (info : RestrictingInfo)
    (totalAmount : ℤ) : RestrictingState × RestrictingInfo :=
  if 0 < info.needRelease then
    if totalAmount ≤ info.needRelease then
      (state.transferAmount restrictingContractAddr account totalAmount,
        { info with needRelease := info.needRelease - totalAmount })
    else
      (state.transferAmount restrictingContractAddr account info.needRelease,
        { info with
          cachePlanAmount := info.cachePlanAmount + (totalAmount - info.needRelease)
          needRelease := 0 })
  else (state, { info with cachePlanAmount := info.cachePlanAmount + totalAmount })

/-- One iteration of the plan loop of `AddRestrictingRecord` for an existing record: a new epoch
gets an index, an epoch already scheduled for the account has its amount raised. -/
def scheduleRelease (account : Address) (current : RestrictingState × RestrictingInfo)
    (entry : UInt64 × ℤ) : RestrictingState × RestrictingInfo :=
  let (state, info) := current
  let (epoch, releaseAmount) := entry
  let currentAmount := state.releaseAmount (epoch, account)
  if currentAmount = 0 then
    (initEpochInfo state epoch account releaseAmount,
      { info with releaseList := info.releaseList ++ [epoch] })
  else
    ({ state with
        releaseAmount := Function.update state.releaseAmount (epoch, account)
          ((currentAmount : ℤ) + releaseAmount).natAbs },
      info)

/-- `sort.Slice` on `ReleaseList`: the sorted permutation of a list of numbers is unique, so any
sorting algorithm gives Go's result. -/
def sortReleaseList (epochs : List UInt64) : List UInt64 :=
  epochs.mergeSort (fun left right => decide (left ≤ right))

/-- `AddRestrictingRecord`.  `blocksEachEpoch` is `CalcBlocksEachEpoch()`; a zero transaction hash
stops after the checks, as in the Go code. -/
def addRestrictingRecord (blocksEachEpoch : UInt64) (state : RestrictingState)
    (sender account : Address) (blockNum : UInt64) (minimumAmount : Except RestrictingError ℤ)
    (plans : List RestrictingPlan) (txhash : Hash) : Except RestrictingError RestrictingState :=
  if plans.length = 0 ∨ restrictTxPlanSize < plans.length then .error .errCountRestrictPlansInvalid
  else
    match mergeAmount blocksEachEpoch blockNum minimumAmount plans with
    | .error failure => .error failure
    | .ok (totalAmount, planMap) =>
        if state.balance sender < totalAmount then .error .errBalanceNotEnough
        else if txhash = zeroHash then .ok state
        else
          let state := state.transferAmount sender restrictingContractAddr totalAmount
          match state.restrictingInfo account with
          | none =>
              let state := planMap.foldl
                (fun current entry => initEpochInfo current entry.1 account entry.2) state
              state.storeRestrictingInfo account
                { cachePlanAmount := totalAmount
                  needRelease := 0
                  advanceAmount := 0
                  releaseList := sortReleaseList (planMap.map Prod.fst) }
          | some info =>
              let settled := payNeedRelease state account info totalAmount
              let (state, info) := planMap.foldl (scheduleRelease account) settled
              state.storeRestrictingInfo account
                { info with releaseList := sortReleaseList info.releaseList }

/-! ## Lending to and from the staking contract -/

/-- `AdvanceLockedFunds`: lend locked funds to the staking contract. -/
def advanceLockedFunds (state : RestrictingState) (account : Address) (amount : ℤ) :
    Except RestrictingError RestrictingState :=
  match state.mustGetRestrictingInfo account with
  | .error failure => .error failure
  | .ok info =>
      if amount < 0 then .error .errAdvanceLockedFundsAmountLessThanZero
      else if amount = 0 then .ok state
      else if info.cachePlanAmount - info.advanceAmount < amount then
        .error .errRestrictBalanceNotEnough
      else
        match state.storeRestrictingInfo account
            { info with advanceAmount := info.advanceAmount + amount } with
        | .error failure => .error failure
        | .ok state => .ok (state.transferAmount restrictingContractAddr stakingContractAddr amount)

/-- `MixAdvanceLockedFunds`: stake `amount`, locked funds first and free balance for the rest.
Returns the state and the parts `(forRestricting, forFree)`. -/
def mixAdvanceLockedFunds (state : RestrictingState) (account : Address) (amount : ℤ) :
    Except RestrictingError (RestrictingState × ℤ × ℤ) :=
  match state.mustGetRestrictingInfo account with
  | .error .errAccountNotFound =>
      -- no restricting record: the whole amount comes from the free balance
      if state.balance account < amount then .error .errAccountVonNoEnough
      else .ok (state.transferAmount account stakingContractAddr amount, 0, amount)
  | .error failure => .error failure
  | .ok info =>
      if amount < 0 then .error .errAdvanceLockedFundsAmountLessThanZero
      else if amount = 0 then .ok (state, amount, amount)
      else
        let canStakingRestricting := info.cachePlanAmount - info.advanceAmount
        let canStakingFree := state.balance account
        if canStakingRestricting + canStakingFree < amount then
          .error .errRestrictBalanceAndFreeNotEnough
        else
          let (state, forRestricting, forFree) :=
            if canStakingRestricting < amount then
              (state.transferAmount account stakingContractAddr (amount - canStakingRestricting),
                canStakingRestricting, amount - canStakingRestricting)
            else (state, amount, 0)
          match state.storeRestrictingInfo account
              { info with advanceAmount := info.advanceAmount + forRestricting } with
          | .error failure => .error failure
          | .ok state =>
              .ok (state.transferAmount restrictingContractAddr stakingContractAddr forRestricting,
                forRestricting, forFree)

/-- The record arithmetic of `ReturnLockFunds`: returned funds first pay `NeedRelease`. Returns
the record and the amount paid to the account. -/
def returnInfo (info : RestrictingInfo) (amount : ℤ) : RestrictingInfo × ℤ :=
  let (info, paid) :=
    if 0 < info.needRelease then
      if amount ≤ info.needRelease then
        ({ info with
            needRelease := info.needRelease - amount
            cachePlanAmount := info.cachePlanAmount - amount }, amount)
      else
        ({ info with
            cachePlanAmount := info.cachePlanAmount - info.needRelease
            needRelease := 0 }, info.needRelease)
    else (info, 0)
  ({ info with advanceAmount := info.advanceAmount - amount }, paid)

/-- The deletion test shared by `ReturnLockFunds` and `SlashingNotify`. -/
def RestrictingInfo.isSpent (info : RestrictingInfo) : Bool :=
  info.advanceAmount = 0 && info.releaseList.isEmpty && info.cachePlanAmount = 0

/-- Clear the record's slot when `clear` holds, else store the record: the end of
`ReturnLockFunds`, `SlashingNotify` and each iteration of `releaseRestricting`, which differ in
their deletion test. -/
def storeOrClear (state : RestrictingState) (account : Address) (info : RestrictingInfo)
    (clear : Bool) : Except RestrictingError RestrictingState :=
  if clear then .ok (state.clearRestrictingInfo account)
  else state.storeRestrictingInfo account info

/-- `ReturnLockFunds`: the staking contract gives locked funds back. -/
def returnLockFunds (state : RestrictingState) (account : Address) (amount : ℤ) :
    Except RestrictingError RestrictingState :=
  if amount = 0 then .ok state
  else if amount < 0 then .error .errReturnLockFundsAmountLessThanZero
  else
    match state.mustGetRestrictingInfo account with
    | .error failure => .error failure
    | .ok info =>
        if info.advanceAmount < amount then .error .errStakingAmountInvalid
        else
          let state := state.transferAmount stakingContractAddr restrictingContractAddr amount
          let (info, paid) := returnInfo info amount
          storeOrClear (state.transferAmount restrictingContractAddr account paid) account info
            info.isSpent

/-- `SlashingNotify`: slashed staking funds are written off the record. -/
def slashingNotify (state : RestrictingState) (account : Address) (amount : ℤ) :
    Except RestrictingError RestrictingState :=
  match state.mustGetRestrictingInfo account with
  | .error failure => .error failure
  | .ok info =>
      if amount < 0 then .error .errSlashingAmountLessThanZero
      else if amount = 0 then .ok state
      else if info.advanceAmount ≤ 0 then .error .errStakingAmountEmpty
      else if info.advanceAmount < amount then .error .errSlashingTooMuch
      else
        let info :=
          { info with
            advanceAmount := info.advanceAmount - amount
            cachePlanAmount := info.cachePlanAmount - amount }
        storeOrClear state account info info.isSpent

/-! ## Releasing -/

/-- The record arithmetic of `releaseRestricting`: with a debt outstanding the release only adds
to it; otherwise the unlocked part is paid and the shortfall becomes debt.  Returns the record and
the amount paid to the account. -/
def releaseInfo (info : RestrictingInfo) (releaseAmount : ℤ) : RestrictingInfo × ℤ :=
  if 0 < info.needRelease then
    ({ info with needRelease := info.needRelease + releaseAmount }, 0)
  else
    let canRelease := info.cachePlanAmount - info.advanceAmount
    if releaseAmount ≤ canRelease then
      ({ info with cachePlanAmount := info.cachePlanAmount - releaseAmount }, releaseAmount)
    else
      ({ info with
          needRelease := info.needRelease + (releaseAmount - canRelease)
          cachePlanAmount := info.cachePlanAmount - canRelease }, canRelease)

/-- `RestrictingInfo.RemoveEpoch`: drop the first occurrence of the epoch. -/
def RestrictingInfo.removeEpoch (info : RestrictingInfo) (epoch : UInt64) : RestrictingInfo :=
  { info with releaseList := info.releaseList.erase epoch }

@[simp]
theorem RestrictingInfo.removeEpoch_needRelease (info : RestrictingInfo) (epoch : UInt64) :
    (info.removeEpoch epoch).needRelease = info.needRelease := rfl

@[simp]
theorem RestrictingInfo.removeEpoch_advanceAmount (info : RestrictingInfo) (epoch : UInt64) :
    (info.removeEpoch epoch).advanceAmount = info.advanceAmount := rfl

@[simp]
theorem RestrictingInfo.removeEpoch_cachePlanAmount (info : RestrictingInfo) (epoch : UInt64) :
    (info.removeEpoch epoch).cachePlanAmount = info.cachePlanAmount := rfl

/-- The deletion test of `releaseRestricting`. -/
def RestrictingInfo.isReleased (info : RestrictingInfo) : Bool :=
  info.cachePlanAmount = 0 && (info.needRelease = 0 || info.releaseList.isEmpty)

/-- One iteration of the loop of `releaseRestricting`, at `index`. -/
def releaseAt (epoch : UInt64) (state : RestrictingState) (index : UInt32) :
    Except RestrictingError RestrictingState :=
  let account := state.releaseAccount (epoch, index)
  match state.mustGetRestrictingInfo account with
  | .error _ => .ok state
  | .ok info =>
      let (info, paid) := releaseInfo info (state.releaseAmount (epoch, account))
      let state := state.transferAmount restrictingContractAddr account paid
      let state :=
        { state with
          releaseAmount := Function.update state.releaseAmount (epoch, account) 0
          releaseAccount := Function.update state.releaseAccount (epoch, index) zeroAddress }
      let info := info.removeEpoch epoch
      storeOrClear state account info info.isReleased

/-- The loop of `releaseRestricting`, from index `count` down to `1`. -/
def releaseLoop (epoch : UInt64) : ℕ → RestrictingState → Except RestrictingError RestrictingState
  | 0, state => .ok state
  | count + 1, state =>
      match releaseAt epoch state (UInt32.ofNat (count + 1)) with
      | .error failure => .error failure
      | .ok state => releaseLoop epoch count state

/-- `releaseRestricting`: release every plan due at the epoch. -/
def releaseRestricting (state : RestrictingState) (epoch : UInt64) :
    Except RestrictingError RestrictingState :=
  let numbers := state.releaseEpochNumber epoch
  if numbers = 0 then .ok state
  else
    match releaseLoop epoch numbers.toNat state with
    | .error failure => .error failure
    | .ok state =>
        .ok { state with releaseEpochNumber := Function.update state.releaseEpochNumber epoch 0 }

/-! ## Genesis allowances -/

/-- The genesis allowance list of `InitGenesisRestrictingPlans`, one entry per year. -/
def genesisAllowancePlans : List ℤ :=
  [55965742, 49559492, 42993086, 36262520, 29363689, 22292388, 15044304, 7615018].map
    (· * 10 ^ 18)

/-- `InitGenesisRestrictingPlans`: the CDF account funds the first release and the restricting
contract. -/
def initGenesisRestrictingPlans (cdfAccount : Address) (state : RestrictingState) :
    RestrictingState :=
  let state := state.transferAmount cdfAccount rewardManagerPoolAddr (62215742 * 10 ^ 18)
  let state := state.transferAmount cdfAccount restrictingContractAddr (259096239 * 10 ^ 18)
  { state with genesisAllowancePlans := some genesisAllowancePlans }

/-- `releaseGenesisRestrictingPlans`: pay the first remaining allowance to the reward pool. -/
def releaseGenesisRestrictingPlans (state : RestrictingState) :
    Except RestrictingError RestrictingState :=
  match state.genesisAllowancePlans with
  | none => .ok state
  | some [] => .ok { state with genesisAllowancePlans := none }
  | some (allowance :: rest) =>
      .ok { state.transferAmount restrictingContractAddr rewardManagerPoolAddr allowance with
            genesisAllowancePlans := some rest }

/-! ## Operations -/

/-- The restricting operations, with their arguments. -/
inductive RestrictingOp
  | addRestrictingRecord (sender account : Address) (blockNum : UInt64)
      (minimumAmount : Except RestrictingError ℤ) (plans : List RestrictingPlan) (txhash : Hash)
  | advanceLockedFunds (account : Address) (amount : ℤ)
  | mixAdvanceLockedFunds (account : Address) (amount : ℤ)
  | returnLockFunds (account : Address) (amount : ℤ)
  | slashingNotify (account : Address) (amount : ℤ)
  | releaseRestricting (epoch : UInt64)
  | releaseGenesisRestrictingPlans

/-- One operation on the state; the values `MixAdvanceLockedFunds` returns are dropped. -/
def RestrictingOp.step (blocksEachEpoch : UInt64) :
    RestrictingOp → RestrictingState → Except RestrictingError RestrictingState
  | .addRestrictingRecord sender account blockNum minimumAmount plans txhash, state =>
      Restricting.addRestrictingRecord blocksEachEpoch state sender account blockNum
        minimumAmount plans txhash
  | .advanceLockedFunds account amount, state =>
      Restricting.advanceLockedFunds state account amount
  | .mixAdvanceLockedFunds account amount, state =>
      (Restricting.mixAdvanceLockedFunds state account amount).map Prod.fst
  | .returnLockFunds account amount, state => Restricting.returnLockFunds state account amount
  | .slashingNotify account amount, state => Restricting.slashingNotify state account amount
  | .releaseRestricting epoch, state => Restricting.releaseRestricting state epoch
  | .releaseGenesisRestrictingPlans, state => Restricting.releaseGenesisRestrictingPlans state

/-- The accounts an operation names. -/
def RestrictingOp.accounts : RestrictingOp → List Address
  | .addRestrictingRecord sender account _ _ _ _ => [sender, account]
  | .advanceLockedFunds account _ => [account]
  | .mixAdvanceLockedFunds account _ => [account]
  | .returnLockFunds account _ => [account]
  | .slashingNotify account _ => [account]
  | .releaseRestricting _ => []
  | .releaseGenesisRestrictingPlans => []

end Restricting
end Bubble
