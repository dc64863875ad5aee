import Bubble.Reward.DelegateReward
import Bubble.Restricting.Conservation

/-!
# Withdrawing a delegation

`StakingPlugin.WithdrewDelegation` of `x/plugin/staking_plugin.go`.  The refund (the amount asked
for, or the whole delegation when the rest would fall below the operating threshold) is taken
from the hesitation balances first, which are paid back at once: free funds to the delegator,
restricting funds to the restricting contract through `ReturnLockFunds`.  What remains comes from
the lock-origin hesitation balances and then the effective ones, which are frozen as a period of
the delegator's `DelegationLock` until `UnDelegateFreezeDuration` epochs have passed.

That is the path taken when the delegator has no `DelegationLock` record.  When the record exists
the code takes another branch, which pays the effective balances back at once and never touches
the lock-origin hesitation balances.

The state is the account balances and restricting records of `Restricting`, together with the
staking and reward records the function reads and writes.  A failed call is rolled back.
-/

namespace Bubble
namespace Staking

open Ledger Restricting RestrictingState Reward DelegationLock

/-- `staking.CandidateStatus`: a bit set. -/
abbrev CandidateStatus := UInt32

/-- `staking.Invalided`. -/
def invalided : CandidateStatus := 1

/-- `CandidateStatus.IsValid`. -/
def CandidateStatus.isValid (status : CandidateStatus) : Bool :=
  status &&& invalided != invalided

/-- The fields of `staking.Candidate` that `WithdrewDelegation` reads and writes. -/
structure Candidate where
  stakingBlockNum : UInt64
  status : CandidateStatus
  /-- Staked and delegated funds, the candidate's weight. -/
  shares : ℤ
  delegateEpoch : UInt32
  delegateTotal : ℤ
  delegateTotalHes : ℤ
  deriving DecidableEq, Repr

/-- `lazyCalcNodeTotalDelegateAmount`: an epoch after the last change the hesitating delegations
become effective. -/
def lazyCalcNodeTotalDelegateAmount (epoch : UInt64) (can : Candidate) : Candidate :=
  if epoch - can.delegateEpoch.toUInt64 < hesitateRatio then can
  else if 0 < can.delegateTotalHes then
    { can with delegateTotal := can.delegateTotal + can.delegateTotalHes, delegateTotalHes := 0 }
  else can

/-- The errors of `WithdrewDelegation`. -/
inductive StakingError
  | errDelegateVonNoEnough
  | errBlockNumberDisordered
  | errWrongWithdrewDelVonCalc
  /-- `common.InternalError`, returned when the delegate reward pool cannot pay the income. -/
  | internalError
  /-- An error of `ReturnLockFunds`. -/
  | restricting (failure : RestrictingError)
  /-- A failure reading a governance parameter. -/
  | governParam
  /-- The `panic("the candidate shares is no enough")` of `WithdrewDelegation`. -/
  | sharesNotEnough
  /-- `ErrDelegateLockBalanceNotEnough`: no lock, or too little frozen in it. -/
  | errDelegateLockBalanceNotEnough
  deriving DecidableEq

/-- The block a withdrawal executes in and the governance parameters it reads there. -/
structure WithdrewContext where
  blockNumber : UInt64
  /-- `CalcBlocksEachEpoch()`. -/
  blocksEachEpoch : UInt64
  /-- `gov.GovernOperatingThreshold`. -/
  operatingThreshold : Except StakingError ℤ
  /-- `gov.GovernUnDelegateFreezeDuration`. -/
  unDelegateFreezeDuration : Except StakingError UInt64

/-- The chain as `WithdrewDelegation` sees it. -/
structure StakingState where
  /-- Account balances and the restricting contract's records. -/
  chain : RestrictingState
  /-- `GetCandidateStore`, by the node the candidate's address is derived from. -/
  candidates : NodeID → Option Candidate
  /-- `GetDelegateKey(delAddr, nodeId, stakingBlockNum)`. -/
  delegations : Address × NodeID × UInt64 → Option Delegation
  /-- `GetDelegationLockKey(delAddr)`. -/
  delegationLocks : Address → Option DelegationLock
  /-- The reward plugin's `DelegateRewardPer` lists. -/
  rewardPer : RewardPerStore

namespace StakingState

/-- `GetDelegationLock`: the stored lock, decoded with `change` cleared and updated to the
current epoch; none for `ErrNotFound`. -/
def getDelegationLock (state : StakingState) (delAddr : Address) (currentEpoch : UInt32) :
    Option DelegationLock :=
  (state.delegationLocks delAddr).map fun lock => { lock with change := false }.update currentEpoch

/-- `PutDelegationLock`: a lock with nothing in it is deleted. -/
def putDelegationLock (state : StakingState) (delAddr : Address) (infos : DelegationLock) :
    StakingState :=
  { state with
      delegationLocks :=
        Function.update state.delegationLocks delAddr (if infos.shouldDel then none else some infos) }

end StakingState

/-- `CheckOperatingThreshold`: a failure reading the threshold counts as below it. -/
def checkOperatingThreshold (threshold : Except StakingError ℤ) (balance : ℤ) : Bool :=
  match threshold with
  | .ok threshold => decide (threshold ≤ balance)
  | .error _ => false

/-- `calcRealRefund`: the whole delegation when what would be left is below the threshold. -/
def calcRealRefund (threshold : Except StakingError ℤ) (realtotal amount : ℤ) : ℤ :=
  if !checkOperatingThreshold threshold (realtotal - amount) then realtotal else amount

/-- `calDelegationLockEndEpoch`: the last epoch of the freeze, in `uint32` arithmetic. -/
def calDelegationLockEndEpoch (unDelegateFreezeDuration : Except StakingError UInt64)
    (currentEpoch : UInt32) : Except StakingError UInt32 :=
  unDelegateFreezeDuration.map fun duration => currentEpoch + duration.toUInt32 - 1

/-- The free block of `rufundDelegateFn`: `subDelegateFn` pays the delegator out of the staking
contract.  Returns what is left to refund, the balance left, and the state. -/
def refundRelease (refundBalance aboutRelease : ℤ) (delAddr : Address) (state : RestrictingState) :
    ℤ × ℤ × RestrictingState :=
  if 0 < refundBalance then
    if aboutRelease ≤ refundBalance ∧ 0 < aboutRelease then
      (refundBalance - aboutRelease, 0, state.transferAmount stakingContractAddr delAddr aboutRelease)
    else if refundBalance < aboutRelease then
      (0, aboutRelease - refundBalance,
        state.transferAmount stakingContractAddr delAddr refundBalance)
    else (refundBalance, aboutRelease, state)
  else (refundBalance, aboutRelease, state)

/-- The restricting block of `rufundDelegateFn`: `ReturnLockFunds` gives the funds back to the
restricting contract. -/
def refundRestrictingPlan (refundTmp releaseTmp aboutRestrictingPlan : ℤ) (delAddr : Address)
    (state : RestrictingState) : Except RestrictingError ((ℤ × ℤ × ℤ) × RestrictingState) :=
  if 0 < refundTmp then
    if aboutRestrictingPlan ≤ refundTmp ∧ 0 < aboutRestrictingPlan then
      (returnLockFunds state delAddr aboutRestrictingPlan).map fun state =>
        ((refundTmp - aboutRestrictingPlan, releaseTmp, 0), state)
    else if refundTmp < aboutRestrictingPlan then
      (returnLockFunds state delAddr refundTmp).map fun state =>
        ((0, releaseTmp, aboutRestrictingPlan - refundTmp), state)
    else .ok ((refundTmp, releaseTmp, aboutRestrictingPlan), state)
  else .ok ((refundTmp, releaseTmp, aboutRestrictingPlan), state)

/-- `rufundDelegateFn`: refund from a pair of balances, the free one first.  Returns what is left
to refund and the two balances. -/
def rufundDelegateFn (refundBalance aboutRelease aboutRestrictingPlan : ℤ) (delAddr : Address)
    (state : RestrictingState) : Except RestrictingError ((ℤ × ℤ × ℤ) × RestrictingState) :=
  let (refundTmp, releaseTmp, state) := refundRelease refundBalance aboutRelease delAddr state
  refundRestrictingPlan refundTmp releaseTmp aboutRestrictingPlan delAddr state

/-- `rufundDelegateLockFn`: freeze from a pair of balances, the free one first, as a period of
`lockInfos` ending at `lockEpoch`.  Returns what is left to refund and the two frozen amounts. -/
def rufundDelegateLockFn (refundBalance aboutRelease aboutRestrictingPlan : ℤ) (lockEpoch : UInt32)
    (lockInfos : DelegationLock) : (ℤ × ℤ × ℤ) × DelegationLock :=
  let total := aboutRelease + aboutRestrictingPlan
  if 0 < total then
    let (refundTmp, lockRelease, lockRestrictingPlan) :=
      if total ≤ refundBalance then (refundBalance - total, aboutRelease, aboutRestrictingPlan)
      else if refundBalance ≤ aboutRelease then (0, refundBalance, 0)
      else (0, aboutRelease, refundBalance - aboutRelease)
    ((refundTmp, lockRelease, lockRestrictingPlan),
      lockInfos.addLock lockEpoch lockRelease lockRestrictingPlan)
  else ((refundBalance, 0, 0), lockInfos)

/-- `RewardMgrPlugin.ReturnDelegateReward`: the delegate reward pool pays the income, if it can;
none for the error it returns when it cannot. -/
def returnDelegateReward (state : RestrictingState) (address : Address) (amount : ℤ) :
    Option RestrictingState :=
  if 0 < amount then
    if state.balance delegateRewardPoolAddr < amount then none
    else some (state.transferAmount delegateRewardPoolAddr address amount)
  else some state

/-- The values `WithdrewDelegation` carries through its refund: what is left to refund, the
delegation and the candidate as edited so far, and the four amounts it reports. -/
structure Refund where
  refundAmount : ℤ
  del : Delegation
  can : Option Candidate
  returnReleased : ℤ
  returnRestrictingPlan : ℤ
  returnLockReleased : ℤ
  returnLockRestrictingPlan : ℤ

/-- What `WithdrewDelegation` returns. -/
structure WithdrewResult where
  issueIncome : ℤ
  returnReleased : ℤ
  returnRestrictingPlan : ℤ
  returnLockReleased : ℤ
  returnLockRestrictingPlan : ℤ

/-- The hesitation block of `WithdrewDelegation`: the refund is taken from `ReleasedHes` and
`RestrictingPlanHes`, paid back at once, and taken off the candidate's hesitating total. -/
def refundHesitation (delAddr : Address) (refund : Refund) (state : RestrictingState) :
    Except StakingError (Refund × RestrictingState) :=
  if 0 < refund.refundAmount then
    match rufundDelegateFn refund.refundAmount refund.del.releasedHes refund.del.restrictingPlanHes
        delAddr state with
    | .error failure => .error (.restricting failure)
    | .ok ((rm, rbalance, lbalance), state) =>
        .ok ({ refund with
                refundAmount := rm
                del := { refund.del with releasedHes := rbalance, restrictingPlanHes := lbalance }
                can := refund.can.map fun can =>
                  { can with delegateTotalHes := can.delegateTotalHes - (refund.refundAmount - rm) }
                returnReleased := refund.returnReleased + (refund.del.releasedHes - rbalance)
                returnRestrictingPlan :=
                  refund.returnRestrictingPlan + (refund.del.restrictingPlanHes - lbalance) },
              state)
  else .ok (refund, state)

/-- The lock-origin hesitation block of the first-lock path: frozen, and taken off the
candidate's hesitating total. -/
def freezeLockHesitation (lockEndEpoch : UInt32) (refund : Refund) (lock : DelegationLock) :
    Refund × DelegationLock :=
  if 0 < refund.refundAmount then
    let ((rm, lockRelease, lockRestrictingPlan), lock) :=
      rufundDelegateLockFn refund.refundAmount refund.del.lockReleasedHes
        refund.del.lockRestrictingPlanHes lockEndEpoch lock
    ({ refund with
        refundAmount := rm
        del := { refund.del with
          lockReleasedHes := refund.del.lockReleasedHes - lockRelease
          lockRestrictingPlanHes := refund.del.lockRestrictingPlanHes - lockRestrictingPlan }
        can := refund.can.map fun can =>
          { can with delegateTotalHes := can.delegateTotalHes - (refund.refundAmount - rm) }
        returnLockReleased := refund.returnLockReleased + lockRelease
        returnLockRestrictingPlan := refund.returnLockRestrictingPlan + lockRestrictingPlan },
      lock)
  else (refund, lock)

/-- The effective block of the first-lock path: frozen, and taken off the candidate's effective
total. -/
def freezeEffective (lockEndEpoch : UInt32) (refund : Refund) (lock : DelegationLock) :
    Refund × DelegationLock :=
  if 0 < refund.refundAmount then
    let ((rm, lockRelease, lockRestrictingPlan), lock) :=
      rufundDelegateLockFn refund.refundAmount refund.del.released refund.del.restrictingPlan
        lockEndEpoch lock
    ({ refund with
        refundAmount := rm
        del := { refund.del with
          released := refund.del.released - lockRelease
          restrictingPlan := refund.del.restrictingPlan - lockRestrictingPlan }
        can := refund.can.map fun can =>
          { can with delegateTotal := can.delegateTotal - (refund.refundAmount - rm) }
        returnLockReleased := refund.returnLockReleased + lockRelease
        returnLockRestrictingPlan := refund.returnLockRestrictingPlan + lockRestrictingPlan },
      lock)
  else (refund, lock)

/-- The effective block of the path taken when a lock is stored: paid back at once, and taken off
the candidate's effective total.  The amounts paid are not reported. -/
def refundEffective (delAddr : Address) (refund : Refund) (state : RestrictingState) :
    Except StakingError (Refund × RestrictingState) :=
  if 0 < refund.refundAmount then
    match rufundDelegateFn refund.refundAmount refund.del.released refund.del.restrictingPlan
        delAddr state with
    | .error failure => .error (.restricting failure)
    | .ok ((rm, rbalance, lbalance), state) =>
        .ok ({ refund with
                refundAmount := rm
                del := { refund.del with released := rbalance, restrictingPlan := lbalance }
                can := refund.can.map fun can =>
                  { can with delegateTotal := can.delegateTotal - (refund.refundAmount - rm) } },
              state)
  else .ok (refund, state)

/-- The branch on `GetDelegationLock` in `WithdrewDelegation`.  With no lock stored, the rest of
the refund is frozen in a new lock, which is stored when a period was added.  With a lock stored,
the effective balances are paid back at once and the lock is left as it was. -/
def refundLockedOrEffective (ctx : WithdrewContext) (epoch : UInt64) (delAddr : Address)
    (refund : Refund) (state : StakingState) : Except StakingError (Refund × StakingState) :=
  match state.getDelegationLock delAddr epoch.toUInt32 with
  | none =>
      match calDelegationLockEndEpoch ctx.unDelegateFreezeDuration epoch.toUInt32 with
      | .error failure => .error failure
      | .ok lockEndEpoch =>
          let (refund, lock) := freezeLockHesitation lockEndEpoch refund newDelegationLock
          let (refund, lock) := freezeEffective lockEndEpoch refund lock
          .ok (refund, if lock.change then state.putDelegationLock delAddr lock else state)
  | some _ =>
      (refundEffective delAddr refund state.chain).map fun (refund, chain) =>
        (refund, { state with chain })

/-- A withdrawal that empties the delegation pays its income from the delegate reward pool and
deletes it; any other stores it. -/
def settleDelegation (state : StakingState) (delAddr : Address) (nodeId : NodeID)
    (stakingBlockNum : UInt64) (total realSub : ℤ) (del : Delegation) :
    Except StakingError (ℤ × StakingState) :=
  if total = realSub then
    match returnDelegateReward state.chain delAddr del.cumulativeIncome with
    | none => .error .internalError
    | some chain =>
        .ok (del.cumulativeIncome,
          { state with
              chain
              delegations := Function.update state.delegations (delAddr, nodeId, stakingBlockNum) none })
  else
    .ok (0, { state with
      delegations := Function.update state.delegations (delAddr, nodeId, stakingBlockNum) (some del) })

/-- The candidate block at the end of `WithdrewDelegation`: the candidate of the delegation's
staking loses `realSub` of its shares and is stored.  A valid candidate with no more shares than
that panics; an invalid one keeps its shares. -/
def settleCandidate (state : StakingState) (nodeId : NodeID) (stakingBlockNum : UInt64)
    (realSub : ℤ) : Option Candidate → Except StakingError StakingState
  | some can =>
      if stakingBlockNum = can.stakingBlockNum then
        let shares : Except StakingError ℤ :=
          if realSub < can.shares then .ok (can.shares - realSub)
          else if can.status.isValid then .error .sharesNotEnough
          else .ok can.shares
        shares.map fun shares =>
          { state with candidates := Function.update state.candidates nodeId (some { can with shares }) }
      else .ok state
  | none => .ok state

/-- The `ErrBlockNumberDisordered` check: the delegation cannot be of a later staking than the
candidate's. -/
def checkStakingBlockNum (stakingBlockNum : UInt64) : Option Candidate → Except StakingError Unit
  | some can => if can.stakingBlockNum < stakingBlockNum then .error .errBlockNumberDisordered
      else .ok ()
  | none => .ok ()

/-- `StakingPlugin.WithdrewDelegation`, for a delegation `del` read from the database and the
reward records of the epochs it has not claimed. -/
def withdrewDelegation (ctx : WithdrewContext) (state : StakingState) (amount : ℤ)
    (delAddr : Address) (nodeId : NodeID) (stakingBlockNum : UInt64) (del : Delegation)
    (delegateRewardPerList : List DelegateRewardPer) :
    Except StakingError (WithdrewResult × StakingState) :=
  let total := calcDelegateTotalAmount del
  if total < amount then .error .errDelegateVonNoEnough
  else
    let epoch := calculateEpoch ctx.blocksEachEpoch ctx.blockNumber
    let realSub := calcRealRefund ctx.operatingThreshold total amount
    let (rewardsReceive, del) := calcDelegateIncome epoch del delegateRewardPerList
    let state := { state with
      rewardPer := updateDelegateRewardPer state.rewardPer nodeId stakingBlockNum rewardsReceive }
    let can := (state.candidates nodeId).map (lazyCalcNodeTotalDelegateAmount epoch)
    let del := { del with delegateEpoch := epoch.toUInt32 }
    do
      checkStakingBlockNum stakingBlockNum can
      let (refund, chain) ← refundHesitation delAddr ⟨realSub, del, can, 0, 0, 0, 0⟩ state.chain
      let (refund, state) ← refundLockedOrEffective ctx epoch delAddr refund { state with chain }
      if refund.refundAmount ≠ 0 then .error .errWrongWithdrewDelVonCalc
      else do
        let (issueIncome, state) ←
          settleDelegation state delAddr nodeId stakingBlockNum total realSub refund.del
        let state ← settleCandidate state nodeId stakingBlockNum realSub refund.can
        .ok (⟨issueIncome, refund.returnReleased, refund.returnRestrictingPlan,
          refund.returnLockReleased, refund.returnLockRestrictingPlan⟩, state)

end Staking
end Bubble
