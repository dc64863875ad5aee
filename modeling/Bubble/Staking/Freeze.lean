import Bubble.Staking.Withdrew

/-!
# Where a withdrawn delegation goes

Every part of a withdrawal's refund either leaves the staking contract at once or is frozen in
the delegator's `DelegationLock`.  On the path without a stored lock, only the hesitation part
leaves; the rest is frozen in one period ending `UnDelegateFreezeDuration - 1` epochs after the
current one.  On the path with a stored lock, the whole refund leaves and nothing is frozen.
-/

namespace Bubble
namespace Staking

open Ledger Restricting RestrictingState Reward DelegationLock

/-! ## Moving funds out of the staking contract -/

theorem staking_ne_delegateRewardPool : stakingContractAddr ≠ delegateRewardPoolAddr := by decide

/-- `ReturnLockFunds` takes the amount out of the staking contract. -/
theorem returnLockFunds_staking {state next : RestrictingState} {account : Address} {amount : ℤ}
    (not_staking : account ≠ stakingContractAddr)
    (success : returnLockFunds state account amount = .ok next) :
    next.balance stakingContractAddr = state.balance stakingContractAddr - amount := by
  unfold returnLockFunds at success
  by_cases zero : amount = 0
  · simp only [zero, if_true, Except.ok.injEq] at success
    simp [← success, zero]
  by_cases negative : amount < 0
  · simp [zero, negative] at success
  simp only [zero, negative, if_false] at success
  cases found : state.restrictingInfo account with
  | none => simp [mustGetRestrictingInfo, found] at success
  | some info =>
      simp only [mustGetRestrictingInfo, found] at success
      by_cases short : info.advanceAmount < amount
      · simp [short] at success
      simp only [short, if_false] at success
      rw [storeOrClear_eq_ok success]
      simp [transferAmount, transfer_of_ne restricting_ne_staking.symm not_staking.symm,
        transfer_src restricting_ne_staking.symm]

theorem refundRelease_spec {refundBalance aboutRelease refundTmp releaseTmp : ℤ}
    {delAddr : Address} {state next : RestrictingState} (not_staking : delAddr ≠ stakingContractAddr)
    (result : refundRelease refundBalance aboutRelease delAddr state = (refundTmp, releaseTmp, next)) :
    refundTmp + (aboutRelease - releaseTmp) = refundBalance ∧
      next.balance stakingContractAddr =
        state.balance stakingContractAddr - (aboutRelease - releaseTmp) := by
  unfold refundRelease at result
  split_ifs at result with positive whole short <;> cases result <;>
    simp [transferAmount, transfer_src not_staking.symm]

theorem refundRestrictingPlan_spec {refundTmp releaseTmp aboutRestrictingPlan rm rbalance lbalance : ℤ}
    {delAddr : Address} {state next : RestrictingState} (not_staking : delAddr ≠ stakingContractAddr)
    (success : refundRestrictingPlan refundTmp releaseTmp aboutRestrictingPlan delAddr state =
      .ok ((rm, rbalance, lbalance), next)) :
    rbalance = releaseTmp ∧ rm + (aboutRestrictingPlan - lbalance) = refundTmp ∧
      next.balance stakingContractAddr =
        state.balance stakingContractAddr - (aboutRestrictingPlan - lbalance) := by
  unfold refundRestrictingPlan at success
  split_ifs at success with positive whole short
  iterate 2
    obtain ⟨returned, returned_ok, same⟩ := Rollback.map_eq_ok.mp success
    simp only [Prod.mk.injEq] at same
    obtain ⟨⟨rfl, rfl, rfl⟩, rfl⟩ := same
    simp [returnLockFunds_staking not_staking returned_ok]
  all_goals
    simp only [Except.ok.injEq, Prod.mk.injEq] at success
    obtain ⟨⟨rfl, rfl, rfl⟩, rfl⟩ := success
    simp

theorem rufundDelegateFn_spec {refundBalance aboutRelease aboutRestrictingPlan rm rbalance lbalance : ℤ}
    {delAddr : Address} {state next : RestrictingState} (not_staking : delAddr ≠ stakingContractAddr)
    (success : rufundDelegateFn refundBalance aboutRelease aboutRestrictingPlan delAddr state =
      .ok ((rm, rbalance, lbalance), next)) :
    rm + ((aboutRelease - rbalance) + (aboutRestrictingPlan - lbalance)) = refundBalance ∧
      next.balance stakingContractAddr = state.balance stakingContractAddr -
        ((aboutRelease - rbalance) + (aboutRestrictingPlan - lbalance)) := by
  unfold rufundDelegateFn at success
  rcases released : refundRelease refundBalance aboutRelease delAddr state with
    ⟨refundTmp, releaseTmp, middle⟩
  rw [released] at success
  obtain ⟨free_sum, free_balance⟩ := refundRelease_spec not_staking released
  obtain ⟨rfl, restricting_sum, restricting_balance⟩ := refundRestrictingPlan_spec not_staking success
  constructor
  · omega
  · rw [restricting_balance, free_balance]
    ring

/-! ## Freezing into a lock -/

/-- `rufundDelegateLockFn` splits the refund between what is left and what is frozen; it adds a
period exactly when there is something to freeze, and then a positive amount. -/
theorem rufundDelegateLockFn_spec {refundBalance aboutRelease aboutRestrictingPlan rm lockRelease
    lockRestrictingPlan : ℤ} {lockEpoch : UInt32} {lockInfos lock : DelegationLock}
    (positive : 0 < refundBalance)
    (result : rufundDelegateLockFn refundBalance aboutRelease aboutRestrictingPlan lockEpoch
      lockInfos = ((rm, lockRelease, lockRestrictingPlan), lock)) :
    rm + (lockRelease + lockRestrictingPlan) = refundBalance ∧
      (lock = lockInfos ∧ lockRelease = 0 ∧ lockRestrictingPlan = 0 ∨
        lock = lockInfos.addLock lockEpoch lockRelease lockRestrictingPlan ∧
          0 < lockRelease + lockRestrictingPlan) := by
  unfold rufundDelegateLockFn at result
  by_cases total : 0 < aboutRelease + aboutRestrictingPlan
  · by_cases whole : aboutRelease + aboutRestrictingPlan ≤ refundBalance
    · simp only [total, whole, if_true, Prod.mk.injEq] at result
      obtain ⟨⟨rfl, rfl, rfl⟩, rfl⟩ := result
      exact ⟨by omega, .inr ⟨rfl, by omega⟩⟩
    by_cases short : refundBalance ≤ aboutRelease
    · simp only [total, whole, short, if_true, if_false, Prod.mk.injEq] at result
      obtain ⟨⟨rfl, rfl, rfl⟩, rfl⟩ := result
      exact ⟨by omega, .inr ⟨rfl, by omega⟩⟩
    · simp only [total, whole, short, if_true, if_false, Prod.mk.injEq] at result
      obtain ⟨⟨rfl, rfl, rfl⟩, rfl⟩ := result
      exact ⟨by omega, .inr ⟨rfl, by omega⟩⟩
  · simp only [total, if_false, Prod.mk.injEq] at result
    obtain ⟨⟨rfl, rfl, rfl⟩, rfl⟩ := result
    exact ⟨by omega, .inl ⟨rfl, rfl, rfl⟩⟩

/-! ## The stages of a withdrawal -/

section Stages

variable {delAddr : Address} (not_staking : delAddr ≠ stakingContractAddr)
include not_staking

/-- The hesitation block pays back, out of the staking contract, what it takes off the refund,
and reports it. -/
theorem refundHesitation_spec {refund next : Refund} {state after : RestrictingState}
    (success : refundHesitation delAddr refund state = .ok (next, after)) :
    next.refundAmount + (next.returnReleased + next.returnRestrictingPlan) =
        refund.refundAmount + (refund.returnReleased + refund.returnRestrictingPlan) ∧
      next.returnLockReleased = refund.returnLockReleased ∧
      next.returnLockRestrictingPlan = refund.returnLockRestrictingPlan ∧
      after.balance stakingContractAddr =
        state.balance stakingContractAddr - (refund.refundAmount - next.refundAmount) := by
  unfold refundHesitation at success
  by_cases positive : 0 < refund.refundAmount
  · simp only [positive, if_true] at success
    rcases refunded : rufundDelegateFn refund.refundAmount refund.del.releasedHes
        refund.del.restrictingPlanHes delAddr state with failure | ⟨⟨rm, rbalance, lbalance⟩, paid⟩
    · simp [refunded] at success
    simp only [refunded, Except.ok.injEq, Prod.mk.injEq] at success
    obtain ⟨rfl, rfl⟩ := success
    obtain ⟨split, balance⟩ := rufundDelegateFn_spec not_staking refunded
    refine ⟨by simp only; omega, rfl, rfl, ?_⟩
    simp only
    omega
  · simp only [positive, if_false, Except.ok.injEq, Prod.mk.injEq] at success
    obtain ⟨rfl, rfl⟩ := success
    simp

/-- The effective block of the path with a stored lock pays back, out of the staking contract,
what it takes off the refund, and reports none of it. -/
theorem refundEffective_spec {refund next : Refund} {state after : RestrictingState}
    (success : refundEffective delAddr refund state = .ok (next, after)) :
    next.returnReleased = refund.returnReleased ∧
      next.returnRestrictingPlan = refund.returnRestrictingPlan ∧
      next.returnLockReleased = refund.returnLockReleased ∧
      next.returnLockRestrictingPlan = refund.returnLockRestrictingPlan ∧
      after.balance stakingContractAddr =
        state.balance stakingContractAddr - (refund.refundAmount - next.refundAmount) := by
  unfold refundEffective at success
  by_cases positive : 0 < refund.refundAmount
  · simp only [positive, if_true] at success
    rcases refunded : rufundDelegateFn refund.refundAmount refund.del.released
        refund.del.restrictingPlan delAddr state with failure | ⟨⟨rm, rbalance, lbalance⟩, paid⟩
    · simp [refunded] at success
    simp only [refunded, Except.ok.injEq, Prod.mk.injEq] at success
    obtain ⟨rfl, rfl⟩ := success
    obtain ⟨split, balance⟩ := rufundDelegateFn_spec not_staking refunded
    refine ⟨rfl, rfl, rfl, rfl, ?_⟩
    simp only
    omega
  · simp only [positive, if_false, Except.ok.injEq, Prod.mk.injEq] at success
    obtain ⟨rfl, rfl⟩ := success
    simp

theorem settleDelegation_spec {state next : StakingState} {nodeId : NodeID}
    {stakingBlockNum : UInt64} {total realSub issueIncome : ℤ} {del : Delegation}
    (success : settleDelegation state delAddr nodeId stakingBlockNum total realSub del =
      .ok (issueIncome, next)) :
    next.chain.balance stakingContractAddr = state.chain.balance stakingContractAddr ∧
      next.delegationLocks = state.delegationLocks := by
  unfold settleDelegation at success
  by_cases emptied : total = realSub
  · simp only [emptied, if_true] at success
    rcases paid : returnDelegateReward state.chain delAddr del.cumulativeIncome with _ | chain
    · simp [paid] at success
    simp only [paid, Except.ok.injEq, Prod.mk.injEq] at success
    obtain ⟨-, rfl⟩ := success
    refine ⟨?_, rfl⟩
    unfold returnDelegateReward at paid
    split_ifs at paid <;> cases paid <;>
      simp [transferAmount, transfer_of_ne staking_ne_delegateRewardPool not_staking.symm]
  · simp only [emptied, if_false, Except.ok.injEq, Prod.mk.injEq] at success
    obtain ⟨-, rfl⟩ := success
    exact ⟨rfl, rfl⟩

omit not_staking in
theorem settleCandidate_spec {state next : StakingState} {nodeId : NodeID}
    {stakingBlockNum : UInt64} {realSub : ℤ} {can : Option Candidate}
    (success : settleCandidate state nodeId stakingBlockNum realSub can = .ok next) :
    next.chain = state.chain ∧ next.delegationLocks = state.delegationLocks := by
  cases can with
  | none =>
      cases success
      exact ⟨rfl, rfl⟩
  | some can =>
      by_cases same : stakingBlockNum = can.stakingBlockNum
      · simp only [settleCandidate, same, if_true] at success
        obtain ⟨shares, -, rfl⟩ := Rollback.map_eq_ok.mp success
        exact ⟨rfl, rfl⟩
      · simp only [settleCandidate, same, if_false, Except.ok.injEq] at success
        subst success
        exact ⟨rfl, rfl⟩

end Stages

/-! ## The branch on the stored lock -/

theorem refundLockedOrEffective_of_some {ctx : WithdrewContext} {epoch : UInt64}
    {delAddr : Address} (not_staking : delAddr ≠ stakingContractAddr) {refund next : Refund}
    {state after : StakingState} {lock : DelegationLock}
    (stored : state.delegationLocks delAddr = some lock)
    (success : refundLockedOrEffective ctx epoch delAddr refund state = .ok (next, after)) :
    after.delegationLocks = state.delegationLocks ∧
      next.returnReleased = refund.returnReleased ∧
      next.returnRestrictingPlan = refund.returnRestrictingPlan ∧
      next.returnLockReleased = refund.returnLockReleased ∧
      next.returnLockRestrictingPlan = refund.returnLockRestrictingPlan ∧
      after.chain.balance stakingContractAddr =
        state.chain.balance stakingContractAddr - (refund.refundAmount - next.refundAmount) := by
  unfold refundLockedOrEffective at success
  simp only [StakingState.getDelegationLock, stored, Option.map_some] at success
  obtain ⟨⟨paid, chain⟩, effective, same⟩ := Rollback.map_eq_ok.mp success
  simp only [Prod.mk.injEq] at same
  obtain ⟨rfl, rfl⟩ := same
  obtain ⟨released, restricting, lockReleased, lockRestricting, balance⟩ :=
    refundEffective_spec not_staking effective
  exact ⟨rfl, released, restricting, lockReleased, lockRestricting, balance⟩

/-! ## A whole withdrawal -/

/-- The stages of a successful withdrawal: the hesitation block from the whole refund and nothing
reported, the branch on the stored lock, which must leave nothing to refund, and the two settling
blocks.  Only the reward records change before the hesitation block. -/
theorem withdrewDelegation_eq_ok {ctx : WithdrewContext} {state next : StakingState} {amount : ℤ}
    {delAddr : Address} {nodeId : NodeID} {stakingBlockNum : UInt64} {del : Delegation}
    {delegateRewardPerList : List DelegateRewardPer} {result : WithdrewResult}
    (success : withdrewDelegation ctx state amount delAddr nodeId stakingBlockNum del
      delegateRewardPerList = .ok (result, next)) :
    let epoch := calculateEpoch ctx.blocksEachEpoch ctx.blockNumber
    let realSub := calcRealRefund ctx.operatingThreshold (calcDelegateTotalAmount del) amount
    ∃ (start hesitated locked : Refund) (chain : RestrictingState)
      (middle branched settled : StakingState) (issueIncome : ℤ),
      start.refundAmount = realSub ∧ start.returnReleased = 0 ∧ start.returnRestrictingPlan = 0 ∧
      start.returnLockReleased = 0 ∧ start.returnLockRestrictingPlan = 0 ∧
      refundHesitation delAddr start state.chain = .ok (hesitated, chain) ∧
      middle.chain = chain ∧ middle.delegationLocks = state.delegationLocks ∧
      refundLockedOrEffective ctx epoch delAddr hesitated middle = .ok (locked, branched) ∧
      locked.refundAmount = 0 ∧
      settleDelegation branched delAddr nodeId stakingBlockNum (calcDelegateTotalAmount del) realSub
        locked.del = .ok (issueIncome, settled) ∧
      settleCandidate settled nodeId stakingBlockNum realSub locked.can = .ok next ∧
      result = ⟨issueIncome, locked.returnReleased, locked.returnRestrictingPlan,
        locked.returnLockReleased, locked.returnLockRestrictingPlan⟩ := by
  intro epoch realSub
  unfold withdrewDelegation at success
  by_cases short : calcDelegateTotalAmount del < amount
  · simp [short] at success
  rw [if_neg short] at success
  rcases income : calcDelegateIncome epoch del delegateRewardPerList with ⟨rewardsReceive, charged⟩
  dsimp only at success
  rw [income] at success
  obtain ⟨-, -, success⟩ := Rollback.bind_eq_ok.mp success
  obtain ⟨⟨hesitated, chain⟩, hesitation, success⟩ := Rollback.bind_eq_ok.mp success
  obtain ⟨⟨locked, branched⟩, branch, success⟩ := Rollback.bind_eq_ok.mp success
  dsimp only at success
  by_cases remain : locked.refundAmount = 0
  · simp only [remain, ne_eq, not_true_eq_false, if_false] at success
    obtain ⟨⟨issueIncome, settled⟩, settling, success⟩ := Rollback.bind_eq_ok.mp success
    obtain ⟨final, candidate, success⟩ := Rollback.bind_eq_ok.mp success
    simp only [Except.ok.injEq, Prod.mk.injEq] at success
    obtain ⟨rfl, rfl⟩ := success
    exact ⟨_, hesitated, locked, chain,
      { state with
          chain
          rewardPer := (updateDelegateRewardPer state.rewardPer nodeId stakingBlockNum rewardsReceive) },
      branched, settled, issueIncome, rfl, rfl, rfl, rfl, rfl, hesitation, rfl, rfl, branch, remain,
      settling, candidate, rfl⟩
  · simp [remain] at success

/-- With a stored lock, a successful withdrawal freezes nothing: the whole refund leaves the
staking contract at once, and the lock stays as it was. -/
theorem withdrewDelegation_pays_with_stored_lock {ctx : WithdrewContext}
    {state next : StakingState} {amount : ℤ} {delAddr : Address} {nodeId : NodeID}
    {stakingBlockNum : UInt64} {del : Delegation} {delegateRewardPerList : List DelegateRewardPer}
    {result : WithdrewResult} (not_staking : delAddr ≠ stakingContractAddr) {lock : DelegationLock}
    (stored : state.delegationLocks delAddr = some lock)
    (success : withdrewDelegation ctx state amount delAddr nodeId stakingBlockNum del
      delegateRewardPerList = .ok (result, next)) :
    result.returnLockReleased = 0 ∧ result.returnLockRestrictingPlan = 0 ∧
      next.chain.balance stakingContractAddr = state.chain.balance stakingContractAddr -
        calcRealRefund ctx.operatingThreshold (calcDelegateTotalAmount del) amount ∧
      next.delegationLocks delAddr = some lock := by
  obtain ⟨start, hesitated, locked, chain, middle, branched, settled, issueIncome, start_refund,
    -, -, start_lockReleased, start_lockRestricting, hesitation, middle_chain, middle_locks, branch,
    remain, settling, candidate, rfl⟩ := withdrewDelegation_eq_ok success
  obtain ⟨-, hesitation_lockReleased, hesitation_lockRestricting, hesitation_balance⟩ :=
    refundHesitation_spec not_staking hesitation
  obtain ⟨branch_locks, -, -, branch_lockReleased, branch_lockRestricting, branch_balance⟩ :=
    refundLockedOrEffective_of_some not_staking (middle_locks ▸ stored) branch
  obtain ⟨settled_balance, settled_locks⟩ := settleDelegation_spec not_staking settling
  obtain ⟨next_chain, next_locks⟩ := settleCandidate_spec candidate
  refine ⟨?_, ?_, ?_, ?_⟩
  · simp only [branch_lockReleased, hesitation_lockReleased, start_lockReleased]
  · simp only [branch_lockRestricting, hesitation_lockRestricting, start_lockRestricting]
  · rw [next_chain, settled_balance, branch_balance, middle_chain, hesitation_balance, remain,
      start_refund]
    ring
  · rw [next_locks, settled_locks, branch_locks, middle_locks, stored]

/-! ## Two withdrawals in one epoch -/

/-- The delegator of the sample withdrawals. -/
def sampleDelegator : Address := 0xDE#160

/-- The validator it delegates to, with node ID one. -/
def sampleValidator : NodeID := 1#512

/-- Block 25 of a chain with epochs of ten blocks (epoch 3), an operating threshold of 10 and a
freeze of two epochs. -/
def sampleWithdrewContext : WithdrewContext := ⟨25, 10, .ok 10, .ok 2⟩

/-- A delegation of 20 effective free funds, made in epoch 1. -/
def sampleDelegation : Delegation := ⟨1, 20, 0, 0, 0, 0, 0, 0⟩

/-- The chain before the sample withdrawals: the staking contract holds 100 and nobody has a lock. -/
def unlockedChain : StakingState :=
  ⟨RestrictingState.fresh (Function.update 0 stakingContractAddr 100), fun _ => none, fun _ => none,
    fun _ => none, fun _ => none⟩

example :
    ∃ result next, withdrewDelegation sampleWithdrewContext unlockedChain 10 sampleDelegator
        sampleValidator 1 sampleDelegation [] = .ok (result, next) ∧
      next.delegationLocks sampleDelegator = some ⟨[⟨4, 10, 0⟩], 0, 0, true⟩ :=
  ⟨_, _, rfl, rfl⟩

/-- The chain after a first withdrawal of 10 in epoch 3, which froze them until epoch 4. -/
def lockedChain : StakingState :=
  { unlockedChain with
      chain := RestrictingState.fresh (Function.update 0 stakingContractAddr 110)
      delegationLocks := Function.update (fun _ => none) sampleDelegator
        (some ⟨[⟨4, 10, 0⟩], 0, 0, false⟩) }

/-- The second withdrawal of the epoch finds the lock the first one stored, and pays its 10
effective funds out of the staking contract at once; nothing is frozen. -/
theorem second_withdrawal_paid_at_once :
    ∃ result next, withdrewDelegation sampleWithdrewContext lockedChain 10 sampleDelegator
        sampleValidator 1 sampleDelegation [] = .ok (result, next) ∧
      result.returnLockReleased = 0 ∧ result.returnLockRestrictingPlan = 0 ∧
      next.chain.balance stakingContractAddr = lockedChain.chain.balance stakingContractAddr - 10 ∧
      next.delegationLocks sampleDelegator = lockedChain.delegationLocks sampleDelegator := by
  obtain ⟨⟨result, next⟩, success⟩ : ∃ outcome, withdrewDelegation sampleWithdrewContext lockedChain
      10 sampleDelegator sampleValidator 1 sampleDelegation [] = .ok outcome := ⟨_, rfl⟩
  obtain ⟨lockReleased, lockRestricting, balance, locks⟩ :=
    withdrewDelegation_pays_with_stored_lock (by decide) rfl success
  exact ⟨result, next, success, lockReleased, lockRestricting, by rw [balance]; rfl, locks⟩

end Staking
end Bubble
