import Bubble.Staking.Freeze

/-!
# Delegation locks over whole runs

Three calls of `x/plugin/staking_plugin.go` touch a delegator's `DelegationLock`:
`WithdrewDelegation` freezes funds in it, the `LockVon` branch of `Delegate` re-delegates frozen
funds through `AdvanceDelegationLockedFunds`, and `RedeemDelegation` pays out what
`GetDelegationLock` has unlocked.  `update` unlocks expired periods only up to the first period
still running, so it releases exactly the expired periods only when the periods are in increasing
order of epoch.  `AddLock` alone would break that order once governance lowers
`UnDelegateFreezeDuration`, but `WithdrewDelegation` adds periods only to a lock it has just
created, all ending at one epoch, and the other two calls keep a part of the periods in their
order.  So in every reachable state every stored lock is in order, and every read of it releases
exactly the expired periods.
-/

namespace Bubble
namespace Staking

open Restricting RestrictingState Reward DelegationLock

/-! ## The calls -/

/-- `StakingPlugin.AdvanceDelegationLockedFunds`: `amount` of the frozen funds is taken for a new
delegation.  Returns the released and restricting parts taken, which become the delegation's
lock-origin hesitation balances, and stores the lock. -/
def advanceDelegationLockedFunds (state : StakingState) (account : Address)
    (currentEpoch : UInt32) (amount : ℤ) : Except StakingError (ℤ × ℤ × StakingState) :=
  match state.getDelegationLock account currentEpoch with
  | none => .error .errDelegateLockBalanceNotEnough
  | some d =>
    match d.advanceLockedFunds amount with
    | (some (lockReleasedHes, lockRestrictingHes), d) =>
        .ok (lockReleasedHes, lockRestrictingHes, state.putDelegationLock account d)
    | (none, _) => .error .errDelegateLockBalanceNotEnough

/-- The free block of `RedeemDelegation`: unlocked free funds leave the staking contract for the
delegator.  Returns the amount paid, whether anything was, and the lock and chain after. -/
def redeemReleased (delAddr : Address) (lock : DelegationLock) (chain : RestrictingState) :
    ℤ × Bool × DelegationLock × RestrictingState :=
  if 0 < lock.released then
    (lock.released, true, { lock with released := 0 },
      chain.transferAmount stakingContractAddr delAddr lock.released)
  else (0, false, lock, chain)

/-- The restricting block of `RedeemDelegation`: unlocked restricting funds go back to the
restricting contract through `ReturnLockFunds`.  `redeem` is whether the free block paid. -/
def redeemRestrictingPlan (delAddr : Address) (redeem : Bool) (lock : DelegationLock)
    (chain : RestrictingState) : Except StakingError (ℤ × Bool × DelegationLock × RestrictingState) :=
  if 0 < lock.restrictingPlan then
    match returnLockFunds chain delAddr lock.restrictingPlan with
    | .error failure => .error (.restricting failure)
    | .ok chain => .ok (lock.restrictingPlan, true, { lock with restrictingPlan := 0 }, chain)
  else .ok (0, redeem, lock, chain)

/-- `StakingPlugin.RedeemDelegation`: the funds `GetDelegationLock` has unlocked are paid out, and
the lock is stored when the read changed it or something was paid.  Returns the free and
restricting amounts paid. -/
def redeemDelegation (state : StakingState) (blocksEachEpoch blockNumber : UInt64)
    (delAddr : Address) : Except StakingError (ℤ × ℤ × StakingState) :=
  match state.getDelegationLock delAddr (calculateEpoch blocksEachEpoch blockNumber).toUInt32 with
  | none => .ok (0, 0, state)
  | some lock =>
    let (released, redeem, lock, chain) := redeemReleased delAddr lock state.chain
    (redeemRestrictingPlan delAddr redeem lock chain).map fun (restrictingPlan, redeem, lock, chain) =>
      (released, restrictingPlan,
        if lock.change || redeem then { state with chain }.putDelegationLock delAddr lock
        else { state with chain })

/-! ## What each call does to the stored locks -/

@[simp]
theorem putDelegationLock_delegationLocks (state : StakingState) (delAddr : Address)
    (lock : DelegationLock) :
    (state.putDelegationLock delAddr lock).delegationLocks =
      Function.update state.delegationLocks delAddr (if lock.shouldDel then none else some lock) :=
  rfl

theorem getDelegationLock_eq_some {state : StakingState} {delAddr : Address} {currentEpoch : UInt32}
    {read : DelegationLock} (found : state.getDelegationLock delAddr currentEpoch = some read) :
    ∃ stored, state.delegationLocks delAddr = some stored ∧
      read = { stored with change := false }.update currentEpoch := by
  simp only [StakingState.getDelegationLock, Option.map_eq_some_iff] at found
  obtain ⟨stored, stored_eq, rfl⟩ := found
  exact ⟨stored, stored_eq, rfl⟩

theorem getDelegationLock_epochs {state : StakingState} {delAddr : Address}
    {currentEpoch : UInt32} {read : DelegationLock}
    (found : state.getDelegationLock delAddr currentEpoch = some read) :
    ∃ stored, state.delegationLocks delAddr = some stored ∧
      (read.locks.map (·.epoch)).Sublist (stored.locks.map (·.epoch)) := by
  obtain ⟨stored, stored_eq, rfl⟩ := getDelegationLock_eq_some found
  exact ⟨stored, stored_eq, update_epochs_sublist _ currentEpoch⟩

theorem rufundDelegateLockFn_endsAt {lockEpoch : UInt32} {lockInfos lock : DelegationLock}
    (ends : (lockInfos.locks.map (·.epoch)).Sublist [lockEpoch])
    {refundBalance aboutRelease aboutRestrictingPlan : ℤ} {frozen : ℤ × ℤ × ℤ}
    (positive : 0 < refundBalance)
    (result : rufundDelegateLockFn refundBalance aboutRelease aboutRestrictingPlan lockEpoch
      lockInfos = (frozen, lock)) :
    (lock.locks.map (·.epoch)).Sublist [lockEpoch] := by
  obtain ⟨rm, lockRelease, lockRestrictingPlan⟩ := frozen
  rcases (rufundDelegateLockFn_spec positive result).2 with ⟨rfl, -, -⟩ | ⟨rfl, -⟩
  · exact ends
  · exact addLock_endsAt ends _ _

theorem freezeLockHesitation_endsAt {lockEndEpoch : UInt32} (refund : Refund)
    {lock : DelegationLock} (ends : (lock.locks.map (·.epoch)).Sublist [lockEndEpoch]) :
    ((freezeLockHesitation lockEndEpoch refund lock).2.locks.map (·.epoch)).Sublist
      [lockEndEpoch] := by
  unfold freezeLockHesitation
  split_ifs with positive
  · rcases locked : rufundDelegateLockFn refund.refundAmount refund.del.lockReleasedHes
      refund.del.lockRestrictingPlanHes lockEndEpoch lock with ⟨frozen, after⟩
    exact rufundDelegateLockFn_endsAt ends positive locked
  · exact ends

theorem freezeEffective_endsAt {lockEndEpoch : UInt32} (refund : Refund)
    {lock : DelegationLock} (ends : (lock.locks.map (·.epoch)).Sublist [lockEndEpoch]) :
    ((freezeEffective lockEndEpoch refund lock).2.locks.map (·.epoch)).Sublist [lockEndEpoch] := by
  unfold freezeEffective
  split_ifs with positive
  · rcases locked : rufundDelegateLockFn refund.refundAmount refund.del.released
      refund.del.restrictingPlan lockEndEpoch lock with ⟨frozen, after⟩
    exact rufundDelegateLockFn_endsAt ends positive locked
  · exact ends

/-- The branch on the stored lock leaves the locks alone, or stores a new lock whose periods all
end at one epoch, at most one of them. -/
theorem refundLockedOrEffective_locks {ctx : WithdrewContext} {epoch : UInt64} {delAddr : Address}
    {refund next : Refund} {state after : StakingState}
    (success : refundLockedOrEffective ctx epoch delAddr refund state = .ok (next, after)) :
    after.delegationLocks = state.delegationLocks ∨
      ∃ lockEndEpoch lock, (lock.locks.map (·.epoch)).Sublist [lockEndEpoch] ∧
        after = state.putDelegationLock delAddr lock := by
  unfold refundLockedOrEffective at success
  split at success
  · rcases ending : calDelegationLockEndEpoch ctx.unDelegateFreezeDuration epoch.toUInt32 with
      failure | lockEndEpoch
    · simp [ending] at success
    rcases hesitation : freezeLockHesitation lockEndEpoch refund newDelegationLock with
      ⟨middle, lock⟩
    rcases effective : freezeEffective lockEndEpoch middle lock with ⟨frozen, final⟩
    simp only [ending, hesitation, effective, Except.ok.injEq, Prod.mk.injEq] at success
    obtain ⟨-, rfl⟩ := success
    have started : (newDelegationLock.locks.map (·.epoch)).Sublist [lockEndEpoch] :=
      List.nil_sublist _
    have middle_ends : (lock.locks.map (·.epoch)).Sublist [lockEndEpoch] := by
      simpa [hesitation] using freezeLockHesitation_endsAt refund started
    have ends := freezeEffective_endsAt middle middle_ends
    rw [effective] at ends
    split
    · exact .inr ⟨lockEndEpoch, final, ends, rfl⟩
    · exact .inl rfl
  · obtain ⟨⟨paid, chain⟩, -, same⟩ := Rollback.map_eq_ok.mp success
    simp only [Prod.mk.injEq] at same
    obtain ⟨-, rfl⟩ := same
    exact .inl rfl

theorem settleDelegation_locks {state next : StakingState} {delAddr : Address} {nodeId : NodeID}
    {stakingBlockNum : UInt64} {total realSub issueIncome : ℤ} {del : Delegation}
    (success : settleDelegation state delAddr nodeId stakingBlockNum total realSub del =
      .ok (issueIncome, next)) :
    next.delegationLocks = state.delegationLocks := by
  unfold settleDelegation at success
  split_ifs at success
  · cases paid : returnDelegateReward state.chain delAddr del.cumulativeIncome <;>
      simp only [paid, reduceCtorEq, Except.ok.injEq, Prod.mk.injEq] at success
    rw [← success.2]
  · simp only [Except.ok.injEq, Prod.mk.injEq] at success
    rw [← success.2]

theorem withdrewDelegation_locks {ctx : WithdrewContext} {state next : StakingState} {amount : ℤ}
    {delAddr : Address} {nodeId : NodeID} {stakingBlockNum : UInt64} {del : Delegation}
    {delegateRewardPerList : List DelegateRewardPer} {result : WithdrewResult}
    (success : withdrewDelegation ctx state amount delAddr nodeId stakingBlockNum del
      delegateRewardPerList = .ok (result, next)) :
    next.delegationLocks = state.delegationLocks ∨
      ∃ lockEndEpoch lock, (lock.locks.map (·.epoch)).Sublist [lockEndEpoch] ∧
        next.delegationLocks = Function.update state.delegationLocks delAddr
          (if lock.shouldDel then none else some lock) := by
  obtain ⟨_, _, _, _, middle, branched, settled, _, _, _, _, _, _, _, _, middle_locks, branch, _,
    settling, candidate, _⟩ := withdrewDelegation_eq_ok success
  have next_locks : next.delegationLocks = branched.delegationLocks :=
    (settleCandidate_spec candidate).2.trans (settleDelegation_locks settling)
  rcases refundLockedOrEffective_locks branch with same | ⟨lockEndEpoch, lock, ends, rfl⟩
  · exact .inl (next_locks.trans (same.trans middle_locks))
  · exact .inr ⟨lockEndEpoch, lock, ends, by rw [next_locks, putDelegationLock_delegationLocks,
      middle_locks]⟩

theorem advanceDelegationLockedFunds_locks {state next : StakingState} {account : Address}
    {currentEpoch : UInt32} {amount lockReleasedHes lockRestrictingHes : ℤ}
    (success : advanceDelegationLockedFunds state account currentEpoch amount =
      .ok (lockReleasedHes, lockRestrictingHes, next)) :
    ∃ stored lock, state.delegationLocks account = some stored ∧
      (lock.locks.map (·.epoch)).Sublist (stored.locks.map (·.epoch)) ∧
      next = state.putDelegationLock account lock := by
  unfold advanceDelegationLockedFunds at success
  split at success
  · cases success
  · rename_i read found
    obtain ⟨stored, stored_eq, read_sub⟩ := getDelegationLock_epochs found
    have taken := advanceLockedFunds_epochs read amount
    split at success
    · rename_i d same
      rw [same] at taken
      simp only [Except.ok.injEq, Prod.mk.injEq] at success
      exact ⟨stored, d, stored_eq, taken.sublist.trans read_sub, success.2.2.symm⟩
    · cases success

theorem redeemReleased_locks (delAddr : Address) (lock : DelegationLock)
    (chain : RestrictingState) : (redeemReleased delAddr lock chain).2.2.1.locks = lock.locks := by
  unfold redeemReleased
  split_ifs <;> rfl

theorem redeemRestrictingPlan_locks {delAddr : Address} {redeem redeemed : Bool}
    {lock after : DelegationLock} {chain chain' : RestrictingState} {restrictingPlan : ℤ}
    (success : redeemRestrictingPlan delAddr redeem lock chain =
      .ok (restrictingPlan, redeemed, after, chain')) :
    after.locks = lock.locks := by
  unfold redeemRestrictingPlan at success
  split_ifs at success
  · split at success
    · cases success
    · simp only [Except.ok.injEq, Prod.mk.injEq] at success
      rw [← success.2.2.1]
  · simp only [Except.ok.injEq, Prod.mk.injEq] at success
    rw [← success.2.2.1]

/-- `RedeemDelegation` leaves the locks alone, or stores a part of the delegator's stored
periods, in their order. -/
theorem redeemDelegation_locks {state next : StakingState} {blocksEachEpoch blockNumber : UInt64}
    {delAddr : Address} {released restrictingPlan : ℤ}
    (success : redeemDelegation state blocksEachEpoch blockNumber delAddr =
      .ok (released, restrictingPlan, next)) :
    next.delegationLocks = state.delegationLocks ∨
      ∃ stored lock, state.delegationLocks delAddr = some stored ∧
        (lock.locks.map (·.epoch)).Sublist (stored.locks.map (·.epoch)) ∧
        next.delegationLocks = Function.update state.delegationLocks delAddr
          (if lock.shouldDel then none else some lock) := by
  unfold redeemDelegation at success
  split at success
  · simp only [Except.ok.injEq, Prod.mk.injEq] at success
    exact .inl (by rw [← success.2.2])
  · rename_i read found
    obtain ⟨stored, stored_eq, read_sub⟩ := getDelegationLock_epochs found
    obtain ⟨⟨paid, redeemed, after, chain⟩, restricting, same⟩ := Rollback.map_eq_ok.mp success
    have after_locks : after.locks = read.locks :=
      (redeemRestrictingPlan_locks restricting).trans (redeemReleased_locks delAddr read state.chain)
    simp only [Prod.mk.injEq] at same
    obtain ⟨-, -, rfl⟩ := same
    split
    · exact .inr ⟨stored, after, stored_eq, after_locks ▸ read_sub, rfl⟩
    · exact .inl rfl

/-! ## Runs -/

/-- Every stored lock lists its periods in strictly increasing order of epoch. -/
def LocksSorted (locks : Address → Option DelegationLock) : Prop :=
  ∀ delAddr lock, locks delAddr = some lock → (lock.locks.map (·.epoch)).Pairwise (· < ·)

theorem LocksSorted.put {locks : Address → Option DelegationLock} (sorted : LocksSorted locks)
    {delAddr : Address} {lock : DelegationLock}
    (lock_sorted : (lock.locks.map (·.epoch)).Pairwise (· < ·)) :
    LocksSorted (Function.update locks delAddr (if lock.shouldDel then none else some lock)) := by
  intro other found stored
  by_cases same : other = delAddr
  · subst same
    simp only [Function.update_self] at stored
    split at stored
    · cases stored
    · cases stored
      exact lock_sorted
  · rw [Function.update_of_ne same] at stored
    exact sorted other found stored

theorem sorted_of_endsAt {lock : DelegationLock} {lockEndEpoch : UInt32}
    (ends : (lock.locks.map (·.epoch)).Sublist [lockEndEpoch]) :
    (lock.locks.map (·.epoch)).Pairwise (· < ·) :=
  (List.pairwise_singleton _ lockEndEpoch).sublist ends

/-- The states reachable from a chain with no delegation locks by the calls that touch them:
`WithdrewDelegation`, under any governance parameters, the `LockVon` branch of `Delegate`, and
`RedeemDelegation`, together with anything else that leaves the locks alone. -/
inductive LockRun : StakingState → Prop
  | start {state : StakingState} (empty : ∀ delAddr, state.delegationLocks delAddr = none) :
      LockRun state
  | withdrewDelegation {state next : StakingState} (ctx : WithdrewContext) (amount : ℤ)
      (delAddr : Address) (nodeId : NodeID) (stakingBlockNum : UInt64) (del : Delegation)
      (delegateRewardPerList : List DelegateRewardPer) (result : WithdrewResult) :
      LockRun state →
      withdrewDelegation ctx state amount delAddr nodeId stakingBlockNum del
        delegateRewardPerList = .ok (result, next) →
      LockRun next
  | advanceDelegationLockedFunds {state next : StakingState} (account : Address)
      (currentEpoch : UInt32) (amount lockReleasedHes lockRestrictingHes : ℤ) :
      LockRun state →
      advanceDelegationLockedFunds state account currentEpoch amount =
        .ok (lockReleasedHes, lockRestrictingHes, next) →
      LockRun next
  | redeemDelegation {state next : StakingState} (blocksEachEpoch blockNumber : UInt64)
      (delAddr : Address) (released restrictingPlan : ℤ) :
      LockRun state →
      redeemDelegation state blocksEachEpoch blockNumber delAddr =
        .ok (released, restrictingPlan, next) →
      LockRun next
  | other {state next : StakingState} :
      LockRun state → next.delegationLocks = state.delegationLocks → LockRun next

/-- The run lemma: in every reachable state every stored lock is in order. -/
theorem LockRun.locksSorted {state : StakingState} (run : LockRun state) :
    LocksSorted state.delegationLocks := by
  induction run with
  | start empty =>
    intro delAddr lock stored
    simp [empty] at stored
  | withdrewDelegation ctx amount delAddr nodeId stakingBlockNum del delegateRewardPerList result
      _ success sorted =>
    rcases withdrewDelegation_locks success with same | ⟨lockEndEpoch, lock, ends, next_locks⟩
    · exact same ▸ sorted
    · exact next_locks ▸ sorted.put (sorted_of_endsAt ends)
  | advanceDelegationLockedFunds account currentEpoch amount lockReleasedHes lockRestrictingHes
      _ success sorted =>
    obtain ⟨stored, lock, stored_eq, sub, rfl⟩ := advanceDelegationLockedFunds_locks success
    exact sorted.put ((sorted account stored stored_eq).sublist sub)
  | redeemDelegation blocksEachEpoch blockNumber delAddr released restrictingPlan _ success
      sorted =>
    rcases redeemDelegation_locks success with same | ⟨stored, lock, stored_eq, sub, next_locks⟩
    · exact same ▸ sorted
    · exact next_locks ▸ sorted.put ((sorted delAddr stored stored_eq).sublist sub)
  | other _ same sorted => exact same ▸ sorted

/-- Expired delegation locks are always released.  In every state reachable by withdrawals under
any `UnDelegateFreezeDuration`, re-delegations of locked funds and redemptions, every stored lock
lists its periods in strictly increasing order of epoch, and reading it in any epoch through
`GetDelegationLock` unlocks exactly the periods that ended before that epoch: they leave the
periods, the others stay, and their funds join the unlocked balances, so the total is kept. -/
theorem expired_locks_released {state : StakingState} (run : LockRun state) {delAddr : Address}
    {lock : DelegationLock} (stored : state.delegationLocks delAddr = some lock) :
    (lock.locks.map (·.epoch)).Pairwise (· < ·) ∧
      ∀ currentEpoch, ∃ read, state.getDelegationLock delAddr currentEpoch = some read ∧
        read.locks = lock.locks.filter (fun p => currentEpoch ≤ p.epoch) ∧
        read.released =
          lock.released + ((lock.locks.filter (·.epoch < currentEpoch)).map (·.released)).sum ∧
        read.restrictingPlan = lock.restrictingPlan +
          ((lock.locks.filter (·.epoch < currentEpoch)).map (·.restrictingPlan)).sum ∧
        read.released + read.restrictingPlan +
            (read.locks.map fun p => p.released + p.restrictingPlan).sum =
          lock.released + lock.restrictingPlan +
            (lock.locks.map fun p => p.released + p.restrictingPlan).sum := by
  have sorted := run.locksSorted delAddr lock stored
  refine ⟨sorted, fun currentEpoch => ?_⟩
  obtain ⟨kept, released, restricting⟩ :=
    update_of_sorted (d := { lock with change := false }) sorted currentEpoch
  exact ⟨_, by simp [StakingState.getDelegationLock, stored], kept, released, restricting,
    update_total _ currentEpoch⟩

/-- After a first withdrawal in epoch 3, frozen until epoch 4, the stored lock is read in epoch 5
with its period released. -/
theorem expired_locks_released_after_withdrawal :
    ∃ state, LockRun state ∧
      state.delegationLocks sampleDelegator = some ⟨[⟨4, 10, 0⟩], 0, 0, true⟩ ∧
      ∃ read, state.getDelegationLock sampleDelegator 5 = some read ∧ read.locks = [] ∧
        read.released = 10 := by
  obtain ⟨result, next, success, stored⟩ : ∃ result next,
      withdrewDelegation sampleWithdrewContext unlockedChain 10 sampleDelegator sampleValidator 1
        sampleDelegation [] = .ok (result, next) ∧
      next.delegationLocks sampleDelegator = some ⟨[⟨4, 10, 0⟩], 0, 0, true⟩ := ⟨_, _, rfl, rfl⟩
  have run : LockRun next := .withdrewDelegation _ _ _ _ _ _ _ _ (.start fun _ => rfl) success
  obtain ⟨-, released⟩ := expired_locks_released run stored
  obtain ⟨read, found, kept, paid, -, -⟩ := released 5
  exact ⟨next, run, stored, read, found, by rw [kept]; decide, by rw [paid]; decide⟩

end Staking
end Bubble
