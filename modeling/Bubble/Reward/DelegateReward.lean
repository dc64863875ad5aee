import Bubble.Staking.Delegation

/-!
# Delegate rewards per epoch

`x/reward/reward_type.go` and the delegate-reward parts of `x/plugin/reward_plugin.go` and
`x/plugin/staking_plugin.go`.  At the end of each epoch a validator's delegate reward is recorded
as a `DelegateRewardPer` of the epoch: the reward and the validator's effective delegations, which
`Left` counts down as delegators claim their share.  `calcDelegateIncome` charges a delegation
against every epoch it has not yet claimed, and `UpdateDelegateRewardPer` writes the charges back.

The records of one node and staking are stored in lists of a thousand epochs each, under
`DelegateRewardPerKey(nodeID, stakingNum, epoch / 1000)`.
-/

namespace Bubble
namespace Reward

open Staking

/-- `reward.DelegateRewardPer`. -/
structure DelegateRewardPer where
  /-- The effective delegations not yet charged. -/
  left : ℤ
  epoch : UInt64
  /-- The validator's effective delegations at the end of the epoch. -/
  delegate : ℤ
  /-- The delegate reward of the epoch. -/
  reward : ℤ
  deriving DecidableEq, Repr

/-- `CalDelegateReward`: a delegation's share of the epoch's reward.  `big.Int.Div` is Euclidean
division, as `/` on `ℤ` is; `Delegate` is positive in every record `HandleDelegatePerReward`
stores. -/
def DelegateRewardPer.calDelegateReward (d : DelegateRewardPer) (delegate : ℤ) : ℤ :=
  delegate * d.reward / d.delegate

/-- `reward.DelegateRewardReceipt`: a delegation's effective amount charged against an epoch. -/
structure DelegateRewardReceipt where
  delegate : ℤ
  epoch : UInt64
  deriving DecidableEq, Repr

/-- One epoch of `calcDelegateIncome`: a delegation with effective funds is charged against the
epoch and credited its share of the reward. -/
def chargeEpoch (totalReleased : ℤ) (rewardPer : DelegateRewardPer) (del : Delegation) :
    Option DelegateRewardReceipt × Delegation :=
  if 0 < totalReleased then
    (some ⟨totalReleased, rewardPer.epoch⟩,
      { del with
          cumulativeIncome := del.cumulativeIncome + rewardPer.calDelegateReward totalReleased })
  else (none, del)

/-- The epochs of `calcDelegateIncome` after the first, all charged with one effective amount. -/
def chargeEpochs (totalReleased : ℤ) :
    List DelegateRewardPer → Delegation → List DelegateRewardReceipt × Delegation
  | [], del => ([], del)
  | rewardPer :: rest, del =>
      let (receipt, del) := chargeEpoch totalReleased rewardPer del
      let (receipts, del) := chargeEpochs totalReleased rest del
      (receipt.toList ++ receipts, del)

/-- `calcDelegateIncome`: charge the delegation against the unclaimed epochs `per` (oldest first).
The first epoch is charged with the effective funds as they stand, converted first when the
delegation predates it; the conversion then runs, and every later epoch is charged with the
converted amount. -/
def calcDelegateIncome (epoch : UInt64) (del : Delegation) (per : List DelegateRewardPer) :
    List DelegateRewardReceipt × Delegation :=
  if del.delegateEpoch.toUInt64 = epoch then ([], del)
  else
    match per with
    | [] => ([], lazyCalcDelegateAmount epoch del)
    | first :: rest =>
        let del :=
          if del.delegateEpoch.toUInt64 < first.epoch then lazyCalcDelegateAmount epoch del else del
        let (receipt, del) := chargeEpoch (del.released + del.restrictingPlan) first del
        let del := lazyCalcDelegateAmount epoch del
        let (receipts, del) := chargeEpochs (del.released + del.restrictingPlan) rest del
        (receipt.toList ++ receipts, del)

/-- The loop of `DecreaseTotalAmount` over a stored list and a window of receipts, both ordered by
epoch: a receipt of a recorded epoch lowers its `Left`, and a record whose `Left` reaches zero is
removed.  Returns the list, how many receipts were consumed, and whether anything changed. -/
def decreaseLoop :
    List DelegateRewardPer → List DelegateRewardReceipt → List DelegateRewardPer × ℕ × Bool
  | [], _ => ([], 0, false)
  | pers@(_ :: _), [] => (pers, 0, false)
  | per :: pers, receipt :: receipts =>
      if per.epoch < receipt.epoch then
        let (rest, used, changed) := decreaseLoop pers (receipt :: receipts)
        (per :: rest, used, changed)
      else if receipt.epoch < per.epoch then
        let (rest, used, changed) := decreaseLoop (per :: pers) receipts
        (rest, used + 1, changed)
      else
        let left := per.left - receipt.delegate
        let (rest, used, _) := decreaseLoop pers receipts
        (if left ≤ 0 then rest else { per with left } :: rest, used + 1, true)
termination_by pers receipts => pers.length + receipts.length

/-- `reward.DelegateRewardPerLength`: epochs per stored list. -/
def delegateRewardPerLength : ℕ := 1000

/-- The index part of `DelegateRewardPerKey`: the thousand-epoch list an epoch is stored in. -/
def perKeyIndex (epoch : UInt64) : UInt32 :=
  (epoch / delegateRewardPerLength.toUInt64).toUInt32

/-- The indices of `DelegateRewardPerKeys(nodeID, stakingNum, fromEpoch, toEpoch)`. -/
def perKeyIndices (fromEpoch toEpoch : UInt64) : List UInt32 :=
  let indexFrom := (perKeyIndex fromEpoch).toNat
  (List.range ((perKeyIndex toEpoch).toNat + 1 - indexFrom)).map fun i => (indexFrom + i).toUInt32

/-- The reward plugin's `DelegateRewardPer` lists, by node, staking block and list index. -/
abbrev RewardPerStore := NodeID × UInt64 × UInt32 → Option (List DelegateRewardPer)

/-- The loop of `UpdateDelegateRewardPer`: each stored list takes the receipts from `reIndex` on,
a thousand at most, and is written back when it changed (or deleted when it is empty). -/
def updateLoop (nodeID : NodeID) (stakingNum : UInt64) (receives : List DelegateRewardReceipt) :
    List UInt32 → ℕ → RewardPerStore → RewardPerStore
  | [], _, store => store
  | index :: indices, reIndex, store =>
      match store (nodeID, stakingNum, index) with
      | none => updateLoop nodeID stakingNum receives indices reIndex store
      | some pers =>
          let window :=
            if receives.length - reIndex < delegateRewardPerLength then receives.drop reIndex
            else (receives.drop reIndex).take delegateRewardPerLength
          let (pers, used, changed) := decreaseLoop pers window
          let store :=
            if changed then
              Function.update store (nodeID, stakingNum, index) (if pers = [] then none else some pers)
            else store
          updateLoop nodeID stakingNum receives indices (reIndex + used) store

/-- `UpdateDelegateRewardPer`. -/
def updateDelegateRewardPer (store : RewardPerStore) (nodeID : NodeID) (stakingNum : UInt64)
    (receives : List DelegateRewardReceipt) : RewardPerStore :=
  match receives.head?, receives.getLast? with
  | some first, some last =>
      updateLoop nodeID stakingNum receives (perKeyIndices first.epoch last.epoch) 0 store
  | _, _ => store

end Reward
end Bubble
