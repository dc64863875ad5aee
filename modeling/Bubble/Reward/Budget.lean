import Mathlib
import Bubble.Common
import Bubble.Lib.Ledger

/-!
# The reward pool's budget

`EndBlock` of `x/plugin/reward_plugin.go`.  Every block's producer is paid the epoch's block reward
out of `RewardManagerPoolAddr`, a share of it into the delegate reward pool when the producer
shares with its delegators; at the end of each epoch the epoch's staking reward is divided among
the verifiers, the year's issuance is added to the pool at a year end, and `CalcEpochReward`
computes the next epoch's rewards from the remaining reward.  Nothing else takes from the pool:
the transactions of a block can only add to it.

The budget is that the pool holds what is still to be paid: the remaining reward, the block reward
of every block left in the epoch, and the epoch's staking reward.  `CalcEpochReward` reads the
remaining reward from `YearEndBalance(0)`, the pool at genesis, as long as no year start time is
stored, and `StorageYearStartTime` stores a time only when it is positive: after a block one with
time `0` the first epoch end computes the rewards from the genesis balance a second time.
-/

namespace Bubble
namespace Reward

open Ledger

/-- `RewardPoolIncreaseRate`: the percentage of a year's issuance added to the pool. -/
def rewardPoolIncreaseRate : ℕ := 80

/-- `LessThanFoundationYearDeveloperRate`. -/
def lessThanFoundationYearDeveloperRate : ℕ := 100

/-- `AfterFoundationYearDeveloperRewardRate`. -/
def afterFoundationYearDeveloperRewardRate : ℕ := 50

/-- `AfterFoundationYearFoundRewardRate`. -/
def afterFoundationYearFoundRewardRate : ℕ := 50

/-- `percentageCalculation`: `rate` percent of `mount`, rounded down as `big.Int.Div` rounds. -/
def percentageCalculation (mount : ℤ) (rate : ℕ) : ℤ := mount * rate / 100

/-- The parameters of the economic model that `EndBlock` reads.  `CheckEconomicModel` refuses a
block reward rate above `100` and an epoch of fewer than four consensus rounds. -/
structure RewardConfig where
  /-- `CalcBlocksEachEpoch`. -/
  epochBlocks : ℕ
  /-- `NewBlockRewardRate`: the percentage of an epoch's reward paid for its blocks. -/
  newBlockRate : ℕ
  /-- `AdditionalCycleTime`, in milliseconds. -/
  additionalCycleTime : ℤ
  /-- `BubbleFoundationYear`. -/
  foundationYear : UInt32
  /-- `CDFAccount`. -/
  cdfAccount : Address
  /-- `BubbleFundAccount`. -/
  bubbleFundAccount : Address
  epochBlocks_pos : 0 < epochBlocks
  newBlockRate_le : newBlockRate ≤ 100

/-- What `EndBlock` reads and writes of the state database: the balances, and the pool's records
of each year's end balance and cumulative issuance, stored as the bytes of their absolute value. -/
structure StateDB where
  balance : Address → ℤ
  /-- `GetYearEndBalance`. -/
  yearEndBalance : UInt32 → ℕ
  /-- `GetHistoryCumulativeIssue`. -/
  cumulativeIssue : UInt32 → ℕ

/-- The reward plugin's records in the snapshot database.  Amounts are stored as the bytes of
their absolute value, and a missing record reads as zero. -/
structure RewardStore where
  remainingReward : ℕ
  newBlockReward : ℕ
  stakingReward : ℕ
  chainYearNumber : UInt32
  yearStartBlockNumber : ℕ
  yearStartTime : ℤ
  incIssuanceTime : ℤ
  incIssuanceNumber : ℕ

/-- The state `EndBlock` works on. -/
structure RewardState where
  state : StateDB
  store : RewardStore

/-- What the reward plugin reads of a candidate: its benefit address, its `RewardPer` in basis
points (at most `10000`: `verifyRewardPer` checks every value the staking contract stores),
`DelegateTotal` and `CurrentEpochDelegateReward`. -/
structure Candidate where
  benefitAddress : Address
  rewardPer : ℕ
  delegateTotal : ℤ
  currentEpochDelegateReward : ℤ
  rewardPer_le : rewardPer ≤ 10000

/-- `ShouldGiveDelegateReward`. -/
def Candidate.shouldGiveDelegateReward (can : Candidate) : Bool :=
  decide (0 < can.delegateTotal ∧ 0 < can.rewardPer)

/-- What `EndBlock` reads of a block and of the other plugins: the header's number and coinbase,
the producer's candidate record when it is a current verifier, the epoch's verifiers, the governed
increase-issuance ratio, and the numbers of epochs left in the year that `CalcEpochReward`
computes from block times in floating point, at block one and at an epoch end. -/
structure BlockInfo where
  number : ℕ
  coinbase : Address
  producer : Option Candidate
  verifiers : List Candidate
  increaseIssuanceRatio : ℕ
  firstRemainEpoch : ℕ+
  remainEpoch : ℕ+

/-! ## Paying rewards -/

/-- `CalDelegateRewardAndNodeReward`: the delegators' `per` basis points of a reward, and the
rest. -/
def calDelegateRewardAndNodeReward (totalReward : ℤ) (per : ℕ) : ℤ × ℤ :=
  let tmp := totalReward * per / 10000
  (tmp, totalReward - tmp)

/-- The first part of `AllocatePackageBlock`: when the producer is a current verifier that shares
with its delegators, their share of the block reward goes to the delegate reward pool.  The
balances and the rest of the reward. -/
def shareWithDelegates (balance : Address → ℤ) (producer : Option Candidate) (reward : ℤ) :
    (Address → ℤ) × ℤ :=
  match producer with
  | some cm =>
    if cm.shouldGiveDelegateReward then
      let split := calDelegateRewardAndNodeReward reward cm.rewardPer
      (transfer balance rewardManagerPoolAddr delegateRewardPoolAddr split.1, split.2)
    else (balance, reward)
  | none => (balance, reward)

/-- `AllocatePackageBlock`: the delegators' share of the block reward goes to the delegate reward
pool, and the rest to the coinbase unless the coinbase is the pool itself. -/
def allocatePackageBlock (balance : Address → ℤ) (producer : Option Candidate) (coinbase : Address)
    (reward : ℤ) : Address → ℤ :=
  let shared := shareWithDelegates balance producer reward
  if coinbase ≠ rewardManagerPoolAddr then
    transfer shared.1 rewardManagerPoolAddr coinbase shared.2
  else shared.1

/-- The delegators' and the verifier's parts of a verifier's even share of the staking reward;
the delegators have a part only when the verifier shares with them. -/
def delegateSplit (everyValidatorReward : ℤ) (value : Candidate) : ℤ × ℤ :=
  if value.shouldGiveDelegateReward then
    calDelegateRewardAndNodeReward everyValidatorReward value.rewardPer
  else (0, everyValidatorReward)

/-- One verifier of `rewardStakingByValidatorList`: the balances, the total of the validators'
rewards and the total of the delegators' rewards so far.  A verifier whose benefit address is the
pool is paid nothing but its delegators' share. -/
def rewardValidator (everyValidatorReward : ℤ) (acc : (Address → ℤ) × ℤ × ℤ) (value : Candidate) :
    (Address → ℤ) × ℤ × ℤ :=
  let split := delegateSplit everyValidatorReward value
  if value.benefitAddress ≠ rewardManagerPoolAddr then
    (credit acc.1 value.benefitAddress split.2, acc.2.1 + split.2, acc.2.2 + split.1)
  else (acc.1, acc.2.1, acc.2.2 + split.1)

/-- `rewardStakingByValidatorList`: the staking reward divided evenly among the verifiers, the
delegators' shares into the delegate reward pool, and both totals out of the pool; `none` where
`big.Int.Div` panics on an empty list. -/
def rewardStakingByValidatorList (balance : Address → ℤ) (list : List Candidate) (reward : ℤ) :
    Option (Address → ℤ) :=
  if list.length = 0 then none
  else
    let everyValidatorReward := reward / list.length
    let totals := list.foldl (rewardValidator everyValidatorReward) (balance, 0, 0)
    some (credit (credit totals.1 delegateRewardPoolAddr totals.2.2) rewardManagerPoolAddr
      (-(totals.2.2 + totals.2.1)))

/-- `ReturnDelegateReward`: a positive amount the delegate reward pool can pay goes back to the
address; otherwise the error is only logged. -/
def returnDelegateReward (balance : Address → ℤ) (address : Address) (amount : ℤ) :
    Address → ℤ :=
  if 0 < amount ∧ amount ≤ balance delegateRewardPoolAddr then
    transfer balance delegateRewardPoolAddr address amount
  else balance

/-- `HandleDelegatePerReward`: a verifier with a delegate reward and no delegations gets it back.
Such a verifier is not one `rewardStakingByValidatorList` shares with, so its
`CurrentEpochDelegateReward` is the one it was read with; the records stored for the others move no
balance. -/
def handleDelegatePerReward (balance : Address → ℤ) (list : List Candidate) : Address → ℤ :=
  list.foldl (fun balance verifier =>
    if verifier.currentEpochDelegateReward = 0 then balance
    else if verifier.delegateTotal = 0 then
      returnDelegateReward balance verifier.benefitAddress verifier.currentEpochDelegateReward
    else balance) balance

/-! ### The pool under each payment -/

theorem rewardPool_ne_delegatePool : rewardManagerPoolAddr ≠ delegateRewardPoolAddr := by decide

theorem share_bounds {amount : ℤ} (nonneg : 0 ≤ amount) {rate scale : ℕ} (le : rate ≤ scale) :
    0 ≤ amount * rate / scale ∧ amount * rate / scale ≤ amount := by
  rcases Nat.eq_zero_or_pos scale with zero | pos
  · simp [zero, nonneg]
  · have scale_pos : (0 : ℤ) < scale := by exact_mod_cast pos
    have bound : amount * rate ≤ amount * scale :=
      mul_le_mul_of_nonneg_left (by exact_mod_cast le) nonneg
    exact ⟨Int.ediv_nonneg (mul_nonneg nonneg (by positivity)) scale_pos.le,
      Int.ediv_le_of_le_mul scale_pos bound⟩

theorem percentageCalculation_bounds {mount : ℤ} (nonneg : 0 ≤ mount) {rate : ℕ}
    (le : rate ≤ 100) :
    0 ≤ percentageCalculation mount rate ∧ percentageCalculation mount rate ≤ mount := by
  simpa [percentageCalculation] using share_bounds nonneg le

theorem calDelegateRewardAndNodeReward_bounds {totalReward : ℤ} (nonneg : 0 ≤ totalReward)
    {per : ℕ} (le : per ≤ 10000) :
    0 ≤ (calDelegateRewardAndNodeReward totalReward per).1 ∧
      0 ≤ (calDelegateRewardAndNodeReward totalReward per).2 ∧
      (calDelegateRewardAndNodeReward totalReward per).1 +
        (calDelegateRewardAndNodeReward totalReward per).2 = totalReward := by
  have share : 0 ≤ totalReward * per / 10000 ∧ totalReward * per / 10000 ≤ totalReward := by
    simpa using share_bounds nonneg le
  simp only [calDelegateRewardAndNodeReward]
  omega

theorem shareWithDelegates_pool (balance : Address → ℤ) (producer : Option Candidate)
    {reward : ℤ} (nonneg : 0 ≤ reward) :
    (shareWithDelegates balance producer reward).1 rewardManagerPoolAddr + reward =
        balance rewardManagerPoolAddr + (shareWithDelegates balance producer reward).2 ∧
      0 ≤ (shareWithDelegates balance producer reward).2 ∧
      (shareWithDelegates balance producer reward).2 ≤ reward := by
  rcases producer with _ | cm
  · simp [shareWithDelegates, nonneg]
  · by_cases shares : cm.shouldGiveDelegateReward
    · obtain ⟨delegate_nonneg, rest_nonneg, sum⟩ :=
        calDelegateRewardAndNodeReward_bounds nonneg cm.rewardPer_le
      simp only [shareWithDelegates, shares, if_true,
        transfer_src rewardPool_ne_delegatePool]
      omega
    · simp [shareWithDelegates, shares, nonneg]

theorem allocatePackageBlock_pool (balance : Address → ℤ) (producer : Option Candidate)
    (coinbase : Address) {reward : ℤ} (nonneg : 0 ≤ reward) :
    balance rewardManagerPoolAddr - reward ≤
        allocatePackageBlock balance producer coinbase reward rewardManagerPoolAddr ∧
      allocatePackageBlock balance producer coinbase reward rewardManagerPoolAddr ≤
        balance rewardManagerPoolAddr := by
  obtain ⟨moved, rest_nonneg, rest_le⟩ := shareWithDelegates_pool balance producer nonneg
  by_cases to_pool : coinbase = rewardManagerPoolAddr
  · simp only [allocatePackageBlock, to_pool, ne_eq, not_true_eq_false, if_false]
    omega
  · simp only [allocatePackageBlock, ne_eq, to_pool, not_false_eq_true, if_true,
      transfer_src (Ne.symm to_pool)]
    omega

theorem delegateSplit_bounds {every : ℤ} (nonneg : 0 ≤ every) (value : Candidate) :
    0 ≤ (delegateSplit every value).1 ∧ 0 ≤ (delegateSplit every value).2 ∧
      (delegateSplit every value).1 + (delegateSplit every value).2 = every := by
  by_cases shares : value.shouldGiveDelegateReward
  · simpa [delegateSplit, shares] using
      calDelegateRewardAndNodeReward_bounds nonneg value.rewardPer_le
  · simp [delegateSplit, shares, nonneg]

theorem rewardValidator_bounds {every : ℤ} (nonneg : 0 ≤ every) (acc : (Address → ℤ) × ℤ × ℤ)
    (value : Candidate) :
    (rewardValidator every acc value).1 rewardManagerPoolAddr = acc.1 rewardManagerPoolAddr ∧
      acc.2.1 + acc.2.2 ≤
        (rewardValidator every acc value).2.1 + (rewardValidator every acc value).2.2 ∧
      (rewardValidator every acc value).2.1 + (rewardValidator every acc value).2.2 ≤
        acc.2.1 + acc.2.2 + every := by
  obtain ⟨delegate_nonneg, rest_nonneg, sum⟩ := delegateSplit_bounds nonneg value
  by_cases to_pool : value.benefitAddress = rewardManagerPoolAddr
  · simp only [rewardValidator, to_pool, ne_eq, not_true_eq_false, if_false, true_and]
    omega
  · simp only [rewardValidator, ne_eq, to_pool, not_false_eq_true, if_true,
      credit_of_ne (Ne.symm to_pool), true_and]
    omega

theorem foldl_rewardValidator {every : ℤ} (nonneg : 0 ≤ every) (list : List Candidate)
    (acc : (Address → ℤ) × ℤ × ℤ) :
    (list.foldl (rewardValidator every) acc).1 rewardManagerPoolAddr = acc.1 rewardManagerPoolAddr ∧
      acc.2.1 + acc.2.2 ≤
        (list.foldl (rewardValidator every) acc).2.1 +
          (list.foldl (rewardValidator every) acc).2.2 ∧
      (list.foldl (rewardValidator every) acc).2.1 + (list.foldl (rewardValidator every) acc).2.2 ≤
        acc.2.1 + acc.2.2 + list.length * every := by
  induction list generalizing acc with
  | nil => simp
  | cons value rest ih =>
    obtain ⟨pool_same, grows, bounded⟩ := rewardValidator_bounds nonneg acc value
    obtain ⟨rest_pool, rest_grows, rest_bounded⟩ := ih (rewardValidator every acc value)
    have count : ((value :: rest).length : ℤ) * every = rest.length * every + every := by
      rw [List.length_cons]
      push_cast
      ring
    simp only [List.foldl_cons, count]
    exact ⟨rest_pool.trans pool_same, grows.trans rest_grows, by linarith⟩

theorem rewardStakingByValidatorList_pool {balance balance' : Address → ℤ} {list : List Candidate}
    {reward : ℤ} (nonneg : 0 ≤ reward)
    (paid : rewardStakingByValidatorList balance list reward = some balance') :
    balance rewardManagerPoolAddr - reward ≤ balance' rewardManagerPoolAddr ∧
      balance' rewardManagerPoolAddr ≤ balance rewardManagerPoolAddr := by
  unfold rewardStakingByValidatorList at paid
  split_ifs at paid with empty
  have length_pos : (0 : ℤ) < list.length := by exact_mod_cast Nat.pos_of_ne_zero empty
  have every_nonneg : 0 ≤ reward / list.length := Int.ediv_nonneg nonneg length_pos.le
  have shares : reward / list.length * list.length ≤ reward := Int.ediv_mul_le reward length_pos.ne'
  obtain ⟨pool_same, grows, bounded⟩ :=
    foldl_rewardValidator every_nonneg list (balance, 0, 0)
  cases paid
  simp only [credit_same, credit_of_ne rewardPool_ne_delegatePool] at pool_same ⊢
  simp only [add_zero] at grows bounded
  rw [pool_same]
  constructor <;> nlinarith

theorem returnDelegateReward_pool (balance : Address → ℤ) (address : Address) (amount : ℤ) :
    balance rewardManagerPoolAddr ≤
      returnDelegateReward balance address amount rewardManagerPoolAddr := by
  unfold returnDelegateReward
  split_ifs with payable
  · exact le_transfer_of_ne_src rewardPool_ne_delegatePool address payable.1.le
  · exact le_rfl

theorem handleDelegatePerReward_pool (balance : Address → ℤ) (list : List Candidate) :
    balance rewardManagerPoolAddr ≤ handleDelegatePerReward balance list rewardManagerPoolAddr := by
  induction list generalizing balance with
  | nil => exact le_rfl
  | cons verifier rest ih =>
    simp only [handleDelegatePerReward, List.foldl_cons] at ih ⊢
    refine le_trans ?_ (ih _)
    split_ifs
    · exact le_rfl
    · exact returnDelegateReward_pool balance _ _
    · exact le_rfl

section Issuance

variable (cfg : RewardConfig)

/-- `isLessThanFoundationYear`, in `uint32` arithmetic. -/
def isLessThanFoundationYear (thisYear : UInt32) : Bool :=
  decide (thisYear < cfg.foundationYear - 1)

/-- `increaseIssuance`: the year's issuance is a ratio of the cumulative issuance; eighty percent
of it goes to the pool and the rest to the foundations, and the pool's balance is recorded as the
year's end balance. -/
def increaseIssuance (thisYear lastYear : UInt32) (increaseIssuanceRatio : ℕ) (state : StateDB) :
    StateDB :=
  let histIssuance : ℤ := state.cumulativeIssue lastYear
  let currIssuance := histIssuance * increaseIssuanceRatio / 10000
  let cumulativeIssue :=
    Function.update state.cumulativeIssue thisYear (histIssuance + currIssuance).natAbs
  let rewardpoolIncr := percentageCalculation currIssuance rewardPoolIncreaseRate
  let balance := credit state.balance rewardManagerPoolAddr rewardpoolIncr
  let lessBalance := currIssuance - rewardpoolIncr
  let balance :=
    if isLessThanFoundationYear cfg thisYear then
      credit balance cfg.cdfAccount
        (percentageCalculation lessBalance lessThanFoundationYearDeveloperRate)
    else
      credit (credit balance cfg.cdfAccount
          (percentageCalculation lessBalance afterFoundationYearDeveloperRewardRate))
        cfg.bubbleFundAccount (percentageCalculation lessBalance afterFoundationYearFoundRewardRate)
  { balance, cumulativeIssue,
    yearEndBalance :=
      Function.update state.yearEndBalance thisYear (balance rewardManagerPoolAddr).natAbs }

/-- `runIncreaseIssuance`: at the year's end block the year number moves on, the issuance is
increased, the remaining reward becomes the pool's year-end balance and the time of the next
increase moves a cycle on. -/
def runIncreaseIssuance (number : ℕ) (increaseIssuanceRatio : ℕ) (s : RewardState) :
    RewardState :=
  if s.store.incIssuanceNumber = number then
    let yearNumber := s.store.chainYearNumber + 1
    let state := increaseIssuance cfg yearNumber (yearNumber - 1) increaseIssuanceRatio s.state
    { state,
      store := { s.store with
        chainYearNumber := yearNumber
        remainingReward := state.yearEndBalance yearNumber
        incIssuanceTime := s.store.incIssuanceTime + cfg.additionalCycleTime } }
  else s

theorem increaseIssuance_pool (thisYear lastYear : UInt32) (increaseIssuanceRatio : ℕ)
    (state : StateDB) :
    state.balance rewardManagerPoolAddr ≤
      (increaseIssuance cfg thisYear lastYear increaseIssuanceRatio state).balance
        rewardManagerPoolAddr := by
  have curr_nonneg : 0 ≤ (state.cumulativeIssue lastYear : ℤ) * increaseIssuanceRatio / 10000 :=
    Int.ediv_nonneg (by positivity) (by norm_num)
  obtain ⟨incr_nonneg, incr_le⟩ :=
    percentageCalculation_bounds curr_nonneg (show rewardPoolIncreaseRate ≤ 100 by decide)
  have less_nonneg := sub_nonneg.mpr incr_le
  have part_nonneg (rate : ℕ) (le : rate ≤ 100) := (percentageCalculation_bounds less_nonneg le).1
  simp only [increaseIssuance]
  refine le_trans (le_credit _ rewardManagerPoolAddr _ incr_nonneg) ?_
  split
  · exact le_credit _ _ _ (part_nonneg _ (by decide))
  · exact le_trans (le_credit _ _ _ (part_nonneg _ (by decide)))
      (le_credit _ _ _ (part_nonneg _ (by decide)))

@[simp]
theorem increaseIssuance_yearEndBalance (thisYear lastYear : UInt32) (increaseIssuanceRatio : ℕ)
    (state : StateDB) :
    (increaseIssuance cfg thisYear lastYear increaseIssuanceRatio state).yearEndBalance thisYear =
      ((increaseIssuance cfg thisYear lastYear increaseIssuanceRatio state).balance
        rewardManagerPoolAddr).natAbs := by
  simp [increaseIssuance]

theorem runIncreaseIssuance_pool (number increaseIssuanceRatio : ℕ) (s : RewardState) :
    s.state.balance rewardManagerPoolAddr ≤
      (runIncreaseIssuance cfg number increaseIssuanceRatio s).state.balance
        rewardManagerPoolAddr := by
  unfold runIncreaseIssuance
  split
  · exact increaseIssuance_pool cfg _ _ _ _
  · exact le_rfl

@[simp]
theorem runIncreaseIssuance_yearStartTime (number increaseIssuanceRatio : ℕ) (s : RewardState) :
    (runIncreaseIssuance cfg number increaseIssuanceRatio s).store.yearStartTime =
      s.store.yearStartTime := by
  unfold runIncreaseIssuance
  split <;> rfl

theorem runIncreaseIssuance_remainingReward (number increaseIssuanceRatio : ℕ) (s : RewardState) :
    (runIncreaseIssuance cfg number increaseIssuanceRatio s).store.remainingReward =
      if s.store.incIssuanceNumber = number then
        ((runIncreaseIssuance cfg number increaseIssuanceRatio s).state.balance
          rewardManagerPoolAddr).natAbs
      else s.store.remainingReward := by
  unfold runIncreaseIssuance
  split <;> simp

end Issuance

/-! ## The rewards of an epoch -/

/-- `StorageYearStartTime`: a block number is written only when positive, and so is a time. -/
def storageYearStartTime (store : RewardStore) (blockNumber : ℕ) (yearStartTime : ℤ) :
    RewardStore :=
  { store with
    yearStartBlockNumber := if 0 < blockNumber then blockNumber else store.yearStartBlockNumber
    yearStartTime := if 0 < yearStartTime then yearStartTime else store.yearStartTime }

/-- The remaining reward `CalcEpochReward` starts from: the pool's balance at genesis on the first
calculation, which is when no year start time is stored, and the stored one after it. -/
def readRemainingReward (state : StateDB) (store : RewardStore) : ℤ :=
  if store.yearStartTime = 0 then state.yearEndBalance 0 else store.remainingReward

/-- `CalcEpochReward`'s split of the remaining reward into the epoch's total, what remains, and
the number of epochs left: everything goes to the epoch once the time of increase has passed. -/
def splitRemainingReward (due : Bool) (remainReward : ℤ) (remainEpoch : ℕ+) : ℤ × ℤ × ℕ :=
  if due then (remainReward, 0, 1)
  else (remainReward / (remainEpoch : ℕ), remainReward - remainReward / (remainEpoch : ℕ),
    remainEpoch)

section Epoch

variable (cfg : RewardConfig) (time : ℕ → ℤ)

/-- The block reward of each of an epoch's blocks and the epoch's staking reward, from its total. -/
def epochRewards (epochTotalReward : ℤ) : ℤ × ℤ :=
  let epochTotalNewBlockReward := percentageCalculation epochTotalReward cfg.newBlockRate
  (epochTotalNewBlockReward / cfg.epochBlocks, epochTotalReward - epochTotalNewBlockReward)

/-- `CalcEpochReward`'s bookkeeping of the year: the first calculation starts the year at this
block and sets the time of increase a cycle on; after the first year every epoch moves the year
start one epoch on. -/
def yearStart (number : ℕ) (store : RewardStore) : RewardStore :=
  let first := store.yearStartTime = 0
  let yearStartBlockNumber := if first then number else store.yearStartBlockNumber
  let store :=
    if first then
      storageYearStartTime { store with incIssuanceTime := time number + cfg.additionalCycleTime }
        number (time number)
    else store
  if 0 < store.chainYearNumber ∧ ¬ (yearStartBlockNumber = 1 ∧ number ≤ store.incIssuanceNumber)
  then
    let start :=
      if yearStartBlockNumber = 1 then yearStartBlockNumber + cfg.epochBlocks - 1
      else yearStartBlockNumber + cfg.epochBlocks
    storageYearStartTime store start (time start)
  else store

/-- `CalcEpochReward` at block `number` of a chain whose headers have times `time`: the store it
leaves, the block reward and the staking reward. -/
def calcEpochReward (number : ℕ) (remainEpoch : ℕ+) (state : StateDB) (store : RewardStore) :
    RewardStore × ℤ × ℤ :=
  let incIssuanceTime :=
    if store.yearStartTime = 0 then time number + cfg.additionalCycleTime
    else store.incIssuanceTime
  let split := splitRemainingReward (decide (incIssuanceTime ≤ time number))
    (readRemainingReward state store) remainEpoch
  let store' := yearStart cfg time number store
  let store' :=
    if split.2.2 = 1 then { store' with incIssuanceNumber := number + cfg.epochBlocks } else store'
  let rewards := epochRewards cfg split.1
  ({ store' with
      remainingReward := split.2.1.natAbs
      newBlockReward := rewards.1.natAbs
      stakingReward := rewards.2.natAbs }, rewards)

theorem readRemainingReward_nonneg (state : StateDB) (store : RewardStore) :
    0 ≤ readRemainingReward state store := by
  unfold readRemainingReward
  split <;> positivity

theorem readRemainingReward_of_pos {state : StateDB} {store : RewardStore}
    (started : 0 < store.yearStartTime) :
    readRemainingReward state store = store.remainingReward := by
  simp [readRemainingReward, started.ne']

theorem splitRemainingReward_bounds (due : Bool) {remainReward : ℤ} (nonneg : 0 ≤ remainReward)
    (remainEpoch : ℕ+) :
    0 ≤ (splitRemainingReward due remainReward remainEpoch).1 ∧
      (splitRemainingReward due remainReward remainEpoch).1 ≤ remainReward ∧
      (splitRemainingReward due remainReward remainEpoch).2.1 =
        remainReward - (splitRemainingReward due remainReward remainEpoch).1 := by
  cases due
  · have epochs_pos : (0 : ℤ) < (remainEpoch : ℕ) := by exact_mod_cast remainEpoch.pos
    simp only [splitRemainingReward, Bool.false_eq_true, if_false]
    exact ⟨Int.ediv_nonneg nonneg epochs_pos.le, Int.ediv_le_self _ nonneg, trivial⟩
  · simp [splitRemainingReward, nonneg]

theorem epochRewards_bounds {total : ℤ} (nonneg : 0 ≤ total) :
    0 ≤ (epochRewards cfg total).1 ∧ 0 ≤ (epochRewards cfg total).2 ∧
      (epochRewards cfg total).1 * cfg.epochBlocks + (epochRewards cfg total).2 ≤ total := by
  obtain ⟨blocks_nonneg, blocks_le⟩ := percentageCalculation_bounds nonneg cfg.newBlockRate_le
  have count_pos : (0 : ℤ) < cfg.epochBlocks := by exact_mod_cast cfg.epochBlocks_pos
  have each := Int.ediv_mul_le (percentageCalculation total cfg.newBlockRate) count_pos.ne'
  simp only [epochRewards]
  exact ⟨Int.ediv_nonneg blocks_nonneg count_pos.le, by linarith, by linarith⟩

theorem calcEpochReward_rewards (number : ℕ) (remainEpoch : ℕ+) (state : StateDB)
    (store : RewardStore) :
    ∃ due, (calcEpochReward cfg time number remainEpoch state store).2 =
        epochRewards cfg
          (splitRemainingReward due (readRemainingReward state store) remainEpoch).1 ∧
      (calcEpochReward cfg time number remainEpoch state store).1.remainingReward =
        (splitRemainingReward due (readRemainingReward state store) remainEpoch).2.1.natAbs ∧
      (calcEpochReward cfg time number remainEpoch state store).1.newBlockReward =
        (calcEpochReward cfg time number remainEpoch state store).2.1.natAbs ∧
      (calcEpochReward cfg time number remainEpoch state store).1.stakingReward =
        (calcEpochReward cfg time number remainEpoch state store).2.2.natAbs :=
  ⟨_, rfl, rfl, rfl, rfl⟩

theorem calcEpochReward_fits (number : ℕ) (remainEpoch : ℕ+) (state : StateDB)
    (store : RewardStore) :
    ((calcEpochReward cfg time number remainEpoch state store).1.newBlockReward : ℤ) =
        (calcEpochReward cfg time number remainEpoch state store).2.1 ∧
      ((calcEpochReward cfg time number remainEpoch state store).1.stakingReward : ℤ) =
        (calcEpochReward cfg time number remainEpoch state store).2.2 ∧
      ((calcEpochReward cfg time number remainEpoch state store).1.remainingReward : ℤ) +
          (calcEpochReward cfg time number remainEpoch state store).2.1 * cfg.epochBlocks +
          (calcEpochReward cfg time number remainEpoch state store).2.2 ≤
        readRemainingReward state store := by
  obtain ⟨due, rewards, remaining, block, staking⟩ :=
    calcEpochReward_rewards cfg time number remainEpoch state store
  obtain ⟨total_nonneg, total_le, rest⟩ :=
    splitRemainingReward_bounds due (readRemainingReward_nonneg state store) remainEpoch
  obtain ⟨block_nonneg, staking_nonneg, fits⟩ := epochRewards_bounds cfg total_nonneg
  rw [block, staking, remaining, rest, rewards, Int.natAbs_of_nonneg block_nonneg,
    Int.natAbs_of_nonneg staking_nonneg, Int.natAbs_of_nonneg (sub_nonneg.mpr total_le)]
  exact ⟨rfl, rfl, by linarith⟩

theorem storageYearStartTime_pos {store : RewardStore} (blockNumber : ℕ) {yearStartTime : ℤ}
    (pos : 0 < store.yearStartTime ∨ 0 < yearStartTime) :
    0 < (storageYearStartTime store blockNumber yearStartTime).yearStartTime := by
  simp only [storageYearStartTime]
  split_ifs <;> omega

theorem yearStart_yearStartTime (number : ℕ) {store : RewardStore}
    (pos : 0 < store.yearStartTime ∨ store.yearStartTime = 0 ∧ 0 < time number) :
    0 < (yearStart cfg time number store).yearStartTime := by
  unfold yearStart
  dsimp only
  generalize first : (if store.yearStartTime = 0 then
      storageYearStartTime { store with incIssuanceTime := time number + cfg.additionalCycleTime }
        number (time number)
    else store) = started
  have started_pos : 0 < started.yearStartTime := by
    rw [← first]
    split
    · exact storageYearStartTime_pos _ (.inr (pos.resolve_left (by omega)).2)
    · exact pos.resolve_right fun fresh => by omega
  generalize (if store.yearStartTime = 0 then number else store.yearStartBlockNumber) = begun
  split
  · exact storageYearStartTime_pos _ (.inl started_pos)
  · exact started_pos

theorem calcEpochReward_yearStartTime (number : ℕ) (remainEpoch : ℕ+) (state : StateDB)
    (store : RewardStore) :
    (calcEpochReward cfg time number remainEpoch state store).1.yearStartTime =
      (yearStart cfg time number store).yearStartTime := by
  simp only [calcEpochReward]
  split_ifs <;> rfl

/-- `IsEndOfEpoch`. -/
def isEndOfEpoch (blockNumber : ℕ) : Bool :=
  blockNumber % cfg.epochBlocks == 0

/-- The rewards `EndBlock` pays in a block: `CalcEpochReward` computes them at block one, and they
are loaded from the store after it. -/
def loadRewards (b : BlockInfo) (s : RewardState) : RewardStore × ℤ × ℤ :=
  if b.number = 1 then calcEpochReward cfg time b.number b.firstRemainEpoch s.state s.store
  else (s.store, s.store.newBlockReward, s.store.stakingReward)

/-- The state after `AllocatePackageBlock`. -/
def packageBlock (b : BlockInfo) (s : RewardState) : RewardState :=
  let rewards := loadRewards cfg time b s
  { state := { s.state with
      balance := allocatePackageBlock s.state.balance b.producer b.coinbase rewards.2.1 }
    store := rewards.1 }

/-- `EndBlock`: the block reward, and at an epoch end the staking reward, the delegate rewards
handed back, the year's issuance at a year end and the next epoch's rewards.  `none` where it
panics. -/
def endBlock (b : BlockInfo) (s : RewardState) : Option RewardState :=
  let paid := packageBlock cfg time b s
  if isEndOfEpoch cfg b.number then
    match rewardStakingByValidatorList paid.state.balance b.verifiers
        (loadRewards cfg time b s).2.2 with
    | none => none
    | some balance =>
      let s := runIncreaseIssuance cfg b.number b.increaseIssuanceRatio
        { paid with state := { paid.state with
            balance := handleDelegatePerReward balance b.verifiers } }
      some { s with store := (calcEpochReward cfg time b.number b.remainEpoch s.state s.store).1 }
  else some paid

/-- The reward state genesis leaves: `SetYearEndBalance(0)` records the pool's balance,
`SetYearEndCumulativeIssue(0)` the genesis issuance, and none of the reward plugin's records is in
the snapshot database. -/
def genesis (balance : Address → ℤ) (genesisIssue : ℕ) : RewardState where
  state :=
    { balance
      yearEndBalance := Function.update 0 0 (balance rewardManagerPoolAddr).natAbs
      cumulativeIssue := Function.update 0 0 genesisIssue }
  store := ⟨0, 0, 0, 0, 0, 0, 0, 0⟩

/-- The reward states after `number` blocks of a chain whose headers have times `time`: from
genesis, through the transactions of the blocks, which can only add to the pool, and the blocks'
`EndBlock`. -/
inductive Reachable : ℕ → RewardState → Prop
  | genesis (balance : Address → ℤ) (genesisIssue : ℕ)
      (unsigned : 0 ≤ balance rewardManagerPoolAddr) :
      Reachable 0 (genesis balance genesisIssue)
  | transactions {number : ℕ} {s : RewardState} (balance : Address → ℤ)
      (reach : Reachable number s)
      (added : s.state.balance rewardManagerPoolAddr ≤ balance rewardManagerPoolAddr) :
      Reachable number { s with state := { s.state with balance } }
  | endBlock {number : ℕ} {s s' : RewardState} (b : BlockInfo) (reach : Reachable number s)
      (next : b.number = number + 1) (ended : endBlock cfg time b s = some s') :
      Reachable (number + 1) s'

/-- The budget at the boundary after block `number`: the pool holds the stored remaining reward,
the block reward of every block left in the epoch, and the epoch's staking reward, which is paid
at the epoch's last block. -/
def Budget (number : ℕ) (s : RewardState) : Prop :=
  (s.store.remainingReward : ℤ) +
      s.store.newBlockReward * ((cfg.epochBlocks - number % cfg.epochBlocks : ℕ) : ℤ) +
      s.store.stakingReward ≤
    s.state.balance rewardManagerPoolAddr

theorem Budget.pool_nonneg {number : ℕ} {s : RewardState} (budget : Budget cfg number s) :
    0 ≤ s.state.balance rewardManagerPoolAddr := by
  unfold Budget at budget
  have : (0 : ℤ) ≤
      s.store.newBlockReward * ((cfg.epochBlocks - number % cfg.epochBlocks : ℕ) : ℤ) := by
    positivity
  omega

/-! ## The budget over a run -/

theorem blocksLeft_succ {epochBlocks : ℕ} (pos : 0 < epochBlocks) (number : ℕ) :
    (number + 1) % epochBlocks = 0 ∧ epochBlocks - number % epochBlocks = 1 ∨
      (number + 1) % epochBlocks ≠ 0 ∧
        epochBlocks - number % epochBlocks = epochBlocks - (number + 1) % epochBlocks + 1 := by
  have below := Nat.mod_lt number pos
  have parts := Nat.div_add_mod number epochBlocks
  rcases Nat.lt_or_ge (number % epochBlocks + 1) epochBlocks with room | full
  · have next : (number + 1) % epochBlocks = number % epochBlocks + 1 := by
      rw [← Nat.mod_eq_of_lt room]
      conv_lhs => rw [← parts]
      rw [add_assoc, Nat.mul_add_mod]
    omega
  · have next : (number + 1) % epochBlocks = 0 := by
      conv_lhs => rw [← parts]
      rw [add_assoc, show number % epochBlocks + 1 = epochBlocks by omega, Nat.mul_add_mod,
        Nat.mod_self]
    omega

/-- The invariant behind the budget: the pool holds the remaining reward `CalcEpochReward` reads,
the block reward of every block left in the epoch and the epoch's staking reward; the stored
remaining reward is at most the one read, and after block one a year start time is stored. -/
structure Funded (number : ℕ) (s : RewardState) : Prop where
  budget : readRemainingReward s.state s.store +
      s.store.newBlockReward * ((cfg.epochBlocks - number % cfg.epochBlocks : ℕ) : ℤ) +
      s.store.stakingReward ≤ s.state.balance rewardManagerPoolAddr
  remaining_le : (s.store.remainingReward : ℤ) ≤ readRemainingReward s.state s.store
  yearStart_nonneg : 0 ≤ s.store.yearStartTime
  started : 0 < number → 0 < s.store.yearStartTime

theorem Funded.toBudget {number : ℕ} {s : RewardState} (funded : Funded cfg number s) :
    Budget cfg number s :=
  le_trans (by linarith [funded.remaining_le]) funded.budget

theorem Funded.of_budget {number : ℕ} {s : RewardState} (pos : 0 < s.store.yearStartTime)
    (budget : Budget cfg number s) : Funded cfg number s where
  budget := by rw [readRemainingReward_of_pos pos]; exact budget
  remaining_le := (readRemainingReward_of_pos pos).ge
  yearStart_nonneg := pos.le
  started := fun _ => pos

theorem funded_genesis (balance : Address → ℤ) (genesisIssue : ℕ)
    (unsigned : 0 ≤ balance rewardManagerPoolAddr) :
    Funded cfg 0 (genesis balance genesisIssue) where
  budget := by simp [genesis, readRemainingReward, abs_of_nonneg unsigned]
  remaining_le := by simpa [genesis] using readRemainingReward_nonneg _ _
  yearStart_nonneg := le_rfl
  started := fun zero => absurd zero (lt_irrefl 0)

theorem Funded.transactions {number : ℕ} {s : RewardState} (funded : Funded cfg number s)
    (balance : Address → ℤ)
    (added : s.state.balance rewardManagerPoolAddr ≤ balance rewardManagerPoolAddr) :
    Funded cfg number { s with state := { s.state with balance } } where
  budget := funded.budget.trans added
  remaining_le := funded.remaining_le
  yearStart_nonneg := funded.yearStart_nonneg
  started := funded.started

/-- What `EndBlock` has to pay from `balance` with the rewards `loaded` and the store they came
with, `left` blocks before the epoch's end: the store keeps the rewards and a year start time,
and the pool holds the remaining reward, a block reward for each of those blocks and the staking
reward. -/
structure Covered (left : ℕ) (balance : Address → ℤ) (loaded : RewardStore × ℤ × ℤ) : Prop where
  block : (loaded.1.newBlockReward : ℤ) = loaded.2.1
  staking : (loaded.1.stakingReward : ℤ) = loaded.2.2
  started : 0 < loaded.1.yearStartTime
  budget : (loaded.1.remainingReward : ℤ) + loaded.2.1 * left + loaded.2.2 ≤
    balance rewardManagerPoolAddr

/-- The rewards of the block after a funded boundary are covered, counting the block itself among
those left in the epoch: at block one `CalcEpochReward` splits what the pool holds. -/
theorem Funded.covered (started : 0 < time 1) {number : ℕ} {s : RewardState}
    (funded : Funded cfg number s) {b : BlockInfo} (next : b.number = number + 1) :
    Covered (cfg.epochBlocks - number % cfg.epochBlocks) s.state.balance
      (loadRewards cfg time b s) := by
  unfold loadRewards
  split_ifs with first
  · have zero : number = 0 := by omega
    subst zero
    obtain ⟨block, staking, fits⟩ :=
      calcEpochReward_fits cfg time b.number b.firstRemainEpoch s.state s.store
    have read_le : readRemainingReward s.state s.store ≤ s.state.balance rewardManagerPoolAddr := by
      have budget := funded.budget
      have : (0 : ℤ) ≤ s.store.newBlockReward * ((cfg.epochBlocks - 0 % cfg.epochBlocks : ℕ) : ℤ) :=
        by positivity
      omega
    refine ⟨block, staking, ?_, ?_⟩
    · rw [calcEpochReward_yearStartTime]
      apply yearStart_yearStartTime
      rcases funded.yearStart_nonneg.lt_or_eq with pos | fresh
      · exact .inl pos
      · exact .inr ⟨fresh.symm, first ▸ started⟩
    · simp only [Nat.zero_mod, Nat.sub_zero]
      linarith
  · have pos : 0 < s.store.yearStartTime := funded.started (by omega)
    have budget := funded.budget
    rw [readRemainingReward_of_pos pos] at budget
    exact ⟨rfl, rfl, pos, budget⟩

theorem Covered.block_nonneg {left : ℕ} {balance : Address → ℤ} {loaded : RewardStore × ℤ × ℤ}
    (covered : Covered left balance loaded) : 0 ≤ loaded.2.1 := by
  rw [← covered.block]
  positivity

theorem Covered.staking_nonneg {left : ℕ} {balance : Address → ℤ} {loaded : RewardStore × ℤ × ℤ}
    (covered : Covered left balance loaded) : 0 ≤ loaded.2.2 := by
  rw [← covered.staking]
  positivity

theorem Covered.pay {left : ℕ} {b : BlockInfo} {s : RewardState}
    (covered : Covered (left + 1) s.state.balance (loadRewards cfg time b s)) :
    Covered left (packageBlock cfg time b s).state.balance (loadRewards cfg time b s) := by
  obtain ⟨package_low, -⟩ :=
    allocatePackageBlock_pool s.state.balance b.producer b.coinbase covered.block_nonneg
  refine ⟨covered.block, covered.staking, covered.started, ?_⟩
  have budget := covered.budget
  push_cast at budget
  simp only [packageBlock]
  linarith

/-- The last block of an epoch pays the staking reward out of what it is covered for; the delegate
rewards handed back and the year's issuance only add to the pool, and the next epoch's rewards are
split from the remaining reward, which the pool holds. -/
theorem Covered.settle {b : BlockInfo} {s : RewardState} {rewards : ℤ × ℤ}
    {paid : Address → ℤ} (covered : Covered 0 s.state.balance (s.store, rewards))
    (ends : b.number % cfg.epochBlocks = 0)
    (staked : rewardStakingByValidatorList s.state.balance b.verifiers rewards.2 = some paid) :
    let increased := runIncreaseIssuance cfg b.number b.increaseIssuanceRatio
      { s with state := { s.state with balance := handleDelegatePerReward paid b.verifiers } }
    Funded cfg b.number { increased with
      store := (calcEpochReward cfg time b.number b.remainEpoch increased.state
        increased.store).1 } := by
  intro increased
  obtain ⟨staking_low, -⟩ := rewardStakingByValidatorList_pool covered.staking_nonneg staked
  have handled := handleDelegatePerReward_pool paid b.verifiers
  have raised := runIncreaseIssuance_pool cfg b.number b.increaseIssuanceRatio
    { s with state := { s.state with balance := handleDelegatePerReward paid b.verifiers } }
  have budget := covered.budget
  simp only [Nat.cast_zero, mul_zero, add_zero] at budget
  have remaining_le : (increased.store.remainingReward : ℤ) ≤
      increased.state.balance rewardManagerPoolAddr := by
    rw [runIncreaseIssuance_remainingReward]
    split_ifs
    · rw [Int.natAbs_of_nonneg (by dsimp only at raised handled; linarith)]
    · dsimp only at raised handled ⊢
      linarith
  have pos : 0 < increased.store.yearStartTime := by
    rw [runIncreaseIssuance_yearStartTime]
    exact covered.started
  obtain ⟨block, staking, fits⟩ :=
    calcEpochReward_fits cfg time b.number b.remainEpoch increased.state increased.store
  rw [readRemainingReward_of_pos pos] at fits
  apply Funded.of_budget cfg
  · rw [calcEpochReward_yearStartTime]
    exact yearStart_yearStartTime cfg time _ (.inl pos)
  · simp only [Budget, ends, Nat.sub_zero, block, staking]
    linarith

/-- One block's `EndBlock` keeps the invariant. -/
theorem Funded.step (started : 0 < time 1) {number : ℕ} {s s' : RewardState}
    (funded : Funded cfg number s) {b : BlockInfo} (next : b.number = number + 1)
    (ended : endBlock cfg time b s = some s') : Funded cfg (number + 1) s' := by
  have covered := funded.covered cfg time started next
  unfold endBlock at ended
  rcases blocksLeft_succ cfg.epochBlocks_pos number with ⟨ends, last⟩ | ⟨continues, fewer⟩
  · -- the epoch's last block
    rw [last] at covered
    have epoch_end : isEndOfEpoch cfg b.number = true := by simp [isEndOfEpoch, next, ends]
    rw [if_pos epoch_end] at ended
    split at ended
    · cases ended
    · rename_i paid staked
      cases ended
      rw [← next]
      exact (covered.pay cfg time).settle cfg time (next ▸ ends) staked
  · -- a block inside the epoch
    rw [fewer] at covered
    have inside : isEndOfEpoch cfg b.number = false := by simp [isEndOfEpoch, next, continues]
    rw [if_neg (by simp [inside])] at ended
    cases ended
    have paid := covered.pay cfg time
    refine Funded.of_budget cfg paid.started ?_
    have budget := paid.budget
    rw [← paid.block, ← paid.staking] at budget
    exact budget

theorem Reachable.funded (started : 0 < time 1) {number : ℕ} {s : RewardState}
    (reach : Reachable cfg time number s) : Funded cfg number s := by
  induction reach with
  | genesis balance genesisIssue unsigned => exact funded_genesis cfg balance genesisIssue unsigned
  | transactions balance _ added funded => exact funded.transactions cfg balance added
  | endBlock b _ next ended funded => exact funded.step cfg time started next ended

/-- On a chain whose block one has a positive time, the pool holds the budget at every block
boundary and is never overdrawn; within the next block `AllocatePackageBlock` takes at most the
block reward and `rewardStakingByValidatorList` at most the staking reward, each leaving the pool
non-negative; the rewards `CalcEpochReward` computes for an epoch fit in its total; and at a year
end the remaining reward becomes the pool's balance. -/
theorem reward_pool_budget (started : 0 < time 1) {number : ℕ} {s : RewardState}
    (reach : Reachable cfg time number s) :
    Budget cfg number s ∧ 0 ≤ s.state.balance rewardManagerPoolAddr ∧
      (∀ blockNumber remainEpoch state store,
        (calcEpochReward cfg time blockNumber remainEpoch state store).2.1 * cfg.epochBlocks +
            (calcEpochReward cfg time blockNumber remainEpoch state store).2.2 ≤
          readRemainingReward state store -
            (calcEpochReward cfg time blockNumber remainEpoch state store).1.remainingReward) ∧
      ∀ b : BlockInfo, b.number = number + 1 →
        s.state.balance rewardManagerPoolAddr - (loadRewards cfg time b s).2.1 ≤
            (packageBlock cfg time b s).state.balance rewardManagerPoolAddr ∧
          0 ≤ (packageBlock cfg time b s).state.balance rewardManagerPoolAddr ∧
          ∀ balance, isEndOfEpoch cfg b.number = true →
            rewardStakingByValidatorList (packageBlock cfg time b s).state.balance b.verifiers
                (loadRewards cfg time b s).2.2 = some balance →
            (packageBlock cfg time b s).state.balance rewardManagerPoolAddr -
                (loadRewards cfg time b s).2.2 ≤ balance rewardManagerPoolAddr ∧
              0 ≤ balance rewardManagerPoolAddr ∧
              ((packageBlock cfg time b s).store.incIssuanceNumber = b.number →
                let increased := runIncreaseIssuance cfg b.number b.increaseIssuanceRatio
                  { packageBlock cfg time b s with
                    state := { (packageBlock cfg time b s).state with
                      balance := handleDelegatePerReward balance b.verifiers } }
                (increased.store.remainingReward : ℤ) =
                  increased.state.balance rewardManagerPoolAddr) := by
  have funded := reach.funded cfg time started
  have budget := funded.toBudget cfg
  refine ⟨budget, budget.pool_nonneg cfg, fun blockNumber remainEpoch state store => ?_,
    fun b next => ?_⟩
  · obtain ⟨-, -, fits⟩ := calcEpochReward_fits cfg time blockNumber remainEpoch state store
    linarith
  have covered := funded.covered cfg time started next
  obtain ⟨package_low, -⟩ :=
    allocatePackageBlock_pool s.state.balance b.producer b.coinbase covered.block_nonneg
  have left_pos : 1 ≤ cfg.epochBlocks - number % cfg.epochBlocks := by
    have := Nat.mod_lt number cfg.epochBlocks_pos
    omega
  obtain ⟨left, rest⟩ := Nat.exists_eq_add_of_le' left_pos
  rw [rest] at covered
  have paid := covered.pay cfg time
  have paid_nonneg : 0 ≤ (packageBlock cfg time b s).state.balance rewardManagerPoolAddr := by
    have := paid.budget
    have : (0 : ℤ) ≤ (loadRewards cfg time b s).2.1 * left := by
      have := paid.block_nonneg
      positivity
    have := paid.staking_nonneg
    linarith
  refine ⟨package_low, paid_nonneg, fun balance epoch_end staked => ?_⟩
  have last : left = 0 := by
    have ends : (number + 1) % cfg.epochBlocks = 0 := by
      simpa [isEndOfEpoch, next] using epoch_end
    rcases blocksLeft_succ cfg.epochBlocks_pos number with ⟨-, one⟩ | ⟨continues, -⟩
    · omega
    · exact absurd ends continues
  subst last
  obtain ⟨staking_low, -⟩ := rewardStakingByValidatorList_pool paid.staking_nonneg staked
  have staked_nonneg : 0 ≤ balance rewardManagerPoolAddr := by
    have := paid.budget
    simp only [Nat.cast_zero, mul_zero, add_zero] at this
    linarith
  refine ⟨staking_low, staked_nonneg, fun year_end => ?_⟩
  intro increased
  have handled := handleDelegatePerReward_pool balance b.verifiers
  have raised := runIncreaseIssuance_pool cfg b.number b.increaseIssuanceRatio
    { packageBlock cfg time b s with
      state := { (packageBlock cfg time b s).state with
        balance := handleDelegatePerReward balance b.verifiers } }
  rw [runIncreaseIssuance_remainingReward, if_pos year_end,
    Int.natAbs_of_nonneg (by dsimp only at raised handled ⊢; linarith)]

end Epoch

/-! ## Sample chains -/

/-- Epochs of sixteen blocks, the fewest `CheckEconomicModel` admits (four consensus rounds of four
validators that produce one block each), half of each epoch's reward for its blocks, and an
issuance cycle of two minutes, seven epochs of one-second blocks. -/
def sampleConfig : RewardConfig where
  epochBlocks := 16
  newBlockRate := 50
  additionalCycleTime := 120000
  foundationYear := 1
  cdfAccount := 0x10#160
  bubbleFundAccount := 0x11#160
  epochBlocks_pos := by decide
  newBlockRate_le := by decide

def sampleCoinbase : Address := 0x20#160

/-- A verifier that gives its delegators half of its rewards. -/
def sampleProducer : Candidate := ⟨sampleCoinbase, 5000, 10, 0, by decide⟩

/-- Block `number`, produced by the one verifier, with one epoch left in the year. -/
def sampleBlock (number : ℕ) : BlockInfo :=
  ⟨number, sampleCoinbase, some sampleProducer, [sampleProducer], 0, 1, 1⟩

/-- A genesis pool of `100`. -/
def samplePool : Address → ℤ := Function.update 0 rewardManagerPoolAddr 100

/-- Block `number` at one second per block. -/
def sampleTime (number : ℕ) : ℤ := 1000 * number

/-- Blocks one and before at time `0`, the others at one second per block. -/
def zeroStartTime (number : ℕ) : ℤ := if number ≤ 1 then 0 else 1000 * number

/-- The chain of `sampleBlock`s from the genesis pool, `none` from the first `EndBlock` that
panics. -/
def sampleChain (time : ℕ → ℤ) : ℕ → Option RewardState
  | 0 => some (genesis samplePool 0)
  | n + 1 => (sampleChain time n).bind (endBlock sampleConfig time (sampleBlock (n + 1)))

theorem sampleChain_reachable (time : ℕ → ℤ) :
    ∀ n s, sampleChain time n = some s → Reachable sampleConfig time n s
  | 0, s, ran => by
      cases ran
      exact .genesis samplePool 0 (by decide)
  | n + 1, s, ran => by
      obtain ⟨prev, ran_prev, ended⟩ := Option.bind_eq_some_iff.mp ran
      exact .endBlock (sampleBlock (n + 1)) (sampleChain_reachable time n prev ran_prev) rfl ended

theorem reward_pool_budget_two_blocks :
    0 < sampleTime 1 ∧ ∃ s, Reachable sampleConfig sampleTime 2 s ∧ Budget sampleConfig 2 s := by
  obtain ⟨s, reach⟩ : ∃ s, Reachable sampleConfig sampleTime 2 s :=
    ⟨_, .endBlock (sampleBlock 2)
      (.endBlock (sampleBlock 1) (.genesis samplePool 0 (by decide)) rfl rfl) rfl rfl⟩
  exact ⟨by decide, s, reach,
    (reward_pool_budget sampleConfig sampleTime (by decide) reach).1⟩

/-- A chain whose block one has time `0`: `StorageYearStartTime` does not store that time, so the
first epoch end takes the genesis balance as the remaining reward once more; the budget fails at
block sixteen, and block seventeen's `AllocatePackageBlock` overdraws the pool. -/
theorem block_one_at_time_zero_overdraws :
    ∃ s, Reachable sampleConfig zeroStartTime 16 s ∧ ¬ Budget sampleConfig 16 s ∧
      (packageBlock sampleConfig zeroStartTime (sampleBlock 17) s).state.balance
        rewardManagerPoolAddr < 0 := by
  have ran := (Option.some_get (x := sampleChain zeroStartTime 16) (by decide)).symm
  refine ⟨_, sampleChain_reachable zeroStartTime 16 _ ran, ?_, ?_⟩
  · unfold Budget
    decide +kernel
  · decide +kernel

end Reward
end Bubble
