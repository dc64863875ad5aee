import Bubble.Common
import Bubble.Lib.Ledger

/-!
# The restricting contract's storage

`x/restricting` keeps four kinds of slot under `RestrictingContractAddr`, keyed by byte strings of
pairwise different lengths (`RestrictInfo` + 20 bytes, `RestrictInfo` + 28, `RestrictRecord` + 8,
`RestrictRecord` + 12) and the `InitialFoundationRestricting` slot, so no two keys collide and each
kind is a function of its own.  An empty slot reads as the zero value of the decoder that reads it:
`BytesToUint32` gives `0`, `BytesToAddress` the zero address, `SetBytes` the number `0`, and the
record lookup reports `ErrAccountNotFound`.
-/

namespace Bubble
namespace Restricting

open Ledger

/-- `restricting.RestrictingInfo`: what one account has locked and owes. -/
structure RestrictingInfo where
  /-- Released funds the account could not yet receive because they are staked. -/
  needRelease : ℤ
  /-- Locked funds lent to the staking contract. -/
  advanceAmount : ℤ
  /-- Locked funds not yet released. -/
  cachePlanAmount : ℤ
  /-- Epochs at which a release is scheduled. -/
  releaseList : List UInt64
  deriving DecidableEq, Repr

/-- `restricting.RestrictingPlan`: release `amount` after `epoch` epochs. -/
structure RestrictingPlan where
  epoch : UInt64
  amount : ℤ
  deriving DecidableEq, Repr

/-- The errors of the restricting plugin, under their Go names.  `encodePanic` is not an error
return: it is the `panic` of `storeRestrictingInfo` when RLP refuses a negative `big.Int`. -/
inductive RestrictingError
  | errParamEpochInvalid
  | errCountRestrictPlansInvalid
  | errBalanceNotEnough
  | errAccountNotFound
  | errSlashingTooMuch
  | errStakingAmountEmpty
  | errAdvanceLockedFundsAmountLessThanZero
  | errReturnLockFundsAmountLessThanZero
  | errSlashingAmountLessThanZero
  | errCreatePlanAmountLessThanZero
  | errStakingAmountInvalid
  | errRestrictBalanceNotEnough
  | errCreatePlanAmountLessThanMiniAmount
  | errRestrictBalanceAndFreeNotEnough
  /-- `staking.ErrAccountVonNoEnough`, returned by `MixAdvanceLockedFunds`. -/
  | errAccountVonNoEnough
  /-- A failure reading the governance parameter `RestrictingMinimumAmount`. -/
  | governParam
  | encodePanic
  deriving DecidableEq, Repr

/-- `restricting.RestrictTxPlanSize`. -/
def restrictTxPlanSize : ℕ := 36

/-- The slots of the state database that the restricting plugin reads and writes. -/
structure RestrictingState where
  /-- Account balances. -/
  balance : Address → ℤ
  /-- `GetRestrictingKey(account)`. -/
  restrictingInfo : Address → Option RestrictingInfo
  /-- `GetReleaseEpochKey(epoch)`: how many accounts release at the epoch. -/
  releaseEpochNumber : UInt64 → UInt32
  /-- `GetReleaseAccountKey(epoch, index)`. -/
  releaseAccount : UInt64 × UInt32 → Address
  /-- `GetReleaseAmountKey(epoch, account)`, stored as the bytes of a non-negative number. -/
  releaseAmount : UInt64 × Address → ℕ
  /-- `InitialFoundationRestricting`: the RLP list of remaining genesis allowances, if any. -/
  genesisAllowancePlans : Option (List ℤ)

namespace RestrictingState

/-- `transferAmount`. -/
def transferAmount (state : RestrictingState) (src dst : Address) (amount : ℤ) :
    RestrictingState :=
  { state with balance := transfer state.balance src dst amount }

/-- `mustGetRestrictingInfoByDecode`: an empty slot is `ErrAccountNotFound`. -/
def mustGetRestrictingInfo (state : RestrictingState) (account : Address) :
    Except RestrictingError RestrictingInfo :=
  match state.restrictingInfo account with
  | none => .error .errAccountNotFound
  | some info => .ok info

/-- `storeRestrictingInfo`: the record is RLP-encoded, and the encoder rejects a negative number,
on which the plugin panics. -/
def storeRestrictingInfo (state : RestrictingState) (account : Address) (info : RestrictingInfo) :
    Except RestrictingError RestrictingState :=
  if info.needRelease < 0 ∨ info.advanceAmount < 0 ∨ info.cachePlanAmount < 0 then
    .error .encodePanic
  else
    .ok { state with restrictingInfo := Function.update state.restrictingInfo account (some info) }

/-- `SetState(restrictingKey, []byte{})`: the record is gone. -/
def clearRestrictingInfo (state : RestrictingState) (account : Address) : RestrictingState :=
  { state with restrictingInfo := Function.update state.restrictingInfo account none }

@[simp]
theorem transferAmount_restrictingInfo (state : RestrictingState) (src dst : Address) (amount : ℤ) :
    (state.transferAmount src dst amount).restrictingInfo = state.restrictingInfo := rfl

@[simp]
theorem transferAmount_genesisAllowancePlans (state : RestrictingState) (src dst : Address)
    (amount : ℤ) :
    (state.transferAmount src dst amount).genesisAllowancePlans = state.genesisAllowancePlans :=
  rfl

@[simp]
theorem transferAmount_balance (state : RestrictingState) (src dst : Address) (amount : ℤ) :
    (state.transferAmount src dst amount).balance = transfer state.balance src dst amount := rfl

theorem storeRestrictingInfo_eq_ok {state next : RestrictingState} {account : Address}
    {info : RestrictingInfo} :
    state.storeRestrictingInfo account info = .ok next ↔
      (0 ≤ info.needRelease ∧ 0 ≤ info.advanceAmount ∧ 0 ≤ info.cachePlanAmount) ∧
        next = { state with
          restrictingInfo := Function.update state.restrictingInfo account (some info) } := by
  unfold storeRestrictingInfo
  split
  · rename_i negative
    simp only [reduceCtorEq, false_iff, not_and]
    intro bounds
    omega
  · rename_i nonnegative
    simp only [Except.ok.injEq]
    constructor
    · intro stored
      exact ⟨by omega, stored.symm⟩
    · rintro ⟨-, rfl⟩
      rfl

end RestrictingState

end Restricting
end Bubble
