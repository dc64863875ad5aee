import Bubble.Slashing.Evidence
import Bubble.Lib.Rollback

/-!
# Reporting a duplicate signature

`SlashingPlugin.Slash` of `x/plugin/slashing_plugin.go`.  The checks it makes before anything is
slashed come first: the evidence is valid, not from a future block, not expired, and not slashed
before under its `duplicateSignKey`.  What follows (looking the candidate up, checking it against
the evidence and calling `SlashCandidates`) belongs to the staking plugin and is a parameter here;
on success the transaction hash is recorded under the key.

A report is a transaction: a failed one is rolled back.  Reports are run together with any other
transactions, which change the chain but not the slashing contract's records.
-/

namespace Bubble
namespace Slashing

open Cbft

variable {Key Signature σ : Type}

/-- The errors of `Slash`. -/
inductive SlashError
  /-- `ErrDuplicateSignVerify`. -/
  | errDuplicateSignVerify
  /-- `ErrSlashingExist`. -/
  | errSlashingExist
  /-- `ErrBlockNumberTooHigh`. -/
  | errBlockNumberTooHigh
  /-- `ErrIntervalTooLong`. -/
  | errIntervalTooLong
  /-- `ErrGetCandidate`. -/
  | errGetCandidate
  /-- `ErrNodeIdMismatch`. -/
  | errNodeIdMismatch
  /-- `ErrBlsPubKeyMismatch`. -/
  | errBlsPubKeyMismatch
  /-- `ErrSlashingFail`. -/
  | errSlashingFail
  /-- `ErrNotValidator`. -/
  | errNotValidator
  /-- `ErrSameAddr`. -/
  | errSameAddr
  /-- A failure reading a governance parameter. -/
  | governParam
  deriving DecidableEq

/-- The block a report executes in. -/
structure SlashContext where
  blockNumber : UInt64
  txHash : Hash
  /-- `CalcBlocksEachEpoch()`. -/
  blocksOfEpoch : UInt64
  /-- `gov.GovernMaxEvidenceAge` read at the block. -/
  maxEvidenceAge : Except SlashError UInt32

/-- The chain as `Slash` sees it. -/
structure SlashState (σ : Type) where
  /-- The slashing contract's records: the hash of the transaction that slashed under a key, none
  for an empty slot. -/
  slashTxHash : NodeID × UInt64 × UInt16 → Option Hash
  /-- The rest of the chain, which the staking side of `Slash` reads and writes. -/
  staking : σ

/-- The staking side of `Slash`: from the candidate lookup to `SlashCandidates`, for an evidence,
a block and a reporter. -/
abbrev ExecuteSlash (Key Signature σ : Type) :=
  Evidence Key Signature → SlashContext → Address → σ → Except SlashError σ

/-- The expiry check of `Slash`: evidence of an epoch that ended more than `MaxEvidenceAge` epochs
of blocks before the current block is too old. -/
def checkEvidenceAge (ctx : SlashContext) (evidenceNumber : UInt64) : Except SlashError Unit :=
  let evidenceEpoch := calculateEpoch ctx.blocksOfEpoch evidenceNumber
  let invalidNum := evidenceEpoch * ctx.blocksOfEpoch
  if invalidNum < ctx.blockNumber then
    match ctx.maxEvidenceAge with
    | .error failure => .error failure
    | .ok evidenceAge =>
        if ctx.blocksOfEpoch * evidenceAge.toUInt64 < ctx.blockNumber - invalidNum then
          .error .errIntervalTooLong
        else .ok ()
  else .ok ()

/-- `SlashingPlugin.Slash`. -/
def slash [DecidableEq Key] (bls : Bls Key Signature) (executeSlash : ExecuteSlash Key Signature σ)
    (ctx : SlashContext) (evidence : Evidence Key Signature) (caller : Address)
    (state : SlashState σ) : Except SlashError (SlashState σ) :=
  match evidence.validate bls with
  | .error _ => .error .errDuplicateSignVerify
  | .ok () =>
      if ctx.blockNumber < evidence.blockNumber then .error .errBlockNumberTooHigh
      else
        match checkEvidenceAge ctx evidence.blockNumber with
        | .error failure => .error failure
        | .ok () =>
            if (state.slashTxHash evidence.key).isSome then .error .errSlashingExist
            else
              match executeSlash evidence ctx caller state.staking with
              | .error failure => .error failure
              | .ok staking =>
                  .ok { slashTxHash :=
                          Function.update state.slashTxHash evidence.key (some ctx.txHash)
                        staking }

/-- A transaction of a run: a report of a duplicate signature, or any other transaction, which
leaves the slashing records alone. -/
inductive SlashOp (Key Signature σ : Type)
  | reportDuplicateSign (ctx : SlashContext) (evidence : Evidence Key Signature) (caller : Address)
  | other (step : σ → Except SlashError σ)

/-- One transaction. -/
def SlashOp.step [DecidableEq Key] (bls : Bls Key Signature)
    (executeSlash : ExecuteSlash Key Signature σ) :
    SlashOp Key Signature σ → SlashState σ → Except SlashError (SlashState σ)
  | .reportDuplicateSign ctx evidence caller, state =>
      slash bls executeSlash ctx evidence caller state
  | .other step, state => (step state.staking).map fun staking => { state with staking }

end Slashing
end Bubble
