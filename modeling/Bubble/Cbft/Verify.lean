import Bubble.Cbft.BitArray
import Bubble.Common

/-!
# Verifying quorum certificates

`Cbft.verifyPrepareQC`, `Cbft.validateViewChangeQC` and `Cbft.verifyViewChangeQC` of
`consensus/cbft/cbft.go`, with the parts of `ValidatorPool` (`consensus/cbft/validator`) and
`Validators` (`core/cbfttypes`) they call.  The BLS library is a parameter: deserializing a
signature and checking it against the keys of the signers.  `CannibalizeBytes` hashes the RLP
encoding of the signed fields; the model keeps the fields themselves, as a collision-free hash
would.
-/

namespace Bubble
namespace Cbft

open Traverse BitArray

variable {Key Signature : Type}

/-- The fields a signature covers, as `CannibalizeBytes` encodes them: votes and the certificates
that aggregate them, view changes and theirs, and the proposals the evidence pool keeps. -/
inductive SignedBytes
  | quorumCert (epoch viewNumber : UInt64) (blockHash : Hash) (blockNumber : UInt64)
      (blockIndex : UInt32)
  | viewChangeQuorumCert (epoch viewNumber : UInt64) (blockHash : Hash)
      (blockNumber blockEpoch blockViewNumber : UInt64)
  | prepareBlock (epoch viewNumber : UInt64) (blockHash : Hash) (blockNumber : UInt64)
      (blockData : Hash) (blockIndex validatorIndex : UInt32)
  deriving DecidableEq

/-- The BLS operations of `VerifyAggSigByBA`: `Sign.Deserialize`, and `Sign.Verify` against the
sum of the signers' public keys. -/
structure Bls (Key Signature : Type) where
  deserializes : Signature → Bool
  verify : Signature → List Key → SignedBytes → Bool

/-- The BLS stand-in of the sample runs: a signature records its signers and the fields they
sign, and verification accepts exactly the aggregate of the given signers over the given fields. -/
def signerBls : Bls ℕ (List ℕ × SignedBytes) where
  deserializes _ := true
  verify signature keys msg := decide (signature = (keys, msg))

/-- `ctypes.QuorumCert`. -/
structure QuorumCert (Signature : Type) where
  epoch : UInt64
  viewNumber : UInt64
  blockHash : Hash
  blockNumber : UInt64
  blockIndex : UInt32
  signature : Signature
  validatorSet : Option BitArray

/-- `ctypes.ViewChangeQuorumCert`. -/
structure ViewChangeQuorumCert (Signature : Type) where
  epoch : UInt64
  viewNumber : UInt64
  blockHash : Hash
  blockNumber : UInt64
  blockEpoch : UInt64
  blockViewNumber : UInt64
  signature : Signature
  validatorSet : Option BitArray

/-- `ctypes.ViewChangeQC`. -/
structure ViewChangeQC (Signature : Type) where
  qcs : List (ViewChangeQuorumCert Signature)

/-- The failures of the verification path: the errors it returns, under their Go texts, and the
runtime panics. -/
inductive VerifyError
  /-- `verify prepare qc failed,qc is nil`. -/
  | qcNil
  /-- `enable verify epoch:%d,%d, request:%d`. -/
  | enableVerifyEpoch (previous current request : UInt64)
  /-- `block qc has small number of signature total:%d, threshold:%d`. -/
  | smallSignatureTotal (total threshold : ℕ)
  /-- `verify prepare qc failed,not the corresponding qc,...`, a `handleError`. -/
  | notCorrespondingQC (oriNum : UInt64) (oriHash : Hash) (qcNum : UInt64) (qcHash : Hash)
  /-- `invalid index` of `NodeListByBitArray`. -/
  | invalidIndex
  /-- `not found validators: %v`, after the `invalid index` of `NodeListByBitArray` or after an
  empty list. -/
  | notFoundValidators (invalidIndex : Bool)
  /-- The error of `Sign.Deserialize`. -/
  | deserialize
  /-- `bls verifies signature fail`. -/
  | blsVerify
  /-- An `authFailedError` wrapping the failure of a signature check. -/
  | authFailed (cause : VerifyError)
  /-- `viewchangeQC exceed validator max limit, total:%d, threshold:%d`. -/
  | exceedValidatorLimit (total limit : ℕ)
  /-- `viewchange has small number of signature total:%d, threshold:%d`. -/
  | viewChangeSmallSignatureTotal (total threshold : ℕ)
  /-- `has multiple view messages`. -/
  | multipleViewMessages
  /-- `has duplicated blockHash`. -/
  | duplicatedBlockHash
  /-- A runtime panic. -/
  | panic (cause : Panic)
  deriving DecidableEq

/-- Wrap the failure of a signature check in `authFailedError`; a panic is not an error return
and passes through. -/
def authFailed : VerifyError → VerifyError
  | .panic cause => .panic cause
  | failure => .authFailed failure

/-- A bit array read on the verification path, its panics lifted. -/
def readBits (read : Except Panic α) : Except VerifyError α :=
  read.mapError .panic

/-- `Cbft.threshold`: `num - (num-1)/3`, which is `0` for no validators in Go's arithmetic. -/
def threshold (num : ℕ) : ℕ :=
  num - (num - 1) / 3

/-! ## Certificates -/

/-- `QuorumCert.Len`. -/
def QuorumCert.len (qc : QuorumCert Signature) : Except Panic ℕ :=
  countSet qc.validatorSet

/-- `QuorumCert.CannibalizeBytes`. -/
def QuorumCert.cannibalizeBytes (qc : QuorumCert Signature) : SignedBytes :=
  .quorumCert qc.epoch qc.viewNumber qc.blockHash qc.blockNumber qc.blockIndex

/-- `ViewChangeQuorumCert.Len`. -/
def ViewChangeQuorumCert.len (qc : ViewChangeQuorumCert Signature) : Except Panic ℕ :=
  countSet qc.validatorSet

/-- `ViewChangeQuorumCert.CannibalizeBytes`. -/
def ViewChangeQuorumCert.cannibalizeBytes (qc : ViewChangeQuorumCert Signature) : SignedBytes :=
  .viewChangeQuorumCert qc.epoch qc.viewNumber qc.blockHash qc.blockNumber qc.blockEpoch
    qc.blockViewNumber

/-- `ViewChangeQuorumCert.HigherBlockView`. -/
def ViewChangeQuorumCert.higherBlockView (qc : ViewChangeQuorumCert Signature)
    (blockEpoch blockView : UInt64) : Bool :=
  blockEpoch < qc.blockEpoch || (qc.blockEpoch = blockEpoch && blockView < qc.blockViewNumber)

/-- `ViewChangeQuorumCert.HigherQuorumCert`. -/
def ViewChangeQuorumCert.higherQuorumCert (qc other : ViewChangeQuorumCert Signature) : Bool :=
  if other.blockNumber < qc.blockNumber then true
  else if qc.blockNumber = other.blockNumber then
    qc.higherBlockView other.blockEpoch other.blockViewNumber
  else false

/-- `ViewChangeQC.MaxBlock`: the epoch, view, block epoch, block view, hash and number of the
certificate of the highest block. -/
def ViewChangeQC.maxBlock (qc : ViewChangeQC Signature) :
    UInt64 × UInt64 × UInt64 × UInt64 × Hash × UInt64 :=
  match qc.qcs with
  | [] => (0, 0, 0, 0, zeroHash, 0)
  | first :: _ =>
      let maxQC := qc.qcs.foldl
        (fun maxQC cert => if cert.higherQuorumCert maxQC then cert else maxQC) first
      (maxQC.epoch, maxQC.viewNumber, maxQC.blockEpoch, maxQC.blockViewNumber, maxQC.blockHash,
        maxQC.blockNumber)

/-- The distinct validators whose bits are set in some certificate. -/
def ViewChangeQC.signers (qc : ViewChangeQC Signature) : List UInt32 :=
  (qc.qcs.flatMap fun vc => setIndices vc.validatorSet).dedup

/-- `ViewChangeQC.Len`: the sum of the certificates' signer counts. -/
def ViewChangeQC.len (qc : ViewChangeQC Signature) : Except Panic ℕ :=
  sumM ViewChangeQuorumCert.len qc.qcs

/-! ## The validator pool -/

/-- The fields of `ValidatorPool` the verification reads; each validator set is its list of
`sortedNodes`, of which only the BLS keys are used. -/
structure ValidatorPool (Key : Type) where
  switchPoint : UInt64
  epoch : UInt64
  prevValidators : List Key
  currentValidators : List Key

namespace ValidatorPool

variable (pool : ValidatorPool Key)

/-- `EnableVerifyEpoch`: certificates of the current and the previous epoch are checked. -/
def enableVerifyEpoch (epoch : UInt64) : Except VerifyError Unit :=
  if epoch + 1 = pool.epoch ∨ epoch = pool.epoch then .ok ()
  else .error (.enableVerifyEpoch (pool.epoch - 1) pool.epoch epoch)

/-- `epochToBlockNumber`, which panics on an epoch past the pool's. -/
def epochToBlockNumber (epoch : UInt64) : Except Panic UInt64 :=
  if pool.epoch < epoch then .error (.unknownEpoch pool.epoch epoch)
  else if epoch + 1 = pool.epoch then .ok pool.switchPoint
  else .ok (pool.switchPoint + 1)

/-- The validator set of an epoch, as `Len` and `VerifyAggSigByBA` choose it. -/
def validators (epoch : UInt64) : Except Panic (List Key) := do
  let number ← pool.epochToBlockNumber epoch
  pure (if number ≤ pool.switchPoint then pool.prevValidators else pool.currentValidators)

/-- `Len`. -/
def len (epoch : UInt64) : Except Panic ℕ :=
  (pool.validators epoch).map List.length

end ValidatorPool

/-- `Validators.NodeListByBitArray`: the validators whose bits are set; a set bit past the
validators is an error. -/
def nodeListByBitArray (validators : List Key) (vSet : Option BitArray) :
    Except VerifyError (List Key) :=
  collectM (fun index => do
      let set ← readBits (getIndex vSet index)
      if set then
        match validators[index.toNat]? with
        | none => .error .invalidIndex
        | some node => .ok (some node)
      else .ok none)
    (indices vSet)

/-- `ValidatorPool.VerifyAggSigByBA`. -/
def verifyAggSigByBA (bls : Bls Key Signature) (pool : ValidatorPool Key)
    (epoch : UInt64) (vSet : Option BitArray) (msg : SignedBytes) (signature : Signature) :
    Except VerifyError Unit := do
  let validators ← readBits (pool.validators epoch)
  match nodeListByBitArray validators vSet with
  | .error (.panic cause) => .error (.panic cause)
  | .error _ => .error (.notFoundValidators true)
  | .ok [] => .error (.notFoundValidators false)
  | .ok nodeList =>
      if !bls.deserializes signature then .error .deserialize
      else if !bls.verify signature nodeList msg then .error .blsVerify
      else .ok ()

/-! ## Verification -/

/-- `Cbft.verifyPrepareQC`. -/
def verifyPrepareQC (bls : Bls Key Signature) (pool : ValidatorPool Key) (oriNum : UInt64)
    (oriHash : Hash) : Option (QuorumCert Signature) → Except VerifyError Unit
  | none => .error .qcNil
  | some qc => do
      pool.enableVerifyEpoch qc.epoch
      let threshold := threshold (← readBits (pool.len qc.epoch))
      let signsTotal ← readBits qc.len
      if signsTotal < threshold then
        .error (.authFailed (.smallSignatureTotal signsTotal threshold))
      if oriNum ≠ qc.blockNumber ∨ oriHash ≠ qc.blockHash then
        .error (.notCorrespondingQC oriNum oriHash qc.blockNumber qc.blockHash)
      (verifyAggSigByBA bls pool qc.epoch qc.validatorSet qc.cannibalizeBytes qc.signature).mapError
        authFailed

/-- The loop of `validateViewChangeQC` after its first certificate: each certificate has the first
one's epoch and view, and no block hash comes twice. -/
def checkViews (epoch viewNumber : UInt64) :
    List Hash → List (ViewChangeQuorumCert Signature) → Except VerifyError Unit
  | _, [] => .ok ()
  | existHash, vc :: rest =>
      if epoch ≠ vc.epoch ∨ viewNumber ≠ vc.viewNumber then .error .multipleViewMessages
      else if vc.blockHash ∈ existHash then .error .duplicatedBlockHash
      else checkViews epoch viewNumber (vc.blockHash :: existHash) rest

/-- `Cbft.validateViewChangeQC`. -/
def validateViewChangeQC (pool : ValidatorPool Key) (qc : ViewChangeQC Signature) :
    Except VerifyError Unit := do
  let maxLimit ← readBits (pool.len qc.maxBlock.1)
  if maxLimit < qc.qcs.length then .error (.exceedValidatorLimit qc.qcs.length maxLimit)
  let threshold := threshold maxLimit
  let signsTotal ← readBits qc.len
  if signsTotal < threshold then .error (.viewChangeSmallSignatureTotal signsTotal threshold)
  match qc.qcs with
  | [] => pure ()
  | first :: rest => checkViews first.epoch first.viewNumber [first.blockHash] rest

/-- `Cbft.verifyViewChangeQC`. -/
def verifyViewChangeQC (bls : Bls Key Signature) (pool : ValidatorPool Key)
    (qc : ViewChangeQC Signature) : Except VerifyError Unit := do
  pool.enableVerifyEpoch qc.maxBlock.1
  validateViewChangeQC pool qc
  qc.qcs.forM fun vc =>
    (verifyAggSigByBA bls pool vc.epoch vc.validatorSet vc.cannibalizeBytes vc.signature).mapError
      authFailed

end Cbft
end Bubble
