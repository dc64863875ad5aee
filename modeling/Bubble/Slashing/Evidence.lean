import Bubble.Cbft.Verify

/-!
# Duplicate-sign evidence

The three kinds of evidence of `consensus/cbft/evidence/duplicateEvidence.go`: two proposals, two
votes or two view changes signed by one validator in one view.  `Validate` checks that the pair
conflicts and that both signatures verify; `BlockNumber` and `NodeID` are read from the first
message.  Proposals and votes must carry one block number; view changes need not, and there the
first message decides the block number the evidence reports.

The messages are the evidence as `NewEvidence` decodes it: `ValidateMsg` has checked that the
messages and their nodes are present.
-/

namespace Bubble
namespace Slashing

open Cbft

variable {Key Signature : Type}

/-- `evidence.EvidenceNode`: the signer. -/
structure EvidenceNode (Key : Type) where
  index : UInt32
  nodeID : NodeID
  blsPubKey : Key
  deriving DecidableEq

/-- `EvidenceNode.Verify`: the signature deserializes and verifies under the node's key. -/
def EvidenceNode.verify (bls : Bls Key Signature) (node : EvidenceNode Key) (data : SignedBytes)
    (sign : Signature) : Bool :=
  bls.deserializes sign && bls.verify sign [node.blsPubKey] data

/-- `evidence.EvidencePrepare`: a signed proposal. -/
structure EvidencePrepare (Key Signature : Type) where
  epoch : UInt64
  viewNumber : UInt64
  blockHash : Hash
  blockNumber : UInt64
  blockIndex : UInt32
  blockData : Hash
  validateNode : EvidenceNode Key
  signature : Signature

/-- `evidence.EvidenceVote`: a signed vote. -/
structure EvidenceVote (Key Signature : Type) where
  epoch : UInt64
  viewNumber : UInt64
  blockHash : Hash
  blockNumber : UInt64
  blockIndex : UInt32
  validateNode : EvidenceNode Key
  signature : Signature

/-- `evidence.EvidenceView`: a signed view change, naming the highest block its signer knows. -/
structure EvidenceView (Key Signature : Type) where
  epoch : UInt64
  viewNumber : UInt64
  blockHash : Hash
  blockNumber : UInt64
  validateNode : EvidenceNode Key
  signature : Signature
  blockEpoch : UInt64
  blockView : UInt64

/-- `EvidencePrepare.CannibalizeBytes`. -/
def EvidencePrepare.cannibalizeBytes (ep : EvidencePrepare Key Signature) : SignedBytes :=
  .prepareBlock ep.epoch ep.viewNumber ep.blockHash ep.blockNumber ep.blockData ep.blockIndex
    ep.validateNode.index

/-- `EvidenceVote.CannibalizeBytes`. -/
def EvidenceVote.cannibalizeBytes (ev : EvidenceVote Key Signature) : SignedBytes :=
  .quorumCert ev.epoch ev.viewNumber ev.blockHash ev.blockNumber ev.blockIndex

/-- `EvidenceView.CannibalizeBytes`. -/
def EvidenceView.cannibalizeBytes (ev : EvidenceView Key Signature) : SignedBytes :=
  .viewChangeQuorumCert ev.epoch ev.viewNumber ev.blockHash ev.blockNumber ev.blockEpoch
    ev.blockView

/-- What `Validate` reads of one message: its view and block, its signer, and whether its
signature verifies. -/
structure SignedMessage (Key : Type) where
  epoch : UInt64
  viewNumber : UInt64
  blockHash : Hash
  blockNumber : UInt64
  validateNode : EvidenceNode Key
  verified : Bool

/-- A proposal as `Validate` reads it. -/
def EvidencePrepare.message (bls : Bls Key Signature) (ep : EvidencePrepare Key Signature) :
    SignedMessage Key :=
  ⟨ep.epoch, ep.viewNumber, ep.blockHash, ep.blockNumber, ep.validateNode,
    ep.validateNode.verify bls ep.cannibalizeBytes ep.signature⟩

/-- A vote as `Validate` reads it. -/
def EvidenceVote.message (bls : Bls Key Signature) (ev : EvidenceVote Key Signature) :
    SignedMessage Key :=
  ⟨ev.epoch, ev.viewNumber, ev.blockHash, ev.blockNumber, ev.validateNode,
    ev.validateNode.verify bls ev.cannibalizeBytes ev.signature⟩

/-- A view change as `Validate` reads it. -/
def EvidenceView.message (bls : Bls Key Signature) (ev : EvidenceView Key Signature) :
    SignedMessage Key :=
  ⟨ev.epoch, ev.viewNumber, ev.blockHash, ev.blockNumber, ev.validateNode,
    ev.validateNode.verify bls ev.cannibalizeBytes ev.signature⟩

/-- Why `Validate` rejects a pair; each kind of evidence words these in its own messages. -/
inductive ValidateError
  /-- `epoch is different`. -/
  | epochDifferent
  /-- `viewNumber is different`. -/
  | viewNumberDifferent
  /-- `blockNumber is different`. -/
  | blockNumberDifferent
  /-- `validator do not match`. -/
  | validatorMismatch
  /-- `blockHash is equal`. -/
  | blockHashEqual
  /-- `blockNumber and blockHash is equal`. -/
  | blockNumberAndHashEqual
  /-- `prepareA verify failed`, `voteA verify failed`, `viewA verify failed`. -/
  | firstVerifyFailed
  /-- `prepareB verify failed`, `voteB verify failed`, `ViewB verify failed`. -/
  | secondVerifyFailed
  deriving DecidableEq

section Validate

variable [DecidableEq Key]

/-- The `Validate` of proposal and vote evidence: one epoch, view and block number, one signer,
two block hashes, two good signatures. -/
def validateSameBlock (first second : SignedMessage Key) : Except ValidateError Unit :=
  if first.epoch ≠ second.epoch then .error .epochDifferent
  else if first.viewNumber ≠ second.viewNumber then .error .viewNumberDifferent
  else if first.blockNumber ≠ second.blockNumber then .error .blockNumberDifferent
  else if first.validateNode ≠ second.validateNode then .error .validatorMismatch
  else if first.blockHash = second.blockHash then .error .blockHashEqual
  else if !first.verified then .error .firstVerifyFailed
  else if !second.verified then .error .secondVerifyFailed
  else .ok ()

/-- `DuplicatePrepareBlockEvidence.Validate`. -/
def validatePrepareBlock (bls : Bls Key Signature)
    (prepareA prepareB : EvidencePrepare Key Signature) : Except ValidateError Unit :=
  validateSameBlock (prepareA.message bls) (prepareB.message bls)

/-- `DuplicatePrepareVoteEvidence.Validate`. -/
def validatePrepareVote (bls : Bls Key Signature)
    (voteA voteB : EvidenceVote Key Signature) : Except ValidateError Unit :=
  validateSameBlock (voteA.message bls) (voteB.message bls)

/-- `DuplicateViewChangeEvidence.Validate`: no block-number check; the pair is rejected only when
both its block number and its block hash agree. -/
def validateViewChange (bls : Bls Key Signature)
    (viewA viewB : EvidenceView Key Signature) : Except ValidateError Unit :=
  let first := viewA.message bls
  let second := viewB.message bls
  if first.epoch ≠ second.epoch then .error .epochDifferent
  else if first.viewNumber ≠ second.viewNumber then .error .viewNumberDifferent
  else if first.validateNode ≠ second.validateNode then .error .validatorMismatch
  else if first.blockNumber = second.blockNumber ∧ first.blockHash = second.blockHash then
    .error .blockNumberAndHashEqual
  else if !first.verified then .error .firstVerifyFailed
  else if !second.verified then .error .secondVerifyFailed
  else .ok ()

end Validate

/-- `consensus.EvidenceType`. -/
abbrev EvidenceType := UInt8

/-- `DuplicatePrepareBlockType`. -/
def duplicatePrepareBlockType : EvidenceType := 1

/-- `DuplicatePrepareVoteType`. -/
def duplicatePrepareVoteType : EvidenceType := 2

/-- `DuplicateViewChangeType`. -/
def duplicateViewChangeType : EvidenceType := 3

/-- A `consensus.Evidence` of one of the three kinds. -/
inductive Evidence (Key Signature : Type)
  | duplicatePrepareBlock (prepareA prepareB : EvidencePrepare Key Signature)
  | duplicatePrepareVote (voteA voteB : EvidenceVote Key Signature)
  | duplicateViewChange (viewA viewB : EvidenceView Key Signature)

namespace Evidence

/-- `BlockNumber`: the block number of the first message. -/
def blockNumber : Evidence Key Signature → UInt64
  | duplicatePrepareBlock prepareA _ => prepareA.blockNumber
  | duplicatePrepareVote voteA _ => voteA.blockNumber
  | duplicateViewChange viewA _ => viewA.blockNumber

/-- `NodeID`: the signer of the first message. -/
def nodeID : Evidence Key Signature → NodeID
  | duplicatePrepareBlock prepareA _ => prepareA.validateNode.nodeID
  | duplicatePrepareVote voteA _ => voteA.validateNode.nodeID
  | duplicateViewChange viewA _ => viewA.validateNode.nodeID

/-- `Type`. -/
def type : Evidence Key Signature → EvidenceType
  | duplicatePrepareBlock _ _ => duplicatePrepareBlockType
  | duplicatePrepareVote _ _ => duplicatePrepareVoteType
  | duplicateViewChange _ _ => duplicateViewChangeType

/-- `Validate`. -/
def validate [DecidableEq Key] (bls : Bls Key Signature) :
    Evidence Key Signature → Except ValidateError Unit
  | duplicatePrepareBlock prepareA prepareB => validatePrepareBlock bls prepareA prepareB
  | duplicatePrepareVote voteA voteB => validatePrepareVote bls voteA voteB
  | duplicateViewChange viewA viewB => validateViewChange bls viewA viewB

/-- The evidence built from the same two messages in the other order. -/
def swap : Evidence Key Signature → Evidence Key Signature
  | duplicatePrepareBlock prepareA prepareB => duplicatePrepareBlock prepareB prepareA
  | duplicatePrepareVote voteA voteB => duplicatePrepareVote voteB voteA
  | duplicateViewChange viewA viewB => duplicateViewChange viewB viewA

/-- The two messages carry one block number. -/
def SameBlock : Evidence Key Signature → Prop
  | duplicatePrepareBlock prepareA prepareB => prepareA.blockNumber = prepareB.blockNumber
  | duplicatePrepareVote voteA voteB => voteA.blockNumber = voteB.blockNumber
  | duplicateViewChange viewA viewB => viewA.blockNumber = viewB.blockNumber

end Evidence

/-- `duplicateSignKey`: node, block number and type, as `NodeID` bytes, eight big-endian bytes and
two big-endian bytes.  The parts have fixed widths, so the concatenation is the triple. -/
def duplicateSignKey (nodeId : NodeID) (blockNumber : UInt64) (dupType : EvidenceType) :
    NodeID × UInt64 × UInt16 :=
  (nodeId, blockNumber, dupType.toUInt16)

/-- The key `Slash` records an evidence under. -/
def Evidence.key (evidence : Evidence Key Signature) : NodeID × UInt64 × UInt16 :=
  duplicateSignKey evidence.nodeID evidence.blockNumber evidence.type

/-! ## The pair in either order -/

section Order

variable [DecidableEq Key] (bls : Bls Key Signature)

theorem validateSameBlock_eq_ok {first second : SignedMessage Key} :
    validateSameBlock first second = .ok () ↔
      first.epoch = second.epoch ∧ first.viewNumber = second.viewNumber ∧
        first.blockNumber = second.blockNumber ∧ first.validateNode = second.validateNode ∧
        first.blockHash ≠ second.blockHash ∧ first.verified = true ∧ second.verified = true := by
  unfold validateSameBlock
  split_ifs <;> simp_all

theorem validateViewChange_eq_ok {viewA viewB : EvidenceView Key Signature} :
    validateViewChange bls viewA viewB = .ok () ↔
      (viewA.message bls).epoch = (viewB.message bls).epoch ∧
        (viewA.message bls).viewNumber = (viewB.message bls).viewNumber ∧
        (viewA.message bls).validateNode = (viewB.message bls).validateNode ∧
        ¬ ((viewA.message bls).blockNumber = (viewB.message bls).blockNumber ∧
          (viewA.message bls).blockHash = (viewB.message bls).blockHash) ∧
        (viewA.message bls).verified = true ∧ (viewB.message bls).verified = true := by
  unfold validateViewChange
  dsimp only
  split_ifs <;> simp_all

theorem Evidence.validate_swap (evidence : Evidence Key Signature) :
    evidence.swap.validate bls = .ok () ↔ evidence.validate bls = .ok () := by
  cases evidence with
  | duplicatePrepareBlock prepareA prepareB =>
      simp only [Evidence.swap, Evidence.validate, validatePrepareBlock, validateSameBlock_eq_ok]
      grind
  | duplicatePrepareVote voteA voteB =>
      simp only [Evidence.swap, Evidence.validate, validatePrepareVote, validateSameBlock_eq_ok]
      grind
  | duplicateViewChange viewA viewB =>
      simp only [Evidence.swap, Evidence.validate, validateViewChange_eq_ok]
      grind

theorem Evidence.nodeID_swap {evidence : Evidence Key Signature}
    (valid : evidence.validate bls = .ok ()) : evidence.swap.nodeID = evidence.nodeID := by
  cases evidence with
  | duplicatePrepareBlock prepareA prepareB =>
      have same := (validateSameBlock_eq_ok.mp valid).2.2.2.1
      simp only [EvidencePrepare.message] at same
      simp [Evidence.swap, Evidence.nodeID, same]
  | duplicatePrepareVote voteA voteB =>
      have same := (validateSameBlock_eq_ok.mp valid).2.2.2.1
      simp only [EvidenceVote.message] at same
      simp [Evidence.swap, Evidence.nodeID, same]
  | duplicateViewChange viewA viewB =>
      have same := ((validateViewChange_eq_ok bls).mp valid).2.2.1
      simp only [EvidenceView.message] at same
      simp [Evidence.swap, Evidence.nodeID, same]

theorem Evidence.key_swap {evidence : Evidence Key Signature}
    (valid : evidence.validate bls = .ok ()) (same : evidence.SameBlock) :
    evidence.swap.key = evidence.key := by
  have node := evidence.nodeID_swap bls valid
  cases evidence <;>
    simp_all [Evidence.key, Evidence.swap, Evidence.blockNumber, Evidence.type, Evidence.SameBlock,
      duplicateSignKey, Evidence.nodeID]

end Order

theorem Evidence.key_swap_ne {viewA viewB : EvidenceView Key Signature}
    (different : viewA.blockNumber ≠ viewB.blockNumber) :
    (Evidence.duplicateViewChange viewA viewB).swap.key ≠
      (Evidence.duplicateViewChange viewA viewB).key := by
  simp [Evidence.key, Evidence.swap, Evidence.blockNumber, duplicateSignKey, Ne.symm different]

end Slashing
end Bubble
