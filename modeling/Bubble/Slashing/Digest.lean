import Bubble.Slashing.Evidence
import Bubble.Cbft.Messages
import Bubble.Lib.Rollback

/-!
# Evidence built from signed messages

`NewEvidencePrepare`, `NewEvidenceVote` and `NewEvidenceView` of
`consensus/cbft/evidence/message.go` copy a message and its signer into evidence.  The evidence
hashes the bytes the message hashes, although the two build the list with other Go types: the
evidence keeps the hash of a proposal's block encoding as a `common.Hash` where the proposal
encodes the slice `Keccak256` returns, and the signer's index where the proposal has its
`ProposalIndex`.  So a signature that verifies on a message verifies on the evidence, and two
conflicting messages signed by one validator make evidence that `Validate` accepts.
-/

namespace Bubble
namespace Slashing

open Cbft Rlp

variable {Blk ε Key Signature : Type}

/-- `cbfttypes.ValidateNode`, with what the evidence copies of it. -/
structure ValidateNode (Key : Type) where
  index : UInt32
  nodeID : NodeID
  blsPubKey : Key

/-- `NewEvidenceNode`. -/
def newEvidenceNode (node : ValidateNode Key) : EvidenceNode Key :=
  ⟨node.index, node.nodeID, node.blsPubKey⟩

/-- `NewEvidencePrepare`: fails only when the block does not encode. -/
def newEvidencePrepare (keccak256 : List UInt8 → Hash) (codec : BlockCodec Blk ε)
    (pb : PrepareBlock Blk Signature) (node : ValidateNode Key) :
    Except ε (EvidencePrepare Key Signature) := do
  let blockData ← codec.encode pb.block
  .ok { epoch := pb.epoch, viewNumber := pb.viewNumber, blockHash := codec.hash pb.block,
        blockNumber := codec.numberU64 pb.block, blockIndex := pb.blockIndex,
        blockData := bytesToHash (keccak256 blockData).bytes,
        validateNode := newEvidenceNode node, signature := pb.signature }

/-- `NewEvidenceVote`. -/
def newEvidenceVote (pv : PrepareVote Signature) (node : ValidateNode Key) :
    EvidenceVote Key Signature :=
  { epoch := pv.epoch, viewNumber := pv.viewNumber, blockHash := pv.blockHash,
    blockNumber := pv.blockNumber, blockIndex := pv.blockIndex,
    validateNode := newEvidenceNode node, signature := pv.signature }

/-- `NewEvidenceView`: without a certificate the block's epoch and view are zero, as in
`ViewChange.CannibalizeBytes`. -/
def newEvidenceView (vc : ViewChange Signature) (node : ValidateNode Key) :
    EvidenceView Key Signature :=
  { epoch := vc.epoch, viewNumber := vc.viewNumber, blockHash := vc.blockHash,
    blockNumber := vc.blockNumber, validateNode := newEvidenceNode node, signature := vc.signature,
    blockEpoch := vc.blockEpochView.1, blockView := vc.blockEpochView.2 }

/-! ## The bytes agree -/

section Digest

variable (keccak256 : List UInt8 → Hash)

theorem newEvidencePrepare_digest (codec : BlockCodec Blk ε) (pb : PrepareBlock Blk Signature)
    {node : ValidateNode Key} (proposer : node.index = pb.proposalIndex) :
    (newEvidencePrepare keccak256 codec pb node).map (·.cannibalizeBytes.digest keccak256) =
      pb.cannibalizeBytes keccak256 codec := by
  cases encoded : codec.encode pb.block with
  | error failure =>
    simp only [newEvidencePrepare, PrepareBlock.cannibalizeBytes, encoded, bind, Except.bind,
      Except.map]
  | ok blockData =>
    have back : (bytesToHash (keccak256 blockData).bytes).bytes = (keccak256 blockData).bytes :=
      bytes_bytesToHash (Bytes.length_toBytes 32 _)
    simp only [newEvidencePrepare, PrepareBlock.cannibalizeBytes, encoded, bind, Except.bind,
      Except.map, EvidencePrepare.cannibalizeBytes, SignedBytes.digest, SignedBytes.rlpList,
      newEvidenceNode, back, proposer, encodeToBytes, encodeItems, writeByteArray_eq_writeBytes]

theorem newEvidenceVote_digest (pv : PrepareVote Signature) (node : ValidateNode Key) :
    (newEvidenceVote pv node).cannibalizeBytes.digest keccak256 = pv.cannibalizeBytes keccak256 :=
  rfl

theorem newEvidenceView_digest (vc : ViewChange Signature) (node : ValidateNode Key) :
    (newEvidenceView vc node).cannibalizeBytes.digest keccak256 = vc.cannibalizeBytes keccak256 :=
  rfl

theorem newEvidencePrepare_fields {codec : BlockCodec Blk ε} {pb : PrepareBlock Blk Signature}
    {node : ValidateNode Key} {ev : EvidencePrepare Key Signature}
    (built : newEvidencePrepare keccak256 codec pb node = .ok ev) :
    ev.epoch = pb.epoch ∧ ev.viewNumber = pb.viewNumber ∧ ev.blockHash = codec.hash pb.block ∧
      ev.blockNumber = codec.numberU64 pb.block ∧ ev.validateNode = newEvidenceNode node ∧
      ev.signature = pb.signature := by
  obtain ⟨blockData, -, copied⟩ := Rollback.bind_eq_ok.mp built
  obtain rfl := Except.ok.inj copied
  exact ⟨rfl, rfl, rfl, rfl, rfl, rfl⟩

end Digest

/-! ## Conflicting signed messages make valid evidence -/

section Signed

variable (keccak256 : List UInt8 → Hash) (deserializes : Signature → Bool)
  (verify : Signature → List Key → List UInt8 → Bool)

/-- `node` signed `data` with `sign`: the signature deserializes and verifies under its key. -/
def SignsBytes (node : ValidateNode Key) (data : List UInt8) (sign : Signature) : Prop :=
  deserializes sign = true ∧ verify sign [node.blsPubKey] data = true

theorem verify_newEvidenceNode {node : ValidateNode Key} {msg : SignedBytes} {sign : Signature}
    (signed : SignsBytes deserializes verify node (msg.digest keccak256) sign) :
    (newEvidenceNode node).verify (Bls.ofDigest keccak256 deserializes verify) msg sign = true := by
  simp only [EvidenceNode.verify, Bls.ofDigest, newEvidenceNode, signed.1, signed.2, Bool.and_self]

variable [DecidableEq Key]

/-- Two proposals of one height and view with different blocks, each signed by their proposer,
make evidence that `Validate` accepts. -/
theorem validatePrepareBlock_of_signed (codec : BlockCodec Blk ε)
    {pbA pbB : PrepareBlock Blk Signature} {node : ValidateNode Key} {dataA dataB : List UInt8}
    (proposerA : node.index = pbA.proposalIndex) (proposerB : node.index = pbB.proposalIndex)
    (digestA : pbA.cannibalizeBytes keccak256 codec = .ok dataA)
    (digestB : pbB.cannibalizeBytes keccak256 codec = .ok dataB)
    (signedA : SignsBytes deserializes verify node dataA pbA.signature)
    (signedB : SignsBytes deserializes verify node dataB pbB.signature)
    (epoch : pbA.epoch = pbB.epoch) (view : pbA.viewNumber = pbB.viewNumber)
    (number : codec.numberU64 pbA.block = codec.numberU64 pbB.block)
    (differ : codec.hash pbA.block ≠ codec.hash pbB.block) :
    ∃ evA evB, newEvidencePrepare keccak256 codec pbA node = .ok evA ∧
      newEvidencePrepare keccak256 codec pbB node = .ok evB ∧
      validatePrepareBlock (Bls.ofDigest keccak256 deserializes verify) evA evB = .ok () := by
  obtain ⟨evA, builtA, hashA⟩ :=
    Rollback.map_eq_ok.mp ((newEvidencePrepare_digest keccak256 codec pbA proposerA).trans digestA)
  obtain ⟨evB, builtB, hashB⟩ :=
    Rollback.map_eq_ok.mp ((newEvidencePrepare_digest keccak256 codec pbB proposerB).trans digestB)
  obtain ⟨epochA, viewA, blockA, numberA, nodeA, signA⟩ := newEvidencePrepare_fields keccak256 builtA
  obtain ⟨epochB, viewB, blockB, numberB, nodeB, signB⟩ := newEvidencePrepare_fields keccak256 builtB
  refine ⟨evA, evB, builtA, builtB, validateSameBlock_eq_ok.mpr ⟨?_, ?_, ?_, ?_, ?_, ?_, ?_⟩⟩
  · exact epochA.trans (epoch.trans epochB.symm)
  · exact viewA.trans (view.trans viewB.symm)
  · exact numberA.trans (number.trans numberB.symm)
  · exact nodeA.trans nodeB.symm
  · show evA.blockHash ≠ evB.blockHash
    rw [blockA, blockB]
    exact differ
  · show (evA.validateNode).verify _ evA.cannibalizeBytes evA.signature = true
    rw [nodeA, signA]
    exact verify_newEvidenceNode keccak256 deserializes verify (hashA ▸ signedA)
  · show (evB.validateNode).verify _ evB.cannibalizeBytes evB.signature = true
    rw [nodeB, signB]
    exact verify_newEvidenceNode keccak256 deserializes verify (hashB ▸ signedB)

theorem validatePrepareVote_of_signed {pvA pvB : PrepareVote Signature} {node : ValidateNode Key}
    (signedA : SignsBytes deserializes verify node (pvA.cannibalizeBytes keccak256) pvA.signature)
    (signedB : SignsBytes deserializes verify node (pvB.cannibalizeBytes keccak256) pvB.signature)
    (epoch : pvA.epoch = pvB.epoch) (view : pvA.viewNumber = pvB.viewNumber)
    (number : pvA.blockNumber = pvB.blockNumber) (differ : pvA.blockHash ≠ pvB.blockHash) :
    validatePrepareVote (Bls.ofDigest keccak256 deserializes verify) (newEvidenceVote pvA node)
      (newEvidenceVote pvB node) = .ok () := by
  refine validateSameBlock_eq_ok.mpr ⟨epoch, view, number, rfl, differ, ?_, ?_⟩
  · exact verify_newEvidenceNode keccak256 deserializes verify
      ((newEvidenceVote_digest keccak256 pvA node).symm ▸ signedA)
  · exact verify_newEvidenceNode keccak256 deserializes verify
      ((newEvidenceVote_digest keccak256 pvB node).symm ▸ signedB)

theorem validateViewChange_of_signed {vcA vcB : ViewChange Signature} {node : ValidateNode Key}
    (signedA : SignsBytes deserializes verify node (vcA.cannibalizeBytes keccak256) vcA.signature)
    (signedB : SignsBytes deserializes verify node (vcB.cannibalizeBytes keccak256) vcB.signature)
    (epoch : vcA.epoch = vcB.epoch) (view : vcA.viewNumber = vcB.viewNumber)
    (differ : ¬(vcA.blockNumber = vcB.blockNumber ∧ vcA.blockHash = vcB.blockHash)) :
    validateViewChange (Bls.ofDigest keccak256 deserializes verify) (newEvidenceView vcA node)
      (newEvidenceView vcB node) = .ok () := by
  refine (validateViewChange_eq_ok _).mpr ⟨epoch, view, rfl, differ, ?_, ?_⟩
  · exact verify_newEvidenceNode keccak256 deserializes verify
      ((newEvidenceView_digest keccak256 vcA node).symm ▸ signedA)
  · exact verify_newEvidenceNode keccak256 deserializes verify
      ((newEvidenceView_digest keccak256 vcB node).symm ▸ signedB)

/-- The evidence of a message hashes the bytes the message hashes, a proposal's once its signer is
its proposer; so two conflicting messages, each signed by one validator over its own bytes, make
evidence that `Validate` accepts. -/
theorem evidence_digests_agree (codec : BlockCodec Blk ε) (node : ValidateNode Key) :
    (∀ pb : PrepareBlock Blk Signature, node.index = pb.proposalIndex →
      (newEvidencePrepare keccak256 codec pb node).map (·.cannibalizeBytes.digest keccak256) =
        pb.cannibalizeBytes keccak256 codec) ∧
    (∀ pv : PrepareVote Signature,
      (newEvidenceVote pv node).cannibalizeBytes.digest keccak256 = pv.cannibalizeBytes keccak256) ∧
    (∀ vc : ViewChange Signature,
      (newEvidenceView vc node).cannibalizeBytes.digest keccak256 = vc.cannibalizeBytes keccak256) ∧
    (∀ (pbA pbB : PrepareBlock Blk Signature) (dataA dataB : List UInt8),
      node.index = pbA.proposalIndex → node.index = pbB.proposalIndex →
      pbA.cannibalizeBytes keccak256 codec = .ok dataA →
      pbB.cannibalizeBytes keccak256 codec = .ok dataB →
      SignsBytes deserializes verify node dataA pbA.signature →
      SignsBytes deserializes verify node dataB pbB.signature →
      pbA.epoch = pbB.epoch → pbA.viewNumber = pbB.viewNumber →
      codec.numberU64 pbA.block = codec.numberU64 pbB.block →
      codec.hash pbA.block ≠ codec.hash pbB.block →
      ∃ evA evB, newEvidencePrepare keccak256 codec pbA node = .ok evA ∧
        newEvidencePrepare keccak256 codec pbB node = .ok evB ∧
        validatePrepareBlock (Bls.ofDigest keccak256 deserializes verify) evA evB = .ok ()) ∧
    (∀ pvA pvB : PrepareVote Signature,
      SignsBytes deserializes verify node (pvA.cannibalizeBytes keccak256) pvA.signature →
      SignsBytes deserializes verify node (pvB.cannibalizeBytes keccak256) pvB.signature →
      pvA.epoch = pvB.epoch → pvA.viewNumber = pvB.viewNumber →
      pvA.blockNumber = pvB.blockNumber → pvA.blockHash ≠ pvB.blockHash →
      validatePrepareVote (Bls.ofDigest keccak256 deserializes verify) (newEvidenceVote pvA node)
        (newEvidenceVote pvB node) = .ok ()) ∧
    (∀ vcA vcB : ViewChange Signature,
      SignsBytes deserializes verify node (vcA.cannibalizeBytes keccak256) vcA.signature →
      SignsBytes deserializes verify node (vcB.cannibalizeBytes keccak256) vcB.signature →
      vcA.epoch = vcB.epoch → vcA.viewNumber = vcB.viewNumber →
      ¬(vcA.blockNumber = vcB.blockNumber ∧ vcA.blockHash = vcB.blockHash) →
      validateViewChange (Bls.ofDigest keccak256 deserializes verify) (newEvidenceView vcA node)
        (newEvidenceView vcB node) = .ok ()) :=
  ⟨fun pb proposer => newEvidencePrepare_digest keccak256 codec pb proposer,
    fun pv => newEvidenceVote_digest keccak256 pv node,
    fun vc => newEvidenceView_digest keccak256 vc node,
    fun _ _ _ _ proposerA proposerB digestA digestB signedA signedB epoch view number differ =>
      validatePrepareBlock_of_signed keccak256 deserializes verify codec proposerA proposerB digestA
        digestB signedA signedB epoch view number differ,
    fun _ _ signedA signedB epoch view number differ =>
      validatePrepareVote_of_signed keccak256 deserializes verify signedA signedB epoch view number
        differ,
    fun _ _ signedA signedB epoch view differ =>
      validateViewChange_of_signed keccak256 deserializes verify signedA signedB epoch view differ⟩

end Signed

/-- Blocks known by their hash alone, at height five, each encoding to nothing. -/
def hashCodec : BlockCodec Hash Unit :=
  ⟨id, fun _ => 5, fun _ => .ok []⟩

/-- Two proposals of one view at height five with different hashes, from proposer zero. -/
theorem evidence_digests_agree_on_two_proposals :
    ∃ evA evB,
      newEvidencePrepare (fun _ => zeroHash) hashCodec (⟨1, 2, 1#256, 0, 0, 0⟩ : PrepareBlock Hash ℕ)
        (⟨0, 0#512, 7⟩ : ValidateNode ℕ) = .ok evA ∧
      newEvidencePrepare (fun _ => zeroHash) hashCodec (⟨1, 2, 2#256, 0, 0, 0⟩ : PrepareBlock Hash ℕ)
        (⟨0, 0#512, 7⟩ : ValidateNode ℕ) = .ok evB ∧
      validatePrepareBlock (Bls.ofDigest (fun _ => zeroHash) (fun _ => true) fun _ _ _ => true)
        evA evB = .ok () :=
  (evidence_digests_agree (fun _ => zeroHash) (fun _ => true) (fun _ _ _ => true) hashCodec
    (⟨0, 0#512, 7⟩ : ValidateNode ℕ)).2.2.2.1 _ _ _ _ rfl rfl rfl rfl ⟨rfl, rfl⟩ ⟨rfl, rfl⟩ rfl rfl rfl
    (by decide)

end Slashing
end Bubble
