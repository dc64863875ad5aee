import Bubble.Cbft.Verify
import Bubble.Rlp.Encode

/-!
# Consensus messages and the bytes their signatures cover

`PrepareBlock`, `PrepareVote` and `ViewChange` of `consensus/cbft/protocols/protocol.go`, with
their `CannibalizeBytes`: the Keccak-256 hash of the RLP list of the signed fields.  A proposal's
block enters through its hash, its number and the hash of its own encoding.  Keccak-256 is the
parameter `keccak256`, which gives the thirty-two bytes of a hash.

`SignedBytes.digest` hashes the fields `SignedBytes` keeps, each with the Go type the certificates
and the evidence give it: the `CannibalizeBytes` of `QuorumCert`, `ViewChangeQuorumCert` and of the
three kinds of evidence is the digest of their `SignedBytes`.
-/

namespace Bubble
namespace Cbft

open Rlp

variable {Blk ε Signature : Type}

/-- What the messages read of a `types.Block`. -/
structure BlockCodec (Blk ε : Type) where
  /-- `Block.Hash`. -/
  hash : Blk → Hash
  /-- `Block.NumberU64`. -/
  numberU64 : Blk → UInt64
  /-- `rlp.EncodeToBytes` of the block. -/
  encode : Blk → Except ε (List UInt8)

/-- `protocols.PrepareBlock`, without the certificates a view's first block carries. -/
structure PrepareBlock (Blk Signature : Type) where
  epoch : UInt64
  viewNumber : UInt64
  block : Blk
  blockIndex : UInt32
  proposalIndex : UInt32
  signature : Signature

/-- `protocols.PrepareVote`, without the parent's certificate. -/
structure PrepareVote (Signature : Type) where
  epoch : UInt64
  viewNumber : UInt64
  blockHash : Hash
  blockNumber : UInt64
  blockIndex : UInt32
  validatorIndex : UInt32
  signature : Signature

/-- `protocols.ViewChange`. -/
structure ViewChange (Signature : Type) where
  epoch : UInt64
  viewNumber : UInt64
  blockHash : Hash
  blockNumber : UInt64
  validatorIndex : UInt32
  prepareQC : Option (QuorumCert Signature)
  signature : Signature

/-- `PrepareBlock.CannibalizeBytes`: the block's encoding enters as its hash, a byte slice. -/
def PrepareBlock.cannibalizeBytes (keccak256 : List UInt8 → Hash) (codec : BlockCodec Blk ε)
    (pb : PrepareBlock Blk Signature) : Except ε (List UInt8) := do
  let blockData ← codec.encode pb.block
  .ok (keccak256 (encodeToBytes (.list
    [.uint pb.epoch, .uint pb.viewNumber, .byteArray (codec.hash pb.block).bytes,
      .uint (codec.numberU64 pb.block), .bytes (keccak256 blockData).bytes,
      .uint pb.blockIndex.toUInt64, .uint pb.proposalIndex.toUInt64]))).bytes

/-- `PrepareVote.CannibalizeBytes`. -/
def PrepareVote.cannibalizeBytes (keccak256 : List UInt8 → Hash) (pv : PrepareVote Signature) :
    List UInt8 :=
  (keccak256 (encodeToBytes (.list
    [.uint pv.epoch, .uint pv.viewNumber, .byteArray pv.blockHash.bytes, .uint pv.blockNumber,
      .uint pv.blockIndex.toUInt64]))).bytes

/-- The epoch and view of a view change's certificate, both zero without one. -/
def ViewChange.blockEpochView (vc : ViewChange Signature) : UInt64 × UInt64 :=
  match vc.prepareQC with
  | some qc => (qc.epoch, qc.viewNumber)
  | none => (0, 0)

/-- `ViewChange.CannibalizeBytes`. -/
def ViewChange.cannibalizeBytes (keccak256 : List UInt8 → Hash) (vc : ViewChange Signature) :
    List UInt8 :=
  (keccak256 (encodeToBytes (.list
    [.uint vc.epoch, .uint vc.viewNumber, .byteArray vc.blockHash.bytes, .uint vc.blockNumber,
      .uint vc.blockEpochView.1, .uint vc.blockEpochView.2]))).bytes

/-- The list `CannibalizeBytes` encodes for the fields, with hashes as byte arrays and indices as
unsigned integers. -/
def SignedBytes.rlpList : SignedBytes → Value
  | .quorumCert epoch viewNumber blockHash blockNumber blockIndex =>
      .list [.uint epoch, .uint viewNumber, .byteArray blockHash.bytes, .uint blockNumber,
        .uint blockIndex.toUInt64]
  | .viewChangeQuorumCert epoch viewNumber blockHash blockNumber blockEpoch blockViewNumber =>
      .list [.uint epoch, .uint viewNumber, .byteArray blockHash.bytes, .uint blockNumber,
        .uint blockEpoch, .uint blockViewNumber]
  | .prepareBlock epoch viewNumber blockHash blockNumber blockData blockIndex validatorIndex =>
      .list [.uint epoch, .uint viewNumber, .byteArray blockHash.bytes, .uint blockNumber,
        .byteArray blockData.bytes, .uint blockIndex.toUInt64, .uint validatorIndex.toUInt64]

/-- The bytes a signature over the fields covers: the hash of their encoding. -/
def SignedBytes.digest (keccak256 : List UInt8 → Hash) (msg : SignedBytes) : List UInt8 :=
  (keccak256 (encodeToBytes msg.rlpList)).bytes

/-- The BLS library on the bytes a signature covers, seen on the fields: what the abstract `Bls`
of the verification model stands for. -/
def Bls.ofDigest {Key : Type} (keccak256 : List UInt8 → Hash) (deserializes : Signature → Bool)
    (verify : Signature → List Key → List UInt8 → Bool) : Bls Key Signature where
  deserializes := deserializes
  verify signature keys msg := verify signature keys (msg.digest keccak256)

end Cbft
end Bubble
