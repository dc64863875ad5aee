import Mathlib
import Bubble.Lib.Bytes

/-!
# Addresses, hashes and epochs

The chain-wide vocabulary the plugins share: twenty-byte account addresses with the system
contracts of `common/vm/inner_contract.go`, thirty-two-byte hashes, node identifiers, and the
epoch of a block from `x/xutil/calculate.go`.
-/

namespace Bubble

/-- `common.Address`: twenty bytes. -/
def Address := BitVec 160

instance : DecidableEq Address := inferInstanceAs (DecidableEq (BitVec 160))

instance : Fintype Address := inferInstanceAs (Fintype (BitVec 160))

instance : Inhabited Address := inferInstanceAs (Inhabited (BitVec 160))

instance : Repr Address := inferInstanceAs (Repr (BitVec 160))

/-- The address with every byte zero, which `common.BytesToAddress` reads from an empty slot. -/
def zeroAddress : Address := (0 : BitVec 160)

/-- `vm.RestrictingContractAddr`. -/
def restrictingContractAddr : Address := 0x1000000000000000000000000000000000000001#160

/-- `vm.StakingContractAddr`. -/
def stakingContractAddr : Address := 0x1000000000000000000000000000000000000002#160

/-- `vm.RewardManagerPoolAddr`. -/
def rewardManagerPoolAddr : Address := 0x1000000000000000000000000000000000000003#160

/-- `vm.SlashingContractAddr`. -/
def slashingContractAddr : Address := 0x1000000000000000000000000000000000000004#160

/-- `vm.DelegateRewardPoolAddr`. -/
def delegateRewardPoolAddr : Address := 0x1000000000000000000000000000000000000006#160

theorem restricting_ne_staking : restrictingContractAddr ≠ stakingContractAddr := by decide

theorem restricting_ne_rewardPool : restrictingContractAddr ≠ rewardManagerPoolAddr := by decide

/-- `common.Hash`: thirty-two bytes. -/
def Hash := BitVec 256

instance : DecidableEq Hash := inferInstanceAs (DecidableEq (BitVec 256))

instance : Repr Hash := inferInstanceAs (Repr (BitVec 256))

/-- `common.ZeroHash`. -/
def zeroHash : Hash := (0 : BitVec 256)

/-- `Hash.Bytes`: the thirty-two bytes, most significant first. -/
def Hash.bytes (h : Hash) : List UInt8 :=
  Bytes.toBytes 32 (BitVec.toNat h)

/-- `common.BytesToHash`: the last thirty-two bytes of `b`, with zero bytes in front of a shorter
slice. -/
def bytesToHash (b : List UInt8) : Hash :=
  BitVec.ofNat 256 (Bytes.ofBytes (b.drop (b.length - 32)))

theorem bytes_bytesToHash {b : List UInt8} (width : b.length = 32) : (bytesToHash b).bytes = b := by
  have bound : Bytes.ofBytes b < 2 ^ 256 := by
    have := Bytes.ofBytes_lt b
    rwa [width, show (256 : ℕ) ^ 32 = 2 ^ 256 from rfl] at this
  have value : BitVec.toNat (bytesToHash b) = Bytes.ofBytes b := by
    rw [bytesToHash, width, Nat.sub_self, List.drop_zero, BitVec.toNat_ofNat, Nat.mod_eq_of_lt bound]
  rw [Hash.bytes, value, ← width, Bytes.toBytes_ofBytes]

/-- `discover.NodeID`: the sixty-four bytes of a node's public key. -/
def NodeID := BitVec 512

instance : DecidableEq NodeID := inferInstanceAs (DecidableEq (BitVec 512))

instance : Repr NodeID := inferInstanceAs (Repr (BitVec 512))

instance : Inhabited NodeID := inferInstanceAs (Inhabited (BitVec 512))

/-- `xutil.CalculateEpoch`: epochs count from one, and the last block of an epoch belongs to it.
`size` is `CalcBlocksEachEpoch()`, positive in every economic configuration. -/
def calculateEpoch (size blockNumber : UInt64) : UInt64 :=
  let div := blockNumber / size
  let mod := blockNumber % size
  if div = 0 then 1
  else if mod = 0 then div
  else div + 1

end Bubble
