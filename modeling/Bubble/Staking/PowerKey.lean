import Bubble.Staking.Validator

/-!
# Power keys

`TallyPowerKey` of `x/staking/staking_db_key.go`: the key under which a candidate's power is
stored, so that reading the keys in byte order lists the candidates from the strongest.  The key is
the prefix, the inverted major.minor version in four bytes, a priority field, the staking block
and transaction index in eight and four bytes, and the node id.  The priority is
`MaxBig104 - Shares` in the fewest bytes that hold it, behind thirteen zero bytes, so its length
follows its value.  Where every priority takes all thirteen bytes, byte order is the order of
`CompareDefault`, ties going to the smaller node id; a priority one byte shorter puts its candidate
after one with fewer shares.
-/

namespace Bubble
namespace Staking

open Compare

/-- `math.MaxInt32`. -/
def maxInt32 : UInt32 := 2147483647

/-- `math.MaxBig104`. -/
def maxBig104 : ℤ := 2 ^ 104 - 1

/-- `big.Int.Bytes`: the absolute value in big-endian order, with no leading zero byte. -/
def bigIntBytes (value : ℤ) : List UInt8 :=
  if value = 0 then [] else Bytes.toBytes (Nat.log 256 value.natAbs + 1) value.natAbs

/-- `b104Len`: the length of `MaxBig104` in bytes. -/
def b104Len : ℕ := (bigIntBytes maxBig104).length

/-- `common.Uint32ToBytes`. -/
def uint32ToBytes (val : UInt32) : List UInt8 := Bytes.toBytes 4 val.toNat

/-- `common.Uint64ToBytes`. -/
def uint64ToBytes (val : UInt64) : List UInt8 := Bytes.toBytes 8 val.toNat

/-- `NodeID.Bytes`. -/
def NodeID.bytes (id : NodeID) : List UInt8 := Bytes.toBytes 64 (BitVec.toNat id)

/-- `CanPowerKeyPrefix`: the bytes of `"Power"`. -/
def canPowerKeyPrefix : List UInt8 := [0x50, 0x6F, 0x77, 0x65, 0x72]

/-- `TallyPowerKey`. -/
def tallyPowerKey (programVersion : UInt32) (shares : ℤ) (stakeBlockNum : UInt64)
    (stakeTxIndex : UInt32) (nodeID : NodeID) : List UInt8 :=
  -- only major and minor sort
  let subVersion := maxInt32 - calcVersion programVersion
  let sortVersion := uint32ToBytes subVersion
  let priority := maxBig104 - shares
  let zeros := List.replicate b104Len 0
  let prio := zeros ++ bigIntBytes priority
  let id := NodeID.bytes nodeID
  let num := uint64ToBytes stakeBlockNum
  let txIndex := uint32ToBytes stakeTxIndex
  canPowerKeyPrefix ++ sortVersion ++ prio ++ num ++ txIndex ++ id

/-! ## The width of the fields -/

theorem bigIntBytes_of_pow_le {value : ℤ} {k : ℕ} (low : 256 ^ k ≤ value)
    (high : value < 256 ^ (k + 1)) : bigIntBytes value = Bytes.toBytes (k + 1) value.toNat := by
  have positive : 0 < value := lt_of_lt_of_le (by positivity) low
  have log : Nat.log 256 value.natAbs = k :=
    Nat.log_eq_of_pow_le_of_lt_pow (by zify; rwa [abs_of_pos positive])
      (by zify; rwa [abs_of_pos positive])
  rw [bigIntBytes, if_neg positive.ne', log]
  congr 1
  omega

/-! ## Variable-width priorities -/

/-- A validator whose priority `0xFF` takes one byte. -/
def richer : Validator :=
  { programVersion := 0, stakingTxIndex := 0, validatorTerm := 0, stakingBlockNum := 0,
    nodeAddress := zeroAddress, nodeId := 1#512, shares := maxBig104 - 0xFF }

/-- A validator alike but for one fewer share and its node id, whose priority `0x100` takes two. -/
def poorer : Validator := { richer with nodeId := 2#512, shares := maxBig104 - 0x100 }

theorem tallyPowerKey_richer_after :
    0 < compareDefault (fun _ => none) richer poorer ∧
      0 < Bytes.compare
        (tallyPowerKey richer.programVersion richer.shares richer.stakingBlockNum
          richer.stakingTxIndex richer.nodeId)
        (tallyPowerKey poorer.programVersion poorer.shares poorer.stakingBlockNum
          poorer.stakingTxIndex poorer.nodeId) := by
  have one_byte : bigIntBytes (maxBig104 - richer.shares) = [0xFF] := by
    have value : maxBig104 - richer.shares = 0xFF := by simp [richer]
    rw [value, bigIntBytes_of_pow_le (k := 0) (by norm_num) (by norm_num)]
    rfl
  have two_bytes : bigIntBytes (maxBig104 - poorer.shares) = [0x01, 0x00] := by
    have value : maxBig104 - poorer.shares = 0x100 := by simp [poorer, richer]
    rw [value, bigIntBytes_of_pow_le (k := 1) (by norm_num) (by norm_num)]
    rfl
  constructor
  · simp [compareDefault, byFlag, byField, richer, poorer]
  · simp only [tallyPowerKey, one_byte, two_bytes, List.append_assoc]
    rw [show poorer.programVersion = richer.programVersion from rfl, Bytes.compare_append_left,
      Bytes.compare_append_left, Bytes.compare_append_left]
    decide

end Staking
end Bubble
