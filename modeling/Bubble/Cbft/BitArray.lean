import Bubble.Lib.Traverse
import Mathlib

/-!
# Bit arrays

`utils.BitArray` of `consensus/cbft/utils/bit_array.go`: a number of bits and a slice of 64-bit
words.  A `*BitArray` is an `Option BitArray`, `none` being Go's `nil`.  Only `NewBitArray` sizes
the slice to the bits; an array decoded from a peer message carries any `Bits` and any `Elems`,
and reading a word the slice lacks is a Go runtime panic, which the model returns as a failure.
-/

namespace Bubble
namespace Cbft

open Traverse

/-- The runtime panics on the verification path. -/
inductive Panic
  /-- `index out of range`: a slice read past its length. -/
  | indexOutOfRange
  /-- `get unknown epoch, current:%d, request:%d` of `ValidatorPool.epochToBlockNumber`. -/
  | unknownEpoch (current request : UInt64)
  deriving DecidableEq, Repr

/-- `utils.BitArray`. -/
structure BitArray where
  bits : UInt32
  elems : List UInt64
  deriving DecidableEq, Repr

namespace BitArray

/-- `NewBitArray`: `nil` for no bits, else `(bits+63)/64` zero words, in `uint32` arithmetic. -/
def newBitArray (bits : UInt32) : Option BitArray :=
  if bits = 0 then none else some ⟨bits, List.replicate ((bits + 63) / 64).toNat 0⟩

/-- `Size`. -/
def size : Option BitArray → UInt32
  | none => 0
  | some array => array.bits

/-- The word test of `getIndex`: `Elems[i/64] & (1 << (i%64)) > 0`. -/
def testWord (word : UInt64) (i : UInt32) : Bool :=
  0 < (word &&& ((1 : UInt64) <<< (i % 64).toUInt64))

/-- `GetIndex` with the bounds check of `getIndex`: an index past `Bits` reads as unset, and a
word past the end of `Elems` panics. -/
def getIndex : Option BitArray → UInt32 → Except Panic Bool
  | none, _ => .ok false
  | some array, i =>
      if array.bits ≤ i then .ok false
      else
        match array.elems[(i / 64).toNat]? with
        | none => .error .indexOutOfRange
        | some word => .ok (testWord word i)

/-- The indices `0, 1, …, Size()-1` of the loops over a bit array. -/
def indices (array : Option BitArray) : List UInt32 :=
  (List.range (size array).toNat).map UInt32.ofNat

/-- The loop of `QuorumCert.Len` and `ViewChangeQuorumCert.Len`: the set bits below `Size()`. -/
def countSet (array : Option BitArray) : Except Panic ℕ :=
  countM (getIndex array) (indices array)

/-! ## Sized arrays -/

/-- The slice has a word for every bit, as `NewBitArray` makes it. -/
def WellFormed (array : BitArray) : Prop :=
  array.bits.toNat ≤ 64 * array.elems.length

instance (array : BitArray) : Decidable array.WellFormed :=
  inferInstanceAs (Decidable (array.bits.toNat ≤ 64 * array.elems.length))

/-- `nil` or a well-formed array. -/
def Sized : Option BitArray → Prop
  | none => True
  | some array => array.WellFormed

/-- The bit a sized array holds at an index. -/
def isSet : Option BitArray → UInt32 → Bool
  | none, _ => false
  | some array, i => !(array.bits ≤ i) && testWord (array.elems.getD (i / 64).toNat 0) i

/-- The set indices. -/
def setIndices (array : Option BitArray) : List UInt32 :=
  (indices array).filter (isSet array)

theorem setIndices_nodup (array : Option BitArray) : (setIndices array).Nodup := by
  refine List.Nodup.filter _ (List.Nodup.map_on ?_ List.nodup_range)
  intro first first_mem second second_mem same
  have bound := (size array).toNat_lt
  simp only [List.mem_range] at first_mem second_mem
  have first_eq : (UInt32.ofNat first).toNat = first :=
    UInt32.toNat_ofNat_of_lt' (by simp only [UInt32.size]; omega)
  have second_eq : (UInt32.ofNat second).toNat = second :=
    UInt32.toNat_ofNat_of_lt' (by simp only [UInt32.size]; omega)
  rw [← first_eq, ← second_eq, same]

theorem getIndex_of_word {array : BitArray} {i : UInt32}
    (present : i.toNat < 64 * array.elems.length) :
    getIndex (some array) i = .ok (isSet (some array) i) := by
  have word : i.toNat / 64 < array.elems.length := Nat.div_lt_of_lt_mul present
  by_cases past : array.bits ≤ i
  · simp [getIndex, isSet, past]
  · simp [getIndex, isSet, past, List.getElem?_eq_getElem word]

theorem getIndex_of_sized {array : Option BitArray} (sized : Sized array) (i : UInt32) :
    getIndex array i = .ok (isSet array i) := by
  cases array with
  | none => rfl
  | some array =>
      by_cases past : array.bits ≤ i
      · simp [getIndex, isSet, past]
      · rw [UInt32.le_iff_toNat_le] at past
        exact getIndex_of_word (by unfold Sized WellFormed at sized; omega)

theorem countSet_of_sized {array : Option BitArray} (sized : Sized array) :
    countSet array = .ok (setIndices array).length := by
  rw [setIndices, ← List.countP_eq_length_filter]
  exact countM_eq_ok fun i _ => getIndex_of_sized sized i

theorem getIndex_eq_error {array : BitArray} (malformed : ¬ array.WellFormed) :
    getIndex (some array) (UInt32.ofNat (64 * array.elems.length)) = .error .indexOutOfRange := by
  unfold WellFormed at malformed
  have fits : 64 * array.elems.length < UInt32.size := by
    have := array.bits.toNat_lt
    simp only [UInt32.size] at this ⊢
    omega
  have index : (UInt32.ofNat (64 * array.elems.length)).toNat = 64 * array.elems.length :=
    UInt32.toNat_ofNat_of_lt' fits
  have below : ¬ array.bits ≤ UInt32.ofNat (64 * array.elems.length) := by
    rw [UInt32.le_iff_toNat_le, index]
    omega
  have absent : array.elems[(UInt32.ofNat (64 * array.elems.length) / 64).toNat]? = none := by
    rw [UInt32.toNat_div, index]
    simp
  simp only [getIndex, if_neg below, absent]

/-- The counting loop panics exactly on the arrays that are not sized. -/
theorem countSet_eq_error {array : BitArray} (malformed : ¬ array.WellFormed) :
    countSet (some array) = .error .indexOutOfRange := by
  unfold WellFormed at malformed
  set words := array.elems.length
  have split : (size (some array)).toNat =
      64 * words + (0 + 1 + (array.bits.toNat - 64 * words - 1)) := by
    simp only [size]
    omega
  rw [countSet, indices, split, List.range_add, List.range_add, List.range_succ, List.map_append,
    List.map_append, List.map_append]
  simp only [List.range_zero, List.nil_append, List.map_cons, List.map_nil,
    List.singleton_append, Nat.add_zero]
  refine countM_eq_error _ _ (getIndex_eq_error malformed) ?_
  intro i member
  obtain ⟨n, below, rfl⟩ := List.mem_map.mp member
  have fits : n < UInt32.size := by
    have := array.bits.toNat_lt
    simp only [List.mem_range] at below
    simp only [UInt32.size] at this ⊢
    omega
  refine ⟨_, getIndex_of_word ?_⟩
  rw [UInt32.toNat_ofNat_of_lt' fits]
  exact List.mem_range.mp below

end BitArray
end Cbft
end Bubble
