import Mathlib

/-!
# Fixed-width big-endian bytes

A number written in a fixed number of bytes, most significant first, and the number a byte string
spells.  Writing the number a string spells in the string's own width gives the string back, and
the number is below `256 ^ width`: so a byte string of a fixed width and a number below the bound
are two faces of one value.
-/

namespace Bubble
namespace Bytes

/-- The `width` low bytes of `value`, most significant first. -/
def toBytes : ℕ → ℕ → List UInt8
  | 0, _ => []
  | width + 1, value => toBytes width (value / 256) ++ [(value % 256).toUInt8]

/-- The number `bytes` spells, most significant byte first. -/
def ofBytes (bytes : List UInt8) : ℕ :=
  bytes.foldl (fun acc b => acc * 256 + b.toNat) 0

@[simp]
theorem length_toBytes (width value : ℕ) : (toBytes width value).length = width := by
  induction width generalizing value with
  | zero => rfl
  | succ width ih => simp [toBytes, ih]

@[simp]
theorem ofBytes_nil : ofBytes [] = 0 := rfl

theorem ofBytes_append_singleton (bytes : List UInt8) (b : UInt8) :
    ofBytes (bytes ++ [b]) = ofBytes bytes * 256 + b.toNat := by
  simp [ofBytes, List.foldl_append]

theorem ofBytes_lt (bytes : List UInt8) : ofBytes bytes < 256 ^ bytes.length := by
  induction bytes using List.reverseRecOn with
  | nil => simp
  | append_singleton bytes b ih =>
    have low : b.toNat < 256 := b.toNat_lt
    rw [ofBytes_append_singleton, List.length_append, List.length_singleton, Nat.pow_succ]
    omega

theorem toBytes_ofBytes (bytes : List UInt8) : toBytes bytes.length (ofBytes bytes) = bytes := by
  induction bytes using List.reverseRecOn with
  | nil => rfl
  | append_singleton bytes b ih =>
    have low : b.toNat < 256 := b.toNat_lt
    have quotient : (ofBytes bytes * 256 + b.toNat) / 256 = ofBytes bytes := by omega
    have remainder : (ofBytes bytes * 256 + b.toNat) % 256 = b.toNat := by omega
    rw [List.length_append, List.length_singleton, ofBytes_append_singleton, toBytes, quotient,
      remainder, ih, Nat.toUInt8, UInt8.ofNat_toNat]

theorem ofBytes_toBytes (width value : ℕ) : ofBytes (toBytes width value) = value % 256 ^ width := by
  induction width generalizing value with
  | zero => simp [toBytes, Nat.mod_one]
  | succ width ih =>
    have low : ((value % 256).toUInt8).toNat = value % 256 := by
      rw [Nat.toUInt8_eq, UInt8.toNat_ofNat', Nat.mod_mod_of_dvd _ (by norm_num)]
    rw [toBytes, ofBytes_append_singleton, ih, low, pow_succ', Nat.mod_mul]
    ring

/-! ## The order of byte strings -/

/-- `bytes.Compare`: the lexicographic order of byte strings, a proper prefix first; negative,
zero or positive as `a` comes before, with or after `b`. -/
def compare : List UInt8 → List UInt8 → ℤ
  | [], [] => 0
  | [], _ :: _ => -1
  | _ :: _, [] => 1
  | a :: as, b :: bs => if a < b then -1 else if b < a then 1 else compare as bs

theorem compare_append_left (common x y : List UInt8) :
    compare (common ++ x) (common ++ y) = compare x y := by
  induction common with
  | nil => rfl
  | cons b common ih => simp [compare, ih]

end Bytes
end Bubble
