import Bubble.Lib.Bytes
import Mathlib

/-!
# RLP encoding

`rlp.EncodeToBytes` of `rlp/encode.go` on the values the consensus messages encode: unsigned
integers of any width (`writeUint`), byte slices (`writeBytes`), byte arrays such as
`common.Hash` (`makeByteArrayWriter`), and slices of interface values (`makeSliceWriter`, with
`writeInterface` on each item).  The encoder buffer writes the items of a list first and puts the
list header in front of them in `makeBytes`; the model writes the header and then the items.
None of these writers fails.

A byte array and a byte slice holding the same bytes are written alike
(`writeByteArray_eq_writeBytes`), so a field may change between the two types without changing what
is signed.
-/

namespace Bubble
namespace Rlp

/-- A value `EncodeToBytes` meets, by the writer `makeWriter` picks for its type. -/
inductive Value
  /-- An unsigned integer of any width, which `writeUint` reads as a `uint64`. -/
  | uint (value : UInt64)
  /-- A byte slice. -/
  | bytes (data : List UInt8)
  /-- A byte array, as long as `data`. -/
  | byteArray (data : List UInt8)
  /-- A slice of interface values. -/
  | list (items : List Value)

/-- `intsize`: the least number of bytes that hold `i`, one at least. -/
def intsize (i : ℕ) : ℕ := Nat.log 256 i + 1

/-- `putint`: `i` in big-endian order, in `intsize i` bytes. -/
def putint (i : ℕ) : List UInt8 := Bytes.toBytes (intsize i) i

/-- `encBuffer.writeUint64`: zero is the empty string, a number below `128` its own byte, and a
larger one a short string of its bytes. -/
def writeUint64 (i : UInt64) : List UInt8 :=
  if i = 0 then [0x80]
  else if i < 128 then [i.toUInt8]
  else
    let s := putint i.toNat
    (0x80 + s.length.toUInt8) :: s

/-- `puthead`: the header of a string or list of `size` bytes, with the tag for short contents and
the tag for long ones, which are followed by the bytes of the size. -/
def puthead (smalltag largetag : UInt8) (size : ℕ) : List UInt8 :=
  if size < 56 then [smalltag + size.toUInt8]
  else
    let sizesize := putint size
    (largetag + sizesize.length.toUInt8) :: sizesize

/-- `encBuffer.encodeStringHeader`. -/
def encodeStringHeader (size : ℕ) : List UInt8 :=
  puthead 0x80 0xB7 size

/-- `encBuffer.writeBytes`: a single byte below `0x80` is its own encoding. -/
def writeBytes (b : List UInt8) : List UInt8 :=
  match b with
  | [x] => if x ≤ 0x7F then [x] else encodeStringHeader 1 ++ [x]
  | _ => encodeStringHeader b.length ++ b

/-- The writer `makeByteArrayWriter` returns for an array of the length of `data`:
`writeLengthZeroByteArray`, `writeLengthOneByteArray`, or the string header and the bytes. -/
def writeByteArray (data : List UInt8) : List UInt8 :=
  match data with
  | [] => [0x80]
  | [b] => if b ≤ 0x7f then [b] else [0x81, b]
  | _ => encodeStringHeader data.length ++ data

/-- The header `listhead.encode` puts in front of a list of `size` bytes of items. -/
def listHeader (size : ℕ) : List UInt8 :=
  puthead 0xC0 0xF7 size

mutual

/-- `EncodeToBytes`. -/
def encodeToBytes : Value → List UInt8
  | .uint value => writeUint64 value
  | .bytes data => writeBytes data
  | .byteArray data => writeByteArray data
  | .list items =>
      -- an empty slice is `0xC0`, which is also the header of no items
      let payload := encodeItems items
      listHeader payload.length ++ payload

/-- The items of a slice, each through `writeInterface`, one after the other. -/
def encodeItems : List Value → List UInt8
  | [] => []
  | item :: items => encodeToBytes item ++ encodeItems items

end

theorem writeByteArray_eq_writeBytes (data : List UInt8) :
    writeByteArray data = writeBytes data := by
  match data with
  | [] => rfl
  | [b] =>
    by_cases small : b ≤ 0x7f
    · simp only [writeByteArray, writeBytes, small, if_true]
    · simp only [writeByteArray, writeBytes, small, if_false]
      rfl
  | _ :: _ :: _ => rfl

end Rlp
end Bubble
