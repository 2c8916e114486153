import Mathlib.Data.BitVec

/-! Bytes and little-endian words. -/

set_option autoImplicit false

abbrev Byte := BitVec 8

namespace LittleEndian

/-- Byte `k` of a word, counted from the least significant one. -/
def byteOf {w : Nat} (value : BitVec w) (k : Nat) : Byte := (value >>> (8 * k)).setWidth 8

def word16 (b0 b1 : Byte) : BitVec 16 := b0.setWidth 16 ||| b1.setWidth 16 <<< 8

def word32 (b0 b1 b2 b3 : Byte) : BitVec 32 :=
  b0.setWidth 32 ||| b1.setWidth 32 <<< 8 ||| b2.setWidth 32 <<< 16 ||| b3.setWidth 32 <<< 24

@[simp] theorem word16_bytes (value : BitVec 16) : word16 (byteOf value 0) (byteOf value 1) = value := by
  ext i hi
  simp only [word16, byteOf, BitVec.getElem_or, BitVec.getElem_setWidth, BitVec.getElem_shiftLeft,
    BitVec.getLsbD_setWidth, BitVec.getLsbD_ushiftRight]
  grind

@[simp] theorem word32_bytes (value : BitVec 32) :
    word32 (byteOf value 0) (byteOf value 1) (byteOf value 2) (byteOf value 3) = value := by
  ext i hi
  simp only [word32, byteOf, BitVec.getElem_or, BitVec.getElem_setWidth, BitVec.getElem_shiftLeft,
    BitVec.getLsbD_setWidth, BitVec.getLsbD_ushiftRight]
  grind

theorem byteOf_word16 (b0 b1 : Byte) : byteOf (word16 b0 b1) 0 = b0 ∧ byteOf (word16 b0 b1) 1 = b1 := by
  refine ⟨?_, ?_⟩ <;>
  · ext i hi
    simp only [word16, byteOf, BitVec.getLsbD_or, BitVec.getElem_setWidth, BitVec.getLsbD_shiftLeft,
      BitVec.getLsbD_setWidth, BitVec.getLsbD_ushiftRight]
    grind

theorem byteOf_word32 (b0 b1 b2 b3 : Byte) :
    byteOf (word32 b0 b1 b2 b3) 0 = b0 ∧ byteOf (word32 b0 b1 b2 b3) 1 = b1 ∧
    byteOf (word32 b0 b1 b2 b3) 2 = b2 ∧ byteOf (word32 b0 b1 b2 b3) 3 = b3 := by
  refine ⟨?_, ?_, ?_, ?_⟩ <;>
  · ext i hi
    simp only [word32, byteOf, BitVec.getLsbD_or, BitVec.getElem_setWidth, BitVec.getLsbD_shiftLeft,
      BitVec.getLsbD_setWidth, BitVec.getLsbD_ushiftRight]
    grind

/-- The `k`-byte little-endian encoding. -/
def bytesOf {w : Nat} (value : BitVec w) (k : Nat) : List Byte := (List.range k).map (byteOf value)

@[simp] theorem length_bytesOf {w : Nat} (value : BitVec w) (k : Nat) : (bytesOf value k).length = k := by
  simp [bytesOf]

theorem bytesOf_word16 (b0 b1 : Byte) : bytesOf (word16 b0 b1) 2 = [b0, b1] := by
  obtain ⟨byte0, byte1⟩ := byteOf_word16 b0 b1
  simp [bytesOf, List.range_succ, byte0, byte1]

theorem bytesOf_word32 (b0 b1 b2 b3 : Byte) : bytesOf (word32 b0 b1 b2 b3) 4 = [b0, b1, b2, b3] := by
  obtain ⟨byte0, byte1, byte2, byte3⟩ := byteOf_word32 b0 b1 b2 b3
  simp [bytesOf, List.range_succ, byte0, byte1, byte2, byte3]

end LittleEndian
