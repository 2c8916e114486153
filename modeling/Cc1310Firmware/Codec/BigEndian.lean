import Cc1310Firmware.Codec.LittleEndian
import Mathlib.Data.Nat.Digits.Defs

/-! Numbers as bytes with the most significant one first. -/

set_option autoImplicit false

namespace BigEndian
open LittleEndian

/-- The number that bytes stand for. -/
def valueOf (bytes : List Byte) : Nat := Nat.ofDigits 256 (bytes.reverse.map BitVec.toNat)

/-- The last `k` bytes of a word. -/
def bytesOf {w : Nat} (value : BitVec w) (k : Nat) : List Byte := (LittleEndian.bytesOf value k).reverse

@[simp] theorem length_bytesOf {w : Nat} (value : BitVec w) (k : Nat) : (bytesOf value k).length = k := by
  rw [bytesOf, List.length_reverse, LittleEndian.length_bytesOf]

theorem toNat_byteOf {w : Nat} (value : BitVec w) (k : Nat) :
    (byteOf value k).toNat = value.toNat / 256 ^ k % 256 := by
  have power : 2 ^ (8 * k) = 256 ^ k := Nat.pow_mul 2 8 k
  rw [byteOf, BitVec.toNat_setWidth, BitVec.toNat_ushiftRight, Nat.shiftRight_eq_div_pow, power]

theorem ofDigits_bytesOf {w : Nat} (value : BitVec w) (k : Nat) :
    Nat.ofDigits 256 ((LittleEndian.bytesOf value k).map BitVec.toNat) = value.toNat % 256 ^ k := by
  induction k with
  | zero => exact (Nat.mod_one _).symm
  | succ k ih =>
    have last : LittleEndian.bytesOf value (k + 1) = LittleEndian.bytesOf value k ++ [byteOf value k] := by
      rw [LittleEndian.bytesOf, List.range_succ, List.map_append]
      rfl
    rw [last, List.map_append, Nat.ofDigits_append, ih, List.length_map, LittleEndian.length_bytesOf,
      List.map_singleton, Nat.ofDigits_singleton, toNat_byteOf, Nat.pow_succ, Nat.mod_mul]

theorem valueOf_bytesOf {w : Nat} (value : BitVec w) (k : Nat) :
    valueOf (bytesOf value k) = value.toNat % 256 ^ k := by
  rw [valueOf, bytesOf, List.reverse_reverse, ofDigits_bytesOf]

end BigEndian
