import Cc1310Firmware.Codec.LittleEndian
import Mathlib.Logic.Function.Iterate

/-! Cyclic redundancy checks as a register that takes the message bit by bit.

The reflected register of the usual byte loops is the mirror image of it: it
takes the bits of a byte from the least significant one on.
-/

set_option autoImplicit false

namespace Crc

variable {w : Nat}

/-- One message bit enters at the top; what falls out selects the polynomial. -/
def feed (polynomial register : BitVec w) (bit : Bool) : BitVec w :=
  (register <<< 1) ^^^ (if register.msb ^^ bit then polynomial else 0)

/-- The same step in a register with the opposite bit order. -/
def feedReflected (polynomial register : BitVec w) (bit : Bool) : BitVec w :=
  (register >>> 1) ^^^ (if register.getLsbD 0 ^^ bit then polynomial else 0)

/-- The bits of a value, least significant first. -/
def bits {v : Nat} (count : Nat) (value : BitVec v) : List Bool := (List.range count).map value.getLsbD

/-- A CRC with reflected input and output. -/
def checksum (polynomial init xorOut : BitVec w) (data : List Byte) : BitVec w :=
  ((data.flatMap (bits 8)).foldl (feed polynomial) init).reverse ^^^ xorOut

/-- The CRC-32 of IEEE 802.3. -/
def ieee (data : List Byte) : BitVec 32 := checksum 0x04C11DB7 (BitVec.allOnes 32) (BitVec.allOnes 32) data

theorem reverse_xor (x y : BitVec w) : (x ^^^ y).reverse = x.reverse ^^^ y.reverse := by
  apply BitVec.eq_of_getLsbD_eq
  intro i _
  rw [BitVec.getLsbD_reverse, BitVec.getMsbD_xor, BitVec.getLsbD_xor, BitVec.getLsbD_reverse,
    BitVec.getLsbD_reverse]

theorem reverse_shiftLeft (x : BitVec w) (n : Nat) : (x <<< n).reverse = x.reverse >>> n := by
  apply BitVec.eq_of_getLsbD_eq
  intro i _
  rw [BitVec.getLsbD_reverse, BitVec.getMsbD_shiftLeft, BitVec.getLsbD_ushiftRight, BitVec.getLsbD_reverse,
    Nat.add_comm]

theorem reverse_feed (polynomial register : BitVec w) (bit : Bool) :
    (feed polynomial register bit).reverse = feedReflected polynomial.reverse register.reverse bit := by
  have top : register.reverse.getLsbD 0 = register.msb := BitVec.getLsbD_reverse
  have zero : (0 : BitVec w).reverse = 0 := BitVec.reverse_eq_zero_iff.mpr rfl
  unfold feed feedReflected
  rw [reverse_xor, reverse_shiftLeft, top, apply_ite BitVec.reverse, zero]

theorem reverse_foldl (polynomial register : BitVec w) (message : List Bool) :
    (message.foldl (feed polynomial) register).reverse =
      message.foldl (feedReflected polynomial.reverse) register.reverse := by
  induction message generalizing register with
  | nil => rfl
  | cons bit rest ih => rw [List.foldl_cons, List.foldl_cons, ih, reverse_feed]

/-- A byte loop adds the byte to the register first and shifts it out with the register. -/
theorem feedReflected_xor (polynomial register value : BitVec w) :
    feedReflected polynomial (register ^^^ value) false =
      feedReflected polynomial register (value.getLsbD 0) ^^^ (value >>> 1) := by
  unfold feedReflected
  rw [BitVec.getLsbD_xor, Bool.xor_false, BitVec.ushiftRight_xor_distrib, BitVec.xor_assoc, BitVec.xor_assoc,
    BitVec.xor_comm (value >>> 1)]

theorem bits_succ {v : Nat} (count : Nat) (value : BitVec v) :
    bits (count + 1) value = value.getLsbD 0 :: bits count (value >>> 1) := by
  unfold bits
  rw [List.range_succ_eq_map, List.map_cons, List.map_map]
  congr 1
  apply List.map_congr_left
  intro i _
  rw [BitVec.getLsbD_ushiftRight, Function.comp_apply, Nat.add_comm]

/-- `count` shifts of a register that a value was added to. -/
theorem iterate_xor (polynomial register value : BitVec w) (count : Nat) :
    (fun r => feedReflected polynomial r false)^[count] (register ^^^ value) =
      (bits count value).foldl (feedReflected polynomial) register ^^^ (value >>> count) := by
  induction count generalizing register value with
  | zero => rw [Function.iterate_zero_apply, BitVec.ushiftRight_zero]; rfl
  | succ count ih =>
    rw [Function.iterate_succ_apply, feedReflected_xor, ih, bits_succ, List.foldl_cons, ← BitVec.shiftRight_add,
      Nat.add_comm]

end Crc
