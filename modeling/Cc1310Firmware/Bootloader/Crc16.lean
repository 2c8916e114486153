import Cc1310Firmware.Bootloader.Protocol
import Cc1310Firmware.Codec.ErrorBursts

/-! CRC-16 as a reflected register that takes each byte from the top bit on. -/

set_option autoImplicit false

namespace Cc1310Firmware.Bootloader
open LittleEndian

/-- The bits of a byte in the order in which they enter the register. -/
def topDown (byte : Byte) : List Bool := Crc.bits 8 byte.reverse

theorem topDown_injective : Function.Injective topDown := by
  intro byte byte' same
  rw [← BitVec.reverse_reverse_eq (x := byte), Crc.bits_injective same, BitVec.reverse_reverse_eq]

theorem length_topDown (byte : Byte) : (topDown byte).length = 8 := Crc.length_bits 8 byte.reverse

/-- The polynomial with its bits turned round has its constant term on top. -/
theorem crc16_odd : (0x8408 : Half).msb = true := by decide

theorem crc16Bits_succ (count : Nat) (crc : Half) :
    crc16Bits (count + 1) crc = crc16Bits count (Crc.feed 0x1021 crc false) := by
  have top : (crc &&& 0x8000 != 0) = crc.msb := by
    rw [show (0x8000 : Half) = BitVec.twoPow 16 15 by decide, BitVec.and_twoPow, BitVec.msb_eq_getLsbD_last]
    cases crc.getLsbD 15 with
    | true => rfl
    | false => rfl
  rw [crc16Bits, Crc.feed, Bool.xor_false, top]
  cases crc.msb with
  | true => rfl
  | false => exact congrArg (crc16Bits count) BitVec.xor_zero.symm

theorem reverse_crc16Bits (count : Nat) (crc : Half) : (crc16Bits count crc).reverse =
    (fun register => Crc.feedReflected 0x8408 register false)^[count] crc.reverse := by
  have polynomial : (0x1021 : Half).reverse = 0x8408 := by decide
  induction count generalizing crc with
  | zero => rfl
  | succ count ih => rw [crc16Bits_succ, ih, Crc.reverse_feed, polynomial, Function.iterate_succ_apply]

theorem reverse_high (byte : Byte) : (byte.setWidth 16 <<< 8 : Half).reverse = byte.reverse.setWidth 16 := by
  apply BitVec.eq_of_getLsbD_eq
  intro i inside
  rw [BitVec.getLsbD_reverse, BitVec.getMsbD_shiftLeft, BitVec.getLsbD_setWidth, BitVec.getLsbD_reverse,
    BitVec.getMsbD_setWidth, decide_eq_true inside, Bool.true_and]
  simp

theorem reverse_crc16Step (crc : Half) (byte : Byte) :
    (crc16Step crc byte).reverse = (topDown byte).foldl (Crc.feedReflected 0x8408) crc.reverse := by
  have same : Crc.bits 8 (byte.reverse.setWidth 16) = topDown byte := Crc.bits_setWidth _ (by decide)
  rw [crc16Step, reverse_crc16Bits, Crc.reverse_xor, reverse_high, ← same,
    Crc.foldl_bits _ _ (Crc.setWidth_shiftRight byte.reverse 16)]

theorem reverse_foldl_crc16Step (crc : Half) (data : List Byte) : (data.foldl crc16Step crc).reverse =
    (data.flatMap topDown).foldl (Crc.feedReflected 0x8408) crc.reverse := by
  induction data generalizing crc with
  | nil => rfl
  | cons byte rest ih => rw [List.foldl_cons, ih, reverse_crc16Step, List.flatMap_cons, List.foldl_append]

theorem reverse_injective {w : Nat} {x y : BitVec w} (same : x.reverse = y.reverse) : x = y := by
  rw [← BitVec.reverse_reverse_eq (x := x), same, BitVec.reverse_reverse_eq]

/-- Two messages with one CRC do not differ in two bytes in a row. -/
theorem eq_of_calculateCrc16 {data changed : List Byte} (near : Crc.Within 2 data changed)
    (same : calculateCrc16 data = calculateCrc16 changed) : data = changed := by
  have registers := congrArg BitVec.reverse same
  rw [calculateCrc16, calculateCrc16, reverse_foldl_crc16Step, reverse_foldl_crc16Step] at registers
  exact Crc.eq_of_foldl_bytes crc16_odd topDown_injective length_topDown (by decide) near registers

/-- What a change of one byte does to the register depends on the difference only. -/
theorem crc16Step_sub (crc : Half) (byte byte' : Byte) :
    crc16Step crc byte ^^^ crc16Step crc byte' = crc16Step 0 (byte ^^^ byte') := by
  apply reverse_injective
  have difference : crc ^^^ byte.setWidth 16 <<< 8 ^^^ (crc ^^^ byte'.setWidth 16 <<< 8) =
      (0 : Half) ^^^ (byte ^^^ byte').setWidth 16 <<< 8 := by
    apply BitVec.eq_of_getLsbD_eq
    intro i _
    simp
    grind
  rw [Crc.reverse_xor, crc16Step, crc16Step, crc16Step, reverse_crc16Bits, reverse_crc16Bits, reverse_crc16Bits,
    Crc.iterate_sub, ← Crc.reverse_xor, difference]

/-- It reaches the high byte of the register but for one difference. -/
theorem crc16Step_high : ∀ difference : Byte, byteOf (crc16Step 0 difference) 1 = 0 → difference = 0 ∨
    difference = 0x89 := by
  decide +kernel

theorem crc16Step_low : crc16Step 0 0x89 = 0x00A1 := by decide

theorem calculateCrc16_byte (front : List Byte) (byte : Byte) :
    calculateCrc16 (front ++ [byte]) = crc16Step (calculateCrc16 front) byte := by
  rw [calculateCrc16, List.foldl_append]
  rfl

/-- A change of the last byte by 0x89 changes the CRC in its low byte only. -/
theorem calculateCrc16_concat (front : List Byte) (last : Byte) :
    calculateCrc16 (front ++ [last ^^^ 0x89]) = calculateCrc16 (front ++ [last]) ^^^ 0x00A1 := by
  have difference := crc16Step_sub (calculateCrc16 front) last (last ^^^ 0x89)
  rw [← BitVec.xor_assoc, BitVec.xor_self, BitVec.zero_xor, crc16Step_low] at difference
  rw [calculateCrc16_byte, calculateCrc16_byte, ← difference, ← BitVec.xor_assoc, BitVec.xor_self, BitVec.zero_xor]

/-- Protected bytes and their CRC that differ in two bytes in a row are the same but for
this change, because the CRC is sent low byte first. -/
theorem eq_or_slip {data changed : List Byte} (near : Crc.Within 2 (data ++ bytesOf (calculateCrc16 data) 2)
    (changed ++ bytesOf (calculateCrc16 changed) 2)) :
    data = changed ∨ ∃ front last, data = front ++ [last] ∧ changed = front ++ [last ^^^ 0x89] := by
  have length : data.length = changed.length := by simpa using near.length
  rcases near.append_cases length with same | field | ⟨front, last, last', low, low', back, rfl, rfl, field, field'⟩
  · exact .inl same
  · have covered := near.take data.length
    rw [List.take_left, length, List.take_left] at covered
    have crc : calculateCrc16 data = calculateCrc16 changed := by
      rw [← word16_bytes (calculateCrc16 data), ← word16_bytes (calculateCrc16 changed)]
      have bytes : ∀ crc : Half, bytesOf crc 2 = [byteOf crc 0, byteOf crc 1] := fun _ => rfl
      rw [bytes, bytes] at field
      obtain ⟨first, rest⟩ := List.cons.inj field
      rw [first, (List.cons.inj rest).1]
    exact .inl (eq_of_calculateCrc16 covered crc)
  · -- the high byte is outside the window, so the two CRCs agree in it
    have high : byteOf (calculateCrc16 (front ++ [last])) 1 = byteOf (calculateCrc16 (front ++ [last'])) 1 :=
      List.cons.inj ((List.cons.inj field).2.trans (List.cons.inj field').2.symm) |>.1
    have zero : byteOf (crc16Step 0 (last ^^^ last')) 1 = 0 := by
      rw [calculateCrc16_byte, calculateCrc16_byte] at high
      rw [← crc16Step_sub (calculateCrc16 front)]
      unfold byteOf at *
      rw [BitVec.ushiftRight_xor_distrib, BitVec.setWidth_xor, high]
      exact BitVec.xor_self
    rcases crc16Step_high _ zero with none_ | slip
    · exact .inl (by rw [BitVec.xor_eq_zero_iff.mp none_])
    · refine .inr ⟨front, last, rfl, ?_⟩
      rw [← slip, ← BitVec.xor_assoc, BitVec.xor_self, BitVec.zero_xor]

theorem reverse_byteOf (crc : Half) : (byteOf crc 1).reverse = crc.reverse.setWidth 8 ∧
    (byteOf crc 0).reverse = (crc.reverse >>> 8).setWidth 8 := by
  refine ⟨?_, ?_⟩ <;>
  · apply BitVec.eq_of_getLsbD_eq
    intro i inside
    simp only [byteOf, BitVec.getLsbD_reverse, BitVec.getMsbD_eq_getLsbD, BitVec.getLsbD_setWidth,
      BitVec.getLsbD_ushiftRight]
    grind

/-- The high byte of the CRC, then the low one, shift the register out. -/
theorem calculateCrc16_residue (data : List Byte) :
    calculateCrc16 (data ++ [byteOf (calculateCrc16 data) 1, byteOf (calculateCrc16 data) 0]) = 0 := by
  apply reverse_injective
  generalize register : calculateCrc16 data = crc
  have field : [byteOf crc 1, byteOf crc 0].flatMap topDown = Crc.bits 16 crc.reverse := by
    obtain ⟨high, low⟩ := reverse_byteOf crc
    rw [List.flatMap_cons, List.flatMap_cons, topDown, topDown, high, low, Crc.bits_setWidth _ (Nat.le_refl 8),
      Crc.bits_setWidth _ (Nat.le_refl 8), Crc.bits_add crc.reverse 8 8]
    exact congrArg (_ ++ ·) (List.append_nil _)
  rw [calculateCrc16, List.foldl_append, ← calculateCrc16, register, reverse_foldl_crc16Step, field,
    Crc.foldl_field, BitVec.xor_self]
  decide

end Cc1310Firmware.Bootloader
