import Cc1310Firmware.Bootloader.Crc16
import Cc1310Firmware.Host.Replies

/-! Frames that are changed in two bytes in a row. -/

set_option autoImplicit false

namespace Cc1310Firmware.Host
open LittleEndian Bootloader

/-- The change of the last payload byte and the first byte of the CRC field that leaves a
valid frame. -/
def slipped (frame : List Byte) : List Byte :=
  (frame.modify (frame.length - 3) (· ^^^ 0x89)).modify (frame.length - 2) (· ^^^ 0xA1)

theorem modify_append (front back : List Byte) (byte : Byte) (f : Byte → Byte) :
    (front ++ byte :: back).modify front.length f = front ++ f byte :: back := by
  rw [List.modify_eq_take_cons_drop (by simp)]
  simp

theorem slipped_append (front : List Byte) (last low high : Byte) :
    slipped (front ++ [last] ++ [low, high]) = front ++ [last ^^^ 0x89] ++ [low ^^^ 0xA1, high] := by
  have length : (front ++ [last] ++ [low, high]).length = front.length + 3 := by simp
  have field := modify_append (front ++ [last ^^^ 0x89]) [high] low (· ^^^ 0xA1)
  rw [List.length_append, List.length_singleton] at field
  rw [slipped, length, Nat.add_sub_cancel, show front.length + 3 - 2 = front.length + 1 by omega, List.append_assoc,
    List.singleton_append, modify_append front [low, high] last (· ^^^ 0x89), ← field, List.append_assoc]
  rfl

/-- A slip turns a valid frame into a valid frame. -/
theorem slipped_covered (front : List Byte) (last : Byte) :
    slipped (front ++ [last] ++ bytesOf (calculateCrc16 (front ++ [last])) 2) =
      front ++ [last ^^^ 0x89] ++ bytesOf (calculateCrc16 (front ++ [last ^^^ 0x89])) 2 := by
  have bytes : ∀ crc : Half, bytesOf (crc ^^^ 0x00A1) 2 = [byteOf crc 0 ^^^ 0xA1, byteOf crc 1] := by
    intro crc
    have low : byteOf (crc ^^^ 0x00A1) 0 = byteOf crc 0 ^^^ 0xA1 := by
      simp only [byteOf, BitVec.ushiftRight_xor_distrib, BitVec.setWidth_xor]
      rfl
    have high : byteOf (crc ^^^ 0x00A1) 1 = byteOf crc 1 := by
      simp only [byteOf, BitVec.ushiftRight_xor_distrib, BitVec.setWidth_xor]
      exact BitVec.xor_zero
    rw [← low, ← high]
    rfl
  rw [calculateCrc16_concat, bytes]
  exact slipped_append front last _ _

theorem slipped_decodedFrame (messageType : Byte) (sequenceNumber : Half) (front : List Byte) (last : Byte) :
    slipped (decodedFrame messageType sequenceNumber (front ++ [last])) =
      decodedFrame messageType sequenceNumber (front ++ [last ^^^ 0x89]) := by
  have covered : ∀ byte, coveredBytes messageType sequenceNumber (front ++ [byte]) =
      [Bootloader.protocolVersion, messageType] ++ bytesOf sequenceNumber 2 ++
        bytesOf (BitVec.ofNat 16 (front.length + 1)) 2 ++ front ++ [byte] := by
    intro byte
    rw [coveredBytes, List.length_append, List.length_singleton, List.append_assoc _ front]
  unfold decodedFrame
  rw [covered, covered]
  exact slipped_covered _ last

/-- An empty payload has no last byte: the slip would hit its length. -/
theorem no_slip_nil {messageType messageType' : Byte} {sequenceNumber sequenceNumber' : Half}
    {payload' front : List Byte}
    {last : Byte} (covered : coveredBytes messageType sequenceNumber [] = front ++ [last])
    (covered' : coveredBytes messageType' sequenceNumber' payload' = front ++ [last ^^^ 0x89]) : False := by
  have empty : payload' = [] := by
    have length := congrArg List.length covered
    have length' := congrArg List.length covered'
    simp only [coveredBytes, List.length_append, List.length_cons, List.length_nil, length_bytesOf] at length length'
    exact List.eq_nil_of_length_eq_zero (by omega)
  have head : ∀ (type : Byte) (number : Half), (coveredBytes type number []).getLast? = some 0 := fun _ _ => rfl
  have end_ := head messageType sequenceNumber
  have end' := head messageType' sequenceNumber'
  rw [covered, List.getLast?_concat] at end_
  rw [empty] at covered'
  rw [covered', List.getLast?_concat, Option.some.inj end_] at end'
  exact absurd (Option.some.inj end') (by decide)

theorem parseFrame_changed {messageType : Byte} {sequenceNumber : Half} {payload changed : List Byte}
    (short : payload.length < 2 ^ 16) (near : Crc.Within 2 (decodedFrame messageType sequenceNumber payload) changed)
    (other : changed ≠ decodedFrame messageType sequenceNumber payload) : parseFrame changed = none ↔
      ¬ (payload ≠ [] ∧ changed = slipped (decodedFrame messageType sequenceNumber payload)) := by
  constructor
  · rintro rejected ⟨some_, rfl⟩
    obtain ⟨front, last, rfl⟩ := List.eq_nil_or_concat' payload |>.resolve_left some_
    rw [slipped_decodedFrame, parseFrame_decodedFrame messageType sequenceNumber (by simpa using short)] at rejected
    cases rejected
  · intro noSlip
    cases parsed : parseFrame changed with
    | none => rfl
    | some frame =>
      obtain ⟨rfl, _⟩ := parseFrame_eq_some parsed
      rcases eq_or_slip near with same | ⟨front, last, covered, covered'⟩
      · exact absurd (by rw [decodedFrame, decodedFrame, same]) other
      · refine absurd ⟨?_, ?_⟩ noSlip
        · rintro rfl
          exact no_slip_nil covered covered'
        · rw [decodedFrame, decodedFrame, covered, covered']
          exact (slipped_covered front last).symm

/-- A frame that is changed in at most two bytes in a row is rejected by both ends, unless
the change is the slip. -/
theorem short_corruption (messageType : Byte) (sequenceNumber : Half) {payload changed : List Byte}
    (short : payload.length < 2 ^ 16) (near : Crc.Within 2 (decodedFrame messageType sequenceNumber payload) changed)
    (other : changed ≠ decodedFrame messageType sequenceNumber payload) :
    (∀ (stack : Buffer) (segment : List Byte), (∀ b ∈ segment, b ≠ 0) →
      Cobs.decode (received segment) = some changed →
      (readProtocolFrame stack (segment ++ [0]) = none ↔
        ¬ (payload ≠ [] ∧ changed = slipped (decodedFrame messageType sequenceNumber payload)))) ∧
    ∀ wire : List Byte, cobsDecode (wire.rdropWhile (· == 0)) = some changed →
      (decode wire = none ↔ ¬ (payload ≠ [] ∧ changed = slipped
        (decodedFrame messageType sequenceNumber payload))) := by
  have rejects := parseFrame_changed short near other
  constructor
  · intro stack segment nonzero holds
    have read := (Receiver.holds_restart stack).read_segment segment nonzero
    rw [List.nil_append, frameOf, holds, Option.bind_some] at read
    rw [readProtocolFrame, read, Option.map_eq_none_iff, rejects]
  · intro wire decoded
    rw [cobsDecode_eq] at decoded
    rw [decode_eq, frameOf, decoded, Option.bind_some, Option.map_eq_none_iff, rejects]

/-- A HELLO whose type is damaged. -/
theorem short_corruption_hello :
    readProtocolFrame (fun _ => 0) (Cobs.encode [2, 3, 7, 0, 0, 0, 0x2C, 0x7E] ++ [0]) = none ∧
    decode (Cobs.encode [2, 3, 7, 0, 0, 0, 0x2C, 0x7E] ++ [0]) = none := by
  have frame : decodedFrame 1 7 [] = [2, 1, 7, 0, 0, 0, 0x2C, 0x7E] := by decide +kernel
  have near : Crc.Within 2 (decodedFrame 1 7 []) [2, 3, 7, 0, 0, 0, 0x2C, 0x7E] := by
    rw [frame]
    exact ⟨[2], [1], [3], [7, 0, 0, 0, 0x2C, 0x7E], rfl, rfl, rfl, by decide⟩
  have rejects := short_corruption 1 7 (by decide) near (by rw [frame]; decide)
  have whole : received (Cobs.encode [2, 3, 7, 0, 0, 0, 0x2C, 0x7E]) = Cobs.encode [2, 3, 7, 0, 0, 0, 0x2C, 0x7E] :=
    received_of_le (by decide +kernel)
  have stripped : (Cobs.encode [2, 3, 7, 0, 0, 0, 0x2C, 0x7E] ++ [0]).rdropWhile (· == 0) =
      Cobs.encode [2, 3, 7, 0, 0, 0, 0x2C, 0x7E] := by decide +kernel
  refine ⟨(rejects.1 _ _ (Cobs.encode_nonzero _) ?_).mpr fun slip => slip.1 rfl,
    (rejects.2 _ ?_).mpr fun slip => slip.1 rfl⟩
  · rw [whole, Cobs.decode_encode]
  · rw [stripped, cobsDecode_eq, Cobs.decode_encode]

/-- A DATA frame that goes through with another last byte. -/
theorem slip_accepted :
    let frame := decodedFrame 5 1 [0, 0, 0, 0, 0x12]
    let changed := decodedFrame 5 1 [0, 0, 0, 0, 0x9B]
    Crc.Within 2 frame changed ∧ changed ≠ frame ∧
    ∃ segment : List Byte, (∀ b ∈ segment, b ≠ 0) ∧ Cobs.decode (received segment) = some changed ∧
      readProtocolFrame (fun _ => 0) (segment ++ [0]) = some (⟨5, 1, [0, 0, 0, 0, 0x9B]⟩, []) ∧
      decode (segment ++ [0]) = some (5, 1, [0, 0, 0, 0, 0x9B]) := by
  intro frame changed
  have frame_ : frame = [2, 5, 1, 0, 5, 0, 0, 0, 0, 0, 0x12, 0x3B, 0x16] := by decide +kernel
  have changed_ : changed = [2, 5, 1, 0, 5, 0, 0, 0, 0, 0, 0x9B, 0x9A, 0x16] := by decide +kernel
  have delivered := @readProtocolFrame_encoded (fun _ => 0) 5 1 [0, 0, 0, 0, 0x9B] (by decide)
  have decoded := @decode_writeProtocolFrame (fun _ => 0) ⟨5, 1, [0, 0, 0, 0, 0x9B]⟩ (by decide)
  have length := @length_encoded 5 1 [0, 0, 0, 0, 0x9B] (by decide)
  rw [writeProtocolFrame_eq] at decoded
  rw [frame_, changed_]
  refine ⟨⟨[2, 5, 1, 0, 5, 0, 0, 0, 0, 0], [0x12, 0x3B], [0x9B, 0x9A], [0x16], rfl, rfl, rfl, by decide⟩, by decide,
    Cobs.encode changed, Cobs.encode_nonzero _, ?_, delivered, decoded⟩
  rw [received_of_le (by rw [length]; decide), Cobs.decode_encode, changed_]

end Cc1310Firmware.Host
