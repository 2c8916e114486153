import Cc1310Firmware.Bootloader.Protocol
import Cc1310Firmware.Codec.Cobs

/-! The COBS loops of the bootloader against the COBS code, and a frame as the
list of its decoded bytes.
-/

set_option autoImplicit false

namespace Cc1310Firmware.Bootloader
open LittleEndian

@[simp] theorem Buffer.length_slice (buffer : Buffer) (index length : Nat) :
    (buffer.slice index length).length = length := by simp [slice]

@[simp] theorem Buffer.slice_zero (buffer : Buffer) (index : Nat) : buffer.slice index 0 = [] := rfl

theorem Buffer.getElem_slice (buffer : Buffer) (index length i : Nat) (h : i < (buffer.slice index length).length) :
    (buffer.slice index length)[i] = buffer (index + i) := by simp [slice]

theorem Buffer.getD_slice (buffer : Buffer) {index length i : Nat} (h : i < length) :
    (buffer.slice index length).getD i 0 = buffer (index + i) := by
  rw [List.getD_eq_getElem?_getD, List.getElem?_eq_getElem (by simpa using h), Option.getD_some, getElem_slice]

theorem Buffer.slice_congr {b c : Buffer} {i j length : Nat} (same : ∀ k < length, b (i + k) = c (j + k)) :
    b.slice i length = c.slice j length := by
  apply List.map_congr_left
  intro k member
  exact same k (List.mem_range.mp member)

theorem Buffer.slice_add (buffer : Buffer) (index m n : Nat) :
    buffer.slice index (m + n) = buffer.slice index m ++ buffer.slice (index + m) n := by
  simp [slice, List.range_add, Nat.add_assoc]

theorem Buffer.slice_succ (buffer : Buffer) (index n : Nat) :
    buffer.slice index (n + 1) = buffer index :: buffer.slice (index + 1) n := by
  rw [Nat.add_comm n 1, slice_add]; rfl

theorem Buffer.slice_concat (buffer : Buffer) (index n : Nat) :
    buffer.slice index (n + 1) = buffer.slice index n ++ [buffer (index + n)] := slice_add buffer index n 1

theorem Buffer.take_slice (buffer : Buffer) (index : Nat) {m n : Nat} (h : m ≤ n) :
    (buffer.slice index n).take m = buffer.slice index m := by
  conv => lhs; rw [← Nat.add_sub_cancel' h, slice_add]
  exact List.take_left' (length_slice ..)

theorem Buffer.drop_slice (buffer : Buffer) (index : Nat) {m n : Nat} (h : m ≤ n) :
    (buffer.slice index n).drop m = buffer.slice (index + m) (n - m) := by
  conv => lhs; rw [← Nat.add_sub_cancel' h, slice_add]
  exact List.drop_left' (length_slice ..)

theorem Buffer.slice_within {buffer : Buffer} {data : List Byte} {n : Nat} (whole : buffer.slice 0 n = data)
    {i m : Nat} (inside : i + m ≤ n) : buffer.slice i m = (data.drop i).take m := by
  rw [← whole, drop_slice _ _ (by omega), take_slice _ _ (by omega), Nat.zero_add]

@[simp] theorem Buffer.store_same (buffer : Buffer) (index : Nat) (byte : Byte) :
    buffer.store index byte index = byte :=
  Function.update_self ..

theorem Buffer.store_of_ne (buffer : Buffer) {index i : Nat} (byte : Byte) (other : i ≠ index) :
    buffer.store index byte i = buffer i := Function.update_of_ne other ..

theorem Buffer.slice_store (buffer : Buffer) {index i length : Nat} (byte : Byte)
    (away : index < i ∨ i + length ≤ index) :
    (buffer.store index byte).slice i length = buffer.slice i length :=
  slice_congr fun k h => store_of_ne _ _ (by omega)

/-! ### Encoding -/

/-- The encoder has written `done` and keeps the open block after the place of its code byte. -/
structure CobsEncoder.Writes (encoder : CobsEncoder) (done block : List Byte) : Prop where
  finished : encoder.destination.slice 0 encoder.codeIndex = done
  opened : encoder.destination.slice (encoder.codeIndex + 1) block.length = block
  destinationIndex : encoder.destinationIndex = encoder.codeIndex + 1 + block.length
  code : encoder.code = Cobs.codeOf block

theorem CobsEncoder.Writes.output {encoder : CobsEncoder} {done block : List Byte}
    (writes : encoder.Writes done block) :
    (encoder.destination.store encoder.codeIndex encoder.code).slice 0 encoder.destinationIndex =
      done ++ Cobs.codeOf block :: block := by
  rw [writes.destinationIndex, Nat.add_assoc, Nat.add_comm 1, Buffer.slice_add, Buffer.slice_succ,
    Buffer.slice_store _ _ (.inr (Nat.le_of_eq (Nat.zero_add _))), Nat.zero_add, Buffer.store_same,
    Buffer.slice_store _ _ (.inl (Nat.lt_succ_self _)), writes.finished, writes.opened, writes.code]

theorem CobsEncoder.Writes.close {encoder : CobsEncoder} {done block : List Byte}
    (writes : encoder.Writes done block) :
    encoder.close.Writes (done ++ Cobs.codeOf block :: block) [] :=
  ⟨writes.output, rfl, rfl, rfl⟩

theorem CobsEncoder.Writes.push {encoder : CobsEncoder} {done block : List Byte}
    (writes : encoder.Writes done block) (byte : Byte) : (encoder.push byte).Writes done (block ++ [byte]) := by
  have index := writes.destinationIndex
  constructor
  · rw [← writes.finished]
    exact Buffer.slice_store _ _ (.inr (by simp only [CobsEncoder.push]; omega))
  · rw [List.length_append, List.length_singleton, Buffer.slice_concat]
    simp only [CobsEncoder.push]
    rw [Buffer.slice_store _ _ (.inr (by omega)), writes.opened, index, Buffer.store_same]
  · simp only [CobsEncoder.push, List.length_append, List.length_singleton]
    omega
  · simp [CobsEncoder.push, writes.code, Cobs.codeOf, BitVec.ofNat_add]

/-- What the loop writes from an open block on. -/
theorem CobsEncoder.Writes.encodes {encoder : CobsEncoder} {done block : List Byte} (source : List Byte)
    (writes : encoder.Writes done block) (short : block.length < Cobs.fullBlock) :
    let final := source.foldl CobsEncoder.step encoder
    (final.destination.store final.codeIndex final.code).slice 0 final.destinationIndex =
      done ++ Cobs.encodeFrom block source := by
  induction source generalizing encoder done block with
  | nil => exact writes.output
  | cons byte rest ih =>
    have full : (encoder.push byte).code = 0xFF ↔ block.length + 1 = Cobs.fullBlock := by
      rw [(writes.push byte).code, Cobs.codeOf_eq_full (by simp; omega), List.length_append, List.length_singleton]
    unfold Cobs.encodeFrom
    rw [List.foldl_cons, CobsEncoder.step]
    simp only [beq_iff_eq, full]
    split
    · rw [ih writes.close (by decide), List.append_assoc]
    · split
      · rw [ih (writes.push byte).close (by decide), List.append_assoc]
      case isFalse more => exact ih (writes.push byte) (by simp; omega)

theorem cobsEncode_eq (source : List Byte) (destination : Buffer) :
    (cobsEncode source destination).1.slice 0 (cobsEncode source destination).2 = Cobs.encode source := by
  have start : CobsEncoder.Writes ⟨destination.store 0 0, 1, 0, 1⟩ [] [] := ⟨rfl, rfl, rfl, rfl⟩
  exact start.encodes source (by decide)

theorem writeProtocolFrame_eq (stack : Buffer) (frame : ProtocolFrame) : writeProtocolFrame stack frame =
    Cobs.encode (decodedFrame frame.messageType frame.sequenceNumber frame.payload) ++ [0] := by
  unfold writeProtocolFrame
  exact congrArg (· ++ [0]) (cobsEncode_eq _ stack)

/-! ### Decoding -/

/-- Copying down reads each byte before it is overwritten. -/
theorem cobsCopy_apply (count : Nat) (buffer : Buffer) {readIndex writeIndex : Nat}
    (behind : writeIndex ≤ readIndex) (i : Nat) : cobsCopy count buffer readIndex writeIndex i =
      if writeIndex ≤ i ∧ i < writeIndex + count then buffer (readIndex + (i - writeIndex)) else buffer i := by
  induction count generalizing buffer readIndex writeIndex with
  | zero =>
    rw [cobsCopy, if_neg (by omega)]
  | succ count ih =>
    rw [cobsCopy, ih _ (Nat.succ_le_succ behind)]
    by_cases first : i = writeIndex
    · subst first
      rw [if_neg (by omega), if_pos (by omega), Buffer.store_same, Nat.sub_self, Nat.add_zero]
    · by_cases later : writeIndex + 1 ≤ i ∧ i < writeIndex + 1 + count
      · rw [if_pos later, if_pos (by omega), Buffer.store_of_ne _ _ (by omega)]
        congr 1
        omega
      · rw [if_neg later, if_neg (by omega), Buffer.store_of_ne _ _ first]

theorem cobsCopy_block (count : Nat) (buffer : Buffer) {readIndex writeIndex : Nat}
    (behind : writeIndex ≤ readIndex) :
    (cobsCopy count buffer readIndex writeIndex).slice writeIndex count = buffer.slice readIndex count := by
  apply Buffer.slice_congr
  intro k inside
  rw [cobsCopy_apply count buffer behind, if_pos (by omega), Nat.add_sub_cancel_left]

theorem cobsCopy_outside (count : Nat) (buffer : Buffer) {readIndex writeIndex i : Nat}
    (behind : writeIndex ≤ readIndex)
    (outside : i < writeIndex ∨ writeIndex + count ≤ i) :
    cobsCopy count buffer readIndex writeIndex i = buffer i := by
  rw [cobsCopy_apply count buffer behind, if_neg (by omega)]

/-- The decoding of the bytes from `readIndex` on is written from `writeIndex` on, and nothing else changes. -/
structure DecodedInPlace (buffer : Buffer) (encodedLength readIndex writeIndex : Nat)
    (result : Buffer × Option Nat) :
    Prop where
  frame : ∀ i, i < writeIndex ∨ encodedLength ≤ i → result.1 i = buffer i
  decodedLength : result.2 = (Cobs.decode (buffer.slice readIndex (encodedLength - readIndex))).map
    fun data => writeIndex + data.length
  data : ∀ data, Cobs.decode (buffer.slice readIndex (encodedLength - readIndex)) = some data →
    result.1.slice writeIndex data.length = data

/-- One block, moved down as `front`, and the rest of the message. -/
theorem DecodedInPlace.prepend {buffer moved : Buffer}
    {encodedLength readIndex readIndex' writeIndex writeIndex' : Nat} {front : List Byte}
    {result : Buffer × Option Nat} (rest : DecodedInPlace moved encodedLength readIndex' writeIndex' result)
    (index : writeIndex + front.length = writeIndex')
    (written : moved.slice writeIndex front.length = front)
    (before : ∀ i < writeIndex, moved i = buffer i) (after : ∀ i, readIndex' ≤ i → moved i = buffer i)
    (inside : readIndex' ≤ encodedLength)
    (decodes : Cobs.decode (buffer.slice readIndex (encodedLength - readIndex)) =
      (Cobs.decode (buffer.slice readIndex' (encodedLength - readIndex'))).map (front ++ ·)) :
    DecodedInPlace buffer encodedLength readIndex writeIndex result := by
  subst index
  have tail : moved.slice readIndex' (encodedLength - readIndex') =
      buffer.slice readIndex' (encodedLength - readIndex') :=
    Buffer.slice_congr fun k _ => after _ (Nat.le_add_right _ _)
  obtain ⟨frame, decodedLength, data⟩ := rest
  rw [tail] at decodedLength data
  constructor
  · intro i outside
    rcases outside with low | high
    · rw [frame i (.inl (by omega)), before i low]
    · rw [frame i (.inr high), after i (by omega)]
  · rw [decodedLength, decodes, Option.map_map]
    congr 1
    funext tail_
    simp [Nat.add_assoc]
  · intro all decoded
    rw [decodes] at decoded
    obtain ⟨tail_, decodedTail, rfl⟩ := Option.map_eq_some_iff.mp decoded
    rw [List.length_append, Buffer.slice_add, data tail_ decodedTail]
    congr 1
    calc result.1.slice writeIndex front.length
      _ = moved.slice writeIndex front.length := Buffer.slice_congr fun k inside_ => frame _ (.inl (by omega))
      _ = front := written

/-- The COBS code at an index. -/
theorem decode_slice (buffer : Buffer) {encodedLength readIndex : Nat} (more : readIndex < encodedLength) :
    Cobs.decode (buffer.slice readIndex (encodedLength - readIndex)) =
      if (buffer readIndex).toNat = 0 ∨ encodedLength < readIndex + 1 + (buffer readIndex).toNat - 1 then none
      else (Cobs.decode (buffer.slice (readIndex + (buffer readIndex).toNat)
          (encodedLength - (readIndex + (buffer readIndex).toNat)))).map
        (Cobs.join (buffer readIndex) (buffer.slice (readIndex + 1) ((buffer readIndex).toNat - 1))
          (buffer.slice (readIndex + (buffer readIndex).toNat)
            (encodedLength - (readIndex + (buffer readIndex).toNat)))) := by
  obtain ⟨rest, length⟩ : ∃ rest, encodedLength = readIndex + rest + 1 := ⟨encodedLength - readIndex - 1, by omega⟩
  have code : buffer readIndex = 0 ↔ (buffer readIndex).toNat = 0 := by rw [← BitVec.toNat_inj]; rfl
  rw [show encodedLength - readIndex = rest + 1 by omega, Buffer.slice_succ, Cobs.decode_cons]
  by_cases bad : (buffer readIndex).toNat = 0 ∨ rest < (buffer readIndex).toNat - 1
  · rw [if_pos (by rwa [code, Buffer.length_slice]), if_pos (by omega)]
  · rw [if_neg (by rwa [code, Buffer.length_slice]), if_neg (by omega), Buffer.take_slice _ _ (by omega),
      Buffer.drop_slice _ _ (by omega),
      show readIndex + 1 + ((buffer readIndex).toNat - 1) = readIndex + (buffer readIndex).toNat by omega,
      show rest - ((buffer readIndex).toNat - 1) = encodedLength - (readIndex + (buffer readIndex).toNat) by omega]

theorem cobsDecodeLoop_spec (buffer : Buffer) {encodedLength readIndex writeIndex : Nat}
    (behind : writeIndex ≤ readIndex) (inside : readIndex ≤ encodedLength) :
    DecodedInPlace buffer encodedLength readIndex writeIndex
      (cobsDecodeLoop buffer encodedLength readIndex writeIndex) := by
  fun_induction cobsDecodeLoop buffer encodedLength readIndex writeIndex with
  | case1 buffer readIndex writeIndex more code bad =>
    have rejects := decode_slice buffer more
    rw [if_pos bad] at rejects
    exact ⟨fun _ _ => rfl, by rw [rejects]; rfl, by simp [rejects]⟩
  | case2 buffer readIndex writeIndex more code good copied gap ih =>
    have decodes := decode_slice buffer more
    rw [if_neg good] at decodes
    have ahead : writeIndex ≤ readIndex + 1 := by omega
    have length : (buffer.slice (readIndex + 1) (code - 1) ++ [0]).length = code - 1 + 1 := by simp
    apply (ih (by omega) (by omega)).prepend (congrArg (writeIndex + ·) length)
    · rw [length, Buffer.slice_concat, Buffer.store_same, Buffer.slice_store _ _ (.inr (Nat.le_refl _)),
        cobsCopy_block _ _ ahead]
    · intro i low
      rw [Buffer.store_of_ne _ _ (by omega)]
      exact cobsCopy_outside _ _ ahead (.inl low)
    · intro i high
      rw [Buffer.store_of_ne _ _ (by omega)]
      exact cobsCopy_outside _ _ ahead (.inr (by omega))
    · exact Nat.le_of_lt gap.2
    -- code - 1 is below 0xFE and bytes follow: a zero was implied
    · rw [decodes]
      congr 1
      funext tail
      have continues : buffer readIndex ≠ 0xFF := fun full => gap.1 (by simp [code, full])
      have nonempty : buffer.slice (readIndex + code) (encodedLength - (readIndex + code)) ≠ [] :=
        List.ne_nil_of_length_pos (by rw [Buffer.length_slice]; omega)
      rw [Cobs.join, if_pos ⟨continues, nonempty⟩, List.append_assoc]
      rfl
  | case3 buffer readIndex writeIndex more code good copied last ih =>
    have decodes := decode_slice buffer more
    rw [if_neg good] at decodes
    have ahead : writeIndex ≤ readIndex + 1 := by omega
    have length : (buffer.slice (readIndex + 1) (code - 1)).length = code - 1 := by simp
    apply (ih (by omega) (by omega)).prepend (congrArg (writeIndex + ·) length)
    · rw [length, cobsCopy_block _ _ ahead]
    · intro i low
      exact cobsCopy_outside _ _ ahead (.inl low)
    · intro i high
      exact cobsCopy_outside _ _ ahead (.inr (by omega))
    · omega
    -- a full block, or the last one: no zero is implied
    · rw [decodes]
      congr 1
      funext tail
      rw [Cobs.join, if_neg]
      intro both
      have length := List.length_pos_of_ne_nil both.2
      rw [Buffer.length_slice] at length
      apply last
      refine ⟨fun full => both.1 (BitVec.eq_of_toNat_eq full), ?_⟩
      omega
  | case4 buffer readIndex writeIndex done =>
    rw [Nat.le_antisymm inside (Nat.le_of_not_lt done)]
    constructor <;> simp

theorem cobsDecode_spec (buffer : Buffer) (encodedLength : Nat) :
    DecodedInPlace buffer encodedLength 0 0 (cobsDecode buffer encodedLength) :=
  cobsDecodeLoop_spec buffer (Nat.le_refl _) (Nat.zero_le _)

/-! ### Frames -/

/-- The frame that decoded bytes stand for. -/
def parseFrame (data : List Byte) : Option ProtocolFrame :=
  let payloadLength := word16 (data.getD 4 0) (data.getD 5 0)
  if data.length = 8 + payloadLength.toNat ∧ data.getD 0 0 = protocolVersion ∧
      word16 (data.getD (data.length - 2) 0) (data.getD (data.length - 1) 0) =
        calculateCrc16 (data.take (data.length - 2)) then
    some ⟨data.getD 1 0, word16 (data.getD 2 0) (data.getD 3 0), (data.drop 6).take payloadLength.toNat⟩
  else none

theorem parseFrame_short {data : List Byte} (short : data.length < 8) : parseFrame data = none :=
  if_neg fun valid => by have := valid.1; omega

/-- The uint16_t comparison of the lengths is exact. -/
theorem expectedLength_iff {length : Nat} (payloadLength : Half) (long : 8 ≤ length) (short : length < 2 ^ 16) :
    BitVec.ofNat 16 length = 8 + payloadLength ↔ length = 8 + payloadLength.toNat := by
  have bound := payloadLength.isLt
  rw [← BitVec.toNat_inj, BitVec.toNat_add, BitVec.toNat_ofNat, Nat.mod_eq_of_lt short]
  have eight : (8 : Half).toNat = 8 := rfl
  omega

theorem checkedFrame_eq {buffer : Buffer} {data : List Byte} (decoded : buffer.slice 0 data.length = data)
    (long : 8 ≤ data.length) (short : data.length < 2 ^ 16) :
    checkedFrame buffer data.length = parseFrame data := by
  have byte : ∀ i < data.length, buffer i = data.getD i 0 := by
    intro i inside
    rw [← decoded, Buffer.getD_slice _ (by simpa using inside), Nat.zero_add]
  have head : buffer.slice 0 (data.length - 2) = data.take (data.length - 2) :=
    Buffer.slice_within decoded (by omega)
  unfold checkedFrame parseFrame
  simp only [Bool.and_eq_true, beq_iff_eq, expectedLength_iff _ long short, and_assoc, head,
    byte 0 (by omega), byte 1 (by omega), byte 2 (by omega), byte 3 (by omega), byte 4 (by omega), byte 5 (by omega),
    byte (data.length - 2) (by omega), byte (data.length - 1) (by omega)]
  split
  case isTrue valid =>
    congr 2
    exact Buffer.slice_within decoded (by omega)
  case isFalse => rfl

theorem length_decodedFrame (messageType : Byte) (sequenceNumber : Half) (payload : List Byte) :
    (decodedFrame messageType sequenceNumber payload).length = 8 + payload.length := by
  simp [decodedFrame, coveredBytes]
  omega

theorem parseFrame_decodedFrame (messageType : Byte) (sequenceNumber : Half) {payload : List Byte}
    (short : payload.length < 2 ^ 16) :
    parseFrame (decodedFrame messageType sequenceNumber payload) = some ⟨messageType, sequenceNumber, payload⟩ := by
  have length := length_decodedFrame messageType sequenceNumber payload
  have size : (BitVec.ofNat 16 payload.length).toNat = payload.length := by
    rw [BitVec.toNat_ofNat, Nat.mod_eq_of_lt short]
  have covered : (coveredBytes messageType sequenceNumber payload).length = 6 + payload.length := by
    simp [coveredBytes]
    omega
  -- the fields that parseFrame reads, at their places
  have head : decodedFrame messageType sequenceNumber payload = protocolVersion :: messageType ::
      byteOf sequenceNumber 0 :: byteOf sequenceNumber 1 :: byteOf (BitVec.ofNat 16 payload.length) 0 ::
      byteOf (BitVec.ofNat 16 payload.length) 1 ::
      (payload ++ bytesOf (calculateCrc16 (coveredBytes messageType sequenceNumber payload)) 2) := by
    simp [decodedFrame, coveredBytes, bytesOf, List.range_succ]
  have crc : ∀ k < 2, (decodedFrame messageType sequenceNumber payload).getD (6 + payload.length + k) 0 =
      byteOf (calculateCrc16 (coveredBytes messageType sequenceNumber payload)) k := by
    intro k last
    rw [decodedFrame, ← covered, List.getD_eq_getElem?_getD, List.getElem?_append_right (Nat.le_add_right _ _),
      Nat.add_sub_cancel_left]
    rcases Nat.le_one_iff_eq_zero_or_eq_one.mp (Nat.le_of_lt_succ last) with rfl | rfl
    · rfl
    · rfl
  have front : (decodedFrame messageType sequenceNumber payload).take (6 + payload.length) =
      coveredBytes messageType sequenceNumber payload := by
    rw [← covered]
    exact List.take_left
  have first := crc 0 (by decide)
  have second := crc 1 (by decide)
  unfold parseFrame
  rw [length, show 8 + payload.length - 2 = 6 + payload.length by omega,
    show 8 + payload.length - 1 = 6 + payload.length + 1 by omega, front, second]
  rw [Nat.add_zero] at first
  rw [first]
  simp [head, size]

end Cc1310Firmware.Bootloader
