import Cc1310Firmware.Bootloader.Receiver
import Cc1310Firmware.Host.FwProtocol

/-! The frames that the host encodes, as the bootloader receives them. -/

set_option autoImplicit false

namespace Cc1310Firmware.Host
open LittleEndian Bootloader

/-! ### CRC-16: Python integers against uint16_t -/

theorem and_ffff (n : Nat) : n &&& 0xFFFF = n % 2 ^ 16 := Nat.and_two_pow_sub_one_eq_mod n 16

theorem crc16Bits_eq (count : Nat) (crc : Half) :
    crc16Bits count crc.toNat = (Bootloader.crc16Bits count crc).toNat := by
  induction count generalizing crc with
  | zero => rfl
  | succ count ih =>
    have top : crc.toNat &&& 0x8000 ≠ 0 ↔ (crc &&& 0x8000 != 0) = true := by
      rw [bne_iff_ne, ne_eq, ne_eq, ← BitVec.toNat_inj, BitVec.toNat_and]
      rfl
    have shifted : (crc.toNat <<< 1) &&& 0xFFFF = (crc <<< 1).toNat := by
      rw [and_ffff, BitVec.toNat_shiftLeft]
    have reduced : ((crc.toNat <<< 1) ^^^ 0x1021) &&& 0xFFFF = ((crc <<< 1) ^^^ 0x1021).toNat := by
      rw [and_ffff, Nat.xor_mod_two_pow, BitVec.toNat_xor, BitVec.toNat_shiftLeft]
      rfl
    rw [crc16Bits, Bootloader.crc16Bits]
    by_cases carry : crc.toNat &&& 0x8000 ≠ 0
    · rw [if_pos carry, if_pos (top.mp carry), reduced, ih]
    · rw [if_neg carry, if_neg (mt top.mpr carry), shifted, ih]

theorem crc16Ccitt_eq (data : List Byte) : crc16Ccitt data = (calculateCrc16 data).toNat := by
  have step : ∀ (crc : Half) (byte : Byte),
      crc16Bits 8 (crc.toNat ^^^ (byte.toNat <<< 8)) = (crc16Step crc byte).toNat := by
    intro crc byte
    have bound := byte.isLt
    rw [crc16Step, ← crc16Bits_eq, BitVec.toNat_xor, BitVec.toNat_shiftLeft, BitVec.toNat_setWidth,
      Nat.mod_eq_of_lt (show byte.toNat < 2 ^ 16 by omega), Nat.mod_eq_of_lt]
    rw [Nat.shiftLeft_eq]
    omega
  have loop : ∀ crc : Half, data.foldl (fun crc byte => crc16Bits 8 (crc ^^^ (byte.toNat <<< 8))) crc.toNat =
      (data.foldl crc16Step crc).toNat := by
    induction data with
    | nil => intro crc; rfl
    | cons byte rest ih =>
      intro crc
      rw [List.foldl_cons, List.foldl_cons, step, ih]
  exact loop 0xFFFF

/-! ### COBS -/

/-- The encoder has written `done` and keeps the open block behind the place of its code byte. -/
structure CobsEncoder.Writes (encoder : CobsEncoder) (done block : List Byte) : Prop where
  output : encoder.output = done ++ 0 :: block
  codeIndex : encoder.codeIndex = done.length
  code : encoder.code = block.length + 1

theorem CobsEncoder.Writes.set {encoder : CobsEncoder} {done block : List Byte}
    (writes : encoder.Writes done block) :
    encoder.output.set encoder.codeIndex (BitVec.ofNat 8 encoder.code) = done ++ Cobs.codeOf block :: block := by
  rw [writes.output, writes.codeIndex, writes.code, List.set_append_right _ _ (Nat.le_refl _), Nat.sub_self]
  rfl

theorem CobsEncoder.Writes.close {encoder : CobsEncoder} {done block : List Byte}
    (writes : encoder.Writes done block) :
    encoder.close.Writes (done ++ Cobs.codeOf block :: block) [] := by
  refine ⟨?_, ?_, rfl⟩
  · exact congrArg (· ++ [0]) writes.set
  · simp [CobsEncoder.close, writes.output]

theorem CobsEncoder.Writes.push {encoder : CobsEncoder} {done block : List Byte}
    (writes : encoder.Writes done block) (byte : Byte) : (encoder.push byte).Writes done (block ++ [byte]) := by
  refine ⟨?_, writes.codeIndex, ?_⟩
  · simp [CobsEncoder.push, writes.output]
  · simp [CobsEncoder.push, writes.code]

theorem CobsEncoder.Writes.encodes {encoder : CobsEncoder} {done block : List Byte} (data : List Byte)
    (writes : encoder.Writes done block) :
    let final := data.foldl CobsEncoder.step encoder
    final.output.set final.codeIndex (BitVec.ofNat 8 final.code) = done ++ Cobs.encodeFrom block data := by
  induction data generalizing encoder done block with
  | nil => exact writes.set
  | cons byte rest ih =>
    have full : (encoder.push byte).code = 0xFF ↔ block.length + 1 = Cobs.fullBlock := by
      rw [(writes.push byte).code, List.length_append, List.length_singleton, Cobs.fullBlock]
      exact Nat.succ_inj
    unfold Cobs.encodeFrom
    rw [List.foldl_cons, CobsEncoder.step]
    simp only [beq_iff_eq, full]
    split
    · rw [ih writes.close, List.append_assoc]
    · split
      · rw [ih (writes.push byte).close, List.append_assoc]
      · exact ih (writes.push byte)

theorem cobsEncode_eq (data : List Byte) : cobsEncode data = Cobs.encode data := by
  have start : CobsEncoder.Writes ⟨[0], 0, 1⟩ [] [] := ⟨rfl, rfl, rfl⟩
  exact start.encodes data

theorem cobsDecodeLoop_eq (data output : List Byte) (index : Nat) (within : index ≤ data.length) :
    cobsDecodeLoop data output index = (Cobs.decode (data.drop index)).map (output ++ ·) := by
  induction left : data.length - index using Nat.strong_induction_on generalizing output index with
  | _ n ih =>
    unfold cobsDecodeLoop
    split
    case isFalse done =>
      rw [List.drop_eq_nil_of_le (Nat.le_of_not_lt done), Cobs.decode_nil, Option.map_some, List.append_nil]
    case isTrue more =>
      rw [List.drop_eq_getElem_cons more, Cobs.decode_cons]
      have zero : data[index] = 0 ↔ data[index].toNat = 0 := BitVec.toNat_inj.symm
      have length : (data.drop (index + 1)).length = data.length - (index + 1) := List.length_drop
      -- the two decoders refuse the same code bytes, one by the index and one by what is left
      by_cases bad : data[index].toNat = 0 ∨ data.length < index + data[index].toNat
      · have bad' : data[index] = 0 ∨ (data.drop (index + 1)).length < data[index].toNat - 1 := by
          rw [zero, length]
          omega
        dsimp only
        rw [if_pos bad, if_pos bad', Option.map_none]
      · have good : ¬ (data[index] = 0 ∨ (data.drop (index + 1)).length < data[index].toNat - 1) := by
          rw [zero, length]
          omega
        have next : (data.drop (index + 1)).drop (data[index].toNat - 1) =
            data.drop (index + data[index].toNat) := by
          rw [List.drop_drop]
          congr 1
          omega
        have block : slice data (index + 1) (index + data[index].toNat) =
            (data.drop (index + 1)).take (data[index].toNat - 1) := by
          unfold slice
          congr 1
          omega
        have zeros : (data[index].toNat ≠ 0xFF ∧ index + data[index].toNat < data.length) ↔
            (data[index] ≠ 0xFF ∧ data.drop (index + data[index].toNat) ≠ []) := by
          rw [ne_eq, ne_eq, ← BitVec.toNat_inj, ne_eq, List.drop_eq_nil_iff, Nat.not_le]
          rfl
        dsimp only
        rw [if_neg bad, if_neg good, ih _ (by omega) _ _ (by omega) rfl, next, Option.map_map]
        congr 1
        funext tail
        rw [Function.comp_apply, Cobs.join]
        simp only [zeros, block]
        split
        · simp
        · simp

theorem cobsDecode_eq (data : List Byte) : cobsDecode data = Cobs.decode data := by
  rw [cobsDecode, cobsDecodeLoop_eq data [] 0 (Nat.zero_le _)]
  simp

/-! ### Frames -/

/-- What the host sends when it accepts the values, as the bootloader frames it. -/
theorem encode_eq_some {messageType sequence : Nat} {payload wire : List Byte}
    (encoded : encode messageType sequence payload = some wire) :
    messageType < 2 ^ 8 ∧ sequence < 2 ^ 16 ∧ payload.length < 2 ^ 16 ∧
    wire = Cobs.encode (decodedFrame (BitVec.ofNat 8 messageType) (BitVec.ofNat 16 sequence) payload) ++ [0] := by
  unfold encode frameHeadPack at encoded
  split at encoded
  case isTrue fits =>
    refine ⟨fits.2.1, fits.2.2.1, fits.2.2.2, ?_⟩
    have sent := Option.some.inj encoded
    rw [← sent, cobsEncode_eq, crc16Ccitt_eq, BitVec.ofNat_toNat, BitVec.setWidth_eq]
    rfl
  case isFalse => cases encoded

theorem encode_fits {messageType sequence : Nat} {payload wire : List Byte}
    (encoded : encode messageType sequence payload = some wire) (fits : wire.length ≤ maxEncodedFrameSize + 1) :
    ∃ segment, wire = segment ++ [0] ∧ (∀ b ∈ segment, b ≠ 0) ∧ frameOf (received segment) =
      some ⟨BitVec.ofNat 8 messageType, BitVec.ofNat 16 sequence, payload⟩ := by
  obtain ⟨_, _, short, rfl⟩ := encode_eq_some encoded
  refine ⟨_, rfl, Cobs.encode_nonzero _, ?_⟩
  rw [List.length_append, List.length_singleton] at fits
  rw [received_of_le (Nat.le_of_succ_le_succ fits)]
  exact frameOf_encode _ _ short

/-- Whatever the receiver holds and whatever noise comes first: once a delimiter
has ended the noise, a host frame is delivered as it was sent, as the last one. -/
theorem noise_then_frame (receiver : Receiver) (noise : List Byte) {messageType sequence : Nat}
    {payload wire : List Byte} (encoded : encode messageType sequence payload = some wire)
    (fits : wire.length ≤ maxEncodedFrameSize + 1) :
    (∃ frames, Delivers receiver (noise ++ [0] ++ wire) frames) ∧
    ∀ frames, Delivers receiver (noise ++ [0] ++ wire) frames → ∃ frame, frames.getLast? = some frame ∧
      frame.messageType.toNat = messageType ∧ frame.sequenceNumber.toNat = sequence ∧ frame.payload = payload := by
  refine ⟨exists_delivers _ _, ?_⟩
  intro frames delivers
  obtain ⟨typeFits, sequenceFits, _, _⟩ := encode_eq_some encoded
  obtain ⟨segment, rfl, nonzero, delivered⟩ := encode_fits encoded fits
  have all := delivers.eq_segments receiver.holds_buffer
  rw [List.append_assoc, List.singleton_append, segments_append, segments_whole [] segment nonzero,
    List.filterMap_append, List.nil_append] at all
  refine ⟨⟨BitVec.ofNat 8 messageType, BitVec.ofNat 16 sequence, payload⟩, ?_, ?_, ?_, rfl⟩
  · rw [all, List.filterMap_cons_some (by exact delivered), List.filterMap_nil, List.getLast?_concat]
  · exact BitVec.toNat_ofNat .. |>.trans (Nat.mod_eq_of_lt typeFits)
  · exact BitVec.toNat_ofNat .. |>.trans (Nat.mod_eq_of_lt sequenceFits)

/-- A HELLO behind 300 bytes of noise. -/
theorem noise_then_frame_hello : ∃ wire, encode 1 7 [] = some wire ∧
    ∀ frames, Delivers (.restart fun _ => 0) (List.replicate 300 0x55 ++ [0] ++ wire) frames →
      ∃ frame, frames.getLast? = some frame ∧ frame.messageType.toNat = 1 ∧ frame.sequenceNumber.toNat = 7 ∧
        frame.payload = [] :=
  ⟨_, rfl, (noise_then_frame _ _ rfl (by decide +kernel)).2⟩

/-! ### Replies -/

theorem fromBytes_concat (data : List Byte) (byte : Byte) :
    fromBytes (data ++ [byte]) = fromBytes data + 256 ^ data.length * byte.toNat := by
  induction data with
  | nil => simp [fromBytes]
  | cons first rest ih =>
    change first.toNat + 256 * fromBytes (rest ++ [byte]) = first.toNat + 256 * fromBytes rest + _
    rw [ih, List.length_cons, Nat.pow_succ', Nat.mul_add, Nat.add_assoc, Nat.mul_assoc]

theorem fromBytes_bytesOf {w : Nat} (value : BitVec w) (k : Nat) :
    fromBytes (bytesOf value k) = value.toNat % 256 ^ k := by
  induction k with
  | zero => rw [Nat.pow_zero, Nat.mod_one]; rfl
  | succ k ih =>
    have more : bytesOf value (k + 1) = bytesOf value k ++ [byteOf value k] := by
      simp [bytesOf, List.range_succ]
    have byte : (byteOf value k).toNat = value.toNat / 256 ^ k % 256 := by
      rw [byteOf, BitVec.toNat_setWidth, BitVec.toNat_ushiftRight, Nat.shiftRight_eq_div_pow, Nat.pow_mul]
    rw [more, fromBytes_concat, ih, length_bytesOf, byte, Nat.mod_pow_succ]

/-- The parts of a decoded frame, as the host slices them. -/
theorem slice_decodedFrame (messageType : Byte) (sequenceNumber : Half) (payload : List Byte) :
    let raw := decodedFrame messageType sequenceNumber payload
    slice raw 0 1 = [Bootloader.protocolVersion] ∧ slice raw 1 2 = [messageType] ∧
      slice raw 2 4 = bytesOf sequenceNumber 2 ∧
    slice raw 4 6 = bytesOf (BitVec.ofNat 16 payload.length) 2 ∧ slice raw 6 (6 + payload.length) = payload ∧
    slice raw 0 (6 + payload.length) = coveredBytes messageType sequenceNumber payload ∧
    slice raw (6 + payload.length) (8 + payload.length) =
      bytesOf (calculateCrc16 (coveredBytes messageType sequenceNumber payload)) 2 := by
  have covered : (coveredBytes messageType sequenceNumber payload).length = 6 + payload.length := by
    simp [coveredBytes]
    omega
  unfold decodedFrame
  generalize crc_ : bytesOf (calculateCrc16 (coveredBytes messageType sequenceNumber payload)) 2 = crc
  have two : crc.length = 2 := by rw [← crc_, length_bytesOf]
  have whole : coveredBytes messageType sequenceNumber payload ++ crc = Bootloader.protocolVersion :: messageType ::
      byteOf sequenceNumber 0 :: byteOf sequenceNumber 1 :: byteOf (BitVec.ofNat 16 payload.length) 0 ::
      byteOf (BitVec.ofNat 16 payload.length) 1 :: (payload ++ crc) := by
    simp [coveredBytes, bytesOf, List.range_succ]
  refine ⟨?_, ?_, ?_, ?_, ?_, ?_, ?_⟩
  · rw [whole]; rfl
  · rw [whole]; rfl
  · rw [whole]; rfl
  · rw [whole]; rfl
  · rw [whole, slice, Nat.add_sub_cancel_left]
    exact List.take_left
  · rw [slice, List.drop_zero, Nat.sub_zero, ← covered]
    exact List.take_left
  · rw [slice, ← covered, List.drop_left, covered,
      show 8 + payload.length - (6 + payload.length) = crc.length by omega]
    exact List.take_length

/-- What the bootloader sends is what the host decodes. -/
theorem decode_writeProtocolFrame (stack : Buffer) {frame : ProtocolFrame} (short : frame.payload.length < 2 ^ 16) :
    decode (writeProtocolFrame stack frame) =
      some (frame.messageType.toNat, frame.sequenceNumber.toNat, frame.payload) := by
  obtain ⟨messageType, sequenceNumber, payload⟩ := frame
  dsimp only at short ⊢
  -- rstrip takes the delimiter only, for no encoded byte is zero
  have stripped : (Cobs.encode (decodedFrame messageType sequenceNumber payload) ++ [0]).rdropWhile (· == 0) =
      Cobs.encode (decodedFrame messageType sequenceNumber payload) := by
    rw [List.rdropWhile_concat_pos _ _ _ rfl, List.rdropWhile_eq_self_iff]
    intro some_ zero
    exact Cobs.encode_nonzero _ _ (List.getLast_mem some_) (eq_of_beq zero)
  have raw : cobsDecode ((writeProtocolFrame stack ⟨messageType, sequenceNumber, payload⟩).rdropWhile (· == 0)) =
      some (decodedFrame messageType sequenceNumber payload) := by
    rw [writeProtocolFrame_eq, stripped, cobsDecode_eq, Cobs.decode_encode]
  obtain ⟨version, type, number, size, data, head, crc⟩ := slice_decodedFrame messageType sequenceNumber payload
  have length := length_decodedFrame messageType sequenceNumber payload
  unfold decode
  rw [raw]
  simp only [Option.bind_eq_bind, Option.bind_some, length, version, type, number, size, crc,
    show 8 + payload.length - 2 = 6 + payload.length by omega, data, head, fromBytes_bytesOf, crc16Ccitt_eq]
  have size' : (BitVec.ofNat 16 payload.length).toNat % 256 ^ 2 = payload.length := by
    rw [BitVec.toNat_ofNat]
    omega
  have byte : ∀ b : Byte, fromBytes [b] = b.toNat := fun b => rfl
  have number' : sequenceNumber.toNat % 256 ^ 2 = sequenceNumber.toNat := Nat.mod_eq_of_lt sequenceNumber.isLt
  have crc' : (calculateCrc16 (coveredBytes messageType sequenceNumber payload)).toNat % 256 ^ 2 =
      (calculateCrc16 (coveredBytes messageType sequenceNumber payload)).toNat := Nat.mod_eq_of_lt (BitVec.isLt _)
  rw [size', number', crc', byte, byte, if_neg (by omega), if_neg, if_neg (not_not.mpr rfl)]
  rintro (other | other)
  · exact other rfl
  · omega

end Cc1310Firmware.Host
