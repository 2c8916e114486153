import Cc1310Firmware.Bootloader.FrameArrays
import Cc1310Firmware.Host.HostFrames

/-! The COBS code of both ends, and the payloads that fit the receiver's buffer. -/

set_option autoImplicit false

namespace Cc1310Firmware.Host
open LittleEndian Bootloader

/-- Both encoders write the same bytes, none of them zero, and both decoders turn
them back, as long as the encoding is short enough for the uint16_t indices. -/
theorem cobs_round_trip (data : List Byte) (destination : Buffer) (short : (cobsEncode data).length < 2 ^ 16) :
    let sent := Uint16.cobsEncode data destination
    sent.1.slice 0 sent.2.toNat = cobsEncode data ∧ (∀ b ∈ cobsEncode data, b ≠ 0) ∧
    (cobsEncode data).length ≤ data.length + data.length / 254 + 1 ∧
    cobsDecode (cobsEncode data) = some data ∧
    ∀ buffer : Buffer, buffer.slice 0 (cobsEncode data).length = cobsEncode data →
      let decoded := Uint16.cobsDecode buffer (BitVec.ofNat 16 (cobsEncode data).length)
      decoded.2 = some (BitVec.ofNat 16 data.length) ∧ decoded.1.slice 0 data.length = data := by
  rw [cobsEncode_eq] at *
  refine ⟨(Uint16.cobsEncode_eq destination short).2, Cobs.encode_nonzero data, Cobs.length_encode_le data, ?_, ?_⟩
  · rw [cobsDecode_eq, Cobs.decode_encode]
  · intro buffer holds
    exact Uint16.cobsDecode_eq short holds (Cobs.decode_encode data)

/-- A zero between two bytes. -/
theorem cobs_round_trip_zero :
    ((Uint16.cobsEncode [0x11, 0, 0x22] fun _ => 0).1.slice 0 4 = [2, 0x11, 2, 0x22]) ∧
    cobsDecode [2, 0x11, 2, 0x22] = some [0x11, 0, 0x22] :=
  have round := cobs_round_trip [0x11, 0, 0x22] (fun _ => 0) (by decide)
  ⟨round.1, round.2.2.2.1⟩

/-- The two decoders accept the same bytes and decode them to the same output, and the one
of the bootloader overwrites only bytes that it has read. -/
theorem cobs_decoders_agree {ι : Type} [DecidableEq ι] (buffer : ι) (memory : ArrayCode.Memory ι Byte)
    (encodedLength : Half) :
    let ran := Arrays.cobsDecode buffer encodedLength memory
    ArrayCode.InPlace buffer encodedLength.toNat ran.log ∧ ∃ decodedLength, ran.value = some decodedLength ∧
      cobsDecode (Buffer.slice (memory buffer) 0 encodedLength.toNat) =
        decodedLength.map fun length => Buffer.slice (ran.memory buffer) 0 length.toNat := by
  intro ran
  obtain ⟨r', w', bounded, works⟩ := Arrays.cobsDecode_works buffer encodedLength memory
  refine ⟨works.streams.inPlace bounded, _, works.value, ?_⟩
  obtain ⟨_, lengths, contents⟩ := cobsDecode_spec (memory buffer) encodedLength.toNat
  rw [Uint16.cobsDecode_cut, Nat.sub_zero] at lengths contents
  dsimp only at lengths contents
  rw [cobsDecode_eq, show ran.memory buffer = _ from works.contents]
  cases decodes : Cobs.decode (Buffer.slice (memory buffer) 0 encodedLength.toNat) with
  | none =>
    rw [decodes, Option.map_none, Option.map_eq_none_iff] at lengths
    rw [lengths, Option.map_none]
  | some data =>
    rw [decodes, Option.map_some] at lengths
    obtain ⟨length, returned, same⟩ := Option.map_eq_some_iff.mp lengths
    rw [returned, Option.map_some, same, Nat.zero_add, contents data decodes]

/-! ### The receiver's buffer -/

def maxProtocolPayload : Nat := 152

/-- The host's frame for values that the fields of the head can hold. -/
theorem encode_eq (messageType : Byte) (sequenceNumber : Half) {payload : List Byte}
    (short : payload.length < 2 ^ 16) :
    encode messageType.toNat sequenceNumber.toNat payload =
      some (Cobs.encode (decodedFrame messageType sequenceNumber payload) ++ [0]) := by
  have head : protocolVersion < 2 ^ 8 ∧ messageType.toNat < 2 ^ 8 ∧ sequenceNumber.toNat < 2 ^ 16 ∧
      payload.length < 2 ^ 16 := ⟨by decide, messageType.isLt, sequenceNumber.isLt, short⟩
  have accepted : (encode messageType.toNat sequenceNumber.toNat payload).isSome := by
    unfold encode frameHeadPack
    rw [if_pos head]
    rfl
  obtain ⟨wire, encoded⟩ := Option.isSome_iff_exists.mp accepted
  obtain ⟨_, _, _, sent⟩ := encode_eq_some encoded
  rw [BitVec.ofNat_toNat, BitVec.setWidth_eq, BitVec.ofNat_toNat, BitVec.setWidth_eq] at sent
  rw [encoded, sent]

/-- Eight bytes of framing and one of COBS. -/
theorem length_encoded (messageType : Byte) (sequenceNumber : Half) {payload : List Byte}
    (allowed : payload.length ≤ maxProtocolPayload) :
    (Cobs.encode (decodedFrame messageType sequenceNumber payload)).length = payload.length + 9 := by
  unfold maxProtocolPayload at allowed
  have short : (decodedFrame messageType sequenceNumber payload).length < Cobs.fullBlock := by
    rw [length_decodedFrame, Cobs.fullBlock]
    omega
  rw [Cobs.length_encode_short short, length_decodedFrame]
  omega

/-- The 160 bytes of the buffer hold the encoding of a payload of at most 151 bytes. -/
theorem readProtocolFrame_encoded (stack : Buffer) (messageType : Byte) (sequenceNumber : Half)
    {payload : List Byte} (allowed : payload.length ≤ maxProtocolPayload) :
    readProtocolFrame stack (Cobs.encode (decodedFrame messageType sequenceNumber payload) ++ [0]) =
      if payload.length ≤ 151 then some (⟨messageType, sequenceNumber, payload⟩, []) else none := by
  have length := length_encoded messageType sequenceNumber allowed
  have read := (Receiver.holds_restart stack).read_segment _
    (Cobs.encode_nonzero (decodedFrame messageType sequenceNumber payload))
  rw [List.nil_append] at read
  rw [readProtocolFrame, read]
  split
  case isTrue fits =>
    have whole : (Cobs.encode (decodedFrame messageType sequenceNumber payload)).length ≤ maxEncodedFrameSize := by
      rw [length, maxEncodedFrameSize]
      omega
    have short : payload.length < 2 ^ 16 := by omega
    rw [received_of_le whole, frameOf_encode messageType sequenceNumber short, Option.map_some]
  case isFalse long =>
    -- the 161st byte is dropped and the buffer is empty at the delimiter
    have overflow : received (Cobs.encode (decodedFrame messageType sequenceNumber payload)) = [] := by
      apply List.eq_nil_of_length_eq_zero
      rw [length_received, length]
      simp only [maxEncodedFrameSize, maxProtocolPayload] at *
      omega
    rw [overflow, frameOf_nil, Option.map_none]

/-- An allowed payload is delivered exactly when it is at most 151 bytes long. -/
theorem encode_delivered_iff (stack : Buffer) (messageType : Byte) (sequenceNumber : Half) (payload : List Byte)
    (allowed : payload.length ≤ maxProtocolPayload) :
    (∃ wire, encode messageType.toNat sequenceNumber.toNat payload = some wire ∧
      readProtocolFrame stack wire = some (⟨messageType, sequenceNumber, payload⟩, [])) ↔ payload.length ≤ 151 := by
  rw [encode_eq messageType sequenceNumber (Nat.lt_of_le_of_lt allowed (by decide))]
  constructor
  · rintro ⟨wire, encoded, delivered⟩
    cases encoded
    rw [readProtocolFrame_encoded stack messageType sequenceNumber allowed] at delivered
    by_contra long
    rw [if_neg long] at delivered
    cases delivered
  · intro fits
    refine ⟨_, rfl, ?_⟩
    rw [readProtocolFrame_encoded stack messageType sequenceNumber allowed, if_pos fits]

theorem encode_delivered_iff_full :
    (∃ wire, encode 5 1 (List.replicate 151 0x55) = some wire ∧
      readProtocolFrame (fun _ => 0) wire = some (⟨5, 1, List.replicate 151 0x55⟩, [])) ↔
    (List.replicate 151 (0x55 : Byte)).length ≤ 151 :=
  encode_delivered_iff (fun _ => 0) 5 1 (List.replicate 151 0x55) (by rw [List.length_replicate]; decide)

/-- The longest payload that the protocol allows is encoded and never delivered. -/
theorem longest_payload_dropped : (List.replicate 152 (0x55 : Byte)).length ≤ maxProtocolPayload ∧
    ∃ wire, encode 5 1 (List.replicate 152 0x55) = some wire ∧ readProtocolFrame (fun _ => 0) wire = none := by
  have allowed : (List.replicate 152 (0x55 : Byte)).length ≤ maxProtocolPayload := by
    rw [List.length_replicate, maxProtocolPayload]
  have encoded := encode_eq 5 1 (Nat.lt_of_le_of_lt allowed (by decide))
  have dropped := readProtocolFrame_encoded (fun _ => 0) 5 1 allowed
  rw [List.length_replicate, if_neg (by decide)] at dropped
  exact ⟨allowed, _, encoded, dropped⟩

end Cc1310Firmware.Host
