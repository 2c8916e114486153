import Cc1310Firmware.Host.Framing
import Cc1310Firmware.Host.Packages

/-! Frames as the host reads them: decode against the receiver's checks, and
Updater._read_frame on the bytes of the serial port.
-/

set_option autoImplicit false

namespace Cc1310Firmware.Host
open LittleEndian Bootloader

/-! ### decode -/

/-- The tuple that decode returns for a frame. -/
def tupleOf (frame : ProtocolFrame) : Nat × Nat × List Byte :=
  (frame.messageType.toNat, frame.sequenceNumber.toNat, frame.payload)

/-- One byte, as unpack_from reads it. -/
theorem fromBytes_slice_one {data : List Byte} {offset : Nat} (inside : offset + 1 ≤ data.length) :
    fromBytes (slice data offset (offset + 1)) = (data.getD offset 0).toNat := by
  rw [slice_getD 1 inside]
  rfl

/-- The host makes the same checks on a decoded frame as the bootloader. -/
theorem decode_eq (wire : List Byte) : decode wire = (frameOf (wire.rdropWhile (· == 0))).map tupleOf := by
  unfold decode frameOf
  rw [cobsDecode_eq]
  cases Cobs.decode (wire.rdropWhile (· == 0)) with
  | none => rfl
  | some raw =>
    simp only [Option.bind_eq_bind, Option.bind_some]
    split
    case isTrue short => rw [parseFrame_short short, Option.map_none]
    case isFalse long =>
      have long' : 8 ≤ raw.length := Nat.le_of_not_lt long
      have end_ : raw.length - 2 + 2 = raw.length := by omega
      have crc := @toNat_loadUint16Le raw (raw.length - 2) (by omega)
      have next : raw.length - 2 + 1 = raw.length - 1 := by omega
      rw [end_, next] at crc
      rw [@fromBytes_slice_one raw 0 (by omega), @fromBytes_slice_one raw 1 (by omega),
        ← @toNat_loadUint16Le raw 2 (by omega), ← @toNat_loadUint16Le raw 4 (by omega), ← crc,
        crc16Ccitt_eq, show slice raw 0 (raw.length - 2) = raw.take (raw.length - 2) from rfl]
      have head : ((raw.getD 0 0).toNat ≠ protocolVersion ∨
          raw.length ≠ 6 + (word16 (raw.getD 4 0) (raw.getD 5 0)).toNat + 2) ↔
          ¬ (raw.length = 8 + (word16 (raw.getD 4 0) (raw.getD 5 0)).toNat ∧
            raw.getD 0 0 = Bootloader.protocolVersion) := by
        have version : (raw.getD 0 0).toNat = protocolVersion ↔ raw.getD 0 0 = Bootloader.protocolVersion := by
          rw [← BitVec.toNat_inj]
          rfl
        rw [ne_eq, version, ← not_and_or, and_comm, show 6 + (word16 (raw.getD 4 0) (raw.getD 5 0)).toNat + 2 =
          8 + (word16 (raw.getD 4 0) (raw.getD 5 0)).toNat by omega]
      have check : (calculateCrc16 (raw.take (raw.length - 2))).toNat ≠
          (word16 (raw.getD (raw.length - 2) 0) (raw.getD (raw.length - 1) 0)).toNat ↔
          ¬ word16 (raw.getD (raw.length - 2) 0) (raw.getD (raw.length - 1) 0) =
            calculateCrc16 (raw.take (raw.length - 2)) := by
        rw [ne_eq, BitVec.toNat_inj, eq_comm]
      unfold parseFrame
      simp only [head, check]
      by_cases valid : raw.length = 8 + (word16 (raw.getD 4 0) (raw.getD 5 0)).toNat ∧
        raw.getD 0 0 = Bootloader.protocolVersion
      · by_cases crc' : word16 (raw.getD (raw.length - 2) 0) (raw.getD (raw.length - 1) 0) =
            calculateCrc16 (raw.take (raw.length - 2))
        · have payload : slice raw 6 (raw.length - 2) =
              (raw.drop 6).take (word16 (raw.getD 4 0) (raw.getD 5 0)).toNat := by
            rw [slice]
            congr 1
            omega
          rw [if_neg (not_not.mpr valid), if_neg (not_not.mpr crc'), if_pos ⟨valid.1, valid.2, crc'⟩, payload]
          rfl
        · rw [if_neg (not_not.mpr valid), if_pos crc', if_neg fun all => crc' all.2.2]
          rfl
      · rw [if_pos valid, if_neg fun all => valid ⟨all.1, all.2.1⟩]
        rfl

/-- The only bytes with a frame in them are those that writeProtocolFrame puts together. -/
theorem parseFrame_eq_some {data : List Byte} {frame : ProtocolFrame} (parsed : parseFrame data = some frame) :
    data = decodedFrame frame.messageType frame.sequenceNumber frame.payload ∧ frame.payload.length < 2 ^ 16 := by
  unfold parseFrame at parsed
  dsimp only at parsed
  split at parsed
  case isFalse => cases parsed
  case isTrue valid =>
    cases parsed
    obtain ⟨length, version, crc⟩ := valid
    dsimp only
    generalize size : (word16 (data.getD 4 0) (data.getD 5 0)).toNat = n at *
    have bound := (word16 (data.getD 4 0) (data.getD 5 0)).isLt
    have payload : (data.drop 6).take n = slice data 6 (6 + n) := by rw [slice, Nat.add_sub_cancel_left]
    have payloadLength : (slice data 6 (6 + n)).length = n := by
      simp only [slice, List.length_take, List.length_drop]
      omega
    have head : [Bootloader.protocolVersion, data.getD 1 0] = slice data 0 2 := by
      rw [← version, @slice_getD data 0 2 (by omega)]
      rfl
    have number : bytesOf (word16 (data.getD 2 0) (data.getD 3 0)) 2 =
      slice data 2 4 := bytesOf_loadUint16Le (by omega)
    have field : bytesOf (BitVec.ofNat 16 n) 2 = slice data 4 6 := by
      rw [← size, BitVec.ofNat_toNat, BitVec.setWidth_eq]
      exact bytesOf_loadUint16Le (by omega)
    have covered : coveredBytes (data.getD 1 0) (word16 (data.getD 2 0) (data.getD 3 0)) (slice data 6 (6 + n)) =
        slice data 0 (6 + n) := by
      rw [coveredBytes, payloadLength, head, number, field, slice_slice _ (by omega) (by omega),
        slice_slice _ (by omega) (by omega), slice_slice _ (by omega) (by omega)]
    have check : bytesOf (calculateCrc16 (slice data 0 (6 + n))) 2 = slice data (6 + n) (8 + n) := by
      have whole := @bytesOf_loadUint16Le data (6 + n) (by omega)
      rw [show data.length - 2 = 6 + n by omega, show data.length - 1 = 6 + n + 1 by omega] at crc
      rw [crc] at whole
      rw [slice, List.drop_zero, Nat.sub_zero, whole]
      congr 1
      omega
    rw [payload, decodedFrame, covered, check, slice_slice _ (by omega) (by omega), payloadLength]
    refine ⟨?_, by omega⟩
    rw [slice, List.drop_zero, Nat.sub_zero, ← length, List.take_length]

/-! ### The serial port -/

/-- The loop of Updater._read_frame on what `ser.read(1)` returns until the deadline,
`none` for an empty read: the tuple and what is left to read. A TimeoutError is `none`. -/
def Serial.readFrameLoop (data : List Byte) : List (Option Byte) →
    Option ((Nat × Nat × List Byte) × List (Option Byte))
  | [] => none
  | none :: reads => Serial.readFrameLoop data reads
  | some byte :: reads =>
    if byte == 0 then
      match decode (data ++ [byte]) with
      | some tuple => some (tuple, reads)
      | none => Serial.readFrameLoop [] reads
    else Serial.readFrameLoop (data ++ [byte]) reads

/-- Updater._read_frame -/
def Serial.readFrame (reads : List (Option Byte)) : Option ((Nat × Nat × List Byte) × List (Option Byte)) :=
  Serial.readFrameLoop [] reads

/-- The bytes that come in. -/
def arrivals (reads : List (Option Byte)) : List Byte := reads.filterMap id

theorem arrivals_none (reads : List (Option Byte)) : arrivals (none :: reads) = arrivals reads := rfl

theorem arrivals_some (byte : Byte) (reads : List (Option Byte)) :
    arrivals (some byte :: reads) = byte :: arrivals reads := rfl

/-- The loop runs to the next delimiter, whatever empty reads are in between. -/
theorem Serial.readFrameLoop_segment {data segment rest : List Byte} {reads : List (Option Byte)}
    (nonzero : ∀ b ∈ segment, b ≠ 0) (arrive : arrivals reads = segment ++ 0 :: rest) :
    ∃ later, arrivals later = rest ∧
    Serial.readFrameLoop data reads =
      match decode (data ++ segment ++ [0]) with
      | some tuple => some (tuple, later)
      | none => Serial.readFrameLoop [] later := by
  induction reads generalizing data segment with
  | nil => simp [arrivals] at arrive
  | cons read reads ih =>
    cases read with
    | none =>
      rw [arrivals_none] at arrive
      exact ih nonzero arrive
    | some byte =>
      rw [arrivals_some] at arrive
      cases segment with
      | nil =>
        obtain ⟨rfl, later⟩ := List.cons.inj arrive
        refine ⟨reads, later, ?_⟩
        rw [readFrameLoop, if_pos (beq_self_eq_true _), List.append_nil]
      | cons first segment =>
        obtain ⟨rfl, later⟩ := List.cons.inj arrive
        obtain ⟨here, others⟩ := List.forall_mem_cons.mp nonzero
        obtain ⟨reads', arrive', loop⟩ := @ih (data ++ [byte]) segment others later
        refine ⟨reads', arrive', ?_⟩
        rw [readFrameLoop, if_neg (by simpa using here), loop, List.append_assoc data]
        rfl

/-- Segments that decode to nothing are dropped, each as a whole. -/
theorem Serial.readFrame_discards {segments : List (List Byte)} {rest : List Byte} {reads : List (Option Byte)}
    (noise : ∀ segment ∈ segments, (∀ b ∈ segment, b ≠ 0) ∧ decode (segment ++ [0]) = none)
    (arrive : arrivals reads = segments.flatMap (· ++ [0]) ++ rest) :
    ∃ later, arrivals later = rest ∧ Serial.readFrame reads = Serial.readFrame later := by
  induction segments generalizing reads with
  | nil => exact ⟨reads, arrive, rfl⟩
  | cons segment segments ih =>
    obtain ⟨⟨nonzero, undecodable⟩, others⟩ := List.forall_mem_cons.mp noise
    rw [List.flatMap_cons, List.append_assoc, List.append_assoc] at arrive
    obtain ⟨reads', arrive', loop⟩ := @Serial.readFrameLoop_segment [] segment _ reads nonzero arrive
    rw [List.nil_append, undecodable] at loop
    obtain ⟨later, left, read⟩ := ih others arrive'
    exact ⟨later, left, loop.trans read⟩

/-- A reply has one wire form, which ends in its only zero byte, and the host reads it
back behind any undecodable segments. -/
theorem reply_survives (stack : Buffer) (messageType : Byte) (sequenceNumber : Half) (payload : List Byte)
    (fits : payload.length ≤ maxProtocolPayload) :
    ∃ body, writeProtocolFrame stack ⟨messageType, sequenceNumber, payload⟩ = body ++ [0] ∧ (∀ b ∈ body, b ≠ 0) ∧
      encode messageType.toNat sequenceNumber.toNat payload = some (body ++ [0]) ∧
      ∀ (segments : List (List Byte)) (rest : List Byte) (reads : List (Option Byte)),
        (∀ segment ∈ segments, (∀ b ∈ segment, b ≠ 0) ∧ decode (segment ++ [0]) = none) →
        arrivals reads = segments.flatMap (· ++ [0]) ++ (body ++ [0]) ++ rest →
        ∃ later, Serial.readFrame reads = some ((messageType.toNat, sequenceNumber.toNat, payload), later) ∧
          arrivals later = rest := by
  have short : payload.length < 2 ^ 16 := Nat.lt_of_le_of_lt fits (by decide)
  have nonzero := Cobs.encode_nonzero (decodedFrame messageType sequenceNumber payload)
  have sent := writeProtocolFrame_eq stack ⟨messageType, sequenceNumber, payload⟩
  have decoded := @decode_writeProtocolFrame stack ⟨messageType, sequenceNumber, payload⟩ short
  rw [sent] at decoded
  refine ⟨_, sent, nonzero, encode_eq messageType sequenceNumber short, ?_⟩
  intro segments rest reads noise arrive
  rw [List.append_assoc] at arrive
  obtain ⟨reads', arrive', discarded⟩ := Serial.readFrame_discards noise arrive
  rw [List.append_assoc] at arrive'
  obtain ⟨later, left, read⟩ := @Serial.readFrameLoop_segment [] _ _ reads' nonzero arrive'
  rw [List.nil_append, decoded] at read
  exact ⟨later, discarded.trans read, left⟩

/-- The reply to a HELLO behind a broken segment, with an empty read in between. -/
theorem reply_survives_info : ∃ body, encode 2 7 [1] = some (body ++ [0]) ∧
    ∃ later, Serial.readFrame (some 9 :: some 0 :: none :: (body ++ [0]).map some) = some ((2, 7, [1]), later) := by
  obtain ⟨body, _, _, encoded, reads⟩ := reply_survives (fun _ => 0) 2 7 [1] (by decide)
  have undecodable : decode ([9] ++ [0]) = none := by
    rw [decode_eq]
    decide +kernel
  have read := reads [[9]] [] (some 9 :: some 0 :: none :: (body ++ [0]).map some)
    (by simpa using undecodable) (by simp [arrivals])
  obtain ⟨later, read, _⟩ := read
  exact ⟨body, encoded, later, read⟩

end Cc1310Firmware.Host
