import Cc1310Firmware.Bootloader.FrameArrays

/-! readProtocolFrame with every access to its arrays. -/

set_option autoImplicit false

namespace Cc1310Firmware.Bootloader.Arrays
open LittleEndian ArrayCode

/-- The local array and the caller's one. -/
inductive FrameArray where
  | encodedFrame
  | payload
  deriving DecidableEq, Repr

def maxProtocolPayload : Nat := 152

def FrameArray.size : FrameArray → Nat
  | .encodedFrame => maxEncodedFrameSize
  | .payload => maxProtocolPayload

/-- What the pointer parameters of readProtocolFrame hold at its return, and the length
that cobsDecode gave. -/
structure Delivered where
  messageType : Byte
  sequenceNumber : Half
  payloadLength : Half
  decodedLength : Half
  deriving DecidableEq, Repr

/-- The loop of calculateCrc16 over `&array[index]`. -/
def calculateCrc16Loop (array : FrameArray) : Nat → Nat → Half → Code FrameArray Byte Half
  | 0, _, crc => pure crc
  | length + 1, index, crc => do
    calculateCrc16Loop array length (index + 1) (crc16Step crc (← load array index))

/-- `encodedFrame[low] | (uint16_t)encodedFrame[high] << 8` -/
def loadUint16Le (low high : Nat) : Code FrameArray Byte Half := do
  return word16 (← load .encodedFrame low) (← load .encodedFrame high)

/-- The part of readProtocolFrame behind cobsDecode. -/
def deliver (decodedLength : Half) : Code FrameArray Byte (Option Delivered) := do
  -- the sum is cut to uint16_t
  let expectedLength := (8 : Half) + (← load .encodedFrame 4).setWidth 16 + (← load .encodedFrame 5).setWidth 16 <<< 8
  let receivedCrc ← loadUint16Le (decodedLength.toNat - 2) (decodedLength.toNat - 1)
  if decodedLength ≠ expectedLength then return none
  else if (← load .encodedFrame 0) ≠ protocolVersion then return none
  else if receivedCrc ≠ (← calculateCrc16Loop .encodedFrame (decodedLength.toNat - 2) 0 0xFFFF) then return none
  else
    let messageType ← load .encodedFrame 1
    let sequenceNumber ← loadUint16Le 2 3
    let payloadLength ← loadUint16Le 4 5
    copy .encodedFrame 6 .payload 0 payloadLength.toNat
    return some ⟨messageType, sequenceNumber, payloadLength, decodedLength⟩

/-- A delimiter: the frame it completes. -/
def complete (encodedLength : Half) : Code FrameArray Byte (Option Delivered) :=
  if encodedLength = 0 then return none
  else do
    match ← cobsDecode .encodedFrame encodedLength with
    | some (some decodedLength) => if decodedLength.toNat < 8 then return none else deliver decodedLength
    | _ => return none

/-- The loop of readProtocolFrame on the bytes that arrive: the frame and the bytes it
leaves, `none` while the call waits. -/
def readLoop : Half → List Byte → Code FrameArray Byte (Option (Delivered × List Byte))
  | _, [] => pure none
  | encodedLength, receivedByte :: rest =>
    if receivedByte ≠ 0 then
      if encodedLength.toNat < maxEncodedFrameSize then do
        store .encodedFrame encodedLength.toNat receivedByte
        readLoop (encodedLength + 1) rest
      else readLoop 0 rest
    else do
      match ← complete encodedLength with
      | some delivered => return some (delivered, rest)
      | none => readLoop 0 rest

/-- readProtocolFrame -/
def readProtocolFrame (stream : List Byte) : Code FrameArray Byte (Option (Delivered × List Byte)) :=
  readLoop 0 stream

/-! ### One frame -/

/-- The sum in the source, and the field as it is loaded elsewhere. -/
theorem word16_add (low high : Byte) : (8 : Half) + low.setWidth 16 + high.setWidth 16 <<< 8 =
    8 + word16 low high := by
  rw [BitVec.add_assoc]
  congr 1
  rw [word16]
  apply BitVec.add_eq_or_of_and_eq_zero
  apply BitVec.eq_of_getLsbD_eq
  intro i _
  simp only [BitVec.getLsbD_and, BitVec.getLsbD_setWidth, BitVec.getLsbD_shiftLeft, BitVec.getLsbD_zero]
  grind

/-- The frame in the caller's variables. -/
def Delivered.frame (delivered : Delivered) (payload : Buffer) : ProtocolFrame where
  messageType := delivered.messageType
  sequenceNumber := delivered.sequenceNumber
  payload := payload.slice 0 delivered.payloadLength.toNat

/-- The lengths of a delivered frame. -/
structure Delivered.Fits (delivered : Delivered) : Prop where
  payload : delivered.payloadLength.toNat ≤ maxProtocolPayload
  decoded : delivered.payloadLength.toNat + 8 = delivered.decodedLength.toNat

variable {memory : Memory FrameArray Byte}

theorem ensures_loadUint16Le_bind {α : Type} {low high : Nat} {next : Half → Code FrameArray Byte α}
    {post : α → Memory FrameArray Byte → Prop} (inside : low < maxEncodedFrameSize)
    (inside' : high < maxEncodedFrameSize)
    (rest : Ensures FrameArray.size (next
      (word16 (memory .encodedFrame low) (memory .encodedFrame high))) memory post) :
    Ensures FrameArray.size (loadUint16Le low high >>= next) memory post := by
  have field : Ensures FrameArray.size (loadUint16Le low high) memory fun value memory' =>
      value = word16 (memory .encodedFrame low) (memory .encodedFrame high) ∧ memory = memory' := by
    refine ensures_load_bind inside (ensures_load_bind inside' ?_)
    exact ensures_pure ⟨rfl, rfl⟩
  refine field.bind ?_
  rintro _ _ ⟨rfl, rfl⟩
  exact rest

theorem ensures_calculateCrc16Loop {length index : Nat} (crc : Half)
    (inside : index + length ≤ maxEncodedFrameSize) :
    Ensures FrameArray.size (calculateCrc16Loop .encodedFrame length index crc) memory fun crc' memory' =>
      crc' = (Buffer.slice (memory .encodedFrame) index length).foldl crc16Step crc ∧ memory = memory' := by
  induction length generalizing index crc with
  | zero => exact ensures_pure ⟨rfl, rfl⟩
  | succ length ih =>
    unfold calculateCrc16Loop
    rw [Buffer.slice_succ, List.foldl_cons]
    exact ensures_load_bind (show index < 160 by simp only [maxEncodedFrameSize] at inside; omega) (ih _ (by omega))

theorem deliver_ensures {decodedLength : Half} (long : 8 ≤ decodedLength.toNat)
    (fits : decodedLength.toNat ≤ maxEncodedFrameSize) :
    Ensures FrameArray.size (deliver decodedLength) memory fun delivered memory' =>
      memory' .encodedFrame = memory .encodedFrame ∧ (∀ d, delivered = some d → d.Fits) ∧
      delivered.map (·.frame (memory' .payload)) = checkedFrame (memory .encodedFrame) decodedLength.toNat := by
  have same : BitVec.ofNat 16 decodedLength.toNat = decodedLength := by rw [BitVec.ofNat_toNat, BitVec.setWidth_eq]
  have inside : ∀ index, index < decodedLength.toNat → index < FrameArray.size .encodedFrame :=
    fun index below => Nat.lt_of_lt_of_le below fits
  have crc := @ensures_calculateCrc16Loop memory (decodedLength.toNat - 2) 0 0xFFFF (by omega)
  unfold deliver checkedFrame
  simp only [same, Bool.and_eq_true, beq_iff_eq, word16_add]
  refine ensures_load_bind (inside 4 (by omega)) (ensures_load_bind (inside 5 (by omega)) ?_)
  refine ensures_loadUint16Le_bind (inside _ (by omega)) (inside _ (by omega)) ?_
  split
  case isTrue other => exact ensures_pure ⟨rfl, by simp, (if_neg fun valid => other valid.1.1).symm⟩
  case isFalse expected =>
    refine ensures_load_bind (inside 0 (by omega)) ?_
    split
    case isTrue other => exact ensures_pure ⟨rfl, by simp, (if_neg fun valid => other valid.1.2).symm⟩
    case isFalse version =>
      refine crc.bind ?_
      rintro crc' _ ⟨rfl, rfl⟩
      split
      case isTrue other => exact ensures_pure ⟨rfl, by simp, (if_neg fun valid => other valid.2).symm⟩
      case isFalse check =>
        -- the uint16_t sum did not wrap: the payload is eight bytes shorter than the frame
        have length : decodedLength.toNat = 8 + (word16 (memory .encodedFrame 4) (memory .encodedFrame 5)).toNat := by
          refine (expectedLength_iff _ long (Nat.lt_of_le_of_lt fits (by decide))).mp ?_
          rw [same]
          exact not_not.mp expected
        have encoded : FrameArray.size .encodedFrame = 160 := rfl
        have payload : FrameArray.size .payload = 152 := rfl
        simp only [maxEncodedFrameSize] at fits
        refine ensures_load_bind (inside 1 (by omega)) ?_
        refine ensures_loadUint16Le_bind (inside 2 (by omega)) (inside 3 (by omega)) ?_
        refine ensures_loadUint16Le_bind (inside 4 (by omega)) (inside 5 (by omega)) ?_
        refine ((ensures_copy memory (by decide) (by rw [encoded]; omega) (by rw [payload]; omega)).bind ?_)
        intro _ memory' copied
        refine ensures_pure ⟨copied.others _ (by decide), ?_, ?_⟩
        · rintro _ ⟨⟩
          exact ⟨by dsimp only [maxProtocolPayload]; omega, by dsimp only; omega⟩
        · rw [if_pos ⟨⟨not_not.mp expected, not_not.mp version⟩, not_not.mp check⟩, Option.map_some]
          have data : Buffer.slice (memory' .payload) 0
            (word16 (memory .encodedFrame 4) (memory .encodedFrame 5)).toNat =
              Buffer.slice (memory .encodedFrame) 6 (word16 (memory .encodedFrame 4) (memory .encodedFrame 5)).toNat :=
            Buffer.slice_congr copied.window
          rw [← data]
          rfl

/-- A delimiter does what it does to the receiver without a log. -/
theorem complete_ensures {encodedLength : Half} (receiver : Receiver)
    (same : receiver.encodedFrame = memory .encodedFrame) (length : receiver.encodedLength = encodedLength.toNat) :
    Ensures FrameArray.size (complete encodedLength) memory fun delivered memory' =>
      receiver.complete.1.encodedFrame = memory' .encodedFrame ∧ receiver.complete.1.encodedLength = 0 ∧
      (∀ d, delivered = some d → d.Fits) ∧ delivered.map (·.frame (memory' .payload)) = receiver.complete.2 := by
  have room := receiver.room
  rw [length] at room
  have zero : encodedLength = 0 ↔ receiver.encodedLength = 0 := by rw [length, ← BitVec.toNat_inj]; rfl
  obtain ⟨_, lengths, _⟩ := cobsDecode_spec receiver.encodedFrame receiver.encodedLength
  unfold complete Receiver.complete
  simp only [zero]
  split
  case isTrue empty => exact ensures_pure ⟨same, empty, by simp, rfl⟩
  case isFalse =>
    rw [length, same, Uint16.cobsDecode_cut] at *
    refine (cobsDecode_ensures memory room).bind ?_
    rintro _ memory' ⟨rfl, decoded⟩
    cases result : (Uint16.cobsDecode (memory .encodedFrame) encodedLength).2 with
    | none => exact ensures_pure ⟨decoded.symm, rfl, by simp, rfl⟩
    | some decodedLength =>
      rw [result] at lengths
      obtain ⟨data, decodes, whole⟩ := Option.map_eq_some_iff.mp lengths.symm
      -- the decoded bytes are no more than the encoded ones
      have shorter := Cobs.length_decode_le _ data decodes
      rw [Buffer.length_slice] at shorter
      by_cases short : decodedLength.toNat < 8
      · simp only [Option.map_some, if_pos short]
        exact ensures_pure ⟨decoded.symm, rfl, by simp, rfl⟩
      · simp only [Option.map_some, if_neg short, ← decoded]
        refine (deliver_ensures (Nat.le_of_not_lt short) (by omega)).mono ?_
        rintro delivered memory'' ⟨kept, fits, frame⟩
        exact ⟨kept.symm, rfl, fits, frame⟩

/-- Every byte stream: the accesses are inside their arrays, and the frame that is delivered
is the one of the receiver without a log. -/
theorem readLoop_ensures {encodedLength : Half} (receiver : Receiver) (stream : List Byte)
    (same : receiver.encodedFrame = memory .encodedFrame) (length : receiver.encodedLength = encodedLength.toNat) :
    Ensures FrameArray.size (readLoop encodedLength stream) memory fun delivered memory' =>
      (∀ d rest, delivered = some (d, rest) → d.Fits) ∧
      delivered.map (fun d => (d.1.frame (memory' .payload), d.2)) = receiver.read stream := by
  induction stream generalizing encodedLength receiver memory with
  | nil => exact ensures_pure ⟨by simp, rfl⟩
  | cons byte stream ih =>
    unfold readLoop Receiver.read Receiver.receive
    split
    case isTrue nonzero =>
      simp only [← length]
      split
      case isTrue room =>
        have next : (encodedLength + 1).toNat = encodedLength.toNat + 1 := by
          refine Uint16.toNat_advance (n := 1) ?_
          rw [length, maxEncodedFrameSize] at room
          omega
        refine ensures_store_bind room (ih ⟨receiver.encodedFrame.store receiver.encodedLength byte, _, room⟩ ?_ ?_)
        · rw [Memory.store_same, same]
          rfl
        · exact (congrArg Nat.succ length).trans next.symm
      case isFalse full => exact ih (.restart receiver.encodedFrame) same rfl
    case isFalse zero =>
      refine (complete_ensures receiver same length).bind ?_
      rintro delivered memory' ⟨same', empty, fits, frame⟩
      rw [← Prod.mk.eta (p := receiver.complete), ← frame]
      cases delivered with
      | none => exact ih receiver.complete.1 same' empty
      | some d =>
        refine ensures_pure ⟨?_, rfl⟩
        rintro _ _ ⟨⟩
        exact fits d rfl

/-- For every byte stream each access of readProtocolFrame and cobsDecode is inside its
array, the lengths of a delivered frame agree, and the frame is the one that the receiver
without a log reads. -/
theorem receive_path_safe (memory : Memory FrameArray Byte) (stream : List Byte) :
    let ran := readProtocolFrame stream memory
    (∀ access ∈ ran.log, access.index < access.array.size) ∧
    (∀ delivered rest, ran.value = some (delivered, rest) → delivered.payloadLength.toNat ≤ maxProtocolPayload ∧
      delivered.payloadLength.toNat + 8 = delivered.decodedLength.toNat) ∧
    ran.value.map (fun d => (d.1.frame (ran.memory .payload), d.2)) =
      Bootloader.readProtocolFrame (memory .encodedFrame) stream := by
  obtain ⟨safe, fits, frames⟩ := @readLoop_ensures memory 0 (.restart (memory .encodedFrame)) stream rfl rfl
  refine ⟨safe, fun delivered rest returned => ?_, frames⟩
  obtain ⟨payload, decoded⟩ := fits delivered rest returned
  exact ⟨payload, decoded⟩

end Cc1310Firmware.Bootloader.Arrays
