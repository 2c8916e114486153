import Cc1310Firmware.Bootloader.Upload
import Cc1310Firmware.Host.FwUpdate
import Cc1310Firmware.Host.HostFrames

/-! One request of the host, as an exchange with the device. -/

set_option autoImplicit false

namespace Cc1310Firmware.Host
open LittleEndian Bootloader LabelledRun Reactive StopAndWait

/-! ### Frames on the line -/

/-- The bytes of a frame, in either direction. -/
def wireOf (frame : ProtocolFrame) : List Byte :=
  Cobs.encode (decodedFrame frame.messageType frame.sequenceNumber frame.payload) ++ [0]

/-- The payload is short enough for the bootloader's buffer. -/
def Short (frame : ProtocolFrame) : Prop := frame.payload.length ≤ 140

theorem encode_wireOf {kind sequence : Nat} {payload wire : List Byte}
    (encoded : encode kind sequence payload = some wire) :
    wire = wireOf ⟨BitVec.ofNat 8 kind, BitVec.ofNat 16 sequence, payload⟩ :=
  (encode_eq_some encoded).2.2.2

theorem read_wireOf {frame : ProtocolFrame} (short : Short frame) (stack : Buffer) :
    readProtocolFrame stack (wireOf frame) = some (frame, []) := by
  obtain ⟨messageType, sequenceNumber, payload⟩ := frame
  have nonzero := Cobs.encode_nonzero (decodedFrame messageType sequenceNumber payload)
  have fits : (Cobs.encode (decodedFrame messageType sequenceNumber payload)).length ≤ maxEncodedFrameSize := by
    have bound := Cobs.length_encodeFrom [] (decodedFrame messageType sequenceNumber payload) (by decide)
    simp only [decodedFrame, coveredBytes, List.length_append, length_bytesOf, List.length_cons, List.length_nil,
      Cobs.fullBlock, Short] at bound short
    simp only [decodedFrame, coveredBytes, Cobs.encode, maxEncodedFrameSize]
    omega
  have delivered : (frameOf ∘ received) (Cobs.encode (decodedFrame messageType sequenceNumber payload)) =
      some ⟨messageType, sequenceNumber, payload⟩ := by
    rw [Function.comp_apply, received_of_le fits]
    exact frameOf_encode _ _ (Nat.lt_of_le_of_lt short (by decide))
  have read :=
    (Receiver.holds_restart stack).read (Cobs.encode (decodedFrame messageType sequenceNumber payload) ++ [0])
  obtain ⟨receiver, last⟩ := Receiver.read_append (.restart stack) _ [0] nonzero
  rw [segments_whole [] _ nonzero, List.nil_append, List.filterMap_cons_some delivered, List.filterMap_nil,
    last] at read
  unfold readProtocolFrame wireOf
  dsimp only
  rw [last]
  unfold Receiver.read at read ⊢
  split
  case h_1 next frame received =>
    rw [received] at read
    cases read
    rfl
  case h_2 next received =>
    rw [received] at read
    cases read

/-! ### The device at the other end -/

section
variable {chip : DeviceState} {device device' : DeviceRun chip} {frame : ProtocolFrame} {answer : Option (List Byte)}

/-- The device reads a frame that was sent, and answers with its sequence number. -/
theorem serves_wireOf (short : Short frame) (serves : Serves device (wireOf frame) answer device') :
    ∃ (event : DeviceEvent) (t : DeviceState) (step : DeviceStep device.state event t), event.input = .frame frame ∧
      device' = device.next step ∧ ∀ wire ∈ answer, ∃ reply, event.output = some (.reply reply) ∧
        decode wire = some (reply.messageType.toNat, frame.sequenceNumber.toNat, reply.payload) := by
  cases serves with
  | @frame received event t stack stack' step read input =>
    have same := (read_wireOf short stack).symm.trans read
    cases same
    refine ⟨event, t, step, input, rfl, ?_⟩
    intro wire sent_
    have turned := step.turned
    cases output : event.output with
    | none => rw [output] at sent_; cases sent_
    | some out =>
      rw [output] at turned sent_
      cases out with
      | silent | handoff | code => cases sent_
      | reply reply =>
        cases sent_
        obtain ⟨session, received, next, _, same, turn_, _⟩ := turned.of_reply
        rw [input] at same
        cases same
        obtain ⟨number, payload⟩ := turn_.reply_header
        refine ⟨reply, rfl, ?_⟩
        rw [decode_writeProtocolFrame _ payload, number]

end

/-! ### Requests -/

section
variable {chip : DeviceState}

/-- The exchange for a request. `tells` is what a reply of a type and with a payload tells of the device. -/
def exchange (earlier frame : ProtocolFrame) (before during : DeviceRun chip → Prop)
    (tells : Nat → List Byte → DeviceRun chip → Prop) : Exchange (DeviceRun chip) (List Byte) (List Byte) where
  earlier := wireOf earlier
  request := wireOf frame
  late wire := ∀ type number payload, decode wire = some (type, number, payload) →
    number ≠ frame.sequenceNumber.toNat
  before := before
  during := during
  answers wire device := ∃ type payload, decode wire = some (type, frame.sequenceNumber.toNat, payload) ∧
    tells type payload device

/-- What the device owes to a request and to the one before it. -/
structure Honoured (earlier frame : ProtocolFrame) (before during : DeviceRun chip → Prop)
    (tells : Nat → List Byte → DeviceRun chip → Prop) : Prop where
  servesEarlier : ∀ device event t (step : DeviceStep device.state event t), event.input = .frame earlier →
    before device → during device → before (device.next step) ∧ during (device.next step)
  serves : ∀ device event t (step : DeviceStep device.state event t), event.input = .frame frame →
    during device → during (device.next step) ∧
      (∀ type payload, tells type payload device → tells type payload (device.next step)) ∧
      ∀ reply, event.output = some (.reply reply) → tells reply.messageType.toNat reply.payload (device.next step)
  idles : ∀ device event t (step : DeviceStep device.state event t), (∀ frame, event.input ≠ .frame frame) →
    event.input ≠ .requestUpdate → (before device → before (device.next step)) ∧
      (during device → during (device.next step)) ∧
      ∀ type payload, tells type payload device → tells type payload (device.next step)

theorem Honoured.respected {earlier frame : ProtocolFrame} {before during : DeviceRun chip → Prop}
    {tells : Nat → List Byte → DeviceRun chip → Prop} (honoured : Honoured earlier frame before during tells)
    (short : Short earlier) (short' : Short frame) (numbers : earlier.sequenceNumber ≠ frame.sequenceNumber) :
    (exchange earlier frame before during tells).Respected Serves Idles where
  servesEarlier device answer device' before_ during_ serves := by
    obtain ⟨event, t, step, input, rfl, answers⟩ := serves_wireOf short serves
    obtain ⟨before', during'⟩ := honoured.servesEarlier device event t step input before_ during_
    -- an answer to the earlier request carries its number
    refine ⟨before', during', ?_⟩
    intro wire member type number payload decoded same
    obtain ⟨reply, _, decoded'⟩ := answers wire member
    rw [decoded'] at decoded
    cases decoded
    exact numbers (BitVec.toNat_inj.mp same)
  serves device answer device' during_ serves := by
    obtain ⟨event, t, step, input, rfl, answers⟩ := serves_wireOf short' serves
    obtain ⟨during', _, tells'⟩ := honoured.serves device event t step input during_
    refine ⟨during', ?_⟩
    intro wire member
    obtain ⟨reply, output, decoded⟩ := answers wire member
    exact ⟨_, _, decoded, tells' reply output⟩
  served device answer device' wire during_ serves answered := by
    obtain ⟨event, t, step, input, rfl, _⟩ := serves_wireOf short' serves
    obtain ⟨_, kept, _⟩ := honoured.serves device event t step input during_
    obtain ⟨type, payload, decoded, tells_⟩ := answered
    exact ⟨type, payload, decoded, kept type payload tells_⟩
  idles device device' idles := by
    cases idles with
    | @turn event t step noFrame noRequest =>
      obtain ⟨before', during', _⟩ := honoured.idles device event t step noFrame noRequest
      exact ⟨before', during'⟩
  idled device device' wire idles answered := by
    cases idles with
    | @turn event t step noFrame noRequest =>
      obtain ⟨_, _, kept⟩ := honoured.idles device event t step noFrame noRequest
      obtain ⟨type, payload, decoded, tells_⟩ := answered
      exact ⟨type, payload, decoded, kept type payload tells_⟩

/-- Nothing but copies of one request and answers to it is under way. -/
def settled (frame : ProtocolFrame) (holds : DeviceRun chip → Prop) :
    Exchange (DeviceRun chip) (List Byte) (List Byte) :=
  { exchange frame frame (fun _ => False) holds fun _ _ _ => True with late := fun _ => False }

/-- What a frame keeps, and what the device does on its own. -/
structure Kept (frame : ProtocolFrame) (holds : DeviceRun chip → Prop) : Prop where
  serves : ∀ device event t (step : DeviceStep device.state event t), event.input = .frame frame →
    holds device → holds (device.next step)
  idles : ∀ device event t (step : DeviceStep device.state event t), (∀ frame, event.input ≠ .frame frame) →
    event.input ≠ .requestUpdate → holds device → holds (device.next step)

theorem Kept.settled {frame : ProtocolFrame} {holds : DeviceRun chip → Prop} (kept : Kept frame holds)
    (short : Short frame) :
    (settled frame holds).Respected Serves Idles where
  servesEarlier _ _ _ before := before.elim
  serves device answer device' holds_ serves := by
    obtain ⟨event, t, step, input, rfl, answers⟩ := serves_wireOf short serves
    refine ⟨kept.serves device event t step input holds_, ?_⟩
    intro wire member
    obtain ⟨reply, _, decoded⟩ := answers wire member
    exact ⟨_, _, decoded, trivial⟩
  served _ _ _ _ _ _ := id
  idles device device' idles := by
    cases idles with
    | turn step noFrame noRequest => exact ⟨id, kept.idles _ _ _ step noFrame noRequest⟩
  idled _ _ _ _ := id

end

end Cc1310Firmware.Host
