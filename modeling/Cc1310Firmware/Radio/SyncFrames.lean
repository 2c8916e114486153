import Cc1310Firmware.Radio.SyncCommands

/-! The packets of a transmitter since its start.

The array and the sequence number are reused from packet to packet. Whatever the radio
reports, the sequence number counts the packets built.
-/

set_option autoImplicit false

namespace Cc1310Firmware.Radio
open Cli

structure TxInput where
  line : InputLine
  surroundings : Surroundings

def Transmitter.run (tx : Transmitter) (driver : RadioDriver) : List TxInput → Transmitter × List TxEvent
  | [] => (tx, [])
  | input :: rest =>
    let first := tx.processLine driver input.surroundings input.line.array
    let further := first.1.run driver rest
    (further.1, first.2 ++ further.2)

/-- What the lines ask for, in order. There is one such list. -/
inductive Accepted : List TxInput → List SyncRequest → Prop where
  | nil : Accepted [] []
  | asks {input : TxInput} {request : SyncRequest} {rest : List TxInput} {requests : List SyncRequest}
      (asked : Asks input.line.content request) (further : Accepted rest requests) :
      Accepted (input :: rest) (request :: requests)
  | other {input : TxInput} {rest : List TxInput} {requests : List SyncRequest}
      (unasked : ∀ request, ¬ Asks input.line.content request) (further : Accepted rest requests) :
      Accepted (input :: rest) requests

/-- Packet `k` belongs to request `k`, and has the sequence number `start + k`. -/
structure Transmitted (start : Byte) (requests : List SyncRequest) (frames : List (List Byte)) : Prop where
  length : frames.length = requests.length
  each : ∀ k request, requests[k]? = some request →
    ∃ frame, frames[k]? = some frame ∧ SyncFrame request (start + BitVec.ofNat 8 k) frame

theorem Transmitted.nil (start : Byte) : Transmitted start [] [] :=
  ⟨rfl, fun _ _ listed => by cases listed⟩

theorem Transmitted.cons {start : Byte} {request : SyncRequest} {frame : List Byte} {requests : List SyncRequest}
    {frames : List (List Byte)} (first : SyncFrame request start frame)
    (further : Transmitted (start + 1) requests frames) :
    Transmitted start (request :: requests) (frame :: frames) := by
  refine ⟨congrArg (· + 1) further.length, fun k request' listed => ?_⟩
  cases k with
  | zero =>
    obtain rfl := Option.some.inj listed
    exact ⟨frame, rfl, by rwa [BitVec.add_zero]⟩
  | succ k =>
    obtain ⟨frame', place, whole⟩ := further.each k request' listed
    have sequence : start + BitVec.ofNat 8 (k + 1) = start + 1 + BitVec.ofNat 8 k := by
      rw [Nat.add_comm k 1, BitVec.ofNat_add, BitVec.add_assoc]
      rfl
    exact ⟨frame', place, by rwa [sequence]⟩

theorem Accepted.unique {inputs : List TxInput} {requests requests' : List SyncRequest}
    (accepted : Accepted inputs requests) (accepted' : Accepted inputs requests') : requests = requests' := by
  induction accepted generalizing requests' with
  | nil =>
    cases accepted'
    rfl
  | asks asked _ ih =>
    cases accepted' with
    | asks asked' further => rw [asked.unique asked', ih further]
    | other unasked _ => exact absurd asked (unasked _)
  | other unasked _ ih =>
    cases accepted' with
    | asks asked _ => exact absurd asked (unasked _)
    | other _ further => exact ih further

theorem Transmitter.run_transmitted (tx : Transmitter) (driver : RadioDriver) (inputs : List TxInput) :
    ∃ requests, Accepted inputs requests ∧
      Transmitted tx.syncSequence requests (radioCommands (tx.run driver inputs).2) := by
  -- on the lines still to come, with the sequence number as the state
  induction inputs generalizing tx with
  | nil => exact ⟨[], .nil, .nil _⟩
  | cons input rest ih =>
    have answers := processLine_answers tx driver input.surroundings input.line
    obtain ⟨requests, accepted, transmitted⟩ := ih (tx.processLine driver input.surroundings input.line.array).1
    rw [run]
    dsimp only
    rw [radioCommands_append]
    cases answers with
    | sent request asked done =>
      rw [done] at transmitted ⊢
      rw [radioCommands_transmit]
      have next : ((tx.prepare input.surroundings.clockTicks request).transmit driver input.surroundings
          request.command).1.syncSequence = tx.syncSequence + 1 := prepare_syncSequence _ _ _
      rw [next] at transmitted
      exact ⟨request :: requests, .asks asked accepted, .cons (tx.prepare_frame _ request) transmitted⟩
    | refused unasked kept silent =>
      rw [kept] at transmitted ⊢
      rw [silent, List.nil_append]
      exact ⟨requests, .other unasked accepted, transmitted⟩

/-- Since the start, the radio gets one packet for each line that asks for one, and the one for
request `k` is a packet with that request's number and the sequence number `k` modulo 256. -/
theorem frames_well_formed (driver : RadioDriver) (inputs : List TxInput) :
    ∃ requests, Accepted inputs requests ∧
      (radioCommands (Transmitter.start.run driver inputs).2).length = requests.length ∧
      ∀ k request, requests[k]? = some request → ∃ frame,
        (radioCommands (Transmitter.start.run driver inputs).2)[k]? = some frame ∧
        SyncFrame request (BitVec.ofNat 8 k) frame := by
  obtain ⟨requests, accepted, transmitted⟩ := Transmitter.start.run_transmitted driver inputs
  refine ⟨requests, accepted, transmitted.length, fun k request listed => ?_⟩
  obtain ⟨frame, place, whole⟩ := transmitted.each k request listed
  have sequence : Transmitter.start.syncSequence + BitVec.ofNat 8 k = BitVec.ofNat 8 k := BitVec.zero_add _
  exact ⟨frame, place, by rwa [← sequence]⟩

end Cc1310Firmware.Radio
