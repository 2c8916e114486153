import Cc1310Firmware.Bootloader.BlockCalls
import Cc1310Firmware.Host.FlashSteps

/-! The loop of flash, round by round.

A round ends in an answer with the place where the device is. Either that is a block
further on, or FlashProgram has failed since the round began. So the rounds are counted
by the blocks and the failures.
-/

set_option autoImplicit false

namespace Cc1310Firmware.Host
open LittleEndian Bootloader LabelledRun Reactive StopAndWait

section
variable {chip : DeviceState} {upload : Upload} {old : Nat} {device : DeviceRun chip} {event : DeviceEvent}
    {t : DeviceState}

/-- The results of FlashProgram behind the first `old` ones. -/
def DeviceRun.results (old : Nat) (device : DeviceRun chip) : List Bool := (blockHistory device.history).drop old

/-- The successes tell where an active session is, and FlashProgram is only called before the last block is written. -/
structure Tally (upload : Upload) (old : Nat) (device : DeviceRun chip) : Prop where
  since : old ≤ (blockHistory device.history).length
  counted : Active (fun session _ => session.bytesWritten.toNat = upload.reached ((device.results old).count true))
    device.state
  early : ∀ k, k < (device.results old).length → ((device.results old).take k).count true < upload.blocks

theorem DeviceRun.results_next (since : old ≤ (blockHistory device.history).length)
    (step : DeviceStep device.state event t) :
    (device.next step).results old = device.results old ++ blockResults event.calls := by
  unfold DeviceRun.results DeviceRun.next
  rw [blockHistory_concat, List.drop_append_of_le_length since]

theorem DeviceRun.count_next (step : DeviceStep device.state event t) :
    (device.results old).count false ≤ ((device.next step).results old).count false := by
  unfold DeviceRun.results DeviceRun.next
  rw [blockHistory_concat, List.drop_append, List.count_append]
  exact Nat.le_add_right _ _

/-- A step without a call. -/
theorem Tally.silent (tally : Tally upload old device) (step : DeviceStep device.state event t)
    (none_ : blockResults event.calls = [])
    (kept : Active (fun session _ => session.bytesWritten.toNat = upload.reached ((device.results old).count true)) t) :
    Tally upload old (device.next step) := by
  have same := DeviceRun.results_next tally.since step
  rw [none_, List.append_nil] at same
  refine ⟨?_, ?_, ?_⟩
  · change old ≤ (blockHistory (device.history ++ [_])).length
    rw [blockHistory_concat, none_, List.append_nil]
    exact tally.since
  · rw [same]
    exact kept
  · rw [same]
    exact tally.early

theorem Tally.idle (tally : Tally upload old device) (step : DeviceStep device.state event t)
    (noFrame : ∀ frame, event.input ≠ .frame frame) : Tally upload old (device.next step) :=
  tally.silent step (step.blockResults_of_idle noFrame) (Active.of_idle step noFrame)

/-- A block that FlashProgram was called for is the next one. -/
theorem Tally.data {sequence : Half} {offset : Nat} (tally : Tally upload old device)
    (inside : offset < upload.image.length)
    (step : DeviceStep device.state event t) (input : event.input = .frame (upload.data sequence offset)) :
    Tally upload old (device.next step) := by
  obtain ⟨session, r, mode, turn_, ended⟩ := step.frameTurn input
  rcases turn_.blockResults_of_data inside with ⟨none_, answers⟩ | ⟨active, here, done, session', one, rfl, written⟩
  · refine tally.silent step none_ ?_
    intro session' updating active
    rcases frame_cases ended with ⟨reply, _, returned, _, same⟩ | ⟨_, _, _, same⟩ | ⟨_, _, same⟩
    · rw [same] at updating
      cases updating
      obtain ⟨same', _⟩ := answers _ _ returned
      cases same'
      exact tally.counted session mode active
    · rw [same] at updating; cases updating
    · rw [same] at updating; cases updating
  · have place : session.bytesWritten.toNat = upload.reached _ := tally.counted session mode active
    rw [here] at place
    have more := DeviceRun.results_next tally.since step
    rw [one] at more
    have before : (device.results old).count true < upload.blocks := by
      rw [← Upload.reached_lt_iff, ← place]
      exact inside
    refine ⟨?_, ?_, ?_⟩
    · change old ≤ (blockHistory (device.history ++ [_])).length
      rw [blockHistory_concat, List.length_append]
      exact Nat.le_trans tally.since (Nat.le_add_right _ _)
    · intro session'' updating _
      cases (Prod.mk.inj ended).2.trans updating
      rw [more, List.count_append, written]
      cases done with
      | false => exact place
      | true =>
        rw [if_pos rfl, place]
        exact Upload.next_reached (place ▸ inside)
    · intro k short
      rw [more, List.length_append, List.length_singleton] at short
      rw [more, List.take_append_of_le_length (by omega)]
      by_cases last : k = (device.results old).length
      · rw [last, List.take_length]
        exact before
      · exact tally.early k (by omega)

/-- A session that has just begun. -/
theorem Tally.of_begun (begun : upload.Begun device.state) (none_ : (blockHistory device.history).length = old) :
    Tally upload old device := by
  have empty : device.results old = [] := by
    rw [DeviceRun.results, ← none_, List.drop_length]
  refine ⟨Nat.le_of_eq none_.symm, ?_, ?_⟩
  · intro session mode active
    obtain ⟨_, zero, _⟩ := begun session mode active
    rw [empty, zero]
    exact (Nat.zero_min _).symm
  · rw [empty]
    exact fun k short => absurd short (Nat.not_lt_zero _)

/-! ### A round -/

/-- The device while the block at `offset` is sent, after so many failures at least. -/
structure Going (upload : Upload) (old offset failures : Nat) (device : DeviceRun chip) : Prop where
  sending : upload.Sending offset device.state
  tally : Tally upload old device
  failures : failures ≤ (device.results old).count false

/-- ACK or NACK: the device is further on, or a call has failed. -/
def goingTells (upload : Upload) (old offset failures type : Nat) (payload : List Byte)
    (device : DeviceRun chip) : Prop :=
  type = kindAck ∨ type = kindNack → ∃ written : Word, payload = storeUint32Le written ∧
    (written.toNat = offset ∧ failures < (device.results old).count false ∨
      written.toNat = upload.next offset ∧ upload.Past offset device.state)

theorem Going.data {sequence : Half} {earlier offset failures : Nat}
    (going : Going upload old offset failures device) (within : offset ≤ upload.image.length)
    (inside : earlier < upload.image.length) (behind : earlier ≤ offset) (step : DeviceStep device.state event t)
    (input : event.input = .frame (upload.data sequence earlier)) :
    Going upload old offset failures (device.next step) where
  sending := (going.sending.data within inside behind step input).1
  tally := going.tally.data inside step input
  failures := Nat.le_trans going.failures (DeviceRun.count_next step)

theorem Going.idle {offset failures : Nat} (going : Going upload old offset failures device)
    (step : DeviceStep device.state event t) (noFrame : ∀ frame, event.input ≠ .frame frame) :
    Going upload old offset failures (device.next step) where
  sending := Active.of_idle step noFrame
  tally := going.tally.idle step noFrame
  failures := Nat.le_trans going.failures (DeviceRun.count_next step)

theorem storeUint32Le_injective {first second : Word} (same : storeUint32Le first = storeUint32Le second) :
    first = second := by
  apply BitVec.eq_of_toNat_eq
  rw [← fromBytes_storeUint32Le, ← fromBytes_storeUint32Le, same]

/-- An answer that the device is still at `offset` is the answer to a call that has failed. -/
theorem Going.answer {sequence : Half} {offset failures : Nat} {reply : ProtocolFrame}
    (going : Going upload old offset failures device) (inside : offset < upload.image.length)
    (step : DeviceStep device.state event t) (input : event.input = .frame (upload.data sequence offset))
    (output : event.output = some (.reply reply)) :
    goingTells upload old offset failures reply.messageType.toNat reply.payload (device.next step) := by
  intro acknowledges
  have noError : reply.messageType ≠ protocolError := by
    rintro error
    rw [error] at acknowledges
    rcases acknowledges with same | same <;> cases same
  rcases going.sending.answer inside step input output with error | ⟨written, payload, place⟩
  · exact absurd error noError
  refine ⟨written, payload, place.imp (fun still => ⟨still, ?_⟩) id⟩
  obtain ⟨further, _⟩ := upload.next_of_lt inside
  obtain ⟨session, r, mode, turn_, ended⟩ := step.frameTurn input
  have out : (conclude afterFrame r).1 = some (.reply reply) := by rw [ended, output]
  obtain ⟨reply', next, rfl, same⟩ := frame_output out
  cases same
  rcases turn_.blockResults_of_data inside with ⟨_, answers⟩ | ⟨_, _, done, session', one, returned, written'⟩
  · -- not called: the device is elsewhere, and says so
    rcases (answers _ _ rfl).2 with rfl | ⟨rfl, away⟩
    · exact absurd rfl noError
    · rw [storeUint32Le_injective payload] at away
      exact absurd still away
  · cases returned
    rw [storeUint32Le_injective payload, still] at written'
    cases done with
    | true =>
      rw [if_pos rfl] at written'
      omega
    | false =>
      rw [DeviceRun.results_next going.tally.since step, one, List.count_append]
      exact Nat.lt_succ_of_le going.failures

theorem kept_going {sequence : Half} {earlier offset failures : Nat} (within : offset ≤ upload.image.length)
    (inside : earlier < upload.image.length) (behind : earlier ≤ offset) :
    @Kept chip (upload.data sequence earlier) (Going upload old offset failures) where
  serves _ _ _ step input going := going.data within inside behind step input
  idles _ _ _ step noFrame _ going := going.idle step noFrame

theorem going_honoured {earlier : ProtocolFrame} {before : DeviceRun chip → Prop} (sequence : Half)
    {offset failures : Nat} (inside : offset < upload.image.length)
    (earlier_ : ∀ device event t (step : DeviceStep device.state event t), event.input = .frame earlier →
      before device → Going upload old offset failures device →
        before (device.next step) ∧ Going upload old offset failures (device.next step))
    (idle : ∀ device event t (step : DeviceStep device.state event t), (∀ frame, event.input ≠ .frame frame) →
      before device → before (device.next step)) :
    Honoured earlier (upload.data sequence offset) before (Going upload old offset failures)
      (goingTells upload old offset failures) where
  servesEarlier := earlier_
  serves device event t step input going := by
    refine ⟨going.data (Nat.le_of_lt inside) inside (Nat.le_refl _) step input, ?_, ?_⟩
    · intro type payload tells acknowledges
      obtain ⟨written, same, place⟩ := tells acknowledges
      have past := (going.sending.data (Nat.le_of_lt inside) inside (Nat.le_refl _) step input).2
      exact ⟨written, same, place.imp (And.imp id fun more => Nat.lt_of_lt_of_le more (DeviceRun.count_next step))
        (And.imp id past)⟩
    · intro reply output
      exact going.answer inside step input output
  idles device event t step noFrame _ := by
    refine ⟨idle device event t step noFrame, fun going => going.idle step noFrame, ?_⟩
    intro type payload tells acknowledges
    obtain ⟨written, same, place⟩ := tells acknowledges
    exact ⟨written, same, place.imp (And.imp id fun more => Nat.lt_of_lt_of_le more (DeviceRun.count_next step))
      (And.imp id fun _ => Active.of_idle step noFrame)⟩

end

/-! ### The loop -/

section
variable {chip : DeviceState} {upload : Upload} {old : Nat}

/-- After `done` rounds the host has been told that the device is at `offset`. -/
def Told (upload : Upload) (old done offset : Nat) (s : System chip) : Prop :=
  ∃ sequence earlier blocks failures, earlier < upload.image.length ∧ earlier ≤ offset ∧
    offset = upload.reached blocks ∧
    done ≤ failures + blocks ∧ Between (upload.data sequence earlier) (Going upload old offset failures) s

theorem stable_told (done offset : Nat) : Stable (@Moves chip) (Told upload old done offset) := by
  rintro s t step ⟨sequence, earlier, blocks, failures, inside, behind, place, counted, between⟩
  have kept := @kept_going chip upload old sequence _ _ failures (place ▸ upload.reached_le blocks) inside behind
  exact ⟨sequence, earlier, blocks, failures, inside, behind, place, counted,
    stable_between kept (data_short _ _ _) s t step between⟩

/-- The loop has been cut short after `done` rounds. -/
def StillGoing (upload : Upload) (old done : Nat) (error : HostError) (s : System chip) : Prop :=
  error = .unfinished → ∃ offset, offset < upload.image.length ∧ Told upload old done offset s

theorem stable_stillGoing (done : Nat) (error : HostError) :
    Stable (@Moves chip) (StillGoing upload old done error) := by
  intro s t step going unfinished
  obtain ⟨offset, inside, told⟩ := going unfinished
  exact ⟨offset, inside, stable_told done offset s t step told⟩

theorem StillGoing.of_ne {done : Nat} {error : HostError} {s : System chip} (other : error ≠ .unfinished) :
    StillGoing upload old done error s :=
  fun same => absurd same other

/-- What an answer tells about the round. -/
theorem Between.told {sequence : Half} {offset blocks failures done type : Nat} {answer : List Byte}
    {s : System chip} (inside : offset < upload.image.length) (place : offset = upload.reached blocks)
    (counted : done ≤ failures + blocks) (accepted : type ∈ [kindAck, kindNack])
    (between : Between (upload.data sequence offset)
      (fun device => Going upload old offset failures device ∧
        goingTells upload old offset failures type answer device) s) :
    Told upload old (done + 1) (fromBytes answer) s := by
  -- still there: one more failure; further on: one more block
  obtain ⟨further, last, _⟩ := upload.next_of_lt inside
  have acknowledges : type = kindAck ∨ type = kindNack := by simpa using accepted
  obtain ⟨written, rfl, still | ⟨moved, past⟩⟩ := between.holds.2 acknowledges
  · rw [fromBytes_storeUint32Le, still.1]
    refine ⟨sequence, offset, blocks, failures + 1, inside, Nat.le_refl _, place, by omega, ?_⟩
    exact between.mono fun holds => ⟨holds.1.sending, holds.1.tally, still.2⟩
  · have next : upload.next offset = upload.reached (blocks + 1) := by
      rw [place]
      exact Upload.next_reached (place ▸ inside)
    rw [fromBytes_storeUint32Le, moved]
    refine ⟨sequence, offset, blocks + 1, failures, inside, Nat.le_of_lt further, next, by omega, ?_⟩
    exact between.mono fun holds => ⟨holds.1.sending.advance past, holds.1.tally, holds.1.failures⟩

/-- A round, and the rounds after it. -/
theorem told_round {earlier : ProtocolFrame} {holds before : DeviceRun chip → Prop}
    {offset blocks failures done rounds : Nat}
    (honoured : ∀ sequence, Honoured earlier (upload.data sequence offset) before (Going upload old offset failures)
      (goingTells upload old offset failures)) (short : Short earlier)
    (holds_ : ∀ device, holds device → before device ∧ Going upload old offset failures device)
    (inside : offset < upload.image.length) (place : offset = upload.reached blocks)
    (counted : done ≤ failures + blocks)
    (rest : ∀ offset, Triple (@Moves chip) Does (Told upload old (done + 1) offset)
      (sendImage upload.image rounds offset)
      (fun _ _ => True) (StillGoing upload old (done + 1 + rounds))) :
    Triple Moves Does (Between earlier holds) (sendImage upload.image (rounds + 1) offset) (fun _ _ => True)
      (StillGoing upload old (done + 1 + rounds)) := by
  rw [sendImage_succ, if_neg (Nat.not_le_of_lt inside)]
  refine (sendBlock_spec (fun error s => StillGoing.of_ne) honoured short holds_
    (stable_told (done + 1)) ?_).bind _ rest
  intro sequence type answer s accepted between
  exact between.told inside place counted accepted

theorem told_spec (rounds done offset : Nat) : Triple (@Moves chip) Does (Told upload old done offset)
    (sendImage upload.image rounds offset) (fun _ _ => True) (StillGoing upload old (done + rounds)) := by
  induction rounds generalizing done offset with
  | zero =>
    unfold sendImage
    split
    case isTrue => exact .pure (.of_const _) fun _ _ => trivial
    case isFalse inside =>
      exact .throw (stable_stillGoing _ _) fun s told _ => ⟨offset, Nat.lt_of_not_le inside, told⟩
  | succ rounds ih =>
    by_cases inside : offset < upload.image.length
    · refine Triple.exists fun sequence => Triple.exists fun earlier => Triple.exists fun blocks =>
      Triple.exists fun failures =>
        Triple.of_const fun inside' => Triple.of_const fun behind => Triple.of_const fun place =>
          Triple.of_const fun counted => ?_
      have honoured :
        ∀ sequence', Honoured (upload.data sequence earlier) (upload.data sequence' offset) (fun _ => True)
          (@Going chip upload old offset failures) (goingTells upload old offset failures) := by
        intro sequence'
        refine going_honoured sequence' inside ?_ fun _ _ _ _ _ _ => trivial
        intro device event t step input _ going
        exact ⟨trivial, going.data (Nat.le_of_lt inside) inside' behind step input⟩
      have total : done + (rounds + 1) = done + 1 + rounds := by omega
      rw [total]
      exact told_round honoured (data_short _ _ _) (fun _ going => ⟨trivial, going⟩) inside place counted fun offset =>
        ih _ offset
    · unfold sendImage
      rw [if_pos (Nat.le_of_not_lt inside)]
      exact .pure (.of_const _) fun _ _ => trivial

end

end Cc1310Firmware.Host
