import Cc1310Firmware.Host.FlashAgreement
import Cc1310Firmware.Host.Framing
import Cc1310Firmware.Host.TransferLoop

/-! When the loop of flash ends.

A block that FlashProgram fails to write is acknowledged like one it has written, so the
loop goes on for as long as calls fail.
-/

set_option autoImplicit false

namespace Cc1310Firmware.Host
open LittleEndian Bootloader LabelledRun Reactive StopAndWait

/-! ### Patterns of failures -/

/-- The successes among the first `n` calls of FlashProgram. -/
def successes (pattern : Nat → Bool) (n : Nat) : Nat := ((List.range n).map pattern).count true

/-- The calls so far have returned what the pattern has for them. -/
def Follows (pattern : Nat → Bool) (results : List Bool) : Prop := results = (List.range results.length).map pattern

theorem successes_succ (pattern : Nat → Bool) (n : Nat) :
    successes pattern (n + 1) = successes pattern n + if pattern n then 1 else 0 := by
  unfold successes
  rw [List.range_succ, List.map_append, List.count_append, List.map_singleton]
  cases pattern n with
  | true => rfl
  | false => rfl

theorem follows_range (pattern : Nat → Bool) (n : Nat) : Follows pattern ((List.range n).map pattern) := by
  rw [Follows, List.length_map, List.length_range]

theorem Follows.take {pattern : Nat → Bool} {results : List Bool} (follows : Follows pattern results) {n : Nat}
    (short : n ≤ results.length) : (results.take n).count true = successes pattern n := by
  rw [follows, ← List.map_take, List.take_range, Nat.min_eq_left short, successes]

/-! ### The loop after READY -/

section
variable {chip : DeviceState} {upload : Upload}

/-- The host has READY for its BEGIN. -/
structure Ready (upload : Upload) (s : System chip) : Prop where
  accepted : upload.Accepted
  begun : ∃ frame, upload.IsBegin frame ∧ Short frame ∧ Between frame (fun device => upload.Begun device.state) s

/-- READY: the bootloader has taken the BEGIN, and the session has begun. -/
def readyTells (upload : Upload) (type : Nat) (_ : List Byte) (device : DeviceRun chip) : Prop :=
  type = kindReady → upload.Accepted ∧ upload.Begun device.state

theorem ready_honoured (earlier : ProtocolFrame) {frame : ProtocolFrame} (begin_ : upload.IsBegin frame) :
    @Honoured chip earlier frame (fun _ => True) (fun _ => True) (readyTells upload) where
  servesEarlier _ _ _ _ _ _ _ := ⟨trivial, trivial⟩
  serves device event t step input _ := by
    obtain ⟨kept, ready⟩ := begin_.step step input
    refine ⟨trivial, fun type payload tells same => (tells same).imp id kept, ?_⟩
    intro reply output type
    have type' : reply.messageType = protocolReady := BitVec.toNat_inj.mp type
    exact ⟨begin_.accepted step input output type', ready reply output type'⟩
  idles device event t step noFrame _ :=
    ⟨id, id, fun _ _ tells same => (tells same).imp id fun _ => Active.of_idle step noFrame⟩

/-- What flash has when the loop begins. -/
theorem ready_spec {package : List Byte} {info : Package} (parsed : parse package = some info) (role : Nat) :
    Triple (@Moves chip) Does Connected
      (request kindBegin (slice package 0 32 ++ bytesOf (BitVec.ofNat 32 role) 4) [kindReady] frameRetries)
      (fun _ => Ready (packageUpload parsed role)) fun _ _ => True := by
  refine Triple.exists fun hello => ?_
  have begin_ :=
    @packageUpload_isBegin package info parsed role (((helloFrame hello).sequenceNumber.toNat + 1) % 2 ^ 16)
  have short : Short (requestFrame kindBegin (((helloFrame hello).sequenceNumber.toNat + 1) % 2 ^ 16)
      (slice package 0 32 ++ bytesOf (BitVec.ofNat 32 role) 4)) := by
    simp only [Short, requestFrame, slice, List.length_append, List.length_take, length_bytesOf]
    omega
  refine (request_next kindBegin _ [kindReady] frameRetries rfl (ready_honoured _ begin_) (Nat.zero_le _) short
    fun _ _ => ⟨trivial, trivial⟩).mono (fun _ => id) ?_ fun _ _ => id
  rintro answer s ⟨expected, between⟩
  obtain ⟨accepted, _⟩ := between.holds.2 (List.mem_singleton.mp expected)
  exact ⟨accepted, _, begin_, short, between.mono fun holds => (holds.2 (List.mem_singleton.mp expected)).2⟩

/-- The calls of FlashProgram before the loop. -/
def callsBefore (start : System chip) : Nat := (blockHistory start.link.server.history).length

/-- The loop goes round for ever, with these results of FlashProgram. -/
def Endless (pattern : Nat → Bool) (image : List Byte) (start : System chip) : Prop :=
  ∃ offset world, offset 0 = 0 ∧ world 0 = start ∧ Rounds Moves Does (sendBlock image) offset world ∧
    ∀ k, offset k < image.length ∧ Follows pattern ((world k).link.server.results (callsBefore start))

/-- After so many rounds the loop is over. -/
def Bounded (pattern : Nat → Bool) (image : List Byte) (start : System chip) (rounds : Nat) : Prop :=
  ∀ outcome final, Runs (sendImage image rounds 0) start outcome final →
    Follows pattern (final.link.server.results (callsBefore start)) → outcome ≠ .error .unfinished

theorem Endless.not_bounded {pattern : Nat → Bool} {image : List Byte} {start : System chip}
    (endless : Endless pattern image start) (rounds : Nat) : ¬ Bounded pattern image start rounds := by
  obtain ⟨offset, world, zero, begins, bodies, goes⟩ := endless
  -- the rounds from the k-th on, by induction on their number
  have runs : ∀ k, Runs (sendImage image rounds (offset k)) (world k) (.error .unfinished) (world (k + rounds)) := by
    induction rounds with
    | zero =>
      intro k
      unfold sendImage
      rw [if_neg (Nat.not_le_of_lt (goes k).1)]
      exact .raised .refl
    | succ rounds ih =>
      intro k
      rw [sendImage_succ, if_neg (Nat.not_le_of_lt (goes k).1), Nat.add_left_comm, Nat.add_comm]
      exact Exec.bind (bodies k) (Nat.add_right_comm _ _ _ ▸ ih (k + 1))
  have whole := runs 0
  rw [zero, begins] at whole
  exact fun bounded => bounded _ _ whole (goes _).2 rfl

/-- The first round: copies of BEGIN may still be under way. -/
theorem begun_spec {frame : ProtocolFrame} {old : Nat} (begin_ : upload.IsBegin frame) (short : Short frame)
    (inside : 0 < upload.image.length) (rounds : Nat) : Triple (@Moves chip) Does
      (Between frame fun device => upload.Begun device.state ∧ (blockHistory device.history).length = old)
      (sendImage upload.image (rounds + 1) 0) (fun _ _ => True) (StillGoing upload old (rounds + 1)) := by
  have going : ∀ device : DeviceRun chip, upload.Begun device.state ∧ (blockHistory device.history).length = old →
      Going upload old 0 0 device :=
    fun device begun => ⟨begun.1.sending, .of_begun begun.1 begun.2, Nat.zero_le _⟩
  have honoured : ∀ sequence, Honoured frame (upload.data sequence 0)
      (fun device : DeviceRun chip => upload.Begun device.state ∧ (blockHistory device.history).length = old)
      (Going upload old 0 0) (goingTells upload old 0 0) := by
    intro sequence
    -- a second BEGIN erases the slot again, but programs no block
    have silent : ∀ {device : DeviceRun chip} {event t} (step : DeviceStep device.state event t),
        blockResults event.calls = [] → (blockHistory device.history).length = old →
          (blockHistory (device.next step).history).length = old := by
      intro device event t step none_ same
      change (blockHistory (device.history ++ [_])).length = old
      rw [blockHistory_concat, none_, List.append_nil, same]
    refine going_honoured sequence inside ?_ ?_
    · intro device event t step input begun _
      obtain ⟨session, r, mode, turn_, _⟩ := step.frameTurn input
      have begun' := And.intro ((begin_.step step input).1 begun.1)
        (silent step (turn_.blockResults_of_begin begin_.guard) begun.2)
      exact ⟨begun', going _ begun'⟩
    · intro device event t step noFrame begun
      exact ⟨Active.of_idle step noFrame, silent step (step.blockResults_of_idle noFrame) begun.2⟩
  have place : 0 = upload.reached 0 := (Nat.zero_min _).symm
  have total : rounds + 1 = 0 + 1 + rounds := by omega
  rw [total, Nat.zero_add, Nat.add_comm 1]
  have round := @told_round chip upload old frame _ _ 0 0 0 0 rounds honoured short
    (fun device begun => ⟨begun, going device begun⟩)
    inside place (Nat.le_refl _) fun offset => told_spec rounds _ offset
  rwa [Nat.zero_add, Nat.add_comm 1] at round

/-- With a success for each block among the first calls, the rounds are bounded. -/
theorem loop_bounded {pattern : Nat → Bool} {n : Nat} {start : System chip} (ready : Ready upload start)
    (enough : upload.blocks ≤ successes pattern n) :
    Bounded pattern upload.image start (n + upload.blocks + 1) := by
  obtain ⟨frame, begin_, short, between⟩ := ready.begun
  have before : Between frame (fun device => upload.Begun device.state ∧
      (blockHistory device.history).length = callsBefore start) start := between.mono fun begun => ⟨begun, rfl⟩
  rintro outcome final runs follows rfl
  obtain ⟨offset, inside, _, _, blocks, failures, _, _, place, counted, told⟩ :=
    (begun_spec begin_ short ready.accepted.image.1 (n + upload.blocks)).raises before runs rfl
  -- each round beyond the blocks is a failure, so more than `n` calls were made
  have going := told.holds
  have unwritten : blocks < upload.blocks := Upload.reached_lt_iff.mp (place ▸ inside)
  have failed : n < (final.link.server.results (callsBefore start)).length := by
    have atMost := List.count_le_length (a := false) (l := final.link.server.results (callsBefore start))
    have atLeast := going.failures
    omega
  have early := going.tally.early n failed
  rw [follows.take (Nat.le_of_lt failed)] at early
  omega

end

/-! ### A loop that does not end -/

section
variable {chip : DeviceState} {upload : Upload} {pattern : Nat → Bool} {old k : Nat} {device : DeviceRun chip}

/-- After `k` calls for the blocks, the session is where their results have brought it. -/
structure AfterCalls (upload : Upload) (pattern : Nat → Bool) (old k : Nat) (device : DeviceRun chip) : Prop where
  since : old ≤ (blockHistory device.history).length
  results : device.results old = (List.range k).map pattern
  session : ∃ session, device.state.mode = .updating session ∧ session.updateActive = true ∧
    session.packageHeader = upload.header ∧ session.bytesWritten.toNat = upload.reached (successes pattern k)

theorem chunk_dvd_reached {blocks : Nat} (inside : upload.reached blocks < upload.image.length) :
    chunkSize ∣ upload.reached blocks := by
  unfold Upload.reached at inside ⊢
  rw [Nat.min_eq_left (by omega)]
  exact Nat.dvd_mul_right _ _

theorem reached_successes (inside : upload.reached (successes pattern k) < upload.image.length) :
    (if pattern k then upload.next (upload.reached (successes pattern k)) else upload.reached (successes pattern k)) =
      upload.reached (successes pattern (k + 1)) := by
  rw [successes_succ]
  cases pattern k with
  | true => exact Upload.next_reached inside
  | false => rfl

/-- The next block is acknowledged, whatever FlashProgram returns for it. -/
theorem AfterCalls.data {frame : ProtocolFrame} {sequence : Half} (after : AfterCalls upload pattern old k device)
    (accepted : upload.Accepted) (inside : upload.reached (successes pattern k) < upload.image.length)
    (same : frame = upload.data sequence (upload.reached (successes pattern k))) :
    ∃ calls t written, ∃ step : DeviceStep device.state
        ⟨.frame frame, calls, some (.reply ⟨protocolAck, sequence, storeUint32Le written⟩)⟩ t,
      written.toNat = upload.reached (successes pattern (k + 1)) ∧
        AfterCalls upload pattern old (k + 1) (device.next step) := by
  subst same
  obtain ⟨history, ⟨flash, mode⟩, run⟩ := device
  obtain ⟨since, results, session, updating, active, header, place⟩ := after
  dsimp only at updating
  subst updating
  -- the offset is a multiple of the chunk size, so the device finds nothing wrong with the block
  have wellFormed : isMalformedData session (upload.data sequence (upload.reached (successes pattern k))) = false := by
    have fits : upload.image.length = session.packageHeader.imageSize.toNat := by rw [header, upload.size]
    have chunk := isMalformedData_chunk sequence accepted.image.2 fits (chunk_dvd_reached inside) inside
    rw [slice, Nat.add_sub_cancel_left] at chunk
    exact chunk
  obtain ⟨calls, flash', written, turn_, one, moved⟩ :=
    Upload.block_turn sequence flash active place inside wellFormed (pattern k)
  rw [reached_successes inside] at moved
  -- the session is never behind the block
  have notBehind : loadUint32Le (upload.data sequence (upload.reached (successes pattern k))).payload 0 ≤ written := by
    have offset : loadUint32Le (upload.data sequence (upload.reached (successes pattern k))).payload 0 =
        BitVec.ofNat 32 (upload.reached (successes pattern k)) := offset_dataFrame _ _ _
    rw [offset, BitVec.le_def, BitVec.toNat_ofNat, moved, ← reached_successes inside]
    obtain ⟨further, _⟩ := upload.next_of_lt inside
    have least := Nat.mod_le (upload.reached (successes pattern k)) (2 ^ 32)
    split <;> omega
  have acknowledged : acknowledge { session with bytesWritten := written }
      (upload.data sequence (upload.reached (successes pattern k))) =
      (⟨protocolAck, sequence, storeUint32Le written⟩, .loop { session with bytesWritten := written }) := by
    unfold acknowledge
    rw [if_pos notBehind]
    rfl
  rw [acknowledged] at turn_
  have turned : Turned flash (.updating session) _ calls (some (.reply ⟨protocolAck, sequence, storeUint32Le written⟩))
      flash' (.updating { session with bytesWritten := written }) := .frame turn_ rfl
  have more := @DeviceRun.results_next chip old ⟨history, _, run⟩ _ _ since turned.deviceStep
  dsimp only at more
  refine ⟨calls, _, written, turned.deviceStep, moved, ?_, ?_, _, rfl, active, header, moved⟩
  · change old ≤ (blockHistory (history ++ [_])).length
    rw [blockHistory_concat, List.length_append]
    exact Nat.le_trans since (Nat.le_add_right _ _)
  · rw [more, results, one, List.range_succ, List.map_append, List.map_singleton]

theorem encode_request {kind n : Nat} {payload : List Byte} (known : kind < 2 ^ 8)
    (short : Short (requestFrame kind (n % 2 ^ 16) payload)) :
    ∃ wire, encode kind (n % 2 ^ 16) payload = some wire := by
  have encoded := encode_eq (BitVec.ofNat 8 kind) (BitVec.ofNat 16 (n % 2 ^ 16)) (Nat.lt_of_le_of_lt short (by decide))
  rw [BitVec.toNat_ofNat, BitVec.toNat_ofNat, Nat.mod_eq_of_lt known, Nat.mod_mod] at encoded
  exact ⟨_, encoded⟩

/-- A round of the loop, with a call for the next block. -/
theorem AfterCalls.round (after : AfterCalls upload pattern old k device) (accepted : upload.Accepted)
    (inside : upload.reached (successes pattern k) < upload.image.length) (sequence : Nat) :
    ∃ device', Runs (sendBlock upload.image (upload.reached (successes pattern k))) (quiet sequence device)
        (.ok (upload.reached (successes pattern (k + 1)))) (quiet ((sequence + 1) % 2 ^ 16) device') ∧
      AfterCalls upload pattern old (k + 1) device' := by
  have bound : upload.reached (successes pattern k) < 2 ^ 32 := by
    have fits := upload.fits
    simp only [applicationFlashEnd, applicationFlashStart] at fits
    omega
  have head : toBytes4 (upload.reached (successes pattern k)) =
      some (bytesOf (BitVec.ofNat 32 (upload.reached (successes pattern k))) 4) := if_pos bound
  have frame := data_eq upload ((sequence + 1) % 2 ^ 16) _ head
  obtain ⟨calls, t, written, step, place, after'⟩ := after.data accepted inside frame
  have short := data_short upload (BitVec.ofNat 16 ((sequence + 1) % 2 ^ 16)) (upload.reached (successes pattern k))
  rw [← frame] at short
  obtain ⟨wire, encoded⟩ := @encode_request kindData _ _ (by decide) short
  have request := @Runs.request chip _ device _ _ sequence kindData 4 _ _ [kindAck, kindNack] encoded short step
    List.mem_cons_self
  refine ⟨_, ?_, after'⟩
  unfold sendBlock
  rw [head]
  refine Exec.bind (.returned .refl) (Exec.bind request ?_)
  have four : ¬ (storeUint32Le written).length ≠ 4 := not_not.mpr (length_bytesOf written 4)
  have acknowledged : ¬ (protocolAck.toNat = kindNack ∧
      upload.reached (successes pattern k) < fromBytes (storeUint32Le written)) :=
        fun nack => absurd nack.1 (by decide)
  dsimp only
  rw [if_neg four, if_neg acknowledged, fromBytes_storeUint32Le, place]
  exact .returned .refl

/-- While blocks are missing, there is always another round. -/
theorem AfterCalls.endless (after : AfterCalls upload pattern (callsBefore (quiet 0 device)) 0 device)
    (accepted : upload.Accepted) (few : ∀ n, successes pattern n < upload.blocks) :
    Endless pattern upload.image (quiet 0 device) := by
  have start : ∃ sequence device', quiet 0 device = quiet sequence device' ∧
    0 = upload.reached (successes pattern 0) ∧
      AfterCalls upload pattern (callsBefore (quiet 0 device)) 0 device' :=
        ⟨0, device, rfl, (Nat.zero_min _).symm, after⟩
  obtain ⟨offset, world, zero, begins, bodies, holds⟩ :=
    @exists_rounds _ _ _ _ _ Moves Does (sendBlock upload.image)
    (fun k offset (s : System chip) => ∃ sequence device', s = quiet sequence device' ∧
      offset = upload.reached (successes pattern k) ∧
        AfterCalls upload pattern (callsBefore (quiet 0 device)) k device')
    (by
      rintro k _ _ ⟨sequence, device', rfl, rfl, after'⟩
      obtain ⟨device'', runs, after''⟩ := after'.round accepted (Upload.reached_lt_iff.mpr (few k)) sequence
      exact ⟨_, _, runs, _, _, rfl, rfl, after''⟩) _ _ start
  refine ⟨offset, world, zero, begins, bodies, fun k => ?_⟩
  obtain ⟨_, device', at_, place, after'⟩ := holds k
  refine ⟨place ▸ Upload.reached_lt_iff.mpr (few k), ?_⟩
  rw [at_]
  exact after'.results ▸ follows_range pattern k

/-- A factory chip can come to the loop with any upload that the bootloader accepts. -/
theorem ready_start (accepted : upload.Accepted) (pattern : Nat → Bool) :
    ∃ device : DeviceRun ⟨factoryFlash, .reset⟩,
    Ready upload (quiet 0 device) ∧ AfterCalls upload pattern (callsBefore (quiet 0 device)) 0 device := by
  obtain ⟨_, _, _, _, flash, m, run, _⟩ := requested_update zeroHeader
  obtain ⟨calls, flash', metadata, step⟩ :=
    @begin_ready (.start m zeroHeader) _ _ accepted.1 accepted.2 0 flash
  have begin_ : upload.IsBegin (beginFrame 0 upload.header upload.role) := by
    refine ⟨isBegin_beginFrame _ _ _, loadPackageHeader_bytes _ _, ?_⟩
    have load := loadUint32Le_append upload.header.bytes (bytesOf upload.role 4) 0
    have value := loadUint32Le_bytesOf upload.role []
    rw [List.append_nil] at value
    rw [upload.header.length_bytes, Nat.add_zero, value] at load
    exact load
  have begun : upload.Begun ⟨flash', .updating ⟨metadata, upload.header, 0, upload.role, true⟩⟩ :=
    (begin_.step step rfl).2 _ rfl rfl
  have short : Short (beginFrame 0 upload.header upload.role) := by
    simp only [Short, beginFrame, List.length_append, upload.header.length_bytes, length_bytesOf]
    decide
  refine ⟨⟨_, _, run.next step⟩, ⟨accepted, _, begin_, short, ⟨⟨?_, ?_, begun⟩, rfl⟩⟩,
    Nat.le_refl _, ?_, _, rfl, rfl, rfl, ?_⟩
  · simp [quiet]
  · simp [quiet]
  · exact List.drop_length
  · exact (Nat.zero_min _).symm

/-- For every package that parse accepts: with these results of FlashProgram the loop ends
if and only if, unless the bootloader has refused the BEGIN, they let it write every block. -/
theorem transfer_ends_iff {package : List Byte} {info : Package} (parsed : parse package = some info) (role : Nat)
    (pattern : Nat → Bool) :
    (∀ (chip : DeviceState) (start : System chip), Ready (packageUpload parsed role) start →
      ¬ Endless pattern info.image start) ↔
    ((packageUpload parsed role).Accepted → ∃ n, (info.size + 127) / 128 ≤ successes pattern n) := by
  obtain ⟨_, _, _, _, _, size, _⟩ := parse_eq_some parsed
  have blocks : (info.size + 127) / 128 = (packageUpload parsed role).blocks := by
    rw [← size]
    rfl
  rw [blocks]
  constructor
  · intro ends accepted
    by_contra few
    have few' : ∀ n, successes pattern n < (packageUpload parsed role).blocks :=
      fun n => Nat.lt_of_not_le fun enough => few ⟨n, enough⟩
    -- a chip on which FlashProgram returns just this pattern goes round for ever
    obtain ⟨device, ready, after⟩ := ready_start accepted pattern
    exact ends _ _ ready (after.endless accepted few')
  · intro enough chip start ready endless
    obtain ⟨n, enough⟩ := enough ready.accepted
    exact endless.not_bounded _ (loop_bounded ready enough)

/-- The first call fails and the others do not. -/
theorem transfer_ends_iff_retried : (factoryInfo.size + 127) / 128 ≤ successes (fun k => k != 0) 2 ∧
    ∀ (chip : DeviceState) (start : System chip), Ready (packageUpload parse_factoryPackage 1) start →
      ¬ Endless (fun k => k != 0) factoryInfo.image start :=
  have enough : (factoryInfo.size + 127) / 128 ≤ successes (fun k => k != 0) 2 := by decide
  ⟨enough, (transfer_ends_iff parse_factoryPackage 1 fun k => k != 0).mpr fun _ => ⟨2, enough⟩⟩

/-- Every call fails: the one block is sent again and again. -/
theorem failing_calls_endless : ∃ start : System ⟨factoryFlash, .reset⟩,
    Ready (packageUpload parse_factoryPackage 1) start ∧ Endless (fun _ => false) factoryInfo.image start := by
  have accepted : (packageUpload parse_factoryPackage 1).Accepted := by
    have header : slice factoryPackage 0 32 = factoryHeader.bytes := List.take_left' factoryHeader.length_bytes
    unfold Upload.Accepted packageUpload
    dsimp only
    rw [header, loadPackageHeader_bytes]
    exact ⟨factoryHeader_valid, by decide⟩
  have none_ : ∀ n, successes (fun _ => false) n = 0 := by
    intro n
    induction n with
    | zero => rfl
    | succ n ih => rw [successes_succ, ih, if_neg Bool.false_ne_true]
  obtain ⟨device, ready, after⟩ := ready_start accepted fun _ => false
  exact ⟨_, ready, after.endless accepted fun n =>
    none_ n ▸ show 0 < (packageUpload parse_factoryPackage 1).blocks by decide⟩

end

end Cc1310Firmware.Host
