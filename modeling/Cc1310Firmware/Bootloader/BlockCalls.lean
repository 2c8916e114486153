import Cc1310Firmware.Bootloader.Upload

/-! The FlashProgram calls on the App slot.

Only the answer to DATA makes them. What they return is the history of an upload: it
decides how far the upload gets.
-/

set_option autoImplicit false

namespace Cc1310Firmware.Bootloader
open LittleEndian CrashProgram LabelledRun

/-- Whether FlashProgram has programmed its block; `none` for any other call, and for one
that has not returned. The journal ends where the App slot begins. -/
def blockResult (call : FlashCall) : Option Bool :=
  match call.command, call.status with
  | .program address data, .done => if applicationFlashStart < address + data.length then some true else none
  | .program address data, .failed => if applicationFlashStart < address + data.length then some false else none
  | _, _ => none

def blockResults (calls : List FlashCall) : List Bool := calls.filterMap blockResult

/-- The results of a run. -/
def blockHistory (history : List DeviceTransition) : List Bool :=
  history.flatMap fun x => blockResults x.event.calls

@[simp] theorem blockHistory_concat (history : List DeviceTransition) (x : DeviceTransition) :
    blockHistory (history ++ [x]) = blockHistory history ++ blockResults x.event.calls := by
  simp [blockHistory]

section
variable {flash flash' : Flash} {session : UpdateSession} {frame : ProtocolFrame} {calls : List FlashCall}
  {r : Result (ProtocolFrame × Continuation)}

@[simp] theorem blockResults_append (first second : List FlashCall) :
    blockResults (first ++ second) = blockResults first ++ blockResults second :=
  List.filterMap_append

theorem blockResults_of_journal {α : Type} {program : FlashProg α} {result : Result α}
    (exec : Exec FlashStep program flash calls result flash') (only : program.Only FlashCommand.InJournal) :
    blockResults calls = [] := by
  apply List.filterMap_eq_nil_iff.mpr
  intro call member
  have inside := exec.only only call member
  unfold blockResult
  split
  -- a call on the journal ends at or below the App slot
  case h_1 command _ | h_2 command _ =>
    rw [command] at inside
    exact if_neg (Nat.not_lt_of_le inside.2)
  case h_3 => rfl

theorem blockResults_of_append {m : BootMetadata} {result : AppendResult}
    (append : Exec FlashStep (appendMetadataRecord m) flash calls result flash') : blockResults calls = [] :=
  blockResults_of_journal append (appendMetadataRecord_only m)

theorem eraseApplicationFlashLoop_erases (remaining address : Nat) :
    (eraseApplicationFlashLoop remaining address).Only fun command => ∃ page, command = .sectorErase page := by
  induction remaining generalizing address with
  | zero => trivial
  | succ remaining ih =>
    unfold eraseApplicationFlashLoop
    apply only_bind
    · rw [flashSectorErase, only_issue]
      exact ⟨address, rfl⟩
    · intro failed
      split
      · trivial
      · exact ih _

theorem blockResults_of_erase {result : Result Int}
    (erase : Exec FlashStep eraseApplicationFlash flash calls result flash') : blockResults calls = [] := by
  apply List.filterMap_eq_nil_iff.mpr
  intro call member
  obtain ⟨page, command⟩ := erase.only (eraseApplicationFlashLoop_erases _ _) call member
  rw [blockResult, command]

theorem FrameTurn.blockResults_of_begin (begin_ : isBegin frame = true)
    (turn_ : FrameTurn flash session frame calls r flash') :
    blockResults calls = [] := by
  have type : frame.messageType = protocolBegin := by
    simp only [isBegin, Bool.and_eq_true, beq_iff_eq] at begin_
    exact begin_.1
  cases turn_ with
  | hello | refused | notProgrammed | rejected => rfl
  | unrecorded _ _ append => exact blockResults_of_append append
  | recorded _ _ append erase =>
    rw [blockResults_append, blockResults_of_append append, blockResults_of_erase erase]; rfl
  | block guard => simp [isData, type, protocolBegin, protocolData] at guard
  | finished _ append | roleSet _ append => exact blockResults_of_append append

end

section
variable {s t : DeviceState} {event : DeviceEvent}

/-- What the device does on its own makes no such call. -/
theorem DeviceStep.blockResults_of_idle (step : DeviceStep s event t)
    (noFrame : ∀ frame, event.input ≠ .frame frame) :
    blockResults event.calls = [] := by
  obtain ⟨flash, mode⟩ := s
  obtain ⟨flash', mode'⟩ := t
  obtain ⟨input, calls, output⟩ := event
  have turned := step.turned
  dsimp only at turned noFrame ⊢
  cases turned with
  | powerCut | bootUpdate | confirmRefused => rfl
  | bootAttempt _ append | confirm _ append | request append => exact blockResults_of_append append
  | frame => exact absurd rfl (noFrame _)

/-- A frame is answered in the update loop. -/
theorem DeviceStep.frameTurn {frame : ProtocolFrame} (step : DeviceStep s event t)
    (input : event.input = .frame frame) :
    ∃ session r, s.mode = .updating session ∧ FrameTurn s.flash session frame event.calls r t.flash ∧
      conclude afterFrame r = (event.output, t.mode) := by
  obtain ⟨flash, mode⟩ := s
  obtain ⟨flash', mode'⟩ := t
  obtain ⟨input', calls, output⟩ := event
  have turned := step.turned
  dsimp only at turned input ⊢
  subst input
  cases turned with
  | frame turn_ ended => exact ⟨_, _, rfl, turn_, ended⟩

end

/-! ### DATA -/

/-- The bootloader takes the BEGIN of the upload. -/
def Upload.Accepted (upload : Upload) : Prop :=
  isValidPackageHeader upload.header = true ∧ isValidAppRole upload.role = true

/-- The place that an upload has reached after so many blocks. -/
def Upload.reached (upload : Upload) (blocks : Nat) : Nat := min (128 * blocks) upload.image.length

/-- The number of blocks of the image. -/
def Upload.blocks (upload : Upload) : Nat := (upload.image.length + 127) / 128

section
variable {upload : Upload}

theorem Upload.Accepted.image (accepted : upload.Accepted) :
    0 < upload.image.length ∧ upload.image.length % 4 = 0 := by
  have valid := accepted.1
  simp only [isValidPackageHeader, Bool.and_eq_true, bne_iff_ne, beq_iff_eq] at valid
  have low : upload.header.imageSize.toNat &&& 3 = upload.header.imageSize.toNat % 4 :=
    Nat.and_two_pow_sub_one_eq_mod _ 2
  have aligned := congrArg BitVec.toNat valid.1.2
  rw [BitVec.toNat_and] at aligned
  rw [← upload.size, ← low]
  refine ⟨Nat.pos_of_ne_zero fun zero => valid.1.1.1.2 (BitVec.eq_of_toNat_eq zero), aligned⟩

/-- Only such a BEGIN is answered READY. -/
theorem Upload.IsBegin.accepted {frame reply : ProtocolFrame} {s t : DeviceState} {event : DeviceEvent}
    (begin_ : upload.IsBegin frame) (step : DeviceStep s event t) (input : event.input = .frame frame)
    (output : event.output = some (.reply reply)) (ready : reply.messageType = protocolReady) :
    upload.Accepted := by
  obtain ⟨session, r, mode, turn_, ended⟩ := step.frameTurn input
  have out : (conclude afterFrame r).1 = some (.reply reply) := by rw [ended, output]
  obtain ⟨reply', next, rfl, same⟩ := frame_output out
  cases same
  obtain ⟨_, _, _, _, _, valid, _⟩ := turn_.of_ready ready
  simp only [isRefusedBegin, UpdateSession.withHeader, Bool.or_eq_false_iff, Bool.not_eq_false'] at valid
  rw [begin_.header, begin_.role] at valid
  exact valid

theorem Upload.reached_le (upload : Upload) (blocks : Nat) : upload.reached blocks ≤ upload.image.length :=
  Nat.min_le_right _ _

theorem Upload.next_reached {blocks : Nat} (inside : upload.reached blocks < upload.image.length) :
    upload.next (upload.reached blocks) = upload.reached (blocks + 1) := by
  simp only [Upload.next, Upload.reached] at inside ⊢
  omega

theorem Upload.reached_lt_iff {blocks : Nat} : upload.reached blocks < upload.image.length ↔
    blocks < upload.blocks := by
  simp only [Upload.reached, Upload.blocks]
  omega

theorem blockResults_blockProgram (flash : Flash) {offset : Nat} (inside : offset < upload.image.length) :
    blockResults [⟨flash, upload.blockProgram offset, .done⟩] = [true] ∧
    blockResults [⟨flash, upload.blockProgram offset, .failed⟩] = [false] := by
  obtain ⟨further, _, length⟩ := upload.next_of_lt inside
  have behind : applicationFlashStart < applicationFlashStart + offset + (upload.block offset).length := by omega
  have done : blockResult ⟨flash, upload.blockProgram offset, .done⟩ = some true := if_pos behind
  have failed : blockResult ⟨flash, upload.blockProgram offset, .failed⟩ = some false := if_pos behind
  exact ⟨List.filterMap_cons_some done, List.filterMap_cons_some failed⟩

/-- The answer to DATA at `offset`, by what FlashProgram returns; it is not called if the
device is at another place. -/
theorem FrameTurn.blockResults_of_data {flash flash' : Flash} {session : UpdateSession} {sequence : Half}
    {offset : Nat} {calls : List FlashCall} {r : Result (ProtocolFrame × Continuation)}
    (inside : offset < upload.image.length)
    (turn_ : FrameTurn flash session (upload.data sequence offset) calls r flash') :
    (blockResults calls = [] ∧ ∀ reply next, r = .returned (reply, next) → next = .loop session ∧
      (reply = (upload.data sequence offset).error ∨
        reply = (acknowledge session (upload.data sequence offset)).1 ∧ session.bytesWritten.toNat ≠ offset)) ∨
    (session.updateActive = true ∧ session.bytesWritten.toNat = offset ∧ ∃ done session',
      blockResults calls = [done] ∧
      r = .returned ((acknowledge session' (upload.data sequence offset)).1, .loop session') ∧
      session'.bytesWritten.toNat = if done then upload.next offset else offset) := by
  have type : (upload.data sequence offset).messageType = protocolData := rfl
  cases turn_ with
  | hello guard => simp [isHello, type, protocolHello, protocolData] at guard
  | refused guard | unrecorded guard | recorded guard => simp [isBegin, type, protocolBegin, protocolData] at guard
  | notProgrammed guard _ away =>
    refine .inl ⟨rfl, ?_⟩
    rintro reply next ⟨⟩
    exact ⟨rfl, .inr ⟨rfl, fun same => away ((Upload.data_here inside).mpr same)⟩⟩
  | block guard _ here call =>
    have at_ := (Upload.data_here inside).mp here
    obtain ⟨done, failed⟩ := blockResults_blockProgram flash inside
    rw [Upload.blockCommand_data sequence inside at_] at call ⊢
    -- the three ends of the call: it has programmed the block, it has failed, or the power went off
    cases call with
    | done step rest =>
      cases rest
      -- bytesWritten has moved to the end of the block
      refine .inr ⟨isData_active guard, at_, true, _, done, rfl, ?_⟩
      rw [UpdateSession.programmed_done, if_pos rfl]
      exact Upload.written_data sequence inside at_
    | failed step rest =>
      cases rest
      exact .inr ⟨isData_active guard, at_, false, _, failed, rfl, at_⟩
    | cut step =>
      refine .inl ⟨rfl, ?_⟩
      rintro reply next ⟨⟩
  | finished guard => simp [endAccepted, type, protocolEnd, protocolData] at guard
  | roleSet guard => simp [setRoleAccepted, type, protocolSetRole, protocolData] at guard
  | rejected =>
    refine .inl ⟨rfl, ?_⟩
    rintro reply next ⟨⟩
    exact ⟨rfl, .inl rfl⟩

/-- FlashProgram can succeed with the next block, and it can fail. -/
theorem Upload.block_turn {session : UpdateSession} {offset : Nat} (sequence : Half) (flash : Flash)
    (active : session.updateActive = true) (here : session.bytesWritten.toNat = offset)
    (inside : offset < upload.image.length)
    (wellFormed : isMalformedData session (upload.data sequence offset) = false) (done : Bool) :
    ∃ calls flash' bytesWritten, FrameTurn flash session (upload.data sequence offset) calls
        (.returned (acknowledge { session with bytesWritten := bytesWritten } (upload.data sequence offset))) flash' ∧
      blockResults calls = [done] ∧ bytesWritten.toNat = if done then upload.next offset else offset := by
  have guard : isData session (upload.data sequence offset) = true := by
    simp [isData, active, Upload.data, dataFrame]
  have place : loadUint32Le (upload.data sequence offset).payload 0 = session.bytesWritten :=
    (Upload.data_here inside).mpr here
  have command := Upload.blockCommand_data sequence inside here
  obtain ⟨succeeded, failed⟩ := blockResults_blockProgram flash inside
  cases done with
  | false =>
    have step : FlashStep flash (blockCommand session (upload.data sequence offset)) .failed flash := .failed
      (.refl flash _)
    have turn_ := FrameTurn.block guard wellFormed place (.failed step .ret)
    refine ⟨_, _, session.bytesWritten, turn_, ?_, here⟩
    rw [command]
    exact failed
  | true =>
    have inFlash : (blockCommand session (upload.data sequence offset)).InFlash := by
      have fits := upload.fits
      obtain ⟨_, last, length⟩ := upload.next_of_lt inside
      rw [command]
      simp only [FlashCommand.InFlash, flashSize, applicationFlashStart, applicationFlashEnd] at fits ⊢
      omega
    have step : FlashStep flash (blockCommand session (upload.data sequence offset)) .done _ := .done inFlash
    have turn_ := FrameTurn.block guard wellFormed place (.done step .ret)
    refine ⟨_, _, session.bytesWritten + BitVec.ofNat 32 (upload.data sequence offset).block.length, turn_, ?_, ?_⟩
    · rw [command]
      exact succeeded
    · rw [if_pos rfl]
      exact Upload.written_data sequence inside here

end

end Cc1310Firmware.Bootloader
