import Cc1310Firmware.Bootloader.DeviceJournal

/-! What the updater holds of an image while the image is sent to it.

The assertions are about an active session only: a session that is not active
programs no block and answers no END, whatever brought it about. So a reset,
and all that the device does on its own, keeps them.
-/

set_option autoImplicit false

namespace Cc1310Firmware.Bootloader
open LittleEndian CrashProgram LabelledRun

/-- An image with the header and the role of its BEGIN. -/
structure Upload where
  header : FirmwarePackageHeader
  role : Word
  image : List Byte
  size : header.imageSize.toNat = image.length
  fits : image.length ≤ applicationFlashEnd - applicationFlashStart

/-- The offset after the block at `offset`. -/
def Upload.next (upload : Upload) (offset : Nat) : Nat := min (offset + 128) upload.image.length

def Upload.block (upload : Upload) (offset : Nat) : List Byte := (upload.image.drop offset).take 128

/-- A BEGIN of this upload. -/
structure Upload.IsBegin (upload : Upload) (frame : ProtocolFrame) : Prop where
  guard : isBegin frame = true
  header : loadPackageHeader frame.payload = upload.header
  role : loadUint32Le frame.payload sizeofFirmwarePackageHeader = upload.role

def Upload.data (upload : Upload) (sequenceNumber : Half) (offset : Nat) : ProtocolFrame :=
  dataFrame sequenceNumber (BitVec.ofNat 32 offset) (upload.block offset)

def endRequest (sequenceNumber : Half) : ProtocolFrame := ⟨protocolEnd, sequenceNumber, []⟩

/-- What holds of the session, if it is active, and of the flash. -/
def Active (holds : UpdateSession → Flash → Prop) (state : DeviceState) : Prop :=
  ∀ session, state.mode = .updating session → session.updateActive = true → holds session state.flash

def Idle (state : DeviceState) : Prop := Active (fun _ _ => False) state

def Upload.Loaded (upload : Upload) (session : UpdateSession) : Prop :=
  session.packageHeader = upload.header ∧ session.requestedRole = upload.role

def BlankSlot (flash : Flash) : Prop := ∀ a, applicationFlashStart ≤ a → a < applicationFlashEnd → flash a = 0xFF

/-- The first bytes of the image are in the App slot, and the others can still be programmed. -/
structure Upload.Written (upload : Upload) (written : Nat) (flash : Flash) : Prop where
  stored : ∀ i (inside : i < upload.image.length), i < written → flash (applicationFlashStart + i) = upload.image[i]
  free : ∀ i (inside : i < upload.image.length), written ≤ i →
    flash (applicationFlashStart + i) &&& upload.image[i] = upload.image[i]

/-- The session after a READY. -/
def Upload.Begun (upload : Upload) : DeviceState → Prop :=
  Active fun session flash => upload.Loaded session ∧ session.bytesWritten = 0 ∧ BlankSlot flash

/-- The session while the block at `offset` is sent. -/
def Upload.Sending (upload : Upload) (offset : Nat) : DeviceState → Prop :=
  Active fun session flash => upload.Loaded session ∧
    (session.bytesWritten.toNat = offset ∨ session.bytesWritten.toNat = upload.next offset) ∧
    upload.Written session.bytesWritten.toNat flash

/-- The block at `offset` is in the slot. -/
def Upload.Past (upload : Upload) (offset : Nat) : DeviceState → Prop :=
  Active fun session _ => session.bytesWritten.toNat = upload.next offset

/-- The metadata of a completed update. -/
structure Upload.Describes (upload : Upload) (m : BootMetadata) : Prop where
  state : m.state = bootStateValidApplication
  imageSize : m.imageSize = upload.header.imageSize
  imageCrc32 : m.imageCrc32 = upload.header.imageCrc32
  firmwareVersion : m.firmwareVersion = upload.header.firmwareVersion
  appRole : m.appRole = upload.role

/-- The update is complete, and no other has begun. -/
structure Upload.Committed (upload : Upload) (state : DeviceState) : Prop where
  idle : Idle state
  image : state.flash.bytes applicationFlashStart upload.image.length = upload.image
  record : ∃ m, newestRecord state.flash = some m ∧ upload.Describes m

section
variable {upload : Upload} {flash flash' : Flash}

theorem Upload.next_of_lt {offset : Nat} (inside : offset < upload.image.length) :
    offset < upload.next offset ∧ upload.next offset ≤ upload.image.length ∧
    upload.next offset = offset + (upload.block offset).length := by
  simp only [Upload.next, Upload.block, List.length_take, List.length_drop]
  omega

theorem Upload.next_size : upload.next upload.image.length = upload.image.length := by
  simp [Upload.next]

theorem Upload.Written.congr {written : Nat} (written_ : upload.Written written flash)
    (same : ∀ a, applicationFlashStart ≤ a → flash' a = flash a) : upload.Written written flash' where
  stored i inside below := by rw [same _ (Nat.le_add_right _ _), written_.stored i inside below]
  free i inside above := by rw [same _ (Nat.le_add_right _ _), written_.free i inside above]

theorem Upload.Written.of_blank (blank : BlankSlot flash) : upload.Written 0 flash where
  stored _ _ below := absurd below (Nat.not_lt_zero _)
  free i inside _ := by
    have fits := upload.fits
    rw [blank _ (Nat.le_add_right _ _) (by omega)]
    exact BitVec.allOnes_and

theorem Upload.Written.bytes_eq (written_ : upload.Written upload.image.length flash) :
    flash.bytes applicationFlashStart upload.image.length = upload.image := by
  apply List.ext_getElem (Flash.length_bytes _ _ _)
  intro i _ inside
  rw [Flash.getElem_bytes]
  exact written_.stored i inside inside

theorem BlankSlot.congr (blank : BlankSlot flash) (same : ∀ a, applicationFlashStart ≤ a → flash' a = flash a) :
    BlankSlot flash' := by
  intro a lo hi
  rw [same a lo]
  exact blank a lo hi

/-! ### Flash calls on the slot -/

/-- An erase sets bits, even if it fails. -/
theorem FlashStep.erase_keeps_blank {address a : Nat} {status : Status}
    (step : FlashStep flash (.sectorErase address) status flash')
    (blank : flash a = 0xFF) : flash' a = 0xFF := by
  have complete : (FlashCommand.sectorErase address).complete flash a = 0xFF := by
    simp only [FlashCommand.complete, Flash.erased]
    split
    · rfl
    · exact blank
  cases step with
  | done => exact complete
  | failed interrupted | cut interrupted => rw [interrupted.bits.of_same (complete.trans blank.symm), blank]

theorem eraseApplicationFlashLoop_keeps_blank (remaining address : Nat) (flash : Flash) {a : Nat}
    (blank : flash a = 0xFF) :
    Ensures FlashStep (eraseApplicationFlashLoop remaining address) flash fun _ _ flash' => flash' a = 0xFF := by
  induction remaining generalizing address flash with
  | zero => simpa [eraseApplicationFlashLoop] using blank
  | succ remaining ih =>
    unfold eraseApplicationFlashLoop
    simp only [flashSectorErase, ensures_bind, ensures_issue, Result.andThen_returned, Result.andThen_cut]
    refine ⟨fun g step => ?_, fun g step => ?_, fun g step => step.erase_keeps_blank blank⟩
    · simp only [Bool.false_eq_true, if_false]
      exact ih _ g (step.erase_keeps_blank blank)
    · simpa using step.erase_keeps_blank blank

theorem BlankSlot.erase {calls : List FlashCall} {r : Result Int} (blank : BlankSlot flash)
    (erase : Exec FlashStep eraseApplicationFlash flash calls r flash') : BlankSlot flash' := by
  intro a lo hi
  exact eraseApplicationFlashLoop_keeps_blank _ _ flash (blank a lo hi) _ _ _ erase

/-- The call for the block at `written`. -/
abbrev Upload.blockProgram (upload : Upload) (written : Nat) : FlashCommand :=
  .program (applicationFlashStart + written) (upload.block written)

/-- Complete, the call gives the slot the bytes of the image. -/
theorem Upload.Written.complete {written : Nat} (written_ : upload.Written written flash) {i : Nat}
    (inside : i < upload.image.length) (here : written ≤ i) (block : i < upload.next written) :
    (upload.blockProgram written).complete flash (applicationFlashStart + i) = upload.image[i] := by
  have length : i - written < (upload.block written).length := by
    simp only [Upload.next, Upload.block, List.length_take, List.length_drop] at block ⊢
    omega
  have byte : (upload.block written)[i - written] = upload.image[i] := by
    simp only [Upload.block, List.getElem_take, List.getElem_drop, Nat.add_sub_cancel' here]
  have programmed := @Flash.programmed_at flash (applicationFlashStart + written) _ _ length
  rw [Nat.add_assoc, Nat.add_sub_cancel' here, byte] at programmed
  exact programmed.trans (written_.free i inside here)

theorem Upload.Written.outside {written : Nat} {status : Status}
    (step : FlashStep flash (upload.blockProgram written) status flash')
    {i : Nat} (away : i < written ∨ written + (upload.block written).length ≤ i) :
    flash' (applicationFlashStart + i) = flash (applicationFlashStart + i) := by
  apply step.unchanged
  simp only [FlashCommand.Touches]
  omega

/-- A call that completes writes its block, and one that fails keeps every bit that is still needed. -/
theorem Upload.Written.program {written : Nat} {status : Status} (written_ : upload.Written written flash)
    (inside : written < upload.image.length) (step : FlashStep flash (upload.blockProgram written) status flash') :
    upload.Written (if status = .done then upload.next written else written) flash' := by
  obtain ⟨_, last, length⟩ := Upload.next_of_lt inside
  have kept : ∀ i (inside : i < upload.image.length), written ≤ i →
      flash' (applicationFlashStart + i) &&& upload.image[i] = upload.image[i] := by
    intro i inside above
    by_cases block : i < upload.next written
    · have complete := written_.complete inside above block
      have free := written_.free i inside above
      have bits : ∀ torn, Torn flash ((upload.blockProgram written).complete flash) torn →
          torn (applicationFlashStart + i) &&& upload.image[i] = upload.image[i] := by
        intro torn torn_
        apply BitVec.eq_of_getLsbD_eq
        intro k _
        have old := congrArg (·.getLsbD k) free
        rw [BitVec.getLsbD_and] at old ⊢
        rcases torn_ (applicationFlashStart + i) k with same | same
        · rw [same, old]
        · rw [same, complete, Bool.and_self]
      cases step with
      | done => rw [complete, BitVec.and_self]
      | failed interrupted | cut interrupted => exact bits _ interrupted.bits
    · rw [Upload.Written.outside step (.inr (by omega))]
      exact written_.free i inside above
  constructor
  · intro i inside below
    by_cases before : i < written
    · rw [Upload.Written.outside step (.inl before)]
      exact written_.stored i inside before
    · -- the block itself: it counts as written only if the call was done
      split at below
      case isTrue done =>
        subst done
        cases step
        exact written_.complete inside (Nat.le_of_not_lt before) below
      case isFalse => exact absurd below before
  · intro i inside above
    apply kept i inside
    split at above <;> omega

end

/-! ### Frames of one kind -/

section
variable {flash flash' : Flash} {session : UpdateSession} {frame reply : ProtocolFrame} {calls : List FlashCall}
  {next : Continuation}

/-- A reply carries the sequence number of its request, and a short payload. -/
theorem FrameTurn.reply_header (turn_ : FrameTurn flash session frame calls (.returned (reply, next)) flash') :
    reply.sequenceNumber = frame.sequenceNumber ∧ reply.payload.length < 2 ^ 16 := by
  have answers : ∀ type payload, payload.length < 2 ^ 16 → reply = frame.reply type payload →
      reply.sequenceNumber = frame.sequenceNumber ∧ reply.payload.length < 2 ^ 16 := by
    rintro type payload short rfl
    exact ⟨rfl, short⟩
  generalize ended : Result.returned (reply, next) = r at turn_
  cases turn_ with
  | hello => cases ended; exact answers _ _ (by simp [infoPayload, storeUint32Le]) rfl
  | refused | rejected => cases ended; exact answers _ _ (by simp) rfl
  | unrecorded =>
    obtain ⟨appended, _, same⟩ := Result.map_eq_returned.mp ended.symm
    cases same
    exact answers _ _ (by simp) rfl
  | recorded =>
    obtain ⟨code, _, same⟩ := Result.map_eq_returned.mp ended.symm
    unfold beginReply at same
    split at same <;> cases same
    · exact answers _ _ (by simp) rfl
    · exact answers _ _ (by simp [storeUint32Le]) rfl
  | notProgrammed => cases ended; exact answers _ _ (by simp [storeUint32Le]) rfl
  | block =>
    obtain ⟨failed, _, same⟩ := Result.map_eq_returned.mp ended.symm
    cases same
    exact answers _ _ (by simp [storeUint32Le]) rfl
  | finished | roleSet =>
    obtain ⟨appended, _, same⟩ := Result.map_eq_returned.mp ended.symm
    unfold commitReply at same
    split at same <;> cases same
    · exact answers _ _ (by simp) rfl
    · exact answers _ _ (by simp) rfl

/-- A BEGIN that is not answered READY. -/
theorem FrameTurn.of_begin {session' : UpdateSession} (begin_ : isBegin frame = true)
    (turn_ : FrameTurn flash session frame calls (.returned (reply, .loop session')) flash') :
    (reply.messageType = protocolReady) ∨
    (session'.packageHeader = loadPackageHeader frame.payload ∧
      session'.requestedRole = loadUint32Le frame.payload sizeofFirmwarePackageHeader ∧
      session'.bytesWritten = session.bytesWritten ∧ session'.updateActive = session.updateActive ∧
      (BlankSlot flash → BlankSlot flash')) := by
  have type : frame.messageType = protocolBegin := by
    simp only [isBegin, Bool.and_eq_true, beq_iff_eq] at begin_
    exact begin_.1
  generalize ended : Result.returned (reply, Continuation.loop session') = r at turn_
  cases turn_ with
  | hello guard => simp [isHello, type, protocolHello, protocolBegin] at guard
  | refused => cases ended; exact .inr ⟨rfl, rfl, rfl, rfl, id⟩
  | unrecorded _ _ append =>
    obtain ⟨appended, rfl, same⟩ := Result.map_eq_returned.mp ended.symm
    cases same
    exact .inr ⟨rfl, rfl, rfl, rfl, fun blank => blank.congr fun a lo => append_unchanged append lo⟩
  | recorded _ _ append erase =>
    obtain ⟨code, rfl, same⟩ := Result.map_eq_returned.mp ended.symm
    rcases beginReply_loop same with ⟨_, _, rfl⟩ | ⟨_, rfl, _⟩
    · exact .inr ⟨rfl, rfl, rfl, rfl, fun blank => (blank.congr fun a lo => append_unchanged append lo).erase erase⟩
    · exact .inl rfl
  | notProgrammed guard | block guard => simp [isData, type, protocolBegin, protocolData] at guard
  | finished guard => simp [endAccepted, type, protocolBegin, protocolEnd] at guard
  | roleSet guard => simp [setRoleAccepted, type, protocolBegin, protocolSetRole] at guard
  | rejected _ notBegin => rw [begin_] at notBegin; cases notBegin

theorem FrameTurn.of_data (data : frame.messageType = protocolData)
    (turn_ : FrameTurn flash session frame calls (.returned (reply, next)) flash') :
    (reply = frame.error ∧ next = .loop session ∧ flash' = flash) ∨
    session.updateActive = true ∧ ∃ session', next = .loop session' ∧ reply = (acknowledge session' frame).1 ∧
      ((loadUint32Le frame.payload 0 ≠ session.bytesWritten ∧ session' = session ∧ flash' = flash) ∨
      (loadUint32Le frame.payload 0 = session.bytesWritten ∧
        ∃ status, FlashStep flash (blockCommand session frame) status flash' ∧
        session' = session.programmed frame (status != .done))) := by
  generalize ended : Result.returned (reply, next) = r at turn_
  cases turn_ with
  | hello guard => simp [isHello, data, protocolHello, protocolData] at guard
  | refused guard | unrecorded guard | recorded guard => simp [isBegin, data, protocolBegin, protocolData] at guard
  | notProgrammed guard _ away =>
    cases ended
    exact .inr ⟨isData_active guard, session, rfl, rfl, .inl ⟨away, rfl, rfl⟩⟩
  | block guard _ here call =>
    obtain ⟨failed, returned, same⟩ := Result.map_eq_returned.mp ended.symm
    cases same
    refine .inr ⟨isData_active guard, _, rfl, rfl, .inr ⟨here, ?_⟩⟩
    cases call with
    | done step rest => cases rest; cases returned; exact ⟨_, step, rfl⟩
    | failed step rest => cases rest; cases returned; exact ⟨_, step, rfl⟩
    | cut => cases returned
  | finished guard => simp [endAccepted, data, protocolEnd, protocolData] at guard
  | roleSet guard => simp [setRoleAccepted, data, protocolSetRole, protocolData] at guard
  | rejected => cases ended; exact .inl ⟨rfl, rfl, rfl⟩

theorem FrameTurn.of_end (end_ : frame.messageType = protocolEnd)
    (turn_ : FrameTurn flash session frame calls (.returned (reply, next)) flash') :
    (reply = frame.error ∧ next = .loop session ∧ flash' = flash) ∨
    endAccepted flash session frame = true ∧ ∃ appended,
      Exec FlashStep (appendMetadataRecord session.committed) flash calls (.returned appended) flash' ∧
      commitReply session frame appended = (reply, next) := by
  generalize ended : Result.returned (reply, next) = r at turn_
  cases turn_ with
  | hello guard => simp [isHello, end_, protocolHello, protocolEnd] at guard
  | refused guard | unrecorded guard | recorded guard => simp [isBegin, end_, protocolBegin, protocolEnd] at guard
  | notProgrammed guard | block guard => simp [isData, end_, protocolData, protocolEnd] at guard
  | finished guard append =>
    obtain ⟨appended, rfl, same⟩ := Result.map_eq_returned.mp ended.symm
    exact .inr ⟨guard, appended, append, same⟩
  | roleSet guard => simp [setRoleAccepted, end_, protocolSetRole, protocolEnd] at guard
  | rejected => cases ended; exact .inl ⟨rfl, rfl, rfl⟩

end

/-! ### Turns -/

section
variable {upload : Upload} {s t : DeviceState} {event : DeviceEvent}

/-- Only a frame leaves a session active. -/
theorem Active.of_step {holds : UpdateSession → Flash → Prop} (step : DeviceStep s event t)
    (frames : ∀ session frame reply session', s.mode = .updating session → event.input = .frame frame →
      FrameTurn s.flash session frame event.calls (.returned (reply, .loop session')) t.flash →
      session'.updateActive = true → holds session' t.flash) : Active holds t := by
  obtain ⟨flash, mode⟩ := s
  obtain ⟨flash', mode'⟩ := t
  obtain ⟨input, calls, output⟩ := event
  have turned := step.turned
  intro session' updating active
  dsimp only at turned updating frames ⊢
  subst updating
  cases turned with
  | bootUpdate => cases active
  | bootAttempt _ _ ended =>
    rcases attempt_cases ended with ⟨_, _, _, same⟩ | ⟨_, _, _, _, _, same⟩ | ⟨_, _, same⟩ <;> cases same
    cases active
  | confirm _ _ ended | request _ ended =>
    rcases call_cases ended with ⟨_, _, _, _, same⟩ | ⟨_, _, same⟩ <;> cases same
  | frame turn_ ended =>
    rcases frame_cases ended with ⟨reply, _, rfl, _, same⟩ | ⟨_, _, _, same⟩ | ⟨_, _, same⟩ <;> cases same
    exact frames _ _ reply _ rfl rfl turn_ active

theorem Active.of_idle {holds : UpdateSession → Flash → Prop} (step : DeviceStep s event t)
    (noFrame : ∀ frame, event.input ≠ .frame frame) : Active holds t := by
  refine Active.of_step step ?_
  intro _ frame _ _ _ input
  exact absurd input (noFrame frame)

/-- BEGIN keeps what READY has promised, and READY promises it. -/
theorem Upload.IsBegin.step {frame : ProtocolFrame} (begin_ : upload.IsBegin frame) (step : DeviceStep s event t)
    (input : event.input = .frame frame) : (upload.Begun s → upload.Begun t) ∧
    ∀ reply, event.output = some (.reply reply) → reply.messageType = protocolReady → upload.Begun t := by
  have ready : ∀ {session reply next}, FrameTurn s.flash session frame event.calls (.returned (reply, next)) t.flash →
      reply.messageType = protocolReady → ∃ session', next = .loop session' ∧ upload.Loaded session' ∧
        session'.bytesWritten = 0 ∧
        BlankSlot t.flash := by
    intro session reply next turn_ type
    obtain ⟨_, _, _, _, _, _, _, erase, _, rfl⟩ := turn_.of_ready type
    exact ⟨_, rfl, ⟨begin_.header, begin_.role⟩, rfl, fun a lo hi => eraseApplicationFlash_blank erase lo hi⟩
  constructor
  · -- an earlier READY stands: a BEGIN that is not answered READY keeps a blank slot blank
    intro begun
    refine Active.of_step step ?_
    intro session received reply session' mode same turn_ active
    rw [input] at same
    cases same
    rcases turn_.of_begin begin_.guard with type | ⟨header, role, written, active', blank⟩
    · obtain ⟨_, same, holds⟩ := ready turn_ type
      cases same
      exact holds
    · obtain ⟨_, none_, blank'⟩ := begun session mode (active'.symm.trans active)
      exact ⟨⟨header.trans begin_.header, role.trans begin_.role⟩, written.trans none_, blank blank'⟩
  · intro reply output type
    have turned := step.turned
    rw [output] at turned
    obtain ⟨session, received, next, mode, same, turn_, mode'⟩ := turned.of_reply
    rw [input] at same
    cases same
    obtain ⟨session', rfl, holds⟩ := ready turn_ type
    intro other updating _
    rw [mode'] at updating
    cases updating
    exact holds

theorem Upload.Begun.sending (begun : upload.Begun s) : upload.Sending 0 s := by
  intro session mode active
  obtain ⟨loaded, none_, blank⟩ := begun session mode active
  rw [none_]
  exact ⟨loaded, .inl rfl, .of_blank blank⟩

/-- The requests of the transfer: DATA at an offset inside the image. -/
theorem Upload.offset_data (upload : Upload) (sequence : Half) (offset : Nat) :
    loadUint32Le (upload.data sequence offset).payload 0 = BitVec.ofNat 32 offset := offset_dataFrame _ _ _

theorem Upload.block_data (upload : Upload) (sequence : Half) (offset : Nat) :
    (upload.data sequence offset).block = upload.block offset := block_dataFrame _ _ _

theorem Upload.data_here {session : UpdateSession} {sequence : Half} {offset : Nat}
    (inside : offset < upload.image.length) :
    loadUint32Le (upload.data sequence offset).payload 0 = session.bytesWritten ↔
      session.bytesWritten.toNat = offset := by
  have fits := upload.fits
  simp only [applicationFlashEnd, applicationFlashStart] at fits
  rw [upload.offset_data, ← BitVec.toNat_inj, BitVec.toNat_ofNat, Nat.mod_eq_of_lt (by omega)]
  exact eq_comm

theorem Upload.blockCommand_data {session : UpdateSession} (sequence : Half) {offset : Nat}
    (inside : offset < upload.image.length)
    (here : session.bytesWritten.toNat = offset) :
    blockCommand session (upload.data sequence offset) = upload.blockProgram offset := by
  have fits := upload.fits
  simp only [applicationFlashEnd, applicationFlashStart] at fits
  have address := @block_address session (by rw [here]; simp only [flashSize, applicationFlashStart]; omega)
  rw [blockCommand, address, here, upload.block_data]

/-- A block that is done moves the session to the next one. -/
theorem Upload.written_data {session : UpdateSession} (sequence : Half) {offset : Nat}
    (inside : offset < upload.image.length)
    (here : session.bytesWritten.toNat = offset) :
    (session.bytesWritten + BitVec.ofNat 32 (upload.data sequence offset).block.length).toNat =
      upload.next offset := by
  have fits := upload.fits
  simp only [applicationFlashEnd, applicationFlashStart] at fits
  obtain ⟨_, last, length⟩ := upload.next_of_lt inside
  rw [upload.block_data, BitVec.toNat_add, here, BitVec.toNat_ofNat]
  omega

/-- The session after a DATA frame at `earlier`, in a session that is at `offset` or one block further. -/
theorem FrameTurn.sending {session session' : UpdateSession} {reply : ProtocolFrame} {calls : List FlashCall}
    {flash flash' : Flash} {sequence : Half} {earlier offset : Nat} (within : offset ≤ upload.image.length)
    (inside : earlier < upload.image.length)
    (behind : earlier ≤ offset) (loaded : upload.Loaded session)
    (place : session.bytesWritten.toNat = offset ∨ session.bytesWritten.toNat = upload.next offset)
    (written : upload.Written session.bytesWritten.toNat flash)
    (turn_ : FrameTurn flash session (upload.data sequence earlier) calls (.returned (reply, .loop session')) flash') :
    upload.Loaded session' ∧
    (session'.bytesWritten.toNat = offset ∨ session'.bytesWritten.toNat = upload.next offset) ∧
    (session.bytesWritten.toNat = upload.next offset → session'.bytesWritten.toNat = upload.next offset) ∧
    upload.Written session'.bytesWritten.toNat flash' := by
  rcases turn_.of_data rfl with ⟨_, same, rfl⟩ | ⟨_, _, same, _, ⟨_, rfl, rfl⟩ | ⟨here, status, step, programmed⟩⟩
  · cases same
    exact ⟨loaded, place, id, written⟩
  · cases same
    exact ⟨loaded, place, id, written⟩
  cases same
  -- the block is at bytesWritten: it is the one that is being sent, and not past yet
  have at_ := (Upload.data_here inside).mp here
  obtain ⟨further, _⟩ := upload.next_of_lt inside
  have same : earlier = offset := by
    rcases place with place | place
    · omega
    · simp only [Upload.next] at place further
      omega
  subst same
  rw [Upload.blockCommand_data sequence inside at_] at step
  rw [at_] at written
  have after := written.program inside step
  -- only a call that is done moves bytesWritten
  by_cases done : status = .done
  · have bytes : session'.bytesWritten.toNat = upload.next earlier := by
      have failed : (status != .done) = false := by simp [done]
      rw [programmed, failed, UpdateSession.programmed_done]
      exact Upload.written_data sequence inside at_
    rw [if_pos done] at after
    refine ⟨?_, .inr bytes, fun _ => bytes, bytes ▸ after⟩
    rw [programmed]
    unfold UpdateSession.programmed
    split <;> exact loaded
  · have failed : (status != .done) = true := by simp [done]
    rw [failed, UpdateSession.programmed_failed] at programmed
    rw [if_neg done] at after
    subst programmed
    exact ⟨loaded, .inl at_, id, at_ ▸ after⟩

/-- DATA at the offset, or at one before it. -/
theorem Upload.Sending.data {sequence : Half} {earlier offset : Nat} (sending : upload.Sending offset s)
    (within : offset ≤ upload.image.length) (inside : earlier < upload.image.length) (behind : earlier ≤ offset)
    (step : DeviceStep s event t) (input : event.input = .frame (upload.data sequence earlier)) :
    upload.Sending offset t ∧ (upload.Past offset s → upload.Past offset t) := by
  have after : ∀ session frame reply session', s.mode = .updating session → event.input = .frame frame →
      FrameTurn s.flash session frame event.calls (.returned (reply, .loop session')) t.flash →
        session'.updateActive = true →
      session.updateActive = true ∧ upload.Loaded session' ∧
      (session'.bytesWritten.toNat = offset ∨ session'.bytesWritten.toNat = upload.next offset) ∧
      (session.bytesWritten.toNat = upload.next offset → session'.bytesWritten.toNat = upload.next offset) ∧
      upload.Written session'.bytesWritten.toNat t.flash := by
    intro session frame reply session' mode same turn_ active
    rw [input] at same
    cases same
    have before : session.updateActive = true := by
      rcases turn_.of_data rfl with ⟨_, same, _⟩ | ⟨before, _⟩
      · cases same; exact active
      · exact before
    obtain ⟨loaded, place, written⟩ := sending session mode before
    exact ⟨before, turn_.sending within inside behind loaded place written⟩
  constructor
  · refine Active.of_step step ?_
    intro session frame reply session' mode same turn_ active
    obtain ⟨_, loaded, place, _, written⟩ := after session frame reply session' mode same turn_ active
    exact ⟨loaded, place, written⟩
  · intro past
    refine Active.of_step step ?_
    intro session frame reply session' mode same turn_ active
    obtain ⟨before, _, _, kept, _⟩ := after session frame reply session' mode same turn_ active
    exact kept (past session mode before)

/-- The reply to DATA is an error, or says how far the session is. -/
theorem Upload.Sending.answer {sequence : Half} {offset : Nat} {reply : ProtocolFrame}
    (sending : upload.Sending offset s) (within : offset < upload.image.length) (step : DeviceStep s event t)
    (input : event.input = .frame (upload.data sequence offset))
    (output : event.output = some (.reply reply)) : reply.messageType = protocolError ∨
      ∃ written : Word, reply.payload = storeUint32Le written ∧
        (written.toNat = offset ∨ written.toNat = upload.next offset ∧ upload.Past offset t) := by
  have turned := step.turned
  rw [output] at turned
  obtain ⟨session, frame, next, mode, same, turn_, mode'⟩ := turned.of_reply
  rw [input] at same
  cases same
  rcases turn_.of_data rfl with ⟨rfl, _⟩ | ⟨active, session', rfl, rfl, _⟩
  · exact .inl rfl
  obtain ⟨loaded, place, written⟩ := sending session mode active
  obtain ⟨_, place', _⟩ := turn_.sending (Nat.le_of_lt within) within (Nat.le_refl _) loaded place written
  refine .inr ⟨session'.bytesWritten, rfl, place'.imp id fun further => ⟨further, ?_⟩⟩
  intro other updating _
  rw [mode'] at updating
  cases updating
  exact further

/-- Past the block at `offset` the session is at the next one. -/
theorem Upload.Sending.advance {offset : Nat} (sending : upload.Sending offset s) (past : upload.Past offset s) :
    upload.Sending (upload.next offset) s := by
  intro session mode active
  obtain ⟨loaded, _, written⟩ := sending session mode active
  exact ⟨loaded, .inl (past session mode active), written⟩

/-! ### The end of the update -/

/-- END keeps the image, and COMPLETE means that it is committed. -/
theorem Upload.end_step {sequence : Half} {k : Nat} (sending : upload.Sending upload.image.length s)
    (step : DeviceStep s event t) (input : event.input = .frame (endRequest sequence)) :
    upload.Sending upload.image.length t ∧
    ∀ reply, event.output = some (.reply reply) → reply.messageType = protocolComplete → Sound k s →
      k + recordPrograms event.calls < 2 ^ 31 → upload.Committed t := by
  constructor
  · refine Active.of_step step ?_
    intro session frame reply session' mode same turn_ active
    rw [input] at same
    cases same
    rcases turn_.of_end rfl with ⟨_, same, unchanged⟩ | ⟨_, appended, append, answer⟩
    · cases same
      rw [unchanged]
      exact sending session mode active
    · obtain ⟨_, _, rfl⟩ := commitReply_loop answer
      obtain ⟨loaded, place, written⟩ := sending session mode active
      exact ⟨loaded, place, written.congr fun a lo => append_unchanged append lo⟩
  · intro reply output type sound room
    have turned := step.turned
    rw [output] at turned
    obtain ⟨session, frame, next, mode, same, turn_, mode'⟩ := turned.of_reply
    rw [input] at same
    cases same
    obtain ⟨m, metadata, append, rfl, accepted | ⟨accepted, _⟩⟩ := turn_.of_complete type
    · obtain ⟨guard, rfl⟩ := accepted
      have active : session.updateActive = true := by
        simp only [endAccepted, Bool.and_eq_true] at guard
        exact guard.1.1.1.2
      obtain ⟨loaded, place, written⟩ := sending session mode active
      have whole : session.bytesWritten.toNat = upload.image.length := by
        rcases place with place | place
        · exact place
        · exact place.trans Upload.next_size
      rw [whole] at written
      -- endAccepted has compared bytesWritten with the size; the record is the newest one while the numbers last
      have stored := (appendTurn sound.holds room append).stored metadata rfl
      refine ⟨?_, (written.congr fun a lo => append_unchanged append lo).bytes_eq, _, stored, ?_⟩
      · intro other updating
        rw [mode'] at updating
        cases updating
      · have header := loaded.1
        refine ⟨rfl, ?_, ?_, ?_, loaded.2⟩
        · exact congrArg FirmwarePackageHeader.imageSize header
        · exact congrArg FirmwarePackageHeader.imageCrc32 header
        · exact congrArg FirmwarePackageHeader.firmwareVersion header
    · simp [setRoleAccepted, endRequest, protocolEnd, protocolSetRole] at accepted

/-- DATA and END do nothing in a session that is not active. -/
theorem FrameTurn.of_inactive {flash flash' : Flash} {session : UpdateSession} {frame : ProtocolFrame}
    {calls : List FlashCall} {r : Result (ProtocolFrame × Continuation)} (inactive : session.updateActive = false)
    (type : frame.messageType = protocolData ∨ frame.messageType = protocolEnd)
    (turn_ : FrameTurn flash session frame calls r flash') :
    flash' = flash ∧ r = .returned (frame.error, .loop session) := by
  cases turn_ with
  | hello guard =>
    rcases type with type | type <;> simp [isHello, type, protocolHello, protocolData, protocolEnd] at guard
  | refused guard | unrecorded guard | recorded guard =>
    rcases type with type | type <;> simp [isBegin, type, protocolBegin, protocolData, protocolEnd] at guard
  | notProgrammed guard | block guard =>
    rw [isData_active guard] at inactive
    cases inactive
  | finished guard => simp [endAccepted, inactive] at guard
  | roleSet guard =>
    rcases type with type | type <;> simp [setRoleAccepted, type, protocolSetRole, protocolData,
      protocolEnd] at guard
  | rejected => exact ⟨rfl, rfl⟩

/-- A boot or a confirmation keeps the fields that describe the image. -/
theorem Upload.Describes.record {m record : BootMetadata} {flash : Flash} {mode : Mode} {input : Input}
    (describes : upload.Describes m)
    (newest : newestRecord flash = some m) (turn_ : TurnRecord flash mode input record)
    (noFrame : ∀ frame, input ≠ .frame frame) (noRequest : input ≠ .requestUpdate) :
    upload.Describes (sealFor (newestRecord flash) record) := by
  cases turn_ with
  | attempt =>
    rw [bootMetadata_of_some newest]
    exact ⟨describes.state, describes.imageSize, describes.imageCrc32, describes.firmwareVersion, describes.appRole⟩
  | confirm newest' =>
    obtain rfl := Option.some.inj (newest.symm.trans newest')
    rw [confirmed_eq]
    exact ⟨describes.state, describes.imageSize, describes.imageCrc32, describes.firmwareVersion, describes.appRole⟩
  | request => exact absurd rfl noRequest
  | begins | ends | setsRole => exact absurd rfl (noFrame _)

/-- What the device does on its own leaves the App slot alone. -/
theorem DeviceStep.slot_of_idle (step : DeviceStep s event t) (noFrame : ∀ frame, event.input ≠ .frame frame)
    {a : Nat} (lo : applicationFlashStart ≤ a) : t.flash a = s.flash a := by
  obtain ⟨flash, mode⟩ := s
  obtain ⟨flash', mode'⟩ := t
  obtain ⟨input, calls, output⟩ := event
  have turned := step.turned
  dsimp only at turned noFrame ⊢
  cases turned with
  | powerCut | bootUpdate | confirmRefused => rfl
  | bootAttempt _ append | confirm _ append | request append => exact append_unchanged append lo
  | frame => exact absurd rfl (noFrame _)

theorem Upload.Committed.idle_step {k : Nat} (committed : upload.Committed s) (step : DeviceStep s event t)
    (noFrame : ∀ frame, event.input ≠ .frame frame) (noRequest : event.input ≠ .requestUpdate) (sound : Sound k s)
    (room : k + recordPrograms event.calls < 2 ^ 31) : upload.Committed t := by
  obtain ⟨m, newest, describes⟩ := committed.record
  refine ⟨Active.of_idle step noFrame, ?_, ?_⟩
  · rw [← committed.image, Flash.length_bytes]
    exact Flash.bytes_congr fun i _ => step.slot_of_idle noFrame (Nat.le_add_right _ i)
  · rcases (step.turned.registerTurn sound room).atomic with same | ⟨record, turn_, new⟩
    · exact ⟨m, same.trans newest, describes⟩
    · exact ⟨_, new, describes.record newest turn_ noFrame noRequest⟩

theorem Upload.Committed.frame_step {frame : ProtocolFrame} (committed : upload.Committed s)
    (step : DeviceStep s event t) (input : event.input = .frame frame)
    (type : frame.messageType = protocolData ∨ frame.messageType = protocolEnd) :
    upload.Committed t := by
  have turned := step.turned
  obtain ⟨flash, mode⟩ := s
  obtain ⟨flash', mode'⟩ := t
  obtain ⟨input', calls, output⟩ := event
  dsimp only at turned input
  subst input
  cases turned with
  | @frame session _ _ _ _ _ _ turn_ ended =>
    have inactive : session.updateActive = false := by
      cases active : session.updateActive with
      | false => rfl
      | true => exact (committed.idle session rfl active).elim
    obtain ⟨rfl, rfl⟩ := turn_.of_inactive inactive type
    cases ended
    exact committed

end

end Cc1310Firmware.Bootloader
