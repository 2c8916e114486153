import Cc1310Firmware.Bootloader.SessionIntegrity

/-! The metadata register of a running device.

`Sound` is the invariant that every property of whole device runs needs: the
journal is a register, and the progress of an active session is an offset that
the flash has. A turn changes the register at most once, to one record that is
determined by the state it starts in.
-/

set_option autoImplicit false

namespace Cc1310Firmware.Bootloader
open CrashProgram LabelledRun

structure Sound (k : Nat) (state : DeviceState) : Prop where
  holds : Holds k state.flash (newestRecord state.flash)
  progress : ∀ session, state.mode = .updating session → session.updateActive = true →
    session.bytesWritten.toNat ≤ flashSize - applicationFlashStart

/-- The records that a turn may append, each under its guard. -/
inductive TurnRecord (flash : Flash) : Mode → Input → BootMetadata → Prop where
  | attempt {stack : FirmwarePackageHeader} : bootsApplication flash (bootMetadata flash) = true →
      TurnRecord flash .reset (.boot stack) (bootMetadata flash).attempted
  | confirm {bootAttemptId : Word} {metadata : BootMetadata} : newestRecord flash = some metadata →
      metadata.bootAttemptId = bootAttemptId → metadata.confirmedBootAttemptId ≠ bootAttemptId →
      TurnRecord flash .running (.confirmBoot bootAttemptId) (metadata.confirmed bootAttemptId)
  | request : TurnRecord flash .running .requestUpdate (updateRequest flash)
  | begins {session : UpdateSession} {frame : ProtocolFrame} : isBegin frame = true →
      isRefusedBegin (session.withHeader frame) = false →
      TurnRecord flash (.updating session) (.frame frame) setDefaultMetadata
  | ends {session : UpdateSession} {frame : ProtocolFrame} : endAccepted flash session frame = true →
      TurnRecord flash (.updating session) (.frame frame) session.committed
  | setsRole {session : UpdateSession} {frame : ProtocolFrame} : setRoleAccepted flash session frame = true →
      TurnRecord flash (.updating session) (.frame frame) (session.withRole frame)

theorem confirmation_some {flash : Flash} {bootAttemptId : Word} {record : BootMetadata}
    (accepted : confirmation flash bootAttemptId = some record) :
    TurnRecord flash .running (.confirmBoot bootAttemptId) record := by
  unfold confirmation at accepted
  obtain ⟨metadata, newest, rest⟩ := Option.bind_eq_some_iff.mp accepted
  split at rest
  case isTrue => cases rest
  case isFalse guard =>
    cases rest
    simp only [Bool.or_eq_true, bne_iff_ne, ne_eq, beq_iff_eq, not_or, Decidable.not_not] at guard
    exact .confirm newest guard.1 guard.2

/-- The outputs that promise that the turn's record is stored. -/
def Output.Acknowledges : Output → Prop
  | .silent => False
  | .handoff _ => True
  | .code value => value = 0
  | .reply frame => frame.messageType = protocolReady ∨ frame.messageType = protocolComplete

/-- What a turn does to the register. -/
structure RegisterTurn (k : Nat) (flash : Flash) (mode : Mode) (input : Input) (calls : List FlashCall)
    (output : Option Output) (flash' : Flash) : Prop where
  holds : Holds (k + recordPrograms calls) flash' (newestRecord flash')
  atomic : newestRecord flash' = newestRecord flash ∨
    ∃ m, TurnRecord flash mode input m ∧ newestRecord flash' = some (sealFor (newestRecord flash) m)
  stored : ∀ out, output = some out → out.Acknowledges →
    ∃ m, TurnRecord flash mode input m ∧ newestRecord flash' = some (sealFor (newestRecord flash) m)

section
variable {k : Nat} {flash flash' : Flash} {m : BootMetadata} {calls : List FlashCall} {r : AppendResult}

/-- An append to a sound journal. -/
structure AppendTurn (k : Nat) (flash : Flash) (m : BootMetadata) (calls : List FlashCall) (r : AppendResult)
    (flash' : Flash) : Prop where
  holds : Holds (k + recordPrograms calls) flash' (newestRecord flash')
  atomic : newestRecord flash' = newestRecord flash ∨ newestRecord flash' = some (sealFor (newestRecord flash) m)
  stored : ∀ m', r = .returned (m', 0) → newestRecord flash' = some (sealFor (newestRecord flash) m)
  returned : ∀ m' code, r = .returned (m', code) → m' = sealFor (newestRecord flash) m

theorem recordPrograms_append_le (holds : Holds k flash (newestRecord flash))
    (append : Exec FlashStep (appendMetadataRecord m) flash calls r flash') : recordPrograms calls ≤ 1 :=
  (append_appended holds _ _ _ append).count

theorem appendTurn (holds : Holds k flash (newestRecord flash)) (room : k + recordPrograms calls < 2 ^ 31)
    (append : Exec FlashStep (appendMetadataRecord m) flash calls r flash') :
    AppendTurn k flash m calls r flash' := by
  have appended := append_appended holds _ _ _ append
  obtain ⟨value, holds', atomic, stored⟩ := appended.register room
  have newest := holds'.newestRecord_eq
  subst newest
  exact ⟨holds', atomic, stored, fun m' code ended => (appended.returned m' code ended).1⟩

/-- Calls that stay clear of the bootloader and its journal. -/
def InApplication (calls : List FlashCall) : Prop :=
  ∀ c ∈ calls, ∀ a, c.command.Touches a → applicationFlashStart ≤ a

theorem InApplication.recordPrograms_eq (application : InApplication calls) : recordPrograms calls = 0 := by
  rw [recordPrograms, List.countP_eq_zero]
  intro c member body
  cases command : c.command with
  | sectorErase address => simp [command, FlashCommand.isRecordBody] at body
  | program address data =>
    simp only [command, FlashCommand.isRecordBody, Bool.and_eq_true, decide_eq_true_eq, beq_iff_eq,
      sizeofBootMetadata] at body
    have touched : c.command.Touches address := by
      rw [command]
      simp only [FlashCommand.Touches]
      omega
    have := application c member address touched
    omega

theorem InApplication.register {α : Type} {p : FlashProg α} {r : Result α} (application : InApplication calls)
    (holds : Holds k flash (newestRecord flash)) (exec : Exec FlashStep p flash calls r flash') :
    Holds (k + recordPrograms calls) flash' (newestRecord flash') ∧ newestRecord flash' = newestRecord flash := by
  have holds' : Holds k flash' (newestRecord flash) := by
    apply holds.congr
    intro a _ below
    apply exec_unchanged exec
    intro c member touched
    have := application c member a touched
    omega
  have newest := holds'.newestRecord_eq
  rw [application.recordPrograms_eq, newest]
  exact ⟨holds', rfl⟩

theorem inApplication_erase {r : Result Int} (erase : Exec FlashStep eraseApplicationFlash flash calls r flash') :
    InApplication calls :=
  fun c member _ touched => ((erase.only eraseApplicationFlash_only c member).touches touched).1

/-- The address of a block does not wrap around. -/
theorem block_address {session : UpdateSession}
    (progress : session.bytesWritten.toNat ≤ flashSize - applicationFlashStart) :
    (BitVec.ofNat 32 applicationFlashStart + session.bytesWritten).toNat =
      applicationFlashStart + session.bytesWritten.toNat := by
  rw [BitVec.toNat_add]
  simp only [flashSize, applicationFlashStart] at progress ⊢
  exact Nat.mod_eq_of_lt (by simp only [BitVec.toNat_ofNat]; omega)

theorem inApplication_block {session : UpdateSession} {frame : ProtocolFrame} {status : Status}
    (progress : session.bytesWritten.toNat ≤ flashSize - applicationFlashStart) :
    InApplication [⟨flash, blockCommand session frame, status⟩] := by
  intro c member a touched
  rw [List.mem_singleton.mp member] at touched
  simp only [blockCommand, FlashCommand.Touches, block_address progress] at touched
  omega

end

/-! ## Frames -/

section
variable {k : Nat} {flash flash' : Flash} {session : UpdateSession} {frame : ProtocolFrame} {calls : List FlashCall}
  {r : Result (ProtocolFrame × Continuation)}

theorem isData_active (guard : isData session frame = true) : session.updateActive = true := by
  simp only [isData, Bool.and_eq_true] at guard
  exact guard.1.2

theorem frame_output {out : Output} (ended : (conclude afterFrame r).1 = some out) :
    ∃ reply next, r = .returned (reply, next) ∧ out = .reply reply := by
  rcases r with ⟨reply, next⟩ | _
  · cases next <;> cases ended <;> exact ⟨reply, _, rfl, rfl⟩
  · cases ended

/-- The replies of the loop that promise nothing. -/
def IsPlainReply (reply : ProtocolFrame) : Prop :=
  reply.messageType ≠ protocolReady ∧ reply.messageType ≠ protocolComplete

theorem isPlainReply_error (frame : ProtocolFrame) : IsPlainReply frame.error := by
  simp [IsPlainReply, ProtocolFrame.error, ProtocolFrame.reply, protocolError, protocolReady, protocolComplete]

theorem isPlainReply_acknowledge {session' : UpdateSession} {reply : ProtocolFrame} {next : Continuation}
    (same : acknowledge session' frame = (reply, next)) : IsPlainReply reply := by
  cases next with
  | systemReset => simp [acknowledge] at same
  | loop session'' =>
    rcases (acknowledge_loop same).1 with type | type <;>
      simp [IsPlainReply, type, protocolAck, protocolNack, protocolReady, protocolComplete]

theorem not_acknowledged (plain : ∀ reply next, r = .returned (reply, next) → IsPlainReply reply) {out : Output}
    (ended : (conclude afterFrame r).1 = some out) : ¬ out.Acknowledges := by
  obtain ⟨reply, next, returned, rfl⟩ := frame_output ended
  obtain ⟨notReady, notComplete⟩ := plain reply next returned
  rintro (ready | complete)
  · exact notReady ready
  · exact notComplete complete

/-- An append that ends a frame: the reply is plain, unless it succeeded. -/
theorem AppendTurn.registerTurn {m : BootMetadata} {result : AppendResult}
    {answer : BootMetadata × Int → ProtocolFrame × Continuation}
    (appended : AppendTurn k flash m calls result flash')
    (record : TurnRecord flash (.updating session) (.frame frame) m)
    (plain : ∀ m' code, result = .returned (m', code) → code ≠ 0 → IsPlainReply (answer (m', code)).1) :
    RegisterTurn k flash (.updating session) (.frame frame) calls
      (conclude afterFrame (result.map answer)).1 flash' := by
  refine ⟨appended.holds, appended.atomic.imp id fun new => ⟨m, record, new⟩, ?_⟩
  intro out ended acknowledges
  refine ⟨m, record, ?_⟩
  rcases result with ⟨m', code⟩ | _
  · by_cases zero : code = 0
    · subst zero
      exact appended.stored m' rfl
    · refine absurd acknowledges (not_acknowledged (fun reply next returned => ?_) ended)
      have plain' := plain m' code rfl zero
      rwa [Result.returned.inj returned] at plain'
  · cases ended

/-- The register after a frame. -/
theorem FrameTurn.registerTurn (turn_ : FrameTurn flash session frame calls r flash')
    (sound : Sound k ⟨flash, .updating session⟩) (room : k + recordPrograms calls < 2 ^ 31) :
    RegisterTurn k flash (.updating session) (.frame frame) calls (conclude afterFrame r).1 flash' := by
  have holds := sound.holds
  dsimp only at holds
  -- A path that leaves the journal alone.
  have quiet : Holds (k + recordPrograms calls) flash' (newestRecord flash') ∧
    newestRecord flash' = newestRecord flash →
      (∀ reply next, r = .returned (reply, next) → IsPlainReply reply) →
      RegisterTurn k flash (.updating session) (.frame frame) calls (conclude afterFrame r).1 flash' :=
    fun same plain => ⟨same.1, .inl same.2, fun out ended acknowledges =>
      absurd acknowledges (not_acknowledged plain ended)⟩
  have unchanged : Holds (k + recordPrograms []) flash (newestRecord flash) ∧
      newestRecord flash = newestRecord flash :=
    ⟨by simpa using holds, rfl⟩
  have commit_ : ∀ m' code, code ≠ 0 → IsPlainReply (commitReply session frame (m', code)).1 := by
    intro m' code nonzero
    simp only [commitReply, bne_iff_ne, ne_eq, nonzero, not_false_eq_true, if_true]
    exact isPlainReply_error frame
  cases turn_ with
  | hello guard =>
    apply quiet unchanged
    rintro _ _ ⟨⟩
    simp [IsPlainReply, ProtocolFrame.reply, protocolInfo, protocolReady, protocolComplete]
  | refused guard _ | rejected =>
    apply quiet unchanged
    rintro _ _ ⟨⟩
    exact isPlainReply_error frame
  | unrecorded guard accepted append unrecorded =>
    apply (appendTurn holds room append).registerTurn (.begins guard accepted)
    intro m' code _ _
    exact isPlainReply_error frame
  | recorded guard accepted append erase =>
    have record : TurnRecord flash (.updating session) (.frame frame) setDefaultMetadata := .begins guard accepted
    rw [recordPrograms_append, ← Nat.add_assoc] at *
    have appended := appendTurn holds (by omega) append
    obtain ⟨holds', same⟩ := (inApplication_erase erase).register appended.holds erase
    have stored := appended.stored _ rfl
    rw [← same] at stored
    exact ⟨by rwa [recordPrograms_append, ← Nat.add_assoc], .inr ⟨_, record, stored⟩,
      fun _ _ _ => ⟨_, record, stored⟩⟩
  | notProgrammed guard wellFormed elsewhere =>
    apply quiet unchanged
    intro reply next ended
    exact isPlainReply_acknowledge (Result.returned.inj ended)
  | block guard wellFormed here exec =>
    have progress := sound.progress session rfl (isData_active guard)
    apply quiet ((inApplication_block progress).register holds exec)
    intro reply next ended
    obtain ⟨failed, _, same⟩ := Result.map_eq_returned.mp ended
    exact isPlainReply_acknowledge same
  | finished guard append =>
    exact (appendTurn holds room append).registerTurn (.ends guard) fun m' code _ => commit_ m' code
  | roleSet guard append =>
    exact (appendTurn holds room append).registerTurn (.setsRole guard) fun m' code _ => commit_ m' code

/-- The progress of a session after a frame. -/
theorem FrameTurn.progress {session' : UpdateSession} {reply : ProtocolFrame}
    (turn_ : FrameTurn flash session frame calls (.returned (reply, .loop session')) flash')
    (sound : Sound k ⟨flash, .updating session⟩) (active : session'.updateActive = true) :
    session'.bytesWritten.toNat ≤ flashSize - applicationFlashStart := by
  have old := sound.progress session rfl
  generalize ended : Result.returned (reply, Continuation.loop session') = r at turn_
  cases turn_ with
  | hello | refused | rejected => cases ended; exact old active
  | unrecorded =>
    obtain ⟨appended, _, same⟩ := Result.map_eq_returned.mp ended.symm
    cases same
    exact old active
  | recorded =>
    obtain ⟨code, _, same⟩ := Result.map_eq_returned.mp ended.symm
    rcases beginReply_loop same with ⟨_, _, rfl⟩ | ⟨_, _, rfl⟩
    · exact old active
    · exact Nat.zero_le _
  | notProgrammed => cases ended; exact old active
  | block guard wellFormed here exec =>
    have progress := old (isData_active guard)
    obtain ⟨failed, returned, same⟩ := Result.map_eq_returned.mp ended.symm
    cases same
    cases failed with
    | true => exact progress
    | false =>
      -- FlashProgram succeeded, so the block lies in the flash.
      have inside := (exec_issue_done (returned ▸ exec)).1
      simp only [blockCommand, FlashCommand.InFlash, block_address progress] at inside
      simp only [UpdateSession.programmed_done, BitVec.toNat_add, BitVec.toNat_ofNat]
      simp only [flashSize, applicationFlashStart] at *
      omega
  | finished | roleSet =>
    obtain ⟨appended, _, same⟩ := Result.map_eq_returned.mp ended.symm
    obtain ⟨_, _, rfl⟩ := commitReply_loop same
    exact old active

end

/-! ## Turns and runs -/

section
variable {k : Nat} {flash flash' : Flash} {mode mode' : Mode} {input : Input} {calls : List FlashCall}
  {output : Option Output}

/-- An append that a boot or a call of the running application makes. -/
theorem AppendTurn.registerTurn_of_record {m : BootMetadata} {result : AppendResult}
    (appended : AppendTurn k flash m calls result flash') (record : TurnRecord flash mode input m)
    (promise : ∀ out, output = some out → out.Acknowledges → ∃ m', result = .returned (m', 0)) :
    RegisterTurn k flash mode input calls output flash' := by
  refine ⟨appended.holds, appended.atomic.imp id fun new => ⟨m, record, new⟩, ?_⟩
  intro out ended acknowledges
  obtain ⟨m', returned⟩ := promise out ended acknowledges
  exact ⟨m, record, appended.stored m' returned⟩

theorem Turned.registerTurn (turned : Turned flash mode input calls output flash' mode')
    (sound : Sound k ⟨flash, mode⟩)
    (room : k + recordPrograms calls < 2 ^ 31) : RegisterTurn k flash mode input calls output flash' := by
  have holds := sound.holds
  dsimp only at holds
  have idle : ∀ {out : Output}, ¬ out.Acknowledges → RegisterTurn k flash mode input [] (some out) flash := by
    intro out plain
    refine ⟨by simpa using holds, .inl rfl, ?_⟩
    rintro _ ⟨⟩ acknowledges
    exact absurd acknowledges plain
  cases turned with
  | powerCut | bootUpdate => exact idle id
  | confirmRefused => exact idle (by simp [Output.Acknowledges])
  | bootAttempt boots append ended =>
    apply (appendTurn holds room append).registerTurn_of_record (.attempt boots)
    rintro out rfl acknowledges
    rcases attempt_cases ended with ⟨m, rfl, _, _⟩ | ⟨_, _, _, _, ⟨⟩, _⟩ | ⟨_, ⟨⟩, _⟩
    · exact ⟨m, rfl⟩
    · exact acknowledges.elim
  | confirm accepted append ended =>
    apply (appendTurn holds room append).registerTurn_of_record (confirmation_some accepted)
    rintro out rfl acknowledges
    rcases call_cases ended with ⟨m, code, rfl, ⟨⟩, _⟩ | ⟨_, ⟨⟩, _⟩
    exact ⟨m, by rw [show code = 0 from acknowledges]⟩
  | request append ended =>
    apply (appendTurn holds room append).registerTurn_of_record .request
    rintro out rfl acknowledges
    rcases call_cases ended with ⟨m, code, rfl, ⟨⟩, _⟩ | ⟨_, ⟨⟩, _⟩
    exact ⟨m, by rw [show code = 0 from acknowledges]⟩
  | frame turn_ ended =>
    have frame_ := turn_.registerTurn sound room
    rwa [ended] at frame_

theorem Turned.sound (turned : Turned flash mode input calls output flash' mode') (sound : Sound k ⟨flash, mode⟩)
    (room : k + recordPrograms calls < 2 ^ 31) : Sound (k + recordPrograms calls) ⟨flash', mode'⟩ := by
  refine ⟨(turned.registerTurn sound room).holds, ?_⟩
  cases turned with
  | powerCut | confirmRefused => rintro _ ⟨⟩
  | bootUpdate => rintro _ ⟨⟩ active; cases active
  | bootAttempt _ _ ended =>
    rcases attempt_cases ended with ⟨_, _, _, rfl⟩ | ⟨_, _, _, _, _, rfl⟩ | ⟨_, _, rfl⟩
    · rintro _ ⟨⟩
    · rintro _ ⟨⟩ active; cases active
    · rintro _ ⟨⟩
  | confirm _ _ ended | request _ ended =>
    rcases call_cases ended with ⟨_, _, _, _, rfl⟩ | ⟨_, _, rfl⟩ <;> rintro _ ⟨⟩
  | frame turn_ ended =>
    rcases frame_cases ended with ⟨_, _, rfl, _, rfl⟩ | ⟨_, _, _, rfl⟩ | ⟨_, _, rfl⟩
    · rintro _ ⟨⟩ active; exact turn_.progress sound active
    · rintro _ ⟨⟩
    · rintro _ ⟨⟩

theorem append_returned {m m' : BootMetadata} {code : Int}
    (append : Exec FlashStep (appendMetadataRecord m) flash calls (.returned (m', code)) flash') :
    m' = sealFor (newestRecord flash) m :=
  (append_result m flash _ _ _ append m' code rfl).1

/-- The metadata of an update loop that goes on. -/
theorem FrameTurn.metadata {session session' : UpdateSession} {frame reply : ProtocolFrame}
    (turn_ : FrameTurn flash session frame calls (.returned (reply, .loop session')) flash') :
    session'.metadata = session.metadata ∨
    ∃ m, TurnRecord flash (.updating session) (.frame frame) m ∧
      session'.metadata = sealFor (newestRecord flash) m := by
  generalize ended : Result.returned (reply, Continuation.loop session') = r at turn_
  cases turn_ with
  | hello | refused | rejected => cases ended; exact .inl rfl
  | unrecorded guard accepted append =>
    obtain ⟨appended, rfl, same⟩ := Result.map_eq_returned.mp ended.symm
    cases same
    exact .inr ⟨_, .begins guard accepted, append_returned append⟩
  | recorded guard accepted append =>
    obtain ⟨code, _, same⟩ := Result.map_eq_returned.mp ended.symm
    have record : TurnRecord flash (.updating session) (.frame frame) setDefaultMetadata := .begins guard accepted
    rcases beginReply_loop same with ⟨_, _, rfl⟩ | ⟨_, _, rfl⟩ <;> exact .inr ⟨_, record, append_returned append⟩
  | notProgrammed => cases ended; exact .inl rfl
  | block =>
    obtain ⟨failed, _, same⟩ := Result.map_eq_returned.mp ended.symm
    cases same
    cases failed <;> exact .inl rfl
  | finished guard append =>
    obtain ⟨appended, rfl, same⟩ := Result.map_eq_returned.mp ended.symm
    obtain ⟨_, _, rfl⟩ := commitReply_loop same
    exact .inr ⟨_, .ends guard, append_returned append⟩
  | roleSet guard append =>
    obtain ⟨appended, rfl, same⟩ := Result.map_eq_returned.mp ended.symm
    obtain ⟨_, _, rfl⟩ := commitReply_loop same
    exact .inr ⟨_, .setsRole guard, append_returned append⟩

/-- The metadata of an update loop comes from the boot, from the loop before,
or from the record of the turn. -/
theorem Turned.metadata {session' : UpdateSession}
    (turned : Turned flash mode input calls output flash' (.updating session')) :
    (mode = .reset ∧ session'.metadata = bootMetadata flash) ∨
    (∃ session, mode = .updating session ∧ session'.metadata = session.metadata) ∨
    ∃ m, TurnRecord flash mode input m ∧ session'.metadata = sealFor (newestRecord flash) m := by
  cases turned with
  | bootUpdate => exact .inl ⟨rfl, rfl⟩
  | bootAttempt boots append ended =>
    rcases attempt_cases ended with ⟨_, _, _, same⟩ | ⟨_, _, _, rfl, _, same⟩ | ⟨_, _, same⟩ <;> cases same
    exact .inr (.inr ⟨_, .attempt boots, append_returned append⟩)
  | confirm _ _ ended | request _ ended =>
    rcases call_cases ended with ⟨_, _, _, _, same⟩ | ⟨_, _, same⟩ <;> cases same
  | frame turn_ ended =>
    rcases frame_cases ended with ⟨_, _, rfl, _, same⟩ | ⟨_, _, _, same⟩ | ⟨_, _, same⟩ <;> cases same
    rcases turn_.metadata with same | record
    · exact .inr (.inl ⟨_, rfl, same⟩)
    · exact .inr (.inr record)

end

/-- A frame is answered READY on one path only. -/
theorem FrameTurn.of_ready {flash flash' : Flash} {session : UpdateSession} {frame reply : ProtocolFrame}
    {calls : List FlashCall} {next : Continuation}
    (turn_ : FrameTurn flash session frame calls (.returned (reply, next)) flash')
    (ready : reply.messageType = protocolReady) :
    ∃ first metadata recorded rest, isBegin frame = true ∧ isRefusedBegin (session.withHeader frame) = false ∧
      Exec FlashStep (appendMetadataRecord setDefaultMetadata) flash first (.returned (metadata, 0)) recorded ∧
      Exec FlashStep eraseApplicationFlash recorded rest (.returned 0) flash' ∧ calls = first ++ rest ∧
      next = .loop { session.withHeader frame with metadata := metadata, bytesWritten := 0, updateActive := true } := by
  have error : frame.error.messageType ≠ protocolReady := (isPlainReply_error frame).1
  generalize ended : Result.returned (reply, next) = r at turn_
  cases turn_ with
  | hello => cases ended; simp [ProtocolFrame.reply, protocolInfo, protocolReady] at ready
  | refused | rejected => cases ended; exact absurd ready error
  | unrecorded =>
    obtain ⟨appended, _, same⟩ := Result.map_eq_returned.mp ended.symm
    cases same
    exact absurd ready error
  | recorded guard accepted append erase =>
    obtain ⟨code, rfl, same⟩ := Result.map_eq_returned.mp ended.symm
    cases next with
    | systemReset => simp only [beginReply] at same; split at same <;> cases same
    | loop session' =>
      rcases beginReply_loop same with ⟨_, rfl, _⟩ | ⟨rfl, _, rfl⟩
      · exact absurd ready error
      · exact ⟨_, _, _, _, guard, accepted, append, erase, rfl, rfl⟩
  | notProgrammed => exact absurd ready (isPlainReply_acknowledge (Result.returned.inj ended).symm).1
  | block =>
    obtain ⟨failed, _, same⟩ := Result.map_eq_returned.mp ended.symm
    exact absurd ready (isPlainReply_acknowledge same).1
  | finished | roleSet =>
    obtain ⟨appended, _, same⟩ := Result.map_eq_returned.mp ended.symm
    simp only [commitReply] at same
    split at same <;> cases same
    · exact absurd ready error
    · simp [ProtocolFrame.reply, protocolComplete, protocolReady] at ready

/-- A frame is answered COMPLETE after an END or SET_ROLE whose record was appended. -/
theorem FrameTurn.of_complete {flash flash' : Flash} {session : UpdateSession} {frame reply : ProtocolFrame}
    {calls : List FlashCall} {next : Continuation}
    (turn_ : FrameTurn flash session frame calls (.returned (reply, next)) flash')
    (complete : reply.messageType = protocolComplete) :
    ∃ m metadata, Exec FlashStep (appendMetadataRecord m) flash calls (.returned (metadata, 0)) flash' ∧
      next = .systemReset ∧ (endAccepted flash session frame = true ∧ m = session.committed ∨
        setRoleAccepted flash session frame = true ∧ m = session.withRole frame) := by
  have error : frame.error.messageType ≠ protocolComplete := (isPlainReply_error frame).2
  -- COMPLETE is the reply of a commit whose append returned 0, and of nothing else
  have committed : ∀ appended, commitReply session frame appended = (reply, next) →
      appended.2 = 0 ∧ next = .systemReset := by
    intro appended same
    unfold commitReply at same
    split at same
    case isTrue => cases same; exact absurd complete error
    case isFalse done => cases same; exact ⟨by simpa using done, rfl⟩
  generalize ended : Result.returned (reply, next) = r at turn_
  cases turn_ with
  | hello => cases ended; simp [ProtocolFrame.reply, protocolInfo, protocolComplete] at complete
  | refused | rejected => cases ended; exact absurd complete error
  | unrecorded =>
    obtain ⟨appended, _, same⟩ := Result.map_eq_returned.mp ended.symm
    cases same
    exact absurd complete error
  | recorded =>
    obtain ⟨code, rfl, same⟩ := Result.map_eq_returned.mp ended.symm
    simp only [beginReply] at same
    split at same <;> cases same
    · exact absurd complete error
    · simp [ProtocolFrame.reply, protocolReady, protocolComplete] at complete
  | notProgrammed => exact absurd complete (isPlainReply_acknowledge (Result.returned.inj ended).symm).2
  | block =>
    obtain ⟨failed, _, same⟩ := Result.map_eq_returned.mp ended.symm
    exact absurd complete (isPlainReply_acknowledge same).2
  | finished guard append =>
    obtain ⟨⟨metadata, code⟩, rfl, same⟩ := Result.map_eq_returned.mp ended.symm
    obtain ⟨rfl, reset⟩ := committed _ same
    exact ⟨_, metadata, append, reset, .inl ⟨guard, rfl⟩⟩
  | roleSet guard append =>
    obtain ⟨⟨metadata, code⟩, rfl, same⟩ := Result.map_eq_returned.mp ended.symm
    obtain ⟨rfl, reset⟩ := committed _ same
    exact ⟨_, metadata, append, reset, .inr ⟨guard, rfl⟩⟩

/-- Only a boot attempt hands over to the application. -/
theorem Turned.of_handoff {flash flash' : Flash} {mode mode' : Mode} {input : Input} {calls : List FlashCall}
    {handoff : BootHandoff} (turned : Turned flash mode input calls (some (.handoff handoff)) flash' mode') :
    ∃ stack m, mode = .reset ∧ input = .boot stack ∧ bootsApplication flash (bootMetadata flash) = true ∧
      Exec FlashStep (appendMetadataRecord (bootMetadata flash).attempted) flash calls (.returned (m, 0)) flash' ∧
      handoff = ⟨bootHandoffMagic, m.bootAttemptId, m.appRole⟩ ∧ mode' = .running := by
  generalize out : some (Output.handoff handoff) = output at turned
  cases turned with
  | powerCut | bootUpdate | confirmRefused => cases out
  | bootAttempt boots append ended =>
    rcases attempt_cases ended with ⟨m, rfl, output, rfl⟩ | ⟨_, _, _, _, output, _⟩ | ⟨_, output, _⟩ <;>
      rw [output] at out <;> cases out
    exact ⟨_, m, rfl, rfl, boots, append, rfl, rfl⟩
  | confirm _ _ ended | request _ ended =>
    rcases call_cases ended with ⟨_, _, _, output, _⟩ | ⟨_, output, _⟩ <;> rw [output] at out <;> cases out
  | frame _ ended =>
    rcases frame_cases ended with ⟨_, _, _, output, _⟩ | ⟨_, _, output, _⟩ | ⟨_, output, _⟩ <;>
      rw [output] at out <;> cases out

/-- Only the update loop sends frames. -/
theorem Turned.of_reply {flash flash' : Flash} {mode mode' : Mode} {input : Input} {calls : List FlashCall}
    {reply : ProtocolFrame} (turned : Turned flash mode input calls (some (.reply reply)) flash' mode') :
    ∃ session frame next, mode = .updating session ∧ input = .frame frame ∧
      FrameTurn flash session frame calls (.returned (reply, next)) flash' ∧
        mode' = (afterFrame (reply, next)).2 := by
  generalize out : some (Output.reply reply) = output at turned
  cases turned with
  | powerCut | bootUpdate | confirmRefused => cases out
  | bootAttempt _ _ ended =>
    rcases attempt_cases ended with ⟨_, _, output, _⟩ | ⟨_, _, _, _, output, _⟩ | ⟨_, output, _⟩ <;>
      rw [output] at out <;> cases out
  | confirm _ _ ended | request _ ended =>
    rcases call_cases ended with ⟨_, _, _, output, _⟩ | ⟨_, output, _⟩ <;> rw [output] at out <;> cases out
  | frame turn_ ended =>
    rcases frame_cases ended with ⟨_, _, rfl, output, rfl⟩ | ⟨_, rfl, output, rfl⟩ | ⟨_, output, _⟩ <;>
      rw [output] at out <;> cases out
    · exact ⟨_, _, _, rfl, rfl, turn_, rfl⟩
    · exact ⟨_, _, _, rfl, rfl, turn_, rfl⟩

theorem bootMetadata_of_some {flash : Flash} {m : BootMetadata} (newest : newestRecord flash = some m) :
    bootMetadata flash = m := by
  rw [bootMetadata, newest]; rfl

/-- The number of journal records that the run began to program. -/
def recordsBegun (history : List DeviceTransition) : Nat :=
  (history.map fun x => recordPrograms x.event.calls).sum

@[simp] theorem recordsBegun_append (history later : List DeviceTransition) :
    recordsBegun (history ++ later) = recordsBegun history + recordsBegun later := by
  simp [recordsBegun]

@[simp] theorem recordsBegun_single (x : DeviceTransition) : recordsBegun [x] = recordPrograms x.event.calls := by
  simp [recordsBegun]

/-- A chip as it leaves the programmer: a journal, and no power yet. -/
structure Fresh (state : DeviceState) : Prop where
  journal : ErasedJournal state.flash ∨ FactoryJournal state.flash
  mode : state.mode = .reset

theorem Fresh.sound {state : DeviceState} (fresh : Fresh state) : Sound 0 state where
  holds := holds_of_journal fresh.journal
  progress session before := by rw [fresh.mode] at before; cases before

theorem sound_of_run {start final : DeviceState} {history : List DeviceTransition} (fresh : Fresh start)
    (run : Run DeviceStep start history final) (few : recordsBegun history < 2 ^ 31) :
    Sound (recordsBegun history) final := by
  induction run with
  | nil => exact fresh.sound
  | next _ step ih =>
    rw [recordsBegun_append, recordsBegun_single] at few ⊢
    exact step.turned.sound (ih (by omega)) few

/-- Induction over the runs in which the sequence numbers do not wrap: the
invariant may use that both ends of each step are sound. -/
theorem soundRun_induction {start final : DeviceState} {history : List DeviceTransition}
    {invariant : List DeviceTransition → DeviceState → Prop} (fresh : Fresh start) (base : invariant [] start)
    (preserved : ∀ history s event t, Run DeviceStep start history s → Sound (recordsBegun history) s →
      recordsBegun history + recordPrograms event.calls < 2 ^ 31 → invariant history s → DeviceStep s event t →
      invariant (history ++ [⟨s, event, t⟩]) t)
    (run : Run DeviceStep start history final) (few : recordsBegun history < 2 ^ 31) :
    invariant history final := by
  induction run with
  | nil => exact base
  | @next history s t event run step ih =>
    rw [recordsBegun_append, recordsBegun_single] at few
    exact preserved history s event t run (sound_of_run fresh run (by omega)) few (ih (by omega)) step

end Cc1310Firmware.Bootloader
