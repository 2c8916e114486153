import Cc1310Firmware.Bootloader.Append
import Cc1310Firmware.Bootloader.Device

/-! What one turn of the device can do, as one case per path through the code.

The flash programs are taken apart here, once. Every later property of the
device is a case analysis over `FrameTurn` and `Turned`.
-/

set_option autoImplicit false

namespace Cc1310Firmware.Bootloader
open CrashProgram

abbrev AppendResult := Result (BootMetadata × Int)

theorem exec_ite {α : Type} {p q : FlashProg α} {flash flash' : Flash} {calls : List FlashCall} {r : Result α}
    {condition : Prop} [Decidable condition] :
    Exec FlashStep (if condition then p else q) flash calls r flash' ↔
      (condition ∧ Exec FlashStep p flash calls r flash') ∨
        (¬ condition ∧ Exec FlashStep q flash calls r flash') := by
  split
  · simp [*]
  · simp [*]

/-- The reply to a BEGIN whose record is written, by the code of eraseApplicationFlash. -/
def beginReply (session : UpdateSession) (frame : ProtocolFrame) (metadata : BootMetadata) (code : Int) :
    ProtocolFrame × Continuation :=
  if code != 0 then (frame.error, .loop { session.withHeader frame with metadata := metadata })
  else (frame.reply protocolReady (storeUint32Le 0),
    .loop { session.withHeader frame with metadata := metadata, bytesWritten := 0, updateActive := true })

/-- The reply to a BEGIN whose record is not written. -/
def unrecordedReply (session : UpdateSession) (frame : ProtocolFrame) (appended : BootMetadata × Int) :
    ProtocolFrame × Continuation :=
  (frame.error, .loop { session.withHeader frame with metadata := appended.1 })

/-- The session after a block, by whether FlashProgram failed. -/
def UpdateSession.programmed (session : UpdateSession) (frame : ProtocolFrame) (failed : Bool) : UpdateSession :=
  if failed then session
  else { session with bytesWritten := session.bytesWritten + BitVec.ofNat 32 frame.block.length }

@[simp] theorem UpdateSession.programmed_failed (session : UpdateSession) (frame : ProtocolFrame) :
    session.programmed frame true = session := rfl

@[simp] theorem UpdateSession.programmed_done (session : UpdateSession) (frame : ProtocolFrame) :
    session.programmed frame false =
      { session with bytesWritten := session.bytesWritten + BitVec.ofNat 32 frame.block.length } := rfl

def blockCommand (session : UpdateSession) (frame : ProtocolFrame) : FlashCommand :=
  .program (BitVec.ofNat 32 applicationFlashStart + session.bytesWritten).toNat frame.block

def commitReply (session : UpdateSession) (frame : ProtocolFrame) (appended : BootMetadata × Int) :
    ProtocolFrame × Continuation :=
  if appended.2 != 0 then (frame.error, .loop { session with metadata := appended.1 })
  else (frame.reply protocolComplete [], .systemReset)

theorem beginReply_loop {session session' : UpdateSession} {frame reply : ProtocolFrame} {metadata : BootMetadata}
    {code : Int} (ended : beginReply session frame metadata code = (reply, .loop session')) :
    (code ≠ 0 ∧ reply = frame.error ∧ session' = { session.withHeader frame with metadata := metadata }) ∨
    (code = 0 ∧ reply = frame.reply protocolReady (storeUint32Le 0) ∧ session' =
      { session.withHeader frame with metadata := metadata, bytesWritten := 0, updateActive := true }) := by
  unfold beginReply at ended
  split at ended
  case isTrue failed => cases ended; exact .inl ⟨by simpa using failed, rfl, rfl⟩
  case isFalse done => cases ended; exact .inr ⟨by simpa using done, rfl, rfl⟩

theorem acknowledge_loop {session session' : UpdateSession} {frame reply : ProtocolFrame}
    (ended : acknowledge session frame = (reply, .loop session')) :
    (reply.messageType = protocolAck ∨ reply.messageType = protocolNack) ∧ session' = session := by
  cases ended
  refine ⟨?_, rfl⟩
  unfold ProtocolFrame.reply
  split
  · exact .inl rfl
  · exact .inr rfl

theorem commitReply_loop {session session' : UpdateSession} {frame reply : ProtocolFrame}
    {appended : BootMetadata × Int} (ended : commitReply session frame appended = (reply, .loop session')) :
    appended.2 ≠ 0 ∧ reply = frame.error ∧ session' = { session with metadata := appended.1 } := by
  unfold commitReply at ended
  split at ended
  case isTrue failed => cases ended; exact ⟨by simpa using failed, rfl, rfl⟩
  case isFalse => cases ended

/-- The paths through one iteration of runFirmwareUpdate. -/
inductive FrameTurn (flash : Flash) (session : UpdateSession) (frame : ProtocolFrame) :
    List FlashCall → Result (ProtocolFrame × Continuation) → Flash → Prop where
  | hello : isHello frame = true →
      FrameTurn flash session frame []
        (.returned (frame.reply protocolInfo (infoPayload session.metadata), .loop session)) flash
  | refused : isBegin frame = true → isRefusedBegin (session.withHeader frame) = true →
      FrameTurn flash session frame [] (.returned (frame.error, .loop (session.withHeader frame))) flash
  | unrecorded {calls : List FlashCall} {r : AppendResult} {flash' : Flash} :
      isBegin frame = true → isRefusedBegin (session.withHeader frame) = false →
      Exec FlashStep (appendMetadataRecord setDefaultMetadata) flash calls r flash' →
      (∀ metadata, r ≠ .returned (metadata, 0)) →
      FrameTurn flash session frame calls (r.map (unrecordedReply session frame)) flash'
  | recorded {first rest : List FlashCall} {metadata : BootMetadata} {recorded flash' : Flash} {r : Result Int} :
      isBegin frame = true → isRefusedBegin (session.withHeader frame) = false →
      Exec FlashStep (appendMetadataRecord setDefaultMetadata) flash first (.returned (metadata, 0)) recorded →
      Exec FlashStep eraseApplicationFlash recorded rest r flash' →
      FrameTurn flash session frame (first ++ rest) (r.map (beginReply session frame metadata)) flash'
  | notProgrammed : isData session frame = true → isMalformedData session frame = false →
      loadUint32Le frame.payload 0 ≠ session.bytesWritten →
      FrameTurn flash session frame [] (.returned (acknowledge session frame)) flash
  | block {status : Status} {flash' : Flash} {r : Result Bool} :
      isData session frame = true → isMalformedData session frame = false →
      loadUint32Le frame.payload 0 = session.bytesWritten →
      Exec FlashStep (Program.issue (blockCommand session frame)) flash [⟨flash, blockCommand session frame, status⟩]
        r flash' →
      FrameTurn flash session frame [⟨flash, blockCommand session frame, status⟩]
        (r.map fun failed => acknowledge (session.programmed frame failed) frame) flash'
  | finished {calls : List FlashCall} {r : AppendResult} {flash' : Flash} :
      endAccepted flash session frame = true →
      Exec FlashStep (appendMetadataRecord session.committed) flash calls r flash' →
      FrameTurn flash session frame calls (r.map (commitReply session frame)) flash'
  | roleSet {calls : List FlashCall} {r : AppendResult} {flash' : Flash} :
      setRoleAccepted flash session frame = true →
      Exec FlashStep (appendMetadataRecord (session.withRole frame)) flash calls r flash' →
      FrameTurn flash session frame calls (r.map (commitReply session frame)) flash'
  | rejected : isHello frame = false → isBegin frame = false →
      (isData session frame = true → isMalformedData session frame = true) →
      endAccepted flash session frame = false → setRoleAccepted flash session frame = false →
      FrameTurn flash session frame [] (.returned (frame.error, .loop session)) flash

section
variable {flash flash' : Flash} {session : UpdateSession} {frame : ProtocolFrame} {calls : List FlashCall}
  {r : Result (ProtocolFrame × Continuation)}

theorem exec_commit {metadata : BootMetadata} :
    Exec FlashStep (commit session frame metadata) flash calls r flash' ↔
      ∃ result, Exec FlashStep (appendMetadataRecord metadata) flash calls result flash' ∧
        r = result.map (commitReply session frame) := by
  rw [← exec_map]
  suffices same : commit session frame metadata =
      appendMetadataRecord metadata >>= fun appended => pure (commitReply session frame appended) by rw [same]
  unfold commit commitReply
  congr 1
  funext ⟨metadata, code⟩
  exact (apply_ite pure _ _ _).symm

theorem exec_handleBegin : Exec FlashStep (handleBegin session frame) flash calls r flash' ↔
    (isRefusedBegin (session.withHeader frame) = true ∧
      calls = [] ∧ r = .returned (frame.error, .loop (session.withHeader frame)) ∧ flash' = flash) ∨
    (isRefusedBegin (session.withHeader frame) = false ∧
      ((∃ result, Exec FlashStep (appendMetadataRecord setDefaultMetadata) flash calls result flash' ∧
          (∀ metadata, result ≠ .returned (metadata, 0)) ∧ r = result.map (unrecordedReply session frame)) ∨
        (∃ first metadata recorded rest result,
          Exec FlashStep (appendMetadataRecord setDefaultMetadata) flash first (.returned (metadata, 0)) recorded ∧
          Exec FlashStep eraseApplicationFlash recorded rest result flash' ∧
          calls = first ++ rest ∧ r = result.map (beginReply session frame metadata)))) := by
  have erase : ∀ metadata, (do
      let code ← eraseApplicationFlash
      if code != 0 then return (frame.error, .loop { session.withHeader frame with metadata := metadata })
      else return (frame.reply protocolReady (storeUint32Le 0),
        .loop { session.withHeader frame with metadata := metadata, bytesWritten := 0, updateActive := true })) =
      eraseApplicationFlash >>= fun code => pure (beginReply session frame metadata code) := by
    intro metadata
    congr 1
    funext code
    unfold beginReply
    split <;> rfl
  unfold handleBegin
  simp only [erase, exec_ite, exec_pure, Bool.not_eq_true]
  apply or_congr Iff.rfl
  apply and_congr Iff.rfl
  rw [exec_bind]
  constructor
  -- the append ends with an error, ends well before an erase, or is cut
  · rintro (⟨first, ⟨metadata, code⟩, t, rest, append, rest', rfl⟩ | ⟨rfl, cut⟩)
    · simp only [exec_ite, exec_pure, exec_map, bne_iff_ne, ne_eq, Decidable.not_not] at rest'
      rcases rest' with ⟨nonzero, rfl, rfl, rfl⟩ | ⟨rfl, result, rest', rfl⟩
      · refine .inl ⟨_, by simpa using append, ?_, rfl⟩
        rintro m ⟨⟩
        exact nonzero rfl
      · exact .inr ⟨first, metadata, t, rest, result, append, rest', rfl, rfl⟩
    · exact .inl ⟨.cut, cut, by simp, rfl⟩
  · rintro (⟨result, append, unrecorded, rfl⟩ | ⟨first, metadata, t, rest, result, append, rest', rfl, rfl⟩)
    · rcases result with ⟨metadata, code⟩ | _
      · refine .inl ⟨calls, (metadata, code), flash', [], append, ?_, by simp⟩
        have nonzero : code ≠ 0 := by rintro rfl; exact unrecorded metadata rfl
        simp [nonzero, Result.map, unrecordedReply]
      · exact .inr ⟨rfl, append⟩
    · refine .inl ⟨first, (metadata, 0), t, rest, append, ?_, rfl⟩
      simp only [exec_ite, exec_map]
      exact .inr ⟨by simp, result, rest', rfl⟩

theorem exec_handleData : Exec FlashStep (handleData session frame) flash calls r flash' ↔
    (isMalformedData session frame = true ∧
      calls = [] ∧ r = .returned (frame.error, .loop session) ∧ flash' = flash) ∨
    (isMalformedData session frame = false ∧
      ((loadUint32Le frame.payload 0 ≠ session.bytesWritten ∧
          calls = [] ∧ r = .returned (acknowledge session frame) ∧ flash' = flash) ∨
        (loadUint32Le frame.payload 0 = session.bytesWritten ∧
          ∃ result, Exec FlashStep (Program.issue (blockCommand session frame)) flash calls result flash' ∧
            r = result.map fun failed => acknowledge (session.programmed frame failed) frame))) := by
  have program : ∀ command, (do
      let failed ← Program.issue command
      if failed then return acknowledge session frame
      else return acknowledge { session with
        bytesWritten := session.bytesWritten + BitVec.ofNat 32 frame.block.length } frame) =
      (Program.issue command >>= fun failed => pure (acknowledge (session.programmed frame failed) frame) :
        FlashProg (ProtocolFrame × Continuation)) := by
    intro command
    congr 1
    funext failed
    cases failed <;> rfl
  unfold handleData flashProgram
  simp only [program, exec_ite, exec_pure, exec_map, Bool.not_eq_true, beq_iff_eq]
  apply or_congr Iff.rfl
  apply and_congr Iff.rfl
  rw [or_comm]
  apply or_congr Iff.rfl
  apply and_congr_right
  intro here
  rw [here, blockCommand]

theorem exec_issue {command : FlashCommand} {result : Result Bool}
    (exec : Exec FlashStep (Program.issue command) flash calls result flash') :
    ∃ status, calls = [⟨flash, command, status⟩] ∧ FlashStep flash command status flash' := by
  cases exec with
  | done step rest => cases rest; exact ⟨_, rfl, step⟩
  | failed step rest => cases rest; exact ⟨_, rfl, step⟩
  | cut step => exact ⟨_, rfl, step⟩

theorem exec_issue_done {command : FlashCommand}
    (exec : Exec FlashStep (Program.issue command) flash calls (.returned false) flash') :
    command.InFlash ∧ calls = [⟨flash, command, .done⟩] ∧ flash' = command.complete flash := by
  cases exec with
  | done step rest =>
    cases rest
    cases step with
    | done inside => exact ⟨inside, rfl, rfl⟩
  | failed step rest => cases rest

theorem exec_handleFrame (exec : Exec FlashStep (handleFrame session frame) flash calls r flash') :
    FrameTurn flash session frame calls r flash' := by
  unfold handleFrame at exec
  simp only [exec_ite, exec_pure, exec_view_bind, exec_commit, exec_handleBegin, exec_handleData,
    Bool.not_eq_true] at exec
  rcases exec with ⟨hello, rfl, rfl, rfl⟩ | ⟨notHello, exec⟩
  · exact .hello hello
  rcases exec with ⟨begin_, exec⟩ | ⟨notBegin, exec⟩
  · rcases exec with ⟨refused, rfl, rfl, rfl⟩ | ⟨accepted, exec⟩
    · exact .refused begin_ refused
    rcases exec with ⟨result, append, unrecorded, rfl⟩ | ⟨first, metadata, t, rest, result, append, erase, rfl, rfl⟩
    · exact .unrecorded begin_ accepted append unrecorded
    · exact .recorded begin_ accepted append erase
  rcases exec with ⟨data, exec⟩ | ⟨notData, exec⟩
  · have types : frame.messageType = protocolData := by
      simp only [isData, Bool.and_eq_true, beq_iff_eq] at data
      exact data.1.1
    rcases exec with ⟨malformed, rfl, rfl, rfl⟩ | ⟨wellFormed, exec⟩
    · refine .rejected notHello notBegin (fun _ => malformed) ?_ ?_
      · simp [endAccepted, types, protocolData, protocolEnd]
      · simp [setRoleAccepted, types, protocolData, protocolSetRole]
    rcases exec with ⟨elsewhere, rfl, rfl, rfl⟩ | ⟨here, result, exec, rfl⟩
    · exact .notProgrammed data wellFormed elsewhere
    · obtain ⟨status, rfl, _⟩ := exec_issue exec
      exact .block data wellFormed here exec
  rcases exec with ⟨finished, result, exec, rfl⟩ | ⟨notEnd, exec⟩
  · exact .finished finished exec
  rcases exec with ⟨roleSet, result, exec, rfl⟩ | ⟨notRole, rfl, rfl, rfl⟩
  · exact .roleSet roleSet exec
  · exact .rejected notHello notBegin (by simp [notData]) notEnd notRole

/-- The guards of the loop are about different message types. -/
theorem guards_exclusive (flash : Flash) (session : UpdateSession) (frame : ProtocolFrame) :
    (isBegin frame = true → isHello frame = false) ∧
    (isData session frame = true → isHello frame = false ∧ isBegin frame = false) ∧
    (endAccepted flash session frame = true →
      isHello frame = false ∧ isBegin frame = false ∧ isData session frame = false) ∧
    (setRoleAccepted flash session frame = true → isHello frame = false ∧ isBegin frame = false ∧
      isData session frame = false ∧ endAccepted flash session frame = false) := by
  simp only [isHello, isBegin, isData, endAccepted, setRoleAccepted, Bool.and_eq_true, beq_iff_eq]
  refine ⟨?_, ?_, ?_, ?_⟩ <;> intro guard <;> simp [guard, protocolHello, protocolBegin, protocolData, protocolEnd,
    protocolSetRole]

/-- Each path is taken under its guard. -/
theorem FrameTurn.exec (turn_ : FrameTurn flash session frame calls r flash') :
    Exec FlashStep (handleFrame session frame) flash calls r flash' := by
  unfold handleFrame
  simp only [exec_ite, exec_pure, exec_view_bind, exec_commit, exec_handleBegin, exec_handleData,
    Bool.not_eq_true]
  obtain ⟨kBegin, kData, kEnd, kRole⟩ := guards_exclusive flash session frame
  cases turn_ with
  | hello guard => exact .inl ⟨guard, rfl, rfl, rfl⟩
  | refused guard refused =>
    exact .inr ⟨kBegin guard, .inl ⟨guard, .inl ⟨refused, rfl, rfl, rfl⟩⟩⟩
  | unrecorded guard accepted append unrecorded =>
    exact .inr ⟨kBegin guard, .inl ⟨guard, .inr ⟨accepted, .inl ⟨_, append, unrecorded, rfl⟩⟩⟩⟩
  | recorded guard accepted append erase =>
    exact .inr ⟨kBegin guard, .inl ⟨guard, .inr ⟨accepted, .inr ⟨_, _, _, _, _, append, erase, rfl, rfl⟩⟩⟩⟩
  | notProgrammed guard wellFormed elsewhere =>
    obtain ⟨notHello, notBegin⟩ := kData guard
    exact .inr ⟨notHello, .inr ⟨notBegin, .inl ⟨guard, .inr ⟨wellFormed, .inl ⟨elsewhere, rfl, rfl, rfl⟩⟩⟩⟩⟩
  | block guard wellFormed here exec =>
    obtain ⟨notHello, notBegin⟩ := kData guard
    exact .inr ⟨notHello, .inr ⟨notBegin, .inl ⟨guard, .inr ⟨wellFormed, .inr ⟨here, _, exec, rfl⟩⟩⟩⟩⟩
  | finished guard exec =>
    obtain ⟨notHello, notBegin, notData⟩ := kEnd guard
    exact .inr ⟨notHello, .inr ⟨notBegin, .inr ⟨notData, .inl ⟨guard, _, exec, rfl⟩⟩⟩⟩
  | roleSet guard exec =>
    obtain ⟨notHello, notBegin, notData, notEnd⟩ := kRole guard
    exact .inr ⟨notHello, .inr ⟨notBegin, .inr ⟨notData, .inr ⟨notEnd, .inl ⟨guard, _, exec, rfl⟩⟩⟩⟩⟩
  | rejected notHello notBegin malformed notEnd notRole =>
    refine .inr ⟨notHello, .inr ⟨notBegin, ?_⟩⟩
    cases data : isData session frame with
    | true => exact .inl ⟨rfl, .inl ⟨malformed data, rfl, rfl, rfl⟩⟩
    | false => exact .inr ⟨rfl, .inr ⟨notEnd, .inr ⟨notRole, rfl, rfl, rfl⟩⟩⟩

end

/-! ## Turns of the device -/

/-- The metadata that mainThread and requestFirmwareUpdate start from. -/
def bootMetadata (flash : Flash) : BootMetadata := (newestRecord flash).getD setDefaultMetadata

/-- The metadata with its boot attempt confirmed. -/
def BootMetadata.confirmed (metadata : BootMetadata) (bootAttemptId : Word) : BootMetadata :=
  let confirmed := { metadata with confirmedBootAttemptId := bootAttemptId }
  if confirmed.unconfirmedBootCount != 0 then
    { confirmed with unconfirmedBootCount := confirmed.unconfirmedBootCount - 1 } else confirmed

theorem confirmed_eq (m : BootMetadata) (bootAttemptId : Word) : m.confirmed bootAttemptId = { m with
    confirmedBootAttemptId := bootAttemptId
    unconfirmedBootCount :=
      if m.unconfirmedBootCount != 0 then m.unconfirmedBootCount - 1 else m.unconfirmedBootCount } := by
  unfold BootMetadata.confirmed
  dsimp only
  split <;> rfl

/-- The record that confirmApplicationBoot appends, or `none` if it refuses the call. -/
def confirmation (flash : Flash) (bootAttemptId : Word) : Option BootMetadata :=
  (newestRecord flash).bind fun metadata =>
    if metadata.bootAttemptId != bootAttemptId || metadata.confirmedBootAttemptId == bootAttemptId then none
    else some (metadata.confirmed bootAttemptId)

/-- The record that requestFirmwareUpdate appends. -/
def updateRequest (flash : Flash) : BootMetadata := { bootMetadata flash with state := bootStateUpdateRequested }

def conclude {α : Type} (after : α → Output × Mode) : Result α → Option Output × Mode
  | .returned value => (some (after value).1, (after value).2)
  | .cut => (none, .reset)

theorem deviceOutcome_map {α : Type} (after : α → Output × Mode) (result : Result α) :
    deviceOutcome (result.map after) = conclude after result := by
  cases result <;> rfl

def afterAttempt (stack : FirmwarePackageHeader) (appended : BootMetadata × Int) : Output × Mode :=
  if appended.2 != 0 then (.silent, .updating (.start appended.1 stack))
  else (.handoff ⟨bootHandoffMagic, appended.1.bootAttemptId, appended.1.appRole⟩, .running)

def afterCall (appended : BootMetadata × Int) : Output × Mode := (.code appended.2, .running)

/-- How a boot attempt ends. -/
theorem attempt_cases {stack : FirmwarePackageHeader} {r : AppendResult} {output : Option Output} {mode : Mode}
    (ended : conclude (afterAttempt stack) r = (output, mode)) :
    (∃ m, r = .returned (m, 0) ∧ output = some (.handoff ⟨bootHandoffMagic, m.bootAttemptId, m.appRole⟩) ∧
      mode = .running) ∨
    (∃ m code, code ≠ 0 ∧ r = .returned (m, code) ∧ output = some .silent ∧ mode = .updating (.start m stack)) ∨
    (r = .cut ∧ output = none ∧ mode = .reset) := by
  rcases r with ⟨m, code⟩ | _
  · by_cases zero : code = 0
    · subst zero; cases ended
      exact .inl ⟨m, rfl, rfl, rfl⟩
    · simp only [conclude, afterAttempt, bne_iff_ne, ne_eq, zero, not_false_eq_true, if_true] at ended
      cases ended
      exact .inr (.inl ⟨m, code, zero, rfl, rfl, rfl⟩)
  · cases ended
    exact .inr (.inr ⟨rfl, rfl, rfl⟩)

/-- How a call through the boot API ends. -/
theorem call_cases {r : AppendResult} {output : Option Output} {mode : Mode}
    (ended : conclude afterCall r = (output, mode)) :
    (∃ m code, r = .returned (m, code) ∧ output = some (.code code) ∧ mode = .running) ∨
    (r = .cut ∧ output = none ∧ mode = .reset) := by
  rcases r with ⟨m, code⟩ | _ <;> cases ended
  · exact .inl ⟨m, code, rfl, rfl, rfl⟩
  · exact .inr ⟨rfl, rfl, rfl⟩

/-- How a frame ends. -/
theorem frame_cases {r : Result (ProtocolFrame × Continuation)} {output : Option Output} {mode : Mode}
    (ended : conclude afterFrame r = (output, mode)) :
    (∃ reply session, r = .returned (reply, .loop session) ∧ output = some (.reply reply) ∧
      mode = .updating session) ∨
    (∃ reply, r = .returned (reply, .systemReset) ∧ output = some (.reply reply) ∧ mode = .reset) ∨
    (r = .cut ∧ output = none ∧ mode = .reset) := by
  rcases r with ⟨reply, session | _⟩ | _ <;> cases ended
  · exact .inl ⟨reply, session, rfl, rfl, rfl⟩
  · exact .inr (.inl ⟨reply, rfl, rfl, rfl⟩)
  · exact .inr (.inr ⟨rfl, rfl, rfl⟩)

inductive Turned (flash : Flash) : Mode → Input → List FlashCall → Option Output → Flash → Mode → Prop where
  | powerCut {mode : Mode} : Turned flash mode .powerCut [] (some .silent) flash .reset
  | bootUpdate {stack : FirmwarePackageHeader} : bootsApplication flash (bootMetadata flash) = false →
      Turned flash .reset (.boot stack) [] (some .silent) flash (.updating (.start (bootMetadata flash) stack))
  | bootAttempt {stack : FirmwarePackageHeader} {calls : List FlashCall} {r : AppendResult} {flash' : Flash}
      {output : Option Output} {mode : Mode} : bootsApplication flash (bootMetadata flash) = true →
      Exec FlashStep (appendMetadataRecord (bootMetadata flash).attempted) flash calls r flash' →
      conclude (afterAttempt stack) r = (output, mode) →
      Turned flash .reset (.boot stack) calls output flash' mode
  | confirmRefused {bootAttemptId : Word} : confirmation flash bootAttemptId = none →
      Turned flash .running (.confirmBoot bootAttemptId) [] (some (.code (-1))) flash .running
  | confirm {bootAttemptId : Word} {record : BootMetadata} {calls : List FlashCall} {r : AppendResult}
      {flash' : Flash} {output : Option Output} {mode : Mode} : confirmation flash bootAttemptId = some record →
      Exec FlashStep (appendMetadataRecord record) flash calls r flash' →
      conclude afterCall r = (output, mode) →
      Turned flash .running (.confirmBoot bootAttemptId) calls output flash' mode
  | request {calls : List FlashCall} {r : AppendResult} {flash' : Flash} {output : Option Output} {mode : Mode} :
      Exec FlashStep (appendMetadataRecord (updateRequest flash)) flash calls r flash' →
      conclude afterCall r = (output, mode) →
      Turned flash .running .requestUpdate calls output flash' mode
  | frame {session : UpdateSession} {frame : ProtocolFrame} {calls : List FlashCall}
      {r : Result (ProtocolFrame × Continuation)} {flash' : Flash} {output : Option Output} {mode : Mode} :
      FrameTurn flash session frame calls r flash' → conclude afterFrame r = (output, mode) →
      Turned flash (.updating session) (.frame frame) calls output flash' mode

section
variable {flash flash' : Flash} {calls : List FlashCall}

/-- What mainThread makes of an append. -/
theorem append_outcome (metadata : BootMetadata) : (do
    let (metadata, code) ← appendMetadataRecord metadata
    if code != 0 then return .runFirmwareUpdate metadata
    else return .startApplication ⟨bootHandoffMagic, metadata.bootAttemptId, metadata.appRole⟩) =
    appendMetadataRecord metadata >>= fun appended => (pure <| if appended.2 != 0
      then BootOutcome.runFirmwareUpdate appended.1
      else .startApplication ⟨bootHandoffMagic, appended.1.bootAttemptId, appended.1.appRole⟩) := by
  congr 1
  funext appended
  exact (apply_ite pure _ _ _).symm

theorem exec_mainThread {r : Result BootOutcome} :
    Exec FlashStep mainThread flash calls r flash' ↔
      (bootsApplication flash (bootMetadata flash) = true ∧
        ∃ result, Exec FlashStep (appendMetadataRecord (bootMetadata flash).attempted) flash calls result flash' ∧
          r = result.map fun appended => if appended.2 != 0 then .runFirmwareUpdate appended.1
            else .startApplication ⟨bootHandoffMagic, appended.1.bootAttemptId, appended.1.appRole⟩) ∨
      (bootsApplication flash (bootMetadata flash) = false ∧
        calls = [] ∧ r = .returned (.runFirmwareUpdate (bootMetadata flash)) ∧ flash' = flash) := by
  have read : ((findNewestMetadataRecord flash).map (loadRecord flash)).getD setDefaultMetadata =
      bootMetadata flash := rfl
  unfold mainThread readBootMetadata
  simp only [exec_view_bind, read, append_outcome, exec_ite, exec_map, exec_pure, Bool.not_eq_true]

theorem exec_confirmApplicationBoot {bootAttemptId : Word} {r : Result Int} :
    Exec FlashStep (confirmApplicationBoot bootAttemptId) flash calls r flash' ↔
      (confirmation flash bootAttemptId = none ∧ calls = [] ∧ r = .returned (-1) ∧ flash' = flash) ∨
      (∃ record result, confirmation flash bootAttemptId = some record ∧
        Exec FlashStep (appendMetadataRecord record) flash calls result flash' ∧ r = result.map Prod.snd) := by
  have read : (findNewestMetadataRecord flash).map (loadRecord flash) = newestRecord flash := rfl
  unfold confirmApplicationBoot readBootMetadata confirmation
  simp only [exec_view_bind, read]
  cases newestRecord flash with
  | none => simp
  | some metadata =>
    simp only [exec_ite, exec_pure, exec_map, Option.bind_some]
    cases (metadata.bootAttemptId != bootAttemptId || metadata.confirmedBootAttemptId == bootAttemptId) with
    | true => simp
    | false => simp [BootMetadata.confirmed]

theorem exec_requestFirmwareUpdate {r : Result Int} :
    Exec FlashStep requestFirmwareUpdate flash calls r flash' ↔
      ∃ result, Exec FlashStep (appendMetadataRecord (updateRequest flash)) flash calls result flash' ∧
        r = result.map Prod.snd := by
  have read : ((findNewestMetadataRecord flash).map (loadRecord flash)).getD setDefaultMetadata =
      bootMetadata flash := rfl
  unfold requestFirmwareUpdate readBootMetadata updateRequest
  simp only [exec_view_bind, read, exec_map]

end

theorem conclude_attempt {stack : FirmwarePackageHeader} (result : AppendResult) :
    conclude (afterBoot stack) (result.map fun appended => if appended.2 != 0
      then BootOutcome.runFirmwareUpdate appended.1
      else .startApplication ⟨bootHandoffMagic, appended.1.bootAttemptId, appended.1.appRole⟩) =
    conclude (afterAttempt stack) result := by
  rcases result with ⟨metadata, code⟩ | _
  · simp only [Result.map, conclude, afterAttempt]
    split <;> rfl
  · rfl

theorem conclude_call (result : AppendResult) :
    conclude (fun code => (Output.code code, Mode.running)) (result.map Prod.snd) = conclude afterCall result := by
  cases result <;> rfl

/-- A step of the device is one of its turns. -/
theorem DeviceStep.turned {state state' : DeviceState} {event : DeviceEvent}
    (step : DeviceStep state event state') :
    Turned state.flash state.mode event.input event.calls event.output state'.flash state'.mode := by
  obtain ⟨flash, mode⟩ := state
  obtain ⟨flash', mode'⟩ := state'
  obtain ⟨input, calls, output⟩ := event
  -- each mode runs one program for an input, or none
  obtain ⟨program, result, started, whole, ended⟩ := step
  dsimp only at *
  cases input with
  | powerCut =>
    have nothing : program = pure (.silent, .reset) := by cases mode <;> exact (Option.some.inj started).symm
    rw [nothing, exec_pure] at whole
    obtain ⟨rfl, rfl, rfl⟩ := whole
    obtain ⟨rfl, rfl⟩ := Prod.mk.inj ended
    exact .powerCut
  | boot stack =>
    cases mode with
    | updating session => cases started
    | running => cases started
    | reset =>
      cases started
      obtain ⟨outcome, exec, rfl⟩ := exec_map.mp whole
      rw [deviceOutcome_map] at ended
      rcases exec_mainThread.mp exec with ⟨boots, appended, append, rfl⟩ | ⟨stays, rfl, rfl, rfl⟩
      · rw [conclude_attempt] at ended
        exact .bootAttempt boots append ended
      · obtain ⟨rfl, rfl⟩ := Prod.mk.inj ended
        exact .bootUpdate stays
  | frame frame =>
    cases mode with
    | reset => cases started
    | running => cases started
    | updating session =>
      cases started
      obtain ⟨result, exec, rfl⟩ := exec_map.mp whole
      rw [deviceOutcome_map] at ended
      exact .frame (exec_handleFrame exec) ended
  | confirmBoot bootAttemptId =>
    cases mode with
    | reset => cases started
    | updating session => cases started
    | running =>
      cases started
      obtain ⟨result, exec, rfl⟩ := exec_map.mp whole
      rw [deviceOutcome_map] at ended
      rcases exec_confirmApplicationBoot.mp exec with ⟨refused, rfl, rfl, rfl⟩ | ⟨record, _, accepted, append, rfl⟩
      · obtain ⟨rfl, rfl⟩ := Prod.mk.inj ended
        exact .confirmRefused refused
      · rw [conclude_call] at ended
        exact .confirm accepted append ended
  | requestUpdate =>
    cases mode with
    | reset => cases started
    | updating session => cases started
    | running =>
      cases started
      obtain ⟨result, exec, rfl⟩ := exec_map.mp whole
      rw [deviceOutcome_map] at ended
      obtain ⟨appended, append, rfl⟩ := exec_requestFirmwareUpdate.mp exec
      rw [conclude_call] at ended
      exact .request append ended

/-- Each turn is what its program does. -/
theorem Turned.deviceStep {flash flash' : Flash} {mode mode' : Mode} {input : Input} {calls : List FlashCall}
    {output : Option Output} (turned : Turned flash mode input calls output flash' mode') :
    DeviceStep ⟨flash, mode⟩ ⟨input, calls, output⟩ ⟨flash', mode'⟩ := by
  cases turned with
  | powerCut => exact ⟨pure (.silent, .reset), _, by cases mode <;> rfl, .ret, rfl⟩
  | bootUpdate stays =>
    have main := exec_mainThread.mpr (.inr ⟨stays, rfl, rfl, rfl⟩)
    exact ⟨_, _, rfl, main.map _, rfl⟩
  | bootAttempt boots append ended =>
    have main := exec_mainThread.mpr (.inl ⟨boots, _, append, rfl⟩)
    exact ⟨_, _, rfl, main.map _, by rw [deviceOutcome_map, conclude_attempt, ended]⟩
  | confirmRefused refused =>
    have call := exec_confirmApplicationBoot.mpr (.inl ⟨refused, rfl, rfl, rfl⟩)
    exact ⟨_, _, rfl, call.map _, rfl⟩
  | confirm accepted append ended =>
    have call := exec_confirmApplicationBoot.mpr (.inr ⟨_, _, accepted, append, rfl⟩)
    exact ⟨_, _, rfl, call.map _, by rw [deviceOutcome_map, conclude_call, ended]⟩
  | request append ended =>
    have call := exec_requestFirmwareUpdate.mpr ⟨_, append, rfl⟩
    exact ⟨_, _, rfl, call.map _, by rw [deviceOutcome_map, conclude_call, ended]⟩
  | frame turn_ ended => exact ⟨_, _, rfl, turn_.exec.map _, by rw [deviceOutcome_map, ended]⟩

theorem deviceStep_iff {state state' : DeviceState} {event : DeviceEvent} :
    DeviceStep state event state' ↔
      Turned state.flash state.mode event.input event.calls event.output state'.flash state'.mode :=
  ⟨DeviceStep.turned, Turned.deviceStep⟩

end Cc1310Firmware.Bootloader
