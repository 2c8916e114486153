import Cc1310Firmware.Bootloader.SessionIntegrity

/-! What an ACK says about the block it answers.

The reply is computed from the offset and bytesWritten alone, after the one
FlashProgram call that a block at bytesWritten makes.
-/

set_option autoImplicit false

namespace Cc1310Firmware.Bootloader
open LittleEndian CrashProgram LabelledRun

/-- The App slot bytes at an offset, addressed as DATA addresses them. -/
def applicationBytes (flash : Flash) (offset : Word) (length : Nat) : List Byte :=
  flash.bytes (BitVec.ofNat 32 applicationFlashStart + offset).toNat length

/-- If the reply is an ACK, the block is in the App slot and below the bytesWritten that the reply carries. -/
def AckMeansStored (frame reply : ProtocolFrame) (flash' : Flash) : Prop :=
  reply.messageType = protocolAck →
    applicationBytes flash' (loadUint32Le frame.payload 0) frame.block.length = frame.block ∧
    (loadUint32Le frame.payload 0).toNat + frame.block.length ≤ (loadUint32Le reply.payload 0).toNat

/-- No bit of the App slot that the block needs set is cleared. -/
def Programmable (flash : Flash) (offset : Word) (block : List Byte) : Prop :=
  List.zipWith (· &&& ·) (applicationBytes flash offset block.length) block = block

/-- A well-formed block at bytesWritten is programmed without an error onto bits that
allow it; one below bytesWritten repeats what the App slot holds there. -/
def StorableBlock (flash : Flash) (session : UpdateSession) (frame : ProtocolFrame)
    (calls : List FlashCall) : Prop :=
  isData session frame = true → isMalformedData session frame = false →
    (loadUint32Le frame.payload 0 = session.bytesWritten → (∀ c ∈ calls, c.status = .done) ∧
      (session.bytesWritten.toNat + frame.block.length < 2 ^ 32 →
        Programmable flash session.bytesWritten frame.block)) ∧
    (loadUint32Le frame.payload 0 < session.bytesWritten →
      (loadUint32Le frame.payload 0).toNat + frame.block.length ≤ session.bytesWritten.toNat ∧
      applicationBytes flash (loadUint32Le frame.payload 0) frame.block.length = frame.block)

theorem length_block_of_wellFormed {session : UpdateSession} {frame : ProtocolFrame}
    (wellFormed : isMalformedData session frame = false) : 0 < frame.block.length ∧ frame.block.length ≤ 128 := by
  simp only [isMalformedData, Bool.or_eq_false_iff, beq_eq_false_iff_ne, decide_eq_false_iff_not] at wellFormed
  omega

theorem applicationBytes_programmed (flash : Flash) (offset : Word) (block : List Byte) :
    applicationBytes (flash.programmed (BitVec.ofNat 32 applicationFlashStart + offset).toNat block) offset block.length =
      List.zipWith (· &&& ·) (applicationBytes flash offset block.length) block := by
  apply List.ext_getElem
  · simp [applicationBytes]
  · intro i h _
    have inside : i < block.length := by simpa [applicationBytes] using h
    simp only [applicationBytes, Flash.getElem_bytes, List.getElem_zipWith]
    exact Flash.programmed_at inside

theorem acknowledge_ack_iff {session : UpdateSession} {frame : ProtocolFrame} :
    (acknowledge session frame).1.messageType = protocolAck ↔
      loadUint32Le frame.payload 0 ≤ session.bytesWritten := by
  unfold acknowledge ProtocolFrame.reply
  dsimp only
  split
  case isTrue low => exact iff_of_true rfl low
  case isFalse high => exact iff_of_false (by decide) high

theorem acknowledge_bytesWritten (session : UpdateSession) (frame : ProtocolFrame) :
    loadUint32Le (acknowledge session frame).1.payload 0 = session.bytesWritten := by
  have load := loadUint32Le_bytesOf session.bytesWritten []
  rwa [List.append_nil] at load

/-- The reply to a block that is not programmed. -/
theorem ackMeansStored_acknowledge {session : UpdateSession} {frame : ProtocolFrame} {flash' : Flash} :
    AckMeansStored frame (acknowledge session frame).1 flash' ↔
      (loadUint32Le frame.payload 0 ≤ session.bytesWritten →
        applicationBytes flash' (loadUint32Le frame.payload 0) frame.block.length = frame.block ∧
        (loadUint32Le frame.payload 0).toNat + frame.block.length ≤ session.bytesWritten.toNat) := by
  rw [AckMeansStored, acknowledge_ack_iff, acknowledge_bytesWritten]

/-- The block that was programmed: it is acknowledged unless bytesWritten wrapped around. -/
theorem ackMeansStored_programmed {session : UpdateSession} {frame : ProtocolFrame} {flash : Flash}
    (here : loadUint32Le frame.payload 0 = session.bytesWritten)
    (wellFormed : isMalformedData session frame = false) :
    AckMeansStored frame (acknowledge (session.programmed frame false) frame).1
        ((blockCommand session frame).complete flash) ↔
      (session.bytesWritten.toNat + frame.block.length < 2 ^ 32 →
        Programmable flash session.bytesWritten frame.block) := by
  obtain ⟨_, short⟩ := length_block_of_wellFormed wellFormed
  have length : (BitVec.ofNat 32 frame.block.length).toNat = frame.block.length := by
    rw [BitVec.toNat_ofNat]
    omega
  have stored := applicationBytes_programmed flash session.bytesWritten frame.block
  have bound := session.bytesWritten.isLt
  rw [ackMeansStored_acknowledge, here, UpdateSession.programmed_done, BitVec.le_def, BitVec.toNat_add, length]
  simp only [blockCommand, FlashCommand.complete]
  rw [stored]
  by_cases fits : session.bytesWritten.toNat + frame.block.length < 2 ^ 32
  · rw [Nat.mod_eq_of_lt fits]
    constructor
    · intro both _
      exact (both (Nat.le_add_right _ _)).1
    · intro programmable _
      exact ⟨programmable fits, Nat.le_refl _⟩
  · apply iff_of_true
    · intro acked
      rw [Nat.mod_eq_sub_mod (Nat.le_of_not_lt fits), Nat.mod_eq_of_lt (by omega)] at acked
      omega
    · exact fun low => absurd low fits

theorem not_stored_at_bytesWritten {session : UpdateSession} {frame : ProtocolFrame} {flash' : Flash}
    (here : loadUint32Le frame.payload 0 = session.bytesWritten)
    (wellFormed : isMalformedData session frame = false) :
    ¬ AckMeansStored frame (acknowledge session frame).1 flash' := by
  obtain ⟨positive, _⟩ := length_block_of_wellFormed wellFormed
  rw [ackMeansStored_acknowledge, here]
  intro stored
  have below := (stored (BitVec.le_refl _)).2
  omega

/-- For every session, DATA frame and outcome of FlashProgram: an ACK means that the
block is stored exactly when the block can be stored. -/
theorem ack_means_stored_iff {flash flash' : Flash} {session : UpdateSession} {frame reply : ProtocolFrame}
    {calls : List FlashCall} {next : Continuation} (data : frame.messageType = protocolData)
    (exec : Exec FlashStep (handleFrame session frame) flash calls (.returned (reply, next)) flash') :
    AckMeansStored frame reply flash' ↔ StorableBlock flash session frame calls := by
  have turn_ := exec_handleFrame exec
  -- only the turns of a DATA frame remain
  generalize ended : Result.returned (reply, next) = r at turn_
  cases turn_ with
  | hello guard => simp [isHello, data, protocolData, protocolHello] at guard
  | refused guard | unrecorded guard | recorded guard => simp [isBegin, data, protocolData, protocolBegin] at guard
  | finished guard => simp [endAccepted, data, protocolData, protocolEnd] at guard
  | roleSet guard => simp [setRoleAccepted, data, protocolData, protocolSetRole] at guard
  | rejected _ _ malformed =>
    cases ended
    apply iff_of_true
    · intro acked
      cases acked
    · intro active wellFormed
      rw [malformed active] at wellFormed
      cases wellFormed
  | notProgrammed active wellFormed away =>
    have answer : reply = (acknowledge session frame).1 := congrArg Prod.fst (Result.returned.inj ended)
    rw [answer, ackMeansStored_acknowledge]
    constructor
    · intro stored _ _
      exact ⟨fun here => absurd here away, fun below => (stored (BitVec.le_of_lt below)).symm⟩
    · intro storable low
      exact ((storable active wellFormed).2 (BitVec.lt_of_le_ne low away)).symm
  | @block status _ _ active wellFormed here call =>
    obtain ⟨failed, returned, same⟩ := Result.map_eq_returned.mp ended.symm
    have answer : reply = (acknowledge (session.programmed frame failed) frame).1 := congrArg Prod.fst same.symm
    -- at bytesWritten the condition is about the one call that was made
    have condition : StorableBlock flash session frame [⟨flash, blockCommand session frame, status⟩] ↔
        status = .done ∧ (session.bytesWritten.toNat + frame.block.length < 2 ^ 32 →
          Programmable flash session.bytesWritten frame.block) := by
      constructor
      · intro storable
        obtain ⟨done, programmable⟩ := (storable active wellFormed).1 here
        exact ⟨done _ (List.mem_singleton.mpr rfl), programmable⟩
      · rintro ⟨rfl, programmable⟩ _ _
        refine ⟨fun _ => ⟨fun c member => ?_, programmable⟩, fun below => ?_⟩
        · rw [List.mem_singleton.mp member]
        · rw [here] at below
          exact absurd below (BitVec.lt_irrefl _)
    rw [condition, answer]
    cases call with
    | done step rest =>
      cases rest
      cases step
      cases returned
      rw [ackMeansStored_programmed here wellFormed]
      exact (and_iff_right rfl).symm
    | failed step rest =>
      cases rest
      cases returned
      exact iff_of_false (not_stored_at_bytesWritten here wellFormed) (fun both => by cases both.1)
    | cut step => cases returned

theorem zeroBlock_wellFormed (metadata : BootMetadata) :
    isMalformedData ⟨metadata, slotHeader, 0, appRoleUnset, true⟩ (dataFrame 0 0 zeroBlock) = false := by
  have fits : 0 + 128#32 ≤ slotHeader.imageSize := show 0 + 128#32 ≤ applicationSlotSize by decide
  simp only [isMalformedData, block_dataFrame, offset_dataFrame, zeroBlock, List.length_replicate,
    decide_eq_false (BitVec.not_lt.mpr fits)]
  rfl

/-- The first block after a READY, programmed or not. -/
theorem zeroBlock_turn (metadata : BootMetadata) {flash flash' : Flash} {status : Status} {r : Result Bool}
    (call : Exec FlashStep (Program.issue (.program applicationFlashStart zeroBlock)) flash
      [⟨flash, .program applicationFlashStart zeroBlock, status⟩] r flash') :
    FrameTurn flash ⟨metadata, slotHeader, 0, appRoleUnset, true⟩ (dataFrame 0 0 zeroBlock)
      [⟨flash, .program applicationFlashStart zeroBlock, status⟩]
      (r.map fun failed => acknowledge
        (UpdateSession.programmed ⟨metadata, slotHeader, 0, appRoleUnset, true⟩ (dataFrame 0 0 zeroBlock) failed)
        (dataFrame 0 0 zeroBlock)) flash' := by
  have command : blockCommand ⟨metadata, slotHeader, 0, appRoleUnset, true⟩ (dataFrame 0 0 zeroBlock) =
      .program applicationFlashStart zeroBlock := by
    rw [blockCommand, block_dataFrame]; rfl
  rw [← command] at call ⊢
  exact .block (by simp [isData, dataFrame]) (zeroBlock_wellFormed metadata) (offset_dataFrame _ _ _) call

/-- A block on a blank slot. -/
theorem ack_means_stored_iff_first_block : ∃ reply next flash',
    Exec FlashStep (handleFrame ⟨setDefaultMetadata, slotHeader, 0, appRoleUnset, true⟩ (dataFrame 0 0 zeroBlock))
      blankFlash [⟨blankFlash, .program applicationFlashStart zeroBlock, .done⟩] (.returned (reply, next)) flash' ∧
    (AckMeansStored (dataFrame 0 0 zeroBlock) reply flash' ↔
      StorableBlock blankFlash ⟨setDefaultMetadata, slotHeader, 0, appRoleUnset, true⟩ (dataFrame 0 0 zeroBlock)
        [⟨blankFlash, .program applicationFlashStart zeroBlock, .done⟩]) := by
  have inside : (FlashCommand.program applicationFlashStart zeroBlock).InFlash := by
    simp [FlashCommand.InFlash, zeroBlock, applicationFlashStart, flashSize]
  have call : FlashStep blankFlash (.program applicationFlashStart zeroBlock) .done _ := .done inside
  have turn_ := zeroBlock_turn setDefaultMetadata (.done call .ret)
  exact ⟨_, _, _, turn_.exec, ack_means_stored_iff rfl turn_.exec⟩

/-- The first block fails to program, and is acknowledged with bytesWritten 0. -/
theorem failed_block_acknowledged : ∃ history flash session reply next,
    Run DeviceStep ⟨blankFlash, .reset⟩ history ⟨flash, .updating session⟩ ∧
    Exec FlashStep (handleFrame session (dataFrame 0 0 zeroBlock)) flash
      [⟨flash, .program applicationFlashStart zeroBlock, .failed⟩] (.returned (reply, next)) flash ∧
    reply.messageType = protocolAck ∧ ¬ AckMeansStored (dataFrame 0 0 zeroBlock) reply flash := by
  obtain ⟨calls, flash, metadata, ready⟩ := slot_begin
  have turn_ := zeroBlock_turn metadata (.failed (.failed (.refl flash _)) .ret)
  refine ⟨_, flash, _, _, _, (Run.single blank_boot).next ready, turn_.exec, ?_, ?_⟩
  · exact acknowledge_ack_iff.mpr (by rw [offset_dataFrame]; exact BitVec.le_refl _)
  · exact not_stored_at_bytesWritten (offset_dataFrame _ _ _) (zeroBlock_wellFormed metadata)

end Cc1310Firmware.Bootloader
