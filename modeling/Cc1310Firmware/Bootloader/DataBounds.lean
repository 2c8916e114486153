import Cc1310Firmware.Bootloader.Acknowledge

/-! The bounds check of the DATA branch.

The end of a block is computed in a uint32_t. An offset that wraps around passes
the check, and the block is answered like one that lies behind a gap.
-/

set_option autoImplicit false

namespace Cc1310Firmware.Bootloader
open LittleEndian CrashProgram LabelledRun

/-- A DATA payload that must be refused, with the end of the block computed without wraparound. -/
def OutOfBounds (session : UpdateSession) (frame : ProtocolFrame) : Prop :=
  frame.block.length = 0 ∨ 128 < frame.block.length ∨ ¬ 4 ∣ frame.block.length ∨
  session.packageHeader.imageSize.toNat < (loadUint32Le frame.payload 0).toNat + frame.block.length

/-- A block whose end wraps around to an offset inside the image. -/
def WrapsAround (session : UpdateSession) (frame : ProtocolFrame) : Prop :=
  0 < frame.block.length ∧ frame.block.length ≤ 128 ∧ 4 ∣ frame.block.length ∧
  2 ^ 32 ≤ (loadUint32Le frame.payload 0).toNat + frame.block.length ∧
  (loadUint32Le frame.payload 0).toNat + frame.block.length - 2 ^ 32 ≤ session.packageHeader.imageSize.toNat

/-- What a DATA frame is answered, and what it changes. -/
def DataContract (flash : Flash) (session : UpdateSession) (frame : ProtocolFrame) (calls : List FlashCall)
    (reply : ProtocolFrame) (next : Continuation) (flash' : Flash) : Prop :=
  ∃ session', next = .loop session' ∧
    (OutOfBounds session frame →
      reply = frame.error ∧ session'.bytesWritten = session.bytesWritten ∧ calls = [] ∧ flash' = flash) ∧
    (¬ OutOfBounds session frame →
      (reply.messageType = protocolAck ∨ reply.messageType = protocolNack) ∧
      reply.payload = storeUint32Le session'.bytesWritten ∧
      (reply.messageType = protocolNack ↔ session.bytesWritten < loadUint32Le frame.payload 0) ∧
      (reply.messageType = protocolNack ↔ session'.bytesWritten < loadUint32Le frame.payload 0) ∧
      (loadUint32Le frame.payload 0 ≠ session.bytesWritten → calls = [] ∧ flash' = flash))

/-- What the check in uint32_t arithmetic accepts. -/
theorem isMalformedData_iff (session : UpdateSession) (frame : ProtocolFrame) :
    isMalformedData session frame = true ↔ OutOfBounds session frame ∧ ¬ WrapsAround session frame := by
  have aligned : frame.block.length &&& 3 = frame.block.length % 4 := Nat.and_two_pow_sub_one_eq_mod _ 2
  have offset := (loadUint32Le frame.payload 0).isLt
  have size := session.packageHeader.imageSize.isLt
  unfold isMalformedData OutOfBounds WrapsAround
  rw [aligned]
  -- the sum modulo 2^32 against the sum
  simp only [Bool.or_eq_true, beq_iff_eq, bne_iff_ne, decide_eq_true_eq, BitVec.lt_def, BitVec.toNat_add,
    BitVec.toNat_ofNat, ne_eq]
  omega

theorem not_outOfBounds_iff (session : UpdateSession) (frame : ProtocolFrame) :
    isMalformedData session frame = false ↔ ¬ OutOfBounds session frame ∨ WrapsAround session frame := by
  rw [← Bool.not_eq_true, isMalformedData_iff, not_and_or, not_not]

theorem WrapsAround.outOfBounds {session : UpdateSession} {frame : ProtocolFrame}
    (wraps : WrapsAround session frame) :
    OutOfBounds session frame := by
  have size := session.packageHeader.imageSize.isLt
  unfold WrapsAround at wraps
  exact .inr (.inr (.inr (by omega)))

theorem acknowledge_nack_iff (session : UpdateSession) (frame : ProtocolFrame) :
    (acknowledge session frame).1.messageType = protocolNack ↔
      session.bytesWritten < loadUint32Le frame.payload 0 := by
  rw [← BitVec.not_le, ← acknowledge_ack_iff]
  unfold acknowledge ProtocolFrame.reply
  dsimp only
  split
  · decide
  · decide

/-- A block inside the image does not carry bytesWritten past 2^32. -/
theorem programmed_lt_iff {session : UpdateSession} {frame : ProtocolFrame} {failed : Bool}
    (inside : ¬ OutOfBounds session frame) (here : loadUint32Le frame.payload 0 = session.bytesWritten) :
    (session.programmed frame failed).bytesWritten < loadUint32Le frame.payload 0 ↔
      session.bytesWritten < loadUint32Le frame.payload 0 := by
  have size := session.packageHeader.imageSize.isLt
  unfold OutOfBounds at inside
  rw [here] at inside ⊢
  cases failed with
  | true => rfl
  | false =>
    rw [UpdateSession.programmed_done, BitVec.lt_def, BitVec.lt_def, BitVec.toNat_add, BitVec.toNat_ofNat]
    omega

/-- A block that passed the check is acknowledged, which the contract allows inside the image only. -/
theorem acknowledged_contract_iff {flash flash' : Flash} {session session' : UpdateSession} {frame : ProtocolFrame}
    {calls : List FlashCall} (wellFormed : isMalformedData session frame = false)
    (counted : (¬ OutOfBounds session frame →
        (session'.bytesWritten < loadUint32Le frame.payload 0 ↔
          session.bytesWritten < loadUint32Le frame.payload 0)) ∧
      (loadUint32Le frame.payload 0 ≠ session.bytesWritten → calls = [] ∧ flash' = flash)) :
    DataContract flash session frame calls (acknowledge session' frame).1 (.loop session') flash' ↔
      ¬ WrapsAround session frame := by
  have type : (acknowledge session' frame).1.messageType = protocolAck ∨
      (acknowledge session' frame).1.messageType = protocolNack := (acknowledge_loop rfl).1
  have nack := acknowledge_nack_iff session' frame
  constructor
  · rintro ⟨_, _, refused, _⟩ wraps
    -- the contract asks for ERROR, and the answer is an ACK or a NACK
    have error := congrArg ProtocolFrame.messageType (refused wraps.outOfBounds).1
    rcases type with ack | nack
    · rw [ack] at error
      cases error
    · rw [nack] at error
      cases error
  · intro whole
    have inside := ((not_outOfBounds_iff session frame).mp wellFormed).resolve_right whole
    refine ⟨session', rfl, fun outside => absurd outside inside, fun _ => ⟨type, rfl, ?_, nack, counted.2⟩⟩
    rw [nack, counted.1 inside]

/-- For every active session and DATA frame: the contract holds exactly when the
end of the block does not wrap around into the image. -/
theorem data_contract_iff {flash flash' : Flash} {session : UpdateSession} {frame reply : ProtocolFrame}
    {calls : List FlashCall} {next : Continuation} (active : session.updateActive = true)
    (data : frame.messageType = protocolData) (long : 4 ≤ frame.payload.length)
    (exec : Exec FlashStep (handleFrame session frame) flash calls (.returned (reply, next)) flash') :
    DataContract flash session frame calls reply next flash' ↔ ¬ WrapsAround session frame := by
  have guarded : isData session frame = true := by
    simp [isData, data, active, long]
  have turn_ := exec_handleFrame exec
  generalize ended : Result.returned (reply, next) = r at turn_
  cases turn_ with
  | hello guard => simp [isHello, data, protocolData, protocolHello] at guard
  | refused guard | unrecorded guard | recorded guard => simp [isBegin, data, protocolData, protocolBegin] at guard
  | finished guard => simp [endAccepted, data, protocolData, protocolEnd] at guard
  | roleSet guard => simp [setRoleAccepted, data, protocolData, protocolSetRole] at guard
  | rejected _ _ malformed =>
    cases ended
    obtain ⟨outside, whole⟩ := (isMalformedData_iff session frame).mp (malformed guarded)
    exact iff_of_true ⟨session, rfl, fun _ => ⟨rfl, rfl, rfl, rfl⟩, fun inside => absurd outside inside⟩ whole
  | notProgrammed _ wellFormed away =>
    cases ended
    exact acknowledged_contract_iff wellFormed ⟨fun _ => .rfl, fun _ => ⟨rfl, rfl⟩⟩
  | block _ wellFormed here call =>
    obtain ⟨failed, _, same⟩ := Result.map_eq_returned.mp ended.symm
    cases same
    exact acknowledged_contract_iff wellFormed
      ⟨fun inside => programmed_lt_iff inside here, fun away => absurd here away⟩

/-- An update of the whole slot, before its first block. -/
def slotSession (metadata : BootMetadata) : UpdateSession := ⟨metadata, slotHeader, 0, appRoleUnset, true⟩

def wrappingFrame : ProtocolFrame := dataFrame 5 0xFFFFFFFC [0, 0, 0, 0]

theorem gap_turn (metadata : BootMetadata) (flash : Flash) {offset : Word} (gap : offset ≠ 0)
    (wellFormed : isMalformedData (slotSession metadata) (dataFrame 5 offset [0, 0, 0, 0]) = false) :
    FrameTurn flash (slotSession metadata) (dataFrame 5 offset [0, 0, 0, 0]) []
      (.returned (acknowledge (slotSession metadata) (dataFrame 5 offset [0, 0, 0, 0]))) flash := by
  apply FrameTurn.notProgrammed _ wellFormed
  · rwa [offset_dataFrame]
  · rfl

/-- A block inside the image, behind a gap. -/
theorem data_contract_iff_gap : ∃ reply next,
    Exec FlashStep (handleFrame (slotSession setDefaultMetadata) (dataFrame 5 128 [0, 0, 0, 0])) blankFlash []
      (.returned (reply, next)) blankFlash ∧
    (DataContract blankFlash (slotSession setDefaultMetadata) (dataFrame 5 128 [0, 0, 0, 0]) [] reply next blankFlash ↔
      ¬ WrapsAround (slotSession setDefaultMetadata) (dataFrame 5 128 [0, 0, 0, 0])) := by
  have turn_ := gap_turn setDefaultMetadata blankFlash (show (128 : Word) ≠ 0 by decide) rfl
  exact ⟨_, _, turn_.exec, data_contract_iff rfl rfl (by decide) turn_.exec⟩

/-- After a READY, a block that ends far outside the image is answered with a NACK. -/
theorem wrapping_block_not_refused : ∃ history flash session reply next,
    Run DeviceStep ⟨blankFlash, .reset⟩ history ⟨flash, .updating session⟩ ∧ session.updateActive = true ∧
    Exec FlashStep (handleFrame session wrappingFrame) flash [] (.returned (reply, next)) flash ∧
    OutOfBounds session wrappingFrame ∧ reply.messageType = protocolNack ∧
    ¬ DataContract flash session wrappingFrame [] reply next flash := by
  obtain ⟨calls, flash, metadata, ready⟩ := slot_begin
  have wraps : WrapsAround (slotSession metadata) wrappingFrame := by
    unfold WrapsAround
    exact ⟨by decide, by decide, by decide, by decide, Nat.zero_le _⟩
  have wellFormed : isMalformedData (slotSession metadata) wrappingFrame = false :=
    (not_outOfBounds_iff _ _).mpr (.inr wraps)
  have turn_ := gap_turn metadata flash (show (0xFFFFFFFC : Word) ≠ 0 by decide) wellFormed
  refine ⟨_, flash, slotSession metadata, _, _, (Run.single blank_boot).next ready, rfl, turn_.exec,
    wraps.outOfBounds, rfl, ?_⟩
  intro contract
  exact (acknowledged_contract_iff wellFormed ⟨fun _ => .rfl, fun _ => ⟨rfl, rfl⟩⟩).mp contract wraps

end Cc1310Firmware.Bootloader
