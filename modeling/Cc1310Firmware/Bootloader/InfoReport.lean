import Cc1310Firmware.Bootloader.BootCount

/-! What HELLO reports against what the journal holds.

BEGIN, END and SET_ROLE change the metadata in RAM before the append that may
fail. The four reported fields survive the failed append of a boot attempt,
which changes the counters only.
-/

set_option autoImplicit false

namespace Cc1310Firmware.Bootloader
open LittleEndian CrashProgram LabelledRun

/-- The fields of the metadata that an INFO reply carries are the same. -/
structure SameReport (m m' : BootMetadata) : Prop where
  state : m.state = m'.state
  imageSize : m.imageSize = m'.imageSize
  firmwareVersion : m.firmwareVersion = m'.firmwareVersion
  appRole : m.appRole = m'.appRole

theorem SameReport.refl (m : BootMetadata) : SameReport m m := ⟨rfl, rfl, rfl, rfl⟩

theorem SameReport.trans {m m' m'' : BootMetadata} (first : SameReport m m') (second : SameReport m' m'') :
    SameReport m m'' :=
  ⟨first.state.trans second.state, first.imageSize.trans second.imageSize,
    first.firmwareVersion.trans second.firmwareVersion, first.appRole.trans second.appRole⟩

theorem SameReport.symm {m m' : BootMetadata} (same : SameReport m m') : SameReport m' m :=
  ⟨same.state.symm, same.imageSize.symm, same.firmwareVersion.symm, same.appRole.symm⟩

theorem FrameTurn.of_hello {flash flash' : Flash} {session : UpdateSession} {hello : ProtocolFrame}
    {calls : List FlashCall} {r : Result (ProtocolFrame × Continuation)}
    (turn_ : FrameTurn flash session hello calls r flash') (guard : isHello hello = true) :
    r = .returned (hello.reply protocolInfo (infoPayload session.metadata), .loop session) := by
  obtain ⟨kBegin, kData, kEnd, kRole⟩ := guards_exclusive flash session hello
  cases turn_ with
  | hello => rfl
  | refused other | unrecorded other | recorded other => rw [kBegin other] at guard; cases guard
  | notProgrammed other | block other => rw [(kData other).1] at guard; cases guard
  | finished other => rw [(kEnd other).1] at guard; cases guard
  | roleSet other => rw [(kRole other).1] at guard; cases guard
  | rejected other => rw [guard] at other; cases other

def helloFrame (sequenceNumber : Half) : ProtocolFrame := ⟨protocolHello, sequenceNumber, []⟩

/-- The append can fail before it changes anything. -/
theorem append_can_fail {k : Nat} {flash : Flash} (m : BootMetadata) (holds : Holds k flash (newestRecord flash))
    (room : k + 1 < 2 ^ 31) : ∃ calls code, code ≠ 0 ∧ recordPrograms calls ≤ 1 ∧
      Exec FlashStep (appendMetadataRecord m) flash calls (.returned (sealFor (newestRecord flash) m, code)) flash := by
  have fails : ∀ c, FlashStep flash c .failed flash := fun c => .failed (.refl flash _)
  obtain ⟨calls, ⟨m', code⟩, append, _⟩ := exec_fails (appendMetadataRecord m) fails
  have begun := recordPrograms_append_le holds append
  obtain rfl := append_returned append
  refine ⟨calls, code, ?_, begun, append⟩
  rintro rfl
  exact sealFor_ne _ _ ((appendTurn holds (by omega) append).stored _ rfl).symm

end Cc1310Firmware.Bootloader
