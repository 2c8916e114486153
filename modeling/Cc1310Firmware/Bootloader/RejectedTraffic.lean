import Cc1310Firmware.Bootloader.DeviceJournal

/-! Frames that runFirmwareUpdate refuses while no session is active.

A refused BEGIN leaves its header and role in the local variables. Without an
active session nothing reads them, so the device stays as it was.
-/

set_option autoImplicit false

namespace Cc1310Firmware.Bootloader
open LittleEndian CrashProgram LabelledRun

/-- A BEGIN whose header and role pass their checks. -/
def beginAccepted (frame : ProtocolFrame) : Bool :=
  isBegin frame && isValidPackageHeader (loadPackageHeader frame.payload) &&
  isValidAppRole (loadUint32Le frame.payload sizeofFirmwarePackageHeader)

/-- The answer to a frame that nothing accepts. -/
def harmlessReply (metadata : BootMetadata) (frame : ProtocolFrame) : ProtocolFrame :=
  if isHello frame then frame.reply protocolInfo (infoPayload metadata) else frame.error

/-- A delivered frame that is neither an accepted BEGIN nor an accepted SET_ROLE. -/
def HarmlessFrame (x : DeviceTransition) : Prop :=
  ∃ session frame, x.before.mode = .updating session ∧ x.event.input = .frame frame ∧ beginAccepted frame = false ∧
    setRoleAccepted x.before.flash session frame = false

/-- The device waits for an update with this metadata, and no session is active. -/
def WaitsWith (flash : Flash) (metadata : BootMetadata) (state : DeviceState) : Prop :=
  state.flash = flash ∧ ∃ session, state.mode = .updating session ∧ session.updateActive = false ∧
    session.metadata = metadata

theorem isRefusedBegin_withHeader {session : UpdateSession} {frame : ProtocolFrame}
    (begin_ : isBegin frame = true) :
    isRefusedBegin (session.withHeader frame) = !beginAccepted frame := by
  unfold isRefusedBegin beginAccepted
  rw [begin_, Bool.true_and, Bool.not_and]
  rfl

/-- One refused frame: no flash call, and a reply that the metadata and the frame determine. -/
theorem FrameTurn.harmless {flash flash' : Flash} {session : UpdateSession} {frame : ProtocolFrame}
    {calls : List FlashCall} {r : Result (ProtocolFrame × Continuation)} (inactive : session.updateActive = false)
    (notBegin : beginAccepted frame = false) (notRole : setRoleAccepted flash session frame = false)
    (turn_ : FrameTurn flash session frame calls r flash') :
    calls = [] ∧ flash' = flash ∧ ∃ session', r = .returned (harmlessReply session.metadata frame, .loop session') ∧
      session'.updateActive = false ∧ session'.metadata = session.metadata := by
  unfold harmlessReply
  cases turn_ with
  | hello guard =>
    rw [guard]
    exact ⟨rfl, rfl, session, rfl, inactive, rfl⟩
  | refused guard =>
    rw [(guards_exclusive flash session frame).1 guard]
    -- the refused header and role stay in the session, where nothing reads them
    exact ⟨rfl, rfl, session.withHeader frame, rfl, inactive, rfl⟩
  | unrecorded guard accepted | recorded guard accepted =>
    rw [isRefusedBegin_withHeader guard, notBegin] at accepted
    cases accepted
  | notProgrammed guard | block guard =>
    rw [isData_active guard] at inactive
    cases inactive
  | finished guard => simp [endAccepted, inactive] at guard
  | roleSet guard =>
    rw [notRole] at guard
    cases guard
  | rejected notHello =>
    rw [notHello]
    exact ⟨rfl, rfl, session, rfl, inactive, rfl⟩

theorem WaitsWith.step {flash : Flash} {metadata : BootMetadata} {s t : DeviceState} {event : DeviceEvent}
    (waits : WaitsWith flash metadata s) (harmless : HarmlessFrame ⟨s, event, t⟩) (step : DeviceStep s event t) :
    WaitsWith flash metadata t ∧ event.calls = [] ∧ ∃ frame, event.input = .frame frame ∧
      event.output = some (.reply (harmlessReply metadata frame)) := by
  obtain ⟨session, frame, mode, input, notBegin, notRole⟩ := harmless
  obtain ⟨same, waiting, mode', inactive, rfl⟩ := waits
  obtain ⟨before, _⟩ := s
  obtain ⟨after, _⟩ := t
  obtain ⟨_, calls, output⟩ := event
  have turned := step.turned
  dsimp only at mode mode' input same notRole turned ⊢
  subst mode input same
  cases mode'
  cases turned with
  | frame turn_ ended =>
    obtain ⟨rfl, rfl, session', rfl, inactive', metadata'⟩ := turn_.harmless inactive notBegin notRole
    cases ended
    exact ⟨⟨rfl, session', rfl, inactive', metadata'⟩, rfl, frame, rfl, rfl⟩

/-- From any state without an active session: over any sequence of frames that are
neither an accepted BEGIN nor an accepted SET_ROLE, flash keeps its contents, no
session becomes active, a HELLO returns the same INFO and every other frame ERROR. -/
theorem rejected_traffic_harmless {flash : Flash} {session : UpdateSession} {final : DeviceState}
    {history : List DeviceTransition} (inactive : session.updateActive = false)
    (run : Run DeviceStep ⟨flash, .updating session⟩ history final) (harmless : ∀ x ∈ history, HarmlessFrame x) :
    WaitsWith flash session.metadata final ∧ ∀ x ∈ history, x.event.calls = [] ∧
      WaitsWith flash session.metadata x.after ∧
      ∃ frame, x.event.input = .frame frame ∧ x.event.output =
        some (.reply (harmlessReply session.metadata frame)) := by
  induction run with
  | nil => exact ⟨⟨rfl, session, rfl, inactive, rfl⟩, fun x member => by cases member⟩
  | @next history s t event run step ih =>
    obtain ⟨waits, earlier⟩ := ih fun x member => harmless x (List.mem_append_left _ member)
    obtain ⟨waits', quiet, answered⟩ :=
      waits.step (harmless _ (List.mem_append_right _ (List.mem_singleton.mpr rfl))) step
    refine ⟨waits', ?_⟩
    intro x member
    rcases List.mem_append.mp member with old | new
    · exact earlier x old
    · rw [List.mem_singleton.mp new]
      exact ⟨quiet, waits', answered⟩

/-- An END after a boot without an application. -/
theorem rejected_traffic_harmless_end : ∃ history final,
    Run DeviceStep ⟨blankFlash, .updating (.start setDefaultMetadata zeroHeader)⟩ history final ∧ history ≠ [] ∧
    WaitsWith blankFlash setDefaultMetadata final := by
  have turn_ : FrameTurn blankFlash (.start setDefaultMetadata zeroHeader) ⟨protocolEnd, 9, []⟩ [] _ blankFlash :=
    .rejected rfl rfl (fun data => by cases data) rfl rfl
  have step : DeviceStep ⟨blankFlash, .updating (.start setDefaultMetadata zeroHeader)⟩
      ⟨.frame ⟨protocolEnd, 9, []⟩, [], some (.reply ⟨protocolError, 9, []⟩)⟩
      ⟨blankFlash, .updating (.start setDefaultMetadata zeroHeader)⟩ := deviceStep_iff.mpr (.frame turn_ rfl)
  refine ⟨_, _, Run.single step, List.cons_ne_nil _ _, ?_⟩
  apply (@rejected_traffic_harmless _ (.start setDefaultMetadata zeroHeader) _ _ rfl (Run.single step) _).1
  intro x member
  rw [List.mem_singleton.mp member]
  exact ⟨_, _, rfl, rfl, rfl, rfl⟩

end Cc1310Firmware.Bootloader
