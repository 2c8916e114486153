import Cc1310Firmware.Bootloader.FlashRanges

/-! What a refused BEGIN leaves of an update session.

A BEGIN copies its header and role into the session before it checks them, and
no error exit of the branch ends the session. So a refused BEGIN is harmless
exactly when no session was active, or when it repeats the header and the role
of the active session and did not get to change the application slot.
-/

set_option autoImplicit false

namespace Cc1310Firmware.Bootloader
open CrashProgram LabelledRun

/-- Without an active session DATA and END are answered ERROR, and change nothing. -/
theorem FrameTurn.inactive {flash flash' : Flash} {session : UpdateSession} {frame : ProtocolFrame}
    {calls : List FlashCall} {r : Result (ProtocolFrame × Continuation)}
    (turn_ : FrameTurn flash session frame calls r flash') (inactive : session.updateActive = false)
    (type : frame.messageType = protocolData ∨ frame.messageType = protocolEnd) :
    calls = [] ∧ r = .returned (frame.error, .loop session) ∧ flash' = flash := by
  cases turn_ with
  | hello guard =>
    rcases type with type | type <;> simp [isHello, type, protocolHello, protocolData, protocolEnd] at guard
  | refused guard | unrecorded guard | recorded guard =>
    rcases type with type | type <;> simp [isBegin, type, protocolBegin, protocolData, protocolEnd] at guard
  | notProgrammed guard | block guard => simp [isData, inactive] at guard
  | finished guard => simp [endAccepted, inactive] at guard
  | roleSet guard =>
    rcases type with type | type <;> simp [setRoleAccepted, type, protocolSetRole, protocolData,
      protocolEnd] at guard
  | rejected => exact ⟨rfl, rfl, rfl⟩

abbrev DeviceTransition := Transition DeviceState DeviceEvent

/-- The BEGIN that a transition answers READY. -/
def readyBegin (x : DeviceTransition) : Option ProtocolFrame :=
  match x.event.input, x.event.output with
  | .frame frame, some (.reply reply) => if reply.messageType == protocolReady then some frame else none
  | _, _ => none

/-- The header and the role of the session are those of this BEGIN, which passes the checks. -/
structure UpdateSession.AcceptedFrom (session : UpdateSession) (frame : ProtocolFrame) : Prop where
  packageHeader : session.packageHeader = loadPackageHeader frame.payload
  requestedRole : session.requestedRole = loadUint32Le frame.payload sizeofFirmwarePackageHeader
  validHeader : isValidPackageHeader session.packageHeader = true
  validRole : isValidAppRole session.requestedRole = true

/-- An active session works with the header and the role of this accepted BEGIN. -/
def SessionOf (accepted : Option ProtocolFrame) (mode : Mode) : Prop :=
  ∀ session, mode = .updating session → session.updateActive = true →
    ∃ frame, accepted = some frame ∧ session.AcceptedFrom frame

theorem SessionOf.congr {accepted : Option ProtocolFrame} {session session' : UpdateSession}
    (old : SessionOf accepted (.updating session)) (header : session'.packageHeader = session.packageHeader)
    (role : session'.requestedRole = session.requestedRole)
    (active : session'.updateActive = session.updateActive) :
    SessionOf accepted (.updating session') := by
  rintro _ ⟨⟩ isActive
  obtain ⟨frame, last, from_⟩ := old session rfl (active ▸ isActive)
  exact ⟨frame, last, ⟨header ▸ from_.packageHeader, role ▸ from_.requestedRole, header ▸ from_.validHeader,
    role ▸ from_.validRole⟩⟩

def NoActiveSession (mode : Mode) : Prop := ∀ session, mode = .updating session → session.updateActive = false

/-- Only a BEGIN answered READY activates a session. -/
theorem FrameTurn.stays_inactive {flash flash' : Flash} {session session' : UpdateSession}
    {frame reply : ProtocolFrame} {calls : List FlashCall}
    (turn_ : FrameTurn flash session frame calls (.returned (reply, .loop session')) flash')
    (inactive : session.updateActive = false) (notReady : reply.messageType ≠ protocolReady) :
    session'.updateActive = false := by
  generalize ended : Result.returned (reply, Continuation.loop session') = r at turn_
  cases turn_ with
  | hello | rejected | refused => cases ended; exact inactive
  | unrecorded =>
    obtain ⟨appended, _, same⟩ := Result.map_eq_returned.mp ended.symm
    cases same
    exact inactive
  | recorded =>
    obtain ⟨code, _, same⟩ := Result.map_eq_returned.mp ended.symm
    rcases beginReply_loop same with ⟨_, _, rfl⟩ | ⟨_, rfl, _⟩
    · exact inactive
    · exact absurd rfl notReady
  | notProgrammed guard | block guard => simp [isData, inactive] at guard
  | finished | roleSet =>
    obtain ⟨appended, _, same⟩ := Result.map_eq_returned.mp ended.symm
    obtain ⟨_, _, rfl⟩ := commitReply_loop same
    exact inactive

theorem Turned.stays_inactive {x : DeviceTransition}
    (turned : Turned x.before.flash x.before.mode x.event.input x.event.calls x.event.output x.after.flash x.after.mode)
    (inactive : NoActiveSession x.before.mode) (notReady : readyBegin x = none) : NoActiveSession x.after.mode := by
  obtain ⟨⟨flash, mode⟩, ⟨input, calls, output⟩, ⟨flash', mode'⟩⟩ := x
  dsimp only at *
  cases turned with
  | powerCut | confirmRefused => rintro _ ⟨⟩
  | bootUpdate => rintro _ ⟨⟩; rfl
  | bootAttempt _ _ ended =>
    rcases attempt_cases ended with ⟨_, _, _, rfl⟩ | ⟨_, _, _, _, _, rfl⟩ | ⟨_, _, rfl⟩
    · rintro _ ⟨⟩
    · rintro _ ⟨⟩; rfl
    · rintro _ ⟨⟩
  | confirm _ _ ended | request _ ended =>
    rcases call_cases ended with ⟨_, _, _, _, rfl⟩ | ⟨_, _, rfl⟩ <;> rintro _ ⟨⟩
  | frame turn_ ended =>
    rcases frame_cases ended with ⟨reply, session', rfl, rfl, rfl⟩ | ⟨_, _, _, rfl⟩ | ⟨_, _, rfl⟩
    · rintro _ ⟨⟩
      apply turn_.stays_inactive (inactive _ rfl)
      intro ready
      exact absurd notReady (by simp [readyBegin, ready])
    · rintro _ ⟨⟩
    · rintro _ ⟨⟩

end Cc1310Firmware.Bootloader
