import Cc1310Firmware.Bootloader.SequenceWrap

/-! Update mode is sticky.

Once an update request is stored, or a BEGIN is answered READY, the newest
record is not VALID. Of the five writers of the journal only END and SET_ROLE
make it VALID again, and a boot attempt starts from a VALID record only.
-/

set_option autoImplicit false

namespace Cc1310Firmware.Bootloader
open CrashProgram LabelledRun

/-- Whether a frame passes all the checks of the END or the SET_ROLE branch. -/
def checksPassed (flash : Flash) : Mode → Input → Bool
  | .updating session, .frame frame => endAccepted flash session frame || setRoleAccepted flash session frame
  | _, _ => false

def endPassed (flash : Flash) : Mode → Input → Bool
  | .updating session, .frame frame => endAccepted flash session frame
  | _, _ => false

def passesChecks (x : DeviceTransition) : Bool := checksPassed x.before.flash x.before.mode x.event.input

def passesEnd (x : DeviceTransition) : Bool := endPassed x.before.flash x.before.mode x.event.input

def answersReady (x : DeviceTransition) : Bool := (readyBegin x).isSome

/-- requestFirmwareUpdate returned 0, or a BEGIN was answered READY. -/
def entersUpdateMode (x : DeviceTransition) : Bool :=
  (x.event.input == .requestUpdate && x.event.output == some (.code 0)) || answersReady x

theorem answersReady_iff {x : DeviceTransition} : answersReady x = true ↔
    ∃ frame reply, x.event.input = .frame frame ∧ x.event.output = some (.reply reply) ∧
      reply.messageType = protocolReady := by
  unfold answersReady readyBegin
  constructor
  · intro ready
    split at ready
    case h_1 frame reply input output =>
      refine ⟨frame, reply, input, output, ?_⟩
      by_contra other
      simp [other] at ready
    case h_2 => cases ready
  · rintro ⟨frame, reply, input, output, type⟩
    simp [input, output, type]

section
variable {flash : Flash} {mode : Mode} {input : Input} {m : BootMetadata}

theorem not_valid_of_default : setDefaultMetadata.state ≠ bootStateValidApplication := by decide

@[simp] theorem confirmed_state (metadata : BootMetadata) (bootAttemptId : Word) :
    (metadata.confirmed bootAttemptId).state = metadata.state := by
  unfold BootMetadata.confirmed
  dsimp only
  split <;> rfl

@[simp] theorem confirmed_imageSize (metadata : BootMetadata) (bootAttemptId : Word) :
    (metadata.confirmed bootAttemptId).imageSize = metadata.imageSize := by
  unfold BootMetadata.confirmed
  dsimp only
  split <;> rfl

/-- Without a passed check no turn writes a VALID record over another one. -/
theorem TurnRecord.not_valid (record : TurnRecord flash mode input m)
    (unchecked : checksPassed flash mode input = false)
    (sticky : (bootMetadata flash).state ≠ bootStateValidApplication ∨ input = .requestUpdate ∨
      ∃ frame, input = .frame frame) : m.state ≠ bootStateValidApplication := by
  cases record with
  | attempt boots =>
    simp only [bootsApplication, Bool.and_eq_true, beq_iff_eq, reduceCtorEq, exists_false, or_false] at boots sticky
    exact absurd boots.1.1 sticky
  | confirm newest _ _ => simpa [bootMetadata_of_some newest] using sticky
  | request => simp [updateRequest, bootStateUpdateRequested, bootStateValidApplication]
  | begins => exact not_valid_of_default
  | ends accepted | setsRole accepted => simp [checksPassed, accepted] at unchecked

theorem bootMetadata_congr {flash' : Flash} (same : newestRecord flash' = newestRecord flash) :
    bootMetadata flash' = bootMetadata flash := by
  rw [bootMetadata, bootMetadata, same]

/-- A turn that enters update mode, or starts in it, ends in it. -/
theorem RegisterTurn.sticky {k : Nat} {calls : List FlashCall} {output : Option Output} {flash' : Flash}
    (register : RegisterTurn k flash mode input calls output flash')
    (unchecked : checksPassed flash mode input = false)
    (enters : (bootMetadata flash).state ≠ bootStateValidApplication ∨
      ((input = .requestUpdate ∨ ∃ frame, input = .frame frame) ∧ ∃ out, output = some out ∧ out.Acknowledges)) :
    (bootMetadata flash').state ≠ bootStateValidApplication := by
  rcases enters with sticky | ⟨request, out, ended, acknowledges⟩
  · rcases register.atomic with same | ⟨m, record, new⟩
    · rwa [bootMetadata_congr same]
    · rw [bootMetadata_of_some new]
      exact record.not_valid unchecked (.inl sticky)
  · obtain ⟨m, record, new⟩ := register.stored out ended acknowledges
    rw [bootMetadata_of_some new]
    exact record.not_valid unchecked (.inr request)

/-- After READY nothing but END gives the newest record, or the metadata of the
session, an image. -/
theorem TurnRecord.imageSize_eq_zero (record : TurnRecord flash mode input m)
    (unfinished : endPassed flash mode input = false) (stored : (bootMetadata flash).imageSize = 0)
    (loaded : ∀ session, mode = .updating session → session.metadata.imageSize = 0) : m.imageSize = 0 := by
  cases record with
  | attempt boots =>
    simp [bootsApplication, isApplicationImageValid, stored] at boots
  | confirm newest _ _ =>
    rwa [confirmed_imageSize, ← bootMetadata_of_some newest]
  | request => exact stored
  | begins => rfl
  | ends accepted => simp [endPassed, accepted] at unfinished
  -- SET_ROLE checks the image of the session's metadata, which has none
  | setsRole accepted => simp [setRoleAccepted, isApplicationImageValid, loaded _ rfl] at accepted

end

/-- No image is recorded, in the journal or in a session. -/
def NoImage (state : DeviceState) : Prop :=
  (bootMetadata state.flash).imageSize = 0 ∧
  ∀ session, state.mode = .updating session → session.metadata.imageSize = 0

/-- A BEGIN answered READY has stored the default record, and works with it. -/
structure ReadyTurn (x : DeviceTransition) : Prop where
  input : ∃ frame, x.event.input = .frame frame ∧ isBegin frame = true
  stored : newestRecord x.after.flash = some (sealFor (newestRecord x.before.flash) setDefaultMetadata)
  loaded : ∀ session, x.after.mode = .updating session →
    session.metadata = sealFor (newestRecord x.before.flash) setDefaultMetadata

theorem Turned.ready {k : Nat} {x : DeviceTransition} (register : RegisterTurn k x.before.flash x.before.mode
      x.event.input x.event.calls x.event.output x.after.flash)
    (turned : Turned x.before.flash x.before.mode x.event.input x.event.calls x.event.output x.after.flash x.after.mode)
    (ready : answersReady x = true) : ReadyTurn x := by
  obtain ⟨frame, reply, input, output, type⟩ := answersReady_iff.mp ready
  rw [output] at turned register
  obtain ⟨session, frame, next, before, input, turn_, after⟩ := turned.of_reply
  obtain ⟨_, metadata, _, _, guard, _, append, _, _, rfl⟩ := turn_.of_ready type
  obtain ⟨_, _, notEnd, notRole⟩ := guards_exclusive x.before.flash session frame
  refine ⟨⟨frame, input, guard⟩, ?_, ?_⟩
  · obtain ⟨m, record, new⟩ := register.stored _ rfl (.inl type)
    rw [before, input] at record
    cases record with
    | begins => exact new
    | ends accepted => rw [(notEnd accepted).2.1] at guard; cases guard
    | setsRole accepted => rw [(notRole accepted).2.1] at guard; cases guard
  · intro session' updating
    rw [after] at updating
    cases updating
    exact append_returned append

theorem Turned.noImage {k : Nat} {x : DeviceTransition} (register : RegisterTurn k x.before.flash x.before.mode
      x.event.input x.event.calls x.event.output x.after.flash)
    (turned : Turned x.before.flash x.before.mode x.event.input x.event.calls x.event.output x.after.flash x.after.mode)
    (unfinished : passesEnd x = false) (enters : NoImage x.before ∨ answersReady x = true) : NoImage x.after := by
  rcases enters with ⟨stored, loaded⟩ | ready
  · have none_ := fun m (record : TurnRecord x.before.flash x.before.mode x.event.input m) =>
      record.imageSize_eq_zero unfinished stored loaded
    constructor
    · rcases register.atomic with same | ⟨m, record, new⟩
      · rwa [bootMetadata_congr same]
      · rw [bootMetadata_of_some new]
        exact none_ m record
    · intro session after
      rw [after] at turned
      rcases turned.metadata with ⟨_, same⟩ | ⟨session', before, same⟩ | ⟨m, record, same⟩
      · rw [same, stored]
      · rw [same, loaded session' before]
      · rw [same]; exact none_ m record
  · obtain ⟨_, stored, loaded⟩ := turned.ready register ready
    constructor
    · rw [bootMetadata_of_some stored]; rfl
    · intro session after
      rw [loaded session after]; rfl

/-- What update mode means for the state a run is in. -/
structure UpdateModeInv (history : List DeviceTransition) (state : DeviceState) : Prop where
  sticky : standing entersUpdateMode passesChecks history = true →
    (bootMetadata state.flash).state ≠ bootStateValidApplication
  noImage : standing answersReady passesEnd history = true → NoImage state

theorem updateModeInv_step {k : Nat} {history : List DeviceTransition} {s t : DeviceState} {event : DeviceEvent}
    (sound : Sound k s) (room : k + recordPrograms event.calls < 2 ^ 31) (inv : UpdateModeInv history s)
    (step : DeviceStep s event t) : UpdateModeInv (history ++ [⟨s, event, t⟩]) t := by
  have register := step.turned.registerTurn sound room
  constructor
  · intro standing_
    rw [standing_concat] at standing_
    split at standing_
    · cases standing_
    case isFalse unchecked =>
      apply register.sticky (by simpa [passesChecks] using unchecked)
      rcases (Bool.or_eq_true _ _).mp standing_ with before | enters
      · exact .inl (inv.sticky before)
      refine .inr ?_
      rcases (Bool.or_eq_true _ _).mp enters with request | ready
      · simp only [Bool.and_eq_true, beq_iff_eq] at request
        exact ⟨.inl request.1, _, request.2, rfl⟩
      · obtain ⟨frame, reply, input, output, type⟩ := answersReady_iff.mp ready
        exact ⟨.inr ⟨frame, input⟩, _, output, .inl type⟩
  · intro standing_
    rw [standing_concat] at standing_
    split at standing_
    · cases standing_
    case isFalse unfinished =>
      apply Turned.noImage (x := ⟨s, event, t⟩) register step.turned (by simpa using unfinished)
      exact ((Bool.or_eq_true _ _).mp standing_).imp inv.noImage id

theorem updateModeInv_run {start final : DeviceState} {history : List DeviceTransition} (fresh : Fresh start)
    (run : Run DeviceStep start history final) (few : recordsBegun history < 2 ^ 31) :
    UpdateModeInv history final := by
  -- below 2^31 records the newest one is the last one stored
  refine soundRun_induction fresh ?_ ?_ run few
  · exact ⟨by simp [standing], by simp [standing]⟩
  · intro history s event t _ sound room inv step
    exact updateModeInv_step sound room inv step

/-- A turn that enters update mode does not pass the checks of END or SET_ROLE itself. -/
theorem answersReady_unchecked {x : DeviceTransition} (step : DeviceStep x.before x.event x.after)
    (ready : answersReady x = true) : passesChecks x = false := by
  obtain ⟨frame, reply, input, output, type⟩ := answersReady_iff.mp ready
  have turned := step.turned
  rw [output] at turned
  obtain ⟨session, frame, next, before, input, turn_, _⟩ := turned.of_reply
  obtain ⟨_, _, _, _, guard, _⟩ := turn_.of_ready type
  obtain ⟨_, _, notEnd, notRole⟩ := guards_exclusive x.before.flash session frame
  rw [passesChecks, before, input]
  simp only [checksPassed, Bool.or_eq_false_iff]
  constructor
  · by_contra accepted
    rw [(notEnd (by simpa using accepted)).2.1] at guard; cases guard
  · by_contra accepted
    rw [(notRole (by simpa using accepted)).2.1] at guard; cases guard

theorem entersUpdateMode_unchecked {x : DeviceTransition} (step : DeviceStep x.before x.event x.after)
    (enters : entersUpdateMode x = true) : passesChecks x = false := by
  rcases (Bool.or_eq_true _ _).mp enters with request | ready
  · simp only [Bool.and_eq_true, beq_iff_eq] at request
    rw [passesChecks, request.1]
    cases x.before.mode <;> rfl
  · exact answersReady_unchecked step ready

theorem passesEnd_of_unchecked {x : DeviceTransition} (unchecked : passesChecks x = false) :
    passesEnd x = false := by
  unfold passesChecks checksPassed at unchecked
  unfold passesEnd endPassed
  split
  case h_1 session frame before input =>
    simp only [before, input, Bool.or_eq_false_iff] at unchecked
    exact unchecked.1
  case h_2 => rfl

/-- After requestFirmwareUpdate has returned 0 or a BEGIN has been answered READY,
mainThread does not start the application before an END or SET_ROLE passes its
checks; and after READY no SET_ROLE passes them before an END has. -/
theorem update_mode_sticky {start final : DeviceState} {first between rest : List DeviceTransition}
    {x y : DeviceTransition} (fresh : Fresh start)
    (run : Run DeviceStep start (first ++ x :: (between ++ y :: rest)) final)
    (few : recordsBegun (first ++ x :: (between ++ y :: rest)) < 2 ^ 31) :
    (entersUpdateMode x = true → (∀ z ∈ between, passesChecks z = false) →
      ∀ handoff, y.event.output ≠ some (.handoff handoff)) ∧
    (answersReady x = true → (∀ z ∈ between, passesEnd z = false) →
      ∀ session frame, y.before.mode = .updating session → y.event.input = .frame frame →
        setRoleAccepted y.before.flash session frame = false) := by
  obtain ⟨_, step, _⟩ := run.split
  have split : first ++ x :: (between ++ y :: rest) = (first ++ x :: between) ++ y :: rest := by simp
  rw [split] at run few
  obtain ⟨before, last, _⟩ := run.split
  rw [recordsBegun_append] at few
  have inv := updateModeInv_run fresh before (by omega)
  constructor
  · intro enters unchecked handoff output
    have turned := last.turned
    rw [output] at turned
    obtain ⟨_, _, _, _, boots, _⟩ := turned.of_handoff
    apply inv.sticky (standing_of_mem enters (entersUpdateMode_unchecked step enters) unchecked)
    simp only [bootsApplication, Bool.and_eq_true, beq_iff_eq] at boots
    exact boots.1.1
  · intro ready unfinished session frame updating _
    have kept := passesEnd_of_unchecked (answersReady_unchecked step ready)
    have noImage := (inv.noImage (standing_of_mem ready kept unfinished)).2 session updating
    simp [setRoleAccepted, isApplicationImageValid, noImage]

theorem update_mode_sticky_request : ∃ history final y handoff,
    Run DeviceStep ⟨factoryFlash, .reset⟩ (history ++ [y]) final ∧ history.length = 3 ∧
    y.event.output ≠ some (.handoff handoff) := by
  obtain ⟨boot, request, off, again, flash, m, run, input, output, cut, few, _⟩ :=
    requested_update ⟨0, 0, 0, 0, 0, 0, 0, 0, 0⟩
  have requests : entersUpdateMode request = true := by simp [entersUpdateMode, input, output]
  have unchecked : passesChecks off = false := by
    rw [passesChecks, cut]
    cases off.before.mode <;> rfl
  have run' : Run DeviceStep ⟨factoryFlash, .reset⟩ ([boot] ++ request :: ([off] ++ again :: [])) _ := run
  have few' : recordsBegun ([boot] ++ request :: ([off] ++ again :: [])) < 2 ^ 31 :=
    Nat.lt_of_le_of_lt few (by decide)
  have stays := (update_mode_sticky factoryFlash_fresh run' few').1
  exact ⟨[boot, request, off], _, again, ⟨0, 0, 0⟩, run, rfl, stays requests (by simpa using unchecked) _⟩

/-- An update request that is record number 2^31 is acknowledged, and the next boot starts the application. -/
theorem sequence_wrap_loses_request : Fresh ⟨factoryFlash, .reset⟩ ∧ ∃ first x between y final handoff,
    Run DeviceStep ⟨factoryFlash, .reset⟩ (first ++ x :: (between ++ [y])) final ∧ entersUpdateMode x = true ∧
    (∀ z ∈ between, passesChecks z = false) ∧ y.event.output = some (.handoff handoff) := by
  refine ⟨factoryFlash_fresh, ?_⟩
  obtain ⟨flash, m, ⟨history, run, _⟩, stale, names, image⟩ := wrapped_application
  obtain ⟨_, running, _, started, stale', image'⟩ := stale.boot Nat.one_pos (by decide) names (by decide) image
  obtain ⟨calls, requested, _, append, stale''⟩ := stale'.append (by decide) (by decide) (updateRequest running)
  have request : Turned running .running .requestUpdate calls _ requested _ := .request append rfl
  have off : Turned requested .running .powerCut [] (some .silent) requested .reset := .powerCut
  obtain ⟨_, _, _, again, _⟩ :=
    stale''.boot (by decide) (by decide) names (by decide) (image'.append append)
  have whole := (((run.next started).next request.deviceStep).next off.deviceStep).next again
  rw [List.append_assoc _ [_] [_], List.append_assoc _ [_] _] at whole
  exact ⟨_, _, _, _, _, _, whole, rfl, by simp [passesChecks, checksPassed], rfl⟩

end Cc1310Firmware.Bootloader
