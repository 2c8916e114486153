import Cc1310Firmware.Bootloader.AttemptIds
import Cc1310Firmware.I2cSlave.Slave

/-! The start of the application, from firmware_startup.c, boot_api.c and firmware_mode.c.

The boot is confirmed when the radio task and the CLI task have both come up. Each of
them looks at the flags with interrupts disabled and calls bl_confirm_boot behind that, so
the other one may come in between. The static variables are cleared when the bootloader
hands over.
-/

set_option autoImplicit false

namespace Cc1310Firmware.Bootloader
open LittleEndian CrashProgram LabelledRun
open I2cSlave (FirmwareRole)

def blApiAddress : Nat := 0x5000
def blApiMagic : Word := 0x424C4150
def blApiVersion : Half := 2

/-- api() finds the table of the bootloader. -/
def api (flash : Flash) : Bool :=
  flash.word blApiAddress == blApiMagic && flash.half (blApiAddress + 4) == blApiVersion

/-- bl_get_startup_role -/
def blGetStartupRole (handoff : BootHandoff) : Word :=
  if handoff.magic ≠ bootHandoffMagic then appRoleRx
  else if handoff.appRole = appRoleTx then appRoleTx else appRoleRx

def firmwareRoleFromMetadata (handoff : BootHandoff) : FirmwareRole :=
  if blGetStartupRole handoff = appRoleTx then .tx else .rx

/-- The tasks that have to come up. -/
inductive StartupTask where
  | rf
  | cli
  deriving DecidableEq, Repr

/-- The static variables, and which task has set its confirmBoot. -/
structure Startup where
  rfReady : Bool
  cliReady : Bool
  bootConfirmationAttempted : Bool
  confirmBoot : StartupTask → Bool

def Startup.cleared : Startup := ⟨false, false, false, fun _ => false⟩

def Startup.setReady (startup : Startup) : StartupTask → Startup
  | .rf => { startup with rfReady := true }
  | .cli => { startup with cliReady := true }

/-- updateReadiness up to Hwi_restore. -/
def Startup.updateReadiness (startup : Startup) (task : StartupTask) : Startup :=
  let startup := startup.setReady task
  if startup.rfReady && startup.cliReady && ! startup.bootConfirmationAttempted then
    { startup with
      bootConfirmationAttempted := true
      confirmBoot := Function.update startup.confirmBoot task true }
  else startup

/-- The task returns from updateReadiness. -/
def Startup.returned (startup : Startup) (task : StartupTask) : Startup :=
  { startup with confirmBoot := Function.update startup.confirmBoot task false }

/-- The device with the RAM of the application. -/
structure Board where
  device : DeviceState
  handoff : BootHandoff
  startup : Startup
  /-- What main has read. -/
  role : FirmwareRole

/-- The application starts with a handoff. -/
def Board.after (board : Board) (event : DeviceEvent) (device : DeviceState) : Board :=
  match event.output with
  | some (.handoff handoff) => ⟨device, handoff, .cleared, firmwareRoleFromMetadata handoff⟩
  | _ => { board with device }

/-- bl_confirm_boot has returned, or power was lost in it. -/
def Board.confirmed (board : Board) (task : StartupTask) (event : DeviceEvent) (device : DeviceState) : Board :=
  { board with
    device := device
    handoff := if event.output = some (.code 0) then { board.handoff with magic := 0 } else board.handoff
    startup := board.startup.returned task }

inductive BoardEvent where
  | device (event : DeviceEvent)
  | mark (task : StartupTask)
  | confirmBoot (task : StartupTask) (call : Option DeviceEvent)

inductive BoardStep : Board → BoardEvent → Board → Prop where
  | device {b : Board} {event : DeviceEvent} {device : DeviceState} : DeviceStep b.device event device →
      (∀ id, event.input ≠ .confirmBoot id) → BoardStep b (.device event) (b.after event device)
  | mark {b : Board} {task : StartupTask} : b.device.mode = .running → b.startup.confirmBoot task = false →
      BoardStep b (.mark task) { b with startup := b.startup.updateReadiness task }
  | confirm {b : Board} {task : StartupTask} {event : DeviceEvent} {device : DeviceState} :
      b.startup.confirmBoot task = true → api b.device.flash = true → b.handoff.magic = bootHandoffMagic →
      DeviceStep b.device event device → event.input = .confirmBoot b.handoff.bootAttemptId →
      BoardStep b (.confirmBoot task (some event)) (b.confirmed task event device)
  | refuse {b : Board} {task : StartupTask} : b.device.mode = .running → b.startup.confirmBoot task = true →
      (api b.device.flash = false ∨ b.handoff.magic ≠ bootHandoffMagic) →
      BoardStep b (.confirmBoot task none) { b with startup := b.startup.returned task }

abbrev BoardTransition := Transition Board BoardEvent

/-! ### The device in a run of the board -/

def deviceEvent : BoardEvent → Option DeviceEvent
  | .device event => some event
  | .mark _ => none
  | .confirmBoot _ call => call

def deviceTransition (x : BoardTransition) : Option DeviceTransition :=
  (deviceEvent x.event).map fun event => ⟨x.before.device, event, x.after.device⟩

/-- What the device takes part in. -/
def deviceHistory (history : List BoardTransition) : List DeviceTransition := history.filterMap deviceTransition

theorem Board.after_device (board : Board) (event : DeviceEvent) (device : DeviceState) :
    (board.after event device).device = device := by
  unfold Board.after
  split
  · rfl
  · rfl

/-- The device makes a step or is left alone. -/
theorem BoardStep.onDevice {b b' : Board} {event : BoardEvent} (st : BoardStep b event b') :
    (deviceEvent event = none ∧ b'.device = b.device) ∨
    ∃ turn, deviceEvent event = some turn ∧ DeviceStep b.device turn b'.device := by
  cases st with
  | device step => exact .inr ⟨_, rfl, (Board.after_device _ _ _).symm ▸ step⟩
  | mark => exact .inl ⟨rfl, rfl⟩
  | confirm _ _ _ step => exact .inr ⟨_, rfl, step⟩
  | refuse => exact .inl ⟨rfl, rfl⟩

theorem deviceHistory_append (history later : List BoardTransition) :
    deviceHistory (history ++ later) = deviceHistory history ++ deviceHistory later :=
  List.filterMap_append

theorem deviceRun {b b' : Board} {history : List BoardTransition} (run : Run BoardStep b history b') :
    Run DeviceStep b.device (deviceHistory history) b'.device := by
  induction run with
  | nil => exact .nil
  | @next history s t event run st ih =>
    rw [deviceHistory_append]
    rcases st.onDevice with ⟨none_, same⟩ | ⟨turn, some_, step⟩
    · have silent : deviceHistory [⟨s, event, t⟩] = [] := by simp [deviceHistory, deviceTransition, none_]
      rw [silent, List.append_nil, same]
      exact ih
    · have turned : deviceHistory [⟨s, event, t⟩] = [⟨s.device, turn, t.device⟩] := by
        simp [deviceHistory, deviceTransition, some_]
      rw [turned]
      exact ih.next step

/-! ### The table of the bootloader -/

section
variable {k : Nat} {flash flash' : Flash} {calls : List FlashCall} {a : Nat}

theorem append_below {m : BootMetadata} {r : AppendResult}
    (append : Exec FlashStep (appendMetadataRecord m) flash calls r flash') (low : a < metadataPagePrimary) :
    flash' a = flash a := by
  apply exec_unchanged append
  intro c member touched
  have journal := (append.only (appendMetadataRecord_only m) c member).touches touched
  omega

theorem InApplication.below {α : Type} {p : FlashProg α} {r : Result α} (application : InApplication calls)
    (exec : Exec FlashStep p flash calls r flash') (low : a < metadataPagePrimary) : flash' a = flash a := by
  apply exec_unchanged exec
  intro c member touched
  have above := application c member a touched
  simp only [metadataPagePrimary, applicationFlashStart] at low above
  omega

theorem FrameTurn.below {session : UpdateSession} {frame : ProtocolFrame}
    {r : Result (ProtocolFrame × Continuation)} (turn_ : FrameTurn flash session frame calls r flash')
    (sound : Sound k ⟨flash, .updating session⟩) (low : a < metadataPagePrimary) : flash' a = flash a := by
  cases turn_ with
  | hello | refused | notProgrammed | rejected => rfl
  | unrecorded _ _ append | finished _ append | roleSet _ append => exact append_below append low
  | recorded _ _ append erase => rw [(inApplication_erase erase).below erase low, append_below append low]
  | block guard _ _ exec =>
    exact (inApplication_block (sound.progress session rfl (isData_active guard))).below exec low

/-- No step of the device writes below the journal. -/
theorem DeviceStep.below {s t : DeviceState} {event : DeviceEvent} (step : DeviceStep s event t) (sound : Sound k s)
    (low : a < metadataPagePrimary) : t.flash a = s.flash a := by
  obtain ⟨flash, mode⟩ := s
  obtain ⟨flash', mode'⟩ := t
  obtain ⟨input, calls, output⟩ := event
  have turned := step.turned
  dsimp only at turned sound ⊢
  cases turned with
  | powerCut | bootUpdate | confirmRefused => rfl
  | bootAttempt _ append | confirm _ append | request append => exact append_below append low
  | frame turn_ => exact turn_.below sound low

/-- The table stays as it is. -/
theorem api_of_step {s t : DeviceState} {event : DeviceEvent} (step : DeviceStep s event t) (sound : Sound k s) :
    api t.flash = api s.flash := by
  have table : ∀ i < 6, t.flash (blApiAddress + i) = s.flash (blApiAddress + i) := fun i inside =>
    step.below sound (by simp only [blApiAddress, metadataPagePrimary]; omega)
  simp only [api, Flash.word, Flash.half, Nat.add_assoc, Nat.reduceAdd, table 1 (by decide), table 2 (by decide),
    table 3 (by decide), table 4 (by decide), table 5 (by decide)]
  rw [show t.flash blApiAddress = s.flash blApiAddress from table 0 (by decide)]

end

/-! ### One boot -/

/-- What the bootloader hands over in a step. -/
def handoffOf (x : BoardTransition) : Option BootHandoff :=
  match x.event with
  | .device event =>
    match event.output with
    | some (.handoff handoff) => some handoff
    | _ => none
  | _ => none

/-- The last handoff. -/
def handedOver (history : List BoardTransition) : Option BootHandoff := (history.filterMap handoffOf).getLast?

/-- The transitions since the application was started, newest first. -/
def sinceHandoff (history : List BoardTransition) : List BoardTransition :=
  history.reverse.takeWhile fun x => (handoffOf x).isNone

def marks (task : StartupTask) (x : BoardTransition) : Bool :=
  match x.event with
  | .mark marked => marked == task
  | _ => false

/-- A call of bl_confirm_boot. -/
def callsConfirm (x : BoardTransition) : Bool :=
  match x.event with
  | .confirmBoot _ _ => true
  | _ => false

section
variable {x : BoardTransition}

theorem sinceHandoff_none (none_ : handoffOf x = none) (history : List BoardTransition) :
    sinceHandoff (history ++ [x]) = x :: sinceHandoff history := by
  unfold sinceHandoff
  rw [List.reverse_append, List.reverse_singleton, List.singleton_append,
    List.takeWhile_cons_of_pos (by rw [none_]; rfl)]

theorem sinceHandoff_some {handoff : BootHandoff} (some_ : handoffOf x = some handoff)
    (history : List BoardTransition) :
    sinceHandoff (history ++ [x]) = [] := by
  unfold sinceHandoff
  rw [List.reverse_append, List.reverse_singleton, List.singleton_append,
    List.takeWhile_cons_of_neg (by simp [some_])]

theorem handedOver_none (none_ : handoffOf x = none) (history : List BoardTransition) :
    handedOver (history ++ [x]) = handedOver history := by
  unfold handedOver
  rw [List.filterMap_append, List.filterMap_cons_none none_, List.filterMap_nil, List.append_nil]

theorem handedOver_some {handoff : BootHandoff} (some_ : handoffOf x = some handoff)
    (history : List BoardTransition) :
    handedOver (history ++ [x]) = some handoff := by
  unfold handedOver
  rw [List.filterMap_append, List.filterMap_cons_some some_, List.filterMap_nil, List.getLast?_concat]

end

/-- A turn of the device hands over to the application, or the board keeps its RAM. -/
theorem Board.after_cases (b : Board) (event : DeviceEvent) (device : DeviceState) :
    (∃ handoff, event.output = some (.handoff handoff) ∧
      b.after event device = ⟨device, handoff, .cleared, firmwareRoleFromMetadata handoff⟩) ∨
    (∀ handoff, event.output ≠ some (.handoff handoff)) ∧ b.after event device = { b with device := device } := by
  unfold Board.after
  split
  case h_1 handoff output => exact .inl ⟨handoff, output, rfl⟩
  case h_2 other => exact .inr ⟨other, rfl⟩

/-- The application runs only after a handoff. -/
theorem Turned.running_before {flash flash' : Flash} {mode : Mode} {input : Input} {calls : List FlashCall}
    {output : Option Output} (turned : Turned flash mode input calls output flash' .running)
    (none_ : ∀ handoff, output ≠ some (.handoff handoff)) : mode = .running := by
  generalize after : Mode.running = mode' at turned
  cases turned with
  | powerCut | bootUpdate => cases after
  | confirmRefused => rfl
  | confirm | request => exact after
  | bootAttempt _ _ ended =>
    rcases attempt_cases ended with ⟨m, rfl, output, _⟩ | ⟨_, _, _, _, _, same⟩ | ⟨_, _, same⟩
    · exact absurd output (none_ _)
    · rw [same] at after
      cases after
    · rw [same] at after
      cases after
  | frame _ ended =>
    rcases frame_cases ended with ⟨_, _, _, _, same⟩ | ⟨_, _, _, same⟩ | ⟨_, _, same⟩ <;> rw [same] at after <;>
      cases after

/-- The tasks on their way to bl_confirm_boot. -/
def calling (confirmBoot : StartupTask → Bool) : Nat := (confirmBoot .rf).toNat + (confirmBoot .cli).toNat

theorem calling_set {confirmBoot : StartupTask → Bool} {task : StartupTask} (idle : confirmBoot task = false) :
    calling (Function.update confirmBoot task true) = calling confirmBoot + 1 := by
  cases task with
  | rf => simp [calling, idle, Nat.add_comm]
  | cli => simp [calling, idle]

theorem calling_clear {confirmBoot : StartupTask → Bool} {task : StartupTask} (busy : confirmBoot task = true) :
    calling (Function.update confirmBoot task false) + 1 = calling confirmBoot := by
  cases task with
  | rf => simp [calling, busy, Nat.add_comm]
  | cli => simp [calling, busy]

/-- The application since its start. -/
structure Started (recent : List BoardTransition) (startup : Startup) : Prop where
  rf : startup.rfReady = recent.any (marks .rf)
  cli : startup.cliReady = recent.any (marks .cli)
  attempted : startup.bootConfirmationAttempted = (startup.rfReady && startup.cliReady)
  once : calling startup.confirmBoot + recent.countP callsConfirm = startup.bootConfirmationAttempted.toNat

theorem Started.cleared : Started [] .cleared := ⟨rfl, rfl, rfl, rfl⟩

theorem Started.other {recent : List BoardTransition} {startup : Startup} (started : Started recent startup)
    {x : BoardTransition} (unmarked : ∀ task, marks task x = false) (silent : callsConfirm x = false) :
    Started (x :: recent) startup := by
  refine ⟨?_, ?_, started.attempted, ?_⟩
  · rw [List.any_cons, unmarked, Bool.false_or, started.rf]
  · rw [List.any_cons, unmarked, Bool.false_or, started.cli]
  · rw [List.countP_cons, silent, started.once.symm]
    rfl

/-- The flags that a task finds set, and the one that it sets. -/
theorem Started.ready {recent : List BoardTransition} {startup : Startup} (started : Started recent startup)
    (task : StartupTask) (b b' : Board) :
    (startup.setReady task).rfReady = (⟨b, .mark task, b'⟩ :: recent).any (marks .rf) ∧
    (startup.setReady task).cliReady = (⟨b, .mark task, b'⟩ :: recent).any (marks .cli) := by
  cases task with
  | rf => exact ⟨rfl, started.cli⟩
  | cli => exact ⟨started.rf, rfl⟩

theorem Started.mark {recent : List BoardTransition} {startup : Startup} (started : Started recent startup)
    {task : StartupTask} (idle : startup.confirmBoot task = false) {b b' : Board} :
    Started (⟨b, .mark task, b'⟩ :: recent) (startup.updateReadiness task) := by
  obtain ⟨rf, cli⟩ := started.ready task b b'
  have kept : (startup.setReady task).bootConfirmationAttempted = startup.bootConfirmationAttempted ∧
      (startup.setReady task).confirmBoot = startup.confirmBoot := by
    cases task with
    | rf | cli => exact ⟨rfl, rfl⟩
  -- a flag that was set before stays set
  have before : startup.bootConfirmationAttempted = true →
      ((startup.setReady task).rfReady && (startup.setReady task).cliReady) = true := by
    intro attempted
    rw [started.attempted] at attempted
    obtain ⟨rf_, cli_⟩ := (Bool.and_eq_true _ _).mp attempted
    cases task with
    | rf => exact (Bool.and_eq_true _ _).mpr ⟨rfl, cli_⟩
    | cli => exact (Bool.and_eq_true _ _).mpr ⟨rf_, rfl⟩
  have once := started.once
  have silent : (⟨b, .mark task, b'⟩ :: recent).countP callsConfirm = recent.countP callsConfirm :=
    List.countP_cons_of_neg (by simp [callsConfirm])
  unfold Startup.updateReadiness
  dsimp only
  split
  case isTrue both =>
    simp only [Bool.and_eq_true, kept.1, Bool.not_eq_true'] at both
    rw [both.2] at once
    refine ⟨rf, cli, by simp [both.1], ?_⟩
    rw [silent, kept.2, calling_set idle, Nat.add_right_comm, once]
    rfl
  case isFalse rest =>
    refine ⟨rf, cli, ?_, ?_⟩
    · rw [kept.1] at rest ⊢
      cases attempted : startup.bootConfirmationAttempted with
      | true => rw [before attempted]
      | false => simpa [attempted] using rest
    · rw [silent, kept.1, kept.2, once]

theorem Started.returned {recent : List BoardTransition} {startup : Startup} (started : Started recent startup)
    {task : StartupTask} (busy : startup.confirmBoot task = true) {call : Option DeviceEvent} {b b' : Board} :
    Started (⟨b, .confirmBoot task call, b'⟩ :: recent) (startup.returned task) := by
  refine ⟨started.rf, started.cli, started.attempted, ?_⟩
  have counted : (⟨b, .confirmBoot task call, b'⟩ :: recent).countP callsConfirm = recent.countP callsConfirm + 1 :=
    List.countP_cons_of_pos rfl
  have once := started.once
  rw [← calling_clear busy, Nat.add_right_comm, Nat.add_assoc] at once
  rw [counted]
  exact once

/-! ### Runs -/

/-- What holds while the application runs. -/
structure Running (history : List BoardTransition) (b : Board) : Prop where
  started : Started (sinceHandoff history) b.startup
  handoff : ∃ handoff, handedOver history = some handoff ∧ handoff.magic = bootHandoffMagic ∧
    b.handoff.bootAttemptId = handoff.bootAttemptId ∧ b.role = firmwareRoleFromMetadata handoff

theorem handoffOf_device {b b' : Board} {event : DeviceEvent}
    (none_ : ∀ handoff, event.output ≠ some (.handoff handoff)) :
    handoffOf ⟨b, .device event, b'⟩ = none := by
  unfold handoffOf
  dsimp only
  split
  case h_1 handoff output => exact absurd output (none_ handoff)
  case h_2 => rfl

theorem running_of_confirm {state state' : DeviceState} {event : DeviceEvent} {id : Word}
    (step : DeviceStep state event state') (input : event.input = .confirmBoot id) : state.mode = .running := by
  obtain ⟨flash, mode⟩ := state
  obtain ⟨flash', mode'⟩ := state'
  obtain ⟨_, calls, output⟩ := event
  have turned := step.turned
  dsimp only at input turned
  subst input
  cases turned with
  | confirmRefused | confirm => rfl

theorem Running.step {history : List BoardTransition} {b b' : Board} {event : BoardEvent}
    (before : b.device.mode = .running → Running history b) (st : BoardStep b event b')
    (running : b'.device.mode = .running) : Running (history ++ [⟨b, event, b'⟩]) b' := by
  cases st with
  | @device event device step noConfirm =>
    rw [Board.after_device] at running
    rcases b.after_cases event device with ⟨handoff, output, after⟩ | ⟨none_, after⟩
    · have here : handoffOf ⟨b, .device event, b.after event device⟩ = some handoff := by
        simp [handoffOf, output]
      have turned := step.turned
      rw [output] at turned
      obtain ⟨_, m, _, _, _, _, whole, _⟩ := turned.of_handoff
      refine ⟨?_, handoff, handedOver_some here history, ?_, ?_, ?_⟩
      · rw [sinceHandoff_some here, after]
        exact .cleared
      · rw [whole]
      · rw [after]
      · rw [after]
    · have here : handoffOf ⟨b, .device event, b.after event device⟩ = none := handoffOf_device none_
      have turned := step.turned
      rw [running] at turned
      obtain ⟨started, handoff⟩ := before (turned.running_before none_)
      refine ⟨?_, ?_⟩
      · rw [sinceHandoff_none here, after]
        exact started.other (fun _ => rfl) rfl
      · rw [handedOver_none here, after]
        exact handoff
  | @mark task mode idle =>
    obtain ⟨started, handoff⟩ := before mode
    refine ⟨?_, ?_⟩
    · rw [sinceHandoff_none rfl]
      exact started.mark idle
    · rw [handedOver_none rfl]
      exact handoff
  | @confirm task turn device busy table magic step input =>
    obtain ⟨started, last, same, whole, id, role⟩ := before (running_of_confirm step input)
    refine ⟨?_, last, ?_, whole, ?_, role⟩
    · rw [sinceHandoff_none rfl]
      exact started.returned busy
    · rw [handedOver_none rfl]
      exact same
    · rw [← id, Board.confirmed]
      dsimp only
      split
      · rfl
      · rfl
  | @refuse task mode busy =>
    obtain ⟨started, handoff⟩ := before mode
    refine ⟨?_, ?_⟩
    · rw [sinceHandoff_none rfl]
      exact started.returned busy
    · rw [handedOver_none rfl]
      exact handoff

theorem running_of_run {start b : Board} {history : List BoardTransition} (off : start.device.mode = .reset)
    (run : Run BoardStep start history b) : b.device.mode = .running → Running history b := by
  induction run with
  | nil =>
    intro running
    rw [off] at running
    cases running
  | next _ st ih => exact fun running => Running.step ih st running

/-- A task that is on its way to bl_confirm_boot is the first one since the start, and both have come up. -/
theorem ready_of_calling {history : List BoardTransition} {b : Board} (inv : Running history b) {task : StartupTask}
    (busy : b.startup.confirmBoot task = true) :
    (sinceHandoff history).any (marks .rf) = true ∧ (sinceHandoff history).any (marks .cli) = true ∧
      (sinceHandoff history).countP callsConfirm = 0 := by
  obtain ⟨⟨rf, cli, attempted, once⟩, _⟩ := inv
  have one := calling_clear busy
  cases attempted_ : b.startup.bootConfirmationAttempted with
  | false =>
    rw [attempted_, Bool.toNat_false] at once
    omega
  | true =>
    rw [attempted_] at attempted once
    rw [Bool.toNat_true] at once
    obtain ⟨rf_, cli_⟩ := (Bool.and_eq_true _ _).mp attempted.symm
    exact ⟨rf ▸ rf_, cli ▸ cli_, by omega⟩

/-- A call of bl_confirm_boot. -/
theorem BoardStep.of_call {b b' : Board} {event : BoardEvent} (st : BoardStep b event b')
    (calls : callsConfirm ⟨b, event, b'⟩ = true) : b.device.mode = .running ∧
      (∃ task, b.startup.confirmBoot task = true) ∧
      ∀ turn, deviceEvent event = some turn → turn.input = .confirmBoot b.handoff.bootAttemptId := by
  cases st with
  | device | mark => cases calls
  | confirm busy table magic step input =>
    refine ⟨running_of_confirm step input, ⟨_, busy⟩, fun turn given => ?_⟩
    cases given
    exact input
  | refuse mode busy => exact ⟨mode, ⟨_, busy⟩, nofun⟩

/-- bl_confirm_boot is called at most once for each start of the application, after both tasks have come up since that
start, and with the id that the bootloader handed over for it. When both have come up and have returned from
updateReadiness, it has been called. -/
theorem confirmed_once_per_start {start b : Board} {history : List BoardTransition}
    (off : start.device.mode = .reset) (run : Run BoardStep start history b) :
    (∀ before x after, history = before ++ x :: after → callsConfirm x = true →
      (sinceHandoff before).any (marks .rf) = true ∧ (sinceHandoff before).any (marks .cli) = true ∧
      (sinceHandoff before).countP callsConfirm = 0 ∧
      ∀ turn, deviceEvent x.event = some turn → ∃ handoff, handedOver before = some handoff ∧
        turn.input = .confirmBoot handoff.bootAttemptId) ∧
    (b.device.mode = .running → (∀ task, b.startup.confirmBoot task = false) →
      (sinceHandoff history).countP callsConfirm =
        if (sinceHandoff history).any (marks .rf) && (sinceHandoff history).any (marks .cli) then 1 else 0) := by
  constructor
  · rintro before x after rfl calls
    obtain ⟨run', st, _⟩ := run.split
    obtain ⟨mode, ⟨task, busy⟩, ids⟩ := st.of_call calls
    have inv := running_of_run off run' mode
    obtain ⟨rf, cli, none_⟩ := ready_of_calling inv busy
    obtain ⟨last, same, _, id, _⟩ := inv.handoff
    exact ⟨rf, cli, none_, fun turn given => ⟨last, same, id ▸ ids turn given⟩⟩
  · intro mode idle
    obtain ⟨⟨rf, cli, attempted, once⟩, _⟩ := running_of_run off run mode
    have silent : calling b.startup.confirmBoot = 0 := by simp [calling, idle]
    rw [silent, attempted, rf, cli, Nat.zero_add] at once
    rw [once]
    cases (sinceHandoff history).any (marks .rf) && (sinceHandoff history).any (marks .cli) with
    | false | true => rfl

/-- A board before its first start. -/
def offBoard (flash : Flash) : Board := ⟨⟨flash, .reset⟩, ⟨0, 0, 0⟩, .cleared, .rx⟩

/-- Without a bootloader that has a table the call is made and refused. -/
theorem confirmed_once_per_start_refused : ∃ history b, Run BoardStep (offBoard factoryFlash) history b ∧
    (sinceHandoff history).countP callsConfirm = 1 := by
  obtain ⟨_, flash, step, _, _, installed⟩ :=
    factoryFlash_installed.start factoryFlash_fresh.sound (by decide) (by decide)
  have boot : BoardStep (offBoard factoryFlash) (.device ⟨_, _, _⟩) _ := .device step (by simp)
  have table : api flash = false := (api_of_step step factoryFlash_fresh.sound).trans (by decide)
  have rf := (Run.single boot).next (@BoardStep.mark _ .rf rfl rfl)
  have cli := rf.next (@BoardStep.mark _ .cli rfl rfl)
  have called := cli.next (@BoardStep.refuse _ .cli rfl rfl (.inl table))
  refine ⟨_, _, called, (confirmed_once_per_start rfl called).2 rfl ?_⟩
  intro task
  cases task with
  | rf | cli => rfl

end Cc1310Firmware.Bootloader
