import Cc1310Firmware.Bootloader.Startup
import Mathlib.Data.List.TakeWhile

/-! The failure counter against what the application does after its start.

A start in which both tasks come up takes its attempt back from the counter. A start
in which one of them does not is left in it, so that such an application is started three times
and no more.
-/

set_option autoImplicit false

namespace Cc1310Firmware.Bootloader
open LittleEndian CrashProgram LabelledRun

/-- Only a task's call reaches confirmApplicationBoot. -/
theorem BoardStep.calls_of_input {b b' : Board} {event : BoardEvent} (st : BoardStep b event b')
    {turn : DeviceEvent} (some_ : deviceEvent event = some turn) {id : Word}
    (input : turn.input = .confirmBoot id) :
    callsConfirm ⟨b, event, b'⟩ = true := by
  cases st with
  | confirm | refuse => rfl
  | mark => cases some_
  | device step noConfirm =>
    cases some_
    exact absurd input (noConfirm id)

/-! ## An application that does not come up -/

section
variable {middle final : Board} {history : List BoardTransition}

/-- Without one of the tasks no boot is confirmed. -/
theorem unconfirmed_of_dead (off : middle.device.mode = .reset) (run : Run BoardStep middle history final)
    {task : StartupTask} (dead : ∀ x ∈ history, marks task x = false) :
    (deviceHistory history).countP recordsConfirmation = 0 := by
  rw [List.countP_eq_zero]
  intro turn member confirms
  obtain ⟨x, inside, here⟩ := List.mem_filterMap.mp member
  obtain ⟨before, after, rfl⟩ := List.append_of_mem inside
  obtain ⟨run', st, _⟩ := run.split
  obtain ⟨event, some_, rfl⟩ := Option.map_eq_some_iff.mp here
  obtain ⟨id, input⟩ : ∃ id, event.input = .confirmBoot id := by
    unfold recordsConfirmation at confirms
    split at confirms
    case h_1 id input => exact ⟨id, input⟩
    case h_2 => cases confirms
  obtain ⟨mode, ⟨caller, busy⟩, _⟩ := st.of_call (st.calls_of_input some_ input)
  obtain ⟨rf, cli, _⟩ := ready_of_calling (running_of_run off run' mode) busy
  have marked : (sinceHandoff before).any (marks task) = true := by
    cases task with
    | rf => exact rf
    | cli => exact cli
  obtain ⟨y, recent, mark⟩ := List.any_eq_true.mp marked
  have earlier : y ∈ before := List.mem_reverse.mp ((List.takeWhile_sublist _).subset recent)
  rw [dead y (List.mem_append_left _ earlier)] at mark
  cases mark

end

/-- As many values are kept by the one reading as by the other. -/
theorem length_filterMap_le_countP {α β γ : Type} {f : α → Option β} {g : α → Option γ} {p : γ → Bool} {xs : List α}
    (found : ∀ x ∈ xs, ∀ y, f x = some y → ∃ z, g x = some z ∧ p z = true) :
    (xs.filterMap f).length ≤ (xs.filterMap g).countP p := by
  induction xs with
  | nil => exact Nat.le_refl 0
  | cons x xs ih =>
    have rest := ih fun x' member => found x' (List.mem_cons_of_mem _ member)
    have grows : (xs.filterMap g).countP p ≤ ((x :: xs).filterMap g).countP p :=
      ((List.sublist_cons_self x xs).filterMap g).countP_le
    cases here : f x with
    | none =>
      rw [List.filterMap_cons_none here]
      exact Nat.le_trans rest grows
    | some y =>
      obtain ⟨z, given, counts⟩ := found x List.mem_cons_self y here
      rw [List.filterMap_cons_some here, List.filterMap_cons_some given, List.countP_cons_of_pos counts]
      exact Nat.succ_le_succ rest

theorem deviceHistory_device (b : Board) (event : DeviceEvent) (device : DeviceState) :
    deviceHistory [⟨b, .device event, b.after event device⟩] = [⟨b.device, event, device⟩] := by
  simp [deviceHistory, deviceTransition, deviceEvent, Board.after_device]

theorem output_of_handoff {b b' : Board} {event : DeviceEvent} {handoff : BootHandoff}
    (given : handoffOf ⟨b, .device event, b'⟩ = some handoff) : event.output = some (.handoff handoff) := by
  unfold handoffOf at given
  dsimp only at given
  split at given
  case h_1 other output => rw [output, Option.some.inj given]
  case h_2 => cases given

/-- A step that starts the application. -/
theorem BoardStep.of_handoff {b b' : Board} {event : BoardEvent} {handoff : BootHandoff} (st : BoardStep b event b')
    (given : handoffOf ⟨b, event, b'⟩ = some handoff) : ∃ turn, deviceEvent event = some turn ∧
      turn.output = some (.handoff handoff) ∧ DeviceStep b.device turn b'.device ∧
      b' = ⟨b'.device, handoff, .cleared, firmwareRoleFromMetadata handoff⟩ := by
  cases st with
  | mark | confirm | refuse => cases given
  | @device event device step noConfirm =>
    have output := output_of_handoff given
    rcases b.after_cases event device with ⟨other, output', after⟩ | ⟨none_, _⟩
    · rw [output] at output'
      cases output'
      rw [after]
      exact ⟨event, rfl, output, step, rfl⟩
    · exact absurd output (none_ handoff)

/-- The application runs only after a start. -/
theorem BoardStep.running_before {b b' : Board} {event : BoardEvent} (st : BoardStep b event b')
    (none_ : handoffOf ⟨b, event, b'⟩ = none) (running : b'.device.mode = .running) : b.device.mode = .running := by
  cases st with
  | mark mode | refuse mode => exact mode
  | confirm _ _ _ step input => exact running_of_confirm step input
  | @device event device step noConfirm =>
    rcases b.after_cases event device with ⟨handoff, output, _⟩ | ⟨other, _⟩
    · simp [handoffOf, output] at none_
    · rw [Board.after_device] at running
      have turned := step.turned
      rw [running] at turned
      exact turned.running_before other

/-- What the bootloader hands over is a stored attempt. -/
theorem attempt_of_board {flash : Flash} {before : List BoardTransition} {b b' : Board} {event : BoardEvent}
    (chip : UncountedChip flash) (run : Run DeviceStep ⟨flash, .reset⟩ (deviceHistory before) b.device)
    (few : recordsBegun (deviceHistory (before ++ [⟨b, event, b'⟩])) < 2 ^ 31) (st : BoardStep b event b')
    {handoff : BootHandoff} (given : handoffOf ⟨b, event, b'⟩ = some handoff) :
    ∃ turn, deviceTransition ⟨b, event, b'⟩ = some turn ∧ recordsAttempt turn = true := by
  cases st with
  | mark | confirm | refuse => cases given
  | @device event device step noConfirm =>
    have output := output_of_handoff given
    rw [deviceHistory_append, deviceHistory_device, recordsBegun_append, recordsBegun_single] at few
    have sound := sound_of_run chip.fresh run (by omega)
    refine ⟨⟨b.device, event, device⟩, ?_, ?_⟩
    · simp [deviceTransition, deviceEvent, Board.after_device]
    · exact (attempt_of_handoff (x := ⟨b.device, event, device⟩) sound few step output).1

/-- While no update is begun, an application in which one of the tasks never comes up is started at most as often
as the failure counter has room. -/
theorem dead_application_gives_up {flash : Flash} {start middle final : Board}
    {before history : List BoardTransition} (chip : UncountedChip flash) (power : start.device = ⟨flash, .reset⟩)
    (run : Run BoardStep start before middle) (off : middle.device.mode = .reset)
    (rest : Run BoardStep middle history final)
    (succeed : ∀ x ∈ deviceHistory (before ++ history), NeverFails x.event.calls)
    (few : recordsBegun (deviceHistory (before ++ history)) < 2 ^ 31)
    (none_ : ∀ x ∈ deviceHistory history, recordsBegin x = false)
    {task : StartupTask} (dead : ∀ x ∈ history, marks task x = false) :
    (history.filterMap handoffOf).length + (bootMetadata middle.device.flash).unconfirmedBootCount.toNat ≤
      bootFailureLimit.toNat := by
  have first := deviceRun run
  have whole := deviceRun (run.append rest)
  rw [power] at first whole
  have few₀ : recordsBegun (deviceHistory before) < 2 ^ 31 := by
    rw [deviceHistory_append, recordsBegun_append] at few
    omega
  have succeed₀ : ∀ x ∈ deviceHistory before, NeverFails x.event.calls := by
    intro x member
    rw [deviceHistory_append] at succeed
    exact succeed x (List.mem_append_left _ member)
  obtain ⟨counted₀, _⟩ := (bootInv_run chip first succeed₀ few₀).balanced
  obtain ⟨counted, limit, _⟩ := (bootInv_run chip whole succeed few).balanced
  have silent := unconfirmed_of_dead off rest dead
  have handoffs : (history.filterMap handoffOf).length ≤ (deviceHistory history).countP recordsAttempt := by
    apply length_filterMap_le_countP
    intro x member handoff given
    obtain ⟨early, late, rfl⟩ := List.append_of_mem member
    obtain ⟨part, st, _⟩ := rest.split
    have reached := deviceRun (run.append part)
    rw [power] at reached
    apply attempt_of_board chip reached ?_ st given
    rw [← List.singleton_append, ← List.append_assoc, ← List.append_assoc, deviceHistory_append,
      recordsBegun_append] at few
    exact Nat.lt_of_le_of_lt (Nat.le_add_right _ _) few
  simp only [ledger, deviceHistory_append, attempts_append none_, confirmations_append none_, silent]
    at counted counted₀
  omega

/-- A run of a board in which every flash call is carried out. -/
structure BoardRun (flash : Flash) (n : Nat) (history : List BoardTransition) (b : Board) : Prop where
  run : Run BoardStep (offBoard flash) history b
  succeed : ∀ x ∈ deviceHistory history, NeverFails x.event.calls
  few : recordsBegun (deviceHistory history) ≤ n

section
variable {flash : Flash} {n : Nat} {history : List BoardTransition} {b b' : Board} {event : BoardEvent}

theorem BoardRun.nil : BoardRun flash 0 [] (offBoard flash) := ⟨.nil, by simp [deviceHistory], Nat.le_refl 0⟩

theorem BoardRun.silent (board : BoardRun flash n history b) (st : BoardStep b event b')
    (none_ : deviceEvent event = none) : BoardRun flash n (history ++ [⟨b, event, b'⟩]) b' := by
  have same : deviceHistory (history ++ [⟨b, event, b'⟩]) = deviceHistory history := by
    rw [deviceHistory_append]
    simp [deviceHistory, deviceTransition, none_]
  exact ⟨board.run.next st, same ▸ board.succeed, same ▸ board.few⟩

theorem BoardRun.turn (board : BoardRun flash n history b) (st : BoardStep b event b') {turn : DeviceEvent}
    (some_ : deviceEvent event = some turn) (quiet : NeverFails turn.calls) (one : recordPrograms turn.calls ≤ 1) :
    BoardRun flash (n + 1) (history ++ [⟨b, event, b'⟩]) b' := by
  have grown : deviceHistory (history ++ [⟨b, event, b'⟩]) = deviceHistory history ++
      [⟨b.device, turn, b'.device⟩] := by
    rw [deviceHistory_append]
    simp [deviceHistory, deviceTransition, some_]
  refine ⟨board.run.next st, ?_, ?_⟩
  · rw [grown]
    intro x member
    rcases List.mem_append.mp member with old | new
    · exact board.succeed x old
    · rw [List.mem_singleton.mp new]
      exact quiet
  · rw [grown, recordsBegun_append, recordsBegun_single]
    exact Nat.add_le_add board.few one

theorem BoardRun.sound (board : BoardRun flash n history b) (fresh : Fresh ⟨flash, .reset⟩) (short : n < 2 ^ 31) :
    Sound (recordsBegun (deviceHistory history)) b.device :=
  sound_of_run fresh (deviceRun board.run) (Nat.lt_of_le_of_lt board.few short)

end

/-- The first start of a factory chip whose tasks do not come up. -/
theorem dead_application_gives_up_first : ∃ x final, Run BoardStep (offBoard factoryFlash) [x] final ∧
    (handoffOf x).isSome = true ∧
    ([x].filterMap handoffOf).length +
      (bootMetadata (offBoard factoryFlash).device.flash).unconfirmedBootCount.toNat ≤ bootFailureLimit.toNat := by
  obtain ⟨calls, flash, step, quiet, one, _⟩ :=
    factoryFlash_installed.start factoryFlash_fresh.sound (by decide) (by decide)
  have boot : BoardStep (offBoard factoryFlash) (.device ⟨_, _, _⟩) _ := .device step (by simp)
  have started := BoardRun.nil.turn boot rfl quiet one
  refine ⟨_, _, started.run, rfl, ?_⟩
  refine @dead_application_gives_up factoryFlash _ _ _ [] _ factoryFlash_uncounted rfl .nil rfl started.run
    started.succeed (Nat.lt_of_le_of_lt started.few (by decide)) ?_ .rf ?_
  · rw [deviceHistory_device]
    simp [recordsBegin]
  · simp [marks]

/-! ## An application that comes up -/

theorem api_of_run {flash : Flash} {final : DeviceState} {history : List DeviceTransition}
    (chip : UncountedChip flash) (run : Run DeviceStep ⟨flash, .reset⟩ history final)
    (few : recordsBegun history < 2 ^ 31) : api final.flash = api flash := by
  refine @soundRun_induction _ _ _ (fun _ state => api state.flash = api flash) chip.fresh rfl ?_ run few
  intro _ s _ t _ sound _ same step
  rw [api_of_step step sound, same]

/-- The newest record while the application runs, by whether its boot was confirmed. -/
structure Counted (handoff : BootHandoff) (count : Nat) (called : Bool) (b : Board) (m : BootMetadata) : Prop where
  newest : newestRecord b.device.flash = some m
  id : m.bootAttemptId = handoff.bootAttemptId
  role : m.appRole = handoff.appRole
  handed : b.handoff.bootAttemptId = handoff.bootAttemptId
  started : b.role = firmwareRoleFromMetadata handoff ∧ handoff.magic = bootHandoffMagic
  waiting : called = false → m.unconfirmedBootCount.toNat = count + 1 ∧
    m.confirmedBootAttemptId ≠ m.bootAttemptId ∧ b.handoff.magic = bootHandoffMagic
  confirmed : called = true → m.unconfirmedBootCount.toNat = count

/-- The last start in a run, and what came after it. -/
structure LastStart (history before : List BoardTransition) (x : BoardTransition) (recent : List BoardTransition)
    (handoff : BootHandoff) : Prop where
  split : history = before ++ x :: recent
  given : handoffOf x = some handoff
  since : sinceHandoff history = recent.reverse

/-- The value of the counter when the last start began. -/
def countBefore (x : BoardTransition) : Nat := (bootMetadata x.before.device.flash).unconfirmedBootCount.toNat

/-- A call of confirmApplicationBoot that is accepted, and does not fail or lose power. -/
theorem Turned.carriedOut {flash flash' : Flash} {mode : Mode} {id : Word} {calls : List FlashCall}
    {output : Option Output} {record : BootMetadata}
    (turned : Turned flash mode (.confirmBoot id) calls output flash' .running)
    (accepted : confirmation flash id = some record) (succeed : NeverFails calls) :
    Exec FlashStep (appendMetadataRecord record) flash calls (.returned (sealFor (newestRecord flash) record, 0))
      flash' := by
  cases turned with
  | confirmRefused refused =>
    rw [refused] at accepted
    cases accepted
  | confirm accepted' append ended =>
    rw [accepted'] at accepted
    cases accepted
    rcases call_cases ended with ⟨m, code, rfl, _⟩ | ⟨_, _, off⟩
    · obtain rfl := append_code append succeed.journal
      rw [← append_returned append]
      exact append
    · cases off

section
variable {handoff : BootHandoff} {count k : Nat} {called : Bool} {b b' : Board} {m : BootMetadata}

theorem Counted.congr (counted : Counted handoff count called b m) (newest : newestRecord b'.device.flash = some m)
    (same : b'.handoff = b.handoff) (role : b'.role = b.role) : Counted handoff count called b' m :=
  ⟨newest, counted.id, counted.role, same ▸ counted.handed, role ▸ counted.started, same ▸ counted.waiting,
    counted.confirmed⟩

/-- The record of a start that the bootloader has just made. -/
theorem counted_start {event : DeviceEvent} {device : DeviceState} (sound : Sound k b.device)
    (room : k + recordPrograms event.calls < 2 ^ 31) (ids : IdsBelow k (bootMetadata b.device.flash))
    (step : DeviceStep b.device event device) (output : event.output = some (.handoff handoff)) :
    ∃ m, Counted handoff (bootMetadata b.device.flash).unconfirmedBootCount.toNat false
      ⟨device, handoff, .cleared, firmwareRoleFromMetadata handoff⟩ m := by
  obtain ⟨attempt, _, magic, stored, id, role⟩ :=
    attempt_of_handoff (x := ⟨b.device, event, device⟩) sound room step output
  have begun := begun_of_attempted (x := ⟨b.device, event, device⟩) sound step attempt
  have turned := step.turned
  rw [output] at turned
  obtain ⟨_, _, _, _, boots, _⟩ := turned.of_handoff
  simp only [bootsApplication, Bool.and_eq_true] at boots
  have below : (bootMetadata b.device.flash).unconfirmedBootCount.toNat < 3 := of_decide_eq_true boots.1.2
  have raised : ((bootMetadata b.device.flash).unconfirmedBootCount + 1).toNat =
      (bootMetadata b.device.flash).unconfirmedBootCount.toNat + 1 := by
    rw [BitVec.toNat_add]
    exact Nat.mod_eq_of_lt (by simp; omega)
  dsimp only at stored id role
  rw [bootMetadata_of_some stored] at id role
  refine ⟨_, stored, id.symm, role.symm, rfl, ⟨rfl, magic⟩, fun _ => ⟨raised, ?_, magic⟩, Bool.noConfusion⟩
  dsimp only at begun
  exact attempted_unconfirmed ids (by omega)

/-- What the running application asks for besides leaves the counter alone. -/
theorem Counted.running (counted : Counted handoff count called b m) {event : DeviceEvent} {device : DeviceState}
    (sound : Sound k b.device) (room : k + recordPrograms event.calls < 2 ^ 31) (mode : b.device.mode = .running)
    (step : DeviceStep b.device event device) (noConfirm : ∀ id, event.input ≠ .confirmBoot id) :
    ∃ m', Counted handoff count called { b with device := device } m' := by
  rcases (step.turned.registerTurn sound room).atomic with same | ⟨m', record, new⟩
  · exact ⟨m, counted.congr (same.trans counted.newest) rfl rfl⟩
  · rw [mode] at record
    generalize input : event.input = given at record
    cases record with
    | confirm => exact absurd input (noConfirm _)
    | request =>
      have newest := bootMetadata_of_some counted.newest
      refine ⟨_, new, ?_, ?_, counted.handed, counted.started, ?_, ?_⟩
      · exact (congrArg BootMetadata.bootAttemptId newest).trans counted.id
      · exact (congrArg BootMetadata.appRole newest).trans counted.role
      · rw [← newest] at counted
        exact counted.waiting
      · rw [← newest] at counted
        exact counted.confirmed

/-- The call for a start that was not confirmed yet is accepted and stored. -/
theorem Counted.confirm (counted : Counted handoff count false b m) {event : DeviceEvent} {device : DeviceState}
    (sound : Sound k b.device) (room : k + recordPrograms event.calls < 2 ^ 31) (succeed : NeverFails event.calls)
    (step : DeviceStep b.device event device) (input : event.input = .confirmBoot b.handoff.bootAttemptId)
    (running : device.mode = .running) (task : StartupTask) :
    ∃ m', Counted handoff count true (b.confirmed task event device) m' := by
  obtain ⟨raised, fresh, _⟩ := counted.waiting rfl
  have same : m.bootAttemptId = b.handoff.bootAttemptId := counted.id.trans counted.handed.symm
  have accepted : confirmation b.device.flash b.handoff.bootAttemptId =
      some (m.confirmed b.handoff.bootAttemptId) := by
    rw [same] at fresh
    simp [confirmation, counted.newest, same, fresh]
  have turned := step.turned
  rw [input, running] at turned
  have append := turned.carriedOut accepted succeed
  have stored := (appendTurn sound.holds room append).stored _ rfl
  have nonzero : (m.unconfirmedBootCount != 0) = true := by
    rw [bne_iff_ne]
    intro zero
    simp [zero] at raised
  have lowered : (m.unconfirmedBootCount - 1).toNat = count := by
    rw [BitVec.toNat_sub_of_le (by rw [BitVec.le_def, raised]; exact Nat.le_add_left 1 count), raised]
    rfl
  rw [confirmed_eq, if_pos nonzero] at stored
  refine ⟨_, stored, counted.id, counted.role, ?_, counted.started, Bool.noConfusion, fun _ => lowered⟩
  rw [← counted.handed, Board.confirmed]
  dsimp only
  split
  · rfl
  · rfl

end

theorem uncalled_of_count {history before recent : List BoardTransition} {x : BoardTransition}
    {handoff : BootHandoff} (last : LastStart history before x recent handoff)
    (none_ : (sinceHandoff history).countP callsConfirm = 0) :
    recent.any callsConfirm = false := by
  rw [last.since, List.countP_reverse, List.countP_eq_zero] at none_
  rw [List.any_eq_false]
  exact none_

/-- One step of the board after the last start. -/
theorem LastStart.step {k : Nat} {history before recent : List BoardTransition} {x : BoardTransition}
    {b b' : Board} {event : BoardEvent} {handoff : BootHandoff} {m : BootMetadata}
    (last : LastStart history before x recent handoff)
    (counted : Counted handoff (countBefore x) (recent.any callsConfirm) b m) (inv : Running history b)
    (sound : Sound k b.device) (table : api b.device.flash = true) (st : BoardStep b event b')
    (started : handoffOf ⟨b, event, b'⟩ = none) (running : b'.device.mode = .running)
    (succeed : ∀ turn, deviceEvent event = some turn →
      NeverFails turn.calls ∧ k + recordPrograms turn.calls < 2 ^ 31) :
    LastStart (history ++ [⟨b, event, b'⟩]) before x (recent ++ [⟨b, event, b'⟩]) handoff ∧
    ∃ m', Counted handoff (countBefore x) (recent.any callsConfirm || callsConfirm ⟨b, event, b'⟩) b' m' := by
  constructor
  · refine ⟨?_, last.given, ?_⟩
    · rw [last.split, List.append_assoc, List.cons_append]
    · rw [sinceHandoff_none started, last.since, List.reverse_append, List.reverse_singleton, List.singleton_append]
  cases st with
  | @device event device step noConfirm =>
    obtain ⟨_, room⟩ := succeed event rfl
    rcases b.after_cases event device with ⟨handoff', output, _⟩ | ⟨none_, after⟩
    · simp [handoffOf, output] at started
    · have turned := step.turned
      rw [Board.after_device] at running
      rw [running] at turned
      rw [after, show callsConfirm _ = false from rfl, Bool.or_false]
      exact counted.running sound room (turned.running_before none_) step noConfirm
  | mark =>
    rw [show callsConfirm _ = false from rfl, Bool.or_false]
    exact ⟨m, counted.congr counted.newest rfl rfl⟩
  | @confirm task event device busy table' magic step input =>
    obtain ⟨quiet, room⟩ := succeed event rfl
    obtain ⟨_, _, first⟩ := ready_of_calling inv busy
    have silent : recent.any callsConfirm = false := uncalled_of_count last first
    rw [silent] at counted ⊢
    exact counted.confirm sound room quiet step input running task
  | @refuse task mode busy refused =>
    -- the table is there, and the handoff is still whole
    obtain ⟨_, _, first⟩ := ready_of_calling inv busy
    have silent : recent.any callsConfirm = false := uncalled_of_count last first
    rw [silent] at counted
    rcases refused with missing | spent
    · rw [table] at missing
      cases missing
    · exact absurd (counted.waiting rfl).2.2 spent

theorem lastStart_run {flash : Flash} {start b : Board} {history : List BoardTransition}
    (chip : UncountedChip flash) (power : start.device = ⟨flash, .reset⟩) (table : api flash = true)
    (run : Run BoardStep start history b) :
    (∀ x ∈ deviceHistory history, NeverFails x.event.calls) → recordsBegun (deviceHistory history) < 2 ^ 31 →
    b.device.mode = .running → ∃ before x recent handoff m, LastStart history before x recent handoff ∧
      Counted handoff (countBefore x) (recent.any callsConfirm) b m := by
  have off : start.device.mode = .reset := by rw [power]
  induction run with
  | nil =>
    intro _ _ running
    rw [off] at running
    cases running
  | @next history b b' event run st ih =>
    intro succeed few running
    rw [deviceHistory_append] at succeed few
    rw [recordsBegun_append] at few
    have quiet : ∀ x ∈ deviceHistory history, NeverFails x.event.calls := fun x member =>
      succeed x (List.mem_append_left _ member)
    have device := deviceRun run
    rw [power] at device
    have sound := sound_of_run chip.fresh device (by omega)
    have turn : ∀ turn, deviceEvent event = some turn →
        NeverFails turn.calls ∧ recordsBegun (deviceHistory history) + recordPrograms turn.calls < 2 ^ 31 := by
      intro turn given
      have here : deviceHistory [⟨b, event, b'⟩] = [⟨b.device, turn, b'.device⟩] := by
        simp [deviceHistory, deviceTransition, given]
      rw [here] at succeed few
      rw [recordsBegun_single] at few
      exact ⟨succeed _ (List.mem_append_right _ (List.mem_singleton.mpr rfl)), few⟩
    cases given : handoffOf ⟨b, event, b'⟩ with
    | some handoff =>
      obtain ⟨turn_, here, output, step, after⟩ := st.of_handoff given
      have ids := idsBelow_run chip device quiet (by omega)
      obtain ⟨m, counted⟩ := counted_start sound (turn turn_ here).2 ids step output
      refine ⟨history, _, [], handoff, m, ⟨rfl, given, sinceHandoff_some given history⟩, ?_⟩
      rw [after]
      exact counted
    | none =>
      have before := st.running_before given running
      obtain ⟨early, x, recent, handoff, m, last, counted⟩ := ih quiet (by omega) before
      obtain ⟨last', m', counted'⟩ := last.step counted (running_of_run off run before) sound
        (table ▸ api_of_run chip device (by omega)) st given running turn
      refine ⟨early, x, _, handoff, m', last', ?_⟩
      rw [List.any_append, List.any_cons, List.any_nil, Bool.or_false]
      exact counted'

theorem role_of_handoff {handoff : BootHandoff} (magic : handoff.magic = bootHandoffMagic) :
    firmwareRoleFromMetadata handoff = if handoff.appRole = appRoleTx then .tx else .rx := by
  unfold firmwareRoleFromMetadata blGetStartupRole
  rw [if_neg (not_not_intro magic)]
  by_cases tx : handoff.appRole = appRoleTx
  · rw [if_pos tx, if_pos rfl, if_pos tx]
  · rw [if_neg tx, if_neg (by decide), if_neg tx]

/-- With the table of the bootloader in place, a start takes its attempt back from the failure counter exactly when
both tasks have come up since, and the application runs in the role of the newest record. -/
theorem ready_start_is_uncounted {flash : Flash} {start b : Board} {history : List BoardTransition}
    (chip : UncountedChip flash) (power : start.device = ⟨flash, .reset⟩) (table : api flash = true)
    (run : Run BoardStep start history b) (succeed : ∀ x ∈ deviceHistory history, NeverFails x.event.calls)
    (few : recordsBegun (deviceHistory history) < 2 ^ 31) (running : b.device.mode = .running)
    (idle : ∀ task, b.startup.confirmBoot task = false) :
    b.role = (if (bootMetadata b.device.flash).appRole = appRoleTx then .tx else .rx) ∧
    ∃ before x recent, history = before ++ x :: recent ∧ (handoffOf x).isSome = true ∧
      (∀ y ∈ recent, handoffOf y = none) ∧
      (bootMetadata b.device.flash).unconfirmedBootCount.toNat +
        (if recent.any (marks .rf) && recent.any (marks .cli) then 1 else 0) =
      (bootMetadata x.before.device.flash).unconfirmedBootCount.toNat + 1 := by
  obtain ⟨before, x, recent, handoff, m, last, counted⟩ := lastStart_run chip power table run succeed few running
  have off : start.device.mode = .reset := by rw [power]
  obtain ⟨⟨rf, cli, attempted, once⟩, _⟩ := running_of_run off run running
  have newest := bootMetadata_of_some counted.newest
  obtain ⟨role, magic⟩ := counted.started
  refine ⟨?_, before, x, recent, last.split, ?_, ?_, ?_⟩
  · rw [role, newest, counted.role]
    exact role_of_handoff magic
  · rw [last.given]
    rfl
  · intro y member
    have inside : y ∈ sinceHandoff history := by
      rw [last.since]
      exact List.mem_reverse.mpr member
    have none_ := List.mem_takeWhile_imp inside
    simpa using none_
  · -- the call was made exactly when both tasks came up
    have silent : calling b.startup.confirmBoot = 0 := by simp [calling, idle]
    rw [silent, attempted, rf, cli, Nat.zero_add, last.since, List.countP_reverse, List.any_reverse,
      List.any_reverse] at once
    rw [newest]
    change _ = countBefore x + 1
    cases called : recent.any callsConfirm with
    | true =>
      have positive : 0 < recent.countP callsConfirm := List.countP_pos_iff.mpr (List.any_eq_true.mp called)
      rw [counted.confirmed called]
      cases both : recent.any (marks .rf) && recent.any (marks .cli) with
      | true => rfl
      | false =>
        rw [both, Bool.toNat_false] at once
        omega
    | false =>
      have none_ : recent.countP callsConfirm = 0 := by
        rw [List.countP_eq_zero]
        exact List.any_eq_false.mp called
      rw [(counted.waiting called).1]
      cases both : recent.any (marks .rf) && recent.any (marks .cli) with
      | true =>
        rw [both, none_] at once
        cases once
      | false => rfl

/-- The table as it stands in flash. -/
def blApiBytes : List Byte := [0x50, 0x41, 0x4C, 0x42, 0x02, 0x00]

/-- A factory chip with its bootloader's table. -/
def boardFlash : Flash := fun a =>
  if blApiAddress ≤ a ∧ a < blApiAddress + 6 then blApiBytes.getD (a - blApiAddress) 0xFF else factoryFlash a

theorem boardFlash_above {a : Nat} (above : metadataPagePrimary ≤ a) : boardFlash a = factoryFlash a := by
  apply if_neg
  simp only [metadataPagePrimary, blApiAddress] at above ⊢
  omega

theorem FactoryChip.congr {flash flash' : Flash} {record : BootMetadata} (chip : FactoryChip flash record)
    (same : ∀ a, metadataPagePrimary ≤ a → flash' a = flash a) : FactoryChip flash' record := by
  have slot : ∀ side index i, index < recordsPerPage → i < sizeofBootMetadata →
      flash' (slotAddress side index + i) = flash (slotAddress side index + i) := by
    intro side index i hi hi'
    have page := slot_in_page side hi hi'
    have journal := pages_in_journal side
    exact same _ (by omega)
  refine ⟨⟨?_, ?_⟩, ?_, chip.state, ?_⟩
  · rw [isValidMetadataRecord_congr fun i hi => slot .first 0 i (by decide) hi]
    exact chip.journal.valid
  · intro side index hi other
    rw [isErasedRecord_congr fun i hi' => slot side index i hi hi']
    exact chip.journal.erased side index hi other
  · rw [loadRecord_congr fun i hi => slot .first 0 i (by decide) hi]
    exact chip.stored
  · have bytes : flash'.bytes applicationFlashStart record.imageSize.toNat =
        flash.bytes applicationFlashStart record.imageSize.toNat :=
      Flash.bytes_congr fun i _ => same _ (Nat.le_trans (by decide) (Nat.le_add_right applicationFlashStart i))
    rw [← chip.crc, applicationCrc32, bytes, applicationCrc32]

theorem boardFlash_chip : FactoryChip boardFlash factoryRecord :=
  factoryFlash_chip.congr fun _ above => boardFlash_above above

theorem boardFlash_uncounted : UncountedChip boardFlash := .inr ⟨_, boardFlash_chip, rfl, rfl, rfl⟩

theorem boardFlash_installed : Installed factoryRecord boardFlash := by
  refine ⟨boardFlash_chip.newest, factoryFlash_installed.state, ?_⟩
  have above : ∀ a, applicationFlashStart ≤ a → boardFlash a = factoryFlash a := fun a lo =>
    boardFlash_above (Nat.le_trans (by decide) lo)
  rw [(imageValid_congr above).2]
  exact factoryFlash_installed.image

/-- Both tasks come up, and the boot is confirmed. -/
theorem ready_start_is_uncounted_confirmed : ∃ history b, Run BoardStep (offBoard boardFlash) history b ∧
    b.role = (if (bootMetadata b.device.flash).appRole = appRoleTx then .tx else .rx) ∧
    ∃ before x recent, history = before ++ x :: recent ∧ (handoffOf x).isSome = true ∧
      (∀ y ∈ recent, handoffOf y = none) ∧
      (bootMetadata b.device.flash).unconfirmedBootCount.toNat +
        (if recent.any (marks .rf) && recent.any (marks .cli) then 1 else 0) =
      (bootMetadata x.before.device.flash).unconfirmedBootCount.toNat + 1 := by
  have table : api boardFlash = true := by decide
  have fresh := boardFlash_uncounted.fresh
  obtain ⟨calls, flash, step, quiet, one, installed⟩ :=
    boardFlash_installed.start fresh.sound (by decide) (by decide)
  have boot : BoardStep (offBoard boardFlash) (.device ⟨_, _, _⟩) _ := .device step (by simp)
  have marked := ((BoardRun.nil.turn boot rfl quiet one).silent (@BoardStep.mark _ .rf rfl rfl) rfl).silent
    (@BoardStep.mark _ .cli rfl rfl) rfl
  obtain ⟨calls', flash', step', quiet', one', _⟩ := installed.confirmBoot (marked.sound fresh (by decide))
    (Nat.lt_of_le_of_lt (Nat.succ_le_succ marked.few) (by decide)) (by decide)
  have table' := (api_of_step step fresh.sound).trans table
  have called := marked.turn (@BoardStep.confirm _ .cli _ _ rfl table' rfl step' rfl) rfl quiet' one'
  refine ⟨_, _, called.run, ready_start_is_uncounted boardFlash_uncounted rfl table called.run called.succeed
    (Nat.lt_of_le_of_lt called.few (by decide)) rfl ?_⟩
  intro task
  cases task with
  | rf | cli => rfl

end Cc1310Firmware.Bootloader
