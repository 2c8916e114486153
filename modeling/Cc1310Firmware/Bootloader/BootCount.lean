import Cc1310Firmware.Bootloader.ImageSafety

/-! The accounting of boot attempts, while flash calls do not fail.

The counter in the newest record is the number of stored attempts minus the
number of stored confirmations since the last stored BEGIN. An attempt raises
the counter and leaves its id unconfirmed; a confirmation needs such an id, so
it finds a counter to lower.
-/

set_option autoImplicit false

namespace Cc1310Firmware.Bootloader
open CrashProgram LabelledRun

/-- The transition left a new newest record, whether power was cut or not. -/
def persists (x : DeviceTransition) : Bool := newestRecord x.after.flash != newestRecord x.before.flash

def recordsAttempt (x : DeviceTransition) : Bool :=
  match x.event.input with
  | .boot _ => persists x
  | _ => false

def recordsConfirmation (x : DeviceTransition) : Bool :=
  match x.event.input with
  | .confirmBoot _ => persists x
  | _ => false

def recordsBegin (x : DeviceTransition) : Bool :=
  match x.event.input with
  | .frame frame => isBegin frame && persists x
  | _ => false

/-- The transitions after the last stored BEGIN, newest first. -/
def sinceBegin (history : List DeviceTransition) : List DeviceTransition :=
  history.reverse.takeWhile fun x => !recordsBegin x

def attempts (history : List DeviceTransition) : Nat := (sinceBegin history).countP recordsAttempt

def confirmations (history : List DeviceTransition) : Nat := (sinceBegin history).countP recordsConfirmation

theorem sinceBegin_concat (history : List DeviceTransition) (x : DeviceTransition) :
    sinceBegin (history ++ [x]) = if recordsBegin x then [] else x :: sinceBegin history := by
  unfold sinceBegin
  rw [List.reverse_append, List.reverse_singleton, List.singleton_append, List.takeWhile_cons]
  cases recordsBegin x <;> rfl

/-- An attempt whose confirmation is still to come. -/
def pending : List DeviceTransition → Bool := standing recordsAttempt fun x =>
    recordsConfirmation x || recordsBegin x

/-- The ledger of a run, as far as one transition changes it. -/
structure Ledger where
  attempts : Nat
  confirmations : Nat
  pending : Bool
  deriving DecidableEq, Repr

def ledger (history : List DeviceTransition) : Ledger := ⟨attempts history, confirmations history, pending history⟩

theorem ledger_concat (history : List DeviceTransition) (x : DeviceTransition) :
    ledger (history ++ [x]) =
      if recordsBegin x then ⟨0, 0, false⟩
      else ⟨(ledger history).attempts + if recordsAttempt x then 1 else 0,
        (ledger history).confirmations + if recordsConfirmation x then 1 else 0,
        if recordsConfirmation x then false else (ledger history).pending || recordsAttempt x⟩ := by
  simp only [ledger, attempts, confirmations, pending, sinceBegin_concat, standing_concat]
  cases recordsBegin x <;> simp [List.countP_cons]

/-- A new record never equals the one it follows. -/
theorem sealFor_ne (value : Option BootMetadata) (m : BootMetadata) : some (sealFor value m) ≠ value := by
  intro same
  have sequence : ∀ s : Word, s + 1 ≠ s := by
    intro s
    simp
  rcases value with _ | old
  · cases same
  · exact sequence old.sequenceNumber (congrArg BootMetadata.sequenceNumber (Option.some.inj same))

theorem persists_of_sealed {x : DeviceTransition} {m : BootMetadata}
    (new : newestRecord x.after.flash = some (sealFor (newestRecord x.before.flash) m)) : persists x = true := by
  rw [persists, new]
  exact bne_iff_ne.mpr (sealFor_ne _ m)

theorem persists_of_same {x : DeviceTransition} (same : newestRecord x.after.flash = newestRecord x.before.flash) :
    persists x = false := by
  simp [persists, same]

theorem ledger_of_same {history : List DeviceTransition} {x : DeviceTransition}
    (same : newestRecord x.after.flash = newestRecord x.before.flash) :
    ledger (history ++ [x]) = ledger history := by
  have none_ := persists_of_same same
  have attempt : recordsAttempt x = false := by unfold recordsAttempt; split <;> simp [none_]
  have confirmation : recordsConfirmation x = false := by unfold recordsConfirmation; split <;> simp [none_]
  have begin_ : recordsBegin x = false := by unfold recordsBegin; split <;> simp [none_]
  simp [ledger_concat, attempt, confirmation, begin_]

/-! ## Sessions while flash calls do not fail -/

/-- No call on the journal reports an error; power may be cut. -/
def JournalNeverFails (calls : List FlashCall) : Prop := ∀ c ∈ calls, c.command.InJournal → c.status ≠ .failed

theorem NeverFails.journal {calls : List FlashCall} (succeed : NeverFails calls) : JournalNeverFails calls :=
  fun c member _ => succeed c member

theorem append_code {m m' : BootMetadata} {code : Int} {flash flash' : Flash} {calls : List FlashCall}
    (append : Exec FlashStep (appendMetadataRecord m) flash calls (.returned (m', code)) flash')
    (succeed : JournalNeverFails calls) : code = 0 :=
  (append_result m flash _ _ _ append m' code rfl).2.of_neverFails fun c member =>
    succeed c member (append.only (appendMetadataRecord_only m) c member)

/-- The update loop keeps both its metadata and the newest record, or works with the newest record. -/
theorem FrameTurn.kept_or_loaded {k : Nat} {flash flash' : Flash} {session session' : UpdateSession}
    {frame reply : ProtocolFrame} {calls : List FlashCall}
    (turn_ : FrameTurn flash session frame calls (.returned (reply, .loop session')) flash')
    (sound : Sound k ⟨flash, .updating session⟩) (room : k + recordPrograms calls < 2 ^ 31)
    (succeed : JournalNeverFails calls) :
    session'.metadata = session.metadata ∧ bootMetadata flash' = bootMetadata flash ∨
    session'.metadata = bootMetadata flash' := by
  generalize ended : Result.returned (reply, Continuation.loop session') = r at turn_
  cases turn_ with
  | hello | refused | rejected | notProgrammed => cases ended; exact .inl ⟨rfl, rfl⟩
  | unrecorded _ _ append unrecorded =>
    obtain ⟨⟨m', code⟩, rfl, _⟩ := Result.map_eq_returned.mp ended.symm
    obtain rfl := append_code append succeed
    exact absurd rfl (unrecorded m')
  | recorded _ _ append erase =>
    obtain ⟨code, _, same⟩ := Result.map_eq_returned.mp ended.symm
    rw [bootMetadata_of_some (recorded_newest sound.holds room append erase), ← append_returned append]
    rcases beginReply_loop same with ⟨_, _, rfl⟩ | ⟨_, _, rfl⟩ <;> exact .inr rfl
  | block guard _ _ exec =>
    have progress := sound.progress session rfl (isData_active guard)
    obtain ⟨failed, _, same⟩ := Result.map_eq_returned.mp ended.symm
    cases same
    refine .inl ⟨?_, bootMetadata_congr ((inApplication_block progress).register sound.holds exec).2⟩
    cases failed <;> rfl
  | finished _ append | roleSet _ append =>
    obtain ⟨⟨m', code⟩, rfl, same⟩ := Result.map_eq_returned.mp ended.symm
    obtain rfl := append_code append succeed
    exact absurd rfl (commitReply_loop same).1

/-- The update loop works with the newest record. -/
theorem FrameTurn.loaded {k : Nat} {flash flash' : Flash} {session session' : UpdateSession}
    {frame reply : ProtocolFrame} {calls : List FlashCall}
    (turn_ : FrameTurn flash session frame calls (.returned (reply, .loop session')) flash')
    (sound : Sound k ⟨flash, .updating session⟩) (room : k + recordPrograms calls < 2 ^ 31)
    (succeed : NeverFails calls) (loaded : session.metadata = bootMetadata flash) :
    session'.metadata = bootMetadata flash' := by
  rcases turn_.kept_or_loaded sound room succeed.journal with ⟨kept, same⟩ | loads
  · rw [kept, same, loaded]
  · exact loads

/-- The session works with the newest record. -/
def Loaded (state : DeviceState) : Prop :=
  ∀ session, state.mode = .updating session → session.metadata = bootMetadata state.flash

theorem Loaded.step {k : Nat} {s t : DeviceState} {event : DeviceEvent} (loaded : Loaded s) (sound : Sound k s)
    (room : k + recordPrograms event.calls < 2 ^ 31) (succeed : NeverFails event.calls)
    (step : DeviceStep s event t) :
    Loaded t := by
  obtain ⟨flash, mode⟩ := s
  obtain ⟨flash', mode'⟩ := t
  obtain ⟨input, calls, output⟩ := event
  have turned := step.turned
  intro session' after
  dsimp only at *
  subst after
  cases turned with
  | bootUpdate => rfl
  | bootAttempt _ append ended =>
    rcases attempt_cases ended with ⟨_, _, _, same⟩ | ⟨_, _, failed, rfl, _, _⟩ | ⟨_, _, same⟩
    · cases same
    · exact absurd (append_code append succeed.journal) failed
    · cases same
  | confirm _ _ ended | request _ ended =>
    rcases call_cases ended with ⟨_, _, _, _, same⟩ | ⟨_, _, same⟩ <;> cases same
  | frame turn_ ended =>
    rcases frame_cases ended with ⟨_, _, rfl, _, same⟩ | ⟨_, _, _, same⟩ | ⟨_, _, same⟩ <;> cases same
    exact turn_.loaded sound room succeed (loaded _ rfl)

/-! ## The ledger and the record -/

/-- The counters of the record agree with the ledger. -/
structure Balanced (l : Ledger) (m : BootMetadata) : Prop where
  counted : m.unconfirmedBootCount.toNat + l.confirmations = l.attempts
  limit : m.unconfirmedBootCount.toNat ≤ bootFailureLimit.toNat
  confirmed : l.pending = false → m.confirmedBootAttemptId = m.bootAttemptId
  unconfirmed : l.pending = true → m.unconfirmedBootCount ≠ 0

def emptyLedger : Ledger := ⟨0, 0, false⟩

theorem balanced_empty {m : BootMetadata} (count : m.unconfirmedBootCount = 0)
    (ids : m.confirmedBootAttemptId = m.bootAttemptId) : Balanced emptyLedger m where
  counted := by rw [count]; rfl
  limit := by rw [count]; exact Nat.zero_le _
  confirmed _ := ids
  unconfirmed pending := by cases pending

section
variable {l : Ledger} {m m' : BootMetadata}

theorem Balanced.congr (balanced : Balanced l m) (count : m'.unconfirmedBootCount = m.unconfirmedBootCount)
    (boot : m'.bootAttemptId = m.bootAttemptId) (confirmed : m'.confirmedBootAttemptId = m.confirmedBootAttemptId) :
    Balanced l m' where
  counted := by rw [count]; exact balanced.counted
  limit := by rw [count]; exact balanced.limit
  confirmed pending := by rw [boot, confirmed]; exact balanced.confirmed pending
  unconfirmed pending := by rw [count]; exact balanced.unconfirmed pending

theorem Balanced.attempted (balanced : Balanced l m) (below : m.unconfirmedBootCount < bootFailureLimit) :
    Balanced ⟨l.attempts + 1, l.confirmations, true⟩ m.attempted := by
  have limit : m.unconfirmedBootCount.toNat < 3 := below
  have count : m.attempted.unconfirmedBootCount.toNat = m.unconfirmedBootCount.toNat + 1 := by
    change (m.unconfirmedBootCount + 1).toNat = _
    rw [BitVec.toNat_add]
    exact Nat.mod_eq_of_lt (by simp; omega)
  have counted := balanced.counted
  constructor
  · rw [count]
    dsimp only
    omega
  · rw [count]
    exact limit
  · intro pending
    cases pending
  · intro _ zero
    rw [zero] at count
    simp at count

/-- A confirmation that is accepted finds an attempt to confirm. -/
theorem Balanced.confirm (balanced : Balanced l m) (fresh : m.confirmedBootAttemptId ≠ m.bootAttemptId) :
    l.pending = true ∧ Balanced ⟨l.attempts, l.confirmations + 1, false⟩ (m.confirmed m.bootAttemptId) := by
  have pending : l.pending = true := by
    rw [← Bool.not_eq_false]
    exact fun idle => fresh (balanced.confirmed idle)
  have positive := balanced.unconfirmed pending
  have above : 1 ≤ m.unconfirmedBootCount.toNat := by
    rw [Nat.one_le_iff_ne_zero]
    exact fun zero => positive (BitVec.eq_of_toNat_eq zero)
  have lowered : m.confirmed m.bootAttemptId = { m with
      confirmedBootAttemptId := m.bootAttemptId
      unconfirmedBootCount := m.unconfirmedBootCount - 1 } := by
    unfold BootMetadata.confirmed
    exact if_pos (bne_iff_ne.mpr positive)
  have count : (m.unconfirmedBootCount - 1).toNat = m.unconfirmedBootCount.toNat - 1 :=
    BitVec.toNat_sub_of_le (by rw [BitVec.le_def]; exact above)
  have counted := balanced.counted
  have limit := balanced.limit
  rw [lowered]
  refine ⟨pending, ?_, ?_, ?_, ?_⟩
  · dsimp only
    rw [count]
    omega
  · dsimp only
    rw [count]
    omega
  · intro _
    rfl
  · intro idle
    cases idle

end

/-! ## Runs -/

structure BootInv (history : List DeviceTransition) (state : DeviceState) : Prop where
  loaded : Loaded state
  balanced : Balanced (ledger history) (bootMetadata state.flash)
  session : ¬ NoActiveSession state.mode → ledger history = emptyLedger

section
variable {k : Nat} {history : List DeviceTransition} {s t : DeviceState} {event : DeviceEvent} {m : BootMetadata}

theorem active_of_accepted {session : UpdateSession} {frame : ProtocolFrame}
    (accepted : endAccepted s.flash session frame = true) (mode : s.mode = .updating session) :
    ¬ NoActiveSession s.mode := by
  intro inactive
  simp [endAccepted, inactive session mode] at accepted

/-- A stored record balances the ledger again. -/
theorem TurnRecord.balanced (record : TurnRecord s.flash s.mode event.input m) (inv : BootInv history s)
    (new : newestRecord t.flash = some (sealFor (newestRecord s.flash) m)) :
    Balanced (ledger (history ++ [⟨s, event, t⟩])) m := by
  have stored : persists ⟨s, event, t⟩ = true := persists_of_sealed new
  generalize mode : s.mode = here at record
  generalize input : event.input = given at record
  have old := inv.balanced
  cases record with
  | attempt boots =>
    have entry : ledger (history ++ [⟨s, event, t⟩]) =
        ⟨(ledger history).attempts + 1, (ledger history).confirmations, true⟩ := by
      simp [ledger_concat, recordsBegin, recordsAttempt, recordsConfirmation, input, stored]
    simp only [bootsApplication, Bool.and_eq_true] at boots
    rw [entry]
    exact old.attempted (of_decide_eq_true boots.1.2)
  | confirm newest same fresh =>
    subst same
    rw [bootMetadata_of_some newest] at old
    have entry : ledger (history ++ [⟨s, event, t⟩]) =
        ⟨(ledger history).attempts, (ledger history).confirmations + 1, false⟩ := by
      simp [ledger_concat, recordsBegin, recordsAttempt, recordsConfirmation, input, stored]
    rw [entry]
    exact (old.confirm fresh).2
  | request =>
    have entry : ledger (history ++ [⟨s, event, t⟩]) = ledger history := by
      simp [ledger_concat, recordsBegin, recordsAttempt, recordsConfirmation, input]
    rw [entry]
    exact old.congr rfl rfl rfl
  | begins guard =>
    have entry : ledger (history ++ [⟨s, event, t⟩]) = emptyLedger := by
      simp [ledger_concat, recordsBegin, input, guard, stored, emptyLedger]
    rw [entry]
    exact balanced_empty rfl rfl
  | @ends session frame accepted =>
    have guard := ((guards_exclusive s.flash session frame).2.2.1 accepted).2.1
    have entry : ledger (history ++ [⟨s, event, t⟩]) = ledger history := by
      simp [ledger_concat, recordsBegin, recordsAttempt, recordsConfirmation, input, guard]
    rw [entry, inv.session (active_of_accepted accepted mode)]
    exact balanced_empty rfl rfl
  | @setsRole session frame accepted =>
    -- SET_ROLE stores the session's copy, which is the newest record
    have guard := ((guards_exclusive s.flash session frame).2.2.2 accepted).2.1
    have entry : ledger (history ++ [⟨s, event, t⟩]) = ledger history := by
      simp [ledger_concat, recordsBegin, recordsAttempt, recordsConfirmation, input, guard]
    have metadata := inv.loaded session mode
    rw [entry]
    apply old.congr <;> rw [← metadata] <;> rfl

/-- In an update loop nothing but frames changes the journal. -/
theorem ledger_of_updating {session : UpdateSession} (mode : s.mode = .updating session)
    (step : DeviceStep s event t)
    (empty : ledger history = emptyLedger) : ledger (history ++ [⟨s, event, t⟩]) = emptyLedger := by
  have quiet : recordsAttempt ⟨s, event, t⟩ = false ∧ recordsConfirmation ⟨s, event, t⟩ = false := by
    obtain ⟨flash, here⟩ := s
    obtain ⟨flash', here'⟩ := t
    obtain ⟨input, calls, output⟩ := event
    have turned := step.turned
    dsimp only at mode turned
    subst mode
    cases turned <;> exact ⟨rfl, rfl⟩
  rw [ledger_concat, quiet.1, quiet.2, empty]
  split <;> rfl

theorem bootInv_step (sound : Sound k s) (room : k + recordPrograms event.calls < 2 ^ 31)
    (succeed : NeverFails event.calls) (inv : BootInv history s) (step : DeviceStep s event t) :
    BootInv (history ++ [⟨s, event, t⟩]) t := by
  have register := step.turned.registerTurn sound room
  constructor
  case loaded => exact inv.loaded.step sound room succeed step
  case balanced =>
    rcases register.atomic with same | ⟨m, record, new⟩
    · have unchanged : ledger (history ++ [⟨s, event, t⟩]) = ledger history := ledger_of_same same
      rw [unchanged, bootMetadata_congr same]
      exact inv.balanced
    · rw [bootMetadata_of_some new]
      exact (record.balanced inv new).congr rfl rfl rfl
  case session =>
    intro active
    by_cases ready : answersReady ⟨s, event, t⟩ = true
    · obtain ⟨⟨frame, input, guard⟩, new, _⟩ := Turned.ready (x := ⟨s, event, t⟩) register step.turned ready
      have stored : recordsBegin ⟨s, event, t⟩ = true := by
        unfold recordsBegin
        rw [input]
        exact Bool.and_eq_true_iff.mpr ⟨guard, persists_of_sealed new⟩
      rw [ledger_concat, if_pos stored]
      rfl
    · have before : ¬ NoActiveSession s.mode := by
        intro inactive
        apply active
        apply Turned.stays_inactive (x := ⟨s, event, t⟩) step.turned inactive
        simpa [answersReady] using ready
      cases mode : s.mode with
      | reset | running => rw [mode] at before; exact absurd (by rintro _ ⟨⟩) before
      | updating session => exact ledger_of_updating mode step (inv.session before)

end

/-- A chip without records, or one from the factory whose application was never booted. -/
def UncountedChip (flash : Flash) : Prop :=
  ErasedJournal flash ∨ ∃ record, FactoryChip flash record ∧
    record.unconfirmedBootCount = 0 ∧ record.bootAttemptId = 0 ∧ record.confirmedBootAttemptId = 0

theorem UncountedChip.fresh {flash : Flash} (chip : UncountedChip flash) : Fresh ⟨flash, .reset⟩ :=
  ⟨chip.imp id fun ⟨_, factory, _⟩ => factory.journal, rfl⟩

theorem bootInv_start {flash : Flash} (chip : UncountedChip flash) : BootInv [] ⟨flash, .reset⟩ := by
  constructor
  · rintro _ ⟨⟩
  · rcases chip with erased | ⟨record, factory, count, boot, confirmed⟩
    · have newest : bootMetadata flash = setDefaultMetadata := by
        rw [bootMetadata, erased.holds.newestRecord_eq]; rfl
      rw [newest]
      exact balanced_empty rfl rfl
    · rw [bootMetadata_of_some factory.newest]
      exact balanced_empty count (by rw [boot, confirmed])
  · intro active
    exact absurd (by rintro _ ⟨⟩) active

theorem bootInv_run {flash : Flash} {final : DeviceState} {history : List DeviceTransition}
    (chip : UncountedChip flash) (run : Run DeviceStep ⟨flash, .reset⟩ history final)
    (succeed : ∀ x ∈ history, NeverFails x.event.calls) (few : recordsBegun history < 2 ^ 31) :
    BootInv history final := by
  refine @soundRun_induction _ _ _ (fun history state => (∀ x ∈ history, NeverFails x.event.calls) →
    BootInv history state) chip.fresh ?_ ?_ run few succeed
  · intro _
    exact bootInv_start chip
  · intro history s event t _ sound room ih step succeed
    have last := succeed _ (List.mem_append_right _ (List.mem_singleton.mpr rfl))
    exact bootInv_step sound room last (ih fun x member => succeed x (List.mem_append_left _ member)) step

/-- A stored confirmation finds an attempt that is still pending. -/
theorem pending_of_confirmation {k : Nat} {history : List DeviceTransition} {x : DeviceTransition}
    (sound : Sound k x.before) (room : k + recordPrograms x.event.calls < 2 ^ 31) (inv : BootInv history x.before)
    (step : DeviceStep x.before x.event x.after) (confirms : recordsConfirmation x = true) :
    pending history = true := by
  have register := step.turned.registerTurn sound room
  unfold recordsConfirmation at confirms
  split at confirms
  case h_2 => cases confirms
  case h_1 bootAttemptId input =>
    rcases register.atomic with same | ⟨m, record, _⟩
    · rw [persists_of_same same] at confirms; cases confirms
    · rw [input] at record
      have balanced := inv.balanced
      generalize x.before.mode = mode at record
      cases record with
      | confirm newest same fresh =>
        subst same
        rw [bootMetadata_of_some newest] at balanced
        exact (balanced.confirm fresh).1

/-- A boot that is not cut short and whose calls succeed starts an intact application exactly below the limit. -/
theorem handoff_iff {x : DeviceTransition} {stack : FirmwarePackageHeader} {m : BootMetadata}
    (step : DeviceStep x.before x.event x.after) (succeed : NeverFails x.event.calls)
    (input : x.event.input = .boot stack) (whole : x.event.output ≠ none)
    (newest : newestRecord x.before.flash = some m) (state : m.state = bootStateValidApplication)
    (image : isApplicationImageValid x.before.flash m = true) :
    (∃ handoff, x.event.output = some (.handoff handoff)) ↔ m.unconfirmedBootCount < bootFailureLimit := by
  have decides : bootsApplication x.before.flash (bootMetadata x.before.flash) = true ↔
      m.unconfirmedBootCount < bootFailureLimit := by
    rw [bootMetadata_of_some newest]
    simp only [bootsApplication, state, image, beq_self_eq_true, Bool.true_and, Bool.and_true]
    exact ⟨of_decide_eq_true, decide_eq_true⟩
  obtain ⟨⟨flash, mode⟩, ⟨given, calls, output⟩, ⟨flash', mode'⟩⟩ := x
  have turned := step.turned
  dsimp only at *
  subst input
  cases turned with
  | bootUpdate stays =>
    rw [← decides, stays]
    simp
  | bootAttempt boots append ended =>
    rw [← decides]
    rcases attempt_cases ended with ⟨m', _, rfl, _⟩ | ⟨_, _, failed, rfl, _⟩ | ⟨_, rfl, _⟩
    · exact ⟨fun _ => boots, fun _ => ⟨_, rfl⟩⟩
    · exact absurd (append_code append succeed.journal) failed
    · exact absurd rfl whole

/-- In every run without failing flash calls the counter is the number of stored
attempts minus that of stored confirmations since the last BEGIN, and at most 3;
every confirmation has an attempt of its own; the application is started with
the id of the newest record, and started exactly below the limit. -/
theorem boot_attempts_accounted {flash : Flash} {final : DeviceState} {history : List DeviceTransition}
    (chip : UncountedChip flash) (run : Run DeviceStep ⟨flash, .reset⟩ history final)
    (succeed : ∀ x ∈ history, NeverFails x.event.calls) (few : recordsBegun history < 2 ^ 31) :
    (∀ m, newestRecord final.flash = some m →
      m.unconfirmedBootCount.toNat + confirmations history = attempts history ∧
      m.unconfirmedBootCount.toNat ≤ bootFailureLimit.toNat) ∧
    (∀ before x after, history = before ++ x :: after → recordsConfirmation x = true →
      ∃ earlier attempt since, before = earlier ++ attempt :: since ∧ recordsAttempt attempt = true ∧
        ∀ y ∈ since, (recordsConfirmation y || recordsBegin y) = false) ∧
    (∀ x ∈ history, ∀ handoff, x.event.output = some (.handoff handoff) →
      ∃ m, newestRecord x.after.flash = some m ∧ handoff.bootAttemptId = m.bootAttemptId) ∧
    (∀ x ∈ history, ∀ stack m, x.event.input = .boot stack → x.event.output ≠ none →
      newestRecord x.before.flash = some m → m.state = bootStateValidApplication →
      isApplicationImageValid x.before.flash m = true →
      ((∃ handoff, x.event.output = some (.handoff handoff)) ↔ m.unconfirmedBootCount < bootFailureLimit)) := by
  -- every transition is a step from the end of a shorter run
  have part : ∀ before x after, history = before ++ x :: after → Run DeviceStep ⟨flash, .reset⟩ before x.before ∧
      DeviceStep x.before x.event x.after ∧ recordsBegun before + recordPrograms x.event.calls < 2 ^ 31 := by
    rintro before x after rfl
    obtain ⟨run', step, _⟩ := run.split
    refine ⟨run', step, ?_⟩
    rw [← List.singleton_append, recordsBegun_append, recordsBegun_append, recordsBegun_single] at few
    omega
  refine ⟨?_, ?_, ?_, ?_⟩
  · intro m newest
    have balanced := (bootInv_run chip run succeed few).balanced
    rw [bootMetadata_of_some newest] at balanced
    exact ⟨balanced.counted, balanced.limit⟩
  · intro before x after split confirms
    obtain ⟨run', step, room⟩ := part before x after split
    have earlier : ∀ y ∈ before, NeverFails y.event.calls := by
      intro y member
      rw [split] at succeed
      exact succeed y (List.mem_append_left _ member)
    have sound := sound_of_run chip.fresh run' (by omega)
    have inv := bootInv_run chip run' earlier (by omega)
    exact raised_of_standing (pending_of_confirmation sound room inv step confirms)
  · intro x member handoff output
    obtain ⟨before, after, split⟩ := List.append_of_mem member
    obtain ⟨run', step, room⟩ := part before x after split
    have sound := sound_of_run chip.fresh run' (by omega)
    have turned := step.turned
    rw [output] at turned
    obtain ⟨_, m, _, _, _, append, rfl, _⟩ := turned.of_handoff
    have stored := (appendTurn sound.holds room append).stored m rfl
    rw [← append_returned append] at stored
    exact ⟨m, stored, rfl⟩
  · intro x member stack m input whole newest state image
    obtain ⟨before, after, split⟩ := List.append_of_mem member
    obtain ⟨_, step, _⟩ := part before x after split
    exact handoff_iff step (succeed x member) input whole newest state image

theorem factoryFlash_uncounted : UncountedChip factoryFlash := .inr ⟨_, factoryFlash_chip, rfl, rfl, rfl⟩

/-- The first boot of a factory chip counts one attempt. -/
theorem boot_attempts_accounted_first_boot : ∃ history final m, history.length = 1 ∧
    Run DeviceStep ⟨factoryFlash, .reset⟩ history final ∧ newestRecord final.flash = some m ∧
    m.unconfirmedBootCount.toNat + confirmations history = attempts history := by
  obtain ⟨calls, flash, append, done⟩ := append_completes_done (bootMetadata factoryFlash).attempted factoryFlash
  have boots := bootsApplication_of_bootable factoryFlash_bootable (by decide)
  have turned : Turned factoryFlash .reset (.boot zeroHeader) calls _ flash _ := .bootAttempt boots append rfl
  have begun := recordPrograms_append_le factoryFlash_fresh.sound.holds append
  have few : ∀ output t, recordsBegun [⟨⟨factoryFlash, .reset⟩, ⟨.boot zeroHeader, calls, output⟩, t⟩] < 2 ^ 31 := by
    intro output t
    rw [recordsBegun_single]
    exact Nat.lt_of_le_of_lt begun (by decide)
  have quiet : NeverFails calls := fun c member => by simp [done c member]
  have stored :=
    (appendTurn factoryFlash_fresh.sound.holds (Nat.lt_of_le_of_lt (Nat.add_le_add_left begun 0) (by decide))
    append).stored _ rfl
  obtain ⟨counted, _⟩ :=
    boot_attempts_accounted factoryFlash_uncounted (.single turned.deviceStep) (by simpa using quiet)
    (few _ _)
  exact ⟨_, _, _, rfl, .single turned.deviceStep, stored, (counted _ stored).1⟩

/-- A boot attempt that is record number 2^31 is handed over, but never counted. -/
theorem sequence_wrap_loses_attempt : UncountedChip factoryFlash ∧ ∃ history x final handoff,
    Run DeviceStep ⟨factoryFlash, .reset⟩ (history ++ [x]) final ∧
    (∀ y ∈ history ++ [x], NeverFails y.event.calls) ∧ x.event.output = some (.handoff handoff) ∧
    ∀ m, newestRecord x.after.flash = some m → handoff.bootAttemptId ≠ m.bootAttemptId := by
  refine ⟨factoryFlash_uncounted, ?_⟩
  obtain ⟨flash, m, ⟨history, run, quiet⟩, stale, names, image⟩ := wrapped_application
  obtain ⟨calls, flash', quiet', step, stale', _⟩ := stale.boot Nat.one_pos (by decide) names (by decide) image
  refine ⟨history, _, _, _, run.next step, ?_, rfl, ?_⟩
  · intro y member
    rcases List.mem_append.mp member with old | new
    · exact quiet y old
    · rw [List.mem_singleton.mp new]
      exact quiet'
  · intro m' newest
    rw [stale'.newestRecord_eq] at newest
    cases newest
    simp

end Cc1310Firmware.Bootloader
