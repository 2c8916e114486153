import Cc1310Firmware.I2cSlave.BusEvents
import Cc1310Firmware.Programs.Runs

/-! The handler and the worker together: interrupts, single statements of
i2c_slave_thread and `ipc dump` commands in any order.
-/

set_option autoImplicit false

namespace Cc1310Firmware.I2cSlave
open LabelledRun

structure System where
  slave : Slave
  worker : Worker

inductive Input where
  | interrupt (flags : Interrupt)
  | worker (ticks : Word)
  | ipcDump (on : Bool)
  deriving DecidableEq, Repr

structure SystemEvent where
  input : Input
  supplied : Option Byte
  printed : Option (List Char)
  deriving DecidableEq, Repr

inductive SystemStep : System → SystemEvent → System → Prop where
  | interrupt (s : Slave) (w : Worker) (flags : Interrupt) : SystemStep ⟨s, w⟩
      ⟨.interrupt flags, (i2cInterruptHandler flags s).1, none⟩ ⟨(i2cInterruptHandler flags s).2, w⟩
  | worker (s : Slave) (w : Worker) (ticks : Word) : SystemStep ⟨s, w⟩
      ⟨.worker ticks, none, (workerStatement ticks w s).1⟩ ⟨(workerStatement ticks w s).2.2,
        (workerStatement ticks w s).2.1⟩
  | ipcDump (s : Slave) (w : Worker) (on : Bool) : SystemStep ⟨s, w⟩ ⟨.ipcDump on, none, none⟩
    ⟨{ s with dumpEnabled := on }, w⟩

abbrev SystemTransition := Transition System SystemEvent

/-- i2c_slave_thread before its first statement; its local variables hold anything. -/
def Worker.start (dumpCount index : Nat) (dumpRegister : Byte) (dumpDirection : DumpDirection)
    (dumpBuffer : Buffer) : Worker :=
  ⟨.semaphorePend, dumpCount, dumpRegister, dumpDirection, dumpBuffer, index⟩

/-! ## What a run shows -/

def Input.busEvents : Input → List BusEvent
  | .interrupt flags => flags.events
  | .worker _ | .ipcDump _ => []

def busEvents (history : List SystemTransition) : List BusEvent := history.flatMap fun x => x.event.input.busEvents

def suppliedBytes (history : List SystemTransition) : List Byte := history.filterMap fun x => x.event.supplied

/-- The transition executes this statement of the worker. -/
def Executes (x : SystemTransition) (statement : WorkerStatement) : Bool :=
  match x.event.input with
  | .worker _ => decide (x.before.worker.statement = statement)
  | .interrupt _ | .ipcDump _ => false

@[simp] theorem busEvents_append (first second : List SystemTransition) :
    busEvents (first ++ second) = busEvents first ++ busEvents second := by simp [busEvents]

@[simp] theorem suppliedBytes_append (first second : List SystemTransition) :
    suppliedBytes (first ++ second) = suppliedBytes first ++ suppliedBytes second := by simp [suppliedBytes]

@[simp] theorem busEvents_single (x : SystemTransition) :
    busEvents [x] = x.event.input.busEvents := by simp [busEvents]

@[simp] theorem suppliedBytes_single (x : SystemTransition) : suppliedBytes [x] = x.event.supplied.toList := by
  cases h : x.event.supplied <;> simp [suppliedBytes, h]

/-! ## The run of given inputs -/

def System.next (st : System) : Input → SystemEvent × System
  | .interrupt flags => (⟨.interrupt flags, (i2cInterruptHandler flags st.slave).1, none⟩,
      ⟨(i2cInterruptHandler flags st.slave).2, st.worker⟩)
  | .worker ticks => (⟨.worker ticks, none, (workerStatement ticks st.worker st.slave).1⟩,
      ⟨(workerStatement ticks st.worker st.slave).2.2, (workerStatement ticks st.worker st.slave).2.1⟩)
  | .ipcDump on => (⟨.ipcDump on, none, none⟩, ⟨{ st.slave with dumpEnabled := on }, st.worker⟩)

def System.history : List Input → System → List SystemTransition
  | [], _ => []
  | input :: rest, st => ⟨st, (st.next input).1, (st.next input).2⟩ :: System.history rest (st.next input).2

def System.final : List Input → System → System
  | [], st => st
  | input :: rest, st => System.final rest (st.next input).2

theorem System.next_step (st : System) (input : Input) : SystemStep st (st.next input).1 (st.next input).2 := by
  cases input with
  | interrupt flags => exact .interrupt st.slave st.worker flags
  | worker ticks => exact .worker st.slave st.worker ticks
  | ipcDump on => exact .ipcDump st.slave st.worker on

theorem System.run_history (inputs : List Input) (st : System) :
    Run SystemStep st (System.history inputs st) (System.final inputs st) := by
  induction inputs generalizing st with
  | nil => exact .nil
  | cons input rest ih => exact (Run.single (st.next_step input)).append (ih _)

theorem System.history_append (first second : List Input) (st : System) :
    System.history (first ++ second) st = System.history first st ++
      System.history second (System.final first st) := by
  induction first generalizing st with
  | nil => rfl
  | cons input rest ih =>
    simp only [List.cons_append, System.history, System.final, ih]

theorem System.busEvents_history (inputs : List Input) (st : System) :
    busEvents (System.history inputs st) = inputs.flatMap Input.busEvents := by
  induction inputs generalizing st with
  | nil => rfl
  | cons input rest ih =>
    have labelled : (st.next input).1.input = input := by cases input <;> rfl
    have tail := ih (st.next input).2
    unfold busEvents at tail
    unfold System.history busEvents
    rw [List.flatMap_cons, List.flatMap_cons, tail, labelled]

def Transaction.inputs (transaction : Transaction) : List Input := transaction.interrupts.map .interrupt

theorem Transaction.inputs_events (transaction : Transaction) :
    transaction.inputs.flatMap Input.busEvents = transaction.events := by
  rw [inputs, List.flatMap_map]
  exact transaction.interrupts_events

/-- The statements of `count` iterations that find no record. -/
def idleIterations (count : Nat) (ticks : Word) : List Input := List.replicate (11 * count) (.worker ticks)

/-- The slave as an RX node starts it at tick 255, the worker before its first iteration. -/
def freshSystem : System := ⟨i2cSlaveStart .rx 0x00000201 255, .start 0 0 0 .unset fun _ => 0⟩

/-! ## What a worker statement leaves alone -/

/-- The variables of the handler's side of a transaction. -/
structure BusSide where
  registerPointer : Byte
  receiveCount : Nat
  receiveBuffer : Buffer
  transmitStartRegister : Byte
  transmitRegisterSnapshot : Bool
  transmitPointerValid : Bool
  transmitLoopback : Bool
  transmitLength : Nat
  transmitBuffer : Buffer
  loopbackBuffer : Buffer

def Slave.busSide (s : Slave) : BusSide :=
  ⟨s.registerPointer, s.receiveCount, s.receiveBuffer, s.transmitStartRegister, s.transmitRegisterSnapshot,
    s.transmitPointerValid, s.transmitLoopback, s.transmitLength, s.transmitBuffer, s.loopbackBuffer⟩

theorem workerStatement_busSide (ticks : Word) (w : Worker) (s : Slave) :
    (workerStatement ticks w s).2.2.busSide = s.busSide := by
  unfold workerStatement
  cases w.statement
  case copyByte => dsimp only; split <;> rfl
  all_goals rfl

/-- A statement forgets the bank of a read in progress or leaves it. -/
theorem workerStatement_transmitRegisters (ticks : Word) (w : Worker) (s : Slave) :
    (workerStatement ticks w s).2.2.transmitRegisters = none ∨
    (workerStatement ticks w s).2.2.transmitRegisters = s.transmitRegisters := by
  unfold workerStatement
  cases w.statement
  case copyByte => dsimp only; split <;> exact .inr rfl
  case resetTransmit => exact .inl rfl
  all_goals exact .inr rfl

/-- The banks change in a publication only. -/
theorem SystemStep.banks {st st' : System} {event : SystemEvent} (step : SystemStep st event st') :
    (Executes ⟨st, event, st'⟩ .publish = true ∧ ∃ ticks, st'.slave = st.slave.publishRegisters ticks) ∨
    (Executes ⟨st, event, st'⟩ .publish = false ∧ st'.slave.registers = st.slave.registers ∧
      st'.slave.activeRegisters = st.slave.activeRegisters) := by
  cases step with
  | interrupt s w flags =>
    have banks := respond_banks flags.events s
    rw [i2cInterruptHandler_eq] at banks
    exact .inr ⟨rfl, banks⟩
  | worker s w ticks =>
    by_cases publish : w.statement = .publish
    · left
      refine ⟨decide_eq_true publish, ticks, ?_⟩
      unfold workerStatement
      rw [publish]
    · right
      refine ⟨decide_eq_false publish, ?_⟩
      unfold workerStatement
      cases statement : w.statement
      case publish => exact absurd statement publish
      case copyByte => dsimp only; split <;> exact ⟨rfl, rfl⟩
      all_goals exact ⟨rfl, rfl⟩
  | ipcDump s w on => exact .inr ⟨rfl, rfl, rfl⟩

/-- A property of the events so far, the bytes supplied so far and the slave holds along
every run if each event keeps it and it depends on the handler's variables only. -/
theorem bus_induction {start final : System} {history : List SystemTransition}
    {inv : List BusEvent → List Byte → Slave → Prop} (base : inv [] [] start.slave)
    (event : ∀ events bytes s e, inv events bytes s →
      inv (events ++ [e]) (bytes ++ (s.busEvent e).1.toList) (s.busEvent e).2)
    (elsewhere : ∀ events bytes s s', inv events bytes s → s'.busSide = s.busSide → inv events bytes s')
    (run : Run SystemStep start history final) : inv (busEvents history) (suppliedBytes history) final.slave := by
  -- an interrupt can carry two events, DATA and STOP
  have several : ∀ more events bytes s, inv events bytes s →
      inv (events ++ more) (bytes ++ (respond more s).1) (respond more s).2 := by
    intro more
    induction more with
    | nil =>
      intro events bytes s holds
      simpa [respond] using holds
    | cons e rest ih =>
      intro events bytes s holds
      have next := ih _ _ _ (event events bytes s e holds)
      rw [List.append_assoc, List.append_assoc, List.singleton_append] at next
      exact next
  induction run with
  | nil => exact base
  | @next history st st' label run step ih =>
    rw [busEvents_append, suppliedBytes_append, busEvents_single, suppliedBytes_single]
    cases step with
    | interrupt s w flags =>
      have next := several flags.events _ _ _ ih
      rw [i2cInterruptHandler_eq] at next
      exact next
    | worker s w ticks =>
      simp only [Input.busEvents, Option.toList_none, List.append_nil]
      exact elsewhere _ _ _ _ ih (workerStatement_busSide ticks w s)
    | ipcDump s w on =>
      simp only [Input.busEvents, Option.toList_none, List.append_nil]
      exact elsewhere _ _ _ _ ih rfl

/-- The last event of a run belongs to an interrupt after which nothing happens on the bus. -/
theorem split_last_event {history : List SystemTransition} {events : List BusEvent} {e : BusEvent}
    (last : busEvents history = events ++ [e]) : ∃ before x after flags, history = before ++ x :: after ∧
      x.event.input = .interrupt flags ∧ busEvents before ++ flags.events = events ++ [e] ∧ flags.events ≠ [] ∧
      busEvents after = [] := by
  -- from the end: transitions without a bus event are passed over
  induction history using List.reverseRecOn with
  | nil => simp [busEvents] at last
  | append_singleton history x ih =>
    rw [busEvents_append, busEvents_single] at last
    cases input : x.event.input with
    | interrupt flags =>
      rw [input] at last
      by_cases silent : flags.events = []
      · rw [Input.busEvents, silent, List.append_nil] at last
        obtain ⟨before, y, after, flags', rfl, input', whole, nonempty, quiet⟩ := ih last
        refine ⟨before, y, after ++ [x], flags', by simp, input', whole, nonempty, ?_⟩
        rw [busEvents_append, busEvents_single, quiet, input, Input.busEvents, silent, List.nil_append]
      · exact ⟨history, x, [], flags, rfl, input, last, silent, rfl⟩
    | worker | ipcDump =>
      rw [input, Input.busEvents, List.append_nil] at last
      obtain ⟨before, y, after, flags', rfl, input', whole, nonempty, quiet⟩ := ih last
      refine ⟨before, y, after ++ [x], flags', by simp, input', whole, nonempty, ?_⟩
      rw [busEvents_append, busEvents_single, quiet, input, Input.busEvents, List.nil_append]

/-- The STOP at the end of a transaction, alone or with the last DATA event. -/
theorem split_stop {history : List SystemTransition} {events : List BusEvent}
    (last : busEvents history = events ++ [.stop]) : ∃ before x after data, history = before ++ x :: after ∧
      x.event.input = .interrupt ⟨data, true⟩ ∧ events = busEvents before ++ data.toList.map .data ∧
      busEvents after = [] := by
  obtain ⟨before, x, after, ⟨data, stop⟩, split, input, whole, nonempty, quiet⟩ := split_last_event last
  cases stop with
  | true =>
    unfold Interrupt.events at whole
    rw [if_pos rfl, ← List.append_assoc] at whole
    exact ⟨before, x, after, data, split, input, (List.append_cancel_right whole).symm, quiet⟩
  | false =>
    cases data with
    | none => exact absurd rfl nonempty
    | some act =>
      obtain ⟨_, other⟩ := List.append_inj' whole rfl
      cases other

/-! ## An iteration that no interrupt cuts into -/

/-- `history` is a piece of the worker alone, which prints `printed`. -/
structure WorkerAlone (history : List SystemTransition) (printed : List (List Char)) : Prop where
  alone : ∀ x ∈ history, ∃ ticks, x.event.input = .worker ticks
  printed : history.filterMap (fun x => x.event.printed) = printed

theorem WorkerAlone.next {history : List SystemTransition} {printed : List (List Char)}
    (alone : WorkerAlone history printed) (st st' : System) (ticks : Word) (line : Option (List Char)) :
    WorkerAlone (history ++ [⟨st, ⟨.worker ticks, none, line⟩, st'⟩]) (printed ++ line.toList) := by
  constructor
  · intro x member
    rcases List.mem_append.mp member with old | new
    · exact alone.alone x old
    · rw [List.mem_singleton.mp new]
      exact ⟨ticks, rfl⟩
  · rw [List.filterMap_append, alone.printed]
    cases line <;> rfl

/-- The worker alone goes from `start` to `final` and prints these lines. -/
def WorkerReaches (start : System) (printed : List (List Char)) (final : System) : Prop :=
  ∃ history, Run SystemStep start history final ∧ WorkerAlone history printed

theorem WorkerReaches.next {start : System} {printed : List (List Char)} {s s' : Slave} {w w' : Worker}
    {line : Option (List Char)} (reached : WorkerReaches start printed ⟨s, w⟩) (ticks : Word)
    (statement : workerStatement ticks w s = (line, w', s')) :
    WorkerReaches start (printed ++ line.toList) ⟨s', w'⟩ := by
  obtain ⟨history, run, alone⟩ := reached
  have step := SystemStep.worker s w ticks
  rw [statement] at step
  exact ⟨_, run.next step, alone.next _ _ ticks line⟩

theorem WorkerReaches.silent {start : System} {printed : List (List Char)} {s s' : Slave} {w w' : Worker}
    (reached : WorkerReaches start printed ⟨s, w⟩) (ticks : Word)
    (statement : workerStatement ticks w s = (none, w', s')) :
    WorkerReaches start printed ⟨s', w'⟩ := by
  have next := reached.next ticks statement
  rwa [Option.toList_none, List.append_nil] at next

/-- The copy loop. -/
theorem WorkerReaches.copy {start : System} {printed : List (List Char)} {s : Slave} {count : Nat} {register : Byte}
    {direction : DumpDirection} {buffer : Buffer} (ticks : Word)
    (reached : WorkerReaches start printed ⟨s, ⟨.copyByte, count, register, direction, buffer, 0⟩⟩) :
    ∀ index ≤ count, WorkerReaches start printed
      ⟨s, ⟨.copyByte, count, register, direction, copyBytes buffer 0 s.pendingBuffer index, index⟩⟩ := by
  intro index
  induction index with
  | zero => exact fun _ => reached
  | succ index ih =>
    intro inside
    have next := (ih (Nat.le_of_lt inside)).silent ticks (if_pos inside)
    rw [copyBytes, Nat.zero_add]
    exact next

/-- The tests and what they lead to, up to the release of the slot. -/
theorem WorkerReaches.handle {start : System} {printed : List (List Char)} {s : Slave} {buffer : Buffer}
    {index : Nat} (ticks : Word)
    (reached : WorkerReaches start printed
      ⟨s, ⟨.testCommand, s.pendingCount, s.pendingRegister, s.pendingDirection, buffer, index⟩⟩) :
    WorkerReaches start printed
      ⟨s.recordHandled, ⟨.releaseSlot, s.pendingCount, s.pendingRegister, s.pendingDirection, buffer, index⟩⟩ := by
  have tested : WorkerReaches start printed ⟨s,
      ⟨if s.isClearCommand s.pendingDirection then .clearTransactions else .testWrite,
        s.pendingCount, s.pendingRegister, s.pendingDirection, buffer, index⟩⟩ := reached.silent ticks rfl
  unfold Slave.recordHandled
  split
  case isTrue clear =>
    rw [if_pos clear] at tested
    exact (tested.silent ticks rfl).silent ticks rfl
  case isFalse other =>
    rw [if_neg other] at tested
    have tested' : WorkerReaches start printed ⟨s,
      ⟨if decide (s.pendingDirection = .write) && s.pendingCount != 0 &&
        !isLoopbackWrite s.pendingRegister s.pendingCount then .countError else .releaseSlot,
        s.pendingCount, s.pendingRegister, s.pendingDirection, buffer, index⟩⟩ := tested.silent ticks rfl
    split
    case isTrue rejected =>
      rw [if_pos rejected] at tested'
      exact tested'.silent ticks rfl
    case isFalse accepted =>
      rw [if_neg accepted] at tested'
      exact tested'

theorem Slave.recordHandled_dumpEnabled (s : Slave) : s.recordHandled.dumpEnabled = s.dumpEnabled := by
  unfold recordHandled
  split
  · rfl
  · split <;> rfl

/-- The statements of one iteration, run without an interrupt, are workerIteration. -/
theorem workerIteration_reached (ticks : Word) (s : Slave) (dumpCount index : Nat) (dumpRegister : Byte)
    (dumpDirection : DumpDirection) (dumpBuffer : Buffer) : ∃ w, w.statement = .semaphorePend ∧
    WorkerReaches ⟨s, .start dumpCount index dumpRegister dumpDirection dumpBuffer⟩ (workerIteration ticks s).1.toList
      ⟨(workerIteration ticks s).2, w⟩ := by
  have start : WorkerReaches ⟨s, .start dumpCount index dumpRegister dumpDirection dumpBuffer⟩ []
      ⟨s, .start dumpCount index dumpRegister dumpDirection dumpBuffer⟩ := ⟨[], .nil, ⟨by simp, rfl⟩⟩
  have read := (((start.silent ticks rfl).silent ticks rfl).silent ticks rfl).silent ticks rfl
  have copied := (read.copy ticks s.pendingCount (Nat.le_refl _)).silent ticks (if_neg (Nat.lt_irrefl _))
  have handled := copied.handle ticks
  have published := ((handled.silent ticks rfl).silent ticks rfl).silent ticks rfl
  have on : ({ s.recordHandled with pendingCount := 0, transmitRegisters := none }.publishRegisters ticks).dumpEnabled =
      s.dumpEnabled := s.recordHandled_dumpEnabled
  have line : (workerIteration ticks s).1 = (workerStatement ticks ⟨.dump, s.pendingCount, s.pendingRegister,
    s.pendingDirection,
      copyBytes dumpBuffer 0 s.pendingBuffer s.pendingCount, s.pendingCount⟩ (workerIteration ticks s).2).1 := by
    unfold workerIteration workerStatement
    dsimp only
    rw [on, Buffer.take_copyBytes]
  rw [line]
  exact ⟨_, rfl, published.next ticks rfl⟩

end Cc1310Firmware.I2cSlave
