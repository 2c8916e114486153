import Cc1310Firmware.I2cSlave.System

/-! The pending slot between the handler and the worker.

The handler puts a record in the slot only when pendingCount is zero, and the
worker copies the record before it sets pendingCount back to zero. That loses
nothing as long as no record comes into the slot while an iteration is under
way that read pendingCount when it was zero.
-/

set_option autoImplicit false

namespace Cc1310Firmware.I2cSlave
open LabelledRun

structure Record where
  direction : DumpDirection
  register : Byte
  data : List Byte
  deriving DecidableEq, Repr

/-- The pending variables. -/
structure Slot where
  register : Byte
  count : Nat
  buffer : Buffer
  direction : DumpDirection

def Slave.slot (s : Slave) : Slot := ⟨s.pendingRegister, s.pendingCount, s.pendingBuffer, s.pendingDirection⟩

def Slot.record (slot : Slot) : Option Record :=
  if slot.count = 0 then none else some ⟨slot.direction, slot.register, slot.buffer.take slot.count⟩

/-- The record in the worker's own variables. -/
def Worker.record (w : Worker) : Option Record :=
  if w.dumpCount = 0 then none else some ⟨w.dumpDirection, w.dumpRegister, w.dumpBuffer.take w.dumpCount⟩

def onlyWrite (record : Option Record) : Option Record := record.filter fun r => decide (r.direction = .write)

/-! ## What happens to records -/

/-- The write record that the handler places in the slot. -/
def placedWrite (x : SystemTransition) : Option Record :=
  match x.event.input with
  | .interrupt _ => if x.before.slave.pendingCount = 0 then onlyWrite x.after.slave.slot.record else none
  | .worker _ | .ipcDump _ => none

/-- The write record that an iteration of the worker has used when it gives the slot back. -/
def takenWrite (x : SystemTransition) : Option Record :=
  if Executes x .releaseSlot then onlyWrite x.before.worker.record else none

/-- The write record at the dump statement of an iteration. -/
def dumpedWrite (x : SystemTransition) : Option Record :=
  if Executes x .dump then onlyWrite x.before.worker.record else none

def placedWrites (history : List SystemTransition) : List Record := history.filterMap placedWrite

def takenWrites (history : List SystemTransition) : List Record := history.filterMap takenWrite

def dumpedWrites (history : List SystemTransition) : List Record := history.filterMap dumpedWrite

/-- The record of an iteration between the release of the slot and its dump statement. -/
def Worker.undumped (w : Worker) : Option Record :=
  match w.statement with
  | .resetTransmit | .publish | .dump => onlyWrite w.record
  | _ => none

/-- The statements with an effect on the counters that the current iteration has executed. -/
def performed (history : List SystemTransition) : List WorkerStatement :=
  history.foldl (fun done x =>
    if Executes x .readCount then []
    else if Executes x .clearTransactions then done ++ [.clearTransactions]
    else if Executes x .clearErrors then done ++ [.clearErrors]
    else if Executes x .countError then done ++ [.countError]
    else done) []

/-- What a write record asks of the worker. -/
def Record.effects (r : Record) : List WorkerStatement :=
  if r.register = i2cCommandRegister ∧ r.data = [i2cCommandClearStats] then [.clearTransactions, .clearErrors]
  else if isLoopbackWrite r.register r.data.length then []
  else [.countError]

def Record.message (r : Record) : List Char := dumpMessage r.direction r.register r.data

/-- The iteration is between its reading of pendingCount and its release of the slot. -/
def WorkerStatement.holdsSlot : WorkerStatement → Bool
  | .readRegister | .readDirection | .copyByte | .testCommand | .testWrite
  | .clearTransactions | .clearErrors | .countError | .releaseSlot => true
  | .semaphorePend | .readCount | .resetTransmit | .publish | .dump => false

/-- An iteration is under way that has seen no record. -/
def Worker.SawNothing (w : Worker) : Prop := w.statement.holdsSlot = true ∧ w.dumpCount = 0

instance (w : Worker) : Decidable w.SawNothing := by
  unfold Worker.SawNothing
  infer_instance

theorem slot_dataInterrupt (s : Slave) (act : SlaveAct) : (s.dataInterrupt act).2.slot = s.slot := by
  cases act with
  | none | rreqFbr => rfl
  | treq => unfold Slave.dataInterrupt Slave.transmitRequest; dsimp only; split <;> rfl
  | rreq => unfold Slave.dataInterrupt Slave.byteReceived; dsimp only; split <;> rfl

/-- STOP leaves a record that is in the slot. -/
theorem slot_stopInterrupt {s : Slave} (busy : s.pendingCount ≠ 0) : s.stopInterrupt.slot = s.slot := by
  by_cases payload : s.receiveCount = 0
  · rw [stop_empty payload, if_neg busy]
    split <;> rfl
  · rw [stop_with_payload payload, if_neg busy]
    rfl

theorem slot_interrupt {s : Slave} (flags : Interrupt) (busy : s.pendingCount ≠ 0) :
    (i2cInterruptHandler flags s).2.slot = s.slot := by
  obtain ⟨data, stop⟩ := flags
  have arrived : ∀ act, ((s.dataInterrupt act).2).pendingCount ≠ 0 := by
    intro act
    rw [show (s.dataInterrupt act).2.pendingCount = s.pendingCount from congrArg Slot.count (slot_dataInterrupt s act)]
    exact busy
  cases data with
  | none =>
    cases stop with
    | false => rfl
    | true => exact slot_stopInterrupt busy
  | some act =>
    cases stop with
    | false => exact slot_dataInterrupt s act
    | true => exact (slot_stopInterrupt (arrived act)).trans (slot_dataInterrupt s act)

theorem Slot.record_of_empty {slot : Slot} (empty : slot.count = 0) : slot.record = none := if_pos empty

theorem Slot.record_of_full {slot : Slot} (full : slot.count ≠ 0) :
    slot.record = some ⟨slot.direction, slot.register, slot.buffer.take slot.count⟩ := if_neg full

theorem transactionCount_dataInterrupt (s : Slave) (act : SlaveAct) :
    (s.dataInterrupt act).2.transactionCount = s.transactionCount := by
  cases act with
  | none | rreqFbr => rfl
  | treq => unfold Slave.dataInterrupt Slave.transmitRequest; dsimp only; split <;> rfl
  | rreq => unfold Slave.dataInterrupt Slave.byteReceived; dsimp only; split <;> rfl

/-- STOP counts a transaction exactly when it places a write. -/
theorem transactionCount_stopInterrupt (s : Slave) : s.stopInterrupt.transactionCount = s.transactionCount +
    if s.pendingCount = 0 ∧ (onlyWrite s.stopInterrupt.slot.record).isSome then 1 else 0 := by
  by_cases payload : s.receiveCount = 0
  · rw [stop_empty payload]
    -- a read record may take the slot, and is not counted
    have other : ¬ (s.pendingCount = 0 ∧ (onlyWrite (if s.dumpsRead then
        if s.pendingCount = 0 then s.placeRead.resetTransmit else
          { s with errorCount := s.errorCount + 1 }.resetTransmit
        else s.resetTransmit).slot.record).isSome = true) := by
      rintro ⟨free, placed⟩
      rw [if_pos free] at placed
      split at placed
      case isTrue =>
        unfold Slot.record at placed
        split at placed <;> cases placed
      case isFalse =>
        rw [Slot.record_of_empty free] at placed
        cases placed
    rw [if_neg other]
    split
    · split <;> exact (BitVec.add_zero _).symm
    · exact (BitVec.add_zero _).symm
  · rw [stop_with_payload payload]
    by_cases free : s.pendingCount = 0
    · have placed : (onlyWrite s.placeWrite.resetTransmit.slot.record).isSome = true := by
        have full : s.placeWrite.resetTransmit.slot.count ≠ 0 := payload
        rw [Slot.record_of_full full]
        rfl
      rw [if_pos free, if_pos ⟨free, placed⟩]
      rfl
    · rw [if_neg free, if_neg fun both => free both.1]
      exact (BitVec.add_zero _).symm

/-- The handler counts a transaction exactly when it places a write. -/
theorem transactionCount_interrupt {st st' : System} {event : SystemEvent} {flags : Interrupt}
    (input : event.input = .interrupt flags) (step : SystemStep st event st') :
    st'.slave.transactionCount = st.slave.transactionCount + if
      (placedWrite ⟨st, event, st'⟩).isSome then 1 else 0 := by
  cases step with
  | worker | ipcDump => cases input
  | interrupt s w flags =>
    cases input
    have placed : (placedWrite ⟨⟨s, w⟩, ⟨.interrupt flags, (i2cInterruptHandler flags s).1, none⟩,
        ⟨(i2cInterruptHandler flags s).2, w⟩⟩).isSome = true ↔
        s.pendingCount = 0 ∧ (onlyWrite (i2cInterruptHandler flags s).2.slot.record).isSome = true := by
      unfold placedWrite
      dsimp only
      split <;> simp [*]
    simp only [placed]
    obtain ⟨data, stop⟩ := flags
    -- the data part of the interrupt touches neither the slot nor the count
    have arrived : ∃ t : Slave, t.slot = s.slot ∧ t.transactionCount = s.transactionCount ∧
        (i2cInterruptHandler ⟨data, stop⟩ s).2 = if stop then t.stopInterrupt else t := by
      cases data with
      | none => exact ⟨s, rfl, rfl, rfl⟩
      | some act => exact ⟨_, slot_dataInterrupt s act, transactionCount_dataInterrupt s act, rfl⟩
    obtain ⟨t, slot, transactions, after⟩ := arrived
    have pending : t.pendingCount = s.pendingCount := congrArg Slot.count slot
    rw [after, ← transactions, ← pending]
    cases stop with
    | true => exact transactionCount_stopInterrupt t
    | false =>
      have other : ¬ (t.pendingCount = 0 ∧ (onlyWrite t.slot.record).isSome = true) := by
        rintro ⟨free, some_⟩
        rw [Slot.record_of_empty free] at some_
        cases some_
      simp only [Bool.false_eq_true, if_false, if_neg other]
      exact (BitVec.add_zero _).symm

/-! ## The worker's copy -/

/-- The worker's variables hold what the slot holds, as far as the iteration has come. -/
def Copied (slot : Slot) (w : Worker) : Prop :=
  w.dumpCount = slot.count ∧ match w.statement with
  | .readRegister => True
  | .readDirection => w.dumpRegister = slot.register
  | .copyByte => w.dumpRegister = slot.register ∧ w.dumpDirection = slot.direction ∧
    ∀ i < w.index, w.dumpBuffer i = slot.buffer i
  | _ => w.dumpRegister = slot.register ∧ w.dumpDirection = slot.direction ∧
    ∀ i < w.dumpCount, w.dumpBuffer i = slot.buffer i

/-- The worker's variables hold the clear command. -/
def Worker.isClear (w : Worker) : Bool :=
  decide (w.dumpDirection = .write) && w.dumpRegister == i2cCommandRegister && w.dumpCount == 1 &&
  w.dumpBuffer 0 == i2cCommandClearStats

/-- The worker's variables hold a write that is to be counted as an error. -/
def Worker.isRejected (w : Worker) : Bool :=
  decide (w.dumpDirection = .write) && w.dumpCount != 0 && !isLoopbackWrite w.dumpRegister w.dumpCount

def Worker.effects (w : Worker) : List WorkerStatement :=
  if w.isClear then [.clearTransactions, .clearErrors] else if w.isRejected then [.countError] else []

theorem Worker.effects_of_tests {w : Worker} (clear : w.isClear = false) :
    w.effects = if w.isRejected then [.countError] else [] := by
  unfold effects
  rw [clear, if_neg Bool.false_ne_true]

/-- The effects of the iteration so far, and what its next statement shows of its tests. -/
def Performs (w : Worker) (done : List WorkerStatement) : Prop :=
  match w.statement with
  | .testWrite => w.isClear = false ∧ done = []
  | .clearTransactions => w.isClear = true ∧ done = []
  | .clearErrors => w.isClear = true ∧ done = [.clearTransactions]
  | .countError => w.isClear = false ∧ w.isRejected = true ∧ done = []
  | .releaseSlot => done = w.effects
  | _ => done = []

theorem Buffer.take_eq_singleton (buffer : Buffer) (count : Nat) (value : Byte) :
    buffer.take count = [value] ↔ count = 1 ∧ buffer 0 = value := by
  constructor
  · intro one
    have length : count = 1 := by simpa using congrArg List.length one
    subst length
    exact ⟨rfl, List.singleton_inj.mp one⟩
  · rintro ⟨rfl, rfl⟩
    rfl

/-- When the copy is complete, the worker's record is that of the slot. -/
theorem Copied.record {slot : Slot} {w : Worker} (copied : Copied slot w) (statement : w.statement = .releaseSlot) :
    w.record = slot.record := by
  unfold Copied at copied
  rw [statement] at copied
  obtain ⟨count, register, direction, bytes⟩ := copied
  unfold Worker.record Slot.record
  rw [← count, Buffer.take_congr bytes, register, direction]

/-- The tests of the slot give what tests of the worker's copy would. -/
theorem Copied.tests {s : Slave} {w : Worker} (copied : Copied s.slot w) (full : w.dumpCount ≠ 0)
    (statement : w.statement = .testCommand ∨ w.statement = .testWrite) :
    s.isClearCommand w.dumpDirection = w.isClear ∧
    (decide (w.dumpDirection = .write) && s.pendingCount != 0 && !isLoopbackWrite w.dumpRegister w.dumpCount) =
      w.isRejected := by
  unfold Copied at copied
  obtain ⟨count, rest⟩ := copied
  have bytes : w.dumpRegister = s.slot.register ∧ w.dumpBuffer 0 = s.slot.buffer 0 := by
    rcases statement with here | here <;> rw [here] at rest <;>
      exact ⟨rest.1, rest.2.2 0 (Nat.pos_of_ne_zero full)⟩
  have register : w.dumpRegister = s.pendingRegister := bytes.1
  have first : w.dumpBuffer 0 = s.pendingBuffer 0 := bytes.2
  have count' : w.dumpCount = s.pendingCount := count
  unfold Slave.isClearCommand Worker.isClear Worker.isRejected
  rw [register, first, count']
  exact ⟨rfl, rfl⟩

/-! ## A statement under way -/

/-- Between readCount and releaseSlot nothing comes into the slot and nothing leaves it. -/
theorem Worker.slot_next {w : Worker} (ticks : Word) (s : Slave) (holds : w.statement.holdsSlot = true)
    (busy : w.statement ≠ .releaseSlot) : (workerStatement ticks w s).2.2.slot = s.slot ∧
    (workerStatement ticks w s).2.1.undumped = w.undumped ∧
      (workerStatement ticks w s).2.1.dumpCount = w.dumpCount := by
  obtain ⟨statement, count, register, direction, buffer, index⟩ := w
  cases statement with
  | semaphorePend | readCount | resetTransmit | publish | dump => cases holds
  | releaseSlot => exact absurd rfl busy
  | readRegister | readDirection | clearTransactions | clearErrors | countError => exact ⟨rfl, rfl, rfl⟩
  | copyByte =>
    unfold workerStatement
    dsimp only
    split
    · exact ⟨rfl, rfl, rfl⟩
    · exact ⟨rfl, rfl, rfl⟩
  | testCommand =>
    unfold workerStatement Worker.undumped
    cases s.isClearCommand direction with
    | true => exact ⟨rfl, rfl, rfl⟩
    | false => exact ⟨rfl, rfl, rfl⟩
  | testWrite =>
    unfold workerStatement Worker.undumped
    cases decide (direction = .write) && s.pendingCount != 0 && !isLoopbackWrite register count with
    | true => exact ⟨rfl, rfl, rfl⟩
    | false => exact ⟨rfl, rfl, rfl⟩

/-- The copy is as far as the iteration. -/
theorem Copied.next {s : Slave} {w : Worker} (copied : Copied s.slot w) (ticks : Word)
    (holds : w.statement.holdsSlot = true)
    (busy : w.statement ≠ .releaseSlot) : Copied s.slot (workerStatement ticks w s).2.1 := by
  obtain ⟨statement, count, register, direction, buffer, index⟩ := w
  cases statement with
  | semaphorePend | readCount | resetTransmit | publish | dump => cases holds
  | releaseSlot => exact absurd rfl busy
  | readRegister => exact ⟨copied.1, rfl⟩
  | readDirection => exact ⟨copied.1, copied.2, rfl, fun i below => absurd below (Nat.not_lt_zero i)⟩
  | copyByte =>
    obtain ⟨same, named, directed, bytes⟩ := copied
    unfold workerStatement
    dsimp only
    split
    · -- one more byte of the slot
      refine ⟨same, named, directed, ?_⟩
      intro i below
      rcases Nat.lt_succ_iff_lt_or_eq.mp below with earlier | rfl
      · exact (Function.update_of_ne (Nat.ne_of_lt earlier) _ _).trans (bytes i earlier)
      · exact Function.update_self _ _ _
    case isFalse all =>
      exact ⟨same, named, directed, fun i below => bytes i (Nat.lt_of_lt_of_le below (Nat.le_of_not_lt all))⟩
  | testCommand =>
    unfold workerStatement
    cases s.isClearCommand direction with
    | true => exact copied
    | false => exact copied
  | testWrite =>
    unfold workerStatement
    cases decide (direction = .write) && s.pendingCount != 0 && !isLoopbackWrite register count with
    | true => exact copied
    | false => exact copied
  | clearTransactions | clearErrors | countError => exact copied

/-- The effect that a statement has on the counters. -/
def WorkerStatement.effect (statement : WorkerStatement) : List WorkerStatement :=
  if statement ∈ [.clearTransactions, .clearErrors, .countError] then [statement] else []

/-- The effects are as far as the iteration. -/
theorem Performs.next {s : Slave} {w : Worker} {done : List WorkerStatement} (performs : Performs w done)
    (copied : Copied s.slot w)
    (full : w.dumpCount ≠ 0) (ticks : Word) (holds : w.statement.holdsSlot = true)
    (busy : w.statement ≠ .releaseSlot) :
    Performs (workerStatement ticks w s).2.1 (done ++ w.statement.effect) := by
  obtain ⟨statement, count, register, direction, buffer, index⟩ := w
  cases statement with
  | semaphorePend | readCount | resetTransmit | publish | dump => cases holds
  | releaseSlot => exact absurd rfl busy
  | readRegister | readDirection => exact (List.append_nil done).trans performs
  | copyByte =>
    unfold workerStatement
    dsimp only
    split
    · exact (List.append_nil done).trans performs
    · exact (List.append_nil done).trans performs
  | testCommand =>
    -- the test reads the slot, which still holds what was copied
    have tests := (copied.tests full (.inl rfl)).1
    have none_ : done ++ WorkerStatement.effect .testCommand = [] := (List.append_nil done).trans performs
    unfold workerStatement
    cases clear : s.isClearCommand direction with
    | true => exact ⟨tests.symm.trans clear, none_⟩
    | false => exact ⟨tests.symm.trans clear, none_⟩
  | testWrite =>
    have tests := (copied.tests full (.inr rfl)).2
    have none_ : done ++ WorkerStatement.effect .testWrite = [] := (List.append_nil done).trans performs.2
    unfold workerStatement
    cases rejected : decide (direction = .write) && s.pendingCount != 0 && !isLoopbackWrite register count with
    | true => exact ⟨performs.1, tests.symm.trans rejected, none_⟩
    | false =>
      have accepted : Worker.isRejected ⟨.releaseSlot, count, register, direction, buffer, index⟩ = false :=
        tests.symm.trans rejected
      have effects : Worker.effects ⟨.releaseSlot, count, register, direction, buffer, index⟩ = [] := by
        rw [@Worker.effects_of_tests ⟨.releaseSlot, count, register, direction, buffer, index⟩ performs.1, accepted,
          if_neg Bool.false_ne_true]
      exact none_.trans effects.symm
  | clearTransactions =>
    obtain ⟨clear, rfl⟩ := performs
    exact ⟨clear, rfl⟩
  | clearErrors =>
    obtain ⟨clear, rfl⟩ := performs
    exact (if_pos clear).symm
  | countError =>
    obtain ⟨clear, rejected, rfl⟩ := performs
    have rejected' : Worker.isRejected ⟨.releaseSlot, count, register, direction, buffer, index⟩ = true := rejected
    have effects : Worker.effects ⟨.releaseSlot, count, register, direction, buffer, index⟩ = [.countError] := by
      rw [@Worker.effects_of_tests ⟨.releaseSlot, count, register, direction, buffer, index⟩ clear, rejected',
        if_pos rfl]
    exact effects.symm

/-! ## The invariant -/

theorem filterMap_concat {α β : Type} (f : α → Option β) (l : List α) (x : α) :
    (l ++ [x]).filterMap f = l.filterMap f ++ (f x).toList := by
  rw [List.filterMap_append]
  cases h : f x <;> simp [h]

theorem performed_concat (history : List SystemTransition) (x : SystemTransition) : performed (history ++ [x]) =
    if Executes x .readCount then []
    else if Executes x .clearTransactions then performed history ++ [.clearTransactions]
    else if Executes x .clearErrors then performed history ++ [.clearErrors]
    else if Executes x .countError then performed history ++ [.countError]
    else performed history := by
  simp [performed]

structure HandoverInv (history : List SystemTransition) (st : System) : Prop where
  taken : placedWrites history = takenWrites history ++ (onlyWrite st.slave.slot.record).toList
  dumped : takenWrites history = dumpedWrites history ++ st.worker.undumped.toList
  held : st.worker.statement.holdsSlot = true →
    (st.worker.dumpCount = 0 ∧ onlyWrite st.slave.slot.record = none) ∨
    (st.worker.dumpCount ≠ 0 ∧ Copied st.slave.slot st.worker ∧ Performs st.worker (performed history))

section
variable {history : List SystemTransition} {st st' : System} {event : SystemEvent}

/-- A transition that moves no record. -/
theorem HandoverInv.quiet (inv : HandoverInv history st) (placed : placedWrite ⟨st, event, st'⟩ = none)
    (taken : takenWrite ⟨st, event, st'⟩ = none) (dumped : dumpedWrite ⟨st, event, st'⟩ = none)
    (slot : st'.slave.slot = st.slave.slot) (undumped : st'.worker.undumped = st.worker.undumped)
    (held : st'.worker.statement.holdsSlot = true →
      (st'.worker.dumpCount = 0 ∧ onlyWrite st'.slave.slot.record = none) ∨
      (st'.worker.dumpCount ≠ 0 ∧ Copied st'.slave.slot st'.worker ∧
        Performs st'.worker (performed (history ++ [⟨st, event, st'⟩])))) :
    HandoverInv (history ++ [⟨st, event, st'⟩]) st' := by
  refine ⟨?_, ?_, held⟩
  · unfold placedWrites takenWrites
    rw [filterMap_concat, filterMap_concat, placed, taken, slot, Option.toList_none, List.append_nil,
      List.append_nil]
    exact inv.taken
  · unfold takenWrites dumpedWrites
    rw [filterMap_concat, filterMap_concat, taken, dumped, undumped, Option.toList_none, List.append_nil,
      List.append_nil]
    exact inv.dumped

theorem performed_elsewhere (history : List SystemTransition) {x : SystemTransition}
    (elsewhere : ∀ statement, Executes x statement = false) : performed (history ++ [x]) = performed history := by
  rw [performed_concat]
  simp [elsewhere]

/-- An interrupt that places no write while an iteration is under way that saw no record. -/
theorem HandoverInv.interrupt {s : Slave} {w : Worker} (inv : HandoverInv history ⟨s, w⟩) (flags : Interrupt)
    (safe : placedWrite ⟨⟨s, w⟩, ⟨.interrupt flags, (i2cInterruptHandler flags s).1, none⟩,
      ⟨(i2cInterruptHandler flags s).2, w⟩⟩ ≠ none → ¬ w.SawNothing) :
    HandoverInv (history ++ [⟨⟨s, w⟩, ⟨.interrupt flags, (i2cInterruptHandler flags s).1, none⟩,
      ⟨(i2cInterruptHandler flags s).2, w⟩⟩]) ⟨(i2cInterruptHandler flags s).2, w⟩ := by
  have same := performed_elsewhere history (x := ⟨⟨s, w⟩, ⟨.interrupt flags, (i2cInterruptHandler flags s).1, none⟩,
    ⟨(i2cInterruptHandler flags s).2, w⟩⟩) fun _ => rfl
  by_cases free : s.pendingCount = 0
  · have placed : placedWrite ⟨⟨s, w⟩, ⟨.interrupt flags, (i2cInterruptHandler flags s).1, none⟩,
        ⟨(i2cInterruptHandler flags s).2, w⟩⟩ = onlyWrite (i2cInterruptHandler flags s).2.slot.record := if_pos free
    have empty : s.slot.record = none := Slot.record_of_empty free
    refine ⟨?_, ?_, ?_⟩
    · have before := inv.taken
      rw [empty] at before
      unfold placedWrites takenWrites at before ⊢
      rw [filterMap_concat, filterMap_concat, placed, before]
      simp [onlyWrite, takenWrite, Executes]
    · have before := inv.dumped
      unfold takenWrites dumpedWrites at before ⊢
      rw [filterMap_concat, filterMap_concat, before]
      simp [takenWrite, dumpedWrite, Executes]
    -- the slot is empty, so an iteration under way has seen nothing
    · intro holds
      rcases inv.held holds with ⟨nothing, _⟩ | ⟨full, copied, _⟩
      · left
        refine ⟨nothing, ?_⟩
        by_contra some_
        rw [← placed] at some_
        exact safe some_ ⟨holds, nothing⟩
      · exact absurd (copied.1.trans free) full
  · have slot := slot_interrupt flags free
    refine inv.quiet ?_ rfl rfl slot rfl ?_
    · exact if_neg free
    · dsimp only
      rw [slot, same]
      exact inv.held

/-- What a statement of the worker performs. -/
theorem performed_worker (history : List SystemTransition) (s : Slave) (w : Worker) (ticks : Word)
    (printed : Option (List Char))
    (after : System) (started : w.statement ≠ .readCount) :
    performed (history ++ [⟨⟨s, w⟩, ⟨.worker ticks, none, printed⟩, after⟩]) = performed history ++
      w.statement.effect := by
  rw [performed_concat]
  obtain ⟨statement, count, register, direction, buffer, index⟩ := w
  cases statement with
  | readCount => exact absurd rfl started
  | clearTransactions | clearErrors | countError => rfl
  | semaphorePend | readRegister | readDirection | copyByte | testCommand | testWrite | releaseSlot | resetTransmit
  | publish | dump =>
    exact (List.append_nil _).symm

/-- A statement of an iteration that holds the slot and keeps it. -/
theorem HandoverInv.busy {s : Slave} {w : Worker} (inv : HandoverInv history ⟨s, w⟩) (ticks : Word)
    (holds : w.statement.holdsSlot = true) (busy : w.statement ≠ .releaseSlot) :
    HandoverInv (history ++ [⟨⟨s, w⟩, ⟨.worker ticks, none, (workerStatement ticks w s).1⟩,
      ⟨(workerStatement ticks w s).2.2, (workerStatement ticks w s).2.1⟩⟩])
      ⟨(workerStatement ticks w s).2.2, (workerStatement ticks w s).2.1⟩ := by
  have started : w.statement ≠ .readCount := by
    rintro start
    rw [start] at holds
    cases holds
  have inside : w.statement ≠ .dump := by
    rintro start
    rw [start] at holds
    cases holds
  obtain ⟨slot, undumped, count⟩ := Worker.slot_next ticks s holds busy
  refine inv.quiet rfl (if_neg ?_) (if_neg ?_) slot undumped fun _ => ?_
  · exact fun executes => busy (of_decide_eq_true executes)
  · exact fun executes => inside (of_decide_eq_true executes)
  · rw [performed_worker history s w ticks _ _ started, slot, count]
    rcases inv.held holds with nothing | ⟨full, copied, performs⟩
    · exact .inl nothing
    · exact .inr ⟨full, copied.next ticks holds busy, performs.next copied full ticks holds busy⟩

/-- What the iteration used is what leaves the slot. -/
theorem HandoverInv.release {s : Slave} {w : Worker} (inv : HandoverInv history ⟨s, w⟩) (ticks : Word)
    (statement : w.statement = .releaseSlot) :
    HandoverInv (history ++ [⟨⟨s, w⟩, ⟨.worker ticks, none, (workerStatement ticks w s).1⟩,
      ⟨(workerStatement ticks w s).2.2, (workerStatement ticks w s).2.1⟩⟩])
      ⟨(workerStatement ticks w s).2.2, (workerStatement ticks w s).2.1⟩ := by
  obtain ⟨_, count, register, direction, buffer, index⟩ := w
  dsimp only at statement
  subst statement
  have used : onlyWrite (Worker.record ⟨.releaseSlot, count, register, direction, buffer, index⟩) =
      onlyWrite s.slot.record := by
    rcases inv.held rfl with ⟨nothing, none_⟩ | ⟨_, copied, _⟩
    · rw [none_]
      exact congrArg onlyWrite (if_pos nothing)
    · rw [copied.record rfl]
  refine ⟨?_, ?_, fun holds => by cases holds⟩
  · have before := inv.taken
    unfold placedWrites takenWrites at before ⊢
    rw [filterMap_concat, filterMap_concat, before, ← used]
    have released : (workerStatement ticks
        ⟨.releaseSlot, count, register, direction, buffer, index⟩ s).2.2.slot.record = none :=
      Slot.record_of_empty rfl
    rw [released]
    exact (List.append_nil _).trans (List.append_nil _).symm
  · have before := inv.dumped
    unfold takenWrites dumpedWrites at before ⊢
    rw [filterMap_concat, filterMap_concat, before, List.append_assoc, List.append_assoc]
    rfl

/-- A statement of the worker. -/
theorem HandoverInv.worker {s : Slave} {w : Worker} (inv : HandoverInv history ⟨s, w⟩) (ticks : Word) :
    HandoverInv (history ++ [⟨⟨s, w⟩, ⟨.worker ticks, none, (workerStatement ticks w s).1⟩,
      ⟨(workerStatement ticks w s).2.2, (workerStatement ticks w s).2.1⟩⟩])
      ⟨(workerStatement ticks w s).2.2, (workerStatement ticks w s).2.1⟩ := by
  by_cases holds : w.statement.holdsSlot = true
  · by_cases last : w.statement = .releaseSlot
    · exact inv.release ticks last
    · exact inv.busy ticks holds last
  obtain ⟨statement, count, register, direction, buffer, index⟩ := w
  cases statement with
  | readRegister | readDirection | copyByte | testCommand | testWrite | clearTransactions | clearErrors
  | countError | releaseSlot =>
    exact absurd rfl holds
  | semaphorePend | resetTransmit | publish => exact inv.quiet rfl rfl rfl rfl rfl (fun holds => by cases holds)
  | readCount =>
    refine inv.quiet rfl rfl rfl rfl rfl fun _ => ?_
    by_cases empty : s.pendingCount = 0
    · left
      have none_ : s.slot.record = none := Slot.record_of_empty empty
      exact ⟨empty, congrArg onlyWrite none_⟩
    · right
      rw [performed_concat]
      exact ⟨empty, ⟨rfl, trivial⟩, rfl⟩
  | dump =>
    refine ⟨?_, ?_, fun holds => by cases holds⟩
    · have before := inv.taken
      unfold placedWrites takenWrites at before ⊢
      rw [filterMap_concat, filterMap_concat, before]
      exact (List.append_nil _).trans (congrArg (· ++ _) (List.append_nil _).symm)
    · have before := inv.dumped
      unfold takenWrites dumpedWrites at before ⊢
      rw [filterMap_concat, filterMap_concat, before]
      exact (List.append_nil _).trans (List.append_nil _).symm

/-- Only an interrupt can bring a record; the worker passes it on. -/
theorem HandoverInv.step (inv : HandoverInv history st) (step : SystemStep st event st')
    (safe : placedWrite ⟨st, event, st'⟩ ≠ none → ¬ st.worker.SawNothing) :
    HandoverInv (history ++ [⟨st, event, st'⟩]) st' := by
  cases step with
  | interrupt s w flags => exact inv.interrupt flags safe
  | worker s w ticks => exact inv.worker ticks
  | ipcDump s w on =>
    have same :=
      performed_elsewhere history (x := ⟨⟨s, w⟩, ⟨.ipcDump on, none, none⟩, ⟨{ s with dumpEnabled := on }, w⟩⟩)
      fun _ => rfl
    refine inv.quiet rfl rfl rfl rfl rfl ?_
    rw [same]
    exact inv.held

end

/-- The worker is before its first iteration and the slot is empty. -/
structure HandoverStart (st : System) : Prop where
  waiting : st.worker.statement = .semaphorePend
  free : st.slave.pendingCount = 0

theorem HandoverInv.start {st : System} (start : HandoverStart st) : HandoverInv [] st := by
  have none_ : st.slave.slot.record = none := Slot.record_of_empty start.free
  refine ⟨?_, ?_, ?_⟩
  · rw [none_]
    rfl
  · unfold Worker.undumped
    rw [start.waiting]
    rfl
  · rw [start.waiting]
    exact fun holds => by cases holds

end Cc1310Firmware.I2cSlave
