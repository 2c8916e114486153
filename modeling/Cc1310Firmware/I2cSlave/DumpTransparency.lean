import Cc1310Firmware.I2cSlave.Handover

/-! Two runs of the slave that differ in `ipc dump` alone.

A dumped read takes the pending slot that the writes need. Dumping changes
nothing else: two runs agree on everything that the master sees as long as no
record of a read meets another record in the slot.
-/

set_option autoImplicit false

namespace Cc1310Firmware.I2cSlave

inductive Action where
  | interrupt (flags : Interrupt)
  | iteration (ticks : Word)
  deriving DecidableEq, Repr

/-- An action, and whether dump is on when it happens. -/
structure Turn where
  dumpEnabled : Bool
  action : Action
  deriving DecidableEq, Repr

def Slave.setDump (s : Slave) (dumpEnabled : Bool) : Slave := { s with dumpEnabled := dumpEnabled }

def Slave.turn (s : Slave) (t : Turn) : Option Byte × Slave :=
  match t.action with
  | .interrupt flags => i2cInterruptHandler flags (s.setDump t.dumpEnabled)
  | .iteration ticks => (none, (workerIteration ticks (s.setDump t.dumpEnabled)).2)

/-- The bytes supplied in a sequence of turns, and the state after it. -/
def Slave.turns : List Turn → Slave → List Byte × Slave
  | [], s => ([], s)
  | t :: rest, s => ((s.turn t).1.toList ++ (Slave.turns rest (s.turn t).2).1, (Slave.turns rest (s.turn t).2).2)

/-- The state in which the STOP part of the handler runs. -/
def Slave.beforeStop (s : Slave) (data : Option SlaveAct) : Slave :=
  match data with
  | some act => (s.dataInterrupt act).2
  | none => s

/-- STOP of a payload write finds the record of a read in the slot, or STOP of a dumped
read finds any record there. -/
def Slave.ReadCollides (s : Slave) : Prop :=
  s.pendingCount ≠ 0 ∧ if s.receiveCount ≠ 0 then s.pendingDirection ≠ .write else s.dumpsRead = true

def Turn.Collides (t : Turn) (s : Slave) : Prop :=
  match t.action with
  | .interrupt flags => flags.stop = true ∧ ((s.setDump t.dumpEnabled).beforeStop flags.data).ReadCollides
  | .iteration _ => False

/-- No record of a read meets another record in the slot. -/
def ReadsApart : List Turn → Slave → Prop
  | [], _ => True
  | t :: rest, s => ¬ t.Collides s ∧ ReadsApart rest (s.turn t).2

instance (s : Slave) : Decidable s.ReadCollides := by
  unfold Slave.ReadCollides
  infer_instance

instance (t : Turn) (s : Slave) : Decidable (t.Collides s) := by
  unfold Turn.Collides
  split <;> infer_instance

instance decidableReadsApart : (turns : List Turn) → (s : Slave) → Decidable (ReadsApart turns s)
  | [], _ => .isTrue trivial
  | t :: rest, s => @instDecidableAnd _ _ inferInstance (decidableReadsApart rest (s.turn t).2)

/-- Everything but the pending variables and dumpEnabled. -/
def Slave.masterView (s : Slave) : Slave :=
  { s with
    pendingRegister := 0
    pendingCount := 0
    pendingBuffer := fun _ => 0
    pendingDirection := .unset
    dumpEnabled := false }

/-- The slaves of two runs agree but for records of reads. -/
structure Alike (s s' : Slave) : Prop where
  view : s.masterView = s'.masterView
  write : onlyWrite s.slot.record = onlyWrite s'.slot.record

section
variable {s s' : Slave}

theorem Alike.setDump (alike : Alike s s') (on on' : Bool) : Alike (s.setDump on) (s'.setDump on') :=
  ⟨alike.view, alike.write⟩

/-- DATA events do not look at the slot. -/
theorem masterView_dataInterrupt (s : Slave) (act : SlaveAct) :
    s.masterView.dataInterrupt act = ((s.dataInterrupt act).1, (s.dataInterrupt act).2.masterView) := by
  cases act with
  | none | rreqFbr => rfl
  | treq =>
    unfold Slave.dataInterrupt Slave.transmitRequest
    cases valid : s.transmitPointerValid with
    | true =>
      have valid' : s.masterView.transmitPointerValid = true := valid
      rw [valid', if_pos rfl, if_pos rfl]
      rfl
    | false =>
      have valid' : s.masterView.transmitPointerValid = false := valid
      rw [valid', if_neg Bool.false_ne_true, if_neg Bool.false_ne_true]
  | rreq value =>
    unfold Slave.dataInterrupt Slave.byteReceived
    have count : s.masterView.receiveCount = s.receiveCount := rfl
    rw [count]
    dsimp only
    split <;> rfl

theorem Alike.dataInterrupt (alike : Alike s s') (act : SlaveAct) :
    (s.dataInterrupt act).1 = (s'.dataInterrupt act).1 ∧
      Alike (s.dataInterrupt act).2 (s'.dataInterrupt act).2 := by
  have left := masterView_dataInterrupt s act
  have right := masterView_dataInterrupt s' act
  rw [alike.view, right] at left
  obtain ⟨supplied, view⟩ := Prod.mk.inj left
  refine ⟨supplied.symm, view.symm, ?_⟩
  rw [slot_dataInterrupt, slot_dataInterrupt]
  exact alike.write

theorem Alike.received (alike : Alike s s') : s.receiveCount = s'.receiveCount ∧
    s.registerPointer = s'.registerPointer ∧ s.receiveBuffer = s'.receiveBuffer := by
  have count := congrArg Slave.receiveCount alike.view
  have pointer := congrArg Slave.registerPointer alike.view
  have buffer := congrArg Slave.receiveBuffer alike.view
  exact ⟨count, pointer, buffer⟩

/-! ## STOP -/

theorem onlyWrite_placeWrite (s : Slave) (payload : s.receiveCount ≠ 0) :
    onlyWrite s.placeWrite.resetTransmit.slot.record =
      some ⟨.write, s.registerPointer, s.receiveBuffer.take s.receiveCount⟩ := by
  have full : s.placeWrite.resetTransmit.slot.count ≠ 0 := payload
  have bytes : s.placeWrite.resetTransmit.slot.buffer.take s.receiveCount = s.receiveBuffer.take s.receiveCount :=
    Buffer.take_copyBytes _ _ _
  rw [Slot.record_of_full full]
  exact congrArg (fun data => some (Record.mk .write s.registerPointer data)) bytes

theorem onlyWrite_placeRead (s : Slave) : onlyWrite s.placeRead.resetTransmit.slot.record = none := by
  unfold Slot.record
  split
  · rfl
  · rfl

/-- The slot is busy with a write exactly when it has a write record. -/
theorem busy_iff (apart : ¬ s.ReadCollides) (payload : s.receiveCount ≠ 0) :
    s.pendingCount ≠ 0 ↔ onlyWrite s.slot.record ≠ none := by
  constructor
  · intro busy
    have direction : s.pendingDirection = .write := by
      by_contra other
      exact apart ⟨busy, by rw [if_pos payload]; exact other⟩
    rw [Slot.record_of_full busy]
    simp [onlyWrite, Slave.slot, direction]
  · intro some_ free
    apply some_
    rw [Slot.record_of_empty free]
    rfl

/-- STOP without a payload leaves the master's view and the write record of the slot. -/
theorem stop_without_payload (empty : s.receiveCount = 0) (apart : ¬ s.ReadCollides) :
    s.stopInterrupt.masterView = s.masterView.resetTransmit ∧
    onlyWrite s.stopInterrupt.slot.record = onlyWrite s.slot.record := by
  rw [stop_empty empty]
  split
  case isFalse => exact ⟨rfl, rfl⟩
  case isTrue dumps =>
    have free : s.pendingCount = 0 := by
      by_contra busy
      exact apart ⟨busy, by rw [if_neg (by simp [empty])]; exact dumps⟩
    rw [if_pos free, onlyWrite_placeRead, Slot.record_of_empty free]
    exact ⟨rfl, rfl⟩

theorem Alike.stopInterrupt (alike : Alike s s') (apart : ¬ s.ReadCollides) (apart' : ¬ s'.ReadCollides) :
    Alike s.stopInterrupt s'.stopInterrupt := by
  obtain ⟨count, pointer, buffer⟩ := alike.received
  -- only a write touches what the master can see; both slots are busy with a write or neither is
  by_cases payload : s.receiveCount = 0
  · have payload' : s'.receiveCount = 0 := count.symm.trans payload
    obtain ⟨view, write⟩ := stop_without_payload payload apart
    obtain ⟨view', write'⟩ := stop_without_payload payload' apart'
    refine ⟨?_, ?_⟩
    · rw [view, view', alike.view]
    · rw [write, write', alike.write]
  · have payload' : s'.receiveCount ≠ 0 := fun none_ => payload (count.trans none_)
    have same : s.pendingCount ≠ 0 ↔ s'.pendingCount ≠ 0 := by
      rw [busy_iff apart payload, busy_iff apart' payload', alike.write]
    rw [stop_with_payload payload, stop_with_payload payload']
    by_cases free : s.pendingCount = 0
    · have free' : s'.pendingCount = 0 := by
        by_contra busy
        exact same.mpr busy free
      rw [if_pos free, if_pos free']
      refine ⟨?_, ?_⟩
      · have placed : ∀ s : Slave, s.placeWrite.resetTransmit.masterView = { s.masterView with
            loopbackBuffer := s.masterView.committed
            receiveCount := 0
            transactionCount := s.masterView.transactionCount + 1 }.resetTransmit := fun _ => rfl
        rw [placed, placed, alike.view]
      · rw [onlyWrite_placeWrite s payload, onlyWrite_placeWrite s' payload', pointer, buffer, count]
    · rw [if_neg free, if_neg (same.mp free)]
      refine ⟨?_, alike.write⟩
      have refused : ∀ s :
        Slave, ({ s with errorCount := s.errorCount + 1, receiveCount := 0 }.resetTransmit).masterView =
          { s.masterView with errorCount := s.masterView.errorCount + 1, receiveCount := 0 }.resetTransmit :=
            fun _ => rfl
      rw [refused, refused, alike.view]

/-! ## The worker -/

/-- The slave after the worker has handled this write record. -/
def Slave.handle (s : Slave) : Option Record → Slave
  | none => s
  | some r =>
    if r.register = i2cCommandRegister ∧ r.data =
      [i2cCommandClearStats] then { s with transactionCount := 0, errorCount := 0 }
    else if isLoopbackWrite r.register r.data.length then s
    else { s with errorCount := s.errorCount + 1 }

theorem recordHandled_eq (s : Slave) : s.recordHandled = s.handle (onlyWrite s.slot.record) := by
  -- a read record and an empty slot have no effect but the text that is dumped
  by_cases write : s.pendingDirection = .write ∧ s.pendingCount ≠ 0
  · obtain ⟨direction, full⟩ := write
    have record : onlyWrite s.slot.record = some ⟨.write, s.pendingRegister,
        s.pendingBuffer.take s.pendingCount⟩ := by
      rw [Slot.record_of_full full]
      simp [onlyWrite, Slave.slot, direction]
    have clear : s.isClearCommand s.pendingDirection = true ↔
        s.pendingRegister = i2cCommandRegister ∧ s.pendingBuffer.take s.pendingCount = [i2cCommandClearStats] := by
      rw [Buffer.take_eq_singleton]
      simp [Slave.isClearCommand, direction, and_assoc]
    have rejected : (decide (s.pendingDirection = .write) && s.pendingCount != 0 &&
        !isLoopbackWrite s.pendingRegister s.pendingCount) = !isLoopbackWrite s.pendingRegister s.pendingCount := by
      simp [direction, full]
    unfold Slave.recordHandled
    rw [record, rejected]
    unfold Slave.handle
    dsimp only
    rw [Buffer.length_take]
    apply if_congr clear rfl
    cases isLoopbackWrite s.pendingRegister s.pendingCount <;> rfl
  · have record : onlyWrite s.slot.record = none := by
      by_cases free : s.pendingCount = 0
      · rw [Slot.record_of_empty free]
        rfl
      · have direction : s.pendingDirection ≠ .write := fun same => write ⟨same, free⟩
        rw [Slot.record_of_full free]
        simp [onlyWrite, Slave.slot, direction]
    have idle : s.pendingDirection ≠ .write ∨ s.pendingCount = 0 := by
      by_cases direction : s.pendingDirection = .write
      · exact .inr (by_contra fun full => write ⟨direction, full⟩)
      · exact .inl direction
    rw [Slave.recordHandled_of_idle idle, record]
    rfl

theorem masterView_handle (s : Slave) (record : Option Record) :
    (s.handle record).masterView = s.masterView.handle record := by
  cases record with
  | none => rfl
  | some r =>
    unfold Slave.handle
    dsimp only
    split
    · rfl
    · split <;> rfl

theorem Alike.iteration (alike : Alike s s') (ticks : Word) :
    Alike (workerIteration ticks s).2 (workerIteration ticks s').2 := by
  have view : ∀ s : Slave, (workerIteration ticks s).2.masterView =
      { s.recordHandled.masterView with transmitRegisters := none }.publishRegisters ticks := fun _ => rfl
  have empty : ∀ s : Slave, onlyWrite (workerIteration ticks s).2.slot.record = none :=
    fun s => congrArg onlyWrite (Slot.record_of_empty rfl)
  refine ⟨?_, ?_⟩
  · rw [view, view, recordHandled_eq, recordHandled_eq, masterView_handle, masterView_handle, alike.view,
      alike.write]
  · rw [empty, empty]

/-! ## Two runs -/

theorem Alike.interrupt (alike : Alike s s') (flags : Interrupt)
    (apart : flags.stop = true → ¬ (s.beforeStop flags.data).ReadCollides)
    (apart' : flags.stop = true → ¬ (s'.beforeStop flags.data).ReadCollides) :
    (i2cInterruptHandler flags s).1 = (i2cInterruptHandler flags s').1 ∧
    Alike (i2cInterruptHandler flags s).2 (i2cInterruptHandler flags s').2 := by
  obtain ⟨data, stop⟩ := flags
  have arrived : (i2cInterruptHandler ⟨data, stop⟩ s).1 = (i2cInterruptHandler ⟨data, stop⟩ s').1 ∧
      Alike (s.beforeStop data) (s'.beforeStop data) := by
    cases data with
    | none => exact ⟨rfl, alike⟩
    | some act => exact alike.dataInterrupt act
  refine ⟨arrived.1, ?_⟩
  have after : ∀ s : Slave, (i2cInterruptHandler ⟨data, stop⟩ s).2 =
      if stop then (s.beforeStop data).stopInterrupt else s.beforeStop data := by
    intro s
    cases data <;> rfl
  rw [after, after]
  cases stop with
  | true => exact arrived.2.stopInterrupt (apart rfl) (apart' rfl)
  | false => exact arrived.2

theorem Alike.turn (alike : Alike s s') (t t' : Turn) (same : t.action = t'.action) (apart : ¬ t.Collides s)
    (apart' : ¬ t'.Collides s') : (s.turn t).1 = (s'.turn t').1 ∧ Alike (s.turn t).2 (s'.turn t').2 := by
  have ready := alike.setDump t.dumpEnabled t'.dumpEnabled
  unfold Turn.Collides at apart apart'
  unfold Slave.turn
  rw [← same] at apart' ⊢
  cases action : t.action with
  | interrupt flags =>
    rw [action] at apart apart'
    exact ready.interrupt flags (fun stop collides => apart ⟨stop, collides⟩) fun stop collides =>
      apart' ⟨stop, collides⟩
  | iteration ticks => exact ⟨rfl, ready.iteration ticks⟩

end

theorem Alike.turns (first second : List Turn) (same : first.map Turn.action = second.map Turn.action) :
    ∀ s s', Alike s s' → ReadsApart first s → ReadsApart second s' →
      (Slave.turns first s).1 = (Slave.turns second s').1 ∧
        Alike (Slave.turns first s).2 (Slave.turns second s').2 := by
  induction first generalizing second with
  | nil =>
    intro s s' alike _ _
    rw [List.map_eq_nil_iff.mp same.symm]
    exact ⟨rfl, alike⟩
  | cons t rest ih =>
    cases second with
    | nil => cases same
    | cons t' rest' =>
      intro s s' alike apart apart'
      obtain ⟨action, same'⟩ := List.cons.inj same
      obtain ⟨supplied, alike'⟩ := alike.turn t t' action apart.1 apart'.1
      obtain ⟨bytes, final⟩ := ih rest' same' _ _ alike' apart.2 apart'.2
      unfold Slave.turns
      rw [supplied, bytes]
      exact ⟨rfl, final⟩

/-- Two runs with the same interrupts and iterations that differ in dumpEnabled, in which no
record of a read meets another record in the slot, supply the same bytes and leave the same
loopback window and counters. -/
theorem dump_transparent (start : Slave) (first second : List Turn)
    (same : first.map Turn.action = second.map Turn.action) (apart : ReadsApart first start)
    (apart' : ReadsApart second start) :
    (Slave.turns first start).1 = (Slave.turns second start).1 ∧
    (Slave.turns first start).2.loopbackBuffer = (Slave.turns second start).2.loopbackBuffer ∧
    (Slave.turns first start).2.transactionCount = (Slave.turns second start).2.transactionCount ∧
    (Slave.turns first start).2.errorCount = (Slave.turns second start).2.errorCount := by
  obtain ⟨supplied, alike⟩ := Alike.turns first second same start start ⟨rfl, rfl⟩ apart apart'
  have window := congrArg Slave.loopbackBuffer alike.view
  have transactions := congrArg Slave.transactionCount alike.view
  have errors := congrArg Slave.errorCount alike.view
  exact ⟨supplied, window, transactions, errors⟩

/-- A dumped read, a write and the read of what was written; after each of them an iteration or not. -/
def dumpedTurns (dumpEnabled iterate : Bool) : List Turn :=
  [.read 0x80 1, .write 0x80 [0x55], .read 0x80 1].flatMap fun transaction : Transaction =>
    (transaction.interrupts.map fun flags => ⟨dumpEnabled, .interrupt flags⟩) ++
    if iterate then [⟨dumpEnabled, .iteration 300⟩] else []

/-- With an iteration after each transaction. -/
theorem dump_transparent_paced :
    (Slave.turns (dumpedTurns true true) (i2cSlaveStart .rx 0x00000201 255)).1 =
      (Slave.turns (dumpedTurns false true) (i2cSlaveStart .rx 0x00000201 255)).1 ∧
    (Slave.turns (dumpedTurns true true) (i2cSlaveStart .rx 0x00000201 255)).1 = [0x00, 0x55] :=
  ⟨(dump_transparent (i2cSlaveStart .rx 0x00000201 255) (dumpedTurns true true) (dumpedTurns false true) (by decide)
    (by decide +kernel) (by decide +kernel)).1, by decide +kernel⟩

/-- Without an iteration the dumped read takes the slot of the write. -/
theorem dump_interferes : (dumpedTurns true false).map Turn.action = (dumpedTurns false false).map Turn.action ∧
    (Slave.turns (dumpedTurns true false) (i2cSlaveStart .rx 0x00000201 255)).1 = [0x00, 0x00] ∧
    (Slave.turns (dumpedTurns false false) (i2cSlaveStart .rx 0x00000201 255)).1 = [0x00, 0x55] ∧
    (Slave.turns (dumpedTurns true false) (i2cSlaveStart .rx 0x00000201 255)).2.loopbackBuffer ≠
      (Slave.turns (dumpedTurns false false) (i2cSlaveStart .rx 0x00000201 255)).2.loopbackBuffer ∧
    (Slave.turns (dumpedTurns true false) (i2cSlaveStart .rx 0x00000201 255)).2.transactionCount = 0 ∧
    (Slave.turns (dumpedTurns false false) (i2cSlaveStart .rx 0x00000201 255)).2.transactionCount = 1 ∧
    (Slave.turns (dumpedTurns true false) (i2cSlaveStart .rx 0x00000201 255)).2.errorCount = 2 ∧
    (Slave.turns (dumpedTurns false false) (i2cSlaveStart .rx 0x00000201 255)).2.errorCount = 0 := by
  refine ⟨by decide, by decide +kernel, by decide +kernel, ?_, by decide +kernel, by decide +kernel,
    by decide +kernel, by decide +kernel⟩
  intro same
  exact absurd (congrFun same 0) (by decide +kernel)

end Cc1310Firmware.I2cSlave
