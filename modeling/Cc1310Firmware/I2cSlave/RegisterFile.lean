import Cc1310Firmware.I2cSlave.BusEvents
import Mathlib.Tactic.IntervalCases

/-! The register file that the interface document describes, and the slave
against it: complete transactions, with one worker iteration after each STOP.
-/

set_option autoImplicit false

namespace Cc1310Firmware.I2cSlave
open LittleEndian

/-! ## The documented model -/

/-- The status map: magic, interface version, firmware version, role, the two
counters, the tick count of the publication. -/
def statusMap (role : FirmwareRole) (firmwareVersionCode transactionCount errorCount ticks : Word) : Buffer :=
  fun offset =>
  if offset = 0x00 then 0x49
  else if offset = 0x01 then 0x32
  else if offset = 0x02 then 0x43
  else if offset = 0x03 then 0x53
  else if offset = 0x04 then 1
  else if offset < 0x09 then byteOf firmwareVersionCode (offset - 0x05)
  else if offset = 0x09 then role.code
  else if offset < 0x0E then byteOf transactionCount (offset - 0x0A)
  else if offset < 0x12 then byteOf errorCount (offset - 0x0E)
  else if offset < 0x16 then byteOf ticks (offset - 0x12)
  else 0

structure RegisterFile where
  /-- The bytes at 0x80..0xBF. -/
  window : Buffer
  transactionCount : Word
  errorCount : Word
  /-- The last published status bank. -/
  status : Buffer

/-- All registers from `register` on, `count` of them, are in the loopback window. -/
def FitsWindow (register : Byte) (count : Nat) : Prop := 0x80 ≤ register.toNat ∧ register.toNat + count ≤ 0xC0

instance (register : Byte) (count : Nat) : Decidable (FitsWindow register count) := by
  unfold FitsWindow
  infer_instance

/-- The window after a write that fits. -/
def overlay (window : Buffer) (register : Byte) (payload : List Byte) : Buffer := fun offset =>
  if inside : register.toNat ≤ 0x80 + offset ∧ 0x80 + offset - register.toNat < payload.length then
    payload[0x80 + offset - register.toNat]
  else window offset

/-- Byte `i` of a read at `register`. -/
def RegisterFile.readByte (file : RegisterFile) (register : Byte) (i : Nat) : Byte :=
  if 0x80 ≤ register.toNat ∧ register.toNat ≤ 0xBF then
    if register.toNat + i ≤ 0xBF then file.window (register.toNat + i - 0x80) else 0
  else file.status ((register.toNat + i) % 64)

def RegisterFile.write (file : RegisterFile) (register : Byte) (payload : List Byte) : RegisterFile :=
  if FitsWindow register payload.length then
    { file with
      window := overlay file.window register payload
      transactionCount := file.transactionCount + 1 }
  else if register = 0x40 ∧ payload = [0x01] then { file with transactionCount := 0, errorCount := 0 }
  else { file with
      transactionCount := file.transactionCount + 1
      errorCount := file.errorCount + 1 }

def RegisterFile.serve (file : RegisterFile) : Transaction → List Byte × RegisterFile
  | .select _ => ([], file)
  | .write register payload => ([], file.write register payload)
  | .read register count => ((List.range count).map (file.readByte register), file)
  | .probe count => (List.replicate count 0, file)

def RegisterFile.publish (file : RegisterFile) (role : FirmwareRole) (firmwareVersionCode ticks : Word) :
    RegisterFile :=
  { file with status := statusMap role firmwareVersionCode file.transactionCount file.errorCount ticks }

/-! ## Transactions on the slave -/

/-- Writes and reads have at most 64 bytes, a write that is not a pointer alone at least one. -/
def Transaction.Sized : Transaction → Prop
  | .select _ | .probe _ => True
  | .write _ payload => 0 < payload.length ∧ payload.length ≤ 64
  | .read _ count => 0 < count ∧ count ≤ 64

/-- A transaction, the interrupts that report it, and the worker iteration after its STOP. -/
structure Exchange where
  transaction : Transaction
  sized : transaction.Sized
  interrupts : List Interrupt
  reported : interrupts.flatMap Interrupt.events = transaction.events
  dumpEnabled : Bool
  ticks : Word

/-- The slave through one exchange. -/
def Slave.exchange (s : Slave) (x : Exchange) : List Byte × Slave :=
  let (supplied, served) := serveInterrupts x.interrupts { s with dumpEnabled := x.dumpEnabled }
  (supplied, (workerIteration x.ticks served).2)

def Slave.exchanges : List Exchange → Slave → List (List Byte) × Slave
  | [], s => ([], s)
  | x :: rest, s =>
    ((s.exchange x).1 :: (Slave.exchanges rest (s.exchange x).2).1, (Slave.exchanges rest (s.exchange x).2).2)

def RegisterFile.exchanges (role : FirmwareRole) (firmwareVersionCode : Word) : List Exchange → RegisterFile →
    List (List Byte) × RegisterFile
  | [], file => ([], file)
  | x :: rest, file =>
    let (supplied, served) := file.serve x.transaction
    let (bytes, final) :=
      RegisterFile.exchanges role firmwareVersionCode rest (served.publish role firmwareVersionCode x.ticks)
    (supplied :: bytes, final)

def RegisterFile.start (role : FirmwareRole) (firmwareVersionCode ticks : Word) : RegisterFile :=
  RegisterFile.publish ⟨fun _ => 0, 0, 0, fun _ => 0⟩ role firmwareVersionCode ticks

/-- The registers as the master sees them. -/
def Slave.registerFile (s : Slave) : RegisterFile :=
  ⟨s.loopbackBuffer, s.transactionCount, s.errorCount, s.registers s.activeRegisters⟩

/-! ## Bytes and windows -/

theorem Slave.bank_eq (s : Slave) (ticks : Word) :
    s.bank ticks = statusMap s.currentRole s.firmwareVersionCode s.transactionCount s.errorCount ticks := by
  funext offset
  by_cases listed : offset < 0x16
  · interval_cases offset <;> rfl
  · unfold Slave.bank writeUint32Le statusMap
    simp only [copyBytes_apply, Function.update_apply]
    repeat rw [if_neg (by omega)]

theorem isLoopbackWrite_iff (register : Byte) {count : Nat} (some_ : 0 < count) :
    isLoopbackWrite register count = true ↔ FitsWindow register count := by
  unfold isLoopbackWrite i2cLoopbackSize i2cLoopbackRegister FitsWindow
  rw [Bool.and_eq_true, isLoopbackRegister_iff, decide_eq_true_eq]
  omega

/-- Committing the received payload is the overlay of the document. -/
theorem copyBytes_window (window : Buffer) {buffer : Buffer} {register : Byte} {payload : List Byte}
    (received : buffer.take payload.length = payload) (fits : FitsWindow register payload.length) :
    copyBytes window (register.toNat - i2cLoopbackRegister) buffer payload.length =
      overlay window register payload := by
  obtain ⟨low, high⟩ := fits
  funext offset
  rw [copyBytes_apply]
  unfold overlay i2cLoopbackRegister
  split
  case isTrue inside =>
    have place : register.toNat ≤ 0x80 + offset ∧ 0x80 + offset - register.toNat < payload.length := by omega
    have index : offset - (register.toNat - 0x80) = 0x80 + offset - register.toNat := by omega
    rw [dif_pos place, index, Buffer.getElem_of_take received place.2]
  case isFalse outside =>
    rw [dif_neg]
    omega

/-! ## One exchange -/

/-- Between an iteration and the next transaction. -/
structure Idle (s : Slave) : Prop where
  slot : s.pendingCount = 0
  received : s.receiveCount = 0
  unaddressed : s.transmitPointerValid = false

/-- What a transaction and the iteration after it leave, against the documented model. -/
structure Serves (s : Slave) (ticks : Word) (served : List Byte × Slave)
    (expected : List Byte × RegisterFile) : Prop where
  supplied : served.1 = expected.1
  file : (workerIteration ticks served.2).2.registerFile =
    expected.2.publish s.currentRole s.firmwareVersionCode ticks
  idle : Idle (workerIteration ticks served.2).2
  role : (workerIteration ticks served.2).2.currentRole = s.currentRole
  version : (workerIteration ticks served.2).2.firmwareVersionCode = s.firmwareVersionCode

/-- Publishing on the slave is publishing in the document. -/
theorem Slave.registerFile_publish (s : Slave) (ticks : Word) : (s.publishRegisters ticks).registerFile =
    s.registerFile.publish s.currentRole s.firmwareVersionCode ticks := by
  simp only [Slave.publishRegisters, Slave.registerFile, RegisterFile.publish, Function.update_self, Slave.bank_eq]

theorem readByte_eq (s : Slave) (register : Byte) {i : Nat} (short : i < 64) :
    (s.firstByteReceived register).transmitValueAt i = s.registerFile.readByte register i := by
  rw [Slave.transmitValueAt_first]
  unfold RegisterFile.readByte
  by_cases window : 0x80 ≤ register.toNat ∧ register.toNat ≤ 0xBF
  · have pointer : (register + BitVec.ofNat 8 i).toNat = register.toNat + i := by
      rw [BitVec.toNat_add, BitVec.toNat_ofNat]
      omega
    rw [if_pos ((isLoopbackRegister_iff register).mpr window), if_pos window, pointer]
    apply if_congr ?_ rfl rfl
    rw [isLoopbackRegister_iff, pointer]
    omega
  · rw [if_neg (mt (isLoopbackRegister_iff register).mp window), if_neg window, registerIndex]
    rfl

/-! ## The worker iteration -/

theorem workerIteration_file (s : Slave) (ticks : Word) : (workerIteration ticks s).2.registerFile =
    s.recordHandled.registerFile.publish s.currentRole s.firmwareVersionCode ticks := by
  obtain ⟨role, version, _, _⟩ := s.recordHandled_kept
  unfold workerIteration
  rw [Slave.registerFile_publish, ← role, ← version]
  rfl

/-- An iteration after a STOP that left no payload and no pointer behind. -/
theorem serves_of_stopped (s t : Slave) {file : RegisterFile} (supplied : List Byte) (ticks : Word)
    (received : t.receiveCount = 0) (unaddressed : t.transmitPointerValid = false)
    (role : t.currentRole = s.currentRole) (version : t.firmwareVersionCode = s.firmwareVersionCode)
    (handled : ∀ role version,
      t.recordHandled.registerFile.publish role version ticks = file.publish role version ticks) :
    Serves s ticks (supplied, t) (supplied, file) := by
  obtain ⟨role', version', received', unaddressed'⟩ := t.recordHandled_kept
  refine ⟨rfl, ?_, ⟨rfl, received'.trans received, unaddressed'.trans unaddressed⟩, role'.trans role,
    version'.trans version⟩
  rw [workerIteration_file, role, version, handled]

/-! ## One exchange -/

section
variable {s : Slave}

/-- STOP after a pointer, a read or a probe: the record it may leave is that of a read. -/
theorem serves_of_requests (t : Slave) (ticks : Word) (supplied : List Byte) (received : t.receiveCount = 0)
    (slot : t.pendingCount = 0) (file : t.registerFile = s.registerFile) (role : t.currentRole = s.currentRole)
    (version : t.firmwareVersionCode = s.firmwareVersionCode) :
    Serves s ticks (supplied, t.stopInterrupt) (supplied, s.registerFile) := by
  have stop := stop_empty received
  rw [if_pos slot] at stop
  cases dump : t.dumpsRead with
  | true =>
    rw [dump, if_pos rfl] at stop
    rw [stop]
    apply serves_of_stopped s t.placeRead.resetTransmit supplied ticks received rfl role version
    intro role version
    rw [Slave.recordHandled_of_idle (.inl (by simp [Slave.placeRead, Slave.resetTransmit]))]
    exact congrArg (RegisterFile.publish · role version ticks) file
  | false =>
    rw [dump, if_neg Bool.false_ne_true] at stop
    rw [stop]
    apply serves_of_stopped s t.resetTransmit supplied ticks received rfl role version
    intro role version
    have unhandled : t.resetTransmit.recordHandled = t.resetTransmit := Slave.recordHandled_of_idle (.inr slot)
    rw [unhandled]
    exact congrArg (RegisterFile.publish · role version ticks) file

theorem serves_select (idle : Idle s) (register : Byte) (ticks : Word) :
    Serves s ticks (respond (Transaction.select register).events s) (s.registerFile.serve (.select register)) :=
  serves_of_requests (s.firstByteReceived register) ticks [] rfl idle.slot rfl rfl rfl

theorem serves_probe (idle : Idle s) (count : Nat) (ticks : Word) :
    Serves s ticks (respond (Transaction.probe count).events s) (s.registerFile.serve (.probe count)) := by
  have requests := respond_probe count s idle.unaddressed
  rw [Transaction.events, respond_append, requests]
  simp only [respond, Slave.busEvent, Option.toList_none, List.append_nil]
  exact serves_of_requests s ticks _ idle.received idle.slot rfl rfl rfl

theorem serves_read (idle : Idle s) (register : Byte) (count : Nat) (short : count ≤ 64) (ticks : Word) :
    Serves s ticks (respond (Transaction.read register count).events s)
      (s.registerFile.serve (.read register count)) := by
  have supplied := respond_treq_supplied count (s.firstByteReceived register) rfl
  obtain ⟨pointer, bank, buffer, length, after⟩ := respond_treq count (s.firstByteReceived register)
  have values : (List.range count).map (s.firstByteReceived register).transmitValueAt =
      (List.range count).map (s.registerFile.readByte register) := by
    apply List.map_congr_left
    intro i member
    exact readByte_eq s register (Nat.lt_of_lt_of_le (List.mem_range.mp member) short)
  rw [Transaction.events, List.cons_append]
  unfold respond
  simp only [Slave.busEvent, Slave.dataInterrupt, respond_append, supplied, values, after]
  simp only [respond, Slave.busEvent, Option.toList_none, List.append_nil, List.nil_append]
  exact serves_of_requests _ ticks _ rfl idle.slot rfl rfl rfl

/-- STOP after a payload of at most 64 bytes that finds the slot free. -/
theorem stop_write (slot : s.pendingCount = 0) (register : Byte) {payload : List Byte}
    (some_ : 0 < payload.length) :
    (s.afterPayload register payload).stopInterrupt =
      (s.afterPayload register payload).placeWrite.resetTransmit := by
  have count : (s.afterPayload register payload).receiveCount ≠ 0 := by
    have positive : min payload.length i2cWriteMax ≠ 0 := by
      unfold i2cWriteMax i2cRegisterCount
      omega
    exact positive
  rw [stop_with_payload count]
  exact if_pos slot

/-- STOP commits the buffered bytes, if they fit. -/
theorem committed_of_received {s : Slave} {payload : List Byte} (some_ : payload ≠ [])
    (count : s.receiveCount = payload.length)
    (received : s.receiveBuffer.take payload.length = payload) : s.committed =
      if FitsWindow s.registerPointer payload.length then overlay s.loopbackBuffer s.registerPointer payload
      else s.loopbackBuffer := by
  have positive := List.length_pos_iff.mpr some_
  unfold Slave.committed
  rw [count]
  by_cases fits : FitsWindow s.registerPointer payload.length
  · rw [if_pos ((isLoopbackWrite_iff _ positive).mpr fits), if_pos fits, copyBytes_window _ received fits]
  · rw [if_neg (mt (isLoopbackWrite_iff _ positive).mp fits), if_neg fits]

/-- What STOP commits of a payload. -/
theorem committed_write (s : Slave) (register : Byte) {payload : List Byte} (some_ : 0 < payload.length) :
    (s.afterPayload register payload).committed =
      if FitsWindow register (payload.take i2cWriteMax).length then overlay s.loopbackBuffer register
        (payload.take i2cWriteMax)
      else s.loopbackBuffer := by
  have count : (s.afterPayload register payload).receiveCount = (payload.take i2cWriteMax).length := by
    rw [List.length_take]
    exact Nat.min_comm _ _
  have buffered : payload.take i2cWriteMax ≠ [] := by
    apply List.ne_nil_of_length_pos
    rw [List.length_take]
    exact Nat.lt_min.mpr ⟨by decide, some_⟩
  exact committed_of_received buffered count (Buffer.take_storeAll _ _)

/-- The record of a write is the clear command exactly when the payload is. -/
theorem isClearCommand_write (register : Byte) {payload : List Byte} (some_ : 0 < payload.length)
    (short : payload.length ≤ 64) :
    (s.afterPayload register payload).placeWrite.resetTransmit.isClearCommand .write =
      decide (register = 0x40 ∧ payload = [0x01]) := by
  obtain ⟨byte, rest, rfl⟩ := List.exists_cons_of_length_pos some_
  generalize placed : (s.afterPayload register (byte :: rest)).placeWrite.resetTransmit = t
  have named : t.pendingRegister = register := by rw [← placed]; rfl
  have count : t.pendingCount = (byte :: rest).length := by rw [← placed]; exact Nat.min_eq_left short
  have first : t.pendingBuffer 0 = byte := by
    have stored :=
      Buffer.storeAll_apply s.receiveBuffer 0 0 ((byte :: rest).take i2cWriteMax) (by simp [i2cWriteMax,
        i2cRegisterCount])
    have copied := copyBytes_apply s.pendingBuffer 0 (s.receiveBuffer.storeAll 0 ((byte :: rest).take i2cWriteMax))
      (min (byte :: rest).length i2cWriteMax) 0
    rw [if_pos (by simp [i2cWriteMax, i2cRegisterCount])] at copied
    rw [← placed]
    exact copied.trans stored
  unfold Slave.isClearCommand i2cCommandRegister i2cCommandClearStats
  rw [named, count, first]
  rw [Bool.eq_iff_iff]
  cases rest <;> simp [and_comm]

/-- What the worker makes of the record of a write. -/
theorem recordHandled_write (register : Byte) {payload : List Byte} (some_ : 0 < payload.length)
    (short : payload.length ≤ 64) :
    (s.afterPayload register payload).placeWrite.resetTransmit.recordHandled.registerFile =
      s.registerFile.write register payload := by
  have command := @isClearCommand_write s register payload some_ short
  have whole : payload.take i2cWriteMax = payload := List.take_of_length_le short
  have window : (s.afterPayload register payload).placeWrite.resetTransmit.loopbackBuffer = _ :=
    committed_write s register some_
  rw [whole] at window
  have errors : (s.afterPayload register payload).placeWrite.resetTransmit.errorCount = s.errorCount := by
    have none_ : payload.length - i2cWriteMax = 0 := Nat.sub_eq_zero_of_le short
    have sum : (s.afterPayload register payload).placeWrite.resetTransmit.errorCount =
        s.errorCount + BitVec.ofNat 32 (payload.length - i2cWriteMax) := rfl
    rw [sum, none_]
    exact BitVec.add_zero _
  have direction : (s.afterPayload register payload).placeWrite.resetTransmit.pendingDirection = .write := rfl
  have named : (s.afterPayload register payload).placeWrite.resetTransmit.pendingRegister = register := rfl
  have count : (s.afterPayload register payload).placeWrite.resetTransmit.pendingCount = payload.length :=
    Nat.min_eq_left short
  have transactions : (s.afterPayload register payload).placeWrite.resetTransmit.transactionCount =
    s.transactionCount + 1 := rfl
  have status : (s.afterPayload register payload).placeWrite.resetTransmit.registers
      (s.afterPayload register payload).placeWrite.resetTransmit.activeRegisters = s.registers s.activeRegisters :=
        rfl
  -- the facts above are all that the worker's handling depends on
  generalize (s.afterPayload register payload).placeWrite.resetTransmit = t at *
  have nonzero : (t.pendingCount != 0) = true := by
    rw [count]
    exact bne_iff_ne.mpr (Nat.ne_of_gt some_)
  unfold Slave.recordHandled RegisterFile.write
  rw [direction, command, nonzero, named, count, decide_eq_true rfl, Bool.true_and]
  by_cases fits : FitsWindow register payload.length
  · have other : ¬ (register = 0x40 ∧ payload = [0x01]) := by
      rintro ⟨rfl, _⟩
      exact absurd fits.1 (by decide)
    have valid := (isLoopbackWrite_iff register some_).mpr fits
    rw [decide_eq_false other, if_neg Bool.false_ne_true, valid, if_neg (by simp), if_pos fits]
    rw [if_pos fits] at window
    simp only [Slave.registerFile, window, transactions, errors, status]
  · have invalid : isLoopbackWrite register payload.length = false :=
      Bool.eq_false_iff.mpr (mt (isLoopbackWrite_iff register some_).mp fits)
    rw [if_neg fits] at window
    rw [if_neg fits, invalid]
    by_cases clear : register = 0x40 ∧ payload = [0x01]
    · rw [decide_eq_true clear, if_pos rfl, if_pos clear]
      simp only [Slave.registerFile, window, status]
    · rw [decide_eq_false clear, if_neg Bool.false_ne_true, if_pos (by simp), if_neg clear]
      simp only [Slave.registerFile, window, transactions, errors, status]

theorem serves_write (idle : Idle s) (register : Byte) {payload : List Byte} (some_ : 0 < payload.length)
    (short : payload.length ≤ 64) (ticks : Word) :
    Serves s ticks (respond (Transaction.write register payload).events s)
      (s.registerFile.serve (.write register payload)) := by
  rw [respond_write, stop_write idle.slot register some_]
  apply serves_of_stopped s (s.afterPayload register payload).placeWrite.resetTransmit [] ticks rfl rfl rfl rfl
  intro role version
  rw [recordHandled_write register some_ short]

theorem serves (idle : Idle s) {transaction : Transaction} (sized : transaction.Sized) (ticks : Word) :
    Serves s ticks (respond transaction.events s) (s.registerFile.serve transaction) := by
  cases transaction with
  | select register => exact serves_select idle register ticks
  | write register payload => exact serves_write idle register sized.1 sized.2 ticks
  | read register count => exact serves_read idle register count sized.2 ticks
  | probe count => exact serves_probe idle count ticks

/-- One exchange keeps the slave idle and equal to the documented register file. -/
theorem serves_exchange (idle : Idle s) (x : Exchange) :
    (s.exchange x).1 = (s.registerFile.serve x.transaction).1 ∧
    (s.exchange x).2.registerFile =
      (s.registerFile.serve x.transaction).2.publish s.currentRole s.firmwareVersionCode x.ticks ∧
    Idle (s.exchange x).2 ∧ (s.exchange x).2.currentRole = s.currentRole ∧
    (s.exchange x).2.firmwareVersionCode = s.firmwareVersionCode := by
  have ready : Idle { s with dumpEnabled := x.dumpEnabled } := ⟨idle.slot, idle.received, idle.unaddressed⟩
  obtain ⟨supplied, file, idle', role, version⟩ := serves ready x.sized x.ticks
  unfold Slave.exchange
  rw [serveInterrupts_eq, x.reported]
  exact ⟨supplied, file, idle', role, version⟩

end

theorem exchanges_of_idle (schedule : List Exchange) (s : Slave) (idle : Idle s) :
    (Slave.exchanges schedule s).1 =
      (RegisterFile.exchanges s.currentRole s.firmwareVersionCode schedule s.registerFile).1 ∧
    (Slave.exchanges schedule s).2.registerFile =
      (RegisterFile.exchanges s.currentRole s.firmwareVersionCode schedule s.registerFile).2 := by
  induction schedule generalizing s with
  | nil => exact ⟨rfl, rfl⟩
  | cons x rest ih =>
    obtain ⟨supplied, file, idle', role, version⟩ := serves_exchange idle x
    obtain ⟨bytes, final⟩ := ih _ idle'
    rw [role, version, file] at bytes final
    unfold Slave.exchanges RegisterFile.exchanges
    dsimp only
    rw [supplied, bytes, final]
    exact ⟨rfl, rfl⟩

theorem i2cSlaveStart_idle (role : FirmwareRole) (firmwareVersionCode ticks : Word) :
    Idle (i2cSlaveStart role firmwareVersionCode ticks) := ⟨rfl, rfl, rfl⟩

/-- Through any sequence of complete transactions with one worker iteration after
each, the slave supplies the bytes and keeps the window, the counters and the
published bank of the documented register file. -/
theorem conforms_to_registerFile (role : FirmwareRole) (firmwareVersionCode ticks : Word)
    (schedule : List Exchange) :
    (Slave.exchanges schedule (i2cSlaveStart role firmwareVersionCode ticks)).1 =
      (RegisterFile.exchanges role firmwareVersionCode schedule (RegisterFile.start role firmwareVersionCode ticks)).1 ∧
    (Slave.exchanges schedule (i2cSlaveStart role firmwareVersionCode ticks)).2.registerFile =
      (RegisterFile.exchanges role firmwareVersionCode schedule
        (RegisterFile.start role firmwareVersionCode ticks)).2 := by
  have start : (i2cSlaveStart role firmwareVersionCode ticks).registerFile =
      RegisterFile.start role firmwareVersionCode ticks := Slave.registerFile_publish _ ticks
  rw [← start]
  exact exchanges_of_idle schedule _ (i2cSlaveStart_idle role firmwareVersionCode ticks)

end Cc1310Firmware.I2cSlave
