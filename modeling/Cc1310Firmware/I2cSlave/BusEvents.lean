import Cc1310Firmware.I2cSlave.Slave

/-! What the handler makes of a transaction, event by event.

STOP may be reported together with the last DATA event or in an interrupt of
its own, and a START raises one that the handler ignores. The handler treats
all of these as the sequence of the reported events.
-/

set_option autoImplicit false

namespace Cc1310Firmware.I2cSlave

inductive BusEvent where
  | data (act : SlaveAct)
  | stop
  deriving DecidableEq, Repr

def Interrupt.events (flags : Interrupt) : List BusEvent :=
  flags.data.toList.map .data ++ if flags.stop then [.stop] else []

def Slave.busEvent (s : Slave) : BusEvent → Option Byte × Slave
  | .data act => s.dataInterrupt act
  | .stop => (none, s.stopInterrupt)

/-- The bytes that a sequence of events makes the slave supply, and the state it leaves. -/
def respond : List BusEvent → Slave → List Byte × Slave
  | [], s => ([], s)
  | event :: rest, s =>
    ((s.busEvent event).1.toList ++ (respond rest (s.busEvent event).2).1, (respond rest (s.busEvent event).2).2)

/-- The handler, called once for each interrupt. -/
def serveInterrupts : List Interrupt → Slave → List Byte × Slave
  | [], s => ([], s)
  | flags :: rest, s =>
    ((i2cInterruptHandler flags s).1.toList ++ (serveInterrupts rest (i2cInterruptHandler flags s).2).1,
      (serveInterrupts rest (i2cInterruptHandler flags s).2).2)

theorem respond_append (first second : List BusEvent) (s : Slave) : respond (first ++ second) s =
    ((respond first s).1 ++ (respond second (respond first s).2).1, (respond second (respond first s).2).2) := by
  induction first generalizing s with
  | nil => simp [respond]
  | cons event rest ih => simp only [List.cons_append, respond, ih, List.append_assoc]

theorem i2cInterruptHandler_eq (flags : Interrupt) (s : Slave) :
    respond flags.events s = ((i2cInterruptHandler flags s).1.toList, (i2cInterruptHandler flags s).2) := by
  obtain ⟨data, stop⟩ := flags
  cases data <;> cases stop <;>
    simp [Interrupt.events, respond, Slave.busEvent, i2cInterruptHandler]

theorem serveInterrupts_eq (interrupts : List Interrupt) (s : Slave) :
    serveInterrupts interrupts s = respond (interrupts.flatMap Interrupt.events) s := by
  induction interrupts generalizing s with
  | nil => rfl
  | cons flags rest ih =>
    rw [List.flatMap_cons, respond_append, i2cInterruptHandler_eq]
    simp only [serveInterrupts, ih]

/-- The handler publishes nothing. -/
theorem busEvent_banks (event : BusEvent) (s : Slave) :
    (s.busEvent event).2.registers = s.registers ∧ (s.busEvent event).2.activeRegisters = s.activeRegisters := by
  unfold Slave.busEvent
  cases event with
  | data act =>
    cases act with
    | none | rreqFbr => exact ⟨rfl, rfl⟩
    | treq =>
      simp only [Slave.dataInterrupt]
      unfold Slave.transmitRequest
      split <;> exact ⟨rfl, rfl⟩
    | rreq value =>
      simp only [Slave.dataInterrupt]
      unfold Slave.byteReceived
      split <;> exact ⟨rfl, rfl⟩
  | stop =>
    dsimp only
    unfold Slave.stopInterrupt
    split
    · split <;> exact ⟨rfl, rfl⟩
    · split
      · split <;> exact ⟨rfl, rfl⟩
      · exact ⟨rfl, rfl⟩

theorem respond_banks (events : List BusEvent) (s : Slave) :
    (respond events s).2.registers = s.registers ∧ (respond events s).2.activeRegisters = s.activeRegisters := by
  induction events generalizing s with
  | nil => exact ⟨rfl, rfl⟩
  | cons event rest ih =>
    obtain ⟨registers, active⟩ := ih (s.busEvent event).2
    obtain ⟨registers', active'⟩ := busEvent_banks event s
    exact ⟨registers.trans registers', active.trans active'⟩

/-! ## STOP -/

/-- STOP of a payload in the free slot, and behind a record. -/
theorem stop_with_payload {s : Slave} (payload : s.receiveCount ≠ 0) : s.stopInterrupt =
    if s.pendingCount = 0 then s.placeWrite.resetTransmit
    else { s with errorCount := s.errorCount + 1, receiveCount := 0 }.resetTransmit := by
  have some_ : (s.receiveCount != 0) = true := bne_iff_ne.mpr payload
  unfold Slave.stopInterrupt
  rw [some_, if_pos rfl]
  by_cases free : s.pendingCount = 0
  · have empty : (s.pendingCount != 0) = false := bne_eq_false_iff_eq.mpr free
    rw [empty, if_neg Bool.false_ne_true, if_pos free]
  · have busy : (s.pendingCount != 0) = true := bne_iff_ne.mpr free
    rw [busy, if_pos rfl, if_neg free]

/-- STOP without a payload: a dumped read in the free slot, and behind a record. -/
theorem stop_empty {s : Slave} (empty : s.receiveCount = 0) : s.stopInterrupt =
    if s.dumpsRead then
      if s.pendingCount = 0 then s.placeRead.resetTransmit else { s with errorCount := s.errorCount + 1 }.resetTransmit
    else s.resetTransmit := by
  have none_ : (s.receiveCount != 0) = false := bne_eq_false_iff_eq.mpr empty
  unfold Slave.stopInterrupt
  rw [none_, if_neg Bool.false_ne_true]
  by_cases free : s.pendingCount = 0
  · have empty : (s.pendingCount != 0) = false := bne_eq_false_iff_eq.mpr free
    rw [empty, if_neg Bool.false_ne_true, if_pos free]
  · have busy : (s.pendingCount != 0) = true := bne_iff_ne.mpr free
    rw [busy, if_pos rfl, if_neg free]

/-! ## Copies -/

theorem copyBytes_apply (destination : Buffer) (offset : Nat) (source : Buffer) (count a : Nat) :
    copyBytes destination offset source count a =
      if offset ≤ a ∧ a < offset + count then source (a - offset) else destination a := by
  induction count with
  | zero =>
    have none_ : ¬ (offset ≤ a ∧ a < offset + 0) := by omega
    rw [if_neg none_]
    rfl
  | succ count ih =>
    unfold copyBytes
    by_cases last : a = offset + count
    · subst last
      have inside : offset ≤ offset + count ∧ offset + count < offset + (count + 1) := by omega
      rw [Function.update_self, if_pos inside, Nat.add_sub_cancel_left]
    · rw [Function.update_of_ne last, ih]
      apply if_congr ?_ rfl rfl
      omega

theorem Buffer.take_congr {f g : Buffer} {count : Nat} (same : ∀ i < count, f i = g i) :
    f.take count = g.take count :=
  List.map_congr_left fun i member => same i (List.mem_range.mp member)

@[simp] theorem Buffer.length_take (buffer : Buffer) (count : Nat) : (buffer.take count).length = count := by
  simp [Buffer.take]

theorem Buffer.getElem_take (buffer : Buffer) {count i : Nat} (inside : i < (buffer.take count).length) :
    (buffer.take count)[i] = buffer i := by
  simp [Buffer.take]

theorem Buffer.getElem_of_take {buffer : Buffer} {count i : Nat} {bytes : List Byte}
    (held : buffer.take count = bytes) (inside : i < bytes.length) : bytes[i] = buffer i := by
  subst held
  exact buffer.getElem_take inside

theorem Buffer.take_copyBytes (destination source : Buffer) (count : Nat) :
    (copyBytes destination 0 source count).take count = source.take count := by
  apply Buffer.take_congr
  intro i short
  rw [copyBytes_apply, if_pos (by omega), Nat.sub_zero]

/-! ## Received bytes -/

/-- `buffer` with these bytes stored from `offset` on. -/
def Buffer.storeAll (buffer : Buffer) (offset : Nat) : List Byte → Buffer
  | [] => buffer
  | byte :: rest => Buffer.storeAll (Function.update buffer offset byte) (offset + 1) rest

theorem Buffer.storeAll_of_lt (buffer : Buffer) {offset a : Nat} (bytes : List Byte) (below : a < offset) :
    buffer.storeAll offset bytes a = buffer a := by
  induction bytes generalizing buffer offset with
  | nil => rfl
  | cons byte rest ih =>
    unfold storeAll
    rw [ih _ (Nat.lt_succ_of_lt below), Function.update_of_ne (Nat.ne_of_lt below)]

theorem Buffer.storeAll_apply (buffer : Buffer) (offset i : Nat) (bytes : List Byte) (inside : i < bytes.length) :
    buffer.storeAll offset bytes (offset + i) = bytes[i] := by
  induction bytes generalizing buffer offset i with
  | nil => simp at inside
  | cons byte rest ih =>
    unfold storeAll
    cases i with
    | zero =>
      have first := storeAll_of_lt (Function.update buffer offset byte) rest (Nat.lt_add_one offset)
      exact first.trans (Function.update_self offset byte buffer)
    | succ i =>
      have next := ih (Function.update buffer offset byte) (offset + 1) i (by simpa using inside)
      rw [Nat.add_assoc, Nat.add_comm 1 i] at next
      rw [next, List.getElem_cons_succ]

theorem Buffer.take_storeAll (buffer : Buffer) (bytes : List Byte) :
    (buffer.storeAll 0 bytes).take bytes.length = bytes := by
  apply List.ext_getElem (Buffer.length_take _ _)
  intro i _ inside
  have stored := buffer.storeAll_apply 0 i bytes inside
  rw [Nat.zero_add] at stored
  rw [Buffer.getElem_take, stored]

/-- Payload bytes go to receiveBuffer up to its end; each one after that counts as an error. -/
theorem respond_payload (payload : List Byte) (s : Slave) (room : s.receiveCount ≤ i2cWriteMax) :
    respond (payload.map fun value => .data (.rreq value)) s = ([], { s with
      receiveBuffer := s.receiveBuffer.storeAll s.receiveCount (payload.take (i2cWriteMax - s.receiveCount))
      receiveCount := s.receiveCount + min payload.length (i2cWriteMax - s.receiveCount)
      errorCount := s.errorCount + BitVec.ofNat 32 (payload.length - (i2cWriteMax - s.receiveCount)) }) := by
  induction payload generalizing s with
  | nil => simp [respond, Buffer.storeAll]
  | cons byte rest ih =>
    rw [List.map_cons]
    unfold respond
    simp only [Slave.busEvent, Slave.dataInterrupt, Option.toList_none, List.nil_append]
    by_cases free : s.receiveCount < i2cWriteMax
    · have stored : s.byteReceived byte = { s with
          receiveBuffer := Function.update s.receiveBuffer s.receiveCount byte
          receiveCount := s.receiveCount + 1 } := if_pos free
      have left : i2cWriteMax - s.receiveCount = i2cWriteMax - (s.receiveCount + 1) + 1 := by omega
      rw [stored, ih _ (Nat.succ_le_of_lt free), left]
      simp only [List.take_succ_cons, Buffer.storeAll, List.length_cons, Nat.add_sub_add_right,
        Nat.add_min_add_right]
      congr 2
      omega
    · have discarded : s.byteReceived byte = { s with errorCount := s.errorCount + 1 } := if_neg free
      have full : i2cWriteMax - s.receiveCount = 0 := by omega
      have later := ih { s with errorCount := s.errorCount + 1 } room
      rw [discarded, later]
      simp only [full, List.take_zero, Buffer.storeAll, Nat.min_zero, Nat.add_zero, Nat.sub_zero, List.length_cons,
        BitVec.ofNat_add]
      congr 2
      exact (BitVec.add_assoc _ _ _).trans (congrArg _ (BitVec.add_comm _ _))

/-! ## Supplied bytes -/

theorem isLoopbackRegister_iff (register : Byte) :
    isLoopbackRegister register = true ↔ 0x80 ≤ register.toNat ∧ register.toNat ≤ 0xBF := by
  unfold isLoopbackRegister i2cLoopbackRegister i2cLoopbackSize
  rw [Bool.and_eq_true, decide_eq_true_eq, decide_eq_true_eq]
  omega

/-- A status read takes its index from the low six bits of the pointer. -/
theorem registerIndex (register : Byte) (i : Nat) :
    ((register + BitVec.ofNat 8 i) &&& 63).toNat = (register.toNat + i) % 64 := by
  rw [BitVec.toNat_and, BitVec.toNat_add, BitVec.toNat_ofNat]
  have mask : (63 : BitVec 8).toNat = 2 ^ 6 - 1 := rfl
  rw [mask, Nat.and_two_pow_sub_one_eq_mod]
  omega

/-- Transmit requests change nothing but the read pointer and the capture. -/
theorem respond_treq (count : Nat) (s : Slave) : ∃ pointer bank buffer length,
    (respond (List.replicate count (.data .treq)) s).2 = { s with
      registerPointer := pointer
      transmitRegisters := bank
      transmitBuffer := buffer
      transmitLength := length } := by
  induction count generalizing s with
  | zero => exact ⟨_, _, _, _, rfl⟩
  | succ count ih =>
    rw [List.replicate_succ]
    simp only [respond, Slave.busEvent, Slave.dataInterrupt]
    obtain ⟨pointer, bank, buffer, length, after⟩ := ih s.transmitRequest.2
    rw [after]
    unfold Slave.transmitRequest
    split <;> exact ⟨_, _, _, _, rfl⟩

/-- Without a pointer every request gets a zero byte, and nothing changes. -/
theorem respond_probe (count : Nat) (s : Slave) (unaddressed : s.transmitPointerValid = false) :
    respond (List.replicate count (.data .treq)) s = (List.replicate count 0, s) := by
  induction count with
  | zero => rfl
  | succ count ih =>
    rw [List.replicate_succ, List.replicate_succ]
    simp [respond, Slave.busEvent, Slave.dataInterrupt, Slave.transmitRequest, unaddressed, ih]

/-- The value of transmit request `i`, counted from now. -/
def Slave.transmitValueAt (s : Slave) (i : Nat) : Byte :=
  let pointer := s.registerPointer + BitVec.ofNat 8 i
  if s.transmitLoopback then
    if isLoopbackRegister pointer then s.loopbackBuffer (pointer.toNat - i2cLoopbackRegister) else 0
  else s.registers s.transmitBank (pointer &&& 63).toNat

theorem Slave.transmitValueAt_zero (s : Slave) : s.transmitValueAt 0 = s.transmitValue := by
  unfold transmitValueAt transmitValue
  rw [BitVec.add_zero]

/-- The values of a read whose pointer byte is received now. -/
theorem Slave.transmitValueAt_first (s : Slave) (register : Byte) (i : Nat) :
    (s.firstByteReceived register).transmitValueAt i =
      if isLoopbackRegister register then
        if isLoopbackRegister (register + BitVec.ofNat 8 i) then
          s.loopbackBuffer ((register + BitVec.ofNat 8 i).toNat - i2cLoopbackRegister)
        else 0
      else s.registers s.activeRegisters ((register + BitVec.ofNat 8 i) &&& 63).toNat := rfl

theorem Slave.transmitValueAt_next (s : Slave) (addressed : s.transmitPointerValid = true) (i : Nat) :
    s.transmitRequest.2.transmitValueAt i = s.transmitValueAt (i + 1) := by
  have pointer : s.registerPointer + 1 + BitVec.ofNat 8 i = s.registerPointer + BitVec.ofNat 8 (i + 1) := by
    rw [BitVec.ofNat_add, BitVec.add_comm (BitVec.ofNat 8 i), BitVec.add_assoc]
    rfl
  unfold transmitRequest
  rw [if_pos addressed]
  unfold transmitValueAt
  dsimp only
  rw [pointer]
  -- a loopback read leaves transmitRegisters alone, a status read makes it the bank it used
  cases s.transmitLoopback <;> rfl

theorem respond_treq_supplied (count : Nat) (s : Slave) (addressed : s.transmitPointerValid = true) :
    (respond (List.replicate count (.data .treq)) s).1 = (List.range count).map s.transmitValueAt := by
  induction count generalizing s with
  | zero => rfl
  | succ count ih =>
    have kept : s.transmitRequest.2.transmitPointerValid = true := by
      unfold Slave.transmitRequest
      rw [if_pos addressed]
      exact addressed
    have value : s.transmitRequest.1 = s.transmitValueAt 0 := by
      unfold Slave.transmitRequest
      rw [if_pos addressed, Slave.transmitValueAt_zero]
    rw [List.replicate_succ, List.range_succ_eq_map, List.map_cons, List.map_map]
    simp only [respond, Slave.busEvent, Slave.dataInterrupt, ih _ kept, value, Option.toList_some]
    apply congrArg (s.transmitValueAt 0 :: ·)
    apply List.map_congr_left
    intro i _
    exact s.transmitValueAt_next addressed i

/-! ## Transactions -/

/-- A complete transaction of the master. -/
inductive Transaction where
  | select (register : Byte)
  | write (register : Byte) (payload : List Byte)
  | read (register : Byte) (count : Nat)
  | probe (count : Nat)
  deriving DecidableEq, Repr

def Transaction.events : Transaction → List BusEvent
  | .select register => [.data (.rreqFbr register), .stop]
  | .write register payload =>
    .data (.rreqFbr register) :: payload.map (fun value => .data (.rreq value)) ++ [.stop]
  | .read register count => .data (.rreqFbr register) :: List.replicate count (.data .treq) ++ [.stop]
  | .probe count => List.replicate count (.data .treq) ++ [.stop]

/-- An interrupt for this event alone. -/
def BusEvent.interrupt : BusEvent → Interrupt
  | .data act => ⟨some act, false⟩
  | .stop => ⟨none, true⟩

/-- A transaction with an interrupt for each event. -/
def Transaction.interrupts (transaction : Transaction) : List Interrupt := transaction.events.map BusEvent.interrupt

theorem Transaction.interrupts_events (transaction : Transaction) :
    transaction.interrupts.flatMap Interrupt.events = transaction.events := by
  unfold interrupts
  induction transaction.events with
  | nil => rfl
  | cons event rest ih =>
    have single : event.interrupt.events = [event] := by cases event <;> rfl
    rw [List.map_cons, List.flatMap_cons, single, ih, List.singleton_append]

/-- The state in which STOP finds a write. -/
def Slave.afterPayload (s : Slave) (register : Byte) (payload : List Byte) : Slave :=
  { s.firstByteReceived register with
    receiveBuffer := s.receiveBuffer.storeAll 0 (payload.take i2cWriteMax)
    receiveCount := min payload.length i2cWriteMax
    errorCount := s.errorCount + BitVec.ofNat 32 (payload.length - i2cWriteMax) }

theorem respond_beforeStop (register : Byte) (payload : List Byte) (s : Slave) :
    respond (.data (.rreqFbr register) :: payload.map fun value => .data (.rreq value)) s =
      ([], s.afterPayload register payload) := by
  have received := respond_payload payload (s.firstByteReceived register) (Nat.zero_le _)
  have count : (s.firstByteReceived register).receiveCount = 0 := rfl
  rw [count, Nat.sub_zero, Nat.zero_add] at received
  unfold respond
  dsimp only [Slave.busEvent, Slave.dataInterrupt]
  rw [received]
  rfl

theorem respond_write (register : Byte) (payload : List Byte) (s : Slave) :
    respond (Transaction.write register payload).events s =
      ([], (s.afterPayload register payload).stopInterrupt) := by
  rw [Transaction.events, respond_append, respond_beforeStop]
  rfl

/-! ## The worker's record -/

theorem Slave.recordHandled_of_idle {s : Slave} (idle : s.pendingDirection ≠ .write ∨ s.pendingCount = 0) :
    s.recordHandled = s := by
  unfold recordHandled isClearCommand
  rcases idle with direction | empty
  · simp [direction]
  · simp [empty]

theorem Slave.recordHandled_kept (s : Slave) : s.recordHandled.currentRole = s.currentRole ∧
    s.recordHandled.firmwareVersionCode = s.firmwareVersionCode ∧ s.recordHandled.receiveCount = s.receiveCount ∧
    s.recordHandled.transmitPointerValid = s.transmitPointerValid := by
  unfold recordHandled
  split
  · exact ⟨rfl, rfl, rfl, rfl⟩
  · split <;> exact ⟨rfl, rfl, rfl, rfl⟩

end Cc1310Firmware.I2cSlave
