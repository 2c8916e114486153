import Cc1310Firmware.I2cSlave.LoopbackWindow
import Cc1310Firmware.I2cSlave.Handover

/-! The record that STOP puts into the free slot, after any sequence of
payload bytes and transmit requests that follows a pointer byte, with the
worker free to run in between.

The pointer is also the cursor of the requests, so a write is filed and
committed where the cursor is at STOP. A read is filed under its first
register, but each offset of the capture keeps the byte of the last request.
-/

set_option autoImplicit false

namespace Cc1310Firmware.I2cSlave
open LabelledRun

/-- The payload bytes among these. -/
def payloadOf (acts : List SlaveAct) : List Byte :=
  acts.filterMap fun
    | .rreq value => some value
    | .none | .treq | .rreqFbr _ => none

def transmitRequests (acts : List SlaveAct) : Nat := acts.count .treq

/-- `history` is a transaction at `register`: the pointer byte, these statuses, and as its
last transition the interrupt with the STOP, which finds the slot free. -/
structure Completes (st : System) (register : Byte) (acts : List SlaveAct) (history : List SystemTransition)
    (t : System) :
    Prop where
  run : Run SystemStep st history t
  events : busEvents history = .data (.rreqFbr register) :: acts.map .data ++ [.stop]
  onePointer : ∀ value, .rreqFbr value ∉ acts
  last : ∃ before x, history = before ++ [x] ∧ .stop ∈ x.event.input.busEvents
  slot : SlotFreeAtStop history

/-- The payload is filed, and committed to the window if at all, under its own pointer. -/
structure StaysWithPointer (register : Byte) (payload : List Byte) (before after : Slave) : Prop where
  filed : ∀ r, after.slot.record = some r → r.register = register
  write : payload ≠ [] → after.slot.record = some ⟨.write, register, payload.take 64⟩
  committed : after.loopbackBuffer = before.loopbackBuffer ∨
    FitsWindow register (payload.take 64).length ∧
      after.loopbackBuffer = overlay before.loopbackBuffer register (payload.take 64)

/-- The slaves that the transmit requests find. -/
def requestStates (history : List SystemTransition) : List Slave :=
  history.filterMap fun x =>
    match x.event.input with
    | .interrupt ⟨some .treq, _⟩ => some x.before.slave
    | _ => none

/-- The register that is `i` after `register`, as a read at `register` sees it. -/
def Slave.registerAt (s : Slave) (register : Byte) (i : Nat) : Byte :=
  if isLoopbackRegister register then
    if isLoopbackRegister (register + BitVec.ofNat 8 i) then
      s.loopbackBuffer ((register + BitVec.ofNat 8 i).toNat - i2cLoopbackRegister)
    else 0
  else s.registers s.transmitRegisterSnapshot ((register.toNat + i) % 64)

/-- The last of `count` requests that has the offset of request `i`. -/
def lastAt (count i : Nat) : Nat := i + 64 * ((count - 1 - i) / 64)

/-- Each register that one of the first 64 requests reads holds what the register that the last
request with the same offset reads holds at that time. -/
def RepeatsAgree (register : Byte) (count : Nat) (states : List Slave) : Prop :=
  ∀ i < min count 64, ∀ s s', states[i]? = some s → states[lastAt count i]? = some s' →
    s'.registerAt register (lastAt count i) = s.registerAt register i

/-! ## The handler's side before STOP -/

/-- The handler's variables after the pointer byte and `acts`, during which it supplied `bytes`. -/
structure Capturing (register : Byte) (window : Buffer) (acts : List SlaveAct) (bytes : List Byte)
    (side : BusSide) :
    Prop where
  pointer : side.registerPointer = register + BitVec.ofNat 8 (transmitRequests acts)
  first : side.transmitStartRegister = register
  valid : side.transmitPointerValid = true
  loopback : side.transmitLoopback = isLoopbackRegister register
  window : side.loopbackBuffer = window
  count : side.receiveCount = min (payloadOf acts).length 64
  received : side.receiveBuffer.take side.receiveCount = (payloadOf acts).take 64
  supplied : bytes.length = transmitRequests acts
  length : side.transmitLength = min (transmitRequests acts) 64
  captured : ∀ i < min (transmitRequests acts) 64,
    bytes[lastAt (transmitRequests acts) i]? = some (side.transmitBuffer i)

theorem lastAt_lt {count i : Nat} (inside : i < min count 64) : lastAt count i < count := by
  unfold lastAt
  omega

theorem lastAt_new (count : Nat) : lastAt (count + 1) (count % 64) = count := by
  unfold lastAt
  omega

theorem lastAt_old {count i : Nat} (inside : i < min (count + 1) 64) (other : i ≠ count % 64) :
    i < min count 64 ∧ lastAt (count + 1) i = lastAt count i := by
  unfold lastAt
  omega

theorem lastAt_of_short {count i : Nat} (short : count ≤ 64) (inside : i < count) : lastAt count i = i := by
  unfold lastAt
  omega

theorem payloadOf_byte (acts : List SlaveAct) (value : Byte) : payloadOf (acts ++ [.rreq value]) = payloadOf acts ++
    [value] := by
  unfold payloadOf
  rw [List.filterMap_append]
  rfl

theorem payloadOf_other (acts : List SlaveAct) {act : SlaveAct} (other : ∀ value, act ≠ .rreq value) :
    payloadOf (acts ++ [act]) = payloadOf acts := by
  unfold payloadOf
  cases act with
  | rreq value => exact absurd rfl (other value)
  | none | treq | rreqFbr => rw [List.filterMap_append]; exact List.append_nil _

theorem transmitRequests_treq (acts : List SlaveAct) :
    transmitRequests (acts ++ [.treq]) = transmitRequests acts + 1 := by
  unfold transmitRequests
  rw [List.count_append, List.count_singleton_self]

theorem transmitRequests_other (acts : List SlaveAct) {act : SlaveAct} (other : act ≠ .treq) :
    transmitRequests (acts ++ [act]) = transmitRequests acts := by
  unfold transmitRequests
  rw [List.count_append, List.count_singleton, beq_eq_false_iff_ne.mpr other]
  rfl

theorem Buffer.take_eq_iff {buffer : Buffer} {bytes : List Byte} {count : Nat} (length : bytes.length = count) :
    buffer.take count = bytes ↔ ∀ i < count, bytes[i]? = some (buffer i) := by
  constructor
  · intro held i inside
    have inside' : i < bytes.length := length ▸ inside
    rw [List.getElem?_eq_getElem inside', Buffer.getElem_of_take held inside']
  · intro held
    apply List.ext_getElem ((Buffer.length_take _ _).trans length.symm)
    intro i _ inside
    have byte := held i (length ▸ inside)
    rw [List.getElem?_eq_getElem inside] at byte
    rw [Buffer.getElem_take]
    exact (Option.some.inj byte).symm

theorem Buffer.take_update (buffer : Buffer) (count : Nat) (value : Byte) :
    Buffer.take (Function.update buffer count value) (count + 1) = buffer.take count ++ [value] := by
  have earlier : Buffer.take (Function.update buffer count value) count = buffer.take count :=
    Buffer.take_congr fun i inside => Function.update_of_ne (Nat.ne_of_lt inside) _ _
  rw [← earlier]
  unfold Buffer.take
  rw [List.range_succ, List.map_append, List.map_singleton, Function.update_self]

section
variable {register : Byte} {window : Buffer} {acts : List SlaveAct} {bytes : List Byte} {s : Slave}

theorem Capturing.start (s : Slave) :
    Capturing register s.loopbackBuffer [] [] (s.firstByteReceived register).busSide where
  pointer := (BitVec.add_zero register).symm
  first := rfl
  valid := rfl
  loopback := rfl
  window := rfl
  count := rfl
  received := rfl
  supplied := rfl
  length := rfl
  captured := fun i inside => absurd (Nat.lt_of_lt_of_le inside (Nat.min_le_left 0 64)) (Nat.not_lt_zero i)

/-- The offset of the next request in the capture. -/
theorem Capturing.offset (capturing : Capturing register window acts bytes s.busSide) :
    s.transmitOffset = transmitRequests acts % 64 := by
  have pointer : s.registerPointer = register + BitVec.ofNat 8 (transmitRequests acts) := capturing.pointer
  have first : s.transmitStartRegister = register := capturing.first
  have distance : register + BitVec.ofNat 8 (transmitRequests acts) - register = 0 + BitVec.ofNat 8
    (transmitRequests acts) := by
    rw [BitVec.add_comm, BitVec.add_sub_cancel]
    exact (BitVec.zero_add _).symm
  unfold Slave.transmitOffset
  rw [pointer, first, distance, registerIndex]
  exact congrArg (· % 64) (Nat.zero_add _)

/-- A request: its byte goes to the capture, at the offset modulo 64. -/
theorem Capturing.request (capturing : Capturing register window acts bytes s.busSide) :
    Capturing register window (acts ++ [.treq]) (bytes ++ [s.transmitRequest.1]) s.transmitRequest.2.busSide := by
  have valid : s.transmitPointerValid = true := capturing.valid
  have pointer : s.registerPointer = register + BitVec.ofNat 8 (transmitRequests acts) := capturing.pointer
  have length : s.transmitLength = min (transmitRequests acts) 64 := capturing.length
  have requests : transmitRequests (acts ++ [.treq]) = transmitRequests acts + 1 := transmitRequests_treq acts
  have payload : payloadOf (acts ++ [.treq]) = payloadOf acts :=
    payloadOf_other acts fun value same => by cases same
  unfold Slave.transmitRequest
  rw [if_pos valid]
  refine ⟨?_, capturing.first, capturing.valid, capturing.loopback, capturing.window, payload ▸ capturing.count,
    payload ▸ capturing.received, ?_, ?_, ?_⟩
  · show s.registerPointer + 1 = _
    rw [pointer, requests, BitVec.ofNat_add, BitVec.add_assoc]
    rfl
  · rw [List.length_append, capturing.supplied, requests]
    rfl
  · show (if s.transmitLength ≤ s.transmitOffset then s.transmitOffset + 1 else s.transmitLength) = _
    rw [capturing.offset, length, requests]
    split <;> omega
  · rw [requests]
    show ∀ i < _, _ = some (Function.update s.transmitBuffer s.transmitOffset s.transmitValue i)
    intro i inside
    rw [capturing.offset]
    by_cases new : i = transmitRequests acts % 64
    · rw [new, lastAt_new, Function.update_self, ← capturing.supplied, List.getElem?_concat_length]
    · obtain ⟨earlier, last⟩ := lastAt_old inside new
      have before : lastAt (transmitRequests acts) i < bytes.length := by
        rw [capturing.supplied]
        exact lastAt_lt earlier
      rw [last, Function.update_of_ne new, List.getElem?_append_left before]
      exact capturing.captured i earlier

/-- A payload byte: the cursor and the capture stay. -/
theorem Capturing.byte (capturing : Capturing register window acts bytes s.busSide) (value : Byte) :
    Capturing register window (acts ++ [.rreq value]) bytes (s.byteReceived value).busSide := by
  have count : s.receiveCount = min (payloadOf acts).length 64 := capturing.count
  have received : s.receiveBuffer.take s.receiveCount = (payloadOf acts).take 64 := capturing.received
  have requests : transmitRequests (acts ++ [.rreq value]) = transmitRequests acts :=
    transmitRequests_other acts (by simp)
  have payload := payloadOf_byte acts value
  -- at most 64 bytes are buffered, the others only counted
  have buffered : (s.byteReceived value).receiveCount = min (payloadOf (acts ++ [.rreq value])).length 64 ∧
      (s.byteReceived value).receiveBuffer.take (s.byteReceived value).receiveCount =
        (payloadOf (acts ++ [.rreq value])).take 64 ∧
      ∃ count buffer errors, s.byteReceived value =
        { s with receiveCount := count, receiveBuffer := buffer, errorCount := errors } := by
    rw [payload, List.length_append, List.length_singleton]
    unfold Slave.byteReceived i2cWriteMax i2cRegisterCount
    split
    case isTrue free =>
      have short : (payloadOf acts).length < 64 := by omega
      refine ⟨by dsimp only; omega, ?_, _, _, _, rfl⟩
      dsimp only
      rw [Buffer.take_update, received, List.take_of_length_le (Nat.le_of_lt short), List.take_of_length_le]
      rw [List.length_append]
      exact short
    case isFalse full =>
      have long : 64 ≤ (payloadOf acts).length := by omega
      refine ⟨by dsimp only; omega, ?_, _, _, _, rfl⟩
      dsimp only
      rw [received, List.take_append_of_le_length long]
  obtain ⟨count', received', _, _, _, after⟩ := buffered
  rw [after] at count' received' ⊢
  exact ⟨requests ▸ capturing.pointer, capturing.first, capturing.valid, capturing.loopback, capturing.window,
    count', received', requests ▸ capturing.supplied, requests ▸ capturing.length, requests ▸ capturing.captured⟩

theorem Capturing.next (capturing : Capturing register window acts bytes s.busSide) (act : SlaveAct)
    (other : ∀ value, act ≠ .rreqFbr value) :
    Capturing register window (acts ++ [act]) (bytes ++ (s.dataInterrupt act).1.toList)
      (s.dataInterrupt act).2.busSide := by
  cases act with
  | treq => exact capturing.request
  | rreqFbr value => exact absurd rfl (other value)
  | rreq value =>
    rw [Slave.dataInterrupt, Option.toList_none, List.append_nil]
    exact capturing.byte value
  | none =>
    rw [Slave.dataInterrupt, Option.toList_none, List.append_nil]
    have requests : transmitRequests (acts ++ [.none]) = transmitRequests acts :=
      transmitRequests_other acts (by simp)
    have payload : payloadOf (acts ++ [.none]) = payloadOf acts :=
      payloadOf_other acts fun value same => by cases same
    exact ⟨requests ▸ capturing.pointer, capturing.first, capturing.valid, capturing.loopback, capturing.window,
      payload ▸ capturing.count, payload ▸ capturing.received, requests ▸ capturing.supplied,
      requests ▸ capturing.length, requests ▸ capturing.captured⟩

end

/-- The last event of a transaction before STOP: the pointer byte, or one more status. -/
theorem last_of_transaction {events : List BusEvent} {e : BusEvent} {register : Byte} {acts : List SlaveAct}
    (whole : events ++ [e] = .data (.rreqFbr register) :: acts.map .data) :
    (events = [] ∧ acts = [] ∧ e = .data (.rreqFbr register)) ∨
    ∃ acts' act, acts = acts' ++ [act] ∧ events = .data (.rreqFbr register) :: acts'.map .data ∧ e = .data act := by
  induction acts using List.reverseRecOn with
  | nil =>
    obtain ⟨rfl, last⟩ := List.append_inj' (whole.trans (List.nil_append _).symm) rfl
    exact .inl ⟨rfl, rfl, List.singleton_inj.mp last⟩
  | append_singleton acts act _ =>
    rw [List.map_append, ← List.cons_append] at whole
    obtain ⟨rfl, last⟩ := List.append_inj' whole rfl
    exact .inr ⟨acts, act, rfl, rfl, List.singleton_inj.mp last⟩

/-- A run through the pointer byte and any events after it but STOP. -/
theorem capturing_run {start final : System} {history : List SystemTransition} {register : Byte}
    {acts : List SlaveAct} (run : Run SystemStep start history final)
    (events : busEvents history = .data (.rreqFbr register) :: acts.map .data)
    (onePointer : ∀ value, .rreqFbr value ∉ acts) :
    Capturing register start.slave.loopbackBuffer acts (suppliedBytes history) final.slave.busSide := by
  refine (@bus_induction _ _ _ (fun events bytes s =>
    (events = [] → bytes = [] ∧ s.busSide.loopbackBuffer = start.slave.loopbackBuffer) ∧
    ∀ acts, events = .data (.rreqFbr register) :: acts.map .data → (∀ value, .rreqFbr value ∉ acts) →
      Capturing register start.slave.loopbackBuffer acts bytes s.busSide) ?_ ?_ ?_ run).2 acts events onePointer
  · exact ⟨fun _ => ⟨rfl, rfl⟩, fun acts none_ => by cases none_⟩
  · rintro events bytes s e ⟨empty, ih⟩
    refine ⟨fun none_ => absurd none_ (by simp), ?_⟩
    intro acts whole onePointer
    rcases last_of_transaction whole with ⟨rfl, rfl, rfl⟩ | ⟨acts, act, rfl, rfl, rfl⟩
    · obtain ⟨rfl, window⟩ := empty rfl
      rw [← window]
      exact Capturing.start s
    · have others : ∀ value, .rreqFbr value ∉ acts := fun value member =>
        onePointer value (List.mem_append_left _ member)
      exact (ih acts rfl others).next act fun value same => onePointer value (by simp [same])
  · rintro events bytes s s' ⟨empty, ih⟩ side
    rw [side]
    exact ⟨empty, ih⟩

/-! ## STOP -/

/-- An interrupt for each status of a transaction, and one for its STOP. -/
def transactionInputs (register : Byte) (acts : List SlaveAct) : List Input :=
  (.rreqFbr register :: acts).map (fun act => .interrupt ⟨some act, false⟩) ++ [.interrupt ⟨none, true⟩]

theorem transactionInputs_complete {st : System} {register : Byte} {acts : List SlaveAct}
    (onePointer : ∀ value, .rreqFbr value ∉ acts)
    (slot : SlotFreeAtStop (System.history (transactionInputs register acts) st)) :
    Completes st register acts (System.history (transactionInputs register acts) st)
      (System.final (transactionInputs register acts) st) := by
  refine ⟨System.run_history _ _, ?_, onePointer, ?_, slot⟩
  · rw [System.busEvents_history]
    unfold transactionInputs
    rw [List.flatMap_append, List.flatMap_map]
    congr 1
    exact List.map_eq_flatMap.symm
  · unfold transactionInputs
    rw [System.history_append]
    exact ⟨_, _, rfl, List.mem_singleton.mpr rfl⟩

section
variable {st t : System} {register : Byte} {acts : List SlaveAct} {history : List SystemTransition}

theorem dumpEnabled_stopInterrupt (s : Slave) : s.stopInterrupt.dumpEnabled = s.dumpEnabled := by
  by_cases payload : s.receiveCount = 0
  · rw [stop_empty payload]
    split
    · split <;> rfl
    · rfl
  · rw [stop_with_payload payload]
    split <;> rfl

theorem requestStates_append (first second : List SystemTransition) :
    requestStates (first ++ second) = requestStates first ++ requestStates second := List.filterMap_append

/-- The slave just before STOP, in a run that serves the same requests. -/
theorem Completes.stopped (completes : Completes st register acts history t) : ∃ history' stopped,
    Run SystemStep st history' stopped ∧ busEvents history' = .data (.rreqFbr register) :: acts.map .data ∧
    suppliedBytes history' = suppliedBytes history ∧ requestStates history' = requestStates history ∧
    t.slave = stopped.slave.stopInterrupt ∧ stopped.slave.pendingCount = 0 ∧
    stopped.slave.dumpEnabled = t.slave.dumpEnabled := by
  obtain ⟨before, ⟨s, event, s'⟩, rfl, stops⟩ := completes.last
  obtain ⟨left, step, right⟩ := completes.run.split
  obtain rfl := right.final_of_nil
  cases step with
  | worker | ipcDump => cases stops
  | interrupt s w flags =>
    have free : s.pendingCount = 0 := completes.slot _ (by simp) stops
    obtain ⟨data, stop⟩ := flags
    cases stop with
    | false =>
      rw [Input.busEvents, Interrupt.events] at stops
      simp at stops
    | true =>
      -- the same interrupt without its STOP
      refine ⟨_, _, left.next (.interrupt s w ⟨data, false⟩), ?_, ?_, ?_, ?_, ?_, ?_⟩
      · have whole := completes.events
        have events : (⟨data, true⟩ : Interrupt).events = (⟨data, false⟩ : Interrupt).events ++ [.stop] := by
          simp [Interrupt.events]
        rw [busEvents_append, busEvents_single] at whole ⊢
        dsimp only [Input.busEvents] at whole ⊢
        rw [events, ← List.append_assoc] at whole
        exact List.append_cancel_right whole
      · rw [suppliedBytes_append, suppliedBytes_append, suppliedBytes_single, suppliedBytes_single]
        cases data <;> rfl
      · rw [requestStates_append, requestStates_append]
        cases data with
        | none => rfl
        | some act => cases act <;> rfl
      · cases data <;> rfl
      · cases data with
        | none => exact free
        | some act => exact (pendingCount_dataInterrupt s act).trans free
      · cases data <;> exact (dumpEnabled_stopInterrupt _).symm

/-- A payload is filed where the cursor is at STOP. -/
theorem Completes.write (completes : Completes st register acts history t) (payload : payloadOf acts ≠ []) :
    t.slave.slot.record =
      some ⟨.write, register + BitVec.ofNat 8 (transmitRequests acts), (payloadOf acts).take 64⟩ ∧
    t.slave.loopbackBuffer =
      if FitsWindow (register + BitVec.ofNat 8 (transmitRequests acts)) ((payloadOf acts).take 64).length then
        overlay st.slave.loopbackBuffer (register + BitVec.ofNat 8 (transmitRequests acts)) ((payloadOf acts).take 64)
      else st.slave.loopbackBuffer := by
  obtain ⟨history', stopped, run, events, _, _, after, free, _⟩ := completes.stopped
  have capturing := capturing_run run events completes.onePointer
  have pointer : stopped.slave.registerPointer = _ := capturing.pointer
  have window : stopped.slave.loopbackBuffer = _ := capturing.window
  have received : stopped.slave.receiveBuffer.take stopped.slave.receiveCount = _ := capturing.received
  have count : stopped.slave.receiveCount = ((payloadOf acts).take 64).length := by
    rw [List.length_take, Nat.min_comm]
    exact capturing.count
  have some_ : (payloadOf acts).take 64 ≠ [] := by simpa using payload
  have nonzero : stopped.slave.receiveCount ≠ 0 := by
    rw [count]
    exact mt List.length_eq_zero_iff.mp some_
  rw [after, stop_with_payload nonzero, if_pos free]
  constructor
  · have full : stopped.slave.placeWrite.resetTransmit.slot.count ≠ 0 := nonzero
    have bytes : stopped.slave.placeWrite.resetTransmit.slot.buffer.take stopped.slave.receiveCount =
        (payloadOf acts).take 64 := (Buffer.take_copyBytes _ _ _).trans received
    rw [Slot.record_of_full full, ← bytes, ← pointer]
    rfl
  · have committed := committed_of_received some_ count (by rw [← count]; exact received)
    rw [pointer, window] at committed
    exact committed

/-- Without a payload the window stays, and a record is that of a read: at each offset the byte
that the last request with the offset got. -/
theorem Completes.noWrite (completes : Completes st register acts history t) (payload : payloadOf acts = []) :
    t.slave.loopbackBuffer = st.slave.loopbackBuffer ∧ ∃ captured : Buffer,
    t.slave.slot.record = (if t.slave.dumpEnabled ∧ transmitRequests acts ≠ 0 then
      some ⟨.read, register, captured.take (min (transmitRequests acts) 64)⟩ else none) ∧
    ∀ i < min (transmitRequests acts) 64, (suppliedBytes history)[lastAt (transmitRequests acts) i]? = some
      (captured i) := by
  obtain ⟨history', stopped, run, events, bytes, _, after, free, dump⟩ := completes.stopped
  have capturing := capturing_run run events completes.onePointer
  have valid : stopped.slave.transmitPointerValid = true := capturing.valid
  have first : stopped.slave.transmitStartRegister = register := capturing.first
  have length : stopped.slave.transmitLength = min (transmitRequests acts) 64 := capturing.length
  have window : stopped.slave.loopbackBuffer = _ := capturing.window
  have empty : stopped.slave.receiveCount = 0 := by
    have count : stopped.slave.receiveCount = min (payloadOf acts).length 64 := capturing.count
    rw [count, payload]
    rfl
  have dumps : stopped.slave.dumpsRead = true ↔ t.slave.dumpEnabled = true ∧ transmitRequests acts ≠ 0 := by
    unfold Slave.dumpsRead
    rw [valid, length, ← dump, Bool.true_and, Bool.and_eq_true, bne_iff_ne, and_comm]
    apply and_congr_right
    intro _
    omega
  have stop := stop_empty empty
  rw [if_pos free] at stop
  rw [← bytes]
  by_cases dumped : stopped.slave.dumpsRead = true
  · rw [if_pos dumped] at stop
    have full : stopped.slave.placeRead.resetTransmit.slot.count ≠ 0 := by
      have requested := (dumps.mp dumped).2
      show stopped.slave.transmitLength ≠ 0
      rw [length]
      omega
    have copied : stopped.slave.placeRead.resetTransmit.slot.buffer.take stopped.slave.transmitLength =
        stopped.slave.transmitBuffer.take stopped.slave.transmitLength := Buffer.take_copyBytes _ _ _
    rw [after, stop]
    refine ⟨window, stopped.slave.transmitBuffer, ?_, capturing.captured⟩
    rw [if_pos (by rw [← stop, ← after]; exact dumps.mp dumped), Slot.record_of_full full, ← length, ← first,
      ← copied]
    rfl
  · rw [if_neg dumped] at stop
    rw [after, stop]
    refine ⟨window, stopped.slave.transmitBuffer, ?_, capturing.captured⟩
    rw [if_neg (by rw [← stop, ← after]; exact mt dumps.mpr dumped)]
    exact Slot.record_of_empty free

/-- A payload stays with its own pointer exactly when the cursor is back at it at STOP: the
requests since the pointer byte are a multiple of 256. -/
theorem payload_stays_iff (completes : Completes st register acts history t) :
    StaysWithPointer register (payloadOf acts) st.slave t.slave ↔ payloadOf acts = [] ∨
      256 ∣ transmitRequests acts := by
  by_cases payload : payloadOf acts = []
  · obtain ⟨window, captured, record, _⟩ := completes.noWrite payload
    refine iff_of_true ⟨?_, fun some_ => absurd payload some_, .inl window⟩ (.inl payload)
    intro r filed
    rw [record] at filed
    split at filed
    · cases filed
      rfl
    · cases filed
  · obtain ⟨record, window⟩ := completes.write payload
    constructor
    · intro stays
      right
      have cursor : register + BitVec.ofNat 8 (transmitRequests acts) = register := stays.filed _ record
      have wraps : BitVec.ofNat 8 (transmitRequests acts) = 0#8 := by simpa using cursor
      have value := congrArg BitVec.toNat wraps
      rw [BitVec.toNat_ofNat] at value
      exact Nat.dvd_of_mod_eq_zero value
    · intro wraps
      have cursor : register + BitVec.ofNat 8 (transmitRequests acts) = register := by
        have value : BitVec.ofNat 8 (transmitRequests acts) = 0#8 := by
          apply BitVec.eq_of_toNat_eq
          rw [BitVec.toNat_ofNat]
          exact Nat.mod_eq_zero_of_dvd (wraps.resolve_left payload)
        rw [value, BitVec.add_zero]
      rw [cursor] at record window
      refine ⟨?_, fun _ => record, ?_⟩
      · intro r filed
        rw [record] at filed
        cases filed
        rfl
      · rw [window]
        split
        case isTrue fits => exact .inr ⟨fits, rfl⟩
        case isFalse => exact .inl rfl

end

/-- Two bytes at 0x80 and no request. -/
theorem payload_stays_iff_window : StaysWithPointer 0x80 [0x01, 0x02] freshSystem.slave
    (System.final (transactionInputs 0x80 [.rreq 0x01, .rreq 0x02]) freshSystem).slave := by
  have slot : SlotFreeAtStop (System.history (transactionInputs 0x80 [.rreq 0x01, .rreq 0x02]) freshSystem) := by
    unfold SlotFreeAtStop
    decide +kernel
  exact (payload_stays_iff (transactionInputs_complete (by simp) slot)).mpr (.inr (by decide))

/-- The same with one request before STOP: filed and committed at 0x81. -/
theorem payload_moved : ∃ history t, Completes freshSystem 0x80 [.rreq 0x01, .rreq 0x02, .treq] history t ∧
    t.slave.slot.record = some ⟨.write, 0x81, [0x01, 0x02]⟩ ∧ t.slave.loopbackBuffer 0 = 0 ∧
    t.slave.loopbackBuffer 1 = 0x01 ∧ ¬ StaysWithPointer 0x80 [0x01, 0x02] freshSystem.slave t.slave := by
  have slot : SlotFreeAtStop (System.history (transactionInputs 0x80 [.rreq 0x01, .rreq 0x02, .treq]) freshSystem) := by
    unfold SlotFreeAtStop
    decide +kernel
  have record : (System.final (transactionInputs 0x80 [.rreq 0x01, .rreq 0x02, .treq]) freshSystem).slave.slot.record =
      some ⟨.write, 0x81, [0x01, 0x02]⟩ := by decide +kernel
  refine ⟨_, _, transactionInputs_complete (by simp) slot, record, by decide +kernel, by decide +kernel, ?_⟩
  intro stays
  exact absurd (stays.filed _ record) (by decide)

/-! ## Read captures -/

section
variable {st final t : System} {register : Byte} {count : Nat} {history : List SystemTransition}

theorem payloadOf_read (count : Nat) : payloadOf (List.replicate count .treq) = [] := by
  unfold payloadOf
  rw [List.filterMap_eq_nil_iff]
  intro act member
  rw [List.eq_of_mem_replicate member]

theorem transmitRequests_read (count : Nat) : transmitRequests (List.replicate count .treq) = count :=
    List.count_replicate_self

theorem onePointer_read (count : Nat) : ∀ value, SlaveAct.rreqFbr value ∉ List.replicate count SlaveAct.treq := by
  intro value member
  cases List.eq_of_mem_replicate member

/-- A request within a read gets the register that is as far after its first. -/
theorem Capturing.value {window : Buffer} {acts : List SlaveAct} {bytes : List Byte} {s : Slave}
    (capturing : Capturing register window acts bytes s.busSide)
    (bank : s.transmitBank = s.transmitRegisterSnapshot) :
    s.transmitRequest.1 = s.registerAt register (transmitRequests acts) := by
  have valid : s.transmitPointerValid = true := capturing.valid
  have pointer : s.registerPointer = register + BitVec.ofNat 8 (transmitRequests acts) := capturing.pointer
  have loopback : s.transmitLoopback = isLoopbackRegister register := capturing.loopback
  unfold Slave.transmitRequest Slave.transmitValue Slave.registerAt
  rw [if_pos valid, loopback, pointer, bank, registerIndex]

/-- The bank of a read is its snapshot, however often the worker forgets it. -/
theorem transmitBank_worker {s : Slave} (bank : s.transmitBank = s.transmitRegisterSnapshot) (ticks : Word)
    (w : Worker) :
    (workerStatement ticks w s).2.2.transmitBank = (workerStatement ticks w s).2.2.transmitRegisterSnapshot := by
  have snapshot : (workerStatement ticks w s).2.2.transmitRegisterSnapshot = s.transmitRegisterSnapshot :=
    congrArg BusSide.transmitRegisterSnapshot (workerStatement_busSide ticks w s)
  unfold Slave.transmitBank at bank ⊢
  rcases workerStatement_transmitRegisters ticks w s with forgotten | same
  · rw [forgotten]
    rfl
  · rw [same, snapshot, bank]

theorem transmitBank_request {s : Slave} (bank : s.transmitBank = s.transmitRegisterSnapshot) :
    s.transmitRequest.2.transmitBank = s.transmitRequest.2.transmitRegisterSnapshot := by
  unfold Slave.transmitRequest
  split
  · show (if s.transmitLoopback then s.transmitRegisters else some s.transmitBank).getD s.transmitRegisterSnapshot = _
    split
    · exact bank
    · exact bank
  · exact bank

/-- What a read has supplied so far is what its registers held when they were requested. -/
structure Supplied (register : Byte) (history : List SystemTransition) (count : Nat) (s : Slave) : Prop where
  bank : s.transmitBank = s.transmitRegisterSnapshot
  states : (requestStates history).length = count
  bytes : suppliedBytes history = (requestStates history).mapIdx fun i s => s.registerAt register i

theorem supplied_request {s : Slave} {w : Worker} (run : Run SystemStep st history ⟨s, w⟩)
    (read : busEvents history = .data (.rreqFbr register) :: (List.replicate count .treq).map .data)
    (supplied : Supplied register history count s) :
    Supplied register (history ++ [⟨⟨s, w⟩, ⟨.interrupt ⟨some .treq, false⟩, some s.transmitRequest.1, none⟩,
      ⟨s.transmitRequest.2, w⟩⟩]) (count + 1) s.transmitRequest.2 := by
  have value := (capturing_run run read (onePointer_read count)).value supplied.bank
  rw [transmitRequests_read] at value
  refine ⟨transmitBank_request supplied.bank, ?_, ?_⟩
  · rw [requestStates_append, List.length_append, supplied.states]
    rfl
  · rw [requestStates_append, suppliedBytes_append, suppliedBytes_single, supplied.bytes, value]
    show _ = ((requestStates history) ++ [s]).mapIdx fun i s => s.registerAt register i
    rw [List.mapIdx_concat, supplied.states]
    rfl

/-- A run that has come as far as the pointer byte of a read or into its requests. -/
structure ReadRun (register : Byte) (history : List SystemTransition) (s : Slave) : Prop where
  unaddressed : busEvents history = [] → requestStates history = [] ∧ suppliedBytes history = []
  supplied : ∀ count, busEvents history = .data (.rreqFbr register) :: (List.replicate count .treq).map .data →
    Supplied register history count s

theorem ReadRun.silent {x : SystemTransition} {s : Slave} (reads : ReadRun register history s)
    (quiet : x.event.input.busEvents = []) (unrequested : requestStates [x] = [])
    (nothing : x.event.supplied = none) (bank : s.transmitBank = s.transmitRegisterSnapshot →
      x.after.slave.transmitBank = x.after.slave.transmitRegisterSnapshot) :
    ReadRun register (history ++ [x]) x.after.slave := by
  have events : busEvents (history ++ [x]) = busEvents history := by
    rw [busEvents_append, busEvents_single, quiet, List.append_nil]
  have states : requestStates (history ++ [x]) = requestStates history := by
    rw [requestStates_append, unrequested, List.append_nil]
  have bytes : suppliedBytes (history ++ [x]) = suppliedBytes history := by
    rw [suppliedBytes_append, suppliedBytes_single, nothing, Option.toList_none, List.append_nil]
  constructor
  · rw [events, states, bytes]
    exact reads.unaddressed
  · intro count whole
    rw [events] at whole
    have supplied := reads.supplied count whole
    exact ⟨bank supplied.bank, by rw [states]; exact supplied.states, by rw [states, bytes]; exact supplied.bytes⟩

theorem ReadRun.data {s : Slave} {w : Worker} (reads : ReadRun register history s)
    (run : Run SystemStep st history ⟨s, w⟩) (act : SlaveAct) : ReadRun register
      (history ++ [⟨⟨s, w⟩, ⟨.interrupt ⟨some act, false⟩, (s.dataInterrupt act).1, none⟩,
        ⟨(s.dataInterrupt act).2, w⟩⟩])
      (s.dataInterrupt act).2 := by
  constructor
  · intro none_
    rw [busEvents_append, busEvents_single] at none_
    exact absurd none_ (by simp [Input.busEvents, Interrupt.events])
  · intro count whole
    rw [busEvents_append, busEvents_single] at whole
    rcases last_of_transaction whole with ⟨none_, acts, same⟩ | ⟨acts, last, whole, events, same⟩
    · cases same
      obtain ⟨states, bytes⟩ := reads.unaddressed none_
      have zero : count = 0 := by simpa using congrArg List.length acts
      rw [zero]
      exact ⟨rfl, by rw [requestStates_append, states]; rfl, by
        rw [requestStates_append, suppliedBytes_append, states, bytes]; rfl⟩
    · cases same
      obtain ⟨earlier, rfl⟩ : ∃ earlier, count = earlier + 1 :=
        ⟨acts.length, by simpa using congrArg List.length whole⟩
      rw [List.replicate_succ'] at whole
      obtain ⟨rfl, last⟩ := List.append_inj' whole.symm rfl
      cases List.singleton_inj.mp last
      exact supplied_request run events (reads.supplied _ events)

theorem reading_run (run : Run SystemStep st history final) : ReadRun register history final.slave := by
  induction run with
  | nil => exact ⟨fun _ => ⟨rfl, rfl⟩, fun count none_ => by cases none_⟩
  | @next history st st' e run step ih =>
    cases step with
    | worker s w ticks => exact ih.silent rfl rfl rfl fun bank => transmitBank_worker bank ticks w
    | ipcDump s w on => exact ih.silent rfl rfl rfl id
    | interrupt s w flags =>
      obtain ⟨data, stop⟩ := flags
      cases stop with
      | true =>
        constructor
        · intro none_
          rw [busEvents_append, busEvents_single] at none_
          exact absurd none_ (by simp [Input.busEvents, Interrupt.events])
        · intro count whole
          have member : BusEvent.stop ∈ .data (.rreqFbr register) :: (List.replicate count .treq).map .data := by
            rw [← whole, busEvents_append, busEvents_single]
            simp [Input.busEvents, Interrupt.events]
          simp at member
      | false =>
        cases data with
        | none => exact ih.silent rfl rfl rfl id
        | some act => exact ih.data run act

/-- A dumped read is filed with the bytes supplied, the first 64 of them, exactly when the
requests of one offset agree. -/
theorem read_capture_iff (completes : Completes st register (List.replicate count .treq) history t)
    (some_ : 0 < count) (dump : t.slave.dumpEnabled = true) :
    t.slave.slot.record = some ⟨.read, register, (suppliedBytes history).take 64⟩ ↔
      RepeatsAgree register count (requestStates history) := by
  obtain ⟨_, captured, record, last⟩ := completes.noWrite (payloadOf_read count)
  obtain ⟨history', stopped, run, events, same, states, _⟩ := completes.stopped
  obtain ⟨_, length, bytes⟩ := (reading_run run).supplied count events
  rw [same, states] at bytes
  rw [states] at length
  rw [transmitRequests_read] at record last
  rw [if_pos ⟨dump, Nat.ne_of_gt some_⟩] at record
  have total : (suppliedBytes history).length = count := by rw [bytes, List.length_mapIdx, length]
  -- byte `i` is what its register held at request `i`
  have held : ∀ i, (suppliedBytes history)[i]? = (requestStates history)[i]?.map fun s : Slave =>
    s.registerAt register i := by
    intro i
    rw [bytes, List.getElem?_mapIdx]
  have filed : t.slave.slot.record = some ⟨.read, register, (suppliedBytes history).take 64⟩ ↔
      captured.take (min count 64) = (suppliedBytes history).take 64 := by
    rw [record]
    simp
  have short : ((suppliedBytes history).take 64).length = min count 64 := by
    rw [List.length_take, total, Nat.min_comm]
  rw [filed, Buffer.take_eq_iff short]
  constructor
  · intro agree i inside s s' first again
    have byte := agree i inside
    rw [List.getElem?_take_of_lt (by omega), held, first] at byte
    have byte' := last i inside
    rw [held, again, ← byte] at byte'
    exact Option.some.inj byte'
  · intro agree i inside
    have first : i < (requestStates history).length := by omega
    have again : lastAt count i < (requestStates history).length := by
      rw [length]
      exact lastAt_lt inside
    have byte := last i inside
    rw [held, List.getElem?_eq_getElem again] at byte
    rw [List.getElem?_take_of_lt (by omega), held, List.getElem?_eq_getElem first, ← byte]
    exact congrArg some (agree i inside _ _ (List.getElem?_eq_getElem first) (List.getElem?_eq_getElem again)).symm

theorem repeatsAgree_of_short (register : Byte) (short : count ≤ 64) (states : List Slave) :
    RepeatsAgree register count states := by
  intro i inside s s' first again
  rw [lastAt_of_short short (by omega)] at again ⊢
  rw [first] at again
  cases again
  rfl

end

/-- The fresh system after `ipc dump on`. -/
def dumpingSystem : System := (freshSystem.next (.ipcDump true)).2

/-- A dumped read of the four magic bytes. -/
theorem read_capture_iff_magic :
    (System.final (transactionInputs 0x00 (List.replicate 4 .treq)) dumpingSystem).slave.slot.record =
      some ⟨.read, 0x00, (suppliedBytes (System.history (transactionInputs 0x00
        (List.replicate 4 .treq)) dumpingSystem)).take 64⟩ := by
  have slot : SlotFreeAtStop (System.history (transactionInputs 0x00 (List.replicate 4 .treq)) dumpingSystem) := by
    unfold SlotFreeAtStop
    decide +kernel
  exact (read_capture_iff (transactionInputs_complete (onePointer_read 4) slot) (by decide) rfl).mpr
    (repeatsAgree_of_short 0x00 (by decide) _)

/-- A read of 65 bytes at 0x80, where the window starts with 0x11: the last request, outside
the window, replaces the first byte of the capture. -/
theorem read_capture_overwritten : ∃ earlier st history t, Run SystemStep freshSystem earlier st ∧
    Completes st 0x80 (List.replicate 65 .treq) history t ∧ t.slave.dumpEnabled = true ∧
    suppliedBytes history = 0x11 :: List.replicate 64 0 ∧
    t.slave.slot.record = some ⟨.read, 0x80, List.replicate 64 0⟩ ∧
    t.slave.slot.record ≠ some ⟨.read, 0x80, (suppliedBytes history).take 64⟩ := by
  have earlier := System.run_history ((Transaction.write 0x80 [0x11]).inputs ++ List.replicate 12 (.worker 0) ++
    [.ipcDump true])
    freshSystem
  generalize settled : System.final ((Transaction.write 0x80 [0x11]).inputs ++ List.replicate 12 (.worker 0) ++
    [.ipcDump true])
    freshSystem = st at earlier
  refine ⟨_, st, System.history (transactionInputs 0x80 (List.replicate 65 .treq)) st, _, earlier,
    transactionInputs_complete (onePointer_read 65) ?_, ?_, ?_, ?_, ?_⟩
  · subst settled
    unfold SlotFreeAtStop
    decide +kernel
  · subst settled
    decide +kernel
  · subst settled
    decide +kernel
  · subst settled
    decide +kernel
  · subst settled
    decide +kernel

end Cc1310Firmware.I2cSlave
