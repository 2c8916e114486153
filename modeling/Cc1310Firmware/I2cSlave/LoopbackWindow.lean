import Cc1310Firmware.I2cSlave.RegisterFile
import Cc1310Firmware.I2cSlave.System

/-! A write to the loopback window and the read after it, with the worker at
any statement and free to run in between.

Up to STOP the handler does the same whatever the worker does. STOP commits
the buffered part of the payload, if the slot is free.
-/

set_option autoImplicit false

namespace Cc1310Firmware.I2cSlave
open LabelledRun

/-- The `count` bytes of the window from `register` on. -/
def Slave.windowBytes (s : Slave) (register : Byte) (count : Nat) : List Byte :=
  (List.range count).map fun i => s.loopbackBuffer (register.toNat + i - 0x80)

/-- STOP finds the slot free. -/
def SlotFreeAtStop (history : List SystemTransition) : Prop :=
  ∀ x ∈ history, .stop ∈ x.event.input.busEvents → x.before.slave.pendingCount = 0

/-- The write from `st` to `t` stores the payload, which the next read gets, or
nothing: all of it if it fits, else nothing. -/
def AllOrNothing (register : Byte) (payload : List Byte) (st t : System) : Prop :=
  if FitsWindow register payload.length then
    (∀ history u, Run SystemStep t history u → busEvents history = (Transaction.read register payload.length).events →
      suppliedBytes history = payload) ∧
    ∀ i < 64, ¬ (register.toNat ≤ 0x80 + i ∧ 0x80 + i < register.toNat + payload.length) →
      t.slave.loopbackBuffer i = st.slave.loopbackBuffer i
  else ∀ i < 64, t.slave.loopbackBuffer i = st.slave.loopbackBuffer i

/-- A payload that fits finds the slot free at STOP, and no 64 bytes of a longer one
are committed at 0x80; or the window holds these bytes already. -/
def CommitsWhole (register : Byte) (payload : List Byte) (st : System) (history : List SystemTransition) : Prop :=
  if FitsWindow register payload.length then
    SlotFreeAtStop history ∨ st.slave.windowBytes register payload.length = payload
  else register = 0x80 → 64 < payload.length → SlotFreeAtStop history →
    st.slave.windowBytes 0x80 64 = payload.take 64

/-! ## The handler without the worker -/

/-- The variables that decide the bytes of a loopback transaction. -/
structure Wire where
  registerPointer : Byte
  receiveCount : Nat
  receiveBuffer : Buffer
  transmitPointerValid : Bool
  transmitLoopback : Bool
  loopbackBuffer : Buffer

def BusSide.wire (side : BusSide) : Wire :=
  ⟨side.registerPointer, side.receiveCount, side.receiveBuffer, side.transmitPointerValid, side.transmitLoopback,
    side.loopbackBuffer⟩

def Slave.wire (s : Slave) : Wire := s.busSide.wire

section
variable {s s' : Slave}

theorem wire_pointer (same : s.wire = s'.wire) : s.registerPointer = s'.registerPointer :=
  congrArg Wire.registerPointer same

theorem wire_window (same : s.wire = s'.wire) : s.loopbackBuffer = s'.loopbackBuffer :=
  congrArg Wire.loopbackBuffer same

theorem wire_received (same : s.wire = s'.wire) :
    s.receiveCount = s'.receiveCount ∧ s.receiveBuffer = s'.receiveBuffer :=
  ⟨congrArg Wire.receiveCount same, congrArg Wire.receiveBuffer same⟩

theorem wire_dataInterrupt (same : s.wire = s'.wire) (act : SlaveAct) :
    (s.dataInterrupt act).2.wire = (s'.dataInterrupt act).2.wire := by
  have pointer := wire_pointer same
  have window := wire_window same
  obtain ⟨count, buffer⟩ := wire_received same
  have valid : s.transmitPointerValid = s'.transmitPointerValid := congrArg Wire.transmitPointerValid same
  have loopback : s.transmitLoopback = s'.transmitLoopback := congrArg Wire.transmitLoopback same
  cases act with
  | none => exact same
  | treq =>
    unfold Slave.dataInterrupt Slave.transmitRequest
    dsimp only
    rw [← valid]
    split
    · simp only [Slave.wire, Slave.busSide, BusSide.wire, pointer, window, count, buffer, valid, loopback]
    · exact same
  | rreqFbr value =>
    simp only [Slave.dataInterrupt, Slave.firstByteReceived, Slave.wire, Slave.busSide, BusSide.wire, window,
      buffer]
  | rreq value =>
    unfold Slave.dataInterrupt Slave.byteReceived
    dsimp only
    rw [← count]
    split <;> simp only [Slave.wire, Slave.busSide, BusSide.wire, pointer, window, count, buffer, valid, loopback]

/-- A request of a loopback read gets its byte from the window. -/
theorem wire_transmitRequest (same : s.wire = s'.wire) (loopback : s'.transmitLoopback = true) :
    s.transmitRequest.1 = s'.transmitRequest.1 := by
  have valid : s.transmitPointerValid = s'.transmitPointerValid := congrArg Wire.transmitPointerValid same
  have loopback' : s.transmitLoopback = true := (congrArg Wire.transmitLoopback same).trans loopback
  unfold Slave.transmitRequest
  rw [valid]
  split
  · unfold Slave.transmitValue
    rw [loopback, loopback', wire_pointer same, wire_window same]
    rfl
  · rfl

end

/-- Without STOP the handler does what it would do without the worker. -/
theorem wire_run {start final : System} {history : List SystemTransition} (run : Run SystemStep start history final)
    (data : ∀ e ∈ busEvents history, e ≠ .stop) :
    final.slave.wire = (respond (busEvents history) start.slave).2.wire := by
  refine @bus_induction _ _ _ (fun events _ s => (∀ e ∈ events, e ≠ .stop) →
    s.wire = (respond events start.slave).2.wire) ?_ ?_ ?_ run data
  · exact fun _ => rfl
  · intro events _ s e ih data
    have before := ih fun e' member => data e' (List.mem_append_left _ member)
    rw [respond_append]
    cases e with
    | data act => exact wire_dataInterrupt before act
    | stop => exact absurd rfl (data .stop (by simp))
  · intro events _ s s' ih side data
    exact (congrArg BusSide.wire side).trans (ih data)

/-! ## The read -/

/-- A prefix of a read after which one more request comes: the pointer and requests only. -/
theorem prefix_of_read {register : Byte} {count : Nat} {events : List BusEvent}
    (front : events ++ [.data .treq] <+: .data (.rreqFbr register) :: List.replicate count (.data .treq)) :
    ∃ served, events = .data (.rreqFbr register) :: List.replicate served (.data .treq) := by
  cases events with
  | nil =>
    obtain ⟨_, whole⟩ := front
    cases whole
  | cons e rest =>
    obtain ⟨_, whole⟩ := front
    rw [List.cons_append, List.cons_append] at whole
    obtain ⟨rfl, tail⟩ := List.cons.inj whole
    refine ⟨rest.length, ?_⟩
    have requests : ∀ e ∈ rest, e = .data .treq := by
      intro e member
      apply List.eq_of_mem_replicate (n := count)
      rw [← tail, List.append_assoc]
      exact List.mem_append_left _ member
    rw [List.eq_replicate_iff.mpr ⟨rfl, requests⟩, List.length_replicate]

theorem respond_read_loopback (register : Byte) (window : isLoopbackRegister register = true) (served : Nat)
    (s : Slave) :
    (respond (.data (.rreqFbr register) :: List.replicate served (.data .treq)) s).2.transmitLoopback = true := by
  obtain ⟨_, _, _, _, after⟩ := respond_treq served (s.firstByteReceived register)
  unfold respond
  dsimp only [Slave.busEvent, Slave.dataInterrupt]
  rw [after]
  exact window

/-- The bytes of a loopback read do not depend on the worker. -/
theorem supplied_run {start final : System} {history : List SystemTransition} {register : Byte} {count : Nat}
    (run : Run SystemStep start history final) (window : isLoopbackRegister register = true)
    (read : busEvents history <+: .data (.rreqFbr register) :: List.replicate count (.data .treq)) :
    suppliedBytes history = (respond (busEvents history) start.slave).1 := by
  refine (@bus_induction _ _ _ (fun events bytes s =>
    events <+: .data (.rreqFbr register) :: List.replicate count (.data .treq) →
      bytes = (respond events start.slave).1 ∧ s.wire = (respond events start.slave).2.wire) ?_ ?_ ?_ run read).1
  · exact fun _ => ⟨rfl, rfl⟩
  · intro events bytes s e ih front
    obtain ⟨supplied, same⟩ := ih ((List.prefix_append _ _).trans front)
    rw [respond_append, supplied]
    cases e with
    | stop =>
      have member := front.subset (List.mem_append_right events (List.mem_singleton.mpr rfl))
      simp at member
    | data act =>
      refine ⟨?_, wire_dataInterrupt same act⟩
      cases act with
      | treq =>
        obtain ⟨served, rfl⟩ := prefix_of_read front
        have loopback := respond_read_loopback register window served start.slave
        simp only [respond, Slave.busEvent, Slave.dataInterrupt, wire_transmitRequest same loopback,
          List.append_nil]
      | none | rreqFbr | rreq => simp [respond, Slave.busEvent, Slave.dataInterrupt]
  · intro events bytes s s' ih side front
    obtain ⟨supplied, same⟩ := ih front
    exact ⟨supplied, (congrArg BusSide.wire side).trans same⟩

/-! ## Around STOP -/

/-- With a silent bus nothing is supplied and the window stays. -/
theorem silent_run {start final : System} {history : List SystemTransition}
    (run : Run SystemStep start history final) (silent : busEvents history = []) :
    suppliedBytes history = [] ∧ final.slave.loopbackBuffer = start.slave.loopbackBuffer := by
  refine @bus_induction _ _ _ (fun events bytes s => events = [] →
    bytes = [] ∧ s.loopbackBuffer = start.slave.loopbackBuffer) ?_ ?_ ?_ run silent
  · exact fun _ => ⟨rfl, rfl⟩
  · intro events bytes s e _ none_
    exact absurd none_ (by simp)
  · intro events bytes s s' ih side none_
    obtain ⟨supplied, window⟩ := ih none_
    exact ⟨supplied, (congrArg BusSide.loopbackBuffer side).trans window⟩

theorem pendingCount_dataInterrupt (s : Slave) (act : SlaveAct) :
    (s.dataInterrupt act).2.pendingCount = s.pendingCount := by
  cases act with
  | none | rreqFbr => rfl
  | treq => unfold Slave.dataInterrupt Slave.transmitRequest; dsimp only; split <;> rfl
  | rreq => unfold Slave.dataInterrupt Slave.byteReceived; dsimp only; split <;> rfl

/-- A transaction up to its STOP, and what STOP does to the slave that it finds. -/
theorem run_to_stop {start final : System} {history : List SystemTransition} {events : List BusEvent}
    (run : Run SystemStep start history final) (whole : busEvents history = events ++ [.stop])
    (data : ∀ e ∈ events, e ≠ .stop) : ∃ history' stopped, Run SystemStep start history' stopped ∧
      busEvents history' = events ∧ suppliedBytes history = suppliedBytes history' ∧
      final.slave.loopbackBuffer = stopped.slave.stopInterrupt.loopbackBuffer ∧
      (SlotFreeAtStop history ↔ stopped.slave.pendingCount = 0) := by
  obtain ⟨before, x, after, act, rfl, input, rfl, quiet⟩ := split_stop whole
  obtain ⟨left, step, right⟩ := run.split
  obtain ⟨supplied, window⟩ := silent_run right quiet
  obtain ⟨st, event, st'⟩ := x
  have only : ∀ y ∈ before ++ ⟨st, event, st'⟩ :: after, .stop ∈ y.event.input.busEvents →
      y = ⟨st, event, st'⟩ := by
    intro y member stops
    rcases List.mem_append.mp member with early | late
    · have inside : .stop ∈ busEvents before := List.mem_flatMap.mpr ⟨y, early, stops⟩
      exact absurd rfl (data .stop (List.mem_append_left _ inside))
    · rcases List.mem_cons.mp late with rfl | late
      · rfl
      · have inside : .stop ∈ busEvents after := List.mem_flatMap.mpr ⟨y, late, stops⟩
        rw [quiet] at inside
        cases inside
  cases step with
  | worker | ipcDump => cases input
  | interrupt s w flags =>
    cases input
    -- the same interrupt without its STOP
    refine ⟨_, _, left.next (.interrupt s w ⟨act, false⟩), ?_, ?_, ?_, ?_⟩
    · rw [busEvents_append, busEvents_single]
      simp [Input.busEvents, Interrupt.events]
    · have same : (i2cInterruptHandler ⟨act, true⟩ s).1 =
        (i2cInterruptHandler ⟨act, false⟩ s).1 := by cases act <;> rfl
      rw [← List.singleton_append, suppliedBytes_append, suppliedBytes_append, suppliedBytes_append, supplied,
        suppliedBytes_single, suppliedBytes_single, List.append_nil, same]
    · rw [window]
      cases act <;> rfl
    · have slot : (i2cInterruptHandler ⟨act, false⟩ s).2.pendingCount = s.pendingCount := by
        cases act with
        | none => rfl
        | some act => exact pendingCount_dataInterrupt s act
      rw [slot]
      constructor
      · intro free
        exact free _ (List.mem_append_right _ List.mem_cons_self) (by simp [Input.busEvents, Interrupt.events])
      · intro free y member stops
        rw [only y member stops]
        exact free

theorem loopbackBuffer_stopInterrupt (s : Slave) : s.stopInterrupt.loopbackBuffer =
    if s.receiveCount ≠ 0 ∧ s.pendingCount = 0 then s.committed else s.loopbackBuffer := by
  by_cases payload : s.receiveCount = 0
  · have other : ¬ (s.receiveCount ≠ 0 ∧ s.pendingCount = 0) := fun both => both.1 payload
    rw [stop_empty payload, if_neg other]
    split
    · split <;> rfl
    · rfl
  · rw [stop_with_payload payload]
    by_cases free : s.pendingCount = 0
    · rw [if_pos free, if_pos ⟨payload, free⟩]
      rfl
    · rw [if_neg free, if_neg fun both => free both.2]
      rfl

/-- A read within the window gets the window. -/
theorem read_supplies {start final : System} {history : List SystemTransition} {register : Byte} {count : Nat}
    (run : Run SystemStep start history final) (some_ : 0 < count) (fits : FitsWindow register count)
    (read : busEvents history = (Transaction.read register count).events) :
    suppliedBytes history = start.slave.windowBytes register count := by
  have data : ∀ e ∈ (.data (.rreqFbr register) :: List.replicate count (.data .treq) : List BusEvent),
      e ≠ .stop := by
    intro e member
    rcases List.mem_cons.mp member with rfl | request
    · simp
    · rw [List.eq_of_mem_replicate request]
      simp
  obtain ⟨low, high⟩ := fits
  have window : isLoopbackRegister register = true := (isLoopbackRegister_iff register).mpr ⟨low, by omega⟩
  obtain ⟨history', stopped, run', events, supplied, _, _⟩ := run_to_stop run read data
  rw [supplied, supplied_run run' window (by rw [events]), events]
  unfold respond
  simp only [Slave.busEvent, Slave.dataInterrupt, Option.toList_none, List.nil_append]
  rw [respond_treq_supplied count _ rfl]
  apply List.map_congr_left
  intro i member
  have short := List.mem_range.mp member
  have pointer : (register + BitVec.ofNat 8 i).toNat = register.toNat + i := by
    rw [BitVec.toNat_add, BitVec.toNat_ofNat]
    omega
  rw [Slave.transmitValueAt_first, if_pos window, if_pos ((isLoopbackRegister_iff _).mpr (by omega)), pointer]
  rfl

/-- The window after a write. -/
theorem write_window {start final : System} {history : List SystemTransition} {register : Byte}
    {payload : List Byte} (run : Run SystemStep start history final) (some_ : 0 < payload.length)
    (write : busEvents history = (Transaction.write register payload).events) :
    (SlotFreeAtStop history → final.slave.loopbackBuffer = (start.slave.afterPayload register payload).committed) ∧
    (¬ SlotFreeAtStop history → final.slave.loopbackBuffer = start.slave.loopbackBuffer) := by
  have data : ∀ e ∈ (.data (.rreqFbr register) :: payload.map fun value => .data (.rreq value) : List BusEvent),
      e ≠ .stop := by
    intro e member
    rcases List.mem_cons.mp member with rfl | byte
    · simp
    · obtain ⟨value, _, rfl⟩ := List.mem_map.mp byte
      simp
  obtain ⟨history', stopped, run', events, _, window, slot⟩ := run_to_stop run write data
  have wire := wire_run run' (by rw [events]; exact data)
  rw [events, respond_beforeStop] at wire
  obtain ⟨count, buffer⟩ := wire_received wire
  have nonzero : stopped.slave.receiveCount ≠ 0 := by
    rw [count]
    have positive : 0 < min payload.length i2cWriteMax := Nat.lt_min.mpr ⟨some_, by decide⟩
    exact Nat.ne_of_gt positive
  have committed : stopped.slave.committed = (start.slave.afterPayload register payload).committed := by
    unfold Slave.committed
    rw [count, buffer, wire_pointer wire, wire_window wire]
  rw [window, loopbackBuffer_stopInterrupt]
  constructor
  · intro free
    rw [if_pos ⟨nonzero, slot.mp free⟩, committed]
  · intro busy
    rw [if_neg fun both => busy (slot.mpr both.2), wire_window wire]
    rfl

/-! ## All or nothing -/

theorem overlay_bytes (window : Buffer) {register : Byte} {payload : List Byte}
    (fits : FitsWindow register payload.length) :
    ((List.range payload.length).map fun i => overlay window register payload (register.toNat + i - 0x80)) =
      payload := by
  obtain ⟨low, _⟩ := fits
  apply List.ext_getElem
  · simp
  · intro i _ inside
    have place : 0x80 + (register.toNat + i - 0x80) - register.toNat = i := by omega
    have stored : register.toNat ≤ 0x80 + (register.toNat + i - 0x80) ∧
        0x80 + (register.toNat + i - 0x80) - register.toNat < payload.length := by omega
    simp only [List.getElem_map, List.getElem_range]
    unfold overlay
    rw [dif_pos stored]
    simp only [place]

theorem overlay_outside (window : Buffer) {register : Byte} {payload : List Byte} {i : Nat}
    (outside : ¬ (register.toNat ≤ 0x80 + i ∧ 0x80 + i < register.toNat + payload.length)) :
    overlay window register payload i = window i := by
  unfold overlay
  rw [dif_neg]
  omega

/-- Every read of the window gets these bytes exactly when the window holds them. -/
theorem reads_iff {t : System} {register : Byte} {payload : List Byte} (some_ : 0 < payload.length)
    (fits : FitsWindow register payload.length) :
    (∀ history u, Run SystemStep t history u → busEvents history = (Transaction.read register payload.length).events →
      suppliedBytes history = payload) ↔ t.slave.windowBytes register payload.length = payload := by
  constructor
  · intro reads
    have run := System.run_history (Transaction.read register payload.length).inputs t
    have events : busEvents (System.history (Transaction.read register payload.length).inputs t) =
        (Transaction.read register payload.length).events := by
      rw [System.busEvents_history, Transaction.inputs_events]
    rw [← read_supplies run some_ fits events]
    exact reads _ _ run events
  · intro holds history u run read
    rw [read_supplies run some_ fits read, holds]

/-- The buffered part of a payload that does not fit fits only if it starts the window. -/
theorem truncated_fits {register : Byte} {payload : List Byte} (some_ : ¬ FitsWindow register payload.length)
    (fits : FitsWindow register (payload.take i2cWriteMax).length) :
    register = 0x80 ∧ 64 < payload.length ∧ (payload.take i2cWriteMax).length = 64 := by
  have long : 64 < payload.length := by
    by_contra short
    have whole : payload.take i2cWriteMax = payload := List.take_of_length_le (Nat.le_of_not_lt short)
    rw [whole] at fits
    exact some_ fits
  have length : (payload.take i2cWriteMax).length = 64 := by
    rw [List.length_take]
    exact Nat.min_eq_left (Nat.le_of_lt long)
  obtain ⟨low, high⟩ := fits
  rw [length] at high
  have first : register.toNat = (0x80 : Byte).toNat := Nat.le_antisymm (Nat.le_of_add_le_add_right high) low
  exact ⟨BitVec.eq_of_toNat_eq first, long, length⟩

/-- A write to the loopback window is stored whole and read back, or not at all, exactly
when it commits whole. -/
theorem loopback_all_or_nothing_iff {st t : System} {history : List SystemTransition} {register : Byte}
    {payload : List Byte} (run : Run SystemStep st history t) (some_ : 0 < payload.length)
    (write : busEvents history = (Transaction.write register payload).events) :
    AllOrNothing register payload st t ↔ CommitsWhole register payload st history := by
  obtain ⟨stored, dropped⟩ := write_window run some_ write
  rw [committed_write st.slave register some_] at stored
  unfold AllOrNothing CommitsWhole
  by_cases fits : FitsWindow register payload.length
  -- the payload fits: it is committed as a whole, or not at all
  · have short : payload.length ≤ 64 := by
      unfold FitsWindow at fits
      omega
    have whole : payload.take i2cWriteMax = payload := List.take_of_length_le short
    rw [whole, if_pos fits] at stored
    rw [if_pos fits, if_pos fits, reads_iff some_ fits]
    unfold Slave.windowBytes
    by_cases free : SlotFreeAtStop history
    · rw [stored free, overlay_bytes _ fits]
      exact iff_of_true ⟨rfl, fun i _ outside => overlay_outside _ outside⟩ (.inl free)
    · rw [dropped free]
      exact ⟨fun held => .inr held.1, fun held => ⟨held.resolve_left free, fun _ _ _ => rfl⟩⟩
  · rw [if_neg fits, if_neg fits]
    -- it does not fit, but the handler tests what is left of it after 64 bytes
    by_cases part : FitsWindow register (payload.take i2cWriteMax).length
    · obtain ⟨rfl, long, length⟩ := truncated_fits fits part
      have bytes := overlay_bytes st.slave.loopbackBuffer part
      rw [length] at bytes
      rw [if_pos part] at stored
      by_cases free : SlotFreeAtStop history
      · rw [stored free]
        unfold Slave.windowBytes
        constructor
        · intro same _ _ _
          refine Eq.trans (List.map_congr_left fun i member => ?_) bytes
          have inside := List.mem_range.mp member
          have place : (0x80 : Byte).toNat + i - 0x80 = i := Nat.add_sub_cancel_left 128 i
          rw [place]
          exact (same i inside).symm
        · intro held i inside
          have same := List.map_inj_left.mp (bytes.trans (held rfl long free).symm) i (List.mem_range.mpr inside)
          have place : (0x80 : Byte).toNat + i - 0x80 = i := Nat.add_sub_cancel_left 128 i
          rw [place] at same
          exact same
      · rw [dropped free]
        exact iff_of_true (fun _ _ => rfl) fun _ _ free' => absurd free' free
    · rw [if_neg part] at stored
      have unchanged : t.slave.loopbackBuffer = st.slave.loopbackBuffer := by
        by_cases free : SlotFreeAtStop history
        · exact stored free
        · exact dropped free
      rw [unchanged]
      apply iff_of_true (fun _ _ => rfl)
      rintro rfl long
      have length : (payload.take i2cWriteMax).length = 64 := by
        rw [List.length_take]
        exact Nat.min_eq_left (Nat.le_of_lt long)
      rw [length] at part
      exact absurd (show FitsWindow 0x80 64 by decide) part

/-- Two bytes written to a fresh slave. -/
theorem loopback_all_or_nothing_iff_fresh :
    AllOrNothing 0x80 [0x01, 0x02] freshSystem
      (System.final (Transaction.write 0x80 [0x01, 0x02]).inputs freshSystem) := by
  have run := System.run_history (Transaction.write 0x80 [0x01, 0x02]).inputs freshSystem
  have events : busEvents (System.history (Transaction.write 0x80 [0x01, 0x02]).inputs freshSystem) =
      (Transaction.write 0x80 [0x01, 0x02]).events := by
    rw [System.busEvents_history, Transaction.inputs_events]
  apply (loopback_all_or_nothing_iff run (by decide) events).mpr
  have free : SlotFreeAtStop (System.history (Transaction.write 0x80 [0x01, 0x02]).inputs freshSystem) := by
    unfold SlotFreeAtStop
    decide +kernel
  unfold CommitsWhole
  rw [if_pos (by decide)]
  exact .inl free

/-- A write that fits is dropped behind a record that the worker has not taken, and of 65
bytes written at 0x80 the first 64 are stored. -/
theorem loopback_write_dropped_or_cut :
    (∃ earlier st history t, Run SystemStep freshSystem earlier st ∧ Run SystemStep st history t ∧
      busEvents history = (Transaction.write 0x80 [0x55]).events ∧ ¬ AllOrNothing 0x80 [0x55] st t) ∧
    ∃ history t, Run SystemStep freshSystem history t ∧
      busEvents history = (Transaction.write 0x80 (List.replicate 65 0x11)).events ∧
      ¬ AllOrNothing 0x80 (List.replicate 65 0x11) freshSystem t := by
  constructor
  · have first := System.run_history (Transaction.write 0x10 [0xAA]).inputs freshSystem
    have second := System.run_history (Transaction.write 0x80 [0x55]).inputs
      (System.final (Transaction.write 0x10 [0xAA]).inputs freshSystem)
    refine ⟨_, _, _, _, first, second, by rw [System.busEvents_history, Transaction.inputs_events], ?_⟩
    unfold AllOrNothing
    rw [if_pos (by decide), reads_iff (by decide) (by decide)]
    rintro ⟨held, _⟩
    exact absurd held (by decide +kernel)
  · have run := System.run_history (Transaction.write 0x80 (List.replicate 65 0x11)).inputs freshSystem
    refine ⟨_, _, run, by rw [System.busEvents_history, Transaction.inputs_events], ?_⟩
    unfold AllOrNothing
    rw [if_neg (by decide)]
    intro same
    exact absurd (same 0 (by decide)) (by decide +kernel)

end Cc1310Firmware.I2cSlave
