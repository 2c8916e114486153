import Cc1310Firmware.I2cSlave.System

/-! A status read against the publications that happen during it.

A read takes its bytes from the bank that was active when the pointer byte
arrived. The next publication fills the other bank; the one after it fills the
bank of the read.
-/

set_option autoImplicit false

namespace Cc1310Firmware.I2cSlave
open LabelledRun

/-- The transition publishes into this bank. -/
def publishesInto (bank : Bool) (x : SystemTransition) : Bool :=
  Executes x .publish && x.before.slave.activeRegisters != bank

def publications (history : List SystemTransition) : Nat := history.countP fun x => Executes x .publish

/-- The publication that a bank holds: the number of the transition that wrote
it, counted from 1 along the run, or 0 for what it held at the start. -/
def publicationIn (bank : Bool) (history : List SystemTransition) : Nat :=
  history.length - (history.reverse.takeWhile fun x => !publishesInto bank x).length

theorem publicationIn_concat (bank : Bool) (history : List SystemTransition) (x : SystemTransition) :
    publicationIn bank (history ++ [x]) =
      if publishesInto bank x then history.length + 1 else publicationIn bank history := by
  unfold publicationIn
  rw [List.reverse_append, List.reverse_singleton, List.singleton_append, List.takeWhile_cons]
  cases publishesInto bank x <;> simp

theorem publicationIn_le (bank : Bool) (history : List SystemTransition) :
    publicationIn bank history ≤ history.length :=
  Nat.sub_le _ _

theorem publications_concat (history : List SystemTransition) (x : SystemTransition) :
    publications (history ++ [x]) = publications history + if Executes x .publish then 1 else 0 := by
  simp [publications, List.countP_append, List.countP_singleton]

/-- The transition serves a transmit request. -/
def Requests (x : SystemTransition) : Prop := ∃ stop, x.event.input = .interrupt ⟨some .treq, stop⟩

/-- The events after the pointer byte of a read: transmit requests, and STOP at most at the end. -/
def ReadEvents (during : List SystemTransition) : Prop :=
  ∃ count, busEvents during <+: List.replicate count (.data .treq) ++ [.stop]

/-- Every byte of the read at `register` is the byte that the bank active at the pointer
byte held then, and comes from the publication which that bank held then. -/
def OneSnapshot (register : Byte) (earlier : List SystemTransition) (pointer : SystemTransition)
    (during : List SystemTransition) : Prop :=
  ∀ before x after, during = before ++ x :: after → Requests x →
    publicationIn x.before.slave.transmitBank (earlier ++ pointer :: before) =
      publicationIn pointer.before.slave.activeRegisters earlier ∧
    x.event.supplied = some (pointer.before.slave.registers pointer.before.slave.activeRegisters
      ((register.toNat + (busEvents before).length) % 64))

/-- The slave within a read at `register` from `bank`, after `count` requests. -/
structure Reading (bank : Bool) (register : Byte) (count : Nat) (s : Slave) : Prop where
  addressed : s.transmitPointerValid = true
  plain : s.transmitLoopback = false
  snapshot : s.transmitRegisterSnapshot = bank
  source : s.transmitBank = bank
  pointer : s.registerPointer = register + BitVec.ofNat 8 count

section
variable {bank : Bool} {register : Byte} {count : Nat} {s s' : Slave}

theorem Reading.start (s : Slave) (status : isLoopbackRegister register = false) :
    Reading s.activeRegisters register 0 (s.firstByteReceived register) :=
  ⟨rfl, status, rfl, rfl, (BitVec.add_zero register).symm⟩

theorem Reading.value (reading : Reading bank register count s) :
    s.transmitRequest.1 = s.registers bank ((register.toNat + count) % 64) := by
  unfold Slave.transmitRequest Slave.transmitValue
  rw [if_pos reading.addressed, reading.plain, if_neg Bool.false_ne_true, reading.source, reading.pointer,
    registerIndex]

theorem Reading.request (reading : Reading bank register count s) :
    Reading bank register (count + 1) s.transmitRequest.2 := by
  have next : s.transmitRequest.2 = { s with
      registerPointer := s.registerPointer + 1
      transmitRegisters := some s.transmitBank
      transmitBuffer := Function.update s.transmitBuffer s.transmitOffset s.transmitValue
      transmitLength := if s.transmitLength ≤ s.transmitOffset then s.transmitOffset + 1 else s.transmitLength } := by
    unfold Slave.transmitRequest
    rw [if_pos reading.addressed, reading.plain, if_neg Bool.false_ne_true]
  rw [next]
  refine ⟨reading.addressed, reading.plain, reading.snapshot, reading.source, ?_⟩
  dsimp only
  rw [reading.pointer, BitVec.ofNat_add, BitVec.add_assoc]
  rfl

/-- The worker may forget the bank of the read: the snapshot names it again. -/
theorem Reading.kept (reading : Reading bank register count s) (side : s'.busSide = s.busSide)
    (forgotten : s'.transmitRegisters = none ∨ s'.transmitRegisters = s.transmitRegisters) :
    Reading bank register count s' := by
  have snapshot : s'.transmitRegisterSnapshot = bank :=
    (congrArg BusSide.transmitRegisterSnapshot side).trans reading.snapshot
  refine ⟨(congrArg BusSide.transmitPointerValid side).trans reading.addressed,
    (congrArg BusSide.transmitLoopback side).trans reading.plain, snapshot, ?_,
    (congrArg BusSide.registerPointer side).trans reading.pointer⟩
  rcases forgotten with none_ | same
  · unfold Slave.transmitBank
    rw [none_]
    exact snapshot
  · have source := reading.source
    unfold Slave.transmitBank at source ⊢
    rw [reading.snapshot] at source
    rw [same, snapshot]
    exact source

theorem Reading.requests (reading : Reading bank register count s) (events : List BusEvent)
    (requests : ∀ e ∈ events, e = .data .treq) :
    Reading bank register (count + events.length) (respond events s).2 := by
  induction events generalizing s count with
  | nil => exact reading
  | cons e rest ih =>
    obtain ⟨rfl, others⟩ := List.forall_mem_cons.mp requests
    have later := ih reading.request others
    rw [List.length_cons, Nat.add_comm rest.length 1, ← Nat.add_assoc]
    exact later

/-- One step of the system within a read, before its STOP. -/
theorem Reading.step {st st' : System} {event : SystemEvent} (reading : Reading bank register count st.slave)
    (requests : ∀ e ∈ event.input.busEvents, e = .data .treq) (step : SystemStep st event st') :
    Reading bank register (count + event.input.busEvents.length) st'.slave := by
  cases step with
  | interrupt s w flags =>
    have later := reading.requests flags.events requests
    rw [i2cInterruptHandler_eq] at later
    exact later
  | worker s w ticks =>
    exact reading.kept (workerStatement_busSide ticks w s) (workerStatement_transmitRegisters ticks w s)
  | ipcDump s w on => exact reading.kept rfl (.inr rfl)

end

/-- After part of a read at `register`: the banks against the publications since the pointer byte. -/
structure ReadInv (register : Byte) (earlier : List SystemTransition) (pointer : SystemTransition)
    (before : List SystemTransition) (s : Slave) : Prop where
  reading : Reading pointer.before.slave.activeRegisters register (busEvents before).length s
  first : publications before = 0 → s.activeRegisters = pointer.before.slave.activeRegisters
  second : publications before = 1 → s.activeRegisters = !pointer.before.slave.activeRegisters
  kept : publications before ≤ 1 →
    s.registers pointer.before.slave.activeRegisters =
      pointer.before.slave.registers pointer.before.slave.activeRegisters ∧
    publicationIn pointer.before.slave.activeRegisters (earlier ++ pointer :: before) =
      publicationIn pointer.before.slave.activeRegisters earlier
  replaced : 2 ≤ publications before →
    earlier.length < publicationIn pointer.before.slave.activeRegisters (earlier ++ pointer :: before)

section
variable {register : Byte} {earlier before : List SystemTransition} {pointer : SystemTransition}

theorem ReadInv.start (arrives : pointer.event.input = .interrupt ⟨some (.rreqFbr register), false⟩)
    (status : isLoopbackRegister register = false) (step : SystemStep pointer.before pointer.event pointer.after) :
    ReadInv register earlier pointer [] pointer.after.slave := by
  have after : pointer.after.slave = pointer.before.slave.firstByteReceived register := by
    obtain ⟨st, event, st'⟩ := pointer
    cases step with
    | interrupt s w flags => cases arrives; rfl
    | worker | ipcDump => cases arrives
  have unpublished : ∀ bank, publishesInto bank pointer = false := by
    intro bank
    simp [publishesInto, Executes, arrives]
  rw [after]
  refine ⟨Reading.start _ status, fun _ => rfl, fun one => absurd one (by decide), fun _ => ⟨rfl, ?_⟩,
    fun two => absurd two (by decide)⟩
  rw [publicationIn_concat, unpublished, if_neg Bool.false_ne_true]

theorem publicationIn_next (bank : Bool) (x : SystemTransition) :
    publicationIn bank (earlier ++ pointer :: (before ++ [x])) =
      if publishesInto bank x then (earlier ++ pointer :: before).length + 1
      else publicationIn bank (earlier ++ pointer :: before) := by
  rw [← List.cons_append, ← List.append_assoc, publicationIn_concat]

/-- A step that publishes: the banks change places, and what the read takes from changes
only at the second publication. -/
theorem ReadInv.published {st st' : System} {event : SystemEvent} {ticks : Word}
    (inv : ReadInv register earlier pointer before st.slave) (publishes : Executes ⟨st, event, st'⟩ .publish = true)
    (published : st'.slave = st.slave.publishRegisters ticks)
    (reading : Reading pointer.before.slave.activeRegisters register
      (busEvents (before ++ [⟨st, event, st'⟩])).length st'.slave) :
    ReadInv register earlier pointer (before ++ [⟨st, event, st'⟩]) st'.slave := by
  have total := publications_concat before ⟨st, event, st'⟩
  rw [if_pos publishes] at total
  have active' : st'.slave.activeRegisters = !st.slave.activeRegisters := by rw [published]; rfl
  have held := @publicationIn_next earlier before pointer pointer.before.slave.activeRegisters ⟨st, event, st'⟩
  unfold publishesInto at held
  rw [publishes, Bool.true_and] at held
  dsimp only at held
  have longer : earlier.length < (earlier ++ pointer :: before).length + 1 := by
    rw [List.length_append]
    omega
  refine ⟨reading, fun none_ => absurd none_ (by omega), ?_, ?_, ?_⟩
  · intro one
    rw [active', inv.first (by omega)]
  · intro few
    -- the first publication of the read goes to the other bank
    have active : st.slave.activeRegisters = pointer.before.slave.activeRegisters := inv.first (by omega)
    rw [held, active, bne_self_eq_false, if_neg Bool.false_ne_true, published]
    obtain ⟨contents, number⟩ := inv.kept (by omega)
    refine ⟨?_, number⟩
    rw [← contents]
    unfold Slave.publishRegisters
    dsimp only
    rw [active, Function.update_of_ne (by simp)]
  · intro _
    rw [held]
    split
    · exact longer
    case isFalse same =>
      have active : st.slave.activeRegisters = pointer.before.slave.activeRegisters := by simpa using same
      -- after an odd number of publications the read's bank is not the active one
      apply inv.replaced
      have notOne : publications before ≠ 1 := by
        intro one
        have other := inv.second one
        rw [active] at other
        simp at other
      omega

theorem ReadInv.silent {st st' : System} {event : SystemEvent}
    (inv : ReadInv register earlier pointer before st.slave) (silent : Executes ⟨st, event, st'⟩ .publish = false)
    (registers : st'.slave.registers = st.slave.registers)
    (active : st'.slave.activeRegisters = st.slave.activeRegisters)
    (reading : Reading pointer.before.slave.activeRegisters register
      (busEvents (before ++ [⟨st, event, st'⟩])).length st'.slave) :
    ReadInv register earlier pointer (before ++ [⟨st, event, st'⟩]) st'.slave := by
  have total := publications_concat before ⟨st, event, st'⟩
  rw [if_neg (by simp [silent]), Nat.add_zero] at total
  have held : ∀ bank, publicationIn bank (earlier ++ pointer :: (before ++ [⟨st, event, st'⟩])) =
      publicationIn bank (earlier ++ pointer :: before) := by
    intro bank
    have elsewhere : publishesInto bank ⟨st, event, st'⟩ = false := by
      unfold publishesInto
      rw [silent, Bool.false_and]
    rw [publicationIn_next, elsewhere, if_neg Bool.false_ne_true]
  refine ⟨reading, ?_, ?_, ?_, ?_⟩
  · rw [total, active]
    exact inv.first
  · rw [total, active]
    exact inv.second
  · rw [total, registers, held]
    exact inv.kept
  · rw [total, held]
    exact inv.replaced

theorem ReadInv.step {st st' : System} {event : SystemEvent}
    (inv : ReadInv register earlier pointer before st.slave)
    (requests : ∀ e ∈ event.input.busEvents, e = .data .treq) (step : SystemStep st event st') :
    ReadInv register earlier pointer (before ++ [⟨st, event, st'⟩]) st'.slave := by
  have reading := inv.reading.step requests step
  have length : (busEvents (before ++ [⟨st, event, st'⟩])).length =
      (busEvents before).length + event.input.busEvents.length := by
    rw [busEvents_append, busEvents_single, List.length_append]
  rw [← length] at reading
  rcases step.banks with ⟨publishes, ticks, published⟩ | ⟨silent, registers, active⟩
  · exact inv.published publishes published reading
  · exact inv.silent silent registers active reading

theorem ReadInv.run {st final : System} (inv : ReadInv register earlier pointer [] st.slave)
    (run : Run SystemStep st before final) (requests : ∀ e ∈ busEvents before, e = .data .treq) :
    ReadInv register earlier pointer before final.slave := by
  refine @Run.induction _ _ _ st (fun before st => (∀ e ∈ busEvents before, e = .data .treq) →
    ReadInv register earlier pointer before st.slave) ?_ ?_ _ _ run requests
  · exact fun _ => inv
  · intro before st event st' _ ih step requests
    rw [busEvents_append, busEvents_single] at requests
    exact (ih fun e member => requests e (List.mem_append_left _ member)).step
      (fun e member => requests e (List.mem_append_right _ member)) step

end

/-- Before a transmit request of a read there were transmit requests only. -/
theorem ReadEvents.requests {during before after : List SystemTransition} {x : SystemTransition}
    (read : ReadEvents during) (split : during = before ++ x :: after) (requests : Requests x) :
    ∀ e ∈ busEvents before, e = .data .treq := by
  obtain ⟨count, rest, whole⟩ := read
  obtain ⟨stop, input⟩ := requests
  have events : busEvents during = (busEvents before ++ [.data .treq]) ++
    ((if stop then [.stop] else []) ++ busEvents after) := by
    simp [split, busEvents, input, Input.busEvents, Interrupt.events]
  have front : busEvents before ++ [.data .treq] <+: List.replicate count (.data .treq) ++ [.stop] := by
    rw [← whole, events, List.append_assoc]
    exact List.prefix_append _ _
  rcases List.prefix_concat_iff.mp front with whole' | inner
  · obtain ⟨_, last⟩ := List.append_inj' whole' rfl
    cases last
  · intro e member
    exact List.eq_of_mem_replicate (inner.subset (List.mem_append_left _ member))

theorem publications_le {before after : List SystemTransition} :
    publications before ≤ publications (before ++ after) := by
  unfold publications
  rw [List.countP_append]
  exact Nat.le_add_right _ _

/-- All bytes of a status read come from the bank contents that were published when the
pointer byte arrived exactly when at most one publication precedes each of them. -/
theorem one_snapshot_iff {start final : System} {earlier during : List SystemTransition}
    {pointer : SystemTransition} {register : Byte} (run : Run SystemStep start (earlier ++ pointer :: during) final)
    (arrives : pointer.event.input = .interrupt ⟨some (.rreqFbr register), false⟩)
    (status : isLoopbackRegister register = false) (read : ReadEvents during) :
    OneSnapshot register earlier pointer during ↔
      ∀ before x after, during = before ++ x :: after → Requests x → publications before ≤ 1 := by
  obtain ⟨_, step, run⟩ := run.split
  have invariant : ∀ before x after, during = before ++ x :: after → Requests x →
      ReadInv register earlier pointer before x.before.slave ∧ SystemStep x.before x.event x.after := by
    intro before x after split requests
    rw [split] at run
    obtain ⟨left, here, _⟩ := run.split
    exact ⟨(ReadInv.start arrives status step).run left (read.requests split requests), here⟩
  constructor
  · intro one before x after split requests
    obtain ⟨inv, _⟩ := invariant before x after split requests
    obtain ⟨same, _⟩ := one before x after split requests
    -- the second publication has overwritten the bank that the read started with
    by_contra many
    have replaced := inv.replaced (by omega)
    rw [← inv.reading.source, same] at replaced
    exact absurd (publicationIn_le _ _) (Nat.not_le.mpr replaced)
  · intro few before x after split requests
    obtain ⟨inv, here⟩ := invariant before x after split requests
    obtain ⟨contents, held⟩ := inv.kept (few before x after split requests)
    rw [inv.reading.source]
    refine ⟨held, ?_⟩
    rw [← contents, ← inv.reading.value]
    obtain ⟨stop, input⟩ := requests
    obtain ⟨st, event, st'⟩ := x
    cases here with
    | interrupt s w flags => cases input; rfl
    | worker | ipcDump => cases input

/-! ## Two reads -/

def pointerInput (register : Byte) : Input := .interrupt ⟨some (.rreqFbr register), false⟩

def requestInput : Input := .interrupt ⟨some .treq, false⟩

/-- A four-byte read with `count` idle iterations at tick 256 after the first byte. -/
def interruptedRead (count : Nat) : List Input :=
  requestInput :: idleIterations count 256 ++ [requestInput, requestInput, requestInput, .interrupt ⟨none, true⟩]

theorem interruptedRead_events (register : Byte) (count : Nat) :
    ReadEvents (System.history (interruptedRead count) (freshSystem.next (pointerInput register)).2) := by
  refine ⟨4, ?_⟩
  have idle : (idleIterations count 256).flatMap Input.busEvents = [] := by
    simp [idleIterations, List.flatMap_eq_nil_iff, Input.busEvents]
  rw [System.busEvents_history, interruptedRead, List.cons_append, List.flatMap_cons, List.flatMap_append, idle]
  exact List.prefix_rfl

/-- One publication within a read of the magic. -/
theorem one_snapshot_iff_magic :
    OneSnapshot 0x00 [] ⟨freshSystem, (freshSystem.next (pointerInput 0x00)).1,
      (freshSystem.next (pointerInput 0x00)).2⟩
      (System.history (interruptedRead 1) (freshSystem.next (pointerInput 0x00)).2) ∧
    suppliedBytes (System.history (interruptedRead 1) (freshSystem.next (pointerInput 0x00)).2) =
      [0x49, 0x32, 0x43, 0x53] := by
  have run := System.run_history (pointerInput 0x00 :: interruptedRead 1) freshSystem
  have total : publications (System.history (interruptedRead 1) (freshSystem.next (pointerInput 0x00)).2) = 1 := by
    decide +kernel
  refine ⟨(@one_snapshot_iff _ _ [] _ _ _ run rfl (by decide) (interruptedRead_events 0x00 1)).mpr ?_,
    by decide +kernel⟩
  intro before x after split _
  rw [split] at total
  exact Nat.le_trans publications_le (Nat.le_of_eq total)

/-- Two publications within a read of the tick count, from 255 to 256: the master gets 511. -/
theorem torn_tick_count : ∃ earlier pointer during final,
    Run SystemStep freshSystem (earlier ++ pointer :: during) final ∧
    pointer.event.input = .interrupt ⟨some (.rreqFbr 0x12), false⟩ ∧ isLoopbackRegister 0x12 = false ∧
      ReadEvents during ∧
    suppliedBytes during = [0xFF, 0x01, 0x00, 0x00] ∧ ¬ OneSnapshot 0x12 earlier pointer during := by
  have run := System.run_history (pointerInput 0x12 :: interruptedRead 2) freshSystem
  refine ⟨[], _, _, _, run, rfl, by decide, interruptedRead_events 0x12 2, by decide +kernel, ?_⟩
  intro one
  have split := System.history_append (requestInput :: idleIterations 2 256)
    [requestInput, requestInput, requestInput, .interrupt ⟨none, true⟩]
    (freshSystem.next (pointerInput 0x12)).2
  obtain ⟨_, second⟩ := one _ _ _ split ⟨false, rfl⟩
  exact absurd second (by decide +kernel)

end Cc1310Firmware.I2cSlave
