import Cc1310Firmware.I2cSlave.SlaveArrays

/-! The bounds on the variables of the slave, and the interrupt handler under them.

The indices come from the bus and from each other. Bounds on five variables keep all
of them inside, and through the bounds the handler does what the slave of natural
numbers and functions does.
-/

set_option autoImplicit false

namespace Cc1310Firmware.I2cSlave.Arrays
open LittleEndian ArrayCode

/-! ### Bounds -/

/-- The bounds of the handler's variables. -/
structure InRange (v : Variables) : Prop where
  receiveCount : v.receiveCount.toNat ≤ i2cWriteMax
  pendingCount : v.pendingCount.toNat ≤ i2cWriteMax
  transmitLength : v.transmitLength.toNat ≤ i2cWriteMax
  activeRegisters : v.activeRegisters.toNat < 2
  transmitRegisterSnapshot : v.transmitRegisterSnapshot.toNat < 2

/-- From its reading of pendingCount on the worker has a count that fits. -/
def Locals.InRange (w : Locals) : Prop :=
  w.statement = .semaphorePend ∨ w.statement = .readCount ∨ w.dumpCount.toNat ≤ i2cWriteMax

/-! ### The slave of functions -/

def directionOf (code : Byte) : DumpDirection :=
  if code = i2cDumpWrite then .write else if code = i2cDumpRead then .read else .unset

/-- A row of registers as far as it goes. -/
def cut (row : Buffer) : Buffer := fun i => if i < i2cRegisterCount then row i else 0

def Variables.slave (v : Variables) (memory : SlaveMemory) : Slave where
  registers := fun bank => cut (memory (.registers bank.toNat))
  activeRegisters := v.activeRegisters != 0
  registerPointer := v.registerPointer
  receiveCount := v.receiveCount.toNat
  receiveBuffer := memory .receiveBuffer
  pendingRegister := v.pendingRegister
  pendingCount := v.pendingCount.toNat
  pendingBuffer := memory .pendingBuffer
  pendingDirection := directionOf v.pendingDirection
  transmitRegisters := if 1 < v.transmitRegisters.toNat then none else some (v.transmitRegisters != 0)
  transmitStartRegister := v.transmitStartRegister
  transmitRegisterSnapshot := v.transmitRegisterSnapshot != 0
  transmitPointerValid := v.transmitPointerValid != 0
  transmitLoopback := v.transmitLoopback != 0
  transmitLength := v.transmitLength.toNat
  transmitBuffer := memory .transmitBuffer
  loopbackBuffer := memory .loopbackBuffer
  transactionCount := v.transactionCount
  errorCount := v.errorCount
  dumpEnabled := v.dumpEnabled != 0
  currentRole := v.currentRole
  firmwareVersionCode := v.firmwareVersionCode

def Locals.worker (w : Locals) (memory : SlaveMemory) : Worker :=
  ⟨w.statement, w.dumpCount.toNat, w.dumpRegister, directionOf w.dumpDirection, memory .dumpBuffer, w.index.toNat⟩

/-- What the handler leaves is in range, and is what the slave of functions computes. -/
structure Serves (memory : SlaveMemory) (expected : Option Byte × Slave) (ran : Option Byte × Variables)
    (memory' : SlaveMemory) : Prop where
  inRange : InRange ran.2
  same : (ran.1, ran.2.slave memory') = expected
  dumpBuffer : memory' .dumpBuffer = memory .dumpBuffer

variable {v : Variables} {memory : SlaveMemory}

theorem toNat_ne_zero {byte : Byte} : byte.toNat ≠ 0 ↔ byte ≠ 0 := not_congr (@BitVec.toNat_inj 8 byte 0)

attribute [ext] Slave Worker

theorem toNat_bool {first second : Bool} (same : first.toNat = second.toNat) : first = second := by
  cases first <;> cases second <;> first | rfl | cases same

/-- The row of a bank. -/
theorem toNat_row {row : Byte} (range : row.toNat < 2) : row.toNat = (row != 0).toNat := by
  have cases_ : row = 0 ∨ row = 1 := by
    rw [← BitVec.toNat_inj, ← BitVec.toNat_inj]
    show row.toNat = 0 ∨ row.toNat = 1
    omega
  rcases cases_ with rfl | rfl <;> rfl

theorem mask_lt (pointer : Byte) : (pointer &&& 63).toNat < i2cRegisterCount := by
  rw [BitVec.toNat_and]
  exact Nat.lt_of_le_of_lt Nat.and_le_right (by decide)

theorem loopback_index {register : Byte} (inside : isLoopbackRegister register = true) :
    register.toNat - i2cLoopbackRegister < i2cLoopbackSize := by
  rw [isLoopbackRegister_iff] at inside
  unfold i2cLoopbackRegister i2cLoopbackSize
  omega

theorem loopback_room {register : Byte} {count : Nat} (valid : isLoopbackWrite register count = true) :
    register.toNat - i2cLoopbackRegister + count ≤ i2cLoopbackSize := by
  unfold isLoopbackWrite at valid
  rw [Bool.and_eq_true, decide_eq_true_eq] at valid
  have index := loopback_index valid.1
  omega

theorem InRange.row (inRange : InRange v) : v.row.toNat < 2 := by
  have snapshot := inRange.transmitRegisterSnapshot
  unfold Variables.row
  split
  · exact snapshot
  · omega

theorem transmitBank_slave (memory : SlaveMemory) : (v.slave memory).transmitBank = (v.row != 0) := by
  unfold Slave.transmitBank Variables.slave Variables.row
  dsimp only
  split <;> rfl

theorem ensures_transmitValue (inRange : InRange v) :
    Ensures SlaveArray.size (transmitValue v) memory fun ran memory' =>
    memory = memory' ∧ ran.1 = (v.slave memory).transmitValue ∧ ran.2 = { v with
      registerPointer := v.registerPointer + 1
      transmitRegisters := if v.transmitLoopback ≠ 0 then v.transmitRegisters else v.row } := by
  unfold transmitValue Slave.transmitValue
  split
  case isTrue loopback =>
    have loopback' : (v.slave memory).transmitLoopback = true := bne_iff_ne.mpr loopback
    rw [loopback', if_pos rfl]
    split
    case isTrue inside =>
      exact ensures_load_bind (loopback_index inside) (ensures_pure ⟨rfl, (if_pos inside).symm, rfl⟩)
    case isFalse outside => exact ensures_pure_bind (ensures_pure ⟨rfl, (if_neg outside).symm, rfl⟩)
  case isFalse status =>
    have loopback' : (v.slave memory).transmitLoopback = false := bne_eq_false_iff_eq.mpr (not_not.mp status)
    have row := inRange.row
    rw [loopback', if_neg Bool.false_ne_true, transmitBank_slave]
    refine ensures_load_bind ?_ (ensures_pure ⟨rfl, ?_, rfl⟩)
    · rw [SlaveArray.size, if_pos row]
      exact mask_lt _
    · rw [toNat_row row]
      exact (if_pos (mask_lt _)).symm

theorem toNat_advance {count : Byte} (small : count.toNat < i2cWriteMax) : (count + 1).toNat = count.toNat + 1 := by
  unfold i2cWriteMax i2cRegisterCount at small
  rw [BitVec.toNat_add]
  exact Nat.mod_eq_of_lt (Nat.lt_of_lt_of_le (Nat.succ_lt_succ small) (by decide))

theorem ensures_transmitRequest (inRange : InRange v) : Ensures SlaveArray.size (transmitRequest v) memory
    fun ran memory' => Serves memory (some (v.slave memory).transmitRequest.1, (v.slave memory).transmitRequest.2)
      (some ran.1, ran.2) memory' := by
  unfold transmitRequest Slave.transmitRequest
  split
  case isTrue valid =>
    have valid' : (v.slave memory).transmitPointerValid = true := bne_iff_ne.mpr valid
    rw [if_pos valid']
    refine (ensures_transmitValue inRange).bind ?_
    rintro ⟨value, v'⟩ _ ⟨rfl, rfl, rfl⟩
    have offset := mask_lt (v.registerPointer - v.transmitStartRegister)
    refine ensures_store_bind offset (ensures_pure ⟨?_, ?_, ?_⟩)
    · refine ⟨inRange.receiveCount, inRange.pendingCount, ?_, inRange.activeRegisters,
        inRange.transmitRegisterSnapshot⟩
      dsimp only
      split
      · rw [toNat_advance offset]
        exact offset
      · exact inRange.transmitLength
    · refine Prod.ext rfl ?_
      apply Slave.ext
      case transmitRegisters =>
        show (if 1 < BitVec.toNat (if v.transmitLoopback ≠ 0 then v.transmitRegisters else v.row) then none else
          some ((if v.transmitLoopback ≠ 0 then v.transmitRegisters else v.row) != 0)) =
            if (v.slave memory).transmitLoopback then (v.slave memory).transmitRegisters else some
              (v.slave memory).transmitBank
        by_cases loopback : v.transmitLoopback = 0
        · have status : (v.slave memory).transmitLoopback = false := bne_eq_false_iff_eq.mpr loopback
          have row := inRange.row
          rw [if_neg (not_not.mpr loopback), status, if_neg Bool.false_ne_true, transmitBank_slave,
            if_neg (by omega)]
        · have loopback' : (v.slave memory).transmitLoopback = true := bne_iff_ne.mpr loopback
          rw [if_pos loopback, loopback', if_pos rfl]
          rfl
      case transmitLength =>
        show (if v.transmitLength.toNat ≤ _ then _ else v.transmitLength).toNat = _
        rw [apply_ite BitVec.toNat, toNat_advance offset]
        rfl
      case transmitBuffer =>
        show memory.store .transmitBuffer _ _ .transmitBuffer = _
        rw [Memory.store_same]
        rfl
      all_goals rfl
    · exact Memory.store_of_ne _ _ _ (by decide)
  case isFalse unaddressed =>
    have valid' : (v.slave memory).transmitPointerValid = false := bne_eq_false_iff_eq.mpr (not_not.mp unaddressed)
    rw [valid', if_neg Bool.false_ne_true]
    exact ensures_pure ⟨inRange, rfl, rfl⟩

theorem ensures_dataInterrupt (inRange : InRange v) (act : SlaveAct) :
    Ensures SlaveArray.size (dataInterrupt v act) memory
    fun ran memory' => Serves memory ((v.slave memory).dataInterrupt act) ran memory' := by
  unfold dataInterrupt
  cases act with
  | treq =>
    refine (ensures_transmitRequest inRange).bind ?_
    rintro ran memory' serves
    exact ensures_pure ⟨serves.inRange, serves.same, serves.dumpBuffer⟩
  | rreqFbr value =>
    refine ensures_pure ⟨⟨?_, inRange.pendingCount, ?_, inRange.activeRegisters, inRange.activeRegisters⟩, ?_, rfl⟩
    · exact Nat.zero_le _
    · exact Nat.zero_le _
    · refine Prod.ext rfl ?_
      apply Slave.ext
      case transmitLoopback =>
        show (flag (isLoopbackRegister value) != 0) = isLoopbackRegister value
        cases isLoopbackRegister value <;> rfl
      all_goals rfl
  | rreq value =>
    unfold Slave.dataInterrupt Slave.byteReceived
    dsimp only
    split
    case isTrue free =>
      have free' : (v.slave memory).receiveCount < i2cWriteMax := free
      rw [if_pos free']
      refine ensures_store_bind free (ensures_pure ⟨?_, ?_, ?_⟩)
      · refine ⟨?_, inRange.pendingCount, inRange.transmitLength, inRange.activeRegisters,
          inRange.transmitRegisterSnapshot⟩
        dsimp only
        rw [toNat_advance free]
        exact free
      · refine Prod.ext rfl ?_
        apply Slave.ext
        case receiveCount => exact toNat_advance free
        case receiveBuffer =>
          show memory.store .receiveBuffer _ _ .receiveBuffer = _
          rw [Memory.store_same]
          rfl
        all_goals rfl
      · exact Memory.store_of_ne _ _ _ (by decide)
    case isFalse full =>
      have full' : ¬ (v.slave memory).receiveCount < i2cWriteMax := full
      rw [if_neg full']
      refine ensures_pure ⟨?_, rfl, rfl⟩
      exact ⟨inRange.receiveCount, inRange.pendingCount, inRange.transmitLength, inRange.activeRegisters,
        inRange.transmitRegisterSnapshot⟩
  | none => exact ensures_pure ⟨inRange, rfl, rfl⟩

/-- A copy from the start of an array, as the function that it computes. -/
theorem copied_eq {before after : SlaveMemory} {source target : SlaveArray} {place count : Nat}
    (copied : ArrayCode.Copied before source 0 target place count after) :
    after target = copyBytes (before target) place (before source) count := by
  funext i
  rw [copyBytes_apply]
  split
  case isTrue inside =>
    have window := copied.window (i - place) (by omega)
    rw [Nat.zero_add, Nat.add_sub_cancel' inside.1] at window
    exact window
  case isFalse outside => exact copied.outside i (by omega)

theorem ensures_commit (inRange : InRange v) : Ensures SlaveArray.size (commit v) memory fun _ memory' =>
    memory' .loopbackBuffer = (v.slave memory).committed ∧ ∀ other, other ≠ .loopbackBuffer →
      memory' other = memory other := by
  unfold commit Slave.committed
  split
  case isTrue valid =>
    have room := inRange.receiveCount
    have copies := @ensures_copy SlaveArray Byte SlaveArray.size _ .receiveBuffer .loopbackBuffer 0
      (v.registerPointer.toNat - i2cLoopbackRegister) v.receiveCount.toNat memory (by decide) (by rwa [Nat.zero_add])
      (loopback_room valid)
    refine copies.mono fun _ memory' copied => ⟨?_, copied.others⟩
    rw [copied_eq copied]
    exact (if_pos valid).symm
  case isFalse invalid => exact ensures_pure ⟨(if_neg invalid).symm, fun _ _ => rfl⟩

/-- A payload goes into the free slot. -/
theorem ensures_placeWrite (inRange : InRange v) (payload : v.receiveCount ≠ 0) (free : ¬ v.pendingCount ≠ 0) :
    Ensures SlaveArray.size (do
      commit v
      copy .receiveBuffer 0 .pendingBuffer 0 v.receiveCount.toNat
      return { v with
        pendingRegister := v.registerPointer
        pendingCount := v.receiveCount
        pendingDirection := i2cDumpWrite
        receiveCount := 0
        transactionCount := v.transactionCount + 1 }.resetTransmit) memory fun v' memory' =>
    InRange v' ∧ v'.slave memory' = (v.slave memory).stopInterrupt ∧ memory' .dumpBuffer = memory .dumpBuffer := by
  have payload' : (v.slave memory).receiveCount ≠ 0 := toNat_ne_zero.mpr payload
  have free' : (v.slave memory).pendingCount = 0 := not_not.mp (mt toNat_ne_zero.mp free)
  rw [stop_with_payload payload', if_pos free']
  refine (ensures_commit inRange).bind fun _ memory₁ committed => ?_
  have copies :=
    @ensures_copy SlaveArray Byte SlaveArray.size _ .receiveBuffer .pendingBuffer 0 0 v.receiveCount.toNat
      memory₁ (by decide) (by rw [Nat.zero_add]; exact inRange.receiveCount)
      (by rw [Nat.zero_add]; exact inRange.receiveCount)
  refine copies.bind fun _ memory₂ copied => ensures_pure ⟨?_, ?_, ?_⟩
  · exact ⟨Nat.zero_le _, inRange.receiveCount, Nat.zero_le _, inRange.activeRegisters,
      inRange.transmitRegisterSnapshot⟩
  · have kept : ∀ other, other ≠ .loopbackBuffer → other ≠ .pendingBuffer → memory₂ other = memory other :=
      fun other first second => (copied.others other second).trans (committed.2 other first)
    apply Slave.ext
    case pendingBuffer =>
      refine (copied_eq copied).trans ?_
      rw [committed.2 _ (by decide), committed.2 _ (by decide)]
      rfl
    case loopbackBuffer => exact (copied.others _ (by decide)).trans committed.1
    case receiveBuffer => exact kept _ (by decide) (by decide)
    case transmitBuffer => exact kept _ (by decide) (by decide)
    case registers =>
      funext bank
      exact congrArg cut (kept _ (by simp) (by simp))
    all_goals rfl
  · exact (copied.others _ (by decide)).trans (committed.2 _ (by decide))

theorem dumpsRead_iff : (v.slave memory).dumpsRead = true ↔
    v.transmitPointerValid ≠ 0 ∧ v.transmitLength ≠ 0 ∧ v.dumpEnabled ≠ 0 := by
  unfold Slave.dumpsRead
  rw [Bool.and_eq_true, Bool.and_eq_true, and_assoc]
  exact and_congr bne_iff_ne (and_congr (bne_iff_ne.trans toNat_ne_zero) bne_iff_ne)

/-- The bytes that were sent go into the free slot. -/
theorem ensures_placeRead (inRange : InRange v) (none_ : ¬ v.receiveCount ≠ 0)
    (read : v.transmitPointerValid ≠ 0 ∧ v.transmitLength ≠ 0 ∧ v.dumpEnabled ≠ 0) (free : ¬ v.pendingCount ≠ 0) :
    Ensures SlaveArray.size (do
      copy .transmitBuffer 0 .pendingBuffer 0 v.transmitLength.toNat
      return { v with
        pendingRegister := v.transmitStartRegister
        pendingCount := v.transmitLength
        pendingDirection := i2cDumpRead
        transmitLength := 0 }.resetTransmit) memory fun v' memory' =>
    InRange v' ∧ v'.slave memory' = (v.slave memory).stopInterrupt ∧ memory' .dumpBuffer = memory .dumpBuffer := by
  have none' : (v.slave memory).receiveCount = 0 := not_not.mp (mt toNat_ne_zero.mp none_)
  have free' : (v.slave memory).pendingCount = 0 := not_not.mp (mt toNat_ne_zero.mp free)
  rw [stop_empty none', if_pos (dumpsRead_iff.mpr read), if_pos free']
  have copies := @ensures_copy SlaveArray Byte SlaveArray.size _ .transmitBuffer .pendingBuffer 0 0
    v.transmitLength.toNat memory (by decide) (by rw [Nat.zero_add]; exact inRange.transmitLength)
    (by rw [Nat.zero_add]; exact inRange.transmitLength)
  refine copies.bind fun _ memory' copied => ensures_pure ⟨?_, ?_, copied.others _ (by decide)⟩
  · exact ⟨inRange.receiveCount, inRange.transmitLength, Nat.zero_le _, inRange.activeRegisters,
      inRange.transmitRegisterSnapshot⟩
  · apply Slave.ext
    case pendingBuffer => exact copied_eq copied
    case loopbackBuffer => exact copied.others _ (by decide)
    case receiveBuffer => exact copied.others _ (by decide)
    case transmitBuffer => exact copied.others _ (by decide)
    case registers =>
      funext bank
      exact congrArg cut (copied.others _ (by simp))
    all_goals rfl

theorem ensures_stopInterrupt (inRange : InRange v) :
    Ensures SlaveArray.size (stopInterrupt v) memory fun v' memory' =>
    InRange v' ∧ v'.slave memory' = (v.slave memory).stopInterrupt ∧ memory' .dumpBuffer = memory .dumpBuffer := by
  unfold stopInterrupt
  split
  case isTrue payload =>
    split
    case isTrue busy =>
      have payload' : (v.slave memory).receiveCount ≠ 0 := toNat_ne_zero.mpr payload
      have busy' : (v.slave memory).pendingCount ≠ 0 := toNat_ne_zero.mpr busy
      rw [stop_with_payload payload', if_neg busy']
      refine ensures_pure ⟨?_, rfl, rfl⟩
      exact ⟨Nat.zero_le _, inRange.pendingCount, Nat.zero_le _, inRange.activeRegisters,
        inRange.transmitRegisterSnapshot⟩
    case isFalse free => exact ensures_placeWrite inRange payload free
  case isFalse none_ =>
    have none' : (v.slave memory).receiveCount = 0 := not_not.mp (mt toNat_ne_zero.mp none_)
    split
    case isTrue read =>
      split
      case isTrue busy =>
        have busy' : (v.slave memory).pendingCount ≠ 0 := toNat_ne_zero.mpr busy
        rw [stop_empty none', if_pos (dumpsRead_iff.mpr read), if_neg busy']
        refine ensures_pure ⟨?_, rfl, rfl⟩
        exact ⟨inRange.receiveCount, inRange.pendingCount, Nat.zero_le _, inRange.activeRegisters,
          inRange.transmitRegisterSnapshot⟩
      case isFalse free => exact ensures_placeRead inRange none_ read free
    case isFalse silent =>
      rw [stop_empty none', if_neg (mt dumpsRead_iff.mp silent)]
      refine ensures_pure ⟨?_, rfl, rfl⟩
      exact ⟨inRange.receiveCount, inRange.pendingCount, Nat.zero_le _, inRange.activeRegisters,
        inRange.transmitRegisterSnapshot⟩

theorem ensures_handleInterrupt (inRange : InRange v) (flags : Interrupt) : Ensures SlaveArray.size
    (handleInterrupt flags v)
    memory fun ran memory' => Serves memory (i2cInterruptHandler flags (v.slave memory)) ran memory' := by
  obtain ⟨data, stop⟩ := flags
  have stopPart : ∀ expected ran memory', Serves memory expected ran memory' →
      Ensures SlaveArray.size (if stop then do
          let v ← stopInterrupt ran.2
          return (ran.1, v)
        else return (ran.1, ran.2)) memory' fun ran memory' =>
        Serves memory (expected.1, if stop then expected.2.stopInterrupt else expected.2) ran memory' := by
    intro expected ran memory' serves
    rw [← serves.same]
    cases stop with
    | false => exact ensures_pure ⟨serves.inRange, rfl, serves.dumpBuffer⟩
    | true =>
      refine (ensures_stopInterrupt serves.inRange).bind fun v' memory₂ stopped => ?_
      exact ensures_pure ⟨stopped.1, Prod.ext rfl stopped.2.1, stopped.2.2.trans serves.dumpBuffer⟩
  cases data with
  | none => exact ensures_pure_bind (stopPart (none, v.slave memory) (none, v) memory ⟨inRange, rfl, rfl⟩)
  | some act =>
    exact (ensures_dataInterrupt inRange act).bind fun ran memory' serves => stopPart _ ran memory' serves

end Cc1310Firmware.I2cSlave.Arrays
