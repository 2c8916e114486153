import Cc1310Firmware.Codec.LittleEndian
import Mathlib.Logic.Function.Basic

/-! The I2C slave: the variables that the interrupt handler shares with the
worker, the handler, and the worker loop statement by statement.

The uint8_t counts stay within 64 by the tests in the code and are natural
numbers here; the register pointer wraps and is a byte. A bank of status
registers is named by the value of activeRegisters, `false` for 0.
-/

set_option autoImplicit false

namespace Cc1310Firmware.I2cSlave
open LittleEndian

abbrev Word := BitVec 32
abbrev Buffer := Nat → Byte

/-- The first `count` bytes. -/
def Buffer.take (buffer : Buffer) (count : Nat) : List Byte := (List.range count).map buffer

/-- `for (index = 0; index < count; ++index) destination[offset + index] = source[index];` -/
def copyBytes (destination : Buffer) (offset : Nat) (source : Buffer) : Nat → Buffer
  | 0 => destination
  | count + 1 => Function.update (copyBytes destination offset source count) (offset + count) (source count)

def i2cRegisterCount : Nat := 64
def i2cWriteMax : Nat := i2cRegisterCount
def i2cCommandRegister : Byte := 0x40
def i2cCommandClearStats : Byte := 0x01
def i2cLoopbackRegister : Nat := 0x80
def i2cLoopbackSize : Nat := 64

inductive FirmwareRole where
  | unset
  | rx
  | tx
  deriving DecidableEq, Repr

def FirmwareRole.code : FirmwareRole → Byte
  | .unset => 0
  | .rx => 1
  | .tx => 2

/-- I2C_DUMP_WRITE and I2C_DUMP_READ; zero before the first record. -/
inductive DumpDirection where
  | unset
  | write
  | read
  deriving DecidableEq, Repr

structure Slave where
  registers : Bool → Buffer
  activeRegisters : Bool
  registerPointer : Byte
  receiveCount : Nat
  receiveBuffer : Buffer
  pendingRegister : Byte
  pendingCount : Nat
  pendingBuffer : Buffer
  pendingDirection : DumpDirection
  /-- `none` for 0xFF. -/
  transmitRegisters : Option Bool
  transmitStartRegister : Byte
  transmitRegisterSnapshot : Bool
  transmitPointerValid : Bool
  transmitLoopback : Bool
  transmitLength : Nat
  transmitBuffer : Buffer
  loopbackBuffer : Buffer
  transactionCount : Word
  errorCount : Word
  dumpEnabled : Bool
  currentRole : FirmwareRole
  /-- FIRMWARE_VERSION_CODE, a constant of the build. -/
  firmwareVersionCode : Word

/-- `startRegister` is in 0x80..0xBF. -/
def isLoopbackRegister (startRegister : Byte) : Bool :=
  decide (i2cLoopbackRegister ≤ startRegister.toNat) &&
  decide (startRegister.toNat < i2cLoopbackRegister + i2cLoopbackSize)

def isLoopbackWrite (startRegister : Byte) (length : Nat) : Bool :=
  isLoopbackRegister startRegister &&
  decide (length ≤ i2cLoopbackSize - (startRegister.toNat - i2cLoopbackRegister))

def writeUint32Le (destination : Buffer) (offset : Nat) (value : Word) : Buffer :=
  copyBytes destination offset (byteOf value) 4

/-- The bank that publishRegisters fills. -/
def Slave.bank (s : Slave) (ticks : Word) : Buffer :=
  let cleared : Buffer := fun _ => 0
  let magic := Function.update (Function.update (Function.update (Function.update cleared 0 0x49) 1 0x32) 2 0x43) 3 0x53
  let version := writeUint32Le (Function.update magic 4 1) 5 s.firmwareVersionCode
  let role := Function.update version 9 s.currentRole.code
  writeUint32Le (writeUint32Le (writeUint32Le role 10 s.transactionCount) 14 s.errorCount) 18 ticks

/-- `ticks` is the value of Clock_getTicks(). -/
def Slave.publishRegisters (s : Slave) (ticks : Word) : Slave :=
  let inactive := !s.activeRegisters
  { s with
    registers := Function.update s.registers inactive (s.bank ticks)
    activeRegisters := inactive }

/-! ## The interrupt handler -/

/-- The value of I2CSlaveStatus, with the byte that I2CSlaveDataGet returns. -/
inductive SlaveAct where
  | none
  | treq
  | rreqFbr (value : Byte)
  | rreq (value : Byte)
  deriving DecidableEq, Repr

/-- The flags that raised the interrupt. -/
structure Interrupt where
  /-- I2C_SLAVE_INT_DATA -/
  data : Option SlaveAct
  /-- I2C_SLAVE_INT_STOP -/
  stop : Bool
  deriving DecidableEq, Repr

def Slave.transmitOffset (s : Slave) : Nat := ((s.registerPointer - s.transmitStartRegister) &&& 63).toNat

/-- The bank that a status read takes its bytes from. -/
def Slave.transmitBank (s : Slave) : Bool := s.transmitRegisters.getD s.transmitRegisterSnapshot

/-- The value a transmit request with a valid pointer supplies. -/
def Slave.transmitValue (s : Slave) : Byte :=
  if s.transmitLoopback then
    if isLoopbackRegister s.registerPointer then s.loopbackBuffer (s.registerPointer.toNat - i2cLoopbackRegister)
    else 0
  else s.registers s.transmitBank (s.registerPointer &&& 63).toNat

def Slave.transmitRequest (s : Slave) : Byte × Slave :=
  if s.transmitPointerValid then
    (s.transmitValue, { s with
      registerPointer := s.registerPointer + 1
      transmitRegisters := if s.transmitLoopback then s.transmitRegisters else some s.transmitBank
      transmitBuffer := Function.update s.transmitBuffer s.transmitOffset s.transmitValue
      transmitLength := if s.transmitLength ≤ s.transmitOffset then s.transmitOffset + 1 else s.transmitLength })
  -- the one-byte receive of an I2C scan
  else (0, s)

def Slave.firstByteReceived (s : Slave) (value : Byte) : Slave :=
  { s with
    registerPointer := value
    receiveCount := 0
    transmitRegisters := none
    transmitStartRegister := value
    transmitRegisterSnapshot := s.activeRegisters
    transmitPointerValid := true
    transmitLoopback := isLoopbackRegister value
    transmitLength := 0 }

def Slave.byteReceived (s : Slave) (value : Byte) : Slave :=
  if s.receiveCount < i2cWriteMax then
    { s with
      receiveBuffer := Function.update s.receiveBuffer s.receiveCount value
      receiveCount := s.receiveCount + 1 }
  else { s with errorCount := s.errorCount + 1 }

/-- The DATA part of i2cInterruptHandler, with the byte for I2CSlaveDataPut. -/
def Slave.dataInterrupt (s : Slave) : SlaveAct → Option Byte × Slave
  | .treq => (some s.transmitRequest.1, s.transmitRequest.2)
  | .rreqFbr value => (none, s.firstByteReceived value)
  | .rreq value => (none, s.byteReceived value)
  | .none => (none, s)

def Slave.resetTransmit (s : Slave) : Slave :=
  { s with
    transmitRegisters := none
    transmitPointerValid := false
    transmitLoopback := false
    transmitLength := 0 }

/-- loopbackBuffer after the payload of a completed write. -/
def Slave.committed (s : Slave) : Buffer :=
  if isLoopbackWrite s.registerPointer s.receiveCount then
    copyBytes s.loopbackBuffer (s.registerPointer.toNat - i2cLoopbackRegister) s.receiveBuffer s.receiveCount
  else s.loopbackBuffer

/-- A completed payload write in the free slot. -/
def Slave.placeWrite (s : Slave) : Slave :=
  { s with
    loopbackBuffer := s.committed
    pendingRegister := s.registerPointer
    pendingCount := s.receiveCount
    pendingDirection := .write
    pendingBuffer := copyBytes s.pendingBuffer 0 s.receiveBuffer s.receiveCount
    receiveCount := 0
    transactionCount := s.transactionCount + 1 }

/-- The capture of a dumped read in the free slot. -/
def Slave.placeRead (s : Slave) : Slave :=
  { s with
    pendingRegister := s.transmitStartRegister
    pendingCount := s.transmitLength
    pendingDirection := .read
    pendingBuffer := copyBytes s.pendingBuffer 0 s.transmitBuffer s.transmitLength
    transmitLength := 0 }

/-- STOP ends a read whose bytes are to be dumped. -/
def Slave.dumpsRead (s : Slave) : Bool := s.transmitPointerValid && s.transmitLength != 0 && s.dumpEnabled

/-- The STOP part of i2cInterruptHandler. -/
def Slave.stopInterrupt (s : Slave) : Slave :=
  if s.receiveCount != 0 then
    if s.pendingCount != 0 then { s with errorCount := s.errorCount + 1, receiveCount := 0 }.resetTransmit
    else s.placeWrite.resetTransmit
  else if s.dumpsRead then
    if s.pendingCount != 0 then { s with errorCount := s.errorCount + 1 }.resetTransmit
    else s.placeRead.resetTransmit
  else s.resetTransmit

def i2cInterruptHandler (flags : Interrupt) (s : Slave) : Option Byte × Slave :=
  let (supplied, s) := match flags.data with
    | some act => s.dataInterrupt act
    | none => (none, s)
  (supplied, if flags.stop then s.stopInterrupt else s)

/-! ## The worker -/

def hexDigit (value : Byte) : Char :=
  let digit := (value &&& 0x0F).toNat
  if digit < 10 then Char.ofNat ('0'.toNat + digit) else Char.ofNat ('a'.toNat + digit - 10)

def hexByte (value : Byte) : List Char := [hexDigit (value >>> 4), hexDigit value]

/-- The decimal digits of a count below 100. -/
def countDigits (count : Nat) : List Char :=
  (if 10 ≤ count then [Char.ofNat ('0'.toNat + count / 10)] else []) ++ [Char.ofNat ('0'.toNat + count % 10)]

/-- dumpMessage, the text that the worker hands to cli_ok. -/
def dumpMessage (direction : DumpDirection) (register : Byte) (data : List Byte) : List Char :=
  (if direction = .read then "ipc read reg=0x".toList else "ipc write reg=0x".toList) ++ hexByte register ++
  " len=".toList ++ countDigits data.length ++ " data=".toList ++ data.flatMap hexByte

/-- The next statement of i2c_slave_thread. -/
inductive WorkerStatement where
  | semaphorePend
  | readCount
  | readRegister
  | readDirection
  | copyByte
  | testCommand
  | testWrite
  | clearTransactions
  | clearErrors
  | countError
  | releaseSlot
  | resetTransmit
  | publish
  | dump
  deriving DecidableEq, Repr

/-- The local variables of i2c_slave_thread. -/
structure Worker where
  statement : WorkerStatement
  dumpCount : Nat
  dumpRegister : Byte
  dumpDirection : DumpDirection
  dumpBuffer : Buffer
  index : Nat

/-- The slot holds the clear command. -/
def Slave.isClearCommand (s : Slave) (direction : DumpDirection) : Bool :=
  decide (direction = .write) && s.pendingRegister == i2cCommandRegister && s.pendingCount == 1 &&
  s.pendingBuffer 0 == i2cCommandClearStats

/-- One statement of i2c_slave_thread. Semaphore_pend returns after a post or
after 100 ticks, so the worker can go on from it at any time. -/
def workerStatement (ticks : Word) (w : Worker) (s : Slave) : Option (List Char) × Worker × Slave :=
  match w.statement with
  | .semaphorePend => (none, { w with statement := .readCount }, s)
  | .readCount => (none, { w with statement := .readRegister, dumpCount := s.pendingCount }, s)
  | .readRegister => (none, { w with statement := .readDirection, dumpRegister := s.pendingRegister }, s)
  | .readDirection => (none, { w with statement := .copyByte, dumpDirection := s.pendingDirection, index := 0 }, s)
  | .copyByte =>
    if w.index < w.dumpCount then
      (none, { w with
        dumpBuffer := Function.update w.dumpBuffer w.index (s.pendingBuffer w.index)
        index := w.index + 1 }, s)
    else (none, { w with statement := .testCommand }, s)
  | .testCommand =>
    (none, { w with statement := if s.isClearCommand w.dumpDirection then .clearTransactions else .testWrite }, s)
  | .testWrite =>
    let rejected :=
      decide (w.dumpDirection = .write) && s.pendingCount != 0 && !isLoopbackWrite w.dumpRegister w.dumpCount
    (none, { w with statement := if rejected then .countError else .releaseSlot }, s)
  | .clearTransactions => (none, { w with statement := .clearErrors }, { s with transactionCount := 0 })
  | .clearErrors => (none, { w with statement := .releaseSlot }, { s with errorCount := 0 })
  | .countError => (none, { w with statement := .releaseSlot }, { s with errorCount := s.errorCount + 1 })
  | .releaseSlot => (none, { w with statement := .resetTransmit }, { s with pendingCount := 0 })
  | .resetTransmit => (none, { w with statement := .publish }, { s with transmitRegisters := none })
  | .publish => (none, { w with statement := .dump }, s.publishRegisters ticks)
  | .dump =>
    (if s.dumpEnabled && w.dumpCount != 0 then
      some (dumpMessage w.dumpDirection w.dumpRegister (w.dumpBuffer.take w.dumpCount)) else none,
      { w with statement := .semaphorePend }, s)

/-- What the worker does with the record in the slot. -/
def Slave.recordHandled (s : Slave) : Slave :=
  if s.isClearCommand s.pendingDirection then { s with transactionCount := 0, errorCount := 0 }
  else if decide (s.pendingDirection = .write) && s.pendingCount != 0 &&
    !isLoopbackWrite s.pendingRegister s.pendingCount then
    { s with errorCount := s.errorCount + 1 }
  else s

/-- A whole iteration of i2c_slave_thread that no interrupt cuts into. -/
def workerIteration (ticks : Word) (s : Slave) : Option (List Char) × Slave :=
  (if s.dumpEnabled && s.pendingCount != 0 then
    some (dumpMessage s.pendingDirection s.pendingRegister (s.pendingBuffer.take s.pendingCount)) else none,
    { s.recordHandled with pendingCount := 0, transmitRegisters := none }.publishRegisters ticks)

/-! ## Start -/

/-- The variables after reset. -/
def Slave.cleared (role : FirmwareRole) (firmwareVersionCode : Word) : Slave where
  registers := fun _ _ => 0
  activeRegisters := false
  registerPointer := 0
  receiveCount := 0
  receiveBuffer := fun _ => 0
  pendingRegister := 0
  pendingCount := 0
  pendingBuffer := fun _ => 0
  pendingDirection := .unset
  transmitRegisters := none
  transmitStartRegister := 0
  transmitRegisterSnapshot := false
  transmitPointerValid := false
  transmitLoopback := false
  transmitLength := 0
  transmitBuffer := fun _ => 0
  loopbackBuffer := fun _ => 0
  transactionCount := 0
  errorCount := 0
  dumpEnabled := false
  currentRole := role
  firmwareVersionCode := firmwareVersionCode

/-- The slave when i2c_slave_start has enabled its interrupt. -/
def i2cSlaveStart (role : FirmwareRole) (firmwareVersionCode ticks : Word) : Slave :=
  (Slave.cleared role firmwareVersionCode).publishRegisters ticks

end Cc1310Firmware.I2cSlave
