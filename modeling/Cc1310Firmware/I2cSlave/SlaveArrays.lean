import Cc1310Firmware.Programs.ArrayCode
import Cc1310Firmware.Cli.Uart
import Cc1310Firmware.I2cSlave.System

/-! The handler and the worker with the uint8_t variables of the source and every
access to their arrays.
-/

set_option autoImplicit false

namespace Cc1310Firmware.I2cSlave.Arrays
open LittleEndian ArrayCode

/-- The arrays: each row of registers, the buffers of the handler and those of the worker. -/
inductive SlaveArray where
  | registers (row : Nat)
  | receiveBuffer
  | transmitBuffer
  | loopbackBuffer
  | pendingBuffer
  | dumpBuffer
  | dumpMessage
  deriving DecidableEq, Repr

def dumpMessageSize : Nat := 192

def SlaveArray.size : SlaveArray → Nat
  | .registers row => if row < 2 then i2cRegisterCount else 0
  | .receiveBuffer => i2cWriteMax
  | .transmitBuffer | .pendingBuffer | .dumpBuffer => i2cWriteMax
  | .loopbackBuffer => i2cLoopbackSize
  | .dumpMessage => dumpMessageSize

abbrev SlaveMemory := Memory SlaveArray Byte
abbrev SlaveCode := Code SlaveArray Byte

def i2cDumpWrite : Byte := 1
def i2cDumpRead : Byte := 2

/-- The variables of i2c_slave.c that are no arrays. -/
structure Variables where
  activeRegisters : Byte
  registerPointer : Byte
  receiveCount : Byte
  pendingRegister : Byte
  pendingCount : Byte
  pendingDirection : Byte
  transmitRegisters : Byte
  transmitStartRegister : Byte
  transmitRegisterSnapshot : Byte
  transmitPointerValid : Byte
  transmitLoopback : Byte
  transmitLength : Byte
  transactionCount : Word
  errorCount : Word
  dumpEnabled : Byte
  currentRole : FirmwareRole
  firmwareVersionCode : Word
  deriving DecidableEq, Repr

/-- A test of the source as a value. -/
def flag (test : Bool) : Byte := if test then 1 else 0

/-! ### The interrupt handler -/

/-- transmitRegisters after `if (transmitRegisters > 1U) transmitRegisters = transmitRegisterSnapshot;` -/
def Variables.row (v : Variables) : Byte :=
  if 1 < v.transmitRegisters.toNat then v.transmitRegisterSnapshot else v.transmitRegisters

/-- The value for a request with a valid pointer, behind which the pointer moves on. -/
def transmitValue (v : Variables) : SlaveCode (Byte × Variables) :=
  if v.transmitLoopback ≠ 0 then do
    let value ← if isLoopbackRegister v.registerPointer then
      load .loopbackBuffer (v.registerPointer.toNat - i2cLoopbackRegister) else pure 0
    return (value, { v with registerPointer := v.registerPointer + 1 })
  else do
    let value ← load (.registers v.row.toNat) (v.registerPointer &&& 63).toNat
    return (value, { v with transmitRegisters := v.row, registerPointer := v.registerPointer + 1 })

def transmitRequest (v : Variables) : SlaveCode (Byte × Variables) :=
  if v.transmitPointerValid ≠ 0 then do
    let transmitOffset := (v.registerPointer - v.transmitStartRegister) &&& 63
    let (value, v) ← transmitValue v
    store .transmitBuffer transmitOffset.toNat value
    return (value, { v with
      transmitLength :=
        if v.transmitLength.toNat ≤ transmitOffset.toNat then transmitOffset + 1 else v.transmitLength })
  else return (0, v)

def dataInterrupt (v : Variables) : SlaveAct → SlaveCode (Option Byte × Variables)
  | .treq => do
    let (value, v) ← transmitRequest v
    return (some value, v)
  | .rreqFbr value => return (none, { v with
      registerPointer := value
      receiveCount := 0
      transmitRegisters := 0xFF
      transmitStartRegister := value
      transmitRegisterSnapshot := v.activeRegisters
      transmitPointerValid := 1
      transmitLoopback := flag (isLoopbackRegister value)
      transmitLength := 0 })
  | .rreq value =>
    if v.receiveCount.toNat < i2cWriteMax then do
      store .receiveBuffer v.receiveCount.toNat value
      return (none, { v with receiveCount := v.receiveCount + 1 })
    else return (none, { v with errorCount := v.errorCount + 1 })
  | .none => return (none, v)

/-- The last assignments of a STOP. -/
def Variables.resetTransmit (v : Variables) : Variables :=
  { v with
    transmitRegisters := 0xFF
    transmitPointerValid := 0
    transmitLoopback := 0
    transmitLength := 0 }

/-- A payload for the loopback window. -/
def commit (v : Variables) : SlaveCode Unit :=
  if isLoopbackWrite v.registerPointer v.receiveCount.toNat then
    copy .receiveBuffer 0 .loopbackBuffer (v.registerPointer.toNat - i2cLoopbackRegister) v.receiveCount.toNat
  else pure ()

def stopInterrupt (v : Variables) : SlaveCode Variables :=
  if v.receiveCount ≠ 0 then
    if v.pendingCount ≠ 0 then return { v with errorCount := v.errorCount + 1, receiveCount := 0 }.resetTransmit
    else do
      commit v
      copy .receiveBuffer 0 .pendingBuffer 0 v.receiveCount.toNat
      return { v with
        pendingRegister := v.registerPointer
        pendingCount := v.receiveCount
        pendingDirection := i2cDumpWrite
        receiveCount := 0
        transactionCount := v.transactionCount + 1 }.resetTransmit
  else if v.transmitPointerValid ≠ 0 ∧ v.transmitLength ≠ 0 ∧ v.dumpEnabled ≠ 0 then
    if v.pendingCount ≠ 0 then return { v with errorCount := v.errorCount + 1 }.resetTransmit
    else do
      copy .transmitBuffer 0 .pendingBuffer 0 v.transmitLength.toNat
      return { v with
        pendingRegister := v.transmitStartRegister
        pendingCount := v.transmitLength
        pendingDirection := i2cDumpRead
        transmitLength := 0 }.resetTransmit
  else return v.resetTransmit

/-- The DATA part. -/
def dataPart (v : Variables) : Option SlaveAct → SlaveCode (Option Byte × Variables)
  | some act => dataInterrupt v act
  | none => pure (none, v)

/-- i2cInterruptHandler -/
def handleInterrupt (flags : Interrupt) (v : Variables) : SlaveCode (Option Byte × Variables) := do
  let (supplied, v) ← dataPart v flags.data
  if flags.stop then
    let v ← stopInterrupt v
    return (supplied, v)
  else return (supplied, v)

/-! ### The worker -/

/-- The local variables of i2c_slave_thread, but for its array. -/
structure Locals where
  statement : WorkerStatement
  dumpCount : Byte
  dumpRegister : Byte
  dumpDirection : Byte
  index : Byte
  deriving DecidableEq, Repr

/-- writeUint32Le -/
def storeUint32Le (array : SlaveArray) (place : Nat) (value : Word) : SlaveCode Unit :=
  storeAll array place ((List.range 4).map (byteOf value))

/-- The stores of publishRegisters. -/
def fillBank (row : SlaveArray) (ticks : Word) (v : Variables) : SlaveCode Unit := do
  storeAll row 0 (List.replicate i2cRegisterCount 0)
  storeAll row 0 [0x49, 0x32, 0x43, 0x53, 1]
  storeUint32Le row 5 v.firmwareVersionCode
  store row 9 v.currentRole.code
  storeUint32Le row 10 v.transactionCount
  storeUint32Le row 14 v.errorCount
  storeUint32Le row 18 ticks

def publishRegisters (ticks : Word) (v : Variables) : SlaveCode Variables := do
  let inactive := v.activeRegisters ^^^ 1
  fillBank (.registers inactive.toNat) ticks v
  return { v with activeRegisters := inactive }

/-- The loop over dumpBuffer: two characters for each byte, and the length of the text then. -/
def dumpBytes : Nat → Nat → Nat → SlaveCode Nat
  | 0, _, length => pure length
  | count + 1, index, length => do
    store .dumpMessage length (BitVec.ofNat 8 (hexDigit ((← load .dumpBuffer index) >>> 4)).toNat)
    store .dumpMessage (length + 1) (BitVec.ofNat 8 (hexDigit (← load .dumpBuffer index)).toNat)
    dumpBytes count (index + 1) (length + 2)

/-- `dumpMessage[length++] = …` for each character. -/
def append (characters : List Byte) (length : Nat) : SlaveCode Nat := do
  storeAll .dumpMessage length characters
  return length + characters.length

/-- The C string at dumpMessage, as cli_ok reads it. The array is shorter than the bound, so
that reading on to it leaves the array. -/
def readMessage : Nat → Nat → SlaveCode (List Byte)
  | 0, _ => pure []
  | bound + 1, index => do
    let character ← load .dumpMessage index
    if character = 0 then return []
    else return character :: (← readMessage bound (index + 1))

/-- The text of a record, and what cli_ok gets. -/
def dumpRecord (w : Locals) : SlaveCode (List Byte) := do
  let length ← append (Cli.text (if w.dumpDirection = i2cDumpRead then "ipc read reg=0x" else "ipc write reg=0x")) 0
  let length ← append (Cli.characters (hexByte w.dumpRegister)) length
  let length ← append (Cli.text " len=") length
  let length ← append (Cli.characters (countDigits w.dumpCount.toNat)) length
  let length ← append (Cli.text " data=") length
  let length ← dumpBytes w.dumpCount.toNat 0 length
  store .dumpMessage length 0
  readMessage 256 0

/-- The clear command is in the slot. -/
def clearCommand (direction : Byte) (v : Variables) : SlaveCode Bool :=
  if direction = i2cDumpWrite ∧ v.pendingRegister = i2cCommandRegister ∧ v.pendingCount = 1 then do
    return (← load .pendingBuffer 0) == i2cCommandClearStats
  else return false

/-- One statement of i2c_slave_thread. -/
def workerCode (ticks : Word) (w : Locals) (v : Variables) : SlaveCode (Option (List Byte) × Locals × Variables) :=
  match w.statement with
  | .semaphorePend => return (none, { w with statement := .readCount }, v)
  | .readCount => return (none, { w with statement := .readRegister, dumpCount := v.pendingCount }, v)
  | .readRegister => return (none, { w with statement := .readDirection, dumpRegister := v.pendingRegister }, v)
  | .readDirection =>
    return (none, { w with statement := .copyByte, dumpDirection := v.pendingDirection, index := 0 }, v)
  | .copyByte =>
    if w.index.toNat < w.dumpCount.toNat then do
      store .dumpBuffer w.index.toNat (← load .pendingBuffer w.index.toNat)
      return (none, { w with index := w.index + 1 }, v)
    else return (none, { w with statement := .testCommand }, v)
  | .testCommand => do
    let clear ← clearCommand w.dumpDirection v
    return (none, { w with statement := if clear then .clearTransactions else .testWrite }, v)
  | .testWrite =>
    let rejected := decide (w.dumpDirection = i2cDumpWrite) && v.pendingCount != 0 &&
      !isLoopbackWrite w.dumpRegister w.dumpCount.toNat
    return (none, { w with statement := if rejected then .countError else .releaseSlot }, v)
  | .clearTransactions => return (none, { w with statement := .clearErrors }, { v with transactionCount := 0 })
  | .clearErrors => return (none, { w with statement := .releaseSlot }, { v with errorCount := 0 })
  | .countError => return (none, { w with statement := .releaseSlot }, { v with errorCount := v.errorCount + 1 })
  | .releaseSlot => return (none, { w with statement := .resetTransmit }, { v with pendingCount := 0 })
  | .resetTransmit => return (none, { w with statement := .publish }, { v with transmitRegisters := 0xFF })
  | .publish => do
    let v ← publishRegisters ticks v
    return (none, { w with statement := .dump }, v)
  | .dump =>
    if v.dumpEnabled ≠ 0 ∧ w.dumpCount ≠ 0 then do
      let message ← dumpRecord w
      return (some message, { w with statement := .semaphorePend }, v)
    else return (none, { w with statement := .semaphorePend }, v)

/-! ### The whole program -/

/-- What one input does: a byte for the master, a line for the CLI, and the variables it leaves. -/
structure Effect where
  supplied : Option Byte
  printed : Option (List Byte)
  shared : Variables
  own : Locals
  deriving DecidableEq, Repr

def execute (v : Variables) (w : Locals) : Input → SlaveCode Effect
  | .interrupt flags => do
    let (supplied, v) ← handleInterrupt flags v
    return ⟨supplied, none, v, w⟩
  | .worker ticks => do
    let (printed, w, v) ← workerCode ticks w v
    return ⟨none, printed, v, w⟩
  | .ipcDump on => return ⟨none, none, { v with dumpEnabled := flag on }, w⟩

/-- The inputs in order, with the effect of each. -/
def executeAll : List Input → Variables → Locals → SlaveCode (List Effect × Variables × Locals)
  | [], v, w => pure ([], v, w)
  | input :: rest, v, w => do
    let effect ← execute v w input
    let (effects, v, w) ← executeAll rest effect.shared effect.own
    return (effect :: effects, v, w)

/-- The variables when i2c_slave_start calls publishRegisters. -/
def Variables.cleared (role : FirmwareRole) (firmwareVersionCode : Word) : Variables :=
  ⟨0, 0, 0, 0, 0, 0, 0xFF, 0, 0, 0, 0, 0, 0, 0, 0, role, firmwareVersionCode⟩

/-- i2c_slave_start, then the inputs. -/
def program (role : FirmwareRole) (firmwareVersionCode ticks : Word) (w : Locals) (inputs : List Input) :
    SlaveCode (List Effect × Variables × Locals) := do
  let v ← publishRegisters ticks (.cleared role firmwareVersionCode)
  executeAll inputs v { w with statement := .semaphorePend }

end Cc1310Firmware.I2cSlave.Arrays
