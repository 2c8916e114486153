import Cc1310Firmware.Bootloader.Protocol
import Cc1310Firmware.Cli.Uart

/-! The transmitter, from firmware_tx.c, and the CLI in the TX role.

The radio driver and the clock are outside: the constants of RF_runCmd are parameters,
and what a call returns is part of the surroundings of a command. The pulse on DIO1 is
enabled, as it is by default.
-/

set_option autoImplicit false

namespace Cc1310Firmware.Radio
open Cli LittleEndian
open Bootloader (Half)

/-- PAYLOAD_LENGTH -/
def txPayloadLength : Nat := 30

def syncPacketMagic : Half := 0x5359
def syncPacketTypeTime : Byte := 0x01
def syncPacketTypeFrame : Byte := 0x02
def syncPacketSiteId : Half := 0x0000
def syncPacketSessionId : Byte := 0x00
def syncPacketHeaderLength : Byte := 8
def syncPacketCrcLength : Nat := 2
def syncTimePayloadLength : Byte := 8
def syncFramePayloadLength : Byte := 4
def txCliLineLength : Nat := 64

/-- The array that processSyncCommand formats its answer in. -/
def responseLength : Nat := 64

/-- The results of the radio driver that mean success. -/
structure RadioDriver where
  rfEventLastCmdDone : BitVec 64
  propDoneOk : Word

/-- What a command meets: its array of the stack, the clock when a byte of the packet is
filled, and what the radio reports. -/
structure Surroundings where
  stack : List Byte
  size : stack.length = txCliLineLength
  clockTicks : Nat → Word
  reason : BitVec 64
  status : Word

/-- The static variables. -/
structure Transmitter where
  packet : List Byte
  size : packet.length = txPayloadLength
  syncSequence : Byte
  randomState : Word

def Transmitter.start : Transmitter where
  packet := List.replicate txPayloadLength 0
  size := List.length_replicate
  syncSequence := 0
  randomState := 0x4A3B2C1D

/-- The handlers in the table of cli_task_cc1310.c. -/
inductive RuntimeHandler where
  | txCommand
  | bootloaderCommand
  | versionCommand
  | i2cSlaveCliCommand
  | stackCommand

/-- What a command does to the outside. The other handlers stand for themselves. -/
inductive TxEvent where
  | write (data : List Byte)
  | dio1 (high : Bool)
  | runCmd (packet : List Byte)
  | call (handler : RuntimeHandler) (argv : List (List Byte))

/-! ### The packet -/

/-- packet[index] = byte -/
def Transmitter.store (tx : Transmitter) (index : Nat) (byte : Byte) : Transmitter :=
  { tx with
    packet := tx.packet.set index byte
    size := List.length_set.trans tx.size }

/-- memcpy(&packet[index], data, ...) -/
def Transmitter.storeAll (tx : Transmitter) (index : Nat) : List Byte → Transmitter
  | [] => tx
  | byte :: rest => (tx.store index byte).storeAll (index + 1) rest

-- The same function as that of the updater.
def calculateCrc16 (data : List Byte) (length : Nat) : Half := Bootloader.calculateCrc16 (data.take length)

def Transmitter.setRandomState (tx : Transmitter) (randomState : Word) : Transmitter := { tx with randomState }

/-- The next state and the byte; `ticks` is what Clock_getTicks returns. -/
def Transmitter.nextRandomByte (tx : Transmitter) (ticks : Word) : Transmitter × Byte :=
  let randomState := tx.randomState * 1664525 + 1013904223 + ticks
  (tx.setRandomState randomState, byteOf randomState 3)

/-- The bytes from `destination` on. -/
def writeUint32Be (value : Word) : List Byte := [byteOf value 3, byteOf value 2, byteOf value 1, byteOf value 0]

/-- The bytes from `destination` on. -/
def writeUint64Be (value : BitVec 64) : List Byte :=
  (List.range syncTimePayloadLength.toNat).map fun index => byteOf value (7 - index)

/-- `count` rounds of the loop that fills the reserved bytes. -/
def Transmitter.fill (clockTicks : Nat → Word) : Nat → Nat → Transmitter → Transmitter
  | 0, _, tx => tx
  | count + 1, index, tx =>
    let random := tx.nextRandomByte (clockTicks index)
    fill clockTicks count (index + 1) (random.1.store index random.2)

/-- The assignments in front of memcpy. -/
def Transmitter.writeHeader (tx : Transmitter) (type payloadLength : Byte) : Transmitter :=
  let tx := tx.store 0 (byteOf syncPacketMagic 1)
  let tx := tx.store 1 (byteOf syncPacketMagic 0)
  let tx := tx.store 2 type
  let tx := tx.store 3 payloadLength
  let tx := tx.store 4 (byteOf syncPacketSiteId 1)
  let tx := tx.store 5 (byteOf syncPacketSiteId 0)
  let tx := tx.store 6 tx.syncSequence
  let tx := { tx with syncSequence := tx.syncSequence + 1 }
  tx.store 7 syncPacketSessionId

/-- The checksum and its two bytes. -/
def Transmitter.writeCrc (tx : Transmitter) : Transmitter :=
  let crc := calculateCrc16 tx.packet (txPayloadLength - syncPacketCrcLength)
  let tx := tx.store (txPayloadLength - 2) (byteOf crc 1)
  tx.store (txPayloadLength - 1) (byteOf crc 0)

def Transmitter.buildSyncPacket (tx : Transmitter) (clockTicks : Nat → Word) (type : Byte) (payload : List Byte)
    (payloadLength : Byte) : Transmitter :=
  let tx := tx.writeHeader type payloadLength
  let tx := tx.storeAll syncPacketHeaderLength.toNat (payload.take payloadLength.toNat)
  let index := (syncPacketHeaderLength + payloadLength).toNat
  let tx := fill clockTicks (txPayloadLength - syncPacketCrcLength - index) index tx
  tx.writeCrc

/-! ### The number of a command -/

def parseHexDigit (c : Byte) : Option Byte :=
  if 0x30 ≤ c ∧ c ≤ 0x39 then some (c - 0x30)
  else if 0x61 ≤ c ∧ c ≤ 0x66 then some (c - 0x61 + 10)
  else if 0x41 ≤ c ∧ c ≤ 0x46 then some (c - 0x41 + 10)
  else none

/-- The loop of parseHexUint64 with its `result` and `digits`. -/
def parseHexDigits (maximumDigits : Byte) : List Byte → BitVec 64 → Byte → Option (BitVec 64 × Byte)
  | [], result, digits => some (result, digits)
  | c :: text, result, digits =>
    match parseHexDigit c with
    | none => none
    | some digit =>
      if digits = maximumDigits then none
      else parseHexDigits maximumDigits text (result <<< 4 ||| digit.setWidth 64) (digits + 1)

/-- The text behind an 0x or 0X. -/
def skipMark (text : List Byte) : List Byte :=
  if text.getD 0 0 = 0x30 ∧ (text.getD 1 0 = 0x78 ∨ text.getD 1 0 = 0x58) then text.drop 2 else text

/-- `none` for -1. -/
def parseHexUint64 (text : List Byte) (maximumDigits : Byte) : Option (BitVec 64) :=
  match parseHexDigits maximumDigits (skipMark text) 0 0 with
  | none => none
  | some (result, digits) => if digits = 0 then none else some result

/-! ### Commands -/

def writeCli (response : SyncResponse) : List TxEvent := [.write (response.message ++ newline)]

/-- snprintf into `response`, and writeCli of it. -/
def writeResponse (response : SyncResponse) : List TxEvent :=
  [.write ((response.message ++ newline).take (responseLength - 1))]

/-- processSyncCommand from the pulse on. -/
def Transmitter.transmit (tx : Transmitter) (driver : RadioDriver) (surroundings : Surroundings)
    (command : SyncCommand) :
    Transmitter × List TxEvent :=
  (tx, [.dio1 true, .runCmd tx.packet, .dio1 false] ++
    if surroundings.reason = driver.rfEventLastCmdDone ∧ surroundings.status = driver.propDoneOk then
      writeResponse (.done command (tx.packet.getD 6 0))
    else writeResponse (.failed (surroundings.reason.setWidth 32) surroundings.status))

/-- processSyncCommand from the first strcmp on. -/
def Transmitter.syncCommand (tx : Transmitter) (driver : RadioDriver) (surroundings : Surroundings)
    (command argument : List Byte) : Transmitter × List TxEvent :=
  if command = text "sync_time" then
    match parseHexUint64 argument 16 with
    | none => (tx, writeCli .utcHex)
    | some value =>
      (tx.buildSyncPacket surroundings.clockTicks syncPacketTypeTime
        (writeUint64Be value) syncTimePayloadLength).transmit
        driver surroundings .syncTime
  else if command = text "sync_frame" then
    match parseHexUint64 argument 8 with
    | none => (tx, writeCli .exposureHex)
    | some value =>
      (tx.buildSyncPacket surroundings.clockTicks syncPacketTypeFrame (writeUint32Be (value.setWidth 32))
        syncFramePayloadLength).transmit driver surroundings .syncFrame
  else (tx, writeCli .unknownCommand)

def Transmitter.processSyncCommand (tx : Transmitter) (driver : RadioDriver) (surroundings : Surroundings)
    (line : List Byte) : Transmitter × List TxEvent :=
  let (line, next, command) := strtokBy isBlank line 0
  let (line, next, argument) := strtokBy isBlank line next
  let (line, _, extraArgument) := strtokBy isBlank line next
  match command, argument, extraArgument with
  | none, _, _ => (tx, [])
  | some command, some argument, none =>
    tx.syncCommand driver surroundings (cString line command) (cString line argument)
  | some _, _, _ => (tx, writeCli .usage)

/-- What snprintf leaves in an array. -/
def snprintf (array output : List Byte) : List Byte :=
  output.take (array.length - 1) ++ 0 :: array.drop (min output.length (array.length - 1) + 1)

def Transmitter.txCommand (tx : Transmitter) (driver : RadioDriver) (surroundings : Surroundings)
    (argv : List (List Byte)) :
    Transmitter × List TxEvent :=
  if argv.length < 2 ∨ 3 < argv.length then
    (tx, (cliError (text "ARG") (text "usage: tx sync_time <utc_hex> | tx sync_frame <exposure_hex>")).map .write)
  else if argv.length = 2 then
    tx.processSyncCommand driver surroundings (snprintf surroundings.stack (argv.getD 1 []))
  else
    tx.processSyncCommand driver surroundings
      (snprintf surroundings.stack (argv.getD 1 [] ++ text " " ++ argv.getD 2 []))

def cliTxCommand : CliCommand RuntimeHandler :=
  ⟨text "tx", text "tx sync_time <utc_hex> | tx sync_frame <exposure_hex>", .txCommand⟩

/-- The table in the TX role. -/
def runtimeCommands : List (CliCommand RuntimeHandler) := [
  cliTxCommand,
  ⟨text "bootloader", text "reboot into UART firmware updater", .bootloaderCommand⟩,
  ⟨text "version", text "show firmware version", .versionCommand⟩,
  ⟨text "ipc", text "ipc dump on|off", .i2cSlaveCliCommand⟩,
  ⟨text "stack", text "show SYS/BIOS task stack high-water marks", .stackCommand⟩]

/-! ### Lines -/

-- The other handlers cannot reach the static variables of firmware_tx.c.
def Transmitter.handle (tx : Transmitter) (driver : RadioDriver) (surroundings : Surroundings) :
    CliEvent RuntimeHandler → Transmitter × List TxEvent
  | .write data => (tx, [.write data])
  | .call .txCommand argv => tx.txCommand driver surroundings argv
  | .call handler argv => (tx, [.call handler argv])

def Transmitter.handleAll (tx : Transmitter) (driver : RadioDriver) (surroundings : Surroundings) :
    List (CliEvent RuntimeHandler) → Transmitter × List TxEvent
  | [] => (tx, [])
  | event :: rest =>
    let first := tx.handle driver surroundings event
    let further := first.1.handleAll driver surroundings rest
    (further.1, first.2 ++ further.2)

def Transmitter.processLine (tx : Transmitter) (driver : RadioDriver) (surroundings : Surroundings)
    (line : List Byte) :
    Transmitter × List TxEvent :=
  tx.handleAll driver surroundings (cliProcessLine runtimeCommands line).2

end Cc1310Firmware.Radio
