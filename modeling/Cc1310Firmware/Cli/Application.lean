import Cc1310Firmware.Radio.Transmitter

/-! The command handlers of the application, in either role, from cli_task_cc1310.c, cli_radio.c,
cli_bootloader.c and i2c_slave.c.

What a handler prints is the list of its writes, as cli_core.c makes them.
-/

set_option autoImplicit false

namespace Cc1310Firmware.Cli
open LittleEndian I2cSlave Radio

/-- FIRMWARE_VERSION -/
def firmwareVersion : List Byte := text "0.2.1"

def firmwareRoleName (role : FirmwareRole) : List Byte := if role = .tx then text "tx" else text "rx"

/-- `%d` -/
def signed (value : Int) : List Byte := (if value < 0 then text "-" else []) ++ decimal value.natAbs

/-- snprintf into an array of `size` characters: the string that it holds then. -/
def formatted (size : Nat) (output : List Byte) : List Byte := output.take (size - 1)

/-! ### State -/

/-- The variables that the handlers change. -/
structure Application where
  packetDumpEnabled : Bool
  dumpEnabled : Bool
  transmitter : Transmitter

def Application.start : Application := ⟨false, false, .start⟩

/-- The thread functions that stack_task_name knows. -/
inductive TaskFunction where
  | cliThread
  | firmwareRxThread
  | firmwareTxThread
  | i2cSlaveThread
  | rfPacketPrintThread
  | idleLoop
  | other
  deriving DecidableEq, Repr

inductive TaskMode where
  | running
  | ready
  | blocked
  | terminated
  | inactive
  | other
  deriving DecidableEq, Repr

/-- A SYS/BIOS task and its Task_Stat. -/
structure Task where
  handleName : Option (List Byte)
  function : TaskFunction
  priority : Int
  used : Radio.Word
  stackSize : Radio.Word
  mode : TaskMode

/-- What a command meets: the radio, the counters, the tasks, and what bl_request_update returns. -/
structure Surroundings where
  driver : RadioDriver
  radio : Radio.Surroundings
  stats : RfPacketStats
  tasks : List Task
  updateRequest : Int

structure Answer where
  application : Application
  writes : List (List Byte)
  systemReset : Bool

/-- A handler that only prints. -/
def Application.prints (application : Application) (writes : List (List Byte)) : Answer := ⟨application, writes, false⟩

/-! ### Handlers -/

def Application.versionCommand (application : Application) (argv : List (List Byte)) : Answer :=
  application.prints <|
    if argv.length ≠ 1 then cliError (text "ARG") (text "usage: version")
    else cliOk (text "version=" ++ firmwareVersion)

def stackModeName : TaskMode → List Byte
  | .running => text "running"
  | .ready => text "ready"
  | .blocked => text "blocked"
  | .terminated => text "terminated"
  | .inactive => text "inactive"
  | .other => text "unknown"

/-- The names that stack_task_name assigns. -/
def TaskFunction.name : TaskFunction → List Byte
  | .cliThread => text "cli"
  | .firmwareRxThread => text "radio_rx"
  | .firmwareTxThread => text "radio_tx"
  | .i2cSlaveThread => text "i2c_slave"
  | .rfPacketPrintThread => text "packet_print"
  | .idleLoop => text "idle"
  | .other => text "unnamed"

/-- Task_Handle_name, unless it is NULL, empty or the placeholder of SYS/BIOS. -/
def Task.configuredName (task : Task) : Option (List Byte) :=
  task.handleName.filter fun name =>
    decide (name ≠ [] ∧ name ≠ text "\x7bunknown-instance-name\x7d")

def stackTaskName (task : Task) : List Byte := task.configuredName.getD task.function.name

def stackMessage (task : Task) : List Byte :=
  formatted 96 (text "stack: " ++ stackTaskName task ++ text " " ++ signed task.priority ++ text " " ++
    decimal task.used.toNat ++ text "/" ++ decimal task.stackSize.toNat ++ text " " ++
    decimal (task.stackSize - task.used).toNat ++ text " " ++ stackModeName task.mode)

def Application.stackCommand (application : Application) (tasks : List Task) (argv : List (List Byte)) : Answer :=
  application.prints <|
    if argv.length ≠ 1 then cliError (text "ARG") (text "usage: stack")
    else cliOk (text "stack: name priority used/size free mode") ++ tasks.flatMap fun task => cliOk (stackMessage task)

def Application.bootloaderCommand (application : Application) (updateRequest : Int) (argv : List (List Byte)) :
    Answer :=
  if argv.length ≠ 1 then application.prints (cliError (text "ARG") (text "usage: bootloader"))
  else if updateRequest ≠ 0 then application.prints (cliError (text "BOOT") (text "metadata_write_failed"))
  else ⟨application, cliOk (text "rebooting_to_bootloader"), true⟩

def radioUsage : List (List Byte) := cliError (text "ARG") (text "usage: rx status | rx dump on|off")

/-- The text in front of the truncation to 155 characters. -/
def radioStatusText (stats : RfPacketStats) (packetDumpEnabled : Bool) : List Byte :=
  text "rx=" ++ decimal stats.radioReceived.toNat ++ text " enq=" ++ decimal stats.radioQueued.toNat ++
  text " drop=" ++ decimal stats.appQueueDropped.toNat ++ text " full=" ++ decimal stats.rxBufferFull.toNat ++
  text " crc=" ++ decimal stats.crcErrors.toNat ++ text " coll=" ++ decimal stats.collisions.toNat ++
  text " rssi=" ++ signed stats.rssiLast.toInt ++ text "[" ++ signed stats.rssiMin.toInt ++ text "," ++
  signed stats.rssiMax.toInt ++ text "] samples=" ++ decimal stats.rssiSamples.toNat ++ text " dump=" ++
  (if packetDumpEnabled then text "on" else text "off")

def radioStatus (stats : RfPacketStats) (packetDumpEnabled : Bool) : List (List Byte) :=
  cliOk (formatted 156 (radioStatusText stats packetDumpEnabled))

def Application.radioCommand (application : Application) (stats : RfPacketStats) (argv : List (List Byte)) : Answer :=
  if argv.length = 2 ∧ argv.getD 1 [] = text "status" then
    application.prints (radioStatus stats application.packetDumpEnabled)
  else if argv.length = 3 ∧ argv.getD 1 [] = text "dump" then
    if argv.getD 2 [] = text "on" then
      { application with packetDumpEnabled := true }.prints (cliOk (text "rx_dump=on"))
    else if argv.getD 2 [] = text "off" then
      { application with packetDumpEnabled := false }.prints (cliOk (text "rx_dump=off"))
    else application.prints radioUsage
  else application.prints radioUsage

def Application.i2cSlaveCliCommand (application : Application) (argv : List (List Byte)) : Answer :=
  if argv.length = 3 ∧ argv.getD 1 [] = text "dump" ∧ argv.getD 2 [] = text "on" then
    { application with dumpEnabled := true }.prints (cliOk (text "ipc_dump=on"))
  else if argv.length = 3 ∧ argv.getD 1 [] = text "dump" ∧ argv.getD 2 [] = text "off" then
    { application with dumpEnabled := false }.prints (cliOk (text "ipc_dump=off"))
  else application.prints (cliError (text "ARG") (text "usage: ipc dump on|off"))

def written : TxEvent → Option (List Byte)
  | .write data => some data
  | .dio1 _ | .runCmd _ | .call _ _ => none

def Application.txCommand (application : Application) (driver : RadioDriver) (radio : Radio.Surroundings)
    (argv : List (List Byte)) : Answer :=
  let (transmitter, events) := application.transmitter.txCommand driver radio argv
  { application with transmitter }.prints (events.filterMap written)

/-! ### The table -/

inductive CliHandler where
  | radioCommand
  | runtime (handler : RuntimeHandler)

def ofRuntime (command : CliCommand RuntimeHandler) : CliCommand CliHandler :=
  ⟨command.name, command.usage, .runtime command.handler⟩

def cliRxCommand : CliCommand CliHandler := ⟨text "rx", text "rx status | rx dump on|off", .radioCommand⟩

/-- runtimeCommands after the assignments of cliThread. -/
def commandTable (role : FirmwareRole) : List (CliCommand CliHandler) :=
  (if role = .tx then ofRuntime cliTxCommand else cliRxCommand) :: (runtimeCommands.drop 1).map ofRuntime

def Application.call (application : Application) (meets : Surroundings) :
    CliHandler → List (List Byte) → Answer
  | .radioCommand, argv => application.radioCommand meets.stats argv
  | .runtime .txCommand, argv => application.txCommand meets.driver meets.radio argv
  | .runtime .bootloaderCommand, argv => application.bootloaderCommand meets.updateRequest argv
  | .runtime .versionCommand, argv => application.versionCommand argv
  | .runtime .i2cSlaveCliCommand, argv => application.i2cSlaveCliCommand argv
  | .runtime .stackCommand, argv => application.stackCommand meets.tasks argv

/-- What cli_process_line does, event by event. -/
def Application.perform (application : Application) (meets : Surroundings) : List (CliEvent CliHandler) → Answer
  | [] => application.prints []
  | .write data :: rest =>
    let further := application.perform meets rest
    { further with writes := data :: further.writes }
  | .call handler argv :: rest =>
    let first := application.call meets handler argv
    let further := first.application.perform meets rest
    ⟨further.application, first.writes ++ further.writes, first.systemReset || further.systemReset⟩

/-- What cliThread prints in front of its loop; readyCount is 0 then. -/
def readyLines (role : FirmwareRole) : List (List Byte) :=
  cliOk (formatted 80 (text "version=" ++ firmwareVersion ++ text " role=" ++ firmwareRoleName role)) ++
  cliOk (formatted 80 (text "cli=ready count=" ++ decimal 0 ++ text " commands=help," ++ firmwareRoleName role ++
    text ",bootloader,version,ipc,stack"))

end Cc1310Firmware.Cli
