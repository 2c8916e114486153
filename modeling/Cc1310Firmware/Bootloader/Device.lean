import Cc1310Firmware.Bootloader.FlashDriver
import Cc1310Firmware.Bootloader.Update

/-! The device: the boot decision, the updater and the boot API of a running application.

Between two inputs the device is about to run mainThread, waits for a frame in
runFirmwareUpdate, or runs the application. A power loss, inside a flash call
or between inputs, loses everything but the flash.
-/

set_option autoImplicit false

namespace Cc1310Firmware.Bootloader
open LittleEndian CrashProgram

def bootHandoffMagic : Word := 0x484E4446

structure BootHandoff where
  magic : Word
  bootAttemptId : Word
  appRole : Word
  deriving DecidableEq, Repr

/-- The two ends of mainThread. -/
inductive BootOutcome where
  | runFirmwareUpdate (metadata : BootMetadata)
  | startApplication (handoff : BootHandoff)
  deriving DecidableEq, Repr

/-- The boot decision on the metadata mainThread has read. -/
def bootsApplication (flash : Flash) (metadata : BootMetadata) : Bool :=
  metadata.state == bootStateValidApplication && decide (metadata.unconfirmedBootCount < bootFailureLimit) &&
  isApplicationImageValid flash metadata

/-- The metadata with one more boot attempt. -/
def BootMetadata.attempted (metadata : BootMetadata) : BootMetadata :=
  { metadata with
    unconfirmedBootCount := metadata.unconfirmedBootCount + 1
    bootAttemptId := metadata.bootAttemptId + 1 }

def mainThread : FlashProg BootOutcome := do
  let metadata := (← readBootMetadata).getD setDefaultMetadata
  if ← Program.view fun flash => bootsApplication flash metadata then
    let (metadata, code) ← appendMetadataRecord metadata.attempted
    if code != 0 then return .runFirmwareUpdate metadata
    else return .startApplication ⟨bootHandoffMagic, metadata.bootAttemptId, metadata.appRole⟩
  else return .runFirmwareUpdate metadata

inductive Mode where
  | reset
  | updating (session : UpdateSession)
  | running
  deriving DecidableEq, Repr

/-- What happens to the device. A boot comes with the old stack contents that
the uninitialised packageHeader of runFirmwareUpdate gets. -/
inductive Input where
  | powerCut
  | boot (stack : FirmwarePackageHeader)
  | frame (frame : ProtocolFrame)
  | confirmBoot (bootAttemptId : Word)
  | requestUpdate
  deriving DecidableEq, Repr

inductive Output where
  | silent
  | reply (frame : ProtocolFrame)
  | handoff (handoff : BootHandoff)
  | code (value : Int)
  deriving DecidableEq, Repr

def afterBoot (stack : FirmwarePackageHeader) : BootOutcome → Output × Mode
  | .runFirmwareUpdate metadata => (.silent, .updating (.start metadata stack))
  | .startApplication handoff => (.handoff handoff, .running)

def afterFrame : ProtocolFrame × Continuation → Output × Mode
  | (reply, .loop session) => (.reply reply, .updating session)
  | (reply, .systemReset) => (.reply reply, .reset)

/-- The program that an input starts, if the device can receive it. -/
def turn : Mode → Input → Option (FlashProg (Output × Mode))
  | _, .powerCut => some (return (.silent, .reset))
  | .reset, .boot stack => some (do return afterBoot stack (← mainThread))
  | .updating session, .frame frame => some (do return afterFrame (← handleFrame session frame))
  | .running, .confirmBoot bootAttemptId =>
    some (do return (.code (← confirmApplicationBoot bootAttemptId), .running))
  | .running, .requestUpdate => some (do return (.code (← requestFirmwareUpdate), .running))
  | _, _ => none

structure DeviceState where
  flash : Flash
  mode : Mode

/-- The output is `none` when power was lost inside a flash call. -/
structure DeviceEvent where
  input : Input
  calls : List (Call Flash FlashCommand)
  output : Option Output

def deviceOutcome : Result (Output × Mode) → Option Output × Mode
  | .returned (output, mode) => (some output, mode)
  | .cut => (none, .reset)

def DeviceStep (state : DeviceState) (event : DeviceEvent) (state' : DeviceState) : Prop :=
  ∃ program result, turn state.mode event.input = some program ∧
    Exec FlashStep program state.flash event.calls result state'.flash ∧
    deviceOutcome result = (event.output, state'.mode)

end Cc1310Firmware.Bootloader
