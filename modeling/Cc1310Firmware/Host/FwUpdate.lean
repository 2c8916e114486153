import Cc1310Firmware.Bootloader.DeviceJournal
import Cc1310Firmware.Bootloader.Receiver
import Cc1310Firmware.Host.FwPackage
import Cc1310Firmware.Programs.Reactive
import Cc1310Firmware.Programs.StopAndWait

/-! The updater of the host, from fw_update.py, and the system of host and device.

The Updater object is part of the world that its methods act on: an attribute is
read and written by an action, and so is the serial port. Each `bytes` written to
the port is one element of a queue, and so is each frame that the device sends.
On the way a frame can be lost; one that is spoilt so that the receiver drops it
is lost too, and one that is late stays in its queue while the host times out.
-/

set_option autoImplicit false

namespace Cc1310Firmware.Host
open Bootloader LabelledRun Reactive StopAndWait

def frameRetries : Nat := 5
def probeRetries : Nat := 2
def rebootRetries : Nat := 10
def chunkSize : Nat := 128

/-! ## The program -/

inductive HostError where
  | timeoutError
  | valueError
  | runtimeError
  | overflowError
  | structError
  | unfinished
  deriving DecidableEq, Repr

inductive HostAction where
  /-- `self.sequence = (self.sequence + 1) & 0xFFFF` -/
  | nextSequence
  /-- `self.ser.write(frame)` -/
  | write (frame : List Byte)
  /-- _read_frame with a deadline in FRAME_TIMEOUT; a TimeoutError is `none`. -/
  | readFrame
  /-- _command: the lines that arrive after the text. -/
  | command (text : String)
  /-- `self.ser.reset_input_buffer()` -/
  | resetInputBuffer
  deriving DecidableEq, Repr

@[reducible] def HostAction.Response : HostAction → Type
  | nextSequence => Nat
  | write _ => Unit
  | readFrame => Option (Nat × Nat × List Byte)
  | command _ => List String
  | resetInputBuffer => Unit

abbrev HostProgram (α : Type) := Program HostAction HostAction.Response HostError α

def nextSequence : HostProgram Nat := Program.perform HostAction.nextSequence
def write (frame : List Byte) : HostProgram Unit := Program.perform (HostAction.write frame)
def readFrame : HostProgram (Option (Nat × Nat × List Byte)) := Program.perform HostAction.readFrame
def command (text : String) : HostProgram (List String) := Program.perform (HostAction.command text)
def resetInputBuffer : HostProgram Unit := Program.perform HostAction.resetInputBuffer

/-- An expression that can raise an exception. -/
def orRaise {α : Type} (error : HostError) : Option α → HostProgram α
  | some a => pure a
  | none => throw error

/-- The loop of request, with `retries` rounds to go. -/
def requestLoop (frame : List Byte) (sequence : Nat) (expected : List Nat) : Nat → HostProgram (Nat × List Byte)
  | 0 => throw .timeoutError
  | retries + 1 => do
    write frame
    match ← readFrame with
    | none => requestLoop frame sequence expected retries
    | some (response, sequence', answer) =>
      if sequence' = sequence ∧ response ∈ expected then return (response, answer)
      else requestLoop frame sequence expected retries

def request (kind : Nat) (payload : List Byte) (expected : List Nat) (retries : Nat) :
    HostProgram (Nat × List Byte) := do
  let sequence ← nextSequence
  let frame ← orRaise .structError (encode kind sequence payload)
  requestLoop frame sequence expected retries

/-- The dictionary that info returns. -/
structure DeviceInfo where
  target : Nat
  state : Nat
  maxSize : Nat
  imageSize : Nat
  version : Nat
  role : Option Nat
  deriving DecidableEq, Repr

def deviceInfo (payload : List Byte) : DeviceInfo where
  target := fromBytes (slice payload 0 4)
  state := fromBytes (slice payload 4 8)
  maxSize := fromBytes (slice payload 8 12)
  imageSize := fromBytes (slice payload 12 16)
  version := fromBytes (slice payload 16 20)
  role := if payload.length = 24 then some (fromBytes (slice payload 20 24)) else none

def info (retries : Nat) : HostProgram DeviceInfo := do
  let (_, payload) ← request kindHello [] [kindInfo] retries
  if payload.length ∉ [20, 24] then throw .valueError
  else return deviceInfo payload

/-- The ASCII characters at which str.split divides a line. -/
def isSpace (c : Char) : Bool := decide ((9 ≤ c.toNat ∧ c.toNat ≤ 13) ∨ (28 ≤ c.toNat ∧ c.toNat ≤ 32))

/-- Whether probe_application returns fields. They are only printed; without a role among
them the help text is asked for. -/
def probeApplication : HostProgram Bool := do
  let _ ← command ""
  let lines ← command "version"
  let answers := lines.filter fun line => line.startsWith "OK version="
  if answers.isEmpty then return false
  else if answers.any fun line => (line.toList.splitOnP isSpace).any ("role=".toList.isPrefixOf ·) then return true
  else
    let _ ← command "help"
    return true

def enterBootloader : HostProgram DeviceInfo := do
  let replies ← command "bootloader"
  if ! replies.any (fun line => line.startsWith "OK rebooting_to_bootloader") then throw .runtimeError
  else
    resetInputBuffer
    info rebootRetries

/-- What connect does after a TimeoutError. -/
def connectApplication (allowApplication : Bool) : HostProgram DeviceInfo := do
  if ! allowApplication then throw .timeoutError
  else
    let answered ← probeApplication
    if ! answered then throw .timeoutError else enterBootloader

def connect (allowApplication : Bool) : HostProgram DeviceInfo :=
  tryCatch (info probeRetries) fun error =>
    if error = .timeoutError then connectApplication allowApplication else throw error

/-- The loop of flash that sends the image from `offset` on. A run of it that ends makes
finitely many rounds; one that is still going on after `rounds` of them is unfinished. -/
def sendImage (image : List Byte) (rounds offset : Nat) : HostProgram Unit := do
  if image.length ≤ offset then return ()
  else
    match rounds with
    | 0 => throw .unfinished
    | rounds + 1 =>
      let head ← orRaise .overflowError (toBytes4 offset)
      let block := slice image offset (offset + chunkSize)
      let (response, answer) ← request kindData (head ++ block) [kindAck, kindNack] frameRetries
      if answer.length ≠ 4 then throw .valueError
      else if response = kindNack ∧ offset < fromBytes answer then throw .valueError
      -- the device's count is taken as the next offset, for an ACK too
      else sendImage image rounds (fromBytes answer)

def flash (rounds : Nat) (package : List Byte) (role : Nat) (allowApplication : Bool) : HostProgram Unit := do
  let info ← orRaise .valueError (parse package)
  let device ← connect allowApplication
  if device.target ≠ info.target then throw .valueError
  else if device.maxSize < info.size then throw .valueError
  else
    let role ← orRaise .overflowError (toBytes4 role)
    let (_, ready) ← request kindBegin (slice package 0 32 ++ role) [kindReady] frameRetries
    if ready.length ≠ 4 then throw .valueError
    else if fromBytes ready ≠ 0 then throw .valueError
    else
      sendImage info.image rounds (fromBytes ready)
      let _ ← request kindEnd [] [kindComplete] frameRetries
      return ()

/-! ## The system -/

/-- A device together with the whole run that has led to its state. -/
structure DeviceRun (chip : DeviceState) where
  history : List DeviceTransition
  state : DeviceState
  run : Run DeviceStep chip history state

def DeviceRun.next {chip t : DeviceState} {event : DeviceEvent} (device : DeviceRun chip)
    (step : DeviceStep device.state event t) :
    DeviceRun chip where
  history := device.history ++ [⟨device.state, event, t⟩]
  state := t
  run := device.run.next step

/-- What the device sends at the end of a turn; `stack` is what the encodedFrame array held before. -/
def sent (stack : Buffer) : Option Output → Option (List Byte)
  | some (.reply frame) => some (writeProtocolFrame stack frame)
  | _ => none

/-- The update loop takes a frame from the line and answers it. -/
inductive Serves {chip : DeviceState} (device : DeviceRun chip) (wire : List Byte) :
    Option (List Byte) → DeviceRun chip → Prop where
  | frame {frame : ProtocolFrame} {event : DeviceEvent} {t : DeviceState} (stack stack' : Buffer)
      (step : DeviceStep device.state event t) : readProtocolFrame stack wire = some (frame, []) →
        event.input = .frame frame →
      Serves device wire (sent stack' event.output) (device.next step)

/-- What the device does on its own, power losses included. The application does not ask
for another update meanwhile. -/
inductive Idles {chip : DeviceState} (device : DeviceRun chip) : DeviceRun chip → Prop where
  | turn {event : DeviceEvent} {t : DeviceState} (step : DeviceStep device.state event t) :
      (∀ frame, event.input ≠ .frame frame) → event.input ≠ .requestUpdate → Idles device (device.next step)

abbrev SerialLink (chip : DeviceState) := Link (DeviceRun chip) (List Byte) (List Byte)

structure System (chip : DeviceState) where
  /-- The attribute of the Updater. -/
  sequence : Nat
  link : SerialLink chip

/-- What happens without the host. -/
def Moves {chip : DeviceState} (s t : System chip) : Prop :=
  LinkStep Serves Idles s.link t.link ∧ t.sequence = s.sequence

/-- What the host does. The text of a command ends in no delimiter, so for the device it
can only spoil a frame; and the host reads replies as text. -/
def Does {chip : DeviceState} : (action : HostAction) → System chip → action.Response → System chip → Prop
  | .nextSequence, s, sequence, t => sequence = (s.sequence + 1) % 2 ^ 16 ∧ t = { s with sequence := sequence }
  | .write frame, s, _, t => t = { s with link := { s.link with requests := s.link.requests ++ [frame] } }
  | .readFrame, s, answer, t =>
    (answer = none ∧ t = s) ∨ ∃ wire replies, s.link.replies = wire :: replies ∧ decode wire = answer ∧
      answer ≠ none ∧
      t = { s with link := { s.link with replies := replies } }
  | .command _, s, _, t =>
    ∃ replies, replies.Sublist s.link.replies ∧ t = { s with link := { s.link with replies := replies } }
  | .resetInputBuffer, s, _, t => t = { s with link := { s.link with replies := [] } }

/-- The method of the host ends with this outcome, while the device and the line do what they can. -/
abbrev Runs {chip : DeviceState} {α : Type} (program : HostProgram α) (s : System chip)
    (outcome : Except HostError α) (t : System chip) : Prop :=
  Exec Moves Does program s outcome t

end Cc1310Firmware.Host
