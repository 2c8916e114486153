import Cc1310Firmware.Cli.Dispatch
import Cc1310Firmware.I2cSlave.Slave
import Cc1310Firmware.Radio.PacketQueue
import Cc1310Firmware.Programs.SharedChannel
import Mathlib.Data.Nat.Digits.Lemmas

/-! What the tasks print on UART0.

cli_cc1310_uart_write holds cliUartMutex for one call, so a call is a step. Most lines
take several.
-/

set_option autoImplicit false

namespace Cc1310Firmware.Cli
open LittleEndian I2cSlave Radio

/-! ### Formats -/

def characters (string : List Char) : List Byte := string.map fun c => BitVec.ofNat 8 c.toNat

/-- `%lu` and `%u`. -/
def decimal (value : Nat) : List Byte :=
  if value = 0 then text "0" else (Nat.digits 10 value).reverse.map fun digit => BitVec.ofNat 8 (0x30 + digit)

/-- A digit of `%X`, or of `%x` with the letters from `letter` on. -/
def hexCharacter (letter digit : Nat) : Byte :=
  BitVec.ofNat 8 (if digit < 10 then 0x30 + digit else letter + (digit - 10))

/-- `%02X`. -/
def upperHexByte (value : Byte) : List Byte := [hexCharacter 0x41 (value.toNat / 16),
    hexCharacter 0x41 (value.toNat % 16)]

/-- `%08lx`. -/
def lowerHexWord (value : BitVec 32) : List Byte :=
  (List.range 8).map fun i => hexCharacter 0x61 (value.toNat / 16 ^ (7 - i) % 16)

def newline : List Byte := [carriageReturn, lineFeed]

def Inside (characters : List Byte) : Prop := ∀ c ∈ characters, isLineEnd c = false

/-! ### The lines -/

def packetLineSize : Nat := 160

/-- The loop of print_packet over the payload. -/
def printPayload (offset : Nat) : List Byte → List Byte
  | [] => []
  | value :: rest =>
    if offset + 2 < packetLineSize then upperHexByte value ++ printPayload (offset + 2) rest else []

/-- print_packet, which writes its buffer with one call. -/
def printPacket (message : RfPacketMessage) : List Byte :=
  let line := text "RX seq=" ++ decimal message.sequence.toNat ++ text " tick=" ++
    decimal message.timestampTicks.toNat ++
    text " len=" ++ decimal message.length ++ text " data="
  let line := line ++ printPayload line.length message.payload
  if line.length + 2 < packetLineSize then line ++ newline else line

inductive SyncCommand where
  | syncTime
  | syncFrame

def SyncCommand.name : SyncCommand → List Byte
  | .syncTime => text "sync_time"
  | .syncFrame => text "sync_frame"

-- processSyncCommand writes an answer with its line end by one call, so that none of these
-- lines can be cut.
/-- The answers of processSyncCommand. -/
inductive SyncResponse where
  | usage
  | utcHex
  | exposureHex
  | unknownCommand
  | done (command : SyncCommand) (sequence : Byte)
  | failed (event status : BitVec 32)

def SyncResponse.message : SyncResponse → List Byte
  | .usage => text "ERR ARG usage: tx sync_time <utc_hex> | tx sync_frame <exposure_hex>"
  | .utcHex => text "ERR ARG utc_hex_must_be_uint64"
  | .exposureHex => text "ERR ARG exposure_hex_must_be_uint32"
  | .unknownCommand => text "ERR CMD unknown_command; use help"
  | .done command sequence => text "OK " ++ command.name ++ text " seq=" ++ decimal sequence.toNat
  | .failed event status => text "ERR RF event=0x" ++ lowerHexWord event ++ text " status=0x" ++ lowerHexWord status

/-- A text inside a line. -/
structure Message where
  characters : List Byte
  inside : Inside characters

/-- The tasks that print. -/
inductive UartTask where
  | cli
  | i2cSlave
  | packetPrint
  deriving DecidableEq, Repr

instance : Inhabited UartTask := ⟨.cli⟩

/-- The lines that the tasks mean to print. -/
inductive Line where
  | ok (message : Message)
  | error (code message : Message)
  | command (name usage : Message)
  | sync (response : SyncResponse)
  | dump (direction : DumpDirection) (register : Byte) (data : List Byte) (fits : data.length ≤ i2cWriteMax)
  | packet (message : RfPacketMessage) (sized : message.Sized)

def Line.task : Line → UartTask
  | .ok _ | .error _ _ | .command _ _ | .sync _ => .cli
  | .dump _ _ _ _ => .i2cSlave
  | .packet _ _ => .packetPrint

/-- The calls of cli_cc1310_uart_write for a line. -/
def Line.writes : Line → List (List Byte)
  | .ok message => cliOk message.characters
  | .error code message => cliError code.characters message.characters
  | .command name usage => cliPrintCommand (⟨name.characters, usage.characters, ()⟩ : CliCommand Unit)
  | .sync response => [response.message ++ newline]
  | .dump direction register data _ => cliOk (characters (dumpMessage direction register data))
  | .packet message _ => [printPacket message]

def uartTraffic : SharedChannel.Traffic UartTask Byte Line := ⟨Line.task, Line.writes⟩

/-! ### Texts without a line end -/

instance (characters : List Byte) : Decidable (Inside characters) :=
  inferInstanceAs (Decidable (∀ c ∈ characters, _))

@[simp] theorem inside_append {first second : List Byte} :
    Inside (first ++ second) ↔ Inside first ∧ Inside second :=
  List.forall_mem_append

theorem inside_flatMap {α : Type} {format : α → List Byte} {values : List α}
    (each : ∀ value ∈ values, Inside (format value)) :
    Inside (values.flatMap format) := by
  intro c member
  obtain ⟨value, listed, place⟩ := List.mem_flatMap.mp member
  exact each value listed c place

theorem inside_text {literal : List Char} (inside : (literal.all fun c => !isLineEnd (BitVec.ofNat 8 c.toNat)) = true) :
    Inside (text (String.ofList literal)) := by
  rw [text, String.toList_ofList]
  refine List.forall_mem_map.mpr fun c member => ?_
  rw [← Bool.not_eq_true']
  exact List.all_eq_true.mp inside c member

theorem inside_decimal (value : Nat) : Inside (decimal value) := by
  have digits : ∀ digit < 10, isLineEnd (BitVec.ofNat 8 (0x30 + digit)) = false := by decide
  unfold decimal
  split
  · decide
  · intro c member
    obtain ⟨digit, listed, rfl⟩ := List.mem_map.mp member
    exact digits digit (Nat.digits_lt_base (by decide) (List.mem_reverse.mp listed))

theorem isLineEnd_hexCharacter : ∀ digit < 16,
    isLineEnd (hexCharacter 0x41 digit) = false ∧ isLineEnd (hexCharacter 0x61 digit) = false := by
  decide

theorem inside_upperHexByte (value : Byte) : Inside (upperHexByte value) := by
  have high := isLineEnd_hexCharacter (value.toNat / 16) (Nat.div_lt_of_lt_mul value.isLt)
  have low := isLineEnd_hexCharacter (value.toNat % 16) (Nat.mod_lt _ (by decide))
  exact List.forall_mem_cons.mpr ⟨high.1, List.forall_mem_singleton.mpr low.1⟩

theorem inside_lowerHexWord (value : BitVec 32) : Inside (lowerHexWord value) := by
  intro c member
  obtain ⟨i, _, rfl⟩ := List.mem_map.mp member
  exact (isLineEnd_hexCharacter _ (Nat.mod_lt _ (by decide))).2

/-- A digit of hexDigit and of the count. -/
def dumpDigit (digit : Nat) : Byte :=
  BitVec.ofNat 8 (if digit < 10 then Char.ofNat ('0'.toNat + digit) else Char.ofNat ('a'.toNat + digit - 10)).toNat

theorem forall_hexByte {p : Byte → Prop} (digits : ∀ digit < 16, p (dumpDigit digit)) (value : Byte) :
    ∀ c ∈ characters (hexByte value), p c := by
  have digit : ∀ b : Byte, p (BitVec.ofNat 8 (hexDigit b).toNat) := by
    intro b
    apply digits
    rw [BitVec.toNat_and]
    exact Nat.lt_of_le_of_lt Nat.and_le_right (by decide)
  exact List.forall_mem_cons.mpr ⟨digit _, List.forall_mem_singleton.mpr (digit _)⟩

theorem forall_countDigits {p : Byte → Prop} (digits : ∀ digit < 16, p (dumpDigit digit)) {count : Nat}
    (fits : count < 100) :
    ∀ c ∈ characters (countDigits count), p c := by
  have decimal : ∀ digit < 10, p (BitVec.ofNat 8 (Char.ofNat ('0'.toNat + digit)).toNat) := by
    intro digit small
    have character := digits digit (Nat.lt_trans small (by decide))
    unfold dumpDigit at character
    rwa [if_pos small] at character
  have last := decimal (count % 10) (Nat.mod_lt _ (by decide))
  unfold countDigits
  split
  · exact List.forall_mem_cons.mpr ⟨decimal (count / 10) (by omega), List.forall_mem_singleton.mpr last⟩
  · exact List.forall_mem_singleton.mpr last

/-- What holds of the fixed parts and of the digits holds of the whole message. -/
theorem forall_dumpMessage {p : Byte → Prop}
    (fixed : ∀ c ∈ text "ipc read reg=0x" ++ text "ipc write reg=0x" ++ text " len=" ++ text " data=", p c)
    (digits : ∀ digit < 16, p (dumpDigit digit)) (direction : DumpDirection) (register : Byte) {data : List Byte}
    (fits : data.length ≤ i2cWriteMax) : ∀ c ∈ characters (dumpMessage direction register data), p c := by
  simp only [List.forall_mem_append] at fixed
  obtain ⟨⟨⟨read, write⟩, len⟩, bytes⟩ := fixed
  have count : data.length < 100 := Nat.lt_of_le_of_lt fits (by decide)
  have start : ∀ c ∈ characters
      (if direction = .read then "ipc read reg=0x".toList else "ipc write reg=0x".toList), p c := by
    split
    · exact read
    · exact write
  have hex : ∀ c ∈ data.flatMap fun value => characters (hexByte value), p c := by
    intro c member
    obtain ⟨value, _, place⟩ := List.mem_flatMap.mp member
    exact forall_hexByte digits value c place
  unfold dumpMessage characters at *
  simp only [List.map_append, List.map_flatMap, List.forall_mem_append]
  exact ⟨⟨⟨⟨⟨start, forall_hexByte digits register⟩, len⟩, forall_countDigits digits count⟩, bytes⟩, hex⟩

theorem inside_dumpMessage (direction : DumpDirection) (register : Byte) {data : List Byte}
    (fits : data.length ≤ i2cWriteMax) :
    Inside (characters (dumpMessage direction register data)) :=
  forall_dumpMessage (by decide) (by decide) direction register fits

theorem inside_response (response : SyncResponse) : Inside response.message := by
  cases response with
  | usage | utcHex | exposureHex | unknownCommand => exact inside_text rfl
  | done command sequence =>
    have name : Inside command.name := by
      cases command with
      | syncTime | syncFrame => exact inside_text rfl
    simp only [SyncResponse.message, inside_append]
    exact ⟨⟨⟨inside_text rfl, name⟩, inside_text rfl⟩, inside_decimal _⟩
  | failed event status =>
    simp only [SyncResponse.message, inside_append]
    exact ⟨⟨⟨inside_text rfl, inside_lowerHexWord event⟩, inside_text rfl⟩, inside_lowerHexWord status⟩

/-! ### The buffer of print_packet -/

def packetHeader (message : RfPacketMessage) : List Byte :=
  text "RX seq=" ++ decimal message.sequence.toNat ++ text " tick=" ++ decimal message.timestampTicks.toNat ++
  text " len=" ++ decimal message.length ++ text " data="

theorem length_decimal_le {value k : Nat} (positive : 0 < k) (fits : value < 10 ^ k) :
    (decimal value).length ≤ k := by
  unfold decimal
  split
  · exact positive
  · rw [List.length_map, List.length_reverse]
    exact (Nat.digits_length_le_iff (by decide) value).mpr fits

theorem length_text {literal : List Char} : (text (String.ofList literal)).length = literal.length := by
  rw [text, String.toList_ofList, List.length_map]

theorem length_packetHeader_le {message : RfPacketMessage} (sized : message.Sized) :
    (packetHeader message).length ≤ 46 := by
  have sequence : (decimal message.sequence.toNat).length ≤ 10 :=
    length_decimal_le (by decide) (Nat.lt_trans message.sequence.isLt (by decide))
  have tick : (decimal message.timestampTicks.toNat).length ≤ 10 :=
    length_decimal_le (by decide) (Nat.lt_trans message.timestampTicks.isLt (by decide))
  have length : (decimal message.length).length ≤ 2 :=
    length_decimal_le (by decide) (Nat.lt_of_le_of_lt sized.length (by decide))
  have names : (text "RX seq=").length = 7 ∧ (text " tick=").length = 6 ∧ (text " len=").length = 5 ∧
      (text " data=").length = 6 := ⟨length_text, length_text, length_text, length_text⟩
  simp only [packetHeader, List.length_append]
  omega

theorem printPayload_eq {offset : Nat} {payload : List Byte} (room : offset + 2 * payload.length < packetLineSize) :
    printPayload offset payload = payload.flatMap upperHexByte := by
  induction payload generalizing offset with
  | nil => rfl
  | cons value rest ih =>
    rw [List.length_cons] at room
    rw [printPayload, if_pos (by omega), ih (by omega), List.flatMap_cons]

/-- The buffer has room for every message of the queue. -/
theorem printPacket_eq {message : RfPacketMessage} (sized : message.Sized) :
    printPacket message = packetHeader message ++ message.payload.flatMap upperHexByte ++ newline := by
  -- 46 + 2 * 30 + 2 < 160: neither test of print_packet fails
  have header := length_packetHeader_le sized
  have payload : message.payload.length ≤ 30 := by rw [sized.payload]; exact sized.length
  -- two digits for each byte
  have digits : (message.payload.flatMap upperHexByte).length = 2 * message.payload.length := by
    rw [List.length_flatMap]
    simp [upperHexByte, Nat.mul_comm]
  unfold printPacket
  rw [← packetHeader]
  dsimp only
  rw [printPayload_eq (by unfold packetLineSize; omega),
    if_pos (by rw [List.length_append, digits, packetLineSize]; omega)]

/-! ### A line as a whole -/

/-- What cli_write_line and the end of cli_error put behind `start`. -/
def withMessage (start message : List Byte) : List Byte := start ++ if message = [] then [] else text " " ++ message

/-- The text of a line in front of its CR LF. -/
def Line.body : Line → List Byte
  | .ok message => withMessage (text "OK") message.characters
  | .error code message => withMessage (text "ERR " ++ code.characters) message.characters
  | .command name usage => text "OK " ++ name.characters ++ text " " ++ usage.characters
  | .sync response => response.message
  | .dump direction register data _ => withMessage (text "OK") (characters (dumpMessage direction register data))
  | .packet message _ => packetHeader message ++ message.payload.flatMap upperHexByte

@[simp] theorem flatten_cliPortWrite (data : List Byte) : (cliPortWrite data).flatten = data := by
  unfold cliPortWrite
  split
  case isTrue empty => rw [empty]; rfl
  case isFalse => exact List.append_nil data

theorem flatten_optionalMessage (message : List Byte) :
    (optionalMessage message).flatten = if message = [] then [] else text " " ++ message := by
  unfold optionalMessage
  split
  · rfl
  · simp

theorem flatten_cliOk (message : List Byte) :
    (cliOk message).flatten = withMessage (text "OK") message ++ newline := by
  simp [cliOk, cliWriteLine, withMessage, flatten_optionalMessage, newline]

theorem Line.text_eq (line : Line) : uartTraffic.text line = line.body ++ newline := by
  cases line with
  | ok message => exact flatten_cliOk _
  | error code message =>
    change (cliError code.characters message.characters).flatten = _
    simp [cliError, Line.body, withMessage, flatten_optionalMessage, newline]
  | command name usage =>
    change (cliPrintCommand _).flatten = _
    simp [cliPrintCommand, Line.body, newline]
  | sync response => exact List.append_nil _
  | dump direction register data fits => exact flatten_cliOk _
  | packet message sized => exact (List.append_nil _).trans (printPacket_eq sized)

theorem inside_withMessage {start message : List Byte} (start_ : Inside start) (message_ : Inside message) :
    Inside (withMessage start message) := by
  rw [withMessage, inside_append]
  refine ⟨start_, ?_⟩
  split
  · exact List.forall_mem_nil _
  · exact inside_append.mpr ⟨inside_text rfl, message_⟩

theorem Line.inside_body (line : Line) : Inside line.body := by
  cases line with
  | ok message => exact inside_withMessage (inside_text rfl) message.inside
  | error code message => exact inside_withMessage (inside_append.mpr ⟨inside_text rfl, code.inside⟩) message.inside
  | command name usage =>
    simp only [Line.body, inside_append]
    exact ⟨⟨⟨inside_text rfl, name.inside⟩, inside_text rfl⟩, usage.inside⟩
  | sync response => exact inside_response response
  | dump direction register data fits =>
    exact inside_withMessage (inside_text rfl) (inside_dumpMessage direction register fits)
  | packet message sized =>
    simp only [Line.body, packetHeader, inside_append]
    exact ⟨⟨⟨⟨⟨⟨⟨inside_text rfl, inside_decimal _⟩, inside_text rfl⟩, inside_decimal _⟩, inside_text rfl⟩,
      inside_decimal _⟩, inside_text rfl⟩, inside_flatMap fun value _ => inside_upperHexByte value⟩

theorem text_starts {first second : List Char} (starts : first <+: second) :
    text (String.ofList first) <+: text (String.ofList second) := by
  rw [text, text, String.toList_ofList, String.toList_ofList]
  exact starts.map _

/-- What the CLI task prints is an answer. -/
def IsAnswer (row : List Byte) : Prop := text "OK" <+: row ∨ text "ERR " <+: row

theorem isAnswer_withMessage {start : List Byte} (message : List Byte) (starts : IsAnswer start) :
    IsAnswer (withMessage start message) := by
  rcases starts with ok | error
  · exact .inl (ok.trans (List.prefix_append _ _))
  · exact .inr (error.trans (List.prefix_append _ _))

theorem Line.isAnswer_body {line : Line} (cli : line.task = .cli) : IsAnswer line.body := by
  cases line with
  | ok message => exact isAnswer_withMessage _ (.inl (List.prefix_rfl))
  | error code message => exact isAnswer_withMessage _ (.inr (List.prefix_append _ _))
  | command name usage =>
    have ok : text "OK" <+: text "OK " := text_starts (by decide)
    exact .inl (ok.trans (by simp only [Line.body, List.append_assoc]; exact List.prefix_append _ _))
  | sync response =>
    cases response with
    | usage | utcHex | exposureHex | unknownCommand => exact .inr (text_starts (by decide))
    | done command sequence =>
      have ok : text "OK" <+: text "OK " := text_starts (by decide)
      exact .inl (ok.trans (by simp only
        [Line.body, SyncResponse.message, List.append_assoc]; exact List.prefix_append _ _))
    | failed event status =>
      have error : text "ERR " <+: text "ERR RF event=0x" := text_starts (by decide)
      exact .inr (error.trans (by simp only
        [Line.body, SyncResponse.message, List.append_assoc]; exact List.prefix_append _ _))
  | dump | packet => cases cli

end Cc1310Firmware.Cli
