import Cc1310Firmware.Codec.LittleEndian

/-! The serial CLI, from cli_core.c and the loop of cliThread.

A C string is the list of its characters. What a function prints is the list of its
calls of cli_port_write; cli_cc1310_uart_write drops an empty one. A handler is known
by the argument vectors that it is called with.
-/

set_option autoImplicit false

namespace Cc1310Firmware.Cli

def cliMaxLineLength : Nat := 128
def cliMaxArguments : Nat := 8

/-- A string literal. -/
def text (literal : String) : List Byte := literal.toList.map fun c => BitVec.ofNat 8 c.toNat

def carriageReturn : Byte := 0x0D
def lineFeed : Byte := 0x0A

variable {Handler : Type}

structure CliCommand (Handler : Type) where
  name : List Byte
  usage : List Byte
  handler : Handler

/-! ### Output -/

def cliPortWrite (data : List Byte) : List (List Byte) := if data = [] then [] else [data]

def cliPrintCommand (command : CliCommand Handler) : List (List Byte) :=
  cliPortWrite (text "OK ") ++ cliPortWrite command.name ++ cliPortWrite (text " ") ++ cliPortWrite command.usage ++
  cliPortWrite [carriageReturn, lineFeed]

/-- A blank and the message, unless it is empty or NULL. -/
def optionalMessage (message : List Byte) : List (List Byte) :=
  if message = [] then [] else cliPortWrite (text " ") ++ cliPortWrite message

def cliWriteLine (start message : List Byte) : List (List Byte) :=
  cliPortWrite start ++ optionalMessage message ++ cliPortWrite [carriageReturn, lineFeed]

def cliOk (message : List Byte) : List (List Byte) := cliWriteLine (text "OK") message

def cliError (code message : List Byte) : List (List Byte) :=
  cliPortWrite (text "ERR ") ++ cliPortWrite code ++ optionalMessage message ++
    cliPortWrite [carriageReturn, lineFeed]

/-- The loop over the command table. -/
def findCommand (commands : List (CliCommand Handler)) (name : List Byte) : Option (CliCommand Handler) :=
  commands.find? fun command => name == command.name

def cliHelp (commands : List (CliCommand Handler)) (argv : List (List Byte)) : List (List Byte) :=
  if 2 < argv.length then cliError (text "ARG") (text "usage: help [command]")
  else if argv.length = 2 then
    if argv.getD 1 [] = text "help" then cliOk (text "help [command]")
    else
      match findCommand commands (argv.getD 1 []) with
      | some command => cliPrintCommand command
      | none => cliError (text "CMD") (text "unknown_command")
  else cliOk (text "commands:") ++ cliOk (text "help [command]") ++ commands.flatMap cliPrintCommand

/-! ### strtok -/

/-- The characters of `" \t\r\n"`. -/
def isDelimiter (c : Byte) : Bool := c == 0x20 || c == 0x09 || c == carriageReturn || c == lineFeed

/-- strspn(&line[start], " \t\r\n"), which stops at a NUL. -/
def strspn (line : List Byte) (start : Nat) : Nat := ((line.drop start).takeWhile isDelimiter).length

/-- strcspn(&line[start], " \t\r\n"), which stops at a NUL. -/
def strcspn (line : List Byte) (start : Nat) : Nat :=
  ((line.drop start).takeWhile fun c => c != 0 && !isDelimiter c).length

/-- The string that begins at an offset of the line. -/
def cString (line : List Byte) (offset : Nat) : List Byte := (line.drop offset).takeWhile (· != 0)

/-- strtok from `start` on: the line it leaves, where the next call starts, and the token. -/
def strtok (line : List Byte) (start : Nat) : List Byte × Nat × Option Nat :=
  let token := start + strspn line start
  if line.getD token 0 = 0 then (line, token, none)
  else
    let stop := token + strcspn line token
    if line.getD stop 0 = 0 then (line, stop, some token) else (line.set stop 0, stop + 1, some token)

/-! ### Lines -/

inductive CliEvent (Handler : Type) where
  | write (data : List Byte)
  | call (handler : Handler) (argv : List (List Byte))

/-- The loop that fills the `room` elements left of argv with tokens; `none` if there are more. -/
def splitArguments (room : Nat) (line : List Byte) (start : Nat) : List Byte × Option (List Nat) :=
  match strtok line start, room with
  | (line, _, none), _ => (line, some [])
  | (line, _, some _), 0 => (line, none)
  | (line, next, some token), room + 1 =>
    ((splitArguments room line next).1, (splitArguments room line next).2.map (token :: ·))

/-- What cli_process_line does with the arguments. -/
def dispatch (commands : List (CliCommand Handler)) (argv : List (List Byte)) : List (CliEvent Handler) :=
  match argv with
  | [] => []
  | name :: _ =>
    if name = text "help" then (cliHelp commands argv).map .write
    else
      match findCommand commands name with
      | some command => [.call command.handler argv]
      | none => (cliError (text "CMD") (text "unknown_command; use help")).map .write

def cliProcessLine (commands : List (CliCommand Handler)) (line : List Byte) :
    List Byte × List (CliEvent Handler) :=
  match splitArguments cliMaxArguments line 0 with
  | (line, none) => (line, (cliError (text "ARG") (text "too_many_arguments")).map .write)
  | (line, some argv) => (line, dispatch commands (argv.map (cString line)))

/-- The local variables of cliThread. -/
structure LineAssembler where
  line : List Byte
  lineLength : Nat
  lineTooLong : Bool

/-- The body of the loop for a byte that UART_read has delivered. -/
def LineAssembler.receive (commands : List (CliCommand Handler)) (assembler : LineAssembler) (input : Byte) :
    LineAssembler × List (CliEvent Handler) :=
  if input = carriageReturn ∨ input = lineFeed then
    if assembler.lineTooLong then
      (⟨assembler.line, 0, false⟩, (cliError (text "LINE") (text "too_long")).map .write)
    else if assembler.lineLength ≠ 0 then
      let processed := cliProcessLine commands (assembler.line.set assembler.lineLength 0)
      (⟨processed.1, 0, false⟩, processed.2)
    else (⟨assembler.line, 0, false⟩, [])
  else if assembler.lineLength < cliMaxLineLength - 1 then
    ({ assembler with line := assembler.line.set assembler.lineLength input, lineLength := assembler.lineLength + 1 }, [])
  else ({ assembler with lineTooLong := true }, [])

/-- The loop on the bytes that arrive. -/
def LineAssembler.run (commands : List (CliCommand Handler)) : LineAssembler → List Byte → List (CliEvent Handler)
  | _, [] => []
  | assembler, input :: rest =>
    (assembler.receive commands input).2 ++ LineAssembler.run commands (assembler.receive commands input).1 rest

/-- cliThread from its loop on; `stack` is what the line array held before. -/
def cliThread (commands : List (CliCommand Handler)) (stack : List Byte) (stream : List Byte) :
    List (CliEvent Handler) :=
  LineAssembler.run commands ⟨stack, 0, false⟩ stream

end Cc1310Firmware.Cli
