import Cc1310Firmware.Cli.Uart
import Cc1310Firmware.Codec.Backtracking
import Cc1310Firmware.Codec.HexText
import Mathlib.Data.List.DropRight

/-! The lines that read_uart of rf_latency_logger.py recognises.

A line that is decoded as ASCII is kept as bytes: one from 0x80 on stands for U+FFFD,
which is in no class of the patterns.
-/

set_option autoImplicit false

namespace Cc1310Firmware.Analysis
open Backtracking Cli Radio LittleEndian

/-! ### The patterns -/

def isDigit (c : Byte) : Bool := decide (0x30 ≤ c.toNat ∧ c.toNat ≤ 0x39)

/-- `[0-9A-Fa-f]` -/
def isHexDigit (c : Byte) : Bool :=
  isDigit c || decide (0x41 ≤ c.toNat ∧ c.toNat ≤ 0x46) || decide (0x61 ≤ c.toNat ∧ c.toNat ≤ 0x66)

/-- `\s`, and what str.strip drops. -/
def isSpace (c : Byte) : Bool := decide ((9 ≤ c.toNat ∧ c.toNat ≤ 13) ∨ (28 ≤ c.toNat ∧ c.toNat ≤ 32))

/-- `\w` -/
def isWord (c : Byte) : Bool :=
  isDigit c || decide (0x41 ≤ c.toNat ∧ c.toNat ≤ 0x5A) || decide (0x61 ≤ c.toNat ∧ c.toNat ≤ 0x7A) || c == 0x5F

def digits : Pattern Byte := atLeastOnce (.one isDigit)
def spaces : Pattern Byte := atLeastOnce (.one isSpace)

/-- `t_tick=(\d+)\s+t_us=(\d+)`, as groups 1 and 2 or 2 and 3 -/
def localClock (tick us : Nat) : List (Pattern Byte) :=
  [literal (text "t_tick="), .group tick digits, spaces, literal (text "t_us="), .group us digits]

/-- TX_RE -/
def txRe : Pattern Byte :=
  sequence [.boundary isWord, literal (text "TX:"), .many (.one isSpace),
    optional (.either
      (sequence (localClock 1 2 ++ [spaces, literal (text "data=")]))
      (sequence [literal (text "tick="), .group 3 digits, spaces, literal (text "data=")])),
    .group 4 (atLeastOnce (sequence [.one isHexDigit, .one isHexDigit, .many (.one isSpace)]))]

/-- RX_RE behind its `\b` -/
def rxParts : List (Pattern Byte) :=
  [literal (text "RX"), spaces, literal (text "seq="), .group 1 digits,
    optional (.either
      (sequence (spaces :: localClock 2 3))
      (sequence [spaces, literal (text "tick="), .group 4 digits])),
    spaces, literal (text "len="), .group 5 digits, spaces, literal (text "data="),
    .group 6 (atLeastOnce (.one isHexDigit))]

/-- RX_RE -/
def rxRe : Pattern Byte := sequence (.boundary isWord :: rxParts)

/-! ### Entries -/

/-- text.strip() -/
def strip (line : List Byte) : List Byte := (line.dropWhile isSpace).rdropWhile isSpace

/-- int(digits) -/
def number (digits : List Byte) : Nat := digits.foldl (fun value digit => 10 * value + (digit.toNat - 0x30)) 0

/-- bytes.fromhex(encoded), `none` where it raises a ValueError. -/
def fromHex (encoded : List Byte) : Option (List Byte) :=
  HexText.fromHex (encoded.map fun c => Char.ofNat c.toNat)

/-- What a line is taken for, before the lengths are looked at. -/
inductive LogEntry where
  | tx (data : Option (List Byte)) (tick localUs : Option Nat)
  | rx (seq length : Nat) (data : Option (List Byte)) (tick localUs : Option Nat)
  deriving DecidableEq, Repr

def txEntry (groups : Nat → Option (List Byte)) : LogEntry :=
  .tx (fromHex ((groups 4).getD [])) ((groups 1 <|> groups 3).map number) ((groups 2).map number)

def rxEntry (groups : Nat → Option (List Byte)) : LogEntry :=
  .rx (number ((groups 1).getD [])) (number ((groups 5).getD [])) (fromHex ((groups 6).getD []))
    ((groups 2 <|> groups 4).map number) ((groups 3).map number)

def logEntry (raw : List Byte) : Option LogEntry :=
  let line := strip raw
  match txRe.search none line with
  | some found => some (txEntry found.groups)
  | none => (rxRe.search none line).map fun found => rxEntry found.groups

/-- The arguments of a call of Matcher.tx or Matcher.rx, but for the time and the port. -/
inductive LogCall where
  | tx (data : List Byte) (tick localUs : Option Nat)
  | rx (seq : Nat) (data : List Byte) (tick localUs : Option Nat)
  deriving DecidableEq, Repr

/-- Only payloads of 30 bytes reach the matcher. -/
def LogEntry.call : LogEntry → Option LogCall
  | .tx (some data) tick localUs => if data.length = 30 then some (.tx data tick localUs) else none
  | .rx seq length (some data) tick localUs =>
    if length = 30 ∧ data.length = 30 then some (.rx seq data tick localUs) else none
  | .tx none _ _ | .rx _ _ none _ _ => none

def logCall (raw : List Byte) : Option LogCall := (logEntry raw).bind LogEntry.call

end Cc1310Firmware.Analysis
