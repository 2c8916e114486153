import Cc1310Firmware.Cli.Core
import Cc1310Firmware.Codec.Words
import Cc1310Firmware.Host.FwUpdate
import Mathlib.Data.List.DropRight

/-! The text that the updater of the host reads from the CLI: _iter_lines and parse_cli_fields of fw_update.py.

A read returns what has arrived by then. The lines do not depend on how the text was
divided among the reads.
-/

set_option autoImplicit false

namespace Cc1310Firmware.Host
open Words LittleEndian Cli

/-! ### Characters -/

/-- `decode("ascii", "replace")` -/
def decodeAscii (data : List Byte) : List Char :=
  data.map fun b => if b.toNat < 0x80 then Char.ofNat b.toNat else '\uFFFD'

def strip (line : List Char) : List Char := (line.dropWhile isSpace).rdropWhile isSpace

/-- `line.decode("ascii", "replace").strip()` -/
def lineText (line : List Byte) : List Char := strip (decodeAscii line)

/-! ### Lines -/

/-- The inner loop of _iter_lines: the lines that `data` holds, and what is left of it. -/
def drain (data : List Byte) : List (List Byte) × List Byte :=
  if here : lineFeed ∈ data then
    have : (data.drop (data.idxOf lineFeed + 1)).length < data.length := by
      have inside := List.idxOf_lt_length_of_mem here
      rw [List.length_drop]
      omega
    let further := drain (data.drop (data.idxOf lineFeed + 1))
    (data.take (data.idxOf lineFeed) :: further.1, further.2)
  else ([], data)
termination_by data.length

/-- `if text: yield text` -/
def yielded (lines : List (List Byte)) : List (List Char) := (lines.map lineText).filter (! ·.isEmpty)

/-- _iter_lines from the reads on that are still to come before the deadline. -/
def iterLinesFrom : List Byte → List (List Byte) → List (List Char)
  | data, [] => yielded [data]
  | data, chunk :: chunks =>
    if chunk = [] then iterLinesFrom data chunks
    else yielded (drain (data ++ chunk)).1 ++ iterLinesFrom (drain (data ++ chunk)).2 chunks

def iterLines (chunks : List (List Byte)) : List (List Char) := iterLinesFrom [] chunks

theorem yielded_append (first second : List (List Byte)) :
    yielded (first ++ second) = yielded first ++ yielded second := by
  rw [yielded, List.map_append, List.filter_append]
  rfl

theorem drain_open {data : List Byte} (open_ : lineFeed ∉ data) : drain data = ([], data) := by
  rw [drain, dif_neg open_]

theorem drain_line {line : List Byte} (inside : lineFeed ∉ line) (rest : List Byte) :
    drain (line ++ lineFeed :: rest) = (line :: (drain rest).1, (drain rest).2) := by
  have place : (line ++ lineFeed :: rest).idxOf lineFeed = line.length := by
    rw [List.idxOf_append_of_notMem inside, List.idxOf_cons_self, Nat.add_zero]
  have behind : (line ++ lineFeed :: rest).drop (line.length + 1) = rest := by simp
  rw [drain, dif_pos (List.mem_append_right _ List.mem_cons_self)]
  dsimp only
  rw [place, behind, List.take_left]

/-- The loop divides the text at its line feeds, whatever comes behind it. -/
theorem drain_append (data more : List Byte) : (data ++ more).splitOnP (· == lineFeed) =
      (drain data).1 ++ ((drain data).2 ++ more).splitOnP (· == lineFeed) ∧ lineFeed ∉ (drain data).2 := by
  induction length : data.length using Nat.strong_induction_on generalizing data with
  | _ n ih =>
    by_cases some_ : lineFeed ∈ data
    case neg =>
      rw [drain_open some_]
      exact ⟨rfl, some_⟩
    case pos =>
      obtain ⟨line, rest, rfl, inside⟩ := List.eq_append_cons_of_mem some_
      have shorter : rest.length < n := by
        rw [← length, List.length_append, List.length_cons]
        omega
      obtain ⟨further, open_⟩ := ih rest.length shorter rest rfl
      have inside' : ∀ c ∈ line, (c == lineFeed) = false := fun c member =>
        beq_eq_false_iff_ne.mpr fun same => inside (same ▸ member)
      rw [drain_line inside, List.append_assoc, List.cons_append]
      refine ⟨?_, open_⟩
      rw [List.splitOnP_append_cons line _ rfl, List.splitOnP_eq_singleton inside', further]
      rfl

/-- The lines of a text, the last one without its end. -/
def textLines (stream : List Byte) : List (List Char) := yielded (stream.splitOnP (· == lineFeed))

theorem iterLinesFrom_eq {data : List Byte} (open_ : lineFeed ∉ data) (chunks : List (List Byte)) :
    iterLinesFrom data chunks = textLines (data ++ chunks.flatten) := by
  induction chunks generalizing data with
  | nil =>
    have whole : ∀ c ∈ data, (c == lineFeed) = false := fun c member =>
      beq_eq_false_iff_ne.mpr fun same => open_ (same ▸ member)
    rw [List.flatten_nil, List.append_nil, textLines, List.splitOnP_eq_singleton whole]
    rfl
  | cons chunk chunks ih =>
    rw [iterLinesFrom]
    split
    case isTrue empty =>
      rw [empty, ih open_]
      rfl
    case isFalse =>
      obtain ⟨divided, left⟩ := drain_append (data ++ chunk) chunks.flatten
      rw [ih left, textLines, textLines, List.flatten_cons, ← List.append_assoc, divided, yielded_append]

/-- However the text is divided among the reads. -/
theorem iterLines_eq (chunks : List (List Byte)) : iterLines chunks = textLines chunks.flatten :=
  iterLinesFrom_eq (by exact List.not_mem_nil) chunks

end Cc1310Firmware.Host
