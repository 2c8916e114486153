import Cc1310Firmware.Cli.Tokens

/-! From the bytes of the serial line to the calls of the command handlers.

cliThread answers each line on its own. The state between two bytes is determined
by the bytes of the line that is not finished yet.
-/

set_option autoImplicit false

namespace Cc1310Firmware.Cli
open Words

variable {Handler : Type} {commands : List (CliCommand Handler)}

/-! ### What a line asks for -/

def isLineEnd (c : Byte) : Bool := c == carriageReturn || c == lineFeed

def isBlank (c : Byte) : Bool := c == 0x20 || c == 0x09

/-- The answer to a line without its end. -/
def response (commands : List (CliCommand Handler)) (line : List Byte) : List (CliEvent Handler) :=
  if 127 < line.length then (cliError (text "LINE") (text "too_long")).map .write
  else if 8 < (words isBlank line).length then (cliError (text "ARG") (text "too_many_arguments")).map .write
  else dispatch commands (words isBlank line)

/-- The call for an argument vector: the first entry of the table with the name of its command. -/
def lookup (commands : List (CliCommand Handler)) : List (List Byte) → Option (Handler × List (List Byte))
  | [] => none
  | name :: rest =>
    if name = text "help" then none
    else (commands.find? (name == ·.name)).map fun command => (command.handler, name :: rest)

/-- The calls among what the thread does. -/
def calls (events : List (CliEvent Handler)) : List (Handler × List (List Byte)) :=
  events.filterMap fun event => match event with
    | .write _ => none
    | .call handler argv => some (handler, argv)

variable (commands) in
theorem cliProcessLine_spec {content : List Byte} (garbage : List Byte) (nonzero : ∀ b ∈ content, b ≠ 0) :
    (cliProcessLine commands (content ++ 0 :: garbage)).1.length = (content ++ 0 :: garbage).length ∧
    (cliProcessLine commands (content ++ 0 :: garbage)).2 =
      if cliMaxArguments < (words isDelimiter content).length then
        (cliError (text "ARG") (text "too_many_arguments")).map .write
      else dispatch commands (words isDelimiter content) := by
  have split := splitArguments_spec cliMaxArguments [] content garbage nonzero
  rw [List.nil_append, List.length_nil] at split
  unfold cliProcessLine
  generalize splitArguments cliMaxArguments _ 0 = result at split ⊢
  obtain ⟨line, argv⟩ := result
  obtain ⟨⟨rest, same, length⟩, words_⟩ := split
  dsimp only at same words_
  have length' : line.length = (content ++ 0 :: garbage).length := by
    rw [same, List.nil_append, length, List.length_append, List.length_cons, Nat.add_assoc]
  by_cases fits : (words isDelimiter content).length ≤ cliMaxArguments
  · rw [if_pos fits] at words_
    obtain ⟨offsets, rfl, strings⟩ := Option.map_eq_some_iff.mp words_
    rw [if_neg (Nat.not_lt_of_le fits), ← strings]
    exact ⟨length', rfl⟩
  · rw [if_neg fits] at words_
    obtain rfl := Option.map_eq_none_iff.mp words_
    rw [if_pos (Nat.lt_of_not_le fits)]
    exact ⟨length', rfl⟩

/-! ### The thread -/

/-- The state in the middle of a line. -/
structure LineAssembler.Holds (assembler : LineAssembler) (line : List Byte) : Prop where
  size : assembler.line.length = cliMaxLineLength
  lineTooLong : assembler.lineTooLong = decide (127 < line.length)
  lineLength : assembler.lineLength = min line.length 127
  stored : assembler.line.take assembler.lineLength = line.take assembler.lineLength

theorem LineAssembler.Holds.restart {line : List Byte} (size : line.length = cliMaxLineLength) :
    LineAssembler.Holds ⟨line, 0, false⟩ [] := ⟨size, rfl, rfl, rfl⟩

theorem isLineEnd_iff (c : Byte) : isLineEnd c = true ↔ c = carriageReturn ∨ c = lineFeed := by
  simp [isLineEnd]

variable (commands) in
/-- A byte inside a line. -/
theorem LineAssembler.Holds.inside {assembler : LineAssembler} {line : List Byte} (holds : assembler.Holds line)
    {input : Byte} (inside : isLineEnd input = false) : (assembler.receive commands input).2 = [] ∧
      (assembler.receive commands input).1.Holds (line ++ [input]) := by
  obtain ⟨size, tooLong, length, stored⟩ := holds
  have notEnd : ¬ (input = carriageReturn ∨ input = lineFeed) := by
    rw [← isLineEnd_iff, inside]
    decide
  unfold LineAssembler.receive
  rw [if_neg notEnd]
  -- the 127th byte is the last one that is stored; the next one sets lineTooLong
  by_cases room : line.length < 127
  case pos =>
    have here : assembler.lineLength = line.length := by rw [length, Nat.min_eq_left (Nat.le_of_lt room)]
    rw [if_pos (by rw [here]; exact room)]
    refine ⟨rfl, ?_, ?_, ?_, ?_⟩
    · rw [List.length_set, size]
    · rw [tooLong, List.length_append, List.length_singleton, decide_eq_false (by omega),
        decide_eq_false (by omega)]
    · rw [here, List.length_append, List.length_singleton, Nat.min_eq_left room]
    · dsimp only
      rw [here, List.take_length] at stored
      have fits : line.length < assembler.line.length := Nat.lt_trans room (by rw [size]; decide)
      have whole : (line ++ [input]).length = line.length + 1 := List.length_append
      calc (assembler.line.set assembler.lineLength input).take (assembler.lineLength + 1)
        _ = ((line ++ [input]) ++ assembler.line.drop (line.length + 1)).take (line ++ [input]).length := by
          rw [here, whole, List.set_eq_take_append_cons_drop, if_pos fits, stored, List.append_assoc,
            List.singleton_append]
        _ = (line ++ [input]).take (line ++ [input]).length := by rw [List.take_left, List.take_length]
        _ = (line ++ [input]).take (assembler.lineLength + 1) := by rw [here, whole]
  case neg =>
    have full : assembler.lineLength = 127 := by rw [length, Nat.min_eq_right (Nat.le_of_not_lt room)]
    rw [if_neg (by rw [full]; decide)]
    refine ⟨rfl, size, ?_, ?_, ?_⟩
    · rw [List.length_append, List.length_singleton, decide_eq_true (by omega)]
    · rw [full, List.length_append, Nat.min_eq_right (by omega)]
    · rw [List.take_append_of_le_length (by rw [full]; omega)]
      exact stored

variable (commands) in
/-- A line end. -/
theorem LineAssembler.Holds.finish {assembler : LineAssembler} {line : List Byte} (holds : assembler.Holds line)
    (nonzero : ∀ b ∈ line, b ≠ 0) (open_ : ∀ b ∈ line, isLineEnd b = false) {input : Byte}
    (end_ : isLineEnd input = true) :
    (assembler.receive commands input).2 = response commands line ∧
      (assembler.receive commands input).1.Holds [] := by
  obtain ⟨size, tooLong, length, stored⟩ := holds
  unfold LineAssembler.receive response
  rw [if_pos ((isLineEnd_iff input).mp end_), tooLong]
  by_cases long : 127 < line.length
  case pos =>
    rw [if_pos long, if_pos (decide_eq_true long)]
    exact ⟨rfl, .restart size⟩
  case neg =>
    have here : assembler.lineLength = line.length := by rw [length, Nat.min_eq_left (Nat.le_of_not_lt long)]
    rw [if_neg long, if_neg (by simpa using long), here]
    by_cases empty : line = []
    · subst empty
      rw [if_neg (by simp)]
      exact ⟨rfl, .restart size⟩
    · rw [if_pos (by simpa using empty)]
      have fits : line.length < assembler.line.length := by rw [size]; exact Nat.lt_succ_of_le (Nat.le_of_not_lt long)
      rw [here, List.take_length] at stored
      rw [List.set_eq_take_append_cons_drop, if_pos fits, stored]
      obtain ⟨length', events⟩ := cliProcessLine_spec commands (assembler.line.drop (line.length + 1)) nonzero
      have size' : (line ++ 0 :: assembler.line.drop (line.length + 1)).length = cliMaxLineLength := by
        rw [List.length_append, List.length_cons, List.length_drop, ← size]
        omega
      -- strtok also splits at CR and LF, but no line contains them
      have same : ∀ b ∈ line, isDelimiter b = isBlank b := by
        intro b member
        have := open_ b member
        simp only [isLineEnd, isDelimiter, isBlank, Bool.or_eq_false_iff] at this ⊢
        simp [this]
      refine ⟨?_, .restart (length'.trans size')⟩
      rw [events, words_congr same]
      rfl

theorem LineAssembler.Holds.run {assembler : LineAssembler} {line : List Byte} (holds : assembler.Holds line)
    (open_ : ∀ b ∈ line, isLineEnd b = false) (stream : List Byte) (nonzero : ∀ b ∈ line ++ stream, b ≠ 0) :
    assembler.run commands stream = (lines isLineEnd (line ++ stream)).flatMap (response commands) := by
  -- on the bytes still to come, with the unfinished line as the state
  induction stream generalizing assembler line with
  | nil =>
    rw [List.append_nil, lines_open open_]
    rfl
  | cons input stream ih =>
    unfold LineAssembler.run
    cases here : isLineEnd input with
    | false =>
      obtain ⟨silent, next⟩ := holds.inside commands here
      have open' : ∀ b ∈ line ++ [input], isLineEnd b = false := by
        intro b member
        rcases List.mem_append.mp member with before | now
        · exact open_ b before
        · rw [List.mem_singleton.mp now, here]
      have joined : line ++ [input] ++ stream = line ++ input :: stream := by simp
      rw [silent, List.nil_append, ih next open' (by rw [joined]; exact nonzero), joined]
    | true =>
      have nonzero' : ∀ b ∈ line, b ≠ 0 := fun b member => nonzero b (List.mem_append_left _ member)
      obtain ⟨answer, next⟩ := holds.finish commands nonzero' open_ here
      have rest := ih next (List.forall_mem_nil _) fun b member => nonzero b (by simp at member; simp [member])
      rw [answer, rest, lines_append _ open_ here, List.flatMap_cons, List.nil_append]

inductive LineEnd where
  | cr
  | lf
  | crlf

def LineEnd.bytes : LineEnd → List Byte
  | .cr => [carriageReturn]
  | .lf => [lineFeed]
  | .crlf => [carriageReturn, lineFeed]

/-- Lines as a terminal sends them. -/
def terminated (rows : List (List Byte × LineEnd)) : List Byte := rows.flatMap fun row => row.1 ++ row.2.bytes

@[simp] theorem response_nil : response commands [] = [] := rfl

end Cc1310Firmware.Cli
