import Cc1310Firmware.Cli.Uart

/-! What a host reads on UART0.

A host ends its lines at LF. As long as no task writes while another one is between two
writes of a line, it reads the lines that were begun, in that order.
-/

set_option autoImplicit false

namespace Cc1310Firmware.Cli
open Words LabelledRun SharedChannel Radio

def received (stream : List Byte) : List (List Byte) := lines (· == lineFeed) stream

/-- A line as a host reads it. -/
def Line.row (line : Line) : List Byte := line.body ++ [carriageReturn]

theorem received_lines (printed : List Line) : received (printed.flatMap uartTraffic.text) =
    printed.map Line.row := by
  unfold received
  induction printed with
  | nil => exact lines_open (List.forall_mem_nil _)
  | cons line rest ih =>
    -- CR does not end a line for the host: only the LF behind it does
    have inside : ∀ c ∈ line.row, (c == lineFeed) = false := by
      intro c member
      rcases List.mem_append.mp member with body | cr
      · exact (Bool.or_eq_false_iff.mp (line.inside_body c body)).2
      · rw [List.mem_singleton.mp cr]
        rfl
    have text_ : uartTraffic.text line ++ rest.flatMap uartTraffic.text =
        line.row ++ lineFeed :: rest.flatMap uartTraffic.text := by
      rw [line.text_eq, Line.row, List.append_assoc, List.append_assoc]
      rfl
    rw [List.flatMap_cons, text_, lines_append _ inside rfl, ih, List.map_cons]

/-- The lines that a host has read are those begun first. -/
theorem received_of_prefix {stream rest : List Byte} {printed : List Line}
    (text_ : stream ++ rest = printed.flatMap uartTraffic.text) : received stream <+: printed.map Line.row := by
  rw [← received_lines, ← text_]
  exact lines_prefix (List.forall_mem_nil _) stream rest

/-- In a run in which a task writes only while no other task is in the middle of a line,
UART0 carries whole lines, each ended by CR LF, and the answers among them are recognised. -/
theorem whole_lines_of_exclusive {history : List (Transition (Channel UartTask Byte) (Event UartTask Line))}
    {uart : Channel UartTask Byte} (run : Run (Step uartTraffic) Channel.quiet history uart)
    (exclusive : ∀ x ∈ history, Exclusive uartTraffic x) :
    (∃ task, uart.Alone task ∧ uart.output ++ (uart.left task).flatten = (started history).flatMap uartTraffic.text) ∧
    ((∀ task, uart.left task = []) → uart.output = (started history).flatMap uartTraffic.text) ∧
    (∀ line ∈ started history, uartTraffic.text line = line.body ++ [carriageReturn, lineFeed] ∧
      ∀ c ∈ line.body, isLineEnd c = false) ∧
    ∀ (k : Nat) (row : List Byte), (received uart.output)[k]? = some row →
      ∃ line : Line, (started history)[k]? = some line ∧ row = line.row ∧ (line.task = .cli → IsAnswer row) := by
  obtain ⟨task, whole⟩ := contiguous_of_exclusive run exclusive
  refine ⟨⟨task, whole.alone, whole.text⟩, fun idle => whole.output_eq (idle task), ?_, ?_⟩
  · intro line _
    exact ⟨line.text_eq, line.inside_body⟩
  · intro k row place
    obtain ⟨more, same⟩ := received_of_prefix whole.text
    have inside : k < (received uart.output).length := (List.getElem?_eq_some_iff.mp place).1
    rw [← @List.getElem?_append_left _ _ more _ inside, same, List.getElem?_map] at place
    obtain ⟨line, listed, rfl⟩ := Option.map_eq_some_iff.mp place
    refine ⟨line, listed, rfl, fun cli => ?_⟩
    rcases Line.isAnswer_body cli with ok | error
    · exact .inl (ok.trans (List.prefix_append _ _))
    · exact .inr (error.trans (List.prefix_append _ _))

def versionLine : Line := .ok ⟨text "version=0.2.1", by decide⟩

/-- UART0 after some of the writes of an answer to `version`. -/
def versionUart : Nat → Channel UartTask Byte
  | 0 => .quiet
  | count + 1 =>
    (versionUart count).put .cli (versionLine.writes.getD count []) (versionLine.writes.drop (count + 1))

theorem whole_lines_of_exclusive_version : ∃ history uart, Run (Step uartTraffic) Channel.quiet history uart ∧
    started history = [versionLine] ∧ uart.output = [versionLine].flatMap uartTraffic.text := by
  have first : Step uartTraffic _ (.start versionLine) (versionUart 1) := .start rfl rfl
  have second : Step uartTraffic _ (.more .cli) (versionUart 2) := .more rfl
  have third : Step uartTraffic _ (.more .cli) (versionUart 3) := .more rfl
  have last : Step uartTraffic _ (.more .cli) (versionUart 4) := .more rfl
  have run := (((Run.nil.next first).next second).next third).next last
  refine ⟨_, _, run, rfl, (whole_lines_of_exclusive run ?_).2.1 ?_⟩
  · have alone : ∀ count, (versionUart count).Alone .cli := by
      intro count
      induction count with
      | zero => exact fun _ _ => rfl
      | succ count ih => exact ih.put _ _
    intro x member
    simp only [List.nil_append, List.cons_append, List.mem_cons, List.not_mem_nil, or_false] at member
    rcases member with rfl | rfl | rfl | rfl
    · exact alone 0
    · exact alone 1
    · exact alone 2
    · exact alone 3
  · intro task
    cases task <;> rfl

/-! ### A line that is cut -/

/-- Each line of the firmware is told by its first characters. -/
theorem Line.starts (line : Line) : IsAnswer line.row ∨ text "RX seq=" <+: line.row := by
  have answer : IsAnswer line.body ∨ text "RX seq=" <+: line.body := by
    cases line with
    | ok | error | command | sync => exact .inl (Line.isAnswer_body rfl)
    | dump => exact .inl (isAnswer_withMessage _ (.inl List.prefix_rfl))
    | packet =>
      simp only [Line.body, packetHeader, List.append_assoc]
      exact .inr (List.prefix_append _ _)
  rcases answer with (ok | error) | packet
  · exact .inl (.inl (ok.trans (List.prefix_append _ _)))
  · exact .inl (.inr (error.trans (List.prefix_append _ _)))
  · exact .inr (packet.trans (List.prefix_append _ _))

def firstPacket : RfPacketMessage := ⟨0, 100, .radio, 1, [0x2A]⟩

def firstPacketLine : Line := .packet firstPacket ⟨rfl, by decide⟩

/-- The packet printer comes in behind the `OK` of the answer. -/
def cutUart : Channel UartTask Byte := (versionUart 1).put .packetPrint (printPacket firstPacket) []

theorem version_answer_cut : ∃ history uart, Run (Step uartTraffic) Channel.quiet history uart ∧
    started history = [versionLine, firstPacketLine] ∧ (∀ task, uart.left task = []) ∧
    received uart.output = [text "OKRX seq=0 tick=100 len=1 data=2A\r", text " version=0.2.1\r"] ∧
    ¬ IsAnswer (text " version=0.2.1\r") ∧ ∀ printed : List Line,
      uart.output ≠ printed.flatMap uartTraffic.text := by
  have begins : Step uartTraffic _ (.start versionLine) (versionUart 1) := .start rfl rfl
  have cuts : Step uartTraffic _ (.start firstPacketLine) cutUart := .start rfl rfl
  have second : Step uartTraffic cutUart (.more .cli) (cutUart.put .cli (text " ") (versionLine.writes.drop 2)) :=
    .more rfl
  have third : Step uartTraffic _ (.more .cli) ((cutUart.put .cli (text " ") (versionLine.writes.drop 2)).put .cli
    (text "version=0.2.1") (versionLine.writes.drop 3)) := .more rfl
  have last : Step uartTraffic _ (.more .cli) (((cutUart.put .cli (text " ") (versionLine.writes.drop 2)).put .cli
    (text "version=0.2.1") (versionLine.writes.drop 3)).put .cli newline []) := .more rfl
  have rows : received (cutUart.output ++ text " " ++ text "version=0.2.1" ++ newline) =
      [text "OKRX seq=0 tick=100 len=1 data=2A\r", text " version=0.2.1\r"] := by decide +kernel
  refine ⟨_, _, ((((Run.nil.next begins).next cuts).next second).next third).next last, rfl, ?_, rows, ?_, ?_⟩
  · intro task
    cases task <;> rfl
  · unfold IsAnswer
    decide
  · intro printed whole
    -- whatever lines were meant, one of them would have to begin with a blank
    have listed : text " version=0.2.1\r" ∈ printed.map Line.row := by
      rw [← received_lines, ← whole]
      exact rows ▸ List.mem_cons_of_mem _ (List.mem_singleton_self _)
    obtain ⟨line, _, row⟩ := List.mem_map.mp listed
    have starts := line.starts
    rw [row] at starts
    revert starts
    unfold IsAnswer
    decide

end Cc1310Firmware.Cli
