import Cc1310Firmware.Analysis.PacketLines
import Cc1310Firmware.Cli.ConsoleLines
import Cc1310Firmware.Cli.WholeLines

/-! What the latency logger makes of the output of a receiver.

readline returns at a line feed or when it times out, so a line may be cut anywhere. The
tasks of the device may mix their writes. The logger still takes for a packet only what
the print task has printed as one, once and in order. It takes all of them if no task
writes in the middle of another's line and readline does not time out.
-/

set_option autoImplicit false

namespace Cc1310Firmware.Analysis
open LabelledRun Backtracking Cli Radio LittleEndian

/-- What readline returns: no line feed but the last character. -/
def OneLine (segment : List Byte) : Prop := lineFeed ∉ segment.dropLast

/-! ### Rows of a stream -/

theorem Quiet.not_begins {row front after : List Byte} (quiet : Quiet row) (split : row = front ++ after)
    (first : Byte) (rest : List Byte) : after ≠ first :: 0x58 :: rest := by
  rintro rfl
  exact (quiet.suffix ⟨front, split.symm⟩) List.mem_cons_self

theorem Quiet.logCall {raw : List Byte} (quiet : Quiet raw) : logCall raw = none := by
  have stripped : Quiet (strip raw) :=
    (quiet.suffix (List.dropWhile_suffix _)).front (List.rdropWhile_prefix _ _)
  have tx : txRe.search none (strip raw) = none :=
    search_none _ fun front after split => refuses_of_begins txRe_begins (stripped.not_begins split _)
  have rx : rxRe.search none (strip raw) = none :=
    search_none _ fun front after split => refuses_of_begins rxRe_begins (stripped.not_begins split _)
  rw [Analysis.logCall, logEntry, tx, rx]
  rfl

theorem printPacket_row {message : RfPacketMessage} (sized : message.Sized) :
    printPacket message = packetRow message :=
  printPacket_eq sized

/-- A packet line ends where it has its line feed. -/
theorem packet_ends_line {message : RfPacketMessage} {front back : List Byte}
    (line : OneLine (front ++ (packetRow message ++ back))) : back = [] := by
  by_contra some_
  refine line ?_
  rw [← List.append_assoc, List.dropLast_append_of_ne_nil some_]
  exact List.mem_append_left _ (List.mem_append_right _ (List.mem_append_right _ (by decide)))

/-- The first line that is read has no packet, or the next one. -/
theorem readline_step {pieces : List Piece} {rest segment more : List Byte} (quiet : Quiet rest)
    (line : OneLine segment) (split : segment ++ more = rest ++ pieces.flatMap Piece.bytes) :
    ∃ (rest' : List Byte) (pieces' : List Piece), more = rest' ++ pieces'.flatMap Piece.bytes ∧ Quiet rest' ∧
      (Quiet segment ∧ (pieces'.filterMap Piece.message).Sublist (pieces.filterMap Piece.message) ∨
        ∃ message, message.Sized ∧ PrintedRow message segment ∧
          pieces.filterMap Piece.message = message :: pieces'.filterMap Piece.message) := by
  induction pieces generalizing rest with
  | nil =>
    rw [List.flatMap_nil, List.append_nil] at split
    refine ⟨more, [], (List.append_nil _).symm, ?_, .inl ⟨?_, .refl _⟩⟩
    · exact quiet.suffix ⟨segment, split⟩
    · exact quiet.front ⟨more, split⟩
  | cons piece pieces ih =>
    rcases List.append_eq_append_iff.mp split with ⟨tail, inside, behind⟩ | ⟨tail, inside, behind⟩
    · -- the segment ends in what is left of an earlier write
      refine ⟨tail, piece :: pieces, behind, ?_, .inl ⟨?_, .refl _⟩⟩
      · exact quiet.suffix ⟨segment, inside.symm⟩
      · exact quiet.front ⟨tail, inside.symm⟩
    · cases piece with
      | plain data noX =>
        have joined : segment ++ more = (rest ++ data) ++ pieces.flatMap Piece.bytes := by
          rw [split, List.flatMap_cons, List.append_assoc]
          rfl
        exact ih (quiet.append noX) joined
      | packet message sized =>
        rw [List.flatMap_cons, Piece.bytes, printPacket_row sized] at behind
        rcases List.append_eq_append_iff.mp behind with ⟨back, whole, others⟩ | ⟨back, cut, others⟩
        · -- the whole packet line
          rw [whole] at inside
          rw [inside] at line
          rw [packet_ends_line line, List.nil_append] at others
          refine ⟨[], pieces, others.symm, List.not_mem_nil, .inr ⟨message, sized, ?_, rfl⟩⟩
          refine ⟨rest, packetRow message, ?_, quiet, List.prefix_rfl⟩
          rw [inside, packet_ends_line line, List.append_nil]
        · cases tail with
          | nil =>
            -- the packet line is still to come
            refine ⟨[], .packet message sized :: pieces, ?_, List.not_mem_nil, .inl ⟨?_, .refl _⟩⟩
            · rw [others, ← List.nil_append back, ← cut, ← printPacket_row sized]
              rfl
            · rw [inside, List.append_nil]
              exact quiet
          | cons c tail =>
            refine ⟨back, pieces, others, ?_, .inr ⟨message, sized, ?_, rfl⟩⟩
            · have here : c :: (tail ++ back) <+: packetRow message := by
                rw [cut]
                exact List.prefix_rfl
              exact quiet_of_cut here (List.suffix_append _ _)
            · exact ⟨rest, c :: tail, inside, quiet, ⟨back, cut.symm⟩⟩

/-- However the output is cut into lines. -/
theorem logCalls_sublist {pieces : List Piece} {rest : List Byte} {segments : List (List Byte)} (quiet : Quiet rest)
    (read : segments.flatten <+: rest ++ pieces.flatMap Piece.bytes)
    (lines : ∀ segment ∈ segments, OneLine segment) :
    (segments.filterMap logCall).Sublist ((pieces.filterMap Piece.message).filterMap messageCall) := by
  induction segments generalizing pieces rest with
  | nil => exact List.nil_sublist _
  | cons segment segments ih =>
    obtain ⟨line, others⟩ := List.forall_mem_cons.mp lines
    obtain ⟨more, whole⟩ := read
    rw [List.flatten_cons, List.append_assoc] at whole
    obtain ⟨rest', pieces', split, quiet', outcome⟩ := readline_step quiet line whole
    have further := ih quiet' (split ▸ List.prefix_append _ _) others
    rcases outcome with ⟨silent, fewer⟩ | ⟨message, sized, row, messages⟩
    · rw [List.filterMap_cons_none silent.logCall]
      exact further.trans (fewer.filterMap _)
    · rw [messages]
      rcases logCall_row sized row with none_ | same
      · rw [List.filterMap_cons_none none_]
        exact further.trans ((List.sublist_cons_self _ _).filterMap _)
      · cases call : messageCall message with
        | none =>
          rw [List.filterMap_cons_none (same.trans call), List.filterMap_cons_none call]
          exact further
        | some arguments =>
          rw [List.filterMap_cons_some (same.trans call), List.filterMap_cons_some call]
          exact further.cons_cons _

/-! ### Runs -/

/-- readline without a time-out. -/
def wholeLines (stream : List Byte) : List (List Byte) := (Cli.received stream).map (· ++ [lineFeed])

/-- A packet for the frame number 0x1234. -/
def watchedPacket : List Byte := [
  0x53, 0x59, 0x02, 0x04, 0x00, 0x00, 0x00, 0x00, 0x00, 0x00, 0x12, 0x34, 0xE3, 0xCD, 0xBD,
  0xFA, 0x19, 0xC7, 0x5F, 0x52, 0x94, 0x2C, 0x85, 0xA8, 0x8C, 0x59, 0x5D, 0xE5, 0xC8, 0x74]

/-- The dump is switched on and the packet arrives. -/
def watchEvents : List ConsoleEvent :=
  .ready :: List.replicate 7 (.more .cli) ++ (text "rx dump on\r").map (.input · meetsNothing) ++
  List.replicate 3 (.more .cli) ++ [.post ⟨fun i => watchedPacket.getD i 0, 30, 77⟩, .pend, .dumpGet]

def watchEnd : Option Console :=
  watchEvents.foldlM (Console.checked fun x => decide (Undisturbed x)) (.start .rx (List.replicate 128 0))

theorem watch_run : ∃ history c, Run ConsoleStep (.start .rx (List.replicate 128 0)) history c ∧
    (∀ x ∈ history, Undisturbed x) ∧ watchEnd = some c := by
  have some_ : watchEnd.isSome = true := by decide +kernel
  obtain ⟨c, done⟩ := Option.isSome_iff_exists.mp some_
  obtain ⟨history, run, _, checks⟩ := run_of_events done
  exact ⟨history, c, run, fun x member => of_decide_eq_true (checks x member), done⟩

theorem watch_lines : ∀ c ∈ watchEnd, (wholeLines c.uart.output).flatten <+: c.uart.output ∧
    ∀ segment ∈ wholeLines c.uart.output, OneLine segment := by
  unfold OneLine
  decide +kernel

section
variable {role : I2cSlave.FirmwareRole} {stack : List Byte} {history : List ConsoleTransition} {c : Console}

theorem calls_of_run (run : Run ConsoleStep (.start role stack) history c) {segments : List (List Byte)}
    (read : segments.flatten <+: c.uart.output) (lines : ∀ segment ∈ segments, OneLine segment) :
    (segments.filterMap logCall).Sublist ((shown history).filterMap messageCall) := by
  obtain ⟨⟨_, uart, _⟩, _⟩ := consoleInv_of_run run
  obtain ⟨pieces, output, messages⟩ := uart.pieces
  have quiet : Quiet [] := List.not_mem_nil
  rw [output, ← List.nil_append (List.flatMap _ _)] at read
  rw [← messages]
  exact logCalls_sublist quiet read lines

theorem shown_of_run (run : Run ConsoleStep (.start role stack) history c) :
    (shown history).Sublist ((acceptedPackets c.radio.log).map fun packet => packet.2.message packet.1) := by
  obtain ⟨⟨radio, _, order⟩, _⟩ := consoleInv_of_run run
  obtain ⟨mailbox, _, _, accepted⟩ := radio.messages
  rw [← accepted]
  exact ((List.sublist_append_left _ _).trans order).trans (List.sublist_append_left _ _)

end

/-- What the logger takes from a receiver are packets that the queue has accepted, each at most once and in
the order of their numbers, with sequence number, time stamp and payload intact: over every order
in which the tasks write, and however readline cuts the output. -/
theorem logger_hears_accepted {role : I2cSlave.FirmwareRole} {stack : List Byte} {history : List ConsoleTransition}
    {c : Console} (run : Run ConsoleStep (.start role stack) history c) {segments : List (List Byte)}
    (read : segments.flatten <+: c.uart.output) (lines : ∀ segment ∈ segments, OneLine segment) :
    (segments.filterMap logCall).Sublist ((shown history).filterMap messageCall) ∧
    (shown history).Sublist ((acceptedPackets c.radio.log).map fun packet => packet.2.message packet.1) :=
  ⟨calls_of_run run read lines, shown_of_run run⟩

theorem logger_hears_accepted_watched : ∃ history c, Run ConsoleStep (.start .rx (List.replicate 128 0)) history c ∧
    ((wholeLines c.uart.output).filterMap logCall).Sublist ((shown history).filterMap messageCall) := by
  obtain ⟨history, c, run, _, done⟩ := watch_run
  obtain ⟨read, lines⟩ := watch_lines c done
  exact ⟨history, c, run, (logger_hears_accepted run read lines).1⟩

/-! ### Whole lines -/

theorem wholeLines_append {front : List Byte} (ended : LineEnded front) (back : List Byte) :
    wholeLines (front ++ back) = wholeLines front ++ wholeLines back := by
  rcases List.eq_nil_or_concat front with rfl | ⟨start, last, rfl⟩
  · rfl
  · rw [List.concat_eq_append] at ended ⊢
    have feed : last = lineFeed := ended last List.getLast?_concat
    rw [feed, wholeLines, Cli.received, List.append_assoc, List.singleton_append,
      Words.lines_append_end start back rfl, List.map_append]
    rfl

/-- A line with no X is no packet. -/
theorem logCall_plain {data : List Byte} (noX : 0x58 ∉ data) : (wholeLines data).filterMap logCall = [] := by
  refine List.filterMap_eq_nil_iff.mpr fun line listed => Quiet.logCall fun member => ?_
  obtain ⟨row, row_, rfl⟩ := List.mem_map.mp listed
  rcases List.mem_append.mp (List.mem_of_mem_tail member) with inside | feed
  · exact noX (Words.mem_of_mem_lines row_ _ inside)
  · cases List.mem_singleton.mp feed

theorem logCall_packet {message : RfPacketMessage} (sized : message.Sized) :
    (wholeLines (printPacket message)).filterMap logCall = (messageCall message).toList := by
  have inside : ∀ c ∈ (Line.packet message sized).row, (c == lineFeed) = false := by
    intro c member
    rcases List.mem_append.mp member with body | cr
    · exact (Bool.or_eq_false_iff.mp ((Line.packet message sized).inside_body c body)).2
    · rw [List.mem_singleton.mp cr]
      rfl
  have text_ : printPacket message = (Line.packet message sized).row ++ [lineFeed] := by
    rw [printPacket_eq sized, Line.row, List.append_assoc _ [carriageReturn]]
    rfl
  have line : wholeLines (printPacket message) = [printPacket message] := by
    rw [wholeLines, Cli.received]
    conv_lhs => rw [text_]
    rw [Words.lines_append _ inside rfl, Words.lines_open (List.forall_mem_nil _), text_]
    rfl
  rw [line, printPacket_row sized, List.filterMap_cons, logCall_printed sized]
  cases messageCall message with
  | none | some => rfl

/-- If no task writes in the middle of what another one writes, the logger takes every packet that the print
task has printed with 30 bytes, once and in order, from lines that are read to their ends. -/
theorem logger_hears_all {role : I2cSlave.FirmwareRole} {stack : List Byte} {history : List ConsoleTransition}
    {c : Console} (run : Run ConsoleStep (.start role stack) history c) (undisturbed : ∀ x ∈ history, Undisturbed x)
    (idle : ∀ task, c.uart.left task = []) :
    (wholeLines c.uart.output).filterMap logCall = (shown history).filterMap messageCall := by
  obtain ⟨pieces, output, ended, messages⟩ := lines_of_undisturbed run undisturbed idle
  rw [output, ← messages]
  clear output messages
  induction pieces with
  | nil => rfl
  | cons piece pieces ih =>
    obtain ⟨here, others⟩ := List.forall_mem_cons.mp ended
    rw [List.flatMap_cons, wholeLines_append here, List.filterMap_append, ih others]
    cases piece with
    | plain data noX =>
      rw [Piece.bytes, logCall_plain noX]
      rfl
    | packet message sized =>
      rw [Piece.bytes, logCall_packet sized, List.filterMap_cons]
      dsimp only [Piece.message]
      rw [List.filterMap_cons]
      cases messageCall message with
      | none | some => rfl

theorem logger_hears_all_watched : ∃ history c, Run ConsoleStep (.start .rx (List.replicate 128 0)) history c ∧
    (wholeLines c.uart.output).filterMap logCall = (shown history).filterMap messageCall := by
  have silent : ∀ c ∈ watchEnd, ∀ task ∈ [UartTask.cli, .i2cSlave, .packetPrint], c.uart.left task = [] := by
    decide +kernel
  obtain ⟨history, c, run, undisturbed, done⟩ := watch_run
  refine ⟨history, c, run, logger_hears_all run undisturbed fun task => silent c done task ?_⟩
  cases task with
  | cli | i2cSlave | packetPrint => decide

end Cc1310Firmware.Analysis
