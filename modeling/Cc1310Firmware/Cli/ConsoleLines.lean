import Cc1310Firmware.Cli.Console

/-! The lines on UART0 while no task writes in the middle of another's line. -/

set_option autoImplicit false

namespace Cc1310Firmware.Cli
open LabelledRun SharedChannel I2cSlave Radio LittleEndian

/-! ### Texts that end with a line -/

/-- No text, or one that ends with a line feed. -/
def LineEnded (characters : List Byte) : Prop := ∀ c ∈ characters.getLast?, c = lineFeed

theorem LineEnded.append {front back : List Byte} (front_ : LineEnded front) (back_ : LineEnded back) :
    LineEnded (front ++ back) := by
  intro c here
  rw [List.getLast?_append] at here
  cases last : back.getLast? with
  | none =>
    rw [last, Option.none_or] at here
    exact front_ c here
  | some d =>
    rw [last, Option.some_or] at here
    exact (Option.some.inj here) ▸ back_ d last

theorem lineEnded_newline (characters : List Byte) : LineEnded (characters ++ newline) := by
  intro c here
  have split : characters ++ newline = characters ++ [carriageReturn] ++ [lineFeed] := by
    rw [List.append_assoc]
    rfl
  rw [split, List.getLast?_concat] at here
  exact (Option.some.inj here).symm

/-- The writes make up whole lines. -/
def WritesLines (writes : List (List Byte)) : Prop := LineEnded writes.flatten

theorem WritesLines.nil : WritesLines [] := nofun

theorem WritesLines.append {first second : List (List Byte)} (first_ : WritesLines first)
    (second_ : WritesLines second) : WritesLines (first ++ second) := by
  rw [WritesLines, List.flatten_append]
  exact LineEnded.append first_ second_

theorem WritesLines.flatMap {ι : Type} {items : List ι} {format : ι → List (List Byte)}
    (each : ∀ item ∈ items, WritesLines (format item)) : WritesLines (items.flatMap format) := by
  induction items with
  | nil => exact .nil
  | cons item items ih =>
    obtain ⟨here, others⟩ := List.forall_mem_cons.mp each
    exact here.append (ih others)

theorem writesLines_ok (message : List Byte) : WritesLines (cliOk message) := by
  rw [WritesLines, flatten_cliOk]
  exact lineEnded_newline _

theorem writesLines_error (code message : List Byte) : WritesLines (cliError code message) := by
  have ends : (cliError code message).flatten = text "ERR " ++ code ++ (optionalMessage message).flatten ++
      newline := by
    simp [cliError, newline]
  rw [WritesLines, ends]
  exact lineEnded_newline _

theorem writesLines_command {Handler : Type} (command : CliCommand Handler) :
    WritesLines (cliPrintCommand command) := by
  have ends : (cliPrintCommand command).flatten = text "OK " ++ command.name ++ text " " ++ command.usage ++
      newline := by
    simp [cliPrintCommand, newline]
  rw [WritesLines, ends]
  exact lineEnded_newline _

theorem writesLines_help {Handler : Type} (commands : List (CliCommand Handler)) (argv : List (List Byte)) :
    WritesLines (cliHelp commands argv) := by
  unfold cliHelp
  split
  · exact writesLines_error _ _
  · split
    · split
      · exact writesLines_ok _
      · split
        · exact writesLines_command _
        · exact writesLines_error _ _
    · exact ((writesLines_ok _).append (writesLines_ok _)).append
        (.flatMap fun command _ => writesLines_command command)

/-! ### The handlers -/

variable {application : Application}

theorem writesLines_radioCommand (stats : RfPacketStats) (argv : List (List Byte)) :
    WritesLines (application.radioCommand stats argv).writes := by
  unfold Application.radioCommand
  split
  · exact writesLines_ok _
  · split
    · split
      · exact writesLines_ok _
      · split
        · exact writesLines_ok _
        · exact writesLines_error _ _
    · exact writesLines_error _ _

/-- The writes of an event list of firmware_tx.c. -/
def LineEvents (events : List TxEvent) : Prop := WritesLines (events.filterMap written)

theorem lineEvents_writeCli (response : SyncResponse) : LineEvents (writeCli response) := by
  change LineEnded (response.message ++ newline ++ [])
  rw [List.append_nil]
  exact lineEnded_newline _

/-- The array of processSyncCommand has room for each answer of the radio. -/
theorem length_radioResponse (response : SyncResponse)
    (formatted_ : (∃ command sequence, response = .done command sequence) ∨
    ∃ event status, response = .failed event status) : (response.message ++
      newline).length ≤ responseLength - 1 := by
  rcases formatted_ with ⟨command, sequence, rfl⟩ | ⟨event, status, rfl⟩
  · have name : command.name.length ≤ 10 := by
      cases command with
      | syncTime | syncFrame => decide
    have number : (decimal sequence.toNat).length ≤ 3 :=
      length_decimal_le (by decide) (Nat.lt_trans sequence.isLt (by decide))
    have words : (text "OK ").length = 3 ∧ (text " seq=").length = 5 ∧ newline.length = 2 :=
      ⟨length_text, length_text, rfl⟩
    simp only [SyncResponse.message, List.length_append, responseLength]
    omega
  · have word (value : BitVec 32) : (lowerHexWord value).length = 8 := by simp [lowerHexWord]
    have words : (text "ERR RF event=0x").length = 15 ∧ (text " status=0x").length = 10 ∧ newline.length = 2 :=
      ⟨length_text, length_text, rfl⟩
    simp only [SyncResponse.message, List.length_append, responseLength, word]
    omega

theorem lineEvents_writeResponse {response : SyncResponse}
    (fits : (response.message ++ newline).length ≤ responseLength - 1) :
    WritesLines ((writeResponse response).filterMap written) := by
  rw [writeResponse, List.take_of_length_le fits]
  exact lineEvents_writeCli response

theorem lineEvents_transmit (tx : Transmitter) (driver : RadioDriver) (radio : Radio.Surroundings)
    (command : SyncCommand) :
    LineEvents (tx.transmit driver radio command).2 := by
  unfold Transmitter.transmit
  split
  · exact lineEvents_writeResponse (length_radioResponse _ (.inl ⟨_, _, rfl⟩))
  · exact lineEvents_writeResponse (length_radioResponse _ (.inr ⟨_, _, rfl⟩))

theorem lineEvents_syncCommand (tx : Transmitter) (driver : RadioDriver) (radio : Radio.Surroundings)
    (command argument : List Byte) : LineEvents (tx.syncCommand driver radio command argument).2 := by
  unfold Transmitter.syncCommand
  split
  · split
    · exact lineEvents_writeCli _
    · exact lineEvents_transmit _ driver radio _
  · split
    · split
      · exact lineEvents_writeCli _
      · exact lineEvents_transmit _ driver radio _
    · exact lineEvents_writeCli _

theorem lineEvents_processSyncCommand (tx : Transmitter) (driver : RadioDriver) (radio : Radio.Surroundings)
    (line : List Byte) : LineEvents (tx.processSyncCommand driver radio line).2 := by
  unfold Transmitter.processSyncCommand
  dsimp only
  split
  · exact .nil
  · exact lineEvents_syncCommand tx driver radio _ _
  · exact lineEvents_writeCli _

theorem writesLines_txCommand (driver : RadioDriver) (radio : Radio.Surroundings) (argv : List (List Byte)) :
    WritesLines (application.txCommand driver radio argv).writes := by
  change LineEvents (application.transmitter.txCommand driver radio argv).2
  unfold Transmitter.txCommand
  split
  · rw [LineEvents, filterMap_written]
    exact writesLines_error _ _
  · split
    · exact lineEvents_processSyncCommand _ driver radio _
    · exact lineEvents_processSyncCommand _ driver radio _

theorem writesLines_call (meets : Surroundings) (handler : CliHandler) (argv : List (List Byte)) :
    WritesLines (application.call meets handler argv).writes := by
  cases handler with
  | radioCommand => exact writesLines_radioCommand meets.stats argv
  | runtime handler =>
    cases handler with
    | txCommand => exact writesLines_txCommand meets.driver meets.radio argv
    | bootloaderCommand =>
      change WritesLines (application.bootloaderCommand meets.updateRequest argv).writes
      unfold Application.bootloaderCommand
      split
      · exact writesLines_error _ _
      · split
        · exact writesLines_error _ _
        · exact writesLines_ok _
    | versionCommand =>
      change WritesLines (application.versionCommand argv).writes
      unfold Application.versionCommand
      split
      · exact writesLines_error _ _
      · exact writesLines_ok _
    | i2cSlaveCliCommand =>
      change WritesLines (application.i2cSlaveCliCommand argv).writes
      unfold Application.i2cSlaveCliCommand
      split
      · exact writesLines_ok _
      · split
        · exact writesLines_ok _
        · exact writesLines_error _ _
    | stackCommand =>
      change WritesLines (application.stackCommand meets.tasks argv).writes
      unfold Application.stackCommand
      split
      · exact writesLines_error _ _
      · exact (writesLines_ok _).append (.flatMap fun task _ => writesLines_ok _)

theorem writesLines_readyLines (role : FirmwareRole) : WritesLines (readyLines role) :=
  (writesLines_ok _).append (writesLines_ok _)

/-! ### A byte that arrives -/

/-- A byte has no answer, an answer of cli_core.c, or the answer of one handler. -/
theorem receive_cases {Handler : Type} (commands : List (CliCommand Handler)) (assembler : LineAssembler)
    (input : Byte) :
    (∃ writes, WritesLines writes ∧ (assembler.receive commands input).2 = writes.map .write) ∨
    ∃ handler argv, (assembler.receive commands input).2 = [.call handler argv] := by
  have silent : ∃ writes, WritesLines writes ∧ ([] : List (CliEvent Handler)) = writes.map .write := ⟨[], .nil, rfl⟩
  unfold LineAssembler.receive
  split
  · split
    · exact .inl ⟨_, writesLines_error _ _, rfl⟩
    · split
      · dsimp only
        unfold cliProcessLine
        split
        · exact .inl ⟨_, writesLines_error _ _, rfl⟩
        · dsimp only
          unfold dispatch
          split
          · exact .inl silent
          · split
            · exact .inl ⟨_, writesLines_help _ _, rfl⟩
            · split
              · exact .inr ⟨_, _, rfl⟩
              · exact .inl ⟨_, writesLines_error _ _, rfl⟩
      · exact .inl silent
  · split
    · exact .inl silent
    · exact .inl silent

/-- A byte inside a line is only kept. -/
theorem receive_inside {Handler : Type} {commands : List (CliCommand Handler)} (assembler : LineAssembler)
    {input : Byte} (inside : isLineEnd input = false) : (assembler.receive commands input).2 = [] := by
  have others : ¬(input = carriageReturn ∨ input = lineFeed) := by
    rintro (rfl | rfl)
    · cases inside
    · cases inside
  unfold LineAssembler.receive
  rw [if_neg others]
  split
  · rfl
  · rfl

theorem perform_writes (meets : Surroundings) (writes : List (List Byte)) :
    (application.perform meets (writes.map .write)).writes = writes := by
  induction writes with
  | nil => rfl
  | cons data writes ih => exact congrArg (data :: ·) ih

theorem writesLines_receive (meets : Surroundings) (role : FirmwareRole) (assembler : LineAssembler)
    (input : Byte) :
    WritesLines (application.perform meets (assembler.receive (commandTable role) input).2).writes := by
  rcases receive_cases (commandTable role) assembler input with ⟨writes, whole, events⟩ | ⟨handler, argv, events⟩
  · rw [events, perform_writes]
    exact whole
  · rw [events]
    exact (writesLines_call meets handler argv).append .nil

/-! ### The channel -/

/-- What a task writes in one go. -/
def consoleTraffic : Traffic UartTask Byte (UartTask × List (List Byte)) := ⟨Prod.fst, Prod.snd⟩

/-- The task that may write in a step. A byte inside a line has no answer. -/
def ConsoleEvent.writer : ConsoleEvent → Option UartTask
  | .ready => some .cli
  | .input byte _ => if isLineEnd byte then some .cli else none
  | .more task => some task
  | .post _ | .pend => none
  | .dumpGet => some .packetPrint
  | .dump _ _ _ => some .i2cSlave

/-- No task writes in the middle of what another one writes. -/
def Undisturbed (x : ConsoleTransition) : Prop := ∀ task ∈ x.event.writer, x.before.uart.Alone task

/-- A step that begins to write begins one packet line or an answer. -/
structure Begun (x : ConsoleTransition) (task : UartTask) (writes : List (List Byte)) (piece : Piece) : Prop where
  writer : x.event.writer = some task
  text : writes.flatten = piece.bytes
  ended : LineEnded piece.bytes
  message : piece.message = shownBy x

instance (x : ConsoleTransition) : Decidable (Undisturbed x) :=
  decidable_of_iff (∀ task ∈ x.event.writer, ∀ other ∈ [UartTask.cli, .i2cSlave, .packetPrint],
      other ≠ task → x.before.uart.left other = [])
    ⟨fun each task writer other => each task writer other (by cases other <;> decide),
      fun alone task writer other _ => alone task writer other⟩

inductive OnChannel (x : ConsoleTransition) : Prop where
  | same (uart : x.after.uart = x.before.uart) (silent : shownBy x = none)
  | more (task : UartTask) (writer : x.event.writer = some task)
      (step : Step consoleTraffic x.before.uart (.more task) x.after.uart) (silent : shownBy x = none)
  | start (task : UartTask) (writes : List (List Byte)) (piece : Piece)
      (step : Step consoleTraffic x.before.uart (.start (task, writes)) x.after.uart)
        (begun : Begun x task writes piece)

/-- A task that has nothing left to write begins an answer. -/
theorem onChannel_print {c d : Console} (before : d.uart = c.uart) {event : ConsoleEvent} {task : UartTask}
    {writes : List (List Byte)} (idle : c.uart.left task = []) (writer : event.writer = some task)
    (whole : WritesLines writes) (plain : PlainWrites (foreignLetter c.role) writes)
    (silent : shownBy ⟨c, event, d.print task writes⟩ = none) : OnChannel ⟨c, event, d.print task writes⟩ := by
  cases writes with
  | nil => exact .same before silent
  | cons first rest =>
    have noX : 0x58 ∉ (first :: rest).flatten := by
      intro member
      obtain ⟨piece, listed, place⟩ := List.mem_flatten.mp member
      exact (plain piece listed).noX place
    refine .start task (first :: rest) (.plain _ noX) ?_ ⟨writer, rfl, whole, silent.symm⟩
    change Step consoleTraffic c.uart _ (d.uart.put task first rest)
    rw [before]
    exact .start idle rfl

theorem ConsoleStep.onChannel {history : List ConsoleTransition} {c c' : Console} {event : ConsoleEvent}
    (inv : ConsoleInv history c) (fresh : c.ready = false → c.uart.left .cli = []) (st : ConsoleStep c event c') :
    OnChannel ⟨c, event, c'⟩ := by
  cases st with
  | ready unready =>
    exact onChannel_print (c := c) (d := { c with ready := true }) rfl (fresh unready) rfl
      (writesLines_readyLines c.role)
      (plain_readyLines c.role) rfl
  | @input byte meets ready stopped idle known =>
    cases end_ : isLineEnd byte with
    | true =>
      have writer : (ConsoleEvent.input byte meets).writer = some .cli := if_pos end_
      unfold Console.receive
      refine onChannel_print ?_ idle writer (writesLines_receive meets c.role c.assembler byte)
        (plain_perform known (eventOf_receive c.role c.assembler byte)) rfl
      rfl
    | false =>
      refine .same ?_ rfl
      dsimp only
      rw [Console.receive, receive_inside c.assembler end_]
      rfl
  | more pending => exact .more _ rfl (.more pending) rfl
  | post role => exact .same rfl rfl
  | pend role none_ idle => exact .same rfl rfl
  | @dumpGet message held idle =>
    cases enabled : c.application.packetDumpEnabled with
    | false =>
      have writes : c.packetWrites message = [] := by rw [Console.packetWrites, enabled]; rfl
      rw [writes]
      exact .same rfl (by simp [shownBy, enabled])
    | true =>
      have sized := inv.sized_message held
      have writes : c.packetWrites message = [printPacket message] := packetWrites_enabled enabled sized
      rw [writes]
      refine .start .packetPrint [printPacket message] (.packet message sized) (.start idle rfl) ⟨rfl, ?_, ?_, ?_⟩
      · exact List.append_nil _
      · change LineEnded (printPacket message)
        rw [printPacket_eq sized]
        exact lineEnded_newline _
      · simp [shownBy, enabled, held, Piece.message]
  | @dump direction register data enabled idle fits =>
    refine onChannel_print rfl idle rfl (writesLines_ok _) ?_ rfl
    exact plain_cliOk (isRoleLetter c.role) (plain_dumpMessage (isRoleLetter c.role) _ _ fits)

/-! ### Whole lines -/

/-- UART0 carries whole answers and packet lines; only the last one may still be open. -/
structure LinesInv (history : List ConsoleTransition) (c : Console) : Prop where
  fresh : c.ready = false → c.uart.left .cli = []
  whole : ∃ log task, Contiguous consoleTraffic log c.uart task ∧ ∃ pieces : List Piece,
    (started log).map consoleTraffic.text = pieces.map Piece.bytes ∧ (∀ piece ∈ pieces, LineEnded piece.bytes) ∧
    pieces.filterMap Piece.message = shown history

theorem LinesInv.start (role : FirmwareRole) (stack : List Byte) : LinesInv [] (.start role stack) :=
  ⟨fun _ => rfl, [], .cli, ⟨fun _ _ => rfl, rfl⟩, [], rfl, List.forall_mem_nil _, rfl⟩

theorem Console.print_left {task other : UartTask} (different : other ≠ task) (c : Console)
    (writes : List (List Byte)) :
    (c.print task writes).uart.left other = c.uart.left other := by
  cases writes with
  | nil => rfl
  | cons piece rest => exact Function.update_of_ne different rest c.uart.left

/-- The CLI task has written nothing before it is ready. -/
theorem ConsoleStep.fresh {c c' : Console} {event : ConsoleEvent} (st : ConsoleStep c event c')
    (fresh : c.ready = false → c.uart.left .cli = []) : c'.ready = false → c'.uart.left .cli = [] := by
  intro unready
  cases st with
  | ready =>
    rw [Console.print_ready] at unready
    cases unready
  | input ready =>
    simp only [Console.receive, Console.print_ready] at unready
    rw [ready] at unready
    cases unready
  | @more task piece rest pending =>
    have idle := fresh unready
    have other : UartTask.cli ≠ task := by
      rintro rfl
      rw [idle] at pending
      cases pending
    exact (Function.update_of_ne other rest c.uart.left).trans idle
  | post role => exact fresh unready
  | pend role none_ idle => exact fresh unready
  | dumpGet held idle =>
    rw [Console.print_ready] at unready
    exact (Console.print_left (by decide) _ _).trans (fresh unready)
  | dump enabled idle fits =>
    rw [Console.print_ready] at unready
    exact (Console.print_left (by decide) _ _).trans (fresh unready)

theorem LinesInv.step {history : List ConsoleTransition} {c c' : Console} {event : ConsoleEvent}
    (lines : LinesInv history c) (inv : ConsoleInv history c) (st : ConsoleStep c event c')
    (undisturbed : Undisturbed ⟨c, event, c'⟩) : LinesInv (history ++ [⟨c, event, c'⟩]) c' := by
  refine ⟨st.fresh lines.fresh, ?_⟩
  obtain ⟨log, task, whole, pieces, texts, ended, messages⟩ := lines.whole
  cases st.onChannel inv lines.fresh with
  | same uart silent =>
    refine ⟨log, task, ?_, pieces, texts, ended, ?_⟩
    · exact uart ▸ whole
    · rw [shown_concat, silent, messages]
      exact (List.append_nil _).symm
  | more task' writer step silent =>
    obtain ⟨next, whole'⟩ := whole.step step (undisturbed task' writer)
    refine ⟨_, next, whole', pieces, ?_, ended, ?_⟩
    · rw [started, List.filterMap_append, ← started, List.map_append, texts]
      exact List.append_nil _
    · rw [shown_concat, silent, messages]
      exact (List.append_nil _).symm
  | start task' writes piece step begun =>
    obtain ⟨next, whole'⟩ := whole.step step (undisturbed task' begun.writer)
    refine ⟨_, next, whole', pieces ++ [piece], ?_, ?_, ?_⟩
    · rw [started, List.filterMap_append, ← started, List.map_append, List.map_append, texts]
      exact congrArg (List.append _ [·]) begun.text
    · exact List.forall_mem_append.mpr ⟨ended, List.forall_mem_singleton.mpr begun.ended⟩
    · rw [shown_concat, List.filterMap_append, messages, ← begun.message]
      cases piece with
      | packet | plain => rfl

/-- The pieces of a run that nobody disturbs. -/
theorem lines_of_undisturbed {role : FirmwareRole} {stack : List Byte} {history : List ConsoleTransition}
    {c : Console} (run : Run ConsoleStep (.start role stack) history c) (undisturbed : ∀ x ∈ history, Undisturbed x)
    (idle : ∀ task, c.uart.left task = []) :
    ∃ pieces : List Piece, c.uart.output = pieces.flatMap Piece.bytes ∧ (∀ piece ∈ pieces, LineEnded piece.bytes) ∧
      pieces.filterMap Piece.message = shown history := by
  have lines : LinesInv history c := by
    clear idle
    induction run with
    | nil => exact .start role stack
    | next run st ih =>
      have before := ih fun x member => undisturbed x (List.mem_append_left _ member)
      exact before.step (consoleInv_of_run run).1 st
        (undisturbed _ (List.mem_append_right _ (List.mem_singleton_self _)))
  obtain ⟨log, task, whole, pieces, texts, ended, messages⟩ := lines.whole
  refine ⟨pieces, ?_, ended, messages⟩
  rw [whole.output_eq (idle task), List.flatMap, texts]
  rfl

/-! ### The banner -/

/-- What a device prints first. -/
def banner (role : FirmwareRole) : List Byte := (readyLines role).flatten

theorem output_print {c d : Console} (before : d.uart = c.uart) (task : UartTask) (writes : List (List Byte)) :
    c.uart.output <+: (d.print task writes).uart.output := by
  rw [← before]
  cases writes with
  | nil => exact List.prefix_rfl
  | cons piece rest => exact List.prefix_append _ _

/-- UART0 takes nothing back. -/
theorem ConsoleStep.output_prefix {c c' : Console} {event : ConsoleEvent} (st : ConsoleStep c event c') :
    c.uart.output <+: c'.uart.output := by
  cases st with
  | ready | dumpGet | dump => exact output_print (by rfl) _ _
  | input => exact output_print (by rfl) .cli _
  | more => exact List.prefix_append _ _
  | post | pend => exact List.prefix_rfl

/-- Without a dump, the print task drops its message. -/
theorem packetWrites_disabled {c : Console} (disabled : c.application.packetDumpEnabled = false)
    (message : RfPacketMessage) : c.packetWrites message = [] := by
  rw [Console.packetWrites, disabled]
  rfl

/-- How far the banner is. No dump is enabled before it is printed. -/
inductive BannerInv (role : FirmwareRole) (c : Console) : Prop where
  | waiting (unready : c.ready = false) (fresh : c.application = .start) (idle : ∀ task, c.uart.left task = [])
      (silent : c.uart.output = [])
  | printing (ready : c.ready = true) (fresh : c.application = .start) (alone : c.uart.Alone .cli)
      (whole : c.uart.output ++ (c.uart.left .cli).flatten = banner role)
  | printed (first : banner role <+: c.uart.output)

theorem BannerInv.step {role : FirmwareRole} {c c' : Console} {event : ConsoleEvent} (inv : BannerInv role c)
    (role_ : c.role = role) (st : ConsoleStep c event c') : BannerInv role c' := by
  cases inv with
  | printed first => exact .printed (first.trans st.output_prefix)
  | waiting unready fresh idle silent =>
    cases st with
    | ready =>
      rw [role_]
      obtain ⟨first, rest, lines⟩ : ∃ first rest, readyLines role = first :: rest := ⟨_, _, rfl⟩
      rw [lines]
      refine .printing rfl fresh (Channel.Alone.put (fun task _ => idle task) first rest) ?_
      change c.uart.output ++ first ++ ((c.uart.put .cli first rest).left .cli).flatten = banner role
      rw [silent, Channel.put_left_self, banner, lines]
      rfl
    | input ready =>
      rw [unready] at ready
      cases ready
    | more pending =>
      rw [idle] at pending
      cases pending
    | post => exact .waiting unready fresh idle silent
    | pend => exact .waiting unready fresh idle silent
    | dumpGet held =>
      rw [packetWrites_disabled (by rw [fresh]; rfl)]
      exact .waiting unready fresh idle silent
    | dump enabled =>
      rw [fresh] at enabled
      cases enabled
  | printing ready fresh alone whole =>
    cases st with
    | ready unready =>
      rw [ready] at unready
      cases unready
    | @input byte meets _ stopped idle known =>
      rw [idle, List.flatten_nil, List.append_nil] at whole
      have st : ConsoleStep c (.input byte meets) (c.receive byte meets) := .input ready stopped idle known
      exact .printed (whole ▸ st.output_prefix)
    | @more task piece rest pending =>
      have own : task = .cli := by
        by_contra other
        rw [alone task other] at pending
        cases pending
      subst own
      refine .printing ready fresh (Channel.Alone.put alone piece rest) ?_
      change c.uart.output ++ piece ++ ((c.uart.put .cli piece rest).left .cli).flatten = banner role
      rw [Channel.put_left_self, ← whole, pending, List.flatten_cons, List.append_assoc]
    | post => exact .printing ready fresh alone whole
    | pend => exact .printing ready fresh alone whole
    | dumpGet held =>
      rw [packetWrites_disabled (by rw [fresh]; rfl)]
      exact .printing ready fresh alone whole
    | dump enabled =>
      rw [fresh] at enabled
      cases enabled

/-- What a device prints begins with its banner, in every run: no task comes before it or in between. -/
theorem banner_first {role : FirmwareRole} {stack : List Byte} {history : List ConsoleTransition} {c : Console}
    (run : Run ConsoleStep (.start role stack) history c) : BannerInv role c := by
  induction run with
  | nil => exact .waiting rfl rfl (fun _ => rfl) rfl
  | next run st ih => exact ih.step (consoleInv_of_run run).2 st

theorem BannerInv.begins {role : FirmwareRole} {c : Console} (inv : BannerInv role c) :
    c.uart.output <+: banner role ∨ banner role <+: c.uart.output := by
  cases inv with
  | waiting unready fresh idle silent =>
    rw [silent]
    exact .inl List.nil_prefix
  | printing ready fresh alone whole => exact .inl ⟨_, whole⟩
  | printed first => exact .inr first

end Cc1310Firmware.Cli
