import Cc1310Firmware.Cli.PlainText
import Cc1310Firmware.Radio.QueueAccounting

/-! The tasks of the application that share UART0, over a whole boot.

The CLI task reads a byte when it has written all of its last answer. The print task
takes a message from the queue, looks at the flag, and prints; the I2C worker prints a
record. Each write is a step, and the tasks take turns in any order.
-/

set_option autoImplicit false

namespace Cc1310Firmware.Cli
open LabelledRun SharedChannel I2cSlave Radio

structure Console where
  role : FirmwareRole
  ready : Bool
  assembler : LineAssembler
  application : Application
  /-- SysCtrlSystemReset has been called. -/
  stopped : Bool
  radio : QueueRun
  /-- The local variable of rf_packet_print_thread. -/
  message : Option RfPacketMessage
  uart : Channel UartTask Byte

def Console.start (role : FirmwareRole) (stack : List Byte) : Console :=
  ⟨role, false, ⟨stack, 0, false⟩, .start, false, .start, none, .quiet⟩

/-- A task begins to write. -/
def Console.print (c : Console) (task : UartTask) : List (List Byte) → Console
  | [] => c
  | piece :: rest => { c with uart := c.uart.put task piece rest }

/-- The body of the loop of cliThread. -/
def Console.receive (c : Console) (input : Byte) (meets : Surroundings) : Console :=
  let processed := c.assembler.receive (commandTable c.role) input
  let answer := c.application.perform meets processed.2
  { c with
    assembler := processed.1
    application := answer.application
    stopped := answer.systemReset }.print .cli answer.writes

/-- What rf_packet_print_thread writes of its message. -/
def Console.packetWrites (c : Console) (message : RfPacketMessage) : List (List Byte) :=
  if c.application.packetDumpEnabled then cliPortWrite (printPacket message) else []

inductive ConsoleEvent where
  | ready
  | input (byte : Byte) (meets : Surroundings)
  | more (task : UartTask)
  | post (offer : Offer)
  | pend
  | dumpGet
  | dump (direction : DumpDirection) (register : Byte) (data : List Byte)

-- The counters that a command meets are free: the RF callback changes them while they are copied.
inductive ConsoleStep : Console → ConsoleEvent → Console → Prop where
  | ready {c : Console} : c.ready = false →
      ConsoleStep c .ready ({ c with ready := true }.print .cli (readyLines c.role))
  | input {c : Console} {byte : Byte} {meets : Surroundings} : c.ready = true → c.stopped = false →
      c.uart.left .cli = [] → TasksOf c.role meets.tasks → ConsoleStep c (.input byte meets) (c.receive byte meets)
  | more {c : Console} {task : UartTask} {piece : List Byte} {rest : List (List Byte)} :
      c.uart.left task = piece :: rest →
      ConsoleStep c (.more task) { c with uart := c.uart.put task piece rest }
  | post {c : Console} {offer : Offer} : c.role ≠ .tx →
      ConsoleStep c (.post offer) { c with radio := c.radio.call (.post offer) }
  | pend {c : Console} : c.role ≠ .tx → c.message = none → c.uart.left .packetPrint = [] →
      ConsoleStep c .pend { c with message := c.radio.queue.mailboxPend.1, radio := c.radio.call .pend }
  | dumpGet {c : Console} {message : RfPacketMessage} : c.message = some message →
      c.uart.left .packetPrint = [] →
      ConsoleStep c .dumpGet ({ c with message := none }.print .packetPrint (c.packetWrites message))
  | dump {c : Console} {direction : DumpDirection} {register : Byte} {data : List Byte} :
      c.application.dumpEnabled = true → c.uart.left .i2cSlave = [] → data.length ≤ i2cWriteMax →
      ConsoleStep c (.dump direction register data)
        (c.print .i2cSlave (cliOk (characters (dumpMessage direction register data))))

/-- The step for an event, if there is one. -/
def Console.next (c : Console) : ConsoleEvent → Option Console
  | .ready => if c.ready then none else some ({ c with ready := true }.print .cli (readyLines c.role))
  | .input byte meets =>
    if c.ready = true ∧ c.stopped = false ∧ c.uart.left .cli = [] ∧ TasksOf c.role meets.tasks then
      some (c.receive byte meets)
    else none
  | .more task =>
    match c.uart.left task with
    | [] => none
    | piece :: rest => some { c with uart := c.uart.put task piece rest }
  | .post offer => if c.role = .tx then none else some { c with radio := c.radio.call (.post offer) }
  | .pend =>
    if c.role ≠ .tx ∧ c.message = none ∧ c.uart.left .packetPrint = [] then
      some { c with message := c.radio.queue.mailboxPend.1, radio := c.radio.call .pend }
    else none
  | .dumpGet =>
    if c.uart.left .packetPrint = [] then
      c.message.map fun message => { c with message := none }.print .packetPrint (c.packetWrites message)
    else none
  | .dump direction register data =>
    if c.application.dumpEnabled = true ∧ c.uart.left .i2cSlave = [] ∧ data.length ≤ i2cWriteMax then
      some (c.print .i2cSlave (cliOk (characters (dumpMessage direction register data))))
    else none

theorem ConsoleStep.of_next {c c' : Console} {event : ConsoleEvent} (next : c.next event = some c') :
    ConsoleStep c event c' := by
  cases event with
  | ready =>
    rw [Console.next, Option.ite_none_left_eq_some] at next
    obtain ⟨unready, ⟨⟩⟩ := next
    exact .ready (Bool.eq_false_iff.mpr unready)
  | input byte meets =>
    rw [Console.next, Option.ite_none_right_eq_some] at next
    obtain ⟨⟨ready, running, idle, known⟩, ⟨⟩⟩ := next
    exact .input ready running idle known
  | more task =>
    rw [Console.next] at next
    split at next
    · cases next
    case h_2 piece rest pending =>
      cases next
      exact .more pending
  | post offer =>
    rw [Console.next, Option.ite_none_left_eq_some] at next
    obtain ⟨role, ⟨⟩⟩ := next
    exact .post role
  | pend =>
    rw [Console.next, Option.ite_none_right_eq_some] at next
    obtain ⟨⟨role, none_, idle⟩, ⟨⟩⟩ := next
    exact .pend role none_ idle
  | dumpGet =>
    rw [Console.next, Option.ite_none_right_eq_some] at next
    obtain ⟨idle, next⟩ := next
    obtain ⟨message, held, rfl⟩ := Option.map_eq_some_iff.mp next
    exact .dumpGet held idle
  | dump direction register data =>
    rw [Console.next, Option.ite_none_right_eq_some] at next
    obtain ⟨⟨enabled, idle, fits⟩, ⟨⟩⟩ := next
    exact .dump enabled idle fits

abbrev ConsoleTransition := Transition Console ConsoleEvent

/-- The message that a step prints. -/
def shownBy (x : ConsoleTransition) : Option RfPacketMessage :=
  match x.event with
  | .dumpGet => if x.before.application.packetDumpEnabled then x.before.message else none
  | _ => none

/-- The messages that the print task has printed. -/
def shown (history : List ConsoleTransition) : List RfPacketMessage := history.filterMap shownBy

/-! ### What the channel has carried -/

/-- A write, as far as a reader of the log has to tell it from others. -/
inductive Piece where
  | packet (message : RfPacketMessage) (sized : message.Sized)
  | plain (data : List Byte) (noX : 0x58 ∉ data)

def Piece.bytes : Piece → List Byte
  | .packet message _ => printPacket message
  | .plain data _ => data

def Piece.message : Piece → Option RfPacketMessage
  | .packet message _ => some message
  | .plain _ _ => none

/-- The output is made of whole packet lines and of plain writes, and what is still to write is plain. -/
structure UartInv (letter : Byte) (messages : List RfPacketMessage) (uart : Channel UartTask Byte) : Prop where
  left : ∀ task, PlainWrites letter (uart.left task)
  guarded : Guarded letter uart.output
  pieces : ∃ pieces : List Piece, uart.output = pieces.flatMap Piece.bytes ∧
    pieces.filterMap Piece.message = messages

theorem guarded_printPacket {letter : Byte} {message : RfPacketMessage} (sized : message.Sized) :
    Guarded letter (printPacket message) := by
  have number (value : Nat) : Guarded letter (decimal value) := (plain_decimal value).guarded
  have hex : Guarded letter (message.payload.flatMap upperHexByte) := by
    have digit : ∀ digit < 16, hexCharacter 0x41 digit ≠ 0x78 := by decide
    refine .of_forall fun c member => ?_
    obtain ⟨value, _, place⟩ := List.mem_flatMap.mp member
    simp only [upperHexByte, List.mem_cons, List.not_mem_nil, or_false] at place
    rcases place with rfl | rfl
    · exact digit _ (Nat.div_lt_of_lt_mul value.isLt)
    · exact digit _ (Nat.mod_lt _ (by decide))
  have words : ∀ c ∈ text "RX seq=" ++ text " tick=" ++ text " len=" ++ text " data=" ++ newline,
    c ≠ 0x78 := by decide
  simp only [List.forall_mem_append] at words
  obtain ⟨⟨⟨⟨seq, tick⟩, len⟩, data⟩, end_⟩ := words
  rw [printPacket_eq sized, packetHeader]
  exact ((((((((Guarded.of_forall seq).append (number _)).append (.of_forall tick)).append (number _)).append
    (.of_forall len)).append (number _)).append (.of_forall data)).append hex).append (.of_forall end_)

section
variable {letter : Byte} {messages : List RfPacketMessage} {uart : Channel UartTask Byte}

theorem UartInv.left_put (inv : UartInv letter messages uart) (task : UartTask) (piece : List Byte)
    {rest : List (List Byte)} (plain : PlainWrites letter rest) :
    ∀ other, PlainWrites letter ((uart.put task piece rest).left other) := by
  intro other
  rw [Channel.put]
  dsimp only
  rw [Function.update_apply]
  split
  · exact plain
  · exact inv.left other

theorem UartInv.plain (inv : UartInv letter messages uart) (task : UartTask) {piece : List Byte}
    {rest : List (List Byte)} (plain : PlainWrites letter (piece :: rest)) :
    UartInv letter messages (uart.put task piece rest) := by
  obtain ⟨here, others⟩ := List.forall_mem_cons.mp plain
  obtain ⟨pieces, output, messages_⟩ := inv.pieces
  refine ⟨inv.left_put task piece others, inv.guarded.append here.guarded, pieces ++ [.plain piece here.noX], ?_,
    ?_⟩
  · rw [List.flatMap_append, ← output, List.flatMap_singleton]
    rfl
  · rw [List.filterMap_append, messages_]
    exact List.append_nil _

theorem UartInv.packet (inv : UartInv letter messages uart) {message : RfPacketMessage} (sized : message.Sized) :
    UartInv letter (messages ++ [message]) (uart.put .packetPrint (printPacket message) []) := by
  obtain ⟨pieces, output, messages_⟩ := inv.pieces
  refine ⟨inv.left_put .packetPrint (printPacket message) .nil, inv.guarded.append (guarded_printPacket sized),
    pieces ++ [.packet message sized], ?_, ?_⟩
  · rw [List.flatMap_append, ← output, List.flatMap_singleton]
    rfl
  · rw [List.filterMap_append, messages_]
    rfl

end

/-! ### The invariant -/

@[simp] theorem Console.print_role (c : Console) (task : UartTask) (writes : List (List Byte)) :
    (c.print task writes).role = c.role := by
  cases writes with
  | nil | cons => rfl

@[simp] theorem Console.print_radio (c : Console) (task : UartTask) (writes : List (List Byte)) :
    (c.print task writes).radio = c.radio := by
  cases writes with
  | nil | cons => rfl

@[simp] theorem Console.print_message (c : Console) (task : UartTask) (writes : List (List Byte)) :
    (c.print task writes).message = c.message := by
  cases writes with
  | nil | cons => rfl

@[simp] theorem Console.print_assembler (c : Console) (task : UartTask) (writes : List (List Byte)) :
    (c.print task writes).assembler = c.assembler := by
  cases writes with
  | nil | cons => rfl

@[simp] theorem Console.print_ready (c : Console) (task : UartTask) (writes : List (List Byte)) :
    (c.print task writes).ready = c.ready := by
  cases writes with
  | nil | cons => rfl

theorem UartInv.print {letter : Byte} {messages : List RfPacketMessage} {uart : Channel UartTask Byte}
    (inv : UartInv letter messages uart) {c : Console} (here : c.uart = uart) (task : UartTask)
    {writes : List (List Byte)} (plain : PlainWrites letter writes) :
    UartInv letter messages (c.print task writes).uart := by
  subst here
  cases writes with
  | nil => exact inv
  | cons piece rest => exact inv.plain task plain

/-- What the print task shows comes from the queue, in its order. -/
structure ConsoleInv (history : List ConsoleTransition) (c : Console) : Prop where
  radio : QueueInv c.radio
  uart : UartInv (foreignLetter c.role) (shown history) c.uart
  order : (shown history ++ c.message.toList).Sublist c.radio.received

theorem shown_concat (history : List ConsoleTransition) (x : ConsoleTransition) :
    shown (history ++ [x]) = shown history ++ (shownBy x).toList := by
  rw [shown, List.filterMap_append, ← shown]
  cases found : shownBy x with
  | none => simp [found]
  | some message => simp [found]

/-- The messages of the queue are those that post_packet made. -/
theorem sized_of_received {run : QueueRun} (inv : QueueInv run) {message : RfPacketMessage}
    (member : message ∈ run.received) : message.Sized := by
  obtain ⟨mailbox, _, _, messages⟩ := inv.messages
  have listed : message ∈ (acceptedPackets run.log).map fun packet => packet.2.message packet.1 :=
    messages ▸ List.mem_append_left _ member
  obtain ⟨⟨number, offer⟩, _, rfl⟩ := List.mem_map.mp listed
  refine ⟨?_, Nat.min_le_right _ _⟩
  rw [Offer.message, List.length_map, List.length_range]

theorem ConsoleInv.sized_message {history : List ConsoleTransition} {c : Console} (inv : ConsoleInv history c)
    {message : RfPacketMessage} (held : c.message = some message) : message.Sized := by
  refine sized_of_received inv.radio (inv.order.subset (List.mem_append_right _ ?_))
  rw [held]
  exact List.mem_singleton_self _

theorem packetWrites_enabled {c : Console} {message : RfPacketMessage}
    (enabled : c.application.packetDumpEnabled = true) (sized : message.Sized) :
    c.packetWrites message = [printPacket message] := by
  have written : printPacket message ≠ [] := by
    rw [printPacket_eq sized]
    exact List.append_ne_nil_of_right_ne_nil _ (List.cons_ne_nil _ _)
  rw [Console.packetWrites, enabled, if_pos rfl, cliPortWrite, if_neg written]

theorem ConsoleInv.start (role : FirmwareRole) (stack : List Byte) : ConsoleInv [] (.start role stack) :=
  ⟨.start, ⟨fun _ => .nil, .nil, [], rfl, rfl⟩, .refl _⟩

theorem ConsoleInv.step {history : List ConsoleTransition} {c c' : Console} {event : ConsoleEvent}
    (inv : ConsoleInv history c) (st : ConsoleStep c event c') : ConsoleInv (history ++ [⟨c, event, c'⟩]) c' := by
  have sized_ {message : RfPacketMessage} (held : c.message = some message) := inv.sized_message held
  obtain ⟨radio, uart, order⟩ := inv
  have silent (none_ : shownBy ⟨c, event, c'⟩ = none) : shown (history ++ [⟨c, event, c'⟩]) = shown history := by
    rw [shown_concat, none_]
    exact List.append_nil _
  cases st with
  | ready unready =>
    refine ⟨?_, ?_, ?_⟩
    · simpa using radio
    · rw [silent rfl]
      rw [Console.print_role]
      exact uart.print rfl .cli (plain_readyLines c.role)
    · rw [silent rfl]
      simpa using order
  | @input byte meets ready stopped idle known =>
    have plain := @plain_perform c.application c.role meets known _ (eventOf_receive c.role c.assembler byte)
    refine ⟨?_, ?_, ?_⟩
    · simpa [Console.receive] using radio
    · rw [silent rfl]
      simp only [Console.receive, Console.print_role]
      exact uart.print (by rfl) .cli plain
    · rw [silent rfl]
      simpa [Console.receive] using order
  | @more task piece rest pending =>
    refine ⟨radio, ?_, ?_⟩
    · rw [silent rfl]
      exact uart.plain task (pending ▸ uart.left task)
    · rw [silent rfl]
      exact order
  | @post offer role =>
    refine ⟨radio.call (.post offer), ?_, ?_⟩
    · rw [silent rfl]
      exact uart
    · rw [silent rfl]
      exact order
  | pend role none_ idle =>
    refine ⟨radio.call .pend, ?_, ?_⟩
    · rw [silent rfl]
      exact uart
    · rw [silent rfl]
      rw [none_, Option.toList_none, List.append_nil] at order
      exact order.append (.refl _)
  | @dumpGet message held idle =>
    have sized := sized_ held
    rw [held, Option.toList_some] at order
    cases enabled : c.application.packetDumpEnabled with
    | false =>
      have quiet : shownBy ⟨c, .dumpGet, { c with message := none }.print .packetPrint (c.packetWrites message)⟩ =
          none := by simp [shownBy, enabled]
      have writes : c.packetWrites message = [] := by rw [Console.packetWrites, enabled]; rfl
      rw [writes] at quiet ⊢
      refine ⟨radio, ?_, ?_⟩
      · rw [shown_concat, quiet, Option.toList_none, List.append_nil]
        exact uart
      · rw [shown_concat, quiet, Option.toList_none, List.append_nil]
        exact (List.append_nil _).symm ▸ (List.sublist_append_left _ _).trans order
    | true =>
      rw [packetWrites_enabled enabled sized]
      have prints : shown (history ++ [⟨c, .dumpGet, { c with message := none }.print .packetPrint
          [printPacket message]⟩]) = shown history ++ [message] := by
        rw [shown_concat]
        simp [shownBy, enabled, held]
      refine ⟨radio, ?_, ?_⟩
      · rw [prints]
        exact uart.packet sized
      · rw [prints]
        exact (List.append_nil _).symm ▸ order
  | @dump direction register data enabled idle fits =>
    refine ⟨?_, ?_, ?_⟩
    · simpa using radio
    · rw [silent rfl, Console.print_role]
      exact uart.print rfl .i2cSlave (plain_cliOk (isRoleLetter c.role)
        (plain_dumpMessage (isRoleLetter c.role) _ _ fits))
    · rw [silent rfl]
      simpa using order

/-- The role does not change. -/
theorem ConsoleStep.role {c c' : Console} {event : ConsoleEvent} (st : ConsoleStep c event c') :
    c'.role = c.role := by
  cases st with
  | ready | input | dumpGet | dump => simp [Console.receive]
  | more | post | pend => rfl

/-- The CLI task stays in its loop. -/
theorem ConsoleStep.ready_of_ready {c c' : Console} {event : ConsoleEvent} (st : ConsoleStep c event c')
    (ready : c.ready = true) : c'.ready = true := by
  cases st with
  | ready | input | dumpGet | dump => simp [Console.receive, ready]
  | more | post | pend => exact ready

theorem consoleInv_of_run {role : FirmwareRole} {stack : List Byte} {history : List ConsoleTransition} {c : Console}
    (run : Run ConsoleStep (.start role stack) history c) : ConsoleInv history c ∧ c.role = role := by
  induction run with
  | nil => exact ⟨.start role stack, rfl⟩
  | next _ st ih => exact ⟨ih.1.step st, st.role.trans ih.2⟩

/-- A step that a check allows. -/
def Console.checked (check : ConsoleTransition → Bool) (c : Console) (event : ConsoleEvent) : Option Console :=
  (c.next event).filter fun after => check ⟨c, event, after⟩

def meetsNothing : Surroundings :=
  ⟨⟨0, 0⟩, ⟨List.replicate 64 0, rfl, fun _ => 0, 0, 0⟩, PacketQueue.cleared.packetStats, [], 0⟩

/-- The run that a list of events makes. -/
theorem run_of_events {check : ConsoleTransition → Bool} {events : List ConsoleEvent} {c c' : Console}
    (done : events.foldlM (Console.checked check) c = some c') :
    ∃ history, Run ConsoleStep c history c' ∧ history.map (·.event) = events ∧ ∀ x ∈ history, check x = true := by
  induction events using List.reverseRecOn generalizing c' with
  | nil =>
    cases done
    exact ⟨[], .nil, rfl, List.forall_mem_nil _⟩
  | append_singleton events event ih =>
    rw [List.foldlM_append, Option.bind_eq_bind, Option.bind_eq_some_iff] at done
    obtain ⟨middle, before, last⟩ := done
    rw [List.foldlM_cons, Option.bind_eq_bind, Option.bind_eq_some_iff] at last
    obtain ⟨_, step, ⟨⟩⟩ := last
    obtain ⟨allowed, check_⟩ := Option.filter_eq_some_iff.mp step
    obtain ⟨history, run, events_, checks⟩ := ih before
    refine ⟨_, run.next (.of_next allowed), ?_, ?_⟩
    · rw [List.map_append, events_]
      rfl
    · exact List.forall_mem_append.mpr ⟨checks, List.forall_mem_singleton.mpr check_⟩

end Cc1310Firmware.Cli
