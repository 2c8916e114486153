import Cc1310Firmware.Cli.Application

/-! What never stands in the texts of the application.

Only packet lines have an X. In the RX role no t is followed by an x, in the TX role no r:
the name of one role is not found in what a device of the other prints, however the
writes of its tasks are mixed.
-/

set_option autoImplicit false

namespace Cc1310Firmware.Cli
open LittleEndian I2cSlave Radio

/-- The first letter of the other role's name. -/
def foreignLetter (role : FirmwareRole) : Byte := if role = .tx then 0x72 else 0x74

/-- The letter is never followed by an x, not even by one that is written next. -/
structure Guarded (letter : Byte) (characters : List Byte) : Prop where
  first : characters.head? ≠ some 0x78
  inside : characters.IsChain fun c d => ¬ (c = letter ∧ d = 0x78)

structure Plain (letter : Byte) (characters : List Byte) : Prop where
  guarded : Guarded letter characters
  noX : 0x58 ∉ characters

instance (letter : Byte) (characters : List Byte) : Decidable (Guarded letter characters) :=
  decidable_of_iff (characters.head? ≠ some 0x78 ∧ characters.IsChain fun c d => ¬ (c = letter ∧ d = 0x78))
    ⟨fun both => ⟨both.1, both.2⟩, fun guarded => ⟨guarded.first, guarded.inside⟩⟩

theorem plain_iff (letter : Byte) (characters : List Byte) :
    Guarded letter characters ∧ characters.all (· != 0x58) = true ↔ Plain letter characters := by
  have noX : characters.all (· != 0x58) = true ↔ 0x58 ∉ characters := by
    simp only [List.all_eq_true, bne_iff_ne]
    exact List.forall_mem_ne'
  rw [noX]
  exact ⟨fun both => ⟨both.1, both.2⟩, fun plain => ⟨plain.guarded, plain.noX⟩⟩

instance (letter : Byte) (characters : List Byte) : Decidable (Plain letter characters) :=
  decidable_of_iff (Guarded letter characters ∧ characters.all (· != 0x58) = true) (plain_iff letter characters)

variable {letter : Byte} {front back : List Byte}

/-! ### Guarded texts -/

theorem Guarded.nil : Guarded letter [] := ⟨nofun, .nil⟩

theorem Guarded.append (front_ : Guarded letter front) (back_ : Guarded letter back) :
    Guarded letter (front ++ back) := by
  refine ⟨?_, List.isChain_append.mpr ⟨front_.inside, back_.inside, ?_⟩⟩
  · cases front with
    | nil => exact back_.first
    | cons c front => exact front_.first
  · rintro c _ d here ⟨_, rfl⟩
    exact back_.first here

theorem Guarded.of_forall {characters : List Byte} (none_ : ∀ c ∈ characters, c ≠ 0x78) :
    Guarded letter characters := by
  refine ⟨fun here => none_ _ (List.mem_of_mem_head? here) rfl, ?_⟩
  induction characters with
  | nil => exact .nil
  | cons c characters ih =>
    refine List.isChain_cons.mpr ⟨?_, ih fun d member => none_ d (List.mem_cons_of_mem _ member)⟩
    rintro d here ⟨_, rfl⟩
    exact none_ _ (List.mem_cons_of_mem _ (List.mem_of_mem_head? here)) rfl

theorem Guarded.take (whole : Guarded letter front) (count : Nat) : Guarded letter (front.take count) := by
  refine ⟨?_, whole.inside.take count⟩
  rw [List.head?_take]
  split
  · nofun
  · exact whole.first

/-- The letter and an x stand nowhere in a guarded text. -/
theorem Guarded.not_isInfix {characters : List Byte} (guarded : Guarded letter characters) :
    ¬ [letter, 0x78] <:+: characters := by
  intro infix_
  have pair := List.IsChain.infix guarded.inside infix_
  exact (List.isChain_cons.mp pair).1 _ rfl ⟨rfl, rfl⟩

/-! ### Plain texts -/

theorem Plain.append (front_ : Plain letter front) (back_ : Plain letter back) : Plain letter (front ++ back) :=
  ⟨front_.guarded.append back_.guarded, fun member => (List.mem_append.mp member).elim front_.noX back_.noX⟩

theorem Plain.take (whole : Plain letter front) (count : Nat) : Plain letter (front.take count) :=
  ⟨whole.guarded.take count, fun member => whole.noX (List.mem_of_mem_take member)⟩

theorem Plain.of_forall {characters : List Byte} (none_ : ∀ c ∈ characters, c ≠ 0x78 ∧ c ≠ 0x58) :
    Plain letter characters :=
  ⟨.of_forall fun c member => (none_ c member).1, fun member => (none_ _ member).2 rfl⟩

theorem plain_decimal (value : Nat) : Plain letter (decimal value) := by
  have digit : ∀ d < 10, (BitVec.ofNat 8 (0x30 + d) : Byte) ≠ 0x78 ∧ (BitVec.ofNat 8 (0x30 + d) : Byte) ≠ 0x58 := by
    decide
  refine .of_forall ?_
  unfold decimal
  split
  · decide
  · intro c member
    obtain ⟨d, listed, rfl⟩ := List.mem_map.mp member
    exact digit d (Nat.digits_lt_base (by decide) (List.mem_reverse.mp listed))

theorem plain_signed (value : Int) : Plain letter (signed value) := by
  refine .append (.of_forall ?_) (plain_decimal _)
  split
  · decide
  · exact List.forall_mem_nil _

theorem plain_lowerHexWord (value : BitVec 32) : Plain letter (lowerHexWord value) := by
  have digit : ∀ d < 16, hexCharacter 0x61 d ≠ 0x78 ∧ hexCharacter 0x61 d ≠ 0x58 := by decide
  refine .of_forall fun c member => ?_
  obtain ⟨i, _, rfl⟩ := List.mem_map.mp member
  exact digit _ (Nat.mod_lt _ (by decide))

/-- The letters of the roles. -/
def IsRoleLetter (letter : Byte) : Prop := letter = 0x72 ∨ letter = 0x74

theorem isRoleLetter (role : FirmwareRole) : IsRoleLetter (foreignLetter role) := by
  cases role with
  | tx => exact .inl rfl
  | unset | rx => exact .inr rfl

/-- A closed text, checked for both letters. -/
theorem plain_text {characters : List Byte} (letter_ : IsRoleLetter letter)
    (both : Plain 0x72 characters ∧ Plain 0x74 characters) : Plain letter characters := by
  rcases letter_ with rfl | rfl
  · exact both.1
  · exact both.2

theorem plain_dumpMessage (letter_ : IsRoleLetter letter) (direction : DumpDirection) (register : Byte)
    {data : List Byte}
    (fits : data.length ≤ i2cWriteMax) : Plain letter (characters (dumpMessage direction register data)) := by
  let good : Byte → Prop := fun c => c ≠ 0x78 ∧ c ≠ 0x58
  have digits : ∀ digit < 16, good (dumpDigit digit) := by decide
  have count : data.length < 100 := Nat.lt_of_le_of_lt fits (by decide)
  have start : Plain letter (characters
      (if direction = .read then "ipc read reg=0x".toList else "ipc write reg=0x".toList)) := by
    split
    · exact plain_text letter_ (by decide)
    · exact plain_text letter_ (by decide)
  have register_ : Plain letter (characters (hexByte register)) := .of_forall (forall_hexByte digits register)
  have count_ : Plain letter (characters (countDigits data.length)) := .of_forall (forall_countDigits digits count)
  have len : Plain letter (text " len=") := plain_text letter_ (by decide)
  have data_ : Plain letter (text " data=") := plain_text letter_ (by decide)
  have hex : Plain letter (data.flatMap fun value => characters (hexByte value)) := by
    refine .of_forall fun c member => ?_
    obtain ⟨value, _, place⟩ := List.mem_flatMap.mp member
    exact forall_hexByte digits value c place
  unfold dumpMessage characters at *
  simp only [List.map_append, List.map_flatMap]
  exact ((((start.append register_).append len).append count_).append data_).append hex

/-- The answers of the transmitter, which name the role tx. -/
theorem plain_response (response : SyncResponse) : Plain 0x72 (response.message ++ newline) := by
  refine .append ?_ (by decide)
  cases response with
  | usage | utcHex | exposureHex | unknownCommand => decide +kernel
  | done command sequence =>
    have name : Plain 0x72 command.name := by
      cases command with
      | syncTime | syncFrame => decide
    have ok : Plain 0x72 (text "OK ") := by decide
    have seq : Plain 0x72 (text " seq=") := by decide
    exact ((ok.append name).append seq).append (plain_decimal _)
  | failed event status =>
    have event_ : Plain 0x72 (text "ERR RF event=0x") := by decide
    have status_ : Plain 0x72 (text " status=0x") := by decide
    exact ((event_.append (plain_lowerHexWord event)).append status_).append (plain_lowerHexWord status)

/-! ### The writes of cli_core.c -/

/-- All the writes of a line or of several. -/
def PlainWrites (letter : Byte) (writes : List (List Byte)) : Prop := ∀ piece ∈ writes, Plain letter piece

theorem PlainWrites.nil : PlainWrites letter [] := List.forall_mem_nil _

theorem PlainWrites.append {first second : List (List Byte)} (first_ : PlainWrites letter first)
    (second_ : PlainWrites letter second) : PlainWrites letter (first ++ second) :=
  List.forall_mem_append.mpr ⟨first_, second_⟩

theorem PlainWrites.flatMap {ι : Type} {items : List ι} {format : ι → List (List Byte)}
    (each : ∀ item ∈ items, PlainWrites letter (format item)) : PlainWrites letter (items.flatMap format) := by
  intro piece member
  obtain ⟨item, listed, place⟩ := List.mem_flatMap.mp member
  exact each item listed piece place

theorem plain_cliPortWrite {data : List Byte} (plain : Plain letter data) :
    PlainWrites letter (cliPortWrite data) := by
  unfold cliPortWrite
  split
  · exact .nil
  · exact List.forall_mem_singleton.mpr plain

theorem plain_optionalMessage (letter_ : IsRoleLetter letter) {message : List Byte} (plain : Plain letter message) :
    PlainWrites letter (optionalMessage message) := by
  unfold optionalMessage
  split
  · exact .nil
  · exact (plain_cliPortWrite (plain_text letter_ (by decide))).append (plain_cliPortWrite plain)

theorem plain_cliOk (letter_ : IsRoleLetter letter) {message : List Byte} (plain : Plain letter message) :
    PlainWrites letter (cliOk message) :=
  ((plain_cliPortWrite (plain_text letter_ (by decide))).append (plain_optionalMessage letter_ plain)).append
    (plain_cliPortWrite (plain_text letter_ (by decide)))

theorem plain_cliError (letter_ : IsRoleLetter letter) {code message : List Byte} (code_ : Plain letter code)
    (plain : Plain letter message) : PlainWrites letter (cliError code message) :=
  (((plain_cliPortWrite (plain_text letter_ (by decide))).append (plain_cliPortWrite code_)).append
    (plain_optionalMessage letter_ plain)).append (plain_cliPortWrite (plain_text letter_ (by decide)))

/-- An answer whose texts are closed. -/
theorem plain_cliOk_text (letter_ : IsRoleLetter letter) {message : List Byte}
    (both : Plain 0x72 message ∧ Plain 0x74 message) : PlainWrites letter (cliOk message) :=
  plain_cliOk letter_ (plain_text letter_ both)

theorem plain_cliError_text (letter_ : IsRoleLetter letter) {code message : List Byte}
    (code_ : Plain 0x72 code ∧ Plain 0x74 code) (both : Plain 0x72 message ∧ Plain 0x74 message) :
    PlainWrites letter (cliError code message) :=
  plain_cliError letter_ (plain_text letter_ code_) (plain_text letter_ both)

/-- The commands of a role do not name the other one. -/
theorem plain_commandTable (role : FirmwareRole) : ∀ command ∈ commandTable role,
    Plain (foreignLetter role) command.name ∧ Plain (foreignLetter role) command.usage := by
  cases role with
  | unset | rx | tx => decide

theorem plain_cliPrintCommand (letter_ : IsRoleLetter letter) {Handler : Type} {command : CliCommand Handler}
    (name : Plain letter command.name) (usage : Plain letter command.usage) :
    PlainWrites letter (cliPrintCommand command) :=
  ((((plain_cliPortWrite (plain_text letter_ (by decide))).append (plain_cliPortWrite name)).append
    (plain_cliPortWrite (plain_text letter_ (by decide)))).append (plain_cliPortWrite usage)).append
    (plain_cliPortWrite (plain_text letter_ (by decide)))

theorem plain_cliHelp (role : FirmwareRole) (argv : List (List Byte)) :
    PlainWrites (foreignLetter role) (cliHelp (commandTable role) argv) := by
  have letter_ := isRoleLetter role
  have print : ∀ command ∈ commandTable role, PlainWrites (foreignLetter role) (cliPrintCommand command) := by
    intro command listed
    obtain ⟨name, usage⟩ := plain_commandTable role command listed
    exact plain_cliPrintCommand letter_ name usage
  unfold cliHelp
  split
  · exact plain_cliError_text letter_ (by decide) (by decide)
  · split
    · split
      · exact plain_cliOk_text letter_ (by decide)
      · split
        case h_1 command found => exact print command (List.mem_of_find?_eq_some found)
        case h_2 => exact plain_cliError_text letter_ (by decide) (by decide)
    · exact ((plain_cliOk_text letter_ (by decide)).append (plain_cliOk_text letter_ (by decide))).append
        (.flatMap print)

/-! ### The writes of the handlers -/

variable {application : Application}

/-- The status line, which the role rx prints. -/
theorem plain_radioStatus (stats : RfPacketStats) (enabled : Bool) :
    PlainWrites 0x74 (radioStatus stats enabled) := by
  refine plain_cliOk (.inr rfl) (Plain.take ?_ _)
  have dump : Plain 0x74 (if enabled then text "on" else text "off") := by
    split
    · decide
    · decide
  have words : Plain 0x74 (text "rx=") ∧ Plain 0x74 (text " enq=") ∧ Plain 0x74 (text " drop=") ∧
      Plain 0x74 (text " full=") ∧ Plain 0x74 (text " crc=") ∧ Plain 0x74 (text " coll=") ∧
      Plain 0x74 (text " rssi=") ∧ Plain 0x74 (text "[") ∧ Plain 0x74 (text ",") ∧
      Plain 0x74 (text "] samples=") ∧ Plain 0x74 (text " dump=") := by decide
  obtain ⟨rx, enq, drop, full, crc, coll, rssi, left, comma, samples, dump_⟩ := words
  exact ((((((((((((((((((((rx.append (plain_decimal _)).append enq).append (plain_decimal _)).append drop).append
    (plain_decimal _)).append full).append (plain_decimal _)).append crc).append (plain_decimal _)).append
    coll).append (plain_decimal _)).append rssi).append (plain_signed _)).append left).append (plain_signed _)).append
    comma).append (plain_signed _)).append samples).append (plain_decimal _)).append dump_).append dump

theorem plain_radioCommand (stats : RfPacketStats) (argv : List (List Byte)) :
    PlainWrites 0x74 (application.radioCommand stats argv).writes := by
  have letter_ : IsRoleLetter 0x74 := .inr rfl
  have usage : PlainWrites 0x74 radioUsage := plain_cliError letter_ (by decide) (by decide)
  unfold Application.radioCommand
  split
  · exact plain_radioStatus stats _
  · split
    · split
      · exact plain_cliOk letter_ (by decide)
      · split
        · exact plain_cliOk letter_ (by decide)
        · exact usage
    · exact usage

/-- The writes of an event list of firmware_tx.c. -/
def PlainEvents (events : List TxEvent) : Prop := PlainWrites 0x72 (events.filterMap written)

theorem plain_writeCli (response : SyncResponse) : PlainEvents (writeCli response) :=
  List.forall_mem_singleton.mpr (plain_response response)

theorem plain_transmit (tx : Transmitter) (driver : RadioDriver) (radio : Radio.Surroundings)
    (command : SyncCommand) :
    PlainEvents (tx.transmit driver radio command).2 := by
  unfold Transmitter.transmit
  split
  · exact List.forall_mem_singleton.mpr ((plain_response _).take _)
  · exact List.forall_mem_singleton.mpr ((plain_response _).take _)

theorem plain_syncCommand (tx : Transmitter) (driver : RadioDriver) (radio : Radio.Surroundings)
    (command argument : List Byte) : PlainEvents (tx.syncCommand driver radio command argument).2 := by
  unfold Transmitter.syncCommand
  split
  · split
    · exact plain_writeCli _
    · exact plain_transmit _ driver radio _
  · split
    · split
      · exact plain_writeCli _
      · exact plain_transmit _ driver radio _
    · exact plain_writeCli _

theorem plain_processSyncCommand (tx : Transmitter) (driver : RadioDriver) (radio : Radio.Surroundings)
    (line : List Byte) : PlainEvents (tx.processSyncCommand driver radio line).2 := by
  unfold Transmitter.processSyncCommand
  dsimp only
  split
  · exact .nil
  · exact plain_syncCommand tx driver radio _ _
  · exact plain_writeCli _

theorem filterMap_written (writes : List (List Byte)) : (writes.map TxEvent.write).filterMap written = writes := by
  rw [List.filterMap_map]
  exact List.filterMap_some

theorem plain_txCommand (driver : RadioDriver) (radio : Radio.Surroundings) (argv : List (List Byte)) :
    PlainWrites 0x72 (application.txCommand driver radio argv).writes := by
  change PlainEvents (application.transmitter.txCommand driver radio argv).2
  unfold Transmitter.txCommand
  split
  · rw [PlainEvents, filterMap_written]
    exact plain_cliError (.inl rfl) (by decide) (by decide +kernel)
  · split
    · exact plain_processSyncCommand _ driver radio _
    · exact plain_processSyncCommand _ driver radio _

/-- The tasks of a device: those of its role, under names that the configuration gives them or none. -/
structure TasksOf (role : FirmwareRole) (tasks : List Task) : Prop where
  function : ∀ task ∈ tasks, task.function ≠ if role = .tx then .firmwareRxThread else .firmwareTxThread
  configured : ∀ task ∈ tasks, ∀ name ∈ task.configuredName, Plain (foreignLetter role) name

instance (role : FirmwareRole) (tasks : List Task) : Decidable (TasksOf role tasks) :=
  decidable_of_iff ((∀ task ∈ tasks, task.function ≠ if role = .tx then .firmwareRxThread else .firmwareTxThread) ∧
    ∀ task ∈ tasks, ∀ name ∈ task.configuredName, Plain (foreignLetter role) name)
    ⟨fun both => ⟨both.1, both.2⟩, fun known => ⟨known.function, known.configured⟩⟩

theorem plain_stackTaskName {role : FirmwareRole} {tasks : List Task} (known : TasksOf role tasks) {task : Task}
    (listed : task ∈ tasks) : Plain (foreignLetter role) (stackTaskName task) := by
  unfold stackTaskName
  cases named : task.configuredName with
  | some name => exact known.configured task listed name named
  | none =>
    have function := known.function task listed
    rw [Option.getD_none]
    generalize task.function = function_ at function
    revert function
    cases role with
    | unset | rx | tx => cases function_ <;> decide

theorem plain_stackCommand {role : FirmwareRole} {tasks : List Task} (known : TasksOf role tasks)
    (argv : List (List Byte)) : PlainWrites (foreignLetter role) (application.stackCommand tasks argv).writes := by
  have letter_ := isRoleLetter role
  unfold Application.stackCommand
  split
  · exact plain_cliError_text letter_ (by decide) (by decide)
  · refine (plain_cliOk_text letter_ (by decide)).append (.flatMap fun task listed => ?_)
    refine plain_cliOk letter_ (Plain.take ?_ _)
    have mode : Plain (foreignLetter role) (stackModeName task.mode) := by
      generalize task.mode = mode
      cases mode with
      | running | ready | blocked | terminated | inactive | other => exact plain_text letter_ (by decide)
    have blank : Plain (foreignLetter role) (text " ") := plain_text letter_ (by decide)
    have stack : Plain (foreignLetter role) (text "stack: ") := plain_text letter_ (by decide)
    have slash : Plain (foreignLetter role) (text "/") := plain_text letter_ (by decide)
    exact ((((((((((stack.append (plain_stackTaskName known listed)).append blank).append (plain_signed _)).append
      blank).append (plain_decimal _)).append slash).append (plain_decimal _)).append blank).append
      (plain_decimal _)).append blank).append mode

theorem plain_versionCommand (letter_ : IsRoleLetter letter) (argv : List (List Byte)) :
    PlainWrites letter (application.versionCommand argv).writes := by
  unfold Application.versionCommand
  split
  · exact plain_cliError_text letter_ (by decide) (by decide)
  · exact plain_cliOk_text letter_ (by decide)

theorem plain_bootloaderCommand (letter_ : IsRoleLetter letter) (updateRequest : Int) (argv : List (List Byte)) :
    PlainWrites letter (application.bootloaderCommand updateRequest argv).writes := by
  unfold Application.bootloaderCommand
  split
  · exact plain_cliError_text letter_ (by decide) (by decide)
  · split
    · exact plain_cliError_text letter_ (by decide) (by decide)
    · exact plain_cliOk_text letter_ (by decide)

theorem plain_i2cSlaveCliCommand (letter_ : IsRoleLetter letter) (argv : List (List Byte)) :
    PlainWrites letter (application.i2cSlaveCliCommand argv).writes := by
  unfold Application.i2cSlaveCliCommand
  split
  · exact plain_cliOk_text letter_ (by decide)
  · split
    · exact plain_cliOk_text letter_ (by decide)
    · exact plain_cliError_text letter_ (by decide) (by decide)

/-- A command of the role's table. -/
theorem plain_call {role : FirmwareRole} {meets : Surroundings} (known : TasksOf role meets.tasks)
    {command : CliCommand CliHandler} (listed : command ∈ commandTable role) (argv : List (List Byte)) :
    PlainWrites (foreignLetter role) (application.call meets command.handler argv).writes := by
  have letter_ := isRoleLetter role
  have own : command.handler = (if role = .tx then .runtime .txCommand else .radioCommand) ∨
      command.handler ∈ [.runtime .bootloaderCommand, .runtime .versionCommand, .runtime .i2cSlaveCliCommand,
        .runtime .stackCommand] := by
    rcases List.mem_cons.mp listed with rfl | other
    · left
      split
      · rfl
      · rfl
    · right
      obtain ⟨runtime, place, rfl⟩ := List.mem_map.mp other
      have handlers : ∀ runtime ∈ runtimeCommands.drop 1, runtime.handler ∈
          [RuntimeHandler.bootloaderCommand, .versionCommand, .i2cSlaveCliCommand, .stackCommand] := by
        simp [runtimeCommands]
      exact List.mem_map_of_mem (f := CliHandler.runtime) (handlers runtime place)
  generalize command.handler = handler at own
  rcases own with rfl | other
  · cases role with
    | tx => exact plain_txCommand meets.driver meets.radio argv
    | unset | rx => exact plain_radioCommand meets.stats argv
  · simp only [List.mem_cons, List.not_mem_nil, or_false] at other
    rcases other with rfl | rfl | rfl | rfl
    · exact plain_bootloaderCommand letter_ meets.updateRequest argv
    · exact plain_versionCommand letter_ argv
    · exact plain_i2cSlaveCliCommand letter_ argv
    · exact plain_stackCommand known argv

/-! ### The writes of a line -/

/-- What cli_process_line can do in a role. -/
def EventOf (role : FirmwareRole) : CliEvent CliHandler → Prop
  | .write data => Plain (foreignLetter role) data
  | .call handler _ => ∃ command ∈ commandTable role, handler = command.handler

theorem eventOf_write {role : FirmwareRole} {writes : List (List Byte)}
    (plain : PlainWrites (foreignLetter role) writes) : ∀ event ∈ writes.map .write, EventOf role event :=
  List.forall_mem_map.mpr plain

theorem eventOf_dispatch (role : FirmwareRole) (argv : List (List Byte)) :
    ∀ event ∈ dispatch (commandTable role) argv, EventOf role event := by
  unfold dispatch
  split
  · exact List.forall_mem_nil _
  · split
    · exact eventOf_write (plain_cliHelp role _)
    · split
      case h_1 command found =>
        exact List.forall_mem_singleton.mpr ⟨command, List.mem_of_find?_eq_some found, rfl⟩
      case h_2 => exact eventOf_write (plain_cliError_text (isRoleLetter role) (by decide) (by decide))

theorem eventOf_cliProcessLine (role : FirmwareRole) (line : List Byte) :
    ∀ event ∈ (cliProcessLine (commandTable role) line).2, EventOf role event := by
  unfold cliProcessLine
  split
  · exact eventOf_write (plain_cliError_text (isRoleLetter role) (by decide) (by decide))
  · exact eventOf_dispatch role _

theorem eventOf_receive (role : FirmwareRole) (assembler : LineAssembler) (input : Byte) :
    ∀ event ∈ (assembler.receive (commandTable role) input).2, EventOf role event := by
  unfold LineAssembler.receive
  split
  · split
    · exact eventOf_write (plain_cliError_text (isRoleLetter role) (by decide) (by decide))
    · split
      · exact eventOf_cliProcessLine role _
      · exact List.forall_mem_nil _
  · split
    · exact List.forall_mem_nil _
    · exact List.forall_mem_nil _

theorem plain_perform {role : FirmwareRole} {meets : Surroundings} (known : TasksOf role meets.tasks)
    {events : List (CliEvent CliHandler)} (each : ∀ event ∈ events, EventOf role event) :
    PlainWrites (foreignLetter role) (application.perform meets events).writes := by
  induction events generalizing application with
  | nil => exact .nil
  | cons event events ih =>
    obtain ⟨here, others⟩ := List.forall_mem_cons.mp each
    cases event with
    | write data => exact List.forall_mem_cons.mpr ⟨here, ih others⟩
    | call handler argv =>
      obtain ⟨command, listed, rfl⟩ := here
      exact (plain_call known listed argv).append (ih others)

theorem plain_readyLines (role : FirmwareRole) : PlainWrites (foreignLetter role) (readyLines role) := by
  unfold PlainWrites
  cases role with
  | unset | rx | tx => decide +kernel

end Cc1310Firmware.Cli
