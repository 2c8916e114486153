import Cc1310Firmware.Radio.HexArgument
import Cc1310Firmware.Radio.SyncPacket

/-! What a line of the CLI makes the transmitter do.

A line is split by cli_process_line, put together again in the buffer of tx_command, where
it may be cut, and split once more. The grammar speaks of the words of the line only.
-/

set_option autoImplicit false

namespace Cc1310Firmware.Radio
open Cli Words

/-! ### The grammar -/

def maximumDigits : SyncCommand → Nat
  | .syncTime => 16
  | .syncFrame => 8

/-- The tokens behind tx ask for a packet. -/
def Requests (tokens : List (List Byte)) (request : SyncRequest) : Prop :=
  ∃ argument, tokens = [request.command.name, argument] ∧
    HexNumber (maximumDigits request.command) argument request.number

/-- A line asks for a packet. -/
def Asks (line : List Byte) (request : SyncRequest) : Prop :=
  ∃ tokens, words isBlank line = text "tx" :: tokens ∧ Requests tokens request

/-- A line as cliThread hands it over: a C string without a line end, and what the array holds behind it. -/
structure InputLine where
  content : List Byte
  string : ∀ b ∈ content, b ≠ 0
  inside : ∀ b ∈ content, isLineEnd b = false
  garbage : List Byte

def InputLine.array (line : InputLine) : List Byte := line.content ++ 0 :: line.garbage

def TxEvent.issued : TxEvent → Option (List Byte)
  | .runCmd packet => some packet
  | .write _ | .dio1 _ | .call _ _ => none

/-- The packets that the radio is told to send. -/
def radioCommands (events : List TxEvent) : List (List Byte) := events.filterMap TxEvent.issued

/-- A command has built and sent the packet that it asks for, or done nothing but print. -/
inductive Answers (tx : Transmitter) (driver : RadioDriver) (surroundings : Surroundings)
    (wanted : SyncRequest → Prop) (ran : Transmitter × List TxEvent) : Prop where
  | sent (request : SyncRequest) (asked : wanted request)
      (done : ran = (tx.prepare surroundings.clockTicks request).transmit driver surroundings request.command)
  | refused (unasked : ∀ request, ¬ wanted request) (kept : ran.1 = tx) (silent : radioCommands ran.2 = [])

variable {tx : Transmitter} {driver : RadioDriver} {surroundings : Surroundings}

theorem Answers.congr {wanted wanted' : SyncRequest → Prop} {ran : Transmitter × List TxEvent}
    (answers : Answers tx driver surroundings wanted ran) (same : ∀ request, wanted request ↔ wanted' request) :
    Answers tx driver surroundings wanted' ran := by
  cases answers with
  | sent request asked done => exact .sent request ((same request).mp asked) done
  | refused unasked kept silent =>
    exact .refused (fun request asked => unasked request ((same request).mpr asked)) kept silent

/-! ### Radio commands -/

theorem radioCommands_append (first second : List TxEvent) :
    radioCommands (first ++ second) = radioCommands first ++ radioCommands second := List.filterMap_append

@[simp] theorem radioCommands_write (writes : List (List Byte)) : radioCommands (writes.map .write) = [] := by
  unfold radioCommands
  rw [List.filterMap_map]
  exact List.filterMap_eq_nil_iff.mpr fun _ _ => rfl

theorem radioCommands_transmit (tx : Transmitter) (driver : RadioDriver) (surroundings : Surroundings)
    (command : SyncCommand) : radioCommands (tx.transmit driver surroundings command).2 = [tx.packet] := by
  have silent : ∀ response, radioCommands (writeResponse response) = [] := fun _ => rfl
  rw [Transmitter.transmit, radioCommands_append]
  split
  · rw [silent]
    rfl
  · rw [silent]
    rfl

/-! ### One command -/

theorem name_injective {first second : SyncCommand} (same : first.name = second.name) : first = second := by
  have different : text "sync_time" ≠ text "sync_frame" := by decide
  cases first with
  | syncTime =>
    cases second with
    | syncTime => rfl
    | syncFrame => exact absurd same different
  | syncFrame =>
    cases second with
    | syncTime => exact absurd same.symm different
    | syncFrame => rfl

theorem name_length_le (command : SyncCommand) : command.name.length ≤ 10 := by
  cases command with
  | syncTime | syncFrame => decide

theorem maximumDigits_le (command : SyncCommand) : maximumDigits command ≤ 16 := by
  cases command with
  | syncTime | syncFrame => decide

theorem pow_maximumDigits (command : SyncCommand) :
    16 ^ maximumDigits command = 256 ^ (syncPayloadLength command).toNat := by
  cases command with
  | syncTime | syncFrame => rfl

theorem writeUint64Be_eq (value : BitVec 64) : writeUint64Be value = BigEndian.bytesOf value 8 := rfl

/-- The cast to uint32_t loses the bytes that are not written. -/
theorem writeUint32Be_eq (value : BitVec 64) : writeUint32Be (value.setWidth 32) = BigEndian.bytesOf value 4 := by
  have same : ∀ k < 4, LittleEndian.byteOf (value.setWidth 32) k = LittleEndian.byteOf value k := by
    intro k small
    apply BitVec.eq_of_getLsbD_eq
    intro i inside
    simp only [LittleEndian.byteOf, BitVec.getLsbD_setWidth, BitVec.getLsbD_ushiftRight]
    grind
  rw [writeUint32Be, same 3 (by decide), same 2 (by decide), same 1 (by decide), same 0 (by decide)]
  rfl

/-- Either command, on what parseHexUint64 makes of the argument. -/
theorem answers_parsed {command : SyncCommand} {argument : List Byte} {maximum : Byte}
    (digits : maximum.toNat = maximumDigits command) {response : SyncResponse} {payload : BitVec 64 → List Byte}
    (bytes : ∀ value, payload value = BigEndian.bytesOf value (syncPayloadLength command).toNat) :
    Answers tx driver surroundings (Requests [command.name, argument])
      (match parseHexUint64 argument maximum with
        | none => (tx, writeCli response)
        | some value => (tx.buildSyncPacket surroundings.clockTicks (syncPacketType command) (payload value)
            (syncPayloadLength command)).transmit driver surroundings command) := by
  have small : maximum.toNat ≤ 16 := Nat.le_trans (Nat.le_of_eq digits) (maximumDigits_le command)
  cases parsed : parseHexUint64 argument maximum with
  | none =>
    refine .refused ?_ rfl rfl
    rintro request ⟨argument', tokens, hex⟩
    obtain ⟨name, rest⟩ := List.cons.inj tokens
    obtain rfl := name_injective name
    obtain rfl := (List.cons.inj rest).1
    rw [← digits] at hex
    obtain ⟨value, accepted, _⟩ := parseHexUint64_complete small hex
    rw [parsed] at accepted
    cases accepted
  | some value =>
    have hex := parseHexUint64_sound small parsed
    rw [digits] at hex
    have fits := hex.lt
    rw [pow_maximumDigits] at fits
    refine .sent ⟨command, value.toNat, fits⟩ ⟨argument, rfl, hex⟩ ?_
    dsimp only
    rw [bytes, Transmitter.prepare, SyncRequest.payload, BitVec.ofNat_toNat, BitVec.setWidth_eq]

theorem syncCommand_answers (command argument : List Byte) :
    Answers tx driver surroundings (Requests [command, argument])
      (tx.syncCommand driver surroundings command argument) := by
  unfold Transmitter.syncCommand
  split
  case isTrue time =>
    subst time
    exact @answers_parsed tx driver surroundings .syncTime argument 16 rfl .utcHex writeUint64Be writeUint64Be_eq
  case isFalse noTime =>
    split
    case isTrue frame =>
      subst frame
      exact @answers_parsed tx driver surroundings .syncFrame argument 8 rfl .exposureHex
        (fun value => writeUint32Be (value.setWidth 32)) writeUint32Be_eq
    case isFalse noFrame =>
      refine .refused ?_ rfl rfl
      rintro request ⟨argument', tokens, _⟩
      obtain ⟨name, _⟩ := List.cons.inj tokens
      generalize request.command = asked at name
      cases asked with
      | syncTime => exact noTime name
      | syncFrame => exact noFrame name

/-! ### The second tokenisation -/

/-- The words, when there are two of them at most. -/
theorem words_of_split {tokens found : List (List Byte)} {most : Nat}
    (argv : some found = if tokens.length ≤ most then some tokens else none) : tokens = found := by
  split at argv
  · exact (Option.some.inj argv).symm
  · cases argv

/-- Three calls of strtok find out whether there are two tokens. -/
theorem processSyncCommand_eq {content : List Byte} (string : ∀ b ∈ content, b ≠ 0) (garbage : List Byte) :
    tx.processSyncCommand driver surroundings (content ++ 0 :: garbage) =
      match words isBlank content with
      | [] => (tx, [])
      | [command, argument] => tx.syncCommand driver surroundings command argument
      | _ => (tx, writeCli .usage) := by
  obtain ⟨_, argv⟩ := @splitBy_spec isBlank rfl 2 [] content garbage string
  rw [List.nil_append, List.length_nil] at argv
  generalize content ++ 0 :: garbage = line at argv ⊢
  unfold Transmitter.processSyncCommand
  rcases first : strtokBy isBlank line 0 with ⟨line, next, _ | command⟩
  case none =>
    rw [splitBy_none first] at argv
    rw [words_of_split argv]
    rfl
  case some =>
  rw [splitBy_succ first] at argv
  dsimp only at argv ⊢
  rcases second : strtokBy isBlank line next with ⟨line, next, _ | argument⟩
  case none =>
    rw [splitBy_none second] at argv
    rw [words_of_split argv]
    rfl
  case some =>
  rw [splitBy_succ second] at argv
  dsimp only at argv ⊢
  rcases third : strtokBy isBlank line next with ⟨line, next, _ | extraArgument⟩
  case none =>
    rw [splitBy_none third] at argv
    rw [words_of_split argv]
    rfl
  case some =>
    rw [splitBy_zero third] at argv
    have more : ¬ (words isBlank content).length ≤ 2 := by
      intro few
      rw [if_pos few] at argv
      cases argv
    generalize words isBlank content = tokens at more ⊢
    rcases tokens with _ | ⟨_, _ | ⟨_, _ | _⟩⟩
    · exact absurd (Nat.zero_le 2) more
    · rfl
    · exact absurd (Nat.le_refl 2) more
    · rfl

theorem processSyncCommand_answers {content : List Byte} (string : ∀ b ∈ content, b ≠ 0) (garbage : List Byte) :
    Answers tx driver surroundings (Requests (words isBlank content))
      (tx.processSyncCommand driver surroundings (content ++ 0 :: garbage)) := by
  rw [processSyncCommand_eq string]
  split
  case h_1 none_ =>
    refine .refused ?_ rfl rfl
    rintro request ⟨argument, tokens, _⟩
    rw [none_] at tokens
    cases tokens
  case h_2 command argument two =>
    rw [two]
    exact syncCommand_answers command argument
  case h_3 other _ more =>
    refine .refused ?_ rfl rfl
    rintro request ⟨argument, tokens, _⟩
    exact more _ _ tokens

/-- What argv points to. -/
structure Token (word : List Byte) : Prop where
  some_ : word ≠ []
  whole : ∀ c ∈ word, isBlank c = false
  string : ∀ c ∈ word, c ≠ 0

theorem InputLine.tokens (line : InputLine) : ∀ word ∈ words isBlank line.content, Token word := by
  intro word listed
  obtain ⟨some_, whole, inside⟩ := words_mem line.content word listed
  exact ⟨some_, whole, fun c member => line.string c (inside c member)⟩

theorem Token.words_take {word : List Byte} (token : Token word) (count : Nat) :
    words isBlank (word.take count) = if count = 0 then [] else [word.take count] := by
  split
  case isTrue zero =>
    rw [zero, List.take_zero, words_nil]
  case isFalse positive =>
    have some_ : word.take count ≠ [] := by
      rw [ne_eq, List.take_eq_nil_iff]
      exact fun empty => empty.elim positive token.some_
    exact words_word some_ fun c member => token.whole c (List.mem_of_mem_take member)

theorem requests_singleton (token : List Byte) (request : SyncRequest) : ¬ Requests [token] request := by
  rintro ⟨argument, tokens, _⟩
  cases tokens

theorem Requests.short {command argument : List Byte} {request : SyncRequest}
    (asked : Requests [command, argument] request) :
    command.length ≤ 10 ∧ argument.length ≤ 18 := by
  obtain ⟨argument', tokens, hex⟩ := asked
  obtain ⟨rfl, rest⟩ := List.cons.inj tokens
  obtain rfl := (List.cons.inj rest).1
  have digits := maximumDigits_le request.command
  have length := hex.length_le
  exact ⟨name_length_le request.command, by omega⟩

/-- Only the first 63 characters reach processSyncCommand, but a longer text asks for nothing, cut or whole. -/
theorem requests_truncated {command argument : List Byte} (command_ : Token command) (argument_ : Token argument)
    (request : SyncRequest) :
    Requests (words isBlank ((command ++ 0x20 :: argument).take 63)) request ↔
      Requests [command, argument] request := by
  by_cases long : 63 ≤ command.length
  case pos =>
    rw [List.take_append_of_le_length long, command_.words_take, if_neg (by decide)]
    refine iff_of_false (requests_singleton _ request) fun asked => ?_
    have short := asked.short.1
    omega
  case neg =>
    have split : (command ++ 0x20 :: argument).take 63 = command ++
        0x20 :: argument.take (62 - command.length) := by
      rw [List.take_append, List.take_of_length_le (by omega),
        show 63 - command.length = 62 - command.length + 1 by omega, List.take_succ_cons]
    rw [split, words_word_append _ command_.some_ command_.whole (by decide), argument_.words_take]
    by_cases cut : 62 - command.length < argument.length
    case pos =>
      have none_ : ¬ Requests [command, argument] request := by
        intro asked
        have short := asked.short
        omega
      refine iff_of_false ?_ none_
      split_ifs
      · exact requests_singleton _ request
      · intro asked
        have short := asked.short
        rw [List.length_take] at short
        omega
    case neg =>
      have positive : 0 < argument.length := List.length_pos_iff.mpr argument_.some_
      rw [if_neg (by omega), List.take_of_length_le (by omega)]

/-! ### Lines -/

/-- The output that tx_command formats for two or three arguments. -/
theorem txCommand_eq (name : List Byte) {tokens : List (List Byte)} (some_ : 1 ≤ tokens.length)
    (few : tokens.length ≤ 2) :
    tx.txCommand driver surroundings (name :: tokens) =
      tx.processSyncCommand driver surroundings (snprintf surroundings.stack ((text " ").intercalate tokens)) := by
  rcases tokens with _ | ⟨command, _ | ⟨argument, _ | _⟩⟩
  · cases some_
  · rw [Transmitter.txCommand, if_neg (by simp), if_pos (show [name, command].length = 2 from rfl),
      List.intercalate_singleton]
    rfl
  · rw [Transmitter.txCommand, if_neg (by simp), if_neg (by simp), List.intercalate_cons_cons,
      List.intercalate_singleton]
    rfl
  · simp only [List.length_cons] at few
    omega

theorem snprintf_eq (surroundings : Surroundings) (output : List Byte) :
    ∃ garbage, snprintf surroundings.stack output = output.take 63 ++ 0 :: garbage := by
  rw [snprintf, surroundings.size]
  exact ⟨_, rfl⟩

/-- Taking the arguments apart again gives the answer that the arguments themselves give. -/
theorem requests_again {tokens : List (List Byte)} (tokens_ : ∀ token ∈ tokens, Token token)
    (some_ : 1 ≤ tokens.length) (few : tokens.length ≤ 2) (request : SyncRequest) :
    Requests (words isBlank (((text " ").intercalate tokens).take 63)) request ↔ Requests tokens request := by
  rcases tokens with _ | ⟨command, _ | ⟨argument, _ | _⟩⟩
  · cases some_
  · have command_ := tokens_ command (List.mem_singleton_self _)
    rw [List.intercalate_singleton, command_.words_take, if_neg (by decide)]
    exact iff_of_false (requests_singleton _ request) (requests_singleton _ request)
  · have joined : (text " ").intercalate [command, argument] = command ++ 0x20 :: argument := by
      rw [List.intercalate_cons_cons, List.intercalate_singleton, List.append_assoc]
      rfl
    rw [joined]
    exact requests_truncated (tokens_ command (by simp)) (tokens_ argument (by simp)) request
  · simp only [List.length_cons] at few
    omega

theorem mem_intercalate {separator : List Byte} {tokens : List (List Byte)} {c : Byte}
    (member : c ∈ separator.intercalate tokens) : c ∈ separator ∨ ∃ token ∈ tokens, c ∈ token := by
  induction tokens with
  | nil => cases member
  | cons token tokens ih =>
    rcases tokens with _ | ⟨next, rest⟩
    · rw [List.intercalate_singleton] at member
      exact .inr ⟨token, List.mem_cons_self, member⟩
    · rw [List.intercalate_cons_cons, List.append_assoc, List.mem_append, List.mem_append] at member
      rcases member with here | between | later
      · exact .inr ⟨token, List.mem_cons_self, here⟩
      · exact .inl between
      · rcases ih later with between | ⟨token', listed, inside⟩
        · exact .inl between
        · exact .inr ⟨token', List.mem_cons_of_mem _ listed, inside⟩

theorem string_intercalate {tokens : List (List Byte)} (tokens_ : ∀ token ∈ tokens, Token token) :
    ∀ c ∈ ((text " ").intercalate tokens).take 63, c ≠ 0 := by
  intro c member
  rcases mem_intercalate (List.mem_of_mem_take member) with blank | ⟨token, listed, inside⟩
  · have blanks : ∀ c ∈ text " ", c ≠ 0 := by decide
    exact blanks c blank
  · exact (tokens_ token listed).string c inside

theorem txCommand_answers (name : List Byte) {tokens : List (List Byte)} (tokens_ : ∀ token ∈ tokens, Token token) :
    Answers tx driver surroundings (Requests tokens) (tx.txCommand driver surroundings (name :: tokens)) := by
  by_cases counted : 1 ≤ tokens.length ∧ tokens.length ≤ 2
  case pos =>
    obtain ⟨some_, few⟩ := counted
    obtain ⟨garbage, buffer⟩ := snprintf_eq surroundings ((text " ").intercalate tokens)
    rw [txCommand_eq name some_ few, buffer]
    exact (processSyncCommand_answers (string_intercalate tokens_) garbage).congr (requests_again tokens_ some_ few)
  case neg =>
    have usage : (name :: tokens).length < 2 ∨ 3 < (name :: tokens).length := by
      rw [List.length_cons]
      omega
    rw [Transmitter.txCommand, if_pos usage]
    refine .refused ?_ rfl (radioCommands_write _)
    rintro request ⟨argument, rfl, _⟩
    exact counted ⟨Nat.le_add_left 1 1, Nat.le_refl 2⟩

theorem InputLine.processed (line : InputLine) : (cliProcessLine runtimeCommands line.array).2 =
    if 8 < (words isBlank line.content).length then (cliError (text "ARG") (text "too_many_arguments")).map .write
    else dispatch runtimeCommands (words isBlank line.content) := by
  -- strtok also splits at CR and LF, but the line has none
  have same : ∀ b ∈ line.content, isDelimiter b = isBlank b := by
    intro b member
    have inside := line.inside b member
    simp only [isLineEnd, isDelimiter, isBlank, Bool.or_eq_false_iff] at inside ⊢
    simp [inside]
  rw [array, (cliProcessLine_spec runtimeCommands line.garbage line.string).2, words_congr same]
  rfl

theorem handleAll_write (writes : List (List Byte)) :
    tx.handleAll driver surroundings (writes.map .write) = (tx, writes.map .write) := by
  induction writes with
  | nil => rfl
  | cons data writes ih =>
    rw [List.map_cons, Transmitter.handleAll, Transmitter.handle]
    dsimp only
    rw [ih]
    rfl

theorem answers_write {wanted : SyncRequest → Prop} (unasked : ∀ request, ¬ wanted request)
    (writes : List (List Byte)) :
    Answers tx driver surroundings wanted (tx.handleAll driver surroundings (writes.map .write)) := by
  rw [handleAll_write]
  exact .refused unasked rfl (radioCommands_write writes)

theorem handleAll_singleton (event : CliEvent RuntimeHandler) :
    tx.handleAll driver surroundings [event] = tx.handle driver surroundings event := by
  rw [Transmitter.handleAll, Transmitter.handleAll]
  dsimp only
  rw [List.append_nil]

/-- Other names lead to other handlers. -/
theorem findCommand_ne {name : List Byte} (other : name ≠ text "tx") {command : CliCommand RuntimeHandler}
    (found : findCommand runtimeCommands name = some command) : command.handler ≠ .txCommand := by
  have same : name = command.name := by simpa using List.find?_some found
  have listed := List.mem_of_find?_eq_some found
  simp only [runtimeCommands, List.mem_cons, List.not_mem_nil, or_false] at listed
  rcases listed with rfl | rfl | rfl | rfl | rfl
  · exact absurd same other
  · nofun
  · nofun
  · nofun
  · nofun

theorem processLine_answers (tx : Transmitter) (driver : RadioDriver) (surroundings : Surroundings)
    (line : InputLine) :
    Answers tx driver surroundings (Asks line.content) (tx.processLine driver surroundings line.array) := by
  have tokens_ := line.tokens
  rw [Transmitter.processLine, line.processed]
  unfold Asks
  generalize words isBlank line.content = argv at tokens_ ⊢
  split
  case isTrue many =>
    refine answers_write ?_ _
    rintro request ⟨_, rfl, argument, rfl, _⟩
    simp only [List.length_cons, List.length_nil] at many
    omega
  case isFalse =>
    cases argv with
    | nil => exact .refused (fun request asked => by obtain ⟨_, tokens, _⟩ := asked; cases tokens) rfl rfl
    | cons name tokens =>
      obtain ⟨_, others⟩ := List.forall_mem_cons.mp tokens_
      by_cases sync : name = text "tx"
      case pos =>
        subst sync
        have same : ∀ request, Requests tokens request ↔
            ∃ tokens', text "tx" :: tokens = text "tx" :: tokens' ∧ Requests tokens' request := by
          intro request
          constructor
          · exact fun asked => ⟨tokens, rfl, asked⟩
          · rintro ⟨_, rest, asked⟩
            rwa [(List.cons.inj rest).2]
        have call : dispatch runtimeCommands (text "tx" :: tokens) = [.call .txCommand (text "tx" :: tokens)] := rfl
        have answers := @txCommand_answers tx driver surroundings (text "tx") tokens others
        rw [call, handleAll_singleton]
        exact answers.congr same
      case neg =>
        have unasked : ∀ request, ¬ ∃ tokens', name :: tokens = text "tx" :: tokens' ∧
            Requests tokens' request := by
          rintro request ⟨_, same, _⟩
          exact sync (List.cons.inj same).1
        unfold dispatch
        dsimp only
        split
        · exact answers_write unasked _
        · cases found : findCommand runtimeCommands name with
          | none => exact answers_write unasked _
          | some command =>
            dsimp only
            rw [handleAll_singleton]
            have other := findCommand_ne sync found
            generalize command.handler = handler at other ⊢
            cases handler with
            | txCommand => exact absurd rfl other
            | bootloaderCommand | versionCommand | i2cSlaveCliCommand
            | stackCommand => exact .refused unasked rfl rfl

theorem Asks.unique {line : List Byte} {first second : SyncRequest} (asked : Asks line first)
    (asked' : Asks line second) :
    first = second := by
  obtain ⟨tokens, split, argument, rfl, hex⟩ := asked
  obtain ⟨tokens', split', argument', rfl, hex'⟩ := asked'
  obtain ⟨_, same⟩ := List.cons.inj (split.symm.trans split')
  obtain ⟨name, rest⟩ := List.cons.inj same
  obtain rfl := (List.cons.inj rest).1
  obtain ⟨command, number, fits⟩ := first
  obtain ⟨command', number', fits'⟩ := second
  obtain rfl := name_injective name
  obtain rfl := hex.unique (maximumDigits_le command) hex'
  rfl

/-- A line makes the transmitter build and send a packet just when it asks for one, and then one with
the number that its digits denote; every other line leaves the transmitter alone. What tx_command
puts together and splits again asks for the same. -/
theorem line_sends_iff (tx : Transmitter) (driver : RadioDriver) (surroundings : Surroundings) (line : InputLine) :
    let ran := tx.processLine driver surroundings line.array
    (radioCommands ran.2 ≠ [] ↔ ∃ request, Asks line.content request) ∧
    (∀ request, Asks line.content request → radioCommands ran.2 = [ran.1.packet] ∧
      SyncFrame request tx.syncSequence ran.1.packet) ∧
    ((∀ request, ¬ Asks line.content request) → ran.1 = tx ∧ radioCommands ran.2 = []) ∧
    (∀ tokens, words isBlank line.content = text "tx" :: tokens → 1 ≤ tokens.length → tokens.length ≤ 2 → ∀ request,
      Requests (words isBlank (cString (snprintf surroundings.stack ((text " ").intercalate tokens)) 0)) request ↔
        Requests tokens request) := by
  have answers := processLine_answers tx driver surroundings line
  generalize tx.processLine driver surroundings line.array = ran at answers ⊢
  refine ⟨?_, ?_, ?_, ?_⟩
  · cases answers with
    | sent request asked done =>
      rw [done, radioCommands_transmit]
      exact iff_of_true (List.cons_ne_nil _ _) ⟨request, asked⟩
    | refused unasked kept silent =>
      exact iff_of_false (fun some_ => some_ silent) fun ⟨request, asked⟩ => unasked request asked
  · intro request asked
    cases answers with
    | sent request' asked' done =>
      obtain rfl := asked.unique asked'
      rw [done, radioCommands_transmit]
      exact ⟨rfl, tx.prepare_frame surroundings.clockTicks request⟩
    | refused unasked kept silent => exact absurd asked (unasked request)
  · intro unasked
    cases answers with
    | sent request asked done => exact absurd asked (unasked request)
    | refused unasked kept silent => exact ⟨kept, silent⟩
  · intro tokens split some_ few request
    have tokens_ : ∀ token ∈ tokens, Token token := by
      have all := line.tokens
      rw [split] at all
      exact (List.forall_mem_cons.mp all).2
    obtain ⟨garbage, buffer⟩ := snprintf_eq surroundings ((text " ").intercalate tokens)
    have string := cString_word [] garbage (string_intercalate tokens_)
    rw [List.nil_append, List.length_nil] at string
    rw [buffer, string]
    exact requests_again tokens_ some_ few request

def frameRequest : SyncRequest := ⟨.syncFrame, 0x1234, by decide⟩

def frameLine : InputLine := ⟨text "tx sync_frame 0x00001234", by decide, by decide, [0xA5]⟩

def idleRadio : Surroundings := ⟨List.replicate 64 0xA5, rfl, fun _ => 0, 0, 0⟩

theorem line_sends_iff_frame :
    SyncFrame frameRequest 0 (Transmitter.start.processLine ⟨2, 0x3400⟩ idleRadio frameLine.array).1.packet := by
  have split : words isBlank frameLine.content =
    [text "tx", text "sync_frame", text "0x00001234"] := by decide +kernel
  have digits : HexDigits (text "00001234") [0, 0, 0, 0, 1, 2, 3, 4] := by
    simp only [text, HexDigits]
    decide
  have hex : HexNumber 8 (text "0x" ++ text "00001234") (Nat.ofDigits 16 [0, 0, 0, 0, 1, 2, 3, 4].reverse) :=
    .intro (by decide) digits (by decide) (by decide)
  have sends := line_sends_iff Transmitter.start ⟨2, 0x3400⟩ idleRadio frameLine
  exact (sends.2.1 frameRequest ⟨_, split, text "0x00001234", rfl, hex⟩).2

end Cc1310Firmware.Radio
