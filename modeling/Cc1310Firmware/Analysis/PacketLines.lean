import Cc1310Firmware.Analysis.LogLines

/-! A line of print_packet as read_uart reads it, in one piece or cut off.

Only the packet lines have an X. A pattern can therefore begin at the start of a packet
line and nowhere else, and what it finds there are the numbers of the message.
-/

set_option autoImplicit false

namespace Cc1310Firmware.Analysis
open Backtracking Cli Radio LittleEndian

/-! ### Numbers and bytes as they are printed -/

theorem isDigit_of_mem_decimal {value : Nat} : ∀ c ∈ decimal value, isDigit c = true := by
  have digit : ∀ d < 10, isDigit (BitVec.ofNat 8 (0x30 + d)) = true := by decide
  unfold decimal
  split
  · decide
  · intro c member
    obtain ⟨d, listed, rfl⟩ := List.mem_map.mp member
    exact digit d (Nat.digits_lt_base (by decide) (List.mem_reverse.mp listed))

theorem decimal_ne_nil (value : Nat) : decimal value ≠ [] := by
  unfold decimal
  split
  · decide
  case isFalse nonzero =>
    rw [Ne, List.map_eq_nil_iff, List.reverse_eq_nil_iff]
    exact Nat.digits_ne_nil_iff_ne_zero.mpr nonzero

theorem number_reverse {digits : List Nat} (each : ∀ d ∈ digits, d < 10) :
    number (digits.reverse.map fun d => BitVec.ofNat 8 (0x30 + d)) = Nat.ofDigits 10 digits := by
  induction digits with
  | nil => rfl
  | cons d digits ih =>
    obtain ⟨small, others⟩ := List.forall_mem_cons.mp each
    have value : (BitVec.ofNat 8 (0x30 + d)).toNat - 0x30 = d := by
      rw [BitVec.toNat_ofNat, Nat.mod_eq_of_lt (by omega), Nat.add_sub_cancel_left]
    have front := ih others
    unfold number at front ⊢
    rw [List.reverse_cons, List.map_append, List.foldl_append, front, Nat.ofDigits_cons, List.map_singleton,
      List.foldl_cons, List.foldl_nil, value, Nat.add_comm]

theorem number_decimal (value : Nat) : number (decimal value) = value := by
  unfold decimal
  split
  case isTrue zero =>
    rw [zero]
    rfl
  case isFalse =>
    rw [number_reverse fun d listed => Nat.digits_lt_base (by decide) listed, Nat.ofDigits_digits]

theorem hexDigit_printed : ∀ digit < 16, isHexDigit (hexCharacter 0x41 digit) = true ∧
    Char.ofNat (hexCharacter 0x41 digit).toNat = (Nat.digitChar digit).toUpper := by
  decide

theorem forall_mem_payload (good : Byte → Prop) (digits : ∀ digit < 16, good (hexCharacter 0x41 digit))
    (payload : List Byte) : ∀ c ∈ payload.flatMap upperHexByte, good c := by
  intro c member
  obtain ⟨value, _, place⟩ := List.mem_flatMap.mp member
  rcases List.mem_cons.mp place with rfl | low
  · exact digits _ (HexText.high_lt value)
  · rw [List.mem_singleton.mp low]
    exact digits _ (HexText.low_lt value)

theorem fromHex_payload (payload : List Byte) : fromHex (payload.flatMap upperHexByte) = some payload := by
  have printed : (payload.flatMap upperHexByte).map (fun c => Char.ofNat c.toNat) =
      HexText.upper (HexText.hex payload) := by
    induction payload with
    | nil => rfl
    | cons value payload ih =>
      rw [List.flatMap_cons, List.map_append, ih, HexText.upper_hex_cons]
      simp only [upperHexByte, List.map_cons, List.map_nil, (hexDigit_printed _ (HexText.high_lt value)).2,
        (hexDigit_printed _ (HexText.low_lt value)).2]
      rfl
  rw [fromHex, printed, HexText.fromHex_upper_hex]

theorem length_payload (payload : List Byte) : (payload.flatMap upperHexByte).length = 2 * payload.length := by
  rw [List.length_flatMap]
  simp [upperHexByte, Nat.mul_comm]

/-- Without white space, two digits make a byte. -/
theorem length_of_fromHex {encoded : List Char} {data : List Byte} (solid : ∀ c ∈ encoded, HexText.isBlank c = false)
    (read : HexText.fromHex encoded = some data) : encoded.length = 2 * data.length := by
  induction encoded using HexText.fromHex.induct generalizing data with
  | case1 =>
    cases read
    rfl
  | case2 c blank =>
    rw [solid c (List.mem_singleton_self c)] at blank
    cases blank
  | case3 c noBlank =>
    rw [HexText.fromHex, if_neg noBlank] at read
    cases read
  | case4 c d rest blank =>
    rw [solid c List.mem_cons_self] at blank
    cases blank
  | case5 c d rest noBlank ih =>
    rw [HexText.fromHex, if_neg noBlank] at read
    simp only [Option.bind_eq_bind, Option.bind_eq_some_iff, Option.pure_def, Option.some.injEq] at read
    obtain ⟨high, _, low, _, tail, further, rfl⟩ := read
    have shorter := ih (fun b member => solid b (List.mem_cons_of_mem _ (List.mem_cons_of_mem _ member))) further
    rw [List.length_cons, List.length_cons, List.length_cons, shorter]
    omega

/-! ### Where a pattern can begin -/

/-- No character but the first is an X. -/
def Quiet (row : List Byte) : Prop := 0x58 ∉ row.tail

theorem Quiet.suffix {row after : List Byte} (quiet : Quiet row) (suffix : after <:+ row) : Quiet after := by
  intro member
  obtain ⟨before, rfl⟩ := suffix
  cases before with
  | nil => exact quiet member
  | cons a before => exact quiet (List.mem_append_right _ (List.mem_of_mem_tail member))

theorem Quiet.front {row before : List Byte} (quiet : Quiet row) (front : before <+: row) : Quiet before := by
  intro member
  obtain ⟨after, rfl⟩ := front
  cases before with
  | nil => cases member
  | cons a before => exact quiet (List.mem_append_left _ member)

theorem Quiet.append {row more : List Byte} (quiet : Quiet row) (none_ : 0x58 ∉ more) : Quiet (row ++ more) := by
  intro member
  cases row with
  | nil => exact none_ (List.mem_of_mem_tail member)
  | cons a row => exact (List.mem_append.mp member).elim quiet none_

/-- The second character of a pattern is an X. -/
theorem rxRe_begins {c d : Cursor Byte} (member : d ∈ rxRe.results c) : ∃ rest, c.rest = 0x52 :: 0x58 :: rest := by
  obtain ⟨m, here, further⟩ := mem_sequence_cons.mp member
  obtain ⟨n, name, _⟩ := mem_sequence_cons.mp further
  have read := (mem_literal name).1
  rw [mem_boundary here] at read
  exact ⟨n.rest, read⟩

theorem txRe_begins {c d : Cursor Byte} (member : d ∈ txRe.results c) : ∃ rest, c.rest = 0x54 :: 0x58 :: rest := by
  obtain ⟨m, here, further⟩ := mem_sequence_cons.mp member
  obtain ⟨n, name, _⟩ := mem_sequence_cons.mp further
  have read := (mem_literal name).1
  rw [mem_boundary here] at read
  exact ⟨0x3A :: n.rest, read⟩

/-- A match of RX_RE reads `data=` and a digit behind it. -/
theorem rxRe_reads_data {c d : Cursor Byte} (member : d ∈ rxRe.results c) :
    ∃ before digit after, c.rest = before ++ text "data=" ++ digit :: after ∧ isHexDigit digit = true := by
  have split : rxRe = sequence ([.boundary isWord, literal (text "RX"), spaces, literal (text "seq="),
      .group 1 digits, optional (.either (sequence (spaces :: localClock 2 3))
        (sequence [spaces, literal (text "tick="), .group 4 digits])),
      spaces, literal (text "len="), .group 5 digits, spaces] ++
      [literal (text "data="), .group 6 (atLeastOnce (.one isHexDigit))]) := rfl
  rw [split] at member
  obtain ⟨m, front, back⟩ := mem_sequence_append.mp member
  obtain ⟨before, here⟩ := rest_suffix _ front
  obtain ⟨n, name, last⟩ := mem_sequence_cons.mp back
  obtain ⟨e, group, _⟩ := mem_sequence_cons.mp last
  obtain ⟨f, data, _⟩ := mem_group.mp group
  obtain ⟨digit, word, hex, _, read, _⟩ := mem_atLeastOnce_one data
  refine ⟨before, digit, word ++ f.rest, ?_, hex⟩
  rw [← here, (mem_literal name).1, read, List.append_assoc]
  rfl

/-! ### A packet line -/

/-- A packet line up to `data=`. -/
def packetFront (message : RfPacketMessage) : List Byte :=
  text "RX seq=" ++ decimal message.sequence.toNat ++ text " tick=" ++ decimal message.timestampTicks.toNat ++
  text " len=" ++ decimal message.length ++ [0x20]

theorem packetHeader_eq (message : RfPacketMessage) :
    packetHeader message = packetFront message ++ text "data=" := by
  rw [packetHeader, packetFront, List.append_assoc _ [0x20]]
  rfl

def packetRow (message : RfPacketMessage) : List Byte :=
  packetHeader message ++ message.payload.flatMap upperHexByte ++ newline

/-- The groups of RX_RE that match the line of a message, with the digits that are there. -/
def packetGroups (message : RfPacketMessage) (hex : List Byte) : Nat → Option (List Byte) :=
  Function.update (Function.update (Function.update (Function.update noGroups
    1 (some (decimal message.sequence.toNat))) 4 (some (decimal message.timestampTicks.toNat)))
    5 (some (decimal message.length))) 6 (some hex)

theorem stops_blank {accepts : Byte → Bool} (rest : List Byte) (rejected : accepts 0x20 = false) :
    Stops accepts (0x20 :: rest) := by
  rintro a ⟨⟩
  exact rejected

theorem takes_spaces {rest : List Byte} {groups : Nat → Option (List Byte)} (stops : Stops isSpace rest) :
    Takes spaces [0x20] rest groups groups :=
  Takes.atLeastOnce_one (List.cons_ne_nil _ _) (by decide) stops

theorem takes_digits {value : Nat} {rest : List Byte} {groups : Nat → Option (List Byte)} (index : Nat)
    (stops : Stops isDigit rest) :
    Takes (.group index digits) (decimal value) rest groups
      (Function.update groups index (some (decimal value))) :=
  Takes.group (Takes.atLeastOnce_one (decimal_ne_nil value) isDigit_of_mem_decimal stops)

theorem stops_word {accepts : Byte → Bool} {word tail : List Byte} {c : Byte} (rest : List Byte)
    (begins : word = c :: tail) (rejected : accepts c = false) : Stops accepts (word ++ rest) := by
  subst begins
  rintro a ⟨⟩
  exact rejected

/-- The form with `t_tick=` is tried first. -/
theorem refuses_localClock (rest : List Byte) (groups : Nat → Option (List Byte)) :
    Refuses (sequence (spaces :: localClock 2 3)) (0x20 :: (text "tick=" ++ rest)) groups := by
  intro previous
  refine List.eq_nil_iff_forall_not_mem.mpr fun d member => ?_
  obtain ⟨m, blank, further⟩ := mem_sequence_cons.mp member
  obtain ⟨n, name, _⟩ := mem_sequence_cons.mp further
  obtain ⟨a, word, _, each, read, _⟩ := mem_atLeastOnce_one blank
  have name_ := (mem_literal name).1
  obtain ⟨_, read⟩ := List.cons.inj read
  cases word with
  | nil =>
    have second : text "tick=" ++ rest = text "t_tick=" ++ n.rest := read.trans name_
    have differs : (0x69 : Byte) = 0x5F := (List.cons.inj (List.cons.inj second).2).1
    exact absurd differs (by decide)
  | cons b word =>
    have same : (0x74 : Byte) = b := (List.cons.inj read).1
    have space := each b List.mem_cons_self
    rw [← same] at space
    exact absurd space (by decide)

theorem rxParts_takes (message : RfPacketMessage) {hex rest : List Byte} (some_ : hex ≠ [])
    (each : ∀ c ∈ hex, isHexDigit c = true) (stops : Stops isHexDigit rest) :
    Takes (sequence rxParts) (packetHeader message ++ hex) rest noGroups (packetGroups message hex) := by
  have tick {rest : List Byte} {groups : Nat → Option (List Byte)} (stops : Stops isDigit rest) :
      Takes (optional (.either (sequence (spaces :: localClock 2 3))
        (sequence [spaces, literal (text "tick="), .group 4 digits])))
        ([0x20] ++ (text "tick=" ++ decimal message.timestampTicks.toNat)) rest groups
        (Function.update groups 4 (some (decimal message.timestampTicks.toNat))) := by
    refine Takes.left (Takes.right ?_ ?_)
    · rw [List.append_assoc, List.append_assoc]
      exact refuses_localClock _ groups
    · refine Takes.sequence (takes_spaces ?_) (Takes.sequence (Takes.literal _) (Takes.last (takes_digits 4 stops)))
      rw [List.append_assoc]
      exact stops_word _ rfl rfl
  have parts : Takes (sequence rxParts) (text "RX" ++ ([0x20] ++ (text "seq=" ++ (decimal message.sequence.toNat ++
      (([0x20] ++ (text "tick=" ++ decimal message.timestampTicks.toNat)) ++ ([0x20] ++ (text "len=" ++
      (decimal message.length ++ ([0x20] ++ (text "data=" ++ hex)))))))))) rest noGroups
      (packetGroups message hex) := by
    refine .sequence (.literal _) <| .sequence (takes_spaces ?_) <| .sequence (.literal _) <|
      .sequence (takes_digits 1 (stops_blank _ rfl)) <| .sequence (tick (stops_blank _ rfl)) <|
      .sequence (takes_spaces ?_) <| .sequence (.literal _) <| .sequence (takes_digits 5 (stops_blank _ rfl)) <|
      .sequence (takes_spaces ?_) <| .sequence (.literal _) <|
      .last (.group (.atLeastOnce_one some_ each stops))
    · rw [List.append_assoc]
      exact stops_word _ rfl rfl
    · rw [List.append_assoc]
      exact stops_word _ rfl rfl
    · rw [List.append_assoc]
      exact stops_word _ rfl rfl
  have words : text "RX seq=" = text "RX" ++ ([0x20] ++ text "seq=") ∧ text " tick=" = [0x20] ++ text "tick=" ∧
      text " len=" = [0x20] ++ text "len=" ∧ text " data=" = [0x20] ++ text "data=" := ⟨rfl, rfl, rfl, rfl⟩
  obtain ⟨seq, tick_, len, data⟩ := words
  rw [packetHeader, seq, tick_, len, data]
  simpa only [List.append_assoc] using parts

theorem not_mem_decimal {c : Byte} (value : Nat) (other : isDigit c = false) : c ∉ decimal value := by
  intro member
  rw [isDigit_of_mem_decimal c member] at other
  cases other

/-- The X behind the R is the only one of the line. -/
theorem packetRow_eq (message : RfPacketMessage) :
    ∃ tail, packetRow message = 0x52 :: 0x58 :: tail ∧ 0x58 ∉ tail := by
  refine ⟨text " seq=" ++ decimal message.sequence.toNat ++ text " tick=" ++ decimal message.timestampTicks.toNat ++
    text " len=" ++ decimal message.length ++ text " data=" ++ message.payload.flatMap upperHexByte ++ newline,
    rfl, ?_⟩
  have number (value : Nat) : 0x58 ∉ decimal value := not_mem_decimal value rfl
  have hex : 0x58 ∉ message.payload.flatMap upperHexByte := fun member =>
    forall_mem_payload (· ≠ 0x58) (by decide) message.payload _ member rfl
  have words : 0x58 ∉ text " seq=" ++ text " tick=" ++ text " len=" ++ text " data=" ++ newline := by decide
  simp only [List.mem_append, not_or] at words ⊢
  obtain ⟨⟨⟨⟨seq, tick⟩, len⟩, data⟩, end_⟩ := words
  exact ⟨⟨⟨⟨⟨⟨⟨⟨seq, number _⟩, tick⟩, number _⟩, len⟩, number _⟩, data⟩, hex⟩, end_⟩

theorem not_mem_packetFront (message : RfPacketMessage) : 0x64 ∉ packetFront message := by
  have number (value : Nat) : 0x64 ∉ decimal value := not_mem_decimal value rfl
  have words : 0x64 ∉ text "RX seq=" ++ text " tick=" ++ text " len=" ++ [0x20] := by decide
  simp only [packetFront, List.mem_append, not_or] at words ⊢
  obtain ⟨⟨⟨seq, tick⟩, len⟩, blank⟩ := words
  exact ⟨⟨⟨⟨⟨⟨seq, number _⟩, tick⟩, number _⟩, len⟩, number _⟩, blank⟩

/-- A part of the line that has `data=` and a digit has all in front of it. -/
theorem packetRow_cut {message : RfPacketMessage} {part before after : List Byte} {digit : Byte}
    (cut : part <+: packetRow message) (read : part = before ++ text "data=" ++ digit :: after)
    (hexDigit : isHexDigit digit = true) :
    ∃ hex rest, part = packetHeader message ++ hex ++ rest ∧ hex ≠ [] ∧
      hex <+: message.payload.flatMap upperHexByte ∧ Stops isHexDigit rest := by
  obtain ⟨more, whole⟩ := cut
  have behind : 0x64 ∉ text "ata=" ++ (message.payload.flatMap upperHexByte ++ newline) := by
    have hex : 0x64 ∉ message.payload.flatMap upperHexByte := fun member =>
      forall_mem_payload (· ≠ 0x64) (by decide) message.payload _ member rfl
    simp only [List.mem_append, not_or]
    exact ⟨by decide, hex, by decide⟩
  have places : packetFront message ++ 0x64 :: (text "ata=" ++ (message.payload.flatMap upperHexByte ++ newline)) =
      before ++ 0x64 :: (text "ata=" ++ (digit :: after ++ more)) := by
    calc _ = packetRow message := by
          rw [packetRow, packetHeader_eq]
          simp only [List.append_assoc]
          rfl
      _ = part ++ more := whole.symm
      _ = _ := by
          rw [read]
          simp only [List.append_assoc]
          rfl
  obtain ⟨rfl, _, data⟩ := (List.append_cons_inj_of_notMem (not_mem_packetFront message) behind).mp places
  rw [packetHeader_eq, read]
  rcases List.append_eq_append_iff.mp (List.append_cancel_left data) with ⟨others, row, last⟩ | ⟨others, row, _⟩
  · -- all the digits, and perhaps a part of CR LF
    have hex := forall_mem_payload (isHexDigit · = true) (fun d small => (hexDigit_printed d small).1)
      message.payload
    have rest_ : Stops isHexDigit others := by
      rintro a here
      obtain ⟨tail, rfl⟩ := List.head?_eq_some_iff.mp here
      rw [← (List.cons.inj last).1]
      rfl
    refine ⟨message.payload.flatMap upperHexByte, others, ?_, ?_, List.prefix_rfl, rest_⟩
    · rw [row, ← List.append_assoc]
    · intro empty
      rw [empty, List.nil_append] at row
      rw [rest_ digit (row ▸ rfl)] at hexDigit
      cases hexDigit
  · refine ⟨digit :: after, [], (List.append_nil _).symm, List.cons_ne_nil _ _, ⟨others, row.symm⟩, ?_⟩
    rintro a ⟨⟩

/-! ### Rows -/

/-- A row that a reader may get: the rest of something else, and a packet line or a part of it. -/
structure PrintedRow (message : RfPacketMessage) (row : List Byte) : Prop where
  split : ∃ before part, row = before ++ part ∧ Quiet before ∧ part <+: packetRow message

theorem refuses_of_begins {p : Pattern Byte} {first : Byte} {row : List Byte} {groups : Nat → Option (List Byte)}
    (begins : ∀ {c d : Cursor Byte}, d ∈ p.results c → ∃ rest, c.rest = first :: 0x58 :: rest)
    (other : ∀ rest, row ≠ first :: 0x58 :: rest) : Refuses p row groups := by
  intro previous
  refine List.eq_nil_iff_forall_not_mem.mpr fun d member => ?_
  obtain ⟨rest, same⟩ := begins member
  exact other rest same

/-- The packet line begins with an R. -/
theorem part_head {message : RfPacketMessage} {part : List Byte} (cut : part <+: packetRow message) {first : Byte}
    (other : first ≠ 0x52) (rest : List Byte) : part ≠ first :: rest := by
  rintro rfl
  obtain ⟨more, whole⟩ := cut
  obtain ⟨tail, row, _⟩ := packetRow_eq message
  rw [row] at whole
  exact other (List.cons.inj whole).1

/-- No pattern begins in front of the packet line. -/
theorem not_begins_before {message : RfPacketMessage} {after part : List Byte} (quiet : Quiet after)
    (some_ : after ≠ []) (cut : part <+: packetRow message) (first : Byte) (rest : List Byte) :
    after ++ part ≠ first :: 0x58 :: rest := by
  intro same
  cases after with
  | nil => exact some_ rfl
  | cons a after =>
    obtain ⟨_, second⟩ := List.cons.inj same
    cases after with
    | nil => exact part_head cut (by decide) rest second
    | cons b after => exact quiet ((List.cons.inj second).1 ▸ List.mem_cons_self)

/-- Nor behind its first character. -/
theorem not_begins_inside {message : RfPacketMessage} {part tail : List Byte} {c : Byte}
    (cut : c :: part <+: packetRow message) (suffix : tail <:+ part) (first : Byte) (rest : List Byte) :
    tail ≠ first :: 0x58 :: rest := by
  rintro rfl
  obtain ⟨more, whole⟩ := cut
  obtain ⟨last, row, none_⟩ := packetRow_eq message
  obtain ⟨before, rfl⟩ := suffix
  rw [row, List.cons_append] at whole
  obtain ⟨_, second⟩ := List.cons.inj whole
  cases before with
  | nil =>
    obtain ⟨_, third⟩ := List.cons.inj second
    exact none_ (third ▸ List.mem_cons_self)
  | cons b before =>
    obtain ⟨_, third⟩ := List.cons.inj second
    exact none_ (third ▸ List.mem_append_left _ (List.mem_append_right _ (List.mem_cons_of_mem _ List.mem_cons_self)))

theorem rxRe_results (c : Cursor Byte) :
    rxRe.results c = [] ∨ rxRe.results c = (sequence rxParts).results c := by
  change ((Pattern.boundary isWord).results c).flatMap (sequence rxParts).results = [] ∨
    ((Pattern.boundary isWord).results c).flatMap (sequence rxParts).results = _
  rw [Pattern.results]
  split
  · exact .inr (List.append_nil _)
  · exact .inl rfl

/-- What RX_RE finds in a row. -/
theorem rxRe_row {message : RfPacketMessage} {row : List Byte} (row_ : PrintedRow message row) :
    rxRe.search none row = none ∨ ∃ hex d, hex <+: message.payload.flatMap upperHexByte ∧
      rxRe.search none row = some d ∧ d.groups = packetGroups message hex := by
  obtain ⟨before, part, rfl, quiet, cut⟩ := row_
  rw [search_skip none part fun front after split some_ => refuses_of_begins rxRe_begins
    (not_begins_before (quiet.suffix ⟨front, split.symm⟩) some_ cut _)]
  generalize before.getLast?.or none = previous
  cases found : (rxRe.results ⟨previous, part, noGroups⟩).head? with
  | some d =>
    right
    have member : d ∈ rxRe.results ⟨previous, part, noGroups⟩ := List.mem_of_mem_head? found
    obtain ⟨front, digit, after, read, hexDigit⟩ := rxRe_reads_data member
    obtain ⟨hex, rest, rfl, some_, prefix_, stops⟩ := packetRow_cut cut read hexDigit
    have each : ∀ c ∈ hex, isHexDigit c = true := fun c listed =>
      forall_mem_payload (isHexDigit · = true) (fun d small => (hexDigit_printed d small).1)
        message.payload c (prefix_.subset listed)
    obtain ⟨last, first⟩ := rxParts_takes message some_ each stops previous
    rcases rxRe_results ⟨previous, packetHeader message ++ hex ++ rest, noGroups⟩ with none_ | same
    · rw [none_] at member
      cases member
    · rw [same, first] at found
      refine ⟨hex, d, prefix_, search_here ?_, ?_⟩
      · rw [same, first, found]
      · rw [← Option.some.inj found]
  | none =>
    left
    cases part with
    | nil => exact found
    | cons c tail =>
      rw [Pattern.search, found]
      refine search_none _ fun front after split => ?_
      exact refuses_of_begins rxRe_begins (not_begins_inside cut ⟨front, split.symm⟩ _)

/-- TX_RE finds nothing in a row. -/
theorem txRe_row {message : RfPacketMessage} {row : List Byte} (row_ : PrintedRow message row) :
    txRe.search none row = none := by
  obtain ⟨before, part, rfl, quiet, cut⟩ := row_
  refine search_none _ fun front after split => refuses_of_begins txRe_begins ?_
  intro rest
  rcases List.append_eq_append_iff.mp split with ⟨others, rfl, rfl⟩ | ⟨others, rfl, rfl⟩
  · cases others with
    | nil => exact part_head cut (by decide) _
    | cons c others => exact not_begins_inside cut (List.suffix_append _ _) _ rest
  · cases others with
    | nil => exact part_head cut (by decide) _
    | cons c others =>
      exact not_begins_before (quiet.suffix (List.suffix_append _ _)) (List.cons_ne_nil _ _) cut _ rest

theorem PrintedRow.front {message : RfPacketMessage} {row front : List Byte} (row_ : PrintedRow message row)
    (front_ : front <+: row) : PrintedRow message front := by
  obtain ⟨before, part, rfl, quiet, cut⟩ := row_
  obtain ⟨more, split⟩ := front_
  rcases List.append_eq_append_iff.mp split with ⟨others, rfl, _⟩ | ⟨others, rfl, rfl⟩
  · exact ⟨front, [], (List.append_nil _).symm, quiet.front (List.prefix_append _ _), List.nil_prefix⟩
  · exact ⟨before, others, rfl, quiet, (List.prefix_append _ _).trans cut⟩

/-- What follows the first character of a packet line is quiet. -/
theorem quiet_of_cut {message : RfPacketMessage} {part tail : List Byte} {c : Byte}
    (cut : c :: part <+: packetRow message) (suffix : tail <:+ part) : Quiet tail := by
  obtain ⟨more, whole⟩ := cut
  obtain ⟨last, row, none_⟩ := packetRow_eq message
  rw [row, List.cons_append] at whole
  have quiet : Quiet (part ++ more) := by
    rw [(List.cons.inj whole).2]
    exact none_
  exact (quiet.front (List.prefix_append _ _)).suffix suffix

theorem PrintedRow.suffix {message : RfPacketMessage} {row back : List Byte} (row_ : PrintedRow message row)
    (back_ : back <:+ row) : PrintedRow message back := by
  obtain ⟨before, part, rfl, quiet, cut⟩ := row_
  obtain ⟨front, split⟩ := back_
  rcases List.append_eq_append_iff.mp split with ⟨others, rfl, rfl⟩ | ⟨others, rfl, rfl⟩
  · exact ⟨others, part, rfl, quiet.suffix (List.suffix_append _ _), cut⟩
  · cases others with
    | nil => exact ⟨[], back, rfl, List.not_mem_nil, cut⟩
    | cons c others =>
      exact ⟨back, [], (List.append_nil _).symm, quiet_of_cut cut (List.suffix_append _ _), List.nil_prefix⟩

theorem PrintedRow.strip {message : RfPacketMessage} {row : List Byte} (row_ : PrintedRow message row) :
    PrintedRow message (strip row) :=
  (row_.suffix (List.dropWhile_suffix _)).front (List.rdropWhile_prefix _ _)

/-! ### Calls -/

/-- The call that the line of a message asks for. -/
def messageCall (message : RfPacketMessage) : Option LogCall :=
  if message.length = 30 then
    some (.rx message.sequence.toNat message.payload (some message.timestampTicks.toNat) none)
  else none

theorem rxEntry_packet (message : RfPacketMessage) (hex : List Byte) : rxEntry (packetGroups message hex) =
    .rx message.sequence.toNat message.length (fromHex hex) (some message.timestampTicks.toNat) none := by
  change LogEntry.rx (number (decimal message.sequence.toNat)) (number (decimal message.length)) (fromHex hex)
    (some (number (decimal message.timestampTicks.toNat))) none = _
  rw [number_decimal, number_decimal, number_decimal]

/-- However a packet line is cut off, it is read right or not at all. -/
theorem logCall_row {message : RfPacketMessage} (sized : message.Sized) {raw : List Byte} (row_ : PrintedRow message raw) :
    logCall raw = none ∨ logCall raw = messageCall message := by
  have entry : logEntry raw = (rxRe.search none (strip raw)).map fun found => rxEntry found.groups := by
    rw [logEntry, txRe_row row_.strip]
  rw [logCall, entry]
  rcases rxRe_row row_.strip with none_ | ⟨hex, d, prefix_, found, groups⟩
  · rw [none_]
    exact .inl rfl
  · rw [found, Option.map_some, Option.bind_some, groups, rxEntry_packet]
    cases read : fromHex hex with
    | none => exact .inl rfl
    | some data =>
      rw [LogEntry.call]
      split
      case isFalse => exact .inl rfl
      case isTrue whole =>
        right
        -- 30 bytes take all the digits of the line
        have solid : ∀ c ∈ hex.map (fun c => Char.ofNat c.toNat), HexText.isBlank c = false := by
          refine List.forall_mem_map.mpr fun c listed => ?_
          exact forall_mem_payload (fun c => HexText.isBlank (Char.ofNat c.toNat) = false) (by decide)
            message.payload c (prefix_.subset listed)
        have length := length_of_fromHex solid read
        rw [List.length_map, whole.2] at length
        have all : hex = message.payload.flatMap upperHexByte := by
          refine prefix_.eq_of_length ?_
          rw [length, length_payload, sized.payload, whole.1]
        rw [all, fromHex_payload] at read
        rw [messageCall, if_pos whole.1, ← Option.some.inj read]

theorem strip_printed {message : RfPacketMessage} (some_ : message.payload ≠ []) :
    strip (packetRow message) = packetHeader message ++ message.payload.flatMap upperHexByte := by
  obtain ⟨front, value, last⟩ := List.eq_nil_or_concat message.payload |>.resolve_left some_
  have low : isSpace (hexCharacter 0x41 (value.toNat % 16)) = false :=
    (by decide : ∀ digit < 16, isSpace (hexCharacter 0x41 digit) = false) _ (HexText.low_lt value)
  have digits : message.payload.flatMap upperHexByte = front.flatMap upperHexByte ++
      [hexCharacter 0x41 (value.toNat / 16)] ++ [hexCharacter 0x41 (value.toNat % 16)] := by
    rw [last, List.concat_eq_append, List.flatMap_append, List.append_assoc]
    rfl
  obtain ⟨tail, row, _⟩ := packetRow_eq message
  have first : (packetRow message).dropWhile isSpace = packetRow message := by
    rw [row, List.dropWhile_cons_of_neg (by decide)]
  have ends : packetRow message = packetHeader message ++ message.payload.flatMap upperHexByte ++ [0x0D] ++ [0x0A] := by
    rw [packetRow, List.append_assoc _ [0x0D]]
    rfl
  rw [strip, first, ends, List.rdropWhile_concat_pos _ _ _ rfl, List.rdropWhile_concat_pos _ _ _ rfl, digits,
    ← List.append_assoc, List.rdropWhile_concat_neg _ _ _ (by rw [low]; decide)]

/-- A line of print_packet that is not cut off is read. -/
theorem logCall_printed {message : RfPacketMessage} (sized : message.Sized) :
    logCall (packetRow message) = messageCall message := by
  have row_ : PrintedRow message (packetRow message) := ⟨[], packetRow message, rfl, List.not_mem_nil, List.prefix_rfl⟩
  by_cases whole : message.length = 30
  case neg =>
    have none_ : messageCall message = none := if_neg whole
    rw [none_]
    exact (logCall_row sized row_).elim id (·.trans none_)
  case pos =>
    have some_ : message.payload ≠ [] := by
      intro empty
      have length := sized.payload
      rw [empty, whole] at length
      cases length
    have hex_ : message.payload.flatMap upperHexByte ≠ [] := by
      intro empty
      have length := length_payload message.payload
      rw [empty, sized.payload, whole] at length
      cases length
    have each := forall_mem_payload (isHexDigit · = true) (fun d small => (hexDigit_printed d small).1)
      message.payload
    obtain ⟨last, first⟩ := @rxParts_takes message _ [] hex_ each (fun a here => by cases here) none
    rw [List.append_nil] at first
    have found : rxRe.search none (strip (packetRow message)) =
        some ⟨last, [], packetGroups message (message.payload.flatMap upperHexByte)⟩ := by
      rw [strip_printed some_]
      refine search_here ?_
      -- the line begins with a word
      have begins : rxRe.results ⟨none, packetHeader message ++ message.payload.flatMap upperHexByte, noGroups⟩ =
          (sequence rxParts).results ⟨none, packetHeader message ++ message.payload.flatMap upperHexByte, noGroups⟩ :=
        List.append_nil _
      rw [begins, first]
    rw [logCall, logEntry, txRe_row row_.strip, found, Option.map_some, Option.bind_some, rxEntry_packet,
      fromHex_payload, messageCall, if_pos whole, LogEntry.call, if_pos ⟨whole, sized.payload.trans whole⟩]

end Cc1310Firmware.Analysis
