import Cc1310Firmware.Cli.ConsoleLines
import Cc1310Firmware.Host.ApplicationProbe

/-! What the updater of the host learns of a device from its CLI.

A read window is a piece of what UART0 carries, cut anywhere, and other tasks may write
in the middle of an answer. The host may then fail to find the role, but it does not take
it for the other one. After a reset the banner comes first, whatever happens then.
-/

set_option autoImplicit false

namespace Cc1310Firmware.Host
open Words LittleEndian LabelledRun SharedChannel Cli I2cSlave

/-! ### The name of the other role -/

def roleName (role : FirmwareRole) : List Char := if role = .tx then "tx".toList else "rx".toList

def foreignInitial (role : FirmwareRole) : Char := if role = .tx then 'r' else 't'

def foreignName (role : FirmwareRole) : List Char := [foreignInitial role, 'x']

/-- The letter is nowhere followed by an x. -/
def Unpaired (letter : Char) (characters : List Char) : Prop :=
  characters.IsChain fun c d => ¬ (c = letter ∧ d = 'x')

theorem Unpaired.not_isInfix {letter : Char} {characters : List Char} (unpaired : Unpaired letter characters) :
    ¬ [letter, 'x'] <:+: characters := by
  intro infix_
  have pair := List.IsChain.infix unpaired infix_
  exact (List.isChain_cons.mp pair).1 _ rfl ⟨rfl, rfl⟩

theorem decodeAscii_inj (b : Byte) (c : Char) (listed : c ∈ "rtx".toList) (decoded : decodeAscii [b] = [c]) :
    b = BitVec.ofNat 8 c.toNat := by
  have each : ∀ b : Byte, "rtx".toList.all (fun c => decide (decodeAscii [b] = [c] → b = BitVec.ofNat 8 c.toNat)) =
    true := by decide
  exact of_decide_eq_true (List.all_eq_true.mp (each b) c listed) decoded

/-- Bytes of which none is the letter with an x behind it. -/
def Apart (letter : Byte) (data : List Byte) : Prop := data.IsChain fun c d => ¬ (c = letter ∧ d = 0x78)

theorem unpaired_decode {role : FirmwareRole} {data : List Byte} (apart : Apart (foreignLetter role) data) :
    Unpaired (foreignInitial role) (decodeAscii data) := by
  refine (List.isChain_map _).mpr (List.IsChain.imp (fun b d apart => ?_) apart)
  rintro ⟨first, second⟩
  refine apart ⟨?_, decodeAscii_inj d 'x' (by decide) (congrArg ([·]) second)⟩
  cases role with
  | tx => exact decodeAscii_inj b 'r' (by decide) (congrArg ([·]) first)
  | unset | rx => exact decodeAscii_inj b 't' (by decide) (congrArg ([·]) first)

theorem strip_isInfix (line : List Char) : strip line <:+: line :=
  (List.rdropWhile_prefix _ _).isInfix.trans (List.dropWhile_suffix _).isInfix

theorem Unpaired.lines {role : FirmwareRole} {stream : List Byte} (apart : Apart (foreignLetter role) stream)
    {line : List Char} (listed : line ∈ textLines stream) : Unpaired (foreignInitial role) line := by
  obtain ⟨piece, member, rfl⟩ := List.mem_map.mp (List.mem_of_mem_filter listed)
  have inside : lineText piece <:+: decodeAscii stream :=
    (strip_isInfix _).trans ((infix_of_mem_splitOnP member).map _)
  exact List.IsChain.infix (unpaired_decode apart) inside

/-- The role that helpRole finds is a word of a line. -/
theorem helpRole_cases (lines : List (List Char)) :
    helpRole lines = "unknown".toList ∨ ∃ line ∈ lines, helpRole lines <:+: line := by
  have word {name : List Char} (listed : name ∈ helpCommands lines) : ∃ line ∈ lines, name <:+: line := by
    obtain ⟨line, member, second⟩ := List.mem_filterMap.mp listed
    split at second
    · have token := List.mem_of_getElem? second
      exact ⟨line, member, infix_of_mem_splitOnP (List.mem_of_mem_filter token)⟩
    · cases second
  unfold helpRole
  split
  case isTrue tx => exact .inr (word tx)
  case isFalse =>
    split
    case isTrue rx => exact .inr (word rx)
    case isFalse => exact .inl rfl

theorem versionFields_role {lines : List (List Char)} {name : List Char}
    (role : (versionFields lines).get "role".toList = some name) : ∃ line ∈ lines, name <:+: line := by
  obtain ⟨line, listed, member⟩ := List.mem_flatMap.mp (mem_of_get role)
  have value : name <:+: "role".toList ++ '=' :: name := ⟨"role=".toList, [], by simp⟩
  exact ⟨line, List.mem_of_mem_filter listed, value.trans (infix_of_mem_fields member)⟩

/-- The role that probe_application returns is a piece of a line, or unknown. -/
theorem probed_role {version help : List (List Char)} {fields : Fields} {name : List Char}
    (probed : applicationFields version help = some fields) (role : fields.get "role".toList = some name) :
    name = "unknown".toList ∨ ∃ line ∈ version ++ help, name <:+: line := by
  unfold applicationFields at probed
  dsimp only at probed
  split at probed
  · cases probed
  · split at probed
    case isTrue none_ =>
      cases probed
      rw [get_assigned] at role
      rw [← Option.some.inj role]
      rcases helpRole_cases help with unknown | ⟨line, listed, place⟩
      · exact .inl unknown
      · exact .inr ⟨line, List.mem_append_right _ listed, place⟩
    case isFalse =>
      cases probed
      obtain ⟨line, listed, place⟩ := versionFields_role role
      exact .inr ⟨line, List.mem_append_left _ listed, place⟩

/-- The fields of a banner come from lines too. -/
theorem bannerFields_mem {lines : List (List Char)} {fields : Fields} {field : List Char × List Char}
    (member : field ∈ bannerFields fields lines) :
    field ∈ fields ∨ ∃ line ∈ lines, field ∈ parseCliFields line := by
  induction lines generalizing fields with
  | nil =>
    rw [bannerFields] at member
    exact .inl member
  | cons line lines ih =>
    rw [bannerFields] at member
    split at member
    · rcases ih member with before | ⟨later, listed, place⟩
      · rcases List.mem_append.mp before with old | here
        · exact .inl old
        · exact .inr ⟨line, List.mem_cons_self, here⟩
      · exact .inr ⟨later, List.mem_cons_of_mem _ listed, place⟩
    · split at member
      · exact .inl member
      · rcases ih member with old | ⟨later, listed, place⟩
        · exact .inl old
        · exact .inr ⟨later, List.mem_cons_of_mem _ listed, place⟩

theorem banner_role {lines : List (List Char)} {fields : Fields} {name : List Char}
    (banner : applicationBanner lines = some fields) (role : fields.get "role".toList = some name) :
    ∃ line ∈ lines, name <:+: line := by
  rw [applicationBanner, Option.ite_none_left_eq_some] at banner
  obtain ⟨_, ⟨⟩⟩ := banner
  rcases bannerFields_mem (mem_of_get role) with none_ | ⟨line, listed, member⟩
  · cases none_
  · have value : name <:+: "role".toList ++ '=' :: name := ⟨"role=".toList, [], by simp⟩
    exact ⟨line, listed, value.trans (infix_of_mem_fields member)⟩

def bootEvents : List ConsoleEvent := .ready :: List.replicate 7 (.more .cli)

def bootEnd : Option Console :=
  bootEvents.foldlM (Console.checked fun _ => true) (.start .rx (List.replicate 128 0))

theorem boot_run : ∃ history c, Run ConsoleStep (.start .rx (List.replicate 128 0)) history c ∧
    c.uart.output = banner .rx := by
  have printed : bootEnd.isSome = true ∧ ∀ c ∈ bootEnd, c.uart.output = banner .rx := by decide +kernel
  obtain ⟨c, done⟩ := Option.isSome_iff_exists.mp printed.1
  obtain ⟨history, run, _, _⟩ := run_of_events done
  exact ⟨history, c, run, printed.2 c done⟩

/-- Neither probe_application nor wait_for_application takes a device for one of the other role, however its tasks
mix their writes, wherever the windows of the host begin and end, and however the reads divide them. -/
theorem host_never_misnames_role {role : FirmwareRole} {stack : List Byte} {history : List ConsoleTransition}
    {c : Console} (run : Run ConsoleStep (.start role stack) history c) :
    (∀ version help : List (List Byte), version.flatten <:+: c.uart.output → help.flatten <:+: c.uart.output →
      ∀ fields ∈ applicationFields (iterLines version) (iterLines help),
        fields.get "role".toList ≠ some (foreignName role)) ∧
    ∀ window : List (List Byte), window.flatten <:+: c.uart.output →
      ∀ fields ∈ applicationBanner (iterLines window), fields.get "role".toList ≠ some (foreignName role) := by
  obtain ⟨⟨_, uart, _⟩, same⟩ := consoleInv_of_run run
  have guarded := uart.guarded
  rw [same] at guarded
  have absent {window : List (List Byte)} (read : window.flatten <:+: c.uart.output) {line : List Char}
      (listed : line ∈ iterLines window) : ¬ foreignName role <:+: line := by
    have part := List.IsChain.infix guarded.inside read
    rw [iterLines_eq] at listed
    exact (Unpaired.lines part listed).not_isInfix
  constructor
  · intro version help version_ help_ fields probed foreign
    rcases probed_role probed foreign with unknown | ⟨line, listed, place⟩
    · cases role with
      | unset | rx | tx => revert unknown; decide
    · rcases List.mem_append.mp listed with here | here
      · exact absent version_ here place
      · exact absent help_ here place
  · intro window read fields banner foreign
    obtain ⟨line, listed, place⟩ := banner_role banner foreign
    exact absent read listed place

theorem host_never_misnames_role_rx : ∀ fields ∈ applicationBanner (iterLines [banner .rx]),
    fields.get "role".toList ≠ some "tx".toList := by
  obtain ⟨history, c, run, output⟩ := boot_run
  exact (host_never_misnames_role run).2 [banner .rx] (by rw [output]; exact List.infix_rfl)

/-! ### The banner -/

/-- The first line of the banner. -/
def versionLine (role : FirmwareRole) : List Byte :=
  text "OK version=" ++ firmwareVersion ++ text " role=" ++ firmwareRoleName role ++ [carriageReturn]

def readyLine (role : FirmwareRole) : List Byte :=
  text "OK cli=ready count=0 commands=help," ++ firmwareRoleName role ++ text ",bootloader,version,ipc,stack" ++
    [carriageReturn]

theorem banner_eq (role : FirmwareRole) :
    banner role = versionLine role ++ lineFeed :: (readyLine role ++ [lineFeed]) := by
  cases role with
  | unset | rx | tx => decide +kernel

/-- What parse_cli_fields reads at the end of the first line. -/
def bannerPairs (role : FirmwareRole) : Fields :=
  [("version".toList, "0.2.1".toList), ("role".toList, roleName role)]

theorem lines_of_noise (noise more : List Byte) (role : FirmwareRole) :
    ∃ front last, (∀ line ∈ front, line <:+: decodeAscii noise) ∧
      textLines (noise ++ (banner role ++ more)) =
        front ++ (yielded [last ++ versionLine role, readyLine role] ++ textLines more) := by
  obtain ⟨pieces, open_⟩ := drain_append noise []
  rw [List.append_nil, List.append_nil] at pieces
  obtain ⟨divided, _⟩ := drain_append noise (banner role ++ more)
  refine ⟨yielded (drain noise).1, (drain noise).2, ?_, ?_⟩
  · intro line listed
    obtain ⟨piece, member, rfl⟩ := List.mem_map.mp (List.mem_of_mem_filter listed)
    have place : piece ∈ noise.splitOnP (· == lineFeed) := pieces ▸ List.mem_append_left _ member
    exact (strip_isInfix _).trans ((infix_of_mem_splitOnP place).map _)
  · have ready : ∀ c ∈ readyLine role, (c == lineFeed) = false := by
      cases role with
      | unset | rx | tx => decide +kernel
    have version : ∀ c ∈ versionLine role, (c == lineFeed) = false := by
      cases role with
      | unset | rx | tx => decide +kernel
    have first : ∀ c ∈ (drain noise).2 ++ versionLine role, (c == lineFeed) = false := by
      intro c member
      rcases List.mem_append.mp member with left | inside
      · exact beq_eq_false_iff_ne.mpr fun same => open_ (same ▸ left)
      · exact version c inside
    have split : (drain noise).2 ++ (banner role ++ more) =
        ((drain noise).2 ++ versionLine role) ++ lineFeed :: (readyLine role ++ lineFeed :: more) := by
      rw [banner_eq]
      simp
    rw [textLines, divided, split, List.splitOnP_append_cons _ _ rfl, List.splitOnP_eq_singleton first,
      List.splitOnP_append_cons _ _ rfl, List.splitOnP_eq_singleton ready, yielded_append]
    refine congrArg (List.append _) ?_
    rw [← List.append_assoc, yielded_append]
    rfl

theorem lineText_versionLine (last : List Byte) (role : FirmwareRole) :
    ∃ front, lineText (last ++ versionLine role) =
    (front ++ "OK".toList) ++ ' ' :: ("version=0.2.1 role=".toList ++ roleName role) := by
  have whole : decodeAscii (versionLine role) =
      "OK".toList ++ ' ' :: ("version=0.2.1 role=".toList ++ roleName role) ++ ['\r'] := by
    cases role with
    | unset | rx | tx => decide +kernel
  have first (front : List Char) : (front ++ decodeAscii (versionLine role)).dropWhile isSpace =
      front.dropWhile isSpace ++ decodeAscii (versionLine role) := by
    rw [List.dropWhile_append, whole]
    split
    case isTrue blank =>
      rw [List.isEmpty_iff.mp blank]
      rfl
    case isFalse => rfl
  refine ⟨(decodeAscii last).dropWhile isSpace, ?_⟩
  have letter (front : List Char) : (front ++ "OK".toList ++
    ' ' :: ("version=0.2.1 role=".toList ++ roleName role)).rdropWhile isSpace =
      front ++ "OK".toList ++ ' ' :: ("version=0.2.1 role=".toList ++ roleName role) := by
    rw [List.rdropWhile_eq_self_iff]
    intro some_
    cases role with
    | unset | rx | tx => simp [roleName, isSpace]
  rw [lineText, strip, decodeAscii, List.map_append, ← decodeAscii, ← decodeAscii, first, whole,
    ← List.append_assoc, List.rdropWhile_concat_pos _ _ _ rfl, ← List.append_assoc, letter]

theorem versionLine_fields (last : List Byte) (role : FirmwareRole) :
    ∃ more, parseCliFields (lineText (last ++ versionLine role)) = more ++ bannerPairs role := by
  obtain ⟨front, line⟩ := lineText_versionLine last role
  have pairs : (words isSpace ("version=0.2.1 role=".toList ++ roleName role)).filterMap parseField =
      bannerPairs role := by
    cases role with
    | unset | rx | tx => decide +kernel
  refine ⟨(words isSpace (front ++ "OK".toList)).filterMap parseField, ?_⟩
  rw [parseCliFields, line, words_cut _ _ rfl, List.filterMap_append, pairs]

theorem bannerFields_skip {front : List (List Char)} (quiet : ∀ line ∈ front, ¬ "cli=ready".toList <:+: line)
    (fields : Fields) (back : List (List Char)) :
    ∃ more, bannerFields fields (front ++ back) = bannerFields (fields ++ more) back := by
  induction front generalizing fields with
  | nil => exact ⟨[], by rw [List.append_nil]; rfl⟩
  | cons line front ih =>
    obtain ⟨here, others⟩ := List.forall_mem_cons.mp quiet
    have silent : occurs "cli=ready" line = false := decide_eq_false here
    rw [List.cons_append, bannerFields, silent, Bool.false_and]
    split
    · obtain ⟨more, same⟩ := ih others (fields ++ parseCliFields line)
      exact ⟨parseCliFields line ++ more, by rw [same, List.append_assoc]⟩
    · exact ih others fields

/-- The loop over the banner, whatever stands in front of its first line. -/
theorem bannerFields_banner (fields : Fields) (last : List Byte) (role : FirmwareRole) (rest : List (List Char)) :
    ∃ more, bannerFields fields (yielded [last ++ versionLine role, readyLine role] ++ rest) =
      fields ++ (more ++ bannerPairs role) := by
  obtain ⟨front, line⟩ := lineText_versionLine last role
  obtain ⟨more, pairs⟩ := versionLine_fields last role
  have marked : occurs "version=" (lineText (last ++ versionLine role)) = true := by
    refine decide_eq_true ?_
    rw [line]
    exact ⟨front ++ "OK ".toList, "0.2.1 role=".toList ++ roleName role, by simp⟩
  have ready : occurs "version=" (lineText (readyLine role)) = false ∧
    occurs "cli=ready" (lineText (readyLine role)) = true ∧
      lineText (readyLine role) ≠ [] := by
    cases role with
    | unset | rx | tx => decide +kernel
  have both : yielded [last ++ versionLine role, readyLine role] =
      [lineText (last ++ versionLine role), lineText (readyLine role)] := by
    have some_ : lineText (last ++ versionLine role) ≠ [] := by
      rw [line]
      simp
    simp [yielded, some_, ready.2.2]
  have kept : (fields ++ (more ++ bannerPairs role)).isEmpty = false := by simp [bannerPairs]
  refine ⟨more, ?_⟩
  rw [both, List.cons_append, List.cons_append, bannerFields, if_pos marked, bannerFields, ready.1, ready.2.1,
    pairs, if_neg Bool.false_ne_true, kept]
  rfl

/-- What wait_for_application has read when the banner is there. -/
theorem fields_of_banner {role : FirmwareRole} {stack : List Byte} {history : List ConsoleTransition} {c : Console}
    (run : Run ConsoleStep (.start role stack) history c) {noise arrived : List Byte} {chunks : List (List Byte)}
    (quiet : ¬ "cli=ready".toList <:+: decodeAscii noise) (sent : arrived <+: c.uart.output)
    (whole : (banner role).length ≤ arrived.length) (read : chunks.flatten = noise ++ arrived) :
    ∃ before, applicationBanner (iterLines chunks) = some (before ++ bannerPairs role) := by
  have first : banner role <+: arrived := by
    rcases (banner_first run).begins with short | long
    · rw [(sent.trans short).eq_of_length_le whole]
    · exact List.prefix_of_prefix_length_le long sent whole
  obtain ⟨more, rfl⟩ := first
  obtain ⟨front, last, inside, lines⟩ := lines_of_noise noise more role
  obtain ⟨skipped, skip⟩ := bannerFields_skip (fun line listed found => quiet (found.trans (inside line listed))) []
    (yielded [last ++ versionLine role, readyLine role] ++ textLines more)
  obtain ⟨before, pairs⟩ := bannerFields_banner ([] ++ skipped) last role (textLines more)
  refine ⟨[] ++ skipped ++ before, ?_⟩
  rw [applicationBanner, iterLines_eq, read, lines, skip, pairs, if_neg]
  · rw [List.append_assoc ([] ++ skipped)]
  · simp [bannerPairs]

theorem get_bannerPairs (before : Fields) (role : FirmwareRole) :
    Fields.get (before ++ bannerPairs role) "version".toList = some "0.2.1".toList ∧
    Fields.get (before ++ bannerPairs role) "role".toList = some (roleName role) := by
  constructor
  · simp [Fields.get, bannerPairs]
  · simp [Fields.get, bannerPairs]

/-- After a reset, wait_for_application finds the version and the role that the device runs with: in every run of
the device, once the banner has arrived, behind any noise without the mark of its end, however the reads divide
the bytes. -/
theorem host_reads_banner {role : FirmwareRole} {stack : List Byte} {history : List ConsoleTransition} {c : Console}
    (run : Run ConsoleStep (.start role stack) history c) {noise arrived : List Byte} {chunks : List (List Byte)}
    (quiet : ¬ "cli=ready".toList <:+: decodeAscii noise) (sent : arrived <+: c.uart.output)
    (whole : (banner role).length ≤ arrived.length) (read : chunks.flatten = noise ++ arrived) :
    ∃ fields, applicationBanner (iterLines chunks) = some fields ∧
      fields.get "version".toList = some "0.2.1".toList ∧ fields.get "role".toList = some (roleName role) := by
  obtain ⟨before, fields⟩ := fields_of_banner run quiet sent whole read
  exact ⟨_, fields, get_bannerPairs before role⟩

theorem host_reads_banner_rx : ∃ fields, applicationBanner (iterLines [0xFF :: (banner .rx).take 5, [],
    (banner .rx).drop 5]) = some fields ∧ fields.get "version".toList = some "0.2.1".toList ∧
    fields.get "role".toList = some "rx".toList := by
  obtain ⟨history, c, run, output⟩ := boot_run
  have quiet : ¬ "cli=ready".toList <:+: decodeAscii [0xFF] := by decide
  exact host_reads_banner run quiet List.prefix_rfl (by rw [output]) (by rw [output]; rfl)

/-! ### A quiet device -/

/-- The bytes that have come from the host. -/
def typed (history : List ConsoleTransition) : List Byte :=
  (history.map (·.event)).filterMap fun event => match event with
    | .input byte _ => some byte
    | _ => none

/-- No task but the CLI task writes. -/
def CliOnly (x : ConsoleTransition) : Prop := x.after.uart = x.before.uart ∨ ∀ task ∈ x.event.writer, task = .cli

/-- A line that is being typed into an idle CLI, and its answer. -/
inductive Typing (start line : List Byte) (c : Console) (sent : List Byte) (d : Console) : Prop where
  | inside (before : sent <+: line) (holds : d.assembler.Holds (start ++ sent))
      (output : d.uart.output ++ (d.uart.left .cli).flatten = c.uart.output)
  | answered (end_ : sent = line ++ [carriageReturn] ∨ sent = line ++ [carriageReturn, lineFeed])
      (holds : d.assembler.Holds [])
      (output : ∃ (application : Application) (meets : Surroundings),
        d.uart.output ++ (d.uart.left .cli).flatten =
          c.uart.output ++
            (application.perform meets (response (commandTable c.role) (start ++ line))).writes.flatten)

theorem output_print_cli (c : Console) (writes : List (List Byte)) (idle : c.uart.left .cli = []) :
    (c.print .cli writes).uart.output ++ ((c.print .cli writes).uart.left .cli).flatten =
      c.uart.output ++ writes.flatten := by
  cases writes with
  | nil =>
    rw [Console.print, idle]
  | cons first rest =>
    change c.uart.output ++ first ++ ((c.uart.put .cli first rest).left .cli).flatten = _
    rw [Channel.put_left_self, List.flatten_cons, List.append_assoc]

theorem receive_assembler (c : Console) (byte : Byte) (meets : Surroundings) :
    (c.receive byte meets).assembler = (c.assembler.receive (commandTable c.role) byte).1 :=
  Console.print_assembler _ _ _

/-- A byte that is typed. -/
theorem Typing.input {start line sent : List Byte} {c d : Console} {byte : Byte} {meets : Surroundings}
    (typing : Typing start line c sent d) (role : d.role = c.role) (nonzero : ∀ b ∈ start ++ line, b ≠ 0)
    (open_ : ∀ b ∈ start ++ line, isLineEnd b = false) (idle : d.uart.left .cli = [])
    (typed_ : sent ++ [byte] <+: line ++ [carriageReturn, lineFeed]) :
    Typing start line c (sent ++ [byte]) (d.receive byte meets) := by
  have output : (d.receive byte meets).uart.output ++ ((d.receive byte meets).uart.left .cli).flatten =
      d.uart.output ++ (d.application.perform meets
        (d.assembler.receive (commandTable d.role) byte).2).writes.flatten :=
    output_print_cli _ _ idle
  cases typing with
  | inside before holds same =>
    rw [idle, List.flatten_nil, List.append_nil] at same
    obtain ⟨rest, rfl⟩ := before
    rw [List.append_assoc, List.prefix_append_right_inj] at typed_
    cases rest with
    | nil =>
      -- the line end
      obtain rfl : byte = carriageReturn := (List.cons_prefix_cons.mp typed_).1
      rw [List.append_nil] at nonzero open_
      obtain ⟨events, empty⟩ :=
        holds.finish (commandTable d.role) nonzero open_ (rfl : isLineEnd carriageReturn = true)
      refine .answered (.inl (by rw [List.append_nil])) (receive_assembler d _ _ ▸ empty) ⟨d.application, meets, ?_⟩
      rw [output, events, same, role, List.append_nil]
    | cons next rest =>
      obtain rfl : byte = next := (List.cons_prefix_cons.mp typed_).1
      have inside : isLineEnd byte = false := open_ byte (by simp)
      obtain ⟨events, longer⟩ := holds.inside (commandTable d.role) inside
      rw [List.append_assoc] at longer
      refine .inside ⟨rest, by simp⟩ (receive_assembler d _ _ ▸ longer) ?_
      rw [output, events, same]
      exact List.append_nil _
  | answered end_ holds same =>
    rcases end_ with rfl | rfl
    · -- the LF behind the CR
      rw [List.append_assoc, List.prefix_append_right_inj] at typed_
      obtain rfl : byte = lineFeed := (List.cons_prefix_cons.mp (List.cons_prefix_cons.mp typed_).2).1
      obtain ⟨events, empty⟩ := holds.finish (commandTable d.role) (List.forall_mem_nil _) (List.forall_mem_nil _)
        (rfl : isLineEnd lineFeed = true)
      refine .answered (.inr (by rw [List.append_assoc]; rfl)) (receive_assembler d _ _ ▸ empty) ?_
      rw [output, events, response_nil]
      rw [idle, List.flatten_nil, List.append_nil] at same
      obtain ⟨application, meets', same⟩ := same
      exact ⟨application, meets', by rw [same]; exact List.append_nil _⟩
    · have longer := typed_.length_le
      simp at longer

theorem Typing.step {start line sent : List Byte} {c d d' : Console} {event : ConsoleEvent}
    (typing : Typing start line c sent d) (role : d.role = c.role) (ready : d.ready = true)
    (nonzero : ∀ b ∈ start ++ line, b ≠ 0) (open_ : ∀ b ∈ start ++ line, isLineEnd b = false)
    (st : ConsoleStep d event d') (cliOnly : CliOnly ⟨d, event, d'⟩)
    (typed_ : sent ++ typed [⟨d, event, d'⟩] <+: line ++ [carriageReturn, lineFeed]) :
    Typing start line c (sent ++ typed [⟨d, event, d'⟩]) d' := by
  have kept (assembler : d'.assembler = d.assembler)
      (uart : d'.uart.output ++ (d'.uart.left .cli).flatten = d.uart.output ++ (d.uart.left .cli).flatten) :
      Typing start line c (sent ++ []) d' := by
    rw [List.append_nil]
    cases typing with
    | inside before holds output => exact .inside before (assembler ▸ holds) (uart.trans output)
    | answered end_ holds output => exact .answered end_ (assembler ▸ holds) (uart ▸ output)
  cases st with
  | ready unready =>
    rw [ready] at unready
    cases unready
  | input _ stopped idle known => exact typing.input role nonzero open_ idle typed_
  | @more task piece rest pending =>
    refine kept rfl ?_
    rcases cliOnly with same | own
    · have same' : d.uart.put task piece rest = d.uart := same
      dsimp only
      rw [same']
    · obtain rfl := own task rfl
      change d.uart.output ++ piece ++ ((d.uart.put .cli piece rest).left .cli).flatten = _
      rw [Channel.put_left_self, pending, List.flatten_cons, List.append_assoc]
  | post => exact kept rfl rfl
  | pend => exact kept rfl rfl
  | dumpGet held idle =>
    rcases cliOnly with same | own
    · exact kept (Console.print_assembler _ _ _) (by rw [show _ = d.uart from same])
    · cases own .packetPrint rfl
  | dump enabled idle fits =>
    rcases cliOnly with same | own
    · exact kept (Console.print_assembler _ _ _) (by rw [show _ = d.uart from same])
    · cases own .i2cSlave rfl

/-- _command on a device whose CLI has answered when the window ends. No other task writes. -/
structure Window (c : Console) (command : List Byte) (chunks : List (List Byte)) (d : Console) : Prop where
  quiet : ∃ history, Run ConsoleStep c history d ∧ (∀ x ∈ history, CliOnly x) ∧
    typed history = command ++ [carriageReturn, lineFeed]
  idle : d.uart.left .cli = []
  read : c.uart.output ++ chunks.flatten = d.uart.output

/-- A CLI that waits in the middle of a line. -/
structure IdleCli (c : Console) (held : List Byte) : Prop where
  ready : c.ready = true
  idle : c.uart.left .cli = []
  holds : c.assembler.Holds held
  nonzero : ∀ b ∈ held, b ≠ 0
  open_ : ∀ b ∈ held, isLineEnd b = false

theorem Window.answer {c d : Console} {held command : List Byte} {chunks : List (List Byte)}
    (window : Window c command chunks d) (waiting : IdleCli c held) (nonzero : ∀ b ∈ command, b ≠ 0)
    (open_ : ∀ b ∈ command, isLineEnd b = false) : IdleCli d [] ∧ d.role = c.role ∧
      ∃ (application : Application) (meets : Surroundings), chunks.flatten =
        (application.perform meets (response (commandTable c.role) (held ++ command))).writes.flatten := by
  obtain ⟨⟨history, run, cliOnly, typed_⟩, idle, read⟩ := window
  have whole (front : typed history <+: command ++ [carriageReturn, lineFeed]) :
      Typing held command c (typed history) d ∧ d.role = c.role ∧ d.ready = true := by
    clear typed_ idle read
    induction run with
    | nil =>
      refine ⟨.inside List.nil_prefix ?_ ?_, rfl, waiting.ready⟩
      · exact (List.append_nil held).symm ▸ waiting.holds
      · rw [waiting.idle]
        exact List.append_nil _
    | @next history d d' event run st ih =>
      have both : typed (history ++ [⟨d, event, d'⟩]) = typed history ++ typed [⟨d, event, d'⟩] := by
        simp [typed]
      rw [both] at front ⊢
      obtain ⟨typing, role, ready⟩ := ih (fun x member => cliOnly x (List.mem_append_left _ member))
        ((List.prefix_append _ _).trans front)
      refine ⟨?_, st.role.trans role, st.ready_of_ready ready⟩
      exact typing.step role ready (List.forall_mem_append.mpr ⟨waiting.nonzero, nonzero⟩)
        (List.forall_mem_append.mpr ⟨waiting.open_, open_⟩) st (cliOnly _ (by simp)) front
  obtain ⟨typing, role, ready⟩ := whole (typed_ ▸ List.prefix_rfl)
  cases typing with
  | inside before =>
    have longer := (typed_ ▸ before).length_le
    simp at longer
  | answered end_ holds output =>
    refine ⟨⟨ready, idle, holds, List.forall_mem_nil _, List.forall_mem_nil _⟩, role, ?_⟩
    obtain ⟨application, meets, same⟩ := output
    rw [idle, List.flatten_nil, List.append_nil, ← read] at same
    exact ⟨application, meets, List.append_cancel_left same⟩

theorem answer_version (role : FirmwareRole) (application : Application) (meets : Surroundings) :
    application.perform meets (response (commandTable role) ([] ++ text "version")) =
      application.prints (cliOk (text "version=" ++ firmwareVersion)) := by
  have called : response (commandTable role) ([] ++ text "version") =
      [.call (.runtime .versionCommand) [text "version"]] := by
    cases role with
    | unset | rx | tx => rfl
  rw [called]
  rfl

theorem answer_help (role : FirmwareRole) (application : Application) (meets : Surroundings) :
    (application.perform meets (response (commandTable role) ([] ++ text "help"))).writes =
      cliHelp (commandTable role) [text "help"] := by
  have called : response (commandTable role) ([] ++ text "help") =
      (cliHelp (commandTable role) [text "help"]).map .write := by
    cases role with
    | unset | rx | tx => rfl
  rw [called, perform_writes]

/-- On a device whose other tasks are silent, probe_application returns the version and the role that the device
runs with: whatever line its CLI holds before, and however the reads divide the answers. -/
theorem probe_of_quiet_device {c₀ c₁ c₂ c₃ : Console} {held : List Byte} {blank version help : List (List Byte)}
    (waiting : IdleCli c₀ held) (first : Window c₀ [] blank c₁) (second : Window c₁ (text "version") version c₂)
    (third : Window c₂ (text "help") help c₃) :
    applicationFields (iterLines version) (iterLines help) = some (bannerPairs c₀.role) := by
  obtain ⟨waiting₁, role₁, _⟩ := first.answer waiting (List.forall_mem_nil _) (List.forall_mem_nil _)
  obtain ⟨waiting₂, role₂, application, meets, answer⟩ := second.answer waiting₁ (by decide) (by decide)
  obtain ⟨_, _, application', meets', answer'⟩ := third.answer waiting₂ (by decide) (by decide)
  rw [answer_version] at answer
  rw [answer_help, role₂, role₁] at answer'
  rw [iterLines_eq, iterLines_eq, answer, answer']
  change applicationFields (textLines (cliOk (text "version=" ++ firmwareVersion)).flatten)
    (textLines (cliHelp (commandTable c₀.role) [text "help"]).flatten) = some (bannerPairs c₀.role)
  cases c₀.role with
  | unset | rx | tx => decide +kernel

/-- A line that is typed, and the writes of its answer behind the first one. -/
def lineEvents (line : List Byte) (more : Nat) : List ConsoleEvent :=
  line.map (.input · meetsNothing) ++ .input carriageReturn meetsNothing :: List.replicate more (.more .cli) ++
    [.input lineFeed meetsNothing]

def ownWrites (x : ConsoleTransition) : Bool := decide (x.event.writer ∈ [none, some .cli])

theorem window_of_events {line : List Byte} {more : Nat} {c d : Console}
    (done : (lineEvents line more).foldlM (Console.checked ownWrites) c = some d) (idle : d.uart.left .cli = [])
    {chunks : List (List Byte)} (read : c.uart.output ++ chunks.flatten = d.uart.output) :
    Window c line chunks d := by
  obtain ⟨history, run, events, own⟩ := run_of_events done
  refine ⟨⟨history, run, fun x member => .inr fun task writer => ?_, ?_⟩, idle, read⟩
  · have allowed := of_decide_eq_true (own x member)
    rw [writer] at allowed
    simpa using allowed
  · rw [typed, events, lineEvents]
    simp [List.filterMap_append, List.filterMap_map]

/-- A booted device with a line of which two characters have come, and where the windows of the probe leave it. -/
def probedConsoles : Option (Console × Console × Console × Console) :=
  ((bootEvents ++ (text "tx").map (ConsoleEvent.input · meetsNothing)).foldlM (Console.checked fun _ => true)
    (.start .rx (List.replicate 128 0))).bind fun c₀ =>
  ((lineEvents [] 4).foldlM (Console.checked ownWrites) c₀).bind fun c₁ =>
  ((lineEvents (text "version") 3).foldlM (Console.checked ownWrites) c₁).bind fun c₂ =>
  ((lineEvents (text "help") 32).foldlM (Console.checked ownWrites) c₂).map fun c₃ => (c₀, c₁, c₂, c₃)

theorem probe_of_quiet_device_rx : ∃ help : List Byte,
    applicationFields (iterLines [text "OK ver", [], text "sion=0.2.1\r\n"])
      (iterLines [help.take 7, help.drop 7]) =
      some (bannerPairs .rx) := by
  have checks : probedConsoles.isSome = true ∧ ∀ cs ∈ probedConsoles,
      (cs.1.role = .rx ∧ cs.1.ready = true ∧ cs.1.uart.left .cli = [] ∧
        cs.1.assembler.line.length = cliMaxLineLength ∧
        cs.1.assembler.lineTooLong = false ∧ cs.1.assembler.lineLength = 2 ∧
          cs.1.assembler.line.take 2 = text "tx") ∧
      (cs.2.1.uart.left .cli = [] ∧ cs.1.uart.output <+: cs.2.1.uart.output) ∧
      (cs.2.2.1.uart.left .cli = [] ∧ cs.2.1.uart.output ++ text "OK version=0.2.1\r\n" = cs.2.2.1.uart.output) ∧
      (cs.2.2.2.uart.left .cli = [] ∧ cs.2.2.1.uart.output <+: cs.2.2.2.uart.output) := by decide +kernel
  obtain ⟨⟨c₀, c₁, c₂, c₃⟩, done⟩ := Option.isSome_iff_exists.mp checks.1
  obtain ⟨⟨role, ready, idle, size, short, length, stored⟩, ⟨idle₁, blank, read₁⟩, ⟨idle₂, read₂⟩,
      ⟨idle₃, help, read₃⟩⟩ :=
    checks.2 _ done
  obtain ⟨d₀, done₀, done⟩ := Option.bind_eq_some_iff.mp done
  obtain ⟨d₁, done₁, done⟩ := Option.bind_eq_some_iff.mp done
  obtain ⟨d₂, done₂, done⟩ := Option.bind_eq_some_iff.mp done
  obtain ⟨d₃, done₃, ⟨⟩⟩ := Option.map_eq_some_iff.mp done
  have waiting : IdleCli c₀ (text "tx") :=
    ⟨ready, idle, ⟨size, short, length, length ▸ stored⟩, by decide, by decide⟩
  have first : Window c₀ [] [blank] c₁ := window_of_events done₁ idle₁ (by rw [← read₁]; simp)
  refine ⟨help, role ▸ probe_of_quiet_device waiting first (window_of_events done₂ idle₂ ?_)
    (window_of_events done₃ idle₃ ?_)⟩
  · rw [← read₂]
    rfl
  · rw [← read₃]
    simp

end Cc1310Firmware.Host
