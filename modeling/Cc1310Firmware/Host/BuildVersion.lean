import Cc1310Firmware.Codec.Backtracking
import Cc1310Firmware.Host.FwPackage

/-! The release version: parse_version of build_support.py reads it from firmware_build.h,
format_version of fw_package.py writes it.

build.sh packs what parse_version returns into the package, and the host shows what
format_version makes of the number that comes back.
-/

set_option autoImplicit false

namespace Cc1310Firmware.Host
open Backtracking

/-! ### build_support.py -/

def versionLimit : Nat := 255

/-- `[ \t]` -/
def isBlank (c : Char) : Bool := c == ' ' || c == '\t'

def digits : Pattern Char := atLeastOnce (.one Char.isDigit)

/-- VERSION_DEFINE between `^` and `$`. None of its characters is a line feed, so a match is a line. -/
def versionDefine : Pattern Char :=
  sequence [.many (.one isBlank), literal "#define".toList, atLeastOnce (.one isBlank),
    literal "FIRMWARE_VERSION".toList, atLeastOnce (.one isBlank), literal "\"".toList,
    .group 1 (sequence [digits, literal ['.'], digits, literal ['.'], digits]), literal "\"".toList,
    .many (.one isBlank)]

/-- `(0|[1-9][0-9]*)` -/
def semverPart (index : Nat) : Pattern Char :=
  .group index (.either (literal ['0'])
    (.seq (.one fun c => c.isDigit && c != '0') (.many (.one Char.isDigit))))

/-- SEMVER between `^` and `$`. -/
def semver : Pattern Char :=
  sequence [semverPart 1, literal ['.'], semverPart 2, literal ['.'], semverPart 3]

/-- `header_text.replace("\r\n", "\n")` -/
def unixLines : List Char → List Char
  | [] => []
  | '\r' :: '\n' :: rest => '\n' :: unixLines rest
  | c :: rest => c :: unixLines rest

/-- What findall returns for one line. -/
def definedVersion (line : List Char) : Option (List Char) := (versionDefine.fullMatch line).bind (· 1)

/-- What parse_version does with the one match; a ValueError is `none`. -/
def packVersion (version : List Char) : Option (List Char × Nat) := do
  let parts ← semver.fullMatch version
  let major := Nat.ofDigitChars 10 (← parts 1) 0
  let minor := Nat.ofDigitChars 10 (← parts 2) 0
  let patch := Nat.ofDigitChars 10 (← parts 3) 0
  if versionLimit < max major (max minor patch) then none
  else some (version, major <<< 16 ||| minor <<< 8 ||| patch)

def parseVersion (headerText : List Char) : Option (List Char × Nat) :=
  match ((unixLines headerText).splitOn '\n').filterMap definedVersion with
  | [version] => packVersion version
  | _ => none

/-! ### fw_package.py -/

/-- Three texts, as `"%s.%s.%s"` joins them. -/
def dotted (major minor patch : List Char) : List Char := major ++ (['.'] ++ (minor ++ (['.'] ++ patch)))

/-- format_version; the ValueError is `none`. -/
def versionText (version : Nat) : Option (List Char) :=
  if ! isFormattable version then none
  else some (dotted (Nat.toDigits 10 (version >>> 16 &&& 0xFF)) (Nat.toDigits 10 (version >>> 8 &&& 0xFF))
    (Nat.toDigits 10 (version &&& 0xFF)))

/-! ### Lines that define a version -/

def IsNumber (number : List Char) : Prop := number ≠ [] ∧ ∀ c ∈ number, c.isDigit = true

def IsBlanks (blanks : List Char) : Prop := ∀ c ∈ blanks, isBlank c = true

/-- Three numbers, with leading zeros or without. -/
inductive IsDotted : List Char → Prop where
  | numbers {major minor patch : List Char} : IsNumber major → IsNumber minor → IsNumber patch →
      IsDotted (dotted major minor patch)

/-- Blanks may stand before the directive and behind the string, and do between the words. -/
inductive DefinesVersion : List Char → List Char → Prop where
  | line {indent gap gap' version tail : List Char} : IsBlanks indent → IsBlanks gap → gap ≠ [] → IsBlanks gap' →
      gap' ≠ [] → IsDotted version → IsBlanks tail →
      DefinesVersion (indent ++ ("#define".toList ++ (gap ++ ("FIRMWARE_VERSION".toList ++ (gap' ++ ("\"".toList ++
        (version ++ ("\"".toList ++ tail)))))))) version

/-! ### Decimal numbers -/

theorem exists_digitChar {c : Char} (digit : c.isDigit = true) : ∃ n < 10, c = n.digitChar := by
  rw [Char.isDigit, Bool.and_eq_true, decide_eq_true_iff, decide_eq_true_iff] at digit
  have low : 48 ≤ c.toNat := digit.1
  have high : c.toNat ≤ 57 := digit.2
  refine ⟨c.toNat - 48, by omega, Char.toNat_inj.mp ?_⟩
  rw [Nat.toNat_digitChar_of_lt_ten (by omega)]
  omega

/-- What is read without a leading zero is written as it was. -/
theorem toDigits_ofDigitChars {c : Char} {rest : List Char} (first : c.isDigit = true) (nonzero : c ≠ '0')
    (each : ∀ d ∈ rest, d.isDigit = true) :
    0 < Nat.ofDigitChars 10 (c :: rest) 0 ∧ Nat.toDigits 10 (Nat.ofDigitChars 10 (c :: rest) 0) = c :: rest := by
  induction rest using List.reverseRecOn with
  | nil =>
    obtain ⟨n, small, rfl⟩ := exists_digitChar first
    rw [Nat.ofDigitChars_cons_digitChar_of_lt_ten small, Nat.mul_zero, Nat.zero_add, Nat.ofDigitChars_nil]
    refine ⟨Nat.pos_of_ne_zero ?_, Nat.toDigits_of_lt_base small⟩
    rintro rfl
    exact nonzero rfl
  | append_singleton rest d ih =>
    obtain ⟨pos, same⟩ := ih fun e member => each e (List.mem_append_left _ member)
    obtain ⟨n, small, rfl⟩ := exists_digitChar (each d (List.mem_append_right _ (List.mem_singleton_self _)))
    rw [← List.cons_append, Nat.ofDigitChars_append, Nat.ofDigitChars_cons_digitChar_of_lt_ten small,
      Nat.ofDigitChars_nil, ← Nat.toDigits_append_toDigits (by decide) pos small, same, Nat.toDigits_of_lt_base small]
    exact ⟨Nat.add_pos_left (Nat.mul_pos (by decide) pos) n, rfl⟩

theorem isDigit_toDigits {n : Nat} : ∀ c ∈ Nat.toDigits 10 n, c.isDigit = true :=
  fun _ member => Nat.isDigit_of_mem_toDigits (by decide) (by decide) member

theorem toDigits_head {n : Nat} (pos : 0 < n) : (Nat.toDigits 10 n).head? ≠ some '0' := by
  induction n using Nat.strong_induction_on with
  | _ n ih =>
    rw [Nat.toDigits_eq_if (by decide)]
    split
    case isTrue small =>
      intro same
      exact absurd (Nat.digitChar_eq_zero.mp (Option.some.inj same)) (Nat.ne_of_gt pos)
    case isFalse large =>
      rw [List.head?_append_of_ne_nil _ Nat.toDigits_ne_nil]
      exact ih (n / 10) (Nat.div_lt_self pos (by decide)) (Nat.div_pos (Nat.le_of_not_lt large) (by decide))

/-! ### SEMVER -/

theorem semverPart_takes {n : Nat} {rest : List Char} {groups : Nat → Option (List Char)} (index : Nat)
    (stops : Stops Char.isDigit rest) : Takes (semverPart index) (Nat.toDigits 10 n) rest groups
      (Function.update groups index (some (Nat.toDigits 10 n))) := by
  apply Takes.group
  rcases Nat.eq_zero_or_pos n with rfl | pos
  · rw [Nat.toDigits_zero]
    exact .left (.literal ['0'])
  have each := @isDigit_toDigits n
  have head := toDigits_head pos
  have some_ : Nat.toDigits 10 n ≠ [] := Nat.toDigits_ne_nil
  generalize Nat.toDigits 10 n = written at each head some_
  cases written with
  | nil => exact absurd rfl some_
  | cons c tail =>
    obtain ⟨first, others⟩ := List.forall_mem_cons.mp each
    have nonzero : c ≠ '0' := fun same => head (congrArg some same)
    refine .right ?_ (@Takes.seq _ _ _ [c] tail rest _ _ _ (.one ?_) (.many_one others stops))
    · intro previous
      refine List.eq_nil_iff_forall_not_mem.mpr fun d member => ?_
      obtain ⟨read, _⟩ := mem_literal member
      exact nonzero (List.cons.inj read).1
    · rw [Bool.and_eq_true, bne_iff_ne]
      exact ⟨first, nonzero⟩

theorem semverPart_reads {index : Nat} {c d : Cursor Char} (member : d ∈ (semverPart index).results c) :
    ∃ n, c.rest = Nat.toDigits 10 n ++ d.rest ∧
      d.groups = Function.update c.groups index (some (Nat.toDigits 10 n)) := by
  obtain ⟨m, inside, rfl⟩ := mem_group.mp member
  have reads : ∃ n, c.rest = Nat.toDigits 10 n ++ m.rest ∧ m.groups = c.groups := by
    rcases mem_either.mp inside with zero | nonzero
    · obtain ⟨read, groups⟩ := mem_literal zero
      exact ⟨0, read.trans (by rw [Nat.toDigits_zero]), groups⟩
    · obtain ⟨k, here, further⟩ := mem_seq.mp nonzero
      obtain ⟨a, first, read, groups⟩ := mem_one here
      obtain ⟨tail, each, read', groups'⟩ := mem_many_one further
      rw [Bool.and_eq_true, bne_iff_ne] at first
      obtain ⟨_, written⟩ := toDigits_ofDigitChars first.1 first.2 each
      exact ⟨_, by rw [written, read, read', List.cons_append], groups'.trans groups⟩
  obtain ⟨n, read, groups⟩ := reads
  refine ⟨n, read, ?_⟩
  rw [capture_groups index read, groups]

theorem stops_dot {rest : List Char} : Stops Char.isDigit (['.'] ++ rest) := by
  rintro a ⟨⟩
  rfl

/-- SEMVER takes the numbers without leading zeros. -/
theorem semver_iff {version : List Char} {parts : Nat → Option (List Char)} : semver.fullMatch version = some parts ↔
    ∃ major minor patch, version = dotted (Nat.toDigits 10 major) (Nat.toDigits 10 minor) (Nat.toDigits 10 patch) ∧
      parts = Function.update (Function.update (Function.update noGroups 1 (some (Nat.toDigits 10 major))) 2
        (some (Nat.toDigits 10 minor))) 3 (some (Nat.toDigits 10 patch)) := by
  constructor
  · intro found
    obtain ⟨d, member, rest, rfl⟩ := fullMatch_eq_some found
    obtain ⟨c₁, here, member⟩ := mem_sequence_cons.mp member
    obtain ⟨major, read₁, groups₁⟩ := semverPart_reads here
    obtain ⟨c₂, here, member⟩ := mem_sequence_cons.mp member
    obtain ⟨read₂, groups₂⟩ := mem_literal here
    obtain ⟨c₃, here, member⟩ := mem_sequence_cons.mp member
    obtain ⟨minor, read₃, groups₃⟩ := semverPart_reads here
    obtain ⟨c₄, here, member⟩ := mem_sequence_cons.mp member
    obtain ⟨read₄, groups₄⟩ := mem_literal here
    obtain ⟨c₅, here, member⟩ := mem_sequence_cons.mp member
    obtain ⟨patch, read₅, groups₅⟩ := semverPart_reads here
    obtain rfl := List.mem_singleton.mp member
    refine ⟨major, minor, patch, ?_, ?_⟩
    · change version = _ at read₁
      rw [read₁, read₂, read₃, read₄, read₅, rest, List.append_nil]
      rfl
    · rw [groups₅, groups₄, groups₃, groups₂, groups₁]
  · rintro ⟨major, minor, patch, rfl, rfl⟩
    exact Takes.fullMatch (.sequence (semverPart_takes 1 stops_dot) (.sequence (.literal ['.'])
      (.sequence (semverPart_takes 2 stops_dot) (.sequence (.literal ['.'])
        (.last (semverPart_takes 3 nofun))))))

/-! ### VERSION_DEFINE -/

section
variable {number version rest : List Char} {groups : Nat → Option (List Char)} {c d : Cursor Char}

theorem IsNumber.takes (number_ : IsNumber number) (stops : Stops Char.isDigit rest) :
    Takes digits number rest groups groups :=
  Takes.atLeastOnce_one number_.1 number_.2 stops

theorem digits_reads (member : d ∈ digits.results c) :
    ∃ number, IsNumber number ∧ c.rest = number ++ d.rest ∧ d.groups = c.groups := by
  obtain ⟨a, word, first, each, read, groups⟩ := mem_atLeastOnce_one member
  exact ⟨a :: word, ⟨List.cons_ne_nil _ _, List.forall_mem_cons.mpr ⟨first, each⟩⟩, read, groups⟩

theorem blanks_read (member : d ∈ (atLeastOnce (.one isBlank)).results c) :
    ∃ blanks, IsBlanks blanks ∧ blanks ≠ [] ∧ c.rest = blanks ++ d.rest ∧ d.groups = c.groups := by
  obtain ⟨a, word, first, each, read, groups⟩ := mem_atLeastOnce_one member
  exact ⟨a :: word, List.forall_mem_cons.mpr ⟨first, each⟩, List.cons_ne_nil _ _, read, groups⟩

theorem IsDotted.takes (dotted_ : IsDotted version) (stops : Stops Char.isDigit rest) :
    Takes (sequence [digits, literal ['.'], digits, literal ['.'], digits]) version rest groups groups := by
  cases dotted_ with
  | numbers major minor patch =>
    exact .sequence (major.takes stops_dot) (.sequence (.literal ['.']) (.sequence (minor.takes stops_dot)
      (.sequence (.literal ['.']) (.last (patch.takes stops)))))

theorem dotted_reads (member : d ∈ (sequence [digits, literal ['.'], digits, literal ['.'], digits]).results c) :
    ∃ version, IsDotted version ∧ c.rest = version ++ d.rest ∧ d.groups = c.groups := by
  obtain ⟨c₁, here, member⟩ := mem_sequence_cons.mp member
  obtain ⟨major, major_, read₁, groups₁⟩ := digits_reads here
  obtain ⟨c₂, here, member⟩ := mem_sequence_cons.mp member
  obtain ⟨read₂, groups₂⟩ := mem_literal here
  obtain ⟨c₃, here, member⟩ := mem_sequence_cons.mp member
  obtain ⟨minor, minor_, read₃, groups₃⟩ := digits_reads here
  obtain ⟨c₄, here, member⟩ := mem_sequence_cons.mp member
  obtain ⟨read₄, groups₄⟩ := mem_literal here
  obtain ⟨c₅, here, member⟩ := mem_sequence_cons.mp member
  obtain ⟨patch, patch_, read₅, groups₅⟩ := digits_reads here
  obtain rfl := List.mem_singleton.mp member
  refine ⟨dotted major minor patch, .numbers major_ minor_ patch_, ?_, ?_⟩
  · rw [read₁, read₂, read₃, read₄, read₅]
    simp only [dotted, List.append_assoc]
  · rw [groups₅, groups₄, groups₃, groups₂, groups₁]

theorem definesVersion_of_match {line : List Char} (found : versionDefine.fullMatch line = some groups) :
    ∃ version, groups 1 = some version ∧ DefinesVersion line version := by
  obtain ⟨d, member, rest, rfl⟩ := fullMatch_eq_some found
  obtain ⟨c₁, here, member⟩ := mem_sequence_cons.mp member
  obtain ⟨indent, blank₁, read₁, _⟩ := mem_many_one here
  obtain ⟨c₂, here, member⟩ := mem_sequence_cons.mp member
  obtain ⟨read₂, _⟩ := mem_literal here
  obtain ⟨c₃, here, member⟩ := mem_sequence_cons.mp member
  obtain ⟨gap, blank₃, some₃, read₃, _⟩ := blanks_read here
  obtain ⟨c₄, here, member⟩ := mem_sequence_cons.mp member
  obtain ⟨read₄, _⟩ := mem_literal here
  obtain ⟨c₅, here, member⟩ := mem_sequence_cons.mp member
  obtain ⟨gap', blank₅, some₅, read₅, _⟩ := blanks_read here
  obtain ⟨c₆, here, member⟩ := mem_sequence_cons.mp member
  obtain ⟨read₆, _⟩ := mem_literal here
  obtain ⟨c₇, here, member⟩ := mem_sequence_cons.mp member
  -- the group is what the three numbers take
  obtain ⟨m, inside, rfl⟩ := mem_group.mp here
  obtain ⟨version, dotted_, read₇, _⟩ := dotted_reads inside
  have capture := @capture_groups _ c₆ m version 1 read₇
  obtain ⟨c₈, here, member⟩ := mem_sequence_cons.mp member
  obtain ⟨read₈, groups₈⟩ := mem_literal here
  obtain ⟨c₉, here, member⟩ := mem_sequence_cons.mp member
  obtain ⟨tail, blank₉, read₉, groups₉⟩ := mem_many_one here
  obtain rfl := List.mem_singleton.mp member
  refine ⟨version, ?_, ?_⟩
  · rw [groups₉, groups₈, capture, Function.update_self]
  · change line = _ at read₁
    change m.rest = _ at read₈
    rw [read₁, read₂, read₃, read₄, read₅, read₆, read₇, read₈, read₉, rest, List.append_nil]
    exact .line blank₁ blank₃ some₃ blank₅ some₅ dotted_ blank₉

theorem DefinesVersion.fullMatch {line : List Char} (defines : DefinesVersion line version) :
    versionDefine.fullMatch line = some (Function.update noGroups 1 (some version)) := by
  cases defines with
  | line indent gap some_ gap' some_' dotted_ tail =>
    have stops {c : Char} {rest : List Char} (solid : isBlank c = false) : Stops isBlank (c :: rest) := by
      rintro a ⟨⟩
      exact solid
    have quote {rest : List Char} : Stops Char.isDigit ("\"".toList ++ rest) := by
      rintro a ⟨⟩
      rfl
    exact Takes.fullMatch (.sequence (.many_one indent (stops rfl)) (.sequence (.literal _)
      (.sequence (.atLeastOnce_one some_ gap (stops rfl)) (.sequence (.literal _)
        (.sequence (.atLeastOnce_one some_' gap' (stops rfl)) (.sequence (.literal _)
          (.sequence (.group (dotted_.takes quote)) (.sequence (.literal _)
            (.last (.many_one tail nofun))))))))))

theorem definedVersion_iff {line : List Char} : definedVersion line = some version ↔ DefinesVersion line version := by
  unfold definedVersion
  constructor
  · intro found
    obtain ⟨groups, found, captured⟩ := Option.bind_eq_some_iff.mp found
    obtain ⟨version', captured', defines⟩ := definesVersion_of_match found
    obtain rfl := Option.some.inj (captured'.symm.trans captured)
    exact defines
  · intro defines
    rw [defines.fullMatch, Option.bind_some, Function.update_self]

end

/-! ### parse_version and format_version -/

/-- One line of the header defines a version, this one. -/
def OnlyVersion (headerText version : List Char) : Prop :=
  ∃ before line after, (unixLines headerText).splitOn '\n' = before ++ line :: after ∧ DefinesVersion line version ∧
    ∀ other ∈ before ++ after, ∀ text, ¬ DefinesVersion other text

theorem definedVersion_eq_none {line : List Char} :
    definedVersion line = none ↔ ∀ text, ¬ DefinesVersion line text := by
  rw [Option.eq_none_iff_forall_ne_some]
  exact forall_congr' fun text => not_congr definedVersion_iff

theorem onlyVersion_iff {headerText version : List Char} :
    ((unixLines headerText).splitOn '\n').filterMap definedVersion = [version] ↔ OnlyVersion headerText version := by
  unfold OnlyVersion
  generalize (unixLines headerText).splitOn '\n' = lines
  rw [List.filterMap_eq_cons_iff]
  constructor
  · rintro ⟨before, line, after, rfl, quiet, found, quiet'⟩
    refine ⟨before, line, after, rfl, definedVersion_iff.mp found, fun other member => ?_⟩
    rcases List.mem_append.mp member with member | member
    · exact definedVersion_eq_none.mp (quiet other member)
    · exact definedVersion_eq_none.mp (List.filterMap_eq_nil_iff.mp quiet' other member)
  · rintro ⟨before, line, after, rfl, defines, quiet⟩
    refine ⟨before, line, after, rfl, fun other member => ?_, definedVersion_iff.mpr defines, ?_⟩
    · exact definedVersion_eq_none.mpr (quiet other (List.mem_append_left _ member))
    · exact List.filterMap_eq_nil_iff.mpr fun other member =>
        definedVersion_eq_none.mpr (quiet other (List.mem_append_right _ member))

theorem packed_eq {major minor patch : Nat} (minor_ : minor < 256) (patch_ : patch < 256) :
    major <<< 16 ||| minor <<< 8 ||| patch = 65536 * major + 256 * minor + patch := by
  have middle : minor <<< 8 < 2 ^ 16 := by
    rw [Nat.shiftLeft_eq]
    omega
  have low : (major <<< 8 + minor) <<< 8 = major <<< 16 + minor <<< 8 := by
    simp only [Nat.shiftLeft_eq]
    omega
  rw [← Nat.shiftLeft_add_eq_or_of_lt middle, ← low, ← Nat.shiftLeft_add_eq_or_of_lt patch_]
  simp only [Nat.shiftLeft_eq]
  omega

theorem versionText_iff {code : Nat} {version : List Char} : versionText code = some version ↔
    ∃ major minor patch, major < 256 ∧ minor < 256 ∧ patch < 256 ∧
      code = major <<< 16 ||| minor <<< 8 ||| patch ∧
      version = dotted (Nat.toDigits 10 major) (Nat.toDigits 10 minor) (Nat.toDigits 10 patch) := by
  have low (n : Nat) : n &&& 0xFF = n % 256 := Nat.and_two_pow_sub_one_eq_mod n 8
  unfold versionText isFormattable
  simp only [low, Nat.shiftRight_eq_div_pow]
  constructor
  · intro written
    split at written
    · cases written
    case isFalse reserved =>
      rw [Bool.not_not_eq, decide_eq_true_iff] at reserved
      refine ⟨_, _, _, Nat.mod_lt _ (by decide), Nat.mod_lt _ (by decide), Nat.mod_lt _ (by decide), ?_,
        (Option.some.inj written).symm⟩
      rw [packed_eq (Nat.mod_lt _ (by decide)) (Nat.mod_lt _ (by decide))]
      omega
  · rintro ⟨major, minor, patch, major_, minor_, patch_, rfl, rfl⟩
    rw [packed_eq minor_ patch_, if_neg]
    · have parts : (65536 * major + 256 * minor + patch) / 2 ^ 16 % 256 = major ∧
          (65536 * major + 256 * minor + patch) / 2 ^ 8 % 256 = minor ∧
          (65536 * major + 256 * minor + patch) % 256 = patch := by omega
      rw [parts.1, parts.2.1, parts.2.2]
    · rw [Bool.not_not_eq, decide_eq_true_iff]
      omega

theorem packVersion_iff {version version' : List Char} {code : Nat} :
    packVersion version = some (version', code) ↔ version' = version ∧ versionText code = some version := by
  unfold packVersion
  rw [versionText_iff]
  constructor
  · intro packed
    obtain ⟨parts, found, packed⟩ := Option.bind_eq_some_iff.mp packed
    obtain ⟨major, minor, patch, rfl, rfl⟩ := semver_iff.mp found
    simp only [Function.update_self, Function.update_of_ne (show 1 ≠ 3 by decide),
      Function.update_of_ne (show 1 ≠ 2 by decide), Function.update_of_ne (show 2 ≠ 3 by decide),
      Option.bind_eq_bind, Option.bind_some, Nat.ofDigitChars_ten_toDigits] at packed
    split at packed
    · cases packed
    case isFalse small =>
      rw [versionLimit] at small
      cases packed
      exact ⟨rfl, major, minor, patch, by omega, by omega, by omega, rfl, rfl⟩
  · rintro ⟨rfl, major, minor, patch, major_, minor_, patch_, rfl, rfl⟩
    rw [semver_iff.mpr ⟨major, minor, patch, rfl, rfl⟩]
    simp only [Function.update_self, Function.update_of_ne (show 1 ≠ 3 by decide),
      Function.update_of_ne (show 1 ≠ 2 by decide), Function.update_of_ne (show 2 ≠ 3 by decide),
      Option.bind_eq_bind, Option.bind_some, Nat.ofDigitChars_ten_toDigits]
    rw [if_neg]
    rw [versionLimit]
    omega

theorem versionText_of_parse {headerText version : List Char} {code : Nat}
    (parsed : parseVersion headerText = some (version, code)) : versionText code = some version := by
  unfold parseVersion at parsed
  split at parsed
  · obtain ⟨rfl, written⟩ := packVersion_iff.mp parsed
    exact written
  · cases parsed

/-- parse_version accepts a header exactly if one line defines a version, and the number it returns is the one that
format_version writes as this text. -/
theorem parseVersion_iff (headerText version : List Char) (code : Nat) :
    parseVersion headerText = some (version, code) ↔
      OnlyVersion headerText version ∧ versionText code = some version := by
  rw [← onlyVersion_iff]
  unfold parseVersion
  split
  case h_1 found only =>
    rw [packVersion_iff, only, List.singleton_inj]
    constructor
    · rintro ⟨rfl, written⟩
      exact ⟨rfl, written⟩
    · rintro ⟨rfl, written⟩
      exact ⟨rfl, written⟩
  case h_2 other =>
    constructor
    · nofun
    · rintro ⟨only, _⟩
      exact absurd only (other version)

example : parseVersion "/* 0x00MMmmpp */\r\n#define FIRMWARE_VERSION \"0.2.1\"\r\n".toList =
    some ("0.2.1".toList, 0x000201) := by
  decide +kernel

end Cc1310Firmware.Host
