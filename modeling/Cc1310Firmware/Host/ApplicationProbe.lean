import Cc1310Firmware.Host.TextLines

/-! What the updater of the host makes of the lines of the CLI: probe_application and
wait_for_application of fw_update.py.
-/

set_option autoImplicit false

namespace Cc1310Firmware.Host
open Words LittleEndian Reactive

/-- The assignments to a dict, in their order; the last one of a key counts. -/
abbrev Fields := List (List Char × List Char)

def Fields.get (fields : Fields) (key : List Char) : Option (List Char) :=
  (fields.reverse.find? fun field => field.1 == key).map Prod.snd

/-- `token.partition("=")`, where the separator is found. -/
def parseField (token : List Char) : Option (List Char × List Char) :=
  match token.dropWhile (· != '=') with
  | [] => none
  | _ :: value => some (token.takeWhile (· != '='), value)

def parseCliFields (line : List Char) : Fields := (words isSpace line).filterMap parseField

/-! ### probe_application -/

def versionMark : List Char := "OK version=".toList

def isVersionAnswer (line : List Char) : Bool := versionMark.isPrefixOf line

/-- The fields of the answers to `version`. -/
def versionFields (lines : List (List Char)) : Fields := (lines.filter isVersionAnswer).flatMap parseCliFields

/-- The second words of the lines that begin with OK. -/
def helpCommands (lines : List (List Char)) : List (List Char) :=
  lines.filterMap fun line => if "OK ".toList <+: line then (words isSpace line)[1]? else none

def helpRole (lines : List (List Char)) : List Char :=
  if "tx".toList ∈ helpCommands lines then "tx".toList
  else if "rx".toList ∈ helpCommands lines then "rx".toList
  else "unknown".toList

/-- What probe_application returns for the lines of its two windows. -/
def applicationFields (version help : List (List Char)) : Option Fields :=
  let fields := versionFields version
  if fields.get "version".toList = none then none
  else if fields.get "role".toList = none then some (fields ++ [("role".toList, helpRole help)])
  else some fields

/-- probe_application with all that it returns. -/
def probeFields : HostProgram (Option Fields) := do
  let _ ← command ""
  let lines ← command "version"
  let fields := versionFields (lines.map String.toList)
  if fields.get "version".toList = none then return none
  else if fields.get "role".toList = none then
    let help ← command "help"
    return some (fields ++ [("role".toList, helpRole (help.map String.toList))])
  else return some fields

/-! ### wait_for_application -/

/-- `word in line` -/
def occurs (word : String) (line : List Char) : Bool := decide (word.toList <:+: line)

/-- The loop over the lines, with the fields of those before. -/
def bannerFields : Fields → List (List Char) → Fields
  | fields, [] => fields
  | fields, line :: rest =>
    if occurs "version=" line then bannerFields (fields ++ parseCliFields line) rest
    else if occurs "cli=ready" line && ! fields.isEmpty then fields
    else bannerFields fields rest

/-- What wait_for_application returns. -/
def applicationBanner (lines : List (List Char)) : Option Fields :=
  if bannerFields [] lines = [] then none else some (bannerFields [] lines)

/-! ### Fields -/

theorem parseField_some {token key value : List Char} (parsed : parseField token = some (key, value)) :
    token = key ++ '=' :: value := by
  unfold parseField at parsed
  split at parsed
  · cases parsed
  case h_2 c value' split =>
    have joined := List.takeWhile_append_dropWhile (p := (· != '=')) (l := token)
    have stopped := List.head_dropWhile_not (· != '=') (l := token) (by rw [split]; exact List.cons_ne_nil _ _)
    simp only [split, List.head_cons, bne_eq_false_iff_eq] at stopped
    rw [split, stopped] at joined
    cases parsed
    exact joined.symm

theorem parseField_assignment (key : List Char) (plain : '=' ∉ key) (value : List Char) :
    parseField (key ++ '=' :: value) = some (key, value) := by
  have front : ∀ c ∈ key, (c != '=') = true := fun c member => bne_iff_ne.mpr fun same => plain (same ▸ member)
  have drop : (key ++ '=' :: value).dropWhile (· != '=') = '=' :: value := by
    rw [List.dropWhile_append_of_pos front]
    rfl
  have take : (key ++ '=' :: value).takeWhile (· != '=') = key := by
    rw [List.takeWhile_append_of_pos front]
    simp
  simp only [parseField, drop, take]

theorem get_eq_none {fields : Fields} {key : List Char} :
    fields.get key = none ↔ ∀ field ∈ fields, field.1 ≠ key := by
  simp [Fields.get]

theorem mem_of_get {fields : Fields} {key value : List Char} (found : fields.get key = some value) :
    (key, value) ∈ fields := by
  obtain ⟨⟨key', _⟩, place, rfl⟩ := Option.map_eq_some_iff.mp found
  obtain rfl : key' = key := by simpa using List.find?_some place
  exact List.mem_reverse.mp (List.mem_of_find?_eq_some place)

theorem get_assigned (fields : Fields) (key value : List Char) :
    Fields.get (fields ++ [(key, value)]) key = some value := by
  simp [Fields.get]

/-- A field is a piece of its line. -/
theorem infix_of_mem_fields {line key value : List Char} (member : (key, value) ∈ parseCliFields line) :
    key ++ '=' :: value <:+: line := by
  obtain ⟨token, listed, parsed⟩ := List.mem_filterMap.mp member
  rw [← parseField_some parsed]
  exact infix_of_mem_splitOnP (List.mem_of_mem_filter listed)

/-- A line that begins with the mark has a version. -/
theorem version_of_answer {line : List Char} (answer : isVersionAnswer line = true) :
    ∃ field ∈ parseCliFields line, field.1 = "version".toList := by
  obtain ⟨rest, rfl⟩ := List.isPrefixOf_iff_prefix.mp answer
  have split : versionMark ++ rest = "OK".toList ++ ' ' :: ("version=".toList ++ rest) := rfl
  obtain ⟨more, others, tokens⟩ : ∃ more others,
      words isSpace ("version=".toList ++ rest) = ("version=".toList ++ more) :: others :=
    words_front rest (by decide) (whole_of_all (by decide))
  have first : words isSpace (versionMark ++ rest) = "OK".toList :: ("version=".toList ++ more) :: others := by
    rw [split, words_word_append _ (by decide) (whole_of_all (by decide)) rfl, tokens]
  have parsed : parseField ("version=".toList ++ more) = some ("version".toList, more) :=
    parseField_assignment "version".toList (by decide) more
  refine ⟨_, List.mem_filterMap.mpr ⟨_, ?_, parsed⟩, rfl⟩
  rw [first]
  exact List.mem_cons_of_mem _ List.mem_cons_self

/-- The fields have a role when a word of an answer begins with `role=`. -/
theorem role_of_answer (line : List Char) : (∃ field ∈ parseCliFields line, field.1 = "role".toList) ↔
    (line.splitOnP isSpace).any ("role=".toList.isPrefixOf ·) = true := by
  rw [List.any_eq_true]
  constructor
  · rintro ⟨⟨_, value⟩, member, rfl⟩
    obtain ⟨token, listed, parsed⟩ := List.mem_filterMap.mp member
    refine ⟨token, List.mem_of_mem_filter listed, List.isPrefixOf_iff_prefix.mpr ⟨value, ?_⟩⟩
    exact (parseField_some parsed).symm
  · rintro ⟨token, listed, starts⟩
    obtain ⟨value, rfl⟩ := List.isPrefixOf_iff_prefix.mp starts
    have parsed : parseField ("role=".toList ++ value) = some ("role".toList, value) :=
      parseField_assignment "role".toList (by decide) value
    exact ⟨_, List.mem_filterMap.mpr ⟨_, List.mem_filter.mpr ⟨listed, rfl⟩, parsed⟩, rfl⟩

/-- The answers among the lines. -/
theorem versionFields_map (lines : List String) : versionFields (lines.map String.toList) =
    (lines.filter fun line => line.startsWith "OK version=").flatMap fun line => parseCliFields line.toList := by
  have same : ∀ line : String, isVersionAnswer line.toList = line.startsWith "OK version=" := fun line =>
    Bool.eq_iff_iff.mpr (List.isPrefixOf_iff_prefix.trans String.startsWith_string_iff.symm)
  rw [versionFields, List.filter_map, List.flatMap_map]
  exact congrArg (List.flatMap _) (List.filter_congr fun line _ => same line)

theorem version_iff (lines : List String) : (versionFields (lines.map String.toList)).get "version".toList = none ↔
    (lines.filter fun line => line.startsWith "OK version=") = [] := by
  rw [versionFields_map, get_eq_none, List.filter_eq_nil_iff]
  constructor
  · intro none_ line listed starts
    have answer : isVersionAnswer line.toList = true :=
      List.isPrefixOf_iff_prefix.mpr (String.startsWith_string_iff.mp starts)
    obtain ⟨field, member, named⟩ := version_of_answer answer
    exact none_ field (List.mem_flatMap.mpr ⟨line, List.mem_filter.mpr ⟨listed, starts⟩, member⟩) named
  · intro silent field member
    obtain ⟨line, listed, _⟩ := List.mem_flatMap.mp member
    exact absurd (List.mem_filter.mp listed).2 (silent line (List.mem_filter.mp listed).1)

theorem role_iff (lines : List String) : (versionFields (lines.map String.toList)).get "role".toList ≠ none ↔
    ((lines.filter fun line => line.startsWith "OK version=").any fun line =>
      (line.toList.splitOnP isSpace).any ("role=".toList.isPrefixOf ·)) = true := by
  rw [versionFields_map, Ne, get_eq_none, List.any_eq_true]
  push Not
  constructor
  · rintro ⟨field, member, named⟩
    obtain ⟨line, listed, place⟩ := List.mem_flatMap.mp member
    exact ⟨line, listed, (role_of_answer line.toList).mp ⟨field, place, named⟩⟩
  · rintro ⟨line, listed, word⟩
    obtain ⟨field, place, named⟩ := (role_of_answer line.toList).mpr word
    exact ⟨field, List.mem_flatMap.mpr ⟨line, listed, place⟩, named⟩

/-- probeApplication tells whether probe_application returns fields, and asks what it asks. -/
theorem probeApplication_eq : probeApplication = do return (← probeFields).isSome := by
  refine congrArg (Program.act (HostAction.command "")) (funext fun _ => ?_)
  refine congrArg (Program.act (HostAction.command "version")) (funext fun lines => ?_)
  dsimp only [Program.bind, pure]
  have silent := version_iff lines
  rw [← List.isEmpty_iff] at silent
  by_cases none_ : (versionFields (lines.map String.toList)).get "version".toList = none
  · rw [if_pos none_, if_pos (silent.mp none_)]
    rfl
  · rw [if_neg none_, if_neg fun empty => none_ (silent.mpr empty)]
    by_cases role : (versionFields (lines.map String.toList)).get "role".toList = none
    · rw [if_pos role, if_neg fun word => (role_iff lines).mpr word role]
      rfl
    · rw [if_neg role, if_pos ((role_iff lines).mp role)]
      rfl

end Cc1310Firmware.Host
