import Mathlib.Data.List.Infix
import Mathlib.Logic.Function.Basic

/-! Patterns matched by backtracking, as the regular expressions of scripting languages are.

The ways to match a pattern are listed in the order in which they are tried, and the first
one counts. A repetition is greedy; a round of it that reads nothing is not tried.
-/

set_option autoImplicit false

namespace Backtracking

inductive Pattern (α : Type) where
  | empty
  | one (accepts : α → Bool)
  | seq (first second : Pattern α)
  | either (first second : Pattern α)
  | many (body : Pattern α)
  | group (index : Nat) (body : Pattern α)
  /-- Between a word character and one that is none, or an end of the text. -/
  | boundary (isWord : α → Bool)

/-- A place in a text, with the texts of the groups so far. -/
structure Cursor (α : Type) where
  previous : Option α
  rest : List α
  groups : Nat → Option (List α)

variable {α : Type}

/-- No group has matched. -/
def noGroups : Nat → Option (List α) := fun _ => none

def Cursor.capture (c d : Cursor α) (index : Nat) : Cursor α :=
  { d with groups := Function.update d.groups index (some (c.rest.take (c.rest.length - d.rest.length))) }

/-- As many rounds as the body matches; `fuel` is the length of the text. -/
def rounds (body : Cursor α → List (Cursor α)) : Nat → Cursor α → List (Cursor α)
  | 0, c => [c]
  | fuel + 1, c =>
    ((body c).filter fun d => decide (d.rest.length < c.rest.length)).flatMap (rounds body fuel) ++ [c]

def Pattern.results : Pattern α → Cursor α → List (Cursor α)
  | .empty, c => [c]
  | .one accepts, c =>
    match c.rest with
    | [] => []
    | a :: rest => if accepts a then [⟨some a, rest, c.groups⟩] else []
  | .seq first second, c => (first.results c).flatMap second.results
  | .either first second, c => first.results c ++ second.results c
  | .many body, c => rounds body.results c.rest.length c
  | .group index body, c => (body.results c).map fun d => c.capture d index
  | .boundary isWord, c => if c.previous.any isWord != c.rest.head?.any isWord then [c] else []

/-- The leftmost match in a text that follows `previous`. -/
def Pattern.search (p : Pattern α) (previous : Option α) : List α → Option (Cursor α)
  | [] => (p.results ⟨previous, [], noGroups⟩).head?
  | a :: rest =>
    match (p.results ⟨previous, a :: rest, noGroups⟩).head? with
    | some d => some d
    | none => p.search (some a) rest

/-- The groups of the first match that takes the whole text, as between `^` and `$`. -/
def Pattern.fullMatch (p : Pattern α) (text : List α) : Option (Nat → Option (List α)) :=
  ((p.results ⟨none, text, noGroups⟩).find? (·.rest.isEmpty)).map Cursor.groups

/-! ### Derived patterns -/

def sequence (parts : List (Pattern α)) : Pattern α := parts.foldr .seq .empty

def literal [BEq α] (word : List α) : Pattern α := sequence (word.map fun a => .one (· == a))

/-- `body+` -/
def atLeastOnce (body : Pattern α) : Pattern α := .seq body (.many body)

/-- `body?` -/
def optional (body : Pattern α) : Pattern α := .either body .empty

/-! ### What a match reads -/

theorem results_one_cons (accepts : α → Bool) (previous : Option α) (a : α) (rest : List α)
    (groups : Nat → Option (List α)) : (Pattern.one accepts).results ⟨previous, a :: rest, groups⟩ =
      if accepts a then [⟨some a, rest, groups⟩] else [] :=
  rfl

theorem mem_seq {p q : Pattern α} {c d : Cursor α} :
    d ∈ (Pattern.seq p q).results c ↔ ∃ m ∈ p.results c, d ∈ q.results m :=
  List.mem_flatMap

theorem mem_either {p q : Pattern α} {c d : Cursor α} :
    d ∈ (Pattern.either p q).results c ↔ d ∈ p.results c ∨ d ∈ q.results c :=
  List.mem_append

theorem mem_group {p : Pattern α} {index : Nat} {c d : Cursor α} :
    d ∈ (Pattern.group index p).results c ↔ ∃ m ∈ p.results c, c.capture m index = d :=
  List.mem_map

theorem capture_groups {c m : Cursor α} {word : List α} (index : Nat) (read : c.rest = word ++ m.rest) :
    (c.capture m index).groups = Function.update m.groups index (some word) := by
  rw [Cursor.capture, read, List.length_append, Nat.add_sub_cancel, List.take_left]

theorem mem_boundary {isWord : α → Bool} {c d : Cursor α} (member : d ∈ (Pattern.boundary isWord).results c) :
    d = c := by
  rw [Pattern.results] at member
  split at member
  · exact List.mem_singleton.mp member
  · cases member

theorem mem_one {accepts : α → Bool} {c d : Cursor α} (member : d ∈ (Pattern.one accepts).results c) :
    ∃ a, accepts a = true ∧ c.rest = a :: d.rest ∧ d.groups = c.groups := by
  rw [Pattern.results] at member
  split at member
  · cases member
  case h_2 a rest here =>
    split at member
    case isTrue accepted =>
      rw [List.mem_singleton.mp member]
      exact ⟨a, accepted, here, rfl⟩
    case isFalse => cases member

theorem mem_sequence_cons {p : Pattern α} {parts : List (Pattern α)} {c d : Cursor α} :
    d ∈ (sequence (p :: parts)).results c ↔ ∃ m ∈ p.results c, d ∈ (sequence parts).results m :=
  mem_seq

theorem mem_sequence_append {front back : List (Pattern α)} {c d : Cursor α} :
    d ∈ (sequence (front ++ back)).results c ↔ ∃ m ∈ (sequence front).results c, d ∈ (sequence back).results m := by
  induction front generalizing c with
  | nil => exact ⟨fun member => ⟨c, List.mem_singleton_self c, member⟩, fun ⟨m, here, member⟩ => by
      rw [List.mem_singleton.mp here] at member
      exact member⟩
  | cons p front ih =>
    rw [List.cons_append, mem_sequence_cons]
    constructor
    · rintro ⟨first, here, member⟩
      obtain ⟨m, further, member⟩ := ih.mp member
      exact ⟨m, mem_sequence_cons.mpr ⟨first, here, further⟩, member⟩
    · rintro ⟨m, further, member⟩
      obtain ⟨first, here, further⟩ := mem_sequence_cons.mp further
      exact ⟨first, here, ih.mpr ⟨m, further, member⟩⟩

theorem mem_literal [BEq α] [LawfulBEq α] {word : List α} {c d : Cursor α}
    (member : d ∈ (literal word).results c) : c.rest = word ++ d.rest ∧ d.groups = c.groups := by
  induction word generalizing c with
  | nil =>
    rw [List.mem_singleton.mp member]
    exact ⟨rfl, rfl⟩
  | cons a word ih =>
    obtain ⟨m, here, further⟩ := mem_seq.mp member
    obtain ⟨b, same, rest, groups⟩ := mem_one here
    obtain ⟨rest', groups'⟩ := ih further
    rw [rest, rest', beq_iff_eq.mp same]
    exact ⟨rfl, groups'.trans groups⟩

theorem mem_rounds_one {accepts : α → Bool} {fuel : Nat} {c d : Cursor α}
    (member : d ∈ rounds (Pattern.one accepts).results fuel c) :
    ∃ word, (∀ a ∈ word, accepts a = true) ∧ c.rest = word ++ d.rest ∧ d.groups = c.groups := by
  induction fuel generalizing c with
  | zero =>
    rw [List.mem_singleton.mp member]
    exact ⟨[], List.forall_mem_nil _, rfl, rfl⟩
  | succ fuel ih =>
    rw [rounds, List.mem_append] at member
    rcases member with further | here
    · obtain ⟨m, first, rest⟩ := List.mem_flatMap.mp further
      obtain ⟨a, accepted, read, groups⟩ := mem_one (List.mem_filter.mp first).1
      obtain ⟨word, each, read', groups'⟩ := ih rest
      refine ⟨a :: word, List.forall_mem_cons.mpr ⟨accepted, each⟩, ?_, groups'.trans groups⟩
      rw [read, read', List.cons_append]
    · rw [List.mem_singleton.mp here]
      exact ⟨[], List.forall_mem_nil _, rfl, rfl⟩

theorem mem_many_one {accepts : α → Bool} {c d : Cursor α}
    (member : d ∈ (Pattern.many (.one accepts)).results c) :
    ∃ word, (∀ a ∈ word, accepts a = true) ∧ c.rest = word ++ d.rest ∧ d.groups = c.groups :=
  mem_rounds_one member

theorem mem_atLeastOnce_one {accepts : α → Bool} {c d : Cursor α}
    (member : d ∈ (atLeastOnce (.one accepts)).results c) :
    ∃ a word, accepts a = true ∧ (∀ b ∈ word, accepts b = true) ∧ c.rest = a :: word ++ d.rest ∧
      d.groups = c.groups := by
  obtain ⟨m, first, further⟩ := mem_seq.mp member
  obtain ⟨a, accepted, read, groups⟩ := mem_one first
  obtain ⟨word, each, read', groups'⟩ := mem_many_one further
  exact ⟨a, word, accepted, each, by rw [read, read', List.cons_append], groups'.trans groups⟩

/-- A match reads from where it begins. -/
theorem rest_suffix (p : Pattern α) {c d : Cursor α} (member : d ∈ p.results c) : d.rest <:+ c.rest := by
  induction p generalizing c d with
  | empty => rw [List.mem_singleton.mp member]
  | one accepts =>
    obtain ⟨a, _, read, _⟩ := mem_one member
    exact ⟨[a], read.symm⟩
  | seq p q first second =>
    obtain ⟨m, here, further⟩ := mem_seq.mp member
    exact (second further).trans (first here)
  | either p q first second => exact (mem_either.mp member).elim first second
  | many p ih =>
    have each (fuel : Nat) : ∀ c, d ∈ rounds p.results fuel c → d.rest <:+ c.rest := by
      induction fuel with
      | zero =>
        intro c member
        rw [List.mem_singleton.mp member]
      | succ fuel below =>
        intro c member
        rw [rounds, List.mem_append] at member
        rcases member with further | here
        · obtain ⟨m, first, rest⟩ := List.mem_flatMap.mp further
          exact (below m rest).trans (ih (List.mem_filter.mp first).1)
        · rw [List.mem_singleton.mp here]
    exact each _ c member
  | group index p ih =>
    obtain ⟨m, here, rfl⟩ := mem_group.mp member
    have suffix : m.rest <:+ c.rest := ih here
    exact suffix
  | boundary isWord => rw [mem_boundary member]

/-! ### The match that is tried first -/

/-- The first match of a text that begins with `word` reads this word. -/
def Takes (p : Pattern α) (word rest : List α) (groups groups' : Nat → Option (List α)) : Prop :=
  ∀ previous, ∃ last, (p.results ⟨previous, word ++ rest, groups⟩).head? = some ⟨last, rest, groups'⟩

/-- No match begins here. -/
def Refuses (p : Pattern α) (text : List α) (groups : Nat → Option (List α)) : Prop :=
  ∀ previous, p.results ⟨previous, text, groups⟩ = []

variable {p q : Pattern α} {word word' rest : List α} {groups groups' groups'' : Nat → Option (List α)}

theorem Takes.empty : Takes .empty [] rest groups groups := fun previous => ⟨previous, rfl⟩

theorem Takes.one {accepts : α → Bool} {a : α} (accepted : accepts a = true) :
    Takes (.one accepts) [a] rest groups groups := by
  intro previous
  refine ⟨some a, ?_⟩
  rw [List.singleton_append, results_one_cons, if_pos accepted, List.head?_cons]

theorem Takes.seq (first : Takes p word (word' ++ rest) groups groups')
    (second : Takes q word' rest groups' groups'') :
    Takes (.seq p q) (word ++ word') rest groups groups'' := by
  intro previous
  obtain ⟨middle, here⟩ := first previous
  obtain ⟨last, there⟩ := second middle
  refine ⟨last, ?_⟩
  obtain ⟨others, results⟩ := List.head?_eq_some_iff.mp here
  obtain ⟨others', results'⟩ := List.head?_eq_some_iff.mp there
  rw [List.append_assoc, Pattern.results, results, List.flatMap_cons, results']
  rfl

theorem Takes.left (first : Takes p word rest groups groups') : Takes (.either p q) word rest groups groups' := by
  intro previous
  obtain ⟨last, here⟩ := first previous
  refine ⟨last, ?_⟩
  rw [Pattern.results, List.head?_append, here]
  rfl

theorem Takes.right (refused : Refuses p (word ++ rest) groups) (second : Takes q word rest groups groups') :
    Takes (.either p q) word rest groups groups' := by
  intro previous
  rw [Pattern.results, refused previous]
  exact second previous

theorem Takes.group {index : Nat} (body : Takes p word rest groups groups') :
    Takes (.group index p) word rest groups (Function.update groups' index (some word)) := by
  intro previous
  obtain ⟨last, here⟩ := body previous
  refine ⟨last, ?_⟩
  obtain ⟨others, results⟩ := List.head?_eq_some_iff.mp here
  have read : (word ++ rest).take ((word ++ rest).length - rest.length) = word := by
    rw [List.length_append, Nat.add_sub_cancel, List.take_left]
  rw [Pattern.results, results, List.map_cons, List.head?_cons]
  simp only [Cursor.capture, read]

theorem Takes.sequence {parts : List (Pattern α)} (first : Takes p word (word' ++ rest) groups groups')
    (others : Takes (sequence parts) word' rest groups' groups'') :
    Takes (Backtracking.sequence (p :: parts)) (word ++ word') rest groups groups'' :=
  first.seq others

theorem Takes.last (only : Takes p word rest groups groups') :
    Takes (Backtracking.sequence [p]) word rest groups groups' := by
  have alone : Takes (Backtracking.sequence [p]) (word ++ []) rest groups groups' := Takes.sequence only Takes.empty
  rwa [List.append_nil] at alone

theorem Takes.literal [BEq α] [LawfulBEq α] (word : List α) : Takes (literal word) word rest groups groups := by
  induction word with
  | nil => exact Takes.empty
  | cons a word ih => exact @Takes.seq _ _ _ [a] word rest _ _ _ (Takes.one (beq_self_eq_true a)) ih

/-- The end of a text, or a character that is not accepted. -/
def Stops (accepts : α → Bool) (rest : List α) : Prop := ∀ a ∈ rest.head?, accepts a = false

theorem rounds_one_first {accepts : α → Bool} (each : ∀ a ∈ word, accepts a = true) (stops : Stops accepts rest)
    {fuel : Nat} (enough : word.length ≤ fuel) (previous : Option α) :
    ∃ last, (rounds (Pattern.one accepts).results fuel ⟨previous, word ++ rest, groups⟩).head? =
      some ⟨last, rest, groups⟩ := by
  induction word generalizing fuel previous with
  | nil =>
    refine ⟨previous, ?_⟩
    cases fuel with
    | zero => rfl
    | succ fuel =>
      have none_ : (Pattern.one accepts).results ⟨previous, rest, groups⟩ = [] := by
        cases rest with
        | nil => rfl
        | cons a rest =>
          rw [results_one_cons, stops a rfl, if_neg Bool.false_ne_true]
      rw [rounds, List.nil_append, none_]
      rfl
  | cons a word ih =>
    obtain ⟨accepted, others⟩ := List.forall_mem_cons.mp each
    cases fuel with
    | zero => cases enough
    | succ fuel =>
      obtain ⟨last, further⟩ := ih others (Nat.le_of_succ_le_succ enough) (some a)
      refine ⟨last, ?_⟩
      have one_ : (Pattern.one accepts).results ⟨previous, a :: word ++ rest, groups⟩ =
          [⟨some a, word ++ rest, groups⟩] := by
        rw [List.cons_append, results_one_cons, if_pos accepted]
      have kept : [(⟨some a, word ++ rest, groups⟩ : Cursor α)].filter
          (fun d => decide (d.rest.length < (a :: word ++ rest).length)) = [⟨some a, word ++ rest, groups⟩] :=
        List.filter_cons_of_pos (decide_eq_true (Nat.lt_succ_self _))
      rw [rounds, one_, kept, List.flatMap_cons, List.append_assoc, List.head?_append, further]
      rfl

/-- A repetition of characters takes all that it can. -/
theorem Takes.many_one {accepts : α → Bool} (each : ∀ a ∈ word, accepts a = true) (stops : Stops accepts rest) :
    Takes (.many (.one accepts)) word rest groups groups := by
  intro previous
  refine rounds_one_first each stops ?_ previous
  exact (Nat.le_add_right _ _).trans_eq List.length_append.symm

theorem Takes.atLeastOnce_one {accepts : α → Bool} (some_ : word ≠ []) (each : ∀ a ∈ word, accepts a = true)
    (stops : Stops accepts rest) : Takes (atLeastOnce (.one accepts)) word rest groups groups := by
  cases word with
  | nil => exact absurd rfl some_
  | cons a word =>
    obtain ⟨accepted, others⟩ := List.forall_mem_cons.mp each
    exact @Takes.seq _ _ _ [a] word rest _ _ _ (Takes.one accepted) (Takes.many_one others stops)

/-! ### The whole text -/

theorem Takes.fullMatch (takes : Takes p word [] noGroups groups') : p.fullMatch word = some groups' := by
  obtain ⟨last, first⟩ := takes none
  rw [List.append_nil] at first
  obtain ⟨others, results⟩ := List.head?_eq_some_iff.mp first
  rw [Pattern.fullMatch, results, List.find?_cons_of_pos rfl]
  rfl

theorem fullMatch_eq_some (found : p.fullMatch word = some groups') :
    ∃ d ∈ p.results ⟨none, word, noGroups⟩, d.rest = [] ∧ d.groups = groups' := by
  obtain ⟨d, first, groups⟩ := Option.map_eq_some_iff.mp found
  have whole : d.rest.isEmpty = true := (List.find?_eq_some_iff_append.mp first).1
  exact ⟨d, List.mem_of_find?_eq_some first, List.isEmpty_iff.mp whole, groups⟩

/-! ### Search -/

theorem search_here {previous : Option α} {text : List α} {d : Cursor α}
    (first : (p.results ⟨previous, text, noGroups⟩).head? = some d) : p.search previous text = some d := by
  cases text with
  | nil => exact first
  | cons a rest => rw [Pattern.search, first]

/-- Where no match begins, the search goes on. -/
theorem search_skip {skipped : List α} (previous : Option α) (rest : List α)
    (refused : ∀ before after, skipped = before ++ after → after ≠ [] → Refuses p (after ++ rest) noGroups) :
    p.search previous (skipped ++ rest) = p.search (skipped.getLast?.or previous) rest := by
  induction skipped generalizing previous with
  | nil => rfl
  | cons a skipped ih =>
    have here := refused [] (a :: skipped) rfl (List.cons_ne_nil _ _) previous
    rw [List.cons_append] at here
    rw [List.cons_append, Pattern.search, here]
    dsimp only [List.head?_nil]
    rw [ih (some a) fun before after split some_ => refused (a :: before) after (congrArg (a :: ·) split) some_]
    cases skipped with
    | nil => rfl
    | cons b skipped => rw [List.getLast?_cons_cons, List.getLast?_cons]; rfl

theorem search_none {text : List α} (previous : Option α)
    (refused : ∀ before after, text = before ++ after → Refuses p after noGroups) :
    p.search previous text = none := by
  have skip : p.search previous (text ++ []) = p.search (text.getLast?.or previous) [] := by
    refine search_skip previous [] fun before after split _ => ?_
    rw [List.append_nil]
    exact refused before after split
  rw [List.append_nil] at skip
  rw [skip, Pattern.search, refused text [] (List.append_nil _).symm]
  rfl

end Backtracking
