import Mathlib.Data.List.TakeWhile

/-! The words of a text, and its lines.

A word is a maximal run of characters that are no separators. A line is what
stands in front of a line end; the text behind the last line end is still open.
-/

set_option autoImplicit false

namespace Words

variable {α : Type} {separates : α → Bool}

def words (separates : α → Bool) (text : List α) : List (List α) := (text.splitOnP separates).filter (! ·.isEmpty)

def lines (ends : α → Bool) (text : List α) : List (List α) := (text.splitOnP ends).dropLast

@[simp] theorem words_nil : words separates [] = [] := by
  simp [words]

/-- A separator in front is no part of a word. -/
theorem words_cons {c : α} (text : List α) (separator : separates c = true) :
    words separates (c :: text) = words separates text := by
  rw [words, List.splitOnP_cons_eq_if_modifyHead, if_pos separator]
  rfl

theorem words_append {blanks : List α} (text : List α) (separators : ∀ c ∈ blanks, separates c = true) :
    words separates (blanks ++ text) = words separates text := by
  induction blanks with
  | nil => rfl
  | cons c blanks ih =>
    obtain ⟨here, others⟩ := List.forall_mem_cons.mp separators
    rw [List.cons_append, words_cons _ here, ih others]

theorem words_word {word : List α} (some_ : word ≠ []) (whole : ∀ c ∈ word, separates c = false) :
    words separates word = [word] := by
  rw [words, List.splitOnP_eq_singleton whole, List.filter_cons_of_pos, List.filter_nil]
  rwa [Bool.not_eq_true', List.isEmpty_eq_false_iff]

theorem whole_of_all {word : List α} (all : word.all (! separates ·) = true) : ∀ c ∈ word, separates c = false := by
  simpa using all

/-- A word up to the separator that ends it. -/
theorem words_word_append {word : List α} {c : α} (text : List α) (some_ : word ≠ [])
    (whole : ∀ c ∈ word, separates c = false) (separator : separates c = true) :
    words separates (word ++ c :: text) = word :: words separates text := by
  have first := words_word some_ whole
  unfold words at *
  rw [List.splitOnP_append_cons _ _ separator, List.filter_append, first]
  rfl

/-- A separator is a place to cut. -/
theorem words_cut {c : α} (front back : List α) (separator : separates c = true) :
    words separates (front ++ c :: back) = words separates front ++ words separates back := by
  rw [words, List.splitOnP_append_cons _ _ separator, List.filter_append]
  rfl

theorem words_congr {separates' : α → Bool} {text : List α} (same : ∀ c ∈ text, separates c = separates' c) :
    words separates text = words separates' text := by
  have split : text.splitOnP separates = text.splitOnP separates' := by
    induction text with
    | nil => rfl
    | cons c text ih =>
      obtain ⟨here, others⟩ := List.forall_mem_cons.mp same
      rw [List.splitOnP_cons_eq_if_modifyHead, List.splitOnP_cons_eq_if_modifyHead, here, ih others]
  rw [words, words, split]

/-- A text is blank, or ends in its only word, or goes on behind the first word. -/
theorem text_cases (separates : α → Bool) (text : List α) : (∀ c ∈ text, separates c = true) ∨
    ∃ blanks word, (∀ c ∈ blanks, separates c = true) ∧ word ≠ [] ∧ (∀ c ∈ word, separates c = false) ∧
      (text = blanks ++ word ∨ ∃ c rest, separates c = true ∧ text = blanks ++ (word ++ c :: rest)) := by
  induction text with
  | nil => exact .inl fun c member => by cases member
  | cons c text ih =>
    cases here : separates c with
    | true =>
      rcases ih with blank | ⟨blanks, word, separators, some_, whole, split⟩
      · exact .inl (List.forall_mem_cons.mpr ⟨here, blank⟩)
      · refine .inr ⟨c :: blanks, word, List.forall_mem_cons.mpr ⟨here, separators⟩, some_, whole, ?_⟩
        rcases split with rfl | ⟨d, rest, separator, rfl⟩
        · exact .inl rfl
        · exact .inr ⟨d, rest, separator, rfl⟩
    | false =>
      refine .inr ⟨[], c :: text.takeWhile (! separates ·), by simp, by simp, ?_, ?_⟩
      · intro d member
        rcases List.mem_cons.mp member with rfl | inside
        · exact here
        · simpa using List.mem_takeWhile_imp inside
      · have split := List.takeWhile_append_dropWhile (p := (! separates ·)) (l := text)
        cases rest : text.dropWhile (! separates ·) with
        | nil =>
          rw [rest, List.append_nil] at split
          exact .inl (by rw [split]; rfl)
        | cons d rest' =>
          rw [rest] at split
          have stopped := List.head_dropWhile_not (! separates ·) (l := text) (by rw [rest]; exact List.cons_ne_nil _ _)
          simp only [rest, List.head_cons, Bool.not_eq_false'] at stopped
          exact .inr ⟨d, rest', stopped, congrArg (c :: ·) split.symm⟩

/-- What stands between two separators stands so in the text. -/
theorem infix_of_mem_splitOnP {text piece : List α} (listed : piece ∈ text.splitOnP separates) :
    piece <:+: text := by
  have pieces (text : List α) : ∃ first others, text.splitOnP separates = first :: others ∧ first <+: text ∧
      ∀ piece ∈ others, piece <:+: text := by
    induction text with
    | nil => exact ⟨[], [], List.splitOnP_nil, List.nil_prefix, List.forall_mem_nil _⟩
    | cons c text ih =>
      obtain ⟨first, others, split, front, inside⟩ := ih
      have later : ∀ piece ∈ others, piece <:+: c :: text := fun piece member =>
        (inside piece member).trans (List.suffix_cons c text).isInfix
      rw [List.splitOnP_cons_eq_if_modifyHead, split]
      split
      · refine ⟨[], first :: others, rfl, List.nil_prefix, List.forall_mem_cons.mpr ⟨?_, later⟩⟩
        exact front.isInfix.trans (List.suffix_cons c text).isInfix
      · exact ⟨c :: first, others, rfl, List.cons_prefix_cons.mpr ⟨rfl, front⟩, later⟩
  obtain ⟨first, others, split, front, inside⟩ := pieces text
  rw [split] at listed
  rcases List.mem_cons.mp listed with rfl | later
  · exact front.isInfix
  · exact inside piece later

/-- A text that begins with characters of a word has them at the front of its first word. -/
theorem words_front {front : List α} (text : List α) (some_ : front ≠ [])
    (whole : ∀ c ∈ front, separates c = false) :
    ∃ more others, words separates (front ++ text) = (front ++ more) :: others := by
  have split := List.takeWhile_append_dropWhile (p := (! separates ·)) (l := text)
  have inside : ∀ c ∈ front ++ text.takeWhile (! separates ·), separates c = false := by
    intro c member
    rcases List.mem_append.mp member with here | more
    · exact whole c here
    · simpa using List.mem_takeWhile_imp more
  have word : front ++ text.takeWhile (! separates ·) ≠ [] := List.append_ne_nil_of_left_ne_nil some_ _
  cases rest : text.dropWhile (! separates ·) with
  | nil =>
    rw [rest, List.append_nil] at split
    rw [split] at word inside
    exact ⟨text, [], words_word word inside⟩
  | cons c rest' =>
    have stopped := List.head_dropWhile_not (! separates ·) (l := text) (by rw [rest]; exact List.cons_ne_nil _ _)
    simp only [rest, List.head_cons, Bool.not_eq_false'] at stopped
    rw [rest] at split
    rw [← split, ← List.append_assoc]
    exact ⟨_, _, words_word_append rest' word inside stopped⟩

/-- A word is a piece of the text without a separator. -/
theorem words_mem (text : List α) : ∀ word ∈ words separates text,
    word ≠ [] ∧ (∀ c ∈ word, separates c = false) ∧ ∀ c ∈ word, c ∈ text := by
  induction length : text.length using Nat.strong_induction_on generalizing text with
  | _ n ih =>
    rcases text_cases separates text with blank | ⟨blanks, word, separators, some_, whole,
      rfl | ⟨c, rest, separator, rfl⟩⟩
    · have none_ := words_append [] blank
      rw [List.append_nil, words_nil] at none_
      rw [none_]
      exact List.forall_mem_nil _
    · rw [words_append _ separators, words_word some_ whole, List.forall_mem_singleton]
      exact ⟨some_, whole, fun c member => List.mem_append_right _ member⟩
    · rw [words_append _ separators, words_word_append _ some_ whole separator, List.forall_mem_cons]
      refine ⟨⟨some_, whole, fun d member => by simp [member]⟩, ?_⟩
      intro later member
      have shorter : rest.length < n := by
        rw [← length]
        simp only [List.length_append, List.length_cons]
        omega
      obtain ⟨some', whole', inside⟩ := ih rest.length shorter rest rfl later member
      exact ⟨some', whole', fun d place => by simp [inside d place]⟩

/-! ### Lines -/

variable {ends : α → Bool}

theorem lines_open {text : List α} (open_ : ∀ c ∈ text, ends c = false) : lines ends text = [] := by
  rw [lines, List.splitOnP_eq_singleton open_]
  rfl

theorem lines_append {line : List α} {c : α} (rest : List α) (inside : ∀ c ∈ line, ends c = false)
    (end_ : ends c = true) :
    lines ends (line ++ c :: rest) = line :: lines ends rest := by
  rw [lines, List.splitOnP_append_cons _ _ end_, List.splitOnP_eq_singleton inside, List.singleton_append,
    List.dropLast_cons_of_ne_nil (List.splitOnP_ne_nil _ _)]
  rfl

/-- A line end is a place to cut. -/
theorem lines_append_end {c : α} (text rest : List α) (end_ : ends c = true) :
    lines ends (text ++ c :: rest) = lines ends (text ++ [c]) ++ lines ends rest := by
  have last : (text.splitOnP ends ++ [[]]).dropLast = text.splitOnP ends := List.dropLast_concat
  rw [lines, lines, List.splitOnP_append_cons _ _ end_, List.splitOnP_append_cons _ _ end_, List.splitOnP_nil, last,
    List.dropLast_append_of_ne_nil (List.splitOnP_ne_nil _ _)]
  rfl

/-- A line is made of characters of the text. -/
theorem mem_of_mem_lines {text line : List α} (listed : line ∈ lines ends text) : ∀ c ∈ line, c ∈ text := by
  intro c member
  exact (infix_of_mem_splitOnP ((List.dropLast_sublist _).subset listed)).subset member

/-- More text adds lines behind those that are there. -/
theorem lines_prefix {line : List α} (open_ : ∀ c ∈ line, ends c = false) (text more : List α) :
    lines ends (line ++ text) <+: lines ends (line ++ text ++ more) := by
  induction text generalizing line with
  | nil =>
    rw [List.append_nil, lines_open open_]
    exact List.nil_prefix
  | cons c text ih =>
    cases here : ends c with
    | false =>
      have open' : ∀ d ∈ line ++ [c], ends d = false := by
        intro d member
        rcases List.mem_append.mp member with before | now
        · exact open_ d before
        · rw [List.mem_singleton.mp now, here]
      have longer := ih open'
      rwa [List.append_assoc line [c] text] at longer
    | true =>
      rw [List.append_assoc, List.cons_append, lines_append _ open_ here, lines_append _ open_ here,
        List.cons_prefix_cons]
      exact ⟨rfl, ih (List.forall_mem_nil _)⟩

end Words
