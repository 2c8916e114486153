import Cc1310Firmware.Cli.Core
import Cc1310Firmware.Codec.Words

/-! strtok cuts a line into its words, in place.

A line is what is done with, the text that is left, and the NUL behind it. A token
overwrites the separator behind its word only, so the words found before it stay.
The separators are those of the call; cli_process_line has blanks and line ends.
-/

set_option autoImplicit false

namespace Cc1310Firmware.Cli
open Words

/-! ### One call -/

def strspnBy (separates : Byte → Bool) (line : List Byte) (start : Nat) : Nat :=
  ((line.drop start).takeWhile separates).length

def strcspnBy (separates : Byte → Bool) (line : List Byte) (start : Nat) : Nat :=
  ((line.drop start).takeWhile fun c => c != 0 && !separates c).length

/-- strtok with any separators. -/
def strtokBy (separates : Byte → Bool) (line : List Byte) (start : Nat) : List Byte × Nat × Option Nat :=
  let token := start + strspnBy separates line start
  if line.getD token 0 = 0 then (line, token, none)
  else
    let stop := token + strcspnBy separates line token
    if line.getD stop 0 = 0 then (line, stop, some token) else (line.set stop 0, stop + 1, some token)

/-- The tokens of a line, if there are at most `room` of them. -/
def splitBy (separates : Byte → Bool) (room : Nat) (line : List Byte) (start : Nat) :
    List Byte × Option (List Nat) :=
  match strtokBy separates line start, room with
  | (line, _, none), _ => (line, some [])
  | (line, _, some _), 0 => (line, none)
  | (line, next, some token), room + 1 =>
    ((splitBy separates room line next).1, (splitBy separates room line next).2.map (token :: ·))

variable {separates : Byte → Bool}

section Rounds
variable {line line' : List Byte} {start next token : Nat}

theorem splitBy_none (found : strtokBy separates line start = (line', next, none)) (room : Nat) :
    splitBy separates room line start = (line', some []) := by
  unfold splitBy
  rw [found]

theorem splitBy_zero (found : strtokBy separates line start = (line', next, some token)) :
    splitBy separates 0 line start = (line', none) := by
  unfold splitBy
  rw [found]

theorem splitBy_succ (found : strtokBy separates line start = (line', next, some token)) (room : Nat) :
    splitBy separates (room + 1) line start =
      ((splitBy separates room line' next).1, (splitBy separates room line' next).2.map (token :: ·)) := by
  conv_lhs => unfold splitBy
  rw [found]

end Rounds

theorem strspnBy_eq (front rest : List Byte) {blanks : List Byte} {c : Byte}
    (separators : ∀ b ∈ blanks, separates b = true) (stop : separates c = false) :
    strspnBy separates (front ++ (blanks ++ c :: rest)) front.length = blanks.length := by
  rw [strspnBy, List.drop_left, List.takeWhile_append_of_pos separators,
    List.takeWhile_cons_of_neg (by simp [stop]), List.append_nil]

theorem strcspnBy_eq (front rest : List Byte) {word : List Byte} {c : Byte}
    (whole : ∀ b ∈ word, separates b = false) (nonzero : ∀ b ∈ word, b ≠ 0) (stop : c = 0 ∨ separates c = true) :
    strcspnBy separates (front ++ (word ++ c :: rest)) front.length = word.length := by
  have inside : ∀ b ∈ word, (b != 0 && !separates b) = true := by
    intro b member
    rw [whole b member, Bool.not_false, Bool.and_true, bne_iff_ne]
    exact nonzero b member
  have outside : ¬ (c != 0 && !separates c) = true := by
    rcases stop with rfl | delimiter
    · simp
    · simp [delimiter]
  rw [strcspnBy, List.drop_left, List.takeWhile_append_of_pos inside, List.takeWhile_cons, if_neg outside,
    List.append_nil]

theorem getD_middle (front rest : List Byte) (c : Byte) : (front ++ c :: rest).getD front.length 0 = c := by
  rw [List.getD_eq_getElem?_getD, List.getElem?_append_right (Nat.le_refl _), Nat.sub_self]
  rfl

/-- Only separators are left. -/
theorem strtokBy_blank (nul : separates 0 = false) (done : List Byte) {blanks : List Byte} (garbage : List Byte)
    (separators : ∀ b ∈ blanks, separates b = true) :
    strtokBy separates (done ++ (blanks ++ 0 :: garbage)) done.length =
      (done ++ (blanks ++ 0 :: garbage), (done ++ blanks).length, none) := by
  have end_ := getD_middle (done ++ blanks) garbage 0
  rw [List.append_assoc] at end_
  unfold strtokBy
  rw [strspnBy_eq done _ separators nul, ← List.length_append]
  exact if_pos end_

/-- A word up to the separator or NUL behind it. -/
theorem strtokBy_word (done : List Byte) {blanks word : List Byte} {c : Byte} (rest : List Byte)
    (separators : ∀ b ∈ blanks, separates b = true) (some_ : word ≠ []) (whole : ∀ b ∈ word, separates b = false)
    (nonzero : ∀ b ∈ word, b ≠ 0) (stop : c = 0 ∨ separates c = true) :
    strtokBy separates (done ++ (blanks ++ (word ++ c :: rest))) done.length =
      (done ++ (blanks ++ (word ++ 0 :: rest)), (done ++ (blanks ++ word)).length + (if c = 0 then 0 else 1),
        some (done ++ blanks).length) := by
  obtain ⟨first, others, rfl⟩ := List.exists_cons_of_ne_nil some_
  have token := strspnBy_eq done (others ++ c :: rest) separators (whole first (by simp))
  have start := getD_middle (done ++ blanks) (others ++ c :: rest) first
  have span := strcspnBy_eq (done ++ blanks) rest whole nonzero stop
  have end_ := getD_middle (done ++ (blanks ++ first :: others)) rest c
  have cut : (done ++ (blanks ++ first :: others) ++ c :: rest).set (done ++ (blanks ++ first :: others)).length 0 =
      done ++ (blanks ++ first :: others) ++ 0 :: rest := by
    rw [List.set_append_right _ _ (Nat.le_refl _), Nat.sub_self, List.set_cons_zero]
  simp only [List.append_assoc, List.cons_append] at token start span end_ cut ⊢
  unfold strtokBy
  rw [token, ← List.length_append]
  dsimp only
  rw [start, span, ← List.length_append, List.append_assoc, end_, if_neg (nonzero first (by simp)), cut]
  split
  case isTrue nul =>
    subst nul
    rfl
  case isFalse => rfl

/-! ### The loop -/

theorem cString_word (front rest : List Byte) {word : List Byte} (nonzero : ∀ b ∈ word, b ≠ 0) :
    cString (front ++ (word ++ 0 :: rest)) front.length = word := by
  have inside : ∀ b ∈ word, (b != 0) = true := fun b member => bne_iff_ne.mpr (nonzero b member)
  rw [cString, List.drop_left, List.takeWhile_append_of_pos inside, List.takeWhile_cons, if_neg (by decide),
    List.append_nil]

theorem splitBy_blank (nul : separates 0 = false) (room : Nat) (done : List Byte) {blanks : List Byte}
    (garbage : List Byte) (separators : ∀ b ∈ blanks, separates b = true) :
    splitBy separates room (done ++ (blanks ++ 0 :: garbage)) done.length =
      (done ++ (blanks ++ 0 :: garbage), some []) := by
  exact splitBy_none (strtokBy_blank nul done garbage separators) room

/-- One round of the loop, at a word with room for it. -/
theorem splitBy_word (room : Nat) (done : List Byte) {blanks word : List Byte} {c : Byte} (rest : List Byte)
    (separators : ∀ b ∈ blanks, separates b = true) (some_ : word ≠ []) (whole : ∀ b ∈ word, separates b = false)
    (nonzero : ∀ b ∈ word, b ≠ 0) (stop : c = 0 ∨ separates c = true) :
    splitBy separates (room + 1) (done ++ (blanks ++ (word ++ c :: rest))) done.length =
      let further := splitBy separates room (done ++ (blanks ++ (word ++ 0 :: rest)))
        ((done ++ (blanks ++ word)).length + if c = 0 then 0 else 1)
      (further.1, further.2.map ((done ++ blanks).length :: ·)) := by
  exact splitBy_succ (strtokBy_word done rest separators some_ whole nonzero stop) room

theorem splitBy_full (done : List Byte) {blanks word : List Byte} {c : Byte} (rest : List Byte)
    (separators : ∀ b ∈ blanks, separates b = true) (some_ : word ≠ []) (whole : ∀ b ∈ word, separates b = false)
    (nonzero : ∀ b ∈ word, b ≠ 0) (stop : c = 0 ∨ separates c = true) :
    splitBy separates 0 (done ++ (blanks ++ (word ++ c :: rest))) done.length =
      (done ++ (blanks ++ (word ++ 0 :: rest)), none) := by
  exact splitBy_zero (strtokBy_word done rest separators some_ whole nonzero stop)

/-- What the loop leaves of a line, and the strings that argv points to: the words of the
text, or none if there are more of them than elements. -/
structure Split (separates : Byte → Bool) (room : Nat) (done content garbage : List Byte)
    (result : List Byte × Option (List Nat)) : Prop where
  line : ∃ rest, result.1 = done ++ rest ∧ rest.length = content.length + garbage.length + 1
  argv : result.2.map (·.map (cString result.1)) =
    if (words separates content).length ≤ room then some (words separates content) else none

theorem Split.blank (nul : separates 0 = false) (room : Nat) (done : List Byte) {content : List Byte}
    (garbage : List Byte) (blank : ∀ b ∈ content, separates b = true) :
    Split separates room done content garbage
      (splitBy separates room (done ++ (content ++ 0 :: garbage)) done.length) := by
  have none_ := words_append [] blank
  rw [List.append_nil, words_nil] at none_
  rw [splitBy_blank nul room done garbage blank]
  refine ⟨⟨_, rfl, by simp; omega⟩, ?_⟩
  simp [none_]

theorem splitBy_spec (nul : separates 0 = false) (room : Nat) (done content garbage : List Byte)
    (nonzero : ∀ b ∈ content, b ≠ 0) :
    Split separates room done content garbage
      (splitBy separates room (done ++ (content ++ 0 :: garbage)) done.length) := by
  induction room generalizing done content with
  | zero =>
    rcases text_cases separates content with blank | ⟨blanks, word, separators, some_, whole,
      rfl | ⟨c, rest, separator, rfl⟩⟩
    · exact .blank nul 0 done garbage blank
    · have nonzero' : ∀ b ∈ word, b ≠ 0 := fun b member => nonzero b (by simp [member])
      rw [List.append_assoc, splitBy_full done garbage separators some_ whole nonzero' (.inl rfl)]
      exact ⟨⟨_, rfl, by simp; omega⟩, by simp [words_append _ separators, words_word some_ whole]⟩
    · have nonzero' : ∀ b ∈ word, b ≠ 0 := fun b member => nonzero b (by simp [member])
      rw [List.append_assoc, List.append_assoc, List.cons_append,
        splitBy_full done _ separators some_ whole nonzero' (.inr separator)]
      exact ⟨⟨_, rfl, by simp; omega⟩,
        by simp [words_append _ separators, words_word_append _ some_ whole separator]⟩
  | succ room ih =>
    rcases text_cases separates content with blank | ⟨blanks, word, separators, some_, whole,
      rfl | ⟨c, rest, separator, rfl⟩⟩
    · exact .blank nul _ done garbage blank
    -- the last word: the next call finds the NUL behind it
    · have nonzero' : ∀ b ∈ word, b ≠ 0 := fun b member => nonzero b (by simp [member])
      have last := splitBy_blank nul room (done ++ (blanks ++ word)) garbage (List.forall_mem_nil _)
      have string := cString_word (done ++ blanks) garbage nonzero'
      rw [List.nil_append, List.append_assoc, List.append_assoc] at last
      rw [List.append_assoc] at string
      rw [List.append_assoc, splitBy_word room done garbage separators some_ whole nonzero' (.inl rfl)]
      simp only [↓reduceIte, Nat.add_zero, last]
      refine ⟨⟨_, rfl, by simp; omega⟩, ?_⟩
      have fits : [word].length ≤ room + 1 := Nat.le_add_left 1 room
      rw [words_append _ separators, words_word some_ whole, if_pos fits]
      exact congrArg (fun first => some [first]) string
    -- a NUL replaces the separator, and the words behind it follow
    · have nonzero' : ∀ b ∈ word, b ≠ 0 := fun b member => nonzero b (by simp [member])
      have separator' : c ≠ 0 := fun zero => by rw [zero, nul] at separator; cases separator
      have further_ := ih (done ++ (blanks ++ word) ++ [0]) rest fun b member => nonzero b (by simp [member])
      have place : (done ++ (blanks ++ word) ++ [0]).length = (done ++ (blanks ++ word)).length + 1 :=
        List.length_append
      have shape : done ++ (blanks ++ word) ++ [0] ++ (rest ++ 0 :: garbage) =
          done ++ (blanks ++ (word ++ 0 :: (rest ++ 0 :: garbage))) := by simp
      rw [place, shape] at further_
      rw [List.append_assoc, List.append_assoc, List.cons_append,
        splitBy_word room done _ separators some_ whole nonzero' (.inr separator)]
      simp only [separator', ↓reduceIte]
      generalize splitBy separates room _ _ = further at further_ ⊢
      obtain ⟨⟨line, written, length⟩, argv⟩ := further_
      have written' : further.1 = done ++ (blanks ++ (word ++ 0 :: line)) := by rw [written]; simp
      have string : cString further.1 (done ++ blanks).length = word := by
        rw [written', ← List.append_assoc]
        exact cString_word (done ++ blanks) line nonzero'
      refine ⟨⟨_, written', by simp [length]; omega⟩, ?_⟩
      calc (further.2.map ((done ++ blanks).length :: ·)).map (·.map (cString further.1))
        _ = (further.2.map (·.map (cString further.1))).map (word :: ·) := by
          rw [Option.map_map, Option.map_map]
          congr 1
          funext offsets
          rw [Function.comp_apply, List.map_cons, string]
          rfl
        _ = (if (words separates rest).length ≤ room then some (words separates rest) else none).map (word :: ·) := by
          rw [argv]
        _ = _ := by
          rw [words_append _ separators, words_word_append _ some_ whole separator, List.length_cons]
          simp only [Nat.add_le_add_iff_right]
          split
          · rfl
          · rfl

theorem strtok_eq (line : List Byte) (start : Nat) : strtok line start = strtokBy isDelimiter line start := rfl

theorem splitArguments_eq (room : Nat) (line : List Byte) (start : Nat) :
    splitArguments room line start = splitBy isDelimiter room line start := by
  induction room generalizing line start with
  | zero =>
    unfold splitArguments splitBy
    rw [strtok_eq]
    generalize strtokBy isDelimiter line start = result
    obtain ⟨left, next, token⟩ := result
    cases token with
    | none => rfl
    | some token => rfl
  | succ room ih =>
    unfold splitArguments splitBy
    rw [strtok_eq]
    generalize strtokBy isDelimiter line start = result
    obtain ⟨left, next, token⟩ := result
    cases token with
    | none => rfl
    | some token => simp only [ih]

theorem splitArguments_spec (room : Nat) (done content garbage : List Byte) (nonzero : ∀ b ∈ content, b ≠ 0) :
    Split isDelimiter room done content garbage
      (splitArguments room (done ++ (content ++ 0 :: garbage)) done.length) := by
  rw [splitArguments_eq]
  exact splitBy_spec rfl room done content garbage nonzero

end Cc1310Firmware.Cli
