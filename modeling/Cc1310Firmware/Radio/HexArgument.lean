import Cc1310Firmware.Codec.HexText
import Cc1310Firmware.Radio.Transmitter
import Mathlib.Data.List.Forall2

/-! The hexadecimal argument of a sync command.

parseHexUint64 accepts the numerals that cli.md describes and no others, and computes
the number that their digits denote.
-/

set_option autoImplicit false

namespace Cc1310Firmware.Radio
open Cli

/-- The value of a hexadecimal digit in ASCII. -/
def asciiDigit (c : Byte) : Option Nat := HexText.digitValue (Char.ofNat c.toNat)

abbrev HexDigits : List Byte → List Nat → Prop := List.Forall₂ fun c value => asciiDigit c = some value

/-- An optional 0x or 0X, then 1 to `most` digits, the most significant one first. -/
inductive HexNumber (most : Nat) : List Byte → Nat → Prop where
  | intro {start digits : List Byte} {values : List Nat} (front : start ∈ [[], text "0x", text "0X"])
      (digits_ : HexDigits digits values) (some_ : 1 ≤ digits.length) (few : digits.length ≤ most) :
      HexNumber most (start ++ digits) (Nat.ofDigits 16 values.reverse)

/-! ### Digits -/

theorem parseHexDigit_eq : ∀ c : Byte, parseHexDigit c = (asciiDigit c).map (BitVec.ofNat 8) := by
  decide +kernel

theorem asciiDigit_lt : ∀ c : Byte, ∀ value ∈ asciiDigit c, value < 16 := by
  decide +kernel

theorem HexDigits.lt {digits : List Byte} {values : List Nat} (digits_ : HexDigits digits values) :
    ∀ value ∈ values, value < 16 := by
  induction digits_ with
  | nil => exact List.forall_mem_nil _
  | @cons c value digits values here _ ih => exact List.forall_mem_cons.mpr ⟨asciiDigit_lt c value here, ih⟩

/-- The letter of 0x is no digit. -/
theorem HexDigits.second_ne {digits : List Byte} {values : List Nat} (digits_ : HexDigits digits values)
    (letter : Byte) (strange : asciiDigit letter = none) (nonzero : letter ≠ 0) : digits.getD 1 0 ≠ letter := by
  intro same
  rcases digits_ with _ | ⟨_, _ | ⟨here, _⟩⟩
  · exact nonzero same.symm
  · exact nonzero same.symm
  · have digit := (congrArg asciiDigit same).symm.trans here
    rw [strange] at digit
    cases digit

/-- A digit goes into the four bits that the shift makes free. -/
theorem toNat_shift_or {result : BitVec 64} {value : Nat} (fits : result.toNat < 2 ^ 60) (small : value < 16) :
    (result <<< 4 ||| (BitVec.ofNat 8 value).setWidth 64).toNat = 16 * result.toNat + value := by
  have digit : ((BitVec.ofNat 8 value).setWidth 64).toNat = value := by
    rw [BitVec.toNat_setWidth, BitVec.toNat_ofNat]
    omega
  have shifted : (result <<< 4).toNat = 2 ^ 4 * result.toNat := by
    rw [BitVec.toNat_shiftLeft, Nat.shiftLeft_eq]
    omega
  rw [BitVec.toNat_or, digit, shifted, ← Nat.two_pow_add_eq_or_of_lt (by omega)]

/-- The loop on digits that fit behind the `count` before them. -/
theorem parseHexDigits_complete {maximumDigits : Byte} (small : maximumDigits.toNat ≤ 16) {digits : List Byte}
    {values : List Nat} (digits_ : HexDigits digits values) (result : BitVec 64) (count : Byte)
    (fits : result.toNat < 16 ^ count.toNat) (room : count.toNat + digits.length ≤ maximumDigits.toNat) :
    ∃ result' count', parseHexDigits maximumDigits digits result count = some (result', count') ∧
      result'.toNat = 16 ^ digits.length * result.toNat + Nat.ofDigits 16 values.reverse ∧
      count'.toNat = count.toNat + digits.length := by
  -- on the digits still to come
  induction digits_ generalizing result count with
  | nil => exact ⟨result, count, rfl, by simp, rfl⟩
  | @cons c value digits values here others ih =>
    rw [List.length_cons] at room
    have value_lt := asciiDigit_lt c value here
    have high : result.toNat < 2 ^ 60 := by
      have power : 16 ^ count.toNat ≤ 16 ^ 15 := Nat.pow_le_pow_right (by decide) (by omega)
      omega
    have more : count ≠ maximumDigits := by
      rintro rfl
      omega
    have count' : (count + 1).toNat = count.toNat + 1 := by
      rw [BitVec.toNat_add, show (1 : Byte).toNat = 1 from rfl, Nat.mod_eq_of_lt (by omega)]
    have shifted := toNat_shift_or high value_lt
    have fits' : (result <<< 4 ||| (BitVec.ofNat 8 value).setWidth 64).toNat < 16 ^ (count + 1).toNat := by
      rw [shifted, count', Nat.pow_succ]
      omega
    obtain ⟨result', last, run, total, counted⟩ := ih _ _ fits' (by omega)
    refine ⟨result', last, ?_, ?_, by rw [counted, count', List.length_cons]; omega⟩
    · have digit : parseHexDigit c = some (BitVec.ofNat 8 value) := by rw [parseHexDigit_eq, here]; rfl
      rw [parseHexDigits, digit]
      dsimp only
      rw [if_neg more, run]
    · rw [total, shifted, List.reverse_cons, Nat.ofDigits_append, List.length_reverse, Nat.ofDigits_singleton,
        List.length_cons, ← others.length_eq, Nat.pow_succ]
      ring

/-- What the loop accepts. -/
theorem parseHexDigits_sound {maximumDigits : Byte} {text : List Byte} {result : BitVec 64} {count : Byte}
    (room : count.toNat ≤ maximumDigits.toNat) {last : BitVec 64 × Byte}
    (parsed : parseHexDigits maximumDigits text result count = some last) :
    (∃ values, HexDigits text values) ∧ count.toNat + text.length ≤ maximumDigits.toNat := by
  induction text generalizing result count with
  | nil => exact ⟨⟨[], .nil⟩, room⟩
  | cons c text ih =>
    rw [parseHexDigits, parseHexDigit_eq] at parsed
    cases digit : asciiDigit c with
    | none =>
      rw [digit] at parsed
      cases parsed
    | some value =>
      rw [digit, Option.map_some] at parsed
      dsimp only at parsed
      split at parsed
      · cases parsed
      case isFalse more =>
        have different : count.toNat ≠ maximumDigits.toNat := fun same => more (BitVec.eq_of_toNat_eq same)
        have count' : (count + 1).toNat = count.toNat + 1 := by
          have bound := maximumDigits.isLt
          rw [BitVec.toNat_add, show (1 : Byte).toNat = 1 from rfl, Nat.mod_eq_of_lt (by omega)]
        obtain ⟨⟨values, digits⟩, few⟩ := ih (by omega) parsed
        exact ⟨⟨value :: values, .cons digit digits⟩, by rw [List.length_cons]; omega⟩

/-! ### Numerals -/

theorem HexNumber.lt {most : Nat} {word : List Byte} {number : Nat} (hex : HexNumber most word number) :
    number < 16 ^ most := by
  obtain @⟨start, digits, values, front, digits_, some_, few⟩ := hex
  have below : Nat.ofDigits 16 values.reverse < 16 ^ values.reverse.length :=
    Nat.ofDigits_lt_base_pow_length (by decide)
    fun value member => digits_.lt value (List.mem_reverse.mp member)
  rw [List.length_reverse, ← digits_.length_eq] at below
  exact Nat.lt_of_lt_of_le below (Nat.pow_le_pow_right (by decide) few)

theorem HexNumber.length_le {most : Nat} {word : List Byte} {number : Nat} (hex : HexNumber most word number) :
    word.length ≤ most + 2 := by
  obtain @⟨start, digits, values, front, digits_, some_, few⟩ := hex
  have short : ∀ start ∈ [[], text "0x", text "0X"], start.length ≤ 2 := by decide
  have start_le := short start front
  rw [List.length_append]
  omega

theorem skipMark_append {start digits : List Byte} {values : List Nat} (front : start ∈ [[], text "0x", text "0X"])
    (digits_ : HexDigits digits values) : skipMark (start ++ digits) = digits := by
  simp only [List.mem_cons, List.not_mem_nil, or_false] at front
  rcases front with rfl | rfl | rfl
  · have lower := digits_.second_ne 0x78 (by decide) (by decide)
    have upper := digits_.second_ne 0x58 (by decide) (by decide)
    rw [List.nil_append, skipMark, if_neg]
    rintro ⟨_, x | x⟩
    · exact lower x
    · exact upper x
  · exact if_pos ⟨rfl, .inl rfl⟩
  · exact if_pos ⟨rfl, .inr rfl⟩

/-- Nothing else is skipped. -/
theorem exists_append_skipMark (word : List Byte) :
    ∃ start ∈ [[], text "0x", text "0X"], word = start ++ skipMark word := by
  unfold skipMark
  split
  case isTrue marked =>
    obtain ⟨zero, letter⟩ := marked
    cases word with
    | nil => cases zero
    | cons c word =>
      obtain rfl : c = 0x30 := zero
      cases word with
      | nil => rcases letter with x | x <;> cases x
      | cons d rest =>
        rcases letter with x | x
        · obtain rfl : d = 0x78 := x
          exact ⟨text "0x", by simp, rfl⟩
        · obtain rfl : d = 0x58 := x
          exact ⟨text "0X", by simp, rfl⟩
  case isFalse => exact ⟨[], by simp, rfl⟩

theorem parseHexUint64_complete {maximumDigits : Byte} (small : maximumDigits.toNat ≤ 16) {word : List Byte}
    {number : Nat} (hex : HexNumber maximumDigits.toNat word number) :
    ∃ value, parseHexUint64 word maximumDigits = some value ∧ value.toNat = number := by
  obtain @⟨start, digits, values, front, digits_, some_, few⟩ := hex
  have room : (0 : Byte).toNat + digits.length ≤ maximumDigits.toNat := by rwa [show (0 : Byte).toNat = 0 from rfl,
    Nat.zero_add]
  obtain ⟨value, count, run, total, counted⟩ :=
    parseHexDigits_complete small digits_ 0 0 (by decide) room
  refine ⟨value, ?_, by rw [total]; simp⟩
  have counted' : count ≠ 0 := by
    rintro rfl
    rw [show (0 : Byte).toNat = 0 from rfl] at counted
    omega
  rw [parseHexUint64, skipMark_append front digits_, run]
  exact if_neg counted'

theorem parseHexUint64_sound {maximumDigits : Byte} (small : maximumDigits.toNat ≤ 16) {word : List Byte}
    {value : BitVec 64}
    (parsed : parseHexUint64 word maximumDigits = some value) : HexNumber maximumDigits.toNat word value.toNat := by
  obtain ⟨start, front, split⟩ := exists_append_skipMark word
  unfold parseHexUint64 at parsed
  generalize skipMark word = digits at parsed split
  subst split
  cases loop : parseHexDigits maximumDigits digits 0 0 with
  | none =>
    rw [loop] at parsed
    cases parsed
  | some last =>
    rw [loop] at parsed
    obtain ⟨⟨values, digits_⟩, few⟩ := parseHexDigits_sound (Nat.zero_le _) loop
    obtain ⟨result, count, run, total, counted⟩ := parseHexDigits_complete small digits_ 0 0 (by decide) few
    obtain rfl : (result, count) = last := Option.some.inj (run.symm.trans loop)
    dsimp only at parsed
    split at parsed
    · cases parsed
    case isFalse more =>
      obtain rfl := Option.some.inj parsed
      have some_ : 1 ≤ digits.length := by
        refine Nat.one_le_iff_ne_zero.mpr fun empty => more (BitVec.eq_of_toNat_eq ?_)
        rw [counted, empty]
        rfl
      have number : result.toNat = Nat.ofDigits 16 values.reverse := by
        rw [total]
        simp
      rw [number]
      rw [show (0 : Byte).toNat = 0 from rfl, Nat.zero_add] at few
      exact .intro front digits_ some_ few

theorem parseHexUint64_iff {maximumDigits : Byte} (small : maximumDigits.toNat ≤ 16) (word : List Byte)
    (value : BitVec 64) :
    parseHexUint64 word maximumDigits = some value ↔ HexNumber maximumDigits.toNat word value.toNat := by
  constructor
  · exact parseHexUint64_sound small
  · intro hex
    obtain ⟨value', parsed, same⟩ := parseHexUint64_complete small hex
    rw [parsed, BitVec.eq_of_toNat_eq same]

theorem HexNumber.unique {most : Nat} {word : List Byte} {number number' : Nat} (small : most ≤ 16)
    (hex : HexNumber most word number) (hex' : HexNumber most word number') : number = number' := by
  have digits : (BitVec.ofNat 8 most).toNat = most := by
    rw [BitVec.toNat_ofNat]
    omega
  rw [← digits] at hex hex' small
  obtain ⟨value, parsed, rfl⟩ := parseHexUint64_complete small hex
  obtain ⟨value', parsed', rfl⟩ := parseHexUint64_complete small hex'
  rw [Option.some.inj (parsed.symm.trans parsed')]

end Cc1310Firmware.Radio
