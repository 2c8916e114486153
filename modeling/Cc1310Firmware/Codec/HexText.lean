import Cc1310Firmware.Codec.LittleEndian
import Mathlib.Data.Char

/-! Bytes as hexadecimal text, and text as lines, as the methods of Python's bytes and str have them. -/

set_option autoImplicit false

namespace HexText

/-! ### Digits -/

/-- The value of a hexadecimal digit, in either letter case. -/
def digitValue (c : Char) : Option Nat :=
  if 48 ≤ c.toNat ∧ c.toNat ≤ 57 then some (c.toNat - 48)
  else if 65 ≤ c.toNat ∧ c.toNat ≤ 70 then some (c.toNat - 55)
  else if 97 ≤ c.toNat ∧ c.toNat ≤ 102 then some (c.toNat - 87)
  else none

/-- The ASCII white space. -/
def isBlank (c : Char) : Bool := c.toNat == 32 || decide (9 ≤ c.toNat ∧ c.toNat ≤ 13)

/-- data.hex() -/
def hex (data : List Byte) : List Char :=
  data.flatMap fun byte => [Nat.digitChar (byte.toNat / 16), Nat.digitChar (byte.toNat % 16)]

/-- text.upper(), for text in ASCII -/
def upper (text : List Char) : List Char := text.map Char.toUpper

/-- bytes.fromhex(text): white space is skipped between two bytes, not inside one. -/
def fromHex : List Char → Option (List Byte)
  | [] => some []
  | [c] => if isBlank c then some [] else none
  | c :: d :: rest =>
    if isBlank c then fromHex (d :: rest)
    else do
      let high ← digitValue c
      let low ← digitValue d
      let data ← fromHex rest
      return BitVec.ofNat 8 (16 * high + low) :: data

/-! ### Lines -/

/-- The characters that str.splitlines takes for line ends. -/
def isLineEnd (c : Char) : Bool :=
  decide (10 ≤ c.toNat ∧ c.toNat ≤ 13) || decide (28 ≤ c.toNat ∧ c.toNat ≤ 30) ||
  c.toNat == 0x85 || c.toNat == 0x2028 || c.toNat == 0x2029

/-- splitlines behind the start of a line; a CR in front of an LF ends no line of its own. -/
def splitlinesFrom (line : List Char) : List Char → List (List Char)
  | [] => if line.isEmpty then [] else [line]
  | c :: rest =>
    if c = '\r' ∧ rest.head? = some '\n' then splitlinesFrom line rest
    else if isLineEnd c then line :: splitlinesFrom [] rest
    else splitlinesFrom (line ++ [c]) rest

/-- text.splitlines() -/
def splitlines (text : List Char) : List (List Char) := splitlinesFrom [] text

/-! ### Round trips -/

/-- A digit as it is written. -/
structure WrittenDigit (n : Nat) (c : Char) : Prop where
  value : digitValue c = some n
  noBlank : isBlank c = false
  noLineEnd : isLineEnd c = false

theorem writtenDigit_upper {n : Nat} (digit : n < 16) : WrittenDigit n (Nat.digitChar n).toUpper := by
  have all : ∀ n < 16, digitValue (Nat.digitChar n).toUpper = some n ∧ isBlank (Nat.digitChar n).toUpper = false ∧
      isLineEnd (Nat.digitChar n).toUpper = false := by decide
  obtain ⟨value, noBlank, noLineEnd⟩ := all n digit
  exact ⟨value, noBlank, noLineEnd⟩

theorem high_lt (byte : Byte) : byte.toNat / 16 < 16 := by
  have bound := byte.isLt
  omega

theorem low_lt (byte : Byte) : byte.toNat % 16 < 16 := Nat.mod_lt _ (by decide)

/-- Two digits in front. -/
theorem fromHex_pair {c d : Char} {high low : Nat} (noBlank : isBlank c = false) (high_ : digitValue c = some high)
    (low_ : digitValue d = some low) (rest : List Char) :
    fromHex (c :: d :: rest) = (fromHex rest).map (BitVec.ofNat 8 (16 * high + low) :: ·) := by
  rw [fromHex, noBlank, if_neg Bool.false_ne_true, high_, low_]
  simp only [Option.bind_eq_bind, Option.bind_some]
  cases fromHex rest with
  | none => rfl
  | some data => rfl

theorem fromHex_byte {c d : Char} {byte : Byte} (high : WrittenDigit (byte.toNat / 16) c)
    (low : WrittenDigit (byte.toNat % 16) d) (rest : List Char) :
    fromHex (c :: d :: rest) = (fromHex rest).map (byte :: ·) := by
  have whole : BitVec.ofNat 8 (16 * (byte.toNat / 16) + byte.toNat % 16) = byte := by
    rw [Nat.div_add_mod, BitVec.ofNat_toNat, BitVec.setWidth_eq]
  rw [fromHex_pair high.noBlank high.value low.value, whole]

theorem upper_hex_cons (byte : Byte) (data : List Byte) : upper (hex (byte :: data)) =
    (Nat.digitChar (byte.toNat / 16)).toUpper :: (Nat.digitChar (byte.toNat % 16)).toUpper :: upper (hex data) :=
      rfl

theorem fromHex_upper_hex (data : List Byte) : fromHex (upper (hex data)) = some data := by
  induction data with
  | nil => rfl
  | cons byte data ih =>
    rw [upper_hex_cons, fromHex_byte (writtenDigit_upper (high_lt byte)) (writtenDigit_upper (low_lt byte)), ih]
    rfl

theorem upper_hex_noLineEnd (data : List Byte) : ∀ c ∈ upper (hex data), isLineEnd c = false := by
  induction data with
  | nil => exact fun c member => absurd member List.not_mem_nil
  | cons byte data ih =>
    rw [upper_hex_cons]
    intro c member
    rcases List.mem_cons.mp member with rfl | member
    · exact (writtenDigit_upper (high_lt byte)).noLineEnd
    · rcases List.mem_cons.mp member with rfl | member
      · exact (writtenDigit_upper (low_lt byte)).noLineEnd
      · exact ih c member

/-- A digit, however it is written. -/
theorem writtenDigit_of_value {c : Char} {n : Nat} (value : digitValue c = some n) : WrittenDigit n c ∧ n < 16 := by
  have known : (48 ≤ c.toNat ∧ c.toNat ≤ 57 ∨ 65 ≤ c.toNat ∧ c.toNat ≤ 70 ∨ 97 ≤ c.toNat ∧ c.toNat ≤ 102) ∧
      n < 16 := by
    unfold digitValue at value
    split at value
    · cases value
      omega
    · split at value
      · cases value
        omega
      · split at value
        · cases value
          omega
        · cases value
  refine ⟨⟨value, ?_, ?_⟩, known.2⟩
  · simp only [isBlank, Bool.or_eq_false_iff, beq_eq_false_iff_ne, decide_eq_false_iff_not]
    omega
  · simp only [isLineEnd, Bool.or_eq_false_iff, beq_eq_false_iff_ne, decide_eq_false_iff_not]
    omega

/-- A byte with another digit. -/
theorem ofNat_ne_of_digit {byte : Byte} {high low : Nat} (high_ : high < 16) (low_ : low < 16)
    (other : high ≠ byte.toNat / 16 ∨ low ≠ byte.toNat % 16) : BitVec.ofNat 8 (16 * high + low) ≠ byte := by
  intro same
  have number := congrArg BitVec.toNat same
  rw [BitVec.toNat_ofNat] at number
  have bound := byte.isLt
  omega

/-- Text with another value for one digit is read with another value for one byte. -/
theorem fromHex_change {data : List Byte} {before after : List Char} {c c' : Char} {n n' : Nat}
    (text : upper (hex data) = before ++ c :: after) (value : digitValue c = some n)
    (value' : digitValue c' = some n') (other : n' ≠ n) : ∃ front byte byte' back, data = front ++ byte :: back ∧
      fromHex (before ++ c' :: after) = some (front ++ byte' :: back) ∧ byte' ≠ byte := by
  obtain ⟨written, small⟩ := writtenDigit_of_value value'
  induction data generalizing before with
  | nil => exact absurd text.symm (List.append_ne_nil_of_right_ne_nil _ (List.cons_ne_nil _ _))
  | cons byte data ih =>
    have high := writtenDigit_upper (high_lt byte)
    have low := writtenDigit_upper (low_lt byte)
    rw [upper_hex_cons] at text
    rcases before with _ | ⟨d, _ | ⟨e, before⟩⟩
    · -- the high digit
      obtain ⟨rfl, rfl⟩ := List.cons.inj text
      have old : byte.toNat / 16 = n := Option.some.inj (high.value.symm.trans value)
      refine ⟨[], byte, BitVec.ofNat 8 (16 * n' + byte.toNat % 16), data, rfl, ?_, ?_⟩
      · rw [List.nil_append, fromHex_pair written.noBlank value' low.value, fromHex_upper_hex]
        rfl
      · exact ofNat_ne_of_digit small (low_lt byte) (.inl fun same => other (same.trans old))
    · -- the low digit
      obtain ⟨rfl, second⟩ := List.cons.inj text
      obtain ⟨rfl, rfl⟩ := List.cons.inj second
      have old : byte.toNat % 16 = n := Option.some.inj (low.value.symm.trans value)
      refine ⟨[], byte, BitVec.ofNat 8 (16 * (byte.toNat / 16) + n'), data, rfl, ?_, ?_⟩
      · rw [List.singleton_append, fromHex_pair high.noBlank high.value value', fromHex_upper_hex]
        rfl
      · exact ofNat_ne_of_digit (high_lt byte) small (.inr fun same => other (same.trans old))
    · obtain ⟨rfl, second⟩ := List.cons.inj text
      obtain ⟨rfl, rest⟩ := List.cons.inj second
      obtain ⟨front, old, new, back, rfl, read, differs⟩ := ih rest
      refine ⟨byte :: front, old, new, back, rfl, ?_, differs⟩
      rw [List.cons_append, List.cons_append, fromHex_byte high low, read]
      rfl

theorem splitlinesFrom_line {body : List Char} (whole : ∀ c ∈ body, isLineEnd c = false) (line rest : List Char) :
    splitlinesFrom line (body ++ '\n' :: rest) = (line ++ body) :: splitlines rest := by
  induction body generalizing line with
  | nil =>
    have noReturn : ¬ ('\n' = '\r' ∧ rest.head? = some '\n') := fun both => absurd both.1 (by decide)
    rw [List.nil_append, List.append_nil, splitlinesFrom, if_neg noReturn, if_pos (by decide)]
    rfl
  | cons c body ih =>
    obtain ⟨here, others⟩ := List.forall_mem_cons.mp whole
    have noReturn : ¬ (c = '\r' ∧ (body ++ '\n' :: rest).head? = some '\n') := by
      rintro ⟨rfl, _⟩
      cases here
    rw [List.cons_append, splitlinesFrom, if_neg noReturn, here, if_neg Bool.false_ne_true, ih others,
      List.append_assoc]
    rfl

/-- A line in front of the others. -/
theorem splitlines_cons {line : List Char} (whole : ∀ c ∈ line, isLineEnd c = false) (rest : List Char) :
    splitlines (line ++ '\n' :: rest) = line :: splitlines rest :=
  splitlinesFrom_line whole [] rest

end HexText
