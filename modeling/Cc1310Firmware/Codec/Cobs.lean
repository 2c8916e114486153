import Cc1310Firmware.Codec.LittleEndian

/-! Consistent overhead byte stuffing.

A message is cut into blocks without zero bytes. A block is sent behind a code
byte that is one more than its length; code 0xFF marks a full block, after which
no zero is implied. So an encoding contains no zero byte.
-/

set_option autoImplicit false

namespace Cobs

/-- The data bytes of a full block. -/
def fullBlock : Nat := 254

def codeOf (block : List Byte) : Byte := BitVec.ofNat 8 (block.length + 1)

/-- Encode what follows the open block. -/
def encodeFrom : List Byte → List Byte → List Byte
  | block, [] => codeOf block :: block
  | block, byte :: rest =>
    if byte = 0 then codeOf block :: block ++ encodeFrom [] rest
    else if block.length + 1 = fullBlock then codeOf (block ++ [byte]) :: (block ++ [byte]) ++ encodeFrom [] rest
    else encodeFrom (block ++ [byte]) rest

def encode (data : List Byte) : List Byte := encodeFrom [] data

/-- What a block with this code stands for in front of the rest of the message. -/
def join (code : Byte) (block rest tail : List Byte) : List Byte :=
  if code ≠ 0xFF ∧ rest ≠ [] then block ++ 0 :: tail else block ++ tail

def decode : List Byte → Option (List Byte)
  | [] => some []
  | code :: rest =>
    if code = 0 ∨ rest.length < code.toNat - 1 then none
    else (decode (rest.drop (code.toNat - 1))).map
      (join code (rest.take (code.toNat - 1)) (rest.drop (code.toNat - 1)))
termination_by encoded => encoded.length
decreasing_by
  rw [List.length_drop, List.length_cons]
  omega

@[simp] theorem decode_nil : decode [] = some [] := by
  unfold decode
  rfl

theorem decode_cons (code : Byte) (rest : List Byte) : decode (code :: rest) =
    if code = 0 ∨ rest.length < code.toNat - 1 then none
    else (decode (rest.drop (code.toNat - 1))).map
      (join code (rest.take (code.toNat - 1)) (rest.drop (code.toNat - 1))) := by
  conv => lhs; unfold decode

theorem toNat_codeOf {block : List Byte} (short : block.length ≤ fullBlock) :
    (codeOf block).toNat = block.length + 1 := by
  simp only [fullBlock] at short
  rw [codeOf, BitVec.toNat_ofNat]
  exact Nat.mod_eq_of_lt (by omega)

theorem codeOf_ne_zero {block : List Byte} (short : block.length ≤ fullBlock) : codeOf block ≠ 0 := by
  intro zero
  have code := toNat_codeOf short
  rw [zero] at code
  exact absurd code.symm (Nat.succ_ne_zero _)

theorem codeOf_eq_full {block : List Byte} (short : block.length ≤ fullBlock) :
    codeOf block = 0xFF ↔ block.length = fullBlock := by
  rw [← BitVec.toNat_inj, toNat_codeOf short]
  exact Nat.succ_inj

/-- One encoded block in front of the rest of the message. -/
theorem decode_block {block : List Byte} (short : block.length ≤ fullBlock) (rest : List Byte) :
    decode (codeOf block :: block ++ rest) = (decode rest).map (join (codeOf block) block rest) := by
  have length : (codeOf block).toNat - 1 = block.length := by rw [toNat_codeOf short, Nat.add_sub_cancel]
  have whole : ¬ (codeOf block = 0 ∨ (block ++ rest).length < block.length) := by
    rw [not_or]
    exact ⟨codeOf_ne_zero short, by simp⟩
  rw [List.cons_append, decode_cons, length, if_neg whole, List.take_left, List.drop_left]

theorem encodeFrom_ne_nil (block data : List Byte) : encodeFrom block data ≠ [] := by
  induction data generalizing block with
  | nil => simp [encodeFrom]
  | cons byte rest ih =>
    unfold encodeFrom
    split
    · simp
    · split
      · simp
      · exact ih _

/-- Decoding inverts encoding, from any open block. -/
theorem decode_encodeFrom (block data : List Byte) (short : block.length < fullBlock) :
    decode (encodeFrom block data) = some (block ++ data) := by
  induction data generalizing block with
  | nil =>
    have last := decode_block (Nat.le_of_lt short) []
    rw [List.append_nil] at last
    simp [encodeFrom, last, join]
  | cons byte rest ih =>
    have empty : ([] : List Byte).length < fullBlock := by decide
    unfold encodeFrom
    split
    case isTrue zero =>
      have partial_ : codeOf block ≠ 0xFF := fun full =>
        absurd ((codeOf_eq_full (Nat.le_of_lt short)).mp full) (Nat.ne_of_lt short)
      rw [decode_block (Nat.le_of_lt short), ih [] empty, Option.map_some, join,
        if_pos ⟨partial_, encodeFrom_ne_nil [] rest⟩, zero]
      rfl
    case isFalse =>
      split
      case isTrue full =>
        have length : (block ++ [byte]).length = fullBlock := by simpa using full
        have code := (codeOf_eq_full (Nat.le_of_eq length)).mpr length
        rw [decode_block (Nat.le_of_eq length), ih [] empty]
        simp [join, code]
      case isFalse more =>
        rw [ih _ (by simp; omega)]
        simp

theorem decode_encode (data : List Byte) : decode (encode data) = some data :=
  decode_encodeFrom [] data (by decide)

/-- Decoding never lengthens a message. -/
theorem length_decode_le (encoded : List Byte) :
    ∀ data, decode encoded = some data → data.length ≤ encoded.length := by
  fun_induction decode encoded with
  | case1 =>
    rintro _ ⟨⟩
    exact Nat.le_refl _
  | case2 => rintro _ ⟨⟩
  | case3 code rest good ih =>
    intro data decoded
    obtain ⟨tail, decodedTail, rfl⟩ := Option.map_eq_some_iff.mp decoded
    have shorter := ih tail decodedTail
    have block := congrArg List.length (List.take_append_drop (code.toNat - 1) rest)
    rw [List.length_append] at block
    unfold join
    split <;> simp only [List.length_append, List.length_cons] <;> omega

/-- One code byte for each block of at most 254 data bytes. -/
theorem length_encodeFrom (block data : List Byte) (open_ : block.length < fullBlock) :
    (encodeFrom block data).length ≤ block.length + data.length + (block.length + data.length) / fullBlock + 1 := by
  unfold fullBlock at *
  induction data generalizing block with
  | nil => simp [encodeFrom]
  | cons byte rest ih =>
    unfold encodeFrom fullBlock
    split
    · have rest' := ih [] (Nat.succ_pos _)
      simp only [List.cons_append, List.length_cons, List.length_append, List.length_nil] at rest' ⊢
      omega
    · split
      · have rest' := ih [] (Nat.succ_pos _)
        simp only [List.cons_append, List.length_cons, List.length_append, List.length_nil] at rest' ⊢
        omega
      · have rest' := ih (block ++ [byte]) (by rw [List.length_append, List.length_singleton]; omega)
        simp only [List.length_cons, List.length_append, List.length_nil] at rest' ⊢
        omega

theorem length_lt_encodeFrom (block data : List Byte) :
    block.length + data.length < (encodeFrom block data).length := by
  induction data generalizing block with
  | nil => simp [encodeFrom]
  | cons byte rest ih =>
    have again := ih []
    have more := ih (block ++ [byte])
    simp only [List.length_append, List.length_nil, List.length_cons] at again more ⊢
    unfold encodeFrom
    split
    · simp only [List.cons_append, List.length_cons, List.length_append]
      omega
    · split
      · simp only [List.cons_append, List.length_cons, List.length_append, List.length_nil]
        omega
      · omega

theorem length_encode_le (data : List Byte) : (encode data).length ≤ data.length + data.length / fullBlock + 1 := by
  have bound := length_encodeFrom [] data (by decide)
  rwa [List.length_nil, Nat.zero_add] at bound

/-- Data shorter than a full block costs one byte. -/
theorem length_encode_short {data : List Byte} (short : data.length < fullBlock) :
    (encode data).length = data.length + 1 := by
  have upper := length_encode_le data
  have lower := length_lt_encodeFrom [] data
  rw [Nat.div_eq_of_lt short] at upper
  rw [List.length_nil, Nat.zero_add] at lower
  exact Nat.le_antisymm upper lower

theorem encodeFrom_nonzero (block data : List Byte) (short : block.length < fullBlock)
    (nonzero : ∀ b ∈ block, b ≠ 0) :
    ∀ b ∈ encodeFrom block data, b ≠ 0 := by
  induction data generalizing block with
  | nil =>
    unfold encodeFrom
    simpa using ⟨codeOf_ne_zero (Nat.le_of_lt short), nonzero⟩
  | cons byte rest ih =>
    have again := ih [] (by decide) (by simp)
    unfold encodeFrom
    split
    case isTrue =>
      intro b member
      rcases List.mem_append.mp member with front | rear
      · rcases List.mem_cons.mp front with rfl | inside
        · exact codeOf_ne_zero (Nat.le_of_lt short)
        · exact nonzero b inside
      · exact again b rear
    case isFalse some_ =>
      -- the byte goes into the block, which is closed when it is full
      have longer : ∀ b ∈ block ++ [byte], b ≠ 0 := by
        intro b member
        rcases List.mem_append.mp member with old | new
        · exact nonzero b old
        · rw [List.mem_singleton.mp new]
          exact some_
      split
      case isTrue full =>
        have length : (block ++ [byte]).length ≤ fullBlock := by simp; omega
        intro b member
        rcases List.mem_append.mp member with front | rear
        · rcases List.mem_cons.mp front with rfl | inside
          · exact codeOf_ne_zero length
          · exact longer b inside
        · exact again b rear
      case isFalse more => exact ih _ (by simp; omega) longer

theorem encode_nonzero (data : List Byte) : ∀ b ∈ encode data, b ≠ 0 :=
  encodeFrom_nonzero [] data (by decide) (by simp)

end Cobs
