import Cc1310Firmware.Bootloader.ProtocolCodec

/-! The COBS loops with the widths that their variables have in C.

While the encoding is shorter than 2^16 bytes no uint16_t index wraps, and the
loops are those over natural numbers.
-/

set_option autoImplicit false

namespace Cc1310Firmware.Bootloader.Uint16

/-- The local variables of cobsEncode. -/
structure CobsEncoder where
  destination : Buffer
  destinationIndex : Half
  codeIndex : Half
  code : Byte

/-- `destination[codeIndex] = code; codeIndex = destinationIndex++; code = 1` -/
def CobsEncoder.close (encoder : CobsEncoder) : CobsEncoder where
  destination := encoder.destination.store encoder.codeIndex.toNat encoder.code
  destinationIndex := encoder.destinationIndex + 1
  codeIndex := encoder.destinationIndex
  code := 1

/-- `destination[destinationIndex++] = byte; ++code` -/
def CobsEncoder.push (encoder : CobsEncoder) (byte : Byte) : CobsEncoder :=
  { encoder with
    destination := encoder.destination.store encoder.destinationIndex.toNat byte
    destinationIndex := encoder.destinationIndex + 1
    code := encoder.code + 1 }

def CobsEncoder.step (encoder : CobsEncoder) (byte : Byte) : CobsEncoder :=
  if byte == 0 then encoder.close
  else if (encoder.push byte).code == 0xFF then (encoder.push byte).close else encoder.push byte

def cobsEncode (source : List Byte) (destination : Buffer) : Buffer × Half :=
  let encoder := source.foldl CobsEncoder.step ⟨destination.store 0 0, 1, 0, 1⟩
  (encoder.destination.store encoder.codeIndex.toNat encoder.code, encoder.destinationIndex)

/-- `count` rounds of `buffer[writeIndex++] = buffer[readIndex++]` -/
def cobsCopy : Nat → Buffer → Half → Half → Buffer
  | 0, buffer, _, _ => buffer
  | count + 1, buffer, readIndex, writeIndex =>
    cobsCopy count (buffer.store writeIndex.toNat (buffer readIndex.toNat)) (readIndex + 1) (writeIndex + 1)

/-- An index moves on without wrapping. -/
theorem toNat_advance {index : Half} {n : Nat} (fits : index.toNat + n < 2 ^ 16) :
    (index + BitVec.ofNat 16 n).toNat = index.toNat + n := by
  rw [BitVec.toNat_add, BitVec.toNat_ofNat, Nat.add_mod_mod, Nat.mod_eq_of_lt fits]

def cobsDecodeLoop (buffer : Buffer) (encodedLength readIndex writeIndex : Half) : Buffer × Option Half :=
  if more : readIndex.toNat < encodedLength.toNat then
    let code := (buffer readIndex.toNat).toNat
    -- the sum is an unsigned int, which does not wrap
    if bad : code = 0 ∨ encodedLength.toNat < (readIndex + 1).toNat + code - 1 then (buffer, none)
    else
      let copied := cobsCopy (code - 1) buffer (readIndex + 1) writeIndex
      let readIndex' := readIndex + 1 + BitVec.ofNat 16 (code - 1)
      let writeIndex' := writeIndex + BitVec.ofNat 16 (code - 1)
      if code ≠ 0xFF ∧ readIndex'.toNat < encodedLength.toNat then
        cobsDecodeLoop (copied.store writeIndex'.toNat 0) encodedLength readIndex' (writeIndex' + 1)
      else cobsDecodeLoop copied encodedLength readIndex' writeIndex'
  else (buffer, some writeIndex)
termination_by encodedLength.toNat - readIndex.toNat
decreasing_by
  all_goals
    have bound := encodedLength.isLt
    have one : (readIndex + 1).toNat = readIndex.toNat + 1 := toNat_advance (n := 1) (by omega)
    rw [one] at bad
    have next : (readIndex + 1 + BitVec.ofNat 16 (code - 1)).toNat = (readIndex + 1).toNat + (code - 1) :=
      toNat_advance (by rw [one]; omega)
    rw [next, one]
    omega

def cobsDecode (buffer : Buffer) (encodedLength : Half) : Buffer × Option Half :=
  cobsDecodeLoop buffer encodedLength 0 0

/-! ### The encoder -/

/-- The variables of the loop over natural numbers, cut to uint16_t. -/
def cut (encoder : Bootloader.CobsEncoder) : CobsEncoder where
  destination := encoder.destination
  destinationIndex := BitVec.ofNat 16 encoder.destinationIndex
  codeIndex := BitVec.ofNat 16 encoder.codeIndex
  code := encoder.code

theorem toNat_index {n : Nat} (fits : n < 2 ^ 16) : (BitVec.ofNat 16 n : Half).toNat = n := by
  rw [BitVec.toNat_ofNat, Nat.mod_eq_of_lt fits]

theorem ofNat_succ (n : Nat) : (BitVec.ofNat 16 n : Half) + 1 = BitVec.ofNat 16 (n + 1) := by
  rw [BitVec.ofNat_add]
  rfl

theorem cut_close {encoder : Bootloader.CobsEncoder} (fits : encoder.codeIndex < 2 ^ 16) :
    (cut encoder).close = cut encoder.close := by
  simp only [cut, CobsEncoder.close, Bootloader.CobsEncoder.close, toNat_index fits, ofNat_succ]

theorem cut_push {encoder : Bootloader.CobsEncoder} (fits : encoder.destinationIndex < 2 ^ 16) (byte : Byte) :
    (cut encoder).push byte = cut (encoder.push byte) := by
  simp only [cut, CobsEncoder.push, Bootloader.CobsEncoder.push, toNat_index fits, ofNat_succ]

/-- The code byte of the open block stands before the next index. -/
def Ordered (encoder : Bootloader.CobsEncoder) : Prop := encoder.codeIndex < encoder.destinationIndex

theorem ordered_step {encoder : Bootloader.CobsEncoder} (ordered : Ordered encoder) (byte : Byte) :
    Ordered (encoder.step byte) ∧ encoder.destinationIndex < (encoder.step byte).destinationIndex := by
  unfold Ordered at *
  unfold Bootloader.CobsEncoder.step
  split
  · simp [Bootloader.CobsEncoder.close]
  · split
    · simp only [Bootloader.CobsEncoder.close, Bootloader.CobsEncoder.push]
      omega
    · simp only [Bootloader.CobsEncoder.push]
      omega

theorem cut_step {encoder : Bootloader.CobsEncoder} (ordered : Ordered encoder) {byte : Byte}
    (fits : (encoder.step byte).destinationIndex < 2 ^ 16) : (cut encoder).step byte = cut (encoder.step byte) := by
  have grows := (ordered_step ordered byte).2
  have code : encoder.codeIndex < 2 ^ 16 := Nat.lt_trans ordered (Nat.lt_trans grows fits)
  have pushed : (encoder.push byte).codeIndex < 2 ^ 16 := code
  unfold CobsEncoder.step Bootloader.CobsEncoder.step
  rw [cut_close code, cut_push (Nat.lt_trans grows fits) byte, cut_close pushed, apply_ite cut, apply_ite cut]
  rfl

theorem length_foldl {encoder : Bootloader.CobsEncoder} (ordered : Ordered encoder) (source : List Byte) :
    Ordered (source.foldl Bootloader.CobsEncoder.step encoder) ∧
    encoder.destinationIndex ≤ (source.foldl Bootloader.CobsEncoder.step encoder).destinationIndex := by
  induction source generalizing encoder with
  | nil => exact ⟨ordered, Nat.le_refl _⟩
  | cons byte rest ih =>
    obtain ⟨ordered', grows⟩ := ordered_step ordered byte
    obtain ⟨last, more⟩ := ih ordered'
    exact ⟨last, Nat.le_trans (Nat.le_of_lt grows) more⟩

theorem cut_foldl {encoder : Bootloader.CobsEncoder} (ordered : Ordered encoder) (source : List Byte)
    (fits : (source.foldl Bootloader.CobsEncoder.step encoder).destinationIndex < 2 ^ 16) :
    source.foldl CobsEncoder.step (cut encoder) = cut (source.foldl Bootloader.CobsEncoder.step encoder) := by
  induction source generalizing encoder with
  | nil => rfl
  | cons byte rest ih =>
    obtain ⟨ordered', _⟩ := ordered_step ordered byte
    have here := Nat.lt_of_le_of_lt (length_foldl ordered' rest).2 fits
    rw [List.foldl_cons, List.foldl_cons, cut_step ordered here]
    exact ih ordered' fits

/-- No index wraps while the encoding fits in a uint16_t. -/
theorem cobsEncode_cut {source : List Byte} {destination : Buffer}
    (fits : (Bootloader.cobsEncode source destination).2 < 2 ^ 16) :
    cobsEncode source destination =
      ((Bootloader.cobsEncode source destination).1,
        BitVec.ofNat 16 (Bootloader.cobsEncode source destination).2) := by
  have ordered : Ordered ⟨destination.store 0 0, 1, 0, 1⟩ := Nat.zero_lt_one
  have loop := cut_foldl ordered source fits
  have index := Nat.lt_trans (length_foldl ordered source).1 fits
  have start : (⟨destination.store 0 0, 1, 0, 1⟩ : CobsEncoder) = cut ⟨destination.store 0 0, 1, 0, 1⟩ := rfl
  unfold cobsEncode Bootloader.cobsEncode
  rw [start, loop]
  simp only [cut, toNat_index index]

/-! ### The decoder -/

theorem cobsCopy_cut (count : Nat) (buffer : Buffer) {readIndex writeIndex : Half}
    (behind : writeIndex.toNat ≤ readIndex.toNat) (fits : readIndex.toNat + count < 2 ^ 16) :
    cobsCopy count buffer readIndex writeIndex =
      Bootloader.cobsCopy count buffer readIndex.toNat writeIndex.toNat := by
  induction count generalizing buffer readIndex writeIndex with
  | zero => rfl
  | succ count ih =>
    have read : (readIndex + 1).toNat = readIndex.toNat + 1 := toNat_advance (n := 1) (by omega)
    have write : (writeIndex + 1).toNat = writeIndex.toNat + 1 := toNat_advance (n := 1) (by omega)
    rw [cobsCopy, Bootloader.cobsCopy, ih _ (by omega) (by omega), read, write]

/-- One block: where the indices get to. -/
theorem block_cut {buffer : Buffer} {encodedLength readIndex writeIndex : Half}
    (behind : writeIndex.toNat ≤ readIndex.toNat) (more : readIndex.toNat < encodedLength.toNat)
    (good : ¬ ((buffer readIndex.toNat).toNat = 0 ∨
      encodedLength.toNat < (readIndex + 1).toNat + (buffer readIndex.toNat).toNat - 1)) :
    let count := (buffer readIndex.toNat).toNat - 1
    (readIndex + 1).toNat = readIndex.toNat + 1 ∧
    (readIndex + 1 + BitVec.ofNat 16 count).toNat = readIndex.toNat + (buffer readIndex.toNat).toNat ∧
    (writeIndex + BitVec.ofNat 16 count).toNat = writeIndex.toNat + count ∧
    cobsCopy count buffer (readIndex + 1) writeIndex =
      Bootloader.cobsCopy count buffer (readIndex.toNat + 1) writeIndex.toNat := by
  intro count
  have bound := encodedLength.isLt
  have one : (readIndex + 1).toNat = readIndex.toNat + 1 := toNat_advance (n := 1) (by omega)
  rw [one] at good
  refine ⟨one, ?_, ?_, ?_⟩
  · rw [toNat_advance (by omega), one]
    omega
  · exact toNat_advance (by omega)
  · rw [cobsCopy_cut _ _ (by omega) (by omega), one]

/-- The loop with uint16_t indices is the loop over natural numbers. -/
theorem cobsDecodeLoop_cut (buffer : Buffer) {encodedLength readIndex writeIndex : Half}
    (behind : writeIndex.toNat ≤ readIndex.toNat) :
    Bootloader.cobsDecodeLoop buffer encodedLength.toNat readIndex.toNat writeIndex.toNat =
      ((cobsDecodeLoop buffer encodedLength readIndex writeIndex).1,
        (cobsDecodeLoop buffer encodedLength readIndex writeIndex).2.map BitVec.toNat) := by
  have bound := encodedLength.isLt
  fun_induction cobsDecodeLoop buffer encodedLength readIndex writeIndex with
  | case1 buffer readIndex writeIndex more code bad =>
    have one : (readIndex + 1).toNat = readIndex.toNat + 1 := toNat_advance (n := 1) (by omega)
    rw [one] at bad
    unfold Bootloader.cobsDecodeLoop
    rw [if_pos more]
    exact if_pos bad
  | case2 buffer readIndex writeIndex more code good copied readIndex' writeIndex' gap ih =>
    obtain ⟨one, (read : readIndex'.toNat = readIndex.toNat + code),
      (write : writeIndex'.toNat = writeIndex.toNat + (code - 1)), copy⟩ := block_cut behind more good
    have next : (writeIndex' + 1).toNat = writeIndex'.toNat + 1 := toNat_advance (n := 1) (by omega)
    have rest := ih (by omega)
    rw [one] at good
    rw [next, write, read] at rest
    rw [read] at gap
    unfold Bootloader.cobsDecodeLoop
    rw [if_pos more]
    dsimp only
    rw [if_neg good, if_pos gap, ← copy, write]
    exact rest
  | case3 buffer readIndex writeIndex more code good copied readIndex' writeIndex' last ih =>
    obtain ⟨one, (read : readIndex'.toNat = readIndex.toNat + code),
      (write : writeIndex'.toNat = writeIndex.toNat + (code - 1)), copy⟩ := block_cut behind more good
    have rest := ih (by omega)
    rw [one] at good
    rw [write, read] at rest
    rw [read] at last
    unfold Bootloader.cobsDecodeLoop
    rw [if_pos more]
    dsimp only
    rw [if_neg good, if_neg last, ← copy]
    exact rest
  | case4 buffer readIndex writeIndex done =>
    unfold Bootloader.cobsDecodeLoop
    rw [if_neg done]
    rfl

theorem cobsDecode_cut (buffer : Buffer) (encodedLength : Half) :
    Bootloader.cobsDecode buffer encodedLength.toNat =
      ((cobsDecode buffer encodedLength).1, (cobsDecode buffer encodedLength).2.map BitVec.toNat) :=
  cobsDecodeLoop_cut buffer (Nat.le_refl (BitVec.toNat 0))

/-! ### Against the COBS code -/

theorem cobsEncode_eq {source : List Byte} (destination : Buffer) (fits : (Cobs.encode source).length < 2 ^ 16) :
    (cobsEncode source destination).2.toNat = (Cobs.encode source).length ∧
    (cobsEncode source destination).1.slice 0 (cobsEncode source destination).2.toNat = Cobs.encode source := by
  have natural := Bootloader.cobsEncode_eq source destination
  have length := congrArg List.length natural
  rw [Buffer.length_slice] at length
  rw [← length] at fits
  rw [cobsEncode_cut fits, toNat_index fits]
  exact ⟨length, natural⟩

theorem cobsDecode_eq {buffer : Buffer} {encoded data : List Byte} (fits : encoded.length < 2 ^ 16)
    (holds : buffer.slice 0 encoded.length = encoded) (decodes : Cobs.decode encoded = some data) :
    (cobsDecode buffer (BitVec.ofNat 16 encoded.length)).2 = some (BitVec.ofNat 16 data.length) ∧
    (cobsDecode buffer (BitVec.ofNat 16 encoded.length)).1.slice 0 data.length = data := by
  obtain ⟨_, decodedLength, contents⟩ := cobsDecode_spec buffer encoded.length
  rw [Nat.sub_zero, holds, decodes] at decodedLength contents
  have natural := cobsDecode_cut buffer (BitVec.ofNat 16 encoded.length)
  rw [toNat_index fits] at natural
  rw [natural] at decodedLength contents
  refine ⟨?_, contents data rfl⟩
  obtain ⟨length, returned, same⟩ := Option.map_eq_some_iff.mp decodedLength
  dsimp only at same
  rw [Nat.zero_add] at same
  rw [returned, ← same, BitVec.ofNat_toNat, BitVec.setWidth_eq]

end Cc1310Firmware.Bootloader.Uint16
