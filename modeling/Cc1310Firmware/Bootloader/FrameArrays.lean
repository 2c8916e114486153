import Cc1310Firmware.Bootloader.CobsIndices
import Cc1310Firmware.Bootloader.Receiver
import Cc1310Firmware.Programs.ArrayCode

/-! The receive path with every access to its arrays. -/

set_option autoImplicit false

namespace Cc1310Firmware.Bootloader.Arrays
open LittleEndian ArrayCode

variable {ι : Type}

/-! ### cobsDecode -/

section
variable [DecidableEq ι]

/-- `for (; copyIndex < code; copyIndex++) buffer[writeIndex++] = buffer[readIndex++]`
and the two indices behind it. -/
def cobsCopy (buffer : ι) (code copyIndex : Byte) (readIndex writeIndex : Half) : Code ι Byte (Half × Half) :=
  if more : copyIndex < code then do
    store buffer writeIndex.toNat (← load buffer readIndex.toNat)
    cobsCopy buffer code (copyIndex + 1) (readIndex + 1) (writeIndex + 1)
  else pure (readIndex, writeIndex)
termination_by code.toNat - copyIndex.toNat
decreasing_by
  have bound := code.isLt
  have next : (copyIndex + 1).toNat = copyIndex.toNat + 1 := by
    rw [BitVec.toNat_add]
    exact Nat.mod_eq_of_lt (Nat.lt_of_le_of_lt (show copyIndex.toNat + 1 ≤ code.toNat from more) bound)
  have more' : copyIndex.toNat < code.toNat := more
  omega

/-- The loop of cobsDecode: the decoded length, with `none` for -1. It is `none` outside
when the loop goes on behind `rounds` rounds. -/
def cobsDecodeLoop (buffer : ι) (encodedLength : Half) : Nat → Half → Half → Code ι Byte (Option (Option Half))
  | 0, _, _ => pure none
  | rounds + 1, readIndex, writeIndex =>
    if readIndex < encodedLength then do
      let code ← load buffer readIndex.toNat
      let readIndex := readIndex + 1
      -- the sum is an unsigned int, which does not wrap
      if code = 0 ∨ encodedLength.toNat < readIndex.toNat + code.toNat - 1 then return some none
      else
        let (readIndex, writeIndex) ← cobsCopy buffer code 1 readIndex writeIndex
        if code ≠ 0xFF ∧ readIndex < encodedLength then
          store buffer writeIndex.toNat 0
          cobsDecodeLoop buffer encodedLength rounds readIndex (writeIndex + 1)
        else cobsDecodeLoop buffer encodedLength rounds readIndex writeIndex
    else return some (some writeIndex)

/-- cobsDecode; a round takes at least one byte. -/
def cobsDecode (buffer : ι) (encodedLength : Half) : Code ι Byte (Option (Option Half)) :=
  cobsDecodeLoop buffer encodedLength (encodedLength.toNat + 1) 0 0

end

/-- A run that works in place on one array: what it returns, what it leaves there, and
how far it reads and writes. -/
structure Works {α : Type} (ran : Ran ι Byte α) (before : Memory ι Byte) (buffer : ι) (value : α)
    (contents : Buffer) (r w r' w' : Nat) : Prop where
  value : ran.value = value
  contents : ran.memory buffer = contents
  others : ∀ other, other ≠ buffer → ran.memory other = before other
  streams : Streams buffer r w ran.log r' w'

section
variable {α γ : Type} {memory : Memory ι Byte} {buffer : ι} {r w r' w' : Nat}

theorem Works.pure (value : α) : Works ((Pure.pure value : Code ι Byte α) memory) memory buffer value
    (memory buffer) r w r w :=
  ⟨rfl, rfl, fun _ _ => rfl, .nil⟩

theorem Works.load : Works (load buffer r memory) memory buffer (memory buffer r) (memory buffer) r w (r + 1) w :=
  ⟨rfl, rfl, fun _ _ => rfl, .load .nil⟩

theorem Works.store [DecidableEq ι] (byte : Byte) (behind : w < r) :
    Works (store buffer w byte memory) memory buffer () (Buffer.store (memory buffer) w byte) r w r (w + 1) :=
  ⟨rfl, memory.store_same .., fun _ ne => memory.store_of_ne _ _ ne, .store behind .nil⟩

theorem Works.bind {code : Code ι Byte α} {next : α → Code ι Byte γ} {value : α} {value' : γ}
    {contents contents' : Buffer} {r'' w'' : Nat}
    (first : Works (code memory) memory buffer value contents r w r' w')
    (second : Works (next value (code memory).memory) (code memory).memory buffer value' contents' r' w' r'' w'') :
    Works ((code >>= next) memory) memory buffer value' contents' r w r'' w'' := by
  rw [run_bind, first.value]
  exact ⟨second.value, second.contents, fun other ne => (second.others other ne).trans (first.others other ne),
    first.streams.append second.streams⟩

end

variable [DecidableEq ι]

theorem cobsCopy_works (buffer : ι) {code copyIndex : Byte} {readIndex writeIndex : Half} {count : Nat}
    (memory : Memory ι Byte) (left : copyIndex.toNat + count = code.toNat)
    (behind : writeIndex.toNat ≤ readIndex.toNat) (fits : readIndex.toNat + count < 2 ^ 16) :
    Works (cobsCopy buffer code copyIndex readIndex writeIndex memory) memory buffer
      (readIndex + BitVec.ofNat 16 count, writeIndex + BitVec.ofNat 16 count)
      (Uint16.cobsCopy count (memory buffer) readIndex writeIndex) readIndex.toNat writeIndex.toNat
      (readIndex.toNat + count) (writeIndex.toNat + count) := by
  induction count generalizing memory copyIndex readIndex writeIndex with
  | zero =>
    have done : ¬ copyIndex < code := fun more => by
      have more' : copyIndex.toNat < code.toNat := more
      omega
    unfold cobsCopy
    rw [dif_neg done]
    exact ⟨by simp, rfl, fun _ _ => rfl, .nil⟩
  | succ count ih =>
    have bound := code.isLt
    have more : copyIndex < code := show copyIndex.toNat < code.toNat by omega
    have next : (copyIndex + 1).toNat = copyIndex.toNat + 1 := by
      rw [BitVec.toNat_add]
      exact Nat.mod_eq_of_lt (show copyIndex.toNat + 1 < 2 ^ 8 by omega)
    have read : (readIndex + 1).toNat = readIndex.toNat + 1 := Uint16.toNat_advance (n := 1) (by omega)
    have write : (writeIndex + 1).toNat = writeIndex.toNat + 1 := Uint16.toNat_advance (n := 1) (by omega)
    have one : ∀ index : Half, index + 1 + BitVec.ofNat 16 count = index + BitVec.ofNat 16 (count + 1) := by
      intro index
      rw [← Uint16.ofNat_succ, BitVec.add_assoc, BitVec.add_comm 1]
    have left' : (copyIndex + 1).toNat + count = code.toNat := by omega
    have rest := ih (memory.store buffer writeIndex.toNat (memory buffer readIndex.toNat)) left'
      (show (writeIndex + 1).toNat ≤ (readIndex + 1).toNat by omega) (by omega)
    rw [one, one, read, write, Memory.store_same] at rest
    unfold cobsCopy
    rw [dif_pos more]
    refine ⟨rest.value, rest.contents, ?_, ?_⟩
    · intro other ne
      exact (rest.others other ne).trans (Memory.store_of_ne _ _ _ ne)
    · have streams := rest.streams
      rw [Nat.add_assoc, Nat.add_comm 1, Nat.add_assoc, Nat.add_comm 1] at streams
      exact .load (.store (by omega) streams)

/-- The copy loop of one block. -/
theorem block_works (buffer : ι) {encodedLength readIndex writeIndex : Half} (memory : Memory ι Byte)
    (behind : writeIndex.toNat ≤ readIndex.toNat) (more : readIndex.toNat < encodedLength.toNat)
    (good : ¬ ((memory buffer readIndex.toNat).toNat = 0 ∨
      encodedLength.toNat < (readIndex + 1).toNat + (memory buffer readIndex.toNat).toNat - 1)) :
    let count := (memory buffer readIndex.toNat).toNat - 1
    Works (cobsCopy buffer (memory buffer readIndex.toNat) 1 (readIndex + 1) writeIndex memory) memory buffer
      (readIndex + 1 + BitVec.ofNat 16 count, writeIndex + BitVec.ofNat 16 count)
      (Uint16.cobsCopy count (memory buffer) (readIndex + 1) writeIndex) (readIndex.toNat + 1) writeIndex.toNat
      (readIndex + 1 + BitVec.ofNat 16 count).toNat (writeIndex + BitVec.ofNat 16 count).toNat := by
  intro count
  have bound := encodedLength.isLt
  obtain ⟨one, read, write, _⟩ := Uint16.block_cut behind more good
  rw [one] at good
  have one' : (1 : Byte).toNat = 1 := rfl
  have copy := @cobsCopy_works _ _ buffer (memory buffer readIndex.toNat) 1 (readIndex + 1) writeIndex count memory
    (by omega) (by omega) (by omega)
  rw [one] at copy
  rw [read, write, show readIndex.toNat + (memory buffer readIndex.toNat).toNat = readIndex.toNat + 1 + count by omega]
  exact copy

/-- One round of the loop, up to the zero byte behind the block. -/
theorem round_works (buffer : ι) {encodedLength readIndex writeIndex : Half} {rounds : Nat} (memory : Memory ι Byte)
    (behind : writeIndex.toNat ≤ readIndex.toNat) (more : readIndex.toNat < encodedLength.toNat)
    (good : ¬ ((memory buffer readIndex.toNat).toNat = 0 ∨
      encodedLength.toNat < (readIndex + 1).toNat + (memory buffer readIndex.toNat).toNat - 1)) :
    let count := (memory buffer readIndex.toNat).toNat - 1
    let readIndex' := readIndex + 1 + BitVec.ofNat 16 count
    let writeIndex' := writeIndex + BitVec.ofNat 16 count
    let copied := (cobsCopy buffer (memory buffer readIndex.toNat) 1 (readIndex + 1) writeIndex memory).memory
    ∀ {value : Option (Option Half)} {contents : Buffer} {r' w' : Nat},
      Works ((if memory buffer readIndex.toNat ≠ 0xFF ∧ readIndex' < encodedLength then do
          store buffer writeIndex'.toNat 0
          cobsDecodeLoop buffer encodedLength rounds readIndex' (writeIndex' + 1)
        else cobsDecodeLoop buffer encodedLength rounds readIndex' writeIndex') copied)
        copied buffer value contents readIndex'.toNat writeIndex'.toNat r' w' →
      Works (cobsDecodeLoop buffer encodedLength (rounds + 1) readIndex writeIndex memory) memory buffer value contents
        readIndex.toNat writeIndex.toNat r' w' := by
  intro count readIndex' writeIndex' copied value contents r' w' rest
  have good' : ¬ (memory buffer readIndex.toNat = 0 ∨
      encodedLength.toNat < (readIndex + 1).toNat + (memory buffer readIndex.toNat).toNat - 1) := by
    rwa [← BitVec.toNat_inj]
  unfold cobsDecodeLoop
  rw [if_pos (show readIndex < encodedLength from more)]
  refine Works.load.bind ?_
  dsimp only
  rw [if_neg good']
  exact (block_works buffer memory behind more good).bind rest

/-- The loop comes to its end and does what the loop without a log does. -/
theorem cobsDecodeLoop_works (buffer : ι) {encodedLength readIndex writeIndex : Half} {rounds : Nat}
    (memory : Memory ι Byte) (enough : encodedLength.toNat - readIndex.toNat < rounds)
    (behind : writeIndex.toNat ≤ readIndex.toNat) (inside : readIndex.toNat ≤ encodedLength.toNat) :
    ∃ r' w', r' ≤ encodedLength.toNat ∧
      Works (cobsDecodeLoop buffer encodedLength rounds readIndex writeIndex memory) memory buffer
        (some (Uint16.cobsDecodeLoop (memory buffer) encodedLength readIndex writeIndex).2)
        (Uint16.cobsDecodeLoop (memory buffer) encodedLength readIndex writeIndex).1
        readIndex.toNat writeIndex.toNat r' w' := by
  have bound := encodedLength.isLt
  obtain ⟨contents, same⟩ : ∃ contents, contents = memory buffer := ⟨_, rfl⟩
  rw [← same]
  -- along the recursion of the loop over uint16_t indices, in any memory that holds the bytes
  revert rounds memory
  fun_induction Uint16.cobsDecodeLoop contents encodedLength readIndex writeIndex with
  | case1 contents readIndex writeIndex more code bad =>
    intro rounds memory enough same
    obtain ⟨rounds, rfl⟩ := Nat.exists_eq_succ_of_ne_zero (Nat.ne_zero_of_lt enough)
    subst same
    have bad' : memory buffer readIndex.toNat = 0 ∨
        encodedLength.toNat < (readIndex + 1).toNat + (memory buffer readIndex.toNat).toNat - 1 := by
      rwa [← BitVec.toNat_inj]
    refine ⟨readIndex.toNat + 1, writeIndex.toNat, more, ?_⟩
    unfold cobsDecodeLoop
    rw [if_pos (show readIndex < encodedLength from more)]
    refine Works.load.bind ?_
    dsimp only
    rw [if_pos bad']
    exact Works.pure _
  | case2 =>
    rename_i contents readIndex writeIndex more code good copied readIndex' writeIndex' gap ih
    intro rounds memory enough same
    obtain ⟨rounds, rfl⟩ := Nat.exists_eq_succ_of_ne_zero (Nat.ne_zero_of_lt enough)
    subst same
    obtain ⟨one, (read : readIndex'.toNat = readIndex.toNat + code),
      (write : writeIndex'.toNat = writeIndex.toNat + (code - 1)), _⟩ := Uint16.block_cut behind more good
    have next : (writeIndex' + 1).toNat = writeIndex'.toNat + 1 := Uint16.toNat_advance (n := 1) (by omega)
    have copy := block_works buffer memory behind more good
    have gap' : memory buffer readIndex.toNat ≠ 0xFF ∧ readIndex' < encodedLength :=
      ⟨fun full => gap.1 (congrArg BitVec.toNat full), gap.2⟩
    have fewer : encodedLength.toNat - readIndex'.toNat < rounds := by omega
    have place : writeIndex'.toNat < readIndex'.toNat := by omega
    obtain ⟨r', w', bounded, rest⟩ := ih (by omega) (by omega)
      (Memory.store (cobsCopy buffer (memory buffer readIndex.toNat) 1 (readIndex + 1) writeIndex memory).memory
        buffer writeIndex'.toNat 0) fewer (by rw [Memory.store_same, copy.contents]; rfl)
    refine ⟨r', w', bounded, round_works buffer memory behind more good ?_⟩
    rw [if_pos gap']
    refine (Works.store 0 place).bind ?_
    rw [next] at rest
    exact rest
  | case3 =>
    rename_i contents readIndex writeIndex more code good copied readIndex' writeIndex' last ih
    intro rounds memory enough same
    obtain ⟨rounds, rfl⟩ := Nat.exists_eq_succ_of_ne_zero (Nat.ne_zero_of_lt enough)
    subst same
    obtain ⟨one, (read : readIndex'.toNat = readIndex.toNat + code),
      (write : writeIndex'.toNat = writeIndex.toNat + (code - 1)), _⟩ := Uint16.block_cut behind more good
    have copy := block_works buffer memory behind more good
    have fewer : encodedLength.toNat - readIndex'.toNat < rounds := by omega
    have last' : ¬ (memory buffer readIndex.toNat ≠ 0xFF ∧ readIndex' < encodedLength) := fun gap =>
      last ⟨fun full => gap.1 (BitVec.eq_of_toNat_eq full), gap.2⟩
    obtain ⟨r', w', bounded, rest⟩ := ih (by omega) (by omega) _ fewer copy.contents.symm
    refine ⟨r', w', bounded, round_works buffer memory behind more good ?_⟩
    rw [if_neg last']
    exact rest
  | case4 contents readIndex writeIndex done =>
    intro rounds memory enough same
    obtain ⟨rounds, rfl⟩ := Nat.exists_eq_succ_of_ne_zero (Nat.ne_zero_of_lt enough)
    refine ⟨readIndex.toNat, writeIndex.toNat, inside, ?_⟩
    unfold cobsDecodeLoop
    rw [if_neg (show ¬ readIndex < encodedLength from done), same]
    exact Works.pure _

theorem cobsDecode_works (buffer : ι) (encodedLength : Half) (memory : Memory ι Byte) :
    ∃ r' w', r' ≤ encodedLength.toNat ∧ Works (cobsDecode buffer encodedLength memory) memory buffer
      (some (Uint16.cobsDecode (memory buffer) encodedLength).2)
        (Uint16.cobsDecode (memory buffer) encodedLength).1 0 0 r' w' :=
  cobsDecodeLoop_works buffer memory (Nat.lt_succ_of_le (Nat.sub_le _ _)) (Nat.le_refl _) (Nat.zero_le _)

theorem cobsDecode_ensures {size : ι → Nat} {buffer : ι} {encodedLength : Half} (memory : Memory ι Byte)
    (fits : encodedLength.toNat ≤ size buffer) : Ensures size (cobsDecode buffer encodedLength) memory
      fun result memory' => result = some (Uint16.cobsDecode (memory buffer) encodedLength).2 ∧
        memory' buffer = (Uint16.cobsDecode (memory buffer) encodedLength).1 := by
  obtain ⟨r', w', bounded, works⟩ := cobsDecode_works buffer encodedLength memory
  refine ⟨?_, works.value, works.contents⟩
  intro access member
  obtain ⟨same, below⟩ := works.streams.within access member
  rw [same]
  exact Nat.lt_of_lt_of_le below (Nat.le_trans bounded fits)

end Cc1310Firmware.Bootloader.Arrays
