import Cc1310Firmware.Codec.LittleEndian

/-! Memory as bytes at addresses: blocks, little-endian words, and what a write leaves alone. -/

set_option autoImplicit false

abbrev ByteMemory := Nat → Byte

namespace ByteMemory
open LittleEndian

/-- `address` lies in the block of `size` bytes at `start`. -/
def Inside (start size address : Nat) : Prop := start ≤ address ∧ address < start + size

def write (memory : ByteMemory) (address : Nat) (bytes : List Byte) : ByteMemory := fun a =>
  if h : a - address < bytes.length ∧ address ≤ a then bytes[a - address] else memory a

def half (memory : ByteMemory) (address : Nat) : BitVec 16 := word16 (memory address) (memory (address + 1))

def word (memory : ByteMemory) (address : Nat) : BitVec 32 :=
  word32 (memory address) (memory (address + 1)) (memory (address + 2)) (memory (address + 3))

section
variable {memory other : ByteMemory} {address a : Nat} {bytes : List Byte}

theorem write_at {i : Nat} (h : i < bytes.length) : memory.write address bytes (address + i) = bytes[i] := by
  have inside : address + i - address < bytes.length ∧ address ≤ address + i := by omega
  unfold write
  rw [dif_pos inside]
  simp

theorem write_of_outside (outside : ¬ Inside address bytes.length a) : memory.write address bytes a = memory a := by
  unfold Inside at outside
  unfold write
  rw [dif_neg]
  omega

theorem write_singleton (byte : Byte) : memory.write address [byte] a = if a = address then byte else memory a := by
  by_cases here : a = address
  · rw [if_pos here, here]
    exact @write_at memory address [byte] 0 Nat.one_pos
  · rw [if_neg here]
    apply write_of_outside
    simp only [Inside, List.length_singleton]
    omega

theorem half_congr (same : ∀ a, Inside address 2 a → memory a = other a) :
    memory.half address = other.half address := by
  unfold half
  rw [same _ (by unfold Inside; omega), same _ (by unfold Inside; omega)]

theorem word_congr (same : ∀ a, Inside address 4 a → memory a = other a) :
    memory.word address = other.word address := by
  unfold word
  rw [same _ (by unfold Inside; omega), same _ (by unfold Inside; omega), same _ (by unfold Inside; omega),
    same _ (by unfold Inside; omega)]

theorem half_write (value : BitVec 16) : (memory.write address (bytesOf value 2)).half address = value := by
  have at_ := fun i (h : i < (bytesOf value 2).length) => @write_at memory address _ i h
  have first := at_ 0 (by simp)
  have second := at_ 1 (by simp)
  rw [Nat.add_zero] at first
  unfold half
  rw [first, second]
  simp [bytesOf, List.range_succ]

theorem half_write_beside {b : Nat} (apart : b + 2 ≤ address ∨ address + bytes.length ≤ b) :
    (memory.write address bytes).half b = memory.half b := by
  apply half_congr
  intro a inside
  apply write_of_outside
  unfold Inside at inside ⊢
  omega

theorem word_write (value : BitVec 32) : (memory.write address (bytesOf value 4)).word address = value := by
  have at_ := fun i (h : i < (bytesOf value 4).length) => @write_at memory address _ i h
  have first := at_ 0 (by simp)
  rw [Nat.add_zero] at first
  unfold word
  rw [first, at_ 1 (by simp), at_ 2 (by simp), at_ 3 (by simp)]
  simp [bytesOf, List.range_succ]

end

/-! ## Changes within one block -/

/-- `after` is `before` but for the block of `size` bytes at `start`. -/
def ChangedIn (start size : Nat) (before after : ByteMemory) : Prop :=
  ∀ a, ¬ Inside start size a → after a = before a

section
variable {start size : Nat} {before middle after : ByteMemory}

theorem ChangedIn.refl : ChangedIn start size before before := fun _ _ => rfl

theorem ChangedIn.trans (first : ChangedIn start size before middle) (second : ChangedIn start size middle after) :
    ChangedIn start size before after :=
  fun a outside => (second a outside).trans (first a outside)

theorem ChangedIn.within {start' size' : Nat} (changed : ChangedIn start size before after)
    (low : start' ≤ start) (high : start + size ≤ start' + size') : ChangedIn start' size' before after := by
  intro a outside
  apply changed
  unfold Inside at outside ⊢
  omega

theorem ChangedIn.write {address : Nat} {bytes : List Byte} (low : start ≤ address)
    (high : address + bytes.length ≤ start + size) : ChangedIn start size before (before.write address bytes) := by
  intro a outside
  apply write_of_outside
  unfold Inside at outside ⊢
  omega

/-- A block that lies beside the changed one keeps its bytes. -/
theorem ChangedIn.beside {address length a : Nat} (changed : ChangedIn start size before after)
    (apart : address + length ≤ start ∨ start + size ≤ address) (inside : Inside address length a) :
    after a = before a := by
  apply changed
  unfold Inside at inside ⊢
  omega

end

end ByteMemory
