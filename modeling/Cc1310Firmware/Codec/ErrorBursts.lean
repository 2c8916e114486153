import Cc1310Firmware.Codec.Crc

/-! Error bursts: changes of a message that are confined to a few items in a row.

A register whose polynomial has a constant term loses nothing when it shifts, so
two messages that differ in a window no wider than the register leave different
registers.
-/

set_option autoImplicit false

namespace Crc

variable {α β : Type} {w : Nat}

/-- The same message but for a window of at most `count` items. -/
def Within (count : Nat) (message changed : List α) : Prop :=
  ∃ front window window' back, message = front ++ window ++ back ∧ changed = front ++ window' ++ back ∧
    window.length = window'.length ∧ window.length ≤ count

theorem Within.length {count : Nat} {message changed : List α} (near : Within count message changed) :
    message.length = changed.length := by
  obtain ⟨front, window, window', back, rfl, rfl, same, _⟩ := near
  simp [same]

theorem Within.take {count : Nat} {message changed : List α} (near : Within count message changed) (n : Nat) :
    Within count (message.take n) (changed.take n) := by
  obtain ⟨front, window, window', back, rfl, rfl, same, short⟩ := near
  refine ⟨front.take n, window.take (n - front.length), window'.take (n - front.length),
    back.take (n - (front ++ window).length), ?_, ?_, ?_, ?_⟩
  · rw [List.take_append, List.take_append]
  · rw [List.take_append, List.take_append, List.length_append, List.length_append, same]
  · rw [List.length_take, List.length_take, same]
  · rw [List.length_take]
    exact Nat.le_trans (Nat.min_le_right _ _) short

theorem Within.drop {count : Nat} {message changed : List α} (near : Within count message changed) (n : Nat) :
    Within count (message.drop n) (changed.drop n) := by
  obtain ⟨front, window, window', back, rfl, rfl, same, short⟩ := near
  refine ⟨front.drop n, window.drop (n - front.length), window'.drop (n - front.length),
    back.drop (n - (front ++ window).length), ?_, ?_, ?_, ?_⟩
  · rw [List.drop_append, List.drop_append]
  · rw [List.drop_append, List.drop_append, List.length_append, List.length_append, same]
  · rw [List.length_drop, List.length_drop, same]
  · rw [List.length_drop]
    exact Nat.le_trans (Nat.sub_le _ _) short

/-- Two items in a row are on one side of a boundary, or the boundary is between them. -/
theorem Within.append_cases {a a' b b' : List α} (near : Within 2 (a ++ b) (a' ++ b'))
    (length : a.length = a'.length) :
    a = a' ∨ b = b' ∨ ∃ front last last' first first' back,
      a = front ++ [last] ∧ a' = front ++ [last'] ∧ b = first :: back ∧ b' = first' :: back := by
  obtain ⟨front, window, window', back, whole, whole', same, short⟩ := near
  have lengths := congrArg List.length whole
  simp only [List.length_append] at lengths
  rcases Nat.lt_or_ge front.length a.length with inside | behind
  · rcases Nat.lt_or_ge a.length (front.length + window.length) with across | before
    · -- the window has an item on each side
      obtain ⟨last, first, rfl⟩ := List.length_eq_two.mp (show window.length = 2 by omega)
      obtain ⟨last', first', rfl⟩ := List.length_eq_two.mp same.symm
      have split : ∀ e f : α, front ++ [e, f] ++ back = (front ++ [e]) ++ f :: back := by simp
      rw [split] at whole whole'
      simp only [List.length_cons, List.length_nil] at across short
      have cut : a.length = front.length + 1 := by omega
      obtain ⟨left, right⟩ := List.append_inj whole (by simpa using cut)
      obtain ⟨left', right'⟩ := List.append_inj whole' (by rw [← length]; simpa using cut)
      exact .inr (.inr ⟨front, last, last', first, first', back, left, left', right, right'⟩)
    · have ends := congrArg (List.drop a.length) whole
      have ends' := congrArg (List.drop a.length) whole'
      have cut : a.length - (front ++ window).length = a.length - (front ++ window').length := by
        simp [same]
      rw [List.drop_left, List.drop_append, List.drop_eq_nil_of_le (by simpa using before), List.nil_append] at ends
      rw [length, List.drop_left, ← length, List.drop_append,
        List.drop_eq_nil_of_le (by simpa [← same] using before), List.nil_append] at ends'
      exact .inr (.inl (by rw [ends, ends', cut]))
  · have starts := congrArg (List.take a.length) whole
    have starts' := congrArg (List.take a.length) whole'
    rw [List.take_left, List.append_assoc, List.take_append_of_le_length behind] at starts
    rw [length, List.take_left, ← length, List.append_assoc, List.take_append_of_le_length behind] at starts'
    exact .inl (starts.trans starts'.symm)

/-- Items that are sent as `size` items each. -/
theorem Within.flatMap {count size : Nat} {message changed : List α} (near : Within count message changed)
    {send : α → List β} (sized : ∀ item, (send item).length = size) :
    Within (count * size) (message.flatMap send) (changed.flatMap send) := by
  obtain ⟨front, window, window', back, rfl, rfl, same, short⟩ := near
  have length : ∀ items : List α, (items.flatMap send).length = items.length * size := by
    intro items
    induction items with
    | nil => exact (Nat.zero_mul _).symm
    | cons item items ih =>
      rw [List.flatMap_cons, List.length_append, sized, ih, List.length_cons, Nat.succ_mul, Nat.add_comm]
  refine ⟨front.flatMap send, window.flatMap send, window'.flatMap send, back.flatMap send, ?_, ?_, ?_, ?_⟩
  · rw [List.flatMap_append, List.flatMap_append]
  · rw [List.flatMap_append, List.flatMap_append]
  · rw [length, length, same]
  · rw [length]
    exact Nat.mul_le_mul_right _ short

theorem flatMap_injective {size : Nat} {send : α → List β} (injective : Function.Injective send)
    (sized : ∀ item, (send item).length = size) {items items' : List α} (length : items.length = items'.length)
    (same : items.flatMap send = items'.flatMap send) : items = items' := by
  induction items generalizing items' with
  | nil => exact (List.eq_nil_of_length_eq_zero length.symm).symm
  | cons item items ih =>
    cases items' with
    | nil => cases length
    | cons item' items' =>
      rw [List.flatMap_cons, List.flatMap_cons] at same
      obtain ⟨first, rest⟩ := List.append_inj same (by rw [sized, sized])
      rw [injective first, ih (Nat.succ.inj length) rest]

/-! ### The shifting register -/

theorem length_bits {v : Nat} (count : Nat) (value : BitVec v) : (bits count value).length = count := by
  simp [bits]

theorem bits_setWidth {v : Nat} (value : BitVec v) {count u : Nat} (wide : count ≤ u) :
    bits count (value.setWidth u) = bits count value := by
  apply List.map_congr_left
  intro i inside
  have inside' := List.mem_range.mp inside
  rw [BitVec.getLsbD_setWidth, decide_eq_true (Nat.lt_of_lt_of_le inside' wide), Bool.true_and]

theorem bits_add {v : Nat} (value : BitVec v) (m n : Nat) :
    bits (m + n) value = bits m value ++ bits n (value >>> m) := by
  unfold bits
  rw [List.range_add, List.map_append, List.map_map]
  congr 1
  apply List.map_congr_left
  intro i _
  rw [Function.comp_apply, BitVec.getLsbD_ushiftRight]

/-- What is cut to a narrower width is shifted out of it. -/
theorem setWidth_shiftRight {v : Nat} (value : BitVec v) (u : Nat) : value.setWidth u >>> v = 0 := by
  apply BitVec.eq_of_getLsbD_eq
  intro i _
  rw [BitVec.getLsbD_ushiftRight, BitVec.getLsbD_setWidth, BitVec.getLsbD_of_ge _ _ (Nat.le_add_right v i),
    Bool.and_false]
  exact BitVec.getLsbD_zero.symm

theorem bits_injective {v : Nat} : Function.Injective (bits v : BitVec v → List Bool) := by
  intro x y same
  apply BitVec.eq_of_getLsbD_eq
  intro i inside
  exact List.map_inj_left.mp same i (List.mem_range.mpr inside)

/-- Every string of bits that the register can hold is that of a value. -/
theorem exists_bits {message : List Bool} (short : message.length ≤ w) :
    ∃ value : BitVec w, bits message.length value = message ∧ value >>> message.length = 0 := by
  refine ⟨(BitVec.ofBoolListLE message).setWidth w, ?_, ?_⟩
  · apply List.ext_getElem
    · rw [length_bits]
    · intro i inside inside'
      have low : i < w := Nat.lt_of_lt_of_le inside' short
      have bit := @BitVec.getLsbD_ofBoolListLE message i
      rw [← List.getElem_eq_getD (h := inside') false] at bit
      simp only [bits, List.getElem_map, List.getElem_range, BitVec.getLsbD_setWidth, low, decide_true,
        Bool.true_and, bit]
  · apply BitVec.eq_of_getLsbD_eq
    intro i _
    simp

/-- A register that shifts to zero was zero: the polynomial would leave its top bit. -/
theorem feedReflected_eq_zero {polynomial register : BitVec w} (odd : polynomial.msb = true)
    (shifted : feedReflected polynomial register false = 0) : register = 0 := by
  unfold feedReflected at shifted
  cases low : register.getLsbD 0 with
  | true =>
    rw [low, Bool.xor_false, if_pos rfl] at shifted
    have top := congrArg BitVec.msb shifted
    rw [BitVec.msb_xor, odd] at top
    simp at top
  | false =>
    have shifted' : register >>> 1 = 0#w := by simpa [low] using shifted
    apply BitVec.eq_of_getLsbD_eq
    intro i _
    cases i with
    | zero => simpa using low
    | succ i =>
      have bit := congrArg (BitVec.getLsbD · i) shifted'
      simpa [BitVec.getLsbD_ushiftRight, Nat.add_comm] using bit

theorem feedReflected_sub (polynomial register register' : BitVec w) (bit : Bool) :
    feedReflected polynomial register bit ^^^ feedReflected polynomial register' bit =
      feedReflected polynomial (register ^^^ register') false := by
  have xors : ∀ x y z : BitVec w, x ^^^ (y ^^^ z) = y ^^^ (x ^^^ z) := fun x y z => by
    rw [← BitVec.xor_assoc, BitVec.xor_comm x y, BitVec.xor_assoc]
  have twice : ∀ x y : BitVec w, x ^^^ (x ^^^ y) = y := fun x y => by
    rw [← BitVec.xor_assoc, BitVec.xor_self, BitVec.zero_xor]
  unfold feedReflected
  rw [BitVec.ushiftRight_xor_distrib, BitVec.getLsbD_xor]
  cases register.getLsbD 0 <;> cases register'.getLsbD 0 <;> cases bit <;>
    simp [BitVec.xor_assoc, xors _ polynomial, BitVec.xor_comm _ polynomial, twice]

theorem iterate_sub (polynomial register register' : BitVec w) (count : Nat) :
    (fun r => feedReflected polynomial r false)^[count] register ^^^
        (fun r => feedReflected polynomial r false)^[count] register' =
      (fun r => feedReflected polynomial r false)^[count] (register ^^^ register') := by
  induction count generalizing register register' with
  | zero => rfl
  | succ count ih =>
    rw [Function.iterate_succ_apply, Function.iterate_succ_apply, Function.iterate_succ_apply, ih,
      feedReflected_sub]

theorem feedReflected_injective {polynomial : BitVec w} (odd : polynomial.msb = true) (bit : Bool) :
    Function.Injective (feedReflected polynomial · bit) := by
  intro register register' same
  have shifted := feedReflected_sub polynomial register register' bit
  rw [show feedReflected polynomial register bit = feedReflected polynomial register' bit from same,
    BitVec.xor_self] at shifted
  exact BitVec.xor_eq_zero_iff.mp (feedReflected_eq_zero odd shifted.symm)

/-- The rest of a message keeps registers apart. -/
theorem foldl_injective {polynomial : BitVec w} (odd : polynomial.msb = true) (message : List Bool) :
    Function.Injective (message.foldl (feedReflected polynomial)) := by
  induction message with
  | nil => exact fun _ _ same => same
  | cons bit rest ih => exact fun _ _ same => feedReflected_injective odd bit (ih same)

theorem foldl_bits (polynomial register : BitVec w) {value : BitVec w} {count : Nat} (short : value >>> count = 0) :
    (bits count value).foldl (feedReflected polynomial) register =
      (fun r => feedReflected polynomial r false)^[count] (register ^^^ value) := by
  rw [iterate_xor, short]
  exact (BitVec.xor_zero).symm

/-- The register that takes its own width of bits. -/
theorem foldl_field (polynomial register value : BitVec w) :
    (bits w value).foldl (feedReflected polynomial) register =
      (fun r => feedReflected polynomial r false)^[w] (register ^^^ value) :=
  foldl_bits polynomial register (BitVec.ushiftRight_eq_zero (Nat.le_refl w))

theorem xor_injective (register : BitVec w) : Function.Injective (register ^^^ ·) := by
  intro value value' same
  have again := congrArg (register ^^^ ·) same
  simpa [← BitVec.xor_assoc] using again

theorem iterate_injective {polynomial : BitVec w} (odd : polynomial.msb = true) (count : Nat) :
    Function.Injective (fun r => feedReflected polynomial r false)^[count] :=
  (feedReflected_injective odd false).iterate count

/-- Messages that differ in a window no wider than the register leave different registers. -/
theorem eq_of_foldl_eq {polynomial register : BitVec w} (odd : polynomial.msb = true) {message changed : List Bool}
    (near : Within w message changed)
    (same : message.foldl (feedReflected polynomial) register = changed.foldl (feedReflected polynomial) register) :
    message = changed := by
  obtain ⟨front, window, window', back, rfl, rfl, length, short⟩ := near
  simp only [List.foldl_append] at same
  have registers := foldl_injective odd back same
  obtain ⟨value, bits_, low⟩ := exists_bits short
  obtain ⟨value', bits'_, low'⟩ := exists_bits (length ▸ short)
  rw [← length] at bits'_ low'
  rw [← bits_, ← bits'_, foldl_bits _ _ low, foldl_bits _ _ low'] at registers
  have values := xor_injective _ (iterate_injective odd _ registers)
  rw [← bits_, ← bits'_, values]

/-- The same for messages of bytes that are sent in either bit order. -/
theorem eq_of_foldl_bytes {polynomial register : BitVec w} (odd : polynomial.msb = true) {send : Byte → List Bool}
    (injective : Function.Injective send) (sized : ∀ byte, (send byte).length = 8) {count : Nat}
    (narrow : count * 8 ≤ w) {message changed : List Byte} (near : Within count message changed)
    (same : (message.flatMap send).foldl (feedReflected polynomial) register =
      (changed.flatMap send).foldl (feedReflected polynomial) register) : message = changed := by
  obtain ⟨front, window, window', back, whole, whole', length, short⟩ := near.flatMap sized
  have bits_ : Within w (message.flatMap send) (changed.flatMap send) :=
    ⟨front, window, window', back, whole, whole', length, Nat.le_trans short narrow⟩
  exact flatMap_injective injective sized near.length (eq_of_foldl_eq odd bits_ same)

end Crc
