import Mathlib.Algebra.GroupWithZero.Nat
import Mathlib.Data.Fin.Basic
import Mathlib.Logic.Function.Basic

/-! A ring of slots that holds a stretch of a growing sequence.

Item `k` of the sequence has its place in slot `k` modulo the size. The ring
holds the items from `first` on as long as there are no more of them than slots.
-/

set_option autoImplicit false

namespace SlotRing

variable {n : Nat} [NeZero n] {α : Type}

/-- The slot of item `k`. -/
def place (n : Nat) [NeZero n] (k : Nat) : Fin n := Fin.ofNat n k

theorem place_succ (k : Nat) : place n k + 1 = place n (k + 1) := by
  apply Fin.ext
  simp [place, Fin.val_add]

theorem place_inj {i k : Nat} (ordered : i ≤ k) (near : k < i + n) (same : place n i = place n k) : i = k := by
  have mods : i % n = k % n := congrArg Fin.val same
  have multiple : (k - i) % n = 0 := Nat.sub_mod_eq_zero_of_mod_eq mods.symm
  rw [Nat.mod_eq_of_lt (by omega)] at multiple
  omega

/-- `slots` holds the items from `first` on. -/
structure Holds (slots : Fin n → α) (items : List α) (first : Nat) : Prop where
  low : first ≤ items.length
  high : items.length ≤ first + n
  held : ∀ k (inside : k < items.length), first ≤ k → slots (place n k) = items[k]

section
variable {slots : Fin n → α} {items : List α} {first : Nat}

theorem Holds.start (slots : Fin n → α) : Holds slots [] 0 :=
  ⟨Nat.le_refl 0, Nat.zero_le _, fun _ inside => absurd inside (Nat.not_lt_zero _)⟩

/-- The next item goes to the slot after the last one, if there is room. -/
theorem Holds.push (holds : Holds slots items first) (room : items.length < first + n) (item : α) :
    Holds (Function.update slots (place n items.length) item) (items ++ [item]) first := by
  refine ⟨?_, ?_, ?_⟩
  · rw [List.length_append]
    exact Nat.le_trans holds.low (Nat.le_add_right _ _)
  · rw [List.length_append]
    exact room
  · intro k inside late
    rw [List.length_append, List.length_singleton] at inside
    rcases Nat.lt_succ_iff_lt_or_eq.mp inside with earlier | rfl
    · have elsewhere : place n k ≠ place n items.length := by
        intro same
        exact absurd (place_inj (Nat.le_of_lt earlier) (by omega) same) (Nat.ne_of_lt earlier)
      rw [Function.update_of_ne elsewhere, holds.held k earlier late, List.getElem_append_left earlier]
    · rw [Function.update_self, List.getElem_append_right (Nat.le_refl _)]
      simp

/-- The first item gives up its slot, whatever is then put there. -/
theorem Holds.pop (holds : Holds slots items first) (some_ : first < items.length) (item : α) :
    Holds (Function.update slots (place n first) item) items (first + 1) := by
  refine ⟨some_, Nat.le_trans holds.high (by omega), ?_⟩
  intro k inside late
  have elsewhere : place n k ≠ place n first := by
    intro same
    have high := holds.high
    exact absurd (place_inj (Nat.le_of_lt late) (by omega) same.symm) (Nat.ne_of_lt late)
  rw [Function.update_of_ne elsewhere, holds.held k inside (Nat.le_of_lt late)]

/-- A slot that does not hold the first item is free. -/
theorem Holds.room (holds : Holds slots items first)
    (free : ∀ inside : first < items.length, slots (place n items.length) ≠ items[first]) :
    items.length < first + n := by
  apply Nat.lt_of_le_of_ne holds.high
  intro full
  have positive : 0 < n := Nat.pos_of_ne_zero (NeZero.ne n)
  have inside : first < items.length := by omega
  have same : place n items.length = place n first := by
    apply Fin.ext
    simp [place, full]
  exact free inside (by rw [same]; exact holds.held first inside (Nat.le_refl _))

end

end SlotRing
