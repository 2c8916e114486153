import Mathlib.Data.BitVec
import Mathlib.Algebra.Group.Basic

/-! Circular serial numbers of a fixed width.

One serial number is newer than another when it lies less than half the number
circle ahead of it. This is not transitive on the whole circle. Inside a window
of half the circle it is the order of the distances from the window's base.
-/

set_option autoImplicit false

namespace SerialNumber

variable {w : Nat}

def newer (candidate reference : BitVec (w + 1)) : Bool :=
  candidate != reference && decide ((candidate - reference).toNat < 2 ^ w)

/-- Distance from the base of a window. -/
def rank (base value : BitVec (w + 1)) : Nat := (value - base).toNat

@[simp] theorem rank_base (base : BitVec (w + 1)) : rank base base = 0 := by simp [rank]

theorem rank_succ {base value : BitVec (w + 1)} (room : rank base value + 1 < 2 ^ w) :
    rank base (value + 1) = rank base value + 1 := by
  have split : value + 1 - base = value - base + 1 := by rw [BitVec.add_sub_comm]
  have wide : 2 ^ (w + 1) = 2 * 2 ^ w := by rw [Nat.pow_succ, Nat.mul_comm]
  have one : (1 : BitVec (w + 1)).toNat = 1 := by simp
  unfold rank at *
  rw [split, BitVec.toNat_add, one, Nat.mod_eq_of_lt (by omega)]

theorem toNat_sub_eq (base candidate reference : BitVec (w + 1)) :
    (candidate - reference).toNat =
      (2 ^ (w + 1) - rank base reference + rank base candidate) % 2 ^ (w + 1) := by
  have same : candidate - reference = (candidate - base) - (reference - base) :=
    (sub_sub_sub_cancel_right candidate reference base).symm
  rw [same, BitVec.toNat_sub]
  rfl

/-- In a window of half the circle, newer means further from the base. -/
theorem newer_iff (base : BitVec (w + 1)) {candidate reference : BitVec (w + 1)}
    (hc : rank base candidate < 2 ^ w) (hr : rank base reference < 2 ^ w) :
    newer candidate reference = true ↔ rank base reference < rank base candidate := by
  have wide : 2 ^ (w + 1) = 2 * 2 ^ w := by rw [Nat.pow_succ, Nat.mul_comm]
  have diff := toNat_sub_eq base candidate reference
  simp only [newer, Bool.and_eq_true, bne_iff_ne, ne_eq, decide_eq_true_eq]
  constructor
  · rintro ⟨distinct, close⟩
    rcases Nat.lt_trichotomy (rank base reference) (rank base candidate) with lt | same | gt
    · exact lt
    · refine absurd ?_ distinct
      exact (sub_left_injective (BitVec.eq_of_toNat_eq same)).symm
    · rw [diff, Nat.mod_eq_of_lt (by omega)] at close
      omega
  · intro lt
    refine ⟨?_, ?_⟩
    · rintro rfl; exact absurd lt (Nat.lt_irrefl _)
    · rw [diff, show 2 ^ (w + 1) - rank base reference + rank base candidate =
        rank base candidate - rank base reference + 2 ^ (w + 1) by omega, Nat.add_mod_right,
        Nat.mod_eq_of_lt (by omega)]
      omega

end SerialNumber
