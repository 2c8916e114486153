import Cc1310Firmware.Programs.Runs

/-! A register whose writes are atomic even when they are interrupted.

The stored value may depend on the one it replaces, as a serial number does.
An acknowledged write is stored; any other write is stored as a whole or not at
all. There is no step that clears the register.
-/

set_option autoImplicit false

namespace AtomicRegister
open LabelledRun

structure Write (α : Type) where
  value : α
  acknowledged : Bool
  deriving DecidableEq, Repr

variable {α : Type} (fill : Option α → α → α)

inductive WriteStep (stored : Option α) : Write α → Option α → Prop where
  | stored (value : α) (acknowledged : Bool) : WriteStep stored ⟨value, acknowledged⟩ (some (fill stored value))
  | lost (value : α) : WriteStep stored ⟨value, false⟩ stored

variable {fill}

theorem WriteStep.isSome {stored stored' : Option α} {write : Write α}
    (step : WriteStep fill stored write stored') (present : stored.isSome) : stored'.isSome := by
  cases step with
  | stored => rfl
  | lost => exact present

end AtomicRegister
