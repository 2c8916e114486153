import Cc1310Firmware.Bootloader.Record

/-! What the TI flash driver may do to the flash, success or not.

The driver is not part of the repository. A successful call completes; a call
that reports an error or is cut off by a power loss leaves every bit with its
old value or with the value the completed call would have given it, so a failed
FlashProgram clears a subset of the requested bits and a failed erase sets some.
A journal slot torn in this way does not pass its record CRC by accident.
-/

set_option autoImplicit false

namespace Cc1310Firmware.Bootloader
open CrashProgram

/-- Each bit holds its old value or the value of the completed operation. -/
def Torn (flash complete torn : Flash) : Prop :=
  ∀ a i, (torn a).getLsbD i = (flash a).getLsbD i ∨ (torn a).getLsbD i = (complete a).getLsbD i

/-- A valid slot holds what it held before, or what the completed operation gives it. -/
def NoForgedRecord (flash complete torn : Flash) : Prop :=
  ∀ page ∈ [metadataPagePrimary, metadataPageSecondary], ∀ index < recordsPerPage,
    isValidMetadataRecord torn (recordAddress page index) = true →
    (∀ i < sizeofBootMetadata, torn (recordAddress page index + i) = flash (recordAddress page index + i)) ∨
    (∀ i < sizeofBootMetadata, torn (recordAddress page index + i) = complete (recordAddress page index + i))

structure Interrupted (flash complete torn : Flash) : Prop where
  bits : Torn flash complete torn
  records : NoForgedRecord flash complete torn

/-- The command addresses flash that the device has. -/
def FlashCommand.InFlash : FlashCommand → Prop
  | .program address data => address + data.length ≤ flashSize
  | .sectorErase address => address + flashPageSize ≤ flashSize

inductive FlashStep (flash : Flash) (command : FlashCommand) : Status → Flash → Prop where
  | done : command.InFlash → FlashStep flash command .done (command.complete flash)
  | failed {torn : Flash} : Interrupted flash (command.complete flash) torn →
      FlashStep flash command .failed torn
  | cut {torn : Flash} : Interrupted flash (command.complete flash) torn →
      FlashStep flash command .cut torn

theorem Torn.of_same {flash complete torn : Flash} (torn_ : Torn flash complete torn) {a : Nat}
    (same : complete a = flash a) : torn a = flash a := by
  apply BitVec.eq_of_getLsbD_eq
  intro i _
  rcases torn_ a i with old | new
  · exact old
  · rw [new, same]

/-- A torn operation may leave everything as it was. -/
theorem Interrupted.refl (flash complete : Flash) : Interrupted flash complete flash where
  bits _ _ := Or.inl rfl
  records _ _ _ _ _ := Or.inl fun _ _ => rfl

theorem FlashStep.unchanged {flash flash' : Flash} {command : FlashCommand} {status : Status} {a : Nat}
    (step : FlashStep flash command status flash') (away : ¬ command.Touches a) : flash' a = flash a := by
  have same := FlashCommand.complete_of_not_touches flash away
  cases step with
  | done => exact same
  | failed interrupted => exact interrupted.bits.of_same same
  | cut interrupted => exact interrupted.bits.of_same same

/-- Flash that no call of a program touches stays as it was. -/
theorem exec_unchanged {α : Type} {p : FlashProg α} {flash flash' : Flash}
    {calls : List (Call Flash FlashCommand)} {r : Result α} (exec : Exec FlashStep p flash calls r flash') {a : Nat}
    (away : ∀ c ∈ calls, ¬ c.command.Touches a) : flash' a = flash a := by
  induction exec with
  | ret => rfl
  | read _ ih => exact ih away
  | done step _ ih | failed step _ ih =>
    rw [ih fun c member => away c (List.mem_cons_of_mem _ member)]
    exact step.unchanged (away _ List.mem_cons_self)
  | cut step => exact step.unchanged (away _ List.mem_cons_self)

end Cc1310Firmware.Bootloader
