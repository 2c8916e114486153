import Cc1310Firmware.Bootloader.Append
import Cc1310Firmware.Journal.AtomicRegister
import Cc1310Firmware.Programs.Runs

/-! The journal as a whole: a register with atomic, power-fail-safe writes.

A run is any sequence of appends, each with its own interrupted or failing
flash calls. `Holds` is the invariant of such runs; the sequence numbers stay
in one half of the circle as long as fewer than 2^31 records were begun.
-/

set_option autoImplicit false

namespace Cc1310Firmware.Bootloader
open CrashProgram LabelledRun TwoPageLog SerialNumber AtomicRegister

structure Append where
  metadata : BootMetadata
  calls : List FlashCall
  result : Result (BootMetadata × Int)

def AppendStep (flash : Flash) (append : Append) (flash' : Flash) : Prop :=
  Exec FlashStep (appendMetadataRecord append.metadata) flash append.calls append.result flash'

abbrev AppendTransition := Transition Flash Append

def ErasedJournal (flash : Flash) : Prop :=
  ∀ side, ∀ index < recordsPerPage, isErasedRecord flash (slotAddress side index) = true

/-- One valid record in the first slot of the primary page, as the factory programs it. -/
structure FactoryJournal (flash : Flash) : Prop where
  valid : isValidMetadataRecord flash (slotAddress .first 0) = true
  erased : ∀ side, ∀ index < recordsPerPage, (side, index) ≠ (.first, 0) →
    isErasedRecord flash (slotAddress side index) = true

theorem ErasedJournal.holds {flash : Flash} (journal : ErasedJournal flash) : Holds 0 flash none := by
  refine ⟨0, 0, none, Nat.le_refl 0, ⟨by decide, ?_, by simp⟩, rfl⟩
  intro side index m hi entry
  rw [cells_blank.mpr (journal side index hi)] at entry
  cases entry

theorem FactoryJournal.holds {flash : Flash} (journal : FactoryJournal flash) :
    Holds 0 flash (some (loadRecord flash (slotAddress .first 0))) := by
  have here : cells flash .first 0 = .entry (loadRecord flash (slotAddress .first 0)) :=
    cells_entry.mpr ⟨journal.valid, rfl⟩
  refine ⟨serial (loadRecord flash (slotAddress .first 0)), 0, some ((.first, 0), _), Nat.le_refl 0,
    ⟨by decide, ?_, ?_⟩, rfl⟩
  · intro side index m hi entry
    refine ⟨(.first, 0), _, rfl, ?_⟩
    by_cases factory : (side, index) = (.first, 0)
    · exact Or.inl factory.symm
    · rw [cells_blank.mpr (journal.erased side index hi factory)] at entry
      cases entry
  · rintro side index m ⟨⟩
    exact ⟨by decide, here, rank_base _, by simp⟩

theorem holds_of_journal {flash : Flash} (journal : ErasedJournal flash ∨ FactoryJournal flash) :
    Holds 0 flash (newestRecord flash) := by
  rcases journal with erased | factory
  · rw [erased.holds.newestRecord_eq]
    exact erased.holds
  · rw [factory.holds.newestRecord_eq]
    exact factory.holds

/-- The append as a write to the register. -/
def Append.write (append : Append) : Write BootMetadata where
  value := append.metadata
  acknowledged := match append.result with
    | .returned (_, code) => code == 0
    | .cut => false

/-- One append, with everything a caller or a later reset can see of it. -/
structure AtomicAppend (x : AppendTransition) : Prop where
  stored : ∀ record, x.event.result = .returned (record, 0) →
    newestRecord x.after = some record ∧ record = sealFor (newestRecord x.before) x.event.metadata
  atomic : newestRecord x.after = newestRecord x.before ∨
    newestRecord x.after = some (sealFor (newestRecord x.before) x.event.metadata)
  returned : ∀ record code, x.event.result = .returned (record, code) →
    record = sealFor (newestRecord x.before) x.event.metadata ∧
      (code = 0 ∨ code = -1 ∧ ∃ c ∈ x.event.calls, c.status = .failed)
  programs : ∀ c ∈ x.event.calls, ∀ address data, c.command = .program address data →
    ProgramsErasedSlot x.event.calls c
  erases : ∀ c ∈ x.event.calls, ∀ page, c.command = .sectorErase page → ErasesOtherPage c page

theorem AppendStep.appended {k : Nat} {flash flash' : Flash} {value : Option BootMetadata} {append : Append}
    (holds : Holds k flash value) (step : AppendStep flash append flash') :
    Appended k flash value append.metadata append.calls append.result flash' :=
  append_appended holds _ _ _ step

theorem AppendStep.atomicAppend {k : Nat} {flash flash' : Flash} {append : Append}
    (holds : Holds k flash (newestRecord flash)) (room : k + 1 < 2 ^ 31) (step : AppendStep flash append flash') :
    AtomicAppend ⟨flash, append, flash'⟩ ∧ Holds (k + 1) flash' (newestRecord flash') := by
  have appended := step.appended holds
  have count := appended.count
  obtain ⟨value, holds', atomic, stored⟩ := appended.register (by omega)
  rw [holds'.newestRecord_eq] at *
  refine ⟨?_, holds'.mono (by omega)⟩
  constructor
  case stored =>
    intro record ended
    have filled := (appended.returned record 0 ended).1
    refine ⟨?_, filled⟩
    rw [holds'.newestRecord_eq, stored record ended, filled]
  case atomic => rwa [holds'.newestRecord_eq]
  case returned => exact appended.returned
  case programs => exact appended.programs
  case erases => exact appended.erases

/-- The invariant of runs of appends. -/
theorem holds_of_run {start final : Flash} {history : List AppendTransition}
    (journal : ErasedJournal start ∨ FactoryJournal start) (run : Run AppendStep start history final)
    (few : history.length < 2 ^ 31) : Holds history.length final (newestRecord final) := by
  induction run with
  | nil => exact holds_of_journal journal
  | next _ step ih =>
    rw [List.length_append, List.length_singleton] at few ⊢
    exact (step.atomicAppend (ih (by omega)) (by omega)).2

def blankFlash : Flash := fun _ => 0xFF

theorem blankFlash_erased : ErasedJournal blankFlash :=
  fun _ _ _ => isErasedRecord_iff.mpr fun _ _ => rfl

end Cc1310Firmware.Bootloader
