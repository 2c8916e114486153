import Cc1310Firmware.Bootloader.FlashDriver
import Cc1310Firmware.Journal.TwoPageLog

/-! The metadata pages as a two-page log.

`cells` forgets the bytes of a slot and keeps whether it is erased, a valid
record or neither. The pointer scans of bootloader.c compute the reader of the
log, and a record found by them is the one the log names.
-/

set_option autoImplicit false

namespace Cc1310Firmware.Bootloader
open TwoPageLog SerialNumber

def pageAddress : Side → Nat
  | .first => metadataPagePrimary
  | .second => metadataPageSecondary

def slotAddress (side : Side) (index : Nat) : Nat := recordAddress (pageAddress side) index

def cells (flash : Flash) : Log BootMetadata := fun side index =>
  if isErasedRecord flash (slotAddress side index) then .blank
  else if isValidMetadataRecord flash (slotAddress side index) then .entry (loadRecord flash (slotAddress side index))
  else .junk

def serial (m : BootMetadata) : BitVec (31 + 1) := m.sequenceNumber

theorem cells_blank {flash : Flash} {side : Side} {index : Nat} :
    cells flash side index = .blank ↔ isErasedRecord flash (slotAddress side index) = true := by
  unfold cells
  split
  · simp [*]
  · split <;> simp [*]

theorem cells_entry {flash : Flash} {side : Side} {index : Nat} {m : BootMetadata} :
    cells flash side index = .entry m ↔
      isValidMetadataRecord flash (slotAddress side index) = true ∧
      loadRecord flash (slotAddress side index) = m := by
  unfold cells
  split
  case isTrue erased => simp [not_valid_of_erased erased]
  case isFalse =>
    split
    case isTrue valid => simp [valid]
    case isFalse invalid => simp [invalid]

theorem cells_congr {f g : Flash} {side : Side} {index : Nat}
    (same : ∀ i < sizeofBootMetadata, f (slotAddress side index + i) = g (slotAddress side index + i)) :
    cells f side index = cells g side index := by
  simp only [cells, isErasedRecord_congr same, isValidMetadataRecord_congr same, loadRecord_congr same]

/-! ## Where slots lie -/

theorem slot_in_page (side : Side) {index i : Nat} (hi : index < recordsPerPage) (h : i < sizeofBootMetadata) :
    pageAddress side ≤ slotAddress side index + i ∧
    slotAddress side index + i < pageAddress side + flashPageSize := by
  simp only [slotAddress, recordAddress, sizeofBootMetadata, recordsPerPage, flashPageSize] at *
  omega

theorem slots_disjoint {side other : Side} {index index' i j : Nat} (hi : index < recordsPerPage)
    (hi' : index' < recordsPerPage) (ne : (other, index') ≠ (side, index)) (h : i < sizeofBootMetadata)
    (h' : j < sizeofBootMetadata) : slotAddress other index' + j ≠ slotAddress side index + i := by
  have lo := slot_in_page side hi h
  have lo' := slot_in_page other hi' h'
  intro same
  apply ne
  have side_ : other = side := by
    cases side <;> cases other <;>
      simp [pageAddress, metadataPagePrimary, metadataPageSecondary, flashPageSize] at lo lo' ⊢ <;> omega
  subst side_
  simp only [slotAddress, recordAddress, sizeofBootMetadata] at same h h'
  have : index' = index := by omega
  rw [this]

theorem pages_in_journal (side : Side) :
    metadataPagePrimary ≤ pageAddress side ∧ pageAddress side + flashPageSize ≤ applicationFlashStart := by
  cases side <;> decide

/-! ## The reader -/

theorem isSequenceNewer_eq (candidate reference : Word) :
    isSequenceNewer candidate reference = newer (candidate : BitVec (31 + 1)) reference := by
  unfold isSequenceNewer newer
  congr 1

/-- A scan result names a slot and the record in it. -/
def Names (flash : Flash) (side : Side) : Option (Nat × BootMetadata) → Option Nat → Prop
  | none, pointer => pointer = none
  | some (index, m), pointer =>
    pointer = some (slotAddress side index) ∧ loadRecord flash (slotAddress side index) = m

theorem Names.replaces_eq {flash : Flash} {side : Side} {best : Option (Nat × BootMetadata)}
    {pointer : Option Nat} (names : Names flash side best pointer) (index : Nat) :
    supersedes flash (slotAddress side index) pointer =
      replaces serial (loadRecord flash (slotAddress side index)) best := by
  rcases best with _ | ⟨i, m⟩
  · cases names; rfl
  · obtain ⟨rfl, rfl⟩ := names
    simp only [supersedes, replaces, isSequenceNewer_eq, serial]

theorem findNewestRecordInPageLoop_names {flash : Flash} {side : Side} (remaining index : Nat)
    {best : Option (Nat × BootMetadata)} {pointer : Option Nat} (names : Names flash side best pointer) :
    Names flash side (newestFrom serial (cells flash side) remaining index best)
      (findNewestRecordInPageLoop flash (pageAddress side) remaining index pointer) := by
  induction remaining generalizing index best pointer with
  | zero => exact names
  | succ remaining ih =>
    have step := names.replaces_eq index
    have slot : recordAddress (pageAddress side) index = slotAddress side index := rfl
    simp only [newestFrom, findNewestRecordInPageLoop, cells, slot, step]
    by_cases erased : isErasedRecord flash (slotAddress side index) = true
    · simpa [erased] using names
    by_cases valid : isValidMetadataRecord flash (slotAddress side index) = true
    · simp only [erased, valid, Bool.true_and]
      apply ih
      by_cases better : replaces serial (loadRecord flash (slotAddress side index)) best = true
      · simp [better, Names]
      · simpa [better] using names
    · simpa [erased, valid] using ih (index + 1) names

theorem findNewestRecordInPage_names (flash : Flash) (side : Side) :
    Names flash side (newestIn serial recordsPerPage (cells flash side))
      (findNewestRecordInPage flash (pageAddress side)) :=
  findNewestRecordInPageLoop_names recordsPerPage 0 (show Names flash side none none from rfl)

/-- The pointer and the record that the log's newest entry stands for. -/
def NamesNewest (flash : Flash) : Option ((Side × Nat) × BootMetadata) → Option Nat → Prop
  | none, pointer => pointer = none
  | some ((side, index), m), pointer =>
    pointer = some (slotAddress side index) ∧ loadRecord flash (slotAddress side index) = m

theorem findNewestMetadataRecord_names (flash : Flash) :
    NamesNewest flash (newest serial recordsPerPage (cells flash)) (findNewestMetadataRecord flash) := by
  have primary := findNewestRecordInPage_names flash .first
  have secondary := findNewestRecordInPage_names flash .second
  simp only [pageAddress] at primary secondary
  unfold newest findNewestMetadataRecord
  rcases hp : newestIn serial recordsPerPage (cells flash .first) with _ | ⟨i, a⟩ <;>
    rcases hs : newestIn serial recordsPerPage (cells flash .second) with _ | ⟨j, b⟩ <;>
    rw [hp] at primary <;> rw [hs] at secondary <;> simp only [Names] at primary secondary
  · simp [primary, secondary, NamesNewest]
  · simp [primary, secondary, NamesNewest]
  · simp [primary, secondary, NamesNewest]
  · obtain ⟨p, rfl⟩ := primary
    obtain ⟨s, rfl⟩ := secondary
    simp only [p, s, isSequenceNewer_eq, serial, ite_self]
    by_cases later : newer (loadRecord flash (slotAddress .second j)).sequenceNumber
      ((loadRecord flash (slotAddress .first i)).sequenceNumber : BitVec (31 + 1)) = true
    · simp [later, NamesNewest]
    · simp [later, NamesNewest]

/-- The record that findNewestMetadataRecord points to. -/
def newestRecord (flash : Flash) : Option BootMetadata :=
  (findNewestMetadataRecord flash).map (loadRecord flash)

theorem newestRecord_eq (flash : Flash) :
    newestRecord flash = (newest serial recordsPerPage (cells flash)).map Prod.snd := by
  have names := findNewestMetadataRecord_names flash
  unfold newestRecord
  generalize newest serial recordsPerPage (cells flash) = found at names
  rcases found with _ | ⟨⟨side, index⟩, m⟩
  · rw [show findNewestMetadataRecord flash = none from names]; rfl
  · obtain ⟨pointer, rfl⟩ := names
    rw [pointer]; rfl

theorem newestRecord_congr {flash flash' : Flash}
    (same : ∀ a, metadataPagePrimary ≤ a → a < applicationFlashStart → flash' a = flash a) :
    newestRecord flash' = newestRecord flash := by
  have page : ∀ side, newestIn serial recordsPerPage (cells flash' side) =
      newestIn serial recordsPerPage (cells flash side) := by
    intro side
    apply newestFrom_congr
    intro j _ hj
    apply cells_congr
    intro i hi
    have slot := slot_in_page side (show j < recordsPerPage by omega) hi
    have journal := pages_in_journal side
    exact same _ (by omega) (by omega)
  rw [newestRecord_eq, newestRecord_eq, newest, newest, page .first, page .second]

/-! ## The slot an append writes to -/

theorem findFirstErasedRecordLoop_some {flash : Flash} {side : Side} {remaining start index : Nat}
    (found : findFirstErasedRecordLoop flash (pageAddress side) remaining start = some index) :
    index < start + remaining ∧ cells flash side index = .blank ∧
    ∀ j, start ≤ j → j < index → cells flash side j ≠ .blank := by
  induction remaining generalizing start with
  | zero => cases found
  | succ remaining ih =>
    unfold findFirstErasedRecordLoop at found
    split at found
    case isTrue erased =>
      cases found
      exact ⟨by omega, cells_blank.mpr erased, fun j lo hi => by omega⟩
    case isFalse written =>
      obtain ⟨hi, blank, before⟩ := ih found
      refine ⟨by omega, blank, fun j lo hj => ?_⟩
      rcases Nat.eq_or_lt_of_le lo with rfl | lt
      · exact fun h => written (cells_blank.mp h)
      · exact before j lt hj

theorem findFirstErasedRecord_some {flash : Flash} (side : Side) {index : Nat}
    (found : findFirstErasedRecord flash (pageAddress side) = some index) :
    index < recordsPerPage ∧ cells flash side index = .blank ∧ ∀ j < index, cells flash side j ≠ .blank := by
  obtain ⟨hi, blank, before⟩ := findFirstErasedRecordLoop_some found
  exact ⟨by omega, blank, fun j hj => before j (Nat.zero_le j) hj⟩

end Cc1310Firmware.Bootloader
