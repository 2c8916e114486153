import Cc1310Firmware.Bootloader.DeviceJournal

/-! Where in the two pages an append lands.

The other modules only need that an append finds some erased slot. Here the
slot is named: the first erased one of the primary page, then of the secondary
page, and in a full journal the rotation can be stopped in an erase that leaves
the front of the page as it was.
-/

set_option autoImplicit false

namespace Cc1310Firmware.Bootloader
open LittleEndian CrashProgram TwoPageLog

section
variable {flash flash' : Flash} {side : Side} {index k n : Nat} {m m' : BootMetadata}

theorem findFirstErasedRecordLoop_eq {remaining start : Nat} (lo : start ≤ index) (hi : index < start + remaining)
    (blank : cells flash side index = .blank) (before : ∀ j, start ≤ j → j < index → cells flash side j ≠ .blank) :
    findFirstErasedRecordLoop flash (pageAddress side) remaining start = some index := by
  induction remaining generalizing start with
  | zero => omega
  | succ remaining ih =>
    unfold findFirstErasedRecordLoop
    rcases Nat.eq_or_lt_of_le lo with rfl | lt
    · exact if_pos (cells_blank.mp blank)
    · have used : ¬ isErasedRecord flash (recordAddress (pageAddress side) start) = true :=
        fun erased => before start (Nat.le_refl _) lt (cells_blank.mpr erased)
      rw [if_neg used]
      exact ih lt (by omega) fun j lo' => before j (by omega)

theorem findFirstErasedRecord_eq (hi : index < recordsPerPage) (blank : cells flash side index = .blank)
    (before : ∀ j < index, cells flash side j ≠ .blank) :
    findFirstErasedRecord flash (pageAddress side) = some index :=
  findFirstErasedRecordLoop_eq (Nat.zero_le _) (by omega) blank fun j _ => before j

theorem findFirstErasedRecord_full (side : Side) (full : ∀ j < recordsPerPage, cells flash side j ≠ .blank) :
    findFirstErasedRecord flash (pageAddress side) = none := by
  cases found : findFirstErasedRecord flash (pageAddress side) with
  | none => rfl
  | some index =>
    obtain ⟨hi, blank, _⟩ := findFirstErasedRecord_some side found
    exact absurd blank (full index hi)

/-! ## A write into a known slot -/

theorem writeFlash_written (hi : index < recordsPerPage) (sealed : m.Sealed)
    (blank : cells flash side index = .blank) :
    Written flash m side index (writeCalls flash m side index) (.returned 0) (writeFlash flash m side index) :=
  writeRecord_written sealed hi blank _ _ _ (writeRecord_completes side hi flash m)

/-- An append into the first erased slot, with everything it leaves. -/
structure AppendedAt (side : Side) (index : Nat) (flash : Flash) (m : BootMetadata) (calls : List FlashCall)
    (flash' : Flash) : Prop where
  append : Exec FlashStep (appendMetadataRecord m) flash calls (.returned (sealFor (newestRecord flash) m, 0)) flash'
  done : ∀ c ∈ calls, c.status = .done
  count : recordPrograms calls = 1
  here : cells flash' side index = .entry (sealFor (newestRecord flash) m)
  others : ∀ s j, j < recordsPerPage → (s, j) ≠ (side, index) → cells flash' s j = cells flash s j

theorem append_at (m : BootMetadata) (hi : index < recordsPerPage) (blank : cells flash side index = .blank)
    (before : ∀ j < index, cells flash side j ≠ .blank)
    (full : side = .second → ∀ j < recordsPerPage, cells flash .first j ≠ .blank) :
    ∃ calls flash', AppendedAt side index flash m calls flash' := by
  have sealed : (sealFor (newestRecord flash) m).Sealed := sealRecord_sealed _ m
  have written := writeFlash_written hi sealed blank
  have free := findFirstErasedRecord_eq hi blank before
  have append : Exec FlashStep (appendMetadataRecord m) flash
      (writeCalls flash (sealFor (newestRecord flash) m) side index) (.returned (sealFor (newestRecord flash) m, 0))
      (writeFlash flash (sealFor (newestRecord flash) m) side index) :=
    append_completes rfl free fun second => findFirstErasedRecord_full .first (full second)
  have here := written.stored rfl
  refine ⟨_, _, ⟨append, ?_, written.count, here, ?_⟩⟩
  · simp [writeCalls]
  · intro s j hj other
    exact written.cells_other hi hj other

theorem AppendedAt.neverFails {calls : List FlashCall} (appended : AppendedAt side index flash m calls flash') :
    NeverFails calls :=
  fun c member => by simp [appended.done c member]

/-- The register after the append. -/
theorem AppendedAt.holds {calls : List FlashCall} (appended : AppendedAt side index flash m' calls flash')
    (holds : Holds n flash (some m)) (room : n + 1 < 2 ^ 31) :
    newestRecord flash = some m ∧ Holds (n + 1) flash' (some (sealFor (some m) m')) := by
  have newest := holds.newestRecord_eq
  rw [← newest] at holds
  have turn_ := appendTurn holds (by rw [appended.count]; exact room) appended.append
  have holds' := turn_.holds
  rw [turn_.stored _ rfl, appended.count, newest] at holds'
  exact ⟨newest, holds'⟩

/-! ## A rotation that is stopped -/

/-- The slots of a page from `k` on are erased, those in front of it are not. -/
def partlyErased (flash : Flash) (side : Side) (k : Nat) : Flash := fun a =>
  if slotAddress side k ≤ a ∧ a < pageAddress side + flashPageSize then 0xFF else flash a

theorem partlyErased_kept {s : Side} {j i : Nat} (hj : j < recordsPerPage) (hi : i < sizeofBootMetadata)
    (kept : s ≠ side ∨ j < k) : partlyErased flash side k (slotAddress s j + i) = flash (slotAddress s j + i) := by
  have slot := slot_in_page s hj hi
  unfold partlyErased
  apply if_neg
  rintro ⟨lo, above⟩
  have start : pageAddress side ≤ slotAddress side k := Nat.le_add_right _ _
  by_cases same : s = side
  · subst same
    have front : j < k := kept.resolve_left (absurd rfl)
    simp only [slotAddress, recordAddress, sizeofBootMetadata] at lo hi
    omega
  · cases s <;> cases side <;> simp only
      [pageAddress, metadataPagePrimary, metadataPageSecondary, flashPageSize] at slot start lo above <;>
      first | exact same rfl | omega

theorem partlyErased_blank {j i : Nat} (hj : j < recordsPerPage) (hi : i < sizeofBootMetadata) (rear : k ≤ j) :
    partlyErased flash side k (slotAddress side j + i) = 0xFF := by
  have slot := slot_in_page side hj hi
  have front : slotAddress side k ≤ slotAddress side j := by
    simp only [slotAddress, recordAddress]
    exact Nat.add_le_add_left (Nat.mul_le_mul_right _ rear) _
  unfold partlyErased
  exact if_pos ⟨by omega, slot.2⟩

theorem partlyErased_cells_kept {s : Side} {j : Nat} (hj : j < recordsPerPage) (kept : s ≠ side ∨ j < k) :
    cells (partlyErased flash side k) s j = cells flash s j :=
  cells_congr fun _ hi => partlyErased_kept hj hi kept

theorem partlyErased_cells_blank {j : Nat} (hj : j < recordsPerPage) (rear : k ≤ j) :
    cells (partlyErased flash side k) side j = .blank := by
  rw [cells_blank, isErasedRecord_iff]
  intro i hi
  exact partlyErased_blank hj hi rear

/-- An erase can be interrupted with the front of the page still in place. -/
theorem partlyErased_interrupted (flash : Flash) (side : Side) (k : Nat) :
    Interrupted flash (flash.erased (pageAddress side)) (partlyErased flash side k) where
  bits a i := by
    have start : pageAddress side ≤ slotAddress side k := Nat.le_add_right _ _
    unfold partlyErased Flash.erased
    split
    case isTrue inside => exact .inr (by rw [if_pos ⟨by omega, inside.2⟩])
    case isFalse => exact .inl rfl
  records page member index hi _ := by
    have slots : ∃ s, page = pageAddress s := by
      simp only [List.mem_cons, List.not_mem_nil, or_false] at member
      exact member.elim (fun h => ⟨.first, h⟩) fun h => ⟨.second, h⟩
    obtain ⟨s, rfl⟩ := slots
    by_cases kept : s ≠ side ∨ index < k
    · exact .inl fun i hi' => partlyErased_kept hi hi' kept
    · simp only [not_or, Decidable.not_not, Nat.not_lt] at kept
      obtain ⟨rfl, rear⟩ := kept
      refine .inr fun i hi' => ?_
      obtain ⟨lo, above⟩ := slot_in_page s hi hi'
      exact (partlyErased_blank hi hi' rear).trans (Flash.erased_at lo above).symm

/-- A slot that holds the newest record is the place where the register has it. -/
theorem tracks_of_entry (holds : Holds n flash (some m)) (hi : index < recordsPerPage)
    (here : cells flash side index = .entry m) :
    ∃ base n', n' ≤ n ∧ Tracks serial recordsPerPage (cells flash) base n' (some ((side, index), m)) := by
  obtain ⟨base, n', current, le, tracks, same⟩ := holds
  obtain ⟨⟨place, b⟩, rfl, rfl⟩ := Option.map_eq_some_iff.mp same
  obtain ⟨_, _, top, _⟩ := tracks.visible place.1 place.2 b rfl
  have at_ : place = (side, index) := by
    obtain ⟨p, c, same', which⟩ := tracks.behind side index b hi here
    cases same'
    exact which.resolve_right (by omega)
  subst at_
  exact ⟨base, n', le, tracks⟩

/-- In a full journal the newest record decides which page is rotated. -/
theorem rotation_of_entry (holds : Holds n flash (some m)) (hi : index < recordsPerPage)
    (here : cells flash side index = .entry m) :
    rotationPage (findNewestMetadataRecord flash) = pageAddress side.other ∧
    ∀ g status, FlashStep flash (.sectorErase (pageAddress side.other)) status g → Holds n g (some m) := by
  obtain ⟨base, n', le, tracks⟩ := tracks_of_entry holds hi here
  obtain ⟨rotated, page, away, _⟩ := rotationPage_away tracks
  have other : rotated = side.other := by
    have ne := away _ _ rfl
    cases side <;> cases rotated <;> first | exact absurd rfl ne | rfl
  subst other
  exact ⟨page, fun g status step => ⟨base, n', _, le, step.erase_register tracks away, rfl⟩⟩

/-- An append to a full journal starts with the rotation. -/
theorem exec_append_full {calls : List FlashCall} {r : AppendResult}
    (full : ∀ s, ∀ j < recordsPerPage, cells flash s j ≠ .blank)
    (rotate : Exec FlashStep (do
      let eraseFailed ← flashSectorErase (rotationPage (findNewestMetadataRecord flash))
      if eraseFailed then return (sealFor (newestRecord flash) m, (-1 : Int))
      else return (sealFor (newestRecord flash) m,
        ← writeRecord (sealFor (newestRecord flash) m) (rotationPage (findNewestMetadataRecord flash)) 0))
      flash calls r flash') : Exec FlashStep (appendMetadataRecord m) flash calls r flash' := by
  have sequence : (findNewestMetadataRecord flash).map (fun record => (loadRecord flash record).sequenceNumber) =
      (newestRecord flash).map (·.sequenceNumber) := by
    rw [newestRecord, Option.map_map]; rfl
  have primary : findFirstErasedRecord flash metadataPagePrimary = none :=
    findFirstErasedRecord_full .first (full .first)
  have secondary : findFirstErasedRecord flash metadataPageSecondary = none :=
    findFirstErasedRecord_full .second (full .second)
  unfold appendMetadataRecord
  apply Exec.view_bind
  apply Exec.view_bind
  rw [sequence]
  apply Exec.view_bind
  rw [primary]
  apply Exec.view_bind
  rw [secondary]
  exact rotate

/-- An append to a full journal whose erase is stopped halfway, by a loss of power or by an error. -/
theorem append_stopped (m' : BootMetadata) (holds : Holds n flash (some m)) (hi : index < recordsPerPage)
    (here : cells flash side index = .entry m) (full : ∀ s, ∀ j < recordsPerPage, cells flash s j ≠ .blank)
    (k : Nat) :
    Holds n (partlyErased flash side.other k) (some m) ∧
    Exec FlashStep (appendMetadataRecord m') flash [⟨flash, .sectorErase (pageAddress side.other), .cut⟩] .cut
      (partlyErased flash side.other k) ∧
    Exec FlashStep (appendMetadataRecord m') flash [⟨flash, .sectorErase (pageAddress side.other), .failed⟩]
      (.returned (sealFor (newestRecord flash) m', -1)) (partlyErased flash side.other k) := by
  have interrupted := partlyErased_interrupted flash side.other k
  obtain ⟨page, kept⟩ := rotation_of_entry holds hi here
  refine ⟨kept _ .cut (.cut interrupted), exec_append_full full ?_, exec_append_full full ?_⟩
  · rw [page]
    exact .cut (.cut interrupted)
  · rw [page]
    apply Exec.failed_bind (.failed interrupted)
    rw [if_pos rfl]
    exact .ret

/-- A full journal is rotated in two attempts: power is lost in the erase, which
leaves slot `k` as the first erased one, and the repeated append writes there. -/
structure Retried (side : Side) (k n : Nat) (flash : Flash) (m m' : BootMetadata) (torn flash' : Flash) : Prop where
  cut : ∃ calls, NeverFails calls ∧ Exec FlashStep (appendMetadataRecord m') flash calls .cut torn
  newest : newestRecord torn = some m
  append : ∃ calls, NeverFails calls ∧
    Exec FlashStep (appendMetadataRecord m') torn calls (.returned (sealFor (some m) m', 0)) flash'
  holds : Holds (n + 1) flash' (some (sealFor (some m) m'))
  here : cells flash' side.other k = .entry (sealFor (some m) m')
  front : ∀ j < k, cells flash' side.other j = cells flash side.other j
  rear : ∀ j, k < j → j < recordsPerPage → cells flash' side.other j = .blank
  same : ∀ j < recordsPerPage, cells flash' side j = cells flash side j

theorem append_retried (m' : BootMetadata) (holds : Holds n flash (some m)) (hi : index < recordsPerPage)
    (here : cells flash side index = .entry m) (full : ∀ s, ∀ j < recordsPerPage, cells flash s j ≠ .blank)
    (hk : k < recordsPerPage) (room : n + 1 < 2 ^ 31) : ∃ torn flash', Retried side k n flash m m' torn flash' := by
  obtain ⟨holds', cut, _⟩ := append_stopped m' holds hi here full k
  have ne : side ≠ side.other := by cases side <;> simp [Side.other]
  have before : ∀ j < k, cells (partlyErased flash side.other k) side.other j ≠ .blank := by
    intro j hj
    have hj' : j < recordsPerPage := Nat.lt_trans hj hk
    rw [partlyErased_cells_kept hj' (.inr hj)]
    exact full _ j hj'
  have first : side.other = .second → ∀ j < recordsPerPage,
      cells (partlyErased flash side.other k) .first j ≠ .blank := by
    intro second j hj
    rw [partlyErased_cells_kept hj (.inl (by rw [second]; simp))]
    exact full _ j hj
  obtain ⟨calls, flash', appended⟩ := append_at m' hk (partlyErased_cells_blank hk (Nat.le_refl k)) before first
  obtain ⟨newest, holds''⟩ := appended.holds holds' room
  have here' := appended.here
  have append := appended.append
  rw [newest] at here' append
  refine ⟨partlyErased flash side.other k, flash', ⟨_, ?_, cut⟩, newest, ⟨calls, appended.neverFails, append⟩,
    holds'', here', ?_, ?_, ?_⟩
  · simp [NeverFails]
  · intro j hj
    have hj' : j < recordsPerPage := Nat.lt_trans hj hk
    rw [appended.others _ _ hj' (by intro same; cases same; omega)]
    exact partlyErased_cells_kept hj' (.inr hj)
  · intro j lo hj
    rw [appended.others _ _ hj (by intro same; cases same; omega)]
    exact partlyErased_cells_blank hj (Nat.le_of_lt lo)
  · intro j hj
    rw [appended.others _ _ hj fun same => ne (congrArg Prod.fst same)]
    exact partlyErased_cells_kept hj (.inl ne)

end

end Cc1310Firmware.Bootloader
