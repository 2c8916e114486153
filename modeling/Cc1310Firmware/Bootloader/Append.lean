import Cc1310Firmware.Bootloader.Journal

/-! What appendMetadataRecord does to the journal, however it ends.

The journal holds a register value: its newest record. `append_post` is the
one description of an append that later proofs use. It is assembled from the
two phases of the function, the optional erase of the other page and the write
of one erased slot, each of which either loses no entry or adds exactly the
sealed record.
-/

set_option autoImplicit false

namespace Cc1310Firmware.Bootloader
open LittleEndian CrashProgram TwoPageLog

abbrev FlashCall := Call Flash FlashCommand

/-- A call that programs the body of a journal record. -/
def FlashCommand.isRecordBody : FlashCommand → Bool
  | .program address data => decide (address < applicationFlashStart) && data.length == sizeofBootMetadata - 4
  | .sectorErase _ => false

/-- The number of records whose programming was started. -/
def recordPrograms (calls : List FlashCall) : Nat := calls.countP fun c => c.command.isRecordBody

@[simp] theorem recordPrograms_nil : recordPrograms [] = 0 := rfl

@[simp] theorem recordPrograms_append (calls calls' : List FlashCall) :
    recordPrograms (calls ++ calls') = recordPrograms calls + recordPrograms calls' := by
  simp [recordPrograms]

/-- The journal stores `value` as its newest record, `k` record programs after it was set up. -/
def Holds (k : Nat) (flash : Flash) (value : Option BootMetadata) : Prop :=
  ∃ base n current, n ≤ k ∧ Tracks serial recordsPerPage (cells flash) base n current ∧
    current.map Prod.snd = value

theorem Holds.newestRecord_eq {k : Nat} {flash : Flash} {value : Option BootMetadata}
    (h : Holds k flash value) : newestRecord flash = value := by
  obtain ⟨base, n, current, _, tracks, rfl⟩ := h
  rw [Bootloader.newestRecord_eq, tracks.newest_eq]

theorem Holds.congr {k : Nat} {flash flash' : Flash} {value : Option BootMetadata}
    (h : Holds k flash value)
    (same : ∀ a, metadataPagePrimary ≤ a → a < applicationFlashStart → flash' a = flash a) :
    Holds k flash' value := by
  obtain ⟨base, n, current, le, tracks, rfl⟩ := h
  refine ⟨base, n, current, le, ?_, rfl⟩
  have cell : ∀ side i, i < recordsPerPage → cells flash' side i = cells flash side i := by
    intro side i hi
    apply cells_congr
    intro j hj
    have := slot_in_page side hi hj
    have := pages_in_journal side
    exact same _ (by omega) (by omega)
  refine tracks.lose ?_ ?_
  · intro side i m hi entry
    rwa [← cell side i hi]
  · intro side i m place j hj
    have := (tracks.visible side i m place).1
    exact cell side j (by omega)

theorem Holds.mono {k k' : Nat} {flash : Flash} {value : Option BootMetadata} (h : Holds k flash value)
    (le : k ≤ k') : Holds k' flash value := by
  obtain ⟨base, n, current, le', rest⟩ := h
  exact ⟨base, n, current, Nat.le_trans le' le, rest⟩

/-! ## Programming one slot -/

theorem erased_and (byte : Byte) : (0xFF : Byte) &&& byte = byte := by
  rw [show (0xFF : Byte) = BitVec.allOnes 8 from rfl, BitVec.allOnes_and]

theorem Flash.bytes_programmed (flash : Flash) (address : Nat) (data : List Byte)
    (erased : ∀ i < data.length, flash (address + i) = 0xFF) :
    (flash.programmed address data).bytes address data.length = data := by
  apply List.ext_getElem
  · simp
  · intro i h h'
    rw [getElem_bytes, programmed_at h', erased i h', erased_and]

theorem Flash.bytes_split (flash : Flash) (address first rest : Nat) :
    flash.bytes address (first + rest) = flash.bytes address first ++ flash.bytes (address + first) rest := by
  simp [bytes, List.range_add, List.map_append, Nat.add_assoc]

theorem Flash.bytes_erased {flash : Flash} {address length : Nat}
    (erased : ∀ i < length, flash (address + i) = 0xFF) :
    flash.bytes address length = List.replicate length 0xFF := by
  apply List.ext_getElem
  · simp
  · intro i h h'
    rw [getElem_bytes, List.getElem_replicate]
    exact erased i (by simpa using h)

theorem bytesOf_erased : bytesOf (~~~ 0 : Word) 4 = List.replicate 4 0xFF := by decide

/-- A sealed record whose CRC field is still erased is already complete, or not valid. -/
theorem loadRecord_of_body {flash : Flash} {slot : Nat} {m : BootMetadata} (sealed : m.Sealed)
    (body : flash.bytes slot sizeofBootMetadata = m.protectedBytes ++ List.replicate 4 0xFF)
    (valid : isValidMetadataRecord flash slot = true) : loadRecord flash slot = m := by
  have blankCrc : flash.bytes slot sizeofBootMetadata = { m with recordCrc32 := ~~~ 0 }.bytes := by
    rw [body, ← bytesOf_erased]
    rfl
  have loaded := loadRecord_of_bytes blankCrc
  have front : flash.bytes slot (sizeofBootMetadata - 4) = m.protectedBytes := by
    rw [show sizeofBootMetadata = (sizeofBootMetadata - 4) + 4 from rfl, Flash.bytes_split] at body
    exact (List.append_inj' body (by simp)).1
  have crc : (~~~ 0 : Word) = m.recordCrc32 := by
    simp only [isValidMetadataRecord, Bool.and_eq_true, beq_iff_eq, loaded, front] at valid
    rw [sealed.recordCrc32]
    exact valid.2
  rw [loaded, crc]

/-- What is known after the write of a sealed record into an erased slot, at
any point at which the write can end. -/
structure Written (flash : Flash) (m : BootMetadata) (side : Side) (index : Nat)
    (calls : List FlashCall) (r : Result Int) (flash' : Flash) : Prop where
  frame : ∀ a, ¬ (slotAddress side index ≤ a ∧ a < slotAddress side index + sizeofBootMetadata) →
    flash' a = flash a
  only : ∀ m', cells flash' side index = .entry m' → m' = m
  stored : r = .returned 0 → cells flash' side index = .entry m
  code : ∀ code, r = .returned code → code = 0 ∨ (code = -1 ∧ ∃ c ∈ calls, c.status = .failed)
  count : recordPrograms calls = 1
  programs : ∃ first ∈ calls, first.state = flash ∧
    (∃ data, data.length = sizeofBootMetadata - 4 ∧ first.command = .program (slotAddress side index) data) ∧
    ∀ c ∈ calls, c = first ∨ (∀ i < 4, c.state (slotAddress side index + (sizeofBootMetadata - 4) + i) = 0xFF) ∧
      ∃ data, data.length = 4 ∧ c.command = .program (slotAddress side index + (sizeofBootMetadata - 4)) data

theorem slot_below_application (side : Side) {index : Nat} (hi : index < recordsPerPage) :
    slotAddress side index + sizeofBootMetadata ≤ applicationFlashStart := by
  have last : sizeofBootMetadata - 1 < sizeofBootMetadata := by decide
  have slot := slot_in_page side hi last
  have page := pages_in_journal side
  simp only [sizeofBootMetadata] at slot ⊢
  omega

theorem recordPrograms_body (flash : Flash) (side : Side) {index : Nat} {data : List Byte} (status : Status)
    (hi : index < recordsPerPage) (length : data.length = sizeofBootMetadata - 4) :
    recordPrograms [⟨flash, .program (slotAddress side index) data, status⟩] = 1 := by
  have := slot_below_application side hi
  have below : slotAddress side index < applicationFlashStart := by
    simp only [sizeofBootMetadata] at this; omega
  simp [recordPrograms, FlashCommand.isRecordBody, length, below]

theorem recordPrograms_crc (flash : Flash) (address : Nat) {data : List Byte} (status : Status)
    (length : data.length = 4) : recordPrograms [⟨flash, .program address data, status⟩] = 0 := by
  simp [recordPrograms, FlashCommand.isRecordBody, length, sizeofBootMetadata]

theorem bytes_of_body {flash : Flash} {slot : Nat} (m : BootMetadata)
    (erased : ∀ i < sizeofBootMetadata, flash (slot + i) = 0xFF) :
    (flash.programmed slot m.protectedBytes).bytes slot sizeofBootMetadata =
      m.protectedBytes ++ List.replicate 4 0xFF := by
  have length := m.length_protectedBytes
  have front := Flash.bytes_programmed flash slot m.protectedBytes fun i hi => erased i (by omega)
  have rear : (flash.programmed slot m.protectedBytes).bytes (slot + (sizeofBootMetadata - 4)) 4 =
      List.replicate 4 0xFF := by
    apply Flash.bytes_erased
    intro i hi
    rw [Flash.programmed_outside (by omega), Nat.add_assoc]
    exact erased _ (by simp only [sizeofBootMetadata]; omega)
  rw [length] at front
  calc _ = _ ++ _ := Flash.bytes_split _ slot (sizeofBootMetadata - 4) 4
    _ = _ := by rw [front, rear]

theorem bytes_of_record {flash : Flash} {slot : Nat} (m : BootMetadata)
    (erased : ∀ i < sizeofBootMetadata, flash (slot + i) = 0xFF) :
    ((flash.programmed slot m.protectedBytes).programmed (slot + (sizeofBootMetadata - 4))
      (bytesOf m.recordCrc32 4)).bytes slot sizeofBootMetadata = m.bytes := by
  have length := m.length_protectedBytes
  have front := Flash.bytes_programmed flash slot m.protectedBytes fun i hi => erased i (by omega)
  have rear := Flash.bytes_programmed (flash.programmed slot m.protectedBytes)
    (slot + (sizeofBootMetadata - 4)) (bytesOf m.recordCrc32 4) ?_
  · rw [length_bytesOf] at rear
    rw [length] at front
    calc _ = _ ++ _ := Flash.bytes_split _ slot (sizeofBootMetadata - 4) 4
      _ = (flash.programmed slot m.protectedBytes).bytes slot (sizeofBootMetadata - 4) ++ _ := by
        congr 1
        exact Flash.bytes_congr fun i hi => Flash.programmed_outside (by omega)
      _ = m.bytes := by rw [front, rear, ← BootMetadata.bytes_eq]
  · intro i hi
    rw [length_bytesOf] at hi
    rw [Flash.programmed_outside (by omega), Nat.add_assoc]
    exact erased _ (by simp only [sizeofBootMetadata]; omega)

/-- A torn slot holds no entry but, at most, the record being written. -/
theorem entry_of_torn {flash complete torn : Flash} {m m' : BootMetadata} {side : Side} {index : Nat}
    (hi : index < recordsPerPage) (interrupted : Interrupted flash complete torn)
    (old : cells flash side index = .entry m' → m' = m)
    (new : cells complete side index = .entry m' → m' = m)
    (entry : cells torn side index = .entry m') : m' = m := by
  have valid := (cells_entry.mp entry).1
  have page : pageAddress side ∈ [metadataPagePrimary, metadataPageSecondary] := by
    cases side <;> simp [pageAddress]
  rcases interrupted.records _ page index hi valid with same | same
  · exact old (cells_congr same ▸ entry)
  · exact new (cells_congr same ▸ entry)

theorem cells_of_body {flash : Flash} {m m' : BootMetadata} {side : Side} {index : Nat} (sealed : m.Sealed)
    (body : flash.bytes (slotAddress side index) sizeofBootMetadata =
      m.protectedBytes ++ List.replicate 4 0xFF)
    (entry : cells flash side index = .entry m') : m' = m := by
  obtain ⟨valid, rfl⟩ := cells_entry.mp entry
  exact loadRecord_of_body sealed body valid

theorem cells_of_record {flash : Flash} {m : BootMetadata} {side : Side} {index : Nat} (sealed : m.Sealed)
    (record : flash.bytes (slotAddress side index) sizeofBootMetadata = m.bytes) :
    cells flash side index = .entry m :=
  cells_entry.mpr ⟨valid_of_sealed sealed record, loadRecord_of_bytes record⟩

def bodyCommand (m : BootMetadata) (side : Side) (index : Nat) : FlashCommand :=
  .program (slotAddress side index) m.protectedBytes

def crcCommand (m : BootMetadata) (side : Side) (index : Nat) : FlashCommand :=
  .program (slotAddress side index + (sizeofBootMetadata - 4)) (bytesOf m.recordCrc32 4)

section
variable {flash flash' : Flash} {m : BootMetadata} {side : Side} {index : Nat} {status : Status}
  {r : Result Int}

theorem body_frame (step : FlashStep flash (bodyCommand m side index) status flash') {a : Nat}
    (away : ¬ (slotAddress side index ≤ a ∧ a < slotAddress side index + sizeofBootMetadata)) :
    flash' a = flash a := by
  apply step.unchanged
  simp only [bodyCommand, FlashCommand.Touches, BootMetadata.length_protectedBytes, sizeofBootMetadata] at *
  omega

theorem crc_frame (step : FlashStep flash (crcCommand m side index) status flash') {a : Nat}
    (away : ¬ (slotAddress side index ≤ a ∧ a < slotAddress side index + sizeofBootMetadata)) :
    flash' a = flash a := by
  apply step.unchanged
  simp only [crcCommand, FlashCommand.Touches, length_bytesOf, sizeofBootMetadata] at *
  omega

/-- The write ends inside the body. -/
theorem Written.of_body (sealed : m.Sealed) (hi : index < recordsPerPage)
    (blank : cells flash side index = .blank) (step : FlashStep flash (bodyCommand m side index) status flash')
    (ended : (status = .failed ∧ r = .returned (-1)) ∨ (status = .cut ∧ r = .cut)) :
    Written flash m side index [⟨flash, bodyCommand m side index, status⟩] r flash' := by
  have erased := isErasedRecord_iff.mp (cells_blank.mp blank)
  have interrupted : Interrupted flash ((bodyCommand m side index).complete flash) flash' := by
    cases step with
    | done => simp at ended
    | failed interrupted => exact interrupted
    | cut interrupted => exact interrupted
  constructor
  case frame => exact fun a away => body_frame step away
  case only =>
    intro m' entry
    refine entry_of_torn hi interrupted ?_ (cells_of_body sealed (bytes_of_body m erased)) entry
    intro old; rw [blank] at old; cases old
  case stored => rintro rfl; simp at ended
  case code =>
    rintro code rfl
    simp only [Result.returned.injEq, reduceCtorEq, and_false, or_false] at ended
    exact Or.inr ⟨ended.2, _, List.mem_singleton.mpr rfl, ended.1⟩
  case count => exact recordPrograms_body flash side status hi m.length_protectedBytes
  case programs =>
    exact ⟨_, List.mem_singleton.mpr rfl, rfl, ⟨_, m.length_protectedBytes, rfl⟩,
      fun c member => Or.inl (List.mem_singleton.mp member)⟩

/-- The body is complete, and the write ends with its CRC. -/
theorem Written.of_crc (sealed : m.Sealed) (hi : index < recordsPerPage)
    (blank : cells flash side index = .blank)
    (step : FlashStep ((bodyCommand m side index).complete flash) (crcCommand m side index) status flash')
    (inside : (bodyCommand m side index).InFlash)
    (ended : (status = .done ∧ r = .returned 0) ∨ (status = .failed ∧ r = .returned (-1)) ∨
      (status = .cut ∧ r = .cut)) :
    Written flash m side index [⟨flash, bodyCommand m side index, .done⟩,
      ⟨(bodyCommand m side index).complete flash, crcCommand m side index, status⟩] r flash' := by
  have erased := isErasedRecord_iff.mp (cells_blank.mp blank)
  -- before the CRC call the slot is no record, or already the one being written
  have bodyOnly : ∀ m', cells ((bodyCommand m side index).complete flash) side index = .entry m' → m' = m :=
    fun m' => cells_of_body sealed (bytes_of_body m erased)
  have whole : cells ((crcCommand m side index).complete ((bodyCommand m side index).complete flash)) side index =
      .entry m := cells_of_record sealed (bytes_of_record m erased)
  have wholeOnly : ∀ m', cells ((crcCommand m side index).complete
      ((bodyCommand m side index).complete flash)) side index = .entry m' → m' = m := by
    intro m' entry
    rw [whole] at entry; cases entry; rfl
  constructor
  case frame =>
    intro a away
    rw [crc_frame step away]
    exact body_frame (.done inside) away
  case only =>
    intro m' entry
    cases step with
    | done => exact wholeOnly m' entry
    | failed interrupted => exact entry_of_torn hi interrupted (bodyOnly m') (wholeOnly m') entry
    | cut interrupted => exact entry_of_torn hi interrupted (bodyOnly m') (wholeOnly m') entry
  case stored =>
    rintro rfl
    cases step with
    | done => exact whole
    | failed => simp at ended
    | cut => simp at ended
  case code =>
    rintro code rfl
    simp only [Result.returned.injEq, reduceCtorEq, and_false, or_false] at ended
    rcases ended with ⟨_, rfl⟩ | ⟨rfl, rfl⟩
    · exact Or.inl rfl
    · exact Or.inr ⟨rfl, _, List.mem_cons_of_mem _ (List.mem_singleton.mpr rfl), rfl⟩
  case count =>
    have body := recordPrograms_body flash side .done hi m.length_protectedBytes
    have crc := recordPrograms_crc ((bodyCommand m side index).complete flash)
      (slotAddress side index + (sizeofBootMetadata - 4)) status (length_bytesOf m.recordCrc32 4)
    exact (recordPrograms_append [_] [_]).trans (congrArg₂ (· + ·) body crc)
  case programs =>
    refine ⟨_, List.mem_cons_self, rfl, ⟨_, m.length_protectedBytes, rfl⟩, fun c member => ?_⟩
    simp only [List.mem_cons, List.not_mem_nil, or_false] at member
    refine member.imp id ?_
    rintro rfl
    refine ⟨fun i hi' => ?_, _, length_bytesOf _ _, rfl⟩
    change flash.programmed (slotAddress side index) m.protectedBytes _ = _
    rw [Flash.programmed_outside (by rw [BootMetadata.length_protectedBytes]; omega), Nat.add_assoc]
    exact erased _ (by simp only [sizeofBootMetadata]; omega)

theorem writeRecord_written (sealed : m.Sealed) (hi : index < recordsPerPage)
    (blank : cells flash side index = .blank) :
    Ensures FlashStep (writeRecord m (pageAddress side) index) flash (Written flash m side index) := by
  have body : FlashCommand.program (recordAddress (pageAddress side) index)
      (({ m with recordCrc32 := ~~~ 0 }.bytes).take (sizeofBootMetadata - 4)) = bodyCommand m side index := by
    rw [BootMetadata.take_bytes, BootMetadata.protectedBytes_crc]; rfl
  have crc : FlashCommand.program (recordAddress (pageAddress side) index + sizeofBootMetadata - 4)
      (bytesOf m.recordCrc32 4) = crcCommand m side index := rfl
  unfold writeRecord flashProgram
  simp only [body, crc, ensures_bind, ensures_issue, Result.andThen_returned, Result.andThen_cut]
  refine ⟨fun g step => ?_, fun g step => ?_, fun g step => ?_⟩
  · -- The body is programmed; what the CRC call does decides the rest.
    obtain ⟨inside⟩ := step
    simp only [Bool.false_eq_true, if_false, ensures_bind, ensures_issue, Result.andThen_returned,
      Result.andThen_cut, if_true, ensures_pure]
    refine ⟨fun g' step => ?_, fun g' step => ?_, fun g' step => ?_⟩
    · exact .of_crc sealed hi blank step inside (.inl ⟨rfl, rfl⟩)
    · exact .of_crc sealed hi blank step inside (.inr (.inl ⟨rfl, rfl⟩))
    · exact .of_crc sealed hi blank step inside (.inr (.inr ⟨rfl, rfl⟩))
  · simpa using Written.of_body sealed hi blank step (.inl ⟨rfl, rfl⟩)
  · exact .of_body sealed hi blank step (.inr ⟨rfl, rfl⟩)

end

/-! ## The journal as a register -/

theorem Written.cells_other {flash flash' : Flash} {m : BootMetadata} {side : Side} {index : Nat}
    {calls : List FlashCall} {r : Result Int} (h : Written flash m side index calls r flash')
    (hi : index < recordsPerPage) {other : Side} {j : Nat} (hj : j < recordsPerPage)
    (ne : (other, j) ≠ (side, index)) : cells flash' other j = cells flash other j := by
  apply cells_congr
  intro i hi'
  apply h.frame
  rintro ⟨lo, hi''⟩
  have offset : slotAddress other j + i - slotAddress side index < sizeofBootMetadata := by omega
  exact slots_disjoint hi hj ne offset hi' (by omega)

/-- A write of the following record into the first erased slot of a page. -/
theorem Written.register {flash flash' : Flash} {m : BootMetadata} {side : Side} {index : Nat}
    {calls : List FlashCall} {r : Result Int} (h : Written flash m side index calls r flash')
    {base : BitVec (31 + 1)} {n : Nat} {current : Option ((Side × Nat) × BootMetadata)}
    (tracks : Tracks serial recordsPerPage (cells flash) base n current) (hi : index < recordsPerPage)
    (blank : cells flash side index = .blank) (before : ∀ j < index, cells flash side j ≠ .blank)
    (next : follows serial current m) (room : n + 1 < 2 ^ 31) :
    ∃ base' n' current', n' ≤ n + 1 ∧ Tracks serial recordsPerPage (cells flash') base' n' current' ∧
      (current' = current ∨ current' = some ((side, index), m)) ∧
      (r = .returned 0 → current' = some ((side, index), m)) := by
  have others : ∀ s j, j < recordsPerPage → (s, j) ≠ (side, index) → cells flash' s j = cells flash s j :=
    fun _ _ hj ne => h.cells_other hi hj ne
  cases cell : cells flash' side index with
  | entry m' =>
    cases h.only m' cell
    obtain ⟨base', n', le, tracks'⟩ := tracks.write hi before others cell next room
    exact ⟨base', n', _, le, tracks', Or.inr rfl, fun _ => rfl⟩
  | blank =>
    refine ⟨base, n, current, by omega, tracks.torn_write blank others (by simp [cell]), Or.inl rfl, ?_⟩
    intro done
    rw [h.stored done] at cell; cases cell
  | junk =>
    refine ⟨base, n, current, by omega, tracks.torn_write blank others (by simp [cell]), Or.inl rfl, ?_⟩
    intro done
    rw [h.stored done] at cell; cases cell

theorem cells_of_erased {flash : Flash} {side : Side} {index : Nat} (hi : index < recordsPerPage) :
    cells (flash.erased (pageAddress side)) side index = .blank := by
  rw [cells_blank, isErasedRecord_iff]
  intro i hi'
  obtain ⟨lo, hi''⟩ := slot_in_page side hi hi'
  exact Flash.erased_at lo hi''

theorem FlashStep.erase_frame {flash flash' : Flash} {side : Side} {status : Status}
    (step : FlashStep flash (.sectorErase (pageAddress side)) status flash') {a : Nat}
    (away : a < metadataPagePrimary ∨ applicationFlashStart ≤ a) : flash' a = flash a := by
  apply step.unchanged
  have page := pages_in_journal side
  simp only [FlashCommand.Touches, flashPageSize] at *
  omega

/-- An erase of the page without the newest record, complete or not. -/
theorem FlashStep.erase_register {flash flash' : Flash} {side : Side} {status : Status}
    (step : FlashStep flash (.sectorErase (pageAddress side)) status flash')
    {base : BitVec (31 + 1)} {n : Nat} {current : Option ((Side × Nat) × BootMetadata)}
    (tracks : Tracks serial recordsPerPage (cells flash) base n current)
    (away : ∀ place m, current = some (place, m) → place.1 ≠ side) :
    Tracks serial recordsPerPage (cells flash') base n current := by
  refine tracks.erase away ?_ ?_
  · intro s j hj ne
    apply cells_congr
    intro i hi
    apply step.unchanged
    have here := slot_in_page s hj hi
    cases s <;> cases side <;>
      simp only [FlashCommand.Touches, pageAddress, metadataPagePrimary, metadataPageSecondary,
        flashPageSize] at * <;>
      first | exact absurd rfl ne | omega
  · intro j m hj entry
    have noEntry : cells (flash.erased (pageAddress side)) side j ≠ .entry m := by
      rw [cells_of_erased hj]; simp
    have page : pageAddress side ∈ [metadataPagePrimary, metadataPageSecondary] := by
      cases side <;> simp [pageAddress]
    have torn : ∀ g, Interrupted flash (flash.erased (pageAddress side)) g → cells g side j = .entry m →
        cells flash side j = .entry m := by
      intro g interrupted entry
      rcases interrupted.records _ page j hj (cells_entry.mp entry).1 with same | same
      · exact cells_congr same ▸ entry
      · exact absurd (cells_congr same ▸ entry) noEntry
    cases step with
    | done => exact absurd entry noEntry
    | failed interrupted => exact torn _ interrupted entry
    | cut interrupted => exact torn _ interrupted entry

/-- A program call that writes its part of a slot which was erased as a whole
when the append came to it. -/
def ProgramsErasedSlot (calls : List FlashCall) (c : FlashCall) : Prop :=
  ∃ side index, index < recordsPerPage ∧ ∃ first ∈ calls,
    isErasedRecord first.state (slotAddress side index) = true ∧
    (∃ data, data.length = sizeofBootMetadata - 4 ∧ first.command = .program (slotAddress side index) data) ∧
    (c = first ∨ (∀ i < 4, c.state (slotAddress side index + (sizeofBootMetadata - 4) + i) = 0xFF) ∧
      ∃ data, data.length = 4 ∧ c.command = .program (slotAddress side index + (sizeofBootMetadata - 4)) data)

/-- An erase of a metadata page that does not hold the newest record. -/
def ErasesOtherPage (c : FlashCall) (page : Nat) : Prop :=
  (page = metadataPagePrimary ∨ page = metadataPageSecondary) ∧
  ∀ record, findNewestMetadataRecord c.state = some record → ¬ (page ≤ record ∧ record < page + flashPageSize)

/-- The record as an append to a journal with this newest record stores it. -/
def sealFor (value : Option BootMetadata) (m : BootMetadata) : BootMetadata :=
  sealRecord (value.map (·.sequenceNumber)) m

structure Appended (k : Nat) (flash : Flash) (value : Option BootMetadata) (m : BootMetadata)
    (calls : List FlashCall) (r : Result (BootMetadata × Int)) (flash' : Flash) : Prop where
  frame : ∀ a, a < metadataPagePrimary ∨ applicationFlashStart ≤ a → flash' a = flash a
  returned : ∀ m' code, r = .returned (m', code) →
    m' = sealFor value m ∧ (code = 0 ∨ (code = -1 ∧ ∃ c ∈ calls, c.status = .failed))
  register : k + recordPrograms calls < 2 ^ 31 → ∃ value', Holds (k + recordPrograms calls) flash' value' ∧
    (value' = value ∨ value' = some (sealFor value m)) ∧
    (∀ m', r = .returned (m', 0) → value' = some (sealFor value m))
  count : recordPrograms calls ≤ 1
  programs : ∀ c ∈ calls, ∀ address data, c.command = .program address data → ProgramsErasedSlot calls c
  erases : ∀ c ∈ calls, ∀ page, c.command = .sectorErase page → ErasesOtherPage c page

section
variable {k n : Nat} {flash g : Flash} {value : Option BootMetadata} {m : BootMetadata}
  {base : BitVec (31 + 1)} {current : Option ((Side × Nat) × BootMetadata)}

theorem sealFor_follows (same : current.map Prod.snd = value) : follows serial current (sealFor value m) := by
  intro place b here
  subst same
  rw [here]; rfl

/-- The writing half of an append, after the calls in `erases`. -/
theorem append_write {side : Side} {index : Nat} (le : n ≤ k)
    (tracks : Tracks serial recordsPerPage (cells g) base n current) (same : current.map Prod.snd = value)
    (hi : index < recordsPerPage) (blank : cells g side index = .blank)
    (before : ∀ j < index, cells g side j ≠ .blank)
    (outside : ∀ a, a < metadataPagePrimary ∨ applicationFlashStart ≤ a → g a = flash a) (erases : List FlashCall)
    (each : ∀ c ∈ erases, ∃ page, c.command = .sectorErase page ∧ ErasesOtherPage c page) :
    Ensures FlashStep (do return (sealFor value m, ← writeRecord (sealFor value m) (pageAddress side) index)) g
      fun calls r flash' => Appended k flash value m (erases ++ calls) r flash' := by
  have none_ : recordPrograms erases = 0 := by
    simp only [recordPrograms, List.countP_eq_zero]
    intro c member
    obtain ⟨page, command, _⟩ := each c member
    simp [command, FlashCommand.isRecordBody]
  rw [ensures_bind]
  refine (writeRecord_written (sealRecord_sealed _ m) hi blank).mono ?_
  intro calls r flash' written
  have frame : ∀ a, a < metadataPagePrimary ∨ applicationFlashStart ≤ a → flash' a = flash a := by
    intro a away
    rw [← outside a away]
    apply written.frame
    have slot := slot_below_application side hi
    have page := pages_in_journal side
    have start : pageAddress side ≤ slotAddress side index := Nat.le_add_right _ _
    omega
  -- `stored` stands for what the return code will say of the write
  have register : ∀ stored : Prop, (stored → r = .returned 0) → k + recordPrograms (erases ++ calls) < 2 ^ 31 →
      ∃ value', Holds (k + recordPrograms (erases ++ calls)) flash' value' ∧
        (value' = value ∨ value' = some (sealFor value m)) ∧ (stored → value' = some (sealFor value m)) := by
    intro stored done room
    rw [recordPrograms_append, none_, written.count] at room ⊢
    obtain ⟨base', n', current', le', tracks', which, kept⟩ :=
      written.register tracks hi blank before (sealFor_follows same) (by omega)
    refine ⟨current'.map Prod.snd, ⟨base', n', current', by omega, tracks', rfl⟩, ?_, ?_⟩
    · rcases which with rfl | rfl
      · exact Or.inl same
      · exact Or.inr rfl
    · intro h; rw [kept (done h)]; rfl
  have count : recordPrograms (erases ++ calls) ≤ 1 := by
    rw [recordPrograms_append, none_, written.count]
  -- the slot was blank when its first call came
  have programs : ∀ c ∈ erases ++ calls, ∀ address data, c.command = .program address data →
      ProgramsErasedSlot (erases ++ calls) c := by
    intro c member address data command
    rcases List.mem_append.mp member with old | new
    · obtain ⟨page, command', _⟩ := each c old
      rw [command] at command'; cases command'
    · obtain ⟨first, first', state, body, rest⟩ := written.programs
      refine ⟨side, index, hi, first, List.mem_append_right _ first', ?_, body, rest c new⟩
      rw [state]
      exact cells_blank.mp blank
  have erases' : ∀ c ∈ erases ++ calls, ∀ page, c.command = .sectorErase page → ErasesOtherPage c page := by
    intro c member page command
    rcases List.mem_append.mp member with old | new
    · obtain ⟨page', command', other⟩ := each c old
      rw [command] at command'; cases command'
      exact other
    · obtain ⟨first, _, _, ⟨data, _, body⟩, rest⟩ := written.programs
      rcases rest c new with rfl | ⟨_, _, _, crc⟩
      · rw [command] at body; cases body
      · rw [command] at crc; cases crc
  cases r with
  | cut => exact ⟨frame, by simp, by simpa using register False False.elim, count, programs, erases'⟩
  | returned code =>
    simp only [Result.andThen_returned, ensures_pure, List.append_nil]
    refine ⟨frame, ?_, ?_, count, programs, erases'⟩
    · rintro m' code' ⟨⟩
      rcases written.code code rfl with zero | ⟨failed, c, member, status⟩
      · exact ⟨rfl, .inl zero⟩
      · exact ⟨rfl, .inr ⟨failed, c, List.mem_append_right _ member, status⟩⟩
    · simpa using register (code = 0) (by rintro rfl; rfl)

/-- The rotated page is the one without the newest record. -/
theorem rotationPage_away (tracks : Tracks serial recordsPerPage (cells flash) base n current) :
    ∃ side, rotationPage (findNewestMetadataRecord flash) = pageAddress side ∧
      (∀ place m, current = some (place, m) → place.1 ≠ side) ∧
      ∀ status, ErasesOtherPage ⟨flash, .sectorErase (pageAddress side), status⟩ (pageAddress side) := by
  have names := findNewestMetadataRecord_names flash
  rw [tracks.newest_eq] at names
  rcases current with _ | ⟨⟨here, i⟩, m⟩
  · have none_ : findNewestMetadataRecord flash = none := names
    refine ⟨.second, by rw [none_]; rfl, by simp, fun status => ⟨Or.inr rfl, ?_⟩⟩
    simp [none_]
  · obtain ⟨pointer, _⟩ := names
    have hi := (tracks.visible here i m rfl).1
    have slot := slot_in_page here hi (show 0 < sizeofBootMetadata by decide)
    refine ⟨here.other, ?_, ?_, fun status => ⟨?_, ?_⟩⟩
    · rw [pointer]
      simp only [Nat.add_zero] at slot
      cases here with
      | first =>
        have below : ¬ metadataPageSecondary ≤ slotAddress .first i := Nat.not_le_of_lt slot.2
        simp [rotationPage, below, pageAddress, Side.other]
      | second => simp [rotationPage, pageAddress, Side.other, show metadataPageSecondary ≤ _ from slot.1]
    · rintro place m' ⟨⟩
      cases here <;> simp [Side.other]
    · cases here <;> simp [pageAddress, Side.other]
    · intro record found
      rw [pointer] at found
      cases found
      cases here <;> simp only [pageAddress, Side.other, metadataPagePrimary, metadataPageSecondary,
        flashPageSize] at slot ⊢ <;> omega

/-- The rotating half of an append, from a journal without erased records. -/
theorem append_rotate (le : n ≤ k) (tracks : Tracks serial recordsPerPage (cells flash) base n current)
    (same : current.map Prod.snd = value) :
    Ensures FlashStep (do
      let eraseFailed ← flashSectorErase (rotationPage (findNewestMetadataRecord flash))
      if eraseFailed then return (sealFor value m, (-1 : Int))
      else return (sealFor value m, ← writeRecord (sealFor value m) (rotationPage (findNewestMetadataRecord flash)) 0))
      flash (Appended k flash value m) := by
  obtain ⟨side, page, away, other⟩ := rotationPage_away tracks
  rw [page, flashSectorErase, ensures_bind, ensures_issue]
  have command : ∀ status, ∀ c ∈ ([⟨flash, .sectorErase (pageAddress side), status⟩] : List FlashCall),
      ∃ page, c.command = .sectorErase page ∧ ErasesOtherPage c page := by
    intro status c member
    rw [List.mem_singleton] at member
    subst c
    exact ⟨_, rfl, other status⟩
  -- An erase that did not complete has lost no record, and nothing is written after it.
  have ended : ∀ (status : Status) (r : Result (BootMetadata × Int)) (g : Flash),
      FlashStep flash (.sectorErase (pageAddress side)) status g →
      ((status = .failed ∧ r = .returned (sealFor value m, -1)) ∨ (status = .cut ∧ r = .cut)) →
      Appended k flash value m [⟨flash, .sectorErase (pageAddress side), status⟩] r g := by
    intro status r g step how
    refine ⟨fun a outside => step.erase_frame outside, ?_, ?_, by simp [recordPrograms, FlashCommand.isRecordBody],
      ?_, ?_⟩
    · rintro m' code rfl
      simp only [Result.returned.injEq, Prod.mk.injEq, reduceCtorEq, and_false, or_false] at how
      obtain ⟨rfl, rfl, rfl⟩ := how
      exact ⟨rfl, Or.inr ⟨rfl, _, List.mem_singleton.mpr rfl, rfl⟩⟩
    · intro _
      refine ⟨value, ⟨base, n, current, Nat.le_trans le (Nat.le_add_right _ _),
        step.erase_register tracks away, same⟩, Or.inl rfl, ?_⟩
      rintro m' rfl
      simp at how
    · intro c member address data program
      obtain ⟨page, erase, _⟩ := command status c member
      rw [program] at erase; cases erase
    · intro c member page erase
      obtain ⟨page', erase', other'⟩ := command status c member
      rw [erase] at erase'; cases erase'
      exact other'
  refine ⟨fun g step => ?_, fun g step => ?_, fun g step => ?_⟩
  · have erased : g = flash.erased (pageAddress side) := by cases step; rfl
    have tracks' := step.erase_register tracks away
    have blank : cells g side 0 = .blank := by rw [erased]; exact cells_of_erased (by decide)
    exact append_write le tracks' same (by decide) blank (by simp) (fun a outside => step.erase_frame outside) _
      (command .done)
  · simpa using ended .failed _ g step (Or.inl ⟨rfl, rfl⟩)
  · exact ended .cut _ g step (Or.inr ⟨rfl, rfl⟩)

/-- What every append does, to the end or cut off. -/
theorem append_appended (holds : Holds k flash value) :
    Ensures FlashStep (appendMetadataRecord m) flash (Appended k flash value m) := by
  have newest := holds.newestRecord_eq
  have sequence : (findNewestMetadataRecord flash).map (fun record => (loadRecord flash record).sequenceNumber) =
      value.map (·.sequenceNumber) := by
    rw [← newest, newestRecord, Option.map_map]; rfl
  obtain ⟨base, n, current, le, tracks, same⟩ := holds
  unfold appendMetadataRecord
  simp only [ensures_view_bind, sequence]
  cases primary : findFirstErasedRecord flash metadataPagePrimary with
  | some index =>
    obtain ⟨hi, blank, before⟩ := findFirstErasedRecord_some .first primary
    exact append_write le tracks same hi blank before (fun _ _ => rfl) [] (by simp)
  | none =>
    simp only [ensures_view_bind]
    cases secondary : findFirstErasedRecord flash metadataPageSecondary with
    | some index =>
      obtain ⟨hi, blank, before⟩ := findFirstErasedRecord_some .second secondary
      exact append_write le tracks same hi blank before (fun _ _ => rfl) [] (by simp)
    | none => exact append_rotate le tracks same

/-- The calls of a write that completes. -/
def writeCalls (flash : Flash) (m : BootMetadata) (side : Side) (index : Nat) : List FlashCall :=
  [⟨flash, bodyCommand m side index, .done⟩,
    ⟨(bodyCommand m side index).complete flash, crcCommand m side index, .done⟩]

def writeFlash (flash : Flash) (m : BootMetadata) (side : Side) (index : Nat) : Flash :=
  (crcCommand m side index).complete ((bodyCommand m side index).complete flash)

theorem writeRecord_completes (side : Side) {index : Nat} (hi : index < recordsPerPage) (flash : Flash)
    (m : BootMetadata) :
    Exec FlashStep (writeRecord m (pageAddress side) index) flash (writeCalls flash m side index)
      (.returned 0) (writeFlash flash m side index) := by
  have slot := slot_below_application side hi
  have inside : (bodyCommand m side index).InFlash ∧ (crcCommand m side index).InFlash := by
    simp only [bodyCommand, crcCommand, FlashCommand.InFlash, BootMetadata.length_protectedBytes,
      length_bytesOf, sizeofBootMetadata, applicationFlashStart, flashSize] at *
    omega
  have body : FlashCommand.program (recordAddress (pageAddress side) index)
      (({ m with recordCrc32 := ~~~ 0 }.bytes).take (sizeofBootMetadata - 4)) = bodyCommand m side index := by
    rw [BootMetadata.take_bytes, BootMetadata.protectedBytes_crc]; rfl
  unfold writeRecord flashProgram
  simp only [body]
  apply Exec.done_bind (.done inside.1)
  apply Exec.done_bind (.done inside.2)
  exact .ret

/-- An append can complete: into the first erased record of the primary page,
or of the secondary page when the primary has none. -/
theorem append_completes {side : Side} {index : Nat} (newest : newestRecord flash = value)
    (free : findFirstErasedRecord flash (pageAddress side) = some index)
    (full : side = .second → findFirstErasedRecord flash metadataPagePrimary = none) :
    Exec FlashStep (appendMetadataRecord m) flash (writeCalls flash (sealFor value m) side index)
      (.returned (sealFor value m, 0)) (writeFlash flash (sealFor value m) side index) := by
  have sequence : (findNewestMetadataRecord flash).map (fun record => (loadRecord flash record).sequenceNumber) =
      value.map (·.sequenceNumber) := by
    rw [← newest, newestRecord, Option.map_map]; rfl
  have hi := (findFirstErasedRecord_some side free).1
  have write : Exec FlashStep (do return (sealFor value m, ← writeRecord (sealFor value m) (pageAddress side) index))
      flash (writeCalls flash (sealFor value m) side index) (.returned (sealFor value m, 0))
      (writeFlash flash (sealFor value m) side index) :=
    (writeRecord_completes side hi flash (sealFor value m)).bind .ret
  unfold appendMetadataRecord
  apply Exec.view_bind
  apply Exec.view_bind
  rw [sequence]
  apply Exec.view_bind
  cases side with
  | first =>
    rw [show findFirstErasedRecord flash metadataPagePrimary = some index from free]
    exact write
  | second =>
    rw [full rfl]
    apply Exec.view_bind
    rw [show findFirstErasedRecord flash metadataPageSecondary = some index from free]
    exact write

end

end Cc1310Firmware.Bootloader
