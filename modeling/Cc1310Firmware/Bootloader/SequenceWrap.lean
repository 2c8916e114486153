import Cc1310Firmware.Bootloader.FactoryChip
import Cc1310Firmware.Bootloader.JournalLayout

/-! What becomes of the journal after 2^31 records.

Erases that are interrupted again and again can leave the record of the factory
in its slot for as long as the chip lives. Sequence numbers are compared on a
circle, so the 2^31st record after it is no longer newer: an append returns 0,
and the reader goes on to return the record before. The runs here get a factory
chip to that point without a failing flash call.
-/

set_option autoImplicit false

namespace Cc1310Firmware.Bootloader
open LittleEndian CrashProgram LabelledRun TwoPageLog SerialNumber

/-- Slots in the order in which they are used. -/
def slotOf (p : Nat) : Side × Nat := if p < recordsPerPage then (.first, p) else (.second, p - recordsPerPage)

def cellAt (flash : Flash) (p : Nat) : Cell BootMetadata := cells flash (slotOf p).1 (slotOf p).2

def slotCount : Nat := 2 * recordsPerPage

theorem slotOf_lt {p : Nat} (hp : p < slotCount) : (slotOf p).2 < recordsPerPage := by
  unfold slotOf
  simp only [slotCount] at hp
  split
  · assumption
  · dsimp only; omega

theorem slotOf_injective {p q : Nat} (same : slotOf p = slotOf q) : p = q := by
  unfold slotOf at same
  split at same <;> split at same <;> simp only [Prod.mk.injEq, true_and, reduceCtorEq, false_and] at same <;> omega

theorem slotOf_first {p : Nat} (hp : p < recordsPerPage) : slotOf p = (.first, p) := if_pos hp

theorem slotOf_second (j : Nat) : slotOf (recordsPerPage + j) = (.second, j) := by
  unfold slotOf
  rw [if_neg (by omega), Nat.add_sub_cancel_left]

theorem slot_of_index (side : Side) {j : Nat} (hj : j < recordsPerPage) :
    ∃ q, q < slotCount ∧ slotOf q = (side, j) := by
  cases side with
  | first => exact ⟨j, by simp only [slotCount]; omega, slotOf_first hj⟩
  | second => exact ⟨recordsPerPage + j, by simp only [slotCount]; omega, slotOf_second j⟩

/-- The slots in front of a slot of the same page come before it. -/
theorem slot_before {p j : Nat} (hj : j < (slotOf p).2) : ∃ q < p, slotOf q = ((slotOf p).1, j) := by
  by_cases hp : p < recordsPerPage
  · rw [slotOf_first hp] at hj ⊢
    exact ⟨j, hj, slotOf_first (Nat.lt_trans hj hp)⟩
  · obtain ⟨i, rfl⟩ := Nat.exists_eq_add_of_le (Nat.le_of_not_lt hp)
    rw [slotOf_second] at hj ⊢
    exact ⟨recordsPerPage + j, Nat.add_lt_add_left hj _, slotOf_second j⟩

/-- The newest record, the `n`-th after that of the factory, is in slot `p`, and
the slots after it are erased. -/
structure Filled (p n : Nat) (flash : Flash) (m : BootMetadata) : Prop where
  holds : Holds n flash (some m)
  oldest : cells flash .first 0 = .entry factoryRecord
  used : ∀ q ≤ p, cellAt flash q ≠ .blank
  free : ∀ q, p < q → q < slotCount → cellAt flash q = .blank
  here : cellAt flash p = .entry m
  sequence : m.sequenceNumber = BitVec.ofNat 32 (n + 1)

section
variable {p n : Nat} {flash : Flash} {m : BootMetadata}

theorem sealFor_sequence {n : Nat} {m : BootMetadata} (sequence : m.sequenceNumber = BitVec.ofNat 32 (n + 1))
    (m' : BootMetadata) : (sealFor (some m) m').sequenceNumber = BitVec.ofNat 32 (n + 1 + 1) := by
  change m.sequenceNumber + 1 = _
  rw [sequence, BitVec.ofNat_add (n + 1) 1]
  rfl

/-- The next append writes the next slot. -/
theorem Filled.append (filled : Filled p n flash m) (m' : BootMetadata) (slots : p + 1 < slotCount)
    (room : n + 1 < 2 ^ 31) : ∃ calls flash', NeverFails calls ∧
      Exec FlashStep (appendMetadataRecord m') flash calls (.returned (sealFor (some m) m', 0)) flash' ∧
      Filled (p + 1) (n + 1) flash' (sealFor (some m) m') := by
  have before : ∀ j < (slotOf (p + 1)).2, cells flash (slotOf (p + 1)).1 j ≠ .blank := by
    intro j hj
    obtain ⟨q, hq, at_⟩ := slot_before hj
    have used := filled.used q (by omega)
    rwa [cellAt, at_] at used
  -- the second page is written only when the first has no blank slot left
  have full : (slotOf (p + 1)).1 = .second → ∀ j < recordsPerPage, cells flash .first j ≠ .blank := by
    intro second j hj
    have past : recordsPerPage ≤ p + 1 := by
      unfold slotOf at second
      split at second
      · cases second
      · omega
    have used := filled.used j (by omega)
    rwa [cellAt, slotOf_first hj] at used
  obtain ⟨calls, flash', appended⟩ :=
    append_at m' (slotOf_lt slots) (filled.free _ (Nat.lt_succ_self p) slots) before full
  obtain ⟨newest, holds⟩ := appended.holds filled.holds room
  have here := appended.here
  have append := appended.append
  rw [newest] at here append
  have others : ∀ q, q < slotCount → q ≠ p + 1 → cellAt flash' q = cellAt flash q := by
    intro q hq ne
    exact appended.others _ _ (slotOf_lt hq) fun same => ne (slotOf_injective same)
  refine ⟨calls, flash', appended.neverFails, append, holds, ?_, ?_, ?_, here, sealFor_sequence filled.sequence m'⟩
  · rw [← filled.oldest]
    exact others 0 (by decide) (by omega)
  · intro q hq
    rcases Nat.eq_or_lt_of_le hq with rfl | lt
    · rw [cellAt, here]; simp
    · rw [others q (by omega) (by omega)]
      exact filled.used q (by omega)
  · intro q lo hi
    rw [others q hi (by omega)]
    exact filled.free q (by omega) hi

theorem Filled.full (filled : Filled p n flash m) (last : p + 1 = slotCount) :
    ∀ s, ∀ j < recordsPerPage, cells flash s j ≠ .blank := by
  intro s j hj
  obtain ⟨q, hq, at_⟩ := slot_of_index s hj
  have used := filled.used q (by omega)
  rwa [cellAt, at_] at used

/-- The last slot of the primary page was written, in a journal without erased slots. -/
structure Turning (n : Nat) (flash : Flash) (m : BootMetadata) : Prop where
  holds : Holds n flash (some m)
  oldest : cells flash .first 0 = .entry factoryRecord
  full : ∀ s, ∀ j < recordsPerPage, cells flash s j ≠ .blank
  here : cells flash .first 84 = .entry m
  sequence : m.sequenceNumber = BitVec.ofNat 32 (n + 1)

/-- A full journal goes on in the last slot of the primary page. -/
theorem Filled.turning (filled : Filled 169 n flash m) (m' : BootMetadata) (room : n + 1 < 2 ^ 31) :
    ∃ torn flash', Retried .second 84 n flash m m' torn flash' ∧ Turning (n + 1) flash' (sealFor (some m) m') := by
  have full := filled.full rfl
  obtain ⟨torn, flash', retried⟩ := append_retried m' filled.holds (show 84 < recordsPerPage by decide)
    (show cells flash .second 84 = .entry m from filled.here) full (show 84 < recordsPerPage by decide) room
  refine ⟨torn, flash', retried, retried.holds, ?_, ?_, retried.here, sealFor_sequence filled.sequence m'⟩
  · rw [← filled.oldest]
    exact retried.front 0 (by decide)
  · intro s j hj
    cases s with
    | second => rw [retried.same j hj]; exact full _ j hj
    | first =>
      rcases Nat.lt_or_eq_of_le (Nat.le_of_lt_succ hj) with lt | rfl
      · rw [show cells flash' .first j = _ from retried.front j lt]; exact full _ j hj
      · rw [show cells flash' .first 84 = _ from retried.here]; simp

/-- From there it goes on in any slot of the secondary page. -/
theorem Turning.filled (turning : Turning n flash m) (m' : BootMetadata) {k : Nat} (hk : k < recordsPerPage)
    (room : n + 1 < 2 ^ 31) : ∃ torn flash', Retried .first k n flash m m' torn flash' ∧
      Filled (recordsPerPage + k) (n + 1) flash' (sealFor (some m) m') := by
  obtain ⟨torn, flash', retried⟩ := append_retried m' turning.holds (show 84 < recordsPerPage by decide) turning.here
    turning.full hk room
  have primary : ∀ q < recordsPerPage, cellAt flash' q = cells flash .first q := by
    intro q hq
    rw [cellAt, slotOf_first hq]
    exact retried.same q hq
  have secondary : ∀ j, cellAt flash' (recordsPerPage + j) = cells flash' .second j := by
    intro j
    rw [cellAt, slotOf_second]
  refine ⟨torn, flash', retried, retried.holds, ?_, ?_, ?_, ?_, sealFor_sequence turning.sequence m'⟩
  · rw [← turning.oldest]
    exact retried.same 0 (by decide)
  · intro q hq
    by_cases first : q < recordsPerPage
    · rw [primary q first]
      exact turning.full _ q first
    · obtain ⟨j, rfl⟩ := Nat.exists_eq_add_of_le (Nat.le_of_not_lt first)
      rw [secondary]
      rcases Nat.lt_or_eq_of_le (Nat.le_of_add_le_add_left hq) with lt | rfl
      · rw [show cells flash' .second j = _ from retried.front j lt]
        exact turning.full _ j (Nat.lt_trans lt hk)
      · rw [show cells flash' .second j = _ from retried.here]; simp
  · intro q lo hi
    obtain ⟨j, rfl⟩ := Nat.exists_eq_add_of_le (Nat.le_trans (Nat.le_add_right _ k) (Nat.le_of_lt lo))
    rw [secondary]
    exact retried.rear j (Nat.lt_of_add_lt_add_left lo) (by simp only [slotCount] at hi; omega)
  · rw [secondary]
    exact retried.here

end

/-! ## Device runs without failing calls -/

def Reaches (s t : DeviceState) : Prop :=
  ∃ history, Run DeviceStep s history t ∧ ∀ x ∈ history, NeverFails x.event.calls

theorem Reaches.trans {s t u : DeviceState} (first : Reaches s t) (second : Reaches t u) : Reaches s u := by
  obtain ⟨history, run, quiet⟩ := first
  obtain ⟨later, run', quiet'⟩ := second
  exact ⟨history ++ later, run.append run', fun x member => (List.mem_append.mp member).elim (quiet x) (quiet' x)⟩

theorem Reaches.step {s t : DeviceState} {event : DeviceEvent} (step : DeviceStep s event t)
    (quiet : NeverFails event.calls) : Reaches s t :=
  ⟨_, .single step, by simpa using quiet⟩

/-- Power is lost, or the device resets itself, after the input. -/
theorem Reaches.reset {s t : DeviceState} (reaches : Reaches s t) : Reaches s ⟨t.flash, .reset⟩ := by
  have off : Turned t.flash t.mode .powerCut [] (some .silent) t.flash .reset := .powerCut
  exact reaches.trans (.step off.deviceStep (by simp [NeverFails]))

/-- The record names the image of the factory, with this failure counter. -/
structure NamesFactoryImage (count : Nat) (m : BootMetadata) : Prop where
  state : m.state = bootStateValidApplication
  imageSize : m.imageSize = factoryRecord.imageSize
  imageCrc32 : m.imageCrc32 = factoryRecord.imageCrc32
  count : m.unconfirmedBootCount = BitVec.ofNat 32 count

def HasFactoryImage (flash : Flash) : Prop := ∀ a, applicationFlashStart ≤ a → flash a = factoryFlash a

theorem HasFactoryImage.append {flash flash' : Flash} {m : BootMetadata} {calls : List FlashCall} {r : AppendResult}
    (image : HasFactoryImage flash) (append : Exec FlashStep (appendMetadataRecord m) flash calls r flash') :
    HasFactoryImage flash' :=
  fun a lo => (append_unchanged append lo).trans (image a lo)

section
variable {count : Nat} {flash flash' : Flash} {m : BootMetadata} {calls : List FlashCall} {r : AppendResult}

theorem NamesFactoryImage.imageValid (names : NamesFactoryImage count m) (image : HasFactoryImage flash) :
    isApplicationImageValid flash m = true := by
  obtain ⟨record, newest, _, _, valid⟩ := factoryFlash_bootable
  rw [factoryFlash_chip.newest] at newest
  cases newest
  rw [(imageValid_congr image).2]
  simpa only [isApplicationImageValid, names.imageSize, names.imageCrc32] using valid

theorem NamesFactoryImage.boots (names : NamesFactoryImage count m) (newest : newestRecord flash = some m)
    (below : count < 3) (image : HasFactoryImage flash) : bootsApplication flash (bootMetadata flash) = true :=
  bootsApplication_of_bootable ⟨m, newest, names.state, names.count, names.imageValid image⟩ below

/-- A boot that appends, and then loses power. -/
theorem boot_reaches (newest : newestRecord flash = some m) (names : NamesFactoryImage count m) (below : count < 3)
    (image : HasFactoryImage flash) (append : Exec FlashStep (appendMetadataRecord m.attempted) flash calls r flash')
    (quiet : NeverFails calls) : Reaches ⟨flash, .reset⟩ ⟨flash', .reset⟩ := by
  have boots := names.boots newest below image
  rw [← bootMetadata_of_some newest] at append
  have turned : Turned flash .reset (.boot zeroHeader) calls _ flash' _ := .bootAttempt boots append rfl
  exact (Reaches.step turned.deviceStep quiet).reset

/-- The record of a SET_ROLE for the transmitter. -/
def BootMetadata.transmitter (m : BootMetadata) : BootMetadata :=
  { m with state := bootStateValidApplication, appRole := appRoleTx }

theorem boot_updater (newest : newestRecord flash = some m) (names : NamesFactoryImage 3 m) :
    DeviceStep ⟨flash, .reset⟩ ⟨.boot zeroHeader, [], some .silent⟩ ⟨flash, .updating (.start m zeroHeader)⟩ := by
  have stays : bootsApplication flash (bootMetadata flash) = false := by
    have limit : decide (m.unconfirmedBootCount < bootFailureLimit) = false := by rw [names.count]; decide
    rw [bootMetadata_of_some newest]
    simp only [bootsApplication, limit, Bool.and_false, Bool.false_and]
  have turned : Turned flash .reset (.boot zeroHeader) [] (some .silent) flash _ := .bootUpdate stays
  rw [bootMetadata_of_some newest] at turned
  exact turned.deviceStep

/-- A boot into the updater and a SET_ROLE, whose append completes or is cut short. -/
theorem setRole_reaches (newest : newestRecord flash = some m) (names : NamesFactoryImage 3 m)
    (image : HasFactoryImage flash) (append : Exec FlashStep (appendMetadataRecord m.transmitter) flash calls r flash')
    (quiet : NeverFails calls) : Reaches ⟨flash, .reset⟩ ⟨flash', .reset⟩ := by
  have role : loadUint32Le (setRoleFrame appRoleTx).payload 0 = appRoleTx := loadUint32Le_bytesOf appRoleTx []
  have record : (UpdateSession.start m zeroHeader).withRole (setRoleFrame appRoleTx) = m.transmitter := by
    rw [UpdateSession.withRole, role]; rfl
  have accepted : setRoleAccepted flash (.start m zeroHeader) (setRoleFrame appRoleTx) = true := by
    rw [setRoleAccepted, role, show (UpdateSession.start m zeroHeader).metadata = m from rfl,
      names.imageValid image]; rfl
  rw [← record] at append
  have turned : Turned flash (.updating (.start m zeroHeader)) (.frame (setRoleFrame appRoleTx)) calls _ flash' _ :=
    .frame (.roleSet accepted append) rfl
  have booted : Reaches ⟨flash, .reset⟩ _ := .step (boot_updater newest names) (by simp [NeverFails])
  exact (booted.trans (.step turned.deviceStep quiet)).reset

end

/-! ## The life of the chip -/

structure Aged (count p n : Nat) (flash : Flash) (m : BootMetadata) : Prop where
  filled : Filled p n flash m
  names : NamesFactoryImage count m
  image : HasFactoryImage flash

theorem NamesFactoryImage.transmitter {m : BootMetadata} (names : NamesFactoryImage 3 m)
    (value : Option BootMetadata) :
    NamesFactoryImage 3 (sealFor value m.transmitter) :=
  ⟨rfl, names.imageSize, names.imageCrc32, names.count⟩

section
variable {count p n : Nat} {flash : Flash} {m : BootMetadata}

theorem Aged.boot (aged : Aged count p n flash m) (below : count < 3) (slots : p + 1 < slotCount)
    (room : n + 1 < 2 ^ 31) : ∃ flash' m', Reaches ⟨flash, .reset⟩ ⟨flash', .reset⟩ ∧
      Aged (count + 1) (p + 1) (n + 1) flash' m' := by
  obtain ⟨filled, names, image⟩ := aged
  obtain ⟨calls, flash', quiet, append, filled'⟩ := filled.append m.attempted slots room
  refine ⟨flash', _, boot_reaches filled.holds.newestRecord_eq names below image append quiet, filled', ?_,
    image.append append⟩
  refine ⟨names.state, names.imageSize, names.imageCrc32, ?_⟩
  change m.unconfirmedBootCount + 1 = _
  rw [names.count, BitVec.ofNat_add]
  rfl

theorem Aged.setRole (aged : Aged 3 p n flash m) (slots : p + 1 < slotCount) (room : n + 1 < 2 ^ 31) :
    ∃ flash' m', Reaches ⟨flash, .reset⟩ ⟨flash', .reset⟩ ∧ Aged 3 (p + 1) (n + 1) flash' m' := by
  obtain ⟨filled, names, image⟩ := aged
  obtain ⟨calls, flash', quiet, append, filled'⟩ := filled.append m.transmitter slots room
  exact ⟨flash', _, setRole_reaches filled.holds.newestRecord_eq names image append quiet, filled',
    names.transmitter _, image.append append⟩

/-- A SET_ROLE that is cut short in the rotation, and its repetition. -/
theorem Retried.reaches {side : Side} {k n : Nat} {torn flash' : Flash} (newest : newestRecord flash = some m)
    (names : NamesFactoryImage 3 m) (image : HasFactoryImage flash)
    (retried : Retried side k n flash m m.transmitter torn flash') :
    Reaches ⟨flash, .reset⟩ ⟨flash', .reset⟩ ∧ HasFactoryImage flash' := by
  obtain ⟨calls, quiet, cut⟩ := retried.cut
  obtain ⟨calls', quiet', append⟩ := retried.append
  have image' := image.append cut
  exact ⟨(setRole_reaches newest names image cut quiet).trans
    (setRole_reaches retried.newest names image' append quiet'), image'.append append⟩

/-- Two more records take a full journal to any slot of the secondary page. -/
theorem Aged.turn (aged : Aged 3 169 n flash m) {k : Nat} (hk : k < recordsPerPage) (room : n + 2 < 2 ^ 31) :
    ∃ flash' m', Reaches ⟨flash, .reset⟩ ⟨flash', .reset⟩ ∧ Aged 3 (recordsPerPage + k) (n + 2) flash' m' := by
  obtain ⟨filled, names, image⟩ := aged
  obtain ⟨torn, flash', retried, turning⟩ := filled.turning m.transmitter (by omega)
  obtain ⟨first, image'⟩ := retried.reaches filled.holds.newestRecord_eq names image
  have names' := names.transmitter (some m)
  obtain ⟨torn', flash'', retried', filled'⟩ :=
    turning.filled (sealFor (some m) m.transmitter).transmitter hk (by omega)
  obtain ⟨second, image''⟩ := retried'.reaches turning.holds.newestRecord_eq names' image'
  exact ⟨flash'', _, first.trans second, filled', names'.transmitter _, image''⟩

end

theorem factory_aged : Aged 0 0 0 factoryFlash factoryRecord := by
  have journal := factoryFlash_chip.journal
  have stored := factoryFlash_chip.stored
  have here : cells factoryFlash .first 0 = .entry factoryRecord := cells_entry.mpr ⟨journal.valid, stored⟩
  refine ⟨⟨?_, here, ?_, ?_, here, rfl⟩, ⟨rfl, rfl, rfl, rfl⟩, fun _ _ => rfl⟩
  · rw [← stored]
    exact journal.holds
  · intro q hq
    rw [Nat.le_zero.mp hq, show cellAt factoryFlash 0 = _ from here]
    simp
  · intro q lo hi
    rw [cellAt, cells_blank]
    apply journal.erased _ _ (slotOf_lt hi)
    intro same
    have first : slotOf q = slotOf 0 := same
    have := slotOf_injective first
    omega

/-- Three boots that nobody confirms. -/
theorem boots_aged (count : Nat) (few : count ≤ 3) :
    ∃ flash m, Reaches ⟨factoryFlash, .reset⟩ ⟨flash, .reset⟩ ∧ Aged count count count flash m := by
  induction count with
  | zero => exact ⟨_, _, ⟨[], .nil, by simp⟩, factory_aged⟩
  | succ count ih =>
    obtain ⟨flash, m, reaches, aged⟩ := ih (by omega)
    obtain ⟨flash', m', more, aged'⟩ :=
      aged.boot (by omega) (by simp only [slotCount, recordsPerPage]; omega) (by omega)
    exact ⟨flash', m', reaches.trans more, aged'⟩

theorem filling_aged (more : Nat) (fits : more ≤ 166) :
    ∃ flash m, Reaches ⟨factoryFlash, .reset⟩ ⟨flash, .reset⟩ ∧ Aged 3 (3 + more) (3 + more) flash m := by
  induction more with
  | zero => exact boots_aged 3 (Nat.le_refl 3)
  | succ more ih =>
    obtain ⟨flash, m, reaches, aged⟩ := ih (by omega)
    obtain ⟨flash', m', next, aged'⟩ := aged.setRole (by simp only [slotCount, recordsPerPage]; omega) (by omega)
    exact ⟨flash', m', reaches.trans next, aged'⟩

/-- Rotations that always leave the record of the factory in place. -/
theorem rotating_aged (turns : Nat) (few : 169 + 2 * turns < 2 ^ 31) :
    ∃ flash m, Reaches ⟨factoryFlash, .reset⟩ ⟨flash, .reset⟩ ∧ Aged 3 169 (169 + 2 * turns) flash m := by
  induction turns with
  | zero => exact filling_aged 166 (Nat.le_refl _)
  | succ turns ih =>
    obtain ⟨flash, m, reaches, aged⟩ := ih (by omega)
    obtain ⟨flash', m', more, aged'⟩ := aged.turn (show 84 < recordsPerPage by decide) (by omega)
    exact ⟨flash', m', reaches.trans more, aged'⟩

/-- The chip `3` records before the sequence numbers wrap, with two erased slots in the secondary page. -/
theorem nearly_wrapped : ∃ flash m, Reaches ⟨factoryFlash, .reset⟩ ⟨flash, .reset⟩ ∧
    Aged 3 (recordsPerPage + 82) (2 ^ 31 - 3) flash m := by
  obtain ⟨flash, m, reaches, aged⟩ := rotating_aged 1073741737 (by omega)
  obtain ⟨flash', m', more, aged'⟩ := aged.turn (show 82 < recordsPerPage by decide) (by omega)
  exact ⟨flash', m', reaches.trans more, aged'⟩

/-! ## An update of an old chip -/

theorem Filled.congr {p n : Nat} {flash flash' : Flash} {m : BootMetadata} (filled : Filled p n flash m)
    (slots : p < slotCount)
    (same : ∀ a, metadataPagePrimary ≤ a → a < applicationFlashStart → flash' a = flash a) :
    Filled p n flash' m := by
  have cell : ∀ side j, j < recordsPerPage → cells flash' side j = cells flash side j := by
    intro side j hj
    apply cells_congr
    intro i hi
    have slot := slot_in_page side hj hi
    have page := pages_in_journal side
    exact same _ (by omega) (by omega)
  have at_ : ∀ q < slotCount, cellAt flash' q = cellAt flash q := fun q hq => cell _ _ (slotOf_lt hq)
  refine ⟨filled.holds.congr same, ?_, ?_, ?_, ?_, filled.sequence⟩
  · rw [cell _ _ (by decide)]
    exact filled.oldest
  · intro q hq
    rw [at_ q (by omega)]
    exact filled.used q hq
  · intro q lo hi
    rw [at_ q hi]
    exact filled.free q lo hi
  · rw [at_ p slots]
    exact filled.here

/-- A package with the image of the factory. -/
def factoryHeader : FirmwarePackageHeader := packageHeader factoryRecord.imageSize 0 factoryRecord.imageCrc32

theorem factoryHeader_valid : isValidPackageHeader factoryHeader = true :=
  isValidPackageHeader_packageHeader 0 _ (by decide) (by decide) (by decide)

/-- The slot is erased, and has been written with the image of the factory. -/
theorem hasFactoryImage_programmed {flash : Flash} (blank : ∀ a, applicationFlashStart ≤ a → flash a = 0xFF) :
    HasFactoryImage (flash.programmed applicationFlashStart vectorImage) := by
  have below : ∀ i, ¬ applicationFlashStart + i < applicationFlashStart := fun i => by omega
  intro a lo
  obtain ⟨i, rfl⟩ := Nat.exists_eq_add_of_le lo
  by_cases hi : i < vectorImage.length
  · rw [Flash.programmed_at hi, blank _ lo, erased_and]
    simp [factoryFlash, programmedFlash, below, List.getD_eq_getElem?_getD, List.getElem?_eq_getElem hi]
  · rw [Flash.programmed_outside (by omega), blank _ lo]
    have past : vectorImage[i]? = none := List.getElem?_eq_none (by omega)
    simp [factoryFlash, programmedFlash, below, List.getD_eq_getElem?_getD, past]

theorem HasFactoryImage.bytes {flash : Flash} (image : HasFactoryImage flash) :
    flash.bytes applicationFlashStart 8 = vectorImage := by
  have same : flash.bytes applicationFlashStart 8 = factoryFlash.bytes applicationFlashStart 8 :=
    Flash.bytes_congr fun i _ => image _ (Nat.le_add_right _ i)
  rw [same]
  rfl

theorem factoryFlash_past {a : Nat} (past : applicationFlashEnd ≤ a) : factoryFlash a = 0xFF := by
  have length : vectorImage.length = 8 := rfl
  have above : ¬ a < applicationFlashStart := by simp only [applicationFlashEnd, applicationFlashStart] at *; omega
  have none_ : vectorImage[a - applicationFlashStart]? = none := by
    apply List.getElem?_eq_none
    simp only [applicationFlashEnd, applicationFlashStart] at *
    omega
  simp [factoryFlash, programmedFlash, above, List.getD_eq_getElem?_getD, none_]

/-- A session that has erased the slot, with two records to go. -/
theorem Filled.begins {p n : Nat} {flash : Flash} {m : BootMetadata} {session : UpdateSession}
    (filled : Filled p n flash m) (image : HasFactoryImage flash) (slots : p + 1 < slotCount)
    (room : n + 1 < 2 ^ 31) :
    ∃ flash', Reaches ⟨flash, .updating session⟩
        ⟨flash', .updating ⟨sealFor (some m) setDefaultMetadata, factoryHeader, 0, appRoleRx, true⟩⟩ ∧
      Filled (p + 1) (n + 1) flash' (sealFor (some m) setDefaultMetadata) ∧
      ∀ a, applicationFlashStart ≤ a → flash' a = 0xFF := by
  obtain ⟨first, recorded, quiet, append, filled'⟩ := filled.append setDefaultMetadata slots room
  obtain ⟨rest, flash', erase, done⟩ := erase_completes_done recorded
  have ready : DeviceStep ⟨flash, .updating session⟩ _ _ :=
    begin_completes factoryHeader_valid (show isValidAppRole appRoleRx = true by decide) 1 append erase
  have away : ∀ a, a < applicationFlashStart ∨ applicationFlashEnd ≤ a → flash' a = recorded a := by
    intro a outside
    apply exec_unchanged erase
    intro c member touched
    have := (erase.only eraseApplicationFlash_only c member).touches touched
    omega
  refine ⟨flash', .step ready ?_, filled'.congr slots fun a _ below => away a (.inl below), ?_⟩
  · intro c member
    rcases List.mem_append.mp member with old | new
    · exact quiet c old
    · simp [done c new]
  · intro a lo
    by_cases inside : a < applicationFlashEnd
    · exact eraseApplicationFlash_blank erase lo inside
    · rw [away a (.inr (Nat.le_of_not_lt inside)), append_unchanged append lo, image a lo]
      exact factoryFlash_past (Nat.le_of_not_lt inside)

def endFrame : ProtocolFrame := ⟨protocolEnd, 3, []⟩

/-- The one block of the image. -/
theorem vectorImage_step (flash : Flash) (metadata : BootMetadata) (sequenceNumber : Half) :
    DeviceStep ⟨flash, .updating ⟨metadata, factoryHeader, 0, appRoleRx, true⟩⟩
      ⟨.frame (dataFrame sequenceNumber 0 vectorImage),
        [⟨flash, .program applicationFlashStart vectorImage, .done⟩],
        some (.reply ⟨protocolAck, sequenceNumber, storeUint32Le 8⟩)⟩
      ⟨flash.programmed applicationFlashStart vectorImage,
        .updating ⟨metadata, factoryHeader, 8, appRoleRx, true⟩⟩ := by
  have wellFormed : isMalformedData ⟨metadata, factoryHeader, 0, appRoleRx, true⟩
      (dataFrame sequenceNumber 0 vectorImage) = false := by
    rw [isMalformedData, block_dataFrame, offset_dataFrame]
    rfl
  have command : blockCommand ⟨metadata, factoryHeader, 0, appRoleRx, true⟩ (dataFrame sequenceNumber 0 vectorImage) =
      .program applicationFlashStart vectorImage := by
    rw [blockCommand, block_dataFrame]
    rfl
  have reply : (acknowledge ⟨metadata, factoryHeader, 8, appRoleRx, true⟩ (dataFrame sequenceNumber 0 vectorImage)).1 =
      ⟨protocolAck, sequenceNumber, storeUint32Le 8⟩ := by
    rw [acknowledge, offset_dataFrame]
    rfl
  have step := @data_programmed sequenceNumber ⟨metadata, factoryHeader, 0, appRoleRx, true⟩ vectorImage rfl wellFormed
    (by rw [command]; exact Nat.le_of_ble_eq_true rfl) flash
  rw [command] at step
  exact reply ▸ step

theorem vectorImage_stored {flash erased : Flash} {calls : List FlashCall}
    (erase : Exec FlashStep eraseApplicationFlash flash calls (.returned 0) erased) :
    (erased.programmed applicationFlashStart vectorImage).bytes applicationFlashStart 8 = vectorImage := by
  refine erased.bytes_programmed applicationFlashStart vectorImage fun i inside => ?_
  refine eraseApplicationFlash_blank erase (Nat.le_add_right _ i) ?_
  have bound : i < 8 := inside
  simp only [applicationFlashStart, applicationFlashEnd]
  omega

/-- END is next. -/
theorem vectorImage_accepted {flash : Flash} (metadata : BootMetadata) (sequenceNumber : Half)
    (image : flash.bytes applicationFlashStart 8 = vectorImage) :
    endAccepted flash ⟨metadata, factoryHeader, 8, appRoleRx, true⟩ ⟨protocolEnd, sequenceNumber, []⟩ = true := by
  have size : factoryHeader.imageSize = 8 := rfl
  have expected : factoryHeader.imageCrc32 = calculateCrc32 vectorImage := rfl
  have crc : applicationCrc32 flash 8 = calculateCrc32 vectorImage := congrArg calculateCrc32 image
  simp only [endAccepted, size, expected, crc, beq_self_eq_true, List.isEmpty_nil, Bool.and_true]

theorem vectorImage_programmed {flash : Flash} (metadata : BootMetadata)
    (blank : ∀ a, applicationFlashStart ≤ a → flash a = 0xFF) :
    Reaches ⟨flash, .updating ⟨metadata, factoryHeader, 0, appRoleRx, true⟩⟩
      ⟨flash.programmed applicationFlashStart vectorImage,
        .updating ⟨metadata, factoryHeader, 8, appRoleRx, true⟩⟩ ∧
    endAccepted (flash.programmed applicationFlashStart vectorImage) ⟨metadata, factoryHeader, 8, appRoleRx, true⟩
      endFrame = true := by
  refine ⟨.step (vectorImage_step flash metadata 0) (by simp [NeverFails]), vectorImage_accepted metadata 3 ?_⟩
  exact (hasFactoryImage_programmed blank).bytes

/-- The application of an old chip is installed anew, and its counters start again. -/
theorem Aged.reinstall {p n : Nat} {flash : Flash} {m : BootMetadata} (aged : Aged 3 p n flash m)
    (slots : p + 2 < slotCount) (room : n + 2 < 2 ^ 31) : ∃ flash' m', Reaches ⟨flash, .reset⟩ ⟨flash', .reset⟩ ∧
      Aged 0 (p + 2) (n + 2) flash' m' := by
  obtain ⟨filled, names, image⟩ := aged
  have booted : Reaches ⟨flash, .reset⟩ _ :=
    .step (boot_updater filled.holds.newestRecord_eq names) (by simp [NeverFails])
  obtain ⟨erased, ready, filled', blank⟩ := filled.begins image (by omega) (by omega)
  obtain ⟨block, accepted⟩ := vectorImage_programmed (sealFor (some m) setDefaultMetadata) blank
  have filled'' : Filled (p + 1) (n + 1) (erased.programmed applicationFlashStart vectorImage) _ :=
    filled'.congr (by omega) fun a _ below => Flash.programmed_outside (.inl below)
  obtain ⟨calls, flash', quiet, append, final⟩ := filled''.append _ slots room
  have turned : Turned (erased.programmed applicationFlashStart vectorImage) _ (.frame endFrame) calls _ flash' _ :=
    .frame (.finished accepted append) rfl
  refine ⟨flash', _, ?_, ⟨final, ⟨rfl, rfl, rfl, rfl⟩, (hasFactoryImage_programmed blank).append append⟩⟩
  exact ((booted.trans ready).trans (block.trans (.step turned.deviceStep quiet))).reset

/-! ## Records that are lost -/

/-- The record of the factory is followed by records that are not newer than it,
and by erased slots; the secondary page ends with the newest record. -/
structure Stale (i : Nat) (flash : Flash) (m : BootMetadata) : Prop where
  oldest : cells flash .first 0 = .entry factoryRecord
  used : ∀ j < i, cells flash .first j ≠ .blank
  free : ∀ j, i ≤ j → j < recordsPerPage → cells flash .first j = .blank
  lost : ∀ j b, 0 < j → cells flash .first j = .entry b → j < recordsPerPage → b.sequenceNumber = 0x80000001
  newest : ∃ place, newestIn serial recordsPerPage (cells flash .second) = some (place, m)
  sequence : m.sequenceNumber = 0x80000000

theorem Stale.newestRecord_eq {i : Nat} {flash : Flash} {m : BootMetadata} (stale : Stale i flash m) :
    newestRecord flash = some m := by
  obtain ⟨place, newest_⟩ := stale.newest
  have primary : newestIn serial recordsPerPage (cells flash .first) = some (0, factoryRecord) := by
    unfold newestIn recordsPerPage newestFrom
    rw [stale.oldest]
    apply newestFrom_keeps
    intro j b lo hi entry
    simp only [replaces, serial, stale.lost j b lo entry (by simp only [recordsPerPage]; omega)]
    decide
  have later : newer (serial m) (serial factoryRecord) = true := by
    simp only [serial, stale.sequence]
    decide
  rw [Bootloader.newestRecord_eq, TwoPageLog.newest, primary, newest_]
  simp [later]

/-- The append returns 0, and the newest record is still the old one. -/
theorem Stale.append {i : Nat} {flash : Flash} {m : BootMetadata} (stale : Stale i flash m) (positive : 0 < i)
    (hi : i < recordsPerPage) (m' : BootMetadata) : ∃ calls flash', NeverFails calls ∧
      Exec FlashStep (appendMetadataRecord m') flash calls (.returned (sealFor (some m) m', 0)) flash' ∧
      Stale (i + 1) flash' m := by
  obtain ⟨calls, flash', appended⟩ := append_at m' hi (stale.free i (Nat.le_refl i) hi) stale.used (by simp)
  have here := appended.here
  have append := appended.append
  rw [stale.newestRecord_eq] at here append
  have others : ∀ j < recordsPerPage, j ≠ i → cells flash' .first j = cells flash .first j :=
    fun j hj ne => appended.others _ _ hj fun same => ne (congrArg Prod.snd same)
  refine ⟨calls, flash', appended.neverFails, append, ?_, ?_, ?_, ?_, ?_, stale.sequence⟩
  · rw [others 0 (by decide) (by omega)]
    exact stale.oldest
  · intro j hj
    rcases Nat.lt_or_eq_of_le (Nat.le_of_lt_succ hj) with lt | rfl
    · rw [others j (by omega) (by omega)]
      exact stale.used j lt
    · rw [here]; simp
  · intro j lo hj
    rw [others j hj (by omega)]
    exact stale.free j (by omega) hj
  · intro j b lo entry hj
    by_cases same : j = i
    · -- the new record carries the number after the newest one, which is still the old one
      subst same
      rw [here] at entry
      cases entry
      change m.sequenceNumber + 1 = _
      rw [stale.sequence]
      rfl
    · rw [others j hj same] at entry
      exact stale.lost j b lo entry hj
  · obtain ⟨place, newest_⟩ := stale.newest
    refine ⟨place, ?_⟩
    rw [← newest_]
    apply newestFrom_congr
    intro j _ hj
    exact appended.others _ _ (by omega) (by simp)

/-- The last erase that is interrupted, by a loss of power or by an error: the next record is number 2^31. -/
theorem Filled.stale {flash : Flash} {m : BootMetadata} (filled : Filled 169 (2 ^ 31 - 1) flash m)
    (m' : BootMetadata) :
    ∃ torn, Stale 1 torn m ∧
      (∃ calls, NeverFails calls ∧ Exec FlashStep (appendMetadataRecord m') flash calls .cut torn) ∧
      ∃ calls, Exec FlashStep (appendMetadataRecord m') flash calls (.returned (sealFor (some m) m', -1)) torn := by
  have hi : 84 < recordsPerPage := by decide
  have here : cells flash .second 84 = .entry m := filled.here
  obtain ⟨holds, cut, failed⟩ := append_stopped m' filled.holds hi here (filled.full rfl) 1
  rw [filled.holds.newestRecord_eq] at failed
  have kept := @partlyErased_cells_kept flash .first 1
  have secondary : cells (partlyErased flash .first 1) .second 84 = .entry m :=
    (kept hi (.inl (by simp))).trans here
  have sequence := filled.sequence
  refine ⟨partlyErased flash .first 1, ⟨?_, ?_, ?_, ?_, ?_, ?_⟩, ⟨_, by simp [NeverFails], cut⟩, _, failed⟩
  · exact (kept (by decide) (.inr Nat.one_pos)).trans filled.oldest
  · intro j hj
    obtain rfl := Nat.lt_one_iff.mp hj
    rw [kept (by decide) (.inr Nat.one_pos), filled.oldest]
    simp
  · intro j lo hj
    exact partlyErased_cells_blank hj lo
  · intro j b lo entry hj
    rw [partlyErased_cells_blank hj lo] at entry
    cases entry
  · obtain ⟨base, n, _, tracks⟩ := tracks_of_entry holds hi secondary
    exact ⟨84, tracks.newestIn_own rfl⟩
  · rw [sequence]; rfl

/-- A boot whose attempt is lost. -/
theorem Stale.boot {i count : Nat} {flash : Flash} {m : BootMetadata} (stale : Stale i flash m) (positive : 0 < i)
    (hi : i < recordsPerPage) (names : NamesFactoryImage count m) (below : count < 3)
    (image : HasFactoryImage flash) :
    ∃ calls flash', NeverFails calls ∧ DeviceStep ⟨flash, .reset⟩
        ⟨.boot zeroHeader, calls, some (.handoff ⟨bootHandoffMagic, m.bootAttemptId + 1, m.appRole⟩)⟩
        ⟨flash', .running⟩ ∧ Stale (i + 1) flash' m ∧ HasFactoryImage flash' := by
  have newest := stale.newestRecord_eq
  have boots := names.boots newest below image
  obtain ⟨calls, flash', quiet, append, stale'⟩ := stale.append positive hi m.attempted
  have attempt : Exec FlashStep (appendMetadataRecord (bootMetadata flash).attempted) flash calls
      (.returned (sealFor (some m) m.attempted, 0)) flash' := by
    rw [bootMetadata_of_some newest]
    exact append
  have turned : Turned flash .reset (.boot zeroHeader) calls _ flash' _ := .bootAttempt boots attempt rfl
  exact ⟨calls, flash', quiet, turned.deviceStep, stale', image.append append⟩

/-- The chip at the wrap, held in the updater by its failure counter. -/
theorem wrapped_updater : ∃ flash m, Reaches ⟨factoryFlash, .reset⟩ ⟨flash, .reset⟩ ∧ Stale 1 flash m ∧
    NamesFactoryImage 3 m ∧ HasFactoryImage flash := by
  obtain ⟨flash, m, reaches, filled, names, image⟩ := rotating_aged 1073741739 (by omega)
  obtain ⟨torn, stale, ⟨calls, quiet, cut⟩, _⟩ := filled.stale m.transmitter
  exact ⟨torn, m, reaches.trans (setRole_reaches filled.holds.newestRecord_eq names image cut quiet), stale, names,
    image.append cut⟩

/-- The chip at the wrap, after an update that completed. -/
theorem wrapped_application : ∃ flash m, Reaches ⟨factoryFlash, .reset⟩ ⟨flash, .reset⟩ ∧ Stale 1 flash m ∧
    NamesFactoryImage 0 m ∧ HasFactoryImage flash := by
  obtain ⟨flash, m, reaches, aged⟩ := nearly_wrapped
  obtain ⟨flash', m', update, filled, names, image⟩ := aged.reinstall (by decide) (by omega)
  obtain ⟨torn, stale, ⟨calls, quiet, cut⟩, _⟩ := filled.stale m'.attempted
  have attempt := boot_reaches filled.holds.newestRecord_eq names (by decide) image cut quiet
  exact ⟨torn, m', (reaches.trans update).trans attempt, stale, names, image.append cut⟩

end Cc1310Firmware.Bootloader
