import Cc1310Firmware.Bootloader.DeviceJournal

/-! A chip as the factory programs it: an application and one record that marks it valid. -/

set_option autoImplicit false

namespace Cc1310Firmware.Bootloader
open LittleEndian CrashProgram LabelledRun TwoPageLog

/-- The one record of the journal is VALID, and its CRC is that of the application slot. -/
structure FactoryChip (flash : Flash) (record : BootMetadata) : Prop where
  journal : FactoryJournal flash
  stored : loadRecord flash (slotAddress .first 0) = record
  state : record.state = bootStateValidApplication
  crc : applicationCrc32 flash record.imageSize = record.imageCrc32

theorem FactoryChip.newest {flash : Flash} {record : BootMetadata} (chip : FactoryChip flash record) :
    newestRecord flash = some record := by
  rw [chip.journal.holds.newestRecord_eq, chip.stored]

/-- The smallest image that can be started: a stack pointer and a reset vector. -/
def vectorImage : List Byte := bytesOf (0x20004000 : Word) 4 ++ bytesOf (0x00008009 : Word) 4

def factoryRecord : BootMetadata :=
  sealFor none { setDefaultMetadata with
    state := bootStateValidApplication
    imageSize := 8
    imageCrc32 := calculateCrc32 vectorImage
    appRole := appRoleRx }

/-- Flash with one record at the start of the journal and an application image. -/
def programmedFlash (record : BootMetadata) (image : List Byte) : Flash := fun a =>
  if a < applicationFlashStart then
    if metadataPagePrimary ≤ a then record.bytes.getD (a - metadataPagePrimary) 0xFF else 0xFF
  else image.getD (a - applicationFlashStart) 0xFF

def factoryFlash : Flash := programmedFlash factoryRecord vectorImage

/-- A sealed record at the start of an otherwise erased journal. -/
theorem factoryJournal_of_record {flash : Flash} {record : BootMetadata} (sealed : record.Sealed)
    (stored : flash.bytes metadataPagePrimary sizeofBootMetadata = record.bytes)
    (blank : ∀ a, metadataPagePrimary + sizeofBootMetadata ≤ a → a < applicationFlashStart → flash a = 0xFF) :
    FactoryJournal flash ∧ loadRecord flash (slotAddress .first 0) = record := by
  have slot : slotAddress .first 0 = metadataPagePrimary := rfl
  rw [← slot] at stored
  refine ⟨⟨valid_of_sealed sealed stored, ?_⟩, loadRecord_of_bytes stored⟩
  intro side index hi other
  rw [isErasedRecord_iff]
  intro i hi'
  have page := slot_in_page side hi hi'
  have journal := pages_in_journal side
  have away : metadataPagePrimary + sizeofBootMetadata ≤ slotAddress side index + i := by
    cases side with
    | second => simp only [pageAddress, metadataPageSecondary, metadataPagePrimary, sizeofBootMetadata] at *; omega
    | first =>
      have : index ≠ 0 := by rintro rfl; exact other rfl
      simp only [slotAddress, pageAddress, recordAddress, sizeofBootMetadata]
      omega
  exact blank _ away (by omega)

theorem programmedFlash_record {record : BootMetadata} (sealed : record.Sealed) (image : List Byte) :
    FactoryJournal (programmedFlash record image) ∧
    loadRecord (programmedFlash record image) (slotAddress .first 0) = record := by
  refine factoryJournal_of_record sealed ?_ ?_
  · apply List.ext_getElem
    · simp
    · intro i _ h
      have hi : i < sizeofBootMetadata := by simpa using h
      rw [Flash.getElem_bytes]
      have below : metadataPagePrimary + i < applicationFlashStart := by
        simp only [metadataPagePrimary, applicationFlashStart, sizeofBootMetadata] at *; omega
      simp [programmedFlash, below, List.getD_eq_getElem?_getD, List.getElem?_eq_getElem h]
  · intro a past below
    have past' : record.bytes.length ≤ a - metadataPagePrimary := by
      rw [BootMetadata.length_bytes]; omega
    have above : metadataPagePrimary ≤ a := by omega
    simp [programmedFlash, below, above, List.getD_eq_getElem?_getD, List.getElem?_eq_none past']

theorem factoryFlash_chip : FactoryChip factoryFlash factoryRecord := by
  obtain ⟨journal, stored⟩ := programmedFlash_record (sealRecord_sealed _ _) vectorImage
  refine ⟨journal, stored, rfl, ?_⟩
  have image : factoryFlash.bytes applicationFlashStart 8 = vectorImage := by rfl
  have size : factoryRecord.imageSize.toNat = 8 := rfl
  rw [applicationCrc32, size, image]
  rfl

theorem factoryFlash_vectors : isVectorTableValid factoryFlash = true := by decide

theorem factoryFlash_fresh : Fresh ⟨factoryFlash, .reset⟩ := ⟨.inr factoryFlash_chip.journal, rfl⟩

/-! ## Boots that nobody confirms -/

/-- The newest record is VALID with this failure counter, and its image is intact. -/
def Bootable (count : Nat) (flash : Flash) : Prop :=
  ∃ m, newestRecord flash = some m ∧ m.state = bootStateValidApplication ∧
    m.unconfirmedBootCount = BitVec.ofNat 32 count ∧ isApplicationImageValid flash m = true

theorem factoryFlash_bootable : Bootable 0 factoryFlash := by
  refine ⟨factoryRecord, factoryFlash_chip.newest, rfl, rfl, ?_⟩
  have size : (factoryRecord.imageSize != 0 && decide (factoryRecord.imageSize ≤ applicationSlotSize)) =
    true := by decide
  simp only [isApplicationImageValid, size, factoryFlash_vectors, factoryFlash_chip.crc, Bool.true_and,
    beq_self_eq_true]

theorem bootsApplication_of_bootable {count : Nat} {flash : Flash} (bootable : Bootable count flash)
    (below : count < 3) :
    bootsApplication flash (bootMetadata flash) = true := by
  obtain ⟨m, newest, state, attempts, image⟩ := bootable
  have limit : m.unconfirmedBootCount < bootFailureLimit := by
    rw [attempts, BitVec.lt_def, BitVec.toNat_ofNat, show bootFailureLimit.toNat = 3 from rfl]
    omega
  rw [bootMetadata_of_some newest]
  simp only [bootsApplication, state, image, beq_self_eq_true, Bool.true_and, Bool.and_true]
  exact decide_eq_true limit

/-- A boot that starts the application. -/
theorem Bootable.boot {count k : Nat} {flash : Flash} (bootable : Bootable count flash) (below : count < 3)
    (sound : Sound k ⟨flash, .reset⟩) (room : k + 1 < 2 ^ 31) (stack : FirmwarePackageHeader) :
    ∃ event flash' handoff, event.input = .boot stack ∧ event.output = some (.handoff handoff) ∧
      DeviceStep ⟨flash, .reset⟩ event ⟨flash', .running⟩ ∧
      recordPrograms event.calls ≤ 1 ∧ Bootable (count + 1) flash' := by
  have boots := bootsApplication_of_bootable bootable below
  obtain ⟨m, newest, state, attempts, image⟩ := bootable
  obtain ⟨calls, flash', append, _⟩ := append_completes_done (bootMetadata flash).attempted flash
  have begun := recordPrograms_append_le sound.holds append
  have stored := (appendTurn sound.holds (Nat.lt_of_le_of_lt (Nat.add_le_add_left begun k) room) append).stored _ rfl
  refine ⟨⟨.boot stack, calls, _⟩, flash', _, rfl, rfl, deviceStep_iff.mpr (.bootAttempt boots append rfl), begun,
    _, stored, ?_, ?_, ?_⟩
  · rw [bootMetadata_of_some newest]; exact state
  · rw [bootMetadata_of_some newest]
    change m.unconfirmedBootCount + 1 = _
    rw [attempts, BitVec.ofNat_add]; rfl
  · rw [(append_imageValid append).2, bootMetadata_of_some newest]; exact image

/-- An update request of the running application is stored. -/
theorem Bootable.request {count k : Nat} {flash : Flash} (bootable : Bootable count flash)
    (sound : Sound k ⟨flash, .running⟩) (room : k + 1 < 2 ^ 31) :
    ∃ event flash' m, event.input = .requestUpdate ∧ event.output = some (.code 0) ∧
      DeviceStep ⟨flash, .running⟩ event ⟨flash', .running⟩ ∧ recordPrograms event.calls ≤ 1 ∧
      newestRecord flash' = some m ∧ m.state = bootStateUpdateRequested ∧
      m.unconfirmedBootCount = BitVec.ofNat 32 count ∧ isApplicationImageValid flash' m = true := by
  obtain ⟨m, newest, _, attempts, image⟩ := bootable
  obtain ⟨calls, flash', append, _⟩ := append_completes_done (updateRequest flash) flash
  have begun := recordPrograms_append_le sound.holds append
  have stored := (appendTurn sound.holds (Nat.lt_of_le_of_lt (Nat.add_le_add_left begun k) room) append).stored _ rfl
  refine ⟨⟨.requestUpdate, calls, _⟩, flash', _, rfl, rfl, deviceStep_iff.mpr (.request append rfl), begun, stored,
    rfl, ?_, ?_⟩
  · rw [updateRequest, bootMetadata_of_some newest]; exact attempts
  · rw [(append_imageValid append).2, updateRequest, bootMetadata_of_some newest]; exact image

/-- Up to three boots, each followed by a loss of power. -/
theorem unconfirmed_boots (n : Nat) (few : n ≤ 3) : ∃ history flash,
    Run DeviceStep ⟨factoryFlash, .reset⟩ history ⟨flash, .reset⟩ ∧ recordsBegun history ≤ n ∧
      Bootable n flash := by
  -- on the number of boots; each adds one record and one failure to the journal
  induction n with
  | zero => exact ⟨[], factoryFlash, .nil, Nat.le_refl 0, factoryFlash_bootable⟩
  | succ n ih =>
    obtain ⟨history, flash, run, begun, bootable⟩ := ih (by omega)
    have sound := sound_of_run factoryFlash_fresh run (by omega)
    obtain ⟨event, flash', _, _, _, step, one, bootable'⟩ :=
      bootable.boot (by omega) sound (by omega) ⟨0, 0, 0, 0, 0, 0, 0, 0, 0⟩
    have off : DeviceStep ⟨flash', .running⟩ ⟨.powerCut, [], some .silent⟩ ⟨flash', .reset⟩ :=
      deviceStep_iff.mpr .powerCut
    refine ⟨_, flash', (run.next step).next off, ?_, bootable'⟩
    simp only [recordsBegun_append, recordsBegun_single, recordPrograms_nil]
    omega

/-- A factory chip boots, and its application requests an update: the next boot waits in the updater. -/
theorem requested_update (stack : FirmwarePackageHeader) : ∃ boot request off again flash m,
    Run DeviceStep ⟨factoryFlash, .reset⟩ [boot, request, off, again] ⟨flash, .updating (.start m stack)⟩ ∧
    request.event.input = .requestUpdate ∧ request.event.output = some (.code 0) ∧ off.event.input = .powerCut ∧
    recordsBegun [boot, request, off, again] ≤ 2 ∧ newestRecord flash = some m ∧
    m.unconfirmedBootCount = BitVec.ofNat 32 1 ∧ isApplicationImageValid flash m = true := by
  obtain ⟨boot, flash, _, _, _, step, one, bootable⟩ :=
    factoryFlash_bootable.boot (by decide) factoryFlash_fresh.sound (by decide) stack
  have started := Run.single step
  have sound := sound_of_run factoryFlash_fresh started (by simp; omega)
  obtain ⟨request, flash', m, input, output, step', two, newest, state, count, image⟩ :=
    bootable.request sound (by simp; omega)
  have off : DeviceStep ⟨flash', .running⟩ ⟨.powerCut, [], some .silent⟩ ⟨flash', .reset⟩ :=
    deviceStep_iff.mpr .powerCut
  have stays : bootsApplication flash' (bootMetadata flash') = false := by
    rw [bootMetadata_of_some newest]
    simp [bootsApplication, state, bootStateUpdateRequested, bootStateValidApplication]
  have turned : Turned flash' .reset (.boot stack) [] (some .silent) flash' _ := .bootUpdate stays
  rw [bootMetadata_of_some newest] at turned
  have again : DeviceStep ⟨flash', .reset⟩ ⟨.boot stack, [], some .silent⟩ ⟨flash', .updating (.start m stack)⟩ :=
    deviceStep_iff.mpr turned
  refine ⟨_, _, _, _, flash', m, ((started.next step').next off).next again, input, output, rfl, ?_, newest, count,
    image⟩
  simp only [recordsBegun, List.map_cons, List.map_nil, List.sum_cons, List.sum_nil, recordPrograms_nil]
  omega

end Cc1310Firmware.Bootloader
