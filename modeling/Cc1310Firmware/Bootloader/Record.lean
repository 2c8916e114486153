import Cc1310Firmware.Bootloader.Metadata

/-! What the 48 bytes of a journal slot determine.

A slot is compared as bytes, because flash changes byte by byte; a record is
read field by field. The lemmas here pass between the two, and are the only
ones that look inside the record layout.
-/

set_option autoImplicit false

namespace Cc1310Firmware.Bootloader
open LittleEndian

@[simp] theorem BootMetadata.length_bytes (m : BootMetadata) : m.bytes.length = sizeofBootMetadata := by
  simp [bytes, sizeofBootMetadata]

theorem Flash.word_of_bytes {flash : Flash} {address k length : Nat} {data : List Byte}
    (same : flash.bytes address length = data) (fits : k + 4 ≤ length) :
    flash.word (address + k) = word32 (data.getD k 0) (data.getD (k + 1) 0) (data.getD (k + 2) 0)
      (data.getD (k + 3) 0) := by
  subst same
  have entry : ∀ i < length, (flash.bytes address length).getD i 0 = flash (address + i) := by
    intro i hi
    simp [bytes, List.getD_eq_getElem?_getD, List.getElem?_map, List.getElem?_range hi]
  simp only [Flash.word, Nat.add_assoc]
  rw [entry k (by omega), entry (k + 1) (by omega), entry (k + 2) (by omega), entry (k + 3) (by omega)]

theorem Flash.half_of_bytes {flash : Flash} {address k length : Nat} {data : List Byte}
    (same : flash.bytes address length = data) (fits : k + 2 ≤ length) :
    flash.half (address + k) = word16 (data.getD k 0) (data.getD (k + 1) 0) := by
  subst same
  have entry : ∀ i < length, (flash.bytes address length).getD i 0 = flash (address + i) := by
    intro i hi
    simp [bytes, List.getD_eq_getElem?_getD, List.getElem?_map, List.getElem?_range hi]
  simp only [Flash.half, Nat.add_assoc]
  rw [entry k (by omega), entry (k + 1) (by omega)]

/-- A slot that holds the image of a record reads back as that record. -/
theorem loadRecord_of_bytes {flash : Flash} {record : Nat} {m : BootMetadata}
    (same : flash.bytes record sizeofBootMetadata = m.bytes) : loadRecord flash record = m := by
  have word := fun k (fits : k + 4 ≤ sizeofBootMetadata) => Flash.word_of_bytes same fits
  have half := fun k (fits : k + 2 ≤ sizeofBootMetadata) => Flash.half_of_bytes same fits
  simp only [sizeofBootMetadata] at word half
  have zero := word 0 (by omega)
  rw [Nat.add_zero] at zero
  simp only [loadRecord, zero, half 4 (by omega), half 6 (by omega), word 8 (by omega),
    word 12 (by omega), word 16 (by omega), word 20 (by omega), word 24 (by omega),
    word 28 (by omega), word 32 (by omega), word 36 (by omega), word 40 (by omega), word 44 (by omega)]
  cases m
  simp [BootMetadata.bytes, bytesOf, List.range_succ]

theorem loadRecord_congr {f g : Flash} {record : Nat}
    (same : ∀ i < sizeofBootMetadata, f (record + i) = g (record + i)) :
    loadRecord f record = loadRecord g record := by
  have zero := same 0 (by decide)
  rw [Nat.add_zero] at zero
  have at_ := fun i (hi : i < sizeofBootMetadata) => same i hi
  simp only [sizeofBootMetadata] at at_
  simp (disch := omega) only [loadRecord, Flash.word, Flash.half, Nat.add_assoc, Nat.reduceAdd, zero, at_]

theorem isValidMetadataRecord_congr {f g : Flash} {record : Nat}
    (same : ∀ i < sizeofBootMetadata, f (record + i) = g (record + i)) :
    isValidMetadataRecord f record = isValidMetadataRecord g record := by
  have protected_ : f.bytes record (sizeofBootMetadata - 4) = g.bytes record (sizeofBootMetadata - 4) :=
    Flash.bytes_congr fun i hi => same i (by omega)
  simp only [isValidMetadataRecord, loadRecord_congr same, protected_]

theorem word32_eq_erased {b0 b1 b2 b3 : Byte} :
    word32 b0 b1 b2 b3 = ~~~ 0 ↔ b0 = 0xFF ∧ b1 = 0xFF ∧ b2 = 0xFF ∧ b3 = 0xFF := by
  constructor
  · intro same
    obtain ⟨e0, e1, e2, e3⟩ := byteOf_word32 b0 b1 b2 b3
    rw [same] at e0 e1 e2 e3
    exact ⟨e0.symm, e1.symm, e2.symm, e3.symm⟩
  · rintro ⟨rfl, rfl, rfl, rfl⟩; decide

theorem isErasedRecord_iff {flash : Flash} {record : Nat} :
    isErasedRecord flash record = true ↔ ∀ i < sizeofBootMetadata, flash (record + i) = 0xFF := by
  simp only [isErasedRecord, List.all_eq_true, List.mem_range, beq_iff_eq, Flash.word, word32_eq_erased]
  constructor
  · intro words i hi
    obtain ⟨e0, e1, e2, e3⟩ := words (i / 4) (by simp only [sizeofBootMetadata] at *; omega)
    have : i % 4 = 0 ∨ i % 4 = 1 ∨ i % 4 = 2 ∨ i % 4 = 3 := by omega
    rcases this with r | r | r | r
    · rwa [show record + 4 * (i / 4) = record + i by omega] at e0
    · rwa [show record + 4 * (i / 4) + 1 = record + i by omega] at e1
    · rwa [show record + 4 * (i / 4) + 2 = record + i by omega] at e2
    · rwa [show record + 4 * (i / 4) + 3 = record + i by omega] at e3
  · intro bytes wordIndex hw
    simp only [sizeofBootMetadata] at *
    simp only [Nat.add_assoc]
    exact ⟨bytes _ (by omega), bytes _ (by omega), bytes _ (by omega), bytes _ (by omega)⟩

theorem isErasedRecord_congr {f g : Flash} {record : Nat}
    (same : ∀ i < sizeofBootMetadata, f (record + i) = g (record + i)) :
    isErasedRecord f record = isErasedRecord g record := by
  rw [Bool.eq_iff_iff, isErasedRecord_iff, isErasedRecord_iff]
  exact ⟨fun h i hi => same i hi ▸ h i hi, fun h i hi => (same i hi).symm ▸ h i hi⟩

theorem not_valid_of_erased {flash : Flash} {record : Nat} (erased : isErasedRecord flash record = true) :
    isValidMetadataRecord flash record = false := by
  have bytes := isErasedRecord_iff.mp erased
  have magic : (loadRecord flash record).magic = ~~~ 0 := by
    simp only [loadRecord, Flash.word, word32_eq_erased]
    exact ⟨bytes 0 (by decide), bytes 1 (by decide), bytes 2 (by decide), bytes 3 (by decide)⟩
  simp only [isValidMetadataRecord, magic]
  rfl

/-! ## Sealed records -/

/-- The fields that appendMetadataRecord does not fill in. -/
structure SameContents (m m' : BootMetadata) : Prop where
  state : m.state = m'.state
  imageSize : m.imageSize = m'.imageSize
  imageCrc32 : m.imageCrc32 = m'.imageCrc32
  firmwareVersion : m.firmwareVersion = m'.firmwareVersion
  appRole : m.appRole = m'.appRole
  unconfirmedBootCount : m.unconfirmedBootCount = m'.unconfirmedBootCount
  bootAttemptId : m.bootAttemptId = m'.bootAttemptId
  confirmedBootAttemptId : m.confirmedBootAttemptId = m'.confirmedBootAttemptId

theorem sealRecord_contents (sequence : Option Word) (m : BootMetadata) :
    SameContents (sealRecord sequence m) m := by
  constructor <;> rfl

/-- The bytes in front of the CRC field. -/
def BootMetadata.protectedBytes (m : BootMetadata) : List Byte :=
  bytesOf m.magic 4 ++ bytesOf m.formatVersion 2 ++ bytesOf m.recordSize 2 ++
  bytesOf m.sequenceNumber 4 ++ bytesOf m.state 4 ++ bytesOf m.imageSize 4 ++
  bytesOf m.imageCrc32 4 ++ bytesOf m.firmwareVersion 4 ++ bytesOf m.appRole 4 ++
  bytesOf m.unconfirmedBootCount 4 ++ bytesOf m.bootAttemptId 4 ++
  bytesOf m.confirmedBootAttemptId 4

@[simp] theorem BootMetadata.length_protectedBytes (m : BootMetadata) :
    m.protectedBytes.length = sizeofBootMetadata - 4 := by
  simp [protectedBytes, sizeofBootMetadata]

@[simp] theorem BootMetadata.protectedBytes_crc (m : BootMetadata) (crc : Word) :
    { m with recordCrc32 := crc }.protectedBytes = m.protectedBytes := rfl

theorem BootMetadata.bytes_eq (m : BootMetadata) :
    m.bytes = m.protectedBytes ++ bytesOf m.recordCrc32 4 := rfl

@[simp] theorem BootMetadata.take_bytes (m : BootMetadata) :
    m.bytes.take (sizeofBootMetadata - 4) = m.protectedBytes := by
  rw [bytes_eq, List.take_left' (length_protectedBytes m)]

/-- Filled in by appendMetadataRecord. -/
structure BootMetadata.Sealed (m : BootMetadata) : Prop where
  magic : m.magic = metadataMagic
  formatVersion : m.formatVersion = metadataFormatVersion
  recordSize : m.recordSize = BitVec.ofNat 16 sizeofBootMetadata
  recordCrc32 : m.recordCrc32 = calculateCrc32 m.protectedBytes

theorem sealRecord_sealed (sequence : Option Word) (m : BootMetadata) : (sealRecord sequence m).Sealed where
  magic := rfl
  formatVersion := rfl
  recordSize := rfl
  recordCrc32 := by
    unfold sealRecord
    simp only [BootMetadata.take_bytes]
    rfl

/-- A slot that holds the image of a sealed record is valid. -/
theorem valid_of_sealed {flash : Flash} {record : Nat} {m : BootMetadata} (sealed : m.Sealed)
    (same : flash.bytes record sizeofBootMetadata = m.bytes) : isValidMetadataRecord flash record = true := by
  have front : flash.bytes record (sizeofBootMetadata - 4) = m.protectedBytes := by
    rw [← BootMetadata.take_bytes, ← same]
    simp [Flash.bytes, ← List.map_take, List.take_range, sizeofBootMetadata]
  simp only [isValidMetadataRecord, loadRecord_of_bytes same, front, sealed.magic, sealed.formatVersion,
    sealed.recordSize, sealed.recordCrc32, beq_self_eq_true, Bool.and_self]

end Cc1310Firmware.Bootloader
