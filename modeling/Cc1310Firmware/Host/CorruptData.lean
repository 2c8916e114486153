import Cc1310Firmware.Codec.ErrorBursts
import Cc1310Firmware.Host.Packages

/-! Packages, records and images that are changed in four bytes in a row. -/

set_option autoImplicit false

namespace Cc1310Firmware.Host
open LittleEndian Bootloader

/-- The reflected polynomial has its constant term on top. -/
theorem crc32_odd : (0xEDB88320 : Word).msb = true := by decide

/-- Two messages with one CRC do not differ in four bytes in a row. -/
theorem eq_of_calculateCrc32 {data changed : List Byte} (near : Crc.Within 4 data changed)
    (same : calculateCrc32 data = calculateCrc32 changed) : data = changed := by
  have registers := congrArg (~~~ ·) same
  simp only [calculateCrc32, BitVec.not_not, foldl_crc32Step] at registers
  exact Crc.eq_of_foldl_bytes crc32_odd Crc.bits_injective (Crc.length_bits 8) (by decide) near registers

theorem flatMap_bytesOf (value : Word) : (bytesOf value 4).flatMap (Crc.bits 8) = Crc.bits 32 value := by
  have byte : ∀ k, Crc.bits 8 (byteOf value k) = Crc.bits 8 (value >>> (8 * k)) := fun k =>
    Crc.bits_setWidth _ (Nat.le_refl 8)
  have split := Crc.bits_add value 8 24
  rw [Crc.bits_add _ 8 16, Crc.bits_add _ 8 8, ← BitVec.shiftRight_add, ← BitVec.shiftRight_add] at split
  rw [split, bytesOf]
  simp [List.range_succ, byte]

/-- The register behind protected bytes and their CRC is the same for all of them. -/
theorem register_sealed (data : List Byte) : (data ++ bytesOf (calculateCrc32 data) 4).foldl crc32Step (~~~ 0) =
    (fun register => Crc.feedReflected 0xEDB88320 register false)^[32] (BitVec.allOnes 32) := by
  have ones : ∀ register : Word, register ^^^ ~~~ register = BitVec.allOnes 32 := fun register => by
    rw [← BitVec.xor_allOnes, ← BitVec.xor_assoc, BitVec.xor_self, BitVec.zero_xor]
  rw [List.foldl_append, foldl_crc32Step _ (bytesOf _ 4), flatMap_bytesOf, Crc.foldl_field, calculateCrc32, ones]

/-- A change of protected bytes and their CRC that is confined to four bytes in a row is seen,
wherever it is. -/
theorem eq_of_sealed {data changed : List Byte} (near : Crc.Within 4 (data ++ bytesOf (calculateCrc32 data) 4)
    (changed ++ bytesOf (calculateCrc32 changed) 4)) : data = changed := by
  have registers := (register_sealed data).trans (register_sealed changed).symm
  rw [foldl_crc32Step, foldl_crc32Step] at registers
  have whole := Crc.eq_of_foldl_bytes crc32_odd Crc.bits_injective (Crc.length_bits 8) (by decide) near registers
  exact (List.append_inj' whole rfl).1

/-! ### Packages -/

/-- The header's bytes, as parse wants them. -/
theorem Carries.bytes_eq {header : FirmwarePackageHeader} {image : List Byte} (carries : Carries header image) :
    header.bytes = header.protectedBytes ++ bytesOf (calculateCrc32 header.protectedBytes) 4 := by
  rw [← carries.headerCrc32]
  rfl

/-- parse rejects a package that differs from an accepted one in four bytes in a row. -/
theorem parse_changed {package changed : List Byte} {info : Package} (parsed : parse package = some info)
    (near : Crc.Within 4 package changed) (other : changed ≠ package) : parse changed = none := by
  cases parsed' : parse changed with
  | none => rfl
  | some info' =>
    obtain ⟨long, carries, _⟩ := parse_iff.mp parsed
    obtain ⟨long', carries', _⟩ := parse_iff.mp parsed'
    have whole := package_eq long
    have whole' := package_eq long'
    -- the header is the same by its own CRC, the image by the one in the header
    have front := near.take headerSize
    have head : package.take headerSize = (loadPackageHeader package).bytes := (bytes_loadPackageHeader long).symm
    have head' : changed.take headerSize = (loadPackageHeader changed).bytes := (bytes_loadPackageHeader long').symm
    rw [head, head', carries.bytes_eq, carries'.bytes_eq] at front
    have protected_ := eq_of_sealed front
    have headers : (loadPackageHeader package).bytes = (loadPackageHeader changed).bytes := by
      rw [carries.bytes_eq, carries'.bytes_eq, protected_]
    have header : loadPackageHeader package = loadPackageHeader changed := by
      rw [← loadPackageHeader_bytes (loadPackageHeader package) [], headers, loadPackageHeader_bytes]
    have crc :=
      carries.imageCrc32.symm.trans ((congrArg FirmwarePackageHeader.imageCrc32 header).trans carries'.imageCrc32)
    have image := eq_of_calculateCrc32 (near.drop headerSize) crc
    rw [whole, whole', headers, image] at other
    exact absurd rfl other

/-! ### Stored records and images -/

/-- A valid record ends in the CRC of the bytes in front of it. -/
theorem bytes_of_valid {flash : Flash} {record : Nat} (valid : isValidMetadataRecord flash record = true) :
    flash.bytes record sizeofBootMetadata = flash.bytes record (sizeofBootMetadata - 4) ++
      bytesOf (calculateCrc32 (flash.bytes record (sizeofBootMetadata - 4))) 4 := by
  simp only [isValidMetadataRecord, Bool.and_eq_true, beq_iff_eq] at valid
  rw [← valid.2, loadRecord]
  dsimp only
  rw [Flash.word, bytesOf_word32]
  rfl

theorem isValidMetadataRecord_changed {flash flash' : Flash} {record : Nat}
    (valid : isValidMetadataRecord flash record = true)
    (near : Crc.Within 4 (flash.bytes record sizeofBootMetadata) (flash'.bytes record sizeofBootMetadata))
    (other : flash'.bytes record sizeofBootMetadata ≠ flash.bytes record sizeofBootMetadata) :
    isValidMetadataRecord flash' record = false := by
  rw [Bool.eq_false_iff]
  intro valid'
  rw [bytes_of_valid valid, bytes_of_valid valid'] at near
  rw [bytes_of_valid valid, bytes_of_valid valid', eq_of_sealed near] at other
  exact other rfl

theorem isApplicationImageValid_changed {flash flash' : Flash} {metadata : BootMetadata}
    (valid : isApplicationImageValid flash metadata = true)
    (near : Crc.Within 4 (flash.bytes applicationFlashStart metadata.imageSize.toNat)
      (flash'.bytes applicationFlashStart metadata.imageSize.toNat))
    (other : flash'.bytes applicationFlashStart metadata.imageSize.toNat ≠
      flash.bytes applicationFlashStart metadata.imageSize.toNat) :
    isApplicationImageValid flash' metadata = false := by
  rw [Bool.eq_false_iff]
  intro valid'
  simp only [isApplicationImageValid, applicationCrc32, Bool.and_eq_true, beq_iff_eq] at valid valid'
  exact other (eq_of_calculateCrc32 near (valid.2.trans valid'.2.symm)).symm

/-- A change of at most four bytes in a row makes an accepted package, record or image fail. -/
theorem stored_corruption :
    (∀ (package changed : List Byte) (info : Package), parse package = some info → Crc.Within 4 package changed →
      changed ≠ package → parse changed = none) ∧
    (∀ (flash flash' : Flash) (record : Nat), isValidMetadataRecord flash record = true →
      Crc.Within 4 (flash.bytes record sizeofBootMetadata) (flash'.bytes record sizeofBootMetadata) →
      flash'.bytes record sizeofBootMetadata ≠ flash.bytes record sizeofBootMetadata →
      isValidMetadataRecord flash' record = false) ∧
    ∀ (flash flash' : Flash) (metadata : BootMetadata), isApplicationImageValid flash metadata = true →
      Crc.Within 4 (flash.bytes applicationFlashStart metadata.imageSize.toNat)
        (flash'.bytes applicationFlashStart metadata.imageSize.toNat) →
      flash'.bytes applicationFlashStart metadata.imageSize.toNat ≠
        flash.bytes applicationFlashStart metadata.imageSize.toNat →
      isApplicationImageValid flash' metadata = false :=
  ⟨fun _ _ _ parsed near other => parse_changed parsed near other,
    fun _ _ _ valid near other => isValidMetadataRecord_changed valid near other,
    fun _ _ _ valid near other => isApplicationImageValid_changed valid near other⟩

/-- Bytes that stand at an address. -/
def flashWith (address : Nat) (data : List Byte) : Flash := fun a => data.getD (a - address) 0

/-- One byte of a package, of a record and of an image. -/
theorem stored_corruption_byte :
    parse ((builtHeader 0x4343314D 1 [1, 2, 3, 4]).bytes ++ [1, 2, 3, 5]) = none ∧
    isValidMetadataRecord (flashWith 0x6000 ((sealRecord none setDefaultMetadata).bytes.set 8 9)) 0x6000 = false ∧
    isApplicationImageValid (flashWith 0x8000 [0, 0x10, 0, 0x20, 9, 0x80, 1, 0])
      { setDefaultMetadata with
        imageSize := 8
        imageCrc32 := calculateCrc32 [0, 0x10, 0, 0x20, 9, 0x80, 0, 0] } = false := by
  refine ⟨?_, ?_, ?_⟩
  · exact stored_corruption.1 _ _ _ (@parse_packageOf [1, 2, 3, 4] (by decide) (by decide))
      ⟨(builtHeader 0x4343314D 1 [1, 2, 3, 4]).bytes ++ [1, 2, 3], [4], [5], [], by simp [packageOf], by simp, rfl,
        by decide⟩
      (by simp [packageOf])
  · refine stored_corruption.2.1 (flashWith 0x6000 (sealRecord none setDefaultMetadata).bytes) _ 0x6000
      (by decide +kernel)
      ⟨(sealRecord none setDefaultMetadata).bytes.take 8, [1], [9],
        (sealRecord none setDefaultMetadata).bytes.drop 9,
        by decide +kernel, by decide +kernel, rfl, by decide⟩ (by decide +kernel)
  · exact stored_corruption.2.2 (flashWith 0x8000 [0, 0x10, 0, 0x20, 9, 0x80, 0, 0]) _ _ (by decide +kernel)
      ⟨[0, 0x10, 0, 0x20, 9, 0x80], [0], [1], [0], by decide +kernel, by decide +kernel, rfl, by decide⟩
        (by decide +kernel)

end Cc1310Firmware.Host
