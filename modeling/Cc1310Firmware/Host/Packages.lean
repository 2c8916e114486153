import Cc1310Firmware.Bootloader.Completion
import Cc1310Firmware.Codec.Crc
import Cc1310Firmware.Host.FwUpdate
import Cc1310Firmware.Host.HostFrames

/-! What the two ends make of a package.

A package is the bytes of a header and the image behind them. parse accepts the
headers that `Carries` describes; isValidPackageHeader wants a multiple of four
bytes and this device as the target on top of that.
-/

set_option autoImplicit false

namespace Cc1310Firmware.Host
open LittleEndian Bootloader

/-! ### Slices -/

theorem slice_append {front rest : List Byte} {start stop : Nat} (inside : stop ≤ front.length) :
    slice (front ++ rest) start stop = slice front start stop := by
  unfold slice
  rcases Nat.le_total start stop with order | order
  · rw [List.drop_append_of_le_length (by omega), List.take_append_of_le_length (by rw [List.length_drop]; omega)]
  · rw [Nat.sub_eq_zero_of_le order, List.take_zero, List.take_zero]

/-- Two slices that follow each other. -/
theorem slice_slice (data : List Byte) {start middle stop : Nat} (first : start ≤ middle) (second : middle ≤ stop) :
    slice data start middle ++ slice data middle stop = slice data start stop := by
  unfold slice
  have whole := List.take_add (l := data.drop start) (i := middle - start) (j := stop - middle)
  rw [List.drop_drop, Nat.add_sub_cancel' first] at whole
  rw [← whole]
  congr 1
  omega

theorem slice_getD {data : List Byte} {start : Nat} (count : Nat) (inside : start + count ≤ data.length) :
    slice data start (start + count) = (List.range count).map fun i => data.getD (start + i) 0 := by
  apply List.ext_getElem
  · simp [slice]
    omega
  · intro i inside' _
    simp only [slice, List.getElem_take, List.getElem_drop, List.getElem_map, List.getElem_range]
    exact List.getElem_eq_getD 0

theorem bytesOf_loadUint32Le {data : List Byte} {offset : Nat} (inside : offset + 4 ≤ data.length) :
    bytesOf (loadUint32Le data offset) 4 = slice data offset (offset + 4) := by
  rw [slice_getD 4 inside, loadUint32Le, bytesOf_word32]
  rfl

theorem bytesOf_loadUint16Le {data : List Byte} {offset : Nat} (inside : offset + 2 ≤ data.length) :
    bytesOf (word16 (data.getD offset 0) (data.getD (offset + 1) 0)) 2 = slice data offset (offset + 2) := by
  rw [slice_getD 2 inside, bytesOf_word16]
  rfl

/-- The bootloader and the host read the same words. -/
theorem toNat_loadUint32Le {data : List Byte} {offset : Nat} (inside : offset + 4 ≤ data.length) :
    (loadUint32Le data offset).toNat = fromBytes (slice data offset (offset + 4)) := by
  rw [← bytesOf_loadUint32Le inside, fromBytes_bytesOf]
  exact (Nat.mod_eq_of_lt (BitVec.isLt _)).symm

theorem toNat_loadUint16Le {data : List Byte} {offset : Nat} (inside : offset + 2 ≤ data.length) :
    (word16 (data.getD offset 0) (data.getD (offset + 1) 0)).toNat =
      fromBytes (slice data offset (offset + 2)) := by
  rw [← bytesOf_loadUint16Le inside, fromBytes_bytesOf]
  exact (Nat.mod_eq_of_lt (BitVec.isLt _)).symm

/-! ### Headers -/

/-- The header that a memcpy of the first 32 bytes fills has these bytes. -/
theorem bytes_loadPackageHeader {data : List Byte} (long : headerSize ≤ data.length) :
    (loadPackageHeader data).bytes = slice data 0 headerSize := by
  unfold headerSize at *
  simp only [FirmwarePackageHeader.bytes, loadPackageHeader]
  rw [bytesOf_loadUint32Le (by omega), bytesOf_loadUint16Le (by omega), bytesOf_loadUint16Le (by omega),
    bytesOf_loadUint32Le (by omega), bytesOf_loadUint32Le (by omega), bytesOf_loadUint32Le (by omega),
    bytesOf_loadUint32Le (by omega), bytesOf_loadUint32Le (by omega), bytesOf_loadUint32Le (by omega)]
  repeat rw [slice_slice _ (by omega) (by omega)]

/-- A header that parse accepts in front of an image. -/
structure Carries (header : FirmwarePackageHeader) (image : List Byte) : Prop where
  magic : header.magic = packageMagic
  formatVersion : header.formatVersion = packageFormatVersion
  headerSize : header.headerSize = BitVec.ofNat 16 sizeofFirmwarePackageHeader
  headerCrc32 : header.headerCrc32 = calculateCrc32 header.protectedBytes
  applicationAddress : header.applicationAddress = BitVec.ofNat 32 applicationFlashStart
  nonempty : header.imageSize ≠ 0
  fits : header.imageSize ≤ applicationSlotSize
  firmwareVersion : header.firmwareVersion.toNat ≤ 0x00FFFFFF
  imageSize : image.length = header.imageSize.toNat
  imageCrc32 : header.imageCrc32 = calculateCrc32 image

/-- The dictionary that parse returns for it. -/
def describe (header : FirmwarePackageHeader) (image : List Byte) : Package where
  target := header.targetId.toNat
  address := header.applicationAddress.toNat
  size := header.imageSize.toNat
  version := header.firmwareVersion.toNat
  imageCrc := header.imageCrc32.toNat
  image := image

/-- Every package long enough is a header and an image. -/
theorem package_eq {package : List Byte} (long : headerSize ≤ package.length) :
    package = (loadPackageHeader package).bytes ++ package.drop headerSize := by
  rw [bytes_loadPackageHeader long]
  exact (List.take_append_drop headerSize package).symm

theorem slice_header (header : FirmwarePackageHeader) (rest : List Byte) :
    slice (header.bytes ++ rest) 0 headerSize = header.bytes := by
  rw [slice, List.drop_zero]
  exact List.take_left' header.length_bytes

/-- The fields that unpack_from takes out of a package, and the bytes under the header's CRC. -/
theorem fields_bytes (header : FirmwarePackageHeader) (image : List Byte) :
    let package := header.bytes ++ image
    fromBytes (slice package 0 4) = header.magic.toNat ∧
      fromBytes (slice package 4 6) = header.formatVersion.toNat ∧
    fromBytes (slice package 6 8) = header.headerSize.toNat ∧
      fromBytes (slice package 8 12) = header.targetId.toNat ∧
    fromBytes (slice package 12 16) = header.applicationAddress.toNat ∧
    fromBytes (slice package 16 20) = header.imageSize.toNat ∧
    fromBytes (slice package 20 24) = header.firmwareVersion.toNat ∧
    fromBytes (slice package 24 28) = header.imageCrc32.toNat ∧
    fromBytes (slice package 28 32) = header.headerCrc32.toNat ∧
    slice package 0 (headerSize - 4) = header.protectedBytes := by
  intro package
  have load : loadPackageHeader package = header := loadPackageHeader_bytes header image
  have length : package.length = 32 + image.length := by
    rw [List.length_append, FirmwarePackageHeader.length_bytes]
    rfl
  have word : ∀ offset, offset + 4 ≤ 32 → fromBytes (slice package offset (offset + 4)) =
      (loadUint32Le package offset).toNat := fun offset inside => (toNat_loadUint32Le (by omega)).symm
  have half : ∀ offset, offset + 2 ≤ 32 → fromBytes (slice package offset (offset + 2)) =
      (word16 (package.getD offset 0) (package.getD (offset + 1) 0)).toNat :=
    fun offset inside => (toNat_loadUint16Le (by omega)).symm
  -- the CRC of the header is over its first 28 bytes
  have covered : slice package 0 (headerSize - 4) = header.bytes.take (headerSize - 4) :=
    slice_append (by rw [FirmwarePackageHeader.length_bytes]; decide)
  rw [word 0 (by decide), half 4 (by decide), half 6 (by decide), word 8 (by decide), word 12 (by decide),
    word 16 (by decide), word 20 (by decide), word 24 (by decide), word 28 (by decide), covered]
  rw [← load]
  exact ⟨rfl, rfl, rfl, rfl, rfl, rfl, rfl, rfl, rfl, (loadPackageHeader package).take_bytes⟩

theorem parse_bytes (header : FirmwarePackageHeader) (image : List Byte) (info : Package) :
    parse (header.bytes ++ image) = some info ↔ Carries header image ∧ info = describe header image := by
  -- both directions: the guards of parse, one after the other, are the fields of Carries
  obtain ⟨magic_, version_, size_, target, address, imageSize, version, crc, headerCrc, covered⟩ :=
    fields_bytes header image
  have length : (header.bytes ++ image).length = 32 + image.length := by
    rw [List.length_append, FirmwarePackageHeader.length_bytes]
    rfl
  have rest : (header.bytes ++ image).drop headerSize = image :=
    List.drop_left' (header.length_bytes)
  have number : ∀ {w : Nat} {x y : BitVec w}, x.toNat = y.toNat ↔ x = y := BitVec.toNat_inj
  unfold parse
  rw [magic_, version_, size_, target, address, imageSize, version, crc, headerCrc, covered, rest, length]
  simp only [Option.ite_none_left_eq_some, not_or, not_not, ne_eq, Option.some.injEq, crc32, isFormattable,
    Bool.not_eq_true', decide_eq_false_iff_not, number]
  constructor
  · rintro ⟨_, ⟨magic', version', size'⟩, headerCrc', ⟨address', fits, some_⟩, low, length', imageCrc', rfl⟩
    refine ⟨⟨BitVec.eq_of_toNat_eq magic', BitVec.eq_of_toNat_eq version', BitVec.eq_of_toNat_eq size', headerCrc'.symm,
      BitVec.eq_of_toNat_eq address', ?_, Nat.le_of_not_lt fits, low, length', imageCrc'.symm⟩, rfl⟩
    intro zero
    exact some_ (congrArg BitVec.toNat zero)
  · rintro ⟨carries, rfl⟩
    have some_ : ¬ header.imageSize.toNat = 0 := fun zero => carries.nonempty (BitVec.eq_of_toNat_eq zero)
    exact ⟨Nat.not_lt_of_le (Nat.le_add_right _ _),
      ⟨congrArg BitVec.toNat carries.magic, congrArg BitVec.toNat carries.formatVersion,
      congrArg BitVec.toNat carries.headerSize⟩, carries.headerCrc32.symm,
      ⟨congrArg BitVec.toNat carries.applicationAddress, Nat.not_lt_of_le carries.fits, some_⟩,
      carries.firmwareVersion, carries.imageSize, carries.imageCrc32.symm, rfl⟩

/-- The headers of the packages that parse accepts. -/
theorem parse_iff {package : List Byte} {info : Package} : parse package = some info ↔ headerSize ≤ package.length ∧
    Carries (loadPackageHeader package) (package.drop headerSize) ∧
    info = describe (loadPackageHeader package) (package.drop headerSize) := by
  constructor
  · intro parsed
    have long : headerSize ≤ package.length := by
      by_contra short
      unfold parse at parsed
      rw [if_pos (Nat.lt_of_not_le short)] at parsed
      cases parsed
    refine ⟨long, ?_⟩
    rw [package_eq long] at parsed
    exact (parse_bytes _ _ _).mp parsed
  · rintro ⟨long, accepted⟩
    rw [package_eq long]
    exact (parse_bytes _ _ _).mpr accepted

/-- What isValidPackageHeader checks beyond parse. -/
theorem Carries.isValidPackageHeader_iff {header : FirmwarePackageHeader} {image : List Byte}
    (carries : Carries header image) :
    isValidPackageHeader header = true ↔ header.targetId = firmwareTargetId ∧ image.length % 4 = 0 := by
  have aligned : header.imageSize &&& 3 = 0 ↔ image.length % 4 = 0 := by
    have low : header.imageSize.toNat &&& 3 = header.imageSize.toNat % 4 := Nat.and_two_pow_sub_one_eq_mod _ 2
    rw [← BitVec.toNat_inj, BitVec.toNat_and, carries.imageSize, ← low]
    rfl
  unfold isValidPackageHeader
  rw [FirmwarePackageHeader.take_bytes, carries.magic, carries.formatVersion, carries.headerSize,
    carries.applicationAddress, carries.headerCrc32]
  simp only [beq_self_eq_true, Bool.true_and, Bool.and_true, Bool.and_eq_true, beq_iff_eq, bne_iff_ne,
    decide_eq_true_eq, aligned]
  constructor
  · rintro ⟨⟨⟨target, _⟩, _⟩, words⟩
    exact ⟨target, words⟩
  · rintro ⟨target, words⟩
    exact ⟨⟨⟨target, carries.nonempty⟩, carries.fits⟩, words⟩

/-! ### CRC-32 -/

theorem crc32Bits_eq (count : Nat) (crc : Word) :
    crc32Bits count crc = (fun register => Crc.feedReflected 0xEDB88320 register false)^[count] crc := by
  induction count generalizing crc with
  | zero => rfl
  | succ count ih =>
    have low : (crc &&& 1 != 0) = crc.getLsbD 0 := by
      rw [show (1 : Word) = 1#32 from rfl, BitVec.and_one_eq_setWidth_ofBool_getLsbD]
      cases crc.getLsbD 0 <;> rfl
    rw [crc32Bits, Function.iterate_succ_apply, ih, low, Crc.feedReflected, Bool.xor_false]

theorem crc32Step_eq (crc : Word) (byte : Byte) :
    crc32Step crc byte = (Crc.bits 8 byte).foldl (Crc.feedReflected 0xEDB88320) crc := by
  -- the byte is fed in eight steps and leaves nothing behind in the register
  have shifted : byte.setWidth 32 >>> 8 = 0#32 := by
    apply BitVec.eq_of_getLsbD_eq
    intro i _
    rw [BitVec.getLsbD_ushiftRight, BitVec.getLsbD_setWidth, BitVec.getLsbD_of_ge _ _ (Nat.le_add_right 8 i),
      Bool.and_false, BitVec.getLsbD_zero]
  have same : Crc.bits 8 (byte.setWidth 32) = Crc.bits 8 byte := by
    apply List.map_congr_left
    intro i inside
    have inside' := List.mem_range.mp inside
    rw [BitVec.getLsbD_setWidth, decide_eq_true (by omega), Bool.true_and]
  rw [crc32Step, crc32Bits_eq, Crc.iterate_xor, shifted, same, BitVec.xor_zero]

theorem foldl_crc32Step (crc : Word) (data : List Byte) :
    data.foldl crc32Step crc = (data.flatMap (Crc.bits 8)).foldl (Crc.feedReflected 0xEDB88320) crc := by
  induction data generalizing crc with
  | nil => rfl
  | cons byte rest ih => rw [List.foldl_cons, ih, crc32Step_eq, List.flatMap_cons, List.foldl_append]

/-- The loop of the bootloader computes the CRC-32 of IEEE 802.3. -/
theorem calculateCrc32_eq (data : List Byte) : calculateCrc32 data = Crc.ieee data := by
  -- the reflected loop is the textbook one on reversed registers
  have polynomial : (0x04C11DB7 : Word).reverse = 0xEDB88320 := by decide +kernel
  have ones : (BitVec.allOnes 32).reverse = ~~~ (0 : Word) := by decide +kernel
  rw [calculateCrc32, foldl_crc32Step, Crc.ieee, Crc.checksum, Crc.reverse_foldl, polynomial, ones,
    BitVec.xor_allOnes]

/-! ### build -/

/-- The header that build packs in front of a padded image. -/
def builtHeader (target version : Nat) (image : List Byte) : FirmwarePackageHeader :=
  let header : FirmwarePackageHeader := ⟨packageMagic, packageFormatVersion,
    BitVec.ofNat 16 sizeofFirmwarePackageHeader,
    BitVec.ofNat 32 target, BitVec.ofNat 32 applicationFlashStart, BitVec.ofNat 32 image.length, BitVec.ofNat 32 version,
    calculateCrc32 image, 0⟩
  { header with headerCrc32 := calculateCrc32 header.protectedBytes }

theorem length_padded (image : List Byte) : (padded image).length = (image.length + 3) / 4 * 4 := by
  rw [padded, List.length_append, List.length_replicate, padLength]
  omega

theorem headerPack_eq {target version size : Nat} (imageCrc : Word) (target32 : target < 2 ^ 32)
    (version32 : version < 2 ^ 32)
    (size32 : size < 2 ^ 32) : headerPack magic formatVersion headerSize target appAddress size version imageCrc.toNat 0 =
      some (FirmwarePackageHeader.bytes ⟨packageMagic, packageFormatVersion, BitVec.ofNat 16 sizeofFirmwarePackageHeader,
        BitVec.ofNat 32 target, BitVec.ofNat 32 applicationFlashStart, BitVec.ofNat 32 size, BitVec.ofNat 32 version,
        imageCrc, 0⟩) := by
  unfold headerPack
  rw [if_pos ⟨by decide, by decide, by decide, target32, by decide, size32, version32, imageCrc.isLt, by decide⟩,
    BitVec.ofNat_toNat, BitVec.setWidth_eq]
  rfl

theorem dropTail4_bytes (header : FirmwarePackageHeader) : dropTail4 header.bytes = header.protectedBytes := by
  rw [dropTail4, FirmwarePackageHeader.length_bytes]
  exact header.take_bytes

theorem toBytes4_toNat (value : Word) : toBytes4 value.toNat = some (bytesOf value 4) := by
  rw [toBytes4, if_pos value.isLt, BitVec.ofNat_toNat, BitVec.setWidth_eq]

theorem build_eq {image : List Byte} {target version : Nat} (nonempty : image ≠ [])
    (fits : (image.length + 3) / 4 * 4 ≤ maxImageSize) (target32 : target < 2 ^ 32)
    (reserved : version ≤ 0x00FFFFFF) :
    build image target version = some ((builtHeader target version (padded image)).bytes ++ padded image) := by
  have length := length_padded image
  have some_ : ¬ (padded image = [] ∨ maxImageSize < (padded image).length) := by
    rw [not_or]
    refine ⟨fun empty => nonempty (List.append_eq_nil_iff.mp empty).1, ?_⟩
    rw [length]
    exact Nat.not_lt_of_le fits
  have size32 : (padded image).length < 2 ^ 32 := by
    rw [length]
    exact Nat.lt_of_le_of_lt fits (by decide)
  have formattable : isFormattable version = true := decide_eq_true reserved
  have packed := headerPack_eq (calculateCrc32 (padded image)) target32 (Nat.lt_of_le_of_lt reserved (by decide)) size32
  unfold build crc32
  dsimp only
  rw [formattable, if_neg (by decide), if_neg some_, packed]
  simp only [Option.bind_eq_bind, Option.bind_some, dropTail4_bytes, toBytes4_toNat, Option.pure_def]
  rfl

theorem builtHeader_carries {image : List Byte} {version : Nat} (target : Nat) (nonempty : image ≠ [])
    (fits : image.length ≤ maxImageSize) (reserved : version ≤ 0x00FFFFFF) :
    Carries (builtHeader target version image) image := by
  have size : (BitVec.ofNat 32 image.length).toNat = image.length :=
    BitVec.toNat_ofNat .. |>.trans (Nat.mod_eq_of_lt (Nat.lt_of_le_of_lt fits (by decide)))
  have number : (BitVec.ofNat 32 version).toNat = version :=
    BitVec.toNat_ofNat .. |>.trans (Nat.mod_eq_of_lt (Nat.lt_of_le_of_lt reserved (by decide)))
  refine ⟨rfl, rfl, rfl, rfl, rfl, ?_, ?_, ?_, size.symm, rfl⟩
  · intro zero
    have empty := congrArg BitVec.toNat zero
    exact nonempty (List.eq_nil_of_length_eq_zero (size.symm.trans empty))
  · exact Nat.le_trans (Nat.le_of_eq size) fits
  · exact Nat.le_trans (Nat.le_of_eq number) reserved

/-- parse inverts build up to the padding, and the bootloader accepts the header of a package for it. -/
theorem build_round_trip (image : List Byte) (target version : Nat) (nonempty : image ≠ [])
    (fits : (image.length + 3) / 4 * 4 ≤ 0x17000) (target32 : target < 2 ^ 32) (reserved : version ≤ 0x00FFFFFF) :
    ∃ package info, build image target version = some package ∧ parse package = some info ∧
      info.target = target ∧ info.version = version ∧ info.address = 0x8000 ∧
      info.image = image ++ List.replicate ((image.length + 3) / 4 * 4 - image.length) 0xFF ∧
      (isValidPackageHeader (loadPackageHeader (package.take 32)) = true ↔ target = 0x4343314D) ∧
      ∀ data, crc32 data = (Crc.ieee data).toNat := by
  have length := length_padded image
  have some_ : padded image ≠ [] := fun empty => nonempty (List.append_eq_nil_iff.mp empty).1
  have carries := builtHeader_carries target some_ (by rw [length]; exact fits) reserved
  have accepted := (parse_bytes _ _ _).mpr ⟨carries, rfl⟩
  have header : loadPackageHeader (((builtHeader target version (padded image)).bytes ++ padded image).take 32) =
      builtHeader target version (padded image) := by
    have front := slice_header (builtHeader target version (padded image)) (padded image)
    rw [slice, List.drop_zero] at front
    rw [show 32 = headerSize - 0 from rfl, front]
    exact (congrArg loadPackageHeader (List.append_nil _)).symm.trans (loadPackageHeader_bytes _ [])
  refine ⟨_, _, build_eq nonempty fits target32 reserved, accepted, ?_, ?_, rfl, ?_, ?_, ?_⟩
  · exact BitVec.toNat_ofNat .. |>.trans (Nat.mod_eq_of_lt target32)
  · exact BitVec.toNat_ofNat .. |>.trans (Nat.mod_eq_of_lt (Nat.lt_of_le_of_lt reserved (by decide)))
  · have pad : padLength image.length = (image.length + 3) / 4 * 4 - image.length := by
      unfold padLength
      omega
    rw [← pad]
    rfl
  · rw [header, carries.isValidPackageHeader_iff]
    have words : (padded image).length % 4 = 0 := by
      rw [length]
      exact Nat.mul_mod_left _ _
    have target' : (builtHeader target version (padded image)).targetId = firmwareTargetId ↔
        target = 0x4343314D := by
      rw [← BitVec.toNat_inj]
      change (BitVec.ofNat 32 target).toNat = 0x4343314D ↔ _
      rw [BitVec.toNat_ofNat, Nat.mod_eq_of_lt target32]
    rw [target']
    exact and_iff_left words
  · intro data
    rw [crc32, calculateCrc32_eq]

/-- Five bytes. -/
theorem build_round_trip_five : ∃ package info, build [0x61, 0x62, 0x63, 0x64, 0x65] 0x43433152 109 = some package ∧
    parse package = some info ∧ info.image = [0x61, 0x62, 0x63, 0x64, 0x65, 0xFF, 0xFF, 0xFF] := by
  obtain ⟨package, info, built, parsed, _, _, _, image, _⟩ :=
    build_round_trip [0x61, 0x62, 0x63, 0x64, 0x65] 0x43433152 109 (by decide) (by decide) (by decide) (by decide)
  exact ⟨package, info, built, parsed, image⟩

/-! ### What flash sends -/

/-- The first request of flash for a package, behind the checks of the bootloader. -/
def BeginPasses (payload : List Byte) : Prop :=
  payload.length = sizeofFirmwarePackageHeader + 4 ∧ isValidPackageHeader (loadPackageHeader payload) = true ∧
  isValidAppRole (loadUint32Le payload sizeofFirmwarePackageHeader) = true

/-- The requests of its transfer loop, in a session that this BEGIN has started. -/
def DataPasses (payload image : List Byte) : Prop :=
  ∀ (session : UpdateSession) (sequenceNumber : Half) (offset : Nat) (head : List Byte),
    session.packageHeader = loadPackageHeader payload → chunkSize ∣ offset → offset < image.length →
    toBytes4 offset = some head →
    isMalformedData session ⟨protocolData, sequenceNumber, head ++ slice image offset (offset + chunkSize)⟩ = false

theorem toBytes4_eq_some {value : Nat} {bytes : List Byte} (fits : toBytes4 value = some bytes) :
    value < 2 ^ 32 ∧ bytes = bytesOf (BitVec.ofNat 32 value) 4 := by
  unfold toBytes4 at fits
  split at fits
  · cases fits
    exact ⟨by assumption, rfl⟩
  · cases fits

theorem isMalformedData_chunk {session : UpdateSession} {image : List Byte} (sequenceNumber : Half) {offset : Nat}
    (words : image.length % 4 = 0) (fits : image.length = session.packageHeader.imageSize.toNat)
    (chunk : chunkSize ∣ offset) (inside : offset < image.length) :
    isMalformedData session (dataFrame sequenceNumber (BitVec.ofNat 32 offset)
      (slice image offset (offset + chunkSize))) =
      false := by
  have bound := session.packageHeader.imageSize.isLt
  have length : (slice image offset (offset + chunkSize)).length = min 128 (image.length - offset) := by
    simp [slice, chunkSize]
  have aligned : (slice image offset (offset + chunkSize)).length &&& 3 =
      (slice image offset (offset + chunkSize)).length % 4 := Nat.and_two_pow_sub_one_eq_mod _ 2
  unfold chunkSize at chunk
  unfold isMalformedData
  rw [block_dataFrame, offset_dataFrame, aligned, length]
  simp only [Bool.or_eq_false_iff, beq_eq_false_iff_ne, decide_eq_false_iff_not, bne_eq_false_iff_eq, BitVec.lt_def,
    BitVec.toNat_add, BitVec.toNat_ofNat, ne_eq]
  omega

/-- For every package that parse accepts for this device: the device accepts what flash
sends for it exactly when the image is a multiple of four bytes long. -/
theorem flash_passes_iff {package : List Byte} {info : Package} (parsed : parse package = some info)
    (target : info.target = 0x4343314D) {role : Nat} {roleBytes : List Byte} (role_ : role = 1 ∨ role = 2)
    (encoded : toBytes4 role = some roleBytes) :
    (BeginPasses (slice package 0 32 ++ roleBytes) ∧ DataPasses (slice package 0 32 ++ roleBytes) info.image) ↔
      info.size % 4 = 0 := by
  obtain ⟨long, carries, described⟩ := parse_iff.mp parsed
  obtain ⟨_, rfl⟩ := toBytes4_eq_some encoded
  generalize header_ : loadPackageHeader package = header at *
  generalize package.drop headerSize = image at *
  have payload : slice package 0 32 = header.bytes := by rw [← header_, bytes_loadPackageHeader long, headerSize]
  subst described
  have target' : header.targetId = firmwareTargetId := BitVec.eq_of_toNat_eq target
  have size : header.imageSize.toNat % 4 = 0 ↔ image.length % 4 = 0 := by rw [carries.imageSize]
  have valid := carries.isValidPackageHeader_iff
  unfold BeginPasses DataPasses
  rw [payload, loadPackageHeader_bytes, valid]
  change _ ↔ header.imageSize.toNat % 4 = 0
  rw [size]
  constructor
  · rintro ⟨⟨_, ⟨_, words⟩, _⟩, _⟩
    exact words
  · intro words
    refine ⟨⟨?_, ⟨target', words⟩, ?_⟩, ?_⟩
    · rw [List.length_append, FirmwarePackageHeader.length_bytes, length_bytesOf]
    · have load := loadUint32Le_append header.bytes (bytesOf (BitVec.ofNat 32 role) 4) 0
      have value := loadUint32Le_bytesOf (BitVec.ofNat 32 role) []
      rw [List.append_nil] at value
      rw [FirmwarePackageHeader.length_bytes, Nat.add_zero, value] at load
      rw [load]
      rcases role_ with rfl | rfl
      · rfl
      · rfl
    · intro session sequenceNumber offset head same chunk inside packed
      obtain ⟨_, rfl⟩ := toBytes4_eq_some packed
      exact isMalformedData_chunk sequenceNumber words (by rw [same]; exact carries.imageSize) chunk inside

/-- The package with an image and correct checksums in its header. -/
def packageOf (image : List Byte) : List Byte := (builtHeader 0x4343314D 1 image).bytes ++ image

theorem parse_packageOf {image : List Byte} (nonempty : image ≠ []) (fits : image.length ≤ maxImageSize) :
    parse (packageOf image) = some (describe (builtHeader 0x4343314D 1 image) image) :=
  (parse_bytes _ _ _).mpr ⟨builtHeader_carries _ nonempty fits (by decide), rfl⟩

theorem flash_passes_iff_word :
    (BeginPasses (slice (packageOf [1, 2, 3, 4]) 0 32 ++ [1, 0, 0, 0]) ∧
      DataPasses (slice (packageOf [1, 2, 3, 4]) 0 32 ++ [1, 0, 0, 0]) [1, 2, 3, 4]) ↔ 4 % 4 = 0 :=
  flash_passes_iff (parse_packageOf (by decide) (by decide)) rfl (.inl rfl) rfl

/-- parse accepts an image of five bytes and the bootloader refuses its BEGIN. -/
theorem odd_package_refused : ∃ package info, parse package = some info ∧ info.target = 0x4343314D ∧
    info.image = [1, 2, 3, 4, 5] ∧ ¬ BeginPasses (slice package 0 32 ++ [1, 0, 0, 0]) := by
  have carries := @builtHeader_carries [1, 2, 3, 4, 5] 1 0x4343314D (by decide) (by decide) (by decide)
  refine ⟨_, _, parse_packageOf (show [1, 2, 3, 4, 5] ≠ [] by decide) (by decide), rfl, rfl, ?_⟩
  unfold BeginPasses packageOf
  have header := slice_header (builtHeader 0x4343314D 1 [1, 2, 3, 4, 5]) [1, 2, 3, 4, 5]
  rw [headerSize] at header
  rw [header, loadPackageHeader_bytes, carries.isValidPackageHeader_iff]
  rintro ⟨_, ⟨_, words⟩, _⟩
  exact absurd words (by decide)

end Cc1310Firmware.Host
