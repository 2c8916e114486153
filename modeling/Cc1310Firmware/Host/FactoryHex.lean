import Cc1310Firmware.Bootloader.BootDecision
import Cc1310Firmware.Host.FlashAgreement
import Cc1310Firmware.Host.IntelHex

/-! The factory's path to a bootable chip, from fw_metadata_hex.py, and the record that an update leaves. -/

set_option autoImplicit false

namespace Cc1310Firmware.Host
open LittleEndian Bootloader CrashProgram HexText

/-! ### fw_metadata_hex.py -/

def metadataAddress : Nat := 0x6000
def validApplication : Nat := 1

/-- parse_role; an ArgumentTypeError is `none`. -/
def parseRole (value : List Char) : Option Nat :=
  if value.map Char.toLower = ['r', 'x'] then some 1 else if value.map Char.toLower = ['t', 'x'] then some 2 else none

/-- METADATA.pack -/
def metadataPack (magic formatVersion size sequence state imageSize imageCrc version role unconfirmed attempt
    confirmed crc : Nat) : Option (List Byte) :=
  if magic < 2 ^ 32 ∧ formatVersion < 2 ^ 16 ∧ size < 2 ^ 16 ∧ sequence < 2 ^ 32 ∧ state < 2 ^ 32 ∧
    imageSize < 2 ^ 32 ∧
      imageCrc < 2 ^ 32 ∧ version < 2 ^ 32 ∧ role < 2 ^ 32 ∧ unconfirmed < 2 ^ 32 ∧ attempt < 2 ^ 32 ∧
      confirmed < 2 ^ 32 ∧ crc < 2 ^ 32 then
    some (bytesOf (BitVec.ofNat 32 magic) 4 ++ bytesOf (BitVec.ofNat 16 formatVersion) 2 ++
      bytesOf (BitVec.ofNat 16 size) 2 ++ bytesOf (BitVec.ofNat 32 sequence) 4 ++
        bytesOf (BitVec.ofNat 32 state) 4 ++
      bytesOf (BitVec.ofNat 32 imageSize) 4 ++ bytesOf (BitVec.ofNat 32 imageCrc) 4 ++
      bytesOf (BitVec.ofNat 32 version) 4 ++
      bytesOf (BitVec.ofNat 32 role) 4 ++ bytesOf (BitVec.ofNat 32 unconfirmed) 4 ++
        bytesOf (BitVec.ofNat 32 attempt) 4 ++
      bytesOf (BitVec.ofNat 32 confirmed) 4 ++ bytesOf (BitVec.ofNat 32 crc) 4)
  else none

/-- app_hex_matches_package; an exception is `none`. -/
def appHexMatchesPackage (appHex : List Char) (package : Package) : Option Unit := do
  let values ← (readIhex appHex).toOption
  let actual := (List.range package.image.length).map fun i => values.get (package.address + i) 0xFF
  if actual ≠ package.image then none else return ()

/-- The record that main packs, with its CRC. -/
def metadataRecord (package : Package) (role : Nat) : Option (List Byte) := do
  let recordWithoutCrc ←
    metadataPack 0x424C4D44 2 48 1 validApplication package.size package.imageCrc package.version role 0 0 0 0
  let crc ← toBytes4 (crc32 (dropTail4 recordWithoutCrc))
  return dropTail4 recordWithoutCrc ++ crc

/-- The lines for a record. -/
def metadataLines (record : List Byte) : Option (List (List Char)) :=
  (List.range ((record.length + 15) / 16)).mapM fun k =>
    ihexRecord (metadataAddress + 16 * k) 0 (slice record (16 * k) (16 * k + 16))

/-- The text that main writes; an exception is `none`. -/
def metadataHex (package : List Byte) (appHex : List Char) (role : Nat) : Option (List Char) := do
  let info ← parse package
  if info.target ≠ firmwareTargetId.toNat then none
  else
    appHexMatchesPackage appHex info
    let record ← metadataRecord info role
    let lines ← metadataLines record
    let last ← ihexRecord 0 1 []
    return lines.flatten ++ last

/-- A flash programmed with the bytes of a HEX file. -/
def programHex (flash : Flash) (data : HexData) : Flash := fun a => data.get a (flash a)

/-- The records that an accepted END of runFirmwareUpdate appends for this header and role. -/
def EndBuilds (header : FirmwarePackageHeader) (role : Word) (built : BootMetadata) : Prop :=
  ∃ flash session frame calls code flash', endAccepted flash session frame = true ∧ session.packageHeader = header ∧
    session.requestedRole = role ∧
    Exec FlashStep (appendMetadataRecord session.committed) flash calls (.returned (built, code)) flash'

/-! ### The record -/

/-- The first record of a journal, for this header and role. -/
def firstRecord (header : FirmwarePackageHeader) (role : Word) : BootMetadata :=
  sealFor none { setDefaultMetadata with
    state := bootStateValidApplication
    imageSize := header.imageSize
    imageCrc32 := header.imageCrc32
    firmwareVersion := header.firmwareVersion
    appRole := role }

-- appendMetadataRecord seals its record with a CRC; the factory's own CRC is compared with that one.
theorem firstRecord_sealed (header : FirmwarePackageHeader) (role : Word) : (firstRecord header role).Sealed := by
  unfold firstRecord sealFor
  exact sealRecord_sealed _ _

/-- END builds the same record, up to its place in the journal. -/
theorem EndBuilds.eq {header : FirmwarePackageHeader} {role : Word} {built : BootMetadata}
    (builds : EndBuilds header role built) :
    built = { firstRecord header role with
      sequenceNumber := built.sequenceNumber
      recordCrc32 := built.recordCrc32 } := by
  obtain ⟨flash, session, frame, calls, code, flash', _, rfl, rfl, append⟩ := builds
  obtain ⟨rfl, _⟩ := append_result _ _ _ _ _ append _ _ rfl
  rfl

theorem metadataPack_describe (header : FirmwarePackageHeader) (role : Word) :
    metadataPack 0x424C4D44 2 48 1 validApplication header.imageSize.toNat header.imageCrc32.toNat
      header.firmwareVersion.toNat role.toNat 0 0 0 0 = some { firstRecord header role with recordCrc32 := 0 }.bytes := by
  have word : ∀ value : Word, BitVec.ofNat 32 value.toNat = value := fun value => by
    rw [BitVec.ofNat_toNat, BitVec.setWidth_eq]
  unfold metadataPack
  rw [if_pos ⟨by decide, by decide, by decide, by decide, by decide, header.imageSize.isLt, header.imageCrc32.isLt,
    header.firmwareVersion.isLt, role.isLt, by decide, by decide, by decide, by decide⟩, word, word, word, word]
  rfl

/-- The record of the factory is the first one that appendMetadataRecord would write. -/
theorem metadataRecord_describe (header : FirmwarePackageHeader) (image : List Byte) (role : Word) :
    metadataRecord (describe header image) role.toNat = some (firstRecord header role).bytes := by
  have sealed := firstRecord_sealed header role
  have front : dropTail4 { firstRecord header role with recordCrc32 := 0 }.bytes =
    (firstRecord header role).protectedBytes := by
    rw [dropTail4, BootMetadata.length_bytes, BootMetadata.take_bytes, BootMetadata.protectedBytes_crc]
  unfold metadataRecord describe
  dsimp only
  rw [metadataPack_describe, Option.bind_eq_bind, Option.bind_some, front, crc32, toBytes4_toNat,
    ← sealed.recordCrc32]
  rfl

theorem parseRole_eq_some {value : List Char} {role : Nat} (parsed : parseRole value = some role) :
    role = 1 ∨ role = 2 := by
  unfold parseRole at parsed
  split at parsed
  · cases parsed
    exact .inl rfl
  · split at parsed
    · cases parsed
      exact .inr rfl
    · cases parsed

/-! ### The lines -/

theorem HexData.update_append (data : HexData) (address : Nat) (first second : List Byte) :
    data.update address (first ++ second) = (data.update address first).update (address + first.length) second := by
  induction first generalizing data address with
  | nil => rfl
  | cons byte first ih =>
    rw [List.cons_append, HexData.update, ih, List.length_cons, Nat.add_right_comm, Nat.add_assoc]
    rfl

theorem ihexRecord_short {address recordType : Nat} {payload : List Byte} (inside : address < 2 ^ 16)
    (known : recordType < 256)
    (short : payload.length < 256) : ∃ line, ihexRecord address recordType payload = some line := by
  have high : address >>> 8 < 256 := by
    rw [Nat.shiftRight_eq_div_pow]
    omega
  unfold ihexRecord
  exact ⟨_, if_pos ⟨short, high, known⟩⟩

/-- read_ihex reads the first `n` lines back. -/
theorem lines_read (record : List Byte) {n : Nat} (inside : 16 * n ≤ record.length + 15)
    (below : metadataAddress + 16 * n ≤ 2 ^ 16) :
    ∃ lines, ((List.range n).mapM fun k => ihexRecord (metadataAddress + 16 * k) 0
      (slice record (16 * k) (16 * k + 16))) = some lines ∧
      ∀ number data rest, readIhexLoop number 0 data (splitlines (lines.flatten ++ rest)) =
        readIhexLoop (number + n) 0 (data.update metadataAddress (record.take (16 * n))) (splitlines rest) := by
  induction n with
  | zero => exact ⟨[], rfl, fun number data rest => rfl⟩
  | succ n ih =>
    obtain ⟨lines, written, read⟩ := ih (by omega) (by omega)
    have short : (slice record (16 * n) (16 * n + 16)).length < 256 := by
      simp only [slice, List.length_take]
      omega
    obtain ⟨line, last⟩ :=
      ihexRecord_short (show metadataAddress + 16 * n < 2 ^ 16 by omega) (show 0 < 256 by decide) short
    refine ⟨lines ++ [line], ?_, ?_⟩
    · rw [List.range_succ, List.mapM_append, written]
      simp [last]
    · intro number data rest
      have length : (record.take (16 * n)).length = 16 * n := by
        rw [List.length_take]
        omega
      have block : record.take (16 * (n + 1)) = record.take (16 * n) ++ slice record (16 * n) (16 * n + 16) := by
        rw [slice, Nat.add_sub_cancel_left, Nat.mul_succ, List.take_add]
      rw [List.flatten_append, List.append_assoc, read, List.flatten_singleton, readIhexLoop_record last,
        if_pos rfl, block, HexData.update_append, length, Nat.zero_add, Nat.add_assoc]

theorem metadataHex_read {package : List Byte} {info : Package} (parsed : parse package = some info)
    (target : info.target = firmwareTargetId.toNat) {appHex : List Char}
      (matches_ : appHexMatchesPackage appHex info = some ())
    (role : Word) : ∃ text metadata, metadataHex package appHex role.toNat = some text ∧
      readIhex text = .ok metadata ∧
      ∀ address default, metadata.get address default = if metadataAddress ≤ address then
        (firstRecord (loadPackageHeader package) role).bytes.getD (address - metadataAddress) default else default := by
  obtain ⟨_, _, described⟩ := parse_iff.mp parsed
  have packed := metadataRecord_describe (loadPackageHeader package) (package.drop headerSize) role
  rw [← described] at packed
  generalize record_ : firstRecord (loadPackageHeader package) role = record at packed ⊢
  have length : record.bytes.length = 48 := record.length_bytes
  -- 48 bytes are three lines of 16
  obtain ⟨lines, written, read⟩ := @lines_read record.bytes 3 (by omega) (by decide)
  obtain ⟨last, ended⟩ := @ihexRecord_short 0 1 [] (by decide) (by decide) (by decide)
  have lines_ : metadataLines record.bytes = some lines := by
    unfold metadataLines
    rw [length]
    exact written
  refine ⟨lines.flatten ++ last, HexData.update [] metadataAddress record.bytes, ?_, ?_, ?_⟩
  · unfold metadataHex
    rw [parsed, Option.bind_eq_bind, Option.bind_some, if_neg (not_not.mpr target), matches_, Option.bind_eq_bind,
      Option.bind_some, packed, Option.bind_eq_bind, Option.bind_some, lines_, ended]
    rfl
  · have whole : record.bytes.take (16 * 3) = record.bytes := List.take_of_length_le (Nat.le_of_eq length)
    have end_ := readIhexLoop_record ended (1 + 3) 0 (HexData.update [] metadataAddress record.bytes) []
    rw [List.append_nil, if_neg (by decide), if_neg (by decide), if_pos rfl] at end_
    rw [readIhex, read, whole, end_]
  · intro address default
    rw [HexData.get_update]
    rfl

/-! ### The chip -/

theorem appHexMatchesPackage_eq_some {appHex : List Char} {package : Package} {values : HexData}
    (matches_ : appHexMatchesPackage appHex package = some ()) (read : readIhex appHex = .ok values) :
    (List.range package.image.length).map (fun i => values.get (package.address + i) 0xFF) = package.image := by
  unfold appHexMatchesPackage at matches_
  rw [read] at matches_
  simp only [Except.toOption, Option.bind_eq_bind, Option.bind_some] at matches_
  split at matches_
  · cases matches_
  case isFalse same => exact not_not.mp same

/-- What a chip with this record in an erased journal, and with its image, does. -/
structure StartsFrom (header : FirmwarePackageHeader) (role : Word) (chip : Flash) (m : BootMetadata) : Prop where
  read : Exec FlashStep readBootMetadata chip [] (.returned (some m)) chip
  builds : ∃ built, EndBuilds header role built
  built : ∀ built, EndBuilds header role built →
    built = { m with sequenceNumber := built.sequenceNumber, recordCrc32 := built.recordCrc32 }
  boots : BootsInto chip role ↔ isVectorTableValid chip = true
  handsOver : ∀ stack event t handoff, event.input = .boot stack → DeviceStep ⟨chip, .reset⟩ event t →
    event.output = some (.handoff handoff) → handoff.appRole = role ∧ isVectorTableValid chip = true

theorem readBootMetadata_exec {flash : Flash} {m : BootMetadata} (newest : newestRecord flash = some m) :
    Exec FlashStep readBootMetadata flash [] (.returned (some m)) flash := by
  have read : Exec FlashStep readBootMetadata flash [] (.returned (newestRecord flash)) flash := .read .ret
  rwa [newest] at read

theorem startsFrom_of_journal {header : FirmwarePackageHeader} {role : Word} {chip : Flash}
    (newest : newestRecord chip = some (firstRecord header role)) (nonempty : header.imageSize ≠ 0)
    (fits : header.imageSize ≤ applicationSlotSize)
    (crc : applicationCrc32 chip header.imageSize = header.imageCrc32) :
    StartsFrom header role chip (firstRecord header role) := by
  have decides : bootsApplication chip (bootMetadata chip) = isVectorTableValid chip := by
    -- the vector table is the one check that the record does not decide
    have limit : decide ((0 : Word) < bootFailureLimit) = true := by decide
    have image : isApplicationImageValid chip (firstRecord header role) = isVectorTableValid chip := by
      change (header.imageSize != 0 && decide (header.imageSize ≤ applicationSlotSize) && _ &&
        applicationCrc32 chip header.imageSize == header.imageCrc32) = _
      rw [crc, bne_iff_ne.mpr nonempty, decide_eq_true fits, beq_self_eq_true, Bool.true_and, Bool.true_and,
        Bool.and_true]
    rw [bootMetadata_of_some newest, bootsApplication, image]
    change (bootStateValidApplication == bootStateValidApplication && decide ((0 : Word) < bootFailureLimit) && _) = _
    rw [beq_self_eq_true, limit, Bool.true_and, Bool.true_and]
  refine ⟨readBootMetadata_exec newest, ?_, fun built builds => builds.eq, ?_, ?_⟩
  · -- a session that has written the image
    have accepted :
        endAccepted chip ⟨setDefaultMetadata, header, header.imageSize, role, true⟩ (endRequest 0) = true := by
      simp only [endAccepted, endRequest, crc, beq_self_eq_true, List.isEmpty_nil, Bool.and_self]
    obtain ⟨calls, flash', append, _⟩ := append_completes_done (UpdateSession.committed
      ⟨setDefaultMetadata, header, header.imageSize, role, true⟩) chip
    exact ⟨_, _, _, _, _, _, _, accepted, rfl, rfl, append⟩
  · rw [bootsInto_iff, decides, bootMetadata_of_some newest]
    exact and_iff_left rfl
  · rintro stack ⟨input, calls, output⟩ ⟨flash', mode⟩ handoff rfl step rfl
    have turned := step.turned
    dsimp only at turned
    cases turned with
    | bootAttempt attempts append ended =>
      -- a record that is not written leaves the chip in the update loop or without power
      rcases attempt_cases ended with ⟨m, rfl, output, _⟩ | ⟨_, _, _, _, output, _⟩ | ⟨_, output, _⟩
      · obtain ⟨rfl, _⟩ := append_result _ _ _ _ _ append _ _ rfl
        cases output
        rw [← decides]
        refine ⟨?_, attempts⟩
        rw [bootMetadata_of_some newest]
        rfl
      · cases output
      · cases output

theorem bytes_getD (data : List Byte) (default : Nat → Byte) {length : Nat} (whole : data.length = length) :
    ((List.range length).map fun i => data.getD i (default i)) = data := by
  subst whole
  apply List.ext_getElem
  · rw [List.length_map, List.length_range]
  · intro i _ inside
    rw [List.getElem_map, List.getElem_range]
    exact (List.getElem_eq_getD _).symm

/-- The record and the image, wherever else the application's HEX has data in its slot. -/
theorem newest_of_programmed {record : BootMetadata} (sealed : record.Sealed) {values metadata : HexData}
    (inside : ∀ entry ∈ values, applicationFlashStart ≤ entry.1 ∧ entry.1 < applicationFlashEnd)
    (written : ∀ address default, metadata.get address default = if metadataAddress ≤ address then
      record.bytes.getD (address - metadataAddress) default else default) :
    newestRecord (programHex (programHex blankFlash values) metadata) = some record ∧
    ∀ a, applicationFlashStart ≤ a → programHex (programHex blankFlash values) metadata a = values.get a 0xFF := by
  have length : record.bytes.length = sizeofBootMetadata := record.length_bytes
  -- behind the record there is only what the application's HEX has
  have other : ∀ a, metadataAddress + sizeofBootMetadata ≤ a →
      programHex (programHex blankFlash values) metadata a = values.get a 0xFF := by
    intro a past
    have beyond : record.bytes.length ≤ a - metadataAddress := by omega
    rw [programHex, written, if_pos (Nat.le_of_add_right_le past), List.getD_eq_getElem?_getD,
      List.getElem?_eq_none beyond]
    rfl
  obtain ⟨journal, loaded⟩ := @factoryJournal_of_record (programHex (programHex blankFlash values) metadata) _ sealed
    (by
      refine Eq.trans ?_ (bytes_getD record.bytes (fun i => values.get (metadataAddress + i) 0xFF) length)
      apply List.map_congr_left
      intro i _
      rw [programHex, show metadataPagePrimary + i = metadataAddress + i from rfl, written,
        if_pos (Nat.le_add_right _ _), Nat.add_sub_cancel_left]
      rfl)
    (by
      intro a past below
      rw [other a past]
      exact @HexData.get_of_outside _ (fun a => applicationFlashStart ≤ a ∧ a < applicationFlashEnd) inside _
        (fun slot => Nat.not_le_of_lt below slot.1) 0xFF)
  refine ⟨by rw [journal.holds.newestRecord_eq, loaded], ?_⟩
  intro a slot
  refine other a (Nat.le_trans ?_ slot)
  decide

/-- For every package for this device, every role and every application HEX that matches
the package and stays in the App slot, the HEX of fw_metadata_hex.py gives an erased chip
the record of an update, and the chip starts the application as after one. -/
theorem factory_agrees_with_update {package : List Byte} {info : Package} (parsed : parse package = some info)
    (target : info.target = firmwareTargetId.toNat) {argument : List Char} {role : Nat}
    (role_ : parseRole argument = some role) {appHex : List Char} {values : HexData}
    (read : readIhex appHex = .ok values) (matches_ : appHexMatchesPackage appHex info = some ())
    (inside : ∀ entry ∈ values, applicationFlashStart ≤ entry.1 ∧ entry.1 < applicationFlashEnd) :
    ∃ text metadata m, metadataHex package appHex role = some text ∧ readIhex text = .ok metadata ∧
      (programHex (programHex blankFlash values) metadata).bytes applicationFlashStart info.size = info.image ∧
      StartsFrom (loadPackageHeader package) (BitVec.ofNat 32 role)
        (programHex (programHex blankFlash values) metadata) m := by
  have small : (BitVec.ofNat 32 role).toNat = role := by
    rcases parseRole_eq_some role_ with rfl | rfl
    · rfl
    · rfl
  obtain ⟨text, metadata, written, back, gives⟩ := metadataHex_read parsed target matches_ (BitVec.ofNat 32 role)
  rw [small] at written
  obtain ⟨newest, slot⟩ := newest_of_programmed (firstRecord_sealed _ _) inside gives
  obtain ⟨_, carries, described⟩ := parse_iff.mp parsed
  have whole := appHexMatchesPackage_eq_some matches_ read
  rw [described] at whole ⊢
  dsimp only [describe] at whole ⊢
  have address : (loadPackageHeader package).applicationAddress.toNat = applicationFlashStart := by
    rw [carries.applicationAddress]
    rfl
  rw [address, carries.imageSize] at whole
  have image : (programHex (programHex blankFlash values) metadata).bytes applicationFlashStart
      (loadPackageHeader package).imageSize.toNat = package.drop headerSize := by
    refine Eq.trans ?_ whole
    apply List.map_congr_left
    intro i _
    exact slot _ (Nat.le_add_right _ _)
  refine ⟨text, metadata, firstRecord (loadPackageHeader package) (BitVec.ofNat 32 role), written, back, image, ?_⟩
  refine startsFrom_of_journal newest carries.nonempty carries.fits ?_
  rw [applicationCrc32, image, carries.imageCrc32]

/-- A HEX file with the smallest image. -/
def vectorHex : List Char := ":0880000000400020098000008F\n:00000001FF\n".toList

theorem factory_agrees_with_update_vector : ∃ text metadata m, metadataHex factoryPackage vectorHex 1 = some text ∧
    readIhex text = .ok metadata ∧
    (programHex (programHex blankFlash (HexData.update
      [] 0x8000 vectorImage)) metadata).bytes applicationFlashStart 8 = vectorImage ∧
    StartsFrom (loadPackageHeader factoryPackage) 1
      (programHex (programHex blankFlash (HexData.update [] 0x8000 vectorImage)) metadata) m := by
  have read : readIhex vectorHex = .ok (HexData.update [] 0x8000 vectorImage) := by decide +kernel
  have matches_ : appHexMatchesPackage vectorHex factoryInfo = some () := by decide +kernel
  have role_ : parseRole ['R', 'x'] = some 1 := by decide
  exact factory_agrees_with_update parse_factoryPackage rfl role_ read matches_ (by decide)

end Cc1310Firmware.Host
