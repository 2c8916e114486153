import Cc1310Firmware.Bootloader.Flash

/-! The persistent boot metadata: the 48-byte record and its two-page journal.

These are the functions of bootloader.c from isValidAppRole to
requestFirmwareUpdate. A `const BootMetadata *` into flash is the address it
points to, and `none` is NULL.
-/

set_option autoImplicit false

namespace Cc1310Firmware.Bootloader
open LittleEndian CrashProgram

def metadataMagic : Word := 0x424C4D44
def metadataFormatVersion : Half := 2
def bootFailureLimit : Word := 3

def bootStateValidApplication : Word := 1
def bootStateUpdateRequested : Word := 2
def bootStateUpdateInProgress : Word := 3

def appRoleUnset : Word := 0
def appRoleRx : Word := 1
def appRoleTx : Word := 2

def isValidAppRole (role : Word) : Bool :=
  role == appRoleUnset || role == appRoleRx || role == appRoleTx

/-- The packed BootMetadata structure. -/
structure BootMetadata where
  magic : Word
  formatVersion : Half
  recordSize : Half
  sequenceNumber : Word
  state : Word
  imageSize : Word
  imageCrc32 : Word
  firmwareVersion : Word
  appRole : Word
  unconfirmedBootCount : Word
  bootAttemptId : Word
  confirmedBootAttemptId : Word
  recordCrc32 : Word
  deriving DecidableEq, Repr

/-- sizeof(BootMetadata) -/
def sizeofBootMetadata : Nat := 48

/-- FLASH_PAGE_SIZE / sizeof(BootMetadata) -/
def recordsPerPage : Nat := 85

/-- The memory image of a record. -/
def BootMetadata.bytes (m : BootMetadata) : List Byte :=
  bytesOf m.magic 4 ++ bytesOf m.formatVersion 2 ++ bytesOf m.recordSize 2 ++
  bytesOf m.sequenceNumber 4 ++ bytesOf m.state 4 ++ bytesOf m.imageSize 4 ++
  bytesOf m.imageCrc32 4 ++ bytesOf m.firmwareVersion 4 ++ bytesOf m.appRole 4 ++
  bytesOf m.unconfirmedBootCount 4 ++ bytesOf m.bootAttemptId 4 ++
  bytesOf m.confirmedBootAttemptId 4 ++ bytesOf m.recordCrc32 4

/-- Reading a record through a pointer into flash. -/
def loadRecord (flash : Flash) (record : Nat) : BootMetadata where
  magic := flash.word record
  formatVersion := flash.half (record + 4)
  recordSize := flash.half (record + 6)
  sequenceNumber := flash.word (record + 8)
  state := flash.word (record + 12)
  imageSize := flash.word (record + 16)
  imageCrc32 := flash.word (record + 20)
  firmwareVersion := flash.word (record + 24)
  appRole := flash.word (record + 28)
  unconfirmedBootCount := flash.word (record + 32)
  bootAttemptId := flash.word (record + 36)
  confirmedBootAttemptId := flash.word (record + 40)
  recordCrc32 := flash.word (record + 44)

/-- `count` rounds of the bitwise CRC-32 loop. -/
def crc32Bits : Nat → Word → Word
  | 0, crc => crc
  | count + 1, crc => crc32Bits count ((crc >>> 1) ^^^ (if crc &&& 1 != 0 then 0xEDB88320 else 0))

def crc32Step (crc : Word) (byte : Byte) : Word := crc32Bits 8 (crc ^^^ byte.setWidth 32)

def calculateCrc32 (data : List Byte) : Word := ~~~ data.foldl crc32Step (~~~ 0)

def isErasedRecord (flash : Flash) (record : Nat) : Bool :=
  (List.range (sizeofBootMetadata / 4)).all fun wordIndex => flash.word (record + 4 * wordIndex) == ~~~ 0

def isValidMetadataRecord (flash : Flash) (record : Nat) : Bool :=
  (loadRecord flash record).magic == metadataMagic &&
  (loadRecord flash record).formatVersion == metadataFormatVersion &&
  (loadRecord flash record).recordSize == BitVec.ofNat 16 sizeofBootMetadata &&
  (loadRecord flash record).recordCrc32 == calculateCrc32 (flash.bytes record (sizeofBootMetadata - 4))

def isSequenceNewer (candidate reference : Word) : Bool :=
  candidate != reference && decide (candidate - reference < 0x80000000#32)

/-- The address of `&records[recordIndex]` in a page. -/
def recordAddress (pageAddress recordIndex : Nat) : Nat :=
  pageAddress + recordIndex * sizeofBootMetadata

/-- Whether the scanned record replaces the newest one so far; `none` is NULL. -/
def supersedes (flash : Flash) (record : Nat) : Option Nat → Bool
  | none => true
  | some newestRecord =>
    isSequenceNewer (loadRecord flash record).sequenceNumber (loadRecord flash newestRecord).sequenceNumber ||
    (loadRecord flash record).sequenceNumber == (loadRecord flash newestRecord).sequenceNumber

/-- The loop of findNewestRecordInPage with `remaining` records to go. -/
def findNewestRecordInPageLoop (flash : Flash) (pageAddress : Nat) : Nat → Nat → Option Nat → Option Nat
  | 0, _, newestRecord => newestRecord
  | remaining + 1, recordIndex, newestRecord =>
    if isErasedRecord flash (recordAddress pageAddress recordIndex) then newestRecord
    else findNewestRecordInPageLoop flash pageAddress remaining (recordIndex + 1)
      (if isValidMetadataRecord flash (recordAddress pageAddress recordIndex) &&
          supersedes flash (recordAddress pageAddress recordIndex) newestRecord
        then some (recordAddress pageAddress recordIndex) else newestRecord)

def findNewestRecordInPage (flash : Flash) (pageAddress : Nat) : Option Nat :=
  findNewestRecordInPageLoop flash pageAddress recordsPerPage 0 none

def findNewestMetadataRecord (flash : Flash) : Option Nat :=
  match findNewestRecordInPage flash metadataPagePrimary,
      findNewestRecordInPage flash metadataPageSecondary with
  | none, secondary => secondary
  | some primary, none => some primary
  | some primary, some secondary =>
    if isSequenceNewer (loadRecord flash secondary).sequenceNumber (loadRecord flash primary).sequenceNumber
    then some secondary
    else if isSequenceNewer (loadRecord flash primary).sequenceNumber (loadRecord flash secondary).sequenceNumber
    then some primary
    else some primary

/-- `none` is the return value -1. -/
def readBootMetadata : FlashProg (Option BootMetadata) :=
  .view fun flash => (findNewestMetadataRecord flash).map (loadRecord flash)

def setDefaultMetadata : BootMetadata where
  magic := metadataMagic
  formatVersion := metadataFormatVersion
  recordSize := BitVec.ofNat 16 sizeofBootMetadata
  sequenceNumber := 0
  state := bootStateUpdateInProgress
  imageSize := 0
  imageCrc32 := 0
  firmwareVersion := 0
  appRole := appRoleUnset
  unconfirmedBootCount := 0
  bootAttemptId := 0
  confirmedBootAttemptId := 0
  recordCrc32 := 0

/-- The index of the first erased record, or `none` for the return value -1. -/
def findFirstErasedRecordLoop (flash : Flash) (pageAddress : Nat) : Nat → Nat → Option Nat
  | 0, _ => none
  | remaining + 1, recordIndex =>
    if isErasedRecord flash (recordAddress pageAddress recordIndex) then some recordIndex
    else findFirstErasedRecordLoop flash pageAddress remaining (recordIndex + 1)

def findFirstErasedRecord (flash : Flash) (pageAddress : Nat) : Option Nat :=
  findFirstErasedRecordLoop flash pageAddress recordsPerPage 0

/-- The header, sequence number and CRC that appendMetadataRecord fills in. -/
def sealRecord (newestSequence : Option Word) (metadata : BootMetadata) : BootMetadata :=
  let filled := { metadata with
    magic := metadataMagic
    formatVersion := metadataFormatVersion
    recordSize := BitVec.ofNat 16 sizeofBootMetadata
    sequenceNumber := match newestSequence with
      | some sequence => sequence + 1
      | none => 1 }
  { filled with recordCrc32 := calculateCrc32 (filled.bytes.take (sizeofBootMetadata - 4)) }

/-- The part of appendMetadataRecord after the label writeRecord: the record
body first, with its CRC field still erased, then the CRC. -/
def writeRecord (metadata : BootMetadata) (pageAddress recordIndex : Nat) : FlashProg Int := do
  let recordToWrite := { metadata with recordCrc32 := ~~~ 0 }
  let bodyFailed ← flashProgram (recordToWrite.bytes.take (sizeofBootMetadata - 4))
    (recordAddress pageAddress recordIndex)
  if bodyFailed then return -1
  else
    let crcFailed ← flashProgram (bytesOf metadata.recordCrc32 4)
      (recordAddress pageAddress recordIndex + sizeofBootMetadata - 4)
    if crcFailed then return -1 else return 0

/-- The page to rotate when neither page has an erased record. -/
def rotationPage (newestRecord : Option Nat) : Nat :=
  match newestRecord with
  | some record => if metadataPageSecondary ≤ record then metadataPagePrimary else metadataPageSecondary
  | none => metadataPageSecondary

/-- Returns the caller's record as it was filled in, and the return code. -/
def appendMetadataRecord (metadata : BootMetadata) : FlashProg (BootMetadata × Int) := do
  let newestRecord ← Program.view findNewestMetadataRecord
  let newestSequence ← Program.view fun flash =>
    newestRecord.map fun record => (loadRecord flash record).sequenceNumber
  let metadata := sealRecord newestSequence metadata
  match ← Program.view fun flash => findFirstErasedRecord flash metadataPagePrimary with
  | some recordIndex => return (metadata, ← writeRecord metadata metadataPagePrimary recordIndex)
  | none =>
    match ← Program.view fun flash => findFirstErasedRecord flash metadataPageSecondary with
    | some recordIndex => return (metadata, ← writeRecord metadata metadataPageSecondary recordIndex)
    | none =>
      let eraseFailed ← flashSectorErase (rotationPage newestRecord)
      if eraseFailed then return (metadata, -1)
      else return (metadata, ← writeRecord metadata (rotationPage newestRecord) 0)

def confirmApplicationBoot (bootAttemptId : Word) : FlashProg Int := do
  match ← readBootMetadata with
  | none => return -1
  | some metadata =>
    if metadata.bootAttemptId != bootAttemptId || metadata.confirmedBootAttemptId == bootAttemptId then
      return -1
    else
      let confirmed := { metadata with confirmedBootAttemptId := bootAttemptId }
      let confirmed := if confirmed.unconfirmedBootCount != 0 then
        { confirmed with unconfirmedBootCount := confirmed.unconfirmedBootCount - 1 } else confirmed
      return (← appendMetadataRecord confirmed).2

def requestFirmwareUpdate : FlashProg Int := do
  let metadata := (← readBootMetadata).getD setDefaultMetadata
  return (← appendMetadataRecord { metadata with state := bootStateUpdateRequested }).2

end Cc1310Firmware.Bootloader
