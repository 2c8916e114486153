import Cc1310Firmware.Bootloader.Metadata

/-! The firmware update loop of the bootloader.

`handleFrame` is one iteration of the loop in runFirmwareUpdate, from the frame
that readProtocolFrame delivered to the frame that writeProtocolFrame sends.
The loop's local variables are the session.
-/

set_option autoImplicit false

namespace Cc1310Firmware.Bootloader
open LittleEndian CrashProgram

def applicationRamStart : Word := 0x20000000
def applicationRamEnd : Word := 0x20005000
def packageMagic : Word := 0x4B505746
/-- "CC1M" -/
def firmwareTargetId : Word := 0x4343314D
def packageFormatVersion : Half := 1

def protocolHello : Byte := 1
def protocolInfo : Byte := 2
def protocolBegin : Byte := 3
def protocolReady : Byte := 4
def protocolData : Byte := 5
def protocolAck : Byte := 6
def protocolNack : Byte := 7
def protocolEnd : Byte := 8
def protocolComplete : Byte := 9
def protocolError : Byte := 10
def protocolSetRole : Byte := 11

/-- A decoded frame; the payload buffer has 152 bytes. -/
structure ProtocolFrame where
  messageType : Byte
  sequenceNumber : Half
  payload : List Byte
  deriving DecidableEq, Repr

/-- The packed FirmwarePackageHeader structure. -/
structure FirmwarePackageHeader where
  magic : Word
  formatVersion : Half
  headerSize : Half
  targetId : Word
  applicationAddress : Word
  imageSize : Word
  firmwareVersion : Word
  imageCrc32 : Word
  headerCrc32 : Word
  deriving DecidableEq, Repr

/-- sizeof(FirmwarePackageHeader) -/
def sizeofFirmwarePackageHeader : Nat := 32

def FirmwarePackageHeader.bytes (header : FirmwarePackageHeader) : List Byte :=
  bytesOf header.magic 4 ++ bytesOf header.formatVersion 2 ++ bytesOf header.headerSize 2 ++
  bytesOf header.targetId 4 ++ bytesOf header.applicationAddress 4 ++ bytesOf header.imageSize 4 ++
  bytesOf header.firmwareVersion 4 ++ bytesOf header.imageCrc32 4 ++ bytesOf header.headerCrc32 4

def storeUint32Le (value : Word) : List Byte := bytesOf value 4

/-- loadUint32Le(&source[offset]) -/
def loadUint32Le (source : List Byte) (offset : Nat) : Word :=
  word32 (source.getD offset 0) (source.getD (offset + 1) 0) (source.getD (offset + 2) 0)
    (source.getD (offset + 3) 0)

/-- The memcpy of a received header into a FirmwarePackageHeader. -/
def loadPackageHeader (payload : List Byte) : FirmwarePackageHeader where
  magic := loadUint32Le payload 0
  formatVersion := word16 (payload.getD 4 0) (payload.getD 5 0)
  headerSize := word16 (payload.getD 6 0) (payload.getD 7 0)
  targetId := loadUint32Le payload 8
  applicationAddress := loadUint32Le payload 12
  imageSize := loadUint32Le payload 16
  firmwareVersion := loadUint32Le payload 20
  imageCrc32 := loadUint32Le payload 24
  headerCrc32 := loadUint32Le payload 28

/-- The loop of eraseApplicationFlash with `remaining` pages to go; -1 is an error. -/
def eraseApplicationFlashLoop : Nat → Nat → FlashProg Int
  | 0, _ => return 0
  | remaining + 1, address => do
    let failed ← flashSectorErase address
    if failed then return -1 else eraseApplicationFlashLoop remaining (address + flashPageSize)

def eraseApplicationFlash : FlashProg Int :=
  eraseApplicationFlashLoop ((applicationFlashEnd - applicationFlashStart) / flashPageSize) applicationFlashStart

/-- APPLICATION_FLASH_END - APPLICATION_FLASH_START -/
def applicationSlotSize : Word := BitVec.ofNat 32 (applicationFlashEnd - applicationFlashStart)

/-- The two checks of isApplicationImageValid on the stack pointer and the reset vector. -/
def isVectorTableValid (flash : Flash) : Bool :=
  decide (applicationRamStart ≤ flash.word applicationFlashStart) &&
  decide (flash.word applicationFlashStart < applicationRamEnd) &&
  flash.word (applicationFlashStart + 4) &&& 1 != 0 &&
  decide (BitVec.ofNat 32 applicationFlashStart ≤ flash.word (applicationFlashStart + 4)) &&
  decide (flash.word (applicationFlashStart + 4) < BitVec.ofNat 32 applicationFlashEnd)

/-- calculateCrc32 over the first bytes of the application slot. -/
def applicationCrc32 (flash : Flash) (imageSize : Word) : Word :=
  calculateCrc32 (flash.bytes applicationFlashStart imageSize.toNat)

def isApplicationImageValid (flash : Flash) (metadata : BootMetadata) : Bool :=
  metadata.imageSize != 0 && decide (metadata.imageSize ≤ applicationSlotSize) && isVectorTableValid flash &&
  applicationCrc32 flash metadata.imageSize == metadata.imageCrc32

def isValidPackageHeader (header : FirmwarePackageHeader) : Bool :=
  header.magic == packageMagic && header.formatVersion == packageFormatVersion &&
  header.headerSize == BitVec.ofNat 16 sizeofFirmwarePackageHeader && header.targetId == firmwareTargetId &&
  header.applicationAddress == BitVec.ofNat 32 applicationFlashStart && header.imageSize != 0 &&
  decide (header.imageSize ≤ applicationSlotSize) && header.imageSize &&& 3 == 0 &&
  header.headerCrc32 == calculateCrc32 (header.bytes.take (sizeofFirmwarePackageHeader - 4))

/-- The variables of runFirmwareUpdate that live from one frame to the next. -/
structure UpdateSession where
  metadata : BootMetadata
  packageHeader : FirmwarePackageHeader
  bytesWritten : Word
  requestedRole : Word
  updateActive : Bool
  deriving DecidableEq, Repr

/-- The session at the start of runFirmwareUpdate; packageHeader is not initialised. -/
def UpdateSession.start (metadata : BootMetadata) (packageHeader : FirmwarePackageHeader) : UpdateSession where
  metadata := metadata
  packageHeader := packageHeader
  bytesWritten := 0
  requestedRole := appRoleUnset
  updateActive := false

/-- How an iteration of the loop ends. -/
inductive Continuation where
  | loop (session : UpdateSession)
  | systemReset
  deriving DecidableEq, Repr

/-- The reply with the sequence number of the request. -/
def ProtocolFrame.reply (request : ProtocolFrame) (messageType : Byte) (payload : List Byte) : ProtocolFrame :=
  ⟨messageType, request.sequenceNumber, payload⟩

def ProtocolFrame.error (request : ProtocolFrame) : ProtocolFrame := request.reply protocolError []

def infoPayload (metadata : BootMetadata) : List Byte :=
  storeUint32Le firmwareTargetId ++ storeUint32Le metadata.state ++ storeUint32Le applicationSlotSize ++
  storeUint32Le metadata.imageSize ++ storeUint32Le metadata.firmwareVersion ++ storeUint32Le metadata.appRole

/-- The guard of the HELLO branch. -/
def isHello (frame : ProtocolFrame) : Bool := frame.messageType == protocolHello && frame.payload.isEmpty

/-- The guard of the BEGIN branch. -/
def isBegin (frame : ProtocolFrame) : Bool :=
  frame.messageType == protocolBegin && frame.payload.length == sizeofFirmwarePackageHeader + 4

/-- The header and role that BEGIN copies before it checks them. -/
def UpdateSession.withHeader (session : UpdateSession) (frame : ProtocolFrame) : UpdateSession :=
  { session with
    packageHeader := loadPackageHeader frame.payload
    requestedRole := loadUint32Le frame.payload sizeofFirmwarePackageHeader }

def isRefusedBegin (session : UpdateSession) : Bool :=
  !isValidPackageHeader session.packageHeader || !isValidAppRole session.requestedRole

def handleBegin (session : UpdateSession) (frame : ProtocolFrame) : FlashProg (ProtocolFrame × Continuation) := do
  let session := session.withHeader frame
  if isRefusedBegin session then return (frame.error, .loop session)
  else
    let (metadata, code) ← appendMetadataRecord setDefaultMetadata
    -- what appendMetadataRecord has filled in stays also when it fails, and so does updateActive
    let session := { session with metadata := metadata }
    if code != 0 then return (frame.error, .loop session)
    else
      let code ← eraseApplicationFlash
      if code != 0 then return (frame.error, .loop session)
      else
        return (frame.reply protocolReady (storeUint32Le 0),
          .loop { session with bytesWritten := 0, updateActive := true })

/-- The guard of the DATA branch. -/
def isData (session : UpdateSession) (frame : ProtocolFrame) : Bool :=
  frame.messageType == protocolData && session.updateActive && decide (4 ≤ frame.payload.length)

/-- The DATA payload after its offset. -/
def ProtocolFrame.block (frame : ProtocolFrame) : List Byte := frame.payload.drop 4

def isMalformedData (session : UpdateSession) (frame : ProtocolFrame) : Bool :=
  frame.block.length == 0 || decide (128 < frame.block.length) || frame.block.length &&& 3 != 0 ||
  decide (session.packageHeader.imageSize < loadUint32Le frame.payload 0 + BitVec.ofNat 32 frame.block.length)

/-- The ACK or NACK for a DATA frame. -/
def acknowledge (session : UpdateSession) (frame : ProtocolFrame) : ProtocolFrame × Continuation :=
  (frame.reply (if loadUint32Le frame.payload 0 ≤ session.bytesWritten then protocolAck else protocolNack)
    (storeUint32Le session.bytesWritten), .loop session)

def handleData (session : UpdateSession) (frame : ProtocolFrame) : FlashProg (ProtocolFrame × Continuation) := do
  let offset := loadUint32Le frame.payload 0
  if isMalformedData session frame then return (frame.error, .loop session)
  else
    if offset == session.bytesWritten then
      let failed ← flashProgram frame.block (BitVec.ofNat 32 applicationFlashStart + offset).toNat
      -- a block that was not programmed is acknowledged as well, with bytesWritten as before
      if failed then return acknowledge session frame
      else
        return acknowledge
          { session with bytesWritten := session.bytesWritten + BitVec.ofNat 32 frame.block.length } frame
    else return acknowledge session frame

/-- The guard of the END branch. -/
def endAccepted (flash : Flash) (session : UpdateSession) (frame : ProtocolFrame) : Bool :=
  frame.messageType == protocolEnd && session.updateActive && frame.payload.isEmpty &&
  session.bytesWritten == session.packageHeader.imageSize &&
  applicationCrc32 flash session.packageHeader.imageSize == session.packageHeader.imageCrc32

/-- The metadata that END commits. -/
def UpdateSession.committed (session : UpdateSession) : BootMetadata :=
  { session.metadata with
    state := bootStateValidApplication
    imageSize := session.packageHeader.imageSize
    imageCrc32 := session.packageHeader.imageCrc32
    firmwareVersion := session.packageHeader.firmwareVersion
    appRole := session.requestedRole
    unconfirmedBootCount := 0
    bootAttemptId := 0
    confirmedBootAttemptId := 0 }

/-- The guard of the SET_ROLE branch. -/
def setRoleAccepted (flash : Flash) (session : UpdateSession) (frame : ProtocolFrame) : Bool :=
  frame.messageType == protocolSetRole && frame.payload.length == 4 &&
  isValidAppRole (loadUint32Le frame.payload 0) && isApplicationImageValid flash session.metadata

/-- The metadata that SET_ROLE commits. -/
def UpdateSession.withRole (session : UpdateSession) (frame : ProtocolFrame) : BootMetadata :=
  { session.metadata with
    state := bootStateValidApplication
    appRole := loadUint32Le frame.payload 0 }

/-- The end of the END and SET_ROLE branches. -/
def commit (session : UpdateSession) (frame : ProtocolFrame) (metadata : BootMetadata) :
    FlashProg (ProtocolFrame × Continuation) := do
  let (metadata, code) ← appendMetadataRecord metadata
  if code != 0 then return (frame.error, .loop { session with metadata := metadata })
  else return (frame.reply protocolComplete [], .systemReset)

def handleFrame (session : UpdateSession) (frame : ProtocolFrame) : FlashProg (ProtocolFrame × Continuation) := do
  if isHello frame then
    return (frame.reply protocolInfo (infoPayload session.metadata), .loop session)
  else if isBegin frame then handleBegin session frame
  else if isData session frame then handleData session frame
  else if ← Program.view fun flash => endAccepted flash session frame then
    commit session frame session.committed
  else if ← Program.view fun flash => setRoleAccepted flash session frame then
    commit session frame (session.withRole frame)
  else return (frame.error, .loop session)

end Cc1310Firmware.Bootloader
