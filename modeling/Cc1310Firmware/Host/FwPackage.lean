import Cc1310Firmware.Bootloader.Metadata
import Cc1310Firmware.Host.FwProtocol

/-! The firmware packages, from fw_package.py. A ValueError is `none`. -/

set_option autoImplicit false

namespace Cc1310Firmware.Host
open LittleEndian

def magic : Nat := 0x4B505746
def formatVersion : Nat := 1
def appAddress : Nat := 0x8000
def maxImageSize : Nat := 0x17000
/-- HEADER.size -/
def headerSize : Nat := 32

/-- `zlib.crc32(data) & 0xFFFFFFFF`, the CRC-32 that the bootloader computes too. -/
def crc32 (data : List Byte) : Nat := (Bootloader.calculateCrc32 data).toNat

/-- format_version accepts the version. -/
def isFormattable (version : Nat) : Bool := decide (version ≤ 0x00FFFFFF)

/-- The dictionary that parse returns. -/
structure Package where
  target : Nat
  address : Nat
  size : Nat
  version : Nat
  imageCrc : Nat
  image : List Byte
  deriving DecidableEq, Repr

def parse (package : List Byte) : Option Package :=
  let address := fromBytes (slice package 12 16)
  let size := fromBytes (slice package 16 20)
  let version := fromBytes (slice package 20 24)
  let imageCrc := fromBytes (slice package 24 28)
  let image := package.drop headerSize
  if package.length < headerSize then none
  else if fromBytes (slice package 0 4) ≠ magic ∨ fromBytes (slice package 4 6) ≠ formatVersion ∨
      fromBytes (slice package 6 8) ≠ headerSize then none
  else if crc32 (slice package 0 (headerSize - 4)) ≠ fromBytes (slice package 28 32) then none
  else if address ≠ appAddress ∨ maxImageSize < size ∨ size = 0 then none
  else if ! isFormattable version then none
  else if image.length ≠ size then none
  else if crc32 image ≠ imageCrc then none
  else some ⟨fromBytes (slice package 8 12), address, size, version, imageCrc, image⟩

/-- HEADER.pack; struct refuses a value that its field cannot hold. -/
def headerPack (magic formatVersion headerSize target address size version imageCrc headerCrc : Nat) :
    Option (List Byte) :=
  if magic < 2 ^ 32 ∧ formatVersion < 2 ^ 16 ∧ headerSize < 2 ^ 16 ∧ target < 2 ^ 32 ∧ address < 2 ^ 32 ∧
    size < 2 ^ 32 ∧
      version < 2 ^ 32 ∧ imageCrc < 2 ^ 32 ∧ headerCrc < 2 ^ 32 then
    some (bytesOf (BitVec.ofNat 32 magic) 4 ++ bytesOf (BitVec.ofNat 16 formatVersion) 2 ++
      bytesOf (BitVec.ofNat 16 headerSize) 2 ++ bytesOf (BitVec.ofNat 32 target) 4 ++
        bytesOf (BitVec.ofNat 32 address) 4 ++
      bytesOf (BitVec.ofNat 32 size) 4 ++ bytesOf (BitVec.ofNat 32 version) 4 ++
        bytesOf (BitVec.ofNat 32 imageCrc) 4 ++
      bytesOf (BitVec.ofNat 32 headerCrc) 4)
  else none

/-- `(-length) & 3` -/
def padLength (length : Nat) : Nat := (-(length : Int) % 4).toNat

/-- `b"\xFF" * ((-len(image)) & 3)` behind the image. -/
def padded (image : List Byte) : List Byte := image ++ List.replicate (padLength image.length) 0xFF

/-- data[:-4] -/
def dropTail4 (data : List Byte) : List Byte := data.take (data.length - 4)

def build (image : List Byte) (target version : Nat) : Option (List Byte) := do
  if ! isFormattable version then none
  else
    let image := padded image
    if image = [] ∨ maxImageSize < image.length then none
    else
      let head ← headerPack magic formatVersion headerSize target appAddress image.length version (crc32 image) 0
      let crc ← toBytes4 (crc32 (dropTail4 head))
      return dropTail4 head ++ crc ++ image

end Cc1310Firmware.Host
