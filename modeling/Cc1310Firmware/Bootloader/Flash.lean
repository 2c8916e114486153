import Cc1310Firmware.Codec.LittleEndian
import Cc1310Firmware.Programs.Crash

/-! The flash memory map of the bootloader and the two TI driver calls it makes.

Flash is memory mapped: the bootloader reads it through plain pointers, and
changes it only through FlashSectorErase and FlashProgram. An address is a
natural number; arithmetic that the source does in uint32_t stays in `Word`
until the address is formed.
-/

set_option autoImplicit false

namespace Cc1310Firmware.Bootloader
open LittleEndian CrashProgram

abbrev Word := BitVec 32
abbrev Half := BitVec 16
abbrev Flash := Nat → Byte

def applicationFlashStart : Nat := 0x00008000
def applicationFlashEnd : Nat := 0x0001F000
def metadataPagePrimary : Nat := 0x00006000
def metadataPageSecondary : Nat := 0x00007000
def flashPageSize : Nat := 0x00001000
/-- The CC1310F128 has 128 KiB of flash; its last page is the CCFG. -/
def flashSize : Nat := 0x00020000

def Flash.half (flash : Flash) (address : Nat) : Half :=
  word16 (flash address) (flash (address + 1))

def Flash.word (flash : Flash) (address : Nat) : Word :=
  word32 (flash address) (flash (address + 1)) (flash (address + 2)) (flash (address + 3))

def Flash.bytes (flash : Flash) (address length : Nat) : List Byte :=
  (List.range length).map fun i => flash (address + i)

@[simp] theorem Flash.length_bytes (flash : Flash) (address length : Nat) :
    (flash.bytes address length).length = length := by simp [bytes]

theorem Flash.bytes_congr {f g : Flash} {a b length : Nat}
    (same : ∀ i < length, f (a + i) = g (b + i)) : f.bytes a length = g.bytes b length := by
  apply List.map_congr_left
  intro i member
  exact same i (List.mem_range.mp member)

theorem Flash.getElem_bytes (flash : Flash) (address length i : Nat) (h : i < (flash.bytes address length).length) :
    (flash.bytes address length)[i] = flash (address + i) := by simp [bytes]

/-- The driver calls: FlashProgram(data, address, count) and FlashSectorErase(address). -/
inductive FlashCommand where
  | program (address : Nat) (data : List Byte)
  | sectorErase (address : Nat)
  deriving DecidableEq, Repr

abbrev FlashProg (α : Type) := Program Flash FlashCommand α

def flashProgram (data : List Byte) (address : Nat) : FlashProg Bool := .issue (.program address data)

def flashSectorErase (address : Nat) : FlashProg Bool := .issue (.sectorErase address)

/-- Programming clears bits: the result is the bitwise AND of the old and the new byte. -/
def Flash.programmed (flash : Flash) (address : Nat) (data : List Byte) : Flash := fun a =>
  if h : address ≤ a ∧ a - address < data.length then flash a &&& data[a - address] else flash a

def Flash.erased (flash : Flash) (address : Nat) : Flash := fun a =>
  if address ≤ a ∧ a < address + flashPageSize then 0xFF else flash a

/-- The addresses a command may change. -/
def FlashCommand.Touches : FlashCommand → Nat → Prop
  | .program address data, a => address ≤ a ∧ a < address + data.length
  | .sectorErase address, a => address ≤ a ∧ a < address + flashPageSize

/-- What the command does when it succeeds. -/
def FlashCommand.complete : FlashCommand → Flash → Flash
  | .program address data, flash => flash.programmed address data
  | .sectorErase address, flash => flash.erased address

theorem FlashCommand.complete_of_not_touches {command : FlashCommand} (flash : Flash) {a : Nat}
    (away : ¬ command.Touches a) : command.complete flash a = flash a := by
  cases command with
  | program address data =>
    simp only [complete, Flash.programmed, Touches] at *
    rw [dif_neg (by omega)]
  | sectorErase address =>
    simp only [complete, Flash.erased, Touches] at *
    rw [if_neg away]

theorem Flash.programmed_at {flash : Flash} {address : Nat} {data : List Byte} {i : Nat}
    (h : i < data.length) : flash.programmed address data (address + i) = flash (address + i) &&& data[i] := by
  simp [programmed, h]

theorem Flash.programmed_outside {flash : Flash} {address : Nat} {data : List Byte} {a : Nat}
    (away : a < address ∨ address + data.length ≤ a) : flash.programmed address data a = flash a := by
  simp only [programmed]
  rw [dif_neg (by omega)]

theorem Flash.erased_at {flash : Flash} {address a : Nat} (lo : address ≤ a)
    (hi : a < address + flashPageSize) : flash.erased address a = 0xFF := by
  simp [erased, lo, hi]

end Cc1310Firmware.Bootloader
