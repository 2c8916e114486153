import Cc1310Firmware.Bootloader.UpdatedSlot
import Cc1310Firmware.Host.FactoryHex

/-! The App slot after the factory's programming and after an update. -/

set_option autoImplicit false

namespace Cc1310Firmware.Host
open LittleEndian Bootloader CrashProgram HexText

/-- The bytes of a HEX file that matches, in an erased chip. -/
theorem bytes_programHex {package : List Byte} {info : Package} (parsed : parse package = some info)
    {appHex : List Char} {values : HexData} (read : readIhex appHex = .ok values)
    (matches_ : appHexMatchesPackage appHex info = some ()) :
    (programHex blankFlash values).bytes applicationFlashStart info.image.length = info.image := by
  obtain ⟨_, carries, rfl⟩ := parse_iff.mp parsed
  have address : (loadPackageHeader package).applicationAddress.toNat = applicationFlashStart := by
    rw [carries.applicationAddress]
    rfl
  refine Eq.trans ?_ (appHexMatchesPackage_eq_some matches_ read)
  dsimp only [describe]
  rw [address]
  rfl

theorem appSlot_programHex_iff {package : List Byte} {info : Package} (parsed : parse package = some info)
    {appHex : List Char} {values : HexData} (read : readIhex appHex = .ok values)
    (matches_ : appHexMatchesPackage appHex info = some ()) :
    (programHex blankFlash values).appSlot = slotContents info.image ↔
      ∀ a, applicationFlashStart + info.size ≤ a → a < applicationFlashEnd → values.get a 0xFF = 0xFF := by
  obtain ⟨_, _, _, _, _, size, _, fits⟩ := parse_eq_some parsed
  rw [Flash.appSlot_eq_iff (by rw [size]; exact fits), bytes_programHex parsed read matches_, size]
  exact and_iff_right rfl

/-- For every package and every HEX file that app_hex_matches_package accepts, a completed
update leaves the image and 0xFF, and an erased chip has the same in its slot exactly if the
HEX has nothing but 0xFF behind the image. -/
theorem factory_slot_iff {package : List Byte} {info : Package} (parsed : parse package = some info)
    {appHex : List Char} {values : HexData} (read : readIhex appHex = .ok values)
    (matches_ : appHexMatchesPackage appHex info = some ()) :
    (∀ role s t, (packageUpload parsed role).Completes s t → t.flash.appSlot = slotContents info.image) ∧
    ((programHex blankFlash values).appSlot = slotContents info.image ↔
      ∀ a, applicationFlashStart + info.size ≤ a → a < applicationFlashEnd → values.get a 0xFF = 0xFF) :=
  ⟨fun _ _ _ completes => completes.appSlot, appSlot_programHex_iff parsed read matches_⟩

theorem factory_slot_iff_vector : (programHex blankFlash (HexData.update [] 0x8000 vectorImage)).appSlot =
    slotContents vectorImage := by
  have read : readIhex vectorHex = .ok (HexData.update [] 0x8000 vectorImage) := by decide +kernel
  have matches_ : appHexMatchesPackage vectorHex factoryInfo = some () := by decide +kernel
  refine (factory_slot_iff parse_factoryPackage read matches_).2.mpr ?_
  intro a above _
  have past : vectorImage.length ≤ a - 0x8000 := Nat.le_sub_of_add_le' above
  rw [HexData.get_update, List.getD_eq_getElem?_getD, List.getElem?_eq_none past]
  exact ite_self _

/-- The image, and one byte behind it. -/
def surplusHex : List Char := ":0880000000400020098000008F\n:01900000006F\n:00000001FF\n".toList

theorem readIhex_surplusHex : readIhex surplusHex =
    .ok (HexData.update (HexData.update [] 0x8000 vectorImage) 0x9000 [0]) := by
  decide +kernel

/-- The package is taken for a HEX file that has more in the slot than an update leaves. -/
theorem surplus_accepted : ∃ values s t, readIhex surplusHex = .ok values ∧
    appHexMatchesPackage surplusHex factoryInfo = some () ∧ (packageUpload parse_factoryPackage 1).Completes s t ∧
    (programHex blankFlash values).appSlot ≠ t.flash.appSlot := by
  obtain ⟨first, recorded, append, _⟩ := append_completes_done setDefaultMetadata blankFlash
  obtain ⟨rest, erased, erase, _⟩ := erase_completes_done recorded
  have begin_ : DeviceStep ⟨blankFlash, .updating (.start setDefaultMetadata factoryHeader)⟩ _ _ :=
    begin_completes factoryHeader_valid (show isValidAppRole appRoleRx = true by decide) 2 append erase
  have data := vectorImage_step erased (sealFor (newestRecord blankFlash) setDefaultMetadata) 3
  have accepted :=
    vectorImage_accepted (sealFor (newestRecord blankFlash) setDefaultMetadata) 4 (vectorImage_stored erase)
  obtain ⟨calls, final, commit, _⟩ := append_completes_done (UpdateSession.committed
    ⟨sealFor (newestRecord blankFlash) setDefaultMetadata, factoryHeader, 8, appRoleRx, true⟩)
    (erased.programmed applicationFlashStart vectorImage)
  have ended : Turned (erased.programmed applicationFlashStart vectorImage) _ (.frame (endRequest 4)) calls
      (some (.reply ⟨protocolComplete, 4, []⟩)) final .reset := .frame (.finished accepted commit) rfl
  have sends : (packageUpload parse_factoryPackage 1).Sends (.frame (dataFrame 3 0 vectorImage)) := by
    rintro frame ⟨⟩
    exact ⟨rfl, fun _ => ⟨3, 0, show 0 < vectorImage.length by decide, rfl⟩⟩
  have underway :=
    Upload.Underway.next (.ready (packageUpload_isBegin parse_factoryPackage 2) begin_ rfl rfl rfl) sends data
  have completes : (packageUpload parse_factoryPackage 1).Completes _ ⟨final, .reset⟩ :=
    ⟨underway, _, 4, _, ended.deviceStep, rfl, rfl, rfl⟩
  have matches_ : appHexMatchesPackage surplusHex factoryInfo = some () := by decide +kernel
  refine ⟨_, _, _, readIhex_surplusHex, matches_, completes, ?_⟩
  intro same
  rw [completes.appSlot] at same
  have surplus :=
    (appSlot_programHex_iff parse_factoryPackage readIhex_surplusHex matches_).mp same 0x9000 (by decide) (by decide)
  exact absurd surplus (by decide +kernel)

end Cc1310Firmware.Host
