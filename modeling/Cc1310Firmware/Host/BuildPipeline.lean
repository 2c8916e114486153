import Cc1310Firmware.Host.FactoryHex

/-! The images that build.sh packs: main of ihex_to_bin.py, and what becomes of its output. -/

set_option autoImplicit false

namespace Cc1310Firmware.Host
open Bootloader

/-- main of ihex_to_bin.py behind read_ihex; SystemExit is `none`. -/
def extractImage (values : HexData) (base stop : Nat) : Option (List Byte) :=
  let addresses := (values.map Prod.fst).filter fun address => decide (base ≤ address) && decide (address < stop)
  match addresses.min?, addresses.max? with
  | some first, some last =>
    if first ≠ base then none else some ((List.range (last + 1 - base)).map fun i => values.get (base + i) 0xFF)
  | _, _ => none

/-- The output of ihex_to_bin.py; an exception is `none`. -/
def ihexToBin (text : List Char) (base stop : Nat) : Option (List Byte) := do
  extractImage (← (readIhex text).toOption) base stop

/-- The addresses of a dictionary. -/
def HexData.Has (data : HexData) (address : Nat) : Prop := ∃ byte, (address, byte) ∈ data

/-- The last address with data, and the bytes up to it. -/
structure Extracted (values : HexData) (base stop last : Nat) (image : List Byte) : Prop where
  first : base ≤ last
  inside : last < stop
  highest : ∀ address, values.Has address → base ≤ address → address < stop → address ≤ last
  image : image = (List.range (last + 1 - base)).map fun i => values.get (base + i) 0xFF

theorem mem_addresses {values : HexData} {base stop address : Nat} :
    address ∈ (values.map Prod.fst).filter (fun address => decide (base ≤ address) && decide (address < stop)) ↔
      values.Has address ∧ base ≤ address ∧ address < stop := by
  rw [List.mem_filter, List.mem_map, Bool.and_eq_true, decide_eq_true_iff, decide_eq_true_iff]
  apply and_congr_left'
  constructor
  · rintro ⟨⟨_, byte⟩, member, rfl⟩
    exact ⟨byte, member⟩
  · rintro ⟨byte, member⟩
    exact ⟨(address, byte), member, rfl⟩

theorem extractImage_of_has {values : HexData} {base stop : Nat} (starts : values.Has base) (some_ : base < stop) :
    ∃ last image, extractImage values base stop = some image ∧ Extracted values base stop last image := by
  have start := mem_addresses.mpr ⟨starts, Nat.le_refl base, some_⟩
  have first : ((values.map Prod.fst).filter fun address => decide (base ≤ address) && decide
      (address < stop)).min? = some base :=
    List.min?_eq_some_iff.mpr ⟨start, fun address member => (mem_addresses.mp member).2.1⟩
  obtain ⟨last, highest⟩ := Option.isSome_iff_exists.mp (List.isSome_max?_of_mem start)
  obtain ⟨member, above⟩ := List.max?_eq_some_iff.mp highest
  obtain ⟨_, lo, hi⟩ := mem_addresses.mp member
  refine ⟨last, (List.range (last + 1 - base)).map fun i => values.get (base + i) 0xFF, ?_, lo, hi,
    fun address has lo' hi' => above address (mem_addresses.mpr ⟨has, lo', hi'⟩), rfl⟩
  unfold extractImage
  dsimp only
  rw [first, highest]
  exact if_neg (not_not.mpr rfl)

theorem build_eq_some {image package : List Byte} {target version : Nat}
    (built : build image target version = some package) :
    target < 2 ^ 32 ∧ version ≤ 0x00FFFFFF ∧ padded image ≠ [] ∧ (padded image).length ≤ maxImageSize := by
  unfold build at built
  split at built
  case isTrue => cases built
  case isFalse formattable =>
    dsimp only at built
    split at built
    case isTrue => cases built
    case isFalse some_ =>
      obtain ⟨nonempty, fits⟩ := not_or.mp some_
      obtain ⟨head, packed, _⟩ := Option.bind_eq_some_iff.mp built
      unfold headerPack at packed
      split at packed
      case isFalse => cases packed
      case isTrue values =>
        refine ⟨values.2.2.2.1, ?_, nonempty, Nat.le_of_not_lt fits⟩
        simpa [isFormattable] using formattable

/-- Behind its last byte the slot has no data, so the padding is what the flash has there. -/
theorem Extracted.padded_eq {values : HexData} {last : Nat} {image : List Byte}
    (extracted : Extracted values appAddress (appAddress + maxImageSize) last image) :
    (List.range (padded image).length).map (fun i => values.get (appAddress + i) 0xFF) = padded image := by
  obtain ⟨first, inside, highest, image_⟩ := extracted
  have length : image.length = last + 1 - appAddress := by rw [image_, List.length_map, List.length_range]
  have blank : ∀ i, i < padLength image.length → values.get (appAddress + (image.length + i)) 0xFF = 0xFF := by
    intro i inside'
    refine @HexData.get_of_outside values (· ≠ appAddress + (image.length + i)) ?_ _ (not_not.mpr rfl) 0xFF
    rintro ⟨address, byte⟩ member rfl
    -- the slot ends at a word
    unfold padLength appAddress maxImageSize at *
    have below := highest _ ⟨byte, member⟩ (Nat.le_add_right _ _) (by omega)
    omega
  have front : (List.range image.length).map (fun i => values.get (appAddress + i) 0xFF) = image := by
    rw [length]
    exact image_.symm
  have tail : (List.range (padLength image.length)).map (fun i => values.get (appAddress + (image.length + i)) 0xFF) =
      List.replicate (padLength image.length) 0xFF := by
    rw [List.eq_replicate_iff, List.length_map, List.length_range, List.forall_mem_map]
    exact ⟨rfl, fun i member => blank i (List.mem_range.mp member)⟩
  rw [padded, List.length_append, List.length_replicate, List.range_add, List.map_append, List.map_map, front]
  exact congrArg (image ++ ·) tail

/-- For every HEX file whose data in the App slot starts at 0x8000: the image is extracted,
build packs it for every target and version that its fields hold, and what parse makes of
a package of it matches the HEX file. -/
theorem pipeline_consistent {text : List Char} {values : HexData} (read : readIhex text = .ok values)
    (starts : values.Has 0x8000) : ∃ image, ihexToBin text 0x8000 0x1F000 = some image ∧
      (∀ target version, (build image target version).isSome ↔ target < 2 ^ 32 ∧ version ≤ 0x00FFFFFF) ∧
      ∀ target version package, build image target version = some package →
        ∃ info, parse package = some info ∧ info.image = padded image ∧
          appHexMatchesPackage text info = some () := by
  obtain ⟨last, image, extract, extracted⟩ := extractImage_of_has starts (show 0x8000 < 0x1F000 by decide)
  have whole := extracted.padded_eq
  have length : image.length = last + 1 - 0x8000 := by rw [extracted.image, List.length_map, List.length_range]
  have inside := extracted.inside
  have first := extracted.first
  have nonempty : image ≠ [] := by
    rintro rfl
    rw [List.length_nil] at length
    omega
  have fits : (image.length + 3) / 4 * 4 ≤ maxImageSize := by
    unfold maxImageSize
    omega
  refine ⟨image, ?_, ?_, ?_⟩
  · rw [ihexToBin, read]
    exact extract
  · intro target version
    constructor
    · intro built
      obtain ⟨package, built⟩ := Option.isSome_iff_exists.mp built
      obtain ⟨target32, reserved, _⟩ := build_eq_some built
      exact ⟨target32, reserved⟩
    · rintro ⟨target32, reserved⟩
      rw [build_eq nonempty fits target32 reserved]
      rfl
  · intro target version package built
    obtain ⟨target32, reserved, some_, _⟩ := build_eq_some built
    rw [build_eq nonempty fits target32 reserved] at built
    obtain rfl := Option.some.inj built
    have carries := builtHeader_carries target some_ (by rw [length_padded]; exact fits) reserved
    refine ⟨_, (parse_bytes _ _ _).mpr ⟨carries, rfl⟩, rfl, ?_⟩
    unfold appHexMatchesPackage
    rw [read]
    exact if_neg (not_not.mpr whole)

/-- A HEX file in two records, the later one first, with a gap between them. -/
theorem pipeline_consistent_gap : ∃ image, ihexToBin ":018005001268
:01800000AAD5
:00000001FF
".toList 0x8000 0x1F000 = some image ∧
    ∀ target version package, build image target version = some package →
      ∃ info, parse package = some info ∧ appHexMatchesPackage ":018005001268
:01800000AAD5
:00000001FF
".toList info = some () := by
  have read : readIhex ":018005001268
:01800000AAD5
:00000001FF
".toList = .ok [(0x8000, 0xAA), (0x8005, 0x12)] := by
    decide +kernel
  obtain ⟨image, extract, _, accepted⟩ := pipeline_consistent read ⟨0xAA, List.mem_cons_self⟩
  refine ⟨image, extract, fun target version package built => ?_⟩
  obtain ⟨info, parsed, _, matches_⟩ := accepted target version package built
  exact ⟨info, parsed, matches_⟩

end Cc1310Firmware.Host
