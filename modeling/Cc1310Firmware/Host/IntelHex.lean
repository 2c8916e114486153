import Cc1310Firmware.Codec.HexText
import Cc1310Firmware.Host.FwPackage
import Mathlib.Tactic.Ring

/-! Intel HEX files: ihex_record of fw_metadata_hex.py writes a line, read_ihex of ihex_to_bin.py reads a file. -/

set_option autoImplicit false

namespace Cc1310Firmware.Host
open LittleEndian HexText

/-- ihex_record; bytes refuses a value that is no byte. -/
def ihexRecord (address recordType : Nat) (data : List Byte) : Option (List Char) :=
  let body := [BitVec.ofNat 8 data.length, BitVec.ofNat 8 (address >>> 8), BitVec.ofNat 8 (address &&& 0xFF),
    BitVec.ofNat 8 recordType] ++ data
  if data.length < 256 ∧ address >>> 8 < 256 ∧ recordType < 256 then
    some (':' :: upper (hex (body ++ [-body.sum])) ++ ['\n'])
  else none

inductive HexError where
  /-- ValueError("line %u ...") -/
  | line (number : Nat) (problem : String)
  /-- The ValueError of bytes.fromhex. -/
  | fromHex
  | indexError
  deriving DecidableEq, Repr

/-- A dictionary from addresses to bytes, the last update in front. -/
abbrev HexData := List (Nat × Byte)

/-- data.get(address, default) -/
def HexData.get (data : HexData) (address : Nat) (default : Byte) : Byte := (data.lookup address).getD default

/-- data.update with the payload from `address` on. -/
def HexData.update (data : HexData) (address : Nat) : List Byte → HexData
  | [] => data
  | byte :: payload => HexData.update ((address, byte) :: data) (address + 1) payload

/-- int.from_bytes(data, "big") -/
def fromBytesBig (data : List Byte) : Nat := data.foldl (fun value byte => 256 * value + byte.toNat) 0

/-- The loop of read_ihex; the sum of the bytes is taken modulo 256. -/
def readIhexLoop (number upper : Nat) (data : HexData) : List (List Char) → Except HexError HexData
  | [] => .ok data
  | line :: rest =>
    if line.head? ≠ some ':' then .error (.line number "is not Intel HEX")
    else
      match fromHex line.tail with
      | none => .error .fromHex
      | some record =>
        if record.sum ≠ 0 then .error (.line number "checksum")
        else
          match record with
          | length :: high :: low :: kind :: tail =>
            -- record[4:-1]
            let payload := tail.dropLast
            if length.toNat ≠ payload.length then .error (.line number "length")
            else if kind = 0 then
              readIhexLoop (number + 1) upper (data.update (upper + (high.toNat <<< 8 ||| low.toNat)) payload) rest
            else if kind = 4 then readIhexLoop (number + 1) (fromBytesBig payload <<< 16) data rest
            else if kind = 1 then .ok data
            else readIhexLoop (number + 1) upper data rest
          | _ => .error .indexError

def readIhex (text : List Char) : Except HexError HexData := readIhexLoop 1 0 [] (splitlines text)

/-! ### Dictionaries -/

theorem HexData.get_cons (entry : Nat × Byte) (data : HexData) (address : Nat) (default : Byte) :
    HexData.get (entry :: data) address default =
      if address = entry.1 then entry.2 else data.get address default := by
  unfold HexData.get
  rw [List.lookup_cons]
  by_cases here : address = entry.1
  · rw [if_pos here, here, beq_self_eq_true]
    rfl
  · rw [if_neg here, beq_false_of_ne here]

theorem HexData.get_of_outside {data : HexData} {inside : Nat → Prop} (all : ∀ entry ∈ data, inside entry.1)
    {address : Nat} (outside : ¬ inside address) (default : Byte) : data.get address default = default := by
  induction data with
  | nil => rfl
  | cons entry data ih =>
    obtain ⟨here, others⟩ := List.forall_mem_cons.mp all
    have away : address ≠ entry.1 := by
      rintro rfl
      exact outside here
    rw [HexData.get_cons, if_neg away, ih others]

theorem HexData.get_update (data : HexData) (start : Nat) (payload : List Byte) (address : Nat) (default : Byte) :
    (data.update start payload).get address default =
      if start ≤ address then payload.getD (address - start)
        (data.get address default) else data.get address default := by
  induction payload generalizing data start with
  | nil => rw [HexData.update, List.getD_nil, ite_self]
  | cons byte payload ih =>
    rw [HexData.update, ih, HexData.get_cons]
    dsimp only
    by_cases behind : start ≤ address
    · rw [if_pos behind]
      by_cases here : address = start
      · rw [if_neg (by omega), if_pos here, here, Nat.sub_self, List.getD_cons_zero]
      · have further : address - start = address - (start + 1) + 1 := by omega
        rw [if_pos (by omega), if_neg here, further, List.getD_cons_succ]
    · rw [if_neg (by omega), if_neg behind, if_neg (by omega)]

/-! ### Records that were written -/

theorem shift_or {address : Nat} : (address >>> 8) <<< 8 ||| (address &&& 0xFF) = address := by
  have low : address &&& 0xFF = address % 2 ^ 8 := Nat.and_two_pow_sub_one_eq_mod address 8
  rw [low, ← Nat.shiftLeft_add_eq_or_of_lt (Nat.mod_lt _ (by decide)), Nat.shiftRight_eq_div_pow, Nat.shiftLeft_eq]
  exact Nat.div_add_mod' address (2 ^ 8)

/-- Bytes and their checksum. -/
theorem sum_checksum (body : List Byte) : (body ++ [-body.sum]).sum = 0 := by
  rw [List.sum_append, List.sum_singleton]
  exact add_neg_cancel _

/-- read_ihex at a line with the right length and checksum. -/
theorem readIhexLoop_line {length high low kind checksum : Byte} {payload : List Byte}
    (sum : ([length, high, low, kind] ++ payload ++ [checksum]).sum = 0) (same : length.toNat = payload.length)
    (number upper : Nat) (data : HexData) (rest : List (List Char)) :
    readIhexLoop number upper data ((':' ::
      HexText.upper (hex ([length, high, low, kind] ++ payload ++ [checksum]))) :: rest) =
      if kind = 0 then readIhexLoop (number + 1) upper
        (data.update (upper + (high.toNat <<< 8 ||| low.toNat)) payload) rest
      else if kind = 4 then readIhexLoop (number + 1) (fromBytesBig payload <<< 16) data rest
      else if kind = 1 then .ok data
      else readIhexLoop (number + 1) upper data rest := by
  have whole : ¬ length.toNat ≠ (payload ++ [checksum]).dropLast.length := by
    rw [List.dropLast_concat]
    exact not_not.mpr same
  conv_lhs => unfold readIhexLoop
  rw [List.head?_cons, if_neg (not_not.mpr rfl), List.tail_cons, fromHex_upper_hex]
  dsimp only
  rw [if_neg (not_not.mpr sum)]
  simp only [List.cons_append, List.nil_append]
  rw [if_neg whole, List.dropLast_concat]

theorem ofNat_eq_iff {value : Nat} (known : value < 256) {kind : Nat} (known' : kind < 256) :
    BitVec.ofNat 8 value = BitVec.ofNat 8 kind ↔ value = kind := by
  rw [← BitVec.toNat_inj, BitVec.toNat_ofNat, BitVec.toNat_ofNat, Nat.mod_eq_of_lt known, Nat.mod_eq_of_lt known']

/-- read_ihex at a line that ihex_record has written. -/
theorem readIhexLoop_record {address recordType : Nat} {payload : List Byte} {line : List Char}
    (written : ihexRecord address recordType payload = some line) (number upper : Nat) (data : HexData)
    (rest : List Char) :
    readIhexLoop number upper data (splitlines (line ++ rest)) =
      if recordType = 0 then readIhexLoop (number + 1) upper (data.update (upper + address) payload) (splitlines rest)
      else if recordType = 4 then readIhexLoop (number + 1) (fromBytesBig payload <<< 16) data (splitlines rest)
      else if recordType = 1 then .ok data
      else readIhexLoop (number + 1) upper data (splitlines rest) := by
  unfold ihexRecord at written
  dsimp only at written
  split at written
  case isFalse => cases written
  case isTrue fits =>
    obtain ⟨short, high, known⟩ := fits
    obtain rfl := Option.some.inj written
    have length : (BitVec.ofNat 8 payload.length).toNat = payload.length := Nat.mod_eq_of_lt short
    have high' : (BitVec.ofNat 8 (address >>> 8)).toNat = address >>> 8 := Nat.mod_eq_of_lt high
    have low : (BitVec.ofNat 8 (address &&& 0xFF)).toNat = address &&& 0xFF :=
      Nat.mod_eq_of_lt (Nat.lt_of_le_of_lt Nat.and_le_right (by decide))
    have noLineEnd : ∀ c ∈ ':' :: HexText.upper (hex ([BitVec.ofNat 8 payload.length, BitVec.ofNat 8 (address >>> 8),
        BitVec.ofNat 8 (address &&& 0xFF), BitVec.ofNat 8 recordType] ++ payload ++
          [-([BitVec.ofNat 8 payload.length,
        BitVec.ofNat 8 (address >>> 8), BitVec.ofNat 8 (address &&& 0xFF), BitVec.ofNat 8 recordType] ++
          payload).sum])),
        isLineEnd c = false :=
      List.forall_mem_cons.mpr ⟨by decide, upper_hex_noLineEnd _⟩
    have data_ : BitVec.ofNat 8 recordType = 0 ↔ recordType = 0 := ofNat_eq_iff known (by decide)
    have upper_ : BitVec.ofNat 8 recordType = 4 ↔ recordType = 4 := ofNat_eq_iff known (by decide)
    have end_ : BitVec.ofNat 8 recordType = 1 ↔ recordType = 1 := ofNat_eq_iff known (by decide)
    rw [List.append_assoc, List.singleton_append, splitlines_cons noLineEnd,
      readIhexLoop_line (sum_checksum _) length, high', low, shift_or]
    simp only [data_, upper_, end_]

end Cc1310Firmware.Host
