import Cc1310Firmware.Codec.BigEndian
import Cc1310Firmware.Host.FactoryHex

/-! Intel HEX files of data and upper address records: what read_ihex makes of them, and of a copy with a wrong digit. -/

set_option autoImplicit false

namespace Cc1310Firmware.Host
open HexText

/-! ### Files -/

abbrev RecordData := { payload : List Byte // payload.length < 256 }

/-- A record of type 0, or of type 4 with the upper half of the addresses that follow. -/
inductive HexRecord where
  | data (address : BitVec 16) (payload : RecordData)
  | upper (address value : BitVec 16)

def HexRecord.line : HexRecord → Option (List Char)
  | .data address payload => ihexRecord address.toNat 0 payload.val
  | .upper address value => ihexRecord address.toNat 4 (BigEndian.bytesOf value 2)

/-- The records, closed by one of type 1. -/
def ihexFile (address : BitVec 16) (payload : RecordData) : List HexRecord → Option (List Char)
  | [] => ihexRecord address.toNat 1 payload.val
  | record :: records => do
    let line ← record.line
    let text ← ihexFile address payload records
    return line ++ text

/-- The map of the records; later ones win. -/
def recordMap (upper : Nat) (known : Nat → Option Byte) : List HexRecord → Nat → Option Byte
  | [] => known
  | .data address payload :: records =>
    let start := upper * 65536 + address.toNat
    recordMap upper
      (fun a => if start ≤ a ∧ a < start + payload.val.length then payload.val[a - start]? else known a) records
  | .upper _ value :: records => recordMap value.toNat known records

theorem HexRecord.line_isSome (record : HexRecord) : ∃ line, record.line = some line := by
  cases record with
  | data address payload => exact ihexRecord_short address.isLt (by decide) payload.property
  | upper address value =>
    exact ihexRecord_short address.isLt (by decide) (by rw [BigEndian.length_bytesOf]; decide)

theorem ihexFile_isSome (address : BitVec 16) (payload : RecordData) (records : List HexRecord) :
    ∃ text, ihexFile address payload records = some text := by
  induction records with
  | nil => exact ihexRecord_short address.isLt (by decide) payload.property
  | cons record records ih =>
    obtain ⟨line, written⟩ := record.line_isSome
    obtain ⟨text, file⟩ := ih
    exact ⟨line ++ text, by rw [ihexFile, written, file]; rfl⟩

/-! ### Reading -/

theorem lookup_update (data : HexData) (start : Nat) (payload : List Byte) (address : Nat) :
    (data.update start payload).lookup address =
      if start ≤ address ∧ address < start + payload.length then payload[address - start]? else data.lookup address := by
  induction payload generalizing data start with
  | nil =>
    rw [HexData.update, List.length_nil, if_neg (by omega)]
  | cons byte payload ih =>
    rw [HexData.update, ih, List.length_cons, List.lookup_cons]
    by_cases here : address = start
    · rw [if_neg (by omega), if_pos (by omega), here, beq_self_eq_true, Nat.sub_self]
      rfl
    · rw [beq_false_of_ne here]
      by_cases further : start + 1 ≤ address ∧ address < start + 1 + payload.length
      · have past : address - start = address - (start + 1) + 1 := by omega
        rw [if_pos further, if_pos (by omega), past, List.getElem?_cons_succ]
      · rw [if_neg further, if_neg (by omega)]

theorem fromBytesBig_eq (data : List Byte) : fromBytesBig data = BigEndian.valueOf data := by
  induction data using List.reverseRecOn with
  | nil => rfl
  | append_singleton data byte ih =>
    rw [fromBytesBig] at ih ⊢
    rw [List.foldl_append, ih, BigEndian.valueOf, BigEndian.valueOf, List.reverse_append, List.reverse_singleton,
      List.singleton_append, List.map_cons, Nat.ofDigits_cons, Nat.add_comm]
    rfl

/-- The upper half of the addresses, from the payload of its record. -/
theorem fromBytesBig_bytesOf (value : BitVec 16) :
    fromBytesBig (BigEndian.bytesOf value 2) <<< 16 = value.toNat * 65536 := by
  have whole : value.toNat % 256 ^ 2 = value.toNat := Nat.mod_eq_of_lt value.isLt
  rw [fromBytesBig_eq, BigEndian.valueOf_bytesOf, whole, Nat.shiftLeft_eq]

theorem readIhexLoop_file {address : BitVec 16} {payload : RecordData} {records : List HexRecord} {text : List Char}
    (written : ihexFile address payload records = some text) (number upper : Nat) (data : HexData)
    (rest : List Char) :
    ∃ values, readIhexLoop number (upper * 65536) data (splitlines (text ++ rest)) = .ok values ∧
      ∀ a, values.lookup a = recordMap upper (data.lookup ·) records a := by
  induction records generalizing number upper data text with
  | nil =>
    refine ⟨data, ?_, fun a => rfl⟩
    rw [readIhexLoop_record written, if_neg (by decide), if_neg (by decide), if_pos rfl]
  | cons record records ih =>
    obtain ⟨line, line_, tail⟩ := Option.bind_eq_some_iff.mp written
    obtain ⟨text', file, same⟩ := Option.bind_eq_some_iff.mp tail
    obtain rfl := Option.some.inj same
    rw [List.append_assoc]
    cases record with
    | data address payload =>
      obtain ⟨values, read, map⟩ := ih file (number + 1) upper (data.update (upper * 65536 + address.toNat) payload.val)
      refine ⟨values, ?_, fun a => ?_⟩
      · rw [readIhexLoop_record line_, if_pos rfl, read]
      · rw [map, recordMap]
        exact congrArg (recordMap upper · records a) (funext (lookup_update _ _ _))
    | upper address value =>
      obtain ⟨values, read, map⟩ := ih file (number + 1) value.toNat data
      refine ⟨values, ?_, map⟩
      rw [readIhexLoop_record line_, if_neg (by decide), if_pos rfl, fromBytesBig_bytesOf, read]

/-! ### One wrong digit -/

/-- The lines that ihex_record writes. -/
theorem ihexRecord_eq_some {address recordType : Nat} {payload : List Byte} {line : List Char}
    (written : ihexRecord address recordType payload = some line) :
    ∃ body : List Byte, body.sum = 0 ∧ line = ':' :: HexText.upper (hex body) ++ ['\n'] := by
  unfold ihexRecord at written
  dsimp only at written
  split at written
  case isFalse => cases written
  case isTrue => exact ⟨_, sum_checksum _, (Option.some.inj written).symm⟩

/-- The place of the wrong digit in its line: neither the colon nor the line end is a digit. -/
theorem digit_inside {digits before after : List Char} {c : Char} {n : Nat}
    (line : ':' :: digits ++ ['\n'] = before ++ c :: after) (value : digitValue c = some n) :
    ∃ before' after', before = ':' :: before' ∧ after = after' ++ ['\n'] ∧ digits = before' ++ c :: after' := by
  cases before with
  | nil =>
    obtain ⟨rfl, _⟩ := List.cons.inj line
    cases value
  | cons d before =>
    obtain ⟨rfl, text⟩ := List.cons.inj line
    rcases List.eq_nil_or_concat' after with rfl | ⟨after', e, rfl⟩
    · obtain ⟨_, last⟩ := List.append_inj' text rfl
      obtain ⟨rfl, _⟩ := List.cons.inj last
      cases value
    · have split : digits ++ ['\n'] = (before ++ c :: after') ++ [e] := by rw [List.append_assoc]; exact text
      obtain ⟨digits_, last⟩ := List.append_inj' split rfl
      obtain ⟨rfl, _⟩ := List.cons.inj last
      exact ⟨before, after', rfl, rfl, digits_⟩

/-- A line with a wrong digit has a wrong checksum. -/
theorem readIhexLoop_changed {body : List Byte} {before after : List Char} {c c' : Char} {n n' : Nat}
    (sum : body.sum = 0) (line : ':' :: HexText.upper (hex body) ++ ['\n'] = before ++ c :: after)
    (value : digitValue c = some n) (value' : digitValue c' = some n') (other : n' ≠ n) (number upper : Nat)
    (data : HexData) (rest : List Char) :
    readIhexLoop number upper data (splitlines (before ++ c' :: after ++ rest)) =
      .error (.line number "checksum") := by
  obtain ⟨before, after, rfl, rfl, digits⟩ := digit_inside line value
  obtain ⟨front, byte, byte', back, rfl, read, differs⟩ := fromHex_change digits value value' other
  have whole : ∀ d ∈ ':' :: (before ++ c' :: after), isLineEnd d = false := by
    have old := upper_hex_noLineEnd (front ++ byte :: back)
    rw [digits] at old
    obtain ⟨left, right⟩ := List.forall_mem_append.mp old
    have digit := (writtenDigit_of_value value').1.noLineEnd
    exact List.forall_mem_cons.mpr ⟨by decide, List.forall_mem_append.mpr ⟨left, List.forall_mem_cons.mpr
      ⟨digit, (List.forall_mem_cons.mp right).2⟩⟩⟩
  have wrong : (front ++ byte' :: back).sum ≠ 0 := by
    rw [List.sum_append, List.sum_cons] at sum ⊢
    rw [← sum]
    exact fun same => differs (add_right_cancel (add_left_cancel same))
  have text : ':' :: before ++ c' :: (after ++ ['\n']) ++ rest = ':' :: (before ++ c' :: after) ++
    '\n' :: rest := by simp
  rw [text, splitlines_cons whole, readIhexLoop, List.head?_cons, if_neg (not_not.mpr rfl), List.tail_cons, read]
  exact if_pos wrong

/-! ### Files with a wrong digit -/

theorem readIhexLoop_wrong {address : BitVec 16} {payload : RecordData} {records : List HexRecord}
    {text before after : List Char} {c c' : Char} {n n' : Nat}
    (written : ihexFile address payload records = some text) (place : text = before ++ c :: after)
    (value : digitValue c = some n) (value' : digitValue c' = some n') (other : n' ≠ n) (number upper : Nat)
    (data : HexData) (rest : List Char) : ∃ line,
      readIhexLoop number upper data (splitlines (before ++ c' :: after ++ rest)) =
        .error (.line line "checksum") := by
  induction records generalizing number upper data text before with
  | nil =>
    obtain ⟨body, sum, rfl⟩ := ihexRecord_eq_some written
    exact ⟨number, readIhexLoop_changed sum place value value' other number upper data rest⟩
  | cons record records ih =>
    obtain ⟨line, line_, tail⟩ := Option.bind_eq_some_iff.mp written
    obtain ⟨text', file, same⟩ := Option.bind_eq_some_iff.mp tail
    obtain rfl := Option.some.inj same
    -- the lines before the wrong one are read as they were written
    have further : ∀ before', before = line ++ before' → text' = before' ++ c :: after → ∃ line,
        readIhexLoop number upper data (splitlines (before ++ c' :: after ++ rest)) =
          .error (.line line "checksum") := by
      rintro before' rfl place'
      rw [List.append_assoc line, List.append_assoc line]
      cases record with
      | data address payload =>
        rw [readIhexLoop_record line_, if_pos rfl]
        exact ih file place' (number + 1) upper _
      | upper address value =>
        rw [readIhexLoop_record line_, if_neg (by decide), if_pos rfl]
        exact ih file place' (number + 1) _ data
    rcases List.append_eq_append_iff.mp place with ⟨before', front, place'⟩ | ⟨front, inside, back⟩
    · exact further before' front place'
    cases front with
    | nil => exact further [] (by rw [inside, List.append_nil, List.append_nil]) back.symm
    | cons d front =>
      obtain ⟨rfl, rfl⟩ := List.cons.inj back
      obtain ⟨body, sum, line_⟩ : ∃ body : List Byte, body.sum = 0 ∧
          line = ':' :: HexText.upper (hex body) ++ ['\n'] := by
        cases record with
        | data address payload => exact ihexRecord_eq_some line_
        | upper address value => exact ihexRecord_eq_some line_
      have changed :=
        readIhexLoop_changed sum (line_.symm.trans inside) value value' other number upper data (text' ++ rest)
      refine ⟨number, ?_⟩
      rw [← changed]
      simp

/-- For every sequence of records closed by one of type 1, read_ihex returns their map,
whatever follows them; and with another value for any of their digits it raises a ValueError. -/
theorem ihex_round_trip (address : BitVec 16) (payload : RecordData) (records : List HexRecord) :
    ∃ text, ihexFile address payload records = some text ∧ ∀ rest,
      (∃ values, readIhex (text ++ rest) = .ok values ∧
        ∀ a, values.lookup a = recordMap 0 (fun _ => none) records a) ∧
      ∀ before c after c' n n', text = before ++ c :: after → digitValue c = some n →
        digitValue c' = some n' → n' ≠ n →
        ∃ line, readIhex (before ++ c' :: after ++ rest) = .error (.line line "checksum") := by
  obtain ⟨text, written⟩ := ihexFile_isSome address payload records
  refine ⟨text, written, fun rest => ⟨?_, ?_⟩⟩
  · have read := readIhexLoop_file written 1 0 [] rest
    rwa [Nat.zero_mul] at read
  · intro before c after c' n n' place value value' other
    exact readIhexLoop_wrong written place value value' other 1 0 [] rest

/-- Another address in the first line. -/
theorem ihex_round_trip_digit : ∃ line,
    readIhex ":01900000AAD5\n:00000001FF\n".toList = .error (.line line "checksum") := by
  obtain ⟨text, written, all⟩ := ihex_round_trip 0 ⟨[], by decide⟩ [.data 0x8000 ⟨[0xAA], by decide⟩]
  have text_ : ihexFile 0 ⟨[], by decide⟩ [.data 0x8000 ⟨[0xAA], by decide⟩] =
      some ":01800000AAD5\n:00000001FF\n".toList := by
    decide +kernel
  obtain rfl := Option.some.inj (text_.symm.trans written)
  exact (all []).2 [':', '0', '1'] '8' "00000AAD5\n:00000001FF\n".toList '9' 8 9 rfl rfl rfl (by decide)

end Cc1310Firmware.Host
