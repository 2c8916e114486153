import Cc1310Firmware.Bootloader.DeviceJournal
import Cc1310Firmware.Bootloader.Register
import Cc1310Firmware.Programs.Interleave

/-! A confirmation and an update request on one journal.

Each is a read of the journal followed by an append that reads it again. One
after the other they both take effect. The bootloader has no lock that keeps
them apart: while one is between its reads and its last program call, the other
works from the same state.
-/

set_option autoImplicit false

namespace Cc1310Firmware.Bootloader
open CrashProgram LabelledRun TwoPageLog

/-- The slot whose record a call begins to program. -/
def begunSlot (c : FlashCall) : Option Nat :=
  match c.command with
  | .program address _ => if c.command.isRecordBody then some address else none
  | .sectorErase _ => none

/-- The slots that the calls program, in order. -/
def programmedSlots (calls : List FlashCall) : List Nat := calls.filterMap begunSlot

theorem begunSlot_isSome (c : FlashCall) : (begunSlot c).isSome = c.command.isRecordBody := by
  unfold begunSlot
  cases c.command with
  | sectorErase => rfl
  | program address data => cases FlashCommand.isRecordBody (.program address data) <;> rfl

theorem length_programmedSlots (calls : List FlashCall) :
    (programmedSlots calls).length = recordPrograms calls := by
  unfold programmedSlots recordPrograms
  rw [List.length_filterMap_eq_countP]
  congr 1
  funext c
  exact begunSlot_isSome c

section
variable {k n : Nat} {flash flash' g : Flash} {value : Option BootMetadata} {m m' : BootMetadata}
  {calls : List FlashCall}

theorem Written.programmedSlots_eq {side : Side} {index : Nat} {r : Result Int}
    (written : Written flash m side index calls r flash') (inside : index < recordsPerPage) :
    programmedSlots calls = [slotAddress side index] := by
  obtain ⟨first, member, _, ⟨data, length, command⟩, _⟩ := written.programs
  have slot := slot_below_application side inside
  have body : begunSlot first = some (slotAddress side index) := by
    have below : slotAddress side index < applicationFlashStart := by
      simp only [sizeofBootMetadata] at slot
      omega
    unfold begunSlot
    rw [command]
    simp [FlashCommand.isRecordBody, length, below]
  have one : (programmedSlots calls).length = 1 := by rw [length_programmedSlots, written.count]
  obtain ⟨slot', same⟩ := List.length_eq_one_iff.mp one
  have here : slotAddress side index ∈ programmedSlots calls := List.mem_filterMap.mpr ⟨first, member, body⟩
  rw [same, List.mem_singleton] at here
  rw [same, here]

/-- A record that was stored in this slot of `g` is the newest one. -/
structure StoredAt (g : Flash) (calls : List FlashCall) (flash' : Flash) (side : Side) (index : Nat) : Prop where
  inside : index < recordsPerPage
  blank : cells g side index = .blank
  slots : programmedSlots calls = [slotAddress side index]
  newest : findNewestMetadataRecord flash' = some (slotAddress side index)
  written : cells flash' side index ≠ .blank

/-- The journal in which an append looks for its slot: as it was, or with the other page erased. -/
def Rotated (flash g : Flash) : Prop :=
  g = flash ∨ ∃ page, ErasesOtherPage ⟨flash, .sectorErase page, .done⟩ page ∧ g = flash.erased page

/-- The writing half of an append. -/
theorem write_storedAt {side : Side} {index : Nat} {base : BitVec (31 + 1)}
    {current : Option ((Side × Nat) × BootMetadata)}
    (tracks : Tracks serial recordsPerPage (cells g) base n current) (same : current.map Prod.snd = value)
    (room : n + 1 < 2 ^ 31) (inside : index < recordsPerPage) (blank : cells g side index = .blank)
    (before : ∀ j < index, cells g side j ≠ .blank) :
    Ensures FlashStep (do return (sealFor value m, ← writeRecord (sealFor value m) (pageAddress side) index)) g
      fun calls r flash' => ∀ m', r = .returned (m', 0) → StoredAt g calls flash' side index := by
  have sealed : (sealFor value m).Sealed := sealRecord_sealed _ m
  rw [ensures_bind]
  refine (writeRecord_written sealed inside blank).mono ?_
  intro calls r flash' written
  cases r with
  | cut =>
    intro m' ended
    cases ended
  | returned code =>
    rw [Result.andThen_returned, ensures_pure, List.append_nil]
    intro m' ended
    have zero : code = 0 := congrArg Prod.snd (Result.returned.inj ended)
    subst zero
    obtain ⟨base', n', current', _, tracks', _, here⟩ :=
      written.register tracks inside blank before (sealFor_follows same) room
    have names := findNewestMetadataRecord_names flash'
    rw [tracks'.newest_eq, here rfl] at names
    refine ⟨inside, blank, written.programmedSlots_eq inside, names.1, ?_⟩
    rw [written.stored rfl]
    intro blank'
    cases blank'

/-- Where an append that returns 0 has put its record. -/
theorem append_storedAt (holds : Holds k flash value) (room : k + 1 < 2 ^ 31) :
    Ensures FlashStep (appendMetadataRecord m) flash fun calls r flash' =>
      ∀ m', r = .returned (m', 0) → ∃ g side index, Rotated flash g ∧ StoredAt g calls flash' side index := by
  have newest := holds.newestRecord_eq
  have sequence : (findNewestMetadataRecord flash).map (fun record => (loadRecord flash record).sequenceNumber) =
      value.map (·.sequenceNumber) := by
    rw [← newest, newestRecord, Option.map_map]; rfl
  obtain ⟨base, n, current, le, tracks, same⟩ := holds
  have room' : n + 1 < 2 ^ 31 := by omega
  unfold appendMetadataRecord
  simp only [ensures_view_bind, sequence]
  cases primary : findFirstErasedRecord flash metadataPagePrimary with
  | some index =>
    obtain ⟨inside, blank, before⟩ := findFirstErasedRecord_some .first primary
    refine (write_storedAt (m := m) tracks same room' inside blank before).mono ?_
    intro calls r flash' stored m' ended
    exact ⟨flash, .first, index, .inl rfl, stored m' ended⟩
  | none =>
    simp only [ensures_view_bind]
    cases secondary : findFirstErasedRecord flash metadataPageSecondary with
    | some index =>
      obtain ⟨inside, blank, before⟩ := findFirstErasedRecord_some .second secondary
      refine (write_storedAt (m := m) tracks same room' inside blank before).mono ?_
      intro calls r flash' stored m' ended
      exact ⟨flash, .second, index, .inl rfl, stored m' ended⟩
    | none =>
      obtain ⟨side, page, away, other⟩ := rotationPage_away tracks
      rw [page, flashSectorErase, ensures_bind, ensures_issue]
      refine ⟨fun g step => ?_, fun g step => ?_, fun g step => ?_⟩
      · -- the other page is erased, and its first slot taken
        have erased : g = flash.erased (pageAddress side) := by cases step; rfl
        have blank : cells g side 0 = .blank := by rw [erased]; exact cells_of_erased (by decide)
        refine (write_storedAt (m := m) (step.erase_register tracks away) same room' (by decide) blank
          (by simp)).mono ?_
        intro calls r flash' stored m' ended
        have here := stored m' ended
        exact ⟨g, side, 0, .inr ⟨_, other .done, erased⟩,
          ⟨here.inside, here.blank, here.slots, here.newest, here.written⟩⟩
      · simp
      · simp

/-- Two appends that both return 0, one after the other, take different slots. -/
theorem programmedSlots_nodup {calls' : List FlashCall} {g' : Flash} {side side' : Side} {index index' : Nat}
    {flash'' : Flash} (first : StoredAt g calls flash' side index) (rotated : Rotated flash' g')
    (second : StoredAt g' calls' flash'' side' index') : (programmedSlots (calls ++ calls')).Nodup := by
  have kept : cells g' side index ≠ .blank := by
    rcases rotated with rfl | ⟨page, ⟨page_, other⟩, rfl⟩
    · exact first.written
    · -- the newest record is in the first slot, and its page is not the one erased
      have away := other _ first.newest
      have same : cells (flash'.erased page) side index = cells flash' side index := by
        apply cells_congr
        intro i hi
        have slot := slot_in_page side first.inside hi
        have start := slot_in_page side first.inside (show 0 < sizeofBootMetadata by decide)
        rw [Nat.add_zero] at start
        have outside : ¬ (page ≤ slotAddress side index + i ∧
            slotAddress side index + i < page + flashPageSize) := by
          intro within
          apply away
          rcases page_ with rfl | rfl <;> cases side <;>
            simp only [pageAddress, metadataPagePrimary, metadataPageSecondary, flashPageSize] at * <;> omega
        exact if_neg outside
      rw [same]
      exact first.written
  have ne : slotAddress side index ≠ slotAddress side' index' := by
    intro same
    apply kept
    have blank := second.blank
    rw [cells_blank] at blank ⊢
    rw [same]
    exact blank
  unfold programmedSlots at *
  rw [List.filterMap_append, show calls.filterMap begunSlot = _ from first.slots,
    show calls'.filterMap begunSlot = _ from second.slots]
  simpa using ne

/-- An append that returns 0: the record is stored, and where. -/
theorem append_stored (holds : Holds k flash (newestRecord flash)) (room : k + 1 < 2 ^ 31)
    (append : Exec FlashStep (appendMetadataRecord m) flash calls (.returned (m', 0)) flash') :
    newestRecord flash' = some (sealFor (newestRecord flash) m) ∧ Holds (k + 1) flash' (newestRecord flash') ∧
    ∃ g side index, Rotated flash g ∧ StoredAt g calls flash' side index := by
  have few := recordPrograms_append_le holds append
  have turn_ := appendTurn holds (by omega) append
  exact ⟨turn_.stored m' rfl, turn_.holds.mono (by omega), append_storedAt holds room _ _ _ append m' rfl⟩

theorem confirm_append {bootAttemptId : Word}
    (exec : Exec FlashStep (confirmApplicationBoot bootAttemptId) flash calls (.returned 0) flash') :
    ∃ old m', newestRecord flash = some old ∧
      Exec FlashStep (appendMetadataRecord (old.confirmed bootAttemptId)) flash calls (.returned (m', 0)) flash' := by
  rcases exec_confirmApplicationBoot.mp exec with ⟨_, _, refused, _⟩ | ⟨record, result, accepted, append, returned⟩
  · cases refused
  · obtain ⟨⟨m', code⟩, rfl, zero⟩ := Result.map_eq_returned.mp returned.symm
    cases zero
    obtain ⟨old, newest, guard⟩ := Option.bind_eq_some_iff.mp accepted
    split at guard
    · cases guard
    · cases guard
      exact ⟨old, m', newest, append⟩

theorem request_append (exec : Exec FlashStep requestFirmwareUpdate flash calls (.returned 0) flash') :
    ∃ m', Exec FlashStep (appendMetadataRecord (updateRequest flash)) flash calls (.returned (m', 0)) flash' := by
  obtain ⟨result, append, returned⟩ := exec_requestFirmwareUpdate.mp exec
  obtain ⟨⟨m', code⟩, rfl, zero⟩ := Result.map_eq_returned.mp returned.symm
  cases zero
  exact ⟨m', append⟩

end

/-- The count after one confirmation. -/
def decremented (count : Word) : Word := if count != 0 then count - 1 else count

/-- Both calls took effect on the newest record, and no slot was programmed twice. -/
structure BothStored (flash : Flash) (bootAttemptId : Word) (calls : List FlashCall) (flash' : Flash) : Prop where
  newest : ∃ record, newestRecord flash' = some record ∧ record.state = bootStateUpdateRequested ∧
    record.confirmedBootAttemptId = bootAttemptId ∧
    record.unconfirmedBootCount = decremented (bootMetadata flash).unconfirmedBootCount
  slots : (programmedSlots calls).Nodup

section
variable {k : Nat} {flash flash' t : Flash} {bootAttemptId : Word} {first second : List FlashCall}

theorem both_of_confirm_first (holds : Holds k flash (newestRecord flash)) (room : k + 2 < 2 ^ 31)
    (confirm : Exec FlashStep (confirmApplicationBoot bootAttemptId) flash first (.returned 0) t)
    (request : Exec FlashStep requestFirmwareUpdate t second (.returned 0) flash') :
    BothStored flash bootAttemptId (first ++ second) flash' := by
  obtain ⟨old, m', newest, append⟩ := confirm_append confirm
  obtain ⟨confirmed, holds', g, side, index, _, stored⟩ := append_stored holds (by omega) append
  obtain ⟨m'', append'⟩ := request_append request
  obtain ⟨requested, _, g', side', index', rotated, stored'⟩ := append_stored holds' room append'
  have before : bootMetadata flash = old := by rw [bootMetadata, newest]; rfl
  have between : bootMetadata t = sealFor (newestRecord flash) (old.confirmed bootAttemptId) := by
    rw [bootMetadata, confirmed]; rfl
  have contents := sealRecord_contents ((newestRecord flash).map (·.sequenceNumber)) (old.confirmed bootAttemptId)
  refine ⟨⟨_, requested, rfl, ?_, ?_⟩, programmedSlots_nodup stored rotated stored'⟩
  · change (bootMetadata t).confirmedBootAttemptId = _
    rw [between]
    apply contents.confirmedBootAttemptId.trans
    rw [confirmed_eq]
  · change (bootMetadata t).unconfirmedBootCount = _
    rw [between, before]
    apply contents.unconfirmedBootCount.trans
    rw [confirmed_eq]
    rfl

theorem both_of_request_first (holds : Holds k flash (newestRecord flash)) (room : k + 2 < 2 ^ 31)
    (request : Exec FlashStep requestFirmwareUpdate flash first (.returned 0) t)
    (confirm : Exec FlashStep (confirmApplicationBoot bootAttemptId) t second (.returned 0) flash') :
    BothStored flash bootAttemptId (first ++ second) flash' := by
  obtain ⟨m', append⟩ := request_append request
  obtain ⟨requested, holds', g, side, index, _, stored⟩ := append_stored holds (by omega) append
  obtain ⟨old, m'', newest, append'⟩ := confirm_append confirm
  obtain ⟨confirmed, _, g', side', index', rotated, stored'⟩ := append_stored holds' room append'
  have same : old = sealFor (newestRecord flash) (updateRequest flash) :=
    Option.some.inj (newest.symm.trans requested)
  have contents := sealRecord_contents ((newestRecord t).map (·.sequenceNumber)) (old.confirmed bootAttemptId)
  refine ⟨⟨_, confirmed, ?_, ?_, ?_⟩, programmedSlots_nodup stored rotated stored'⟩
  · apply contents.state.trans
    rw [confirmed_eq, same]
    rfl
  · apply contents.confirmedBootAttemptId.trans
    rw [confirmed_eq]
  · apply contents.unconfirmedBootCount.trans
    rw [confirmed_eq, same]
    rfl

end

/-- From every journal that fewer than 2^31 - 2 appends can lead to: if the calls do not overlap
and both return 0, both took effect. -/
theorem transactions_serial {start flash flash' : Flash} {history : List AppendTransition} {bootAttemptId : Word}
    {turns : List Turn} {calls : List FlashCall} (journal : ErasedJournal start ∨ FactoryJournal start)
    (run : Run AppendStep start history flash) (few : history.length + 2 < 2 ^ 31)
    (both : Interleaved FlashStep (confirmApplicationBoot bootAttemptId) requestFirmwareUpdate flash turns calls 0 0
      flash')
    (order : Serial turns) : BothStored flash bootAttemptId calls flash' := by
  have holds := holds_of_run journal run (by omega)
  obtain ⟨t, first, second, rfl, ⟨confirm, request⟩ | ⟨request, confirm⟩⟩ := both.serial order
  · exact both_of_confirm_first holds few confirm request
  · exact both_of_request_first holds few request confirm

/-! ## One boot attempt, to be confirmed -/

def attemptedMetadata : BootMetadata :=
  { setDefaultMetadata with state := bootStateValidApplication, unconfirmedBootCount := 1, bootAttemptId := 1 }

def attemptedRecord : BootMetadata := sealFor none attemptedMetadata

def attemptedFlash : Flash := writeFlash blankFlash attemptedRecord .first 0

def attempt : Append where
  metadata := attemptedMetadata
  calls := writeCalls blankFlash attemptedRecord .first 0
  result := .returned (attemptedRecord, 0)

theorem attempt_step : AppendStep blankFlash attempt attemptedFlash := by
  apply append_completes blankFlash_erased.holds.newestRecord_eq
  · decide +kernel
  · intro other; cases other

theorem newestRecord_attemptedFlash : newestRecord attemptedFlash = some attemptedRecord := by decide +kernel

theorem free_attemptedFlash : findFirstErasedRecord attemptedFlash (pageAddress .first) =
    some 1 := by decide +kernel

def confirmedRecord : BootMetadata := sealFor (some attemptedRecord) (attemptedRecord.confirmed 1)

def confirmedFlash : Flash := writeFlash attemptedFlash confirmedRecord .first 1

theorem confirm_alone : Exec FlashStep (confirmApplicationBoot 1) attemptedFlash
    (writeCalls attemptedFlash confirmedRecord .first 1) (.returned 0) confirmedFlash := by
  have append := append_completes (m := attemptedRecord.confirmed 1) newestRecord_attemptedFlash free_attemptedFlash
    fun other => by cases other
  apply exec_confirmApplicationBoot.mpr
  apply Or.inr
  refine ⟨_, _, ?_, append, rfl⟩
  rw [confirmation, newestRecord_attemptedFlash]
  rfl

/-- Confirm, then request. -/
theorem transactions_serial_attempt : ∃ calls flash', BothStored attemptedFlash 1 calls flash' := by
  have newest : newestRecord confirmedFlash = some confirmedRecord := by decide +kernel
  have free : findFirstErasedRecord confirmedFlash (pageAddress .first) = some 2 := by decide +kernel
  have append := append_completes (m := updateRequest confirmedFlash) newest free fun other => by cases other
  have request := exec_requestFirmwareUpdate.mpr ⟨_, append, rfl⟩
  obtain ⟨m, rest⟩ := request.then_interleaved (Interleaved.ret (a := (0 : Int)))
  obtain ⟨n, both⟩ := confirm_alone.then_interleaved rest.swap
  refine ⟨_, _, transactions_serial (.inl blankFlash_erased) (.single attempt_step) (by decide) both ⟨.left, n, m, ?_⟩⟩
  rw [List.append_nil, List.map_replicate]

/-- The journal reads of a request that finds a slot on the primary page; the rest is the write. -/
theorem request_reads {p : FlashProg Int} {flash flash' : Flash} {old : BootMetadata} {index : Nat}
    {turns : List Turn} {calls : List FlashCall} {a b : Int} (newest : newestRecord flash = some old)
    (free : findFirstErasedRecord flash metadataPagePrimary = some index)
    (rest : Interleaved FlashStep p
      ((writeRecord (sealFor (some old) { old with state := bootStateUpdateRequested }) (pageAddress .first) index >>=
        fun code => pure (sealFor (some old) { old with state := bootStateUpdateRequested }, code)) >>=
        fun appended => pure appended.2)
      flash turns calls a b flash') :
    Interleaved FlashStep p requestFirmwareUpdate flash
      (.right :: .right :: .right :: .right :: turns) calls a b flash' := by
  have read : (findNewestMetadataRecord flash).map (loadRecord flash) = some old := newest
  have sequence : (findNewestMetadataRecord flash).map (fun record => (loadRecord flash record).sequenceNumber) =
      some old.sequenceNumber := by
    have split := Option.map_map BootMetadata.sequenceNumber (loadRecord flash) (findNewestMetadataRecord flash)
    rw [read] at split
    exact split.symm
  apply Interleaved.rightRead
  apply Interleaved.rightRead
  apply Interleaved.rightRead
  apply Interleaved.rightRead
  simp only [sequence, free, read]
  exact rest

def requestedRecord : BootMetadata :=
  sealFor (some attemptedRecord) { attemptedRecord with state := bootStateUpdateRequested }

/-- The request reads the journal and finds slot 1; before it programs the slot, the confirmation
runs whole and takes slot 1 as well. Both return 0, and neither record is left. -/
theorem transactions_destroy_each_other : Run AppendStep blankFlash
    [⟨blankFlash, attempt, attemptedFlash⟩] attemptedFlash ∧
    ∃ turns calls flash',
      Interleaved FlashStep (confirmApplicationBoot 1) requestFirmwareUpdate attemptedFlash turns calls 0 0 flash' ∧
      programmedSlots calls = [slotAddress .first 1, slotAddress .first 1] ∧
      newestRecord flash' = some attemptedRecord ∧ ¬ BothStored attemptedFlash 1 calls flash' := by
  have inside : 1 < recordsPerPage := by decide
  have write := ((writeRecord_completes .first inside confirmedFlash requestedRecord).map
    fun code => (requestedRecord, code)).map Prod.snd
  obtain ⟨m, rest⟩ := write.then_interleaved (Interleaved.ret (a := (0 : Int)))
  obtain ⟨n, both⟩ := confirm_alone.then_interleaved rest.swap
  have newest : newestRecord (writeFlash confirmedFlash requestedRecord .first 1) =
    some attemptedRecord := by decide +kernel
  refine ⟨.single attempt_step, _, _, _, request_reads newestRecord_attemptedFlash free_attemptedFlash both, ?_,
    newest, ?_⟩
  · decide +kernel
  · intro stored
    obtain ⟨record, newest', state, _⟩ := stored.newest
    rw [newest] at newest'
    cases newest'
    exact absurd state (by decide +kernel)

end Cc1310Firmware.Bootloader
