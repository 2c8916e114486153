import Cc1310Firmware.Bootloader.Turn

/-! Where the flash commands of the bootloader lie, and that they can all complete.

Appends stay in the metadata pages and the erase of a BEGIN stays in the
application slot, whatever the flash holds. The device has that flash, so these
programs can run to their end, and they report an error only after a failed call.
-/

set_option autoImplicit false

namespace Cc1310Firmware.Bootloader
open LittleEndian CrashProgram TwoPageLog

/-- The whole address range of the command lies between two addresses. -/
def FlashCommand.Within (lo hi : Nat) : FlashCommand → Prop
  | .program address data => lo ≤ address ∧ address + data.length ≤ hi
  | .sectorErase address => lo ≤ address ∧ address + flashPageSize ≤ hi

theorem FlashCommand.Within.touches {lo hi : Nat} {command : FlashCommand} (within : command.Within lo hi) {a : Nat}
    (touched : command.Touches a) : lo ≤ a ∧ a < hi := by
  cases command <;> simp only [Within, Touches] at within touched <;> omega

theorem FlashCommand.Within.inFlash {lo hi : Nat} {command : FlashCommand} (within : command.Within lo hi)
    (device : hi ≤ flashSize) : command.InFlash := by
  cases command <;> simp only [Within, InFlash] at within ⊢ <;> omega

abbrev FlashCommand.InJournal : FlashCommand → Prop := Within metadataPagePrimary applicationFlashStart
abbrev FlashCommand.InApplicationSlot : FlashCommand → Prop := Within applicationFlashStart applicationFlashEnd

theorem writeRecord_only (m : BootMetadata) (side : Side) {index : Nat} (hi : index < recordsPerPage) :
    (writeRecord m (pageAddress side) index).Only FlashCommand.InJournal := by
  have slot := slot_below_application side hi
  have page := pages_in_journal side
  have start : pageAddress side ≤ slotAddress side index := Nat.le_add_right _ _
  unfold writeRecord flashProgram
  apply only_bind
  · rw [only_issue, BootMetadata.take_bytes]
    simp only [FlashCommand.Within, BootMetadata.length_protectedBytes, slotAddress, sizeofBootMetadata] at *
    omega
  · intro failed
    split
    · trivial
    apply only_bind
    · rw [only_issue]
      simp only [FlashCommand.Within, length_bytesOf, slotAddress, sizeofBootMetadata] at *
      omega
    · intro failed
      split <;> trivial

theorem rotationPage_side (newestRecord : Option Nat) : ∃ side, rotationPage newestRecord = pageAddress side := by
  unfold rotationPage
  split
  · split
    · exact ⟨.first, rfl⟩
    · exact ⟨.second, rfl⟩
  · exact ⟨.second, rfl⟩

theorem appendMetadataRecord_only (m : BootMetadata) :
    (appendMetadataRecord m).Only FlashCommand.InJournal := by
  have write : ∀ m side index, index < recordsPerPage →
      (do return (m, ← writeRecord m (pageAddress side) index) : FlashProg (BootMetadata × Int)).Only
        FlashCommand.InJournal :=
    fun m side index hi => only_bind (writeRecord_only m side hi) fun _ => trivial
  unfold appendMetadataRecord
  apply only_view_bind
  intro scanned
  apply only_view_bind
  intro _
  apply only_view_bind
  intro flash
  cases primary : findFirstErasedRecord flash metadataPagePrimary with
  | some index => exact write _ .first index (findFirstErasedRecord_some .first primary).1
  | none =>
    apply only_view_bind
    intro flash
    cases secondary : findFirstErasedRecord flash metadataPageSecondary with
    | some index => exact write _ .second index (findFirstErasedRecord_some .second secondary).1
    | none =>
      obtain ⟨side, page⟩ := rotationPage_side (findNewestMetadataRecord scanned)
      rw [page]
      apply only_bind
      · rw [flashSectorErase, only_issue]
        exact pages_in_journal side
      · intro failed
        split
        · trivial
        · exact write _ side 0 (by decide)

theorem eraseApplicationFlashLoop_only (remaining address : Nat) {first last : Nat} (lo : first ≤ address)
    (hi : address + remaining * flashPageSize ≤ last) :
    (eraseApplicationFlashLoop remaining address).Only (FlashCommand.Within first last) := by
  induction remaining generalizing address with
  | zero => trivial
  | succ remaining ih =>
    unfold eraseApplicationFlashLoop
    rw [Nat.succ_mul] at hi
    apply only_bind
    · rw [flashSectorErase, only_issue]
      exact ⟨lo, by omega⟩
    · intro failed
      split
      · trivial
      · exact ih _ (by omega) (by omega)

theorem eraseApplicationFlash_only : eraseApplicationFlash.Only FlashCommand.InApplicationSlot :=
  eraseApplicationFlashLoop_only _ _ (Nat.le_refl _) (by decide)

/-- An erase that reports success has erased every page. -/
theorem eraseApplicationFlashLoop_blank (remaining address : Nat) (flash : Flash) :
    Ensures FlashStep (eraseApplicationFlashLoop remaining address) flash fun _ r flash' => r = .returned 0 →
      ∀ a, address ≤ a → a < address + remaining * flashPageSize → flash' a = 0xFF := by
  induction remaining generalizing address flash with
  | zero =>
    simp only [eraseApplicationFlashLoop, ensures_pure, Nat.zero_mul, Nat.add_zero]
    intro _ a lo hi
    omega
  | succ remaining ih =>
    unfold eraseApplicationFlashLoop
    simp only [flashSectorErase, ensures_bind, ensures_issue, Result.andThen_returned, Result.andThen_cut]
    refine ⟨fun g step => ?_, fun g _ => by simp, fun g _ => by simp⟩
    simp only [Bool.false_eq_true, if_false]
    intro calls r flash' exec whole a lo hi
    rw [Nat.succ_mul] at hi
    by_cases later : address + flashPageSize ≤ a
    · exact ih _ g calls r flash' exec whole a later (by omega)
    · have erased : g a = 0xFF := by
        cases step
        exact Flash.erased_at lo (by omega)
      rw [← erased]
      apply exec_unchanged exec
      intro c member touched
      have within := exec.only (eraseApplicationFlashLoop_only remaining _ (Nat.le_refl _) (Nat.le_refl _)) c member
      have := (within.touches touched).1
      omega

theorem eraseApplicationFlash_blank {flash flash' : Flash} {calls : List FlashCall}
    (erase : Exec FlashStep eraseApplicationFlash flash calls (.returned 0) flash') {a : Nat}
    (lo : applicationFlashStart ≤ a) (hi : a < applicationFlashEnd) : flash' a = 0xFF :=
  eraseApplicationFlashLoop_blank _ _ flash _ _ _ erase rfl a lo
    (by simp only [applicationFlashStart, applicationFlashEnd, flashPageSize] at *; omega)

/-! ## Completion -/

/-- A code other than 0 is -1, and reports a failed call. -/
def HonestCode (calls : List FlashCall) (code : Int) : Prop :=
  code = 0 ∨ (code = -1 ∧ ∃ c ∈ calls, c.status = .failed)

/-- No call reports an error; power may be cut. -/
def NeverFails (calls : List FlashCall) : Prop := ∀ c ∈ calls, c.status ≠ .failed

theorem HonestCode.of_neverFails {calls : List FlashCall} {code : Int} (honest : HonestCode calls code)
    (succeed : NeverFails calls) : code = 0 := by
  rcases honest with zero | ⟨_, c, member, failed⟩
  · exact zero
  · exact absurd failed (succeed c member)

theorem HonestCode.of_done {calls : List FlashCall} {code : Int} (honest : HonestCode calls code)
    (done : ∀ c ∈ calls, c.status = .done) : code = 0 :=
  honest.of_neverFails fun c member => by simp [done c member]

theorem HonestCode.cons {calls : List FlashCall} {code : Int} (honest : HonestCode calls code) (c : FlashCall) :
    HonestCode (c :: calls) code :=
  honest.imp id fun ⟨failed, c', member, status⟩ => ⟨failed, c', List.mem_cons_of_mem _ member, status⟩

theorem writeRecord_code (m : BootMetadata) (page index : Nat) (flash : Flash) :
    Ensures FlashStep (writeRecord m page index) flash fun calls r _ =>
      ∀ code, r = .returned code → HonestCode calls code := by
  simp [writeRecord, flashProgram, ensures_bind, ensures_issue, HonestCode]

/-- Whatever the flash holds, an append returns the caller's record filled in for it. -/
theorem append_result (m : BootMetadata) (flash : Flash) :
    Ensures FlashStep (appendMetadataRecord m) flash fun calls r _ => ∀ m' code, r = .returned (m', code) →
      m' = sealFor (newestRecord flash) m ∧ HonestCode calls code := by
  have sequence : (findNewestMetadataRecord flash).map (fun record => (loadRecord flash record).sequenceNumber) =
      (newestRecord flash).map (·.sequenceNumber) := by
    rw [newestRecord, Option.map_map]; rfl
  have write : ∀ filled page index flash, Ensures FlashStep
      (do return (filled, ← writeRecord filled page index)) flash fun calls (r : AppendResult) _ =>
        ∀ m' code, r = .returned (m', code) → m' = filled ∧ HonestCode calls code := by
    intro filled page index flash
    rw [ensures_bind]
    refine (writeRecord_code filled page index flash).mono ?_
    intro calls r _ honest
    cases r with
    | cut => simp
    | returned code => simpa using honest code rfl
  unfold appendMetadataRecord
  simp only [ensures_view_bind, sequence]
  cases findFirstErasedRecord flash metadataPagePrimary with
  | some index => exact write _ _ _ _
  | none =>
    simp only [ensures_view_bind]
    cases findFirstErasedRecord flash metadataPageSecondary with
    | some index => exact write _ _ _ _
    | none =>
      simp only [flashSectorErase, ensures_bind, ensures_issue, Result.andThen_returned, Result.andThen_cut]
      -- both pages are full: the erase succeeds, fails or is cut
      refine ⟨fun g _ => ?_, fun g _ => ?_, fun g _ => by simp⟩
      · simp only [Bool.false_eq_true, if_false]
        refine (write _ _ 0 g).mono ?_
        intro calls r _ filled m' code ended
        obtain ⟨same, honest⟩ := filled m' code ended
        exact ⟨same, honest.cons _⟩
      · simp only [if_true, ensures_pure]
        rintro m' code ⟨⟩
        exact ⟨rfl, .inr ⟨rfl, _, List.mem_singleton.mpr rfl, rfl⟩⟩

theorem eraseApplicationFlashLoop_code (remaining address : Nat) (flash : Flash) :
    Ensures FlashStep (eraseApplicationFlashLoop remaining address) flash fun calls r _ =>
      ∀ code, r = .returned code → HonestCode calls code := by
  induction remaining generalizing address flash with
  | zero => simp [eraseApplicationFlashLoop, HonestCode]
  | succ remaining ih =>
    unfold eraseApplicationFlashLoop
    simp only [flashSectorErase, ensures_bind, ensures_issue, Result.andThen_returned, Result.andThen_cut]
    refine ⟨fun g _ => ?_, fun g _ => ?_, fun g _ => by simp⟩
    · simp only [Bool.false_eq_true, if_false]
      refine (ih (address + flashPageSize) g).mono ?_
      intro calls r _ honest code ended
      exact (honest code ended).cons _
    · simp only [if_true, ensures_pure]
      rintro code ⟨⟩
      exact .inr ⟨rfl, _, List.mem_singleton.mpr rfl, rfl⟩

theorem inFlash_carriedOut (flash : Flash) (command : FlashCommand) (inside : command.InFlash) :
    ∃ flash', FlashStep flash command .done flash' :=
  ⟨_, .done inside⟩

theorem append_completes_done (m : BootMetadata) (flash : Flash) : ∃ calls flash',
    Exec FlashStep (appendMetadataRecord m) flash calls (.returned (sealFor (newestRecord flash) m, 0)) flash' ∧
      ∀ c ∈ calls, c.status = .done := by
  obtain ⟨calls, ⟨m', code⟩, flash', exec, done⟩ := exec_completes (appendMetadataRecord_only m)
    (fun flash c journal => inFlash_carriedOut flash c (journal.inFlash (by decide))) flash
  obtain ⟨rfl, honest⟩ := append_result m flash _ _ _ exec m' code rfl
  obtain rfl := honest.of_done done
  exact ⟨calls, flash', exec, done⟩

/-- An append leaves the application alone. -/
theorem append_unchanged {m : BootMetadata} {flash flash' : Flash} {calls : List FlashCall} {r : AppendResult}
    (append : Exec FlashStep (appendMetadataRecord m) flash calls r flash') {a : Nat}
    (lo : applicationFlashStart ≤ a) :
    flash' a = flash a := by
  apply exec_unchanged append
  intro c member touched
  have journal := (append.only (appendMetadataRecord_only m) c member).touches touched
  omega

theorem append_applicationCrc32 {m : BootMetadata} {flash flash' : Flash} {calls : List FlashCall}
    {r : AppendResult} (append : Exec FlashStep (appendMetadataRecord m) flash calls r flash') (size : Word) :
    applicationCrc32 flash' size = applicationCrc32 flash size := by
  have same : flash'.bytes applicationFlashStart size.toNat = flash.bytes applicationFlashStart size.toNat :=
    Flash.bytes_congr fun i _ => append_unchanged append (Nat.le_add_right _ i)
  rw [applicationCrc32, same, applicationCrc32]

/-- The checks of the application look at the application alone. -/
theorem imageValid_congr {flash flash' : Flash} (same : ∀ a, applicationFlashStart ≤ a → flash' a = flash a) :
    isVectorTableValid flash' = isVectorTableValid flash ∧
    ∀ metadata, isApplicationImageValid flash' metadata = isApplicationImageValid flash metadata := by
  have word : ∀ a, applicationFlashStart ≤ a → flash'.word a = flash.word a := by
    intro a lo
    simp only [Flash.word, same _ lo, same _ (Nat.le_add_right_of_le lo)]
  have vectors : isVectorTableValid flash' = isVectorTableValid flash := by
    simp only [isVectorTableValid, word _ (Nat.le_refl _), word _ (Nat.le_add_right _ 4)]
  have crc : ∀ size, applicationCrc32 flash' size = applicationCrc32 flash size := by
    intro size
    unfold applicationCrc32
    congr 1
    exact Flash.bytes_congr fun i _ => same _ (Nat.le_add_right _ i)
  refine ⟨vectors, fun metadata => ?_⟩
  simp only [isApplicationImageValid, vectors, crc]

theorem append_imageValid {m : BootMetadata} {flash flash' : Flash} {calls : List FlashCall} {r : AppendResult}
    (append : Exec FlashStep (appendMetadataRecord m) flash calls r flash') :
    isVectorTableValid flash' = isVectorTableValid flash ∧
    ∀ metadata, isApplicationImageValid flash' metadata = isApplicationImageValid flash metadata :=
  imageValid_congr fun _ lo => append_unchanged append lo

theorem erase_completes_done (flash : Flash) : ∃ calls flash',
    Exec FlashStep eraseApplicationFlash flash calls (.returned 0) flash' ∧ ∀ c ∈ calls, c.status = .done := by
  obtain ⟨calls, code, flash', exec, done⟩ := exec_completes eraseApplicationFlash_only
    (fun flash c slot => inFlash_carriedOut flash c (slot.inFlash (by decide))) flash
  obtain rfl := (eraseApplicationFlashLoop_code _ _ flash _ _ _ exec code rfl).of_done done
  exact ⟨calls, flash', exec, done⟩

/-! ## Frames as the host sends them -/

theorem loadUint32Le_append (front rest : List Byte) (k : Nat) :
    loadUint32Le (front ++ rest) (front.length + k) = loadUint32Le rest k := by
  simp only [loadUint32Le, List.getD_eq_getElem?_getD, Nat.add_assoc,
    List.getElem?_append_right (Nat.le_add_right _ _), Nat.add_sub_cancel_left]

@[simp] theorem loadUint32Le_bytesOf (value : Word) (rest : List Byte) :
    loadUint32Le (bytesOf value 4 ++ rest) 0 = value := by
  simp [loadUint32Le, bytesOf, List.range_succ]

@[simp] theorem FirmwarePackageHeader.length_bytes (header : FirmwarePackageHeader) :
    header.bytes.length = sizeofFirmwarePackageHeader := by
  simp [bytes, sizeofFirmwarePackageHeader]

theorem loadPackageHeader_bytes (header : FirmwarePackageHeader) (rest : List Byte) :
    loadPackageHeader (header.bytes ++ rest) = header := by
  cases header
  simp [loadPackageHeader, loadUint32Le, FirmwarePackageHeader.bytes, bytesOf, List.range_succ]

/-- The bytes in front of the CRC field. -/
def FirmwarePackageHeader.protectedBytes (header : FirmwarePackageHeader) : List Byte :=
  bytesOf header.magic 4 ++ bytesOf header.formatVersion 2 ++ bytesOf header.headerSize 2 ++
  bytesOf header.targetId 4 ++ bytesOf header.applicationAddress 4 ++ bytesOf header.imageSize 4 ++
  bytesOf header.firmwareVersion 4 ++ bytesOf header.imageCrc32 4

@[simp] theorem FirmwarePackageHeader.take_bytes (header : FirmwarePackageHeader) :
    header.bytes.take (sizeofFirmwarePackageHeader - 4) = header.protectedBytes := by
  have split : header.bytes = header.protectedBytes ++ bytesOf header.headerCrc32 4 := rfl
  have length : header.protectedBytes.length = sizeofFirmwarePackageHeader - 4 := by
    simp [protectedBytes, sizeofFirmwarePackageHeader]
  rw [split, List.take_left' length]

/-- The header of a package for this device. -/
def packageHeader (imageSize firmwareVersion imageCrc32 : Word) : FirmwarePackageHeader :=
  let header : FirmwarePackageHeader := ⟨packageMagic, packageFormatVersion,
    BitVec.ofNat 16 sizeofFirmwarePackageHeader, firmwareTargetId,
    BitVec.ofNat 32 applicationFlashStart, imageSize, firmwareVersion, imageCrc32, 0⟩
  { header with headerCrc32 := calculateCrc32 header.protectedBytes }

theorem isValidPackageHeader_packageHeader {imageSize : Word} (firmwareVersion imageCrc32 : Word)
    (nonempty : imageSize ≠ 0) (fits : imageSize ≤ applicationSlotSize) (words : imageSize &&& 3 = 0) :
    isValidPackageHeader (packageHeader imageSize firmwareVersion imageCrc32) = true := by
  have crc : (packageHeader imageSize firmwareVersion imageCrc32).headerCrc32 =
      calculateCrc32 (packageHeader imageSize firmwareVersion imageCrc32).protectedBytes := rfl
  simp only [isValidPackageHeader, FirmwarePackageHeader.take_bytes, ← crc, beq_self_eq_true, Bool.and_true]
  simp only [packageHeader, beq_self_eq_true, Bool.true_and, Bool.and_eq_true, bne_iff_ne, beq_iff_eq]
  exact ⟨⟨nonempty, decide_eq_true fits⟩, words⟩

/-- BEGIN with a package header and a role. -/
def beginFrame (sequenceNumber : Half) (header : FirmwarePackageHeader) (role : Word) : ProtocolFrame :=
  ⟨protocolBegin, sequenceNumber, header.bytes ++ bytesOf role 4⟩

def dataFrame (sequenceNumber : Half) (offset : Word) (block : List Byte) : ProtocolFrame :=
  ⟨protocolData, sequenceNumber, bytesOf offset 4 ++ block⟩

def setRoleFrame (role : Word) : ProtocolFrame := ⟨protocolSetRole, 1, bytesOf role 4⟩

@[simp] theorem isBegin_beginFrame (sequenceNumber : Half) (header : FirmwarePackageHeader) (role : Word) :
    isBegin (beginFrame sequenceNumber header role) = true := by
  simp [isBegin, beginFrame]

@[simp] theorem withHeader_beginFrame (session : UpdateSession) (sequenceNumber : Half)
    (header : FirmwarePackageHeader) (role : Word) :
    session.withHeader (beginFrame sequenceNumber header role) =
      { session with packageHeader := header, requestedRole := role } := by
  have load := loadUint32Le_append header.bytes (bytesOf role 4) 0
  have value := loadUint32Le_bytesOf role []
  rw [List.append_nil] at value
  rw [header.length_bytes, Nat.add_zero, value] at load
  simp only [UpdateSession.withHeader, beginFrame, loadPackageHeader_bytes, load]

@[simp] theorem block_dataFrame (sequenceNumber : Half) (offset : Word) (block : List Byte) :
    (dataFrame sequenceNumber offset block).block = block := by
  simp [ProtocolFrame.block, dataFrame, List.drop_left']

@[simp] theorem offset_dataFrame (sequenceNumber : Half) (offset : Word) (block : List Byte) :
    loadUint32Le (dataFrame sequenceNumber offset block).payload 0 = offset := by
  simp [dataFrame]

/-- A valid BEGIN is answered READY when its calls complete. -/
theorem begin_completes {session : UpdateSession} {header : FirmwarePackageHeader} {role : Word}
    (valid : isValidPackageHeader header = true) (role_ : isValidAppRole role = true) (sequenceNumber : Half)
    {flash recorded flash' : Flash} {metadata : BootMetadata} {first rest : List FlashCall}
    (append : Exec FlashStep (appendMetadataRecord setDefaultMetadata) flash first (.returned (metadata, 0)) recorded)
    (erase : Exec FlashStep eraseApplicationFlash recorded rest (.returned 0) flash') :
    DeviceStep ⟨flash, .updating session⟩
      ⟨.frame (beginFrame sequenceNumber header role), first ++ rest,
        some (.reply ⟨protocolReady, sequenceNumber, storeUint32Le 0⟩)⟩
      ⟨flash', .updating ⟨metadata, header, 0, role, true⟩⟩ := by
  have accepted : isRefusedBegin (session.withHeader (beginFrame sequenceNumber header role)) = false := by
    simp [isRefusedBegin, valid, role_]
  apply deviceStep_iff.mpr
  apply Turned.frame (.recorded (isBegin_beginFrame _ _ _) accepted append erase)
  simp only [Result.map, conclude, beginReply, withHeader_beginFrame]
  rfl

theorem begin_ready {session : UpdateSession} {header : FirmwarePackageHeader} {role : Word}
    (valid : isValidPackageHeader header = true) (role_ : isValidAppRole role = true) (sequenceNumber : Half)
    (flash : Flash) : ∃ calls flash' metadata,
      DeviceStep ⟨flash, .updating session⟩
        ⟨.frame (beginFrame sequenceNumber header role), calls,
          some (.reply ⟨protocolReady, sequenceNumber, storeUint32Le 0⟩)⟩
        ⟨flash', .updating ⟨metadata, header, 0, role, true⟩⟩ := by
  obtain ⟨first, recorded, append, _⟩ := append_completes_done setDefaultMetadata flash
  obtain ⟨rest, flash', erase, _⟩ := erase_completes_done recorded
  exact ⟨first ++ rest, flash', _, begin_completes valid role_ sequenceNumber append erase⟩

/-- A block that continues the image can be programmed. -/
theorem data_programmed {sequenceNumber : Half} {session : UpdateSession} {block : List Byte}
    (active : session.updateActive = true)
    (wellFormed : isMalformedData session (dataFrame sequenceNumber session.bytesWritten block) = false)
    (inside : (blockCommand session (dataFrame sequenceNumber session.bytesWritten block)).InFlash)
    (flash : Flash) :
    DeviceStep ⟨flash, .updating session⟩
      ⟨.frame (dataFrame sequenceNumber session.bytesWritten block),
        [⟨flash, blockCommand session (dataFrame sequenceNumber session.bytesWritten block), .done⟩],
        some (.reply (acknowledge { session with bytesWritten := session.bytesWritten + BitVec.ofNat 32 block.length }
          (dataFrame sequenceNumber session.bytesWritten block)).1)⟩
      ⟨(blockCommand session (dataFrame sequenceNumber session.bytesWritten block)).complete flash,
        .updating { session with bytesWritten := session.bytesWritten + BitVec.ofNat 32 block.length }⟩ := by
  have guard : isData session (dataFrame sequenceNumber session.bytesWritten block) = true := by
    simp [isData, active, dataFrame]
  have issue : Exec FlashStep (Program.issue
    (blockCommand session (dataFrame sequenceNumber session.bytesWritten block))) flash
      [⟨flash, blockCommand session (dataFrame sequenceNumber session.bytesWritten block), .done⟩] (.returned false)
      ((blockCommand session (dataFrame sequenceNumber session.bytesWritten block)).complete flash) :=
        .done (.done inside) .ret
  apply deviceStep_iff.mpr
  apply Turned.frame (.block guard wellFormed (offset_dataFrame _ _ _) issue)
  simp only [Result.map, UpdateSession.programmed_done, block_dataFrame]
  rfl

end Cc1310Firmware.Bootloader
