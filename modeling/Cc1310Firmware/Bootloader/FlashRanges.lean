import Cc1310Firmware.Bootloader.Completion
import Cc1310Firmware.Bootloader.Register
import Cc1310Firmware.Programs.Runs

/-! Which addresses the bootloader programs and erases.

Appends stay in the metadata pages and the erase of a BEGIN stays in the
application slot, whatever the flash holds. A DATA block stays in the slot as
long as the session's header does, and a refused BEGIN can replace the header
of an active session: the header has to be bounded for that frame too.
-/

set_option autoImplicit false

namespace Cc1310Firmware.Bootloader
open LittleEndian CrashProgram LabelledRun TwoPageLog

/-! ## DATA blocks -/

/-- The DATA checks keep a block inside the image, as long as the progress does
not exceed the slot. -/
theorem block_fits {session : UpdateSession} {frame : ProtocolFrame}
    (wellFormed : isMalformedData session frame = false)
    (here : loadUint32Le frame.payload 0 = session.bytesWritten)
    (progress : session.bytesWritten ≤ applicationSlotSize) :
    (BitVec.ofNat 32 applicationFlashStart + session.bytesWritten).toNat =
        applicationFlashStart + session.bytesWritten.toNat ∧
      (session.bytesWritten + BitVec.ofNat 32 frame.block.length).toNat =
        session.bytesWritten.toNat + frame.block.length ∧
      session.bytesWritten.toNat + frame.block.length ≤ session.packageHeader.imageSize.toNat := by
  simp only [isMalformedData, here, Bool.or_eq_false_iff, decide_eq_false_iff_not] at wellFormed
  obtain ⟨⟨⟨_, short⟩, _⟩, bound⟩ := wellFormed
  have slot : applicationSlotSize.toNat = 0x17000 := rfl
  rw [BitVec.le_def, slot] at progress
  have sum : (session.bytesWritten + BitVec.ofNat 32 frame.block.length).toNat =
      session.bytesWritten.toNat + frame.block.length := by
    rw [BitVec.toNat_add, BitVec.toNat_ofNat]
    omega
  rw [BitVec.lt_def, sum] at bound
  refine ⟨?_, sum, by omega⟩
  rw [BitVec.toNat_add, BitVec.toNat_ofNat]
  simp only [applicationFlashStart]
  omega

theorem blockCommand_inSlot {session : UpdateSession} {frame : ProtocolFrame}
    (wellFormed : isMalformedData session frame = false)
    (here : loadUint32Le frame.payload 0 = session.bytesWritten)
    (size : session.packageHeader.imageSize ≤ applicationSlotSize)
    (progress : session.bytesWritten ≤ applicationSlotSize) :
    (blockCommand session frame).InApplicationSlot := by
  obtain ⟨address, _, fits⟩ := block_fits wellFormed here progress
  rw [BitVec.le_def, show applicationSlotSize.toNat = 0x17000 from rfl] at size
  simp only [blockCommand, FlashCommand.Within, address, applicationFlashStart, applicationFlashEnd] at *
  omega

/-! ## Runs -/

/-- A BEGIN of the right length that arrives in an active session announces an
image that fits the slot, whether it is accepted or refused. -/
def BeginFits (x : Transition DeviceState DeviceEvent) : Prop :=
  ∀ session frame, x.before.mode = .updating session → x.event.input = .frame frame →
    session.updateActive = true → isBegin frame = true →
    (loadPackageHeader frame.payload).imageSize ≤ applicationSlotSize

/-- The session bounds that every accepted BEGIN sets up. -/
def SlotBounds (mode : Mode) : Prop :=
  ∀ session, mode = .updating session → session.updateActive = true →
    session.packageHeader.imageSize ≤ applicationSlotSize ∧ session.bytesWritten ≤ applicationSlotSize

def InAllowedRanges (command : FlashCommand) : Prop := command.InJournal ∨ command.InApplicationSlot

theorem append_allowed {m : BootMetadata} {flash flash' : Flash} {calls : List FlashCall} {r : AppendResult}
    (append : Exec FlashStep (appendMetadataRecord m) flash calls r flash') :
    ∀ c ∈ calls, InAllowedRanges c.command :=
  fun c member => .inl (append.only (appendMetadataRecord_only m) c member)

theorem size_of_valid {session : UpdateSession} {frame : ProtocolFrame}
    (accepted : isRefusedBegin (session.withHeader frame) = false) :
    (loadPackageHeader frame.payload).imageSize ≤ applicationSlotSize := by
  simp only [isRefusedBegin, UpdateSession.withHeader, Bool.or_eq_false_iff, Bool.not_eq_false',
    isValidPackageHeader, Bool.and_eq_true] at accepted
  exact of_decide_eq_true accepted.1.1.1.2

theorem FrameTurn.allowed {flash flash' : Flash} {session : UpdateSession} {frame : ProtocolFrame}
    {calls : List FlashCall} {r : Result (ProtocolFrame × Continuation)}
    (turn_ : FrameTurn flash session frame calls r flash') (bounds : SlotBounds (.updating session)) :
    ∀ c ∈ calls, InAllowedRanges c.command := by
  cases turn_ with
  | hello | refused | notProgrammed | rejected => simp
  | unrecorded _ _ append _ | finished _ append | roleSet _ append => exact append_allowed append
  | recorded _ _ append erase =>
    intro c member
    rcases List.mem_append.mp member with first | rest
    · exact append_allowed append c first
    · exact .inr (erase.only eraseApplicationFlash_only c rest)
  | block data wellFormed here exec =>
    have active : session.updateActive = true := by
      simp only [isData, Bool.and_eq_true] at data
      exact data.1.2
    obtain ⟨size, progress⟩ := bounds session rfl active
    simp only [List.mem_singleton, forall_eq]
    exact .inr (blockCommand_inSlot wellFormed here size progress)

theorem Turned.allowed {flash flash' : Flash} {mode mode' : Mode} {input : Input} {calls : List FlashCall}
    {output : Option Output} (turned : Turned flash mode input calls output flash' mode')
    (bounds : SlotBounds mode) :
    ∀ c ∈ calls, InAllowedRanges c.command := by
  cases turned with
  | powerCut | bootUpdate | confirmRefused => simp
  | bootAttempt _ append _ | confirm _ append _ | request append _ => exact append_allowed append
  | frame turn_ _ => exact turn_.allowed bounds

/-- A frame keeps the bounds, unless it is a BEGIN that does not fit. -/
theorem FrameTurn.slotBounds {flash flash' : Flash} {session session' : UpdateSession} {frame reply : ProtocolFrame}
    {calls : List FlashCall} {r : Result (ProtocolFrame × Continuation)}
    (turn_ : FrameTurn flash session frame calls r flash') (ended : r = .returned (reply, .loop session'))
    (fits : session.updateActive = true → isBegin frame = true →
      (loadPackageHeader frame.payload).imageSize ≤ applicationSlotSize)
    (bounds : SlotBounds (.updating session)) : SlotBounds (.updating session') := by
  rintro _ ⟨⟩ active
  -- Whatever the outcome of a BEGIN, an active session had its progress in bounds before.
  have begun : ∀ metadata, isBegin frame = true → session.updateActive = true →
      ({ session.withHeader frame with metadata := metadata } : UpdateSession).packageHeader.imageSize ≤
        applicationSlotSize ∧ session.bytesWritten ≤ applicationSlotSize :=
    fun _ guard active => ⟨fits active guard, (bounds session rfl active).2⟩
  cases turn_ with
  | hello | rejected => cases ended; exact bounds session rfl active
  | refused guard _ => cases ended; exact begun session.metadata guard active
  | unrecorded guard _ _ _ =>
    obtain ⟨appended, _, same⟩ := Result.map_eq_returned.mp ended
    cases same
    exact begun appended.1 guard active
  | recorded guard accepted _ _ =>
    obtain ⟨code, _, same⟩ := Result.map_eq_returned.mp ended
    rcases beginReply_loop same with ⟨_, _, rfl⟩ | ⟨_, _, rfl⟩
    · exact begun _ guard active
    · exact ⟨size_of_valid accepted, show (0 : Word) ≤ applicationSlotSize by decide⟩
  | notProgrammed =>
    cases ended
    exact bounds session rfl active
  | block data wellFormed here _ =>
    obtain ⟨failed, _, same⟩ := Result.map_eq_returned.mp ended
    cases same
    cases failed with
    | true => exact bounds session rfl active
    | false =>
      obtain ⟨size, progress⟩ := bounds session rfl active
      obtain ⟨_, sum, fits'⟩ := block_fits wellFormed here progress
      refine ⟨size, ?_⟩
      simp only [UpdateSession.programmed_done, BitVec.le_def, sum] at size ⊢
      exact Nat.le_trans fits' size
  | finished | roleSet =>
    obtain ⟨appended, _, same⟩ := Result.map_eq_returned.mp ended
    obtain ⟨_, _, rfl⟩ := commitReply_loop same
    exact bounds session rfl active

theorem Turned.slotBounds {flash flash' : Flash} {mode mode' : Mode} {input : Input} {calls : List FlashCall}
    {output : Option Output} (turned : Turned flash mode input calls output flash' mode')
    (fits : ∀ session frame, mode = .updating session → input = .frame frame → session.updateActive = true →
      isBegin frame = true → (loadPackageHeader frame.payload).imageSize ≤ applicationSlotSize)
    (bounds : SlotBounds mode) : SlotBounds mode' := by
  have fresh : ∀ metadata stack, SlotBounds (.updating (.start metadata stack)) := by
    rintro metadata stack _ ⟨⟩ active
    cases active
  cases turned with
  | powerCut => rintro _ ⟨⟩
  | bootUpdate => exact fresh _ _
  | confirmRefused => rintro _ ⟨⟩
  | bootAttempt _ _ ended =>
    rcases attempt_cases ended with ⟨_, _, _, rfl⟩ | ⟨_, _, _, _, _, rfl⟩ | ⟨_, _, rfl⟩
    · rintro _ ⟨⟩
    · exact fresh _ _
    · rintro _ ⟨⟩
  | confirm _ _ ended | request _ ended =>
    rcases call_cases ended with ⟨_, _, _, _, rfl⟩ | ⟨_, _, rfl⟩ <;> rintro _ ⟨⟩
  | frame turn_ ended =>
    rcases frame_cases ended with ⟨reply, session', rfl, _, rfl⟩ | ⟨_, _, _, rfl⟩ | ⟨_, _, rfl⟩
    · exact turn_.slotBounds rfl (fits _ _ rfl rfl) bounds
    · rintro _ ⟨⟩
    · rintro _ ⟨⟩

/-- In every run from a reset, whatever the flash holds and however its calls
end, the bootloader only programs and erases its metadata pages and the
application slot, if no BEGIN in an active session announces a larger image. -/
theorem calls_in_allowed_ranges {flash : Flash} {final : DeviceState}
    {history : List (Transition DeviceState DeviceEvent)} (run : Run DeviceStep ⟨flash, .reset⟩ history final)
    (fits : ∀ x ∈ history, BeginFits x) :
    ∀ x ∈ history, ∀ c ∈ x.event.calls, InAllowedRanges c.command := by
  have invariant : SlotBounds final.mode ∧ ∀ x ∈ history, ∀ c ∈ x.event.calls, InAllowedRanges c.command := by
    induction run with
    | nil => exact ⟨by rintro _ ⟨⟩, by simp⟩
    | @next history s t event _ step ih =>
      obtain ⟨bounds, earlier⟩ := ih fun x member => fits x (List.mem_append_left _ member)
      have turned := deviceStep_iff.mp step
      have last : BeginFits ⟨s, event, t⟩ := fits _ (List.mem_append_right _ (List.mem_singleton.mpr rfl))
      refine ⟨turned.slotBounds last bounds, ?_⟩
      intro x member
      rcases List.mem_append.mp member with old | new
      · exact earlier x old
      · rw [List.mem_singleton.mp new]
        exact turned.allowed bounds
  exact invariant.2

/-! ## A refused BEGIN in an active session -/

def zeroHeader : FirmwarePackageHeader := ⟨0, 0, 0, 0, 0, 0, 0, 0, 0⟩

/-- A header that announces an image as large as the slot. -/
def slotHeader : FirmwarePackageHeader := packageHeader applicationSlotSize 0 0

def zeroBlock : List Byte := List.replicate 128 0

theorem zeroBlock_programmed (session : UpdateSession) (active : session.updateActive = true)
    (room : session.bytesWritten.toNat + 128 ≤ session.packageHeader.imageSize.toNat)
    (device : session.bytesWritten.toNat + 128 ≤ flashSize - applicationFlashStart) (flash : Flash) :
    ∃ event flash', event.input = .frame (dataFrame 0 session.bytesWritten zeroBlock) ∧
      event.calls = [⟨flash, .program (applicationFlashStart + session.bytesWritten.toNat) zeroBlock, .done⟩] ∧
      DeviceStep ⟨flash, .updating session⟩ event
        ⟨flash', .updating { session with bytesWritten := session.bytesWritten + 128 }⟩ := by
  have sum : (session.bytesWritten + 128).toNat = session.bytesWritten.toNat + 128 := by
    rw [BitVec.toNat_add, show (128 : Word).toNat = 128 from rfl]
    simp only [flashSize, applicationFlashStart] at device
    exact Nat.mod_eq_of_lt (by omega)
  have address : (BitVec.ofNat 32 applicationFlashStart + session.bytesWritten).toNat =
      applicationFlashStart + session.bytesWritten.toNat := by
    rw [BitVec.toNat_add]
    simp only [flashSize, applicationFlashStart] at device ⊢
    exact Nat.mod_eq_of_lt (by simp; omega)
  have command : blockCommand session (dataFrame 0 session.bytesWritten zeroBlock) =
      .program (applicationFlashStart + session.bytesWritten.toNat) zeroBlock := by
    rw [blockCommand, block_dataFrame, address]
  have wellFormed : isMalformedData session (dataFrame 0 session.bytesWritten zeroBlock) = false := by
    have fits : session.bytesWritten + 128#32 ≤ session.packageHeader.imageSize := by
      rw [BitVec.le_def]; exact sum ▸ room
    simp [isMalformedData, zeroBlock, fits]
  have inside : (blockCommand session (dataFrame 0 session.bytesWritten zeroBlock)).InFlash := by
    simp only [command, FlashCommand.InFlash, zeroBlock, List.length_replicate, applicationFlashStart,
      flashSize] at *
    omega
  refine ⟨_, _, rfl, ?_, data_programmed active wellFormed inside flash⟩
  simp only [command]

/-- Any number of blocks up to the end of the slot. -/
theorem zeroBlocks_run (session : UpdateSession) (active : session.updateActive = true)
    (slot : session.packageHeader.imageSize = applicationSlotSize) (start : session.bytesWritten = 0)
    (flash : Flash) (n : Nat) (fits : 128 * n ≤ 0x17000) : ∃ history flash',
      Run DeviceStep ⟨flash, .updating session⟩ history
        ⟨flash', .updating { session with bytesWritten := BitVec.ofNat 32 (128 * n) }⟩ := by
  induction n with
  | zero =>
    obtain ⟨metadata, header, bytesWritten, role, updateActive⟩ := session
    obtain rfl : bytesWritten = 0 := start
    exact ⟨[], flash, .nil⟩
  | succ n ih =>
    obtain ⟨history, flash', run⟩ := ih (by omega)
    have progress : (BitVec.ofNat 32 (128 * n)).toNat = 128 * n := by
      rw [BitVec.toNat_ofNat]; omega
    have size : session.packageHeader.imageSize.toNat = 0x17000 := by rw [slot]; rfl
    obtain ⟨_, flash'', _, _, step⟩ := zeroBlock_programmed
      { session with bytesWritten := BitVec.ofNat 32 (128 * n) } active
      (by rw [progress, size]; omega) (by rw [progress]; simp only [flashSize, applicationFlashStart]; omega) flash'
    have next : BitVec.ofNat 32 (128 * (n + 1)) = BitVec.ofNat 32 (128 * n) + 128 := by
      rw [Nat.mul_succ, BitVec.ofNat_add]; rfl
    rw [next]
    exact ⟨_, flash'', run.next step⟩

theorem blank_boot : DeviceStep ⟨blankFlash, .reset⟩ ⟨.boot zeroHeader, [], some .silent⟩
    ⟨blankFlash, .updating (.start setDefaultMetadata zeroHeader)⟩ := by
  have newest : bootMetadata blankFlash = setDefaultMetadata := by
    rw [bootMetadata, blankFlash_erased.holds.newestRecord_eq]; rfl
  have stays : bootsApplication blankFlash (bootMetadata blankFlash) = false := by
    rw [newest]; rfl
  have turned : Turned blankFlash .reset (.boot zeroHeader) [] (some .silent) blankFlash _ := .bootUpdate stays
  rw [newest] at turned
  exact deviceStep_iff.mpr turned

/-- A blank chip boots, and accepts a BEGIN for an image that fills the slot. -/
theorem slot_begin : ∃ calls flash metadata,
    DeviceStep ⟨blankFlash, .updating (.start setDefaultMetadata zeroHeader)⟩
      ⟨.frame (beginFrame 1 slotHeader appRoleUnset), calls, some (.reply ⟨protocolReady, 1, storeUint32Le 0⟩)⟩
      ⟨flash, .updating ⟨metadata, slotHeader, 0, appRoleUnset, true⟩⟩ :=
  begin_ready (isValidPackageHeader_packageHeader 0 0 (by decide) (by decide) (by decide)) (by decide) 1 blankFlash

/-- The header of a BEGIN that is refused, but stays in the session. -/
def hugeHeader : FirmwarePackageHeader := { zeroHeader with imageSize := 0xFFFFFFFF }

theorem huge_refused (session : UpdateSession) (flash : Flash) :
    DeviceStep ⟨flash, .updating session⟩
      ⟨.frame (beginFrame 2 hugeHeader appRoleUnset), [], some (.reply ⟨protocolError, 2, []⟩)⟩
      ⟨flash, .updating { session with packageHeader := hugeHeader, requestedRole := appRoleUnset }⟩ := by
  have refused : isRefusedBegin (session.withHeader (beginFrame 2 hugeHeader appRoleUnset)) = true := by
    rw [withHeader_beginFrame]; rfl
  have turn_ : FrameTurn flash session (beginFrame 2 hugeHeader appRoleUnset) [] _ flash :=
    .refused (isBegin_beginFrame _ _ _) refused
  rw [withHeader_beginFrame] at turn_
  exact deviceStep_iff.mpr (.frame turn_ rfl)

/-- A full transfer, a refused BEGIN and one more block: the block goes to the CCFG page. -/
theorem refused_begin_opens_ccfg : ∃ history final, Run DeviceStep ⟨blankFlash, .reset⟩ history final ∧
    ∃ x ∈ history, ∃ c ∈ x.event.calls, c.command = .program 0x1F000 zeroBlock ∧ ¬ InAllowedRanges c.command := by
  obtain ⟨calls, flash, metadata, ready⟩ := slot_begin
  obtain ⟨transfer, flash', blocks⟩ := zeroBlocks_run ⟨metadata, slotHeader, 0, appRoleUnset, true⟩
    rfl rfl rfl flash 736 (by decide)
  have full : BitVec.ofNat 32 (128 * 736) = 0x17000#32 := by decide
  rw [full] at blocks
  have refused := huge_refused ⟨metadata, slotHeader, 0x17000, appRoleUnset, true⟩ flash'
  obtain ⟨event, flash'', _, command, block⟩ := zeroBlock_programmed
    ⟨metadata, hugeHeader, 0x17000, appRoleUnset, true⟩ rfl
    (show (0x17000#32).toNat + 128 ≤ (0xFFFFFFFF#32).toNat by decide)
    (show (0x17000#32).toNat + 128 ≤ flashSize - applicationFlashStart by decide) flash'
  have address : applicationFlashStart + (0x17000 : Word).toNat = 0x1F000 := by decide
  have run := ((((Run.single blank_boot).next ready).append blocks).next refused).next block
  refine ⟨_, _, run, _, List.mem_append_right _ (List.mem_singleton.mpr rfl), ?_⟩
  rw [command, address]
  refine ⟨_, List.mem_singleton.mpr rfl, rfl, ?_⟩
  simp only [InAllowedRanges, FlashCommand.Within, zeroBlock, List.length_replicate, applicationFlashStart,
    applicationFlashEnd]
  omega

theorem calls_in_allowed_ranges_first_begin : ∃ history final, Run DeviceStep ⟨blankFlash, .reset⟩ history final ∧
    history.length = 2 ∧ ∀ x ∈ history, ∀ c ∈ x.event.calls, InAllowedRanges c.command := by
  obtain ⟨calls, flash, metadata, ready⟩ := slot_begin
  refine ⟨_, _, (Run.single blank_boot).next ready, rfl, ?_⟩
  apply calls_in_allowed_ranges ((Run.single blank_boot).next ready)
  intro x member session frame before _ active
  simp only [List.singleton_append, List.mem_cons, List.not_mem_nil, or_false] at member
  rcases member with rfl | rfl
  · cases before
  · cases before; cases active

end Cc1310Firmware.Bootloader
