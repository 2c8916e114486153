import Cc1310Firmware.Bootloader.UpdateMode

/-! No damaged application is started.

Every record that names an image can be traced to the factory or to an END that
passed its checks, and no flash call since then changed the image. An active
session writes behind the images of the newest record and of its own metadata,
and a BEGIN forgets both before it erases the slot.
-/

set_option autoImplicit false

namespace Cc1310Firmware.Bootloader
open CrashProgram LabelledRun

/-- No call changes the first `size` bytes of the application slot. -/
def KeepsImage (size : Word) (calls : List FlashCall) : Prop :=
  ∀ c ∈ calls, ∀ a, c.command.Touches a → ¬ (applicationFlashStart ≤ a ∧ a < applicationFlashStart + size.toNat)

/-- An END for an image of this size and CRC passes its checks, the CRC among them. -/
def VerifiesImage (x : DeviceTransition) (size crc : Word) : Prop :=
  ∃ session frame, x.before.mode = .updating session ∧ x.event.input = .frame frame ∧
    endAccepted x.before.flash session frame = true ∧
    session.packageHeader.imageSize = size ∧ session.packageHeader.imageCrc32 = crc

/-- Where an image was in the slot as a whole for the first time: on the chip
from the factory or at an END that verified it. No later call touched it. -/
inductive Origin (start : Flash) (size crc : Word) : List DeviceTransition → Flash → Prop where
  | factory {history : List DeviceTransition} {record : BootMetadata} : FactoryChip start record →
      record.imageSize = size → record.imageCrc32 = crc → (∀ y ∈ history, KeepsImage size y.event.calls) →
      Origin start size crc history start
  | verified {earlier later : List DeviceTransition} {x : DeviceTransition} : VerifiesImage x size crc →
      (∀ y ∈ x :: later, KeepsImage size y.event.calls) →
      Origin start size crc (earlier ++ x :: later) x.before.flash

def Traced (start : Flash) (history : List DeviceTransition) (m : BootMetadata) : Prop :=
  ∃ source, Origin start m.imageSize m.imageCrc32 history source

/-- The record claims that the slot holds an image. -/
def BootMetadata.NamesImage (m : BootMetadata) : Prop := m.imageSize ≠ 0 ∨ m.state = bootStateValidApplication

theorem Traced.next {start : Flash} {history : List DeviceTransition} {x : DeviceTransition} {m : BootMetadata}
    (traced : Traced start history m ∨ VerifiesImage x m.imageSize m.imageCrc32)
    (kept : KeepsImage m.imageSize x.event.calls) : Traced start (history ++ [x]) m := by
  have last : ∀ y ∈ [x], KeepsImage m.imageSize y.event.calls := by simpa using kept
  rcases traced with ⟨source, origin⟩ | verifies
  · cases origin with
    | factory chip size crc since =>
      refine ⟨start, .factory chip size crc fun y member => ?_⟩
      exact (List.mem_append.mp member).elim (since y) (last y)
    | @verified earlier later z verifies since =>
      refine ⟨z.before.flash, ?_⟩
      rw [List.append_assoc, List.cons_append]
      apply Origin.verified verifies
      intro y member
      rw [← List.cons_append] at member
      exact (List.mem_append.mp member).elim (since y) (last y)
  · exact ⟨_, .verified verifies last⟩

/-! ## What an origin says about the flash -/

theorem DeviceStep.unchanged {s t : DeviceState} {event : DeviceEvent} (step : DeviceStep s event t) {a : Nat}
    (away : ∀ c ∈ event.calls, ¬ c.command.Touches a) : t.flash a = s.flash a := by
  obtain ⟨_, _, _, whole, _⟩ := step
  exact exec_unchanged whole away

theorem run_unchanged {s t : DeviceState} {history : List DeviceTransition} (run : Run DeviceStep s history t)
    {a : Nat} (away : ∀ x ∈ history, ∀ c ∈ x.event.calls, ¬ c.command.Touches a) : t.flash a = s.flash a := by
  induction run with
  | nil => rfl
  | next _ step ih =>
    have last := away _ (List.mem_append_right _ (List.mem_singleton.mpr rfl))
    rw [step.unchanged last]
    exact ih fun x member => away x (List.mem_append_left _ member)

theorem KeepsImage.away {size : Word} {history : List DeviceTransition}
    (kept : ∀ x ∈ history, KeepsImage size x.event.calls) {i : Nat} (hi : i < size.toNat) :
    ∀ x ∈ history, ∀ c ∈ x.event.calls, ¬ c.command.Touches (applicationFlashStart + i) :=
  fun x member c call touched => kept x member c call _ touched ⟨Nat.le_add_right _ i, by omega⟩

/-- The image is still in the slot, byte for byte. -/
theorem Origin.bytes_eq {start final : DeviceState} {history : List DeviceTransition} {size crc : Word}
    {source : Flash} (origin : Origin start.flash size crc history source)
    (run : Run DeviceStep start history final) :
    final.flash.bytes applicationFlashStart size.toNat = source.bytes applicationFlashStart size.toNat := by
  cases origin with
  | factory _ _ _ since =>
    apply Flash.bytes_congr
    intro i hi
    exact run_unchanged run (KeepsImage.away since hi)
  | verified _ since =>
    obtain ⟨_, step, rest⟩ := run.split
    apply Flash.bytes_congr
    intro i hi
    have away := KeepsImage.away since hi
    rw [run_unchanged rest fun y member => away y (List.mem_cons_of_mem _ member)]
    exact step.unchanged (away _ List.mem_cons_self)

theorem Origin.source_crc {start source : Flash} {history : List DeviceTransition} {size crc : Word}
    (origin : Origin start size crc history source) : applicationCrc32 source size = crc := by
  cases origin with
  | factory chip sameSize sameCrc =>
    subst sameSize sameCrc
    exact chip.crc
  | verified verifies =>
    obtain ⟨session, frame, _, _, accepted, rfl, rfl⟩ := verifies
    simp only [endAccepted, Bool.and_eq_true, beq_iff_eq] at accepted
    exact accepted.2

theorem Traced.crc {start final : DeviceState} {history : List DeviceTransition} {m : BootMetadata}
    (traced : Traced start.flash history m) (run : Run DeviceStep start history final) :
    applicationCrc32 final.flash m.imageSize = m.imageCrc32 := by
  obtain ⟨source, origin⟩ := traced
  rw [applicationCrc32, origin.bytes_eq run]
  exact origin.source_crc

/-! ## What a turn keeps -/

theorem append_keepsImage {m : BootMetadata} {flash flash' : Flash} {calls : List FlashCall} {r : AppendResult}
    (append : Exec FlashStep (appendMetadataRecord m) flash calls r flash') (size : Word) :
    KeepsImage size calls := by
  rintro c member a touched ⟨lo, _⟩
  have journal := (append.only (appendMetadataRecord_only m) c member).touches touched
  omega

/-- A BEGIN whose record is written forgets the image, whatever becomes of the erase. -/
theorem recorded_newest {k : Nat} {flash recorded flash' : Flash} {first rest : List FlashCall}
    {metadata : BootMetadata} {r : Result Int} (holds : Holds k flash (newestRecord flash))
    (room : k + recordPrograms (first ++ rest) < 2 ^ 31)
    (append : Exec FlashStep (appendMetadataRecord setDefaultMetadata) flash first (.returned (metadata, 0)) recorded)
    (erase : Exec FlashStep eraseApplicationFlash recorded rest r flash') :
    newestRecord flash' = some (sealFor (newestRecord flash) setDefaultMetadata) := by
  rw [recordPrograms_append, ← Nat.add_assoc] at room
  have appended := appendTurn holds (by omega) append
  rw [((inApplication_erase erase).register appended.holds erase).2]
  exact appended.stored _ rfl

/-- No image is named by the newest record or by the session that goes on. -/
structure Forgotten (flash' : Flash) (mode' : Mode) : Prop where
  stored : (bootMetadata flash').imageSize = 0 ∧ (bootMetadata flash').state ≠ bootStateValidApplication
  loaded : ∀ session, mode' = .updating session → session.metadata.imageSize = 0

section
variable {k : Nat} {flash flash' : Flash} {session : UpdateSession} {frame : ProtocolFrame} {calls : List FlashCall}
  {r : Result (ProtocolFrame × Continuation)} {size : Word}

theorem forgotten_of_default {value : Option BootMetadata} {mode' : Mode}
    (newest : newestRecord flash' = some (sealFor value setDefaultMetadata))
    (loaded : ∀ session, mode' = .updating session → session.metadata = sealFor value setDefaultMetadata) :
    Forgotten flash' mode' := by
  constructor
  · rw [bootMetadata_of_some newest]
    exact ⟨rfl, not_valid_of_default⟩
  · intro session after
    rw [loaded session after]
    rfl

theorem FrameTurn.keepsImage (turn_ : FrameTurn flash session frame calls r flash')
    (sound : Sound k ⟨flash, .updating session⟩) (room : k + recordPrograms calls < 2 ^ 31)
    (behind : session.updateActive = true → size.toNat ≤ session.bytesWritten.toNat) :
    KeepsImage size calls ∨ Forgotten flash' (conclude afterFrame r).2 := by
  cases turn_ with
  | hello | refused | notProgrammed | rejected => exact .inl (by simp [KeepsImage])
  | unrecorded _ _ append | finished _ append | roleSet _ append => exact .inl (append_keepsImage append size)
  | @recorded _ _ metadata _ _ result _ _ append erase =>
    refine .inr (forgotten_of_default (recorded_newest sound.holds room append erase) ?_)
    rw [← append_returned append]
    intro session' after
    rcases result with code | _
    · simp only [Result.map, conclude, beginReply] at after
      split at after <;> cases after <;> rfl
    · cases after
  | block guard _ _ exec =>
    have active := isData_active guard
    have progress := sound.progress session rfl active
    have reached := behind active
    refine .inl ?_
    intro c member a touched
    rw [List.mem_singleton.mp member] at touched
    simp only [blockCommand, FlashCommand.Touches, block_address progress] at touched
    omega

/-- An active session after a frame was active before and has not lost ground, or a BEGIN has just started it. -/
theorem FrameTurn.written {session' : UpdateSession} {reply : ProtocolFrame}
    (turn_ : FrameTurn flash session frame calls (.returned (reply, .loop session')) flash')
    (sound : Sound k ⟨flash, .updating session⟩) (room : k + recordPrograms calls < 2 ^ 31)
    (active : session'.updateActive = true) :
    (session.updateActive = true ∧ session.bytesWritten.toNat ≤ session'.bytesWritten.toNat) ∨
    Forgotten flash' (.updating session') := by
  generalize ended : Result.returned (reply, Continuation.loop session') = r at turn_
  cases turn_ with
  | hello | refused | rejected => cases ended; exact .inl ⟨active, Nat.le_refl _⟩
  | unrecorded =>
    obtain ⟨appended, _, same⟩ := Result.map_eq_returned.mp ended.symm
    cases same
    exact .inl ⟨active, Nat.le_refl _⟩
  | recorded _ _ append erase =>
    obtain ⟨code, _, same⟩ := Result.map_eq_returned.mp ended.symm
    refine .inr (forgotten_of_default (recorded_newest sound.holds room append erase) ?_)
    rintro _ ⟨⟩
    rcases beginReply_loop same with ⟨_, _, rfl⟩ | ⟨_, _, rfl⟩ <;> exact append_returned append
  | notProgrammed => cases ended; exact .inl ⟨active, Nat.le_refl _⟩
  | block guard _ _ exec =>
    have progress := sound.progress session rfl (isData_active guard)
    obtain ⟨failed, returned, same⟩ := Result.map_eq_returned.mp ended.symm
    cases same
    refine .inl ⟨isData_active guard, ?_⟩
    cases failed with
    | true => exact Nat.le_refl _
    | false =>
      -- FlashProgram succeeded, so the count does not wrap
      have inside := (exec_issue_done (returned ▸ exec)).1
      simp only [blockCommand, FlashCommand.InFlash, block_address progress] at inside
      simp only [UpdateSession.programmed_done, BitVec.toNat_add, BitVec.toNat_ofNat]
      simp only [flashSize, applicationFlashStart] at *
      omega
  | finished | roleSet =>
    obtain ⟨appended, _, same⟩ := Result.map_eq_returned.mp ended.symm
    obtain ⟨_, _, rfl⟩ := commitReply_loop same
    exact .inl ⟨active, Nat.le_refl _⟩

end

/-! ## The invariant of whole runs -/

/-- Journal, session and slot agree on the image. -/
structure ImageInv (start : Flash) (history : List DeviceTransition) (state : DeviceState) : Prop where
  stored : (bootMetadata state.flash).NamesImage → Traced start history (bootMetadata state.flash)
  loaded : ∀ session, state.mode = .updating session → session.metadata.imageSize ≠ 0 →
    Traced start history session.metadata
  behind : ∀ session, state.mode = .updating session → session.updateActive = true →
    (bootMetadata state.flash).imageSize.toNat ≤ session.bytesWritten.toNat ∧
    session.metadata.imageSize.toNat ≤ session.bytesWritten.toNat

section
variable {k : Nat} {start : Flash} {history : List DeviceTransition} {s t : DeviceState} {event : DeviceEvent}
  {m : BootMetadata}

/-- The record of a turn names an image that is traced, or that the turn verifies. -/
theorem TurnRecord.traced (record : TurnRecord s.flash s.mode event.input m) (inv : ImageInv start history s)
    (names : m.NamesImage) : Traced start history m ∨ VerifiesImage ⟨s, event, t⟩ m.imageSize m.imageCrc32 := by
  generalize mode : s.mode = here at record
  generalize input : event.input = given at record
  cases record with
  | attempt => exact .inl (inv.stored names)
  | @confirm _ metadata newest =>
    have stored := inv.stored
    rw [bootMetadata_of_some newest] at stored
    have crc : ∀ bootAttemptId, (metadata.confirmed bootAttemptId).imageCrc32 = metadata.imageCrc32 := by
      intro bootAttemptId
      unfold BootMetadata.confirmed
      dsimp only
      split <;> rfl
    unfold BootMetadata.NamesImage at names
    unfold Traced
    rw [confirmed_imageSize, confirmed_state] at names
    rw [confirmed_imageSize, crc]
    exact .inl (stored names)
  | request =>
    rcases names with size | state
    · exact .inl (inv.stored (.inl size))
    · exact absurd state (by simp [updateRequest, bootStateUpdateRequested, bootStateValidApplication])
  | begins => exact names.elim (absurd rfl) fun state => absurd state not_valid_of_default
  | ends accepted => exact .inr ⟨_, _, mode, input, accepted, rfl, rfl⟩
  | setsRole accepted =>
    simp only [setRoleAccepted, isApplicationImageValid, Bool.and_eq_true, bne_iff_ne] at accepted
    exact .inl (inv.loaded _ mode accepted.2.1.1.1)

/-- An active session is not behind the image that a turn records. -/
theorem TurnRecord.behind (record : TurnRecord s.flash s.mode event.input m) (inv : ImageInv start history s)
    {session : UpdateSession} (mode : s.mode = .updating session) (active : session.updateActive = true) :
    m.imageSize.toNat ≤ session.bytesWritten.toNat := by
  have behind := inv.behind session mode active
  rw [mode] at record
  generalize event.input = given at record
  cases record with
  | begins => exact Nat.zero_le _
  | ends accepted =>
    simp only [endAccepted, Bool.and_eq_true, beq_iff_eq] at accepted
    exact Nat.le_of_eq (congrArg BitVec.toNat accepted.1.2.symm)
  | setsRole => exact behind.2

theorem Turned.keepsImage (turned : Turned s.flash s.mode event.input event.calls event.output t.flash t.mode)
    (sound : Sound k s) (room : k + recordPrograms event.calls < 2 ^ 31) {size : Word}
    (behind : ∀ session, s.mode = .updating session → session.updateActive = true →
      size.toNat ≤ session.bytesWritten.toNat) : KeepsImage size event.calls ∨ Forgotten t.flash t.mode := by
  obtain ⟨flash, mode⟩ := s
  obtain ⟨flash', mode'⟩ := t
  obtain ⟨input, calls, output⟩ := event
  dsimp only at *
  cases turned with
  | powerCut | bootUpdate | confirmRefused => exact .inl (by simp [KeepsImage])
  | bootAttempt _ append | confirm _ append | request append => exact .inl (append_keepsImage append size)
  | frame turn_ ended =>
    have kept := turn_.keepsImage sound room (behind _ rfl)
    rwa [ended] at kept

/-- An active session was active before the turn and has not lost ground, or no image is named. -/
theorem Turned.written (turned : Turned s.flash s.mode event.input event.calls event.output t.flash t.mode)
    (sound : Sound k s) (room : k + recordPrograms event.calls < 2 ^ 31) {session' : UpdateSession}
    (mode : t.mode = .updating session') (active : session'.updateActive = true) :
    (∃ session, s.mode = .updating session ∧ session.updateActive = true ∧
      session.bytesWritten.toNat ≤ session'.bytesWritten.toNat) ∨ Forgotten t.flash t.mode := by
  obtain ⟨flash, here⟩ := s
  obtain ⟨flash', here'⟩ := t
  obtain ⟨input, calls, output⟩ := event
  dsimp only at *
  subst mode
  cases turned with
  | bootUpdate => cases active
  | bootAttempt _ _ ended =>
    rcases attempt_cases ended with ⟨_, _, _, same⟩ | ⟨_, _, _, _, _, same⟩ | ⟨_, _, same⟩ <;> cases same
    cases active
  | confirm _ _ ended | request _ ended =>
    rcases call_cases ended with ⟨_, _, _, _, same⟩ | ⟨_, _, same⟩ <;> cases same
  | frame turn_ ended =>
    rcases frame_cases ended with ⟨_, _, rfl, _, same⟩ | ⟨_, _, _, same⟩ | ⟨_, _, same⟩ <;> cases same
    exact (turn_.written sound room active).imp (fun grown => ⟨_, rfl, grown⟩) id

theorem imageInv_of_forgotten (forgotten : Forgotten t.flash t.mode) : ImageInv start history t where
  stored names := names.elim (absurd forgotten.stored.1) fun state => absurd state forgotten.stored.2
  loaded session mode size := absurd (forgotten.loaded session mode) size
  behind session mode _ := by
    rw [forgotten.stored.1, forgotten.loaded session mode]
    exact ⟨Nat.zero_le _, Nat.zero_le _⟩

theorem imageInv_step (sound : Sound k s) (room : k + recordPrograms event.calls < 2 ^ 31)
    (inv : ImageInv start history s) (step : DeviceStep s event t) :
    ImageInv start (history ++ [⟨s, event, t⟩]) t := by
  have turned := step.turned
  have register := turned.registerTurn sound room
  by_cases forgotten : Forgotten t.flash t.mode
  · exact imageInv_of_forgotten forgotten
  -- The turn erases nothing: what was traced before it, or is verified by it, stays traced.
  have traced : ∀ m : BootMetadata, (∀ session, s.mode = .updating session → session.updateActive = true →
      m.imageSize.toNat ≤ session.bytesWritten.toNat) →
      Traced start history m ∨ VerifiesImage ⟨s, event, t⟩ m.imageSize m.imageCrc32 →
      Traced start (history ++ [⟨s, event, t⟩]) m := by
    intro m behind before
    exact Traced.next before ((turned.keepsImage sound room behind).resolve_right forgotten)
  have ofRecord : ∀ m value, TurnRecord s.flash s.mode event.input m → (sealFor value m).NamesImage →
      Traced start (history ++ [⟨s, event, t⟩]) (sealFor value m) := by
    intro m value record names
    exact traced m (fun session mode active => record.behind inv mode active) (record.traced inv names)
  constructor
  case stored =>
    intro names
    rcases register.atomic with same | ⟨m, record, new⟩
    · rw [bootMetadata_congr same] at names ⊢
      exact traced _ (fun session mode active => (inv.behind session mode active).1) (.inl (inv.stored names))
    · rw [bootMetadata_of_some new] at names ⊢
      exact ofRecord m _ record names
  case loaded =>
    intro session' after size
    rw [after] at turned
    rcases turned.metadata with ⟨mode, same⟩ | ⟨session, mode, same⟩ | ⟨m, record, same⟩
    · -- the session was loaded after a reset
      rw [same] at size ⊢
      refine traced _ ?_ (.inl (inv.stored (.inl size)))
      intro session updating
      rw [mode] at updating; cases updating
    · rw [same] at size ⊢
      refine traced _ ?_ (.inl (inv.loaded session mode size))
      intro other updating active
      rw [mode] at updating
      cases updating
      exact (inv.behind session mode active).2
    · rw [same] at size ⊢
      exact ofRecord m _ record (.inl size)
  case behind =>
    intro session' after active
    obtain ⟨session, mode, active', grown⟩ := (turned.written sound room after active).resolve_right forgotten
    obtain ⟨stored, loaded⟩ := inv.behind session mode active'
    have ofRecord := fun m (record : TurnRecord s.flash s.mode event.input m) => record.behind inv mode active'
    constructor
    · rcases register.atomic with same | ⟨m, record, new⟩
      · rw [bootMetadata_congr same]
        exact Nat.le_trans stored grown
      · rw [bootMetadata_of_some new]
        exact Nat.le_trans (ofRecord m record) grown
    · rw [after] at turned
      rcases turned.metadata with ⟨reset, _⟩ | ⟨other, same, kept⟩ | ⟨m, record, same⟩
      · rw [mode] at reset; cases reset
      · rw [mode] at same
        cases same
        rw [kept]
        exact Nat.le_trans loaded grown
      · rw [same]
        exact Nat.le_trans (ofRecord m record) grown

end

/-- A chip that holds no record, or one from the factory that matches the slot. -/
def BlankOrFactory (flash : Flash) : Prop := ErasedJournal flash ∨ ∃ record, FactoryChip flash record

theorem BlankOrFactory.fresh {flash : Flash} (chip : BlankOrFactory flash) : Fresh ⟨flash, .reset⟩ :=
  ⟨chip.imp id fun ⟨_, factory⟩ => factory.journal, rfl⟩

theorem imageInv_run {flash : Flash} {final : DeviceState} {history : List DeviceTransition}
    (chip : BlankOrFactory flash) (run : Run DeviceStep ⟨flash, .reset⟩ history final)
    (few : recordsBegun history < 2 ^ 31) :
    ImageInv flash history final := by
  refine soundRun_induction chip.fresh ?_ ?_ run few
  · constructor
    · intro names
      rcases chip with erased | ⟨record, factory⟩
      · have newest : bootMetadata flash = setDefaultMetadata := by
          rw [bootMetadata, erased.holds.newestRecord_eq]; rfl
        rw [newest] at names
        exact names.elim (absurd rfl) fun state => absurd state not_valid_of_default
      · rw [bootMetadata_of_some factory.newest]
        exact ⟨flash, .factory factory rfl rfl (by simp)⟩
    · rintro _ ⟨⟩
    · rintro _ ⟨⟩
  · intro history s event t _ sound room inv step
    exact imageInv_step sound room inv step

/-- In every run the newest record matches the slot whenever it names an image,
and the application that is started is, byte for byte, the one that the factory
programmed or an END verified, with no flash call on it since. -/
theorem started_image_verified {flash : Flash} {final : DeviceState} {history : List DeviceTransition}
    (chip : BlankOrFactory flash) (run : Run DeviceStep ⟨flash, .reset⟩ history final)
    (few : recordsBegun history < 2 ^ 31) :
    (∀ m, newestRecord final.flash = some m →
      (m.state = bootStateValidApplication ∨ m.state = bootStateUpdateRequested ∧ m.imageSize ≠ 0) →
      applicationCrc32 final.flash m.imageSize = m.imageCrc32) ∧
    (∀ before y after handoff, history = before ++ y :: after → y.event.output = some (.handoff handoff) →
      ∃ m source, newestRecord y.before.flash = some m ∧ isApplicationImageValid y.before.flash m = true ∧
        Origin flash m.imageSize m.imageCrc32 (before ++ [y]) source ∧
        y.after.flash.bytes applicationFlashStart m.imageSize.toNat =
          source.bytes applicationFlashStart m.imageSize.toNat) := by
  constructor
  · intro m newest names
    have inv := imageInv_run chip run few
    rw [← bootMetadata_of_some newest] at names ⊢
    exact (inv.stored (names.elim .inr fun requested => .inl requested.2)).crc run
  · rintro before y after handoff rfl output
    obtain ⟨run', step, _⟩ := run.split
    rw [recordsBegun_append] at few
    have inv := imageInv_run chip run' (by omega)
    have turned := step.turned
    rw [output] at turned
    obtain ⟨_, _, _, _, boots, append, _⟩ := turned.of_handoff
    simp only [bootsApplication, Bool.and_eq_true, beq_iff_eq] at boots
    obtain ⟨⟨state, _⟩, image⟩ := boots
    cases newest : newestRecord y.before.flash with
    | none =>
      -- the defaults are not VALID, so no application starts without a record
      have none_ : bootMetadata y.before.flash = setDefaultMetadata := by rw [bootMetadata, newest]; rfl
      rw [none_] at state
      exact absurd state not_valid_of_default
    | some m =>
      have stored := inv.stored (.inr state)
      rw [bootMetadata_of_some newest] at stored image
      obtain ⟨source, origin⟩ := Traced.next (x := y) (.inl stored) (append_keepsImage append _)
      exact ⟨m, source, rfl, image, origin, origin.bytes_eq (run'.next step)⟩

/-- The application of the factory is started. -/
theorem started_image_verified_factory : ∃ (y : DeviceTransition) (m : BootMetadata) (source : Flash),
    y.event.input = .boot zeroHeader ∧
    Run DeviceStep ⟨factoryFlash, .reset⟩ [y] y.after ∧ Origin factoryFlash m.imageSize m.imageCrc32 [y] source ∧
    y.after.flash.bytes applicationFlashStart m.imageSize.toNat =
      source.bytes applicationFlashStart m.imageSize.toNat := by
  have chip : BlankOrFactory factoryFlash := .inr ⟨_, factoryFlash_chip⟩
  obtain ⟨event, flash, handoff, input, output, step, one, _⟩ :=
    factoryFlash_bootable.boot (by decide) factoryFlash_fresh.sound (by decide) zeroHeader
  have few : recordsBegun [⟨⟨factoryFlash, .reset⟩, event, ⟨flash, .running⟩⟩] < 2 ^ 31 := by simp; omega
  obtain ⟨m, source, _, _, origin, same⟩ :=
    (started_image_verified chip (.single step) few).2 [] _ [] handoff rfl output
  exact ⟨_, m, source, input, .single step, origin, same⟩

/-- A BEGIN whose record is number 2^31 erases the application, and the newest record still names it. -/
theorem sequence_wrap_keeps_erased_image : BlankOrFactory factoryFlash ∧ ∃ history final m,
    Run DeviceStep ⟨factoryFlash, .reset⟩ history final ∧ newestRecord final.flash = some m ∧
    m.state = bootStateValidApplication ∧ applicationCrc32 final.flash m.imageSize ≠ m.imageCrc32 := by
  refine ⟨.inr ⟨_, factoryFlash_chip⟩, ?_⟩
  obtain ⟨flash, m, ⟨history, run, _⟩, stale, names, image⟩ := wrapped_updater
  obtain ⟨first, recorded, _, append, stale'⟩ := stale.append Nat.one_pos (by decide) setDefaultMetadata
  obtain ⟨rest, erased, erase, _⟩ := erase_completes_done recorded
  have booted := boot_updater stale.newestRecord_eq names
  have ready : DeviceStep ⟨flash, .updating (.start m zeroHeader)⟩ _ _ :=
    begin_completes factoryHeader_valid (show isValidAppRole appRoleRx = true by decide) 1 append erase
  refine ⟨_, _, m, (run.next booted).next ready, ?_, names.state, ?_⟩
  · rw [← stale'.newestRecord_eq]
    apply newestRecord_congr
    intro a _ below
    apply exec_unchanged erase
    intro c member touched
    have := (erase.only eraseApplicationFlash_only c member).touches touched
    omega
  · have blank : erased.bytes applicationFlashStart 8 = List.replicate 8 0xFF := by
      apply Flash.bytes_erased
      intro i hi
      exact eraseApplicationFlash_blank erase (Nat.le_add_right _ i)
        (by simp only [applicationFlashStart, applicationFlashEnd]; omega)
    have size : factoryRecord.imageSize.toNat = 8 := rfl
    rw [names.imageSize, names.imageCrc32, applicationCrc32, size, blank]
    decide +kernel

end Cc1310Firmware.Bootloader
