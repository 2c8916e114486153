import Cc1310Firmware.Bootloader.SequenceWrap
import Cc1310Firmware.Host.FlashSteps

/-! What a run of flash that returns has done to the device. -/

set_option autoImplicit false

namespace Cc1310Firmware.Host
open LittleEndian Bootloader CrashProgram LabelledRun Reactive StopAndWait

/-! ### flash -/

section
variable {chip : DeviceState} {upload : Upload}

/-- END, after the last block. -/
theorem end_spec (fresh : Fresh chip) : Triple (@Moves chip) Does (Sent upload upload.image.length)
    (request kindEnd [] [kindComplete] frameRetries)
    (fun _ s => ∃ sequence, Between (endRequest sequence) (Completed upload) s) fun _ _ => True := by
  refine Triple.exists fun sequence => Triple.exists fun earlier => Triple.of_const fun inside =>
    Triple.of_const fun _ =>
    Triple.of_const fun _ => ?_
  have spec := @request_next chip (upload.data sequence earlier) _ _ _ _ _ kindEnd [] [kindComplete] frameRetries rfl
    (end_honoured fresh _ inside) (data_short _ _ _) (Nat.zero_le _) fun _ sending => ⟨trivial, sending⟩
  refine spec.mono (fun _ => id) ?_ fun _ _ => id
  rintro answer s ⟨accepted, between⟩
  have complete : answer.1 = kindComplete := by simpa using accepted
  exact ⟨_, between.mono fun holds => holds.2 complete⟩

/-- What flash does after a READY. -/
theorem image_spec (fresh : Fresh chip) {frame : ProtocolFrame} (begin_ : upload.IsBegin frame)
    (short : Short frame) (some_ : 0 < upload.image.length) (rounds : Nat) :
    Triple (@Moves chip) Does (Between frame fun device => upload.Begun device.state)
      (do sendImage upload.image rounds 0; let _ ← request kindEnd [] [kindComplete] frameRetries; return ())
      (fun _ s => ∃ sequence, Between (endRequest sequence) (Completed upload) s) fun _ _ => True := by
  refine (sendImage_begun begin_ short some_ rounds).bind _ fun _ => (end_spec fresh).bind _ fun _ => ?_
  -- copies of END may still be under way; they do not undo the update
  exact .pure (.exists fun _ => stable_between (kept_completed fresh _) (Nat.zero_le _)) fun _ => id

theorem flash_spec (fresh : Fresh chip) {package : List Byte} {info : Package} (parsed : parse package = some info)
    (sequence rounds role : Nat) (allowApplication : Bool) : Triple (@Moves chip) Does
    (Waiting (settled (helloFrame ((sequence + 1) % 2 ^ 16)) fun _ => True) sequence)
    (flash rounds package role allowApplication)
    (fun _ s => role < 2 ^ 32 ∧ ∃ sequence, Between (endRequest sequence) (Completed (packageUpload parsed role)) s)
    fun _ _ => True := by
  unfold flash
  -- a step that raises an exception leaves nothing to show
  refine orRaise_spec fun info' same => ?_
  obtain rfl := Option.some.inj (parsed.symm.trans same)
  refine (connect_spec sequence allowApplication).bind _ fun device => ?_
  split
  · exact .throw_true
  split
  · exact .throw_true
  refine orRaise_spec fun bytes fits => ?_
  obtain ⟨bound, rfl⟩ := toBytes4_eq_some fits
  refine Triple.exists fun hello => ?_
  have begin_ :=
    @packageUpload_isBegin package info parsed role (((helloFrame hello).sequenceNumber.toNat + 1) % 2 ^ 16)
  have short : Short (requestFrame kindBegin (((helloFrame hello).sequenceNumber.toNat + 1) % 2 ^ 16)
      (slice package 0 32 ++ bytesOf (BitVec.ofNat 32 role) 4)) := by
    simp only [Short, requestFrame, slice, List.length_append, List.length_take, length_bytesOf]
    omega
  have some_ : 0 < (packageUpload parsed role).image.length := by
    obtain ⟨_, _, _, _, _, whole, some_, _⟩ := parse_eq_some parsed
    exact whole ▸ some_
  refine (request_next kindBegin _ [kindReady] frameRetries rfl (begin_honoured _ begin_) (Nat.zero_le _) short
    fun _ _ => ⟨trivial, trivial⟩).bind _ fun answer => .of_const fun accepted => ?_
  have ready : answer.1 = kindReady := by simpa using accepted
  dsimp only
  split
  · exact .throw_true
  split
  · exact .throw_true
  case isFalse zero =>
    rw [not_not.mp zero]
    exact (image_spec fresh begin_ short some_ rounds).mono (fun s between => between.mono fun holds => holds.2 ready)
      (fun _ _ done => ⟨bound, done⟩) fun _ _ => id

end

section
variable {chip : DeviceState}

/-! ### A run with the image of the factory -/

def factoryPackage : List Byte := factoryHeader.bytes ++ vectorImage

def factoryInfo : Package where
  target := firmwareTargetId.toNat
  address := appAddress
  size := 8
  version := 0
  imageCrc := (calculateCrc32 vectorImage).toNat
  image := vectorImage

theorem parse_factoryPackage : parse factoryPackage = some factoryInfo := by decide +kernel

theorem deviceInfo_infoPayload (m : BootMetadata) :
    (deviceInfo (infoPayload m)).target = firmwareTargetId.toNat ∧
    (deviceInfo (infoPayload m)).maxSize = applicationSlotSize.toNat := by
  have target : slice (infoPayload m) 0 4 = bytesOf firmwareTargetId 4 := by
    simp [infoPayload, storeUint32Le, bytesOf, List.range_succ, slice]
  have maxSize : slice (infoPayload m) 8 12 = bytesOf applicationSlotSize 4 := by
    simp [infoPayload, storeUint32Le, bytesOf, List.range_succ, slice]
  unfold deviceInfo
  rw [target, maxSize, fromBytes_bytesOf, fromBytes_bytesOf]
  exact ⟨rfl, rfl⟩

/-- connect, with a device in the updater. -/
theorem connect_runs {flash : Flash} {session : UpdateSession} {history : List DeviceTransition}
    (run : Run DeviceStep chip history ⟨flash, .updating session⟩) : ∃ history' run',
      recordsBegun history' = recordsBegun history ∧
      Runs (connect false) (quiet 0 ⟨history, _, run⟩) (.ok (deviceInfo (infoPayload session.metadata)))
        (quiet 1 ⟨history', ⟨flash, .updating session⟩, run'⟩) := by
  have turned : Turned flash (.updating session) (.frame (helloFrame 1)) []
      (some (.reply ⟨protocolInfo, 1, infoPayload session.metadata⟩)) flash (.updating session) :=
        .frame (.hello rfl) rfl
  have step := turned.deviceStep
  obtain ⟨wire, encoded⟩ : ∃ wire, encode kindHello 1 [] = some wire := ⟨_, rfl⟩
  have request :=
    @Runs.request chip _ ⟨history, _, run⟩ _ _ 0 kindHello 1 [] wire [kindInfo] encoded (Nat.zero_le _) step
    (List.mem_singleton.mpr rfl)
  have length : (infoPayload session.metadata).length = 24 := by simp [infoPayload, storeUint32Le]
  refine ⟨_, run.next step, recordsBegun_append _ _, Exec.tryCatch (Exec.bind request ?_)⟩
  dsimp only
  rw [if_neg (by rw [length]; decide)]
  exact .returned .refl

/-- The host's part: the answers that let flash return. -/
theorem flash_of_answers {s s₁ s₂ s₃ s₄ : System chip} {m : BootMetadata} {answer : Nat × List Byte}
    (connected : Runs (connect false) s (.ok (deviceInfo (infoPayload m))) s₁)
    (ready : Runs (request kindBegin (factoryHeader.bytes ++ bytesOf (1 : Word) 4) [kindReady] frameRetries) s₁
      (.ok (kindReady, storeUint32Le 0)) s₂)
    (sent : Runs (request kindData (bytesOf (0 : Word) 4 ++ vectorImage) [kindAck, kindNack] frameRetries) s₂
      (.ok (kindAck, storeUint32Le 8)) s₃)
    (ended : Runs (request kindEnd [] [kindComplete] frameRetries) s₃ (.ok answer) s₄) :
    Runs (flash 1 factoryPackage 1 false) s (.ok ()) s₄ := by
  unfold flash
  rw [parse_factoryPackage]
  refine Exec.bind (.returned .refl) (Exec.bind connected ?_)
  obtain ⟨target, maxSize⟩ := deviceInfo_infoPayload m
  have same : ¬ (deviceInfo (infoPayload m)).target ≠ factoryInfo.target := not_not.mpr target
  have fits : ¬ (deviceInfo (infoPayload m)).maxSize < factoryInfo.size := by
    rw [maxSize]
    decide
  have role : toBytes4 1 = some (bytesOf (1 : Word) 4) := rfl
  have header : slice factoryPackage 0 32 = factoryHeader.bytes := List.take_left' factoryHeader.length_bytes
  rw [if_neg same, if_neg fits, role]
  refine Exec.bind (.returned .refl) ?_
  rw [header]
  refine Exec.bind ready ?_
  have empty : fromBytes (storeUint32Le 0) = 0 := rfl
  dsimp only
  rw [if_neg (by decide), if_neg (by decide), empty]
  refine Exec.bind (a := ()) ?_ (Exec.bind ended (.returned .refl))
  -- one block is the whole image
  have offset : toBytes4 0 = some (bytesOf (0 : Word) 4) := rfl
  have block : slice factoryInfo.image 0 (0 + chunkSize) = vectorImage := rfl
  have acknowledged : fromBytes (storeUint32Le 8) = 8 := rfl
  unfold sendImage
  rw [if_neg (by decide), offset]
  refine Exec.bind (.returned .refl) ?_
  rw [block]
  refine Exec.bind sent ?_
  dsimp only
  rw [if_neg (by decide), if_neg (by decide), acknowledged]
  exact .returned .refl

/-- flash, with a device whose calls complete until END. -/
theorem flash_runs {flash recorded : Flash} {session : UpdateSession} {metadata : BootMetadata}
    {first : List FlashCall} {history : List DeviceTransition}
    (run : Run DeviceStep chip history ⟨flash, .updating session⟩)
    (append : CrashProgram.Exec FlashStep (appendMetadataRecord setDefaultMetadata) flash first
      (.returned (metadata, 0)) recorded) :
    ∃ written history',
      ∃ run' : Run DeviceStep chip history' ⟨written, .updating ⟨metadata, factoryHeader, 8, appRoleRx, true⟩⟩,
      written.bytes applicationFlashStart 8 = vectorImage ∧
        (∀ a, a < applicationFlashStart → written a = recorded a) ∧
      recordsBegun history' = recordsBegun history + recordPrograms first ∧
      ∀ answer final,
        Runs (request kindEnd [] [kindComplete] frameRetries) (quiet 3 ⟨history', _, run'⟩) (.ok answer) final →
        Runs (Host.flash 1 factoryPackage 1 false) (quiet 0 ⟨history, _, run⟩) (.ok ()) final := by
  obtain ⟨history₁, run₁, same₁, connected⟩ := connect_runs run
  obtain ⟨rest, erased, erase, _⟩ := erase_completes_done recorded
  have begin_ : DeviceStep ⟨flash, .updating session⟩ _ _ :=
    begin_completes factoryHeader_valid (show isValidAppRole appRoleRx = true by decide) 2 append erase
  have data := vectorImage_step erased metadata 3
  refine ⟨_, _, (run₁.next begin_).next data, vectorImage_stored erase, ?_, ?_, ?_⟩
  · -- the erase and the block stay clear of the journal
    intro a below
    rw [Flash.programmed_outside (.inl below)]
    apply exec_unchanged erase
    intro c member touched
    exact Nat.not_le_of_lt below (inApplication_erase erase c member a touched)
  · have slot : recordPrograms [⟨erased, .program applicationFlashStart vectorImage, .done⟩] = 0 := by
      apply InApplication.recordPrograms_eq
      intro c member a touched
      rw [List.mem_singleton.mp member] at touched
      exact touched.1
    simp only [recordsBegun_append, recordsBegun_single, recordPrograms_append, same₁,
      (inApplication_erase erase).recordPrograms_eq]
    exact congrArg _ slot
  · intro answer final ended
    obtain ⟨beginWire, beginEncoded⟩ :
      ∃ wire, encode kindBegin 2 (factoryHeader.bytes ++ bytesOf (1 : Word) 4) = some wire := ⟨_, rfl⟩
    obtain ⟨dataWire, dataEncoded⟩ : ∃ wire, encode kindData 3 (bytesOf (0 : Word) 4 ++ vectorImage) = some wire :=
      ⟨_, rfl⟩
    have ready :=
      @Runs.request chip _ ⟨history₁, _, run₁⟩ _ _ 1 kindBegin 4 _ _ [kindReady] beginEncoded (by decide) begin_
      (List.mem_singleton.mpr rfl)
    have sent := @Runs.request chip _ ⟨_, _, run₁.next begin_⟩ _ _ 2 kindData 4 _ _ [kindAck, kindNack] dataEncoded
      (by decide) data List.mem_cons_self
    exact flash_of_answers connected ready sent ended

end

/-! ### What flash achieves -/

/-- If flash returns, the image is in the App slot and the newest record describes it. -/
theorem flash_agreement {chip : DeviceState} (fresh : Fresh chip) {start final : System chip} {package : List Byte}
    {info : Package} {role rounds : Nat} {allowApplication : Bool} (parsed : parse package = some info)
    (noRequests : start.link.requests = []) (noReplies : start.link.replies = [])
    (returned : Runs (flash rounds package role allowApplication) start (.ok ()) final)
    (few : recordsBegun final.link.server.history < 2 ^ 31) :
    final.link.server.state.flash.bytes applicationFlashStart info.size = info.image ∧
    ∃ m, newestRecord final.link.server.state.flash = some m ∧ m.state = bootStateValidApplication ∧
      m.imageSize.toNat = info.size ∧ m.imageCrc32.toNat = info.imageCrc ∧ m.firmwareVersion.toNat = info.version ∧
      m.appRole.toNat = role := by
  have before : Waiting (settled (helloFrame ((start.sequence + 1) % 2 ^ 16)) fun _ => True) start.sequence start := by
    refine ⟨Exchange.Closed.open ⟨?_, ?_, trivial⟩, rfl⟩
    · simp [noRequests]
    · simp [noReplies]
  obtain ⟨bound, _, between⟩ := (flash_spec fresh parsed _ _ _ _).returns before returned
  obtain ⟨_, image, m, newest, describes⟩ := between.holds few
  obtain ⟨long, size, version, crc, same, whole, _⟩ := parse_eq_some parsed
  refine ⟨?_, m, newest, describes.state, ?_, ?_, ?_, ?_⟩
  · rw [← whole]
    exact image
  · rw [describes.imageSize, size]
    exact begin_field _ long (by decide)
  · rw [describes.imageCrc32, crc]
    exact begin_field _ long (by decide)
  · rw [describes.firmwareVersion, version]
    exact begin_field _ long (by decide)
  · rw [describes.appRole]
    exact (BitVec.toNat_ofNat _ _).trans (Nat.mod_eq_of_lt bound)

/-- A factory chip whose application has requested an update takes its image anew. -/
theorem flash_agreement_factory : ∃ start final : System ⟨factoryFlash, .reset⟩,
    Runs (flash 1 factoryPackage 1 false) start (.ok ()) final ∧
    final.link.server.state.flash.bytes applicationFlashStart factoryInfo.size = factoryInfo.image ∧
    ∃ m, newestRecord final.link.server.state.flash = some m ∧ m.state = bootStateValidApplication ∧
      m.imageSize.toNat = factoryInfo.size ∧ m.imageCrc32.toNat = factoryInfo.imageCrc ∧
      m.firmwareVersion.toNat = factoryInfo.version ∧ m.appRole.toNat = 1 := by
  obtain ⟨_, _, _, _, flash, m, run, _, _, _, two, _⟩ := requested_update zeroHeader
  have sound := sound_of_run factoryFlash_fresh run (Nat.lt_of_le_of_lt two (by decide))
  obtain ⟨first, recorded, append, _⟩ := append_completes_done setDefaultMetadata flash
  have one := recordPrograms_append_le sound.holds append
  obtain ⟨written, history, run', image, _, begun, completes⟩ := flash_runs run append
  have sound' := sound_of_run factoryFlash_fresh run' (by omega)
  have accepted := vectorImage_accepted (sealFor (newestRecord flash) setDefaultMetadata) 4 image
  obtain ⟨calls, flash', commit, _⟩ := append_completes_done
    (UpdateSession.committed ⟨sealFor (newestRecord flash) setDefaultMetadata, factoryHeader, 8, appRoleRx, true⟩) written
  have one' := recordPrograms_append_le sound'.holds commit
  have turned : Turned written _ (.frame ⟨protocolEnd, 4, []⟩) calls (some (.reply ⟨protocolComplete, 4, []⟩)) flash'
      .reset := .frame (.finished accepted commit) rfl
  obtain ⟨wire, encoded⟩ : ∃ wire, encode kindEnd 4 [] = some wire := ⟨_, rfl⟩
  have ended := @Runs.request _ _ ⟨history, _, run'⟩ _ _ 3 kindEnd 4 [] wire [kindComplete] encoded
    (Nat.zero_le _) turned.deviceStep (List.mem_singleton.mpr rfl)
  have returned := completes _ _ ended
  refine ⟨_, _, returned, flash_agreement factoryFlash_fresh parse_factoryPackage rfl rfl returned ?_⟩
  simp only [quiet, DeviceRun.next, recordsBegun_append, recordsBegun_single]
  omega

/-- The first END fails in an erase, and the record of the second one is number 2^31. -/
theorem sequence_wrap_loses_update : ∃ (session : UpdateSession) (start final : System ⟨factoryFlash, .reset⟩),
    start.link.server.state.mode = .updating session ∧ start.link.requests = [] ∧ start.link.replies = [] ∧
    parse factoryPackage = some factoryInfo ∧ Runs (flash 1 factoryPackage 1 false) start (.ok ()) final ∧
    ∀ m, newestRecord final.link.server.state.flash = some m → m.state ≠ bootStateValidApplication := by
  -- one slot of the secondary page is left, and BEGIN takes it
  obtain ⟨_, _, reaches, aged⟩ := nearly_wrapped
  obtain ⟨flash, m, more, filled, names, _⟩ := aged.setRole (by decide) (by decide)
  obtain ⟨history, run, _⟩ := reaches.trans more
  have booted := run.next (boot_updater filled.holds.newestRecord_eq names)
  obtain ⟨first, recorded, _, append, filled'⟩ := filled.append setDefaultMetadata (by decide) (by decide)
  obtain ⟨written, history', run', image, same, _, completes⟩ := flash_runs booted append
  have filled'' : Filled 169 (2 ^ 31 - 1) written (sealFor (some m) setDefaultMetadata) :=
    filled'.congr (by decide) fun a _ below => same a below
  -- the erase of the primary page is interrupted
  have accepted := vectorImage_accepted (sealFor (some m) setDefaultMetadata) 4 image
  obtain ⟨torn, stale, _, calls, failed⟩ := filled''.stale
    (UpdateSession.committed ⟨sealFor (some m) setDefaultMetadata, factoryHeader, 8, appRoleRx, true⟩)
  generalize metadata_ : sealFor (some (sealFor (some m) setDefaultMetadata)) _ = metadata at failed
  have refused : Turned written _ (.frame (requestFrame kindEnd ((3 + 1) % 2 ^ 16) [])) calls
      (some (.reply ⟨protocolError, 4, []⟩)) torn (.updating ⟨metadata, factoryHeader, 8, appRoleRx, true⟩) :=
    .frame (.finished accepted failed) rfl
  -- and the same END comes again
  have image' : torn.bytes applicationFlashStart 8 = vectorImage := by
    rw [← image]
    exact Flash.bytes_congr fun i _ => append_unchanged failed (Nat.le_add_right _ i)
  obtain ⟨calls', lost, _, commit, stale'⟩ := stale.append (Nat.lt_succ_self 0) (by decide)
    (UpdateSession.committed ⟨metadata, factoryHeader, 8, appRoleRx, true⟩)
  have completed : Turned torn _ (.frame (requestFrame kindEnd ((3 + 1) % 2 ^ 16) [])) calls'
      (some (.reply ⟨protocolComplete, 4, []⟩)) lost .reset :=
    .frame (.finished (vectorImage_accepted metadata 4 image') commit) rfl
  have again := @Runs.answered _ _ ⟨_, _, run'.next refused.deviceStep⟩ _ _ _ 4 3 [kindComplete] _ _ (Nat.zero_le _) rfl
    completed.deviceStep (.returned .refl)
  have ended :=
    @Runs.answered _ _ ⟨_, _, run'⟩ _ _ _ 4 4 [kindComplete] _ _ (Nat.zero_le _) rfl refused.deviceStep again
  obtain ⟨wire, encoded⟩ : ∃ wire, encode kindEnd 4 [] = some wire := ⟨_, rfl⟩
  have returned := completes _ _ (Runs.loop encoded ended)
  refine ⟨_, _, _, rfl, rfl, rfl, parse_factoryPackage, returned, ?_⟩
  intro newest same
  obtain rfl := Option.some.inj (stale'.newestRecord_eq.symm.trans same)
  exact show bootStateUpdateInProgress ≠ bootStateValidApplication by decide

end Cc1310Firmware.Host
