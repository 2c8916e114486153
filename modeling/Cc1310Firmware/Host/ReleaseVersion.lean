import Cc1310Firmware.Bootloader.InfoReport
import Cc1310Firmware.Host.BuildPipeline
import Cc1310Firmware.Host.BuildVersion
import Cc1310Firmware.Host.Commands

/-! The release version on its way: header, package, record of the bootloader, INFO. -/

set_option autoImplicit false

namespace Cc1310Firmware.Host
open LittleEndian Bootloader CrashProgram LabelledRun Reactive StopAndWait

/-! ### The records of a device -/

theorem deviceInfo_image (m : BootMetadata) :
    (deviceInfo (infoPayload m)).version = m.firmwareVersion.toNat ∧
    (deviceInfo (infoPayload m)).imageSize = m.imageSize.toNat := by
  have version : slice (infoPayload m) 16 20 = bytesOf m.firmwareVersion 4 := by
    simp [infoPayload, storeUint32Le, bytesOf, List.range_succ, slice]
  have size : slice (infoPayload m) 12 16 = bytesOf m.imageSize 4 := by
    simp [infoPayload, storeUint32Le, bytesOf, List.range_succ, slice]
  unfold deviceInfo
  rw [version, size, fromBytes_bytesOf, fromBytes_bytesOf]
  exact ⟨Nat.mod_eq_of_lt m.firmwareVersion.isLt, Nat.mod_eq_of_lt m.imageSize.isLt⟩

section
variable {chip : DeviceState} {start final : System chip} {package : List Byte} {info : Package}
  {role rounds : Nat} {allowApplication : Bool}

/-- The record that a flash leaves names the version of its package. -/
theorem described_of_flash (fresh : Fresh chip) (parsed : parse package = some info)
    (noRequests : start.link.requests = []) (noReplies : start.link.replies = [])
    (returned : Runs (flash rounds package role allowApplication) start (.ok ()) final)
    (few : recordsBegun final.link.server.history < 2 ^ 31) :
    (bootMetadata final.link.server.state.flash).firmwareVersion.toNat = info.version ∧
    (bootMetadata final.link.server.state.flash).imageSize.toNat = info.size := by
  have before : Waiting (settled (helloFrame ((start.sequence + 1) % 2 ^ 16)) fun _ => True) start.sequence start := by
    refine ⟨Exchange.Closed.open ⟨?_, ?_, trivial⟩, rfl⟩
    · simp [noRequests]
    · simp [noReplies]
  obtain ⟨_, _, between⟩ := (flash_spec fresh parsed _ _ _ _).returns before returned
  obtain ⟨_, _, m, newest, describes⟩ := between.holds few
  obtain ⟨long, size, version, _⟩ := parse_eq_some parsed
  rw [bootMetadata_of_some newest, describes.firmwareVersion, describes.imageSize, version, size]
  exact ⟨begin_field _ long (by decide), begin_field _ long (by decide)⟩

end

section
variable {k : Nat} {chip later : DeviceState} {history : List DeviceTransition}

/-- Without a BEGIN, DATA or END the device keeps what its records say of the image. -/
theorem keeps_of_run (sound : Sound k chip) (reset : chip.mode = .reset) (run : Run DeviceStep chip history later)
    (few : k + recordsBegun history < 2 ^ 31)
    (reads : ∀ x ∈ history, ReadsOnly [kindHello, kindSetRole] x.event.input) :
    Sound (k + recordsBegun history) later ∧ Keeps describedImage chip later := by
  induction run with
  | nil =>
    refine ⟨sound, fun _ _ => rfl, rfl, ?_⟩
    intro session updating
    rw [reset] at updating
    cases updating
  | @next history s t event _ step ih =>
    rw [recordsBegun_append, recordsBegun_single] at few ⊢
    obtain ⟨sound', keeps⟩ := ih (by omega) fun x member => reads x (List.mem_append_left _ member)
    have reads' := reads ⟨s, event, t⟩ (List.mem_append_right _ (List.mem_singleton_self _))
    rw [← Nat.add_assoc] at few ⊢
    exact ⟨step.turned.sound sound' few, keeps.step describedImage_untouched (by simp) step reads' sound' few⟩

/-- An INFO carries what the records say. -/
theorem info_of_keeps {s t : DeviceState} {event : DeviceEvent} {hello reply : ProtocolFrame}
    (keeps : Keeps describedImage chip s) (step : DeviceStep s event t) (input : event.input = .frame hello)
    (guard : isHello hello = true) (output : event.output = some (.reply reply)) :
    (deviceInfo reply.payload).version = (bootMetadata chip.flash).firmwareVersion.toNat ∧
    (deviceInfo reply.payload).imageSize = (bootMetadata chip.flash).imageSize.toNat := by
  have turned := step.turned
  rw [output] at turned
  obtain ⟨session, frame, next, mode, same, turn_, _⟩ := turned.of_reply
  rw [input] at same
  cases same
  cases turn_.of_hello guard
  have described := keeps.loaded session mode
  simp only [describedImage, Prod.mk.injEq] at described
  obtain ⟨size, _, version⟩ := described
  rw [← version, ← size]
  exact deviceInfo_image session.metadata

end

/-! ### The release version -/

/-- From firmware_build.h to the device and back: what build.sh packs for a header that parse_version accepts is
verified with its version, and so says every INFO of a device that was flashed with it, from its next reset on and
through restarts, failures and changes of role. -/
theorem release_version_reported {headerText version : List Char} {code : Nat}
    (parsed : parseVersion headerText = some (version, code)) {hexText : List Char} {values : HexData}
    (read : readIhex hexText = .ok values) (starts : values.Has 0x8000) :
    ∃ image package info, ihexToBin hexText 0x8000 0x1F000 = some image ∧
      build image 0x4343314D code = some package ∧ parse package = some info ∧ versionText info.version = some version ∧
      ∀ {chip : DeviceState} {start final : System chip} {role rounds : Nat} {allowApplication : Bool}, Fresh chip →
        start.link.requests = [] → start.link.replies = [] →
        Runs (flash rounds package role allowApplication) start (.ok ()) final →
        ∀ {history : List DeviceTransition} {later : DeviceState},
          Run DeviceStep ⟨final.link.server.state.flash, .reset⟩ history later →
          recordsBegun final.link.server.history + recordsBegun history < 2 ^ 31 →
          (∀ x ∈ history, ReadsOnly [kindHello, kindSetRole] x.event.input) →
          ∀ x ∈ history, ∀ hello reply, x.event.input = .frame hello → isHello hello = true →
            x.event.output = some (.reply reply) →
            versionText (deviceInfo reply.payload).version = some version ∧
              (deviceInfo reply.payload).imageSize = info.size := by
  have written := versionText_of_parse parsed
  have reserved : code ≤ 0x00FFFFFF := by
    obtain ⟨major, minor, patch, major_, minor_, patch_, rfl, _⟩ := versionText_iff.mp written
    rw [packed_eq minor_ patch_]
    omega
  obtain ⟨last, image, extract, extracted⟩ := extractImage_of_has starts (show 0x8000 < 0x1F000 by decide)
  have length : image.length = last + 1 - 0x8000 := by rw [extracted.image, List.length_map, List.length_range]
  have inside := extracted.inside
  have first := extracted.first
  have nonempty : image ≠ [] := by
    rintro rfl
    rw [List.length_nil] at length
    omega
  have fits : (image.length + 3) / 4 * 4 ≤ maxImageSize := by
    unfold maxImageSize
    omega
  have some_ : padded image ≠ [] := fun empty => nonempty (List.append_eq_nil_iff.mp empty).1
  have carries := builtHeader_carries 0x4343314D some_ (by rw [length_padded]; exact fits) reserved
  have parsed' := (parse_bytes _ _ _).mpr ⟨carries, rfl⟩
  have number : (builtHeader 0x4343314D code (padded image)).firmwareVersion.toNat = code :=
    BitVec.toNat_ofNat .. |>.trans (Nat.mod_eq_of_lt (Nat.lt_of_le_of_lt reserved (by decide)))
  refine ⟨image, _, _, ?_, build_eq nonempty fits (by decide) reserved, parsed', ?_, ?_⟩
  · rw [ihexToBin, read]
    exact extract
  · exact (congrArg versionText number).trans written
  intro chip start final role rounds allowApplication fresh noRequests noReplies returned history later run few reads x
    member hello reply input guard output
  obtain ⟨version_, size⟩ := described_of_flash fresh parsed' noRequests noReplies returned (by omega)
  have sound := sound_of_run fresh final.link.server.run (Nat.lt_of_le_of_lt (Nat.le_add_right _ _) few)
  have sound' : Sound (recordsBegun final.link.server.history) ⟨final.link.server.state.flash, .reset⟩ :=
    ⟨sound.holds, fun _ resting => by cases resting⟩
  obtain ⟨before, after, rfl⟩ := List.append_of_mem member
  obtain ⟨earlier, step, _⟩ := run.split
  rw [recordsBegun_append] at few
  obtain ⟨_, keeps⟩ :=
    keeps_of_run sound' rfl earlier (by omega) fun y inBefore => reads y (List.mem_append_left _ inBefore)
  obtain ⟨reported, size'⟩ := info_of_keeps keeps step input guard output
  rw [reported, size', version_, size]
  exact ⟨(congrArg versionText number).trans written, rfl⟩

/-! ### A chip that takes version 0.0.0 -/

/-- The flash of a factory chip whose application has requested an update. -/
theorem factory_flash_runs : ∃ start final : System ⟨factoryFlash, .reset⟩, start.link.requests = [] ∧
    start.link.replies = [] ∧ Runs (flash 1 factoryPackage 1 false) start (.ok ()) final ∧
    recordsBegun final.link.server.history ≤ 4 := by
  obtain ⟨_, _, _, _, flash, m, run, _, _, _, two, _⟩ := requested_update zeroHeader
  have sound := sound_of_run factoryFlash_fresh run (Nat.lt_of_le_of_lt two (by decide))
  obtain ⟨first, recorded, append, _⟩ := append_completes_done setDefaultMetadata flash
  have one := recordPrograms_append_le sound.holds append
  obtain ⟨written, history, run', image, _, begun, completes⟩ := flash_runs run append
  have sound' := sound_of_run factoryFlash_fresh run' (by omega)
  have accepted := vectorImage_accepted (sealFor (newestRecord flash) setDefaultMetadata) 4 image
  obtain ⟨calls, flash', commit, _⟩ := append_completes_done
    (UpdateSession.committed ⟨sealFor (newestRecord flash) setDefaultMetadata, factoryHeader, 8, appRoleRx, true⟩) written
  have one' := recordPrograms_append_le sound'.holds commit
  have turned : Turned written _ (.frame ⟨protocolEnd, 4, []⟩) calls (some (.reply ⟨protocolComplete, 4, []⟩)) flash'
      .reset := .frame (.finished accepted commit) rfl
  obtain ⟨wire, encoded⟩ : ∃ wire, encode kindEnd 4 [] = some wire := ⟨_, rfl⟩
  have ended := @Runs.request _ _ ⟨history, _, run'⟩ _ _ 3 kindEnd 4 [] wire [kindComplete] encoded
    (Nat.zero_le _) turned.deviceStep (List.mem_singleton.mpr rfl)
  refine ⟨_, _, rfl, rfl, completes _ _ ended, ?_⟩
  simp only [quiet, DeviceRun.next, recordsBegun_append, recordsBegun_single]
  omega

/-- Whatever a chip holds, a start can end in the updater: at once, or because the attempt is not recorded. -/
theorem updater_of_reset {k : Nat} {flash : Flash} (sound : Sound k ⟨flash, .reset⟩) (room : k + 1 < 2 ^ 31)
    (stack : FirmwarePackageHeader) : ∃ event m, event.input = .boot stack ∧ recordPrograms event.calls ≤ 1 ∧
      DeviceStep ⟨flash, .reset⟩ event ⟨flash, .updating (.start m stack)⟩ := by
  cases boots : bootsApplication flash (bootMetadata flash) with
  | false =>
    have stays : Turned flash .reset (.boot stack) [] (some .silent) flash _ := .bootUpdate boots
    exact ⟨⟨.boot stack, [], some .silent⟩, _, rfl, by rw [recordPrograms_nil]; exact Nat.zero_le 1,
      stays.deviceStep⟩
  | true =>
    obtain ⟨calls, code, failed, begun, append⟩ := append_can_fail (bootMetadata flash).attempted sound.holds room
    have ended : conclude (afterAttempt stack)
        (.returned (sealFor (newestRecord flash) (bootMetadata flash).attempted, code)) = (some .silent, .updating
          (.start (sealFor (newestRecord flash) (bootMetadata flash).attempted) stack)) := by
      simp only [conclude, afterAttempt, bne_iff_ne, ne_eq, failed, not_false_eq_true, if_true]
    have attempt : Turned flash .reset (.boot stack) calls (some .silent) flash _ := .bootAttempt boots append ended
    exact ⟨⟨.boot stack, calls, some .silent⟩, _, rfl, begun, attempt.deviceStep⟩

theorem release_version_reported_zero : ∃ (start final : System ⟨factoryFlash, .reset⟩)
    (history : List DeviceTransition) (later : DeviceState) (reply : ProtocolFrame),
    Runs (flash 1 factoryPackage 1 false) start (.ok ()) final ∧
    Run DeviceStep ⟨final.link.server.state.flash, .reset⟩ history later ∧
    (∃ x ∈ history, x.event.output = some (.reply reply)) ∧
    versionText (deviceInfo reply.payload).version = some "0.0.0".toList := by
  have parsed : parseVersion "#define FIRMWARE_VERSION \"0.0.0\"\n".toList = some ("0.0.0".toList, 0) := by
    decide +kernel
  have read : readIhex vectorHex = .ok (HexData.update [] 0x8000 vectorImage) := by decide +kernel
  have extract : ihexToBin vectorHex 0x8000 0x1F000 = some vectorImage := by decide +kernel
  have built : build vectorImage 0x4343314D 0 = some factoryPackage := by decide +kernel
  obtain ⟨image, package, info, extract', built', _, _, reported⟩ :=
    release_version_reported parsed read ⟨0, by decide⟩
  obtain rfl := Option.some.inj (extract.symm.trans extract')
  obtain rfl := Option.some.inj (built.symm.trans built')
  obtain ⟨start, final, noRequests, noReplies, returned, few⟩ := factory_flash_runs
  have sound := sound_of_run factoryFlash_fresh final.link.server.run (Nat.lt_of_le_of_lt few (by decide))
  have sound' : Sound (recordsBegun final.link.server.history) ⟨final.link.server.state.flash, .reset⟩ :=
    ⟨sound.holds, fun _ resting => by cases resting⟩
  obtain ⟨event, m, input, one, boot⟩ := updater_of_reset sound' (by omega) zeroHeader
  have turned : Turned final.link.server.state.flash (.updating (.start m zeroHeader)) (.frame (helloFrame 1)) []
      (some (.reply ⟨protocolInfo, 1, infoPayload m⟩)) final.link.server.state.flash
      (.updating (.start m zeroHeader)) := .frame (.hello rfl) rfl
  have run := (Run.single boot).next turned.deviceStep
  refine ⟨start, final, _, _, ⟨protocolInfo, 1, infoPayload m⟩, returned, run, ⟨_, List.mem_append_right _
    (List.mem_singleton_self _), rfl⟩, ?_⟩
  refine (reported factoryFlash_fresh noRequests noReplies returned run ?_ ?_ _ (List.mem_append_right _
    (List.mem_singleton_self _)) _ _ rfl rfl rfl).1
  · simp only [recordsBegun_append, recordsBegun_single, recordPrograms_nil]
    omega
  · intro x member frame same
    rcases List.mem_append.mp member with first | second
    · rw [List.mem_singleton.mp first] at same
      cases input.symm.trans same
    · rw [List.mem_singleton.mp second] at same
      cases same
      exact ⟨kindHello, List.mem_cons_self, rfl⟩

end Cc1310Firmware.Host
