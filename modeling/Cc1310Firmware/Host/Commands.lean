import Cc1310Firmware.Bootloader.ImageSafety
import Cc1310Firmware.Host.ApplicationProbe
import Cc1310Firmware.Host.FlashAgreement

/-! The commands set-role and info of fw_update.py, and what they cannot do.

A command is bounded by what it sends. These two send HELLO and SET_ROLE, so the device
keeps its image whatever becomes of them, on a line that loses and delays frames.
-/

set_option autoImplicit false

namespace Cc1310Firmware.Host
open LittleEndian Bootloader LabelledRun Reactive StopAndWait

def kindSetRole : Nat := 11

def setRole (role : Nat) (allowApplication : Bool) : HostProgram Unit := do
  let _ ← connect allowApplication
  let role ← orRaise .overflowError (toBytes4 role)
  let _ ← request kindSetRole role [kindComplete] frameRetries
  return ()

/-- The branch of run for info: the device answers, or its application does. -/
def runInfo : HostProgram (DeviceInfo ⊕ Fields) :=
  tryCatch (do return .inl (← info probeRetries)) fun error =>
    if error = .timeoutError then do
      match ← probeFields with
      | none => throw .timeoutError
      | some fields => return .inr fields
    else throw error

/-! ### What the commands send -/

/-- The frames and the texts that a command sends. -/
def Sends (kinds : List Nat) (texts : List String) : HostAction → Prop
  | .write wire => ∃ kind sequence payload, kind ∈ kinds ∧ payload.length ≤ 4 ∧
      wire = wireOf (requestFrame kind sequence payload)
  | .command text => text ∈ texts
  | _ => True

section
variable {kinds : List Nat} {texts : List String}

theorem requestLoop_sends {wire : List Byte} (sends : Sends kinds texts (.write wire)) (sequence : Nat)
    (expected : List Nat) (retries : Nat) :
    (requestLoop wire sequence expected retries).Performs (Sends kinds texts) := by
  induction retries with
  | zero => trivial
  | succ retries ih =>
    unfold requestLoop
    refine performs_bind ⟨sends, fun _ => trivial⟩ fun _ =>
      performs_bind ⟨trivial, fun _ => trivial⟩ fun answer => ?_
    rcases answer with _ | ⟨response, number, payload⟩
    · exact ih
    · dsimp only
      split
      · trivial
      · exact ih

theorem request_sends {kind : Nat} {payload : List Byte} (listed : kind ∈ kinds) (short : payload.length ≤ 4)
    (expected : List Nat) (retries : Nat) :
    (request kind payload expected retries).Performs (Sends kinds texts) := by
  refine performs_bind ⟨trivial, fun _ => trivial⟩ fun sequence => ?_
  cases encoded : encode kind sequence payload with
  | none => trivial
  | some frame => exact requestLoop_sends ⟨kind, sequence, payload, listed, short, encode_wireOf encoded⟩ _ _ _

theorem info_sends (listed : kindHello ∈ kinds) (retries : Nat) : (info retries).Performs (Sends kinds texts) := by
  refine performs_bind (@request_sends _ _ _ [] listed (Nat.zero_le 4) _ _) fun answer => ?_
  dsimp only
  split
  · trivial
  · trivial

theorem command_sends {text : String} (listed : text ∈ texts) : (command text).Performs (Sends kinds texts) :=
  ⟨listed, fun _ => trivial⟩

/-- The probe asks for the version, and for the commands. -/
theorem probeFields_sends (listed : ∀ text ∈ ["", "version", "help"], text ∈ texts) :
    probeFields.Performs (Sends kinds texts) := by
  refine performs_bind (command_sends (listed "" (by simp))) fun _ => ?_
  refine performs_bind (command_sends (listed "version" (by simp))) fun lines => ?_
  dsimp only
  split
  · trivial
  · split
    · exact performs_bind (command_sends (listed "help" (by simp))) fun _ => trivial
    · trivial

theorem enterBootloader_sends (listed : kindHello ∈ kinds) (text : "bootloader" ∈ texts) :
    enterBootloader.Performs (Sends kinds texts) := by
  refine performs_bind (command_sends text) fun replies => ?_
  split
  · trivial
  · exact performs_bind ⟨trivial, fun _ => trivial⟩ fun _ => info_sends listed _

theorem connect_sends (listed : kindHello ∈ kinds)
    (texts_ : ∀ text ∈ ["", "version", "help", "bootloader"], text ∈ texts) (allowApplication : Bool) :
    (connect allowApplication).Performs (Sends kinds texts) := by
  refine performs_tryCatch (info_sends listed _) fun error => ?_
  split
  · unfold connectApplication
    split
    · trivial
    · rw [probeApplication_eq]
      refine performs_bind (performs_bind (probeFields_sends ?_) fun _ => trivial) fun answered => ?_
      · intro text member
        exact texts_ text (by simp only [List.mem_cons] at member ⊢; tauto)
      · split
        · trivial
        · exact enterBootloader_sends listed (texts_ "bootloader" (by simp))
  · trivial

end

theorem length_toBytes4 {value : Nat} {bytes : List Byte} (fits : toBytes4 value = some bytes) :
    bytes.length = 4 := by
  obtain ⟨_, rfl⟩ := toBytes4_eq_some fits
  exact length_bytesOf _ 4

/-- set-role sends HELLO and SET_ROLE, and reboots the application by its own command. -/
theorem setRole_sends (role : Nat) (allowApplication : Bool) : (setRole role allowApplication).Performs
    (Sends [kindHello, kindSetRole] ["", "version", "help", "bootloader"]) := by
  refine performs_bind (connect_sends (by simp) (fun _ => id) _) fun _ => ?_
  cases fits : toBytes4 role with
  | none => trivial
  | some bytes =>
    change Program.Performs _ (request kindSetRole bytes [kindComplete] frameRetries >>= fun _ => pure ())
    exact performs_bind (request_sends (by simp) (Nat.le_of_eq (length_toBytes4 fits)) _ _) fun _ => trivial

/-- info sends HELLO only, and does not ask the application to go. -/
theorem runInfo_sends : runInfo.Performs (Sends [kindHello] ["", "version", "help"]) := by
  refine performs_tryCatch (performs_bind (info_sends (by simp) _) fun _ => trivial) fun error => ?_
  split
  · refine performs_bind (probeFields_sends fun _ => id) fun fields => ?_
    cases fields with
    | none | some => trivial
  · trivial

/-! ### What the device keeps -/

/-- What a record says of the image. -/
def describedImage (m : BootMetadata) : Word × Word × Word := (m.imageSize, m.imageCrc32, m.firmwareVersion)

/-- What a record says of the application. -/
def describedApplication (m : BootMetadata) : (Word × Word × Word) × Word := (describedImage m, m.appRole)

/-- A part of the records that a device without an update does not touch. -/
structure Untouched {α : Type} (view : BootMetadata → α) (kinds : List Nat) : Prop where
  sealed : ∀ value m, view (sealFor value m) = view m
  attempted : ∀ m, view m.attempted = view m
  confirmed : ∀ m id, view (m.confirmed id) = view m
  requested : ∀ m, view { m with state := bootStateUpdateRequested } = view m
  role : kindSetRole ∈ kinds → ∀ m role,
    view { m with state := bootStateValidApplication, appRole := role } = view m

theorem describedImage_untouched : Untouched describedImage [kindHello, kindSetRole] where
  sealed _ _ := rfl
  attempted _ := rfl
  confirmed m id := by rw [confirmed_eq]; rfl
  requested _ := rfl
  role _ _ _ := rfl

theorem describedApplication_untouched : Untouched describedApplication [kindHello] where
  sealed _ _ := rfl
  attempted _ := rfl
  confirmed m id := by rw [confirmed_eq]; rfl
  requested _ := rfl
  role listed := by simp [kindHello, kindSetRole] at listed

/-- The App slot is as it was, and so is this part of the records. -/
structure Keeps {α : Type} (view : BootMetadata → α) (start state : DeviceState) : Prop where
  slot : ∀ a, applicationFlashStart ≤ a → state.flash a = start.flash a
  stored : view (bootMetadata state.flash) = view (bootMetadata start.flash)
  loaded : ∀ session, state.mode = .updating session → view session.metadata = view (bootMetadata start.flash)

/-- The frames of the host that the device gets to see. -/
def ReadsOnly (kinds : List Nat) (input : Input) : Prop :=
  ∀ frame, input = .frame frame → ∃ kind ∈ kinds, frame.messageType = BitVec.ofNat 8 kind

section
variable {α : Type} {view : BootMetadata → α} {kinds : List Nat} {start s t : DeviceState} {event : DeviceEvent}
  {m : BootMetadata}

theorem type_of_reads {frame : ProtocolFrame} (plain : ∀ kind ∈ kinds, kind = kindHello ∨ kind = kindSetRole)
    (reads : ReadsOnly kinds (.frame frame)) :
    frame.messageType = protocolHello ∨ frame.messageType = protocolSetRole ∧ kindSetRole ∈ kinds := by
  obtain ⟨kind, listed, type⟩ := reads frame rfl
  rcases plain kind listed with rfl | rfl
  · exact .inl type
  · exact .inr ⟨type, listed⟩

theorem record_keeps (untouched : Untouched view kinds)
    (plain : ∀ kind ∈ kinds, kind = kindHello ∨ kind = kindSetRole) (keeps : Keeps view start s)
    (record : TurnRecord s.flash s.mode event.input m) (reads : ReadsOnly kinds event.input) :
    view m = view (bootMetadata start.flash) := by
  generalize mode : s.mode = here at record
  generalize input : event.input = given at record reads
  cases record with
  | attempt => rw [untouched.attempted, keeps.stored]
  | confirm newest => rw [untouched.confirmed, ← bootMetadata_of_some newest, keeps.stored]
  | request => exact (untouched.requested _).trans keeps.stored
  | begins guard =>
    rcases type_of_reads plain reads with type | ⟨type, _⟩ <;>
      simp [isBegin, type, protocolBegin, protocolHello, protocolSetRole] at guard
  | ends guard =>
    rcases type_of_reads plain reads with type | ⟨type, _⟩ <;>
      simp [endAccepted, type, protocolEnd, protocolHello, protocolSetRole] at guard
  | setsRole guard =>
    rcases type_of_reads plain reads with type | ⟨_, listed⟩
    · simp [setRoleAccepted, type, protocolHello, protocolSetRole] at guard
    · exact (untouched.role listed _ _).trans (keeps.loaded _ mode)

/-- HELLO and SET_ROLE leave the App slot alone. -/
theorem slot_of_reads (step : DeviceStep s event t) (plain : ∀ kind ∈ kinds, kind = kindHello ∨ kind = kindSetRole)
    (reads : ReadsOnly kinds event.input) {a : Nat} (lo : applicationFlashStart ≤ a) : t.flash a = s.flash a := by
  by_cases noFrame : ∀ frame, event.input ≠ .frame frame
  · exact step.slot_of_idle noFrame lo
  push Not at noFrame
  obtain ⟨frame, input⟩ := noFrame
  obtain ⟨flash, mode⟩ := s
  obtain ⟨flash', mode'⟩ := t
  obtain ⟨_, calls, output⟩ := event
  have turned := step.turned
  dsimp only at turned input reads ⊢
  subst input
  have type := type_of_reads plain reads
  cases turned with
  | frame turn_ =>
    cases turn_ with
    | hello | refused | notProgrammed | rejected => rfl
    | roleSet _ append => exact append_unchanged append lo
    | unrecorded guard | recorded guard =>
      rcases type with type | ⟨type, _⟩ <;> simp [isBegin, type, protocolBegin, protocolHello,
        protocolSetRole] at guard
    | block guard =>
      rcases type with type | ⟨type, _⟩ <;> simp [isData, type, protocolData, protocolHello,
        protocolSetRole] at guard
    | finished guard =>
      rcases type with type | ⟨type, _⟩ <;>
        simp [endAccepted, type, protocolEnd, protocolHello, protocolSetRole] at guard

/-- One turn of the device. -/
theorem Keeps.step {k : Nat} (untouched : Untouched view kinds)
    (plain : ∀ kind ∈ kinds, kind = kindHello ∨ kind = kindSetRole) (keeps : Keeps view start s)
    (step : DeviceStep s event t) (reads : ReadsOnly kinds event.input) (sound : Sound k s)
    (room : k + recordPrograms event.calls < 2 ^ 31) : Keeps view start t := by
  have register := step.turned.registerTurn sound room
  refine ⟨fun a lo => (slot_of_reads step plain reads lo).trans (keeps.slot a lo), ?_, ?_⟩
  · rcases register.atomic with same | ⟨m, record, new⟩
    · rw [bootMetadata_congr same, keeps.stored]
    · rw [bootMetadata_of_some new, untouched.sealed]
      exact record_keeps untouched plain keeps record reads
  · intro session' mode
    have turned := step.turned
    rw [mode] at turned
    rcases turned.metadata with ⟨_, same⟩ | ⟨session, updating, same⟩ | ⟨m, record, same⟩
    · rw [same, keeps.stored]
    · rw [same, keeps.loaded session updating]
    · rw [same, untouched.sealed]
      exact record_keeps untouched plain keeps record reads

end

/-! ### Whatever becomes of a command -/

/-- On the line are requests of these kinds, and the device keeps what it keeps. -/
structure Unharmed {α : Type} (view : BootMetadata → α) (kinds : List Nat) {chip : DeviceState}
    (start : DeviceState) (s : System chip) : Prop where
  requests : ∀ wire ∈ s.link.requests, Sends kinds [] (.write wire)
  keeps : recordsBegun s.link.server.history < 2 ^ 31 → Keeps view start s.link.server.state

section
variable {α : Type} {view : BootMetadata → α} {kinds : List Nat} {chip start : DeviceState}

theorem Keeps.next (fresh : Fresh chip) (untouched : Untouched view kinds)
    (plain : ∀ kind ∈ kinds, kind = kindHello ∨ kind = kindSetRole) {device : DeviceRun chip} {event : DeviceEvent}
    {t : DeviceState} (step : DeviceStep device.state event t) (reads : ReadsOnly kinds event.input)
    (keeps : recordsBegun device.history < 2 ^ 31 → Keeps view start device.state)
    (few : recordsBegun (device.next step).history < 2 ^ 31) : Keeps view start (device.next step).state := by
  simp only [DeviceRun.next, recordsBegun_append, recordsBegun_single] at few
  have few' : recordsBegun device.history < 2 ^ 31 := by omega
  exact (keeps few').step untouched plain step reads (sound_of_run fresh device.run few') few

/-- Nothing that happens on the line or in the device on its own does harm. -/
theorem stable_unharmed (fresh : Fresh chip) (untouched : Untouched view kinds)
    (plain : ∀ kind ∈ kinds, kind = kindHello ∨ kind = kindSetRole) :
    Stable Moves (@Unharmed α view kinds chip start) := by
  rintro ⟨number, link⟩ ⟨number', link'⟩ ⟨step, _⟩ ⟨requests, keeps⟩
  dsimp only at step requests keeps
  cases step with
  | lost fewer => exact ⟨fun wire member => requests wire (fewer.subset member), keeps⟩
  | @served server server' request answer rest replies serves =>
    obtain ⟨kind, sequence, payload, listed, short, rfl⟩ := requests _ List.mem_cons_self
    obtain ⟨event, t, step, input, rfl, _⟩ := serves_wireOf (Nat.le_trans short (by decide)) serves
    refine ⟨fun wire member => requests wire (List.mem_cons_of_mem _ member), ?_⟩
    apply Keeps.next fresh untouched plain step ?_ keeps
    rintro frame same
    rw [input] at same
    cases same
    exact ⟨kind, listed, rfl⟩
  | idled idles =>
    cases idles with
    | turn step noFrame => exact ⟨requests, Keeps.next fresh untouched plain step
        (fun frame same => absurd same (noFrame frame)) keeps⟩

theorem unharmed_acts {texts : List String} (action : HostAction) (s : System chip) (response : action.Response)
    (t : System chip) (sends : Sends kinds texts action) (unharmed : Unharmed view kinds start s)
    (does : Does action s response t) : Unharmed view kinds start t := by
  obtain ⟨requests, keeps⟩ := unharmed
  cases action with
  | nextSequence =>
    obtain ⟨_, rfl⟩ := does
    exact ⟨requests, keeps⟩
  | write frame =>
    obtain rfl : t = _ := does
    refine ⟨?_, keeps⟩
    intro wire member
    rcases List.mem_append.mp member with old | new
    · exact requests wire old
    · rw [List.mem_singleton.mp new]
      exact sends
  | readFrame =>
    rcases does with ⟨_, rfl⟩ | ⟨_, _, _, _, _, rfl⟩
    · exact ⟨requests, keeps⟩
    · exact ⟨requests, keeps⟩
  | command =>
    obtain ⟨_, _, rfl⟩ := does
    exact ⟨requests, keeps⟩
  | resetInputBuffer =>
    obtain rfl : t = _ := does
    exact ⟨requests, keeps⟩

/-- A command that sends no more than this keeps it, however it ends. -/
theorem keeps_of_sends {β : Type} (fresh : Fresh chip) (untouched : Untouched view kinds)
    (plain : ∀ kind ∈ kinds, kind = kindHello ∨ kind = kindSetRole) {texts : List String} {program : HostProgram β}
    (sends : program.Performs (Sends kinds texts)) {s t : System chip} {outcome : Except HostError β}
    (noRequests : s.link.requests = [])
    (loaded : ∀ session, s.link.server.state.mode = .updating session →
      view session.metadata = view (bootMetadata s.link.server.state.flash))
    (ran : Runs program s outcome t) (few : recordsBegun t.link.server.history < 2 ^ 31) :
    Keeps view s.link.server.state t.link.server.state := by
  have before : Unharmed view kinds s.link.server.state s :=
    ⟨by simp [noRequests], fun _ => ⟨fun _ _ => rfl, rfl, loaded⟩⟩
  exact (Exec.keeps (stable_unharmed fresh untouched plain) unharmed_acts ran sends before).keeps few

end

/-- A device whose application has asked for an update takes the role TX. -/
theorem setRole_runs : ∃ (start final : System ⟨factoryFlash, .reset⟩) (m : BootMetadata)
    (stack : FirmwarePackageHeader),
    start.link.requests = [] ∧ start.link.replies = [] ∧ newestRecord start.link.server.state.flash = some m ∧
    start.link.server.state.mode = .updating (.start m stack) ∧
    Runs (setRole 2 false) start (.ok ()) final ∧ recordsBegun final.link.server.history < 2 ^ 31 := by
  obtain ⟨_, _, _, _, flash, m, run, _, _, _, two, newest, _, image⟩ := requested_update zeroHeader
  obtain ⟨history, run', begun, connected⟩ := connect_runs run
  have sound := sound_of_run factoryFlash_fresh run' (by omega)
  have accepted : setRoleAccepted flash (.start m zeroHeader) (requestFrame kindSetRole 2 (bytesOf (2 : Word) 4)) =
      true := by
    have role : loadUint32Le (bytesOf (2 : Word) 4) 0 = 2 := by decide
    simp only [setRoleAccepted, requestFrame, role]
    exact image
  obtain ⟨calls, flash', commit, _⟩ := append_completes_done
    (UpdateSession.withRole (.start m zeroHeader) (requestFrame kindSetRole 2 (bytesOf (2 : Word) 4))) flash
  have one := recordPrograms_append_le sound.holds commit
  have turned : Turned flash _ (.frame (requestFrame kindSetRole 2 (bytesOf (2 : Word) 4))) calls
      (some (.reply ⟨protocolComplete, 2, []⟩)) flash' .reset := .frame (.roleSet accepted commit) rfl
  obtain ⟨wire, encoded⟩ : ∃ wire, encode kindSetRole 2 (bytesOf (2 : Word) 4) = some wire := ⟨_, rfl⟩
  have requested := @Runs.request _ _ ⟨history, _, run'⟩ _ _ 1 kindSetRole 4 _ wire [kindComplete] encoded
    (by decide) turned.deviceStep (List.mem_singleton.mpr rfl)
  have returned : Runs (setRole 2 false) _ (.ok ()) _ :=
    Exec.bind connected (Exec.bind (.returned .refl) (Exec.bind requested (.returned .refl)))
  refine ⟨quiet 0 ⟨_, _, run⟩, _, m, zeroHeader, rfl, rfl, newest, rfl, returned, ?_⟩
  simp only [quiet, DeviceRun.next, recordsBegun_append, recordsBegun_single]
  omega

/-- Whether they return or raise an exception, set-role leaves the image and its description as they were, and info the
role besides. -/
theorem commands_keep_image {chip : DeviceState} (fresh : Fresh chip) {start : System chip}
    (noRequests : start.link.requests = [])
    (loaded : ∀ session, start.link.server.state.mode = .updating session →
      describedApplication session.metadata = describedApplication (bootMetadata start.link.server.state.flash)) :
    (∀ role allowApplication outcome (final : System chip),
      Runs (setRole role allowApplication) start outcome final →
      recordsBegun final.link.server.history < 2 ^ 31 →
      (∀ a, applicationFlashStart ≤ a → final.link.server.state.flash a = start.link.server.state.flash a) ∧
      describedImage (bootMetadata final.link.server.state.flash) =
        describedImage (bootMetadata start.link.server.state.flash)) ∧
    (∀ outcome (final : System chip), Runs runInfo start outcome final →
      recordsBegun final.link.server.history < 2 ^ 31 →
      (∀ a, applicationFlashStart ≤ a → final.link.server.state.flash a = start.link.server.state.flash a) ∧
      describedApplication (bootMetadata final.link.server.state.flash) =
        describedApplication (bootMetadata start.link.server.state.flash)) := by
  constructor
  · intro role allowApplication outcome final ran few
    have keeps :=
      keeps_of_sends fresh describedImage_untouched (by simp) (setRole_sends role allowApplication) noRequests
      (fun session mode => congrArg Prod.fst (loaded session mode)) ran few
    exact ⟨keeps.slot, keeps.stored⟩
  · intro outcome final ran few
    have keeps :=
      keeps_of_sends fresh describedApplication_untouched (by simp) runInfo_sends noRequests loaded ran few
    exact ⟨keeps.slot, keeps.stored⟩

theorem commands_keep_image_tx : ∃ (start final : System ⟨factoryFlash, .reset⟩),
    Runs (setRole 2 false) start (.ok ()) final ∧
    (∀ a, applicationFlashStart ≤ a → final.link.server.state.flash a = start.link.server.state.flash a) ∧
    describedImage (bootMetadata final.link.server.state.flash) =
      describedImage (bootMetadata start.link.server.state.flash) := by
  obtain ⟨start, final, m, stack, noRequests, _, newest, mode, returned, few⟩ := setRole_runs
  refine ⟨start, final, returned,
    (commands_keep_image factoryFlash_fresh noRequests ?_).1 2 false (.ok ()) final returned few⟩
  intro session updating
  rw [mode] at updating
  cases updating
  rw [bootMetadata_of_some newest]
  rfl

end Cc1310Firmware.Host
