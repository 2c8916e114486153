import Cc1310Firmware.Bootloader.ReadyBoots
import Cc1310Firmware.Host.Commands
import Cc1310Firmware.Host.ProbedDevice

/-! A set-role that returns: the record it leaves, the start after it and the banner that the host reads then. -/

set_option autoImplicit false

namespace Cc1310Firmware.Host
open LittleEndian Bootloader LabelledRun Reactive StopAndWait
open I2cSlave (FirmwareRole)
open Cli

/-- The newest record is VALID, with this role and an intact image. -/
def RoleStored (role : Word) (flash : Flash) : Prop :=
  ∃ m, newestRecord flash = some m ∧ m.state = bootStateValidApplication ∧ m.appRole = role ∧
    isApplicationImageValid flash m = true

abbrev setRoleRequest (sequence : Nat) (role : Word) : ProtocolFrame :=
  requestFrame kindSetRole sequence (bytesOf role 4)

theorem setRoleRequest_role (sequence : Nat) (role : Word) :
    loadUint32Le (setRoleRequest sequence role).payload 0 = role := by
  have value := loadUint32Le_bytesOf role []
  rw [List.append_nil] at value
  exact value

section
variable {k sequence : Nat} {role : Word} {s t : DeviceState} {event : DeviceEvent} {m : BootMetadata}

theorem imageValid_of_slot {flash flash' : Flash} (same : ∀ a, applicationFlashStart ≤ a → flash' a = flash a)
    (valid : isApplicationImageValid flash m = true) : isApplicationImageValid flash' m = true := by
  rw [(imageValid_congr same).2]
  exact valid

theorem slot_of_setRole (step : DeviceStep s event t) (input : event.input = .frame (setRoleRequest sequence role))
    {a : Nat} (lo : applicationFlashStart ≤ a) : t.flash a = s.flash a := by
  have reads : ReadsOnly [kindSetRole] event.input := by
    rintro frame same
    rw [input] at same
    cases same
    exact ⟨kindSetRole, List.mem_singleton.mpr rfl, rfl⟩
  exact slot_of_reads step (by simp) reads lo

/-- The record that SET_ROLE stores. -/
theorem roleStored_of_record (step : DeviceStep s event t)
    (input : event.input = .frame (setRoleRequest sequence role)) (record : TurnRecord s.flash s.mode event.input m)
    (new : newestRecord t.flash = some (sealFor (newestRecord s.flash) m)) :
    RoleStored role t.flash := by
  have slot : ∀ a, applicationFlashStart ≤ a → t.flash a = s.flash a := fun a => slot_of_setRole step input
  generalize mode : s.mode = here at record
  rw [input] at record
  cases record with
  | begins guard => simp [isBegin, requestFrame, kindSetRole, protocolBegin] at guard
  | ends guard => simp [endAccepted, requestFrame, kindSetRole, protocolEnd] at guard
  | @setsRole session _ accepted =>
    simp only [setRoleAccepted, Bool.and_eq_true] at accepted
    have role_ : (session.withRole (setRoleRequest sequence role)).appRole = role :=
      setRoleRequest_role sequence role
    exact ⟨_, new, rfl, role_, imageValid_of_slot slot accepted.2⟩

/-- A copy of SET_ROLE stores the role once more, or does nothing. -/
theorem RoleStored.serve (stored : RoleStored role s.flash) (step : DeviceStep s event t)
    (input : event.input = .frame (setRoleRequest sequence role)) (sound : Sound k s)
    (room : k + recordPrograms event.calls < 2 ^ 31) : RoleStored role t.flash := by
  rcases (step.turned.registerTurn sound room).atomic with same | ⟨m, record, new⟩
  · obtain ⟨m, newest, state, role_, image⟩ := stored
    exact ⟨m, same.trans newest, state, role_, imageValid_of_slot (fun a => slot_of_setRole step input) image⟩
  · exact roleStored_of_record step input record new

/-- A start, or its confirmation, keeps the role. -/
theorem RoleStored.idle (stored : RoleStored role s.flash) (step : DeviceStep s event t)
    (noFrame : ∀ frame, event.input ≠ .frame frame) (noRequest : event.input ≠ .requestUpdate) (sound : Sound k s)
    (room : k + recordPrograms event.calls < 2 ^ 31) : RoleStored role t.flash := by
  obtain ⟨m, newest, state, role_, image⟩ := stored
  have slot : ∀ a, applicationFlashStart ≤ a → t.flash a = s.flash a := fun a => step.slot_of_idle noFrame
  rcases (step.turned.registerTurn sound room).atomic with same | ⟨m', record, new⟩
  · exact ⟨m, same.trans newest, state, role_, imageValid_of_slot slot image⟩
  generalize s.mode = mode at record
  generalize event.input = input at record noFrame noRequest
  cases record with
  | attempt =>
    rw [bootMetadata_of_some newest] at new
    exact ⟨_, new, state, role_, imageValid_of_slot slot image⟩
  | confirm newest' =>
    obtain rfl := Option.some.inj (newest.symm.trans newest')
    rw [confirmed_eq] at new
    exact ⟨_, new, state, role_, imageValid_of_slot slot image⟩
  | request => exact absurd rfl noRequest
  | begins | ends | setsRole => exact absurd rfl (noFrame _)

end

section
variable {chip : DeviceState}

/-- The role is stored, if the sequence numbers have not wrapped. -/
def RoleKept (role : Word) (device : DeviceRun chip) : Prop :=
  recordsBegun device.history < 2 ^ 31 → RoleStored role device.state.flash

/-- COMPLETE -/
def roleTells (role : Word) (type : Nat) (_ : List Byte) (device : DeviceRun chip) : Prop :=
  type = kindComplete → RoleKept role device

theorem kept_role (fresh : Fresh chip) (sequence : Nat) (role : Word) :
    Kept (setRoleRequest sequence role) (@RoleKept chip role) where
  serves device event t step input kept few := by
    simp only [DeviceRun.next, recordsBegun_append, recordsBegun_single] at few
    have few' : recordsBegun device.history < 2 ^ 31 := by omega
    exact (kept few').serve step input (sound_of_run fresh device.run few') few
  idles device event t step noFrame noRequest kept few := by
    simp only [DeviceRun.next, recordsBegun_append, recordsBegun_single] at few
    have few' : recordsBegun device.history < 2 ^ 31 := by omega
    exact (kept few').idle step noFrame noRequest (sound_of_run fresh device.run few') few

theorem setRole_honoured (fresh : Fresh chip) (earlier : ProtocolFrame) (sequence : Nat) (role : Word) :
    Honoured earlier (setRoleRequest sequence role) (fun _ => True) (fun _ => True) (@roleTells chip role) where
  servesEarlier _ _ _ _ _ _ _ := ⟨trivial, trivial⟩
  serves device event t step input _ := by
    refine ⟨trivial, fun _ _ tells complete => (kept_role fresh sequence role).serves device event t step input
      (tells complete), ?_⟩
    intro reply output complete few
    simp only [DeviceRun.next, recordsBegun_append, recordsBegun_single] at few
    have sound := sound_of_run fresh device.run (by omega)
    have type : reply.messageType = protocolComplete := BitVec.toNat_inj.mp complete
    obtain ⟨m, record, new⟩ := (step.turned.registerTurn sound few).stored _ output (.inr type)
    exact roleStored_of_record step input record new
  idles device event t step noFrame noRequest := by
    refine ⟨id, id, fun _ _ tells complete => ?_⟩
    exact (kept_role fresh sequence role).idles device event t step noFrame noRequest (tells complete)

theorem setRole_spec (fresh : Fresh chip) (sequence role : Nat) (allowApplication : Bool) :
    Triple (@Moves chip) Does
    (Waiting (settled (helloFrame ((sequence + 1) % 2 ^ 16)) fun _ => True) sequence)
    (setRole role allowApplication)
    (fun _ s => role < 2 ^ 32 ∧ ∃ sequence, Between (setRoleRequest sequence (BitVec.ofNat 32 role))
      (RoleKept (BitVec.ofNat 32 role)) s)
    fun _ _ => True := by
  unfold setRole
  refine (connect_spec sequence allowApplication).bind _ fun device => orRaise_spec fun bytes fits => ?_
  obtain ⟨bound, rfl⟩ := toBytes4_eq_some fits
  refine Triple.exists fun hello => ?_
  have spec :=
    @request_next chip (helloFrame hello) _ (fun _ => True) _ _ _ kindSetRole _ [kindComplete] frameRetries rfl
    (setRole_honoured fresh _ _ (BitVec.ofNat 32 role)) (Nat.zero_le _) ?_ fun _ _ => ⟨trivial, trivial⟩
  · refine spec.bind _ fun answer => .of_const fun accepted => ?_
    have complete : answer.1 = kindComplete := by simpa using accepted
    refine .pure ?_ fun s between => ⟨bound, _, between.mono fun holds => holds.2 complete⟩
    rintro s t step ⟨_, sequence, between⟩
    exact ⟨bound, sequence, stable_between (kept_role fresh sequence _)
      (by simp [Short, requestFrame]) s t step between⟩
  · simp [Short, requestFrame]

end

/-- The name of the role on the command line. -/
def appRole (role : Nat) : FirmwareRole := if role = 2 then .tx else .rx

theorem role_eq_tx {role : Nat} (bound : role < 2 ^ 32) : BitVec.ofNat 32 role = appRoleTx ↔ role = 2 := by
  rw [← BitVec.toNat_inj, BitVec.toNat_ofNat, Nat.mod_eq_of_lt bound]
  rfl

/-- If set-role returns, the newest record is bootable in the role; the next start hands it over; and the banner that
the host then reads names it. -/
theorem set_role_agreement {chip : DeviceState} (fresh : Fresh chip) {start final : System chip} {role : Nat}
    {allowApplication : Bool} (noRequests : start.link.requests = []) (noReplies : start.link.replies = [])
    (returned : Runs (setRole role allowApplication) start (.ok ()) final)
    (few : recordsBegun final.link.server.history < 2 ^ 31) :
    (∃ m, newestRecord final.link.server.state.flash = some m ∧ m.state = bootStateValidApplication ∧
      m.appRole.toNat = role ∧ isApplicationImageValid final.link.server.state.flash m = true) ∧
    ∀ event t handoff, DeviceStep final.link.server.state event t → event.output = some (.handoff handoff) →
      firmwareRoleFromMetadata handoff = appRole role ∧
      ∀ {stack history c}, Run ConsoleStep (.start (firmwareRoleFromMetadata handoff) stack) history c →
        ∀ {noise arrived chunks}, ¬ "cli=ready".toList <:+: decodeAscii noise → arrived <+: c.uart.output →
          (banner (firmwareRoleFromMetadata handoff)).length ≤ arrived.length → chunks.flatten = noise ++ arrived →
          ∃ fields, applicationBanner (iterLines chunks) = some fields ∧
            fields.get "role".toList = some (roleName (appRole role)) := by
  have before :
      Waiting (settled (helloFrame ((start.sequence + 1) % 2 ^ 16)) fun _ => True) start.sequence start := by
    refine ⟨Exchange.Closed.open ⟨?_, ?_, trivial⟩, rfl⟩
    · simp [noRequests]
    · simp [noReplies]
  obtain ⟨bound, _, between⟩ := (setRole_spec fresh _ role _).returns before returned
  obtain ⟨m, newest, state, role_, image⟩ := between.holds few
  refine ⟨⟨m, newest, state, ?_, image⟩, ?_⟩
  · rw [role_]
    exact (BitVec.toNat_ofNat _ _).trans (Nat.mod_eq_of_lt bound)
  intro event t handoff step output
  have same : firmwareRoleFromMetadata handoff = appRole role := by
    have turned := step.turned
    rw [output] at turned
    obtain ⟨_, record, _, _, _, append, rfl, _⟩ := turned.of_handoff
    have handed : record.appRole = BitVec.ofNat 32 role := by
      rw [append_returned append, bootMetadata_of_some newest]
      exact role_
    rw [role_of_handoff rfl, appRole]
    exact if_congr (by rw [handed]; exact role_eq_tx bound) rfl rfl
  refine ⟨same, ?_⟩
  intro stack history c run noise arrived chunks quiet sent whole read
  obtain ⟨skipped, fields⟩ := fields_of_banner run quiet sent whole read
  rw [same] at fields
  exact ⟨_, fields, (get_bannerPairs skipped _).2⟩

theorem set_role_agreement_tx : ∃ (start final : System ⟨factoryFlash, .reset⟩),
    Runs (setRole 2 false) start (.ok ()) final ∧
    ∃ m, newestRecord final.link.server.state.flash = some m ∧ m.state = bootStateValidApplication ∧
      m.appRole.toNat = 2 ∧ isApplicationImageValid final.link.server.state.flash m = true := by
  obtain ⟨start, final, _, _, noRequests, noReplies, _, _, returned, few⟩ := setRole_runs
  exact ⟨start, final, returned, (set_role_agreement factoryFlash_fresh noRequests noReplies returned few).1⟩

end Cc1310Firmware.Host
