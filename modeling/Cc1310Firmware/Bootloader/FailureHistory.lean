import Cc1310Firmware.Bootloader.BootCount

/-! The failure counter against the boots since the last confirmation.

A confirmation takes back one attempt, not all of them. The counter is the
number of attempts since the last confirmed boot as long as every confirmation
finds no older attempt that nobody confirmed.
-/

set_option autoImplicit false

namespace Cc1310Firmware.Bootloader
open CrashProgram LabelledRun

/-- The transitions after the last stored confirmation, newest first. -/
def sinceConfirmation (history : List DeviceTransition) : List DeviceTransition :=
  history.reverse.takeWhile fun x => !recordsConfirmation x

/-- The stored boot attempts after the last confirmed boot. -/
def unconfirmedAttempts (history : List DeviceTransition) : Nat := (sinceConfirmation history).countP recordsAttempt

theorem unconfirmedAttempts_concat (history : List DeviceTransition) (x : DeviceTransition) :
    unconfirmedAttempts (history ++ [x]) =
      if recordsConfirmation x then 0 else unconfirmedAttempts history + if recordsAttempt x then 1 else 0 := by
  unfold unconfirmedAttempts sinceConfirmation
  rw [List.reverse_append, List.reverse_singleton, List.singleton_append, List.takeWhile_cons]
  cases recordsConfirmation x <;> simp [List.countP_cons]

/-- A stored confirmation finds at most the attempt that it confirms. -/
def ConfirmsLoneAttempt (x : DeviceTransition) : Prop :=
  recordsConfirmation x = true → (bootMetadata x.before.flash).unconfirmedBootCount.toNat ≤ 1

structure FailureInv (history : List DeviceTransition) (state : DeviceState) : Prop where
  loaded : Loaded state
  counted : (bootMetadata state.flash).unconfirmedBootCount.toNat ≤ unconfirmedAttempts history

section
variable {k : Nat} {history : List DeviceTransition} {s t : DeviceState} {event : DeviceEvent} {m : BootMetadata}

theorem TurnRecord.failures (record : TurnRecord s.flash s.mode event.input m) (inv : FailureInv history s)
    (lone : ConfirmsLoneAttempt ⟨s, event, t⟩) (new : newestRecord t.flash = some (sealFor (newestRecord s.flash) m)) :
    m.unconfirmedBootCount.toNat ≤ unconfirmedAttempts (history ++ [⟨s, event, t⟩]) := by
  have stored : persists ⟨s, event, t⟩ = true := persists_of_sealed new
  have counted := inv.counted
  rw [unconfirmedAttempts_concat]
  generalize mode : s.mode = here at record
  generalize input : event.input = given at record
  cases record with
  | attempt boots =>
    simp only [bootsApplication, Bool.and_eq_true] at boots
    -- below the limit the increment does not wrap
    have below : (bootMetadata s.flash).unconfirmedBootCount.toNat < 3 := of_decide_eq_true boots.1.2
    have sum : ((bootMetadata s.flash).unconfirmedBootCount + 1).toNat =
        (bootMetadata s.flash).unconfirmedBootCount.toNat + 1 := by
      rw [BitVec.toNat_add]
      exact Nat.mod_eq_of_lt (by simp; omega)
    simp only [recordsConfirmation, recordsAttempt, input, stored]
    change ((bootMetadata s.flash).unconfirmedBootCount + 1).toNat ≤ _
    rw [sum]
    exact Nat.succ_le_succ counted
  | @confirm bootAttemptId metadata newest same fresh =>
    have confirms : recordsConfirmation ⟨s, event, t⟩ = true := by
      simp only [recordsConfirmation, input, stored]
    -- the count it finds is its own attempt's
    have few := lone confirms
    dsimp only at few
    rw [bootMetadata_of_some newest] at few
    rw [if_pos confirms]
    rw [confirmed_eq]
    dsimp only
    split
    case isTrue nonzero =>
      have one : metadata.unconfirmedBootCount = 1 := by
        have positive : metadata.unconfirmedBootCount.toNat ≠ 0 := fun zero =>
          (bne_iff_ne.mp nonzero) (BitVec.eq_of_toNat_eq zero)
        exact BitVec.eq_of_toNat_eq (show _ = 1 by omega)
      rw [one]
      exact Nat.le_refl 0
    case isFalse zero =>
      have none_ : metadata.unconfirmedBootCount = 0 := by simpa using zero
      rw [none_]
      exact Nat.le_refl 0
  | request =>
    simp only [recordsConfirmation, recordsAttempt, input]
    exact counted
  | begins | ends => exact Nat.zero_le _
  | @setsRole session =>
    simp only [recordsConfirmation, recordsAttempt, input]
    change session.metadata.unconfirmedBootCount.toNat ≤ _
    rw [inv.loaded session mode]
    exact counted

end

/-- The newest record is this one, VALID, and its image is intact. -/
structure Installed (m : BootMetadata) (flash : Flash) : Prop where
  newest : newestRecord flash = some m
  state : m.state = bootStateValidApplication
  image : isApplicationImageValid flash m = true

theorem factoryFlash_installed : Installed factoryRecord factoryFlash := by
  obtain ⟨m, newest, state, _, image⟩ := factoryFlash_bootable
  rw [factoryFlash_chip.newest] at newest
  cases newest
  exact ⟨factoryFlash_chip.newest, state, image⟩

/-- A run of a factory chip in which every flash call is carried out. -/
structure FieldRun (n : Nat) (history : List DeviceTransition) (final : DeviceState) : Prop where
  run : Run DeviceStep ⟨factoryFlash, .reset⟩ history final
  succeed : ∀ x ∈ history, NeverFails x.event.calls
  few : recordsBegun history ≤ n

section
variable {n : Nat} {history : List DeviceTransition} {flash flash' : Flash} {mode mode' : Mode} {m : BootMetadata}

theorem FieldRun.sound (field : FieldRun n history ⟨flash, mode⟩) (short : n < 2 ^ 31) :
    Sound (recordsBegun history) ⟨flash, mode⟩ :=
  sound_of_run factoryFlash_fresh field.run (Nat.lt_of_le_of_lt field.few short)

theorem FieldRun.next {input : Input} {calls : List FlashCall} {output : Option Output}
    (field : FieldRun n history ⟨flash, mode⟩) (turned : Turned flash mode input calls output flash' mode')
    (succeed : NeverFails calls) (one : recordPrograms calls ≤ 1) :
    FieldRun (n + 1) (history ++ [⟨⟨flash, mode⟩, ⟨input, calls, output⟩, ⟨flash', mode'⟩⟩]) ⟨flash', mode'⟩ := by
  refine ⟨field.run.next turned.deviceStep, ?_, ?_⟩
  · intro x member
    rcases List.mem_append.mp member with old | new
    · exact field.succeed x old
    · rw [List.mem_singleton.mp new]
      exact succeed
  · rw [recordsBegun_append, recordsBegun_single]
    exact Nat.add_le_add field.few one

/-- An append that is carried out, and what it leaves of an installed image. -/
theorem FieldRun.append (field : FieldRun n history ⟨flash, mode⟩) (short : n + 1 < 2 ^ 31)
    (installed : Installed m flash) (m' : BootMetadata) : ∃ calls flash',
      Exec FlashStep (appendMetadataRecord m') flash calls (.returned (sealFor (some m) m', 0)) flash' ∧
      NeverFails calls ∧ recordPrograms calls ≤ 1 ∧ newestRecord flash' = some (sealFor (some m) m') ∧
      ∀ metadata, isApplicationImageValid flash' metadata = isApplicationImageValid flash metadata := by
  have sound := field.sound (by omega)
  obtain ⟨calls, flash', append, done⟩ := append_completes_done m' flash
  have one := recordPrograms_append_le sound.holds append
  have few := field.few
  have stored := (appendTurn sound.holds (by omega) append).stored _ rfl
  rw [installed.newest] at append stored
  exact ⟨calls, flash', append, fun c member => by simp [done c member], one, stored, (append_imageValid append).2⟩

theorem FieldRun.attempt (field : FieldRun n history ⟨flash, .reset⟩) (short : n + 1 < 2 ^ 31)
    (installed : Installed m flash) (below : m.unconfirmedBootCount < bootFailureLimit) : ∃ x flash',
      FieldRun (n + 1) (history ++ [x]) ⟨flash', .running⟩ ∧ x.event.input = .boot zeroHeader ∧
      Installed (sealFor (some m) m.attempted) flash' := by
  obtain ⟨calls, flash', append, succeed, one, newest, image⟩ := field.append short installed m.attempted
  have boots : bootsApplication flash (bootMetadata flash) = true := by
    rw [bootMetadata_of_some installed.newest]
    simp only [bootsApplication, installed.state, installed.image, decide_eq_true below, beq_self_eq_true,
      Bool.and_true]
  have attempted : (bootMetadata flash).attempted = m.attempted := by rw [bootMetadata_of_some installed.newest]
  rw [← attempted] at append
  have turned : Turned flash .reset (.boot zeroHeader) calls _ flash' .running := .bootAttempt boots append rfl
  refine ⟨_, flash', field.next turned succeed one, rfl, newest, installed.state, ?_⟩
  rw [image]
  exact installed.image

theorem FieldRun.confirm (field : FieldRun n history ⟨flash, .running⟩) (short : n + 1 < 2 ^ 31)
    (installed : Installed m flash) (fresh : m.confirmedBootAttemptId ≠ m.bootAttemptId) : ∃ x flash',
      FieldRun (n + 1) (history ++ [x]) ⟨flash', .running⟩ ∧ recordsConfirmation x = true ∧
      Installed (sealFor (some m) (m.confirmed m.bootAttemptId)) flash' := by
  obtain ⟨calls, flash', append, succeed, one, newest, image⟩ :=
    field.append short installed (m.confirmed m.bootAttemptId)
  have accepted : confirmation flash m.bootAttemptId = some (m.confirmed m.bootAttemptId) := by
    simp [confirmation, installed.newest, fresh]
  have turned : Turned flash .running (.confirmBoot m.bootAttemptId) calls _ flash' .running :=
    .confirm accepted append rfl
  refine ⟨_, flash', field.next turned succeed one, ?_, newest, ?_, ?_⟩
  · apply persists_of_sealed
    rw [newest, installed.newest]
  · rw [confirmed_eq]
    exact installed.state
  · rw [image, confirmed_eq]
    exact installed.image

theorem FieldRun.off (field : FieldRun n history ⟨flash, mode⟩) : ∃ x, x.event.input = .powerCut ∧
    FieldRun (n + 1) (history ++ [x]) ⟨flash, .reset⟩ :=
  ⟨_, rfl, field.next .powerCut (by simp [NeverFails]) (by simp)⟩

end

end Cc1310Firmware.Bootloader
