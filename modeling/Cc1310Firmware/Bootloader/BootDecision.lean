import Cc1310Firmware.Bootloader.FactoryChip

/-! What the next boot makes of a COMPLETE reply.

END writes a record with a cleared failure counter, but takes the image size
from a session header that a refused BEGIN may have replaced. SET_ROLE checks
the image, but keeps the failure counter. Each of the two leaves the updater
exactly under the condition that it does not establish itself.
-/

set_option autoImplicit false

namespace Cc1310Firmware.Bootloader
open LittleEndian CrashProgram LabelledRun

/-- The role that END or SET_ROLE is asked to store. -/
def requestedRoleOf (session : UpdateSession) (frame : ProtocolFrame) : Word :=
  if frame.messageType == protocolEnd then session.requestedRole else loadUint32Le frame.payload 0

/-- Every boot whose flash calls complete hands over to the application, in this role. -/
def BootsInto (flash : Flash) (role : Word) : Prop :=
  ∀ stack event t, event.input = .boot stack → DeviceStep ⟨flash, .reset⟩ event t →
    (∀ c ∈ event.calls, c.status = .done) →
    ∃ bootAttemptId, event.output = some (.handoff ⟨bootHandoffMagic, bootAttemptId, role⟩)

/-- What END and SET_ROLE do not check: the size of the image that END commits,
and the failure counter that SET_ROLE keeps. -/
def CommitsBootable (session : UpdateSession) (frame : ProtocolFrame) : Prop :=
  (frame.messageType = protocolEnd →
    session.packageHeader.imageSize ≠ 0 ∧ session.packageHeader.imageSize ≤ applicationSlotSize) ∧
  (frame.messageType = protocolSetRole → session.metadata.unconfirmedBootCount < bootFailureLimit)

theorem append_done {m : BootMetadata} {flash flash' : Flash} {calls : List FlashCall} {r : AppendResult}
    (append : Exec FlashStep (appendMetadataRecord m) flash calls r flash') (done : ∀ c ∈ calls, c.status = .done) :
    r = .returned (sealFor (newestRecord flash) m, 0) := by
  rcases r with ⟨m', code⟩ | _
  · obtain ⟨same, honest⟩ := append_result m flash _ _ _ append m' code rfl
    rw [same, honest.of_done done]
  · obtain ⟨c, member, status⟩ := append.cut_call
    rw [done c member] at status; cases status

/-- A boot decides on the newest record alone. -/
theorem bootsInto_iff (flash : Flash) (role : Word) :
    BootsInto flash role ↔ bootsApplication flash (bootMetadata flash) = true ∧
      (bootMetadata flash).appRole = role := by
  constructor
  · intro boots
    have decides : bootsApplication flash (bootMetadata flash) = true := by
      by_contra stays
      have turned : Turned flash .reset (.boot ⟨0, 0, 0, 0, 0, 0, 0, 0, 0⟩) [] (some .silent) flash _ :=
        .bootUpdate (by simpa using stays)
      obtain ⟨_, output⟩ := boots _ ⟨_, _, _⟩ ⟨_, _⟩ rfl (deviceStep_iff.mpr turned) (by simp)
      cases output
    obtain ⟨calls, flash', append, done⟩ := append_completes_done (bootMetadata flash).attempted flash
    have turned : Turned flash .reset (.boot ⟨0, 0, 0, 0, 0, 0, 0, 0, 0⟩) calls _ flash' _ :=
      .bootAttempt decides append rfl
    obtain ⟨_, output⟩ := boots _ ⟨_, _, _⟩ ⟨_, _⟩ rfl (deviceStep_iff.mpr turned) done
    cases output
    exact ⟨decides, rfl⟩
  · rintro ⟨decides, rfl⟩ stack ⟨input, calls, output⟩ ⟨flash', mode⟩ rfl step done
    have turned := step.turned
    dsimp only at turned done ⊢
    cases turned with
    | bootUpdate stays => rw [decides] at stays; cases stays
    | bootAttempt _ append ended =>
      obtain rfl := append_done append done
      cases ended
      exact ⟨_, rfl⟩

/-- The boot decision does not look at what an append fills in. -/
theorem bootsApplication_sealFor (flash : Flash) (value : Option BootMetadata) (m : BootMetadata) :
    bootsApplication flash (sealFor value m) = bootsApplication flash m := rfl

theorem appRole_sealFor (value : Option BootMetadata) (m : BootMetadata) : (sealFor value m).appRole = m.appRole :=
  rfl

theorem bootsApplication_committed {flash flash' : Flash} {session : UpdateSession} {frame : ProtocolFrame}
    (accepted : endAccepted flash session frame = true)
    (crc : ∀ size, applicationCrc32 flash' size = applicationCrc32 flash size)
    (vectors : isVectorTableValid flash' = true) : bootsApplication flash' session.committed = true ↔
      session.packageHeader.imageSize ≠ 0 ∧ session.packageHeader.imageSize ≤ applicationSlotSize := by
  simp only [endAccepted, Bool.and_eq_true, beq_iff_eq] at accepted
  have limit : (0 : Word) < bootFailureLimit := by decide
  simp only [bootsApplication, UpdateSession.committed, isApplicationImageValid, vectors, crc, accepted.2, limit,
    beq_self_eq_true, decide_true, Bool.true_and, Bool.and_true, Bool.and_eq_true, bne_iff_ne]
  exact and_congr_right fun _ => ⟨of_decide_eq_true, decide_eq_true⟩

theorem bootsApplication_withRole {flash flash' : Flash} {session : UpdateSession} {frame : ProtocolFrame}
    (accepted : setRoleAccepted flash session frame = true)
    (valid : ∀ metadata, isApplicationImageValid flash' metadata = isApplicationImageValid flash metadata) :
    bootsApplication flash' (session.withRole frame) = true ↔
      session.metadata.unconfirmedBootCount < bootFailureLimit := by
  simp only [setRoleAccepted, Bool.and_eq_true] at accepted
  have image : isApplicationImageValid flash (session.withRole frame) = true := accepted.2
  have state : (session.withRole frame).state == bootStateValidApplication := rfl
  have count : (session.withRole frame).unconfirmedBootCount = session.metadata.unconfirmedBootCount := rfl
  simp only [bootsApplication, valid, image, state, count, Bool.true_and, Bool.and_true]
  exact ⟨of_decide_eq_true, decide_eq_true⟩

/-- The boot after a COMPLETE reply, from a sound state. -/
theorem bootsInto_of_complete {k : Nat} {flash flash' : Flash} {session : UpdateSession}
    {frame reply : ProtocolFrame} {calls : List FlashCall} {mode : Mode}
    (sound : Sound k ⟨flash, .updating session⟩) (room : k + recordPrograms calls < 2 ^ 31)
    (step : DeviceStep ⟨flash, .updating session⟩ ⟨.frame frame, calls, some (.reply reply)⟩ ⟨flash', mode⟩)
    (complete : reply.messageType = protocolComplete) (vectors : isVectorTableValid flash' = true) :
    mode = .reset ∧ (BootsInto flash' (requestedRoleOf session frame) ↔ CommitsBootable session frame) := by
  have turned := step.turned
  dsimp only at turned
  obtain ⟨_, _, next, ⟨⟩, ⟨⟩, turn_, rfl⟩ := turned.of_reply
  obtain ⟨m, metadata, append, rfl, which⟩ := turn_.of_complete complete
  have newest := (appendTurn sound.holds room append).stored metadata rfl
  obtain ⟨sameVectors, valid⟩ := append_imageValid append
  have crc := append_applicationCrc32 append
  refine ⟨rfl, ?_⟩
  rw [bootsInto_iff, bootMetadata_of_some newest]
  rw [bootsApplication_sealFor, appRole_sealFor]
  rcases which with ⟨accepted, rfl⟩ | ⟨accepted, rfl⟩
  · have type : frame.messageType = protocolEnd := by
      simp only [endAccepted, Bool.and_eq_true, beq_iff_eq] at accepted
      exact accepted.1.1.1.1
    have role : session.committed.appRole = requestedRoleOf session frame := by
      simp [requestedRoleOf, type, UpdateSession.committed]
    rw [bootsApplication_committed accepted crc vectors]
    simp only [role, and_true, CommitsBootable, type, forall_const]
    simp [protocolEnd, protocolSetRole]
  · have type : frame.messageType = protocolSetRole := by
      simp only [setRoleAccepted, Bool.and_eq_true, beq_iff_eq] at accepted
      exact accepted.1.1.1
    have role : (session.withRole frame).appRole = requestedRoleOf session frame := by
      simp [requestedRoleOf, type, UpdateSession.withRole, protocolEnd, protocolSetRole]
    rw [bootsApplication_withRole accepted valid]
    simp only [role, and_true, CommitsBootable, type, forall_const]
    simp [protocolEnd, protocolSetRole]

/-- In every run a COMPLETE reply takes the device to the application in the
requested role exactly when the committed image has a bootable size and the
failure counter that is kept is below its limit. -/
theorem complete_leaves_updater_iff {start s t : DeviceState} {history : List DeviceTransition}
    {event : DeviceEvent} {session : UpdateSession} {frame reply : ProtocolFrame} (fresh : Fresh start)
    (run : Run DeviceStep start history s) (step : DeviceStep s event t) (updating : s.mode = .updating session)
    (input : event.input = .frame frame) (output : event.output = some (.reply reply))
    (complete : reply.messageType = protocolComplete) (vectors : isVectorTableValid t.flash = true)
    (few : recordsBegun history + recordPrograms event.calls < 2 ^ 31) :
    t.mode = .reset ∧ (BootsInto t.flash (requestedRoleOf session frame) ↔ CommitsBootable session frame) := by
  have sound := sound_of_run fresh run (Nat.lt_of_le_of_lt (Nat.le_add_right _ _) few)
  obtain ⟨flash, mode⟩ := s
  obtain ⟨_, calls, _⟩ := event
  dsimp only at updating input output
  subst updating input output
  exact bootsInto_of_complete sound few step complete vectors

/-- SET_ROLE in a session that did not erase the image. -/
theorem setRole_complete {k count : Nat} {flash : Flash} {session : UpdateSession}
    (sound : Sound k ⟨flash, .updating session⟩) (room : k + 1 < 2 ^ 31)
    (image : isApplicationImageValid flash session.metadata = true)
    (counter : session.metadata.unconfirmedBootCount = BitVec.ofNat 32 count) :
    ∃ event flash', event.input = .frame (setRoleFrame appRoleTx) ∧
      event.output = some (.reply ((setRoleFrame appRoleTx).reply protocolComplete [])) ∧
      DeviceStep ⟨flash, .updating session⟩ event ⟨flash', .reset⟩ ∧ recordPrograms event.calls ≤ 1 ∧
      Bootable count flash' := by
  have role : loadUint32Le (setRoleFrame appRoleTx).payload 0 = appRoleTx := loadUint32Le_bytesOf appRoleTx []
  have accepted : setRoleAccepted flash session (setRoleFrame appRoleTx) = true := by
    rw [setRoleAccepted, role, image]; rfl
  obtain ⟨calls, flash', append, _⟩ := append_completes_done (session.withRole (setRoleFrame appRoleTx)) flash
  have begun := recordPrograms_append_le sound.holds append
  have stored := (appendTurn sound.holds (Nat.lt_of_le_of_lt (Nat.add_le_add_left begun k) room) append).stored _ rfl
  refine ⟨⟨_, calls, _⟩, flash', rfl, rfl, deviceStep_iff.mpr (.frame (.roleSet accepted append) rfl), begun, _,
    stored, rfl, counter, ?_⟩
  rw [(append_imageValid append).2]
  exact image

theorem complete_leaves_updater_iff_requested : ∃ history flash t role,
    Run DeviceStep ⟨factoryFlash, .reset⟩ history ⟨flash, .updating t⟩ ∧ role = appRoleTx ∧
    ∃ event flash', DeviceStep ⟨flash, .updating t⟩ event ⟨flash', .reset⟩ ∧ BootsInto flash' role := by
  obtain ⟨_, _, _, _, flash, m, run, _, _, _, few, _, count, image⟩ := requested_update ⟨0, 0, 0, 0, 0, 0, 0, 0, 0⟩
  have sound := sound_of_run factoryFlash_fresh run (by omega)
  obtain ⟨event, flash', input, output, step, one, m', newest, _, _, image'⟩ :=
    setRole_complete sound (by omega) image count
  have vectors : isVectorTableValid flash' = true := by
    simp only [isApplicationImageValid, Bool.and_eq_true] at image'
    exact image'.1.2
  have iff := (complete_leaves_updater_iff factoryFlash_fresh run step rfl input output rfl vectors (by omega)).2
  have role : requestedRoleOf (.start m ⟨0, 0, 0, 0, 0, 0, 0, 0, 0⟩) (setRoleFrame appRoleTx) = appRoleTx :=
    loadUint32Le_bytesOf appRoleTx []
  rw [role] at iff
  refine ⟨_, flash, _, _, run, rfl, event, flash', step,
    iff.mpr ⟨by simp [setRoleFrame, protocolSetRole, protocolEnd], ?_⟩⟩
  intro _
  change m.unconfirmedBootCount < bootFailureLimit
  rw [count]
  decide

/-- Three unconfirmed boots, then SET_ROLE: COMPLETE, but the next boot stays in the updater. -/
theorem set_role_keeps_failure_counter : ∃ start history session flash event t reply, Fresh start ∧
    Run DeviceStep start history ⟨flash, .updating session⟩ ∧ DeviceStep ⟨flash, .updating session⟩ event t ∧
    event.input = .frame (setRoleFrame appRoleTx) ∧ event.output = some (.reply reply) ∧
    reply.messageType = protocolComplete ∧ isVectorTableValid t.flash = true ∧ recordsBegun history ≤ 3 ∧
    ¬ BootsInto t.flash appRoleTx := by
  obtain ⟨history, flash, run, begun, m, newest, state, count, image⟩ := unconfirmed_boots 3 (Nat.le_refl 3)
  have stays : bootsApplication flash (bootMetadata flash) = false := by
    have limit : decide (m.unconfirmedBootCount < bootFailureLimit) = false := by rw [count]; decide
    rw [bootMetadata_of_some newest]
    simp only [bootsApplication, limit, Bool.and_false, Bool.false_and]
  have turned : Turned flash .reset (.boot ⟨0, 0, 0, 0, 0, 0, 0, 0, 0⟩) [] (some .silent) flash _ :=
    .bootUpdate stays
  rw [bootMetadata_of_some newest] at turned
  have run' := run.next (deviceStep_iff.mpr turned : DeviceStep ⟨flash, .reset⟩ ⟨_, _, _⟩ ⟨flash, _⟩)
  have begun' : recordsBegun (history ++ [⟨⟨flash, .reset⟩, ⟨.boot ⟨0, 0, 0, 0, 0, 0, 0, 0, 0⟩, [], some .silent⟩,
      ⟨flash, .updating (.start m ⟨0, 0, 0, 0, 0, 0, 0, 0, 0⟩)⟩⟩]) ≤ 3 := by
    simpa using begun
  have sound := sound_of_run factoryFlash_fresh run' (by omega)
  obtain ⟨event, flash', input, output, step, _, bootable⟩ := setRole_complete sound (by omega) image count
  obtain ⟨m', newest', _, count', image'⟩ := bootable
  refine ⟨_, _, _, flash, event, _, _, factoryFlash_fresh, run', step, input, output, rfl, ?_, begun', ?_⟩
  · simp only [isApplicationImageValid, Bool.and_eq_true] at image'
    exact image'.1.2
  · rw [bootsInto_iff, bootMetadata_of_some newest']
    rintro ⟨boots, _⟩
    simp only [bootsApplication, Bool.and_eq_true, decide_eq_true_eq, count'] at boots
    exact absurd boots.1.2 (by decide)

end Cc1310Firmware.Bootloader
