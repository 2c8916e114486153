import Cc1310Firmware.Bootloader.FailureHistory

/-! The ids of boot attempts.

Every stored attempt raises the id in the newest record, and an id is confirmed only after
it was used. So the starts of one application have ids of their own, and none of them
was confirmed before.
-/

set_option autoImplicit false

namespace Cc1310Firmware.Bootloader
open LittleEndian CrashProgram LabelledRun TwoPageLog

/-- An append that begins no record leaves the newest one. -/
theorem append_kept {k : Nat} {flash : Flash} {value : Option BootMetadata} (holds : Holds k flash value)
    (m : BootMetadata) : Ensures FlashStep (appendMetadataRecord m) flash fun calls _ flash' =>
      recordPrograms calls = 0 → newestRecord flash' = value := by
  obtain ⟨base, n, current, le, tracks, same⟩ := holds
  have write : ∀ (g : Flash) (side : Side) (index : Nat) (m : BootMetadata), m.Sealed → index < recordsPerPage →
      cells g side index = .blank → Ensures FlashStep (do return (m, ← writeRecord m (pageAddress side) index)) g
        fun calls _ _ => recordPrograms calls = 1 := by
    intro g side index m sealed hi blank
    rw [ensures_bind]
    refine (writeRecord_written sealed hi blank).mono ?_
    intro calls r flash' written
    cases r with
    | cut => exact written.count
    | returned code => simpa using written.count
  unfold appendMetadataRecord
  simp only [ensures_view_bind]
  cases primary : findFirstErasedRecord flash metadataPagePrimary with
  | some index =>
    obtain ⟨hi, blank, _⟩ := findFirstErasedRecord_some .first primary
    refine (write flash .first index _ (sealRecord_sealed _ m) hi blank).mono ?_
    intro calls _ _ one none_
    omega
  | none =>
    simp only [ensures_view_bind]
    cases secondary : findFirstErasedRecord flash metadataPageSecondary with
    | some index =>
      obtain ⟨hi, blank, _⟩ := findFirstErasedRecord_some .second secondary
      refine (write flash .second index _ (sealRecord_sealed _ m) hi blank).mono ?_
      intro calls _ _ one none_
      omega
    | none =>
      obtain ⟨side, page, away, _⟩ := rotationPage_away tracks
      have kept : ∀ status g, FlashStep flash (.sectorErase (pageAddress side)) status g →
          newestRecord g = value := by
        intro status g step
        rw [newestRecord_eq, (step.erase_register tracks away).newest_eq, same]
      rw [page, flashSectorErase, ensures_bind, ensures_issue]
      refine ⟨fun g step => ?_, fun g step => ?_, fun g step _ => kept _ g step⟩
      · have erased : g = flash.erased (pageAddress side) := by cases step; rfl
        have blank : cells g side 0 = .blank := by
          rw [erased]
          exact cells_of_erased (by decide)
        refine (write g side 0 _ (sealRecord_sealed _ m) (by decide) blank).mono ?_
        intro calls _ _ one none_
        rw [recordPrograms_append] at none_
        omega
      · simpa using fun _ => kept _ g step

section
variable {k : Nat} {history : List DeviceTransition} {s t : DeviceState} {event : DeviceEvent} {m : BootMetadata}

/-- A stored attempt is a record that was begun. -/
theorem begun_of_attempt (sound : Sound k s) (step : DeviceStep s event t) {stack : FirmwarePackageHeader}
    (input : event.input = .boot stack) (new : newestRecord t.flash ≠ newestRecord s.flash) :
    1 ≤ recordPrograms event.calls := by
  obtain ⟨flash, mode⟩ := s
  obtain ⟨flash', mode'⟩ := t
  obtain ⟨_, calls, output⟩ := event
  have turned := step.turned
  dsimp only at *
  subst input
  cases turned with
  | bootUpdate => exact absurd rfl new
  | bootAttempt _ append _ =>
    rw [Nat.one_le_iff_ne_zero]
    exact fun none_ => new (append_kept sound.holds _ _ _ _ append none_)

/-- The ids of the newest record, when `k` records were begun. -/
structure IdsBelow (k : Nat) (m : BootMetadata) : Prop where
  confirmed : m.confirmedBootAttemptId.toNat ≤ m.bootAttemptId.toNat
  boot : m.bootAttemptId.toNat ≤ k

theorem IdsBelow.mono {k' : Nat} (ids : IdsBelow k m) (le : k ≤ k') : IdsBelow k' m :=
  ⟨ids.confirmed, Nat.le_trans ids.boot le⟩

theorem IdsBelow.congr {m' : BootMetadata} (ids : IdsBelow k m) (boot : m'.bootAttemptId = m.bootAttemptId)
    (confirmed : m'.confirmedBootAttemptId = m.confirmedBootAttemptId) : IdsBelow k m' :=
  ⟨by rw [boot, confirmed]; exact ids.confirmed, by rw [boot]; exact ids.boot⟩

theorem attempted_id (ids : IdsBelow k m) (room : k + 1 < 2 ^ 31) :
    m.attempted.bootAttemptId.toNat = m.bootAttemptId.toNat + 1 := by
  have boot := ids.boot
  change (m.bootAttemptId + 1).toNat = _
  rw [BitVec.toNat_add]
  exact Nat.mod_eq_of_lt (by simp; omega)

/-- An attempt takes an id that was not confirmed yet. -/
theorem attempted_unconfirmed (ids : IdsBelow k m) (room : k + 1 < 2 ^ 31) :
    m.attempted.confirmedBootAttemptId ≠ m.attempted.bootAttemptId := by
  intro same
  have raised := attempted_id ids room
  have confirmed := ids.confirmed
  have same' : m.confirmedBootAttemptId.toNat = m.attempted.bootAttemptId.toNat := congrArg BitVec.toNat same
  omega

theorem TurnRecord.idsBelow (record : TurnRecord s.flash s.mode event.input m) (loaded : Loaded s)
    (sound : Sound k s) (room : k + recordPrograms event.calls < 2 ^ 31) (step : DeviceStep s event t)
    (new : newestRecord t.flash = some (sealFor (newestRecord s.flash) m))
    (ids : IdsBelow k (bootMetadata s.flash)) :
    IdsBelow (k + recordPrograms event.calls) m := by
  generalize mode : s.mode = here at record
  generalize input : event.input = given at record
  cases record with
  | attempt =>
    have begun : 1 ≤ recordPrograms event.calls := by
      apply begun_of_attempt sound step input
      rw [new]
      exact sealFor_ne _ _
    have raised := attempted_id ids (by omega)
    have boot := ids.boot
    have confirmed := ids.confirmed
    refine ⟨?_, by omega⟩
    rw [raised]
    exact Nat.le_succ_of_le confirmed
  | confirm newest same =>
    rw [bootMetadata_of_some newest] at ids
    rw [confirmed_eq, ← same]
    exact ⟨Nat.le_refl _, Nat.le_trans ids.boot (Nat.le_add_right _ _)⟩
  | request => exact (ids.mono (Nat.le_add_right _ _)).congr rfl rfl
  | begins | ends => exact ⟨Nat.le_refl 0, Nat.zero_le _⟩
  | @setsRole session =>
    rw [← loaded session mode] at ids
    exact (ids.mono (Nat.le_add_right _ _)).congr rfl rfl

end

theorem idsBelow_run {flash : Flash} {final : DeviceState} {history : List DeviceTransition}
    (chip : UncountedChip flash) (run : Run DeviceStep ⟨flash, .reset⟩ history final)
    (succeed : ∀ x ∈ history, NeverFails x.event.calls) (few : recordsBegun history < 2 ^ 31) :
    IdsBelow (recordsBegun history) (bootMetadata final.flash) := by
  refine @soundRun_induction _ _ _ (fun history state => (∀ x ∈ history, NeverFails x.event.calls) →
    IdsBelow (recordsBegun history) (bootMetadata state.flash)) chip.fresh ?_ ?_ run few succeed
  · intro _
    rcases chip with erased | ⟨record, factory, _, boot, confirmed⟩
    · rw [bootMetadata, erased.holds.newestRecord_eq]
      exact ⟨Nat.le_refl 0, Nat.le_refl 0⟩
    · rw [bootMetadata_of_some factory.newest]
      exact ⟨by rw [boot, confirmed], by rw [boot]; exact Nat.zero_le _⟩
  · intro history s event t run sound room ih step succeed'
    have earlier : ∀ x ∈ history, NeverFails x.event.calls :=
      fun x member => succeed' x (List.mem_append_left _ member)
    have inv := bootInv_run chip run earlier (by omega)
    rw [recordsBegun_append, recordsBegun_single]
    rcases (step.turned.registerTurn sound room).atomic with same | ⟨m, record, new⟩
    · rw [bootMetadata_congr same]
      exact (ih earlier).mono (Nat.le_add_right _ _)
    · rw [bootMetadata_of_some new]
      exact (record.idsBelow inv.loaded sound room step new (ih earlier)).congr rfl rfl

/-! ## A start of an installed application -/

section
variable {k : Nat} {flash : Flash} {m : BootMetadata}

/-- A boot that is carried out. -/
theorem Installed.start (installed : Installed m flash) (sound : Sound k ⟨flash, .reset⟩) (room : k + 1 < 2 ^ 31)
    (below : m.unconfirmedBootCount < bootFailureLimit) : ∃ calls flash', DeviceStep ⟨flash, .reset⟩
      ⟨.boot zeroHeader, calls, some (.handoff ⟨bootHandoffMagic, m.attempted.bootAttemptId, m.appRole⟩)⟩
      ⟨flash', .running⟩ ∧ NeverFails calls ∧ recordPrograms calls ≤ 1 ∧
      Installed (sealFor (some m) m.attempted) flash' := by
  have newest := bootMetadata_of_some installed.newest
  have boots : bootsApplication flash (bootMetadata flash) = true := by
    rw [newest]
    simp only [bootsApplication, installed.state, installed.image, decide_eq_true below, beq_self_eq_true,
      Bool.and_true]
  obtain ⟨calls, flash', append, done⟩ := append_completes_done (bootMetadata flash).attempted flash
  have one := recordPrograms_append_le sound.holds append
  have stored := (appendTurn sound.holds (by omega) append).stored _ rfl
  have turned : Turned flash .reset (.boot zeroHeader) calls _ flash' .running := .bootAttempt boots append rfl
  rw [installed.newest, newest] at stored
  rw [newest] at turned
  refine ⟨calls, flash', turned.deviceStep, fun c member => by simp [done c member], one, stored, installed.state,
    ?_⟩
  rw [(append_imageValid append).2]
  exact installed.image

/-- A confirmation that is carried out. -/
theorem Installed.confirmBoot (installed : Installed m flash) (sound : Sound k ⟨flash, .running⟩)
    (room : k + 1 < 2 ^ 31) (fresh : m.confirmedBootAttemptId ≠ m.bootAttemptId) : ∃ calls flash',
      DeviceStep ⟨flash, .running⟩ ⟨.confirmBoot m.bootAttemptId, calls, some (.code 0)⟩ ⟨flash', .running⟩ ∧
      NeverFails calls ∧ recordPrograms calls ≤ 1 ∧
      Installed (sealFor (some m) (m.confirmed m.bootAttemptId)) flash' := by
  have accepted : confirmation flash m.bootAttemptId = some (m.confirmed m.bootAttemptId) := by
    simp [confirmation, installed.newest, fresh]
  obtain ⟨calls, flash', append, done⟩ := append_completes_done (m.confirmed m.bootAttemptId) flash
  have one := recordPrograms_append_le sound.holds append
  have stored := (appendTurn sound.holds (by omega) append).stored _ rfl
  have turned : Turned flash .running (.confirmBoot m.bootAttemptId) calls _ flash' .running :=
    .confirm accepted append rfl
  rw [installed.newest] at stored
  refine ⟨calls, flash', turned.deviceStep, fun c member => by simp [done c member], one, stored, ?_, ?_⟩
  · rw [confirmed_eq]
    exact installed.state
  · rw [(append_imageValid append).2, confirmed_eq]
    exact installed.image

end

/-! ## The starts since a stored BEGIN -/

section
variable {history later : List DeviceTransition}

theorem sinceBegin_append (none_ : ∀ x ∈ later, recordsBegin x = false) :
    sinceBegin (history ++ later) = later.reverse ++ sinceBegin history := by
  unfold sinceBegin
  rw [List.reverse_append, List.takeWhile_append_of_pos]
  intro x member
  rw [none_ x (List.mem_reverse.mp member)]
  rfl

theorem attempts_append (none_ : ∀ x ∈ later, recordsBegin x = false) :
    attempts (history ++ later) = attempts history + later.countP recordsAttempt := by
  rw [attempts, sinceBegin_append none_, List.countP_append, List.countP_reverse, Nat.add_comm]
  rfl

theorem confirmations_append (none_ : ∀ x ∈ later, recordsBegin x = false) :
    confirmations (history ++ later) = confirmations history + later.countP recordsConfirmation := by
  rw [confirmations, sinceBegin_append none_, List.countP_append, List.countP_reverse, Nat.add_comm]
  rfl

end

/-- A handoff is a stored attempt. -/
theorem attempt_of_handoff {k : Nat} {x : DeviceTransition} {handoff : BootHandoff} (sound : Sound k x.before)
    (room : k + recordPrograms x.event.calls < 2 ^ 31) (step : DeviceStep x.before x.event x.after)
    (output : x.event.output = some (.handoff handoff)) :
    recordsAttempt x = true ∧ x.after.mode = .running ∧ handoff.magic = bootHandoffMagic ∧
    newestRecord x.after.flash =
      some (sealFor (newestRecord x.before.flash) (bootMetadata x.before.flash).attempted) ∧
    handoff.bootAttemptId = (bootMetadata x.after.flash).bootAttemptId ∧
    handoff.appRole = (bootMetadata x.after.flash).appRole := by
  have turned := step.turned
  rw [output] at turned
  obtain ⟨stack, m, _, input, _, append, rfl, mode⟩ := turned.of_handoff
  have stored := (appendTurn sound.holds room append).stored m rfl
  have new := stored
  rw [← append_returned append] at new
  refine ⟨?_, mode, rfl, stored, ?_, ?_⟩
  · simp only [recordsAttempt, input]
    exact persists_of_sealed stored
  · rw [bootMetadata_of_some new]
  · rw [bootMetadata_of_some new]

theorem recordsBegin_of_attempt {x : DeviceTransition} (attempt : recordsAttempt x = true) :
    recordsBegin x = false := by
  unfold recordsAttempt at attempt
  unfold recordsBegin
  cases input : x.event.input with
  | boot => rfl
  | powerCut | frame | confirmBoot | requestUpdate => simp [input] at attempt

theorem begun_of_attempted {k : Nat} {x : DeviceTransition} (sound : Sound k x.before)
    (step : DeviceStep x.before x.event x.after) (attempt : recordsAttempt x = true) :
    1 ≤ recordPrograms x.event.calls := by
  unfold recordsAttempt at attempt
  split at attempt
  case h_1 stack input => exact begun_of_attempt sound step input (bne_iff_ne.mp attempt)
  case h_2 => cases attempt

section
variable {k : Nat} {history : List DeviceTransition} {s t : DeviceState} {event : DeviceEvent}

/-- The id only grows while no BEGIN is stored. -/
theorem id_grows (inv : BootInv history s) (ids : IdsBelow k (bootMetadata s.flash)) (sound : Sound k s)
    (room : k + recordPrograms event.calls < 2 ^ 31) (step : DeviceStep s event t) (started : 1 ≤ attempts history)
    (none_ : recordsBegin ⟨s, event, t⟩ = false) :
    (bootMetadata s.flash).bootAttemptId.toNat ≤ (bootMetadata t.flash).bootAttemptId.toNat := by
  rcases (step.turned.registerTurn sound room).atomic with same | ⟨m, record, new⟩
  · rw [bootMetadata_congr same]
  rw [bootMetadata_of_some new]
  change _ ≤ m.bootAttemptId.toNat
  generalize mode : s.mode = here at record
  generalize input : event.input = given at record
  cases record with
  | attempt =>
    have begun : 1 ≤ recordPrograms event.calls := by
      apply begun_of_attempt sound step input
      rw [new]
      exact sealFor_ne _ _
    rw [attempted_id ids (by omega)]
    exact Nat.le_succ _
  | confirm newest =>
    rw [bootMetadata_of_some newest, confirmed_eq]
  | request => exact Nat.le_refl _
  | begins guard =>
    have stored : recordsBegin ⟨s, event, t⟩ = true := by
      simp only [recordsBegin, input]
      exact Bool.and_eq_true_iff.mpr ⟨guard, persists_of_sealed new⟩
    rw [stored] at none_
    cases none_
  | ends accepted =>
    -- an open update has no attempts behind it
    have empty := congrArg Ledger.attempts (inv.session (active_of_accepted accepted mode))
    change attempts history = 0 at empty
    omega
  | @setsRole session =>
    rw [← inv.loaded session mode]
    exact Nat.le_refl _

end

/-- What is confirmed is the newest attempt. -/
theorem id_of_confirmation {k : Nat} {x : DeviceTransition} {id : Word} (sound : Sound k x.before)
    (room : k + recordPrograms x.event.calls < 2 ^ 31) (step : DeviceStep x.before x.event x.after)
    (input : x.event.input = .confirmBoot id) (confirms : recordsConfirmation x = true) :
    (bootMetadata x.before.flash).bootAttemptId = id := by
  rcases (step.turned.registerTurn sound room).atomic with same | ⟨m, record, _⟩
  · simp [recordsConfirmation, input, persists_of_same same] at confirms
  · rw [input] at record
    generalize x.before.mode = mode at record
    cases record with
    | confirm newest same => rw [bootMetadata_of_some newest, same]

theorem id_since_handoff {flash : Flash} {final : DeviceState} {history : List DeviceTransition}
    (chip : UncountedChip flash) (run : Run DeviceStep ⟨flash, .reset⟩ history final)
    (succeed : ∀ x ∈ history, NeverFails x.event.calls) (few : recordsBegun history < 2 ^ 31) :
    ∀ before x between handoff, history = before ++ x :: between → x.event.output = some (.handoff handoff) →
      (∀ z ∈ between, recordsBegin z = false) →
      handoff.bootAttemptId.toNat ≤ (bootMetadata final.flash).bootAttemptId.toNat ∧ 1 ≤ attempts history := by
  refine @soundRun_induction _ _ _ (fun history state => (∀ x ∈ history, NeverFails x.event.calls) →
    ∀ before x between handoff, history = before ++ x :: between → x.event.output = some (.handoff handoff) →
      (∀ z ∈ between, recordsBegin z = false) →
      handoff.bootAttemptId.toNat ≤ (bootMetadata state.flash).bootAttemptId.toNat ∧ 1 ≤ attempts history)
    chip.fresh ?_ ?_ run few succeed
  · intro _ before x between handoff split
    simp at split
  · intro history s event t run sound room ih step succeed' before x between handoff split output none_
    have earlier : ∀ x ∈ history, NeverFails x.event.calls :=
      fun x member => succeed' x (List.mem_append_left _ member)
    rcases List.eq_nil_or_concat between with rfl | ⟨between, z, rfl⟩
    · obtain ⟨rfl, rfl⟩ := List.append_singleton_inj.mp split
      obtain ⟨attempt, _, _, _, id, _⟩ := attempt_of_handoff (x := ⟨s, event, t⟩) sound room step output
      refine ⟨by rw [id], ?_⟩
      have begin_ : recordsBegin ⟨s, event, t⟩ = false := recordsBegin_of_attempt attempt
      rw [attempts_append (by simpa using begin_), List.countP_cons_of_pos attempt]
      exact Nat.le_add_left 1 _
    · rw [List.concat_eq_append, ← List.cons_append, ← List.append_assoc] at split
      obtain ⟨rfl, rfl⟩ := List.append_singleton_inj.mp split
      have none_' : ∀ z ∈ between, recordsBegin z = false := fun z member => none_ z (by simp [member])
      have begin_ : recordsBegin ⟨s, event, t⟩ = false := none_ _ (by simp)
      obtain ⟨grown, started⟩ := ih earlier before x between handoff rfl output none_'
      have inv := bootInv_run chip run earlier (by omega)
      have ids := idsBelow_run chip run earlier (by omega)
      refine ⟨Nat.le_trans grown (id_grows inv ids sound room step started begin_), ?_⟩
      rw [attempts_append (by simpa using begin_)]
      exact Nat.le_add_right_of_le started

/-- While no BEGIN is stored, every start has a higher id than the starts before it, and a confirmation
that is stored carries the id of the last start. -/
theorem starts_have_own_ids {flash : Flash} {final : DeviceState} {history : List DeviceTransition}
    (chip : UncountedChip flash) (run : Run DeviceStep ⟨flash, .reset⟩ history final)
    (succeed : ∀ x ∈ history, NeverFails x.event.calls) (few : recordsBegun history < 2 ^ 31)
    {before between after : List DeviceTransition} {x y : DeviceTransition} {handoff : BootHandoff}
    (split : history = before ++ x :: (between ++ y :: after)) (output : x.event.output = some (.handoff handoff))
    (none_ : ∀ z ∈ between, recordsBegin z = false) :
    (∀ next, y.event.output = some (.handoff next) → handoff.bootAttemptId.toNat < next.bootAttemptId.toNat) ∧
    (y.event.input = .confirmBoot handoff.bootAttemptId → recordsConfirmation y = true →
      ∀ z ∈ between, ∀ next, z.event.output ≠ some (.handoff next)) := by
  -- the run up to y
  have part : ∀ earlier z later, history = earlier ++ z :: later → Run DeviceStep ⟨flash, .reset⟩ earlier z.before ∧
      DeviceStep z.before z.event z.after ∧ (∀ w ∈ earlier, NeverFails w.event.calls) ∧
      recordsBegun earlier + recordPrograms z.event.calls < 2 ^ 31 := by
    rintro earlier z later rfl
    obtain ⟨run', step, _⟩ := run.split
    refine ⟨run', step, fun w member => succeed w (List.mem_append_left _ member), ?_⟩
    rw [← List.singleton_append, recordsBegun_append, recordsBegun_append, recordsBegun_single] at few
    omega
  -- a start behind x has a higher id
  have higher : ∀ first z rest next, between ++ y :: after = first ++ z :: rest →
      (∀ w ∈ first, recordsBegin w = false) → z.event.output = some (.handoff next) →
      handoff.bootAttemptId.toNat < next.bootAttemptId.toNat := by
    intro first z rest next same quiet started
    obtain ⟨run', step, earlier, room⟩ := part (before ++ x :: first) z rest (by rw [split, same]; simp)
    have sound := sound_of_run chip.fresh run' (by omega)
    have ids := idsBelow_run chip run' earlier (by omega)
    obtain ⟨grown, _⟩ := id_since_handoff chip run' earlier (by omega) before x first handoff rfl output quiet
    obtain ⟨attempt, _, _, stored, id, _⟩ := attempt_of_handoff sound room step started
    have begun := begun_of_attempted sound step attempt
    rw [id, bootMetadata_of_some stored]
    change _ < (bootMetadata z.before.flash).attempted.bootAttemptId.toNat
    rw [attempted_id ids (by omega)]
    exact Nat.lt_succ_of_le grown
  refine ⟨fun next => higher between y after next rfl none_, ?_⟩
  intro input confirms z member next started
  obtain ⟨first, rest, rfl⟩ := List.append_of_mem member
  have above := higher first z (rest ++ y :: after) next (by simp) (fun w inside => none_ w (by simp [inside]))
    started
  obtain ⟨run', step, earlier, room⟩ := part (before ++ x :: (first ++ z :: rest)) y after (by rw [split]; simp)
  have sound := sound_of_run chip.fresh run' (by omega)
  have grown := (id_since_handoff chip run' earlier (by omega) (before ++ x :: first) z rest next (by simp) started
    fun w inside => none_ w (by simp [inside])).1
  rw [id_of_confirmation sound room step input confirms] at grown
  omega

/-- A chip that is switched off between its first two starts. -/
theorem starts_have_own_ids_two : ∃ x off y final handoff next,
    Run DeviceStep ⟨factoryFlash, .reset⟩ [x, off, y] final ∧
    x.event.output = some (.handoff handoff) ∧ y.event.output = some (.handoff next) ∧
    handoff.bootAttemptId.toNat < next.bootAttemptId.toNat := by
  have field : FieldRun 0 [] ⟨factoryFlash, .reset⟩ := ⟨.nil, by simp, Nat.le_refl 0⟩
  obtain ⟨_, _, step, quiet, one, installed⟩ :=
    factoryFlash_installed.start factoryFlash_fresh.sound (by decide) (by decide)
  have off := (field.next step.turned quiet one).next .powerCut (by simp [NeverFails]) (by simp)
  obtain ⟨_, _, step', quiet', one', _⟩ :=
    installed.start (off.sound (by decide)) (Nat.lt_of_le_of_lt (Nat.succ_le_succ off.few) (by decide)) (by decide)
  have both := off.next step'.turned quiet' one'
  obtain ⟨ids, _⟩ := @starts_have_own_ids _ _ _ factoryFlash_uncounted both.run both.succeed
    (Nat.lt_of_le_of_lt both.few (by decide)) [] [_] [] ⟨_, _, _⟩ _ _ rfl rfl (by simp [recordsBegin])
  exact ⟨_, _, _, _, _, _, both.run, rfl, rfl, ids _ rfl⟩

end Cc1310Firmware.Bootloader
