import Cc1310Firmware.Radio.RxCallback

/-! The callback against bursts of entries.

A callback handles one entry, however many were finished since the last one.
It keeps up exactly as long as no entry finishes while RF_EventRxEntryDone is
still waiting for its callback.
-/

set_option autoImplicit false

namespace Cc1310Firmware.Radio
open LabelledRun

/-- The entries that the RF core has finished, in order. -/
def completed (history : List RxTransition) : List (Nat → Byte) :=
  history.filterMap fun x => match x.event.input with
    | .complete data => some data
    | _ => none

/-- What callbacks have made of entries, in order. -/
def handled (history : List RxTransition) : List Outcome := history.filterMap fun x => x.event.outcome

/-- RF_EventRxEntryDone is in the mask of the callback that is under way. -/
def CallbackPoint.hasEntry : CallbackPoint → Bool
  | .outside => false
  | .entered e | .handled e => e.rxEntryDone

def RxInput.isLeave : RxInput → Bool
  | .leave => true
  | _ => false

def RxInput.isComplete : RxInput → Bool
  | .complete _ => true
  | _ => false

/-- The number of entries that callbacks have given back. -/
def returned (history : List RxTransition) : Nat :=
  history.countP fun x => x.event.input.isLeave && x.before.point.hasEntry

/-- An entry finishes while RF_EventRxEntryDone waits for a callback. -/
def Coalesces (x : RxTransition) : Bool := x.event.input.isComplete && x.before.events.rxEntryDone

/-- A callback that has RF_EventRxEntryDone, from its start to its return. -/
structure EntryCallback (start : RxTransition) (during : List RxTransition) (leave : RxTransition) : Prop where
  enters : start.event.input = .enter
  entry : start.before.events.rxEntryDone = true
  inside : ∀ x ∈ during, x.event.input.isLeave = false
  leaves : leave.event.input = .leave

/-! ## Along a run -/

section
variable (history : List RxTransition) (x : RxTransition)

theorem completed_concat : completed (history ++ [x]) = completed history ++
    match x.event.input with
    | .complete data => [data]
    | _ => [] := by
  unfold completed
  rw [List.filterMap_append]
  cases h : x.event.input <;> simp [h]

theorem completed_quiet (input : x.event.input.isComplete = false) :
    completed (history ++ [x]) = completed history := by
  rw [completed_concat]
  cases same : x.event.input with
  | complete => rw [same] at input; cases input
  | _ => exact List.append_nil _

theorem handled_concat : handled (history ++ [x]) = handled history ++ x.event.outcome.toList := by
  unfold handled
  rw [List.filterMap_append]
  cases h : x.event.outcome <;> simp [h]

theorem returned_concat : returned (history ++ [x]) =
    returned history + if x.event.input.isLeave && x.before.point.hasEntry then 1 else 0 := by
  simp [returned, List.countP_append, List.countP_singleton]

theorem coalesced_concat : (history ++ [x]).countP Coalesces =
    history.countP Coalesces + if Coalesces x then 1 else 0 := by
  simp [List.countP_append, List.countP_singleton]

end

/-- The entries as they stand in the ring. -/
def finishedEntries (history : List RxTransition) : List DataEntry :=
  (completed history).map fun data => ⟨.finished, data⟩

def CallbackPoint.unhandled : CallbackPoint → Nat
  | .entered e => if e.rxEntryDone then 1 else 0
  | .outside | .handled _ => 0

def CallbackPoint.unreturned : CallbackPoint → Nat
  | .handled e => if e.rxEntryDone then 1 else 0
  | .outside | .entered _ => 0

structure RxInv (history : List RxTransition) (s : RxState) : Prop where
  ring : SlotRing.Holds s.entries (finishedEntries history) (returned history)
  read : s.readEntry = SlotRing.place numDataEntries (returned history)
  curr : s.pCurrEntry = SlotRing.place numDataEntries (completed history).length
  inOrder : handled history = ((completed history).take (handled history).length).map outcome
  served : (handled history).length = returned history + s.point.unreturned
  balance : (completed history).length = (handled history).length + s.point.unhandled +
    (if s.events.rxEntryDone then 1 else 0) + history.countP Coalesces

theorem RxInv.start (data : Fin numDataEntries → Nat → Byte) : RxInv [] (RxState.start data) where
  ring := .start _
  read := rfl
  curr := rfl
  inOrder := rfl
  served := rfl
  balance := rfl

section
variable {history : List RxTransition} {s t : RxState}

/-- A step that moves no entry. -/
theorem RxInv.quiet {event : RxEvent} (inv : RxInv history s) (input : event.input.isComplete = false)
    (kept : (event.input.isLeave && s.point.hasEntry) = false) (outcome : event.outcome = none)
    (entries : t.entries = s.entries) (read : t.readEntry = s.readEntry) (curr : t.pCurrEntry = s.pCurrEntry)
    (unreturned : t.point.unreturned = s.point.unreturned)
    (waiting : t.point.unhandled + (if t.events.rxEntryDone then 1 else 0) =
      s.point.unhandled + (if s.events.rxEntryDone then 1 else 0)) : RxInv (history ++ [⟨s, event, t⟩]) t := by
  have completed' : completed (history ++ [⟨s, event, t⟩]) = completed history := completed_quiet _ _ input
  have handled' : handled (history ++ [⟨s, event, t⟩]) = handled history := by
    rw [handled_concat, outcome]
    exact List.append_nil _
  have returned' : returned (history ++ [⟨s, event, t⟩]) = returned history := by
    rw [returned_concat, kept]
    rfl
  have coalesced' : List.countP Coalesces (history ++ [⟨s, event, t⟩]) = history.countP Coalesces := by
    rw [coalesced_concat]
    simp [Coalesces, input]
  have balance := inv.balance
  refine ⟨?_, ?_, ?_, ?_, ?_, ?_⟩
  · unfold finishedEntries
    rw [completed', returned', entries]
    exact inv.ring
  · rw [returned', read]
    exact inv.read
  · rw [completed', curr]
    exact inv.curr
  · rw [completed', handled']
    exact inv.inOrder
  · rw [handled', returned', unreturned]
    exact inv.served
  · rw [completed', handled', coalesced']
    omega

theorem RxInv.complete (inv : RxInv history s) (data : Nat → Byte)
    (pending : (s.entries s.pCurrEntry).status = .pending)
    (entries : t.entries = Function.update s.entries s.pCurrEntry ⟨.finished, data⟩)
    (read : t.readEntry = s.readEntry) (curr : t.pCurrEntry = s.pCurrEntry + 1) (point : t.point = s.point)
    (raised : t.events.rxEntryDone = true) : RxInv (history ++ [⟨s, ⟨.complete data, none⟩, t⟩]) t := by
  have completed' : completed (history ++ [⟨s, ⟨.complete data, none⟩, t⟩]) = completed history ++ [data] :=
    completed_concat _ _
  have handled' : handled (history ++ [⟨s, ⟨.complete data, none⟩, t⟩]) = handled history :=
    (handled_concat _ _).trans (List.append_nil _)
  have returned' : returned (history ++ [⟨s, ⟨.complete data, none⟩, t⟩]) = returned history := returned_concat _ _
  have finished' : finishedEntries (history ++ [⟨s, ⟨.complete data, none⟩, t⟩]) = finishedEntries history ++
      [⟨.finished, data⟩] := by
    unfold finishedEntries
    rw [completed', List.map_append]
    rfl
  have coalesced' := coalesced_concat history ⟨s, ⟨.complete data, none⟩, t⟩
  have late : Coalesces ⟨s, ⟨.complete data, none⟩, t⟩ = s.events.rxEntryDone := rfl
  -- the event is lost in the one that the callback has not seen yet
  rw [late] at coalesced'
  have length : (finishedEntries history).length = (completed history).length := List.length_map _
  have balance := inv.balance
  refine ⟨?_, ?_, ?_, ?_, ?_, ?_⟩
  · rw [finished', returned', entries, inv.curr, ← length]
    apply inv.ring.push
    -- the radio fills a pending entry only, so an unreturned one is not overwritten
    apply inv.ring.room
    intro inside same
    rw [length, ← inv.curr] at same
    rw [same] at pending
    simp [finishedEntries] at pending
  · rw [returned', read]
    exact inv.read
  · rw [completed', curr, inv.curr, List.length_append]
    exact SlotRing.place_succ _
  · rw [completed', handled', List.take_append_of_le_length (by omega)]
    exact inv.inOrder
  · rw [handled', returned', point]
    exact inv.served
  · rw [completed', handled', coalesced', point, raised, if_pos rfl, List.length_append, List.length_singleton]
    omega

/-- The entry that the callback handles is the next one in order. -/
theorem RxInv.front (inv : RxInv history s) (entered : s.point.unhandled = 1)
    (unreturned : s.point.unreturned = 0) :
    ∃ inside : (handled history).length < (completed history).length,
      s.rfQueueGetDataEntry = ⟨.finished, (completed history)[(handled history).length]⟩ := by
  have balance := inv.balance
  have served := inv.served
  rw [unreturned, Nat.add_zero] at served
  have inside : (handled history).length < (completed history).length := by omega
  have here := inv.ring.held (returned history)
    (by rw [← served]; exact Nat.lt_of_lt_of_eq inside (List.length_map _).symm) (Nat.le_refl _)
  refine ⟨inside, ?_⟩
  unfold RxState.rfQueueGetDataEntry
  rw [inv.read, here]
  simp only [finishedEntries, List.getElem_map, served]

/-- The callback makes something of its entry, which then waits to be given back. -/
theorem RxInv.handleEntry {event : RxEvent} (inv : RxInv history s) (input : event.input.isComplete = false)
    (stays : event.input.isLeave = false) (outcome_ : event.outcome = some (outcome s.rfQueueGetDataEntry.data))
    (entries : t.entries = s.entries) (read : t.readEntry = s.readEntry) (curr : t.pCurrEntry = s.pCurrEntry)
    (events : t.events = s.events) (entered : s.point.unhandled = 1) (unreturned : s.point.unreturned = 0)
    (handled_ : t.point.unhandled = 0) (unreturned' : t.point.unreturned = 1) :
    RxInv (history ++ [⟨s, event, t⟩]) t := by
  obtain ⟨inside, here⟩ := inv.front entered unreturned
  rw [here] at outcome_
  have completed' : completed (history ++ [⟨s, event, t⟩]) = completed history := completed_quiet _ _ input
  have handled' : handled (history ++ [⟨s, event, t⟩]) = handled history ++
      [outcome (completed history)[(handled history).length]] := by
    rw [handled_concat, outcome_]
    rfl
  have returned' : returned (history ++ [⟨s, event, t⟩]) = returned history := by
    rw [returned_concat, stays]
    rfl
  have coalesced' : List.countP Coalesces (history ++ [⟨s, event, t⟩]) = history.countP Coalesces := by
    rw [coalesced_concat]
    simp [Coalesces, input]
  have served := inv.served
  have balance := inv.balance
  refine ⟨?_, ?_, ?_, ?_, ?_, ?_⟩
  · unfold finishedEntries
    rw [completed', returned', entries]
    exact inv.ring
  · rw [returned', read]
    exact inv.read
  · rw [completed', curr]
    exact inv.curr
  · rw [completed', handled', List.length_append, List.length_singleton, List.take_succ_eq_append_getElem inside,
      List.map_append, ← inv.inOrder]
    rfl
  · rw [handled', returned', unreturned', List.length_append, List.length_singleton, served, unreturned]
  · rw [completed', handled', coalesced', handled_, events, List.length_append, List.length_singleton]
    omega

/-- RFQueue_nextEntry gives back the entry that was handled. -/
theorem RxInv.giveBack {event : RxEvent} (inv : RxInv history s) (input : event.input.isComplete = false)
    (kept : (event.input.isLeave && s.point.hasEntry) = true) (outcome_ : event.outcome = none)
    (next : t.entries = s.rfQueueNextEntry.entries) (read : t.readEntry = s.readEntry + 1)
    (curr : t.pCurrEntry = s.pCurrEntry) (events : t.events = s.events) (handled_ : s.point.unhandled = 0)
    (unreturned : s.point.unreturned = 1) (out : t.point = .outside) : RxInv (history ++ [⟨s, event, t⟩]) t := by
  have completed' : completed (history ++ [⟨s, event, t⟩]) = completed history := completed_quiet _ _ input
  have handled' : handled (history ++ [⟨s, event, t⟩]) = handled history := by
    rw [handled_concat, outcome_]
    exact List.append_nil _
  have returned' : returned (history ++ [⟨s, event, t⟩]) = returned history + 1 := by
    rw [returned_concat, kept]
    rfl
  have coalesced' : List.countP Coalesces (history ++ [⟨s, event, t⟩]) = history.countP Coalesces := by
    rw [coalesced_concat]
    simp [Coalesces, input]
  have served := inv.served
  have balance := inv.balance
  refine ⟨?_, ?_, ?_, ?_, ?_, ?_⟩
  · unfold finishedEntries
    rw [completed', returned', next]
    unfold RxState.rfQueueNextEntry
    rw [inv.read]
    apply inv.ring.pop
    unfold finishedEntries
    rw [List.length_map]
    omega
  · rw [returned', read, inv.read]
    exact SlotRing.place_succ _
  · rw [completed', curr]
    exact inv.curr
  · rw [completed', handled']
    exact inv.inOrder
  · rw [handled', returned', out, served, unreturned]
    rfl
  · rw [completed', handled', coalesced', out, events]
    rw [handled_] at balance
    exact balance

theorem RxInv.step {event : RxEvent} (inv : RxInv history s) (step : RxStep s event t) :
    RxInv (history ++ [⟨s, event, t⟩]) t := by
  cases step with
  | complete data pending => exact inv.complete data pending rfl rfl rfl rfl rfl
  | raise e other =>
    refine inv.quiet rfl rfl rfl rfl rfl rfl rfl ?_
    simp [RfEventMask.union, other]
  | enter outside some_ =>
    refine inv.quiet rfl rfl rfl rfl rfl rfl ?_ ?_
    · rw [outside]
      rfl
    · rw [outside]
      simp [CallbackPoint.unhandled, RfEventMask.none]
  | @handle e ticks entered =>
    cases entry : e.rxEntryDone with
    | true =>
      refine inv.handleEntry rfl rfl rfl rfl rfl rfl rfl ?_ ?_ rfl (if_pos entry)
      · rw [entered]
        exact if_pos entry
      · rw [entered]
        rfl
    | false =>
      -- another event: there is no entry to handle
      refine inv.quiet rfl rfl rfl rfl rfl rfl ?_ ?_
      · rw [entered]
        simp [CallbackPoint.unreturned, entry]
      · rw [entered]
        simp [CallbackPoint.unhandled, entry]
  | @leave e done =>
    cases entry : e.rxEntryDone with
    | true =>
      refine inv.giveBack rfl ?_ rfl rfl rfl rfl rfl ?_ ?_ rfl
      · rw [done]
        exact entry
      · rw [done]
        rfl
      · rw [done]
        exact if_pos entry
    | false =>
      -- nothing was taken, so nothing is given back
      refine inv.quiet rfl ?_ rfl rfl rfl rfl ?_ ?_
      · rw [done]
        exact entry
      · rw [done]
        simp [CallbackPoint.unreturned, entry]
      · rw [done]
        rfl
  | mailboxPend => exact inv.quiet rfl rfl rfl rfl rfl rfl rfl rfl

theorem RxInv.run {data : Fin numDataEntries → Nat → Byte} (run : Run RxStep (.start data) history s) :
    RxInv history s :=
  run.induction (.start data) fun _ _ _ _ _ inv step => inv.step step

end

/-! ## One callback -/

section
variable {earlier during : List RxTransition} {start leave : RxTransition} {data : Fin numDataEntries → Nat → Byte}
  {final : RxState}

theorem EntryCallback.returned (callback : EntryCallback start during leave)
    (inside : leave.before.point.hasEntry = true) :
    returned (earlier ++ start :: (during ++ [leave])) = Radio.returned earlier + 1 := by
  have none_ : during.countP (fun x => x.event.input.isLeave && x.before.point.hasEntry) = 0 := by
    apply List.countP_eq_zero.mpr
    intro x member
    simp [callback.inside x member]
  have first : (start.event.input.isLeave && start.before.point.hasEntry) = false := by
    rw [callback.enters]
    rfl
  have last : (leave.event.input.isLeave && leave.before.point.hasEntry) = true := by
    rw [callback.leaves]
    exact inside
  unfold Radio.returned
  rw [List.countP_append, List.countP_cons, List.countP_append, List.countP_singleton, none_, first, last]
  rfl

theorem RxStep.entered {s t : RxState} {event : RxEvent} (step : RxStep s event t) (enters : event.input = .enter) :
    s.point = .outside ∧ t.point = .entered s.events := by
  cases step with
  | enter outside => exact ⟨outside, rfl⟩
  | _ => cases enters

theorem RxStep.left {s t : RxState} {event : RxEvent} (step : RxStep s event t) (leaves : event.input = .leave) :
    t.point = .outside := by
  cases step with
  | leave => rfl
  | _ => cases leaves

end

end Cc1310Firmware.Radio
