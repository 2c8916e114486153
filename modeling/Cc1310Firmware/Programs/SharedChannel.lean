import Cc1310Firmware.Programs.Runs
import Mathlib.Logic.Function.Basic

/-! Writers that put their messages on one channel, a piece at a time.

A message begins with its first piece, when its writer has finished the one before.
Other writers may come in between two pieces. In a run where none does, the channel
carries the messages one after the other.
-/

set_option autoImplicit false

namespace SharedChannel
open LabelledRun

/-- Who writes a message, and in which pieces. -/
structure Traffic (ι α M : Type) where
  writer : M → ι
  pieces : M → List (List α)

variable {ι α M : Type}

def Traffic.text (traffic : Traffic ι α M) (m : M) : List α := (traffic.pieces m).flatten

/-- What each writer has left to write of its message, and what the channel has carried. -/
structure Channel (ι α : Type) where
  left : ι → List (List α)
  output : List α

def Channel.quiet : Channel ι α := ⟨fun _ => [], []⟩

def Channel.put [DecidableEq ι] (c : Channel ι α) (i : ι) (piece : List α) (rest : List (List α)) : Channel ι α :=
  ⟨Function.update c.left i rest, c.output ++ piece⟩

inductive Event (ι M : Type) where
  | start (m : M)
  | more (i : ι)

def Event.writer (traffic : Traffic ι α M) : Event ι M → ι
  | .start m => traffic.writer m
  | .more i => i

inductive Step [DecidableEq ι] (traffic : Traffic ι α M) : Channel ι α → Event ι M → Channel ι α → Prop where
  | start {c : Channel ι α} {m : M} {piece : List α} {rest : List (List α)} : c.left (traffic.writer m) = [] →
      traffic.pieces m = piece :: rest → Step traffic c (.start m) (c.put (traffic.writer m) piece rest)
  | more {c : Channel ι α} {i : ι} {piece : List α} {rest : List (List α)} : c.left i = piece :: rest →
      Step traffic c (.more i) (c.put i piece rest)

/-- No other writer is in the middle of a message. -/
def Channel.Alone (c : Channel ι α) (i : ι) : Prop := ∀ j, j ≠ i → c.left j = []

def Exclusive (traffic : Traffic ι α M) (x : Transition (Channel ι α) (Event ι M)) : Prop :=
  x.before.Alone (x.event.writer traffic)

/-- The messages of a run, in the order in which they were begun. -/
def started (history : List (Transition (Channel ι α) (Event ι M))) : List M :=
  history.filterMap fun x => match x.event with
    | .start m => some m
    | .more _ => none

variable [DecidableEq ι] {traffic : Traffic ι α M}

@[simp] theorem Channel.put_left_self (c : Channel ι α) (i : ι) (piece : List α) (rest : List (List α)) :
    (c.put i piece rest).left i = rest := by
  simp [Channel.put]

theorem Channel.Alone.put {c : Channel ι α} {i : ι} (alone : c.Alone i) (piece : List α) (rest : List (List α)) :
    (c.put i piece rest).Alone i := by
  intro j other
  exact (Function.update_of_ne other rest c.left).trans (alone j other)

/-- The channel and what is left of the last message make up the messages of the run. -/
structure Contiguous (traffic : Traffic ι α M) (history : List (Transition (Channel ι α) (Event ι M)))
    (c : Channel ι α) (i : ι) : Prop where
  alone : c.Alone i
  text : c.output ++ (c.left i).flatten = (started history).flatMap traffic.text

theorem Contiguous.step {history : List (Transition (Channel ι α) (Event ι M))} {c d : Channel ι α} {i : ι}
    {e : Event ι M} (before : Contiguous traffic history c i) (st : Step traffic c e d)
    (exclusive : Exclusive traffic ⟨c, e, d⟩) :
    ∃ j, Contiguous traffic (history ++ [⟨c, e, d⟩]) d j := by
  obtain ⟨alone, text⟩ := before
  cases st with
  | @start m piece rest idle first =>
    -- the message before this one is complete, whoever wrote it
    have finished : c.left i = [] := by
      by_cases same : i = traffic.writer m
      · rw [same, idle]
      · exact exclusive i same
    refine ⟨traffic.writer m, Channel.Alone.put exclusive piece rest, ?_⟩
    rw [finished, List.flatten_nil, List.append_nil] at text
    rw [Channel.put_left_self, started, List.filterMap_append, ← started, List.flatMap_append, ← text]
    change c.output ++ piece ++ rest.flatten = c.output ++ (traffic.text m ++ [])
    rw [Traffic.text, first, List.flatten_cons, List.append_nil, List.append_assoc]
  | @more j piece rest pending =>
    have same : j = i := by
      by_contra other
      rw [alone j other] at pending
      cases pending
    subst same
    refine ⟨j, Channel.Alone.put exclusive piece rest, ?_⟩
    rw [Channel.put_left_self, started, List.filterMap_append, ← started, List.flatMap_append, ← text, pending,
      List.flatten_cons]
    change c.output ++ piece ++ rest.flatten = c.output ++ (piece ++ rest.flatten) ++ []
    rw [List.append_nil, List.append_assoc]

theorem contiguous_of_exclusive [Inhabited ι] {history : List (Transition (Channel ι α) (Event ι M))}
    {c : Channel ι α} (run : Run (Step traffic) Channel.quiet history c)
    (exclusive : ∀ x ∈ history, Exclusive traffic x) :
    ∃ i, Contiguous traffic history c i := by
  induction run with
  | nil => exact ⟨default, fun _ _ => rfl, rfl⟩
  | next _ st ih =>
    obtain ⟨i, before⟩ := ih fun x member => exclusive x (List.mem_append_left _ member)
    exact before.step st (exclusive _ (by simp))

omit [DecidableEq ι] in
theorem Contiguous.output_eq {history : List (Transition (Channel ι α) (Event ι M))} {c : Channel ι α} {i : ι}
    (whole : Contiguous traffic history c i) (idle : c.left i = []) :
    c.output = (started history).flatMap traffic.text := by
  have text := whole.text
  rwa [idle, List.flatten_nil, List.append_nil] at text

end SharedChannel
