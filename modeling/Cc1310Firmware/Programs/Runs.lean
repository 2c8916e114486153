import Mathlib.Data.List.Induction

/-! Finite runs of a labelled transition system, with their whole history.

A run keeps the list of its transitions, so that a property can speak about
what happened between two of them. `Run.induction` is the one induction over
runs; an invariant may mention the history.
-/

set_option autoImplicit false

namespace LabelledRun

structure Transition (σ ε : Type) where
  before : σ
  event : ε
  after : σ

variable {σ ε : Type} {step : σ → ε → σ → Prop}

/-- Runs from `start`, newest transition last. -/
inductive Run (step : σ → ε → σ → Prop) (start : σ) : List (Transition σ ε) → σ → Prop where
  | nil : Run step start [] start
  | next {history : List (Transition σ ε)} {s t : σ} {e : ε} :
      Run step start history s → step s e t → Run step start (history ++ [⟨s, e, t⟩]) t

theorem Run.induction {start : σ} {inv : List (Transition σ ε) → σ → Prop} (base : inv [] start)
    (preserved : ∀ history s e t, Run step start history s → inv history s → step s e t →
      inv (history ++ [⟨s, e, t⟩]) t)
    {history : List (Transition σ ε)} {s : σ} (run : Run step start history s) : inv history s := by
  induction run with
  | nil => exact base
  | next run st ih => exact preserved _ _ _ _ run ih st

theorem Run.append {start middle final : σ} {first second : List (Transition σ ε)}
    (left : Run step start first middle) (right : Run step middle second final) :
    Run step start (first ++ second) final := by
  induction right with
  | nil => simpa using left
  | next _ st ih => rw [← List.append_assoc]; exact .next ih st

theorem Run.single {s t : σ} {e : ε} (st : step s e t) : Run step s [⟨s, e, t⟩] t :=
  .next .nil st

theorem Run.final_of_nil {start final : σ} (run : Run step start [] final) : final = start := by
  generalize empty : ([] : List (Transition σ ε)) = history at run
  cases run with
  | nil => rfl
  | next => simp at empty

/-- The transition at any place of a run is a step from the end of the run before it. -/
theorem Run.split {start final : σ} {before after : List (Transition σ ε)} {x : Transition σ ε}
    (run : Run step start (before ++ x :: after) final) :
    Run step start before x.before ∧ step x.before x.event x.after ∧ Run step x.after after final := by
  generalize split : before ++ x :: after = history at run
  induction run generalizing after with
  | nil => simp at split
  | @next history s t e run st ih =>
    rcases List.eq_nil_or_concat after with rfl | ⟨rest, last, rfl⟩
    · obtain ⟨rfl, same⟩ := List.append_inj' split rfl
      cases same
      exact ⟨run, st, .nil⟩
    · rw [List.concat_eq_append, ← List.cons_append, ← List.append_assoc] at split
      obtain ⟨same, last'⟩ := List.append_inj' split rfl
      cases last'
      obtain ⟨left, middle, right⟩ := ih same
      exact ⟨left, middle, by simpa using right.next st⟩

/-- Whether a condition raised by some transition is still standing: the last
transition that raises or clears it decides. -/
def standing (raises clears : Transition σ ε → Bool) : List (Transition σ ε) → Bool :=
  List.foldl (fun up x => if clears x then false else up || raises x) false

theorem standing_concat (raises clears : Transition σ ε → Bool) (history : List (Transition σ ε))
    (x : Transition σ ε) :
    standing raises clears (history ++ [x]) =
      if clears x then false else standing raises clears history || raises x := by
  simp [standing]

theorem standing_of_mem {raises clears : Transition σ ε → Bool}
    {before after : List (Transition σ ε)} {x : Transition σ ε} (raised : raises x = true)
    (kept : clears x = false) (uncleared : ∀ y ∈ after, clears y = false) :
    standing raises clears (before ++ x :: after) = true := by
  induction after using List.reverseRecOn with
  | nil => rw [standing_concat]; simp [raised, kept]
  | append_singleton rest last ih =>
    have previous := ih fun y member => uncleared y (List.mem_append_left _ member)
    have last' := uncleared last (by simp)
    rw [← List.cons_append, ← List.append_assoc, standing_concat]
    simp [previous, last']

/-- A standing condition was raised by some transition, and not cleared since. -/
theorem raised_of_standing {raises clears : Transition σ ε → Bool} {history : List (Transition σ ε)}
    (up : standing raises clears history = true) : ∃ before x after, history = before ++ x :: after ∧
      raises x = true ∧ ∀ y ∈ after, clears y = false := by
  induction history using List.reverseRecOn with
  | nil => cases up
  | append_singleton history last ih =>
    rw [standing_concat] at up
    split at up
    · cases up
    case isFalse kept =>
      rcases (Bool.or_eq_true _ _).mp up with earlier | raised
      · obtain ⟨before, x, after, rfl, raised, uncleared⟩ := ih earlier
        refine ⟨before, x, after ++ [last], by simp, raised, ?_⟩
        intro y member
        rcases List.mem_append.mp member with old | new
        · exact uncleared y old
        · rw [List.mem_singleton.mp new]
          simpa using kept
      · exact ⟨history, last, [], rfl, raised, by simp⟩

end LabelledRun
