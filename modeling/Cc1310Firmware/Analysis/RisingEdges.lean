import Mathlib.Algebra.Order.Ring.Rat
import Mathlib.Data.List.Chain

/-! rising_edges of calculate_rf_latency.py, on exact times. -/

set_option autoImplicit false

namespace Cc1310Firmware.Analysis

/-- The values of a column, "0" and "1". -/
inductive Level where
  | low
  | high
  deriving DecidableEq, Repr

/-- A row, or a transition: a time and the value from then on. -/
structure Sample where
  time : ℚ
  value : Level
  deriving DecidableEq, Repr

structure EdgeState where
  previous : Level
  /-- The transitions, the last one in front. -/
  transitions : List Sample

/-- The level in front of the last transition. -/
def priorValue : List Sample → Level
  | _ :: prior :: _ => prior.value
  | _ => .low

/-- One round of the loop. -/
def edgeStep (glitchFilter : ℚ) (state : EdgeState) (row : Sample) : EdgeState :=
  if row.value = state.previous then state
  else
    match state.transitions with
    | last :: older =>
      -- a transition back within the filter window takes the last one away
      if glitchFilter ≠ 0 ∧ row.value = priorValue state.transitions ∧
        row.time - last.time ≤ glitchFilter then ⟨row.value, older⟩
      else ⟨row.value, row :: state.transitions⟩
    | [] => ⟨row.value, [row]⟩

/-- The transitions that the loop leaves. -/
def keptTransitions (rows : List Sample) (glitchFilter : ℚ) : List Sample :=
  (rows.foldl (edgeStep glitchFilter) ⟨.low, []⟩).transitions.reverse

def risingEdges (rows : List Sample) (glitchFilter : ℚ) : List ℚ :=
  (keptTransitions rows glitchFilter).filterMap fun row => if row.value = .high then some row.time else none

/-! ### The filter -/

/-- Transitions with a change at each and more than `gap` between them, the last one in front. -/
structure Clean (gap : ℚ) (transitions : List Sample) : Prop where
  chain : transitions.IsChain fun newer older => newer.value ≠ older.value ∧ gap < newer.time - older.time
  first : ∀ bottom ∈ transitions.getLast?, bottom.value = .high

/-- The level behind the last transition. -/
def levelOf (transitions : List Sample) : Level := transitions.head?.elim .low Sample.value

theorem Level.eq_of_ne {a b c : Level} (first : a ≠ b) (second : c ≠ b) : a = c := by
  cases a <;> cases b <;> cases c <;> simp_all

section
variable {gap : ℚ} {last row : Sample} {older transitions : List Sample}

theorem Clean.tail (clean : Clean gap (last :: older)) : Clean gap older where
  chain := clean.chain.tail
  first bottom member := by
    apply clean.first
    cases older with
    | nil => cases member
    | cons next older => rwa [List.getLast?_cons_cons]

theorem Clean.suffix {front : List Sample} (clean : Clean gap (front ++ transitions)) : Clean gap transitions := by
  induction front with
  | nil => exact clean
  | cons newer front ih => exact ih clean.tail

/-- Levels alternate from low on, so the level before the last transition is the opposite of its own. -/
theorem Clean.priorValue_ne (clean : Clean gap (last :: older)) : priorValue (last :: older) ≠ last.value := by
  cases older with
  | nil =>
    rw [clean.first last rfl]
    exact show Level.low ≠ Level.high by decide
  | cons prior older => exact (List.isChain_cons_cons.mp clean.chain).1.1.symm

theorem Clean.levelOf_tail (clean : Clean gap (last :: older)) : levelOf older = priorValue (last :: older) := by
  cases older with
  | nil => rfl
  | cons prior older => rfl

/-- A change that comes late enough. -/
theorem Clean.push (clean : Clean gap transitions) (change : row.value ≠ levelOf transitions)
    (late : ∀ last ∈ transitions.head?, gap < row.time - last.time) : Clean gap (row :: transitions) := by
  cases transitions with
  | nil =>
    refine ⟨.singleton row, ?_⟩
    rintro bottom ⟨⟩
    exact Level.eq_of_ne change (b := .low) (by decide)
  | cons last older =>
    refine ⟨List.isChain_cons_cons.mpr ⟨⟨change, late last rfl⟩, clean.chain⟩, ?_⟩
    rw [List.getLast?_cons_cons]
    exact clean.first

/-- A change is kept if it is late enough, and takes the last transition away otherwise. -/
theorem Clean.edgeStep_eq (positive : gap ≠ 0) (clean : Clean gap (last :: older))
    (change : row.value ≠ last.value) :
    edgeStep gap ⟨last.value, last :: older⟩ row =
      if row.time - last.time ≤ gap then ⟨row.value, older⟩ else ⟨row.value, row :: last :: older⟩ := by
  have prior : row.value = priorValue (last :: older) := Level.eq_of_ne change clean.priorValue_ne
  unfold edgeStep
  dsimp only
  rw [if_neg change]
  by_cases close : row.time - last.time ≤ gap
  · rw [if_pos close, if_pos ⟨positive, prior, close⟩]
  · rw [if_neg close, if_neg fun all => close all.2.2]

/-- What a round preserves. -/
theorem Clean.step (positive : gap ≠ 0) (clean : Clean gap transitions) (row : Sample) : ∃ kept,
    edgeStep gap ⟨levelOf transitions, transitions⟩ row = ⟨levelOf kept, kept⟩ ∧ Clean gap kept := by
  by_cases same : row.value = levelOf transitions
  case pos => exact ⟨transitions, if_pos same, clean⟩
  case neg =>
    cases transitions with
    | nil => exact ⟨[row], if_neg same, clean.push same fun last none_ => by cases none_⟩
    | cons last older =>
      have step := clean.edgeStep_eq positive same
      by_cases close : row.time - last.time ≤ gap
      · rw [if_pos close, Level.eq_of_ne same clean.priorValue_ne, ← clean.levelOf_tail] at step
        exact ⟨older, step, clean.tail⟩
      · rw [if_neg close] at step
        refine ⟨row :: last :: older, step, clean.push same ?_⟩
        rintro last' ⟨⟩
        exact lt_of_not_ge close

theorem Clean.run (positive : gap ≠ 0) (clean : Clean gap transitions) (rows : List Sample) : ∃ kept,
    rows.foldl (edgeStep gap) ⟨levelOf transitions, transitions⟩ = ⟨levelOf kept, kept⟩ ∧ Clean gap kept := by
  induction rows generalizing transitions with
  | nil => exact ⟨transitions, rfl, clean⟩
  | cons row rows ih =>
    obtain ⟨next, step, clean'⟩ := clean.step positive row
    rw [List.foldl_cons, step]
    exact ih clean'

/-- A clean list is kept as it is. -/
theorem Clean.again (positive : gap ≠ 0) {rows : List Sample} (clean : Clean gap (rows.reverse ++ transitions)) :
    rows.foldl (edgeStep gap) ⟨levelOf transitions, transitions⟩ =
      ⟨levelOf (rows.reverse ++ transitions), rows.reverse ++ transitions⟩ := by
  induction rows generalizing transitions with
  | nil => rfl
  | cons row rows ih =>
    rw [List.reverse_cons, List.append_assoc, List.singleton_append] at clean ⊢
    have step : edgeStep gap ⟨levelOf transitions, transitions⟩ row =
        ⟨levelOf (row :: transitions), row :: transitions⟩ := by
      have here := clean.suffix
      cases transitions with
      | nil =>
        have change : row.value ≠ .low := by
          rw [here.first row rfl]
          decide
        exact if_neg change
      | cons last older =>
        obtain ⟨change, late⟩ := (List.isChain_cons_cons.mp here.chain).1
        exact (here.tail.edgeStep_eq positive change).trans (if_neg (not_le_of_gt late))
    rw [List.foldl_cons, step]
    exact ih clean

end

/-! ### Without a filter -/

/-- The times of the changes from low to high; `before` is the level in front. -/
def riseTimes (before : Level) (rows : List Sample) : List ℚ :=
  ((before :: rows.map Sample.value).zip rows).filterMap fun step =>
    if step.1 = .low ∧ step.2.value = .high then some step.2.time else none

theorem riseTimes_cons (before : Level) (row : Sample) (rows : List Sample) : riseTimes before (row :: rows) =
    (if before = .low ∧ row.value = .high then [row.time] else []) ++ riseTimes row.value rows := by
  unfold riseTimes
  rw [List.map_cons, List.zip_cons_cons, List.filterMap_cons]
  by_cases rise : before = .low ∧ row.value = .high
  · rw [if_pos rise, if_pos rise]
    rfl
  · rw [if_neg rise, if_neg rise]
    rfl

theorem edgeStep_unfiltered (previous : Level) (transitions : List Sample) (row : Sample) :
    edgeStep 0 ⟨previous, transitions⟩ row =
      ⟨row.value, if row.value = previous then transitions else row :: transitions⟩ := by
  unfold edgeStep
  by_cases same : row.value = previous
  · rw [if_pos same, if_pos same, same]
  · rw [if_neg same, if_neg same]
    cases transitions with
    | nil => rfl
    | cons last older => exact if_neg fun all => all.1 rfl

theorem run_unfiltered (rows : List Sample) (previous : Level) (transitions : List Sample) :
    ((rows.foldl (edgeStep 0) ⟨previous, transitions⟩).transitions.reverse.filterMap
      fun row => if row.value = .high then some row.time else none) =
      (transitions.reverse.filterMap fun row => if row.value = .high then some row.time else none) ++
        riseTimes previous rows := by
  induction rows generalizing previous transitions with
  | nil => exact (List.append_nil _).symm
  | cons row rows ih =>
    rw [List.foldl_cons, edgeStep_unfiltered, ih, riseTimes_cons, ← List.append_assoc]
    congr 1
    by_cases same : row.value = previous
    · have noRise : ¬ (previous = .low ∧ row.value = .high) := by
        rintro ⟨rfl, high⟩
        rw [high] at same
        cases same
      rw [if_pos same, if_neg noRise, List.append_nil]
    · -- the level before a change to high was low
      have rise : previous = .low ∧ row.value = .high ↔ row.value = .high :=
        and_iff_right_of_imp fun high => Level.eq_of_ne (b := .high) (fun both => same (high.trans both.symm))
          (by decide)
      rw [if_neg same, List.reverse_cons, List.filterMap_append]
      by_cases high : row.value = .high
      · rw [if_pos (rise.mpr high)]
        simp [high]
      · rw [if_neg fun both => high (rise.mp both)]
        simp [high]

/-- The kept transitions begin high, alternate and are more than the filter's width apart;
filtered again they are all kept; and without a filter the result is the times of the rises. -/
theorem risingEdges_clean (rows : List Sample) :
    (∀ gap, 0 < gap →
      (keptTransitions rows gap).IsChain (fun earlier later => earlier.value ≠ later.value ∧
        gap < later.time - earlier.time) ∧
      (∀ first ∈ (keptTransitions rows gap).head?, first.value = .high) ∧
      keptTransitions (keptTransitions rows gap) gap = keptTransitions rows gap) ∧
    risingEdges rows 0 = riseTimes .low rows := by
  refine ⟨fun gap positive => ?_, run_unfiltered rows .low []⟩
  have start : Clean gap [] := ⟨.nil, fun bottom none_ => by cases none_⟩
  obtain ⟨kept, run, clean⟩ := start.run positive.ne' rows
  have kept_ : keptTransitions rows gap = kept.reverse := by
    rw [keptTransitions]
    exact congrArg (fun state => state.transitions.reverse) run
  rw [kept_]
  refine ⟨?_, ?_, ?_⟩
  · rw [List.isChain_reverse]
    exact clean.chain.imp fun newer older both => ⟨both.1.symm, both.2⟩
  · rw [List.head?_reverse]
    exact clean.first
  · have again := @Clean.again gap [] positive.ne' kept.reverse (by rwa [List.reverse_reverse, List.append_nil])
    rw [List.reverse_reverse, List.append_nil] at again
    exact congrArg (fun state => state.transitions.reverse) again

/-- A pulse of one unit in a longer one. -/
theorem risingEdges_clean_pulse : keptTransitions (keptTransitions
    [⟨0, .high⟩, ⟨10, .low⟩, ⟨11, .high⟩, ⟨30, .low⟩] 2) 2 = keptTransitions
      [⟨0, .high⟩, ⟨10, .low⟩, ⟨11, .high⟩, ⟨30, .low⟩] 2 :=
  ((risingEdges_clean _).1 2 (by decide +kernel)).2.2

end Cc1310Firmware.Analysis
