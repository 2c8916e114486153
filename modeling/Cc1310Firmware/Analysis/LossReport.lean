import Cc1310Firmware.Analysis.EventReport
import Mathlib.Data.List.AList
import Mathlib.Data.List.Sort
import Mathlib.Algebra.Order.Floor.Ring
import Mathlib.Data.Rat.Floor

/-! The loss figures of calculate_rf_latency.py of 0917: missing events and their runs, and
the estimate from long gaps between receive edges. Times are exact.
-/

set_option autoImplicit false

namespace Cc1310Firmware.Analysis

/-! ### missing_runs -/

structure RunState where
  runs : List (Nat × Nat)
  start : Option Nat

/-- One round of the loop; events count from 1. -/
def missingStep (state : RunState) (entry : Option ℚ × Nat) : RunState :=
  match entry.1, state.start with
  | none, none => ⟨state.runs, some entry.2⟩
  | some _, some start => ⟨state.runs ++ [(start, entry.2 - 1)], none⟩
  | _, _ => state

def missingScan (matches_ : List (Option ℚ)) : RunState := (matches_.zipIdx 1).foldl missingStep ⟨[], none⟩

/-- The runs when `n` events have been seen. -/
def RunState.closed (state : RunState) (n : Nat) : List (Nat × Nat) :=
  state.runs ++ match state.start with
    | some start => [(start, n)]
    | none => []

def missingRuns (matches_ : List (Option ℚ)) : List (Nat × Nat) := (missingScan matches_).closed matches_.length

/-- `event` lies in one of the runs. -/
def InRuns (runs : List (Nat × Nat)) (event : Nat) : Prop := ∃ run ∈ runs, run.1 ≤ event ∧ event ≤ run.2

/-- Runs in order, with an event between each two of them. -/
def Separate (runs : List (Nat × Nat)) : Prop := runs.IsChain fun earlier later => earlier.2 + 2 ≤ later.1

/-- The runs of the missing events among the first `n`. -/
structure Covers (runs : List (Nat × Nat)) (missing : Nat → Prop) (n : Nat) : Prop where
  exact_ : ∀ event, InRuns runs event ↔ 1 ≤ event ∧ event ≤ n ∧ missing event
  ordered : ∀ run ∈ runs, run.1 ≤ run.2
  separate : Separate runs

section
variable {runs : List (Nat × Nat)} {missing : Nat → Prop} {n start : Nat}

theorem inRuns_append {others : List (Nat × Nat)} {event : Nat} :
    InRuns (runs ++ others) event ↔ InRuns runs event ∨ InRuns others event := by
  unfold InRuns
  simp only [List.mem_append, or_and_right, exists_or]

theorem inRuns_singleton {run : Nat × Nat} {event : Nat} : InRuns [run] event ↔ run.1 ≤ event ∧ event ≤ run.2 := by
  unfold InRuns
  simp

theorem separate_concat {run : Nat × Nat} :
    Separate (runs ++ [run]) ↔ Separate runs ∧ ∀ last ∈ runs.getLast?, last.2 + 2 ≤ run.1 := by
  unfold Separate
  rw [List.isChain_append]
  simp

/-- A received event behind the runs. -/
theorem Covers.received (covers : Covers runs missing n) (received : ¬ missing (n + 1)) :
    Covers runs missing (n + 1) where
  exact_ event := by
    rw [covers.exact_]
    constructor
    · rintro ⟨low, high, miss⟩
      exact ⟨low, Nat.le_succ_of_le high, miss⟩
    · rintro ⟨low, high, miss⟩
      refine ⟨low, ?_, miss⟩
      rcases Nat.le_succ_iff.mp high with below | rfl
      · exact below
      · exact absurd miss received
  ordered := covers.ordered
  separate := covers.separate

/-- The first missing event behind a received one. -/
theorem Covers.open (covers : Covers runs missing n) (received : n = 0 ∨ ¬ missing n) (miss : missing (n + 1)) :
    Covers (runs ++ [(n + 1, n + 1)]) missing (n + 1) where
  exact_ event := by
    rw [inRuns_append, covers.exact_, inRuns_singleton]
    constructor
    · rintro (⟨low, high, here⟩ | ⟨low, high⟩)
      · exact ⟨low, Nat.le_succ_of_le high, here⟩
      · obtain rfl := Nat.le_antisymm high low
        exact ⟨Nat.le_add_left 1 n, Nat.le_refl _, miss⟩
    · rintro ⟨low, high, here⟩
      rcases Nat.le_succ_iff.mp high with below | rfl
      · exact .inl ⟨low, below, here⟩
      · exact .inr ⟨Nat.le_refl _, Nat.le_refl _⟩
  ordered run member := by
    rcases List.mem_append.mp member with old | new
    · exact covers.ordered run old
    · rw [List.mem_singleton.mp new]
  separate := by
    refine separate_concat.mpr ⟨covers.separate, fun last member => ?_⟩
    have listed := List.mem_of_getLast? member
    have ordered := covers.ordered last listed
    obtain ⟨low, high, here⟩ := (covers.exact_ last.2).mp ⟨last, listed, ordered, Nat.le_refl _⟩
    -- the last run ends before the received event
    have before : last.2 ≠ n := by
      rintro rfl
      rcases received with zero | received
      · omega
      · exact received here
    dsimp only
    omega

/-- The last run goes on. -/
theorem Covers.extend (covers : Covers (runs ++ [(start, n)]) missing n) (miss : missing (n + 1)) :
    Covers (runs ++ [(start, n + 1)]) missing (n + 1) where
  exact_ event := by
    have exact_ := covers.exact_ event
    rw [inRuns_append, inRuns_singleton] at exact_ ⊢
    have ordered := covers.ordered (start, n) (List.mem_append_right _ (List.mem_singleton_self _))
    dsimp only at exact_ ordered ⊢
    constructor
    · rintro (old | ⟨low, high⟩)
      · obtain ⟨low, high, here⟩ := exact_.mp (.inl old)
        exact ⟨low, Nat.le_succ_of_le high, here⟩
      · rcases Nat.le_succ_iff.mp high with below | rfl
        · obtain ⟨low, high, here⟩ := exact_.mp (.inr ⟨low, below⟩)
          exact ⟨low, Nat.le_succ_of_le high, here⟩
        · exact ⟨Nat.le_add_left 1 n, Nat.le_refl _, miss⟩
    · rintro ⟨low, high, here⟩
      rcases Nat.le_succ_iff.mp high with below | rfl
      · rcases exact_.mpr ⟨low, below, here⟩ with old | ⟨low, high⟩
        · exact .inl old
        · exact .inr ⟨low, Nat.le_succ_of_le high⟩
      · exact .inr ⟨Nat.le_succ_of_le ordered, Nat.le_refl _⟩
  ordered run member := by
    rcases List.mem_append.mp member with old | new
    · exact covers.ordered run (List.mem_append_left _ old)
    · rw [List.mem_singleton.mp new]
      exact Nat.le_succ_of_le (covers.ordered (start, n) (List.mem_append_right _ (List.mem_singleton_self _)))
  separate := by
    obtain ⟨separate, last⟩ := separate_concat.mp covers.separate
    exact separate_concat.mpr ⟨separate, last⟩

end

/-- The loop after `n` events. -/
structure RunState.Scanned (state : RunState) (missing : Nat → Prop) (n : Nat) : Prop where
  covers : Covers (state.closed n) missing n
  outside : state.start = none → n = 0 ∨ ¬ missing n

section
variable {state : RunState} {missing : Nat → Prop} {n : Nat}

theorem RunState.Scanned.step (scanned : state.Scanned missing n) {value : Option ℚ}
    (here : value = none ↔ missing (n + 1)) :
    (missingStep state (value, n + 1)).Scanned missing (n + 1) := by
  obtain ⟨runs, start⟩ := state
  have covers := scanned.covers
  unfold RunState.closed at covers
  cases value with
  | none =>
    have miss := here.mp rfl
    cases start with
    | none =>
      rw [List.append_nil] at covers
      exact ⟨covers.open (scanned.outside rfl) miss, fun none_ => nomatch none_⟩
    | some start => exact ⟨covers.extend miss, fun none_ => nomatch none_⟩
  | some rx =>
    have received : ¬ missing (n + 1) := fun miss => nomatch here.mpr miss
    refine ⟨?_, fun _ => .inr received⟩
    have closed : (missingStep ⟨runs, start⟩ (some rx, n + 1)).closed (n + 1) =
        RunState.closed ⟨runs, start⟩ n := by
      cases start with
      | none => rfl
      | some start => exact List.append_nil _
    rw [closed]
    exact covers.received received

theorem RunState.Scanned.run (scanned : state.Scanned missing n) (entries : List (Option ℚ))
    (here : ∀ i value, entries[i]? = some value → (value = none ↔ missing (n + 1 + i))) :
    ((entries.zipIdx (n + 1)).foldl missingStep state).Scanned missing (n + entries.length) := by
  induction entries generalizing state n with
  | nil => exact scanned
  | cons value entries ih =>
    rw [List.zipIdx_cons, List.foldl_cons, List.length_cons, Nat.add_comm entries.length, ← Nat.add_assoc]
    apply ih (scanned.step (here 0 value rfl))
    intro i value listed
    rw [Nat.add_assoc (n + 1), Nat.add_comm 1 i]
    exact here (i + 1) value listed

end

theorem missingRuns_covers (matches_ : List (Option ℚ)) :
    Covers (missingRuns matches_) (fun event => matches_[event - 1]? = some none) matches_.length := by
  have start : (⟨[], none⟩ : RunState).Scanned (fun event => matches_[event - 1]? = some none) 0 := by
    refine ⟨⟨fun event => ?_, fun run none_ => absurd none_ List.not_mem_nil, .nil⟩, fun _ => .inl rfl⟩
    refine iff_of_false ?_ (by omega)
    rintro ⟨run, none_, _⟩
    exact absurd none_ List.not_mem_nil
  have run := start.run matches_ fun i value listed => by
    rw [Nat.zero_add, Nat.add_sub_cancel_left, listed, Option.some.injEq]
  rw [Nat.zero_add matches_.length] at run
  exact run.covers

/-- The events that the printed ranges stand for. -/
def expandRuns (runs : List (Nat × Nat)) : List Nat := runs.flatMap fun run => List.range' run.1 (run.2 + 1 - run.1)

theorem mem_expandRuns {runs : List (Nat × Nat)} {event : Nat} : event ∈ expandRuns runs ↔ InRuns runs event := by
  unfold expandRuns InRuns
  simp only [List.mem_flatMap, List.mem_range'_1]
  apply exists_congr
  intro run
  apply and_congr_right
  intro _
  omega

/-- Any two runs are in order. -/
theorem Covers.pairwise {runs : List (Nat × Nat)} {missing : Nat → Prop} {n : Nat}
    (covers : Covers runs missing n) :
    runs.Pairwise fun earlier later => earlier.2 < later.1 := by
  have ordered := covers.ordered
  have separate := covers.separate
  unfold Separate at separate
  clear covers
  induction runs with
  | nil => exact .nil
  | cons run runs ih =>
    have rest := ih (fun other member => ordered other (List.mem_cons_of_mem _ member)) separate.tail
    refine .cons ?_ rest
    cases runs with
    | nil => exact fun other none_ => absurd none_ List.not_mem_nil
    | cons next runs =>
      have near := (List.isChain_cons_cons.mp separate).1
      have wide := ordered next (List.mem_cons_of_mem _ List.mem_cons_self)
      intro other member
      rcases List.mem_cons.mp member with rfl | further
      · omega
      · have later := (List.pairwise_cons.mp rest).1 other further
        omega

theorem expandRuns_missing (matches_ : List (Option ℚ)) : expandRuns (missingRuns matches_) =
    (List.range' 1 matches_.length).filter fun event => decide (matches_[event - 1]? = some none) := by
  have covers := missingRuns_covers matches_
  apply List.Pairwise.eq_of_mem_iff (r := (· < ·))
  · unfold expandRuns
    refine List.pairwise_flatMap.mpr ⟨fun run _ => List.pairwise_lt_range', ?_⟩
    apply covers.pairwise.imp
    intro earlier later apart a here b there
    rw [List.mem_range'_1] at here there
    omega
  · exact List.Pairwise.filter _ List.pairwise_lt_range'
  · intro event
    rw [mem_expandRuns, covers.exact_, List.mem_filter, List.mem_range'_1, decide_eq_true_iff]
    constructor
    · rintro ⟨low, high, miss⟩
      exact ⟨⟨low, by omega⟩, miss⟩
    · rintro ⟨⟨low, high⟩, miss⟩
      exact ⟨low, by omega, miss⟩

/-- The ranges that missing_runs prints are the missing events, in order, and no two of them could be one. -/
theorem missingRuns_exact (matches_ : List (Option ℚ)) :
    expandRuns (missingRuns matches_) =
      (List.range' 1 matches_.length).filter (fun event => decide (matches_[event - 1]? = some none)) ∧
    (∀ run ∈ missingRuns matches_, run.1 ≤ run.2) ∧ Separate (missingRuns matches_) :=
  ⟨expandRuns_missing matches_, (missingRuns_covers matches_).ordered, (missingRuns_covers matches_).separate⟩

/-! ### long_gaps -/

/-- round of Python: a tie goes to the even number. -/
def roundHalfEven (q : ℚ) : Int :=
  let low := ⌊q⌋
  if q - low < 1 / 2 then low
  else if 1 / 2 < q - low then low + 1
  else if low % 2 = 0 then low else low + 1

/-- The gaps in front of receive edges, by the time of the edge. -/
def longGaps (rxEdges : List ℚ) (threshold : ℚ) : AList fun _ : ℚ => ℚ :=
  (rxEdges.zip rxEdges.tail).foldl (fun gaps pair =>
    if threshold < pair.2 - pair.1 then gaps.insert pair.2 (pair.2 - pair.1) else gaps) ∅

/-- What receiver_summary adds for a gap. -/
def lostIn (period gap : ℚ) : Int := max 0 (roundHalfEven (gap / period) - 1)

def estimatedLost (gaps : AList fun _ : ℚ => ℚ) (period : ℚ) : Int :=
  (gaps.entries.map fun gap => lostIn period gap.2).sum

/-- The figures of receiver_summary. -/
structure ReceiverSummary where
  missing : Nat
  count : Nat
  longGaps : Nat
  estimated : Int
  stale : Nat
  extra : Nat
  runs : List (Nat × Nat)

def receiverSummary (matches_ : List (Option ℚ)) (gaps : AList fun _ : ℚ => ℚ) (stale extra : Nat) (period : ℚ) :
    ReceiverSummary where
  missing := matches_.count none
  count := matches_.length
  longGaps := gaps.entries.length
  estimated := estimatedLost gaps period
  stale := stale
  extra := extra
  runs := missingRuns matches_

theorem roundHalfEven_near {q : ℚ} {n : Int} (near : |q - n| < 1 / 2) : roundHalfEven q = n := by
  obtain ⟨below, above⟩ := abs_lt.mp near
  have low := Int.floor_le q
  have high := Int.lt_floor_add_one q
  unfold roundHalfEven
  dsimp only
  rcases le_or_gt (n : ℚ) q with right | left
  · have floor : ⌊q⌋ = n := Int.floor_eq_iff.mpr ⟨right, by linarith⟩
    rw [floor, if_pos (by linarith)]
  · have floor : ⌊q⌋ = n - 1 := Int.floor_eq_iff.mpr ⟨by push_cast; linarith, by push_cast; linarith⟩
    rw [floor, if_neg (by push_cast; linarith), if_pos (by push_cast; linarith)]
    omega

section
variable {period threshold : ℚ}

/-- Gaps are kept under different edges, so none replaces another. -/
theorem estimatedLost_fold (pairs : List (ℚ × ℚ)) (gaps : AList fun _ : ℚ => ℚ)
    (fresh : ∀ pair ∈ pairs, pair.2 ∉ gaps) (apart : pairs.Pairwise fun earlier later => earlier.2 ≠ later.2) :
    estimatedLost (pairs.foldl (fun gaps pair =>
      if threshold < pair.2 - pair.1 then gaps.insert pair.2 (pair.2 - pair.1) else gaps) gaps) period =
    estimatedLost gaps period +
      (pairs.map fun pair => if threshold < pair.2 - pair.1 then lostIn period (pair.2 - pair.1) else 0).sum := by
  induction pairs generalizing gaps with
  | nil => simp
  | cons pair pairs ih =>
    obtain ⟨differ, apart⟩ := List.pairwise_cons.mp apart
    rw [List.foldl_cons, List.map_cons, List.sum_cons]
    have here := fresh pair List.mem_cons_self
    by_cases long : threshold < pair.2 - pair.1
    · rw [if_pos long, if_pos long, ih _ _ apart]
      · unfold estimatedLost
        rw [AList.entries_insert_of_notMem here, List.map_cons, List.sum_cons, Int.add_comm (lostIn _ _),
          Int.add_assoc]
      · intro other member
        rw [AList.mem_insert]
        rintro (same | old)
        · exact differ other member same.symm
        · exact fresh other (List.mem_cons_of_mem _ member) old
    · rw [if_neg long, if_neg long, ih _ (fun other member => fresh other (List.mem_cons_of_mem _ member)) apart]
      omega

end

/-! ### A steady cadence -/

/-- TX events at equal distances; a lost packet has no latency. -/
structure Cadence where
  t0 : ℚ
  period : ℚ
  events : Nat
  latency : Nat → Option ℚ

def Cadence.txTime (c : Cadence) (k : Nat) : ℚ := c.t0 + k * c.period

def Cadence.txEdges (c : Cadence) : List ℚ := (List.range c.events).map c.txTime

/-- The receive edge of an event. -/
def Cadence.receive (c : Cadence) (k : Nat) : Option ℚ := (c.latency k).map (c.txTime k + ·)

def Cadence.rxEdges (c : Cadence) : List ℚ := (List.range c.events).filterMap c.receive

/-- The events that are received. -/
def Cadence.received (c : Cadence) : List Nat := (List.range c.events).filter fun k => (c.latency k).isSome

/-- Latencies within the limit, close enough to a common value for the cadence and the gap threshold. -/
structure Cadence.Steady (c : Cadence) (limit centre jitter threshold : ℚ) : Prop where
  latency : ∀ k l, c.latency k = some l → 0 < l ∧ l ≤ limit ∧ |l - centre| ≤ jitter
  positive : 0 < c.period
  within : limit ≤ c.period
  small : 4 * jitter < c.period
  seen : threshold + 2 * jitter < 2 * c.period

section
variable {c : Cadence} {limit centre jitter threshold : ℚ}

theorem Cadence.txTime_le {c : Cadence} (positive : 0 < c.period) {i k : Nat} (before : i < k) :
    c.txTime i + c.period ≤ c.txTime k := by
  have steps : ((i + 1 : Nat) : ℚ) * c.period ≤ (k : ℚ) * c.period :=
    mul_le_mul_of_nonneg_right (by exact_mod_cast before) (le_of_lt positive)
  push_cast at steps
  unfold Cadence.txTime
  linarith

/-- A receive edge lies behind its TX edge and not behind the next one. -/
theorem Cadence.Steady.receive (steady : c.Steady limit centre jitter threshold) {k : Nat} {rx : ℚ}
    (received : c.receive k = some rx) : c.txTime k < rx ∧ rx ≤ c.txTime k + limit := by
  obtain ⟨l, latency, rfl⟩ := Option.map_eq_some_iff.mp received
  obtain ⟨positive, within, _⟩ := steady.latency k l latency
  exact ⟨by linarith, by linarith⟩

theorem Cadence.Steady.ordered (steady : c.Steady limit centre jitter threshold) {i k : Nat} {rx rx' : ℚ}
    (before : i < k) (first : c.receive i = some rx) (second : c.receive k = some rx') : rx < rx' := by
  have far := Cadence.txTime_le steady.positive before
  have limit_ := steady.within
  obtain ⟨_, high⟩ := steady.receive first
  obtain ⟨low, _⟩ := steady.receive second
  linarith

theorem Cadence.Steady.rx_sorted (steady : c.Steady limit centre jitter threshold) :
    c.rxEdges.Pairwise (· < ·) := by
  apply List.pairwise_lt_range.filterMap
  intro i k before rx first rx' second
  exact steady.ordered before first second

theorem Cadence.Steady.tx_apart (steady : c.Steady limit centre jitter threshold) :
    c.txEdges.Pairwise fun earlier later => earlier + limit ≤ later := by
  apply List.pairwise_map.mpr
  apply List.pairwise_lt_range.imp
  intro i k before
  have far := Cadence.txTime_le steady.positive before
  have limit_ := steady.within
  linarith

theorem Cadence.Steady.tx_sorted (steady : c.Steady limit centre jitter threshold) :
    c.txEdges.Pairwise (· ≤ ·) := by
  apply List.pairwise_map.mpr
  apply List.pairwise_lt_range.imp
  intro i k before
  have far := Cadence.txTime_le steady.positive before
  have positive := steady.positive
  linarith

/-- The only edge in the window of an event is its own. -/
theorem Cadence.Steady.firstReceive (steady : c.Steady limit centre jitter threshold) {k : Nat}
    (inside : k < c.events) :
    firstReceive c.rxEdges limit (c.txTime k) = c.receive k := by
  have own : ∀ i rx, c.receive i = some rx → c.txTime k < rx → rx ≤ c.txTime k + limit → i = k := by
    intro i rx received after within
    obtain ⟨low, high⟩ := steady.receive received
    have limit_ := steady.within
    rcases Nat.lt_trichotomy i k with before | same | behind
    · have far := Cadence.txTime_le steady.positive before
      linarith
    · exact same
    · have far := Cadence.txTime_le steady.positive behind
      linarith
  cases found : Analysis.firstReceive c.rxEdges limit (c.txTime k) with
  | some rx =>
    obtain ⟨listed, after, within⟩ := firstReceive_some found
    obtain ⟨i, _, received⟩ := List.mem_filterMap.mp listed
    rw [← own i rx received after within, received]
  | none =>
    cases received : c.receive k with
    | none => rfl
    | some rx =>
      have listed : rx ∈ c.rxEdges := List.mem_filterMap.mpr ⟨k, List.mem_range.mpr inside, received⟩
      obtain ⟨after, within⟩ := steady.receive received
      have outside := List.find?_eq_none.mp found rx listed
      simp [after, within] at outside

/-- match_receives finds the receive edge of every event that has one. -/
theorem Cadence.Steady.matched (steady : c.Steady limit centre jitter threshold) :
    (matchReceives c.txEdges c.rxEdges limit).1 = (List.range c.events).map c.receive := by
  rw [(scan_eq_search_iff steady.tx_sorted steady.rx_sorted).mpr (search_once steady.tx_apart)]
  unfold Cadence.txEdges
  rw [List.map_map]
  apply List.map_congr_left
  intro k member
  exact steady.firstReceive (List.mem_range.mp member)

/-- The estimate for one gap. -/
theorem Cadence.Steady.lostIn (steady : c.Steady limit centre jitter threshold) {i k : Nat} {rx rx' : ℚ}
    (before : i < k) (first : c.receive i = some rx) (second : c.receive k = some rx') :
    (if threshold < rx' - rx then Analysis.lostIn c.period (rx' - rx) else 0) = (k : Int) - i - 1 := by
  obtain ⟨l, latency, rfl⟩ := Option.map_eq_some_iff.mp first
  obtain ⟨l', latency', rfl⟩ := Option.map_eq_some_iff.mp second
  obtain ⟨_, _, near⟩ := steady.latency i l latency
  obtain ⟨_, _, near'⟩ := steady.latency k l' latency'
  obtain ⟨low, high⟩ := abs_le.mp near
  obtain ⟨low', high'⟩ := abs_le.mp near'
  have positive := steady.positive
  have jitter_ := steady.small
  have threshold_ := steady.seen
  have gap : c.txTime k + l' - (c.txTime i + l) = ((k : ℚ) - i) * c.period + (l' - l) := by
    unfold Cadence.txTime
    ring
  rw [gap]
  have rounded : roundHalfEven ((((k : ℚ) - i) * c.period + (l' - l)) / c.period) = (k : Int) - i := by
    apply roundHalfEven_near
    push_cast
    rw [add_div, mul_div_assoc, div_self positive.ne', mul_one, add_sub_cancel_left, abs_lt]
    refine ⟨?_, ?_⟩
    · rw [lt_div_iff₀ positive]
      linarith
    · rw [div_lt_iff₀ positive]
      linarith
  by_cases long : threshold < ((k : ℚ) - i) * c.period + (l' - l)
  · rw [if_pos long]
    unfold Analysis.lostIn
    rw [rounded]
    omega
  · -- a gap that is not long has no room for an event
    rw [if_neg long]
    have next : k = i + 1 := by
      by_contra far
      have two : ((i + 2 : Nat) : ℚ) ≤ (k : ℚ) := by exact_mod_cast (by omega : i + 2 ≤ k)
      push_cast at two
      have wide : 2 * c.period ≤ ((k : ℚ) - i) * c.period :=
        mul_le_mul_of_nonneg_right (by linarith) (le_of_lt positive)
      linarith
    omega

/-- The gaps between the events of a list, all of them received. -/
theorem Cadence.Steady.estimate_slots (steady : c.Steady limit centre jitter threshold) (first : Nat)
    (rest : List Nat) (rising : (first :: rest).Pairwise (· < ·))
    (received : ∀ k ∈ first :: rest, (c.receive k).isSome) :
    ((((first :: rest).filterMap c.receive).zip ((first :: rest).filterMap c.receive).tail).map fun pair =>
      if threshold < pair.2 - pair.1 then Analysis.lostIn c.period (pair.2 - pair.1) else 0).sum =
    ((first :: rest).getLast (List.cons_ne_nil first rest) : Int) - first - rest.length := by
  -- one gap for each event behind the first
  induction rest generalizing first with
  | nil =>
    obtain ⟨rx, here⟩ := Option.isSome_iff_exists.mp (received first List.mem_cons_self)
    simp [here]
  | cons next rest ih =>
    obtain ⟨rx, here⟩ := Option.isSome_iff_exists.mp (received first List.mem_cons_self)
    obtain ⟨rx', there⟩ := Option.isSome_iff_exists.mp (received next (List.mem_cons_of_mem _ List.mem_cons_self))
    obtain ⟨before, rising⟩ := List.pairwise_cons.mp rising
    have tail := ih next rising fun k member => received k (List.mem_cons_of_mem _ member)
    have gap := steady.lostIn (before next List.mem_cons_self) here there
    rw [List.filterMap_cons_some there, List.tail_cons] at tail
    rw [List.filterMap_cons_some here, List.filterMap_cons_some there, List.tail_cons, List.zip_cons_cons,
      List.map_cons, List.sum_cons, tail, gap, List.getLast_cons (List.cons_ne_nil next rest), List.length_cons]
    push_cast
    ring

theorem Cadence.rxEdges_eq (c : Cadence) : c.rxEdges = c.received.filterMap c.receive := by
  unfold Cadence.rxEdges Cadence.received
  rw [List.filterMap_filter]
  congr 1
  funext k
  unfold Cadence.receive
  cases c.latency k <;> rfl

theorem Cadence.isSome_receive (c : Cadence) {k : Nat} (member : k ∈ c.received) : (c.receive k).isSome := by
  unfold Cadence.receive
  rw [Option.isSome_map]
  exact (List.mem_filter.mp member).2

theorem Cadence.received_rising (c : Cadence) : c.received.Pairwise (· < ·) :=
  List.Pairwise.filter _ List.pairwise_lt_range

theorem Cadence.Steady.estimated (steady : c.Steady limit centre jitter threshold) :
    ∀ first ∈ c.received.head?, ∀ last ∈ c.received.getLast?,
      estimatedLost (longGaps c.rxEdges threshold) c.period + c.received.length = (last : Int) - first + 1 := by
  intro first head last end_
  have sum := @estimatedLost_fold c.period threshold (c.rxEdges.zip c.rxEdges.tail) ∅
    (fun pair _ => AList.notMem_empty pair.2) ?_
  · have received := fun k => @Cadence.isSome_receive c k
    have rising := c.received_rising
    unfold longGaps
    rw [sum, c.rxEdges_eq]
    generalize c.received = slots at head end_ received rising
    cases slots with
    | nil => cases head
    | cons slot rest =>
      obtain rfl := Option.some.inj head
      have same : last = (slot :: rest).getLast (List.cons_ne_nil slot rest) := by
        rw [List.getLast?_eq_some_getLast (List.cons_ne_nil slot rest)] at end_
        exact (Option.some.inj end_).symm
      rw [steady.estimate_slots slot rest rising received, same, List.length_cons]
      have none_ : estimatedLost ∅ c.period = 0 := rfl
      rw [none_]
      push_cast
      ring
  · -- the edges behind the gaps are all different
    have behind : (c.rxEdges.zip c.rxEdges.tail).map Prod.snd = c.rxEdges.tail :=
      List.map_snd_zip (by rw [List.length_tail]; exact Nat.sub_le _ _)
    have sorted : c.rxEdges.tail.Pairwise (· < ·) := steady.rx_sorted.tail
    rw [← behind] at sorted
    exact (List.pairwise_map.mp sorted).imp fun less => ne_of_lt less

end

/-- With TX events at a steady cadence, receive edges that vary by less than a quarter of it
and a threshold that two periods exceed by as much, the figures of receiver_summary agree: no
edge is stale or left over, the ranges are the lost events, and the events that the gaps miss
are those in front of the first received one and behind the last. -/
theorem loss_figures_agree (c : Cadence) (limit centre jitter threshold : ℚ)
    (steady : c.Steady limit centre jitter threshold) :
    let result := matchReceives c.txEdges c.rxEdges limit
    let summary := receiverSummary result.1 (longGaps c.rxEdges threshold) result.2.1 result.2.2 c.period
    summary.count = c.events ∧ summary.missing + c.received.length = c.events ∧ summary.stale = 0 ∧
      summary.extra = 0 ∧
    expandRuns summary.runs = (List.range' 1 c.events).filter (fun event => (c.latency (event - 1)).isNone) ∧
    ∀ first ∈ c.received.head?, ∀ last ∈ c.received.getLast?,
      summary.estimated + first + (c.events - 1 - last : Nat) = summary.missing := by
  intro result summary
  have matched : result.1 = (List.range c.events).map c.receive := steady.matched
  have length : result.1.length = c.events := by rw [matched, List.length_map, List.length_range]
  have lost : summary.missing + c.received.length = c.events := by
    have split := List.length_eq_countP_add_countP (fun k => (c.latency k).isSome) (l := List.range c.events)
    have missing : result.1.count none = (List.range c.events).countP fun k => ¬ (c.latency k).isSome := by
      rw [matched, List.count, List.countP_map]
      congr 1
      funext k
      unfold Cadence.receive
      cases h : c.latency k <;> simp [h]
    rw [List.length_range] at split
    change result.1.count none + c.received.length = c.events
    rw [missing, Cadence.received, ← List.countP_eq_length_filter, Nat.add_comm]
    exact split.symm
  have total : result.1.reduceOption.length + result.2.1 + result.2.2 = c.rxEdges.length := by
    obtain ⟨_, _, _, total⟩ := @matchReceives_paired _ _ limit steady.tx_sorted (steady.rx_sorted.imp le_of_lt)
    exact total
  have all : result.1.reduceOption = c.rxEdges := by
    rw [matched]
    unfold List.reduceOption Cadence.rxEdges
    rw [List.filterMap_map]
    rfl
  rw [all] at total
  refine ⟨length, lost, ?_, ?_, ?_, ?_⟩
  · change result.2.1 = 0
    omega
  · change result.2.2 = 0
    omega
  · change expandRuns (missingRuns result.1) = _
    rw [expandRuns_missing, length]
    apply List.filter_congr
    intro event member
    rw [List.mem_range'_1] at member
    rw [matched, List.getElem?_map, List.getElem?_range (by omega)]
    unfold Cadence.receive
    cases h : c.latency (event - 1) <;> simp [h]
  · intro first head last end_
    have estimated := steady.estimated first head last end_
    have inside : last < c.events := List.mem_range.mp (List.mem_of_mem_filter (List.mem_of_getLast? end_))
    change estimatedLost (longGaps c.rxEdges threshold) c.period + first + (c.events - 1 - last : Nat) = _
    omega

/-- The default period and thresholds in seconds; of four packets the second is lost. -/
def captured : Cadence where
  t0 := 1
  period := 25 / 1000
  events := 4
  latency := fun k => if k = 1 then none else some (3 / 1000)

theorem loss_figures_agree_captured :
    (receiverSummary (matchReceives captured.txEdges captured.rxEdges (15 / 1000)).1
      (longGaps captured.rxEdges (30 / 1000)) 0 0 captured.period).missing + 3 = 4 := by
  have steady : captured.Steady (15 / 1000) (3 / 1000) 0 (30 / 1000) := by
    refine ⟨fun k l latency => ?_, by decide +kernel, by decide +kernel, by decide +kernel, by decide +kernel⟩
    have same : l = 3 / 1000 := by
      unfold captured at latency
      dsimp only at latency
      split at latency
      · cases latency
      · exact (Option.some.inj latency).symm
    rw [same]
    decide +kernel
  exact (loss_figures_agree captured _ _ _ _ steady).2.1

end Cc1310Firmware.Analysis
