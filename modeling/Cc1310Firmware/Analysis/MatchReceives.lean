import Cc1310Firmware.Analysis.Windows
import Mathlib.Algebra.Order.Ring.Rat
import Mathlib.Data.List.ReduceOption

/-! match_receives of calculate_rf_latency.py, on exact times. -/

set_option autoImplicit false

namespace Cc1310Firmware.Analysis
open Windows

/-! ### The scan -/

structure MatchState where
  matched : List (Option ℚ)
  stale : Nat
  /-- rx_edges from index on. -/
  rest : List ℚ

/-- The while loop. -/
def skipStale (tx : ℚ) (stale : Nat) : List ℚ → Nat × List ℚ
  | [] => (stale, [])
  | rx :: rest => if rx ≤ tx then skipStale tx (stale + 1) rest else (stale, rx :: rest)

/-- One round of the for loop. -/
def matchStep (maxLatency : ℚ) (state : MatchState) (tx : ℚ) : MatchState :=
  let (stale, rest) := skipStale tx state.stale state.rest
  match rest with
  | rx :: others =>
    if rx ≤ tx + maxLatency then ⟨state.matched ++ [some rx], stale, others⟩
    -- the edge stays: it may belong to the next TX
    else ⟨state.matched ++ [none], stale, rest⟩
  | [] => ⟨state.matched ++ [none], stale, []⟩

/-- The matches, the stale edges and the edges that are left. -/
def matchReceives (txEdges rxEdges : List ℚ) (maxLatency : ℚ) : List (Option ℚ) × Nat × Nat :=
  let state := txEdges.foldl (matchStep maxLatency) ⟨[], 0, rxEdges⟩
  (state.matched, state.stale, state.rest.length)

/-! ### What is matched -/

/-- The RX edges that may belong to a TX edge. -/
def latencyWindow (maxLatency tx : ℚ) : Window ℚ := ⟨tx, tx + maxLatency⟩

/-- The matches are RX edges at rising places, each in the window of its TX edge. -/
structure Paired (txEdges rxEdges : List ℚ) (maxLatency : ℚ) (matched : List (Option ℚ))
    (places : List (Option ℕ)) : Prop where
  values : matched = places.map fun place => place.bind (rxEdges[·]?)
  rising : places.reduceOption.Pairwise (· < ·)
  inside : ∀ i j : ℕ, places[i]? = some (some j) → ∃ tx rx, txEdges[i]? = some tx ∧ rxEdges[j]? = some rx ∧
    tx < rx ∧ rx ≤ tx + maxLatency

theorem ordered_of_sorted {txEdges rxEdges : List ℚ} (maxLatency : ℚ) (tx : txEdges.Pairwise (· ≤ ·))
    (rx : rxEdges.Pairwise (· ≤ ·)) : Ordered (txEdges.map (latencyWindow maxLatency)) rxEdges where
  opens := List.pairwise_map.mpr tx
  closes := List.pairwise_map.mpr (tx.imp fun order => add_le_add_left order maxLatency)
  points := rx

/-- The next edge, and those behind it. -/
theorem drop_eq_cons {edges rest : List ℚ} {index : ℕ} {edge : ℚ} (left : edges.drop index = edge :: rest) :
    edges[index]? = some edge ∧ edges.drop (index + 1) = rest := by
  constructor
  · rw [← Nat.add_zero index, ← List.getElem?_drop, left]
    rfl
  · rw [← List.tail_drop, left, List.tail_cons]

/-- The while loop skips the edges that are not behind the TX edge. -/
theorem skipStale_eq (tx : ℚ) (stale : Nat) (rest : List ℚ) : ∃ count, count ≤ rest.length ∧
    skipStale tx stale rest = (stale + count, rest.drop count) ∧
    (∀ k rx, k < count → rest[k]? = some rx → rx ≤ tx) ∧ ∀ rx, rest[count]? = some rx → tx < rx := by
  induction rest generalizing stale with
  | nil =>
    exact ⟨0, Nat.le_refl 0, rfl, fun k rx inside => absurd inside (Nat.not_lt_zero k),
      fun rx none_ => by cases none_⟩
  | cons rx rest ih =>
    unfold skipStale
    by_cases early : rx ≤ tx
    · obtain ⟨count, short, same, skipped, next⟩ := ih (stale + 1)
      refine ⟨count + 1, Nat.succ_le_succ short, ?_, ?_, next⟩
      · rw [if_pos early, same, Nat.add_assoc, Nat.add_comm 1]
        rfl
      · intro k other inside here
        cases k with
        | zero =>
          obtain rfl := Option.some.inj here
          exact early
        | succ k => exact skipped k other (Nat.lt_of_succ_lt_succ inside) here
    · refine ⟨0, Nat.zero_le _, if_neg early, fun k rx inside => absurd inside (Nat.not_lt_zero k), ?_⟩
      intro other here
      obtain rfl := Option.some.inj here
      exact lt_of_not_ge early

/-- After `i` TX edges, with the RX edges from the j-th one on left. -/
structure Scanned (txEdges rxEdges : List ℚ) (maxLatency : ℚ) (i j : ℕ) (places : List (Option ℕ))
    (state : MatchState) : Prop where
  length : places.length = i
  rest : state.rest = rxEdges.drop j
  short : j ≤ rxEdges.length
  paired : Paired txEdges rxEdges maxLatency state.matched places
  below : ∀ place ∈ places.reduceOption, place < j
  count : state.matched.reduceOption.length + state.stale = j
  best : ∀ pairs, Assignment (txEdges.map (latencyWindow maxLatency)) rxEdges pairs →
    ∃ others, Assignment (txEdges.map (latencyWindow maxLatency)) rxEdges others ∧ From i j others ∧
      pairs.card ≤ state.matched.reduceOption.length + others.card

section
variable {txEdges rxEdges : List ℚ} {maxLatency : ℚ} {i j : ℕ} {places : List (Option ℕ)} {state : MatchState}

theorem Scanned.start : Scanned txEdges rxEdges maxLatency 0 0 [] ⟨[], 0, rxEdges⟩ where
  length := rfl
  rest := rfl
  short := Nat.zero_le _
  paired := ⟨rfl, .nil, fun i j none_ => by cases none_⟩
  below place member := absurd member List.not_mem_nil
  count := rfl
  best pairs assignment := ⟨pairs, assignment, from_zero pairs, Nat.le_add_left _ _⟩

theorem latencyWindow_at (maxLatency : ℚ) {tx : ℚ} (tx_ : txEdges[i]? = some tx) :
    (txEdges.map (latencyWindow maxLatency))[i]? = some (latencyWindow maxLatency tx) := by
  rw [List.getElem?_map, tx_]
  rfl

/-- One more TX edge, and the place of its match. -/
theorem Paired.extend {matched : List (Option ℚ)} {place : Option ℕ} {value : Option ℚ}
    (paired : Paired txEdges rxEdges maxLatency matched places) (value_ : place.bind (rxEdges[·]?) = value)
    (behind : ∀ j, place = some j → ∀ earlier ∈ places.reduceOption, earlier < j)
    (inside : ∀ j, place = some j → ∃ tx rx, txEdges[places.length]? = some tx ∧ rxEdges[j]? = some rx ∧
      tx < rx ∧ rx ≤ tx + maxLatency) :
    Paired txEdges rxEdges maxLatency (matched ++ [value]) (places ++ [place]) := by
  refine ⟨?_, ?_, ?_⟩
  · rw [List.map_append, ← paired.values, List.map_singleton, value_]
  · rw [List.reduceOption_append]
    cases place with
    | none => exact (List.append_nil places.reduceOption).symm ▸ paired.rising
    | some j =>
      refine List.pairwise_append.mpr ⟨paired.rising, List.pairwise_singleton _ _,
        fun earlier member last member' => ?_⟩
      rw [List.mem_singleton.mp member']
      exact behind j rfl earlier member
  · intro k j there
    rcases Nat.lt_trichotomy k places.length with earlier | rfl | later
    · rw [List.getElem?_append_left earlier] at there
      exact paired.inside k j there
    · rw [List.getElem?_concat_length] at there
      exact inside j (Option.some.inj there)
    · rw [List.getElem?_eq_none (by rw [List.length_append]; exact later)] at there
      cases there

/-- Stale edges. -/
theorem Scanned.skip (ordered : Ordered (txEdges.map (latencyWindow maxLatency)) rxEdges) {tx : ℚ}
    (tx_ : txEdges[i]? = some tx) (scanned : Scanned txEdges rxEdges maxLatency i j places state) {count : ℕ}
    (inside : j + count ≤ rxEdges.length) (early : ∀ k rx, k < count → rxEdges[j + k]? = some rx → rx ≤ tx) :
    Scanned txEdges rxEdges maxLatency i (j + count) places ⟨state.matched, state.stale + count,
      rxEdges.drop (j + count)⟩ where
  length := scanned.length
  rest := rfl
  short := inside
  paired := scanned.paired
  below place member := Nat.lt_of_lt_of_le (scanned.below place member) (Nat.le_add_right j count)
  count := by rw [← scanned.count, Nat.add_assoc]
  best pairs assignment := by
    obtain ⟨others, others_, from_, bound⟩ := scanned.best pairs assignment
    refine ⟨others, others_, ?_, bound⟩
    clear bound
    induction count with
    | zero => exact from_
    | succ count ih =>
      have from_ := ih (Nat.le_of_succ_le inside) fun k rx below => early k rx (Nat.lt_succ_of_lt below)
      have here : rxEdges[j + count]? = some rxEdges[j + count] := List.getElem?_eq_getElem inside
      exact others_.skip_point ordered from_ (latencyWindow_at maxLatency tx_) here
        (early count _ (Nat.lt_succ_self count) here)

/-- The next edge is in the window. -/
theorem Scanned.found (ordered : Ordered (txEdges.map (latencyWindow maxLatency)) rxEdges) {tx rx : ℚ}
    (tx_ : txEdges[i]? = some tx) (rx_ : rxEdges[j]? = some rx) (after : tx < rx) (before : rx ≤ tx + maxLatency)
    (scanned : Scanned txEdges rxEdges maxLatency i j places state) :
    Scanned txEdges rxEdges maxLatency (i + 1) (j + 1) (places ++ [some j])
      ⟨state.matched ++ [some rx], state.stale, rxEdges.drop (j + 1)⟩ where
  length := by rw [List.length_append, scanned.length, List.length_singleton]
  rest := rfl
  short := (List.getElem?_eq_some_iff.mp rx_).1
  paired := by
    refine scanned.paired.extend rx_ ?_ ?_
    · rintro _ ⟨⟩
      exact scanned.below
    · rintro _ ⟨⟩
      exact ⟨tx, rx, scanned.length.symm ▸ tx_, rx_, after, before⟩
  below place member := by
    rw [List.reduceOption_append] at member
    rcases List.mem_append.mp member with old | new
    · exact Nat.lt_succ_of_lt (scanned.below place old)
    · rw [List.mem_singleton.mp new]
      exact Nat.lt_succ_self j
  count := by
    have count := scanned.count
    rw [List.reduceOption_append, List.length_append]
    show state.matched.reduceOption.length + 1 + state.stale = j + 1
    omega
  best pairs assignment := by
    obtain ⟨others, others_, from_, bound⟩ := scanned.best pairs assignment
    obtain ⟨rest, rest_, from', less⟩ := others_.take ordered from_
    refine ⟨rest, rest_, from', ?_⟩
    rw [List.reduceOption_append, List.length_append]
    show pairs.card ≤ state.matched.reduceOption.length + 1 + rest.card
    omega

/-- No edge is left, or the next one is too late. -/
theorem Scanned.lost (ordered : Ordered (txEdges.map (latencyWindow maxLatency)) rxEdges) {tx : ℚ}
    (tx_ : txEdges[i]? = some tx) (late : ∀ rx, rxEdges[j]? = some rx → tx + maxLatency < rx)
    (scanned : Scanned txEdges rxEdges maxLatency i j places state) :
    Scanned txEdges rxEdges maxLatency (i + 1) j (places ++ [none]) ⟨state.matched ++ [none], state.stale,
      state.rest⟩ where
  length := by rw [List.length_append, scanned.length, List.length_singleton]
  rest := scanned.rest
  short := scanned.short
  paired := scanned.paired.extend rfl (fun _ none_ => nomatch none_) fun _ none_ => nomatch none_
  below place member := by
    rw [List.reduceOption_append] at member
    rcases List.mem_append.mp member with old | new
    · exact scanned.below place old
    · cases new
  count := by
    rw [List.reduceOption_append, List.length_append]
    exact scanned.count
  best pairs assignment := by
    obtain ⟨others, others_, from_, bound⟩ := scanned.best pairs assignment
    refine ⟨others, others_, others_.skip_window ordered from_ (latencyWindow_at maxLatency tx_) late, ?_⟩
    rw [List.reduceOption_append, List.length_append]
    exact bound

theorem Scanned.step (ordered : Ordered (txEdges.map (latencyWindow maxLatency)) rxEdges) {tx : ℚ}
    (tx_ : txEdges[i]? = some tx) (scanned : Scanned txEdges rxEdges maxLatency i j places state) :
    ∃ j' places', Scanned txEdges rxEdges maxLatency (i + 1) j' places' (matchStep maxLatency state tx) := by
  obtain ⟨count, short, skipped, early, next⟩ := skipStale_eq tx state.stale state.rest
  rw [scanned.rest] at short skipped early next
  simp only [List.length_drop, List.drop_drop, List.getElem?_drop] at short skipped early next
  have inside : j + count ≤ rxEdges.length := by
    have bound := scanned.short
    omega
  have skip := scanned.skip ordered tx_ inside early
  unfold matchStep
  rw [scanned.rest, skipped]
  dsimp only
  cases rest_ : rxEdges.drop (j + count) with
  | nil =>
    have past : rxEdges.length ≤ j + count := List.drop_eq_nil_iff.mp rest_
    have lost := skip.lost ordered tx_ fun rx here => by
      rw [List.getElem?_eq_none past] at here
      cases here
    rw [rest_] at lost
    exact ⟨_, _, lost⟩
  | cons rx others =>
    obtain ⟨rx_, others_⟩ := drop_eq_cons rest_
    dsimp only
    by_cases before : rx ≤ tx + maxLatency
    · rw [if_pos before, ← others_]
      exact ⟨_, _, skip.found ordered tx_ rx_ (next rx rx_) before⟩
    · rw [if_neg before, ← rest_]
      refine ⟨_, _, skip.lost ordered tx_ fun rx' here => ?_⟩
      obtain rfl := Option.some.inj (rx_.symm.trans here)
      exact lt_of_not_ge before

theorem Scanned.run (ordered : Ordered (txEdges.map (latencyWindow maxLatency)) rxEdges)
    (scanned : Scanned txEdges rxEdges maxLatency i j places state) :
    ∃ j' places', Scanned txEdges rxEdges maxLatency (i + (txEdges.drop i).length) j' places'
      ((txEdges.drop i).foldl (matchStep maxLatency) state) := by
  -- induction on the TX edges that are left
  generalize left : txEdges.drop i = edges
  induction edges generalizing i j places state with
  | nil => exact ⟨j, places, scanned⟩
  | cons tx edges ih =>
    obtain ⟨tx_, left'⟩ := drop_eq_cons left
    obtain ⟨j', places', next⟩ := scanned.step ordered tx_
    obtain ⟨j'', places'', run⟩ := ih next left'
    refine ⟨j'', places'', ?_⟩
    rw [List.length_cons, Nat.add_comm edges.length, ← Nat.add_assoc]
    exact run

end

/-- Each TX gets one RX edge of its window at most, in order and no edge twice; no other
assignment matches more; and every RX edge is matched, stale or left over. -/
theorem matchReceives_optimal {txEdges rxEdges : List ℚ} (tx : txEdges.Pairwise (· ≤ ·))
    (rx : rxEdges.Pairwise (· ≤ ·)) {maxLatency : ℚ} {matched : List (Option ℚ)} {stale unmatched : Nat}
    (result : matchReceives txEdges rxEdges maxLatency = (matched, stale, unmatched)) :
    matched.length = txEdges.length ∧ (∃ places, Paired txEdges rxEdges maxLatency matched places) ∧
    (∀ pairs, Assignment (txEdges.map (latencyWindow maxLatency)) rxEdges pairs →
      pairs.card ≤ matched.reduceOption.length) ∧
    matched.reduceOption.length + stale + unmatched = rxEdges.length := by
  have ordered := ordered_of_sorted maxLatency tx rx
  obtain ⟨j, places, scanned⟩ := Scanned.run ordered (@Scanned.start txEdges rxEdges maxLatency)
  rw [List.drop_zero, Nat.zero_add] at scanned
  unfold matchReceives at result
  dsimp only at result
  generalize txEdges.foldl (matchStep maxLatency) ⟨[], 0, rxEdges⟩ = state at scanned result
  cases result
  refine ⟨?_, ⟨places, scanned.paired⟩, ?_, ?_⟩
  · rw [scanned.paired.values, List.length_map, scanned.length]
  · intro pairs assignment
    obtain ⟨others, others_, from_, bound⟩ := scanned.best pairs assignment
    have none_ := others_.empty from_ (.inl (Nat.le_of_eq (List.length_map _)))
    rwa [none_, Finset.card_empty, Nat.add_zero] at bound
  · rw [scanned.rest, List.length_drop, scanned.count]
    exact Nat.add_sub_cancel' scanned.short

/-- A lost packet, a second edge for one TX, and an edge before the first TX. -/
theorem matchReceives_optimal_lost : (∃ places, Paired [10, 20, 30] [9, 11, 12, 33] 5 [some 11, none, some 33] places) ∧
    ∀ pairs, Assignment ([10, 20, 30].map (latencyWindow 5)) [9, 11, 12, 33] pairs → pairs.card ≤ 2 := by
  have result : matchReceives [10, 20, 30] [9, 11, 12, 33] 5 = ([some 11, none, some 33], 2, 0) := by decide +kernel
  obtain ⟨_, paired, optimal, _⟩ := matchReceives_optimal (by decide +kernel) (by decide +kernel) result
  exact ⟨paired, optimal⟩

end Cc1310Firmware.Analysis
