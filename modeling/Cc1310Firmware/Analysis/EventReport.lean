import Cc1310Firmware.Analysis.MatchReceives
import Cc1310Firmware.Analysis.RisingEdges
import Mathlib.Data.List.TakeWhile

/-! The reports of the two calculate_rf_latency.py scripts, on exact times.

The first looks for a receive edge again for every TX edge; the second scans both
lists once and uses every receive edge once.
-/

set_option autoImplicit false

namespace Cc1310Firmware.Analysis

/-- A row of the input file. -/
structure CaptureRow where
  time : ℚ
  tx : Level
  rx1 : Level
  rx2 : Level
  deriving DecidableEq, Repr

/-- One column with its times. -/
def column (rows : List CaptureRow) (level : CaptureRow → Level) : List Sample :=
  rows.map fun row => ⟨row.time, level row⟩

/-! ### The columns that both scripts write -/

/-- A row of the output file, before its fields are formatted. -/
structure EventRow where
  event : Nat
  t0 : ℚ
  t1 : Option ℚ
  t2 : Option ℚ
  latency1Us : Option ℚ
  latency2Us : Option ℚ
  apartUs : Option ℚ
  status : String
  deriving DecidableEq, Repr

def eventStatus (t1 t2 : Option ℚ) : String :=
  if t1.isSome && t2.isSome then "ok"
  else if t1.isNone && t2.isNone then "missing_rx1_rx2"
  else if t1.isNone then "missing_rx1"
  else "missing_rx2"

def eventRow (event : Nat) (t0 : ℚ) (t1 t2 : Option ℚ) : EventRow where
  event := event
  t0 := t0
  t1 := t1
  t2 := t2
  latency1Us := t1.map fun t1 => (t1 - t0) * 1000000
  latency2Us := t2.map fun t2 => (t2 - t0) * 1000000
  apartUs := t1.bind fun t1 => t2.map fun t2 => |t2 - t1| * 1000000
  status := eventStatus t1 t2

/-! ### The script of 0916 -/

def receiveTimeoutS : ℚ := 50 / 1000

/-- One round of the loop of rising_edges. -/
def plainEdgeStep (state : Level × List ℚ) (row : Sample) : Level × List ℚ :=
  (row.value, if state.1 = .low ∧ row.value = .high then state.2 ++ [row.time] else state.2)

def plainRisingEdges (rows : List Sample) : List ℚ := (rows.foldl plainEdgeStep (.low, [])).2

/-- The generator under next. -/
def firstReceive (rxEdges : List ℚ) (timeout t0 : ℚ) : Option ℚ :=
  rxEdges.find? fun t => decide (t0 < t ∧ t ≤ t0 + timeout)

def searchReport (rows : List CaptureRow) (timeout : ℚ) : List EventRow :=
  let txEdges := plainRisingEdges (column rows CaptureRow.tx)
  let rx1Edges := plainRisingEdges (column rows CaptureRow.rx1)
  let rx2Edges := plainRisingEdges (column rows CaptureRow.rx2)
  (txEdges.zipIdx 1).map fun entry =>
    eventRow entry.2 entry.1 (firstReceive rx1Edges timeout entry.1) (firstReceive rx2Edges timeout entry.1)

/-! ### The script of 0917 -/

def scanReport (rows : List CaptureRow) (maxLatencyS glitchFilterS : ℚ) : List EventRow :=
  let txEdges := risingEdges (column rows CaptureRow.tx) glitchFilterS
  let rx1Edges := risingEdges (column rows CaptureRow.rx1) glitchFilterS
  let rx2Edges := risingEdges (column rows CaptureRow.rx2) glitchFilterS
  let rx1 := (matchReceives txEdges rx1Edges maxLatencyS).1
  let rx2 := (matchReceives txEdges rx2Edges maxLatencyS).1
  ((txEdges.zip (rx1.zip rx2)).zipIdx 1).map fun entry => eventRow entry.2 entry.1.1 entry.1.2.1 entry.1.2.2

/-! ### Edges -/

theorem plainRisingEdges_eq (rows : List Sample) : plainRisingEdges rows = riseTimes .low rows := by
  have run : ∀ (before : Level) (edges : List ℚ),
      (rows.foldl plainEdgeStep (before, edges)).2 = edges ++ riseTimes before rows := by
    induction rows with
    | nil => exact fun _ edges => (List.append_nil edges).symm
    | cons row rows ih =>
      intro before edges
      rw [List.foldl_cons, plainEdgeStep, ih, riseTimes_cons, ← List.append_assoc]
      congr 1
      split
      · rfl
      · exact (List.append_nil edges).symm
  exact run .low []

theorem plainRisingEdges_eq_unfiltered (rows : List Sample) : plainRisingEdges rows = risingEdges rows 0 :=
  (plainRisingEdges_eq rows).trans (run_unfiltered rows .low []).symm

theorem riseTimes_sublist (before : Level) (rows : List Sample) :
    (riseTimes before rows).Sublist (rows.map Sample.time) := by
  induction rows generalizing before with
  | nil => exact .slnil
  | cons row rows ih =>
    rw [riseTimes_cons, List.map_cons]
    split
    · exact (ih row.value).cons_cons row.time
    · exact (ih row.value).cons row.time

/-- Edges come in the order of the rows. -/
theorem risingEdges_sorted {rows : List CaptureRow} (level : CaptureRow → Level)
    (times : rows.Pairwise fun earlier later => earlier.time < later.time) :
    (risingEdges (column rows level) 0).Pairwise (· < ·) := by
  rw [← plainRisingEdges_eq_unfiltered, plainRisingEdges_eq]
  apply List.Pairwise.sublist (riseTimes_sublist _ _)
  unfold column
  rw [List.map_map]
  exact List.pairwise_map.mpr times

/-! ### Search and scan -/

section
variable {txEdges rxEdges front rest : List ℚ} {limit tx : ℚ}

theorem skipStale_spec (tx : ℚ) (stale : Nat) (rest : List ℚ) : skipStale tx stale rest =
    (stale + (rest.takeWhile (· ≤ tx)).length, rest.dropWhile (· ≤ tx)) := by
  induction rest generalizing stale with
  | nil => rfl
  | cons rx rest ih =>
    unfold skipStale
    by_cases early : rx ≤ tx
    · rw [if_pos early, ih, List.takeWhile_cons_of_pos (by simpa using early),
        List.dropWhile_cons_of_pos (by simpa using early), List.length_cons, Nat.add_right_comm, Nat.add_assoc]
    · rw [if_neg early, List.takeWhile_cons_of_neg (by simpa using early),
        List.dropWhile_cons_of_neg (by simpa using early)]
      rfl

/-- In sorted edges the first one behind the TX edge decides. -/
theorem firstReceive_eq (sorted : rest.Pairwise (· < ·)) :
    firstReceive rest limit tx = (rest.dropWhile (· ≤ tx)).head?.filter (· ≤ tx + limit) := by
  unfold firstReceive
  induction rest with
  | nil => rfl
  | cons rx rest ih =>
    obtain ⟨first, sorted⟩ := List.pairwise_cons.mp sorted
    by_cases early : rx ≤ tx
    · rw [List.find?_cons_of_neg (by simp [not_lt.mpr early]), ih sorted,
        List.dropWhile_cons_of_pos (by simpa using early)]
    · rw [List.dropWhile_cons_of_neg (by simpa using early), List.head?_cons]
      have late := not_le.mp early
      by_cases inside : rx ≤ tx + limit
      · rw [List.find?_cons_of_pos (by simp [late, inside])]
        simp [Option.filter, inside]
      · -- the edges behind it are later still
        have none_ : rest.find? (fun t => decide (tx < t ∧ t ≤ tx + limit)) = none := by
          apply List.find?_eq_none.mpr
          intro other member
          have after := lt_trans (not_le.mp inside) (first other member)
          simp [not_le.mpr after]
        rw [List.find?_cons_of_neg (by simp [inside]), none_]
        simp [Option.filter, inside]

theorem firstReceive_some {rx : ℚ} (found : firstReceive rxEdges limit tx = some rx) :
    rx ∈ rxEdges ∧ tx < rx ∧ rx ≤ tx + limit := by
  have inside := List.find?_some found
  exact ⟨List.mem_of_find?_eq_some found, of_decide_eq_true inside⟩

/-- Nothing in the window lies before the edge that is found. -/
theorem firstReceive_least {rx other : ℚ} (sorted : rxEdges.Pairwise (· < ·))
    (found : firstReceive rxEdges limit tx = some rx) (member : other ∈ rxEdges) (after : tx < other) :
    rx ≤ other := by
  obtain ⟨_, before, behind, split, earlier⟩ := List.find?_eq_some_iff_append.mp found
  obtain ⟨_, _, inside⟩ := firstReceive_some found
  rw [split] at sorted member
  obtain ⟨_, sorted, across⟩ := List.pairwise_append.mp sorted
  rcases List.mem_append.mp member with first | later
  · have less := across other first rx List.mem_cons_self
    have outside := earlier other first
    simp [after, le_trans (le_of_lt less) inside] at outside
  · rcases List.mem_cons.mp later with rfl | later
    · exact le_refl other
    · exact le_of_lt ((List.pairwise_cons.mp sorted).1 other later)

theorem firstReceive_append (none_ : ∀ rx ∈ front, ¬ (tx < rx ∧ rx ≤ tx + limit)) :
    firstReceive (front ++ rest) limit tx = firstReceive rest limit tx := by
  unfold firstReceive
  rw [List.find?_append, List.find?_eq_none.mpr, Option.none_or]
  intro rx member
  rw [decide_eq_true_iff]
  exact none_ rx member

/-- The scan after the TX edges `earlier`: what it has matched is what the search finds, and
an edge that is gone was stale or matched. -/
structure Searched (rxEdges : List ℚ) (limit : ℚ) (earlier : List ℚ) (state : MatchState) : Prop where
  matched : state.matched = earlier.map (firstReceive rxEdges limit)
  gone : ∃ front, rxEdges = front ++ state.rest ∧
    ∀ rx ∈ front, (∃ tx ∈ earlier, rx ≤ tx) ∨ some rx ∈ state.matched

/-- An edge that an earlier TX edge has used is not in the window of this one. -/
theorem Searched.outside {earlier : List ℚ} {state : MatchState} {rx : ℚ}
    (searched : Searched rxEdges limit earlier state) (sorted : rxEdges.Pairwise (· < ·))
    (before : ∀ tx' ∈ earlier, tx' ≤ tx)
    (once : ((earlier ++ [tx]).map (firstReceive rxEdges limit)).reduceOption.Nodup)
    (gone : (∃ tx ∈ earlier, rx ≤ tx) ∨ some rx ∈ state.matched) : ¬ (tx < rx ∧ rx ≤ tx + limit) := by
  rintro ⟨after, inside⟩
  rcases gone with ⟨tx', member, stale⟩ | used
  · exact absurd (lt_of_lt_of_le after stale) (not_lt.mpr (before tx' member))
  · rw [searched.matched] at used
    obtain ⟨tx', member, found⟩ := List.mem_map.mp used
    obtain ⟨listed, _, _⟩ := firstReceive_some found
    have some_ : (firstReceive rxEdges limit tx).isSome :=
      List.find?_isSome.mpr ⟨rx, listed, by simp [after, inside]⟩
    obtain ⟨rx', found'⟩ := Option.isSome_iff_exists.mp some_
    obtain ⟨listed', after', _⟩ := firstReceive_some found'
    -- both windows begin with the same edge
    have same : rx' = rx := le_antisymm (firstReceive_least sorted found' listed after)
      (firstReceive_least sorted found listed' (lt_of_le_of_lt (before tx' member) after'))
    rw [List.map_append, List.reduceOption_append, List.map_singleton, found', same] at once
    refine (List.nodup_append.mp once).2.2 rx ?_ rx (List.mem_singleton_self rx) rfl
    exact List.reduceOption_mem_iff.mpr used

theorem Searched.step {earlier : List ℚ} {state : MatchState} (searched : Searched rxEdges limit earlier state)
    (sorted : rxEdges.Pairwise (· < ·)) (before : ∀ tx' ∈ earlier, tx' ≤ tx)
    (once : ((earlier ++ [tx]).map (firstReceive rxEdges limit)).reduceOption.Nodup) :
    Searched rxEdges limit (earlier ++ [tx]) (matchStep limit state tx) := by
  obtain ⟨front, split, gone⟩ := searched.gone
  have here : firstReceive rxEdges limit tx = firstReceive state.rest limit tx := by
    rw [split]
    exact firstReceive_append fun rx member => searched.outside sorted before once (gone rx member)
  have sorted' : state.rest.Pairwise (· < ·) := by
    rw [split] at sorted
    exact (List.pairwise_append.mp sorted).2.1
  rw [firstReceive_eq sorted'] at here
  have parts := List.takeWhile_append_dropWhile (p := fun rx => decide (rx ≤ tx)) (l := state.rest)
  -- an edge that was gone is still accounted for, and so is one that is skipped now
  have gone' : ∀ value, ∀ rx ∈ front ++ state.rest.takeWhile (· ≤ tx),
      (∃ tx' ∈ earlier ++ [tx], rx ≤ tx') ∨ some rx ∈ state.matched ++ [value] := by
    intro value rx member
    rcases List.mem_append.mp member with old | skipped
    · rcases gone rx old with ⟨tx', member, stale⟩ | used
      · exact .inl ⟨tx', List.mem_append_left _ member, stale⟩
      · exact .inr (List.mem_append_left _ used)
    · have stale := @List.mem_takeWhile_imp _ (fun rx => decide (rx ≤ tx)) _ _ skipped
      exact .inl ⟨tx, List.mem_append_right _ (List.mem_singleton_self tx), of_decide_eq_true stale⟩
  have extended : ∀ value, firstReceive rxEdges limit tx = value →
      state.matched ++ [value] = (earlier ++ [tx]).map (firstReceive rxEdges limit) := by
    rintro value rfl
    rw [List.map_append, searched.matched]
    rfl
  unfold matchStep
  rw [skipStale_spec]
  dsimp only
  generalize state.rest.dropWhile (· ≤ tx) = left at here parts
  cases left with
  | nil =>
    refine ⟨extended none here, _, ?_, gone' none⟩
    rw [List.append_assoc, parts]
    exact split
  | cons rx others =>
    rw [List.head?_cons] at here
    dsimp only
    by_cases inside : rx ≤ tx + limit
    · rw [if_pos inside]
      refine ⟨extended (some rx) ?_, front ++ state.rest.takeWhile (· ≤ tx) ++ [rx], ?_, ?_⟩
      · rw [here]
        simp [Option.filter, inside]
      · rw [List.append_assoc, List.append_assoc, List.singleton_append, parts]
        exact split
      · intro other member
        rcases List.mem_append.mp member with old | new
        · exact gone' (some rx) other old
        · rw [List.mem_singleton.mp new]
          exact .inr (List.mem_append_right _ (List.mem_singleton_self _))
    · rw [if_neg inside]
      refine ⟨extended none ?_, _, ?_, gone' none⟩
      · rw [here]
        simp [Option.filter, inside]
      · rw [List.append_assoc, parts]
        exact split

theorem Searched.run {earlier : List ℚ} {state : MatchState} (searched : Searched rxEdges limit earlier state)
    (sorted : rxEdges.Pairwise (· < ·)) (tx : (earlier ++ txEdges).Pairwise (· ≤ ·))
    (once : ((earlier ++ txEdges).map (firstReceive rxEdges limit)).reduceOption.Nodup) :
    Searched rxEdges limit (earlier ++ txEdges) (txEdges.foldl (matchStep limit) state) := by
  induction txEdges generalizing earlier state with
  | nil =>
    rw [List.append_nil]
    exact searched
  | cons tx_ txEdges ih =>
    rw [← List.singleton_append, ← List.append_assoc] at tx once ⊢
    have before : ∀ tx' ∈ earlier, tx' ≤ tx_ := by
      intro tx' member
      exact (List.pairwise_append.mp (List.pairwise_append.mp tx).1).2.2 tx' member tx_ (List.mem_singleton_self _)
    have once' : ((earlier ++ [tx_]).map (firstReceive rxEdges limit)).reduceOption.Nodup := by
      rw [List.map_append, List.reduceOption_append] at once
      exact (List.nodup_append.mp once).1
    exact ih (searched.step sorted before once') tx once

/-- Values at rising places of a rising list. -/
theorem rising_values {edges : List ℚ} (sorted : edges.Pairwise (· < ·)) {places : List (Option ℕ)}
    (rising : places.reduceOption.Pairwise (· < ·)) :
    (places.map fun place => place.bind (edges[·]?)).reduceOption.Pairwise (· < ·) := by
  have values : (places.map fun place => place.bind (edges[·]?)).reduceOption =
      places.reduceOption.filterMap (edges[·]?) := by
    unfold List.reduceOption
    rw [List.filterMap_map, List.filterMap_filterMap]
    rfl
  rw [values]
  apply rising.filterMap
  intro i j below a here b there
  obtain ⟨inside, rfl⟩ := List.getElem?_eq_some_iff.mp here
  obtain ⟨inside', rfl⟩ := List.getElem?_eq_some_iff.mp there
  exact List.pairwise_iff_getElem.mp sorted i j inside inside' below

theorem apart_of_chain (sorted : txEdges.Pairwise (· < ·))
    (chain : txEdges.IsChain fun earlier later => earlier + limit ≤ later) :
    txEdges.Pairwise fun earlier later => earlier + limit ≤ later := by
  induction txEdges with
  | nil => exact .nil
  | cons tx rest ih =>
    refine .cons ?_ (ih (List.pairwise_cons.mp sorted).2 chain.tail)
    cases rest with
    | nil => exact fun later none_ => absurd none_ List.not_mem_nil
    | cons next rest =>
      have near := (List.isChain_cons_cons.mp chain).1
      intro later member
      rcases List.mem_cons.mp member with rfl | further
      · exact near
      · have order := (List.pairwise_cons.mp (List.pairwise_cons.mp sorted).2).1 later further
        exact near.trans (le_of_lt order)

theorem matchReceives_paired (tx : txEdges.Pairwise (· ≤ ·)) (rx : rxEdges.Pairwise (· ≤ ·)) :
    ∃ places, places.length = txEdges.length ∧
      Paired txEdges rxEdges limit (matchReceives txEdges rxEdges limit).1 places ∧
      (matchReceives txEdges rxEdges limit).1.reduceOption.length + (matchReceives txEdges rxEdges limit).2.1 +
        (matchReceives txEdges rxEdges limit).2.2 = rxEdges.length := by
  obtain ⟨j, places, scanned⟩ := Scanned.run (ordered_of_sorted limit tx rx) (@Scanned.start txEdges rxEdges limit)
  rw [List.drop_zero, Nat.zero_add] at scanned
  refine ⟨places, scanned.length, scanned.paired, ?_⟩
  unfold matchReceives
  dsimp only
  rw [scanned.count, scanned.rest, List.length_drop]
  exact Nat.add_sub_cancel' scanned.short

theorem matchReceives_length (tx : txEdges.Pairwise (· ≤ ·)) (rx : rxEdges.Pairwise (· ≤ ·)) :
    (matchReceives txEdges rxEdges limit).1.length = txEdges.length := by
  obtain ⟨places, length, paired, _⟩ := @matchReceives_paired _ _ limit tx rx
  rw [paired.values, List.length_map, length]

/-- The scan finds what the search finds exactly if the search finds no edge twice. -/
theorem scan_eq_search_iff (tx : txEdges.Pairwise (· ≤ ·)) (rx : rxEdges.Pairwise (· < ·)) :
    (matchReceives txEdges rxEdges limit).1 = txEdges.map (firstReceive rxEdges limit) ↔
      (txEdges.map (firstReceive rxEdges limit)).reduceOption.Nodup := by
  constructor
  · intro same
    obtain ⟨places, _, paired, _⟩ := @matchReceives_paired _ _ limit tx (rx.imp le_of_lt)
    rw [← same, paired.values]
    exact (rising_values rx paired.rising).imp fun less => ne_of_lt less
  · intro once
    have start : Searched rxEdges limit [] ⟨[], 0, rxEdges⟩ :=
      ⟨rfl, [], rfl, fun _ none_ => absurd none_ List.not_mem_nil⟩
    exact (start.run rx tx once).matched

/-- TX edges that are far enough apart find different edges. -/
theorem search_once (apart : txEdges.Pairwise fun earlier later => earlier + limit ≤ later) :
    (txEdges.map (firstReceive rxEdges limit)).reduceOption.Nodup := by
  unfold List.reduceOption
  rw [List.filterMap_map]
  apply apart.filterMap
  intro earlier later far rx found rx' found'
  obtain ⟨_, _, inside⟩ := firstReceive_some found
  obtain ⟨_, after, _⟩ := firstReceive_some found'
  exact ne_of_lt (lt_of_le_of_lt (inside.trans far) after)

end

/-! ### Reports -/

/-- The rows for TX edges and the matches of the two receivers. -/
def eventRows (txEdges : List ℚ) (rx1 rx2 : List (Option ℚ)) : List EventRow :=
  ((txEdges.zip (rx1.zip rx2)).zipIdx 1).map fun entry => eventRow entry.2 entry.1.1 entry.1.2.1 entry.1.2.2

section
variable {txEdges : List ℚ} {rx1 rx2 : List (Option ℚ)}

theorem eventRows_matches (first : rx1.length = txEdges.length) (second : rx2.length = txEdges.length) :
    (eventRows txEdges rx1 rx2).map EventRow.t1 = rx1 ∧ (eventRows txEdges rx1 rx2).map EventRow.t2 = rx2 := by
  have pairs : (eventRows txEdges rx1 rx2).map (fun row => (row.t1, row.t2)) = rx1.zip rx2 := by
    unfold eventRows
    rw [List.map_map]
    change ((txEdges.zip (rx1.zip rx2)).zipIdx 1).map (Prod.snd ∘ Prod.fst) = _
    rw [← List.map_map, List.zipIdx_map_fst, List.map_snd_zip]
    rw [List.length_zip]
    omega
  have t1 := congrArg (List.map Prod.fst) pairs
  have t2 := congrArg (List.map Prod.snd) pairs
  rw [List.map_map, List.map_fst_zip (by omega)] at t1
  rw [List.map_map, List.map_snd_zip (by omega)] at t2
  exact ⟨t1, t2⟩

theorem searchReport_eq (rows : List CaptureRow) (timeout : ℚ) : searchReport rows timeout =
    eventRows (risingEdges (column rows CaptureRow.tx) 0)
      ((risingEdges (column rows CaptureRow.tx) 0).map
        (firstReceive (risingEdges (column rows CaptureRow.rx1) 0) timeout))
      ((risingEdges (column rows CaptureRow.tx) 0).map
        (firstReceive (risingEdges (column rows CaptureRow.rx2) 0) timeout)) := by
  unfold searchReport eventRows
  simp only [plainRisingEdges_eq_unfiltered]
  generalize risingEdges (column rows CaptureRow.tx) 0 = txEdges
  generalize 1 = event
  induction txEdges generalizing event with
  | nil => rfl
  | cons tx txEdges ih =>
    simp only [List.zipIdx_cons, List.map_cons, List.zip_cons_cons]
    rw [ih]

end

/-- Without the glitch filter, and with the timeout as latency limit, the scan of one
script reports for every TX event what the search of the other does exactly if the search
finds no receive edge for two TX edges; it finds none if the TX edges are as far apart as
the limit. -/
theorem reports_agree_iff (rows : List CaptureRow) (limit : ℚ)
    (times : rows.Pairwise fun earlier later => earlier.time < later.time) :
    let txEdges := risingEdges (column rows CaptureRow.tx) 0
    let found := fun level => (txEdges.map (firstReceive (risingEdges (column rows level) 0) limit)).reduceOption
    (scanReport rows limit 0 = searchReport rows limit ↔ (found CaptureRow.rx1).Nodup ∧
      (found CaptureRow.rx2).Nodup) ∧
    (txEdges.IsChain (fun earlier later => earlier + limit ≤ later) →
      scanReport rows limit 0 = searchReport rows limit) := by
  intro txEdges found
  have tx : txEdges.Pairwise (· < ·) := risingEdges_sorted CaptureRow.tx times
  have rx1 := risingEdges_sorted CaptureRow.rx1 times
  have rx2 := risingEdges_sorted CaptureRow.rx2 times
  have tx' := tx.imp le_of_lt
  have iff1 := @scan_eq_search_iff txEdges _ limit tx' rx1
  have iff2 := @scan_eq_search_iff txEdges _ limit tx' rx2
  have agree : scanReport rows limit 0 = searchReport rows limit ↔
      (found CaptureRow.rx1).Nodup ∧ (found CaptureRow.rx2).Nodup := by
    rw [← iff1, ← iff2, searchReport_eq]
    constructor
    · intro same
      obtain ⟨scan1, scan2⟩ := @eventRows_matches txEdges _ _
        (@matchReceives_length _ _ limit tx' (rx1.imp le_of_lt))
        (@matchReceives_length _ _ limit tx' (rx2.imp le_of_lt))
      obtain ⟨search1, search2⟩ := @eventRows_matches txEdges
        (txEdges.map (firstReceive (risingEdges (column rows CaptureRow.rx1) 0) limit))
        (txEdges.map (firstReceive (risingEdges (column rows CaptureRow.rx2) 0) limit))
        (List.length_map _) (List.length_map _)
      refine ⟨?_, ?_⟩
      · rw [← scan1, ← search1]
        exact congrArg (List.map EventRow.t1) same
      · rw [← scan2, ← search2]
        exact congrArg (List.map EventRow.t2) same
    · rintro ⟨same1, same2⟩
      rw [← same1, ← same2]
      rfl
  refine ⟨agree, fun chain => ?_⟩
  have apart := apart_of_chain tx chain
  exact agree.mpr ⟨search_once apart, search_once apart⟩

/-- Two events; the second receiver misses the second one. -/
theorem reports_agree_iff_capture :
    let rows : List CaptureRow := [⟨0, .high, .low, .low⟩, ⟨3 / 1000, .high, .high, .low⟩,
      ⟨4 / 1000, .low, .low, .high⟩, ⟨60 / 1000, .high, .low, .low⟩, ⟨63 / 1000, .high, .high, .low⟩]
    scanReport rows receiveTimeoutS 0 = searchReport rows receiveTimeoutS :=
  (reports_agree_iff _ receiveTimeoutS (by decide +kernel)).2 (by decide +kernel)

end Cc1310Firmware.Analysis
