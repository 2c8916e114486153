import Mathlib.Data.List.Chain
import Mathlib.Data.List.Nodup
import Mathlib.Data.List.Sort
import Mathlib.Algebra.Order.Ring.Rat

/-! build_clock_models of rf_latency_logger.py. -/

set_option autoImplicit false

namespace Cc1310Firmware.Analysis

/-! ### Models -/

/-- The fields that build_clock_models reads of a row; a missing or empty one is `none`. -/
structure ClockRow where
  port : Option String
  tick : Option Nat
  hostNs : Option Int

structure ClockSample where
  hostNs : Int
  tick : Nat
  index : Nat
  deriving DecidableEq, Repr

/-- The order of the tuples. -/
def ClockSample.le (a b : ClockSample) : Bool :=
  decide (a.hostNs < b.hostNs) || a.hostNs == b.hostNs &&
    (decide (a.tick < b.tick) || a.tick == b.tick && decide (a.index ≤ b.index))

/-- The first host time and tick of a port, and the nanoseconds of a tick. -/
structure ClockModel where
  firstHostNs : Int
  firstTick : Nat
  nsPerTick : ℚ

/-- What a row adds to grouped. -/
def ClockRow.sample (row : ClockRow) (index : Nat) : Option (String × ClockSample) := do
  let port ← row.port
  let tick ← row.tick
  let hostNs ← row.hostNs
  return (port, ⟨hostNs, tick, index⟩)

def grouped (rows : List ClockRow) : List (String × ClockSample) :=
  rows.zipIdx.filterMap fun entry => entry.1.sample entry.2

/-- The samples of a port, sorted. -/
def portSamples (rows : List ClockRow) (port : String) : List ClockSample :=
  ((grouped rows).filterMap fun entry => if entry.1 = port then some entry.2 else none).insertionSort
    (ClockSample.le · ·)

/-- A backwards jump that is larger than half the range. -/
def isWrap (previousRaw : Option Nat) (rawTick : Nat) : Bool :=
  match previousRaw with
  | none => false
  | some previousRaw => decide (rawTick < previousRaw) && decide (1 <<< 31 < previousRaw - rawTick)

/-- The loop over the samples of a port. -/
def unwrapLoop (epoch : Nat) (previousRaw : Option Nat) : List ClockSample → List ClockSample
  | [] => []
  | sample :: samples =>
    let epoch := if isWrap previousRaw sample.tick then epoch + 1 <<< 32 else epoch
    { sample with tick := epoch + sample.tick } :: unwrapLoop epoch (some sample.tick) samples

def portTicks (rows : List ClockRow) (port : String) : List ClockSample := unwrapLoop 0 none (portSamples rows port)

/-- The model of a port, if it has two different ticks. -/
def clockModel (converted : List ClockSample) : Option ClockModel := do
  let first ← converted.head?
  let last ← converted.getLast?
  if last.tick ≠ first.tick then
    return ⟨first.hostNs, first.tick, ((last.hostNs - first.hostNs : Int) : ℚ) /
      ((last.tick : Int) - (first.tick : Int) : Int)⟩
  else none

/-- The models of the ports, and the ticks of the rows. -/
def buildClockModels (rows : List ClockRow) : List (String × ClockModel) × List (Nat × Nat) :=
  let ports := ((grouped rows).map Prod.fst).eraseDups
  (ports.filterMap fun port => (clockModel (portTicks rows port)).map (port, ·),
    ports.flatMap fun port => (portTicks rows port).map fun sample => (sample.index, sample.tick))

/-- The tick of each sample of a port, as unwrapped has it. -/
def unwrappedTicks (rows : List ClockRow) (port : String) : List (Option Nat) :=
  (portSamples rows port).map fun sample => (buildClockModels rows).2.lookup sample.index

/-! ### The ticks of a port -/

theorem lookup_of_unique {κ υ : Type} [DecidableEq κ] {entries : List (κ × υ)} {key : κ} {value : υ}
    (listed : (key, value) ∈ entries) (unique : ∀ other, (key, other) ∈ entries → other = value) :
    entries.lookup key = some value := by
  induction entries with
  | nil => cases listed
  | cons entry entries ih =>
    rw [List.lookup_cons]
    by_cases here : key = entry.1
    · subst here
      rw [beq_self_eq_true]
      exact congrArg some (unique entry.2 List.mem_cons_self)
    · rw [beq_false_of_ne here]
      have further : (key, value) ∈ entries := by
        rcases List.mem_cons.mp listed with rfl | further
        · exact absurd rfl here
        · exact further
      exact ih further fun other member => unique other (List.mem_cons_of_mem _ member)

/-- A sample keeps the port of its row, and the place. -/
theorem of_sample {row : ClockRow} {index : Nat} {entry : String × ClockSample}
    (found : row.sample index = some entry) :
    row.port = some entry.1 ∧ entry.2.index = index := by
  obtain ⟨port, port_, found⟩ := Option.bind_eq_some_iff.mp found
  obtain ⟨tick, _, found⟩ := Option.bind_eq_some_iff.mp found
  obtain ⟨hostNs, _, found⟩ := Option.bind_eq_some_iff.mp found
  obtain rfl := Option.some.inj found
  exact ⟨port_, rfl⟩

/-- The row of a sample. -/
theorem row_of_grouped {rows : List ClockRow} {port : String} {sample : ClockSample}
    (member : (port, sample) ∈ grouped rows) :
    ∃ row, rows[sample.index]? = some row ∧ row.port = some port := by
  obtain ⟨⟨row, index⟩, listed, found⟩ := List.mem_filterMap.mp member
  obtain ⟨port_, rfl⟩ := of_sample found
  exact ⟨row, List.mk_mem_zipIdx_iff_getElem?.mp listed, port_⟩

theorem grouped_increasing (rows : List ClockRow) :
    (grouped rows).Pairwise fun first second => first.2.index < second.2.index := by
  rw [grouped, List.pairwise_filterMap, List.pairwise_iff_getElem]
  intro i j inside inside' order first found second found'
  rw [(of_sample found).2, (of_sample found').2, List.getElem_zipIdx, List.getElem_zipIdx]
  exact Nat.add_lt_add_left order 0

theorem mem_portSamples {rows : List ClockRow} {port : String} {sample : ClockSample} :
    sample ∈ portSamples rows port ↔ (port, sample) ∈ grouped rows := by
  rw [portSamples, (List.perm_insertionSort _ _).mem_iff, List.mem_filterMap]
  constructor
  · rintro ⟨⟨port', sample'⟩, member, found⟩
    by_cases here : port' = port
    · subst here
      rw [if_pos rfl] at found
      rwa [← Option.some.inj found]
    · rw [if_neg here] at found
      cases found
  · exact fun member => ⟨(port, sample), member, if_pos rfl⟩

theorem indices_nodup (rows : List ClockRow) (port : String) :
    ((portSamples rows port).map ClockSample.index).Nodup := by
  rw [portSamples, ((List.perm_insertionSort _ _).map ClockSample.index).nodup_iff, List.Nodup, List.pairwise_map,
    List.pairwise_filterMap]
  refine (grouped_increasing rows).imp fun less sample found sample' found' => ?_
  split at found <;> split at found'
  · rw [← Option.some.inj found, ← Option.some.inj found']
    exact Nat.ne_of_lt less
  · cases found'
  · cases found
  · cases found

theorem unwrapLoop_index (epoch : Nat) (previousRaw : Option Nat) (samples : List ClockSample) :
    (unwrapLoop epoch previousRaw samples).map ClockSample.index = samples.map ClockSample.index := by
  induction samples generalizing epoch previousRaw with
  | nil => rfl
  | cons sample samples ih =>
    rw [unwrapLoop, List.map_cons, List.map_cons]
    exact congrArg (sample.index :: ·) (ih _ _)

/-- unwrapped has the ticks of the loop: no two ports, and no two samples, share a row. -/
theorem unwrappedTicks_eq (rows : List ClockRow) (port : String) :
    unwrappedTicks rows port = (portTicks rows port).map fun sample => some sample.tick := by
  have indices (port : String) : (portTicks rows port).map ClockSample.index =
      (portSamples rows port).map ClockSample.index :=
    unwrapLoop_index 0 none _
  have origin {port : String} {sample : ClockSample} (member : sample ∈ portTicks rows port) :
      ∃ old, old.index = sample.index ∧ (port, old) ∈ grouped rows := by
    have index := List.mem_map_of_mem (f := ClockSample.index) member
    rw [indices] at index
    obtain ⟨old, old_, same⟩ := List.mem_map.mp index
    exact ⟨old, same, mem_portSamples.mp old_⟩
  have byIndex : unwrappedTicks rows port =
      ((portTicks rows port).map ClockSample.index).map fun index => (buildClockModels rows).2.lookup index := by
    rw [indices, List.map_map]
    rfl
  rw [byIndex, List.map_map]
  apply List.map_congr_left
  intro sample member
  obtain ⟨old, same, listed⟩ := origin member
  obtain ⟨row, row_, port_⟩ := row_of_grouped listed
  refine lookup_of_unique ?_ ?_
  · refine List.mem_flatMap.mpr ⟨port, ?_, List.mem_map_of_mem member⟩
    rw [List.mem_eraseDups]
    exact List.mem_map_of_mem (f := Prod.fst) listed
  · intro tick entry
    obtain ⟨port', _, entry⟩ := List.mem_flatMap.mp entry
    obtain ⟨sample', member', entry⟩ := List.mem_map.mp entry
    obtain ⟨index, rfl⟩ := Prod.mk.inj entry
    obtain ⟨old', same', listed'⟩ := origin member'
    obtain ⟨row', row'_, port'_⟩ := row_of_grouped listed'
    rw [same', index, ← same, row_] at row'_
    obtain rfl := Option.some.inj row'_
    obtain rfl := Option.some.inj (port_.symm.trans port'_)
    have nodup : ((portTicks rows port).map ClockSample.index).Nodup := by
      rw [indices]
      exact indices_nodup rows port
    rw [List.inj_on_of_nodup_map nodup member' member index]

/-! ### True ticks -/

/-- Each tick is less than half the range away from the largest one before it. -/
def Near (largest : Nat) : List Nat → Prop
  | [] => True
  | tick :: ticks => (tick < largest + 2 ^ 31 ∧ largest < tick + 2 ^ 31) ∧ Near (max largest tick) ticks

def NearLargest : List Nat → Prop
  | [] => True
  | tick :: ticks => Near tick ticks

instance decidableNear (largest : Nat) : (ticks : List Nat) → Decidable (Near largest ticks)
  | [] => isTrue trivial
  | tick :: ticks =>
    haveI := decidableNear (max largest tick) ticks
    inferInstanceAs (Decidable (_ ∧ _))

instance : (ticks : List Nat) → Decidable (NearLargest ticks)
  | [] => isTrue trivial
  | tick :: ticks => inferInstanceAs (Decidable (Near tick ticks))

/-- No tick is on the other side of a wrap from a later one in front of it, and the ticks on
both sides of a wrap are close. -/
def Steady (ticks : List Nat) : Prop :=
  ticks.IsChain fun tick next => tick / 2 ^ 32 ≤ next / 2 ^ 32 ∧
    (tick / 2 ^ 32 < next / 2 ^ 32 → next < tick + 2 ^ 31)

/-- What the loop adds to the epoch between two true ticks. -/
def epochStep (tick next : Nat) : Nat := if isWrap (some (tick % 2 ^ 32)) (next % 2 ^ 32) then 2 ^ 32 else 0

theorem isWrap_iff {previousRaw rawTick : Nat} :
    isWrap (some previousRaw) rawTick = true ↔ rawTick + 2 ^ 31 < previousRaw := by
  have half : 1 <<< 31 = 2 ^ 31 := by decide
  rw [isWrap, half, Bool.and_eq_true, decide_eq_true_iff, decide_eq_true_iff]
  omega

/-- Where the ticks stay near the largest one, the epoch follows exactly the steady steps. -/
theorem epochStep_iff {largest tick next : Nat} (behind : tick ≤ largest) (close : largest < tick + 2 ^ 31)
    (near : next < largest + 2 ^ 31 ∧ largest < next + 2 ^ 31) :
    epochStep tick next + 2 ^ 32 * (tick / 2 ^ 32) = 2 ^ 32 * (next / 2 ^ 32) ↔
      tick / 2 ^ 32 ≤ next / 2 ^ 32 ∧ (tick / 2 ^ 32 < next / 2 ^ 32 → next < tick + 2 ^ 31) := by
  obtain ⟨below, above⟩ := near
  unfold epochStep
  by_cases wrap : isWrap (some (tick % 2 ^ 32)) (next % 2 ^ 32) = true
  · rw [if_pos wrap]
    rw [isWrap_iff] at wrap
    omega
  · rw [if_neg wrap]
    rw [isWrap_iff] at wrap
    omega

theorem chain_iff {largest tick : Nat} {ticks : List Nat} (behind : tick ≤ largest)
    (close : largest < tick + 2 ^ 31) (near : Near largest ticks) :
    (tick :: ticks).IsChain (fun tick next => epochStep tick next + 2 ^ 32 * (tick / 2 ^ 32) = 2 ^ 32 *
      (next / 2 ^ 32)) ↔
      Steady (tick :: ticks) := by
  unfold Steady
  induction ticks generalizing largest tick with
  | nil => exact iff_of_true (.singleton tick) (.singleton tick)
  | cons next ticks ih =>
    obtain ⟨here, further⟩ := near
    rw [List.isChain_cons_cons, List.isChain_cons_cons, epochStep_iff behind close here,
      ih (Nat.le_max_right largest next) (by omega) further]

/-- Behind a tick, the loop keeps the offset exactly along the steps that the epoch follows. -/
theorem unwrapLoop_offset {samples : List ClockSample} {ticks : List Nat}
    (residues : samples.map ClockSample.tick = ticks.map (· % 2 ^ 32)) (epoch tick : Nat) :
    (unwrapLoop epoch (some (tick % 2 ^ 32)) samples).map (fun sample => (sample.tick : Int)) =
        ticks.map (fun next : Nat => (next : Int) + (epoch - 2 ^ 32 * (tick / 2 ^ 32 : Nat))) ↔
      (tick :: ticks).IsChain fun tick next => epochStep tick next + 2 ^ 32 * (tick / 2 ^ 32) =
        2 ^ 32 * (next / 2 ^ 32) := by
  induction ticks generalizing samples epoch tick with
  | nil =>
    obtain rfl := List.map_eq_nil_iff.mp residues
    exact iff_of_true rfl (.singleton tick)
  | cons next ticks ih =>
    obtain ⟨sample, samples, rfl, raw, residues⟩ := List.map_eq_cons_iff.mp residues
    replace raw : sample.tick = next % 2 ^ 32 := raw
    have epoch_ : (if isWrap (some (tick % 2 ^ 32)) sample.tick then epoch + 1 <<< 32 else epoch) =
        epoch + epochStep tick next := by
      rw [raw, epochStep]
      split <;> rfl
    rw [unwrapLoop, List.map_cons, List.map_cons, List.isChain_cons_cons, List.cons.injEq, epoch_]
    dsimp only
    have here : ((epoch + epochStep tick next + sample.tick : Nat) : Int) =
      next + (epoch - 2 ^ 32 * (tick / 2 ^ 32 : Nat)) ↔
        epochStep tick next + 2 ^ 32 * (tick / 2 ^ 32) = 2 ^ 32 * (next / 2 ^ 32) := by
      rw [raw]
      omega
    rw [here]
    refine and_congr_right fun follows => ?_
    rw [← ih residues (epoch + epochStep tick next) next, raw]
    have offset : ((epoch + epochStep tick next : Nat) : Int) - 2 ^ 32 * (next / 2 ^ 32 : Nat) =
        epoch - 2 ^ 32 * (tick / 2 ^ 32 : Nat) := by
      omega
    rw [offset]

/-- The first tick decides the constant. -/
theorem unwrapLoop_first (sample : ClockSample) (samples : List ClockSample) {tick : Nat}
    (raw : sample.tick = tick % 2 ^ 32) (ticks : List Nat) (constant : Int) :
    ((unwrapLoop 0 none (sample :: samples)).map fun sample => some sample.tick).map
        (Option.map fun tick : Nat => (tick : Int)) =
          (tick :: ticks).map (fun tick : Nat => some ((tick : Int) + constant)) ↔
      constant = (0 : Nat) - 2 ^ 32 * (tick / 2 ^ 32 : Nat) ∧
        (unwrapLoop 0 (some sample.tick) samples).map (fun sample => (sample.tick : Int)) =
          ticks.map fun next : Nat => (next : Int) + constant := by
  have start : unwrapLoop 0 none (sample :: samples) =
      { sample with tick := 0 + sample.tick } :: unwrapLoop 0 (some sample.tick) samples := rfl
  have converted : ((unwrapLoop 0 none (sample :: samples)).map fun sample => some sample.tick).map
      (Option.map fun tick : Nat => (tick : Int)) =
      ((unwrapLoop 0 none (sample :: samples)).map fun sample => (sample.tick : Int)).map some := by
    rw [List.map_map, List.map_map]
    rfl
  have true_ : (tick :: ticks).map (fun tick : Nat => some ((tick : Int) + constant)) =
      ((tick :: ticks).map fun tick : Nat => (tick : Int) + constant).map some := by
    rw [List.map_map]
    rfl
  rw [converted, true_, (List.map_injective_iff.mpr fun _ _ => Option.some.inj).eq_iff, start, List.map_cons,
    List.map_cons, List.cons.injEq]
  refine and_congr_left' ?_
  dsimp only
  omega

/-- The ticks of a port differ from the true ones by one constant exactly if no two that
follow each other are in reverse order over a wrap, or far apart over one. -/
theorem unwrapped_constant_iff {rows : List ClockRow} {port : String} {ticks : List Nat}
    (residues : (portSamples rows port).map ClockSample.tick = ticks.map (· % 2 ^ 32)) (near : NearLargest ticks) :
    (∃ constant : Int, (unwrappedTicks rows port).map (Option.map fun tick : Nat => (tick : Int)) =
      ticks.map fun tick : Nat => some ((tick : Int) + constant)) ↔ Steady ticks := by
  rw [unwrappedTicks_eq, portTicks]
  generalize portSamples rows port = samples at residues
  cases ticks with
  | nil =>
    obtain rfl := List.map_eq_nil_iff.mp residues
    exact iff_of_true ⟨0, rfl⟩ .nil
  | cons tick ticks =>
    obtain ⟨sample, samples, rfl, raw, residues⟩ := List.map_eq_cons_iff.mp residues
    replace raw : sample.tick = tick % 2 ^ 32 := raw
    rw [← chain_iff (Nat.le_refl tick) (Nat.lt_add_of_pos_right (by decide)) near,
      ← unwrapLoop_offset residues 0 tick, ← raw]
    constructor
    · rintro ⟨constant, same⟩
      obtain ⟨rfl, rest⟩ := (unwrapLoop_first sample samples raw ticks constant).mp same
      exact rest
    · intro rest
      exact ⟨_, (unwrapLoop_first sample samples raw ticks _).mpr ⟨rfl, rest⟩⟩

/-- A wrap with the ticks on both sides in order. -/
theorem unwrapped_constant_iff_wrap : ∃ constant : Int,
    (unwrappedTicks [⟨some "rx", some 4294967290, some 1⟩, ⟨some "rx", some 4, some 2⟩] "rx").map
      (Option.map fun tick : Nat => (tick : Int)) =
        [4294967290, 4294967300].map fun tick : Nat => some ((tick : Int) + constant) := by
  have steady : Steady [4294967290, 4294967300] := by
    unfold Steady
    decide
  exact (unwrapped_constant_iff (by decide +kernel) (by decide)).mpr steady

/-- Two ticks at a wrap arrive in reverse order. -/
def swappedRows : List ClockRow :=
  [⟨some "rx", some 4294967292, some 1⟩, ⟨some "rx", some 5, some 2⟩, ⟨some "rx", some 4294967293, some 3⟩,
    ⟨some "rx", some 10, some 4⟩]

/-- A small reversal at a wrap makes a second one. -/
theorem swapped_wraps_twice : (portSamples swappedRows "rx").map ClockSample.tick =
      [4294967292, 4294967301, 4294967293, 4294967306].map (· % 2 ^ 32) ∧
    NearLargest [4294967292, 4294967301, 4294967293, 4294967306] ∧
    ¬ ∃ constant : Int, (unwrappedTicks swappedRows "rx").map (Option.map fun tick : Nat => (tick : Int)) =
      [4294967292, 4294967301, 4294967293, 4294967306].map fun tick : Nat => some ((tick : Int) + constant) := by
  have ticks : unwrappedTicks swappedRows "rx" =
      [some 4294967292, some 4294967301, some 8589934589, some 8589934602] := by
    decide +kernel
  refine ⟨by decide +kernel, by decide, ?_⟩
  rintro ⟨constant, same⟩
  rw [ticks] at same
  simp only [List.map_cons, List.map_nil, Option.map_some, List.cons.injEq, Option.some.injEq] at same
  omega

end Cc1310Firmware.Analysis
