import Mathlib.Data.Finset.Card
import Mathlib.Order.Defs.LinearOrder

/-! Assignments of points to windows, where the windows open and close in one order.

A scan over windows and points keeps to the places from some window and some point on.
Its three moves are the three lemmas below: none of them costs an assignment more than
the scan gains.
-/

set_option autoImplicit false

namespace Windows

variable {α : Type} [LinearOrder α]

/-- Open below and closed above. -/
structure Window (α : Type) where
  opens : α
  closes : α

/-- Each window gets one point at most, and each point one window; `pairs` are their places. -/
structure Assignment (windows : List (Window α)) (points : List α) (pairs : Finset (ℕ × ℕ)) : Prop where
  inside : ∀ pair ∈ pairs, ∃ window point, windows[pair.1]? = some window ∧ points[pair.2]? = some point ∧
    window.opens < point ∧ point ≤ window.closes
  window_once : ∀ pair ∈ pairs, ∀ pair' ∈ pairs, pair.1 = pair'.1 → pair = pair'
  point_once : ∀ pair ∈ pairs, ∀ pair' ∈ pairs, pair.2 = pair'.2 → pair = pair'

/-- Neither windows nor points overtake each other. -/
structure Ordered (windows : List (Window α)) (points : List α) : Prop where
  opens : windows.Pairwise fun first second => first.opens ≤ second.opens
  closes : windows.Pairwise fun first second => first.closes ≤ second.closes
  points : points.Pairwise (· ≤ ·)

/-- The places from the i-th window and the j-th point on. -/
def From (i j : ℕ) (pairs : Finset (ℕ × ℕ)) : Prop := ∀ pair ∈ pairs, i ≤ pair.1 ∧ j ≤ pair.2

theorem from_zero (pairs : Finset (ℕ × ℕ)) : From 0 0 pairs := fun _ _ => ⟨Nat.zero_le _, Nat.zero_le _⟩

/-- A relation between neighbours holds over any distance. -/
theorem le_of_places {β : Type} {f : β → α} {values : List β}
    (sorted : values.Pairwise fun first second => f first ≤ f second) {i k : ℕ} (order : i ≤ k) {x y : β}
    (here : values[i]? = some x) (there : values[k]? = some y) : f x ≤ f y := by
  obtain ⟨inside, rfl⟩ := List.getElem?_eq_some_iff.mp here
  obtain ⟨inside', rfl⟩ := List.getElem?_eq_some_iff.mp there
  rcases Nat.lt_or_eq_of_le order with less | rfl
  · exact List.pairwise_iff_getElem.mp sorted i k inside inside' less
  · exact le_refl _

section
variable {windows : List (Window α)} {points : List α} {pairs : Finset (ℕ × ℕ)} {i j : ℕ} {window : Window α}
    {point : α}

/-- A point that no window has reached yet. -/
theorem Assignment.skip_point (ordered : Ordered windows points) (assignment : Assignment windows points pairs)
    (from_ : From i j pairs) (window_ : windows[i]? = some window) (point_ : points[j]? = some point)
    (early : point ≤ window.opens) : From i (j + 1) pairs := by
  intro pair member
  obtain ⟨first, second⟩ := from_ pair member
  refine ⟨first, Nat.lt_of_le_of_ne second fun same => ?_⟩
  obtain ⟨window', point', window'_, point'_, after, _⟩ := assignment.inside pair member
  rw [← same, point_] at point'_
  obtain rfl := Option.some.inj point'_
  exact absurd (le_trans early (le_of_places ordered.opens first window_ window'_)) (not_le_of_gt after)

/-- A window that has closed before the next point. -/
theorem Assignment.skip_window (ordered : Ordered windows points) (assignment : Assignment windows points pairs)
    (from_ : From i j pairs) (window_ : windows[i]? = some window)
    (late : ∀ point, points[j]? = some point → window.closes < point) : From (i + 1) j pairs := by
  intro pair member
  obtain ⟨first, second⟩ := from_ pair member
  refine ⟨Nat.lt_of_le_of_ne first fun same => ?_, second⟩
  obtain ⟨window', point', window'_, point'_, _, before⟩ := assignment.inside pair member
  rw [← same, window_] at window'_
  obtain rfl := Option.some.inj window'_
  obtain ⟨inside, _⟩ := List.getElem?_eq_some_iff.mp point'_
  have next : points[j]? = some points[j] := List.getElem?_eq_getElem (Nat.lt_of_le_of_lt second inside)
  have order := @le_of_places α _ α id points ordered.points j pair.2 second _ _ next point'_
  exact absurd before (not_le_of_gt (lt_of_lt_of_le (late _ next) order))

theorem Assignment.subset {fewer : Finset (ℕ × ℕ)} (assignment : Assignment windows points pairs)
    (subset : fewer ⊆ pairs) :
    Assignment windows points fewer where
  inside pair member := assignment.inside pair (subset member)
  window_once pair member pair' member' := assignment.window_once pair (subset member) pair' (subset member')
  point_once pair member pair' member' := assignment.point_once pair (subset member) pair' (subset member')

/-- The exchange: where the window and the point have different partners, these two fit each other. -/
theorem Assignment.exchange (ordered : Ordered windows points) (assignment : Assignment windows points pairs)
    (from_ : From i j pairs) {k l : ℕ} (window_ : (i, l) ∈ pairs) (point_ : (k, j) ∈ pairs) :
    ∃ window point, windows[k]? = some window ∧ points[l]? = some point ∧ window.opens < point ∧
      point ≤ window.closes := by
  obtain ⟨first, late, first_, late_, _, closes⟩ := assignment.inside _ window_
  obtain ⟨second, early, second_, early_, opens, _⟩ := assignment.inside _ point_
  have order := @le_of_places α _ α id points ordered.points j l (from_ _ window_).2 _ _ early_ late_
  exact ⟨second, late, second_, late_, lt_of_lt_of_le opens order,
    le_trans closes (le_of_places ordered.closes (from_ _ point_).1 first_ second_)⟩

/-- The pairs without the i-th window and the j-th point. -/
def others (i j : ℕ) (pairs : Finset (ℕ × ℕ)) : Finset (ℕ × ℕ) := pairs.filter fun pair => pair.1 ≠ i ∧ pair.2 ≠ j

theorem mem_others {pair : ℕ × ℕ} : pair ∈ others i j pairs ↔ pair ∈ pairs ∧ pair.1 ≠ i ∧ pair.2 ≠ j :=
  Finset.mem_filter

theorem From.others (from_ : From i j pairs) : From (i + 1) (j + 1) (others i j pairs) := by
  intro pair member
  obtain ⟨member, first, second⟩ := mem_others.mp member
  obtain ⟨first', second'⟩ := from_ pair member
  exact ⟨Nat.lt_of_le_of_ne first' first.symm, Nat.lt_of_le_of_ne second' second.symm⟩

/-- A pair that has a place alone, put to pairs that have each of theirs alone. -/
theorem once_insert {place : ℕ × ℕ → ℕ} {new : ℕ × ℕ}
    (once : ∀ pair ∈ pairs, ∀ pair' ∈ pairs, place pair = place pair' → pair = pair')
    (free : ∀ pair ∈ pairs, place pair ≠ place new) :
    ∀ pair ∈ insert new pairs, ∀ pair' ∈ insert new pairs, place pair = place pair' → pair = pair' := by
  intro pair member pair' member' same
  rcases Finset.mem_insert.mp member with rfl | old <;> rcases Finset.mem_insert.mp member' with rfl | old'
  · rfl
  · exact absurd same.symm (free pair' old')
  · exact absurd same (free pair old)
  · exact once pair old pair' old' same

/-- Two partners that are put together stay clear of the other pairs. -/
theorem Assignment.insert_others {k l : ℕ} (assignment : Assignment windows points pairs) (window_ : (i, l) ∈ pairs)
    (point_ : (k, j) ∈ pairs) (fits : ∃ window point, windows[k]? = some window ∧ points[l]? = some point ∧
      window.opens < point ∧ point ≤ window.closes) : Assignment windows points (insert (k, l) (others i j pairs)) := by
  have rest : Assignment windows points (others i j pairs) := assignment.subset (Finset.filter_subset _ _)
  refine ⟨?_, once_insert rest.window_once fun pair member same => ?_,
    once_insert rest.point_once fun pair member same => ?_⟩
  · intro pair member
    rcases Finset.mem_insert.mp member with rfl | member
    · exact fits
    · exact rest.inside pair member
  · obtain ⟨member, _, away⟩ := mem_others.mp member
    rw [assignment.window_once pair member (k, j) point_ same] at away
    exact away rfl
  · obtain ⟨member, away, _⟩ := mem_others.mp member
    rw [assignment.point_once pair member (i, l) window_ same] at away
    exact away rfl

/-- Two pairs have the window and the point, and no other one does. -/
theorem Assignment.card_le_others {k l : ℕ} (assignment : Assignment windows points pairs)
    (window_ : (i, l) ∈ pairs) (point_ : (k, j) ∈ pairs) : pairs.card ≤ (others i j pairs).card + 2 := by
  have covered : pairs ⊆ insert (i, l) (insert (k, j) (others i j pairs)) := by
    intro pair member
    by_cases here : pair.1 = i
    · rw [assignment.window_once pair member (i, l) window_ here]
      exact Finset.mem_insert_self _ _
    · by_cases there : pair.2 = j
      · rw [assignment.point_once pair member (k, j) point_ there]
        exact Finset.mem_insert_of_mem (Finset.mem_insert_self _ _)
      · exact Finset.mem_insert_of_mem (Finset.mem_insert_of_mem (mem_others.mpr ⟨member, here, there⟩))
  exact le_trans (Finset.card_le_card covered)
    (le_trans (Finset.card_insert_le _ _) (Nat.succ_le_succ (Finset.card_insert_le _ _)))

/-- Where the window and the point do not both have other partners, one pair at most has either. -/
theorem Assignment.card_le_others_of_not_both (assignment : Assignment windows points pairs)
    (both : ¬ ∃ k l, k ≠ i ∧ (i, l) ∈ pairs ∧ (k, j) ∈ pairs) : pairs.card ≤ (others i j pairs).card + 1 := by
  have apart : ∀ pair ∈ pairs, ∀ pair' ∈ pairs, pair.1 = i → pair'.2 = j → pair = pair' := by
    intro pair member pair' member' here there
    by_cases same : pair'.1 = i
    · exact assignment.window_once pair member pair' member' (here.trans same.symm)
    · refine absurd ⟨pair'.1, pair.2, same, ?_, ?_⟩ both
      · rwa [← here]
      · rwa [← there]
  have one : (pairs.filter fun pair => ¬ (pair.1 ≠ i ∧ pair.2 ≠ j)).card ≤ 1 := by
    refine Finset.card_le_one.mpr fun pair member pair' member' => ?_
    obtain ⟨member, touches⟩ := Finset.mem_filter.mp member
    obtain ⟨member', touches'⟩ := Finset.mem_filter.mp member'
    rw [not_and_or, not_not, not_not] at touches touches'
    rcases touches with here | there <;> rcases touches' with here' | there'
    · exact assignment.window_once pair member pair' member' (here.trans here'.symm)
    · exact apart pair member pair' member' here there'
    · exact (apart pair' member' pair member here' there).symm
    · exact assignment.point_once pair member pair' member' (there.trans there'.symm)
  have split := Finset.card_filter_add_card_filter_not (s := pairs) fun pair => pair.1 ≠ i ∧ pair.2 ≠ j
  unfold others
  omega

/-- A window that takes the next point: the others lose one place at most. -/
theorem Assignment.take (ordered : Ordered windows points) (assignment : Assignment windows points pairs)
    (from_ : From i j pairs) : ∃ rest, Assignment windows points rest ∧ From (i + 1) (j + 1) rest ∧
      pairs.card ≤ rest.card + 1 := by
  by_cases both : ∃ k l, k ≠ i ∧ (i, l) ∈ pairs ∧ (k, j) ∈ pairs
  case pos =>
    obtain ⟨k, l, different, window_, point_⟩ := both
    have clear : (k, l) ∉ others i j pairs := by
      intro member
      have same := assignment.window_once _ (mem_others.mp member).1 _ point_ rfl
      exact (mem_others.mp member).2.2 (congrArg Prod.snd same)
    have different' : l ≠ j := by
      rintro rfl
      exact different (congrArg Prod.fst (assignment.point_once _ point_ _ window_ rfl))
    obtain ⟨first, second⟩ : i ≤ k ∧ j ≤ l := ⟨(from_ _ point_).1, (from_ _ window_).2⟩
    refine ⟨insert (k, l) (others i j pairs), assignment.insert_others window_ point_
      (assignment.exchange ordered from_ window_ point_), ?_, ?_⟩
    · intro pair member
      rcases Finset.mem_insert.mp member with rfl | member
      · exact ⟨Nat.lt_of_le_of_ne first different.symm, Nat.lt_of_le_of_ne second different'.symm⟩
      · exact from_.others pair member
    · rw [Finset.card_insert_of_notMem clear]
      exact assignment.card_le_others window_ point_
  case neg =>
    exact ⟨others i j pairs, assignment.subset (Finset.filter_subset _ _), from_.others,
      assignment.card_le_others_of_not_both both⟩

/-- Behind the last window, or the last point, there is no pair. -/
theorem Assignment.empty (assignment : Assignment windows points pairs) (from_ : From i j pairs)
    (past : windows.length ≤ i ∨ points.length ≤ j) : pairs = ∅ := by
  refine Finset.eq_empty_of_forall_notMem fun pair member => ?_
  obtain ⟨first, second⟩ := from_ pair member
  obtain ⟨_, _, window_, point_, _⟩ := assignment.inside pair member
  obtain ⟨inside, _⟩ := List.getElem?_eq_some_iff.mp window_
  obtain ⟨inside', _⟩ := List.getElem?_eq_some_iff.mp point_
  omega

end

end Windows
