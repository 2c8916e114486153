import Cc1310Firmware.Journal.SerialNumber
import Mathlib.Data.Option.Basic

/-! An append-only log over two pages that are erased one at a time.

A page is a row of cells. A cell is blank, holds an entry, or holds junk that a
reader can tell from an entry. Entries carry circular serial numbers; a reader
scans each page up to its first blank cell and takes the newest entry it saw.

`Tracks` is the invariant that makes this a register: one entry is the newest,
no blank cell hides it, and every other entry of either page, visible or not,
lies behind it in one window of half the serial circle. Torn writes and half
finished erases may leave junk, holes and stale entries anywhere else.
-/

set_option autoImplicit false

namespace TwoPageLog
open SerialNumber

inductive Side where
  | first
  | second
  deriving DecidableEq, Repr

def Side.other : Side → Side
  | .first => .second
  | .second => .first

inductive Cell (α : Type) where
  | blank
  | junk
  | entry : α → Cell α
  deriving DecidableEq, Repr

abbrev Log (α : Type) := Side → Nat → Cell α

variable {α : Type} {w : Nat} (serial : α → BitVec (w + 1)) (capacity : Nat)

/-- Whether a scanned entry replaces the best one so far; of equal serial
numbers the later cell wins. -/
def replaces (a : α) : Option (Nat × α) → Bool
  | none => true
  | some (_, b) => newer (serial a) (serial b) || serial a == serial b

/-- Scan `remaining` cells from `index`, stopping at a blank one. -/
def newestFrom (page : Nat → Cell α) : Nat → Nat → Option (Nat × α) → Option (Nat × α)
  | 0, _, best => best
  | remaining + 1, index, best => match page index with
    | .blank => best
    | .junk => newestFrom page remaining (index + 1) best
    | .entry a => newestFrom page remaining (index + 1) (if replaces serial a best then some (index, a) else best)

def newestIn (page : Nat → Cell α) : Option (Nat × α) := newestFrom serial page capacity 0 none

/-- The newest entry of the log with its place; the first page wins a tie. -/
def newest (log : Log α) : Option ((Side × Nat) × α) :=
  match newestIn serial capacity (log .first), newestIn serial capacity (log .second) with
  | none, none => none
  | none, some (j, b) => some ((.second, j), b)
  | some (i, a), none => some ((.first, i), a)
  | some (i, a), some (j, b) =>
    if newer (serial b) (serial a) then some ((.second, j), b) else some ((.first, i), a)

/-- The log holds `current` as its newest entry, `n` serial numbers from `base`. -/
structure Tracks (log : Log α) (base : BitVec (w + 1)) (n : Nat) (current : Option ((Side × Nat) × α)) :
    Prop where
  window : n < 2 ^ w
  behind : ∀ side i a, i < capacity → log side i = .entry a →
    ∃ place b, current = some (place, b) ∧ (place = (side, i) ∨ rank base (serial a) < n)
  visible : ∀ side i a, current = some ((side, i), a) → i < capacity ∧ log side i = .entry a ∧
    rank base (serial a) = n ∧ ∀ j < i, log side j ≠ .blank

variable {serial capacity}

/-! ## Reading back the tracked entry -/

/-- All entries of a page lie before the `n`-th serial number. -/
def Below (serial : α → BitVec (w + 1)) (capacity : Nat) (base : BitVec (w + 1)) (n : Nat)
    (page : Nat → Cell α) (except : Nat → Prop) : Prop :=
  ∀ i a, i < capacity → ¬ except i → page i = .entry a → rank base (serial a) < n

theorem replaces_of_lt {base : BitVec (w + 1)} {n : Nat} {a : α} {best : Option (Nat × α)}
    (window : n < 2 ^ w) (top : rank base (serial a) = n)
    (low : ∀ i b, best = some (i, b) → rank base (serial b) < n) : replaces serial a best = true := by
  cases best with
  | none => rfl
  | some best =>
    have lt := low best.1 best.2 rfl
    simp only [replaces, Bool.or_eq_true]
    exact Or.inl ((newer_iff base (by omega) (by omega)).mpr (by omega))

theorem not_replaces_of_lt {base : BitVec (w + 1)} {n i : Nat} {a b : α} (window : n < 2 ^ w)
    (top : rank base (serial b) = n) (low : rank base (serial a) < n) :
    replaces serial a (some (i, b)) = false := by
  simp only [replaces, Bool.or_eq_false_iff, beq_eq_false_iff_ne, ne_eq]
  constructor
  · rw [Bool.eq_false_iff]
    intro later
    have := (newer_iff base (by omega) (by omega)).mp later
    omega
  · intro same
    rw [same] at low
    omega

/-- A best entry that nothing after it replaces is what the scan returns. -/
theorem newestFrom_keeps {i : Nat} {page : Nat → Cell α} {a : α} (remaining index : Nat)
    (kept : ∀ j b, index ≤ j → j < index + remaining → page j = .entry b →
      replaces serial b (some (i, a)) = false) :
    newestFrom serial page remaining index (some (i, a)) = some (i, a) := by
  induction remaining generalizing index with
  | zero => rfl
  | succ remaining ih =>
    have rest := ih (index + 1) fun j b lo hi => kept j b (by omega) (by omega)
    cases cell : page index with
    | blank => simp [newestFrom, cell]
    | junk => simpa [newestFrom, cell] using rest
    | entry b =>
      have old := kept index b (by omega) (by omega) cell
      simpa [newestFrom, cell, old] using rest

theorem newestFrom_congr {page page' : Nat → Cell α} (remaining index : Nat) (best : Option (Nat × α))
    (same : ∀ j, index ≤ j → j < index + remaining → page' j = page j) :
    newestFrom serial page' remaining index best = newestFrom serial page remaining index best := by
  induction remaining generalizing index best with
  | zero => rfl
  | succ remaining ih =>
    have rest := fun best => ih (index + 1) best fun j lo hi => same j (by omega) (by omega)
    simp only [newestFrom, same index (Nat.le_refl _) (by omega), rest]

/-- The scan of the page that holds the newest entry finds it. -/
theorem newestFrom_finds {base : BitVec (w + 1)} {n i : Nat} {page : Nat → Cell α} {a : α}
    (window : n < 2 ^ w) (top : rank base (serial a) = n) (here : page i = .entry a)
    (remaining index : Nat) (best : Option (Nat × α)) (lo : index ≤ i) (hi : i < index + remaining)
    (open_ : ∀ j, index ≤ j → j < i → page j ≠ .blank)
    (below : ∀ j b, index ≤ j → j < index + remaining → j ≠ i → page j = .entry b →
      rank base (serial b) < n)
    (low : ∀ j b, best = some (j, b) → rank base (serial b) < n) :
    newestFrom serial page remaining index best = some (i, a) := by
  induction remaining generalizing index best with
  | zero => omega
  | succ remaining ih =>
    -- at the entry itself, or still before it
    rcases Nat.eq_or_lt_of_le lo with rfl | lt
    · simp only [newestFrom, here, replaces_of_lt window top low, if_true]
      apply newestFrom_keeps
      intro j b lo' hi' cell
      exact not_replaces_of_lt window top (below j b (by omega) (by omega) (by omega) cell)
    · have rest := fun best low => ih (index + 1) best lt (by omega)
        (fun j lo' hi' => open_ j (by omega) hi')
        (fun j b lo' hi' => below j b (by omega) (by omega)) low
      cases cell : page index with
      | blank => exact absurd cell (open_ index (Nat.le_refl _) lt)
      | junk => simpa [newestFrom, cell] using rest best low
      | entry b =>
        simp only [newestFrom, cell]
        refine rest _ ?_
        intro j c same
        split at same
        · cases same
          exact below index b (Nat.le_refl _) (by omega) (by omega) cell
        · exact low j c same

/-- What a scan returns is an entry of the page, or what it started from. -/
theorem newestFrom_entry {page : Nat → Cell α} (remaining index : Nat) (best : Option (Nat × α))
    {i : Nat} {a : α} (found : newestFrom serial page remaining index best = some (i, a)) :
    best = some (i, a) ∨ (index ≤ i ∧ i < index + remaining ∧ page i = .entry a) := by
  induction remaining generalizing index best with
  | zero => exact Or.inl found
  | succ remaining ih =>
    cases cell : page index with
    | blank => simp only [newestFrom, cell] at found; exact Or.inl found
    | junk =>
      simp only [newestFrom, cell] at found
      rcases ih _ _ found with same | ⟨lo, hi, entry⟩
      · exact Or.inl same
      · exact Or.inr ⟨by omega, by omega, entry⟩
    | entry b =>
      simp only [newestFrom, cell] at found
      rcases ih _ _ found with same | ⟨lo, hi, entry⟩
      · split at same
        · cases same; exact Or.inr ⟨Nat.le_refl _, by omega, cell⟩
        · exact Or.inl same
      · exact Or.inr ⟨by omega, by omega, entry⟩

theorem newestIn_entry {page : Nat → Cell α} {i : Nat} {a : α}
    (found : newestIn serial capacity page = some (i, a)) : i < capacity ∧ page i = .entry a := by
  rcases newestFrom_entry _ _ _ found with none_ | ⟨_, hi, cell⟩
  · cases none_
  · exact ⟨by omega, cell⟩

variable {log log' : Log α} {base : BitVec (w + 1)} {n : Nat} {current : Option ((Side × Nat) × α)}

/-- An entry on the page without the newest one lies before it. -/
theorem Tracks.lower (h : Tracks serial capacity log base n current) {side other : Side} {i j : Nat}
    {a b : α} (place : current = some ((side, i), a)) (ne : other ≠ side) (hj : j < capacity)
    (cell : log other j = .entry b) : rank base (serial b) < n := by
  obtain ⟨p, c, same, at_ | lt⟩ := h.behind other j b hj cell
  · rw [place] at same
    cases same
    exact absurd (congrArg Prod.fst at_).symm ne
  · exact lt

theorem Tracks.newestIn_own (h : Tracks serial capacity log base n current) {side : Side} {i : Nat}
    {a : α} (place : current = some ((side, i), a)) :
    newestIn serial capacity (log side) = some (i, a) := by
  obtain ⟨hi, here, top, open_⟩ := h.visible side i a place
  refine newestFrom_finds h.window top here capacity 0 none (by omega) (by omega)
    (fun j _ hj => open_ j hj) ?_ (by simp)
  intro j b _ hj ne cell
  obtain ⟨p, c, same, at_ | lt⟩ := h.behind side j b (by omega) cell
  · rw [place] at same
    cases same
    exact absurd (congrArg Prod.snd at_).symm ne
  · exact lt

/-- The reader returns the tracked entry. -/
theorem Tracks.newest_eq (h : Tracks serial capacity log base n current) :
    newest serial capacity log = current := by
  have empty : current = none → ∀ side, newestIn serial capacity (log side) = none := by
    intro none_ side
    cases found : newestIn serial capacity (log side) with
    | none => rfl
    | some best =>
      obtain ⟨hi, cell⟩ := newestIn_entry (i := best.1) (a := best.2) found
      obtain ⟨p, c, same, _⟩ := h.behind side _ _ hi cell
      rw [none_] at same; cases same
  -- the page of the newest entry names it; the other page has something older, or nothing
  rcases current with _ | ⟨⟨side, i⟩, a⟩
  · simp [newest, empty rfl]
  · have own := h.newestIn_own rfl
    obtain ⟨_, _, top, _⟩ := h.visible side i a rfl
    cases side with
    | first =>
      cases other : newestIn serial capacity (log .second) with
      | none => simp [newest, own, other]
      | some best =>
        obtain ⟨hj, cell⟩ := newestIn_entry (i := best.1) (a := best.2) other
        have lt := h.lower rfl (by decide) hj cell
        have older : newer (serial best.2) (serial a) = false := by
          rw [Bool.eq_false_iff]
          intro later
          have := (newer_iff base (by have := h.window; omega) (by have := h.window; omega)).mp later
          omega
        simp [newest, own, other, older]
    | second =>
      cases other : newestIn serial capacity (log .first) with
      | none => simp [newest, own, other]
      | some best =>
        obtain ⟨hj, cell⟩ := newestIn_entry (i := best.1) (a := best.2) other
        have lt := h.lower rfl (by decide) hj cell
        have later : newer (serial a) (serial best.2) = true :=
          (newer_iff base (by have := h.window; omega) (by have := h.window; omega)).mpr (by omega)
        simp [newest, own, other, later]

/-! ## What the operations on a log preserve -/

/-- No cell gains an entry, and the page prefix up to the newest entry stays:
torn writes, and complete or half finished erases of the other page. -/
theorem Tracks.lose (h : Tracks serial capacity log base n current)
    (entries : ∀ side i a, i < capacity → log' side i = .entry a → log side i = .entry a)
    (kept : ∀ side i a, current = some ((side, i), a) → ∀ j ≤ i, log' side j = log side j) :
    Tracks serial capacity log' base n current where
  window := h.window
  behind side i a hi cell := h.behind side i a hi (entries side i a hi cell)
  visible side i a place := by
    obtain ⟨hi, here, top, open_⟩ := h.visible side i a place
    have same := kept side i a place
    refine ⟨hi, by rw [same i (Nat.le_refl _), here], top, ?_⟩
    intro j hj
    rw [same j (by omega)]
    exact open_ j hj

/-- A blank cell is not in the part of a page that ends with the newest entry. -/
theorem Tracks.blank_after (h : Tracks serial capacity log base n current) {side : Side} {i j : Nat}
    {a : α} (place : current = some ((side, i), a)) (blank : log side j = .blank) : i < j := by
  obtain ⟨_, here, _, open_⟩ := h.visible side i a place
  rcases Nat.lt_trichotomy i j with lt | rfl | gt
  · exact lt
  · rw [here] at blank; cases blank
  · exact absurd blank (open_ j gt)

/-- A write into a blank cell that leaves no entry there. -/
theorem Tracks.torn_write (h : Tracks serial capacity log base n current) {side : Side} {i : Nat}
    (blank : log side i = .blank) (others : ∀ s j, j < capacity → (s, j) ≠ (side, i) → log' s j = log s j)
    (torn : ∀ a, log' side i ≠ .entry a) : Tracks serial capacity log' base n current := by
  refine h.lose ?_ ?_
  · intro s j a hj cell
    by_cases at_ : (s, j) = (side, i)
    · cases at_; exact absurd cell (torn a)
    · rwa [← others s j hj at_]
  · intro s k a place j hj
    obtain ⟨hk, _, _, _⟩ := h.visible s k a place
    refine others s j (by omega) ?_
    intro at_
    cases at_
    have := h.blank_after place blank
    omega

/-- A complete or half finished erase of a page without the newest entry. -/
theorem Tracks.erase (h : Tracks serial capacity log base n current) {side : Side}
    (away : ∀ place a, current = some (place, a) → place.1 ≠ side)
    (others : ∀ s j, j < capacity → s ≠ side → log' s j = log s j)
    (entries : ∀ j a, j < capacity → log' side j = .entry a → log side j = .entry a) :
    Tracks serial capacity log' base n current := by
  refine h.lose ?_ ?_
  · intro s j a hj cell
    by_cases at_ : s = side
    · cases at_; exact entries j a hj cell
    · rwa [← others s j hj at_]
  · intro s k a place j hj
    obtain ⟨hk, _, _, _⟩ := h.visible s k a place
    exact others s j (by omega) (away _ _ place)

/-- The serial number the next entry must carry. -/
def follows (serial : α → BitVec (w + 1)) (current : Option ((Side × Nat) × α)) (a : α) : Prop :=
  ∀ place b, current = some (place, b) → serial a = serial b + 1

/-- A complete write of the following entry into the first blank cell of a page. -/
theorem Tracks.write (h : Tracks serial capacity log base n current) {side : Side} {i : Nat} {a : α}
    (hi : i < capacity) (before : ∀ j < i, log side j ≠ .blank)
    (others : ∀ s j, j < capacity → (s, j) ≠ (side, i) → log' s j = log s j)
    (here : log' side i = .entry a) (next : follows serial current a) (room : n + 1 < 2 ^ w) :
    ∃ base' n', n' ≤ n + 1 ∧ Tracks serial capacity log' base' n' (some ((side, i), a)) := by
  have open_ : ∀ j < i, log' side j ≠ .blank := by
    intro j hj
    rw [others side j (by omega) (by intro at_; cases at_; omega)]
    exact before j hj
  rcases current with _ | ⟨place, b⟩
  · -- The first entry: its serial number is the base of the window.
    refine ⟨serial a, 0, by omega, by omega, ?_, ?_⟩
    · intro s j c hj cell
      by_cases at_ : (s, j) = (side, i)
      · exact ⟨(side, i), a, rfl, Or.inl at_.symm⟩
      · rw [others s j hj at_] at cell
        obtain ⟨p, d, same, _⟩ := h.behind s j c hj cell
        cases same
    · intro s j c same
      cases same
      exact ⟨hi, here, rank_base _, open_⟩
  · have top : rank base (serial b) = n := (h.visible place.1 place.2 b rfl).2.2.1
    have top' : rank base (serial a) = n + 1 := by
      rw [next place b rfl, rank_succ (by omega), top]
    refine ⟨base, n + 1, Nat.le_refl _, room, ?_, ?_⟩
    · intro s j c hj cell
      refine ⟨(side, i), a, rfl, ?_⟩
      by_cases at_ : (s, j) = (side, i)
      · exact Or.inl at_.symm
      · rw [others s j hj at_] at cell
        obtain ⟨p, d, same, at' | lt⟩ := h.behind s j c hj cell
        · cases same
          have here' := (h.visible place.1 place.2 b rfl).2.1
          rw [at'] at here'
          have := cell.symm.trans here'
          cases this
          exact Or.inr (by omega)
        · exact Or.inr (by omega)
    · intro s j c same
      cases same
      exact ⟨hi, here, top', open_⟩

end TwoPageLog
