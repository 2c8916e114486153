import Mathlib.Data.List.AList
import Mathlib.Algebra.BigOperators.Group.List.Basic
import Mathlib.Algebra.Order.Ring.Nat

/-! Queues under keys, where an empty queue is not kept; and two streams whose entries are paired off. -/

set_option autoImplicit false

namespace KeyedQueues

/-! ### Queues -/

section
variable {κ ε : Type} [DecidableEq κ]

abbrev Queues (κ ε : Type) := AList fun _ : κ => List ε

def queue (queues : Queues κ ε) (key : κ) : List ε := (queues.lookup key).getD []

/-- The queue of a key becomes `entries`. -/
def put (queues : Queues κ ε) (key : κ) (entries : List ε) : Queues κ ε :=
  if entries.isEmpty then queues.erase key else queues.insert key entries

/-- The entries of all queues together. -/
def size (queues : Queues κ ε) : Nat := (queues.entries.map fun entry => entry.2.length).sum

variable (queues : Queues κ ε) (key : κ) (entries : List ε)

@[simp] theorem queue_put : queue (put queues key entries) key = entries := by
  unfold queue put
  cases entries with
  | nil => rw [List.isEmpty_nil, if_pos rfl, AList.lookup_erase, Option.getD_none]
  | cons entry entries => rw [List.isEmpty_cons, if_neg Bool.false_ne_true, AList.lookup_insert, Option.getD_some]

@[simp] theorem queue_put_ne {other : κ} (different : other ≠ key) :
    queue (put queues key entries) other = queue queues other := by
  unfold queue put
  split
  · rw [AList.lookup_erase_ne different]
  · rw [AList.lookup_insert_ne different]

/-- A queue and the other ones. -/
theorem size_eq : size queues = (queue queues key).length + size (queues.erase key) := by
  unfold size queue
  by_cases listed : key ∈ queues
  · obtain ⟨kept, front, back, fresh, split, rest⟩ := List.exists_of_kerase listed
    have found : queues.lookup key = some kept := by
      apply AList.mem_lookup_iff.mpr
      rw [split]
      exact List.mem_append_right _ List.mem_cons_self
    have erased : (queues.erase key).entries = front ++ back := rest
    rw [found, erased, split]
    simp only [List.map_append, List.map_cons, List.sum_append, List.sum_cons, Option.getD_some]
    omega
  · have erased : (queues.erase key).entries = queues.entries := List.kerase_of_notMem_keys listed
    rw [AList.lookup_eq_none.mpr listed, erased, Option.getD_none, List.length_nil, Nat.zero_add]

theorem size_put : size (put queues key entries) + (queue queues key).length = size queues + entries.length := by
  rw [size_eq queues key, put]
  cases entries with
  | nil =>
    rw [List.isEmpty_nil, if_pos rfl]
    exact Nat.add_comm _ _
  | cons entry entries =>
    have whole : size (queues.insert key (entry :: entries)) =
        (entry :: entries).length + size (queues.erase key) := by
      unfold size
      rw [AList.entries_insert, List.map_cons, List.sum_cons]
      rfl
    rw [List.isEmpty_cons, if_neg Bool.false_ne_true, whole]
    omega

theorem size_push (entry : ε) : size (put queues key (queue queues key ++ [entry])) = size queues + 1 := by
  have whole := size_put queues key (queue queues key ++ [entry])
  rw [List.length_append, List.length_singleton] at whole
  omega

theorem size_pop {key : κ} {entry : ε} {rest : List ε} (first : queue queues key = entry :: rest) :
    size (put queues key rest) + 1 = size queues := by
  have whole := size_put queues key rest
  rw [first, List.length_cons] at whole
  omega

/-- One of two queues changes, and still one of them is empty. -/
theorem apart_put {ε' : Type} {queues : Queues κ ε} {others : Queues κ ε'} {key : κ} {entries : List ε}
    (apart : ∀ other, queue queues other = [] ∨ queue others other = [])
    (here : entries = [] ∨ queue others key = []) (other : κ) :
    queue (put queues key entries) other = [] ∨ queue others other = [] := by
  by_cases same : other = key
  · subst same
    rwa [queue_put]
  · rw [queue_put_ne _ _ _ same]
    exact apart other

end

/-! ### Streams -/

/-- Two streams whose entries are paired off from the front; one of them has entries waiting at most. -/
structure PairedOff {α β : Type} (xs : List α) (ys : List β) (pairs : List (α × β)) (left : List α)
    (right : List β) : Prop where
  firsts : pairs.map Prod.fst ++ left = xs
  seconds : pairs.map Prod.snd ++ right = ys
  apart : left = [] ∨ right = []

section
variable {α β : Type} {xs left : List α} {ys right : List β} {pairs : List (α × β)} {x : α} {y : β}

theorem PairedOff.start (apart : xs = [] ∨ ys = []) : PairedOff xs ys [] xs ys := ⟨rfl, rfl, apart⟩

/-- The k-th entries make a pair. -/
theorem PairedOff.pairs_eq (paired : PairedOff xs ys pairs left right) : pairs = xs.zip ys := by
  have rest : left.zip right = [] := by
    rcases paired.apart with rfl | rfl
    · exact List.zip_nil_left
    · exact List.zip_nil_right
  rw [← paired.firsts, ← paired.seconds, List.zip_append (by rw [List.length_map, List.length_map]), rest,
    List.append_nil, List.zip_map']
  exact (List.map_id pairs).symm

theorem PairedOff.swap (paired : PairedOff xs ys pairs left right) :
    PairedOff ys xs (pairs.map Prod.swap) right left where
  firsts := by rw [List.map_map]; exact paired.seconds
  seconds := by rw [List.map_map]; exact paired.firsts
  apart := paired.apart.symm

/-- An entry that nothing waits for. -/
theorem PairedOff.waits (paired : PairedOff xs ys pairs left []) :
    PairedOff (xs ++ [x]) ys pairs (left ++ [x]) [] where
  firsts := by rw [← paired.firsts, List.append_assoc]
  seconds := paired.seconds
  apart := .inr rfl

/-- An entry that takes the first one of those that wait. -/
theorem PairedOff.meets (paired : PairedOff xs ys pairs left (y :: right)) :
    PairedOff (xs ++ [x]) ys (pairs ++ [(x, y)]) left right := by
  obtain rfl : left = [] := paired.apart.resolve_right (List.cons_ne_nil _ _)
  refine ⟨?_, ?_, .inl rfl⟩
  · rw [← paired.firsts, List.map_append, List.append_nil, List.append_nil]
    rfl
  · rw [← paired.seconds, List.map_append, List.append_assoc]
    rfl

theorem PairedOff.waits_right (paired : PairedOff xs ys pairs [] right) :
    PairedOff xs (ys ++ [y]) pairs [] (right ++ [y]) where
  firsts := paired.firsts
  seconds := by rw [← paired.seconds, List.append_assoc]
  apart := .inl rfl

theorem PairedOff.meets_right (paired : PairedOff xs ys pairs (x :: left) right) :
    PairedOff xs (ys ++ [y]) (pairs ++ [(x, y)]) left right := by
  have swapped := (paired.swap.meets (x := y)).swap
  rwa [List.map_append, List.map_map, Prod.swap_swap_eq, List.map_id] at swapped

end

end KeyedQueues
