import Mathlib.Data.List.Basic
import Mathlib.Data.List.Infix
import Mathlib.Logic.Function.Basic

/-! Code over arrays that keeps a log of its accesses.

An array is the memory behind its first element, without an end. Code runs to its
end whatever it touches; whether an access was inside its array is a question to
the log.
-/

set_option autoImplicit false

namespace ArrayCode

abbrev Memory (ι β : Type) := ι → Nat → β

inductive Kind where
  | load
  | store
  deriving DecidableEq, Repr

structure Access (ι : Type) where
  kind : Kind
  array : ι
  index : Nat
  deriving DecidableEq, Repr

/-- A run to the end: its accesses in order, the value it returns and the arrays it leaves. -/
structure Ran (ι β α : Type) where
  log : List (Access ι)
  value : α
  memory : Memory ι β

def Code (ι β α : Type) := Memory ι β → Ran ι β α

variable {ι β α γ : Type}

instance : Monad (Code ι β) where
  pure a := fun memory => ⟨[], a, memory⟩
  bind code next := fun memory =>
    let first := code memory
    let second := next first.value first.memory
    ⟨first.log ++ second.log, second.value, second.memory⟩

def load (array : ι) (index : Nat) : Code ι β β :=
  fun memory => ⟨[⟨.load, array, index⟩], memory array index, memory⟩

section
variable [DecidableEq ι]

def Memory.store (memory : Memory ι β) (array : ι) (index : Nat) (element : β) : Memory ι β :=
  Function.update memory array (Function.update (memory array) index element)

def store (array : ι) (index : Nat) (element : β) : Code ι β Unit := fun memory =>
  ⟨[⟨.store, array, index⟩], (), memory.store array index element⟩

/-- `count` rounds of `target[to++] = source[from++]` -/
def copy (source : ι) (start : Nat) (target : ι) (place : Nat) : Nat → Code ι β Unit
  | 0 => pure ()
  | count + 1 => do
    store target place (← load source start)
    copy source (start + 1) target (place + 1) count

def Memory.storeAll (memory : Memory ι β) (target : ι) (place : Nat) : List β → Memory ι β
  | [] => memory
  | element :: rest => Memory.storeAll (memory.store target place element) target (place + 1) rest

/-- The elements go to consecutive places. -/
def storeAll (target : ι) (place : Nat) : List β → Code ι β Unit
  | [] => pure ()
  | element :: rest => do
    store target place element
    storeAll target (place + 1) rest

end

/-! ### Runs -/

@[simp] theorem run_pure (a : α) (memory : Memory ι β) : (pure a : Code ι β α) memory = ⟨[], a, memory⟩ := rfl

theorem run_bind (code : Code ι β α) (next : α → Code ι β γ) (memory : Memory ι β) :
    (code >>= next) memory = ⟨(code memory).log ++ (next (code memory).value (code memory).memory).log,
      (next (code memory).value (code memory).memory).value,
        (next (code memory).value (code memory).memory).memory⟩ := rfl

@[simp] theorem bind_value (code : Code ι β α) (next : α → Code ι β γ) (memory : Memory ι β) :
    ((code >>= next) memory).value = (next (code memory).value (code memory).memory).value := rfl

@[simp] theorem bind_memory (code : Code ι β α) (next : α → Code ι β γ) (memory : Memory ι β) :
    ((code >>= next) memory).memory = (next (code memory).value (code memory).memory).memory := rfl

@[simp] theorem bind_log (code : Code ι β α) (next : α → Code ι β γ) (memory : Memory ι β) :
    ((code >>= next) memory).log = (code memory).log ++ (next (code memory).value (code memory).memory).log := rfl

@[simp] theorem run_load (array : ι) (index : Nat) (memory : Memory ι β) :
    load array index memory = ⟨[⟨.load, array, index⟩], memory array index, memory⟩ := rfl

section
variable [DecidableEq ι]

@[simp] theorem run_store (array : ι) (index : Nat) (element : β) (memory : Memory ι β) :
    store array index element memory = ⟨[⟨.store, array, index⟩], (), memory.store array index element⟩ := rfl

@[simp] theorem Memory.store_same (memory : Memory ι β) (array : ι) (index : Nat) (element : β) :
    memory.store array index element array = Function.update (memory array) index element := Function.update_self ..

theorem Memory.store_of_ne (memory : Memory ι β) {array other : ι} (index : Nat) (element : β)
    (ne : other ≠ array) :
    memory.store array index element other = memory other := Function.update_of_ne ne ..

end

/-! ### Bounds -/

/-- Every access of the run is inside its array. -/
def Safe (size : ι → Nat) (code : Code ι β α) (memory : Memory ι β) : Prop :=
  ∀ access ∈ (code memory).log, access.index < size access.array

/-- The run is safe and what it returns and leaves meets the postcondition. -/
def Ensures (size : ι → Nat) (code : Code ι β α) (memory : Memory ι β) (post : α → Memory ι β → Prop) : Prop :=
  Safe size code memory ∧ post (code memory).value (code memory).memory

variable {size : ι → Nat} {memory : Memory ι β} {post : α → Memory ι β → Prop}

theorem ensures_pure {a : α} (holds : post a memory) : Ensures size (pure a) memory post :=
  ⟨fun _ member => absurd member List.not_mem_nil, holds⟩

theorem Ensures.bind {code : Code ι β α} {next : α → Code ι β γ} {post' : γ → Memory ι β → Prop}
    (first : Ensures size code memory post) (second : ∀ a memory', post a memory' →
      Ensures size (next a) memory' post') :
    Ensures size (code >>= next) memory post' := by
  obtain ⟨safe, holds⟩ := second _ _ first.2
  exact ⟨List.forall_mem_append.mpr ⟨first.1, safe⟩, holds⟩

theorem Ensures.mono {code : Code ι β α} {weaker : α → Memory ι β → Prop} (ensures : Ensures size code memory post)
    (imp : ∀ a memory', post a memory' → weaker a memory') : Ensures size code memory weaker :=
  ⟨ensures.1, imp _ _ ensures.2⟩

theorem ensures_pure_bind {a : γ} {next : γ → Code ι β α} (rest : Ensures size (next a) memory post) :
    Ensures size (pure a >>= next) memory post := rest

/-- A load in front of other code. -/
theorem ensures_load_bind {array : ι} {index : Nat} {next : β → Code ι β α} (inside : index < size array)
    (rest : Ensures size (next (memory array index)) memory post) :
    Ensures size (load array index >>= next) memory post :=
  ⟨List.forall_mem_append.mpr ⟨List.forall_mem_singleton.mpr inside, rest.1⟩, rest.2⟩

section
variable [DecidableEq ι]

theorem ensures_store_bind {array : ι} {index : Nat} {element : β} {next : Unit → Code ι β α}
    (inside : index < size array) (rest : Ensures size (next ()) (memory.store array index element) post) :
    Ensures size (store array index element >>= next) memory post :=
  ⟨List.forall_mem_append.mpr ⟨List.forall_mem_singleton.mpr inside, rest.1⟩, rest.2⟩

/-- A copy from one array to another: the target's window is the source's. -/
structure Copied (before : Memory ι β) (source : ι) (start : Nat) (target : ι) (place count : Nat)
    (after : Memory ι β) :
    Prop where
  window : ∀ i < count, after target (place + i) = before source (start + i)
  outside : ∀ i, i < place ∨ place + count ≤ i → after target i = before target i
  others : ∀ other, other ≠ target → after other = before other

theorem ensures_copy {source target : ι} {start place count : Nat} (memory : Memory ι β) (ne : source ≠ target)
    (readable : start + count ≤ size source) (writable : place + count ≤ size target) :
    Ensures size (copy source start target place count) memory fun _ memory' =>
      Copied memory source start target place count memory' := by
  induction count generalizing memory start place with
  | zero => exact ensures_pure ⟨fun _ none_ => absurd none_ (Nat.not_lt_zero _), fun _ _ => rfl, fun _ _ => rfl⟩
  | succ count ih =>
    unfold copy
    refine ensures_load_bind (by omega) (ensures_store_bind (by omega) ?_)
    refine (ih (memory.store target place (memory source start)) (by omega) (by omega)).mono fun _ memory' copied => ?_
    refine ⟨fun i inside => ?_, fun i out => ?_, fun other other_ => ?_⟩
    · cases i with
      | zero =>
        rw [Nat.add_zero, Nat.add_zero, copied.outside place (.inl (Nat.lt_succ_self _)), Memory.store_same,
          Function.update_self]
      | succ i =>
        have window := copied.window i (by omega)
        rw [Memory.store_of_ne _ _ _ ne] at window
        rw [← Nat.add_assoc, Nat.add_right_comm, window, Nat.add_right_comm, Nat.add_assoc]
    · rw [copied.outside i (by omega), Memory.store_same, Function.update_of_ne (by omega)]
    · rw [copied.others other other_, Memory.store_of_ne _ _ _ other_]

theorem ensures_storeAll {target : ι} {place : Nat} {elements : List β} (memory : Memory ι β)
    (writable : place + elements.length ≤ size target) : Ensures size (storeAll target place elements) memory
      fun _ memory' => memory' = memory.storeAll target place elements := by
  induction elements generalizing memory place with
  | nil => exact ensures_pure rfl
  | cons element rest ih =>
    rw [List.length_cons] at writable
    unfold storeAll
    exact ensures_store_bind (by omega) (ih _ (by omega))

/-- A store of several elements in front of other code. -/
theorem ensures_storeAll_bind {target : ι} {place : Nat} {elements : List β} {next : Unit → Code ι β α}
    (writable : place + elements.length ≤ size target)
    (rest : Ensures size (next ()) (memory.storeAll target place elements) post) :
    Ensures size (storeAll target place elements >>= next) memory post := by
  refine (ensures_storeAll memory writable).bind ?_
  rintro _ _ rfl
  exact rest

theorem Memory.storeAll_of_ne (memory : Memory ι β) {target other : ι} (place : Nat) (elements : List β)
    (ne : other ≠ target) :
    memory.storeAll target place elements other = memory other := by
  induction elements generalizing memory place with
  | nil => rfl
  | cons element rest ih =>
    unfold storeAll
    rw [ih, Memory.store_of_ne _ _ _ ne]

/-- Places in front of the elements keep what they hold. -/
theorem Memory.storeAll_below (memory : Memory ι β) (target : ι) {place i : Nat} (elements : List β)
    (below : i < place) :
    memory.storeAll target place elements target i = memory target i := by
  induction elements generalizing memory place with
  | nil => rfl
  | cons element rest ih =>
    unfold storeAll
    rw [ih _ (Nat.lt_succ_of_lt below), Memory.store_same, Function.update_of_ne (Nat.ne_of_lt below)]

theorem Memory.storeAll_window (memory : Memory ι β) (target : ι) (place : Nat) (elements : List β) {i : Nat}
    (inside : i < elements.length) : memory.storeAll target place elements target (place + i) = elements[i] := by
  induction elements generalizing memory place i with
  | nil => exact absurd inside (Nat.not_lt_zero i)
  | cons element rest ih =>
    unfold storeAll
    cases i with
    | zero =>
      have first := (memory.store target place element).storeAll_below target rest (Nat.lt_succ_self place)
      rw [Memory.store_same, Function.update_self] at first
      exact first
    | succ i =>
      have later := ih (memory.store target place element) (place + 1) (Nat.lt_of_succ_lt_succ inside)
      rw [Nat.add_assoc, Nat.add_comm 1 i] at later
      rw [later, List.getElem_cons_succ]

end

/-! ### Work in place -/

/-- The indices of the accesses of one kind, in order. -/
def indices (kind : Kind) (log : List (Access ι)) : List Nat := (log.filter (·.kind == kind)).map (·.index)

@[simp] theorem indices_nil (kind : Kind) : indices kind ([] : List (Access ι)) = [] := rfl

/-- A log that reads one array from `readIndex` and writes it from `writeIndex` on, each
element once and in order, and overwrites only what it has read. -/
inductive Streams (array : ι) : Nat → Nat → List (Access ι) → Nat → Nat → Prop where
  | nil {readIndex writeIndex : Nat} : Streams array readIndex writeIndex [] readIndex writeIndex
  | load {readIndex writeIndex readIndex' writeIndex' : Nat} {log : List (Access ι)} :
      Streams array (readIndex + 1) writeIndex log readIndex' writeIndex' →
      Streams array readIndex writeIndex (⟨.load, array, readIndex⟩ :: log) readIndex' writeIndex'
  | store {readIndex writeIndex readIndex' writeIndex' : Nat} {log : List (Access ι)} : writeIndex < readIndex →
      Streams array readIndex (writeIndex + 1) log readIndex' writeIndex' →
      Streams array readIndex writeIndex (⟨.store, array, writeIndex⟩ :: log) readIndex' writeIndex'

variable {array : ι} {r w r' w' : Nat} {log : List (Access ι)}

theorem Streams.append {r'' w'' : Nat} {log' : List (Access ι)} (first : Streams array r w log r' w')
    (second : Streams array r' w' log' r'' w'') : Streams array r w (log ++ log') r'' w'' := by
  induction first with
  | nil => exact second
  | load _ ih => exact .load (ih second)
  | store behind _ ih => exact .store behind (ih second)

theorem Streams.le (streams : Streams array r w log r' w') : r ≤ r' ∧ w ≤ w' := by
  induction streams with
  | nil => exact ⟨Nat.le_refl _, Nat.le_refl _⟩
  | load _ ih => exact ⟨Nat.le_of_succ_le ih.1, ih.2⟩
  | store _ _ ih => exact ⟨ih.1, Nat.le_of_succ_le ih.2⟩

/-- Nothing past the last element read is touched. -/
theorem Streams.within (streams : Streams array r w log r' w') : ∀ access ∈ log, access.array = array ∧
    access.index < r' := by
  induction streams with
  | nil => exact fun _ member => absurd member List.not_mem_nil
  | load rest ih => exact List.forall_mem_cons.mpr ⟨⟨rfl, rest.le.1⟩, ih⟩
  | store behind rest ih => exact List.forall_mem_cons.mpr ⟨⟨rfl, Nat.lt_of_lt_of_le behind rest.le.1⟩, ih⟩

/-- Each part of a log up to some access is such a log too. -/
theorem Streams.prefix_ {before : List (Access ι)} (streams : Streams array r w log r' w') (part : before <+: log) :
    ∃ r'' w'', Streams array r w before r'' w'' := by
  induction streams generalizing before with
  | nil =>
    rw [List.prefix_nil.mp part]
    exact ⟨_, _, .nil⟩
  | load rest ih =>
    rcases List.prefix_cons_iff.mp part with rfl | ⟨before, rfl, part'⟩
    · exact ⟨_, _, .nil⟩
    · obtain ⟨r'', w'', streams⟩ := ih part'
      exact ⟨r'', w'', .load streams⟩
  | store behind rest ih =>
    rcases List.prefix_cons_iff.mp part with rfl | ⟨before, rfl, part'⟩
    · exact ⟨_, _, .nil⟩
    · obtain ⟨r'', w'', streams⟩ := ih part'
      exact ⟨r'', w'', .store behind streams⟩

/-- The elements that it reads and writes. -/
theorem Streams.indices_eq (streams : Streams array r w log r' w') : indices .load log = List.range' r (r' - r) ∧
    indices .store log = List.range' w (w' - w) := by
  induction streams with
  | nil => simp
  | @load r w r' w' log rest ih =>
    have more := rest.le.1
    refine ⟨?_, ih.2⟩
    rw [show r' - r = r' - (r + 1) + 1 by omega, List.range'_succ, ← ih.1]
    rfl
  | @store r w r' w' log behind rest ih =>
    have more := rest.le.2
    refine ⟨ih.1, ?_⟩
    rw [show w' - w = w' - (w + 1) + 1 by omega, List.range'_succ, ← ih.2]
    rfl

theorem Streams.behind (streams : Streams array r w log r' w') (start : w ≤ r) : w' ≤ r' := by
  induction streams with
  | nil => exact start
  | load _ ih => exact ih (Nat.le_succ_of_le start)
  | store behind _ ih => exact ih behind

/-- A log of work in place on the first `length` elements: at each point of it the elements
read and those written are the first ones of the array, and none is written that has
not been read. -/
structure InPlace (array : ι) (length : Nat) (log : List (Access ι)) : Prop where
  within : ∀ access ∈ log, access.array = array ∧ access.index < length
  ordered : ∀ before, before <+: log → ∃ readIndex writeIndex, writeIndex ≤ readIndex ∧
    indices .load before = List.range readIndex ∧ indices .store before = List.range writeIndex

theorem Streams.inPlace {length : Nat} (streams : Streams array 0 0 log r' w') (bound : r' ≤ length) :
    InPlace array length log := by
  constructor
  · intro access member
    obtain ⟨same, below⟩ := streams.within access member
    exact ⟨same, Nat.lt_of_lt_of_le below bound⟩
  · intro before part
    obtain ⟨r'', w'', streams'⟩ := streams.prefix_ part
    obtain ⟨reads, writes⟩ := streams'.indices_eq
    rw [Nat.sub_zero, ← List.range_eq_range'] at reads writes
    exact ⟨r'', w'', streams'.behind (Nat.le_refl 0), reads, writes⟩

end ArrayCode
