import Cc1310Firmware.Programs.ByteMemory
import Mathlib.Logic.Function.Iterate

/-! RFQueue.c: one buffer split into data entries that point at each other in a ring.

The entry type rfc_dataEntryGeneral_t belongs to the TI driver and is not in the
source. The code relies on its header being eight bytes, with the fields side by
side in it and the data behind it; an `EntryFormat` says where the fields are.
-/

set_option autoImplicit false

namespace Cc1310Firmware.Radio
open LittleEndian ByteMemory

def rfQueueDataEntryHeaderSize : Nat := 8

/-- A full step of four where nothing is missing. -/
def rfQueueQueueAlignPadding (length : Nat) : Nat := 4 - (length + rfQueueDataEntryHeaderSize) % 4

def rfQueueDataEntryBufferSize (numEntries dataSize appendedBytes : Nat) : Nat :=
  numEntries * (rfQueueDataEntryHeaderSize + dataSize + appendedBytes +
    rfQueueQueueAlignPadding (dataSize + appendedBytes))

/-- From one entry to the next. -/
def entrySize (length : Nat) : Nat := rfQueueDataEntryHeaderSize + length + rfQueueQueueAlignPadding length

def entryAt (first length i : Nat) : Nat := first + i * entrySize length

/-- The header of rfc_dataEntryGeneral_t, and the values that the code puts there. -/
structure EntryFormat where
  pNextEntry : Nat
  status : Nat
  config : Nat
  length : Nat
  pNextEntry_in : pNextEntry + 4 ≤ rfQueueDataEntryHeaderSize
  status_in : status + 1 ≤ rfQueueDataEntryHeaderSize
  config_in : config + 1 ≤ rfQueueDataEntryHeaderSize
  length_in : length + 2 ≤ rfQueueDataEntryHeaderSize
  status_pNextEntry : status + 1 ≤ pNextEntry ∨ pNextEntry + 4 ≤ status
  status_config : status ≠ config
  status_length : status + 1 ≤ length ∨ length + 2 ≤ status
  config_pNextEntry : config + 1 ≤ pNextEntry ∨ pNextEntry + 4 ≤ config
  config_length : config + 1 ≤ length ∨ length + 2 ≤ config
  length_pNextEntry : length + 2 ≤ pNextEntry ∨ pNextEntry + 4 ≤ length
  /-- DATA_ENTRY_PENDING and DATA_ENTRY_FINISHED. -/
  pending : Byte
  finished : Byte
  pending_ne_finished : pending ≠ finished
  /-- The config byte once config.type is DATA_ENTRY_TYPE_GEN and config.lenSz is 0. -/
  general : Byte → Byte

/-- The memory, dataQueue and the variable of RFQueue.c. -/
structure RfQueue where
  memory : ByteMemory
  pCurrEntry : BitVec 32
  pLastEntry : BitVec 32
  readEntry : BitVec 32

/-- One round of the loop of RFQueue_defineQueue. -/
def EntryFormat.define (format : EntryFormat) (memory : ByteMemory) (entry : Nat)
    (length : BitVec 16) : ByteMemory :=
  let memory := memory.write (entry + format.status) [format.pending]
  let memory := memory.write (entry + format.config) [format.general (memory (entry + format.config))]
  let memory := memory.write (entry + format.length) (bytesOf length 2)
  memory.write (entry + format.pNextEntry) (bytesOf (BitVec.ofNat 32 (entry + entrySize length.toNat)) 4)

/-- The loop: the entries below `count`. -/
def EntryFormat.defineEntries (format : EntryFormat) (memory : ByteMemory) (first : Nat) (length : BitVec 16) :
    Nat → ByteMemory
  | 0 => memory
  | i + 1 => format.define (format.defineEntries memory first length i) (entryAt first length.toNat i) length

/-- Without entries the last pointer is written to the start of the buffer. -/
def RfQueue.rfQueueDefineQueue (q : RfQueue) (format : EntryFormat) (buf : BitVec 32) (bufLen : BitVec 16)
    (numEntries : Byte) (length : BitVec 16) : Byte × RfQueue :=
  if bufLen.toNat < numEntries.toNat * (length.toNat + rfQueueDataEntryHeaderSize +
      rfQueueQueueAlignPadding length.toNat) then (1, q)
  else
    let memory := format.defineEntries q.memory buf.toNat length numEntries.toNat
    let last := entryAt buf.toNat length.toNat (numEntries.toNat - 1)
    let memory := memory.write (last + format.pNextEntry) (bytesOf buf 4)
    (0, ⟨memory, buf, 0, buf⟩)

def RfQueue.rfQueueGetDataEntry (q : RfQueue) : BitVec 32 := q.readEntry

def RfQueue.rfQueueNextEntry (q : RfQueue) (format : EntryFormat) : Byte × RfQueue :=
  let memory := q.memory.write (q.readEntry.toNat + format.status) [format.pending]
  let readEntry := memory.word (q.readEntry.toNat + format.pNextEntry)
  (memory (readEntry.toNat + format.status), { q with memory := memory, readEntry := readEntry })

/-! ## The header of an entry -/

/-- An entry whose next one is at `next`. -/
structure EntryFormat.Header (format : EntryFormat) (memory : ByteMemory) (entry : Nat) (length : BitVec 16)
    (next : BitVec 32) : Prop where
  length : memory.half (entry + format.length) = length
  pNextEntry : memory.word (entry + format.pNextEntry) = next

section
variable {format : EntryFormat} {memory : ByteMemory} {entry : Nat} {length : BitVec 16} {next : BitVec 32}

/-- A write to the fields of one entry that leaves its length and its pointer. -/
theorem EntryFormat.Header.congr {after : ByteMemory} (header : format.Header memory entry length next)
    (length_ : ∀ a, Inside (entry + format.length) 2 a → after a = memory a)
    (pNextEntry : ∀ a, Inside (entry + format.pNextEntry) 4 a → after a = memory a) :
    format.Header after entry length next :=
  ⟨(half_congr length_).trans header.length, (word_congr pNextEntry).trans header.pNextEntry⟩

theorem EntryFormat.Header.beside {start size : Nat} {after : ByteMemory}
    (header : format.Header memory entry length next) (changed : ChangedIn start size memory after)
    (apart : entry + rfQueueDataEntryHeaderSize ≤ start ∨ start + size ≤ entry) :
    format.Header after entry length next := by
  have inLength := format.length_in
  have inPointer := format.pNextEntry_in
  apply header.congr
  · intro a inside
    exact changed.beside (by omega) inside
  · intro a inside
    exact changed.beside (by omega) inside

/-- A status does not touch the other fields. -/
theorem EntryFormat.Header.setStatus (header : format.Header memory entry length next) (status : Byte) :
    format.Header (memory.write (entry + format.status) [status]) entry length next := by
  have changed : ChangedIn (entry + format.status) 1 memory (memory.write (entry + format.status) [status]) :=
    .write (Nat.le_refl _) (Nat.le_refl _)
  have fromLength := format.status_length
  have fromPointer := format.status_pNextEntry
  apply header.congr
  · intro a inside
    exact changed.beside (by omega) inside
  · intro a inside
    exact changed.beside (by omega) inside

theorem EntryFormat.define_changes : ChangedIn entry rfQueueDataEntryHeaderSize memory
    (format.define memory entry length) := by
  have status := format.status_in
  have config := format.config_in
  have length_ := format.length_in
  have pointer := format.pNextEntry_in
  unfold EntryFormat.define
  refine ((ChangedIn.trans (.write (by omega) ?_) (.write (by omega) ?_)).trans (.write (by omega) ?_)).trans
    (.write (by omega) ?_)
  all_goals
    simp only [List.length_singleton, length_bytesOf]
    omega

theorem EntryFormat.define_status : format.define memory entry length (entry + format.status) = format.pending := by
  have fromPointer := format.status_pNextEntry
  have fromLength := format.status_length
  have fromConfig := format.status_config
  unfold EntryFormat.define
  rw [write_of_outside, write_of_outside, write_singleton, if_neg, write_singleton, if_pos rfl]
  · omega
  · rw [length_bytesOf]
    unfold Inside
    omega
  · rw [length_bytesOf]
    unfold Inside
    omega

theorem EntryFormat.define_header :
    format.Header (format.define memory entry length) entry length
      (.ofNat 32 (entry + entrySize length.toNat)) := by
  have apart := format.length_pNextEntry
  unfold EntryFormat.define
  refine ⟨?_, word_write _⟩
  rw [half_write_beside, half_write]
  rw [length_bytesOf]
  omega

end

/-! ## The places of the entries -/

section
variable {first length i j n : Nat}

theorem entrySize_mod : entrySize length % 4 = 0 := by
  unfold entrySize rfQueueQueueAlignPadding rfQueueDataEntryHeaderSize
  omega

theorem lt_entrySize : rfQueueDataEntryHeaderSize + length < entrySize length := by
  unfold entrySize rfQueueQueueAlignPadding
  omega

theorem entryAt_succ : entryAt first length (i + 1) = entryAt first length i + entrySize length := by
  unfold entryAt
  rw [Nat.add_mul, Nat.one_mul, Nat.add_assoc]

/-- Entries lie one behind the other. -/
theorem entryAt_apart (before : i < j) : entryAt first length i + entrySize length ≤ entryAt first length j := by
  rw [← entryAt_succ]
  exact Nat.add_le_add_left (Nat.mul_le_mul_right _ before) _

theorem entryAt_separate (different : i ≠ j) : entryAt first length i + entrySize length ≤ entryAt first length j ∨
    entryAt first length j + entrySize length ≤ entryAt first length i := by
  rcases Nat.lt_or_gt_of_ne different with before | after
  · exact .inl (entryAt_apart before)
  · exact .inr (entryAt_apart after)

theorem entryAt_inside (inside : i < n) :
    entryAt first length i + entrySize length ≤ first + n * entrySize length :=
  entryAt_apart inside

theorem first_le_entryAt : first ≤ entryAt first length i := Nat.le_add_right _ _

theorem entryAt_aligned (aligned : first % 4 = 0) : entryAt first length i % 4 = 0 := by
  unfold entryAt
  rw [Nat.add_mod, aligned, Nat.mul_mod, entrySize_mod, Nat.mul_zero]

end

/-! ## RFQueue_defineQueue -/

/-- The entries below `n` are set up, and only their headers have changed. -/
structure EntryFormat.Defined (format : EntryFormat) (before after : ByteMemory) (first : Nat) (length : BitVec 16)
    (n : Nat) (next : Nat → Nat) : Prop where
  header : ∀ i < n, format.Header after (entryAt first length.toNat i) length
    (.ofNat 32 (entryAt first length.toNat (next i)))
  pending : ∀ i < n, after (entryAt first length.toNat i + format.status) = format.pending
  kept : ∀ a, (∀ i < n, ¬ Inside (entryAt first length.toNat i) rfQueueDataEntryHeaderSize a) → after a = before a

section
variable {format : EntryFormat} {memory : ByteMemory} {first : Nat} {length : BitVec 16}

theorem EntryFormat.defined_loop (n : Nat) :
    format.Defined memory (format.defineEntries memory first length n) first length n (· + 1) := by
  have size := @lt_entrySize length.toNat
  have inStatus := format.status_in
  induction n with
  | zero => exact ⟨fun i h => absurd h (Nat.not_lt_zero i), fun i h => absurd h (Nat.not_lt_zero i), fun a _ => rfl⟩
  | succ n ih =>
    have changed := @EntryFormat.define_changes format (format.defineEntries memory first length n)
      (entryAt first length.toNat n) length
    refine ⟨?_, ?_, ?_⟩
    · intro i inside
      rcases Nat.lt_succ_iff_lt_or_eq.mp inside with earlier | rfl
      · have apart := @entryAt_apart first length.toNat _ _ earlier
        exact (ih.header i earlier).beside changed (by omega)
      · rw [entryAt_succ]
        exact EntryFormat.define_header
    · intro i inside
      rcases Nat.lt_succ_iff_lt_or_eq.mp inside with earlier | rfl
      · have apart := @entryAt_apart first length.toNat _ _ earlier
        refine (changed _ ?_).trans (ih.pending i earlier)
        unfold Inside
        omega
      · exact EntryFormat.define_status
    · intro a away
      exact (changed a (away n (Nat.lt_succ_self n))).trans
        (ih.kept a fun i earlier => away i (Nat.lt_succ_of_lt earlier))

/-- The last pointer closes the ring. -/
theorem EntryFormat.defined_ring {n : Nat} (some_ : 0 < n) {buf : BitVec 32} (first_ : buf.toNat = first) :
    format.Defined memory ((format.defineEntries memory first length n).write
      (entryAt first length.toNat (n - 1) + format.pNextEntry) (bytesOf buf 4)) first length n
      (fun i => (i + 1) % n) := by
  have loop := @EntryFormat.defined_loop format memory first length n
  have size := @lt_entrySize length.toNat
  have inStatus := format.status_in
  have inLength := format.length_in
  have inPointer := format.pNextEntry_in
  have changed : ChangedIn (entryAt first length.toNat (n - 1) + format.pNextEntry) 4
      (format.defineEntries memory first length n)
      ((format.defineEntries memory first length n).write
        (entryAt first length.toNat (n - 1) + format.pNextEntry) (bytesOf buf 4)) :=
    .write (Nat.le_refl _) (by rw [length_bytesOf])
  refine ⟨?_, ?_, ?_⟩
  · intro i inside
    have header := loop.header i inside
    by_cases last : i = n - 1
    · subst last
      have wraps : (n - 1 + 1) % n = 0 := by rw [Nat.sub_add_cancel some_, Nat.mod_self]
      rw [wraps]
      refine ⟨?_, ?_⟩
      · rw [half_write_beside]
        · exact header.length
        · rw [length_bytesOf]
          have apart := format.length_pNextEntry
          omega
      · rw [word_write]
        simp [entryAt, ← first_]
    · rw [Nat.mod_eq_of_lt (by omega)]
      have apart := @entryAt_apart first length.toNat i (n - 1) (by omega)
      exact header.beside changed (by omega)
  · intro i inside
    have here : Inside (entryAt first length.toNat i + format.status) 1
        (entryAt first length.toNat i + format.status) := ⟨Nat.le_refl _, Nat.lt_succ_self _⟩
    refine (changed.beside ?_ here).trans (loop.pending i inside)
    by_cases last : i = n - 1
    · have apart := format.status_pNextEntry
      rw [last]
      omega
    · have apart := @entryAt_apart first length.toNat i (n - 1) (by omega)
      omega
  · intro a away
    refine (changed a ?_).trans (loop.kept a away)
    intro inside
    apply away (n - 1) (by omega)
    unfold Inside at inside ⊢
    omega

end

/-! ## RFQueue_nextEntry -/

/-- `readEntry` is entry `i` of a ring of `n` entries that leaves the rest of memory as it was in `before`. -/
structure RfQueue.At (q : RfQueue) (format : EntryFormat) (before : ByteMemory) (first : Nat) (length : BitVec 16)
    (n i : Nat) : Prop where
  ring : format.Defined before q.memory first length n (fun i => (i + 1) % n)
  inside : i < n
  read : q.readEntry.toNat = entryAt first length.toNat i

section
variable {format : EntryFormat} {before : ByteMemory} {first : Nat} {length : BitVec 16} {n i : Nat} {q : RfQueue}

theorem rfQueueNextEntry_memory : (q.rfQueueNextEntry format).2.memory =
    q.memory.write (q.readEntry.toNat + format.status) [format.pending] := rfl

theorem rfQueueNextEntry_readEntry : (q.rfQueueNextEntry format).2.readEntry =
    (q.rfQueueNextEntry format).2.memory.word (q.readEntry.toNat + format.pNextEntry) := rfl

theorem rfQueueNextEntry_status : (q.rfQueueNextEntry format).1 =
    (q.rfQueueNextEntry format).2.memory ((q.rfQueueNextEntry format).2.readEntry.toNat + format.status) := rfl

theorem RfQueue.At.next (at_ : q.At format before first length n i)
    (room : first + n * entrySize length.toNat ≤ 2 ^ 32) :
    (q.rfQueueNextEntry format).2.At format before first length n ((i + 1) % n) ∧
      (q.rfQueueNextEntry format).1 = format.pending := by
  have size := @lt_entrySize length.toNat
  have inStatus := format.status_in
  have inside : (i + 1) % n < n := Nat.mod_lt _ (Nat.zero_lt_of_lt at_.inside)
  have fits := @entryAt_inside first length.toNat _ _ inside
  have status : ∀ j < n, (q.rfQueueNextEntry format).2.memory (entryAt first length.toNat j + format.status) =
      format.pending := by
    intro j below
    rw [rfQueueNextEntry_memory, write_singleton, at_.ring.pending j below, ite_self]
  have changed : ChangedIn (entryAt first length.toNat i + format.status) 1 q.memory
      (q.rfQueueNextEntry format).2.memory := by
    rw [rfQueueNextEntry_memory, at_.read]
    exact .write (Nat.le_refl _) (Nat.le_refl _)
  have headers : ∀ j < n, format.Header (q.rfQueueNextEntry format).2.memory (entryAt first length.toNat j) length
      (.ofNat 32 (entryAt first length.toNat ((j + 1) % n))) := by
    intro j below
    have header := at_.ring.header j below
    by_cases same : j = i
    · subst same
      rw [rfQueueNextEntry_memory, at_.read]
      exact header.setStatus format.pending
    · have apart := @entryAt_separate first length.toNat _ _ same
      exact header.beside changed (by omega)
  have read : (q.rfQueueNextEntry format).2.readEntry.toNat = entryAt first length.toNat ((i + 1) % n) := by
    have pointer := (headers i at_.inside).pNextEntry
    rw [rfQueueNextEntry_readEntry, at_.read, pointer, BitVec.toNat_ofNat, Nat.mod_eq_of_lt (by omega)]
  refine ⟨⟨⟨headers, status, ?_⟩, inside, read⟩, ?_⟩
  · intro a away
    refine (changed a ?_).trans (at_.ring.kept a away)
    intro here
    apply away i at_.inside
    unfold Inside at here ⊢
    omega
  · rw [rfQueueNextEntry_status, read]
    exact status _ inside

/-- After `k` calls. -/
theorem RfQueue.At.walk (at_ : q.At format before first length n i)
    (room : first + n * entrySize length.toNat ≤ 2 ^ 32) (k : Nat) :
    ((fun q => (q.rfQueueNextEntry format).2)^[k] q).At format before first length n ((i + k) % n) := by
  induction k with
  | zero =>
    rw [Nat.add_zero, Nat.mod_eq_of_lt at_.inside]
    exact at_
  | succ k ih =>
    rw [Function.iterate_succ_apply']
    have next := (ih.next room).1
    rw [Nat.mod_add_mod, Nat.add_assoc] at next
    exact next

end

section
variable {format : EntryFormat} {q : RfQueue} {buf : BitVec 32} {bufLen : BitVec 16} {numEntries : Byte}
  {length : BitVec 16}

theorem rfQueueDefineQueue_small (small : bufLen.toNat < numEntries.toNat * entrySize length.toNat) :
    q.rfQueueDefineQueue format buf bufLen numEntries length = (1, q) := by
  have sizes : length.toNat + rfQueueDataEntryHeaderSize + rfQueueQueueAlignPadding length.toNat =
      entrySize length.toNat := congrArg (· + _) (Nat.add_comm _ _)
  unfold RfQueue.rfQueueDefineQueue
  rw [sizes, if_pos small]

theorem rfQueueDefineQueue_fits (some_ : 0 < numEntries.toNat)
    (fits : numEntries.toNat * entrySize length.toNat ≤ bufLen.toNat) :
    (q.rfQueueDefineQueue format buf bufLen numEntries length).1 = 0 ∧
      (q.rfQueueDefineQueue format buf bufLen numEntries length).2.pCurrEntry = buf ∧
      (q.rfQueueDefineQueue format buf bufLen numEntries length).2.At format q.memory buf.toNat length
        numEntries.toNat 0 := by
  have sizes : length.toNat + rfQueueDataEntryHeaderSize + rfQueueQueueAlignPadding length.toNat =
      entrySize length.toNat := congrArg (· + _) (Nat.add_comm _ _)
  unfold RfQueue.rfQueueDefineQueue
  rw [sizes, if_neg (Nat.not_lt.mpr fits)]
  refine ⟨rfl, rfl, EntryFormat.defined_ring some_ rfl, some_, ?_⟩
  simp [entryAt]

end

/-- RFQueue_defineQueue succeeds exactly if the entries fit; it then leaves a ring of
entries that lie in the buffer one behind the other, and the read pointer walks round
it. Nothing but the headers is written. -/
theorem queue_is_ring (format : EntryFormat) (q : RfQueue) (buf : BitVec 32) (bufLen : BitVec 16)
    (numEntries : Byte) (length : BitVec 16) (some_ : 0 < numEntries.toNat)
    (room : buf.toNat + bufLen.toNat ≤ 2 ^ 32) :
    let defined := q.rfQueueDefineQueue format buf bufLen numEntries length
    (defined.1 = 0 ↔ numEntries.toNat * entrySize length.toNat ≤ bufLen.toNat) ∧ (defined.1 ≠ 0 → defined.2 = q) ∧
    (defined.1 = 0 → ∀ k, let walked := (fun q => (q.rfQueueNextEntry format).2)^[k] defined.2
      let entry := walked.rfQueueGetDataEntry.toNat
      entry = entryAt buf.toNat length.toNat (k % numEntries.toNat) ∧ (buf.toNat % 4 = 0 → entry % 4 = 0) ∧
      buf.toNat ≤ entry ∧ entry + rfQueueDataEntryHeaderSize + length.toNat < buf.toNat + bufLen.toNat ∧
      walked.memory (entry + format.status) = format.pending ∧ walked.memory.half (entry + format.length) = length ∧
      ∀ a, (∀ i < numEntries.toNat,
        ¬ Inside (entryAt buf.toNat length.toNat i) rfQueueDataEntryHeaderSize a) →
          walked.memory a = q.memory a) := by
  rcases Nat.lt_or_ge bufLen.toNat (numEntries.toNat * entrySize length.toNat) with small | fits
  · rw [rfQueueDefineQueue_small small]
    refine ⟨iff_of_false ?_ (Nat.not_le.mpr small), fun _ => rfl, fun result => absurd result ?_⟩
    · exact (by decide : (1 : Byte) ≠ 0)
    · exact (by decide : (1 : Byte) ≠ 0)
  · obtain ⟨result, _, start⟩ := @rfQueueDefineQueue_fits format q buf _ _ _ some_ fits
    refine ⟨iff_of_true result fits, fun failed => absurd result failed, ?_⟩
    intro _ k
    have walked := start.walk (by omega) k
    rw [Nat.zero_add] at walked
    have size := @lt_entrySize length.toNat
    have inside := @entryAt_inside buf.toNat length.toNat _ _ walked.inside
    dsimp only [RfQueue.rfQueueGetDataEntry]
    rw [walked.read]
    exact ⟨rfl, entryAt_aligned, first_le_entryAt, by omega, walked.ring.pending _ walked.inside,
      (walked.ring.header _ walked.inside).length, walked.ring.kept⟩

/-- The header as the TI driver lays it out: pointer, status, config, length. -/
def driverEntry : EntryFormat where
  pNextEntry := 0
  status := 4
  config := 5
  length := 6
  pNextEntry_in := by decide
  status_in := by decide
  config_in := by decide
  length_in := by decide
  status_pNextEntry := by decide
  status_config := by decide
  status_length := by decide
  config_pNextEntry := by decide
  config_length := by decide
  length_pNextEntry := by decide
  pending := 0
  finished := 3
  pending_ne_finished := by decide
  general := fun config => config &&& 0xF0

/-- The call of firmware_rx_thread: eight entries of 33 bytes fill 352 bytes. -/
theorem queue_is_ring_rx : (RfQueue.rfQueueDefineQueue
    ⟨fun _ => 0xFF, 0, 0, 0⟩ driverEntry 0x20000400 352 8 33).1 = 0 :=
  (queue_is_ring driverEntry _ 0x20000400 352 8 33 (by decide) (by decide)).1.mpr (by decide)

end Cc1310Firmware.Radio
