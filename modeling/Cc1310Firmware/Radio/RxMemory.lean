import Cc1310Firmware.Radio.Bursts
import Cc1310Firmware.Radio.DataEntries

/-! The receive path in memory: the RF core and the callback share rxDataEntryBuffer.

Both sides only follow the pointers and the status bytes that they find in the
buffer. The core writes a packet to the data field of a pending entry: the
length byte, the payload, RSSI and status; maxPktLen bounds the payload.
-/

set_option autoImplicit false

namespace Cc1310Firmware.Radio
open LabelledRun ByteMemory

def maxLength : Nat := 30
def numAppendedBytes : Nat := 3

/-- MAX_LENGTH + NUM_APPENDED_BYTES. -/
def entryLength : BitVec 16 := BitVec.ofNat 16 (maxLength + numAppendedBytes)

def rxDataEntryBufferSize : Nat := rfQueueDataEntryBufferSize numDataEntries maxLength numAppendedBytes

/-- What the RF core has received. -/
structure AirPacket where
  payload : List Byte
  rssi : Byte
  status : Byte
  maxPktLen : payload.length ≤ maxLength

/-- With bIncludeHdr, bAppendRssi and bAppendStatus. -/
def AirPacket.bytes (p : AirPacket) : List Byte :=
  BitVec.ofNat 8 p.payload.length :: (p.payload ++ [p.rssi, p.status])

def AirPacket.outcome (p : AirPacket) : Outcome :=
  if p.status &&& 0xC0 == 0 then .posted p.payload else .crcError

structure RxMemory where
  queue : RfQueue
  /-- The array `packet` of firmware.c. -/
  packet : List Byte
  events : RfEventMask
  point : CallbackPoint
  packetQueue : PacketQueue

/-- After the set-up in firmware_rx_thread; `q` is what memory held before. -/
def RxMemory.start (format : EntryFormat) (q : RfQueue) (buf : BitVec 32) : RxMemory where
  queue := (q.rfQueueDefineQueue format buf (BitVec.ofNat 16 rxDataEntryBufferSize)
    (BitVec.ofNat 8 numDataEntries) entryLength).2
  packet := List.replicate (maxLength + numAppendedBytes - 1) 0
  events := .none
  point := .outside
  packetQueue := PacketQueue.cleared.rfPacketQueueInit

/-- The RF core finishes its entry and goes on to the next. -/
def RfQueue.complete (q : RfQueue) (format : EntryFormat) (p : AirPacket) : RfQueue :=
  let entry := q.pCurrEntry.toNat
  let memory := q.memory.write (entry + rfQueueDataEntryHeaderSize) p.bytes
  let memory := memory.write (entry + format.status) [format.finished]
  { q with memory := memory, pCurrEntry := memory.word (entry + format.pNextEntry) }

/-- The memory from the data field of the unhandled entry on. -/
def RxMemory.data (s : RxMemory) : Nat → Byte :=
  fun i => s.queue.memory (s.queue.rfQueueGetDataEntry.toNat + rfQueueDataEntryHeaderSize + i)

/-- memcpy: the first `count` bytes of `packet`. -/
def copied (packet : List Byte) (source : Nat → Byte) (count : Nat) : List Byte :=
  (List.range count).map source ++ packet.drop count

inductive MemoryInput where
  | complete (p : AirPacket)
  | raise (e : RfEventMask)
  | enter
  | handle (ticks : Word)
  | leave
  | mailboxPend

structure MemoryEvent where
  input : MemoryInput
  outcome : Option Outcome

inductive MemoryStep (format : EntryFormat) : RxMemory → MemoryEvent → RxMemory → Prop where
  | complete {s : RxMemory} (p : AirPacket) :
      s.queue.memory (s.queue.pCurrEntry.toNat + format.status) = format.pending →
      MemoryStep format s ⟨.complete p, none⟩ { s with
        queue := s.queue.complete format p
        events := { s.events with rxEntryDone := true } }
  | raise {s : RxMemory} (e : RfEventMask) : e.rxEntryDone = false →
      MemoryStep format s ⟨.raise e, none⟩ { s with events := s.events.union e }
  | enter {s : RxMemory} : s.point = .outside → s.events ≠ .none →
      MemoryStep format s ⟨.enter, none⟩ { s with events := .none, point := .entered s.events }
  | handle {s : RxMemory} {e : RfEventMask} (ticks : Word) : s.point = .entered e →
      MemoryStep format s ⟨.handle ticks, if e.rxEntryDone then some (outcome s.data) else none⟩ { s with
        point := .handled e
        packet := if e.rxEntryDone then copied s.packet (packetDataPointer s.data) (packetLength s.data + 1)
          else s.packet
        packetQueue := if e.rxEntryDone then (s.packetQueue.noteEvents e).handleEntry s.data ticks
          else s.packetQueue.noteEvents e }
  | leave {s : RxMemory} {e : RfEventMask} : s.point = .handled e →
      MemoryStep format s ⟨.leave, none⟩ { s with
        queue := if e.rxEntryDone then (s.queue.rfQueueNextEntry format).2 else s.queue
        point := .outside }
  | mailboxPend {s : RxMemory} {message : RfPacketMessage} {rest : List RfPacketMessage} :
      s.packetQueue.packetMailbox = some (message :: rest) →
      MemoryStep format s ⟨.mailboxPend, none⟩
        { s with packetQueue := { s.packetQueue with packetMailbox := some rest } }

abbrev MemoryTransition := Transition RxMemory MemoryEvent

/-- The packets that the RF core has put into entries, in order. -/
def packets (history : List MemoryTransition) : List AirPacket :=
  history.filterMap fun x => match x.event.input with
    | .complete p => some p
    | _ => none

/-- What callbacks have made of entries, in order. -/
def received (history : List MemoryTransition) : List Outcome := history.filterMap fun x => x.event.outcome

/-! ## A packet in an entry -/

/-- The data field of an entry, and nothing behind it. -/
def dataField (memory : ByteMemory) (entry : Nat) : Nat → Byte := fun i =>
  if i < maxLength + numAppendedBytes then memory (entry + rfQueueDataEntryHeaderSize + i) else 0

/-- `data` starts with the packet. -/
structure Carries (data : Nat → Byte) (p : AirPacket) : Prop where
  length : packetLength data = p.payload.length
  payload : ∀ i (h : i < p.payload.length), packetDataPointer data i = p.payload[i]
  rssi : packetDataPointer data p.payload.length = p.rssi
  status : packetDataPointer data (p.payload.length + 1) = p.status

theorem AirPacket.length_bytes (p : AirPacket) : p.bytes.length = p.payload.length + 3 := by simp [bytes]

theorem AirPacket.fits (p : AirPacket) : p.bytes.length ≤ maxLength + numAppendedBytes := by
  rw [p.length_bytes]
  exact Nat.add_le_add_right p.maxPktLen 3

theorem AirPacket.carries (p : AirPacket) {data : Nat → Byte}
    (same : ∀ i (h : i < p.bytes.length), data i = p.bytes[i]) :
    Carries data p := by
  have bounded := p.maxPktLen
  have total := p.length_bytes
  unfold maxLength at bounded
  refine ⟨?_, ?_, ?_, ?_⟩
  · unfold packetLength
    rw [same 0 (by omega)]
    simp only [bytes, List.getElem_cons_zero, BitVec.toNat_ofNat]
    omega
  · intro i inside
    unfold packetDataPointer
    rw [same _ (by omega)]
    simp [bytes, Nat.add_comm 1, inside]
  · unfold packetDataPointer
    rw [same _ (by omega)]
    simp [bytes, Nat.add_comm 1]
  · unfold packetDataPointer
    rw [same _ (by omega)]
    simp [bytes, Nat.add_comm 1]

theorem Carries.outcome {data : Nat → Byte} {p : AirPacket} (carries : Carries data p) :
    outcome data = p.outcome := by
  have valid : packetValid data = (p.status &&& 0xC0 == 0) := by
    unfold packetValid packetStatus
    rw [carries.length, carries.status]
  have payload : (List.range (packetLength data)).map (packetDataPointer data) = p.payload := by
    rw [carries.length]
    apply List.ext_getElem
    · simp
    · intro i left right
      rw [List.getElem_map, List.getElem_range]
      exact carries.payload i right
  unfold Radio.outcome AirPacket.outcome
  rw [valid, payload]

/-- Bytes behind the packet do not matter. -/
theorem Carries.congr {data other : Nat → Byte} {p : AirPacket} (carries : Carries data p)
    (same : ∀ i < maxLength + numAppendedBytes, other i = data i) : Carries other p := by
  have bounded := p.maxPktLen
  unfold numAppendedBytes at same
  refine ⟨?_, ?_, ?_, ?_⟩
  · unfold packetLength
    rw [same 0 (by omega)]
    exact carries.length
  · intro i inside
    exact (same _ (by omega)).trans (carries.payload i inside)
  · exact (same _ (by omega)).trans carries.rssi
  · exact (same _ (by omega)).trans carries.status

theorem postPacket_congr (q : PacketQueue) (source : RfPacketSource) {payload other : Nat → Byte} {length : Nat}
    (ticks : Word) (same : ∀ i < length, payload i = other i) :
    q.postPacket source payload length ticks = q.postPacket source other length ticks := by
  unfold PacketQueue.postPacket
  cases q.packetMailbox with
  | none => rfl
  | some mailbox =>
    have bytes : ∀ n ≤ length, (List.range n).map payload = (List.range n).map other := by
      intro n below
      apply List.map_congr_left
      intro i member
      exact same i (Nat.lt_of_lt_of_le (List.mem_range.mp member) below)
    dsimp only
    rw [bytes]
    split <;> omega

/-- The callback does the same on any two copies of a packet. -/
theorem Carries.handleEntry {data other : Nat → Byte} {p : AirPacket} (left : Carries data p)
    (right : Carries other p)
    (q : PacketQueue) (ticks : Word) : q.handleEntry data ticks = q.handleEntry other ticks := by
  rw [handleEntry_eq, handleEntry_eq, left.outcome, right.outcome, left.length, right.length, left.rssi, right.rssi]
  cases p.outcome with
  | crcError => rfl
  | posted payload =>
    apply postPacket_congr
    intro i inside
    rw [left.payload i inside, right.payload i inside]

/-! ## The ring in memory -/

/-- Where entry `i` lies in the buffer. -/
def entryPlace (buf : Nat) (i : Fin numDataEntries) : Nat := entryAt buf entryLength.toNat i

/-- The bytes of an entry that anyone reads or writes. -/
def entryBytes : Nat := rfQueueDataEntryHeaderSize + (maxLength + numAppendedBytes)

/-- What the callback sees of an entry. -/
def entryIn (format : EntryFormat) (memory : ByteMemory) (entry : Nat) : DataEntry :=
  ⟨if memory (entry + format.status) = format.finished then .finished else .pending, dataField memory entry⟩

/-- The ring of RFQueue_defineQueue, in a memory that differs from `before` in the buffer only. -/
structure RingIn (format : EntryFormat) (before memory : ByteMemory) (buf : Nat) : Prop where
  headers : ∀ i, format.Header memory (entryPlace buf i) entryLength (.ofNat 32 (entryPlace buf (i + 1)))
  kept : ChangedIn buf rxDataEntryBufferSize before memory

section
variable {format : EntryFormat} {before memory after : ByteMemory} {buf : Nat} {i j : Fin numDataEntries}

theorem entryPlace_inside : entryPlace buf i + entryBytes < buf + rxDataEntryBufferSize := by
  have inside := @entryAt_inside buf entryLength.toNat _ _ i.isLt
  have size := @lt_entrySize entryLength.toNat
  exact Nat.lt_of_lt_of_le (Nat.add_lt_add_left size _) inside

theorem le_entryPlace : buf ≤ entryPlace buf i := first_le_entryAt

theorem entryPlace_apart (different : i ≠ j) : entryPlace buf i + entryBytes ≤ entryPlace buf j ∨
    entryPlace buf j + entryBytes ≤ entryPlace buf i := by
  have size := @lt_entrySize entryLength.toNat
  have apart := @entryAt_separate buf entryLength.toNat i j (fun same => different (Fin.ext same))
  exact apart.imp (Nat.le_trans (Nat.add_le_add_left (Nat.le_of_lt size) _))
    (Nat.le_trans (Nat.add_le_add_left (Nat.le_of_lt size) _))

theorem entryIn_congr {entry : Nat} (same : ∀ a, Inside entry entryBytes a → after a = memory a) :
    entryIn format after entry = entryIn format memory entry := by
  have inStatus := format.status_in
  have data : dataField after entry = dataField memory entry := by
    funext i
    unfold dataField
    by_cases inside : i < maxLength + numAppendedBytes
    · rw [if_pos inside, if_pos inside, same]
      unfold Inside entryBytes
      omega
    · rw [if_neg inside, if_neg inside]
  unfold entryIn
  rw [data, same]
  unfold Inside entryBytes
  omega

/-- A change of one entry that leaves its length and its pointer. -/
theorem RingIn.change (ring : RingIn format before memory buf)
    (changed : ChangedIn (entryPlace buf i) entryBytes memory after)
    (header : format.Header after (entryPlace buf i) entryLength (.ofNat 32 (entryPlace buf (i + 1)))) :
    RingIn format before after buf ∧ ∀ j, j ≠ i → entryIn format after (entryPlace buf j) =
      entryIn format memory (entryPlace buf j) := by
  refine ⟨⟨?_, ?_⟩, ?_⟩
  · intro j
    by_cases same : j = i
    · rw [same]
      exact header
    · have apart := @entryPlace_apart buf _ _ same
      apply (ring.headers j).beside changed
      unfold entryBytes at apart ⊢
      omega
  · have inside := @entryPlace_inside buf i
    exact ring.kept.trans (changed.within le_entryPlace (Nat.le_of_lt inside))
  · intro j different
    have apart := @entryPlace_apart buf _ _ different
    apply entryIn_congr
    intro a inside
    exact changed.beside apart inside

/-- The RF core puts a packet into entry `i`. -/
theorem RingIn.complete {q : RfQueue} (ring : RingIn format before q.memory buf) (p : AirPacket)
    (curr : q.pCurrEntry.toNat = entryPlace buf i) (room : buf + rxDataEntryBufferSize ≤ 2 ^ 32) :
    RingIn format before (q.complete format p).memory buf ∧
      (∀ j, j ≠ i → entryIn format (q.complete format p).memory (entryPlace buf j) =
        entryIn format q.memory (entryPlace buf j)) ∧
      (entryIn format (q.complete format p).memory (entryPlace buf i)).status = .finished ∧
      Carries (entryIn format (q.complete format p).memory (entryPlace buf i)).data p ∧
      (q.complete format p).pCurrEntry.toNat = entryPlace buf (i + 1) := by
  have inStatus := format.status_in
  have fits := p.fits
  have memory_ : (q.complete format p).memory =
      (q.memory.write (entryPlace buf i + rfQueueDataEntryHeaderSize) p.bytes).write
        (entryPlace buf i + format.status) [format.finished] := by
    rw [← curr]
    rfl
  have pointer : (q.complete format p).pCurrEntry =
      (q.complete format p).memory.word (entryPlace buf i + format.pNextEntry) := by
    rw [← curr]
    rfl
  have data : ChangedIn (entryPlace buf i + rfQueueDataEntryHeaderSize) (maxLength + numAppendedBytes) q.memory
      (q.memory.write (entryPlace buf i + rfQueueDataEntryHeaderSize) p.bytes) :=
    .write (Nat.le_refl _) (Nat.add_le_add_left fits _)
  have header := ((ring.headers i).beside data (.inl (Nat.le_refl _))).setStatus format.finished
  rw [← memory_] at header
  have changed : ChangedIn (entryPlace buf i) entryBytes q.memory (q.complete format p).memory := by
    rw [memory_]
    refine (data.within (Nat.le_add_right _ _) (Nat.le_of_eq (Nat.add_assoc _ _ _))).trans
      (.write (Nat.le_add_right _ _) ?_)
    simp only [List.length_singleton]
    omega
  obtain ⟨ring', others⟩ := ring.change changed header
  refine ⟨ring', others, ?_, ?_, ?_⟩
  · unfold entryIn
    rw [memory_, write_singleton, if_pos rfl, if_pos rfl]
  · apply p.carries
    intro k inside
    change dataField _ _ k = _
    unfold dataField
    rw [if_pos (Nat.lt_of_lt_of_le inside fits), memory_, write_singleton, if_neg (by omega), write_at inside]
  · have next := @entryPlace_inside buf (i + 1)
    rw [pointer, header.pNextEntry, BitVec.toNat_ofNat, Nat.mod_eq_of_lt]
    omega

/-- The callback gives entry `i` back. -/
theorem RingIn.nextEntry {q : RfQueue} (ring : RingIn format before q.memory buf)
    (read : q.readEntry.toNat = entryPlace buf i) (room : buf + rxDataEntryBufferSize ≤ 2 ^ 32) :
    RingIn format before (q.rfQueueNextEntry format).2.memory buf ∧
      (∀ j, j ≠ i → entryIn format (q.rfQueueNextEntry format).2.memory (entryPlace buf j) =
        entryIn format q.memory (entryPlace buf j)) ∧
      entryIn format (q.rfQueueNextEntry format).2.memory (entryPlace buf i) =
        { entryIn format q.memory (entryPlace buf i) with status := .pending } ∧
      (q.rfQueueNextEntry format).2.readEntry.toNat = entryPlace buf (i + 1) := by
  have inStatus := format.status_in
  have memory_ := @rfQueueNextEntry_memory format q
  rw [read] at memory_
  have header := (ring.headers i).setStatus format.pending
  rw [← memory_] at header
  have changed : ChangedIn (entryPlace buf i) entryBytes q.memory (q.rfQueueNextEntry format).2.memory := by
    rw [memory_]
    refine .write (Nat.le_add_right _ _) ?_
    unfold entryBytes
    simp only [List.length_singleton]
    omega
  obtain ⟨ring', others⟩ := ring.change changed header
  refine ⟨ring', others, ?_, ?_⟩
  · have data : dataField (q.rfQueueNextEntry format).2.memory (entryPlace buf i) =
        dataField q.memory (entryPlace buf i) := by
      funext k
      have elsewhere : entryPlace buf i + rfQueueDataEntryHeaderSize + k ≠ entryPlace buf i + format.status := by
        omega
      unfold dataField
      rw [memory_, write_singleton, if_neg elsewhere]
    unfold entryIn
    rw [data, memory_, write_singleton, if_pos rfl, if_neg format.pending_ne_finished]
  · have next := @entryPlace_inside buf (i + 1)
    rw [rfQueueNextEntry_readEntry, read, header.pNextEntry, BitVec.toNat_ofNat, Nat.mod_eq_of_lt]
    omega

end

/-! ## Against the ring of entries -/

/-- The state in memory shows the same entries, places and counters as `t`. -/
structure Refines (format : EntryFormat) (before : ByteMemory) (buf : Nat) (s : RxMemory) (t : RxState) : Prop where
  ring : RingIn format before s.queue.memory buf
  entries : ∀ i, t.entries i = entryIn format s.queue.memory (entryPlace buf i)
  curr : s.queue.pCurrEntry.toNat = entryPlace buf t.pCurrEntry
  read : s.queue.readEntry.toNat = entryPlace buf t.readEntry
  packet : s.packet.length = maxLength + numAppendedBytes - 1
  events : s.events = t.events
  point : s.point = t.point
  packetQueue : s.packetQueue = t.packetQueue

/-- The same input on both levels. -/
inductive MatchesInput : MemoryInput → RxInput → Prop where
  | complete {p : AirPacket} {data : Nat → Byte} : Carries data p → MatchesInput (.complete p) (.complete data)
  | raise (e : RfEventMask) : MatchesInput (.raise e) (.raise e)
  | enter : MatchesInput .enter .enter
  | handle (ticks : Word) : MatchesInput (.handle ticks) (.handle ticks)
  | leave : MatchesInput .leave .leave
  | mailboxPend : MatchesInput .mailboxPend .mailboxPend

/-- The callback stays inside its entry and inside `packet`, and rf_packet_queue takes the whole payload. -/
structure ReadsInside (buf : Nat) (s : RxMemory) : Prop where
  low : buf ≤ s.queue.rfQueueGetDataEntry.toNat
  status : s.queue.rfQueueGetDataEntry.toNat + rfQueueDataEntryHeaderSize + (1 + (packetLength s.data + 1)) <
    buf + rxDataEntryBufferSize
  memcpy : packetLength s.data + 1 ≤ s.packet.length
  payload : packetLength s.data ≤ rfPacketQueuePayloadMax

section
variable {format : EntryFormat} {before : ByteMemory} {buf : Nat} {s s' : RxMemory} {t : RxState} {p : AirPacket}

/-- What the callback reads is what the entry holds. -/
theorem Refines.carries (refines : Refines format before buf s t) (carries : Carries t.rfQueueGetDataEntry.data p) :
    Carries s.data p := by
  apply carries.congr
  intro i inside
  unfold RxState.rfQueueGetDataEntry
  rw [refines.entries]
  change _ = dataField _ _ i
  unfold dataField RxMemory.data RfQueue.rfQueueGetDataEntry
  rw [if_pos inside, refines.read]

theorem Refines.readsInside (refines : Refines format before buf s t)
    (carries : Carries t.rfQueueGetDataEntry.data p) : ReadsInside buf s := by
  have bounded := p.maxPktLen
  have inside := @entryPlace_inside buf t.readEntry
  have read : s.queue.rfQueueGetDataEntry.toNat = entryPlace buf t.readEntry := refines.read
  have packet := refines.packet
  unfold entryBytes at inside
  unfold maxLength numAppendedBytes at inside packet
  unfold maxLength at bounded
  refine ⟨?_, ?_, ?_, ?_⟩
  · rw [read]
    exact le_entryPlace
  · rw [read, (refines.carries carries).length]
    omega
  · rw [(refines.carries carries).length]
    omega
  · rw [(refines.carries carries).length]
    exact bounded

/-- One step in memory is one step of the ring of entries. -/
theorem Refines.step {event : MemoryEvent} (refines : Refines format before buf s t)
    (room : buf + rxDataEntryBufferSize ≤ 2 ^ 32)
    (front : t.point.unhandled = 1 → ∃ p, Carries t.rfQueueGetDataEntry.data p)
    (step : MemoryStep format s event s') :
    ∃ event' t', RxStep t event' t' ∧ Refines format before buf s' t' ∧ MatchesInput event.input event'.input ∧
      event'.outcome = event.outcome := by
  cases step with
  | complete p pending =>
    obtain ⟨ring, others, finished, carries, next⟩ := refines.ring.complete p refines.curr room
    have status : (t.entries t.pCurrEntry).status = .pending := by
      rw [refines.entries]
      unfold entryIn
      rw [← refines.curr, pending, if_neg format.pending_ne_finished]
    refine ⟨_, _, .complete _ status, ⟨ring, ?_, next, refines.read, refines.packet, ?_, refines.point,
      refines.packetQueue⟩, .complete carries, rfl⟩
    · intro j
      by_cases same : j = t.pCurrEntry
      · subst same
        dsimp only
        rw [Function.update_self, ← finished]
      · dsimp only
        rw [Function.update_of_ne same, others j same]
        exact refines.entries j
    · dsimp only
      rw [refines.events]
  | raise e other =>
    refine ⟨_, _, .raise e other, { refines with events := ?_ }, .raise e, rfl⟩
    dsimp only
    rw [refines.events]
  | enter outside some_ =>
    rw [refines.point] at outside
    rw [refines.events] at some_
    refine ⟨_, _, .enter outside some_, { refines with events := rfl, point := ?_ }, .enter, rfl⟩
    dsimp only
    rw [refines.events]
  | @handle e ticks entered =>
    rw [refines.point] at entered
    cases entry : e.rxEntryDone with
    | false =>
      refine ⟨_, _, .handle ticks entered, { refines with packet := ?_, point := rfl, packetQueue := ?_ },
        .handle ticks, ?_⟩
      · simp only [Bool.false_eq_true, if_false]
        exact refines.packet
      · simp only [entry, Bool.false_eq_true, if_false]
        rw [refines.packetQueue]
      · simp only [entry, Bool.false_eq_true, if_false]
    | true =>
      obtain ⟨p, carries⟩ := front (by rw [entered]; exact if_pos entry)
      have here := refines.carries carries
      have inside := (refines.readsInside carries).memcpy
      refine ⟨_, _, .handle ticks entered, { refines with packet := ?_, point := rfl, packetQueue := ?_ },
        .handle ticks, ?_⟩
      · simp only [if_true]
        rw [← refines.packet]
        unfold copied
        rw [List.length_append, List.length_map, List.length_range, List.length_drop]
        omega
      · simp only [entry, if_true]
        rw [refines.packetQueue]
        exact here.handleEntry carries _ ticks
      · simp only [entry, if_true]
        rw [here.outcome, carries.outcome]
  | @leave e done =>
    rw [refines.point] at done
    cases entry : e.rxEntryDone with
    | false =>
      refine ⟨_, _, .leave done, ?_, .leave, rfl⟩
      simp only [entry, Bool.false_eq_true, if_false]
      exact { refines with point := rfl }
    | true =>
      obtain ⟨ring, others, same_, next⟩ := refines.ring.nextEntry refines.read room
      refine ⟨_, _, .leave done, ?_, .leave, rfl⟩
      simp only [entry, if_true]
      refine ⟨ring, ?_, refines.curr, next, refines.packet, refines.events, rfl, refines.packetQueue⟩
      intro j
      unfold RxState.rfQueueNextEntry
      by_cases same : j = t.readEntry
      · subst same
        dsimp only
        rw [Function.update_self, same_, refines.entries]
      · dsimp only
        rw [Function.update_of_ne same, others j same]
        exact refines.entries j
  | @mailboxPend message rest waiting =>
    rw [refines.packetQueue] at waiting
    refine ⟨_, _, .mailboxPend waiting, { refines with packetQueue := ?_ }, .mailboxPend, rfl⟩
    dsimp only
    rw [refines.packetQueue]

end

/-! ## Runs -/

/-- The ring of entries that a buffer shows before the first packet. -/
def RxMemory.startData (s : RxMemory) (buf : Nat) (i : Fin numDataEntries) : Nat → Byte :=
  dataField s.queue.memory (entryPlace buf i)

/-- A history in memory and one of the ring of entries with the same packets and outcomes. -/
structure SameHistory (history : List MemoryTransition) (abstract : List RxTransition) : Prop where
  carried : List.Forall₂ Carries (completed abstract) (packets history)
  outcomes : handled abstract = received history

section
variable {format : EntryFormat} {q : RfQueue} {buf : BitVec 32} {history : List MemoryTransition} {s : RxMemory}

theorem refines_start :
    Refines format q.memory buf.toNat (.start format q buf)
      (.start ((RxMemory.start format q buf).startData buf.toNat)) := by
  have fits : (BitVec.ofNat 8 numDataEntries).toNat * entrySize entryLength.toNat ≤
      (BitVec.ofNat 16 rxDataEntryBufferSize).toNat := by decide
  obtain ⟨_, curr, at_⟩ := @rfQueueDefineQueue_fits format q buf _ _ _ (by decide) fits
  have inStatus := format.status_in
  refine ⟨⟨?_, ?_⟩, ?_, ?_, ?_, List.length_replicate, rfl, rfl, rfl⟩
  · intro i
    unfold entryPlace
    rw [Fin.val_add]
    exact at_.ring.header i i.isLt
  · intro a outside
    apply at_.ring.kept
    intro i below inside
    have last := @entryPlace_inside buf.toNat ⟨i, below⟩
    have first := @le_entryPlace buf.toNat ⟨i, below⟩
    apply outside
    unfold entryPlace entryBytes at last
    unfold entryPlace at first
    unfold Inside at inside ⊢
    dsimp only at first last
    omega
  · intro i
    have pending : (RxMemory.start format q buf).queue.memory (entryPlace buf.toNat i + format.status) =
        format.pending := at_.ring.pending i i.isLt
    unfold entryIn
    rw [pending, if_neg format.pending_ne_finished]
    rfl
  · rw [show (RxMemory.start format q buf).queue.pCurrEntry = buf from curr]
    simp [entryPlace, entryAt, RxState.start]
  · exact at_.read

/-- The RF core may fill the first entry. -/
theorem start_pending : (RxMemory.start format q buf).queue.memory
    ((RxMemory.start format q buf).queue.pCurrEntry.toNat + format.status) = format.pending := by
  have fits : (BitVec.ofNat 8 numDataEntries).toNat * entrySize entryLength.toNat ≤
      (BitVec.ofNat 16 rxDataEntryBufferSize).toNat := by decide
  obtain ⟨_, curr, at_⟩ := @rfQueueDefineQueue_fits format q buf _ _ _ (by decide) fits
  have first := at_.ring.pending 0 (by decide)
  have same : (RxMemory.start format q buf).queue.pCurrEntry = buf := curr
  have place : entryAt buf.toNat entryLength.toNat 0 = buf.toNat := by simp [entryAt]
  rw [place] at first
  rw [same]
  exact first

theorem packets_concat (x : MemoryTransition) : packets (history ++ [x]) = packets history ++
    match x.event.input with
    | .complete p => [p]
    | _ => [] := by
  unfold packets
  rw [List.filterMap_append]
  cases h : x.event.input <;> simp [h]

theorem received_concat (x : MemoryTransition) :
    received (history ++ [x]) = received history ++ x.event.outcome.toList := by
  unfold received
  rw [List.filterMap_append]
  cases h : x.event.outcome <;> simp [h]

theorem SameHistory.next {abstract : List RxTransition} (same : SameHistory history abstract) {x : MemoryTransition}
    {y : RxTransition} (input : MatchesInput x.event.input y.event.input)
    (outcome : y.event.outcome = x.event.outcome) :
    SameHistory (history ++ [x]) (abstract ++ [y]) := by
  refine ⟨?_, ?_⟩
  · rw [completed_concat, packets_concat]
    generalize x.event.input = a at input
    generalize y.event.input = b at input
    cases input with
    | complete carries => exact List.rel_append same.carried (.cons carries .nil)
    | _ => exact List.rel_append same.carried .nil
  · rw [handled_concat, received_concat, same.outcomes, outcome]

/-- A callback that is about to handle an entry has a packet in it. -/
theorem SameHistory.front {abstract : List RxTransition} {t : RxState} (same : SameHistory history abstract)
    (inv : RxInv abstract t) (entered : t.point.unhandled = 1) : ∃ p, Carries t.rfQueueGetDataEntry.data p := by
  have unreturned : t.point.unreturned = 0 := by
    cases point : t.point with
    | entered => rfl
    | outside | handled => rw [point] at entered; cases entered
  obtain ⟨inside, here⟩ := inv.front entered unreturned
  have inside' : (handled abstract).length < (packets history).length := by
    rw [← same.carried.length_eq]
    exact inside
  refine ⟨(packets history)[(handled abstract).length], ?_⟩
  rw [here]
  exact same.carried.get inside inside'

theorem SameHistory.expected {abstract : List RxTransition} (same : SameHistory history abstract) :
    (completed abstract).map outcome = (packets history).map AirPacket.outcome := by
  have carried := same.carried
  generalize completed abstract = data at carried
  generalize packets history = packets at carried
  induction carried with
  | nil => rfl
  | cons carries _ ih => rw [List.map_cons, List.map_cons, carries.outcome, ih]

/-- Every run in memory is a run of the ring of entries. -/
theorem refines_run (room : buf.toNat + rxDataEntryBufferSize ≤ 2 ^ 32)
    (run : Run (MemoryStep format) (.start format q buf) history s) :
    ∃ abstract t, Run RxStep (.start ((RxMemory.start format q buf).startData buf.toNat)) abstract t ∧
      Refines format q.memory buf.toNat s t ∧ SameHistory history abstract := by
  apply @Run.induction _ _ _ _ (fun history s => ∃ abstract t,
    Run RxStep (.start ((RxMemory.start format q buf).startData buf.toNat)) abstract t ∧
      Refines format q.memory buf.toNat s t ∧ SameHistory history abstract) _ _ _ _ run
  · exact ⟨[], _, .nil, refines_start, ⟨.nil, rfl⟩⟩
  · intro history s event s' _ ih step
    obtain ⟨abstract, t, run, refines, same⟩ := ih
    obtain ⟨event', t', step', refines', input, outcome⟩ :=
      refines.step room (same.front (.run run)) step
    exact ⟨_, _, run.next step', refines', same.next input outcome⟩

/-- The callback makes of each packet what its status byte says, in order. -/
theorem received_eq (room : buf.toNat + rxDataEntryBufferSize ≤ 2 ^ 32)
    (run : Run (MemoryStep format) (.start format q buf) history s) :
    received history = ((packets history).take (received history).length).map AirPacket.outcome := by
  obtain ⟨abstract, t, run', _, same⟩ := refines_run room run
  have inOrder := (RxInv.run run').inOrder
  rw [List.map_take, same.expected, same.outcomes] at inOrder
  rw [List.map_take]
  exact inOrder

end

/-- In every run the callback finds in the buffer the packets that the RF core has put
there, each once and in order, and makes of each what its status byte says. It reads
inside its entry, memcpy stays inside `packet`, and nothing outside the buffer changes. -/
theorem packets_through_memory (format : EntryFormat) (q : RfQueue) (buf : BitVec 32)
    (room : buf.toNat + rxDataEntryBufferSize ≤ 2 ^ 32) (history : List MemoryTransition) (s : RxMemory)
    (run : Run (MemoryStep format) (.start format q buf) history s) :
    received history = ((packets history).take (received history).length).map AirPacket.outcome ∧
    (packets history).length ≤ (received history).length + numDataEntries ∧
    (∀ x ∈ history, x.before.point.unhandled = 1 → ReadsInside buf.toNat x.before) ∧
    s.packet.length = maxLength + numAppendedBytes - 1 ∧
    ChangedIn buf.toNat rxDataEntryBufferSize q.memory s.queue.memory := by
  obtain ⟨abstract, t, run', refines, same⟩ := refines_run room run
  have inv := RxInv.run run'
  refine ⟨received_eq room run, ?_, ?_, refines.packet, refines.ring.kept⟩
  · -- the RF core stops at an entry that has not been given back
    have high := inv.ring.high
    have served := inv.served
    unfold finishedEntries at high
    rw [List.length_map, same.carried.length_eq] at high
    rw [same.outcomes] at served
    omega
  · intro x member entered
    obtain ⟨earlier, later, rfl⟩ := List.append_of_mem member
    obtain ⟨abstract, t, run', refines, same⟩ := refines_run room run.split.1
    rw [refines.point] at entered
    obtain ⟨p, carries⟩ := same.front (.run run') entered
    exact refines.readsInside carries

/-- One packet through the buffer. -/
theorem packets_through_memory_one : ∃ history s, Run (MemoryStep driverEntry)
    (.start driverEntry ⟨fun _ => 0xFF, 0, 0, 0⟩ 0x20000400) history s ∧
      (packets history).map AirPacket.payload = [[0x11]] ∧ received history = [.posted [0x11]] := by
  let p : AirPacket := ⟨[0x11], 0xC0, 0, by decide⟩
  have start := @Run.nil _ _ (MemoryStep driverEntry) (.start driverEntry ⟨fun _ => 0xFF, 0, 0, 0⟩ 0x20000400)
  have finish := start.next (.complete p start_pending)
  have run := ((finish.next (.enter rfl (by decide))).next (.handle 0 rfl)).next (.leave rfl)
  have through := (packets_through_memory driverEntry _ 0x20000400 (by decide) _ _ run).1
  have posted : p.outcome = .posted [0x11] := by decide
  exact ⟨_, _, run, rfl, through.trans (congrArg (fun outcome => [outcome]) posted)⟩

end Cc1310Firmware.Radio
