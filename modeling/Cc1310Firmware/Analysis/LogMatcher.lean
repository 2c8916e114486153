import Cc1310Firmware.Analysis.KeyedQueues
import Cc1310Firmware.Codec.LittleEndian

/-! The Matcher of rf_latency_logger.py. Each of its calls runs under the lock. -/

set_option autoImplicit false

namespace Cc1310Firmware.Analysis
open KeyedQueues

abbrev Payload := List Byte

structure TxArrival where
  timestampNs : Int
  device : String
  tick : Option Nat
  localUs : Option Nat
  deriving DecidableEq, Repr

structure RxArrival where
  seq : Nat
  timestampNs : Int
  device : String
  tick : Option Nat
  localUs : Option Nat
  deriving DecidableEq, Repr

/-- A row of the CSV file, before its fields are formatted. -/
structure Row where
  data : Payload
  tx : TxArrival
  rx : RxArrival
  deriving DecidableEq, Repr

structure Matcher where
  pendingTx : Queues Payload TxArrival
  pendingRx : Queues Payload RxArrival
  written : List Row
  totalTx : Nat
  totalRx : Nat
  matched : Nat
  lost : Nat
  latencySumNs : Int
  latencyMinNs : Option Int
  latencyMaxNs : Option Int

def Matcher.init : Matcher := ⟨∅, ∅, [], 0, 0, 0, 0, 0, none, none⟩

/-- _write -/
def Matcher.write (m : Matcher) (row : Row) : Matcher :=
  let latencyNs := row.rx.timestampNs - row.tx.timestampNs
  { m with
    written := m.written ++ [row]
    matched := m.matched + 1
    latencySumNs := m.latencySumNs + latencyNs
    latencyMinNs := some (m.latencyMinNs.elim latencyNs (min · latencyNs))
    latencyMaxNs := some (m.latencyMaxNs.elim latencyNs (max · latencyNs)) }

def Matcher.tx (m : Matcher) (data : Payload) (arrival : TxArrival) : Matcher :=
  let m := { m with totalTx := m.totalTx + 1 }
  match queue m.pendingRx data with
  | received :: rest => { m with pendingRx := put m.pendingRx data rest }.write ⟨data, arrival, received⟩
  | [] => { m with pendingTx := put m.pendingTx data (queue m.pendingTx data ++ [arrival]) }

def Matcher.rx (m : Matcher) (data : Payload) (arrival : RxArrival) : Matcher :=
  let m := { m with totalRx := m.totalRx + 1 }
  match queue m.pendingTx data with
  -- kept: the RX line can arrive first
  | [] => { m with pendingRx := put m.pendingRx data (queue m.pendingRx data ++ [arrival]) }
  | sent :: rest => { m with pendingTx := put m.pendingTx data rest }.write ⟨data, sent, arrival⟩

/-- The while loop of expire, for one payload. -/
def Matcher.expireQueue (expired : TxArrival → Bool) (m : Matcher) (data : Payload) : Matcher :=
  let entries := queue m.pendingTx data
  { m with
    pendingTx := put m.pendingTx data (entries.dropWhile expired)
    lost := m.lost + (entries.takeWhile expired).length }

def Matcher.expire (m : Matcher) (nowNs timeoutNs : Int) (force : Bool) : Matcher :=
  m.pendingTx.keys.foldl (Matcher.expireQueue fun entry => force || decide (timeoutNs < nowNs - entry.timestampNs)) m

/-! ### Calls -/

/-- A line from one of the two ports. -/
inductive Arrival where
  | tx (data : Payload) (arrival : TxArrival)
  | rx (data : Payload) (arrival : RxArrival)

inductive MatcherCall where
  | arrival (arrival : Arrival)
  | expire (nowNs timeoutNs : Int) (force : Bool)

def Matcher.arrive (m : Matcher) : Arrival → Matcher
  | .tx data arrival => m.tx data arrival
  | .rx data arrival => m.rx data arrival

def Matcher.call (m : Matcher) : MatcherCall → Matcher
  | .arrival arrival => m.arrive arrival
  | .expire nowNs timeoutNs force => m.expire nowNs timeoutNs force

def Matcher.arrivals (m : Matcher) (arrivals : List Arrival) : Matcher := arrivals.foldl Matcher.arrive m

def Matcher.calls (m : Matcher) (calls : List MatcherCall) : Matcher := calls.foldl Matcher.call m

/-- The TX arrivals of one payload, in their order. -/
def txOf (data : Payload) (arrivals : List Arrival) : List TxArrival :=
  arrivals.filterMap fun
    | .tx other arrival => if other = data then some arrival else none
    | .rx _ _ => none

def rxOf (data : Payload) (arrivals : List Arrival) : List RxArrival :=
  arrivals.filterMap fun
    | .tx _ _ => none
    | .rx other arrival => if other = data then some arrival else none

section
variable (data other : Payload) (tx : TxArrival) (rx : RxArrival) (arrivals : List Arrival)

@[simp] theorem txOf_nil : txOf data [] = [] := rfl

@[simp] theorem rxOf_nil : rxOf data [] = [] := rfl

theorem txOf_tx : txOf data (.tx other tx :: arrivals) =
    if other = data then tx :: txOf data arrivals else txOf data arrivals := by
  unfold txOf
  rw [List.filterMap_cons]
  by_cases same : other = data
  · simp [same]
  · simp [same]

theorem txOf_rx : txOf data (.rx other rx :: arrivals) = txOf data arrivals := rfl

theorem rxOf_tx : rxOf data (.tx other tx :: arrivals) = rxOf data arrivals := rfl

theorem rxOf_rx : rxOf data (.rx other rx :: arrivals) =
    if other = data then rx :: rxOf data arrivals else rxOf data arrivals := by
  unfold rxOf
  rw [List.filterMap_cons]
  by_cases same : other = data
  · simp [same]
  · simp [same]

end

/-- The pairs that were written for one payload. -/
def pairsOf (data : Payload) (rows : List Row) : List (TxArrival × RxArrival) :=
  rows.filterMap fun row => if row.data = data then some (row.tx, row.rx) else none

/-! ### Counters -/

/-- Every arrival is counted once, and no payload has entries of both kinds. -/
structure Matcher.Balanced (m : Matcher) : Prop where
  tx : m.totalTx = m.matched + m.lost + size m.pendingTx
  rx : m.totalRx = m.matched + size m.pendingRx
  apart : ∀ data, queue m.pendingTx data = [] ∨ queue m.pendingRx data = []

section
variable {m : Matcher}

theorem Matcher.Balanced.init : Matcher.init.Balanced := ⟨rfl, rfl, fun _ => .inl rfl⟩

theorem Matcher.Balanced.tx_step (balanced : m.Balanced) (data : Payload) (arrival : TxArrival) :
    (m.tx data arrival).Balanced := by
  have tx := balanced.tx
  have rx := balanced.rx
  unfold Matcher.tx
  dsimp only
  cases waiting : queue m.pendingRx data with
  | nil =>
    have grown := size_push m.pendingTx data arrival
    refine ⟨?_, rx, apart_put balanced.apart (.inr waiting)⟩
    dsimp only
    omega
  | cons received rest =>
    have shrunk := size_pop m.pendingRx waiting
    have alone : queue m.pendingTx data = [] :=
      (balanced.apart data).resolve_right (waiting ▸ List.cons_ne_nil received rest)
    refine ⟨?_, ?_, fun other => (apart_put (fun key => (balanced.apart key).symm) (.inr alone) other).symm⟩
    · dsimp only [Matcher.write]
      omega
    · dsimp only [Matcher.write]
      omega

theorem Matcher.Balanced.rx_step (balanced : m.Balanced) (data : Payload) (arrival : RxArrival) :
    (m.rx data arrival).Balanced := by
  have tx := balanced.tx
  have rx := balanced.rx
  unfold Matcher.rx
  dsimp only
  cases waiting : queue m.pendingTx data with
  | nil =>
    have grown := size_push m.pendingRx data arrival
    refine ⟨tx, ?_, fun other => (apart_put (fun key => (balanced.apart key).symm) (.inr waiting) other).symm⟩
    dsimp only
    omega
  | cons sent rest =>
    have shrunk := size_pop m.pendingTx waiting
    have alone : queue m.pendingRx data = [] :=
      (balanced.apart data).resolve_left (waiting ▸ List.cons_ne_nil sent rest)
    refine ⟨?_, ?_, apart_put balanced.apart (.inr alone)⟩
    · dsimp only [Matcher.write]
      omega
    · dsimp only [Matcher.write]
      omega

/-- An entry that expires moves from the pending ones to the lost ones. -/
theorem Matcher.Balanced.expireQueue_step (balanced : m.Balanced) (expired : TxArrival → Bool) (data : Payload) :
    (m.expireQueue expired data).Balanced := by
  have tx := balanced.tx
  have shrunk := size_put m.pendingTx data ((queue m.pendingTx data).dropWhile expired)
  have split := congrArg List.length (@List.takeWhile_append_dropWhile _ expired (queue m.pendingTx data))
  rw [List.length_append] at split
  refine ⟨?_, balanced.rx, apart_put balanced.apart ((balanced.apart data).imp_left fun alone => ?_)⟩
  · dsimp only [Matcher.expireQueue]
    omega
  · rw [alone]
    rfl

theorem Matcher.Balanced.call_step (balanced : m.Balanced) (call : MatcherCall) : (m.call call).Balanced := by
  cases call with
  | arrival arrival =>
    cases arrival with
    | tx data arrival => exact balanced.tx_step data arrival
    | rx data arrival => exact balanced.rx_step data arrival
  | expire nowNs timeoutNs force =>
    rw [Matcher.call, Matcher.expire]
    generalize m.pendingTx.keys = keys
    induction keys generalizing m with
    | nil => exact balanced
    | cons data keys ih => exact ih (balanced.expireQueue_step _ data)

theorem Matcher.Balanced.calls (balanced : m.Balanced) (calls : List MatcherCall) : (m.calls calls).Balanced := by
  induction calls generalizing m with
  | nil => exact balanced
  | cons call calls ih => exact ih (balanced.call_step call)

end

/-! ### Pairs -/

/-- For one payload, the pairs written after `old` and what waits are all of its arrivals. -/
def Matcher.PairsOff (data : Payload) (old : List (TxArrival × RxArrival)) (txs : List TxArrival)
    (rxs : List RxArrival) (m : Matcher) : Prop :=
  ∃ pairs, pairsOf data m.written = old ++ pairs ∧
    PairedOff txs rxs pairs (queue m.pendingTx data) (queue m.pendingRx data)

theorem pairsOf_concat (data : Payload) (rows : List Row) (row : Row) :
    pairsOf data (rows ++ [row]) = pairsOf data rows ++ if row.data = data then [(row.tx, row.rx)] else [] := by
  rw [pairsOf, List.filterMap_append]
  by_cases same : row.data = data
  · simp [pairsOf, same]
  · simp [pairsOf, same]

section
variable {m : Matcher} {data : Payload} {old : List (TxArrival × RxArrival)} {txs : List TxArrival}
    {rxs : List RxArrival}

theorem Matcher.PairsOff.tx_step (paired : m.PairsOff data old txs rxs) (arrival : TxArrival) :
    (m.tx data arrival).PairsOff data old (txs ++ [arrival]) rxs := by
  obtain ⟨pairs, written, paired⟩ := paired
  unfold Matcher.tx
  dsimp only
  cases waiting : queue m.pendingRx data with
  | nil =>
    rw [waiting] at paired
    refine ⟨pairs, written, ?_⟩
    rw [queue_put, waiting]
    exact paired.waits
  | cons received rest =>
    rw [waiting] at paired
    refine ⟨pairs ++ [(arrival, received)], ?_, ?_⟩
    · dsimp only [Matcher.write]
      rw [pairsOf_concat, if_pos rfl, written, List.append_assoc]
    · dsimp only [Matcher.write]
      rw [queue_put]
      exact paired.meets

theorem Matcher.PairsOff.rx_step (paired : m.PairsOff data old txs rxs) (arrival : RxArrival) :
    (m.rx data arrival).PairsOff data old txs (rxs ++ [arrival]) := by
  obtain ⟨pairs, written, paired⟩ := paired
  unfold Matcher.rx
  dsimp only
  cases waiting : queue m.pendingTx data with
  | nil =>
    rw [waiting] at paired
    refine ⟨pairs, written, ?_⟩
    rw [queue_put, waiting]
    exact paired.waits_right
  | cons sent rest =>
    rw [waiting] at paired
    refine ⟨pairs ++ [(sent, arrival)], ?_, ?_⟩
    · dsimp only [Matcher.write]
      rw [pairsOf_concat, if_pos rfl, written, List.append_assoc]
    · dsimp only [Matcher.write]
      rw [queue_put]
      exact paired.meets_right

/-- An arrival of another payload changes nothing for this one. -/
theorem Matcher.PairsOff.tx_other (paired : m.PairsOff data old txs rxs) {other : Payload}
    (different : data ≠ other) (arrival : TxArrival) : (m.tx other arrival).PairsOff data old txs rxs := by
  obtain ⟨pairs, written, paired⟩ := paired
  unfold Matcher.tx
  dsimp only
  split
  · refine ⟨pairs, ?_, ?_⟩
    · dsimp only [Matcher.write]
      rw [pairsOf_concat, if_neg different.symm, List.append_nil, written]
    · dsimp only [Matcher.write]
      rwa [queue_put_ne _ _ _ different]
  · refine ⟨pairs, written, ?_⟩
    rwa [queue_put_ne _ _ _ different]

theorem Matcher.PairsOff.rx_other (paired : m.PairsOff data old txs rxs) {other : Payload}
    (different : data ≠ other) (arrival : RxArrival) : (m.rx other arrival).PairsOff data old txs rxs := by
  obtain ⟨pairs, written, paired⟩ := paired
  unfold Matcher.rx
  dsimp only
  split
  · refine ⟨pairs, written, ?_⟩
    rwa [queue_put_ne _ _ _ different]
  · refine ⟨pairs, ?_, ?_⟩
    · dsimp only [Matcher.write]
      rw [pairsOf_concat, if_neg different.symm, List.append_nil, written]
    · dsimp only [Matcher.write]
      rwa [queue_put_ne _ _ _ different]

theorem Matcher.PairsOff.arrivals (paired : m.PairsOff data old txs rxs) (arrivals : List Arrival) :
    (m.arrivals arrivals).PairsOff data old (txs ++ txOf data arrivals) (rxs ++ rxOf data arrivals) := by
  induction arrivals generalizing m txs rxs with
  | nil =>
    rw [txOf_nil, rxOf_nil, List.append_nil, List.append_nil]
    exact paired
  | cons arrival arrivals ih =>
    cases arrival with
    | tx other arrival =>
      rw [txOf_tx, rxOf_tx]
      by_cases same : other = data
      · subst same
        rw [if_pos rfl, ← List.singleton_append, ← List.append_assoc]
        exact ih (paired.tx_step arrival)
      · rw [if_neg same]
        exact ih (paired.tx_other (Ne.symm same) arrival)
    | rx other arrival =>
      rw [txOf_rx, rxOf_rx]
      by_cases same : other = data
      · subst same
        rw [if_pos rfl, ← List.singleton_append (l := rxOf other arrivals), ← List.append_assoc rxs]
        exact ih (paired.rx_step arrival)
      · rw [if_neg same]
        exact ih (paired.rx_other (Ne.symm same) arrival)

end

/-- Rows with the same pairs for every payload are the same rows. -/
theorem perm_of_pairsOf {rows rows' : List Row} (same : ∀ data, pairsOf data rows = pairsOf data rows') :
    rows.Perm rows' := by
  have counted (rows : List Row) (row : Row) : rows.count row = (pairsOf row.data rows).count (row.tx, row.rx) := by
    induction rows using List.reverseRecOn with
    | nil => rfl
    | append_singleton rows last ih =>
      rw [pairsOf_concat, List.count_append, List.count_append, ih]
      congr 1
      by_cases same : last.data = row.data
      · have whole : last = row ↔ (last.tx, last.rx) = (row.tx, row.rx) := by
          cases last
          cases row
          simp_all
        rw [if_pos same, List.count_singleton, List.count_singleton, beq_eq_decide, beq_eq_decide,
          decide_eq_decide.mpr whole]
      · rw [if_neg same, List.count_nil, List.count_singleton,
          beq_false_of_ne fun whole => same (congrArg Row.data whole)]
        rfl
  rw [List.perm_iff_count]
  intro row
  rw [counted, counted, same]

/-- The counters balance after every sequence of calls, and no payload has entries of both
kinds. From there on, up to the next expiry, the k-th TX of a payload is written with its
k-th RX, those that were pending included; so two interleavings of the same arrivals write the same rows. -/
theorem matcher_confluent (calls : List MatcherCall) :
    let m := Matcher.init.calls calls
    (m.totalTx = m.matched + m.lost + size m.pendingTx ∧ m.totalRx = m.matched + size m.pendingRx ∧
      ∀ data, queue m.pendingTx data = [] ∨ queue m.pendingRx data = []) ∧
    (∀ arrivals data, pairsOf data (m.arrivals arrivals).written = pairsOf data m.written ++
      (queue m.pendingTx data ++ txOf data arrivals).zip (queue m.pendingRx data ++ rxOf data arrivals)) ∧
    ∀ arrivals arrivals', (∀ data, txOf data arrivals = txOf data arrivals') →
      (∀ data, rxOf data arrivals = rxOf data arrivals') →
      (m.arrivals arrivals).written.Perm (m.arrivals arrivals').written := by
  intro m
  have balanced : m.Balanced := Matcher.Balanced.init.calls calls
  have paired (arrivals : List Arrival) (data : Payload) :
    pairsOf data (m.arrivals arrivals).written = pairsOf data m.written ++
      (queue m.pendingTx data ++ txOf data arrivals).zip (queue m.pendingRx data ++ rxOf data arrivals) := by
    have start : m.PairsOff data (pairsOf data m.written) (queue m.pendingTx data) (queue m.pendingRx data) :=
      ⟨[], (List.append_nil _).symm, .start (balanced.apart data)⟩
    obtain ⟨pairs, written, pairedOff⟩ := start.arrivals arrivals
    rw [written, pairedOff.pairs_eq]
  refine ⟨⟨balanced.tx, balanced.rx, balanced.apart⟩, paired, ?_⟩
  intro arrivals arrivals' tx rx
  apply perm_of_pairsOf
  intro data
  rw [paired, paired, tx, rx]

def sentLine : TxArrival := ⟨1000, "/dev/ttyACM0", none, none⟩

def receivedLine : RxArrival := ⟨7, 900, "/dev/ttyACM1", none, none⟩

/-- The RX line of a packet comes in before its TX line, or behind it. -/
theorem matcher_confluent_swapped : (Matcher.init.arrivals [.tx [0xAA] sentLine, .rx [0xAA] receivedLine]).written.Perm
    (Matcher.init.arrivals [.rx [0xAA] receivedLine, .tx [0xAA] sentLine]).written :=
  (matcher_confluent []).2.2 _ _ (fun data => by rw [txOf_tx, txOf_rx, txOf_rx, txOf_tx])
    fun data => by rw [rxOf_tx, rxOf_rx, rxOf_rx, rxOf_tx]

end Cc1310Firmware.Analysis
