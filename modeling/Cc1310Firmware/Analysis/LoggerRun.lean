import Cc1310Firmware.Analysis.LogLines
import Cc1310Firmware.Analysis.LogMatcher
import Cc1310Firmware.Programs.Runs

/-! rf_latency_logger.py with one thread for each port and the main loop.

Between the answer of PortRoles.accept and its call of the matcher a thread holds no
lock, so the other threads and the main loop may come between.
-/

set_option autoImplicit false

namespace Cc1310Firmware.Analysis
open KeyedQueues LabelledRun

deriving instance DecidableEq for Arrival

/-! ### Ports -/

inductive LogKind where
  | tx
  | rx
  deriving DecidableEq, Repr

structure PortRoles where
  txDevice : Option String
  rxDevices : List String
  deriving DecidableEq, Repr

def PortRoles.accept (roles : PortRoles) (device : String) : LogKind → Bool × PortRoles
  | .tx =>
    let roles := if roles.txDevice = none then { roles with txDevice := some device } else roles
    (decide (roles.txDevice = some device), roles)
  | .rx =>
    if roles.txDevice = some device then (false, roles)
    else (true, if device ∈ roles.rxDevices then roles else { roles with rxDevices := device :: roles.rxDevices })

def LogEntry.kind : LogEntry → LogKind
  | .tx _ _ _ => .tx
  | .rx _ _ _ _ _ => .rx

/-- The call of the matcher, with the time and the port. -/
def LogCall.arrival (call : LogCall) (receivedNs : Int) (device : String) : Arrival :=
  match call with
  | .tx data tick localUs => .tx data ⟨receivedNs, device, tick, localUs⟩
  | .rx seq data tick localUs => .rx data ⟨seq, receivedNs, device, tick, localUs⟩

/-! ### The logger -/

structure Logger where
  roles : PortRoles
  matcher : Matcher
  /-- The call that the thread of a port is about to make. -/
  threads : String → Option Arrival

def Logger.start : Logger := ⟨⟨none, []⟩, .init, fun _ => none⟩

/-- The thread of `device` with a line, up to the answer of accept. -/
def Logger.line (s : Logger) (device : String) (receivedNs : Int) (raw : List Byte) : Logger :=
  match logEntry raw with
  | none => s
  | some entry =>
    let (accepted, roles) := s.roles.accept device entry.kind
    { s with
      roles := roles
      threads := Function.update s.threads device
        (if accepted then entry.call.map (·.arrival receivedNs device) else none) }

def expireTimeoutNs : Int := 1000000000

inductive LoggerEvent where
  | line (device : String) (receivedNs : Int) (raw : List Byte)
  | deliver (device : String) (arrival : Arrival)
  | expire (nowNs : Int)

inductive LoggerStep : Logger → LoggerEvent → Logger → Prop where
  | line {s : Logger} (device : String) (receivedNs : Int) (raw : List Byte) : s.threads device = none →
      LoggerStep s (.line device receivedNs raw) (s.line device receivedNs raw)
  | deliver {s : Logger} {device : String} {arrival : Arrival} : s.threads device = some arrival →
      LoggerStep s (.deliver device arrival) { s with
        matcher := s.matcher.arrive arrival
        threads := Function.update s.threads device none }
  | expire {s : Logger} (nowNs : Int) :
      LoggerStep s (.expire nowNs) { s with matcher := s.matcher.expire nowNs expireTimeoutNs false }

abbrev LoggerTransition := Transition Logger LoggerEvent

/-- The lines that reached the matcher, in order. -/
def delivered (history : List LoggerTransition) : List Arrival :=
  history.filterMap fun x => match x.event with
    | .deliver _ arrival => some arrival
    | _ => none

def Arrival.kind : Arrival → LogKind
  | .tx _ _ => .tx
  | .rx _ _ => .rx

/-- summary, before its fields are formatted; the latencies are in milliseconds. -/
structure LatencySummary where
  validTx : Nat
  validRx : Nat
  matched : Nat
  lostTx : Nat
  unmatchedRx : Nat
  latency : Option (ℚ × ℚ × ℚ)

def Matcher.summary (m : Matcher) : LatencySummary where
  validTx := m.totalTx
  validRx := m.totalRx
  matched := m.matched
  lostTx := m.lost
  unmatchedRx := size m.pendingRx
  latency := if m.matched = 0 then none else
    some ((m.latencyMinNs.getD 0 : ℚ) / 1000000, (m.latencySumNs : ℚ) / m.matched / 1000000,
      (m.latencyMaxNs.getD 0 : ℚ) / 1000000)

/-! ### What the matcher holds -/

/-- All entries of the matcher are good, those in its rows included. -/
structure Matcher.All (m : Matcher) (goodTx : Payload → TxArrival → Prop) (goodRx : Payload → RxArrival → Prop) :
    Prop where
  tx : ∀ data, ∀ entry ∈ queue m.pendingTx data, goodTx data entry
  rx : ∀ data, ∀ entry ∈ queue m.pendingRx data, goodRx data entry
  rows : ∀ row ∈ m.written, goodTx row.data row.tx ∧ goodRx row.data row.rx

/-- An arrival that is good. -/
def Arrival.Good (goodTx : Payload → TxArrival → Prop) (goodRx : Payload → RxArrival → Prop) : Arrival → Prop
  | .tx data entry => goodTx data entry
  | .rx data entry => goodRx data entry

section
variable {m : Matcher} {goodTx goodTx' : Payload → TxArrival → Prop} {goodRx goodRx' : Payload → RxArrival → Prop}

theorem Matcher.All.mono (all : m.All goodTx goodRx) (tx : ∀ data entry, goodTx data entry → goodTx' data entry)
    (rx : ∀ data entry, goodRx data entry → goodRx' data entry) : m.All goodTx' goodRx' where
  tx data entry member := tx data entry (all.tx data entry member)
  rx data entry member := rx data entry (all.rx data entry member)
  rows row member := (all.rows row member).imp (tx _ _) (rx _ _)

/-- The entries of a queue that changes. -/
theorem forall_put {ε : Type} {good : Payload → ε → Prop} {queues : Queues Payload ε} {data : Payload}
    {entries : List ε} (others : ∀ other, ∀ entry ∈ queue queues other, good other entry)
    (here : ∀ entry ∈ entries, good data entry)
    (other : Payload) : ∀ entry ∈ queue (put queues data entries) other, good other entry := by
  by_cases same : other = data
  · subst same
    rw [queue_put]
    exact here
  · rw [queue_put_ne _ _ _ same]
    exact others other

theorem Matcher.All.tx_step (all : m.All goodTx goodRx) {data : Payload} {entry : TxArrival}
    (good : goodTx data entry) :
    (m.tx data entry).All goodTx goodRx := by
  unfold Matcher.tx
  dsimp only
  cases waiting : queue m.pendingRx data with
  | nil =>
    refine ⟨forall_put all.tx ?_, all.rx, all.rows⟩
    intro other member
    rcases List.mem_append.mp member with old | new
    · exact all.tx data other old
    · rw [List.mem_singleton.mp new]
      exact good
  | cons received rest =>
    have queued := all.rx data
    rw [waiting] at queued
    obtain ⟨first, rest_⟩ := List.forall_mem_cons.mp queued
    refine ⟨all.tx, forall_put all.rx rest_, ?_⟩
    intro row member
    rcases List.mem_append.mp member with old | new
    · exact all.rows row old
    · rw [List.mem_singleton.mp new]
      exact ⟨good, first⟩

theorem Matcher.All.rx_step (all : m.All goodTx goodRx) {data : Payload} {entry : RxArrival}
    (good : goodRx data entry) :
    (m.rx data entry).All goodTx goodRx := by
  unfold Matcher.rx
  dsimp only
  cases waiting : queue m.pendingTx data with
  | nil =>
    refine ⟨all.tx, forall_put all.rx ?_, all.rows⟩
    intro other member
    rcases List.mem_append.mp member with old | new
    · exact all.rx data other old
    · rw [List.mem_singleton.mp new]
      exact good
  | cons sent rest =>
    have queued := all.tx data
    rw [waiting] at queued
    obtain ⟨first, rest_⟩ := List.forall_mem_cons.mp queued
    refine ⟨forall_put all.tx rest_, all.rx, ?_⟩
    intro row member
    rcases List.mem_append.mp member with old | new
    · exact all.rows row old
    · rw [List.mem_singleton.mp new]
      exact ⟨first, good⟩

theorem Matcher.All.arrive (all : m.All goodTx goodRx) {arrival : Arrival} (good : arrival.Good goodTx goodRx) :
    (m.arrive arrival).All goodTx goodRx := by
  cases arrival with
  | tx data entry => exact all.tx_step good
  | rx data entry => exact all.rx_step good

theorem Matcher.All.expire (all : m.All goodTx goodRx) (nowNs timeoutNs : Int) (force : Bool) :
    (m.expire nowNs timeoutNs force).All goodTx goodRx := by
  unfold Matcher.expire
  generalize m.pendingTx.keys = keys
  induction keys generalizing m with
  | nil => exact all
  | cons data keys ih =>
    refine ih ⟨forall_put all.tx ?_, all.rx, all.rows⟩
    intro entry member
    exact all.tx data entry ((List.dropWhile_suffix _).mem member)

end

/-! ### Figures -/

def Row.latencyNs (row : Row) : Int := row.rx.timestampNs - row.tx.timestampNs

/-- The counters are those of the rows. -/
structure Matcher.Figures (m : Matcher) : Prop where
  matched : m.matched = m.written.length
  sum : m.latencySumNs = (m.written.map Row.latencyNs).sum
  least : m.latencyMinNs = (m.written.map Row.latencyNs).min?
  greatest : m.latencyMaxNs = (m.written.map Row.latencyNs).max?

theorem min?_concat (values : List Int) (last : Int) :
    (values ++ [last]).min? = some (values.min?.elim last (min · last)) := by
  cases values with
  | nil => rfl
  | cons first values =>
    rw [List.cons_append, List.min?_cons', List.min?_cons', List.foldl_append]
    rfl

theorem max?_concat (values : List Int) (last : Int) :
    (values ++ [last]).max? = some (values.max?.elim last (max · last)) := by
  cases values with
  | nil => rfl
  | cons first values =>
    rw [List.cons_append, List.max?_cons', List.max?_cons', List.foldl_append]
    rfl

section
variable {m : Matcher}

theorem Matcher.Figures.write (figures : m.Figures) (row : Row) : (m.write row).Figures := by
  refine ⟨?_, ?_, ?_, ?_⟩
  · change m.matched + 1 = (m.written ++ [row]).length
    rw [figures.matched, List.length_append]
    rfl
  · change m.latencySumNs + row.latencyNs = ((m.written ++ [row]).map Row.latencyNs).sum
    rw [figures.sum, List.map_append, List.sum_append]
    simp
  · change some (m.latencyMinNs.elim row.latencyNs (min · row.latencyNs)) =
      ((m.written ++ [row]).map Row.latencyNs).min?
    rw [List.map_append, List.map_singleton, min?_concat, figures.least]
  · change some (m.latencyMaxNs.elim row.latencyNs (max · row.latencyNs)) =
      ((m.written ++ [row]).map Row.latencyNs).max?
    rw [List.map_append, List.map_singleton, max?_concat, figures.greatest]

/-- Queues and totals do not enter the figures. -/
theorem Matcher.Figures.congr (figures : m.Figures) (pendingTx : Queues Payload TxArrival)
    (pendingRx : Queues Payload RxArrival) (totalTx totalRx lost : Nat) :
    Matcher.Figures { m with
      pendingTx := pendingTx
      pendingRx := pendingRx
      totalTx := totalTx
      totalRx := totalRx
      lost := lost } :=
  ⟨figures.matched, figures.sum, figures.least, figures.greatest⟩

theorem Matcher.Figures.arrive (figures : m.Figures) (arrival : Arrival) : (m.arrive arrival).Figures := by
  cases arrival with
  | tx data entry =>
    unfold Matcher.arrive Matcher.tx
    dsimp only
    split
    · exact (figures.congr m.pendingTx _ (m.totalTx + 1) m.totalRx m.lost).write _
    · exact figures.congr _ m.pendingRx (m.totalTx + 1) m.totalRx m.lost
  | rx data entry =>
    unfold Matcher.arrive Matcher.rx
    dsimp only
    split
    · exact figures.congr m.pendingTx _ m.totalTx (m.totalRx + 1) m.lost
    · exact (figures.congr _ m.pendingRx m.totalTx (m.totalRx + 1) m.lost).write _

theorem Matcher.Figures.expire (figures : m.Figures) (nowNs timeoutNs : Int) (force : Bool) :
    (m.expire nowNs timeoutNs force).Figures := by
  unfold Matcher.expire
  generalize m.pendingTx.keys = keys
  induction keys generalizing m with
  | nil => exact figures
  | cons data keys ih => exact ih (figures.congr _ m.pendingRx m.totalTx m.totalRx _)

theorem Matcher.arrive_totals (arrival : Arrival) :
    (m.arrive arrival).totalTx = m.totalTx + (if arrival.kind = .tx then 1 else 0) ∧
      (m.arrive arrival).totalRx = m.totalRx + (if arrival.kind = .rx then 1 else 0) := by
  cases arrival with
  | tx data entry =>
    unfold Matcher.arrive Matcher.tx
    dsimp only
    split <;> exact ⟨rfl, rfl⟩
  | rx data entry =>
    unfold Matcher.arrive Matcher.rx
    dsimp only
    split <;> exact ⟨rfl, rfl⟩

/-- expire leaves the rows and the totals. -/
theorem Matcher.expire_keeps (nowNs timeoutNs : Int) (force : Bool) :
    (m.expire nowNs timeoutNs force).written = m.written ∧ (m.expire nowNs timeoutNs force).totalTx = m.totalTx ∧
      (m.expire nowNs timeoutNs force).totalRx = m.totalRx ∧
      (m.expire nowNs timeoutNs force).pendingRx = m.pendingRx := by
  unfold Matcher.expire
  generalize m.pendingTx.keys = keys
  induction keys generalizing m with
  | nil => exact ⟨rfl, rfl, rfl, rfl⟩
  | cons data keys ih =>
    obtain ⟨written, totalTx, totalRx, pendingRx⟩ := @ih (m.expireQueue _ data)
    exact ⟨written, totalTx, totalRx, pendingRx⟩

end

/-! ### The forced expiry at the end -/

theorem size_eq_zero {ε : Type} {queues : Queues Payload ε} (empty : ∀ data, queue queues data = []) :
    size queues = 0 := by
  unfold size
  apply List.sum_eq_zero
  intro length member
  obtain ⟨entry, listed, rfl⟩ := List.mem_map.mp member
  have found : queues.lookup entry.1 = some entry.2 := AList.mem_lookup_iff.mpr listed
  have none_ := empty entry.1
  unfold queue at none_
  rw [found, Option.getD_some] at none_
  rw [none_]
  rfl

section
variable {m : Matcher}

/-- The queues of `keys` are emptied, and no other one changes. -/
theorem Matcher.expireAll_queue (keys : List Payload) (data : Payload) :
    queue (keys.foldl (Matcher.expireQueue fun _ => true) m).pendingTx data =
      if data ∈ keys then [] else queue m.pendingTx data := by
  induction keys generalizing m with
  | nil => rfl
  | cons key keys ih =>
    rw [List.foldl_cons, ih]
    by_cases later : data ∈ keys
    · rw [if_pos later, if_pos (List.mem_cons_of_mem key later)]
    · rw [if_neg later]
      unfold Matcher.expireQueue
      dsimp only
      by_cases here : data = key
      · subst here
        rw [queue_put, if_pos List.mem_cons_self, List.dropWhile_eq_nil_iff]
        exact fun _ _ => rfl
      · rw [queue_put_ne _ _ _ here, if_neg]
        exact fun member => (List.mem_cons.mp member).elim here later

theorem Matcher.forced_empty (nowNs timeoutNs : Int) : size (m.expire nowNs timeoutNs true).pendingTx = 0 := by
  apply size_eq_zero
  intro data
  have emptied := @Matcher.expireAll_queue m m.pendingTx.keys data
  change queue (m.pendingTx.keys.foldl (Matcher.expireQueue fun _ => true) m).pendingTx data = []
  rw [emptied]
  split
  · rfl
  · case isFalse absent =>
    unfold queue
    rw [AList.lookup_eq_none.mpr absent]
    rfl

end

/-! ### Roles -/

/-- What may have become of the roles: the TX port stays, ports are only added, and the TX port is not added. -/
structure PortRoles.Grows (before after : PortRoles) : Prop where
  tx : ∀ device, before.txDevice = some device → after.txDevice = some device
  rx : ∀ device ∈ before.rxDevices, device ∈ after.rxDevices
  apart : ∀ device, before.txDevice = some device → device ∈ after.rxDevices → device ∈ before.rxDevices

section
variable {roles before middle after : PortRoles} {device : String}

theorem PortRoles.Grows.refl : roles.Grows roles := ⟨fun _ h => h, fun _ h => h, fun _ _ h => h⟩

theorem PortRoles.Grows.trans (first : before.Grows middle) (second : middle.Grows after) : before.Grows after where
  tx device h := second.tx device (first.tx device h)
  rx device h := second.rx device (first.rx device h)
  apart device h member := first.apart device h (second.apart device (first.tx device h) member)

theorem PortRoles.accept_grows (kind : LogKind) : roles.Grows (roles.accept device kind).2 := by
  cases kind with
  | tx =>
    unfold PortRoles.accept
    dsimp only
    by_cases first : roles.txDevice = none
    · rw [if_pos first]
      refine ⟨?_, fun _ h => h, fun _ _ h => h⟩
      intro other known
      rw [first] at known
      cases known
    · rw [if_neg first]
      exact .refl
  | rx =>
    unfold PortRoles.accept
    by_cases own : roles.txDevice = some device
    · rw [if_pos own]
      exact .refl
    · rw [if_neg own]
      dsimp only
      split
      · exact .refl
      · refine ⟨fun _ h => h, fun _ h => List.mem_cons_of_mem _ h, ?_⟩
        intro other known member
        rcases List.mem_cons.mp member with rfl | old
        · exact absurd known own
        · exact old

theorem PortRoles.accept_tx (accepted : (roles.accept device .tx).1 = true) :
    (roles.accept device .tx).2.txDevice = some device :=
  of_decide_eq_true accepted

theorem PortRoles.accept_rx (accepted : (roles.accept device .rx).1 = true) :
    device ∈ (roles.accept device .rx).2.rxDevices := by
  unfold PortRoles.accept at accepted ⊢
  by_cases own : roles.txDevice = some device
  · rw [if_pos own] at accepted
    cases accepted
  · rw [if_neg own]
    dsimp only
    split
    · assumption
    · exact List.mem_cons_self

end

/-- A TX entry comes from the TX port, with a payload of the right size. -/
def PortRoles.GoodTx (roles : PortRoles) (data : Payload) (entry : TxArrival) : Prop :=
  roles.txDevice = some entry.device ∧ data.length = 30

/-- An RX entry comes from a port that was taken for a receiver. -/
def PortRoles.GoodRx (roles : PortRoles) (data : Payload) (entry : RxArrival) : Prop :=
  entry.device ∈ roles.rxDevices ∧ data.length = 30

/-! ### Runs -/

structure LoggerInv (history : List LoggerTransition) (s : Logger) : Prop where
  threads : ∀ device arrival, s.threads device = some arrival → arrival.Good s.roles.GoodTx s.roles.GoodRx
  entries : s.matcher.All s.roles.GoodTx s.roles.GoodRx
  figures : s.matcher.Figures
  balanced : s.matcher.Balanced
  totalTx : s.matcher.totalTx = (delivered history).countP fun arrival => arrival.kind = .tx
  totalRx : s.matcher.totalRx = (delivered history).countP fun arrival => arrival.kind = .rx

section
variable {history : List LoggerTransition} {s t : Logger} {event : LoggerEvent} {roles roles' : PortRoles}

theorem goodTx_mono (grows : roles.Grows roles') (data : Payload) (entry : TxArrival)
    (good : roles.GoodTx data entry) :
    roles'.GoodTx data entry :=
  good.imp_left (grows.tx _)

theorem goodRx_mono (grows : roles.Grows roles') (data : Payload) (entry : RxArrival)
    (good : roles.GoodRx data entry) :
    roles'.GoodRx data entry :=
  good.imp_left (grows.rx _)

theorem good_mono (grows : roles.Grows roles') {arrival : Arrival} (good : arrival.Good roles.GoodTx roles.GoodRx) :
    arrival.Good roles'.GoodTx roles'.GoodRx := by
  cases arrival with
  | tx data entry => exact goodTx_mono grows data entry good
  | rx data entry => exact goodRx_mono grows data entry good

/-- The call of a line that was accepted. -/
theorem good_of_accepted {device : String} {receivedNs : Int} {entry : LogEntry} {call : LogCall}
    (accepted : (roles.accept device entry.kind).1 = true) (call_ : entry.call = some call) :
    (call.arrival receivedNs device).Good (roles.accept device entry.kind).2.GoodTx
      (roles.accept device entry.kind).2.GoodRx := by
  cases entry with
  | tx data tick localUs =>
    cases data with
    | none => cases call_
    | some data =>
      obtain ⟨length, same⟩ := Option.ite_none_right_eq_some.mp call_
      obtain rfl := Option.some.inj same
      exact ⟨PortRoles.accept_tx accepted, length⟩
  | rx seq length data tick localUs =>
    cases data with
    | none => cases call_
    | some data =>
      obtain ⟨lengths, same⟩ := Option.ite_none_right_eq_some.mp call_
      obtain rfl := Option.some.inj same
      exact ⟨PortRoles.accept_rx accepted, lengths.2⟩

theorem LoggerStep.grows (step : LoggerStep s event t) : s.roles.Grows t.roles := by
  cases step with
  | line device receivedNs raw idle =>
    unfold Logger.line
    cases logEntry raw with
    | none => exact .refl
    | some entry => exact PortRoles.accept_grows entry.kind
  | deliver | expire => exact .refl

theorem delivered_concat (x : LoggerTransition) : delivered (history ++ [x]) = delivered history ++
    match x.event with
    | .deliver _ arrival => [arrival]
    | _ => [] := by
  unfold delivered
  rw [List.filterMap_append]
  cases h : x.event <;> simp [h]

theorem LoggerInv.step (inv : LoggerInv history s) (step : LoggerStep s event t) :
    LoggerInv (history ++ [⟨s, event, t⟩]) t := by
  have grows := step.grows
  have log := @delivered_concat history ⟨s, event, t⟩
  cases step with
  | line device receivedNs raw idle =>
    dsimp only at log
    rw [List.append_nil] at log
    have matcher : (s.line device receivedNs raw).matcher = s.matcher := by
      unfold Logger.line
      cases logEntry raw <;> rfl
    refine ⟨?_, ?_, ?_, ?_, ?_, ?_⟩
    · intro other arrival held
      unfold Logger.line at held grows ⊢
      cases entry_ : logEntry raw with
      | none =>
        rw [entry_] at held
        exact inv.threads other arrival held
      | some entry =>
        rw [entry_] at held grows
        dsimp only at held grows ⊢
        by_cases here : other = device
        · subst here
          rw [Function.update_self] at held
          obtain ⟨accepted, made⟩ := Option.ite_none_right_eq_some.mp held
          obtain ⟨call, call_, rfl⟩ := Option.map_eq_some_iff.mp made
          exact good_of_accepted accepted call_
        · rw [Function.update_of_ne here] at held
          exact good_mono grows (inv.threads other arrival held)
    · rw [matcher]
      exact inv.entries.mono (goodTx_mono grows) (goodRx_mono grows)
    · rw [matcher]
      exact inv.figures
    · rw [matcher]
      exact inv.balanced
    · rw [matcher, log]
      exact inv.totalTx
    · rw [matcher, log]
      exact inv.totalRx
  | @deliver device arrival held =>
    have totals := @Matcher.arrive_totals s.matcher arrival
    refine ⟨?_, inv.entries.arrive (inv.threads device arrival held), inv.figures.arrive arrival,
      inv.balanced.call_step (.arrival arrival), ?_, ?_⟩
    · intro other kept held'
      by_cases here : other = device
      · subst here
        dsimp only at held'
        rw [Function.update_self] at held'
        cases held'
      · dsimp only at held'
        rw [Function.update_of_ne here] at held'
        exact inv.threads other kept held'
    · rw [log, List.countP_append, List.countP_singleton, ← inv.totalTx]
      simpa using totals.1
    · rw [log, List.countP_append, List.countP_singleton, ← inv.totalRx]
      simpa using totals.2
  | expire nowNs =>
    dsimp only at log
    rw [List.append_nil] at log
    obtain ⟨_, totalTx, totalRx, _⟩ := @Matcher.expire_keeps s.matcher nowNs expireTimeoutNs false
    refine ⟨inv.threads, inv.entries.expire _ _ _, inv.figures.expire _ _ _,
      inv.balanced.call_step (.expire nowNs expireTimeoutNs false), ?_, ?_⟩
    · rw [log]
      exact totalTx.trans inv.totalTx
    · rw [log]
      exact totalRx.trans inv.totalRx

theorem LoggerInv.run (run : Run LoggerStep .start history s) : LoggerInv history s := by
  refine @Run.induction _ _ _ _ LoggerInv ?_ ?_ _ _ run
  · refine ⟨fun _ _ held => (by cases held), ⟨?_, ?_, ?_⟩, ⟨rfl, rfl, rfl, rfl⟩, .init, rfl, rfl⟩
    · exact fun data entry member => absurd member List.not_mem_nil
    · exact fun data entry member => absurd member List.not_mem_nil
    · exact fun row member => absurd member List.not_mem_nil
  · exact fun _ _ _ _ _ inv step => inv.step step

theorem grows_of_run {u : Logger} (run : Run LoggerStep s history u) : s.roles.Grows u.roles := by
  apply run.induction
  · exact .refl
  · exact fun _ _ _ _ _ grows step => grows.trans step.grows

end

/-- The summary after the forced expiry says of every order of lines, threads and expiries
what the file says: every line that reached the matcher is counted once, the latencies are
those of the rows, and no TX is left open. -/
theorem logger_summary_exact (history : List LoggerTransition) (s : Logger) (run : Run LoggerStep .start history s)
    (nowNs : Int) :
    let m := s.matcher.expire nowNs expireTimeoutNs true
    let latencies := m.written.map Row.latencyNs
    size m.pendingTx = 0 ∧ m.written = s.matcher.written ∧
    m.summary.validTx = (delivered history).countP (fun arrival => arrival.kind = .tx) ∧
    m.summary.validRx = (delivered history).countP (fun arrival => arrival.kind = .rx) ∧
    m.summary.matched = m.written.length ∧ m.summary.validTx = m.summary.matched + m.summary.lostTx ∧
    m.summary.validRx = m.summary.matched + m.summary.unmatchedRx ∧
    m.summary.latency = (latencies.min?.bind fun least : Int => latencies.max?.map fun greatest : Int =>
      ((least : ℚ) / 1000000, (latencies.sum : ℚ) / latencies.length / 1000000, (greatest : ℚ) / 1000000)) := by
  intro m latencies
  have inv := LoggerInv.run run
  have figures : m.Figures := inv.figures.expire nowNs expireTimeoutNs true
  have balanced : m.Balanced := inv.balanced.call_step (.expire nowNs expireTimeoutNs true)
  obtain ⟨written, totalTx, totalRx, _⟩ := @Matcher.expire_keeps s.matcher nowNs expireTimeoutNs true
  have empty : size m.pendingTx = 0 := Matcher.forced_empty nowNs expireTimeoutNs
  have tx := balanced.tx
  rw [empty] at tx
  refine ⟨empty, written, totalTx.trans inv.totalTx, totalRx.trans inv.totalRx, figures.matched, tx, balanced.rx,
    ?_⟩
  unfold Matcher.summary
  dsimp only
  rw [figures.least, figures.greatest, figures.sum, figures.matched, ← List.length_map Row.latencyNs]
  have same : m.written.map Row.latencyNs = latencies := rfl
  clear_value latencies
  rw [same]
  cases latencies with
  | nil => rfl
  | cons first rest => rfl

/-- Lines of a transmitter and of a receiver about the same packet. -/
def sentRaw : List Byte := Cli.text "TX: " ++ List.replicate 60 0x30

def heardRaw : List Byte := Cli.text "RX seq=7 len=30 data=" ++ List.replicate 60 0x30

def sentCall : Arrival := .tx (List.replicate 30 0) ⟨1000, "tx", none, none⟩

def heardCall : Arrival := .rx (List.replicate 30 0) ⟨7, 900, "rx", none, none⟩

/-- After the transmitter's line, after the receiver's, and after the receiver's call. -/
def identified : Logger := Logger.start.line "tx" 1000 sentRaw

def bothHeld : Logger := identified.line "rx" 900 heardRaw

def overtaken : Logger where
  roles := bothHeld.roles
  matcher := bothHeld.matcher.arrive heardCall
  threads := Function.update bothHeld.threads "rx" none

/-- The transmitter's thread is overtaken by the receiver's. -/
theorem overtaken_run : ∃ before after s, Run LoggerStep .start before identified ∧
    Run LoggerStep identified after s ∧
    (delivered (before ++ after)).map Arrival.kind = [.rx, .tx] := by
  have idle : identified.threads "rx" = none := by decide +kernel
  have first : bothHeld.threads "rx" = some heardCall := by decide +kernel
  have second : overtaken.threads "tx" = some sentCall := by decide +kernel
  have identify : LoggerStep .start (.line "tx" 1000 sentRaw) identified := .line _ _ _ rfl
  have hear : LoggerStep identified (.line "rx" 900 heardRaw) bothHeld := .line _ _ _ idle
  have overtake : LoggerStep bothHeld (.deliver "rx" heardCall) overtaken := .deliver first
  exact ⟨_, _, _, .single identify, ((Run.single hear).next overtake).next (.deliver second), rfl⟩

theorem logger_summary_exact_overtaken : ∃ history s, Run LoggerStep .start history s ∧
    (s.matcher.expire 2000 expireTimeoutNs true).summary.validTx = 1 := by
  obtain ⟨before, after, s, run, rest, kinds⟩ := overtaken_run
  refine ⟨_, s, run.append rest, ?_⟩
  rw [(logger_summary_exact _ s (run.append rest) 2000).2.2.1]
  have count := congrArg (List.countP fun kind => decide (kind = LogKind.tx)) kinds
  rw [List.countP_map] at count
  exact count

/-- Every row of the file pairs a line of the one TX port with a line of a receiver, both
with the same payload of 30 bytes. A port that was no receiver when it was identified as the TX
port is paired with itself in no row. -/
theorem rows_join_ports (before after : List LoggerTransition) (middle s : Logger)
    (run : Run LoggerStep .start before middle) (rest : Run LoggerStep middle after s) :
    (∀ row ∈ s.matcher.written, s.roles.txDevice = some row.tx.device ∧ row.rx.device ∈ s.roles.rxDevices ∧
      row.data.length = 30) ∧
    ∀ device, middle.roles.txDevice = some device → device ∉ middle.roles.rxDevices →
      ∀ row ∈ s.matcher.written, row.tx.device = device ∧ row.rx.device ≠ device := by
  have inv := LoggerInv.run (run.append rest)
  have grows := grows_of_run rest
  refine ⟨?_, ?_⟩
  · intro row member
    obtain ⟨⟨tx, length⟩, rx, _⟩ := inv.entries.rows row member
    exact ⟨tx, rx, length⟩
  · intro device known receiver row member
    obtain ⟨⟨tx, _⟩, rx, _⟩ := inv.entries.rows row member
    have same : row.tx.device = device := Option.some.inj (tx.symm.trans (grows.tx device known))
    refine ⟨same, ?_⟩
    rintro rfl
    exact receiver (grows.apart _ known rx)

theorem rows_join_ports_overtaken : ∃ history s, Run LoggerStep .start history s ∧
    ∀ row ∈ s.matcher.written, row.tx.device = "tx" ∧ row.rx.device ≠ "tx" := by
  obtain ⟨before, after, s, run, rest, _⟩ := overtaken_run
  have roles : identified.roles = ⟨some "tx", []⟩ := by decide +kernel
  refine ⟨_, s, run.append rest, (rows_join_ports before after identified s run rest).2 "tx" ?_ ?_⟩
  · rw [roles]
  · rw [roles]
    exact List.not_mem_nil

end Cc1310Firmware.Analysis
