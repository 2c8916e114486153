import Cc1310Firmware.Host.Exchange

/-! The requests of an upload, and what holds after each of them. -/

set_option autoImplicit false

namespace Cc1310Firmware.Host
open LittleEndian Bootloader LabelledRun Reactive StopAndWait

section
variable {chip : DeviceState} {x : Exchange (DeviceRun chip) (List Byte) (List Byte)} {sequence : Nat}

/-- The host waits for an answer. -/
def Waiting (x : Exchange (DeviceRun chip) (List Byte) (List Byte)) (sequence : Nat) (s : System chip) : Prop :=
  x.Open s.link ∧ s.sequence = sequence

/-- The host has taken an answer of this type and with this payload. -/
def Answered (x : Exchange (DeviceRun chip) (List Byte) (List Byte)) (sequence type : Nat) (payload : List Byte)
    (s : System chip) : Prop :=
  x.Closed s.link ∧ s.sequence = sequence ∧ ∃ wire, decode wire = some (type, sequence, payload) ∧
    x.answers wire s.link.server

theorem stable_waiting (respected : x.Respected Serves Idles) : Stable Moves (Waiting x sequence) := by
  rintro s t ⟨step, same⟩ ⟨open_, number⟩
  exact ⟨open_.step respected step, same.trans number⟩

theorem stable_answered (respected : x.Respected Serves Idles) (type : Nat) (payload : List Byte) :
    Stable Moves (Answered x sequence type payload) := by
  rintro s t ⟨step, same⟩ ⟨closed, number, wire, decoded, answers⟩
  obtain ⟨closed', kept⟩ := closed.step respected step
  exact ⟨closed', same.trans number, wire, decoded, kept wire answers⟩

/-- What readFrame leaves, by what it returns. -/
def Taken (x : Exchange (DeviceRun chip) (List Byte) (List Byte)) (sequence : Nat) :
    Option (Nat × Nat × List Byte) → System chip → Prop
  | none, s => Waiting x sequence s
  | some (type, number, payload), s =>
    Waiting x sequence s ∧ (number = sequence → Answered x sequence type payload s)

theorem taken {s t : System chip} {answer : Option (Nat × Nat × List Byte)} (waiting : Waiting x sequence s)
    (late : ∀ wire, x.late wire → ∀ type number payload, decode wire = some (type, number, payload) →
      number ≠ sequence)
    (reads : Does .readFrame s answer t) : Taken x sequence answer t := by
  -- a reply in front of the queue is an answer, unless it carries an earlier number
  rcases reads with ⟨rfl, rfl⟩ | ⟨wire, replies, head, decoded, some_, rfl⟩
  · exact waiting
  obtain ⟨open_, number⟩ := waiting
  obtain ⟨number', ⟨device, requests, replies'⟩⟩ := s
  dsimp only at head open_ number ⊢
  subst head
  obtain ⟨open', taken_⟩ := open_.take
  rcases answer with _ | ⟨type, received, payload⟩
  · exact absurd rfl some_
  refine ⟨⟨open', number⟩, ?_⟩
  rintro rfl
  rcases taken_ with early | ⟨answers, closed⟩
  · exact absurd rfl (late wire early _ _ _ decoded)
  · exact ⟨closed, number, wire, decoded, answers⟩

/-- A reply with the number of the request is not a late one. -/
theorem requestLoop_spec (respected : x.Respected Serves Idles) (expected : List Nat) (retries : Nat)
    (late : ∀ wire, x.late wire → ∀ type number payload, decode wire = some (type, number, payload) →
      number ≠ sequence) :
    Triple Moves Does (Waiting x sequence) (requestLoop x.request sequence expected retries)
      (fun answer s => answer.1 ∈ expected ∧ Answered x sequence answer.1 answer.2 s)
      (fun error s => error = .timeoutError ∧ Waiting x sequence s) := by
  induction retries with
  | zero =>
    refine Triple.throw ?_ fun s waiting => ⟨rfl, waiting⟩
    exact fun s t step both => ⟨both.1, stable_waiting respected s t step both.2⟩
  | succ retries ih =>
    unfold requestLoop
    refine Triple.perform (fun _ => Waiting x sequence) (stable_waiting respected) ?_ fun _ => ?_
    · rintro s _ t ⟨open_, number⟩ rfl
      exact ⟨open_.send, number⟩
    refine Triple.perform (Taken x sequence) (stable_waiting respected)
      (fun s answer t waiting => taken waiting late) fun answer => ?_
    rcases answer with _ | ⟨response, number, payload⟩
    · exact ih
    · dsimp only
      split
      case isTrue accepted =>
        refine Triple.pure ?_ fun s both => ⟨accepted.2, both.2 accepted.1⟩
        exact fun s t step both => ⟨both.1, stable_answered respected _ _ s t step both.2⟩
      case isFalse => exact ih.mono (fun s both => both.1) (fun _ _ => id) fun _ _ => id

end

/-! ### The requests of an upload -/

section
variable {chip : DeviceState} {upload : Upload}

/-- READY: the session has begun. -/
def beginTells (upload : Upload) (type : Nat) (_ : List Byte) (device : DeviceRun chip) : Prop :=
  type = kindReady → upload.Begun device.state

/-- ACK or NACK: how far the session is. -/
def dataTells (upload : Upload) (offset type : Nat) (payload : List Byte) (device : DeviceRun chip) : Prop :=
  type = kindAck ∨ type = kindNack → ∃ written : Word, payload = storeUint32Le written ∧
    (written.toNat = offset ∨ written.toNat = upload.next offset ∧ upload.Past offset device.state)

/-- The update is committed, if the sequence numbers have not wrapped. -/
def Completed (upload : Upload) (device : DeviceRun chip) : Prop :=
  recordsBegun device.history < 2 ^ 31 → upload.Committed device.state

/-- COMPLETE -/
def endTells (upload : Upload) (type : Nat) (_ : List Byte) (device : DeviceRun chip) : Prop :=
  type = kindComplete → Completed upload device

theorem hello_honoured (earlier frame : ProtocolFrame) :
    @Honoured chip earlier frame (fun _ => True) (fun _ => True) fun _ _ _ => True where
  servesEarlier _ _ _ _ _ _ _ := ⟨trivial, trivial⟩
  serves _ _ _ _ _ _ := ⟨trivial, fun _ _ => id, fun _ _ => trivial⟩
  idles _ _ _ _ _ _ := ⟨id, id, fun _ _ => id⟩

theorem begin_honoured (earlier : ProtocolFrame) {frame : ProtocolFrame} (begin_ : upload.IsBegin frame) :
    @Honoured chip earlier frame (fun _ => True) (fun _ => True) (beginTells upload) where
  servesEarlier _ _ _ _ _ _ _ := ⟨trivial, trivial⟩
  serves device event t step input _ := by
    obtain ⟨kept, ready⟩ := begin_.step step input
    refine ⟨trivial, fun type payload tells same => kept (tells same), ?_⟩
    intro reply output type
    exact ready reply output (BitVec.toNat_inj.mp type)
  idles device event t step noFrame _ := ⟨id, id, fun _ _ _ _ => Active.of_idle step noFrame⟩

theorem kept_sending {sequence : Half} {earlier offset : Nat} (within : offset ≤ upload.image.length)
    (inside : earlier < upload.image.length) (behind : earlier ≤ offset) :
    @Kept chip (upload.data sequence earlier) fun device => upload.Sending offset device.state where
  serves _ _ _ step input sending := (sending.data within inside behind step input).1
  idles _ _ _ step noFrame _ _ := Active.of_idle step noFrame

theorem data_honoured {earlier : ProtocolFrame} {before : DeviceRun chip → Prop} (sequence : Half) {offset : Nat}
    (inside : offset < upload.image.length)
    (earlier_ : ∀ device event t (step : DeviceStep device.state event t), event.input = .frame earlier →
      before device → upload.Sending offset device.state → before (device.next step) ∧ upload.Sending offset t)
    (idle : ∀ device event t (step : DeviceStep device.state event t), (∀ frame, event.input ≠ .frame frame) →
      before device → before (device.next step)) :
    Honoured earlier (upload.data sequence offset) before (fun device => upload.Sending offset device.state)
      (dataTells upload offset) where
  servesEarlier device event t step input before_ sending := earlier_ device event t step input before_ sending
  serves device event t step input sending := by
    obtain ⟨sending', past⟩ := Upload.Sending.data sending (Nat.le_of_lt inside) inside (Nat.le_refl _) step input
    refine ⟨sending', ?_, ?_⟩
    · intro type payload tells acknowledges
      obtain ⟨written, same, place⟩ := tells acknowledges
      exact ⟨written, same, place.imp id fun further => ⟨further.1, past further.2⟩⟩
    · intro reply output acknowledges
      rcases Upload.Sending.answer sending inside step input output with error | answer
      · rw [error] at acknowledges
        rcases acknowledges with same | same <;> cases same
      · exact answer
  idles device event t step noFrame _ := by
    refine ⟨idle device event t step noFrame, fun _ => Active.of_idle step noFrame, ?_⟩
    intro type payload tells acknowledges
    obtain ⟨written, same, place⟩ := tells acknowledges
    exact ⟨written, same, place.imp id fun further => ⟨further.1, Active.of_idle step noFrame⟩⟩

theorem data_honoured_first {earlier : ProtocolFrame} (begin_ : upload.IsBegin earlier) (sequence : Half)
    (inside : 0 < upload.image.length) : @Honoured chip earlier (upload.data sequence 0)
      (fun device => upload.Begun device.state) (fun device => upload.Sending 0 device.state) (dataTells upload 0) := by
  refine data_honoured sequence inside ?_ fun device event t step noFrame _ => Active.of_idle step noFrame
  intro device event t step input begun _
  have begun' := (begin_.step step input).1 begun
  exact ⟨begun', begun'.sending⟩

theorem data_honoured_next {sequence' : Half} (sequence : Half) {earlier offset : Nat} (behind : earlier ≤ offset)
    (inside : offset < upload.image.length) : @Honoured chip (upload.data sequence' earlier)
      (upload.data sequence offset)
      (fun _ => True) (fun device => upload.Sending offset device.state) (dataTells upload offset) := by
  refine data_honoured sequence inside ?_ fun _ _ _ _ _ _ => trivial
  intro device event t step input _ sending
  exact ⟨trivial, (Upload.Sending.data sending (Nat.le_of_lt inside)
    (Nat.lt_of_le_of_lt behind inside) behind step input).1⟩

/-- A copy of END finds no active session, and a boot or a confirmation keeps the record's fields. -/
theorem kept_completed (fresh : Fresh chip) (sequence : Half) :
    Kept (endRequest sequence) (@Completed chip upload) where
  serves device event t step input completed few := by
    simp only [DeviceRun.next, recordsBegun_append] at few
    exact (completed (by omega)).frame_step step input (.inr rfl)
  idles device event t step noFrame noRequest completed few := by
    simp only [DeviceRun.next, recordsBegun_append, recordsBegun_single] at few
    have few' : recordsBegun device.history < 2 ^ 31 := by omega
    exact (completed few').idle_step step noFrame noRequest (sound_of_run fresh device.run few') few

theorem end_honoured (fresh : Fresh chip) {sequence' : Half} (sequence : Half) {earlier : Nat}
    (inside : earlier < upload.image.length) :
    @Honoured chip (upload.data sequence' earlier) (endRequest sequence) (fun _ => True)
      (fun device => upload.Sending upload.image.length device.state) (endTells upload) where
  servesEarlier device event t step input _ sending :=
    ⟨trivial, (Upload.Sending.data sending (Nat.le_refl _) inside (Nat.le_of_lt inside) step input).1⟩
  serves device event t step input sending := by
    obtain ⟨sending', committed⟩ := @Upload.end_step _ _ _ _ _ (recordsBegun device.history) sending step input
    refine ⟨sending', ?_, ?_⟩
    · intro type payload tells complete
      exact (kept_completed fresh sequence).serves device event t step input (tells complete)
    · intro reply output complete few
      simp only [DeviceRun.next, recordsBegun_append, recordsBegun_single] at few
      exact committed reply output (BitVec.toNat_inj.mp complete) (sound_of_run fresh device.run (by omega)) few
  idles device event t step noFrame noRequest := by
    refine ⟨id, fun _ => Active.of_idle step noFrame, ?_⟩
    intro type payload tells complete
    exact (kept_completed fresh sequence).idles device event t step noFrame noRequest (tells complete)

end

/-! ### The methods of the host -/

/-- The frame of a request. -/
def requestFrame (kind sequence : Nat) (payload : List Byte) : ProtocolFrame :=
  ⟨BitVec.ofNat 8 kind, BitVec.ofNat 16 sequence, payload⟩

theorem requestFrame_number (kind sequence : Nat) (payload : List Byte) :
    (requestFrame kind (sequence % 2 ^ 16) payload).sequenceNumber.toNat = sequence % 2 ^ 16 :=
  (BitVec.toNat_ofNat _ _).trans (Nat.mod_mod _ _)

section
variable {chip : DeviceState}

/-- Between two requests: nothing but the last one is under way. -/
def Between (frame : ProtocolFrame) (holds : DeviceRun chip → Prop) (s : System chip) : Prop :=
  (settled frame holds).Closed s.link ∧ s.sequence = frame.sequenceNumber.toNat

theorem stable_between {frame : ProtocolFrame} {holds : DeviceRun chip → Prop} (kept : Kept frame holds)
    (short : Short frame) :
    Stable Moves (Between frame holds) := by
  rintro s t ⟨step, same⟩ ⟨closed, number⟩
  exact ⟨(closed.step (kept.settled short) step).1, same.trans number⟩

/-- After an answer only its request is under way, and what the answer tells holds. -/
theorem Answered.between {earlier frame : ProtocolFrame} {before during : DeviceRun chip → Prop}
    {tells : Nat → List Byte → DeviceRun chip → Prop} {type : Nat} {payload : List Byte} {s : System chip}
    (answered : Answered (exchange earlier frame before during tells) frame.sequenceNumber.toNat type payload s) :
    Between frame (fun device => during device ∧ tells type payload device) s := by
  obtain ⟨closed, number, wire, decoded, type', payload', decoded', tells_⟩ := answered
  rw [decoded] at decoded'
  cases decoded'
  refine ⟨⟨closed.requests, ?_, closed.during, tells_⟩, number⟩
  intro wire member
  obtain ⟨_, _, decoded, _⟩ := closed.replies wire member
  exact ⟨_, _, decoded, trivial⟩

theorem Between.mono {frame : ProtocolFrame} {holds holds' : DeviceRun chip → Prop} {s : System chip}
    (between : Between frame holds s) (weaker : holds s.link.server → holds' s.link.server) :
    Between frame holds' s :=
  ⟨⟨between.1.requests, between.1.replies, weaker between.1.during⟩, between.2⟩

theorem Between.holds {frame : ProtocolFrame} {holds : DeviceRun chip → Prop} {s : System chip}
    (between : Between frame holds s) :
    holds s.link.server :=
  between.1.during

theorem Between.waiting {earlier frame : ProtocolFrame} {holds before during : DeviceRun chip → Prop}
    {tells : Nat → List Byte → DeviceRun chip → Prop} {s : System chip} (between : Between earlier holds s)
    (numbers : earlier.sequenceNumber ≠ frame.sequenceNumber)
    (holds_ : ∀ device, holds device → before device ∧ during device) :
    Waiting (exchange earlier frame before during tells) earlier.sequenceNumber.toNat s := by
  obtain ⟨closed, number⟩ := between
  obtain ⟨before_, during_⟩ := holds_ _ closed.during
  refine ⟨closed.next rfl ?_ before_ during_, number⟩
  rintro wire device ⟨type, payload, decoded, _⟩ type' number' payload' decoded' same
  rw [decoded] at decoded'
  cases decoded'
  exact numbers (BitVec.toNat_inj.mp same)

/-- One request, in the exchange that waits for it. -/
theorem request_spec {x : Exchange (DeviceRun chip) (List Byte) (List Byte)} (respected : x.Respected Serves Idles)
    {sequence kind : Nat} {payload : List Byte}
      (wire : x.request = wireOf (requestFrame kind ((sequence + 1) % 2 ^ 16) payload))
    (late : ∀ wire, x.late wire → ∀ type number payload, decode wire = some (type, number, payload) →
      number ≠ (sequence + 1) % 2 ^ 16) (expected : List Nat) (retries : Nat) :
    Triple Moves Does (Waiting x sequence) (request kind payload expected retries)
      (fun answer s => answer.1 ∈ expected ∧ Answered x ((sequence + 1) % 2 ^ 16) answer.1 answer.2 s)
      (fun error s => error = .timeoutError → Waiting x ((sequence + 1) % 2 ^ 16) s) := by
  refine Triple.perform (fun next s => next = (sequence + 1) % 2 ^ 16 ∧ Waiting x ((sequence + 1) % 2 ^ 16) s)
    (stable_waiting respected) ?_ fun next => Triple.of_const ?_
  · rintro s next t ⟨open_, rfl⟩ ⟨rfl, rfl⟩
    exact ⟨rfl, open_, rfl⟩
  rintro rfl
  cases encoded : encode kind ((sequence + 1) % 2 ^ 16) payload with
  | none =>
    -- the exception of encode is no TimeoutError
    have raised : Triple Moves Does (Waiting x ((sequence + 1) % 2 ^ 16))
      (orRaise .structError (none : Option (List Byte)))
        (fun _ _ => False) fun error s => error = .timeoutError → Waiting x ((sequence + 1) % 2 ^ 16) s := by
      refine Triple.throw ?_ ?_
      · intro s t step none_ same
        cases same
      · intro s waiting same
        cases same
    exact raised.bind _ fun _ => .of_false
  | some frame =>
    obtain rfl : frame = x.request := (encode_wireOf encoded).trans wire.symm
    exact (requestLoop_spec respected expected retries late).mono (fun _ => id)
      (fun _ _ => id) fun _ _ failed _ => failed.2

/-- A request after another one. -/
theorem request_next {earlier frame : ProtocolFrame} {holds before during : DeviceRun chip → Prop}
    {tells : Nat → List Byte → DeviceRun chip → Prop} (kind : Nat) (payload : List Byte) (expected : List Nat)
    (retries : Nat)
    (same : frame = requestFrame kind ((earlier.sequenceNumber.toNat + 1) % 2 ^ 16) payload)
    (honoured : Honoured earlier frame before during tells) (short : Short earlier) (short' : Short frame)
    (holds_ : ∀ device, holds device → before device ∧ during device) :
    Triple Moves Does (Between earlier holds) (request kind payload expected retries)
      (fun answer s => answer.1 ∈ expected ∧ Between frame
        (fun device => during device ∧ tells answer.1 answer.2 device) s)
      fun _ _ => True := by
  have number : frame.sequenceNumber.toNat = (earlier.sequenceNumber.toNat + 1) % 2 ^ 16 := by
    rw [same, requestFrame_number]
  have numbers : earlier.sequenceNumber ≠ frame.sequenceNumber := by
    intro equal
    have bound := earlier.sequenceNumber.isLt
    rw [← equal] at number
    omega
  have spec := request_spec (honoured.respected short short' numbers) (congrArg wireOf same)
    (fun wire late type received payload decoded => number ▸ late type received payload decoded) expected retries
  rw [← number] at spec
  exact spec.mono (fun s between => between.waiting numbers holds_) (fun answer s both => ⟨both.1, both.2.between⟩)
    fun _ _ _ => trivial

end

/-! ### A line that loses nothing -/

section
variable {chip t : DeviceState} {device : DeviceRun chip} {frame reply : ProtocolFrame} {calls : List FlashCall}

/-- The host and the device, with nothing on the line. -/
def quiet (sequence : Nat) (device : DeviceRun chip) : System chip := ⟨sequence, device, [], []⟩

/-- The device answers a request, and the host takes the answer. -/
theorem Runs.answered {n retries : Nat} {expected : List Nat} {outcome : Except HostError (Nat × List Byte)}
    {final : System chip}
    (short : Short frame) (number : frame.sequenceNumber.toNat = n)
    (step : DeviceStep device.state ⟨.frame frame, calls, some (.reply reply)⟩ t)
    (rest : Runs (if n = n ∧ reply.messageType.toNat ∈ expected then pure (reply.messageType.toNat, reply.payload)
      else requestLoop (wireOf frame) n expected retries) (quiet n (device.next step)) outcome final) :
    Runs (requestLoop (wireOf frame) n expected (retries + 1)) (quiet n device) outcome final := by
  obtain ⟨session, received, next, _, same, turn_, _⟩ := step.turned.of_reply
  cases same
  obtain ⟨number', payload⟩ := turn_.reply_header
  have serves : Serves device (wireOf frame) (some (writeProtocolFrame (fun _ => 0) reply)) (device.next step) :=
    .frame (fun _ => 0) (fun _ => 0) step (read_wireOf short _) rfl
  have moved : Moves ⟨n, device, [wireOf frame], []⟩ ⟨n, device.next step, [],
      [writeProtocolFrame (fun _ => 0) reply]⟩ :=
    ⟨.served serves, rfl⟩
  have decoded : decode (writeProtocolFrame (fun _ => 0) reply) =
      some (reply.messageType.toNat, n, reply.payload) := by
    rw [decode_writeProtocolFrame _ payload, number', number]
  have written : Does (.write (wireOf frame)) (quiet n device) () ⟨n, device, [wireOf frame], []⟩ := rfl
  have read : Does .readFrame ⟨n, device.next step, [], [writeProtocolFrame (fun _ => 0) reply]⟩
      (some (reply.messageType.toNat, n, reply.payload)) (quiet n (device.next step)) :=
    .inr ⟨_, [], rfl, decoded, Option.some_ne_none _, rfl⟩
  unfold requestLoop
  exact Exec.perform written (Exec.moved (.single moved) (Exec.perform read rest))

theorem Runs.loop {sequence kind retries : Nat} {payload wire : List Byte} {expected : List Nat}
    {outcome : Except HostError (Nat × List Byte)} {final : System chip}
    (encoded : encode kind ((sequence + 1) % 2 ^ 16) payload = some wire)
    (rest : Runs (requestLoop (wireOf (requestFrame kind ((sequence + 1) % 2 ^ 16) payload))
      ((sequence + 1) % 2 ^ 16) expected retries)
      (quiet ((sequence + 1) % 2 ^ 16) device) outcome final) :
    Runs (request kind payload expected retries) (quiet sequence device) outcome final := by
  have numbered : Does .nextSequence (quiet sequence device) ((sequence + 1) % 2 ^ 16)
      (quiet ((sequence + 1) % 2 ^ 16) device) := ⟨rfl, rfl⟩
  refine Exec.perform numbered ?_
  rw [encoded]
  obtain rfl := encode_wireOf encoded
  exact rest

/-- A request whose first answer is the one that is expected. -/
theorem Runs.request {sequence kind retries : Nat} {payload wire : List Byte} {expected : List Nat}
    (encoded : encode kind ((sequence + 1) % 2 ^ 16) payload = some wire) (short : payload.length ≤ 140)
    (step : DeviceStep device.state
      ⟨.frame (requestFrame kind ((sequence + 1) % 2 ^ 16) payload), calls, some (.reply reply)⟩ t)
    (accepted : reply.messageType.toNat ∈ expected) :
    Runs (request kind payload expected (retries + 1)) (quiet sequence device)
      (.ok (reply.messageType.toNat, reply.payload))
      (quiet ((sequence + 1) % 2 ^ 16) (device.next step)) := by
  refine Runs.loop encoded (Runs.answered short (requestFrame_number kind (sequence + 1) payload) step ?_)
  rw [if_pos ⟨rfl, accepted⟩]
  exact .returned .refl

end

end Cc1310Firmware.Host
