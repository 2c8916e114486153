import Cc1310Firmware.Analysis.ConsoleLog
import Cc1310Firmware.Radio.RxMemory
import Cc1310Firmware.Radio.SyncFrames
import Mathlib.Data.List.Forall2

/-! From the command line of a transmitter to the log of a receiver.

Between them are the radio, which may lose and spoil packets; the entries of the RF
core; the packet queue, which drops what finds no room; the print task, whose output
other tasks break up; and readline, which may cut it anywhere.
-/

set_option autoImplicit false

namespace Cc1310Firmware.Analysis
open LabelledRun Cli Radio LittleEndian

/-! ### What each stage passes on -/

/-- The packets that have arrived intact. -/
def intact (history : List MemoryTransition) : List (List Byte) :=
  ((packets history).filter fun p => p.status &&& 0xC0 == 0).map AirPacket.payload

def postedPayload : Outcome → Option (List Byte)
  | .posted payload => some payload
  | .crcError => none

/-- The payloads that the callback has posted. -/
def posted (history : List MemoryTransition) : List (List Byte) := (received history).filterMap postedPayload

/-- The bytes behind the pointer that rf_packet_queue_post_radio gets. -/
def offered (offer : Offer) : List Byte := (List.range offer.length.toNat).map offer.payload

/-- The payload of a call of Matcher.rx. -/
def heard : LogCall → Option (List Byte)
  | .rx _ data _ _ => some data
  | .tx _ _ _ => none

/-- A call of Matcher.rx with a packet for this request. -/
def Reports (call : LogCall) (request : SyncRequest) : Prop :=
  ∃ frame ∈ heard call, ∃ sequence, SyncFrame request sequence frame

/-! ### Lists -/

section
variable {α β γ : Type}

theorem filterMap_sublist_map {f : α → Option β} {g : α → β} (agrees : ∀ a, ∀ b ∈ f a, b = g a) (items : List α) :
    (items.filterMap f).Sublist (items.map g) := by
  induction items with
  | nil => exact .refl _
  | cons a items ih =>
    cases found : f a with
    | none =>
      rw [List.filterMap_cons_none found]
      exact ih.cons _
    | some b =>
      rw [List.filterMap_cons_some found, agrees a b found]
      exact ih.cons_cons _

theorem sublistForall₂_of_sublist {R : β → γ → Prop} {few all : List β} {others : List γ}
    (sublist : few.Sublist all) (related : List.Forall₂ R all others) : List.SublistForall₂ R few others := by
  induction sublist generalizing others with
  | slnil => exact .nil
  | cons _ _ ih =>
    cases related with
    | cons _ rest => exact (ih rest).cons_right
  | cons_cons _ _ ih =>
    cases related with
    | cons here rest => exact .cons here (ih rest)

end

/-! ### Stage by stage -/

theorem posted_sublist {format : EntryFormat} {q : RfQueue} {buf : BitVec 32} {history : List MemoryTransition}
    {s : RxMemory} (room : buf.toNat + rxDataEntryBufferSize ≤ 2 ^ 32)
    (run : Run (MemoryStep format) (.start format q buf) history s) : (posted history).Sublist (intact history) := by
  have outcomes (arrived : List AirPacket) : (arrived.map AirPacket.outcome).filterMap postedPayload =
      (arrived.filter fun p => p.status &&& 0xC0 == 0).map AirPacket.payload := by
    induction arrived with
    | nil => rfl
    | cons p arrived ih =>
      rw [List.map_cons, List.filterMap_cons, ih, List.filter_cons, AirPacket.outcome]
      cases p.status &&& 0xC0 == 0 with
      | true | false => rfl
  rw [posted, received_eq room run, outcomes]
  exact ((List.take_sublist _ _).filter _).map _

theorem accepted_sublist (log : List Post) :
    ((acceptedPackets log).map (·.2)).Sublist (log.map (·.offer)) := by
  have places : log.zipIdx.map (·.1) = log := List.zipIdx_map_fst 0 log
  have kept : ((log.zipIdx.filter (·.1.accepted)).map (·.1)).Sublist (log.zipIdx.map (·.1)) :=
    List.filter_sublist.map _
  have offers := kept.map Post.offer
  rw [places, List.map_map] at offers
  rw [acceptedPackets, List.map_map]
  exact offers

theorem payload_message (offer : Offer) (number : Nat) : (offer.message number).payload = (offered offer).take 30 := by
  rw [offered, ← List.map_take, List.take_range, Nat.min_comm]
  rfl

theorem heard_messageCall (message : RfPacketMessage) :
    ∀ data ∈ (messageCall message).map heard, data = some message.payload := by
  unfold messageCall
  split
  · rintro data ⟨⟩
    rfl
  · nofun

theorem heard_sublist {role : I2cSlave.FirmwareRole} {stack : List Byte} {history : List ConsoleTransition}
    {c : Console} (run : Run ConsoleStep (.start role stack) history c) {segments : List (List Byte)}
    (read : segments.flatten <+: c.uart.output) (lines : ∀ segment ∈ segments, OneLine segment) :
    ((segments.filterMap logCall).map heard).Sublist
      ((c.radio.log.map fun post => offered post.offer).map fun data => some (data.take 30)) := by
  have calls := (calls_of_run run read lines).map heard
  have payloads := filterMap_sublist_map heard_messageCall (shown history)
  rw [← List.map_filterMap] at payloads
  have messages := (shown_of_run run).map fun message => some message.payload
  have accepted := (accepted_sublist c.radio.log).map fun offer => some ((offered offer).take 30)
  have texts : (acceptedPackets c.radio.log).map ((fun message => some message.payload) ∘
      fun packet => packet.2.message packet.1) =
      (acceptedPackets c.radio.log).map ((fun offer => some ((offered offer).take 30)) ∘ (·.2)) :=
    List.map_congr_left fun packet _ => congrArg some (payload_message packet.2 packet.1)
  rw [List.map_map, texts] at messages
  rw [List.map_map, List.map_map] at accepted
  rw [List.map_map]
  exact ((calls.trans payloads).trans messages).trans accepted

theorem forall₂_of_transmitted {start : Byte} {requests : List SyncRequest} {frames : List (List Byte)}
    (transmitted : Transmitted start requests frames) :
    List.Forall₂ (fun frame request => ∃ sequence, SyncFrame request sequence frame) frames requests := by
  refine List.forall₂_iff_get.mpr ⟨transmitted.length, fun k inside inside' => ?_⟩
  obtain ⟨frame, place, whole⟩ := transmitted.each k _ (List.getElem?_eq_getElem inside')
  obtain ⟨_, rfl⟩ := List.getElem?_eq_some_iff.mp place
  exact ⟨_, whole⟩

/-- The RF core receives the packet into its first entry. -/
theorem one_arrival : ∃ arrivals s, Run (MemoryStep driverEntry)
    (.start driverEntry ⟨fun _ => 0xFF, 0, 0, 0⟩ 0x20000400) arrivals s ∧
      intact arrivals = [watchedPacket] ∧ posted arrivals = [watchedPacket] := by
  let p : AirPacket := ⟨watchedPacket, 0xC0, 0, by decide⟩
  have start := @Run.nil _ _ (MemoryStep driverEntry) (.start driverEntry ⟨fun _ => 0xFF, 0, 0, 0⟩ 0x20000400)
  have finish := start.next (.complete p start_pending)
  have receives := ((finish.next (.enter rfl (by decide))).next (.handle 0 rfl)).next (.leave rfl)
  have content : p.outcome = .posted watchedPacket := by decide
  have taken := (received_eq (by decide) receives).trans (congrArg (fun outcome => [outcome]) content)
  have valid : ([p].filter fun p => p.status &&& 0xC0 == 0).map AirPacket.payload = [watchedPacket] := by decide
  exact ⟨_, _, receives, valid, congrArg (List.filterMap postedPayload) taken⟩

/-- If what arrives intact is a part of what one transmitter has sent, in order, then the logger takes from
the receiver's console only packets that the lines typed at the transmitter ask for, in their order
and no more often. -/
theorem logged_values_were_typed (driver : RadioDriver) (inputs : List TxInput) {format : EntryFormat} {q : RfQueue}
    {buf : BitVec 32} {arrivals : List MemoryTransition} {s : RxMemory}
    (room : buf.toNat + rxDataEntryBufferSize ≤ 2 ^ 32)
    (receives : Run (MemoryStep format) (.start format q buf) arrivals s)
    (air : (intact arrivals).Sublist (radioCommands (Transmitter.start.run driver inputs).2))
    {role : I2cSlave.FirmwareRole} {stack : List Byte} {history : List ConsoleTransition} {c : Console}
    (prints : Run ConsoleStep (.start role stack) history c)
    (posts : (c.radio.log.map fun post => offered post.offer) <+: posted arrivals) {segments : List (List Byte)}
    (read : segments.flatten <+: c.uart.output) (lines : ∀ segment ∈ segments, OneLine segment) :
    ∃ requests, Accepted inputs requests ∧
      List.SublistForall₂ Reports (segments.filterMap logCall) requests := by
  obtain ⟨requests, accepted, transmitted⟩ := Transmitter.start.run_transmitted driver inputs
  refine ⟨requests, accepted, ?_⟩
  have frames := (posts.sublist.trans (posted_sublist room receives)).trans air
  have data := (heard_sublist prints read lines).trans (frames.map _)
  have whole : List.Forall₂ (fun data request => ∃ frame ∈ data, ∃ sequence, SyncFrame request sequence frame)
      ((radioCommands (Transmitter.start.run driver inputs).2).map fun data => some (data.take 30)) requests := by
    refine List.forall₂_map_left_iff.mpr ((forall₂_of_transmitted transmitted).imp fun frame request framed => ?_)
    obtain ⟨sequence, frame_⟩ := framed
    have whole : frame.take 30 = frame := List.take_of_length_le frame_.length.le
    exact ⟨frame, congrArg some whole, sequence, frame_⟩
  have related := sublistForall₂_of_sublist data whole
  exact List.sublistForall₂_map_left_iff (f := heard) |>.mp related

/-- The line of `frameLine` is typed, and its packet arrives and is printed. -/
theorem logged_values_were_typed_watched : ∃ requests history c, Accepted [⟨frameLine, idleRadio⟩] requests ∧
    Run ConsoleStep (.start .rx (List.replicate 128 0)) history c ∧
    (wholeLines c.uart.output).filterMap logCall = [.rx 0 watchedPacket (some 77) none] ∧
    List.SublistForall₂ Reports ((wholeLines c.uart.output).filterMap logCall) requests := by
  have typed : radioCommands (Transmitter.start.run ⟨2, 0x3400⟩ [⟨frameLine, idleRadio⟩]).2 = [watchedPacket] := by
    decide +kernel
  have printed : ∀ c ∈ watchEnd, (c.radio.log.map fun post => offered post.offer) = [watchedPacket] ∧
      (wholeLines c.uart.output).filterMap logCall = [.rx 0 watchedPacket (some 77) none] := by decide +kernel
  obtain ⟨history, c, prints, _, done⟩ := watch_run
  obtain ⟨read, lines⟩ := watch_lines c done
  obtain ⟨log, calls⟩ := printed c done
  obtain ⟨arrivals, s, receives, intact_, posted_⟩ := one_arrival
  have air : (intact arrivals).Sublist
      (radioCommands (Transmitter.start.run ⟨2, 0x3400⟩ [⟨frameLine, idleRadio⟩]).2) :=
    (intact_.trans typed.symm) ▸ .refl _
  have posts : (c.radio.log.map fun post => offered post.offer) <+: posted arrivals :=
    (log.trans posted_.symm) ▸ List.prefix_refl _
  obtain ⟨requests, accepted, reports⟩ :=
    logged_values_were_typed ⟨2, 0x3400⟩ [⟨frameLine, idleRadio⟩] (by decide) receives air prints posts read lines
  exact ⟨requests, history, c, accepted, prints, calls, reports⟩

end Cc1310Firmware.Analysis
