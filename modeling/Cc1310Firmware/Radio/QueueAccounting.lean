import Cc1310Firmware.Radio.PacketQueue
import Mathlib.Data.List.Pairwise

/-! What the packet queue loses, and how its counters and sequence numbers tell.

Packets are numbered in the order in which they are posted. The log of a run says which
of them found room; it is no part of the firmware's state.
-/

set_option autoImplicit false

namespace Cc1310Firmware.Radio

/-! ### Calls -/

/-- The arguments of rf_packet_queue_post_radio; `payload` is the memory behind the pointer. -/
structure Offer where
  payload : Nat → Byte
  length : Byte
  timestampTicks : Word

inductive QueueCall where
  | post (offer : Offer)
  /-- A post with NULL, which post_packet ignores. -/
  | postNull
  | pend

/-- Mailbox_pend, which times out if the mailbox stays empty. -/
def PacketQueue.mailboxPend (q : PacketQueue) : Option RfPacketMessage × PacketQueue :=
  match q.packetMailbox with
  | some (message :: rest) => (some message, { q with packetMailbox := some rest })
  | some [] | none => (none, q)

def PacketQueue.hasRoom (q : PacketQueue) : Bool :=
  match q.packetMailbox with
  | some mailbox => decide (mailbox.length < rfPacketQueueDepth)
  | none => false

structure Post where
  offer : Offer
  accepted : Bool

/-- The queue, the messages that the print thread has received, and the packets posted. -/
structure QueueRun where
  queue : PacketQueue
  received : List RfPacketMessage
  log : List Post

def QueueRun.start : QueueRun := ⟨PacketQueue.cleared.rfPacketQueueInit, [], []⟩

def QueueRun.call (run : QueueRun) : QueueCall → QueueRun
  | .post offer =>
    { run with
      queue := run.queue.postRadio offer.payload offer.length.toNat offer.timestampTicks
      log := run.log ++ [⟨offer, run.queue.hasRoom⟩] }
  | .postNull => run
  | .pend =>
    { run with queue := run.queue.mailboxPend.2, received := run.received ++ run.queue.mailboxPend.1.toList }

def QueueRun.calls (run : QueueRun) (calls : List QueueCall) : QueueRun := calls.foldl QueueRun.call run

/-! ### What the receiver should see -/

/-- The message for packet number `number`. -/
def Offer.message (offer : Offer) (number : Nat) : RfPacketMessage where
  sequence := BitVec.ofNat 32 number
  timestampTicks := offer.timestampTicks
  source := .radio
  length := min offer.length.toNat 30
  payload := (List.range (min offer.length.toNat 30)).map offer.payload

/-- The packets that found room, with their numbers. -/
def acceptedPackets (log : List Post) : List (Nat × Offer) :=
  (log.zipIdx.filter (·.1.accepted)).map fun entry => (entry.2, entry.1.offer)

/-- The packets lost between two numbers. -/
def droppedBetween (log : List Post) (first second : Nat) : Nat :=
  ((log.drop (first + 1)).take (second - (first + 1))).countP fun post => !post.accepted

theorem acceptedPackets_concat (log : List Post) (post : Post) :
    acceptedPackets (log ++ [post]) = acceptedPackets log ++
      if post.accepted then [(log.length, post.offer)] else [] := by
  rw [acceptedPackets, List.zipIdx_append, List.filter_append, List.map_append]
  cases post with | mk offer found =>
    cases found with
    | true => simp [acceptedPackets]
    | false => simp [acceptedPackets]

theorem mem_acceptedPackets {log : List Post} {number : Nat} {offer : Offer} :
    (number, offer) ∈ acceptedPackets log ↔ log[number]? = some ⟨offer, true⟩ := by
  unfold acceptedPackets
  rw [List.mem_map]
  constructor
  · rintro ⟨⟨post, place⟩, listed, same⟩
    obtain ⟨member, found⟩ := List.mem_filter.mp listed
    obtain ⟨rfl, rfl⟩ := Prod.mk.inj same
    rw [List.mk_mem_zipIdx_iff_getElem?] at member
    rw [member, ← show post.accepted = true from found]
  · intro member
    exact ⟨(⟨offer, true⟩, number), List.mem_filter.mpr ⟨List.mk_mem_zipIdx_iff_getElem?.mpr member, rfl⟩, rfl⟩

theorem acceptedPackets_increasing (log : List Post) :
    (acceptedPackets log).Pairwise fun first second => first.1 < second.1 := by
  induction log using List.reverseRecOn with
  | nil => exact .nil
  | append_singleton log post ih =>
    rw [acceptedPackets_concat, List.pairwise_append]
    refine ⟨ih, ?_, ?_⟩
    · split
      · exact List.pairwise_singleton _ _
      · exact .nil
    · rintro ⟨number, offer⟩ earlier last member
      obtain ⟨inside, _⟩ := List.getElem?_eq_some_iff.mp (mem_acceptedPackets.mp earlier)
      split at member
      · rw [List.mem_singleton.mp member]
        exact inside
      · cases member

/-- The order of the numbers is that of the places. -/
theorem acceptedPackets_lt_iff {log : List Post} {i j : Nat} {packet packet' : Nat × Offer}
    (here : (acceptedPackets log)[i]? = some packet) (there : (acceptedPackets log)[j]? = some packet') :
    packet.1 < packet'.1 ↔ i < j := by
  have increasing := List.pairwise_iff_getElem.mp (acceptedPackets_increasing log)
  obtain ⟨inside, rfl⟩ := List.getElem?_eq_some_iff.mp here
  obtain ⟨inside', rfl⟩ := List.getElem?_eq_some_iff.mp there
  refine ⟨fun less => ?_, increasing i j inside inside'⟩
  rcases Nat.lt_trichotomy i j with before | rfl | behind
  · exact before
  · exact absurd less (Nat.lt_irrefl _)
  · exact absurd (increasing j i inside' inside behind) (Nat.lt_asymm less)

/-- Between two accepted packets in a row, every packet was dropped. -/
theorem droppedBetween_adjacent {log : List Post} {i first second : Nat} {offer offer' : Offer}
    (here : (acceptedPackets log)[i]? = some (first, offer))
    (next : (acceptedPackets log)[i + 1]? = some (second, offer')) :
    first < second ∧ droppedBetween log first second = second - (first + 1) := by
  have ordered : first < second := (acceptedPackets_lt_iff here next).mpr (Nat.lt_succ_self i)
  have posted := mem_acceptedPackets.mp (List.mem_of_getElem? next)
  obtain ⟨second_lt, _⟩ := List.getElem?_eq_some_iff.mp posted
  have length : ((log.drop (first + 1)).take (second - (first + 1))).length = second - (first + 1) := by
    rw [List.length_take, List.length_drop]
    omega
  refine ⟨ordered, (List.countP_eq_length.mpr ?_).trans length⟩
  intro post member
  obtain ⟨k, place⟩ := List.mem_iff_getElem?.mp member
  obtain ⟨k_lt, _⟩ := List.getElem?_eq_some_iff.mp place
  rw [length] at k_lt
  rw [List.getElem?_take_of_lt k_lt, List.getElem?_drop] at place
  -- an accepted packet in between would stand between the two in the list
  cases found : post.accepted with
  | false => rfl
  | true =>
    have listed : (first + 1 + k, post.offer) ∈ acceptedPackets log := by
      rw [mem_acceptedPackets, place, ← found]
    obtain ⟨j, between⟩ := List.mem_iff_getElem?.mp listed
    have behind : i < j := (acceptedPackets_lt_iff here between).mp (show first < first + 1 + k by omega)
    have before : j < i + 1 := (acceptedPackets_lt_iff between next).mp (show first + 1 + k < second by omega)
    omega

/-! ### Runs -/

/-- The counters count the log, and the messages are those of the accepted packets. -/
structure QueueInv (run : QueueRun) : Prop where
  nextSequence : run.queue.nextSequence = BitVec.ofNat 32 run.log.length
  radioReceived : run.queue.packetStats.radioReceived = BitVec.ofNat 32 run.log.length
  radioQueued : run.queue.packetStats.radioQueued = BitVec.ofNat 32 (acceptedPackets run.log).length
  appQueueDropped : run.queue.packetStats.appQueueDropped =
    BitVec.ofNat 32 (run.log.length - (acceptedPackets run.log).length)
  messages : ∃ mailbox, run.queue.packetMailbox = some mailbox ∧ mailbox.length ≤ rfPacketQueueDepth ∧
    run.received ++ mailbox = (acceptedPackets run.log).map fun packet => packet.2.message packet.1

theorem QueueInv.start : QueueInv .start := ⟨rfl, rfl, rfl, rfl, [], rfl, Nat.zero_le _, rfl⟩

theorem Offer.length_eq (offer : Offer) :
    (if rfPacketQueuePayloadMax < offer.length.toNat then rfPacketQueuePayloadMax else offer.length.toNat) =
      min offer.length.toNat 30 := by
  unfold rfPacketQueuePayloadMax
  split <;> omega

theorem length_acceptedPackets_le (log : List Post) : (acceptedPackets log).length ≤ log.length := by
  rw [acceptedPackets, List.length_map]
  exact Nat.le_trans (List.length_filter_le _ _) (Nat.le_of_eq List.length_zipIdx)

/-- Both ways through post_packet number the packet and count it as received. -/
theorem QueueInv.post {run : QueueRun} (inv : QueueInv run) (offer : Offer) :
    QueueInv (run.call (.post offer)) := by
  obtain ⟨mailbox, here, short, messages⟩ := inv.messages
  have few := length_acceptedPackets_le run.log
  have next : BitVec.ofNat 32 run.log.length + 1 = BitVec.ofNat 32 (run.log.length + 1) :=
    (BitVec.ofNat_add _ _).symm
  have length : (run.log ++ [Post.mk offer run.queue.hasRoom]).length = run.log.length + 1 := List.length_append
  have room_ : run.queue.hasRoom = decide (mailbox.length < rfPacketQueueDepth) := by rw [PacketQueue.hasRoom, here]
  unfold QueueRun.call PacketQueue.postRadio PacketQueue.postPacket
  rw [here, inv.nextSequence]
  dsimp only
  rw [offer.length_eq, next]
  by_cases room : mailbox.length < rfPacketQueueDepth
  case pos =>
    rw [decide_eq_true room] at room_
    have posted : acceptedPackets (run.log ++ [⟨offer, run.queue.hasRoom⟩]) =
        acceptedPackets run.log ++ [(run.log.length, offer)] := by
      rw [acceptedPackets_concat, room_, if_pos rfl]
    rw [mailboxPost, if_pos room]
    dsimp only
    refine ⟨?_, ?_, ?_, ?_, _, rfl, ?_, ?_⟩
    · rw [length]
    · rw [length, ← next, inv.radioReceived]
    · rw [posted, List.length_append, List.length_singleton, inv.radioQueued]
      exact (BitVec.ofNat_add _ _).symm
    · rw [posted, length, List.length_append, List.length_singleton, Nat.add_sub_add_right, inv.appQueueDropped]
    · rw [List.length_append]
      exact room
    · rw [posted, List.map_append, ← messages, List.append_assoc]
      rfl
  case neg =>
    rw [decide_eq_false room] at room_
    have posted : acceptedPackets (run.log ++ [⟨offer, run.queue.hasRoom⟩]) = acceptedPackets run.log := by
      rw [acceptedPackets_concat, room_, if_neg Bool.false_ne_true, List.append_nil]
    rw [mailboxPost, if_neg room]
    dsimp only
    refine ⟨?_, ?_, ?_, ?_, mailbox, rfl, short, ?_⟩
    · rw [length]
    · rw [length, ← next, inv.radioReceived]
    · rw [posted, inv.radioQueued]
    · rw [posted, length, Nat.succ_sub few, inv.appQueueDropped]
      exact (BitVec.ofNat_add _ _).symm
    · rw [posted, ← messages]

theorem QueueInv.pend {run : QueueRun} (inv : QueueInv run) : QueueInv (run.call .pend) := by
  obtain ⟨mailbox, here, short, messages⟩ := inv.messages
  cases mailbox with
  | nil =>
    have silent : run.queue.mailboxPend = (none, run.queue) := by rw [PacketQueue.mailboxPend, here]
    rw [QueueRun.call, silent, Option.toList_none, List.append_nil]
    exact inv
  | cons message rest =>
    have taken : run.queue.mailboxPend = (some message, { run.queue with packetMailbox := some rest }) := by
      rw [PacketQueue.mailboxPend, here]
    rw [QueueRun.call, taken]
    refine ⟨inv.nextSequence, inv.radioReceived, inv.radioQueued, inv.appQueueDropped, rest, rfl,
      Nat.le_of_succ_le short, ?_⟩
    rw [← messages, List.append_assoc]
    rfl

theorem QueueInv.call {run : QueueRun} (inv : QueueInv run) (call : QueueCall) : QueueInv (run.call call) := by
  cases call with
  | post offer => exact inv.post offer
  | postNull => exact inv
  | pend => exact inv.pend

theorem QueueInv.calls {run : QueueRun} (inv : QueueInv run) (calls : List QueueCall) :
    QueueInv (run.calls calls) := by
  induction calls generalizing run with
  | nil => exact inv
  | cons call calls ih => exact ih (inv.call call)

/-! ### The accounts -/

/-- After every call, the packets received are those queued and those dropped; the print
thread gets the accepted packets in order and unchanged, under rising numbers modulo 2^32; and the
numbers missing between two messages are those of the packets dropped between them. -/
theorem queue_accounts (calls : List QueueCall) :
    let run := QueueRun.start.calls calls
    run.queue.packetStats.radioReceived = run.queue.packetStats.radioQueued + run.queue.packetStats.appQueueDropped ∧
    (∃ mailbox, run.queue.packetMailbox = some mailbox ∧ mailbox.length ≤ rfPacketQueueDepth ∧
      run.received ++ mailbox = (acceptedPackets run.log).map fun packet => packet.2.message packet.1) ∧
    ((acceptedPackets run.log).Pairwise fun first second => first.1 < second.1) ∧
    ∀ i first second, run.received[i]? = some first → run.received[i + 1]? = some second →
      ∃ k l offer offer', (acceptedPackets run.log)[i]? = some (k, offer) ∧
        (acceptedPackets run.log)[i + 1]? = some (l, offer') ∧ first = offer.message k ∧ second = offer'.message l ∧
        k < l ∧ l - (k + 1) = droppedBetween run.log k l ∧
        second.sequence = first.sequence + 1 + BitVec.ofNat 32 (droppedBetween run.log k l) := by
  have inv := QueueInv.start.calls calls
  intro run
  obtain ⟨mailbox, here, short, messages⟩ := inv.messages
  refine ⟨?_, ⟨mailbox, here, short, messages⟩, acceptedPackets_increasing _, ?_⟩
  · rw [inv.radioReceived, inv.radioQueued, inv.appQueueDropped, ← BitVec.ofNat_add,
      Nat.add_sub_cancel' (length_acceptedPackets_le _)]
  · intro i first second at_first at_second
    have place (j : Nat) (message : RfPacketMessage) (received : run.received[j]? = some message) :
        ∃ packet : Nat × Offer, (acceptedPackets run.log)[j]? = some packet ∧
          packet.2.message packet.1 = message := by
      obtain ⟨inside, _⟩ := List.getElem?_eq_some_iff.mp received
      rw [← Option.map_eq_some_iff, ← List.getElem?_map, ← messages, List.getElem?_append_left inside]
      exact received
    obtain ⟨⟨k, offer⟩, packet, rfl⟩ := place i first at_first
    obtain ⟨⟨l, offer'⟩, packet', rfl⟩ := place (i + 1) second at_second
    obtain ⟨less, lost⟩ := droppedBetween_adjacent packet packet'
    refine ⟨k, l, offer, offer', packet, packet', rfl, rfl, less, lost.symm, ?_⟩
    have number : l = k + 1 + (l - (k + 1)) := (Nat.add_sub_cancel' less).symm
    rw [lost]
    show BitVec.ofNat 32 l = BitVec.ofNat 32 k + 1 + _
    conv_lhs => rw [number]
    rw [BitVec.ofNat_add, BitVec.ofNat_add]
    rfl

/-- 33 packets in a burst, of which one is lost, and one after the print thread has made room. -/
def burst : List QueueCall :=
  List.replicate 33 (.post ⟨fun _ => 0, 2, 5⟩) ++ List.replicate 32 .pend ++ [.post ⟨fun _ => 1, 1, 6⟩, .pend]

theorem queue_accounts_burst : ∃ k l, k < l ∧ l - (k + 1) = droppedBetween (QueueRun.start.calls burst).log k l ∧
    (33#32 : Word) = 31#32 + 1 + BitVec.ofNat 32 (droppedBetween (QueueRun.start.calls burst).log k l) := by
  obtain ⟨k, l, _, _, _, _, _, _, less, lost, gap⟩ := (queue_accounts burst).2.2.2 31 ⟨31, 5, .radio, 2, [0, 0]⟩
    ⟨33, 6, .radio, 1, [1]⟩ (by decide +kernel) (by decide +kernel)
  exact ⟨k, l, less, lost, gap⟩

end Cc1310Firmware.Radio
