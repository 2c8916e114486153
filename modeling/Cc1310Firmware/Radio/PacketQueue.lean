import Cc1310Firmware.Codec.LittleEndian

/-! The software packet queue between the RF callback and the print task. -/

set_option autoImplicit false

namespace Cc1310Firmware.Radio

abbrev Word := BitVec 32

def rfPacketQueueDepth : Nat := 32
def rfPacketQueuePayloadMax : Nat := 30

/-- RF_GET_RSSI_ERROR_VAL of the TI driver, -128. -/
def rfGetRssiErrorVal : Byte := 0x80

inductive RfPacketSource where
  | radio
  deriving DecidableEq, Repr

structure RfPacketMessage where
  sequence : Word
  timestampTicks : Word
  source : RfPacketSource
  length : Nat
  /-- The first `length` bytes. -/
  payload : List Byte
  deriving DecidableEq, Repr

/-- The messages that post_packet makes. -/
structure RfPacketMessage.Sized (message : RfPacketMessage) : Prop where
  payload : message.payload.length = message.length
  length : message.length ≤ rfPacketQueuePayloadMax

/-- The RSSI values are int8_t. -/
structure RfPacketStats where
  radioReceived : Word
  radioQueued : Word
  appQueueDropped : Word
  rxBufferFull : Word
  crcErrors : Word
  collisions : Word
  rssiSamples : Word
  rssiLast : Byte
  rssiMin : Byte
  rssiMax : Byte
  deriving DecidableEq, Repr

structure PacketQueue where
  /-- The messages in the mailbox, oldest first; `none` before rf_packet_queue_init. -/
  packetMailbox : Option (List RfPacketMessage)
  nextSequence : Word
  packetStats : RfPacketStats
  deriving DecidableEq, Repr

/-- The variables after reset. -/
def PacketQueue.cleared : PacketQueue where
  packetMailbox := none
  nextSequence := 0
  packetStats := ⟨0, 0, 0, 0, 0, 0, 0, 0x80, 0x7F, 0x80⟩

def PacketQueue.rfPacketQueueInit (q : PacketQueue) : PacketQueue := { q with packetMailbox := some [] }

/-- Mailbox_post with BIOS_NO_WAIT. -/
def mailboxPost (mailbox : List RfPacketMessage) (message : RfPacketMessage) : Option (List RfPacketMessage) :=
  if mailbox.length < rfPacketQueueDepth then some (mailbox ++ [message]) else none

/-- `payload` is the memory behind the pointer. -/
def PacketQueue.postPacket (q : PacketQueue) (source : RfPacketSource) (payload : Nat → Byte) (length : Nat)
    (timestampTicks : Word) : PacketQueue :=
  match q.packetMailbox with
  | none => q
  | some mailbox =>
    let length := if rfPacketQueuePayloadMax < length then rfPacketQueuePayloadMax else length
    let message := ⟨q.nextSequence, timestampTicks, source, length, (List.range length).map payload⟩
    let stats := { q.packetStats with radioReceived := q.packetStats.radioReceived + 1 }
    match mailboxPost mailbox message with
    | some mailbox =>
      ⟨some mailbox, q.nextSequence + 1, { stats with radioQueued := stats.radioQueued + 1 }⟩
    | none =>
      ⟨some mailbox, q.nextSequence + 1, { stats with appQueueDropped := stats.appQueueDropped + 1 }⟩

def PacketQueue.postRadio (q : PacketQueue) (payload : Nat → Byte) (length : Nat) (timestampTicks : Word) :
    PacketQueue :=
  q.postPacket .radio payload length timestampTicks

theorem PacketQueue.postPacket_sized (q : PacketQueue) (source : RfPacketSource) (payload : Nat → Byte)
    (length : Nat)
    (timestampTicks : Word) (sized : ∀ mailbox, q.packetMailbox = some mailbox → ∀ message ∈ mailbox,
      message.Sized) :
    ∀ mailbox, (q.postPacket source payload length timestampTicks).packetMailbox = some mailbox →
      ∀ message ∈ mailbox, message.Sized := by
  unfold PacketQueue.postPacket
  cases before : q.packetMailbox with
  | none => simp [before]
  | some mailbox =>
    have kept := sized mailbox before
    dsimp only
    unfold mailboxPost
    by_cases room : mailbox.length < rfPacketQueueDepth
    · rw [if_pos room]
      rintro posted ⟨⟩ message member
      rcases List.mem_append.mp member with old | new
      · exact kept message old
      · rw [List.mem_singleton.mp new]
        exact ⟨by simp, by dsimp only; split <;> omega⟩
    · rw [if_neg room]
      rintro posted ⟨⟩
      exact kept

def PacketQueue.noteRxBufFull (q : PacketQueue) : PacketQueue :=
  { q with packetStats := { q.packetStats with rxBufferFull := q.packetStats.rxBufferFull + 1 } }

def PacketQueue.noteCollision (q : PacketQueue) : PacketQueue :=
  { q with packetStats := { q.packetStats with collisions := q.packetStats.collisions + 1 } }

def PacketQueue.noteRssi (q : PacketQueue) (rssi : Byte) : PacketQueue :=
  if rssi = rfGetRssiErrorVal then q
  else { q with packetStats := { q.packetStats with
    rssiLast := rssi
    rssiMin := if rssi.slt q.packetStats.rssiMin then rssi else q.packetStats.rssiMin
    rssiMax := if q.packetStats.rssiMax.slt rssi then rssi else q.packetStats.rssiMax
    rssiSamples := q.packetStats.rssiSamples + 1 } }

def PacketQueue.noteCrcError (q : PacketQueue) (rssi : Byte) : PacketQueue :=
  { q with packetStats := { q.packetStats with crcErrors := q.packetStats.crcErrors + 1 } }.noteRssi rssi

end Cc1310Firmware.Radio
