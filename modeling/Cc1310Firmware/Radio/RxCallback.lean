import Cc1310Firmware.Programs.Ring
import Cc1310Firmware.Programs.Runs
import Cc1310Firmware.Radio.PacketQueue

/-! The receive path: the ring of data entries that the RF core fills, and the
callback that empties it.

The RF core and the TI driver are not in the source. What the code relies on:
the core finishes the entries in ring order, each one only while it is pending;
a finished entry raises RF_EventRxEntryDone; events raised before a callback
starts reach it together, as one mask. The core may finish entries while a
callback runs.
-/

set_option autoImplicit false

namespace Cc1310Firmware.Radio
open LabelledRun

def numDataEntries : Nat := 8

instance : NeZero numDataEntries := ⟨by decide⟩

inductive DataEntryStatus where
  | pending
  | finished
  deriving DecidableEq, Repr

/-- rfc_dataEntryGeneral_t: `data` is the memory from its data field on. -/
structure DataEntry where
  status : DataEntryStatus
  data : Nat → Byte

/-- The events that firmware_rx_thread subscribes to. -/
structure RfEventMask where
  rxEntryDone : Bool
  rxBufFull : Bool
  rxNOk : Bool
  rxCollisionDetected : Bool
  deriving DecidableEq, Repr

def RfEventMask.none : RfEventMask := ⟨false, false, false, false⟩

def RfEventMask.union (e f : RfEventMask) : RfEventMask :=
  ⟨e.rxEntryDone || f.rxEntryDone, e.rxBufFull || f.rxBufFull, e.rxNOk || f.rxNOk,
    e.rxCollisionDetected || f.rxCollisionDetected⟩

/-- Where the callback is: before its first statement, or before RFQueue_nextEntry. -/
inductive CallbackPoint where
  | outside
  | entered (e : RfEventMask)
  | handled (e : RfEventMask)
  deriving DecidableEq, Repr

structure RxState where
  entries : Fin numDataEntries → DataEntry
  /-- The entry that the RF core fills next. -/
  pCurrEntry : Fin numDataEntries
  readEntry : Fin numDataEntries
  /-- The events raised since the last callback started. -/
  events : RfEventMask
  point : CallbackPoint
  packetQueue : PacketQueue

/-! ## The data entries -/

/-- The state after RFQueue_defineQueue and rf_packet_queue_init; `data` is what the buffer held. -/
def RxState.start (data : Fin numDataEntries → Nat → Byte) : RxState where
  entries := fun i => ⟨.pending, data i⟩
  pCurrEntry := 0
  readEntry := 0
  events := .none
  point := .outside
  packetQueue := PacketQueue.cleared.rfPacketQueueInit

def RxState.rfQueueGetDataEntry (s : RxState) : DataEntry := s.entries s.readEntry

def RxState.rfQueueNextEntry (s : RxState) : RxState :=
  { s with
    entries := Function.update s.entries s.readEntry { s.entries s.readEntry with status := .pending }
    readEntry := s.readEntry + 1 }

/-! ## The callback -/

/-- What becomes of an entry: its payload goes to rf_packet_queue_post_radio, or it
counts as a CRC error. -/
inductive Outcome where
  | posted (payload : List Byte)
  | crcError
  deriving DecidableEq, Repr

def packetLength (data : Nat → Byte) : Nat := (data 0).toNat

def packetDataPointer (data : Nat → Byte) : Nat → Byte := fun i => data (1 + i)

def packetStatus (data : Nat → Byte) : Byte := packetDataPointer data (packetLength data + 1)

def packetValid (data : Nat → Byte) : Bool := packetStatus data &&& 0xC0 == 0

def outcome (data : Nat → Byte) : Outcome :=
  if packetValid data then .posted ((List.range (packetLength data)).map (packetDataPointer data)) else .crcError

/-- The part of the callback under RF_EventRxEntryDone, up to RFQueue_nextEntry. -/
def PacketQueue.handleEntry (q : PacketQueue) (data : Nat → Byte) (rxTimestampTicks : Word) : PacketQueue :=
  let q := q.noteRssi (packetDataPointer data (packetLength data))
  if packetValid data then q.postRadio (packetDataPointer data) (packetLength data) rxTimestampTicks
  else q.noteCrcError rfGetRssiErrorVal

theorem handleEntry_eq (q : PacketQueue) (data : Nat → Byte) (ticks : Word) : q.handleEntry data ticks =
    match outcome data with
    | .posted _ =>
      (q.noteRssi (packetDataPointer data (packetLength data))).postRadio (packetDataPointer data)
        (packetLength data) ticks
    | .crcError => (q.noteRssi (packetDataPointer data (packetLength data))).noteCrcError rfGetRssiErrorVal := by
  unfold PacketQueue.handleEntry outcome
  cases packetValid data
  · rfl
  · rfl

def PacketQueue.noteEvents (q : PacketQueue) (e : RfEventMask) : PacketQueue :=
  let q := if e.rxBufFull then q.noteRxBufFull else q
  if e.rxCollisionDetected then q.noteCollision else q

inductive RxInput where
  /-- The RF core finishes the current entry with these data. -/
  | complete (data : Nat → Byte)
  /-- Other events of the RF core. -/
  | raise (e : RfEventMask)
  /-- The driver calls the callback. -/
  | enter
  /-- The callback up to RFQueue_nextEntry; the value of Clock_getTicks. -/
  | handle (ticks : Word)
  /-- RFQueue_nextEntry, and the return. -/
  | leave
  /-- The print task takes a message. -/
  | mailboxPend

structure RxEvent where
  input : RxInput
  /-- What the callback made of an entry. -/
  outcome : Option Outcome

inductive RxStep : RxState → RxEvent → RxState → Prop where
  | complete {s : RxState} (data : Nat → Byte) : (s.entries s.pCurrEntry).status = .pending →
      RxStep s ⟨.complete data, none⟩ { s with
        entries := Function.update s.entries s.pCurrEntry ⟨.finished, data⟩
        pCurrEntry := s.pCurrEntry + 1
        events := { s.events with rxEntryDone := true } }
  | raise {s : RxState} (e : RfEventMask) : e.rxEntryDone = false →
      RxStep s ⟨.raise e, none⟩ { s with events := s.events.union e }
  | enter {s : RxState} : s.point = .outside → s.events ≠ .none →
      RxStep s ⟨.enter, none⟩ { s with events := .none, point := .entered s.events }
  | handle {s : RxState} {e : RfEventMask} (ticks : Word) : s.point = .entered e →
      RxStep s ⟨.handle ticks, if e.rxEntryDone then some (outcome s.rfQueueGetDataEntry.data) else none⟩ { s with
        point := .handled e
        packetQueue := if e.rxEntryDone then (s.packetQueue.noteEvents e).handleEntry s.rfQueueGetDataEntry.data ticks
          else s.packetQueue.noteEvents e }
  | leave {s : RxState} {e : RfEventMask} : s.point = .handled e →
      RxStep s ⟨.leave, none⟩ { (if e.rxEntryDone then s.rfQueueNextEntry else s) with point := .outside }
  | mailboxPend {s : RxState} {message : RfPacketMessage} {rest : List RfPacketMessage} :
      s.packetQueue.packetMailbox = some (message :: rest) →
      RxStep s ⟨.mailboxPend, none⟩ { s with packetQueue := { s.packetQueue with packetMailbox := some rest } }

abbrev RxTransition := Transition RxState RxEvent

end Cc1310Firmware.Radio
