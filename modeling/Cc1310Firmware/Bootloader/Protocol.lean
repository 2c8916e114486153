import Cc1310Firmware.Bootloader.Update
import Mathlib.Logic.Function.Basic

/-! The framed UART protocol of the bootloader: CRC-16, the two COBS loops and
the functions that write and read a frame.

A `uint8_t *` is the memory behind it, indexed from the pointer on. The loops
keep their uint16_t indices within lengths that are uint16_t themselves, so the
indices are natural numbers.
-/

set_option autoImplicit false

namespace Cc1310Firmware.Bootloader
open LittleEndian

abbrev Buffer := Nat → Byte

def protocolVersion : Byte := 2
def maxEncodedFrameSize : Nat := 160

/-- The first `length` bytes behind a pointer to `buffer[index]`. -/
def Buffer.slice (buffer : Buffer) (index length : Nat) : List Byte :=
  (List.range length).map fun i => buffer (index + i)

/-- buffer[index] = byte -/
def Buffer.store (buffer : Buffer) (index : Nat) (byte : Byte) : Buffer := Function.update buffer index byte

/-- `count` rounds of the bitwise CRC-16 loop. -/
def crc16Bits : Nat → Half → Half
  | 0, crc => crc
  | count + 1, crc => crc16Bits count (if crc &&& 0x8000 != 0 then (crc <<< 1) ^^^ 0x1021 else crc <<< 1)

def crc16Step (crc : Half) (byte : Byte) : Half := crc16Bits 8 (crc ^^^ byte.setWidth 16 <<< 8)

def calculateCrc16 (data : List Byte) : Half := data.foldl crc16Step 0xFFFF

/-- The local variables of cobsEncode. -/
structure CobsEncoder where
  destination : Buffer
  destinationIndex : Nat
  codeIndex : Nat
  code : Byte

/-- `destination[codeIndex] = code; codeIndex = destinationIndex++; code = 1` -/
def CobsEncoder.close (encoder : CobsEncoder) : CobsEncoder where
  destination := encoder.destination.store encoder.codeIndex encoder.code
  destinationIndex := encoder.destinationIndex + 1
  codeIndex := encoder.destinationIndex
  code := 1

/-- `destination[destinationIndex++] = byte; ++code` -/
def CobsEncoder.push (encoder : CobsEncoder) (byte : Byte) : CobsEncoder :=
  { encoder with
    destination := encoder.destination.store encoder.destinationIndex byte
    destinationIndex := encoder.destinationIndex + 1
    code := encoder.code + 1 }

def CobsEncoder.step (encoder : CobsEncoder) (byte : Byte) : CobsEncoder :=
  if byte == 0 then encoder.close
  else if (encoder.push byte).code == 0xFF then (encoder.push byte).close else encoder.push byte

/-- The destination after cobsEncode and the length it returns. -/
def cobsEncode (source : List Byte) (destination : Buffer) : Buffer × Nat :=
  let encoder := source.foldl CobsEncoder.step ⟨destination.store 0 0, 1, 0, 1⟩
  (encoder.destination.store encoder.codeIndex encoder.code, encoder.destinationIndex)

/-- `count` rounds of `buffer[writeIndex++] = buffer[readIndex++]` -/
def cobsCopy : Nat → Buffer → Nat → Nat → Buffer
  | 0, buffer, _, _ => buffer
  | count + 1, buffer, readIndex, writeIndex =>
    cobsCopy count (buffer.store writeIndex (buffer readIndex)) (readIndex + 1) (writeIndex + 1)

/-- The loop of cobsDecode: the buffer it leaves and the decoded length, `none` for -1. -/
def cobsDecodeLoop (buffer : Buffer) (encodedLength readIndex writeIndex : Nat) : Buffer × Option Nat :=
  if readIndex < encodedLength then
    let code := (buffer readIndex).toNat
    if code = 0 ∨ encodedLength < readIndex + 1 + code - 1 then (buffer, none)
    else
      let copied := cobsCopy (code - 1) buffer (readIndex + 1) writeIndex
      if code ≠ 0xFF ∧ readIndex + code < encodedLength then
        cobsDecodeLoop (copied.store (writeIndex + (code - 1)) 0) encodedLength (readIndex + code)
          (writeIndex + (code - 1) + 1)
      else cobsDecodeLoop copied encodedLength (readIndex + code) (writeIndex + (code - 1))
  else (buffer, some writeIndex)
termination_by encodedLength - readIndex
decreasing_by all_goals omega

/-- cobsDecode works in place. -/
def cobsDecode (buffer : Buffer) (encodedLength : Nat) : Buffer × Option Nat :=
  cobsDecodeLoop buffer encodedLength 0 0

/-- The bytes of a decoded frame that its CRC covers. -/
def coveredBytes (messageType : Byte) (sequenceNumber : Half) (payload : List Byte) : List Byte :=
  [protocolVersion, messageType] ++ bytesOf sequenceNumber 2 ++ bytesOf (BitVec.ofNat 16 payload.length) 2 ++
    payload

/-- The decoded frame that writeProtocolFrame builds. -/
def decodedFrame (messageType : Byte) (sequenceNumber : Half) (payload : List Byte) : List Byte :=
  coveredBytes messageType sequenceNumber payload ++
  bytesOf (calculateCrc16 (coveredBytes messageType sequenceNumber payload)) 2

/-- What writeProtocolFrame sends; `stack` is what the encodedFrame array held before. -/
def writeProtocolFrame (stack : Buffer) (frame : ProtocolFrame) : List Byte :=
  let (encodedFrame, frameLength) :=
    cobsEncode (decodedFrame frame.messageType frame.sequenceNumber frame.payload) stack
  encodedFrame.slice 0 frameLength ++ [0]

/-- The local variables of readProtocolFrame between two bytes. -/
structure Receiver where
  encodedFrame : Buffer
  encodedLength : Nat
  room : encodedLength ≤ maxEncodedFrameSize

/-- `encodedLength = 0` -/
def Receiver.restart (encodedFrame : Buffer) : Receiver := ⟨encodedFrame, 0, Nat.zero_le _⟩

/-- The checks of readProtocolFrame on a decoded frame and the values that it returns. -/
def checkedFrame (encodedFrame : Buffer) (decodedLength : Nat) : Option ProtocolFrame :=
  let payloadLength := word16 (encodedFrame 4) (encodedFrame 5)
  let receivedCrc := word16 (encodedFrame (decodedLength - 2)) (encodedFrame (decodedLength - 1))
  if BitVec.ofNat 16 decodedLength == 8 + payloadLength && encodedFrame 0 == protocolVersion &&
      receivedCrc == calculateCrc16 (encodedFrame.slice 0 (decodedLength - 2)) then
    some ⟨encodedFrame 1, word16 (encodedFrame 2) (encodedFrame 3), encodedFrame.slice 6 payloadLength.toNat⟩
  else none

/-- A delimiter: the frame it completes, if the buffer holds one. -/
def Receiver.complete (receiver : Receiver) : Receiver × Option ProtocolFrame :=
  if receiver.encodedLength = 0 then (receiver, none)
  else
    match cobsDecode receiver.encodedFrame receiver.encodedLength with
    | (encodedFrame, none) => (.restart encodedFrame, none)
    | (encodedFrame, some decodedLength) =>
      if decodedLength < 8 then (.restart encodedFrame, none)
      else (.restart encodedFrame, checkedFrame encodedFrame decodedLength)

/-- One iteration of the loop in readProtocolFrame. -/
def Receiver.receive (receiver : Receiver) (receivedByte : Byte) : Receiver × Option ProtocolFrame :=
  if receivedByte ≠ 0 then
    if room : receiver.encodedLength < maxEncodedFrameSize then
      (⟨receiver.encodedFrame.store receiver.encodedLength receivedByte, receiver.encodedLength + 1, room⟩, none)
    else (.restart receiver.encodedFrame, none)
  else receiver.complete

/-- The loop of readProtocolFrame on the bytes that arrive: the frame it returns
and the bytes it leaves. It is `none` while the call waits for another byte. -/
def Receiver.read : Receiver → List Byte → Option (ProtocolFrame × List Byte)
  | _, [] => none
  | receiver, receivedByte :: rest =>
    match receiver.receive receivedByte with
    | (_, some frame) => some (frame, rest)
    | (receiver, none) => receiver.read rest

/-- readProtocolFrame; `stack` is what the encodedFrame array held before. -/
def readProtocolFrame (stack : Buffer) (stream : List Byte) : Option (ProtocolFrame × List Byte) :=
  Receiver.read (.restart stack) stream

/-- The frames that a call in progress and the calls after it deliver from a stream. -/
inductive Delivers : Receiver → List Byte → List ProtocolFrame → Prop where
  | waiting {receiver : Receiver} {stream : List Byte} : receiver.read stream = none → Delivers receiver stream []
  | delivered {receiver : Receiver} {stream rest : List Byte} {frame : ProtocolFrame} {frames : List ProtocolFrame}
      (stack : Buffer) : receiver.read stream = some (frame, rest) → Delivers (.restart stack) rest frames →
      Delivers receiver stream (frame :: frames)

end Cc1310Firmware.Bootloader
