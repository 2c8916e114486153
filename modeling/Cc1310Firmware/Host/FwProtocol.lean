import Cc1310Firmware.Codec.LittleEndian
import Mathlib.Data.List.DropRight

/-! The host side of the framed UART protocol, from fw_protocol.py.

A `bytes` object is a list of bytes and an `int` that never gets negative a natural
number; `none` is an exception.
-/

set_option autoImplicit false

namespace Cc1310Firmware.Host
open LittleEndian

def protocolVersion : Nat := 2

def kindHello : Nat := 1
def kindInfo : Nat := 2
def kindBegin : Nat := 3
def kindReady : Nat := 4
def kindData : Nat := 5
def kindAck : Nat := 6
def kindNack : Nat := 7
def kindEnd : Nat := 8
def kindComplete : Nat := 9

/-- data[start:stop] -/
def slice (data : List Byte) (start stop : Nat) : List Byte := (data.drop start).take (stop - start)

/-- int.from_bytes(data, "little") -/
def fromBytes (data : List Byte) : Nat := data.foldr (fun byte value => byte.toNat + 256 * value) 0

/-- value.to_bytes(4, "little"); an OverflowError is `none`. -/
def toBytes4 (value : Nat) : Option (List Byte) :=
  if value < 2 ^ 32 then some (bytesOf (BitVec.ofNat 32 value) 4) else none

/-- `count` rounds of the loop over the bits in crc16_ccitt. -/
def crc16Bits : Nat → Nat → Nat
  | 0, crc => crc
  | count + 1, crc =>
    crc16Bits count (if crc &&& 0x8000 ≠ 0 then ((crc <<< 1) ^^^ 0x1021) &&& 0xFFFF else (crc <<< 1) &&& 0xFFFF)

def crc16Ccitt (data : List Byte) : Nat :=
  data.foldl (fun crc byte => crc16Bits 8 (crc ^^^ (byte.toNat <<< 8))) 0xFFFF

/-- The local variables of cobs_encode. -/
structure CobsEncoder where
  output : List Byte
  codeIndex : Nat
  code : Nat

/-- `output[code_index] = code; code_index = len(output); output.append(0); code = 1` -/
def CobsEncoder.close (encoder : CobsEncoder) : CobsEncoder where
  output := encoder.output.set encoder.codeIndex (BitVec.ofNat 8 encoder.code) ++ [0]
  codeIndex := encoder.output.length
  code := 1

/-- `output.append(byte); code += 1` -/
def CobsEncoder.push (encoder : CobsEncoder) (byte : Byte) : CobsEncoder :=
  { encoder with output := encoder.output ++ [byte], code := encoder.code + 1 }

def CobsEncoder.step (encoder : CobsEncoder) (byte : Byte) : CobsEncoder :=
  if byte == 0 then encoder.close
  else if (encoder.push byte).code = 0xFF then (encoder.push byte).close else encoder.push byte

def cobsEncode (data : List Byte) : List Byte :=
  let encoder := data.foldl CobsEncoder.step ⟨[0], 0, 1⟩
  encoder.output.set encoder.codeIndex (BitVec.ofNat 8 encoder.code)

/-- The loop of cobs_decode. -/
def cobsDecodeLoop (data output : List Byte) (index : Nat) : Option (List Byte) :=
  if more : index < data.length then
    let code := data[index].toNat
    if code = 0 ∨ data.length < index + code then none
    else
      let output := output ++ slice data (index + 1) (index + code)
      cobsDecodeLoop data (if code ≠ 0xFF ∧ index + code < data.length then output ++
        [0] else output) (index + code)
  else some output
termination_by data.length - index
decreasing_by all_goals omega

def cobsDecode (data : List Byte) : Option (List Byte) := cobsDecodeLoop data [] 0

/-- FRAME_HEAD.pack; struct refuses a value that its field cannot hold. -/
def frameHeadPack (version messageType sequence length : Nat) : Option (List Byte) :=
  if version < 2 ^ 8 ∧ messageType < 2 ^ 8 ∧ sequence < 2 ^ 16 ∧ length < 2 ^ 16 then
    some ([BitVec.ofNat 8 version, BitVec.ofNat 8 messageType] ++ bytesOf (BitVec.ofNat 16 sequence) 2 ++
      bytesOf (BitVec.ofNat 16 length) 2)
  else none

def encode (messageType sequence : Nat) (payload : List Byte) : Option (List Byte) := do
  let head := (← frameHeadPack protocolVersion messageType sequence payload.length) ++ payload
  return cobsEncode (head ++ bytesOf (BitVec.ofNat 16 (crc16Ccitt head)) 2) ++ [0]

/-- The kind, sequence number and payload of a frame; a ValueError is `none`. -/
def decode (wire : List Byte) : Option (Nat × Nat × List Byte) := do
  let raw ← cobsDecode (wire.rdropWhile (· == 0))
  if raw.length < 8 then none
  else if fromBytes (slice raw 0 1) ≠ protocolVersion ∨ raw.length ≠ 6 + fromBytes (slice raw 4 6) + 2 then none
  else if crc16Ccitt (slice raw 0 (raw.length - 2)) ≠ fromBytes (slice raw (raw.length - 2) raw.length) then none
  else some (fromBytes (slice raw 1 2), fromBytes (slice raw 2 4), slice raw 6 (raw.length - 2))

end Cc1310Firmware.Host
