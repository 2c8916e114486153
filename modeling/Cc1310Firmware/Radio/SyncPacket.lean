import Cc1310Firmware.Bootloader.Crc16
import Cc1310Firmware.Codec.BigEndian
import Cc1310Firmware.Radio.Transmitter

/-! The packet that buildSyncPacket leaves in the static array.

It writes the bytes in order, so after each store the packet begins with what is
written so far; what a former packet left behind it is overwritten to the end.
-/

set_option autoImplicit false

namespace Cc1310Firmware.Radio
open Cli LittleEndian
open Bootloader (Half calculateCrc16_residue)

/-! ### Requests -/

def syncPacketType : SyncCommand → Byte
  | .syncTime => syncPacketTypeTime
  | .syncFrame => syncPacketTypeFrame

def syncPayloadLength : SyncCommand → Byte
  | .syncTime => syncTimePayloadLength
  | .syncFrame => syncFramePayloadLength

/-- A command with the number of its argument. -/
structure SyncRequest where
  command : SyncCommand
  number : Nat
  fits : number < 256 ^ (syncPayloadLength command).toNat

def SyncRequest.payload (request : SyncRequest) : List Byte :=
  BigEndian.bytesOf (BitVec.ofNat 64 request.number) (syncPayloadLength request.command).toNat

/-- The packet for a request is built. -/
def Transmitter.prepare (tx : Transmitter) (clockTicks : Nat → Word) (request : SyncRequest) : Transmitter :=
  tx.buildSyncPacket clockTicks (syncPacketType request.command) request.payload (syncPayloadLength request.command)

/-- A packet for a request, as the receivers know it. -/
structure SyncFrame (request : SyncRequest) (sequence : Byte) (frame : List Byte) : Prop where
  length : frame.length = 30
  magic : frame.take 2 = [0x53, 0x59]
  type : frame[2]? = some (syncPacketType request.command)
  payloadLength : frame[3]? = some (syncPayloadLength request.command)
  siteId : (frame.drop 4).take 2 = [0, 0]
  sequence : frame[6]? = some sequence
  sessionId : frame[7]? = some 0
  number : BigEndian.valueOf ((frame.drop 8).take (syncPayloadLength request.command).toNat) = request.number
  crc : calculateCrc16 frame 30 = 0

/-! ### Stores in order -/

def Transmitter.Begins (tx : Transmitter) (front : List Byte) : Prop := tx.packet.take front.length = front

theorem Transmitter.Begins.eq {tx : Transmitter} {front : List Byte} (begins : tx.Begins front)
    (whole : front.length = txPayloadLength) : tx.packet = front := by
  unfold Begins at begins
  rwa [whole, ← tx.size, List.take_length] at begins

theorem Transmitter.Begins.store {tx : Transmitter} {front : List Byte} (begins : tx.Begins front)
    (room : front.length < txPayloadLength) (byte : Byte) :
    (tx.store front.length byte).Begins (front ++ [byte]) := by
  have inside : front.length < tx.packet.length := by rwa [tx.size]
  unfold Begins at begins ⊢
  rw [List.length_append, List.length_singleton, Transmitter.store, List.take_add_one,
    List.take_set_of_le (Nat.le_refl _), begins, List.getElem?_set_self inside]
  rfl

theorem Transmitter.Begins.storeAll {tx : Transmitter} {front : List Byte} (begins : tx.Begins front)
    {data : List Byte}
    (room : front.length + data.length ≤ txPayloadLength) :
    (tx.storeAll front.length data).Begins (front ++ data) := by
  induction data generalizing tx front with
  | nil => rwa [List.append_nil]
  | cons byte data ih =>
    rw [List.length_cons] at room
    have next := ih (begins.store (by omega) byte) (by rw [List.length_append, List.length_singleton]; omega)
    rwa [List.length_append, List.length_singleton, List.append_assoc, List.singleton_append] at next

@[simp] theorem Transmitter.setRandomState_packet (tx : Transmitter) (randomState : Word) :
    (tx.setRandomState randomState).packet = tx.packet := rfl

@[simp] theorem Transmitter.setRandomState_syncSequence (tx : Transmitter) (randomState : Word) :
    (tx.setRandomState randomState).syncSequence = tx.syncSequence := rfl

-- By rfl the kernel compares the random states as well, and counts up to the increment.
@[simp] theorem Transmitter.nextRandomByte_packet (tx : Transmitter) (ticks : Word) :
    (tx.nextRandomByte ticks).1.packet = tx.packet := tx.setRandomState_packet _

@[simp] theorem Transmitter.nextRandomByte_syncSequence (tx : Transmitter) (ticks : Word) :
    (tx.nextRandomByte ticks).1.syncSequence = tx.syncSequence := tx.setRandomState_syncSequence _

@[simp] theorem Transmitter.store_syncSequence (tx : Transmitter) (index : Nat) (byte : Byte) :
    (tx.store index byte).syncSequence = tx.syncSequence := rfl

@[simp] theorem Transmitter.storeAll_syncSequence (tx : Transmitter) (index : Nat) (data : List Byte) :
    (tx.storeAll index data).syncSequence = tx.syncSequence := by
  induction data generalizing tx index with
  | nil => rfl
  | cons byte data ih => exact ih (tx.store index byte) (index + 1)

@[simp] theorem Transmitter.fill_syncSequence (clockTicks : Nat → Word) (count index : Nat) (tx : Transmitter) :
    (fill clockTicks count index tx).syncSequence = tx.syncSequence := by
  induction count generalizing tx index with
  | zero => rfl
  | succ count ih => rw [fill, ih, store_syncSequence, nextRandomByte_syncSequence]

/-- The reserved bytes are any bytes. -/
theorem Transmitter.Begins.fill {tx : Transmitter} {front : List Byte} (begins : tx.Begins front)
    (clockTicks : Nat → Word) {count : Nat} (room : front.length + count ≤ txPayloadLength) :
    ∃ filler, filler.length = count ∧
      (Transmitter.fill clockTicks count front.length tx).Begins (front ++ filler) := by
  induction count generalizing tx front with
  | zero => exact ⟨[], rfl, by rwa [List.append_nil]⟩
  | succ count ih =>
    have random : (tx.nextRandomByte (clockTicks front.length)).1.Begins front := by
      rwa [Begins, nextRandomByte_packet]
    have next := random.store (by omega) (tx.nextRandomByte (clockTicks front.length)).2
    obtain ⟨filler, length, filled⟩ := ih next (by rw [List.length_append, List.length_singleton]; omega)
    rw [List.length_append, List.length_singleton, List.append_assoc] at filled
    refine ⟨(tx.nextRandomByte (clockTicks front.length)).2 :: filler, by rw [List.length_cons, length], ?_⟩
    rw [Transmitter.fill]
    rwa [List.singleton_append] at filled

/-! ### The packet -/

/-- What precedes the payload. -/
def syncHeader (type payloadLength sequence : Byte) : List Byte :=
  [byteOf syncPacketMagic 1, byteOf syncPacketMagic 0, type, payloadLength, byteOf syncPacketSiteId 1,
    byteOf syncPacketSiteId 0, sequence, syncPacketSessionId]

theorem Transmitter.writeHeader_eq (tx : Transmitter) (type payloadLength : Byte) :
    (tx.writeHeader type payloadLength).packet =
      (tx.storeAll 0 (syncHeader type payloadLength tx.syncSequence)).packet := rfl

theorem Transmitter.writeHeader_begins (tx : Transmitter) (type payloadLength : Byte) :
    (tx.writeHeader type payloadLength).Begins (syncHeader type payloadLength tx.syncSequence) := by
  have empty : tx.Begins [] := rfl
  have room : ([] : List Byte).length + (syncHeader type payloadLength tx.syncSequence).length ≤ txPayloadLength :=
    Nat.le_of_ble_eq_true rfl
  have header := empty.storeAll room
  rw [Begins, writeHeader_eq]
  exact header

@[simp] theorem Transmitter.writeHeader_syncSequence (tx : Transmitter) (type payloadLength : Byte) :
    (tx.writeHeader type payloadLength).syncSequence = tx.syncSequence + 1 := by
  simp only [writeHeader, store_syncSequence]

@[simp] theorem Transmitter.writeCrc_syncSequence (tx : Transmitter) :
    tx.writeCrc.syncSequence = tx.syncSequence := by
  simp only [writeCrc, store_syncSequence]

theorem Transmitter.Begins.writeCrc {tx : Transmitter} {front : List Byte} (begins : tx.Begins front)
    (length : front.length = 28) : tx.writeCrc.packet =
      front ++ [byteOf (Bootloader.calculateCrc16 front) 1, byteOf (Bootloader.calculateCrc16 front) 0] := by
  have crc : calculateCrc16 tx.packet (txPayloadLength - syncPacketCrcLength) =
      Bootloader.calculateCrc16 front := by
    have covered : front.length = txPayloadLength - syncPacketCrcLength := length
    unfold Begins at begins
    rw [calculateCrc16, ← covered, begins]
  rw [Transmitter.writeCrc, crc]
  generalize Bootloader.calculateCrc16 front = crc
  have room : front.length + [byteOf crc 1, byteOf crc 0].length ≤ txPayloadLength :=
    Nat.le_of_eq (congrArg (· + 2) length)
  have whole : (front ++ [byteOf crc 1, byteOf crc 0]).length = txPayloadLength := by
    rw [List.length_append, length]
    rfl
  have stored := (begins.storeAll room).eq whole
  rw [length] at stored
  exact stored

theorem Transmitter.buildSyncPacket_syncSequence (tx : Transmitter) (clockTicks : Nat → Word) (type : Byte)
    (payload : List Byte) (payloadLength : Byte) :
    (tx.buildSyncPacket clockTicks type payload payloadLength).syncSequence = tx.syncSequence + 1 := by
  simp only [buildSyncPacket, writeCrc_syncSequence, fill_syncSequence, storeAll_syncSequence,
    writeHeader_syncSequence]

theorem Transmitter.buildSyncPacket_packet (tx : Transmitter) (clockTicks : Nat → Word) (type : Byte)
    {payload : List Byte} {payloadLength : Byte} (length : payload.length = payloadLength.toNat)
    (short : payloadLength.toNat ≤ 20) :
    ∃ filler : List Byte, filler.length = 20 - payloadLength.toNat ∧
      let front := syncHeader type payloadLength tx.syncSequence ++ payload ++ filler
      let crc := Bootloader.calculateCrc16 front
      (tx.buildSyncPacket clockTicks type payload payloadLength).packet = front ++
        [byteOf crc 1, byteOf crc 0] := by
  have header := tx.writeHeader_begins type payloadLength
  have header_length : (syncHeader type payloadLength tx.syncSequence).length = 8 := rfl
  have index : (syncPacketHeaderLength + payloadLength).toNat = 8 + payload.length := by
    rw [BitVec.toNat_add, show syncPacketHeaderLength.toNat = 8 from rfl, ← length, Nat.mod_eq_of_lt (by omega)]
  have room : (syncHeader type payloadLength tx.syncSequence).length + payload.length ≤ txPayloadLength := by
    rw [header_length, length]
    exact Nat.le_trans (Nat.add_le_add_left short 8) (by decide)
  have copied := header.storeAll room
  have count : (syncHeader type payloadLength tx.syncSequence ++ payload).length +
      (txPayloadLength - syncPacketCrcLength - (8 + payload.length)) = 28 := by
    rw [List.length_append, header_length, length]
    exact Nat.add_sub_of_le (Nat.add_le_add_left short 8)
  obtain ⟨filler, filler_length, filled⟩ := copied.fill clockTicks (Nat.le_trans (Nat.le_of_eq count) (by decide))
  rw [List.length_append, header_length] at filled
  refine ⟨filler, by rw [filler_length, length]; exact (Nat.sub_sub 28 8 _).symm, ?_⟩
  have done := filled.writeCrc (by rw [List.length_append, filler_length, count])
  rw [buildSyncPacket]
  dsimp only
  rw [← length, List.take_length, index]
  exact done

/-! ### The packet for a request -/

theorem syncPayloadLength_le (command : SyncCommand) : (syncPayloadLength command).toNat ≤ 8 := by
  cases command with
  | syncTime | syncFrame => decide

theorem SyncRequest.length_payload (request : SyncRequest) :
    request.payload.length = (syncPayloadLength request.command).toNat := BigEndian.length_bytesOf _ _

theorem SyncRequest.valueOf_payload (request : SyncRequest) :
    BigEndian.valueOf request.payload = request.number := by
  have word : request.number < 2 ^ 64 :=
    Nat.lt_of_lt_of_le request.fits (Nat.pow_le_pow_right (n := 256) (by decide) (syncPayloadLength_le request.command))
  rw [payload, BigEndian.valueOf_bytesOf, BitVec.toNat_ofNat, Nat.mod_eq_of_lt word, Nat.mod_eq_of_lt request.fits]

@[simp] theorem Transmitter.prepare_syncSequence (tx : Transmitter) (clockTicks : Nat → Word)
    (request : SyncRequest) :
    (tx.prepare clockTicks request).syncSequence = tx.syncSequence + 1 := buildSyncPacket_syncSequence _ _ _ _ _

theorem Transmitter.prepare_frame (tx : Transmitter) (clockTicks : Nat → Word) (request : SyncRequest) :
    SyncFrame request tx.syncSequence (tx.prepare clockTicks request).packet := by
  have size := (tx.prepare clockTicks request).size
  have short := Nat.le_trans (syncPayloadLength_le request.command) (show 8 ≤ 20 by decide)
  obtain ⟨filler, filler_length, packet⟩ := tx.buildSyncPacket_packet clockTicks (syncPacketType request.command)
    request.length_payload short
  rw [← prepare] at packet
  dsimp only at packet
  have behind : ∃ back, (tx.prepare clockTicks request).packet.drop 8 = request.payload ++ back := by
    rw [packet, List.append_assoc, List.append_assoc]
    exact ⟨_, rfl⟩
  have whole : (tx.prepare clockTicks request).packet.take 30 = (tx.prepare clockTicks request).packet :=
    List.take_of_length_le (Nat.le_of_eq size)
  exact {
    length := size
    magic := by rw [packet]; rfl
    type := by rw [packet]; rfl
    payloadLength := by rw [packet]; rfl
    siteId := by rw [packet]; rfl
    sequence := by rw [packet]; rfl
    sessionId := by rw [packet]; rfl
    number := by
      obtain ⟨back, behind⟩ := behind
      rw [behind, ← request.length_payload, List.take_left, request.valueOf_payload]
    crc := by
      rw [calculateCrc16, whole, packet]
      exact calculateCrc16_residue _ }

end Cc1310Firmware.Radio
