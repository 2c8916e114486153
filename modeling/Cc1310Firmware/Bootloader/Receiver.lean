import Cc1310Firmware.Bootloader.ProtocolCodec

/-! Which frames readProtocolFrame delivers from a byte stream.

A segment is what stands before a delimiter. The receiver keeps `received` of an
unfinished segment: when the buffer is full, the next byte is dropped and
encodedLength starts again at 0, in the middle of the segment.
-/

set_option autoImplicit false

namespace Cc1310Firmware.Bootloader
open LittleEndian

/-- The zero-free segments that a delimiter ends, after the bytes of an open segment. -/
def segments : List Byte → List Byte → List (List Byte)
  | _, [] => []
  | segment, byte :: rest => if byte = 0 then segment :: segments [] rest else segments (segment ++ [byte]) rest

theorem segments_append (segment before rest : List Byte) :
    segments segment (before ++ 0 :: rest) = segments segment (before ++ [0]) ++ segments [] rest := by
  induction before generalizing segment with
  | nil => simp [segments]
  | cons byte before ih =>
    simp only [List.cons_append, segments]
    split
    · rw [ih, List.cons_append]
    · exact ih _

theorem segments_whole (segment bytes : List Byte) (nonzero : ∀ b ∈ bytes, b ≠ 0) :
    segments segment (bytes ++ [0]) = [segment ++ bytes] := by
  induction bytes generalizing segment with
  | nil => simp [segments]
  | cons byte rest ih =>
    rw [List.cons_append, segments, if_neg (nonzero byte (by simp)),
      ih _ fun b member => nonzero b (by simp [member])]
    simp

/-- What the buffer holds of a segment. -/
def received (segment : List Byte) : List Byte :=
  segment.drop ((maxEncodedFrameSize + 1) * (segment.length / (maxEncodedFrameSize + 1)))

theorem length_received (segment : List Byte) :
    (received segment).length = segment.length % (maxEncodedFrameSize + 1) := by
  have division := Nat.div_add_mod segment.length (maxEncodedFrameSize + 1)
  rw [received, List.length_drop]
  omega

theorem received_of_le {segment : List Byte} (fits : segment.length ≤ maxEncodedFrameSize) :
    received segment = segment := by
  rw [received, Nat.div_eq_of_lt (Nat.lt_succ_of_le fits)]
  rfl

theorem received_concat (segment : List Byte) (byte : Byte) : received (segment ++ [byte]) =
    if (received segment).length < maxEncodedFrameSize then received segment ++ [byte] else [] := by
  rw [length_received]
  unfold received
  rw [List.length_append, List.length_singleton]
  have division := Nat.div_add_mod segment.length (maxEncodedFrameSize + 1)
  split
  case isTrue room =>
    have same : (segment.length + 1) / (maxEncodedFrameSize + 1) = segment.length / (maxEncodedFrameSize + 1) := by
      simp only [maxEncodedFrameSize] at *
      omega
    rw [same, List.drop_append_of_le_length (by omega)]
  case isFalse full =>
    apply List.drop_eq_nil_of_le
    simp only [List.length_append, List.length_singleton, maxEncodedFrameSize] at *
    omega

/-- The frame that encoded bytes stand for. -/
def frameOf (encoded : List Byte) : Option ProtocolFrame := (Cobs.decode encoded).bind parseFrame

@[simp] theorem frameOf_nil : frameOf [] = none := by simp [frameOf, parseFrame_short]

/-- The receiver is in the middle of a segment. -/
def Receiver.Holds (receiver : Receiver) (segment : List Byte) : Prop :=
  receiver.encodedFrame.slice 0 receiver.encodedLength = received segment

theorem Receiver.holds_restart (buffer : Buffer) : (Receiver.restart buffer).Holds [] := rfl

/-- Whatever is in the buffer is the start of some segment. -/
theorem Receiver.holds_buffer (receiver : Receiver) :
    receiver.Holds (receiver.encodedFrame.slice 0 receiver.encodedLength) :=
  (received_of_le (by rw [Buffer.length_slice]; exact receiver.room)).symm

theorem Receiver.Holds.length {receiver : Receiver} {segment : List Byte} (holds : receiver.Holds segment) :
    receiver.encodedLength = (received segment).length := by
  rw [← holds, Buffer.length_slice]

theorem Receiver.Holds.receive {receiver : Receiver} {segment : List Byte} (holds : receiver.Holds segment)
    {byte : Byte} (nonzero : byte ≠ 0) :
    ∃ receiver', receiver.receive byte = (receiver', none) ∧ receiver'.Holds (segment ++ [byte]) := by
  rw [Receiver.receive, if_pos nonzero]
  have concat := received_concat segment byte
  rw [← holds.length] at concat
  split
  case isTrue room =>
    rw [if_pos room, ← holds] at concat
    refine ⟨_, rfl, ?_⟩
    rw [Receiver.Holds, concat, Buffer.slice_concat, Buffer.slice_store _ _ (.inr (by omega)), Nat.zero_add]
    exact congrArg (_ ++ [·]) (Buffer.store_same ..)
  case isFalse full =>
    rw [if_neg full] at concat
    exact ⟨_, rfl, concat.symm⟩

/-- A delimiter delivers the frame of the bytes held, or starts the next segment. -/
theorem Receiver.complete_spec (receiver : Receiver) : ∃ receiver',
    receiver.complete = (receiver', frameOf (receiver.encodedFrame.slice 0 receiver.encodedLength)) ∧
    receiver'.Holds [] := by
  unfold Receiver.complete
  split
  case isTrue empty => exact ⟨receiver, by rw [empty]; simp, by rw [Receiver.Holds, empty]; rfl⟩
  case isFalse =>
    have decoded := cobsDecode_spec receiver.encodedFrame receiver.encodedLength
    generalize cobsDecode receiver.encodedFrame receiver.encodedLength = result at decoded
    obtain ⟨buffer, length⟩ := result
    obtain ⟨_, lengths, contents⟩ := decoded
    rw [Nat.sub_zero] at lengths contents
    dsimp only at lengths contents
    generalize encoded_ : receiver.encodedFrame.slice 0 receiver.encodedLength = encoded at lengths contents ⊢
    cases decodes : Cobs.decode encoded with
    | none =>
      -- an encoding that does not decode is dropped
      rw [decodes] at lengths
      subst lengths
      refine ⟨_, ?_, Receiver.holds_restart buffer⟩
      simp [frameOf, decodes]
    | some data =>
      rw [decodes, Option.map_some, Nat.zero_add] at lengths
      subst lengths
      refine ⟨_, ?_, Receiver.holds_restart buffer⟩
      have shorter := Cobs.length_decode_le encoded data decodes
      rw [← encoded_, Buffer.length_slice] at shorter
      have room := receiver.room
      rw [frameOf, decodes, Option.bind_some]
      dsimp only
      split
      case isTrue short => rw [parseFrame_short short]
      case isFalse long =>
        -- the decoded frame is no longer than its encoding, which fits in the buffer
        rw [checkedFrame_eq (contents data decodes) (Nat.le_of_not_lt long)]
        simp only [maxEncodedFrameSize] at room
        omega

/-- One call: it waits for ever if no segment of the stream delivers a frame, and
else returns the first frame and leaves the segments after it. -/
theorem Receiver.Holds.read {receiver : Receiver} {segment : List Byte} (holds : receiver.Holds segment)
    (stream : List Byte) : (segments segment stream).filterMap (frameOf ∘ received) =
      match receiver.read stream with
      | none => []
      | some (frame, rest) => frame :: (segments [] rest).filterMap (frameOf ∘ received) := by
  induction stream generalizing receiver segment with
  | nil => rfl
  | cons byte rest ih =>
    rw [segments, Receiver.read]
    split
    case isTrue delimiter =>
      obtain ⟨receiver', complete, holds'⟩ := receiver.complete_spec
      rw [Receiver.receive, if_neg (not_not.mpr delimiter), complete, holds]
      cases delivered : frameOf (received segment) with
      | none =>
        rw [List.filterMap_cons_none (by exact delivered)]
        exact ih holds'
      | some frame => rw [List.filterMap_cons_some (by exact delivered)]
    case isFalse nonzero =>
      obtain ⟨receiver', receive, holds'⟩ := holds.receive nonzero
      rw [receive]
      exact ih holds'

/-- A call that reads the rest of one segment. -/
theorem Receiver.Holds.read_segment {receiver : Receiver} {segment : List Byte} (holds : receiver.Holds segment)
    (bytes : List Byte) (nonzero : ∀ b ∈ bytes, b ≠ 0) :
    receiver.read (bytes ++ [0]) = (frameOf (received (segment ++ bytes))).map fun frame => (frame, []) := by
  induction bytes generalizing receiver segment with
  | nil =>
    obtain ⟨receiver', complete, _⟩ := receiver.complete_spec
    rw [List.nil_append, List.append_nil, Receiver.read, Receiver.receive, if_neg (not_not.mpr rfl), complete,
      holds]
    cases frameOf (received segment) with
    | none => rfl
    | some frame => rfl
  | cons byte bytes ih =>
    obtain ⟨here, others⟩ := List.forall_mem_cons.mp nonzero
    obtain ⟨receiver', receive, holds'⟩ := holds.receive here
    rw [List.cons_append, Receiver.read, receive]
    dsimp only
    rw [ih holds' others, List.append_assoc]
    rfl

/-- Every segment delivers the frame of what the buffer holds of it. -/
theorem Delivers.eq_segments {receiver : Receiver} {stream segment : List Byte} {frames : List ProtocolFrame}
    (delivers : Delivers receiver stream frames) (holds : receiver.Holds segment) :
    frames = (segments segment stream).filterMap (frameOf ∘ received) := by
  induction delivers generalizing segment with
  | waiting none_ => rw [holds.read, none_]
  | delivered stack some_ _ ih => rw [holds.read, some_, ih (Receiver.holds_restart stack)]

/-- A read goes on over bytes that are no delimiters. -/
theorem Receiver.read_append (receiver : Receiver) (bytes rest : List Byte) (nonzero : ∀ b ∈ bytes, b ≠ 0) :
    ∃ receiver' : Receiver, receiver.read (bytes ++ rest) = receiver'.read rest := by
  induction bytes generalizing receiver with
  | nil => exact ⟨receiver, rfl⟩
  | cons byte bytes ih =>
    obtain ⟨here, others⟩ := List.forall_mem_cons.mp nonzero
    have holds := receiver.holds_buffer
    obtain ⟨receiver', receive, _⟩ := holds.receive here
    obtain ⟨receiver'', read⟩ := ih receiver' others
    refine ⟨receiver'', ?_⟩
    rw [List.cons_append, Receiver.read, receive]
    exact read

theorem Receiver.length_of_read {receiver : Receiver} {stream rest : List Byte} {frame : ProtocolFrame}
    (read : receiver.read stream = some (frame, rest)) : rest.length < stream.length := by
  induction stream generalizing receiver with
  | nil => cases read
  | cons byte stream ih =>
    rw [Receiver.read] at read
    split at read
    · cases read
      exact Nat.lt_succ_self _
    · exact Nat.lt_succ_of_lt (ih read)

theorem exists_delivers (receiver : Receiver) (stream : List Byte) : ∃ frames, Delivers receiver stream frames := by
  induction length : stream.length using Nat.strong_induction_on generalizing receiver stream with
  | _ n ih =>
    cases read : receiver.read stream with
    | none => exact ⟨[], .waiting read⟩
    | some result =>
      obtain ⟨frame, rest⟩ := result
      obtain ⟨frames, delivers⟩ := ih _ (length ▸ Receiver.length_of_read read) (.restart fun _ => 0) rest rfl
      exact ⟨frame :: frames, .delivered _ read delivers⟩

theorem Receiver.Holds.delivers {receiver : Receiver} {segment : List Byte} (holds : receiver.Holds segment)
    (stream : List Byte) : Delivers receiver stream ((segments segment stream).filterMap (frameOf ∘ received)) := by
  obtain ⟨frames, delivers⟩ := exists_delivers receiver stream
  rwa [← delivers.eq_segments holds]

theorem frameOf_encode (messageType : Byte) (sequenceNumber : Half) {payload : List Byte}
    (short : payload.length < 2 ^ 16) :
    frameOf (Cobs.encode (decodedFrame messageType sequenceNumber payload)) =
      some ⟨messageType, sequenceNumber, payload⟩ := by
  rw [frameOf, Cobs.decode_encode]
  exact parseFrame_decodedFrame messageType sequenceNumber short

/-- The frame of a segment that is accepted only as a whole. -/
def wholeFrame (segment : List Byte) : Option ProtocolFrame :=
  if segment.length ≤ maxEncodedFrameSize then frameOf segment else none

theorem length_filterMap_le {α β : Type} {f g : α → Option β} {l : List α}
    (weaker : ∀ x ∈ l, g x = f x ∨ g x = none) :
    (l.filterMap g).length ≤ (l.filterMap f).length := by
  induction l with
  | nil => exact Nat.le_refl _
  | cons x l ih =>
    have shorter := ih fun y member => weaker y (List.mem_cons_of_mem x member)
    rcases weaker x List.mem_cons_self with same | none_
    · simp only [List.filterMap_cons, same]
      split
      · exact shorter
      · exact Nat.succ_le_succ shorter
    · rw [List.filterMap_cons_none none_, List.filterMap_cons]
      split
      · exact shorter
      · exact Nat.le_succ_of_le shorter

/-- A filter that lets less through gives the same list only if it drops nothing. -/
theorem filterMap_eq_iff {α β : Type} {f g : α → Option β} {l : List α} (weaker : ∀ x ∈ l, g x = f x ∨ g x = none) :
    l.filterMap f = l.filterMap g ↔ ∀ x ∈ l, f x = g x := by
  constructor
  · intro same
    induction l with
    | nil => simp
    | cons x l ih =>
      have rest : ∀ y ∈ l, g y = f y ∨ g y = none := fun y member => weaker y (List.mem_cons_of_mem x member)
      rcases weaker x List.mem_cons_self with equal | none_
      · rw [List.forall_mem_cons]
        refine ⟨equal.symm, ih rest ?_⟩
        simp only [List.filterMap_cons, equal] at same
        split at same
        · exact same
        · exact List.tail_eq_of_cons_eq same
      · rw [List.filterMap_cons_none none_] at same
        cases some_ : f x with
        | none =>
          rw [List.filterMap_cons_none some_] at same
          exact List.forall_mem_cons.mpr ⟨some_.trans none_.symm, ih rest same⟩
        | some y =>
          have shorter := length_filterMap_le rest
          rw [← same, List.filterMap_cons_some some_] at shorter
          exact absurd shorter (Nat.not_succ_le_self _)
  · intro same
    exact List.filterMap_congr same

/-- The delivered frames are the segments of at most 160 bytes that decode to a
frame, each as a whole, exactly when no longer segment ends in a frame that
begins at a multiple of 161 bytes. -/
theorem delivers_whole_segments_iff {stack : Buffer} {stream : List Byte} {frames : List ProtocolFrame}
    (delivers : Delivers (.restart stack) stream frames) :
    frames = (segments [] stream).filterMap wholeFrame ↔
      ∀ segment ∈ segments [] stream, maxEncodedFrameSize < segment.length → frameOf (received segment) = none := by
  have whole : ∀ segment : List Byte, segment.length ≤ maxEncodedFrameSize →
      frameOf (received segment) = wholeFrame segment := by
    intro segment fits
    rw [wholeFrame, if_pos fits, received_of_le fits]
  have overlong : ∀ segment : List Byte, maxEncodedFrameSize < segment.length → wholeFrame segment = none :=
    fun segment long => if_neg (Nat.not_le_of_lt long)
  have weaker : ∀ segment ∈ segments [] stream,
      wholeFrame segment = (frameOf ∘ received) segment ∨ wholeFrame segment = none := by
    intro segment _
    rcases Nat.lt_or_ge maxEncodedFrameSize segment.length with long | fits
    · exact .inr (overlong segment long)
    · exact .inl (whole segment fits).symm
  rw [delivers.eq_segments (Receiver.holds_restart stack), filterMap_eq_iff weaker]
  apply forall₂_congr
  intro segment _
  constructor
  · intro same long
    exact same.trans (overlong segment long)
  · intro dropped
    rcases Nat.lt_or_ge maxEncodedFrameSize segment.length with long | fits
    · exact (dropped long).trans (overlong segment long).symm
    · exact whole segment fits

/-- A HELLO as it is sent, without its delimiter. -/
def encodedHello : List Byte := Cobs.encode (decodedFrame protocolHello 1 [])

theorem frameOf_encodedHello : frameOf encodedHello = some ⟨protocolHello, 1, []⟩ :=
  frameOf_encode protocolHello 1 (by decide)

theorem encodedHello_nonzero : ∀ b ∈ encodedHello, b ≠ 0 := Cobs.encode_nonzero _

theorem delivers_whole_segments_iff_hello :
    ([⟨protocolHello, 1, []⟩] : List ProtocolFrame) = (segments [] (encodedHello ++ [0])).filterMap wholeFrame ↔
      ∀ segment ∈ segments [] (encodedHello ++ [0]), maxEncodedFrameSize < segment.length →
        frameOf (received segment) = none := by
  have delivers := (Receiver.holds_restart fun _ => 0).delivers (encodedHello ++ [0])
  have fits : received encodedHello = encodedHello := received_of_le (by decide +kernel)
  have hello : (segments [] (encodedHello ++ [0])).filterMap (frameOf ∘ received) = [⟨protocolHello, 1, []⟩] := by
    rw [segments_whole _ _ encodedHello_nonzero, List.nil_append]
    simp [fits, frameOf_encodedHello]
  rw [hello] at delivers
  exact delivers_whole_segments_iff delivers

/-- 161 bytes of noise in front of a HELLO. -/
def noisyHello : List Byte := List.replicate 161 0x55 ++ encodedHello

theorem segments_noisyHello : segments [] (noisyHello ++ [0]) = [noisyHello] := by
  apply segments_whole
  intro b member
  rcases List.mem_append.mp member with noise | hello
  · rw [List.eq_of_mem_replicate noise]
    decide
  · exact encodedHello_nonzero b hello

/-- The tail of an overlong segment is delivered. -/
theorem overlong_tail_delivered : ∃ stream frames, Delivers (.restart fun _ => 0) stream frames ∧
    (∀ segment ∈ segments [] stream, maxEncodedFrameSize < segment.length) ∧ frames = [⟨protocolHello, 1, []⟩] ∧
    frames ≠ (segments [] stream).filterMap wholeFrame := by
  have long : ¬ noisyHello.length ≤ maxEncodedFrameSize := by decide +kernel
  have tail : received noisyHello = encodedHello := by decide +kernel
  have delivers := (Receiver.holds_restart fun _ => 0).delivers (noisyHello ++ [0])
  rw [segments_noisyHello] at delivers
  have hello : [noisyHello].filterMap (frameOf ∘ received) = [⟨protocolHello, 1, []⟩] := by
    simp [tail, frameOf_encodedHello]
  rw [hello] at delivers
  refine ⟨_, _, delivers, ?_, rfl, ?_⟩
  · rw [segments_noisyHello]
    intro segment member
    rw [List.mem_singleton.mp member]
    exact Nat.lt_of_not_le long
  · rw [segments_noisyHello]
    simp [wholeFrame, long]

end Cc1310Firmware.Bootloader
