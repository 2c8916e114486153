import Cc1310Firmware.Host.Packages
import Cc1310Firmware.Host.Requests

/-! connect, and the loop of flash that sends the image. -/

set_option autoImplicit false

namespace Cc1310Firmware.Host
open LittleEndian Bootloader LabelledRun Reactive StopAndWait

/-! ### connect -/

section
variable {chip : DeviceState}

abbrev helloFrame (sequence : Nat) : ProtocolFrame := requestFrame kindHello sequence []

/-- Nothing but a HELLO and its answers is under way. -/
def Connected (s : System chip) : Prop := ∃ sequence, Between (helloFrame sequence) (fun _ => True) s

theorem kept_always (frame : ProtocolFrame) : @Kept chip frame fun _ => True where
  serves _ _ _ _ _ _ := trivial
  idles _ _ _ _ _ _ _ := trivial

theorem stable_connected : Stable (@Moves chip) Connected :=
  .exists fun _ => stable_between (kept_always _) (Nat.zero_le _)

/-- Text on the line takes replies away, if anything. -/
theorem Between.fewer {frame : ProtocolFrame} {holds : DeviceRun chip → Prop} {s : System chip}
    {replies : List (List Byte)} (between : Between frame holds s) (fewer : replies.Sublist s.link.replies) :
    Between frame holds { s with link := { s.link with replies := replies } } := by
  obtain ⟨closed, number⟩ := between
  exact ⟨⟨closed.requests, fun wire member => closed.replies wire (fewer.subset member), closed.during⟩, number⟩

theorem command_spec {α : Type} {next : List String → HostProgram α} {post : α → System chip → Prop} {text : String}
    {failed : HostError → System chip → Prop}
    (rest : ∀ lines, Triple Moves Does Connected (next lines) post failed) :
    Triple Moves Does Connected (command text >>= next) post failed := by
  refine Triple.perform (fun _ => Connected) stable_connected ?_ rest
  rintro s lines t ⟨sequence, between⟩ ⟨replies, fewer, rfl⟩
  exact ⟨sequence, between.fewer fewer⟩

theorem info_of_request {pre post : System chip → Prop} {failed : HostError → System chip → Prop} {retries : Nat}
    (spec : Triple Moves Does pre (request kindHello [] [kindInfo] retries) (fun _ => post) failed)
    (stable : Stable Moves post) (stable' : Stable Moves (failed .valueError))
      (invalid : ∀ s, post s → failed .valueError s) :
    Triple Moves Does pre (info retries) (fun _ => post) failed := by
  unfold info
  refine spec.bind _ fun answer => ?_
  dsimp only
  split
  · exact .throw stable' invalid
  · exact .pure stable fun _ => id

/-- The first HELLO has nothing before it. -/
theorem info_first (sequence retries : Nat) : Triple (@Moves chip) Does
    (Waiting (settled (helloFrame ((sequence + 1) % 2 ^ 16)) fun _ => True) sequence) (info retries)
      (fun _ => Connected)
    fun error s => error = .timeoutError → Connected s := by
  have respected := (@kept_always chip (helloFrame ((sequence + 1) % 2 ^ 16))).settled (Nat.zero_le _)
  have number := requestFrame_number kindHello (sequence + 1) []
  have spec := request_spec respected rfl (fun _ late => late.elim) [kindInfo] retries
  refine info_of_request (spec.mono (fun _ => id) ?_ ?_) stable_connected ?_ ?_
  · rintro answer s ⟨_, closed, same, _⟩
    exact ⟨_, closed, same.trans number.symm⟩
  · intro error s waiting timeout
    obtain ⟨open_, same⟩ := waiting timeout
    exact ⟨_, open_.closed_of_first (fun _ => id) (fun _ => id), same.trans number.symm⟩
  · intro s t _ _ same
    cases same
  · intro s _ same
    cases same

theorem info_again (retries : Nat) :
    Triple (@Moves chip) Does Connected (info retries) (fun _ => Connected) fun _ _ => True := by
  refine Triple.exists fun sequence => ?_
  have spec := @request_next chip (helloFrame sequence) _ (fun _ => True) _ _ _ kindHello [] [kindInfo] retries rfl
    (hello_honoured _ _) (Nat.zero_le _) (Nat.zero_le _) fun _ _ => ⟨trivial, trivial⟩
  refine info_of_request (spec.mono (fun _ => id) ?_ fun _ _ => id) stable_connected (.of_const _) fun _ _ => trivial
  rintro answer s ⟨_, between⟩
  exact ⟨_, between.mono fun _ => trivial⟩

theorem probeApplication_spec :
    Triple (@Moves chip) Does Connected probeApplication (fun _ => Connected) fun _ _ => True := by
  unfold probeApplication
  refine command_spec fun _ => command_spec fun lines => ?_
  dsimp only
  split
  · exact .pure stable_connected fun _ => id
  · split
    · exact .pure stable_connected fun _ => id
    · exact command_spec fun _ => .pure stable_connected fun _ => id

theorem enterBootloader_spec :
    Triple (@Moves chip) Does Connected enterBootloader (fun _ => Connected) fun _ _ => True := by
  unfold enterBootloader
  refine command_spec fun replies => ?_
  split
  · exact .throw_true
  · refine Triple.perform (fun _ => Connected) stable_connected ?_ fun _ => info_again rebootRetries
    rintro s _ t ⟨sequence, between⟩ rfl
    exact ⟨sequence, between.fewer (List.nil_sublist _)⟩

theorem connectApplication_spec (allowApplication : Bool) :
    Triple (@Moves chip) Does Connected (connectApplication allowApplication) (fun _ => Connected) fun _ _ => True := by
  unfold connectApplication
  split
  · exact .throw_true
  · refine probeApplication_spec.bind _ fun answered => ?_
    split
    · exact .throw_true
    · exact enterBootloader_spec

theorem connect_spec (sequence : Nat) (allowApplication : Bool) : Triple (@Moves chip) Does
    (Waiting (settled (helloFrame ((sequence + 1) % 2 ^ 16)) fun _ => True) sequence) (connect allowApplication)
    (fun _ => Connected) fun _ _ => True := by
  refine Triple.tryCatch _ (info_first sequence probeRetries) fun error => ?_
  split
  case isTrue timeout =>
    exact (connectApplication_spec allowApplication).mono (fun _ connected => connected timeout)
      (fun _ _ => id) fun _ _ => id
  case isFalse => exact .throw_true

end

/-! ### The package -/

/-- What parse has checked. -/
theorem parse_eq_some {package : List Byte} {info : Package} (parsed : parse package = some info) :
    headerSize ≤ package.length ∧ info.size = fromBytes (slice package 16 20) ∧
    info.version = fromBytes (slice package 20 24) ∧ info.imageCrc = fromBytes (slice package 24 28) ∧
    info.image = package.drop headerSize ∧ info.image.length = info.size ∧
    0 < info.size ∧ info.size ≤ maxImageSize := by
  obtain ⟨long, carries, rfl⟩ := parse_iff.mp parsed
  have word : ∀ {offset : Nat}, offset + 4 ≤ headerSize →
      (loadUint32Le package offset).toNat = fromBytes (slice package offset (offset + 4)) :=
    fun inside => toNat_loadUint32Le (Nat.le_trans inside long)
  refine ⟨long, word (by decide), word (by decide), word (by decide), rfl, carries.imageSize, ?_, carries.fits⟩
  exact Nat.pos_of_ne_zero fun zero => carries.nonempty (BitVec.eq_of_toNat_eq zero)

/-- A field of the header, as the bootloader reads it from BEGIN. -/
theorem begin_field {package : List Byte} (role : List Byte) {offset : Nat} (long : headerSize ≤ package.length)
    (inside : offset + 4 ≤ headerSize) :
    (loadUint32Le (slice package 0 32 ++ role) offset).toNat = fromBytes (slice package offset (offset + 4)) := by
  have length : (slice package 0 32).length = headerSize := by
    simp only [slice, List.drop_zero, List.length_take]
    exact Nat.min_eq_left long
  have whole : slice package 0 32 ++ package.drop 32 = package := List.take_append_drop 32 package
  rw [toNat_loadUint32Le (by rw [List.length_append]; omega), slice_append (by omega)]
  conv_rhs => rw [← whole, slice_append (by omega)]

/-- The upload of a package. -/
def packageUpload {package : List Byte} {info : Package} (parsed : parse package = some info)
    (role : Nat) : Upload where
  header := loadPackageHeader (slice package 0 32 ++ bytesOf (BitVec.ofNat 32 role) 4)
  role := BitVec.ofNat 32 role
  image := info.image
  size := by
    obtain ⟨long, size, _, _, _, whole, _⟩ := parse_eq_some parsed
    rw [whole, size]
    exact begin_field _ long (by decide)
  fits := by
    obtain ⟨_, _, _, _, _, whole, _, fits⟩ := parse_eq_some parsed
    rw [whole]
    exact fits

theorem packageUpload_isBegin {package : List Byte} {info : Package} (parsed : parse package = some info)
    {role : Nat} (sequence : Nat) :
    (packageUpload parsed role).IsBegin
      (requestFrame kindBegin sequence (slice package 0 32 ++ bytesOf (BitVec.ofNat 32 role) 4)) := by
  obtain ⟨long, _⟩ := parse_eq_some parsed
  have length : (slice package 0 32).length = sizeofFirmwarePackageHeader := by
    simp only [slice, List.drop_zero, List.length_take]
    exact Nat.min_eq_left long
  refine ⟨?_, rfl, ?_⟩
  · simp [isBegin, requestFrame, length]
    rfl
  · have load := loadUint32Le_append (slice package 0 32) (bytesOf (BitVec.ofNat 32 role) 4) 0
    have value := loadUint32Le_bytesOf (BitVec.ofNat 32 role) []
    rw [List.append_nil] at value
    rw [length, Nat.add_zero, value] at load
    exact load

/-! ### flash -/

section
variable {chip : DeviceState} {upload : Upload}

/-- The block at `offset`, as a request. -/
theorem data_eq (upload : Upload) (sequence offset : Nat) {head : List Byte} (fits : toBytes4 offset = some head) :
    requestFrame kindData sequence (head ++ slice upload.image offset (offset + chunkSize)) =
      upload.data (BitVec.ofNat 16 sequence) offset := by
  obtain ⟨_, rfl⟩ := toBytes4_eq_some fits
  rw [slice, Nat.add_sub_cancel_left]
  rfl

theorem data_short (upload : Upload) (sequence : Half) (offset : Nat) : Short (upload.data sequence offset) := by
  simp only [Short, Upload.data, dataFrame, Upload.block, List.length_append, length_bytesOf, List.length_take]
  omega

/-- A step that can raise an exception. -/
theorem orRaise_spec {α β : Type} {pre : System chip → Prop} {value : Option α} {error : HostError}
    {next : α → HostProgram β} {post : β → System chip → Prop}
    (rest : ∀ a, value = some a → Triple Moves Does pre (next a) post fun _ _ => True) :
    Triple Moves Does pre (orRaise error value >>= next) post fun _ _ => True := by
  cases value with
  | none =>
    have raised : Triple Moves Does pre (orRaise error (none : Option α)) (fun _ _ => False) fun _ _ => True :=
      .throw_true
    exact raised.bind _ fun _ => .of_false
  | some a => exact rest a rfl

/-- The body of the loop; it returns the next offset. -/
def sendBlock (image : List Byte) (offset : Nat) : HostProgram Nat := do
  let head ← orRaise .overflowError (toBytes4 offset)
  let block := slice image offset (offset + chunkSize)
  let (response, answer) ← request kindData (head ++ block) [kindAck, kindNack] frameRetries
  if answer.length ≠ 4 then throw .valueError
  else if response = kindNack ∧ offset < fromBytes answer then throw .valueError
  else return fromBytes answer

theorem sendImage_succ (image : List Byte) (rounds offset : Nat) : sendImage image (rounds + 1) offset =
    if image.length ≤ offset then pure () else sendBlock image offset >>= sendImage image rounds := by
  conv_lhs => unfold sendImage
  unfold sendBlock
  split
  · rfl
  rw [bind_assoc]
  apply congrArg (orRaise HostError.overflowError (toBytes4 offset) >>= ·)
  funext head
  dsimp only
  rw [bind_assoc]
  apply congrArg (request kindData _ _ _ >>= ·)
  funext answer
  split
  · rfl
  · split
    · rfl
    · rfl

theorem requestLoop_raises (frame : List Byte) (sequence : Nat) (expected : List Nat) (retries : Nat) :
    (requestLoop frame sequence expected retries).Raises (· ≠ .unfinished) := by
  induction retries with
  | zero => exact HostError.noConfusion
  | succ retries ih =>
    unfold requestLoop
    refine raises_bind (fun _ => trivial) fun _ => raises_bind (fun _ => trivial) fun answer => ?_
    rcases answer with _ | ⟨response, number, payload⟩
    · exact ih
    · dsimp only
      split
      · trivial
      · exact ih

theorem request_raises (kind : Nat) (payload : List Byte) (expected : List Nat) (retries : Nat) :
    (request kind payload expected retries).Raises (· ≠ .unfinished) := by
  refine raises_bind (fun _ => trivial) fun sequence => raises_bind ?_ fun frame => requestLoop_raises _ _ _ _
  cases encode kind sequence payload with
  | none => exact HostError.noConfusion
  | some frame => trivial

/-- The body, up to the answer; its own exceptions are not the loop's. -/
theorem sendBlock_spec {earlier : ProtocolFrame} {holds before during : DeviceRun chip → Prop} {offset : Nat}
    {tells : Nat → List Byte → DeviceRun chip → Prop} {next : Nat → System chip → Prop}
    {failed : HostError → System chip → Prop}
    (other : ∀ error s, error ≠ .unfinished → failed error s)
    (honoured : ∀ sequence, Honoured earlier (upload.data sequence offset) before during tells)
    (short : Short earlier) (holds_ : ∀ device, holds device → before device ∧ during device)
    (stable : ∀ offset, Stable Moves (next offset))
    (answered : ∀ sequence type answer s, type ∈ [kindAck, kindNack] →
      Between (upload.data sequence offset) (fun device => during device ∧ tells type answer device) s →
        next (fromBytes answer) s) :
    Triple Moves Does (Between earlier holds) (sendBlock upload.image offset) next failed := by
  have raised : ∀ {α : Type} {pre : System chip → Prop} {post : α → System chip → Prop}
      {error : HostError}, error ≠ .unfinished →
        Triple Moves Does pre (throw error) post failed :=
    fun known => .throw (fun _ t _ _ => other _ t known) fun s _ => other _ s known
  unfold sendBlock
  cases fits : toBytes4 offset with
  | none =>
    have overflow : Triple Moves Does (Between earlier holds) (orRaise .overflowError (none : Option (List Byte)))
        (fun _ _ => False) failed := raised HostError.noConfusion
    exact overflow.bind _ fun _ => .of_false
  | some head =>
    have frame := data_eq upload ((earlier.sequenceNumber.toNat + 1) % 2 ^ 16) offset fits
    -- five writes of one frame at most, and copies of the frame before it may still be under way
    have requested := (request_next kindData _ [kindAck, kindNack] frameRetries frame.symm (honoured _) short
      (data_short _ _ _) holds_).raising (request_raises _ _ _ _)
    refine (requested.mono (fun _ => id) (fun _ _ => id) fun error s known => other error s known).bind _ fun answer =>
      .of_const fun accepted => ?_
    dsimp only
    split
    · exact raised HostError.noConfusion
    · split
      · exact raised HostError.noConfusion
      · exact .pure (stable _) fun s between => answered _ _ _ s accepted between

/-- The blocks up to `offset` are in the slot, and a DATA was the last request. -/
def Sent (upload : Upload) (offset : Nat) (s : System chip) : Prop :=
  ∃ sequence earlier, earlier < upload.image.length ∧ earlier ≤ offset ∧ offset ≤ upload.image.length ∧
    Between (upload.data sequence earlier) (fun device => upload.Sending offset device.state) s

theorem stable_sent (upload : Upload) (offset : Nat) : Stable (@Moves chip) (Sent upload offset) := by
  rintro s t step ⟨sequence, earlier, inside, behind, within, between⟩
  have kept := @kept_sending chip upload sequence _ _ within inside behind
  exact ⟨sequence, earlier, inside, behind, within, stable_between kept (data_short _ _ _) s t step between⟩

theorem fromBytes_storeUint32Le (value : Word) : fromBytes (storeUint32Le value) = value.toNat :=
  (fromBytes_bytesOf value 4).trans (Nat.mod_eq_of_lt value.isLt)

/-- What a round of the loop leaves after an answer. -/
theorem Between.sent {sequence : Half} {offset type : Nat} {answer : List Byte} {s : System chip}
    (inside : offset < upload.image.length) (accepted : type ∈ [kindAck, kindNack])
    (between : Between (upload.data sequence offset)
      (fun device => upload.Sending offset device.state ∧ dataTells upload offset type answer device) s) :
    Sent upload (fromBytes answer) s := by
  obtain ⟨further, last, _⟩ := upload.next_of_lt inside
  have acknowledges : type = kindAck ∨ type = kindNack := by simpa using accepted
  obtain ⟨written, rfl, place⟩ := between.holds.2 acknowledges
  rw [fromBytes_storeUint32Le]
  rcases place with same | ⟨same, past⟩
  · rw [same]
    exact ⟨sequence, offset, inside, Nat.le_refl _, Nat.le_of_lt inside, between.mono And.left⟩
  · rw [same]
    exact ⟨sequence, offset, inside, Nat.le_of_lt further, last, between.mono fun holds => holds.1.advance past⟩

/-- One round of the loop, and what comes after it. -/
theorem sendImage_round {earlier : ProtocolFrame} {holds before : DeviceRun chip → Prop} {offset rounds : Nat}
    (honoured : ∀ sequence, Honoured earlier (upload.data sequence offset) before
      (fun device => upload.Sending offset device.state) (dataTells upload offset)) (short : Short earlier)
    (holds_ : ∀ device, holds device → before device ∧ upload.Sending offset device.state)
    (inside : offset < upload.image.length)
    (rest : ∀ offset, Triple (@Moves chip) Does (Sent upload offset) (sendImage upload.image rounds offset)
      (fun _ => Sent upload upload.image.length) fun _ _ => True) :
    Triple Moves Does (Between earlier holds) (sendImage upload.image (rounds + 1) offset)
      (fun _ => Sent upload upload.image.length) fun _ _ => True := by
  rw [sendImage_succ, if_neg (Nat.not_le_of_lt inside)]
  refine (sendBlock_spec (fun _ _ _ => trivial) honoured short holds_ (stable_sent upload) ?_).bind _ rest
  intro sequence type answer s accepted between
  exact between.sent inside accepted

theorem Sent.whole {offset : Nat} {s : System chip} (sent : Sent upload offset s)
    (last : upload.image.length ≤ offset) :
    Sent upload upload.image.length s := by
  obtain ⟨sequence, earlier, inside, behind, within, between⟩ := sent
  obtain rfl := Nat.le_antisymm within last
  exact ⟨sequence, earlier, inside, behind, within, between⟩

theorem sendImage_spec (rounds offset : Nat) : Triple (@Moves chip) Does (Sent upload offset)
    (sendImage upload.image rounds offset) (fun _ => Sent upload upload.image.length) fun _ _ => True := by
  -- the offset is whatever the device has acknowledged last, so it may also stay where it is
  induction rounds generalizing offset with
  | zero =>
    unfold sendImage
    split
    case isTrue last => exact .pure (stable_sent upload _) fun s sent => sent.whole last
    case isFalse => exact .throw_true
  | succ rounds ih =>
    by_cases inside : offset < upload.image.length
    · refine Triple.exists fun sequence => Triple.exists fun earlier => Triple.of_const fun inside' =>
        Triple.of_const fun behind => Triple.of_const fun _ => ?_
      exact sendImage_round (fun sequence => data_honoured_next sequence behind inside) (data_short _ _ _)
        (fun _ sending => ⟨trivial, sending⟩) inside ih
    · unfold sendImage
      rw [if_pos (Nat.le_of_not_lt inside)]
      exact .pure (stable_sent upload _) fun s sent => sent.whole (Nat.le_of_not_lt inside)

/-- The loop, after a READY. -/
theorem sendImage_begun {frame : ProtocolFrame} (begin_ : upload.IsBegin frame) (short : Short frame)
    (some_ : 0 < upload.image.length) (rounds : Nat) : Triple Moves Does
      (Between frame fun device : DeviceRun chip => upload.Begun device.state)
      (sendImage upload.image rounds 0) (fun _ => Sent upload upload.image.length) fun _ _ => True := by
  cases rounds with
  | zero =>
    unfold sendImage
    rw [if_neg (Nat.not_le_of_lt some_)]
    exact .throw_true
  | succ rounds =>
    exact sendImage_round (fun sequence => data_honoured_first begin_ sequence some_) short
      (fun _ begun => ⟨begun, begun.sending⟩) some_ (sendImage_spec rounds)

end

end Cc1310Firmware.Host
