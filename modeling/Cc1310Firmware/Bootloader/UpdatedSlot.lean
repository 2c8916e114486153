import Cc1310Firmware.Bootloader.Upload

/-! What a completed update leaves in the App slot, behind the image too. -/

set_option autoImplicit false

namespace Cc1310Firmware.Bootloader
open CrashProgram

/-! ### The slot -/

def Flash.appSlot (flash : Flash) : List Byte :=
  flash.bytes applicationFlashStart (applicationFlashEnd - applicationFlashStart)

/-- The image, and 0xFF up to the end of the slot. -/
def slotContents (image : List Byte) : List Byte :=
  image ++ List.replicate (applicationFlashEnd - applicationFlashStart - image.length) 0xFF

theorem Flash.appSlot_eq_iff {flash : Flash} {image : List Byte}
    (fits : image.length ≤ applicationFlashEnd - applicationFlashStart) :
    flash.appSlot = slotContents image ↔ flash.bytes applicationFlashStart image.length = image ∧
      ∀ a, applicationFlashStart + image.length ≤ a → a < applicationFlashEnd → flash a = 0xFF := by
  have whole : applicationFlashEnd - applicationFlashStart =
      image.length + (applicationFlashEnd - applicationFlashStart - image.length) := (Nat.add_sub_cancel' fits).symm
  have split : flash.appSlot = flash.bytes applicationFlashStart image.length ++
    flash.bytes (applicationFlashStart + image.length)
      (applicationFlashEnd - applicationFlashStart - image.length) := by
    rw [← Flash.bytes_split, ← whole, Flash.appSlot]
  rw [split, slotContents]
  constructor
  · intro same
    obtain ⟨front, rest⟩ := List.append_inj same (Flash.length_bytes _ _ _)
    refine ⟨front, fun a above below => ?_⟩
    have inside : a - (applicationFlashStart + image.length) <
        (flash.bytes (applicationFlashStart + image.length)
          (applicationFlashEnd - applicationFlashStart - image.length)).length := by
      rw [Flash.length_bytes]
      omega
    have byte := Flash.getElem_bytes flash _ _ _ inside
    rw [Nat.add_sub_cancel' above] at byte
    rw [← byte, List.getElem_of_eq rest inside, List.getElem_replicate]
  · rintro ⟨front, blank⟩
    have rest : flash.bytes (applicationFlashStart + image.length)
      (applicationFlashEnd - applicationFlashStart - image.length) =
        List.replicate (applicationFlashEnd - applicationFlashStart - image.length) 0xFF :=
      Flash.bytes_erased fun i inside => blank _ (Nat.le_add_right _ i) (by omega)
    rw [front, rest]

/-! ### Updates -/

/-- What an update sends after BEGIN: no other BEGIN, and DATA of its own image. -/
def Upload.Sends (upload : Upload) (input : Input) : Prop :=
  ∀ frame, input = .frame frame → isBegin frame = false ∧ (frame.messageType = protocolData →
    ∃ sequence offset, offset < upload.image.length ∧ frame = upload.data sequence offset)

/-- The states from the READY on. -/
inductive Upload.Underway (upload : Upload) : DeviceState → Prop where
  | ready {s t : DeviceState} {event : DeviceEvent} {frame reply : ProtocolFrame} : upload.IsBegin frame →
      DeviceStep s event t → event.input = .frame frame → event.output = some (.reply reply) →
      reply.messageType = protocolReady → Underway upload t
  | next {s t : DeviceState} {event : DeviceEvent} : Underway upload s → upload.Sends event.input →
      DeviceStep s event t → Underway upload t

/-- END is answered COMPLETE. -/
structure Upload.Completes (upload : Upload) (s t : DeviceState) : Prop where
  underway : upload.Underway s
  ends : ∃ event sequence reply, DeviceStep s event t ∧ event.input = .frame (endRequest sequence) ∧
    event.output = some (.reply reply) ∧ reply.messageType = protocolComplete

/-- The slot holds what bytesWritten counts, and nothing behind the image. -/
structure Upload.Storing (upload : Upload) (session : UpdateSession) (flash : Flash) : Prop where
  header : session.packageHeader = upload.header
  short : session.bytesWritten.toNat ≤ upload.image.length
  written : upload.Written session.bytesWritten.toNat flash
  blank : ∀ a, applicationFlashStart + upload.image.length ≤ a → a < applicationFlashEnd → flash a = 0xFF

section
variable {upload : Upload} {s t : DeviceState} {event : DeviceEvent} {session session' : UpdateSession}
  {flash flash' : Flash} {frame reply : ProtocolFrame} {calls : List FlashCall}

theorem Upload.Storing.congr (storing : upload.Storing session flash)
    (header : session'.packageHeader = session.packageHeader)
    (written : session'.bytesWritten = session.bytesWritten)
    (same : ∀ a, applicationFlashStart ≤ a → flash' a = flash a) :
    upload.Storing session' flash' where
  header := header.trans storing.header
  short := written ▸ storing.short
  written := written ▸ storing.written.congr same
  blank a above below := by rw [same a (Nat.le_of_add_right_le above), storing.blank a above below]

theorem Upload.Storing.of_begun (header : session.packageHeader = upload.header) (none_ : session.bytesWritten = 0)
    (blank : BlankSlot flash) : upload.Storing session flash where
  header := header
  short := none_ ▸ Nat.zero_le _
  written := none_ ▸ .of_blank blank
  blank a above below := blank a (Nat.le_of_add_right_le above) below

/-- A block stays inside the image. -/
theorem Upload.Storing.data {sequence : Half} {offset : Nat} (storing : upload.Storing session flash)
    (inside : offset < upload.image.length)
    (turn_ : FrameTurn flash session (upload.data sequence offset) calls (.returned (reply, .loop session')) flash') :
    upload.Storing session' flash' := by
  rcases turn_.of_data rfl with ⟨_, same, rfl⟩ | ⟨_, _, same, _, ⟨_, rfl, rfl⟩ | ⟨here, status, step, programmed⟩⟩
  · cases same
    exact storing
  · cases same
    exact storing
  cases same
  have at_ := (Upload.data_here inside).mp here
  obtain ⟨_, last, length⟩ := upload.next_of_lt inside
  rw [Upload.blockCommand_data sequence inside at_] at step
  have written := storing.written
  rw [at_] at written
  have after := written.program inside step
  have blank : ∀ a, applicationFlashStart + upload.image.length ≤ a → a < applicationFlashEnd →
      flash' a = 0xFF := by
    intro a above below
    have away : flash' a = flash a := by
      apply step.unchanged
      simp only [FlashCommand.Touches]
      omega
    rw [away, storing.blank a above below]
  by_cases done : status = .done
  · have failed : (status != .done) = false := by simp [done]
    have bytes : session'.bytesWritten.toNat = upload.next offset := by
      rw [programmed, failed, UpdateSession.programmed_done]
      exact Upload.written_data sequence inside at_
    rw [if_pos done] at after
    refine ⟨?_, bytes ▸ last, bytes ▸ after, blank⟩
    rw [programmed, failed]
    exact storing.header
  · have failed : (status != .done) = true := by simp [done]
    rw [failed, UpdateSession.programmed_failed] at programmed
    rw [if_neg done] at after
    subst programmed
    exact ⟨storing.header, storing.short, at_ ▸ after, blank⟩

/-- Any other frame keeps the session's place, and leaves the slot alone. -/
theorem FrameTurn.of_other (noBegin : isBegin frame = false) (noData : frame.messageType ≠ protocolData)
    (turn_ : FrameTurn flash session frame calls (.returned (reply, .loop session')) flash') :
    session'.packageHeader = session.packageHeader ∧ session'.bytesWritten = session.bytesWritten ∧
    session'.updateActive = session.updateActive ∧ ∀ a, applicationFlashStart ≤ a → flash' a = flash a := by
  generalize ended : Result.returned (reply, Continuation.loop session') = r at turn_
  cases turn_ with
  | hello | rejected =>
    cases ended
    exact ⟨rfl, rfl, rfl, fun _ _ => rfl⟩
  | refused begin_ | unrecorded begin_ | recorded begin_ =>
    rw [begin_] at noBegin
    cases noBegin
  | notProgrammed data | block data =>
    simp only [isData, Bool.and_eq_true, beq_iff_eq] at data
    exact absurd data.1.1 noData
  | finished _ append | roleSet _ append =>
    obtain ⟨appended, _, same⟩ := Result.map_eq_returned.mp ended.symm
    obtain ⟨_, _, rfl⟩ := commitReply_loop same
    exact ⟨rfl, rfl, rfl, fun a lo => append_unchanged append lo⟩

theorem Upload.Underway.storing (underway : upload.Underway s) : Active upload.Storing s := by
  induction underway with
  | ready begin_ step input output type =>
    intro session mode active
    obtain ⟨⟨header, _⟩, none_, blank⟩ := (begin_.step step input).2 _ output type session mode active
    exact .of_begun header none_ blank
  | @next s t event _ sends step ih =>
    refine Active.of_step step ?_
    intro session frame reply session' mode input turn_ active
    obtain ⟨noBegin, data⟩ := sends frame input
    by_cases type : frame.messageType = protocolData
    case pos =>
      obtain ⟨sequence, offset, inside, rfl⟩ := data type
      rcases turn_.of_data rfl with ⟨_, same, _⟩ | ⟨before, _⟩
      · cases same
        exact (ih session mode active).data inside turn_
      · exact (ih session mode before).data inside turn_
    case neg =>
      obtain ⟨header, written, active', same⟩ := turn_.of_other noBegin type
      exact (ih session mode (active' ▸ active)).congr header written same

/-- The image and 0xFF behind it are all that a completed update leaves. -/
theorem Upload.Completes.appSlot (completes : upload.Completes s t) :
    t.flash.appSlot = slotContents upload.image := by
  obtain ⟨event, sequence, reply, step, input, output, type⟩ := completes.ends
  have turned := step.turned
  rw [output] at turned
  obtain ⟨session, frame, next, mode, same, turn_, _⟩ := turned.of_reply
  rw [input] at same
  cases same
  obtain ⟨_, _, append, _, ⟨guard, _⟩ | ⟨accepted, _⟩⟩ := turn_.of_complete type
  · -- END compares bytesWritten with the size in the header
    simp only [endAccepted, Bool.and_eq_true, beq_iff_eq] at guard
    have storing := completes.underway.storing session mode guard.1.1.1.2
    have whole : session.bytesWritten.toNat = upload.image.length := by
      rw [guard.1.2, storing.header, upload.size]
    obtain ⟨_, _, written, blank⟩ := storing.congr rfl rfl fun a lo => append_unchanged append lo
    rw [whole] at written
    exact (Flash.appSlot_eq_iff upload.fits).mpr ⟨written.bytes_eq, blank⟩
  · simp [setRoleAccepted, endRequest, protocolEnd, protocolSetRole] at accepted

end

end Cc1310Firmware.Bootloader
