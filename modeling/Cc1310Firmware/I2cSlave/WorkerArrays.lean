import Cc1310Firmware.I2cSlave.HandlerArrays

/-! The worker under the bounds of the handler, the text of a record, and all runs of the
two.
-/

set_option autoImplicit false

namespace Cc1310Firmware.I2cSlave.Arrays
open LittleEndian ArrayCode

variable {v : Variables} {memory : SlaveMemory}

/-! ### The worker's statements -/

theorem cut_update (row : Buffer) {place : Nat} (value : Byte) (inside : place < i2cRegisterCount) :
    cut (Function.update row place value) = Function.update (cut row) place value := by
  funext i
  unfold cut
  by_cases here : i = place
  · subst here
    rw [if_pos inside, Function.update_self, Function.update_self]
  · rw [Function.update_of_ne here, Function.update_of_ne here]

/-- The row after memset. -/
theorem cut_cleared (memory : SlaveMemory) (row : SlaveArray) :
    cut (memory.storeAll row 0 (List.replicate i2cRegisterCount 0) row) = fun _ => 0 := by
  funext i
  unfold cut
  split
  case isTrue inside =>
    have window := memory.storeAll_window row 0 (List.replicate i2cRegisterCount 0) (by rwa [List.length_replicate])
    rw [Nat.zero_add, List.getElem_replicate] at window
    exact window
  case isFalse => rfl

/-- publishRegisters fills this row. -/
theorem publish_row (range : v.activeRegisters.toNat < 2) :
    (v.activeRegisters ^^^ 1).toNat = (!(v.activeRegisters != 0)).toNat := by
  have cases_ : v.activeRegisters = 0 ∨ v.activeRegisters = 1 := by
    rw [← BitVec.toNat_inj, ← BitVec.toNat_inj]
    show v.activeRegisters.toNat = 0 ∨ v.activeRegisters.toNat = 1
    omega
  rcases cases_ with zero | one
  · rw [zero]; rfl
  · rw [one]; rfl

/-- What they leave. -/
def publication (row : SlaveArray) (ticks : Word) (v : Variables) (memory : SlaveMemory) : SlaveMemory :=
  let magic :=
    (memory.storeAll row 0 (List.replicate i2cRegisterCount 0)).storeAll row 0 [0x49, 0x32, 0x43, 0x53, 1]
  let role := (magic.storeAll row 5 ((List.range 4).map (byteOf v.firmwareVersionCode))).store row 9 v.currentRole.code
  let counts := (role.storeAll row 10 ((List.range 4).map (byteOf v.transactionCount))).storeAll row 14
    ((List.range 4).map (byteOf v.errorCount))
  counts.storeAll row 18 ((List.range 4).map (byteOf ticks))

theorem publication_of_ne (ticks : Word) {row other : SlaveArray} (ne : other ≠ row) :
    publication row ticks v memory other = memory other := by
  unfold publication
  rw [Memory.storeAll_of_ne _ _ _ ne, Memory.storeAll_of_ne _ _ _ ne, Memory.storeAll_of_ne _ _ _ ne,
    Memory.store_of_ne _ _ _ ne, Memory.storeAll_of_ne _ _ _ ne, Memory.storeAll_of_ne _ _ _ ne,
    Memory.storeAll_of_ne _ _ _ ne]

theorem cut_publication (row : SlaveArray) (ticks : Word) :
    cut (publication row ticks v memory row) = (v.slave memory).bank ticks := by
  have cleared := cut_cleared memory row
  unfold publication
  generalize memory.storeAll row 0 (List.replicate i2cRegisterCount 0) = base at *
  have four : List.range 4 = [0, 1, 2, 3] := rfl
  simp only [four, List.map_cons, List.map_nil, Memory.storeAll, Memory.store_same]
  repeat rw [cut_update _ _ (by decide)]
  rw [cleared]
  rfl

theorem ensures_fillBank {row : SlaveArray} (size : row.size = i2cRegisterCount) (ticks : Word) :
    Ensures SlaveArray.size (fillBank row ticks v) memory fun _ memory' => memory' =
      publication row ticks v memory := by
  have fields : ∀ {place : Nat} {value : Word}, place + 4 ≤ 64 →
      place + ((List.range 4).map (byteOf value)).length ≤ row.size := by
    intro place value inside
    rw [size, List.length_map, List.length_range]
    exact inside
  unfold fillBank storeUint32Le
  refine ensures_storeAll_bind (by rw [size, List.length_replicate]; decide)
    (ensures_storeAll_bind (by rw [size]; decide) ?_)
  refine ensures_storeAll_bind (fields (by decide)) (ensures_store_bind (by rw [size]; decide) ?_)
  refine ensures_storeAll_bind (fields (by decide)) (ensures_storeAll_bind (fields (by decide)) ?_)
  exact ensures_storeAll _ (fields (by decide))

theorem ensures_publishRegisters (inRange : InRange v) (ticks : Word) : Ensures SlaveArray.size
    (publishRegisters ticks v) memory
    fun v' memory' => InRange v' ∧ v'.slave memory' = (v.slave memory).publishRegisters ticks ∧
      memory' .dumpBuffer = memory .dumpBuffer := by
  have row := publish_row inRange.activeRegisters
  have active : (v.activeRegisters ^^^ 1).toNat < 2 := by
    rw [row]
    cases v.activeRegisters != 0 <;> decide
  have size : SlaveArray.size (.registers (v.activeRegisters ^^^ 1).toNat) = 64 := if_pos active
  unfold publishRegisters
  refine (ensures_fillBank size ticks).bind fun _ memory' published => ?_
  have filled : cut (memory' (.registers (v.activeRegisters ^^^ 1).toNat)) = (v.slave memory).bank ticks := by
    rw [published]
    exact cut_publication _ ticks
  have kept : ∀ other, other ≠ .registers (v.activeRegisters ^^^ 1).toNat → memory' other = memory other := by
    rw [published]
    exact fun other ne => publication_of_ne ticks ne
  refine ensures_pure ⟨?_, ?_, kept .dumpBuffer (by simp)⟩
  · exact ⟨inRange.receiveCount, inRange.pendingCount, inRange.transmitLength, active,
      inRange.transmitRegisterSnapshot⟩
  · apply Slave.ext
    case registers =>
      funext bank
      show cut (memory' (.registers bank.toNat)) =
        Function.update (v.slave memory).registers (!(v.activeRegisters != 0)) ((v.slave memory).bank ticks) bank
      by_cases inactive : bank = !(v.activeRegisters != 0)
      · rw [inactive, ← row, Function.update_self]
        exact filled
      · have other : SlaveArray.registers bank.toNat ≠ .registers (v.activeRegisters ^^^ 1).toNat := by
          rw [row]
          intro same
          exact inactive (toNat_bool (SlaveArray.registers.inj same))
        rw [Function.update_of_ne inactive, kept _ other]
        rfl
    case activeRegisters =>
      show ((v.activeRegisters ^^^ 1) != 0) = !(v.activeRegisters != 0)
      have value := toNat_row active
      rw [row] at value
      exact (toNat_bool value).symm
    case receiveBuffer => exact kept .receiveBuffer (by simp)
    case pendingBuffer => exact kept .pendingBuffer (by simp)
    case transmitBuffer => exact kept .transmitBuffer (by simp)
    case loopbackBuffer => exact kept .loopbackBuffer (by simp)
    all_goals rfl

/-! ### The text of a record -/

/-- dumpMessage starts with these characters. -/
def Written (text : List Byte) (memory : SlaveMemory) : Prop :=
  ∀ i (inside : i < text.length), memory .dumpMessage i = text[i]

theorem written_append {text characters : List Byte} (written : Written text memory) :
    Written (text ++ characters) (memory.storeAll .dumpMessage text.length characters) := by
  intro i inside
  rw [List.length_append] at inside
  by_cases earlier : i < text.length
  · rw [Memory.storeAll_below _ _ _ earlier, List.getElem_append_left earlier, written i earlier]
  · have window := memory.storeAll_window .dumpMessage text.length characters
      (show i - text.length < characters.length by omega)
    rw [Nat.add_sub_cancel' (Nat.le_of_not_lt earlier)] at window
    rw [window, List.getElem_append_right (Nat.le_of_not_lt earlier)]

/-- Characters behind the text so far, in front of other code. -/
theorem ensures_append_bind {α : Type} {text characters : List Byte} {length : Nat} {next : Nat → SlaveCode α}
    {post : α → SlaveMemory → Prop} (written : Written text memory) (length_ : length = text.length)
    (room : (text ++ characters).length ≤ dumpMessageSize)
    (rest : ∀ memory', Written (text ++ characters) memory' →
      (∀ other, other ≠ .dumpMessage → memory' other = memory other) →
      Ensures SlaveArray.size (next (text ++ characters).length) memory' post) :
    Ensures SlaveArray.size (append characters length >>= next) memory post := by
  subst length_
  rw [List.length_append] at room rest
  have stored : Ensures SlaveArray.size (append characters text.length) memory fun result memory' =>
      result = text.length + characters.length ∧ memory' = memory.storeAll .dumpMessage text.length characters :=
    ensures_storeAll_bind room (ensures_pure ⟨rfl, rfl⟩)
  refine stored.bind ?_
  rintro _ _ ⟨rfl, rfl⟩
  exact rest _ (written_append written) fun other ne => Memory.storeAll_of_ne _ _ _ ne

/-- The two characters of each byte from `index` on. -/
def hexOf (buffer : Buffer) (index count : Nat) : List Byte :=
  (List.range' index count).flatMap fun i => Cli.characters (hexByte (buffer i))

theorem ensures_dumpBytes {count index length : Nat} {text : List Byte} (written : Written text memory)
    (length_ : length = text.length) (room : text.length + 2 * count ≤ dumpMessageSize)
      (inside : index + count ≤ i2cWriteMax) :
    Ensures SlaveArray.size (dumpBytes count index length) memory fun length' memory' =>
      length' = (text ++ hexOf (memory .dumpBuffer) index count).length ∧
      Written (text ++ hexOf (memory .dumpBuffer) index count) memory' ∧
      ∀ other, other ≠ .dumpMessage → memory' other = memory other := by
  subst length_
  induction count generalizing memory index text with
  | zero =>
    rw [hexOf, List.range'_zero, List.flatMap_nil, List.append_nil]
    exact ensures_pure ⟨rfl, written, fun _ _ => rfl⟩
  | succ count ih =>
    have place : SlaveArray.size .dumpMessage = 192 := rfl
    simp only [dumpMessageSize] at room
    have byte : memory.store .dumpMessage text.length (BitVec.ofNat 8 (hexDigit (memory .dumpBuffer index >>> 4)).toNat)
        .dumpBuffer = memory .dumpBuffer := Memory.store_of_ne _ _ _ (by decide)
    have next := @written_append memory text (Cli.characters (hexByte (memory .dumpBuffer index))) written
    unfold dumpBytes
    refine ensures_load_bind (show index < i2cWriteMax by omega) (ensures_store_bind (by omega) ?_)
    refine ensures_load_bind (show index < i2cWriteMax by omega) (ensures_store_bind (by omega) ?_)
    rw [byte]
    have length : text.length + 2 = (text ++ Cli.characters (hexByte (memory .dumpBuffer index))).length := by
      rw [List.length_append]
      rfl
    rw [length]
    refine (ih next (by rw [← length]; simp only [dumpMessageSize]; omega) (by omega)).mono ?_
    rintro length' memory' ⟨whole, written', others⟩
    have kept : (memory.storeAll .dumpMessage text.length (Cli.characters
      (hexByte (memory .dumpBuffer index)))) .dumpBuffer =
        memory .dumpBuffer := Memory.storeAll_of_ne _ _ _ (by decide)
    rw [kept, List.append_assoc] at whole written'
    refine ⟨whole, written', fun other ne => (others other ne).trans (Memory.storeAll_of_ne _ _ _ ne)⟩

/-- cli_ok gets the characters up to the NUL. -/
theorem ensures_readMessage {text : List Byte} (written : Written text memory)
    (ends : memory .dumpMessage text.length = 0) (visible : ∀ c ∈ text, c ≠ 0)
    (room : text.length < dumpMessageSize) {bound index : Nat} (inside : index ≤ text.length)
    (enough : text.length < index + bound) : Ensures SlaveArray.size (readMessage bound index) memory
      fun characters memory' => characters = text.drop index ∧ memory' = memory := by
  induction bound generalizing index with
  | zero => exact absurd enough (Nat.not_lt_of_le inside)
  | succ bound ih =>
    unfold readMessage
    refine ensures_load_bind (show index < dumpMessageSize by omega) ?_
    by_cases last : index = text.length
    · subst last
      rw [ends, if_pos rfl, List.drop_length]
      exact ensures_pure ⟨rfl, rfl⟩
    · have more : index < text.length := by omega
      rw [written index more, if_neg (visible _ (List.getElem_mem more)), List.drop_eq_getElem_cons more]
      refine (ih more (by omega)).bind ?_
      rintro _ _ ⟨rfl, rfl⟩
      exact ensures_pure ⟨rfl, rfl⟩

theorem length_hexOf (buffer : Buffer) (index count : Nat) : (hexOf buffer index count).length = 2 * count := by
  unfold hexOf
  rw [List.length_flatMap]
  simp [Cli.characters, hexByte, Nat.mul_comm]

/-- The parts that the worker appends are the message. -/
theorem message_text (w : Locals) (buffer : Buffer) :
    [] ++ Cli.text (if w.dumpDirection = i2cDumpRead then "ipc read reg=0x" else "ipc write reg=0x") ++
      Cli.characters (hexByte w.dumpRegister) ++ Cli.text " len=" ++
        Cli.characters (countDigits w.dumpCount.toNat) ++
      Cli.text " data=" ++ hexOf buffer 0 w.dumpCount.toNat =
    Cli.characters (dumpMessage (directionOf w.dumpDirection) w.dumpRegister (buffer.take w.dumpCount.toNat)) := by
  have direction : directionOf w.dumpDirection = .read ↔ w.dumpDirection = i2cDumpRead := by
    unfold directionOf
    split
    case isTrue write => rw [write]; decide
    case isFalse =>
      split
      case isTrue read => exact iff_of_true rfl read
      case isFalse other => exact iff_of_false (by decide) other
  have hex : hexOf buffer 0 w.dumpCount.toNat =
      (buffer.take w.dumpCount.toNat).flatMap fun value => Cli.characters (hexByte value) := by
    unfold hexOf Buffer.take
    rw [List.flatMap_map, List.range_eq_range']
  rw [hex]
  unfold dumpMessage Cli.characters Cli.text
  simp only [List.map_append, List.map_flatMap, Buffer.length_take, direction, List.nil_append]
  split <;> rfl

theorem ensures_dumpRecord {w : Locals} (fits : w.dumpCount.toNat ≤ i2cWriteMax) : Ensures SlaveArray.size
    (dumpRecord w) memory
    fun message memory' => message = Cli.characters (dumpMessage (directionOf w.dumpDirection) w.dumpRegister
      (Buffer.take (memory .dumpBuffer) w.dumpCount.toNat)) ∧ ∀ other, other ≠ .dumpMessage →
        memory' other = memory other := by
  have header : ∀ direction : Byte,
      (Cli.text (if direction = i2cDumpRead then "ipc read reg=0x" else "ipc write reg=0x")).length ≤ 16 := by
    intro direction
    split <;> decide
  have digits : (Cli.characters (countDigits w.dumpCount.toNat)).length ≤ 2 := by
    unfold countDigits
    split <;> simp [Cli.characters]
  have total : ([] ++ Cli.text (if w.dumpDirection = i2cDumpRead then "ipc read reg=0x" else "ipc write reg=0x") ++
      Cli.characters (hexByte w.dumpRegister) ++ Cli.text " len=" ++
        Cli.characters (countDigits w.dumpCount.toNat) ++
      Cli.text " data=").length ≤ 31 := by
    have start := header w.dumpDirection
    have register : (Cli.characters (hexByte w.dumpRegister)).length = 2 := rfl
    have len : (Cli.text " len=").length = 5 := rfl
    have data : (Cli.text " data=").length = 6 := rfl
    simp only [List.length_append, List.length_nil]
    omega
  have part : ∀ {first second : List Byte}, (first ++ second).length ≤ 31 → first.length ≤ 31 := by
    intro first second whole
    rw [List.length_append] at whole
    omega
  have room : ∀ {length : Nat}, length ≤ 31 → length ≤ dumpMessageSize :=
    fun short => Nat.le_trans short (by decide)
  unfold i2cWriteMax i2cRegisterCount at fits
  unfold dumpRecord
  have empty : Written [] memory := fun i inside => absurd inside (Nat.not_lt_zero i)
  -- the fixed parts, the register and the count
  refine ensures_append_bind empty rfl (room (part (part (part (part total))))) fun memory₁ written₁ kept₁ => ?_
  refine ensures_append_bind written₁ rfl (room (part (part (part total)))) fun memory₂ written₂ kept₂ => ?_
  refine ensures_append_bind written₂ rfl (room (part (part total))) fun memory₃ written₃ kept₃ => ?_
  refine ensures_append_bind written₃ rfl (room (part total)) fun memory₄ written₄ kept₄ => ?_
  refine ensures_append_bind written₄ rfl (room total) fun memory₅ written₅ kept₅ => ?_
  have data : memory₅ .dumpBuffer = memory .dumpBuffer := by
    rw [kept₅ _ (by decide), kept₄ _ (by decide), kept₃ _ (by decide), kept₂ _ (by decide), kept₁ _ (by decide)]
  have bytes := @ensures_dumpBytes memory₅ w.dumpCount.toNat 0 _ _ written₅ rfl (by unfold dumpMessageSize; omega)
    (by rw [Nat.zero_add]; exact fits)
  rw [data] at bytes
  refine bytes.bind ?_
  rintro length memory₆ ⟨rfl, written₆, kept₆⟩
  have message := message_text w (memory .dumpBuffer)
  rw [message] at written₆ ⊢
  have short : (Cli.characters (dumpMessage (directionOf w.dumpDirection) w.dumpRegister
      (Buffer.take (memory .dumpBuffer) w.dumpCount.toNat))).length ≤ 159 := by
    rw [← message, List.length_append, length_hexOf]
    omega
  have visible : ∀ c ∈ Cli.characters (dumpMessage (directionOf w.dumpDirection) w.dumpRegister
      (Buffer.take (memory .dumpBuffer) w.dumpCount.toNat)), c ≠ 0 :=
    Cli.forall_dumpMessage (by decide) (by decide) _ _ (by rw [Buffer.length_take]; exact fits)
  refine ensures_store_bind (Nat.lt_of_le_of_lt short (by decide)) ?_
  generalize Cli.characters (dumpMessage (directionOf w.dumpDirection) w.dumpRegister
    (Buffer.take (memory .dumpBuffer) w.dumpCount.toNat)) = text at *
  have ended : Written text (memory₆.store .dumpMessage text.length 0) := by
    intro i inside
    rw [Memory.store_same, Function.update_of_ne (Nat.ne_of_lt inside), written₆ i inside]
  refine (ensures_readMessage ended (by rw [Memory.store_same, Function.update_self]) visible
    (Nat.lt_of_le_of_lt short (by decide)) (show 0 ≤ _ from Nat.zero_le _) (show _ < 0 + 256 by omega)).mono ?_
  rintro _ _ ⟨rfl, rfl⟩
  refine ⟨rfl, fun other ne => ?_⟩
  rw [Memory.store_of_ne _ _ _ ne, kept₆ _ ne, kept₅ _ ne, kept₄ _ ne, kept₃ _ ne, kept₂ _ ne, kept₁ _ ne]

/-! ### Statements -/

/-- What a statement leaves is in range, and is what the worker of functions computes. -/
structure Works (expected : Option (List Char) × Worker × Slave) (ran : Option (List Byte) × Locals × Variables)
    (memory' : SlaveMemory) : Prop where
  inRange : InRange ran.2.2
  own : ran.2.1.InRange
  printed : ran.1 = expected.1.map Cli.characters
  worker : ran.2.1.worker memory' = expected.2.1
  slave : ran.2.2.slave memory' = expected.2.2

variable {w : Locals}

theorem directionOf_write {code : Byte} : directionOf code = .write ↔ code = i2cDumpWrite := by
  unfold directionOf
  split
  case isTrue write => exact iff_of_true rfl write
  case isFalse other =>
    refine iff_of_false ?_ other
    split <;> decide

theorem ensures_clearCommand : Ensures SlaveArray.size (clearCommand w.dumpDirection v) memory
    fun clear memory' => clear = (v.slave memory).isClearCommand (directionOf w.dumpDirection) ∧
      memory' = memory := by
  have one : v.pendingCount.toNat = 1 ↔ v.pendingCount = 1 := @BitVec.toNat_inj 8 v.pendingCount 1
  have whole : (v.slave memory).isClearCommand (directionOf w.dumpDirection) =
      (decide (w.dumpDirection = i2cDumpWrite ∧ v.pendingRegister = i2cCommandRegister ∧ v.pendingCount = 1) &&
        memory .pendingBuffer 0 == i2cCommandClearStats) := by
    unfold Slave.isClearCommand
    rw [Bool.eq_iff_iff]
    simp only [Bool.and_eq_true, decide_eq_true_eq, beq_iff_eq, directionOf_write, and_assoc]
    exact and_congr_right fun _ => and_congr_right fun _ => and_congr_left fun _ => one
  unfold clearCommand
  rw [whole]
  split
  case isTrue command =>
    rw [decide_eq_true command, Bool.true_and]
    exact ensures_load_bind (by decide) (ensures_pure ⟨rfl, rfl⟩)
  case isFalse other =>
    rw [decide_eq_false other, Bool.false_and]
    exact ensures_pure ⟨rfl, rfl⟩

/-- The slave sees neither of the worker's own arrays. -/
theorem slave_congr {memory' : SlaveMemory}
    (kept : ∀ array, array ≠ .dumpBuffer → array ≠ .dumpMessage → memory' array = memory array) :
    v.slave memory' = v.slave memory := by
  apply Slave.ext
  case registers =>
    funext bank
    exact congrArg cut (kept (.registers bank.toNat) (by simp) (by simp))
  case receiveBuffer => exact kept .receiveBuffer (by decide) (by decide)
  case pendingBuffer => exact kept .pendingBuffer (by decide) (by decide)
  case transmitBuffer => exact kept .transmitBuffer (by decide) (by decide)
  case loopbackBuffer => exact kept .loopbackBuffer (by decide) (by decide)
  all_goals rfl

theorem rejected_eq : (decide ((w.worker memory).dumpDirection = .write) && (v.slave memory).pendingCount != 0 &&
    !isLoopbackWrite (w.worker memory).dumpRegister (w.worker memory).dumpCount) =
    (decide (w.dumpDirection = i2cDumpWrite) && v.pendingCount != 0 &&
      !isLoopbackWrite w.dumpRegister w.dumpCount.toNat) := by
  have full : ((v.slave memory).pendingCount != 0) = (v.pendingCount != 0) := by
    rw [Bool.eq_iff_iff, bne_iff_ne, bne_iff_ne]
    exact toNat_ne_zero
  rw [full]
  exact congrArg (· && _ && _) (decide_eq_decide.mpr directionOf_write)

theorem ensures_copyByte (inRange : InRange v) (fits : w.dumpCount.toNat ≤ i2cWriteMax) (ticks : Word)
    (here : w.statement = .copyByte) : Ensures SlaveArray.size (workerCode ticks w v) memory fun ran memory' =>
      Works (workerStatement ticks (w.worker memory) (v.slave memory)) ran memory' := by
  have statement : (w.worker memory).statement = .copyByte := here
  unfold workerCode workerStatement
  rw [here, statement]
  dsimp only
  split
  case isTrue more =>
    have more' : (w.worker memory).index < (w.worker memory).dumpCount := more
    have inside : w.index.toNat < i2cWriteMax := Nat.lt_of_lt_of_le more fits
    rw [if_pos more']
    refine ensures_load_bind inside (ensures_store_bind inside
      (ensures_pure ⟨inRange, .inr (.inr fits), rfl, ?_, ?_⟩))
    · apply Worker.ext
      case index => exact toNat_advance (Nat.lt_of_lt_of_le more fits)
      case dumpBuffer =>
        show memory.store .dumpBuffer _ _ .dumpBuffer = _
        rw [Memory.store_same]
        rfl
      all_goals rfl
    · exact slave_congr fun array ne _ => Memory.store_of_ne _ _ _ ne
  case isFalse done =>
    have done' : ¬ (w.worker memory).index < (w.worker memory).dumpCount := done
    rw [if_neg done']
    exact ensures_pure ⟨inRange, .inr (.inr fits), rfl, rfl, rfl⟩

theorem ensures_dump (inRange : InRange v) (fits : w.dumpCount.toNat ≤ i2cWriteMax) (ticks : Word)
    (here : w.statement = .dump) : Ensures SlaveArray.size (workerCode ticks w v) memory fun ran memory' =>
      Works (workerStatement ticks (w.worker memory) (v.slave memory)) ran memory' := by
  have statement : (w.worker memory).statement = .dump := here
  have dumps : ((v.slave memory).dumpEnabled && (w.worker memory).dumpCount != 0) = true ↔
      v.dumpEnabled ≠ 0 ∧ w.dumpCount ≠ 0 := by
    rw [Bool.and_eq_true]
    exact and_congr bne_iff_ne (bne_iff_ne.trans toNat_ne_zero)
  unfold workerCode workerStatement
  rw [here, statement]
  dsimp only
  split
  case isTrue dump =>
    rw [if_pos (dumps.mpr dump)]
    refine (ensures_dumpRecord fits).bind ?_
    rintro _ memory' ⟨rfl, kept⟩
    refine ensures_pure ⟨inRange, .inl rfl, rfl, ?_, slave_congr fun array _ ne => kept array ne⟩
    apply Worker.ext
    case dumpBuffer => exact kept .dumpBuffer (by decide)
    all_goals rfl
  case isFalse other =>
    rw [if_neg (mt dumps.mp other)]
    exact ensures_pure ⟨inRange, .inl rfl, rfl, rfl, rfl⟩

theorem ensures_workerCode (inRange : InRange v) (own : w.InRange) (ticks : Word) :
    Ensures SlaveArray.size (workerCode ticks w v) memory fun ran memory' =>
      Works (workerStatement ticks (w.worker memory) (v.slave memory)) ran memory' := by
  have statement : (w.worker memory).statement = w.statement := rfl
  have counted : w.statement ≠ .semaphorePend → w.statement ≠ .readCount → w.dumpCount.toNat ≤ i2cWriteMax :=
    fun first second => (own.resolve_left first).resolve_left second
  cases here : w.statement
  case copyByte => exact ensures_copyByte inRange (counted (by rw [here]; decide) (by rw [here]; decide)) ticks here
  case dump => exact ensures_dump inRange (counted (by rw [here]; decide) (by rw [here]; decide)) ticks here
  all_goals
    unfold workerCode workerStatement
    rw [statement, here]
  case semaphorePend => exact ensures_pure ⟨inRange, .inr (.inl rfl), rfl, rfl, rfl⟩
  case readCount => exact ensures_pure ⟨inRange, .inr (.inr inRange.pendingCount), rfl, rfl, rfl⟩
  -- from here on the count fits
  all_goals have fits : w.dumpCount.toNat ≤ i2cWriteMax := counted (by rw [here]; decide) (by rw [here]; decide)
  case testCommand =>
    refine ensures_clearCommand.bind ?_
    rintro _ _ ⟨rfl, rfl⟩
    exact ensures_pure ⟨inRange, .inr (.inr fits), rfl, rfl, rfl⟩
  case testWrite =>
    dsimp only
    rw [rejected_eq]
    exact ensures_pure ⟨inRange, .inr (.inr fits), rfl, rfl, rfl⟩
  case publish =>
    refine (ensures_publishRegisters inRange ticks).bind ?_
    rintro v' memory' ⟨inRange', published, kept⟩
    refine ensures_pure ⟨inRange', .inr (.inr fits), rfl, ?_, published⟩
    apply Worker.ext
    case dumpBuffer => exact kept
    all_goals rfl
  case clearTransactions | clearErrors | countError =>
    refine ensures_pure ⟨?_, .inr (.inr fits), rfl, rfl, rfl⟩
    exact ⟨inRange.receiveCount, inRange.pendingCount, inRange.transmitLength, inRange.activeRegisters,
      inRange.transmitRegisterSnapshot⟩
  case releaseSlot =>
    refine ensures_pure ⟨?_, .inr (.inr fits), rfl, rfl, rfl⟩
    exact ⟨inRange.receiveCount, Nat.zero_le _, inRange.transmitLength, inRange.activeRegisters,
      inRange.transmitRegisterSnapshot⟩
  case resetTransmit =>
    refine ensures_pure ⟨?_, .inr (.inr fits), rfl, rfl, rfl⟩
    exact ⟨inRange.receiveCount, inRange.pendingCount, inRange.transmitLength, inRange.activeRegisters,
      inRange.transmitRegisterSnapshot⟩
  case readRegister | readDirection => exact ensures_pure ⟨inRange, .inr (.inr fits), rfl, rfl, rfl⟩

/-! ### Runs -/

/-- One input keeps the bounds, and has the effect of the step of the system. -/
structure Follows (next : SystemEvent × System) (effect : Effect) (memory' : SlaveMemory) : Prop where
  inRange : InRange effect.shared
  own : effect.own.InRange
  supplied : effect.supplied = next.1.supplied
  printed : effect.printed = next.1.printed.map Cli.characters
  system : ⟨effect.shared.slave memory', effect.own.worker memory'⟩ = next.2

theorem ensures_execute (inRange : InRange v) (own : w.InRange) (input : Input) :
    Ensures SlaveArray.size (execute v w input) memory fun effect memory' =>
      Follows (System.next ⟨v.slave memory, w.worker memory⟩ input) effect memory' := by
  unfold execute System.next
  cases input with
  | interrupt flags =>
    refine (ensures_handleInterrupt inRange flags).bind fun ran memory' serves => ?_
    have worker : w.worker memory' = w.worker memory := by
      unfold Locals.worker
      rw [serves.dumpBuffer]
    refine ensures_pure ⟨serves.inRange, own, congrArg Prod.fst serves.same, rfl, ?_⟩
    rw [worker]
    exact congrArg (fun served => System.mk served.2 (w.worker memory)) serves.same
  | worker ticks =>
    refine (ensures_workerCode inRange own ticks).bind fun ran memory' works => ?_
    refine ensures_pure ⟨works.inRange, works.own, rfl, works.printed, ?_⟩
    dsimp only
    rw [works.worker, works.slave]
  | ipcDump on =>
    refine ensures_pure ⟨?_, own, rfl, rfl, ?_⟩
    · exact ⟨inRange.receiveCount, inRange.pendingCount, inRange.transmitLength, inRange.activeRegisters,
        inRange.transmitRegisterSnapshot⟩
    · cases on <;> rfl

/-- Any inputs, from any variables in range: the accesses are inside, and the code follows the
system of functions. -/
theorem ensures_executeAll (inputs : List Input) (inRange : InRange v) (own : w.InRange) :
    Ensures SlaveArray.size (executeAll inputs v w) memory fun ran memory' => InRange ran.2.1 ∧ ran.2.2.InRange ∧
      (ran.1.map fun effect => (effect.supplied, effect.printed)) =
        ((System.history inputs ⟨v.slave memory, w.worker memory⟩).map fun x =>
          (x.event.supplied, x.event.printed.map Cli.characters)) ∧
      ⟨ran.2.1.slave memory', ran.2.2.worker memory'⟩ = System.final inputs ⟨v.slave memory, w.worker memory⟩ := by
  induction inputs generalizing v w memory with
  | nil => exact ensures_pure ⟨inRange, own, rfl, rfl⟩
  | cons input rest ih =>
    unfold executeAll System.history System.final
    refine (ensures_execute inRange own input).bind fun effect memory' follows => ?_
    refine (ih follows.inRange follows.own).bind ?_
    rintro ⟨effects, v', w'⟩ memory₂ ⟨inRange', own', events, final⟩
    rw [follows.system] at events final
    refine ensures_pure ⟨inRange', own', ?_, final⟩
    dsimp only at events ⊢
    rw [List.map_cons, List.map_cons, events, follows.supplied, follows.printed]

theorem ensures_program (role : FirmwareRole) (firmwareVersionCode ticks : Word) (w : Locals)
    (inputs : List Input) :
    Ensures SlaveArray.size (program role firmwareVersionCode ticks w inputs) memory fun ran _ => InRange ran.2.1 := by
  have cleared : InRange (.cleared role firmwareVersionCode) :=
    ⟨Nat.zero_le _, Nat.zero_le _, Nat.zero_le _, Nat.zero_lt_two, Nat.zero_lt_two⟩
  refine (ensures_publishRegisters cleared ticks).bind fun v' memory' published => ?_
  exact (ensures_executeAll inputs published.1 (.inl rfl)).mono fun ran memory₂ holds => holds.1

/-- Through any sequence of interrupts, worker statements and dump commands from the start of the
slave: the counts, the active row and the snapshot are in range, and so is every index. -/
theorem i2c_index_safe (role : FirmwareRole) (firmwareVersionCode ticks : Word) (w : Locals) (inputs : List Input)
    (memory : SlaveMemory) :
    let ran := program role firmwareVersionCode ticks w inputs memory
    InRange ran.value.2.1 ∧ ∀ access ∈ ran.log, access.index < access.array.size := by
  obtain ⟨safe, inRange⟩ := @ensures_program memory role firmwareVersionCode ticks w inputs
  exact ⟨inRange, safe⟩

end Cc1310Firmware.I2cSlave.Arrays
