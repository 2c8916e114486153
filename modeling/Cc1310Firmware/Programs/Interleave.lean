import Cc1310Firmware.Programs.Crash

/-! Two programs that take turns on one device, a read or a call at a time.

An execution of both lists whose turn it was. If one had all its turns before
the other, both ran on their own, one after the other.
-/

set_option autoImplicit false

namespace CrashProgram

inductive Turn where
  | left
  | right
  deriving DecidableEq, Repr

def Turn.other : Turn → Turn
  | .left => .right
  | .right => .left

variable {σ κ α β : Type}

/-- Executions of both programs to their ends. -/
inductive Interleaved (device : σ → κ → Status → σ → Prop) :
    Program σ κ α → Program σ κ β → σ → List Turn → List (Call σ κ) → α → β → σ → Prop where
  | ret {a : α} {b : β} {s : σ} : Interleaved device (.ret a) (.ret b) s [] [] a b s
  | leftRead {k : σ → Program σ κ α} {q : Program σ κ β} {s s' : σ} {turns : List Turn} {calls : List (Call σ κ)}
      {a : α} {b : β} :
      Interleaved device (k s) q s turns calls a b s' →
        Interleaved device (.read k) q s (.left :: turns) calls a b s'
  | leftCall {c : κ} {k : Bool → Program σ κ α} {q : Program σ κ β} {s t s' : σ} {failed : Bool} {turns : List Turn}
      {calls : List (Call σ κ)} {a : α} {b : β} :
      device s c (if failed then .failed else .done) t → Interleaved device (k failed) q t turns calls a b s' →
      Interleaved device (.call c k) q s (.left :: turns) (⟨s, c, if failed then .failed else .done⟩ :: calls) a b s'
  | rightRead {p : Program σ κ α} {k : σ → Program σ κ β} {s s' : σ} {turns : List Turn} {calls : List (Call σ κ)}
      {a : α} {b : β} :
      Interleaved device p (k s) s turns calls a b s' →
        Interleaved device p (.read k) s (.right :: turns) calls a b s'
  | rightCall {p : Program σ κ α} {c : κ} {k : Bool →
    Program σ κ β} {s t s' : σ} {failed : Bool} {turns : List Turn}
      {calls : List (Call σ κ)} {a : α} {b : β} :
      device s c (if failed then .failed else .done) t → Interleaved device p (k failed) t turns calls a b s' →
      Interleaved device p (.call c k) s (.right :: turns) (⟨s, c, if failed then .failed else .done⟩ :: calls) a b s'

/-- One program has all its turns before the other. -/
def Serial (turns : List Turn) : Prop :=
  ∃ first n m, turns = List.replicate n first ++ List.replicate m (Turn.other first)

section
variable {device : σ → κ → Status → σ → Prop} {p : Program σ κ α} {q : Program σ κ β} {s s' : σ} {turns : List Turn}
  {calls : List (Call σ κ)} {a : α} {b : β}

theorem Exec.answered {c : κ} {k : Bool → Program σ κ α} {t : σ} {failed : Bool} {r : Result α}
    (step : device s c (if failed then .failed else .done) t) (rest : Exec device (k failed) t calls r s') :
    Exec device (.call c k) s (⟨s, c, if failed then .failed else .done⟩ :: calls) r s' := by
  cases failed with
  | true => exact .failed step rest
  | false => exact .done step rest

theorem Interleaved.swap (both : Interleaved device p q s turns calls a b s') :
    Interleaved device q p s (turns.map Turn.other) calls b a s' := by
  induction both with
  | ret => exact .ret
  | leftRead _ ih => exact .rightRead ih
  | leftCall step _ ih => exact .rightCall step ih
  | rightRead _ ih => exact .leftRead ih
  | rightCall step _ ih => exact .leftCall step ih

/-- Only the right program has turns: the left one has returned. -/
theorem Interleaved.right_alone {m : Nat} (both : Interleaved device p q s turns calls a b s')
    (alone : turns = List.replicate m .right) : p = .ret a ∧ Exec device q s calls (.returned b) s' := by
  induction both generalizing m with
  | ret => exact ⟨rfl, .ret⟩
  | leftRead | leftCall =>
    cases m with
    | zero => cases alone
    | succ m => cases alone
  | rightRead _ ih =>
    cases m with
    | zero => cases alone
    | succ m =>
      obtain ⟨returned, exec⟩ := ih (List.cons.inj alone).2
      exact ⟨returned, .read exec⟩
  | rightCall step _ ih =>
    cases m with
    | zero => cases alone
    | succ m =>
      obtain ⟨returned, exec⟩ := ih (List.cons.inj alone).2
      exact ⟨returned, .answered step exec⟩

/-- The left program has all its turns first. -/
theorem Interleaved.left_first {n m : Nat} (both : Interleaved device p q s turns calls a b s')
    (order : turns = List.replicate n .left ++ List.replicate m .right) : ∃ t first second,
    Exec device p s first (.returned a) t ∧ Exec device q t second (.returned b) s' ∧ calls = first ++ second := by
  induction n generalizing p s turns calls with
  | zero =>
    obtain ⟨rfl, exec⟩ := both.right_alone order
    exact ⟨s, [], calls, .ret, exec, rfl⟩
  | succ n ih =>
    rw [List.replicate_succ, List.cons_append] at order
    cases both with
    | ret => cases order
    | rightRead | rightCall => cases order
    | leftRead rest =>
      obtain ⟨t, first, second, exec, exec', same⟩ := ih rest (List.cons.inj order).2
      exact ⟨t, first, second, .read exec, exec', same⟩
    | leftCall step rest =>
      obtain ⟨t, first, second, exec, exec', rfl⟩ := ih rest (List.cons.inj order).2
      exact ⟨t, _, second, .answered step exec, exec', rfl⟩

/-- Without an overlap the two programs ran one after the other. -/
theorem Interleaved.serial (both : Interleaved device p q s turns calls a b s') (order : Serial turns) :
    ∃ t first second, calls = first ++ second ∧
      (Exec device p s first (.returned a) t ∧ Exec device q t second (.returned b) s' ∨
        Exec device q s first (.returned b) t ∧ Exec device p t second (.returned a) s') := by
  obtain ⟨first, n, m, order⟩ := order
  cases first with
  | left =>
    obtain ⟨t, first, second, exec, exec', same⟩ := both.left_first order
    exact ⟨t, first, second, same, .inl ⟨exec, exec'⟩⟩
  | right =>
    -- the same with the programs exchanged
    have order' : turns.map Turn.other = List.replicate n .left ++ List.replicate m .right := by
      rw [order, List.map_append, List.map_replicate, List.map_replicate]
      rfl
    obtain ⟨t, first, second, exec, exec', same⟩ := both.swap.left_first order'
    exact ⟨t, first, second, same, .inr ⟨exec, exec'⟩⟩

/-- The left program runs alone, and then what is given. -/
theorem Exec.then_interleaved {t : σ} {first : List (Call σ κ)} (exec : Exec device p s first (.returned a) t)
    (rest : Interleaved device (.ret a) q t turns calls a b s') :
    ∃ n, Interleaved device p q s (List.replicate n .left ++ turns) (first ++ calls) a b s' := by
  generalize ended : Result.returned a = r at exec
  induction exec with
  | ret =>
    cases ended
    exact ⟨0, rest⟩
  | read _ ih =>
    obtain ⟨n, both⟩ := ih rest ended
    exact ⟨n + 1, .leftRead both⟩
  | done step _ ih =>
    obtain ⟨n, both⟩ := ih rest ended
    exact ⟨n + 1, @Interleaved.leftCall _ _ _ _ _ _ _ _ _ _ _ false _ _ _ _ step both⟩
  | failed step _ ih =>
    obtain ⟨n, both⟩ := ih rest ended
    exact ⟨n + 1, @Interleaved.leftCall _ _ _ _ _ _ _ _ _ _ _ true _ _ _ _ step both⟩
  | cut => cases ended

end

end CrashProgram
