import Mathlib.Data.List.Basic

/-! Programs over a device whose calls can fail or be cut short.

A program reads the device state and issues commands. The device answers a
command with a status and a new state; `cut` ends the whole program at that
point, so every intermediate state of an execution is the last state of one of
its cut executions. The program itself is deterministic: everything that can
vary is in the device relation.
-/

set_option autoImplicit false

namespace CrashProgram

inductive Status where
  | done
  | failed
  | cut
  deriving DecidableEq, Repr

inductive Program (σ κ α : Type) where
  | ret : α → Program σ κ α
  | read : (σ → Program σ κ α) → Program σ κ α
  | call : κ → (Bool → Program σ κ α) → Program σ κ α

variable {σ κ α β : Type}

def Program.bind : Program σ κ α → (α → Program σ κ β) → Program σ κ β
  | .ret a, next => next a
  | .read k, next => .read fun s => (k s).bind next
  | .call c k, next => .call c fun failed => (k failed).bind next

instance : Monad (Program σ κ) where
  pure := .ret
  bind := .bind

/-- A pure function of the current device state. -/
def Program.view (observe : σ → α) : Program σ κ α := .read fun s => .ret (observe s)

/-- Issue a command; the answer tells whether the call reported an error. -/
def Program.issue (command : κ) : Program σ κ Bool := .call command .ret

/-- A call as the device saw it: the state it was made in, and how it ended. -/
structure Call (σ κ : Type) where
  state : σ
  command : κ
  status : Status

inductive Result (α : Type) where
  | returned : α → Result α
  | cut
  deriving DecidableEq, Repr

/-- Executions, with their calls in order, what they returned and the state they left. -/
inductive Exec (device : σ → κ → Status → σ → Prop) :
    Program σ κ α → σ → List (Call σ κ) → Result α → σ → Prop where
  | ret {a : α} {s : σ} : Exec device (.ret a) s [] (.returned a) s
  | read {k : σ → Program σ κ α} {s s' : σ} {calls : List (Call σ κ)} {r : Result α} :
      Exec device (k s) s calls r s' → Exec device (.read k) s calls r s'
  | done {c : κ} {k : Bool → Program σ κ α} {s t s' : σ} {calls : List (Call σ κ)} {r : Result α} :
      device s c .done t → Exec device (k false) t calls r s' →
      Exec device (.call c k) s (⟨s, c, .done⟩ :: calls) r s'
  | failed {c : κ} {k : Bool → Program σ κ α} {s t s' : σ} {calls : List (Call σ κ)} {r : Result α} :
      device s c .failed t → Exec device (k true) t calls r s' →
      Exec device (.call c k) s (⟨s, c, .failed⟩ :: calls) r s'
  | cut {c : κ} {k : Bool → Program σ κ α} {s t : σ} :
      device s c .cut t → Exec device (.call c k) s [⟨s, c, .cut⟩] .cut t

/-- Every execution from `s`, completed or cut, satisfies the postcondition. -/
def Ensures (device : σ → κ → Status → σ → Prop) (p : Program σ κ α) (s : σ)
    (post : List (Call σ κ) → Result α → σ → Prop) : Prop :=
  ∀ calls r s', Exec device p s calls r s' → post calls r s'

variable {device : σ → κ → Status → σ → Prop}

theorem Ensures.mono {p : Program σ κ α} {s : σ} {post weaker : List (Call σ κ) → Result α → σ → Prop}
    (h : Ensures device p s post) (imp : ∀ calls r s', post calls r s' → weaker calls r s') :
    Ensures device p s weaker :=
  fun calls r s' exec => imp calls r s' (h calls r s' exec)

theorem Ensures.and {p : Program σ κ α} {s : σ} {left right : List (Call σ κ) → Result α → σ → Prop}
    (hl : Ensures device p s left) (hr : Ensures device p s right) :
    Ensures device p s fun calls r s' => left calls r s' ∧ right calls r s' :=
  fun calls r s' exec => ⟨hl calls r s' exec, hr calls r s' exec⟩

@[simp] theorem ensures_ret {a : α} {s : σ} {post : List (Call σ κ) → Result α → σ → Prop} :
    Ensures device (.ret a) s post ↔ post [] (.returned a) s := by
  constructor
  · intro h; exact h _ _ _ .ret
  · intro h calls r s' exec; cases exec; exact h

@[simp] theorem ensures_pure {a : α} {s : σ} {post : List (Call σ κ) → Result α → σ → Prop} :
    Ensures device (pure a) s post ↔ post [] (.returned a) s := ensures_ret

@[simp] theorem ensures_read {k : σ → Program σ κ α} {s : σ}
    {post : List (Call σ κ) → Result α → σ → Prop} :
    Ensures device (.read k) s post ↔ Ensures device (k s) s post := by
  constructor
  · intro h calls r s' exec; exact h _ _ _ (.read exec)
  · intro h calls r s' exec; cases exec with | read exec => exact h _ _ _ exec

@[simp] theorem ensures_view {observe : σ → α} {s : σ}
    {post : List (Call σ κ) → Result α → σ → Prop} :
    Ensures device (Program.view observe) s post ↔ post [] (.returned (observe s)) s := by
  simp [Program.view]

/-- A call: one obligation for each way the device can answer. -/
theorem ensures_call {c : κ} {k : Bool → Program σ κ α} {s : σ}
    {post : List (Call σ κ) → Result α → σ → Prop} :
    Ensures device (.call c k) s post ↔
      (∀ t, device s c .done t →
        Ensures device (k false) t fun calls r s' => post (⟨s, c, .done⟩ :: calls) r s') ∧
      (∀ t, device s c .failed t →
        Ensures device (k true) t fun calls r s' => post (⟨s, c, .failed⟩ :: calls) r s') ∧
      (∀ t, device s c .cut t → post [⟨s, c, .cut⟩] .cut t) := by
  constructor
  · intro h
    exact ⟨fun t step calls r s' exec => h _ _ _ (.done step exec),
      fun t step calls r s' exec => h _ _ _ (.failed step exec),
      fun t step => h _ _ _ (.cut step)⟩
  · rintro ⟨hd, hf, hc⟩ calls r s' exec
    cases exec with
    | done step exec => exact hd _ step _ _ _ exec
    | failed step exec => exact hf _ step _ _ _ exec
    | cut step => exact hc _ step

theorem ensures_issue {c : κ} {s : σ} {post : List (Call σ κ) → Result Bool → σ → Prop} :
    Ensures device (Program.issue c) s post ↔
      (∀ t, device s c .done t → post [⟨s, c, .done⟩] (.returned false) t) ∧
      (∀ t, device s c .failed t → post [⟨s, c, .failed⟩] (.returned true) t) ∧
      (∀ t, device s c .cut t → post [⟨s, c, .cut⟩] .cut t) := by
  simp [Program.issue, ensures_call]

theorem Exec.bind {p : Program σ κ α} {next : α → Program σ κ β} {s t s' : σ} {a : α}
    {calls rest : List (Call σ κ)} {r : Result β} (first : Exec device p s calls (.returned a) t)
    (second : Exec device (next a) t rest r s') :
    Exec device (p >>= next) s (calls ++ rest) r s' := by
  change Exec device (p.bind next) s (calls ++ rest) r s'
  generalize hr : Result.returned a = ra at first
  induction first with
  | ret => cases hr; exact second
  | read _ ih => exact .read (ih second hr)
  | done step _ ih => exact .done step (ih second hr)
  | failed step _ ih => exact .failed step (ih second hr)
  | cut step => cases hr

theorem Exec.bind_cut {p : Program σ κ α} {next : α → Program σ κ β} {s s' : σ}
    {calls : List (Call σ κ)} (first : Exec device p s calls .cut s') :
    Exec device (p >>= next) s calls .cut s' := by
  change Exec device (p.bind next) s calls .cut s'
  generalize hr : Result.cut = ra at first
  induction first with
  | ret => cases hr
  | read _ ih => exact .read (ih hr)
  | done step _ ih => exact .done step (ih hr)
  | failed step _ ih => exact .failed step (ih hr)
  | cut step => exact .cut step

theorem Exec.view_bind {observe : σ → α} {next : α → Program σ κ β} {s s' : σ}
    {calls : List (Call σ κ)} {r : Result β} (rest : Exec device (next (observe s)) s calls r s') :
    Exec device (Program.view observe >>= next) s calls r s' :=
  .read rest

theorem Exec.done_bind {c : κ} {next : Bool → Program σ κ β} {s t s' : σ} {calls : List (Call σ κ)}
    {r : Result β} (step : device s c .done t) (rest : Exec device (next false) t calls r s') :
    Exec device (Program.issue c >>= next) s (⟨s, c, .done⟩ :: calls) r s' :=
  .done step rest

theorem Exec.failed_bind {c : κ} {next : Bool → Program σ κ β} {s t s' : σ} {calls : List (Call σ κ)}
    {r : Result β} (step : device s c .failed t) (rest : Exec device (next true) t calls r s') :
    Exec device (Program.issue c >>= next) s (⟨s, c, .failed⟩ :: calls) r s' :=
  .failed step rest

/-- What follows a program starts in the state the program returned in; a cut
inside it is already a cut of the whole. -/
def Result.andThen (device : σ → κ → Status → σ → Prop) (next : α → Program σ κ β)
    (post : List (Call σ κ) → Result β → σ → Prop) :
    List (Call σ κ) → Result α → σ → Prop :=
  fun calls r s => match r with
    | .returned a => Ensures device (next a) s fun rest r' s' => post (calls ++ rest) r' s'
    | .cut => post calls .cut s

@[simp] theorem Result.andThen_returned {next : α → Program σ κ β} {a : α} {s : σ}
    {post : List (Call σ κ) → Result β → σ → Prop} {calls : List (Call σ κ)} :
    Result.andThen device next post calls (.returned a) s ↔
      Ensures device (next a) s fun rest r' s' => post (calls ++ rest) r' s' := Iff.rfl

@[simp] theorem Result.andThen_cut {next : α → Program σ κ β} {s : σ}
    {post : List (Call σ κ) → Result β → σ → Prop} {calls : List (Call σ κ)} :
    Result.andThen device next post calls .cut s ↔ post calls .cut s := Iff.rfl

-- Both directions are needed: a caller's proof goes backwards from its postcondition, and
-- exec_bind takes an execution apart.
theorem ensures_bind {p : Program σ κ α} {next : α → Program σ κ β} {s : σ}
    {post : List (Call σ κ) → Result β → σ → Prop} :
    Ensures device (p >>= next) s post ↔ Ensures device p s (Result.andThen device next post) := by
  constructor
  · intro h calls r s' exec
    cases r with
    | returned a => exact fun rest r' t exec' => h _ _ _ (exec.bind exec')
    | cut => exact h _ _ _ exec.bind_cut
  · intro h
    change Ensures device (p.bind next) s post
    induction p generalizing s post with
    | ret a => exact ensures_ret.mp h
    | read k ih =>
      rw [ensures_read] at h
      exact ensures_read.mpr (ih s h)
    | call c k ih =>
      obtain ⟨hd, hf, hc⟩ := ensures_call.mp h
      refine ensures_call.mpr ⟨fun t step => ih false ?_, fun t step => ih true ?_, hc⟩
      · refine (hd t step).mono ?_
        intro calls r s' h; cases r <;> exact h
      · refine (hf t step).mono ?_
        intro calls r s' h; cases r <;> exact h

/-- An execution of a sequence is one of its first part alone, cut, or of both parts. -/
theorem exec_bind {p : Program σ κ α} {next : α → Program σ κ β} {s s' : σ} {calls : List (Call σ κ)}
    {r : Result β} : Exec device (p >>= next) s calls r s' ↔
      (∃ first a t rest, Exec device p s first (.returned a) t ∧ Exec device (next a) t rest r s' ∧
        calls = first ++ rest) ∨ (r = .cut ∧ Exec device p s calls .cut s') := by
  constructor
  · intro exec
    -- the strongest postcondition of the first part, through the rule for sequences
    have split : Ensures device p s (Result.andThen device next fun calls r s' =>
        (∃ first a t rest, Exec device p s first (.returned a) t ∧ Exec device (next a) t rest r s' ∧
          calls = first ++ rest) ∨ (r = .cut ∧ Exec device p s calls .cut s')) := by
      intro first r t exec
      cases r with
      | returned a => exact fun rest r s' exec' => .inl ⟨first, a, t, rest, exec, exec', rfl⟩
      | cut => exact .inr ⟨rfl, exec⟩
    exact ensures_bind.mpr split _ _ _ exec
  · rintro (⟨first, a, t, rest, exec, exec', rfl⟩ | ⟨rfl, exec⟩)
    · exact exec.bind exec'
    · exact exec.bind_cut

@[simp] theorem exec_pure {a : α} {s s' : σ} {calls : List (Call σ κ)} {r : Result α} :
    Exec device (pure a) s calls r s' ↔ calls = [] ∧ r = .returned a ∧ s' = s := by
  constructor
  · intro exec; cases exec; exact ⟨rfl, rfl, rfl⟩
  · rintro ⟨rfl, rfl, rfl⟩; exact .ret

@[simp] theorem exec_view_bind {observe : σ → α} {next : α → Program σ κ β} {s s' : σ}
    {calls : List (Call σ κ)} {r : Result β} :
    Exec device (Program.view observe >>= next) s calls r s' ↔ Exec device (next (observe s)) s calls r s' := by
  constructor
  · intro exec; cases exec with | read exec => exact exec
  · exact .view_bind

def Result.map (f : α → β) : Result α → Result β
  | .returned a => .returned (f a)
  | .cut => .cut

theorem Result.map_eq_returned {f : α → β} {r : Result α} {b : β} :
    r.map f = .returned b ↔ ∃ a, r = .returned a ∧ f a = b := by
  cases r <;> simp [map]

/-- A pure function of what a program returns. -/
theorem exec_map {p : Program σ κ α} {f : α → β} {s s' : σ} {calls : List (Call σ κ)} {r : Result β} :
    Exec device (p >>= fun a => pure (f a)) s calls r s' ↔
      ∃ result, Exec device p s calls result s' ∧ r = result.map f := by
  rw [exec_bind]
  constructor
  · rintro (⟨first, a, t, rest, exec, exec', rfl⟩ | ⟨rfl, exec⟩)
    · obtain ⟨rfl, rfl, rfl⟩ := exec_pure.mp exec'
      exact ⟨_, by simpa using exec, rfl⟩
    · exact ⟨_, exec, rfl⟩
  · rintro ⟨result, exec, rfl⟩
    cases result with
    | returned a => exact .inl ⟨calls, a, s', [], exec, .ret, by simp⟩
    | cut => exact .inr ⟨rfl, exec⟩

theorem Exec.map {p : Program σ κ α} {s s' : σ} {calls : List (Call σ κ)} {result : Result α}
    (exec : Exec device p s calls result s') (f : α → β) :
    Exec device (p >>= fun a => pure (f a)) s calls (result.map f) s' :=
  exec_map.mpr ⟨result, exec, rfl⟩

@[simp] theorem ensures_view_bind {observe : σ → α} {next : α → Program σ κ β} {s : σ}
    {post : List (Call σ κ) → Result β → σ → Prop} :
    Ensures device (Program.view observe >>= next) s post ↔
      Ensures device (next (observe s)) s post := by
  simp [ensures_bind]

theorem Exec.cut_call {p : Program σ κ α} {s s' : σ} {calls : List (Call σ κ)}
    (exec : Exec device p s calls .cut s') :
    ∃ c ∈ calls, c.status = .cut := by
  generalize ended : Result.cut = r at exec
  induction exec with
  | ret => cases ended
  | read _ ih => exact ih ended
  | done _ _ ih | failed _ _ ih =>
    obtain ⟨c, member, status⟩ := ih ended
    exact ⟨c, List.mem_cons_of_mem _ member, status⟩
  | cut => exact ⟨_, List.mem_singleton.mpr rfl, rfl⟩

/-! ## What a program can issue -/

/-- Every command the program can issue, whatever the device answers, is allowed. -/
def Program.Only (allowed : κ → Prop) : Program σ κ α → Prop
  | .ret _ => True
  | .read k => ∀ s, (k s).Only allowed
  | .call c k => allowed c ∧ ∀ failed, (k failed).Only allowed

variable {allowed : κ → Prop}

@[simp] theorem only_pure (a : α) : (pure a : Program σ κ α).Only allowed := trivial

@[simp] theorem only_view (observe : σ → α) : (Program.view observe : Program σ κ α).Only allowed :=
  fun _ => trivial

@[simp] theorem only_issue {command : κ} :
    (Program.issue command : Program σ κ Bool).Only allowed ↔ allowed command :=
  ⟨And.left, fun allowed => ⟨allowed, fun _ => trivial⟩⟩

theorem only_bind {p : Program σ κ α} {next : α → Program σ κ β} (first : p.Only allowed)
    (rest : ∀ a, (next a).Only allowed) : (p >>= next).Only allowed := by
  change (p.bind next).Only allowed
  induction p with
  | ret a => exact rest a
  | read k ih => exact fun s => ih s (first s)
  | call c k ih => exact ⟨first.1, fun failed => ih failed (first.2 failed)⟩

theorem only_view_bind {observe : σ → α} {next : α → Program σ κ β}
    (rest : ∀ s, (next (observe s)).Only allowed) : (Program.view observe >>= next).Only allowed :=
  rest

theorem Exec.only {p : Program σ κ α} {s s' : σ} {calls : List (Call σ κ)} {r : Result α}
    (exec : Exec device p s calls r s') (only : p.Only allowed) : ∀ c ∈ calls, allowed c.command := by
  induction exec with
  | ret => simp
  | read _ ih => exact ih (only _)
  | done _ _ ih => simpa [only.1] using ih (only.2 false)
  | failed _ _ ih => simpa [only.1] using ih (only.2 true)
  | cut => simpa using only.1

/-- A program whose commands the device can always carry out can run to its end. -/
theorem exec_completes {p : Program σ κ α} (only : p.Only allowed)
    (carriedOut : ∀ s c, allowed c → ∃ t, device s c .done t) (s : σ) :
    ∃ calls a s', Exec device p s calls (.returned a) s' ∧ ∀ c ∈ calls, c.status = .done := by
  induction p generalizing s with
  | ret a => exact ⟨[], a, s, .ret, by simp⟩
  | read k ih =>
    obtain ⟨calls, a, s', exec, done⟩ := ih s (only s) s
    exact ⟨calls, a, s', .read exec, done⟩
  | call c k ih =>
    obtain ⟨t, step⟩ := carriedOut s c only.1
    obtain ⟨calls, a, s', exec, done⟩ := ih false (only.2 false) t
    exact ⟨_, a, s', .done step exec, by simpa using done⟩

/-- A program can run to its end with every call failing and changing nothing, if the device can. -/
theorem exec_fails (p : Program σ κ α) {s : σ} (fails : ∀ c, device s c .failed s) :
    ∃ calls a, Exec device p s calls (.returned a) s ∧ ∀ c ∈ calls, c.status = .failed := by
  induction p with
  | ret a => exact ⟨[], a, .ret, by simp⟩
  | read k ih =>
    obtain ⟨calls, a, exec, failed⟩ := ih s
    exact ⟨calls, a, .read exec, failed⟩
  | call c k ih =>
    obtain ⟨calls, a, exec, failed⟩ := ih true
    exact ⟨_, a, .failed (fails c) exec, by simpa using failed⟩

end CrashProgram
