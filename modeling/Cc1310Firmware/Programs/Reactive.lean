import Mathlib.Logic.Relation
import Mathlib.Tactic.Choose
import Mathlib.Tactic.TypeStar

/-! Sequential programs in a world that moves between their actions.

A program acts on the world and goes on by the response. What the world does
on its own, and what a response can be, are relations, so the meaning of a
program is a set of executions; the rules derive what holds when one of them
ends. An assertion about the moment before an action, or about the end, has to
be stable: to hold whatever the world does meanwhile.
-/

set_option autoImplicit false

namespace Reactive
open Relation

/-- `κ` are the actions, `ρ` their responses and `ε` the exceptions. -/
inductive Program (κ : Type) (ρ : κ → Type) (ε α : Type) where
  | returned : α → Program κ ρ ε α
  | raised : ε → Program κ ρ ε α
  | act : (action : κ) → (ρ action → Program κ ρ ε α) → Program κ ρ ε α

variable {κ : Type} {ρ : κ → Type} {ε α β σ : Type}

def Program.bind : Program κ ρ ε α → (α → Program κ ρ ε β) → Program κ ρ ε β
  | .returned a, next => next a
  | .raised e, _ => .raised e
  | .act action k, next => .act action fun response => (k response).bind next

def Program.handle : Program κ ρ ε α → (ε → Program κ ρ ε α) → Program κ ρ ε α
  | .returned a, _ => .returned a
  | .raised e, handler => handler e
  | .act action k, handler => .act action fun response => (k response).handle handler

instance : Monad (Program κ ρ ε) where
  pure := .returned
  bind := .bind

instance : MonadExcept ε (Program κ ρ ε) where
  throw := .raised
  tryCatch := .handle

def Program.perform (action : κ) : Program κ ρ ε (ρ action) := .act action .returned

/-- Executions, with their outcome and the world they leave. -/
inductive Exec (moves : σ → σ → Prop) (does : (action : κ) → σ → ρ action → σ → Prop) :
    Program κ ρ ε α → σ → Except ε α → σ → Prop where
  | returned {a : α} {s t : σ} : ReflTransGen moves s t → Exec moves does (.returned a) s (.ok a) t
  | raised {e : ε} {s t : σ} : ReflTransGen moves s t → Exec moves does (.raised e) s (.error e) t
  | act {action : κ} {k : ρ action → Program κ ρ ε α} {s t u v : σ} {response : ρ action} {outcome : Except ε α} :
      ReflTransGen moves s t → does action t response u → Exec moves does (k response) u outcome v →
      Exec moves does (.act action k) s outcome v

variable {moves : σ → σ → Prop} {does : (action : κ) → σ → ρ action → σ → Prop}

-- What the world does before a program starts belongs to the wait for its first action.
theorem Exec.moved {p : Program κ ρ ε α} {s t u : σ} {outcome : Except ε α} (wait : ReflTransGen moves s t)
    (exec : Exec moves does p t outcome u) : Exec moves does p s outcome u := by
  cases exec with
  | returned rest => exact .returned (wait.trans rest)
  | raised rest => exact .raised (wait.trans rest)
  | act rest step exec => exact .act (wait.trans rest) step exec

theorem Exec.bind {p : Program κ ρ ε α} {next : α → Program κ ρ ε β} {s t u : σ} {a : α} {outcome : Except ε β}
    (first : Exec moves does p s (.ok a) t) (second : Exec moves does (next a) t outcome u) :
    Exec moves does (p >>= next) s outcome u := by
  change Exec moves does (p.bind next) s outcome u
  induction p generalizing s with
  | returned => cases first with | returned wait => exact second.moved wait
  | raised => cases first
  | act action k ih => cases first with | act wait step rest => exact .act wait step (ih _ rest)

theorem Exec.tryCatch {p : Program κ ρ ε α} {handler : ε → Program κ ρ ε α} {s t : σ} {a : α}
    (exec : Exec moves does p s (.ok a) t) : Exec moves does (tryCatch p handler) s (.ok a) t := by
  change Exec moves does (p.handle handler) s (.ok a) t
  induction p generalizing s with
  | returned => cases exec with | returned wait => exact .returned wait
  | raised => cases exec
  | act action k ih => cases exec with | act wait step rest => exact .act wait step (ih _ rest)

theorem Exec.perform {action : κ} {response : ρ action} {next : ρ action → Program κ ρ ε β} {s t u : σ}
    {outcome : Except ε β} (step : does action s response t) (rest : Exec moves does (next response) t outcome u) :
    Exec moves does (Program.perform action >>= next) s outcome u :=
  .act .refl step rest

/-- An execution of a sequence goes through both parts, or ends in the first one with an exception. -/
theorem exec_bind {p : Program κ ρ ε α} {next : α → Program κ ρ ε β} {s u : σ} {outcome : Except ε β}
    (exec : Exec moves does (p >>= next) s outcome u) :
    (∃ a t, Exec moves does p s (.ok a) t ∧ Exec moves does (next a) t outcome u) ∨
    (∃ e, outcome = .error e ∧ Exec moves does p s (.error e) u) := by
  change Exec moves does (p.bind next) s outcome u at exec
  induction p generalizing s with
  | returned a => exact .inl ⟨a, s, .returned .refl, exec⟩
  | raised e => cases exec with | raised wait => exact .inr ⟨e, rfl, .raised wait⟩
  | act action k ih =>
    cases exec with
    | act wait step rest =>
      rcases ih _ rest with ⟨a, t, first, second⟩ | ⟨e, same, first⟩
      · exact .inl ⟨a, t, .act wait step first, second⟩
      · exact .inr ⟨e, same, .act wait step first⟩

/-- An execution under a handler ends without an exception, or goes on in the handler. -/
theorem exec_tryCatch {p : Program κ ρ ε α} {handler : ε → Program κ ρ ε α} {s u : σ} {outcome : Except ε α}
    (exec : Exec moves does (tryCatch p handler) s outcome u) :
    (∃ a, outcome = .ok a ∧ Exec moves does p s (.ok a) u) ∨
    (∃ e t, Exec moves does p s (.error e) t ∧ Exec moves does (handler e) t outcome u) := by
  change Exec moves does (p.handle handler) s outcome u at exec
  induction p generalizing s with
  | returned a => cases exec with | returned wait => exact .inl ⟨a, rfl, .returned wait⟩
  | raised e => exact .inr ⟨e, s, .raised .refl, exec⟩
  | act action k ih =>
    cases exec with
    | act wait step rest =>
      rcases ih _ rest with ⟨a, same, first⟩ | ⟨e, t, first, second⟩
      · exact .inl ⟨a, same, .act wait step first⟩
      · exact .inr ⟨e, t, .act wait step first, second⟩

/-! ## Exceptions -/

/-- The program raises no other exceptions than these. -/
def Program.Raises (allowed : ε → Prop) : Program κ ρ ε α → Prop
  | .returned _ => True
  | .raised e => allowed e
  | .act _ k => ∀ response, (k response).Raises allowed

theorem raises_bind {allowed : ε → Prop} {p : Program κ ρ ε α} {next : α → Program κ ρ ε β}
    (first : p.Raises allowed) (second : ∀ a, (next a).Raises allowed) : (p >>= next).Raises allowed := by
  change (p.bind next).Raises allowed
  induction p with
  | returned a => exact second a
  | raised e => exact first
  | act action k ih => exact fun response => ih response (first response)

theorem Exec.raises {allowed : ε → Prop} {p : Program κ ρ ε α} {s t : σ} {e : ε}
    (exec : Exec moves does p s (.error e) t) (raises : p.Raises allowed) : allowed e := by
  induction p generalizing s with
  | returned a => cases exec
  | raised e' => cases exec with | raised wait => exact raises
  | act action k ih => cases exec with | act wait step rest => exact ih _ rest (raises _)

/-! ## Loops -/

theorem bind_assoc {γ : Type} (p : Program κ ρ ε α) (next : α → Program κ ρ ε β) (last : β → Program κ ρ ε γ) :
    p >>= next >>= last = p >>= fun a => next a >>= last := by
  change (p.bind next).bind last = p.bind fun a => (next a).bind last
  induction p with
  | returned a => rfl
  | raised e => rfl
  | act action k ih =>
    have same : (fun response => ((k response).bind next).bind last) =
      fun response => (k response).bind fun a => (next a).bind last := by
      funext response
      exact ih response
    exact congrArg (Program.act action) same

/-- The body of a loop is executed over and over, each time with the value that the last time returned. -/
def Rounds (moves : σ → σ → Prop) (does : (action : κ) → σ → ρ action → σ → Prop) (body : α → Program κ ρ ε α)
    (value : Nat → α) (world : Nat → σ) : Prop :=
  ∀ k, Exec moves does (body (value k)) (world k) (.ok (value (k + 1))) (world (k + 1))

/-- An invariant from which another round is always possible. -/
theorem exists_rounds {body : α → Program κ ρ ε α} {inv : Nat → α → σ → Prop}
    (round : ∀ k a s, inv k a s → ∃ b t, Exec moves does (body a) s (.ok b) t ∧ inv (k + 1) b t) {a : α} {s : σ}
    (start : inv 0 a s) :
    ∃ value world, value 0 = a ∧ world 0 = s ∧ Rounds moves does body value world ∧
      ∀ k, inv k (value k) (world k) := by
  have next : ∀ k (x : α × σ), ∃ y : α × σ, inv k x.1 x.2 → Exec moves does (body x.1) x.2 (.ok y.1) y.2 ∧
      inv (k + 1) y.1 y.2 := by
    intro k x
    by_cases holds : inv k x.1 x.2
    · obtain ⟨b, t, exec, holds'⟩ := round k x.1 x.2 holds
      exact ⟨(b, t), fun _ => ⟨exec, holds'⟩⟩
    -- never reached; it makes the function total
    · exact ⟨x, fun holds' => absurd holds' holds⟩
  -- dependent choice: the invariant makes each round possible, so one function can give them all
  choose f exec using next
  have holds : ∀ k, inv k (Nat.rec (a, s) f k : α × σ).1 (Nat.rec (a, s) f k : α × σ).2 := by
    intro k
    induction k with
    | zero => exact start
    | succ k ih => exact (exec k _ ih).2
  exact ⟨fun k => (Nat.rec (a, s) f k : α × σ).1, fun k => (Nat.rec (a, s) f k : α × σ).2, rfl, rfl,
    fun k => (exec k _ (holds k)).1, holds⟩

/-! ## Assertions -/

/-- What the world keeps on its own. -/
def Stable (moves : σ → σ → Prop) (assertion : σ → Prop) : Prop := ∀ s t, moves s t → assertion s → assertion t

theorem Stable.wait {assertion : σ → Prop} (stable : Stable moves assertion) {s t : σ}
    (wait : ReflTransGen moves s t) (holds : assertion s) : assertion t := by
  induction wait with
  | refl => exact holds
  | tail _ step ih => exact stable _ _ step ih

theorem Stable.of_const (p : Prop) : Stable moves fun _ : σ => p := fun _ _ _ => id

theorem Stable.exists {ι : Sort*} {assertion : ι → σ → Prop} (stable : ∀ i, Stable moves (assertion i)) :
    Stable moves fun s => ∃ i, assertion i s := by
  rintro s t step ⟨i, holds⟩
  exact ⟨i, stable i s t step holds⟩

/-- The program performs no other actions than these. -/
def Program.Performs (allowed : κ → Prop) : Program κ ρ ε α → Prop
  | .returned _ => True
  | .raised _ => True
  | .act action k => allowed action ∧ ∀ response, (k response).Performs allowed

theorem performs_bind {allowed : κ → Prop} {p : Program κ ρ ε α} {next : α → Program κ ρ ε β}
    (first : p.Performs allowed) (second : ∀ a, (next a).Performs allowed) : (p >>= next).Performs allowed := by
  change (p.bind next).Performs allowed
  induction p with
  | returned a => exact second a
  | raised e => trivial
  | act action k ih => exact ⟨first.1, fun response => ih response (first.2 response)⟩

theorem performs_tryCatch {allowed : κ → Prop} {p : Program κ ρ ε α} {handler : ε → Program κ ρ ε α}
    (first : p.Performs allowed) (second : ∀ e, (handler e).Performs allowed) :
    (tryCatch p handler).Performs allowed := by
  change (p.handle handler).Performs allowed
  induction p with
  | returned a => trivial
  | raised e => exact second e
  | act action k ih => exact ⟨first.1, fun response => ih response (first.2 response)⟩

/-- What the world and every allowed action keep holds at the end of an execution, however it ends. -/
theorem Exec.keeps {allowed : κ → Prop} {inv : σ → Prop} (stable : Stable moves inv)
    (acts : ∀ action s response t, allowed action → inv s → does action s response t → inv t)
    {p : Program κ ρ ε α} {s t : σ} {outcome : Except ε α} (exec : Exec moves does p s outcome t)
    (performs : p.Performs allowed) (holds : inv s) : inv t := by
  induction exec with
  | returned wait | raised wait => exact stable.wait wait holds
  | act wait step _ ih => exact ih (performs.2 _) (acts _ _ _ _ performs.1 (stable.wait wait holds) step)

/-- What holds at the end of every execution from `pre`, by how it ends. -/
structure Triple (moves : σ → σ → Prop) (does : (action : κ) → σ → ρ action → σ → Prop) (pre : σ → Prop)
    (p : Program κ ρ ε α) (post : α → σ → Prop) (failed : ε → σ → Prop) : Prop where
  returns : ∀ {s a t}, pre s → Exec moves does p s (.ok a) t → post a t
  raises : ∀ {s e t}, pre s → Exec moves does p s (.error e) t → failed e t

section
variable {pre : σ → Prop} {post : α → σ → Prop} {failed : ε → σ → Prop}

theorem Triple.mono {p : Program κ ρ ε α} {pre' : σ → Prop} {post' : α → σ → Prop} {failed' : ε → σ → Prop}
    (triple : Triple moves does pre p post failed) (stronger : ∀ s, pre' s → pre s)
    (weaker : ∀ a s, post a s → post' a s) (weaker' : ∀ e s, failed e s → failed' e s) :
    Triple moves does pre' p post' failed' where
  returns before exec := weaker _ _ (triple.returns (stronger _ before) exec)
  raises before exec := weaker' _ _ (triple.raises (stronger _ before) exec)

/-- What is known of the exceptions from the text of the program. -/
theorem Triple.raising {p : Program κ ρ ε α} {allowed : ε → Prop} (triple : Triple moves does pre p post failed)
    (raises : p.Raises allowed) : Triple moves does pre p post fun e _ => allowed e where
  returns := triple.returns
  raises _ exec := exec.raises raises

theorem Triple.exists {ι : Sort*} {p : Program κ ρ ε α} {pre : ι → σ → Prop}
    (each : ∀ i, Triple moves does (pre i) p post failed) :
    Triple moves does (fun s => ∃ i, pre i s) p post failed where
  returns before exec := by
    obtain ⟨i, before⟩ := before
    exact (each i).returns before exec
  raises before exec := by
    obtain ⟨i, before⟩ := before
    exact (each i).raises before exec

theorem Triple.of_const {p : Program κ ρ ε α} {condition : Prop}
    (each : condition → Triple moves does pre p post failed) :
    Triple moves does (fun s => condition ∧ pre s) p post failed where
  returns before exec := (each before.1).returns before.2 exec
  raises before exec := (each before.1).raises before.2 exec

theorem Triple.of_false {p : Program κ ρ ε α} : Triple moves does (fun _ => False) p post failed where
  returns before := before.elim
  raises before := before.elim

theorem Triple.pure {a : α} (stable : Stable moves (post a)) (holds : ∀ s, pre s → post a s) :
    Triple moves does pre (pure a : Program κ ρ ε α) post failed where
  returns before exec := by cases exec with | returned wait => exact stable.wait wait (holds _ before)
  raises _ exec := by cases exec

/-- An exception of which nothing is asked. -/
theorem Triple.throw_true {e : ε} : Triple moves does pre (throw e : Program κ ρ ε α) post fun _ _ => True where
  returns _ exec := by cases exec
  raises _ _ := trivial

theorem Triple.throw {e : ε} (stable : Stable moves (failed e)) (holds : ∀ s, pre s → failed e s) :
    Triple moves does pre (throw e : Program κ ρ ε α) post failed where
  returns _ exec := by cases exec
  raises before exec := by cases exec with | raised wait => exact stable.wait wait (holds _ before)

theorem Triple.act {action : κ} {k : ρ action → Program κ ρ ε α} (between : ρ action → σ → Prop)
    (stable : Stable moves pre) (acts : ∀ s response t, pre s → does action s response t → between response t)
    (rest : ∀ response, Triple moves does (between response) (k response) post failed) :
    Triple moves does pre (.act action k) post failed where
  returns before exec := by
    cases exec with
    | act wait step exec => exact (rest _).returns (acts _ _ _ (stable.wait wait before) step) exec
  raises before exec := by
    cases exec with
    | act wait step exec => exact (rest _).raises (acts _ _ _ (stable.wait wait before) step) exec

theorem Triple.perform {action : κ} {next : ρ action → Program κ ρ ε α} (between : ρ action → σ → Prop)
    (stable : Stable moves pre) (acts : ∀ s response t, pre s → does action s response t → between response t)
    (rest : ∀ response, Triple moves does (between response) (next response) post failed) :
    Triple moves does pre (Program.perform action >>= next) post failed :=
  .act between stable acts rest

theorem Triple.bind {p : Program κ ρ ε α} {next : α → Program κ ρ ε β} {post : β → σ → Prop}
    (between : α → σ → Prop) (first : Triple moves does pre p between failed)
    (rest : ∀ a, Triple moves does (between a) (next a) post failed) :
    Triple moves does pre (p >>= next) post failed where
  returns before exec := by
    rcases exec_bind exec with ⟨a, _, left, right⟩ | ⟨_, ended, _⟩
    · exact (rest a).returns (first.returns before left) right
    · cases ended
  raises before exec := by
    rcases exec_bind exec with ⟨a, _, left, right⟩ | ⟨_, ended, left⟩
    · exact (rest a).raises (first.returns before left) right
    · cases ended
      exact first.raises before left

theorem Triple.tryCatch {p : Program κ ρ ε α} {handler : ε → Program κ ρ ε α} (between : ε → σ → Prop)
    (first : Triple moves does pre p post between)
    (rest : ∀ e, Triple moves does (between e) (handler e) post failed) :
    Triple moves does pre (tryCatch p handler) post failed where
  returns before exec := by
    rcases exec_tryCatch exec with ⟨_, ended, left⟩ | ⟨e, _, left, right⟩
    · cases ended
      exact first.returns before left
    · exact (rest e).returns (first.raises before left) right
  raises before exec := by
    rcases exec_tryCatch exec with ⟨_, ended, _⟩ | ⟨e, _, left, right⟩
    · cases ended
    · exact (rest e).raises (first.raises before left) right

end

end Reactive
