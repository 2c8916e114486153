import Mathlib.Data.List.Basic

/-! Stop and wait over two queues that lose messages.

A client repeats one request until it has an answer to it, and only then turns
to the next. Because both queues are in order, at most two requests are under
way at any time, all copies of the earlier one in front; and once an answer to
the current request has come through, no copy of the earlier one is left
anywhere. `Exchange` says what a request may rely on and what its answers
mean; the server has to respect it message by message.
-/

set_option autoImplicit false

namespace StopAndWait
open List

/-- A server, and the two queues between it and its client. -/
structure Link (σ ρ τ : Type) where
  server : σ
  requests : List ρ
  replies : List τ

variable {σ ρ τ : Type}

/-- What happens without the client. -/
inductive LinkStep (serve : σ → ρ → Option τ → σ → Prop) (idle : σ → σ → Prop) :
    Link σ ρ τ → Link σ ρ τ → Prop where
  | lost {server : σ} {requests requests' : List ρ} {replies replies' : List τ} :
      requests' <+ requests → replies' <+ replies →
      LinkStep serve idle ⟨server, requests, replies⟩ ⟨server, requests', replies'⟩
  | served {server server' : σ} {request : ρ} {answer : Option τ} {requests : List ρ} {replies : List τ} :
      serve server request answer server' →
      LinkStep serve idle ⟨server, request :: requests, replies⟩ ⟨server', requests, replies ++ answer.toList⟩
  | idled {server server' : σ} {requests : List ρ} {replies : List τ} : idle server server' →
      LinkStep serve idle ⟨server, requests, replies⟩ ⟨server', requests, replies⟩

/-- One request and the one before it. `before` holds of the server while copies of the
earlier request may be left, and `during` all the time; an answer to the request says
something about the server from then on. -/
structure Exchange (σ ρ τ : Type) where
  earlier : ρ
  request : ρ
  late : τ → Prop
  before : σ → Prop
  during : σ → Prop
  answers : τ → σ → Prop

structure Exchange.Respected (x : Exchange σ ρ τ) (serve : σ → ρ → Option τ → σ → Prop)
    (idle : σ → σ → Prop) : Prop where
  servesEarlier : ∀ s answer s', x.before s → x.during s → serve s x.earlier answer s' →
    x.before s' ∧ x.during s' ∧ ∀ a ∈ answer, x.late a
  serves : ∀ s answer s', x.during s → serve s x.request answer s' → x.during s' ∧ ∀ a ∈ answer, x.answers a s'
  served : ∀ s answer s' a, x.during s → serve s x.request answer s' → x.answers a s → x.answers a s'
  idles : ∀ s s', idle s s' → (x.before s → x.before s') ∧ (x.during s → x.during s')
  idled : ∀ s s' a, idle s s' → x.answers a s → x.answers a s'

/-- The queues while the client waits for an answer. -/
structure Exchange.Queued (x : Exchange σ ρ τ) (old new : Nat) (late answers : List τ)
    (link : Link σ ρ τ) : Prop where
  requests : link.requests = replicate old x.earlier ++ replicate new x.request
  replies : link.replies = late ++ answers
  lates : ∀ a ∈ late, x.late a
  answered : ∀ a ∈ answers, x.answers a link.server
  before : old ≠ 0 → x.before link.server ∧ answers = []
  during : x.during link.server

def Exchange.Open (x : Exchange σ ρ τ) (link : Link σ ρ τ) : Prop :=
  ∃ old new late answers, x.Queued old new late answers link

/-- The queues after an answer has come through. -/
structure Exchange.Closed (x : Exchange σ ρ τ) (link : Link σ ρ τ) : Prop where
  requests : ∀ r ∈ link.requests, r = x.request
  replies : ∀ a ∈ link.replies, x.answers a link.server
  during : x.during link.server

section
variable {x y : Exchange σ ρ τ} {serve : σ → ρ → Option τ → σ → Prop} {idle : σ → σ →
    Prop} {link link' : Link σ ρ τ}

/-- A closed exchange is an open one without an earlier request and without late replies. -/
theorem Exchange.closed_iff : x.Closed link ↔ ∃ new answers, x.Queued 0 new [] answers link := by
  constructor
  · intro closed
    exact ⟨link.requests.length, link.replies, eq_replicate_of_mem closed.requests, rfl, by simp, closed.replies,
      fun some_ => absurd rfl some_, closed.during⟩
  · rintro ⟨new, answers, queued⟩
    refine ⟨?_, ?_, queued.during⟩
    · intro r member
      rw [queued.requests] at member
      exact eq_of_mem_replicate member
    · intro a member
      rw [queued.replies] at member
      exact queued.answered a member

theorem Exchange.Closed.open (closed : x.Closed link) : x.Open link := by
  obtain ⟨new, answers, queued⟩ := x.closed_iff.mp closed
  exact ⟨0, new, [], answers, queued⟩

/-- The first exchange has nothing before it. -/
theorem Exchange.Open.closed_of_first (open_ : x.Open link) (noEarlier : ∀ s, ¬ x.before s)
    (noLate : ∀ a, ¬ x.late a) :
    x.Closed link := by
  obtain ⟨old, new, late, answers, queued⟩ := open_
  have none_ : old = 0 := by
    by_contra some_
    exact noEarlier _ (queued.before some_).1
  have empty : late = [] := eq_nil_iff_forall_not_mem.mpr fun a member => noLate a (queued.lates a member)
  subst none_ empty
  exact x.closed_iff.mpr ⟨new, answers, queued⟩

theorem Exchange.Open.send (open_ : x.Open link) :
    x.Open { link with requests := link.requests ++ [x.request] } := by
  obtain ⟨old, new, late, answers, queued⟩ := open_
  refine ⟨old, new + 1, late, answers, ?_, queued.replies, queued.lates, queued.answered, queued.before,
    queued.during⟩
  rw [queued.requests, append_assoc, replicate_succ']

theorem Exchange.Open.lose {server : σ} {requests requests' : List ρ} {replies replies' : List τ}
    (open_ : x.Open ⟨server, requests, replies⟩) (fewer : requests' <+ requests) (fewer' : replies' <+ replies) :
    x.Open ⟨server, requests', replies'⟩ := by
  obtain ⟨old, new, late, answers, queued⟩ := open_
  obtain rfl := queued.requests
  obtain rfl := queued.replies
  obtain ⟨first, second, rfl, firsts, seconds⟩ := sublist_append_iff.mp fewer
  obtain ⟨late', answers', rfl, lates, answered⟩ := sublist_append_iff.mp fewer'
  obtain ⟨old', fewerOld, rfl⟩ := sublist_replicate_iff.mp firsts
  obtain ⟨new', _, rfl⟩ := sublist_replicate_iff.mp seconds
  refine ⟨old', new', late', answers', rfl, rfl, fun a member => queued.lates a (lates.subset member),
    fun a member => queued.answered a (answered.subset member), ?_, queued.during⟩
  intro some_
  obtain ⟨before, none_⟩ := queued.before (by omega)
  subst none_
  exact ⟨before, sublist_nil.mp answered⟩

theorem Exchange.Open.serving (respected : x.Respected serve idle) {server server' : σ} {request : ρ}
    {answer : Option τ} {requests : List ρ} {replies : List τ}
    (open_ : x.Open ⟨server, request :: requests, replies⟩) (step : serve server request answer server') :
    x.Open ⟨server', requests, replies ++ answer.toList⟩ := by
  obtain ⟨old, new, late, answers, queued⟩ := open_
  have front := queued.requests
  obtain rfl := queued.replies
  cases old with
  | succ old =>
    -- a copy of the earlier request; so there is no answer to the current one yet
    rw [replicate_succ, cons_append] at front
    obtain ⟨rfl, rfl⟩ := cons.inj front
    obtain ⟨before, rfl⟩ := queued.before (Nat.succ_ne_zero old)
    obtain ⟨before', during, lates⟩ := respected.servesEarlier _ _ _ before queued.during step
    refine ⟨old, new, late ++ answer.toList, [], rfl, by simp, ?_, by simp, fun _ => ⟨before', rfl⟩, during⟩
    intro a member
    rcases mem_append.mp member with earlier | now
    · exact queued.lates a earlier
    · exact lates a (Option.mem_toList.mp now)
  | zero =>
    cases new with
    | zero => cases front
    | succ new =>
      rw [replicate_zero, nil_append, replicate_succ] at front
      obtain ⟨rfl, rfl⟩ := cons.inj front
      obtain ⟨during, answered⟩ := respected.serves _ _ _ queued.during step
      refine ⟨0, new, late, answers ++ answer.toList, rfl, append_assoc _ _ _, queued.lates, ?_,
        fun some_ => absurd rfl some_, during⟩
      intro a member
      rcases mem_append.mp member with earlier | now
      · exact respected.served _ _ _ _ queued.during step (queued.answered a earlier)
      · exact answered a (Option.mem_toList.mp now)

theorem Exchange.Open.idling (respected : x.Respected serve idle) {server server' : σ} {requests : List ρ}
    {replies : List τ} (open_ : x.Open ⟨server, requests, replies⟩) (step : idle server server') :
    x.Open ⟨server', requests, replies⟩ := by
  obtain ⟨old, new, late, answers, queued⟩ := open_
  obtain ⟨before, during⟩ := respected.idles _ _ step
  exact ⟨old, new, late, answers, queued.requests, queued.replies, queued.lates,
    fun a member => respected.idled _ _ _ step (queued.answered a member), fun some_ =>
      (queued.before some_).imp before id,
    during queued.during⟩

/-- An open exchange stays open whatever happens without the client. -/
theorem Exchange.Open.step (respected : x.Respected serve idle) (open_ : x.Open link)
    (step : LinkStep serve idle link link') :
    x.Open link' := by
  cases step with
  | lost fewer fewer' => exact open_.lose fewer fewer'
  | served step => exact open_.serving respected step
  | idled step => exact open_.idling respected step

/-- A closed exchange stays closed, and its answers stay true. -/
theorem Exchange.Closed.step (respected : x.Respected serve idle) (closed : x.Closed link)
    (step : LinkStep serve idle link link') :
    x.Closed link' ∧ ∀ a, x.answers a link.server → x.answers a link'.server := by
  cases step with
  | lost fewer fewer' =>
    exact ⟨⟨fun r member => closed.requests r (fewer.subset member),
      fun a member => closed.replies a (fewer'.subset member), closed.during⟩, fun _ => id⟩
  | @served _ _ request _ _ _ step =>
    obtain rfl := closed.requests request mem_cons_self
    obtain ⟨during, answered⟩ := respected.serves _ _ _ closed.during step
    have kept := fun a => respected.served _ _ _ a closed.during step
    refine ⟨⟨fun r member => closed.requests r (mem_cons_of_mem _ member), ?_, during⟩, kept⟩
    intro a member
    rcases mem_append.mp member with earlier | now
    · exact kept a (closed.replies a earlier)
    · exact answered a (Option.mem_toList.mp now)
  | idled step =>
    have kept := fun a => respected.idled _ _ a step
    exact ⟨⟨closed.requests, fun a member => kept a (closed.replies a member),
      (respected.idles _ _ step).2 closed.during⟩, kept⟩

/-- The client takes a reply: a late one, or an answer, after which nothing of the earlier request is left. -/
theorem Exchange.Open.take {server : σ} {requests : List ρ} {reply : τ} {replies : List τ}
    (open_ : x.Open ⟨server, requests, reply :: replies⟩) : x.Open ⟨server, requests, replies⟩ ∧
      (x.late reply ∨ x.answers reply server ∧ x.Closed ⟨server, requests, replies⟩) := by
  refine ⟨open_.lose (Sublist.refl _) (sublist_cons_self _ _), ?_⟩
  obtain ⟨old, new, late, answers, queued⟩ := open_
  have front := queued.replies
  cases late with
  | cons first late =>
    obtain ⟨rfl, _⟩ := cons.inj front
    exact .inl (queued.lates _ mem_cons_self)
  | nil =>
    rw [nil_append] at front
    have none_ : old = 0 := by
      by_contra some_
      rw [(queued.before some_).2] at front
      cases front
    subst none_ front
    refine .inr ⟨queued.answered _ mem_cons_self, x.closed_iff.mpr ⟨new, replies, queued.requests, rfl, by simp, ?_,
      fun some_ => absurd rfl some_, queued.during⟩⟩
    intro a member
    exact queued.answered a (mem_cons_of_mem _ member)

/-- The next exchange. -/
theorem Exchange.Closed.next (closed : x.Closed link) (follows : y.earlier = x.request)
    (late : ∀ a s, x.answers a s → y.late a) (before : y.before link.server) (during : y.during link.server) :
    y.Open link := by
  refine ⟨link.requests.length, 0, link.replies, [], ?_, (append_nil _).symm, ?_, by simp, fun _ => ⟨before, rfl⟩,
    during⟩
  · rw [follows, replicate_zero, append_nil]
    exact eq_replicate_of_mem closed.requests
  · intro a member
    exact late a _ (closed.replies a member)

end

end StopAndWait
