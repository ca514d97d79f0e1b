import Eeveetuber.Foundation.Machine
import Eeveetuber.Runtime.Attempts

/-!
# The traffic of a session

Many tasks use one session at once. `Eeveetuber.Traffic` is a session together
with the calls made on it that wait in `put_wait`, and `Eeveetuber.Traffic.next`
lets them take turns: a step is whatever one of the tasks does between two points
where it gives up the event loop, so a run is an interleaving at `await` points.
A call is named by its index in the list of calls and stays in it when it has
returned.

A waiting call may be woken at any time, also when the room it was woken for is
gone again, and it may be cancelled together with its caller. The actor's task
may take commands, leave its loop and clean up at any time; what it does with a
command is left open, since all that reaches the queues from there goes through
the methods modelled here.
-/

namespace Eeveetuber

open Foundation

/-- A session, the calls made on it, and what has been received from it. -/
structure Traffic (β κ : Type) where
  actor : SessionActor β κ
  calls : List (Call β)
  /-- The events `receive_output` has returned, in order. -/
  delivered : List (EventEnvelope β)

namespace Traffic

/-- The steps of a session's users and of its own tasks. -/
inductive Label (β : Type) where
  | start
  | submit (event : EventEnvelope β)
  | submitForegroundTurn (event : EventEnvelope β) (reason : Text)
  | submitWait (event : EventEnvelope β)
  | submitForegroundTurnWait (event : EventEnvelope β) (reason : Text)
  | publishResult (event : EventEnvelope β) (generation : CancellationGeneration)
  /-- A waiting call was woken by free capacity and tries again. -/
  | attempt (call : ℕ)
  /-- A waiting call was woken by the cancellation of its generation. -/
  | giveUp (call : ℕ)
  /-- A call whose put is decided returns. -/
  | settle (call : ℕ)
  /-- The task that made a call is cancelled inside it. -/
  | abandon (call : ℕ)
  | receiveOutput
  /-- The actor's task takes a command out of the inbox. -/
  | receiveMessage
  | stop (graceful : Bool)
  | enterFinally
  | leaveFinally (terminal : SessionLifecycle)
  | finalizeCancelled

variable {β κ : Type}

/-- Record the call a method begins, or only what the method did to the actor when it raised. -/
def begin (s : Traffic β κ) : SessionActor β κ × Except SessionError (Call β) → Traffic β κ
  | (actor, .ok c) => { s with actor := actor, calls := s.calls ++ [c] }
  | (actor, .error _) => { s with actor := actor }

/-- Let a call take a step of its own, if it can. -/
def resume (s : Traffic β κ) (i : ℕ) (f : Call β → Option (SessionActor β κ × Call β)) :
    Option (Traffic β κ) :=
  (s.calls[i]?).bind fun c => (f c).map fun p =>
    { s with actor := p.1, calls := s.calls.set i p.2 }

/-- A waiting call tries again. -/
def attempting [DecidableEq κ] (a : SessionActor β κ) (c : Call β) :
    Option (SessionActor β κ × Call β) :=
  if c.phase.isWaiting then some (a.attempt c) else none

/-- A waiting call gives up, once the event of its token is set. -/
def givingUp (a : SessionActor β κ) (c : Call β) : Option (SessionActor β κ × Call β) :=
  if c.phase.isWaiting && (CancellationToken.mk c.generation).cancelled a.cancellation then
    some (a.giveUp c)
  else none

/-- A call whose put is decided returns. -/
def settling (a : SessionActor β κ) (c : Call β) : Option (SessionActor β κ × Call β) :=
  match c.phase with
  | .settling r => some (a.settle c r)
  | .waiting | .returned _ | .refused | .abandoned => none

/-- The caller of a call in progress is cancelled. -/
def abandoning (a : SessionActor β κ) (c : Call β) : Option (SessionActor β κ × Call β) :=
  match c.phase with
  | .waiting | .settling _ => some (a, { c with phase := .abandoned })
  | .returned _ | .refused | .abandoned => none

/-- **One step of a session's traffic.** -/
def next [DecidableEq κ] (s : Traffic β κ) : Label β → Option (Traffic β κ)
  | .start => match s.actor.start with
    | .ok actor => some { s with actor := actor }
    | .error _ => none
  | .submit e => some { s with actor := (s.actor.submit e).1 }
  | .submitForegroundTurn e reason =>
    some { s with actor := (s.actor.submitForegroundTurn e reason).1 }
  | .submitWait e => some (s.begin (s.actor.submitWait e))
  | .submitForegroundTurnWait e reason =>
    some (s.begin (s.actor.submitForegroundTurnWait e reason))
  | .publishResult e g => some (s.begin (s.actor.publishResult e g))
  | .attempt i => s.resume i (attempting s.actor)
  | .giveUp i => s.resume i (givingUp s.actor)
  | .settle i => s.resume i (settling s.actor)
  | .abandon i => s.resume i (abandoning s.actor)
  | .receiveOutput => s.actor.outbox.get.map fun p =>
    { s with
      actor := { s.actor with outbox := p.1 }
      delivered := s.delivered ++ [p.2.item] }
  | .receiveMessage => s.actor.inbox.get.map fun p =>
    { s with actor := { s.actor with inbox := p.1 } }
  | .stop graceful => some { s with actor := s.actor.stop graceful }
  | .enterFinally => some { s with actor := s.actor.enterFinally }
  | .leaveFinally terminal => some { s with actor := s.actor.leaveFinally terminal }
  | .finalizeCancelled => some { s with actor := s.actor.finalizeCancelled }

/-- The traffic of a session made with any arguments its constructor accepts. -/
def machine [DecidableEq κ] : Machine (Traffic β κ) (Label β) where
  start s := s.calls = [] ∧ s.delivered = [] ∧
    ∃ sessionId inboxCapacity outboxCapacity inboxOverflow coalesceKey coalescer observer,
      SessionActor.create sessionId inboxCapacity outboxCapacity inboxOverflow coalesceKey
        coalescer observer = .ok s.actor
  next := next

section Steps

variable [DecidableEq κ] {s t u : Traffic β κ} {l : Label β} {i : ℕ} {c c' : Call β}
  {a a' : SessionActor β κ}

omit [DecidableEq κ] in
theorem resume_eq_some {f : Call β → Option (SessionActor β κ × Call β)} :
    s.resume i f = some t ↔ ∃ c a c', s.calls[i]? = some c ∧ f c = some (a, c') ∧
      t = { s with actor := a, calls := s.calls.set i c' } := by
  simp only [resume, Option.bind_eq_some_iff, Option.map_eq_some_iff, Prod.exists]
  constructor
  · rintro ⟨c, hc, a, c', hf, rfl⟩
    exact ⟨c, a, c', hc, hf, rfl⟩
  · rintro ⟨c, a, c', hc, hf, rfl⟩
    exact ⟨c, hc, a, c', hf, rfl⟩

/-! ### Calls only move forward -/

theorem attempting_eq_some (h : attempting a c = some (a', c')) :
    c.phase = .waiting ∧ a' = (a.tryPut c).1 ∧
      (((a.tryPut c).2 = none ∧ c' = c) ∨
        ∃ r, (a.tryPut c).2 = some r ∧ c' = { c with phase := .settling r }) := by
  unfold attempting at h
  split at h
  · rename_i hw
    have hphase : c.phase = .waiting := by
      cases hp : c.phase <;> simp [hp, CallPhase.isWaiting] at hw ⊢
    rw [SessionActor.attempt_eq] at h
    cases h
    refine ⟨hphase, rfl, ?_⟩
    cases hr : (a.tryPut c).2 with
    | none =>
      refine Or.inl ⟨rfl, ?_⟩
      cases c
      cases hphase
      rfl
    | some r => exact Or.inr ⟨r, rfl, rfl⟩
  · cases h

omit [DecidableEq κ] in
theorem givingUp_eq_some (h : givingUp a c = some (a', c')) :
    c.phase = .waiting ∧ (CancellationToken.mk c.generation).cancelled a.cancellation = true ∧
      c' = { c with phase := .settling (.ok ⟨.cancelled, none⟩) } ∧
      (a' = { a with inbox := a.inbox.putCancelled } ∨
        a' = { a with outbox := a.outbox.putCancelled }) := by
  unfold givingUp at h
  split at h
  · rename_i hw
    simp only [Bool.and_eq_true] at hw
    refine ⟨?_, hw.2, ?_⟩
    · cases hp : c.phase <;> simp [hp, CallPhase.isWaiting] at hw ⊢
    · unfold SessionActor.giveUp at h
      cases hk : c.kind <;> simp only [hk] at h <;> cases h
      · exact ⟨rfl, Or.inl rfl⟩
      · exact ⟨rfl, Or.inr rfl⟩
  · cases h

omit [DecidableEq κ] in
theorem settling_eq_some (h : settling a c = some (a', c')) :
    ∃ r, c.phase = .settling r ∧ (a', c') = a.settle c r := by
  unfold settling at h
  cases hp : c.phase with
  | settling r =>
    simp only [hp, Option.some.injEq] at h
    exact ⟨r, rfl, h.symm⟩
  | waiting | returned | refused | abandoned => simp [hp] at h

omit [DecidableEq κ] in
theorem abandoning_eq_some (h : abandoning a c = some (a', c')) :
    (c.phase = .waiting ∨ ∃ r, c.phase = .settling r) ∧ a' = a ∧
      c' = { c with phase := .abandoned } := by
  unfold abandoning at h
  cases hp : c.phase with
  | waiting =>
    simp only [hp, Option.some.injEq, Prod.mk.injEq] at h
    exact ⟨Or.inl rfl, h.1.symm, h.2.symm⟩
  | settling r =>
    simp only [hp, Option.some.injEq, Prod.mk.injEq] at h
    exact ⟨Or.inr ⟨r, rfl⟩, h.1.symm, h.2.symm⟩
  | returned | refused | abandoned => simp [hp] at h

/-- What a step can do to a call: nothing, or move it to its next phase. -/
inductive Forward (c : Call β) : Call β → Prop
  | refl : Forward c c
  | decided {r : Except MailboxError PutReport} : c.phase = .waiting →
      Forward c { c with phase := .settling r }
  | returned {r : Except MailboxError PutReport} : c.phase = .settling r →
      Forward c { c with phase := .returned r }
  | abandoned : (c.phase = .waiting ∨ ∃ r, c.phase = .settling r) →
      Forward c { c with phase := .abandoned }

omit [DecidableEq κ] in
/-- A method that begins a call leaves the earlier ones alone. -/
theorem begin_calls {p : SessionActor β κ × Except SessionError (Call β)}
    (hc : s.calls[i]? = some c) : (s.begin p).calls[i]? = some c := by
  obtain ⟨actor, _ | d⟩ := p
  · exact hc
  · obtain ⟨hlt, -⟩ := List.getElem?_eq_some_iff.mp hc
    change (s.calls ++ [d])[i]? = some c
    rw [List.getElem?_append_left hlt, hc]

omit [DecidableEq κ] in
/-- A call that takes a step of its own leaves the others alone. -/
theorem resume_calls {f : Call β → Option (SessionActor β κ × Call β)} {j : ℕ}
    (hf : ∀ d a d', f d = some (a, d') → Forward d d') (h : s.resume j f = some t)
    (hc : s.calls[i]? = some c) : ∃ c', t.calls[i]? = some c' ∧ Forward c c' := by
  obtain ⟨d, a, d', hd, hfd, rfl⟩ := resume_eq_some.mp h
  by_cases hij : i = j
  · subst hij
    obtain rfl : c = d := by rw [hc] at hd; exact Option.some.inj hd
    obtain ⟨hlt, -⟩ := List.getElem?_eq_some_iff.mp hc
    exact ⟨d', by simp [hlt], hf _ _ _ hfd⟩
  · exact ⟨c, by simp [Ne.symm hij, hc], .refl⟩

/-- **Calls only move forward.** -/
theorem next_calls (h : s.next l = some t) (hc : s.calls[i]? = some c) :
    ∃ c', t.calls[i]? = some c' ∧ Forward c c' := by
  cases l with
  | start =>
    simp only [next] at h
    split at h
    · cases h
      exact ⟨c, hc, .refl⟩
    · cases h
  | submit | submitForegroundTurn | stop | enterFinally | leaveFinally | finalizeCancelled =>
    cases h
    exact ⟨c, hc, .refl⟩
  | submitWait | submitForegroundTurnWait | publishResult =>
    cases h
    exact ⟨c, begin_calls hc, .refl⟩
  | receiveOutput | receiveMessage =>
    simp only [next, Option.map_eq_some_iff] at h
    obtain ⟨_, -, rfl⟩ := h
    exact ⟨c, hc, .refl⟩
  | attempt =>
    refine resume_calls (fun d a d' hd => ?_) h hc
    -- an attempt leaves the call waiting, or decides it
    obtain ⟨hw, -, ⟨-, rfl⟩ | ⟨r, -, rfl⟩⟩ := attempting_eq_some hd
    · exact .refl
    · exact .decided hw
  | giveUp =>
    refine resume_calls (fun d a d' hd => ?_) h hc
    obtain ⟨hw, -, rfl, -⟩ := givingUp_eq_some hd
    exact .decided hw
  | settle =>
    refine resume_calls (fun d a d' hd => ?_) h hc
    obtain ⟨r, hr, hd⟩ := settling_eq_some hd
    cases hd
    exact .returned hr
  | abandon =>
    -- what is abandoned was waiting or had been decided
    refine resume_calls (fun d a d' hd => ?_) h hc
    obtain ⟨hp, -, rfl⟩ := abandoning_eq_some hd
    exact .abandoned hp

omit [DecidableEq κ] in
@[simp] theorem begin_delivered (p : SessionActor β κ × Except SessionError (Call β)) :
    (s.begin p).delivered = s.delivered := by
  obtain ⟨actor, _ | c⟩ := p <;> rfl

/-- Only `receive_output` delivers. -/
theorem next_delivered (h : s.next l = some t) (hl : l ≠ .receiveOutput) :
    t.delivered = s.delivered := by
  cases l with
  | start =>
    simp only [next] at h
    split at h <;> cases h
    rfl
  | submit | submitForegroundTurn | stop | enterFinally | leaveFinally | finalizeCancelled =>
    cases h
    rfl
  | submitWait | submitForegroundTurnWait | publishResult =>
    cases h
    exact begin_delivered _
  | attempt | giveUp | settle | abandon =>
    obtain ⟨_, _, _, -, -, rfl⟩ := resume_eq_some.mp h
    rfl
  | receiveMessage =>
    simp only [next, Option.map_eq_some_iff] at h
    obtain ⟨_, -, rfl⟩ := h
    rfl
  | receiveOutput => exact absurd rfl hl

/-! ### The actor of a session stays well formed -/

omit [DecidableEq κ] in
theorem resume_wellFormed {f : Call β → Option (SessionActor β κ × Call β)}
    (hf : ∀ d a d', f d = some (a, d') → a.WellFormed) (h : s.resume i f = some t) :
    t.actor.WellFormed := by
  obtain ⟨d, a, d', -, hfd, rfl⟩ := resume_eq_some.mp h
  exact hf _ _ _ hfd

theorem next_wellFormed (hw : s.actor.WellFormed) (h : s.next l = some t) :
    t.actor.WellFormed := by
  cases l with
  | start =>
    simp only [next] at h
    split at h
    · rename_i hstart
      cases h
      exact (SessionActor.quiet_start hstart).wellFormed hw
    · cases h
  | submit e =>
    cases h
    rcases s.actor.submit_cases e with ⟨err, he⟩ | ⟨-, -, he⟩
    · rw [he]; exact hw
    · rw [he]; exact SessionActor.submitWithToken_wellFormed hw _ _
  | submitForegroundTurn e reason =>
    cases h
    rcases s.actor.submitForegroundTurn_cases e reason with
      ⟨err, he⟩ | ⟨source, token, -, -, he⟩
    · rw [he]; exact hw
    · rw [he]
      exact SessionActor.submitWithToken_wellFormed (a := { s.actor with cancellation := source })
        (hw.congr rfl rfl) e token
  | submitWait e =>
    cases h
    rcases s.actor.submitWait_cases e with ⟨err, he⟩ | ⟨stamped, -, -, -, he⟩
    · rw [he]; exact hw
    · rw [he]; exact SessionActor.firstAttempt_wellFormed hw.stampedActor rfl
  | submitForegroundTurnWait e reason =>
    cases h
    rcases s.actor.submitForegroundTurnWait_cases e reason with
      ⟨err, he⟩ | ⟨source, token, -, -, ⟨err, he⟩ | ⟨stamped, -, he⟩⟩
    · rw [he]; exact hw
    · rw [he]; exact hw.congr rfl rfl
    · rw [he]; exact SessionActor.firstAttempt_wellFormed (hw.congr rfl rfl) rfl
  | publishResult e g =>
    cases h
    rcases s.actor.publishResult_cases e g with
      ⟨-, he⟩ | ⟨-, ⟨err, he⟩ | ⟨stamped, -, he⟩⟩
    · rw [he]; exact hw.congr rfl rfl
    · rw [he]; exact hw
    · rw [he]; exact SessionActor.firstAttempt_wellFormed hw.stampedActor rfl
  | attempt i =>
    refine resume_wellFormed (fun d a d' hd => ?_) h
    obtain ⟨-, rfl, -⟩ := attempting_eq_some hd
    exact (SessionActor.tryPut_attempted hw).wellFormed hw
  | giveUp i =>
    refine resume_wellFormed (fun d a d' hd => ?_) h
    obtain ⟨-, -, -, rfl | rfl⟩ := givingUp_eq_some hd <;> exact hw.congr rfl rfl
  | settle i =>
    refine resume_wellFormed (fun d a d' hd => ?_) h
    obtain ⟨r, -, hr⟩ := settling_eq_some hd
    have := SessionActor.settle_wellFormed (c := d) hw r
    rwa [← hr] at this
  | abandon i =>
    refine resume_wellFormed (fun d a d' hd => ?_) h
    obtain ⟨-, rfl, -⟩ := abandoning_eq_some hd
    exact hw
  | receiveOutput =>
    simp only [next, Option.map_eq_some_iff, Prod.exists] at h
    obtain ⟨outbox, x, hget, rfl⟩ := h
    obtain ⟨_, _, -, -, hcfg, -⟩ := PriorityMailbox.get_eq_some hget
    exact hw.congr rfl hcfg
  | receiveMessage =>
    simp only [next, Option.map_eq_some_iff, Prod.exists] at h
    obtain ⟨inbox, x, hget, rfl⟩ := h
    obtain ⟨_, _, -, -, hcfg, -⟩ := PriorityMailbox.get_eq_some hget
    exact hw.congr hcfg rfl
  | stop graceful =>
    cases h
    exact (SessionActor.quiet_stop _ _).wellFormed hw
  | enterFinally =>
    cases h
    exact (SessionActor.quiet_enterFinally _).wellFormed hw
  | leaveFinally terminal =>
    cases h
    exact (SessionActor.quiet_leaveFinally _ _).wellFormed hw
  | finalizeCancelled =>
    cases h
    exact (SessionActor.quiet_finalizeCancelled _).wellFormed hw

theorem reachable_wellFormed (h : machine.Reachable s) : s.actor.WellFormed := by
  refine h.invariant (I := fun s => s.actor.WellFormed) ?_ fun s l t _ hw _ hn => ?_
  · rintro s ⟨-, -, _, _, _, _, _, _, _, hcreate⟩
    exact (SessionActor.create_wellFormed hcreate).1
  · exact next_wellFormed hw hn

end Steps

/-! ### A smallest session -/

/-- A session both of whose mailboxes hold one event. -/
def narrow : Traffic ℕ ℕ where
  actor := {
    sessionId := 0
    inbox := .make ⟨1, .dropLowest, fun m => .ok m.event.priority, none, fun _ new => .ok new,
      Nat.zero_lt_one, by decide⟩
    outbox := .make ⟨1, .dropLowest, fun e => .ok e.priority, none, fun _ new => .ok new,
      Nat.zero_lt_one, by decide⟩
    cancellation := .create 0
    interaction := .create .idle
    observer := some fun _ => false
    observed := []
    eventObserverFailures := 0
    lifecycle := .new
    failure := none
    children := []
    stopped := false
    sequence := 0
    staleResults := 0 }
  calls := []
  delivered := []

theorem narrow_start : machine.start narrow :=
  ⟨rfl, rfl, 0, 1, 1, .dropLowest, none, none, some fun _ => false, rfl⟩

/-- An event of normal priority that no session has stamped yet. -/
def note : EventEnvelope ℕ := ⟨0, 0, none, none, EventPriority.normal.toInt⟩

end Traffic

end Eeveetuber
