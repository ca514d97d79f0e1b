import Eeveetuber.Domain.Events
import Eeveetuber.Domain.Interaction
import Eeveetuber.Runtime.Cancellation
import Eeveetuber.Runtime.Mailbox

/-!
# The session actor

One `Eeveetuber.SessionActor` owns a session: its inbox and outbox, its
generations, its interaction state and its lifecycle. This file has the pieces of
its methods that run without giving up the event loop; what runs between two of
them is up to the machines that use them.

The locks of the actor are never held across a suspension – every critical
section is one of the functions below – so taking them never waits. What does
wait is `put_wait`. A call of it is an `Eeveetuber.Call`, which goes through the
phases of `Eeveetuber.CallPhase`: it is tried at once, waits while its mailbox is
full, is tried again or given up when it is woken, and then winds up the task
that watched its cancellation before it returns to its caller
(`Eeveetuber.SessionActor.attempt`, `Eeveetuber.SessionActor.giveUp`,
`Eeveetuber.SessionActor.settle`). A call that never waited returns at once.
-/

namespace Eeveetuber

open Foundation

/-- The lifecycle of a session. -/
inductive SessionLifecycle where
  | new
  | starting
  | running
  | stopping
  | stopped
  | failed
deriving DecidableEq, Repr

/-- What the methods of an actor raise, and what handlers and children raise through it. -/
inductive SessionError where
  /-- `SessionLifecycleError`. -/
  | lifecycle
  | cancellation (error : CancellationError)
  | mailbox (error : MailboxError)
  | interaction (error : InteractionError)
  /-- `ValueError`: the event belongs to another session. -/
  | foreignEvent
  /-- Any exception of a handler or a child task. -/
  | raised (code : ℕ)
deriving DecidableEq, Repr

/-- A command in the inbox: its event, and the token of the generation it was submitted under. -/
structure SessionMessage (β : Type) where
  event : EventEnvelope β
  token : CancellationToken
deriving DecidableEq, Repr

/-- The generation of a message. -/
def SessionMessage.generation {β : Type} (m : SessionMessage β) : CancellationGeneration :=
  m.token.generation

/-- What became of an event that was put: the outcome, and the event it displaced. -/
structure PutReport where
  outcome : PutOutcome
  displacedEventId : Option UUID
deriving DecidableEq, Repr

/-- Whether the event is in the mailbox. -/
def PutReport.accepted (r : PutReport) : Bool := r.outcome.isAccepted

/-- What a submission returns. -/
structure SessionSubmission (β : Type) where
  generation : CancellationGeneration
  event : EventEnvelope β
  report : PutReport
deriving DecidableEq, Repr

/-- Which method is waiting in `put_wait`. -/
inductive CallKind where
  /-- `submit_wait` and `submit_foreground_turn_wait`: into the inbox, displacing nothing. -/
  | submission
  /-- `publish_result`: into the outbox. -/
  | publication
deriving DecidableEq, Repr

/-- Where a call that uses `put_wait` stands. -/
inductive CallPhase where
  /-- It waits for room, or for the cancellation of its generation. -/
  | waiting
  /-- Its put is decided, and `put_wait` winds up its helper tasks. -/
  | settling (result : Except MailboxError PutReport)
  /-- It has returned, or raised what its put raised. -/
  | returned (result : Except MailboxError PutReport)
  /-- It returned `False` at once: its generation was not current. -/
  | refused
  /-- The calling task was cancelled. -/
  | abandoned

/-- A call that uses `put_wait`, with the event it puts. -/
structure Call (β : Type) where
  kind : CallKind
  generation : CancellationGeneration
  event : EventEnvelope β
  phase : CallPhase

/-- Whether the put of a call was accepted. -/
def accepted : Except MailboxError PutReport → Bool
  | .ok r => r.accepted
  | .error _ => false

/-- What a publication returns, once it has returned: a closed outbox makes it
`False`, and any other exception passes through it. -/
def CallPhase.publishReturns : CallPhase → Option Bool
  | .refused | .returned (.error .closed) => some false
  | .returned (.ok r) => some r.accepted
  | .waiting | .settling _ | .returned (.error _) | .abandoned => none

/-- Whether a call waits. -/
def CallPhase.isWaiting : CallPhase → Bool
  | .waiting => true
  | .settling _ | .returned _ | .refused | .abandoned => false

/-- The fields of an actor. -/
structure SessionActor (β κ : Type) where
  sessionId : UUID
  inbox : PriorityMailbox (SessionMessage β) κ
  outbox : PriorityMailbox (EventEnvelope β) κ
  cancellation : CancellationSource
  interaction : InteractionStateMachine
  /-- The event observer, as the test whether it raises on an event. -/
  observer : Option (EventEnvelope β → Bool)
  /-- The events the observer has been notified of, in order. -/
  observed : List (EventEnvelope β)
  eventObserverFailures : ℕ
  lifecycle : SessionLifecycle
  failure : Option SessionError
  /-- The child tasks whose done callback has not run. -/
  children : List ℕ
  /-- Whether the stopped event is set. -/
  stopped : Bool
  sequence : ℕ
  staleResults : ℕ

namespace SessionActor

variable {β κ : Type}

/-- The constructor. -/
def create (sessionId : UUID) (inboxCapacity outboxCapacity : ℕ) (inboxOverflow : OverflowPolicy)
    (coalesceKey : Option (SessionMessage β → Except MailboxError (Option κ)))
    (coalescer : Option (SessionMessage β → SessionMessage β →
      Except MailboxError (SessionMessage β)))
    (observer : Option (EventEnvelope β → Bool)) : Except MailboxError (SessionActor β κ) := do
  let inbox ← PriorityMailbox.create inboxCapacity inboxOverflow
    (fun m => .ok m.event.priority) coalesceKey coalescer
  let outbox ← PriorityMailbox.create outboxCapacity .dropLowest (fun e => .ok e.priority) none none
  return {
    sessionId, inbox, outbox, observer
    cancellation := .create 0
    interaction := .create .idle
    observed := []
    eventObserverFailures := 0
    lifecycle := .new
    failure := none
    children := []
    stopped := false
    sequence := 0
    staleResults := 0 }

/-- `start`: the actor's task is created and the session runs. -/
def start (a : SessionActor β κ) : Except SessionError (SessionActor β κ) :=
  if a.lifecycle = .new then .ok { a with lifecycle := .running } else .error .lifecycle

/-- Bind an event to the session and give it the next sequence number. -/
def stamp (a : SessionActor β κ) (e : EventEnvelope β) :
    Except SessionError (SessionActor β κ × EventEnvelope β) :=
  match e.forSession a.sessionId with
  | none => .error .foreignEvent
  | some owned => .ok ({ a with sequence := a.sequence + 1 }, owned.withSequence a.sequence)

/-- Notify the observer; an exception of its is only counted. -/
def observeEvent (a : SessionActor β κ) (e : EventEnvelope β) : SessionActor β κ :=
  match a.observer with
  | none => a
  | some raises =>
    { a with
      observed := a.observed ++ [e]
      eventObserverFailures := a.eventObserverFailures + if raises e then 1 else 0 }

/-! ### Immediate submissions -/

/-- Stamp an event and put it into the inbox at once. -/
def submitWithToken [DecidableEq κ] (a : SessionActor β κ) (e : EventEnvelope β)
    (token : CancellationToken) :
    SessionActor β κ × Except SessionError (SessionSubmission β) :=
  match a.stamp e with
  | .error err => (a, .error err)
  | .ok (a, stamped) =>
    match a.inbox.put ⟨stamped, token⟩ with
    | .error err => (a, .error (.mailbox err))
    | .ok (_, none) => (a, .error .lifecycle)  -- an immediate put always resolves
    | .ok (inbox, some r) =>
      let a := { a with inbox := inbox }
      (if r.accepted then a.observeEvent stamped else a,
        .ok ⟨token.generation, stamped, r.outcome, r.displaced.map (·.event.eventId)⟩)

/-- `submit`: work under the current generation. -/
def submit [DecidableEq κ] (a : SessionActor β κ) (e : EventEnvelope β) :
    SessionActor β κ × Except SessionError (SessionSubmission β) :=
  if a.lifecycle = .running then
    match a.cancellation.ensureCurrent a.cancellation.generation with
    | .error err => (a, .error (.cancellation err))
    | .ok token => a.submitWithToken e token
  else (a, .error .lifecycle)

/-- `submit_foreground_turn`: cancel the current generation, then submit under the next. -/
def submitForegroundTurn [DecidableEq κ] (a : SessionActor β κ) (e : EventEnvelope β)
    (reason : Text) : SessionActor β κ × Except SessionError (SessionSubmission β) :=
  if a.lifecycle = .running then
    match a.cancellation.advance reason with
    | .error err => (a, .error (.cancellation err))
    | .ok (source, token) => { a with cancellation := source }.submitWithToken e token
  else (a, .error .lifecycle)

/-! ### Calls that wait for capacity -/

/-- The mailbox attempt of a call. -/
def tryPut [DecidableEq κ] (a : SessionActor β κ) (c : Call β) :
    SessionActor β κ × Option (Except MailboxError PutReport) :=
  match c.kind with
  | .submission =>
    match a.inbox.putWait ⟨c.event, ⟨c.generation⟩⟩ (a.cancellation.accepts c.generation) false with
    | .error err => (a, some (.error err))
    | .ok (inbox, r) => ({ a with inbox := inbox },
        r.map fun r => .ok ⟨r.outcome, r.displaced.map (·.event.eventId)⟩)
  | .publication =>
    match a.outbox.putWait c.event (a.cancellation.accepts c.generation) true with
    | .error err => (a, some (.error err))
    | .ok (outbox, r) => ({ a with outbox := outbox },
        r.map fun r => .ok ⟨r.outcome, r.displaced.map (·.eventId)⟩)

/-- What the caller of `put_wait` does with its result. -/
def settle (a : SessionActor β κ) (c : Call β) (result : Except MailboxError PutReport) :
    SessionActor β κ × Call β :=
  let a := if accepted result then a.observeEvent c.event
    else match c.kind, result with
      | .publication, .ok ⟨.cancelled, _⟩ => { a with staleResults := a.staleResults + 1 }
      | _, _ => a
  (a, { c with phase := .returned result })

/-- The first attempt of a call: what is decided without waiting returns at once. -/
def firstAttempt [DecidableEq κ] (a : SessionActor β κ) (c : Call β) :
    SessionActor β κ × Call β :=
  match a.tryPut c with
  | (a, none) => (a, { c with phase := .waiting })
  | (a, some result) => a.settle c result

/-- An attempt of a call that was woken by free capacity. -/
def attempt [DecidableEq κ] (a : SessionActor β κ) (c : Call β) : SessionActor β κ × Call β :=
  match a.tryPut c with
  | (a, none) => (a, { c with phase := .waiting })
  | (a, some result) => (a, { c with phase := .settling result })

/-- A call that was woken by the cancellation of its generation gives up. -/
def giveUp (a : SessionActor β κ) (c : Call β) : SessionActor β κ × Call β :=
  let phase := .settling (.ok ⟨.cancelled, none⟩)
  match c.kind with
  | .submission => ({ a with inbox := a.inbox.putCancelled }, { c with phase := phase })
  | .publication => ({ a with outbox := a.outbox.putCancelled }, { c with phase := phase })

/-- `submit_wait`, up to its first wait. -/
def submitWait [DecidableEq κ] (a : SessionActor β κ) (e : EventEnvelope β) :
    SessionActor β κ × Except SessionError (Call β) :=
  if a.lifecycle = .running then
    match a.cancellation.ensureCurrent a.cancellation.generation with
    | .error err => (a, .error (.cancellation err))
    | .ok token =>
      match a.stamp e with
      | .error err => (a, .error err)
      | .ok (a, stamped) =>
        let (a, c) := a.firstAttempt ⟨.submission, token.generation, stamped, .waiting⟩
        (a, .ok c)
  else (a, .error .lifecycle)

/-- `submit_foreground_turn_wait`, up to its first wait. -/
def submitForegroundTurnWait [DecidableEq κ] (a : SessionActor β κ) (e : EventEnvelope β)
    (reason : Text) : SessionActor β κ × Except SessionError (Call β) :=
  if a.lifecycle = .running then
    match a.cancellation.advance reason with
    | .error err => (a, .error (.cancellation err))
    | .ok (source, token) =>
      let a := { a with cancellation := source }
      match a.stamp e with
      | .error err => (a, .error err)
      | .ok (a, stamped) =>
        let (a, c) := a.firstAttempt ⟨.submission, token.generation, stamped, .waiting⟩
        (a, .ok c)
  else (a, .error .lifecycle)

/-- `publish_result`, up to its first wait. -/
def publishResult [DecidableEq κ] (a : SessionActor β κ) (e : EventEnvelope β)
    (generation : CancellationGeneration) : SessionActor β κ × Except SessionError (Call β) :=
  match a.cancellation.ensureCurrent generation with
  | .error _ =>
    ({ a with staleResults := a.staleResults + 1 }, .ok ⟨.publication, generation, e, .refused⟩)
  | .ok _ =>
    match a.stamp e with
    | .error err => (a, .error err)
    | .ok (a, stamped) =>
      let (a, c) := a.firstAttempt ⟨.publication, generation, stamped, .waiting⟩
      (a, .ok c)

/-! ### Interaction state -/

/-- A transition from serialized handler code. -/
def transitionInteraction (a : SessionActor β κ) (requested : InteractionState) (reason : Text) :
    Except SessionError (SessionActor β κ) :=
  if a.lifecycle = .running ∨ a.lifecycle = .stopping then
    match a.interaction.transition requested reason with
    | .error err => .error (.interaction err)
    | .ok (m, _) => .ok { a with interaction := m }
  else .error .lifecycle

/-- A transition from a child task, made only while its generation is current. -/
def transitionInteractionIfCurrent (a : SessionActor β κ) (requested : InteractionState)
    (generation : CancellationGeneration) (reason : Text) :
    Except SessionError (SessionActor β κ × Bool) :=
  match a.cancellation.ensureCurrent generation with
  | .error _ => .ok ({ a with staleResults := a.staleResults + 1 }, false)
  | .ok _ => (a.transitionInteraction requested reason).map fun a => (a, true)

/-! ### Children and lifecycle -/

/-- Create a child task. -/
def spawn (a : SessionActor β κ) (task : ℕ) : Except SessionError (SessionActor β κ) :=
  if a.lifecycle = .running then .ok { a with children := a.children ++ [task] }
  else .error .lifecycle

/-- The done callback of a child task, given the exception the task ended with, if
any; the flag tells whether it cancels the actor's task. -/
def childDone (a : SessionActor β κ) (task : ℕ) (exception : Option SessionError) :
    SessionActor β κ × Bool :=
  let a := { a with children := a.children.erase task }
  match exception with
  | none => (a, false)
  | some e => if a.lifecycle = .running then ({ a with failure := some e }, true) else (a, false)

/-- What `stop` does under the lifecycle lock to an actor that was never started. -/
def stopNew (a : SessionActor β κ) : SessionActor β κ :=
  { a with
    lifecycle := .stopped
    cancellation := (a.cancellation.shutDown "session closed".toList).1
    inbox := (a.inbox.close true).1
    outbox := (a.outbox.close false).1
    stopped := true }

/-- What `stop` does under the lifecycle lock to an actor that was started. -/
def stopStarted (a : SessionActor β κ) (graceful : Bool) : SessionActor β κ :=
  { a with
    lifecycle := .stopping
    cancellation := (a.cancellation.shutDown "session stopping".toList).1
    inbox := (a.inbox.close !graceful).1 }

/-- `stop`, up to the wait for the actor's task. -/
def stop (a : SessionActor β κ) (graceful : Bool) : SessionActor β κ :=
  match a.lifecycle with
  | .stopped | .failed => a
  | .new => a.stopNew
  | .starting | .running | .stopping => a.stopStarted graceful

/-- The `finally` block of the actor's task, up to the cancellation of its children. -/
def enterFinally (a : SessionActor β κ) : SessionActor β κ :=
  { a with
    cancellation := (a.cancellation.shutDown "session actor stopped".toList).1
    inbox := (a.inbox.close true).1 }

/-- The interaction transition of the `finally` block. -/
def finalInteraction (m : InteractionStateMachine) (terminal : SessionLifecycle) :
    InteractionStateMachine :=
  let move (requested : InteractionState) (reason : Text) :=
    match m.transition requested reason with
    | .ok (m', _) => m'
    | .error _ => m
  if terminal = .failed ∧ m.canTransition .degraded then
    move .degraded "session actor failure".toList
  else if terminal = .stopped ∧ m.state ≠ .idle ∧ m.canTransition .idle then
    move .idle "session stopped".toList
  else m

/-- The `finally` block of the actor's task, from the end of its children on. -/
def leaveFinally (a : SessionActor β κ) (terminal : SessionLifecycle) : SessionActor β κ :=
  { a with
    children := []
    outbox := (a.outbox.close false).1
    interaction := finalInteraction a.interaction terminal
    lifecycle := terminal
    stopped := true }

/-- `_finalize_cancelled_before_run`, from the end of the children on. -/
def finalizeCancelled (a : SessionActor β κ) : SessionActor β κ :=
  { a with
    children := []
    outbox := (a.outbox.close false).1
    lifecycle := .stopped
    stopped := true }

end SessionActor

end Eeveetuber
