import Eeveetuber.Foundation.Keyed
import Eeveetuber.Runtime.Endings

/-!
# The session supervisor

A `Eeveetuber.SessionSupervisor` starts session actors under distinct ids, keeps a registry of
them, and gives each a watcher: a task that waits for the actor's stopped event, notes the
exception of an actor that failed, and takes the actor off the registry. `shutdown` refuses
further sessions, calls `stop` on every actor of the registry, each call in a task of its own,
waits for these and then for the watchers.

The supervised actors are not stubs: each is an `Eeveetuber.Lifetime`, and
`Eeveetuber.SessionSupervisor.next` interleaves their steps – of their tasks, their children and
any calls of `stop` – with those of the watchers and of any number of calls of `shutdown`. The
critical sections of the supervisor's lock do not suspend, and neither does `start` of an actor
that is new, so `start_session` is one step. The caller of `shutdown` may be cancelled, and what
it waits for with it.

That the registry is in order, in any run, is `Eeveetuber.SessionSupervisor.Accounts`.
-/

namespace Eeveetuber

open Foundation Machine

/-- What `start_session` raises. -/
inductive SupervisorError where
  /-- The arguments are not those of a session. -/
  | construction (error : MailboxError)
  /-- `SessionLifecycleError`: the supervisor is closed. -/
  | closed
  /-- `ValueError`: the session already exists. -/
  | exists (sessionId : UUID)
  /-- What `start` of the actor raises. -/
  | start (error : SessionError)
deriving DecidableEq

/-- Where the watcher of an actor stands. -/
inductive WatcherPhase where
  /-- It waits for the stopped event. -/
  | waiting
  /-- It has noted the end of the session, and is done. -/
  | recorded
  /-- It was cancelled before it noted the end. -/
  | cancelled
deriving DecidableEq

/-- An actor that was started, with its watcher. -/
structure Supervised (β κ : Type) where
  life : Lifetime β κ
  watcher : WatcherPhase

namespace Supervised

variable {β κ : Type}

def sessionId (a : Supervised β κ) : UUID := a.life.actor.sessionId

def lifecycle (a : Supervised β κ) : SessionLifecycle := a.life.actor.lifecycle

def failure (a : Supervised β κ) : Option SessionError := a.life.actor.failure

/-- Whether the stopped event is set. -/
def stopped (a : Supervised β κ) : Bool := a.life.actor.stopped

end Supervised

/-- What the watcher of an actor has noted. -/
structure Note where
  actor : ℕ
  sessionId : UUID
  lifecycle : SessionLifecycle
  failure : Option SessionError

/-- The exception that is noted under a session id. -/
def Note.failureOf (n : Note) (sessionId : UUID) : Option SessionError :=
  if n.sessionId = sessionId ∧ n.lifecycle = .failed then n.failure else none

/-- How far a call of `shutdown` is. -/
inductive ShutdownPhase where
  /-- It waits for its calls of `stop`. -/
  | gathering
  /-- One of them raised, or its caller was cancelled, and so it has raised. -/
  | raised
  /-- It waits for the watchers of these actors. -/
  | watching (watched : List ℕ)
  | returned
deriving DecidableEq

/-- A call of `shutdown`. -/
structure Shutdown where
  /-- The actors on which `stop` is still to be called. -/
  unbegun : List ℕ
  /-- The calls of `stop` that have waited: the actor, and the number of the call. -/
  calls : List (ℕ × ℕ)
  phase : ShutdownPhase
deriving DecidableEq

/-- A call of `stop` raises, in a step of the given actor. -/
def Shutdown.notice (d : Shutdown) (k : ℕ) (raised : Option ℕ) : Shutdown :=
  if d.phase = .gathering ∧ ∃ i ∈ raised, (k, i) ∈ d.calls then { d with phase := .raised } else d

/-- The registry of the running sessions, with all actors it ever started, and what the watchers
have noted. -/
structure SessionSupervisor (β κ : Type) where
  actors : List (Supervised β κ)
  sessions : Mapping UUID ℕ
  failures : Mapping UUID SessionError
  closed : Bool
  shutdowns : List Shutdown
  /-- What the watchers have noted, in this order. -/
  notes : List Note

namespace SessionSupervisor

variable {β κ : Type}

/-- The constructor. -/
def create : SessionSupervisor β κ := ⟨[], ∅, ∅, false, [], []⟩

/-- `active_session_ids`. -/
def activeSessionIds (s : SessionSupervisor β κ) : List UUID := s.sessions.keys

/-- `start_session`. -/
def startSession (s : SessionSupervisor β κ) (sessionId : UUID) (inboxCapacity outboxCapacity : ℕ)
    (observer : Option (EventEnvelope β → Bool)) :
    Except SupervisorError (SessionSupervisor β κ) :=
  match SessionActor.create sessionId inboxCapacity outboxCapacity .dropLowest none none
    observer with
  | .error e => .error (.construction e)
  | .ok actor =>
    if s.closed then .error .closed
    else if s.sessions.contains sessionId then .error (.exists sessionId)
    else match actor.start with
      -- the entry is taken off the registry again
      | .error e => .error (.start e)
      | .ok actor => .ok { s with
          actors := s.actors ++ [⟨⟨actor, .scheduled, false, [], []⟩, .waiting⟩]
          sessions := s.sessions.insert (sessionId, s.actors.length) }

/-- One step of a session; the calls of `shutdown` notice a call of theirs that raises. -/
def stepSession [DecidableEq κ] (s : SessionSupervisor β κ) (k : ℕ) (l : Lifetime.Label β) :
    Option (SessionSupervisor β κ) :=
  s.actors[k]?.bind fun a => (a.life.next l).map fun life => { s with
    actors := s.actors.set k { a with life := life }
    shutdowns := s.shutdowns.map fun d => d.notice k (a.life.raisedBy l) }

/-- `_watch`, once the stopped event is set. -/
def watch (s : SessionSupervisor β κ) (k : ℕ) (a : Supervised β κ) : SessionSupervisor β κ :=
  { s with
    actors := s.actors.set k { a with watcher := .recorded }
    failures := match a.lifecycle, a.failure with
      | .failed, some e => s.failures.insert (a.sessionId, e)
      | _, _ => s.failures
    sessions := if s.sessions.get a.sessionId = some k then s.sessions.erase a.sessionId
      else s.sessions
    notes := s.notes ++ [⟨k, a.sessionId, a.lifecycle, a.failure⟩] }

/-- The watchers of these actors are cancelled, unless they are done. -/
def cancelWatchers (s : SessionSupervisor β κ) (watched : List ℕ) : SessionSupervisor β κ :=
  { s with actors := s.actors.mapIdx fun k a =>
      if k ∈ watched ∧ a.watcher = .waiting then { a with watcher := .cancelled } else a }

/-- The call of `stop` that a step of a session has made wait, if any. -/
def newCall (s t : SessionSupervisor β κ) (k : ℕ) : List (ℕ × ℕ) :=
  match s.actors[k]?, t.actors[k]? with
  | some a, some b => if a.life.stops.length < b.life.stops.length then [(k, a.life.stops.length)]
    else []
  | _, _ => []

/-- Whether a call of `stop` is done. -/
def callDone (s : SessionSupervisor β κ) (c : ℕ × ℕ) : Bool :=
  (s.actors[c.1]?.bind fun a => a.life.stops[c.2]?) = some .done

/-- Whether the watcher of an actor is done. -/
def watcherDone (s : SessionSupervisor β κ) (k : ℕ) : Bool :=
  s.actors[k]?.any fun a => decide (a.watcher ≠ .waiting)

/-- `_watchers`: the actors whose watchers wait. -/
def watchers (s : SessionSupervisor β κ) : List ℕ :=
  (List.range s.actors.length).filter fun k => !s.watcherDone k

/-- The steps of a supervisor and of its sessions. -/
inductive Label (β : Type) where
  | startSession (sessionId : UUID) (inboxCapacity outboxCapacity : ℕ)
    (observer : Option (EventEnvelope β → Bool))
  /-- A step of the session of an actor, which whoever has the actor may have it stop. -/
  | session (actor : ℕ) (label : Lifetime.Label β)
  | stopSession (sessionId : UUID) (graceful : Bool)
  | watcherRuns (actor : ℕ)
  | shutdown
  /-- The next of the `stop` tasks of a call of `shutdown` first runs. -/
  | shutdownStops (call : ℕ)
  /-- All calls of `stop` have returned. -/
  | shutdownProceeds (call : ℕ)
  /-- All watchers are done. -/
  | shutdownReturns (call : ℕ)
  /-- The caller of `shutdown` is cancelled, and with it the watchers it waits for. Its calls of
  `stop` are cancelled by steps of their own; those that have not begun never do. -/
  | shutdownCancelled (call : ℕ)

/-- **One step.** -/
def next [DecidableEq κ] (s : SessionSupervisor β κ) : Label β → Option (SessionSupervisor β κ)
  | .startSession sessionId inboxCapacity outboxCapacity observer =>
    match s.startSession sessionId inboxCapacity outboxCapacity observer with
    | .error _ => some s
    | .ok t => some t
  | .session k l => s.stepSession k l
  | .stopSession sessionId graceful =>
    match s.sessions.get sessionId with
    -- nobody has the identifier
    | none => some s
    | some k => s.stepSession k (.stop graceful)
  | .watcherRuns k => match s.actors[k]? with
    | some a => if a.watcher = .waiting ∧ a.stopped = true then some (s.watch k a) else none
    | none => none
  | .shutdown => some { s with
      closed := true
      shutdowns := s.shutdowns ++ [⟨s.sessions.values.map Prod.snd, [], .gathering⟩] }
  | .shutdownStops j => match s.shutdowns[j]? with
    | some ⟨k :: ks, calls, phase⟩ => (s.stepSession k (.stop true)).map fun t => { t with
        shutdowns := t.shutdowns.set j ⟨ks, calls ++ s.newCall t k, phase⟩ }
    | _ => none
  | .shutdownProceeds j => match s.shutdowns[j]? with
    | some ⟨[], calls, .gathering⟩ =>
      if calls.all s.callDone then
        some { s with shutdowns := s.shutdowns.set j ⟨[], calls, .watching s.watchers⟩ }
      else none
    | _ => none
  | .shutdownReturns j => match s.shutdowns[j]? with
    | some ⟨unbegun, calls, .watching watched⟩ =>
      if watched.all s.watcherDone then
        some { s with shutdowns := s.shutdowns.set j ⟨unbegun, calls, .returned⟩ }
      else none
    | _ => none
  | .shutdownCancelled j => match s.shutdowns[j]? with
    | some ⟨_, calls, .gathering⟩ =>
      some { s with shutdowns := s.shutdowns.set j ⟨[], calls, .raised⟩ }
    | some ⟨unbegun, calls, .watching watched⟩ => some { s.cancelWatchers watched with
        shutdowns := s.shutdowns.set j ⟨unbegun, calls, .raised⟩ }
    | _ => none

/-- A supervisor from its construction on. -/
def machine [DecidableEq κ] : Machine (SessionSupervisor β κ) (Label β) where
  start s := s = create
  next := next

variable [DecidableEq κ] {s t : SessionSupervisor β κ} {k j : ℕ} {a b : Supervised β κ}
  {d : Shutdown} {raised : Option ℕ} {l : Lifetime.Label β}

theorem stepSession_eq_some (h : s.stepSession k l = some t) : ∃ a life,
    s.actors[k]? = some a ∧ a.life.next l = some life ∧ t = { s with
      actors := s.actors.set k { a with life := life }
      shutdowns := s.shutdowns.map fun d => d.notice k (a.life.raisedBy l) } := by
  obtain ⟨a, ha, h⟩ := Option.bind_eq_some_iff.mp h
  obtain ⟨life, hlife, rfl⟩ := Option.map_eq_some_iff.mp h
  exact ⟨a, life, ha, hlife, rfl⟩

omit [DecidableEq κ] in
theorem startSession_eq_ok {sessionId : UUID} {inboxCapacity outboxCapacity : ℕ}
    {observer : Option (EventEnvelope β → Bool)}
    (h : s.startSession sessionId inboxCapacity outboxCapacity observer = .ok t) :
    ∃ actor started,
      SessionActor.create sessionId inboxCapacity outboxCapacity .dropLowest none none
        observer = .ok actor ∧ actor.start = .ok started ∧ s.closed = false ∧
      (∀ v ∈ s.sessions, v.1 ≠ sessionId) ∧ t = { s with
        actors := s.actors ++ [⟨⟨started, .scheduled, false, [], []⟩, .waiting⟩]
        sessions := s.sessions.insert (sessionId, s.actors.length) } := by
  unfold startSession at h
  split at h
  · cases h
  · rename_i actor hcreate
    split_ifs at h with hclosed hold
    split at h
    · cases h
    · rename_i started hstart
      cases h
      refine ⟨actor, started, hcreate, hstart, Bool.eq_false_iff.mpr hclosed,
        fun v hv heq => ?_, rfl⟩
      exact hold (Keyed.contains_iff.mpr ⟨v, hv, heq⟩)

omit [DecidableEq κ] in
theorem getElem?_cancelWatchers {watched : List ℕ} :
    (s.cancelWatchers watched).actors[k]? = s.actors[k]?.map fun a =>
      if k ∈ watched ∧ a.watcher = .waiting then { a with watcher := .cancelled } else a :=
  List.getElem?_mapIdx

omit [DecidableEq κ] in
/-- The session of an actor is not touched when its watcher is cancelled. -/
theorem life_of_mem_cancelWatchers (watched : List ℕ)
    (h : b ∈ (s.cancelWatchers watched).actors) : ∃ a ∈ s.actors, a.life = b.life := by
  obtain ⟨k, hk⟩ := List.mem_iff_getElem?.mp h
  rw [getElem?_cancelWatchers, Option.map_eq_some_iff] at hk
  obtain ⟨a, ha, rfl⟩ := hk
  refine ⟨a, List.mem_of_getElem? ha, ?_⟩
  split_ifs <;> rfl

/-! ### The sessions are sessions -/

/-- Every step of a session meets a condition. -/
def Respects (R : Lifetime β κ → Lifetime.Label β → Prop) (s : SessionSupervisor β κ) :
    Label β → Prop
  | .session k l => ∀ a, s.actors[k]? = some a → R a.life l
  | _ => True

section Lives

variable {R : Lifetime β κ → Lifetime.Label β → Prop}

/-- Whatever the sessions are that they start as, they stay so by a step of one of them. -/
theorem lives_stepSession {P : Lifetime β κ → Prop} (h : ∀ a ∈ s.actors, P a.life)
    (hstep : ∀ a life, s.actors[k]? = some a → a.life.next l = some life → P life)
    (hn : s.stepSession k l = some t) : ∀ a ∈ t.actors, P a.life := by
  obtain ⟨a, life, ha, hlife, rfl⟩ := stepSession_eq_some hn
  intro b hb
  rcases List.mem_or_eq_of_mem_set hb with hb | rfl
  · exact h b hb
  · exact hstep a life ha hlife

/-- **Every supervised session runs as a session does**, whatever the conditions on its steps, as
long as they leave it free to be started and stopped. -/
theorem lives_of_reachableBy (hR : ∀ life graceful, R life .start ∧ R life (.stop graceful))
    (h : machine.ReachableBy (Respects R) s) :
    ∀ a ∈ s.actors, Lifetime.machine.ReachableBy R a.life := by
  refine h.invariant (I := fun s => ∀ a ∈ s.actors, Lifetime.machine.ReachableBy R a.life)
    (fun s hs a ha => ?_) fun s l t _ hs hok hn => ?_
  · rw [show s = create from hs] at ha
    cases ha
  -- a call of `stop` is free, whoever makes it
  have hstop : ∀ k graceful t, s.stepSession k (.stop graceful) = some t →
      ∀ a ∈ t.actors, Lifetime.machine.ReachableBy R a.life := by
    intro k graceful t hn
    refine lives_stepSession hs (fun a life ha hlife => ?_) hn
    exact .step (hs a (List.mem_of_getElem? ha)) (hR a.life graceful).2 hlife
  cases l with
  | startSession sessionId inboxCapacity outboxCapacity observer =>
    simp only [machine, next] at hn
    split at hn
    · cases hn
      exact hs
    · rename_i t' ht
      cases hn
      obtain ⟨actor, started, hcreate, hstart, -, -, rfl⟩ := startSession_eq_ok ht
      intro a ha
      rcases List.mem_append.mp ha with ha | ha
      · exact hs a ha
      · obtain rfl := List.mem_singleton.mp ha
        -- a session that is started was made with arguments its constructor accepts
        have hunborn : Lifetime.machine.start (⟨actor, .unborn, false, [], []⟩ : Lifetime β κ) :=
          ⟨rfl, rfl, rfl, rfl, _, _, _, _, _, _, _, hcreate⟩
        refine .step (.start hunborn) (hR _ true).1 (l := .start) ?_
        simp only [Lifetime.machine, Lifetime.next, hstart]
  | session k l =>
    exact lives_stepSession hs (fun a life ha hlife =>
      .step (hs a (List.mem_of_getElem? ha)) (hok a ha) hlife) hn
  | stopSession sessionId graceful =>
    simp only [machine, next] at hn
    split at hn
    · cases hn
      exact hs
    · exact hstop _ _ _ hn
  | watcherRuns k =>
    simp only [machine, next] at hn
    split at hn
    · rename_i a ha
      split_ifs at hn
      cases hn
      intro b hb
      rcases List.mem_or_eq_of_mem_set hb with hb | rfl
      · exact hs b hb
      · exact hs a (List.mem_of_getElem? ha)
    · cases hn
  | shutdown =>
    cases hn
    exact hs
  | shutdownStops j =>
    simp only [machine, next] at hn
    split at hn
    · obtain ⟨t', ht, rfl⟩ := Option.map_eq_some_iff.mp hn
      exact hstop _ _ t' ht
    · cases hn
  | shutdownProceeds j =>
    simp only [machine, next] at hn
    split at hn
    · split_ifs at hn
      cases hn
      exact hs
    · cases hn
  | shutdownReturns j =>
    simp only [machine, next] at hn
    split at hn
    · split_ifs at hn
      cases hn
      exact hs
    · cases hn
  | shutdownCancelled j =>
    simp only [machine, next] at hn
    split at hn
    · cases hn
      exact hs
    · rename_i watched _
      cases hn
      intro a ha
      obtain ⟨b, hb, hlife⟩ := life_of_mem_cancelWatchers (s := s) watched ha
      exact hlife ▸ hs b hb
    · cases hn

theorem settled_of_reachable (h : machine.Reachable s) : ∀ a ∈ s.actors, a.life.Settled := by
  intro a ha
  have hall : machine.ReachableBy (Respects fun _ _ => True) s := by
    refine h.mono fun s l _ => ?_
    cases l with
    | session => exact fun _ _ => trivial
    | _ => trivial
  exact Lifetime.settled_of_reachable
    (lives_of_reachableBy (fun _ _ => ⟨trivial, trivial⟩) hall a ha)

end Lives

end SessionSupervisor

end Eeveetuber
