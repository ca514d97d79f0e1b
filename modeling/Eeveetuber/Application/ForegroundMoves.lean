import Eeveetuber.Application.ForegroundFloor

/-!
# The steps of a foreground session change its floor

`Eeveetuber.ForegroundSession.floor` is the floor of a session, and a step of the session leads
from one floor to the next by changes of the floor
(`Eeveetuber.ForegroundSession.moves_of_next`), so that what every change preserves is an
invariant of every run.

Most of what a session does leaves its floor alone (`Eeveetuber.ForegroundSession.Still`): it
publishes, creates tasks, records what it observed and counts. The steps that do not are the
submissions, the actor's next command, the transitions, and the ends of the turns and of the
session.
-/

namespace Eeveetuber

open Foundation Relation

/-- The turn that a handler is about to start. -/
def ActorTask.turn? : ActorTask → Option (CancellationGeneration × Bool)
  | .handling frame => match frame.stage with
    | .transcript _ | .accepted _ => some (frame.message.generation, true)
    | .bargeIn _ | .last => none
  | .unborn | .receiving | .finishing _ | .ended => none

/-- Whether the task of the actor is in its loop. -/
def ActorTask.serves : ActorTask → Bool
  | .receiving | .handling _ => true
  | .unborn | .finishing _ | .ended => false

/-- The generation of a foreground command that waits for room. -/
def Call.waits? (c : Call SessionEvent) : Option CancellationGeneration :=
  if c.kind = .submission ∧ c.phase.isWaiting = true ∧
      c.event.body.command?.any SessionCommand.isForeground = true then some c.generation
  else none

/-- What the floor shows of a dialogue task. -/
def TurnTask.shown (task : TurnTask) : CancellationGeneration × Bool :=
  (task.generation, task.firstSegment)

/-- What the floor shows of a task, while it is alive. -/
def TurnTask.shown? (task : TurnTask) : Option (CancellationGeneration × Bool) :=
  if task.isAlive then some task.shown else none

theorem waits?_of_publication {c : Call SessionEvent} (h : c.kind = .publication) :
    c.waits? = none :=
  if_neg fun hc => CallKind.noConfusion (h.symm.trans hc.1)

theorem waits?_of_not_isWaiting {c : Call SessionEvent} (h : c.phase.isWaiting = false) :
    c.waits? = none :=
  if_neg fun hc => Bool.false_ne_true (h.symm.trans hc.2.1)

theorem waits?_of_not_isForeground {c : Call SessionEvent} {command : SessionCommand}
    (h : c.event.body = .command command) (hforeground : command.isForeground = false) :
    c.waits? = none :=
  if_neg fun hc => by
    have hany := hc.2.2
    rw [h] at hany
    exact Bool.false_ne_true (hforeground.symm.trans hany)

/-- What becomes of a mapped list when one element is replaced. -/
theorem exists_filterMap_set {α β : Type} {l : List α} {i : ℕ} {a : α} (h : l[i]? = some a)
    (f : α → Option β) : ∃ l₁ l₂, l.filterMap f = l₁ ++ ((f a).toList ++ l₂) ∧
      ∀ a', (l.set i a').filterMap f = l₁ ++ ((f a').toList ++ l₂) := by
  obtain ⟨hlt, heq⟩ := List.getElem?_eq_some_iff.mp h
  have hset (a' : α) : (l.set i a').filterMap f =
      (l.take i).filterMap f ++ ((f a').toList ++ (l.drop (i + 1)).filterMap f) := by
    rw [List.set_eq_take_append_cons_drop, if_pos hlt, List.filterMap_append, List.filterMap_cons]
    cases f a' with
    | none => rfl
    | some b => rfl
  refine ⟨(l.take i).filterMap f, (l.drop (i + 1)).filterMap f, ?_, hset⟩
  rw [← hset a, ← heq, List.set_getElem_self]

namespace PriorityMailbox

variable {α κ : Type} [DecidableEq κ] {m m' : PriorityMailbox α κ} {item : α} {priority : ℤ}

/-- Whether a mailbox that drops the lowest has room for an item. -/
def hasRoom (m : PriorityMailbox α κ) (priority : ℤ) (displaces : Bool) : Bool :=
  !m.full || displaces && (lowest m.items).any fun p => decide (p.1.priority < priority)

theorem tryPutLocked_of_hasRoom (item : α) (reject : Bool) {displaces : Bool}
    (acceptIf : Option Bool) (hover : m.config.overflow = .dropLowest) (hopen : m.closed = false)
    (haccept : acceptIf ≠ some false) (hroom : m.hasRoom priority displaces = true) :
    ∃ m' r, m.tryPutLocked item priority reject acceptIf displaces = .ok (m', some r) ∧
      r.accepted = true := by
  have hcoalesce : m.tryCoalesceLocked item = .ok none := by
    rw [tryCoalesceLocked, hover]
    rfl
  have hput : m.tryPutLocked item priority reject acceptIf displaces =
      .ok (m.tryAppendLocked item priority reject displaces) := by
    rw [tryPutLocked, hopen, if_neg Bool.false_ne_true, if_neg haccept, hcoalesce]
    rfl
  rw [hput, tryAppendLocked]
  rw [hasRoom, Bool.or_eq_true, Bool.not_eq_true', Bool.and_eq_true, Option.any_eq_true] at hroom
  rcases hfull : m.full with _ | _
  · exact ⟨_, _, rfl, rfl⟩
  · rcases hroom with hroom | ⟨hdisplaces, ⟨dropped, rest⟩, hlow, hlt⟩
    · exact absurd (hroom.symm.trans hfull) Bool.false_ne_true
    · rw [if_pos rfl, if_pos ⟨hover, hdisplaces⟩, hlow]
      dsimp only
      rw [if_pos (of_decide_eq_true hlt)]
      exact ⟨_, _, rfl, rfl⟩

/-- A mailbox that may not displace admits an item only while it is not full. -/
theorem full_of_admits (hover : m.config.overflow ≠ .coalesce)
    (h : m.admits item priority false = true) : m.full = false := by
  rw [admits] at h
  split at h
  · rename_i m' r hput
    obtain ⟨-, hstep⟩ := tryPutLocked_putStep hput
    cases hstep with
    | cancelled hacc => cases hacc
    | coalesced _ hc => exact absurd (tryCoalesceLocked_eq_some hc).1 hover
    | appended _ hfull => exact hfull
    | evicted _ _ _ hallow => cases hallow
    | rejected => cases h
  · cases h

end PriorityMailbox

namespace SessionActor

variable {β κ : Type} {a a' a'' : SessionActor β κ} {c : Call β}

/-- The actors differ at most in what they have sent, observed and counted. -/
structure SameFloor (a a' : SessionActor β κ) : Prop where
  sessionId : a'.sessionId = a.sessionId
  inboxConfig : a'.inbox.config = a.inbox.config
  inboxClosed : a'.inbox.closed = a.inbox.closed
  inboxItems : a'.inbox.items = a.inbox.items
  nextOrder : a'.inbox.nextOrder = a.inbox.nextOrder
  outboxConfig : a'.outbox.config = a.outbox.config
  cancellation : a'.cancellation = a.cancellation
  interaction : a'.interaction = a.interaction
  lifecycle : a'.lifecycle = a.lifecycle

theorem SameFloor.refl (a : SessionActor β κ) : a.SameFloor a :=
  ⟨rfl, rfl, rfl, rfl, rfl, rfl, rfl, rfl, rfl⟩

theorem SameFloor.trans (h : a.SameFloor a') (h' : a'.SameFloor a'') : a.SameFloor a'' :=
  ⟨h'.sessionId.trans h.sessionId, h'.inboxConfig.trans h.inboxConfig,
    h'.inboxClosed.trans h.inboxClosed, h'.inboxItems.trans h.inboxItems,
    h'.nextOrder.trans h.nextOrder, h'.outboxConfig.trans h.outboxConfig,
    h'.cancellation.trans h.cancellation, h'.interaction.trans h.interaction,
    h'.lifecycle.trans h.lifecycle⟩

theorem sameFloor_observeEvent (e : EventEnvelope β) : a.SameFloor (a.observeEvent e) := by
  rw [observeEvent]
  split
  · exact .refl a
  · exact ⟨rfl, rfl, rfl, rfl, rfl, rfl, rfl, rfl, rfl⟩

theorem sameFloor_stampedActor : a.SameFloor a.stampedActor :=
  ⟨rfl, rfl, rfl, rfl, rfl, rfl, rfl, rfl, rfl⟩

theorem sameFloor_settle (r : Except MailboxError PutReport) : a.SameFloor (a.settle c r).1 := by
  rcases hr : accepted r with _ | _
  · obtain ⟨n, hn⟩ := settle_of_not_accepted (a := a) (c := c) hr
    rw [hn]
    exact ⟨rfl, rfl, rfl, rfl, rfl, rfl, rfl, rfl, rfl⟩
  · rw [settle_of_accepted hr]
    exact sameFloor_observeEvent _

/-- An event of the session's own is stamped. -/
theorem stamp_own {e : EventEnvelope β} (h : e.sessionId = some a.sessionId) :
    ∃ stamped, a.stamp e = .ok (a.stampedActor, stamped) ∧ stamped.body = e.body ∧
      stamped.priority = e.priority := by
  rw [stamp, EventEnvelope.forSession, h]
  dsimp only
  rw [if_pos rfl]
  exact ⟨_, rfl, rfl, rfl⟩

section Calls

variable [DecidableEq κ]

/-- A publication leaves the inbox alone. -/
theorem Attempted.sameFloor {r : Option (Except MailboxError PutReport)} (h : Attempted a c a' r)
    (hc : c.kind = .publication) : a.SameFloor a' := by
  cases h with
  | refused hi ho hic _ _ _ =>
    exact ⟨rfl, hi.config, hic, hi.items, hi.nextOrder, ho.config, rfl, rfl, rfl⟩
  | message hk => exact absurd (hc.symm.trans hk) CallKind.noConfusion
  | output _ _ _ _ _ happ => exact ⟨rfl, rfl, rfl, rfl, rfl, happ.config, rfl, rfl, rfl⟩

theorem sameFloor_firstAttempt (hw : a.WellFormed) (hphase : c.phase = .waiting)
    (hc : c.kind = .publication) :
    a.SameFloor (a.firstAttempt c).1 ∧ (a.firstAttempt c).2.kind = .publication := by
  have hbegun := firstAttempt_begun hw hphase
  generalize a.firstAttempt c = p at hbegun ⊢
  cases hbegun with
  | waits hatt => exact ⟨hatt.sameFloor hc, hc⟩
  | rejected hatt =>
    exact ⟨(hatt.sameFloor hc).trans ⟨rfl, rfl, rfl, rfl, rfl, rfl, rfl, rfl, rfl⟩, hc⟩
  | admitted hatt => exact ⟨(hatt.sameFloor hc).trans (sameFloor_observeEvent _), hc⟩

end Calls

end SessionActor

namespace ForegroundSession

/-- The dialogue tasks that are alive, as the floor shows them. -/
def aliveTurns (s : ForegroundSession) : List (CancellationGeneration × Bool) :=
  s.turns.filterMap TurnTask.shown?

/-- The turns under way. -/
def openTurns (s : ForegroundSession) : List (CancellationGeneration × Bool) :=
  s.actorTask.turn?.toList ++ s.aliveTurns

/-- The floor of a session. -/
def floor (s : ForegroundSession) : Floor where
  generation := s.actor.cancellation.generation
  closed := s.actor.cancellation.closed
  inbox := s.actor.inbox.items
  nextOrder := s.actor.inbox.nextOrder
  waiting := s.traffic.calls.filterMap Call.waits?
  turns := s.openTurns
  state := s.state
  requested := s.requested

/-- **What holds of the actor of a session, and of the calls made on it.** -/
structure Live (s : ForegroundSession) : Prop where
  wellFormed : s.actor.WellFormed
  overflow : s.actor.inbox.config.overflow = .dropLowest
  new : s.actor.lifecycle = .new → s.actor.cancellation.closed = false ∧ s.turns = []
  opened : s.actor.cancellation.closed = false → s.actor.cancellation.state.cancelled = false ∧
    s.actor.inbox.closed = false ∧ (s.actor.lifecycle = .new ∨ s.actor.lifecycle = .running)
  serving : s.actorTask.serves = true →
    s.actor.lifecycle = .running ∧ s.actor.cancellation.closed = false ∨
      s.actor.lifecycle = .stopping
  finishing : s.isFinishing = true → s.actor.cancellation.closed = true
  commands : ∀ c ∈ s.traffic.calls, c.kind = .submission → ∃ command : SessionCommand,
    c.event.body = .command command ∧ c.event.priority = command.priority.toInt

/-- Changes of the floor lead from one session to another. -/
def Moves (steady : Bool) (s t : ForegroundSession) : Prop :=
  t.Live ∧ ReflTransGen (FloorStep steady) s.floor t.floor

variable {steady : Bool} {s t u : ForegroundSession} {i : ℕ} {task task' : TurnTask}
  {g : CancellationGeneration} {o : SessionOutput}

theorem Moves.refl (hs : s.Live) : Moves steady s s := ⟨hs, .refl⟩

theorem Moves.trans (h : Moves steady s t) (h' : Moves steady t u) : Moves steady s u :=
  ⟨h'.1, h.2.trans h'.2⟩

theorem Moves.single (ht : t.Live) (hstep : FloorStep steady s.floor t.floor) :
    Moves steady s t := ⟨ht, .single hstep⟩

theorem Moves.of_floor_eq (ht : t.Live) (h : t.floor = s.floor) : Moves steady s t :=
  ⟨ht, h ▸ .refl⟩

/-- What a session accepts is its current generation, while it is open. -/
theorem Live.accepts_iff (hs : s.Live) : s.actor.cancellation.accepts g = true ↔
    s.actor.cancellation.closed = false ∧ g = s.actor.cancellation.generation := by
  rw [CancellationSource.accepts_iff]
  exact ⟨fun h => ⟨h.1, h.2.1⟩, fun h => ⟨h.1, h.2, (hs.opened h.1).1⟩⟩

/-- The sessions have the same floor, and the same task of the actor. -/
structure Still (s t : ForegroundSession) : Prop where
  actor : s.actor.SameFloor t.actor
  waiting : t.traffic.calls.filterMap Call.waits? = s.traffic.calls.filterMap Call.waits?
  commands : ∀ c ∈ t.traffic.calls, c ∈ s.traffic.calls ∨ c.kind = .publication ∨
    ∃ d ∈ s.traffic.calls, c.event = d.event ∧ c.kind = d.kind
  actorTask : t.actorTask = s.actorTask
  capturing : t.voiceCaptureActive = s.voiceCaptureActive
  turns : t.turns = s.turns
  requested : t.requested = s.requested

theorem Still.refl (s : ForegroundSession) : Still s s :=
  ⟨.refl _, rfl, fun _ hc => Or.inl hc, rfl, rfl, rfl, rfl⟩

theorem Still.floor (h : Still s t) : t.floor = s.floor := by
  rw [ForegroundSession.floor, ForegroundSession.floor, openTurns, openTurns, aliveTurns,
    aliveTurns, h.actor.cancellation, h.actor.inboxItems, h.actor.nextOrder, h.waiting,
    h.actorTask, h.turns, state, state, h.actor.interaction, h.requested]

theorem Still.live (h : Still s t) (hs : s.Live) : t.Live := by
  refine ⟨hs.wellFormed.congr h.actor.inboxConfig h.actor.outboxConfig, ?_, ?_, ?_, ?_, ?_, ?_⟩
  · rw [h.actor.inboxConfig]
    exact hs.overflow
  · rw [h.actor.lifecycle, h.actor.cancellation, h.turns]
    exact hs.new
  · rw [h.actor.cancellation, h.actor.inboxClosed, h.actor.lifecycle]
    exact hs.opened
  · rw [h.actorTask, h.actor.lifecycle, h.actor.cancellation]
    exact hs.serving
  · rw [isFinishing, h.actorTask, h.actor.cancellation]
    exact hs.finishing
  · intro c hc hk
    rcases h.commands c hc with hc | hc | ⟨d, hd, he, hkd⟩
    · exact hs.commands c hc hk
    · exact absurd (hc.symm.trans hk) CallKind.noConfusion
    · rw [he]
      exact hs.commands d hd (hkd.symm.trans hk)

theorem Still.moves (h : Still s t) (hs : s.Live) : Moves steady s t :=
  .of_floor_eq (h.live hs) h.floor

/-! ### Calls -/

/-- The traffic of a session goes on, under an actor of the same kind. -/
theorem Live.traffic (hs : s.Live) {traffic : Traffic SessionEvent Empty}
    (hi : traffic.actor.inbox.config = s.actor.inbox.config)
    (hclosed : traffic.actor.inbox.closed = s.actor.inbox.closed)
    (ho : traffic.actor.outbox.config = s.actor.outbox.config)
    (hlifecycle : traffic.actor.lifecycle = s.actor.lifecycle)
    (hsource : traffic.actor.cancellation.closed = s.actor.cancellation.closed)
    (hcancelled : traffic.actor.cancellation.closed = false →
      traffic.actor.cancellation.state.cancelled = false)
    (hcommands : ∀ c ∈ traffic.calls, c.kind = .submission → ∃ command : SessionCommand,
      c.event.body = .command command ∧ c.event.priority = command.priority.toInt) :
    Live { s with traffic := traffic } := by
  refine ⟨hs.wellFormed.congr hi ho, ?_, ?_, ?_, ?_, ?_, hcommands⟩
  · change traffic.actor.inbox.config.overflow = _
    rw [hi]
    exact hs.overflow
  · change traffic.actor.lifecycle = .new → traffic.actor.cancellation.closed = false ∧ _
    rw [hlifecycle, hsource]
    exact hs.new
  · intro hopen
    have hopen' : traffic.actor.cancellation.closed = false := hopen
    obtain ⟨-, hinbox, hstate⟩ := hs.opened (hsource ▸ hopen')
    refine ⟨hcancelled hopen, hclosed.trans hinbox, ?_⟩
    change traffic.actor.lifecycle = .new ∨ traffic.actor.lifecycle = .running
    rwa [hlifecycle]
  · change s.actorTask.serves = true → traffic.actor.lifecycle = .running ∧
      traffic.actor.cancellation.closed = false ∨ traffic.actor.lifecycle = .stopping
    rw [hlifecycle, hsource]
    exact hs.serving
  · change s.isFinishing = true → traffic.actor.cancellation.closed = true
    rw [hsource]
    exact hs.finishing

/-- A call goes on, and the floor at most forgets that it waits. -/
theorem moves_call (hs : s.Live) {d d' : Call SessionEvent} (hd : s.traffic.calls[i]? = some d)
    {a : SessionActor SessionEvent Empty} (ha : s.actor.SameFloor a) (hevent : d'.event = d.event)
    (hkind : d'.kind = d.kind) (hwaits : d'.waits? = none ∨ d'.waits? = d.waits?) :
    Moves steady s { s with traffic :=
      { s.traffic with actor := a, calls := s.traffic.calls.set i d' } } := by
  obtain ⟨l₁, l₂, heq, hset⟩ := exists_filterMap_set hd Call.waits?
  refine .single (hs.traffic ha.inboxConfig ha.inboxClosed ha.outboxConfig ha.lifecycle
    (congrArg _ ha.cancellation) (fun h => ?_) fun e he hk => ?_) ?_
  · have h' : a.cancellation.closed = false := h
    change a.cancellation.state.cancelled = false
    rw [ha.cancellation] at h' ⊢
    exact (hs.opened h').1
  · rcases List.mem_or_eq_of_mem_set he with he | rfl
    · exact hs.commands e he hk
    · rw [hevent]
      exact hs.commands d (List.mem_of_getElem? hd) (hkind.symm.trans hk)
  · have hsub : ((s.traffic.calls.set i d').filterMap Call.waits?).Sublist
        (s.traffic.calls.filterMap Call.waits?) := by
      rw [heq, hset]
      rcases hwaits with hwaits | hwaits
      · rw [hwaits]
        exact (List.sublist_append_right _ _).append_left _
      · rw [hwaits]
    have hfloor : ForegroundSession.floor { s with traffic :=
        { s.traffic with actor := a, calls := s.traffic.calls.set i d' } } =
          { s.floor with waiting := (s.traffic.calls.set i d').filterMap Call.waits? } :=
      Floor.ext (congrArg CancellationSource.generation ha.cancellation)
        (congrArg CancellationSource.closed ha.cancellation) ha.inboxItems ha.nextOrder rfl rfl
        (congrArg InteractionStateMachine.state ha.interaction) rfl
    rw [hfloor]
    exact .forget hsub

/-! ### Publications and children -/

/-- A publication changes nothing of the floor. -/
theorem still_begin (e : EventEnvelope SessionEvent) (hs : s.actor.WellFormed) :
    Still s { s with traffic := s.traffic.begin (s.actor.publishResult e g) } := by
  have hcall {a : SessionActor SessionEvent Empty} {c : Call SessionEvent}
      (ha : s.actor.SameFloor a) (hc : c.kind = .publication) :
      Still s { s with traffic := s.traffic.begin (a, .ok c) } := by
    refine ⟨ha, ?_, fun d hd => ?_, rfl, rfl, rfl, rfl⟩
    · change (s.traffic.calls ++ [c]).filterMap Call.waits? = _
      rw [List.filterMap_append, List.filterMap_cons_none (waits?_of_publication hc),
        List.filterMap_nil, List.append_nil]
    · rcases List.mem_append.mp hd with hd | hd
      · exact Or.inl hd
      · rw [List.mem_singleton.mp hd]
        exact Or.inr (Or.inl hc)
  rcases s.actor.publishResult_cases e g with ⟨-, he⟩ | ⟨-, ⟨err, he⟩ | ⟨stamped, -, he⟩⟩
  · rw [he]
    exact hcall ⟨rfl, rfl, rfl, rfl, rfl, rfl, rfl, rfl, rfl⟩ rfl
  · rw [he]
    exact .refl s
  · rw [he]
    obtain ⟨ha, hc⟩ := SessionActor.sameFloor_firstAttempt (a := s.actor.stampedActor)
      (c := ⟨.publication, g, stamped, .waiting⟩) hs.stampedActor rfl rfl
    exact hcall (SessionActor.sameFloor_stampedActor.trans ha) hc

/-- **A session publishes without raising**, as what it publishes is its own. -/
theorem publish_ok (hs : s.actor.WellFormed) (g : CancellationGeneration) (o : SessionOutput) :
    ∃ t call, s.publish g o = (t, .ok call) ∧ Still s t := by
  have hstill : Still s (s.publish g o).1 := still_begin _ hs
  rcases hresult : (s.publish g o).2 with err | call
  · exfalso
    rw [publish, SessionActor.publishResult, CancellationSource.ensureCurrent_eq] at hresult
    obtain ⟨stamped, hstamp, -⟩ :=
      SessionActor.stamp_own (a := s.actor) (e := s.outputEvent o) rfl
    split at hresult
    · cases hresult
    · rw [hstamp] at hresult
      cases hresult
  · exact ⟨_, call, Prod.ext rfl hresult, hstill⟩

theorem still_childDone (child : ℕ) (exception : Option SessionError) :
    Still s (s.childDone child exception) := by
  refine ⟨?_, rfl, fun _ hc => Or.inl hc, rfl, rfl, rfl, rfl⟩
  change s.actor.SameFloor (s.actor.childDone child exception).1
  unfold SessionActor.childDone
  rcases exception with _ | e
  · exact ⟨rfl, rfl, rfl, rfl, rfl, rfl, rfl, rfl, rfl⟩
  · dsimp only
    split
    · exact ⟨rfl, rfl, rfl, rfl, rfl, rfl, rfl, rfl, rfl⟩
    · exact ⟨rfl, rfl, rfl, rfl, rfl, rfl, rfl, rfl, rfl⟩

/-- A child task is created in a running session. -/
theorem spawn_cases (s : ForegroundSession) : (∃ t, s.spawn = (t, .ok s.spawned) ∧ Still s t) ∨
    s.spawn = (s, .error .lifecycle) ∧ s.actor.lifecycle ≠ .running := by
  rw [spawn, SessionActor.spawn]
  by_cases hrun : s.actor.lifecycle = .running
  · rw [if_pos hrun]
    exact Or.inl ⟨_, rfl, ⟨rfl, rfl, rfl, rfl, rfl, rfl, rfl, rfl, rfl⟩, rfl,
      fun _ hc => Or.inl hc, rfl, rfl, rfl, rfl⟩
  · rw [if_neg hrun]
    exact Or.inr ⟨rfl, hrun⟩

/-! ### Transitions -/

/-- The session after transitions. -/
def walk (s : ForegroundSession) (requests : List TransitionRequest) (revision : ℕ) :
    ForegroundSession :=
  { s.withActor { s.actor with interaction := ⟨destination s.state requests, revision⟩ } with
    requested := s.requested ++ walked s.state requests }

/-- A request the table allows is granted. -/
theorem transition_ok {request : TransitionRequest}
    (hserves : s.actor.lifecycle = .running ∨ s.actor.lifecycle = .stopping)
    (hallowed : request.1 ∈ s.state.allowedFrom) (hreason : isBlank request.2.toList = false) :
    ∃ n, s.transition request = (s.walk [request] n, .ok ()) := by
  have hallowed' : request.1 ∈ s.actor.interaction.state.allowedFrom := hallowed
  refine ⟨s.actor.interaction.revision + 1, ?_⟩
  rw [transition, SessionActor.transitionInteraction, if_pos hserves,
    InteractionStateMachine.transition, if_neg (hreason ▸ Bool.false_ne_true),
    if_neg (not_not_intro hallowed')]
  rfl

/-- A request the table forbids is refused. -/
theorem transition_error (request : TransitionRequest)
    (hserves : s.actor.lifecycle = .running ∨ s.actor.lifecycle = .stopping)
    (hallowed : request.1 ∉ s.state.allowedFrom) (hreason : isBlank request.2.toList = false) :
    ∃ e, s.transition request =
      ({ s with requested := s.requested ++ [(s.state, request.1)] }, .error e) := by
  have hallowed' : request.1 ∉ s.actor.interaction.state.allowedFrom := hallowed
  refine ⟨.interaction (.invalid s.state request.1), ?_⟩
  rw [transition, SessionActor.transitionInteraction, if_pos hserves,
    InteractionStateMachine.transition, if_neg (hreason ▸ Bool.false_ne_true), if_pos hallowed']
  rfl

theorem walk_walk (request : TransitionRequest) (rest : List TransitionRequest) (n m : ℕ) :
    (s.walk [request] n).walk rest m = s.walk (request :: rest) m := by
  rw [walk, walk, walk, walked, List.append_assoc]
  rfl

theorem walk_nil : s.walk [] s.actor.interaction.revision = s := by
  rw [walk, walked, List.append_nil]
  rfl

/-- **Transitions that are legal are all made.** -/
theorem transitions_ok : ∀ {requests : List TransitionRequest} {s : ForegroundSession},
    s.actor.lifecycle = .running ∨ s.actor.lifecycle = .stopping → Legal s.state requests →
      ∃ n, s.transitions requests = (s.walk requests n, .ok ())
  | [], s, _, _ => ⟨s.actor.interaction.revision, by rw [walk_nil]; rfl⟩
  | request :: rest, s, hserves, hlegal => by
    obtain ⟨⟨hallowed, hreason⟩, hrest⟩ := legal_cons.mp hlegal
    obtain ⟨n, hn⟩ := transition_ok hserves hallowed hreason
    obtain ⟨m, hm⟩ := transitions_ok (s := s.walk [request] n) hserves hrest
    refine ⟨m, ?_⟩
    rw [transitions, hn]
    dsimp only
    rw [hm, walk_walk]

theorem walk_floor (requests : List TransitionRequest) (n : ℕ) :
    (s.walk requests n).floor = { s.floor with
      state := destination s.state requests
      requested := s.requested ++ walked s.state requests } := rfl

theorem Live.walk (hs : s.Live) (requests : List TransitionRequest) (n : ℕ) :
    (s.walk requests n).Live :=
  ⟨hs.wellFormed.congr rfl rfl, hs.overflow, hs.new, hs.opened, hs.serving, hs.finishing,
    hs.commands⟩

/-! ### The task of the actor -/

/-- The task of the actor comes to stand somewhere. -/
theorem Live.at (hs : s.Live) (actorTask : ActorTask)
    (hserving : actorTask.serves = true → s.actorTask.serves = true)
    (hfinishing : ∀ terminal, actorTask = .finishing terminal →
      s.actor.cancellation.closed = true) : Live { s with actorTask := actorTask } := by
  refine ⟨hs.wellFormed, hs.overflow, hs.new, hs.opened, fun h => hs.serving (hserving h), ?_,
    hs.commands⟩
  rcases actorTask with _ | _ | frame | terminal | _
  · exact fun h => Bool.noConfusion h
  · exact fun h => Bool.noConfusion h
  · exact fun h => Bool.noConfusion h
  · exact fun _ => hfinishing terminal rfl
  · exact fun h => Bool.noConfusion h

/-- What serves has been started. -/
theorem Live.lifecycle (hs : s.Live) (hserves : s.actorTask.serves = true) :
    s.actor.lifecycle = .running ∨ s.actor.lifecycle = .stopping :=
  (hs.serving hserves).imp And.left id

/-- The generations are closed, and the inbox with them. -/
theorem live_enterFinally (hs : s.Live) (hserves : s.actorTask.serves = true)
    (terminal : Ending) : (s.enterFinally terminal).Live := by
  refine ⟨hs.wellFormed.congr rfl rfl, hs.overflow, fun hnew => ?_, fun h => Bool.noConfusion h,
    fun h => Bool.noConfusion h, fun _ => rfl, hs.commands⟩
  have hnew' : s.actor.lifecycle = .new := hnew
  rcases hs.lifecycle hserves with h | h
  · exact SessionLifecycle.noConfusion (hnew'.symm.trans h)
  · exact SessionLifecycle.noConfusion (hnew'.symm.trans h)

/-- The session ends: its generations are closed, and the turn in hand is let go. -/
theorem floorPath_ends (f : Floor) {turns : List (CancellationGeneration × Bool)}
    (hturns : turns.Subperm f.turns) : ReflTransGen (FloorStep steady) f
      { f with closed := true, inbox := [], turns := turns } := by
  have hshut : FloorStep steady f { f with closed := true, inbox := [] } :=
    .shut (List.nil_sublist _)
  exact (ReflTransGen.single hshut).tail
    (.release hturns fun _ hopen => absurd hopen (Bool.false_ne_true ∘ Eq.symm))

theorem moves_enterFinally (hs : s.Live) (hserves : s.actorTask.serves = true)
    (terminal : Ending) : Moves steady s (s.enterFinally terminal) :=
  ⟨live_enterFinally hs hserves terminal,
    floorPath_ends s.floor (List.sublist_append_right _ _).subperm⟩

theorem moves_failHandler (hs : s.Live) (hserves : s.actorTask.serves = true)
    (e : SessionError) : Moves steady s (s.failHandler e) := by
  have hstill : Still s (s.withActor { s.actor with failure := some e }) :=
    ⟨⟨rfl, rfl, rfl, rfl, rfl, rfl, rfl, rfl, rfl⟩, rfl, fun _ hc => Or.inl hc, rfl, rfl, rfl, rfl⟩
  exact (hstill.moves hs).trans (moves_enterFinally (hstill.live hs) hserves .failed)

/-- A handler publishes, and waits. -/
theorem publishFromHandler_eq (hs : s.actor.WellFormed) (message : SessionMessage SessionEvent)
    (stage : HandlerStage) (o : SessionOutput) : ∃ t call, Still s t ∧
      s.publishFromHandler message stage o =
        { t with actorTask := .handling ⟨message, stage, call⟩ } := by
  obtain ⟨t, call, hpublish, hstill⟩ := publish_ok hs message.generation o
  exact ⟨t, call, hstill, by rw [publishFromHandler, hpublish]; rfl⟩

/-- A publication of a handler changes only where its turn stands. -/
theorem publishFromHandler_floor (hs : s.Live) (hserves : s.actorTask.serves = true)
    (message : SessionMessage SessionEvent) (stage : HandlerStage) (o : SessionOutput) :
    (s.publishFromHandler message stage o).Live ∧
      (s.publishFromHandler message stage o).floor =
        { s.floor with
          turns := (ActorTask.handling ⟨message, stage, 0⟩).turn?.toList ++ s.aliveTurns } := by
  obtain ⟨t, call, hstill, heq⟩ := publishFromHandler_eq hs.wellFormed message stage o
  have htserves : t.actorTask.serves = true := hstill.actorTask ▸ hserves
  rw [heq]
  refine ⟨(hstill.live hs).at _ (fun _ => htserves) fun _ h => ActorTask.noConfusion h, ?_⟩
  have halive : t.aliveTurns = s.aliveTurns := by rw [aliveTurns, aliveTurns, hstill.turns]
  rw [← halive, ← hstill.floor]
  rfl

theorem moves_publishFromHandler (hs : s.Live) (hserves : s.actorTask.serves = true)
    {message : SessionMessage SessionEvent} {stage : HandlerStage} {o : SessionOutput}
    (hturn : (ActorTask.handling ⟨message, stage, 0⟩).turn? = s.actorTask.turn?) :
    Moves steady s (s.publishFromHandler message stage o) := by
  obtain ⟨hlive, hfloor⟩ := publishFromHandler_floor hs hserves message stage o
  refine .of_floor_eq hlive (hfloor.trans ?_)
  rw [hturn]
  rfl

theorem moves_proceed {α : Type} {p : ForegroundSession × Except SessionError α}
    {continuation : ForegroundSession → α → ForegroundSession} {y : α} (hp : p = (u, .ok y))
    (h : Moves steady s (continuation u y)) : Moves steady s (proceed p continuation) := by
  rw [hp]
  exact h

/-! ### The next command -/

/-- The session after its task has taken an entry out of the inbox. -/
def taking (s : ForegroundSession) (inbox : PriorityMailbox (SessionMessage SessionEvent) Empty) :
    ForegroundSession :=
  s.withActor { s.actor with inbox := inbox }

section Taking

variable {inbox : PriorityMailbox (SessionMessage SessionEvent) Empty} {x : QueuedCommand}
  {c : SessionCommand}

theorem Live.taking (hs : s.Live) (hget : s.actor.inbox.get = some (inbox, x)) :
    (s.taking inbox).Live := by
  obtain ⟨l₁, l₂, -, -, hcfg, hclosed, -⟩ := PriorityMailbox.get_eq_some hget
  refine ⟨hs.wellFormed.congr hcfg rfl, hcfg ▸ hs.overflow, hs.new, fun h => ?_, hs.serving,
    hs.finishing, hs.commands⟩
  obtain ⟨hcancelled, hopen, hlifecycle⟩ := hs.opened h
  exact ⟨hcancelled, hclosed.trans hopen, hlifecycle⟩

/-- The change of the floor by the next command. -/
theorem floorStep_take (steady : Bool) (hget : s.actor.inbox.get = some (inbox, x))
    (hbody : x.item.event.body = .command c) (capturing : Bool)
    (hsteady : steady = true → s.actor.cancellation.closed = false → c.isTurn = true →
      x.generation = s.actor.cancellation.generation) :
    FloorStep steady s.floor { s.floor with
      inbox := inbox.items
      turns := if c.isTurn then (x.generation, true) :: s.openTurns else s.openTurns
      state := destination s.state (c.requests capturing s.state)
      requested := s.requested ++ walked s.state (c.requests capturing s.state) } := by
  obtain ⟨l₁, l₂, hitems, hrest, -, -, -, hurgent, hold, -⟩ := PriorityMailbox.get_eq_some hget
  rw [hrest]
  exact .take capturing hitems hbody hurgent hold hsteady

/-- A command that is not a turn is taken, and the transitions of its handler are made. -/
theorem moves_taking (steady : Bool) (hs : s.Live) (htask : s.actorTask = .receiving)
    (hget : s.actor.inbox.get = some (inbox, x)) (hbody : x.item.event.body = .command c)
    (hturn : c.isTurn = false) (capturing capturing' : Bool) : ∃ n,
      ({ s.taking inbox with voiceCaptureActive := capturing' }).transitions
          (c.requests capturing s.state) =
        (({ s.taking inbox with voiceCaptureActive := capturing' }).walk
          (c.requests capturing s.state) n, .ok ()) ∧
      Moves steady s (({ s.taking inbox with voiceCaptureActive := capturing' }).walk
        (c.requests capturing s.state) n) := by
  have hlive := hs.taking hget
  have hlive' : Live { s.taking inbox with voiceCaptureActive := capturing' } :=
    ⟨hlive.wellFormed, hlive.overflow, hlive.new, hlive.opened, hlive.serving, hlive.finishing,
      hlive.commands⟩
  obtain ⟨n, hn⟩ := transitions_ok (s := { s.taking inbox with voiceCaptureActive := capturing' })
    (hs.lifecycle (htask ▸ rfl)) (c.legal_requests capturing s.state)
  have hstep := floorStep_take steady hget hbody capturing fun _ _ h =>
    absurd (h.symm.trans hturn) (Bool.false_ne_true ∘ Eq.symm)
  rw [hturn, if_neg Bool.false_ne_true] at hstep
  obtain ⟨_, _, -, -, -, -, hnext, -⟩ := PriorityMailbox.get_eq_some hget
  refine ⟨n, hn, .single (hlive'.walk _ n) ?_⟩
  have hfloor : (({ s.taking inbox with voiceCaptureActive := capturing' }).walk
      (c.requests capturing s.state) n).floor = { s.floor with
        inbox := inbox.items
        turns := s.openTurns
        state := destination s.state (c.requests capturing s.state)
        requested := s.requested ++ walked s.state (c.requests capturing s.state) } :=
    (walk_floor _ n).trans (Floor.ext rfl rfl rfl hnext rfl rfl rfl rfl)
  rw [hfloor]
  exact hstep

/-- A turn is taken, and its handler waits for its first publication or has raised. -/
theorem moves_acceptTurn (hs : s.Live) (htask : s.actorTask = .receiving)
    (hget : s.actor.inbox.get = some (inbox, x)) {turn : TurnRequest}
    (hbody : x.item.event.body = .command (.turnRequested turn))
    (hsteady : steady = true → s.actor.cancellation.closed = false →
      x.generation = s.actor.cancellation.generation) :
    Moves steady s ((s.taking inbox).acceptTurn x.item turn) := by
  have hlive := hs.taking hget
  obtain ⟨n, hn⟩ := transitions_ok (s := s.taking inbox) (hs.lifecycle (htask ▸ rfl))
    ((SessionCommand.turnRequested turn).legal_requests s.voiceCaptureActive s.state)
  have hstep := floorStep_take steady hget hbody s.voiceCaptureActive
    fun h hopen _ => hsteady h hopen
  have hturn : (SessionCommand.turnRequested turn).isTurn = true := rfl
  rw [if_pos hturn] at hstep
  obtain ⟨_, _, -, -, -, -, hnext, -⟩ := PriorityMailbox.get_eq_some hget
  generalize hu : (s.taking inbox).walk ((SessionCommand.turnRequested turn).requests
    s.voiceCaptureActive s.state) n = u at hn
  have hulive : u.Live := hu ▸ hlive.walk _ n
  have hutask : u.actorTask = .receiving := hu ▸ htask
  have huserves : u.actorTask.serves = true := hutask ▸ rfl
  have hopen : s.openTurns = s.aliveTurns := by rw [openTurns, htask]; rfl
  have hfloor : { u.floor with turns := (x.generation, true) :: u.aliveTurns } = { s.floor with
      inbox := inbox.items
      turns := (x.generation, true) :: s.openTurns
      state := destination s.state
        ((SessionCommand.turnRequested turn).requests s.voiceCaptureActive s.state)
      requested := s.requested ++ walked s.state
        ((SessionCommand.turnRequested turn).requests s.voiceCaptureActive s.state) } := by
    rw [hopen, ← hu, walk_floor]
    exact Floor.ext rfl rfl rfl hnext rfl rfl rfl rfl
  rw [← hfloor] at hstep
  obtain ⟨k, heq, hvoice, htext⟩ :
      ∃ k, (s.taking inbox).acceptTurn x.item turn = proceed u.spawn k ∧
      (turn.inputModality = .voice → ∀ v j, k v j = v.publishFromHandler x.item (.transcript turn)
        (.voiceTranscriptFinal x.item.generation turn)) ∧
      (turn.inputModality = .text → ∀ v j, k v j = v.announceTurn x.item turn) := by
    rw [acceptTurn]
    refine ⟨_, congrArg (fun p => proceed p _) hn, fun h v j => ?_, fun h v j => ?_⟩
    · rw [h]
    · rw [h]
  rw [heq]
  rcases u.spawn_cases with ⟨v, hspawn, hstill⟩ | ⟨hspawn, -⟩
  · rw [hspawn]
    have hvserves : v.actorTask.serves = true := hstill.actorTask ▸ huserves
    have hvalive : v.aliveTurns = u.aliveTurns := by rw [aliveTurns, aliveTurns, hstill.turns]
    have hpublish {stage : HandlerStage} {o : SessionOutput}
        (hstage : (ActorTask.handling ⟨x.item, stage, 0⟩).turn? = some (x.generation, true)) :
        Moves steady s (v.publishFromHandler x.item stage o) := by
      obtain ⟨hvlive, hvfloor⟩ :=
        publishFromHandler_floor (hstill.live hulive) hvserves x.item stage o
      refine .single hvlive ?_
      rw [hvfloor, hstage, hstill.floor, hvalive]
      exact hstep
    change Moves steady s (k v _)
    cases hmodality : turn.inputModality with
    | voice =>
      rw [hvoice hmodality]
      exact hpublish rfl
    | text =>
      rw [htext hmodality]
      exact hpublish rfl
  · -- the session is being stopped, and creates no more tasks
    rw [hspawn]
    refine ⟨(moves_failHandler hulive huserves .lifecycle : Moves false u _).1, ?_⟩
    refine (ReflTransGen.single hstep).trans ?_
    exact floorPath_ends _ (List.sublist_cons_self _ _).subperm

/-- **The next command is taken and handled.** -/
theorem moves_handleMessage (hs : s.Live) (htask : s.actorTask = .receiving)
    (hget : s.actor.inbox.get = some (inbox, x))
    (hsteady : steady = true → s.actor.cancellation.closed = false →
      ∀ turn, x.item.event.body = .command (.turnRequested turn) →
        x.generation = s.actor.cancellation.generation) :
    Moves steady s ((s.taking inbox).handleMessage x.item) := by
  have hnone {message : SessionMessage SessionEvent} {stage : HandlerStage} {o : SessionOutput}
      {u : ForegroundSession} (hu : Moves steady s u) (hutask : u.actorTask = .receiving)
      (hstage : (ActorTask.handling ⟨message, stage, 0⟩).turn? = none) :
      Moves steady s (u.publishFromHandler message stage o) := by
    refine hu.trans (moves_publishFromHandler hu.1 (hutask ▸ rfl) (hstage.trans ?_))
    rw [hutask]
    rfl
  unfold handleMessage
  rcases hbody : x.item.event.body with c | o
  · have htake := moves_taking steady hs htask hget hbody
    cases c with
    | turnRequested turn =>
      exact moves_acceptTurn hs htask hget hbody fun h hopen => hsteady h hopen turn hbody
    | turnCancelRequested reason =>
      obtain ⟨n, hn, hmoves⟩ := htake rfl s.voiceCaptureActive s.voiceCaptureActive
      exact moves_proceed hn (hnone hmoves htask rfl)
    | voiceCaptureStarted capture =>
      obtain ⟨n, hn, hmoves⟩ := htake rfl true true
      exact moves_proceed hn (hnone hmoves htask rfl)
    | voiceCaptureStopped capture =>
      obtain ⟨n, hn, hmoves⟩ := htake rfl false false
      exact moves_proceed hn (hnone hmoves htask rfl)
    | voiceSpeechStarted speech =>
      obtain ⟨n, hn, hmoves⟩ := htake rfl s.voiceCaptureActive s.voiceCaptureActive
      refine moves_proceed hn ?_
      rcases hbargeIn : speech.bargeIn with _ | _
      · exact hnone hmoves htask rfl
      · exact hnone hmoves htask rfl
    | voiceTranscriptPartial | voiceTranscriptEmpty | voiceRecognitionFailed | transportPing
    | neutralAvatarRequested | playbackAckReceived =>
      obtain ⟨n, hn, hmoves⟩ := htake rfl s.voiceCaptureActive s.voiceCaptureActive
      have htaken : Moves steady s (s.taking inbox) :=
        Eq.mpr (congrArg (Moves steady s) (congrArg Prod.fst hn)) hmoves
      exact hnone htaken htask rfl
  · -- no handler: the actor raises
    have hlive := hs.taking hget
    obtain ⟨_, _, -, -, -, -, hnext, -⟩ := PriorityMailbox.get_eq_some hget
    have hfloor : ((s.taking inbox).failHandler (.raised 0)).floor =
        { s.floor with closed := true, inbox := [], turns := s.aliveTurns } :=
      Floor.ext rfl rfl rfl hnext rfl rfl rfl rfl
    refine ⟨(moves_failHandler hlive (htask ▸ rfl) (.raised 0) : Moves false _ _).1, ?_⟩
    change ReflTransGen _ _ ((s.taking inbox).failHandler (.raised 0)).floor
    rw [hfloor]
    exact floorPath_ends s.floor (List.sublist_append_right _ _).subperm

end Taking

/-- The handler returns. -/
theorem moves_returnFromHandler (hs : s.Live) (hserves : s.actorTask.serves = true)
    (message : SessionMessage SessionEvent) (hturn : s.actorTask.turn? = none) :
    Moves steady s (s.returnFromHandler message) := by
  have hlive := hs.at .receiving (fun _ => hserves)
    fun _ h => ActorTask.noConfusion h
  refine .of_floor_eq ⟨hlive.wellFormed, hlive.overflow, hlive.new, hlive.opened, hlive.serving,
    hlive.finishing, hlive.commands⟩ (Floor.ext rfl rfl rfl rfl rfl ?_ rfl rfl)
  change _ = s.openTurns
  rw [openTurns, hturn]
  rfl

/-- **The handler goes on from a wait.** -/
theorem moves_continueHandler (hs : s.Live) {frame : HandlerFrame}
    (htask : s.actorTask = .handling frame) : Moves steady s (s.continueHandler frame) := by
  have hserves : s.actorTask.serves = true := htask ▸ rfl
  obtain ⟨message, stage, call⟩ := frame
  cases stage with
  | transcript turn => exact moves_publishFromHandler hs hserves (by rw [htask]; rfl)
  | bargeIn speech => exact moves_publishFromHandler hs hserves (by rw [htask]; rfl)
  | last => exact moves_returnFromHandler hs hserves message (by rw [htask]; rfl)
  | accepted turn =>
    change Moves steady s (proceed s.spawn _)
    rcases s.spawn_cases with ⟨t, hspawn, hstill⟩ | ⟨hspawn, -⟩
    · refine moves_proceed hspawn ?_
      -- the turn passes from the handler to its task
      let task : TurnTask := ⟨message.generation, turn, s.spawned, true, [], .loading⟩
      let u : ForegroundSession := { t with turns := t.turns ++ [task], actorTask := .receiving }
      have htlive := (hstill.live hs).at .receiving
        (fun _ => hstill.actorTask ▸ hserves) fun _ h => ActorTask.noConfusion h
      have hulive : Live { u with handled := t.handled ++ [message] } := by
        refine ⟨htlive.wellFormed, htlive.overflow, fun hnew => ?_, htlive.opened,
          htlive.serving, htlive.finishing, htlive.commands⟩
        have hnew' : t.actor.lifecycle = .new := hnew
        rcases (hstill.live hs).lifecycle (hstill.actorTask ▸ hserves) with h | h
        · exact SessionLifecycle.noConfusion (hnew'.symm.trans h)
        · exact SessionLifecycle.noConfusion (hnew'.symm.trans h)
      refine .single hulive ?_
      have halive : t.aliveTurns = s.aliveTurns := by rw [aliveTurns, aliveTurns, hstill.turns]
      have hopen : s.openTurns = (message.generation, true) :: s.aliveTurns := by
        rw [openTurns, htask]
        rfl
      have hturns : u.openTurns = s.aliveTurns ++ [(message.generation, true)] := by
        rw [← halive]
        exact List.filterMap_append
      have hperm : u.openTurns.Perm s.openTurns := by
        rw [hopen, hturns]
        exact List.perm_append_singleton _ _
      have hfloor : u.floor = { s.floor with turns := u.openTurns } := by
        rw [← hstill.floor]
        rfl
      change FloorStep steady s.floor u.floor
      rw [hfloor]
      exact .release hperm.subperm fun _ _ p hp _ => hperm.mem_iff.mpr hp
    · rw [hspawn]
      exact moves_failHandler hs hserves .lifecycle

end ForegroundSession

end Eeveetuber
