import Eeveetuber.Foundation.Select
import Eeveetuber.Runtime.Traffic

/-!
# The life of a session's task

A started session has one task, which serves the inbox until it is cancelled, its
handler raises, or the inbox is closed and drained, and which then cleans up: it
cancels its child tasks, waits for them, closes the outbox, sets the lifecycle to
its final value and sets the stopped event. Around it run the child tasks, whose
done callback cancels the session's task when one of them fails, and any number of
calls of `stop`.

`Eeveetuber.Lifetime` is all of these, and `Eeveetuber.Lifetime.next` one step
between two suspensions of one of them. A cancellation request reaches a task
where it next resumes, by raising `CancelledError` there; while the task waits for
its children it resumes only when each of them is done and its callback has run.

That wait is the weak spot. It happens before the lifecycle has left `RUNNING`, so
a child that fails while it is being cancelled has the session's task cancelled
once more, and the error leaves the cleanup halfway. A call of `stop` whose time is
over cancels the task there too; it then finalizes the session itself, unless its own
caller is cancelled first. `Eeveetuber.Lifetime.Undisturbed` is the condition that
nothing of the kind happens, and `Eeveetuber.Lifetime.Sound` the invariant of the
runs that meet it; how such a run ends is in `Eeveetuber.Runtime.Termination`.
-/

namespace Eeveetuber

open Foundation Machine

/-- The final values of a lifecycle. -/
def Terminal (l : SessionLifecycle) : Prop := l = .stopped ∨ l = .failed

instance (l : SessionLifecycle) : Decidable (Terminal l) :=
  inferInstanceAs (Decidable (l = .stopped ∨ l = .failed))

/-- How a session ends. -/
abbrev Ending := { l : SessionLifecycle // Terminal l }

namespace Ending

def stopped : Ending := ⟨.stopped, Or.inl rfl⟩

def failed : Ending := ⟨.failed, Or.inr rfl⟩

end Ending

/-- Where the task of a session stands. -/
inductive TaskPhase where
  /-- The session has not been started. -/
  | unborn
  /-- The task exists and has not run yet. -/
  | scheduled
  /-- It waits for a command. -/
  | looping
  /-- It is in the handler. -/
  | handling
  /-- It waits for the children in the snapshot it took. -/
  | cleaning (terminal : Ending) (snapshot : List ℕ)
  /-- It is done, by `CancelledError` or not. -/
  | finished (cancelled : Bool)
deriving DecidableEq

/-- Whether the task is done. -/
def TaskPhase.isFinished : TaskPhase → Bool
  | .finished _ => true
  | _ => false

/-- Whether the task waits for its children. -/
def TaskPhase.isCleaning : TaskPhase → Bool
  | .cleaning _ _ => true
  | _ => false

/-- Where a child task stands. -/
inductive ChildPhase where
  | alive
  /-- It is done, with the exception it raised, if any; its callback has not run. -/
  | ended (exception : Option SessionError)
  /-- Its callback has run. -/
  | gone
deriving DecidableEq

/-- Where a call of `stop` stands. -/
inductive StopPhase where
  /-- It waits for the session's task. -/
  | waiting (graceful : Bool)
  /-- It has timed out and cancelled the task, and waits for it once more. -/
  | timedOut
  /-- It waits for the children in the snapshot it took. -/
  | finalizing (snapshot : List ℕ)
  /-- Its caller was cancelled while it waited for the task once more, or for the
  children in a snapshot: it raises when that wait is over. -/
  | abandoned (snapshot : Option (List ℕ))
  /-- It has returned or raised. -/
  | done
deriving DecidableEq

namespace StopPhase

/-- Whether a call finalizes the session if its task was cancelled too early or too late. -/
def finalizes : StopPhase → Bool
  | .waiting graceful => !graceful
  | .timedOut | .finalizing _ => true
  | .abandoned _ | .done => false

/-- How far a call is from being done, once the task of the session is. -/
def rank : StopPhase → ℕ
  | .waiting _ | .timedOut => 2
  | .finalizing _ | .abandoned _ => 1
  | .done => 0

end StopPhase

/-- A session with its task, its child tasks and the calls of `stop` on it. -/
structure Lifetime (β κ : Type) where
  actor : SessionActor β κ
  task : TaskPhase
  /-- Whether `CancelledError` is raised in the task when it next resumes. -/
  cancelRequested : Bool
  children : List ChildPhase
  stops : List StopPhase

namespace Lifetime

/-- The steps of a session's task, of its children and of the calls of `stop`. -/
inductive Label (β : Type) where
  | start
  | submit (event : EventEnvelope β)
  /-- The task runs for the first time. -/
  | begin
  /-- The task takes a command and enters the handler. -/
  | getMessage
  /-- The task finds the inbox closed and drained. -/
  | drained
  | handlerReturns
  | handlerRaises (exception : SessionError)
  /-- The handler catches the `CancelledError` raised in it and goes on. -/
  | handlerSwallows
  /-- `CancelledError` leaves the loop. -/
  | cancelled
  /-- The children the task waits for are done. -/
  | cleaned
  /-- The handler or a child creates a child task. -/
  | spawn
  | childEnds (child : ℕ) (exception : Option SessionError)
  | childDone (child : ℕ)
  | stop (graceful : Bool)
  /-- A call of `stop` finds the task done. -/
  | stopReturns (call : ℕ)
  | stopTimesOut (call : ℕ)
  /-- The children a call of `stop` waits for are done. -/
  | stopFinalized (call : ℕ)
  /-- The caller of `stop` is cancelled where it waits. -/
  | stopCancelled (call : ℕ)

variable {β κ : Type}

/-- Request the cancellation of the session's task; a task that is done is left alone. -/
def cancelTask (s : Lifetime β κ) : Lifetime β κ :=
  { s with cancelRequested := s.cancelRequested || !s.task.isFinished }

/-- Whether the callbacks of all these children have run. -/
def allGone (s : Lifetime β κ) (snapshot : List ℕ) : Bool :=
  snapshot.all fun i => s.children[i]? = some .gone

/-- The `finally` block, from the end of the children on. -/
def leaveFinally (s : Lifetime β κ) (terminal : Ending) : Lifetime β κ :=
  { s with
    actor := s.actor.leaveFinally terminal
    task := .finished false
    cancelRequested := false }

/-- The `finally` block, up to the wait for the children. -/
def enterFinally (s : Lifetime β κ) (terminal : Ending) : Lifetime β κ :=
  let s := { s with actor := s.actor.enterFinally, cancelRequested := false }
  match s.actor.children with
  | [] => s.leaveFinally terminal
  | snapshot => { s with task := .cleaning terminal snapshot }

/-- `_finalize_cancelled_before_run`, up to the wait for the children. -/
def finalize (s : Lifetime β κ) (call : ℕ) : Lifetime β κ :=
  if s.actor.stopped then { s with stops := s.stops.set call .done }
  else
    let s := { s with actor := { s.actor with inbox := (s.actor.inbox.close true).1 } }
    match s.actor.children with
    | [] => { s with actor := s.actor.finalizeCancelled, stops := s.stops.set call .done }
    | snapshot => { s with stops := s.stops.set call (.finalizing snapshot) }

/-- What ends the loop on `CancelledError`. -/
def cancelledTerminal (s : Lifetime β κ) : Ending :=
  if s.actor.failure.isSome then .failed else .stopped

/-- **One step.** -/
def next [DecidableEq κ] (s : Lifetime β κ) : Label β → Option (Lifetime β κ)
  | .start => match s.actor.start with
    | .ok actor => some { s with actor := actor, task := .scheduled }
    | .error _ => none
  | .submit e => some { s with actor := (s.actor.submit e).1 }
  | .begin =>
    if s.task = .scheduled then
      -- a task that is cancelled before it runs never enters its body
      if s.cancelRequested then some { s with task := .finished true, cancelRequested := false }
      else some { s with task := .looping }
    else none
  | .getMessage =>
    if s.task = .looping ∧ s.cancelRequested = false then
      s.actor.inbox.get.map fun p =>
        { s with actor := { s.actor with inbox := p.1 }, task := .handling }
    else none
  | .drained =>
    if s.task = .looping ∧ s.cancelRequested = false ∧ s.actor.inbox.drained then
      some (s.enterFinally .stopped)
    else none
  | .handlerReturns =>
    if s.task = .handling ∧ s.cancelRequested = false then some { s with task := .looping }
    else none
  | .handlerRaises e =>
    if s.task = .handling then
      some (enterFinally { s with actor := { s.actor with failure := some e } } .failed)
    else none
  | .handlerSwallows =>
    if s.task = .handling ∧ s.cancelRequested then some { s with cancelRequested := false }
    else none
  | .cancelled =>
    if (s.task = .looping ∨ s.task = .handling) ∧ s.cancelRequested then
      some (s.enterFinally s.cancelledTerminal)
    else none
  | .cleaned => match s.task with
    | .cleaning terminal snapshot =>
      if s.allGone snapshot then
        -- the error that was requested meanwhile leaves the `finally` block
        if s.cancelRequested then some { s with task := .finished true, cancelRequested := false }
        else some (s.leaveFinally terminal)
      else none
    | _ => none
  | .spawn => match s.actor.spawn s.children.length with
    | .ok actor => some { s with actor := actor, children := s.children ++ [.alive] }
    | .error _ => some s
  | .childEnds i e =>
    -- a child first runs after the task of its session
    if s.task ≠ .scheduled ∧ s.children[i]? = some .alive then
      some { s with children := s.children.set i (.ended e) }
    else none
  | .childDone i => match s.children[i]? with
    | some (.ended e) =>
      let s' : Lifetime β κ :=
        { s with actor := (s.actor.childDone i e).1, children := s.children.set i .gone }
      some (if (s.actor.childDone i e).2 then s'.cancelTask else s')
    | _ => none
  | .stop graceful => match s.actor.lifecycle with
    | .stopped | .failed | .new => some { s with actor := s.actor.stop graceful }
    | .starting | .running | .stopping =>
      let s' : Lifetime β κ :=
        { s with actor := s.actor.stop graceful, stops := s.stops ++ [.waiting graceful] }
      some (if graceful then s' else s'.cancelTask)
  | .stopReturns i => match s.stops[i]?, s.task with
    | some (.waiting _), .finished false => some { s with stops := s.stops.set i .done }
    -- a graceful call raises the `CancelledError` of the task
    | some (.waiting true), .finished true => some { s with stops := s.stops.set i .done }
    | some (.waiting false), .finished true => some (s.finalize i)
    | some .timedOut, .finished _ => some (s.finalize i)
    | some (.abandoned none), .finished _ => some { s with stops := s.stops.set i .done }
    | _, _ => none
  | .stopTimesOut i => match s.stops[i]? with
    -- the time may be over just when the task is done
    | some (.waiting _) => some (cancelTask { s with stops := s.stops.set i .timedOut })
    | _ => none
  | .stopFinalized i => match s.stops[i]? with
    | some (.finalizing snapshot) =>
      if s.allGone snapshot then
        some { s with actor := s.actor.finalizeCancelled, stops := s.stops.set i .done }
      else none
    | some (.abandoned (some snapshot)) =>
      if s.allGone snapshot then some { s with stops := s.stops.set i .done } else none
    | _ => none
  | .stopCancelled i => match s.stops[i]? with
    | some (.waiting true) => some { s with stops := s.stops.set i .done }
    -- `cancelled_by_stop`: the error is taken for that of the task
    | some (.waiting false) => some (s.finalize i)
    -- `gather` passes the cancellation on to the task, or to the children
    | some .timedOut => some (cancelTask { s with stops := s.stops.set i (.abandoned none) })
    | some (.finalizing snapshot) =>
      some { s with stops := s.stops.set i (.abandoned (some snapshot)) }
    | some (.abandoned none) => some s.cancelTask
    | some (.abandoned (some _)) => some s
    | _ => none

/-- The life of a session made with any arguments its constructor accepts. -/
def machine [DecidableEq κ] : Machine (Lifetime β κ) (Label β) where
  start s := s.task = .unborn ∧ s.cancelRequested = false ∧ s.children = [] ∧ s.stops = [] ∧
    ∃ sessionId inboxCapacity outboxCapacity inboxOverflow coalesceKey coalescer observer,
      SessionActor.create sessionId inboxCapacity outboxCapacity inboxOverflow coalesceKey
        coalescer observer = .ok s.actor
  next := next

/-! ### The invariant -/

/-- A session that has ended as it should. -/
structure Complete (s : Lifetime β κ) : Prop where
  lifecycle : Terminal s.actor.lifecycle
  outbox : s.actor.outbox.closed = true
  stopped : s.actor.stopped = true
  children : ∀ p ∈ s.children, p = .gone

/-- Whether a step reports a failed child or creates a child. -/
def disturbs (s : Lifetime β κ) : Label β → Bool
  | .spawn => true
  | .childDone i => match s.children[i]? with
    | some (.ended (some _)) => true
    | _ => false
  | _ => false

/-- Whether the task does not complete its cleanup: it was cancelled too early or too late,
or is about to be. -/
def isCut (s : Lifetime β κ) (requested : Bool) : Bool :=
  match s.task with
  | .finished cancelled => cancelled
  | .scheduled | .cleaning _ _ => requested
  | .unborn | .looping | .handling => false

/-- Whether a step cancels the caller of the one call of `stop` that would finalize a session
whose task does not complete its cleanup. -/
def forsakes (s : Lifetime β κ) : Label β → Bool
  | .stopCancelled i =>
    !s.actor.stopped && !(s.stops.set i .done).any StopPhase.finalizes && match s.stops[i]? with
    | some .timedOut | some (.abandoned none) => s.isCut true
    | some (.finalizing _) => s.isCut s.cancelRequested
    | _ => false
  | _ => false

/-- **The condition**: while the task waits for its children and the lifecycle is still
`RUNNING`, no failed child is reported and no child is created; and no caller of `stop` is
cancelled who is the last to finalize a session whose task is cut short. -/
def Undisturbed (s : Lifetime β κ) (l : Label β) : Prop :=
  (s.task.isCleaning = true → s.actor.lifecycle = .running → s.disturbs l = false) ∧
    s.forsakes l = false

instance (s : Lifetime β κ) (l : Label β) : Decidable (s.Undisturbed l) :=
  inferInstanceAs (Decidable ((s.task.isCleaning = true → s.actor.lifecycle = .running →
    s.disturbs l = false) ∧ s.forsakes l = false))

/-- What is known of the children before the task has run. -/
def ChildrenOf (children : List ChildPhase) : TaskPhase → Prop
  | .unborn => children = []
  | .scheduled => ∀ p ∈ children, p = .alive
  | _ => True

/-- What is known of the lifecycle from where the task stands. It may be final while the task
is alive: a call of `stop` finalizes when its caller is cancelled. -/
def PhaseOf (l : SessionLifecycle) : TaskPhase → Prop
  | .unborn => l = .new ∨ l = .stopped
  | .scheduled | .looping | .handling | .cleaning _ _ => l = .running ∨ l = .stopping ∨ Terminal l
  | .finished false => Terminal l
  | .finished true => Terminal l ∨ l = .stopping

/-- A session that has ended, or will be finalized by a call of `stop`. -/
def InHand (s : Lifetime β κ) : Prop :=
  Terminal s.actor.lifecycle ∨ ∃ p ∈ s.stops, p.finalizes = true

/-- Where a cancellation may be requested: in the loop; elsewhere only where the session is
in hand. -/
def RequestOf (requested : Bool) (inHand : Prop) : TaskPhase → Prop
  | .looping | .handling => True
  | .scheduled | .cleaning _ _ => requested = true → inHand
  | .unborn | .finished _ => requested = false

/-- **The invariant of the undisturbed runs.** -/
structure Sound (s : Lifetime β κ) : Prop where
  phase : PhaseOf s.actor.lifecycle s.task
  request : RequestOf s.cancelRequested s.InHand s.task
  terminal : Terminal s.actor.lifecycle →
    s.actor.outbox.closed = true ∧ s.actor.stopped = true ∧ ∀ p ∈ s.children, p = .gone
  stopped : s.actor.stopped = true → Terminal s.actor.lifecycle
  /-- Whoever waits for children waits for all of them. -/
  held : ∀ i p, s.children[i]? = some p → p ≠ .gone → i ∈ s.actor.children ∧
    (∀ terminal snapshot, s.task = .cleaning terminal snapshot → i ∈ snapshot) ∧
    ∀ snapshot, .finalizing snapshot ∈ s.stops → i ∈ snapshot
  stops : ∀ p ∈ s.stops, p ≠ .done → s.actor.lifecycle ≠ .new ∧ s.actor.lifecycle ≠ .running ∧
    s.task ≠ .unborn
  finished : s.task = .finished true → s.InHand
  early : ChildrenOf s.children s.task

section Sound

variable {s t : Lifetime β κ} {terminal : Ending} {i : ℕ}

theorem gone_of_allGone {snapshot : List ℕ} (h : s.allGone snapshot = true) (hi : i ∈ snapshot) :
    s.children[i]? = some .gone := by
  simpa using List.all_eq_true.mp h i hi

theorem not_terminal_of_live {l : SessionLifecycle} (h : l = .running ∨ l = .stopping) :
    ¬Terminal l := by
  rcases h with rfl | rfl <;> rintro (h | h) <;> cases h

/-- A request to cancel the task is met, or needs not be. -/
theorem RequestOf.mono {p q : Prop} {b : Bool} {task : TaskPhase} (h : RequestOf b p task)
    (hpq : p → q) : RequestOf b q task := by
  cases task with
  | scheduled | cleaning => exact fun hb => hpq (h hb)
  | unborn | looping | handling | finished => exact h

/-- A session that has a task goes on to a final value wherever that task stands. -/
theorem PhaseOf.of_stopped {l : SessionLifecycle} {task : TaskPhase} (h : PhaseOf l task) :
    PhaseOf .stopped task := by
  cases task with
  | unborn => exact Or.inr rfl
  | finished cancelled => cases cancelled <;> simp [PhaseOf, Terminal]
  | scheduled | looping | handling | cleaning => exact Or.inr (Or.inr (Or.inl rfl))

/-- Once all children are gone the cleanup is complete. -/
theorem sound_leaveFinally (hgone : ∀ p ∈ s.children, p = .gone) :
    (s.leaveFinally terminal).Sound where
  phase := terminal.2
  request := rfl
  terminal _ := ⟨rfl, rfl, hgone⟩
  stopped _ := terminal.2
  held i p hp hne := absurd (hgone p (List.mem_of_getElem? hp)) hne
  stops p _ _ := by
    have hterm := terminal.2
    refine ⟨?_, ?_, by simp [Lifetime.leaveFinally]⟩ <;> intro hl <;>
      change terminal.1 = _ at hl <;> rw [hl] at hterm <;> rcases hterm with ht | ht <;> cases ht
  finished _ := Or.inl terminal.2
  early := trivial

theorem Sound.gone_of_children_nil (h : s.Sound) (hnil : s.actor.children = []) :
    ∀ p ∈ s.children, p = .gone := by
  intro p hp
  by_contra hne
  obtain ⟨i, hi⟩ := List.mem_iff_getElem?.mp hp
  have := (h.held i p hi hne).1
  rw [hnil] at this
  cases this

/-- The cleanup starts from the loop, whatever ends it. -/
theorem Sound.enterFinally (h : s.Sound) (terminal : Ending)
    (hloop : s.task = .looping ∨ s.task = .handling) : (s.enterFinally terminal).Sound := by
  have hphase : s.actor.lifecycle = .running ∨ s.actor.lifecycle = .stopping ∨
      Terminal s.actor.lifecycle := by
    have := h.phase
    rcases hloop with hl | hl <;> rwa [hl] at this
  have hmid : Sound { s with actor := s.actor.enterFinally, cancelRequested := false } := by
    refine ⟨h.phase, ?_, h.terminal, h.stopped, h.held, h.stops, h.finished, h.early⟩
    rcases hloop with hl | hl <;> simp [RequestOf, hl]
  unfold Lifetime.enterFinally
  dsimp only
  split
  · rename_i hnil
    exact sound_leaveFinally (hmid.gone_of_children_nil hnil)
  · refine ⟨hphase, (fun hr => by cases hr), hmid.terminal, hmid.stopped, fun i p hp hne => ?_,
      fun p hp hne => ?_, (fun hf => by cases hf), trivial⟩
    · obtain ⟨hi, -, hstop⟩ := hmid.held i p hp hne
      refine ⟨hi, fun terminal' snapshot heq => ?_, hstop⟩
      cases heq
      exact hi
    · obtain ⟨hnew, hrun, -⟩ := hmid.stops p hp hne
      exact ⟨hnew, hrun, by simp⟩

/-! ### The calls of `stop` -/

/-- A call of `stop` moves on to a phase that waits for no children of its own; the session
is in hand as it was. -/
theorem Sound.setStop {q : StopPhase} (h : s.Sound)
    (hq : ∀ snapshot, q ≠ .finalizing snapshot)
    (hlive : q ≠ .done → s.actor.lifecycle ≠ .new ∧ s.actor.lifecycle ≠ .running ∧
      s.task ≠ .unborn)
    (hinHand : s.isCut s.cancelRequested = true → s.InHand →
      InHand { s with stops := s.stops.set i q }) :
    Sound { s with stops := s.stops.set i q } where
  phase := h.phase
  request := by
    have := h.request
    show RequestOf s.cancelRequested _ s.task
    cases ht : s.task with
    | scheduled | cleaning =>
      rw [ht] at this
      exact fun hr => hinHand (by rw [isCut, ht]; exact hr) (this hr)
    | unborn | looping | handling | finished => rwa [ht] at this
  terminal := h.terminal
  stopped := h.stopped
  held j p hp hne := by
    obtain ⟨hj, hclean, hstop⟩ := h.held j p hp hne
    refine ⟨hj, hclean, fun snapshot hs => hstop snapshot ?_⟩
    exact (List.mem_or_eq_of_mem_set hs).resolve_right fun heq => hq snapshot heq.symm
  stops p hp hne := by
    rcases List.mem_or_eq_of_mem_set hp with hp | rfl
    · exact h.stops p hp hne
    · exact hlive hne
  finished hf := by
    have hf : s.task = .finished true := hf
    exact hinHand (by rw [isCut, hf]) (h.finished hf)
  early := h.early

/-- The session stays in hand when a call of `stop` that does not finalize moves on. -/
theorem InHand.set_of_not_finalizes {p q : StopPhase} (h : s.InHand) (hp : s.stops[i]? = some p)
    (hfin : p.finalizes = false) : InHand { s with stops := s.stops.set i q } := by
  refine h.imp id fun ⟨r, hr, hfr⟩ => ⟨r, mem_set_of_ne hp hr ?_, hfr⟩
  rintro rfl
  rw [hfin] at hfr
  cases hfr

/-- The session is in hand of a call of `stop` that goes on to finalize it. -/
theorem inHand_set {p q : StopPhase} (hp : s.stops[i]? = some p) (hfin : q.finalizes = true) :
    InHand { s with stops := s.stops.set i q } :=
  Or.inr ⟨q, List.mem_set (List.getElem?_eq_some_iff.mp hp).1 _, hfin⟩

/-- A call of `stop` returns from a session that has ended, or leaves it to another call. -/
theorem Sound.stopDone {p : StopPhase} (h : s.Sound) (hp : s.stops[i]? = some p)
    (hend : Terminal s.actor.lifecycle ∨ p.finalizes = false) :
    Sound { s with stops := s.stops.set i .done } := by
  refine h.setStop (fun _ => by simp) (fun hne => absurd rfl hne) fun _ hin => ?_
  rcases hend with hend | hfin
  · exact Or.inl hend
  · exact hin.set_of_not_finalizes hp hfin

/-- A call of `stop` ends in a complete session once all children are gone. -/
theorem Sound.finalizeCancelled (h : s.Sound) (hgone : ∀ p ∈ s.children, p = .gone) :
    Sound { s with actor := s.actor.finalizeCancelled, stops := s.stops.set i .done } where
  phase := h.phase.of_stopped
  request := h.request.mono fun _ => Or.inl (Or.inl rfl)
  terminal _ := ⟨rfl, rfl, hgone⟩
  stopped _ := Or.inl rfl
  held i p hp hne := absurd (hgone p (List.mem_of_getElem? hp)) hne
  stops p hp hne := by
    refine ⟨by simp [SessionActor.finalizeCancelled], by simp [SessionActor.finalizeCancelled], ?_⟩
    rcases List.mem_or_eq_of_mem_set hp with hp | rfl
    · exact (h.stops p hp hne).2.2
    · exact absurd rfl hne
  finished _ := Or.inl (Or.inl rfl)
  early := h.early

/-- A call of `stop` that is to finalize the session does so, or waits for its children. -/
theorem Sound.finalize (h : s.Sound) {p : StopPhase} (hp : s.stops[i]? = some p)
    (hdone : p ≠ .done) : (s.finalize i).Sound := by
  have hmem : p ∈ s.stops := List.mem_of_getElem? hp
  unfold Lifetime.finalize
  split
  · rename_i hstopped
    exact h.stopDone hp (Or.inl (h.stopped hstopped))
  · dsimp only
    split
    · rename_i hnil
      have hclosed : Sound
          { s with actor := { s.actor with inbox := (s.actor.inbox.close true).1 } } :=
        ⟨h.phase, h.request, h.terminal, h.stopped, h.held, h.stops, h.finished, h.early⟩
      exact hclosed.finalizeCancelled (i := i) (h.gone_of_children_nil hnil)
    · have hin : InHand { s with stops := s.stops.set i (.finalizing s.actor.children) } :=
        inHand_set hp rfl
      refine ⟨h.phase, h.request.mono fun _ => hin, h.terminal, h.stopped, fun j c hc hne => ?_,
        fun q hq hne => ?_, fun _ => hin, h.early⟩
      · obtain ⟨hj, hclean, hstop⟩ := h.held j c hc hne
        refine ⟨hj, hclean, fun snapshot hs => ?_⟩
        rcases List.mem_or_eq_of_mem_set hs with hs | hs
        · exact hstop snapshot hs
        · cases hs
          exact hj
      · exact h.stops p hmem hdone

/-- A step of the actor that has nothing to do with its lifecycle. -/
structure SameLife (a a' : SessionActor β κ) : Prop where
  lifecycle : a'.lifecycle = a.lifecycle
  outbox : a'.outbox.closed = a.outbox.closed
  stopped : a'.stopped = a.stopped
  children : a'.children = a.children

theorem sameLife_observeEvent (a : SessionActor β κ) (e : EventEnvelope β) :
    SameLife a (a.observeEvent e) := by
  unfold SessionActor.observeEvent
  split <;> exact ⟨rfl, rfl, rfl, rfl⟩

theorem sameLife_submitWithToken [DecidableEq κ] (a : SessionActor β κ) (e : EventEnvelope β)
    (token : CancellationToken) : SameLife a (a.submitWithToken e token).1 := by
  unfold SessionActor.submitWithToken
  cases hs : a.stamp e with
  | error err => exact ⟨rfl, rfl, rfl, rfl⟩
  | ok p =>
    obtain ⟨a', stamped⟩ := p
    obtain ⟨rfl, -⟩ := SessionActor.stamp_eq_ok hs
    dsimp only
    split
    · exact ⟨rfl, rfl, rfl, rfl⟩
    · exact ⟨rfl, rfl, rfl, rfl⟩
    · rename_i inbox r _
      dsimp only
      split
      · have hobs := sameLife_observeEvent { a.stampedActor with inbox := inbox } stamped
        exact ⟨hobs.lifecycle, hobs.outbox, hobs.stopped, hobs.children⟩
      · exact ⟨rfl, rfl, rfl, rfl⟩

theorem sameLife_submit [DecidableEq κ] (a : SessionActor β κ) (e : EventEnvelope β) :
    SameLife a (a.submit e).1 := by
  rcases a.submit_cases e with ⟨err, he⟩ | ⟨-, -, he⟩
  · rw [he]
    exact ⟨rfl, rfl, rfl, rfl⟩
  · rw [he]
    exact sameLife_submitWithToken _ _ _

theorem Sound.congr {a : SessionActor β κ} (h : s.Sound) (ha : SameLife s.actor a) :
    Sound { s with actor := a } where
  phase := by rw [ha.lifecycle]; exact h.phase
  request := h.request.mono (Or.imp_left fun hl => ha.lifecycle ▸ hl)
  terminal := by rw [ha.lifecycle, ha.outbox, ha.stopped]; exact h.terminal
  stopped := by rw [ha.lifecycle, ha.stopped]; exact h.stopped
  held := by rw [ha.children]; exact h.held
  stops := by rw [ha.lifecycle]; exact h.stops
  finished hf := (h.finished hf).imp_left fun hl => ha.lifecycle ▸ hl
  early := h.early

/-- The task moves on between two points of its loop. -/
theorem Sound.move {p : TaskPhase} (h : s.Sound) (hp : p = .looping ∨ p = .handling)
    (hs : s.task = .scheduled ∨ s.task = .looping ∨ s.task = .handling) (b : Bool) :
    Sound { s with task := p, cancelRequested := b } where
  phase := by
    have := h.phase
    rcases hp with rfl | rfl <;> rcases hs with hs | hs | hs <;> rwa [hs] at this
  request := by rcases hp with rfl | rfl <;> trivial
  terminal := h.terminal
  stopped := h.stopped
  held i q hq hne := by
    obtain ⟨hi, -, hstop⟩ := h.held i q hq hne
    refine ⟨hi, fun terminal snapshot heq => ?_, hstop⟩
    rcases hp with rfl | rfl <;> cases heq
  stops q hq hne := by
    obtain ⟨hnew, hrun, -⟩ := h.stops q hq hne
    exact ⟨hnew, hrun, by rcases hp with rfl | rfl <;> simp⟩
  finished hf := by rcases hp with rfl | rfl <;> cases hf
  early := by rcases hp with rfl | rfl <;> trivial

/-- A task that is cancelled before it runs, or while it cleans up, is done without
having completed its cleanup: the session has ended, or a call of `stop` finalizes it. -/
theorem Sound.cut (h : s.Sound) (hreq : s.cancelRequested = true)
    (hs : s.task = .scheduled ∨ ∃ terminal snapshot, s.task = .cleaning terminal snapshot) :
    Sound { s with task := .finished true, cancelRequested := false } := by
  have hin : s.InHand := by
    have := h.request
    rcases hs with hs | ⟨terminal, snapshot, hs⟩ <;> rw [hs] at this <;> exact this hreq
  refine ⟨?_, rfl, h.terminal, h.stopped, fun i p hp hne => ?_, fun p hp hne => ?_,
    fun _ => hin, trivial⟩
  · rcases hin with hterm | ⟨p, hp, hfp⟩
    · exact Or.inl hterm
    · have hne : p ≠ .done := by rintro rfl; cases hfp
      have hrun := (h.stops p hp hne).2.1
      have hphase : s.actor.lifecycle = .running ∨ s.actor.lifecycle = .stopping ∨
          Terminal s.actor.lifecycle := by
        have := h.phase
        rcases hs with hs | ⟨terminal, snapshot, hs⟩ <;> rwa [hs] at this
      exact (hphase.resolve_left hrun).symm
  · obtain ⟨hi, -, hstop⟩ := h.held i p hp hne
    exact ⟨hi, (fun _ _ heq => by cases heq), hstop⟩
  · obtain ⟨hnew, hrun, -⟩ := h.stops p hp hne
    exact ⟨hnew, hrun, by simp⟩

/-- The cancellation of the task is requested in its loop, or in a session that is in hand. -/
theorem Sound.cancelTask (h : s.Sound) (hunborn : s.task ≠ .unborn)
    (hfrom : s.isCut true = true → s.InHand) : s.cancelTask.Sound where
  phase := h.phase
  request := by
    change RequestOf (s.cancelRequested || !s.task.isFinished) s.InHand s.task
    have := h.request
    cases ht : s.task with
    | unborn => exact absurd ht hunborn
    | scheduled | cleaning => exact fun _ => hfrom (by rw [isCut, ht])
    | looping | handling => trivial
    | finished b =>
      rw [ht] at this
      rw [show s.cancelRequested = false from this]
      rfl
  terminal := h.terminal
  stopped := h.stopped
  held := h.held
  stops := h.stops
  finished := h.finished
  early := h.early

/-- The callback of a child that is done. -/
theorem Sound.childGone {a : SessionActor β κ} (h : s.Sound)
    (hrun : s.task ≠ .unborn ∧ s.task ≠ .scheduled)
    (hlife : a.lifecycle = s.actor.lifecycle) (hout : a.outbox.closed = s.actor.outbox.closed)
    (hstopped : a.stopped = s.actor.stopped) (hchildren : a.children = s.actor.children.erase i) :
    Sound { s with actor := a, children := s.children.set i .gone } where
  phase := by rw [hlife]; exact h.phase
  request := h.request.mono (Or.imp_left fun hl => hlife ▸ hl)
  terminal ht := by
    rw [hlife] at ht
    obtain ⟨ho, hst, hgone⟩ := h.terminal ht
    refine ⟨hout.trans ho, hstopped.trans hst, fun p hp => ?_⟩
    exact (List.mem_or_eq_of_mem_set hp).elim (hgone p) id
  stopped hs := by
    rw [hlife]
    exact h.stopped (hstopped ▸ hs)
  held j p hp hne := by
    have hij : j ≠ i := by
      rintro rfl
      obtain ⟨hlt, heq⟩ := List.getElem?_eq_some_iff.mp hp
      simp only [List.getElem_set_self] at heq
      exact hne heq.symm
    rw [List.getElem?_set_ne hij.symm] at hp
    obtain ⟨hj, hclean, hstop⟩ := h.held j p hp hne
    refine ⟨?_, hclean, hstop⟩
    rw [hchildren]
    exact (List.mem_erase_of_ne hij).mpr hj
  stops := by rw [hlife]; exact h.stops
  finished hf := (h.finished hf).imp_left fun hl => hlife ▸ hl
  early := by
    cases ht : s.task with
    | unborn => exact absurd ht hrun.1
    | scheduled => exact absurd ht hrun.2
    | _ => trivial

/-! ### Every undisturbed step keeps the invariant -/

/-- A session that is new has no task. -/
theorem Sound.unborn_of_new (h : s.Sound) (hnew : s.actor.lifecycle = .new) :
    s.task = .unborn := by
  have := h.phase
  rw [hnew] at this
  cases ht : s.task with
  | unborn => rfl
  | finished b => rw [ht] at this; cases b <;> simp [PhaseOf, Terminal] at this
  | _ => rw [ht] at this; simp [PhaseOf, Terminal] at this

theorem Sound.start {a : SessionActor β κ} (h : s.Sound) (ha : s.actor.start = .ok a) :
    Sound { s with actor := a, task := .scheduled } := by
  unfold SessionActor.start at ha
  split at ha
  · rename_i hnew
    cases ha
    have hunborn := h.unborn_of_new hnew
    have hreq := h.request
    rw [hunborn] at hreq
    have hnil : s.children = [] := by
      have := h.early
      rwa [hunborn] at this
    refine ⟨Or.inl rfl, fun hr => ?_, (fun ht => by rcases ht with ht | ht <;> cases ht),
      fun hs => ?_, ?_, ?_, (fun hf => by cases hf), by simp [ChildrenOf, hnil]⟩
    · rw [show s.cancelRequested = true from hr] at hreq
      cases hreq
    · have := h.stopped hs
      rw [hnew] at this
      rcases this with ht | ht <;> cases ht
    · intro i p hp
      rw [show s.children = [] from hnil] at hp
      cases hp
    · intro p hp hne
      exact absurd hnew (h.stops p hp hne).1
  · cases ha

theorem Sound.spawn {a : SessionActor β κ} (h : s.Sound)
    (hok : ∀ terminal snapshot, s.task = .cleaning terminal snapshot → s.actor.lifecycle ≠ .running)
    (ha : s.actor.spawn s.children.length = .ok a) :
    Sound { s with actor := a, children := s.children ++ [.alive] } := by
  unfold SessionActor.spawn at ha
  split at ha
  · rename_i hrun
    cases ha
    have hnterm : ¬Terminal s.actor.lifecycle := not_terminal_of_live (Or.inl hrun)
    refine ⟨h.phase, h.request, fun ht => absurd ht hnterm, h.stopped, fun i p hp hne => ?_,
      h.stops, h.finished, ?_⟩
    · by_cases hi : i < s.children.length
      · rw [List.getElem?_append_left hi] at hp
        obtain ⟨hmem, hclean, hstop⟩ := h.held i p hp hne
        exact ⟨List.mem_append_left _ hmem, hclean, hstop⟩
      · obtain ⟨hlt, -⟩ := List.getElem?_eq_some_iff.mp hp
        obtain rfl : i = s.children.length := by
          rw [List.length_append, List.length_singleton] at hlt
          omega
        -- nobody waits for children yet, for the session is running
        refine ⟨by simp, fun terminal snapshot ht => absurd hrun (hok terminal snapshot ht),
          fun snapshot hs => absurd hrun (h.stops _ hs (by simp)).2.1⟩
    · have hphase := h.phase
      have hearly := h.early
      cases ht : s.task with
      | unborn =>
        rw [ht, hrun] at hphase
        rcases hphase with ht | ht <;> cases ht
      | scheduled =>
        rw [ht] at hearly
        intro p hp
        rcases List.mem_append.mp hp with hp | hp
        · exact hearly p hp
        · exact List.mem_singleton.mp hp
      | _ => trivial
  · cases ha

theorem Sound.stopNew (h : s.Sound) (hnew : s.actor.lifecycle = .new) :
    Sound { s with actor := s.actor.stopNew } := by
  have hunborn := h.unborn_of_new hnew
  have hnil : s.children = [] := by
    have := h.early
    rwa [hunborn] at this
  refine ⟨h.phase.of_stopped, h.request.mono fun _ => Or.inl (Or.inl rfl),
    fun _ => ⟨rfl, rfl, ?_⟩, fun _ => Or.inl rfl, ?_, fun p hp hne => ?_,
    fun _ => Or.inl (Or.inl rfl), h.early⟩
  · rw [hnil]
    simp
  · intro i p hp
    rw [show s.children = [] from hnil] at hp
    cases hp
  · exact absurd hnew (h.stops p hp hne).1

theorem Sound.stopStarted (h : s.Sound) (graceful : Bool)
    (hlife : s.actor.lifecycle = .running ∨ s.actor.lifecycle = .stopping) :
    Sound { s with
      actor := s.actor.stopStarted graceful, stops := s.stops ++ [.waiting graceful] } := by
  have hnterm : ¬Terminal s.actor.lifecycle := not_terminal_of_live hlife
  have hunborn : s.task ≠ .unborn := by
    intro ht
    have := h.phase
    rw [ht] at this
    rcases hlife with hl | hl <;> rw [hl] at this <;> simp [PhaseOf] at this
  have hin : s.InHand → InHand { s with
      actor := s.actor.stopStarted graceful, stops := s.stops ++ [.waiting graceful] } := by
    rintro (ht | ⟨p, hp, hfin⟩)
    · exact absurd ht hnterm
    · exact Or.inr ⟨p, List.mem_append_left _ hp, hfin⟩
  refine ⟨?_, h.request.mono hin, (fun ht => by rcases ht with ht | ht <;> cases ht),
    fun hs => absurd (h.stopped hs) hnterm, fun i p hp hne => ?_, fun _ _ _ => ?_,
    fun hf => hin (h.finished hf), h.early⟩
  · have := h.phase
    cases ht : s.task with
    | unborn => exact absurd ht hunborn
    | finished b =>
      cases b with
      | true => exact Or.inr rfl
      | false => rw [ht] at this; exact absurd this hnterm
    | _ => exact Or.inr (Or.inl rfl)
  · obtain ⟨hi, hclean, hstop⟩ := h.held i p hp hne
    refine ⟨hi, hclean, fun snapshot hs => hstop snapshot ?_⟩
    rcases List.mem_append.mp hs with hs | hs
    · exact hs
    · cases List.mem_singleton.mp hs
  · exact ⟨by simp [SessionActor.stopStarted], by simp [SessionActor.stopStarted], hunborn⟩

/-- A call of `stop` that times out cancels the task, which it will finalize. -/
theorem Sound.stopTimedOut {b : Bool} (h : s.Sound) (hp : s.stops[i]? = some (.waiting b)) :
    (Lifetime.cancelTask { s with stops := s.stops.set i .timedOut }).Sound := by
  have hlive := h.stops _ (List.mem_of_getElem? hp) (by simp)
  have hset : Sound { s with stops := s.stops.set i .timedOut } :=
    h.setStop (fun _ => by simp) (fun _ => hlive) fun _ _ => inHand_set hp rfl
  exact hset.cancelTask hlive.2.2 fun _ => inHand_set hp rfl

theorem isCut_of_requested {requested : Bool} (h : s.isCut requested = true) :
    s.isCut true = true := by
  unfold isCut at h ⊢
  split at h
  · exact h
  · rfl
  · rfl
  · cases h
  · cases h
  · cases h

/-- The session is in hand of another call of `stop`, or has ended. -/
theorem Sound.spared (h : s.Sound)
    (hother : s.actor.stopped = true ∨ (s.stops.set i .done).any StopPhase.finalizes = true) :
    s.InHand ∧ ∀ q, InHand { s with stops := s.stops.set i q } := by
  rcases hother with hs | hany
  · exact ⟨Or.inl (h.stopped hs), fun _ => Or.inl (h.stopped hs)⟩
  · obtain ⟨p, hp, hfin⟩ := List.any_eq_true.mp hany
    obtain ⟨j, hj⟩ := List.mem_iff_getElem?.mp hp
    have hij : j ≠ i := by
      rintro rfl
      obtain ⟨hlt, heq⟩ := List.getElem?_eq_some_iff.mp hj
      rw [List.getElem_set_self] at heq
      rw [← heq] at hfin
      cases hfin
    rw [List.getElem?_set_ne hij.symm] at hj
    refine ⟨Or.inr ⟨p, List.mem_of_getElem? hj, hfin⟩, fun q => Or.inr ⟨p, ?_, hfin⟩⟩
    exact List.mem_of_getElem? ((List.getElem?_set_ne hij.symm).trans hj)

/-- A call that is cancelled in a `gather` will not finalize the session: where that matters,
the session is in hand without it. -/
theorem Sound.abandoned {p : StopPhase} {requested : Bool} (h : s.Sound)
    (hp : s.stops[i]? = some p) (hdone : p ≠ .done) (snapshot : Option (List ℕ))
    (hreq : s.cancelRequested = true → requested = true)
    (hok : (!s.actor.stopped && !(s.stops.set i .done).any StopPhase.finalizes &&
      s.isCut requested) = false) :
    Sound { s with stops := s.stops.set i (.abandoned snapshot) } ∧
      (s.isCut requested = true →
        s.InHand ∧ ∀ q, InHand { s with stops := s.stops.set i q }) := by
  have hin : s.isCut requested = true →
      s.InHand ∧ ∀ q, InHand { s with stops := s.stops.set i q } := by
    intro hcut
    rw [hcut, Bool.and_true, Bool.and_eq_false_iff, Bool.not_eq_false', Bool.not_eq_false'] at hok
    exact h.spared hok
  refine ⟨h.setStop (fun _ => by simp) (fun _ => h.stops p (List.mem_of_getElem? hp) hdone)
    fun hcut _ => (hin ?_).2 _, hin⟩
  cases hr : s.cancelRequested with
  | true =>
    rw [hreq hr]
    exact isCut_of_requested hcut
  | false =>
    rw [hr] at hcut
    unfold isCut at hcut ⊢
    split at hcut
    · exact hcut
    · cases hcut
    · cases hcut
    · cases hcut
    · cases hcut
    · cases hcut

/-- The caller of `stop` is cancelled where it waits. -/
theorem Sound.stopCancelled [DecidableEq κ] (h : s.Sound)
    (hok : s.forsakes (.stopCancelled i) = false) (hn : s.next (.stopCancelled i) = some t) :
    t.Sound := by
  simp only [next] at hn
  split at hn
  · rename_i hp
    cases hn
    exact h.stopDone hp (Or.inr rfl)
  · rename_i hp
    cases hn
    exact h.finalize hp (by simp)
  · rename_i hp
    cases hn
    simp only [forsakes, hp] at hok
    obtain ⟨hset, hin⟩ := h.abandoned hp (by simp) none (fun _ => rfl) hok
    have hlive := h.stops _ (List.mem_of_getElem? hp) (by simp)
    exact hset.cancelTask hlive.2.2 fun hcut => (hin hcut).2 _
  · rename_i snapshot hp
    cases hn
    simp only [forsakes, hp] at hok
    exact (h.abandoned hp (by simp) (some snapshot) id hok).1
  · rename_i hp
    cases hn
    simp only [forsakes, hp] at hok
    have hlive := h.stops _ (List.mem_of_getElem? hp) (by simp)
    exact h.cancelTask hlive.2.2 fun hcut =>
      ((h.abandoned hp (by simp) none (fun _ => rfl) hok).2 hcut).1
  · cases hn
    exact h
  · cases hn

/-- **Every undisturbed step keeps the invariant.** -/
theorem next_sound [DecidableEq κ] {l : Label β} (h : s.Sound) (hok : s.Undisturbed l)
    (hn : s.next l = some t) : t.Sound := by
  cases l with
  | start =>
    simp only [next] at hn
    split at hn
    · rename_i actor ha
      cases hn
      exact h.start ha
    · cases hn
  | submit e =>
    cases hn
    exact h.congr (sameLife_submit _ _)
  | begin =>
    simp only [next] at hn
    split_ifs at hn with hs hreq <;> cases hn
    · exact h.cut hreq (Or.inl hs)
    · exact h.move (Or.inl rfl) (Or.inl hs) s.cancelRequested
  | getMessage =>
    simp only [next] at hn
    split_ifs at hn with hs
    simp only [Option.map_eq_some_iff] at hn
    obtain ⟨p, -, rfl⟩ := hn
    have hmove := h.move (Or.inr rfl) (Or.inr (Or.inl hs.1)) s.cancelRequested
    exact hmove.congr ⟨rfl, rfl, rfl, rfl⟩
  | drained =>
    simp only [next] at hn
    split_ifs at hn with hs
    cases hn
    exact h.enterFinally _ (Or.inl hs.1)
  | handlerReturns =>
    simp only [next] at hn
    split_ifs at hn with hs
    cases hn
    exact h.move (Or.inl rfl) (Or.inr (Or.inr hs.1)) s.cancelRequested
  | handlerRaises e =>
    simp only [next] at hn
    split_ifs at hn with hs
    cases hn
    have hfail : Sound { s with actor := { s.actor with failure := some e } } :=
      h.congr ⟨rfl, rfl, rfl, rfl⟩
    exact hfail.enterFinally _ (Or.inr hs)
  | handlerSwallows =>
    simp only [next] at hn
    split_ifs at hn with hs
    cases hn
    have hmove := h.move (p := s.task) (Or.inr hs.1) (Or.inr (Or.inr hs.1)) false
    exact hmove
  | cancelled =>
    simp only [next] at hn
    split_ifs at hn with hs
    cases hn
    exact h.enterFinally _ hs.1
  | cleaned =>
    simp only [next] at hn
    split at hn
    · rename_i terminal snapshot hs
      split_ifs at hn with hall hreq <;> cases hn
      · exact h.cut hreq (Or.inr ⟨_, _, hs⟩)
      · refine sound_leaveFinally fun p hp => ?_
        by_contra hne
        obtain ⟨i, hi⟩ := List.mem_iff_getElem?.mp hp
        have := gone_of_allGone hall ((h.held i p hi hne).2.1 _ _ hs)
        rw [hi] at this
        exact hne (Option.some.inj this)
    · cases hn
  | spawn =>
    simp only [next] at hn
    split at hn <;> cases hn
    · rename_i actor ha
      refine h.spawn (fun terminal snapshot ht hrun => ?_) ha
      cases hok.1 (by rw [ht]; rfl) hrun
    · exact h
  | childEnds i e =>
    simp only [next] at hn
    split_ifs at hn with hs
    cases hn
    refine ⟨h.phase, h.request, fun ht => ?_, h.stopped, fun j p hp hne => ?_, h.stops,
      h.finished, ?_⟩
    · obtain ⟨ho, hst, hgone⟩ := h.terminal ht
      have := hgone _ (List.mem_of_getElem? hs.2)
      cases this
    · by_cases hij : j = i
      · subst hij
        exact h.held j .alive hs.2 (by simp)
      · rw [List.getElem?_set_ne (Ne.symm hij)] at hp
        exact h.held j p hp hne
    · have hearly := h.early
      cases ht : s.task with
      | unborn =>
        rw [ht] at hearly
        rw [show s.children = [] from hearly] at hs
        cases hs.2
      | scheduled => exact absurd ht hs.1
      | _ => trivial
  | childDone i =>
    simp only [next] at hn
    split at hn
    · rename_i e he
      cases hn
      have hrun : s.task ≠ .unborn ∧ s.task ≠ .scheduled := by
        have hearly := h.early
        refine ⟨fun ht => ?_, fun ht => ?_⟩ <;> rw [ht] at hearly
        · rw [show s.children = [] from hearly] at he
          cases he
        · cases hearly _ (List.mem_of_getElem? he)
      have hgone : Sound { s with
          actor := (s.actor.childDone i e).1, children := s.children.set i .gone } := by
        unfold SessionActor.childDone
        cases e with
        | none => exact h.childGone hrun rfl rfl rfl rfl
        | some e =>
          dsimp only
          split <;> exact h.childGone hrun rfl rfl rfl rfl
      split
      · rename_i hcancel
        obtain ⟨e, rfl, hlife⟩ := SessionActor.childDone_cancels hcancel
        refine hgone.cancelTask hrun.1 fun hcut => ?_
        have hcut : s.isCut true = true := hcut
        cases ht : s.task with
        | unborn => exact absurd ht hrun.1
        | scheduled => exact absurd ht hrun.2
        | cleaning terminal snapshot =>
          have := hok.1 (by rw [ht]; rfl) hlife
          simp [disturbs, he] at this
        | looping | handling => rw [isCut, ht] at hcut; cases hcut
        | finished b =>
          -- a session that runs has no task that is done
          have := h.phase
          rw [ht, hlife] at this
          cases b <;> simp [PhaseOf, Terminal] at this
      · exact hgone
    · cases hn
  | stop graceful =>
    simp only [next] at hn
    cases hlife : s.actor.lifecycle with
    | stopped | failed =>
      simp only [hlife] at hn
      cases hn
      have : s.actor.stop graceful = s.actor := by simp [SessionActor.stop, hlife]
      rw [this]
      exact h
    | new =>
      simp only [hlife] at hn
      cases hn
      have : s.actor.stop graceful = s.actor.stopNew := by simp [SessionActor.stop, hlife]
      rw [this]
      exact h.stopNew hlife
    | starting =>
      have := h.phase
      rw [hlife] at this
      cases ht : s.task with
      | finished b => rw [ht] at this; cases b <;> simp [PhaseOf, Terminal] at this
      | _ => rw [ht] at this; simp [PhaseOf, Terminal] at this
    | running | stopping =>
      simp only [hlife] at hn
      cases hn
      have hstop : s.actor.stop graceful = s.actor.stopStarted graceful := by
        simp [SessionActor.stop, hlife]
      have hstarted := h.stopStarted graceful (by simp [hlife])
      rw [hstop]
      cases graceful with
      | true => exact hstarted
      | false =>
        refine hstarted.cancelTask ?_ fun _ => Or.inr ⟨.waiting false, by simp, rfl⟩
        intro ht
        have := h.phase
        rw [show s.task = _ from ht, hlife] at this
        simp [PhaseOf] at this
  | stopReturns i =>
    simp only [next] at hn
    split at hn
    · rename_i b hp ht
      cases hn
      have := h.phase
      rw [ht] at this
      exact h.stopDone hp (Or.inl this)
    · rename_i hp ht
      cases hn
      exact h.stopDone hp (Or.inr rfl)
    · rename_i hp ht
      cases hn
      exact h.finalize hp (by simp)
    · rename_i hp ht
      cases hn
      exact h.finalize hp (by simp)
    · rename_i hp ht
      cases hn
      exact h.stopDone hp (Or.inr rfl)
    · cases hn
  | stopTimesOut i =>
    simp only [next] at hn
    split at hn
    · rename_i b hp
      cases hn
      exact h.stopTimedOut hp
    · cases hn
  | stopFinalized i =>
    simp only [next] at hn
    split at hn
    · rename_i snapshot hp
      split_ifs at hn with hall
      cases hn
      refine h.finalizeCancelled fun p hc => ?_
      by_contra hne
      obtain ⟨j, hj⟩ := List.mem_iff_getElem?.mp hc
      have := gone_of_allGone hall ((h.held j p hj hne).2.2 _ (List.mem_of_getElem? hp))
      rw [hj] at this
      exact hne (Option.some.inj this)
    · rename_i snapshot hp
      split_ifs at hn
      cases hn
      exact h.stopDone hp (Or.inr rfl)
    · cases hn
  | stopCancelled i => exact h.stopCancelled hok.2 hn

end Sound

/-! ### Runs -/

section Runs

variable [DecidableEq κ] {s : Lifetime β κ}

theorem sound_start (h : machine.start s) : s.Sound := by
  obtain ⟨htask, hreq, hchildren, hstops, _, _, _, _, _, _, _, hcreate⟩ := h
  obtain ⟨hnew, hstopped, -⟩ := SessionActor.create_new hcreate
  refine ⟨?_, ?_, ?_, ?_, ?_, ?_, ?_, ?_⟩
  · rw [htask]
    exact Or.inl hnew
  · rw [htask]
    exact hreq
  · rw [hnew]
    rintro (ht | ht) <;> cases ht
  · rw [hstopped]
    exact fun hs => by cases hs
  · intro i p hp
    rw [hchildren] at hp
    cases hp
  · simp [hstops]
  · simp [htask]
  · rw [htask]
    exact hchildren

theorem sound_of_reachableBy (h : machine.ReachableBy Undisturbed s) : s.Sound :=
  h.invariant (fun _ => sound_start) fun _ _ _ _ hs hok hn => next_sound hs hok hn

end Runs

end Lifetime

end Eeveetuber
