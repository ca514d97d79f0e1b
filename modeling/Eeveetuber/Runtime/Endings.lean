import Eeveetuber.Runtime.Lifecycle

/-!
# How a session ends, in any run

`Eeveetuber.Lifetime.Sound` is the invariant of the undisturbed runs. What is below holds in
all of them, failing children, forced calls of `stop` and cancelled callers included: the
stopped event is set exactly where the lifecycle is final, and a failed session has its
exception (`Eeveetuber.Lifetime.Settled`). A call of `stop` that is done has raised
(`Eeveetuber.Lifetime.raisedBy`), or leaves a session that has ended
(`Eeveetuber.Lifetime.Later.calls`).

How a session has ended changes in one case only. A forced call of `stop` whose caller is
cancelled finalizes the session although its task is alive, and the task may yet fail, or
the call overwrite that it has. In a run in which that does not happen
(`Eeveetuber.Lifetime.Unhurried`) the end of a session is for good:
`Eeveetuber.Lifetime.Frozen`.
-/

namespace Eeveetuber

open Foundation Machine

namespace Lifetime

variable {β κ : Type}

/-- The call of `stop` that a step makes raise: a graceful one passes the `CancelledError` of the
session's task on, or that of its caller, and one that was cancelled in a `gather` raises when
that is over. -/
def raisedBy (s : Lifetime β κ) : Label β → Option ℕ
  | .stopReturns i => match s.stops[i]?, s.task with
    | some (.waiting true), .finished true => some i
    | some (.abandoned none), _ => some i
    | _, _ => none
  | .stopFinalized i => match s.stops[i]? with
    | some (.abandoned _) => some i
    | _ => none
  | .stopCancelled i => match s.stops[i]? with
    | some (.waiting true) => some i
    | _ => none
  | _ => none

/-- What the lifecycle may be where the task stands, in any run. -/
def Stage (l : SessionLifecycle) : TaskPhase → Prop
  | .unborn => l = .new ∨ l = .stopped
  | .finished false => Terminal l
  | .scheduled | .looping | .handling | .cleaning _ _ | .finished true =>
    l = .running ∨ l = .stopping ∨ Terminal l

/-- **The invariant of all runs.** -/
structure Settled (s : Lifetime β κ) : Prop where
  stage : Stage s.actor.lifecycle s.task
  stopped : s.actor.stopped = true ↔ Terminal s.actor.lifecycle
  outbox : s.actor.stopped = true → s.actor.outbox.closed = true
  /-- Who fails, or is about to, has an exception. -/
  failure : (s.actor.lifecycle = .failed ∨ ∃ snapshot, s.task = .cleaning .failed snapshot) →
    s.actor.failure.isSome = true

/-- A later state of a session, reached by a step that makes the given call of `stop` raise. -/
structure Later (s t : Lifetime β κ) (r : Option ℕ) : Prop where
  sessionId : t.actor.sessionId = s.actor.sessionId
  stopped : s.actor.stopped = true → t.actor.stopped = true
  calls : ∀ i p, s.stops[i]? = some p → ∃ q, t.stops[i]? = some q ∧
    (q = .done → p = .done ∨ t.actor.stopped = true ∨ r = some i)

variable {s t : Lifetime β κ} {r : Option ℕ} {terminal : Ending} {i : ℕ}

/-- A task that is done without `CancelledError` has set the stopped event. -/
theorem Settled.stopped_of_finished (h : s.Settled) (ht : s.task = .finished false) :
    s.actor.stopped = true := by
  have hstage := h.stage
  rw [ht] at hstage
  exact h.stopped.mpr hstage

/-- A session that is new has no task. -/
theorem Settled.unborn_of_new (h : s.Settled) (hnew : s.actor.lifecycle = .new) :
    s.task = .unborn := by
  have hstage := h.stage
  rw [hnew] at hstage
  cases ht : s.task with
  | unborn => rfl
  | finished b => rw [ht] at hstage; cases b <;> simp [Stage, Terminal] at hstage
  | _ => rw [ht] at hstage; simp [Stage, Terminal] at hstage

/-- What may be said of the lifecycle while the task has not ended by itself. -/
theorem Stage.of_live {l : SessionLifecycle} {task : TaskPhase}
    (h : l = .running ∨ l = .stopping ∨ Terminal l) (hborn : task ≠ .unborn)
    (hf : task ≠ .finished false) : Stage l task := by
  cases task with
  | unborn => exact absurd rfl hborn
  | finished b =>
    cases b with
    | false => exact absurd rfl hf
    | true => exact h
  | scheduled | looping | handling | cleaning => exact h

/-! ### What does not end the session -/

/-- Nothing that bears on how the session ends differs. -/
structure Alike (s t : Lifetime β κ) : Prop where
  sessionId : t.actor.sessionId = s.actor.sessionId
  lifecycle : t.actor.lifecycle = s.actor.lifecycle
  stopped : t.actor.stopped = s.actor.stopped
  outbox : t.actor.outbox.closed = s.actor.outbox.closed
  failure : t.actor.failure = s.actor.failure
  stops : t.stops = s.stops

theorem Later.of_alike (h : s.Alike t) : s.Later t r :=
  ⟨h.sessionId, fun hs => h.stopped.trans hs, fun _ p hp => ⟨p, by rw [h.stops]; exact hp, Or.inl⟩⟩

/-- The task goes to another point, where the session may be as it is. -/
theorem Settled.of_alike (h : s.Settled) (ha : s.Alike t) (hstage : Stage s.actor.lifecycle t.task)
    (hfailure : (∃ snapshot, t.task = .cleaning .failed snapshot) →
      s.actor.failure.isSome = true) : t.Settled where
  stage := by rw [ha.lifecycle]; exact hstage
  stopped := by rw [ha.stopped, ha.lifecycle]; exact h.stopped
  outbox := by rw [ha.stopped, ha.outbox]; exact h.outbox
  failure := by
    rw [ha.lifecycle, ha.failure]
    rintro (hf | hf)
    · exact h.failure (Or.inl hf)
    · exact hfailure hf

/-- The task stays where it is. -/
theorem Settled.of_still (h : s.Settled) (ha : s.Alike t) (ht : t.task = s.task) : t.Settled := by
  refine h.of_alike ha (ht ▸ h.stage) fun hc => h.failure (Or.inr ?_)
  rwa [ht] at hc

theorem alike_submit [DecidableEq κ] (s : Lifetime β κ) (e : EventEnvelope β) :
    s.Alike { s with actor := (s.actor.submit e).1 } := by
  have hobs : ∀ (a : SessionActor β κ) (e : EventEnvelope β),
      (a.observeEvent e).sessionId = a.sessionId ∧ (a.observeEvent e).failure = a.failure := by
    intro a e
    unfold SessionActor.observeEvent
    split <;> exact ⟨rfl, rfl⟩
  have hid : (s.actor.submit e).1.sessionId = s.actor.sessionId ∧
      (s.actor.submit e).1.failure = s.actor.failure := by
    rcases s.actor.submit_cases e with ⟨err, he⟩ | ⟨-, -, he⟩
    · rw [he]
      exact ⟨rfl, rfl⟩
    · rw [he]
      unfold SessionActor.submitWithToken
      cases hs : s.actor.stamp e with
      | error err => exact ⟨rfl, rfl⟩
      | ok p =>
        obtain ⟨a', stamped⟩ := p
        obtain ⟨rfl, -⟩ := SessionActor.stamp_eq_ok hs
        dsimp only
        split
        · exact ⟨rfl, rfl⟩
        · exact ⟨rfl, rfl⟩
        · rename_i inbox r _
          dsimp only
          split
          · exact hobs { s.actor.stampedActor with inbox := inbox } stamped
          · exact ⟨rfl, rfl⟩
  have hlife := sameLife_submit s.actor e
  exact ⟨hid.1, hlife.lifecycle, hlife.stopped, hlife.outbox, hid.2, rfl⟩

/-! ### What ends it -/

/-- The `finally` block ends with the session. -/
theorem settled_leaveFinally
    (hfailure : terminal = .failed → s.actor.failure.isSome = true) :
    (s.leaveFinally terminal).Settled ∧ s.Later (s.leaveFinally terminal) r := by
  refine ⟨⟨terminal.2, iff_of_true rfl terminal.2, fun _ => rfl, ?_⟩,
    ⟨rfl, fun _ => rfl, fun i p hp => ⟨p, hp, Or.inl⟩⟩⟩
  rintro (hf | ⟨snapshot, hf⟩)
  · exact hfailure (Subtype.ext hf)
  · cases hf

/-- The loop ends. -/
theorem Settled.enterFinally (h : s.Settled) (hloop : s.task = .looping ∨ s.task = .handling)
    (hfailure : terminal = .failed → s.actor.failure.isSome = true) :
    (s.enterFinally terminal).Settled ∧ s.Later (s.enterFinally terminal) r := by
  have hstage : s.actor.lifecycle = .running ∨ s.actor.lifecycle = .stopping ∨
      Terminal s.actor.lifecycle := by
    have := h.stage
    rcases hloop with hl | hl <;> rwa [hl] at this
  have hmid : s.Alike { s with actor := s.actor.enterFinally, cancelRequested := false } :=
    ⟨rfl, rfl, rfl, rfl, rfl, rfl⟩
  unfold Lifetime.enterFinally
  dsimp only
  split
  · obtain ⟨hsettled, hlater⟩ := settled_leaveFinally (r := r)
      (s := { s with actor := s.actor.enterFinally, cancelRequested := false }) hfailure
    exact ⟨hsettled, hlater.sessionId, hlater.stopped, hlater.calls⟩
  · have hclean : s.Alike { s with
        actor := s.actor.enterFinally, cancelRequested := false,
        task := .cleaning terminal s.actor.enterFinally.children } := ⟨rfl, rfl, rfl, rfl, rfl, rfl⟩
    refine ⟨h.of_alike hclean hstage ?_, .of_alike hclean⟩
    rintro ⟨_, ⟨⟩⟩
    exact hfailure rfl

/-! ### The calls of `stop` -/

/-- A call of `stop` moves on, where the session has ended if it is done. -/
theorem calls_set {q : StopPhase} (hi : i < s.stops.length)
    (hdone : q = .done → t.actor.stopped = true ∨ r = some i)
    (hstops : t.stops = s.stops.set i q) : ∀ j p, s.stops[j]? = some p → ∃ q, t.stops[j]? = some q ∧
      (q = .done → p = .done ∨ t.actor.stopped = true ∨ r = some j) := by
  intro j p hp
  rw [hstops]
  by_cases hij : j = i
  · subst hij
    exact ⟨q, List.getElem?_set_self hi, fun hq => Or.inr (hdone hq)⟩
  · exact ⟨p, by rw [List.getElem?_set_ne (Ne.symm hij)]; exact hp, Or.inl⟩

/-- A call of `stop` moves on, and nothing else does. -/
theorem Settled.setStop {p q : StopPhase} (h : s.Settled) (hp : s.stops[i]? = some p)
    (hdone : q = .done → s.actor.stopped = true ∨ r = some i) :
    Settled { s with stops := s.stops.set i q } ∧
      s.Later { s with stops := s.stops.set i q } r :=
  ⟨⟨h.stage, h.stopped, h.outbox, h.failure⟩, rfl, id,
    calls_set (List.getElem?_eq_some_iff.mp hp).1 hdone rfl⟩

/-- `_finalize_cancelled_before_run` ends the session. -/
theorem Settled.finalizeCancelled {p : StopPhase} (h : s.Settled) (hp : s.stops[i]? = some p) :
    Settled { s with actor := s.actor.finalizeCancelled, stops := s.stops.set i .done } ∧
      s.Later { s with actor := s.actor.finalizeCancelled, stops := s.stops.set i .done } r := by
  refine ⟨⟨?_, iff_of_true rfl (Or.inl rfl), fun _ => rfl, ?_⟩, rfl, fun _ => rfl,
    calls_set (List.getElem?_eq_some_iff.mp hp).1 (fun _ => Or.inl rfl) rfl⟩
  · show Stage .stopped s.task
    cases s.task with
    | unborn => exact Or.inr rfl
    | finished b => cases b <;> simp [Stage, Terminal]
    | _ => exact Or.inr (Or.inr (Or.inl rfl))
  · rintro (hf | hf)
    · cases hf
    · exact h.failure (Or.inr hf)

/-- A call of `stop` is to finalize the session. -/
theorem Settled.finalize {p : StopPhase} (h : s.Settled) (hp : s.stops[i]? = some p) :
    (s.finalize i).Settled ∧ s.Later (s.finalize i) r := by
  unfold Lifetime.finalize
  split
  · rename_i hs
    exact h.setStop hp fun _ => Or.inl hs
  · have hclosed : s.Alike
        { s with actor := { s.actor with inbox := (s.actor.inbox.close true).1 } } :=
      ⟨rfl, rfl, rfl, rfl, rfl, rfl⟩
    have hmid := h.of_still hclosed rfl
    dsimp only
    split
    · obtain ⟨hsettled, hlater⟩ := hmid.finalizeCancelled (r := r) hp
      exact ⟨hsettled, hlater.sessionId, hlater.stopped, hlater.calls⟩
    · obtain ⟨hsettled, hlater⟩ :=
        hmid.setStop (q := .finalizing s.actor.children) (r := r) hp fun hq => by cases hq
      exact ⟨hsettled, hlater.sessionId, hlater.stopped, hlater.calls⟩

/-- `stop` is called on a session that is running or being stopped. -/
theorem Settled.stopStarted (h : s.Settled) (graceful : Bool)
    (hlife : s.actor.lifecycle = .running ∨ s.actor.lifecycle = .stopping) :
    Settled { s with
        actor := s.actor.stopStarted graceful, stops := s.stops ++ [.waiting graceful] } ∧
      s.Later { s with
        actor := s.actor.stopStarted graceful, stops := s.stops ++ [.waiting graceful] } r := by
  have hlive : s.actor.stopped ≠ true := fun hs =>
    not_terminal_of_live hlife (h.stopped.mp hs)
  have hstage := h.stage
  refine ⟨⟨.of_live (Or.inr (Or.inl rfl)) (fun ht => ?_) fun ht => ?_,
    iff_of_false hlive (not_terminal_of_live (Or.inr rfl)), fun hs => absurd hs hlive, ?_⟩,
    rfl, fun hs => absurd hs hlive, fun j p hp => ?_⟩
  · rw [show s.task = _ from ht] at hstage
    rcases hlife with hl | hl <;> rw [hl] at hstage <;> rcases hstage with hc | hc <;> cases hc
  · rw [show s.task = _ from ht] at hstage
    exact not_terminal_of_live hlife hstage
  · rintro (hf | hf)
    · cases hf
    · exact h.failure (Or.inr hf)
  · obtain ⟨hlt, -⟩ := List.getElem?_eq_some_iff.mp hp
    exact ⟨p, by rw [List.getElem?_append_left hlt]; exact hp, Or.inl⟩

/-- A request to cancel the task ends nothing yet. -/
theorem Settled.cancelTask (h : s.Settled) : s.cancelTask.Settled :=
  ⟨h.stage, h.stopped, h.outbox, h.failure⟩

theorem Later.cancelTask (h : s.Later t r) : s.Later t.cancelTask r :=
  ⟨h.sessionId, h.stopped, h.calls⟩

/-! ### Every step -/

/-- The callback of a child that is done. -/
theorem Settled.childDone (h : s.Settled) (e : Option SessionError) :
    Settled { s with actor := (s.actor.childDone i e).1, children := s.children.set i .gone } ∧
      s.Later { s with actor := (s.actor.childDone i e).1, children := s.children.set i .gone }
        r := by
  unfold SessionActor.childDone
  cases e with
  | none =>
    exact ⟨h.of_still ⟨rfl, rfl, rfl, rfl, rfl, rfl⟩ rfl,
      .of_alike ⟨rfl, rfl, rfl, rfl, rfl, rfl⟩⟩
  | some e =>
    dsimp only
    split
    · exact ⟨⟨h.stage, h.stopped, h.outbox, fun _ => rfl⟩, rfl, id, fun j p hp => ⟨p, hp, Or.inl⟩⟩
    · exact ⟨h.of_still ⟨rfl, rfl, rfl, rfl, rfl, rfl⟩ rfl,
        .of_alike ⟨rfl, rfl, rfl, rfl, rfl, rfl⟩⟩

variable [DecidableEq κ]

/-- A call of `stop` returns, or raises. -/
theorem Settled.stopReturns (h : s.Settled) (hn : s.next (.stopReturns i) = some t) :
    t.Settled ∧ s.Later t (s.raisedBy (.stopReturns i)) := by
  simp only [next] at hn
  split at hn
  · rename_i b hp ht
    cases hn
    exact h.setStop hp fun _ => Or.inl (h.stopped_of_finished ht)
  · rename_i hp ht
    cases hn
    exact h.setStop hp fun _ => Or.inr (by simp only [raisedBy, hp, ht])
  · rename_i hp ht
    cases hn
    exact h.finalize hp
  · rename_i b hp ht
    cases hn
    exact h.finalize hp
  · rename_i b hp ht
    cases hn
    exact h.setStop hp fun _ => Or.inr (by simp only [raisedBy, hp, ht])
  · cases hn

/-- A call of `stop` has waited for the children. -/
theorem Settled.stopFinalized (h : s.Settled) (hn : s.next (.stopFinalized i) = some t) :
    t.Settled ∧ s.Later t (s.raisedBy (.stopFinalized i)) := by
  simp only [next] at hn
  split at hn
  · rename_i snapshot hp
    split_ifs at hn
    cases hn
    exact h.finalizeCancelled hp
  · rename_i snapshot hp
    split_ifs at hn
    cases hn
    exact h.setStop hp fun _ => Or.inr (by simp only [raisedBy, hp])
  · cases hn

/-- The caller of `stop` is cancelled. -/
theorem Settled.stopCancelled (h : s.Settled) (hn : s.next (.stopCancelled i) = some t) :
    t.Settled ∧ s.Later t (s.raisedBy (.stopCancelled i)) := by
  simp only [next] at hn
  split at hn
  · rename_i hp
    cases hn
    exact h.setStop hp fun _ => Or.inr (by simp only [raisedBy, hp])
  · rename_i hp
    cases hn
    exact h.finalize hp
  · rename_i hp
    cases hn
    obtain ⟨hsettled, hlater⟩ := h.setStop (q := .abandoned none)
      (r := s.raisedBy (.stopCancelled i)) hp fun hq => by cases hq
    exact ⟨hsettled.cancelTask, hlater.cancelTask⟩
  · rename_i snapshot hp
    cases hn
    exact h.setStop hp fun hq => by cases hq
  · cases hn
    exact ⟨h.cancelTask, Later.cancelTask (.of_alike ⟨rfl, rfl, rfl, rfl, rfl, rfl⟩)⟩
  · cases hn
    exact ⟨h, .of_alike ⟨rfl, rfl, rfl, rfl, rfl, rfl⟩⟩
  · cases hn

/-- **One step**: the invariant is kept, and what has ended has ended. -/
theorem next_settled {l : Label β} (h : s.Settled) (hn : s.next l = some t) :
    t.Settled ∧ s.Later t (s.raisedBy l) := by
  have hstage := h.stage
  cases l with
  | start =>
    simp only [next, SessionActor.start] at hn
    split at hn
    · rename_i a ha
      split at ha <;> cases ha
      rename_i hnew
      cases hn
      -- a session that is new has not ended
      have hlive : s.actor.stopped ≠ true := by
        intro hs
        have := h.stopped.mp hs
        rw [hnew] at this
        rcases this with hc | hc <;> cases hc
      refine ⟨⟨Or.inl rfl, iff_of_false hlive (not_terminal_of_live (Or.inl rfl)),
        fun hs => absurd hs hlive, ?_⟩, rfl, fun hs => absurd hs hlive,
        fun j p hp => ⟨p, hp, Or.inl⟩⟩
      rintro (hf | ⟨snapshot, hf⟩) <;> cases hf
    · cases hn
  | submit e =>
    cases hn
    have ha := alike_submit s e
    exact ⟨h.of_still ha rfl, .of_alike ha⟩
  | begin =>
    simp only [next] at hn
    split_ifs at hn with hs hreq <;> cases hn
    all_goals rw [hs] at hstage
    · have ha : s.Alike { s with task := .finished true, cancelRequested := false } :=
        ⟨rfl, rfl, rfl, rfl, rfl, rfl⟩
      exact ⟨h.of_alike ha hstage (by rintro ⟨_, hc⟩; cases hc), .of_alike ha⟩
    · have ha : s.Alike { s with task := .looping } := ⟨rfl, rfl, rfl, rfl, rfl, rfl⟩
      exact ⟨h.of_alike ha hstage (by rintro ⟨_, hc⟩; cases hc), .of_alike ha⟩
  | getMessage =>
    simp only [next] at hn
    split_ifs at hn with hs
    simp only [Option.map_eq_some_iff] at hn
    obtain ⟨p, -, rfl⟩ := hn
    rw [hs.1] at hstage
    have ha : s.Alike { s with actor := { s.actor with inbox := p.1 }, task := .handling } :=
      ⟨rfl, rfl, rfl, rfl, rfl, rfl⟩
    exact ⟨h.of_alike ha hstage (by rintro ⟨_, hc⟩; cases hc), .of_alike ha⟩
  | drained =>
    simp only [next] at hn
    split_ifs at hn with hs
    cases hn
    exact h.enterFinally (Or.inl hs.1) (fun hf => by cases hf)
  | handlerReturns =>
    simp only [next] at hn
    split_ifs at hn with hs
    cases hn
    rw [hs.1] at hstage
    have ha : s.Alike { s with task := .looping } := ⟨rfl, rfl, rfl, rfl, rfl, rfl⟩
    exact ⟨h.of_alike ha hstage (by rintro ⟨_, hc⟩; cases hc), .of_alike ha⟩
  | handlerRaises e =>
    simp only [next] at hn
    split_ifs at hn with hs
    cases hn
    have hraised : Settled { s with actor := { s.actor with failure := some e } } :=
      ⟨h.stage, h.stopped, h.outbox, fun _ => rfl⟩
    obtain ⟨hsettled, hlater⟩ := hraised.enterFinally
      (r := s.raisedBy (.handlerRaises e)) (Or.inr hs) fun _ : Ending.failed = .failed => rfl
    exact ⟨hsettled, hlater.sessionId, hlater.stopped, hlater.calls⟩
  | handlerSwallows =>
    simp only [next] at hn
    split_ifs at hn
    cases hn
    have ha : s.Alike { s with cancelRequested := false } := ⟨rfl, rfl, rfl, rfl, rfl, rfl⟩
    exact ⟨h.of_still ha rfl, .of_alike ha⟩
  | cancelled =>
    simp only [next] at hn
    split_ifs at hn with hs
    cases hn
    refine h.enterFinally hs.1 fun hf => ?_
    rw [cancelledTerminal] at hf
    split_ifs at hf with hfailure
    · exact hfailure
    · cases hf
  | cleaned =>
    simp only [next] at hn
    split at hn
    · rename_i terminal snapshot hs
      rw [hs] at hstage
      split_ifs at hn with hall hreq <;> cases hn
      · have ha : s.Alike { s with task := .finished true, cancelRequested := false } :=
          ⟨rfl, rfl, rfl, rfl, rfl, rfl⟩
        exact ⟨h.of_alike ha hstage (by rintro ⟨_, hc⟩; cases hc), .of_alike ha⟩
      · refine settled_leaveFinally fun hf => h.failure (Or.inr ⟨snapshot, ?_⟩)
        rw [hs, hf]
    · cases hn
  | spawn =>
    simp only [next, SessionActor.spawn] at hn
    split at hn
    · rename_i a ha
      split at ha <;> cases ha
      cases hn
      have ha : s.Alike { s with
          actor := { s.actor with children := s.actor.children ++ [s.children.length] },
          children := s.children ++ [.alive] } := ⟨rfl, rfl, rfl, rfl, rfl, rfl⟩
      exact ⟨h.of_still ha rfl, .of_alike ha⟩
    · cases hn
      exact ⟨h, .of_alike ⟨rfl, rfl, rfl, rfl, rfl, rfl⟩⟩
  | childEnds i e =>
    simp only [next] at hn
    split_ifs at hn
    cases hn
    have ha : s.Alike { s with children := s.children.set i (.ended e) } :=
      ⟨rfl, rfl, rfl, rfl, rfl, rfl⟩
    exact ⟨h.of_still ha rfl, .of_alike ha⟩
  | childDone i =>
    simp only [next] at hn
    split at hn
    · rename_i e _
      cases hn
      obtain ⟨hsettled, hlater⟩ := h.childDone (i := i) (r := s.raisedBy (.childDone i)) e
      split
      · exact ⟨hsettled.cancelTask, hlater.cancelTask⟩
      · exact ⟨hsettled, hlater⟩
    · cases hn
  | stop graceful =>
    simp only [next] at hn
    cases hlife : s.actor.lifecycle with
    | stopped | failed =>
      simp only [hlife, SessionActor.stop] at hn
      cases hn
      exact ⟨h, .of_alike ⟨rfl, rfl, rfl, rfl, rfl, rfl⟩⟩
    | new =>
      simp only [hlife, SessionActor.stop] at hn
      cases hn
      -- nor does it have a task
      have hunborn := h.unborn_of_new hlife
      refine ⟨⟨?_, iff_of_true rfl (Or.inl rfl), fun _ => rfl, ?_⟩, rfl, fun _ => rfl,
        fun j p hp => ⟨p, hp, Or.inl⟩⟩
      · show Stage .stopped s.task
        rw [hunborn]
        exact Or.inr rfl
      · rintro (hf | ⟨snapshot, hf⟩)
        · cases hf
        · rw [show s.task = _ from hf] at hunborn
          cases hunborn
    | starting =>
      -- no settled session is starting
      rw [hlife] at hstage
      cases ht : s.task with
      | finished b => rw [ht] at hstage; cases b <;> simp [Stage, Terminal] at hstage
      | _ => rw [ht] at hstage; simp [Stage, Terminal] at hstage
    | running | stopping =>
      simp only [hlife, SessionActor.stop] at hn
      cases hn
      obtain ⟨hsettled, hlater⟩ := h.stopStarted (r := s.raisedBy (.stop graceful)) graceful
        (by simp [hlife])
      split
      · exact ⟨hsettled, hlater⟩
      · exact ⟨hsettled.cancelTask, hlater.cancelTask⟩
  | stopReturns i => exact h.stopReturns hn
  | stopTimesOut i =>
    simp only [next] at hn
    split at hn
    · rename_i b hp
      cases hn
      obtain ⟨hsettled, hlater⟩ := h.setStop (q := .timedOut)
        (r := s.raisedBy (.stopTimesOut i)) hp fun hq => by cases hq
      exact ⟨hsettled.cancelTask, hlater.cancelTask⟩
    · cases hn
  | stopFinalized i => exact h.stopFinalized hn
  | stopCancelled i => exact h.stopCancelled hn

theorem settled_start (h : machine.start s) : s.Settled := by
  obtain ⟨htask, -, -, -, _, _, _, _, _, _, _, hcreate⟩ := h
  obtain ⟨hnew, hstopped, -⟩ := SessionActor.create_new hcreate
  refine ⟨?_, ?_, ?_, ?_⟩
  · rw [htask]
    exact Or.inl hnew
  · rw [hnew, hstopped]
    exact iff_of_false Bool.false_ne_true (by rintro (hc | hc) <;> cases hc)
  · rw [hstopped]
    exact fun hs => by cases hs
  · rw [hnew, htask]
    rintro (hf | ⟨snapshot, hf⟩) <;> cases hf

/-- **Run**: every session is settled. -/
theorem settled_of_reachable (h : machine.Reachable s) : s.Settled :=
  h.invariant (fun _ => settled_start) fun _ _ _ _ hs _ hn => (next_settled hs hn).1

/-! ### An end that is for good -/

/-- Whether a step cancels the caller of a forced `stop` while the task of the session is alive:
the call then finalizes the session before its time. -/
def finalizesEarly (s : Lifetime β κ) : Label β → Bool
  | .stopCancelled i => decide (s.stops[i]? = some (.waiting false)) && !s.task.isFinished
  | _ => false

/-- **The condition**: no caller of a forced `stop` is cancelled while the task of the session is
alive. -/
def Unhurried (s : Lifetime β κ) (l : Label β) : Prop := s.finalizesEarly l = false

instance (s : Lifetime β κ) (l : Label β) : Decidable (s.Unhurried l) :=
  inferInstanceAs (Decidable (s.finalizesEarly l = false))

/-- **The invariant of the unhurried runs**: nobody ends a session but its task, or, after it, a
call of `stop`. -/
structure Timely (s : Lifetime β κ) : Prop where
  ended : s.actor.stopped = true → s.task = .unborn ∨ s.task.isFinished = true
  finalizing : ∀ snapshot, .finalizing snapshot ∈ s.stops → s.task = .finished true
  cut : s.task = .finished true → s.actor.lifecycle ≠ .failed

/-- How a session has ended is how it stays. -/
def Frozen (s t : Lifetime β κ) : Prop := s.actor.stopped = true →
  t.actor.lifecycle = s.actor.lifecycle ∧ t.actor.failure = s.actor.failure

section Unhurried

omit [DecidableEq κ]

/-- While its task is alive, and after it has been born, a session has not ended. -/
theorem Timely.not_stopped (h : s.Timely) (hborn : s.task ≠ .unborn)
    (hf : s.task.isFinished = false) : s.actor.stopped = false := by
  rw [Bool.eq_false_iff]
  intro hs
  rcases h.ended hs with ht | ht
  · exact hborn ht
  · rw [hf] at ht
    cases ht

/-- A step of a task that is alive. -/
theorem Timely.of_live (h : s.Timely) (hs : s.Settled) (hborn : s.task ≠ .unborn)
    (hf : s.task.isFinished = false) (hstops : t.stops = s.stops)
    (hended : t.actor.stopped = true → t.task = .finished false)
    (hlife : t.task = .finished true → t.actor.lifecycle = s.actor.lifecycle) :
    t.Timely ∧ s.Frozen t := by
  have hlive := h.not_stopped hborn hf
  refine ⟨⟨fun ht => Or.inr (by rw [hended ht]; rfl), fun snapshot hmem => ?_, fun ht hl => ?_⟩,
    fun hst => ?_⟩
  · rw [hstops] at hmem
    rw [h.finalizing snapshot hmem] at hf
    cases hf
  · rw [hs.stopped.mpr (Or.inr ((hlife ht).symm.trans hl))] at hlive
    cases hlive
  · rw [hlive] at hst
    cases hst

/-- A step that leaves the task, the calls of `stop` and the end of the session alone. -/
theorem Timely.of_still (h : s.Timely) (hs : s.Settled) (htask : t.task = s.task)
    (hlife : t.actor.lifecycle = s.actor.lifecycle) (hstopped : t.actor.stopped = s.actor.stopped)
    (hstops : ∀ snapshot, .finalizing snapshot ∈ t.stops → .finalizing snapshot ∈ s.stops)
    (hfailure : s.actor.lifecycle ≠ .running → t.actor.failure = s.actor.failure) :
    t.Timely ∧ s.Frozen t := by
  refine ⟨⟨fun ht => ?_, fun snapshot hmem => ?_, fun ht => ?_⟩, fun hst => ⟨hlife, hfailure ?_⟩⟩
  · rw [htask]
    exact h.ended (hstopped ▸ ht)
  · rw [htask]
    exact h.finalizing snapshot (hstops snapshot hmem)
  · rw [hlife]
    exact h.cut (htask ▸ ht)
  · exact fun hrun => not_terminal_of_live (Or.inl hrun) (hs.stopped.mp hst)

/-- A call of `stop` moves on to a phase in which it does not wait for children. -/
theorem Timely.setStop {q : StopPhase} (h : s.Timely) (hs : s.Settled)
    (hq : ∀ snapshot, q ≠ .finalizing snapshot) :
    Timely { s with stops := s.stops.set i q } ∧ s.Frozen { s with stops := s.stops.set i q } :=
  h.of_still hs rfl rfl rfl (fun snapshot hmem =>
    (List.mem_or_eq_of_mem_set hmem).resolve_right fun heq => hq snapshot heq.symm) fun _ => rfl

/-- `_finalize_cancelled_before_run`, of a task that was cancelled and is done. -/
theorem Timely.finalizeCancelled (h : s.Timely) (hs : s.Settled) (ht : s.task = .finished true) :
    Timely { s with actor := s.actor.finalizeCancelled, stops := s.stops.set i .done } ∧
      s.Frozen { s with actor := s.actor.finalizeCancelled, stops := s.stops.set i .done } := by
  refine ⟨⟨fun _ => Or.inr (by rw [show s.task = _ from ht]; rfl), fun _ _ => ht,
    fun _ hl => by cases hl⟩, fun hst => ⟨?_, rfl⟩⟩
  -- it has ended before, and not by failing, for its task was cancelled
  exact ((hs.stopped.mp hst).resolve_right (h.cut ht)).symm

/-- A call of `stop` finds the task done, and finalizes the session. -/
theorem Timely.finalize (h : s.Timely) (hs : s.Settled) (hf : s.task.isFinished = true) :
    (s.finalize i).Timely ∧ s.Frozen (s.finalize i) := by
  unfold Lifetime.finalize
  split
  · exact h.setStop hs (by simp)
  · rename_i hlive
    have ht : s.task = .finished true := by
      cases htask : s.task with
      | finished b =>
        cases b with
        | true => rfl
        | false => exact absurd (hs.stopped_of_finished htask) hlive
      | _ => rw [htask] at hf; cases hf
    dsimp only
    split
    · obtain ⟨⟨hended, hfin, hcut⟩, -⟩ := h.finalizeCancelled (i := i) hs ht
      exact ⟨⟨hended, hfin, hcut⟩, fun hst => absurd hst hlive⟩
    · exact ⟨⟨fun hst => absurd hst hlive, fun _ _ => ht, h.cut⟩, fun hst => absurd hst hlive⟩

theorem Timely.cancelTask (h : s.Timely) : s.cancelTask.Timely := ⟨h.ended, h.finalizing, h.cut⟩

/-- The loop ends, in a session that has not ended. -/
theorem Timely.enterFinally (h : s.Timely) (hs : s.Settled)
    (hloop : s.task = .looping ∨ s.task = .handling) :
    (s.enterFinally terminal).Timely ∧ s.Frozen (s.enterFinally terminal) := by
  have hborn : s.task ≠ .unborn := by rcases hloop with hl | hl <;> rw [hl] <;> simp
  have hf : s.task.isFinished = false := by rcases hloop with hl | hl <;> rw [hl] <;> rfl
  have hlive := h.not_stopped hborn hf
  unfold Lifetime.enterFinally
  dsimp only
  split
  · exact h.of_live hs hborn hf rfl (fun _ => rfl) fun ht => by cases ht
  · refine h.of_live hs hborn hf rfl (fun hst => ?_) fun ht => by cases ht
    rw [show s.actor.stopped = true from hst] at hlive
    cases hlive

end Unhurried

/-- The calls of `stop` in an unhurried run. -/
theorem Timely.next_call {l : Label β} (h : s.Timely) (hs : s.Settled) (hok : s.Unhurried l)
    (hl : l = .stopReturns i ∨ l = .stopTimesOut i ∨ l = .stopFinalized i ∨ l = .stopCancelled i)
    (hn : s.next l = some t) : t.Timely ∧ s.Frozen t := by
  rcases hl with rfl | rfl | rfl | rfl
  · simp only [next] at hn
    split at hn
    · cases hn
      exact h.setStop hs (by simp)
    · cases hn
      exact h.setStop hs (by simp)
    · rename_i ht
      cases hn
      exact h.finalize hs (by rw [ht]; rfl)
    · rename_i ht
      cases hn
      exact h.finalize hs (by rw [ht]; rfl)
    · cases hn
      exact h.setStop hs (by simp)
    · cases hn
  · simp only [next] at hn
    split at hn
    · cases hn
      obtain ⟨htimely, hfrozen⟩ := h.setStop (i := i) (q := .timedOut) hs (by simp)
      exact ⟨htimely.cancelTask, hfrozen⟩
    · cases hn
  · simp only [next] at hn
    split at hn
    · rename_i snapshot hp
      split_ifs at hn
      cases hn
      exact h.finalizeCancelled hs (h.finalizing snapshot (List.mem_of_getElem? hp))
    · split_ifs at hn
      cases hn
      exact h.setStop hs (by simp)
    · cases hn
  · simp only [next] at hn
    split at hn
    · cases hn
      exact h.setStop hs (by simp)
    · rename_i hp
      cases hn
      -- the step is unhurried, so that the task of a forced stop is done
      simp only [Unhurried, finalizesEarly, hp, decide_true, Bool.true_and,
        Bool.not_eq_false'] at hok
      exact h.finalize hs hok
    · cases hn
      obtain ⟨htimely, hfrozen⟩ := h.setStop (i := i) (q := .abandoned none) hs (by simp)
      exact ⟨htimely.cancelTask, hfrozen⟩
    · cases hn
      exact h.setStop hs (by simp)
    · cases hn
      exact ⟨h.cancelTask, fun _ => ⟨rfl, rfl⟩⟩
    · cases hn
      exact ⟨h, fun _ => ⟨rfl, rfl⟩⟩
    · cases hn

/-- **One step of an unhurried run**: what has ended stays as it has ended. -/
theorem next_timely {l : Label β} (h : s.Timely) (hs : s.Settled) (hok : s.Unhurried l)
    (hn : s.next l = some t) : t.Timely ∧ s.Frozen t := by
  have hstill : ∀ {a : SessionActor β κ} {children : List ChildPhase},
      s.Alike { s with actor := a } → Timely { s with actor := a, children := children } ∧
        s.Frozen { s with actor := a, children := children } := fun ha =>
    h.of_still hs rfl ha.lifecycle ha.stopped (fun _ hmem => hmem) fun _ => ha.failure
  cases l with
  | start =>
    simp only [next, SessionActor.start] at hn
    split at hn
    · rename_i a ha
      split at ha <;> cases ha
      rename_i hnew
      cases hn
      have hlive : s.actor.stopped ≠ true := by
        intro hst
        have := hs.stopped.mp hst
        rw [hnew] at this
        rcases this with hc | hc <;> cases hc
      refine ⟨⟨fun hst => absurd hst hlive, fun snapshot hmem => ?_, fun ht => by cases ht⟩,
        fun hst => absurd hst hlive⟩
      have ht := h.finalizing snapshot hmem
      rw [hs.unborn_of_new hnew] at ht
      cases ht
    · cases hn
  | submit e =>
    cases hn
    exact @hstill _ s.children (alike_submit s e)
  | begin =>
    simp only [next] at hn
    split_ifs at hn with ht hreq <;> cases hn
    all_goals
      -- a task that has yet to run has not ended
      have hlive := h.not_stopped (by rw [ht]; simp) (by rw [ht]; rfl)
      refine h.of_live hs (by rw [ht]; simp) (by rw [ht]; rfl) rfl (fun hst => ?_) fun _ => rfl
      rw [show s.actor.stopped = true from hst] at hlive
      cases hlive
  | getMessage =>
    simp only [next] at hn
    split_ifs at hn with ht
    simp only [Option.map_eq_some_iff] at hn
    obtain ⟨p, -, rfl⟩ := hn
    have hlive := h.not_stopped (by rw [ht.1]; simp) (by rw [ht.1]; rfl)
    refine h.of_live hs (by rw [ht.1]; simp) (by rw [ht.1]; rfl) rfl (fun hst => ?_) fun _ => rfl
    rw [show s.actor.stopped = true from hst] at hlive
    cases hlive
  | drained =>
    simp only [next] at hn
    split_ifs at hn with ht
    cases hn
    exact h.enterFinally hs (Or.inl ht.1)
  | handlerReturns =>
    simp only [next] at hn
    split_ifs at hn with ht
    cases hn
    have hlive := h.not_stopped (by rw [ht.1]; simp) (by rw [ht.1]; rfl)
    refine h.of_live hs (by rw [ht.1]; simp) (by rw [ht.1]; rfl) rfl (fun hst => ?_) fun _ => rfl
    rw [show s.actor.stopped = true from hst] at hlive
    cases hlive
  | handlerRaises e =>
    simp only [next] at hn
    split_ifs at hn with ht
    cases hn
    have hraised : Timely { s with actor := { s.actor with failure := some e } } :=
      ⟨h.ended, h.finalizing, h.cut⟩
    have hlive := h.not_stopped (by rw [ht]; simp) (by rw [ht]; rfl)
    refine ⟨(hraised.enterFinally ⟨hs.stage, hs.stopped, hs.outbox, fun _ => rfl⟩
      (Or.inr ht)).1, fun hst => ?_⟩
    rw [hst] at hlive
    cases hlive
  | handlerSwallows =>
    simp only [next] at hn
    split_ifs at hn
    cases hn
    exact h.of_still hs rfl rfl rfl (fun _ hmem => hmem) fun _ => rfl
  | cancelled =>
    simp only [next] at hn
    split_ifs at hn with ht
    cases hn
    exact h.enterFinally hs ht.1
  | cleaned =>
    simp only [next] at hn
    split at hn
    · rename_i terminal snapshot ht
      have hborn : s.task ≠ .unborn := by rw [ht]; simp
      have hf : s.task.isFinished = false := by rw [ht]; rfl
      have hlive := h.not_stopped hborn hf
      split_ifs at hn <;> cases hn
      · refine h.of_live hs hborn hf rfl (fun hst => ?_) fun _ => rfl
        rw [show s.actor.stopped = true from hst] at hlive
        cases hlive
      · exact h.of_live hs hborn hf rfl (fun _ => rfl) fun hc => by cases hc
    · cases hn
  | spawn =>
    simp only [next, SessionActor.spawn] at hn
    split at hn
    · rename_i a ha
      split at ha <;> cases ha
      cases hn
      exact hstill ⟨rfl, rfl, rfl, rfl, rfl, rfl⟩
    · cases hn
      exact ⟨h, fun _ => ⟨rfl, rfl⟩⟩
  | childEnds i e =>
    simp only [next] at hn
    split_ifs at hn
    cases hn
    exact hstill (a := s.actor) ⟨rfl, rfl, rfl, rfl, rfl, rfl⟩
  | childDone i =>
    simp only [next] at hn
    split at hn
    · rename_i e _
      cases hn
      have hgone : Timely { s with
            actor := (s.actor.childDone i e).1, children := s.children.set i .gone } ∧
          s.Frozen { s with
            actor := (s.actor.childDone i e).1, children := s.children.set i .gone } := by
        unfold SessionActor.childDone
        cases e with
        | none => exact hstill ⟨rfl, rfl, rfl, rfl, rfl, rfl⟩
        | some e =>
          dsimp only
          split
          · rename_i hrun
            exact h.of_still hs rfl rfl rfl (fun _ hmem => hmem) fun hne => absurd hrun hne
          · exact hstill ⟨rfl, rfl, rfl, rfl, rfl, rfl⟩
      split
      · exact ⟨hgone.1.cancelTask, hgone.2⟩
      · exact hgone
    · cases hn
  | stop graceful =>
    simp only [next] at hn
    cases hlife : s.actor.lifecycle with
    | stopped | failed =>
      simp only [hlife, SessionActor.stop] at hn
      cases hn
      exact ⟨h, fun _ => ⟨rfl, rfl⟩⟩
    | new =>
      simp only [hlife, SessionActor.stop] at hn
      cases hn
      have hunborn := hs.unborn_of_new hlife
      refine ⟨⟨fun _ => Or.inl hunborn, h.finalizing, fun _ hl => by cases hl⟩, fun hst => ?_⟩
      have := hs.stopped.mp hst
      rw [hlife] at this
      rcases this with hc | hc <;> cases hc
    | starting =>
      have := hs.stage
      rw [hlife] at this
      cases ht : s.task with
      | finished b => rw [ht] at this; cases b <;> simp [Stage, Terminal] at this
      | _ => rw [ht] at this; simp [Stage, Terminal] at this
    | running | stopping =>
      simp only [hlife, SessionActor.stop] at hn
      cases hn
      -- a call of `stop` that has to wait finds a session that has not ended
      have hlive : s.actor.stopped ≠ true := fun hst =>
        not_terminal_of_live (by simp [hlife]) (hs.stopped.mp hst)
      have hstarted : Timely { s with
          actor := s.actor.stopStarted graceful, stops := s.stops ++ [.waiting graceful] } := by
        refine ⟨fun hst => absurd hst hlive, fun snapshot hmem => ?_, fun _ hl => by cases hl⟩
        rcases List.mem_append.mp hmem with hmem | hmem
        · exact h.finalizing snapshot hmem
        · cases List.mem_singleton.mp hmem
      split
      · exact ⟨hstarted, fun hst => absurd hst hlive⟩
      · exact ⟨hstarted.cancelTask, fun hst => absurd hst hlive⟩
  | stopReturns i => exact h.next_call hs hok (Or.inl rfl) hn
  | stopTimesOut i => exact h.next_call hs hok (Or.inr (Or.inl rfl)) hn
  | stopFinalized i => exact h.next_call hs hok (Or.inr (Or.inr (Or.inl rfl))) hn
  | stopCancelled i => exact h.next_call hs hok (Or.inr (Or.inr (Or.inr rfl))) hn

theorem timely_start (h : machine.start s) : s.Timely := by
  obtain ⟨htask, -, -, hstops, _, _, _, _, _, _, _, hcreate⟩ := h
  obtain ⟨-, hstopped, -⟩ := SessionActor.create_new hcreate
  refine ⟨fun hst => ?_, by simp [hstops], by simp [htask]⟩
  rw [hstopped] at hst
  cases hst

/-- **Run**: the sessions of unhurried runs end in time. -/
theorem timely_of_reachableBy (h : machine.ReachableBy Unhurried s) : s.Timely :=
  h.invariant (fun _ => timely_start) fun _ _ _ hr hs hok hn =>
    (next_timely hs (settled_of_reachable hr.reachable) hok hn).1

end Lifetime

end Eeveetuber
