import Eeveetuber.Application.ForegroundSteps

/-!
# No request of a foreground session is refused

`Eeveetuber.ForegroundSession.requests_granted`: in every run, whatever the order of the
commands, the turns and their ends, every transition a handler or a dialogue task requests is
one of the table, so that none of them raises `InvalidInteractionTransition`. What makes it so
is that the dialogue task of the current generation finds the state as it left it.
-/

namespace Eeveetuber

open Foundation Relation

namespace ForegroundSession

variable {s t : ForegroundSession} {l : Label}

/-! ### Runs -/

/-- The actor of a session that has not been started. -/
theorem create_dropLowest {sessionId : UUID} {inboxCapacity outboxCapacity : ℕ}
    {observer : Option (EventEnvelope SessionEvent → Bool)}
    {a : SessionActor SessionEvent Empty}
    (h : SessionActor.create sessionId inboxCapacity outboxCapacity .dropLowest none none
      observer = .ok a) :
    a.inbox.config.overflow = .dropLowest ∧ a.inbox.items = [] ∧ a.inbox.closed = false ∧
      a.outbox.closed = false ∧ a.lifecycle = .new ∧ a.cancellation = .create 0 ∧
      a.interaction = .create .idle := by
  unfold SessionActor.create PriorityMailbox.create at h
  split_ifs at h <;> cases h
  exact ⟨rfl, rfl, rfl, rfl, rfl, rfl, rfl⟩

theorem live_start (h : machine.start s) : s.Live := by
  obtain ⟨hcalls, -, htask, -, -, hturns, -, -, -, sessionId, inboxCapacity, outboxCapacity,
    observer, hcreate⟩ := h
  have hwellFormed := (SessionActor.create_wellFormed hcreate).1
  obtain ⟨hoverflow, -, hopen, -, hlifecycle, hcancellation, -⟩ := create_dropLowest hcreate
  have hclosed : s.actor.cancellation.closed = false := by rw [hcancellation]; rfl
  refine ⟨hwellFormed, hoverflow, fun _ => ⟨hclosed, hturns⟩,
    fun _ => ⟨?_, hopen, Or.inl hlifecycle⟩, fun h => ?_, fun h => ?_, fun c hc => ?_⟩
  · rw [hcancellation]
    rfl
  · rw [htask] at h
    cases h
  · rw [isFinishing, htask] at h
    cases h
  · rw [hcalls] at hc
    cases hc

theorem sound_start (h : machine.start s) : Sound s.floor := by
  obtain ⟨hcalls, -, htask, -, -, hturns, -, hrequested, -, sessionId, inboxCapacity,
    outboxCapacity, observer, hcreate⟩ := h
  obtain ⟨-, hinbox, -⟩ := create_dropLowest hcreate
  have hwaiting : s.floor.waiting = [] := by
    change s.traffic.calls.filterMap Call.waits? = []
    rw [hcalls]
    rfl
  have hopenTurns : s.floor.turns = [] := by
    change s.actorTask.turn?.toList ++ s.turns.filterMap TurnTask.shown? = []
    rw [htask, hturns]
    rfl
  have hitems : s.floor.inbox = [] := hinbox
  refine ⟨?_, fun _ => ⟨?_, ?_, ?_, ?_, ?_, ?_, ?_, ?_⟩⟩
  · intro p hp
    rw [show s.floor.requested = [] from hrequested] at hp
    cases hp
  · rw [hitems]
    exact ⟨.nil, fun _ h => absurd h List.not_mem_nil, fun _ h => absurd h List.not_mem_nil, .nil,
      fun _ h => absurd h List.not_mem_nil⟩
  · rw [hwaiting]
    exact fun _ h => absurd h List.not_mem_nil
  · rw [hwaiting]
    exact .nil
  · rw [hwaiting]
    exact fun h => absurd h List.not_mem_nil
  · rw [hopenTurns]
    exact fun _ h => absurd h List.not_mem_nil
  · rw [hopenTurns]
    exact Nat.zero_le 1
  · rw [hopenTurns]
    exact fun _ h => absurd h List.not_mem_nil
  · rw [hopenTurns]
    exact fun _ h => absurd h List.not_mem_nil

theorem sound_of_path {steady : Bool} {f f' : Floor} (h : ReflTransGen (FloorStep steady) f f')
    (hf : Sound f) : Sound f' := by
  induction h with
  | refl => exact hf
  | tail _ hstep ih => exact hstep.sound ih

/-- Every session a run reaches is live, and its floor is sound. -/
theorem reachable_sound (h : machine.Reachable s) : s.Live ∧ Sound s.floor := by
  refine h.invariant (I := fun s => s.Live ∧ Sound s.floor)
    (fun s hs => ⟨live_start hs, sound_start hs⟩) fun s l t _ hs _ hn => ?_
  obtain ⟨hlive, hpath⟩ : Moves false s t := moves_of_next hs.1 (fun h => Bool.noConfusion h) hn
  exact ⟨hlive, sound_of_path hpath hs.2⟩

/-! ### What a run shows -/

/-- An alive task is on the floor. -/
theorem shown_mem_openTurns {task : TurnTask} (htask : task ∈ s.turns)
    (halive : task.stage ≠ .done) : task.shown ∈ s.floor.turns :=
  List.mem_append_right _ (List.mem_filterMap.mpr ⟨task, htask, shown?_of_alive halive⟩)

/-- **Every transition that a handler or a dialogue task requests is in the table**, in every
run. While the dialogue task of the accepted generation is alive, the state is the one it left,
no foreground command is queued beside it, and no other task is of its generation. -/
theorem requests_granted (h : machine.Reachable s) :
    (∀ p ∈ s.requested, p.2 ∈ p.1.allowedFrom) ∧
      ∀ (i : ℕ) (task : TurnTask), s.turns[i]? = some task → task.stage ≠ .done →
        s.actor.cancellation.accepts task.generation = true →
          s.state = (if task.firstSegment then .processing else .speaking) ∧
          (∀ x ∈ s.actor.inbox.items, x.isForeground = false) ∧
          ∀ (j : ℕ) (task' : TurnTask), s.turns[j]? = some task' → task'.stage ≠ .done →
            task'.generation = task.generation → j = i := by
  obtain ⟨hlive, hsound⟩ := reachable_sound h
  refine ⟨hsound.legal, fun i task hi halive haccepts => ?_⟩
  obtain ⟨hopen, hg⟩ := hlive.accepts_iff.mp haccepts
  have hagreed := hsound.agreed hopen
  have hmem := shown_mem_openTurns (List.mem_of_getElem? hi) halive
  refine ⟨hagreed.voiced _ hmem hg, hagreed.heard _ hmem hg, fun j task' hj halive' hg' => ?_⟩
  by_contra hji
  obtain ⟨l₁, l₂, hamong⟩ := exists_among hi
  have hturns : s.floor.turns = l₁ ++ (s.floor.generation, task.firstSegment) :: l₂ :=
    (hamong.floor_turns halive hlive haccepts).2
  have hset := hamong.set { task with stage := .done }
  have hmem' : task'.shown ∈ (s.setTurn i { task with stage := .done }).openTurns := by
    have hkept : (s.turns.set i { task with stage := .done })[j]? = some task' :=
      (List.getElem?_set_ne (Ne.symm hji)).trans hj
    exact shown_mem_openTurns (s := s.setTurn i _) (List.mem_of_getElem? hkept) halive'
  rw [hset] at hmem'
  exact hagreed.others hturns _ hmem' (hg'.trans hg)

/-! ### A first turn -/

/-- A session that has not been started. -/
def unstarted : ForegroundSession where
  traffic := {
    actor := {
      sessionId := 0
      inbox := .make ⟨4, .dropLowest, fun m => .ok m.event.priority, none, fun _ new => .ok new,
        Nat.succ_pos 3, fun h => OverflowPolicy.noConfusion h⟩
      outbox := .make ⟨8, .dropLowest, fun e => .ok e.priority, none, fun _ new => .ok new,
        Nat.succ_pos 7, fun h => OverflowPolicy.noConfusion h⟩
      cancellation := .create 0
      interaction := .create .idle
      observer := none
      observed := []
      eventObserverFailures := 0
      lifecycle := .new
      failure := none
      children := []
      stopped := false
      sequence := 0
      staleResults := 0 }
    calls := []
    delivered := [] }
  actorTask := .unborn
  cancelRequested := false
  voiceCaptureActive := false
  turns := []
  spawned := 0
  requested := []
  handled := []

theorem unstarted_start : machine.start unstarted :=
  ⟨rfl, rfl, rfl, rfl, rfl, rfl, rfl, rfl, rfl, 0, 4, 8, none, rfl⟩

/-- What a turn says first. -/
def greeting : UtteranceSegment := ⟨0, "hi".toList, "hi".toList, 3, rfl, rfl⟩

/-- A turn is submitted, handled, and begins to speak. -/
def firstWords : List Label :=
  [.start, .request (.submitText "hello".toList 1) 2, .receiveMessage, .resumeHandler,
    .turn 0 (.prepared ⟨[], 0, 0⟩), .turn 0 .resume, .turn 0 (.yields (.segmentReady 1 1 greeting))]

/-- Its two requests are granted, and the state is the one the turn left. -/
theorem requests_granted_firstWords : ∃ s, machine.Reachable s ∧
    s.requested = [(.idle, .processing), (.processing, .speaking)] ∧ s.state = .speaking := by
  have h : (machine.run unstarted firstWords).map (fun s => (s.requested,
      s.turns.map fun task => (task.firstSegment, task.isAlive,
        s.actor.cancellation.accepts task.generation))) =
      some ([(.idle, .processing), (.processing, .speaking)], [(false, true, true)]) := by
    decide +kernel
  obtain ⟨s, hs, hshown⟩ := Option.map_eq_some_iff.mp h
  obtain ⟨hrequested, hturns⟩ := Prod.mk.inj hshown
  obtain ⟨task, htask, hfields⟩ := List.map_eq_singleton_iff.mp hturns
  obtain ⟨hfirst, hrest⟩ := Prod.mk.inj hfields
  obtain ⟨halive, haccepts⟩ := Prod.mk.inj hrest
  have hr : machine.Reachable s := Machine.reachable_of_run unstarted_start hs
  have hstate := ((requests_granted hr).2 0 task (htask ▸ rfl) (of_decide_eq_true halive)
    haccepts).1
  rw [hfirst] at hstate
  exact ⟨s, hr, hrequested, hstate⟩

end ForegroundSession

end Eeveetuber
