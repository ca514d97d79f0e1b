import Eeveetuber.Application.ForegroundAnswers
import Eeveetuber.Application.ForegroundLegality

/-!
# A foreground session comes to rest

Two results about every run of a foreground session.

* *Refusals are truthful* (`Eeveetuber.ForegroundSession.refusal_truthful`): a publication that
  has returned `False` is of a generation that is not accepted, and never will be again.
* *A session at rest is not busy* (`Eeveetuber.ForegroundSession.rests`): where every step of the
  run is steady, a session whose queue is empty, whose actor waits for the next command and whose
  current generation has no task at work is neither processing, nor speaking, nor interrupting.

The second fails where a step is not steady: a cancel that the queue loses leaves the state as
it was, and so does a turn that was overtaken by one, for it moves the state although its task
will not be allowed to move it back (`Eeveetuber.ForegroundSession.overtaken_processing`).
-/

namespace Eeveetuber

open Foundation Relation

namespace ForegroundSession

variable {s t : ForegroundSession} {l : Label}

theorem linked_start (h : machine.start s) : s.Linked := by
  obtain ⟨hcalls, -, htask, -, -, hturns, -, -, -, sessionId, inboxCapacity, outboxCapacity,
    observer, hcreate⟩ := h
  obtain ⟨-, hinbox, -, hopen, -⟩ := create_dropLowest hcreate
  refine ⟨(SessionActor.create_wellFormed hcreate).1, ⟨fun h => ?_, fun c hc => ?_, fun c hc => ?_⟩,
    fun x hx => ?_, fun frame hf => ?_, fun task h => ?_, fun task h => ?_⟩
  · cases hopen.symm.trans h
  · rw [hcalls] at hc
    cases hc
  · rw [hcalls] at hc
    cases hc
  · rw [hinbox] at hx
    cases hx
  · cases htask.symm.trans hf
  · rw [hturns] at h
    cases h
  · rw [hturns] at h
    cases h

theorem reachable_linked (h : machine.Reachable s) : s.Linked :=
  h.invariant (fun _ hs => linked_start hs) fun _ _ _ hr hs _ hn =>
    hs.next (reachable_sound hr).1 hn

/-- What has returned `False` is of a generation that is not accepted. -/
theorem Linked.accepts_of_refusal (hs : s.Linked) {c : Call SessionEvent} {call : ℕ}
    (hc : s.traffic.calls[call]? = some c) (hk : c.kind = .publication)
    (hpublished : s.published call = some false) :
    s.actor.cancellation.accepts c.generation = false := by
  refine hs.answers.refusals c (List.mem_of_getElem? hc) hk (CallPhase.refuses_of_publishReturns ?_)
  rw [published, hc] at hpublished
  exact hpublished

theorem Linked.truthful (hs : s.Linked) : s.Truthful := by
  intro task htask call hcall hpublished
  obtain ⟨c, hc, hk, hg⟩ := hs.linked task htask call hcall
  exact hg ▸ hs.accepts_of_refusal hc hk hpublished

/-! ### Refusals -/

/-- A generation is never taken back, and what is closed stays closed. -/
theorem onward_of_path {steady : Bool} {f f' : Floor} (h : ReflTransGen (FloorStep steady) f f') :
    f.generation ≤ f'.generation ∧ (f.closed = true → f'.closed = true) := by
  induction h with
  | refl => exact ⟨le_refl _, id⟩
  | tail _ hstep ih =>
    refine ⟨ih.1.trans ?_, fun hclosed => ?_⟩
    · cases hstep with
      | queue | lose | wait => exact Nat.le_succ _
      | put | enter | forget | shut | settle | take | release | speak | finish | refuse =>
        exact le_refl _
    · have hclosed' := ih.2 hclosed
      cases hstep with
      | shut => rfl
      | put | queue | lose | wait | enter | forget | settle | take | release | speak | finish
      | refuse => exact hclosed'

/-- What a later state accepts of the generations issued by then, the earlier one accepts. -/
theorem leads_narrows (h : machine.Leads s t) (hs : machine.Reachable s) :
    s.actor.cancellation.Narrows t.actor.cancellation := by
  have hpath : machine.Reachable t ∧ ReflTransGen (FloorStep false) s.floor t.floor := by
    refine h.invariant (I := fun t => machine.Reachable t ∧ ReflTransGen _ s.floor t.floor)
      ⟨hs, .refl⟩ fun t l u ht hn => ⟨.step ht.1 trivial hn, ht.2.trans ?_⟩
    exact (moves_of_next (reachable_sound ht.1).1 (fun h => Bool.noConfusion h) hn).2
  obtain ⟨hgeneration, hclosed⟩ := onward_of_path hpath.2
  refine ⟨hgeneration, fun g hg hacc => ?_⟩
  obtain ⟨hopen, hcurrent⟩ := (reachable_sound hpath.1).1.accepts_iff.mp hacc
  refine (reachable_sound hs).1.accepts_iff.mpr ⟨?_, le_antisymm hg (hcurrent ▸ hgeneration)⟩
  exact Bool.eq_false_iff.mpr fun h => Bool.false_ne_true (hopen.symm.trans (hclosed h))

/-- **A publication that has returned `False` is of a generation that is not accepted, and that
no later state accepts.** -/
theorem refusal_truthful (h : machine.Reachable s) {call : ℕ} {c : Call SessionEvent}
    (hc : s.traffic.calls[call]? = some c) (hk : c.kind = .publication)
    (hpublished : s.published call = some false) :
    ∀ t, machine.Leads s t → t.actor.cancellation.accepts c.generation = false := by
  intro t ht
  have hs := reachable_linked h
  have hissued := hs.answers.issued c (List.mem_of_getElem? hc)
  refine Bool.eq_false_iff.mpr fun hacc => Bool.false_ne_true ?_
  rw [← hs.accepts_of_refusal hc hk hpublished]
  exact (leads_narrows ht h).accepts _ hissued hacc

/-- A turn is accepted, and another submitted before its task has compiled the context. -/
def outrun : List Label :=
  [.start, .request (.submitText "hello".toList 1) 2, .receiveMessage, .resumeHandler,
    .request (.submitText "wait".toList 3) 4, .turn 0 (.prepared ⟨[], 0, 0⟩)]

/-- The first turn's context is refused, and so is whatever else it will publish. -/
theorem refusal_truthful_outrun : ∃ s, machine.Reachable s ∧ s.published 2 = some false ∧
    ∀ t, machine.Leads s t → t.actor.cancellation.accepts 1 = false := by
  have h : (machine.run unstarted outrun).map (fun s => (s.published 2,
      s.traffic.calls[2]?.map fun c => (c.kind, c.generation))) =
      some (some false, some (.publication, 1)) := by decide +kernel
  obtain ⟨s, hs, hshown⟩ := Option.map_eq_some_iff.mp h
  obtain ⟨hpublished, hcall⟩ := Prod.mk.inj hshown
  obtain ⟨c, hc, hfields⟩ := Option.map_eq_some_iff.mp hcall
  obtain ⟨hk, hg⟩ := Prod.mk.inj hfields
  have hr : machine.Reachable s := Machine.reachable_of_run unstarted_start hs
  exact ⟨s, hr, hpublished, hg ▸ refusal_truthful hr hc hk hpublished⟩

/-! ### Rest -/

theorem attended_of_path {f f' : Floor} (h : ReflTransGen (FloorStep true) f f') (hf : Sound f)
    (ha : Attended f) : Attended f' := by
  induction h with
  | refl => exact ha
  | tail hpath hstep ih => exact hstep.attended (sound_of_path hpath hf) ih

/-- In a steady run a busy state is attended to. -/
theorem reachable_attended (h : machine.ReachableBy (fun s l => s.isSteady l = true) s) :
    Attended s.floor := by
  refine h.invariant (I := fun s => Attended s.floor) (fun s hs _ hbusy => ?_)
    fun s l t hr ha hok hn => ?_
  · obtain ⟨-, -, -, -, -, -, -, -, -, sessionId, inboxCapacity, outboxCapacity, observer,
      hcreate⟩ := hs
    obtain ⟨-, -, -, -, -, -, hinteraction⟩ := create_dropLowest hcreate
    change InteractionState.isBusy s.actor.interaction.state = true at hbusy
    rw [hinteraction] at hbusy
    cases hbusy
  · obtain ⟨hlive, hsound⟩ := reachable_sound hr.reachable
    have hmoves : Moves true s t := moves_of_next hlive
      (fun _ => ⟨(reachable_linked hr.reachable).truthful, hok⟩) hn
    exact attended_of_path hmoves.2 hsound ha

/-- **A session at rest is not busy.** In a steady run, in which above all a turn is of the
current generation when the actor takes it, while the session is open, its actor waits for a
command, none is queued, and no task of the current generation is alive, the state is none of
`processing`, `speaking` and `interrupting`. -/
theorem rests (h : machine.ReachableBy (fun s l => s.isSteady l = true) s)
    (hopen : s.actor.cancellation.closed = false) (htask : s.actorTask = .receiving)
    (hinbox : s.actor.inbox.items = [])
    (hturns : ∀ task ∈ s.turns, s.actor.cancellation.accepts task.generation = true →
      task.stage = .done) :
    s.state ≠ .processing ∧ s.state ≠ .speaking ∧ s.state ≠ .interrupting := by
  have hattended := reachable_attended h
  obtain ⟨hlive, -⟩ := reachable_sound h.reachable
  have hquiet : s.state.isBusy = false := by
    refine Bool.eq_false_iff.mpr fun hbusy => ?_
    rcases hattended hopen hbusy with hturn | ⟨x, hx, -⟩
    · obtain ⟨p, hp, hg⟩ := List.mem_map.mp hturn
      have hp' : p ∈ s.aliveTurns := by
        have hmem : p ∈ s.actorTask.turn?.toList ++ s.aliveTurns := hp
        rwa [htask] at hmem
      obtain ⟨task, hmem, hshown⟩ := List.mem_filterMap.mp hp'
      rw [TurnTask.shown?] at hshown
      split at hshown
      · rename_i halive
        obtain rfl : task.shown = p := Option.some.inj hshown
        have hdone := hturns task hmem (hlive.accepts_iff.mpr ⟨hopen, hg⟩)
        exact absurd hdone (of_decide_eq_true halive)
      · cases hshown
    · have hx' : x ∈ s.actor.inbox.items := hx
      rw [hinbox] at hx'
      cases hx'
  refine ⟨fun h => ?_, fun h => ?_, fun h => ?_⟩
  · rw [h] at hquiet
    cases hquiet
  · rw [h] at hquiet
    cases hquiet
  · rw [h] at hquiet
    cases hquiet

/-- The turn that has begun to speak says what it has to say, and is over. -/
def lastWords : List Label :=
  [.turn 0 .resume,
    .turn 0 (.yields (.segmentAudioReady 1 1 greeting
      ⟨3, 0, 0, [], "audio/wav".toList, 16000, true, none, by decide⟩)),
    .turn 0 .resume,
    .turn 0 (.yields (.utteranceCompleted 1 1 ⟨1, 1, [greeting], .complete, none, none⟩)),
    .turn 0 .register, .turn 0 .resume, .turn 0 .ends]

/-- A turn that goes its way leaves the session at rest. -/
theorem rests_lastWords : ∃ s, machine.ReachableBy (fun s l => s.isSteady l = true) s ∧
    s.turns.length = 1 ∧ s.state ≠ .processing ∧ s.state ≠ .speaking ∧ s.state ≠ .interrupting := by
  have h : ((machine.restrict fun s l => s.isSteady l = true).run unstarted
      (firstWords ++ lastWords)).map (fun s => (s.actor.cancellation.closed, s.actorTask,
        s.actor.inbox.items.isEmpty, s.turns.map fun task => task.stage)) =
      some (false, .receiving, true, [.done]) := by decide +kernel
  obtain ⟨s, hs, hshown⟩ := Option.map_eq_some_iff.mp h
  obtain ⟨hopen, hrest⟩ := Prod.mk.inj hshown
  obtain ⟨htask, hrest⟩ := Prod.mk.inj hrest
  obtain ⟨hinbox, hstages⟩ := Prod.mk.inj hrest
  obtain ⟨task, hturns, hdone⟩ := List.map_eq_singleton_iff.mp hstages
  have hr := Machine.reachableBy_of_run (.start unstarted_start) hs
  refine ⟨s, hr, congrArg List.length hturns, rests hr hopen htask (List.isEmpty_iff.mp hinbox) ?_⟩
  intro task' h _
  rw [hturns] at h
  exact List.mem_singleton.mp h ▸ hdone

/-- A turn is submitted and cancelled, and the cancel is handled before it. -/
def overtaken : List Label :=
  [.start, .request (.submitText "hello".toList 1) 2, .request (.cancel "never mind".toList) 3,
    .receiveMessage, .resumeHandler, .receiveMessage, .resumeHandler,
    .turn 0 (.raises (.dialogueCancelled 1))]

/-- **A turn that was overtaken leaves the session in `processing`.** Taking it is the one step
that is not steady. -/
theorem overtaken_processing : ∃ s,
    machine.ReachableBy (fun s l => s.isSteady l = true ∨ l = .receiveMessage) s ∧
    s.actor.cancellation.closed = false ∧ s.actorTask = .receiving ∧ s.actor.inbox.items = [] ∧
    (∀ task ∈ s.turns, task.stage = .done) ∧ s.state = .processing := by
  have h : ((machine.restrict fun s l => s.isSteady l = true ∨ l = .receiveMessage).run unstarted
      overtaken).map (fun s => (s.actor.cancellation.closed, s.actorTask,
        s.actor.inbox.items.isEmpty, s.turns.map fun task => task.stage, s.state)) =
      some (false, .receiving, true, [.done], .processing) := by decide +kernel
  obtain ⟨s, hs, hshown⟩ := Option.map_eq_some_iff.mp h
  simp only [Prod.mk.injEq] at hshown
  obtain ⟨hopen, htask, hinbox, hstages, hstate⟩ := hshown
  obtain ⟨task, hturns, hdone⟩ := List.map_eq_singleton_iff.mp hstages
  have hr := Machine.reachableBy_of_run (.start unstarted_start) hs
  refine ⟨s, hr, hopen, htask, List.isEmpty_iff.mp hinbox, fun task' h => ?_, hstate⟩
  rw [hturns] at h
  exact List.mem_singleton.mp h ▸ hdone

end ForegroundSession

end Eeveetuber
