import Eeveetuber.Application.ForegroundSteps
import Eeveetuber.Runtime.Answers

/-!
# The answers the dialogue tasks get

A dialogue task whose publication returns `False` is of a generation that is not accepted any
more (`Eeveetuber.ForegroundSession.reachable_linked`), so it may take the answer for what it is
meant to say: another turn has the floor.

The invariant is `Eeveetuber.ForegroundSession.Linked`. It asks that no generation is used before
it is issued, since only of an issued one does it follow that it stays refused, and that a task
that waits does so for a publication of its own. Most of what a session does preserves it because
it adds no task and no call of a handler (`Eeveetuber.ForegroundSession.Carries`).
-/

namespace Eeveetuber

open Foundation

namespace ForegroundSession

variable {s t u : ForegroundSession} {i call : ℕ} {task task' : TurnTask}
  {g : CancellationGeneration} {o : SessionOutput} {l : Label}
  {message : SessionMessage SessionEvent}

/-- The generation that is current. -/
def generation (s : ForegroundSession) : CancellationGeneration :=
  s.actor.cancellation.generation

/-- The publication of a generation that a call is. -/
def Publishes (s : ForegroundSession) (call : ℕ) (g : CancellationGeneration) : Prop :=
  ∃ c, s.traffic.calls[call]? = some c ∧ c.kind = .publication ∧ c.generation = g

/-- **What holds of the calls of a session**: its answers are truthful, everything in it is of a
generation that was issued, and a dialogue task waits for a publication of its generation. -/
structure Linked (s : ForegroundSession) : Prop where
  wellFormed : s.actor.WellFormed
  answers : s.traffic.Truthful
  queued : ∀ x ∈ s.actor.inbox.items, x.generation ≤ s.generation
  handled : ∀ frame, s.actorTask = .handling frame → frame.message.generation ≤ s.generation
  begun : ∀ task ∈ s.turns, task.generation ≤ s.generation
  linked : ∀ task ∈ s.turns, ∀ call, task.stage.call? = some call →
    s.Publishes call task.generation

/-- One session goes on from another without a new task, or a new handler at work. -/
structure Carries (s t : ForegroundSession) : Prop where
  actor : s.actor.Onward t.actor
  answers : s.traffic.Truthful → t.traffic.Truthful
  queued : ∀ x ∈ t.actor.inbox.items, x ∈ s.actor.inbox.items ∨ x.generation ≤ t.generation
  calls : ∀ call g, s.Publishes call g → t.Publishes call g
  handled : ∀ frame, t.actorTask = .handling frame → s.actorTask = .handling frame
  turns : t.turns = s.turns

theorem Carries.refl (s : ForegroundSession) : Carries s s :=
  ⟨.of_eq rfl rfl rfl rfl, id, fun _ hx => Or.inl hx, fun _ _ h => h, fun _ h => h, rfl⟩

theorem Carries.trans (h : Carries s t) (h' : Carries t u) : Carries s u := by
  refine ⟨h.actor.trans h'.actor, fun hs => h'.answers (h.answers hs), fun x hx => ?_,
    fun call g hc => h'.calls call g (h.calls call g hc),
    fun frame hf => h.handled frame (h'.handled frame hf), h'.turns.trans h.turns⟩
  rcases h'.queued x hx with hx | hx
  · exact (h.queued x hx).imp_right fun hg => hg.trans h'.actor.narrows.generation
  · exact Or.inr hx

theorem Carries.generation_le (h : Carries s t) : s.generation ≤ t.generation :=
  h.actor.narrows.generation

theorem Linked.carries (hs : s.Linked) (h : Carries s t) : t.Linked := by
  refine ⟨hs.wellFormed.congr h.actor.inboxConfig h.actor.outboxConfig, h.answers hs.answers,
    fun x hx => ?_, fun frame hf => ?_, fun task htask => ?_, fun task htask call hcall => ?_⟩
  · rcases h.queued x hx with hx | hx
    · exact (hs.queued x hx).trans h.generation_le
    · exact hx
  · exact (hs.handled frame (h.handled frame hf)).trans h.generation_le
  · exact (hs.begun task (h.turns ▸ htask)).trans h.generation_le
  · exact h.calls call _ (hs.linked task (h.turns ▸ htask) call hcall)

/-- The calls of a session are as they were. -/
theorem Carries.of_actor (ha : s.actor.Onward t.actor)
    (hcalls : t.traffic.calls = s.traffic.calls)
    (hqueued : ∀ x ∈ t.actor.inbox.items, x ∈ s.actor.inbox.items ∨ x.generation ≤ t.generation)
    (hhandled : ∀ frame, t.actorTask = .handling frame → s.actorTask = .handling frame)
    (hturns : t.turns = s.turns) : Carries s t := by
  refine ⟨ha, fun hs => hs.onward ha fun c hc => Or.inl (hcalls ▸ hc), hqueued, ?_, hhandled,
    hturns⟩
  rintro call g ⟨c, hc, hk, hg⟩
  exact ⟨c, hcalls ▸ hc, hk, hg⟩

/-- Neither the queues nor the generations change, nor the tasks. -/
theorem Carries.of_eq (hi : t.actor.inbox = s.actor.inbox) (ho : t.actor.outbox = s.actor.outbox)
    (hc : t.actor.cancellation = s.actor.cancellation)
    (hcalls : t.traffic.calls = s.traffic.calls) (htask : t.actorTask = s.actorTask)
    (hturns : t.turns = s.turns) : Carries s t :=
  .of_actor (.of_eq (hi ▸ rfl) (ho ▸ rfl) hc (ho ▸ rfl)) hcalls (fun _ hx => Or.inl (hi ▸ hx))
    (fun _ hf => htask ▸ hf) hturns

/-! ### Transitions and children -/

theorem carries_transition (request : TransitionRequest) : Carries s (s.transition request).1 := by
  rw [transition]
  split
  · rename_i a ha
    rw [SessionActor.transitionInteraction] at ha
    split at ha
    · split at ha
      · cases ha
      · cases ha
        exact .of_eq rfl rfl rfl rfl rfl rfl
    · cases ha
  · exact .of_eq rfl rfl rfl rfl rfl rfl

theorem carries_transitions : ∀ (requests : List TransitionRequest) (s : ForegroundSession),
    Carries s (s.transitions requests).1
  | [], s => .refl s
  | request :: rest, s => by
    have h := carries_transition (s := s) request
    rw [transitions]
    generalize s.transition request = p at h ⊢
    obtain ⟨t, e | ⟨⟩⟩ := p
    · exact h
    · exact h.trans (carries_transitions rest t)

theorem carries_transitionIfCurrent (g : CancellationGeneration) (request : TransitionRequest) :
    Carries s (s.transitionIfCurrent g request).1 := by
  rw [transitionIfCurrent_eq]
  split
  · exact carries_transition request
  · exact .of_eq rfl rfl rfl rfl rfl rfl

theorem carries_finishInteraction (g : CancellationGeneration) :
    Carries s (s.finishInteraction g).1 := by
  have hlisten (s : ForegroundSession) : Carries s (if s.voiceCaptureActive then
      s.transitionIfCurrent g (.listening, "microphone remains active after utterance")
      else (s, .ok true)).1 := by
    split
    · exact carries_transitionIfCurrent g _
    · exact .refl s
  rw [finishInteraction]
  dsimp only
  split
  · have h := carries_transitionIfCurrent (s := s) g (.idle, "utterance stream completed")
    generalize s.transitionIfCurrent g (.idle, "utterance stream completed") = p at h ⊢
    obtain ⟨t, e | _ | _⟩ := p
    · exact h
    · exact h
    · exact h.trans (hlisten t)
  · exact hlisten s

theorem carries_spawn : Carries s s.spawn.1 := by
  rw [spawn, SessionActor.spawn]
  by_cases hrun : s.actor.lifecycle = .running
  · rw [if_pos hrun]
    exact .of_eq rfl rfl rfl rfl rfl rfl
  · rw [if_neg hrun]
    exact .refl s

theorem carries_childDone (child : ℕ) (exception : Option SessionError) :
    Carries s (s.childDone child exception) := by
  rw [childDone]
  unfold SessionActor.childDone
  rcases exception with _ | e
  · exact .of_eq rfl rfl rfl rfl rfl rfl
  · dsimp only
    split
    · exact .of_eq rfl rfl rfl rfl rfl rfl
    · exact .of_eq rfl rfl rfl rfl rfl rfl

/-! ### Calls -/

/-- A call goes on under its generation, and is decided against only as it should be. -/
theorem carries_call {c c' : Call SessionEvent} {a : SessionActor SessionEvent Empty}
    (hc : s.traffic.calls[i]? = some c) (ha : s.actor.Onward a) (hk : c'.kind = c.kind)
    (hg : c'.generation = c.generation)
    (hqueued : ∀ x ∈ a.inbox.items, x ∈ s.actor.inbox.items ∨
      x.generation ≤ a.cancellation.generation)
    (hanswer : s.traffic.Truthful → c'.kind = .publication → c'.phase.refuses = true →
      s.actor.cancellation.accepts c.generation = false) :
    Carries s { s with traffic :=
      { s.traffic with actor := a, calls := s.traffic.calls.set i c' } } := by
  refine ⟨ha, fun hs => hs.onward ha fun d hd => ?_, hqueued, ?_, fun _ hf => hf, rfl⟩
  · rcases List.mem_or_eq_of_mem_set hd with hd | rfl
    · exact Or.inl hd
    · have hissued := hs.issued c (List.mem_of_getElem? hc)
      refine Or.inr ⟨hg ▸ hissued.trans ha.narrows.generation, fun hk' hrefuses => ?_⟩
      refine Bool.eq_false_iff.mpr fun hacc => Bool.false_ne_true ?_
      rw [← hanswer hs hk' hrefuses]
      exact ha.narrows.accepts _ hissued (hg ▸ hacc)
  · rintro call g ⟨d, hd, hdk, hdg⟩
    by_cases hcall : i = call
    · subst hcall
      obtain rfl : c = d := Option.some.inj (hc.symm.trans hd)
      obtain ⟨hlt, -⟩ := List.getElem?_eq_some_iff.mp hc
      exact ⟨c', List.getElem?_set_self hlt, hk.trans hdk, hg.trans hdg⟩
    · exact ⟨d, (List.getElem?_set_ne hcall).trans hd, hdk, hdg⟩

/-- A method begins a call. -/
theorem carries_begin {c : Call SessionEvent} {a : SessionActor SessionEvent Empty}
    (ha : s.actor.Onward a) (hg : c.generation ≤ a.cancellation.generation)
    (hqueued : ∀ x ∈ a.inbox.items, x ∈ s.actor.inbox.items ∨
      x.generation ≤ a.cancellation.generation)
    (hanswer : s.traffic.Truthful → c.kind = .publication → c.phase.refuses = true →
      a.cancellation.accepts c.generation = false) :
    Carries s { s with traffic := s.traffic.begin (a, .ok c) } := by
  refine ⟨ha, fun hs => hs.onward ha fun d hd => ?_, hqueued, ?_, fun _ hf => hf, rfl⟩
  · rcases List.mem_append.mp hd with hd | hd
    · exact Or.inl hd
    · obtain rfl : d = c := List.mem_singleton.mp hd
      exact Or.inr ⟨hg, hanswer hs⟩
  · rintro call g ⟨d, hd, hdk, hdg⟩
    exact ⟨d, Traffic.begin_calls (p := (a, .ok c)) hd, hdk, hdg⟩

/-- **A session publishes under a generation that was issued.** -/
theorem carries_publish (hs : s.Linked) (hg : g ≤ s.generation) (o : SessionOutput) :
    ∃ t call, s.publish g o = (t, .ok call) ∧ Carries s t ∧ t.Publishes call g := by
  obtain ⟨t, call, hpublish, -⟩ := publish_ok hs.wellFormed g o
  refine ⟨t, call, hpublish, ?_⟩
  obtain ⟨ht, hcall⟩ := Prod.mk.inj hpublish
  subst ht
  rcases s.actor.publishResult_cases (s.outputEvent o) g with
    ⟨hacc, he⟩ | ⟨-, ⟨err, he⟩ | ⟨stamped, -, he⟩⟩
  -- the generation is over, so that the publication is refused as it is made
  · rw [he] at hcall
    cases hcall
    rw [he]
    refine ⟨carries_begin (.of_eq rfl rfl rfl rfl) hg (fun _ hx => Or.inl hx) fun _ _ _ => hacc,
      ⟨.publication, g, _, .refused⟩, List.getElem?_concat_length, rfl, rfl⟩
  · rw [he] at hcall
    cases hcall
  -- the event is stamped, and its first attempt made
  · rw [he] at hcall
    cases hcall
    obtain ⟨honward, hsource, hk, hg', hanswer⟩ := SessionActor.firstAttempt_answers
      (a := s.actor.stampedActor) (c := ⟨.publication, g, stamped, .waiting⟩)
      hs.wellFormed.stampedActor rfl hs.answers.closed
    have hsame := (SessionActor.sameFloor_firstAttempt (a := s.actor.stampedActor)
      (c := ⟨.publication, g, stamped, .waiting⟩) hs.wellFormed.stampedActor rfl rfl).1
    have hstamped : s.actor.Onward s.actor.stampedActor := .of_eq rfl rfl rfl rfl
    rw [he]
    refine ⟨carries_begin (hstamped.trans honward) ?_
      (fun x hx => Or.inl (hsame.inboxItems ▸ hx)) ?_,
      _, List.getElem?_concat_length, hk, hg'⟩
    · rw [hg', hsource]
      exact hg
    · intro _ _ hrefuses
      rw [hg', hsource]
      exact hanswer rfl hrefuses

/-- The caller of a call is cancelled. -/
theorem carries_abandonCall (call : ℕ) : Carries s (s.abandonCall call) := by
  rw [abandonCall]
  rcases hresume : s.traffic.resume call (Traffic.abandoning s.actor) with _ | traffic
  · exact .refl s
  · obtain ⟨c, a, c', hc, habandon, rfl⟩ := Traffic.resume_eq_some.mp hresume
    obtain ⟨-, rfl, rfl⟩ := Traffic.abandoning_eq_some habandon
    exact carries_call hc (.of_eq rfl rfl rfl rfl) rfl rfl (fun _ hx => Or.inl hx)
      fun _ _ h => Bool.noConfusion h

/-! ### Dialogue tasks -/

/-- A task goes on, and waits for a publication of its generation if it does. -/
theorem Linked.setTurn (hs : s.Linked) (hg : task.generation ≤ s.generation)
    (hcall : ∀ call, task.stage.call? = some call → s.Publishes call task.generation) :
    (s.setTurn i task).Linked := by
  refine ⟨hs.wellFormed, hs.answers, hs.queued, hs.handled, fun task' h => ?_, fun task' h => ?_⟩
  · rcases List.mem_or_eq_of_mem_set h with h | rfl
    · exact hs.begun task' h
    · exact hg
  · rcases List.mem_or_eq_of_mem_set h with h | rfl
    · exact hs.linked task' h
    · exact hcall

/-- A task goes on, and waits for no publication. -/
theorem Linked.goOn (hs : s.Linked) (hg : task.generation ≤ s.generation)
    (hcall : task.stage.call? = none) : (s.setTurn i task).Linked :=
  hs.setTurn hg fun call h => by cases hcall.symm.trans h

theorem Linked.endTurn (hs : s.Linked) (hg : task.generation ≤ s.generation)
    (exception : Option SessionError) : (s.endTurn i task exception).Linked :=
  (hs.goOn (i := i) (show ({ task with stage := .done } : TurnTask).generation ≤ _ from hg)
    rfl).carries (carries_childDone task.child exception)

/-- **A task publishes, and waits for what it publishes.** -/
theorem Linked.publishFromTurn (hs : s.Linked) (hg : task.generation ≤ s.generation)
    (o : SessionOutput) {stage : ℕ → TurnStage} (hstage : ∀ call, (stage call).call? = some call) :
    (s.publishFromTurn i task o stage).Linked := by
  obtain ⟨t, call, hpublish, hcarries, hpublishes⟩ := carries_publish hs hg o
  rw [ForegroundSession.publishFromTurn, hpublish]
  refine (hs.carries hcarries).setTurn (hg.trans hcarries.generation_le) fun call' h => ?_
  obtain rfl : call = call' := Option.some.inj ((hstage call).symm.trans h)
  exact hpublishes

theorem Linked.failTurn (hs : s.Linked) (hg : task.generation ≤ s.generation)
    (failure : TurnFailure) : (s.failTurn i task failure).Linked :=
  hs.publishFromTurn hg _ fun _ => rfl

theorem Linked.prepareTurn (hs : s.Linked) (hg : task.generation ≤ s.generation)
    (snapshot : ContextSnapshot) : (s.prepareTurn i task snapshot).Linked := by
  have h := carries_spawn (s := s)
  rw [ForegroundSession.prepareTurn]
  generalize s.spawn = p at h ⊢
  obtain ⟨t, e | child⟩ := p
  · exact (hs.carries h).failTurn (hg.trans h.generation_le) _
  · exact (hs.carries h).publishFromTurn (hg.trans h.generation_le) _ fun _ => rfl

theorem Linked.raiseInTurn (hs : s.Linked) (hg : task.generation ≤ s.generation)
    (error : DialogueError) : (s.raiseInTurn i task error).Linked := by
  cases error with
  | dialogueCancelled | cancelledError => exact hs.endTurn hg none
  | protocolError | provider => exact hs.failTurn hg _

theorem Linked.publishSegment (hs : s.Linked) (hg : task.generation ≤ s.generation)
    (segment : UtteranceSegment) : (s.publishSegment i task segment).Linked := by
  rw [ForegroundSession.publishSegment]
  dsimp only
  split
  · have h := carries_transitionIfCurrent (s := s) task.generation
      (.speaking, "first validated utterance segment")
    generalize s.transitionIfCurrent task.generation _ = p at h ⊢
    have hg' := hg.trans h.generation_le
    obtain ⟨t, e | _ | _⟩ := p
    · exact (hs.carries h).failTurn hg' _
    · exact (hs.carries h).endTurn hg' none
    · have hgeneration : ({ task with firstSegment := false } : TurnTask).generation ≤ _ := hg'
      exact (hs.carries h).publishFromTurn hgeneration _ fun _ => rfl
  · exact hs.publishFromTurn hg _ fun _ => rfl

theorem Linked.handleEvent (hs : s.Linked) (hg : task.generation ≤ s.generation)
    (event : DialogueStreamEvent) : (s.handleEvent i task event).Linked := by
  let task' : TurnTask := { task with yielded := task.yielded ++ [event] }
  have hg' : task'.generation ≤ s.generation := hg
  cases event with
  | segmentReady _ _ segment => exact hs.publishSegment hg' segment
  | segmentAudioReady => exact hs.publishFromTurn hg' _ fun _ => rfl
  | utteranceCompleted _ _ plan =>
    rw [ForegroundSession.handleEvent]
    dsimp only
    split
    · exact hs.publishFromTurn hg' _ fun _ => rfl
    · exact hs.goOn hg rfl

theorem Linked.finishTurn (hs : s.Linked) (hg : task.generation ≤ s.generation) :
    (s.finishTurn i task).Linked := by
  have h := carries_finishInteraction (s := s) task.generation
  rw [ForegroundSession.finishTurn]
  generalize s.finishInteraction task.generation = p at h ⊢
  obtain ⟨t, e | b⟩ := p
  · exact (hs.carries h).failTurn (hg.trans h.generation_le) _
  · exact (hs.carries h).endTurn (hg.trans h.generation_le) none

theorem Linked.degrade (hs : s.Linked) (hg : task.generation ≤ s.generation) (reason : String)
    {raised : ForegroundSession → SessionError → ForegroundSession}
    (hraised : ∀ t e, t.Linked → task.generation ≤ t.generation → (raised t e).Linked)
    (b : Bool) : (s.degrade i task reason raised b).Linked := by
  cases b with
  | false => exact hs.endTurn hg none
  | true =>
    have h := carries_transitionIfCurrent (s := s) task.generation (.degraded, reason)
    rw [ForegroundSession.degrade]
    generalize s.transitionIfCurrent task.generation _ = p at h ⊢
    obtain ⟨t, e | b⟩ := p
    · exact hraised t e (hs.carries h) (hg.trans h.generation_le)
    · exact (hs.carries h).endTurn (hg.trans h.generation_le) none

theorem Linked.completeTurn (hs : s.Linked) (hg : task.generation ≤ s.generation)
    (plan : UtterancePlan) (published : Bool) :
    (s.completeTurn i task plan published).Linked := by
  have hstreaming {t : ForegroundSession} (ht : t.Linked) (hg : task.generation ≤ t.generation) :
      (t.setTurn i { task with stage := .streaming }).Linked := ht.goOn hg rfl
  rw [ForegroundSession.completeTurn]
  dsimp only
  split
  · have h := carries_spawn (s := s)
    generalize s.spawn = p at h ⊢
    obtain ⟨t, e | child⟩ := p
    · exact (hs.carries h).failTurn (hg.trans h.generation_le) _
    · exact hstreaming (hs.carries h) (hg.trans h.generation_le)
  · exact hstreaming hs hg

theorem Linked.resumeTurn (hs : s.Linked) (hg : task.generation ≤ s.generation)
    (hn : s.resumeTurn i task = some t) : t.Linked := by
  rw [ForegroundSession.resumeTurn] at hn
  split at hn
  · obtain ⟨b, -, rfl⟩ := Option.map_eq_some_iff.mp hn
    exact hs.goOn hg rfl
  · obtain ⟨b, -, rfl⟩ := Option.map_eq_some_iff.mp hn
    exact hs.goOn hg rfl
  · obtain ⟨b, -, rfl⟩ := Option.map_eq_some_iff.mp hn
    exact hs.completeTurn hg _ b
  · obtain ⟨b, -, rfl⟩ := Option.map_eq_some_iff.mp hn
    exact hs.degrade hg _ (fun t e ht hg => ht.failTurn hg _) b
  · obtain ⟨b, -, rfl⟩ := Option.map_eq_some_iff.mp hn
    exact hs.degrade hg _ (fun t e ht hg => ht.endTurn hg _) b
  · cases hn
  · cases hn
  · cases hn
  · cases hn

theorem Linked.cancelTurn (hs : s.Linked) (hg : task.generation ≤ s.generation) :
    (s.cancelTurn i task).Linked := by
  rw [ForegroundSession.cancelTurn]
  split
  · have h := carries_abandonCall (s := s) ‹ℕ›
    exact (hs.carries h).endTurn (hg.trans h.generation_le) none
  · exact hs.endTurn hg none

/-- **A step of a dialogue task.** -/
theorem Linked.stepTurn (hs : s.Linked) (hi : s.turns[i]? = some task) {label : TurnLabel}
    (hn : s.stepTurn i task label = some t) : t.Linked := by
  have hg : task.generation ≤ s.generation := hs.begun task (List.mem_of_getElem? hi)
  cases label with
  | prepared snapshot =>
    obtain ⟨-, ⟨⟩⟩ := Option.ite_none_right_eq_some.mp hn
    exact hs.prepareTurn hg snapshot
  | raises error =>
    obtain ⟨-, ⟨⟩⟩ := Option.ite_none_right_eq_some.mp hn
    exact hs.raiseInTurn hg error
  | yields event =>
    obtain ⟨-, ⟨⟩⟩ := Option.ite_none_right_eq_some.mp hn
    exact hs.handleEvent hg event
  | ends =>
    obtain ⟨-, ⟨⟩⟩ := Option.ite_none_right_eq_some.mp hn
    exact hs.finishTurn hg
  | register =>
    rw [ForegroundSession.stepTurn] at hn
    split at hn
    · cases hn
      exact hs.publishFromTurn hg _ fun _ => rfl
    · cases hn
  | resume => exact hs.resumeTurn hg hn
  | cancelled =>
    obtain ⟨-, ⟨⟩⟩ := Option.ite_none_right_eq_some.mp hn
    exact hs.cancelTurn hg

/-! ### The task of the actor -/

theorem Linked.enterFinally (hs : s.Linked) (terminal : Ending) :
    (s.enterFinally terminal).Linked := by
  refine hs.carries (.of_actor ?_ rfl (fun x hx => absurd hx List.not_mem_nil)
    (fun _ h => ActorTask.noConfusion h) rfl)
  exact ⟨rfl, rfl, CancellationSource.narrows_shutDown, fun _ => rfl, Or.inl⟩

theorem Linked.failHandler (hs : s.Linked) (e : SessionError) : (s.failHandler e).Linked :=
  (hs.carries (t := s.withActor { s.actor with failure := some e })
    (.of_eq rfl rfl rfl rfl rfl rfl)).enterFinally .failed

/-- A step of a handler, and what follows it. -/
theorem Linked.proceed {α : Type} {p : ForegroundSession × Except SessionError α}
    {continuation : ForegroundSession → α → ForegroundSession} (hs : s.Linked)
    (hp : Carries s p.1) (h : ∀ x, p.1.Linked → (continuation p.1 x).Linked) :
    (ForegroundSession.proceed p continuation).Linked := by
  obtain ⟨t, e | x⟩ := p
  · exact (hs.carries hp).failHandler e
  · exact h x (hs.carries hp)

theorem Linked.publishFromHandler (hs : s.Linked) (hg : message.generation ≤ s.generation)
    (stage : HandlerStage) (o : SessionOutput) : (s.publishFromHandler message stage o).Linked := by
  obtain ⟨t, call, hpublish, hcarries, -⟩ := carries_publish hs hg o
  have ht := hs.carries hcarries
  rw [ForegroundSession.publishFromHandler, hpublish]
  refine ⟨ht.wellFormed, ht.answers, ht.queued, fun frame hf => ?_, ht.begun, ht.linked⟩
  cases hf
  exact hg.trans hcarries.generation_le

/-- The transitions of a handler are made, and then it publishes. -/
theorem Linked.publishAfter (hs : s.Linked) (hg : message.generation ≤ s.generation)
    (requests : List TransitionRequest)
    {continuation : ForegroundSession → Unit → ForegroundSession}
    (h : ∀ t, t.Linked → message.generation ≤ t.generation → (continuation t ()).Linked) :
    (ForegroundSession.proceed (s.transitions requests) continuation).Linked := by
  have hcarries := carries_transitions requests s
  exact hs.proceed hcarries fun _ ht => h _ ht (hg.trans hcarries.generation_le)

theorem Linked.acceptTurn (hs : s.Linked) (hg : message.generation ≤ s.generation)
    (turn : TurnRequest) : (s.acceptTurn message turn).Linked := by
  refine hs.publishAfter hg _ fun t ht hgt => ht.proceed carries_spawn fun child hu => ?_
  have hgu := hgt.trans (carries_spawn (s := t)).generation_le
  split
  · exact hu.publishFromHandler hgu _ _
  · exact hu.publishFromHandler hgu _ _

/-- **The next command is handled.** -/
theorem Linked.handleMessage (hs : s.Linked) (hg : message.generation ≤ s.generation) :
    (s.handleMessage message).Linked := by
  have hcapture (capturing : Bool) : Linked { s with voiceCaptureActive := capturing } :=
    hs.carries (.of_eq rfl rfl rfl rfl rfl rfl)
  have hpublish (o : SessionOutput) : (s.publishFromHandler message .last o).Linked :=
    hs.publishFromHandler hg _ o
  rw [ForegroundSession.handleMessage]
  dsimp only
  split
  · exact hs.acceptTurn hg _
  · exact hs.publishAfter hg _ fun t ht hgt => ht.publishFromHandler hgt _ _
  · exact (hcapture true).publishAfter hg _ fun t ht hgt => ht.publishFromHandler hgt _ _
  · exact (hcapture false).publishAfter hg _ fun t ht hgt => ht.publishFromHandler hgt _ _
  · refine hs.publishAfter hg _ fun t ht hgt => ?_
    split
    · exact ht.publishFromHandler hgt _ _
    · exact ht.publishFromHandler hgt _ _
  · exact hpublish _
  · exact hpublish _
  · exact hpublish _
  · exact hpublish _
  · exact hpublish _
  · exact hpublish _
  · exact hs.failHandler _

theorem Linked.returnFromHandler (hs : s.Linked) (message : SessionMessage SessionEvent) :
    (s.returnFromHandler message).Linked :=
  ⟨hs.wellFormed, hs.answers, hs.queued, fun _ h => ActorTask.noConfusion h, hs.begun, hs.linked⟩

/-- **The handler goes on from a wait.** -/
theorem Linked.continueHandler (hs : s.Linked) {frame : HandlerFrame}
    (htask : s.actorTask = .handling frame) : (s.continueHandler frame).Linked := by
  have hg := hs.handled frame htask
  rw [ForegroundSession.continueHandler]
  split
  · exact hs.publishFromHandler hg _ _
  · refine hs.proceed carries_spawn fun child ht => Linked.returnFromHandler ?_ frame.message
    refine ⟨ht.wellFormed, ht.answers, ht.queued, ht.handled, ?_, ?_⟩
    · refine List.forall_mem_append.mpr ⟨ht.begun, List.forall_mem_singleton.mpr ?_⟩
      exact hg.trans (carries_spawn (s := s)).generation_le
    · refine List.forall_mem_append.mpr ⟨ht.linked, List.forall_mem_singleton.mpr ?_⟩
      exact fun _ h => by cases h
  · exact hs.publishFromHandler hg _ _
  · exact hs.returnFromHandler _

/-! ### Submissions -/

section Submissions

variable {c : SessionCommand} {e : EventEnvelope SessionEvent} {reason : Text}

/-- What is queued new is of the generation given. -/
theorem issued_of_queued {a a' : SessionActor SessionEvent Empty}
    (hg : g ≤ a'.cancellation.generation)
    (h : ∀ x ∈ a'.inbox.items, x ∈ a.inbox.items ∨ x.item.generation = g) :
    ∀ x ∈ a'.inbox.items, x ∈ a.inbox.items ∨ x.generation ≤ a'.cancellation.generation :=
  fun x hx => (h x hx).imp_right fun hx => hx.trans_le hg

theorem onward_advance {source : CancellationSource} {token : CancellationToken}
    (h : s.actor.cancellation.advance reason = .ok (source, token)) :
    s.actor.Onward { s.actor with cancellation := source } ∧
      token.generation = source.generation := by
  obtain ⟨hopen, -, hgeneration, rfl, -⟩ := CancellationSource.advance_eq_ok h
  refine ⟨⟨rfl, rfl, CancellationSource.narrows_advance h, fun hc => ?_, Or.inl⟩, hgeneration.symm⟩
  exact absurd (hopen.symm.trans hc) Bool.false_ne_true

theorem carries_submit (hs : s.Linked) (hover : s.actor.inbox.config.overflow ≠ .coalesce) :
    Carries s (s.withActor (s.actor.submit e).1) := by
  rcases s.actor.submit_cases e with ⟨err, he⟩ | ⟨-, -, he⟩
  · rw [he]
    exact .refl s
  · rw [he]
    obtain ⟨honward, hsource, hqueued⟩ := SessionActor.submitWithToken_queued hs.wellFormed hover
      e s.actor.cancellation.token
    have hg := (congrArg CancellationSource.generation hsource).ge
    exact .of_actor honward rfl (issued_of_queued hg hqueued) (fun _ h => h) rfl

theorem carries_submitForegroundTurn (hs : s.Linked)
    (hover : s.actor.inbox.config.overflow ≠ .coalesce) :
    Carries s (s.withActor (s.actor.submitForegroundTurn e reason).1) := by
  rcases s.actor.submitForegroundTurn_cases e reason with ⟨err, he⟩ | ⟨source, token, -, hadv, he⟩
  · rw [he]
    exact .refl s
  · rw [he]
    obtain ⟨hadvanced, htoken⟩ := onward_advance hadv
    obtain ⟨honward, hsource, hqueued⟩ := SessionActor.submitWithToken_queued
      (a := { s.actor with cancellation := source }) (hs.wellFormed.congr rfl rfl) hover e token
    have hissued := htoken.le.trans (congrArg CancellationSource.generation hsource).ge
    exact .of_actor (hadvanced.trans honward) rfl (issued_of_queued hissued hqueued)
      (fun _ h => h) rfl

theorem carries_submitWait (hs : s.Linked)
    (hover : s.actor.inbox.config.overflow ≠ .coalesce) :
    Carries s { s with traffic := s.traffic.begin (s.actor.submitWait e) } := by
  rcases s.actor.submitWait_cases e with ⟨err, he⟩ | ⟨stamped, -, -, -, he⟩
  · rw [he]
    exact .refl s
  · rw [he]
    let call : Call SessionEvent :=
      ⟨.submission, s.actor.cancellation.generation, stamped, .waiting⟩
    have hstamped : s.actor.Onward s.actor.stampedActor := .of_eq rfl rfl rfl rfl
    obtain ⟨honward, hsource, hk, hg, -⟩ := SessionActor.firstAttempt_answers (c := call)
      hs.wellFormed.stampedActor rfl hs.answers.closed
    have hqueued := SessionActor.firstAttempt_queued (c := call)
      hs.wellFormed.stampedActor rfl hover
    refine carries_begin (hstamped.trans honward) ?_ (issued_of_queued ?_ hqueued)
      fun _ h => CallKind.noConfusion (hk.symm.trans h)
    · rw [hg, hsource]
      exact le_refl _
    · rw [hsource]
      exact le_refl _

theorem carries_submitForegroundTurnWait (hs : s.Linked)
    (hover : s.actor.inbox.config.overflow ≠ .coalesce) :
    Carries s
      { s with traffic := s.traffic.begin (s.actor.submitForegroundTurnWait e reason) } := by
  rcases s.actor.submitForegroundTurnWait_cases e reason with
    ⟨err, he⟩ | ⟨source, token, -, hadv, hrest⟩
  · rw [he]
    exact .refl s
  · obtain ⟨hadvanced, htoken⟩ := onward_advance hadv
    have hw : SessionActor.WellFormed { s.actor with cancellation := source } :=
      hs.wellFormed.congr rfl rfl
    rcases hrest with ⟨err, he⟩ | ⟨stamped, -, he⟩
    · rw [he]
      exact .of_actor hadvanced rfl (fun _ hx => Or.inl hx) (fun _ h => h) rfl
    · rw [he]
      let call : Call SessionEvent := ⟨.submission, token.generation, stamped, .waiting⟩
      have hstamped : s.actor.Onward
          (SessionActor.stampedActor { s.actor with cancellation := source }) :=
        hadvanced.trans (.of_eq rfl rfl rfl rfl)
      obtain ⟨honward, hsource, hk, hg, -⟩ := SessionActor.firstAttempt_answers (c := call)
        hw.stampedActor rfl fun hclosed => hadvanced.closing (hs.answers.closed hclosed)
      have hqueued := SessionActor.firstAttempt_queued (c := call) hw.stampedActor rfl hover
      refine carries_begin (hstamped.trans honward) ?_ (issued_of_queued ?_ hqueued)
        fun _ h => CallKind.noConfusion (hk.symm.trans h)
      · rw [hg, hsource]
        exact htoken.le
      · rw [hsource]
        exact htoken.le

end Submissions

/-! ### Waiting calls -/

/-- **A waiting call tries again.** -/
theorem carries_attempt (hs : s.Linked) (hover : s.actor.inbox.config.overflow ≠ .coalesce)
    {traffic : Traffic SessionEvent Empty} (hn : s.traffic.next (.attempt i) = some traffic) :
    Carries s { s with traffic := traffic } := by
  obtain ⟨c, a, c', hc, hattempt, rfl⟩ := Traffic.resume_eq_some.mp hn
  obtain ⟨hphase, rfl, hc'⟩ := Traffic.attempting_eq_some hattempt
  have htry := SessionActor.tryPut_attempted (c := c) hs.wellFormed
  obtain ⟨honward, hsource⟩ := htry.onward
  have hissued := hs.answers.issued c (List.mem_of_getElem? hc)
  have hqueued := issued_of_queued (hissued.trans honward.narrows.generation) (htry.queued hover)
  rcases hc' with ⟨-, rfl⟩ | ⟨r, hr, rfl⟩
  · refine carries_call hc honward rfl rfl hqueued fun _ _ h => ?_
    rw [hphase] at h
    cases h
  · refine carries_call hc honward rfl rfl hqueued fun hanswers hk h => ?_
    have hrefused : accepted r = false := (Bool.not_eq_true' _).mp h
    rcases SessionActor.tryPut_refused hs.wellFormed hk hr hrefused with hacc | hout
    · exact hacc
    · exact CancellationSource.accepts_of_closed (hanswers.closed hout)

/-- **A waiting call is given up**: its generation was cancelled. -/
theorem carries_giveUp {traffic : Traffic SessionEvent Empty}
    (hn : s.traffic.next (.giveUp i) = some traffic) : Carries s { s with traffic := traffic } := by
  obtain ⟨c, a, c', hc, hgive, rfl⟩ := Traffic.resume_eq_some.mp hn
  obtain ⟨-, hcancelled, rfl, rfl | rfl⟩ := Traffic.givingUp_eq_some hgive
  · exact carries_call hc (.of_eq rfl rfl rfl rfl) rfl rfl (fun _ hx => Or.inl hx)
      fun _ _ _ => CancellationSource.accepts_of_cancelled hcancelled
  · exact carries_call hc (.of_eq rfl rfl rfl rfl) rfl rfl (fun _ hx => Or.inl hx)
      fun _ _ _ => CancellationSource.accepts_of_cancelled hcancelled

theorem carries_settle {traffic : Traffic SessionEvent Empty}
    (hn : s.traffic.next (.settle i) = some traffic) : Carries s { s with traffic := traffic } := by
  obtain ⟨c, a, c', hc, hsettle, rfl⟩ := Traffic.resume_eq_some.mp hn
  obtain ⟨r, hphase, hr⟩ := Traffic.settling_eq_some hsettle
  have ha : a = (s.actor.settle c r).1 := congrArg Prod.fst hr
  have hc' : c' = { c with phase := .returned r } := congrArg Prod.snd hr
  subst ha hc'
  have hsame := SessionActor.sameFloor_settle (a := s.actor) (c := c) r
  refine carries_call hc (SessionActor.onward_settle r).1 rfl rfl
    (fun x hx => Or.inl (hsame.inboxItems ▸ hx)) fun hanswers hk h => ?_
  refine hanswers.refusals c (List.mem_of_getElem? hc) hk ?_
  rw [hphase]
  exact h

theorem carries_abandon {traffic : Traffic SessionEvent Empty}
    (hn : s.traffic.next (.abandon i) = some traffic) :
    Carries s { s with traffic := traffic } := by
  obtain ⟨c, a, c', hc, habandon, rfl⟩ := Traffic.resume_eq_some.mp hn
  obtain ⟨-, rfl, rfl⟩ := Traffic.abandoning_eq_some habandon
  exact carries_call hc (.of_eq rfl rfl rfl rfl) rfl rfl (fun _ hx => Or.inl hx)
    fun _ _ h => Bool.noConfusion h

/-! ### The ends of a session -/

theorem carries_stop (graceful cancelRequested : Bool) : Carries s
    { s.withActor (s.actor.stop graceful) with cancelRequested := cancelRequested } := by
  have hcloses (discard : Bool) : ∀ x ∈ (s.actor.inbox.close discard).1.items,
      x ∈ s.actor.inbox.items := by
    rw [(PriorityMailbox.close_frame s.actor.inbox discard).2.2.2]
    split
    · exact fun _ hx => absurd hx List.not_mem_nil
    · exact fun _ hx => hx
  have hstarted : Carries s { s.withActor (s.actor.stopStarted graceful) with
      cancelRequested := cancelRequested } :=
    .of_actor ⟨(PriorityMailbox.close_frame _ _).1, rfl, CancellationSource.narrows_shutDown,
      fun _ => rfl, Or.inl⟩ rfl (fun x hx => Or.inl (hcloses _ x hx)) (fun _ h => h) rfl
  have hended : Carries s { s.withActor s.actor with cancelRequested := cancelRequested } :=
    .of_eq rfl rfl rfl rfl rfl rfl
  rw [SessionActor.stop]
  rcases s.actor.lifecycle with _ | _ | _ | _ | _ | _
  · exact .of_actor ⟨(PriorityMailbox.close_frame _ _).1, (PriorityMailbox.close_frame _ _).1,
      CancellationSource.narrows_shutDown, fun _ => rfl, fun _ => Or.inr rfl⟩ rfl
      (fun x hx => Or.inl (hcloses _ x hx)) (fun _ h => h) rfl
  · exact hstarted
  · exact hstarted
  · exact hstarted
  · exact hended
  · exact hended

theorem carries_leaveFinally (hclosed : s.actor.cancellation.closed = true) (terminal : Ending) :
    Carries s { s.withActor (s.actor.leaveFinally terminal) with actorTask := .ended } :=
  .of_actor ⟨rfl, (PriorityMailbox.close_frame _ _).1, .refl _, fun h => h,
    fun _ => Or.inr hclosed⟩ rfl (fun _ hx => Or.inl hx) (fun _ h => ActorTask.noConfusion h) rfl

theorem Linked.interruptActor (hs : s.Linked) (hn : s.interruptActor = some t) : t.Linked := by
  rw [ForegroundSession.interruptActor] at hn
  split at hn
  · cases hn
    exact hs.enterFinally _
  · cases hn
    exact (hs.carries (carries_abandonCall _)).enterFinally _
  · cases hn
    exact ⟨hs.wellFormed, hs.answers, hs.queued, fun _ h => ActorTask.noConfusion h, hs.begun,
      hs.linked⟩
  · cases hn
  · cases hn

/-! ### All steps -/

/-- **Every step keeps the answers truthful.** -/
theorem Linked.next (hlive : s.Live) (hs : s.Linked) (hn : s.next l = some t) : t.Linked := by
  have hover : s.actor.inbox.config.overflow ≠ .coalesce :=
    hlive.overflow ▸ OverflowPolicy.noConfusion
  cases l with
  | start =>
    rw [ForegroundSession.next, SessionActor.start] at hn
    split at hn
    · rename_i a hstart
      split at hstart
      · cases hstart
        cases hn
        -- the session is open before it says that it is ready
        let u : ForegroundSession :=
          { s.withActor { s.actor with lifecycle := .running } with actorTask := .receiving }
        have hu : u.Linked := hs.carries
          (.of_actor (.of_eq rfl rfl rfl rfl) rfl (fun _ hx => Or.inl hx)
            (fun _ h => ActorTask.noConfusion h) rfl)
        obtain ⟨v, call, hpublish, hcarries, -⟩ :=
          carries_publish hu (le_refl _) (.sessionReady 0 .idle)
        change (u.publish u.generation (.sessionReady 0 .idle)).1.Linked
        rw [hpublish]
        exact hu.carries hcarries
      · cases hstart
    · cases hn
  | request request eventId =>
    obtain ⟨⟨c, method⟩, -, rfl⟩ := Option.map_eq_some_iff.mp hn
    cases method with
    | submit => exact hs.carries (carries_submit hs hover)
    | submitWait => exact hs.carries (carries_submitWait hs hover)
    | submitForegroundTurn => exact hs.carries (carries_submitForegroundTurn hs hover)
    | submitForegroundTurnWait => exact hs.carries (carries_submitForegroundTurnWait hs hover)
  | attempt i =>
    obtain ⟨traffic, htraffic, rfl⟩ := Option.map_eq_some_iff.mp hn
    exact hs.carries (carries_attempt hs hover htraffic)
  | giveUp i =>
    obtain ⟨traffic, htraffic, rfl⟩ := Option.map_eq_some_iff.mp hn
    exact hs.carries (carries_giveUp htraffic)
  | settle i =>
    obtain ⟨traffic, htraffic, rfl⟩ := Option.map_eq_some_iff.mp hn
    exact hs.carries (carries_settle htraffic)
  | abandon i =>
    rw [ForegroundSession.next] at hn
    split at hn
    · obtain ⟨traffic, htraffic, rfl⟩ := Option.map_eq_some_iff.mp hn
      exact hs.carries (carries_abandon htraffic)
    · cases hn
  | receiveOutput =>
    obtain ⟨traffic, htraffic, rfl⟩ := Option.map_eq_some_iff.mp hn
    obtain ⟨p, hget, rfl⟩ := Option.map_eq_some_iff.mp htraffic
    obtain ⟨_, _, -, -, hcfg, hclosed, -⟩ := PriorityMailbox.get_eq_some (x := p.2) hget
    exact hs.carries (.of_actor (.of_eq rfl hcfg rfl hclosed) rfl (fun _ hx => Or.inl hx)
      (fun _ h => h) rfl)
  | receiveMessage =>
    obtain ⟨-, hn⟩ := Option.ite_none_right_eq_some.mp hn
    obtain ⟨⟨inbox, x⟩, hget, rfl⟩ := Option.map_eq_some_iff.mp hn
    obtain ⟨l₁, l₂, hitems, hrest, hcfg, -⟩ := PriorityMailbox.get_eq_some hget
    have hx : x ∈ s.actor.inbox.items := hitems ▸ List.mem_append_right _ List.mem_cons_self
    -- what is taken was in the inbox, and so of a generation that was issued
    have htaking : Carries s (s.taking inbox) := by
      refine .of_actor (.of_eq hcfg rfl rfl rfl) rfl (fun y hy => Or.inl ?_) (fun _ h => h) rfl
      have hy' : y ∈ inbox.items := hy
      rw [hrest] at hy'
      rw [hitems]
      exact ((List.sublist_cons_self _ _).append_left _).subset hy'
    exact (hs.carries htaking).handleMessage ((hs.queued x hx).trans htaking.generation_le)
  | resumeHandler =>
    rw [ForegroundSession.next] at hn
    split at hn
    · rename_i frame htask
      split at hn
      · cases hn
      · obtain ⟨b, -, rfl⟩ := Option.map_eq_some_iff.mp hn
        exact hs.continueHandler htask
    · cases hn
    · cases hn
    · cases hn
    · cases hn
  | drained =>
    obtain ⟨-, ⟨⟩⟩ := Option.ite_none_right_eq_some.mp hn
    exact hs.enterFinally .stopped
  | interrupt =>
    obtain ⟨-, hn⟩ := Option.ite_none_right_eq_some.mp hn
    exact hs.interruptActor hn
  | leaveFinally =>
    rw [ForegroundSession.next] at hn
    split at hn
    · rename_i terminal htask
      obtain ⟨-, ⟨⟩⟩ := Option.ite_none_right_eq_some.mp hn
      exact hs.carries
        (carries_leaveFinally (hlive.finishing (by rw [isFinishing, htask])) terminal)
    · cases hn
    · cases hn
    · cases hn
    · cases hn
  | turn i label =>
    obtain ⟨task, htask, hstep⟩ := Option.bind_eq_some_iff.mp hn
    exact hs.stepTurn htask hstep
  | workerDone child exception =>
    obtain ⟨-, ⟨⟩⟩ := Option.ite_none_right_eq_some.mp hn
    exact hs.carries (carries_childDone child _)
  | stop graceful =>
    cases hn
    exact hs.carries (carries_stop graceful _)
  | stopTimesOut =>
    obtain ⟨-, ⟨⟩⟩ := Option.ite_none_right_eq_some.mp hn
    exact hs.carries (.of_eq rfl rfl rfl rfl rfl rfl)

end ForegroundSession

end Eeveetuber
