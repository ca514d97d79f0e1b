import Eeveetuber.Application.ForegroundQuiescence

/-!
# A graceful stop

`stop(graceful=True)` closes the generations and the inbox and lets the actor handle what is
queued. `Eeveetuber.ForegroundSession.graceful_stop` is how that ends, if the session is healthy
(it has not failed, and its actor serves and is not to be cancelled) and is left the time: it
ends `stopped`, every queued message having been handled once, exactly if none of them is a turn.
A turn needs a task of its own, which a session that is being stopped does not create, so its
handler raises and the session ends `failed`.

While the actor handles what is queued, the dialogue tasks, the clients and the tasks that
persist something go on; none of them bears on it (`Eeveetuber.ForegroundSession.Aside`).
-/

namespace Eeveetuber

open Foundation

/-- The message that a handler has in hand. -/
def ActorTask.inHand : ActorTask → List (SessionMessage SessionEvent)
  | .handling frame => [frame.message]
  | .unborn | .receiving | .finishing _ | .ended => []

namespace SessionActor

variable {β κ : Type}

theorem observeEvent_failure (a : SessionActor β κ) (e : EventEnvelope β) :
    (a.observeEvent e).failure = a.failure := by
  rw [observeEvent]
  split
  · rfl
  · rfl

theorem settle_failure (a : SessionActor β κ) (c : Call β) (r : Except MailboxError PutReport) :
    (a.settle c r).1.failure = a.failure := by
  rcases hr : accepted r with _ | _
  · obtain ⟨n, hn⟩ := settle_of_not_accepted (a := a) (c := c) hr
    rw [hn]
  · rw [settle_of_accepted hr]
    exact observeEvent_failure _ _

theorem Attempted.failure_eq [DecidableEq κ] {a a' : SessionActor β κ} {c : Call β}
    {r : Option (Except MailboxError PutReport)} (h : Attempted a c a' r) :
    a'.failure = a.failure := by
  cases h with
  | refused | message | output => rfl

end SessionActor

namespace ForegroundSession

variable {s t u : ForegroundSession} {i : ℕ} {task : TurnTask} {g : CancellationGeneration}
  {o : SessionOutput} {l : Label} {message : SessionMessage SessionEvent}

/-! ### Steps aside -/

/-- What the actor has before it, and how it stands, is as it was. -/
structure Aside (s t : ForegroundSession) : Prop where
  inboxConfig : t.actor.inbox.config = s.actor.inbox.config
  outboxConfig : t.actor.outbox.config = s.actor.outbox.config
  items : t.actor.inbox.items = s.actor.inbox.items
  closed : s.actor.inbox.closed = true → t.actor.inbox.closed = true
  lifecycle : t.actor.lifecycle = s.actor.lifecycle
  failure : s.actor.lifecycle ≠ .running → t.actor.failure = s.actor.failure
  uncancelled : s.actor.lifecycle ≠ .running → t.cancelRequested = s.cancelRequested
  actorTask : t.actorTask = s.actorTask
  handled : t.handled = s.handled

theorem Aside.refl (s : ForegroundSession) : Aside s s :=
  ⟨rfl, rfl, rfl, id, rfl, fun _ => rfl, fun _ => rfl, rfl, rfl⟩

theorem Aside.trans (h : Aside s t) (h' : Aside t u) : Aside s u :=
  ⟨h'.inboxConfig.trans h.inboxConfig, h'.outboxConfig.trans h.outboxConfig,
    h'.items.trans h.items, fun hs => h'.closed (h.closed hs), h'.lifecycle.trans h.lifecycle,
    fun hs => (h'.failure (h.lifecycle ▸ hs)).trans (h.failure hs),
    fun hs => (h'.uncancelled (h.lifecycle ▸ hs)).trans (h.uncancelled hs),
    h'.actorTask.trans h.actorTask, h'.handled.trans h.handled⟩

theorem Aside.wellFormed (h : Aside s t) (hs : s.actor.WellFormed) : t.actor.WellFormed :=
  hs.congr h.inboxConfig h.outboxConfig

theorem aside_transition (request : TransitionRequest) : Aside s (s.transition request).1 := by
  rw [transition]
  split
  · rename_i a ha
    rw [SessionActor.transitionInteraction] at ha
    split at ha
    · split at ha
      · cases ha
      · cases ha
        exact ⟨rfl, rfl, rfl, id, rfl, fun _ => rfl, fun _ => rfl, rfl, rfl⟩
    · cases ha
  · exact ⟨rfl, rfl, rfl, id, rfl, fun _ => rfl, fun _ => rfl, rfl, rfl⟩

theorem aside_transitionIfCurrent (g : CancellationGeneration) (request : TransitionRequest) :
    Aside s (s.transitionIfCurrent g request).1 := by
  rw [transitionIfCurrent_eq]
  split
  · exact aside_transition request
  · exact ⟨rfl, rfl, rfl, id, rfl, fun _ => rfl, fun _ => rfl, rfl, rfl⟩

theorem aside_finishInteraction (g : CancellationGeneration) :
    Aside s (s.finishInteraction g).1 := by
  have hlisten (s : ForegroundSession) : Aside s (if s.voiceCaptureActive then
      s.transitionIfCurrent g (.listening, "microphone remains active after utterance")
      else (s, .ok true)).1 := by
    split
    · exact aside_transitionIfCurrent g _
    · exact .refl s
  rw [finishInteraction]
  dsimp only
  split
  · have h := aside_transitionIfCurrent (s := s) g (.idle, "utterance stream completed")
    generalize s.transitionIfCurrent g (.idle, "utterance stream completed") = p at h ⊢
    obtain ⟨t, e | _ | _⟩ := p
    · exact h
    · exact h
    · exact h.trans (hlisten t)
  · exact hlisten s

theorem aside_spawn : Aside s s.spawn.1 := by
  rw [spawn, SessionActor.spawn]
  by_cases hrun : s.actor.lifecycle = .running
  · rw [if_pos hrun]
    exact ⟨rfl, rfl, rfl, id, rfl, fun _ => rfl, fun _ => rfl, rfl, rfl⟩
  · rw [if_neg hrun]
    exact .refl s

/-- A child that raises fails a running session only. -/
theorem aside_childDone (child : ℕ) (exception : Option SessionError) :
    Aside s (s.childDone child exception) := by
  rw [childDone]
  unfold SessionActor.childDone
  rcases exception with _ | e
  · exact ⟨rfl, rfl, rfl, id, rfl, fun _ => rfl, fun _ => Bool.or_false _, rfl, rfl⟩
  · by_cases hrun : s.actor.lifecycle = .running
    · dsimp only
      rw [if_pos hrun]
      exact ⟨rfl, rfl, rfl, id, rfl, fun h => absurd hrun h, fun h => absurd hrun h, rfl, rfl⟩
    · dsimp only
      rw [if_neg hrun]
      exact ⟨rfl, rfl, rfl, id, rfl, fun _ => rfl, fun _ => Bool.or_false _, rfl, rfl⟩

theorem aside_publish (hs : s.actor.WellFormed) (g : CancellationGeneration) (o : SessionOutput) :
    Aside s (s.publish g o).1 := by
  have hcall {a : SessionActor SessionEvent Empty} {c : Call SessionEvent}
      (hsame : s.actor.SameFloor a) (hfailure : a.failure = s.actor.failure) :
      Aside s { s with traffic := s.traffic.begin (a, .ok c) } :=
    ⟨hsame.inboxConfig, hsame.outboxConfig, hsame.inboxItems,
      fun h => hsame.inboxClosed.trans h, hsame.lifecycle, fun _ => hfailure, fun _ => rfl, rfl,
      rfl⟩
  rw [publish]
  dsimp only
  rcases s.actor.publishResult_cases (s.outputEvent o) g with
    ⟨-, he⟩ | ⟨-, ⟨err, he⟩ | ⟨stamped, -, he⟩⟩
  · rw [he]
    exact hcall ⟨rfl, rfl, rfl, rfl, rfl, rfl, rfl, rfl, rfl⟩ rfl
  · rw [he]
    exact .refl s
  · rw [he]
    let call : Call SessionEvent := ⟨.publication, g, stamped, .waiting⟩
    have hsame := (SessionActor.sameFloor_firstAttempt (c := call) hs.stampedActor rfl rfl).1
    refine hcall (SessionActor.sameFloor_stampedActor.trans hsame) ?_
    have hbegun := SessionActor.firstAttempt_begun (c := call) hs.stampedActor rfl
    generalize s.actor.stampedActor.firstAttempt call = p at hbegun ⊢
    cases hbegun with
    | waits hatt | rejected hatt => exact hatt.failure_eq
    | admitted hatt => exact (SessionActor.observeEvent_failure _ _).trans hatt.failure_eq

theorem aside_abandonCall (call : ℕ) : Aside s (s.abandonCall call) := by
  rw [abandonCall]
  rcases hresume : s.traffic.resume call (Traffic.abandoning s.actor) with _ | traffic
  · exact .refl s
  · obtain ⟨c, a, c', hc, habandon, rfl⟩ := Traffic.resume_eq_some.mp hresume
    obtain ⟨-, rfl, rfl⟩ := Traffic.abandoning_eq_some habandon
    exact ⟨rfl, rfl, rfl, id, rfl, fun _ => rfl, fun _ => rfl, rfl, rfl⟩

/-! ### Dialogue tasks -/

theorem aside_setTurn (i : ℕ) (task : TurnTask) : Aside s (s.setTurn i task) :=
  ⟨rfl, rfl, rfl, id, rfl, fun _ => rfl, fun _ => rfl, rfl, rfl⟩

theorem aside_endTurn (i : ℕ) (task : TurnTask) (exception : Option SessionError) :
    Aside s (s.endTurn i task exception) :=
  (aside_setTurn i _).trans (aside_childDone task.child exception)

theorem aside_publishFromTurn (hs : s.actor.WellFormed) (i : ℕ) (task : TurnTask)
    (o : SessionOutput) (stage : ℕ → TurnStage) : Aside s (s.publishFromTurn i task o stage) := by
  have h := aside_publish hs task.generation o
  rw [publishFromTurn]
  generalize s.publish task.generation o = p at h ⊢
  obtain ⟨t, e | call⟩ := p
  · exact h.trans (aside_endTurn i task _)
  · exact h.trans (aside_setTurn i _)

theorem aside_failTurn (hs : s.actor.WellFormed) (i : ℕ) (task : TurnTask)
    (failure : TurnFailure) : Aside s (s.failTurn i task failure) :=
  aside_publishFromTurn hs i task _ _

theorem aside_prepareTurn (hs : s.actor.WellFormed) (i : ℕ) (task : TurnTask)
    (snapshot : ContextSnapshot) : Aside s (s.prepareTurn i task snapshot) := by
  have h := aside_spawn (s := s)
  rw [prepareTurn]
  generalize s.spawn = p at h ⊢
  obtain ⟨t, e | child⟩ := p
  · exact h.trans (aside_failTurn (h.wellFormed hs) i task _)
  · exact h.trans (aside_publishFromTurn (h.wellFormed hs) i task _ _)

theorem aside_raiseInTurn (hs : s.actor.WellFormed) (i : ℕ) (task : TurnTask)
    (error : DialogueError) : Aside s (s.raiseInTurn i task error) := by
  cases error with
  | dialogueCancelled | cancelledError => exact aside_endTurn i task none
  | protocolError | provider => exact aside_failTurn hs i task _

theorem aside_publishSegment (hs : s.actor.WellFormed) (i : ℕ) (task : TurnTask)
    (segment : UtteranceSegment) : Aside s (s.publishSegment i task segment) := by
  rw [publishSegment]
  dsimp only
  split
  · have h := aside_transitionIfCurrent (s := s) task.generation
      (.speaking, "first validated utterance segment")
    generalize s.transitionIfCurrent task.generation _ = p at h ⊢
    obtain ⟨t, e | _ | _⟩ := p
    · exact h.trans (aside_failTurn (h.wellFormed hs) i task _)
    · exact h.trans (aside_endTurn i task none)
    · exact h.trans (aside_publishFromTurn (h.wellFormed hs) i _ _ _)
  · exact aside_publishFromTurn hs i task _ _

theorem aside_handleEvent (hs : s.actor.WellFormed) (i : ℕ) (task : TurnTask)
    (event : DialogueStreamEvent) : Aside s (s.handleEvent i task event) := by
  cases event with
  | segmentReady _ _ segment => exact aside_publishSegment hs i _ segment
  | segmentAudioReady => exact aside_publishFromTurn hs i _ _ _
  | utteranceCompleted _ _ plan =>
    rw [handleEvent]
    dsimp only
    split
    · exact aside_publishFromTurn hs i _ _ _
    · exact aside_setTurn i _

theorem aside_finishTurn (hs : s.actor.WellFormed) (i : ℕ) (task : TurnTask) :
    Aside s (s.finishTurn i task) := by
  have h := aside_finishInteraction (s := s) task.generation
  rw [finishTurn]
  generalize s.finishInteraction task.generation = p at h ⊢
  obtain ⟨t, e | b⟩ := p
  · exact h.trans (aside_failTurn (h.wellFormed hs) i task _)
  · exact h.trans (aside_endTurn i task none)

theorem aside_degrade (hs : s.actor.WellFormed) (i : ℕ) (task : TurnTask) (reason : String)
    {raised : ForegroundSession → SessionError → ForegroundSession}
    (hraised : ∀ t e, t.actor.WellFormed → Aside t (raised t e)) (b : Bool) :
    Aside s (s.degrade i task reason raised b) := by
  cases b with
  | false => exact aside_endTurn i task none
  | true =>
    have h := aside_transitionIfCurrent (s := s) task.generation (.degraded, reason)
    rw [degrade]
    generalize s.transitionIfCurrent task.generation _ = p at h ⊢
    obtain ⟨t, e | b⟩ := p
    · exact h.trans (hraised t e (h.wellFormed hs))
    · exact h.trans (aside_endTurn i task none)

theorem aside_completeTurn (hs : s.actor.WellFormed) (i : ℕ) (task : TurnTask)
    (plan : UtterancePlan) (published : Bool) : Aside s (s.completeTurn i task plan published) := by
  rw [completeTurn]
  dsimp only
  split
  · have h := aside_spawn (s := s)
    generalize s.spawn = p at h ⊢
    obtain ⟨t, e | child⟩ := p
    · exact h.trans (aside_failTurn (h.wellFormed hs) i task _)
    · exact h.trans (aside_setTurn i _)
  · exact aside_setTurn i _

theorem aside_resumeTurn (hs : s.actor.WellFormed) (hn : s.resumeTurn i task = some t) :
    Aside s t := by
  rw [resumeTurn] at hn
  split at hn
  · obtain ⟨b, -, rfl⟩ := Option.map_eq_some_iff.mp hn
    exact aside_setTurn i _
  · obtain ⟨b, -, rfl⟩ := Option.map_eq_some_iff.mp hn
    exact aside_setTurn i _
  · obtain ⟨b, -, rfl⟩ := Option.map_eq_some_iff.mp hn
    exact aside_completeTurn hs i task _ b
  · obtain ⟨b, -, rfl⟩ := Option.map_eq_some_iff.mp hn
    exact aside_degrade hs i task _ (fun t e ht => aside_failTurn ht i task _) b
  · obtain ⟨b, -, rfl⟩ := Option.map_eq_some_iff.mp hn
    exact aside_degrade hs i task _ (fun t e _ => aside_endTurn i task _) b
  · cases hn
  · cases hn
  · cases hn
  · cases hn

/-- **A dialogue task steps aside.** -/
theorem aside_stepTurn (hs : s.actor.WellFormed) {label : TurnLabel}
    (hn : s.stepTurn i task label = some t) : Aside s t := by
  cases label with
  | prepared snapshot =>
    obtain ⟨-, ⟨⟩⟩ := Option.ite_none_right_eq_some.mp hn
    exact aside_prepareTurn hs i task snapshot
  | raises error =>
    obtain ⟨-, ⟨⟩⟩ := Option.ite_none_right_eq_some.mp hn
    exact aside_raiseInTurn hs i task error
  | yields event =>
    obtain ⟨-, ⟨⟩⟩ := Option.ite_none_right_eq_some.mp hn
    exact aside_handleEvent hs i task event
  | ends =>
    obtain ⟨-, ⟨⟩⟩ := Option.ite_none_right_eq_some.mp hn
    exact aside_finishTurn hs i task
  | register =>
    rw [stepTurn] at hn
    split at hn
    · cases hn
      exact aside_publishFromTurn hs i task _ _
    · cases hn
  | resume => exact aside_resumeTurn hs hn
  | cancelled =>
    obtain ⟨-, ⟨⟩⟩ := Option.ite_none_right_eq_some.mp hn
    rw [cancelTurn]
    split
    · exact (aside_abandonCall _).trans (aside_endTurn i task none)
    · exact aside_endTurn i task none

/-! ### The handlers of a session that is being stopped -/

/-- A handler publishes, and waits. -/
theorem aside_publishFromHandler (hs : s.actor.WellFormed)
    (message : SessionMessage SessionEvent) (stage : HandlerStage) (o : SessionOutput) :
    ∃ t call, Aside s t ∧ s.publishFromHandler message stage o =
      { t with actorTask := .handling ⟨message, stage, call⟩ } := by
  have h := aside_publish hs message.generation o
  obtain ⟨t, call, hpublish, -⟩ := publish_ok hs message.generation o
  rw [hpublish] at h
  exact ⟨t, call, h, by rw [publishFromHandler, hpublish]; rfl⟩

/-- The transitions of a command are all made. -/
theorem aside_transitions
    (hlifecycle : s.actor.lifecycle = .running ∨ s.actor.lifecycle = .stopping)
    (c : SessionCommand) (capturing capturing' : Bool) : ∃ t,
      ({ s with voiceCaptureActive := capturing' }).transitions (c.requests capturing s.state) =
        (t, .ok ()) ∧ Aside s t := by
  obtain ⟨n, hn⟩ := transitions_ok (s := { s with voiceCaptureActive := capturing' }) hlifecycle
    (c.legal_requests capturing s.state)
  exact ⟨_, hn, rfl, rfl, rfl, id, rfl, fun _ => rfl, fun _ => rfl, rfl, rfl⟩

/-- A command that is not a turn is handled up to an output. -/
theorem handleMessage_other {c : SessionCommand} (hs : s.actor.WellFormed)
    (hlifecycle : s.actor.lifecycle = .running ∨ s.actor.lifecycle = .stopping)
    (hbody : message.event.body = .command c) (hturn : c.isTurn = false) :
    ∃ t stage call, Aside s t ∧ (ActorTask.handling ⟨message, stage, call⟩).turn? = none ∧
      s.handleMessage message = { t with actorTask := .handling ⟨message, stage, call⟩ } := by
  -- what the handler publishes leaves the message in its hands
  have hpublish {u : ForegroundSession} (hu : Aside s u) {stage : HandlerStage}
      (hstage : ∀ call, (ActorTask.handling ⟨message, stage, call⟩).turn? = none)
      (o : SessionOutput) : ∃ t stage' call, Aside s t ∧
        (ActorTask.handling ⟨message, stage', call⟩).turn? = none ∧
          u.publishFromHandler message stage o =
            { t with actorTask := .handling ⟨message, stage', call⟩ } := by
    obtain ⟨t, call, ht, heq⟩ := aside_publishFromHandler (hu.wellFormed hs) message stage o
    exact ⟨t, stage, call, hu.trans ht, hstage call, heq⟩
  have htransitions := aside_transitions hlifecycle c
  unfold handleMessage
  rw [hbody]
  cases c with
  | turnRequested => cases hturn
  | turnCancelRequested reason =>
    obtain ⟨t, ht, haside⟩ := htransitions s.voiceCaptureActive s.voiceCaptureActive
    change ∃ _ _ _, _ ∧ _ ∧ proceed (s.transitions _) _ = _
    rw [show s.transitions (enterCancelled (cancelTarget s.voiceCaptureActive) s.state) = _ from ht]
    exact hpublish haside (fun _ => rfl) _
  | voiceCaptureStarted capture =>
    obtain ⟨t, ht, haside⟩ := htransitions true true
    change ∃ _ _ _, _ ∧ _ ∧ proceed (ForegroundSession.transitions _ (enterCapture s.state)) _ = _
    rw [show ForegroundSession.transitions _ (enterCapture s.state) = _ from ht]
    exact hpublish haside (fun _ => rfl) _
  | voiceCaptureStopped capture =>
    obtain ⟨t, ht, haside⟩ := htransitions false false
    change ∃ _ _ _, _ ∧ _ ∧ proceed (ForegroundSession.transitions _ (leaveCapture s.state)) _ = _
    rw [show ForegroundSession.transitions _ (leaveCapture s.state) = _ from ht]
    exact hpublish haside (fun _ => rfl) _
  | voiceSpeechStarted speech =>
    obtain ⟨t, ht, haside⟩ := htransitions s.voiceCaptureActive s.voiceCaptureActive
    change ∃ _ _ _, _ ∧ _ ∧ proceed (s.transitions (enterSpeech speech.bargeIn s.state)) _ = _
    rw [show s.transitions (enterSpeech speech.bargeIn s.state) = _ from ht]
    dsimp only [proceed]
    split
    · exact hpublish haside (fun _ => rfl) _
    · exact hpublish haside (fun _ => rfl) _
  | voiceTranscriptPartial | voiceTranscriptEmpty | voiceRecognitionFailed | transportPing
  | neutralAvatarRequested | playbackAckReceived => exact hpublish (.refl s) (fun _ => rfl) _

/-- The handler of a turn raises: no task is created for it. -/
theorem handleMessage_turn {turn : TurnRequest} (hlifecycle : s.actor.lifecycle = .stopping)
    (hbody : message.event.body = .command (.turnRequested turn)) :
    ∃ t, Aside s t ∧ s.handleMessage message = t.failHandler .lifecycle := by
  obtain ⟨t, ht, haside⟩ := aside_transitions (Or.inr hlifecycle) (.turnRequested turn)
    s.voiceCaptureActive s.voiceCaptureActive
  refine ⟨t, haside, ?_⟩
  have hnot : t.actor.lifecycle ≠ .running := by
    rw [haside.lifecycle, hlifecycle]
    exact SessionLifecycle.noConfusion
  have hspawn : t.spawn = (t, .error .lifecycle) := by
    rcases t.spawn_cases with ⟨u, hu, -⟩ | ⟨hu, -⟩
    · rw [spawn, SessionActor.spawn, if_neg hnot] at hu
      cases congrArg Prod.snd hu
    · exact hu
  unfold handleMessage
  rw [hbody]
  change proceed (s.transitions (enterProcessing s.state)) _ = _
  rw [show s.transitions (enterProcessing s.state) = _ from ht]
  change proceed t.spawn _ = _
  rw [hspawn]
  rfl

/-! ### Draining -/

/-- What is left to handle. -/
def pending (s : ForegroundSession) : List (SessionMessage SessionEvent) :=
  s.actorTask.inHand ++ s.actor.inbox.items.map Entry.item

/-- Whether a turn is left to start. -/
def awaitsTurn (s : ForegroundSession) : Bool :=
  s.actorTask.turn?.isSome || s.actor.inbox.items.any fun x =>
    x.item.event.body.command?.any SessionCommand.isTurn

/-- The session is being stopped, and the actor handles what is left. -/
structure Draining (s : ForegroundSession) : Prop where
  lifecycle : s.actor.lifecycle = .stopping
  failure : s.actor.failure = none
  uncancelled : s.cancelRequested = false
  serves : s.actorTask.serves = true
  closed : s.actor.inbox.closed = true

/-- **How the stop of a session stands.** -/
inductive Outcome (s t : ForegroundSession) : Prop
  /-- Each message is handled or left, and so are the turns. -/
  | draining : t.Draining → (t.handled ++ t.pending).Perm (s.handled ++ s.pending) →
      t.awaitsTurn = s.awaitsTurn → Outcome s t
  /-- There was no turn, and everything has been handled. -/
  | stopped : s.awaitsTurn = false → t.actor.failure = none → t.cancelRequested = false →
      t.actor.inbox.closed = true → t.handled.Perm (s.handled ++ s.pending) →
      (t.actorTask = .finishing .stopped ∧ t.actor.lifecycle = .stopping ∨
        t.actorTask = .ended ∧ t.actor.lifecycle = .stopped) → Outcome s t
  /-- The handler of a turn has raised. -/
  | failed : s.awaitsTurn = true → t.actor.failure ≠ none → t.cancelRequested = false →
      t.actor.inbox.closed = true →
      (t.actorTask = .finishing .failed ∧ t.actor.lifecycle = .stopping ∨
        t.actorTask = .ended ∧ t.actor.lifecycle = .failed) → Outcome s t

/-- The session is left the time to stop. -/
def Label.isPatient : Label → Bool
  | .stop false | .stopTimesOut => false
  | .stop true | .start | .request _ _ | .attempt _ | .giveUp _ | .settle _ | .abandon _
  | .receiveOutput | .receiveMessage | .resumeHandler | .drained | .interrupt | .leaveFinally
  | .turn _ _ | .workerDone _ _ => true

theorem Outcome.aside {r : ForegroundSession} (h : Outcome r s) (ha : Aside s t) : Outcome r t := by
  have hlifecycle {lifecycle : SessionLifecycle} (h : s.actor.lifecycle = lifecycle) :
      t.actor.lifecycle = lifecycle := ha.lifecycle.trans h
  cases h with
  | draining hs hperm hturn =>
    have hnot : s.actor.lifecycle ≠ .running := hs.lifecycle ▸ SessionLifecycle.noConfusion
    refine .draining ⟨hlifecycle hs.lifecycle, (ha.failure hnot).trans hs.failure,
      (ha.uncancelled hnot).trans hs.uncancelled, ha.actorTask ▸ hs.serves, ha.closed hs.closed⟩
      ?_ ?_
    · rwa [pending, ha.handled, ha.actorTask, ha.items]
    · rwa [awaitsTurn, ha.actorTask, ha.items]
  | stopped hturn hfailure huncancelled hclosed hhandled htask =>
    have hnot : s.actor.lifecycle ≠ .running := by
      rcases htask with ⟨-, h⟩ | ⟨-, h⟩
      · exact h ▸ SessionLifecycle.noConfusion
      · exact h ▸ SessionLifecycle.noConfusion
    refine .stopped hturn ((ha.failure hnot).trans hfailure)
      ((ha.uncancelled hnot).trans huncancelled) (ha.closed hclosed) (ha.handled ▸ hhandled) ?_
    rwa [ha.actorTask, ha.lifecycle]
  | failed hturn hfailure huncancelled hclosed htask =>
    have hnot : s.actor.lifecycle ≠ .running := by
      rcases htask with ⟨-, h⟩ | ⟨-, h⟩
      · exact h ▸ SessionLifecycle.noConfusion
      · exact h ▸ SessionLifecycle.noConfusion
    refine .failed hturn ?_ ((ha.uncancelled hnot).trans huncancelled) (ha.closed hclosed) ?_
    · rwa [ha.failure hnot]
    · rwa [ha.actorTask, ha.lifecycle]

/-- A closed session admits no call. -/
theorem aside_attempt (hs : s.actor.WellFormed) (hclosed : s.actor.cancellation.closed = true)
    {traffic : Traffic SessionEvent Empty} (hn : s.traffic.next (.attempt i) = some traffic) :
    Aside s { s with traffic := traffic } := by
  obtain ⟨c, a, c', hc, hattempt, rfl⟩ := Traffic.resume_eq_some.mp hn
  obtain ⟨-, rfl, -⟩ := Traffic.attempting_eq_some hattempt
  have hrefused := CancellationSource.accepts_of_closed (g := c.generation) hclosed
  have htry : SessionActor.Attempted s.actor c (s.traffic.actor.tryPut c).1
      (s.traffic.actor.tryPut c).2 := SessionActor.tryPut_attempted hs
  generalize s.traffic.actor.tryPut c = p at htry ⊢
  obtain ⟨a, r⟩ := p
  cases htry with
  | refused hi ho hic _ =>
    exact ⟨hi.config, ho.config, hi.items, fun h => hic.trans h, rfl, fun _ => rfl, fun _ => rfl,
      rfl, rfl⟩
  | message _ hacc | output _ hacc => exact absurd (hrefused.symm.trans hacc) Bool.false_ne_true

theorem aside_settle {traffic : Traffic SessionEvent Empty}
    (hn : s.traffic.next (.settle i) = some traffic) : Aside s { s with traffic := traffic } := by
  obtain ⟨c, a, c', hc, hsettle, rfl⟩ := Traffic.resume_eq_some.mp hn
  obtain ⟨r, -, hr⟩ := Traffic.settling_eq_some hsettle
  have ha : a = (s.actor.settle c r).1 := congrArg Prod.fst hr
  subst ha
  have hsame := SessionActor.sameFloor_settle (a := s.actor) (c := c) r
  exact ⟨hsame.inboxConfig, hsame.outboxConfig, hsame.inboxItems,
    fun h => hsame.inboxClosed.trans h, hsame.lifecycle,
    fun _ => SessionActor.settle_failure _ _ _, fun _ => rfl, rfl, rfl⟩

/-- **What the others do while a session is being stopped is aside.** -/
theorem next_aside (hs : s.actor.WellFormed) (hsource : s.actor.cancellation.closed = true)
    (hlifecycle : s.actor.lifecycle = .stopping ∨ s.actor.lifecycle = .stopped ∨
      s.actor.lifecycle = .failed) (huncancelled : s.cancelRequested = false)
    (hpatient : l.isPatient = true) (hn : s.next l = some t) : Aside s t ∨ l = .receiveMessage ∨
      l = .resumeHandler ∨ l = .drained ∨ l = .leaveFinally := by
  -- a session that is being stopped refuses whatever is submitted
  have hnot : s.actor.lifecycle ≠ .running := by
    rcases hlifecycle with h | h | h
    · exact h ▸ SessionLifecycle.noConfusion
    · exact h ▸ SessionLifecycle.noConfusion
    · exact h ▸ SessionLifecycle.noConfusion
  cases l with
  | receiveMessage => exact Or.inr (Or.inl rfl)
  | resumeHandler => exact Or.inr (Or.inr (Or.inl rfl))
  | drained => exact Or.inr (Or.inr (Or.inr (Or.inl rfl)))
  | leaveFinally => exact Or.inr (Or.inr (Or.inr (Or.inr rfl)))
  | start =>
    have hnew : s.actor.lifecycle ≠ .new := by
      rcases hlifecycle with h | h | h
      · exact h ▸ SessionLifecycle.noConfusion
      · exact h ▸ SessionLifecycle.noConfusion
      · exact h ▸ SessionLifecycle.noConfusion
    rw [next, SessionActor.start, if_neg hnew] at hn
    cases hn
  | request request eventId =>
    obtain ⟨⟨c, method⟩, -, rfl⟩ := Option.map_eq_some_iff.mp hn
    refine Or.inl ?_
    cases method with
    | submit =>
      change Aside s (s.withActor (s.actor.submit _).1)
      rw [SessionActor.submit, if_neg hnot]
      exact .refl s
    | submitWait =>
      change Aside s { s with traffic := s.traffic.begin (s.actor.submitWait _) }
      rw [SessionActor.submitWait, if_neg hnot]
      exact .refl s
    | submitForegroundTurn reason =>
      change Aside s (s.withActor (s.actor.submitForegroundTurn _ _).1)
      rw [SessionActor.submitForegroundTurn, if_neg hnot]
      exact .refl s
    | submitForegroundTurnWait reason =>
      change Aside s { s with traffic := s.traffic.begin (s.actor.submitForegroundTurnWait _ _) }
      rw [SessionActor.submitForegroundTurnWait, if_neg hnot]
      exact .refl s
  | attempt i =>
    obtain ⟨traffic, htraffic, rfl⟩ := Option.map_eq_some_iff.mp hn
    exact Or.inl (aside_attempt hs hsource htraffic)
  | giveUp i =>
    obtain ⟨traffic, htraffic, rfl⟩ := Option.map_eq_some_iff.mp hn
    obtain ⟨c, a, c', hc, hgive, rfl⟩ := Traffic.resume_eq_some.mp htraffic
    obtain ⟨-, -, -, rfl | rfl⟩ := Traffic.givingUp_eq_some hgive
    · exact Or.inl ⟨rfl, rfl, rfl, id, rfl, fun _ => rfl, fun _ => rfl, rfl, rfl⟩
    · exact Or.inl ⟨rfl, rfl, rfl, id, rfl, fun _ => rfl, fun _ => rfl, rfl, rfl⟩
  | settle i =>
    obtain ⟨traffic, htraffic, rfl⟩ := Option.map_eq_some_iff.mp hn
    exact Or.inl (aside_settle htraffic)
  | abandon i =>
    rw [next] at hn
    split at hn
    · obtain ⟨traffic, htraffic, rfl⟩ := Option.map_eq_some_iff.mp hn
      obtain ⟨c, a, c', hc, habandon, rfl⟩ := Traffic.resume_eq_some.mp htraffic
      obtain ⟨-, rfl, -⟩ := Traffic.abandoning_eq_some habandon
      exact Or.inl ⟨rfl, rfl, rfl, id, rfl, fun _ => rfl, fun _ => rfl, rfl, rfl⟩
    · cases hn
  | receiveOutput =>
    obtain ⟨traffic, htraffic, rfl⟩ := Option.map_eq_some_iff.mp hn
    obtain ⟨p, hget, rfl⟩ := Option.map_eq_some_iff.mp htraffic
    obtain ⟨_, _, -, -, hcfg, -⟩ := PriorityMailbox.get_eq_some (x := p.2) hget
    exact Or.inl ⟨rfl, hcfg, rfl, id, rfl, fun _ => rfl, fun _ => rfl, rfl, rfl⟩
  | interrupt =>
    obtain ⟨hcancel, -⟩ := Option.ite_none_right_eq_some.mp hn
    exact absurd (huncancelled.symm.trans hcancel) Bool.false_ne_true
  | turn i label =>
    obtain ⟨task, htask, hstep⟩ := Option.bind_eq_some_iff.mp hn
    exact Or.inl (aside_stepTurn hs hstep)
  | workerDone child exception =>
    obtain ⟨-, ⟨⟩⟩ := Option.ite_none_right_eq_some.mp hn
    exact Or.inl (aside_childDone child _)
  | stop graceful =>
    cases graceful with
    | false => cases hpatient
    | true =>
      cases hn
      refine Or.inl ?_
      rw [SessionActor.stop]
      rcases hlifecycle with h | h | h
      · rw [h]
        exact ⟨rfl, rfl, rfl, fun _ => rfl, h.symm, fun _ => rfl, fun _ => Bool.or_false _, rfl,
          rfl⟩
      · rw [h]
        exact ⟨rfl, rfl, rfl, id, rfl, fun _ => rfl, fun _ => Bool.or_false _, rfl, rfl⟩
      · rw [h]
        exact ⟨rfl, rfl, rfl, id, rfl, fun _ => rfl, fun _ => Bool.or_false _, rfl, rfl⟩
  | stopTimesOut => cases hpatient

/-! ### What is left is handled -/

/-- The queue of a floor holds commands. -/
theorem commands_of_path {steady : Bool} {f f' : Floor}
    (h : Relation.ReflTransGen (FloorStep steady) f f')
    (hf : ∀ x ∈ f.inbox, ∃ c : SessionCommand, x.item.event.body = .command c) :
    ∀ x ∈ f'.inbox, ∃ c : SessionCommand, x.item.event.body = .command c := by
  induction h with
  | refl => exact hf
  | tail _ hstep ih =>
    cases hstep with
    | put hkept hx =>
      refine List.forall_mem_append.mpr ⟨fun y hy => ih y (hkept.sublist.subset hy), ?_⟩
      exact List.forall_mem_singleton.mpr ⟨_, hx.body⟩
    | queue _ hkept hx | enter _ hkept _ hx =>
      refine List.forall_mem_append.mpr ⟨fun y hy => ih y (hkept.subset hy), ?_⟩
      exact List.forall_mem_singleton.mpr ⟨_, hx.body⟩
    | shut hkept => exact fun y hy => ih y (hkept.subset hy)
    | take _ hinbox =>
      refine fun y hy => ih y ?_
      rw [hinbox]
      exact ((List.sublist_cons_self _ _).append_left _).subset hy
    | lose | wait | forget | settle | release | speak | finish | refuse => exact ih

theorem reachable_commands (h : machine.Reachable s) :
    ∀ x ∈ s.actor.inbox.items, ∃ c : SessionCommand, x.item.event.body = .command c := by
  refine h.invariant (I := fun s => ∀ x ∈ s.floor.inbox, ∃ c : SessionCommand,
    x.item.event.body = .command c) (fun s hs x hx => ?_) fun s l t hr hcommands _ hn => ?_
  · obtain ⟨-, -, -, -, -, -, -, -, -, sessionId, inboxCapacity, outboxCapacity, observer,
      hcreate⟩ := hs
    have hx' : x ∈ s.actor.inbox.items := hx
    rw [(create_dropLowest hcreate).2.1] at hx'
    cases hx'
  · have hmoves : Moves false s t :=
      moves_of_next (reachable_sound hr).1 (fun h => Bool.noConfusion h) hn
    exact commands_of_path hmoves.2 hcommands

section Steps

variable {r : ForegroundSession}

/-- The handler of a turn raises, and so the session has failed. -/
theorem Outcome.failHandler (hturn : r.awaitsTurn = true) (e : SessionError)
    (hlifecycle : s.actor.lifecycle = .stopping) : Outcome r (s.failHandler e) :=
  .failed hturn (Option.some_ne_none e) rfl rfl (Or.inl ⟨rfl, hlifecycle⟩)

/-- The actor takes the next message. -/
theorem Outcome.receiveMessage (h : Outcome r s) (hs : s.actor.WellFormed)
    (hcommands : ∀ x ∈ s.actor.inbox.items, ∃ c : SessionCommand, x.item.event.body = .command c)
    (hn : s.next .receiveMessage = some t) : Outcome r t := by
  obtain ⟨⟨htask, -⟩, hn⟩ := Option.ite_none_right_eq_some.mp hn
  obtain ⟨⟨inbox, x⟩, hget, rfl⟩ := Option.map_eq_some_iff.mp hn
  cases h with
  | stopped _ _ _ _ _ h | failed _ _ _ _ h =>
    rcases h with ⟨h, -⟩ | ⟨h, -⟩
    · exact ActorTask.noConfusion (htask.symm.trans h)
    · exact ActorTask.noConfusion (htask.symm.trans h)
  | draining hdraining hperm hturns =>
    obtain ⟨l₁, l₂, hitems, hrest, hcfg, hclosed, -⟩ := PriorityMailbox.get_eq_some hget
    have hw : (s.taking inbox).actor.WellFormed := hs.congr hcfg rfl
    have hx : x ∈ s.actor.inbox.items := hitems ▸ List.mem_append_right _ List.mem_cons_self
    obtain ⟨c, hbody⟩ := hcommands x hx
    change Outcome r ((s.taking inbox).handleMessage x.item)
    rcases hturn : c.isTurn with _ | _
    -- the message goes from the inbox into the hands of the handler
    · obtain ⟨u, stage, call, hu, hstage, heq⟩ :=
        handleMessage_other hw (Or.inr hdraining.lifecycle) hbody hturn
      have hnot : (s.taking inbox).actor.lifecycle ≠ .running :=
        hdraining.lifecycle ▸ SessionLifecycle.noConfusion
      rw [heq]
      refine .draining ⟨hu.lifecycle.trans hdraining.lifecycle, (hu.failure hnot).trans
        hdraining.failure, (hu.uncancelled hnot).trans hdraining.uncancelled, rfl,
        hu.closed (hclosed.trans hdraining.closed)⟩ ?_ ?_
      · refine List.Perm.trans ?_ hperm
        have hpending : s.pending = s.actor.inbox.items.map Entry.item := by
          rw [pending, htask]
          rfl
        have hleft : u.actor.inbox.items = l₁ ++ l₂ := hu.items.trans hrest
        have hhandled : u.handled = s.handled := hu.handled
        rw [hpending, hitems]
        change (u.handled ++ ([x.item] ++ u.actor.inbox.items.map Entry.item)).Perm _
        rw [hleft, hhandled, List.map_append, List.map_append, List.map_cons]
        have hmiddle : (x.item :: (l₁.map Entry.item ++ l₂.map Entry.item)).Perm
            (l₁.map Entry.item ++ x.item :: l₂.map Entry.item) := List.perm_middle.symm
        exact hmiddle.append_left s.handled
      · refine Eq.trans ?_ hturns
        have hleft : u.actor.inbox.items = l₁ ++ l₂ := hu.items.trans hrest
        have hnone : x.item.event.body.command?.any SessionCommand.isTurn = false := by
          rw [hbody]
          exact hturn
        change ((ActorTask.handling ⟨x.item, stage, call⟩).turn?.isSome ||
          u.actor.inbox.items.any _) = _
        rw [hstage, awaitsTurn, htask, hleft, hitems, List.any_append, List.any_append,
          List.any_cons, hnone, Bool.false_or]
        rfl
    -- a turn can no longer be started, and its handler fails
    · obtain ⟨turn, rfl⟩ : ∃ turn, c = .turnRequested turn := by
        cases c with
        | turnRequested turn => exact ⟨turn, rfl⟩
        | turnCancelRequested | voiceSpeechStarted | voiceCaptureStarted | voiceCaptureStopped
        | voiceTranscriptPartial | voiceTranscriptEmpty | voiceRecognitionFailed | transportPing
        | neutralAvatarRequested | playbackAckReceived => cases hturn
      obtain ⟨u, hu, heq⟩ := handleMessage_turn (s := s.taking inbox) hdraining.lifecycle hbody
      rw [heq]
      refine .failHandler (hturns.symm.trans ?_) _ (hu.lifecycle.trans hdraining.lifecycle)
      rw [awaitsTurn, Bool.or_eq_true]
      refine Or.inr (List.any_eq_true.mpr ⟨x, hx, ?_⟩)
      rw [hbody]
      rfl

/-- The handler goes on. -/
theorem Outcome.continueHandler (h : Outcome r s) (hs : s.actor.WellFormed) {frame : HandlerFrame}
    (htask : s.actorTask = .handling frame) : Outcome r (s.continueHandler frame) := by
  cases h with
  | stopped _ _ _ _ _ h | failed _ _ _ _ h =>
    rcases h with ⟨h, -⟩ | ⟨h, -⟩
    · exact ActorTask.noConfusion (htask.symm.trans h)
    · exact ActorTask.noConfusion (htask.symm.trans h)
  | draining hdraining hperm hturns =>
    have hnot : s.actor.lifecycle ≠ .running := hdraining.lifecycle ▸ SessionLifecycle.noConfusion
    -- an output is published, the message still in hand
    have hpublish (stage : HandlerStage) (o : SessionOutput) (hstage : ∀ call,
        (ActorTask.handling ⟨frame.message, stage, call⟩).turn? = s.actorTask.turn?) :
        Outcome r (s.publishFromHandler frame.message stage o) := by
      obtain ⟨u, call, hu, heq⟩ := aside_publishFromHandler hs frame.message stage o
      rw [heq]
      refine .draining ⟨hu.lifecycle.trans hdraining.lifecycle, (hu.failure hnot).trans
        hdraining.failure, (hu.uncancelled hnot).trans hdraining.uncancelled, rfl,
        hu.closed hdraining.closed⟩ ?_ ?_
      · rw [pending, htask] at hperm
        change (u.handled ++ ([frame.message] ++ u.actor.inbox.items.map Entry.item)).Perm _
        rw [hu.handled, hu.items]
        exact hperm
      · rw [awaitsTurn] at hturns ⊢
        change ((ActorTask.handling ⟨frame.message, stage, call⟩).turn?.isSome ||
          u.actor.inbox.items.any _) = _
        rw [hstage, hu.items]
        exact hturns
    obtain ⟨message, stage, call⟩ := frame
    cases stage with
    | transcript turn => exact hpublish _ _ fun _ => by rw [htask]; rfl
    | bargeIn speech => exact hpublish _ _ fun _ => by rw [htask]; rfl
    | accepted turn =>
      -- a session that is being stopped spawns no task
      have hspawn : s.spawn = (s, .error .lifecycle) := by
        rw [spawn, SessionActor.spawn, if_neg hnot]
      change Outcome r (proceed s.spawn _)
      rw [hspawn]
      refine .failHandler (hturns.symm.trans ?_) _ hdraining.lifecycle
      rw [awaitsTurn, htask]
      rfl
    | last =>
      -- the message has been handled
      refine .draining ⟨hdraining.lifecycle, hdraining.failure, hdraining.uncancelled, rfl,
        hdraining.closed⟩ ?_ ?_
      · rw [pending, htask] at hperm
        change ((s.handled ++ [message]) ++ ([] ++ s.actor.inbox.items.map Entry.item)).Perm _
        rw [List.append_assoc]
        exact hperm
      · rw [awaitsTurn, htask] at hturns
        exact hturns

/-- **Every step of a stop leads on to its outcome.** -/
theorem Outcome.next (h : Outcome r s) (hs : s.Live)
    (hcommands : ∀ x ∈ s.actor.inbox.items, ∃ c : SessionCommand, x.item.event.body = .command c)
    (hpatient : l.isPatient = true) (hn : s.next l = some t) : Outcome r t := by
  have hlifecycle : s.actor.lifecycle = .stopping ∨ s.actor.lifecycle = .stopped ∨
      s.actor.lifecycle = .failed := by
    cases h with
    | draining hdraining => exact Or.inl hdraining.lifecycle
    | stopped _ _ _ _ _ h => exact h.elim (fun h => Or.inl h.2) fun h => Or.inr (Or.inl h.2)
    | failed _ _ _ _ h => exact h.elim (fun h => Or.inl h.2) fun h => Or.inr (Or.inr h.2)
  have huncancelled : s.cancelRequested = false := by
    cases h with
    | draining hdraining => exact hdraining.uncancelled
    | stopped _ _ h | failed _ _ h => exact h
  -- the source of generations was closed by the stop
  have hsource : s.actor.cancellation.closed = true := by
    refine Bool.not_eq_false _ ▸ fun hopen => ?_
    rcases (hs.opened hopen).2.2 with h | h
    · rw [h] at hlifecycle
      rcases hlifecycle with h | h | h <;> cases h
    · rw [h] at hlifecycle
      rcases hlifecycle with h | h | h <;> cases h
  rcases next_aside hs.wellFormed hsource hlifecycle huncancelled hpatient hn with
    ha | rfl | rfl | rfl | rfl
  · exact h.aside ha
  · exact h.receiveMessage hs.wellFormed hcommands hn
  · rw [ForegroundSession.next] at hn
    split at hn
    · rename_i frame htask
      split at hn
      · cases hn
      · obtain ⟨b, -, rfl⟩ := Option.map_eq_some_iff.mp hn
        exact h.continueHandler hs.wellFormed htask
    · cases hn
    · cases hn
    · cases hn
    · cases hn
  -- the inbox is drained, so that nothing is left to be handled
  · obtain ⟨⟨htask, -, hdrained⟩, ⟨⟩⟩ := Option.ite_none_right_eq_some.mp hn
    cases h with
    | stopped _ _ _ _ _ h | failed _ _ _ _ h =>
      rcases h with ⟨h, -⟩ | ⟨h, -⟩
      · exact ActorTask.noConfusion (htask.symm.trans h)
      · exact ActorTask.noConfusion (htask.symm.trans h)
    | draining hdraining hperm hturns =>
      have hempty : s.actor.inbox.items = [] :=
        List.isEmpty_iff.mp (Bool.and_eq_true_iff.mp hdrained).2
      refine .stopped ?_ hdraining.failure rfl rfl ?_ (Or.inl ⟨rfl, hdraining.lifecycle⟩)
      · rw [← hturns, awaitsTurn, htask, hempty]
        rfl
      · rw [pending, htask, hempty] at hperm
        have hnone : s.handled ++ (ActorTask.receiving.inHand ++ [].map Entry.item) = s.handled :=
          List.append_nil _
        exact hnone ▸ hperm
  · rw [ForegroundSession.next] at hn
    split at hn
    · rename_i terminal htask
      obtain ⟨-, ⟨⟩⟩ := Option.ite_none_right_eq_some.mp hn
      cases h with
      | draining hdraining =>
        have hserves := hdraining.serves
        rw [htask] at hserves
        cases hserves
      | stopped hturn hfailure huncancelled hclosed hhandled h =>
        rcases h with ⟨h, -⟩ | ⟨h, -⟩
        · cases htask.symm.trans h
          exact .stopped hturn hfailure huncancelled hclosed hhandled (Or.inr ⟨rfl, rfl⟩)
        · exact ActorTask.noConfusion (htask.symm.trans h)
      | failed hturn hfailure huncancelled hclosed h =>
        rcases h with ⟨h, -⟩ | ⟨h, -⟩
        · cases htask.symm.trans h
          exact .failed hturn hfailure huncancelled hclosed (Or.inr ⟨rfl, rfl⟩)
        · exact ActorTask.noConfusion (htask.symm.trans h)
    · cases hn
    · cases hn
    · cases hn
    · cases hn

end Steps

/-! ### The stop -/

/-- The runs that go on from a session, and leave it the time to stop. -/
def stoppingMachine (s : ForegroundSession) : Machine ForegroundSession Label where
  start t := t = s
  next t l := if l.isPatient then t.next l else none

/-- **A graceful stop of a healthy session**, one that has not failed and whose actor serves and
is not to be cancelled. As long as the actor serves, every message that was left is handled or
still left; a turn that its handler could not start is neither, for the actor serves no longer.
The session ends `stopped`, with all of them handled, if no turn was left to start; and `failed`
if one was. -/
theorem graceful_stop (h : machine.Reachable s) (hrunning : s.actor.lifecycle = .running)
    (hhealthy : s.actor.failure = none) (huncancelled : s.cancelRequested = false)
    (hserves : s.actorTask.serves = true) (hn : s.next (.stop true) = some t)
    (hu : (stoppingMachine t).Reachable u) :
    (u.actorTask.serves = true → (u.handled ++ u.pending).Perm (s.handled ++ s.pending)) ∧
      (u.actorTask = .ended → s.awaitsTurn = false →
        u.actor.lifecycle = .stopped ∧ u.actor.failure = none ∧
          u.handled.Perm (s.handled ++ s.pending)) ∧
      (u.actorTask = .ended → s.awaitsTurn = true →
        u.actor.lifecycle = .failed ∧ u.actor.failure ≠ none) := by
  have ht : machine.Reachable t := .step (l := .stop true) h trivial hn
  have hstarted : Outcome s t := by
    cases hn
    rw [SessionActor.stop, hrunning]
    exact .draining ⟨rfl, hhealthy, by rw [huncancelled]; rfl, hserves, rfl⟩ (.refl _) rfl
  -- the outcome is kept by every patient step
  have houtcome : machine.Reachable u ∧ Outcome s u := by
    refine hu.invariant (I := fun u => machine.Reachable u ∧ Outcome s u) ?_ ?_
    · rintro u rfl
      exact ⟨ht, hstarted⟩
    · intro v l w _ hv _ hnext
      obtain ⟨hpatient, hnext⟩ := Option.ite_none_right_eq_some.mp hnext
      exact ⟨.step (l := l) hv.1 trivial hnext,
        hv.2.next (reachable_sound hv.1).1 (reachable_commands hv.1) hpatient hnext⟩
  cases houtcome.2 with
  | draining hdraining hperm hturns =>
    have hnot : u.actorTask ≠ .ended := fun hended => by
      have hserves := hdraining.serves
      rw [hended] at hserves
      cases hserves
    exact ⟨fun _ => hperm, fun h => absurd h hnot, fun h => absurd h hnot⟩
  | stopped hturn hfailure _ _ hhandled htask =>
    refine ⟨fun hserves => ?_, fun hended _ => ?_, fun _ h => absurd (hturn.symm.trans h)
      Bool.false_ne_true⟩
    · rcases htask with ⟨h, -⟩ | ⟨h, -⟩
      · rw [h] at hserves
        cases hserves
      · rw [h] at hserves
        cases hserves
    · rcases htask with ⟨h, -⟩ | ⟨-, h⟩
      · exact ActorTask.noConfusion (h.symm.trans hended)
      · exact ⟨h, hfailure, hhandled⟩
  | failed hturn hfailure _ _ htask =>
    refine ⟨fun hserves => ?_, fun _ h => absurd (h.symm.trans hturn) Bool.false_ne_true,
      fun hended _ => ?_⟩
    · rcases htask with ⟨h, -⟩ | ⟨h, -⟩
      · rw [h] at hserves
        cases hserves
      · rw [h] at hserves
        cases hserves
    · rcases htask with ⟨h, -⟩ | ⟨-, h⟩
      · exact ActorTask.noConfusion (h.symm.trans hended)
      · exact ⟨h, hfailure⟩

/-- A ping is queued, and perhaps a turn. -/
def beforeStop (turn : Bool) : List Label :=
  [.start, .request .ping 2] ++ if turn then [.request (.submitText "hello".toList 1) 3] else []

/-- The actor handles what is left, and ends. -/
def afterStop (turn : Bool) : List Label :=
  if turn then [.receiveMessage, .leaveFinally]
  else [.receiveMessage, .resumeHandler, .drained, .leaveFinally]

theorem stops (turn : Bool) : ∃ s t u, machine.Reachable s ∧ s.actor.lifecycle = .running ∧
    s.actor.failure = none ∧ s.cancelRequested = false ∧ s.actorTask.serves = true ∧
    s.next (.stop true) = some t ∧ (stoppingMachine t).Reachable u ∧ u.actorTask = .ended ∧
    s.awaitsTurn = turn ∧ (s.handled ++ s.pending).length = if turn then 2 else 1 := by
  have h : ((machine.run unstarted (beforeStop turn)).bind fun s => (s.next (.stop true)).bind
      fun t => ((stoppingMachine t).run t (afterStop turn)).map fun u =>
        (s.actor.lifecycle, s.actor.failure.isNone && !s.cancelRequested && s.actorTask.serves,
          u.actorTask, s.awaitsTurn, (s.handled ++ s.pending).length)) =
      some (.running, true, .ended, turn, if turn then 2 else 1) := by
    cases turn with
    | true => decide +kernel
    | false => decide +kernel
  obtain ⟨s, hs, h⟩ := Option.bind_eq_some_iff.mp h
  obtain ⟨t, ht, h⟩ := Option.bind_eq_some_iff.mp h
  obtain ⟨u, hu, hshown⟩ := Option.map_eq_some_iff.mp h
  simp only [Prod.mk.injEq, Bool.and_eq_true, Bool.not_eq_true'] at hshown
  obtain ⟨hlifecycle, ⟨⟨hfailure, hcancel⟩, hserves⟩, hended, hturn, hlength⟩ := hshown
  exact ⟨s, t, u, Machine.reachable_of_run unstarted_start hs, hlifecycle,
    Option.isNone_iff_eq_none.mp hfailure, hcancel, hserves, ht, Machine.reachable_of_run rfl hu,
    hended, hturn, hlength⟩

/-- A session with a ping queued stops; one with a turn queued beside it fails. -/
theorem graceful_stop_both :
    (∃ u : ForegroundSession, u.actor.lifecycle = .stopped ∧ u.handled.length = 1) ∧
      ∃ u : ForegroundSession, u.actor.lifecycle = .failed := by
  refine ⟨?_, ?_⟩
  · obtain ⟨s, t, u, hs, hrunning, hfailure, hcancel, hserves, ht, hu, hended, hturn, hlength⟩ :=
      stops false
    obtain ⟨hstopped, -, hhandled⟩ :=
      (graceful_stop hs hrunning hfailure hcancel hserves ht hu).2.1 hended hturn
    exact ⟨u, hstopped, hhandled.length_eq.trans hlength⟩
  · obtain ⟨s, t, u, hs, hrunning, hfailure, hcancel, hserves, ht, hu, hended, hturn, -⟩ :=
      stops true
    exact ⟨u, ((graceful_stop hs hrunning hfailure hcancel hserves ht hu).2.2 hended hturn).1⟩

end ForegroundSession

end Eeveetuber
