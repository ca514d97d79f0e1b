import Eeveetuber.Application.Events
import Eeveetuber.Dialogue.Utterance
import Eeveetuber.Runtime.Lifecycle

/-!
# The foreground session

A `Eeveetuber.ForegroundSession` is a session actor with its application: the
handler of the commands, the dialogue task of every accepted turn, and the clients
that submit commands and receive outputs. `Eeveetuber.ForegroundSession.next` is one
step between two suspensions of one of them.

The interaction state is moved in two ways. A handler moves it as it likes, whatever
generation its command is of; a dialogue task moves it only while its generation is
current. The handler's moves are given by lists of requests
(`Eeveetuber.enterProcessing` and the ones after it), made one after the other, and
each request is noted in `Eeveetuber.ForegroundSession.requested`, granted or not.

What a turn gets from the pipeline is left open, within what a pipeline can yield
(`Eeveetuber.utterancePhase`), and so is how long the storage and the registration
lock make it wait.
-/

namespace Eeveetuber

open Foundation

/-! ### The transitions of the handlers -/

/-- A requested transition, with its reason. -/
abbrev TransitionRequest := InteractionState × String

/-- `_enter_processing`. -/
def enterProcessing : InteractionState → List TransitionRequest
  | .processing =>
    [(.interrupting, "replacement turn accepted"), (.processing, "replacement turn processing")]
  | .speaking =>
    [(.interrupting, "barge-in turn accepted"), (.processing, "replacement turn processing")]
  | .waitingApproval =>
    [(.interrupting, "owner replaced approval wait"), (.processing, "replacement turn processing")]
  | .idle | .listening => [(.processing, "turn accepted")]
  | .interrupting => [(.processing, "replacement turn processing")]
  | .degraded => [(.idle, "retry from degraded"), (.processing, "retry accepted")]

/-- `_enter_listening`. -/
def enterListening (reason : String) : InteractionState → List TransitionRequest
  | .processing | .speaking | .waitingApproval => [(.interrupting, reason), (.listening, reason)]
  | .idle | .interrupting | .degraded => [(.listening, reason)]
  | .listening => []

/-- Where a cancel request leads. -/
def cancelTarget (voiceCaptureActive : Bool) : InteractionState :=
  if voiceCaptureActive then .listening else .idle

/-- The transitions of `_accept_cancel`. -/
def enterCancelled (target : InteractionState) : InteractionState → List TransitionRequest
  | .degraded => [(target, "cancel degraded state")]
  | .idle => if target = .listening then [(target, "return to active microphone")] else []
  | .listening => if target = .idle then [(target, "foreground cancelled")] else []
  | .interrupting => [(target, "foreground cancelled")]
  | .processing | .speaking | .waitingApproval =>
    [(.interrupting, "foreground cancellation accepted"), (target, "foreground cancelled")]

/-- The transitions of `_accept_voice_capture_started`. -/
def enterCapture : InteractionState → List TransitionRequest
  | .idle => [(.listening, "microphone capture started")]
  | .degraded => [(.listening, "microphone capture resumed from degraded state")]
  | .listening | .processing | .speaking | .waitingApproval | .interrupting => []

/-- The transitions of `_accept_voice_capture_stopped`. -/
def leaveCapture : InteractionState → List TransitionRequest
  | .listening => [(.idle, "microphone capture stopped")]
  | .idle | .processing | .speaking | .waitingApproval | .interrupting | .degraded => []

/-- The transitions of `_accept_voice_speech_started`. -/
def enterSpeech (bargeIn : Bool) (state : InteractionState) : List TransitionRequest :=
  if bargeIn then enterListening "voice activity interrupted foreground work" state
  else if state = .idle ∨ state = .degraded then enterListening "voice activity detected" state
  else []

/-! ### The state -/

/-- Where a handler waits; each of its waits is for a publication. -/
inductive HandlerStage where
  /-- `voice.transcript_final`; `turn.accepted` is next. -/
  | transcript (turn : TurnRequest)
  /-- `turn.accepted`; the dialogue task is next. -/
  | accepted (turn : TurnRequest)
  /-- `speech.cancelled`, for a barge-in; `voice.speech_started` is next. -/
  | bargeIn (speech : SpeechStart)
  /-- The last output of the handler. -/
  | last
deriving DecidableEq

/-- A handler at work: its message, and the publication it waits for. -/
structure HandlerFrame where
  message : SessionMessage SessionEvent
  stage : HandlerStage
  call : ℕ
deriving DecidableEq

/-- Where the task of the actor stands. -/
inductive ActorTask where
  /-- The session has not been started. -/
  | unborn
  | receiving
  | handling (frame : HandlerFrame)
  /-- In the `finally` block, waiting for the cancelled children. -/
  | finishing (terminal : Ending)
  | ended
deriving DecidableEq

/-- Where a dialogue task stands. -/
inductive TurnStage where
  /-- Loading the history and compiling the context. -/
  | loading
  /-- Publishing `context.snapshot_published`. -/
  | publishingContext (call : ℕ)
  /-- Waiting for the pipeline. -/
  | streaming
  /-- Publishing a segment or a chunk. -/
  | publishingSpeech (call : ℕ)
  /-- Waiting for the registration lock. -/
  | registering (plan : UtterancePlan)
  /-- Publishing `utterance.completed`. -/
  | publishingCompleted (plan : UtterancePlan) (call : ℕ)
  /-- Publishing `turn.failed` for an utterance without segments. -/
  | publishingEmpty (call : ℕ)
  /-- Publishing `turn.failed` for an exception. -/
  | publishingFailed (call : ℕ)
  | done
deriving DecidableEq

/-- A dialogue task. -/
structure TurnTask where
  generation : CancellationGeneration
  turn : TurnRequest
  /-- The child task of the actor that it is. -/
  child : ℕ
  /-- Whether no segment has been announced yet. -/
  firstSegment : Bool
  /-- What the pipeline has yielded. -/
  yielded : List DialogueStreamEvent
  stage : TurnStage
deriving DecidableEq

/-- The request a turn makes of the pipeline. -/
def TurnTask.request (task : TurnTask) : DialogueRequest := ⟨task.turn.turnId, task.generation⟩

/-- Whether the task is alive. -/
def TurnTask.isAlive (task : TurnTask) : Bool := decide (task.stage ≠ .done)

/-- The publication a dialogue task waits for. -/
def TurnStage.call? : TurnStage → Option ℕ
  | .publishingContext call | .publishingSpeech call | .publishingCompleted _ call
  | .publishingEmpty call | .publishingFailed call => some call
  | .loading | .streaming | .registering _ | .done => none

/-- A foreground session, and what has happened to it. -/
structure ForegroundSession where
  traffic : Traffic SessionEvent Empty
  actorTask : ActorTask
  /-- Whether `CancelledError` is raised in the actor's task when it next resumes. -/
  cancelRequested : Bool
  voiceCaptureActive : Bool
  /-- The dialogue tasks, in the order they were created. -/
  turns : List TurnTask
  /-- How many child tasks have been created. -/
  spawned : ℕ
  /-- The transitions that were requested, each with the state it was requested in. -/
  requested : List (InteractionState × InteractionState)
  /-- The messages whose handler has returned. -/
  handled : List (SessionMessage SessionEvent)

namespace ForegroundSession

/-- The actor of a session. -/
def actor (s : ForegroundSession) : SessionActor SessionEvent Empty := s.traffic.actor

/-- The interaction state. -/
def state (s : ForegroundSession) : InteractionState := s.actor.interaction.state

/-- The session with another state of its actor. -/
def withActor (s : ForegroundSession) (a : SessionActor SessionEvent Empty) : ForegroundSession :=
  { s with traffic := { s.traffic with actor := a } }

/-! ### What handlers and dialogue tasks use -/

/-- Request a transition. -/
def transition (s : ForegroundSession) (request : TransitionRequest) :
    ForegroundSession × Except SessionError Unit :=
  let noted := { s with requested := s.requested ++ [(s.state, request.1)] }
  match s.actor.transitionInteraction request.1 request.2.toList with
  | .ok a => (noted.withActor a, .ok ())
  | .error e => (noted, .error e)

/-- Request transitions, one after the other, until one is refused. -/
def transitions (s : ForegroundSession) :
    List TransitionRequest → ForegroundSession × Except SessionError Unit
  | [] => (s, .ok ())
  | request :: rest => match s.transition request with
    | (s, .ok ()) => s.transitions rest
    | (s, .error e) => (s, .error e)

/-- Request a transition from a dialogue task, which is done only while the generation is
current. -/
def transitionIfCurrent (s : ForegroundSession) (g : CancellationGeneration)
    (request : TransitionRequest) : ForegroundSession × Except SessionError Bool :=
  let noted := if s.actor.cancellation.accepts g then
    { s with requested := s.requested ++ [(s.state, request.1)] } else s
  match s.actor.transitionInteractionIfCurrent request.1 g request.2.toList with
  | .ok (a, transitioned) => (noted.withActor a, .ok transitioned)
  | .error e => (noted, .error e)

/-- Where the generation is current, the request is one of serialized handler code. -/
theorem transitionIfCurrent_eq (s : ForegroundSession) (g : CancellationGeneration)
    (request : TransitionRequest) : s.transitionIfCurrent g request =
      if s.actor.cancellation.accepts g then
        ((s.transition request).1, (s.transition request).2.map fun _ => true)
      else (s.withActor { s.actor with staleResults := s.actor.staleResults + 1 }, .ok false) := by
  rw [transitionIfCurrent, SessionActor.transitionInteractionIfCurrent,
    CancellationSource.ensureCurrent_eq]
  by_cases hg : s.actor.cancellation.accepts g = true
  · simp only [if_pos hg, transition]
    rcases s.actor.transitionInteraction request.1 request.2.toList with _ | _ <;> rfl
  · simp only [if_neg hg]

/-- An output event of the session; the identifier stands for the one `uuid4` gives. -/
def outputEvent (s : ForegroundSession) (o : SessionOutput) : EventEnvelope SessionEvent :=
  ⟨.output o, s.traffic.calls.length, some s.actor.sessionId, none, o.priority.toInt⟩

/-- Publish an output under a generation, up to the first wait. -/
def publish (s : ForegroundSession) (g : CancellationGeneration) (o : SessionOutput) :
    ForegroundSession × Except SessionError ℕ :=
  let r := s.actor.publishResult (s.outputEvent o) g
  ({ s with traffic := s.traffic.begin r }, r.2.map fun _ => s.traffic.calls.length)

/-- What a publication returned, if it has. -/
def published (s : ForegroundSession) (call : ℕ) : Option Bool :=
  (s.traffic.calls[call]?).bind fun c => c.phase.publishReturns

/-- Create a child task. -/
def spawn (s : ForegroundSession) : ForegroundSession × Except SessionError ℕ :=
  match s.actor.spawn s.spawned with
  | .ok a => ({ s.withActor a with spawned := s.spawned + 1 }, .ok s.spawned)
  | .error e => (s, .error e)

/-- A child task is done. -/
def childDone (s : ForegroundSession) (child : ℕ) (exception : Option SessionError) :
    ForegroundSession :=
  let r := s.actor.childDone child exception
  { s.withActor r.1 with
    cancelRequested := s.cancelRequested || (r.2 && decide (s.actorTask ≠ .ended)) }

/-- The caller of a publication is cancelled while it waits. -/
def abandonCall (s : ForegroundSession) (call : ℕ) : ForegroundSession :=
  match s.traffic.resume call (Traffic.abandoning s.actor) with
  | some traffic => { s with traffic := traffic }
  | none => s

/-! ### The handlers -/

/-- The actor's task enters its `finally` block. -/
def enterFinally (s : ForegroundSession) (terminal : Ending) : ForegroundSession :=
  { s.withActor s.actor.enterFinally with
    actorTask := .finishing terminal
    cancelRequested := false }

/-- The handler raises. -/
def failHandler (s : ForegroundSession) (e : SessionError) : ForegroundSession :=
  (s.withActor { s.actor with failure := some e }).enterFinally .failed

/-- Go on with what a step of the handler gave, unless it raised. -/
def proceed {α : Type} (p : ForegroundSession × Except SessionError α)
    (continuation : ForegroundSession → α → ForegroundSession) : ForegroundSession :=
  match p with
  | (s, .ok x) => continuation s x
  | (s, .error e) => s.failHandler e

/-- The handler publishes an output and waits. -/
def publishFromHandler (s : ForegroundSession) (message : SessionMessage SessionEvent)
    (stage : HandlerStage) (o : SessionOutput) : ForegroundSession :=
  proceed (s.publish message.generation o) fun s call =>
    { s with actorTask := .handling ⟨message, stage, call⟩ }

/-- `_accept_turn`, from `turn.accepted` on. -/
def announceTurn (s : ForegroundSession) (message : SessionMessage SessionEvent)
    (turn : TurnRequest) : ForegroundSession :=
  s.publishFromHandler message (.accepted turn)
    (.turnAccepted message.generation turn.turnId .processing turn.inputModality)

/-- `_accept_turn`. -/
def acceptTurn (s : ForegroundSession) (message : SessionMessage SessionEvent)
    (turn : TurnRequest) : ForegroundSession :=
  proceed (s.transitions (enterProcessing s.state)) fun s _ =>
    -- the task that persists the owner's message
    proceed s.spawn fun s _ => match turn.inputModality with
      | .voice => s.publishFromHandler message (.transcript turn)
          (.voiceTranscriptFinal message.generation turn)
      | .text => s.announceTurn message turn

/-- `_accept_cancel`. -/
def acceptCancel (s : ForegroundSession) (message : SessionMessage SessionEvent) :
    ForegroundSession :=
  let target := cancelTarget s.voiceCaptureActive
  proceed (s.transitions (enterCancelled target s.state)) fun s _ =>
    s.publishFromHandler message .last (.speechCancelled message.generation target none)

/-- `_accept_voice_capture_started`. -/
def acceptVoiceCaptureStarted (s : ForegroundSession) (message : SessionMessage SessionEvent)
    (capture : CaptureStart) : ForegroundSession :=
  let s := { s with voiceCaptureActive := true }
  proceed (s.transitions (enterCapture s.state)) fun s _ =>
    s.publishFromHandler message .last (.voiceCaptureStarted message.generation s.state capture)

/-- `_accept_voice_capture_stopped`. -/
def acceptVoiceCaptureStopped (s : ForegroundSession) (message : SessionMessage SessionEvent)
    (capture : CaptureStop) : ForegroundSession :=
  let s := { s with voiceCaptureActive := false }
  proceed (s.transitions (leaveCapture s.state)) fun s _ =>
    s.publishFromHandler message .last (.voiceCaptureStopped message.generation s.state capture)

/-- `_accept_voice_speech_started`. -/
def acceptVoiceSpeechStarted (s : ForegroundSession) (message : SessionMessage SessionEvent)
    (speech : SpeechStart) : ForegroundSession :=
  proceed (s.transitions (enterSpeech speech.bargeIn s.state)) fun s _ =>
    if speech.bargeIn then
      s.publishFromHandler message (.bargeIn speech)
        (.speechCancelled message.generation s.state (some "voice_barge_in".toList))
    else
      s.publishFromHandler message .last (.voiceSpeechStarted message.generation s.state speech)

/-- `_handle_message`, up to its first wait. -/
def handleMessage (s : ForegroundSession) (message : SessionMessage SessionEvent) :
    ForegroundSession :=
  let publish (o : SessionOutput) := s.publishFromHandler message .last o
  let g := message.generation
  match message.event.body with
  | .command (.turnRequested turn) => s.acceptTurn message turn
  | .command (.turnCancelRequested _) => s.acceptCancel message
  | .command (.voiceCaptureStarted capture) => s.acceptVoiceCaptureStarted message capture
  | .command (.voiceCaptureStopped capture) => s.acceptVoiceCaptureStopped message capture
  | .command (.voiceSpeechStarted speech) => s.acceptVoiceSpeechStarted message speech
  | .command (.voiceTranscriptPartial transcript) => publish (.voiceTranscriptPartial g transcript)
  | .command (.voiceTranscriptEmpty utteranceId) => publish (.voiceTranscriptEmpty g utteranceId)
  | .command (.voiceRecognitionFailed failure) => publish (.voiceRecognitionFailed g failure)
  | .command .transportPing => publish (.transportPong g)
  | .command .neutralAvatarRequested => publish (.avatarNeutralRequested g)
  | .command (.playbackAckReceived ack) =>
    publish (.playbackAcknowledged ack (ack.generation == g) g)
  -- the actor receives only the commands of the application
  | .output _ => s.failHandler (.raised 0)

/-- The handler returns. -/
def returnFromHandler (s : ForegroundSession) (message : SessionMessage SessionEvent) :
    ForegroundSession :=
  { s with actorTask := .receiving, handled := s.handled ++ [message] }

/-- The handler goes on from a wait. -/
def continueHandler (s : ForegroundSession) (frame : HandlerFrame) : ForegroundSession :=
  match frame.stage with
  | .transcript turn => s.announceTurn frame.message turn
  | .accepted turn => proceed s.spawn fun s child =>
      let task : TurnTask := ⟨frame.message.generation, turn, child, true, [], .loading⟩
      returnFromHandler { s with turns := s.turns ++ [task] } frame.message
  | .bargeIn speech => s.publishFromHandler frame.message .last
      (.voiceSpeechStarted frame.message.generation s.state speech)
  | .last => s.returnFromHandler frame.message

/-! ### The dialogue tasks -/

/-- The steps of a dialogue task. -/
inductive TurnLabel where
  /-- The history is loaded and the context compiled. -/
  | prepared (snapshot : ContextSnapshot)
  /-- The history, the context or the pipeline raises. -/
  | raises (error : DialogueError)
  /-- The pipeline yields an event. -/
  | yields (event : DialogueStreamEvent)
  /-- The pipeline ends. -/
  | ends
  /-- The registration lock is acquired. -/
  | register
  /-- The publication that was waited for has returned. -/
  | resume
  /-- The task is cancelled by the actor's `finally` block. -/
  | cancelled
deriving DecidableEq

/-- Replace a dialogue task. -/
def setTurn (s : ForegroundSession) (i : ℕ) (task : TurnTask) : ForegroundSession :=
  { s with turns := s.turns.set i task }

/-- A dialogue task is done, with the exception it raised, if any. -/
def endTurn (s : ForegroundSession) (i : ℕ) (task : TurnTask) (exception : Option SessionError) :
    ForegroundSession :=
  (s.setTurn i { task with stage := .done }).childDone task.child exception

/-- A dialogue task publishes an output and waits. -/
def publishFromTurn (s : ForegroundSession) (i : ℕ) (task : TurnTask) (o : SessionOutput)
    (stage : ℕ → TurnStage) : ForegroundSession :=
  match s.publish task.generation o with
  | (s, .ok call) => s.setTurn i { task with stage := stage call }
  -- the handler of exceptions raises the same
  | (s, .error e) => s.endTurn i task (some e)

/-- `except Exception`: the task publishes `turn.failed`. -/
def failTurn (s : ForegroundSession) (i : ℕ) (task : TurnTask) (failure : TurnFailure) :
    ForegroundSession :=
  s.publishFromTurn i task (.turnFailed task.generation task.turn.turnId failure) .publishingFailed

/-- The task has loaded its history and compiled its context. -/
def prepareTurn (s : ForegroundSession) (i : ℕ) (task : TurnTask) (snapshot : ContextSnapshot) :
    ForegroundSession :=
  -- the task that persists the snapshot
  match s.spawn with
  | (s, .error e) => s.failTurn i task (.session e)
  | (s, .ok _) => s.publishFromTurn i task
      (.contextSnapshotPublished task.generation task.turn.turnId snapshot) .publishingContext

/-- The history, the context or the pipeline raises. -/
def raiseInTurn (s : ForegroundSession) (i : ℕ) (task : TurnTask) (error : DialogueError) :
    ForegroundSession :=
  match error with
  | .dialogueCancelled _ | .cancelledError _ => s.endTurn i task none
  | .protocolError _ | .provider _ => s.failTurn i task (.dialogue error)

/-- The task publishes a segment it has received, after the transition it makes for the first. -/
def publishSegment (s : ForegroundSession) (i : ℕ) (task : TurnTask) (segment : UtteranceSegment) :
    ForegroundSession :=
  let announce (s : ForegroundSession) (task : TurnTask) := s.publishFromTurn i task
    (.utteranceSegmentReady task.generation task.turn.turnId segment) .publishingSpeech
  if task.firstSegment then
    match s.transitionIfCurrent task.generation
      (.speaking, "first validated utterance segment") with
    | (s, .ok true) => announce s { task with firstSegment := false }
    | (s, .ok false) => s.endTurn i task none
    | (s, .error e) => s.failTurn i task (.session e)
  else announce s task

/-- The task handles an event of the pipeline. -/
def handleEvent (s : ForegroundSession) (i : ℕ) (task : TurnTask) (event : DialogueStreamEvent) :
    ForegroundSession :=
  let task := { task with yielded := task.yielded ++ [event] }
  match event with
  | .segmentReady _ _ segment => s.publishSegment i task segment
  | .segmentAudioReady _ _ segment chunk => s.publishFromTurn i task
      (.speechAudioChunk task.generation task.turn.turnId segment chunk) .publishingSpeech
  | .utteranceCompleted _ _ plan =>
    if plan.segments = [] then s.publishFromTurn i task
      (.turnFailed task.generation task.turn.turnId (.emptyOutput plan)) .publishingEmpty
    else s.setTurn i { task with stage := .registering plan }

/-- `_finish_interaction_after_turn`. -/
def finishInteraction (s : ForegroundSession) (g : CancellationGeneration) :
    ForegroundSession × Except SessionError Bool :=
  let listen (s : ForegroundSession) :=
    if s.voiceCaptureActive then
      s.transitionIfCurrent g (.listening, "microphone remains active after utterance")
    else (s, .ok true)
  if s.state ≠ .idle then
    match s.transitionIfCurrent g (.idle, "utterance stream completed") with
    | (s, .ok true) => listen s
    | other => other
  else listen s

/-- The pipeline has ended. -/
def finishTurn (s : ForegroundSession) (i : ℕ) (task : TurnTask) : ForegroundSession :=
  match s.finishInteraction task.generation with
  | (s, .ok _) => s.endTurn i task none
  | (s, .error e) => s.failTurn i task (.session e)

/-- A published `turn.failed` degrades the session. -/
def degrade (s : ForegroundSession) (i : ℕ) (task : TurnTask) (reason : String)
    (raised : ForegroundSession → SessionError → ForegroundSession) : Bool → ForegroundSession
  | false => s.endTurn i task none
  | true => match s.transitionIfCurrent task.generation (.degraded, reason) with
    | (s, .ok _) => s.endTurn i task none
    | (s, .error e) => raised s e

/-- The task goes on after `utterance.completed`. -/
def completeTurn (s : ForegroundSession) (i : ℕ) (task : TurnTask) (plan : UtterancePlan)
    (published : Bool) : ForegroundSession :=
  let streaming (s : ForegroundSession) := s.setTurn i { task with stage := .streaming }
  if published && !isBlank plan.displayText then
    -- the task that persists the assistant's message
    match s.spawn with
    | (s, .ok _) => streaming s
    | (s, .error e) => s.failTurn i task (.session e)
  else streaming s

/-- The task goes on from a publication that has returned. -/
def resumeTurn (s : ForegroundSession) (i : ℕ) (task : TurnTask) : Option ForegroundSession :=
  match task.stage with
  | .publishingContext call | .publishingSpeech call =>
    (s.published call).map fun _ => s.setTurn i { task with stage := .streaming }
  | .publishingCompleted plan call => (s.published call).map fun b => s.completeTurn i task plan b
  | .publishingEmpty call => (s.published call).map fun b =>
      s.degrade i task "model completed without visible output"
        (fun s e => s.failTurn i task (.session e)) b
  | .publishingFailed call => (s.published call).map fun b =>
      s.degrade i task "foreground dialogue failed" (fun s e => s.endTurn i task (some e)) b
  | .loading | .streaming | .registering _ | .done => none

/-- Whether the actor's task is in its `finally` block. -/
def isFinishing (s : ForegroundSession) : Bool :=
  match s.actorTask with
  | .finishing _ => true
  | .unborn | .receiving | .handling _ | .ended => false

/-- The task is cancelled where it waits. -/
def cancelTurn (s : ForegroundSession) (i : ℕ) (task : TurnTask) : ForegroundSession :=
  (match task.stage.call? with
    | some call => s.abandonCall call
    | none => s).endTurn i task none

/-- **One step of a dialogue task.** -/
def stepTurn (s : ForegroundSession) (i : ℕ) (task : TurnTask) :
    TurnLabel → Option ForegroundSession
  | .prepared snapshot =>
    if task.stage = .loading then some (s.prepareTurn i task snapshot) else none
  | .raises error =>
    if task.stage = .loading ∨ task.stage = .streaming then some (s.raiseInTurn i task error)
    else none
  | .yields event =>
    if task.stage = .streaming ∧ (utterancePhase task.request (task.yielded ++ [event])).isSome then
      some (s.handleEvent i task event)
    else none
  | .ends => if task.stage = .streaming then some (s.finishTurn i task) else none
  | .register => match task.stage with
    | .registering plan => some (s.publishFromTurn i task
        (.utteranceCompleted task.generation task.turn.turnId plan) (.publishingCompleted plan))
    | _ => none
  | .resume => s.resumeTurn i task
  | .cancelled =>
    if s.isFinishing && task.isAlive then some (s.cancelTurn i task) else none

/-! ### Runs -/

/-- The steps of a foreground session. -/
inductive Label where
  | start
  /-- A client calls a method. -/
  | request (request : ClientRequest) (eventId : UUID)
  /-- A waiting call is woken by free capacity and tries again. -/
  | attempt (call : ℕ)
  /-- A waiting call is woken by the cancellation of its generation. -/
  | giveUp (call : ℕ)
  /-- A call whose put is decided returns. -/
  | settle (call : ℕ)
  /-- A client is cancelled inside a method. -/
  | abandon (call : ℕ)
  | receiveOutput
  /-- The actor's task takes a message and handles it. -/
  | receiveMessage
  /-- The publication the handler waits for has returned. -/
  | resumeHandler
  /-- The actor's task finds the inbox closed and drained. -/
  | drained
  /-- `CancelledError` is raised in the actor's task. -/
  | interrupt
  /-- The children of the actor are done. -/
  | leaveFinally
  | turn (index : ℕ) (label : TurnLabel)
  /-- A task that persists something is done. -/
  | workerDone (child : ℕ) (exception : Option ℕ)
  | stop (graceful : Bool)
  | stopTimesOut
deriving DecidableEq

/-- The event of a command. -/
def commandEvent (s : ForegroundSession) (c : SessionCommand) (eventId : UUID) :
    EventEnvelope SessionEvent :=
  ⟨.command c, eventId, some s.actor.sessionId, none, c.priority.toInt⟩

/-- Submit an event to the actor. -/
def submit (s : ForegroundSession) (e : EventEnvelope SessionEvent) :
    SubmissionMethod → ForegroundSession
  | .submit => s.withActor (s.actor.submit e).1
  | .submitWait => { s with traffic := s.traffic.begin (s.actor.submitWait e) }
  | .submitForegroundTurn reason => s.withActor (s.actor.submitForegroundTurn e reason).1
  | .submitForegroundTurnWait reason =>
    { s with traffic := s.traffic.begin (s.actor.submitForegroundTurnWait e reason) }

/-- `CancelledError` is raised in the actor's task. -/
def interruptActor (s : ForegroundSession) : Option ForegroundSession :=
  let terminal : Ending := if s.actor.failure.isSome then .failed else .stopped
  match s.actorTask with
  | .receiving => some (s.enterFinally terminal)
  | .handling frame => some ((s.abandonCall frame.call).enterFinally terminal)
  -- it leaves the `finally` block halfway
  | .finishing _ => some { s with actorTask := .ended, cancelRequested := false }
  | .unborn | .ended => none

/-- **One step.** -/
def next (s : ForegroundSession) : Label → Option ForegroundSession
  | .start => match s.actor.start with
    | .ok a => some ({ s.withActor a with actorTask := .receiving }.publish
        a.cancellation.generation (.sessionReady 0 .idle)).1
    | .error _ => none
  | .request request eventId => request.command.map fun (c, method) =>
    s.submit (s.commandEvent c eventId) method
  | .attempt i => (s.traffic.next (.attempt i)).map fun traffic => { s with traffic := traffic }
  | .giveUp i => (s.traffic.next (.giveUp i)).map fun traffic => { s with traffic := traffic }
  | .settle i => (s.traffic.next (.settle i)).map fun traffic => { s with traffic := traffic }
  | .abandon i =>
    -- a publication is abandoned with the task that makes it, by a step of that task
    if (s.traffic.calls[i]?).any fun c => c.kind = .submission then
      (s.traffic.next (.abandon i)).map fun traffic => { s with traffic := traffic }
    else none
  | .receiveOutput =>
    (s.traffic.next .receiveOutput).map fun traffic => { s with traffic := traffic }
  | .receiveMessage =>
    if s.actorTask = .receiving ∧ s.cancelRequested = false then
      s.actor.inbox.get.map fun p =>
        (s.withActor { s.actor with inbox := p.1 }).handleMessage p.2.item
    else none
  | .resumeHandler => match s.actorTask with
    | .handling frame =>
      if s.cancelRequested then none
      else (s.published frame.call).map fun _ => s.continueHandler frame
    | .unborn | .receiving | .finishing _ | .ended => none
  | .drained =>
    if s.actorTask = .receiving ∧ s.cancelRequested = false ∧ s.actor.inbox.drained then
      some (s.enterFinally .stopped)
    else none
  | .interrupt => if s.cancelRequested then s.interruptActor else none
  | .leaveFinally => match s.actorTask with
    | .finishing terminal =>
      -- the block waits for the tasks it has cancelled
      if s.cancelRequested = false ∧ ∀ task ∈ s.turns, task.stage = .done then
        some { s.withActor (s.actor.leaveFinally terminal) with actorTask := .ended }
      else none
    | .unborn | .receiving | .handling _ | .ended => none
  | .turn i label => (s.turns[i]?).bind fun task => s.stepTurn i task label
  | .workerDone child exception =>
    -- a child that is not the task of a turn
    if child ∈ s.actor.children ∧ ∀ task ∈ s.turns, task.isAlive → task.child ≠ child then
      some (s.childDone child (exception.map .raised))
    else none
  | .stop graceful =>
    some { s.withActor (s.actor.stop graceful) with
      cancelRequested := s.cancelRequested || (!graceful && decide (s.actorTask ≠ .unborn) &&
        decide (s.actorTask ≠ .ended)) }
  | .stopTimesOut =>
    if s.actor.lifecycle = .stopping ∧ s.actorTask ≠ .unborn ∧ s.actorTask ≠ .ended then
      some { s with cancelRequested := true }
    else none

/-- The runs of a foreground session with mailboxes of any size. -/
def machine : Machine ForegroundSession Label where
  start s := s.traffic.calls = [] ∧ s.traffic.delivered = [] ∧ s.actorTask = .unborn ∧
    s.cancelRequested = false ∧ s.voiceCaptureActive = false ∧ s.turns = [] ∧ s.spawned = 0 ∧
    s.requested = [] ∧ s.handled = [] ∧ ∃ sessionId inboxCapacity outboxCapacity observer,
      SessionActor.create sessionId inboxCapacity outboxCapacity .dropLowest none none observer =
        .ok s.actor
  next := next

end ForegroundSession

end Eeveetuber
