import Eeveetuber.Application.VoicePolicy
import Eeveetuber.Foundation.Machine
import Eeveetuber.Foundation.Text
import Eeveetuber.Media.VadSteps

/-!
# The voice input coordinator

A coordinator owns one capture stream, the detector that cuts it into utterances, and a bounded
queue of utterances, which one worker recognizes one after the other. New speech supersedes
what is under way: every start of speech is an *epoch*, an utterance keeps the epoch it was
spoken in, and what is heard of an utterance is dropped once its epoch is not the current one.

`Eeveetuber.VoiceInput.next` is one step between two suspensions of one of the tasks: a call of
the coordinator, which awaits the sink on its way; the worker; or the task that recognizes an
utterance. Any of them may go next. The recognizer yields, ends and raises as it likes, and
whether it heeds a cancellation is left open, as is when a deadline expires and what becomes of
a call of the sink.
-/

namespace Eeveetuber

open Foundation Stateful EnergyVoiceActivityDetector

/-! ### Recognition -/

/-- A replaceable, non-terminal recognition hypothesis. -/
structure AsrPartial where
  utteranceId : UUID
  revision : ℕ
  text : Text

/-- The required terminal recognition result, which may be empty. -/
structure AsrFinal where
  utteranceId : UUID
  text : Text

inductive AsrStreamEvent where
  | hypothesis (event : AsrPartial)
  | final (event : AsrFinal)

namespace AsrStreamEvent

def utteranceId : AsrStreamEvent → UUID
  | hypothesis event => event.utteranceId
  | final event => event.utteranceId

def text : AsrStreamEvent → Text
  | hypothesis event => event.text
  | final event => event.text

end AsrStreamEvent

/-- The utterance that an event ends. -/
def VadEvent.ended? : VadEvent → Option VadSpeechEnded
  | .started _ => none
  | .ended event => some event

structure RecognitionJob where
  speechEpoch : ℕ
  utterance : PcmUtterance

/-- What `_recognize` raises. -/
inductive RecognitionError where
  /-- `CancelledError`. -/
  | cancelled
  /-- `TimeoutError`. -/
  | timedOut
  /-- Any other exception, by the name of its type. -/
  | failed (errorType : String)

/-- Where the task of `_recognize` stands. -/
inductive Recognition where
  /-- It has not run. -/
  | created
  /-- It awaits the recognizer. A final has been seen if there is one. -/
  | listening (final : Option AsrFinal) (lastPartialRevision : ℤ)
  /-- It awaits the sink, which is handed a partial. -/
  | handingPartial (lastPartialRevision : ℤ)
  /-- It awaits the sink, which is handed the final. -/
  | handingFinal
  | finished (error : Option RecognitionError)

/-- Where the task of `_run_asr` stands. -/
inductive AsrWorker where
  | absent
  /-- It awaits a job. -/
  | waiting
  /-- It awaits the task that recognizes a job, which may have been asked to cancel. -/
  | recognizing (job : RecognitionJob) (recognition : Recognition) (cancelling : Bool)
  /-- It awaits the sink, which is told of a failure. -/
  | reporting (job : RecognitionJob)
  | done

namespace AsrWorker

/-- `_active_recognition_task.cancel()`. -/
def cancel : AsrWorker → AsrWorker
  | recognizing job recognition _ => recognizing job recognition true
  | worker => worker

/-- `_ensure_worker`. -/
def ensure : AsrWorker → AsrWorker
  | absent | done => waiting
  | worker => worker

/-- Whether the worker runs next, rather than the task it awaits. -/
def idle : AsrWorker → Bool
  | waiting | recognizing _ (.finished _) _ | reporting _ => true
  | absent | recognizing _ _ _ | done => false

/-- Whether there is no task. -/
def gone : AsrWorker → Bool
  | absent | done => true
  | waiting | recognizing _ _ _ | reporting _ => false

end AsrWorker

/-- What is done with the transcripts of a job. -/
inductive AsrAct where
  /-- The sink is handed a partial while an epoch is the current one. -/
  | handedPartial (event : AsrPartial) (current : ℕ)
  /-- The recognizer's stream ends. -/
  | streamEnded
  /-- `VoiceRecognitionProtocolError`. -/
  | violated (message : String)
  | handedFinal (event : AsrFinal) (current : ℕ)

/-! ### The coordinator -/

/-- What the methods of a coordinator raise. -/
inductive VoiceInputError where
  /-- `VoiceCaptureStateError`. -/
  | captureState (message : String)
  /-- `ValueError`. -/
  | value (message : String)
  /-- An error of the detector that is not caught. -/
  | detector (error : VadError)
deriving DecidableEq

/-- What a call of the coordinator awaits. -/
inductive VoiceCall where
  /-- `voice_capture_started`. -/
  | starting
  /-- `voice_speech_started`, with the events of the detector that follow. -/
  | announcing (rest : List VadEvent)
  /-- `voice_recognition_failed`, of an utterance that is not queued. -/
  | rejecting (rest : List VadEvent)
  /-- The same, of the last utterance of a stream. -/
  | rejectingLast
  /-- `voice_capture_stopped`. -/
  | stopping
  /-- The end of the worker. -/
  | closing
  /-- `aclose`, of a recognizer that has it. -/
  | releasing

/-- What becomes of what a call awaits. -/
inductive Awaited where
  | returned
  /-- An `Exception` is raised. -/
  | failed
  /-- The call is cancelled. -/
  | cancelled
deriving DecidableEq

/-- What becomes of an utterance the detector has ended. -/
structure UtteranceFate where
  ended : VadSpeechEnded
  speechEpoch : ℕ
  /-- The current epoch, and the jobs that are in the queue. -/
  current : ℕ
  pending : List RecognitionJob
  queued : Bool

/-- What has happened. It is kept to speak about; no step reads it. -/
structure VoiceInputHistory where
  /-- The utterances that the detector has ended. -/
  ended : List VadSpeechEnded := []
  fates : List UtteranceFate := []
  /-- The failures that the sink was told of as utterances ended. -/
  rejections : List (UUID × String) := []
  /-- The jobs that were got from the queue. -/
  got : List RecognitionJob := []
  acts : List (RecognitionJob × AsrAct) := []
  /-- The failures that the worker has told the sink of. -/
  failures : List (UUID × String) := []
  /-- What the coordinator's methods have raised. -/
  raised : List VoiceInputError := []

structure VoiceInput where
  detector : Option EnergyVoiceActivityDetector
  streamId : Option UUID
  utterances : List RecognitionJob
  worker : AsrWorker
  speechEpoch : ℕ
  activeUtteranceEpoch : Option ℕ
  closed : Bool
  /-- The calls that are suspended. -/
  calls : List VoiceCall
  history : VoiceInputHistory

/-- The methods of a coordinator. A call that suspends returns what it awaits. -/
abbrev VoiceM := Stateful VoiceInput VoiceInputError

namespace VoiceInput

/-- The constructor. -/
def make : VoiceInput where
  detector := none
  streamId := none
  utterances := []
  worker := .absent
  speechEpoch := 0
  activeUtteranceEpoch := none
  closed := false
  calls := []
  history := {}

def ensureOpen : VoiceM Unit := do
  if (← getThe VoiceInput).closed then
    throw (.captureState "voice input coordinator is closed")

def requireDetector : VoiceM EnergyVoiceActivityDetector := do
  let s ← getThe VoiceInput
  match s.detector, s.streamId with
  | some detector, some _ => return detector
  | _, _ => throw (.captureState "no voice capture stream is active")

def takeUtteranceEpoch : VoiceM ℕ := do
  let s ← getThe VoiceInput
  modify fun s => { s with activeUtteranceEpoch := none }
  match s.activeUtteranceEpoch with
  | some speechEpoch => return speechEpoch
  | none => throw (.captureState "VAD ended speech without a matching start")

/-- What a start of speech changes. -/
def beginSpeech (s : VoiceInput) : VoiceInput :=
  { s with
    speechEpoch := s.speechEpoch + 1
    activeUtteranceEpoch := some (s.speechEpoch + 1)
    worker := s.worker.cancel }

/-- The queue is emptied. -/
def drain (s : VoiceInput) : VoiceInput :=
  { s with
    utterances := []
    history := { s.history with got := s.history.got ++ s.utterances } }

section Calls

variable (uuid5 : UUID → String → UUID) (policy : VoiceInputPolicy)

/-- `Queue.full()`, of a queue of at most `max_pending_utterances`. -/
def isFull (utterances : List RecognitionJob) : Bool :=
  0 < policy.maxPendingUtterances && policy.maxPendingUtterances ≤ utterances.length

/-- `_enqueue_utterance`: whether the utterance is queued. If it is not, the sink is being told
of a failure. -/
def enqueueUtterance (ended : VadSpeechEnded) (speechEpoch : ℕ) : VoiceM Bool := do
  let s ← getThe VoiceInput
  let queued := !isFull policy s.utterances
  let fate := { ended, speechEpoch, current := s.speechEpoch, pending := s.utterances, queued }
  modify fun s => { s with history := { s.history with fates := s.history.fates ++ [fate] } }
  if queued then
    modify fun s => { s with utterances := s.utterances ++ [⟨speechEpoch, ended.utterance⟩] }
  else
    modify fun s => { s with history := { s.history with
      rejections := s.history.rejections ++ [(ended.utteranceId, "VoiceInputBackpressure")] } }
  return queued

/-- The loop of `process_frame` over the events of the detector. -/
def handleEvents : List VadEvent → VoiceM (Option VoiceCall)
  | [] => return none
  | .started _ :: rest => do
    modify beginSpeech
    return some (.announcing rest)
  | .ended ended :: rest => do
    let speechEpoch ← takeUtteranceEpoch
    if ← enqueueUtterance policy ended speechEpoch then handleEvents rest
    else return some (.rejecting rest)

def startStream (streamId : UUID) (pcmFormat : PcmFormat) : VoiceM (Option VoiceCall) := do
  ensureOpen
  if policy.enabled = false then throw (.captureState "voice input is disabled")
  if (← getThe VoiceInput).streamId.isSome then
    throw (.captureState "a voice capture stream is already active")
  if pcmFormat ≠ policy.pcmFormat then
    throw (.captureState "capture PCM format does not match the server contract")
  modify fun s => { s with
    streamId := some streamId
    detector := some (EnergyVoiceActivityDetector.make policy.vad)
    worker := s.worker.ensure }
  return some .starting

/-- What an error of `detector.process` is raised as. -/
def frameError : VadError → VoiceInputError
  | .value _ => .captureState "PCM frame order or timing is invalid"
  | error => .detector error

def processFrame (frame : PcmFrame) : VoiceM (Option VoiceCall) := do
  ensureOpen
  let detector ← requireDetector
  let s ← getThe VoiceInput
  liftM ((policy.checkFrame s.streamId frame).mapError VoiceInputError.captureState)
  match outcome (process uuid5 frame) detector with
  | (.ok events, detector) =>
    modify fun s => { s with
      detector := some detector
      history := { s.history with ended := s.history.ended ++ events.filterMap VadEvent.ended? } }
    handleEvents policy events
  | (.error error, detector) =>
    modify fun s => { s with detector := some detector }
    throw (frameError error)

def finishStream (streamId : UUID) (reason : Text) : VoiceM (Option VoiceCall) := do
  ensureOpen
  if isBlank reason then throw (.value "voice capture stop reason cannot be blank")
  if some streamId ≠ (← getThe VoiceInput).streamId then
    throw (.captureState "voice capture stop does not match the active stream")
  let detector ← requireDetector
  match outcome EnergyVoiceActivityDetector.finishStream detector with
  | (.ok ended, _) =>
    modify fun s => { s with
      detector := none
      streamId := none
      history := { s.history with ended := s.history.ended ++ ended.toList } }
    match ended with
    | some ended =>
      let speechEpoch ← takeUtteranceEpoch
      if ← enqueueUtterance policy ended speechEpoch then return some .stopping
      else return some .rejectingLast
    | none => return some .stopping
  | (.error error, detector) =>
    modify fun s => { s with detector := some detector }
    throw (.detector error)

def close : VoiceM (Option VoiceCall) := do
  let s ← getThe VoiceInput
  if s.closed then return none
  modify fun s => { s with
    closed := true
    detector := none
    streamId := none
    activeUtteranceEpoch := none
    worker := s.worker.cancel }
  match s.worker with
  | .absent =>
    modify drain
    return some .releasing
  | _ => return some .closing

/-- A call goes on, or raises what was raised in what it awaits. -/
def resumeCall : VoiceCall → Awaited → VoiceM (Option VoiceCall)
  | .announcing rest, .returned => handleEvents policy rest
  -- `_report_failure` returns when the sink raises
  | .rejecting rest, .returned | .rejecting rest, .failed => handleEvents policy rest
  | .rejectingLast, .returned | .rejectingLast, .failed => return some .stopping
  | .closing, .returned => do
    modify drain
    return some .releasing
  | _, _ => return none

/-- A call has suspended, returned or raised. -/
def settle : Except VoiceInputError (Option VoiceCall) × VoiceInput → VoiceInput
  | (.ok call, s) => { s with calls := s.calls ++ call.toList }
  | (.error error, s) =>
    { s with history := { s.history with raised := s.history.raised ++ [error] } }

end Calls

/-! ### The worker -/

/-- What the task of `_recognize` does next. -/
inductive RecognitionLabel where
  | begins
  | yields (event : AsrStreamEvent)
  | streamEnds
  | raises (error : RecognitionError)
  | sinkReturns

section Worker

variable (policy : VoiceInputPolicy) (current : ℕ) (job : RecognitionJob)

/-- `VoiceRecognitionProtocolError` is raised. -/
def violate (message : String) : Recognition × List AsrAct :=
  (.finished (some (.failed "VoiceRecognitionProtocolError")), [.violated message])

/-- The body of the loop over the events of the recognizer. -/
def hear (final : Option AsrFinal) (lastPartialRevision : ℤ) (event : AsrStreamEvent) :
    Recognition × List AsrAct :=
  if event.utteranceId ≠ job.utterance.utteranceId then
    violate "ASR event identity does not match the submitted utterance"
  else if job.speechEpoch ≠ current then (.finished none, [])
  else if final.isSome then violate "ASR emitted an event after its final"
  else if policy.maxTranscriptChars < event.text.length then
    violate "ASR transcript exceeds the configured character limit"
  else match event with
    | .hypothesis event =>
      if event.revision ≤ lastPartialRevision then
        violate "ASR partial revisions must be strictly increasing"
      else (.handingPartial event.revision, [.handedPartial event current])
    | .final event => (.listening (some event) lastPartialRevision, [])

/-- What follows the loop. -/
def conclude : Option AsrFinal → Recognition × List AsrAct
  | none =>
    let (recognition, acts) := violate "ASR stream ended without a final transcript"
    (recognition, .streamEnded :: acts)
  | some final =>
    if job.speechEpoch = current then (.handingFinal, [.streamEnded, .handedFinal final current])
    else (.finished none, [.streamEnded])

/-- A step of `_recognize`, with what it does. -/
def nextRecognition (cancelling : Bool) :
    Recognition → RecognitionLabel → Option (Recognition × List AsrAct)
  -- a task that is cancelled before it runs does nothing
  | .created, .begins =>
    some (if cancelling then .finished (some .cancelled) else .listening none (-1), [])
  | .listening final lastPartialRevision, .yields event =>
    some (hear policy current job final lastPartialRevision event)
  | .listening final _, .streamEnds => some (conclude current job final)
  | .handingPartial lastPartialRevision, .sinkReturns =>
    some (.listening none lastPartialRevision, [])
  | .handingFinal, .sinkReturns => some (.finished none, [])
  | .listening _ _, .raises error | .handingPartial _, .raises error
  | .handingFinal, .raises error => some (.finished (some error), [])
  | _, _ => none

/-- The worker tells the sink of a failure, unless newer speech has superseded the job. -/
def report (s : VoiceInput) (errorType : String) : VoiceInput :=
  if job.speechEpoch = s.speechEpoch then
    { s with
      worker := .reporting job
      history := { s.history with
        failures := s.history.failures ++ [(job.utterance.utteranceId, errorType)] } }
  else { s with worker := .waiting }

/-- What `_run_asr` does when the task of a job has finished. -/
def resumeWorker (s : VoiceInput) : Option RecognitionError → VoiceInput
  | none => { s with worker := .waiting }
  | some .cancelled =>
    if s.closed then { s with worker := .done } else report job s "VoiceRecognitionCancelled"
  | some .timedOut => report job s "VoiceRecognitionTimeout"
  | some (.failed errorType) => report job s errorType

end Worker

/-! ### Steps -/

/-- The steps of a coordinator. -/
inductive Label where
  | startStream (streamId : UUID) (pcmFormat : PcmFormat)
  | processFrame (frame : PcmFrame)
  | finishStream (streamId : UUID) (reason : Text)
  | close
  /-- A suspended call goes on. -/
  | resume (index : ℕ) (awaited : Awaited)
  /-- The worker gets a job. -/
  | workerGets
  | recognizes (label : RecognitionLabel)
  /-- The task that the worker awaits has finished. -/
  | workerResumes
  /-- The sink has been told of a failure, or has raised. -/
  | reportReturns
  /-- The worker is cancelled. -/
  | workerStops

variable (uuid5 : UUID → String → UUID) (policy : VoiceInputPolicy)

/-- A step of the worker, or of the task that it awaits. -/
def nextWorker (s : VoiceInput) : Label → Option VoiceInput
  | .workerGets =>
    match s.worker, s.utterances with
    | .waiting, job :: utterances =>
      some { s with
        utterances := utterances
        worker := if job.speechEpoch = s.speechEpoch then .recognizing job .created false
          else .waiting
        history := { s.history with got := s.history.got ++ [job] } }
    | _, _ => none
  | .recognizes label =>
    match s.worker with
    | .recognizing job recognition cancelling =>
      (nextRecognition policy s.speechEpoch job cancelling recognition label).map
        fun (next, acts) =>
          { s with
            worker := .recognizing job next cancelling
            history := { s.history with acts := s.history.acts ++ acts.map (job, ·) } }
    | _ => none
  | .workerResumes =>
    match s.worker with
    | .recognizing job (.finished error) _ => some (resumeWorker job s error)
    | _ => none
  | .reportReturns =>
    match s.worker with
    | .reporting _ => some { s with worker := .waiting }
    | _ => none
  | .workerStops =>
    if s.closed && s.worker.idle then some { s with worker := .done } else none
  | _ => none

def next (s : VoiceInput) : Label → Option VoiceInput
  | .startStream streamId pcmFormat =>
    some (settle (outcome (startStream policy streamId pcmFormat) s))
  | .processFrame frame => some (settle (outcome (processFrame uuid5 policy frame) s))
  | .finishStream streamId reason =>
    some (settle (outcome (finishStream policy streamId reason) s))
  | .close => some (settle (outcome close s))
  | .resume index awaited =>
    match s.calls[index]? with
    | some .closing =>
      -- the worker is awaited
      if awaited = .returned && !s.worker.gone then none
      else some (settle (outcome (resumeCall policy .closing awaited)
        { s with calls := s.calls.eraseIdx index }))
    | some call =>
      some (settle (outcome (resumeCall policy call awaited)
        { s with calls := s.calls.eraseIdx index }))
    | none => none
  | label => nextWorker policy s label

/-- The machine of a coordinator. -/
def machine : Machine VoiceInput Label where
  start s := s = make
  next := next uuid5 policy

/-! ### A capture -/

theorem narrow_rate : 8000 ≤ 8000 ∧ 8000 ≤ 192000 := by decide

theorem narrow_channels : 1 ≤ 1 ∧ 1 ≤ 8 := by decide

/-- The format of a telephone. -/
def narrow : PcmFormat := ⟨8000, 1, .s16Le, narrow_rate, narrow_channels⟩

theorem prompt_threshold : 1 ≤ 1000 ∧ 1000 ≤ 32767 := by decide

theorem prompt_duration : 1 ≤ 10 := by decide

theorem prompt_bytes : 2 ≤ 160 := by decide

/-- A policy under which one loud frame starts an utterance, and one silent frame ends it. One
utterance may be pending. -/
def promptPolicy : VoiceInputPolicy where
  enabled := true
  pcmFormat := narrow
  frameDurationMs := 1
  maxFrameBytes := 16
  vad := ⟨1000, 1000, 1, 1, 0, 10, 160, prompt_threshold, prompt_threshold, le_rfl, le_rfl,
    prompt_duration, prompt_bytes, le_rfl⟩
  asrTimeoutMs := 1000
  maxPendingUtterances := 1
  maxTranscriptChars := 10
  bargeInEnabled := true

theorem millisecond_complete : 16 % narrow.bytesPerSampleFrame = 0 := by decide

/-- A millisecond of a constant signal. -/
def frameAt (sequence : ℕ) (level : UInt8) : PcmFrame where
  streamId := 7
  sequence := sequence
  capturedAtMonotonicNs := sequence * 1000000
  format := narrow
  pcm := [0, level, 0, level, 0, level, 0, level, 0, level, 0, level, 0, level, 0, level]
  pcm_ne_nil := List.cons_ne_nil _ _
  complete := millisecond_complete

/-- Identifiers that tell the names of the captures here apart. -/
def nameId (streamId : UUID) (name : String) : UUID :=
  streamId + BitVec.ofNat 128 (name.toList.map Char.toNat).sum

end VoiceInput

end Eeveetuber
