import Mathlib.Data.List.Basic
import Eeveetuber.Dialogue.Assembler
import Eeveetuber.Foundation.Machine

/-!
# The dialogue pipeline

`Eeveetuber.DialoguePipeline` *overlaps bounded model and speech work while
publishing in strict segment order*. One `run` consists of four kinds of tasks:

* the **producer** reads the model stream, cuts it into segments and puts them
  into the segment queue, and last the plan of the whole utterance or the error
  it met;
* the **dispatcher** takes the segments out, acquires a synthesis slot for each,
  puts a job into the output queue and starts a task for it, and passes the last
  item on;
* a **synthesis task** reads the speech stream of one segment, checks its chunks
  and puts them into the audio queue of its job, and last a mark of success or
  the error it met, and gives the slot back;
* the **consumer**, which is the generator itself, takes the jobs out in order,
  drains the audio queue of each, and is the only one to yield.

A step of `Eeveetuber.PipelineRun.next` is what one task does between two
suspensions; what the providers answer, when the token is cancelled and when the
generation stops being current is in the labels. The `finally` clause of the consumer
cancels every task, once: where a task is suspended its `CancelledError` is thrown, and
only a provider can catch it, whose next answer its task then handles as any other.
Everything that was put into an audio queue is also recorded in
`Eeveetuber.SynthesisJob.emitted`, and everything that was yielded in
`Eeveetuber.PipelineRun.yielded`; no step reads either.
-/

namespace Eeveetuber

open Foundation

/-! ### The arguments of a run -/

/-- The bounds a pipeline works under. -/
structure DialoguePipeline where
  maxSegmentChars : ℕ
  segmentQueueCapacity : ℕ
  outputQueueCapacity : ℕ
  maxConcurrentSynthesis : ℕ
  audioQueueCapacity : ℕ
  /-- What the assembler of a run requires of its size. -/
  twenty_le : 20 ≤ maxSegmentChars
  segmentQueue_pos : 0 < segmentQueueCapacity
  outputQueue_pos : 0 < outputQueueCapacity
  concurrent_pos : 0 < maxConcurrentSynthesis
  audioQueue_pos : 0 < audioQueueCapacity

/-- The `ValueError`s of the constructor. -/
inductive PipelineError where
  | segmentQueueCapacity
  | maxConcurrentSynthesis
  | audioQueueCapacity
deriving DecidableEq, Repr

/-- The message of a `ValueError` of the constructor. -/
def PipelineError.message : PipelineError → String
  | .segmentQueueCapacity => "segment_queue_capacity must be positive"
  | .maxConcurrentSynthesis => "max_concurrent_synthesis must be positive"
  | .audioQueueCapacity => "audio_queue_capacity must be positive"

/-- A pipeline for segments of the default size, which is the only one in use; its
output queue has room for one item more than there are synthesis slots. -/
def DialoguePipeline.create (segmentQueueCapacity maxConcurrentSynthesis audioQueueCapacity : ℕ) :
    Except PipelineError DialoguePipeline :=
  if hs : segmentQueueCapacity ≤ 0 then .error .segmentQueueCapacity
  else if hm : maxConcurrentSynthesis ≤ 0 then .error .maxConcurrentSynthesis
  else if ha : audioQueueCapacity ≤ 0 then .error .audioQueueCapacity
  else
    .ok ⟨220, segmentQueueCapacity, maxConcurrentSynthesis + 1, maxConcurrentSynthesis,
      audioQueueCapacity, by decide, Nat.not_le.mp hs, Nat.succ_pos _, Nat.not_le.mp hm,
      Nat.not_le.mp ha⟩

/-- What a run is called with, and where its segments draw their identifiers from. -/
structure PipelineArguments where
  pipeline : DialoguePipeline
  request : DialogueRequest
  uuid4 : ℕ → UUID

/-! ### The items of the queues -/

/-- The last item of the model stage. -/
inductive ProductionEnd where
  | productionFinished (plan : UtterancePlan)
  | stageFailed (error : DialogueError)
deriving DecidableEq

/-- An item of the segment queue. -/
inductive ProductionItem where
  | segment (segment : UtteranceSegment)
  | last (item : ProductionEnd)
deriving DecidableEq

/-- An item of the output queue; a job is named by its index among the jobs. -/
inductive OutputItem where
  | job (index : ℕ)
  | last (item : ProductionEnd)
deriving DecidableEq

/-- The last item of a synthesis task. -/
inductive SynthesisEnd where
  | synthesisFinished
  | stageFailed (error : DialogueError)
deriving DecidableEq

/-- An item of an audio queue. -/
inductive AudioItem where
  | chunk (chunk : AudioChunk)
  | last (item : SynthesisEnd)
deriving DecidableEq

/-! ### The tasks -/

/-- Where the producer is. -/
inductive Producer where
  /-- Waiting for the model stream. -/
  | streaming
  /-- Putting segments; the stream is `exhausted` when these are the last ones. -/
  | putting (pending : List UtteranceSegment) (exhausted : Bool)
  /-- Putting its last item. -/
  | ending (item : ProductionEnd)
  | done
deriving DecidableEq

/-- Where the dispatcher is. -/
inductive Dispatcher where
  /-- Waiting for the segment queue. -/
  | getting
  /-- Waiting for a synthesis slot. -/
  | acquiring (segment : UtteranceSegment)
  /-- Putting a job for a segment. -/
  | putting (segment : UtteranceSegment)
  /-- Passing the last item on. -/
  | ending (item : ProductionEnd)
  /-- Ended, after it put the item it holds or because it was cancelled. -/
  | done (item : Option ProductionEnd)
deriving DecidableEq

/-- Where a synthesis task is. -/
inductive Synthesis where
  /-- Waiting for the speech stream. -/
  | streaming (expectedChunkIndex : ℕ) (receivedFinal : Bool)
  /-- Putting a chunk that passed the checks. -/
  | putting (chunk : AudioChunk) (expectedChunkIndex : ℕ) (receivedFinal : Bool)
  /-- Putting its last item. -/
  | ending (item : SynthesisEnd)
  | done
deriving DecidableEq

/-- Whether a synthesis task has not ended. -/
def Synthesis.isRunning : Synthesis → Bool
  | .done => false
  | .streaming .. | .putting .. | .ending _ => true

/-- A segment under synthesis, with its task. -/
structure SynthesisJob where
  segment : UtteranceSegment
  /-- The audio queue. -/
  audio : List AudioItem
  synthesis : Synthesis
  /-- Every item ever put into the audio queue. -/
  emitted : List AudioItem
  /-- Whether the speech stream has caught the `CancelledError` of the `finally` clause. -/
  caught : Bool
deriving DecidableEq

/-- Whether the task of a job has not ended. -/
def SynthesisJob.isRunning (job : SynthesisJob) : Bool := job.synthesis.isRunning

/-- Whether the `CancelledError` of the `finally` clause waits for the task of a job. -/
def SynthesisJob.isCancelled (job : SynthesisJob) (stopping : Bool) : Bool :=
  stopping && !job.caught

/-- Where an error that ends a run was raised first. -/
inductive Origin where
  /-- By the consumer, which found the run no longer active. -/
  | activity
  /-- By the model stage. -/
  | model
  /-- By the synthesis of a segment. -/
  | segment (index : ℕ)
deriving DecidableEq

/-- How a run ends. -/
inductive Outcome where
  | returned
  | raised (origin : Origin) (error : DialogueError)
  /-- The generator was closed, or its consumer cancelled. -/
  | closed
deriving DecidableEq

/-- Where the consumer is. -/
inductive Consumer where
  /-- Waiting for the output queue. -/
  | awaitingOutput
  | holdingOutput (item : OutputItem)
  /-- Suspended at the `yield` of a segment. -/
  | pausedSegment (job : ℕ)
  /-- Waiting for the audio queue of a job. -/
  | awaitingAudio (job : ℕ)
  | holdingAudio (job : ℕ) (item : AudioItem)
  /-- Suspended at the `yield` of a chunk. -/
  | pausedAudio (job : ℕ)
  /-- Waiting for the tasks, before the `yield` of the completion. -/
  | awaitingTasks (plan : UtterancePlan)
  /-- Suspended at the `yield` of the completion. -/
  | pausedCompleted (plan : UtterancePlan)
  /-- In the `finally` clause, waiting for the cancelled tasks. -/
  | stopping (outcome : Outcome)
  | ended (outcome : Outcome)
deriving DecidableEq

/-- The state of a run. -/
structure PipelineRun where
  /-- The state object of the cancellation token, if the run was given one. -/
  cancellation : Option CancellationState
  /-- What `is_generation_current` answers. -/
  generationCurrent : Bool
  producer : Producer
  /-- Whether the model stream has caught the `CancelledError` of the `finally` clause. -/
  producerCaught : Bool
  assembler : IncrementalUtteranceAssembler
  completion : Option ModelCompleted
  dispatcher : Dispatcher
  /-- The segment queue. -/
  segments : List ProductionItem
  /-- The output queue. -/
  output : List OutputItem
  /-- The value of the semaphore. -/
  synthesisSlots : ℕ
  /-- The jobs made so far. -/
  jobs : List SynthesisJob
  consumer : Consumer
  /-- What was yielded, in order. -/
  yielded : List DialogueStreamEvent

namespace PipelineRun

/-- Whether the `stopping` event of a run is set. -/
def isStopping (s : PipelineRun) : Bool :=
  match s.consumer with
  | .stopping _ | .ended _ => true
  | .awaitingOutput | .holdingOutput _ | .pausedSegment _ | .awaitingAudio _ | .holdingAudio ..
  | .pausedAudio _ | .awaitingTasks _ | .pausedCompleted _ => false

/-- `raise_if_cancelled` of the token, then the check of the generation. -/
def checkActive (s : PipelineRun) (generation : CancellationGeneration) :
    Except DialogueError Unit :=
  match s.cancellation.bind fun token => if token.cancelled then some token.reason else none with
  | some reason => .error (.cancelledError (match reason with
      | none | some [] => "cancelled".toList
      | some text => text))
  | none => if s.generationCurrent then .ok () else .error (.dialogueCancelled generation)

/-- Whether the run may still publish: its token is not cancelled and its generation current. -/
def isActive (s : PipelineRun) : Bool :=
  !(s.cancellation.any fun token => token.cancelled) && s.generationCurrent

/-- Whether every task of the run has ended. -/
def tasksDone (s : PipelineRun) : Bool :=
  decide (s.producer = .done) &&
    (match s.dispatcher with
      | .done _ => true
      | .getting | .acquiring _ | .putting _ | .ending _ => false) &&
    s.jobs.all fun job => !job.isRunning

variable (A : PipelineArguments)

/-! ### The producer -/

/-- The plan of the utterance, once the model stream has ended. -/
def plan (s : PipelineRun) : UtterancePlan :=
  let completion := s.completion.getD .silent
  ⟨A.request.turnId, A.request.generation, s.assembler.segments, completion.stopReason,
    completion.inputTokens, completion.outputTokens⟩

/-- Go on with segments to put: put them, and then wait for the stream or put the plan. -/
def produce (s : PipelineRun) (pending : List UtteranceSegment) (exhausted : Bool) :
    PipelineRun :=
  match pending with
  | [] =>
    if exhausted then { s with producer := .ending (.productionFinished (s.plan A)) }
    else { s with producer := .streaming }
  | segment :: rest => { s with producer := .putting (segment :: rest) exhausted }

/-- An exception in the producer: a `CancelledError` is passed on once the run stops. -/
def failProduction (s : PipelineRun) (error : DialogueError) : PipelineRun :=
  if error.isCancelledError && s.isStopping then { s with producer := .done }
  else { s with producer := .ending (.stageFailed error) }

/-- The model stream hands out an event. -/
def onModelEvent (s : PipelineRun) (event : ModelStreamEvent) : PipelineRun :=
  match s.checkActive A.request.generation with
  | .error error => s.failProduction error
  | .ok () => match event with
    | .textDelta text =>
      let (assembler, segments) := s.assembler.push A.uuid4 text
      ({ s with assembler := assembler } : PipelineRun).produce A segments false
    | .completed completion =>
      if s.completion.isSome then
        s.failProduction (.protocolError "model emitted more than one completion event")
      else { s with completion := some completion }
    | .unsupported type =>
      s.failProduction (.protocolError ("unsupported model event: " ++ String.ofList type))

/-- The model stream ends. -/
def onModelEnd (s : PipelineRun) : PipelineRun :=
  let (assembler, segments) := s.assembler.finish A.uuid4
  ({ s with assembler := assembler } : PipelineRun).produce A segments true

/-- An answer of the model stream, with the `CancelledError` caught if the run stops. -/
def answered (s : PipelineRun) : PipelineRun := { s with producerCaught := s.isStopping }

/-- Whether the `CancelledError` of the `finally` clause waits for the producer. -/
def producerCancelled (s : PipelineRun) : Bool := s.isStopping && !s.producerCaught

/-- The producer puts its next item, once the segment queue has room. -/
def producerPut (s : PipelineRun) : Option PipelineRun :=
  if s.segments.length < A.pipeline.segmentQueueCapacity then
    match s.producer with
    | .putting (segment :: rest) exhausted =>
      some (({ s with segments := s.segments ++ [.segment segment] } : PipelineRun).produce A rest
        exhausted)
    | .ending item => some { s with segments := s.segments ++ [.last item], producer := .done }
    | .putting [] _ | .streaming | .done => none
  else none

/-! ### The dispatcher -/

/-- The dispatcher takes its next step, once the queue or the semaphore lets it. -/
def dispatch (s : PipelineRun) : Option PipelineRun :=
  match s.dispatcher with
  | .getting => match s.segments with
    | [] => none
    | .segment segment :: rest => some { s with segments := rest, dispatcher := .acquiring segment }
    | .last item :: rest => some { s with segments := rest, dispatcher := .ending item }
  | .acquiring segment =>
    if 0 < s.synthesisSlots then
      some { s with synthesisSlots := s.synthesisSlots - 1, dispatcher := .putting segment }
    else none
  | .putting segment =>
    if s.output.length < A.pipeline.outputQueueCapacity then
      -- the task is created in the same step, since nothing suspends after the put
      some { s with
        output := s.output ++ [.job s.jobs.length]
        jobs := s.jobs ++ [⟨segment, [], .streaming 0 false, [], false⟩]
        dispatcher := .getting }
    else none
  | .ending item =>
    if s.output.length < A.pipeline.outputQueueCapacity then
      some { s with output := s.output ++ [.last item], dispatcher := .done (some item) }
    else none
  | .done _ => none

end PipelineRun

/-! ### The synthesis tasks -/

namespace SynthesisJob

/-- What the task of a job checks of a chunk. -/
def checkChunk (job : SynthesisJob) (expectedChunkIndex : ℕ) (receivedFinal : Bool)
    (chunk : AudioChunk) : Except DialogueError Unit :=
  if receivedFinal then
    .error (.protocolError "speech emitted audio after its final chunk")
  else if chunk.segmentId ≠ job.segment.segmentId then
    .error (.protocolError "speech audio segment_id does not match its utterance segment")
  else if chunk.sequence ≠ job.segment.sequence then
    .error (.protocolError "speech audio sequence does not match its utterance segment")
  else if chunk.chunkIndex ≠ expectedChunkIndex then
    .error (.protocolError "speech audio chunk_index must be contiguous and start at zero")
  else .ok ()

/-- What the task of a job checks at the end of the speech stream. -/
def checkEnd (expectedChunkIndex : ℕ) (receivedFinal : Bool) : Except DialogueError Unit :=
  if expectedChunkIndex = 0 then .error (.protocolError "speech emitted no audio chunks")
  else if !receivedFinal then
    .error (.protocolError "speech audio ended without a final chunk")
  else .ok ()

/-- An exception in the task of a job: a `CancelledError` is passed on once the run stops. -/
def fail (job : SynthesisJob) (stopping : Bool) (error : DialogueError) : SynthesisJob :=
  if error.isCancelledError && stopping then { job with synthesis := .done }
  else { job with synthesis := .ending (.stageFailed error) }

/-- The speech stream hands out a chunk. -/
def onSpeechChunk (stopping : Bool) (chunk : AudioChunk) (job : SynthesisJob) :
    Option SynthesisJob :=
  match job.synthesis with
  | .streaming expected final => match job.checkChunk expected final chunk with
    | .error error => some (job.fail stopping error)
    | .ok () => some { job with synthesis := .putting chunk (expected + 1) chunk.isFinal }
  | .putting .. | .ending _ | .done => none

/-- The speech stream ends. -/
def onSpeechEnd (stopping : Bool) (job : SynthesisJob) : Option SynthesisJob :=
  match job.synthesis with
  | .streaming expected final => match checkEnd expected final with
    | .error error => some (job.fail stopping error)
    | .ok () => some { job with synthesis := .ending .synthesisFinished }
  | .putting .. | .ending _ | .done => none

/-- The speech stream raises. -/
def onSpeechError (stopping : Bool) (error : DialogueError) (job : SynthesisJob) :
    Option SynthesisJob :=
  match job.synthesis with
  | .streaming .. => some (job.fail stopping error)
  | .putting .. | .ending _ | .done => none

/-- The task of a job puts its next item, once the audio queue has room. -/
def audioPut (capacity : ℕ) (job : SynthesisJob) : Option SynthesisJob :=
  if job.audio.length < capacity then
    match job.synthesis with
    | .putting chunk expected final => some { job with
        audio := job.audio ++ [.chunk chunk]
        emitted := job.emitted ++ [.chunk chunk]
        synthesis := .streaming expected final }
    | .ending item => some { job with
        audio := job.audio ++ [.last item]
        emitted := job.emitted ++ [.last item]
        synthesis := .done }
    | .streaming .. | .done => none
  else none

/-- The task of a job is cancelled. -/
def cancel (job : SynthesisJob) : Option SynthesisJob :=
  if job.isRunning then some { job with synthesis := .done } else none

end SynthesisJob

namespace PipelineRun

variable (A : PipelineArguments)

/-- Let the task of a job take a step, if it can; when the task ends it gives its slot back. -/
def synthesize (s : PipelineRun) (index : ℕ) (f : SynthesisJob → Option SynthesisJob) :
    Option PipelineRun :=
  (s.jobs[index]?).bind fun job => (f job).map fun job' =>
    { s with
      jobs := s.jobs.set index job'
      synthesisSlots :=
        if job.isRunning && !job'.isRunning then s.synthesisSlots + 1 else s.synthesisSlots }

/-- The speech stream of a job answers, with the `CancelledError` caught if the run stops. -/
def hear (s : PipelineRun) (index : ℕ) (f : SynthesisJob → Option SynthesisJob) :
    Option PipelineRun :=
  s.synthesize index fun job => (f job).map fun job' => { job' with caught := s.isStopping }

/-! ### The consumer -/

/-- The consumer takes the next item out of the queue it waits for. -/
def take (s : PipelineRun) : Option PipelineRun :=
  match s.consumer with
  | .awaitingOutput => match s.output with
    | [] => none
    | item :: rest => some { s with output := rest, consumer := .holdingOutput item }
  | .awaitingAudio index => (s.jobs[index]?).bind fun job => match job.audio with
    | [] => none
    | item :: rest => some { s with
        jobs := s.jobs.set index { job with audio := rest }
        consumer := .holdingAudio index item }
  | .holdingOutput _ | .pausedSegment _ | .holdingAudio .. | .pausedAudio _ | .awaitingTasks _
  | .pausedCompleted _ | .stopping _ | .ended _ => none

/-- Yield an event, provided the run is still active. -/
def yieldEvent (s : PipelineRun) (event : DialogueStreamEvent) (paused : Consumer) :
    PipelineRun :=
  match s.checkActive A.request.generation with
  | .error error => { s with consumer := .stopping (.raised .activity error) }
  | .ok () => { s with yielded := s.yielded ++ [event], consumer := paused }

/-- The consumer handles what it waited for. -/
def handle (s : PipelineRun) : Option PipelineRun :=
  match s.consumer with
  | .holdingOutput (.last (.stageFailed error)) =>
    some { s with consumer := .stopping (.raised .model error) }
  | .holdingOutput (.last (.productionFinished plan)) =>
    some { s with consumer := .awaitingTasks plan }
  | .holdingOutput (.job index) => (s.jobs[index]?).map fun job =>
    s.yieldEvent A (.segmentReady A.request.turnId A.request.generation job.segment)
      (.pausedSegment index)
  | .holdingAudio index (.last (.stageFailed error)) =>
    some { s with consumer := .stopping (.raised (.segment index) error) }
  | .holdingAudio _ (.last .synthesisFinished) => some { s with consumer := .awaitingOutput }
  | .holdingAudio index (.chunk chunk) => (s.jobs[index]?).map fun job =>
    s.yieldEvent A (.segmentAudioReady A.request.turnId A.request.generation job.segment chunk)
      (.pausedAudio index)
  | .awaitingTasks plan =>
    if s.tasksDone then
      some (s.yieldEvent A (.utteranceCompleted A.request.turnId A.request.generation plan)
        (.pausedCompleted plan))
    else none
  | .awaitingOutput | .pausedSegment _ | .awaitingAudio _ | .pausedAudio _ | .pausedCompleted _
  | .stopping _ | .ended _ => none

/-- The consumer of the generator asks for the next event. -/
def resume (s : PipelineRun) : Option PipelineRun :=
  match s.consumer with
  | .pausedSegment index | .pausedAudio index => some { s with consumer := .awaitingAudio index }
  | .pausedCompleted _ => some { s with consumer := .stopping .returned }
  | .awaitingOutput | .holdingOutput _ | .awaitingAudio _ | .holdingAudio .. | .awaitingTasks _
  | .stopping _ | .ended _ => none

/-- `_queue_get_or_cancel` finds its token cancelled, and drops the item it may hold. -/
def interrupt (s : PipelineRun) : Option PipelineRun :=
  match s.consumer with
  | .awaitingOutput | .holdingOutput _ | .awaitingAudio _ | .holdingAudio .. =>
    if s.cancellation.any fun token => token.cancelled then
      match s.checkActive A.request.generation with
      | .error error => some { s with consumer := .stopping (.raised .activity error) }
      | .ok () => none
    else none
  | .pausedSegment _ | .pausedAudio _ | .awaitingTasks _ | .pausedCompleted _ | .stopping _
  | .ended _ => none

/-- The generator is closed, or its consumer is cancelled; in the `finally` clause this
cancels the tasks again. -/
def close (s : PipelineRun) : Option PipelineRun :=
  match s.consumer with
  | .ended _ => none
  | .stopping _ => some { s with
      consumer := .stopping .closed
      producerCaught := false
      jobs := s.jobs.map fun job => { job with caught := false } }
  | .awaitingOutput | .holdingOutput _ | .pausedSegment _ | .awaitingAudio _ | .holdingAudio ..
  | .pausedAudio _ | .awaitingTasks _ | .pausedCompleted _ =>
    some { s with consumer := .stopping .closed }

/-- The `finally` clause is left, once every task has ended. -/
def leaveFinally (s : PipelineRun) : Option PipelineRun :=
  match s.consumer with
  | .stopping outcome => if s.tasksDone then some { s with consumer := .ended outcome } else none
  | .awaitingOutput | .holdingOutput _ | .pausedSegment _ | .awaitingAudio _ | .holdingAudio ..
  | .pausedAudio _ | .awaitingTasks _ | .pausedCompleted _ | .ended _ => none

/-! ### Runs -/

/-- The steps of the tasks of a run and of what surrounds it. -/
inductive Label where
  | modelEvent (event : ModelStreamEvent)
  | modelEnd
  | modelError (error : DialogueError)
  | producerPut
  | dispatch
  | speechChunk (job : ℕ) (chunk : AudioChunk)
  | speechEnd (job : ℕ)
  | speechError (job : ℕ) (error : DialogueError)
  | audioPut (job : ℕ)
  | take
  | handle
  | resume
  | interrupt
  | leaveFinally
  | close
  /-- The `CancelledError` of the `finally` clause ends a task. -/
  | cancelProducer
  | cancelDispatcher
  | cancelSynthesis (job : ℕ)
  /-- The token is cancelled from outside. -/
  | cancelToken (reason : Text)
  /-- `is_generation_current` changes its answer. -/
  | setCurrent (answer : Bool)
deriving DecidableEq

/-- **One step of a run.** In the `finally` clause no task goes on before its stream has caught
the `CancelledError`, and the dispatcher, which has none, does not go on at all. -/
def next (s : PipelineRun) : Label → Option PipelineRun
  | .modelEvent event =>
    if s.producer = .streaming then some (s.onModelEvent A event).answered else none
  | .modelEnd => if s.producer = .streaming then some (s.onModelEnd A).answered else none
  | .modelError error =>
    if s.producer = .streaming then some (s.failProduction error).answered else none
  | .producerPut => if s.producerCancelled then none else s.producerPut A
  | .dispatch => if s.isStopping then none else s.dispatch A
  | .speechChunk i chunk => s.hear i (SynthesisJob.onSpeechChunk s.isStopping chunk)
  | .speechEnd i => s.hear i (SynthesisJob.onSpeechEnd s.isStopping)
  | .speechError i error => s.hear i (SynthesisJob.onSpeechError s.isStopping error)
  | .audioPut i => s.synthesize i fun job =>
    if job.isCancelled s.isStopping then none else job.audioPut A.pipeline.audioQueueCapacity
  | .take => s.take
  | .handle => s.handle A
  | .resume => s.resume
  | .interrupt => s.interrupt A
  | .leaveFinally => s.leaveFinally
  | .close => s.close
  | .cancelProducer =>
    if s.producerCancelled && decide (s.producer ≠ .done) then some { s with producer := .done }
    else none
  | .cancelDispatcher =>
    if s.isStopping then
      match s.dispatcher with
      | .getting | .acquiring _ | .putting _ | .ending _ =>
        some { s with dispatcher := .done none }
      | .done _ => none
    else none
  | .cancelSynthesis i => s.synthesize i fun job =>
    if job.isCancelled s.isStopping then job.cancel else none
  | .cancelToken reason => s.cancellation.map fun token =>
    { s with cancellation := some (token.cancel reason).1 }
  | .setCurrent answer => some { s with generationCurrent := answer }

/-- The tasks of a run, created after its first check. -/
def begin (cancellation : Option CancellationState) (generationCurrent : Bool) : PipelineRun :=
  let s : PipelineRun :=
    { cancellation := cancellation
      generationCurrent := generationCurrent
      producer := .streaming
      producerCaught := false
      assembler := ⟨A.pipeline.maxSegmentChars, [], [], A.pipeline.twenty_le⟩
      completion := none
      dispatcher := .getting
      segments := []
      output := []
      synthesisSlots := A.pipeline.maxConcurrentSynthesis
      jobs := []
      consumer := .awaitingOutput
      yielded := [] }
  match s.checkActive A.request.generation with
  | .error error => { s with
      producer := .done
      dispatcher := .done none
      consumer := .ended (.raised .activity error) }
  | .ok () => s

/-- The runs of a pipeline, from the first request for an event on. -/
def machine : Machine PipelineRun Label where
  start s := ∃ cancellation generationCurrent, s = begin A cancellation generationCurrent
  next s l := s.next A l

end PipelineRun

end Eeveetuber
