import Eeveetuber.Dialogue.PipelineTrace
import Eeveetuber.Foundation.Backlog

/-!
# The room a stopping pipeline has

In the `finally` clause of a run nobody takes anything out of the queues any more.
A task that waits for room in one of them is ended by its `CancelledError`; but a
task which waits for its provider is only if the provider passes the `CancelledError`
on. A provider that catches it, and answers with an event or with an exception of
its own, gives its task something to put, and that task is not cancelled again.

An answer of this kind is `Eeveetuber.PipelineRun.Fits` if there is room for all that
it gives its task to put. As long as the answers fit, every task can come to its
end (`Eeveetuber.PipelineRun.roomy_of_reachableBy`); after one that does not, the
`finally` clause is not left any more, unless the consumer is cancelled once more
(`Eeveetuber.PipelineRun.never_ends`).
-/

namespace Eeveetuber

open Foundation

/-! ### What the tasks have to put -/

/-- How many items the producer has still to put. -/
def Producer.owed : Producer → ℕ
  | .putting pending exhausted => pending.length + exhausted.toNat
  | .ending _ => 1
  | .streaming | .done => 0

/-- How many items a synthesis task has still to put. -/
def Synthesis.owed : Synthesis → ℕ
  | .putting .. | .ending _ => 1
  | .streaming .. | .done => 0

/-- How many items an exception gives a task to put, once the run stops. -/
def DialogueError.owed (error : DialogueError) : ℕ := if error.isCancelledError then 0 else 1

/-- A producer that puts segments has one. -/
def Producer.Ready (p : Producer) : Prop := ∀ exhausted, p ≠ .putting [] exhausted

namespace SynthesisJob

/-- The task of a job before its audio queue. -/
def backlog (job : SynthesisJob) : Backlog :=
  ⟨job.audio.length, job.synthesis.owed, job.caught⟩

variable {job job' : SynthesisJob} {capacity : ℕ}

theorem fail_owed (job : SynthesisJob) (error : DialogueError) :
    (job.fail true error).synthesis.owed = error.owed ∧
      (job.fail true error).audio = job.audio := by
  unfold fail DialogueError.owed
  rw [Bool.and_true]
  split <;> exact ⟨rfl, rfl⟩

theorem checkChunk_owed {expected : ℕ} {final : Bool} {chunk : AudioChunk} {error : DialogueError}
    (h : job.checkChunk expected final chunk = .error error) : error.owed = 1 := by
  unfold checkChunk at h
  split_ifs at h <;> cases h <;> rfl

theorem checkEnd_owed {expected : ℕ} {final : Bool} {error : DialogueError}
    (h : checkEnd expected final = .error error) : error.owed = 1 := by
  unfold checkEnd at h
  split_ifs at h <;> cases h <;> rfl

theorem onSpeechChunk_owed {chunk : AudioChunk} (hn : job.onSpeechChunk true chunk = some job') :
    job.synthesis.owed = 0 ∧ job'.audio = job.audio ∧ job'.synthesis.owed = 1 := by
  unfold onSpeechChunk at hn
  split at hn
  · rename_i hs
    split at hn
    · rename_i error herror
      cases hn
      obtain ⟨howed, haudio⟩ := job.fail_owed error
      exact ⟨by rw [hs]; rfl, haudio, howed.trans (checkChunk_owed herror)⟩
    · cases hn
      exact ⟨by rw [hs]; rfl, rfl, rfl⟩
  all_goals cases hn

theorem onSpeechEnd_owed (hn : job.onSpeechEnd true = some job') :
    job.synthesis.owed = 0 ∧ job'.audio = job.audio ∧ job'.synthesis.owed = 1 := by
  unfold onSpeechEnd at hn
  split at hn
  · rename_i hs
    split at hn
    · rename_i error herror
      cases hn
      obtain ⟨howed, haudio⟩ := job.fail_owed error
      exact ⟨by rw [hs]; rfl, haudio, howed.trans (checkEnd_owed herror)⟩
    · cases hn
      exact ⟨by rw [hs]; rfl, rfl, rfl⟩
  all_goals cases hn

theorem onSpeechError_owed {error : DialogueError} (hn : job.onSpeechError true error = some job') :
    job.synthesis.owed = 0 ∧ job'.audio = job.audio ∧ job'.synthesis.owed = error.owed := by
  unfold onSpeechError at hn
  split at hn
  · rename_i hs
    cases hn
    obtain ⟨howed, haudio⟩ := job.fail_owed error
    exact ⟨by rw [hs]; rfl, haudio, howed⟩
  all_goals cases hn

/-- A task that puts an item has it behind it. -/
theorem backlog_audioPut {answer : Option ℕ} (hcaught : job.caught = true)
    (hn : job.audioPut capacity = some job') :
    Backlog.Step capacity answer job.backlog job'.backlog := by
  unfold audioPut at hn
  simp only [Option.ite_none_right_eq_some] at hn
  obtain ⟨hroom, hn⟩ := hn
  have hstep : Backlog.Step capacity answer ⟨job.audio.length, 1, true⟩
      ⟨job.audio.length + 1, 0, true⟩ := .put hroom
  split at hn
  · rename_i hs
    cases hn
    rw [backlog, backlog, hs, hcaught, List.length_append]
    exact hstep
  · rename_i hs
    cases hn
    rw [backlog, backlog, hs, hcaught, List.length_append]
    exact hstep
  all_goals cases hn

theorem backlog_cancel {answer : Option ℕ} (hcaught : job.caught = false)
    (hn : job.cancel = some job') :
    Backlog.Step capacity answer job.backlog job'.backlog := by
  simp only [cancel, Option.ite_none_right_eq_some, Option.some.injEq] at hn
  obtain ⟨-, rfl⟩ := hn
  rw [backlog, backlog, hcaught]
  exact .ended

end SynthesisJob

namespace PipelineRun

variable (A : PipelineArguments)

/-- The producer before the segment queue. -/
def backlog (s : PipelineRun) : Backlog :=
  ⟨s.segments.length, s.producer.owed, s.producerCaught⟩

/-- How many items an answer of the model stream gives the producer to put, once the run
stops. -/
def modelAnswer (s : PipelineRun) : Label → Option ℕ
  | .modelEvent event => some (match s.checkActive A.request.generation with
    | .error error => error.owed
    | .ok () => match event with
      | .textDelta text => (s.assembler.push A.uuid4 text).2.length
      | .completed _ => s.completion.isSome.toNat
      | .unsupported _ => 1)
  | .modelEnd => some ((s.assembler.finish A.uuid4).2.length + 1)
  | .modelError error => some error.owed
  | .producerPut | .dispatch | .speechChunk .. | .speechEnd _ | .speechError .. | .audioPut _
  | .take | .handle | .resume | .interrupt | .leaveFinally | .close | .cancelProducer
  | .cancelDispatcher | .cancelSynthesis _ | .cancelToken _ | .setCurrent _ => none

/-- How many items an answer of the speech stream of a job gives its task to put, once
the run stops. -/
def speechAnswer (job : ℕ) : Label → Option ℕ
  | .speechChunk i _ | .speechEnd i => if i = job then some 1 else none
  | .speechError i error => if i = job then some error.owed else none
  | .modelEvent _ | .modelEnd | .modelError _ | .producerPut | .dispatch | .audioPut _
  | .take | .handle | .resume | .interrupt | .leaveFinally | .close | .cancelProducer
  | .cancelDispatcher | .cancelSynthesis _ | .cancelToken _ | .setCurrent _ => none

/-- **An answer fits**: once the run stops, what it gives its task to put has room in the
queue of the task. -/
def Fits (s : PipelineRun) (l : Label) : Prop :=
  s.isStopping = true →
    (∀ n, s.modelAnswer A l = some n →
      Backlog.Fits ⟨s.segments.length, n, true⟩ A.pipeline.segmentQueueCapacity) ∧
    ∀ (i : ℕ) (job : SynthesisJob), s.jobs[i]? = some job → ∀ n, speechAnswer i l = some n →
      Backlog.Fits ⟨job.audio.length, n, true⟩ A.pipeline.audioQueueCapacity

variable {A} {s t u : PipelineRun} {n : ℕ} {l : Label}

/-! ### The producer of a stopping run -/

theorem owed_produce (s : PipelineRun) (pending : List UtteranceSegment) (exhausted : Bool) :
    (s.produce A pending exhausted).producer.owed = pending.length + exhausted.toNat ∧
      (s.produce A pending exhausted).producer.Ready := by
  unfold produce
  split
  · cases exhausted with
    | true => exact ⟨rfl, fun _ heq => by cases heq⟩
    | false => exact ⟨rfl, fun _ heq => by cases heq⟩
  · exact ⟨rfl, fun _ heq => by cases heq⟩

theorem owed_failProduction (hs : s.isStopping = true) (error : DialogueError) :
    (s.failProduction error).producer.owed = error.owed ∧
      (s.failProduction error).producer.Ready := by
  unfold failProduction DialogueError.owed
  rw [hs, Bool.and_true]
  split
  · exact ⟨rfl, fun _ heq => by cases heq⟩
  · exact ⟨rfl, fun _ heq => by cases heq⟩

theorem modelAnswer_modelEvent (hs : s.isStopping = true) (hp : s.producer = .streaming)
    (event : ModelStreamEvent) :
    s.modelAnswer A (.modelEvent event) = some (s.onModelEvent A event).producer.owed ∧
      (s.onModelEvent A event).producer.Ready := by
  cases hactive : s.checkActive A.request.generation with
  | error error =>
    obtain ⟨howed, hready⟩ := owed_failProduction hs error
    simp only [modelAnswer, onModelEvent, hactive]
    exact ⟨congrArg some howed.symm, hready⟩
  | ok =>
    cases event with
    | textDelta text =>
      obtain ⟨howed, hready⟩ := owed_produce (A := A)
        { s with assembler := (s.assembler.push A.uuid4 text).1 }
        (s.assembler.push A.uuid4 text).2 false
      simp only [modelAnswer, onModelEvent, hactive]
      exact ⟨congrArg some howed.symm, hready⟩
    | completed completion =>
      cases hsome : s.completion.isSome with
      | true =>
        obtain ⟨howed, hready⟩ :=
          owed_failProduction hs (.protocolError "model emitted more than one completion event")
        simp only [modelAnswer, onModelEvent, hactive, hsome, if_true]
        exact ⟨congrArg some howed.symm, hready⟩
      | false =>
        simp only [modelAnswer, onModelEvent, hactive, hsome, Bool.false_eq_true, if_false, hp]
        exact ⟨rfl, fun _ heq => by cases heq⟩
    | unsupported type =>
      obtain ⟨howed, hready⟩ := owed_failProduction hs
        (.protocolError ("unsupported model event: " ++ String.ofList type))
      simp only [modelAnswer, onModelEvent, hactive]
      exact ⟨congrArg some howed.symm, hready⟩

theorem modelAnswer_modelEnd (s : PipelineRun) :
    s.modelAnswer A .modelEnd = some (s.onModelEnd A).producer.owed ∧
      (s.onModelEnd A).producer.Ready := by
  obtain ⟨howed, hready⟩ := owed_produce (A := A)
    { s with assembler := (s.assembler.finish A.uuid4).1 } (s.assembler.finish A.uuid4).2 true
  exact ⟨congrArg some howed.symm, hready⟩

/-- **An answer of the model stream**, once the run stops. -/
theorem backlog_of_modelAnswer (hs : s.isStopping = true) (hn : s.next A l = some t) {k : ℕ}
    (h : s.modelAnswer A l = some k) :
    s.producer = .streaming ∧ t.backlog = ⟨s.segments.length, k, true⟩ ∧ t.producer.Ready := by
  cases l with
  | modelEvent event =>
    obtain ⟨hp, rfl⟩ : s.producer = .streaming ∧ (s.onModelEvent A event).answered = t := by
      simpa [PipelineRun.next] using hn
    obtain ⟨hanswer, hready⟩ := modelAnswer_modelEvent hs hp event
    obtain rfl := Option.some.inj (h.symm.trans hanswer)
    obtain ⟨p, a, c, heq⟩ := onModelEvent_eq (A := A) s event
    rw [heq] at hready ⊢
    exact ⟨hp, congrArg (Backlog.mk _ _) hs, hready⟩
  | modelEnd =>
    obtain ⟨hp, rfl⟩ : s.producer = .streaming ∧ (s.onModelEnd A).answered = t := by
      simpa [PipelineRun.next] using hn
    obtain ⟨hanswer, hready⟩ := modelAnswer_modelEnd (A := A) s
    obtain rfl := Option.some.inj (h.symm.trans hanswer)
    obtain ⟨p, a, heq⟩ := onModelEnd_eq (A := A) s
    rw [heq] at hready ⊢
    exact ⟨hp, congrArg (Backlog.mk _ _) hs, hready⟩
  | modelError error =>
    obtain ⟨hp, rfl⟩ : s.producer = .streaming ∧ (s.failProduction error).answered = t := by
      simpa [PipelineRun.next] using hn
    obtain ⟨howed, hready⟩ := owed_failProduction hs error
    obtain rfl := Option.some.inj h
    rw [← howed]
    obtain ⟨p, heq⟩ := s.failProduction_eq error
    rw [heq] at hready ⊢
    exact ⟨hp, congrArg (Backlog.mk _ _) hs, hready⟩
  | producerPut | dispatch | speechChunk | speechEnd | speechError | audioPut | take | handle
  | resume | interrupt | leaveFinally | close | cancelProducer | cancelDispatcher
  | cancelSynthesis | cancelToken | setCurrent => cases h

/-- The producer that puts an item has it behind it. -/
theorem backlog_producerPut {answer : Option ℕ} (hcaught : s.producerCaught = true)
    (hn : s.producerPut A = some t) :
    Backlog.Step A.pipeline.segmentQueueCapacity answer s.backlog t.backlog ∧
      t.producer.Ready := by
  unfold PipelineRun.producerPut at hn
  simp only [Option.ite_none_right_eq_some] at hn
  obtain ⟨hroom, hn⟩ := hn
  have hstep (owed : ℕ) : Backlog.Step A.pipeline.segmentQueueCapacity answer
      ⟨s.segments.length, owed + 1, true⟩ ⟨s.segments.length + 1, owed, true⟩ := .put hroom
  split at hn
  · rename_i segment rest exhausted hs
    cases hn
    obtain ⟨howed, hready⟩ := owed_produce (A := A)
      { s with segments := s.segments ++ [.segment segment] } rest exhausted
    obtain ⟨p, hp⟩ := produce_eq (A := A)
      { s with segments := s.segments ++ [.segment segment] } rest exhausted
    refine ⟨?_, hready⟩
    rw [hp] at howed ⊢
    rw [backlog, backlog, hs, howed, List.length_append]
    simp only [Producer.owed, List.length_cons, Nat.add_right_comm _ 1, hcaught]
    exact hstep (rest.length + exhausted.toNat)
  · rename_i item hs
    cases hn
    refine ⟨?_, fun _ heq => by cases heq⟩
    rw [backlog, backlog, hs, hcaught, List.length_append]
    exact hstep 0
  all_goals cases hn

/-! ### The steps of a stopping run -/

/-- **What a step does to the producer** of a run that stops. -/
theorem stopping_backlog (hs : s.isStopping = true) (hn : s.next A l = some t)
    (hl : l ≠ .close) :
    Backlog.Step A.pipeline.segmentQueueCapacity (s.modelAnswer A l) s.backlog t.backlog ∧
      (s.producer.Ready → t.producer.Ready) := by
  cases hanswer : s.modelAnswer A l with
  | some k =>
    obtain ⟨hp, hbacklog, hready⟩ := backlog_of_modelAnswer hs hn hanswer
    refine ⟨?_, fun _ => hready⟩
    rw [hbacklog, backlog, hp]
    exact .answered rfl
  | none =>
  cases l with
  | modelEvent | modelEnd | modelError => cases hanswer
  | producerPut =>
    obtain ⟨hcaught, hn⟩ := producerPut_eq_some hn
    have hput : s.producerCaught = true := by simpa [producerCancelled, hs] using hcaught
    exact (backlog_producerPut hput hn).imp_right fun hready _ => hready
  | cancelProducer =>
    simp only [PipelineRun.next, Option.ite_none_right_eq_some, Option.some.injEq,
      Bool.and_eq_true] at hn
    obtain ⟨⟨hcancelled, -⟩, rfl⟩ := hn
    -- it has not caught the error, which ends it with what it had to put
    have hcaught : s.producerCaught = false := by
      simpa [producerCancelled, hs] using hcancelled
    refine ⟨?_, fun _ _ heq => by cases heq⟩
    rw [backlog, backlog, hcaught]
    exact .ended
  | dispatch =>
    rw [(dispatch_eq_some hn).1] at hs
    cases hs
  | speechChunk | speechEnd | speechError | audioPut | cancelSynthesis =>
    obtain ⟨_, _, -, -, rfl⟩ := synthesize_eq_some.mp hn
    exact ⟨.idle _, id⟩
  | cancelDispatcher =>
    simp only [PipelineRun.next, Option.ite_none_right_eq_some] at hn
    obtain ⟨-, hn⟩ := hn
    split at hn <;> cases hn <;> exact ⟨.idle _, id⟩
  | take | handle | resume | interrupt | leaveFinally =>
    obtain ⟨_, -, rfl | ⟨heq, -⟩⟩ := stopping_consumer hs hn rfl rfl
    · exact ⟨.idle _, id⟩
    · cases heq
  | close => exact absurd rfl hl
  | cancelToken | setCurrent =>
    obtain ⟨cancellation, current, rfl⟩ := next_environment hn rfl
    exact ⟨.idle _, id⟩

/-- What a step does to the jobs, if it lets the task of one of them take a step. -/
theorem rel_synthesize {R : ℕ → SynthesisJob → SynthesisJob → Prop} {i : ℕ}
    {f : SynthesisJob → Option SynthesisJob} (hrefl : ∀ j job, R j job job)
    (hf : ∀ job job', f job = some job' → R i job job') (hn : s.synthesize i f = some t) (j : ℕ) :
    Option.Rel (R j) s.jobs[j]? t.jobs[j]? := by
  obtain ⟨job, job', hi, hjob, rfl⟩ := synthesize_eq_some.mp hn
  rcases eq_or_ne i j with rfl | hne
  · rw [hi, List.getElem?_set_self (List.getElem?_eq_some_iff.mp hi).1]
    exact .some (hf job job' hjob)
  · rw [List.getElem?_set_ne hne]
    cases s.jobs[j]? with
    | none => exact .none
    | some job => exact .some (hrefl j job)

/-- The speech stream of a job answers, once the run stops. -/
theorem backlog_hear {i : ℕ} {f : SynthesisJob → Option SynthesisJob} {k : ℕ}
    (hs : s.isStopping = true) (hn : s.hear i f = some t)
    (hf : ∀ job job', f job = some job' →
      job.synthesis.owed = 0 ∧ job'.audio = job.audio ∧ job'.synthesis.owed = k) :
    ∃ job job', s.jobs[i]? = some job ∧ t.jobs = s.jobs.set i job' ∧
      job.synthesis.owed = 0 ∧ job'.backlog = ⟨job.audio.length, k, true⟩ := by
  obtain ⟨job, job', hi, hjob, rfl⟩ := synthesize_eq_some.mp hn
  obtain ⟨answer, hanswer, rfl⟩ := Option.map_eq_some_iff.mp hjob
  obtain ⟨howed, haudio, howed'⟩ := hf job answer hanswer
  refine ⟨job, _, hi, rfl, howed, ?_⟩
  rw [SynthesisJob.backlog, hs, haudio, howed']

/-- **An answer of a speech stream**, once the run stops. -/
theorem backlog_of_speechAnswer (hs : s.isStopping = true) (hn : s.next A l = some t) {i k : ℕ}
    (h : speechAnswer i l = some k) :
    ∃ job job', s.jobs[i]? = some job ∧ t.jobs = s.jobs.set i job' ∧
      job.synthesis.owed = 0 ∧ job'.backlog = ⟨job.audio.length, k, true⟩ := by
  cases l with
  | speechChunk j chunk =>
    obtain ⟨rfl, rfl⟩ : j = i ∧ 1 = k := by simpa [speechAnswer] using h
    rw [PipelineRun.next, hs] at hn
    exact backlog_hear hs hn fun _ _ => SynthesisJob.onSpeechChunk_owed
  | speechEnd j =>
    obtain ⟨rfl, rfl⟩ : j = i ∧ 1 = k := by simpa [speechAnswer] using h
    rw [PipelineRun.next, hs] at hn
    exact backlog_hear hs hn fun _ _ => SynthesisJob.onSpeechEnd_owed
  | speechError j error =>
    obtain ⟨rfl, rfl⟩ : j = i ∧ error.owed = k := by simpa [speechAnswer] using h
    rw [PipelineRun.next, hs] at hn
    exact backlog_hear hs hn fun _ _ => SynthesisJob.onSpeechError_owed
  | modelEvent | modelEnd | modelError | producerPut | dispatch | audioPut | take | handle
  | resume | interrupt | leaveFinally | close | cancelProducer | cancelDispatcher
  | cancelSynthesis | cancelToken | setCurrent => cases h

/-- **What a step does to the synthesis tasks** of a run that stops. -/
theorem stopping_jobs (hs : s.isStopping = true) (hn : s.next A l = some t) (hl : l ≠ .close)
    (j : ℕ) : Option.Rel (fun job job' => Backlog.Step A.pipeline.audioQueueCapacity
      (speechAnswer j l) job.backlog job'.backlog) s.jobs[j]? t.jobs[j]? := by
  -- a step that leaves the jobs as they are
  have same (hjobs : t.jobs = s.jobs) : Option.Rel (fun job job' => Backlog.Step
      A.pipeline.audioQueueCapacity (speechAnswer j l) job.backlog job'.backlog)
      s.jobs[j]? t.jobs[j]? := by
    rw [hjobs]
    cases s.jobs[j]? with
    | none => exact .none
    | some job => exact .some (.idle _)
  -- an answer of a speech stream, which is of one job
  have answers {i k : ℕ} (h : speechAnswer i l = some k) : Option.Rel (fun job job' =>
      Backlog.Step A.pipeline.audioQueueCapacity (speechAnswer j l) job.backlog job'.backlog)
      s.jobs[j]? t.jobs[j]? := by
    obtain ⟨job, job', hi, hjobs, howed, hbacklog⟩ := backlog_of_speechAnswer hs hn h
    rw [hjobs]
    rcases eq_or_ne i j with rfl | hne
    · rw [hi, List.getElem?_set_self (List.getElem?_eq_some_iff.mp hi).1]
      refine .some ?_
      rw [hbacklog, SynthesisJob.backlog, howed]
      exact .answered h
    · rw [List.getElem?_set_ne hne]
      cases s.jobs[j]? with
      | none => exact .none
      | some job => exact .some (.idle _)
  cases l with
  | speechChunk i chunk => exact answers (i := i) (k := 1) (by simp [speechAnswer])
  | speechEnd i => exact answers (i := i) (k := 1) (by simp [speechAnswer])
  | speechError i error => exact answers (i := i) (k := error.owed) (by simp [speechAnswer])
  | audioPut i =>
    refine rel_synthesize (R := fun j job job' => Backlog.Step A.pipeline.audioQueueCapacity
      (speechAnswer j (.audioPut i)) job.backlog job'.backlog) (fun _ _ => .idle _)
      (fun job job' hjob => ?_) hn j
    simp only [Option.ite_none_left_eq_some, SynthesisJob.isCancelled, hs] at hjob
    exact SynthesisJob.backlog_audioPut (by simpa using hjob.1) hjob.2
  | cancelSynthesis i =>
    refine rel_synthesize (R := fun j job job' => Backlog.Step A.pipeline.audioQueueCapacity
      (speechAnswer j (.cancelSynthesis i)) job.backlog job'.backlog) (fun _ _ => .idle _)
      (fun job job' hjob => ?_) hn j
    simp only [Option.ite_none_right_eq_some, SynthesisJob.isCancelled, hs] at hjob
    exact SynthesisJob.backlog_cancel (by simpa using hjob.1) hjob.2
  | modelEvent event =>
    obtain ⟨-, rfl⟩ : s.producer = .streaming ∧ (s.onModelEvent A event).answered = t := by
      simpa [PipelineRun.next] using hn
    obtain ⟨p, a, c, heq⟩ := onModelEvent_eq (A := A) s event
    exact same (by rw [heq]; rfl)
  | modelEnd =>
    obtain ⟨-, rfl⟩ : s.producer = .streaming ∧ (s.onModelEnd A).answered = t := by
      simpa [PipelineRun.next] using hn
    obtain ⟨p, a, heq⟩ := onModelEnd_eq (A := A) s
    exact same (by rw [heq]; rfl)
  | modelError error =>
    obtain ⟨-, rfl⟩ : s.producer = .streaming ∧ (s.failProduction error).answered = t := by
      simpa [PipelineRun.next] using hn
    obtain ⟨p, heq⟩ := s.failProduction_eq error
    exact same (by rw [heq]; rfl)
  | producerPut =>
    obtain ⟨p, item, rfl⟩ := producerPut_eq (producerPut_eq_some hn).2
    exact same rfl
  | cancelProducer =>
    simp only [PipelineRun.next, Option.ite_none_right_eq_some, Option.some.injEq] at hn
    obtain ⟨-, rfl⟩ := hn
    exact same rfl
  | dispatch =>
    rw [(dispatch_eq_some hn).1] at hs
    cases hs
  | cancelDispatcher =>
    simp only [PipelineRun.next, Option.ite_none_right_eq_some] at hn
    obtain ⟨-, hn⟩ := hn
    split at hn <;> cases hn <;> exact same rfl
  | take | handle | resume | interrupt | leaveFinally =>
    obtain ⟨_, -, rfl | ⟨heq, -⟩⟩ := stopping_consumer hs hn rfl rfl
    · exact same rfl
    · cases heq
  | close => exact absurd rfl hl
  | cancelToken | setCurrent =>
    obtain ⟨cancellation, current, rfl⟩ := next_environment hn rfl
    exact same rfl

/-! ### As long as the answers fit -/

/-- **Every task can come to its end**, for what is in its own way. -/
structure Roomy (A : PipelineArguments) (s : PipelineRun) : Prop where
  ready : s.producer.Ready
  producer : s.backlog.Free A.pipeline.segmentQueueCapacity
  jobs : ∀ job ∈ s.jobs, job.backlog.Free A.pipeline.audioQueueCapacity

theorem Live.roomy (h : s.Live A n) : s.Roomy A where
  ready exhausted heq := by
    obtain ⟨ends, -, hclosing⟩ := h.production
    rw [heq] at hclosing
    exact hclosing.2 rfl
  producer hcaught := by
    rw [backlog, h.uncaught.1] at hcaught
    cases hcaught
  jobs job hjob hcaught := by
    rw [SynthesisJob.backlog, h.uncaught.2 job hjob] at hcaught
    cases hcaught

/-- An answer that fits leaves every task able to come to its end. -/
theorem Roomy.next (h : s.Roomy A) (hs : s.isStopping = true) (hfits : s.Fits A l)
    (hn : s.next A l = some t) : t.Roomy A := by
  by_cases hl : l = .close
  · subst hl
    obtain ⟨hopen, -⟩ | ⟨outcome, -, rfl⟩ := close_eq_some hn
    · rw [hs] at hopen
      cases hopen
    · -- every task is cancelled once more
      refine ⟨h.ready, (fun hcaught => by cases hcaught), fun job hjob hcaught => ?_⟩
      obtain ⟨job, -, rfl⟩ := List.mem_map.mp hjob
      cases hcaught
  · obtain ⟨hmodel, hspeech⟩ := hfits hs
    obtain ⟨hstep, hready⟩ := stopping_backlog hs hn hl
    refine ⟨hready h.ready, hstep.free h.producer hmodel, fun job' hjob' => ?_⟩
    obtain ⟨j, hj⟩ := List.getElem?_of_mem hjob'
    have hrel := stopping_jobs hs hn hl j
    rw [hj] at hrel
    cases hjob : s.jobs[j]? with
    | none =>
      rw [hjob] at hrel
      cases hrel
    | some job =>
      rw [hjob] at hrel
      cases hrel with
      | some hstep =>
        exact hstep.free (h.jobs job (List.mem_of_getElem? hjob)) (hspeech j job hjob)

/-- A task of the run cannot come to its end. -/
def Stuck (A : PipelineArguments) (s : PipelineRun) : Prop :=
  s.backlog.Stuck A.pipeline.segmentQueueCapacity ∨
    ∃ job ∈ s.jobs, job.backlog.Stuck A.pipeline.audioQueueCapacity

/-- The `finally` clause waits for a stuck task. -/
theorem Stuck.tasksDone (h : s.Stuck A) : s.tasksDone = false := by
  rw [← Bool.not_eq_true]
  intro hdone
  simp only [PipelineRun.tasksDone, Bool.and_eq_true, decide_eq_true_eq, List.all_eq_true] at hdone
  obtain ⟨⟨hproducer, -⟩, hjobs⟩ := hdone
  rcases h with hstuck | ⟨job, hjob, hstuck⟩
  · have hpos := hstuck.owed_pos
    rw [backlog, hproducer] at hpos
    cases hpos
  · have hpos := hstuck.owed_pos
    have hrun := hjobs job hjob
    cases hsynthesis : job.synthesis with
    | done =>
      rw [SynthesisJob.backlog, hsynthesis] at hpos
      cases hpos
    | streaming | putting | ending =>
      simp [SynthesisJob.isRunning, hsynthesis, Synthesis.isRunning] at hrun

/-- A stuck task stays stuck, unless it is cancelled once more. -/
theorem Stuck.next (h : s.Stuck A) (hs : s.isStopping = true) (hn : s.next A l = some t)
    (hl : l ≠ .close) : t.Stuck A := by
  rcases h with hstuck | ⟨job, hjob, hstuck⟩
  · exact Or.inl ((stopping_backlog hs hn hl).1.stuck hstuck)
  · obtain ⟨j, hj⟩ := List.getElem?_of_mem hjob
    have hrel := stopping_jobs hs hn hl j
    rw [hj] at hrel
    cases hjob' : t.jobs[j]? with
    | none =>
      rw [hjob'] at hrel
      cases hrel
    | some job' =>
      rw [hjob'] at hrel
      cases hrel with
      | some hstep => exact Or.inr ⟨job', List.mem_of_getElem? hjob', hstep.stuck hstuck⟩

/-- An answer that does not fit leaves its task stuck. -/
theorem stuck_of_not_fits (hn : s.next A l = some t) (hfits : ¬s.Fits A l) :
    t.isStopping = true ∧ t.Stuck A := by
  simp only [Fits, Classical.not_imp, not_and_or, not_forall] at hfits
  obtain ⟨hs, ⟨k, hanswer, hfits⟩ | ⟨i, job, hi, k, hanswer, hfits⟩⟩ := hfits
  · refine ⟨next_isStopping hs hn, Or.inl ?_⟩
    rw [(backlog_of_modelAnswer hs hn hanswer).2.1]
    exact ⟨rfl, hfits⟩
  · obtain ⟨current, job', hcurrent, hjobs, -, hbacklog⟩ := backlog_of_speechAnswer hs hn hanswer
    obtain rfl := Option.some.inj (hi.symm.trans hcurrent)
    refine ⟨next_isStopping hs hn, Or.inr ⟨job', ?_, ?_⟩⟩
    · rw [hjobs]
      exact List.mem_set (List.getElem?_eq_some_iff.mp hi).1 job'
    · rw [hbacklog]
      exact ⟨rfl, hfits⟩

/-- The `finally` clause is left when every task has ended, and not before. -/
theorem stopping_next {outcome : Outcome} (hc : s.consumer = .stopping outcome)
    (hn : s.next A l = some t) :
    (∃ outcome, t.consumer = .stopping outcome) ∨ t.tasksDone = true := by
  cases hb : l.isBackstage with
  | true => exact Or.inl ⟨outcome, (next_backstage hn hb).consumer.trans hc⟩
  | false =>
    cases l with
    | leaveFinally =>
      obtain ⟨_, -, hdone, rfl⟩ := leaveFinally_eq_some hn
      exact Or.inr hdone
    | close =>
      obtain ⟨-, rfl⟩ | ⟨_, -, rfl⟩ := close_eq_some hn
      · exact Or.inl ⟨_, rfl⟩
      · exact Or.inl ⟨_, rfl⟩
    | cancelToken | setCurrent =>
      obtain ⟨cancellation, current, rfl⟩ := next_environment hn rfl
      exact Or.inl ⟨outcome, hc⟩
    | take | handle | resume | interrupt =>
      simp [PipelineRun.next, PipelineRun.take, PipelineRun.handle, PipelineRun.resume,
        interrupt, hc] at hn
    | modelEvent | modelEnd | modelError | producerPut | dispatch | speechChunk | speechEnd
    | speechError | audioPut | cancelProducer | cancelDispatcher | cancelSynthesis => cases hb

/-- A run with a stuck task is in its `finally` clause, and stays there. -/
theorem Stuck.stays (h : t.Stuck A) {outcome : Outcome} (hc : s.consumer = .stopping outcome)
    (hn : s.next A l = some t) : ∃ outcome, t.consumer = .stopping outcome := by
  refine (stopping_next hc hn).resolve_right ?_
  rw [h.tasksDone]
  exact Bool.false_ne_true

/-- **An answer that does not fit is for ever**: its run does not leave the `finally` clause
any more, unless the consumer is cancelled once more. -/
theorem never_ends {outcome : Outcome} (hc : s.consumer = .stopping outcome)
    (hn : s.next A l = some t) (hfits : ¬s.Fits A l)
    (h : ((machine A).restrict fun _ l => l ≠ .close).Leads t u) :
    ∃ outcome, u.consumer = .stopping outcome := by
  have hstuck := (stuck_of_not_fits hn hfits).2
  refine (h.invariant (I := fun u => (∃ outcome, u.consumer = .stopping outcome) ∧ u.Stuck A)
    ⟨hstuck.stays hc hn, hstuck⟩ fun s l t hs hn => ?_).1
  obtain ⟨⟨outcome, hc⟩, hs⟩ := hs
  simp only [Machine.restrict, Option.ite_none_right_eq_some] at hn
  have ht := hs.next (by rw [isStopping, hc]) hn.2 hn.1
  exact ⟨ht.stays hc hn.2, ht⟩

end PipelineRun

end Eeveetuber
