import Mathlib.Data.List.Range
import Eeveetuber.Dialogue.Framing
import Eeveetuber.Dialogue.Pipeline
import Eeveetuber.Foundation.Select

/-!
# What flows through the pipeline

As long as a run is not stopping, nothing is lost or reordered between its tasks,
and this is what `Eeveetuber.PipelineRun.Live` records:

* `Eeveetuber.PipelineRun.Production` – the segments of the jobs, what the
  dispatcher holds, the segment queue and what the producer still has to put are
  together what the assembler made, followed by the last item once there is one;
* `Eeveetuber.PipelineRun.Handover` – the output queue holds the jobs the consumer
  has not taken, in their order, and then the last item;
* `Eeveetuber.SynthesisJob.Sound` – what a synthesis task put into its audio queue
  is framed, and is complete before the mark of success;
* `Eeveetuber.PipelineRun.Consumption` – what was yielded are the blocks of the
  jobs taken before, and the part of the current one that the consumer has handled.

`Eeveetuber.PipelineRun.Live.synthesize` and the lemmas beside it say that each
task keeps all of it.
-/

namespace Eeveetuber

open Foundation

/-! ### What the tasks hold -/

/-- What the dispatcher holds, or put last. -/
def Dispatcher.held : Dispatcher → List ProductionItem
  | .acquiring segment | .putting segment => [.segment segment]
  | .ending item | .done (some item) => [.last item]
  | .getting | .done none => []

/-- The last item, once the dispatcher has put it. -/
def Dispatcher.passed : Dispatcher → List ProductionEnd
  | .done (some item) => [item]
  | .getting | .acquiring _ | .putting _ | .ending _ | .done none => []

/-- The slot the dispatcher has acquired for the job it puts. -/
def Dispatcher.slots : Dispatcher → ℕ
  | .putting _ => 1
  | .getting | .acquiring _ | .ending _ | .done _ => 0

/-- What the producer has still to put. -/
def Producer.pending : Producer → List ProductionItem
  | .putting segments _ => segments.map .segment
  | .ending item => [.last item]
  | .streaming | .done => []

/-- The last item of the producer, once it has one. -/
def Producer.Closing (assembled : List UtteranceSegment) : Producer → List ProductionEnd → Prop
  | .streaming, ends => ends = []
  | .putting segments _, ends => ends = [] ∧ segments ≠ []
  | .ending _, ends | .done, ends =>
    ∃ item, ends = [item] ∧ ∀ plan, item = .productionFinished plan → plan.segments = assembled

/-- The last item, once the consumer has taken it. -/
def Consumer.final : Consumer → List ProductionEnd
  | .holdingOutput (.last item) => [item]
  | .awaitingTasks plan | .pausedCompleted plan => [.productionFinished plan]
  | .awaitingOutput | .holdingOutput (.job _) | .pausedSegment _ | .awaitingAudio _
  | .holdingAudio .. | .pausedAudio _ | .stopping _ | .ended _ => []

/-- The job the consumer is at, whether it has yielded its segment, and the audio
item it has taken and not handled. -/
structure Reading where
  job : ℕ
  announced : Bool
  held : List AudioItem

/-- Where the consumer is in a job. -/
def Consumer.reading : Consumer → Option Reading
  | .holdingOutput (.job i) => some ⟨i, false, []⟩
  | .pausedSegment i | .awaitingAudio i | .pausedAudio i => some ⟨i, true, []⟩
  | .holdingAudio i item => some ⟨i, true, [item]⟩
  | .awaitingOutput | .holdingOutput (.last _) | .awaitingTasks _ | .pausedCompleted _
  | .stopping _ | .ended _ => none

/-- The completion, once the consumer has yielded it. -/
def Consumer.completion (r : DialogueRequest) : Consumer → List DialogueStreamEvent
  | .pausedCompleted plan => [completedEvent r plan]
  | .awaitingOutput | .holdingOutput _ | .pausedSegment _ | .awaitingAudio _
  | .holdingAudio .. | .pausedAudio _ | .awaitingTasks _ | .stopping _ | .ended _ => []

/-! ### What a synthesis task has put -/

/-- The chunks among the items of an audio queue. -/
def chunksOf (items : List AudioItem) : List AudioChunk :=
  items.filterMap fun
    | .chunk c => some c
    | .last _ => none

@[simp] theorem chunksOf_map (chunks : List AudioChunk) :
    chunksOf (chunks.map .chunk) = chunks := by
  induction chunks with
  | nil => rfl
  | cons c chunks ih => simp [chunksOf]

@[simp] theorem chunksOf_append (xs ys : List AudioItem) :
    chunksOf (xs ++ ys) = chunksOf xs ++ chunksOf ys := List.filterMap_append ..

@[simp] theorem chunksOf_last (item : SynthesisEnd) : chunksOf [.last item] = [] := rfl

/-- The segments among the items of the model stage. -/
def segmentsOf (items : List ProductionItem) : List UtteranceSegment :=
  items.filterMap fun
    | .segment segment => some segment
    | .last _ => none

@[simp] theorem segmentsOf_map (segments : List UtteranceSegment) :
    segmentsOf (segments.map .segment) = segments := by
  induction segments with
  | nil => rfl
  | cons segment segments ih => simp [segmentsOf]

@[simp] theorem segmentsOf_map_last (ends : List ProductionEnd) :
    segmentsOf (ends.map .last) = [] := by
  induction ends with
  | nil => rfl
  | cons item ends ih => simp [segmentsOf]

@[simp] theorem segmentsOf_append (xs ys : List ProductionItem) :
    segmentsOf (xs ++ ys) = segmentsOf xs ++ segmentsOf ys := List.filterMap_append ..

/-- The chunks a task has accepted, with the counters it keeps of them. -/
def Accepted (segment : UtteranceSegment) (chunks : List AudioChunk) (expected : ℕ)
    (final : Bool) : Prop :=
  Framed segment chunks ∧ expected = chunks.length ∧
    if final then Complete segment chunks else ∀ c ∈ chunks, c.isFinal = false

/-- Chunks that may be followed by the last item of a task. -/
def Closed (segment : UtteranceSegment) (chunks : List AudioChunk) (item : SynthesisEnd) : Prop :=
  Framed segment chunks ∧ (item = .synthesisFinished → Complete segment chunks)

/-- A chunk that passes the checks continues the stream. -/
theorem Accepted.concat {segment : UtteranceSegment} {chunks : List AudioChunk} {expected : ℕ}
    {final : Bool} {chunk : AudioChunk} (h : Accepted segment chunks expected final)
    (hf : final = false) (hid : chunk.segmentId = segment.segmentId)
    (hseq : chunk.sequence = segment.sequence) (hindex : chunk.chunkIndex = expected) :
    Accepted segment (chunks ++ [chunk]) (expected + 1) chunk.isFinal := by
  obtain ⟨hframed, rfl, hrest⟩ := h
  rw [if_neg (by simp [hf])] at hrest
  have hframed' := hframed.concat hrest hid hseq hindex
  refine ⟨hframed', by simp, ?_⟩
  split
  · rename_i hlast
    exact ⟨hframed', chunk, List.getLast?_concat, hlast⟩
  · rename_i hlast
    intro c hc
    rcases List.mem_append.mp hc with hc | hc
    · exact hrest c hc
    · rw [List.mem_singleton.mp hc]
      simpa using hlast

namespace SynthesisJob

/-- **What a synthesis task has put so far.** -/
def Sound (job : SynthesisJob) : Prop :=
  match job.synthesis with
  | .streaming expected final =>
    ∃ chunks : List AudioChunk, job.emitted = chunks.map .chunk ∧
      Accepted job.segment chunks expected final
  | .putting chunk expected final =>
    ∃ chunks : List AudioChunk, job.emitted = chunks.map .chunk ∧
      Accepted job.segment (chunks ++ [chunk]) expected final
  | .ending item =>
    ∃ chunks : List AudioChunk, job.emitted = chunks.map .chunk ∧ Closed job.segment chunks item
  | .done =>
    ∃ (chunks : List AudioChunk) (item : SynthesisEnd),
      job.emitted = chunks.map .chunk ++ [.last item] ∧ Closed job.segment chunks item

/-- A job the consumer has drained, and that succeeded. -/
def Drained (job : SynthesisJob) : Prop :=
  job.audio = [] ∧ ∃ chunks : List AudioChunk,
    job.emitted = chunks.map .chunk ++ [.last .synthesisFinished]

/-- The block of a job. -/
def block (job : SynthesisJob) : Block := (job.segment, chunksOf job.emitted)

/-- What a step of a synthesis task does to its job. -/
structure Advances (job job' : SynthesisJob) : Prop where
  running : job.isRunning = true
  segment : job'.segment = job.segment
  appended : ∃ items, job'.audio = job.audio ++ items ∧ job'.emitted = job.emitted ++ items
  caught : job.caught = false → job'.caught = false

variable {job job' : SynthesisJob} {chunk : AudioChunk} {error : DialogueError}

/-- What was put is framed. -/
theorem Sound.framed (h : job.Sound) : Framed job.segment (chunksOf job.emitted) := by
  unfold Sound at h
  split at h
  · obtain ⟨chunks, he, hf, -⟩ := h
    simpa [he] using hf
  · obtain ⟨chunks, he, hf, -⟩ := h
    simpa [he] using hf.of_append
  · obtain ⟨chunks, he, hf, -⟩ := h
    simpa [he] using hf
  · obtain ⟨chunks, item, he, hf, -⟩ := h
    simpa [he] using hf

/-- Only the last step of a task puts a last item. -/
theorem Sound.of_last {items more : List AudioItem} {item : SynthesisEnd} (h : job.Sound)
    (he : job.emitted = items ++ .last item :: more) :
    job.isRunning = false ∧ more = [] ∧ ∃ chunks : List AudioChunk, items = chunks.map .chunk ∧
      Closed job.segment chunks item := by
  have hlast : AudioItem.last item ∈ job.emitted := by simp [he]
  unfold Sound at h
  split at h
  · obtain ⟨chunks, hc, -⟩ := h
    simp [hc] at hlast
  · obtain ⟨chunks, hc, -⟩ := h
    simp [hc] at hlast
  · obtain ⟨chunks, hc, -⟩ := h
    simp [hc] at hlast
  · rename_i hs
    obtain ⟨chunks, item', hc, hclosed⟩ := h
    obtain ⟨hitems, hitem, hmore⟩ :=
      append_cons_eq_append (he.symm.trans hc) (by simp) (by simp)
    cases hitem
    exact ⟨by simp [isRunning, hs, Synthesis.isRunning], hmore, chunks, hitems, hclosed⟩

theorem Drained.not_running (h : job.Drained) (hs : job.Sound) : job.isRunning = false := by
  obtain ⟨-, chunks, he⟩ := h
  exact (hs.of_last he).1

/-- The block of a drained job is complete. -/
theorem Drained.complete (h : job.Drained) (hs : job.Sound) :
    Complete job.block.1 job.block.2 := by
  obtain ⟨-, chunks, he⟩ := h
  obtain ⟨-, -, chunks', hmap, -, hcomplete⟩ := hs.of_last he
  have : chunksOf job.emitted = chunks' := by simp [he, hmap]
  rw [block, this]
  exact hcomplete rfl

/-! ### The steps of a synthesis task -/

theorem checkChunk_ok {expected : ℕ} {final : Bool}
    (h : job.checkChunk expected final chunk = .ok ()) :
    final = false ∧ chunk.segmentId = job.segment.segmentId ∧
      chunk.sequence = job.segment.sequence ∧ chunk.chunkIndex = expected := by
  unfold checkChunk at h
  split_ifs at h with hf hid hseq hindex
  exact ⟨by simpa using hf, not_not.mp hid, not_not.mp hseq, not_not.mp hindex⟩

theorem checkEnd_ok {expected : ℕ} {final : Bool} (h : checkEnd expected final = .ok ()) :
    final = true := by
  unfold checkEnd at h
  split_ifs at h with he hf
  simpa using hf

/-- An exception before the run stops is put as the last item. -/
theorem fail_sound {chunks : List AudioChunk} (hr : job.isRunning = true)
    (he : job.emitted = chunks.map .chunk) (hf : Framed job.segment chunks) :
    (job.fail false error).Sound ∧ job.Advances (job.fail false error) := by
  have heq : job.fail false error = { job with synthesis := .ending (.stageFailed error) } := by
    simp [fail]
  rw [heq]
  exact ⟨⟨chunks, he, hf, nofun⟩, hr, rfl, ⟨[], by simp⟩, id⟩

theorem onSpeechChunk_sound (h : job.Sound) (hn : job.onSpeechChunk false chunk = some job') :
    job'.Sound ∧ job.Advances job' := by
  unfold onSpeechChunk at hn
  split at hn
  · rename_i expected final hs
    have hr : job.isRunning = true := by simp [isRunning, hs, Synthesis.isRunning]
    rw [Sound, hs] at h
    obtain ⟨chunks, he, ha⟩ := h
    split at hn
    · cases hn
      exact fail_sound hr he ha.1
    · rename_i hok
      obtain ⟨hfinal, hid, hseq, hindex⟩ := checkChunk_ok hok
      cases hn
      exact ⟨⟨chunks, he, ha.concat hfinal hid hseq hindex⟩, hr, rfl, ⟨[], by simp⟩, id⟩
  all_goals cases hn

theorem onSpeechEnd_sound (h : job.Sound) (hn : job.onSpeechEnd false = some job') :
    job'.Sound ∧ job.Advances job' := by
  unfold onSpeechEnd at hn
  split at hn
  · rename_i expected final hs
    have hr : job.isRunning = true := by simp [isRunning, hs, Synthesis.isRunning]
    rw [Sound, hs] at h
    obtain ⟨chunks, he, ha⟩ := h
    split at hn
    · cases hn
      exact fail_sound hr he ha.1
    · rename_i hok
      cases hn
      obtain ⟨hframed, -, hcomplete⟩ := ha
      rw [if_pos (checkEnd_ok hok)] at hcomplete
      exact ⟨⟨chunks, he, hframed, fun _ => hcomplete⟩, hr, rfl, ⟨[], by simp⟩, id⟩
  all_goals cases hn

theorem onSpeechError_sound (h : job.Sound) (hn : job.onSpeechError false error = some job') :
    job'.Sound ∧ job.Advances job' := by
  unfold onSpeechError at hn
  split at hn
  · rename_i expected final hs
    have hr : job.isRunning = true := by simp [isRunning, hs, Synthesis.isRunning]
    rw [Sound, hs] at h
    obtain ⟨chunks, he, ha⟩ := h
    cases hn
    exact fail_sound hr he ha.1
  all_goals cases hn

theorem audioPut_sound {capacity : ℕ} (h : job.Sound) (hn : job.audioPut capacity = some job') :
    job'.Sound ∧ job.Advances job' := by
  unfold audioPut at hn
  split at hn
  · split at hn
    · rename_i chunk expected final hs
      rw [Sound, hs] at h
      obtain ⟨chunks, he, ha⟩ := h
      cases hn
      exact ⟨⟨chunks ++ [chunk], by simp [he], ha⟩,
        by simp [isRunning, hs, Synthesis.isRunning], rfl, ⟨[.chunk chunk], rfl, rfl⟩, id⟩
    · rename_i item hs
      rw [Sound, hs] at h
      obtain ⟨chunks, he, hc⟩ := h
      cases hn
      exact ⟨⟨chunks, item, by simp [he], hc⟩,
        by simp [isRunning, hs, Synthesis.isRunning], rfl, ⟨[.last item], rfl, rfl⟩, id⟩
    all_goals cases hn
  · cases hn

theorem isRunning_of_ne (h : job.synthesis ≠ .done) : job.isRunning = true := by
  unfold isRunning Synthesis.isRunning
  split
  · exact absurd (by assumption) h
  all_goals rfl

end SynthesisJob

/-! ### The invariant of a run -/

namespace PipelineRun

variable (A : PipelineArguments)

/-- Everything the producer has made, in order: as jobs, with the dispatcher, in the
segment queue, or still to be put. -/
def upstream (s : PipelineRun) : List ProductionItem :=
  (s.jobs.map (·.segment)).map .segment ++ s.dispatcher.held ++ s.segments ++ s.producer.pending

/-- **Production**: upstream of the consumer is what the assembler made, and then the
last item once there is one. -/
def Production (s : PipelineRun) : Prop :=
  ∃ ends : List ProductionEnd,
    s.upstream = s.assembler.segments.map .segment ++ ends.map .last ∧
    s.producer.Closing s.assembler.segments ends

/-- **Handover**: the output queue holds the jobs not taken yet, and then the last item. -/
def Handover (s : PipelineRun) (taken : ℕ) : Prop :=
  s.dispatcher ≠ .done none ∧ taken ≤ s.jobs.length ∧
    (s.consumer.final ≠ [] → taken = s.jobs.length) ∧
    ∃ ends : List ProductionEnd,
      s.output = (List.range' taken (s.jobs.length - taken)).map .job ++ ends.map .last ∧
      s.consumer.final ++ ends = s.dispatcher.passed

/-- **Consumption**: what was yielded are the blocks of the jobs taken before, and the
handled part of the current one. -/
def Consumption (s : PipelineRun) (taken : ℕ) : Prop :=
  match s.consumer.reading with
  | none => (∀ job ∈ s.jobs.take taken, job.Drained) ∧
    s.yielded = blockEvents A.request ((s.jobs.take taken).map (·.block)) ++
      s.consumer.completion A.request
  | some d => taken = d.job + 1 ∧ (∀ job ∈ s.jobs.take d.job, job.Drained) ∧
    ∃ (job : SynthesisJob) (chunks : List AudioChunk), s.jobs[d.job]? = some job ∧
      job.emitted = chunks.map .chunk ++ (d.held ++ job.audio) ∧
      (d.announced = false → chunks = []) ∧
      s.yielded = blockEvents A.request ((s.jobs.take d.job).map (·.block)) ++
        if d.announced then segmentEvents A.request (job.segment, chunks) else []

/-- No stream has caught a `CancelledError` of the `finally` clause. -/
def Uncaught (s : PipelineRun) : Prop :=
  s.producerCaught = false ∧ ∀ job ∈ s.jobs, job.caught = false

/-- What holds of a run that is not stopping, `taken` of whose jobs the consumer has taken. -/
structure Live (s : PipelineRun) (taken : ℕ) : Prop where
  notStopping : s.isStopping = false
  production : s.Production
  handover : s.Handover taken
  sound : ∀ job ∈ s.jobs, job.Sound
  untouched : ∀ job ∈ s.jobs.drop taken, job.audio = job.emitted
  consumption : s.Consumption A taken
  uncaught : s.Uncaught

variable {A} {s t : PipelineRun} {n : ℕ}

theorem synthesize_eq_some {i : ℕ} {f : SynthesisJob → Option SynthesisJob} :
    s.synthesize i f = some t ↔ ∃ job job', s.jobs[i]? = some job ∧ f job = some job' ∧
      t = { s with
        jobs := s.jobs.set i job'
        synthesisSlots :=
          if job.isRunning && !job'.isRunning then s.synthesisSlots + 1
          else s.synthesisSlots } := by
  simp only [synthesize, Option.bind_eq_some_iff, Option.map_eq_some_iff]
  constructor
  · rintro ⟨job, hjob, job', hf, rfl⟩
    exact ⟨job, job', hjob, hf, rfl⟩
  · rintro ⟨job, job', hjob, hf, rfl⟩
    exact ⟨job, hjob, job', hf, rfl⟩

theorem Production.congr (h : s.Production)
    (hjobs : t.jobs.map (·.segment) = s.jobs.map (·.segment)) (hd : t.dispatcher = s.dispatcher)
    (hs : t.segments = s.segments) (hp : t.producer = s.producer)
    (ha : t.assembler = s.assembler) : t.Production := by
  obtain ⟨ends, hup, hclosing⟩ := h
  exact ⟨ends, by rw [← ha] at hup; rw [← hup, upstream, upstream, hjobs, hd, hs, hp],
    by rwa [hp, ha]⟩

/-! ### The producer keeps it -/

theorem produce_eq (s : PipelineRun) (pending : List UtteranceSegment) (exhausted : Bool) :
    ∃ p, s.produce A pending exhausted = { s with producer := p } := by
  unfold produce
  split
  · split <;> exact ⟨_, rfl⟩
  · exact ⟨_, rfl⟩

theorem failProduction_eq (s : PipelineRun) (error : DialogueError) :
    ∃ p, s.failProduction error = { s with producer := p } := by
  unfold failProduction
  split <;> exact ⟨_, rfl⟩

theorem onModelEvent_eq (s : PipelineRun) (event : ModelStreamEvent) :
    ∃ p a c, s.onModelEvent A event =
      { s with producer := p, assembler := a, completion := c } := by
  unfold PipelineRun.onModelEvent
  split
  · obtain ⟨p, hp⟩ := s.failProduction_eq _
    exact ⟨p, _, _, hp⟩
  · split
    · obtain ⟨p, hp⟩ := produce_eq (A := A) _ _ _
      exact ⟨p, _, _, hp⟩
    · split
      · obtain ⟨p, hp⟩ := s.failProduction_eq _
        exact ⟨p, _, _, hp⟩
      · exact ⟨_, _, _, rfl⟩
    · obtain ⟨p, hp⟩ := s.failProduction_eq _
      exact ⟨p, _, _, hp⟩

theorem onModelEnd_eq (s : PipelineRun) :
    ∃ p a, s.onModelEnd A = { s with producer := p, assembler := a } := by
  obtain ⟨p, hp⟩ := produce_eq (A := A)
    { s with assembler := (s.assembler.finish A.uuid4).1 } (s.assembler.finish A.uuid4).2 true
  exact ⟨p, _, hp⟩

theorem producerPut_eq (hn : s.producerPut A = some t) :
    ∃ p item, t = { s with producer := p, segments := s.segments ++ [item] } := by
  unfold PipelineRun.producerPut at hn
  split at hn
  · split at hn
    · cases hn
      obtain ⟨p, hp⟩ := produce_eq (A := A) _ _ _
      exact ⟨p, _, hp⟩
    · cases hn
      exact ⟨_, _, rfl⟩
    all_goals cases hn
  · cases hn

/-- The producer goes on with the segments it has just made. -/
theorem production_produce {pending : List UtteranceSegment} {exhausted : Bool}
    (h : (s.jobs.map (·.segment)).map .segment ++ s.dispatcher.held ++ s.segments ++
      pending.map .segment = s.assembler.segments.map .segment) :
    (s.produce A pending exhausted).Production := by
  unfold produce
  split
  · split
    · refine ⟨[_], congrArg (· ++ [_]) ?_, _, rfl, fun plan hplan => ?_⟩
      · simpa using h
      · cases hplan
        rfl
    · exact ⟨[], by simpa [upstream, Producer.pending] using h, rfl⟩
  · exact ⟨[], by simpa [upstream, Producer.pending] using h, rfl, List.cons_ne_nil _ _⟩

/-- What the producer does concerns production only. -/
theorem Live.withProducer (h : s.Live A n) {producer : Producer}
    {assembler : IncrementalUtteranceAssembler} {completion : Option ModelCompleted}
    {segments : List ProductionItem}
    (hp : ({ s with producer := producer, assembler := assembler, completion := completion,
                    segments := segments } : PipelineRun).Production) :
    ({ s with producer := producer, assembler := assembler, completion := completion,
              segments := segments } : PipelineRun).Live A n :=
  ⟨h.notStopping, hp, h.handover, h.sound, h.untouched, h.consumption, h.uncaught⟩

/-- While the producer waits for the stream, everything it made has been put. -/
theorem Live.streaming (h : s.Live A n) (hs : s.producer = .streaming) :
    (s.jobs.map (·.segment)).map .segment ++ s.dispatcher.held ++ s.segments =
      s.assembler.segments.map .segment := by
  obtain ⟨ends, hup, hclosing⟩ := h.production
  rw [hs] at hclosing
  obtain rfl : ends = [] := hclosing
  rw [upstream, hs] at hup
  simpa [Producer.pending] using hup

theorem Live.failProduction (h : s.Live A n) (hs : s.producer = .streaming)
    (error : DialogueError) : (s.failProduction error).Live A n := by
  have heq : s.failProduction error = { s with producer := .ending (.stageFailed error) } := by
    simp [PipelineRun.failProduction, h.notStopping]
  rw [heq]
  refine h.withProducer ⟨[.stageFailed error], ?_, .stageFailed error, rfl, nofun⟩
  rw [upstream]
  exact congrArg (· ++ _) (h.streaming hs)

theorem Live.produce (h : s.Live A n) (hs : s.producer = .streaming)
    {assembler : IncrementalUtteranceAssembler} {made : List UtteranceSegment}
    (hmade : assembler.segments = s.assembler.segments ++ made) (exhausted : Bool) :
    (({ s with assembler := assembler } : PipelineRun).produce A made exhausted).Live A n := by
  have hp : (({ s with assembler := assembler } : PipelineRun).produce A made
      exhausted).Production := by
    refine production_produce ?_
    change _ = List.map _ assembler.segments
    rw [hmade, List.map_append, ← h.streaming hs]
  obtain ⟨p, hp'⟩ := produce_eq (A := A) { s with assembler := assembler } made exhausted
  rw [hp'] at hp ⊢
  exact h.withProducer hp

theorem Live.onModelEvent (h : s.Live A n) (hs : s.producer = .streaming)
    (event : ModelStreamEvent) : (s.onModelEvent A event).Live A n := by
  unfold PipelineRun.onModelEvent
  split
  · exact h.failProduction hs _
  · split
    · exact h.produce hs (IncrementalUtteranceAssembler.push_segments _) false
    · split
      · exact h.failProduction hs _
      · exact h.withProducer h.production
    · exact h.failProduction hs _

/-- What the model stream caught concerns nobody while the run goes on. -/
theorem Live.answered (h : s.Live A n) : s.answered.Live A n :=
  ⟨h.notStopping, h.production, h.handover, h.sound, h.untouched, h.consumption, h.notStopping,
    h.uncaught.2⟩

theorem Live.onModelEnd (h : s.Live A n) (hs : s.producer = .streaming) :
    (s.onModelEnd A).Live A n :=
  h.produce hs IncrementalUtteranceAssembler.finish_segments true

theorem Live.producerPut (h : s.Live A n) (hn : s.producerPut A = some t) : t.Live A n := by
  unfold PipelineRun.producerPut at hn
  split at hn
  · obtain ⟨ends, hup, hclosing⟩ := h.production
    split at hn
    · rename_i segment rest exhausted hs
      rw [hs] at hclosing
      obtain ⟨rfl, -⟩ := hclosing
      cases hn
      have hp : (({ s with segments := s.segments ++ [.segment segment] } :
          PipelineRun).produce A rest exhausted).Production := by
        refine production_produce ?_
        rw [upstream, hs] at hup
        simpa [Producer.pending] using hup
      obtain ⟨p, hp'⟩ := produce_eq (A := A)
        { s with segments := s.segments ++ [.segment segment] } rest exhausted
      rw [hp'] at hp ⊢
      exact h.withProducer hp
    · rename_i item hs
      rw [hs] at hclosing
      cases hn
      refine h.withProducer ⟨ends, ?_, hclosing⟩
      rw [← hup]
      simp [upstream, hs, Producer.pending]
    all_goals cases hn
  · cases hn

/-! ### The dispatcher keeps it -/

/-- A new job does not concern the consumer. -/
theorem consumption_concat {job : SynthesisJob} (hle : n ≤ s.jobs.length)
    (h : s.Consumption A n) (hjobs : t.jobs = s.jobs ++ [job]) (hc : t.consumer = s.consumer)
    (hy : t.yielded = s.yielded) : t.Consumption A n := by
  unfold Consumption at h ⊢
  rw [hc, hy, hjobs]
  split at h
  · rwa [List.take_append_of_le_length hle]
  · obtain ⟨htaken, hdrained, current, chunks, hi, hrest⟩ := h
    obtain ⟨hlt, -⟩ := List.getElem?_eq_some_iff.mp hi
    rw [List.take_append_of_le_length hlt.le]
    exact ⟨htaken, hdrained, current, chunks, by rwa [List.getElem?_append_left hlt], hrest⟩

theorem Live.dispatch (h : s.Live A n) (hn : s.dispatch A = some t) : t.Live A n := by
  obtain ⟨ends, hup, hclosing⟩ := h.production
  obtain ⟨hdone, hle, hfinal, last, hout, hlast⟩ := h.handover
  unfold PipelineRun.dispatch at hn
  split at hn
  -- it takes the next item: a segment, or the last of all
  · rename_i hd
    rw [upstream, hd] at hup
    rw [hd] at hlast
    split at hn
    · cases hn
    · rename_i segment rest hsegments
      cases hn
      refine ⟨h.notStopping, ⟨ends, ?_, hclosing⟩, ⟨nofun, hle, hfinal, last, hout, hlast⟩,
        h.sound, h.untouched, h.consumption, h.uncaught⟩
      rw [← hup, hsegments]
      simp [upstream, Dispatcher.held]
    · rename_i item rest hsegments
      cases hn
      refine ⟨h.notStopping, ⟨ends, ?_, hclosing⟩, ⟨nofun, hle, hfinal, last, hout, hlast⟩,
        h.sound, h.untouched, h.consumption, h.uncaught⟩
      rw [← hup, hsegments]
      simp [upstream, Dispatcher.held]
  -- it acquires a slot for its segment
  · rename_i segment hd
    rw [upstream, hd] at hup
    rw [hd] at hlast
    split at hn
    · cases hn
      exact ⟨h.notStopping, ⟨ends, hup, hclosing⟩, ⟨nofun, hle, hfinal, last, hout, hlast⟩,
        h.sound, h.untouched, h.consumption, h.uncaught⟩
    · cases hn
  -- it puts the segment, the job of which has heard nothing yet
  · rename_i segment hd
    rw [upstream, hd] at hup
    rw [hd, Dispatcher.passed, List.append_eq_nil_iff] at hlast
    obtain ⟨hconsumer, rfl⟩ := hlast
    split at hn
    · cases hn
      refine ⟨h.notStopping, ⟨ends, ?_, hclosing⟩,
        ⟨nofun, ?_, fun hne => absurd hconsumer hne, [], ?_, ?_⟩, ?_, ?_, ?_, h.uncaught.1, ?_⟩
      · rw [← hup]
        simp [upstream, Dispatcher.held]
      · simpa using Nat.le_succ_of_le hle
      · obtain ⟨k, hk⟩ := Nat.exists_eq_add_of_le hle
        simp only [hout, List.map_nil, List.append_nil, List.length_append, List.length_cons,
          List.length_nil, hk, Nat.zero_add]
        rw [Nat.add_sub_cancel_left, Nat.add_assoc, Nat.add_sub_cancel_left, List.range'_concat]
        simp
      · change s.consumer.final ++ [] = []
        rw [hconsumer, List.append_nil]
      · intro job hjob
        rcases List.mem_append.mp hjob with hjob | hjob
        · exact h.sound job hjob
        · rw [List.mem_singleton.mp hjob]
          exact ⟨[], rfl, .nil _, rfl, by simp⟩
      · intro job hjob
        rw [List.drop_append_of_le_length hle] at hjob
        rcases List.mem_append.mp hjob with hjob | hjob
        · exact h.untouched job hjob
        · rw [List.mem_singleton.mp hjob]
      · exact consumption_concat hle h.consumption rfl rfl rfl
      · intro job hjob
        rcases List.mem_append.mp hjob with hjob | hjob
        · exact h.uncaught.2 job hjob
        · rw [List.mem_singleton.mp hjob]
    · cases hn
  -- it puts the last item, and is done
  · rename_i item hd
    rw [upstream, hd] at hup
    rw [hd, Dispatcher.passed, List.append_eq_nil_iff] at hlast
    obtain ⟨hconsumer, rfl⟩ := hlast
    split at hn
    · cases hn
      refine ⟨h.notStopping, ⟨ends, hup, hclosing⟩,
        ⟨nofun, hle, fun hne => absurd hconsumer hne, [item], ?_, ?_⟩, h.sound, h.untouched,
        h.consumption, h.uncaught⟩
      · simp [hout]
      · change s.consumer.final ++ [item] = [item]
        rw [hconsumer, List.nil_append]
    · cases hn
  · cases hn

/-! ### The synthesis tasks keep it -/

/-- A job whose task has not ended has not been drained. -/
theorem le_of_running {i : ℕ} {job : SynthesisJob} (hsound : ∀ job ∈ s.jobs, job.Sound)
    (hdrained : ∀ job ∈ s.jobs.take n, job.Drained) (hi : s.jobs[i]? = some job)
    (hrun : job.isRunning = true) : n ≤ i := by
  by_contra hlt
  have hmem : job ∈ s.jobs.take n :=
    List.mem_of_getElem? ((List.getElem?_take_of_lt (Nat.lt_of_not_le hlt)).trans hi)
  rw [(hdrained job hmem).not_running (hsound job (List.mem_of_getElem? hi))] at hrun
  cases hrun

theorem consumption_set {i : ℕ} {job job' : SynthesisJob} (hsound : ∀ job ∈ s.jobs, job.Sound)
    (h : s.Consumption A n) (hi : s.jobs[i]? = some job) (hadv : job.Advances job')
    (hjobs : t.jobs = s.jobs.set i job') (hc : t.consumer = s.consumer)
    (hy : t.yielded = s.yielded) : t.Consumption A n := by
  unfold Consumption at h ⊢
  rw [hc, hy, hjobs]
  split at h
  · rwa [List.take_set_of_le (le_of_running hsound h.1 hi hadv.running)]
  · rename_i d _
    obtain ⟨htaken, hdrained, current, chunks, hd, hemitted, hannounced, hyielded⟩ := h
    have hle := le_of_running hsound hdrained hi hadv.running
    rw [List.take_set_of_le hle]
    refine ⟨htaken, hdrained, ?_⟩
    by_cases hdi : i = d.job
    · subst hdi
      obtain rfl : job = current := Option.some.inj (hi.symm.trans hd)
      obtain ⟨items, haudio, hemitted'⟩ := hadv.appended
      obtain ⟨hlt, -⟩ := List.getElem?_eq_some_iff.mp hi
      refine ⟨job', chunks, List.getElem?_set_self hlt, ?_, hannounced, ?_⟩
      · rw [hemitted', hemitted, haudio]
        simp
      · rw [hyielded, hadv.segment]
    · exact ⟨current, chunks, by rwa [List.getElem?_set_ne hdi], hemitted, hannounced, hyielded⟩

/-- **A step of a synthesis task keeps the invariant.** -/
theorem Live.synthesize (h : s.Live A n) {i : ℕ} {f : SynthesisJob → Option SynthesisJob}
    (hf : ∀ job job', job.Sound → f job = some job' → job'.Sound ∧ job.Advances job')
    (hn : s.synthesize i f = some t) : t.Live A n := by
  obtain ⟨job, job', hi, hjob, rfl⟩ := synthesize_eq_some.mp hn
  have hmem := List.mem_of_getElem? hi
  obtain ⟨hsound', hadv⟩ := hf job job' (h.sound job hmem) hjob
  refine ⟨h.notStopping, ?_, ?_, fun j hj => ?_, fun j hj => ?_,
    consumption_set h.sound h.consumption hi hadv rfl rfl rfl, h.uncaught.1, fun j hj => ?_⟩
  · exact h.production.congr (map_set_of_eq hi hadv.segment) rfl rfl rfl rfl
  · obtain ⟨hdone, hle, hfinal, last, hout, hlast⟩ := h.handover
    exact ⟨hdone, by simpa using hle, by simpa using hfinal, last, by simpa using hout, hlast⟩
  · rcases List.mem_or_eq_of_mem_set hj with hj | rfl
    · exact h.sound j hj
    · exact hsound'
  · rw [List.drop_set] at hj
    split at hj
    · exact h.untouched j hj
    · rename_i hin
      rcases List.mem_or_eq_of_mem_set hj with hj | rfl
      · exact h.untouched j hj
      · obtain ⟨items, haudio, hemitted⟩ := hadv.appended
        have hdrop : job ∈ s.jobs.drop n := by
          refine List.mem_of_getElem? (i := i - n) ?_
          rw [List.getElem?_drop, Nat.add_sub_cancel' (Nat.le_of_not_lt hin), hi]
        rw [haudio, hemitted, h.untouched job hdrop]
  · rcases List.mem_or_eq_of_mem_set hj with hj | rfl
    · exact h.uncaught.2 j hj
    · exact hadv.caught (h.uncaught.2 job hmem)

/-- A speech stream answers. -/
theorem Live.hear (h : s.Live A n) {i : ℕ} {f : SynthesisJob → Option SynthesisJob}
    (hf : ∀ job job', job.Sound → f job = some job' → job'.Sound ∧ job.Advances job')
    (hn : s.hear i f = some t) : t.Live A n := by
  refine h.synthesize (fun job job' hsound hjob => ?_) hn
  obtain ⟨answer, hanswer, rfl⟩ := Option.map_eq_some_iff.mp hjob
  obtain ⟨hsound', hadv⟩ := hf job answer hsound hanswer
  exact ⟨hsound', hadv.running, hadv.segment, hadv.appended, fun _ => h.notStopping⟩

/-! ### The consumer keeps it -/

theorem Live.takeOutput (h : s.Live A n) (hc : s.consumer = .awaitingOutput) {item : OutputItem}
    {rest : List OutputItem} (hout : s.output = item :: rest) :
    ∃ n', ({ s with output := rest, consumer := .holdingOutput item } : PipelineRun).Live A n' := by
  obtain ⟨hdone, hle, -, last, hout', hlast⟩ := h.handover
  obtain ⟨k, hk⟩ := Nat.exists_eq_add_of_le hle
  have hcons := h.consumption
  simp only [Consumption, hc, Consumer.reading, Consumer.completion, List.append_nil] at hcons
  obtain ⟨hdrained, hyielded⟩ := hcons
  rw [hout, hk, Nat.add_sub_cancel_left] at hout'
  rcases k with _ | k
  · -- the consumer takes the last item
    rcases last with _ | ⟨e, last⟩
    · cases hout'
    obtain ⟨rfl, rfl⟩ : item = .last e ∧ rest = last.map .last := by simpa using hout'
    have hnil : last = [] := by
      rw [hc] at hlast
      change e :: last = _ at hlast
      unfold Dispatcher.passed at hlast
      split at hlast <;> cases hlast
      rfl
    subst hnil
    rw [hc] at hlast
    exact ⟨n, rfl, h.production, ⟨hdone, hle, fun _ => hk.symm, [], by simp [hk], hlast⟩, h.sound,
      h.untouched, ⟨hdrained, hyielded.trans (List.append_nil _).symm⟩, h.uncaught⟩
  · -- the consumer takes the next job
    rw [List.range'_succ] at hout'
    obtain ⟨rfl, rfl⟩ : item = .job n ∧
        rest = (List.range' (n + 1) k).map .job ++ last.map .last := by simpa using hout'
    have hlt : n < s.jobs.length := by omega
    have hjob : s.jobs[n]? = some s.jobs[n] := List.getElem?_eq_getElem hlt
    have hmem : s.jobs[n] ∈ s.jobs.drop n := by
      refine List.mem_of_getElem? (i := 0) ?_
      rw [List.getElem?_drop, Nat.add_zero, hjob]
    rw [hc] at hlast
    refine ⟨n + 1, rfl, h.production,
      ⟨hdone, hlt, fun hne => absurd rfl hne, last, ?_, hlast⟩, h.sound, fun job hj => ?_, ⟨rfl,
      hdrained, s.jobs[n], [], hjob, ?_, fun _ => rfl, ?_⟩, h.uncaught⟩
    · have : s.jobs.length - (n + 1) = k := by omega
      rw [this]
    · exact h.untouched job (List.drop_subset_drop_left _ (Nat.le_succ n) hj)
    · simpa using (h.untouched _ hmem).symm
    · simpa using hyielded

theorem Live.takeAudio (h : s.Live A n) {i : ℕ} (hc : s.consumer = .awaitingAudio i)
    {job : SynthesisJob} (hi : s.jobs[i]? = some job) {item : AudioItem} {rest : List AudioItem}
    (haudio : job.audio = item :: rest) :
    ({ s with
        jobs := s.jobs.set i { job with audio := rest }
        consumer := .holdingAudio i item } : PipelineRun).Live A n := by
  obtain ⟨hdone, hle, -, last, hout, hlast⟩ := h.handover
  have hcons := h.consumption
  simp only [Consumption, hc, Consumer.reading] at hcons
  obtain ⟨htaken, hdrained, current, chunks, hd, hemitted, -, hyielded⟩ := hcons
  obtain rfl : job = current := Option.some.inj (hi.symm.trans hd)
  obtain ⟨hlt, -⟩ := List.getElem?_eq_some_iff.mp hi
  rw [hc] at hlast
  refine ⟨rfl, ?_, ⟨hdone, by simpa using hle, fun hne => absurd rfl hne, last, by simpa using hout,
    hlast⟩, fun j hj => ?_, fun j hj => ?_, ⟨htaken, ?_, { job with audio := rest }, chunks,
    List.getElem?_set_self hlt, ?_, nofun, ?_⟩, h.uncaught.1, fun j hj => ?_⟩
  · exact h.production.congr (map_set_of_eq hi rfl) rfl rfl rfl rfl
  · rcases List.mem_or_eq_of_mem_set hj with hj | rfl
    · exact h.sound j hj
    · exact h.sound job (List.mem_of_getElem? hi)
  · rw [List.drop_set_of_lt (by omega)] at hj
    exact h.untouched j hj
  · change ∀ job ∈ (s.jobs.set i _).take i, job.Drained
    rwa [List.take_set_of_le (Nat.le_refl i)]
  · simpa [haudio] using hemitted
  · change s.yielded = blockEvents A.request (((s.jobs.set i _).take i).map _) ++ _
    rwa [List.take_set_of_le (Nat.le_refl i)]
  · rcases List.mem_or_eq_of_mem_set hj with hj | rfl
    · exact h.uncaught.2 j hj
    · exact h.uncaught.2 job (List.mem_of_getElem? hi)

theorem Live.take (h : s.Live A n) (hn : s.take = some t) : ∃ n', t.Live A n' := by
  unfold PipelineRun.take at hn
  split at hn
  · rename_i hc
    split at hn
    · cases hn
    · rename_i hout
      cases hn
      exact h.takeOutput hc hout
  · rename_i i hc
    rw [Option.bind_eq_some_iff] at hn
    obtain ⟨job, hi, hn⟩ := hn
    split at hn
    · cases hn
    · rename_i haudio
      cases hn
      exact ⟨n, h.takeAudio hc hi haudio⟩
  all_goals cases hn

/-- What the consumer does at the output queue or with its hands on a job leaves the
output queue and the last item alone. -/
theorem Handover.congr (h : s.Handover n) (hjobs : t.jobs.length = s.jobs.length)
    (hd : t.dispatcher = s.dispatcher) (ho : t.output = s.output)
    (hc : t.consumer.final = s.consumer.final) : t.Handover n := by
  obtain ⟨hdone, hle, hfinal, last, hout, hlast⟩ := h
  exact ⟨by rwa [hd], by rwa [hjobs], by rwa [hc, hjobs], last, by rw [ho, hout, hjobs],
    by rw [hc, hd, hlast]⟩

/-- What the consumer does without touching a queue. -/
theorem Live.withConsumer (h : s.Live A n) {consumer : Consumer}
    {yielded : List DialogueStreamEvent} (hfinal : consumer.final = s.consumer.final)
    (hopen : ({ s with consumer := consumer, yielded := yielded } : PipelineRun).isStopping = false)
    (hcons : ({ s with consumer := consumer, yielded := yielded } : PipelineRun).Consumption A n) :
    ({ s with consumer := consumer, yielded := yielded } : PipelineRun).Live A n :=
  ⟨hopen, h.production, h.handover.congr rfl rfl rfl hfinal, h.sound, h.untouched, hcons,
    h.uncaught⟩

/-- A yield either happens or ends the run. -/
theorem yieldEvent_eq (s : PipelineRun) (event : DialogueStreamEvent) (paused : Consumer) :
    (s.isActive = true ∧ s.yieldEvent A event paused =
        { s with yielded := s.yielded ++ [event], consumer := paused }) ∨
      ∃ error, s.yieldEvent A event paused =
        { s with consumer := .stopping (.raised .activity error) } := by
  unfold yieldEvent
  split
  · exact Or.inr ⟨_, rfl⟩
  · rename_i hactive
    refine Or.inl ⟨?_, rfl⟩
    unfold checkActive at hactive
    split at hactive
    · cases hactive
    · rename_i htoken
      split at hactive
      · rename_i hcurrent
        rw [isActive, hcurrent, Bool.and_true]
        cases hcancellation : s.cancellation with
        | none => rfl
        | some token => simpa [hcancellation] using htoken
      · cases hactive

/-- **What the consumer does with what it waited for**, as long as the run goes on. -/
theorem Live.handle (h : s.Live A n) (hn : s.handle A = some t) (ht : t.isStopping = false) :
    t.Live A n := by
  have hcons := h.consumption
  unfold PipelineRun.handle at hn
  split at hn
  · cases hn
    cases ht
  · -- the plan has arrived
    rename_i plan hc
    cases hn
    simp only [Consumption, hc, Consumer.reading, Consumer.completion] at hcons
    exact h.withConsumer (by rw [hc]; rfl) rfl hcons
  · -- a job has arrived, and its segment is yielded
    rename_i i hc
    simp only [Option.map_eq_some_iff] at hn
    obtain ⟨job, hi, rfl⟩ := hn
    simp only [Consumption, hc, Consumer.reading] at hcons
    obtain ⟨htaken, hdrained, current, chunks, hd, hemitted, hchunks, hyielded⟩ := hcons
    obtain rfl : job = current := Option.some.inj (hi.symm.trans hd)
    obtain rfl := hchunks trivial
    rcases s.yieldEvent_eq (A := A)
        (.segmentReady A.request.turnId A.request.generation job.segment) (.pausedSegment i) with
      ⟨-, heq⟩ | ⟨error, heq⟩ <;> rw [heq] at ht ⊢
    · refine h.withConsumer (by rw [hc]; rfl) rfl
        ⟨htaken, hdrained, job, [], hi, hemitted, nofun, ?_⟩
      rw [hyielded]
      simp [segmentEvents]
    · cases ht
  · cases hn
    cases ht
  · -- the audio of the current job has ended
    rename_i i hc
    cases hn
    simp only [Consumption, hc, Consumer.reading] at hcons
    obtain ⟨rfl, hdrained, job, chunks, hi, hemitted, -, hyielded⟩ := hcons
    have hsound := h.sound job (List.mem_of_getElem? hi)
    have haudio : job.audio = [] := (hsound.of_last hemitted).2.1
    have htake : s.jobs.take (i + 1) = s.jobs.take i ++ [job] := by
      rw [List.take_add_one, hi]
      rfl
    have hjob : job.Drained := ⟨haudio, chunks, by rw [hemitted, haudio]; rfl⟩
    refine h.withConsumer (by rw [hc]; rfl) rfl ⟨fun j hj => ?_, ?_⟩
    · change j ∈ s.jobs.take (i + 1) at hj
      rw [htake] at hj
      rcases List.mem_append.mp hj with hj | hj
      · exact hdrained j hj
      · rw [List.mem_singleton.mp hj]
        exact hjob
    · change s.yielded = blockEvents A.request ((s.jobs.take (i + 1)).map (·.block)) ++ []
      rw [htake, List.map_append, blockEvents_append, hyielded]
      simp [blockEvents_singleton, SynthesisJob.block, hemitted, haudio]
  · -- a chunk has arrived, and is yielded
    rename_i i chunk hc
    simp only [Option.map_eq_some_iff] at hn
    obtain ⟨job, hi, rfl⟩ := hn
    simp only [Consumption, hc, Consumer.reading] at hcons
    obtain ⟨htaken, hdrained, current, chunks, hd, hemitted, -, hyielded⟩ := hcons
    obtain rfl : job = current := Option.some.inj (hi.symm.trans hd)
    rcases s.yieldEvent_eq (A := A)
        (.segmentAudioReady A.request.turnId A.request.generation job.segment chunk)
        (.pausedAudio i) with ⟨-, heq⟩ | ⟨error, heq⟩ <;> rw [heq] at ht ⊢
    · refine h.withConsumer (by rw [hc]; rfl) rfl
        ⟨htaken, hdrained, job, chunks ++ [chunk], hi, ?_, nofun, ?_⟩
      · simpa using hemitted
      · rw [hyielded]
        simp [segmentEvents_append]
    · cases ht
  · -- the tasks have ended, and the completion is yielded
    rename_i plan hc
    simp only [Consumption, hc, Consumer.reading, Consumer.completion, List.append_nil] at hcons
    split at hn
    · cases hn
      rcases s.yieldEvent_eq (A := A)
          (.utteranceCompleted A.request.turnId A.request.generation plan)
          (.pausedCompleted plan) with ⟨-, heq⟩ | ⟨error, heq⟩ <;> rw [heq] at ht ⊢
      · exact h.withConsumer (by rw [hc]; rfl) rfl
          ⟨hcons.1, congrArg (· ++ [completedEvent A.request plan]) hcons.2⟩
      · cases ht
    · cases hn
  all_goals cases hn

theorem Live.resume (h : s.Live A n) (hn : s.resume = some t) (ht : t.isStopping = false) :
    t.Live A n := by
  have hcons := h.consumption
  unfold PipelineRun.resume at hn
  split at hn
  · rename_i i hc
    cases hn
    simp only [Consumption, hc, Consumer.reading] at hcons
    exact h.withConsumer (by rw [hc]; rfl) rfl hcons
  · rename_i i hc
    cases hn
    simp only [Consumption, hc, Consumer.reading] at hcons
    exact h.withConsumer (by rw [hc]; rfl) rfl hcons
  · cases hn
    cases ht
  all_goals cases hn

/-! ### What follows for the segments -/

/-- The jobs are for the first segments the assembler made. -/
theorem Live.jobs_prefix (h : s.Live A n) :
    s.jobs.map (·.segment) <+: s.assembler.segments := by
  obtain ⟨ends, hup, -⟩ := h.production
  have := congrArg segmentsOf hup
  simp only [upstream, segmentsOf_append, segmentsOf_map, segmentsOf_map_last,
    List.append_nil, List.append_assoc] at this
  exact ⟨_, this⟩

/-- Once the dispatcher has the last item, there is nothing behind it. -/
theorem Live.last_held (h : s.Live A n) (item : ProductionEnd)
    (hd : s.dispatcher.held = [.last item]) :
    s.producer = .done ∧ s.segments = [] ∧ s.jobs.map (·.segment) = s.assembler.segments ∧
      ∀ plan, item = .productionFinished plan → plan.segments = s.assembler.segments := by
  obtain ⟨ends, hup, hclosing⟩ := h.production
  have hlen : (ends.map ProductionItem.last).length ≤ 1 := by
    cases hp : s.producer <;> rw [hp] at hclosing
    · simp [show ends = [] from hclosing]
    · simp [hclosing.1]
    all_goals
      obtain ⟨_, rfl, -⟩ := hclosing
      simp
  rw [upstream, hd, List.append_assoc, List.append_assoc, List.singleton_append] at hup
  obtain ⟨hjobs, hends, hrest⟩ := append_cons_eq_append hup (by simp) hlen
  obtain ⟨hsegments, hpending⟩ := List.append_eq_nil_iff.mp hrest
  have hjobs' : s.jobs.map (·.segment) = s.assembler.segments := by
    simpa only [segmentsOf_map] using congrArg segmentsOf hjobs
  have hitem : ends = [item] := by
    rcases ends with _ | ⟨e, _ | _⟩ <;> simp at hends
    rw [hends]
  subst hitem
  cases hp : s.producer <;> rw [hp] at hclosing hpending
  · cases hclosing
  · cases hclosing.1
  · cases hpending
  · obtain ⟨item', heq, hplan⟩ := hclosing
    cases heq
    exact ⟨rfl, hsegments, hjobs', hplan⟩

/-- Once the consumer has the last item, every job has been taken. -/
theorem Live.final (h : s.Live A n) (item : ProductionEnd) (hc : s.consumer.final = [item]) :
    s.producer = .done ∧ s.dispatcher = .done (some item) ∧ n = s.jobs.length ∧
      s.jobs.map (·.segment) = s.assembler.segments ∧
      ∀ plan, item = .productionFinished plan → plan.segments = s.assembler.segments := by
  obtain ⟨-, -, hfinal, last, -, hlast⟩ := h.handover
  have hd : s.dispatcher = .done (some item) := by
    rw [hc] at hlast
    unfold Dispatcher.passed at hlast
    split at hlast
    · rename_i hd
      cases hlast
      exact hd
    all_goals cases hlast
  obtain ⟨hp, -, hjobs, hplan⟩ := h.last_held item (by rw [hd]; rfl)
  exact ⟨hp, hd, hfinal (by rw [hc]; exact List.cons_ne_nil _ _), hjobs, hplan⟩

/-- The blocks of the jobs taken before are complete. -/
theorem Live.blocks_complete (h : s.Live A n) {k : ℕ}
    (hdrained : ∀ job ∈ s.jobs.take k, job.Drained) :
    ∀ b ∈ (s.jobs.take k).map (·.block), Complete b.1 b.2 := by
  rintro b hb
  obtain ⟨job, hjob, rfl⟩ := List.mem_map.mp hb
  exact (hdrained job hjob).complete (h.sound job (List.mem_of_mem_take hjob))

theorem blocks_fst (jobs : List SynthesisJob) (k : ℕ) :
    ((jobs.take k).map (·.block)).map Prod.fst = (jobs.map (·.segment)).take k := by
  simp [SynthesisJob.block, List.map_take, Function.comp_def]

end PipelineRun

end Eeveetuber
