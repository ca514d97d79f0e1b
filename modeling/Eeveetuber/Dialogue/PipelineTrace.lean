import Eeveetuber.Dialogue.PipelineFlow

/-!
# The trace of a dialogue

**What a pipeline yields is a prefix of a word**, whatever its tasks do in which
order, whatever the providers answer, and wherever the run stops. That is
`Eeveetuber.PipelineRun.grammatical`, with what `Eeveetuber.PipelineRun.Grammatical`
adds to it: where an error is raised, that nothing is yielded by an inactive run,
and how many synthesis streams there are at a time.

While the run goes on its trace is read off the invariant
`Eeveetuber.PipelineRun.Live`; the step that stops it changes nothing else
(`Eeveetuber.PipelineRun.next_stops`), and what is left of the tasks afterwards can
only let the assembler make more segments.
-/

namespace Eeveetuber

open Foundation

namespace PipelineRun

variable {A : PipelineArguments} {s t : PipelineRun} {n : ℕ}

/-! ### What a step may change -/

/-- What the tasks behind the consumer may change: the assembler makes more segments,
until the producer has ended. -/
structure Backstage (s t : PipelineRun) : Prop where
  cancellation : t.cancellation = s.cancellation
  generationCurrent : t.generationCurrent = s.generationCurrent
  consumer : t.consumer = s.consumer
  yielded : t.yielded = s.yielded
  assembled : s.assembler.segments <+: t.assembler.segments
  closed : s.producer = .done → t.producer = .done ∧ t.assembler = s.assembler

theorem Backstage.isStopping (h : Backstage s t) : t.isStopping = s.isStopping := by
  rw [PipelineRun.isStopping, PipelineRun.isStopping, h.consumer]

theorem backstage_produce (hs : s.producer ≠ .done) {assembler : IncrementalUtteranceAssembler}
    {made : List UtteranceSegment} (hmade : assembler.segments = s.assembler.segments ++ made)
    {segments : List ProductionItem} {exhausted : Bool} :
    Backstage s (({ s with assembler := assembler, segments := segments } :
      PipelineRun).produce A made exhausted) := by
  obtain ⟨p, hp⟩ := produce_eq (A := A) { s with assembler := assembler, segments := segments }
    made exhausted
  rw [hp]
  exact ⟨rfl, rfl, rfl, rfl, hmade ▸ List.prefix_append _ _, fun h => absurd h hs⟩

theorem backstage_failProduction (hs : s.producer ≠ .done) (error : DialogueError) :
    Backstage s (s.failProduction error) := by
  unfold failProduction
  split <;> exact ⟨rfl, rfl, rfl, rfl, List.prefix_rfl, fun h => absurd h hs⟩

theorem backstage_onModelEvent (hs : s.producer ≠ .done) (event : ModelStreamEvent) :
    Backstage s (s.onModelEvent A event) := by
  unfold onModelEvent
  split
  · exact backstage_failProduction hs _
  · split
    · exact backstage_produce hs (IncrementalUtteranceAssembler.push_segments _)
    · split
      · exact backstage_failProduction hs _
      · exact ⟨rfl, rfl, rfl, rfl, List.prefix_rfl, fun h => absurd h hs⟩
    · exact backstage_failProduction hs _

theorem backstage_producerPut (hn : s.producerPut A = some t) : Backstage s t := by
  unfold producerPut at hn
  split at hn
  · split at hn
    · rename_i segment rest exhausted hs
      cases hn
      obtain ⟨p, hp⟩ := produce_eq (A := A)
        { s with segments := s.segments ++ [.segment segment] } rest exhausted
      rw [hp]
      exact ⟨rfl, rfl, rfl, rfl, List.prefix_rfl, fun h => by rw [hs] at h; cases h⟩
    · rename_i item hs
      cases hn
      exact ⟨rfl, rfl, rfl, rfl, List.prefix_rfl, fun h => by rw [hs] at h; cases h⟩
    all_goals cases hn
  · cases hn

/-- What the model stream caught concerns the producer only. -/
theorem Backstage.answered (h : Backstage s t) : Backstage s t.answered :=
  ⟨h.cancellation, h.generationCurrent, h.consumer, h.yielded, h.assembled, h.closed⟩

theorem backstage_dispatch (hn : s.dispatch A = some t) : Backstage s t := by
  unfold PipelineRun.dispatch at hn
  repeat' split at hn
  all_goals cases hn
  all_goals exact ⟨rfl, rfl, rfl, rfl, List.prefix_rfl, fun h => ⟨h, rfl⟩⟩

theorem backstage_synthesize {i : ℕ} {f : SynthesisJob → Option SynthesisJob}
    (hn : s.synthesize i f = some t) : Backstage s t := by
  obtain ⟨_, _, -, -, rfl⟩ := synthesize_eq_some.mp hn
  exact ⟨rfl, rfl, rfl, rfl, List.prefix_rfl, fun h => ⟨h, rfl⟩⟩

/-- The producer puts nothing while a `CancelledError` waits for it. -/
theorem producerPut_eq_some (hn : s.next A .producerPut = some t) :
    s.producerCancelled = false ∧ s.producerPut A = some t := by
  simpa [PipelineRun.next] using hn

/-- The dispatcher goes on only while the run does. -/
theorem dispatch_eq_some (hn : s.next A .dispatch = some t) :
    s.isStopping = false ∧ s.dispatch A = some t := by
  simpa [PipelineRun.next] using hn

/-- Whether a step is one of the tasks behind the consumer. -/
def Label.isBackstage : Label → Bool
  | .modelEvent _ | .modelEnd | .modelError _ | .producerPut | .dispatch | .speechChunk ..
  | .speechEnd _ | .speechError .. | .audioPut _ | .cancelProducer | .cancelDispatcher
  | .cancelSynthesis _ => true
  | .take | .handle | .resume | .interrupt | .leaveFinally | .close | .cancelToken _
  | .setCurrent _ => false

/-- **The steps of the other tasks leave the consumer alone.** -/
theorem next_backstage {l : Label} (hn : s.next A l = some t) (hl : l.isBackstage = true) :
    Backstage s t := by
  have streaming : s.producer = .streaming → s.producer ≠ .done := fun h => by rw [h]; nofun
  cases l with
  | modelEvent event =>
    obtain ⟨hs, rfl⟩ : s.producer = .streaming ∧ (s.onModelEvent A event).answered = t := by
      simpa [PipelineRun.next] using hn
    exact (backstage_onModelEvent (streaming hs) event).answered
  | modelEnd =>
    obtain ⟨hs, rfl⟩ : s.producer = .streaming ∧ (s.onModelEnd A).answered = t := by
      simpa [PipelineRun.next] using hn
    exact (backstage_produce (streaming hs) IncrementalUtteranceAssembler.finish_segments).answered
  | modelError error =>
    obtain ⟨hs, rfl⟩ : s.producer = .streaming ∧ (s.failProduction error).answered = t := by
      simpa [PipelineRun.next] using hn
    exact (backstage_failProduction (streaming hs) error).answered
  | producerPut => exact backstage_producerPut (producerPut_eq_some hn).2
  | dispatch => exact backstage_dispatch (dispatch_eq_some hn).2
  | speechChunk | speechEnd | speechError | audioPut | cancelSynthesis =>
    exact backstage_synthesize hn
  | cancelProducer =>
    simp only [PipelineRun.next, Option.ite_none_right_eq_some, Option.some.injEq] at hn
    obtain ⟨-, rfl⟩ := hn
    exact ⟨rfl, rfl, rfl, rfl, List.prefix_rfl, fun _ => ⟨rfl, rfl⟩⟩
  | cancelDispatcher =>
    simp only [PipelineRun.next, Option.ite_none_right_eq_some] at hn
    obtain ⟨-, hn⟩ := hn
    split at hn <;> cases hn <;> exact ⟨rfl, rfl, rfl, rfl, List.prefix_rfl, fun h => ⟨h, rfl⟩⟩
  | take | handle | resume | interrupt | leaveFinally | close | cancelToken | setCurrent =>
    cases hl

/-- Whether a step comes from outside the run. -/
def Label.isOutside : Label → Bool
  | .cancelToken _ | .setCurrent _ => true
  | .modelEvent _ | .modelEnd | .modelError _ | .producerPut | .dispatch | .speechChunk ..
  | .speechEnd _ | .speechError .. | .audioPut _ | .take | .handle | .resume | .interrupt
  | .leaveFinally | .close | .cancelProducer | .cancelDispatcher | .cancelSynthesis _ => false

theorem next_environment {l : Label} (hn : s.next A l = some t) (hl : l.isOutside = true) :
    ∃ cancellation current,
      t = { s with cancellation := cancellation, generationCurrent := current } := by
  cases l with
  | cancelToken reason =>
    simp only [PipelineRun.next, Option.map_eq_some_iff] at hn
    obtain ⟨token, -, rfl⟩ := hn
    exact ⟨_, _, rfl⟩
  | setCurrent answer =>
    cases hn
    exact ⟨_, _, rfl⟩
  | _ => cases hl

/-- What the consumer was at when it met the error it raises. -/
def StopCause (s : PipelineRun) : Outcome → Prop
  | .raised .model error => s.consumer = .holdingOutput (.last (.stageFailed error))
  | .raised (.segment i) error => s.consumer = .holdingAudio i (.last (.stageFailed error))
  | .returned => ∃ plan, s.consumer = .pausedCompleted plan
  | .raised .activity _ | .closed => True

theorem interrupt_eq_some (hn : s.interrupt A = some t) :
    ∃ error, t = { s with consumer := .stopping (.raised .activity error) } := by
  unfold interrupt at hn
  split at hn
  all_goals try cases hn
  all_goals
    simp only [Option.ite_none_right_eq_some] at hn
    obtain ⟨-, hn⟩ := hn
    split at hn <;> cases hn
    exact ⟨_, rfl⟩

theorem leaveFinally_eq_some (hn : s.leaveFinally = some t) :
    ∃ outcome, s.consumer = .stopping outcome ∧ s.tasksDone = true ∧
      t = { s with consumer := .ended outcome } := by
  unfold leaveFinally at hn
  split at hn
  · rename_i outcome hc
    simp only [Option.ite_none_right_eq_some, Option.some.injEq] at hn
    exact ⟨outcome, hc, hn.1, hn.2.symm⟩
  all_goals cases hn

/-- The generator is closed for the first time, or once more. -/
theorem close_eq_some (hn : s.close = some t) :
    s.isStopping = false ∧ t = { s with consumer := .stopping .closed } ∨
      ∃ outcome, s.consumer = .stopping outcome ∧ t = { s with
        consumer := .stopping .closed
        producerCaught := false
        jobs := s.jobs.map fun job => { job with caught := false } } := by
  cases hc : s.consumer with
  | ended => simp [close, hc] at hn
  | stopping outcome =>
    simp only [close, hc, Option.some.injEq] at hn
    exact Or.inr ⟨outcome, rfl, hn.symm⟩
  | awaitingOutput | holdingOutput | pausedSegment | awaitingAudio | holdingAudio | pausedAudio
  | awaitingTasks | pausedCompleted =>
    simp only [close, hc, Option.some.injEq] at hn
    exact Or.inl ⟨by rw [isStopping, hc], hn.symm⟩

theorem take_isStopping (hn : s.take = some t) : t.isStopping = false := by
  unfold PipelineRun.take at hn
  split at hn
  · split at hn <;> cases hn
    rfl
  · rw [Option.bind_eq_some_iff] at hn
    obtain ⟨job, -, hn⟩ := hn
    split at hn <;> cases hn
    rfl
  all_goals cases hn

theorem handle_stops (hn : s.handle A = some t) (ht : t.isStopping = true) :
    ∃ outcome, t = { s with consumer := .stopping outcome } ∧ s.StopCause outcome := by
  have yields : ∀ (event : DialogueStreamEvent) (paused : Consumer),
      ({ s with yielded := s.yielded ++ [event], consumer := paused } :
        PipelineRun).isStopping = false → s.yieldEvent A event paused = t →
      ∃ outcome, t = { s with consumer := .stopping outcome } ∧ s.StopCause outcome := by
    rintro event paused hpaused rfl
    rcases s.yieldEvent_eq (A := A) event paused with ⟨-, heq⟩ | ⟨error, heq⟩
    · rw [heq, hpaused] at ht
      cases ht
    · exact ⟨_, heq, trivial⟩
  unfold PipelineRun.handle at hn
  split at hn
  · rename_i error hc
    cases hn
    exact ⟨_, rfl, hc⟩
  · cases hn
    cases ht
  · obtain ⟨job, -, hy⟩ := Option.map_eq_some_iff.mp hn
    exact yields _ _ rfl hy
  · rename_i i error hc
    cases hn
    exact ⟨_, rfl, hc⟩
  · cases hn
    cases ht
  · obtain ⟨job, -, hy⟩ := Option.map_eq_some_iff.mp hn
    exact yields _ _ rfl hy
  · simp only [Option.ite_none_right_eq_some, Option.some.injEq] at hn
    exact yields _ _ rfl hn.2
  all_goals cases hn

theorem resume_stops (hn : s.resume = some t) (ht : t.isStopping = true) :
    ∃ plan, s.consumer = .pausedCompleted plan ∧
      t = { s with consumer := .stopping .returned } := by
  unfold PipelineRun.resume at hn
  split at hn
  · cases hn
    cases ht
  · cases hn
    cases ht
  · rename_i plan hc
    cases hn
    exact ⟨plan, hc, rfl⟩
  all_goals cases hn

/-- The step that stops a run changes nothing else. -/
theorem next_stops {l : Label} (hs : s.isStopping = false) (hn : s.next A l = some t)
    (ht : t.isStopping = true) :
    ∃ outcome, t = { s with consumer := .stopping outcome } ∧ s.StopCause outcome := by
  cases l with
  | take =>
    rw [take_isStopping hn] at ht
    cases ht
  | handle => exact handle_stops hn ht
  | resume =>
    obtain ⟨plan, hc, rfl⟩ := resume_stops hn ht
    exact ⟨_, rfl, plan, hc⟩
  | interrupt =>
    obtain ⟨error, rfl⟩ := interrupt_eq_some hn
    exact ⟨_, rfl, trivial⟩
  | leaveFinally =>
    obtain ⟨outcome, hc, -, rfl⟩ := leaveFinally_eq_some hn
    simp [isStopping, hc] at hs
  | close =>
    obtain ⟨-, rfl⟩ | ⟨outcome, hc, -⟩ := close_eq_some hn
    · exact ⟨_, rfl, trivial⟩
    · simp [isStopping, hc] at hs
  | cancelToken | setCurrent =>
    obtain ⟨cancellation, current, rfl⟩ := next_environment hn rfl
    exact absurd ht (by rw [Bool.not_eq_true]; exact hs)
  | modelEvent | modelEnd | modelError | producerPut | dispatch | speechChunk | speechEnd
  | speechError | audioPut | cancelProducer | cancelDispatcher | cancelSynthesis =>
    rw [(next_backstage hn rfl).isStopping, hs] at ht
    cases ht

/-! ### The whole run keeps the invariant -/

/-- **A step keeps the invariant**, unless it stops the run. -/
theorem Live.next (h : s.Live A n) {l : Label} (hn : s.next A l = some t)
    (ht : t.isStopping = false) : ∃ n', t.Live A n' := by
  cases l with
  | modelEvent event =>
    simp only [PipelineRun.next] at hn
    split at hn
    · rename_i hs
      cases hn
      exact ⟨n, (h.onModelEvent hs event).answered⟩
    · cases hn
  | modelEnd =>
    simp only [PipelineRun.next] at hn
    split at hn
    · rename_i hs
      cases hn
      exact ⟨n, (h.onModelEnd hs).answered⟩
    · cases hn
  | modelError error =>
    simp only [PipelineRun.next] at hn
    split at hn
    · rename_i hs
      cases hn
      exact ⟨n, (h.failProduction hs error).answered⟩
    · cases hn
  | producerPut => exact ⟨n, h.producerPut (producerPut_eq_some hn).2⟩
  | dispatch => exact ⟨n, h.dispatch (dispatch_eq_some hn).2⟩
  | speechChunk i chunk =>
    rw [PipelineRun.next, h.notStopping] at hn
    exact ⟨n, h.hear (fun _ _ => SynthesisJob.onSpeechChunk_sound) hn⟩
  | speechEnd i =>
    rw [PipelineRun.next, h.notStopping] at hn
    exact ⟨n, h.hear (fun _ _ => SynthesisJob.onSpeechEnd_sound) hn⟩
  | speechError i error =>
    rw [PipelineRun.next, h.notStopping] at hn
    exact ⟨n, h.hear (fun _ _ => SynthesisJob.onSpeechError_sound) hn⟩
  | audioPut i =>
    refine ⟨n, h.synthesize (fun job job' hsound hjob => ?_) hn⟩
    simp only [Option.ite_none_left_eq_some] at hjob
    exact SynthesisJob.audioPut_sound hsound hjob.2
  | take => exact h.take hn
  | handle => exact ⟨n, h.handle hn ht⟩
  | resume => exact ⟨n, h.resume hn ht⟩
  | interrupt =>
    obtain ⟨error, rfl⟩ := interrupt_eq_some hn
    cases ht
  | leaveFinally =>
    obtain ⟨outcome, -, -, rfl⟩ := leaveFinally_eq_some hn
    cases ht
  | close =>
    obtain ⟨-, rfl⟩ | ⟨outcome, -, rfl⟩ := close_eq_some hn
    · cases ht
    · cases ht
  | cancelProducer => simp [PipelineRun.next, producerCancelled, h.notStopping] at hn
  | cancelDispatcher => simp [PipelineRun.next, h.notStopping] at hn
  | cancelSynthesis i =>
    obtain ⟨job, job', -, hjob, -⟩ := synthesize_eq_some.mp hn
    simp [SynthesisJob.isCancelled, h.notStopping] at hjob
  | cancelToken | setCurrent =>
    obtain ⟨cancellation, current, rfl⟩ := next_environment hn rfl
    exact ⟨n, h.notStopping, h.production, h.handover, h.sound, h.untouched, h.consumption,
      h.uncaught⟩

/-! ### How far the trace is -/

/-- How a run ended, once it stops. -/
def outcome (s : PipelineRun) : Option Outcome :=
  match s.consumer with
  | .stopping outcome | .ended outcome => some outcome
  | .awaitingOutput | .holdingOutput _ | .pausedSegment _ | .awaitingAudio _ | .holdingAudio ..
  | .pausedAudio _ | .awaitingTasks _ | .pausedCompleted _ => none

theorem outcome_eq_none (hs : s.isStopping = false) : s.outcome = none := by
  cases hc : s.consumer with
  | stopping | ended => simp [isStopping, hc] at hs
  | awaitingOutput | holdingOutput | pausedSegment | awaitingAudio | holdingAudio | pausedAudio
  | awaitingTasks | pausedCompleted => simp [outcome, hc]

/-- What was yielded, and how it relates to the segments made so far. -/
inductive Traced (A : PipelineArguments) (s : PipelineRun) : Prop
  /-- Between two blocks. -/
  | between (blocks : List Block) (complete : ∀ b ∈ blocks, Complete b.1 b.2)
      (segments : blocks.map Prod.fst <+: s.assembler.segments)
      (yielded : s.yielded = blockEvents A.request blocks)
  /-- Within a block. -/
  | within (blocks : List Block) (segment : UtteranceSegment) (chunks : List AudioChunk)
      (complete : ∀ b ∈ blocks, Complete b.1 b.2) (framed : Framed segment chunks)
      (segments : blocks.map Prod.fst ++ [segment] <+: s.assembler.segments)
      (yielded : s.yielded =
        blockEvents A.request blocks ++ segmentEvents A.request (segment, chunks))
  /-- After the completion. -/
  | completed (blocks : List Block) (plan : UtterancePlan)
      (complete : ∀ b ∈ blocks, Complete b.1 b.2)
      (segments : blocks.map Prod.fst = s.assembler.segments)
      (plan_segments : plan.segments = s.assembler.segments) (closed : s.producer = .done)
      (yielded : s.yielded =
        blockEvents A.request blocks ++ [completedEvent A.request plan])

/-- The trace is that of the assembler, the producer and what was yielded. -/
theorem Traced.congr (h : s.Traced A) (ha : t.assembler = s.assembler)
    (hp : t.producer = s.producer) (hy : t.yielded = s.yielded) : t.Traced A := by
  rcases h with ⟨b, hall, hs, hyielded⟩ | ⟨b, g, c, hall, hf, hs, hyielded⟩ |
    ⟨b, p, hall, hs, hps, hclosed, hyielded⟩
  · exact .between b hall (ha ▸ hs) (hy.trans hyielded)
  · exact .within b g c hall hf (ha ▸ hs) (hy.trans hyielded)
  · exact .completed b p hall (ha ▸ hs) (ha ▸ hps) (hp.trans hclosed) (hy.trans hyielded)

/-- Where the trace stands when a run ends with an error of one of its stages. -/
def Failed (A : PipelineArguments) (s : PipelineRun) : Outcome → Prop
  | .raised .model _ => s.producer = .done ∧ ∃ blocks : List Block,
    blocks.map Prod.fst = s.assembler.segments ∧ (∀ b ∈ blocks, Complete b.1 b.2) ∧
      s.yielded = blockEvents A.request blocks
  | .raised (.segment i) _ => ∃ (blocks : List Block) (segment : UtteranceSegment)
      (chunks : List AudioChunk), blocks.length = i ∧
    blocks.map Prod.fst ++ [segment] <+: s.assembler.segments ∧
    (∀ b ∈ blocks, Complete b.1 b.2) ∧
    s.yielded = blockEvents A.request blocks ++ segmentEvents A.request (segment, chunks)
  | .raised .activity _ | .returned | .closed => True

/-- What holds of a run that is stopping. -/
structure Settled (A : PipelineArguments) (s : PipelineRun) : Prop where
  stopping : s.isStopping = true
  traced : s.Traced A
  failed : ∀ outcome, s.outcome = some outcome → s.Failed A outcome

/-- The invariant of every run. -/
def Coherent (A : PipelineArguments) (s : PipelineRun) : Prop :=
  (∃ n, s.Live A n) ∨ s.Settled A

theorem Live.traced (h : s.Live A n) : s.Traced A := by
  have hcons := h.consumption
  unfold Consumption at hcons
  split at hcons
  · obtain ⟨hdrained, hyielded⟩ := hcons
    -- the consumer is between two segments, or has yielded the completion
    have hall := h.blocks_complete hdrained
    by_cases hplan : ∃ plan, s.consumer = .pausedCompleted plan
    · obtain ⟨plan, hc⟩ := hplan
      obtain ⟨hp, -, hn, hjobs, hsegments⟩ := h.final (.productionFinished plan)
        (by rw [hc]; rfl)
      rw [hc] at hyielded
      refine .completed _ plan hall ?_ (hsegments plan rfl) hp hyielded
      rw [blocks_fst, hn, ← hjobs, ← List.length_map, List.take_length]
    · have hnil : s.consumer.completion A.request = [] := by
        unfold Consumer.completion
        split
        · rename_i plan hc
          exact absurd ⟨plan, hc⟩ hplan
        all_goals rfl
      rw [hnil, List.append_nil] at hyielded
      refine .between _ hall ?_ hyielded
      rw [blocks_fst]
      exact (List.take_prefix ..).trans h.jobs_prefix
  · obtain ⟨-, hdrained, job, chunks, hi, hemitted, hchunks, hyielded⟩ := hcons
    rename_i d _
    -- it is within a segment
    have hall := h.blocks_complete hdrained
    cases hannounced : d.announced with
    | false =>
      -- the segment has not been announced yet
      rw [hannounced, if_neg (by decide), List.append_nil] at hyielded
      refine .between _ hall ?_ hyielded
      rw [blocks_fst]
      exact (List.take_prefix ..).trans h.jobs_prefix
    | true =>
      rw [hannounced, if_pos rfl] at hyielded
      refine .within _ job.segment chunks hall ?_ ?_ hyielded
      -- the audio that was yielded is a part of what the job has emitted
      · have hframed := (h.sound job (List.mem_of_getElem? hi)).framed
        rw [hemitted, chunksOf_append, chunksOf_map] at hframed
        exact hframed.of_append
      · have htake : (s.jobs.map (·.segment)).take d.job ++ [job.segment] =
            (s.jobs.map (·.segment)).take (d.job + 1) := by
          rw [List.take_add_one, List.getElem?_map, hi]
          rfl
        rw [blocks_fst, htake]
        exact (List.take_prefix ..).trans h.jobs_prefix

/-- The step that stops a run leaves its trace where it is. -/
theorem Live.settled (h : s.Live A n) {o : Outcome} (hcause : s.StopCause o) :
    ({ s with consumer := .stopping o } : PipelineRun).Settled A := by
  refine ⟨rfl, h.traced.congr rfl rfl rfl, ?_⟩
  · rintro _ ⟨rfl⟩
    have hcons := h.consumption
    match o, hcause with
    | .raised .model error, hc =>
      change s.consumer = .holdingOutput (.last (.stageFailed error)) at hc
      obtain ⟨hp, -, hn, hjobs, -⟩ := h.final (.stageFailed error) (by rw [hc]; rfl)
      simp only [Consumption, hc, Consumer.reading, Consumer.completion, List.append_nil] at hcons
      refine ⟨hp, _, ?_, h.blocks_complete hcons.1, hcons.2⟩
      rw [blocks_fst, hn, ← List.length_map, List.take_length, hjobs]
    | .raised (.segment i) error, hc =>
      change s.consumer = .holdingAudio i (.last (.stageFailed error)) at hc
      simp only [Consumption, hc, Consumer.reading] at hcons
      obtain ⟨-, hdrained, job, chunks, hi, -, -, hyielded⟩ := hcons
      obtain ⟨hlt, -⟩ := List.getElem?_eq_some_iff.mp hi
      refine ⟨_, job.segment, chunks, ?_, ?_, h.blocks_complete hdrained, hyielded⟩
      · simp [Nat.min_eq_left hlt.le]
      · have htake : (s.jobs.map (·.segment)).take i ++ [job.segment] =
            (s.jobs.map (·.segment)).take (i + 1) := by
          rw [List.take_add_one, List.getElem?_map, hi]
          rfl
        rw [blocks_fst, htake]
        exact (List.take_prefix ..).trans h.jobs_prefix
    | .raised .activity _, _ | .returned, _ | .closed, _ => trivial

/-- What the tasks do afterwards leaves the trace where it is. -/
theorem Settled.backstage (h : s.Settled A) (hb : Backstage s t) : t.Settled A := by
  have houtcome : t.outcome = s.outcome := by rw [outcome, outcome, hb.consumer]
  refine ⟨hb.isStopping.trans h.stopping, ?_, fun o ho => ?_⟩
  · rcases h.traced with ⟨b, hall, hs, hy⟩ | ⟨b, g, c, hall, hf, hs, hy⟩ |
      ⟨b, p, hall, hs, hps, hp, hy⟩
    · exact .between b hall (hs.trans hb.assembled) (hb.yielded.trans hy)
    · exact .within b g c hall hf (hs.trans hb.assembled) (hb.yielded.trans hy)
    · obtain ⟨hp', ha⟩ := hb.closed hp
      exact .completed b p hall (ha ▸ hs) (ha ▸ hps) hp' (hb.yielded.trans hy)
  · have hfailed := h.failed o (houtcome.symm.trans ho)
    match o, hfailed with
    | .raised .model _, ⟨hp, b, hs, hall, hy⟩ =>
      obtain ⟨hp', ha⟩ := hb.closed hp
      exact ⟨hp', b, ha ▸ hs, hall, hb.yielded.trans hy⟩
    | .raised (.segment i) _, ⟨b, g, c, hi, hs, hall, hy⟩ =>
      exact ⟨b, g, c, hi, hs.trans hb.assembled, hall, hb.yielded.trans hy⟩
    | .raised .activity _, _ | .returned, _ | .closed, _ => trivial

/-- What happens outside a run leaves its trace where it is. -/
theorem Settled.outside (h : s.Settled A) (cancellation : Option CancellationState)
    (current : Bool) :
    ({ s with cancellation := cancellation, generationCurrent := current } :
      PipelineRun).Settled A :=
  ⟨h.stopping, h.traced.congr rfl rfl rfl, h.failed⟩

/-- The `finally` clause is all the consumer has left; it leaves it, or is cancelled in it. -/
theorem stopping_consumer {l : Label} (hs : s.isStopping = true) (hn : s.next A l = some t)
    (hb : l.isBackstage = false) (ho : l.isOutside = false) :
    ∃ outcome, s.consumer = .stopping outcome ∧
      (t = { s with consumer := .ended outcome } ∨ l = .close ∧ t = { s with
        consumer := .stopping .closed
        producerCaught := false
        jobs := s.jobs.map fun job => { job with caught := false } }) := by
  have hcases : (∃ o, s.consumer = .stopping o) ∨ ∃ o, s.consumer = .ended o := by
    unfold isStopping at hs
    split at hs
    · exact Or.inl ⟨_, by assumption⟩
    · exact Or.inr ⟨_, by assumption⟩
    all_goals cases hs
  cases l with
  | leaveFinally =>
    obtain ⟨outcome, hc, -, rfl⟩ := leaveFinally_eq_some hn
    exact ⟨outcome, hc, Or.inl rfl⟩
  | close =>
    obtain ⟨hopen, -⟩ | ⟨outcome, hc, rfl⟩ := close_eq_some hn
    · rw [hs] at hopen
      cases hopen
    · exact ⟨outcome, hc, Or.inr ⟨rfl, rfl⟩⟩
  | take | handle | resume | interrupt =>
    rcases hcases with ⟨o, hc⟩ | ⟨o, hc⟩ <;>
      simp [PipelineRun.next, PipelineRun.take, PipelineRun.handle, PipelineRun.resume,
        interrupt, hc] at hn
  | cancelToken | setCurrent => cases ho
  | modelEvent | modelEnd | modelError | producerPut | dispatch | speechChunk | speechEnd
  | speechError | audioPut | cancelProducer | cancelDispatcher | cancelSynthesis => cases hb

theorem Settled.next (h : s.Settled A) {l : Label} (hn : s.next A l = some t) :
    t.Settled A := by
  cases hb : l.isBackstage with
  | true => exact h.backstage (next_backstage hn hb)
  | false =>
    cases ho : l.isOutside with
    | true =>
      obtain ⟨cancellation, current, rfl⟩ := next_environment hn ho
      exact h.outside cancellation current
    | false =>
      obtain ⟨outcome, hc, rfl | ⟨-, rfl⟩⟩ := stopping_consumer h.stopping hn hb ho
      · refine ⟨rfl, h.traced.congr rfl rfl rfl, fun o hout => ?_⟩
        have houtcome : s.outcome = some o := by
          rw [PipelineRun.outcome, hc]
          exact hout
        exact h.failed o houtcome
      · refine ⟨rfl, h.traced.congr rfl rfl rfl, ?_⟩
        rintro _ ⟨rfl⟩
        trivial

theorem begin_coherent (cancellation : Option CancellationState) (current : Bool) :
    (begin A cancellation current).Coherent A := by
  unfold begin
  dsimp only
  split
  · refine Or.inr ⟨rfl, .between [] (by simp) List.nil_prefix rfl, ?_⟩
    rintro o ⟨rfl⟩
    trivial
  · exact Or.inl ⟨0, rfl, ⟨[], rfl, rfl⟩, ⟨nofun, Nat.le_refl _, fun hne => absurd rfl hne, [],
      rfl, rfl⟩, by simp, by simp, ⟨by simp, rfl⟩, rfl, by simp⟩

/-- **Every state of a run is coherent.** -/
theorem reachable_coherent (h : (machine A).Reachable s) : s.Coherent A := by
  refine h.invariant (I := fun s => s.Coherent A) ?_ fun s l t _ hs _ hn => ?_
  · rintro s ⟨cancellation, current, rfl⟩
    exact begin_coherent cancellation current
  · rcases hs with ⟨n, hlive⟩ | hsettled
    · cases ht : t.isStopping with
      | false => exact Or.inl (hlive.next hn ht)
      | true =>
        obtain ⟨outcome, rfl, hcause⟩ := next_stops hlive.notStopping hn ht
        exact Or.inr (hlive.settled hcause)
    · exact Or.inr (hsettled.next hn)

theorem Coherent.traced (h : s.Coherent A) : s.Traced A :=
  h.elim (fun ⟨_, hlive⟩ => hlive.traced) fun hsettled => hsettled.traced

/-- What was yielded is the beginning of a word. -/
theorem Traced.word (h : s.Traced A) :
    ∃ w, Word A.request s.assembler.segments w ∧ s.yielded <+: w := by
  rcases h with ⟨b, hall, hs, hy⟩ | ⟨b, g, c, hall, hf, hs, hy⟩ | ⟨b, p, hall, hs, hps, -, hy⟩
  · rw [hy]
    exact exists_word b hall hs
  · -- the audio of the current segment may still be completed
    obtain ⟨more, hmore⟩ := hf.complete
    obtain ⟨w, hw, hstarts⟩ := exists_word (r := A.request) (b ++ [(g, c ++ more)])
      (fun x hx => (List.mem_append.mp hx).elim (hall x)
        fun hx => by rw [List.mem_singleton.mp hx]; exact hmore)
      (by simpa using hs)
    refine ⟨w, hw, .trans ?_ hstarts⟩
    rw [hy, blockEvents_append, blockEvents_singleton, segmentEvents_append, ← List.append_assoc]
    exact List.prefix_append _ _
  · rw [hy]
    exact ⟨_, ⟨b, p, hs, hall, hps, rfl⟩, List.prefix_rfl⟩

/-- After a completion there is nothing, and before it everything. -/
theorem Traced.of_completed (h : s.Traced A) {plan : UtterancePlan}
    (hmem : completedEvent A.request plan ∈ s.yielded) :
    plan.segments = s.assembler.segments ∧ Word A.request s.assembler.segments s.yielded := by
  have hblocks : ∀ b : List Block, completedEvent A.request plan ∉ blockEvents A.request b := by
    intro b
    simp [blockEvents, segmentEvents, completedEvent]
  rcases h with ⟨b, hall, hs, hy⟩ | ⟨b, g, c, hall, hf, hs, hy⟩ | ⟨b, p, hall, hs, hps, -, hy⟩
  · exact absurd (hy ▸ hmem) (hblocks b)
  · rw [hy] at hmem
    rcases List.mem_append.mp hmem with hmem | hmem
    · exact absurd hmem (hblocks b)
    · simp [segmentEvents, completedEvent] at hmem
  · refine ⟨?_, b, p, hs, hall, hps, hy⟩
    rw [hy] at hmem
    rcases List.mem_append.mp hmem with hmem | hmem
    · exact absurd hmem (hblocks b)
    · cases List.mem_singleton.mp hmem
      exact hps

/-- The audio that was yielded belongs to the segment that it was yielded with. -/
theorem segmentId_of_yielded (h : (machine A).Reachable s) {turnId : UUID}
    {generation : CancellationGeneration} {segment : UtteranceSegment} {chunk : AudioChunk}
    (hmem : .segmentAudioReady turnId generation segment chunk ∈ s.yielded) :
    chunk.segmentId = segment.segmentId := by
  obtain ⟨w, hword, hstarts⟩ := (reachable_coherent h).traced.word
  exact (hword.audio_mem (hstarts.subset hmem)).1

/-! ### The synthesis slots -/

/-- The slots that are free, in use by a task, or acquired for the next one. -/
def accounted (s : PipelineRun) : ℕ :=
  s.synthesisSlots + s.jobs.countP (·.isRunning) + s.dispatcher.slots

/-- A task that ends gives its slot back, and only then. -/
theorem accounted_synthesize {i : ℕ} {f : SynthesisJob → Option SynthesisJob}
    (hf : ∀ job, job.synthesis = .done → f job = none) (hn : s.synthesize i f = some t) :
    t.accounted = s.accounted := by
  obtain ⟨job, job', hi, hjob, rfl⟩ := synthesize_eq_some.mp hn
  have hcount := countP_set_add (p := (·.isRunning)) (b := job') hi
  have hrun : job.isRunning = true := by
    refine SynthesisJob.isRunning_of_ne fun hdone => ?_
    rw [hf job hdone] at hjob
    cases hjob
  simp only [accounted]
  cases hrun' : job'.isRunning <;> simp only [hrun, hrun', if_true, if_false, Bool.not_true,
    Bool.not_false, Bool.and_self, Bool.and_false, Bool.false_eq_true] at hcount ⊢ <;> omega

theorem accounted_dispatch (hn : s.dispatch A = some t) : t.accounted = s.accounted := by
  unfold PipelineRun.dispatch at hn
  split at hn
  · rename_i hd
    split at hn
    · cases hn
    · cases hn
      simp [accounted, hd, Dispatcher.slots]
    · cases hn
      simp [accounted, hd, Dispatcher.slots]
  · rename_i hd
    split at hn
    · cases hn
      simp only [accounted, hd, Dispatcher.slots]
      omega
    · cases hn
  · rename_i hd
    split at hn
    · cases hn
      simp [accounted, hd, Dispatcher.slots, SynthesisJob.isRunning, Synthesis.isRunning]
      omega
    · cases hn
  · rename_i hd
    split at hn
    · cases hn
      simp [accounted, hd, Dispatcher.slots]
    · cases hn
  · cases hn

/-- What the producer does concerns nobody's slots. -/
theorem accounted_produce (s : PipelineRun) (pending : List UtteranceSegment) (exhausted : Bool) :
    (s.produce A pending exhausted).accounted = s.accounted := by
  obtain ⟨p, hp⟩ := produce_eq (A := A) s pending exhausted
  rw [hp]
  rfl

theorem accounted_failProduction (s : PipelineRun) (error : DialogueError) :
    (s.failProduction error).accounted = s.accounted := by
  unfold failProduction
  split <;> rfl

theorem accounted_onModelEvent (s : PipelineRun) (event : ModelStreamEvent) :
    (s.onModelEvent A event).accounted = s.accounted := by
  unfold onModelEvent
  split
  · exact accounted_failProduction _ _
  · split
    · exact accounted_produce ..
    · split
      · exact accounted_failProduction _ _
      · rfl
    · exact accounted_failProduction _ _

theorem accounted_producerPut (hn : s.producerPut A = some t) : t.accounted = s.accounted := by
  unfold producerPut at hn
  split at hn
  · split at hn
    · cases hn
      exact accounted_produce ..
    · cases hn
      rfl
    all_goals cases hn
  · cases hn

/-- What the consumer may change. -/
structure Frontstage (s t : PipelineRun) : Prop where
  cancellation : t.cancellation = s.cancellation
  generationCurrent : t.generationCurrent = s.generationCurrent
  accounted : t.accounted = s.accounted
  /-- Only an active run yields. -/
  active : t.yielded ≠ s.yielded → s.isActive = true

/-- The consumer goes on without yielding. -/
theorem Frontstage.silent (s : PipelineRun) (consumer : Consumer) :
    Frontstage s { s with consumer := consumer } :=
  ⟨rfl, rfl, rfl, fun hne => absurd rfl hne⟩

theorem frontstage_take (hn : s.take = some t) : Frontstage s t := by
  unfold PipelineRun.take at hn
  split at hn
  · split at hn <;> cases hn
    exact ⟨rfl, rfl, rfl, fun hne => absurd rfl hne⟩
  · rw [Option.bind_eq_some_iff] at hn
    obtain ⟨job, hi, hn⟩ := hn
    split at hn <;> cases hn
    rename_i item rest haudio
    -- the task of the job is where it was
    have hcount := countP_set_add (p := (·.isRunning)) (b := { job with audio := rest }) hi
    have hsame : ({ job with audio := rest } : SynthesisJob).isRunning = job.isRunning := rfl
    refine ⟨rfl, rfl, ?_, fun hne => absurd rfl hne⟩
    simp only [PipelineRun.accounted, hsame] at hcount ⊢
    omega
  all_goals cases hn

theorem frontstage_yieldEvent (s : PipelineRun) (event : DialogueStreamEvent)
    (paused : Consumer) : Frontstage s (s.yieldEvent A event paused) := by
  rcases s.yieldEvent_eq (A := A) event paused with ⟨hactive, heq⟩ | ⟨error, heq⟩ <;> rw [heq]
  · exact ⟨rfl, rfl, rfl, fun _ => hactive⟩
  · exact .silent ..

theorem frontstage_handle (hn : s.handle A = some t) : Frontstage s t := by
  unfold PipelineRun.handle at hn
  split at hn
  · cases hn
    exact .silent ..
  · cases hn
    exact .silent ..
  · obtain ⟨job, -, rfl⟩ := Option.map_eq_some_iff.mp hn
    exact frontstage_yieldEvent ..
  · cases hn
    exact .silent ..
  · cases hn
    exact .silent ..
  · obtain ⟨job, -, rfl⟩ := Option.map_eq_some_iff.mp hn
    exact frontstage_yieldEvent ..
  · simp only [Option.ite_none_right_eq_some, Option.some.injEq] at hn
    obtain ⟨-, rfl⟩ := hn
    exact frontstage_yieldEvent ..
  all_goals cases hn

/-- **The steps of the consumer leave the slots and the surroundings alone.** -/
theorem next_frontstage {l : Label} (hn : s.next A l = some t) (hb : l.isBackstage = false)
    (ho : l.isOutside = false) : Frontstage s t := by
  cases l with
  | take => exact frontstage_take hn
  | handle => exact frontstage_handle hn
  | resume =>
    simp only [PipelineRun.next, PipelineRun.resume] at hn
    split at hn <;> cases hn <;> exact .silent ..
  | interrupt =>
    obtain ⟨error, rfl⟩ := interrupt_eq_some hn
    exact .silent ..
  | leaveFinally =>
    obtain ⟨outcome, -, -, rfl⟩ := leaveFinally_eq_some hn
    exact .silent ..
  | close =>
    obtain ⟨-, rfl⟩ | ⟨outcome, -, rfl⟩ := close_eq_some hn
    · exact .silent ..
    · -- no task is where it was not
      refine ⟨rfl, rfl, ?_, fun hne => absurd rfl hne⟩
      simp only [PipelineRun.accounted, List.countP_map]
      rfl
  | cancelToken | setCurrent => cases ho
  | modelEvent | modelEnd | modelError | producerPut | dispatch | speechChunk | speechEnd
  | speechError | audioPut | cancelProducer | cancelDispatcher | cancelSynthesis => cases hb

/-- **Slots are neither made nor lost** while a run goes on, and none is made afterwards. -/
theorem next_accounted {l : Label} (hn : s.next A l = some t) :
    t.accounted = s.accounted ∨ s.isStopping = true ∧ t.accounted ≤ s.accounted := by
  cases l with
  | modelEvent event =>
    obtain ⟨-, rfl⟩ : s.producer = .streaming ∧ (s.onModelEvent A event).answered = t := by
      simpa [PipelineRun.next] using hn
    exact Or.inl (accounted_onModelEvent _ _)
  | modelEnd =>
    obtain ⟨-, rfl⟩ : s.producer = .streaming ∧ (s.onModelEnd A).answered = t := by
      simpa [PipelineRun.next] using hn
    exact Or.inl (accounted_produce ..)
  | modelError error =>
    obtain ⟨-, rfl⟩ : s.producer = .streaming ∧ (s.failProduction error).answered = t := by
      simpa [PipelineRun.next] using hn
    exact Or.inl (accounted_failProduction _ _)
  | producerPut => exact Or.inl (accounted_producerPut (producerPut_eq_some hn).2)
  | dispatch => exact Or.inl (accounted_dispatch (dispatch_eq_some hn).2)
  | speechChunk i chunk =>
    exact Or.inl (accounted_synthesize (fun _ h => by simp [SynthesisJob.onSpeechChunk, h]) hn)
  | speechEnd i =>
    exact Or.inl (accounted_synthesize (fun _ h => by simp [SynthesisJob.onSpeechEnd, h]) hn)
  | speechError i error =>
    exact Or.inl (accounted_synthesize (fun _ h => by simp [SynthesisJob.onSpeechError, h]) hn)
  | audioPut i =>
    exact Or.inl (accounted_synthesize (fun _ h => by simp [SynthesisJob.audioPut, h]) hn)
  | take | handle | resume | interrupt | leaveFinally | close =>
    exact Or.inl (next_frontstage hn rfl rfl).accounted
  | cancelProducer =>
    simp only [PipelineRun.next, Option.ite_none_right_eq_some, Option.some.injEq] at hn
    obtain ⟨-, rfl⟩ := hn
    exact Or.inl rfl
  | cancelDispatcher =>
    -- a slot acquired for a job that is not put is not given back
    simp only [PipelineRun.next, Option.ite_none_right_eq_some] at hn
    obtain ⟨hs, hn⟩ := hn
    refine Or.inr ⟨hs, ?_⟩
    split at hn <;> cases hn <;> simp [accounted, Dispatcher.slots]
  | cancelSynthesis i =>
    refine Or.inl (accounted_synthesize (fun job h => ?_) hn)
    simp [SynthesisJob.cancel, SynthesisJob.isRunning, Synthesis.isRunning, h]
  | cancelToken | setCurrent =>
    obtain ⟨cancellation, current, rfl⟩ := next_environment hn rfl
    exact Or.inl rfl

theorem begin_accounted (cancellation : Option CancellationState) (current : Bool) :
    (begin A cancellation current).accounted = A.pipeline.maxConcurrentSynthesis := by
  unfold begin
  dsimp only
  split <;> rfl

/-- A run stays in its `finally` clause. -/
theorem next_isStopping {l : Label} (hs : s.isStopping = true) (hn : s.next A l = some t) :
    t.isStopping = true := by
  cases hb : l.isBackstage with
  | true => exact (next_backstage hn hb).isStopping.trans hs
  | false =>
    cases ho : l.isOutside with
    | true =>
      obtain ⟨cancellation, current, rfl⟩ := next_environment hn ho
      exact hs
    | false =>
      obtain ⟨outcome, -, rfl | ⟨-, rfl⟩⟩ := stopping_consumer hs hn hb ho
      · rfl
      · rfl

/-- Every slot of a run is accounted for, until it stops. -/
theorem reachable_accounted (h : (machine A).Reachable s) :
    s.accounted ≤ A.pipeline.maxConcurrentSynthesis ∧
      (s.isStopping = false → s.accounted = A.pipeline.maxConcurrentSynthesis) := by
  refine h.invariant (I := fun s => s.accounted ≤ A.pipeline.maxConcurrentSynthesis ∧
    (s.isStopping = false → s.accounted = A.pipeline.maxConcurrentSynthesis)) ?_
    fun s l t _ hs _ hn => ?_
  · rintro s ⟨cancellation, current, rfl⟩
    exact ⟨(begin_accounted ..).le, fun _ => begin_accounted ..⟩
  · obtain ⟨hle, heq⟩ := hs
    rcases next_accounted hn with hsame | ⟨hstop, hless⟩
    · refine ⟨hsame ▸ hle, fun ht => hsame.trans (heq ?_)⟩
      cases hs : s.isStopping with
      | false => rfl
      | true => rw [next_isStopping hs hn] at ht; cases ht
    · refine ⟨hless.trans hle, fun ht => ?_⟩
      rw [next_isStopping hstop hn] at ht
      cases ht

/-! ### Only an active run yields -/

/-- **A step that yields is the step of an active run.** -/
theorem active_of_yielded {l : Label} (hn : s.next A l = some t) (hne : t.yielded ≠ s.yielded) :
    s.isActive = true := by
  cases hb : l.isBackstage with
  | true => exact absurd (next_backstage hn hb).yielded hne
  | false =>
    cases ho : l.isOutside with
    | true =>
      obtain ⟨cancellation, current, rfl⟩ := next_environment hn ho
      exact absurd rfl hne
    | false => exact (next_frontstage hn hb ho).active hne

/-- An inactive run stays so, unless its generation becomes current again. -/
theorem next_inactive {l : Label} (hs : s.isActive = false) (hn : s.next A l = some t)
    (hl : l ≠ .setCurrent true) : t.isActive = false := by
  cases hb : l.isBackstage with
  | true =>
    have h := next_backstage hn hb
    rwa [isActive, h.cancellation, h.generationCurrent]
  | false =>
    cases ho : l.isOutside with
    | false =>
      have h := next_frontstage hn hb ho
      rwa [isActive, h.cancellation, h.generationCurrent]
    | true =>
      cases l with
      | cancelToken reason =>
        simp only [PipelineRun.next, Option.map_eq_some_iff] at hn
        obtain ⟨token, -, rfl⟩ := hn
        cases hc : token.cancelled <;> simp [isActive, CancellationState.cancel, hc]
      | setCurrent answer =>
        cases hn
        cases answer with
        | true => exact absurd rfl hl
        | false => exact Bool.and_false _
      | _ => cases ho

/-- **Once a run is not active it yields nothing more**, as long as its generation does
not become current again. -/
theorem yielded_of_inactive (hs : s.isActive = false)
    (h : ((machine A).restrict fun _ l => l ≠ .setCurrent true).Leads s t) :
    t.yielded = s.yielded := by
  refine (h.invariant (I := fun u => u.isActive = false ∧ u.yielded = s.yielded) ⟨hs, rfl⟩
    fun u l v hu hn => ?_).2
  obtain ⟨hinactive, hsame⟩ := hu
  simp only [Machine.restrict, Option.ite_none_right_eq_some] at hn
  obtain ⟨hl, hn⟩ := hn
  refine ⟨next_inactive hinactive hn hl, ?_⟩
  by_contra hne
  rw [← hsame] at hne
  rw [active_of_yielded hn hne] at hinactive
  cases hinactive

/-! ### The grammar -/

/-- What a run shows to its consumer. -/
structure Grammatical (A : PipelineArguments) (s : PipelineRun) : Prop where
  /-- What was yielded is the beginning of a word for the segments the assembler made. -/
  word : ∃ w, Word A.request s.assembler.segments w ∧ s.yielded <+: w
  /-- A completion ends a whole word, and lists its segments. -/
  completed : ∀ plan, completedEvent A.request plan ∈ s.yielded →
    plan.segments = s.assembler.segments ∧ Word A.request s.assembler.segments s.yielded
  /-- An error of the model stage is raised after the audio of every segment. -/
  modelFailed : ∀ error, s.outcome = some (.raised .model error) → ∃ blocks : List Block,
    blocks.map Prod.fst = s.assembler.segments ∧ (∀ b ∈ blocks, Complete b.1 b.2) ∧
      s.yielded = blockEvents A.request blocks
  /-- An error of a segment is raised after the audio of the earlier ones. -/
  segmentFailed : ∀ i error, s.outcome = some (.raised (.segment i) error) →
    ∃ (blocks : List Block) (segment : UtteranceSegment) (chunks : List AudioChunk),
      blocks.length = i ∧ blocks.map Prod.fst ++ [segment] <+: s.assembler.segments ∧
      (∀ b ∈ blocks, Complete b.1 b.2) ∧
      s.yielded = blockEvents A.request blocks ++ segmentEvents A.request (segment, chunks)
  /-- A step yields only in a run whose token is not cancelled and whose generation is current. -/
  active : ∀ l t, s.next A l = some t → t.yielded ≠ s.yielded → s.isActive = true
  /-- After a run has become inactive it yields nothing more. -/
  inactive : s.isActive = false →
    ∀ t, ((machine A).restrict fun _ l => l ≠ .setCurrent true).Leads s t → t.yielded = s.yielded
  /-- The synthesis streams at work are no more than there are slots. -/
  concurrent : s.jobs.countP (·.isRunning) ≤ A.pipeline.maxConcurrentSynthesis

/-- **Every run is grammatical**, for all capacities and all providers, at each of its
states. -/
theorem grammatical (h : (machine A).Reachable s) : s.Grammatical A where
  word := (reachable_coherent h).traced.word
  completed _ := (reachable_coherent h).traced.of_completed
  modelFailed error ho := by
    rcases reachable_coherent h with ⟨n, hlive⟩ | hsettled
    · rw [outcome_eq_none hlive.notStopping] at ho
      cases ho
    · exact (hsettled.failed _ ho).2
  segmentFailed i error ho := by
    rcases reachable_coherent h with ⟨n, hlive⟩ | hsettled
    · rw [outcome_eq_none hlive.notStopping] at ho
      cases ho
    · exact hsettled.failed _ ho
  active _ _ := active_of_yielded
  inactive hs _ := yielded_of_inactive hs
  concurrent := by
    have hle := (reachable_accounted h).1
    rw [accounted] at hle
    omega

theorem defaultSegmentChars_le : 20 ≤ 220 := by decide

/-- A pipeline with the smallest queues. -/
def narrow : PipelineArguments where
  pipeline := ⟨220, 1, 2, 1, 1, defaultSegmentChars_le, Nat.zero_lt_one, Nat.two_pos,
    Nat.zero_lt_one, Nat.zero_lt_one⟩
  request := ⟨0, 3⟩
  uuid4 n := n

/-- A run over an utterance of one segment, which is spoken in one chunk. -/
def shortRun : List Label :=
  [.modelEvent (.textDelta "Hi. ".toList), .producerPut, .dispatch, .dispatch, .dispatch,
    .modelEnd, .producerPut, .dispatch, .dispatch,
    .speechChunk 0 ⟨0, 0, 0, [], [], 1, true, none, Nat.zero_lt_one⟩, .audioPut 0, .speechEnd 0,
    .take, .handle, .resume, .take, .handle, .resume, .audioPut 0, .take, .handle,
    .take, .handle, .handle, .resume, .leaveFinally]

theorem grammatical_shortRun :
    ∃ s, (machine narrow).Reachable s ∧ s.yielded.length = 3 ∧ s.Grammatical narrow := by
  have h : ((machine narrow).run (begin narrow none true) shortRun).map
      (·.yielded.length) = some 3 := by decide +kernel
  obtain ⟨s, hs, hlength⟩ := Option.map_eq_some_iff.mp h
  have hr : (machine narrow).Reachable s := Machine.reachable_of_run ⟨none, true, rfl⟩ hs
  exact ⟨s, hr, hlength, grammatical hr⟩

end PipelineRun

end Eeveetuber
