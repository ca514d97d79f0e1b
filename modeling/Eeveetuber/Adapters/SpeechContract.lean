import Eeveetuber.Adapters.Speech
import Eeveetuber.Dialogue.PipelineTrace

/-!
# The contract between speech and the dialogue

The pipeline checks what a speech provider yields, and raises a `DialogueProtocolError` where it is
not as it should be. `Eeveetuber.PipelineRun.Speaks` says of the steps of a run that each segment is
spoken by a provider: its chunks arrive one after the other, its end when all of them have, and an
exception at any time. If what is spoken of each segment is `Eeveetuber.Spoken`, then no run raises
a `DialogueProtocolError` on behalf of a segment (`Eeveetuber.PipelineRun.innocent_of_reachable`).

The speech that comes over HTTP is spoken so, and
`Eeveetuber.OpenAICompatibleSpeechSynthesizer.synthesize_contract` puts both together.
-/

namespace Eeveetuber

open Foundation Stateful

/-- **What a provider may make of a segment**: all of its chunks, or some of them and an
exception. -/
structure Spoken (segment : UtteranceSegment) (speech : SpeechOutcome) : Prop where
  framed : Framed segment speech.2
  complete : speech.1 = .ok () → Complete segment speech.2

namespace SynthesisJob

variable {job job' : SynthesisJob} {speech : SpeechOutcome} {chunk : AudioChunk}
  {stopping : Bool} {error : DialogueError}

/-- Whether the last chunk so far was marked. -/
def FinalAt (chunks : List AudioChunk) (expected : ℕ) (final : Bool) : Prop :=
  final = true ↔ ∃ i c, expected = i + 1 ∧ chunks[i]? = some c ∧ c.isFinal = true

/-- **A task that has found no fault** with what is spoken. -/
def Honest (speech : SpeechOutcome) (job : SynthesisJob) : Prop :=
  (∀ message, AudioItem.last (.stageFailed (.protocolError message)) ∉ job.audio) ∧
    match job.synthesis with
    | .streaming expected final | .putting _ expected final => FinalAt speech.2 expected final
    | .ending item => ∀ message, item ≠ .stageFailed (.protocolError message)
    | .done => True

theorem honest_fail (h : job.Honest speech) (herror : ∀ message, error ≠ .protocolError message)
    (stopping : Bool) : (job.fail stopping error).Honest speech := by
  rw [fail]
  split_ifs
  · exact ⟨h.1, trivial⟩
  · refine ⟨h.1, fun message heq => ?_⟩
    cases heq
    exact herror message rfl

/-- A chunk that is there is not behind a marked one. -/
theorem not_final {segment : UtteranceSegment} {chunks : List AudioChunk} {expected : ℕ}
    {final : Bool} (h : Framed segment chunks) (hfinal : FinalAt chunks expected final)
    (hchunk : chunks[expected]? = some chunk) : final = false := by
  rw [← Bool.not_eq_true]
  intro htrue
  obtain ⟨i, c, rfl, hc, hmarked⟩ := hfinal.mp htrue
  obtain ⟨hlt, -⟩ := List.getElem?_eq_some_iff.mp hchunk
  obtain ⟨hi, rfl⟩ := List.getElem?_eq_some_iff.mp hc
  have hmem : chunks[i] ∈ chunks.dropLast := by
    rw [List.mem_iff_getElem]
    refine ⟨i, ?_, List.getElem_dropLast _⟩
    rw [List.length_dropLast]
    omega
  rw [h.notFinal _ hmem] at hmarked
  cases hmarked

/-- **A chunk passes the checks.** -/
theorem honest_onSpeechChunk (hspoken : Spoken job.segment speech) (h : job.Honest speech)
    {expected : ℕ} {final : Bool} (hs : job.synthesis = .streaming expected final)
    (hchunk : speech.2[expected]? = some chunk)
    (hn : job.onSpeechChunk stopping chunk = some job') : job'.Honest speech := by
  obtain ⟨haudio, hfinal⟩ := h
  rw [hs] at hfinal
  have hmem := List.mem_of_getElem? hchunk
  have hindex : chunk.chunkIndex = expected := by
    have hget := congrArg (·[expected]?) hspoken.framed.chunkIndex
    obtain ⟨hlt, -⟩ := List.getElem?_eq_some_iff.mp hchunk
    rw [List.getElem?_map, hchunk, List.getElem?_range hlt] at hget
    exact Option.some.inj hget
  have hcheck : job.checkChunk expected final chunk = .ok () := by
    rw [checkChunk, not_final hspoken.framed hfinal hchunk, if_neg Bool.false_ne_true,
      if_neg (not_not.mpr (hspoken.framed.segmentId _ hmem)),
      if_neg (not_not.mpr (hspoken.framed.sequence _ hmem)), if_neg (not_not.mpr hindex)]
  rw [onSpeechChunk, hs] at hn
  dsimp only at hn
  rw [hcheck] at hn
  cases hn
  refine ⟨haudio, ?_⟩
  constructor
  · intro hmarked
    exact ⟨expected, chunk, rfl, hchunk, hmarked⟩
  · rintro ⟨i, c, hi, hc, hmarked⟩
    cases hi
    rw [hchunk] at hc
    cases hc
    exact hmarked

/-- **The end passes the checks.** -/
theorem honest_onSpeechEnd (hspoken : Spoken job.segment speech) (h : job.Honest speech)
    {final : Bool} (hs : job.synthesis = .streaming speech.2.length final)
    (hok : speech.1 = .ok ()) (hn : job.onSpeechEnd stopping = some job') :
    job'.Honest speech := by
  obtain ⟨haudio, hfinal⟩ := h
  rw [hs] at hfinal
  obtain ⟨last, hlast, hmarked⟩ := (hspoken.complete hok).final
  rw [List.getLast?_eq_getElem?] at hlast
  obtain ⟨hlt, -⟩ := List.getElem?_eq_some_iff.mp hlast
  have htrue : final = true :=
    hfinal.mpr ⟨speech.2.length - 1, last, by omega, hlast, hmarked⟩
  have hcheck : checkEnd speech.2.length final = .ok () := by
    rw [checkEnd, if_neg (by omega), htrue]
    rfl
  rw [onSpeechEnd, hs] at hn
  dsimp only at hn
  rw [hcheck] at hn
  cases hn
  exact ⟨haudio, fun _ heq => by cases heq⟩

theorem honest_onSpeechError (h : job.Honest speech)
    (herror : ∀ message, error ≠ .protocolError message)
    (hn : job.onSpeechError stopping error = some job') : job'.Honest speech := by
  rw [onSpeechError] at hn
  split at hn
  · cases hn
    exact honest_fail h herror stopping
  all_goals cases hn

theorem fail_segment (job : SynthesisJob) (stopping : Bool) (error : DialogueError) :
    (job.fail stopping error).segment = job.segment := by
  rw [fail]
  split_ifs
  · rfl
  · rfl

theorem onSpeechChunk_segment (hn : job.onSpeechChunk stopping chunk = some job') :
    job'.segment = job.segment := by
  rw [onSpeechChunk] at hn
  split at hn
  · split at hn
    · cases hn
      exact fail_segment job stopping _
    · cases hn
      rfl
  all_goals cases hn

theorem onSpeechEnd_segment (hn : job.onSpeechEnd stopping = some job') :
    job'.segment = job.segment := by
  rw [onSpeechEnd] at hn
  split at hn
  · split at hn
    · cases hn
      exact fail_segment job stopping _
    · cases hn
      rfl
  all_goals cases hn

theorem onSpeechError_segment (hn : job.onSpeechError stopping error = some job') :
    job'.segment = job.segment := by
  rw [onSpeechError] at hn
  split at hn
  · cases hn
    exact fail_segment job stopping error
  all_goals cases hn

theorem audioPut_segment {capacity : ℕ} (hn : job.audioPut capacity = some job') :
    job'.segment = job.segment := by
  rw [audioPut] at hn
  split_ifs at hn
  split at hn
  all_goals
    cases hn
    try rfl

theorem cancel_segment (hn : job.cancel = some job') : job'.segment = job.segment := by
  rw [cancel] at hn
  split_ifs at hn
  cases hn
  rfl

theorem honest_audioPut {capacity : ℕ} (h : job.Honest speech)
    (hn : job.audioPut capacity = some job') : job'.Honest speech := by
  obtain ⟨haudio, hsynthesis⟩ := h
  rw [audioPut] at hn
  split_ifs at hn
  split at hn
  · rename_i chunk expected final hs
    cases hn
    rw [hs] at hsynthesis
    refine ⟨fun message hmem => ?_, hsynthesis⟩
    rcases List.mem_append.mp hmem with hmem | hmem
    · exact haudio message hmem
    · cases List.mem_singleton.mp hmem
  · rename_i item hs
    cases hn
    rw [hs] at hsynthesis
    refine ⟨fun message hmem => ?_, trivial⟩
    rcases List.mem_append.mp hmem with hmem | hmem
    · exact haudio message hmem
    · cases List.mem_singleton.mp hmem
      exact hsynthesis message rfl
  all_goals cases hn

theorem honest_cancel (h : job.Honest speech) (hn : job.cancel = some job') :
    job'.Honest speech := by
  rw [cancel] at hn
  split_ifs at hn
  cases hn
  exact ⟨h.1, trivial⟩

/-- The consumer takes an item. -/
theorem honest_take (h : job.Honest speech) {item : AudioItem} {rest : List AudioItem}
    (haudio : job.audio = item :: rest) :
    ({ job with audio := rest } : SynthesisJob).Honest speech ∧
      ∀ message, item ≠ .last (.stageFailed (.protocolError message)) := by
  obtain ⟨hclean, hsynthesis⟩ := h
  rw [haudio] at hclean
  refine ⟨⟨fun message hmem => hclean message (List.mem_cons_of_mem _ hmem), hsynthesis⟩, ?_⟩
  rintro message rfl
  exact hclean message List.mem_cons_self

end SynthesisJob

namespace PipelineRun

variable {A : PipelineArguments} {s t : PipelineRun}
  {speech : ℕ → UtteranceSegment → SpeechOutcome}

/-- **The segments are spoken by a provider**, which makes `speech` of them: a step hands out the
next chunk, or ends when there is none left, or raises an exception of the provider's own or a
`CancelledError`. -/
def Speaks (speech : ℕ → UtteranceSegment → SpeechOutcome) (s : PipelineRun) : Label → Prop
  | .speechChunk i chunk => ∃ job expected final, s.jobs[i]? = some job ∧
    job.synthesis = .streaming expected final ∧
    (speech i job.segment).2[expected]? = some chunk
  | .speechEnd i => ∃ job final, s.jobs[i]? = some job ∧
    job.synthesis = .streaming (speech i job.segment).2.length final ∧
    (speech i job.segment).1 = .ok ()
  | .speechError _ error => ∀ message, error ≠ .protocolError message
  | _ => True

/-- Where the task of a segment waits for its speech stream: the segment, and the index of the next
chunk. -/
def listening (s : PipelineRun) (i : ℕ) : Option (UtteranceSegment × ℕ) :=
  (s.jobs[i]?).bind fun job => match job.synthesis with
    | .streaming expected _ => some (job.segment, expected)
    | .putting .. | .ending _ | .done => none

theorem listening_eq_some {i : ℕ} {segment : UtteranceSegment} {expected : ℕ} :
    s.listening i = some (segment, expected) ↔ ∃ job final, s.jobs[i]? = some job ∧
      job.segment = segment ∧ job.synthesis = .streaming expected final := by
  rw [listening, Option.bind_eq_some_iff]
  refine exists_congr fun job => ?_
  cases hs : job.synthesis with
  | streaming index final =>
    constructor
    · rintro ⟨hjob, ⟨⟩⟩
      exact ⟨final, hjob, rfl, rfl⟩
    · rintro ⟨-, hjob, rfl, ⟨⟩⟩
      exact ⟨hjob, rfl⟩
  | putting | ending | done =>
    constructor
    · rintro ⟨-, ⟨⟩⟩
    · rintro ⟨-, -, -, ⟨⟩⟩

/-- Whether a step is one of a provider that makes `speech` of the segments. -/
def speaks (speech : ℕ → UtteranceSegment → SpeechOutcome) (s : PipelineRun) : Label → Bool
  | .speechChunk i chunk => (s.listening i).any fun p => (speech i p.1).2[p.2]? == some chunk
  | .speechEnd i => (s.listening i).any fun p =>
    (speech i p.1).1.isOk && p.2 == (speech i p.1).2.length
  | .speechError _ error => match error with
    | .protocolError _ => false
    | _ => true
  | _ => true

theorem speaks_iff (speech : ℕ → UtteranceSegment → SpeechOutcome) (s : PipelineRun) (l : Label) :
    s.speaks speech l = true ↔ Speaks speech s l := by
  cases l with
  | speechChunk i chunk =>
    simp only [speaks, Speaks, Option.any_eq_true, Prod.exists, listening_eq_some, beq_iff_eq]
    constructor
    · rintro ⟨_, expected, ⟨job, final, hjob, rfl, hs⟩, hchunk⟩
      exact ⟨job, expected, final, hjob, hs, hchunk⟩
    · rintro ⟨job, expected, final, hjob, hs, hchunk⟩
      exact ⟨_, expected, ⟨job, final, hjob, rfl, hs⟩, hchunk⟩
  | speechEnd i =>
    simp only [speaks, Speaks, Option.any_eq_true, Prod.exists, listening_eq_some,
      Bool.and_eq_true, beq_iff_eq]
    have isOk (x : Except SpeechError Unit) : x.isOk = true ↔ x = .ok () := by
      rcases x with _ | ⟨⟨⟩⟩ <;> simp [Except.isOk, Except.toBool]
    constructor
    · rintro ⟨_, _, ⟨job, final, hjob, rfl, hs⟩, hok, rfl⟩
      exact ⟨job, final, hjob, hs, (isOk _).mp hok⟩
    · rintro ⟨job, final, hjob, hs, hok⟩
      exact ⟨_, _, ⟨job, final, hjob, rfl, hs⟩, (isOk _).mpr hok, rfl⟩
  | speechError i error =>
    cases error with
    | protocolError message =>
      exact iff_of_false (fun h => by cases h) fun h => h message rfl
    | _ => exact iff_of_true rfl fun _ heq => by cases heq
  | _ => exact iff_of_true rfl trivial

instance (speech : ℕ → UtteranceSegment → SpeechOutcome) (s : PipelineRun) (l : Label) :
    Decidable (Speaks speech s l) := decidable_of_iff _ (speaks_iff speech s l)

/-- **A run without a fault of the provider.** -/
structure Innocent (speech : ℕ → UtteranceSegment → SpeechOutcome) (s : PipelineRun) :
    Prop where
  jobs : ∀ i (job : SynthesisJob), s.jobs[i]? = some job → job.Honest (speech i job.segment)
  holding : ∀ i message,
    s.consumer ≠ .holdingAudio i (.last (.stageFailed (.protocolError message)))
  outcome : ∀ i message, s.outcome ≠ some (.raised (.segment i) (.protocolError message))

/-- The other tasks take a step. -/
theorem Innocent.backstage (h : s.Innocent speech) (hb : Backstage s t)
    (hjobs : ∀ i (job : SynthesisJob), t.jobs[i]? = some job →
      job.Honest (speech i job.segment)) :
    t.Innocent speech where
  jobs := hjobs
  holding := by
    rw [hb.consumer]
    exact h.holding
  outcome := by
    rw [PipelineRun.outcome, hb.consumer]
    exact h.outcome

/-- The task of a segment takes a step. -/
theorem Innocent.synthesize (h : s.Innocent speech) {i : ℕ}
    {f : SynthesisJob → Option SynthesisJob} (hn : s.synthesize i f = some t)
    (hf : ∀ job job' : SynthesisJob, s.jobs[i]? = some job →
      job.Honest (speech i job.segment) → f job = some job' →
      job'.segment = job.segment ∧ job'.Honest (speech i job.segment)) :
    t.Innocent speech := by
  refine h.backstage (backstage_synthesize hn) ?_
  obtain ⟨job, job', hjob, hstep, rfl⟩ := synthesize_eq_some.mp hn
  obtain ⟨hsegment, hhonest⟩ := hf job job' hjob (h.jobs i job hjob) hstep
  intro j other hother
  dsimp only at hother
  rw [List.getElem?_set] at hother
  split_ifs at hother with hij hlt
  · cases hother
    rw [← hij, hsegment]
    exact hhonest
  · exact h.jobs j other hother

/-- The speech stream of a segment answers. -/
theorem Innocent.hear (h : s.Innocent speech) {i : ℕ}
    {f : SynthesisJob → Option SynthesisJob} (hn : s.hear i f = some t)
    (hf : ∀ job job' : SynthesisJob, s.jobs[i]? = some job →
      job.Honest (speech i job.segment) → f job = some job' →
      job'.segment = job.segment ∧ job'.Honest (speech i job.segment)) :
    t.Innocent speech := by
  refine h.synthesize hn fun job job' hjob hhonest hstep => ?_
  obtain ⟨answer, hanswer, rfl⟩ := Option.map_eq_some_iff.mp hstep
  exact hf job answer hjob hhonest hanswer

/-- The consumer does not look at the audio of a segment, or gives an item of it up. -/
theorem handle_consumer (hn : s.handle A = some t) (i : ℕ) (item : AudioItem) :
    t.consumer ≠ .holdingAudio i item := by
  -- what is yielded may only be followed by a pause of the consumer
  have yields (event : DialogueStreamEvent) (paused : Consumer)
      (hpaused : paused ≠ .holdingAudio i item) :
      (s.yieldEvent A event paused).consumer ≠ .holdingAudio i item := by
    rw [yieldEvent]
    split
    · intro heq
      cases heq
    · exact hpaused
  rw [PipelineRun.handle] at hn
  split at hn
  · cases hn
    intro heq
    cases heq
  · cases hn
    intro heq
    cases heq
  · obtain ⟨job, -, rfl⟩ := Option.map_eq_some_iff.mp hn
    exact yields _ _ fun heq => by cases heq
  · cases hn
    intro heq
    cases heq
  · cases hn
    intro heq
    cases heq
  · obtain ⟨job, -, rfl⟩ := Option.map_eq_some_iff.mp hn
    exact yields _ _ fun heq => by cases heq
  · split_ifs at hn
    cases hn
    exact yields _ _ fun heq => by cases heq
  all_goals cases hn

theorem handle_jobs (hn : s.handle A = some t) : t.jobs = s.jobs := by
  have yields (event : DialogueStreamEvent) (paused : Consumer) :
      (s.yieldEvent A event paused).jobs = s.jobs := by
    rw [yieldEvent]
    split
    · rfl
    · rfl
  rw [PipelineRun.handle] at hn
  split at hn
  · cases hn
    rfl
  · cases hn
    rfl
  · obtain ⟨job, -, rfl⟩ := Option.map_eq_some_iff.mp hn
    exact yields _ _
  · cases hn
    rfl
  · cases hn
    rfl
  · obtain ⟨job, -, rfl⟩ := Option.map_eq_some_iff.mp hn
    exact yields _ _
  · split_ifs at hn
    cases hn
    exact yields _ _
  all_goals cases hn

/-- The consumer takes a step, other than to take an item. -/
theorem Innocent.frontstage (h : s.Innocent speech) {l : Label} (hn : s.next A l = some t)
    (hb : l.isBackstage = false) (ho : l.isOutside = false) (hjobs : t.jobs = s.jobs)
    (hholding : ∀ i item, t.consumer ≠ .holdingAudio i item) : t.Innocent speech where
  jobs := by
    rw [hjobs]
    exact h.jobs
  holding i message := hholding i _
  outcome := by
    intro i message houtcome
    by_cases hs : s.isStopping = true
    · -- only the `finally` clause is left
      obtain ⟨outcome, hc, rfl | ⟨-, rfl⟩⟩ := stopping_consumer hs hn hb ho
      · cases houtcome
        exact h.outcome i message (by rw [PipelineRun.outcome, hc])
      · cases houtcome
    · by_cases ht : t.isStopping = true
      · obtain ⟨outcome, rfl, hcause⟩ := next_stops (by simpa using hs) hn ht
        cases houtcome
        exact h.holding i message hcause
      · rw [outcome_eq_none (by simpa using ht)] at houtcome
        cases houtcome

theorem dispatch_jobs (hn : s.dispatch A = some t) : t.jobs = s.jobs ∨
    ∃ segment, t.jobs = s.jobs ++ [⟨segment, [], .streaming 0 false, [], false⟩] := by
  rw [PipelineRun.dispatch] at hn
  split at hn
  · split at hn
    · cases hn
    · cases hn
      exact .inl rfl
    · cases hn
      exact .inl rfl
  · split_ifs at hn
    cases hn
    exact .inl rfl
  · split_ifs at hn
    cases hn
    exact .inr ⟨_, rfl⟩
  · split_ifs at hn
    cases hn
    exact .inl rfl
  · cases hn

theorem Innocent.take (h : s.Innocent speech) (hn : s.take = some t) : t.Innocent speech := by
  have hlive := take_isStopping hn
  rw [PipelineRun.take] at hn
  split at hn
  · split at hn
    · cases hn
    · cases hn
      exact ⟨h.jobs, (fun _ _ heq => by cases heq), fun _ _ heq => by cases heq⟩
  · rename_i i hc
    obtain ⟨job, hjob, hn⟩ := Option.bind_eq_some_iff.mp hn
    split at hn
    · cases hn
    · rename_i item rest haudio
      cases hn
      obtain ⟨hhonest, hitem⟩ := SynthesisJob.honest_take (h.jobs i job hjob) haudio
      refine ⟨?_, ?_, fun _ _ heq => by cases heq⟩
      · intro j other hother
        dsimp only at hother
        rw [List.getElem?_set] at hother
        split_ifs at hother with hij hlt
        · cases hother
          rw [← hij]
          exact hhonest
        · exact h.jobs j other hother
      · intro j message heq
        cases heq
        exact hitem message rfl
  all_goals cases hn

/-- **A step finds no fault** with segments that are spoken by a provider. -/
theorem Innocent.next (hspoken : ∀ i segment, Spoken segment (speech i segment))
    (h : s.Innocent speech) {l : Label} (hok : Speaks speech s l) (hn : s.next A l = some t) :
    t.Innocent speech := by
  have unchanged (hb : l.isBackstage = true) (hjobs : t.jobs = s.jobs) : t.Innocent speech := by
    refine h.backstage (next_backstage hn hb) ?_
    rw [hjobs]
    exact h.jobs
  cases l with
  | modelEvent event =>
    refine unchanged rfl ?_
    rw [PipelineRun.next] at hn
    split_ifs at hn
    cases hn
    obtain ⟨p, a, c, heq⟩ := onModelEvent_eq (A := A) s event
    rw [heq]
    rfl
  | modelEnd =>
    refine unchanged rfl ?_
    rw [PipelineRun.next] at hn
    split_ifs at hn
    cases hn
    obtain ⟨p, a, heq⟩ := onModelEnd_eq (A := A) s
    rw [heq]
    rfl
  | modelError error =>
    refine unchanged rfl ?_
    rw [PipelineRun.next] at hn
    split_ifs at hn
    cases hn
    obtain ⟨p, heq⟩ := s.failProduction_eq error
    rw [heq]
    rfl
  | producerPut =>
    obtain ⟨p, item, rfl⟩ := producerPut_eq (producerPut_eq_some hn).2
    exact unchanged rfl rfl
  | dispatch =>
    obtain ⟨-, hn⟩ := dispatch_eq_some hn
    rcases dispatch_jobs hn with hjobs | ⟨segment, hjobs⟩
    · exact unchanged rfl hjobs
    · -- a new job
      refine h.backstage (backstage_dispatch hn) fun i job hjob => ?_
      rw [hjobs, List.getElem?_append] at hjob
      split_ifs at hjob with hlt
      · exact h.jobs i job hjob
      · have hnew := List.mem_singleton.mp (List.mem_of_getElem? hjob)
        rw [hnew]
        refine ⟨fun _ hmem => absurd hmem List.not_mem_nil, iff_of_false Bool.false_ne_true ?_⟩
        rintro ⟨_, _, hzero, -⟩
        cases hzero
  | speechChunk i chunk =>
    obtain ⟨job, expected, final, hjob, hs, hchunk⟩ := hok
    refine h.hear hn fun other job' hother hhonest hstep => ?_
    rw [hjob] at hother
    cases hother
    refine ⟨?_, SynthesisJob.honest_onSpeechChunk (hspoken i job.segment) hhonest hs hchunk hstep⟩
    exact SynthesisJob.onSpeechChunk_segment hstep
  | speechEnd i =>
    obtain ⟨job, final, hjob, hs, hend⟩ := hok
    refine h.hear hn fun other job' hother hhonest hstep => ?_
    rw [hjob] at hother
    cases hother
    refine ⟨?_, SynthesisJob.honest_onSpeechEnd (hspoken i job.segment) hhonest hs hend hstep⟩
    exact SynthesisJob.onSpeechEnd_segment hstep
  | speechError i error =>
    refine h.hear hn fun job job' _ hhonest hstep => ?_
    exact ⟨SynthesisJob.onSpeechError_segment hstep,
      SynthesisJob.honest_onSpeechError hhonest hok hstep⟩
  | audioPut i =>
    refine h.synthesize hn fun job job' _ hhonest hstep => ?_
    obtain ⟨-, hstep⟩ := Option.ite_none_left_eq_some.mp hstep
    exact ⟨SynthesisJob.audioPut_segment hstep, SynthesisJob.honest_audioPut hhonest hstep⟩
  | cancelSynthesis i =>
    refine h.synthesize hn fun job job' _ hhonest hstep => ?_
    obtain ⟨-, hstep⟩ := Option.ite_none_right_eq_some.mp hstep
    exact ⟨SynthesisJob.cancel_segment hstep, SynthesisJob.honest_cancel hhonest hstep⟩
  | cancelProducer =>
    refine unchanged rfl ?_
    rw [PipelineRun.next] at hn
    split_ifs at hn
    cases hn
    rfl
  | cancelDispatcher =>
    refine unchanged rfl ?_
    rw [PipelineRun.next] at hn
    split_ifs at hn
    split at hn
    all_goals
      cases hn
      try rfl
  | take => exact h.take hn
  | handle => exact h.frontstage hn rfl rfl (handle_jobs hn) (handle_consumer hn)
  | resume =>
    have hresume := hn
    rw [PipelineRun.next, PipelineRun.resume] at hresume
    split at hresume
    all_goals
      cases hresume
    all_goals exact h.frontstage hn rfl rfl rfl fun _ _ heq => by cases heq
  | interrupt =>
    obtain ⟨error, rfl⟩ := interrupt_eq_some hn
    exact h.frontstage hn rfl rfl rfl fun _ _ heq => by cases heq
  | leaveFinally =>
    obtain ⟨outcome, -, -, rfl⟩ := leaveFinally_eq_some hn
    exact h.frontstage hn rfl rfl rfl fun _ _ heq => by cases heq
  | close =>
    obtain ⟨-, rfl⟩ | ⟨outcome, -, rfl⟩ := close_eq_some hn
    · exact h.frontstage hn rfl rfl rfl fun _ _ heq => by cases heq
    · refine ⟨fun i job hjob => ?_, (fun _ _ heq => by cases heq), fun _ _ heq => by cases heq⟩
      rw [List.getElem?_map, Option.map_eq_some_iff] at hjob
      obtain ⟨job, hjob, rfl⟩ := hjob
      exact h.jobs i job hjob
  | cancelToken | setCurrent =>
    obtain ⟨cancellation, current, rfl⟩ := next_environment hn rfl
    exact ⟨h.jobs, h.holding, h.outcome⟩

/-- **No run raises a `DialogueProtocolError` on behalf of a segment**, if the segments are spoken
by a provider that makes all of its chunks of each, or some and an exception. -/
theorem innocent_of_reachable (hspoken : ∀ i segment, Spoken segment (speech i segment))
    (h : (machine A).ReachableBy (Speaks speech) s) : s.Innocent speech := by
  refine h.invariant ?_ fun s l t _ hs hok hn => hs.next hspoken hok hn
  rintro s ⟨cancellation, current, rfl⟩
  have hempty {s : PipelineRun} (hjobs : s.jobs = [])
      (hholding : ∀ i item, s.consumer ≠ .holdingAudio i item)
      (houtcome : ∀ i error, s.outcome ≠ some (.raised (.segment i) error)) :
      s.Innocent speech := by
    refine ⟨?_, fun i _ => hholding i _, fun i _ => houtcome i _⟩
    rw [hjobs]
    intro i job hjob
    cases hjob
  rw [begin]
  split
  · exact hempty rfl (fun _ _ heq => by cases heq) fun _ _ heq => by cases heq
  · exact hempty rfl (fun _ _ heq => by cases heq) fun _ _ heq => by cases heq

end PipelineRun

namespace OpenAICompatibleSpeechSynthesizer

variable {config : OpenAICompatibleSpeechConfig} {segment : UtteranceSegment}
  {response : SpeechResponse}

/-- **Speech over HTTP** is what a provider may make of a segment. -/
theorem spoken_synthesize (config : OpenAICompatibleSpeechConfig) (segment : UtteranceSegment)
    (h : response.IsAudio) : Spoken segment (outcome (synthesize config segment response) []) := by
  by_cases hbody : response.body = []
  · rw [outcome_of_nil h hbody]
    exact ⟨Framed.nil segment, nofun⟩
  · by_cases hle : response.body.length ≤ config.maxResponseBytes
    · obtain ⟨before, last, -, houtcome⟩ := @outcome_of_le config segment _ h hbody hle
      rw [houtcome]
      have hcomplete := complete_of_frames config segment before last
      exact ⟨hcomplete.toFramed, fun _ => hcomplete⟩
    · obtain ⟨before, houtcome⟩ := @outcome_of_lt config segment _ h (Nat.not_le.mp hle)
      rw [houtcome]
      exact ⟨framed_frames config segment before, nofun⟩

/-- **The chunks of a response** are its body, and neither empty nor too long. -/
structure Carries (config : OpenAICompatibleSpeechConfig) (response : SpeechResponse)
    (chunks : List AudioChunk) : Prop where
  ne_nil : ∀ c ∈ chunks, c.audio ≠ []
  length_le : ∀ c ∈ chunks, c.audio.length ≤ config.chunkSizeBytes
  flatten : (chunks.map (·.audio)).flatten = response.body
  body_le : response.body.length ≤ config.maxResponseBytes

theorem carries_of_pieces {before : List Bytes} {last : Bytes}
    (hpieces : boundedResponseBytes config.chunkSizeBytes response.pieces = before ++ [last])
    (hle : response.body.length ≤ config.maxResponseBytes) :
    Carries config response (frames config segment 0 before ++
      [audioChunk config segment before.length last true]) := by
  have haudio : (frames config segment 0 before ++
      [audioChunk config segment before.length last true]).map (·.audio) =
      boundedResponseBytes config.chunkSizeBytes response.pieces := by
    rw [List.map_append, map_audio_frames, hpieces]
    rfl
  have hmem (c : AudioChunk) (hc : c ∈ frames config segment 0 before ++
      [audioChunk config segment before.length last true]) :
      c.audio ≠ [] ∧ c.audio.length ≤ config.chunkSizeBytes :=
    mem_boundedResponseBytes config.chunkSize_pos (haudio ▸ List.mem_map_of_mem hc)
  refine ⟨fun c hc => (hmem c hc).1, fun c hc => (hmem c hc).2, ?_, hle⟩
  rw [haudio, flatten_boundedResponseBytes config.chunkSize_pos]
  rfl

/-- **The contract of speech over HTTP.** However the body of a successful audio response comes in:

* if speaking ends normally, its chunks are complete for the segment, and they carry the body;
* it raises a `SpeechProtocolError` if the body is empty or over the limit, and ends normally
  otherwise;
* no run of a dialogue whose segments are spoken so raises a `DialogueProtocolError` on behalf of
  a segment. -/
theorem synthesize_contract (config : OpenAICompatibleSpeechConfig) :
    (∀ (segment : UtteranceSegment) (response : SpeechResponse), response.IsAudio →
      (∀ chunks, outcome (synthesize config segment response) [] = (.ok (), chunks) →
        Complete segment chunks ∧ Carries config response chunks) ∧
      ((∃ message, (outcome (synthesize config segment response) []).1 =
          .error (.protocolError message)) ↔
        response.body = [] ∨ config.maxResponseBytes < response.body.length) ∧
      ((outcome (synthesize config segment response) []).1 = .ok () ↔
        ¬(response.body = [] ∨ config.maxResponseBytes < response.body.length))) ∧
    ∀ (responses : ℕ → SpeechResponse), (∀ i, (responses i).IsAudio) →
      ∀ (A : PipelineArguments) (s : PipelineRun), (PipelineRun.machine A).ReachableBy
        (PipelineRun.Speaks fun i segment =>
          outcome (synthesize config segment (responses i)) []) s →
      ∀ i message, s.outcome ≠ some (.raised (.segment i) (.protocolError message)) := by
  constructor
  · intro segment response h
    by_cases hbody : response.body = []
    · rw [outcome_of_nil h hbody]
      refine ⟨nofun, iff_of_true ⟨_, rfl⟩ (.inl hbody), iff_of_false nofun ?_⟩
      exact fun hnot => hnot (.inl hbody)
    · by_cases hle : response.body.length ≤ config.maxResponseBytes
      -- all pieces but the last are yielded while the next is read
      · obtain ⟨before, last, hpieces, houtcome⟩ := @outcome_of_le config segment _ h hbody hle
        have hnot : ¬(response.body = [] ∨ config.maxResponseBytes < response.body.length) :=
          fun hor => hor.elim hbody (Nat.not_lt.mpr hle)
        rw [houtcome]
        refine ⟨?_, iff_of_false nofun hnot, iff_of_true rfl hnot⟩
        rintro chunks ⟨⟩
        exact ⟨complete_of_frames config segment before last, carries_of_pieces hpieces hle⟩
      -- the piece that exceeds the limit is never yielded
      · obtain ⟨before, houtcome⟩ := @outcome_of_lt config segment _ h (Nat.not_le.mp hle)
        rw [houtcome]
        refine ⟨nofun, iff_of_true ⟨_, rfl⟩ (.inr (Nat.not_le.mp hle)), iff_of_false nofun ?_⟩
        exact fun hnot => hnot (.inr (Nat.not_le.mp hle))
  · intro responses h A s hs
    exact (PipelineRun.innocent_of_reachable
      (fun i segment => spoken_synthesize config segment (h i)) hs).outcome

/-- Ten bytes at most four at a time, of a body that comes in by an empty piece and two others. -/
def fourBytes : OpenAICompatibleSpeechConfig where
  responseFormat := .mp3
  chunkSizeBytes := 4

def tenBytes : SpeechResponse where
  statusCode := 200
  contentType := "audio/mpeg".toList
  requestId := none
  pieces := [[], [97, 98, 99, 100, 101, 102], [103, 104, 105, 106]]

def greetingSegment : UtteranceSegment where
  sequence := 0
  speakableText := "Hello.".toList
  displayText := "Hello.".toList
  segmentId := ⟨0, by decide⟩
  speakable_not_blank := by decide
  display_not_blank := by decide

/-- A run over an utterance of one segment, which is spoken in the three chunks of the body. -/
def greetingRun : List PipelineRun.Label :=
  [.modelEvent (.textDelta "Hello. ".toList), .producerPut, .dispatch, .dispatch, .dispatch,
    .modelEnd, .producerPut, .dispatch, .dispatch, .take, .handle, .resume,
    .speechChunk 0 (audioChunk fourBytes greetingSegment 0 [97, 98, 99, 100] false), .audioPut 0,
    .take, .handle, .resume,
    .speechChunk 0 (audioChunk fourBytes greetingSegment 1 [101, 102] false), .audioPut 0,
    .take, .handle, .resume,
    .speechChunk 0 (audioChunk fourBytes greetingSegment 2 [103, 104, 105, 106] true),
    .audioPut 0, .speechEnd 0, .take, .handle, .resume, .audioPut 0, .take, .handle,
    .take, .handle, .handle, .resume, .leaveFinally]

theorem synthesize_contract_tenBytes :
    Complete greetingSegment (frames fourBytes greetingSegment 0 [[97, 98, 99, 100], [101, 102]] ++
        [audioChunk fourBytes greetingSegment 2 [103, 104, 105, 106] true]) ∧
      ∃ s, (PipelineRun.machine PipelineRun.narrow).ReachableBy (PipelineRun.Speaks fun _ segment =>
          outcome (synthesize fourBytes segment tenBytes) []) s ∧
        s.yielded.length = 5 ∧ s.outcome = some .returned ∧
        ∀ i message, s.outcome ≠ some (.raised (.segment i) (.protocolError message)) := by
  have haudio : tenBytes.IsAudio := by decide
  have houtcome : outcome (synthesize fourBytes greetingSegment tenBytes) [] =
      (.ok (), frames fourBytes greetingSegment 0 [[97, 98, 99, 100], [101, 102]] ++
        [audioChunk fourBytes greetingSegment 2 [103, 104, 105, 106] true]) := rfl
  refine ⟨(((synthesize_contract fourBytes).1 greetingSegment tenBytes haudio).1 _ houtcome).1, ?_⟩
  have h : (((PipelineRun.machine PipelineRun.narrow).restrict
      (PipelineRun.Speaks fun _ segment =>
        outcome (synthesize fourBytes segment tenBytes) [])).run
      (PipelineRun.begin PipelineRun.narrow none true) greetingRun).map
      (fun s => (s.yielded.length, s.outcome)) = some (5, some .returned) := by decide +kernel
  obtain ⟨s, hs, hstate⟩ := Option.map_eq_some_iff.mp h
  have hstart : (PipelineRun.machine PipelineRun.narrow).start
      (PipelineRun.begin PipelineRun.narrow none true) := ⟨none, true, rfl⟩
  have hr := Machine.reachableBy_of_run (.start hstart) hs
  exact ⟨s, hr, congrArg Prod.fst hstate, congrArg Prod.snd hstate,
    (synthesize_contract fourBytes).2 (fun _ => tenBytes) (fun _ => haudio) _ s hr⟩

end OpenAICompatibleSpeechSynthesizer

end Eeveetuber
