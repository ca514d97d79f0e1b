import Mathlib.Data.List.Infix
import Eeveetuber.Media.Vad

/-!
# What the detector does

Every method of the detector is described here once, by what it leaves:
`Eeveetuber.EnergyVadConfig.fitting` is the history after the oldest frames were
dropped, `Eeveetuber.EnergyVadConfig.nextRun` the candidate run after an idle
frame, and `Eeveetuber.EnergyVoiceActivityDetector.ProcessStep` says what a frame
can do that is accepted.

What carries all of it is `Eeveetuber.EnergyVoiceActivityDetector.Inv`: a
detector is idle or in an utterance, its counters are the sums over the frames it
holds, and these are in the order of its stream. Under it no `RuntimeError` of the
detector and no `ValueError` of an utterance is ever raised
(`Eeveetuber.EnergyVoiceActivityDetector.process_step`).
-/

namespace Eeveetuber

open Foundation Stateful

namespace EnergyVadConfig

/-- Frames over one of the bounds of the history. -/
def Over (c : EnergyVadConfig) (frames : List PcmFrame) : Prop :=
  c.preRollFrames + c.speechStartFrames < frames.length ∨
    c.maxUtteranceBytes < byteCount frames ∨ c.maxUtteranceDurationNs < audioDurationNs frames

instance (c : EnergyVadConfig) (frames : List PcmFrame) : Decidable (c.Over frames) := by
  unfold Over
  infer_instance

/-- Frames that an utterance may consist of. -/
structure Within (c : EnergyVadConfig) (frames : List PcmFrame) : Prop where
  bytes : byteCount frames ≤ c.maxUtteranceBytes
  duration : audioDurationNs frames ≤ c.maxUtteranceDurationNs

/-- The longest end of some frames that is within the bounds of the history. -/
def fitting (c : EnergyVadConfig) : List PcmFrame → List PcmFrame
  | [] => []
  | f :: fs => if c.Over (f :: fs) then c.fitting fs else f :: fs

/-- The candidate run behind an idle frame. -/
def nextRun (c : EnergyVadConfig) (run : List PcmFrame) (frame : PcmFrame) : List PcmFrame :=
  if isAbove frame c.speechStartThreshold then
    if c.maxUtteranceBytes < byteCount (run ++ [frame]) ∨
        c.maxUtteranceDurationNs < audioDurationNs (run ++ [frame]) then [frame]
    else run ++ [frame]
  else []

variable {c : EnergyVadConfig} {run frames : List PcmFrame} {frame : PcmFrame}

theorem fitting_suffix : ∀ {frames : List PcmFrame}, c.fitting frames <:+ frames
  | [] => List.suffix_refl _
  | f :: fs => by
    rw [fitting]
    split_ifs
    · exact fitting_suffix.trans (List.suffix_cons f fs)
    · exact List.suffix_refl _

theorem not_over_fitting : ∀ {frames : List PcmFrame}, ¬c.Over (c.fitting frames)
  | [] => by simp [fitting, Over]
  | f :: fs => by
    rw [fitting]
    split_ifs with h
    · exact not_over_fitting
    · exact h

/-- No frame within the bounds is dropped. -/
theorem suffix_fitting :
    ∀ {frames : List PcmFrame}, ¬c.Over run → run <:+ frames → run <:+ c.fitting frames
  | [], _, h => h
  | f :: fs, hrun, h => by
    rw [fitting]
    split_ifs with hover
    · rcases List.suffix_cons_iff.mp h with rfl | h
      · exact absurd hover hrun
      · exact suffix_fitting hrun h
    · exact h

theorem within_of_not_over (h : ¬c.Over frames) : c.Within frames := by
  simp only [Over, not_or, not_lt] at h
  exact ⟨h.2.1, h.2.2⟩

/-- A frame that may be in an utterance is within the bounds by itself. -/
theorem not_over_singleton (h : c.Within [frame]) : ¬c.Over [frame] := by
  have := c.one_le_startFrames
  have hb := h.bytes
  have hd := h.duration
  rintro (hlen | hbytes | hdur)
  · rw [List.length_singleton] at hlen
    omega
  · omega
  · omega

/-- A candidate run is within the bounds while it is short of an utterance. -/
theorem not_over_nextRun (hshort : run.length < c.speechStartFrames)
    (hframe : c.Within [frame]) : ¬c.Over (c.nextRun run frame) := by
  rw [nextRun]
  split_ifs with habove hover
  · exact not_over_singleton hframe
  · rintro (hlen | hbytes | hdur)
    · rw [List.length_append, List.length_singleton] at hlen
      omega
    · exact hover (Or.inl hbytes)
    · exact hover (Or.inr hdur)
  · simp [Over]

/-- The candidate run stays at the end of the history. -/
theorem nextRun_suffix (h : run <:+ frames) : c.nextRun run frame <:+ frames ++ [frame] := by
  rw [nextRun]
  split_ifs
  · exact List.suffix_append _ _
  · obtain ⟨dropped, rfl⟩ := h
    exact ⟨dropped, by rw [List.append_assoc]⟩
  · exact List.nil_suffix

theorem nextRun_loud (h : ∀ f ∈ run, isAbove f c.speechStartThreshold) :
    ∀ f ∈ c.nextRun run frame, isAbove f c.speechStartThreshold := by
  intro f hf
  rw [nextRun] at hf
  split_ifs at hf with habove
  · rwa [List.mem_singleton.mp hf]
  · rcases List.mem_append.mp hf with hf | hf
    · exact h f hf
    · rwa [List.mem_singleton.mp hf]
  · cases hf

end EnergyVadConfig

namespace EnergyVoiceActivityDetector

open EnergyVadConfig

variable {uuid5 : UUID → String → UUID} {d d' : EnergyVoiceActivityDetector}
  {frame : PcmFrame} {run act past seen : List PcmFrame}

/-! ### What the parts of `process` leave -/

/-- The detector with another history. -/
def keep (d : EnergyVoiceActivityDetector) (l : List PcmFrame) : EnergyVoiceActivityDetector :=
  { d with
    history := l
    historyBytes := byteCount l
    historyDurationNs := audioDurationNs l }

/-- The detector with another candidate run. -/
def follow (d : EnergyVoiceActivityDetector) (run : List PcmFrame) : EnergyVoiceActivityDetector :=
  { d with
    candidateCount := run.length
    candidateBytes := byteCount run
    candidateDurationNs := audioDurationNs run
    candidateStartNs := run.head?.map (·.capturedAtMonotonicNs)
    candidateStartSequence := run.head?.map (·.sequence) }

/-- The detector without an utterance. -/
def cleared (d : EnergyVoiceActivityDetector) : EnergyVoiceActivityDetector :=
  { d with
    activeFrames := none
    activeBytes := 0
    activeDurationNs := 0
    utteranceId := none
    speechStartedAtNs := none
    silenceCount := 0
    silenceStartedAtNs := none }.follow []

/-- The history is counted. -/
def HistoryCounted (d : EnergyVoiceActivityDetector) : Prop :=
  d.historyBytes = byteCount d.history ∧ d.historyDurationNs = audioDurationNs d.history

/-- The candidate run is counted. -/
structure Follows (d : EnergyVoiceActivityDetector) (run : List PcmFrame) : Prop where
  count : d.candidateCount = run.length
  bytes : d.candidateBytes = byteCount run
  duration : d.candidateDurationNs = audioDurationNs run
  startNs : d.candidateStartNs = run.head?.map (·.capturedAtMonotonicNs)
  startSequence : d.candidateStartSequence = run.head?.map (·.sequence)

theorem follow_follows : (d.follow run).Follows run := ⟨rfl, rfl, rfl, rfl, rfl⟩

theorem outcome_resetCandidate : outcome resetCandidate d = (.ok (), d.follow []) := rfl

theorem outcome_clearUtterance : outcome clearUtterance d = (.ok (), d.cleared) := rfl

theorem historyOver_iff (h : d.HistoryCounted) : d.historyOver ↔ d.config.Over d.history := by
  rw [historyOver, Over, h.1, h.2]
  omega

/-- Dropping the oldest frames leaves the longest end that fits, and never runs out of frames. -/
theorem outcome_dropOldest : ∀ (l : List PcmFrame) {d : EnergyVoiceActivityDetector},
    d.history = l → d.HistoryCounted →
      outcome (dropOldest l) d = (.ok (), d.keep (d.config.fitting l))
  | [], d, hl, hc => by
    have hover : ¬d.historyOver := by
      rw [historyOver_iff hc, hl]
      simp [Over]
    have hkeep : d.keep [] = d := by
      rw [← hl, keep, ← hc.1, ← hc.2]
    rw [dropOldest, outcome_get_bind, if_neg hover, fitting, hkeep]
    rfl
  | removed :: rest, d, hl, hc => by
    rw [dropOldest, outcome_get_bind, fitting]
    by_cases hover : d.historyOver
    · have hover' := (historyOver_iff hc).mp hover
      rw [hl] at hover'
      rw [if_pos hover, if_pos hover', outcome_modify_bind, outcome_modify_bind,
        outcome_modify_bind]
      refine (outcome_dropOldest rest rfl ⟨?_, ?_⟩).trans rfl
      · rw [hc.1, hl, byteCount_cons]
        push_cast
        omega
      · rw [hc.2, hl, audioDurationNs_cons]
        push_cast
        omega
    · have hover' := mt (historyOver_iff hc).mpr hover
      rw [hl] at hover'
      rw [if_neg hover, if_neg hover', ← hl, keep, ← hc.1, ← hc.2]
      rfl

theorem outcome_rememberIdleFrame (h : d.HistoryCounted) :
    outcome (rememberIdleFrame frame) d =
      (.ok (), d.keep (d.config.fitting (d.history ++ [frame]))) := by
  rw [rememberIdleFrame, outcome_modify_bind, outcome_modify_bind, outcome_modify_bind,
    outcome_get_bind]
  refine (outcome_dropOldest _ rfl ⟨?_, ?_⟩).trans rfl
  · simp [h.1]
  · simp [h.2]

theorem outcome_countCandidate (h : d.Follows run) :
    outcome (countCandidate frame) d = (.ok (), d.follow (d.config.nextRun run frame)) := by
  rw [countCandidate, outcome_get_bind, nextRun]
  by_cases habove : isAbove frame d.config.speechStartThreshold = true
  · rw [if_pos habove, if_pos habove]
    have hbytes : (d.config.maxUtteranceBytes : ℤ) < d.candidateBytes + frame.pcm.length ↔
        d.config.maxUtteranceBytes < byteCount (run ++ [frame]) := by
      rw [h.bytes, byteCount_append, byteCount_cons, byteCount_nil]
      omega
    have hdur : (d.config.maxUtteranceDurationNs : ℤ) < d.candidateDurationNs + frame.durationNs ↔
        d.config.maxUtteranceDurationNs < audioDurationNs (run ++ [frame]) := by
      rw [h.duration, audioDurationNs_append, audioDurationNs_cons, audioDurationNs_nil]
      omega
    simp only [hbytes, hdur]
    split_ifs with hover
    · have hzero : (d.follow []).candidateCount = 0 := rfl
      rw [outcome_bind_of_ok outcome_resetCandidate, outcome_get_bind, if_pos hzero]
      simp [follow]
    · -- the first frame of a run is where it starts
      rcases run with _ | ⟨f, fs⟩
      · have hzero : d.candidateCount = 0 := h.count
        rw [outcome_get_bind, if_pos hzero]
        simp [follow, h.count, h.bytes, h.duration]
      · have hpos : d.candidateCount ≠ 0 := by simp [h.count]
        rw [outcome_get_bind, if_neg hpos]
        simp [follow, h.count, h.bytes, h.duration, h.startNs, h.startSequence]
        omega
  · rw [if_neg habove, if_neg habove]
    rfl

/-! ### Starting and finishing an utterance -/

/-- The detector at the start of an utterance. -/
def begun (d : EnergyVoiceActivityDetector) (utteranceId : UUID) (first : PcmFrame) :
    EnergyVoiceActivityDetector :=
  { (d.keep []).follow [] with
    activeFrames := some d.history
    activeBytes := byteCount d.history
    activeDurationNs := audioDurationNs d.history
    utteranceId := some utteranceId
    speechStartedAtNs := some first.capturedAtMonotonicNs
    silenceCount := 0
    silenceStartedAtNs := none }

theorem outcome_startUtterance {streamId : UUID} {first : PcmFrame}
    (hstream : d.streamId = some streamId) (hrun : d.Follows run) (hfirst : run.head? = some first)
    (hc : d.HistoryCounted) :
    outcome (startUtterance uuid5 frame) d =
      (.ok ⟨streamId, uuid5 streamId (speechName first.sequence), first.capturedAtMonotonicNs,
          frame.sequence, d.history.countP fun f => f.sequence < first.sequence⟩,
        d.begun (uuid5 streamId (speechName first.sequence)) first) := by
  have hns : d.candidateStartNs = some first.capturedAtMonotonicNs := by
    rw [hrun.startNs, hfirst]
    rfl
  have hseq : d.candidateStartSequence = some first.sequence := by
    rw [hrun.startSequence, hfirst]
    rfl
  have hreq : outcome requireStreamId d = (.ok streamId, d) := by
    rw [requireStreamId, require, outcome_get_bind, hstream]
    rfl
  have hreqNs : outcome requireCandidateStartNs d = (.ok first.capturedAtMonotonicNs, d) := by
    rw [requireCandidateStartNs, require, outcome_get_bind, hns]
    rfl
  have hreqSeq : outcome requireCandidateStartSequence d = (.ok first.sequence, d) := by
    rw [requireCandidateStartSequence, require, outcome_get_bind, hseq]
    rfl
  rw [startUtterance, outcome_bind_of_ok hreq, outcome_bind_of_ok hreqNs,
    outcome_bind_of_ok hreqSeq, outcome_get_bind, outcome_modify_bind, outcome_modify_bind,
    outcome_bind_of_ok outcome_resetCandidate, outcome_modify_bind, hc.1, hc.2]
  rfl

/-- The frames are in order, and of the stream and the format of the detector. -/
structure Carries (d : EnergyVoiceActivityDetector) (seen : List PcmFrame) : Prop where
  inOrder : InOrder seen
  streamId : ∀ f ∈ seen, d.streamId = some f.streamId
  format : ∀ f ∈ seen, d.format = some f.format

theorem Carries.left {l l' : List PcmFrame} (h : d.Carries (l ++ l')) : d.Carries l :=
  ⟨(List.pairwise_append.mp h.inOrder).1, fun f hf => h.streamId f (List.mem_append_left _ hf),
    fun f hf => h.format f (List.mem_append_left _ hf)⟩

/-- A detector in an utterance; `first` is the first frame of the run that began it. -/
structure Active (d : EnergyVoiceActivityDetector) (act : List PcmFrame) (utteranceId : UUID)
    (first : PcmFrame) : Prop where
  activeFrames : d.activeFrames = some act
  first_mem : first ∈ act
  history : d.history = []
  historyCounted : d.HistoryCounted
  follows : d.Follows []
  activeBytes : d.activeBytes = byteCount act
  activeDurationNs : d.activeDurationNs = audioDurationNs act
  utteranceId : d.utteranceId = some utteranceId
  speechStartedAtNs : d.speechStartedAtNs = some first.capturedAtMonotonicNs
  silenceStartedAtNs : ∀ t ∈ d.silenceStartedAtNs, first.capturedAtMonotonicNs ≤ t ∧
    ∃ f ∈ act, t = f.capturedAtMonotonicNs
  within : d.config.Within act

variable {utteranceId : UUID} {first : PcmFrame}

/-- **Finishing an utterance** hands out its frames, and no check of theirs fails. -/
theorem outcome_finishUtterance (reason : UtteranceEndReason) (h : d.Active act utteranceId first)
    (hstream : d.Carries (past ++ act)) :
    ∃ ended : VadSpeechEnded, outcome (finishUtterance reason) d = (.ok ended, d.cleared) ∧
      ended.utteranceId = utteranceId ∧ ended.reason = reason ∧
      ended.utterance.utteranceId = utteranceId ∧ ended.utterance.frames = act ∧
      some ended.streamId = d.streamId ∧
      (reason = .silence → ∀ t ∈ d.silenceStartedAtNs, ended.atMonotonicNs = t) := by
  have hmem : first ∈ past ++ act := List.mem_append_right _ h.first_mem
  have horder : InOrder act := (List.pairwise_append.mp hstream.inOrder).2.1
  have hid := hstream.streamId first hmem
  have hfmt := hstream.format first hmem
  obtain ⟨head, hhead⟩ : ∃ head, act.head? = some head := by
    rw [← Option.isSome_iff_exists, List.isSome_head?]
    exact List.ne_nil_of_mem h.first_mem
  obtain ⟨last, hlast⟩ : ∃ last, act.getLast? = some last := by
    rw [← Option.isSome_iff_exists, List.getLast?_isSome]
    exact List.ne_nil_of_mem h.first_mem
  -- the speech ends within the frames, whichever end is taken
  obtain ⟨speechEnd, hend, hstart_le, hle_last, hsilence⟩ : ∃ speechEnd,
      outcome (speechEndNs reason act) d = (.ok speechEnd, d) ∧
      first.capturedAtMonotonicNs ≤ speechEnd ∧ speechEnd ≤ last.endMonotonicNs ∧
      (reason = .silence → ∀ t ∈ d.silenceStartedAtNs, speechEnd = t) := by
    rw [speechEndNs, outcome_get_bind]
    cases hs : (if reason = .silence then d.silenceStartedAtNs else none) with
    | some since =>
      have hsil : d.silenceStartedAtNs = some since := by
        split_ifs at hs
        exact hs
      obtain ⟨hle, f, hf, rfl⟩ := h.silenceStartedAtNs since hsil
      exact ⟨_, rfl, hle, horder.le_getLast hlast hf,
        fun _ t ht => Option.some.inj (hsil.symm.trans ht)⟩
    | none =>
      rw [hlast]
      refine ⟨_, rfl, horder.le_getLast hlast h.first_mem, Nat.le_refl _, ?_⟩
      rintro rfl t ht
      rw [if_pos rfl] at hs
      exact absurd (hs.symm.trans ht) (by simp)
  let u : PcmUtteranceFields := ⟨utteranceId, first.streamId, first.format, act,
    first.capturedAtMonotonicNs, speechEnd, reason⟩
  have hvalid : u.postInit = .ok () := by
    refine PcmUtteranceFields.postInit_ok hhead hlast (fun f hf => ?_) (fun f hf => ?_) horder
      (horder.head_le hhead h.first_mem) hstart_le hle_last
    · have hf' := hstream.streamId f (List.mem_append_right _ hf)
      exact Option.some.inj (hf'.symm.trans hid)
    · have hf' := hstream.format f (List.mem_append_right _ hf)
      exact Option.some.inj (hf'.symm.trans hfmt)
  have hcreate : outcome (createUtterance u) d = (.ok ⟨u, hvalid⟩, d) := by
    rw [createUtterance, PcmUtterance.create_of_valid hvalid]
    rfl
  have hreqFrames : outcome requireActiveFrames d = (.ok act, d) := by
    rw [requireActiveFrames, require, outcome_get_bind, h.activeFrames]
    rfl
  have hreqStream : outcome requireStreamId d = (.ok first.streamId, d) := by
    rw [requireStreamId, require, outcome_get_bind, hid]
    rfl
  have hreqFormat : outcome requireFormat d = (.ok first.format, d) := by
    rw [requireFormat, require, outcome_get_bind, hfmt]
    rfl
  have hreqId : outcome requireUtteranceId d = (.ok utteranceId, d) := by
    rw [requireUtteranceId, require, outcome_get_bind, h.utteranceId]
    rfl
  have hreqStart : outcome requireSpeechStartedAtNs d = (.ok first.capturedAtMonotonicNs, d) := by
    rw [requireSpeechStartedAtNs, require, outcome_get_bind, h.speechStartedAtNs]
    rfl
  refine ⟨⟨first.streamId, utteranceId, speechEnd, reason, ⟨u, hvalid⟩⟩, ?_, rfl, rfl, rfl, rfl,
    hid.symm, hsilence⟩
  rw [finishUtterance, outcome_bind_of_ok hreqFrames, outcome_bind_of_ok hreqStream,
    outcome_bind_of_ok hreqFormat, outcome_bind_of_ok hreqId, outcome_bind_of_ok hreqStart,
    outcome_bind_of_ok hend, outcome_bind_of_ok hcreate, outcome_bind_of_ok outcome_clearUtterance]
  rfl

/-! ### What `process` can do -/

/-- What a detector knows of its stream, and its configuration. -/
def origin (d : EnergyVoiceActivityDetector) :
    EnergyVadConfig × Option UUID × Option PcmFormat × Option ℕ × Option ℕ :=
  (d.config, d.streamId, d.format, d.lastSequence, d.lastEndNs)

theorem Carries.congr (h : d.Carries seen) (ho : d'.origin = d.origin) : d'.Carries seen := by
  simp only [origin, Prod.mk.injEq] at ho
  obtain ⟨-, hid, hfmt, -, -⟩ := ho
  exact ⟨h.inOrder, hid ▸ h.streamId, hfmt ▸ h.format⟩

theorem config_of_origin (ho : d'.origin = d.origin) : d'.config = d.config :=
  congrArg Prod.fst ho

/-- A detector between utterances; `run` is the candidate run. -/
structure Idle (d : EnergyVoiceActivityDetector) (run : List PcmFrame) : Prop where
  activeFrames : d.activeFrames = none
  activeBytes : d.activeBytes = 0
  activeDurationNs : d.activeDurationNs = 0
  historyCounted : d.HistoryCounted
  not_over : ¬d.config.Over d.history
  follows : d.Follows run
  suffix : run <:+ d.history
  loud : ∀ f ∈ run, isAbove f d.config.speechStartThreshold
  short : run.length < d.config.speechStartFrames

/-- A detector that has finished an utterance is idle, with nothing in it. -/
theorem Active.cleared_idle (h : d.Active act utteranceId first) : d.cleared.Idle [] := by
  have hhist : d.cleared.history = [] := h.history
  refine ⟨rfl, rfl, rfl, h.historyCounted, ?_, follow_follows, List.nil_suffix, by simp,
    d.config.one_le_startFrames⟩
  rw [hhist]
  simp [Over]

/-- **What an idle frame can do** to a detector with candidate run `run`. -/
inductive IdleStep (uuid5 : UUID → String → UUID) (d : EnergyVoiceActivityDetector)
    (run : List PcmFrame) (frame : PcmFrame) :
    List VadEvent → EnergyVoiceActivityDetector → Prop
  /-- The frame joins the history. -/
  | quiet {d' : EnergyVoiceActivityDetector} {dropped : List PcmFrame} : d'.origin = d.origin →
      d'.Idle (d.config.nextRun run frame) → dropped ++ d'.history = d.history ++ [frame] →
      IdleStep uuid5 d run frame [] d'
  /-- The frame completes the candidate run: the history is an utterance. -/
  | starts {d' : EnergyVoiceActivityDetector} {dropped act : List PcmFrame} {first : PcmFrame}
      {started : VadSpeechStarted} : d'.origin = d.origin →
      d'.Active act started.utteranceId first → dropped ++ act = d.history ++ [frame] →
      started.utteranceId = uuid5 frame.streamId (speechName first.sequence) →
      reachedLimitReason d' = none → IdleStep uuid5 d run frame [.started started] d'
  /-- The utterance is as large as one may be, and ends at once. -/
  | startsAndEnds {d' : EnergyVoiceActivityDetector} {dropped act : List PcmFrame}
      {first : PcmFrame} {started : VadSpeechStarted} {ended : VadSpeechEnded} :
      d'.origin = d.origin → d'.Idle [] → d'.history = [] →
      dropped ++ act = d.history ++ [frame] → first ∈ act →
      started.utteranceId = uuid5 frame.streamId (speechName first.sequence) →
      ended.utteranceId = started.utteranceId →
      ended.utterance.utteranceId = started.utteranceId → ended.utterance.frames = act →
      d.config.Within act → IdleStep uuid5 d run frame [.started started, .ended ended] d'

/-- The detector that has remembered an idle frame, and counted it. -/
def remembering (d : EnergyVoiceActivityDetector) (run : List PcmFrame) (frame : PcmFrame) :
    EnergyVoiceActivityDetector :=
  (d.keep (d.config.fitting (d.history ++ [frame]))).follow (d.config.nextRun run frame)

/-- The candidate run stays within the history. -/
theorem Idle.nextRun_suffix (h : d.Idle run) (hframe : d.config.Within [frame]) :
    d.config.nextRun run frame <:+ d.config.fitting (d.history ++ [frame]) :=
  suffix_fitting (not_over_nextRun h.short hframe) (EnergyVadConfig.nextRun_suffix h.suffix)

theorem Idle.remembering (h : d.Idle run) (hframe : d.config.Within [frame])
    (hshort : (d.config.nextRun run frame).length < d.config.speechStartFrames) :
    (d.remembering run frame).Idle (d.config.nextRun run frame) :=
  ⟨h.activeFrames, h.activeBytes, h.activeDurationNs, ⟨rfl, rfl⟩, not_over_fitting,
    follow_follows, h.nextRun_suffix hframe, nextRun_loud h.loud, hshort⟩

/-- The utterance that begins with a completed candidate run is the history. -/
theorem Idle.begun_active (h : d.Idle run) (hframe : d.config.Within [frame])
    (hfirst : (d.config.nextRun run frame).head? = some first) :
    ((d.remembering run frame).begun utteranceId first).Active
      (d.config.fitting (d.history ++ [frame])) utteranceId first := by
  have hmem := (h.nextRun_suffix hframe).subset (List.mem_of_mem_head? hfirst)
  exact ⟨rfl, hmem, rfl, ⟨rfl, rfl⟩, ⟨rfl, rfl, rfl, rfl, rfl⟩, rfl, rfl, rfl, rfl,
    by simp [begun], within_of_not_over not_over_fitting⟩

theorem outcome_processIdle (h : d.Idle run) :
    outcome (processIdle uuid5 frame) d =
      if (d.config.nextRun run frame).length < d.config.speechStartFrames then
        (.ok [], d.remembering run frame)
      else outcome (do
        let started ← startUtterance uuid5 frame
        match reachedLimitReason (← getThe EnergyVoiceActivityDetector) with
        | none => return [.started started]
        | some reason => return [.started started, .ended (← finishUtterance reason)] :
          VadM (List VadEvent)) (d.remembering run frame) := by
  have hcount : outcome (countCandidate frame) (d.keep (d.config.fitting (d.history ++ [frame]))) =
      (.ok (), d.remembering run frame) :=
    outcome_countCandidate ⟨h.follows.1, h.follows.2, h.follows.3, h.follows.4, h.follows.5⟩
  rw [processIdle, outcome_bind_of_ok (outcome_rememberIdleFrame h.historyCounted),
    outcome_bind_of_ok hcount, outcome_get_bind]
  by_cases hshort : (d.config.nextRun run frame).length < d.config.speechStartFrames
  · rw [if_pos hshort]
    exact congrArg (outcome · (d.remembering run frame)) (if_pos hshort)
  · rw [if_neg hshort]
    exact congrArg (outcome · (d.remembering run frame)) (if_neg hshort)

/-- A frame that does not complete the candidate run is remembered. -/
theorem outcome_processIdle_short (h : d.Idle run)
    (hshort : (d.config.nextRun run frame).length < d.config.speechStartFrames) :
    outcome (processIdle uuid5 frame) d = (.ok [], d.remembering run frame) := by
  rw [outcome_processIdle h, if_pos hshort]

/-- What is announced when the candidate run that begins with `first` is completed. -/
def announced (uuid5 : UUID → String → UUID) (d : EnergyVoiceActivityDetector)
    (first frame : PcmFrame) : VadSpeechStarted where
  streamId := frame.streamId
  utteranceId := uuid5 frame.streamId (speechName first.sequence)
  atMonotonicNs := first.capturedAtMonotonicNs
  triggerSequence := frame.sequence
  preRollFrameCount := (d.config.fitting (d.history ++ [frame])).countP
    fun f => f.sequence < first.sequence

/-- A frame that completes the candidate run starts an utterance, which may be at its limit. -/
theorem outcome_processIdle_long (h : d.Idle run)
    (hlong : ¬(d.config.nextRun run frame).length < d.config.speechStartFrames)
    (hstream : d.streamId = some frame.streamId)
    (hfirst : (d.config.nextRun run frame).head? = some first) :
    outcome (processIdle uuid5 frame) d = outcome (do
        match reachedLimitReason (← getThe EnergyVoiceActivityDetector) with
        | none => return [.started (announced uuid5 d first frame)]
        | some reason =>
          return [.started (announced uuid5 d first frame), .ended (← finishUtterance reason)] :
        VadM (List VadEvent))
      ((d.remembering run frame).begun (announced uuid5 d first frame).utteranceId first) := by
  have hstart : outcome (startUtterance uuid5 frame) (d.remembering run frame) = _ :=
    outcome_startUtterance hstream follow_follows hfirst ⟨rfl, rfl⟩
  rw [outcome_processIdle h, if_neg hlong, outcome_bind_of_ok hstart]
  rfl

/-- Every idle frame does one of these, and none of the detector's own checks fails. -/
theorem processIdle_step (h : d.Idle run) (hframe : d.config.Within [frame])
    (hstream : d.Carries (past ++ (d.history ++ [frame]))) :
    ∃ events d', outcome (processIdle uuid5 frame) d = (.ok events, d') ∧
      IdleStep uuid5 d run frame events d' := by
  obtain ⟨dropped, hdropped⟩ : d.config.fitting (d.history ++ [frame]) <:+ d.history ++ [frame] :=
    fitting_suffix
  by_cases hshort : (d.config.nextRun run frame).length < d.config.speechStartFrames
  · exact ⟨[], _, outcome_processIdle_short h hshort,
      .quiet rfl (h.remembering hframe hshort) hdropped⟩
  -- a run long enough to start an utterance has a first frame
  · obtain ⟨first, hfirst⟩ : ∃ first, (d.config.nextRun run frame).head? = some first := by
      rw [← Option.isSome_iff_exists, List.isSome_head?]
      intro hnil
      rw [hnil] at hshort
      exact hshort d.config.one_le_startFrames
    have hactive : ((d.remembering run frame).begun
        (announced uuid5 d first frame).utteranceId first).Active
        (d.config.fitting (d.history ++ [frame])) (announced uuid5 d first frame).utteranceId
        first := h.begun_active hframe hfirst
    rw [outcome_processIdle_long h hshort (hstream.streamId frame (by simp)) hfirst,
      outcome_get_bind]
    generalize hd' : (d.remembering run frame).begun
      (announced uuid5 d first frame).utteranceId first = d' at hactive
    have horigin : d'.origin = d.origin := by
      subst hd'
      rfl
    cases hreason : reachedLimitReason d' with
    | none => exact ⟨_, _, rfl, .starts horigin hactive hdropped rfl hreason⟩
    -- the pre-roll alone may reach a limit
    | some reason =>
      have hstream' : d'.Carries
          ((past ++ dropped) ++ d.config.fitting (d.history ++ [frame])) := by
        rw [List.append_assoc, hdropped]
        exact hstream.congr horigin
      obtain ⟨ended, hended, hendedId, -, hutterance, hframes, -⟩ :=
        outcome_finishUtterance reason hactive hstream'
      exact ⟨_, _, (outcome_bind_of_ok hended).trans rfl,
        .startsAndEnds horigin hactive.cleared_idle hactive.history hdropped hactive.first_mem rfl
          hendedId hutterance hframes (within_of_not_over not_over_fitting)⟩

/-- **What a frame can do** to a detector in an utterance of frames `act`. -/
inductive ActiveStep (uuid5 : UUID → String → UUID) (d : EnergyVoiceActivityDetector)
    (act : List PcmFrame) (utteranceId : UUID) (first frame : PcmFrame) :
    List VadEvent → EnergyVoiceActivityDetector → Prop
  /-- The frame joins the utterance. -/
  | grows {d' : EnergyVoiceActivityDetector} : d'.origin = d.origin →
      d'.Active (act ++ [frame]) utteranceId first →
      ActiveStep uuid5 d act utteranceId first frame [] d'
  /-- The frame joins the utterance and is its last. -/
  | ends {d' : EnergyVoiceActivityDetector} {ended : VadSpeechEnded} : d'.origin = d.origin →
      d'.Idle [] → d'.history = [] → ended.utteranceId = utteranceId →
      ended.utterance.utteranceId = utteranceId → ended.utterance.frames = act ++ [frame] →
      d.config.Within (act ++ [frame]) →
      ActiveStep uuid5 d act utteranceId first frame [.ended ended] d'
  /-- The utterance has no room for the frame: it ends, and the frame is an idle one. -/
  | overflows {d' : EnergyVoiceActivityDetector} {ended : VadSpeechEnded} {rest : List VadEvent} :
      ¬d.config.Within (act ++ [frame]) → ended.utteranceId = utteranceId →
      ended.utterance.utteranceId = utteranceId → ended.utterance.frames = act →
      ended.reason = .maxBytes ∨ ended.reason = .maxDuration → d.config.Within act →
      d.cleared.Idle [] → outcome (processIdle uuid5 frame) d.cleared = (.ok rest, d') →
      IdleStep uuid5 d.cleared [] frame rest d' →
      ActiveStep uuid5 d act utteranceId first frame (.ended ended :: rest) d'

/-- The detector with another utterance under way. -/
def joined (d : EnergyVoiceActivityDetector) (act : List PcmFrame) : EnergyVoiceActivityDetector :=
  { d with
    activeFrames := some act
    activeBytes := byteCount act
    activeDurationNs := audioDurationNs act }

/-- The detector that has counted a frame of an utterance as silent or not. -/
def hushed (d : EnergyVoiceActivityDetector) (frame : PcmFrame) : EnergyVoiceActivityDetector :=
  if isAbove frame d.config.speechEndThreshold then
    { d with silenceCount := 0, silenceStartedAtNs := none }
  else
    { d with
      silenceCount := d.silenceCount + 1
      silenceStartedAtNs :=
        if d.silenceCount = 0 then some frame.capturedAtMonotonicNs else d.silenceStartedAtNs }

theorem outcome_countSilence : outcome (countSilence frame) d = (.ok (), d.hushed frame) := by
  rw [countSilence, outcome_get_bind, hushed]
  split_ifs
  · rfl
  · rfl
  · rfl

/-- What `hushed` changes. -/
theorem hushed_eq (d : EnergyVoiceActivityDetector) (frame : PcmFrame) : ∃ count since,
    d.hushed frame = { d with silenceCount := count, silenceStartedAtNs := since } ∧
      ∀ t ∈ since, t ∈ d.silenceStartedAtNs ∨ t = frame.capturedAtMonotonicNs := by
  rw [hushed]
  split_ifs
  · exact ⟨0, none, rfl, by simp⟩
  · exact ⟨_, some frame.capturedAtMonotonicNs, rfl, fun t ht => Or.inr (Option.some.inj ht).symm⟩
  · exact ⟨_, d.silenceStartedAtNs, rfl, fun t ht => Or.inl ht⟩

/-- The utterance that a frame joins. -/
theorem Active.hushed (h : d.Active act utteranceId first)
    (hroom : d.config.Within (act ++ [frame])) (horder : InOrder (act ++ [frame])) :
    ((d.joined (act ++ [frame])).hushed frame).Active (act ++ [frame]) utteranceId first ∧
      ((d.joined (act ++ [frame])).hushed frame).origin = d.origin := by
  have hle : first.capturedAtMonotonicNs ≤ frame.capturedAtMonotonicNs := by
    have hbefore := ((List.pairwise_append.mp horder).2.2 first h.first_mem frame
      (List.mem_singleton_self _)).2
    exact Nat.le_trans (Nat.le_add_right _ _) hbefore
  obtain ⟨count, since, hhushed, hsince⟩ := hushed_eq (d.joined (act ++ [frame])) frame
  rw [hhushed]
  refine ⟨⟨rfl, List.mem_append_left _ h.first_mem, h.history, h.historyCounted,
    ⟨h.follows.1, h.follows.2, h.follows.3, h.follows.4, h.follows.5⟩, rfl, rfl, h.utteranceId,
    h.speechStartedAtNs, fun t ht => ?_, hroom⟩, rfl⟩
  rcases hsince t ht with ht | rfl
  · obtain ⟨hfirst, f, hf, hft⟩ := h.silenceStartedAtNs t ht
    exact ⟨hfirst, f, List.mem_append_left _ hf, hft⟩
  · exact ⟨hle, frame, by simp, rfl⟩

/-- A frame that an utterance has room for joins it, and may be its last. -/
theorem outcome_processActive (h : d.Active act utteranceId first)
    (hroom : d.config.Within (act ++ [frame])) :
    outcome (processActive uuid5 frame) d = outcome (do
        match reachedLimitReason ((d.joined (act ++ [frame])).hushed frame) with
        | some reason => return [.ended (← finishUtterance reason)]
        | none =>
          if ((d.joined (act ++ [frame])).hushed frame).config.speechEndFrames ≤
              ((d.joined (act ++ [frame])).hushed frame).silenceCount then
            return [.ended (← finishUtterance .silence)]
          return [] : VadM (List VadEvent))
      ((d.joined (act ++ [frame])).hushed frame) := by
  have hbytes : d.activeBytes + frame.pcm.length = byteCount (act ++ [frame]) := by
    simp [h.activeBytes]
  have hdur : d.activeDurationNs + frame.durationNs = audioDurationNs (act ++ [frame]) := by
    simp [h.activeDurationNs]
  -- neither limit is passed, for there is room for the frame
  have hb : ¬(d.config.maxUtteranceBytes : ℤ) < byteCount (act ++ [frame]) :=
    Int.not_lt.mpr (Int.ofNat_le.mpr hroom.bytes)
  have hd : ¬(d.config.maxUtteranceDurationNs : ℤ) < audioDurationNs (act ++ [frame]) :=
    Int.not_lt.mpr (Int.ofNat_le.mpr hroom.duration)
  have hreq : outcome requireActiveFrames d = (.ok act, d) := by
    rw [requireActiveFrames, require, outcome_get_bind, h.activeFrames]
    rfl
  have hcount : outcome (countSilence frame) (d.joined (act ++ [frame])) = _ := outcome_countSilence
  rw [processActive, outcome_get_bind]
  dsimp only
  rw [hbytes, hdur, if_neg hb, if_neg hd, outcome_bind_of_ok hreq, outcome_modify_bind,
    outcome_modify_bind, outcome_modify_bind]
  refine (outcome_bind_of_ok hcount).trans ?_
  rw [outcome_get_bind]
  cases reachedLimitReason ((d.joined (act ++ [frame])).hushed frame) with
  | some reason => rfl
  | none => rfl

/-- Every frame of an utterance does one of these, and none of the detector's own checks fails. -/
theorem processActive_step (h : d.Active act utteranceId first) (hframe : d.config.Within [frame])
    (hstream : d.Carries (past ++ (act ++ [frame]))) :
    ∃ events d', outcome (processActive uuid5 frame) d = (.ok events, d') ∧
      ActiveStep uuid5 d act utteranceId first frame events d' := by
  by_cases hroom : d.config.Within (act ++ [frame])
  · obtain ⟨hactive, horigin⟩ := h.hushed hroom (List.pairwise_append.mp hstream.inOrder).2.1
    rw [outcome_processActive h hroom]
    generalize (d.joined (act ++ [frame])).hushed frame = d₂ at hactive horigin
    have hfinish (reason : UtteranceEndReason) :
        ∃ events d', outcome (do
            return [.ended (← finishUtterance reason)] : VadM (List VadEvent)) d₂ =
          (.ok events, d') ∧ ActiveStep uuid5 d act utteranceId first frame events d' := by
      obtain ⟨ended, hended, hendedId, -, hutterance, hframes, -⟩ :=
        outcome_finishUtterance reason hactive (hstream.congr horigin)
      exact ⟨_, _, (outcome_bind_of_ok hended).trans rfl, .ends horigin hactive.cleared_idle
        hactive.history hendedId hutterance hframes hroom⟩
    cases hreason : reachedLimitReason d₂ with
    | some reason => exact hfinish reason
    | none =>
      dsimp only
      split_ifs
      · exact hfinish .silence
      · exact ⟨[], d₂, rfl, .grows horigin hactive⟩
  · have hbytes : d.activeBytes + frame.pcm.length = byteCount (act ++ [frame]) := by
      simp [h.activeBytes]
    have hdur : d.activeDurationNs + frame.durationNs = audioDurationNs (act ++ [frame]) := by
      simp [h.activeDurationNs]
    rw [processActive, outcome_get_bind]
    dsimp only
    rw [hbytes, hdur]
    -- either limit ends the utterance before the frame
    have hover (reason : UtteranceEndReason) (hr : reason = .maxBytes ∨ reason = .maxDuration) :
        ∃ events d', outcome (do
            let ended ← finishUtterance reason
            return .ended ended :: (← processIdle uuid5 frame) : VadM (List VadEvent)) d =
          (.ok events, d') ∧ ActiveStep uuid5 d act utteranceId first frame events d' := by
      have hbefore : d.Carries (past ++ act) := by
        rw [← List.append_assoc] at hstream
        exact hstream.left
      obtain ⟨ended, hended, hendedId, hreason, hutterance, hframes, -⟩ :=
        outcome_finishUtterance reason h hbefore
      have hidle := h.cleared_idle
      have hcleared : d.cleared.Carries (past ++ act ++ (d.cleared.history ++ [frame])) := by
        have hnil : d.cleared.history = [] := h.history
        rw [hnil, List.nil_append, List.append_assoc]
        exact hstream.congr rfl
      obtain ⟨rest, d', hrest, hstep⟩ : ∃ rest d',
          outcome (processIdle uuid5 frame) d.cleared = (.ok rest, d') ∧
            IdleStep uuid5 d.cleared [] frame rest d' :=
        processIdle_step hidle hframe hcleared
      refine ⟨_, _, (outcome_bind_of_ok hended).trans ((outcome_bind_of_ok hrest).trans rfl),
        .overflows hroom hendedId hutterance hframes (hreason ▸ hr) h.within hidle hrest hstep⟩
    by_cases hb : (d.config.maxUtteranceBytes : ℤ) < byteCount (act ++ [frame])
    · rw [if_pos hb]
      exact hover _ (Or.inl rfl)
    · have hd : (d.config.maxUtteranceDurationNs : ℤ) < audioDurationNs (act ++ [frame]) := by
        by_contra hd
        exact hroom ⟨by omega, by omega⟩
      rw [if_neg hb, if_pos hd]
      exact hover _ (Or.inr rfl)

/-! ### Whole calls -/

/-- The frames a detector holds. -/
def retained (d : EnergyVoiceActivityDetector) : List PcmFrame := d.activeFrames.getD d.history

/-- **The invariant** of a detector that no longer holds the frames `past` of its stream. -/
structure Inv (d : EnergyVoiceActivityDetector) (past : List PcmFrame) : Prop where
  carries : d.Carries (past ++ d.retained)
  lastSequence : d.lastSequence = (past ++ d.retained).getLast?.map (·.sequence)
  lastEndNs : d.lastEndNs = (past ++ d.retained).getLast?.map PcmFrame.endMonotonicNs
  phase : (∃ run, d.Idle run) ∨ ∃ act utteranceId first, d.Active act utteranceId first

/-- The detector that has accepted a frame and not looked at it yet. -/
def accepting (d : EnergyVoiceActivityDetector) (frame : PcmFrame) : EnergyVoiceActivityDetector :=
  { d with
    streamId := some frame.streamId
    format := some frame.format
    lastSequence := some frame.sequence
    lastEndNs := some frame.endMonotonicNs }

theorem make_inv (config : EnergyVadConfig) : (make config).Inv [] := by
  refine ⟨⟨.nil, by simp [make, retained], by simp [make, retained]⟩, rfl, rfl,
    Or.inl ⟨[], rfl, rfl, rfl, ⟨rfl, rfl⟩, ?_, ⟨rfl, rfl, rfl, rfl, rfl⟩, List.nil_suffix, by simp,
      config.one_le_startFrames⟩⟩
  simp [make, Over]

/-- The frame extends what the detector knows of its stream. -/
theorem Inv.accepting_carries (h : d.Inv past) (hid : ∀ i ∈ d.streamId, frame.streamId = i)
    (hformat : ∀ i ∈ d.format, frame.format = i)
    (hseq : ∀ last ∈ d.lastSequence, last < frame.sequence)
    (hend : ∀ last ∈ d.lastEndNs, last ≤ frame.capturedAtMonotonicNs) :
    (d.accepting frame).Carries (past ++ d.retained ++ [frame]) := by
  refine ⟨h.carries.inOrder.concat fun last hlast => ⟨hseq _ ?_, hend _ ?_⟩, fun f hf => ?_,
    fun f hf => ?_⟩
  · rw [h.lastSequence, hlast]
    rfl
  · rw [h.lastEndNs, hlast]
    rfl
  · rcases List.mem_append.mp hf with hf | hf
    · exact congrArg some (hid _ (h.carries.streamId f hf))
    · rw [List.mem_singleton.mp hf]
      rfl
  · rcases List.mem_append.mp hf with hf | hf
    · exact congrArg some (hformat _ (h.carries.format f hf))
    · rw [List.mem_singleton.mp hf]
      rfl

/-- A frame is turned away, and changes nothing, or it comes next in its stream. -/
theorem validateStreamFrame_step (h : d.Inv past) (frame : PcmFrame) :
    (∃ message, outcome (validateStreamFrame frame) d = (.error (.value message), d)) ∨
      outcome (validateStreamFrame frame) d =
        (.ok (), { d with streamId := some frame.streamId, format := some frame.format }) ∧
      d.config.Within [frame] ∧ (d.accepting frame).Carries (past ++ d.retained ++ [frame]) := by
  rw [validateStreamFrame, outcome_get_bind]
  by_cases hb : d.config.maxUtteranceBytes < frame.pcm.length
  · rw [if_pos hb]
    exact Or.inl ⟨_, rfl⟩
  rw [if_neg hb]
  by_cases hd : d.config.maxUtteranceDurationNs < frame.durationNs
  · rw [if_pos hd]
    exact Or.inl ⟨_, rfl⟩
  rw [if_neg hd]
  have hwithin : d.config.Within [frame] := ⟨by simpa using hb, by simpa using hd⟩
  cases hid : d.streamId with
  | none =>
    -- a detector without a stream has seen nothing
    have hseen : past ++ d.retained = [] := by
      refine List.eq_nil_iff_forall_not_mem.mpr fun f hf => ?_
      have := h.carries.streamId f hf
      rw [hid] at this
      cases this
    have hseq : d.lastSequence = none := by rw [h.lastSequence, hseen]; rfl
    have hend : d.lastEndNs = none := by rw [h.lastEndNs, hseen]; rfl
    refine Or.inr ⟨by simp [hseq, hend], hwithin, ?_⟩
    rw [hseen]
    refine ⟨List.pairwise_singleton _ _, fun f hf => ?_, fun f hf => ?_⟩
    · rw [List.mem_singleton.mp hf]
      rfl
    · rw [List.mem_singleton.mp hf]
      rfl
  | some i =>
    dsimp only
    by_cases hi : frame.streamId ≠ i
    · rw [if_pos hi]
      exact Or.inl ⟨_, rfl⟩
    rw [if_neg hi]
    by_cases hf : some frame.format ≠ d.format
    · rw [if_pos hf]
      exact Or.inl ⟨_, rfl⟩
    rw [if_neg hf]
    by_cases hseq : ∀ last ∈ d.lastSequence, last < frame.sequence
    · by_cases hend : ∀ last ∈ d.lastEndNs, last ≤ frame.capturedAtMonotonicNs
      · have hok : frame.streamId = i := not_not.mp hi
        have hok' : some frame.format = d.format := not_not.mp hf
        refine Or.inr ⟨?_, hwithin, h.accepting_carries (fun j hj => ?_) (fun g hg => ?_) hseq hend⟩
        · have hsame : { d with streamId := some frame.streamId, format := some frame.format } =
              d := by
            rw [hok, hok', ← hid]
          rw [hsame]
          cases hl : d.lastSequence with
          | none =>
            cases he : d.lastEndNs with
            | none => rfl
            | some last => simp only [Nat.not_lt_of_le (hend last he), if_false, outcome_pure]
          | some last =>
            simp only [Nat.not_le_of_lt (hseq last hl), if_false]
            cases he : d.lastEndNs with
            | none => rfl
            | some last => simp only [Nat.not_lt_of_le (hend last he), if_false, outcome_pure]
        · rw [hid] at hj
          exact hok.trans (Option.some.inj hj)
        · exact Option.some.inj (hok'.trans hg)
      · push Not at hend
        obtain ⟨last, he, hlt⟩ := hend
        left
        cases hl : d.lastSequence with
        | none =>
          rw [Option.mem_def.mp he]
          simp only [hlt, if_true]
          exact ⟨_, rfl⟩
        | some lastSequence =>
          rw [Option.mem_def.mp he]
          simp only [Nat.not_le_of_lt (hseq lastSequence hl), hlt, if_true, if_false]
          exact ⟨_, rfl⟩
    · push Not at hseq
      obtain ⟨last, hl, hle⟩ := hseq
      rw [Option.mem_def.mp hl]
      simp only [hle, if_true]
      exact Or.inl ⟨_, rfl⟩

/-- A frame that comes next in its stream, and that an utterance has room for, is not turned
away. -/
theorem validateStreamFrame_ok (hwithin : d.config.Within [frame])
    (hid : ∀ i ∈ d.streamId, i = frame.streamId)
    (hformat : d.streamId.isSome → d.format = some frame.format)
    (hseq : ∀ last ∈ d.lastSequence, last < frame.sequence)
    (hend : ∀ last ∈ d.lastEndNs, last ≤ frame.capturedAtMonotonicNs) :
    ∃ d', outcome (validateStreamFrame frame) d = (.ok (), d') := by
  have hbytes : ¬d.config.maxUtteranceBytes < frame.pcm.length := by simpa using hwithin.bytes
  have hduration : ¬d.config.maxUtteranceDurationNs < frame.durationNs := by
    simpa using hwithin.duration
  have hseq (last : ℕ) (h : d.lastSequence = some last) : ¬frame.sequence ≤ last :=
    not_le.mpr (hseq last h)
  have hend (last : ℕ) (h : d.lastEndNs = some last) : ¬frame.capturedAtMonotonicNs < last :=
    not_lt.mpr (hend last h)
  rw [validateStreamFrame, outcome_get_bind, if_neg hbytes, if_neg hduration]
  rcases hi : d.streamId with _ | i
  · rcases hl : d.lastSequence with _ | last <;> rcases he : d.lastEndNs with _ | lastEnd
    · exact ⟨_, rfl⟩
    · simp only [if_neg (hend lastEnd he)]
      exact ⟨_, rfl⟩
    · simp only [if_neg (hseq last hl)]
      exact ⟨_, rfl⟩
    · simp only [if_neg (hseq last hl), if_neg (hend lastEnd he)]
      exact ⟨_, rfl⟩
  -- the stream is known: its identifier and its format are those of the frame
  · obtain rfl := hid i hi
    have hsame : ¬some frame.format ≠ d.format := by
      rw [hformat (by rw [hi]; rfl), not_not]
    simp only [ne_eq, not_true_eq_false, if_false, if_neg hsame]
    rcases hl : d.lastSequence with _ | last <;> rcases he : d.lastEndNs with _ | lastEnd
    · exact ⟨_, rfl⟩
    · simp only [if_neg (hend lastEnd he)]
      exact ⟨_, rfl⟩
    · simp only [if_neg (hseq last hl)]
      exact ⟨_, rfl⟩
    · simp only [if_neg (hseq last hl), if_neg (hend lastEnd he)]
      exact ⟨_, rfl⟩

/-- **What `process` can do** with a frame it accepts. -/
inductive ProcessStep (uuid5 : UUID → String → UUID) (d : EnergyVoiceActivityDetector)
    (frame : PcmFrame) : List VadEvent → EnergyVoiceActivityDetector → Prop
  | idle {run : List PcmFrame} {events : List VadEvent} {d' : EnergyVoiceActivityDetector} :
      d.Idle run → IdleStep uuid5 (d.accepting frame) run frame events d' →
      ProcessStep uuid5 d frame events d'
  | active {act : List PcmFrame} {utteranceId : UUID} {first : PcmFrame} {events : List VadEvent}
      {d' : EnergyVoiceActivityDetector} : d.Active act utteranceId first →
      ActiveStep uuid5 (d.accepting frame) act utteranceId first frame events d' →
      ProcessStep uuid5 d frame events d'

theorem Idle.retained (h : d.Idle run) : d.retained = d.history := by
  rw [EnergyVoiceActivityDetector.retained, h.activeFrames]
  rfl

theorem Active.retained (h : d.Active act utteranceId first) : d.retained = act := by
  rw [EnergyVoiceActivityDetector.retained, h.activeFrames]
  rfl

theorem Idle.accepting (h : d.Idle run) (frame : PcmFrame) : (d.accepting frame).Idle run :=
  ⟨h.activeFrames, h.activeBytes, h.activeDurationNs, h.historyCounted, h.not_over,
    ⟨h.follows.1, h.follows.2, h.follows.3, h.follows.4, h.follows.5⟩, h.suffix, h.loud, h.short⟩

theorem Active.accepting (h : d.Active act utteranceId first) (frame : PcmFrame) :
    (d.accepting frame).Active act utteranceId first :=
  ⟨h.activeFrames, h.first_mem, h.history, h.historyCounted,
    ⟨h.follows.1, h.follows.2, h.follows.3, h.follows.4, h.follows.5⟩, h.activeBytes,
    h.activeDurationNs, h.utteranceId, h.speechStartedAtNs, h.silenceStartedAtNs, h.within⟩

/-- **`process` turns a frame away and changes nothing, or it does one of its steps.** A
frame is turned away by the checks of the input; none of the detector's own checks ever
fails. -/
theorem process_step (uuid5 : UUID → String → UUID) (h : d.Inv past) (frame : PcmFrame) :
    (∃ message, outcome (validateStreamFrame frame) d = (.error (.value message), d) ∧
      outcome (process uuid5 frame) d = (.error (.value message), d)) ∨
      ∃ events d', outcome (process uuid5 frame) d = (.ok events, d') ∧
        (d.accepting frame).Carries (past ++ d.retained ++ [frame]) ∧
        ProcessStep uuid5 d frame events d' := by
  rcases validateStreamFrame_step h frame with ⟨message, herr⟩ | ⟨hok, hwithin, hcarries⟩
  · exact Or.inl ⟨message, herr, outcome_bind_of_error herr⟩
  · refine Or.inr ?_
    rw [process, outcome_bind_of_ok hok, outcome_modify_bind, outcome_modify_bind,
      outcome_get_bind]
    change ∃ events d', outcome (if (d.accepting frame).speechActive then
      processActive uuid5 frame else processIdle uuid5 frame) (d.accepting frame) = _ ∧ _
    rcases h.phase with ⟨run, hidle⟩ | ⟨act, utteranceId, first, hactive⟩
    -- no utterance is under way
    · have hnot : (d.accepting frame).speechActive = false := by
        rw [speechActive, (hidle.accepting frame).activeFrames]
        rfl
      have hframes := hcarries
      rw [hidle.retained, List.append_assoc] at hframes
      obtain ⟨events, d', hout, hstep⟩ :
          ∃ events d', outcome (processIdle uuid5 frame) (d.accepting frame) = (.ok events, d') ∧
            IdleStep uuid5 (d.accepting frame) run frame events d' :=
        processIdle_step (hidle.accepting frame) hwithin hframes
      rw [hnot]
      exact ⟨events, d', hout, hcarries, .idle hidle hstep⟩
    -- the frame is for the utterance under way
    · have hyes : (d.accepting frame).speechActive = true := by
        rw [speechActive, (hactive.accepting frame).activeFrames]
        rfl
      have hframes := hcarries
      rw [hactive.retained, List.append_assoc] at hframes
      obtain ⟨events, d', hout, hstep⟩ :
          ∃ events d', outcome (processActive uuid5 frame) (d.accepting frame) = (.ok events, d') ∧
            ActiveStep uuid5 (d.accepting frame) act utteranceId first frame events d' :=
        processActive_step (hactive.accepting frame) hwithin hframes
      rw [hyes]
      exact ⟨events, d', hout, hcarries, .active hactive hstep⟩

/-- The phase a step leads to, and the frames that stay. -/
theorem IdleStep.phase {events : List VadEvent} (h : IdleStep uuid5 d run frame events d') :
    d'.origin = d.origin ∧ (∃ dropped, dropped ++ d'.retained = d.history ++ [frame]) ∧
      ((∃ run, d'.Idle run) ∨ ∃ act utteranceId first, d'.Active act utteranceId first) := by
  cases h with
  | @quiet _ dropped ho hidle hd =>
    exact ⟨ho, ⟨dropped, by rw [hidle.retained, hd]⟩, Or.inl ⟨_, hidle⟩⟩
  | @starts _ dropped _ _ _ ho hactive hd =>
    exact ⟨ho, ⟨dropped, by rw [hactive.retained, hd]⟩, Or.inr ⟨_, _, _, hactive⟩⟩
  | @startsAndEnds _ dropped act _ _ _ ho hidle hnil hd =>
    exact ⟨ho, ⟨dropped ++ act, by rw [hidle.retained, hnil, List.append_nil, hd]⟩,
      Or.inl ⟨_, hidle⟩⟩

theorem ActiveStep.phase {events : List VadEvent}
    (h : ActiveStep uuid5 d act utteranceId first frame events d') (hnil : d.history = []) :
    d'.origin = d.origin ∧ (∃ dropped, dropped ++ d'.retained = act ++ [frame]) ∧
      ((∃ run, d'.Idle run) ∨ ∃ act utteranceId first, d'.Active act utteranceId first) := by
  cases h with
  | grows ho hactive =>
    exact ⟨ho, ⟨[], by rw [hactive.retained, List.nil_append]⟩, Or.inr ⟨_, _, _, hactive⟩⟩
  | ends ho hidle hempty =>
    exact ⟨ho, ⟨act ++ [frame], by rw [hidle.retained, hempty, List.append_nil]⟩,
      Or.inl ⟨_, hidle⟩⟩
  | overflows _ _ _ _ _ _ _ _ hstep =>
    obtain ⟨ho, ⟨dropped, hd⟩, hphase⟩ := hstep.phase
    refine ⟨ho, ⟨act ++ dropped, ?_⟩, hphase⟩
    rw [List.append_assoc, hd]
    change act ++ (d.history ++ [frame]) = _
    rw [hnil]
    rfl

/-- **A step keeps the invariant**, and no frame is lost to it. -/
theorem ProcessStep.inv {events : List VadEvent} (hstep : ProcessStep uuid5 d frame events d')
    (hcarries : (d.accepting frame).Carries (past ++ d.retained ++ [frame])) :
    (∃ past', d'.Inv past' ∧ past' ++ d'.retained = past ++ d.retained ++ [frame]) ∧
      d'.config = d.config := by
  obtain ⟨ho, ⟨dropped, hd⟩, hphase⟩ : d'.origin = (d.accepting frame).origin ∧
      (∃ dropped, dropped ++ d'.retained = d.retained ++ [frame]) ∧
      ((∃ run, d'.Idle run) ∨ ∃ act utteranceId first, d'.Active act utteranceId first) := by
    cases hstep with
    | idle hidle hstep =>
      rw [hidle.retained]
      exact hstep.phase
    | active hactive hstep =>
      rw [hactive.retained]
      exact hstep.phase hactive.history
  have hall : past ++ dropped ++ d'.retained = past ++ d.retained ++ [frame] := by
    rw [List.append_assoc, hd, List.append_assoc]
  refine ⟨⟨past ++ dropped, ⟨hall ▸ hcarries.congr ho, ?_, ?_, hphase⟩, hall⟩,
    (config_of_origin ho).trans rfl⟩
  · rw [hall, show d'.lastSequence = _ from congrArg (·.2.2.2.1) ho]
    rw [List.getLast?_concat]
    rfl
  · rw [hall, show d'.lastEndNs = _ from congrArg (·.2.2.2.2) ho]
    rw [List.getLast?_concat]
    rfl

/-- **Finishing a stream** hands out the utterance under way, if there is one, and leaves a
detector as it was made. -/
theorem outcome_finishStream (h : d.Inv past) :
    ∃ event, outcome finishStream d = (.ok event, make d.config) ∧
      ((event = none ∧ ∃ run, d.Idle run) ∨
        ∃ ended act utteranceId first, event = some ended ∧ d.Active act utteranceId first ∧
          ended.utteranceId = utteranceId ∧ ended.utterance.utteranceId = utteranceId ∧
          ended.utterance.frames = act) := by
  rw [finishStream, outcome_get_bind]
  rcases h.phase with ⟨run, hidle⟩ | ⟨act, utteranceId, first, hactive⟩
  · have hnot : d.speechActive = false := by
      rw [speechActive, hidle.activeFrames]
      rfl
    rw [hnot]
    exact ⟨none, rfl, Or.inl ⟨rfl, run, hidle⟩⟩
  · have hyes : d.speechActive = true := by
      rw [speechActive, hactive.activeFrames]
      rfl
    have hcarries := h.carries
    rw [hactive.retained] at hcarries
    obtain ⟨ended, hended, hid, -, hutterance, hframes, -⟩ :=
      outcome_finishUtterance .streamEnded hactive hcarries
    have hmap : outcome (some <$> finishUtterance .streamEnded) d = (.ok (some ended), d.cleared) :=
      (outcome_bind_of_ok hended).trans rfl
    rw [hyes]
    exact ⟨some ended, (outcome_bind_of_ok hmap).trans rfl,
      Or.inr ⟨ended, act, utteranceId, first, rfl, hactive, hid, hutterance, hframes⟩⟩

end EnergyVoiceActivityDetector

end Eeveetuber
