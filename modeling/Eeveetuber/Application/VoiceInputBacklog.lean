import Eeveetuber.Application.VoiceInputFreshness

/-!
# The backlog of a coordinator

An utterance that the detector has ended is queued, unless the queue is full: then the sink is
told of a failure. The jobs in the queue are not looked at, so that it may be full of jobs that
are superseded, as all of them are when an utterance ends (`Eeveetuber.VoiceInput.Ledger`).

While the calls of a coordinator are made one after the other, and the sink raises nothing,
**every utterance is queued once or is one failure**, and each end of an utterance has the
start it needs (`Eeveetuber.VoiceInput.utterances_accounted`). What carries it is
`Eeveetuber.VoiceInput.Tracked`: the events that a suspended call has not come to yet lead from
the active utterance of the coordinator to that of the detector.
-/

namespace Eeveetuber

open Foundation Stateful

namespace VadEvent

/-- Whether speech is active behind some events, unless one ends what was not started. -/
def speechAfter : Bool → List VadEvent → Option Bool
  | active, [] => some active
  | _, .started _ :: rest => speechAfter true rest
  | true, .ended _ :: rest => speechAfter false rest
  | false, .ended _ :: _ => none

end VadEvent

namespace EnergyVoiceActivityDetector

open VadEvent (speechAfter)

variable {uuid5 : UUID → String → UUID} {d d' : EnergyVoiceActivityDetector} {frame : PcmFrame}
  {run act : List PcmFrame} {utteranceId : UUID} {first : PcmFrame} {events : List VadEvent}

theorem Idle.not_speechActive (h : d.Idle run) : d.speechActive = false := by
  rw [speechActive, h.activeFrames]
  rfl

theorem Active.speechActive (h : d.Active act utteranceId first) : d.speechActive = true := by
  rw [EnergyVoiceActivityDetector.speechActive, h.activeFrames]
  rfl

theorem IdleStep.speechAfter (h : IdleStep uuid5 d run frame events d') :
    speechAfter false events = some d'.speechActive := by
  cases h with
  | quiet _ hidle _ =>
    rw [hidle.not_speechActive]
    rfl
  | starts _ hactive _ _ _ =>
    rw [hactive.speechActive]
    rfl
  | startsAndEnds _ hidle _ _ _ _ _ _ _ _ =>
    rw [hidle.not_speechActive]
    rfl

/-- **The events of a frame lead from one phase of the detector to the other.** -/
theorem ProcessStep.speechAfter (h : ProcessStep uuid5 d frame events d') :
    speechAfter d.speechActive events = some d'.speechActive := by
  cases h with
  | idle hidle hstep =>
    rw [hidle.not_speechActive]
    exact hstep.speechAfter
  | active hactive hstep =>
    rw [hactive.speechActive]
    cases hstep with
    | grows _ hgrown =>
      rw [hgrown.speechActive]
      rfl
    | ends _ hidle _ _ _ _ _ =>
      rw [hidle.not_speechActive]
      rfl
    | overflows _ _ _ _ _ _ _ _ hrest => exact hrest.speechAfter

end EnergyVoiceActivityDetector

namespace UtteranceFate

/-- The job of an utterance that is queued. -/
def job (fate : UtteranceFate) : RecognitionJob := ⟨fate.speechEpoch, fate.ended.utterance⟩

/-- The failure of an utterance that is not. -/
def rejection (fate : UtteranceFate) : UUID × String :=
  (fate.ended.utteranceId, "VoiceInputBackpressure")

end UtteranceFate

/-- The events that a call has not come to yet. -/
def VoiceCall.rest : VoiceCall → List VadEvent
  | .announcing rest | .rejecting rest => rest
  | .starting | .rejectingLast | .stopping | .closing | .releasing => []

/-- Whether what a call awaits is a call of the sink. -/
def VoiceCall.tellsSink : VoiceCall → Bool
  | .closing | .releasing => false
  | .starting | .announcing _ | .rejecting _ | .rejectingLast | .stopping => true

namespace VoiceInput

open EnergyVoiceActivityDetector

open VadEvent (speechAfter)

variable {uuid5 : UUID → String → UUID} {policy : VoiceInputPolicy} {a b : AsrLane}
  {s t : VoiceInput}

/-! ### The ledger -/

/-- **Each utterance that was decided on is a job or a failure.** -/
structure Ledger (policy : VoiceInputPolicy) (a : AsrLane) : Prop where
  verdict : ∀ fate ∈ a.fates, fate.queued = !isFull policy fate.pending
  /-- Each was of the current epoch, and every job in the queue was superseded. -/
  current : ∀ fate ∈ a.fates, fate.speechEpoch = fate.current ∧
    ∀ job ∈ fate.pending, job.speechEpoch < fate.current
  queued : (a.fates.filter (·.queued)).map UtteranceFate.job = a.jobs
  rejected : a.rejections = (a.fates.filter (!·.queued)).map UtteranceFate.rejection

theorem ledger_make : Ledger policy make.lane :=
  ⟨fun _ hfate => absurd hfate List.not_mem_nil, fun _ hfate => absurd hfate List.not_mem_nil,
    rfl, rfl⟩

theorem Ledger.congr (h : Ledger policy a) (hfates : b.fates = a.fates) (hjobs : b.jobs = a.jobs)
    (hrejections : b.rejections = a.rejections) : Ledger policy b := by
  refine ⟨?_, ?_, ?_, ?_⟩
  · rw [hfates]
    exact h.verdict
  · rw [hfates]
    exact h.current
  · rw [hfates, hjobs]
    exact h.queued
  · rw [hfates, hrejections]
    exact h.rejected

/-- The active utterance ends. -/
theorem Ledger.decide (h : Ledger policy a) (hordered : Ordered a) {ended : VadSpeechEnded}
    {speechEpoch : ℕ} {queued : Bool} (hactive : a.activeUtteranceEpoch = some speechEpoch)
    (hqueued : queued = !isFull policy a.utterances)
    (hfates : b.fates = a.fates ++ [a.fate ended speechEpoch queued])
    (hjobs : b.jobs = a.jobs ++ if queued then [⟨speechEpoch, ended.utterance⟩] else [])
    (hrejections : b.rejections =
      a.rejections ++ if queued then [] else [(ended.utteranceId, "VoiceInputBackpressure")]) :
    Ledger policy b := by
  have hall {P : UtteranceFate → Prop} (hold : ∀ fate ∈ a.fates, P fate)
      (hnew : P (a.fate ended speechEpoch queued)) : ∀ fate ∈ b.fates, P fate := by
    intro fate hfate
    rw [hfates] at hfate
    rcases List.mem_append.mp hfate with hfate | hfate
    · exact hold fate hfate
    · rwa [List.mem_singleton.mp hfate]
  refine ⟨hall h.verdict hqueued, hall h.current ⟨hordered.active _ hactive, ?_⟩, ?_, ?_⟩
  · intro job hjob
    exact hordered.lt (by rw [hactive]; rfl) job (List.mem_append_right _ hjob)
  · rw [hfates, hjobs, List.filter_append, List.map_append, h.queued]
    cases queued with
    | true => rfl
    | false => rfl
  · rw [hfates, hrejections, List.filter_append, List.map_append, h.rejected]
    cases queued with
    | true => rfl
    | false => rfl

theorem Ledger.step (h : Ledger policy a) (hordered : Ordered a) (hstep : LaneStep policy a b) :
    Ledger policy b := by
  cases hstep with
  | ensure | cancel | forget | start | recognize | turn => exact h.congr rfl rfl rfl
  | queue ended speechEpoch active room =>
    exact h.decide hordered active (by rw [room]; rfl) rfl (List.append_assoc _ _ _).symm
      (List.append_nil _).symm
  | reject ended speechEpoch active full =>
    exact h.decide hordered active (by rw [full]; rfl) rfl (List.append_nil _).symm rfl
  | drain gone => exact h.congr rfl (List.append_nil _) rfl
  | get job utterances waiting queue =>
    refine h.congr rfl ?_ rfl
    change a.got ++ [job] ++ utterances = a.got ++ a.utterances
    rw [queue, List.append_assoc, List.singleton_append]

/-! ### Calls one after the other -/

/-- What is raised at the end of an utterance that was not started. -/
def unmatched : VoiceInputError := .captureState "VAD ended speech without a matching start"

/-- **What holds of a coordinator** when the events `rest` are still to be handled. -/
structure Tracked (rest : List VadEvent) (s : VoiceInput) : Prop where
  ended : s.history.ended = s.history.fates.map (·.ended) ++ rest.filterMap VadEvent.ended?
  inv : ∀ d ∈ s.detector, ∃ past, d.Inv past
  capturing : s.streamId.isSome = s.detector.isSome
  speech : speechAfter s.activeUtteranceEpoch.isSome rest = some (s.detector.any speechActive)
  matched : unmatched ∉ s.history.raised

/-- Between two calls an utterance is active as it is in the detector. -/
theorem Tracked.speechActive (h : Tracked [] s) {d : EnergyVoiceActivityDetector}
    (hd : s.detector = some d) : s.activeUtteranceEpoch.isSome = d.speechActive := by
  have hspeech := h.speech
  rw [hd] at hspeech
  exact Option.some.inj hspeech

/-- The events that are still to be handled, of the call that is suspended if there is one. -/
def restOf (call : Option VoiceCall) : List VadEvent := call.elim [] VoiceCall.rest

/-- A call that is not among those suspended has suspended, returned or raised. -/
def Sound : Except VoiceInputError (Option VoiceCall) × VoiceInput → Prop
  | (.ok call, t) => t.calls = [] ∧ Tracked (restOf call) t
  | (.error error, t) => error ≠ unmatched ∧ t.calls = [] ∧ Tracked [] t

/-- At most one call is suspended. -/
def Settled (s : VoiceInput) : Prop :=
  ∃ call : Option VoiceCall, s.calls = call.toList ∧ Tracked (restOf call) s

theorem Sound.settle {result : Except VoiceInputError (Option VoiceCall) × VoiceInput}
    (h : Sound result) : Settled (settle result) := by
  obtain ⟨error | call, t⟩ := result
  · obtain ⟨hne, hcalls, htracked⟩ := h
    refine ⟨none, hcalls, htracked.ended, htracked.inv, htracked.capturing, htracked.speech, ?_⟩
    intro hmem
    rcases List.mem_append.mp hmem with hmem | hmem
    · exact htracked.matched hmem
    · exact hne (List.mem_singleton.mp hmem).symm
  · obtain ⟨hcalls, htracked⟩ := h
    refine ⟨call, ?_, htracked.ended, htracked.inv, htracked.capturing, htracked.speech,
      htracked.matched⟩
    change t.calls ++ call.toList = _
    rw [hcalls, List.nil_append]

section Methods

variable {α : Type} {rest : List VadEvent} {k : Unit → VoiceM (Option VoiceCall)}
  {error : VoiceInputError}

theorem sound_error (hne : error ≠ unmatched) (hcalls : s.calls = []) (h : Tracked [] s) :
    Sound (.error error, s) := ⟨hne, hcalls, h⟩

theorem sound_check {c : Prop} [Decidable c] (hne : error ≠ unmatched) (hcalls : s.calls = [])
    (h : Tracked [] s) (hk : Sound (outcome (k ()) s)) :
    Sound (outcome (if c then throw error >>= k else k ()) s) := by
  by_cases hc : c
  · rw [if_pos hc]
    exact sound_error hne hcalls h
  · rwa [if_neg hc]

theorem sound_ensureOpen (hcalls : s.calls = []) (h : Tracked [] s)
    (hk : Sound (outcome (k ()) s)) : Sound (outcome (ensureOpen >>= k) s) := by
  by_cases hclosed : s.closed = true
  · have hout : outcome ensureOpen s =
        (.error (.captureState "voice input coordinator is closed"), s) := by
      rw [ensureOpen, outcome_get_bind, if_pos hclosed]
      rfl
    rw [outcome_bind_of_error hout]
    exact sound_error (by decide) hcalls h
  · have hout : outcome ensureOpen s = (.ok (), s) := by
      rw [ensureOpen, outcome_get_bind, if_neg hclosed]
      rfl
    rwa [outcome_bind_of_ok hout]

theorem sound_requireDetector {g : EnergyVoiceActivityDetector → VoiceM (Option VoiceCall)}
    (hcalls : s.calls = []) (h : Tracked [] s)
    (hg : ∀ d, s.detector = some d → Sound (outcome (g d) s)) :
    Sound (outcome (requireDetector >>= g) s) := by
  have hraise (hout : outcome requireDetector s =
      (.error (.captureState "no voice capture stream is active"), s)) :
      Sound (outcome (requireDetector >>= g) s) := by
    rw [outcome_bind_of_error hout]
    exact sound_error (by decide) hcalls h
  rcases hd : s.detector with _ | d
  · exact hraise (by rw [requireDetector, outcome_get_bind, hd]; rfl)
  · rcases hi : s.streamId with _ | i
    · exact hraise (by rw [requireDetector, outcome_get_bind, hd, hi]; rfl)
    · have hout : outcome requireDetector s = (.ok d, s) := by
        rw [requireDetector, outcome_get_bind, hd, hi]
        rfl
      rw [outcome_bind_of_ok hout]
      exact hg d hd

/-- The active utterance is queued or rejected. It is active, as the event was to be handled. -/
theorem sound_enqueue {r : List VadEvent} {ended : VadSpeechEnded}
    {k : Bool → VoiceM (Option VoiceCall)} (hcalls : s.calls = [])
    (h : Tracked (.ended ended :: r) s)
    (hk : ∀ queued t, t.calls = [] → Tracked r t → Sound (outcome (k queued) t)) :
    Sound (outcome (do
      let speechEpoch ← takeUtteranceEpoch
      let queued ← enqueueUtterance policy ended speechEpoch
      k queued) s) := by
  have hspeech := h.speech
  rcases hactive : s.activeUtteranceEpoch with _ | speechEpoch
  · rw [hactive] at hspeech
    cases hspeech
  · rw [hactive] at hspeech
    rw [outcome_bind_of_ok (outcome_takeUtteranceEpoch hactive)]
    let t : VoiceInput := { s with activeUtteranceEpoch := none }
    have hended : s.history.ended =
        (s.history.fates ++ [t.lane.fate ended speechEpoch (!isFull policy t.utterances)]).map
          (·.ended) ++ r.filterMap VadEvent.ended? := by
      rw [List.map_append, List.append_assoc]
      exact h.ended
    rcases hfull : isFull policy t.utterances with _ | _
    · rw [hfull] at hended
      rw [outcome_bind_of_ok (outcome_enqueue_of_room ended speechEpoch hfull)]
      exact hk true _ hcalls ⟨hended, h.inv, h.capturing, hspeech, h.matched⟩
    · rw [hfull] at hended
      rw [outcome_bind_of_ok (outcome_enqueue_of_full ended speechEpoch hfull)]
      exact hk false _ hcalls ⟨hended, h.inv, h.capturing, hspeech, h.matched⟩

theorem sound_handleEvents : ∀ (rest : List VadEvent) (s : VoiceInput), s.calls = [] →
    Tracked rest s → Sound (outcome (handleEvents policy rest) s)
  | [], s, hcalls, h => ⟨hcalls, h⟩
  | .started _ :: rest, s, hcalls, h =>
    ⟨hcalls, h.ended, h.inv, h.capturing, h.speech, h.matched⟩
  | .ended ended :: rest, s, hcalls, h => by
    refine sound_enqueue hcalls h fun queued t hcalls h => ?_
    cases queued with
    | true => exact sound_handleEvents rest t hcalls h
    | false => exact ⟨hcalls, h⟩

theorem sound_startStream (hcalls : s.calls = []) (h : Tracked [] s) (streamId : UUID)
    (pcmFormat : PcmFormat) : Sound (outcome (startStream policy streamId pcmFormat) s) := by
  refine sound_ensureOpen hcalls h (sound_check (by decide) hcalls h ?_)
  rw [outcome_get_bind]
  by_cases hactive : s.streamId.isSome = true
  · rw [if_pos hactive]
    exact sound_error (by decide) hcalls h
  · rw [if_neg hactive]
    refine sound_check (by decide) hcalls h ⟨hcalls, h.ended, ?_, rfl, ?_, h.matched⟩
    · intro d hd
      obtain rfl := Option.some.inj hd
      exact ⟨[], make_inv policy.vad⟩
    · have hspeech := h.speech
      rw [h.capturing] at hactive
      rw [Option.not_isSome_iff_eq_none.mp hactive] at hspeech
      exact hspeech

theorem checkFrame_raises (streamId : Option UUID) (frame : PcmFrame) :
    Raises (· ≠ "VAD ended speech without a matching start") (policy.checkFrame streamId frame) :=
  .bind (.raiseIf fun _ => by decide) fun _ _ => .bind (.raiseIf fun _ => by decide) fun _ _ =>
    .bind (.raiseIf fun _ => by decide) fun _ _ => .raiseIf fun _ => by decide

theorem sound_processFrame (hcalls : s.calls = []) (h : Tracked [] s) (frame : PcmFrame) :
    Sound (outcome (processFrame uuid5 policy frame) s) := by
  refine sound_ensureOpen hcalls h (sound_requireDetector hcalls h fun d hd => ?_)
  rw [outcome_get_bind]
  rcases hcheck : policy.checkFrame s.streamId frame with message | _
  · refine sound_error (fun heq => ?_) hcalls h
    exact checkFrame_raises s.streamId frame message hcheck (VoiceInputError.captureState.inj heq)
  · obtain ⟨past, hinv⟩ := h.inv d hd
    have hopen : s.streamId.isSome = true := h.capturing.trans (by rw [hd]; rfl)
    have hspeech : s.activeUtteranceEpoch.isSome = d.speechActive := h.speechActive hd
    rcases process_step uuid5 hinv frame with
      ⟨message, -, herr⟩ | ⟨events, d', hok, hcarries, hstep⟩
    · have hne : VoiceInputError.captureState "PCM frame order or timing is invalid" ≠
          unmatched := by decide
      rw [mapError_ok, herr]
      refine sound_error hne hcalls ⟨h.ended, ?_, hopen, congrArg some hspeech, h.matched⟩
      intro d' hd'
      obtain rfl := Option.some.inj hd'
      exact ⟨past, hinv⟩
    · rw [mapError_ok, hok]
      refine sound_handleEvents events _ hcalls ⟨?_, ?_, hopen,
        (congrArg (speechAfter · events) hspeech).trans hstep.speechAfter, h.matched⟩
      · change s.history.ended ++ _ = _
        rw [h.ended, List.filterMap_nil, List.append_nil]
      · intro d'' hd''
        obtain rfl := Option.some.inj hd''
        obtain ⟨⟨past', hinv', -⟩, -⟩ := hstep.inv hcarries
        exact ⟨past', hinv'⟩

theorem sound_finishStream (hcalls : s.calls = []) (h : Tracked [] s) (streamId : UUID)
    (reason : Text) : Sound (outcome (finishStream policy streamId reason) s) := by
  refine sound_ensureOpen hcalls h (sound_check (by decide) hcalls h ?_)
  rw [outcome_get_bind]
  refine sound_check (by decide) hcalls h (sound_requireDetector hcalls h fun d hd => ?_)
  obtain ⟨past, hinv⟩ := h.inv d hd
  have hspeech : s.activeUtteranceEpoch.isSome = d.speechActive := h.speechActive hd
  have hended := h.ended
  rw [List.filterMap_nil, List.append_nil] at hended
  obtain ⟨event, hout, ⟨rfl, run, hidle⟩ | ⟨ended, act, utteranceId, first, rfl, hactive, -⟩⟩ :=
    outcome_finishStream hinv
  · rw [hout]
    refine ⟨hcalls, ?_, fun d hnone => absurd hnone (Option.not_mem_none d), rfl,
      congrArg some (hspeech.trans hidle.not_speechActive), h.matched⟩
    change s.history.ended ++ [] = s.history.fates.map (·.ended) ++ []
    rw [hended]
  · rw [hout]
    refine sound_enqueue (r := []) hcalls
      ⟨?_, fun d hnone => absurd hnone (Option.not_mem_none d), rfl, ?_, h.matched⟩
      fun queued t hcalls h => ?_
    · change s.history.ended ++ [ended] = s.history.fates.map (·.ended) ++ [ended]
      rw [hended]
    · change speechAfter s.activeUtteranceEpoch.isSome [.ended ended] = some false
      rw [hspeech, hactive.speechActive]
      rfl
    · cases queued with
      | true => exact ⟨hcalls, h⟩
      | false => exact ⟨hcalls, h⟩

theorem sound_close (hcalls : s.calls = []) (h : Tracked [] s) : Sound (outcome close s) := by
  rw [close, outcome_get_bind]
  by_cases hclosed : s.closed = true
  · rw [if_pos hclosed]
    exact ⟨hcalls, h⟩
  · rw [if_neg hclosed, outcome_modify_bind]
    rcases s.worker with _ | _ | _ | _ | _
    all_goals exact ⟨hcalls, h.ended, fun d hnone => absurd hnone (Option.not_mem_none d), rfl, rfl,
      h.matched⟩

/-- A suspended call goes on, unless the sink has raised. -/
theorem sound_resumeCall {call : VoiceCall} {awaited : Awaited} (hcalls : s.calls = [])
    (h : Tracked call.rest s) (hreturned : call.tellsSink = true → awaited = .returned) :
    Sound (outcome (resumeCall policy call awaited) s) := by
  rcases call with _ | rest | rest | _ | _ | _ | _
  case announcing | rejecting =>
    rw [hreturned rfl]
    exact sound_handleEvents rest s hcalls h
  all_goals rcases awaited with _ | _ | _
  all_goals exact ⟨hcalls, h.ended, h.inv, h.capturing, h.speech, h.matched⟩

end Methods

/-! ### Runs -/

/-- The calls are made one after the other, and the sink raises nothing in them. -/
def orderly (s : VoiceInput) : Label → Bool
  | .startStream _ _ | .processFrame _ | .finishStream _ _ | .close => s.calls.isEmpty
  | .resume index awaited => awaited = .returned || !s.calls[index]?.any VoiceCall.tellsSink
  | .workerGets | .recognizes _ | .workerResumes | .reportReturns | .workerStops => true

theorem Settled.congr (hs : Settled s) (hcalls : t.calls = s.calls)
    (hdetector : t.detector = s.detector) (hstream : t.streamId = s.streamId)
    (hactive : t.activeUtteranceEpoch = s.activeUtteranceEpoch)
    (hended : t.history.ended = s.history.ended) (hfates : t.history.fates = s.history.fates)
    (hraised : t.history.raised = s.history.raised) : Settled t := by
  obtain ⟨call, hcall, h⟩ := hs
  refine ⟨call, hcalls.trans hcall, ?_, ?_, ?_, ?_, ?_⟩
  · rw [hended, hfates]
    exact h.ended
  · rw [hdetector]
    exact h.inv
  · rw [hstream, hdetector]
    exact h.capturing
  · rw [hactive, hdetector]
    exact h.speech
  · rw [hraised]
    exact h.matched

theorem Settled.report (hs : Settled s) (job : RecognitionJob) (errorType : String) :
    Settled (report job s errorType) := by
  rw [VoiceInput.report]
  split
  · exact hs.congr rfl rfl rfl rfl rfl rfl rfl
  · exact hs.congr rfl rfl rfl rfl rfl rfl rfl

/-- The worker changes nothing that is tracked. -/
theorem Settled.nextWorker {l : Label} (hs : Settled s) (h : nextWorker policy s l = some t) :
    Settled t := by
  rw [nextWorker.eq_def] at h
  split at h
  · split at h
    · obtain rfl := Option.some.inj h
      exact hs.congr rfl rfl rfl rfl rfl rfl rfl
    · cases h
  · split at h
    · obtain ⟨⟨next, acts⟩, -, rfl⟩ := Option.map_eq_some_iff.mp h
      exact hs.congr rfl rfl rfl rfl rfl rfl rfl
    · cases h
  · split at h
    · rename_i job error cancelling hworker
      obtain rfl := Option.some.inj h
      -- an error is reported, unless the worker was cancelled by `close`
      rcases error with _ | _ | _ | errorType
      · exact hs.congr rfl rfl rfl rfl rfl rfl rfl
      · rw [resumeWorker]
        split
        · exact hs.congr rfl rfl rfl rfl rfl rfl rfl
        · exact hs.report job _
      · exact hs.report job _
      · exact hs.report job _
    · cases h
  · split at h
    · obtain rfl := Option.some.inj h
      exact hs.congr rfl rfl rfl rfl rfl rfl rfl
    · cases h
  · split at h
    · obtain rfl := Option.some.inj h
      exact hs.congr rfl rfl rfl rfl rfl rfl rfl
    · cases h
  · cases h

/-- A call that may begin begins when no other is suspended. -/
theorem Settled.tracked (hs : Settled s) (hcalls : s.calls.isEmpty = true) :
    s.calls = [] ∧ Tracked [] s := by
  have hnil := List.isEmpty_iff.mp hcalls
  obtain ⟨_ | call, hcall, h⟩ := hs
  · exact ⟨hnil, h⟩
  · rw [hnil] at hcall
    cases hcall

theorem Settled.resume (hs : Settled s) {index : ℕ} {awaited : Awaited} {call : VoiceCall}
    (hcall : s.calls[index]? = some call)
    (hreturned : call.tellsSink = true → awaited = .returned) :
    Settled (settle (outcome (resumeCall policy call awaited)
      { s with calls := s.calls.eraseIdx index })) := by
  obtain ⟨suspended, hcalls, h⟩ := hs
  obtain ⟨hsuspended, hindex⟩ : suspended = some call ∧ index = 0 := by
    rw [hcalls] at hcall
    rcases suspended with _ | suspended
    · cases hcall
    · rcases index with _ | index
      · exact ⟨hcall, rfl⟩
      · cases hcall
  refine (sound_resumeCall ?_ ?_ hreturned).settle
  · change s.calls.eraseIdx index = []
    rw [hcalls, hsuspended, hindex]
    rfl
  · rw [hsuspended] at h
    exact ⟨h.ended, h.inv, h.capturing, h.speech, h.matched⟩

theorem Settled.next {l : Label} (hs : Settled s) (hl : orderly s l = true)
    (h : next uuid5 policy s l = some t) : Settled t := by
  rw [next.eq_def] at h
  split at h
  · obtain rfl := Option.some.inj h
    obtain ⟨hcalls, htracked⟩ := hs.tracked hl
    exact (sound_startStream hcalls htracked _ _).settle
  · obtain rfl := Option.some.inj h
    obtain ⟨hcalls, htracked⟩ := hs.tracked hl
    exact (sound_processFrame hcalls htracked _).settle
  · obtain rfl := Option.some.inj h
    obtain ⟨hcalls, htracked⟩ := hs.tracked hl
    exact (sound_finishStream hcalls htracked _ _).settle
  · obtain rfl := Option.some.inj h
    obtain ⟨hcalls, htracked⟩ := hs.tracked hl
    exact (sound_close hcalls htracked).settle
  · rename_i index awaited
    -- a call that tells the sink something goes on once the sink has returned
    have hreturned {call : VoiceCall} (hcall : s.calls[index]? = some call)
        (htells : call.tellsSink = true) : awaited = .returned := by
      rw [orderly, hcall, Option.any_some, htells, Bool.not_true, Bool.or_false] at hl
      exact of_decide_eq_true hl
    split at h
    · rename_i hcall
      split at h
      · cases h
      · obtain rfl := Option.some.inj h
        exact hs.resume hcall (hreturned hcall)
    · rename_i hcall
      obtain rfl := Option.some.inj h
      exact hs.resume hcall (hreturned hcall)
    · cases h
  · exact hs.nextWorker h

/-- What becomes of the utterances. -/
structure Accounted (policy : VoiceInputPolicy) (s : VoiceInput) : Prop where
  /-- Each utterance that the detector has ended meets its fate in its turn, which comes when the
  sink has been told of the events before it. -/
  ended : s.history.ended = s.history.fates.map (·.ended) ++
    (s.calls.flatMap VoiceCall.rest).filterMap VadEvent.ended?
  ledger : Ledger policy s.lane
  matched : unmatched ∉ s.history.raised

/-- **Every utterance is queued once or is one failure**, by the room in the queue alone, and no
utterance ends that was not started. -/
theorem utterances_accounted
    (h : (machine uuid5 policy).ReachableBy (fun s l => orderly s l = true) s) :
    Accounted policy s := by
  have hsettled : Settled s := by
    refine h.invariant (fun s hs => ?_) fun s l t _ hs hl hnext => hs.next hl hnext
    rw [show s = make from hs]
    exact ⟨none, rfl, rfl, fun d hnone => absurd hnone (Option.not_mem_none d), rfl, rfl,
      List.not_mem_nil⟩
  obtain ⟨-, hledger⟩ := lane_invariant (I := fun a => Ordered a ∧ Ledger policy a)
    ⟨ordered_make, ledger_make⟩ (fun a b ha hstep => ⟨ha.1.step hstep, ha.2.step ha.1 hstep⟩)
    h.reachable
  obtain ⟨call, hcalls, htracked⟩ := hsettled
  refine ⟨?_, hledger, htracked.matched⟩
  rw [htracked.ended, hcalls]
  rcases call with _ | call
  · rfl
  · rw [Option.toList_some, List.flatMap_singleton]
    rfl

/-- Two utterances in a row, before the worker takes its turn. -/
def burstLabels : List Label :=
  [.startStream 7 narrow, .resume 0 .returned, .processFrame (frameAt 0 10), .resume 0 .returned,
    .processFrame (frameAt 1 0), .processFrame (frameAt 2 10), .resume 0 .returned,
    .processFrame (frameAt 3 0)]

/-- The second utterance is the failure of a queue that the first is in, which it supersedes. -/
def rejectsFresh (s : VoiceInput) : Bool :=
  s.history.fates.any fun fate => !fate.queued && fate.speechEpoch = fate.current &&
    fate.pending.any (·.speechEpoch < fate.current) && fate.rejection ∈ s.history.rejections

theorem burst_run : ∃ s, ((machine nameId promptPolicy).restrict
    fun s l => orderly s l = true).run make burstLabels = some s ∧
      (s.history.ended.length = 2 ∧ rejectsFresh s = true) := by
  have hrun : (((machine nameId promptPolicy).restrict fun s l => orderly s l = true).run make
      burstLabels).map (fun s => (s.history.ended.length, rejectsFresh s)) = some (2, true) := by
    decide +kernel
  obtain ⟨s, hs, hpair⟩ := Option.map_eq_some_iff.mp hrun
  obtain ⟨hlength, hfresh⟩ := Prod.mk.inj hpair
  exact ⟨s, hs, hlength, hfresh⟩

/-- An utterance of the current epoch is rejected while a superseded one is in the queue. -/
theorem fresh_speech_rejected : ∃ s : VoiceInput,
    (machine nameId promptPolicy).ReachableBy (fun s l => orderly s l = true) s ∧
    ∃ fate ∈ s.history.fates, fate.queued = false ∧ fate.speechEpoch = fate.current ∧
      (∃ job ∈ fate.pending, job.speechEpoch < fate.current) ∧
      (fate.ended.utteranceId, "VoiceInputBackpressure") ∈ s.history.rejections := by
  obtain ⟨s, hs, -, hfresh⟩ := burst_run
  refine ⟨s, Machine.reachableBy_of_run (.start rfl) hs, ?_⟩
  obtain ⟨fate, hfate, hrejects⟩ := List.any_eq_true.mp hfresh
  simp only [Bool.and_eq_true, Bool.not_eq_true', decide_eq_true_eq, List.any_eq_true] at hrejects
  obtain ⟨⟨⟨hqueued, hcurrent⟩, job, hjob, hlt⟩, hrejection⟩ := hrejects
  exact ⟨fate, hfate, hqueued, hcurrent, ⟨job, hjob, hlt⟩, hrejection⟩

/-- Of the two, one is a job and one is a failure. -/
theorem utterances_accounted_burst : ∃ s : VoiceInput,
    s.history.ended.length = 2 ∧ Accounted promptPolicy s := by
  obtain ⟨s, hs, hlength, -⟩ := burst_run
  exact ⟨s, hlength, utterances_accounted (Machine.reachableBy_of_run (.start rfl) hs)⟩

end VoiceInput

end Eeveetuber
