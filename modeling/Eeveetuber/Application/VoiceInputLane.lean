import Mathlib.Logic.Relation
import Eeveetuber.Application.VoiceInput
import Eeveetuber.Foundation.Triple

/-!
# The lane of a coordinator

What the queue, the worker and the epochs of a coordinator go through, without the detector and
the calls: `Eeveetuber.VoiceInput.LaneStep` is one change of them. A step of the coordinator
may make several, since the loop over the events of a frame suspends only where it awaits the
sink, **and makes no others** (`Eeveetuber.VoiceInput.path_of_next`). What every change
preserves holds of the lane at any time (`Eeveetuber.VoiceInput.lane_invariant`).
-/

namespace Eeveetuber

namespace VoiceInput

open Foundation Stateful Relation

/-- The queue, the worker and the epochs, with their history. -/
structure AsrLane where
  utterances : List RecognitionJob
  worker : AsrWorker
  speechEpoch : ℕ
  activeUtteranceEpoch : Option ℕ
  fates : List UtteranceFate
  rejections : List (UUID × String)
  got : List RecognitionJob
  acts : List (RecognitionJob × AsrAct)

def lane (s : VoiceInput) : AsrLane where
  utterances := s.utterances
  worker := s.worker
  speechEpoch := s.speechEpoch
  activeUtteranceEpoch := s.activeUtteranceEpoch
  fates := s.history.fates
  rejections := s.history.rejections
  got := s.history.got
  acts := s.history.acts

variable {uuid5 : UUID → String → UUID} {policy : VoiceInputPolicy} {a : AsrLane}
  {s t : VoiceInput}

/-- The fate of an utterance that ends now. -/
def AsrLane.fate (a : AsrLane) (ended : VadSpeechEnded) (speechEpoch : ℕ) (queued : Bool) :
    UtteranceFate :=
  { ended, speechEpoch, current := a.speechEpoch, pending := a.utterances, queued }

/-- **One change of a lane.** -/
inductive LaneStep (policy : VoiceInputPolicy) (a : AsrLane) : AsrLane → Prop
  | ensure : LaneStep policy a { a with worker := a.worker.ensure }
  | cancel : LaneStep policy a { a with worker := a.worker.cancel }
  /-- No utterance is active any more. -/
  | forget : LaneStep policy a { a with activeUtteranceEpoch := none }
  /-- Speech starts. -/
  | start : LaneStep policy a { a with
      speechEpoch := a.speechEpoch + 1
      activeUtteranceEpoch := some (a.speechEpoch + 1)
      worker := a.worker.cancel }
  /-- The active utterance is queued. -/
  | queue (ended : VadSpeechEnded) (speechEpoch : ℕ)
      (active : a.activeUtteranceEpoch = some speechEpoch)
      (room : isFull policy a.utterances = false) : LaneStep policy a { a with
        activeUtteranceEpoch := none
        fates := a.fates ++ [a.fate ended speechEpoch true]
        utterances := a.utterances ++ [⟨speechEpoch, ended.utterance⟩] }
  /-- There is no room for it. -/
  | reject (ended : VadSpeechEnded) (speechEpoch : ℕ)
      (active : a.activeUtteranceEpoch = some speechEpoch)
      (full : isFull policy a.utterances = true) : LaneStep policy a { a with
        activeUtteranceEpoch := none
        fates := a.fates ++ [a.fate ended speechEpoch false]
        rejections := a.rejections ++ [(ended.utteranceId, "VoiceInputBackpressure")] }
  | drain (gone : a.worker.gone = true) : LaneStep policy a { a with
      utterances := []
      got := a.got ++ a.utterances }
  | get (job : RecognitionJob) (utterances : List RecognitionJob) (waiting : a.worker = .waiting)
      (queue : a.utterances = job :: utterances) : LaneStep policy a { a with
        utterances := utterances
        worker := if job.speechEpoch = a.speechEpoch then .recognizing job .created false
          else .waiting
        got := a.got ++ [job] }
  | recognize (job : RecognitionJob) (recognition next : Recognition) (cancelling : Bool)
      (label : RecognitionLabel) (acts : List AsrAct)
      (worker : a.worker = .recognizing job recognition cancelling)
      (step : nextRecognition policy a.speechEpoch job cancelling recognition label =
        some (next, acts)) : LaneStep policy a { a with
        worker := .recognizing job next cancelling
        acts := a.acts ++ acts.map (job, ·) }
  /-- The worker is done with a job, or done. -/
  | turn (worker : AsrWorker) (idle : a.worker.idle = true)
      (free : ∀ job recognition cancelling, worker ≠ .recognizing job recognition cancelling) :
      LaneStep policy a { a with worker := worker }

/-- Changes lead from a lane to that of a coordinator. -/
def Path (policy : VoiceInputPolicy) (a : AsrLane) (s : VoiceInput) : Prop :=
  ReflTransGen (LaneStep policy) a s.lane

theorem Path.step (h : Path policy a s) (hstep : LaneStep policy s.lane t.lane) :
    Path policy a t := h.tail hstep

/-! ### What the methods change -/

section Methods

variable {α : Type} {rest : List VadEvent} {k : Bool → VoiceM α}

/-- The method changes a lane as it may be changed. -/
def Traces (policy : VoiceInputPolicy) (a : AsrLane) (x : VoiceM α) : Prop :=
  Triple (Path policy a) x (fun _ => Path policy a) (Path policy a)

theorem traces_answer {x : α} : Traces policy a (pure x) := Triple.answer fun _ => id

theorem traces_read {g : VoiceInput → VoiceM α} (h : ∀ s, Traces policy a (g s)) :
    Traces policy a (getThe VoiceInput >>= g) := fun s hs => h s s hs

/-- A change of other parts, or one that a lane may have. -/
theorem traces_change {f : VoiceInput → VoiceInput} {g : Unit → VoiceM α}
    (hf : ∀ s, Path policy a s → Path policy a (f s)) (hg : Traces policy a (g ())) :
    Traces policy a (modify f >>= g) := fun s hs => hg (f s) (hf s hs)

theorem traces_check {c : Prop} [Decidable c] {e : VoiceInputError} {g : Unit → VoiceM α}
    (hg : Traces policy a (g ())) : Traces policy a (if c then throw e >>= g else g ()) := by
  by_cases hc : c
  · rw [if_pos hc]
    exact Triple.fail fun _ => id
  · rw [if_neg hc]
    exact hg

theorem traces_ensureOpen : Traces policy a ensureOpen := by
  refine traces_read fun s => ?_
  by_cases hclosed : s.closed = true
  · rw [if_pos hclosed]
    exact Triple.raise fun _ => id
  · rw [if_neg hclosed]
    exact traces_answer

theorem traces_requireDetector : Traces policy a requireDetector := by
  refine traces_read fun s => ?_
  rcases s.detector with _ | d
  · exact Triple.raise fun _ => id
  · rcases s.streamId with _ | i
    · exact Triple.raise fun _ => id
    · exact traces_answer

theorem outcome_takeUtteranceEpoch {speechEpoch : ℕ}
    (h : s.activeUtteranceEpoch = some speechEpoch) :
    outcome takeUtteranceEpoch s = (.ok speechEpoch, { s with activeUtteranceEpoch := none }) := by
  rw [takeUtteranceEpoch, outcome_get_bind, outcome_modify_bind, h]
  rfl

/-- There is room for an utterance. -/
theorem outcome_enqueue_of_room (ended : VadSpeechEnded) (speechEpoch : ℕ)
    (h : isFull policy s.utterances = false) :
    outcome (enqueueUtterance policy ended speechEpoch) s = (.ok true, { s with
      utterances := s.utterances ++ [⟨speechEpoch, ended.utterance⟩]
      history := { s.history with
        fates := s.history.fates ++ [s.lane.fate ended speechEpoch true] } }) := by
  rw [enqueueUtterance, outcome_get_bind]
  simp only [h, Bool.not_false, if_true]
  rfl

/-- There is none. -/
theorem outcome_enqueue_of_full (ended : VadSpeechEnded) (speechEpoch : ℕ)
    (h : isFull policy s.utterances = true) :
    outcome (enqueueUtterance policy ended speechEpoch) s = (.ok false, { s with
      history := { s.history with
        fates := s.history.fates ++ [s.lane.fate ended speechEpoch false]
        rejections := s.history.rejections ++
          [(ended.utteranceId, "VoiceInputBackpressure")] } }) := by
  rw [enqueueUtterance, outcome_get_bind]
  simp only [h, Bool.not_true]
  rfl

/-- The epoch of the active utterance is taken, and the utterance is queued or rejected. -/
theorem traces_enqueue (ended : VadSpeechEnded) (hk : ∀ queued, Traces policy a (k queued)) :
    Traces policy a (do
      let speechEpoch ← takeUtteranceEpoch
      let queued ← enqueueUtterance policy ended speechEpoch
      k queued) := by
  intro s hs
  rcases hactive : s.activeUtteranceEpoch with _ | speechEpoch
  · have hraise : outcome takeUtteranceEpoch s =
        (.error (.captureState "VAD ended speech without a matching start"),
          { s with activeUtteranceEpoch := none }) := by
      rw [takeUtteranceEpoch, outcome_get_bind, outcome_modify_bind, hactive]
      rfl
    rw [outcome_bind_of_error hraise]
    exact hs.step .forget
  · rw [outcome_bind_of_ok (outcome_takeUtteranceEpoch hactive)]
    let t : VoiceInput := { s with activeUtteranceEpoch := none }
    rcases hfull : isFull policy t.utterances with _ | _
    · rw [outcome_bind_of_ok (outcome_enqueue_of_room ended speechEpoch hfull)]
      exact hk true _ (hs.step (.queue ended speechEpoch hactive hfull))
    · rw [outcome_bind_of_ok (outcome_enqueue_of_full ended speechEpoch hfull)]
      exact hk false _ (hs.step (.reject ended speechEpoch hactive hfull))

theorem traces_handleEvents : ∀ rest, Traces policy a (handleEvents policy rest)
  | [] => Triple.answer fun _ => id
  | .started _ :: rest => fun _ hs => hs.step .start
  | .ended ended :: rest => by
    refine traces_enqueue ended fun queued => ?_
    cases queued with
    | true => exact traces_handleEvents rest
    | false => exact Triple.answer fun _ => id

theorem traces_startStream (streamId : UUID) (pcmFormat : PcmFormat) :
    Traces policy a (startStream policy streamId pcmFormat) :=
  traces_ensureOpen.bind fun _ => traces_check (traces_read fun _ => traces_check (traces_check
    (traces_change (fun _ hs => hs.step .ensure) traces_answer)))

theorem traces_processFrame (frame : PcmFrame) :
    Traces policy a (processFrame uuid5 policy frame) := by
  refine traces_ensureOpen.bind fun _ => traces_requireDetector.bind fun detector =>
    traces_read fun s => Triple.bind (Triple.ask (fun _ _ _ => id) fun _ => id) fun _ => ?_
  rcases outcome (EnergyVoiceActivityDetector.process uuid5 frame) detector with ⟨_ | events, d⟩
  · exact traces_change (fun _ hs => hs) (Triple.raise fun _ => id)
  · exact traces_change (fun _ hs => hs) (traces_handleEvents events)

theorem traces_finishStream (streamId : UUID) (reason : Text) :
    Traces policy a (finishStream policy streamId reason) := by
  refine traces_ensureOpen.bind fun _ => traces_check (traces_read fun s => traces_check
    (traces_requireDetector.bind fun detector => ?_))
  rcases outcome EnergyVoiceActivityDetector.finishStream detector with ⟨_ | ended, d⟩
  · exact traces_change (fun _ hs => hs) (Triple.raise fun _ => id)
  · refine traces_change (fun _ hs => hs) ?_
    rcases ended with _ | ended
    · exact traces_answer
    · refine traces_enqueue ended fun queued => ?_
      cases queued with
      | true => exact traces_answer
      | false => exact traces_answer

/-- `close` forgets the active utterance, and cancels the worker. -/
theorem traces_close : Traces policy a close := by
  intro s hs
  rw [close, outcome_get_bind]
  by_cases hclosed : s.closed = true
  · rw [if_pos hclosed]
    exact hs
  · rw [if_neg hclosed, outcome_modify_bind]
    have hpath : Path policy a { s with
        closed := true
        detector := none
        streamId := none
        activeUtteranceEpoch := none
        worker := s.worker.cancel } := (hs.tail .forget).tail .cancel
    rcases hworker : s.worker with _ | _ | _ | _ | _
    all_goals rw [hworker] at hpath
    · exact hpath.step (.drain rfl)
    all_goals exact hpath

theorem traces_resumeCall {call : VoiceCall} {awaited : Awaited} (hs : Path policy a s)
    (hgone : call = .closing → awaited = .returned → s.worker.gone = true) :
    Path policy a (outcome (resumeCall policy call awaited) s).2 := by
  rcases call with _ | rest | rest | _ | _ | _ | _ <;> rcases awaited with _ | _ | _
  all_goals first
    | exact (traces_handleEvents rest).state hs
    | exact hs.step (.drain (hgone rfl rfl))
    | exact hs

end Methods

/-! ### What the steps change -/

theorem path_settle {result : Except VoiceInputError (Option VoiceCall) × VoiceInput}
    (h : Path policy a result.2) : Path policy a (settle result) := by
  obtain ⟨_ | call, t⟩ := result
  · exact h
  · exact h

theorem path_report {job : RecognitionJob} (errorType : String) (hs : Path policy a s)
    (hidle : s.worker.idle = true) : Path policy a (report job s errorType) := by
  rw [report]
  split
  · exact hs.step (.turn _ hidle fun _ _ _ => AsrWorker.noConfusion)
  · exact hs.step (.turn _ hidle fun _ _ _ => AsrWorker.noConfusion)

/-- A step of the worker is one change. -/
theorem path_nextWorker {l : Label} (hs : Path policy a s)
    (h : nextWorker policy s l = some t) : Path policy a t := by
  rw [nextWorker.eq_def] at h
  split at h
  · split at h
    · rename_i job utterances hworker hqueue
      obtain rfl := Option.some.inj h
      exact hs.step (.get job utterances hworker hqueue)
    · cases h
  · split at h
    · rename_i label _ job recognition cancelling hworker
      obtain ⟨⟨next, acts⟩, hstep, rfl⟩ := Option.map_eq_some_iff.mp h
      exact hs.step (.recognize job recognition next cancelling label acts hworker hstep)
    · cases h
  · split at h
    · rename_i job error cancelling hworker
      obtain rfl := Option.some.inj h
      have hidle : s.worker.idle = true := by
        rw [hworker]
        rfl
      rcases error with _ | _ | _ | errorType
      · exact hs.step (.turn _ hidle fun _ _ _ => AsrWorker.noConfusion)
      · rw [resumeWorker]
        split
        · exact hs.step (.turn _ hidle fun _ _ _ => AsrWorker.noConfusion)
        · exact path_report _ hs hidle
      · exact path_report _ hs hidle
      · exact path_report _ hs hidle
    · cases h
  · split at h
    · rename_i job hworker
      obtain rfl := Option.some.inj h
      exact hs.step (.turn _ (by rw [lane, hworker]; rfl) fun _ _ _ => AsrWorker.noConfusion)
    · cases h
  · split at h
    · rename_i hstops
      obtain rfl := Option.some.inj h
      exact hs.step
        (.turn _ ((Bool.and_eq_true _ _).mp hstops).2 fun _ _ _ => AsrWorker.noConfusion)
    · cases h
  · cases h

/-- **A step of a coordinator changes its lane as it may be changed.** -/
theorem path_of_next {l : Label} (h : next uuid5 policy s l = some t) :
    ReflTransGen (LaneStep policy) s.lane t.lane := by
  have hs : Path policy s.lane s := .refl
  rw [next.eq_def] at h
  split at h
  · obtain rfl := Option.some.inj h
    exact path_settle ((traces_startStream _ _).state hs)
  · obtain rfl := Option.some.inj h
    exact path_settle ((traces_processFrame _).state hs)
  · obtain rfl := Option.some.inj h
    exact path_settle ((traces_finishStream _ _).state hs)
  · obtain rfl := Option.some.inj h
    exact path_settle (traces_close.state hs)
  · rename_i index awaited
    split at h
    · split at h
      · cases h
      · rename_i hwaits
        obtain rfl := Option.some.inj h
        refine path_settle (traces_resumeCall hs fun _ hreturned => ?_)
        by_contra hgone
        refine hwaits ?_
        rw [hreturned, Bool.eq_false_iff.mpr hgone]
        rfl
    · rename_i hnot _
      obtain rfl := Option.some.inj h
      exact path_settle (traces_resumeCall hs fun hclosing => absurd hclosing (by
        rintro rfl
        exact hnot (by assumption)))
    · cases h
  · exact path_nextWorker hs h

/-- **What every change of a lane preserves holds of it at any time.** -/
theorem lane_invariant {I : AsrLane → Prop} (hstart : I make.lane)
    (hstep : ∀ a b, I a → LaneStep policy a b → I b)
    (h : (machine uuid5 policy).Reachable s) : I s.lane := by
  refine h.invariant (I := fun s => I s.lane) (fun s hs => hs ▸ hstart)
    fun s l t _ hs _ hnext => ?_
  have hpath := path_of_next hnext
  generalize t.lane = b at hpath ⊢
  induction hpath with
  | refl => exact hs
  | tail _ hlast ih => exact hstep _ _ ih hlast

end VoiceInput

end Eeveetuber
