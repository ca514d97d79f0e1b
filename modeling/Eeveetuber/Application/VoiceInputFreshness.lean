import Mathlib.Data.List.Nodup
import Eeveetuber.Application.VoiceInputLane

/-!
# Fresh transcripts

What is done with the transcripts of a job follows a protocol,
`Eeveetuber.VoiceInput.Protocol`: partials of increasing revisions, then the end of the
recognizer's stream, then one final; a violation ends it anywhere before. The protocol is kept
job by job, **and whatever the sink is handed is of the epoch that is the current one**
(`Eeveetuber.VoiceInput.transcripts_fresh`), for any recognizer. The epochs of the jobs are in
order (`Eeveetuber.VoiceInput.Ordered`), so that an epoch names a job.
-/

namespace Eeveetuber

namespace AsrAct

/-- What is handed to the sink is of the utterance, while its epoch is the current one. -/
def Fresh (job : RecognitionJob) : AsrAct → Prop
  | .handedPartial event current =>
    event.utteranceId = job.utterance.utteranceId ∧ job.speechEpoch = current
  | .handedFinal event current =>
    event.utteranceId = job.utterance.utteranceId ∧ job.speechEpoch = current
  | .streamEnded | .violated _ => True

/-- A final, or the violation that there is none for. -/
def terminal : AsrAct → Bool
  | .handedFinal _ _ | .violated _ => true
  | .handedPartial _ _ | .streamEnded => false

def revision? : AsrAct → Option ℤ
  | .handedPartial event _ => some event.revision
  | .handedFinal _ _ | .violated _ | .streamEnded => none

end AsrAct

namespace VoiceInput

open Foundation

variable {uuid5 : UUID → String → UUID} {policy : VoiceInputPolicy} {a b : AsrLane}
  {s : VoiceInput} {job : RecognitionJob}

/-! ### Epochs -/

/-- The jobs that have been queued. -/
def AsrLane.jobs (a : AsrLane) : List RecognitionJob := a.got ++ a.utterances

/-- **The epochs of the jobs are in order**, below that of an utterance that is active. -/
structure Ordered (a : AsrLane) : Prop where
  epochs : a.jobs.Pairwise fun job later => job.speechEpoch < later.speechEpoch
  active : ∀ e ∈ a.activeUtteranceEpoch, e = a.speechEpoch
  le : ∀ job ∈ a.jobs, job.speechEpoch ≤ a.speechEpoch
  lt : a.activeUtteranceEpoch.isSome → ∀ job ∈ a.jobs, job.speechEpoch < a.speechEpoch

theorem ordered_make : Ordered make.lane where
  epochs := .nil
  active e he := absurd he (Option.not_mem_none e)
  le _ hjob := absurd hjob List.not_mem_nil
  lt hsome := absurd hsome Bool.false_ne_true

/-- An active utterance is not active any more. -/
theorem Ordered.forget (h : Ordered a) (hjobs : b.jobs = a.jobs)
    (hepoch : b.speechEpoch = a.speechEpoch) (hactive : b.activeUtteranceEpoch = none) :
    Ordered b where
  epochs := hjobs ▸ h.epochs
  active e he := by
    rw [hactive] at he
    cases he
  le := by
    rw [hjobs, hepoch]
    exact h.le
  lt hsome := by
    rw [hactive] at hsome
    cases hsome

/-- A change of neither the jobs nor the epochs. -/
theorem Ordered.congr (h : Ordered a) (hjobs : b.jobs = a.jobs)
    (hepoch : b.speechEpoch = a.speechEpoch)
    (hactive : b.activeUtteranceEpoch = a.activeUtteranceEpoch) : Ordered b := by
  refine ⟨hjobs ▸ h.epochs, ?_, ?_, ?_⟩
  · rw [hactive, hepoch]
    exact h.active
  · rw [hjobs, hepoch]
    exact h.le
  · rw [hactive, hjobs, hepoch]
    exact h.lt

theorem Ordered.step (h : Ordered a) (hstep : LaneStep policy a b) : Ordered b := by
  cases hstep with
  | ensure | cancel | recognize | turn => exact h.congr rfl rfl rfl
  | forget | reject => exact h.forget rfl rfl rfl
  | start =>
    -- the utterance that starts is of an epoch of its own
    refine ⟨h.epochs, ?_, fun job hjob => Nat.le_succ_of_le (h.le job hjob),
      fun _ job hjob => Nat.lt_succ_of_le (h.le job hjob)⟩
    intro e he
    exact (Option.some.inj he).symm
  | queue ended speechEpoch active room =>
    -- the utterance that ends is queued behind those of earlier epochs
    obtain rfl := h.active _ active
    have hlt := h.lt (by rw [active]; rfl)
    have hjobs : ∀ job ∈ a.jobs ++ [⟨a.speechEpoch, ended.utterance⟩],
        job.speechEpoch ≤ a.speechEpoch := by
      intro job hjob
      rcases List.mem_append.mp hjob with hjob | hjob
      · exact (hlt job hjob).le
      · rw [List.mem_singleton.mp hjob]
    rw [AsrLane.jobs, List.append_assoc] at hjobs
    refine ⟨?_, fun e he => absurd he (Option.not_mem_none e), hjobs,
      fun hsome => absurd hsome Bool.false_ne_true⟩
    change (a.got ++ (a.utterances ++ [_])).Pairwise _
    rw [← List.append_assoc]
    refine List.pairwise_append.mpr ⟨h.epochs, List.pairwise_singleton _ _, ?_⟩
    intro job hjob later hlater
    rw [List.mem_singleton.mp hlater]
    exact hlt job hjob
  | drain gone => exact h.congr (List.append_nil _) rfl rfl
  | get job utterances waiting queue =>
    refine h.congr ?_ rfl rfl
    change a.got ++ [job] ++ utterances = a.got ++ a.utterances
    rw [queue, List.append_assoc, List.singleton_append]

/-- An epoch names a job. -/
theorem Ordered.job_unique (h : Ordered a) {job job' : RecognitionJob} (hjob : job ∈ a.jobs)
    (hjob' : job' ∈ a.jobs) (hepoch : job.speechEpoch = job'.speechEpoch) : job = job' := by
  have hnodup : (a.jobs.map (·.speechEpoch)).Nodup :=
    List.pairwise_map.mpr (h.epochs.imp fun hlt => hlt.ne)
  exact List.inj_on_of_nodup_map hnodup hjob hjob' hepoch

/-! ### The protocol of a job -/

/-- The acts on the transcripts of a job. -/
def actsOf (acts : List (RecognitionJob × AsrAct)) (job : RecognitionJob) : List AsrAct :=
  (acts.filter fun entry => entry.1.speechEpoch = job.speechEpoch).map Prod.snd

/-- Where the protocol of a job stands. -/
inductive ProtocolStage where
  | listening (lastPartialRevision : ℤ)
  | ended
  | over

/-- **The protocol of a job.** -/
inductive Protocol (job : RecognitionJob) : ProtocolStage → List AsrAct → Prop
  | start : Protocol job (.listening (-1)) []
  | hand {last : ℤ} {acts : List AsrAct} (event : AsrPartial) :
      Protocol job (.listening last) acts → event.utteranceId = job.utterance.utteranceId →
      last < event.revision →
      Protocol job (.listening event.revision)
        (acts ++ [.handedPartial event job.speechEpoch])
  | ends {last : ℤ} {acts : List AsrAct} : Protocol job (.listening last) acts →
      Protocol job .ended (acts ++ [.streamEnded])
  | final {acts : List AsrAct} (event : AsrFinal) : Protocol job .ended acts →
      event.utteranceId = job.utterance.utteranceId →
      Protocol job .over (acts ++ [.handedFinal event job.speechEpoch])
  | violated {last : ℤ} {acts : List AsrAct} (message : String) :
      Protocol job (.listening last) acts → Protocol job .over (acts ++ [.violated message])
  | lacked {acts : List AsrAct} (message : String) : Protocol job .ended acts →
      Protocol job .over (acts ++ [.violated message])

/-- The stage a task of `_recognize` is in. A final it has seen is one of the utterance. -/
def Fits (job : RecognitionJob) : Recognition → ProtocolStage → Prop
  | .created, stage => stage = .listening (-1)
  | .listening final last, stage => stage = .listening last ∧
      ∀ event ∈ final, event.utteranceId = job.utterance.utteranceId
  | .handingPartial last, stage => stage = .listening last
  | .handingFinal, _ | .finished _, _ => True

section Steps

variable {current : ℕ} {last : ℤ} {acts new : List AsrAct} {next : Recognition}
  {final : Option AsrFinal}

/-- The protocol goes on from where a task stands. -/
def Follows (job : RecognitionJob) (acts : List AsrAct) (step : Recognition × List AsrAct) :
    Prop :=
  ∃ stage, Protocol job stage (acts ++ step.2) ∧ Fits job step.1 stage

theorem follows_violate (h : Protocol job (.listening last) acts) (message : String) :
    Follows job acts (violate message) := ⟨.over, .violated message h, trivial⟩

/-- An event of the recognizer. -/
theorem Protocol.hear (h : Protocol job (.listening last) acts) (event : AsrStreamEvent) :
    Follows job acts (VoiceInput.hear policy current job final last event) := by
  rw [VoiceInput.hear.eq_def]
  split_ifs with hid hepoch hseen hlong
  · exact follows_violate h _
  · exact ⟨_, (List.append_nil acts).symm ▸ h, trivial⟩
  · exact follows_violate h _
  · exact follows_violate h _
  · have hid : event.utteranceId = job.utterance.utteranceId := not_not.mp hid
    obtain rfl : job.speechEpoch = current := not_not.mp hepoch
    rcases event with event | event
    · dsimp only
      split_ifs with hle
      · exact follows_violate h _
      · exact ⟨_, .hand event h hid (not_le.mp hle), rfl⟩
    · refine ⟨_, (List.append_nil acts).symm ▸ h, rfl, fun other hother => ?_⟩
      rw [← Option.some.inj hother]
      exact hid

/-- The end of the recognizer's stream. -/
theorem Protocol.conclude (h : Protocol job (.listening last) acts)
    (hfinal : ∀ event ∈ final, event.utteranceId = job.utterance.utteranceId) :
    Follows job acts (VoiceInput.conclude current job final) := by
  have hends := Protocol.ends h
  rcases final with _ | event
  · refine ⟨.over, ?_, trivial⟩
    have hlacked := Protocol.lacked "ASR stream ended without a final transcript" hends
    rwa [List.append_assoc] at hlacked
  · rw [VoiceInput.conclude]
    split_ifs with hepoch
    · refine ⟨.over, ?_, trivial⟩
      have hover := Protocol.final event hends (hfinal event rfl)
      rwa [List.append_assoc, hepoch] at hover
    · exact ⟨.ended, hends, trivial⟩

/-- **A step of `_recognize` keeps to the protocol.** -/
theorem Protocol.step {cancelling : Bool} {recognition : Recognition} {label : RecognitionLabel}
    {stage : ProtocolStage} (h : Protocol job stage acts) (hfits : Fits job recognition stage)
    (hstep : nextRecognition policy current job cancelling recognition label = some (next, new)) :
    Follows job acts (next, new) := by
  have hsame {recognition : Recognition} (hfits : Fits job recognition stage) :
      Follows job acts (recognition, []) := ⟨stage, (List.append_nil acts).symm ▸ h, hfits⟩
  rw [nextRecognition.eq_def] at hstep
  split at hstep
  · rw [← Option.some.inj hstep]
    cases cancelling with
    | true => exact hsame trivial
    | false => exact hsame ⟨hfits, fun event hnone => absurd hnone (Option.not_mem_none event)⟩
  · rw [← Option.some.inj hstep]
    obtain ⟨rfl, -⟩ := hfits
    exact h.hear _
  · rw [← Option.some.inj hstep]
    obtain ⟨rfl, hfinal⟩ := hfits
    exact h.conclude hfinal
  · rw [← Option.some.inj hstep]
    exact hsame ⟨hfits, fun event hnone => absurd hnone (Option.not_mem_none event)⟩
  · rw [← Option.some.inj hstep]
    exact hsame trivial
  · rw [← Option.some.inj hstep]
    exact hsame trivial
  · rw [← Option.some.inj hstep]
    exact hsame trivial
  · rw [← Option.some.inj hstep]
    exact hsame trivial
  · cases hstep

end Steps

/-! ### What the protocol says -/

section Protocol

variable {stage : ProtocolStage} {acts : List AsrAct} {act : AsrAct}

/-- The revisions of the partials that were handed over. -/
def revisionsOf (acts : List AsrAct) : List ℤ := acts.filterMap AsrAct.revision?

theorem forall_concat {P : AsrAct → Prop} (h : ∀ act ∈ acts, P act) (hact : P act) :
    ∀ act' ∈ acts ++ [act], P act' := by
  intro act' hmem
  rcases List.mem_append.mp hmem with hmem | hmem
  · exact h act' hmem
  · rwa [List.mem_singleton.mp hmem]

theorem Protocol.fresh (h : Protocol job stage acts) : ∀ act ∈ acts, act.Fresh job := by
  induction h with
  | start => exact fun act hact => absurd hact List.not_mem_nil
  | hand event _ hid _ ih => exact forall_concat ih ⟨hid, rfl⟩
  | final event _ hid ih => exact forall_concat ih ⟨hid, rfl⟩
  | ends _ ih | violated message _ ih | lacked message _ ih => exact forall_concat ih trivial

theorem revisionsOf_concat :
    revisionsOf (acts ++ [act]) = revisionsOf acts ++ act.revision?.toList := by
  rw [revisionsOf, List.filterMap_append]
  rcases h : act.revision? with _ | r
  · rw [List.filterMap_cons_none h]
    rfl
  · rw [List.filterMap_cons_some h]
    rfl

/-- The revisions increase, up to that of the stage. -/
theorem Protocol.revisions (h : Protocol job stage acts) : (revisionsOf acts).Pairwise (· < ·) ∧
    ∀ last, stage = .listening last → ∀ r ∈ revisionsOf acts, r ≤ last := by
  have hother {acts : List AsrAct} {act : AsrAct} {stage : ProtocolStage}
      (hnone : act.revision? = none) (hstage : ∀ last, stage ≠ .listening last)
      (ih : (revisionsOf acts).Pairwise (· < ·)) :
      (revisionsOf (acts ++ [act])).Pairwise (· < ·) ∧
        ∀ last, stage = .listening last → ∀ r ∈ revisionsOf (acts ++ [act]), r ≤ last := by
    rw [revisionsOf_concat, hnone, Option.toList_none, List.append_nil]
    exact ⟨ih, fun last hlast => absurd hlast (hstage last)⟩
  induction h with
  | start => exact ⟨.nil, fun last _ r hr => absurd hr List.not_mem_nil⟩
  | @hand last acts event _ _ hlt ih =>
    obtain ⟨hsorted, hle⟩ := ih
    have hrev : revisionsOf (acts ++ [.handedPartial event job.speechEpoch]) =
        revisionsOf acts ++ [(event.revision : ℤ)] := revisionsOf_concat
    rw [hrev]
    constructor
    · refine List.pairwise_append.mpr ⟨hsorted, List.pairwise_singleton _ _, ?_⟩
      intro r hr r' hr'
      rw [List.mem_singleton.mp hr']
      exact (hle last rfl r hr).trans_lt hlt
    · intro last' hlast r hr
      obtain rfl := ProtocolStage.listening.inj hlast
      rcases List.mem_append.mp hr with hr | hr
      · exact (hle last rfl r hr).trans hlt.le
      · exact (List.mem_singleton.mp hr).le
  | ends _ ih => exact hother rfl (fun _ => ProtocolStage.noConfusion) ih.1
  | final event _ _ ih => exact hother rfl (fun _ => ProtocolStage.noConfusion) ih.1
  | violated message _ ih => exact hother rfl (fun _ => ProtocolStage.noConfusion) ih.1
  | lacked message _ ih => exact hother rfl (fun _ => ProtocolStage.noConfusion) ih.1

/-- What a stage says of the acts. Only the last of them may be a final or a violation. -/
def ProtocolStage.Tells : ProtocolStage → List AsrAct → Prop
  | .listening _, acts => ∀ act ∈ acts, act.terminal = false
  | .ended, acts => .streamEnded ∈ acts ∧ ∀ act ∈ acts, act.terminal = false
  | .over, acts => ∃ before act, acts = before ++ [act] ∧
    (∀ act ∈ before, act.terminal = false) ∧
    ∀ event current, act = .handedFinal event current → .streamEnded ∈ before

theorem Protocol.stage_tells (h : Protocol job stage acts) : stage.Tells acts := by
  induction h with
  | start => exact fun act hact => absurd hact List.not_mem_nil
  | hand event _ _ _ ih => exact forall_concat ih rfl
  | ends _ ih => exact ⟨List.mem_concat_self, forall_concat ih rfl⟩
  | final event _ _ ih => exact ⟨_, _, rfl, ih.2, fun _ _ _ => ih.1⟩
  | violated message _ ih => exact ⟨_, _, rfl, ih, fun _ _ => AsrAct.noConfusion⟩
  | lacked message _ ih => exact ⟨_, _, rfl, ih.2, fun _ _ => AsrAct.noConfusion⟩

/-- A final or a violation is the last act. -/
theorem Protocol.terminal_last (h : Protocol job stage acts) {before after : List AsrAct}
    (hacts : acts = before ++ act :: after) (hact : act.terminal = true) :
    after = [] ∧ (∀ act ∈ before, act.terminal = false) ∧
      ∀ event current, act = .handedFinal event current → .streamEnded ∈ before := by
  have hmem : act ∈ acts := by
    rw [hacts]
    exact List.mem_append_right _ List.mem_cons_self
  have htold := h.stage_tells
  rcases stage with last | _ | _
  · exact absurd hact (by rw [htold act hmem]; exact Bool.false_ne_true)
  · exact absurd hact (by rw [htold.2 act hmem]; exact Bool.false_ne_true)
  · obtain ⟨before', act', hacts', hbefore, hfinal⟩ := htold
    rcases List.eq_nil_or_concat' after with rfl | ⟨after, last, rfl⟩
    · obtain ⟨rfl, hone⟩ := List.append_inj' (hacts.symm.trans hacts') rfl
      obtain rfl := List.singleton_inj.mp hone
      exact ⟨rfl, hbefore, hfinal⟩
    · -- an act that others follow is not the last
      have hsplit : before ++ act :: after ++ [last] = before' ++ [act'] := by
        rw [← hacts', hacts, List.append_assoc, List.cons_append]
      obtain ⟨rfl, -⟩ := List.append_inj' hsplit rfl
      have hfalse := hbefore act (List.mem_append_right _ List.mem_cons_self)
      exact absurd hact (by rw [hfalse]; exact Bool.false_ne_true)

end Protocol

/-! ### Runs -/

/-- **The protocol is kept** job by job. -/
structure Heard (a : AsrLane) : Prop where
  got : ∀ entry ∈ a.acts, entry.1 ∈ a.got
  working : ∀ job recognition cancelling, a.worker = .recognizing job recognition cancelling →
    job ∈ a.got
  protocol : ∀ job ∈ a.got, ∃ stage, Protocol job stage (actsOf a.acts job) ∧
    ∀ recognition cancelling, a.worker = .recognizing job recognition cancelling →
      Fits job recognition stage

theorem heard_make : Heard make.lane :=
  ⟨fun _ hentry => absurd hentry List.not_mem_nil, fun _ _ _ => AsrWorker.noConfusion,
    fun _ hjob => absurd hjob List.not_mem_nil⟩

/-- A job that is in the queue is not one that was got. -/
theorem Ordered.queued_ne (h : Ordered a) (hgot : job ∈ a.got) {later : RecognitionJob}
    (hlater : later ∈ a.utterances) : job.speechEpoch ≠ later.speechEpoch :=
  ((List.pairwise_append.mp h.epochs).2.2 job hgot later hlater).ne

/-- Nothing is done with the transcripts of a job in the queue. -/
theorem Heard.queued (h : Heard a) (hordered : Ordered a) (hjob : job ∈ a.utterances) :
    actsOf a.acts job = [] := by
  rw [actsOf, List.map_eq_nil_iff, List.filter_eq_nil_iff]
  intro entry hentry
  rw [decide_eq_true_eq]
  exact hordered.queued_ne (h.got entry hentry) hjob

/-- A change of neither the acts nor the jobs that were got. -/
theorem Heard.congr (h : Heard a) (hacts : b.acts = a.acts) (hgot : b.got = a.got)
    (hworker : ∀ job recognition cancelling, b.worker = .recognizing job recognition cancelling →
      ∃ cancelling, a.worker = .recognizing job recognition cancelling) : Heard b := by
  refine ⟨?_, fun job recognition cancelling hb => ?_, fun job hjob => ?_⟩
  · rw [hacts, hgot]
    exact h.got
  · obtain ⟨cancelling', ha⟩ := hworker _ _ _ hb
    rw [hgot]
    exact h.working _ _ _ ha
  · rw [hgot] at hjob
    obtain ⟨stage, hprotocol, hfits⟩ := h.protocol job hjob
    refine ⟨stage, hacts.symm ▸ hprotocol, fun recognition cancelling hb => ?_⟩
    obtain ⟨cancelling', ha⟩ := hworker _ _ _ hb
    exact hfits _ _ ha

/-- Jobs are got from the queue. -/
theorem Heard.gets (h : Heard a) (hordered : Ordered a) (new : List RecognitionJob)
    (hacts : b.acts = a.acts) (hgot : b.got = a.got ++ new)
    (hnew : ∀ job ∈ new, job ∈ a.utterances)
    (hworker : ∀ job recognition cancelling, b.worker = .recognizing job recognition cancelling →
      job ∈ new ∧ recognition = .created) : Heard b := by
  refine ⟨fun entry hentry => ?_, fun job recognition cancelling hb => ?_, fun job hjob => ?_⟩
  · rw [hacts] at hentry
    rw [hgot]
    exact List.mem_append_left _ (h.got entry hentry)
  · rw [hgot]
    exact List.mem_append_right _ (hworker _ _ _ hb).1
  · rw [hgot] at hjob
    rw [hacts]
    rcases List.mem_append.mp hjob with hjob | hjob
    · obtain ⟨stage, hprotocol, -⟩ := h.protocol job hjob
      refine ⟨stage, hprotocol, fun recognition cancelling hb => ?_⟩
      exact absurd rfl (hordered.queued_ne hjob (hnew job (hworker _ _ _ hb).1))
    · refine ⟨.listening (-1), ?_, fun recognition cancelling hb => ?_⟩
      · rw [h.queued hordered (hnew job hjob)]
        exact .start
      · rw [(hworker _ _ _ hb).2]
        rfl

theorem recognizing_of_cancel {worker : AsrWorker} {recognition : Recognition} {cancelling : Bool}
    (h : worker.cancel = .recognizing job recognition cancelling) :
    ∃ cancelling, worker = .recognizing job recognition cancelling := by
  rcases worker with _ | _ | ⟨job', recognition', cancelling'⟩ | _ | _
  case recognizing =>
    injection h with hjob hrecognition
    exact ⟨cancelling', by rw [hjob, hrecognition]⟩
  all_goals cases h

theorem recognizing_of_ensure {worker : AsrWorker} {recognition : Recognition} {cancelling : Bool}
    (h : worker.ensure = .recognizing job recognition cancelling) :
    ∃ cancelling, worker = .recognizing job recognition cancelling := by
  rcases worker with _ | _ | ⟨job', recognition', cancelling'⟩ | _ | _
  case recognizing => exact ⟨cancelling, h⟩
  all_goals cases h

/-- The acts of a step are of the job that is being recognized. -/
theorem actsOf_append {acts : List (RecognitionJob × AsrAct)} {new : List AsrAct}
    {other : RecognitionJob} : actsOf (acts ++ new.map (job, ·)) other =
      actsOf acts other ++ if job.speechEpoch = other.speechEpoch then new else [] := by
  rw [actsOf, List.filter_append, List.map_append, List.filter_map, List.map_map]
  congr 1
  split_ifs with hepoch
  · simp [Function.comp_def, hepoch]
  · simp [Function.comp_def, hepoch]

theorem Heard.step (h : Heard a) (hordered : Ordered a) (hstep : LaneStep policy a b) :
    Heard b := by
  cases hstep with
  | forget | queue | reject => exact h.congr rfl rfl fun _ _ cancelling ha => ⟨cancelling, ha⟩
  | ensure => exact h.congr rfl rfl fun _ _ _ => recognizing_of_ensure
  | cancel | start => exact h.congr rfl rfl fun _ _ _ => recognizing_of_cancel
  | turn worker idle free =>
    exact h.congr rfl rfl fun job recognition cancelling hb => absurd hb (free _ _ _)
  | drain gone =>
    refine h.gets hordered a.utterances rfl rfl (fun _ => id) fun job recognition cancelling hb =>
      ?_
    change a.worker = _ at hb
    rw [hb] at gone
    exact absurd gone Bool.false_ne_true
  | get job utterances waiting queue =>
    refine h.gets hordered [job] rfl rfl (fun job' hjob => ?_)
      fun job' recognition cancelling hb => ?_
    · rw [List.mem_singleton.mp hjob, queue]
      exact List.mem_cons_self
    · change (if _ then _ else _) = _ at hb
      split_ifs at hb
      injection hb with hjob hrecognition
      exact ⟨List.mem_singleton.mpr hjob.symm, hrecognition.symm⟩
  | recognize job recognition next cancelling label acts worker step =>
    -- what is told is of the job in hand
    have hworking := h.working _ _ _ worker
    refine ⟨fun entry hentry => ?_, fun job' recognition' cancelling' hb => ?_,
      fun other hother => ?_⟩
    · rcases List.mem_append.mp hentry with hentry | hentry
      · exact h.got entry hentry
      · obtain ⟨act, -, rfl⟩ := List.mem_map.mp hentry
        exact hworking
    · injection hb with hjob
      exact hjob ▸ hworking
    · obtain ⟨stage, hprotocol, hfits⟩ := h.protocol other hother
      change ∃ stage, Protocol other stage (actsOf (a.acts ++ acts.map (job, ·)) other) ∧ _
      rw [actsOf_append]
      by_cases hepoch : job.speechEpoch = other.speechEpoch
      · obtain rfl := hordered.job_unique (List.mem_append_left _ hworking)
          (List.mem_append_left _ hother) hepoch
        obtain ⟨stage', hprotocol', hfits'⟩ := hprotocol.step (hfits _ _ worker) step
        rw [if_pos rfl]
        refine ⟨stage', hprotocol', fun recognition' cancelling' hb => ?_⟩
        injection hb with _ hrecognition
        exact hrecognition ▸ hfits'
      -- other jobs are of other epochs
      · rw [if_neg hepoch, List.append_nil]
        refine ⟨stage, hprotocol, fun recognition' cancelling' hb => ?_⟩
        injection hb with hjob
        exact absurd (congrArg _ hjob) hepoch

/-- What the sink is handed of the transcripts. -/
structure FreshTranscripts (history : VoiceInputHistory) : Prop where
  /-- Every act is on a job that was got from the queue, and its epoch names the job. -/
  got : ∀ entry ∈ history.acts, entry.1 ∈ history.got
  named : ∀ job ∈ history.got, ∀ job' ∈ history.got,
    job.speechEpoch = job'.speechEpoch → job = job'
  /-- What the sink is handed is of the utterance, while its epoch is the current one. -/
  fresh : ∀ job ∈ history.got, ∀ act ∈ actsOf history.acts job, act.Fresh job
  revisions : ∀ job ∈ history.got, (revisionsOf (actsOf history.acts job)).Pairwise (· < ·)
  /-- A final is handed over after the end of the recognizer's stream, and last; there is no
  other, and there was no violation. -/
  final : ∀ job ∈ history.got, ∀ before event current after,
    actsOf history.acts job = before ++ .handedFinal event current :: after →
      .streamEnded ∈ before ∧ after = [] ∧
      (∀ event current, .handedFinal event current ∉ before) ∧
        ∀ message, .violated message ∉ before

/-- **Transcripts are fresh**, and follow the protocol: whatever is heard, whenever new speech
starts and however the tasks take turns. -/
theorem transcripts_fresh (h : (machine uuid5 policy).Reachable s) :
    FreshTranscripts s.history := by
  obtain ⟨hordered, hheard⟩ := lane_invariant (I := fun a => Ordered a ∧ Heard a)
    ⟨ordered_make, heard_make⟩ (fun a b ha hstep => ⟨ha.1.step hstep, ha.2.step ha.1 hstep⟩) h
  refine ⟨hheard.got, fun job hjob job' hjob' hepoch => ?_, fun job hjob => ?_, fun job hjob => ?_,
    fun job hjob before event current after hacts => ?_⟩
  · exact hordered.job_unique (List.mem_append_left _ hjob) (List.mem_append_left _ hjob') hepoch
  · obtain ⟨stage, hprotocol, -⟩ := hheard.protocol job hjob
    exact hprotocol.fresh
  · obtain ⟨stage, hprotocol, -⟩ := hheard.protocol job hjob
    exact hprotocol.revisions.1
  · obtain ⟨stage, hprotocol, -⟩ := hheard.protocol job hjob
    obtain ⟨hafter, hbefore, hended⟩ := hprotocol.terminal_last hacts rfl
    refine ⟨hended _ _ rfl, hafter, fun event current hmem => ?_, fun message hmem => ?_⟩
    · exact Bool.false_ne_true (hbefore _ hmem).symm
    · exact Bool.false_ne_true (hbefore _ hmem).symm

/-- An utterance is spoken, and heard of twice. -/
def heardLabels (utteranceId : UUID) : List Label :=
  [.startStream 7 narrow, .resume 0 .returned, .processFrame (frameAt 0 10), .resume 0 .returned,
    .processFrame (frameAt 1 0), .workerGets, .recognizes .begins,
    .recognizes (.yields (.hypothesis ⟨utteranceId, 0, ['a']⟩)), .recognizes .sinkReturns,
    .recognizes (.yields (.final ⟨utteranceId, ['a', 'b']⟩)), .recognizes .streamEnds,
    .recognizes .sinkReturns, .workerResumes]

/-- The final of an utterance is handed over after a partial. -/
theorem transcripts_fresh_final : ∃ s : VoiceInput,
    (machine nameId promptPolicy).run make (heardLabels (nameId 7 "speech:0")) = some s ∧
    s.history.acts.length = 3 ∧ FreshTranscripts s.history := by
  have hrun : (((machine nameId promptPolicy).run make (heardLabels (nameId 7 "speech:0"))).map
      fun s => s.history.acts.length) = some 3 := by decide +kernel
  obtain ⟨s, hs, hacts⟩ := Option.map_eq_some_iff.mp hrun
  exact ⟨s, hs, hacts, transcripts_fresh (Machine.reachable_of_run rfl hs)⟩

end VoiceInput

end Eeveetuber
