import Eeveetuber.Avatar.SchedulerRejection

/-!
# What an operation decides about cues

An operation has made up its mind about every cue before it turns to the neutral ones, and there
the neutral factory may raise. The verdicts of an operation are therefore read off a scheduler
that has no factory: `Eeveetuber.PresentationScheduler.decisions`. The caller gets these verdicts,
or an exception (`Eeveetuber.PresentationScheduler.results_eq_decisions`).

`Eeveetuber.PresentationScheduler.Acts` says what each operation makes of the queue of cues that
wait for their audio, and of the markers, in the light of its verdicts; it holds whether or not
the factory raises (`Eeveetuber.PresentationScheduler.perform_acts`).
-/

namespace Eeveetuber

open Foundation Foundation.Stateful

/-- What becomes of a cue. -/
abbrev CueVerdict := ScheduleStatus × PresentationCue

def ScheduleResult.verdict (r : ScheduleResult) : CueVerdict := (r.status, r.cue)

def SchedulerBatch.verdicts (b : SchedulerBatch) : List CueVerdict := b.results.map (·.verdict)

/-- Operations that decide about cues. -/
def SchedulerOperation.decides : SchedulerOperation → Bool
  | .submit _ | .notifyAudio _ | .tick => true
  | _ => false

namespace PresentationScheduler

variable {op : SchedulerOperation} {now : ℚ} {s t u v : PresentationScheduler}
  {cue : PresentationCue} {marker : AudioTimelineMarker} {binding : AudioTimelineBinding}
  {vs ws : List CueVerdict}

/-- The scheduler without its neutral factory, so that it restores nothing. -/
def unstaffed (s : PresentationScheduler) : PresentationScheduler :=
  { s with neutralFactory := none }

/-- **What an operation decides** about the cues it looks at. -/
def decisions (now : ℚ) (op : SchedulerOperation) (s : PresentationScheduler) : List CueVerdict :=
  match (outcome (perform (some now) op) s.unstaffed).1 with
  | .ok batch => batch.verdicts
  | .error _ => []

/-! ### The queue -/

/-- What cues wait for is the same. -/
structure SameQueue (s t : PresentationScheduler) : Prop where
  generation : t.generation = s.generation
  pending : t.pending = s.pending
  audioMarkers : t.audioMarkers = s.audioMarkers

theorem SameQueue.refl (s : PresentationScheduler) : SameQueue s s := ⟨rfl, rfl, rfl⟩

theorem SameQueue.trans (h : SameQueue s t) (h' : SameQueue t u) : SameQueue s u :=
  ⟨h'.generation.trans h.generation, h'.pending.trans h.pending,
    h'.audioMarkers.trans h.audioMarkers⟩

theorem SameQueue.symm (h : SameQueue s t) : SameQueue t s :=
  ⟨h.generation.symm, h.pending.symm, h.audioMarkers.symm⟩

theorem Unmoved.sameQueue (h : Unmoved s t) : SameQueue s t :=
  ⟨h.generation, h.pending, h.audioMarkers⟩

theorem Alike.sameQueue {G : Source → Source → Prop} {last : ℚ} (h : Alike G id last s t) :
    SameQueue s t := by
  refine ⟨h.generation, ?_, h.audioMarkers⟩
  rw [h.pending]
  ext1
  exact List.map_id _

/-- A cue that may start now, as far as its own life and its generation are concerned. -/
structure Timely (s : PresentationScheduler) (now : ℚ) (cue : PresentationCue) : Prop where
  expired : cue.expired now = false
  generation : cue.generation = s.generation

/-- **The queue is worked off**: cues are taken from it, and those that start are due. -/
structure Consumes (now : ℚ) (s : PresentationScheduler) (vs : List CueVerdict)
    (t : PresentationScheduler) : Prop where
  generation : t.generation = s.generation
  audioMarkers : t.audioMarkers = s.audioMarkers
  pending : ∀ p ∈ t.pending, ∃ q ∈ s.pending, q.cue = p.cue ∧ q.dueAt = p.dueAt
  started : ∀ cue, (.started, cue) ∈ vs → Timely s now cue ∧
    ∃ q ∈ s.pending, q.cue = cue ∧ (q.dueAt.any fun due => due ≤ now) = true

theorem SameQueue.consumes (h : SameQueue s t) : Consumes now s [] t where
  generation := h.generation
  audioMarkers := h.audioMarkers
  pending p hp := ⟨p, h.pending ▸ hp, rfl, rfl⟩
  started _ hmem := absurd hmem List.not_mem_nil

theorem Consumes.trans (h : Consumes now s vs t) (h' : Consumes now t ws u) :
    Consumes now s (vs ++ ws) u where
  generation := h'.generation.trans h.generation
  audioMarkers := h'.audioMarkers.trans h.audioMarkers
  pending p hp := by
    obtain ⟨q, hq, hcue, hdue⟩ := h'.pending p hp
    obtain ⟨r, hr, hcue', hdue'⟩ := h.pending q hq
    exact ⟨r, hr, hcue'.trans hcue, hdue'.trans hdue⟩
  started cue hmem := by
    rcases List.mem_append.mp hmem with hmem | hmem
    · exact h.started cue hmem
    · obtain ⟨⟨hexpired, hgeneration⟩, q, hq, hcue, hdue⟩ := h'.started cue hmem
      obtain ⟨r, hr, hcue', hdue'⟩ := h.pending q hq
      refine ⟨⟨hexpired, hgeneration.trans h.generation⟩, r, hr, hcue'.trans hcue, ?_⟩
      rwa [hdue']

/-- What happens after the queue was left alone. -/
theorem Consumes.after (h : Consumes now s [] t) (h' : Consumes now t vs u) : Consumes now s vs u :=
  h.trans h'

/-- An id that nothing waits under stays so. -/
theorem Consumes.forall_ne {cueId : Text} (h : Consumes now s vs t)
    (hs : ∀ p ∈ s.pending, p.cue.cueId ≠ cueId) : ∀ p ∈ t.pending, p.cue.cueId ≠ cueId := by
  intro p hp
  obtain ⟨q, hq, hcue, -⟩ := h.pending p hp
  rw [← hcue]
  exact hs q hq

/-- The queue is left alone afterwards. -/
theorem Consumes.before (h : Consumes now s vs t) (h' : SameQueue t u) : Consumes now s vs u := by
  have hboth := h.trans h'.consumes
  rwa [List.append_nil] at hboth

theorem bindPending_dueAt {p q : PendingCue} (hcue : q.cue = p.cue) (hdue : q.dueAt = p.dueAt) :
    (bindPending marker q).dueAt = (bindPending marker p).dueAt := by
  rw [bindPending, bindPending, hcue]
  split
  · exact hdue
  · split_ifs
    · rfl
    · exact hdue

theorem mem_notified {p : PendingCue} :
    p ∈ (s.notified marker).pending ↔ ∃ q ∈ s.pending, bindPending marker q = p := by
  rw [notified, Keyed.mem_map]

theorem Consumes.notified (h : Consumes now s [] t) (hpolicy : t.policy = s.policy) :
    Consumes now (s.notified marker) [] (t.notified marker) where
  generation := h.generation
  audioMarkers := by
    show ((t.audioMarkers.insert marker).moveToEnd _).keepLast _ =
      ((s.audioMarkers.insert marker).moveToEnd _).keepLast _
    rw [h.audioMarkers, hpolicy]
  pending p' hp' := by
    obtain ⟨p, hp, rfl⟩ := mem_notified.mp hp'
    obtain ⟨q, hq, hcue, hdue⟩ := h.pending p hp
    refine ⟨bindPending marker q, mem_notified.mpr ⟨q, hq, rfl⟩, ?_, bindPending_dueAt hcue hdue⟩
    rw [bindPending_cue, bindPending_cue, hcue]
  started _ hmem := absurd hmem List.not_mem_nil

theorem Consumes.queued (h : Consumes now s [] t) :
    Consumes now (s.queued cue binding) [] (t.queued cue binding) where
  generation := h.generation
  audioMarkers := h.audioMarkers
  pending p hp := by
    rcases Keyed.mem_insert.mp hp with rfl | ⟨hp, hne⟩
    · refine ⟨_, Keyed.mem_insert_self, rfl, ?_⟩
      show Option.map _ (s.audioMarkers.find? _) = Option.map _ (t.audioMarkers.find? _)
      rw [h.audioMarkers]
    · obtain ⟨q, hq, hcue, hdue⟩ := h.pending p hp
      exact ⟨q, Keyed.mem_insert.mpr (.inr ⟨hq, by rwa [hcue]⟩), hcue, hdue⟩
  started _ hmem := absurd hmem List.not_mem_nil

/-! ### The parts of an operation -/

theorem triple_expire_queue : Triple (fun t => s = t) (expire now)
    (fun _ t => Consumes now s [] t ∧ t.policy = s.policy) fun _ => False := by
  have hmem : ∀ lease ∈ s.sortedActive.filter (fun l => l.expired now), lease ∈ s.active :=
    fun lease hl => mem_sortedActive.mp (List.mem_of_mem_filter hl)
  have hnd : (s.sortedActive.filter fun l => l.expired now).Nodup := s.nodup_sortedActive.filter _
  rintro _ rfl
  rw [expire, outcome_get_bind,
    outcome_bind_of_ok (outcome_endLeases _ _ _ (fun _ => true) hmem hnd),
    outcome_modify_bind, outcome_modify_bind, outcome_pure]
  refine ⟨⟨endedAll_generation .., endedAll_audioMarkers .., fun p hp => ?_,
    fun _ hmem => absurd hmem List.not_mem_nil⟩, endedAll_policy ..⟩
  obtain ⟨hp, -⟩ := Keyed.mem_filter.mp hp
  rw [endedAll_pending] at hp
  exact ⟨p, hp, rfl, rfl⟩

theorem launched_generation : (s.launched cue now).generation = s.generation :=
  launched_frame (·.generation) (fun _ _ _ _ _ => rfl) (fun _ _ => rfl) (fun _ _ => rfl) cue

theorem launched_audioMarkers : (s.launched cue now).audioMarkers = s.audioMarkers :=
  launched_frame (·.audioMarkers) (fun _ _ _ _ _ => rfl) (fun _ _ => rfl) (fun _ _ => rfl) cue

theorem startRejection_rejected {result : ScheduleResult}
    (h : s.startRejection cue now = some result) : result.status.rejected = true := by
  rw [startRejection] at h
  split at h
  · cases h
    rfl
  split at h
  · cases h
    dsimp only
    split
    · rfl
    · rfl
  split at h
  · cases h
    rfl
  dsimp only at h
  split at h
  · cases h
  · cases h
    rfl

/-- **An attempt to start a cue** succeeds only in its time. -/
theorem triple_attemptStart_queue : Triple (fun t => s = t) (attemptStart cue now)
    (fun result t => SameQueue s t ∧ result.cue = cue ∧ (result.status.rejected = true ∨
      result.status = .started ∧ Timely s now cue)) fun _ => False := by
  rintro _ rfl
  rw [attemptStart, outcome_get_bind]
  rcases hr : s.startRejection cue now with _ | rejection
  · obtain ⟨hexp, hgen, -, -⟩ := startRejection_eq_none hr
    obtain ⟨rejection, g, l, hout, -, -, hrejection⟩ := outcome_limitRejection s cue now
    dsimp only
    rw [outcome_bind_of_ok hout]
    rcases rejection with _ | rejection
    · dsimp only
      rw [outcome_startCue_eq]
      exact ⟨⟨launched_generation, launched_pending, launched_audioMarkers⟩, rfl,
        .inr ⟨rfl, hexp, hgen⟩⟩
    · obtain ⟨hcue, -, hstatus⟩ := hrejection rejection rfl
      refine ⟨⟨rfl, rfl, rfl⟩, hcue, .inl ?_⟩
      rcases hstatus with hstatus | hstatus
      · rw [hstatus]
        rfl
      · rw [hstatus]
        rfl
  · exact ⟨⟨rfl, rfl, rfl⟩, (startRejection_eq_some hr).1, .inl (startRejection_rejected hr)⟩

/-- One round of the loop of `_start_due`. -/
theorem triple_startPending_queue {p : PendingCue} (hp : p ∈ s.duePending now)
    (ht : Consumes now s vs t) : Triple (fun u => t = u) (startPending now p)
      (fun answer u => Consumes now s (vs ++ answer.toList.map (·.verdict)) u)
      fun _ => False := by
  have hpopped : Consumes now s vs (t.popped p.cue) :=
    ⟨ht.generation, ht.audioMarkers, fun q hq => ht.pending q (Keyed.mem_erase.mp hq).1,
      ht.started⟩
  rw [startPending]
  refine Triple.read (Triple.change ?_)
  split
  · refine triple_attemptStart_queue.bind fun result => Triple.answer ?_
    rintro u ⟨hsame, hcue, hstatus⟩
    obtain ⟨hmem, hdue⟩ := mem_duePending.mp hp
    refine ⟨hsame.generation.trans hpopped.generation,
      hsame.audioMarkers.trans hpopped.audioMarkers,
      fun q hq => hpopped.pending q (hsame.pending ▸ hq), fun cue hstarted => ?_⟩
    rcases List.mem_append.mp hstarted with hstarted | hstarted
    · exact ht.started cue hstarted
    · obtain ⟨hstarted, hid⟩ := Prod.ext_iff.mp (List.mem_singleton.mp hstarted)
      rcases hstatus with hrejected | ⟨-, hexpired, hgeneration⟩
      · have hnot : ScheduleStatus.rejected .started = true := by
          rw [← hrejected]
          exact congrArg _ hstarted
        cases hnot
      · obtain rfl : cue = p.cue := hid.trans hcue
        exact ⟨⟨hexpired, hgeneration.trans ht.generation⟩, p, hmem, rfl, hdue⟩
  · refine Triple.answer ?_
    rintro _ rfl
    rwa [Option.toList_none, List.map_nil, List.append_nil]

/-- **What is due is started.** -/
theorem triple_startDue_queue : Triple (fun t => s = t) (startDue now)
    (fun results t => Consumes now s (results.map (·.verdict)) t) fun _ => False := by
  rw [startDue]
  refine Triple.read ?_
  have hloop := Triple.mapM (g := startPending now) (E := fun _ => False)
    (I := fun rest answers t => (∀ p ∈ rest, p ∈ s.duePending now) ∧
      Consumes now s (answers.reduceOption.map (·.verdict)) t)
    (fun p rest answers => Triple.each fun t h => by
      obtain ⟨hrest, ht⟩ := h
      refine (triple_startPending_queue (hrest p List.mem_cons_self) ht).post fun answer u hu => ?_
      have hconcat : (answers ++ [answer]).reduceOption =
          answers.reduceOption ++ answer.toList := by
        rcases answer with _ | result
        · exact List.reduceOption_append _ _
        · exact List.reduceOption_append _ _
      rw [hconcat, List.map_append]
      exact ⟨fun q hq => hrest q (List.mem_cons_of_mem _ hq), hu⟩)
    (s.duePending now)
  refine (hloop.pre ?_).bind fun answers => Triple.answer fun t ht => ht.2
  rintro _ rfl
  exact ⟨fun _ => id, (SameQueue.refl s).consumes⟩

/-! ### What each operation makes of the queue -/

/-- A cue was submitted: it is turned away, waits for its audio, or starts in its time, when
the marker that it is bound to is stored and due. -/
def Submitted (now : ℚ) (s : PresentationScheduler) (cue : PresentationCue)
    (t : PresentationScheduler) : ScheduleStatus → Prop
  | .pendingAudio => cue.generation = s.generation ∧ ∃ binding ∈ cue.audioBinding,
      Consumes now (s.queued cue binding) [] t
  | .started => Consumes now s [] t ∧ (∀ p ∈ t.pending, p.cue.cueId ≠ cue.cueId) ∧
      Timely s now cue ∧ ∀ binding ∈ cue.audioBinding, ∃ marker ∈ s.audioMarkers,
        marker.key = binding.key ∧ marker.occurredAt + binding.offsetS ≤ now
  | _ => Consumes now s [] t

theorem submitted_iff_of_rejected {status : ScheduleStatus} (hstatus : status.rejected = true) :
    Submitted now s cue t status ↔ Consumes now s [] t := by
  rcases status with _ | _ | _ | _ | _ | _ | _ | _ | _ | _ | _
  case started | pendingAudio => cases hstatus
  all_goals exact Iff.rfl

/-- A cue is submitted after the queue was worked off, and the queue is left alone afterwards. -/
theorem Submitted.amid {status : ScheduleStatus} (h : Submitted now t cue u status)
    (ht : Consumes now s [] t) (hu' : SameQueue u v) : Submitted now s cue v status := by
  rcases status with _ | _ | _ | _ | _ | _ | _ | _ | _ | _ | _
  case started =>
    obtain ⟨hu, hnew, ⟨hexpired, hgeneration⟩, hmarker⟩ := h
    rw [ht.audioMarkers] at hmarker
    rw [← hu'.pending] at hnew
    exact ⟨(ht.after hu).before hu', hnew, ⟨hexpired, hgeneration.trans ht.generation⟩, hmarker⟩
  case pendingAudio =>
    obtain ⟨hgeneration, binding, hbinding, hu⟩ := h
    exact ⟨hgeneration.trans ht.generation, binding, hbinding, (ht.queued.after hu).before hu'⟩
  all_goals exact (ht.after h).before hu'

/-- No cue comes to wait, and what does wait belongs to the same generation as before. -/
structure Shrinks (s t : PresentationScheduler) : Prop where
  pending : ∀ p ∈ t.pending, p ∈ s.pending
  audioMarkers : ∀ m ∈ t.audioMarkers, m ∈ s.audioMarkers
  generation : t.generation = s.generation ∨
    (∀ p, p ∉ t.pending) ∧ ∀ m, m ∉ t.audioMarkers

/-- What an operation that came to these verdicts makes of the queue and the markers. -/
def Acts (now : ℚ) (s : PresentationScheduler) (vs : List CueVerdict) (t : PresentationScheduler) :
    SchedulerOperation → Prop
  | .submit cue => ∃ status, vs = [(status, cue)] ∧ Submitted now s cue t status
  | .notifyAudio marker =>
    if s.connected = true ∧ marker.generation = s.generation then
      Consumes now (s.notified marker) vs t
    else vs = [] ∧ SameQueue s t
  | .tick => Consumes now s vs t
  | _ => vs = [] ∧ Shrinks s t

theorem validateSubmission_rejected {status : ScheduleStatus}
    (h : s.validateSubmission cue now = some status) : status.rejected = true := by
  rw [validateSubmission] at h
  repeat' split at h
  all_goals cases h
  all_goals rfl

/-- Neutral cues are restored, and the queue is left alone. -/
theorem Consumes.restored {α : Type} {f : List PresentationEvent → α} (h : Consumes now s vs t) :
    Triple (fun u => t = u)
      (do return f (← restoreNeutrals now) : SchedulerM α)
      (fun a u => (∃ es, a = f es) ∧ Consumes now s vs u) fun _ => True := by
  refine Triple.bind (Q := fun _ u => Unmoved t u) (triple_restoreNeutrals_unmoved.weaken
    (fun _ => id) (fun _ _ => id) fun _ _ => trivial) fun es => Triple.answer fun u hu => ?_
  exact ⟨⟨es, rfl⟩, h.before hu.sameQueue⟩

theorem triple_runDue_queue {es : List PresentationEvent} :
    Triple (fun t => s = t) (runDue es now) (fun batch t => Consumes now s batch.verdicts t)
      fun _ => True := by
  rw [runDue]
  refine triple_startDue_queue.never.bind fun results => Triple.each fun t ht =>
    ht.restored.post ?_
  rintro _ u ⟨⟨restored, rfl⟩, hu⟩
  exact hu

theorem triple_tick_queue : Triple (fun t => s = t) (tick (some now))
    (fun batch t => Consumes now s batch.verdicts t) fun _ => True := by
  rw [tick, PresentationScheduler.now, pure_bind]
  refine triple_expire_queue.never.bind fun expired => Triple.each fun t ht =>
    triple_runDue_queue.post fun batch u hu => ht.1.after hu

theorem triple_notifyAudio_queue : Triple (fun t => s = t) (notifyAudio (some now) marker)
    (fun batch t => Acts now s batch.verdicts t (.notifyAudio marker)) fun _ => True := by
  rw [notifyAudio]
  refine Triple.read ?_
  split
  · rename_i hstop
    refine Triple.answer ?_
    rintro _ rfl
    rw [Acts, if_neg]
    · exact ⟨rfl, .refl s⟩
    · rintro ⟨hconn, hgen⟩
      rcases hstop with hstop | hstop
      · rw [hconn] at hstop
        cases hstop
      · exact hstop hgen
  · rename_i hpass
    rw [not_or, Bool.not_eq_false, not_not] at hpass
    rw [PresentationScheduler.now, pure_bind]
    refine triple_expire_queue.never.bind fun expired => Triple.each fun t ht => ?_
    refine Triple.change (Triple.change (triple_runDue_queue.post fun batch u hu => ?_))
    rw [Acts, if_pos hpass]
    exact (ht.1.notified ht.2).after hu

theorem triple_submitNow_queue {es : List PresentationEvent} :
    Triple (fun t => s = t) (submitNow es cue now)
      (fun result t => result.cue = cue ∧ Consumes now s [] t ∧ (result.status.rejected = true ∨
        result.status = .started ∧ Timely s now cue)) fun _ => True := by
  rw [submitNow]
  refine triple_attemptStart_queue.never.bind fun result => Triple.each ?_
  rintro t ⟨hsame, hcue, hstatus⟩
  refine (Consumes.restored hsame.consumes).post ?_
  rintro _ u ⟨⟨restored, rfl⟩, hu⟩
  exact ⟨hcue, hu, hstatus⟩

theorem triple_submitBound_queue {es : List PresentationEvent}
    (hbinding : cue.audioBinding = some binding) (hvalid : s.validateSubmission cue now = none) :
    Triple (fun t => s = t) (submitBound es cue binding now)
      (fun result t => result.cue = cue ∧ Submitted now s cue t result.status) fun _ => True := by
  obtain ⟨-, hgeneration, -, -, hnew⟩ := validateSubmission_eq_none hvalid
  have hself : Consumes now s [] s := (SameQueue.refl s).consumes
  have hqueued : Consumes now (s.queued cue binding) [] (s.queued cue binding) :=
    (SameQueue.refl _).consumes
  rw [submitBound]
  refine Triple.read ?_
  dsimp only
  split
  · refine hself.restored.post ?_
    rintro _ u ⟨⟨restored, rfl⟩, hu⟩
    exact ⟨rfl, hu⟩
  · refine Triple.bind (Q := fun n u => { s with sequence := n } = u ∧ n = s.sequence + 1) ?_
      fun n => Triple.each ?_
    · rintro _ rfl
      exact ⟨rfl, rfl⟩
    rintro _ ⟨rfl, rfl⟩
    refine Triple.change ?_
    split
    · refine hqueued.restored.post ?_
      rintro _ u ⟨⟨restored, rfl⟩, hu⟩
      exact ⟨rfl, hgeneration, binding, hbinding, hu⟩
    · rename_i due hdue
      split
      · refine hqueued.restored.post ?_
        rintro _ u ⟨⟨restored, rfl⟩, hu⟩
        exact ⟨rfl, hgeneration, binding, hbinding, hu⟩
      · -- the marker is due, and the cue leaves the queue at once
        rename_i hnow
        refine Triple.change (triple_submitNow_queue.post ?_)
        rintro result u ⟨hcue, hu, hstatus⟩
        have hpopped : Consumes now s [] ((s.queued cue binding).popped cue) := by
          refine ⟨rfl, rfl, fun p hp => ?_, fun _ hmem => absurd hmem List.not_mem_nil⟩
          obtain ⟨hp, hne⟩ := Keyed.mem_erase.mp hp
          rcases Keyed.mem_insert.mp hp with rfl | ⟨hp, -⟩
          · exact absurd rfl hne
          · exact ⟨p, hp, rfl, rfl⟩
        have htaken : Consumes now s [] u := hpopped.after hu
        refine ⟨hcue, ?_⟩
        rcases hstatus with hstatus | ⟨hstatus, htimely⟩
        · exact (submitted_iff_of_rejected hstatus).mpr htaken
        · obtain ⟨m, hfind, rfl⟩ := Option.map_eq_some_iff.mp hdue
          obtain ⟨hm, hkey⟩ := Keyed.find?_eq_some.mp hfind
          rw [hstatus]
          refine ⟨htaken, htaken.forall_ne hnew, ⟨htimely.expired, htimely.generation⟩,
            fun binding' hbinding' => ?_⟩
          obtain rfl : binding = binding' := Option.some.inj (hbinding.symm.trans hbinding')
          exact ⟨m, hm, hkey, not_lt.mp hnow⟩

theorem triple_submit_queue : Triple (fun t => s = t) (submit (some now) cue)
    (fun result t => result.cue = cue ∧ Submitted now s cue t result.status) fun _ => True := by
  rw [submit, PresentationScheduler.now, pure_bind]
  refine triple_expire_queue.never.bind fun expired => Triple.each fun t hrun => ?_
  obtain ⟨ht, -⟩ := hrun
  refine Triple.read ?_
  split
  · rename_i rejection hrejection
    refine ht.restored.post ?_
    rintro _ u ⟨⟨restored, rfl⟩, hu⟩
    exact ⟨rfl, (submitted_iff_of_rejected (validateSubmission_rejected hrejection)).mpr hu⟩
  · rename_i hvalid
    split
    · rename_i hbinding
      refine triple_submitNow_queue.post ?_
      rintro result u ⟨hcue, hu, hstatus⟩
      refine ⟨hcue, ?_⟩
      rcases hstatus with hstatus | ⟨hstatus, hexpired, hgeneration⟩
      · exact (submitted_iff_of_rejected hstatus).mpr (ht.after hu)
      · rw [hstatus]
        refine ⟨ht.after hu, hu.forall_ne (validateSubmission_eq_none hvalid).2.2.2.2,
          ⟨hexpired, hgeneration.trans ht.generation⟩, fun binding hmem => ?_⟩
        rw [hbinding] at hmem
        cases hmem
    · rename_i binding hbinding
      refine (triple_submitBound_queue hbinding hvalid).post ?_
      rintro result u ⟨hcue, hu⟩
      exact ⟨hcue, hu.amid ht (.refl u)⟩

/-! ### With and without a neutral factory -/

/-- The second scheduler has no neutral factory. -/
def Unstaffed (_ b : Source) : Prop := b.1 = none

theorem unstaffed_alike (s : PresentationScheduler) (now : ℚ) :
    Alike Unstaffed id now s s.unstaffed where
  generation := rfl
  policy := rfl
  source := rfl
  connected := rfl
  active := rfl
  activeByLayer := rfl
  pending := by
    ext1
    exact (List.map_id _).symm
  audioMarkers := rfl
  cooldownUntil := rfl
  globalStarts _ _ _ _ := rfl
  layerStarts _ _ _ _ _ := rfl
  needsNeutral := rfl
  sequence _ := rfl
  increasing := strictMono_id

/-- The second run answers. So does the first, with the same verdicts, unless it raises. -/
structure Shadowed {α : Type} (f : α → List CueVerdict)
    (p q : Except String α × PresentationScheduler) : Prop where
  queue : SameQueue p.2 q.2
  answer : ∃ b, q.1 = .ok b ∧ ∀ a, p.1 = .ok a → f a = f b

section Shadows

variable {α β γ : Type} {f : α → List CueVerdict} {x : SchedulerM β} {y : SchedulerM γ} {g : β → γ}
  {k : β → SchedulerM α} {k' : γ → SchedulerM α}

theorem Shadowed.done {a b : α} (hst : SameQueue s t) (hab : f a = f b) :
    Shadowed f (outcome (pure a : SchedulerM α) s) (outcome (pure b : SchedulerM α) t) := by
  refine ⟨hst, b, rfl, ?_⟩
  rintro _ ⟨⟩
  exact hab

/-- A first part that looks at cues only. -/
theorem Shadowed.bind {Q : β → PresentationScheduler → Prop}
    (hx : Triple (fun t => s = t) x Q fun _ => False)
    (hxy : Agrees (Alike Unstaffed id now) g (outcome x s) (outcome y t))
    (hk : ∀ b u v, Alike Unstaffed id now u v →
      Shadowed f (outcome (k b) u) (outcome (k' (g b)) v)) :
    Shadowed f (outcome (x >>= k) s) (outcome (y >>= k') t) := by
  obtain ⟨b, u, hout, -⟩ := hx.answers rfl
  obtain ⟨v, hout', huv⟩ := hxy.of_ok hout
  rw [outcome_bind_of_ok hout, outcome_bind_of_ok hout']
  exact hk b u v huv

/-- Neutral cues are restored by the first scheduler only. -/
theorem Shadowed.restored (h : Alike Unstaffed id now s t) {f' f'' : List PresentationEvent → α}
    (hf : ∀ es es', f (f' es) = f (f'' es')) :
    Shadowed f (outcome (do return f' (← restoreNeutrals now) : SchedulerM α) s)
      (outcome (do return f'' (← restoreNeutrals now) : SchedulerM α) t) := by
  have hnone : t.neutralFactory = none := h.source
  have hout : outcome (restoreNeutrals now) t = (.ok [], t) := by
    rw [restoreNeutrals, outcome_get_bind, hnone]
    split_ifs
    · rfl
    · rfl
  rw [outcome_bind_of_ok hout]
  rcases hs : outcome (restoreNeutrals now) s with ⟨e | es, u⟩
  · have hu : Unmoved s u := triple_restoreNeutrals_unmoved.raised rfl hs
    rw [outcome_bind_of_error hs]
    refine ⟨hu.sameQueue.symm.trans h.sameQueue, _, rfl, ?_⟩
    rintro _ ⟨⟩
  · have hu : Unmoved s u := triple_restoreNeutrals_unmoved.ok rfl hs
    rw [outcome_bind_of_ok hs]
    exact .done (hu.sameQueue.symm.trans h.sameQueue) (hf es [])

end Shadows

theorem shadowed_runDue (h : Alike Unstaffed id now s t) (es es' : List PresentationEvent) :
    Shadowed SchedulerBatch.verdicts (outcome (runDue es now) s) (outcome (runDue es' now) t) := by
  rw [runDue, runDue]
  refine .bind triple_startDue_queue h.startDue fun results u v huv => .restored huv fun _ _ => ?_
  rw [SchedulerBatch.verdicts, SchedulerBatch.verdicts, List.map_map]
  rfl

theorem shadowed_submitNow (h : Alike Unstaffed id now s t) (es es' : List PresentationEvent)
    (cue : PresentationCue) :
    Shadowed (fun r => [r.verdict]) (outcome (submitNow es cue now) s)
      (outcome (submitNow es' cue now) t) := by
  rw [submitNow, submitNow]
  exact .bind triple_attemptStart_queue (h.attemptStart cue) fun result u v huv =>
    .restored huv fun _ _ => rfl

theorem shadowed_submitBound (h : Alike Unstaffed id now s t) (es es' : List PresentationEvent)
    (cue : PresentationCue) (binding : AudioTimelineBinding) :
    Shadowed (fun r => [r.verdict]) (outcome (submitBound es cue binding now) s)
      (outcome (submitBound es' cue binding now) t) := by
  have hlength : t.pending.length = s.pending.length := by
    rw [h.pending]
    exact Keyed.length_map
  rw [submitBound, submitBound, outcome_get_bind, outcome_get_bind, h.policy, hlength,
    h.audioMarkers]
  dsimp only
  split_ifs
  · exact .restored h fun _ _ => rfl
  · refine .bind (Q := fun _ _ => True) (fun _ _ => trivial) h.nextSequence fun n u v huv => ?_
    rw [outcome_modify_bind, outcome_modify_bind]
    generalize ((s.audioMarkers.find? binding.key).map fun m => m.occurredAt + binding.offsetS) =
      dueAt
    have hqueued := huv.insertPending ⟨cue, n, dueAt⟩
    rcases dueAt with _ | due
    · exact .restored hqueued fun _ _ => rfl
    · dsimp only
      split_ifs
      · exact .restored hqueued fun _ _ => rfl
      · rw [outcome_modify_bind, outcome_modify_bind]
        exact shadowed_submitNow (hqueued.popped cue) es es' cue

theorem shadowed_submit (h : Alike Unstaffed id now s t) (cue : PresentationCue) :
    Shadowed (fun r => [r.verdict]) (outcome (submit (some now) cue) s)
      (outcome (submit (some now) cue) t) := by
  rw [submit, outcome_now_bind, outcome_now_bind]
  refine .bind triple_expire_queue h.expire fun expired u v huv => ?_
  rw [outcome_get_bind, outcome_get_bind, huv.validateSubmission]
  rcases u.validateSubmission cue now with _ | rejection
  · dsimp only
    rcases cue.audioBinding with _ | binding
    · exact shadowed_submitNow huv expired _ cue
    · exact shadowed_submitBound huv expired _ cue binding
  · exact .restored huv fun _ _ => rfl

theorem shadowed_tick (h : Alike Unstaffed id now s t) :
    Shadowed SchedulerBatch.verdicts (outcome (tick (some now)) s)
      (outcome (tick (some now)) t) := by
  rw [tick, outcome_now_bind, outcome_now_bind]
  exact .bind triple_expire_queue h.expire fun expired u v huv => shadowed_runDue huv expired _

theorem shadowed_notifyAudio (h : Alike Unstaffed id now s t) (marker : AudioTimelineMarker) :
    Shadowed SchedulerBatch.verdicts (outcome (notifyAudio (some now) marker) s)
      (outcome (notifyAudio (some now) marker) t) := by
  rw [notifyAudio, outcome_get_bind, outcome_get_bind, h.connected, h.generation]
  split_ifs
  · exact .done h.sameQueue rfl
  · rw [outcome_now_bind, outcome_now_bind]
    exact .bind triple_expire_queue h.expire fun expired u v huv =>
      shadowed_runDue (huv.notified marker) expired _

/-! ### Whole operations -/

/-- An operation that has no results. -/
theorem verdicts_eq_nil {x : SchedulerM (List PresentationEvent)} {batch : SchedulerBatch}
    (h : (outcome (do return { events := ← x } : SchedulerM SchedulerBatch) s).1 = .ok batch) :
    batch.verdicts = [] := by
  rw [outcome_bind] at h
  rcases hx : outcome x s with ⟨e | es, t⟩
  · rw [hx] at h
    cases h
  · rw [hx] at h
    cases h
    rfl

/-- Where an operation does not decide about cues, none comes to wait. -/
theorem Effect.shrinks (h : Effect op now s t) (hop : op.decides = false) : Shrinks s t := by
  rcases h with _ | _ | _ | _ | _ | _ | _ | _ | _ | _ | ⟨rfl, -⟩ | _ | ⟨rfl, -⟩ | _ | _
  case advance generation _ _ =>
    -- nothing of an older generation waits
    have hpending : ∀ p, p ∉ (s.advanced generation now).pending := fun p hp => by
      rw [advanced, endedAll_pending] at hp
      exact Keyed.not_mem_empty hp
    have hmarkers : ∀ m, m ∉ (s.advanced generation now).audioMarkers := fun m hm => by
      rw [advanced, endedAll_audioMarkers] at hm
      exact Keyed.not_mem_empty hm
    exact ⟨fun p hp => absurd hp (hpending p), fun m hm => absurd hm (hmarkers m),
      .inr ⟨hpending, hmarkers⟩⟩
  case reset =>
    -- a reset empties the queue and keeps the markers
    refine ⟨fun p hp => ?_, fun m hm => ?_, .inl (endedAll_generation ..)⟩
    · rw [cleared] at hp
      dsimp only at hp
      rw [endedAll_pending] at hp
      exact absurd hp Keyed.not_mem_empty
    · rw [cleared] at hm
      dsimp only at hm
      rwa [endedAll_audioMarkers] at hm
  case disconnect =>
    refine ⟨fun p hp => ?_, fun m hm => ?_, .inl (endedAll_generation ..)⟩
    · rw [dropped, endedAll_pending] at hp
      exact absurd hp Keyed.not_mem_empty
    · rw [dropped, endedAll_audioMarkers] at hm
      exact absurd hm Keyed.not_mem_empty
  case start =>
    refine ⟨fun p hp => ?_, fun m hm => ?_, .inl launched_generation⟩
    · rw [launched_pending] at hp
      exact (Keyed.mem_erase.mp hp).1
    · rwa [launched_audioMarkers] at hm
  case queue | notify => cases hop
  case dequeue => exact ⟨fun p hp => (Keyed.mem_filter.mp hp).1, fun _ hm => hm, .inl rfl⟩
  all_goals exact ⟨fun _ hp => hp, fun _ hm => hm, .inl rfl⟩

theorem Shrinks.trans (h : Shrinks s t) (h' : Shrinks t u) : Shrinks s u where
  pending p hp := h.pending p (h'.pending p hp)
  audioMarkers m hm := h.audioMarkers m (h'.audioMarkers m hm)
  generation := by
    rcases h'.generation with hsame' | hnone
    · rcases h.generation with hsame | ⟨hpending, hmarkers⟩
      · exact .inl (hsame'.trans hsame)
      · exact .inr ⟨fun p hp => hpending p (h'.pending p hp),
          fun m hm => hmarkers m (h'.audioMarkers m hm)⟩
    · exact .inr hnone

theorem perform_shrinks (hop : op.decides = false) :
    Shrinks s (outcome (perform (some now) op) s).2 := by
  have heffects : Effects op now s (outcome (perform (some now) op) s).2 :=
    (triple_perform_steps.post fun _ _ hu => hu.1.1).state rfl
  exact heffects.invariant (I := Shrinks s) ⟨fun _ hp => hp, fun _ hm => hm, .inl rfl⟩
    fun u v hu hstep => hu.trans (hstep.shrinks hop)

theorem verdicts_of_not_decides {batch : SchedulerBatch} (hop : op.decides = false)
    (h : (outcome (perform (some now) op) s).1 = .ok batch) : batch.verdicts = [] := by
  rcases op with cue | marker | _ | generation | ⟨cueId, reason⟩ | _ | reason | _ | _
  case submit | notifyAudio | tick => cases hop
  all_goals exact verdicts_eq_nil h

theorem decisions_of_not_decides (hop : op.decides = false) : decisions now op s = [] := by
  rw [decisions]
  split
  · rename_i batch hbatch
    exact verdicts_of_not_decides hop hbatch
  · rfl

/-- **An operation that decides about cues** does so without asking the factory. -/
theorem shadowed_perform (now : ℚ) (s : PresentationScheduler) (hop : op.decides = true) :
    Shadowed SchedulerBatch.verdicts (outcome (perform (some now) op) s)
      (outcome (perform (some now) op) s.unstaffed) := by
  rcases op with cue | marker | _ | generation | ⟨cueId, reason⟩ | _ | reason | _ | _
  case submit =>
    obtain ⟨hqueue, b, hb, hverdict⟩ := shadowed_submit (s.unstaffed_alike now) cue
    rw [perform, outcome_bind, outcome_bind]
    rcases hout : outcome (submit (some now) cue) s.unstaffed with ⟨e | result, t⟩
    · rw [hout] at hb
      cases hb
    · rw [hout] at hb hqueue
      cases hb
      rcases hs : outcome (submit (some now) cue) s with ⟨e | result', u⟩
      · rw [hs] at hqueue
        refine ⟨hqueue, _, rfl, ?_⟩
        rintro _ ⟨⟩
      · rw [hs] at hqueue hverdict
        exact .done hqueue (hverdict result' rfl)
  case notifyAudio => exact shadowed_notifyAudio (s.unstaffed_alike now) marker
  case tick => exact shadowed_tick (s.unstaffed_alike now)
  all_goals cases hop

/-- **The caller gets these verdicts**, unless the neutral factory raises. -/
theorem results_eq_decisions {batch : SchedulerBatch}
    (h : outcome (perform (some now) op) s = (.ok batch, t)) :
    batch.verdicts = decisions now op s := by
  rcases hop : op.decides with _ | _
  · rw [decisions_of_not_decides hop, verdicts_of_not_decides hop (congrArg Prod.fst h)]
  · obtain ⟨-, b, hb, hverdicts⟩ := shadowed_perform now s hop
    rw [decisions, hb]
    exact hverdicts batch (congrArg Prod.fst h)

theorem triple_perform_queue (hop : op.decides = true) :
    Triple (fun t => s = t) (perform (some now) op)
      (fun batch t => Acts now s batch.verdicts t op) fun _ => True := by
  rcases op with cue | marker | _ | generation | ⟨cueId, reason⟩ | _ | reason | _ | _
  case submit =>
    refine triple_submit_queue.bind fun result => Triple.answer fun t ht => ?_
    obtain ⟨rfl, hsubmitted⟩ := ht
    exact ⟨result.status, rfl, hsubmitted⟩
  case notifyAudio => exact triple_notifyAudio_queue
  case tick => exact triple_tick_queue
  all_goals cases hop

/-- What is so of the scheduler without its factory is so of the scheduler. -/
theorem Acts.staffed (h : Acts now s.unstaffed vs t op) (htu : SameQueue t u)
    (hop : op.decides = true) : Acts now s vs u op := by
  have hqueue : SameQueue s s.unstaffed := ⟨rfl, rfl, rfl⟩
  have hsame : Consumes now s [] s.unstaffed := hqueue.consumes
  rcases op with cue | marker | _ | generation | ⟨cueId, reason⟩ | _ | reason | _ | _
  case submit =>
    obtain ⟨status, hvs, hsubmitted⟩ := h
    exact ⟨status, hvs, hsubmitted.amid hsame htu⟩
  case notifyAudio =>
    have hiff : (s.unstaffed.connected = true ∧ marker.generation = s.unstaffed.generation) ↔
        (s.connected = true ∧ marker.generation = s.generation) := Iff.rfl
    rw [Acts] at h ⊢
    by_cases hon : s.connected = true ∧ marker.generation = s.generation
    · rw [if_pos (hiff.mpr hon)] at h
      rw [if_pos hon]
      exact ((hsame.notified rfl).after h).before htu
    · rw [if_neg (hiff.not.mpr hon)] at h
      rw [if_neg hon]
      exact ⟨h.1, hqueue.trans (h.2.trans htu)⟩
  case tick => exact (hsame.after h).before htu
  all_goals cases hop

/-- **What each operation makes of the queue**, whatever the neutral factory does. -/
theorem perform_acts (now : ℚ) (op : SchedulerOperation) (s : PresentationScheduler) :
    Acts now s (decisions now op s) (outcome (perform (some now) op) s).2 op := by
  rcases hop : op.decides with _ | _
  · have hshrinks : Shrinks s (outcome (perform (some now) op) s).2 := perform_shrinks hop
    rw [decisions_of_not_decides hop]
    rcases op with cue | marker | _ | generation | ⟨cueId, reason⟩ | _ | reason | _ | _
    case submit | notifyAudio | tick => cases hop
    all_goals exact ⟨rfl, hshrinks⟩
  · obtain ⟨hqueue, b, hb, -⟩ := shadowed_perform now s hop
    rw [decisions, hb]
    exact ((triple_perform_queue hop).ok rfl (Prod.ext hb rfl)).staffed hqueue.symm hop

end PresentationScheduler

end Eeveetuber
