import Eeveetuber.Avatar.SchedulerAlike
import Eeveetuber.Avatar.SchedulerRuns

/-!
# A rejected cue has no effect of its own

`Eeveetuber.PresentationScheduler.housekeep` is what a call of `submit` does whatever becomes of
its cue: leases that are over end, and neutral cues are restored. A cue that is rejected leaves
behind what this alone leaves behind, but for two things: a sequence number may have been given
to it while it was in the queue, and starts that had left their rate window may have been
forgotten. `Eeveetuber.rejected_is_housekeeping` says that neither is ever noticed: the scheduler
and the one that only kept house are `Eeveetuber.PresentationScheduler.Alike`, and so they answer
every later call the same, sequence numbers aside.
-/

namespace Eeveetuber

open Foundation Foundation.Stateful

/-- A `REJECTED_…` status. -/
def ScheduleStatus.rejected : ScheduleStatus → Bool
  | .started | .pendingAudio => false
  | _ => true

namespace PresentationScheduler

variable {op : SchedulerOperation} {now : ℚ} {s t u : PresentationScheduler} {lease : ActiveLease}
  {leases : List ActiveLease} {cue : PresentationCue} {reason : StopReason}
  {replacedBy : Option Text} {needs : Bool} {needsOf : ActiveLease → Bool}

/-! ### Numbers that were given -/

/-- No pending cue and no event has a number that is still to be given. -/
structure Numbered (s : PresentationScheduler) : Prop where
  pending : ∀ p ∈ s.pending, p.sequence ≤ s.sequence
  journal : ∀ e ∈ s.journal, e.sequence ≤ s.sequence

theorem Numbered.frame (h : s.Numbered) (hpending : ∀ p ∈ t.pending, p ∈ s.pending)
    (hjournal : t.journal = s.journal) (hsequence : s.sequence ≤ t.sequence) : t.Numbered := by
  constructor
  · intro p hp
    exact (h.pending p (hpending p hp)).trans hsequence
  · intro e he
    rw [hjournal] at he
    exact (h.journal e he).trans hsequence

/-- One more event, with the next number. -/
theorem Numbered.concat {e : PresentationEvent} (h : s.Numbered)
    (hpending : ∀ p ∈ t.pending, p ∈ s.pending) (hjournal : t.journal = s.journal ++ [e])
    (he : e.sequence = s.sequence + 1) (hsequence : t.sequence = s.sequence + 1) : t.Numbered := by
  constructor
  · intro p hp
    have hle := h.pending p (hpending p hp)
    omega
  · intro a ha
    rw [hjournal] at ha
    rcases List.mem_append.mp ha with ha | ha
    · have hle := h.journal a ha
      omega
    · rw [List.mem_singleton.mp ha, he, hsequence]

theorem Numbered.ended (h : s.Numbered) :
    (s.ended now reason replacedBy needs lease).Numbered :=
  h.concat (fun _ hp => hp) rfl rfl rfl

theorem Numbered.endedAll (h : s.Numbered) :
    (s.endedAll now reason replacedBy needsOf leases).Numbered := by
  induction leases generalizing s with
  | nil => exact h
  | cons lease rest ih =>
    rw [endedAll_cons]
    exact ih h.ended

theorem Numbered.begun (h : s.Numbered) : (s.begun lease now).Numbered :=
  h.concat (fun _ hp => hp) rfl rfl rfl

theorem Numbered.launched (h : s.Numbered) : (s.launched cue now).Numbered := by
  have hbegun : ((s.preempted cue now).begun (.grant cue now) now).Numbered := h.endedAll.begun
  rw [PresentationScheduler.launched]
  split
  · exact hbegun.frame (fun _ hp => hp) rfl le_rfl
  · exact hbegun

theorem bindPending_sequence (marker : AudioTimelineMarker) (p : PendingCue) :
    (bindPending marker p).sequence = p.sequence := by
  rw [bindPending]
  split
  · rfl
  · split
    · rfl
    · rfl

theorem Effect.numbered (h : Effect op now s t) (hs : s.Numbered) : t.Numbered := by
  -- an emptied queue numbers nothing
  have hnone {p : PendingCue} (hp : p ∈ (∅ : Keyed fun p : PendingCue => p.cue.cueId)) :
      p ∈ s.pending := absurd hp Keyed.not_mem_empty
  rcases h with _ | _ | _ | _ | _ | _ | _ | _ | _ | _ | _ | _ | _ | _ | _
  case expire | cancel => exact hs.ended
  case advance =>
    exact Numbered.endedAll (s := { s with generation := _, pending := ∅, audioMarkers := ∅ })
      (hs.frame (fun _ => hnone) rfl le_rfl)
  case reset =>
    have hended : (({ s with pending := ∅ } : PresentationScheduler).endedAll now .cancelled none
        (fun _ => false) s.sortedActive).Numbered :=
      Numbered.endedAll (hs.frame (fun _ => hnone) rfl le_rfl)
    exact hended.frame (fun _ hp => hp) rfl le_rfl
  case disconnect =>
    exact Numbered.endedAll (s := { s with
      connected := false, pending := ∅, audioMarkers := ∅, needsNeutral := ∅ })
      (hs.frame (fun _ => hnone) rfl le_rfl)
  case start cue _ _ _ _ _ _ =>
    have hpopped : (s.popped cue).Numbered :=
      hs.frame (fun _ hp => (Keyed.mem_erase.mp hp).1) rfl le_rfl
    exact hpopped.launched
  case restore layer cue _ _ _ _ _ _ _ _ _ =>
    have hasked : (s.asked layer (.ok cue)).Numbered := hs.frame (fun _ hp => hp) rfl le_rfl
    exact hasked.begun
  case queue =>
    constructor
    · intro p hp
      rcases Keyed.mem_insert.mp hp with rfl | ⟨hp, -⟩
      · exact le_rfl
      · exact (hs.pending p hp).trans (Nat.le_succ _)
    · intro e he
      exact (hs.journal e he).trans (Nat.le_succ _)
  case dequeue => exact hs.frame (fun _ hp => (Keyed.mem_filter.mp hp).1) rfl le_rfl
  case notify =>
    refine ⟨fun p hp => ?_, hs.journal⟩
    rw [notified, Keyed.mem_map] at hp
    obtain ⟨q, hq, rfl⟩ := hp
    rw [bindPending_sequence]
    exact hs.pending q hq
  all_goals exact hs.frame (fun _ hp => hp) rfl le_rfl

theorem Effects.numbered (h : Effects op now s t) (hs : s.Numbered) : t.Numbered :=
  h.invariant hs fun _ _ hu hstep => hstep.numbered hu

theorem numbered_of_reachable {d : SchedulerRun} (h : schedulerMachine.Reachable d) :
    d.scheduler.Numbered := by
  refine scheduler_invariant h ?_ fun d op now s t _ _ hs hstep => hstep.numbered hs
  intro generation policy neutralFactory
  exact ⟨fun p hp => absurd hp Keyed.not_mem_empty, fun e he => absurd he List.not_mem_nil⟩

/-! ### Housekeeping -/

/-- What `submit` does whatever becomes of the cue. -/
def housekeep (now : ℚ) : SchedulerM (List PresentationEvent) := do
  let expired ← expire now
  let restored ← restoreNeutrals now
  return expired ++ restored

/-- What restoring neutral cues leaves alone. -/
structure Unmoved (s t : PresentationScheduler) : Prop where
  generation : t.generation = s.generation
  connected : t.connected = s.connected
  pending : t.pending = s.pending
  audioMarkers : t.audioMarkers = s.audioMarkers
  cooldownUntil : t.cooldownUntil = s.cooldownUntil

theorem Unmoved.refl (s : PresentationScheduler) : Unmoved s s := ⟨rfl, rfl, rfl, rfl, rfl⟩

theorem Unmoved.trans (h : Unmoved s t) (h' : Unmoved t u) : Unmoved s u :=
  ⟨h'.generation.trans h.generation, h'.connected.trans h.connected, h'.pending.trans h.pending,
    h'.audioMarkers.trans h.audioMarkers, h'.cooldownUntil.trans h.cooldownUntil⟩

theorem triple_restoreNeutral_unmoved {factory : NeutralFactory} {layer : PresentationLayer} :
    Triple (fun t => s = t) (restoreNeutral factory now layer) (fun _ t => Unmoved s t)
      (Unmoved s) := by
  rintro _ rfl
  rw [restoreNeutral, outcome_get_bind]
  split_ifs
  · exact ⟨rfl, rfl, rfl, rfl, rfl⟩
  · rw [outcome_bind, outcome_callNeutralFactory]
    rcases factory s.neutralCalls layer s.generation now with e | cue
    · exact ⟨rfl, rfl, rfl, rfl, rfl⟩
    · dsimp only
      split_ifs
      · exact ⟨rfl, rfl, rfl, rfl, rfl⟩
      · exact ⟨rfl, rfl, rfl, rfl, rfl⟩
      · rw [outcome_bind_of_ok outcome_beginLease]
        exact ⟨rfl, rfl, rfl, rfl, rfl⟩

theorem triple_restoreNeutrals_unmoved :
    Triple (fun t => s = t) (restoreNeutrals now) (fun _ t => Unmoved s t) (Unmoved s) := by
  rw [restoreNeutrals]
  refine Triple.read ?_
  split
  · refine Triple.answer ?_
    rintro _ rfl
    exact .refl s
  · split
    · refine Triple.answer ?_
      rintro _ rfl
      exact .refl s
    · rename_i factory _
      have hloop := Triple.mapM (g := restoreNeutral factory now) (E := Unmoved s)
        (I := fun _ _ t => Unmoved s t)
        (fun layer rest answers => Triple.each fun t ht =>
          triple_restoreNeutral_unmoved.weaken (fun _ => id) (fun _ _ => ht.trans)
            fun _ => ht.trans)
        (PresentationLayer.inOrder s.needsNeutral)
      refine (hloop.pre ?_).bind fun answers => Triple.answer fun t ht => ht
      rintro _ rfl
      exact .refl s

/-! ### What a rejected cue leaves -/

/-- The numbers above `base`, moved up by one. -/
def skip (base n : ℕ) : ℕ := if n ≤ base then n else n + 1

theorem skip_strictMono (base : ℕ) : StrictMono (skip base) := by
  intro m n hlt
  rw [skip, skip]
  split_ifs
  · exact hlt
  · omega
  · omega
  · omega

/-- A renumbering that moves none of the numbers given so far. -/
def Fixes (φ : ℕ → ℕ) (s : PresentationScheduler) : Prop := ∀ n ≤ s.sequence, φ n = n

/-- Nothing is renumbered. -/
theorem Fixes.pending {φ : ℕ → ℕ} (h : Fixes φ s) (hs : s.Numbered) :
    s.pending.map (.renumber φ) (fun _ => rfl) = s.pending := by
  ext1
  refine (List.map_congr_left fun p hp => ?_).trans (List.map_id _)
  rw [PendingCue.renumber, h _ (hs.pending p hp)]
  rfl

theorem Fixes.events {φ : ℕ → ℕ} {es : List PresentationEvent} (h : Fixes φ s) (hs : s.Numbered)
    (hes : ∀ e ∈ es, e ∈ s.journal) : es.map (.renumber φ) = es := by
  refine (List.map_congr_left fun e he => ?_).trans (List.map_id _)
  rw [PresentationEvent.renumber, h _ (hs.journal e (hes e he))]
  rfl

/-- Starts that have left their window are forgotten, and nobody can tell. -/
theorem Pruned.alike {globalStarts : List ℚ} {layerStarts : PresentationLayer → List ℚ}
    (h : s.Pruned now globalStarts layerStarts) (hs : s.Numbered) :
    Alike SameSource id now s { s with globalStarts, layerStarts } where
  generation := rfl
  policy := rfl
  source := rfl
  connected := rfl
  active := rfl
  activeByLayer := rfl
  pending := (Fixes.pending (fun _ _ => rfl) hs).symm
  audioMarkers := rfl
  cooldownUntil := rfl
  globalStarts limit hlimit later hle := by
    rcases h.1 with hsame | ⟨limit', hlimit', hpruned⟩
    · exact congrArg _ hsame
    · obtain rfl : limit' = limit := Option.some.inj (hlimit'.symm.trans hlimit)
      show prune _ later globalStarts = _
      rw [hpruned, prune_prune hle]
  layerStarts layer limit hlimit later hle := by
    rcases h.2 layer with hsame | ⟨limit', hlimit', hpruned⟩
    · exact congrArg _ hsame
    · obtain rfl : limit' = limit := Option.some.inj (hlimit'.symm.trans hlimit)
      show prune _ later (layerStarts layer) = _
      rw [hpruned, prune_prune hle]
  needsNeutral := rfl
  sequence _ := rfl
  increasing := strictMono_id

theorem Numbered.alike (h : s.Numbered) : Alike SameSource id now s s :=
  Pruned.alike ⟨.inl rfl, fun _ => .inl rfl⟩ h

/-- A number is skipped. -/
theorem Alike.skip (h : Alike SameSource id now s t) (hs : s.Numbered) :
    Alike SameSource (skip s.sequence) now s { t with sequence := t.sequence + 1 } :=
  { h with
    pending := by
      have hid : Fixes id s := fun _ _ => rfl
      have hskip : Fixes (PresentationScheduler.skip s.sequence) s := fun _ hn => if_pos hn
      rw [hskip.pending hs]
      exact h.pending.trans (hid.pending hs)
    sequence := by
      intro n
      have hn := h.sequence n
      have hnot : ¬s.sequence + 1 + n ≤ s.sequence := by omega
      rw [PresentationScheduler.skip, if_neg hnot]
      show s.sequence + 1 + n + 1 = t.sequence + 1 + 1 + n
      rw [id_eq] at hn
      omega
    increasing := skip_strictMono _ }

/-- **An attempt that fails** forgets starts that have left their window, at most. -/
theorem outcome_attemptStart_rejected {result : ScheduleResult}
    (h : outcome (attemptStart cue now) s = (.ok result, t)) (hstatus : result.status ≠ .started) :
    result.events = [] ∧ ∃ globalStarts layerStarts, s.Pruned now globalStarts layerStarts ∧
      t = { s with globalStarts, layerStarts } := by
  rw [attemptStart, outcome_get_bind] at h
  rcases hr : s.startRejection cue now with _ | rejection
  · obtain ⟨rejection, g, l, hout, hpruned, -, hrejection⟩ := outcome_limitRejection s cue now
    rw [hr] at h
    dsimp only at h
    rw [outcome_bind_of_ok hout] at h
    rcases rejection with _ | rejection
    · dsimp only at h
      rw [outcome_startCue_eq] at h
      cases h
      exact absurd rfl hstatus
    · cases h
      exact ⟨(hrejection _ rfl).2.1, g, l, hpruned, rfl⟩
  · rw [hr] at h
    cases h
    exact ⟨(startRejection_eq_some hr).2.1, s.globalStarts, s.layerStarts,
      ⟨.inl rfl, fun _ => .inl rfl⟩, rfl⟩

/-- A rejected cue that an attempt was made to start: the scheduler was like `s` when it came to
the attempt, and still is when it restores neutral cues. -/
theorem outcome_submitNow_rejected {φ : ℕ → ℕ} {w : PresentationScheduler}
    {expired : List PresentationEvent} {result : ScheduleResult}
    (hw : ∀ g l, w.Pruned now g l →
      Alike SameSource φ now s { w with globalStarts := g, layerStarts := l })
    (h : outcome (submitNow expired cue now) w = (.ok result, t))
    (hstatus : result.status.rejected = true) :
    ∃ w' restored, Alike SameSource φ now s w' ∧
      outcome (restoreNeutrals now) w' = (.ok restored, t) ∧
      result.events = expired ++ restored := by
  rw [submitNow, outcome_bind_eq_ok] at h
  obtain ⟨attempted, w', hattempted, h⟩ := h
  rw [outcome_bind_eq_ok] at h
  obtain ⟨restored, w'', hrestored, h⟩ := h
  cases h
  have hnot : attempted.status ≠ .started := by
    intro hstarted
    rw [hstarted] at hstatus
    cases hstatus
  obtain ⟨hevents, g, l, hpruned, rfl⟩ := outcome_attemptStart_rejected hattempted hnot
  refine ⟨_, restored, hw g l hpruned, hrestored, ?_⟩
  rw [hevents, List.append_nil]

/-- A rejected cue that was to wait for its audio, but was due. -/
theorem outcome_submitBound_rejected {expired : List PresentationEvent}
    {binding : AudioTimelineBinding} {result : ScheduleResult} (hs : s.Numbered)
    (hnew : ∀ p ∈ s.pending, p.cue.cueId ≠ cue.cueId)
    (h : outcome (submitBound expired cue binding now) s = (.ok result, t))
    (hstatus : result.status.rejected = true) :
    ∃ φ w restored, Fixes φ s ∧ Alike SameSource φ now s w ∧
      outcome (restoreNeutrals now) w = (.ok restored, t) ∧
      result.events = expired ++ restored := by
  have hid : Fixes id s := fun _ _ => rfl
  have hskip : Fixes (skip s.sequence) s := fun _ hn => if_pos hn
  rw [submitBound, outcome_get_bind] at h
  dsimp only at h
  split_ifs at h
  · rw [outcome_bind_eq_ok] at h
    obtain ⟨restored, w, hrestored, h⟩ := h
    cases h
    exact ⟨id, s, restored, hid, hs.alike, hrestored, rfl⟩
  · have hnumber : outcome nextSequence s =
        (.ok (s.sequence + 1), { s with sequence := s.sequence + 1 }) := rfl
    rw [outcome_bind_of_ok hnumber, outcome_modify_bind] at h
    generalize ((s.audioMarkers.find? binding.key).map fun m => m.occurredAt + binding.offsetS) =
      dueAt at h
    rcases dueAt with _ | due
    · rw [outcome_bind_eq_ok] at h
      obtain ⟨restored, w, hrestored, h⟩ := h
      cases h
      cases hstatus
    · dsimp only at h
      split_ifs at h
      · rw [outcome_bind_eq_ok] at h
        obtain ⟨restored, w, hrestored, h⟩ := h
        cases h
        cases hstatus
      · -- the cue was in the queue for a moment, and is not there any more
        have hqueue : (s.pending.insert ⟨cue, s.sequence + 1, some due⟩).erase cue.cueId =
            s.pending := Keyed.erase_insert_of_new (v := (⟨cue, s.sequence + 1, some due⟩ :
              PendingCue)) hnew
        have hlike (g : List ℚ) (l : PresentationLayer → List ℚ) (hpruned : s.Pruned now g l) :
            Alike SameSource (skip s.sequence) now s
              { s with sequence := s.sequence + 1, globalStarts := g, layerStarts := l } :=
          (hpruned.alike hs).skip hs
        rw [outcome_modify_bind] at h
        dsimp only at h
        rw [hqueue] at h
        obtain ⟨w, restored, halike, hrestored, hevents⟩ :=
          outcome_submitNow_rejected (w := { s with sequence := s.sequence + 1 }) hlike h hstatus
        exact ⟨_, w, restored, hskip, halike, hrestored, hevents⟩

/-- **A rejected cue.** The leases that are over have ended, and neutral cues were restored by a
scheduler that is like the one that had done no more. -/
theorem outcome_submit_rejected {result : ScheduleResult} (hs : s.Numbered)
    (h : outcome (submit (some now) cue) s = (.ok result, t))
    (hstatus : result.status.rejected = true) :
    ∃ expired v φ w restored, outcome (expire now) s = (.ok expired, v) ∧ v.Numbered ∧
      (∀ e ∈ expired, e ∈ v.journal) ∧ Fixes φ v ∧ Alike SameSource φ now v w ∧
      outcome (restoreNeutrals now) w = (.ok restored, t) ∧
      result.events = expired ++ restored := by
  rw [submit, outcome_now_bind, outcome_bind_eq_ok] at h
  obtain ⟨expired, v, hexpire, h⟩ := h
  obtain ⟨⟨heffects, hjournal⟩, -, -, -⟩ := (triple_expire (.submit cue)).ok rfl hexpire
  have hv : v.Numbered := heffects.numbered hs
  have hmem : ∀ e ∈ expired, e ∈ v.journal := by
    intro e he
    rw [hjournal]
    exact List.mem_append_right _ he
  have hid : Fixes id v := fun _ _ => rfl
  rw [outcome_get_bind] at h
  rcases hvalid : v.validateSubmission cue now with _ | rejection
  · rw [hvalid] at h
    dsimp only at h
    -- without an audio binding the cue may start now
    rcases hbinding : cue.audioBinding with _ | binding
    · rw [hbinding] at h
      obtain ⟨w, restored, halike, hrestored, hevents⟩ :=
        outcome_submitNow_rejected (fun g l hpruned => Pruned.alike hpruned hv) h hstatus
      exact ⟨expired, v, id, w, restored, hexpire, hv, hmem, hid, halike, hrestored, hevents⟩
    -- with one it may have to wait
    · rw [hbinding] at h
      obtain ⟨φ, w, restored, hfixes, halike, hrestored, hevents⟩ := outcome_submitBound_rejected hv
        (validateSubmission_eq_none hvalid).2.2.2.2 h hstatus
      exact ⟨expired, v, φ, w, restored, hexpire, hv, hmem, hfixes, halike, hrestored, hevents⟩
  -- the cue does not pass validation
  · rw [hvalid] at h
    dsimp only at h
    rw [outcome_bind_eq_ok] at h
    obtain ⟨restored, w, hrestored, h⟩ := h
    cases h
    exact ⟨expired, v, id, v, restored, hexpire, hv, hmem, hid, hv.alike, hrestored, rfl⟩

/-! ### Later calls -/

/-- Without a reading of the clock, the answers are the same too. -/
theorem agrees_perform_none {φ : ℕ → ℕ} {last : ℚ} (h : Alike SameSource φ last s t)
    (op : SchedulerOperation) :
    Agrees (Alike SameSource φ last) (.renumber φ) (outcome (perform none op) s)
      (outcome (perform none op) t) := by
  have hdisconnect (reason : StopReason) : Agrees (Alike SameSource φ last) (.renumber φ)
      (outcome (perform none (.disconnect reason)) s)
      (outcome (perform none (.disconnect reason)) t) := by
    rw [perform, disconnect, bind_assoc, outcome_get_bind, outcome_get_bind,
      h.connected]
    split_ifs
    · exact .raise _ h
    · exact .done h
    · exact .raise _ h
  cases op with
  | submit cue => exact .raise _ h
  | notifyAudio marker =>
    rw [perform, notifyAudio, outcome_get_bind, outcome_get_bind, h.connected,
      h.generation]
    split_ifs
    · exact .done h
    · exact .raise _ h
  | tick => exact .raise _ h
  | advanceGeneration generation =>
    rw [perform, advanceGeneration, bind_assoc, outcome_get_bind,
      outcome_get_bind, h.generation]
    split_ifs
    · exact .raise _ h
    · exact .done h
    · exact .raise _ h
  | cancel cueId reason => exact .raise _ h
  | resetToNeutral => exact .raise _ h
  | disconnect reason => exact hdisconnect reason
  | reconnect =>
    rw [perform, reconnect, bind_assoc, outcome_get_bind, outcome_get_bind,
      h.connected]
    split_ifs
    · exact .done h
    · exact .raise _ h
  | adapterFailed => exact hdisconnect .adapterFailure

/-- What some calls answer or raise, made one after the other. -/
def answers : List (SchedulerOperation × Clock) → PresentationScheduler →
    List (Except String SchedulerBatch)
  | [], _ => []
  | (op, clock) :: later, s =>
    (outcome (perform clock op) s).1 :: answers later (outcome (perform clock op) s).2

/-- The readings of the clock do not go back behind `last`. -/
def Onward : ℚ → List (SchedulerOperation × Clock) → Prop
  | _, [] => True
  | last, (_, none) :: later => Onward last later
  | last, (_, some now) :: later => last ≤ now ∧ Onward now later

/-- **Schedulers that are alike answer alike, ever after.** -/
theorem answers_alike {φ : ℕ → ℕ} {last : ℚ} {later : List (SchedulerOperation × Clock)}
    (h : Alike SameSource φ last s t) (hlater : Onward last later) :
    answers later t = (answers later s).map (Except.map (.renumber φ)) := by
  induction later generalizing last s t with
  | nil => rfl
  | cons call later ih =>
    obtain ⟨op, _ | now⟩ := call
    · obtain ⟨hstate, hanswer⟩ := agrees_perform_none h op
      rw [answers, answers, List.map_cons, hanswer,
        ih hstate hlater]
    · obtain ⟨hle, hlater⟩ := hlater
      obtain ⟨hstate, hanswer⟩ := h.perform hle op
      rw [answers, answers, List.map_cons, hanswer,
        ih hstate hlater]

end PresentationScheduler

open PresentationScheduler

/-- **A rejected cue has no effect of its own.** What it leaves to be seen is what housekeeping
leaves, its events are those of housekeeping, and every call made later answers the same as if
the scheduler had only kept house; the sequence numbers are those of such a scheduler under an
increasing function. -/
theorem rejected_is_housekeeping {d : SchedulerRun} (h : schedulerMachine.Reachable d) {now : ℚ}
    {cue : PresentationCue} {result : ScheduleResult} {t : PresentationScheduler}
    (hsubmit : outcome (submit (some now) cue) d.scheduler = (.ok result, t))
    (hstatus : result.status.rejected = true) :
    ∃ kept u φ, outcome (housekeep now) d.scheduler = (.ok kept, u) ∧ StrictMono φ ∧
      result.events = kept.map (.renumber φ) ∧ t.active = u.active ∧ t.pending = u.pending ∧
      t.audioMarkers = u.audioMarkers ∧ t.cooldownUntil = u.cooldownUntil ∧
      t.connected = u.connected ∧ t.needsNeutral = u.needsNeutral ∧
      ∀ later, Onward now later →
        answers later t = (answers later u).map (Except.map (.renumber φ)) := by
  obtain ⟨expired, v, φ, w, restored, hexpire, hv, hexpired, hfixes, halike, hrestored, hevents⟩ :=
    outcome_submit_rejected (numbered_of_reachable h) hsubmit hstatus
  obtain ⟨hstate, hanswer⟩ := halike.restoreNeutrals
  rw [hrestored] at hstate hanswer
  rcases hkept : outcome (restoreNeutrals now) v with ⟨e | kept, u⟩
  · rw [hkept] at hanswer
    cases hanswer
  · rw [hkept] at hstate hanswer
    obtain rfl : restored = kept.map (.renumber φ) := Except.ok.inj hanswer
    have hunmoved : Unmoved v u := triple_restoreNeutrals_unmoved.ok rfl hkept
    refine ⟨expired ++ kept, u, φ, ?_, hstate.increasing, ?_, hstate.active, ?_,
      hstate.audioMarkers, hstate.cooldownUntil, hstate.connected, hstate.needsNeutral,
      fun later hlater => answers_alike hstate hlater⟩
    · rw [housekeep, outcome_bind_of_ok hexpire, outcome_bind_of_ok hkept]
      rfl
    · rw [hevents, List.map_append, hfixes.events hv hexpired]
    · rw [hstate.pending, hunmoved.pending]
      exact hfixes.pending hv

/-- With one start a second, a second cue is turned away half a second after the first, and starts
half a second later as if it had not been. -/
theorem rejected_is_housekeeping_lean : ∃ (d : SchedulerRun) (result : ScheduleResult)
    (t u : PresentationScheduler) (kept : List PresentationEvent) (φ : ℕ → ℕ),
    outcome (submit (some (1 / 2)) lean) d.scheduler = (.ok result, t) ∧
      result.status = .rejectedRateLimit ∧
      outcome (housekeep (1 / 2)) d.scheduler = (.ok kept, u) ∧
      answers [(.submit lean, some 1)] t =
        (answers [(.submit lean, some 1)] u).map (Except.map (.renumber φ)) := by
  have hrun : (schedulerMachine.run ⟨.create 0 { SchedulerPolicy.default with
        globalRateLimit := some ⟨1, 1, le_rfl, zero_lt_one⟩ } none, none, []⟩
      [(.submit wave, some 0)]).map
      (fun d => (outcome (submit (some (1 / 2)) lean) d.scheduler).1.toOption.map (·.status)) =
      some (some .rejectedRateLimit) := by decide +kernel
  obtain ⟨d, hd, hanswer⟩ := Option.map_eq_some_iff.mp hrun
  have hreachable : schedulerMachine.Reachable d := Machine.reachable_of_run ⟨_, _, _, rfl⟩ hd
  rcases hsubmit : outcome (submit (some (1 / 2)) lean) d.scheduler with ⟨e | result, t⟩
  · rw [hsubmit] at hanswer
    cases hanswer
  · rw [hsubmit] at hanswer
    have hstatus : result.status = .rejectedRateLimit := Option.some.inj hanswer
    obtain ⟨kept, u, φ, hkept, -, -, -, -, -, -, -, -, hlater⟩ :=
      rejected_is_housekeeping hreachable hsubmit (by rw [hstatus]; rfl)
    exact ⟨d, result, t, u, kept, φ, hsubmit, hstatus, hkept,
      hlater _ ⟨by decide +kernel, trivial⟩⟩

end Eeveetuber
