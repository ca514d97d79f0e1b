import Eeveetuber.Avatar.SchedulerLeases

/-!
# The events tell the whole story

A renderer follows the scheduler by its events alone: a started cue is added to
what it presents, a stopped one removed. `Eeveetuber.replay` is what it then
presents, and this file shows that it is what the scheduler believes: the
journal of events replays to the cues of the active leases, never starts an id
that is active nor stops a cue that is not, and is numbered in increasing order
(`Eeveetuber.PresentationScheduler.Logged`).

The journal is what the operations return, one batch each, as long as the
neutral factory does not make an operation raise halfway. A batch is more than a
part of the journal: within it, a stop that names a replacement is followed by
the start of that cue (`Eeveetuber.Replaced`), because both are built by one
effect.
-/

namespace Eeveetuber

open Foundation Foundation.Stateful PresentationScheduler

/-! ### Following the events -/

/-- What is presented after one more event. -/
def PresentationEvent.apply (cues : Set PresentationCue) (e : PresentationEvent) :
    Set PresentationCue :=
  match e.kind with
  | .started => insert e.cue cues
  | .stopped => cues \ {e.cue}

/-- What is presented after some events. -/
def replay (cues : Set PresentationCue) (es : List PresentationEvent) : Set PresentationCue :=
  es.foldl PresentationEvent.apply cues

/-- No event starts an id that is presented or stops a cue that is not. -/
def Alternates (cues : Set PresentationCue) : List PresentationEvent → Prop
  | [] => True
  | e :: rest => (match e.kind with
      | .started => ∀ cue ∈ cues, cue.cueId ≠ e.cue.cueId
      | .stopped => e.cue ∈ cues) ∧ Alternates (e.apply cues) rest

/-- A stop that names a replacement is followed by the start of a cue of that
id, which conflicts with the stopped one and has at least its priority. -/
def Replaced : List PresentationEvent → Prop
  | [] => True
  | e :: rest => (∀ cueId ∈ e.replacedBy, ∃ e' ∈ rest, e'.kind = .started ∧
      e'.cue.cueId = cueId ∧ e.cue.Conflicts e'.cue ∧
      e.cue.priority.value ≤ e'.cue.priority.value) ∧ Replaced rest

section Following

variable {cues : Set PresentationCue} {e : PresentationEvent} {es es' : List PresentationEvent}

@[simp] theorem replay_append : replay cues (es ++ es') = replay (replay cues es) es' :=
  List.foldl_append

theorem alternates_append : Alternates cues (es ++ es') ↔
    Alternates cues es ∧ Alternates (replay cues es) es' := by
  induction es generalizing cues with
  | nil => exact (and_iff_right trivial).symm
  | cons e rest ih =>
    rw [List.cons_append, Alternates, Alternates, ih, and_assoc]
    rfl

theorem Replaced.append (h : Replaced es) (h' : Replaced es') : Replaced (es ++ es') := by
  induction es with
  | nil => exact h'
  | cons e rest ih =>
    refine ⟨fun cueId hid => ?_, ih h.2⟩
    obtain ⟨e', he', hstart⟩ := h.1 cueId hid
    exact ⟨e', List.mem_append_left _ he', hstart⟩

theorem replaced_of_none (h : ∀ e ∈ es, e.replacedBy = none) : Replaced es := by
  induction es with
  | nil => trivial
  | cons e rest ih =>
    refine ⟨fun cueId hid => ?_, ih fun e' he' => h e' (List.mem_cons_of_mem _ he')⟩
    rw [h e List.mem_cons_self] at hid
    cases hid

/-- Stops that all name one cue, followed by its start. -/
theorem replaced_concat {start : PresentationEvent} (hkind : start.kind = .started)
    (hnone : start.replacedBy = none)
    (h : ∀ e ∈ es, e.replacedBy = some start.cue.cueId ∧ e.cue.Conflicts start.cue ∧
      e.cue.priority.value ≤ start.cue.priority.value) : Replaced (es ++ [start]) := by
  induction es with
  | nil => exact replaced_of_none fun e he => by rwa [List.mem_singleton.mp he]
  | cons e rest ih =>
    obtain ⟨hby, hconf, hprio⟩ := h e List.mem_cons_self
    refine ⟨fun cueId hid => ?_, ih fun e' he' => h e' (List.mem_cons_of_mem _ he')⟩
    rw [hby] at hid
    cases hid
    exact ⟨start, List.mem_append_right _ (List.mem_singleton_self _), hkind, rfl, hconf, hprio⟩

end Following

namespace PresentationScheduler

variable {op : SchedulerOperation} {now : ℚ} {s t : PresentationScheduler} {lease : ActiveLease}
  {leases : List ActiveLease} {cue : PresentationCue} {reason : StopReason}
  {replacedBy : Option Text} {needs : Bool} {needsOf : ActiveLease → Bool}

/-! ### The journal replays to the active leases -/

/-- The cues of the active leases. -/
def cues (s : PresentationScheduler) : Set PresentationCue :=
  {cue | ∃ lease ∈ s.active, lease.cue = cue}

/-- What the journal says of the scheduler. -/
structure Logged (s : PresentationScheduler) : Prop where
  replays : replay ∅ s.journal = s.cues
  alternates : Alternates ∅ s.journal
  increasing : s.journal.Pairwise fun e e' => e.sequence < e'.sequence
  last : ∀ e ∈ s.journal, e.sequence ≤ s.sequence

theorem cues_ended (hl : lease ∈ s.active) :
    (s.ended now reason replacedBy needs lease).cues = s.cues \ {lease.cue} := by
  ext cue
  constructor
  · rintro ⟨a, ha, rfl⟩
    obtain ⟨ha, hne⟩ := Keyed.mem_erase.mp ha
    exact ⟨⟨a, ha, rfl⟩, fun hcue => hne (by rw [Set.mem_singleton_iff.mp hcue])⟩
  · rintro ⟨⟨a, ha, rfl⟩, hne⟩
    refine ⟨a, Keyed.mem_erase.mpr ⟨ha, fun hid => hne ?_⟩, rfl⟩
    rw [Keyed.eq_of_key ha hl hid]
    rfl

theorem cues_begun (hid : ∀ a ∈ s.active, a.cue.cueId ≠ lease.cue.cueId) :
    (s.begun lease now).cues = insert lease.cue s.cues := by
  ext cue
  constructor
  · rintro ⟨a, ha, rfl⟩
    rcases Keyed.mem_insert.mp ha with rfl | ⟨ha, -⟩
    · exact .inl rfl
    · exact .inr ⟨a, ha, rfl⟩
  · rintro (rfl | ⟨a, ha, rfl⟩)
    · exact ⟨lease, Keyed.mem_insert_self, rfl⟩
    · exact ⟨a, Keyed.mem_insert.mpr (.inr ⟨ha, hid a ha⟩), rfl⟩

/-- One more event, with the next number. -/
theorem Logged.concat {e : PresentationEvent} (h : s.Logged)
    (hjournal : t.journal = s.journal ++ [e]) (hsequence : t.sequence = s.sequence + 1)
    (he : e.sequence = s.sequence + 1) (hcues : e.apply s.cues = t.cues)
    (hfits : match e.kind with
      | .started => ∀ cue ∈ s.cues, cue.cueId ≠ e.cue.cueId
      | .stopped => e.cue ∈ s.cues) : t.Logged where
  replays := by
    rw [hjournal, replay_append, h.replays, ← hcues]
    rfl
  alternates := by
    rw [hjournal, alternates_append, h.replays]
    exact ⟨h.alternates, hfits, trivial⟩
  increasing := by
    rw [hjournal, List.pairwise_append]
    refine ⟨h.increasing, List.pairwise_singleton _ _, fun a ha b hb => ?_⟩
    rw [List.mem_singleton.mp hb, he]
    exact Nat.lt_succ_of_le (h.last a ha)
  last := by
    intro a ha
    rw [hjournal] at ha
    rcases List.mem_append.mp ha with ha | ha
    · have := h.last a ha
      omega
    · rw [List.mem_singleton.mp ha, he, hsequence]

theorem Logged.ended (h : s.Logged) (hl : lease ∈ s.active) :
    (s.ended now reason replacedBy needs lease).Logged :=
  h.concat rfl rfl rfl (cues_ended hl).symm ⟨lease, hl, rfl⟩

theorem Logged.endedAll (h : s.Logged) (hmem : ∀ lease ∈ leases, lease ∈ s.active)
    (hnd : leases.Nodup) : (s.endedAll now reason replacedBy needsOf leases).Logged :=
  endedAll_induction h hmem hnd fun _ _ _ hu hact => hu.ended hact

theorem Logged.begun (h : s.Logged) (hid : ∀ a ∈ s.active, a.cue.cueId ≠ lease.cue.cueId) :
    (s.begun lease now).Logged := by
  refine h.concat rfl rfl rfl (cues_begun hid).symm ?_
  rintro _ ⟨a, ha, rfl⟩
  exact hid a ha

/-- Nothing that the journal speaks of changes. -/
theorem Logged.frame (h : s.Logged) (hactive : t.active = s.active)
    (hjournal : t.journal = s.journal) (hsequence : s.sequence ≤ t.sequence) : t.Logged where
  replays := by
    rw [hjournal, h.replays, cues, cues, hactive]
  alternates := by rw [hjournal]; exact h.alternates
  increasing := by rw [hjournal]; exact h.increasing
  last := by
    intro e he
    rw [hjournal] at he
    exact (h.last e he).trans hsequence

theorem Logged.launched (h : s.Logged) (hid : ∀ a ∈ s.active, a.cue.cueId ≠ cue.cueId) :
    ((s.popped cue).launched cue now).Logged := by
  have hpre : ((s.popped cue).preempted cue now).Logged :=
    (h.frame rfl rfl le_rfl : (s.popped cue).Logged).endedAll
      (fun lease hl => (mem_conflictingLeases.mp hl).1) (nodup_conflictingLeases _ _)
  have hbegun : (((s.popped cue).preempted cue now).begun (.grant cue now) now).Logged :=
    hpre.begun fun a ha => hid a (not_conflicts_of_mem_preempted ha).1
  rw [PresentationScheduler.launched]
  split
  · exact hbegun.frame rfl rfl le_rfl
  · exact hbegun

/-- **Every effect is told by the events it builds.** -/
theorem Effect.logged (h : Effect op now s t) (hlog : s.Logged) (hs : s.Exclusive)
    (hk : s.Known) (hdistinct : ∀ factory ∈ s.neutralFactory, DistinctNeutrals factory) :
    t.Logged := by
  have hall : ∀ l ∈ s.sortedActive, l ∈ s.active := fun l hl => mem_sortedActive.mp hl
  have hnd := s.nodup_sortedActive
  rcases h with ⟨hmem, -⟩ | ⟨-, hmem⟩ | _ | _ | _ | _ | ⟨hready, -, -, -, -, -⟩ |
    ⟨hfactory, -, hcue, hlayer, -, -, hfree, -⟩ | _ | _ | _ | _ | _ | _ | _
  case expire | cancel => exact hlog.ended hmem
  case advance =>
    exact Logged.endedAll (s := { s with generation := _, pending := ∅, audioMarkers := ∅ })
      (hlog.frame rfl rfl le_rfl) hall hnd
  case reset =>
    have hended : (({ s with pending := ∅ } : PresentationScheduler).endedAll now .cancelled none
        (fun _ => false) s.sortedActive).Logged :=
      Logged.endedAll (hlog.frame rfl rfl le_rfl) hall hnd
    exact hended.frame rfl rfl le_rfl
  case disconnect =>
    exact Logged.endedAll (s := { s with
      connected := false, pending := ∅, audioMarkers := ∅, needsNeutral := ∅ })
      (hlog.frame rfl rfl le_rfl) hall hnd
  case start => exact hlog.launched (hready.fresh hs).2
  case restore layer cue factory =>
    subst hlayer
    obtain ⟨hid, -⟩ := hk.fresh hs hfactory (hdistinct _ hfactory) hcue hfree
    exact Logged.begun (s := s.asked cue.layer (.ok cue))
      (hlog.frame rfl rfl le_rfl) hid
  case queue => exact hlog.frame rfl rfl (Nat.le_succ _)
  all_goals exact hlog.frame rfl rfl le_rfl

/-- Everything that holds between two effects of a run. -/
structure Coherent (s : PresentationScheduler) : Prop where
  logged : s.Logged
  exclusive : s.Exclusive
  known : s.Known

theorem Effect.coherent (h : Effect op now s t) (hs : s.Coherent)
    (hdistinct : ∀ factory ∈ s.neutralFactory, DistinctNeutrals factory)
    (hsubmit : ∀ cue, op = .submit cue → ∀ factory ∈ s.neutralFactory,
      Unclaimed factory cue.cueId) : t.Coherent where
  logged := h.logged hs.logged hs.exclusive hs.known hdistinct
  exclusive := h.exclusive hs.exclusive hs.known hdistinct
  known := h.known hs.known hsubmit

theorem Effects.coherent (h : Effects op now s t) (hs : s.Coherent)
    (hdistinct : ∀ factory ∈ s.neutralFactory, DistinctNeutrals factory)
    (hsubmit : ∀ cue, op = .submit cue → ∀ factory ∈ s.neutralFactory,
      Unclaimed factory cue.cueId) : t.Coherent := by
  have hinv := h.invariant (I := fun u => u.neutralFactory = s.neutralFactory ∧ u.Coherent)
    ⟨rfl, hs⟩ fun u v hu hstep => by
      refine ⟨hstep.neutralFactory_eq.trans hu.1, hstep.coherent hu.2 ?_ ?_⟩
      · rwa [hu.1]
      · rwa [hu.1]
  exact hinv.2

/-! ### The events of one operation -/

/-- A start and, before it, the stops of everything that was in its way, none of
which had a higher priority. -/
def Supplanting (s : PresentationScheduler) (es : List PresentationEvent) : Prop :=
  ∃ stops start, es = stops ++ [start] ∧ start.kind = .started ∧ start.replacedBy = none ∧
    (∀ e ∈ stops, e.kind = .stopped ∧ e.reason = some .preempted ∧
      e.replacedBy = some start.cue.cueId ∧ e.cue.Conflicts start.cue ∧
      e.cue.priority.value ≤ start.cue.priority.value) ∧
    ∀ lease ∈ s.active, lease.cue.Conflicts start.cue → ∃ e ∈ stops, e.cue = lease.cue

/-- A stop that no cue is the reason for. -/
def Unreplaced (op : SchedulerOperation) (e : PresentationEvent) : Prop :=
  e.kind = .stopped ∧ e.replacedBy = none ∧
    (e.reason = some .preempted → op = .cancel e.cue.cueId .preempted)

theorem exists_mem_stopEvents {n : ℕ} (h : lease ∈ leases) :
    ∃ e ∈ stopEvents now reason replacedBy n leases, e.cue = lease.cue := by
  induction leases generalizing n with
  | nil => cases h
  | cons l rest ih =>
    rcases List.mem_cons.mp h with rfl | h
    · exact ⟨_, List.mem_cons_self, rfl⟩
    · obtain ⟨e, he, hcue⟩ := ih (n := n + 1) h
      exact ⟨e, List.mem_cons_of_mem _ he, hcue⟩

theorem unreplaced_of_mem_stopEvents {e : PresentationEvent} {n : ℕ} (hreason : reason ≠ .preempted)
    (h : e ∈ stopEvents now reason none n leases) : Unreplaced op e := by
  obtain ⟨-, -, hkind, -, -, hr, hby⟩ := mem_stopEvents h
  exact ⟨hkind, hby, fun hp => absurd (Option.some.inj (hr.symm.trans hp)) hreason⟩

theorem launched_journal : ((s.popped cue).launched cue now).journal = s.journal ++
    (stopEvents now .preempted (some cue.cueId) s.sequence ((s.popped cue).conflictingLeases cue) ++
      [⟨((s.popped cue).preempted cue now).sequence + 1, .started, cue, now, none, none⟩]) := by
  have hpre : ((s.popped cue).preempted cue now).journal = s.journal ++
      stopEvents now .preempted (some cue.cueId) s.sequence
        ((s.popped cue).conflictingLeases cue) := endedAll_journal
  rw [← List.append_assoc, ← hpre, PresentationScheduler.launched]
  split
  · rfl
  · rfl

/-- **The events of an effect**: a start and the stops of what was in its way, or
stops alone. -/
theorem Effect.journal_eq (h : Effect op now s t) : ∃ es, t.journal = s.journal ++ es ∧
    (Supplanting s es ∨ ∀ e ∈ es, Unreplaced op e) := by
  rcases h with _ | ⟨hop, -⟩ | _ | _ | ⟨-, hreason⟩ | _ | ⟨-, -, -, -, hprio, -⟩ |
    ⟨-, -, -, -, -, -, -, hfits⟩ | _ | _ | _ | _ | _ | _ | _
  case expire =>
    refine ⟨[_], rfl, .inr fun e he => ?_⟩
    rw [List.mem_singleton.mp he]
    exact ⟨rfl, rfl, fun h => by cases h⟩
  case cancel =>
    refine ⟨[_], rfl, .inr fun e he => ?_⟩
    rw [List.mem_singleton.mp he]
    exact ⟨rfl, rfl, fun h => by rw [hop, Option.some.inj h]⟩
  case advance =>
    exact ⟨_, endedAll_journal, .inr fun e he => unreplaced_of_mem_stopEvents (by simp) he⟩
  case reset =>
    exact ⟨_, endedAll_journal, .inr fun e he => unreplaced_of_mem_stopEvents (by simp) he⟩
  case disconnect =>
    refine ⟨_, endedAll_journal, .inr fun e he => unreplaced_of_mem_stopEvents ?_ he⟩
    rintro rfl
    rcases hreason with h | h
    · cases h
    · cases h
  case start cue =>
    -- what is in the way of the cue is stopped first, each lease replaced by the cue
    refine ⟨_, launched_journal,
      .inl ⟨_, _, rfl, rfl, rfl, fun e he => ?_, fun lease hl hconf => ?_⟩⟩
    · obtain ⟨lease, hl, hkind, hcue, -, hreason, hby⟩ := mem_stopEvents he
      obtain ⟨hact, hconf⟩ := mem_conflictingLeases.mp hl
      rw [hcue]
      exact ⟨hkind, hreason, hby, hconf, hprio lease hact hconf⟩
    · exact exists_mem_stopEvents (mem_conflictingLeases.mpr ⟨hl, hconf⟩)
  case restore =>
    refine ⟨[_], rfl, .inl ⟨[], _, rfl, rfl, rfl, fun _ he => absurd he List.not_mem_nil, ?_⟩⟩
    exact fun lease hl hconf => absurd hconf (hfits lease hl)
  all_goals exact ⟨[], (List.append_nil _).symm, .inr fun e he => absurd he List.not_mem_nil⟩

/-- The events of an operation replace what they say they replace. -/
theorem Effects.replaced (h : Effects op now s t) :
    ∃ es, t.journal = s.journal ++ es ∧ Replaced es := by
  refine h.invariant (I := fun u => ∃ es, u.journal = s.journal ++ es ∧ Replaced es)
    ⟨[], (List.append_nil _).symm, trivial⟩ ?_
  rintro u v ⟨es, hu, hes⟩ hstep
  obtain ⟨more, hv, hmore⟩ := hstep.journal_eq
  refine ⟨es ++ more, by rw [hv, hu, List.append_assoc], hes.append ?_⟩
  rcases hmore with ⟨stops, start, rfl, hkind, hnone, hstops, -⟩ | hnone
  · exact replaced_concat hkind hnone fun e he => (hstops e he).2.2
  · exact replaced_of_none fun e he => (hnone e he).2.1

theorem Steps.replaced {es : List PresentationEvent} (h : Steps op now s es t) : Replaced es := by
  obtain ⟨es', hes', hreplaced⟩ := Effects.replaced h.1
  rw [h.2] at hes'
  rwa [List.append_cancel_left hes']

end PresentationScheduler

/-! ### In every run -/

/-- What a renderer learns from the events that were returned. -/
structure FaithfulLog (d : SchedulerRun) : Prop where
  /-- The events replay to the active leases. -/
  replays : replay ∅ d.returned.flatten =
    {cue | ∃ lease ∈ d.scheduler.sortedActive, lease.cue = cue}
  /-- No active id is started, no other cue stopped. -/
  alternates : Alternates ∅ d.returned.flatten
  /-- A stop that names a replacement is followed, in its batch, by that start. -/
  replaced : ∀ batch ∈ d.returned, Replaced batch
  /-- Events are numbered in increasing order. -/
  increasing : d.returned.flatten.Pairwise fun e e' => e.sequence < e'.sequence

theorem coherent_create (generation : ℕ) (policy : SchedulerPolicy)
    (neutralFactory : Option NeutralFactory) :
    (create generation policy neutralFactory).Coherent where
  logged := by
    refine ⟨?_, trivial, List.Pairwise.nil, fun e he => absurd he List.not_mem_nil⟩
    ext cue
    exact iff_of_false id fun ⟨_, hl, _⟩ => Keyed.not_mem_empty hl
  exclusive := exclusive_create _ _ _
  known _ _ :=
    ⟨fun _ hp => absurd hp Keyed.not_mem_empty, fun _ hl => absurd hl Keyed.not_mem_empty⟩

theorem coherent_of_reachable {d : SchedulerRun}
    (h : schedulerMachine.ReachableBy SubmitsUnclaimed d)
    (hdistinct : ∀ factory ∈ d.scheduler.neutralFactory, DistinctNeutrals factory) :
    d.scheduler.Coherent := by
  refine scheduler_invariant h (I := fun s =>
    (∀ factory ∈ s.neutralFactory, DistinctNeutrals factory) → s.Coherent) ?_ ?_ hdistinct
  · exact fun generation policy neutralFactory _ => coherent_create _ _ _
  · intro d op now s t hok heffects hs hstep hd
    rw [hstep.neutralFactory_eq] at hd
    refine hstep.coherent (hs hd) hd fun cue hop factory hf => hok cue hop factory ?_
    rwa [← heffects.neutralFactory_eq]

/-- With a valid factory, the batches returned make up the journal. -/
theorem returned_of_reachable {d : SchedulerRun}
    {ok : SchedulerRun → SchedulerOperation × Clock → Prop}
    (h : schedulerMachine.ReachableBy ok d)
    (hvalid : ∀ factory ∈ d.scheduler.neutralFactory, ValidNeutrals factory) :
    d.returned.flatten = d.scheduler.journal ∧ ∀ batch ∈ d.returned, Replaced batch := by
  refine h.invariant (I := fun d =>
    (∀ factory ∈ d.scheduler.neutralFactory, ValidNeutrals factory) →
      d.returned.flatten = d.scheduler.journal ∧ ∀ batch ∈ d.returned, Replaced batch) ?_ ?_ hvalid
  · rintro _ ⟨generation, policy, neutralFactory, rfl⟩ -
    exact ⟨rfl, fun batch hb => absurd hb List.not_mem_nil⟩
  · rintro d ⟨op, clock⟩ d' - hd - hnext hv
    rw [schedulerMachine_neutralFactory hnext] at hv
    obtain ⟨hflat, hbatches⟩ := hd hv
    rcases schedulerMachine_next_valid hv hnext with ⟨hsame, hr | hr⟩ | ⟨now, es, -, hsteps, hr⟩
    · rw [hr, hsame]
      exact ⟨hflat, hbatches⟩
    · rw [hr, hsame, List.flatten_concat, List.append_nil]
      refine ⟨hflat, fun batch hb => ?_⟩
      rcases List.mem_append.mp hb with hb | hb
      · exact hbatches batch hb
      · rw [List.mem_singleton.mp hb]
        trivial
    · rw [hr, hsteps.2, List.flatten_concat, hflat]
      refine ⟨rfl, fun batch hb => ?_⟩
      rcases List.mem_append.mp hb with hb | hb
      · exact hbatches batch hb
      · rw [List.mem_singleton.mp hb]
        exact hsteps.replaced

/-- **The event log is a faithful replay.** In every run with a valid neutral
factory whose cues share an id neither across layers nor with submitted cues. -/
theorem scheduler_faithful (d : SchedulerRun)
    (h : schedulerMachine.ReachableBy SubmitsUnclaimed d)
    (hvalid : ∀ factory ∈ d.scheduler.neutralFactory,
      ValidNeutrals factory ∧ DistinctNeutrals factory) : FaithfulLog d := by
  have hlog := (coherent_of_reachable h fun factory hf => (hvalid factory hf).2).logged
  obtain ⟨hflat, hbatches⟩ := returned_of_reachable h fun factory hf => (hvalid factory hf).1
  refine ⟨?_, ?_, hbatches, ?_⟩
  · rw [hflat, hlog.replays]
    ext cue
    exact exists_congr fun lease => and_congr_left' mem_sortedActive.symm
  · rw [hflat]
    exact hlog.alternates
  · rw [hflat]
    exact hlog.increasing

/-- The log of a preemption across layers, a restoration and an expiry. -/
theorem scheduler_faithful_preempting : ∃ d : SchedulerRun,
    d.returned.map (·.map fun e => (e.kind, e.cue.cueId)) =
      [[(.started, "wave".toList)],
        [(.stopped, "wave".toList), (.started, "lean".toList), (.started, "gesture".toList)],
        [(.stopped, "lean".toList), (.started, "posture".toList)]] ∧ FaithfulLog d := by
  have hrun : (schedulerMachine.run ⟨.create 0 .default (some layerNeutrals), none, []⟩
      [(.submit wave, some 0), (.submit lean, some 1), (.tick, some 2)]).map
      (fun d => d.returned.map (·.map fun e => (e.kind, e.cue.cueId))) =
      some [[(.started, "wave".toList)],
        [(.stopped, "wave".toList), (.started, "lean".toList), (.started, "gesture".toList)],
        [(.stopped, "lean".toList), (.started, "posture".toList)]] := by decide +kernel
  obtain ⟨d, hd, hreturned⟩ := Option.map_eq_some_iff.mp hrun
  obtain ⟨hreach, -, hvalid⟩ :=
    layerNeutrals_run (p := fun _ => True) (fun _ _ => trivial) (by decide) hd
  replace hreach := hreach.mono fun _ _ => And.left
  exact ⟨d, hreturned, scheduler_faithful d hreach hvalid⟩

/-- A factory that answers valid neutral cues, all under one id, makes the
scheduler start an id that is active. -/
theorem scheduler_not_faithful : ∃ d : SchedulerRun,
    schedulerMachine.ReachableBy SubmitsUnclaimed d ∧
      (∀ factory ∈ d.scheduler.neutralFactory, ValidNeutrals factory) ∧ ¬FaithfulLog d := by
  have hrun : (schedulerMachine.run ⟨.create 0 .default (some constantNeutrals), none, []⟩
      [(.resetToNeutral, some 0)]).map
      (fun d => (d.returned.flatten.take 2).map fun e => (e.kind, e.cue.cueId)) =
      some [(.started, "neutral".toList), (.started, "neutral".toList)] := by decide +kernel
  obtain ⟨d, hd, hv⟩ := Option.map_eq_some_iff.mp hrun
  obtain ⟨hreach, hvalid⟩ :=
    constantNeutrals_run (p := fun _ => True) (fun _ _ => trivial) (by decide) hd
  replace hreach := hreach.mono fun _ _ => And.left
  refine ⟨d, hreach, hvalid, fun hlog => ?_⟩
  have halt := hlog.alternates
  rcases hes : d.returned.flatten with _ | ⟨e, _ | ⟨e', rest⟩⟩
  · simp [hes] at hv
  · simp [hes] at hv
  · rw [hes] at halt hv
    simp only [List.take_succ_cons, List.take_zero, List.map_cons, List.map_nil,
      List.cons.injEq, Prod.mk.injEq, and_true] at hv
    obtain ⟨⟨hkind, hid⟩, hkind', hid'⟩ := hv
    obtain ⟨-, hfits, -⟩ := halt
    rw [hkind'] at hfits
    refine hfits e.cue ?_ (hid.trans hid'.symm)
    rw [PresentationEvent.apply, hkind]
    exact .inl rfl

end Eeveetuber
