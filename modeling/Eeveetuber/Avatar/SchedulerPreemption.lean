import Eeveetuber.Avatar.SchedulerReplay

/-!
# Preemption

A cue may end the leases it conflicts with, across layers and several at once,
but only those of cues that are no more urgent. `Eeveetuber.PreemptsSoundly` says
so of a whole log of events, by what a renderer that follows it presents: nothing
that conflicts with a starting cue is still presented, and a stop that is the
fault of a cue comes just before the start of that cue, which conflicts with the
stopped one and has at least its priority.

The other side is the cue that is turned away. It is judged when the leases that
are over have been stopped and the cues whose turn came before have started, and
it is turned away for its priority only if a more urgent lease is in its way then
(`Eeveetuber.PresentationScheduler.Judges`).
-/

namespace Eeveetuber

open Foundation Foundation.Stateful PresentationScheduler

/-! ### Sound logs -/

/-- The first cue that starts after a stopped one takes its place. -/
def Supplants (e : PresentationEvent) (rest : List PresentationEvent) : Prop :=
  ∃ stops start more, rest = stops ++ start :: more ∧ (∀ x ∈ stops, x.kind = .stopped) ∧
    start.kind = .started ∧ e.replacedBy = some start.cue.cueId ∧ e.cue.Conflicts start.cue ∧
    e.cue.priority.value ≤ start.cue.priority.value

/-- Starts leave nothing that conflicts with them, and what cues end they take the
place of. `cues` is what is presented before. -/
def PreemptsSoundly (cues : Set PresentationCue) : List PresentationEvent → Prop
  | [] => True
  | e :: rest => (match e.kind with
      | .started => ∀ cue ∈ cues, ¬cue.Conflicts e.cue
      | .stopped => (e.reason = some .preempted ∨ e.replacedBy.isSome = true) →
          e.reason = some .preempted ∧ Supplants e rest) ∧
    PreemptsSoundly (e.apply cues) rest

section Logs

variable {cues : Set PresentationCue} {e : PresentationEvent} {es es' : List PresentationEvent}

theorem Supplants.append (h : Supplants e es) : Supplants e (es ++ es') := by
  obtain ⟨stops, start, more, rfl, hrest⟩ := h
  exact ⟨stops, start, more ++ es', by rw [List.append_assoc, List.cons_append], hrest⟩

theorem PreemptsSoundly.append (h : PreemptsSoundly cues es)
    (h' : PreemptsSoundly (replay cues es) es') : PreemptsSoundly cues (es ++ es') := by
  induction es generalizing cues with
  | nil => exact h'
  | cons e rest ih =>
    obtain ⟨hfirst, hrest⟩ := h
    refine ⟨?_, ih hrest h'⟩
    rcases hkind : e.kind with _ | _
    · rwa [hkind] at hfirst
    · rw [hkind] at hfirst
      exact fun hcause => ⟨(hfirst hcause).1, (hfirst hcause).2.append⟩

/-- Stops that no cue is the reason for. -/
theorem preemptsSoundly_of_stops (h : ∀ e ∈ es, e.kind = .stopped ∧ e.replacedBy = none ∧
    e.reason ≠ some .preempted) : PreemptsSoundly cues es := by
  induction es generalizing cues with
  | nil => trivial
  | cons e rest ih =>
    obtain ⟨hkind, hby, hreason⟩ := h e List.mem_cons_self
    refine ⟨?_, ih fun e' he' => h e' (List.mem_cons_of_mem _ he')⟩
    rw [hkind]
    rintro (hpre | hsome)
    · exact absurd hpre hreason
    · rw [hby] at hsome
      cases hsome

/-- What is presented after some stops. -/
theorem mem_replay_stops {cue : PresentationCue} (h : ∀ e ∈ es, e.kind = .stopped)
    (hcue : cue ∈ replay cues es) : cue ∈ cues ∧ ∀ e ∈ es, e.cue ≠ cue := by
  induction es generalizing cues with
  | nil => exact ⟨hcue, fun e he => absurd he List.not_mem_nil⟩
  | cons e rest ih =>
    obtain ⟨hbefore, hrest⟩ := ih (fun e' he' => h e' (List.mem_cons_of_mem _ he')) hcue
    rw [PresentationEvent.apply, h e List.mem_cons_self] at hbefore
    refine ⟨hbefore.1, fun e' he' => ?_⟩
    rcases List.mem_cons.mp he' with rfl | he'
    · exact fun heq => hbefore.2 heq.symm
    · exact hrest e' he'

/-- A start and the stops of everything that was in its way. -/
theorem PresentationScheduler.Supplanting.preemptsSoundly {s : PresentationScheduler}
    (h : s.Supplanting es) : PreemptsSoundly s.cues es := by
  obtain ⟨stops, start, rfl, hkind, -, hstops, hall⟩ := h
  have hsuffix : ∀ later cues, (∀ e ∈ later, e ∈ stops) →
      (∀ cue ∈ replay cues later, ¬cue.Conflicts start.cue) →
      PreemptsSoundly cues (later ++ [start]) := by
    intro later
    induction later with
    | nil =>
      intro cues _ hfree
      refine ⟨?_, trivial⟩
      rwa [hkind]
    | cons e rest ih =>
      intro cues hsub hfree
      obtain ⟨hstop, hreason, hby, hconf, hprio⟩ := hstops e (hsub e List.mem_cons_self)
      refine ⟨?_, ih _ (fun e' he' => hsub e' (List.mem_cons_of_mem _ he')) hfree⟩
      rw [hstop]
      refine fun _ => ⟨hreason, rest, start, [], rfl, fun x hx => ?_, hkind, hby, hconf, hprio⟩
      exact (hstops x (hsub x (List.mem_cons_of_mem _ hx))).1
  refine hsuffix stops s.cues (fun _ => id) fun cue hcue hconf => ?_
  obtain ⟨⟨lease, hl, rfl⟩, hgone⟩ := mem_replay_stops (fun e he => (hstops e he).1) hcue
  obtain ⟨e, he, heq⟩ := hall lease hl hconf
  exact hgone e he heq

/-- What a sound log says of a stop. -/
theorem PreemptsSoundly.replacedBy (h : PreemptsSoundly cues es) (he : e ∈ es)
    (hkind : e.kind = .stopped) (hreason : e.reason = some .preempted) :
    e.replacedBy.isSome = true := by
  induction es generalizing cues with
  | nil => cases he
  | cons e' rest ih =>
    rcases List.mem_cons.mp he with rfl | he
    · have hfirst := h.1
      rw [hkind] at hfirst
      obtain ⟨-, _, _, _, -, -, -, hby, -⟩ := hfirst (.inl hreason)
      rw [hby]
      rfl
    · exact ih h.2 he

/-- What a sound log says of a start. -/
theorem PreemptsSoundly.at_start {before after : List PresentationEvent}
    (h : PreemptsSoundly cues (before ++ e :: after)) (hkind : e.kind = .started) :
    ∀ cue ∈ replay cues before, ¬cue.Conflicts e.cue := by
  induction before generalizing cues with
  | nil =>
    have hfirst := h.1
    rwa [hkind] at hfirst
  | cons e' rest ih => exact ih h.2

/-- What is started stays presented until something is stopped. -/
theorem mem_replay_starts (h : ∀ e ∈ es, e.kind = .started) (he : e ∈ es) :
    e.cue ∈ replay cues es := by
  have hmono : ∀ (es : List PresentationEvent) (cues : Set PresentationCue),
      (∀ e ∈ es, e.kind = .started) → cues ⊆ replay cues es := by
    intro es
    induction es with
    | nil => exact fun cues _ => subset_rfl
    | cons e rest ih =>
      intro cues hstart cue hcue
      refine ih _ (fun e' he' => hstart e' (List.mem_cons_of_mem _ he')) ?_
      rw [PresentationEvent.apply, hstart e List.mem_cons_self]
      exact .inr hcue
  induction es generalizing cues with
  | nil => cases he
  | cons e' rest ih =>
    have hrest : ∀ x ∈ rest, x.kind = .started := fun x hx => h x (List.mem_cons_of_mem _ hx)
    rcases List.mem_cons.mp he with rfl | he
    · refine hmono rest _ hrest ?_
      rw [PresentationEvent.apply, h e List.mem_cons_self]
      exact .inl rfl
    · exact ih hrest he

end Logs

/-- **Every effect preempts soundly**, unless it cancels a cue as preempted. -/
theorem PresentationScheduler.Effect.preemptsSoundly {op : SchedulerOperation} {now : ℚ}
    {s t : PresentationScheduler} (h : Effect op now s t) (hlogged : s.Logged)
    (hop : ∀ cueId, op ≠ .cancel cueId .preempted) (hs : PreemptsSoundly ∅ s.journal) :
    PreemptsSoundly ∅ t.journal := by
  obtain ⟨es, hjournal, hes⟩ := h.journal_eq
  rw [hjournal]
  refine hs.append ?_
  rw [hlogged.replays]
  rcases hes with hstart | hstops
  · exact hstart.preemptsSoundly
  · refine preemptsSoundly_of_stops fun e he => ?_
    obtain ⟨hkind, hby, hpre⟩ := hstops e he
    exact ⟨hkind, hby, fun hreason => hop _ (hpre hreason)⟩

/-! ### In every run -/

/-- No cue is cancelled under the pretext of a preemption. -/
def HonestCancels (l : SchedulerOperation × Clock) : Prop :=
  ∀ cueId, l.1 ≠ .cancel cueId .preempted

/-- Preemption, as far as the events and the results of a scheduler tell it. -/
structure SoundPreemption (d : SchedulerRun) : Prop where
  /-- Starts leave nothing in their way, and what cues end they take the place of. -/
  log : PreemptsSoundly ∅ d.scheduler.journal
  /-- No lease ends without a stop. -/
  replays : replay ∅ d.scheduler.journal = d.scheduler.cues
  /-- Whoever an operation turns away for its priority is blocked in its turn. -/
  judges : ∀ op now batch t, outcome (perform (some now) op) d.scheduler = (.ok batch, t) →
    Judges op now d.scheduler batch.results
  /-- The leases in the middle of an operation are those its events so far leave. -/
  follows : ∀ op now es u, SubmitsUnclaimed d (op, some now) → Steps op now d.scheduler es u →
    u.cues = replay d.scheduler.cues es

/-- **Preemption is sound.** In every run that does not cancel cues as preempted, in
which neutral cues share an id neither across layers nor with submitted cues. -/
theorem scheduler_preempts (d : SchedulerRun)
    (h : schedulerMachine.ReachableBy (fun d l => SubmitsUnclaimed d l ∧ HonestCancels l) d)
    (hdistinct : ∀ factory ∈ d.scheduler.neutralFactory, DistinctNeutrals factory) :
    SoundPreemption d := by
  have hcoherent := coherent_of_reachable (h.mono fun _ _ => And.left) hdistinct
  refine ⟨?_, hcoherent.logged.replays, fun op now batch t hout => ?_,
    fun op now es u hok hsteps => ?_⟩
  · have hinv := scheduler_invariant h (I := fun s =>
      (∀ factory ∈ s.neutralFactory, DistinctNeutrals factory) →
        PreemptsSoundly ∅ s.journal ∧ s.Coherent) ?_ ?_
    · exact (hinv hdistinct).1
    · exact fun generation policy neutralFactory _ => ⟨trivial, coherent_create _ _ _⟩
    · intro d op now s t hok heffects hs hstep hd
      rw [hstep.neutralFactory_eq] at hd
      obtain ⟨hlog, hs⟩ := hs hd
      refine ⟨hstep.preemptsSoundly hs.logged hok.2 hlog, hstep.coherent hs hd ?_⟩
      exact fun cue hop factory hf => hok.1 cue hop factory (by rwa [← heffects.neutralFactory_eq])
  · exact (triple_perform_steps.ok rfl hout).2
  · have hu := hsteps.1.coherent hcoherent hdistinct fun cue hop => hok cue hop
    rw [← hu.logged.replays, hsteps.2, replay_append, hcoherent.logged.replays]

/-- A posture preempts a gesture that needs the hands too, and is turned away when
it comes back. -/
theorem scheduler_preempts_lean : ∃ d : SchedulerRun,
    d.scheduler.journal.map (fun e => (e.kind, e.cue.cueId, e.replacedBy)) =
      [(.started, "wave".toList, none), (.stopped, "wave".toList, some "lean".toList),
        (.started, "lean".toList, none), (.started, "gesture".toList, none)] ∧
      SoundPreemption d := by
  have hrun : (schedulerMachine.run ⟨.create 0 .default (some layerNeutrals), none, []⟩
      [(.submit wave, some 0), (.submit lean, some 1)]).map
      (fun d => d.scheduler.journal.map fun e => (e.kind, e.cue.cueId, e.replacedBy)) =
      some [(.started, "wave".toList, none), (.stopped, "wave".toList, some "lean".toList),
        (.started, "lean".toList, none), (.started, "gesture".toList, none)] := by decide +kernel
  obtain ⟨d, hd, hjournal⟩ := Option.map_eq_some_iff.mp hrun
  have hhonest : ∀ l ∈ [(SchedulerOperation.submit wave, some 0), (.submit lean, some 1)],
      HonestCancels l := by
    simp [HonestCancels]
  obtain ⟨hreach, -, hvalid⟩ := layerNeutrals_run hhonest (by decide) hd
  exact ⟨d, hjournal, scheduler_preempts d hreach fun factory hf => (hvalid factory hf).2⟩

/-- A cancellation may name a preemption as its reason, with no cue to replace the
cancelled one; and where neutral cues share an id, a cue may start on a layer whose
neutral cue was never stopped. -/
theorem scheduler_not_preempts :
    (∃ d : SchedulerRun, schedulerMachine.ReachableBy SubmitsUnclaimed d ∧
      (∀ factory ∈ d.scheduler.neutralFactory, ValidNeutrals factory ∧ DistinctNeutrals factory) ∧
      ¬SoundPreemption d) ∧
    ∃ d : SchedulerRun,
      schedulerMachine.ReachableBy (fun d l => SubmitsUnclaimed d l ∧ HonestCancels l) d ∧
      (∀ factory ∈ d.scheduler.neutralFactory, ValidNeutrals factory) ∧ ¬SoundPreemption d := by
  constructor
  · have hrun : (schedulerMachine.run ⟨.create 0 .default (some layerNeutrals), none, []⟩
        [(.submit wave, some 0), (.cancel "wave".toList .preempted, some 1)]).map
        (fun d => d.scheduler.journal.any fun e =>
          e.kind = .stopped && e.reason = some .preempted && e.replacedBy.isNone) = some true := by
      decide +kernel
    obtain ⟨d, hd, hjournal⟩ := Option.map_eq_some_iff.mp hrun
    obtain ⟨hreach, -, hvalid⟩ :=
      layerNeutrals_run (p := fun _ => True) (fun _ _ => trivial) (by decide) hd
    refine ⟨d, hreach.mono fun _ _ => And.left, hvalid, fun hsound => ?_⟩
    obtain ⟨e, he, hbad⟩ := List.any_eq_true.mp hjournal
    simp only [Bool.and_eq_true, decide_eq_true_eq, Option.isNone_iff_eq_none] at hbad
    have := hsound.log.replacedBy he hbad.1.1 hbad.1.2
    rw [hbad.2] at this
    cases this
  · have hrun : (schedulerMachine.run ⟨.create 0 .default (some constantNeutrals), none, []⟩
        [(.resetToNeutral, some 0), (.submit smile, some 1)]).map
        (fun d => d.scheduler.journal.map fun e => (e.kind, e.cue.layer)) =
        some ([(.started, .affect), (.started, .gaze), (.started, .gesture),
          (.started, .posture)] ++ [(.started, .affect)]) := by decide +kernel
    obtain ⟨d, hd, hjournal⟩ := Option.map_eq_some_iff.mp hrun
    have hhonest : ∀ l ∈ [(SchedulerOperation.resetToNeutral, some 0), (.submit smile, some 1)],
        HonestCancels l := by
      simp [HonestCancels]
    obtain ⟨hreach, hvalid⟩ := constantNeutrals_run hhonest (by decide) hd
    refine ⟨d, hreach, hvalid, fun hsound => ?_⟩
    obtain ⟨before, rest, hes, hbefore, hrest⟩ := List.map_eq_append_iff.mp hjournal
    obtain ⟨e, rfl, he⟩ := List.map_eq_singleton_iff.mp hrest
    obtain ⟨hkind, hlayer⟩ := Prod.mk.inj he
    -- the neutral cue of the affect layer is presented when the smile starts
    rcases before with _ | ⟨first, others⟩
    · simp at hbefore
    have hstarts : ∀ x ∈ first :: others, x.kind = .started := by
      intro x hx
      have hmem := List.mem_map_of_mem (f := fun e => (e.kind, e.cue.layer)) hx
      rw [hbefore] at hmem
      simp only [List.mem_cons, Prod.mk.injEq, List.not_mem_nil, or_false] at hmem
      rcases hmem with h | h | h | h
      all_goals exact h.1
    have hlog := hsound.log
    rw [hes] at hlog
    refine hlog.at_start hkind first.cue (mem_replay_starts hstarts List.mem_cons_self) (.inl ?_)
    rw [hlayer]
    simp only [List.map_cons, List.cons.injEq, Prod.mk.injEq] at hbefore
    exact hbefore.1.2

end Eeveetuber
