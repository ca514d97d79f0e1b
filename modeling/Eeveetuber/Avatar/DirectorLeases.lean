import Eeveetuber.Avatar.Director

/-!
# What the avatar cannot perform

A host performs requests by handing the scheduler the cues that the director makes
of them, and the scheduler restores the director's neutral cues;
`Eeveetuber.performanceMachine` is the two together.

A request the avatar cannot perform becomes a neutral cue with the priority of the
request. If nobody says how long it lasts – not the request, and not the neutral
binding, which says nothing in a profile without neutral art – its lease has no
expiry, and every later cue of a lower priority on its layer is turned away until
something else ends it. `Eeveetuber.director_leases` says that this is the only way
in which an unperformable request can hold its layer for good.
-/

namespace Eeveetuber

open Foundation Foundation.Stateful PresentationScheduler

/-! ### Director and scheduler -/

/-- The host performs a request, or calls another operation of the scheduler. -/
inductive PerformanceOperation where
  | perform (request : CueRequest)
  | control (op : SchedulerOperation)

/-- A scheduler in use, with the requests that were performed and the cues made of them. -/
structure PerformanceRun where
  run : SchedulerRun
  performed : List (CueRequest × PresentationCue)

/-- All cues that are submitted, and all that are restored, come from one director. -/
def performanceMachine (d : PerformanceDirector) :
    Machine PerformanceRun (PerformanceOperation × Clock) where
  start r := ∃ generation policy,
    r = ⟨⟨.create generation policy (some d.neutralFactory), none, []⟩, []⟩
  next r l := match l.1 with
    | .perform request =>
      match d.resolve request with
      | .error _ => some r
      | .ok cue => (schedulerMachine.next r.run (.submit cue, l.2)).map fun run =>
          ⟨run, r.performed ++ [(request, cue)]⟩
    | .control (.submit _) => none
    | .control op => (schedulerMachine.next r.run (op, l.2)).map fun run => ⟨run, r.performed⟩

namespace PerformanceDirector

variable {d : PerformanceDirector} {request : CueRequest} {cue : PresentationCue}

/-- If the request cannot be performed, someone says how long that takes, or
nothing is of a lower priority. -/
def GivesTime (d : PerformanceDirector) (request : CueRequest) : Prop :=
  d.Unperformable request → request.leaseS.isSome = true ∨
    (d.profile.neutralBinding request.intent.layer).defaultLeaseS.isSome = true ∨
    request.effectivePriority = .reactiveIdle

theorem leaseFor_isSome {binding : CapabilityBinding} :
    (d.leaseFor request binding).isSome = true ↔
      request.leaseS.isSome = true ∨ binding.defaultLeaseS.isSome = true := by
  rw [leaseFor]
  rcases request.leaseS with _ | lease
  · simp
  · simp

/-- **What a request that cannot be performed asks for**: a lease with an end or the
lowest priority, just if it gives time. -/
theorem unperformable_iff (h : d.resolve request = .ok cue) (hun : d.Unperformable request) :
    cue.leaseS.isSome = true ∨ cue.priority = .reactiveIdle ↔ d.GivesTime request := by
  obtain ⟨hlease, hprio⟩ := resolve_unperformable h hun
  rw [hlease, hprio, leaseFor_isSome, GivesTime, or_assoc]
  exact (imp_iff_right hun).symm

end PerformanceDirector

/-! ### Leases -/

/-- A lease without expiry is one that its cue asked for, or idle. -/
def Timed (s : PresentationScheduler) : Prop :=
  ∀ lease ∈ s.active, lease.cue.priority = .reactiveIdle ∨
    (lease.expiresAt = none → lease.cue.leaseS = none)

theorem PresentationScheduler.Effect.timed {op : SchedulerOperation} {now : ℚ}
    {s t : PresentationScheduler} {d : PerformanceDirector} (h : Effect op now s t)
    (hfactory : s.neutralFactory = some d.neutralFactory) (hs : Timed s) : Timed t := by
  intro lease hl
  rcases h.mem_active hl with hl | ⟨cue, -, rfl⟩ | ⟨cue, factory, n, hf, hcue, -, -, rfl⟩
  · exact hs lease hl
  · exact .inr fun hnone => Option.map_eq_none_iff.mp hnone
  · obtain rfl := Option.some.inj (hfactory.symm.trans hf)
    obtain ⟨c, hc, -, -, -, -, hidle⟩ := d.neutralCue_eq_ok cue.layer s.generation now
    obtain rfl := Except.ok.inj (hcue.symm.trans hc)
    exact .inl hidle

/-- What becomes of requests that cannot be performed. -/
structure NeverStuck (d : PerformanceDirector) (r : PerformanceRun) : Prop where
  /-- Their leases end, or have the lowest priority. -/
  leases : ∀ p ∈ r.performed, d.Unperformable p.1 → ∀ lease ∈ r.run.scheduler.active,
    lease.cue = p.2 → lease.expiresAt.isSome = true ∨ lease.cue.priority = .reactiveIdle
  /-- Those that are in the way of another cue end. -/
  blockers : ∀ p ∈ r.performed, d.Unperformable p.1 → ∀ lease ∈ r.run.scheduler.active,
    lease.cue = p.2 → ∀ cue : PresentationCue, cue.priority.value < lease.cue.priority.value →
      ∃ t, lease.expiresAt = some t

theorem CuePriority.value_reactiveIdle_le (priority : CuePriority) :
    CuePriority.reactiveIdle.value ≤ priority.value := by
  cases priority <;> decide

section Runs

variable {d : PerformanceDirector} {r r' : PerformanceRun} {l : PerformanceOperation × Clock}
  {ok : PerformanceRun → PerformanceOperation × Clock → Prop}

/-- A step of the two together is none of the scheduler's, or one of them. -/
theorem performanceMachine_next (h : (performanceMachine d).next r l = some r') :
    r' = r ∨ (∃ request cue, l.1 = .perform request ∧ d.resolve request = .ok cue ∧
        schedulerMachine.next r.run (.submit cue, l.2) = some r'.run ∧
        r'.performed = r.performed ++ [(request, cue)]) ∨
      ∃ op, schedulerMachine.next r.run (op, l.2) = some r'.run ∧ r'.performed = r.performed := by
  rw [performanceMachine] at h
  dsimp only at h
  split at h
  · rename_i request hl
    split at h
    · exact .inl (Option.some.inj h).symm
    · rename_i cue hcue
      obtain ⟨run, hrun, rfl⟩ := Option.map_eq_some_iff.mp h
      exact .inr (.inl ⟨request, cue, hl, hcue, hrun, rfl⟩)
  · cases h
  · obtain ⟨run, hrun, rfl⟩ := Option.map_eq_some_iff.mp h
    exact .inr (.inr ⟨_, hrun, rfl⟩)

theorem timed_next {d₁ d₂ : SchedulerRun} {op : SchedulerOperation} {clock : Clock}
    (h : schedulerMachine.next d₁ (op, clock) = some d₂)
    (hfactory : d₁.scheduler.neutralFactory = some d.neutralFactory) (hs : Timed d₁.scheduler) :
    d₂.scheduler.neutralFactory = some d.neutralFactory ∧ Timed d₂.scheduler := by
  refine ⟨(schedulerMachine_neutralFactory h).trans hfactory, ?_⟩
  rcases schedulerMachine_next h with ⟨-, hsame, -⟩ | ⟨now, -, -, -, -, heffects, -⟩
  · rwa [hsame]
  · have hinv := heffects.invariant
      (I := fun s => s.neutralFactory = some d.neutralFactory ∧ Timed s) ⟨hfactory, hs⟩
      fun u v hu hstep => ⟨hstep.neutralFactory_eq.trans hu.1, hstep.timed hu.1 hu.2⟩
    exact hinv.2

theorem timed_of_reachable (h : (performanceMachine d).ReachableBy ok r) :
    Timed r.run.scheduler := by
  have hinv := h.invariant (I := fun r =>
    r.run.scheduler.neutralFactory = some d.neutralFactory ∧ Timed r.run.scheduler) ?_ ?_
  · exact hinv.2
  · rintro _ ⟨generation, policy, rfl⟩
    exact ⟨rfl, fun lease hl => absurd hl Keyed.not_mem_empty⟩
  · rintro r l r' - ⟨hf, ht⟩ - hnext
    rcases performanceMachine_next hnext with rfl | ⟨_, _, -, -, hrun, -⟩ | ⟨_, hrun, -⟩
    · exact ⟨hf, ht⟩
    · exact timed_next hrun hf ht
    · exact timed_next hrun hf ht

/-- What was performed was resolved, and met the condition on its step. -/
theorem performed_of_reachable {p : CueRequest → Prop}
    (h : (performanceMachine d).ReachableBy
      (fun _ l => ∀ request, l.1 = .perform request → p request) r) :
    ∀ x ∈ r.performed, d.resolve x.1 = .ok x.2 ∧ p x.1 := by
  refine h.invariant (I := fun r => ∀ x ∈ r.performed, d.resolve x.1 = .ok x.2 ∧ p x.1) ?_ ?_
  · rintro _ ⟨generation, policy, rfl⟩ x hx
    exact absurd hx List.not_mem_nil
  · rintro r l r' - hr hok hnext
    rcases performanceMachine_next hnext with rfl | ⟨request, cue, hl, hcue, -, hp⟩ | ⟨_, -, hp⟩
    · exact hr
    · rw [hp]
      intro x hx
      rcases List.mem_append.mp hx with hx | hx
      · exact hr x hx
      · rw [List.mem_singleton.mp hx]
        exact ⟨hcue, hok request hl⟩
    · rw [hp]
      exact hr

/-- **Unperformable requests do not hold their layer.** In every run all of whose
requests give time. -/
theorem director_leases (d : PerformanceDirector) (r : PerformanceRun)
    (h : (performanceMachine d).ReachableBy
      (fun _ l => ∀ request, l.1 = .perform request → d.GivesTime request) r) :
    NeverStuck d r := by
  have hleases : ∀ p ∈ r.performed, d.Unperformable p.1 → ∀ lease ∈ r.run.scheduler.active,
      lease.cue = p.2 → lease.expiresAt.isSome = true ∨ lease.cue.priority = .reactiveIdle := by
    intro p hp hun lease hl hcue
    obtain ⟨hresolve, hgives⟩ := performed_of_reachable h p hp
    rcases timed_of_reachable h lease hl with hidle | htimed
    · exact .inr hidle
    · rcases hexp : lease.expiresAt with _ | t
      · have hnone := htimed hexp
        have hcond := (PerformanceDirector.unperformable_iff hresolve hun).mpr hgives
        rw [← hcue, hnone] at hcond
        exact .inr (hcond.resolve_left (by simp))
      · exact .inl rfl
  refine ⟨hleases, fun p hp hun lease hl hcue cue hlt => ?_⟩
  rcases hleases p hp hun lease hl hcue with hsome | hidle
  · exact Option.isSome_iff_exists.mp hsome
  · rw [hidle] at hlt
    exact absurd hlt (not_lt.mpr cue.priority.value_reactiveIdle_le)

end Runs

/-- A nod, the only thing that `nodder` can do. -/
def nod : CapabilityBinding where
  semanticKey := "gesture.nod".toList
  layer := .gesture
  adapterAction := some "nod".toList
  valid := by rw [CapabilityBindingFields.postInit_eq_ok]; decide +kernel

/-- A director for an avatar without neutral art. -/
def nodder : PerformanceDirector where
  profile := {
    avatarId := "avatar".toList
    renderer := "live2d".toList
    capabilities := (∅ : Mapping Text CapabilityBinding).insert ("gesture.nod".toList, nod)
    valid := by decide +kernel }
  style := .default

/-- A model's request to wave, for some time or for as long as the binding says. -/
def waveRequest (leaseS : Option ℚ) (h : leaseS = none ∨ leaseS = some 2) : CueRequest where
  cueId := "wave".toList
  generation := 0
  intent := ⟨.gesture, "gesture.wave".toList, 1⟩
  requestedAt := 0
  leaseS := leaseS
  valid := by rcases h with rfl | rfl <;> decide +kernel

/-- A nod that a game asks for one hour later. -/
def nodRequest : CueRequest where
  cueId := "nod".toList
  generation := 0
  intent := ⟨.gesture, "gesture.nod".toList, 1⟩
  requestedAt := 3600
  source := .gameEvent
  valid := by decide +kernel

theorem nodder_unperformable (leaseS : Option ℚ) (h : leaseS = none ∨ leaseS = some 2) :
    nodder.Unperformable (waveRequest leaseS h) := by
  have hres : nodder.profile.resolve (waveRequest leaseS h).intent = .ok {
      requestedKey := "gesture.wave".toList
      resolvedKey := "gesture.neutral".toList
      binding := .neutralNoop .gesture
      usedFallback := true
      reason := .neutralNoop } := by
    rcases h with rfl | rfl <;> decide +kernel
  exact .inr ((AvatarCapabilityProfile.resolve_eq_neutral hres).1.mp (.inr rfl))

/-- A wave of two seconds is resolved to the neutral binding, and ends. -/
theorem director_leases_wave : ∃ r : PerformanceRun,
    r.run.scheduler.active.values.map (fun l => (l.cue.semanticKey, l.cue.priority, l.expiresAt)) =
      [("gesture.neutral".toList, .model, some 2)] ∧ NeverStuck nodder r := by
  have hrun : ((performanceMachine nodder).run
      ⟨⟨.create 0 .default (some nodder.neutralFactory), none, []⟩, []⟩
      [(.perform (waveRequest (some 2) (.inr rfl)), some 0)]).map (fun r =>
        r.run.scheduler.active.values.map fun l =>
          (l.cue.semanticKey, l.cue.priority, l.expiresAt)) =
      some [("gesture.neutral".toList, .model, some 2)] := by decide +kernel
  obtain ⟨r, hr, hactive⟩ := Option.map_eq_some_iff.mp hrun
  refine ⟨r, hactive, director_leases nodder r (Machine.reachableBy_of_labels (I := fun _ => True)
    (fun _ _ _ _ _ => trivial) (fun _ l _ hl request hrequest => ?_)
    (.start ⟨_, _, rfl⟩) trivial hr)⟩
  rw [List.mem_singleton.mp hl] at hrequest
  cases hrequest
  exact fun _ => .inl rfl

/-- A wave without a lease of its own stays, and turns the nod away an hour later. -/
theorem director_not_leases : ∃ r : PerformanceRun, (performanceMachine nodder).Reachable r ∧
    ¬NeverStuck nodder r ∧ ∃ cue batch s, nodder.resolve nodRequest = .ok cue ∧
      outcome (perform (some 3600) (.submit cue)) r.run.scheduler = (.ok batch, s) ∧
      batch.results.map (·.status) = [.rejectedPriority] := by
  -- an hour later the wave is still there, with the priority of a model and without an end
  have hrun : ((performanceMachine nodder).run
      ⟨⟨.create 0 .default (some nodder.neutralFactory), none, []⟩, []⟩
      [(.perform (waveRequest none (.inl rfl)), some 0)]).map (fun r =>
        (r.performed.all fun p => p.1 = waveRequest none (.inl rfl) &&
            r.run.scheduler.active.values.any fun l => l.cue = p.2 && l.cue.priority = .model &&
              l.expiresAt.isNone,
          r.performed.length, (nodder.resolve nodRequest).toOption.map fun cue =>
            ((outcome (perform (some 3600) (.submit cue)) r.run.scheduler).1.toOption.map
              fun batch => batch.results.map (·.status)))) =
      some (true, 1, some (some [.rejectedPriority])) := by decide +kernel
  obtain ⟨r, hr, hfacts⟩ := Option.map_eq_some_iff.mp hrun
  obtain ⟨hall, hlength, hnod⟩ := Prod.mk.inj hfacts |>.imp_right Prod.mk.inj
  refine ⟨r, Machine.reachable_of_run ⟨_, _, rfl⟩ hr, fun hstuck => ?_, ?_⟩
  · obtain ⟨p, hp⟩ := List.length_eq_one_iff.mp hlength
    rw [hp, List.all_cons, List.all_nil, Bool.and_true, Bool.and_eq_true, List.any_eq_true] at hall
    obtain ⟨hrequest, lease, hl, hlease⟩ := hall
    simp only [Bool.and_eq_true, decide_eq_true_eq, Option.isNone_iff_eq_none] at hrequest hlease
    obtain ⟨⟨hcue, hprio⟩, hnone⟩ := hlease
    have hun := nodder_unperformable none (.inl rfl)
    rw [← hrequest] at hun
    rcases hstuck.leases p (hp ▸ List.mem_singleton_self p) hun lease hl hcue with h | h
    · rw [hnone] at h
      cases h
    · rw [hprio] at h
      cases h
  · rcases hcue : nodder.resolve nodRequest with e | cue
    · rw [hcue] at hnod
      cases hnod
    rw [hcue] at hnod
    rcases hout : outcome (perform (some 3600) (.submit cue)) r.run.scheduler with ⟨e | batch, s⟩
    · simp [Except.toOption, hout] at hnod
    · refine ⟨cue, batch, s, rfl, hout, ?_⟩
      simpa [Except.toOption, hout] using hnod

end Eeveetuber
