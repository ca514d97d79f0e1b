import Eeveetuber.Avatar.SchedulerOperations

/-!
# Runs of the scheduler

A step of `Eeveetuber.schedulerMachine` is an operation with one reading of the
clock. `Eeveetuber.schedulerMachine_next` takes it apart: a reading that is not
finite, or an operation that does not come to read the clock, changes nothing
and returns nothing; otherwise the step is a sequence of effects at a time that
is not before the last reading.

Neutral factories are trusted to some extent, and how far is said here:
`Eeveetuber.ValidNeutrals` and `Eeveetuber.DistinctNeutrals` are properties of a
factory, `Eeveetuber.Unclaimed` of an id that submitted cues may use.
-/

namespace Eeveetuber

open Foundation Foundation.Stateful PresentationScheduler

/-! ### Neutral factories -/

/-- The factory always answers a neutral cue for the layer and generation it is asked for. -/
def ValidNeutrals (factory : NeutralFactory) : Prop :=
  ∀ n layer generation t, ∃ cue, factory n layer generation t = .ok cue ∧ cue.layer = layer ∧
    cue.generation = generation ∧ cue.neutral = true

/-- Cues for different layers of one generation have different ids. -/
def DistinctNeutrals (factory : NeutralFactory) : Prop :=
  ∀ n n' layer layer' generation t t' cue cue', factory n layer generation t = .ok cue →
    factory n' layer' generation t' = .ok cue' → layer ≠ layer' → cue.cueId ≠ cue'.cueId

/-- No neutral cue has this id. -/
def Unclaimed (factory : NeutralFactory) (cueId : Text) : Prop :=
  ∀ n layer generation t cue, factory n layer generation t = .ok cue → cue.cueId ≠ cueId

/-- The ids of submitted cues are not those of neutral cues. -/
def SubmitsUnclaimed (d : SchedulerRun) (l : SchedulerOperation × Clock) : Prop :=
  ∀ cue, l.1 = .submit cue → ∀ factory ∈ d.scheduler.neutralFactory,
    Unclaimed factory cue.cueId

/-! ### The fields no effect changes -/

namespace PresentationScheduler

section Constant

variable {op : SchedulerOperation} {now : ℚ} {s t : PresentationScheduler}

theorem launched_frame {α : Type} (f : PresentationScheduler → α)
    (hended : ∀ u reason replacedBy needs lease, f (u.ended now reason replacedBy needs lease) =
      f u)
    (hbegun : ∀ u lease, f (u.begun lease now) = f u)
    (hcharged : ∀ u cue, f (u.charged cue now) = f u) (cue : PresentationCue) :
    f (s.launched cue now) = f s := by
  have hpre : f (s.preempted cue now) = f s := endedAll_frame f fun _ _ _ => hended _ _ _ _ _
  rw [launched]
  split
  · rw [hcharged, hbegun, hpre]
  · rw [hbegun, hpre]

theorem Effect.neutralFactory_eq (h : Effect op now s t) :
    t.neutralFactory = s.neutralFactory := by
  rcases h with _ | _ | _ | _ | _ | _ | _ | _ | _ | _ | _ | _ | _ | _ | _
  case advance | reset | disconnect => exact endedAll_neutralFactory ..
  case start =>
    exact launched_frame (·.neutralFactory) (fun _ _ _ _ _ => rfl) (fun _ _ => rfl)
      (fun _ _ => rfl) _
  all_goals rfl

/-- The number of calls of the neutral factory only grows. -/
theorem Effect.neutralCalls_le (h : Effect op now s t) : s.neutralCalls ≤ t.neutralCalls := by
  rcases h with _ | _ | _ | _ | _ | _ | _ | _ | _ | _ | _ | _ | _ | _ | _
  case advance | reset | disconnect => exact Eq.ge (endedAll_neutralCalls ..)
  case start cue _ _ _ _ _ _ =>
    have h : ((s.popped cue).launched cue now).neutralCalls = (s.popped cue).neutralCalls :=
      launched_frame (·.neutralCalls) (fun _ _ _ _ _ => rfl) (fun _ _ => rfl) (fun _ _ => rfl) _
    exact h.ge
  case restore | call => exact Nat.le_succ _
  all_goals exact le_rfl

theorem Effects.neutralFactory_eq (h : Effects op now s t) :
    t.neutralFactory = s.neutralFactory :=
  h.invariant (I := fun u => u.neutralFactory = s.neutralFactory) rfl
    fun _ _ hu hstep => hstep.neutralFactory_eq.trans hu

end Constant

end PresentationScheduler

/-! ### Steps -/

section Steps

variable {op : SchedulerOperation} {now : ℚ} {clock : Clock} {s : PresentationScheduler}
  {d d' : SchedulerRun}

theorem triple_disconnect_none {reason : StopReason} :
    Triple (fun t => s = t) (disconnect none reason) (fun es t => s = t ∧ es = [])
      fun t => s = t := by
  rw [disconnect]
  refine Triple.read ?_
  split
  · exact Triple.raise fun _ => id
  · split
    · exact Triple.answer fun _ h => ⟨h, rfl⟩
    · exact Triple.fail fun _ => id

/-- Without a reading of the clock, nothing happens. -/
theorem triple_perform_none : Triple (fun t => s = t) (perform none op)
    (fun batch t => s = t ∧ batch.events = []) fun t => s = t := by
  rcases op with cue | marker | _ | generation | ⟨cueId, reason⟩ | _ | reason | _ | _
  · exact fun _ => id
  · rw [perform, notifyAudio]
    refine Triple.read ?_
    split
    · exact Triple.answer fun _ h => ⟨h, rfl⟩
    · exact Triple.fail fun _ => id
  · exact fun _ => id
  · rw [perform, advanceGeneration, bind_assoc]
    refine Triple.read ?_
    split
    · exact Triple.fail fun _ => id
    · split
      · exact Triple.answer fun _ h => ⟨h, rfl⟩
      · exact fun _ => id
  · exact fun _ => id
  · exact fun _ => id
  · exact triple_disconnect_none.bind fun es => Triple.answer fun _ h => h
  · rw [perform, reconnect, bind_assoc]
    refine Triple.read ?_
    split
    · exact Triple.answer fun _ h => ⟨h, rfl⟩
    · exact fun _ => id
  · exact triple_disconnect_none.bind fun es => Triple.answer fun _ h => h

/-- **A step.** -/
theorem schedulerMachine_next (h : schedulerMachine.next d (op, clock) = some d') :
    (clock = none ∧ d'.scheduler = d.scheduler ∧ d'.lastReading = d.lastReading ∧
      (d'.returned = d.returned ∨ d'.returned = d.returned ++ [[]])) ∨
    ∃ now answer, clock = some now ∧ (∀ last ∈ d.lastReading, last ≤ now) ∧
      d'.lastReading = some now ∧ Effects op now d.scheduler d'.scheduler ∧
      outcome (perform (some now) op) d.scheduler = (answer, d'.scheduler) ∧
      ((∃ batch, answer = .ok batch ∧ d'.returned = d.returned ++ [batch.events]) ∨
        ∃ e, answer = .error e ∧ d'.returned = d.returned) := by
  rw [schedulerMachine] at h
  dsimp only at h
  split at h
  · cases h
  rename_i hclock
  rw [Option.some.injEq] at h
  subst h
  rcases clock with _ | now
  -- without a reading of the clock nothing changes
  · left
    rcases hout : outcome (perform none op) d.scheduler with ⟨e | batch, t⟩
    · obtain rfl := triple_perform_none.raised rfl hout
      exact ⟨rfl, rfl, rfl, .inl rfl⟩
    · obtain ⟨rfl, hevents⟩ := triple_perform_none.ok rfl hout
      exact ⟨rfl, rfl, rfl, .inr (by rw [← hevents])⟩
  -- with one, the operation takes its steps
  · right
    refine ⟨now, (outcome (perform (some now) op) d.scheduler).1, rfl, fun last hlast => ?_, rfl,
      ?_, rfl, ?_⟩
    · by_contra hlt
      rw [Option.mem_def.mp hlast] at hclock
      simp [not_le.mp hlt] at hclock
    · exact (triple_perform_steps.post fun _ _ hu => hu.1.1).state rfl
    · rcases outcome (perform (some now) op) d.scheduler with ⟨e | batch, t⟩
      · exact .inr ⟨e, rfl, rfl⟩
      · exact .inl ⟨batch, rfl, rfl⟩

/-- A valid factory does not make a restoration raise. -/
theorem triple_restoreNeutral_valid {factory : NeutralFactory} {layer : PresentationLayer}
    (hvalid : ValidNeutrals factory) :
    Triple (fun _ => True) (restoreNeutral factory now layer) (fun _ _ => True)
      fun _ => False := by
  refine Triple.each fun s _ => ?_
  rw [restoreNeutral]
  refine Triple.read ?_
  split
  · exact Triple.change (Triple.answer fun _ _ => trivial)
  obtain ⟨cue, hcue, hlayer, hgen, hneutral⟩ := hvalid s.neutralCalls layer s.generation now
  refine Triple.bind (Q := fun c _ => c = cue) ?_ fun c => ?_
  · rintro _ rfl
    rw [outcome_callNeutralFactory, hcue]
  split
  · rename_i hinvalid
    refine Triple.raise ?_
    rintro _ rfl
    rcases hinvalid with h | h | h
    · exact h hlayer
    · exact h hgen
    · rw [hneutral] at h
      cases h
  · split
    · exact Triple.answer fun _ _ => trivial
    · exact fun t _ => trivial

theorem triple_restoreNeutrals_valid
    (hvalid : ∀ factory ∈ s.neutralFactory, ValidNeutrals factory) :
    Triple (fun t => s = t) (restoreNeutrals now) (fun _ _ => True) fun _ => False := by
  rw [restoreNeutrals]
  refine Triple.read ?_
  split
  · exact Triple.answer fun _ _ => trivial
  split
  · exact Triple.answer fun _ _ => trivial
  · rename_i factory hfactory
    exact ((Triple.mapM (I := fun _ _ _ => True) (fun _ _ _ =>
      triple_restoreNeutral_valid (hvalid factory hfactory)) _).pre fun _ _ => trivial).bind
      fun _ => Triple.answer fun _ _ => trivial

/-- **A step with a valid factory** returns the events it built. -/
theorem schedulerMachine_next_valid
    (hvalid : ∀ factory ∈ d.scheduler.neutralFactory, ValidNeutrals factory)
    (h : schedulerMachine.next d (op, clock) = some d') :
    (d'.scheduler = d.scheduler ∧
      (d'.returned = d.returned ∨ d'.returned = d.returned ++ [[]])) ∨
    ∃ now es, clock = some now ∧ Steps op now d.scheduler es d'.scheduler ∧
      d'.returned = d.returned ++ [es] := by
  rcases schedulerMachine_next h with ⟨-, hsame, -, hreturned⟩ |
    ⟨now, answer, rfl, -, -, -, hout, hreturned⟩
  · exact .inl ⟨hsame, hreturned⟩
  have htriple := triple_perform op now (s := d.scheduler)
    (I := fun s => ∀ factory ∈ s.neutralFactory, ValidNeutrals factory) (J := fun _ => True)
    (K := fun _ => False) (fun u v hu hstep factory hf => hu factory (hstep.neutralFactory_eq ▸ hf))
    (fun s hs => triple_restoreNeutrals_valid hs) hvalid
  rcases hreturned with ⟨batch, rfl, hreturned⟩ | ⟨e, rfl, hreturned⟩
  · exact .inr ⟨now, batch.events, rfl, (htriple.ok rfl hout).1, hreturned⟩
  · obtain ⟨-, ⟨-, hsame⟩ | hfalse⟩ := htriple.raised rfl hout
    · exact .inl ⟨hsame.symm, .inl hreturned⟩
    · exact hfalse.elim

/-- The factory is fixed. -/
theorem schedulerMachine_neutralFactory {l : SchedulerOperation × Clock}
    (h : schedulerMachine.next d l = some d') :
    d'.scheduler.neutralFactory = d.scheduler.neutralFactory := by
  obtain ⟨op, clock⟩ := l
  rcases schedulerMachine_next h with
    ⟨-, hsame, -⟩ | ⟨now, -, -, -, -, heffects, -⟩
  · rw [hsame]
  · exact heffects.neutralFactory_eq

/-- **Invariants of the scheduler.** What holds of a new scheduler and every
effect of an operation preserves holds in every run. -/
theorem scheduler_invariant {I : PresentationScheduler → Prop}
    {ok : SchedulerRun → SchedulerOperation × Clock → Prop}
    (h : schedulerMachine.ReachableBy ok d)
    (hcreate : ∀ generation policy neutralFactory, I (.create generation policy neutralFactory))
    (heffect : ∀ d op now s t, ok d (op, some now) → Effects op now d.scheduler s → I s →
      Effect op now s t → I t) : I d.scheduler := by
  refine h.invariant (I := fun d => I d.scheduler) ?_ ?_
  · rintro d ⟨generation, policy, neutralFactory, rfl⟩
    exact hcreate generation policy neutralFactory
  · rintro d ⟨op, clock⟩ d' - hd hok hnext
    rcases schedulerMachine_next hnext with ⟨-, hsame, -⟩ | ⟨now, -, rfl, -, -, heffects, -⟩
    · rwa [hsame]
    · have hboth := heffects.invariant (I := fun s => Effects op now d.scheduler s ∧ I s)
        ⟨.refl, hd⟩ fun s t hs hst => ⟨hs.1.tail hst, heffect d op now s t hok hs.1 hs.2 hst⟩
      exact hboth.2

end Steps

/-! ### Some values -/

/-- A cue that asks for nothing in particular. -/
def plainCue (cueId : Text) (layer : PresentationLayer) (generation : ℕ) (requestedAt : ℚ)
    (hcueId : IsIdentifier cueId) : PresentationCue where
  cueId := cueId
  generation := generation
  layer := layer
  semanticKey := layer.neutralKey
  adapterAction := none
  intensity := 0
  priority := .reactiveIdle
  requestedAt := requestedAt
  notAfter := none
  leaseS := none
  neutral := true
  limitsExempt := true
  valid := by
    rw [PresentationCueFields.postInit_eq_ok]
    exact ⟨hcueId, isIdentifier_neutralKey layer, isPrefixOf_neutralKey layer, by simp,
      ⟨le_rfl, zero_le_one⟩, by simp, by simp, le_rfl, by simp, by simp, by simp⟩

/-- A neutral factory that has an id for each layer. -/
def layerNeutrals : NeutralFactory := fun _ layer generation t =>
  .ok (plainCue layer.value layer generation t (by cases layer <;> decide))

/-- A neutral factory that has one id for all layers. -/
def constantNeutrals : NeutralFactory := fun _ layer generation t =>
  .ok (plainCue "neutral".toList layer generation t (by decide))

theorem validNeutrals_layerNeutrals : ValidNeutrals layerNeutrals :=
  fun _ _ _ _ => ⟨_, rfl, rfl, rfl, rfl⟩

theorem validNeutrals_constantNeutrals : ValidNeutrals constantNeutrals :=
  fun _ _ _ _ => ⟨_, rfl, rfl, rfl, rfl⟩

theorem distinctNeutrals_layerNeutrals : DistinctNeutrals layerNeutrals := by
  rintro _ _ layer layer' _ _ _ _ _ ⟨⟩ ⟨⟩ hne hid
  exact hne (PresentationLayer.value_injective hid)

theorem unclaimed_layerNeutrals {cueId : Text}
    (h : ∀ layer : PresentationLayer, layer.value ≠ cueId) : Unclaimed layerNeutrals cueId := by
  rintro _ layer _ _ _ ⟨⟩
  exact h layer

theorem unclaimed_constantNeutrals {cueId : Text} (h : "neutral".toList ≠ cueId) :
    Unclaimed constantNeutrals cueId := by
  rintro _ _ _ _ _ ⟨⟩
  exact h

/-- A cue that holds both hands for two seconds. -/
def wave : PresentationCue where
  cueId := "wave".toList
  generation := 0
  layer := .gesture
  semanticKey := "gesture.wave".toList
  adapterAction := some "wave".toList
  intensity := 1
  priority := .model
  requestedAt := 0
  notAfter := some 2
  leaseS := some 2
  resources := {"hands".toList}
  valid := by rw [PresentationCueFields.postInit_eq_ok]; decide +kernel

/-- A posture of higher priority that needs the hands too. -/
def lean : PresentationCue where
  cueId := "lean".toList
  generation := 0
  layer := .posture
  semanticKey := "posture.lean_forward".toList
  adapterAction := some "lean".toList
  intensity := 1
  priority := .scriptedShow
  requestedAt := 0
  notAfter := some 2
  leaseS := some 1
  resources := {"hands".toList}
  valid := by rw [PresentationCueFields.postInit_eq_ok]; decide +kernel

/-- A smile that stays. -/
def smile : PresentationCue where
  cueId := "smile".toList
  generation := 0
  layer := .affect
  semanticKey := "affect.smile".toList
  adapterAction := some "smile".toList
  intensity := 1
  priority := .model
  requestedAt := 0
  notAfter := none
  leaseS := none
  resources := ∅
  valid := by rw [PresentationCueFields.postInit_eq_ok]; decide +kernel

/-- The cues that are submitted. -/
def submittedCues (labels : List (SchedulerOperation × Clock)) : List PresentationCue :=
  labels.filterMap fun l => match l.1 with
    | .submit cue => some cue
    | _ => none

/-- A replay on a new scheduler whose submitted ids are not those of neutral cues,
and whose labels meet a condition. -/
theorem submitsUnclaimed_run_of {generation : ℕ} {policy : SchedulerPolicy}
    {neutralFactory : Option NeutralFactory} {labels : List (SchedulerOperation × Clock)}
    {d : SchedulerRun} {p : SchedulerOperation × Clock → Prop} (hp : ∀ l ∈ labels, p l)
    (hids : ∀ factory ∈ neutralFactory, ∀ cue ∈ submittedCues labels,
      Unclaimed factory cue.cueId)
    (h : schedulerMachine.run ⟨.create generation policy neutralFactory, none, []⟩ labels =
      some d) :
    schedulerMachine.ReachableBy (fun d l => SubmitsUnclaimed d l ∧ p l) d := by
  refine Machine.reachableBy_of_labels (I := fun d => d.scheduler.neutralFactory = neutralFactory)
    (fun _ _ _ hd hnext => (schedulerMachine_neutralFactory hnext).trans hd)
    (fun d l hd hl => ⟨fun cue hcue factory hf => ?_, hp l hl⟩)
    (.start ⟨generation, policy, neutralFactory, rfl⟩) rfl h
  rw [hd] at hf
  exact hids factory hf cue (List.mem_filterMap.mpr ⟨l, hl, by rw [hcue]⟩)

theorem submitsUnclaimed_run {generation : ℕ} {policy : SchedulerPolicy}
    {neutralFactory : Option NeutralFactory} {labels : List (SchedulerOperation × Clock)}
    {d : SchedulerRun}
    (hids : ∀ factory ∈ neutralFactory, ∀ cue ∈ submittedCues labels,
      Unclaimed factory cue.cueId)
    (h : schedulerMachine.run ⟨.create generation policy neutralFactory, none, []⟩ labels =
      some d) :
    schedulerMachine.ReachableBy SubmitsUnclaimed d ∧
      d.scheduler.neutralFactory = neutralFactory :=
  ⟨(submitsUnclaimed_run_of (p := fun _ => True) (fun _ _ => trivial) hids h).mono
      fun _ _ hok => hok.1,
    (Machine.leads_of_run h).invariant
      (I := fun d => d.scheduler.neutralFactory = neutralFactory) rfl
      fun _ _ _ hd hnext => (schedulerMachine_neutralFactory hnext).trans hd⟩

/-- A replay with a neutral cue for each layer. -/
theorem layerNeutrals_run {policy : SchedulerPolicy}
    {labels : List (SchedulerOperation × Clock)} {d : SchedulerRun}
    {p : SchedulerOperation × Clock → Prop} (hp : ∀ l ∈ labels, p l)
    (hids : ∀ cue ∈ submittedCues labels, ∀ layer : PresentationLayer, layer.value ≠ cue.cueId)
    (h : schedulerMachine.run ⟨.create 0 policy (some layerNeutrals), none, []⟩ labels = some d) :
    schedulerMachine.ReachableBy (fun d l => SubmitsUnclaimed d l ∧ p l) d ∧
      d.scheduler.neutralFactory = some layerNeutrals ∧
      ∀ factory ∈ d.scheduler.neutralFactory, ValidNeutrals factory ∧ DistinctNeutrals factory := by
  have hids' : ∀ factory ∈ some layerNeutrals, ∀ cue ∈ submittedCues labels,
      Unclaimed factory cue.cueId := by
    intro factory hf cue hcue
    obtain rfl : layerNeutrals = factory := Option.some.inj hf
    exact unclaimed_layerNeutrals (hids cue hcue)
  obtain ⟨-, hfactory⟩ := submitsUnclaimed_run hids' h
  refine ⟨submitsUnclaimed_run_of hp hids' h, hfactory, fun factory hf => ?_⟩
  rw [hfactory] at hf
  obtain rfl : layerNeutrals = factory := Option.some.inj hf
  exact ⟨validNeutrals_layerNeutrals, distinctNeutrals_layerNeutrals⟩

/-- A replay with one neutral id for all layers. -/
theorem constantNeutrals_run {policy : SchedulerPolicy}
    {labels : List (SchedulerOperation × Clock)} {d : SchedulerRun}
    {p : SchedulerOperation × Clock → Prop} (hp : ∀ l ∈ labels, p l)
    (hids : ∀ cue ∈ submittedCues labels, "neutral".toList ≠ cue.cueId)
    (h : schedulerMachine.run ⟨.create 0 policy (some constantNeutrals), none, []⟩ labels =
      some d) :
    schedulerMachine.ReachableBy (fun d l => SubmitsUnclaimed d l ∧ p l) d ∧
      ∀ factory ∈ d.scheduler.neutralFactory, ValidNeutrals factory := by
  have hids' : ∀ factory ∈ some constantNeutrals, ∀ cue ∈ submittedCues labels,
      Unclaimed factory cue.cueId := by
    intro factory hf cue hcue
    obtain rfl : constantNeutrals = factory := Option.some.inj hf
    exact unclaimed_constantNeutrals (hids cue hcue)
  refine ⟨submitsUnclaimed_run_of hp hids' h, fun factory hf => ?_⟩
  rw [(submitsUnclaimed_run hids' h).2] at hf
  obtain rfl : constantNeutrals = factory := Option.some.inj hf
  exact validNeutrals_constantNeutrals

end Eeveetuber
