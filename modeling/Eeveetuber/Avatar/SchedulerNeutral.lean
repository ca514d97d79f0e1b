import Eeveetuber.Avatar.SchedulerLeases

/-!
# Neutral recovery

A layer that has lost its cue must not stay as it is: either another cue is
presented on it, or its neutral cue is put back, or the neutral cue does not fit
beside a lease of another layer, and then the scheduler tries again whenever it
reads the clock. The proof has two halves.

* **No layer is forgotten.** `Eeveetuber.PresentationScheduler.Remembered` says
  that a layer is in the index of active cues or recorded as needing neutral.
  While the renderer is connected, every effect keeps a layer remembered and
  records those whose cues it stops; the one stop that does not record its layer
  is a preemption on the layer of the cue that starts.
* **No recorded layer is skipped.** A restoration asks for each recorded layer
  once, and what it asks for either starts or is in conflict with a lease that
  is still active at the end (`Eeveetuber.PresentationScheduler.Held`): leases
  are only added, under ids that are not active, so none is replaced.
-/

namespace Eeveetuber

open Foundation Foundation.Stateful PresentationScheduler

namespace PresentationScheduler

variable {op : SchedulerOperation} {now : ℚ} {s t : PresentationScheduler} {lease : ActiveLease}
  {leases : List ActiveLease} {cue : PresentationCue} {layer : PresentationLayer}
  {reason : StopReason} {replacedBy : Option Text} {needs : Bool} {needsOf : ActiveLease → Bool}
  {L : Prop}

/-! ### No layer is forgotten -/

/-- A layer has lost a cue: one of its cues was stopped, or all of them were by
a reset or before a reconnection. -/
def LostCue (s : PresentationScheduler) (layer : PresentationLayer) : Prop :=
  s.recovered = true ∨ ∃ e ∈ s.journal, e.kind = .stopped ∧ e.cue.layer = layer

/-- A layer has a cue or is recorded as needing neutral. -/
def Remembered (s : PresentationScheduler) (layer : PresentationLayer) : Prop :=
  (s.activeByLayer layer).isSome = true ∨ layer ∈ s.needsNeutral

/-- A layer that has lost a cue, or did so before as `L` says, is remembered. -/
def Tended (L : Prop) (s : PresentationScheduler) (layer : PresentationLayer) : Prop :=
  L ∨ s.LostCue layer → s.Remembered layer

theorem Remembered.tended (h : s.Remembered layer) : s.Tended L layer := fun _ => h

/-- The parts of a scheduler that say whether a layer is tended. -/
theorem Tended.frame (h : s.Tended L layer) (hidx : t.activeByLayer = s.activeByLayer)
    (hneeds : t.needsNeutral = s.needsNeutral) (hjournal : t.journal = s.journal)
    (hrecovered : t.recovered = s.recovered) : t.Tended L layer := by
  rwa [Tended, LostCue, Remembered, hidx, hneeds, hjournal, hrecovered]

theorem lostCue_ended : (s.ended now reason replacedBy needs lease).LostCue layer ↔
    s.LostCue layer ∨ lease.cue.layer = layer := by
  simp [LostCue, ended, or_and_right, exists_or, or_assoc]

theorem lostCue_begun : (s.begun lease now).LostCue layer ↔ s.LostCue layer := by
  simp [LostCue, begun, or_and_right, exists_or]

theorem remembered_ended (hl : lease.cue.layer = layer) :
    (s.ended now reason replacedBy true lease).Remembered layer := by
  right
  rw [ended, if_pos rfl, ← hl]
  exact Finset.mem_insert_self _ _

/-- Ending a lease on another layer, or recording its layer. -/
theorem Tended.ended (h : s.Tended L layer) (hneeds : lease.cue.layer = layer → needs = true) :
    (s.ended now reason replacedBy needs lease).Tended L layer := by
  by_cases hl : lease.cue.layer = layer
  · rw [hneeds hl]
    exact (remembered_ended hl).tended
  · intro hlost
    rw [lostCue_ended, or_iff_left hl] at hlost
    refine (h hlost).imp (fun hidx => ?_) fun hmem => ?_
    · rw [PresentationScheduler.ended]
      dsimp only
      split
      · rwa [Function.update_of_ne (Ne.symm hl)]
      · exact hidx
    · rw [PresentationScheduler.ended]
      dsimp only
      split
      · exact Finset.mem_insert_of_mem hmem
      · exact hmem

/-- Ending several leases likewise. -/
theorem Tended.endedAll (h : s.Tended L layer)
    (hneeds : ∀ lease ∈ leases, lease.cue.layer = layer → needsOf lease = true) :
    (s.endedAll now reason replacedBy needsOf leases).Tended L layer := by
  induction leases generalizing s with
  | nil => exact h
  | cons lease rest ih =>
    rw [endedAll_cons]
    exact ih (h.ended (hneeds lease List.mem_cons_self))
      fun l hl => hneeds l (List.mem_cons_of_mem _ hl)

theorem begun_activeByLayer : (s.begun lease now).activeByLayer =
    Function.update s.activeByLayer lease.cue.layer (some lease.cue.cueId) := rfl

theorem remembered_begun : (s.begun lease now).Remembered lease.cue.layer := by
  left
  rw [begun_activeByLayer, Function.update_self]
  rfl

theorem Tended.begun (h : s.Tended L layer) : (s.begun lease now).Tended L layer := by
  by_cases hl : layer = lease.cue.layer
  · rw [hl]
    exact remembered_begun.tended
  · intro hlost
    rw [lostCue_begun] at hlost
    refine (h hlost).imp (fun hidx => ?_) fun hmem => Finset.mem_erase.mpr ⟨hl, hmem⟩
    rwa [begun_activeByLayer, Function.update_of_ne hl]

/-- The layer of the cue that starts is the one that need not be recorded. -/
theorem Tended.launched (h : s.Tended L layer) : (s.launched cue now).Tended L layer := by
  have hbegun : ((s.preempted cue now).begun (.grant cue now) now).Tended L layer := by
    by_cases hl : cue.layer = layer
    · subst hl
      exact Remembered.tended remembered_begun
    · refine Tended.begun (h.endedAll fun lease _ hlease => ?_)
      exact decide_eq_true fun hsame => hl (hsame.symm.trans hlease)
  rw [PresentationScheduler.launched]
  split
  · exact hbegun.frame rfl rfl rfl rfl
  · exact hbegun

/-- **Every effect keeps a layer tended** that was so, unless it disconnects. -/
theorem Effect.tended (h : Effect op now s t) (hconn : t.connected = true)
    (hs : s.connected = true → s.Tended L layer) : t.Tended L layer := by
  rcases h with
    _ | _ | _ | _ | _ | _ | ⟨-, -, -, hc, -, -⟩ | ⟨-, hc, -⟩ | _ | hl | _ | _ | _ | _ | _
  case expire | cancel => exact (hs hconn).ended fun _ => rfl
  case advance =>
    have hc : s.connected = true := by rwa [advanced, endedAll_connected] at hconn
    exact Tended.endedAll ((hs hc).frame rfl rfl rfl rfl) fun _ _ _ => rfl
  case reset => exact Remembered.tended (.inr (Finset.mem_univ _))
  case disconnect =>
    rw [dropped, endedAll_connected] at hconn
    cases hconn
  case reconnect => exact Remembered.tended (.inr (Finset.mem_univ _))
  case start => exact Tended.launched ((hs hc).frame rfl rfl rfl rfl)
  case restore => exact Tended.begun ((hs hc).frame rfl rfl rfl rfl)
  case settle l =>
    intro hlost
    by_cases hsame : layer = l
    · subst hsame
      exact .inl hl
    · exact (hs hconn hlost).imp_right fun hmem => Finset.mem_erase.mpr ⟨hsame, hmem⟩
  all_goals exact (hs hconn).frame rfl rfl rfl rfl

theorem Effects.tended (h : Effects op now s t) (hconn : t.connected = true)
    (hs : s.connected = true → s.Tended L layer) : t.Tended L layer :=
  h.invariant (I := fun u => u.connected = true → u.Tended L layer) hs
    (fun _ _ hu hstep hc => hstep.tended hc hu) hconn

/-! ### No recorded layer is skipped -/

/-- The neutral cue that was last asked for a layer, by one of the calls from `n₀`
on, is in conflict with an active lease. -/
def Held (n₀ : ℕ) (s : PresentationScheduler) (layer : PresentationLayer) : Prop :=
  ∃ n cue factory time, s.lastNeutral layer = some (n, cue) ∧ n₀ ≤ n ∧
    s.neutralFactory = some factory ∧ factory n layer s.generation time = .ok cue ∧
    ∃ lease ∈ s.active, lease.cue.Conflicts cue

theorem Held.earlier {n₀ n₁ : ℕ} (h : s.Held n₁ layer) (hle : n₀ ≤ n₁) : s.Held n₀ layer := by
  obtain ⟨n, cue, factory, time, hlast, hn, hrest⟩ := h
  exact ⟨n, cue, factory, time, hlast, hle.trans hn, hrest⟩

/-- A layer stays held while nothing stops and it is not asked for. -/
theorem Held.frame {n₀ : ℕ} (h : s.Held n₀ layer)
    (hlast : t.lastNeutral layer = s.lastNeutral layer)
    (hfactory : t.neutralFactory = s.neutralFactory) (hgen : t.generation = s.generation)
    (hactive : ∀ lease ∈ s.active, lease ∈ t.active) : t.Held n₀ layer := by
  obtain ⟨n, cue, factory, time, hs, hn, hf, hcue, lease, hl, hconf⟩ := h
  exact ⟨n, cue, factory, time, hlast.trans hs, hn, hfactory.trans hf, by rwa [hgen], lease,
    hactive lease hl, hconf⟩

/-- The layers that need neutral but are held, or still to come in the restoration. -/
def Waiting (n₀ : ℕ) (rest : List PresentationLayer) (s : PresentationScheduler) : Prop :=
  ∀ layer ∈ s.needsNeutral, layer ∈ rest ∨ s.Held n₀ layer

/-- A scheduler whose neutral cues are valid and new wherever a layer is free. -/
structure Supplied (factory : NeutralFactory) (n₀ : ℕ) (s : PresentationScheduler) : Prop where
  neutralFactory : s.neutralFactory = some factory
  exclusive : s.Exclusive
  known : s.Known
  calls : n₀ ≤ s.neutralCalls

section Restoring

variable {factory : NeutralFactory} {n₀ : ℕ}

/-- One layer's turn. -/
theorem triple_restoreNeutral_waiting (hvalid : ValidNeutrals factory)
    (hdistinct : DistinctNeutrals factory) (hs : s.Supplied factory n₀)
    {rest : List PresentationLayer} (hwait : s.Waiting n₀ (layer :: rest)) :
    Triple (fun t => s = t) (restoreNeutral factory now layer) (fun _ t => t.Waiting n₀ rest)
      fun _ => False := by
  have hrest : ∀ l ∈ s.needsNeutral, l ≠ layer → l ∈ rest ∨ s.Held n₀ l := fun l hl hne =>
    (hwait l hl).imp_left fun hmem => (List.mem_cons.mp hmem).resolve_left hne
  rw [restoreNeutral]
  refine Triple.read ?_
  split
  · refine Triple.change (Triple.answer ?_)
    rintro _ rfl l hl
    obtain ⟨hne, hl⟩ := Finset.mem_erase.mp hl
    exact (hrest l hl hne).imp_right fun hheld => hheld.frame rfl rfl rfl fun _ => id
  rename_i hlayer
  have hfree : s.activeByLayer layer = none := by simpa using hlayer
  obtain ⟨cue, hcue, hcl, hcg, hcn⟩ := hvalid s.neutralCalls layer s.generation now
  refine Triple.bind (Q := fun c t => c = cue ∧ s.asked layer (.ok cue) = t) ?_ fun c =>
    Triple.each ?_
  · rintro _ rfl
    rw [outcome_callNeutralFactory, hcue]
    exact ⟨rfl, rfl⟩
  rintro _ ⟨rfl, rfl⟩
  rw [if_neg (by simp [hcl, hcg, hcn])]
  have hother : ∀ l ≠ layer, (s.asked layer (.ok c)).lastNeutral l = s.lastNeutral l :=
    fun l hne => Function.update_of_ne hne _ _
  split
  · rename_i hconf
    refine Triple.answer ?_
    rintro _ rfl l hl
    by_cases hne : l = layer
    · subst hne
      obtain ⟨lease, hlease⟩ := List.exists_mem_of_ne_nil _ hconf
      obtain ⟨hact, hcf⟩ := mem_conflictingLeases.mp hlease
      exact .inr ⟨_, c, factory, now, Function.update_self _ _ _, hs.calls, hs.neutralFactory, hcue,
        lease, hact, hcf⟩
    · exact (hrest l hl hne).imp_right fun hheld => hheld.frame (hother l hne) rfl rfl fun _ => id
  · -- the id of the new cue is free, so every lease stays
    subst hcl
    obtain ⟨hnew, -⟩ := hs.known.fresh hs.exclusive hs.neutralFactory hdistinct hcue hfree
    rintro _ rfl
    rw [outcome_bind_of_ok outcome_beginLease, outcome_pure]
    intro l hl
    obtain ⟨hne, hl⟩ := Finset.mem_erase.mp hl
    exact (hrest l hl hne).imp_right fun hheld => hheld.frame (hother l hne) rfl rfl fun a ha =>
      Keyed.mem_insert.mpr (.inr ⟨ha, hnew a ha⟩)

/-- Connected, and every layer that needs neutral is held. -/
def Mended (n₀ : ℕ) (s : PresentationScheduler) : Prop :=
  s.connected = true → s.Waiting n₀ []

theorem supplied_stable (hdistinct : DistinctNeutrals factory)
    (hsubmit : ∀ cue, op = .submit cue → Unclaimed factory cue.cueId) :
    Stable op now fun s => s.Supplied factory n₀ := by
  intro u v hu hstep
  have heq : ∀ f ∈ u.neutralFactory, f = factory := fun f hf =>
    Option.some.inj (hf.symm.trans hu.neutralFactory)
  exact {
    neutralFactory := hstep.neutralFactory_eq.trans hu.neutralFactory
    exclusive := hstep.exclusive hu.exclusive hu.known fun f hf => by rwa [heq f hf]
    known := hstep.known hu.known fun cue hop f hf => by rw [heq f hf]; exact hsubmit cue hop
    calls := hu.calls.trans hstep.neutralCalls_le }

/-- **A restoration** leaves every layer that still needs neutral held. -/
theorem supplied_recovers (hvalid : ValidNeutrals factory) (hdistinct : DistinctNeutrals factory) :
    Recovers now (fun s => s.Supplied factory n₀) (Mended n₀) fun _ => False := by
  intro s hs
  rw [restoreNeutrals]
  refine Triple.read ?_
  split
  · rename_i hconn
    refine Triple.answer ?_
    rintro _ rfl hc
    rw [hc] at hconn
    cases hconn
  split
  · rename_i hnone
    rw [hs.neutralFactory] at hnone
    cases hnone
  · rename_i hconn _ f hf
    obtain rfl : factory = f := Option.some.inj (hs.neutralFactory.symm.trans hf)
    have hstable : Stable .tick now fun s => s.Supplied factory n₀ :=
      supplied_stable hdistinct fun _ h => by cases h
    have hloop := Triple.mapM (E := fun _ => False) (g := restoreNeutral factory now)
      (I := fun rest _ t => t.Supplied factory n₀ ∧ t.connected = true ∧ t.Waiting n₀ rest)
      (fun layer rest _ => Triple.each fun t h => by
        obtain ⟨ht, hc, hwait⟩ := h
        exact ((triple_restoreNeutral .tick ht.neutralFactory hc).and
          (triple_restoreNeutral_waiting hvalid hdistinct ht hwait)).weaken (fun _ => id)
          (fun _ u hu => ⟨hstable.effects ht hu.1.1.1, hu.1.2.2, hu.2⟩) fun _ hu => hu.2)
      (PresentationLayer.inOrder s.needsNeutral)
    refine (hloop.pre ?_).bind fun answers => Triple.answer fun t ht _ => ht.2.2
    rintro _ rfl
    exact ⟨hs, by simpa using hconn, fun layer hl =>
      .inl (PresentationLayer.mem_inOrder.mpr hl)⟩

/-- A layer has an active lease, or it is recorded as needing neutral and its neutral
cue, asked for by one of the calls from `n₀` on, is in conflict on some resource
with an active lease of another layer. -/
def Attended (n₀ : ℕ) (s : PresentationScheduler) (layer : PresentationLayer) : Prop :=
  (∃ lease ∈ s.active, lease.cue.layer = layer) ∨
    layer ∈ s.needsNeutral ∧ ∃ n cue factory time, s.lastNeutral layer = some (n, cue) ∧ n₀ ≤ n ∧
      s.neutralFactory = some factory ∧ factory n layer s.generation time = .ok cue ∧
      ∃ lease ∈ s.active, lease.cue.layer ≠ layer ∧
        (lease.cue.resources ∩ cue.resources).Nonempty

/-- A layer that is remembered is attended once every recorded layer is held. -/
theorem Remembered.attended (h : s.Remembered layer) (hidx : s.Indexed)
    (hvalid : ∀ factory ∈ s.neutralFactory, ValidNeutrals factory) (hwait : s.Waiting n₀ []) :
    s.Attended n₀ layer := by
  rcases hactive : s.activeByLayer layer with _ | cueId
  · rw [Remembered, hactive] at h
    have hneeds : layer ∈ s.needsNeutral := h.resolve_left (by simp)
    obtain ⟨n, cue, factory, time, hlast, hn, hf, hcue, lease, hl, hconf⟩ :=
      (hwait layer hneeds).resolve_left List.not_mem_nil
    obtain ⟨_, hcue', hlayer, -⟩ := hvalid factory hf n layer s.generation time
    obtain rfl := Except.ok.inj (hcue.symm.trans hcue')
    have hother : lease.cue.layer ≠ layer := hidx.eq_none.mp hactive lease hl
    refine .inr ⟨hneeds, n, cue, factory, time, hlast, hn, hf, hcue, lease, hl, hother, ?_⟩
    exact hconf.resolve_left fun hsame => hother (hsame.trans hlayer)
  · obtain ⟨lease, hl, -, hlayer⟩ := (hidx _ _).mp hactive
    exact .inl ⟨lease, hl, hlayer⟩

end Restoring

end PresentationScheduler

/-! ### In every run -/

section Runs

variable {op : SchedulerOperation} {clock : Clock} {d d' : SchedulerRun} {factory : NeutralFactory}
  {n₀ : ℕ}

/-- A step that reads the clock leaves every layer that still needs neutral held. -/
theorem mended_next (hs : d.scheduler.Supplied factory n₀) (hvalid : ValidNeutrals factory)
    (hdistinct : DistinctNeutrals factory) (hsubmit : SubmitsUnclaimed d (op, clock))
    (hnext : schedulerMachine.next d (op, clock) = some d') :
    (d'.scheduler = d.scheduler ∧ (clock = none ∨ op.readsClock d.scheduler = false)) ∨
      d'.scheduler.Mended n₀ := by
  have hunclaimed : ∀ cue, op = .submit cue → Unclaimed factory cue.cueId :=
    fun cue hop => hsubmit cue hop factory hs.neutralFactory
  rcases schedulerMachine_next hnext with ⟨hclock, hsame, -⟩ | ⟨now, answer, rfl, -, -, -, hout, -⟩
  · exact .inl ⟨hsame, .inl hclock⟩
  have htriple := triple_perform op now
    (supplied_stable hdistinct hunclaimed) (supplied_recovers hvalid hdistinct) hs
  rcases answer with e | batch
  · obtain ⟨-, ⟨hreads, hsame⟩ | hfalse⟩ := htriple.raised rfl hout
    · exact .inl ⟨hsame.symm, .inr hreads⟩
    · exact hfalse.elim
  · obtain ⟨-, -, hleaves⟩ := htriple.ok rfl hout
    rw [Leaves] at hleaves
    split at hleaves
    · rcases hleaves with hoff | hmended
      · exact .inr fun hc => by rw [hoff] at hc; cases hc
      · exact .inr hmended
    · rename_i hreads
      exact .inl ⟨hleaves.symm, .inr (by simpa using hreads)⟩

/-- The factory of a run is fixed, so a run with a given factory supplies it. -/
theorem supplied_of_reachable (h : schedulerMachine.ReachableBy SubmitsUnclaimed d)
    (hfactory : d.scheduler.neutralFactory = some factory) (hdistinct : DistinctNeutrals factory) :
    d.scheduler.Supplied factory d.scheduler.neutralCalls := by
  obtain ⟨hexcl, hknown⟩ := exclusive_known h fun f hf => by
    rwa [← Option.some.inj (hfactory.symm.trans hf)]
  exact ⟨hfactory, hexcl, hknown, le_rfl⟩

/-- Between two operations, every layer that needs neutral is held, and every
layer that has lost a cue remembered. -/
theorem mended_of_reachable (h : schedulerMachine.ReachableBy SubmitsUnclaimed d)
    (hfactory : d.scheduler.neutralFactory = some factory) (hvalid : ValidNeutrals factory)
    (hdistinct : DistinctNeutrals factory) :
    d.scheduler.Mended 0 ∧ (d.scheduler.connected = true →
      ∀ layer, d.scheduler.Tended False layer) := by
  have hmended := h.invariant (I := fun d => schedulerMachine.ReachableBy SubmitsUnclaimed d ∧
    (d.scheduler.neutralFactory = some factory → d.scheduler.Mended 0)) ?_ ?_
  · refine ⟨hmended.2 hfactory, ?_⟩
    refine scheduler_invariant h (I := fun s => s.connected = true → ∀ layer, s.Tended False layer)
      ?_ ?_
    · rintro generation policy neutralFactory - layer (hfalse | hlost | ⟨e, he, -⟩)
      · exact hfalse.elim
      · cases hlost
      · exact absurd he List.not_mem_nil
    · intro d op now s t _ _ hs hstep hconn layer
      exact hstep.tended hconn fun hc => hs hc layer
  · rintro d ⟨generation, policy, neutralFactory, rfl⟩
    refine ⟨.start ⟨generation, policy, neutralFactory, rfl⟩, fun _ _ layer hl => ?_⟩
    exact absurd hl (Finset.notMem_empty layer)
  · rintro d ⟨op, clock⟩ d' - ⟨hd, hmended⟩ hok hnext
    refine ⟨hd.step hok hnext, fun hf => ?_⟩
    rw [schedulerMachine_neutralFactory hnext] at hf
    have hs := supplied_of_reachable hd hf hdistinct
    rcases mended_next hs hvalid hdistinct hok hnext with ⟨hsame, -⟩ | hnew
    · rw [hsame]
      exact hmended hf
    · exact fun hc layer hl => (hnew hc layer hl).imp_right fun hheld =>
        hheld.earlier (Nat.zero_le _)

end Runs

/-- What becomes of a layer that has lost its cue. -/
structure RecoversNeutral (d : SchedulerRun) : Prop where
  /-- It has a lease, or waits for one of another layer to end. -/
  attended : ∀ layer, d.scheduler.LostCue layer → d.scheduler.Attended 0 layer
  /-- Whatever operation reads the clock next asks anew for the neutral cues of
  the layers that wait, as long as the renderer stays connected. -/
  retried : ∀ op now d', SubmitsUnclaimed d (op, some now) →
    schedulerMachine.next d (op, some now) = some d' → op.readsClock d.scheduler = true →
    d'.scheduler.connected = true → ∀ layer ∈ d.scheduler.needsNeutral,
      d'.scheduler.Attended d.scheduler.neutralCalls layer

/-- **Neutral recovery.** In every run with a neutral factory whose cues are valid
and share an id neither across layers nor with submitted cues, after every
operation that leaves the renderer connected. -/
theorem scheduler_recovers (d : SchedulerRun)
    (h : schedulerMachine.ReachableBy SubmitsUnclaimed d) (factory : NeutralFactory)
    (hfactory : d.scheduler.neutralFactory = some factory) (hvalid : ValidNeutrals factory)
    (hdistinct : DistinctNeutrals factory) (hconn : d.scheduler.connected = true) :
    RecoversNeutral d := by
  have hs := supplied_of_reachable h hfactory hdistinct
  obtain ⟨hmended, htended⟩ := mended_of_reachable h hfactory hvalid hdistinct
  refine ⟨fun layer hlost => ?_, fun op now d' hok hnext hreads hconn' layer hneeds => ?_⟩
  · refine (htended hconn layer (.inr hlost)).attended hs.exclusive.indexed (fun f hf => ?_)
      (hmended hconn)
    rwa [← Option.some.inj (hfactory.symm.trans hf)]
  · have hfactory' := (schedulerMachine_neutralFactory hnext).trans hfactory
    have hs' := supplied_of_reachable (h.step hok hnext) hfactory' hdistinct
    have hremembered : d'.scheduler.Remembered layer := by
      rcases schedulerMachine_next hnext with ⟨-, hsame, -⟩ | ⟨_, _, -, -, -, heffects, -⟩
      · rw [hsame]
        exact .inr hneeds
      · exact heffects.tended (L := True) hconn' (fun _ _ => .inr hneeds) (.inl trivial)
    refine hremembered.attended hs'.exclusive.indexed (fun f hf => ?_) ?_
    · rwa [← Option.some.inj (hfactory'.symm.trans hf)]
    · rcases mended_next hs hvalid hdistinct hok hnext with ⟨-, hclock | hnot⟩ | hnew
      · cases hclock
      · rw [hreads] at hnot
        cases hnot
      · exact hnew hconn'

/-- The gesture layer, whose cue is preempted by a posture, recovers. -/
theorem scheduler_recovers_preempting : ∃ d : SchedulerRun,
    d.returned.flatten.map (fun e => (e.kind, e.cue.layer)) =
      [(.started, .gesture), (.stopped, .gesture), (.started, .posture), (.started, .gesture)] ∧
      RecoversNeutral d := by
  have hrun : (schedulerMachine.run ⟨.create 0 .default (some layerNeutrals), none, []⟩
      [(.submit wave, some 0), (.submit lean, some 1)]).map
      (fun d => (d.returned.flatten.map fun e => (e.kind, e.cue.layer), d.scheduler.connected)) =
      some ([(.started, .gesture), (.stopped, .gesture), (.started, .posture),
        (.started, .gesture)], true) := by decide +kernel
  obtain ⟨d, hd, hv⟩ := Option.map_eq_some_iff.mp hrun
  obtain ⟨hreturned, hconn⟩ := Prod.mk.inj hv
  obtain ⟨hreach, hfactory, -⟩ :=
    layerNeutrals_run (p := fun _ => True) (fun _ _ => trivial) (by decide) hd
  replace hreach := hreach.mono fun _ _ => And.left
  exact ⟨d, hreturned,
    scheduler_recovers d hreach layerNeutrals hfactory validNeutrals_layerNeutrals
    distinctNeutrals_layerNeutrals hconn⟩

/-- A factory that answers valid neutral cues, all under one id, leaves the affect
layer without a cue and without a record that it needs one. -/
theorem scheduler_not_recovers : ∃ d : SchedulerRun,
    schedulerMachine.ReachableBy SubmitsUnclaimed d ∧
      (∀ factory ∈ d.scheduler.neutralFactory, ValidNeutrals factory) ∧
      d.scheduler.connected = true ∧ ¬RecoversNeutral d := by
  have hrun : (schedulerMachine.run ⟨.create 0 .default (some constantNeutrals), none, []⟩
      [(.resetToNeutral, some 0)]).map
      (fun d => (d.scheduler.connected, d.scheduler.recovered, d.scheduler.needsNeutral,
        d.scheduler.active.values.map (·.cue.layer))) =
      some (true, true, ∅, [.posture]) := by decide +kernel
  obtain ⟨d, hd, hv⟩ := Option.map_eq_some_iff.mp hrun
  simp only [Prod.mk.injEq] at hv
  obtain ⟨hconn, hrecovered, hneeds, hlayers⟩ := hv
  obtain ⟨hreach, hvalid⟩ :=
    constantNeutrals_run (p := fun _ => True) (fun _ _ => trivial) (by decide) hd
  replace hreach := hreach.mono fun _ _ => And.left
  refine ⟨d, hreach, hvalid, hconn, fun hrecovers => ?_⟩
  rcases hrecovers.attended .affect (.inl hrecovered) with ⟨lease, hl, hlayer⟩ | ⟨hneed, -⟩
  · have := List.mem_map_of_mem (f := (·.cue.layer)) hl
    rw [hlayers, List.mem_singleton, hlayer] at this
    cases this
  · rw [hneeds] at hneed
    exact absurd hneed (Finset.notMem_empty _)

end Eeveetuber
