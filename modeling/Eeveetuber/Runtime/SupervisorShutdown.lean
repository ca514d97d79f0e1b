import Eeveetuber.Runtime.SupervisorAccounts
import Eeveetuber.Runtime.Termination

/-!
# What a supervisor promises

Three results about the runs of a supervisor, with whatever its sessions do, whoever stops them and
however often `shutdown` is called. `Eeveetuber.SessionSupervisor.registry`: the registry lists the
sessions whose end has not been noted, under distinct ids, and the failure kept under an id is that
of the last session of the id that was noted as failed.
`Eeveetuber.SessionSupervisor.shutdown_returned`: once a call of `shutdown` has returned, every
session there ever was is over and noted, and there will be no other.
`Eeveetuber.SessionSupervisor.shutdown_finishes`: nothing but a session whose task or child does
not end keeps a call of `shutdown` from ending.

What was noted of a session may not be the last of it: `Eeveetuber.SessionSupervisor.outlived`.
-/

namespace Eeveetuber

open Foundation Machine

namespace SessionSupervisor

variable {β κ : Type} [DecidableEq κ] {s : SessionSupervisor β κ} {j : ℕ} {d : Shutdown}

instance (R : Lifetime β κ → Lifetime.Label β → Prop) [∀ life l, Decidable (R life l)]
    (s : SessionSupervisor β κ) (l : Label β) : Decidable (Respects R s l) :=
  match l with
  | .session k l => decidable_of_iff (∀ a ∈ s.actors[k]?, R a.life l) Iff.rfl
  | .startSession .. | .stopSession .. | .watcherRuns _ | .shutdown | .shutdownStops _
  | .shutdownProceeds _ | .shutdownReturns _ | .shutdownCancelled _ => isTrue trivial

/-! ### The registry -/

/-- **The registry.** It lists the actors whose end has not been noted, no two of them under one
id. Each end is noted once, and only of a session that has ended, with its outbox closed; a session
that is noted as failed has its failure noted. The failure kept under an id is the one noted last
under it. In an unhurried run the session is for good what it was noted to be. -/
theorem registry (h : machine.Reachable s) :
    (∀ sessionId k, (sessionId, k) ∈ s.sessions ↔
      ∃ a, s.actors[k]? = some a ∧ a.sessionId = sessionId ∧ ∀ n ∈ s.notes, n.actor ≠ k) ∧
    (∀ sessionId k m, (sessionId, k) ∈ s.sessions → (sessionId, m) ∈ s.sessions → k = m) ∧
    (s.notes.map Note.actor).Nodup ∧
    (∀ n ∈ s.notes, Terminal n.lifecycle ∧ (n.lifecycle = .failed → n.failure.isSome = true) ∧
      ∃ a, s.actors[n.actor]? = some a ∧ a.sessionId = n.sessionId ∧ Terminal a.lifecycle ∧
        a.life.actor.outbox.closed = true) ∧
    (∀ sessionId, s.failures.get sessionId = s.lastFailure sessionId) ∧
    (machine.ReachableBy (Respects Lifetime.Unhurried) s →
      ∀ n ∈ s.notes, ∀ a, s.actors[n.actor]? = some a →
        a.lifecycle = n.lifecycle ∧ a.failure = n.failure) := by
  have hs := accounts_of_reachable h
  refine ⟨fun sessionId k => (hs.sessions sessionId k).trans ?_, fun sessionId k m hk hm => ?_,
    hs.once, fun n hn => ?_, hs.failures, noted_of_unhurried⟩
  · refine exists_congr fun a => and_congr_right fun ha => and_congr_right fun _ => ?_
    constructor
    · rintro hw n hn rfl
      obtain ⟨-, -, x, hx, -, hr, -⟩ := hs.notes n hn
      obtain rfl : a = x := Option.some.inj (ha.symm.trans hx)
      exact hw hr
    · intro hno hr
      obtain ⟨n, hn, hk⟩ := hs.recorded k a ha hr
      exact hno n hn hk
  · exact congrArg Prod.snd (Keyed.eq_of_key hk hm rfl)
  · obtain ⟨hterm, hfail, a, ha, hid, -, hstopped⟩ := hs.notes n hn
    have hsettled := settled_of_reachable h a (List.mem_of_getElem? ha)
    exact ⟨hterm, hfail, a, ha, hid, hsettled.stopped.mp hstopped, hsettled.outbox hstopped⟩

/-- A supervisor that has not been used. -/
def unused : SessionSupervisor ℕ ℕ := create

/-- A session is started under the id `0`, and its handler raises. -/
def failing (k : ℕ) (e : SessionError) : List (Label ℕ) :=
  [.startSession 0 1 1 none, .session k .begin, .session k (.submit Traffic.note),
    .session k .getMessage, .session k (.handlerRaises e), .watcherRuns k]

/-- The id of a session that failed is used again, by one that fails too, and then by a third. -/
def reusing : List (Label ℕ) :=
  .startSession 1 1 1 none :: failing 1 (.raised 7) ++ failing 2 (.raised 8) ++
    [.startSession 0 1 1 none]

theorem registry_reusing : ∃ s : SessionSupervisor ℕ ℕ,
    machine.ReachableBy (Respects Lifetime.Unhurried) s ∧ s.activeSessionIds = [1, 0] ∧
      s.failures.get 0 = some (.raised 8) ∧
      ∃ a, s.actors[2]? = some a ∧ a.lifecycle = .failed ∧ a.failure = some (.raised 8) := by
  have h : (machine.restrict (Respects Lifetime.Unhurried)).run unused reusing =
    some (((machine.restrict (Respects Lifetime.Unhurried)).run unused reusing).getD unused) := rfl
  have hreach := reachableBy_of_run (.start rfl) h
  obtain ⟨-, -, -, -, hkept, hnoted⟩ := registry hreach.reachable
  have hlast := hnoted hreach ⟨2, 0, .failed, some (.raised 8)⟩
    (List.mem_cons_of_mem _ (List.mem_singleton.mpr rfl)) _ rfl
  exact ⟨_, hreach, rfl, (hkept 0).trans rfl, _, rfl, hlast.1, hlast.2⟩

/-- The caller of a forced `stop` is cancelled while the handler of the session runs; the session is
noted as stopped, and then the handler raises. -/
def hurrying : List (Label ℕ) :=
  [.startSession 0 1 1 none, .session 0 .begin, .session 0 (.submit Traffic.note),
    .session 0 .getMessage, .stopSession 0 false, .session 0 (.stopCancelled 0), .watcherRuns 0,
    .session 0 (.handlerRaises (.raised 7))]

/-- **A session may outlive its end**: it was noted as stopped, has failed since, and its failure is
not kept. -/
theorem outlived : ∃ s : SessionSupervisor ℕ ℕ, machine.Reachable s ∧
    s.notes.map (·.lifecycle) = [.stopped] ∧ s.failures.get 0 = none ∧
      s.actors.map (·.lifecycle) = [.failed] := by
  have h : machine.run unused hurrying =
    some ((machine.run unused hurrying).getD unused) := rfl
  exact ⟨_, reachable_of_run rfl h, rfl, rfl, rfl⟩

/-! ### After a shutdown -/

/-- Whether a step cancels the caller of a `shutdown` that waits for watchers, and these with it. -/
def dropsWatchers (s : SessionSupervisor β κ) : Label β → Bool
  | .shutdownCancelled j => s.shutdowns[j]?.any fun d => match d.phase with
    | .watching _ => true
    | .gathering | .raised | .returned => false
  | _ => false

/-- **The condition**: no cleanup of a session is disturbed, no caller of a forced `stop` is
cancelled while the task of the session is alive, and no caller of `shutdown` while it waits for
watchers. -/
def Orderly (s : SessionSupervisor β κ) (l : Label β) : Prop :=
  Respects (fun life l => life.Undisturbed l ∧ life.Unhurried l) s l ∧ s.dropsWatchers l = false

instance (s : SessionSupervisor β κ) (l : Label β) : Decidable (Orderly s l) :=
  inferInstanceAs (Decidable (_ ∧ _))

omit [DecidableEq κ] in
theorem Orderly.respects {R : Lifetime β κ → Lifetime.Label β → Prop} {l : Label β}
    (h : Orderly s l) (hR : ∀ life l, life.Undisturbed l ∧ life.Unhurried l → R life l) :
    Respects R s l := by
  have hl := h.1
  cases l with
  | session k l => exact fun a ha => hR a.life l (hl a ha)
  | _ => trivial

/-- In an orderly run no watcher is cancelled. -/
theorem not_cancelled (h : machine.ReachableBy Orderly s) :
    ∀ a ∈ s.actors, a.watcher ≠ .cancelled := by
  refine h.invariant (I := fun s => ∀ a ∈ s.actors, a.watcher ≠ .cancelled) (fun s hs a ha => ?_)
    fun s l t _ hs hok hn => ?_
  · rw [show s = create from hs] at ha
    cases ha
  have hstep : ∀ k l t, s.stepSession k l = some t → ∀ a ∈ t.actors, a.watcher ≠ .cancelled := by
    intro k l t hn a ha
    obtain ⟨b, life, hb, -, rfl⟩ := stepSession_eq_some hn
    rcases List.mem_or_eq_of_mem_set ha with ha | rfl
    · exact hs a ha
    · exact hs b (List.mem_of_getElem? hb)
  cases l with
  | startSession sessionId inboxCapacity outboxCapacity observer =>
    simp only [machine, next] at hn
    split at hn
    · cases hn
      exact hs
    · rename_i t' ht
      cases hn
      obtain ⟨actor, started, -, -, -, -, rfl⟩ := startSession_eq_ok ht
      intro a ha
      rcases List.mem_append.mp ha with ha | ha
      · exact hs a ha
      · rw [List.mem_singleton.mp ha]
        simp
  | session k l => exact hstep k l t hn
  | stopSession sessionId graceful =>
    simp only [machine, next] at hn
    split at hn
    · cases hn
      exact hs
    · exact hstep _ _ t hn
  | watcherRuns k =>
    simp only [machine, next] at hn
    split at hn
    · split_ifs at hn
      cases hn
      intro a ha
      rcases List.mem_or_eq_of_mem_set ha with ha | rfl
      · exact hs a ha
      · simp
    · cases hn
  | shutdown =>
    cases hn
    exact hs
  | shutdownStops j =>
    simp only [machine, next] at hn
    split at hn
    · obtain ⟨t', ht, rfl⟩ := Option.map_eq_some_iff.mp hn
      exact hstep _ _ t' ht
    · cases hn
  | shutdownProceeds j =>
    simp only [machine, next] at hn
    split at hn
    · split_ifs at hn
      cases hn
      exact hs
    · cases hn
  | shutdownReturns j =>
    simp only [machine, next] at hn
    split at hn
    · split_ifs at hn
      cases hn
      exact hs
    · cases hn
  | shutdownCancelled j =>
    simp only [machine, next] at hn
    split at hn
    · cases hn
      exact hs
    -- the step that cancels watchers is none of an orderly run
    · rename_i hj
      have hdrops := hok.2
      simp only [dropsWatchers, hj] at hdrops
      cases hdrops
    · cases hn

/-- **After a shutdown.** In any orderly run, once a call of `shutdown` has returned, every session
that was ever started is complete, and was noted as it is; the failure kept under an id is the one
noted last, the registry is empty, and no session is started any more. -/
theorem shutdown_returned (h : machine.ReachableBy Orderly s) (hd : d ∈ s.shutdowns)
    (hr : d.phase = .returned) :
    (∀ (k : ℕ) (a : Supervised β κ), s.actors[k]? = some a → a.life.Complete ∧
      ∃ n ∈ s.notes, n.actor = k ∧ n.sessionId = a.sessionId ∧ n.lifecycle = a.lifecycle ∧
        n.failure = a.failure) ∧
    (∀ sessionId, s.failures.get sessionId = s.lastFailure sessionId) ∧
    s.activeSessionIds = [] ∧
    ∀ sessionId inboxCapacity outboxCapacity observer, ∃ e,
      s.startSession sessionId inboxCapacity outboxCapacity observer = .error e := by
  have hs := accounts_of_reachable h.reachable
  have hover := (hs.shutdowns d hd).returned hr
  -- no watcher waits and none was cancelled, so that all have recorded
  have hrecorded : ∀ a ∈ s.actors, a.watcher = .recorded := by
    intro a ha
    have hcancelled := not_cancelled h a ha
    have hwaits := (hover a ha).2
    cases hw : a.watcher with
    | recorded => rfl
    | waiting => exact absurd hw hwaits
    | cancelled => exact absurd hw hcancelled
  refine ⟨fun k a ha => ⟨?_, ?_⟩, hs.failures, ?_, fun id m n observer => ?_⟩
  · have hundisturbed : machine.ReachableBy (Respects Lifetime.Undisturbed) s :=
      h.mono fun s l hok => hok.respects fun _ _ hl => hl.1
    have hlife : Lifetime.machine.ReachableBy Lifetime.Undisturbed a.life := by
      refine lives_of_reachableBy (fun life graceful => ?_) hundisturbed a (List.mem_of_getElem? ha)
      exact ⟨⟨fun _ _ => rfl, rfl⟩, fun _ _ => rfl, rfl⟩
    have hsound := Lifetime.sound_of_reachableBy hlife
    have hterm := hsound.stopped (hover a (List.mem_of_getElem? ha)).1
    obtain ⟨hout, hstopped, hgone⟩ := hsound.terminal hterm
    exact ⟨hterm, hout, hstopped, hgone⟩
  · obtain ⟨n, hn, rfl⟩ := hs.recorded k a ha (hrecorded a (List.mem_of_getElem? ha))
    obtain ⟨-, -, x, hx, hid, -⟩ := hs.notes n hn
    obtain rfl : a = x := Option.some.inj (ha.symm.trans hx)
    have hunhurried : machine.ReachableBy (Respects Lifetime.Unhurried) s :=
      h.mono fun s l hok => hok.respects fun _ _ hl => hl.2
    obtain ⟨hlifecycle, hfailure⟩ := noted_of_unhurried hunhurried n hn a ha
    exact ⟨n, hn, rfl, hid.symm, hlifecycle.symm, hfailure.symm⟩
  · refine List.eq_nil_iff_forall_not_mem.mpr fun id hid => ?_
    obtain ⟨⟨_, k⟩, hmem, rfl⟩ := List.mem_map.mp hid
    obtain ⟨a, ha, -, hw⟩ := (hs.sessions _ k).mp hmem
    exact hw (hrecorded a (List.mem_of_getElem? ha))
  · have hclosed := hs.closed (List.ne_nil_of_mem hd)
    unfold startSession
    split
    · exact ⟨_, rfl⟩
    · rw [if_pos hclosed]
      exact ⟨_, rfl⟩

/-- A session is stopped by a shutdown while its handler runs. -/
def closing : List (Label ℕ) :=
  [.startSession 0 1 1 none, .session 0 .begin, .session 0 (.submit Traffic.note),
    .session 0 .getMessage, .shutdown, .shutdownStops 0, .session 0 .handlerReturns,
    .session 0 .drained, .session 0 (.stopReturns 0), .shutdownProceeds 0, .watcherRuns 0,
    .shutdownReturns 0]

theorem shutdown_returned_closing : ∃ s : SessionSupervisor ℕ ℕ, machine.ReachableBy Orderly s ∧
    s.shutdowns.map (·.phase) = [.returned] ∧ s.actors.length = 1 ∧
      ∀ (k : ℕ) (a : Supervised ℕ ℕ), s.actors[k]? = some a → a.life.Complete := by
  have h : (machine.restrict Orderly).run unused closing =
    some (((machine.restrict Orderly).run unused closing).getD unused) := rfl
  have hreach := reachableBy_of_run (.start rfl) h
  exact ⟨_, hreach, rfl, rfl, fun k a ha =>
    ((shutdown_returned hreach (List.mem_singleton.mpr rfl) rfl).1 k a ha).1⟩

/-! ### Every shutdown ends -/

/-- The steps that need nothing but the event loop, once the tasks of the sessions are done. -/
def isOwn : Label β → Bool
  | .watcherRuns _ | .shutdownStops _ | .shutdownProceeds _ | .shutdownReturns _
  | .session _ (.stopReturns _) | .session _ (.stopFinalized _) => true
  | _ => false

/-- A session is over when its task is done and the callbacks of its children have run. -/
def Over (life : Lifetime β κ) : Prop :=
  life.task.isFinished = true ∧ ∀ p ∈ life.children, p = .gone

theorem exists_stepSession {k : ℕ} {a : Supervised β κ} {l : Lifetime.Label β}
    (ha : s.actors[k]? = some a) (h : ∃ life, a.life.next l = some life) :
    ∃ t, s.stepSession k l = some t := by
  obtain ⟨life, hlife⟩ := h
  exact ⟨_, by rw [stepSession, ha, Option.bind_some, hlife, Option.map_some]⟩

/-- A call of `stop` on a session that is over goes on. -/
theorem stop_goes_on {life : Lifetime β κ} {i : ℕ} {p : StopPhase}
    (h : Lifetime.machine.Reachable life) (hover : Over life) (hp : life.stops[i]? = some p)
    (hne : p ≠ .done) : (∃ t, life.next (.stopReturns i) = some t) ∨
      ∃ t, life.next (.stopFinalized i) = some t := by
  obtain ⟨b, hb⟩ : ∃ b, life.task = .finished b := by
    have hf := hover.1
    cases ht : life.task with
    | finished b => exact ⟨b, rfl⟩
    | _ => rw [ht] at hf; cases hf
  have hall : ∀ snapshot, p.snapshot? = some snapshot → life.allGone snapshot = true := by
    intro snapshot hsnap
    refine List.all_eq_true.mpr fun m hm => decide_eq_true ?_
    have hlt := (Lifetime.listed_of_reachable h).stops _ (List.mem_of_getElem? hp) _ hsnap m hm
    rw [List.getElem?_eq_getElem hlt, hover.2 _ (List.getElem_mem hlt)]
  cases p with
  | waiting graceful =>
    left
    cases b <;> cases graceful <;> exact ⟨_, by simp only [Lifetime.next, hp, hb]; rfl⟩
  | timedOut => exact Or.inl ⟨_, by simp only [Lifetime.next, hp, hb]; rfl⟩
  | finalizing snapshot =>
    exact Or.inr ⟨_, by simp only [Lifetime.next, hp, if_pos (hall snapshot rfl)]; rfl⟩
  | abandoned snapshot =>
    cases snapshot with
    | none => exact Or.inl ⟨_, by simp only [Lifetime.next, hp, hb]; rfl⟩
    | some snapshot =>
      exact Or.inr ⟨_, by simp only [Lifetime.next, hp, if_pos (hall snapshot rfl)]; rfl⟩
  | done => exact absurd rfl hne

/-- **A shutdown is not stuck.** In any run, while a call of `shutdown` has neither returned nor
raised and every session is over, one of the steps that bring it on can be taken. -/
theorem shutdown_progress (h : machine.Reachable s) (hd : s.shutdowns[j]? = some d)
    (hphase : d.phase ≠ .returned ∧ d.phase ≠ .raised) (hover : ∀ a ∈ s.actors, Over a.life) :
    ∃ l t, isOwn l = true ∧ s.next l = some t := by
  have hs := accounts_of_reachable h
  have hc := hs.shutdowns d (List.mem_of_getElem? hd)
  obtain ⟨unbegun, calls, phase⟩ := d
  cases unbegun with
  | cons k ks =>
    have hlt := hc.unbegun k (List.mem_cons_self ..)
    have hstop : ∃ life, s.actors[k].life.next (.stop true) = some life := by
      simp only [Lifetime.next]
      split <;> exact ⟨_, rfl⟩
    obtain ⟨t, ht⟩ := exists_stepSession (List.getElem?_eq_getElem hlt) hstop
    exact ⟨.shutdownStops j, _, rfl, by simp only [next, hd, ht]; rfl⟩
  | nil =>
    cases phase with
    | returned => exact absurd rfl hphase.1
    | raised => exact absurd rfl hphase.2
    | gathering =>
      by_cases hdone : calls.all s.callDone = true
      · exact ⟨.shutdownProceeds j, _, rfl, by simp only [next, hd, if_pos hdone]; rfl⟩
      · -- one of the calls is not done, and goes on
        obtain ⟨⟨k, i⟩, hi, hnot⟩ : ∃ c ∈ calls, ¬s.callDone c = true := by
          simpa using hdone
        obtain ⟨a, p, ha, hp, -⟩ := hc.calls k i hi
        have hne : p ≠ .done := fun hpd => hnot (callDone_iff.mpr ⟨a, ha, hpd ▸ hp⟩)
        have hmem := List.mem_of_getElem? ha
        have hlife : Lifetime.machine.Reachable a.life := by
          refine lives_of_reachableBy (fun _ _ => ⟨trivial, trivial⟩)
            (h.mono fun s l _ => ?_) a hmem
          cases l with
          | session => exact fun _ _ => trivial
          | _ => trivial
        rcases stop_goes_on hlife (hover a hmem) hp hne with ht | ht
        · obtain ⟨t, ht⟩ := exists_stepSession ha ht
          exact ⟨.session k (.stopReturns i), t, rfl, ht⟩
        · obtain ⟨t, ht⟩ := exists_stepSession ha ht
          exact ⟨.session k (.stopFinalized i), t, rfl, ht⟩
    | watching watched =>
      by_cases hdone : watched.all s.watcherDone = true
      · exact ⟨.shutdownReturns j, _, rfl, by simp only [next, hd, if_pos hdone]; rfl⟩
      · -- one of the watchers waits, for a session that has ended
        obtain ⟨k, hk, hnot⟩ : ∃ k ∈ watched, ¬s.watcherDone k = true := by
          simpa using hdone
        obtain ⟨hended, hin, -⟩ := hc.watching watched rfl
        obtain ⟨a, ha⟩ : ∃ a, s.actors[k]? = some a := ⟨_, List.getElem?_eq_getElem (hin k hk)⟩
        have hw : a.watcher = .waiting := by
          by_contra hw
          exact hnot (watcherDone_iff.mpr ⟨a, ha, hw⟩)
        have hstopped := hended a (List.mem_of_getElem? ha)
        exact ⟨.watcherRuns k, _, rfl, by simp only [next, ha, if_pos (And.intro hw hstopped)]; rfl⟩

/-! ### Its steps come to an end -/

/-- How far an actor is from having its end noted, once it is over. -/
def actorRank (a : Supervised β κ) : ℕ :=
  (a.life.stops.map StopPhase.rank).sum + if a.watcher = .waiting then 1 else 0

/-- How many phases are left of a call of `shutdown`. -/
def phaseRank : ShutdownPhase → ℕ
  | .gathering => 2
  | .watching _ => 1
  | .raised | .returned => 0

/-- How far a call of `shutdown` is from its end. -/
def shutdownRank (d : Shutdown) : ℕ := 3 * d.unbegun.length + phaseRank d.phase

/-- How many steps of its own a supervisor can take, once its sessions are over. -/
def pending (s : SessionSupervisor β κ) : ℕ :=
  (s.actors.map actorRank).sum + (s.shutdowns.map shutdownRank).sum

theorem shutdownRank_notice_le {k : ℕ} {raised : Option ℕ} :
    shutdownRank (d.notice k raised) ≤ shutdownRank d := by
  unfold Shutdown.notice
  split_ifs
  · exact Nat.le_add_right _ _
  · exact Nat.le_refl _

theorem sum_shutdownRank_notice_le {k : ℕ} (raised : Option ℕ) (ds : List Shutdown) :
    ((ds.map fun d => d.notice k raised).map shutdownRank).sum ≤ (ds.map shutdownRank).sum := by
  induction ds with
  | nil => exact Nat.le_refl _
  | cons d ds ih =>
    simp only [List.map_cons, List.sum_cons]
    exact Nat.add_le_add shutdownRank_notice_le ih

omit [DecidableEq κ] in
theorem over_set {a b : Supervised β κ} {k : ℕ} (hover : ∀ a ∈ s.actors, Over a.life)
    (ha : s.actors[k]? = some a) (htask : b.life.task = a.life.task)
    (hchildren : b.life.children = a.life.children) : ∀ x ∈ s.actors.set k b, Over x.life := by
  intro x hx
  rcases List.mem_or_eq_of_mem_set hx with hx | rfl
  · exact hover x hx
  · have := hover a (List.mem_of_getElem? ha)
    rw [Over, htask, hchildren]
    exact this

/-- **Each step of its own brings a supervisor nearer to the end.** -/
theorem own_step {l : Label β} {t : SessionSupervisor β κ} (hover : ∀ a ∈ s.actors, Over a.life)
    (hl : isOwn l = true) (hn : s.next l = some t) :
    (∀ a ∈ t.actors, Over a.life) ∧ t.pending < s.pending := by
  cases l with
  | startSession | stopSession | shutdown | shutdownCancelled => cases hl
  -- of a session only the returns of its calls of `stop` are steps of its own
  | session k l =>
    obtain ⟨i, hi⟩ : ∃ i, l = .stopReturns i ∨ l = .stopFinalized i := by
      cases l with
      | stopReturns i => exact ⟨i, Or.inl rfl⟩
      | stopFinalized i => exact ⟨i, Or.inr rfl⟩
      | _ => cases hl
    obtain ⟨a, life, ha, hlife, rfl⟩ := stepSession_eq_some hn
    have hnear := Lifetime.nearer_of_next hi hlife
    refine ⟨over_set hover ha hnear.task hnear.children, ?_⟩
    have hactors := sum_map_set (f := actorRank) (b := { a with life := life }) ha
    -- a call of `stop` is nearer to its end, and nothing else of the session has moved
    have hrank : actorRank { a with life := life } < actorRank a := by
      have hstops := hnear.stops
      rw [actorRank, actorRank]
      dsimp only
      omega
    have hshut := sum_shutdownRank_notice_le (k := k) (a.life.raisedBy l) s.shutdowns
    rw [pending, pending]
    dsimp only
    omega
  | watcherRuns k =>
    simp only [next] at hn
    split at hn
    · rename_i a ha
      split_ifs at hn with hs
      cases hn
      refine ⟨over_set hover ha rfl rfl, ?_⟩
      have hactors := sum_map_set (f := actorRank) (b := { a with watcher := .recorded }) ha
      have hrank : actorRank { a with watcher := .recorded } + 1 = actorRank a := by
        rw [actorRank, actorRank, if_pos hs.1]
        rfl
      show ((s.actors.set k _).map actorRank).sum + (s.shutdowns.map shutdownRank).sum < _
      rw [pending]
      omega
    · cases hn
  | shutdownStops j =>
    simp only [next] at hn
    split at hn
    · rename_i k ks calls phase hj
      obtain ⟨t', ht, rfl⟩ := Option.map_eq_some_iff.mp hn
      obtain ⟨a, life, ha, hlife, rfl⟩ := stepSession_eq_some ht
      obtain ⟨htask, hchildren, -, hle⟩ := Lifetime.next_stop_rank hlife
      refine ⟨over_set hover ha htask hchildren, ?_⟩
      have hactors := sum_map_set (f := actorRank) (b := { a with life := life }) ha
      have hrank : actorRank { a with life := life } ≤ actorRank a + 2 := by
        rw [actorRank, actorRank]
        dsimp only
        omega
      have hsame : (s.shutdowns.map fun d => d.notice k (a.life.raisedBy (.stop true))) =
          s.shutdowns := List.map_id'' (fun d => notice_none) _
      have hshut := fun calls' => sum_map_set (f := shutdownRank) (b := ⟨ks, calls', phase⟩) hj
      -- the call that begins is paid for by the identifier that is no longer to be stopped
      have hbegun : ∀ calls', shutdownRank ⟨ks, calls', phase⟩ + 3 =
          shutdownRank ⟨k :: ks, calls, phase⟩ := by
        intro calls'
        show 3 * ks.length + phaseRank phase + 3 = 3 * (ks.length + 1) + phaseRank phase
        omega
      rw [pending, pending]
      dsimp only
      rw [hsame]
      generalize calls ++ _ = calls'
      have hset := hshut calls'
      have hlt := hbegun calls'
      omega
    · cases hn
  | shutdownProceeds j =>
    simp only [next] at hn
    split at hn
    · rename_i calls hj
      split_ifs at hn
      cases hn
      refine ⟨hover, ?_⟩
      have := sum_map_set (f := shutdownRank) (b := ⟨[], calls, .watching s.watchers⟩) hj
      have hrank : shutdownRank ⟨[], calls, .watching s.watchers⟩ + 1 =
        shutdownRank ⟨[], calls, .gathering⟩ := rfl
      rw [pending, pending]
      dsimp only
      omega
    · cases hn
  | shutdownReturns j =>
    simp only [next] at hn
    split at hn
    · rename_i unbegun calls watched hj
      split_ifs at hn
      cases hn
      refine ⟨hover, ?_⟩
      have := sum_map_set (f := shutdownRank) (b := ⟨unbegun, calls, .returned⟩) hj
      have hrank : shutdownRank ⟨unbegun, calls, .returned⟩ + 1 =
        shutdownRank ⟨unbegun, calls, .watching watched⟩ := rfl
      rw [pending, pending]
      dsimp only
      omega
    · cases hn

/-- The supervisor left to itself: it takes only steps of its own. -/
def alone : Machine (SessionSupervisor β κ) (Label β) :=
  machine.restrict fun _ l => isOwn l = true

/-- **Every shutdown ends.** Once every session is over, in any order of the steps the supervisor
takes by itself it comes to an end after a bounded number of them; and where it does, every call of
`shutdown` has returned or raised. -/
theorem shutdown_finishes (h : machine.Reachable s) (hover : ∀ a ∈ s.actors, Over a.life)
    {ls : List (Label β)} {t : SessionSupervisor β κ} (hrun : alone.run s ls = some t) :
    ls.length ≤ s.pending ∧ ((∀ l, alone.next t l = none) →
      ∀ d ∈ t.shutdowns, d.phase = .returned ∨ d.phase = .raised) := by
  induction ls generalizing s with
  | nil =>
    obtain rfl := Option.some.inj hrun
    refine ⟨Nat.zero_le _, fun hend d hd => ?_⟩
    by_contra hphase
    push Not at hphase
    obtain ⟨j, hj⟩ := List.mem_iff_getElem?.mp hd
    obtain ⟨l, t, hl, hn⟩ := shutdown_progress h hj hphase hover
    have hnone := hend l
    simp only [alone, restrict, if_pos hl] at hnone
    rw [show machine.next s l = some t from hn] at hnone
    cases hnone
  | cons l ls ih =>
    rw [run_cons, Option.bind_eq_some_iff] at hrun
    obtain ⟨u, hu, hrest⟩ := hrun
    simp only [alone, restrict] at hu
    split_ifs at hu with hl
    obtain ⟨hover', hlt⟩ := own_step hover hl hu
    obtain ⟨hle, hends⟩ := ih (.step h trivial hu) hover' hrest
    refine ⟨?_, hends⟩
    rw [List.length_cons]
    omega

theorem shutdown_finishes_closing : ∃ s t : SessionSupervisor ℕ ℕ, machine.Reachable s ∧
    alone.run s (closing.drop 8) = some t ∧ (closing.drop 8).length ≤ s.pending ∧
      t.shutdowns.map (·.phase) = [.returned] := by
  have h : machine.run unused (closing.take 8) =
    some ((machine.run unused (closing.take 8)).getD unused) := rfl
  have hreach := reachable_of_run rfl h
  have hrun : alone.run ((machine.run unused (closing.take 8)).getD unused) (closing.drop 8) =
    some ((machine.run unused closing).getD unused) := rfl
  refine ⟨_, _, hreach, hrun, (shutdown_finishes hreach (fun a ha => ?_) hrun).1, rfl⟩
  obtain rfl := List.mem_singleton.mp ha
  exact ⟨rfl, by decide⟩

end SessionSupervisor

end Eeveetuber
