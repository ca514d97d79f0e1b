import Mathlib.Data.List.ReduceOption
import Mathlib.Order.Monotone.Basic
import Eeveetuber.Foundation.Agrees
import Eeveetuber.Avatar.SchedulerSteps

/-!
# Schedulers that behave alike

Two schedulers are `Eeveetuber.PresentationScheduler.Alike` if they differ in nothing that
anybody can tell apart later, sequence numbers aside: the numbers of the one are those of the
other under an increasing function `φ`, and of the starts they have kept for the rate limits
those that are still in their window are the same. Each part of an operation takes schedulers
that are alike to such, and answers the same up to `φ`; that is what the theorems here say, part
by part.

Nothing but the restoration of neutral cues asks the neutral factory. What is known of the two
factories and the numbers of their calls is the parameter `G`.
-/

namespace Eeveetuber

open Foundation Foundation.Stateful

/-! ### Renumbering -/

def PresentationEvent.renumber (φ : ℕ → ℕ) (e : PresentationEvent) : PresentationEvent :=
  { e with sequence := φ e.sequence }

def PendingCue.renumber (φ : ℕ → ℕ) (p : PendingCue) : PendingCue :=
  { p with sequence := φ p.sequence }

def ScheduleResult.renumber (φ : ℕ → ℕ) (r : ScheduleResult) : ScheduleResult :=
  { r with events := r.events.map (.renumber φ) }

theorem ScheduleResult.renumber_of_nil {φ : ℕ → ℕ} {r : ScheduleResult} (h : r.events = []) :
    r.renumber φ = r := by
  rw [renumber, h, List.map_nil, ← h]

def SchedulerBatch.renumber (φ : ℕ → ℕ) (b : SchedulerBatch) : SchedulerBatch where
  results := b.results.map (.renumber φ)
  events := b.events.map (.renumber φ)

namespace PresentationScheduler

/-- Where neutral cues come from: the factory, and the number of its calls. -/
abbrev Source := Option NeutralFactory × ℕ

def source (s : PresentationScheduler) : Source := (s.neutralFactory, s.neutralCalls)

/-- **Nobody can tell the schedulers apart** from the time `last` on, sequence numbers aside. -/
structure Alike (G : Source → Source → Prop) (φ : ℕ → ℕ) (last : ℚ)
    (s t : PresentationScheduler) : Prop where
  generation : t.generation = s.generation
  policy : t.policy = s.policy
  source : G s.source t.source
  connected : t.connected = s.connected
  active : t.active = s.active
  activeByLayer : t.activeByLayer = s.activeByLayer
  pending : t.pending = s.pending.map (.renumber φ) fun _ => rfl
  audioMarkers : t.audioMarkers = s.audioMarkers
  cooldownUntil : t.cooldownUntil = s.cooldownUntil
  globalStarts : ∀ limit ∈ s.policy.globalRateLimit, ∀ now, last ≤ now →
    prune limit.windowS now t.globalStarts = prune limit.windowS now s.globalStarts
  layerStarts : ∀ layer, ∀ limit ∈ s.policy.layerRateLimits layer, ∀ now, last ≤ now →
    prune limit.windowS now (t.layerStarts layer) = prune limit.windowS now (s.layerStarts layer)
  needsNeutral : t.needsNeutral = s.needsNeutral
  sequence : ∀ n, φ (s.sequence + 1 + n) = t.sequence + 1 + n
  increasing : StrictMono φ

variable {G : Source → Source → Prop} {φ : ℕ → ℕ} {last now : ℚ} {s t : PresentationScheduler}
  {lease : ActiveLease} {cue : PresentationCue} {reason : StopReason} {replacedBy : Option Text}
  {needs : Bool} {needsOf : ActiveLease → Bool} {leases : List ActiveLease}

/-- Time passes. -/
theorem Alike.mono (h : Alike G φ last s t) (hle : last ≤ now) : Alike G φ now s t :=
  { h with
    globalStarts := fun limit hlimit later hlater => h.globalStarts limit hlimit later
      (hle.trans hlater)
    layerStarts := fun layer limit hlimit later hlater => h.layerStarts layer limit hlimit later
      (hle.trans hlater) }

/-- The next event has the number that it is to have. -/
theorem Alike.next (h : Alike G φ last s t) : φ (s.sequence + 1) = t.sequence + 1 := h.sequence 0

theorem Alike.succ (h : Alike G φ last s t) (n : ℕ) :
    φ (s.sequence + 1 + 1 + n) = t.sequence + 1 + 1 + n := by
  have hn := h.sequence (1 + n)
  rwa [← Nat.add_assoc, ← Nat.add_assoc] at hn

/-! ### Ending and beginning leases -/

theorem Alike.ended (h : Alike G φ last s t) :
    Alike G φ last (s.ended now reason replacedBy needs lease)
      (t.ended now reason replacedBy needs lease) :=
  { h with
    active := congrArg (·.erase lease.cue.cueId) h.active
    activeByLayer := by
      show (if t.activeByLayer _ = _ then _ else _) = if s.activeByLayer _ = _ then _ else _
      rw [h.activeByLayer]
    needsNeutral := by
      show (if needs then insert _ t.needsNeutral else _) =
        if needs then insert _ s.needsNeutral else _
      rw [h.needsNeutral]
    sequence := h.succ }

theorem Alike.begun (h : Alike G φ last s t) :
    Alike G φ last (s.begun lease now) (t.begun lease now) :=
  { h with
    active := congrArg (·.insert lease) h.active
    activeByLayer := by
      show Function.update t.activeByLayer _ _ = Function.update s.activeByLayer _ _
      rw [h.activeByLayer]
    needsNeutral := congrArg (·.erase lease.cue.layer) h.needsNeutral
    sequence := h.succ }

theorem Alike.endedAll (h : Alike G φ last s t) :
    Alike G φ last (s.endedAll now reason replacedBy needsOf leases)
      (t.endedAll now reason replacedBy needsOf leases) := by
  induction leases generalizing s t with
  | nil => exact h
  | cons lease rest ih =>
    rw [endedAll_cons, endedAll_cons]
    exact ih h.ended

theorem stopEvents_renumber {a b : ℕ} (h : ∀ n, φ (a + 1 + n) = b + 1 + n) :
    stopEvents now reason replacedBy b leases =
      (stopEvents now reason replacedBy a leases).map (.renumber φ) := by
  induction leases generalizing a b with
  | nil => rfl
  | cons lease rest ih =>
    have hnext : ∀ n, φ (a + 1 + 1 + n) = b + 1 + 1 + n := by
      intro n
      have hn := h (1 + n)
      rwa [← Nat.add_assoc, ← Nat.add_assoc] at hn
    rw [stopEvents, stopEvents, List.map_cons, ih hnext, PresentationEvent.renumber, h 0]

/-- **The loops that end leases.** -/
theorem Alike.endLeases (h : Alike G φ last s t) (needsOf : ActiveLease → Bool)
    (hmem : ∀ lease ∈ leases, lease ∈ s.active)
    (hnd : leases.Nodup) :
    Agrees (Alike G φ last) (List.map (.renumber φ))
      (outcome (leases.mapM fun lease => endLease now reason replacedBy (needsOf lease) lease) s)
      (outcome (leases.mapM fun lease => endLease now reason replacedBy (needsOf lease) lease)
        t) := by
  have hmem' : ∀ lease ∈ leases, lease ∈ t.active := by
    rw [h.active]
    exact hmem
  rw [outcome_endLeases now reason replacedBy needsOf hmem hnd,
    outcome_endLeases now reason replacedBy needsOf hmem' hnd]
  exact ⟨h.endedAll, congrArg Except.ok (stopEvents_renumber h.sequence)⟩

theorem Alike.sortedActive (h : Alike G φ last s t) : t.sortedActive = s.sortedActive := by
  rw [PresentationScheduler.sortedActive, PresentationScheduler.sortedActive, h.active]

theorem Alike.conflictingLeases (h : Alike G φ last s t) (cue : PresentationCue) :
    t.conflictingLeases cue = s.conflictingLeases cue := by
  rw [PresentationScheduler.conflictingLeases, PresentationScheduler.conflictingLeases, h.active]

/-- **What is over ends** in both. -/
theorem Alike.expire (h : Alike G φ now s t) :
    Agrees (Alike G φ now) (List.map (.renumber φ)) (outcome (expire now) s)
      (outcome (expire now) t) := by
  rw [PresentationScheduler.expire, outcome_get_bind, outcome_get_bind, h.sortedActive]
  refine (h.endLeases (fun _ => true) (fun lease hl => ?_)
    (s.nodup_sortedActive.filter _)).bind fun events u v huv => ?_
  · exact mem_sortedActive.mp (List.mem_of_mem_filter hl)
  rw [outcome_modify_bind, outcome_modify_bind, outcome_modify_bind, outcome_modify_bind]
  refine .done { huv with pending := ?_, cooldownUntil := ?_ }
  · show v.pending.filter _ = (u.pending.filter _).map _ _
    rw [huv.pending]
    exact Keyed.filter_map fun _ => rfl
  · show (fun key => (v.cooldownUntil key).filter _) = fun key => (u.cooldownUntil key).filter _
    rw [huv.cooldownUntil]

/-! ### Starting a cue -/

theorem outcome_withinGlobalLimit_none (h : s.policy.globalRateLimit = none) :
    outcome (withinGlobalLimit now) s = (.ok true, s) := by
  rw [withinGlobalLimit, outcome_get_bind, h]
  rfl

theorem outcome_withinGlobalLimit_some {limit : RateLimitPolicy}
    (h : s.policy.globalRateLimit = some limit) :
    outcome (withinGlobalLimit now) s =
      (.ok (decide ((prune limit.windowS now s.globalStarts).length < limit.maxStarts)),
        { s with globalStarts := prune limit.windowS now s.globalStarts }) := by
  rw [withinGlobalLimit, outcome_get_bind, h]
  rfl

/-- Once the limit was consulted, the starts kept for it are the same. -/
theorem Alike.withinGlobalLimit (h : Alike G φ now s t) : ∃ ok g g',
    outcome (withinGlobalLimit now) s = (.ok ok, { s with globalStarts := g }) ∧
    outcome (withinGlobalLimit now) t = (.ok ok, { t with globalStarts := g' }) ∧
    Alike G φ now { s with globalStarts := g } { t with globalStarts := g' } ∧
    (s.policy.globalRateLimit.isSome → g' = g) := by
  rcases hlimit : s.policy.globalRateLimit with _ | limit
  · have hlimit' : t.policy.globalRateLimit = none := h.policy ▸ hlimit
    exact ⟨true, s.globalStarts, t.globalStarts, outcome_withinGlobalLimit_none hlimit,
      outcome_withinGlobalLimit_none hlimit', h, fun hsome => by cases hsome⟩
  · have hlimit' : t.policy.globalRateLimit = some limit := h.policy ▸ hlimit
    have hsame := h.globalStarts limit hlimit now le_rfl
    refine ⟨_, prune limit.windowS now s.globalStarts, prune limit.windowS now t.globalStarts,
      outcome_withinGlobalLimit_some hlimit, ?_,
      { h with globalStarts := fun limit' _ later _ => ?_ }, fun _ => hsame⟩
    · rw [outcome_withinGlobalLimit_some hlimit', hsame]
    · exact congrArg (prune limit'.windowS later) hsame

theorem outcome_withinLayerLimit_none {layer : PresentationLayer}
    (h : s.policy.layerRateLimits layer = none) :
    outcome (withinLayerLimit layer now) s = (.ok true, s) := by
  rw [withinLayerLimit, outcome_get_bind, h]
  rfl

theorem outcome_withinLayerLimit_some {layer : PresentationLayer} {limit : RateLimitPolicy}
    (h : s.policy.layerRateLimits layer = some limit) :
    outcome (withinLayerLimit layer now) s =
      (.ok (decide ((prune limit.windowS now (s.layerStarts layer)).length < limit.maxStarts)),
        { s with
          layerStarts := Function.update s.layerStarts layer
            (prune limit.windowS now (s.layerStarts layer)) }) := by
  rw [withinLayerLimit, outcome_get_bind, h]
  show (Except.ok (decide ((Function.update s.layerStarts layer
    (prune limit.windowS now (s.layerStarts layer)) layer).length < limit.maxStarts)), _) = _
  rw [Function.update_self]

theorem Alike.withinLayerLimit (h : Alike G φ now s t) (layer : PresentationLayer) : ∃ ok l l',
    outcome (withinLayerLimit layer now) s = (.ok ok, { s with layerStarts := l }) ∧
    outcome (withinLayerLimit layer now) t = (.ok ok, { t with layerStarts := l' }) ∧
    Alike G φ now { s with layerStarts := l } { t with layerStarts := l' } ∧
    ((s.policy.layerRateLimits layer).isSome → l' layer = l layer) := by
  rcases hlimit : s.policy.layerRateLimits layer with _ | limit
  · have hlimit' : t.policy.layerRateLimits layer = none := h.policy ▸ hlimit
    exact ⟨true, s.layerStarts, t.layerStarts, outcome_withinLayerLimit_none hlimit,
      outcome_withinLayerLimit_none hlimit', h, fun hsome => by cases hsome⟩
  · have hlimit' : t.policy.layerRateLimits layer = some limit := h.policy ▸ hlimit
    have hsame := h.layerStarts layer limit hlimit now le_rfl
    refine ⟨_, Function.update s.layerStarts layer (prune limit.windowS now (s.layerStarts layer)),
      Function.update t.layerStarts layer (prune limit.windowS now (t.layerStarts layer)),
      outcome_withinLayerLimit_some hlimit, ?_,
      { h with layerStarts := fun layer' limit' hlimit' later hlater => ?_ }, fun _ => ?_⟩
    · rw [outcome_withinLayerLimit_some hlimit', hsame]
    · by_cases hlayer : layer' = layer
      · subst hlayer
        dsimp only
        rw [Function.update_self, Function.update_self, hsame]
      · dsimp only
        rw [Function.update_of_ne hlayer, Function.update_of_ne hlayer]
        exact h.layerStarts layer' limit' hlimit' later hlater
    · rw [Function.update_self, Function.update_self, hsame]

/-- Two schedulers keep the same starts for the limits that a cue is charged to. -/
structure KeepSame (s t : PresentationScheduler) (cue : PresentationCue) : Prop where
  globalStarts : s.policy.globalRateLimit.isSome → t.globalStarts = s.globalStarts
  layerStarts : (s.policy.layerRateLimits cue.layer).isSome →
    t.layerStarts cue.layer = s.layerStarts cue.layer

/-- **The limits are consulted**, and a cue that they let pass finds the same starts kept. -/
theorem Alike.limitRejection (h : Alike G φ now s t) (cue : PresentationCue) :
    ∃ rejection u v, outcome (limitRejection cue now) s = (.ok rejection, u) ∧
      outcome (limitRejection cue now) t = (.ok rejection, v) ∧ Alike G φ now u v ∧
      (rejection = none → cue.limited = true → KeepSame u v cue) ∧
      ∀ result ∈ rejection, result.events = [] := by
  rw [PresentationScheduler.limitRejection, outcome_get_bind, outcome_get_bind, h.cooldownUntil]
  split_ifs with hlimited hcool
  -- a cue that is exempt
  · refine ⟨none, s, t, rfl, rfl, h, fun _ hlim => ?_, fun _ hresult => (by cases hresult)⟩
    rw [hlim] at hlimited
    cases hlimited
  · refine ⟨_, s, t, rfl, rfl, h, fun hnone => (by cases hnone), ?_⟩
    rintro _ ⟨⟩
    rfl
  · obtain ⟨ok, g, g', hs, ht, halike, hglobal⟩ := h.withinGlobalLimit
    rcases ok with _ | _
    -- with the limit of all layers reached, the limit of the layer is not consulted
    · have hout (u : PresentationScheduler) (starts : List ℚ)
          (hu : outcome (PresentationScheduler.withinGlobalLimit now) u =
            (.ok false, { u with globalStarts := starts })) :
          outcome (withinRateLimits cue.layer now) u =
            (.ok false, { u with globalStarts := starts }) := by
        rw [withinRateLimits, outcome_bind_of_ok hu]
        rfl
      rw [outcome_bind_of_ok (hout s g hs), outcome_bind_of_ok (hout t g' ht)]
      refine ⟨_, _, _, rfl, rfl, halike, fun hnone => (by cases hnone), ?_⟩
      rintro _ ⟨⟩
      rfl
    · obtain ⟨ok, l, l', hs', ht', halike', hlayer⟩ := halike.withinLayerLimit cue.layer
      have hout (u : PresentationScheduler) (starts : List ℚ)
          (starts' : PresentationLayer → List ℚ)
          (hu : outcome (PresentationScheduler.withinGlobalLimit now) u =
            (.ok true, { u with globalStarts := starts }))
          (hu' : outcome (PresentationScheduler.withinLayerLimit cue.layer now)
            { u with globalStarts := starts } =
            (.ok ok, { u with globalStarts := starts, layerStarts := starts' })) :
          outcome (withinRateLimits cue.layer now) u =
            (.ok ok, { u with globalStarts := starts, layerStarts := starts' }) := by
        rw [withinRateLimits, outcome_bind_of_ok hu]
        exact hu'
      rw [outcome_bind_of_ok (hout s g l hs hs'), outcome_bind_of_ok (hout t g' l' ht ht')]
      rcases ok with _ | _
      · refine ⟨_, _, _, rfl, rfl, halike', fun hnone => (by cases hnone), ?_⟩
        rintro _ ⟨⟩
        rfl
      · exact ⟨none, _, _, rfl, rfl, halike', fun _ _ => ⟨hglobal, hlayer⟩,
          fun _ hresult => (by cases hresult)⟩

theorem Alike.charged (h : Alike G φ now s t) (hkeep : KeepSame s t cue) :
    Alike G φ now (s.charged cue now) (t.charged cue now) :=
  { h with
    cooldownUntil := by
      rw [PresentationScheduler.charged, PresentationScheduler.charged, h.cooldownUntil]
    globalStarts := fun limit hlimit later hlater => by
      have hsome : s.policy.globalRateLimit.isSome = true :=
        Option.isSome_iff_exists.mpr ⟨limit, hlimit⟩
      show prune _ later (if t.policy.globalRateLimit.isSome then _ else _) =
        prune _ later (if s.policy.globalRateLimit.isSome then _ else _)
      rw [h.policy, if_pos hsome, if_pos hsome, hkeep.globalStarts hsome]
    layerStarts := fun layer limit hlimit later hlater => by
      rw [PresentationScheduler.charged, PresentationScheduler.charged]
      dsimp only
      rw [h.policy]
      split_ifs with hsome
      · by_cases hlayer : layer = cue.layer
        · subst hlayer
          rw [Function.update_self, Function.update_self, hkeep.layerStarts hsome]
        · rw [Function.update_of_ne hlayer, Function.update_of_ne hlayer]
          exact h.layerStarts layer limit hlimit later hlater
      · exact h.layerStarts layer limit hlimit later hlater }

theorem Alike.preempted (h : Alike G φ now s t) (cue : PresentationCue) :
    Alike G φ now (s.preempted cue now) (t.preempted cue now) := by
  rw [PresentationScheduler.preempted, PresentationScheduler.preempted, h.conflictingLeases]
  exact h.endedAll

/-- Ending leases leaves the kept starts alone. -/
theorem KeepSame.preempted (h : KeepSame s t cue) :
    KeepSame (s.preempted cue now) (t.preempted cue now) cue := by
  rw [PresentationScheduler.preempted, PresentationScheduler.preempted]
  constructor
  · rw [endedAll_policy, endedAll_globalStarts, endedAll_globalStarts]
    exact h.globalStarts
  · rw [endedAll_policy, endedAll_layerStarts, endedAll_layerStarts]
    exact h.layerStarts

/-- What conflicts with a cue is stopped, and it starts. -/
theorem outcome_startCue_eq (s : PresentationScheduler) (cue : PresentationCue) (now : ℚ) :
    outcome (startCue cue now) s =
      (.ok {
          status := .started
          cue
          events :=
            stopEvents now .preempted (some cue.cueId) s.sequence (s.conflictingLeases cue) ++
            [⟨(s.preempted cue now).sequence + 1, .started, cue, now, none, none⟩] },
        s.launched cue now) := by
  have hstops := outcome_endLeases now .preempted (some cue.cueId)
    (fun lease => lease.cue.layer ≠ cue.layer) (s := s)
    (fun lease hl => (mem_conflictingLeases.mp hl).1) (s.nodup_conflictingLeases cue)
  have hcharge : ∀ u : PresentationScheduler,
      outcome (chargeStart cue now) u = (.ok (), u.charged cue now) := fun _ => rfl
  rw [startCue, outcome_get_bind, outcome_bind_of_ok hstops, outcome_bind_of_ok outcome_beginLease,
    launched]
  rcases cue.limited with _ | _
  · rfl
  · rw [if_pos rfl, if_pos rfl, outcome_bind_of_ok (hcharge _)]
    rfl

/-- **A start.** -/
theorem Alike.startCue (h : Alike G φ now s t) (hkeep : cue.limited = true → KeepSame s t cue) :
    Agrees (Alike G φ now) (.renumber φ) (outcome (startCue cue now) s)
      (outcome (startCue cue now) t) := by
  rw [outcome_startCue_eq, outcome_startCue_eq, h.conflictingLeases]
  have hbegun : Alike G φ now ((s.preempted cue now).begun (.grant cue now) now)
      ((t.preempted cue now).begun (.grant cue now) now) := (h.preempted cue).begun
  constructor
  · rw [launched, launched]
    split_ifs with hlimited
    · have hsame : KeepSame (s.preempted cue now) (t.preempted cue now) cue :=
        (hkeep hlimited).preempted
      exact hbegun.charged ⟨hsame.globalStarts, hsame.layerStarts⟩
    · exact hbegun
  · show Except.ok _ = Except.ok _
    rw [ScheduleResult.renumber, List.map_append, ← stopEvents_renumber h.sequence,
      ← (h.preempted cue).next]
    rfl

theorem Alike.startRejection (h : Alike G φ now s t) (cue : PresentationCue) :
    t.startRejection cue now = s.startRejection cue now := by
  rw [PresentationScheduler.startRejection, PresentationScheduler.startRejection, h.generation,
    h.connected, h.conflictingLeases]

/-- **An attempt to start a cue** comes out the same. -/
theorem Alike.attemptStart (h : Alike G φ now s t) (cue : PresentationCue) :
    Agrees (Alike G φ now) (.renumber φ) (outcome (attemptStart cue now) s)
      (outcome (attemptStart cue now) t) := by
  rw [PresentationScheduler.attemptStart, outcome_get_bind, outcome_get_bind, h.startRejection]
  rcases hr : s.startRejection cue now with _ | rejection
  · obtain ⟨rejection, u, v, hs, ht, halike, hkeep, hevents⟩ := h.limitRejection cue
    dsimp only
    rw [outcome_bind_of_ok hs, outcome_bind_of_ok ht]
    rcases rejection with _ | rejection
    · exact halike.startCue (hkeep rfl)
    · exact ⟨halike, congrArg Except.ok (ScheduleResult.renumber_of_nil (hevents _ rfl)).symm⟩
  · have hevents := (startRejection_eq_some hr).2.1
    exact ⟨h, congrArg Except.ok (ScheduleResult.renumber_of_nil hevents).symm⟩

/-! ### Cues whose audio is due -/

theorem Alike.popped (h : Alike G φ last s t) (cue : PresentationCue) :
    Alike G φ last (s.popped cue) (t.popped cue) :=
  { h with
    pending := by
      show t.pending.erase cue.cueId = (s.pending.erase cue.cueId).map _ _
      rw [h.pending]
      exact Keyed.erase_map }

theorem Alike.startPending (h : Alike G φ now s t) (p : PendingCue) :
    Agrees (Alike G φ now) (Option.map (.renumber φ)) (outcome (startPending now p) s)
      (outcome (startPending now (p.renumber φ)) t) := by
  have hfound : t.pending.contains p.cue.cueId = s.pending.contains p.cue.cueId := by
    rw [h.pending]
    exact Keyed.contains_map
  rw [PresentationScheduler.startPending, PresentationScheduler.startPending, outcome_get_bind,
    outcome_get_bind]
  show Agrees _ _ (outcome (if s.pending.contains p.cue.cueId then _ else _) (s.popped p.cue))
    (outcome (if t.pending.contains p.cue.cueId then _ else _) (t.popped p.cue))
  rw [hfound]
  split_ifs
  · exact ((h.popped p.cue).attemptStart p.cue).bind fun result u v huv => .done huv
  · exact .done (h.popped p.cue)

/-- What is due is started in the same order: the numbers of pending cues keep theirs. -/
theorem Alike.duePending (h : Alike G φ last s t) (now : ℚ) :
    t.duePending now = (s.duePending now).map (.renumber φ) := by
  rw [PresentationScheduler.duePending, PresentationScheduler.duePending, h.pending]
  show ((s.pending.values.map (PendingCue.renumber φ)).filter _).insertionSort _ = _
  rw [List.filter_map]
  refine (List.map_insertionSort _ _ _ _ fun a _ b _ => ?_).symm
  simp only [Prod.Lex.toLex_le_toLex, PendingCue.renumber, h.increasing.le_iff_le]

/-- **What is due is started** in both. -/
theorem Alike.startDue (h : Alike G φ now s t) :
    Agrees (Alike G φ now) (List.map (.renumber φ)) (outcome (startDue now) s)
      (outcome (startDue now) t) := by
  rw [PresentationScheduler.startDue, outcome_get_bind, outcome_get_bind, h.duePending]
  refine (Agrees.mapM (fun p _ u v huv => huv.startPending p) h).bind fun results u v huv => ?_
  rw [List.reduceOption_map]
  exact .done huv

/-! ### Neutral cues -/

/-- One factory, called equally often. -/
def SameSource (a b : Source) : Prop := b = a

theorem Alike.neutralFactory (h : Alike SameSource φ last s t) :
    t.neutralFactory = s.neutralFactory := congrArg Prod.fst h.source

theorem Alike.neutralCalls (h : Alike SameSource φ last s t) :
    t.neutralCalls = s.neutralCalls := congrArg Prod.snd h.source

/-- **The factory is asked the same**, and so it answers the same. -/
theorem Alike.callNeutralFactory (h : Alike SameSource φ last s t) (factory : NeutralFactory)
    (layer : PresentationLayer) :
    Agrees (Alike SameSource φ last) id (outcome (callNeutralFactory factory layer now) s)
      (outcome (callNeutralFactory factory layer now) t) := by
  rw [outcome_callNeutralFactory, outcome_callNeutralFactory, h.neutralCalls, h.generation]
  refine ⟨{ h with source := ?_ }, ?_⟩
  · show (t.neutralFactory, t.neutralCalls + 1) = (s.neutralFactory, s.neutralCalls + 1)
    rw [h.neutralFactory, h.neutralCalls]
  · rcases factory s.neutralCalls layer s.generation now with e | cue
    · rfl
    · rfl

theorem Alike.restoreNeutral (h : Alike SameSource φ now s t) (factory : NeutralFactory)
    (layer : PresentationLayer) :
    Agrees (Alike SameSource φ now) (List.map (.renumber φ))
      (outcome (restoreNeutral factory now layer) s)
      (outcome (restoreNeutral factory now layer) t) := by
  rw [PresentationScheduler.restoreNeutral, outcome_get_bind, outcome_get_bind, h.activeByLayer]
  split_ifs with hlayer
  · rw [outcome_modify_bind, outcome_modify_bind]
    exact .done { h with needsNeutral := congrArg (·.erase layer) h.needsNeutral }
  · refine (h.callNeutralFactory factory layer).bind fun cue u v huv => ?_
    rw [h.generation, h.conflictingLeases]
    simp only [id_eq]
    split_ifs
    · exact .raise _ huv
    · exact .done huv
    · rw [outcome_bind_of_ok outcome_beginLease, outcome_bind_of_ok outcome_beginLease]
      refine ⟨huv.begun, congrArg (fun e => Except.ok [e]) ?_⟩
      rw [PresentationEvent.renumber, huv.next]

/-- **Neutral cues are restored** in both. -/
theorem Alike.restoreNeutrals (h : Alike SameSource φ now s t) :
    Agrees (Alike SameSource φ now) (List.map (.renumber φ)) (outcome (restoreNeutrals now) s)
      (outcome (restoreNeutrals now) t) := by
  rw [PresentationScheduler.restoreNeutrals, outcome_get_bind, outcome_get_bind, h.connected,
    h.neutralFactory, h.needsNeutral]
  split_ifs
  · exact .done h
  · rcases s.neutralFactory with _ | factory
    · exact .done h
    · dsimp only
      have hloop := Agrees.mapM (h := id) (l := PresentationLayer.inOrder s.needsNeutral)
        (fun layer _ u v huv => Alike.restoreNeutral huv factory layer) h
      rw [List.map_id] at hloop
      refine hloop.bind fun events u v huv => ?_
      rw [← List.map_flatten]
      exact .done huv

/-! ### The operations -/

theorem Alike.submitNow (h : Alike SameSource φ now s t) (es : List PresentationEvent)
    (cue : PresentationCue) :
    Agrees (Alike SameSource φ now) (.renumber φ) (outcome (submitNow es cue now) s)
      (outcome (submitNow (es.map (.renumber φ)) cue now) t) := by
  rw [PresentationScheduler.submitNow, PresentationScheduler.submitNow]
  refine (h.attemptStart cue).bind fun result u v huv => ?_
  refine huv.restoreNeutrals.bind fun restored u v huv => ⟨huv, congrArg Except.ok ?_⟩
  rw [ScheduleResult.renumber, ScheduleResult.renumber, List.map_append, List.map_append]

theorem Alike.nextSequence (h : Alike G φ last s t) :
    Agrees (Alike G φ last) φ (outcome nextSequence s) (outcome nextSequence t) := by
  refine ⟨{ h with sequence := h.succ }, ?_⟩
  exact congrArg Except.ok h.next.symm

/-- A cue that is queued in both. -/
theorem Alike.insertPending (h : Alike G φ last s t) (p : PendingCue) :
    Alike G φ last { s with pending := s.pending.insert p }
      { t with pending := t.pending.insert (p.renumber φ) } :=
  { h with
    pending := by
      show t.pending.insert _ = (s.pending.insert p).map _ _
      rw [h.pending]
      exact Keyed.insert_map }

/-- The end of an operation that only restores neutral cues. -/
theorem Alike.restored {α β : Type} (h : Alike SameSource φ now s t) {f : α → β}
    {g : List PresentationEvent → α} {g' : List PresentationEvent → β}
    (hg : ∀ es, f (g es) = g' (es.map (.renumber φ))) :
    Agrees (Alike SameSource φ now) f
      (outcome (do return g (← PresentationScheduler.restoreNeutrals now) : SchedulerM α) s)
      (outcome (do return g' (← PresentationScheduler.restoreNeutrals now) : SchedulerM β) t) := by
  refine h.restoreNeutrals.bind fun restored u v huv => ?_
  rw [← hg]
  exact .done huv

theorem Alike.submitBound (h : Alike SameSource φ now s t) (es : List PresentationEvent)
    (cue : PresentationCue) (binding : AudioTimelineBinding) :
    Agrees (Alike SameSource φ now) (.renumber φ) (outcome (submitBound es cue binding now) s)
      (outcome (submitBound (es.map (.renumber φ)) cue binding now) t) := by
  have hlength : t.pending.length = s.pending.length := by
    rw [h.pending]
    exact Keyed.length_map
  rw [PresentationScheduler.submitBound, PresentationScheduler.submitBound, outcome_get_bind,
    outcome_get_bind, h.policy, hlength, h.audioMarkers]
  dsimp only
  split_ifs
  · exact h.restored fun restored => by rw [ScheduleResult.renumber, List.map_append]
  · refine h.nextSequence.bind fun n u v huv => ?_
    rw [outcome_modify_bind, outcome_modify_bind]
    generalize ((s.audioMarkers.find? binding.key).map fun m => m.occurredAt + binding.offsetS) =
      dueAt
    have hqueued := huv.insertPending ⟨cue, n, dueAt⟩
    rcases dueAt with _ | due
    · exact hqueued.restored fun restored => by rw [ScheduleResult.renumber, List.map_append]
    · dsimp only
      split_ifs
      · exact hqueued.restored fun restored => by rw [ScheduleResult.renumber, List.map_append]
      · rw [outcome_modify_bind, outcome_modify_bind]
        exact (hqueued.popped cue).submitNow es cue

theorem Alike.validateSubmission (h : Alike G φ last s t) (cue : PresentationCue) :
    t.validateSubmission cue now = s.validateSubmission cue now := by
  have hfound : t.pending.contains cue.cueId = s.pending.contains cue.cueId := by
    rw [h.pending]
    exact Keyed.contains_map
  rw [PresentationScheduler.validateSubmission, PresentationScheduler.validateSubmission,
    h.connected, h.generation, h.active, hfound]

/-- The clock is read before anything else. -/
theorem outcome_now_bind {α : Type} {k : ℚ → SchedulerM α} :
    outcome (PresentationScheduler.now (some now) >>= k) s = outcome (k now) s := rfl

theorem Alike.submit (h : Alike SameSource φ now s t) (cue : PresentationCue) :
    Agrees (Alike SameSource φ now) (.renumber φ) (outcome (submit (some now) cue) s)
      (outcome (submit (some now) cue) t) := by
  rw [PresentationScheduler.submit, outcome_now_bind, outcome_now_bind]
  refine h.expire.bind fun expired u v huv => ?_
  rw [outcome_get_bind, outcome_get_bind, huv.validateSubmission]
  rcases u.validateSubmission cue now with _ | rejection
  · dsimp only
    rcases cue.audioBinding with _ | binding
    · exact huv.submitNow expired cue
    · exact huv.submitBound expired cue binding
  · exact huv.restored fun restored => by rw [ScheduleResult.renumber, List.map_append]

theorem Alike.runDue (h : Alike SameSource φ now s t) (es : List PresentationEvent) :
    Agrees (Alike SameSource φ now) (.renumber φ) (outcome (runDue es now) s)
      (outcome (runDue (es.map (.renumber φ)) now) t) := by
  rw [PresentationScheduler.runDue, PresentationScheduler.runDue]
  refine h.startDue.bind fun results u v huv => huv.restored fun restored => ?_
  rw [SchedulerBatch.renumber]
  congr 1
  rw [List.map_append, List.map_append, List.map_flatMap, List.flatMap_map]
  rfl

theorem Alike.tick (h : Alike SameSource φ now s t) :
    Agrees (Alike SameSource φ now) (.renumber φ) (outcome (tick (some now)) s)
      (outcome (tick (some now)) t) := by
  rw [PresentationScheduler.tick, outcome_now_bind, outcome_now_bind]
  exact h.expire.bind fun expired u v huv => huv.runDue expired

theorem bindPending_renumber (marker : AudioTimelineMarker) (p : PendingCue) :
    bindPending marker (p.renumber φ) = (bindPending marker p).renumber φ := by
  rw [bindPending, bindPending]
  rcases hb : p.cue.audioBinding with _ | binding
  · simp only [PendingCue.renumber, hb]
  · simp only [PendingCue.renumber, hb]
    split_ifs
    · rfl
    · rfl

theorem Alike.notified (h : Alike G φ last s t) (marker : AudioTimelineMarker) :
    Alike G φ last (s.notified marker) (t.notified marker) :=
  { h with
    audioMarkers := by
      show ((t.audioMarkers.insert marker).moveToEnd marker.key).keepLast _ =
        ((s.audioMarkers.insert marker).moveToEnd marker.key).keepLast _
      rw [h.audioMarkers, h.policy]
    pending := by
      rw [PresentationScheduler.notified, PresentationScheduler.notified]
      dsimp only
      rw [h.pending]
      exact Keyed.map_comm fun p => bindPending_renumber marker p }

theorem Alike.notifyAudio (h : Alike SameSource φ now s t) (marker : AudioTimelineMarker) :
    Agrees (Alike SameSource φ now) (.renumber φ) (outcome (notifyAudio (some now) marker) s)
      (outcome (notifyAudio (some now) marker) t) := by
  rw [PresentationScheduler.notifyAudio, outcome_get_bind, outcome_get_bind, h.connected,
    h.generation]
  split_ifs
  · exact .done h
  · rw [outcome_now_bind, outcome_now_bind]
    exact h.expire.bind fun expired u v huv => (huv.notified marker).runDue expired

theorem Alike.advanceGeneration (h : Alike SameSource φ now s t) (generation : ℕ) :
    Agrees (Alike SameSource φ now) (List.map (.renumber φ))
      (outcome (advanceGeneration (some now) generation) s)
      (outcome (advanceGeneration (some now) generation) t) := by
  rw [PresentationScheduler.advanceGeneration, outcome_get_bind, outcome_get_bind, h.generation]
  split_ifs
  · exact .raise _ h
  · exact .done h
  · rw [outcome_now_bind, outcome_now_bind, outcome_modify_bind, outcome_modify_bind,
      outcome_get_bind, outcome_get_bind]
    have hnew : Alike SameSource φ now { s with generation, pending := ∅, audioMarkers := ∅ }
        { t with generation, pending := ∅, audioMarkers := ∅ } :=
      { h with generation := rfl, pending := rfl, audioMarkers := rfl }
    rw [hnew.sortedActive]
    refine (hnew.endLeases (fun _ => true) (fun lease hl => mem_sortedActive.mp hl)
      (nodup_sortedActive _)).bind fun events u v huv => huv.restored fun restored => ?_
    rw [List.map_append]

theorem Alike.cancel (h : Alike SameSource φ now s t) (cueId : Text) (reason : StopReason) :
    Agrees (Alike SameSource φ now) (List.map (.renumber φ))
      (outcome (cancel (some now) cueId reason) s)
      (outcome (cancel (some now) cueId reason) t) := by
  rw [PresentationScheduler.cancel, outcome_now_bind, outcome_now_bind]
  refine h.expire.bind fun expired u v huv => ?_
  have hfound : v.pending.contains cueId = u.pending.contains cueId := by
    rw [huv.pending]
    exact Keyed.contains_map
  rw [outcome_get_bind, outcome_get_bind, hfound, huv.active]
  split_ifs
  · have hpopped : Alike SameSource φ now { u with pending := u.pending.erase cueId }
        { v with pending := v.pending.erase cueId } :=
      { huv with
        pending := by
          show v.pending.erase cueId = (u.pending.erase cueId).map _ _
          rw [huv.pending]
          exact Keyed.erase_map }
    rw [outcome_modify_bind, outcome_modify_bind]
    exact hpopped.restored fun restored => by rw [List.map_append]
  · rcases hfind : u.active.find? cueId with _ | lease
    · exact huv.restored fun restored => by rw [List.map_append]
    · have hmem := (Keyed.find?_eq_some.mp hfind).1
      have hmem' : lease ∈ v.active := huv.active ▸ hmem
      dsimp only
      rw [outcome_bind_of_ok (outcome_endLease hmem), outcome_bind_of_ok (outcome_endLease hmem')]
      refine huv.ended.restored fun restored => ?_
      rw [List.map_append, List.map_append, List.map_singleton, PresentationEvent.renumber,
        huv.next]

theorem Alike.resetToNeutral (h : Alike SameSource φ now s t) :
    Agrees (Alike SameSource φ now) (List.map (.renumber φ))
      (outcome (resetToNeutral (some now)) s) (outcome (resetToNeutral (some now)) t) := by
  rw [PresentationScheduler.resetToNeutral, outcome_now_bind, outcome_now_bind, outcome_modify_bind,
    outcome_modify_bind, outcome_get_bind, outcome_get_bind]
  have hnew : Alike SameSource φ now { s with pending := ∅ } { t with pending := ∅ } :=
    { h with pending := rfl }
  rw [hnew.sortedActive]
  refine (hnew.endLeases (fun _ => false) (fun lease hl => mem_sortedActive.mp hl)
    (nodup_sortedActive _)).bind fun events u v huv => ?_
  have hall : Alike SameSource φ now { u with needsNeutral := Finset.univ, recovered := true }
      { v with needsNeutral := Finset.univ, recovered := true } :=
    { huv with needsNeutral := rfl }
  rw [outcome_modify_bind, outcome_modify_bind]
  refine hall.restored fun restored => ?_
  rw [List.map_append]

theorem Alike.disconnect (h : Alike SameSource φ now s t) (reason : StopReason) :
    Agrees (Alike SameSource φ now) (List.map (.renumber φ))
      (outcome (disconnect (some now) reason) s) (outcome (disconnect (some now) reason) t) := by
  rw [PresentationScheduler.disconnect, outcome_get_bind, outcome_get_bind, h.connected]
  split_ifs
  · exact .raise _ h
  · exact .done h
  · rw [outcome_now_bind, outcome_now_bind, outcome_modify_bind, outcome_modify_bind,
      outcome_get_bind, outcome_get_bind]
    have hnew : Alike SameSource φ now
        { s with connected := false, pending := ∅, audioMarkers := ∅, needsNeutral := ∅ }
        { t with connected := false, pending := ∅, audioMarkers := ∅, needsNeutral := ∅ } :=
      { h with connected := rfl, pending := rfl, audioMarkers := rfl, needsNeutral := rfl }
    rw [hnew.sortedActive]
    exact hnew.endLeases (fun _ => false) (fun lease hl => mem_sortedActive.mp hl)
      (nodup_sortedActive _)

theorem Alike.reconnect (h : Alike SameSource φ now s t) :
    Agrees (Alike SameSource φ now) (List.map (.renumber φ))
      (outcome (reconnect (some now)) s) (outcome (reconnect (some now)) t) := by
  rw [PresentationScheduler.reconnect, outcome_get_bind, outcome_get_bind, h.connected]
  split_ifs
  · exact .done h
  · rw [outcome_now_bind, outcome_now_bind, outcome_modify_bind, outcome_modify_bind]
    exact Alike.restoreNeutrals { h with connected := rfl, needsNeutral := rfl }

/-- **Whatever operation is called**, it does the same to both. -/
theorem Alike.perform (h : Alike SameSource φ last s t) (hle : last ≤ now)
    (op : SchedulerOperation) :
    Agrees (Alike SameSource φ now) (.renumber φ) (outcome (perform (some now) op) s)
      (outcome (perform (some now) op) t) := by
  have hnow := h.mono hle
  have hevents {x y : SchedulerM (List PresentationEvent)}
      (hxy : Agrees (Alike SameSource φ now) (List.map (.renumber φ)) (outcome x s) (outcome y t)) :
      Agrees (Alike SameSource φ now) (.renumber φ)
        (outcome (do return { events := ← x } : SchedulerM SchedulerBatch) s)
        (outcome (do return { events := ← y } : SchedulerM SchedulerBatch) t) :=
    hxy.bind fun events u v huv => .done huv
  cases op with
  | submit cue => exact (hnow.submit cue).bind fun result u v huv => .done huv
  | notifyAudio marker => exact hnow.notifyAudio marker
  | tick => exact hnow.tick
  | advanceGeneration generation => exact hevents (hnow.advanceGeneration generation)
  | cancel cueId reason => exact hevents (hnow.cancel cueId reason)
  | resetToNeutral => exact hevents hnow.resetToNeutral
  | disconnect reason => exact hevents (hnow.disconnect reason)
  | reconnect => exact hevents hnow.reconnect
  | adapterFailed => exact hevents (hnow.disconnect .adapterFailure)

end PresentationScheduler

end Eeveetuber
