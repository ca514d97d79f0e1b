import Mathlib.Logic.Relation
import Eeveetuber.Foundation.Triple
import Eeveetuber.Avatar.Scheduler

/-!
# What an operation of the scheduler can do

Every operation of the scheduler, whatever path it takes, is a sequence of the
effects of `Eeveetuber.PresentationScheduler.Effect`: leases expire, a cue
starts in place of those it conflicts with, a neutral cue is restored, and so
on, each with the conditions under which the code does it.
`Eeveetuber.PresentationScheduler.perform_effects` is that statement, together
with the fact that the events an operation returns are those it built. It makes
no assumption on the state, so it serves every property of the scheduler: what
each effect preserves, every run does.
-/

namespace Eeveetuber.PresentationScheduler

open Foundation Foundation.Stateful

/-! ### The parts of a method -/

/-- A lease ends. -/
def ended (now : ℚ) (reason : StopReason) (replacedBy : Option Text) (needs : Bool)
    (s : PresentationScheduler) (lease : ActiveLease) : PresentationScheduler :=
  { s with
    active := s.active.erase lease.cue.cueId
    activeByLayer := if s.activeByLayer lease.cue.layer = some lease.cue.cueId then
        Function.update s.activeByLayer lease.cue.layer none
      else s.activeByLayer
    needsNeutral := if needs then insert lease.cue.layer s.needsNeutral else s.needsNeutral
    sequence := s.sequence + 1
    journal := s.journal ++ [⟨s.sequence + 1, .stopped, lease.cue, now, some reason, replacedBy⟩] }

/-- A lease begins. -/
def begun (s : PresentationScheduler) (lease : ActiveLease) (now : ℚ) : PresentationScheduler :=
  { s with
    active := s.active.insert lease
    activeByLayer := Function.update s.activeByLayer lease.cue.layer (some lease.cue.cueId)
    needsNeutral := s.needsNeutral.erase lease.cue.layer
    sequence := s.sequence + 1
    journal := s.journal ++ [⟨s.sequence + 1, .started, lease.cue, now, none, none⟩] }

/-- Leases end one after the other. -/
def endedAll (now : ℚ) (reason : StopReason) (replacedBy : Option Text)
    (needs : ActiveLease → Bool) (leases : List ActiveLease) (s : PresentationScheduler) :
    PresentationScheduler :=
  leases.foldl (fun s lease => s.ended now reason replacedBy (needs lease) lease) s

/-- The events of `Eeveetuber.PresentationScheduler.endedAll`; `n` is the last sequence number. -/
def stopEvents (now : ℚ) (reason : StopReason) (replacedBy : Option Text) :
    ℕ → List ActiveLease → List PresentationEvent
  | _, [] => []
  | n, lease :: rest => ⟨n + 1, .stopped, lease.cue, now, some reason, replacedBy⟩ ::
      stopEvents now reason replacedBy (n + 1) rest

/-- A counted start is charged to the cooldown of its key and to the rate limits. -/
def charged (s : PresentationScheduler) (cue : PresentationCue) (now : ℚ) :
    PresentationScheduler :=
  { s with
    cooldownUntil := match cue.cooldownKey with
      | none => s.cooldownUntil
      | some key => if 0 < cue.cooldownS then
          Function.update s.cooldownUntil key (some (now + cue.cooldownS)) else s.cooldownUntil
    globalStarts := if s.policy.globalRateLimit.isSome then s.globalStarts ++ [now]
      else s.globalStarts
    layerStarts := if (s.policy.layerRateLimits cue.layer).isSome then
        Function.update s.layerStarts cue.layer (s.layerStarts cue.layer ++ [now])
      else s.layerStarts }

/-- A cue that is started is not pending. -/
def popped (s : PresentationScheduler) (cue : PresentationCue) : PresentationScheduler :=
  { s with pending := s.pending.erase cue.cueId }

/-- What conflicts with a cue is stopped for it. -/
def preempted (s : PresentationScheduler) (cue : PresentationCue) (now : ℚ) :
    PresentationScheduler :=
  s.endedAll now .preempted (some cue.cueId) (fun lease => lease.cue.layer ≠ cue.layer)
    (s.conflictingLeases cue)

/-- A cue starts in place of those it conflicts with. -/
def launched (s : PresentationScheduler) (cue : PresentationCue) (now : ℚ) :
    PresentationScheduler :=
  let u := (s.preempted cue now).begun (.grant cue now) now
  if cue.limited then u.charged cue now else u

/-- A cue waits for its audio marker. -/
def queued (s : PresentationScheduler) (cue : PresentationCue) (binding : AudioTimelineBinding) :
    PresentationScheduler :=
  { s with
    sequence := s.sequence + 1
    pending := s.pending.insert {
      cue
      sequence := s.sequence + 1
      dueAt := (s.audioMarkers.find? binding.key).map fun m => m.occurredAt + binding.offsetS } }

/-- The neutral factory is asked for a layer's cue. -/
def asked (s : PresentationScheduler) (layer : PresentationLayer)
    (answer : Except String PresentationCue) : PresentationScheduler :=
  { s with
    neutralCalls := s.neutralCalls + 1
    lastNeutral := match answer with
      | .ok cue => Function.update s.lastNeutral layer (some (s.neutralCalls, cue))
      | .error _ => s.lastNeutral }

theorem bindPending_cueId (marker : AudioTimelineMarker) (p : PendingCue) :
    (bindPending marker p).cue.cueId = p.cue.cueId := by
  rw [bindPending_cue]

/-- A marker is stored, and the cues that wait for it become due. -/
def notified (s : PresentationScheduler) (marker : AudioTimelineMarker) : PresentationScheduler :=
  { s with
    audioMarkers := ((s.audioMarkers.insert marker).moveToEnd marker.key).keepLast
      s.policy.maxAudioMarkers
    pending := s.pending.map (bindPending marker) fun p => bindPending_cueId marker p }

/-- Everything of older generations is dropped. -/
def advanced (s : PresentationScheduler) (generation : ℕ) (now : ℚ) : PresentationScheduler :=
  endedAll now .generationAdvanced none (fun _ => true) s.sortedActive
    { s with generation, pending := ∅, audioMarkers := ∅ }

/-- Everything is dropped, and every layer needs neutral. -/
def cleared (s : PresentationScheduler) (now : ℚ) : PresentationScheduler :=
  { endedAll now .cancelled none (fun _ => false) s.sortedActive { s with pending := ∅ } with
    needsNeutral := Finset.univ
    recovered := true }

/-- Everything is dropped, and nothing restored until the renderer is back. -/
def dropped (s : PresentationScheduler) (reason : StopReason) (now : ℚ) :
    PresentationScheduler :=
  endedAll now reason none (fun _ => false) s.sortedActive
    { s with connected := false, pending := ∅, audioMarkers := ∅, needsNeutral := ∅ }

/-! ### The effects -/

/-- The kept starts after consulting some of the limits. -/
def Pruned (s : PresentationScheduler) (now : ℚ) (globalStarts : List ℚ)
    (layerStarts : PresentationLayer → List ℚ) : Prop :=
  (globalStarts = s.globalStarts ∨ ∃ limit ∈ s.policy.globalRateLimit,
    globalStarts = prune limit.windowS now s.globalStarts) ∧
  ∀ layer, layerStarts layer = s.layerStarts layer ∨ ∃ limit ∈ s.policy.layerRateLimits layer,
    layerStarts layer = prune limit.windowS now (s.layerStarts layer)

/-- Neither a cooldown nor a rate limit is in the way of a cue. -/
def WithinLimits (s : PresentationScheduler) (cue : PresentationCue) (now : ℚ) : Prop :=
  cue.limited = true →
    (∀ key ∈ cue.cooldownKey, ∀ til ∈ s.cooldownUntil key, til ≤ now) ∧
    (∀ limit ∈ s.policy.globalRateLimit, s.globalStarts.length < limit.maxStarts) ∧
    ∀ limit ∈ s.policy.layerRateLimits cue.layer,
      (s.layerStarts cue.layer).length < limit.maxStarts

/-- A cue that may be started: one being submitted, or one whose audio is due. -/
def Ready (op : SchedulerOperation) (now : ℚ) (s : PresentationScheduler)
    (cue : PresentationCue) : Prop :=
  (op = .submit cue ∧ cue.audioBinding = none ∧ s.validateSubmission cue now = none) ∨
    ∃ p ∈ s.pending, p.cue = cue ∧ (p.dueAt.any fun t => t ≤ now) = true

/-- What an operation can do to the scheduler. -/
inductive Effect (op : SchedulerOperation) (now : ℚ) :
    PresentationScheduler → PresentationScheduler → Prop
  /-- A lease expires. -/
  | expire {s lease} (hmem : lease ∈ s.active) (hexp : lease.expired now = true) :
    Effect op now s (s.ended now .leaseExpired none true lease)
  /-- A lease is cancelled. -/
  | cancel {s lease reason} (hop : op = .cancel lease.cue.cueId reason) (hmem : lease ∈ s.active) :
    Effect op now s (s.ended now reason none true lease)
  /-- A new generation. -/
  | advance {s generation} (hop : op = .advanceGeneration generation)
    (hlt : s.generation < generation) : Effect op now s (s.advanced generation now)
  /-- A reset. -/
  | reset {s} (hop : op = .resetToNeutral) : Effect op now s (s.cleared now)
  /-- The renderer goes away. -/
  | disconnect {s reason} (hop : op = .disconnect reason ∨ op = .adapterFailed)
    (hreason : reason = .disconnected ∨ reason = .adapterFailure) :
    Effect op now s (s.dropped reason now)
  /-- The renderer is back. -/
  | reconnect {s} (hop : op = .reconnect) (hconn : s.connected = false) :
    Effect op now s { s with connected := true, needsNeutral := Finset.univ, recovered := true }
  /-- A cue starts. -/
  | start {s cue} (hready : Ready op now s cue) (hfresh : cue.expired now = false)
    (hgen : cue.generation = s.generation) (hconn : s.connected = true)
    (hprio : ∀ lease ∈ s.active, lease.cue.Conflicts cue →
      lease.cue.priority.value ≤ cue.priority.value)
    (hlimits : s.WithinLimits cue now) : Effect op now s ((s.popped cue).launched cue now)
  /-- A neutral cue is restored. -/
  | restore {s layer cue factory} (hfactory : s.neutralFactory = some factory)
    (hconn : s.connected = true) (hcue : factory s.neutralCalls layer s.generation now = .ok cue)
    (hlayer : cue.layer = layer) (hgen : cue.generation = s.generation)
    (hneutral : cue.neutral = true) (hfree : s.activeByLayer layer = none)
    (hfits : ∀ lease ∈ s.active, ¬lease.cue.Conflicts cue) :
    Effect op now s ((s.asked layer (.ok cue)).begun (.indefinite cue now) now)
  /-- The neutral factory is called in vain. -/
  | call {s layer} (answer : Except String PresentationCue) :
    Effect op now s (s.asked layer answer)
  /-- A layer has a cue again. -/
  | settle {s layer} (hlayer : (s.activeByLayer layer).isSome = true) :
    Effect op now s { s with needsNeutral := s.needsNeutral.erase layer }
  /-- A cue is queued. -/
  | queue {s cue binding} (hop : op = .submit cue) (hbinding : cue.audioBinding = some binding)
    (hvalid : s.validateSubmission cue now = none)
    (hroom : s.pending.length < s.policy.maxPending) : Effect op now s (s.queued cue binding)
  /-- Pending cues are given up. -/
  | dequeue {s} (p : PendingCue → Bool) : Effect op now s { s with pending := s.pending.filter p }
  /-- An audio marker arrives. -/
  | notify {s marker} (hop : op = .notifyAudio marker) (hconn : s.connected = true)
    (hgen : marker.generation = s.generation) : Effect op now s (s.notified marker)
  /-- Cooldowns that are over are forgotten. -/
  | purge {s} : Effect op now s { s with
      cooldownUntil := fun key => (s.cooldownUntil key).filter fun til => now < til }
  /-- Starts that have left their window are forgotten. -/
  | prune {s globalStarts layerStarts} (h : s.Pruned now globalStarts layerStarts) :
    Effect op now s { s with globalStarts, layerStarts }

/-- A sequence of effects. -/
abbrev Effects (op : SchedulerOperation) (now : ℚ) :
    PresentationScheduler → PresentationScheduler → Prop :=
  Relation.ReflTransGen (Effect op now)

variable {op : SchedulerOperation} {now : ℚ} {s t : PresentationScheduler} {lease : ActiveLease}
  {cue : PresentationCue} {reason : StopReason} {replacedBy : Option Text} {needs : Bool}

/-- What every effect preserves, a sequence of effects does. -/
theorem Effects.invariant {I : PresentationScheduler → Prop} (h : Effects op now s t) (hs : I s)
    (hstep : ∀ u v, I u → Effect op now u v → I v) : I t := by
  induction h with
  | refl => exact hs
  | tail _ hstep' ih => exact hstep _ _ ih hstep'

/-! ### Ending leases -/

section Ending

variable {leases : List ActiveLease} {needsOf : ActiveLease → Bool}

theorem mem_sortedActive : lease ∈ s.sortedActive ↔ lease ∈ s.active := List.mem_insertionSort _

theorem nodup_sortedActive (s : PresentationScheduler) : s.sortedActive.Nodup :=
  (List.perm_insertionSort _ _).nodup_iff.mpr s.active.nodup_values

theorem mem_conflictingLeases :
    lease ∈ s.conflictingLeases cue ↔ lease ∈ s.active ∧ lease.cue.Conflicts cue := by
  rw [conflictingLeases, List.mem_insertionSort, List.mem_filter, decide_eq_true_iff,
    Keyed.mem_values]

theorem nodup_conflictingLeases (s : PresentationScheduler) (cue : PresentationCue) :
    (s.conflictingLeases cue).Nodup :=
  (List.perm_insertionSort _ _).nodup_iff.mpr (s.active.nodup_values.filter _)

theorem endedAll_cons : s.endedAll now reason replacedBy needsOf (lease :: leases) =
    (s.ended now reason replacedBy (needsOf lease) lease).endedAll now reason replacedBy needsOf
      leases := rfl

/-- **Ending leases, by induction.** What ending one active lease preserves,
ending several different ones does. -/
theorem endedAll_induction {I : PresentationScheduler → Prop} (hs : I s)
    (hmem : ∀ lease ∈ leases, lease ∈ s.active) (hnd : leases.Nodup)
    (hstep : ∀ u, ∀ lease ∈ leases, I u → lease ∈ u.active →
      I (u.ended now reason replacedBy (needsOf lease) lease)) :
    I (s.endedAll now reason replacedBy needsOf leases) := by
  induction leases generalizing s with
  | nil => exact hs
  | cons lease rest ih =>
    obtain ⟨hnot, hnd⟩ := List.nodup_cons.mp hnd
    have hlease := hmem lease List.mem_cons_self
    rw [endedAll_cons]
    refine ih (hstep s lease List.mem_cons_self hs hlease) ?_ hnd
      fun u l hl => hstep u l (List.mem_cons_of_mem _ hl)
    intro other hother
    have hact := hmem other (List.mem_cons_of_mem _ hother)
    refine Keyed.mem_erase.mpr ⟨hact, fun hid => hnot ?_⟩
    rwa [← Keyed.eq_of_key hact hlease hid]

theorem mem_endedAll_active {l : ActiveLease} :
    l ∈ (s.endedAll now reason replacedBy needsOf leases).active ↔
      l ∈ s.active ∧ ∀ lease ∈ leases, l.cue.cueId ≠ lease.cue.cueId := by
  induction leases generalizing s with
  | nil => simp [endedAll]
  | cons lease rest ih =>
    rw [endedAll_cons, ih, List.forall_mem_cons, ← and_assoc]
    exact and_congr_left' Keyed.mem_erase

/-- What ending a lease leaves alone, ending several does. -/
theorem endedAll_frame {α : Type} (f : PresentationScheduler → α)
    (hf : ∀ u needs lease, f (u.ended now reason replacedBy needs lease) = f u) :
    f (s.endedAll now reason replacedBy needsOf leases) = f s := by
  induction leases generalizing s with
  | nil => rfl
  | cons lease rest ih => rw [endedAll_cons, ih, hf]

section Frame

variable (now reason replacedBy needsOf leases s)

@[simp] theorem endedAll_generation :
    (s.endedAll now reason replacedBy needsOf leases).generation = s.generation :=
  endedAll_frame (·.generation) fun _ _ _ => rfl

@[simp] theorem endedAll_policy :
    (s.endedAll now reason replacedBy needsOf leases).policy = s.policy :=
  endedAll_frame (·.policy) fun _ _ _ => rfl

@[simp] theorem endedAll_neutralFactory :
    (s.endedAll now reason replacedBy needsOf leases).neutralFactory = s.neutralFactory :=
  endedAll_frame (·.neutralFactory) fun _ _ _ => rfl

@[simp] theorem endedAll_connected :
    (s.endedAll now reason replacedBy needsOf leases).connected = s.connected :=
  endedAll_frame (·.connected) fun _ _ _ => rfl

@[simp] theorem endedAll_pending :
    (s.endedAll now reason replacedBy needsOf leases).pending = s.pending :=
  endedAll_frame (·.pending) fun _ _ _ => rfl

@[simp] theorem endedAll_audioMarkers :
    (s.endedAll now reason replacedBy needsOf leases).audioMarkers = s.audioMarkers :=
  endedAll_frame (·.audioMarkers) fun _ _ _ => rfl

@[simp] theorem endedAll_cooldownUntil :
    (s.endedAll now reason replacedBy needsOf leases).cooldownUntil = s.cooldownUntil :=
  endedAll_frame (·.cooldownUntil) fun _ _ _ => rfl

@[simp] theorem endedAll_globalStarts :
    (s.endedAll now reason replacedBy needsOf leases).globalStarts = s.globalStarts :=
  endedAll_frame (·.globalStarts) fun _ _ _ => rfl

@[simp] theorem endedAll_layerStarts :
    (s.endedAll now reason replacedBy needsOf leases).layerStarts = s.layerStarts :=
  endedAll_frame (·.layerStarts) fun _ _ _ => rfl

@[simp] theorem endedAll_neutralCalls :
    (s.endedAll now reason replacedBy needsOf leases).neutralCalls = s.neutralCalls :=
  endedAll_frame (·.neutralCalls) fun _ _ _ => rfl

end Frame

theorem endedAll_journal : (s.endedAll now reason replacedBy needsOf leases).journal =
    s.journal ++ stopEvents now reason replacedBy s.sequence leases := by
  induction leases generalizing s with
  | nil => exact (List.append_nil _).symm
  | cons lease rest ih =>
    rw [endedAll_cons, ih, stopEvents]
    exact List.append_assoc _ [_] _

/-- Ending all leases leaves none. -/
theorem not_mem_endedAll_sortedActive {u : PresentationScheduler} (hu : u.active = s.active)
    {l : ActiveLease} :
    l ∉ (u.endedAll now reason replacedBy needsOf s.sortedActive).active := by
  rw [mem_endedAll_active, hu]
  rintro ⟨hl, hne⟩
  exact hne l (mem_sortedActive.mpr hl) rfl

theorem mem_stopEvents {e : PresentationEvent} {n : ℕ}
    (h : e ∈ stopEvents now reason replacedBy n leases) :
    ∃ lease ∈ leases, e.kind = .stopped ∧ e.cue = lease.cue ∧ e.occurredAt = now ∧
      e.reason = some reason ∧ e.replacedBy = replacedBy := by
  induction leases generalizing n with
  | nil => cases h
  | cons lease rest ih =>
    rcases List.mem_cons.mp h with rfl | h
    · exact ⟨lease, List.mem_cons_self, rfl, rfl, rfl, rfl, rfl⟩
    · obtain ⟨l, hl, hrest⟩ := ih h
      exact ⟨l, List.mem_cons_of_mem _ hl, hrest⟩

theorem outcome_endLease (h : lease ∈ s.active) :
    outcome (endLease now reason replacedBy needs lease) s =
      (.ok ⟨s.sequence + 1, .stopped, lease.cue, now, some reason, replacedBy⟩,
        s.ended now reason replacedBy needs lease) := by
  have hfind : s.active.find? lease.cue.cueId = some lease := Keyed.find?_key h
  rw [endLease, removeActive]
  simp only [bind_assoc, outcome_get_bind, outcome_modify_bind, hfind, pure_bind]
  rfl

variable (now reason replacedBy needsOf) in
/-- **The loops that end leases.** -/
theorem outcome_endLeases (hmem : ∀ lease ∈ leases, lease ∈ s.active) (hnd : leases.Nodup) :
    outcome (leases.mapM fun lease => endLease now reason replacedBy (needsOf lease) lease) s =
      (.ok (stopEvents now reason replacedBy s.sequence leases),
        s.endedAll now reason replacedBy needsOf leases) := by
  induction leases generalizing s with
  | nil => rfl
  | cons lease rest ih =>
    obtain ⟨hnot, hnd⟩ := List.nodup_cons.mp hnd
    have hlease := hmem lease List.mem_cons_self
    have hrest : ∀ l ∈ rest,
        l ∈ (s.ended now reason replacedBy (needsOf lease) lease).active := by
      intro l hl
      have hact := hmem l (List.mem_cons_of_mem _ hl)
      refine Keyed.mem_erase.mpr ⟨hact, fun hid => hnot ?_⟩
      rwa [← Keyed.eq_of_key hact hlease hid]
    rw [List.mapM_cons, outcome_bind_of_ok (outcome_endLease hlease),
      outcome_bind_of_ok (ih hrest hnd)]
    rfl

end Ending

/-! ### The methods

Each method takes the scheduler it is called on from effect to effect, and what
it returns is what it appends to the journal. -/

/-- From `s` to `t` by effects that build the events `es`. -/
def Steps (op : SchedulerOperation) (now : ℚ) (s : PresentationScheduler)
    (es : List PresentationEvent) (t : PresentationScheduler) : Prop :=
  Effects op now s t ∧ t.journal = s.journal ++ es

section Methods

variable {u : PresentationScheduler} {es more : List PresentationEvent}
  {layer : PresentationLayer} {factory : NeutralFactory}

theorem Steps.refl (s : PresentationScheduler) : Steps op now s [] s :=
  ⟨.refl, (List.append_nil _).symm⟩

theorem Steps.trans (h : Steps op now s es t) (h' : Steps op now t more u) :
    Steps op now s (es ++ more) u :=
  ⟨h.1.trans h'.1, by rw [h'.2, h.2, List.append_assoc]⟩

theorem Steps.effect (h : Effect op now s t) (hjournal : t.journal = s.journal ++ es) :
    Steps op now s es t :=
  ⟨.single h, hjournal⟩

/-- An effect that builds no event. -/
theorem Steps.silent (h : Effect op now s t) (hjournal : t.journal = s.journal) :
    Steps op now s [] t :=
  .effect h (by rw [hjournal, List.append_nil])

/-- No active lease is over. -/
def Swept (now : ℚ) (s : PresentationScheduler) : Prop :=
  ∀ lease ∈ s.active, lease.expired now = false

variable (op) in
theorem triple_expire : Triple (fun t => s = t) (expire now)
    (fun es t => Steps op now s es t ∧
      (∀ e ∈ es, e.kind = .stopped ∧ e.reason = some .leaseExpired) ∧ Swept now t ∧
      t.connected = s.connected ∧ t.generation = s.generation) fun _ => False := by
  have hmem : ∀ lease ∈ s.sortedActive.filter (fun l => l.expired now), lease ∈ s.active :=
    fun lease hl => mem_sortedActive.mp (List.mem_of_mem_filter hl)
  have hnd : (s.sortedActive.filter fun l => l.expired now).Nodup := s.nodup_sortedActive.filter _
  rintro _ rfl
  rw [expire, outcome_get_bind,
    outcome_bind_of_ok (outcome_endLeases _ _ _ (fun _ => true) hmem hnd),
    outcome_modify_bind, outcome_modify_bind, outcome_pure]
  set v := s.endedAll now .leaseExpired none (fun _ => true)
    (s.sortedActive.filter fun l => l.expired now) with hv
  have heffects : Effects op now s v := endedAll_induction .refl hmem hnd
    fun w lease hl hw hact => hw.tail (.expire hact (by simpa using (List.mem_filter.mp hl).2))
  refine ⟨⟨(heffects.tail (.dequeue _)).tail .purge, ?_⟩, fun e he => ?_, ?_, ?_, ?_⟩
  · show v.journal = _
    rw [hv, endedAll_journal]
  · obtain ⟨-, -, hkind, -, -, hreason, -⟩ := mem_stopEvents he
    exact ⟨hkind, hreason⟩
  · intro lease hlease
    obtain ⟨hact, hne⟩ := mem_endedAll_active.mp hlease
    by_contra hexp
    exact hne lease (List.mem_filter.mpr ⟨mem_sortedActive.mpr hact, by simpa using hexp⟩) rfl
  · exact endedAll_connected ..
  · exact endedAll_generation ..

theorem outcome_beginLease : outcome (beginLease lease now) s =
    (.ok ⟨s.sequence + 1, .started, lease.cue, now, none, none⟩, s.begun lease now) := rfl

theorem outcome_callNeutralFactory (s : PresentationScheduler) (factory : NeutralFactory)
    (layer : PresentationLayer) (now : ℚ) :
    outcome (callNeutralFactory factory layer now) s =
      (factory s.neutralCalls layer s.generation now,
        s.asked layer (factory s.neutralCalls layer s.generation now)) := by
  rw [callNeutralFactory, outcome_get_bind, outcome_modify_bind, outcome_bind, outcome_lift]
  rcases factory s.neutralCalls layer s.generation now with e | cue
  · rfl
  · rfl

variable (op) in
theorem triple_callNeutralFactory :
    Triple (fun t => s = t) (callNeutralFactory factory layer now)
      (fun cue t => factory s.neutralCalls layer s.generation now = .ok cue ∧
        s.asked layer (.ok cue) = t) (Effects op now s) := by
  rintro _ rfl
  rw [outcome_callNeutralFactory]
  rcases factory s.neutralCalls layer s.generation now with e | cue
  · exact .single (.call (.error e))
  · exact ⟨rfl, rfl⟩

variable (op) in
/-- One layer's turn. -/
theorem triple_restoreNeutral (hfactory : s.neutralFactory = some factory)
    (hconn : s.connected = true) :
    Triple (fun t => s = t) (restoreNeutral factory now layer)
      (fun es t => Steps op now s es t ∧ t.neutralFactory = some factory ∧ t.connected = true)
      (Effects op now s) := by
  rw [restoreNeutral]
  refine Triple.read ?_
  split
  -- the layer is taken
  · rename_i hlayer
    refine Triple.change (Triple.answer ?_)
    rintro _ rfl
    exact ⟨.silent (.settle hlayer) rfl, hfactory, hconn⟩
  · rename_i hlayer
    have hfree : s.activeByLayer layer = none := by simpa using hlayer
    refine Triple.bind (triple_callNeutralFactory op) fun cue => Triple.each ?_
    rintro _ ⟨hcue, rfl⟩
    -- that the factory was asked is recorded, whatever it answers
    have hasked : Effect op now s (s.asked layer (.ok cue)) := .call _
    split
    -- it has answered with a cue that is not a neutral one of this layer and generation
    · refine Triple.raise ?_
      rintro _ rfl
      exact .single hasked
    rename_i hvalid
    simp only [not_or, not_not, Bool.not_eq_false] at hvalid
    obtain ⟨hcl, hcg, hcn⟩ := hvalid
    split
    -- the cue has another layer in its way
    · refine Triple.answer ?_
      rintro _ rfl
      exact ⟨.silent hasked rfl, hfactory, hconn⟩
    · rename_i hconf
      have hfits : ∀ lease ∈ s.active, ¬lease.cue.Conflicts cue := by
        intro lease hl hcf
        have := mem_conflictingLeases.mpr ⟨hl, hcf⟩
        rw [not_not.mp hconf] at this
        exact List.not_mem_nil this
      rintro _ rfl
      rw [outcome_bind_of_ok outcome_beginLease, outcome_pure]
      exact ⟨.effect (.restore hfactory hconn hcue hcl hcg hcn hfree hfits) rfl, hfactory, hconn⟩

variable (op) in
theorem triple_restoreNeutrals : Triple (fun t => s = t) (restoreNeutrals now)
    (fun es t => Steps op now s es t) (Effects op now s) := by
  rw [restoreNeutrals]
  refine Triple.read ?_
  split
  · refine Triple.answer ?_
    rintro _ rfl
    exact .refl s
  · rename_i hconn
    split
    · refine Triple.answer ?_
      rintro _ rfl
      exact .refl s
    · rename_i factory hf
      have hloop := Triple.mapM (E := Effects op now s) (g := restoreNeutral factory now)
        (I := fun _ answers t => Steps op now s answers.flatten t ∧
          t.neutralFactory = some factory ∧ t.connected = true)
        (fun layer rest answers => Triple.each fun t ⟨hs, hft, hct⟩ =>
          (triple_restoreNeutral op hft hct).weaken (fun _ => id)
            (fun more u hu => ⟨by rw [List.flatten_concat]; exact hs.trans hu.1, hu.2⟩)
            fun u hu => hs.1.trans hu)
        (PresentationLayer.inOrder s.needsNeutral)
      refine (hloop.pre ?_).bind fun answers => Triple.answer fun t ht => ht.1
      rintro _ rfl
      exact ⟨.refl s, hf, by simpa using hconn⟩

/-! ### Starting a cue -/

theorem outcome_withinGlobalLimit (s : PresentationScheduler) (now : ℚ) : ∃ ok globalStarts,
    outcome (withinGlobalLimit now) s = (.ok ok, { s with globalStarts }) ∧
      (globalStarts = s.globalStarts ∨ ∃ limit ∈ s.policy.globalRateLimit,
        globalStarts = prune limit.windowS now s.globalStarts) ∧
      (ok = true → ∀ limit ∈ s.policy.globalRateLimit, globalStarts.length < limit.maxStarts) := by
  rw [withinGlobalLimit, outcome_get_bind]
  rcases s.policy.globalRateLimit with _ | limit
  · exact ⟨true, s.globalStarts, rfl, .inl rfl, by simp⟩
  · refine ⟨_, _, rfl, .inr ⟨limit, rfl, rfl⟩, fun hok limit' hlimit => ?_⟩
    cases hlimit
    exact of_decide_eq_true hok

theorem outcome_withinLayerLimit (s : PresentationScheduler) (layer : PresentationLayer)
    (now : ℚ) : ∃ ok layerStarts,
    outcome (withinLayerLimit layer now) s = (.ok ok, { s with layerStarts }) ∧
      (∀ l, layerStarts l = s.layerStarts l ∨ ∃ limit ∈ s.policy.layerRateLimits l,
        layerStarts l = prune limit.windowS now (s.layerStarts l)) ∧
      (ok = true → ∀ limit ∈ s.policy.layerRateLimits layer,
        (layerStarts layer).length < limit.maxStarts) := by
  rw [withinLayerLimit, outcome_get_bind]
  rcases hl : s.policy.layerRateLimits layer with _ | limit
  · exact ⟨true, s.layerStarts, rfl, fun _ => .inl rfl, by simp⟩
  · refine ⟨_, _, rfl, fun l => ?_, fun hok limit' hlimit => ?_⟩
    · by_cases hlayer : l = layer
      · subst hlayer
        exact .inr ⟨limit, hl, Function.update_self _ _ _⟩
      · exact .inl (Function.update_of_ne hlayer _ _)
    · cases hlimit
      exact of_decide_eq_true hok

/-- **The limits are consulted**, and nothing else changes. -/
theorem outcome_limitRejection (s : PresentationScheduler) (cue : PresentationCue) (now : ℚ) :
    ∃ rejection globalStarts layerStarts,
      outcome (limitRejection cue now) s = (.ok rejection, { s with globalStarts, layerStarts }) ∧
      s.Pruned now globalStarts layerStarts ∧
      (rejection = none → WithinLimits { s with globalStarts, layerStarts } cue now) ∧
      ∀ result ∈ rejection, result.cue = cue ∧ result.events = [] ∧
        (result.status = .rejectedCooldown ∨ result.status = .rejectedRateLimit) := by
  have hsame : s.Pruned now s.globalStarts s.layerStarts := ⟨.inl rfl, fun _ => .inl rfl⟩
  rw [limitRejection, outcome_get_bind]
  split
  -- the cue is exempt
  · rename_i hl
    exact ⟨none, s.globalStarts, s.layerStarts, rfl, hsame,
      fun _ hlimited => by simp [hlimited] at hl, by simp⟩
  · split
    -- its cooldown is not over
    · refine ⟨_, s.globalStarts, s.layerStarts, rfl, hsame, fun h => (by cases h), ?_⟩
      rintro _ ⟨⟩
      exact ⟨rfl, rfl, .inl rfl⟩
    · rename_i hcool
      have hcool : ∀ key ∈ cue.cooldownKey, ∀ til ∈ s.cooldownUntil key, til ≤ now := by
        intro key hkey til htil
        rw [Option.mem_def.mp hkey, Option.any_some, Option.mem_def.mp htil, Option.any_some,
          decide_eq_true_iff, not_lt] at hcool
        exact hcool
      obtain ⟨ok, g, hg, hgp, hgok⟩ := outcome_withinGlobalLimit s now
      rcases ok with _ | _
      -- with the limit of all layers reached, the limit of the layer is not consulted
      · have hout : outcome (withinRateLimits cue.layer now) s =
            (.ok false, { s with globalStarts := g }) := by
          rw [withinRateLimits, outcome_bind_of_ok hg]
          rfl
        rw [outcome_bind_of_ok hout]
        refine ⟨_, g, s.layerStarts, rfl, ⟨hgp, fun _ => .inl rfl⟩, fun h => (by cases h), ?_⟩
        rintro _ ⟨⟩
        exact ⟨rfl, rfl, .inr rfl⟩
      · obtain ⟨ok, l, hl, hlp, hlok⟩ :=
          outcome_withinLayerLimit { s with globalStarts := g } cue.layer now
        have hout : outcome (withinRateLimits cue.layer now) s =
            (.ok ok, { s with globalStarts := g, layerStarts := l }) := by
          rw [withinRateLimits, outcome_bind_of_ok hg]
          exact hl
        rw [outcome_bind_of_ok hout]
        rcases ok with _ | _
        · refine ⟨_, g, l, rfl, ⟨hgp, hlp⟩, fun h => (by cases h), ?_⟩
          rintro _ ⟨⟩
          exact ⟨rfl, rfl, .inr rfl⟩
        · exact ⟨none, g, l, rfl, ⟨hgp, hlp⟩, fun _ _ => ⟨hcool, hgok rfl, hlok rfl⟩, by simp⟩

/-- **A start.** -/
theorem outcome_startCue (s : PresentationScheduler) (cue : PresentationCue) (now : ℚ) :
    ∃ result, outcome (startCue cue now) s = (.ok result, s.launched cue now) ∧
      result.status = .started ∧ result.cue = cue ∧
      (s.launched cue now).journal = s.journal ++ result.events := by
  have hstops := outcome_endLeases now .preempted (some cue.cueId)
    (fun lease => lease.cue.layer ≠ cue.layer) (s := s) (fun lease hl =>
      (mem_conflictingLeases.mp hl).1)
    (s.nodup_conflictingLeases cue)
  have hcharge : ∀ u : PresentationScheduler,
      outcome (chargeStart cue now) u = (.ok (), u.charged cue now) := fun _ => rfl
  have hjournal : (s.preempted cue now).journal = s.journal ++
      stopEvents now .preempted (some cue.cueId) s.sequence (s.conflictingLeases cue) :=
    endedAll_journal
  rw [startCue, outcome_get_bind, outcome_bind_of_ok hstops, outcome_bind_of_ok outcome_beginLease,
    launched]
  rcases hl : cue.limited with _ | _
  · refine ⟨_, rfl, rfl, rfl, ?_⟩
    show (s.preempted cue now).journal ++ [_] = _
    rw [hjournal, List.append_assoc]
    rfl
  · rw [if_pos rfl, if_pos rfl, outcome_bind_of_ok (hcharge _)]
    refine ⟨_, rfl, rfl, rfl, ?_⟩
    show (s.preempted cue now).journal ++ [_] = _
    rw [hjournal, List.append_assoc]
    rfl

/-- An active lease of higher priority stands in the way of a cue. -/
def Blocked (s : PresentationScheduler) (cue : PresentationCue) : Prop :=
  ∃ lease ∈ s.active, lease.cue.Conflicts cue ∧ cue.priority.value < lease.cue.priority.value

theorem startRejection_eq_none (h : s.startRejection cue now = none) :
    cue.expired now = false ∧ cue.generation = s.generation ∧ s.connected = true ∧
      ∀ lease ∈ s.active, lease.cue.Conflicts cue →
        lease.cue.priority.value ≤ cue.priority.value := by
  rw [startRejection] at h
  split at h
  · cases h
  rename_i hexp
  split at h
  · cases h
  rename_i hgen
  split at h
  · cases h
  rename_i hconn
  dsimp only at h
  split at h
  · rename_i hmax
    rw [List.argmax_eq_none] at hmax
    refine ⟨by simpa using hexp, not_not.mp hgen, by simpa using hconn, fun lease hl hcf => ?_⟩
    by_contra hlt
    have : lease ∈ (s.conflictingLeases cue).filter fun l =>
        cue.priority.value < l.cue.priority.value :=
      List.mem_filter.mpr ⟨mem_conflictingLeases.mpr ⟨hl, hcf⟩, by simpa using hlt⟩
    rw [hmax] at this
    exact List.not_mem_nil this
  · cases h

theorem startRejection_eq_some {result : ScheduleResult}
    (h : s.startRejection cue now = some result) :
    result.cue = cue ∧ result.events = [] ∧ result.status ≠ .started ∧
      (result.status = .rejectedPriority → s.Blocked cue) := by
  rw [startRejection] at h
  split at h
  · cases h
    exact ⟨rfl, rfl, by simp, by simp⟩
  split at h
  · cases h
    refine ⟨rfl, rfl, ?_⟩
    dsimp only
    split
    · exact ⟨by simp, by simp⟩
    · exact ⟨by simp, by simp⟩
  split at h
  · cases h
    exact ⟨rfl, rfl, by simp, by simp⟩
  dsimp only at h
  split at h
  · cases h
  · rename_i blocker hmax
    cases h
    obtain ⟨hmem, hlt⟩ := List.mem_filter.mp (List.argmax_mem hmax)
    obtain ⟨hact, hcf⟩ := mem_conflictingLeases.mp hmem
    exact ⟨rfl, rfl, by simp, fun _ => ⟨blocker, hact, hcf, by simpa using hlt⟩⟩

theorem launched_pending : (s.launched cue now).pending = s.pending := by
  have hp : ((s.preempted cue now).begun (.grant cue now) now).pending = s.pending :=
    endedAll_pending ..
  rw [launched]
  split
  · exact hp
  · exact hp

/-- **An attempt to start a cue** that was taken out of the queue, if it was in it. -/
theorem triple_attemptStart (hready : Ready op now s cue) :
    Triple (fun t => s.popped cue = t) (attemptStart cue now)
      (fun result t => Steps op now s result.events t ∧
        t.pending = (s.popped cue).pending ∧ result.cue = cue ∧
        (result.status = .rejectedPriority → s.Blocked cue)) fun _ => False := by
  rintro _ rfl
  rw [attemptStart, outcome_get_bind]
  rcases hr : (s.popped cue).startRejection cue now with _ | rejection
  -- only a limit may still be in the way
  · obtain ⟨hexp, hgen, hconn, hprio⟩ := startRejection_eq_none hr
    obtain ⟨rejection, g, l, hout, hpruned, hwithin, hrej⟩ :=
      outcome_limitRejection (s.popped cue) cue now
    have hprune : Effect op now s { s with globalStarts := g, layerStarts := l } := .prune hpruned
    dsimp only
    rw [outcome_bind_of_ok hout]
    rcases rejection with _ | rejection
    · obtain ⟨result, hstart, hstatus, hcue, hjournal⟩ :=
        outcome_startCue { s.popped cue with globalStarts := g, layerStarts := l } cue now
      dsimp only
      rw [hstart]
      refine ⟨⟨(Relation.ReflTransGen.single hprune).tail ?_, hjournal⟩, launched_pending, hcue,
        fun h => ?_⟩
      · exact .start hready hexp hgen hconn hprio (hwithin rfl)
      · rw [hstatus] at h
        cases h
    -- a limit is reached, and the cue has left the queue
    · obtain ⟨hcue, hevents, hstatus⟩ := hrej rejection rfl
      refine ⟨⟨(Relation.ReflTransGen.single hprune).tail (.dequeue _), ?_⟩, rfl, hcue,
        fun h => ?_⟩
      · rw [hevents, List.append_nil]
        rfl
      · rw [h] at hstatus
        rcases hstatus with hstatus | hstatus
        · cases hstatus
        · cases hstatus
  -- the cue is late, of another generation, or blocked
  · obtain ⟨hcue, hevents, -, hblocked⟩ := startRejection_eq_some hr
    refine ⟨⟨.single (.dequeue _), ?_⟩, rfl, hcue, hblocked⟩
    rw [hevents, List.append_nil]
    rfl

end Methods

end Eeveetuber.PresentationScheduler
