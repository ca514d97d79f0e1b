import Eeveetuber.Avatar.SchedulerRuns

/-!
# Leases exclude each other

What the maps of the scheduler have to do with one another: the index by layer
is the inverse of the active leases, active leases share no resource, no cue is
active and pending at once, nothing of an older generation is left, the queues
are bounded, and a disconnected scheduler holds nothing
(`Eeveetuber.PresentationScheduler.Exclusive`).

The argument goes effect by effect. Ending a lease takes it out of the map and
its layer out of the index; beginning one needs a layer, a set of resources and
an id that are free, and each of the two ways in which a lease begins provides
them – a cue that is started has just ended every lease in its way and was
neither active nor pending, a neutral cue that is restored was refused if
anything was in its way. Only the id of a neutral cue is a matter of trust: a
factory that answered one id for two layers would overwrite a lease.
-/

namespace Eeveetuber

open Foundation PresentationScheduler

namespace PresentationScheduler

variable {op : SchedulerOperation} {now : ℚ} {s t : PresentationScheduler} {lease : ActiveLease}
  {leases : List ActiveLease} {cue : PresentationCue} {reason : StopReason}
  {replacedBy : Option Text} {needs : Bool} {needsOf : ActiveLease → Bool}

/-! ### The index -/

/-- The index by layer is the inverse of the active leases. -/
def Indexed (s : PresentationScheduler) : Prop :=
  ∀ layer cueId, s.activeByLayer layer = some cueId ↔
    ∃ lease ∈ s.active, lease.cue.cueId = cueId ∧ lease.cue.layer = layer

/-- Hence there is at most one active lease on a layer. -/
theorem Indexed.eq_of_layer (h : s.Indexed) {a b : ActiveLease} (ha : a ∈ s.active)
    (hb : b ∈ s.active) (hlayer : a.cue.layer = b.cue.layer) : a = b := by
  have hia := (h a.cue.layer a.cue.cueId).mpr ⟨a, ha, rfl, rfl⟩
  have hib := (h b.cue.layer b.cue.cueId).mpr ⟨b, hb, rfl, rfl⟩
  rw [hlayer, hib, Option.some.injEq] at hia
  exact Keyed.eq_of_key ha hb hia.symm

theorem Indexed.eq_none (h : s.Indexed) {layer : PresentationLayer} :
    s.activeByLayer layer = none ↔ ∀ lease ∈ s.active, lease.cue.layer ≠ layer := by
  rw [Option.eq_none_iff_forall_ne_some]
  constructor
  · intro hnone lease hl hlayer
    exact hnone _ ((h layer lease.cue.cueId).mpr ⟨lease, hl, rfl, hlayer⟩)
  · intro hnone cueId hid
    obtain ⟨lease, hl, -, hlayer⟩ := (h layer cueId).mp hid
    exact hnone lease hl hlayer

theorem Indexed.ended (h : s.Indexed) (hl : lease ∈ s.active) :
    (s.ended now reason replacedBy needs lease).Indexed := by
  have hidx : s.activeByLayer lease.cue.layer = some lease.cue.cueId :=
    (h _ _).mpr ⟨lease, hl, rfl, rfl⟩
  intro layer cueId
  have hmap : (s.ended now reason replacedBy needs lease).activeByLayer =
      Function.update s.activeByLayer lease.cue.layer none := if_pos hidx
  have hactive : ∀ a, a ∈ (s.ended now reason replacedBy needs lease).active ↔
      a ∈ s.active ∧ a.cue.cueId ≠ lease.cue.cueId := fun _ => Keyed.mem_erase
  rw [hmap]
  by_cases hlayer : layer = lease.cue.layer
  · subst hlayer
    rw [Function.update_self]
    refine iff_of_false (by simp) ?_
    rintro ⟨a, ha, -, halayer⟩
    obtain ⟨ha, hne⟩ := (hactive a).mp ha
    exact hne (by rw [h.eq_of_layer ha hl halayer])
  · rw [Function.update_of_ne hlayer, h]
    constructor
    · rintro ⟨a, ha, hid, halayer⟩
      refine ⟨a, (hactive a).mpr ⟨ha, fun hsame => hlayer ?_⟩, hid, halayer⟩
      rw [← halayer, Keyed.eq_of_key ha hl hsame]
    · rintro ⟨a, ha, hid, halayer⟩
      exact ⟨a, ((hactive a).mp ha).1, hid, halayer⟩

theorem Indexed.endedAll (h : s.Indexed) (hmem : ∀ lease ∈ leases, lease ∈ s.active)
    (hnd : leases.Nodup) : (s.endedAll now reason replacedBy needsOf leases).Indexed :=
  endedAll_induction h hmem hnd fun _ _ _ hu hact => hu.ended hact

/-- A lease on a free layer, under a free id. -/
theorem Indexed.begun (h : s.Indexed) (hlayer : ∀ a ∈ s.active, a.cue.layer ≠ lease.cue.layer)
    (hid : ∀ a ∈ s.active, a.cue.cueId ≠ lease.cue.cueId) : (s.begun lease now).Indexed := by
  intro layer cueId
  have hactive : ∀ a, a ∈ (s.begun lease now).active ↔
      a = lease ∨ a ∈ s.active ∧ a.cue.cueId ≠ lease.cue.cueId := fun _ => Keyed.mem_insert
  rw [PresentationScheduler.begun]
  dsimp only
  by_cases hl : layer = lease.cue.layer
  · subst hl
    rw [Function.update_self, Option.some.injEq]
    constructor
    · rintro rfl
      exact ⟨lease, (hactive lease).mpr (.inl rfl), rfl, rfl⟩
    · rintro ⟨a, ha, rfl, halayer⟩
      rcases (hactive a).mp ha with rfl | ⟨ha, -⟩
      · rfl
      · exact absurd halayer (hlayer a ha)
  · rw [Function.update_of_ne hl, h]
    constructor
    · rintro ⟨a, ha, hacue, halayer⟩
      exact ⟨a, (hactive a).mpr (.inr ⟨ha, hid a ha⟩), hacue, halayer⟩
    · rintro ⟨a, ha, hacue, halayer⟩
      rcases (hactive a).mp ha with rfl | ⟨ha, -⟩
      · exact absurd halayer.symm hl
      · exact ⟨a, ha, hacue, halayer⟩

/-! ### The invariant -/

/-- What the maps of the scheduler have to do with one another. -/
structure Exclusive (s : PresentationScheduler) : Prop where
  /-- The index by layer is the inverse of the active leases. -/
  indexed : s.Indexed
  /-- Active leases share no resource. -/
  disjoint : ∀ a ∈ s.active, ∀ b ∈ s.active, a ≠ b → Disjoint a.cue.resources b.cue.resources
  /-- No cue is active and pending. -/
  separate : ∀ lease ∈ s.active, ∀ p ∈ s.pending, lease.cue.cueId ≠ p.cue.cueId
  /-- Everything is of the current generation. -/
  active_current : ∀ lease ∈ s.active, lease.cue.generation = s.generation
  pending_current : ∀ p ∈ s.pending, p.cue.generation = s.generation
  markers_current : ∀ m ∈ s.audioMarkers, m.generation = s.generation
  /-- The queues are bounded. -/
  pending_le : s.pending.length ≤ s.policy.maxPending
  markers_le : s.audioMarkers.length ≤ s.policy.maxAudioMarkers
  /-- A disconnected scheduler holds nothing. -/
  offline : s.connected = false →
    (∀ lease, lease ∉ s.active) ∧ (∀ p, p ∉ s.pending) ∧ ∀ m, m ∉ s.audioMarkers

/-- Every id that is in use is one a submitted cue may have, or that of a
neutral cue which the factory answered for the layer it is on. -/
def Known (s : PresentationScheduler) : Prop :=
  ∀ factory ∈ s.neutralFactory,
    (∀ p ∈ s.pending, Unclaimed factory p.cue.cueId) ∧
    ∀ lease ∈ s.active, Unclaimed factory lease.cue.cueId ∨
      ∃ n time, factory n lease.cue.layer lease.cue.generation time = .ok lease.cue

theorem exclusive_create (generation : ℕ) (policy : SchedulerPolicy)
    (neutralFactory : Option NeutralFactory) :
    (create generation policy neutralFactory).Exclusive where
  indexed layer cueId := iff_of_false (fun h => by cases h) (fun ⟨_, h, _⟩ => Keyed.not_mem_empty h)
  disjoint _ h := absurd h Keyed.not_mem_empty
  separate _ h := absurd h Keyed.not_mem_empty
  active_current _ h := absurd h Keyed.not_mem_empty
  pending_current _ h := absurd h Keyed.not_mem_empty
  markers_current _ h := absurd h Keyed.not_mem_empty
  pending_le := Nat.zero_le _
  markers_le := Nat.zero_le _
  offline h := by cases h

theorem Exclusive.ended (h : s.Exclusive) (hl : lease ∈ s.active) :
    (s.ended now reason replacedBy needs lease).Exclusive := by
  have hactive : ∀ a, a ∈ (s.ended now reason replacedBy needs lease).active → a ∈ s.active :=
    fun _ ha => (Keyed.mem_erase.mp ha).1
  exact {
    indexed := h.indexed.ended hl
    disjoint := fun a ha b hb => h.disjoint a (hactive a ha) b (hactive b hb)
    separate := fun a ha => h.separate a (hactive a ha)
    active_current := fun a ha => h.active_current a (hactive a ha)
    pending_current := h.pending_current
    markers_current := h.markers_current
    pending_le := h.pending_le
    markers_le := h.markers_le
    offline := fun hc => ⟨fun a ha => (h.offline hc).1 a (hactive a ha), (h.offline hc).2⟩ }

theorem Exclusive.endedAll (h : s.Exclusive) (hmem : ∀ lease ∈ leases, lease ∈ s.active)
    (hnd : leases.Nodup) : (s.endedAll now reason replacedBy needsOf leases).Exclusive :=
  endedAll_induction h hmem hnd fun _ _ _ hu hact => hu.ended hact

/-- A lease that nothing is in the way of. -/
theorem Exclusive.begun (h : s.Exclusive) (hconn : s.connected = true)
    (hgen : lease.cue.generation = s.generation)
    (hfits : ∀ a ∈ s.active, ¬a.cue.Conflicts lease.cue)
    (hid : ∀ a ∈ s.active, a.cue.cueId ≠ lease.cue.cueId)
    (hpending : ∀ p ∈ s.pending, p.cue.cueId ≠ lease.cue.cueId) :
    (s.begun lease now).Exclusive := by
  have hactive : ∀ a, a ∈ (s.begun lease now).active → a = lease ∨ a ∈ s.active :=
    fun _ ha => (Keyed.mem_insert.mp ha).imp_right And.left
  -- the leases that stay share no resource with the new one
  have hshare : ∀ a ∈ s.active, Disjoint a.cue.resources lease.cue.resources := by
    intro a ha
    have := (not_or.mp (hfits a ha)).2
    rwa [Finset.not_nonempty_iff_eq_empty, ← Finset.disjoint_iff_inter_eq_empty] at this
  exact {
    indexed := h.indexed.begun (fun a ha => (not_or.mp (hfits a ha)).1) hid
    disjoint := by
      intro a ha b hb hne
      rcases hactive a ha with rfl | ha'
      · rcases hactive b hb with rfl | hb'
        · exact absurd rfl hne
        · exact (hshare b hb').symm
      · rcases hactive b hb with rfl | hb'
        · exact hshare a ha'
        · exact h.disjoint a ha' b hb' hne
    separate := by
      intro a ha p hp
      rcases hactive a ha with rfl | ha
      · exact (hpending p hp).symm
      · exact h.separate a ha p hp
    active_current := by
      intro a ha
      rcases hactive a ha with rfl | ha
      · exact hgen
      · exact h.active_current a ha
    pending_current := h.pending_current
    markers_current := h.markers_current
    pending_le := h.pending_le
    markers_le := h.markers_le
    offline := fun hc => by
      rw [show s.connected = false from hc] at hconn
      cases hconn }

theorem Exclusive.popped (h : s.Exclusive) : (s.popped cue).Exclusive :=
  { h with
    separate := fun a ha p hp => h.separate a ha p (Keyed.mem_erase.mp hp).1
    pending_current := fun p hp => h.pending_current p (Keyed.mem_erase.mp hp).1
    pending_le := Keyed.length_erase_le.trans h.pending_le
    offline := fun hc => ⟨(h.offline hc).1, fun p hp => (h.offline hc).2.1 p
      (Keyed.mem_erase.mp hp).1, (h.offline hc).2.2⟩ }

/-- A scheduler that holds nothing but perhaps markers. -/
theorem exclusive_of_empty (hidx : s.Indexed) (hactive : ∀ lease, lease ∉ s.active)
    (hpending : s.pending = ∅) (hcurrent : ∀ m ∈ s.audioMarkers, m.generation = s.generation)
    (hmarkers : s.audioMarkers.length ≤ s.policy.maxAudioMarkers)
    (hoffline : s.connected = false → ∀ m, m ∉ s.audioMarkers) : s.Exclusive where
  indexed := hidx
  disjoint a ha := absurd ha (hactive a)
  separate a ha := absurd ha (hactive a)
  active_current a ha := absurd ha (hactive a)
  pending_current p hp := by rw [hpending] at hp; exact absurd hp Keyed.not_mem_empty
  markers_current := hcurrent
  pending_le := by rw [hpending]; exact Nat.zero_le _
  markers_le := hmarkers
  offline hc := ⟨hactive, fun p hp => by rw [hpending] at hp; exact Keyed.not_mem_empty hp,
    hoffline hc⟩

/-! ### Effect by effect -/

theorem Effect.known (h : Effect op now s t) (hk : s.Known)
    (hsubmit : ∀ cue, op = .submit cue → ∀ factory ∈ s.neutralFactory,
      Unclaimed factory cue.cueId) : t.Known := by
  intro factory hfactory
  rw [h.neutralFactory_eq] at hfactory
  obtain ⟨hpending, hactive⟩ := hk factory hfactory
  refine ⟨fun p hp => ?_, fun lease hl => ?_⟩
  · rcases h.mem_pending hp with ⟨q, hq, hcue⟩ | ⟨hop, -⟩
    · rw [← hcue]
      exact hpending q hq
    · exact hsubmit p.cue hop factory hfactory
  · rcases h.mem_active hl with hl | ⟨cue, hready, rfl⟩ | ⟨cue, f, n, hf, hcue, hgen, -, rfl⟩
    · exact hactive lease hl
    · rcases hready with ⟨hop, -, -⟩ | ⟨p, hp, rfl, -⟩
      · exact .inl (hsubmit cue hop factory hfactory)
      · exact .inl (hpending p hp)
    · obtain rfl : factory = f := Option.some.inj (hfactory.symm.trans hf)
      rw [← hgen] at hcue
      exact .inr ⟨n, now, hcue⟩

/-- The id of a cue that may be started is free. -/
theorem Ready.fresh (h : Ready op now s cue) (hs : s.Exclusive) :
    cue.generation = s.generation ∧ ∀ a ∈ s.active, a.cue.cueId ≠ cue.cueId := by
  rcases h with ⟨-, -, hvalid⟩ | ⟨p, hp, rfl, -⟩
  · obtain ⟨-, hgen, -, hactive, -⟩ := validateSubmission_eq_none hvalid
    exact ⟨hgen, hactive⟩
  · exact ⟨hs.pending_current p hp, fun a ha => hs.separate a ha p hp⟩

/-- Nothing conflicts with a cue once what did was stopped. -/
theorem not_conflicts_of_mem_preempted (hl : lease ∈ (s.preempted cue now).active) :
    lease ∈ s.active ∧ ¬lease.cue.Conflicts cue := by
  obtain ⟨hact, hne⟩ := mem_endedAll_active.mp hl
  exact ⟨hact, fun hcf => hne lease (mem_conflictingLeases.mpr ⟨hact, hcf⟩) rfl⟩

theorem Exclusive.launched (hs : s.Exclusive) (hready : Ready op now s cue)
    (hconn : s.connected = true) : ((s.popped cue).launched cue now).Exclusive := by
  obtain ⟨hgen, hid⟩ := hready.fresh hs
  have hpre : ((s.popped cue).preempted cue now).Exclusive := hs.popped.endedAll
    (fun lease hl => (mem_conflictingLeases.mp hl).1) (nodup_conflictingLeases _ _)
  have hbegun : (((s.popped cue).preempted cue now).begun (.grant cue now) now).Exclusive := by
    refine hpre.begun ?_ ?_ (fun a ha => (not_conflicts_of_mem_preempted ha).2)
      (fun a ha => hid a (not_conflicts_of_mem_preempted ha).1) fun p hp => ?_
    · rw [preempted, endedAll_connected]
      exact hconn
    · rw [preempted, endedAll_generation]
      exact hgen
    · rw [preempted, endedAll_pending] at hp
      exact (Keyed.mem_erase.mp hp).2
  rw [PresentationScheduler.launched]
  split
  · exact { hbegun with }
  · exact hbegun

/-- The id of a neutral cue for a free layer is free. -/
theorem Known.fresh (hk : s.Known) (hs : s.Exclusive) {factory : NeutralFactory} {n : ℕ}
    (hfactory : s.neutralFactory = some factory) (hdistinct : DistinctNeutrals factory)
    (hcue : factory n cue.layer s.generation now = .ok cue)
    (hfree : s.activeByLayer cue.layer = none) :
    (∀ a ∈ s.active, a.cue.cueId ≠ cue.cueId) ∧ ∀ p ∈ s.pending, p.cue.cueId ≠ cue.cueId := by
  obtain ⟨hpending, hactive⟩ := hk factory hfactory
  refine ⟨fun a ha hid => ?_, fun p hp hid => ?_⟩
  · rcases hactive a ha with hun | ⟨m, time, ha'⟩
    · exact hun n cue.layer s.generation now cue hcue hid.symm
    · have hlayer : a.cue.layer ≠ cue.layer := hs.indexed.eq_none.mp hfree a ha
      rw [hs.active_current a ha] at ha'
      exact hdistinct m n _ _ _ _ _ _ _ ha' hcue hlayer hid
  · exact hpending p hp n cue.layer s.generation now cue hcue hid.symm

/-- **Every effect keeps leases exclusive.** -/
theorem Effect.exclusive (h : Effect op now s t) (hs : s.Exclusive) (hk : s.Known)
    (hdistinct : ∀ factory ∈ s.neutralFactory, DistinctNeutrals factory) : t.Exclusive := by
  have hall : ∀ l ∈ s.sortedActive, l ∈ s.active := fun l hl => mem_sortedActive.mp hl
  have hnd := s.nodup_sortedActive
  rcases h with ⟨hmem, -⟩ | ⟨-, hmem⟩ | _ | _ | _ | _ | ⟨hready, -, -, hconn, -, -⟩ |
    ⟨hfactory, hconn, hcue, hlayer, hgen, -, hfree, hfits⟩ | _ | _ | ⟨-, -, hvalid, hroom⟩ | _ |
    ⟨-, hconn, hgen⟩ | _ | _
  case expire | cancel => exact hs.ended hmem
  case advance =>
    -- all leases are ended, and the queue and the markers are empty
    refine exclusive_of_empty ?_ (fun l => not_mem_endedAll_sortedActive rfl) ?_ ?_ ?_ ?_
    · exact Indexed.endedAll (s := { s with generation := _, pending := ∅, audioMarkers := ∅ })
        hs.indexed hall hnd
    · exact endedAll_pending ..
    · intro m hm
      rw [advanced, endedAll_audioMarkers] at hm
      exact absurd hm Keyed.not_mem_empty
    · rw [advanced, endedAll_audioMarkers]
      exact Nat.zero_le _
    · intro _ m hm
      rw [advanced, endedAll_audioMarkers] at hm
      exact Keyed.not_mem_empty hm
  case reset =>
    have hmarkers : (s.cleared now).audioMarkers = s.audioMarkers := endedAll_audioMarkers ..
    refine exclusive_of_empty ?_ (fun l => not_mem_endedAll_sortedActive rfl) ?_ ?_ ?_ ?_
    · exact Indexed.endedAll (s := { s with pending := ∅ }) hs.indexed hall hnd
    · exact endedAll_pending ..
    · rw [hmarkers, cleared]
      dsimp only
      rw [endedAll_generation]
      exact hs.markers_current
    · rw [hmarkers, cleared]
      dsimp only
      rw [endedAll_policy]
      exact hs.markers_le
    · rw [hmarkers, cleared]
      dsimp only
      rw [endedAll_connected]
      exact fun hc => (hs.offline hc).2.2
  case disconnect reason _ _ =>
    have hmarkers : (s.dropped reason now).audioMarkers = ∅ := endedAll_audioMarkers ..
    refine exclusive_of_empty ?_ (fun l => not_mem_endedAll_sortedActive rfl) ?_ ?_ ?_ ?_
    · exact Indexed.endedAll (s := { s with
        connected := false, pending := ∅, audioMarkers := ∅, needsNeutral := ∅ }) hs.indexed hall
        hnd
    · exact endedAll_pending ..
    · rw [hmarkers]
      exact fun m hm => absurd hm Keyed.not_mem_empty
    · rw [hmarkers]
      exact Nat.zero_le _
    · rw [hmarkers]
      exact fun _ m => Keyed.not_mem_empty
  case reconnect => exact { hs with offline := fun hc => by cases hc }
  case start => exact hs.launched hready hconn
  case restore layer cue factory =>
    -- a neutral cue is of a free layer, and the factory has never given its id before
    subst hlayer
    obtain ⟨hid, hpending⟩ :=
      hk.fresh hs hfactory (hdistinct _ hfactory) hcue hfree
    exact Exclusive.begun (s := s.asked cue.layer (.ok cue)) { hs with } hconn
      hgen hfits hid hpending
  case queue cue binding =>
    -- the cue has passed validation, and the queue had room for it
    obtain ⟨hconn, hgen, -, hactive, hpending⟩ := validateSubmission_eq_none hvalid
    exact {
      hs with
      separate := by
        intro a ha p hp
        rcases Keyed.mem_insert.mp hp with rfl | ⟨hp, -⟩
        · exact hactive a ha
        · exact hs.separate a ha p hp
      pending_current := by
        intro p hp
        rcases Keyed.mem_insert.mp hp with rfl | ⟨hp, -⟩
        · exact hgen
        · exact hs.pending_current p hp
      pending_le := by
        rw [queued, Keyed.length_insert_of_new hpending]
        exact hroom
      offline := fun hc => by
        rw [show s.connected = false from hc] at hconn
        cases hconn }
  case dequeue =>
    exact {
      hs with
      separate := fun a ha p hp => hs.separate a ha p (Keyed.mem_filter.mp hp).1
      pending_current := fun p hp => hs.pending_current p (Keyed.mem_filter.mp hp).1
      pending_le := Keyed.length_filter_le.trans hs.pending_le
      offline := fun hc => ⟨(hs.offline hc).1, fun p hp => (hs.offline hc).2.1 p
        (Keyed.mem_filter.mp hp).1, (hs.offline hc).2.2⟩ }
  case notify marker =>
    -- the cues that wait are the same, some with their time by now
    have hmem : ∀ p ∈ (s.notified marker).pending, ∃ q ∈ s.pending, q.cue = p.cue := by
      intro p hp
      rw [notified, Keyed.mem_map] at hp
      obtain ⟨q, hq, rfl⟩ := hp
      exact ⟨q, hq, (bindPending_cue _ q).symm⟩
    exact {
      hs with
      separate := by
        intro a ha p hp
        obtain ⟨q, hq, hcue⟩ := hmem p hp
        rw [← hcue]
        exact hs.separate a ha q hq
      pending_current := by
        intro p hp
        obtain ⟨q, hq, hcue⟩ := hmem p hp
        rw [← hcue]
        exact hs.pending_current q hq
      markers_current := by
        intro m hm
        rcases Keyed.mem_insert.mp (Keyed.mem_moveToEnd.mp (Keyed.mem_of_mem_keepLast hm)) with
          rfl | ⟨hm, -⟩
        · exact hgen
        · exact hs.markers_current m hm
      pending_le := by
        rw [notified, Keyed.length_map]
        exact hs.pending_le
      markers_le := Keyed.length_keepLast_le _ _
      offline := fun hc => by
        rw [show s.connected = false from hc] at hconn
        cases hconn }
  all_goals exact { hs with }

end PresentationScheduler

/-! ### In every run -/

theorem exclusive_known {d : SchedulerRun} (h : schedulerMachine.ReachableBy SubmitsUnclaimed d)
    (hdistinct : ∀ factory ∈ d.scheduler.neutralFactory, DistinctNeutrals factory) :
    d.scheduler.Exclusive ∧ d.scheduler.Known := by
  have hinv := scheduler_invariant h (I := fun s =>
    (∀ factory ∈ s.neutralFactory, DistinctNeutrals factory) → s.Exclusive ∧ s.Known) ?_ ?_
  · exact hinv hdistinct
  · exact fun generation policy neutralFactory _ => ⟨exclusive_create _ _ _, fun _ _ =>
      ⟨fun _ hp => absurd hp Keyed.not_mem_empty, fun _ hl => absurd hl Keyed.not_mem_empty⟩⟩
  · intro d op now s t hok heffects hs hstep hd
    rw [hstep.neutralFactory_eq] at hd
    obtain ⟨hexcl, hknown⟩ := hs hd
    refine ⟨hstep.exclusive hexcl hknown hd, hstep.known hknown fun cue hop factory hf => ?_⟩
    exact hok cue hop factory (by rwa [← heffects.neutralFactory_eq])

/-- **Lease exclusivity.** In every run in which no two layers' neutral cues
share an id, nor a neutral cue and a submitted one, the maps of the scheduler
fit together after every operation, and no layer has two leases. -/
theorem scheduler_exclusive (d : SchedulerRun)
    (h : schedulerMachine.ReachableBy SubmitsUnclaimed d)
    (hdistinct : ∀ factory ∈ d.scheduler.neutralFactory, DistinctNeutrals factory) :
    d.scheduler.Exclusive ∧ ∀ a ∈ d.scheduler.active, ∀ b ∈ d.scheduler.active,
      a.cue.layer = b.cue.layer → a = b := by
  have hexcl := (exclusive_known h hdistinct).1
  exact ⟨hexcl, fun a ha b hb => hexcl.indexed.eq_of_layer ha hb⟩

/-- Leases exclude each other after a preemption across layers, which leaves the
gesture layer to its neutral cue. -/
theorem scheduler_exclusive_preempting : ∃ d : SchedulerRun,
    d.scheduler.active.values.map (·.cue.cueId) = ["lean".toList, "gesture".toList] ∧
      d.scheduler.Exclusive := by
  have hrun : (schedulerMachine.run ⟨.create 0 .default (some layerNeutrals), none, []⟩
      [(.submit wave, some 0), (.submit lean, some 1)]).map
      (fun d => d.scheduler.active.values.map (·.cue.cueId)) =
      some ["lean".toList, "gesture".toList] := by decide +kernel
  obtain ⟨d, hd, hactive⟩ := Option.map_eq_some_iff.mp hrun
  obtain ⟨hreach, -, hvalid⟩ :=
    layerNeutrals_run (p := fun _ => True) (fun _ _ => trivial) (by decide) hd
  replace hreach := hreach.mono fun _ _ => And.left
  exact ⟨d, hactive, (scheduler_exclusive d hreach fun factory hf => (hvalid factory hf).2).1⟩

/-- A factory that answers valid neutral cues, all under one id, makes the index
name a lease that is on another layer. -/
theorem scheduler_not_exclusive : ∃ d : SchedulerRun,
    schedulerMachine.ReachableBy SubmitsUnclaimed d ∧
      (∀ factory ∈ d.scheduler.neutralFactory, ValidNeutrals factory) ∧
      ¬d.scheduler.Exclusive := by
  have hrun : (schedulerMachine.run ⟨.create 0 .default (some constantNeutrals), none, []⟩
      [(.resetToNeutral, some 0)]).map
      (fun d => (d.scheduler.activeByLayer .affect, d.scheduler.active.values.map (·.cue.layer))) =
      some (some "neutral".toList, [.posture]) := by decide +kernel
  obtain ⟨d, hd, hv⟩ := Option.map_eq_some_iff.mp hrun
  obtain ⟨hindex, hlayers⟩ := Prod.mk.inj hv
  obtain ⟨hreach, hvalid⟩ :=
    constantNeutrals_run (p := fun _ => True) (fun _ _ => trivial) (by decide) hd
  replace hreach := hreach.mono fun _ _ => And.left
  refine ⟨d, hreach, hvalid, fun hexcl => ?_⟩
  obtain ⟨lease, hl, -, hlayer⟩ := (hexcl.indexed _ _).mp hindex
  have := List.mem_map_of_mem (f := (·.cue.layer)) hl
  rw [hlayers, List.mem_singleton, hlayer] at this
  cases this

end Eeveetuber
