import Eeveetuber.Avatar.SchedulerDecisions
import Eeveetuber.Avatar.SchedulerReplay

/-!
# Cues start in time

What is notified, what is admitted and what starts in a run of the scheduler is its chronicle, a
list of `Eeveetuber.Happening`, the latest first. `Eeveetuber.cues_timely` says of every start in
it that the cue belongs to the generation of the scheduler at the time; and, where the cue was
submitted, that its life was not over, and that the audio marker it is bound to was due: a marker
of this generation, and the latest one notified since the cue was admitted, if there was one.

The invariant is `Eeveetuber.Accounted`: the due time of a pending cue is that of such a marker,
and the markers that are stored were notified in this generation.
-/

namespace Eeveetuber

open Foundation Foundation.Stateful PresentationScheduler

/-! ### The chronicle -/

/-- What happens in a run that concerns the cues. -/
inductive Happening where
  /-- A marker of the scheduler's generation arrives. -/
  | notified (marker : AudioTimelineMarker)
  /-- A submitted cue comes to wait for its audio, or starts. -/
  | admitted (cue : PresentationCue)
  /-- A cue starts in a generation of the scheduler, because it was submitted or to restore
  neutral. -/
  | started (cue : PresentationCue) (time : ℚ) (generation : ℕ) (submitted : Bool)
deriving DecidableEq

/-- What an operation does for the cues before any of them starts. -/
def opening (now : ℚ) (s : PresentationScheduler) : SchedulerOperation → List Happening
  | .notifyAudio marker =>
    if s.connected = true ∧ marker.generation = s.generation then [.notified marker] else []
  | .submit cue =>
    if decisions now (.submit cue) s = [(.pendingAudio, cue)] ∨
        decisions now (.submit cue) s = [(.started, cue)] then
      [.admitted cue]
    else []
  | _ => []

/-- What happens in a step of the scheduler from `s` to `t`, in order. -/
def happenings (s t : PresentationScheduler) : SchedulerOperation × Clock → List Happening
  | (_, none) => []
  | (op, some now) => opening now s op ++
    ((t.journal.drop s.journal.length).filter fun e => e.kind = .started).map fun e =>
      .started e.cue e.occurredAt t.generation (decide ((.started, e.cue) ∈ decisions now op s))

/-- The scheduler in use, and its chronicle. -/
def chronicleMachine : Machine (SchedulerRun × List Happening) (SchedulerOperation × Clock) where
  start d := schedulerMachine.start d.1 ∧ d.2 = []
  next d l := (schedulerMachine.next d.1 l).map fun d' =>
    (d', (happenings d.1.scheduler d'.scheduler l).reverse ++ d.2)

namespace Happening

/-- Is a cue with this id admitted? -/
def admits (cueId : Text) : Happening → Bool
  | .admitted cue => cue.cueId = cueId
  | _ => false

/-- The marker with this key that is notified. -/
def marker? (key : AudioKey) : Happening → Option AudioTimelineMarker
  | .notified marker => if marker.key = key then some marker else none
  | _ => none

end Happening

/-- The latest marker with a key notified since the last admission of a cue. -/
def lastMarker (cueId : Text) (key : AudioKey) (log : List Happening) :
    Option AudioTimelineMarker :=
  (log.takeWhile fun h => !h.admits cueId).findSome? (·.marker? key)

section Log

variable {cueId : Text} {key : AudioKey} {log more : List Happening} {h : Happening}
  {cue cue' : PresentationCue} {marker : AudioTimelineMarker} {binding : AudioTimelineBinding}
  {generation : ℕ} {time : ℚ}

theorem lastMarker_cons_admitted_self :
    lastMarker cue.cueId key (.admitted cue :: log) = none := by
  rw [lastMarker, List.takeWhile_cons, Happening.admits, decide_eq_true rfl]
  rfl

theorem lastMarker_cons_admitted (hne : cue.cueId ≠ cueId) :
    lastMarker cueId key (.admitted cue :: log) = lastMarker cueId key log := by
  rw [lastMarker, List.takeWhile_cons, Happening.admits, decide_eq_false hne]
  rfl

theorem lastMarker_cons_notified_self :
    lastMarker cueId marker.key (.notified marker :: log) = some marker := by
  have hmarker : (Happening.notified marker).marker? marker.key = some marker := if_pos rfl
  show List.findSome? _ (Happening.notified marker :: _) = _
  rw [List.findSome?_cons, hmarker]

theorem lastMarker_cons_notified (hne : marker.key ≠ key) :
    lastMarker cueId key (.notified marker :: log) = lastMarker cueId key log := by
  have hmarker : (Happening.notified marker).marker? key = none := if_neg hne
  show List.findSome? _ (Happening.notified marker :: _) = _
  rw [List.findSome?_cons, hmarker]
  rfl

/-- The last admission under the id of a cue is its own. -/
def Waits (log : List Happening) (cue : PresentationCue) : Prop :=
  log.find? (·.admits cue.cueId) = some (.admitted cue)

theorem waits_cons_admitted_self : Waits (.admitted cue :: log) cue := by
  rw [Waits, List.find?_cons, Happening.admits, decide_eq_true rfl]

theorem Waits.cons_admitted (h : Waits log cue) (hne : cue'.cueId ≠ cue.cueId) :
    Waits (.admitted cue' :: log) cue := by
  rw [Waits, List.find?_cons, Happening.admits, decide_eq_false hne]
  exact h

/-- **A marker a cue may go by**: one of its generation, and the latest since its admission. -/
structure Backs (log : List Happening) (cue : PresentationCue) (binding : AudioTimelineBinding)
    (generation : ℕ) (marker : AudioTimelineMarker) : Prop where
  notified : .notified marker ∈ log
  generation : marker.generation = generation
  key : marker.key = binding.key
  waits : Waits log cue
  latest : ∀ latest ∈ lastMarker cue.cueId binding.key log, latest = marker

theorem Backs.cons_started {generation' : ℕ} {submitted : Bool}
    (h : Backs log cue binding generation marker) :
    Backs (.started cue' time generation' submitted :: log) cue binding generation marker :=
  ⟨List.mem_cons_of_mem _ h.notified, h.generation, h.key, h.waits, h.latest⟩

theorem Backs.starts (h : Backs log cue binding generation marker) (hmore : ∀ h ∈ more,
      ∃ cue time generation submitted, h = Happening.started cue time generation submitted) :
    Backs (more ++ log) cue binding generation marker := by
  induction more with
  | nil => exact h
  | cons start rest ih =>
    obtain ⟨_, _, _, _, rfl⟩ := hmore start List.mem_cons_self
    exact (ih fun h hmem => hmore h (List.mem_cons_of_mem _ hmem)).cons_started

theorem Backs.cons_admitted (h : Backs log cue binding generation marker)
    (hne : cue'.cueId ≠ cue.cueId) :
    Backs (.admitted cue' :: log) cue binding generation marker := by
  refine ⟨List.mem_cons_of_mem _ h.notified, h.generation, h.key, h.waits.cons_admitted hne, ?_⟩
  rw [lastMarker_cons_admitted hne]
  exact h.latest

theorem Backs.cons_notified {other : AudioTimelineMarker}
    (h : Backs log cue binding generation marker) (hne : other.key ≠ binding.key) :
    Backs (.notified other :: log) cue binding generation marker := by
  refine ⟨List.mem_cons_of_mem _ h.notified, h.generation, h.key, h.waits, ?_⟩
  rw [lastMarker_cons_notified hne]
  exact h.latest

/-- A marker that arrives while a cue waits. -/
theorem Waits.notified (h : Waits log cue) (hgeneration : marker.generation = generation)
    (hkey : marker.key = binding.key) :
    Backs (.notified marker :: log) cue binding generation marker := by
  refine ⟨List.mem_cons_self, hgeneration, hkey, h, ?_⟩
  rw [← hkey, lastMarker_cons_notified_self]
  rintro _ ⟨⟩
  rfl

/-- A marker that arrived before a cue was admitted. -/
theorem backs_of_admitted (hmem : .notified marker ∈ log)
    (hgeneration : marker.generation = generation) (hkey : marker.key = binding.key) :
    Backs (.admitted cue :: log) cue binding generation marker := by
  refine ⟨List.mem_cons_of_mem _ hmem, hgeneration, hkey, waits_cons_admitted_self, ?_⟩
  rw [lastMarker_cons_admitted_self]
  rintro _ ⟨⟩

/-- What holds of a start in its time, after what happened before. -/
def InTime (before : List Happening) : Happening → Prop
  | .started cue time generation submitted => cue.generation = generation ∧
      (submitted = true → (∀ deadline ∈ cue.notAfter, time ≤ deadline) ∧
        ∀ binding ∈ cue.audioBinding, ∃ marker, Backs before cue binding generation marker ∧
          marker.occurredAt + binding.offsetS ≤ time)
  | _ => True

/-- Whatever starts, starts in its time. -/
def Punctual (log : List Happening) : Prop := ∀ h before, (h :: before) <:+ log → InTime before h

theorem Punctual.cons (hlog : Punctual log) (hin : InTime log h) : Punctual (h :: log) := by
  intro h' before hsuffix
  rcases List.suffix_cons_iff.mp hsuffix with heq | hsuffix
  · obtain ⟨rfl, rfl⟩ := List.cons_eq_cons.mp heq
    exact hin
  · exact hlog h' before hsuffix

/-- Some cues start one after the other: each might as well have been the first. -/
theorem Punctual.starts (hlog : Punctual log) (hmore : ∀ h ∈ more, InTime log h ∧
      ∃ cue time generation submitted, h = .started cue time generation submitted) :
    Punctual (more ++ log) := by
  induction more with
  | nil => exact hlog
  | cons h rest ih =>
    obtain ⟨hin, cue, time, generation, submitted, rfl⟩ := hmore h List.mem_cons_self
    have hrest : ∀ h ∈ rest, InTime log h ∧
        ∃ cue time generation submitted, h = .started cue time generation submitted :=
      fun h hmem => hmore h (List.mem_cons_of_mem _ hmem)
    refine (ih hrest).cons
      ⟨hin.1, fun hsubmitted => ⟨(hin.2 hsubmitted).1, fun binding hbinding => ?_⟩⟩
    obtain ⟨marker, hbacks, hdue⟩ := (hin.2 hsubmitted).2 binding hbinding
    exact ⟨marker, hbacks.starts fun h hmem => (hrest h hmem).2, hdue⟩

end Log

/-! ### The invariant -/

section Step

variable {op : SchedulerOperation} {now : ℚ} {s t : PresentationScheduler}
  {log more : List Happening} {cue : PresentationCue} {marker : AudioTimelineMarker}
  {binding : AudioTimelineBinding} {vs : List CueVerdict}

/-- **Due times are accounted for** by the chronicle, and so are the markers that are stored. -/
structure Accounted (s : PresentationScheduler) (log : List Happening) : Prop where
  pending : ∀ p ∈ s.pending, p.cue.generation = s.generation ∧ Waits log p.cue ∧
    ∀ binding ∈ p.cue.audioBinding, ∀ due ∈ p.dueAt, ∃ marker,
      Backs log p.cue binding s.generation marker ∧ due = marker.occurredAt + binding.offsetS
  audioMarkers : ∀ m ∈ s.audioMarkers, .notified m ∈ log ∧ m.generation = s.generation

theorem Accounted.starts (h : Accounted s log) (hmore : ∀ h ∈ more,
      ∃ cue time generation submitted, h = Happening.started cue time generation submitted) :
    Accounted s (more ++ log) := by
  constructor
  · intro p hp
    obtain ⟨hgeneration, hwaits, hdue⟩ := h.pending p hp
    refine ⟨hgeneration, ?_, fun binding hbinding due hmem => ?_⟩
    · induction more with
      | nil => exact hwaits
      | cons start rest ih =>
        obtain ⟨_, _, _, _, rfl⟩ := hmore start List.mem_cons_self
        exact ih fun h hmem => hmore h (List.mem_cons_of_mem _ hmem)
    · obtain ⟨marker, hbacks, heq⟩ := hdue binding hbinding due hmem
      exact ⟨marker, hbacks.starts hmore, heq⟩
  · intro m hm
    obtain ⟨hmem, hgeneration⟩ := h.audioMarkers m hm
    exact ⟨List.mem_append_right _ hmem, hgeneration⟩

/-- A marker arrives. -/
theorem Accounted.notified (h : Accounted s log) (hgeneration : marker.generation = s.generation) :
    Accounted (s.notified marker) (.notified marker :: log) := by
  constructor
  · intro p' hp'
    obtain ⟨p, hp, rfl⟩ := mem_notified.mp hp'
    obtain ⟨hgen, hwaits, hdue⟩ := h.pending p hp
    rw [bindPending_cue]
    refine ⟨hgen, hwaits, fun binding hbinding due hmem => ?_⟩
    rw [bindPending, Option.mem_def.mp hbinding] at hmem
    dsimp only at hmem
    split_ifs at hmem with hkey
    · obtain rfl : marker.occurredAt + binding.offsetS = due := Option.some.inj hmem
      exact ⟨marker, hwaits.notified hgeneration hkey.symm, rfl⟩
    · obtain ⟨marker', hbacks, heq⟩ := hdue binding hbinding due hmem
      exact ⟨marker', hbacks.cons_notified (Ne.symm hkey), heq⟩
  · intro m hm
    rcases Keyed.mem_insert.mp (Keyed.mem_moveToEnd.mp (Keyed.mem_of_mem_keepLast hm)) with
      rfl | ⟨hm, -⟩
    · exact ⟨List.mem_cons_self, hgeneration⟩
    · obtain ⟨hmem, hgen⟩ := h.audioMarkers m hm
      exact ⟨List.mem_cons_of_mem _ hmem, hgen⟩

/-- A cue is admitted under an id that nothing waits under. -/
theorem Accounted.admitted (h : Accounted s log)
    (hnew : ∀ p ∈ s.pending, p.cue.cueId ≠ cue.cueId) : Accounted s (.admitted cue :: log) := by
  constructor
  · intro p hp
    obtain ⟨hgeneration, hwaits, hdue⟩ := h.pending p hp
    have hne := (hnew p hp).symm
    refine ⟨hgeneration, hwaits.cons_admitted hne, fun binding hbinding due hmem => ?_⟩
    obtain ⟨marker, hbacks, heq⟩ := hdue binding hbinding due hmem
    exact ⟨marker, hbacks.cons_admitted hne, heq⟩
  · intro m hm
    obtain ⟨hmem, hgeneration⟩ := h.audioMarkers m hm
    exact ⟨List.mem_cons_of_mem _ hmem, hgeneration⟩

/-- A cue comes to wait for its audio. -/
theorem Accounted.queued (h : Accounted s log) (hgeneration : cue.generation = s.generation)
    (hbinding : binding ∈ cue.audioBinding) :
    Accounted (s.queued cue binding) (.admitted cue :: log) := by
  constructor
  · intro p hp
    rcases Keyed.mem_insert.mp hp with rfl | ⟨hp, hne⟩
    · refine ⟨hgeneration, waits_cons_admitted_self, fun binding' hbinding' due hmem => ?_⟩
      obtain rfl : binding = binding' := Option.some.inj (hbinding.symm.trans hbinding')
      obtain ⟨m, hfind, rfl⟩ := Option.mem_map.mp hmem
      obtain ⟨hm, hkey⟩ := Keyed.find?_eq_some.mp hfind
      obtain ⟨hnotified, hgen⟩ := h.audioMarkers m hm
      exact ⟨m, backs_of_admitted hnotified hgen hkey, rfl⟩
    · obtain ⟨hgen, hwaits, hdue⟩ := h.pending p hp
      refine ⟨hgen, hwaits.cons_admitted (Ne.symm hne), fun binding hbinding due hmem => ?_⟩
      obtain ⟨marker, hbacks, heq⟩ := hdue binding hbinding due hmem
      exact ⟨marker, hbacks.cons_admitted (Ne.symm hne), heq⟩
  · intro m hm
    obtain ⟨hmem, hgen⟩ := h.audioMarkers m hm
    exact ⟨List.mem_cons_of_mem _ hmem, hgen⟩

theorem Accounted.shrinks (h : Accounted s log) (hst : Shrinks s t) : Accounted t log := by
  rcases hst.generation with hgeneration | ⟨hpending, hmarkers⟩
  · refine ⟨fun p hp => ?_, fun m hm => ?_⟩
    · rw [hgeneration]
      exact h.pending p (hst.pending p hp)
    · rw [hgeneration]
      exact h.audioMarkers m (hst.audioMarkers m hm)
  · exact ⟨fun p hp => absurd hp (hpending p), fun m hm => absurd hm (hmarkers m)⟩

theorem not_expired_iff : cue.expired now = false ↔ ∀ deadline ∈ cue.notAfter, now ≤ deadline := by
  rw [PresentationCue.expired]
  rcases cue.notAfter with _ | deadline
  · simp
  · simp

/-- **Cues are taken from the queue**, and those that start do so in their time. -/
theorem Accounted.consumes (h : Accounted s log) (hst : Consumes now s vs t) :
    Accounted t log ∧ ∀ cue, (.started, cue) ∈ vs →
      InTime log (.started cue now t.generation true) := by
  refine ⟨⟨fun p hp => ?_, fun m hm => ?_⟩, fun cue hstarted => ?_⟩
  · obtain ⟨q, hq, hcue, hdue⟩ := hst.pending p hp
    have hpending := h.pending q hq
    rwa [hcue, hdue, ← hst.generation] at hpending
  · rw [hst.audioMarkers] at hm
    rw [hst.generation]
    exact h.audioMarkers m hm
  · obtain ⟨⟨hexpired, hgeneration⟩, q, hq, rfl, hdue⟩ := hst.started cue hstarted
    refine ⟨hgeneration.trans hst.generation.symm, fun _ => ⟨not_expired_iff.mp hexpired,
      fun binding hbinding => ?_⟩⟩
    rw [Option.any_eq_true] at hdue
    obtain ⟨due, hmem, hle⟩ := hdue
    obtain ⟨marker, hbacks, rfl⟩ := (h.pending q hq).2.2 binding hbinding due hmem
    rw [hst.generation]
    exact ⟨marker, hbacks, of_decide_eq_true hle⟩

/-- A cue that is started as it is submitted. -/
theorem Accounted.submitted (h : Accounted s log) (hst : Consumes now s [] t)
    (hnew : ∀ p ∈ t.pending, p.cue.cueId ≠ cue.cueId) (htimely : Timely s now cue)
    (hmarker : ∀ binding ∈ cue.audioBinding, ∃ marker ∈ s.audioMarkers,
      marker.key = binding.key ∧ marker.occurredAt + binding.offsetS ≤ now) :
    Accounted t (.admitted cue :: log) ∧
      InTime (.admitted cue :: log) (.started cue now t.generation true) := by
  refine ⟨(h.consumes hst).1.admitted hnew, htimely.generation.trans hst.generation.symm,
    fun _ => ⟨not_expired_iff.mp htimely.expired, fun binding hbinding => ?_⟩⟩
  obtain ⟨marker, hm, hkey, hdue⟩ := hmarker binding hbinding
  obtain ⟨hnotified, hgeneration⟩ := h.audioMarkers marker hm
  exact ⟨marker, backs_of_admitted hnotified (hgeneration.trans hst.generation.symm) hkey, hdue⟩

/-- **An operation** keeps the chronicle accounting for the queue, and what it starts is in its
time once the opening is told. -/
theorem Accounted.acts (h : Accounted s log) (hst : Acts now s (decisions now op s) t op) :
    Accounted t (opening now s op ++ log) ∧ ∀ cue, (.started, cue) ∈ decisions now op s →
      InTime (opening now s op ++ log) (.started cue now t.generation true) := by
  rcases hop : op.decides with _ | _
  -- an operation that does not decide about cues starts none
  · have hnil : opening now s op = [] := by
      rcases op with _ | _ | _ | _ | _ | _ | _ | _ | _
      case submit | notifyAudio | tick => cases hop
      all_goals rfl
    have hshrinks : Shrinks s t := by
      rcases op with _ | _ | _ | _ | _ | _ | _ | _ | _
      case submit | notifyAudio | tick => cases hop
      all_goals exact hst.2
    rw [hnil, decisions_of_not_decides hop]
    exact ⟨h.shrinks hshrinks, fun cue hmem => absurd hmem List.not_mem_nil⟩
  rcases op with cue | marker | _ | _ | _ | _ | _ | _ | _
  case submit =>
    obtain ⟨status, hvs, hsubmitted⟩ := hst
    rw [opening, hvs]
    have honly {status' : ScheduleStatus} {cue' : PresentationCue}
        (hmem : (status', cue') ∈ [(status, cue)]) : status' = status ∧ cue' = cue :=
      Prod.ext_iff.mp (List.mem_singleton.mp hmem)
    -- the cue starts at once
    by_cases hstarted : status = .started
    · subst hstarted
      obtain ⟨hconsumes, hnew, htimely, hmarker⟩ := hsubmitted
      obtain ⟨haccounted, hin⟩ := h.submitted hconsumes hnew htimely hmarker
      rw [if_pos (.inr rfl)]
      refine ⟨haccounted, fun cue' hmem => ?_⟩
      rw [(honly hmem).2]
      exact hin
    -- it waits for its marker
    by_cases hpending : status = .pendingAudio
    · subst hpending
      obtain ⟨hgeneration, binding, hbinding, hconsumes⟩ := hsubmitted
      rw [if_pos (.inl rfl)]
      refine ⟨((h.queued hgeneration hbinding).consumes hconsumes).1, fun cue' hmem => ?_⟩
      exact absurd (honly hmem).1 (by simp)
    -- it is turned away
    · have hrejected : status.rejected = true := by
        rcases status with _ | _ | _ | _ | _ | _ | _ | _ | _ | _ | _
        case started => exact absurd rfl hstarted
        case pendingAudio => exact absurd rfl hpending
        all_goals rfl
      rw [if_neg (by simp [hstarted, hpending])]
      refine ⟨(h.consumes ((submitted_iff_of_rejected hrejected).mp hsubmitted)).1,
        fun cue' hmem => ?_⟩
      exact absurd (honly hmem).1.symm hstarted
  case notifyAudio =>
    rw [Acts] at hst
    rw [opening]
    by_cases hon : s.connected = true ∧ marker.generation = s.generation
    · rw [if_pos hon] at hst ⊢
      exact (h.notified hon.2).consumes hst
    · rw [if_neg hon] at hst ⊢
      rw [hst.1]
      exact h.consumes hst.2.consumes
  case tick => exact h.consumes hst
  all_goals cases hop

end Step

/-! ### Events -/

namespace PresentationScheduler

variable {op : SchedulerOperation} {now : ℚ} {s t : PresentationScheduler}

/-- The new start events are of now and of the generation that the scheduler ends up in. -/
def Announces (now : ℚ) (s t : PresentationScheduler) : Prop :=
  ∃ es, t.journal = s.journal ++ es ∧
    ∀ e ∈ es, e.kind = .started → e.cue.generation = t.generation ∧ e.occurredAt = now

theorem Announces.of_stopped {es : List PresentationEvent} (hjournal : t.journal = s.journal ++ es)
    (hes : ∀ e ∈ es, e.kind = .stopped) : Announces now s t := by
  refine ⟨es, hjournal, fun e he hstarted => ?_⟩
  rw [hes e he] at hstarted
  cases hstarted

theorem Announces.silent (hjournal : t.journal = s.journal) : Announces now s t :=
  .of_stopped (hjournal.trans (List.append_nil _).symm) fun _ he => absurd he List.not_mem_nil

/-- Stops before are no starts, and starts before were of the same generation. -/
theorem Announces.trans {u : PresentationScheduler} (h : Announces now s t)
    (h' : Announces now t u) (hgeneration : u.generation = t.generation) : Announces now s u := by
  obtain ⟨es, hjournal, hes⟩ := h
  obtain ⟨es', hjournal', hes'⟩ := h'
  refine ⟨es ++ es', by rw [hjournal', hjournal, List.append_assoc], fun e he hstarted => ?_⟩
  rcases List.mem_append.mp he with he | he
  · rw [hgeneration]
    exact hes e he hstarted
  · exact hes' e he hstarted

theorem Announces.of_stopEvents {n : ℕ} {reason : StopReason} {replacedBy : Option Text}
    {leases : List ActiveLease}
    (hjournal : t.journal = s.journal ++ stopEvents now reason replacedBy n leases) :
    Announces now s t :=
  .of_stopped hjournal fun e he => by
    obtain ⟨-, -, hkind, -⟩ := mem_stopEvents he
    exact hkind

/-- What an effect that starts no generation announces. -/
theorem Effect.announces (h : Effect op now s t)
    (hop : ∀ generation, op ≠ .advanceGeneration generation) :
    t.generation = s.generation ∧ Announces now s t := by
  rcases h with _ | _ | ⟨rfl, -⟩ | _ | _ | _ | ⟨-, -, hgen, -, -, -⟩ |
    ⟨-, -, -, -, hgen, -, -, -⟩ | _ | _ | _ | _ | _ | _ | _
  case expire | cancel =>
    refine ⟨rfl, [_], rfl, fun e he hstarted => ?_⟩
    rw [List.mem_singleton.mp he] at hstarted
    cases hstarted
  case advance => exact absurd rfl (hop _)
  case reset => exact ⟨endedAll_generation .., .of_stopEvents endedAll_journal⟩
  case disconnect => exact ⟨endedAll_generation .., .of_stopEvents endedAll_journal⟩
  case start cue =>
    have hgeneration : ((s.popped cue).launched cue now).generation = s.generation :=
      launched_generation
    refine ⟨hgeneration, _, launched_journal, fun e he hstarted => ?_⟩
    rcases List.mem_append.mp he with he | he
    · obtain ⟨-, -, hkind, -⟩ := mem_stopEvents he
      rw [hkind] at hstarted
      cases hstarted
    · rw [List.mem_singleton.mp he, hgeneration]
      exact ⟨hgen, rfl⟩
  case restore =>
    refine ⟨rfl, [_], rfl, fun e he _ => ?_⟩
    rw [List.mem_singleton.mp he]
    exact ⟨hgen, rfl⟩
  all_goals exact ⟨rfl, .silent rfl⟩

theorem Effects.announces (h : Effects op now s t)
    (hop : ∀ generation, op ≠ .advanceGeneration generation) :
    t.generation = s.generation ∧ Announces now s t := by
  refine h.invariant (I := fun u => u.generation = s.generation ∧ Announces now s u)
    ⟨rfl, .silent rfl⟩ ?_
  rintro u v ⟨hgeneration, hannounces⟩ hstep
  obtain ⟨hgeneration', hannounces'⟩ := hstep.announces hop
  exact ⟨hgeneration'.trans hgeneration, hannounces.trans hannounces' hgeneration'⟩

/-- What the restoration of neutral cues announces. -/
theorem triple_restoreNeutrals_announces :
    Triple (fun t => s = t) (restoreNeutrals now)
      (fun _ t => t.generation = s.generation ∧ Announces now s t)
      fun t => t.generation = s.generation ∧ Announces now s t :=
  -- as far as neutral cues go, the operation might be any other
  (triple_restoreNeutrals .tick).weaken (fun _ => id) (fun _ _ h => h.1.announces (by simp))
    fun _ h => Effects.announces h (by simp)

/-- **A new generation** ends what is active before it restores neutral cues. -/
theorem triple_advanceGeneration_announces {generation : ℕ} :
    Triple (fun t => s = t) (advanceGeneration (some now) generation)
      (fun _ t => Announces now s t) (Announces now s) := by
  rw [advanceGeneration]
  refine Triple.read ?_
  split
  · refine Triple.raise ?_
    rintro _ rfl
    exact .silent rfl
  split
  · refine Triple.answer ?_
    rintro _ rfl
    exact .silent rfl
  rw [PresentationScheduler.now, pure_bind]
  refine Triple.change (Triple.read ?_)
  refine Triple.bind (Q := fun _ t => Announces now s t) ?_ fun es => Triple.each fun t ht => ?_
  · rintro _ rfl
    rw [outcome_endLeases _ _ _ (fun _ => true) (fun lease hl => mem_sortedActive.mp hl)
      (nodup_sortedActive _)]
    exact .of_stopEvents endedAll_journal
  · exact (triple_restoreNeutrals_announces.weaken (fun _ => id)
      (fun _ _ h => ht.trans h.2 h.1) fun _ h => ht.trans h.2 h.1).bind
        fun restored => Triple.answer fun _ => id

theorem perform_announces (now : ℚ) (op : SchedulerOperation) (s : PresentationScheduler) :
    Announces now s (outcome (perform (some now) op) s).2 := by
  have heffects : Effects op now s (outcome (perform (some now) op) s).2 :=
    (triple_perform_steps.post fun _ _ hu => hu.1.1).state rfl
  by_cases hop : ∃ generation, op = .advanceGeneration generation
  · obtain ⟨generation, rfl⟩ := hop
    have htriple : Triple (fun t => s = t) (perform (some now) (.advanceGeneration generation))
        (fun _ t => Announces now s t) (Announces now s) :=
      triple_advanceGeneration_announces.bind fun es => Triple.answer fun _ => id
    exact htriple.state rfl
  · exact (heffects.announces fun generation heq => hop ⟨generation, heq⟩).2

end PresentationScheduler

/-! ### Whole runs -/

theorem opening_reverse (now : ℚ) (s : PresentationScheduler) (op : SchedulerOperation) :
    (opening now s op).reverse = opening now s op := by
  rcases op with _ | _ | _ | _ | _ | _ | _ | _ | _
  case submit | notifyAudio =>
    rw [opening]
    split_ifs
    · rfl
    · rfl
  all_goals rfl

theorem Punctual.opening {log : List Happening} (h : Punctual log) (now : ℚ)
    (s : PresentationScheduler) (op : SchedulerOperation) : Punctual (opening now s op ++ log) := by
  rcases op with _ | _ | _ | _ | _ | _ | _ | _ | _
  case submit | notifyAudio =>
    rw [Eeveetuber.opening]
    split_ifs
    · exact h.cons trivial
    · exact h
  all_goals exact h

/-- The chronicle accounts for the queue, and everything started in its time. -/
def Chronicled (s : PresentationScheduler) (log : List Happening) : Prop :=
  Accounted s log ∧ Punctual log

/-- **An operation is entered in the chronicle.** -/
theorem Chronicled.perform {s : PresentationScheduler} {log : List Happening}
    (h : Chronicled s log) (now : ℚ) (op : SchedulerOperation) :
    Chronicled (outcome (perform (some now) op) s).2
      ((happenings s (outcome (perform (some now) op) s).2 (op, some now)).reverse ++ log) := by
  obtain ⟨haccounted, hin⟩ := h.1.acts (perform_acts now op s)
  obtain ⟨es, hjournal, hes⟩ := perform_announces now op s
  rw [happenings, hjournal, List.drop_left, List.reverse_append, opening_reverse,
    List.append_assoc]
  have hstarts : ∀ h ∈ (((es.filter fun e => e.kind = .started).map fun e =>
        Happening.started e.cue e.occurredAt
          (outcome (PresentationScheduler.perform (some now) op) s).2.generation
          (decide ((.started, e.cue) ∈ decisions now op s)))).reverse,
      InTime (opening now s op ++ log) h ∧
        ∃ cue time generation submitted, h = .started cue time generation submitted := by
    intro h hmem
    obtain ⟨e, he, rfl⟩ := List.mem_map.mp (List.mem_reverse.mp hmem)
    obtain ⟨he, hkind⟩ := List.mem_filter.mp he
    obtain ⟨hgeneration, htime⟩ := hes e he (of_decide_eq_true hkind)
    refine ⟨⟨hgeneration, fun hsubmitted => ?_⟩, _, _, _, _, rfl⟩
    rw [htime]
    exact (hin e.cue (of_decide_eq_true hsubmitted)).2 rfl
  exact ⟨haccounted.starts fun h hmem => (hstarts h hmem).2,
    (h.2.opening now s op).starts hstarts⟩

theorem chronicled_of_reachable {d : SchedulerRun × List Happening}
    (h : chronicleMachine.Reachable d) : Chronicled d.1.scheduler d.2 := by
  refine h.invariant (I := fun d => Chronicled d.1.scheduler d.2) ?_ ?_
  · rintro ⟨_, _⟩ ⟨⟨generation, policy, neutralFactory, rfl⟩, rfl⟩
    refine ⟨⟨fun p hp => absurd hp Keyed.not_mem_empty, fun m hm => absurd hm Keyed.not_mem_empty⟩,
      fun h before hsuffix => ?_⟩
    cases List.suffix_nil.mp hsuffix
  · rintro ⟨d, log⟩ ⟨op, clock⟩ d' - hd - hstep
    obtain ⟨d', hnext, rfl⟩ := Option.map_eq_some_iff.mp hstep
    rcases schedulerMachine_next hnext with ⟨rfl, hsame, -⟩ | ⟨now, _, rfl, -, -, -, hout, -⟩
    · dsimp only
      rw [hsame]
      exact hd
    · have hstate : (outcome (perform (some now) op) d.scheduler).2 = d'.scheduler :=
        congrArg Prod.snd hout
      dsimp only
      rw [← hstate]
      exact hd.perform now op

/-- **Cues start in time**, in every run. Whatever starts belongs to the generation of the
scheduler. A submitted cue starts within its own life; and if it is bound to a marker, then a
marker under its key was notified in this generation whose time and the cue's offset have come.
If any such marker was notified since the cue was admitted, then this one is the latest. -/
theorem cues_timely {d : SchedulerRun} {log before : List Happening} {cue : PresentationCue}
    {time : ℚ} {generation : ℕ} {submitted : Bool} (h : chronicleMachine.Reachable (d, log))
    (hlog : (.started cue time generation submitted :: before) <:+ log) :
    cue.generation = generation ∧ (submitted = true →
      (∀ deadline ∈ cue.notAfter, time ≤ deadline) ∧
      ∀ binding ∈ cue.audioBinding, ∃ marker, .notified marker ∈ before ∧
        marker.generation = generation ∧ marker.key = binding.key ∧
        marker.occurredAt + binding.offsetS ≤ time ∧
        before.find? (·.admits cue.cueId) = some (.admitted cue) ∧
        ∀ latest ∈ lastMarker cue.cueId binding.key before, latest = marker) := by
  obtain ⟨hgeneration, hin⟩ := (chronicled_of_reachable h).2 _ _ hlog
  refine ⟨hgeneration, fun hsubmitted => ⟨(hin hsubmitted).1, fun binding hbinding => ?_⟩⟩
  obtain ⟨marker, hbacks, hdue⟩ := (hin hsubmitted).2 binding hbinding
  exact ⟨marker, hbacks.notified, hbacks.generation, hbacks.key, hdue, hbacks.waits, hbacks.latest⟩

/-- Half a second after the start of an utterance. -/
def halfway : AudioTimelineBinding where
  utteranceId := "greeting".toList
  anchor := .utteranceStart
  markerId := none
  offsetS := 1 / 2
  utteranceId_identifier := by decide +kernel
  markerId_fits := ⟨by decide, by simp⟩

/-- An utterance starts at one second. -/
def greeting : AudioTimelineMarker where
  utteranceId := "greeting".toList
  generation := 0
  anchor := .utteranceStart
  occurredAt := 1
  markerId := none
  utteranceId_identifier := by decide +kernel
  markerId_fits := ⟨by decide, by simp⟩

/-- A wave in the middle of the greeting. -/
def boundWave : PresentationCue where
  toPresentationCueFields := { wave.toPresentationCueFields with audioBinding := some halfway }
  valid := by
    have hvalid := wave.valid
    rw [PresentationCueFields.postInit_eq_ok] at hvalid ⊢
    exact hvalid

/-- The greeting starts while the wave waits, and the wave starts half a second later. -/
theorem cues_timely_boundWave : ∃ (d : SchedulerRun) (before : List Happening),
    chronicleMachine.Reachable (d, .started boundWave (3 / 2) 0 true :: before) ∧
      boundWave.generation = 0 ∧ ∀ binding ∈ boundWave.audioBinding, ∃ marker,
        .notified marker ∈ before ∧ marker.generation = 0 ∧ marker.key = binding.key ∧
        marker.occurredAt + binding.offsetS ≤ 3 / 2 := by
  have hrun : (chronicleMachine.run (⟨.create 0 .default none, none, []⟩, [])
      [(.submit boundWave, some 0), (.notifyAudio greeting, some 1), (.tick, some (3 / 2))]).map
      Prod.snd =
      some [.started boundWave (3 / 2) 0 true, .notified greeting, .admitted boundWave] := by
    decide +kernel
  obtain ⟨⟨d, log⟩, hd, hlog⟩ := Option.map_eq_some_iff.mp hrun
  obtain rfl : log = _ := hlog
  have hstart : chronicleMachine.start (⟨.create 0 .default none, none, []⟩, []) :=
    ⟨⟨_, _, _, rfl⟩, rfl⟩
  have hreachable := Machine.reachable_of_run hstart hd
  obtain ⟨hgeneration, hin⟩ := cues_timely hreachable (List.suffix_refl _)
  refine ⟨d, _, hreachable, hgeneration, fun binding hbinding => ?_⟩
  obtain ⟨marker, hmem, hgen, hkey, hdue, -⟩ := (hin rfl).2 binding hbinding
  exact ⟨marker, hmem, hgen, hkey, hdue⟩

end Eeveetuber
