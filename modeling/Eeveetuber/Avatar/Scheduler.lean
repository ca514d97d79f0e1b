import Mathlib.Data.Char
import Mathlib.Data.List.MinMax
import Mathlib.Data.Prod.Lex
import Mathlib.Order.WithBot
import Mathlib.Data.List.Lex
import Eeveetuber.Foundation.Keyed
import Eeveetuber.Foundation.Machine
import Eeveetuber.Foundation.SlidingWindow
import Eeveetuber.Foundation.Stateful
import Eeveetuber.Avatar.Presentation

/-!
# The presentation scheduler

The scheduler owns the avatar's layers: it grants leases to cues, lets a cue of
higher priority preempt those it conflicts with, binds cues to audio markers,
keeps starts within rate limits and cooldowns, and puts a neutral cue back on a
layer that has lost its cue. It is synchronous; every operation reads the clock
at most once, and what the clock returns is an argument here, `none` standing
for a value that is not finite.

Each method is `Eeveetuber.PresentationScheduler`'s method of the same name,
statement by statement, in `Foundation.Stateful`: what it changed before it
raised stays changed. Two things about the fields are worth knowing.

* Leases, pending cues and markers are dictionaries under a key their values
  carry, `Foundation.Keyed`. The index of active cues by layer and the cooldowns
  are looked up and never walked over, so they are functions.
* Four fields are not in the source. `journal` lists every event ever built, in
  order; `neutralCalls` counts the calls of the neutral factory, whose answer
  may depend on the count – so a factory that keeps a state of its own is one
  too; `lastNeutral` is its last answer for each layer, with the number of the
  call; `recovered` says whether every layer was ever marked as needing neutral.
-/

namespace Eeveetuber

open Foundation

/-! ### Policies -/

structure RateLimitPolicy where
  maxStarts : ℕ
  windowS : ℚ
  maxStarts_pos : 1 ≤ maxStarts
  windowS_pos : 0 < windowS

/-- The constructor. -/
def RateLimitPolicy.create (maxStarts : ℤ) (windowS : ℚ) : Except String RateLimitPolicy :=
  if hm : maxStarts < 1 then .error "max_starts must be positive"
  else if hw : windowS ≤ 0 then .error "window_s must be finite and greater than zero"
  else .ok ⟨maxStarts.toNat, windowS, by omega, not_le.mp hw⟩

structure SchedulerPolicy where
  globalRateLimit : Option RateLimitPolicy
  layerRateLimits : PresentationLayer → Option RateLimitPolicy
  maxPending : ℕ
  maxAudioMarkers : ℕ
  maxPending_pos : 1 ≤ maxPending
  maxAudioMarkers_pos : 1 ≤ maxAudioMarkers

/-- The constructor. -/
def SchedulerPolicy.create (globalRateLimit : Option RateLimitPolicy)
    (layerRateLimits : PresentationLayer → Option RateLimitPolicy)
    (maxPending maxAudioMarkers : ℤ) : Except String SchedulerPolicy :=
  if hp : maxPending < 1 then .error "max_pending must be positive"
  else if hm : maxAudioMarkers < 1 then .error "max_audio_markers must be positive"
  else .ok ⟨globalRateLimit, layerRateLimits, maxPending.toNat, maxAudioMarkers.toNat,
    by omega, by omega⟩

/-- The policy of a scheduler that is given none. -/
def SchedulerPolicy.default : SchedulerPolicy where
  globalRateLimit := none
  layerRateLimits _ := none
  maxPending := 256
  maxAudioMarkers := 1024
  maxPending_pos := by omega
  maxAudioMarkers_pos := by omega

/-! ### The state -/

/-- Outcomes produced together by a timeline marker or scheduler tick. -/
structure SchedulerBatch where
  results : List ScheduleResult := []
  events : List PresentationEvent := []

structure PendingCue where
  cue : PresentationCue
  sequence : ℕ
  dueAt : Option ℚ

/-- What reading the clock returns: `none` is a value that is not finite. -/
abbrev Clock := Option ℚ

/-- The answers of a neutral factory, by the number of calls made before, the
layer, the generation and the time; it may raise. -/
abbrev NeutralFactory := ℕ → PresentationLayer → ℕ → ℚ → Except String PresentationCue

structure PresentationScheduler where
  generation : ℕ
  policy : SchedulerPolicy
  neutralFactory : Option NeutralFactory
  connected : Bool
  active : Keyed fun lease : ActiveLease => lease.cue.cueId
  activeByLayer : PresentationLayer → Option Text
  pending : Keyed fun pending : PendingCue => pending.cue.cueId
  audioMarkers : Keyed AudioTimelineMarker.key
  cooldownUntil : Text → Option ℚ
  globalStarts : List ℚ
  layerStarts : PresentationLayer → List ℚ
  needsNeutral : Finset PresentationLayer
  sequence : ℕ
  /-- Every event built so far. -/
  journal : List PresentationEvent
  /-- How often the neutral factory was called. -/
  neutralCalls : ℕ
  /-- The last answer of the neutral factory for a layer, and the call it came from. -/
  lastNeutral : PresentationLayer → Option (ℕ × PresentationCue)
  /-- The scheduler was reset or reconnected. -/
  recovered : Bool

/-- The methods of the scheduler. -/
abbrev SchedulerM := Stateful PresentationScheduler String

/-! ### What the methods ask of a cue, a lease or a state -/

/-- `cue.not_after is not None and now > cue.not_after`. -/
def PresentationCue.expired (cue : PresentationCue) (now : ℚ) : Bool :=
  cue.notAfter.any fun t => t < now

/-- Rate limits and cooldowns apply. -/
def PresentationCue.limited (cue : PresentationCue) : Bool := !cue.limitsExempt && !cue.neutral

/-- Two cues cannot be presented together. -/
def PresentationCue.Conflicts (a b : PresentationCue) : Prop :=
  a.layer = b.layer ∨ (a.resources ∩ b.resources).Nonempty
deriving Decidable

def AudioTimelineBinding.key (b : AudioTimelineBinding) : AudioKey :=
  (b.utteranceId, b.anchor, b.markerId)

namespace ActiveLease

/-- `expires_at is not None and expires_at <= now`. -/
def expired (lease : ActiveLease) (now : ℚ) : Bool := lease.expiresAt.any fun t => t ≤ now

/-- The lease a cue asks for. -/
def grant (cue : PresentationCue) (now : ℚ) : ActiveLease where
  cue := cue
  startedAt := now
  expiresAt := cue.leaseS.map fun l => now + l
  startedAt_le := by
    intro t ht
    obtain ⟨l, hl, rfl⟩ := Option.mem_map.mp ht
    exact le_add_of_nonneg_right (cue.leaseS_pos l hl).le

/-- A lease without expiry. -/
def indefinite (cue : PresentationCue) (now : ℚ) : ActiveLease where
  cue := cue
  startedAt := now
  expiresAt := none
  startedAt_le := by simp

end ActiveLease

def statusDetail (status : ScheduleStatus) : ScheduleDetail := .text <| match status with
  | .rejectedDisconnected => "avatar adapter is disconnected".toList
  | .rejectedStaleGeneration => "cue belongs to an older generation".toList
  | .rejectedFutureGeneration => "advance scheduler generation first".toList
  | .rejectedExpired => "cue TTL elapsed before admission".toList
  | .rejectedDuplicate => "cue_id is already active or pending".toList
  | .started => "started".toList
  | .pendingAudio => "pending_audio".toList
  | .rejectedPriority => "rejected_priority".toList
  | .rejectedCooldown => "rejected_cooldown".toList
  | .rejectedRateLimit => "rejected_rate_limit".toList
  | .rejectedQueueFull => "rejected_queue_full".toList

namespace PresentationScheduler

/-- The constructor. -/
def create (generation : ℕ) (policy : SchedulerPolicy) (neutralFactory : Option NeutralFactory) :
    PresentationScheduler where
  generation := generation
  policy := policy
  neutralFactory := neutralFactory
  connected := true
  active := ∅
  activeByLayer _ := none
  pending := ∅
  audioMarkers := ∅
  cooldownUntil _ := none
  globalStarts := []
  layerStarts _ := []
  needsNeutral := ∅
  sequence := 0
  journal := []
  neutralCalls := 0
  lastNeutral _ := none
  recovered := false

/-- The active leases by layer and cue id: the property `active_leases` and `_sorted_active`. -/
def sortedActive (s : PresentationScheduler) : List ActiveLease :=
  s.active.values.insertionSort fun a b =>
    toLex (a.cue.layer.value, a.cue.cueId) ≤ toLex (b.cue.layer.value, b.cue.cueId)

def conflictingLeases (s : PresentationScheduler) (cue : PresentationCue) : List ActiveLease :=
  (s.active.values.filter fun lease => lease.cue.Conflicts cue).insertionSort fun a b =>
    toLex (-(a.cue.priority.value : ℤ), toLex (a.startedAt, a.cue.cueId)) ≤
      toLex (-(b.cue.priority.value : ℤ), toLex (b.startedAt, b.cue.cueId))

def validateSubmission (s : PresentationScheduler) (cue : PresentationCue) (now : ℚ) :
    Option ScheduleStatus :=
  if !s.connected then some .rejectedDisconnected
  else if cue.generation < s.generation then some .rejectedStaleGeneration
  else if s.generation < cue.generation then some .rejectedFutureGeneration
  else if cue.expired now then some .rejectedExpired
  else if s.active.contains cue.cueId || s.pending.contains cue.cueId then
    some .rejectedDuplicate
  else none

/-! ### Events -/

def now (clock : Clock) : SchedulerM ℚ :=
  match clock with
  | some t => pure t
  | none => throw "scheduler clock must return a finite value"

def nextSequence : SchedulerM ℕ := do
  modify fun s => { s with sequence := s.sequence + 1 }
  return (← getThe PresentationScheduler).sequence

/-- Build an event and enter it in the journal. -/
def emit (kind : PresentationEventKind) (cue : PresentationCue) (now : ℚ)
    (reason : Option StopReason) (replacedBy : Option Text) : SchedulerM PresentationEvent := do
  let sequence ← nextSequence
  let event : PresentationEvent :=
    { sequence, kind, cue, occurredAt := now, reason, replacedBy }
  modify fun s => { s with journal := s.journal ++ [event] }
  return event

def startEvent (cue : PresentationCue) (now : ℚ) : SchedulerM PresentationEvent :=
  emit .started cue now none none

def stopEvent (cue : PresentationCue) (now : ℚ) (reason : StopReason)
    (replacedBy : Option Text) : SchedulerM PresentationEvent :=
  emit .stopped cue now (some reason) replacedBy

/-! ### Leases -/

def removeActive (cueId : Text) : SchedulerM (Option ActiveLease) := do
  let lease := (← getThe PresentationScheduler).active.find? cueId
  modify fun s => { s with active := s.active.erase cueId }
  match lease with
  | none => return none
  | some lease =>
    modify fun s => { s with
      activeByLayer := if s.activeByLayer lease.cue.layer = some cueId then
          Function.update s.activeByLayer lease.cue.layer none
        else s.activeByLayer }
    return some lease

/-- The body of every loop that ends leases. `needs` says whether the layer is
marked as needing neutral. -/
def endLease (now : ℚ) (reason : StopReason) (replacedBy : Option Text) (needs : Bool)
    (lease : ActiveLease) : SchedulerM PresentationEvent := do
  let _ ← removeActive lease.cue.cueId
  modify fun s => { s with
    needsNeutral := if needs then insert lease.cue.layer s.needsNeutral else s.needsNeutral }
  stopEvent lease.cue now reason replacedBy

/-- Enter a lease and announce it. -/
def beginLease (lease : ActiveLease) (now : ℚ) : SchedulerM PresentationEvent := do
  modify fun s => { s with
    active := s.active.insert lease
    activeByLayer := Function.update s.activeByLayer lease.cue.layer (some lease.cue.cueId)
    needsNeutral := s.needsNeutral.erase lease.cue.layer }
  startEvent lease.cue now

def expire (now : ℚ) : SchedulerM (List PresentationEvent) := do
  let leases := (← getThe PresentationScheduler).sortedActive
  let events ← (leases.filter fun lease => lease.expired now).mapM
    (endLease now .leaseExpired none true)
  modify fun s => { s with pending := s.pending.filter fun p => !p.cue.expired now }
  modify fun s => { s with
    cooldownUntil := fun key => (s.cooldownUntil key).filter fun til => now < til }
  return events

/-! ### Neutral restoration -/

def callNeutralFactory (factory : NeutralFactory) (layer : PresentationLayer) (now : ℚ) :
    SchedulerM PresentationCue := do
  let s ← getThe PresentationScheduler
  modify fun s => { s with neutralCalls := s.neutralCalls + 1 }
  let cue ← factory s.neutralCalls layer s.generation now
  modify fun t => { t with
    lastNeutral := Function.update t.lastNeutral layer (some (s.neutralCalls, cue)) }
  return cue

/-- One round of the loop of `_restore_neutrals`. -/
def restoreNeutral (factory : NeutralFactory) (now : ℚ) (layer : PresentationLayer) :
    SchedulerM (List PresentationEvent) := do
  let s ← getThe PresentationScheduler
  if (s.activeByLayer layer).isSome then
    modify fun s => { s with needsNeutral := s.needsNeutral.erase layer }
    return []
  else
    let cue ← callNeutralFactory factory layer now
    if cue.layer ≠ layer ∨ cue.generation ≠ s.generation ∨ cue.neutral = false then
      throw "neutral_factory returned an invalid neutral cue"
    else if s.conflictingLeases cue ≠ [] then
      return []
    else
      let event ← beginLease (.indefinite cue now) now
      return [event]

def restoreNeutrals (now : ℚ) : SchedulerM (List PresentationEvent) := do
  let s ← getThe PresentationScheduler
  if !s.connected then
    return []
  else
    match s.neutralFactory with
    | none => return []
    | some factory =>
      let events ← (PresentationLayer.inOrder s.needsNeutral).mapM (restoreNeutral factory now)
      return events.flatten

/-! ### Limits -/

def withinGlobalLimit (now : ℚ) : SchedulerM Bool := do
  match (← getThe PresentationScheduler).policy.globalRateLimit with
  | none => return true
  | some limit =>
    modify fun s => { s with globalStarts := prune limit.windowS now s.globalStarts }
    return (← getThe PresentationScheduler).globalStarts.length < limit.maxStarts

def withinLayerLimit (layer : PresentationLayer) (now : ℚ) : SchedulerM Bool := do
  match (← getThe PresentationScheduler).policy.layerRateLimits layer with
  | none => return true
  | some limit =>
    modify fun s => { s with
      layerStarts := Function.update s.layerStarts layer
        (prune limit.windowS now (s.layerStarts layer)) }
    return ((← getThe PresentationScheduler).layerStarts layer).length < limit.maxStarts

def withinRateLimits (layer : PresentationLayer) (now : ℚ) : SchedulerM Bool := do
  if ← withinGlobalLimit now then
    withinLayerLimit layer now
  else
    return false

def recordStart (layer : PresentationLayer) (now : ℚ) : SchedulerM Unit := do
  modify fun s => { s with
    globalStarts := if s.policy.globalRateLimit.isSome then s.globalStarts ++ [now]
      else s.globalStarts }
  modify fun s => { s with
    layerStarts := if (s.policy.layerRateLimits layer).isSome then
        Function.update s.layerStarts layer (s.layerStarts layer ++ [now])
      else s.layerStarts }

/-! ### Starting a cue -/

/-- The first half of `_attempt_start`: may the cue start as far as its own
life, the generation, the connection and the active leases are concerned? -/
def startRejection (s : PresentationScheduler) (cue : PresentationCue) (now : ℚ) :
    Option ScheduleResult :=
  if cue.expired now then
    some { status := .rejectedExpired, cue,
           detail := some (.text "cue TTL elapsed before its audio-bound start".toList) }
  else if cue.generation ≠ s.generation then
    let status : ScheduleStatus := if cue.generation < s.generation then .rejectedStaleGeneration
      else .rejectedFutureGeneration
    some { status, cue, detail := some (statusDetail status) }
  else if !s.connected then
    some { status := .rejectedDisconnected, cue,
           detail := some (.text "avatar adapter is disconnected".toList) }
  else
    let blockers := (s.conflictingLeases cue).filter fun lease =>
      cue.priority.value < lease.cue.priority.value
    match blockers.argmax fun lease => toLex (lease.cue.priority.value, lease.cue.cueId) with
    | none => none
    | some blocker =>
      some { status := .rejectedPriority, cue,
             detail := some (.text ("blocked by ".toList ++ blocker.cue.cueId)) }

/-- The second half: cooldowns and rate limits. -/
def limitRejection (cue : PresentationCue) (now : ℚ) : SchedulerM (Option ScheduleResult) := do
  let s ← getThe PresentationScheduler
  if !cue.limited then
    return none
  else if cue.cooldownKey.any fun key => (s.cooldownUntil key).any fun til => now < til then
    return some { status := .rejectedCooldown, cue,
                  detail := some (.text ("cooldown active for ".toList ++
                    cue.cooldownKey.getD [])) }
  else if ← withinRateLimits cue.layer now then
    return none
  else
    return some { status := .rejectedRateLimit, cue,
                  detail := some (.text "presentation start rate exceeded".toList) }

/-- What a counted start leaves behind. -/
def chargeStart (cue : PresentationCue) (now : ℚ) : SchedulerM Unit := do
  modify fun s => { s with
    cooldownUntil := match cue.cooldownKey with
      | none => s.cooldownUntil
      | some key => if 0 < cue.cooldownS then
          Function.update s.cooldownUntil key (some (now + cue.cooldownS)) else s.cooldownUntil }
  recordStart cue.layer now

/-- The rest of `_attempt_start`: stop what conflicts, then start. -/
def startCue (cue : PresentationCue) (now : ℚ) : SchedulerM ScheduleResult := do
  let conflicts := (← getThe PresentationScheduler).conflictingLeases cue
  let stops ← conflicts.mapM fun lease =>
    endLease now .preempted (some cue.cueId) (lease.cue.layer ≠ cue.layer) lease
  let started ← beginLease (.grant cue now) now
  if cue.limited then
    chargeStart cue now
  return { status := .started, cue, events := stops ++ [started] }

def attemptStart (cue : PresentationCue) (now : ℚ) : SchedulerM ScheduleResult := do
  match (← getThe PresentationScheduler).startRejection cue now with
  | some rejection => return rejection
  | none =>
    match ← limitRejection cue now with
    | some rejection => return rejection
    | none => startCue cue now

/-- One round of the loop of `_start_due`. -/
def startPending (now : ℚ) (pending : PendingCue) : SchedulerM (Option ScheduleResult) := do
  let found := (← getThe PresentationScheduler).pending.contains pending.cue.cueId
  modify fun s => { s with pending := s.pending.erase pending.cue.cueId }
  if found then
    let result ← attemptStart pending.cue now
    return some result
  else
    return none

/-- The pending cues that are due, in the order in which they are started. -/
def duePending (s : PresentationScheduler) (now : ℚ) : List PendingCue :=
  (s.pending.values.filter fun p => p.dueAt.any fun t => t ≤ now).insertionSort fun a b =>
    toLex (a.dueAt.getD 0, toLex (-(a.cue.priority.value : ℤ), a.sequence)) ≤
      toLex (b.dueAt.getD 0, toLex (-(b.cue.priority.value : ℤ), b.sequence))

def startDue (now : ℚ) : SchedulerM (List ScheduleResult) := do
  let due := (← getThe PresentationScheduler).duePending now
  let results ← due.mapM (startPending now)
  return results.reduceOption

/-! ### The operations -/

/-- The end of `submit`. -/
def submitNow (expired : List PresentationEvent) (cue : PresentationCue) (now : ℚ) :
    SchedulerM ScheduleResult := do
  let result ← attemptStart cue now
  let restored ← restoreNeutrals now
  return { result with events := expired ++ result.events ++ restored }

/-- The branch of `submit` for a cue bound to an audio marker. -/
def submitBound (expired : List PresentationEvent) (cue : PresentationCue)
    (binding : AudioTimelineBinding) (now : ℚ) : SchedulerM ScheduleResult := do
  let s ← getThe PresentationScheduler
  let dueAt := (s.audioMarkers.find? binding.key).map fun m => m.occurredAt + binding.offsetS
  if s.policy.maxPending ≤ s.pending.length then
    let restored ← restoreNeutrals now
    return { status := .rejectedQueueFull, cue, events := expired ++ restored,
             detail := some (.text "audio-bound cue queue is full".toList) }
  else
    let sequence ← nextSequence
    modify fun s => { s with pending := s.pending.insert { cue, sequence, dueAt } }
    match dueAt with
    | none =>
      let restored ← restoreNeutrals now
      return { status := .pendingAudio, cue, events := expired ++ restored,
               detail := some (.text "waiting for audio marker".toList) }
    | some t =>
      if now < t then
        let restored ← restoreNeutrals now
        return { status := .pendingAudio, cue, events := expired ++ restored,
                 detail := some (.boundFor t) }
      else
        modify fun s => { s with pending := s.pending.erase cue.cueId }
        submitNow expired cue now

def submit (clock : Clock) (cue : PresentationCue) : SchedulerM ScheduleResult := do
  let now ← now clock
  let expired ← expire now
  match (← getThe PresentationScheduler).validateSubmission cue now with
  | some rejection =>
    let restored ← restoreNeutrals now
    return { status := rejection, cue, events := expired ++ restored,
             detail := some (statusDetail rejection) }
  | none =>
    match cue.audioBinding with
    | none => submitNow expired cue now
    | some binding => submitBound expired cue binding now

/-- The end of `tick` and `notify_audio`. -/
def runDue (expired : List PresentationEvent) (now : ℚ) : SchedulerM SchedulerBatch := do
  let results ← startDue now
  let restored ← restoreNeutrals now
  return { results, events := expired ++ results.flatMap (·.events) ++ restored }

/-- The due time a marker gives a pending cue. -/
def bindPending (marker : AudioTimelineMarker) (p : PendingCue) : PendingCue :=
  match p.cue.audioBinding with
  | none => p
  | some binding =>
    if binding.key = marker.key then
      { p with dueAt := some (marker.occurredAt + binding.offsetS) }
    else p

theorem bindPending_cue (marker : AudioTimelineMarker) (p : PendingCue) :
    (bindPending marker p).cue = p.cue := by
  rw [bindPending]
  split
  · rfl
  · split <;> rfl

def notifyAudio (clock : Clock) (marker : AudioTimelineMarker) : SchedulerM SchedulerBatch := do
  let s ← getThe PresentationScheduler
  if s.connected = false ∨ marker.generation ≠ s.generation then
    return {}
  else
    let now ← now clock
    let expired ← expire now
    modify fun s => { s with
      audioMarkers := ((s.audioMarkers.insert marker).moveToEnd marker.key).keepLast
        s.policy.maxAudioMarkers }
    modify fun s => { s with
      pending := s.pending.map (bindPending marker) fun p => by rw [bindPending_cue] }
    runDue expired now

def tick (clock : Clock) : SchedulerM SchedulerBatch := do
  let now ← now clock
  let expired ← expire now
  runDue expired now

def advanceGeneration (clock : Clock) (generation : ℕ) : SchedulerM (List PresentationEvent) := do
  let s ← getThe PresentationScheduler
  if generation < s.generation then
    throw "generation cannot move backwards"
  else if generation = s.generation then
    return []
  else
    let now ← now clock
    modify fun s => { s with generation, pending := ∅, audioMarkers := ∅ }
    let leases := (← getThe PresentationScheduler).sortedActive
    let events ← leases.mapM (endLease now .generationAdvanced none true)
    let restored ← restoreNeutrals now
    return events ++ restored

def cancel (clock : Clock) (cueId : Text) (reason : StopReason) :
    SchedulerM (List PresentationEvent) := do
  let now ← now clock
  let expired ← expire now
  let s ← getThe PresentationScheduler
  if s.pending.contains cueId then
    modify fun s => { s with pending := s.pending.erase cueId }
    let restored ← restoreNeutrals now
    return expired ++ restored
  else
    match s.active.find? cueId with
    | none =>
      let restored ← restoreNeutrals now
      return expired ++ restored
    | some lease =>
      let stopped ← endLease now reason none true lease
      let restored ← restoreNeutrals now
      return expired ++ [stopped] ++ restored

def resetToNeutral (clock : Clock) : SchedulerM (List PresentationEvent) := do
  let now ← now clock
  modify fun s => { s with pending := ∅ }
  let leases := (← getThe PresentationScheduler).sortedActive
  let events ← leases.mapM (endLease now .cancelled none false)
  modify fun s => { s with needsNeutral := Finset.univ, recovered := true }
  let restored ← restoreNeutrals now
  return events ++ restored

def disconnect (clock : Clock) (reason : StopReason) : SchedulerM (List PresentationEvent) := do
  let s ← getThe PresentationScheduler
  if reason ≠ .disconnected ∧ reason ≠ .adapterFailure then
    throw "disconnect reason must describe adapter availability"
  else if s.connected = false then
    return []
  else
    let now ← now clock
    modify fun s => { s with
      connected := false, pending := ∅, audioMarkers := ∅, needsNeutral := ∅ }
    let leases := (← getThe PresentationScheduler).sortedActive
    leases.mapM (endLease now reason none false)

def reconnect (clock : Clock) : SchedulerM (List PresentationEvent) := do
  let s ← getThe PresentationScheduler
  if s.connected then
    return []
  else
    let now ← now clock
    modify fun s => { s with connected := true, needsNeutral := Finset.univ, recovered := true }
    restoreNeutrals now

def adapterFailed (clock : Clock) : SchedulerM (List PresentationEvent) :=
  disconnect clock .adapterFailure

end PresentationScheduler

/-! ### Runs -/

/-- A call of one of the scheduler's operations. -/
inductive SchedulerOperation where
  | submit (cue : PresentationCue)
  | notifyAudio (marker : AudioTimelineMarker)
  | tick
  | advanceGeneration (generation : ℕ)
  | cancel (cueId : Text) (reason : StopReason)
  | resetToNeutral
  | disconnect (reason : StopReason)
  | reconnect
  | adapterFailed

open PresentationScheduler in
/-- Perform an operation with one reading of the clock. -/
def PresentationScheduler.perform (clock : Clock) : SchedulerOperation → SchedulerM SchedulerBatch
  | .submit cue => do
    let result ← submit clock cue
    return { results := [result], events := result.events }
  | .notifyAudio marker => notifyAudio clock marker
  | .tick => tick clock
  | .advanceGeneration generation => return { events := ← advanceGeneration clock generation }
  | .cancel cueId reason => return { events := ← cancel clock cueId reason }
  | .resetToNeutral => return { events := ← resetToNeutral clock }
  | .disconnect reason => return { events := ← disconnect clock reason }
  | .reconnect => return { events := ← reconnect clock }
  | .adapterFailed => return { events := ← adapterFailed clock }

/-- Does an operation come to read the clock? -/
def SchedulerOperation.readsClock (s : PresentationScheduler) : SchedulerOperation → Bool
  | .submit _ | .tick | .cancel _ _ | .resetToNeutral => true
  | .notifyAudio marker => s.connected && marker.generation = s.generation
  | .advanceGeneration generation => s.generation < generation
  | .disconnect reason =>
    (reason = .disconnected || reason = .adapterFailure) && s.connected
  | .reconnect => !s.connected
  | .adapterFailed => s.connected

/-- A scheduler in use: what the clock returned last, and the events that were
returned, one batch for each operation that raised nothing. -/
structure SchedulerRun where
  scheduler : PresentationScheduler
  lastReading : Clock
  returned : List (List PresentationEvent)

/-- The owner of a scheduler calls its operations one after the other, with a
clock that does not go back. -/
def schedulerMachine : Machine SchedulerRun (SchedulerOperation × Clock) where
  start d := ∃ generation policy neutralFactory,
    d = ⟨.create generation policy neutralFactory, none, []⟩
  next d l :=
    if l.2.any fun t => d.lastReading.any fun last => t < last then none
    else
      let (answer, scheduler) :=
        Stateful.outcome (PresentationScheduler.perform l.2 l.1) d.scheduler
      some {
        scheduler
        lastReading := l.2 <|> d.lastReading
        returned := match answer with
          | .ok batch => d.returned ++ [batch.events]
          | .error _ => d.returned }

end Eeveetuber
