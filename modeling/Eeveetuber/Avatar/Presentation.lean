import Mathlib.Algebra.Order.Ring.Rat
import Mathlib.Data.Finset.Basic
import Eeveetuber.Avatar.Intents
import Eeveetuber.Foundation.Checks

/-!
# The contracts of the performance director and the scheduler

The values the director and the scheduler hand each other. All times are exact,
in seconds. Each value is checked as it is made, and the type of the values that
pass is the one the rest of the development uses: small values carry what was
checked as fields, while a request and a cue, whose checks are a long sequence,
are a record of fields – `Eeveetuber.CueRequestFields`,
`Eeveetuber.PresentationCueFields` – with the fact that its `postInit` raises
nothing.
-/

namespace Eeveetuber

open Foundation

/-! ### Checks -/

/-- A non-empty, trimmed text. -/
def IsIdentifier (value : Text) : Prop := value ≠ [] ∧ strip value = value
deriving Decidable

def requireIdentifier (value : Text) (fieldName : String) : Except String Unit :=
  raiseIf (¬IsIdentifier value) (fieldName ++ " must be a non-empty, trimmed string")

def requireNonNegative (value : ℚ) (fieldName : String) : Except String Unit :=
  raiseIf (value < 0) (fieldName ++ " must be non-negative")

def requirePositive (value : ℚ) (fieldName : String) : Except String Unit :=
  raiseIf (value ≤ 0) (fieldName ++ " must be greater than zero")

/-- `f"{layer.value}.neutral"`. -/
def PresentationLayer.neutralKey (layer : PresentationLayer) : Text :=
  layer.value ++ ".neutral".toList

theorem isIdentifier_neutralKey (layer : PresentationLayer) : IsIdentifier layer.neutralKey := by
  cases layer <;> decide

/-- The key of a layer's neutral semantic is in the layer's namespace. -/
theorem isPrefixOf_neutralKey (layer : PresentationLayer) :
    (layer.value ++ ['.']).isPrefixOf layer.neutralKey = true := by
  cases layer <;> decide

section Checks

variable {value : Text} {number : ℚ} {fieldName : String}

theorem requireIdentifier_eq_ok :
    requireIdentifier value fieldName = .ok () ↔ IsIdentifier value :=
  raiseIf_eq_ok.trans not_not

theorem requireNonNegative_eq_ok : requireNonNegative number fieldName = .ok () ↔ 0 ≤ number :=
  raiseIf_eq_ok.trans not_lt

theorem requirePositive_eq_ok : requirePositive number fieldName = .ok () ↔ 0 < number :=
  raiseIf_eq_ok.trans not_le

end Checks

/-! ### Sources and priorities -/

/-- Host-assigned origin of a cue; the model cannot grant itself authority. -/
inductive CueSource where
  | operator
  | speechSync
  | scriptedShow
  | interactionState
  | model
  | gameEvent
  | reactiveIdle
deriving DecidableEq, Repr

/-- The priority order; larger values win arbitration. -/
inductive CuePriority where
  | reactiveIdle
  | gameEvent
  | model
  | interactionState
  | scriptedShow
  | speechSync
  | operatorOverride
deriving DecidableEq, Repr

def CuePriority.value : CuePriority → ℕ
  | reactiveIdle => 10
  | gameEvent => 20
  | model => 30
  | interactionState => 40
  | scriptedShow => 50
  | speechSync => 60
  | operatorOverride => 70

def priorityForSource : CueSource → CuePriority
  | .operator => .operatorOverride
  | .speechSync => .speechSync
  | .scriptedShow => .scriptedShow
  | .interactionState => .interactionState
  | .model => .model
  | .gameEvent => .gameEvent
  | .reactiveIdle => .reactiveIdle

/-! ### Blending -/

inductive BlendMode where
  | replace
  | additive
  | crossFade
deriving DecidableEq, Repr

inductive BlendCurve where
  | linear
  | easeIn
  | easeOut
  | easeInOut
deriving DecidableEq, Repr

/-- Renderer-facing blend metadata. -/
structure BlendSpec where
  mode : BlendMode
  curve : BlendCurve
  fadeInS : ℚ
  fadeOutS : ℚ
  weight : ℚ
  fadeInS_nonneg : 0 ≤ fadeInS
  fadeOutS_nonneg : 0 ≤ fadeOutS
  weight_mem : 0 ≤ weight ∧ weight ≤ 1
deriving DecidableEq

/-- The blend of a cue that names none. -/
def BlendSpec.default : BlendSpec where
  mode := .crossFade
  curve := .easeInOut
  fadeInS := 12 / 100
  fadeOutS := 16 / 100
  weight := 1
  fadeInS_nonneg := by decide +kernel
  fadeOutS_nonneg := by decide +kernel
  weight_mem := by decide +kernel

/-! ### The audio timeline -/

inductive AudioAnchor where
  | utteranceStart
  | segmentStart
  | word
  | viseme
  | utteranceEnd
deriving DecidableEq, Repr

/-- The anchors that need a marker of their own. -/
def AudioAnchor.needsMarker : AudioAnchor → Bool
  | segmentStart | word | viseme => true
  | utteranceStart | utteranceEnd => false

/-- A marker id is there if its anchor needs one, and is an identifier. -/
def MarkerIdFits (anchor : AudioAnchor) (markerId : Option Text) : Prop :=
  (anchor.needsMarker → markerId.isSome) ∧ ∀ id ∈ markerId, IsIdentifier id

/-- What binds a cue to a marker: the utterance, the anchor and the marker id. -/
abbrev AudioKey := Text × AudioAnchor × Option Text

/-- The binding of a cue to a host-provided audio marker. -/
structure AudioTimelineBinding where
  utteranceId : Text
  anchor : AudioAnchor
  markerId : Option Text
  offsetS : ℚ
  utteranceId_identifier : IsIdentifier utteranceId
  markerId_fits : MarkerIdFits anchor markerId
deriving DecidableEq

/-- A point on the playback timeline in the scheduler clock domain. -/
structure AudioTimelineMarker where
  utteranceId : Text
  generation : ℕ
  anchor : AudioAnchor
  occurredAt : ℚ
  markerId : Option Text
  utteranceId_identifier : IsIdentifier utteranceId
  markerId_fits : MarkerIdFits anchor markerId
deriving DecidableEq

def AudioTimelineMarker.key (m : AudioTimelineMarker) : AudioKey :=
  (m.utteranceId, m.anchor, m.markerId)

/-! ### Requests -/

/-- The fields of a cue request. -/
structure CueRequestFields where
  cueId : Text
  generation : ℕ
  intent : SemanticIntent
  requestedAt : ℚ
  source : CueSource := .model
  priority : Option CuePriority := none
  ttlS : ℚ := 2
  leaseS : Option ℚ := none
  audioBinding : Option AudioTimelineBinding := none
  limitsExempt : Bool := false
deriving DecidableEq

def CueRequestFields.postInit (r : CueRequestFields) : Except String Unit := do
  requireIdentifier r.cueId "cue_id"
  requirePositive r.ttlS "ttl_s"
  requireIfPresent (requirePositive · "lease_s") r.leaseS

/-- A host-owned scheduling envelope around a semantic intent. -/
structure CueRequest extends CueRequestFields where
  valid : toCueRequestFields.postInit = .ok ()
deriving DecidableEq

namespace CueRequest

def effectivePriority (r : CueRequest) : CuePriority :=
  r.priority.getD (priorityForSource r.source)

def notAfter (r : CueRequest) : ℚ := r.requestedAt + r.ttlS

end CueRequest

/-! ### Cues -/

/-- The fields of a presentation cue. -/
structure PresentationCueFields where
  cueId : Text
  generation : ℕ
  layer : PresentationLayer
  semanticKey : Text
  adapterAction : Option Text
  intensity : ℚ
  priority : CuePriority
  requestedAt : ℚ
  notAfter : Option ℚ
  leaseS : Option ℚ
  resources : Finset Text := ∅
  blend : BlendSpec := .default
  cooldownKey : Option Text := none
  cooldownS : ℚ := 0
  audioBinding : Option AudioTimelineBinding := none
  source : CueSource := .model
  neutral : Bool := false
  limitsExempt : Bool := false
  fallbackFrom : Option Text := none
deriving DecidableEq

def PresentationCueFields.postInit (c : PresentationCueFields) : Except String Unit := do
  requireIdentifier c.cueId "cue_id"
  requireIdentifier c.semanticKey "semantic_key"
  raiseIf (¬(c.layer.value ++ ['.']).isPrefixOf c.semanticKey)
    "semantic_key namespace must match layer"
  requireIfPresent (requireIdentifier · "adapter_action") c.adapterAction
  raiseIf (¬(0 ≤ c.intensity ∧ c.intensity ≤ 1))
    "intensity must be finite and between 0.0 and 1.0"
  requireIfPresent (fun t => raiseIf (t < c.requestedAt) "not_after cannot precede requested_at")
    c.notAfter
  requireIfPresent (requirePositive · "lease_s") c.leaseS
  requireNonNegative c.cooldownS "cooldown_s"
  requireIfPresent (requireIdentifier · "cooldown_key") c.cooldownKey
  raiseIf (∃ resource ∈ c.resources, ¬IsIdentifier resource)
    "resource must be a non-empty, trimmed string"
  requireIfPresent (requireIdentifier · "fallback_from") c.fallbackFrom

/-- **What the checks of a cue come to.** -/
theorem PresentationCueFields.postInit_eq_ok {c : PresentationCueFields} :
    c.postInit = .ok () ↔ IsIdentifier c.cueId ∧ IsIdentifier c.semanticKey ∧
      (c.layer.value ++ ['.']).isPrefixOf c.semanticKey = true ∧
      (∀ action ∈ c.adapterAction, IsIdentifier action) ∧ (0 ≤ c.intensity ∧ c.intensity ≤ 1) ∧
      (∀ t ∈ c.notAfter, c.requestedAt ≤ t) ∧ (∀ l ∈ c.leaseS, 0 < l) ∧ 0 ≤ c.cooldownS ∧
      (∀ key ∈ c.cooldownKey, IsIdentifier key) ∧
      (∀ resource ∈ c.resources, IsIdentifier resource) ∧
      ∀ key ∈ c.fallbackFrom, IsIdentifier key := by
  simp only [postInit, check_bind_eq_ok, raiseIf_eq_ok, requireIfPresent_eq_ok,
    requireIdentifier_eq_ok, requirePositive_eq_ok, requireNonNegative_eq_ok, not_lt, not_not,
    not_exists, not_and, Classical.not_imp]

/-- A fully resolved, avatar-specific cue accepted by the scheduler. -/
structure PresentationCue extends PresentationCueFields where
  valid : toPresentationCueFields.postInit = .ok ()
deriving DecidableEq

namespace PresentationCue

/-- The constructor. -/
def create (c : PresentationCueFields) : Except String PresentationCue :=
  match h : c.postInit with
  | .ok () => .ok ⟨c, h⟩
  | .error e => .error e

/-- The constructor answers a cue with the fields it was given. -/
theorem create_eq_ok {c : PresentationCueFields} {cue : PresentationCue} :
    create c = .ok cue ↔ cue.toPresentationCueFields = c := by
  rw [create]
  split
  · rename_i h
    constructor
    · rintro ⟨⟩
      rfl
    · rintro rfl
      rfl
  · rename_i e h
    constructor
    · rintro ⟨⟩
    · rintro rfl
      rw [cue.valid] at h
      cases h

/-- A lease that a cue asks for is positive. -/
theorem leaseS_pos (c : PresentationCue) : ∀ l ∈ c.leaseS, 0 < l :=
  (PresentationCueFields.postInit_eq_ok.mp c.valid).2.2.2.2.2.2.1

end PresentationCue

/-! ### Leases, events and results -/

/-- A cue that is being presented. -/
structure ActiveLease where
  cue : PresentationCue
  startedAt : ℚ
  expiresAt : Option ℚ
  startedAt_le : ∀ t ∈ expiresAt, startedAt ≤ t
deriving DecidableEq

inductive StopReason where
  | preempted
  | leaseExpired
  | cancelled
  | generationAdvanced
  | disconnected
  | adapterFailure
deriving DecidableEq, Repr

inductive PresentationEventKind where
  | started
  | stopped
deriving DecidableEq, Repr

structure PresentationEvent where
  sequence : ℕ
  kind : PresentationEventKind
  cue : PresentationCue
  occurredAt : ℚ
  reason : Option StopReason := none
  replacedBy : Option Text := none
deriving DecidableEq

inductive ScheduleStatus where
  | started
  | pendingAudio
  | rejectedStaleGeneration
  | rejectedFutureGeneration
  | rejectedExpired
  | rejectedDuplicate
  | rejectedPriority
  | rejectedCooldown
  | rejectedRateLimit
  | rejectedQueueFull
  | rejectedDisconnected
deriving DecidableEq, Repr

/-- The detail of a result. A time in it stays a number. -/
inductive ScheduleDetail where
  | text (t : Text)
  | boundFor (dueAt : ℚ)
deriving DecidableEq

structure ScheduleResult where
  status : ScheduleStatus
  cue : PresentationCue
  events : List PresentationEvent := []
  detail : Option ScheduleDetail := none
deriving DecidableEq

end Eeveetuber
