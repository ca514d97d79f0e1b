import Eeveetuber.Avatar.Capabilities
import Eeveetuber.Avatar.SchedulerRuns

/-!
# The performance director

The director turns a request for a semantic intent into a cue for one avatar: it
resolves the intent with the avatar's profile, lets the persona's style suppress
semantics and scale intensities and leases, and fills in what the scheduler needs
to know. It also builds the neutral cues that the scheduler restores, and these
are what the scheduler's properties ask of a neutral factory
(`Eeveetuber.PerformanceDirector.validNeutrals_neutralCue`,
`Eeveetuber.PerformanceDirector.distinctNeutrals_neutralCue`).

A request is `Eeveetuber.PerformanceDirector.Unperformable` if its semantic is
suppressed or missing from the profile, and then it resolves to the neutral
binding of its layer.
-/

namespace Eeveetuber

open Foundation

/-! ### Style -/

/-- The fields of a style. -/
structure PerformanceStyleFields where
  intensityScale : PresentationLayer → Option ℚ := fun _ => none
  leaseScale : PresentationLayer → Option ℚ := fun _ => none
  suppressedSemantics : Finset Text := ∅

def PerformanceStyleFields.postInit (s : PerformanceStyleFields) : Except String Unit := do
  (PresentationLayer.inOrder Finset.univ).forM fun layer =>
    requireIfPresent (fun scale => raiseIf (scale < 0)
      "intensity scales must be finite and non-negative") (s.intensityScale layer)
  (PresentationLayer.inOrder Finset.univ).forM fun layer =>
    requireIfPresent (fun scale => raiseIf (scale ≤ 0)
      "lease scales must be finite and greater than zero") (s.leaseScale layer)
  raiseIf (∃ key ∈ s.suppressedSemantics, ¬IsIdentifier key)
    "suppressed semantic keys must be non-empty and trimmed"

/-- Deterministic persona styling applied after semantic interpretation. -/
structure PerformanceStyle extends PerformanceStyleFields where
  valid : toPerformanceStyleFields.postInit = .ok ()

/-- The style of a director that is given none. -/
def PerformanceStyle.default : PerformanceStyle where
  valid := by decide +kernel

/-! ### The director -/

structure PerformanceDirector where
  profile : AvatarCapabilityProfile
  style : PerformanceStyle

namespace PerformanceDirector

def makeCue (d : PerformanceDirector) (request : CueRequest) (resolution : CapabilityResolution) :
    Except CapabilityError PresentationCue :=
  let binding := resolution.binding
  let layer := request.intent.layer
  let intensityScale := (d.style.intensityScale layer).getD 1
  let intensity := min (request.intent.intensity * intensityScale) binding.maxIntensity
  let isNeutral := binding = d.profile.neutralBinding layer
  let leaseS := match request.leaseS with
    | some lease => some lease
    | none => binding.defaultLeaseS.map fun lease => lease * (d.style.leaseScale layer).getD 1
  let limitsExempt := request.limitsExempt || request.source = .operator ||
    request.source = .speechSync
  (PresentationCue.create {
    cueId := request.cueId
    generation := request.generation
    layer
    semanticKey := resolution.resolvedKey
    adapterAction := binding.adapterAction
    intensity
    priority := request.effectivePriority
    requestedAt := request.requestedAt
    notAfter := some request.notAfter
    leaseS
    resources := binding.resources
    blend := binding.blend
    cooldownKey := some (binding.cooldownKey.getD binding.semanticKey)
    cooldownS := if isNeutral then 0 else binding.cooldownS
    audioBinding := request.audioBinding
    source := request.source
    neutral := isNeutral
    limitsExempt := limitsExempt || isNeutral
    fallbackFrom := if resolution.usedFallback then some resolution.requestedKey else none
    }).mapError .message

def resolve (d : PerformanceDirector) (request : CueRequest) :
    Except CapabilityError PresentationCue := do
  let resolution ← d.profile.resolve request.intent
  if request.intent.semanticKey ∈ d.style.suppressedSemantics then
    let neutral := d.profile.neutralBinding request.intent.layer
    d.makeCue request {
      requestedKey := request.intent.semanticKey
      resolvedKey := neutral.semanticKey
      binding := neutral
      usedFallback := true
      reason := .styleSuppressed }
  else d.makeCue request resolution

/-- `f"neutral:{layer.value}:{generation}"`. -/
def neutralId (layer : PresentationLayer) (generation : ℕ) : Text :=
  "neutral:".toList ++ layer.value ++ ":".toList ++ Nat.toDigits 10 generation

/-- Build an indefinite safe baseline used only by scheduler recovery. -/
def neutralCue (d : PerformanceDirector) (layer : PresentationLayer) (generation : ℕ)
    (requestedAt : ℚ) : Except String PresentationCue :=
  let binding := d.profile.neutralBinding layer
  PresentationCue.create {
    cueId := neutralId layer generation
    generation
    layer
    semanticKey := binding.semanticKey
    adapterAction := binding.adapterAction
    intensity := binding.maxIntensity
    priority := .reactiveIdle
    requestedAt
    notAfter := none
    leaseS := none
    resources := binding.resources
    blend := binding.blend
    source := .reactiveIdle
    neutral := true
    limitsExempt := true }

/-- The director's neutral cues, for a scheduler. -/
def neutralFactory (d : PerformanceDirector) : NeutralFactory :=
  fun _ layer generation requestedAt => d.neutralCue layer generation requestedAt

variable {d : PerformanceDirector} {layer layer' : PresentationLayer} {generation : ℕ}
  {request : CueRequest} {cue : PresentationCue}

/-! ### Neutral cues -/

/-- A text that begins with a letter and ends with a number is an identifier. -/
theorem isIdentifier_append_digits {c : Char} (hc : isSpace c = false) (rest : Text) (n : ℕ) :
    IsIdentifier (c :: rest ++ Nat.toDigits 10 n) := by
  have hdigits : Nat.toDigits 10 n ≠ [] := Nat.toDigits_ne_nil
  have hne : c :: rest ++ Nat.toDigits 10 n ≠ [] := by simp
  refine ⟨hne, strip_eq_self hne hc ?_⟩
  have hlast : (Nat.toDigits 10 n).getLast hdigits ∈ Nat.toDigits 10 n := List.getLast_mem hdigits
  rw [List.getLast_append_of_ne_nil hne hdigits]
  exact isSpace_of_isDigit (Nat.isDigit_of_mem_toDigits (by omega) (by omega) hlast)

theorem isIdentifier_neutralId (layer : PresentationLayer) (generation : ℕ) :
    IsIdentifier (neutralId layer generation) := by
  have hstarts : "neutral:".toList = 'n' :: "eutral:".toList := by decide +kernel
  unfold neutralId
  rw [hstarts, List.cons_append, List.cons_append]
  exact isIdentifier_append_digits (by decide) _ generation

/-- The value of a layer is what stands before the first colon. -/
theorem takeWhile_value (layer : PresentationLayer) (rest : Text) :
    (layer.value ++ ':' :: rest).takeWhile (· ≠ ':') = layer.value := by
  have hvalue : layer.value.all (· ≠ ':') = true := by cases layer <;> decide +kernel
  rw [List.takeWhile_append_of_pos (List.all_eq_true.mp hvalue), List.takeWhile_cons]
  simp

/-- Different layers have different neutral ids, whatever the generations. -/
theorem neutralId_ne (h : layer ≠ layer') (generation generation' : ℕ) :
    neutralId layer generation ≠ neutralId layer' generation' := by
  have hcolon : ":".toList = [':'] := by decide +kernel
  have hshape : ∀ (l : PresentationLayer) (n : ℕ), neutralId l n =
      "neutral:".toList ++ (l.value ++ ':' :: Nat.toDigits 10 n) := by
    intro l n
    unfold neutralId
    rw [hcolon, List.append_assoc, List.append_assoc, List.singleton_append]
  intro heq
  rw [hshape, hshape, List.append_cancel_left_eq] at heq
  have hvalues := congrArg (List.takeWhile (· ≠ ':')) heq
  rw [takeWhile_value, takeWhile_value] at hvalues
  exact h (PresentationLayer.value_injective hvalues)

/-- The director always has a neutral cue. -/
theorem neutralCue_eq_ok (d : PerformanceDirector) (layer : PresentationLayer) (generation : ℕ)
    (requestedAt : ℚ) : ∃ cue, d.neutralCue layer generation requestedAt = .ok cue ∧
      cue.cueId = neutralId layer generation ∧ cue.layer = layer ∧ cue.generation = generation ∧
      cue.neutral = true ∧ cue.priority = .reactiveIdle := by
  obtain ⟨⟨hkey, hstarts, -⟩, haction, hresources, -, -, -, hmax⟩ :=
    CapabilityBindingFields.postInit_eq_ok.mp (d.profile.neutralBinding layer).valid
  rw [d.profile.neutralBinding_layer] at hstarts
  refine ⟨⟨_, ?_⟩, PresentationCue.create_eq_ok.mpr rfl, rfl, rfl, rfl, rfl, rfl⟩
  rw [PresentationCueFields.postInit_eq_ok]
  exact ⟨isIdentifier_neutralId layer generation, hkey, hstarts, haction, hmax, by simp, by simp,
    le_rfl, by simp, hresources, by simp⟩

theorem validNeutrals_neutralCue (d : PerformanceDirector) : ValidNeutrals d.neutralFactory := by
  intro n layer generation t
  obtain ⟨cue, hcue, -, hlayer, hgen, hneutral, -⟩ := d.neutralCue_eq_ok layer generation t
  exact ⟨cue, hcue, hlayer, hgen, hneutral⟩

theorem distinctNeutrals_neutralCue (d : PerformanceDirector) :
    DistinctNeutrals d.neutralFactory := by
  intro n n' layer layer' generation t t' cue cue' hcue hcue' hne
  obtain ⟨c, hc, hid, -⟩ := d.neutralCue_eq_ok layer generation t
  obtain ⟨c', hc', hid', -⟩ := d.neutralCue_eq_ok layer' generation t'
  obtain rfl := Except.ok.inj (hcue.symm.trans hc)
  obtain rfl := Except.ok.inj (hcue'.symm.trans hc')
  rw [hid, hid']
  exact neutralId_ne hne generation generation

/-! ### Requests that cannot be performed -/

/-- The style suppresses the semantic, or the profile has nothing for it. -/
def Unperformable (d : PerformanceDirector) (request : CueRequest) : Prop :=
  request.intent.semanticKey ∈ d.style.suppressedSemantics ∨
    d.profile.Missing request.intent.semanticKey

/-- The lease of a cue that is made of a binding. -/
def leaseFor (d : PerformanceDirector) (request : CueRequest) (binding : CapabilityBinding) :
    Option ℚ :=
  match request.leaseS with
  | some lease => some lease
  | none => binding.defaultLeaseS.map fun lease =>
      lease * (d.style.leaseScale request.intent.layer).getD 1

theorem makeCue_eq_ok {resolution : CapabilityResolution}
    (h : d.makeCue request resolution = .ok cue) :
    cue.leaseS = d.leaseFor request resolution.binding ∧ cue.priority = request.effectivePriority ∧
      cue.layer = request.intent.layer ∧ cue.resources = resolution.binding.resources := by
  rw [makeCue] at h
  have hfields := PresentationCue.create_eq_ok.mp (mapError_eq_ok.mp h)
  exact ⟨congrArg (·.leaseS) hfields, congrArg (·.priority) hfields, congrArg (·.layer) hfields,
    congrArg (·.resources) hfields⟩

/-- **A request that cannot be performed** becomes a cue of its layer's neutral binding. -/
theorem resolve_unperformable (h : d.resolve request = .ok cue) (hun : d.Unperformable request) :
    cue.leaseS = d.leaseFor request (d.profile.neutralBinding request.intent.layer) ∧
      cue.priority = request.effectivePriority := by
  rw [resolve] at h
  rcases hres : d.profile.resolve request.intent with e | resolution
  · rw [hres] at h
    cases h
  rw [hres] at h
  dsimp only [bind, Except.bind] at h
  split at h
  · obtain ⟨hlease, hprio, -⟩ := makeCue_eq_ok h
    exact ⟨hlease, hprio⟩
  · rename_i hstyle
    obtain ⟨hlease, hprio, -⟩ := makeCue_eq_ok h
    rw [(AvatarCapabilityProfile.resolve_eq_neutral hres).2 (hun.resolve_left hstyle)] at hlease
    exact ⟨hlease, hprio⟩

end PerformanceDirector

end Eeveetuber
