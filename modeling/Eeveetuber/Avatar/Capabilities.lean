import Mathlib.Data.Char
import Mathlib.Data.List.Lex
import Mathlib.Data.Rat.Defs
import Eeveetuber.Foundation.Chain
import Eeveetuber.Foundation.Keyed
import Eeveetuber.Avatar.Presentation

/-!
# Avatar capability profiles

A profile says which semantics an avatar can perform, what stands in for those it
cannot, and what each layer falls back to when nothing does. Resolving an intent
follows the chain of fallbacks with `Foundation.follow` until a key has a
capability; `Eeveetuber.AvatarCapabilityProfile.Missing` says that none on the
chain has one, and `Eeveetuber.AvatarCapabilityProfile.resolve_eq_neutral` that it
is then, and only then, that the layer's neutral binding is the answer.

Mappings under texts are dictionaries, and mappings under layers functions, since
they are looked up and otherwise only walked over to be checked.
-/

namespace Eeveetuber

open Foundation

/-- What is wrong with a profile. A key that the source quotes in its message is
kept as it is. -/
inductive CapabilityError where
  | message (text : String)
  /-- "semantic key {key!r} does not belong to {layer!r}" -/
  | foreignKey (key : Text) (layer : PresentationLayer)
  /-- "capability key {key!r} does not match binding key {binding_key!r}" -/
  | mismatchedKey (key bindingKey : Text)
  /-- "neutral binding for {layer!r} belongs to another layer" -/
  | foreignNeutral (layer : PresentationLayer)
  /-- "invalid semantic key {key!r}" -/
  | invalidKey (key : Text)
  /-- "unknown semantic namespace {namespace!r}" -/
  | unknownNamespace (value : Text)
  /-- "fallback cycle contains {key!r}" -/
  | fallbackCycle (key : Text)
deriving DecidableEq

def validateSemanticKey (key : Text) (layer : PresentationLayer) : Except CapabilityError Unit := do
  raiseIf (¬IsIdentifier key) (.message "semantic keys must be non-empty and trimmed")
  raiseIf ((layer.value ++ ['.']).isPrefixOf key = false ∨ ['.'].isSuffixOf key = true)
    (.foreignKey key layer)

theorem validateSemanticKey_eq_ok {key : Text} {layer : PresentationLayer} :
    validateSemanticKey key layer = .ok () ↔ IsIdentifier key ∧
      (layer.value ++ ['.']).isPrefixOf key = true ∧ ['.'].isSuffixOf key = false := by
  rw [validateSemanticKey, check_bind_eq_ok, raiseIf_eq_ok, raiseIf_eq_ok, not_not, not_or,
    Bool.not_eq_false, Bool.not_eq_true]

/-! ### Bindings -/

/-- The fields of a binding. -/
structure CapabilityBindingFields where
  semanticKey : Text
  layer : PresentationLayer
  adapterAction : Option Text
  resources : Finset Text := ∅
  defaultLeaseS : Option ℚ := some (3 / 2)
  cooldownS : ℚ := 0
  cooldownKey : Option Text := none
  maxIntensity : ℚ := 1
  blend : BlendSpec := .default
deriving DecidableEq

def CapabilityBindingFields.postInit (b : CapabilityBindingFields) :
    Except CapabilityError Unit := do
  validateSemanticKey b.semanticKey b.layer
  requireIfPresent (fun action => raiseIf (¬IsIdentifier action)
    (.message "adapter_action must be non-empty and trimmed when provided")) b.adapterAction
  raiseIf (∃ resource ∈ b.resources, ¬IsIdentifier resource)
    (.message "resource names must be non-empty and trimmed")
  requireIfPresent (fun lease => raiseIf (lease ≤ 0)
    (.message "default_lease_s must be finite and greater than zero")) b.defaultLeaseS
  raiseIf (b.cooldownS < 0) (.message "cooldown_s must be finite and non-negative")
  requireIfPresent (fun key => raiseIf (¬IsIdentifier key)
    (.message "cooldown_key must be non-empty and trimmed when provided")) b.cooldownKey
  raiseIf (¬(0 ≤ b.maxIntensity ∧ b.maxIntensity ≤ 1))
    (.message "max_intensity must be finite and between 0.0 and 1.0")

/-- **What the checks of a binding come to.** -/
theorem CapabilityBindingFields.postInit_eq_ok {b : CapabilityBindingFields} :
    b.postInit = .ok () ↔ (IsIdentifier b.semanticKey ∧
        (b.layer.value ++ ['.']).isPrefixOf b.semanticKey = true ∧
        ['.'].isSuffixOf b.semanticKey = false) ∧
      (∀ action ∈ b.adapterAction, IsIdentifier action) ∧
      (∀ resource ∈ b.resources, IsIdentifier resource) ∧ (∀ l ∈ b.defaultLeaseS, 0 < l) ∧
      0 ≤ b.cooldownS ∧ (∀ key ∈ b.cooldownKey, IsIdentifier key) ∧
      0 ≤ b.maxIntensity ∧ b.maxIntensity ≤ 1 := by
  simp only [postInit, check_bind_eq_ok, validateSemanticKey_eq_ok, raiseIf_eq_ok,
    requireIfPresent_eq_ok, not_lt, not_le, not_not, not_exists, not_and, Classical.not_imp]

/-- Avatar-side mapping from one semantic key to an opaque adapter action. -/
structure CapabilityBinding extends CapabilityBindingFields where
  valid : toCapabilityBindingFields.postInit = .ok ()
deriving DecidableEq

/-- A safe renderer-independent fallback when a profile lacks neutral art. -/
def CapabilityBinding.neutralNoop (layer : PresentationLayer) : CapabilityBinding where
  semanticKey := layer.neutralKey
  layer := layer
  adapterAction := none
  defaultLeaseS := none
  maxIntensity := 0
  valid := by cases layer <;> decide +kernel

/-! ### Profiles -/

/-- Why an intent resolves to its binding. -/
inductive ResolutionReason where
  | exact
  | configuredFallback
  | neutralFallback
  | neutralNoop
  | styleSuppressed
deriving DecidableEq, Repr

structure CapabilityResolution where
  requestedKey : Text
  resolvedKey : Text
  binding : CapabilityBinding
  usedFallback : Bool
  reason : ResolutionReason
deriving DecidableEq

/-- `PresentationLayer(value)`. -/
def PresentationLayer.ofValue? (value : Text) : Option PresentationLayer :=
  members.find? fun layer => layer.value = value

def layerFromKey (key : Text) : Except CapabilityError PresentationLayer :=
  if ¬IsIdentifier key ∨ '.' ∉ key then .error (.invalidKey key)
  else
    let value := key.takeWhile (· ≠ '.')
    match PresentationLayer.ofValue? value with
    | some layer => .ok layer
    | none => .error (.unknownNamespace value)

/-- The fields of a profile. -/
structure AvatarCapabilityProfileFields where
  avatarId : Text
  renderer : Text
  capabilities : Mapping Text CapabilityBinding
  neutral : PresentationLayer → Option CapabilityBinding := fun _ => none
  fallbacks : Mapping Text Text := ∅
  apiVersion : ℤ := 1

/-- `sorted(m.items())`. -/
def sortedItems {ν : Type} (m : Mapping Text ν) : List (Text × ν) :=
  m.values.insertionSort fun a b => a.1 ≤ b.1

/-- The loop looks whether a key has a fallback before it looks whether it was seen.
A key that was seen has one. -/
def validateNoFallbackCycles (fallbacks : Mapping Text Text) : Except CapabilityError Unit :=
  (sortedItems fallbacks).forM fun origin =>
    match follow fallbacks.get (fun _ => (none : Option Unit)) (fallbacks.length + 1)
      [] origin.1 with
    | some (.circle key) => .error (.fallbackCycle key)
    | _ => .ok ()

def AvatarCapabilityProfileFields.postInit (p : AvatarCapabilityProfileFields) :
    Except CapabilityError Unit := do
  raiseIf (¬IsIdentifier p.avatarId) (.message "avatar_id must be non-empty and trimmed")
  raiseIf (¬IsIdentifier p.renderer) (.message "renderer must be non-empty and trimmed")
  raiseIf (p.apiVersion < 1) (.message "api_version must be positive")
  (sortedItems p.capabilities).forM fun item =>
    raiseIf (item.1 ≠ item.2.semanticKey) (.mismatchedKey item.1 item.2.semanticKey)
  (PresentationLayer.inOrder Finset.univ).forM fun layer =>
    raiseIf (∃ binding ∈ p.neutral layer, binding.layer ≠ layer) (.foreignNeutral layer)
  (sortedItems p.fallbacks).forM fun item => do
    let sourceLayer ← layerFromKey item.1
    let targetLayer ← layerFromKey item.2
    raiseIf (sourceLayer ≠ targetLayer) (.message "fallbacks cannot cross presentation layers")
  validateNoFallbackCycles p.fallbacks

/-- Immutable model-specific avatar capabilities. -/
structure AvatarCapabilityProfile extends AvatarCapabilityProfileFields where
  valid : toAvatarCapabilityProfileFields.postInit = .ok ()

namespace AvatarCapabilityProfile

variable {p : AvatarCapabilityProfile} {layer : PresentationLayer} {intent : SemanticIntent}
  {resolution : CapabilityResolution}

def neutralBinding (p : AvatarCapabilityProfile) (layer : PresentationLayer) : CapabilityBinding :=
  (p.neutral layer).getD (.neutralNoop layer)

/-- The loop of `resolve`. -/
def search (p : AvatarCapabilityProfile) (key : Text) : Option (Trail Text CapabilityBinding) :=
  follow p.fallbacks.get p.capabilities.get (p.fallbacks.length + 1) [] key

def resolve (p : AvatarCapabilityProfile) (intent : SemanticIntent) :
    Except CapabilityError CapabilityResolution := do
  let requestedKey := intent.semanticKey
  validateSemanticKey requestedKey intent.layer
  match p.search requestedKey with
  | some (.found current binding) =>
    return {
      requestedKey
      resolvedKey := current
      binding
      usedFallback := current ≠ requestedKey
      reason := if current = requestedKey then .exact else .configuredFallback }
  | _ =>
    let binding := p.neutralBinding intent.layer
    return {
      requestedKey
      resolvedKey := binding.semanticKey
      binding
      usedFallback := binding.semanticKey ≠ requestedKey
      reason := if binding.adapterAction.isSome then .neutralFallback else .neutralNoop }

/-- No key on the chain of fallbacks has a capability. -/
def Missing (p : AvatarCapabilityProfile) (key : Text) : Prop :=
  ∀ key', LeadsTo p.fallbacks.get key key' → p.capabilities.get key' = none

/-- The loop comes to an end. -/
theorem search_isSome (p : AvatarCapabilityProfile) (key : Text) :
    (p.search key).isSome = true := by
  refine follow_isSome (fun k hk => Mapping.mem_keys_of_get hk) ?_
  have hle := List.toFinset_card_le p.fallbacks.keys
  rw [Mapping.length_keys] at hle
  simpa using Nat.lt_succ_of_le hle

/-- The loop finds something just if something on the chain has a capability. -/
theorem search_found_iff (p : AvatarCapabilityProfile) (key : Text) :
    (∃ key' binding, p.search key = some (.found key' binding)) ↔ ¬p.Missing key := by
  constructor
  · rintro ⟨key', binding, hfound⟩ hmissing
    obtain ⟨hleads, hlook⟩ := follow_found hfound
    rw [hmissing key' hleads] at hlook
    cases hlook
  · intro hnot
    obtain ⟨trail, htrail⟩ := Option.isSome_iff_exists.mp (p.search_isSome key)
    by_contra hlost
    push Not at hlost
    refine hnot fun key' hleads => follow_lost htrail (fun s hs => absurd hs List.not_mem_nil)
      (fun k v hkv => hlost k v ?_) hleads
    rw [htrail, hkv]

/-- **The neutral binding is the answer** just if the semantic is missing. -/
theorem resolve_eq_neutral (h : p.resolve intent = .ok resolution) :
    (resolution.reason = .neutralFallback ∨ resolution.reason = .neutralNoop ↔
      p.Missing intent.semanticKey) ∧
    (p.Missing intent.semanticKey → resolution.binding = p.neutralBinding intent.layer) := by
  rw [resolve] at h
  rcases hcheck : validateSemanticKey intent.semanticKey intent.layer with e | ⟨⟩
  · rw [hcheck] at h
    cases h
  rw [hcheck] at h
  have hiff := p.search_found_iff intent.semanticKey
  dsimp only [bind, Except.bind] at h
  split at h
  · rename_i hfound
    have hnot := hiff.mp ⟨_, _, hfound⟩
    cases h
    refine ⟨iff_of_false ?_ hnot, fun hm => absurd hm hnot⟩
    dsimp only
    split
    · simp
    · simp
  · rename_i hlost
    have hmissing : p.Missing intent.semanticKey := by
      by_contra hnot
      obtain ⟨key', binding, hfound⟩ := hiff.mpr hnot
      exact hlost _ _ hfound
    cases h
    refine ⟨iff_of_true ?_ hmissing, fun _ => rfl⟩
    dsimp only
    split
    · exact .inl rfl
    · exact .inr rfl

/-- The neutral binding of a layer is one for that layer. -/
theorem neutralBinding_layer (p : AvatarCapabilityProfile) (layer : PresentationLayer) :
    (p.neutralBinding layer).layer = layer := by
  have hvalid := p.valid
  rw [AvatarCapabilityProfileFields.postInit] at hvalid
  simp only [check_bind_eq_ok, forM_eq_ok, raiseIf_eq_ok] at hvalid
  have hlayer := hvalid.2.2.2.2.1 layer (PresentationLayer.mem_inOrder.mpr (Finset.mem_univ _))
  rw [neutralBinding]
  rcases hn : p.neutral layer with _ | binding
  · rfl
  · by_contra hne
    exact hlayer ⟨binding, hn, hne⟩

end AvatarCapabilityProfile

end Eeveetuber
