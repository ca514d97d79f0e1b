import Eeveetuber.Avatar.CueIntents
import Eeveetuber.Avatar.Director

/-!
# What an intent resolves to

A semantic key names its layer before the first dot. A profile reads layers off keys in three
places: for its capabilities and its neutral art, where the binding says which layer it is for,
and for its fallbacks, where the two keys have to agree. Together they give that
**every key on a chain of fallbacks is of one layer** (`Eeveetuber.layerName_of_leadsTo`), and so
is the capability at its end.

* `Eeveetuber.AvatarCapabilityProfile.capability_resolution`: **an intent resolves to the first
  capability on its chain of fallbacks**, or to the neutral binding of its layer, and the
  director makes a valid cue of it;
* `Eeveetuber.PerformanceDirector.respectsStyle_iff`: **a style is respected** unless the chain
  of a semantic that it does not suppress ends at one that it does. The director looks for the
  suppressed semantic before the fallbacks are followed, and not after.
-/

namespace Eeveetuber

open Foundation

/-! ### Layers of keys -/

/-- What stands before the first dot of a key. -/
def layerName (key : Text) : Text := key.takeWhile (· ≠ '.')

variable {key key' : Text} {layer layer' : PresentationLayer}

/-- A key in the namespace of a layer names that layer. -/
theorem layerName_of_isPrefixOf (h : (layer.value ++ ['.']).isPrefixOf key = true) :
    layerName key = layer.value := by
  have hvalue : layer.value.all (· ≠ '.') = true := by cases layer <;> decide
  obtain ⟨rest, rfl⟩ := List.isPrefixOf_iff_prefix.mp h
  rw [layerName, List.append_assoc, List.takeWhile_append_of_pos (List.all_eq_true.mp hvalue),
    List.singleton_append, List.takeWhile_cons]
  simp

theorem PresentationLayer.value_of_ofValue? {value : Text}
    (h : PresentationLayer.ofValue? value = some layer) : layer.value = value := by
  rw [PresentationLayer.ofValue?] at h
  simpa using List.find?_some h

theorem layerName_of_layerFromKey (h : layerFromKey key = .ok layer) :
    layerName key = layer.value := by
  rw [layerFromKey] at h
  split at h
  · cases h
  · dsimp only at h
    split at h
    · rename_i found hfound
      obtain rfl := Except.ok.inj h
      exact (PresentationLayer.value_of_ofValue? hfound).symm
    · cases h

/-- A binding is of the layer that its key names. -/
theorem CapabilityBinding.layerName_semanticKey (binding : CapabilityBinding) :
    layerName binding.semanticKey = binding.layer.value :=
  layerName_of_isPrefixOf (CapabilityBindingFields.postInit_eq_ok.mp binding.valid).1.2.1

namespace AvatarCapabilityProfile

variable {p : AvatarCapabilityProfile} {intent : SemanticIntent} {binding : CapabilityBinding}
  {resolution : CapabilityResolution}

/-! ### What a profile has checked -/

theorem mem_sortedItems {ν : Type} {m : Mapping Text ν} {item : Text × ν} :
    item ∈ sortedItems m ↔ item ∈ m := List.mem_insertionSort _

/-- A capability stands under its own key. -/
theorem semanticKey_of_get (h : p.capabilities.get key = some binding) :
    binding.semanticKey = key := by
  have hvalid := p.valid
  rw [AvatarCapabilityProfileFields.postInit] at hvalid
  simp only [check_bind_eq_ok, forM_eq_ok, raiseIf_eq_ok] at hvalid
  have hkey := hvalid.2.2.2.1 (key, binding) (mem_sortedItems.mpr (Mapping.get_eq_some.mp h))
  exact (not_not.mp hkey).symm

/-- A key and its fallback are of one layer. -/
theorem layerName_of_fallback (h : p.fallbacks.get key = some key') :
    layerName key' = layerName key := by
  have hvalid := p.valid
  rw [AvatarCapabilityProfileFields.postInit] at hvalid
  simp only [check_bind_eq_ok, forM_eq_ok, raiseIf_eq_ok] at hvalid
  have hedge := hvalid.2.2.2.2.2.1 (key, key') (mem_sortedItems.mpr (Mapping.get_eq_some.mp h))
  obtain ⟨source, hsource, hedge⟩ := except_bind_eq_ok.mp hedge
  obtain ⟨target, htarget, hedge⟩ := except_bind_eq_ok.mp hedge
  have hsame := raiseIf_eq_ok.mp hedge
  rw [layerName_of_layerFromKey hsource, layerName_of_layerFromKey htarget, not_not.mp hsame]

/-- **The keys on a chain of fallbacks are of one layer.** -/
theorem layerName_of_leadsTo (h : LeadsTo p.fallbacks.get key key') :
    layerName key' = layerName key := by
  induction h with
  | refl => rfl
  | tail _ hstep ih => exact (layerName_of_fallback hstep).trans ih

/-! ### Resolving an intent -/

/-- The first capability on the chain of fallbacks from a key. -/
abbrev FirstCapability (p : AvatarCapabilityProfile) (key key' : Text)
    (binding : CapabilityBinding) : Prop :=
  FirstFound p.fallbacks.get p.capabilities.get key key' binding

/-- **What an intent resolves to.** -/
structure ResolvesTo (p : AvatarCapabilityProfile) (intent : SemanticIntent)
    (resolution : CapabilityResolution) : Prop where
  requestedKey : resolution.requestedKey = intent.semanticKey
  /-- The first capability on the chain, or the neutral binding if there is none. -/
  binding : p.FirstCapability intent.semanticKey resolution.resolvedKey resolution.binding ∨
    p.Missing intent.semanticKey ∧ resolution.binding = p.neutralBinding intent.layer
  layer : resolution.binding.layer = intent.layer
  resolvedKey : resolution.resolvedKey = resolution.binding.semanticKey
  usedFallback : resolution.usedFallback = true ↔ resolution.resolvedKey ≠ resolution.requestedKey

/-- The layer of a capability that is found is the one that the key names. -/
theorem layer_of_firstCapability (h : p.FirstCapability key key' binding)
    (hkey : layerName key = layer.value) : binding.layer = layer := by
  refine PresentationLayer.value_injective ?_
  calc binding.layer.value = layerName binding.semanticKey := binding.layerName_semanticKey.symm
    _ = layerName key' := by rw [semanticKey_of_get h.2]
    _ = layerName key := layerName_of_leadsTo h.leadsTo
    _ = layer.value := hkey

/-- **An intent whose key belongs to its layer resolves.** -/
theorem resolve_of_valid
    (h : validateSemanticKey intent.semanticKey intent.layer = .ok ()) :
    ∃ resolution, p.resolve intent = .ok resolution ∧ p.ResolvesTo intent resolution := by
  have hkey := layerName_of_isPrefixOf (validateSemanticKey_eq_ok.mp h).2.1
  by_cases hmissing : p.Missing intent.semanticKey
  · have hlost : ∀ key' binding, p.search intent.semanticKey ≠ some (.found key' binding) :=
      fun key' binding hfound =>
        (p.search_found_iff intent.semanticKey).mp ⟨key', binding, hfound⟩ hmissing
    rw [resolve, h]
    dsimp only [bind, Except.bind]
    split
    · rename_i hfound
      exact absurd hfound (hlost _ _)
    · refine ⟨_, rfl, ⟨rfl, .inr ⟨hmissing, rfl⟩, p.neutralBinding_layer _, rfl, ?_⟩⟩
      exact decide_eq_true_iff
  · obtain ⟨key', binding, hfound⟩ := (p.search_found_iff intent.semanticKey).mpr hmissing
    have hfirst : p.FirstCapability intent.semanticKey key' binding := follow_firstFound hfound
    rw [resolve, h, hfound]
    refine ⟨_, rfl, ⟨rfl, .inl hfirst, layer_of_firstCapability hfirst hkey,
      (semanticKey_of_get hfirst.2).symm, ?_⟩⟩
    exact decide_eq_true_iff

/-- What an intent resolves to, if it does. -/
theorem resolvesTo_of_resolve (h : p.resolve intent = .ok resolution) :
    validateSemanticKey intent.semanticKey intent.layer = .ok () ∧
      p.ResolvesTo intent resolution := by
  rcases hvalid : validateSemanticKey intent.semanticKey intent.layer with e | ⟨⟩
  · rw [resolve, hvalid] at h
    cases h
  · obtain ⟨resolution', hresolve, hto⟩ := p.resolve_of_valid hvalid
    obtain rfl := Except.ok.inj (hresolve.symm.trans h)
    exact ⟨rfl, hto⟩

end AvatarCapabilityProfile

namespace PerformanceDirector

variable {d : PerformanceDirector} {request : CueRequest} {cue : PresentationCue}
  {resolution : CapabilityResolution}

/-! ### The cue that is made of it -/

/-- The intensity of a request as the style scales it. -/
def scaledIntensity (d : PerformanceDirector) (request : CueRequest) : ℚ :=
  request.intent.intensity * (d.style.intensityScale request.intent.layer).getD 1

/-- What the director makes a cue of: the neutral binding, if the semantic is suppressed. -/
def restyle (d : PerformanceDirector) (request : CueRequest) (resolution : CapabilityResolution) :
    CapabilityResolution :=
  if request.intent.semanticKey ∈ d.style.suppressedSemantics then
    { requestedKey := request.intent.semanticKey
      resolvedKey := (d.profile.neutralBinding request.intent.layer).semanticKey
      binding := d.profile.neutralBinding request.intent.layer
      usedFallback := true
      reason := .styleSuppressed }
  else resolution

theorem resolve_eq (h : d.profile.resolve request.intent = .ok resolution) :
    d.resolve request = d.makeCue request (d.restyle request resolution) := by
  rw [resolve, h, restyle]
  dsimp only [bind, Except.bind]
  split_ifs
  · rfl
  · rfl

theorem leaseScale_pos (style : PerformanceStyle) (layer : PresentationLayer) :
    0 < (style.leaseScale layer).getD 1 := by
  have hvalid := style.valid
  rw [PerformanceStyleFields.postInit] at hvalid
  simp only [check_bind_eq_ok, forM_eq_ok, requireIfPresent_eq_ok, raiseIf_eq_ok, not_le] at hvalid
  have hscale := hvalid.2.1 layer (PresentationLayer.mem_inOrder.mpr (Finset.mem_univ _))
  rcases hlease : style.leaseScale layer with _ | scale
  · exact one_pos
  · exact hscale scale hlease

theorem intensityScale_nonneg (style : PerformanceStyle) (layer : PresentationLayer) :
    0 ≤ (style.intensityScale layer).getD 1 := by
  have hvalid := style.valid
  rw [PerformanceStyleFields.postInit] at hvalid
  simp only [check_bind_eq_ok, forM_eq_ok, requireIfPresent_eq_ok, raiseIf_eq_ok, not_lt] at hvalid
  have hscale := hvalid.1 layer (PresentationLayer.mem_inOrder.mpr (Finset.mem_univ _))
  rcases hintensity : style.intensityScale layer with _ | scale
  · exact zero_le_one
  · exact hscale scale hintensity

/-- A lease is asked for with a positive length. -/
theorem leaseFor_pos (d : PerformanceDirector) (request : CueRequest)
    (binding : CapabilityBinding) : ∀ l ∈ d.leaseFor request binding, 0 < l := by
  have hrequest := request.valid
  simp only [CueRequestFields.postInit, check_bind_eq_ok, requireIfPresent_eq_ok,
    requirePositive_eq_ok] at hrequest
  intro l hl
  rw [leaseFor] at hl
  split at hl
  · rename_i lease hlease
    exact hrequest.2.2 l (hlease.trans hl)
  · obtain ⟨lease, hlease, rfl⟩ := Option.map_eq_some_iff.mp hl
    have hpos := (CapabilityBindingFields.postInit_eq_ok.mp binding.valid).2.2.2.1 lease hlease
    exact mul_pos hpos (leaseScale_pos d.style _)

/-- **A cue is made of a resolution** that fits the request. -/
theorem makeCue_of_fits (hlayer : resolution.binding.layer = request.intent.layer)
    (hkey : resolution.resolvedKey = resolution.binding.semanticKey)
    (hrequested : IsIdentifier resolution.requestedKey)
    (hintensity : 0 ≤ d.scaledIntensity request) :
    ∃ cue, d.makeCue request resolution = .ok cue ∧
      cue.semanticKey = resolution.binding.semanticKey ∧
      cue.adapterAction = resolution.binding.adapterAction ∧
      cue.intensity = min (d.scaledIntensity request) resolution.binding.maxIntensity ∧
      (cue.neutral = true ↔
        resolution.binding = d.profile.neutralBinding request.intent.layer) := by
  -- the binding and the request have passed checks of their own
  obtain ⟨⟨hidentifier, hstarts, -⟩, haction, hresources, -, hcooldown, hcooldownKey, hmax⟩ :=
    CapabilityBindingFields.postInit_eq_ok.mp resolution.binding.valid
  have hrequest := request.valid
  simp only [CueRequestFields.postInit, check_bind_eq_ok, requireIfPresent_eq_ok,
    requirePositive_eq_ok, requireIdentifier_eq_ok] at hrequest
  refine ⟨⟨_, ?_⟩, mapError_eq_ok.mpr (PresentationCue.create_eq_ok.mpr rfl), hkey, rfl, rfl,
    decide_eq_true_iff⟩
  rw [PresentationCueFields.postInit_eq_ok]
  -- and a cue has to pass no others
  refine ⟨hrequest.1, hkey ▸ hidentifier, ?_, haction,
    ⟨le_min hintensity hmax.1, (min_le_right _ _).trans hmax.2⟩, ?_,
    d.leaseFor_pos request resolution.binding, ?_, ?_, hresources, ?_⟩
  · rw [hkey, ← hlayer]
    exact hstarts
  · intro t ht
    obtain rfl := Option.some.inj ht
    exact le_add_of_nonneg_right hrequest.2.1.le
  · dsimp only
    split_ifs
    · exact le_rfl
    · exact hcooldown
  · intro name hname
    obtain rfl := Option.some.inj hname
    rcases hown : resolution.binding.cooldownKey with _ | own
    · exact hidentifier
    · exact hcooldownKey own hown
  · intro name hname
    obtain ⟨-, hname⟩ := Option.ite_none_right_eq_some.mp hname
    obtain rfl := Option.some.inj hname
    exact hrequested

/-- A request that the director answers: its key belongs to its layer, and the style does not
make its intensity negative. -/
def Answers (d : PerformanceDirector) (request : CueRequest) : Prop :=
  validateSemanticKey request.intent.semanticKey request.intent.layer = .ok () ∧
    0 ≤ d.scaledIntensity request

/-- **What the director answers.** -/
theorem resolve_of_answers (h : d.Answers request) :
    ∃ resolution cue, d.profile.resolve request.intent = .ok resolution ∧
      d.profile.ResolvesTo request.intent resolution ∧ d.resolve request = .ok cue ∧
      cue.semanticKey = (d.restyle request resolution).binding.semanticKey ∧
      cue.adapterAction = (d.restyle request resolution).binding.adapterAction ∧
      cue.intensity = min (d.scaledIntensity request)
        (d.restyle request resolution).binding.maxIntensity ∧
      (cue.neutral = true ↔ (d.restyle request resolution).binding =
        d.profile.neutralBinding request.intent.layer) := by
  obtain ⟨hvalid, hintensity⟩ := h
  have hidentifier := (validateSemanticKey_eq_ok.mp hvalid).1
  obtain ⟨resolution, hresolve, hto⟩ := d.profile.resolve_of_valid hvalid
  have hlayer : (d.restyle request resolution).binding.layer = request.intent.layer := by
    rw [restyle]
    split_ifs
    · exact d.profile.neutralBinding_layer _
    · exact hto.layer
  have hkey : (d.restyle request resolution).resolvedKey =
      (d.restyle request resolution).binding.semanticKey := by
    rw [restyle]
    split_ifs
    · rfl
    · exact hto.resolvedKey
  have hrequested : IsIdentifier (d.restyle request resolution).requestedKey := by
    rw [restyle]
    split_ifs
    · exact hidentifier
    · exact hto.requestedKey ▸ hidentifier
  obtain ⟨cue, hcue⟩ := makeCue_of_fits hlayer hkey hrequested hintensity
  exact ⟨resolution, cue, hresolve, hto, resolve_eq hresolve ▸ hcue⟩

theorem answers_of_resolve (h : d.resolve request = .ok cue) : d.Answers request := by
  rcases hresolve : d.profile.resolve request.intent with e | resolution
  · rw [resolve, hresolve] at h
    cases h
  · refine ⟨(AvatarCapabilityProfile.resolvesTo_of_resolve hresolve).1, ?_⟩
    rw [resolve_eq hresolve, makeCue] at h
    have hfields := PresentationCue.create_eq_ok.mp (mapError_eq_ok.mp h)
    have hintensity := (PresentationCueFields.postInit_eq_ok.mp cue.valid).2.2.2.2.1.1
    rw [hfields] at hintensity
    exact hintensity.trans (min_le_left _ _)

/-- The director answers the intents of cognition. -/
theorem answers_of_intent {intent : CueIntent} (h : request.intent = intent.semantic) :
    d.Answers request := by
  rw [Answers, scaledIntensity, h]
  exact ⟨intent.validateSemanticKey_eq_ok,
    mul_nonneg intent.intensity_nonneg (intensityScale_nonneg d.style _)⟩

/-! ### Suppressed semantics -/

/-- **A style is respected** if the cue for a request performs nothing that is suppressed, but
for the neutral binding. -/
def RespectsStyle (d : PerformanceDirector) (request : CueRequest) : Prop :=
  ∀ cue, d.resolve request = .ok cue → cue.semanticKey ∈ d.style.suppressedSemantics →
    cue.neutral = true

/-- The semantic is not suppressed, and has a suppressed one stand in for it. -/
def FallsBackToSuppressed (d : PerformanceDirector) (request : CueRequest) : Prop :=
  request.intent.semanticKey ∉ d.style.suppressedSemantics ∧
    ∃ key binding, d.profile.FirstCapability request.intent.semanticKey key binding ∧
      key ∈ d.style.suppressedSemantics ∧
      binding ≠ d.profile.neutralBinding request.intent.layer

/-- **When a style is respected.** -/
theorem respectsStyle_iff (d : PerformanceDirector) (request : CueRequest) :
    d.RespectsStyle request ↔ ¬(d.Answers request ∧ d.FallsBackToSuppressed request) := by
  constructor
  · rintro hrespects ⟨hanswers, hallowed, key, binding, hfirst, hsuppressed, hart⟩
    obtain ⟨resolution, cue, -, hto, hcue, hkey, -, -, hneutral⟩ := resolve_of_answers hanswers
    rw [restyle, if_neg hallowed] at hkey hneutral
    -- the first capability on the chain is the one that is performed
    have hbinding : resolution.binding = binding := by
      obtain hfound | ⟨hmissing, -⟩ := hto.binding
      · exact (hfirst.unique hfound).2
      · exact nomatch (hmissing key hfirst.leadsTo).symm.trans hfirst.2
    rw [hbinding] at hkey hneutral
    refine hart (hneutral.mp (hrespects cue hcue ?_))
    rw [hkey, AvatarCapabilityProfile.semanticKey_of_get hfirst.2]
    exact hsuppressed
  · intro hnot cue hresolve hsuppressed
    have hanswers := answers_of_resolve hresolve
    obtain ⟨resolution, cue', -, hto, hcue, hkey, -, -, hneutral⟩ := resolve_of_answers hanswers
    obtain rfl := Except.ok.inj (hcue.symm.trans hresolve)
    rw [hneutral]
    by_cases hstyle : request.intent.semanticKey ∈ d.style.suppressedSemantics
    · rw [restyle, if_pos hstyle]
    · rw [restyle, if_neg hstyle] at hkey ⊢
      obtain hfirst | ⟨-, hart⟩ := hto.binding
      · by_contra hart
        refine hnot ⟨hanswers, hstyle, resolution.resolvedKey, resolution.binding, hfirst, ?_, hart⟩
        rw [hto.resolvedKey, ← hkey]
        exact hsuppressed
      · exact hart

/-- A wave. -/
def waveBinding : CapabilityBinding where
  semanticKey := "gesture.wave".toList
  layer := .gesture
  adapterAction := some "motion:wave".toList
  valid := by decide +kernel

/-- An avatar that waves where it is asked to celebrate. -/
def wavingProfile : AvatarCapabilityProfile where
  avatarId := "eevee".toList
  renderer := "live2d".toList
  capabilities := (∅ : Mapping Text CapabilityBinding).insert ("gesture.wave".toList, waveBinding)
  fallbacks := (∅ : Mapping Text Text).insert
    ("gesture.celebrate".toList, "gesture.wave".toList)
  valid := by decide +kernel

/-- A persona that does not wave. -/
def reservedStyle : PerformanceStyle where
  suppressedSemantics := {"gesture.wave".toList}
  valid := by decide +kernel

theorem fullIntensity : (0 : ℚ) ≤ 1 ∧ (1 : ℚ) ≤ 1 := by decide +kernel

/-- A celebration. -/
def celebration : CueIntent := .gesture { gesture := .celebrate, intensity_mem := fullIntensity }

/-- A request to celebrate. -/
def celebrate : CueRequest where
  cueId := "c".toList
  generation := 0
  intent := celebration.semantic
  requestedAt := 0
  valid := by decide +kernel

/-- The avatar waves. -/
theorem celebrate_not_respectsStyle : ¬RespectsStyle ⟨wavingProfile, reservedStyle⟩ celebrate := by
  have hintent : celebrate.intent = celebration.semantic := rfl
  rw [respectsStyle_iff, not_not]
  refine ⟨answers_of_intent hintent, by decide +kernel, "gesture.wave".toList, waveBinding,
    ⟨.single ⟨?_, ?_⟩, ?_⟩, by decide +kernel, by decide +kernel⟩
  all_goals decide +kernel

end PerformanceDirector

/-! ### Capability resolution -/

/-- **Capability resolution.** An intent resolves to the first capability on the chain of
fallbacks from its key, or to its layer's neutral binding if there is none, and it is of the
intent's layer; and a director makes a valid cue of it, no more intense than the binding allows. -/
theorem AvatarCapabilityProfile.capability_resolution (p : AvatarCapabilityProfile) :
    (∀ intent : CueIntent, (p.search intent.semantic.semanticKey).isSome = true ∧
      ∃ resolution, p.resolve intent.semantic = .ok resolution ∧
        p.ResolvesTo intent.semantic resolution) ∧
    ∀ (style : PerformanceStyle) (request : CueRequest) (intent : CueIntent),
      request.intent = intent.semantic →
      ∃ resolution cue, p.resolve request.intent = .ok resolution ∧
        PerformanceDirector.resolve ⟨p, style⟩ request = .ok cue ∧
        cue.toPresentationCueFields.postInit = .ok () ∧
        cue.intensity ≤
          (PerformanceDirector.restyle ⟨p, style⟩ request resolution).binding.maxIntensity := by
  constructor
  · intro intent
    exact ⟨p.search_isSome _, p.resolve_of_valid intent.validateSemanticKey_eq_ok⟩
  · intro style request intent hintent
    obtain ⟨resolution, cue, hresolve, -, hcue, -, -, hintensity, -⟩ :=
      PerformanceDirector.resolve_of_answers
        (PerformanceDirector.answers_of_intent (d := ⟨p, style⟩) hintent)
    exact ⟨resolution, cue, hresolve, hcue, cue.valid, hintensity ▸ min_le_right _ _⟩

/-- The request to celebrate becomes a cue. -/
theorem AvatarCapabilityProfile.capability_resolution_celebrate :
    ∃ cue, PerformanceDirector.resolve ⟨PerformanceDirector.wavingProfile,
      PerformanceDirector.reservedStyle⟩ PerformanceDirector.celebrate = .ok cue := by
  obtain ⟨-, hcues⟩ := capability_resolution PerformanceDirector.wavingProfile
  obtain ⟨-, cue, -, hcue, -⟩ := hcues PerformanceDirector.reservedStyle
    PerformanceDirector.celebrate PerformanceDirector.celebration rfl
  exact ⟨cue, hcue⟩

end Eeveetuber
