import Eeveetuber.Avatar.Capabilities

/-!
# The intents of cognition

Cognition and personas ask for four kinds of things, one for each layer: an affect, a gesture, a
gaze and a posture. Each is one of a few names, and an affect that names none is given one by its
valence and its arousal. `Eeveetuber.CueIntent.validateSemanticKey_eq_ok` is what a profile may
rely on: **the key of such an intent belongs to its layer**.
-/

namespace Eeveetuber

open Foundation

/-! ### Names -/

inductive AffectLabel where
  | neutral
  | joy
  | sadness
  | anger
  | fear
  | surprise
  | disgust
  | calm
  | concern
  | confusion
  | excitement
deriving DecidableEq, Repr

def AffectLabel.value : AffectLabel → Text
  | neutral => "neutral".toList
  | joy => "joy".toList
  | sadness => "sadness".toList
  | anger => "anger".toList
  | fear => "fear".toList
  | surprise => "surprise".toList
  | disgust => "disgust".toList
  | calm => "calm".toList
  | concern => "concern".toList
  | confusion => "confusion".toList
  | excitement => "excitement".toList

inductive GestureKind where
  | neutral
  | nod
  | shakeHead
  | wave
  | shrug
  | pointLeft
  | pointRight
  | celebrate
  | think
  | acknowledge
deriving DecidableEq, Repr

def GestureKind.value : GestureKind → Text
  | neutral => "neutral".toList
  | nod => "nod".toList
  | shakeHead => "shake_head".toList
  | wave => "wave".toList
  | shrug => "shrug".toList
  | pointLeft => "point_left".toList
  | pointRight => "point_right".toList
  | celebrate => "celebrate".toList
  | think => "think".toList
  | acknowledge => "acknowledge".toList

inductive GazeTarget where
  | neutral
  | user
  | camera
  | screen
  | left
  | right
  | up
  | down
  | away
deriving DecidableEq, Repr

def GazeTarget.value : GazeTarget → Text
  | neutral => "neutral".toList
  | user => "user".toList
  | camera => "camera".toList
  | screen => "screen".toList
  | left => "left".toList
  | right => "right".toList
  | up => "up".toList
  | down => "down".toList
  | away => "away".toList

inductive PostureKind where
  | neutral
  | relaxed
  | attentive
  | «open»
  | closed
  | leanForward
  | leanBack
  | thinking
deriving DecidableEq, Repr

def PostureKind.value : PostureKind → Text
  | neutral => "neutral".toList
  | relaxed => "relaxed".toList
  | attentive => "attentive".toList
  | «open» => "open".toList
  | closed => "closed".toList
  | leanForward => "lean_forward".toList
  | leanBack => "lean_back".toList
  | thinking => "thinking".toList

/-! ### Intents -/

/-- Dimensional affect with an optional stable categorical hint. -/
structure AffectIntent where
  valence : ℚ := 0
  arousal : ℚ := 0
  label : Option AffectLabel := none
  intensity : ℚ := 1
  valence_mem : -1 ≤ valence ∧ valence ≤ 1
  arousal_mem : 0 ≤ arousal ∧ arousal ≤ 1
  intensity_mem : 0 ≤ intensity ∧ intensity ≤ 1

/-- The label of an affect, or one for its valence and its arousal. -/
def AffectIntent.effectiveLabel (intent : AffectIntent) : AffectLabel :=
  match intent.label with
  | some label => label
  | none =>
    if 2 / 10 ≤ intent.valence then if 75 / 100 ≤ intent.arousal then .excitement else .joy
    else if intent.valence ≤ -(2 / 10) then
      if 65 / 100 ≤ intent.arousal then .anger else .sadness
    else if 8 / 10 ≤ intent.arousal then .surprise
    else .neutral

structure GestureIntent where
  gesture : GestureKind
  intensity : ℚ := 1
  intensity_mem : 0 ≤ intensity ∧ intensity ≤ 1

structure GazeIntent where
  target : GazeTarget
  intensity : ℚ := 1
  intensity_mem : 0 ≤ intensity ∧ intensity ≤ 1

structure PostureIntent where
  posture : PostureKind
  intensity : ℚ := 1
  intensity_mem : 0 ≤ intensity ∧ intensity ≤ 1

/-- `f"{layer.value}.{name}"`. -/
def PresentationLayer.keyOf (layer : PresentationLayer) (name : Text) : Text :=
  layer.value ++ '.' :: name

/-- An intent that cognition may utter. -/
inductive CueIntent where
  | affect (intent : AffectIntent)
  | gesture (intent : GestureIntent)
  | gaze (intent : GazeIntent)
  | posture (intent : PostureIntent)

namespace CueIntent

/-- What an intent offers. -/
def semantic : CueIntent → SemanticIntent
  | affect intent => ⟨.affect, PresentationLayer.affect.keyOf intent.effectiveLabel.value,
      intent.intensity⟩
  | gesture intent => ⟨.gesture, PresentationLayer.gesture.keyOf intent.gesture.value,
      intent.intensity⟩
  | gaze intent => ⟨.gaze, PresentationLayer.gaze.keyOf intent.target.value, intent.intensity⟩
  | posture intent => ⟨.posture, PresentationLayer.posture.keyOf intent.posture.value,
      intent.intensity⟩

/-- **The key of an intent belongs to its layer.** -/
theorem validateSemanticKey_eq_ok (intent : CueIntent) :
    validateSemanticKey intent.semantic.semanticKey intent.semantic.layer = .ok () := by
  rcases intent with intent | intent | intent | intent
  · rw [semantic]
    dsimp only
    generalize intent.effectiveLabel = label
    cases label <;> decide +kernel
  · rw [semantic]
    dsimp only
    generalize intent.gesture = gesture
    cases gesture <;> decide +kernel
  · rw [semantic]
    dsimp only
    generalize intent.target = target
    cases target <;> decide +kernel
  · rw [semantic]
    dsimp only
    generalize intent.posture = posture
    cases posture <;> decide +kernel

theorem intensity_nonneg (intent : CueIntent) : 0 ≤ intent.semantic.intensity := by
  rcases intent with intent | intent | intent | intent
  all_goals exact intent.intensity_mem.1

end CueIntent

end Eeveetuber
