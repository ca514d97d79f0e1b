import Mathlib.Data.Char
import Mathlib.Data.Fintype.Basic
import Mathlib.Data.List.Lex
import Mathlib.Data.List.Sort
import Mathlib.Data.Rat.Defs
import Eeveetuber.Foundation.Text

/-!
# Presentation layers and semantic intents

An avatar is presented on four independently arbitrated layers, and a semantic
intent asks for something on one of them without saying how it is rendered. The
scheduler walks over layers in the order of their values, which is not the order
in which they are declared: `Eeveetuber.PresentationLayer.inOrder` is that walk.
-/

namespace Eeveetuber

open Foundation

/-- Independently arbitrated avatar presentation layers. -/
inductive PresentationLayer where
  | affect
  | gesture
  | gaze
  | posture
deriving DecidableEq, Repr

namespace PresentationLayer

def value : PresentationLayer → Text
  | affect => "affect".toList
  | gesture => "gesture".toList
  | gaze => "gaze".toList
  | posture => "posture".toList

/-- The layers as declared. -/
def members : List PresentationLayer := [affect, gesture, gaze, posture]

theorem mem_members (layer : PresentationLayer) : layer ∈ members := by
  cases layer <;> decide

instance : Fintype PresentationLayer where
  elems := ⟨members, by decide⟩
  complete := mem_members

theorem value_injective : Function.Injective value := by
  have h : ∀ a b : PresentationLayer, a.value = b.value → a = b := by decide
  exact fun a b => h a b

/-- The layers of a set, in the order of their values. -/
def inOrder (layers : Finset PresentationLayer) : List PresentationLayer :=
  (members.filter (· ∈ layers)).insertionSort fun a b => a.value ≤ b.value

example : inOrder Finset.univ = [affect, gaze, gesture, posture] := by decide

variable {layers : Finset PresentationLayer} {layer : PresentationLayer}

@[simp] theorem mem_inOrder : layer ∈ inOrder layers ↔ layer ∈ layers := by
  rw [inOrder, List.mem_insertionSort, List.mem_filter, decide_eq_true_iff]
  exact and_iff_right (mem_members layer)

end PresentationLayer

/-- What every semantic avatar intent offers. -/
structure SemanticIntent where
  layer : PresentationLayer
  semanticKey : Text
  intensity : ℚ
deriving DecidableEq

end Eeveetuber
