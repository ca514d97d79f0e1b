import Eeveetuber.Foundation.Checks
import Eeveetuber.Foundation.Keyed
import Eeveetuber.Foundation.Text

/-!
# Enumerations of texts

A member of a `StrEnum` has a text for its value, and calling the enumeration
with a text gives the member of that value, or raises.
-/

namespace Foundation

/-- An enumeration whose members have texts for values. -/
class StrEnum (α : Type) where
  /-- `member.value`. -/
  value : α → Text
  /-- The members, no two of which have one value. -/
  members : Keyed value
  mem_members : ∀ a, a ∈ members

namespace StrEnum

variable {α ε : Type} [StrEnum α]

/-- The member of a value. -/
def ofValue (α : Type) [StrEnum α] (error : ε) (t : Text) : Except ε α :=
  orRaise error ((members (α := α)).find? t)

/-- A member is found by its value. -/
@[simp] theorem ofValue_value (error : ε) (a : α) : ofValue α error (value a) = .ok a :=
  orRaise_eq_ok.mpr (Keyed.find?_eq_some.mpr ⟨mem_members a, rfl⟩)

end StrEnum

end Foundation
