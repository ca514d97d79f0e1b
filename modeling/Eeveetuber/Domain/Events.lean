import Mathlib.Data.Int.Notation
import Mathlib.Data.Nat.Notation

/-!
# Event envelopes

Everything that enters or leaves a session is an `Eeveetuber.EventEnvelope`. Its
`sequence` is stamped by the session that owns it, and *orders accepted events
without being gap-free when queues drop data*; its `priority` is what the
session's mailboxes order by. The body – the event's type and payload – is a
parameter here.
-/

namespace Eeveetuber

/-- A universally unique identifier, of 128 bits. -/
abbrev UUID := BitVec 128

/-- The conventional priorities. -/
inductive EventPriority where
  | background
  | low
  | normal
  | high
  | critical
deriving DecidableEq, Repr

/-- The integer a priority stands for. -/
def EventPriority.toInt : EventPriority → ℤ
  | .background => 10
  | .low => 25
  | .normal => 50
  | .high => 75
  | .critical => 100

/-- An event with its identity, its owner and its place in the owner's order. -/
structure EventEnvelope (β : Type) where
  /-- The type and payload of the event. -/
  body : β
  eventId : UUID
  sessionId : Option UUID
  sequence : Option ℕ
  priority : ℤ
deriving DecidableEq, Repr

namespace EventEnvelope

variable {β : Type}

/-- The envelope stamped with a sequence number. -/
def withSequence (e : EventEnvelope β) (sequence : ℕ) : EventEnvelope β :=
  { e with sequence := some sequence }

/-- The envelope bound to a session; `none` where it belongs to another one and
the call raises `ValueError`. -/
def forSession (e : EventEnvelope β) (sessionId : UUID) : Option (EventEnvelope β) :=
  match e.sessionId with
  | none => some { e with sessionId := some sessionId }
  | some owner => if owner = sessionId then some e else none

end EventEnvelope

end Eeveetuber
