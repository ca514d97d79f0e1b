import Mathlib.Tactic.MkIffOfInductiveProp
import Eeveetuber.Foundation.Timestamps
import Eeveetuber.Memory.Models

/-!
# Candidates and revisions with timestamps of any time zone

`Eeveetuber.Memory.MemoryCandidate` has its timestamps in UTC, as the rest of
the program has them. What is submitted may carry timestamps of any time zone,
and this is what such values are: their fields, and what the models check of the
fields. The interval of a candidate is checked by comparing *timestamps*, so that
two clocks in one time zone are compared by what they show.

Values are compared field by field. `CandidateFields.Agrees` and
`RevisionFields.Agrees` leave open what is asked of the timestamps: `==` of the
values asks for `==`, and the values are the same up to time zones if the instants
are (`Eeveetuber.Memory.SameInstant`).
-/

namespace Eeveetuber.Memory

open Foundation

/-- What a test of two values says of two optional ones: both are there and pass,
or none is. -/
def optionRel {α β : Type} (r : α → β → Prop) : Option α → Option β → Prop
  | none, none => True
  | some a, some b => r a b
  | none, some _ | some _, none => False

instance {α β : Type} {r : α → β → Prop} [∀ a b, Decidable (r a b)] :
    ∀ a b, Decidable (optionRel r a b)
  | none, none => inferInstanceAs (Decidable True)
  | some a, some b => inferInstanceAs (Decidable (r a b))
  | none, some _ | some _, none => inferInstanceAs (Decidable False)

/-- The fields of a provenance. -/
structure ProvenanceFields (Z : Type) where
  sourceKind : SourceKind
  sourceId : Text
  sourceTrust : SourceTrust
  observedAt : Timestamp Z
  actorId : Option Text := none
  evidenceEventIds : List Text := []
  consented : Bool := false
deriving DecidableEq

/-- The fields of a candidate. -/
structure CandidateFields (Z : Type) where
  candidateId : Text
  «namespace» : Text
  kind : MemoryKind
  scope : MemoryScope
  subject : Text
  content : Text
  provenance : ProvenanceFields Z
  confidence : ℚ
  sensitivity : Sensitivity
  visibility : Visibility
  createdAt : Timestamp Z
  validFrom : Option (Timestamp Z) := none
  validUntil : Option (Timestamp Z) := none
  ttlSeconds : Option ℕ := none
  baseMemoryId : Option Text := none
  baseRevisionId : Option Text := none
  contradictionRevisionIds : List Text := []
  status : CandidateStatus := .pending
deriving DecidableEq

/-- The fields of a revision. -/
structure RevisionFields (Z : Type) where
  revisionId : Text
  memoryId : Text
  «namespace» : Text
  generation : ℕ
  parentRevisionId : Option Text := none
  promotedFromCandidateId : Option Text := none
  kind : MemoryKind
  scope : MemoryScope
  subject : Text
  content : Text
  provenance : ProvenanceFields Z
  confidence : ℚ
  sensitivity : Sensitivity
  visibility : Visibility
  createdAt : Timestamp Z
  validFrom : Option (Timestamp Z) := none
  validUntil : Option (Timestamp Z) := none
  ttlSeconds : Option ℕ := none
  status : RevisionStatus := .committed
deriving DecidableEq

variable {Z : Type}

/-! ### What the models check -/

/-- Whether an optional text is not too long. -/
def AtMost (maxLength : ℕ) (t : Option Text) : Prop := ∀ text ∈ t, text.length ≤ maxLength
deriving Decidable

@[mk_iff] structure ProvenanceFields.Valid (p : ProvenanceFields Z) : Prop where
  sourceId : InLength 512 p.sourceId
  actorId : AtMost 256 p.actorId

section Valid

variable [Zones Z] [DecidableEq Z]

/-- `validate_interval_and_base` lets an interval pass. -/
def intervalPasses (validFrom validUntil : Option (Timestamp Z)) : Prop :=
  ∀ f ∈ validFrom, ∀ u ∈ validUntil, u.le f = some false
deriving Decidable

@[mk_iff] structure CandidateFields.Valid (c : CandidateFields Z) : Prop where
  candidateId : InLength 128 c.candidateId
  «namespace» : InLength 256 c.namespace
  subject : InLength 512 c.subject
  content : c.content ≠ []
  provenance : c.provenance.Valid
  confidence : 0 ≤ c.confidence ∧ c.confidence ≤ 1
  ttlSeconds : ∀ t ∈ c.ttlSeconds, 1 ≤ t
  baseMemoryId : AtMost 128 c.baseMemoryId
  baseRevisionId : AtMost 128 c.baseRevisionId
  interval : intervalPasses c.validFrom c.validUntil
  base : given c.baseRevisionId = true → given c.baseMemoryId = true

end Valid

@[mk_iff] structure RevisionFields.Valid (r : RevisionFields Z) : Prop where
  revisionId : InLength 128 r.revisionId
  memoryId : InLength 128 r.memoryId
  «namespace» : InLength 256 r.namespace
  generation : 1 ≤ r.generation
  parentRevisionId : AtMost 128 r.parentRevisionId
  promotedFromCandidateId : AtMost 128 r.promotedFromCandidateId
  subject : InLength 512 r.subject
  content : r.content ≠ []
  provenance : r.provenance.Valid
  confidence : 0 ≤ r.confidence ∧ r.confidence ≤ 1
  ttlSeconds : ∀ t ∈ r.ttlSeconds, 1 ≤ t

instance (p : ProvenanceFields Z) : Decidable p.Valid :=
  decidable_of_iff' _ (ProvenanceFields.valid_iff p)

instance [Zones Z] [DecidableEq Z] (c : CandidateFields Z) : Decidable c.Valid :=
  decidable_of_iff' _ (CandidateFields.valid_iff c)

instance (r : RevisionFields Z) : Decidable r.Valid :=
  decidable_of_iff' _ (RevisionFields.valid_iff r)

/-- A `MemoryCandidate`, whatever the time zones of its timestamps. -/
structure SubmittedCandidate (Z : Type) [Zones Z] [DecidableEq Z] extends CandidateFields Z where
  valid : toCandidateFields.Valid

/-- A `MemoryRevision`, whatever the time zones of its timestamps. -/
structure SubmittedRevision (Z : Type) extends RevisionFields Z where
  valid : toRevisionFields.Valid

/-! ### The timestamps of a value -/

/-- A property of all the timestamps of a candidate. -/
structure CandidateFields.EachTimestamp (P : Timestamp Z → Prop) (c : CandidateFields Z) :
    Prop where
  observedAt : P c.provenance.observedAt
  createdAt : P c.createdAt
  validFrom : ∀ t ∈ c.validFrom, P t
  validUntil : ∀ t ∈ c.validUntil, P t

/-- A property of all the timestamps of a revision. -/
structure RevisionFields.EachTimestamp (P : Timestamp Z → Prop) (r : RevisionFields Z) :
    Prop where
  observedAt : P r.provenance.observedAt
  createdAt : P r.createdAt
  validFrom : ∀ t ∈ r.validFrom, P t
  validUntil : ∀ t ∈ r.validUntil, P t

/-! ### Comparing values -/

/-- The fields agree; `same` is what is asked of timestamps. -/
@[mk_iff] structure ProvenanceFields.Agrees (same : Timestamp Z → Timestamp Z → Prop)
    (p q : ProvenanceFields Z) : Prop where
  sourceKind : p.sourceKind = q.sourceKind
  sourceId : p.sourceId = q.sourceId
  sourceTrust : p.sourceTrust = q.sourceTrust
  observedAt : same p.observedAt q.observedAt
  actorId : p.actorId = q.actorId
  evidenceEventIds : p.evidenceEventIds = q.evidenceEventIds
  consented : p.consented = q.consented

/-- The fields agree; `same` is what is asked of timestamps. -/
@[mk_iff] structure CandidateFields.Agrees (same : Timestamp Z → Timestamp Z → Prop)
    (c d : CandidateFields Z) : Prop where
  candidateId : c.candidateId = d.candidateId
  «namespace» : c.namespace = d.namespace
  kind : c.kind = d.kind
  scope : c.scope = d.scope
  subject : c.subject = d.subject
  content : c.content = d.content
  provenance : c.provenance.Agrees same d.provenance
  confidence : c.confidence = d.confidence
  sensitivity : c.sensitivity = d.sensitivity
  visibility : c.visibility = d.visibility
  createdAt : same c.createdAt d.createdAt
  validFrom : optionRel same c.validFrom d.validFrom
  validUntil : optionRel same c.validUntil d.validUntil
  ttlSeconds : c.ttlSeconds = d.ttlSeconds
  baseMemoryId : c.baseMemoryId = d.baseMemoryId
  baseRevisionId : c.baseRevisionId = d.baseRevisionId
  contradictionRevisionIds : c.contradictionRevisionIds = d.contradictionRevisionIds
  status : c.status = d.status

/-- The fields agree; `same` is what is asked of timestamps. -/
@[mk_iff] structure RevisionFields.Agrees (same : Timestamp Z → Timestamp Z → Prop)
    (r s : RevisionFields Z) : Prop where
  revisionId : r.revisionId = s.revisionId
  memoryId : r.memoryId = s.memoryId
  «namespace» : r.namespace = s.namespace
  generation : r.generation = s.generation
  parentRevisionId : r.parentRevisionId = s.parentRevisionId
  promotedFromCandidateId : r.promotedFromCandidateId = s.promotedFromCandidateId
  kind : r.kind = s.kind
  scope : r.scope = s.scope
  subject : r.subject = s.subject
  content : r.content = s.content
  provenance : r.provenance.Agrees same s.provenance
  confidence : r.confidence = s.confidence
  sensitivity : r.sensitivity = s.sensitivity
  visibility : r.visibility = s.visibility
  createdAt : same r.createdAt s.createdAt
  validFrom : optionRel same r.validFrom s.validFrom
  validUntil : optionRel same r.validUntil s.validUntil
  ttlSeconds : r.ttlSeconds = s.ttlSeconds
  status : r.status = s.status

section Decidable

variable {same : Timestamp Z → Timestamp Z → Prop} [∀ s t, Decidable (same s t)]

instance (p q : ProvenanceFields Z) : Decidable (p.Agrees same q) :=
  decidable_of_iff' _ (ProvenanceFields.agrees_iff same p q)

instance (c d : CandidateFields Z) : Decidable (c.Agrees same d) :=
  decidable_of_iff' _ (CandidateFields.agrees_iff same c d)

end Decidable

section Same

variable [Zones Z]

/-- The timestamps are of one instant. -/
def SameInstant (s t : Timestamp Z) : Prop := s.instant = t.instant
deriving Decidable

variable [DecidableEq Z]

/-- `s == t`. -/
def EqTimestamp (s t : Timestamp Z) : Prop := s.eq t = true
deriving Decidable

end Same

/-! ### Candidates in UTC -/

section Utc

variable [Zones Z]

/-- The fields of a candidate whose timestamps are in UTC. -/
def fieldsOf (m : MemoryCandidate) : CandidateFields Z where
  candidateId := m.candidateId
  «namespace» := m.namespace
  kind := m.kind
  scope := m.scope
  subject := m.subject
  content := m.content
  provenance :=
    { sourceKind := m.provenance.sourceKind
      sourceId := m.provenance.sourceId
      sourceTrust := m.provenance.sourceTrust
      observedAt := .ofUtc m.provenance.observedAt
      actorId := m.provenance.actorId
      evidenceEventIds := m.provenance.evidenceEventIds
      consented := m.provenance.consented }
  confidence := m.confidence
  sensitivity := m.sensitivity
  visibility := m.visibility
  createdAt := .ofUtc m.createdAt
  validFrom := m.validFrom.map .ofUtc
  validUntil := m.validUntil.map .ofUtc
  ttlSeconds := m.ttlSeconds
  baseMemoryId := m.baseMemoryId
  baseRevisionId := m.baseRevisionId
  contradictionRevisionIds := m.contradictionRevisionIds
  status := m.status

variable [DecidableEq Z]

theorem valid_fieldsOf (m : MemoryCandidate) : (fieldsOf m : CandidateFields Z).Valid where
  candidateId := m.candidateId_inLength
  «namespace» := m.namespace_inLength
  subject := m.subject_inLength
  content := m.content_ne_nil
  provenance := ⟨m.provenance.sourceId_inLength, m.provenance.actorId_le⟩
  confidence := m.confidence_bounds
  ttlSeconds := m.ttlSeconds_pos
  baseMemoryId := m.baseMemoryId_le
  baseRevisionId := m.baseRevisionId_le
  interval := by
    intro f hf u hu
    obtain ⟨d, hd, rfl⟩ := Option.map_eq_some_iff.mp hf
    obtain ⟨e, he, rfl⟩ := Option.map_eq_some_iff.mp hu
    rw [Timestamp.le_ofUtc, Option.some.injEq, decide_eq_false_iff_not, not_le]
    exact m.validInterval d hd e he
  base := m.validBase

/-- A candidate whose timestamps are in UTC, as it is submitted. -/
def submittedOf (m : MemoryCandidate) : SubmittedCandidate Z := ⟨fieldsOf m, valid_fieldsOf m⟩

end Utc

end Eeveetuber.Memory
