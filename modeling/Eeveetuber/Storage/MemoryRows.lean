import Eeveetuber.Foundation.StrEnum
import Eeveetuber.Memory.Submissions

/-!
# The rows of candidates and revisions

How the memory repository writes a candidate and a revision to the columns of a
row, and how it reads them back: enumerations by their values, timestamps as
texts in UTC, the provenance and the scope flattened. A column of JSON is the
list of texts that is in it.

Writing a timestamp fails for one without a time zone, and for one whose
instant is not in the calendar of UTC (`OverflowError`). What is read back is
checked again by the models.
-/

namespace Eeveetuber.Storage

open Foundation Memory

/-! ### Values of enumerations -/

def memoryKindValue : MemoryKind → Text
  | .canon => "canon".toList
  | .persona => "persona".toList
  | .userProfile => "user_profile".toList
  | .viewerProfile => "viewer_profile".toList
  | .relationship => "relationship".toList
  | .semanticFact => "semantic_fact".toList
  | .episode => "episode".toList
  | .activeTask => "active_task".toList
  | .proceduralSkill => "procedural_skill".toList
  | .policy => "policy".toList
  | .security => "security".toList

instance : StrEnum MemoryKind where
  value := memoryKindValue
  members := {
    values := [.canon, .persona, .userProfile, .viewerProfile, .relationship, .semanticFact,
      .episode, .activeTask, .proceduralSkill, .policy, .security]
    nodup := by decide +kernel }
  mem_members := by
    intro a
    rw [← Keyed.mem_values]
    cases a <;> decide

def scopeKindValue : ScopeKind → Text
  | .character => "character".toList
  | .owner => "owner".toList
  | .user => "user".toList
  | .viewer => "viewer".toList
  | .relationship => "relationship".toList
  | .channel => "channel".toList
  | .session => "session".toList
  | .global => "global".toList

instance : StrEnum ScopeKind where
  value := scopeKindValue
  members := {
    values := [.character, .owner, .user, .viewer, .relationship, .channel, .session, .global]
    nodup := by decide +kernel }
  mem_members := by
    intro a
    rw [← Keyed.mem_values]
    cases a <;> decide

def sourceKindValue : SourceKind → Text
  | .ownerStatement => "owner_statement".toList
  | .ownerEdit => "owner_edit".toList
  | .trustedOperator => "trusted_operator".toList
  | .privateConversation => "private_conversation".toList
  | .publicChat => "public_chat".toList
  | .toolObservation => "tool_observation".toList
  | .«import» => "import".toList
  | .modelInference => "model_inference".toList

instance : StrEnum SourceKind where
  value := sourceKindValue
  members := {
    values := [.ownerStatement, .ownerEdit, .trustedOperator, .privateConversation, .publicChat,
      .toolObservation, .«import», .modelInference]
    nodup := by decide +kernel }
  mem_members := by
    intro a
    rw [← Keyed.mem_values]
    cases a <;> decide

def sourceTrustValue : SourceTrust → Text
  | .ownerAuthored => "owner_authored".toList
  | .ownerStated => "owner_stated".toList
  | .trustedOperator => "trusted_operator".toList
  | .authenticatedUser => "authenticated_user".toList
  | .toolObservation => "tool_observation".toList
  | .modelInference => "model_inference".toList
  | .publicViewer => "public_viewer".toList
  | .unverifiedImport => "unverified_import".toList

instance : StrEnum SourceTrust where
  value := sourceTrustValue
  members := {
    values := [.ownerAuthored, .ownerStated, .trustedOperator, .authenticatedUser,
      .toolObservation, .modelInference, .publicViewer, .unverifiedImport]
    nodup := by decide +kernel }
  mem_members := by
    intro a
    rw [← Keyed.mem_values]
    cases a <;> decide

def sensitivityValue : Sensitivity → Text
  | .«public» => "public".toList
  | .internal => "internal".toList
  | .«private» => "private".toList
  | .restricted => "restricted".toList

instance : StrEnum Sensitivity where
  value := sensitivityValue
  members := {
    values := [.«public», .internal, .«private», .restricted]
    nodup := by decide +kernel }
  mem_members := by
    intro a
    rw [← Keyed.mem_values]
    cases a <;> decide

def visibilityValue : Visibility → Text
  | .streamSafe => "stream_safe".toList
  | .trustedContext => "trusted_context".toList
  | .privateSession => "private_session".toList
  | .ownerOnly => "owner_only".toList

instance : StrEnum Visibility where
  value := visibilityValue
  members := {
    values := [.streamSafe, .trustedContext, .privateSession, .ownerOnly]
    nodup := by decide +kernel }
  mem_members := by
    intro a
    rw [← Keyed.mem_values]
    cases a <;> decide

def candidateStatusValue : CandidateStatus → Text
  | .pending => "pending".toList
  | .reviewRequired => "review_required".toList
  | .quarantined => "quarantined".toList
  | .rejected => "rejected".toList
  | .committed => "committed".toList

instance : StrEnum CandidateStatus where
  value := candidateStatusValue
  members := {
    values := [.pending, .reviewRequired, .quarantined, .rejected, .committed]
    nodup := by decide +kernel }
  mem_members := by
    intro a
    rw [← Keyed.mem_values]
    cases a <;> decide

def revisionStatusValue : RevisionStatus → Text
  | .committed => "committed".toList
  | .tombstoned => "tombstoned".toList

instance : StrEnum RevisionStatus where
  value := revisionStatusValue
  members := {
    values := [.committed, .tombstoned]
    nodup := by decide +kernel }
  mem_members := by
    intro a
    rw [← Keyed.mem_values]
    cases a <;> decide

/-! ### Columns -/

/-- What writing and reading a row may raise. -/
inductive RowError where
  /-- `ValueError`: the timestamp has no time zone. -/
  | notAware
  /-- `OverflowError`: the instant is not in the calendar of UTC. -/
  | overflow
  /-- `ValueError`: the text is not a value of the enumeration, or not a timestamp. -/
  | value
  /-- `ValidationError`: the fields do not pass the checks of the model. -/
  | validation
deriving DecidableEq, Repr

/-- The columns of `memory_candidates`. -/
structure MemoryCandidateRow where
  candidateId : Text
  «namespace» : Text
  kind : Text
  scopeKind : Text
  scopeSubjectId : Text
  subject : Text
  content : Text
  sourceKind : Text
  sourceId : Text
  sourceTrust : Text
  sourceActorId : Option Text
  sourceObservedAt : Text
  evidenceEventIdsJson : List Text
  consented : ℤ
  confidence : ℚ
  sensitivity : Text
  visibility : Text
  createdAt : Text
  validFrom : Option Text
  validUntil : Option Text
  ttlSeconds : Option ℕ
  baseMemoryId : Option Text
  baseRevisionId : Option Text
  contradictionRevisionIdsJson : List Text
  status : Text
deriving DecidableEq

/-- The columns of `memory_revisions`. -/
structure MemoryRevisionRow where
  revisionId : Text
  memoryId : Text
  «namespace» : Text
  generation : ℕ
  parentRevisionId : Option Text
  candidateId : Option Text
  kind : Text
  scopeKind : Text
  scopeSubjectId : Text
  subject : Text
  content : Text
  sourceKind : Text
  sourceId : Text
  sourceTrust : Text
  sourceActorId : Option Text
  sourceObservedAt : Text
  evidenceEventIdsJson : List Text
  consented : ℤ
  confidence : ℚ
  sensitivity : Text
  visibility : Text
  validFrom : Option Text
  validUntil : Option Text
  ttlSeconds : Option ℕ
  status : Text
  createdAt : Text
deriving DecidableEq

section Codecs

variable {Z : Type} [Zones Z]

def encodeDatetime (t : Timestamp Z) : Except RowError Text :=
  if t.utcoffset = none then .error .notAware
  else orRaise .overflow ((Datetime.ofInstant t.instant).map Datetime.isoformat)

def decodeDatetime (t : Text) : Except RowError (Timestamp Z) :=
  orRaise .value ((Datetime.fromisoformat t).map Timestamp.ofUtc)

/-- What a conversion makes of an optional value. -/
def convertOptional {α β : Type} (convert : α → Except RowError β) :
    Option α → Except RowError (Option β)
  | none => .ok none
  | some a => some <$> convert a

def encodeOptionalDatetime : Option (Timestamp Z) → Except RowError (Option Text) :=
  convertOptional encodeDatetime

def decodeOptionalDatetime : Option Text → Except RowError (Option (Timestamp Z)) :=
  convertOptional decodeDatetime

/-! ### Writing -/

/-- `_candidate_row`. -/
def candidateRow (c : CandidateFields Z) : Except RowError MemoryCandidateRow := do
  let provenance := c.provenance
  let sourceObservedAt ← encodeDatetime provenance.observedAt
  let createdAt ← encodeDatetime c.createdAt
  let validFrom ← encodeOptionalDatetime c.validFrom
  let validUntil ← encodeOptionalDatetime c.validUntil
  return {
    candidateId := c.candidateId
    «namespace» := c.namespace
    kind := StrEnum.value c.kind
    scopeKind := StrEnum.value c.scope.kind
    scopeSubjectId := c.scope.subjectId
    subject := c.subject
    content := c.content
    sourceKind := StrEnum.value provenance.sourceKind
    sourceId := provenance.sourceId
    sourceTrust := StrEnum.value provenance.sourceTrust
    sourceActorId := provenance.actorId
    sourceObservedAt := sourceObservedAt
    evidenceEventIdsJson := provenance.evidenceEventIds
    consented := provenance.consented.toInt
    confidence := c.confidence
    sensitivity := StrEnum.value c.sensitivity
    visibility := StrEnum.value c.visibility
    createdAt := createdAt
    validFrom := validFrom
    validUntil := validUntil
    ttlSeconds := c.ttlSeconds
    baseMemoryId := c.baseMemoryId
    baseRevisionId := c.baseRevisionId
    contradictionRevisionIdsJson := c.contradictionRevisionIds
    status := StrEnum.value c.status }

/-- `_revision_row`. -/
def revisionRow (r : RevisionFields Z) : Except RowError MemoryRevisionRow := do
  let provenance := r.provenance
  let sourceObservedAt ← encodeDatetime provenance.observedAt
  let validFrom ← encodeOptionalDatetime r.validFrom
  let validUntil ← encodeOptionalDatetime r.validUntil
  let createdAt ← encodeDatetime r.createdAt
  return {
    revisionId := r.revisionId
    memoryId := r.memoryId
    «namespace» := r.namespace
    generation := r.generation
    parentRevisionId := r.parentRevisionId
    candidateId := r.promotedFromCandidateId
    kind := StrEnum.value r.kind
    scopeKind := StrEnum.value r.scope.kind
    scopeSubjectId := r.scope.subjectId
    subject := r.subject
    content := r.content
    sourceKind := StrEnum.value provenance.sourceKind
    sourceId := provenance.sourceId
    sourceTrust := StrEnum.value provenance.sourceTrust
    sourceActorId := provenance.actorId
    sourceObservedAt := sourceObservedAt
    evidenceEventIdsJson := provenance.evidenceEventIds
    consented := provenance.consented.toInt
    confidence := r.confidence
    sensitivity := StrEnum.value r.sensitivity
    visibility := StrEnum.value r.visibility
    validFrom := validFrom
    validUntil := validUntil
    ttlSeconds := r.ttlSeconds
    status := StrEnum.value r.status
    createdAt := createdAt }

/-! ### Reading -/

/-- `_provenance`. -/
def provenance (sourceKind sourceId sourceTrust : Text) (sourceActorId : Option Text)
    (sourceObservedAt : Text) (evidenceEventIds : List Text) (consented : ℤ) :
    Except RowError (ProvenanceFields Z) := do
  let sourceKind ← StrEnum.ofValue SourceKind .value sourceKind
  let sourceTrust ← StrEnum.ofValue SourceTrust .value sourceTrust
  let observedAt ← decodeDatetime sourceObservedAt
  let fields : ProvenanceFields Z := {
    sourceKind := sourceKind
    sourceId := sourceId
    sourceTrust := sourceTrust
    observedAt := observedAt
    actorId := sourceActorId
    evidenceEventIds := evidenceEventIds
    consented := consented ≠ 0 }
  raiseIf (¬fields.Valid) .validation
  return fields

/-- `MemoryScope(kind=ScopeKind(kind), subject_id=subject_id)`. -/
def memoryScope (kind subjectId : Text) : Except RowError MemoryScope := do
  let kind ← StrEnum.ofValue ScopeKind .value kind
  if h : InLength 256 subjectId then return ⟨kind, subjectId, h⟩ else throw .validation

variable [DecidableEq Z]

/-- `_candidate`. -/
def candidate (row : MemoryCandidateRow) : Except RowError (SubmittedCandidate Z) := do
  let kind ← StrEnum.ofValue MemoryKind .value row.kind
  let scope ← memoryScope row.scopeKind row.scopeSubjectId
  let provenance ← provenance row.sourceKind row.sourceId row.sourceTrust row.sourceActorId
    row.sourceObservedAt row.evidenceEventIdsJson row.consented
  let sensitivity ← StrEnum.ofValue Sensitivity .value row.sensitivity
  let visibility ← StrEnum.ofValue Visibility .value row.visibility
  let createdAt ← decodeDatetime row.createdAt
  let validFrom ← decodeOptionalDatetime row.validFrom
  let validUntil ← decodeOptionalDatetime row.validUntil
  let status ← StrEnum.ofValue CandidateStatus .value row.status
  let fields : CandidateFields Z := {
    candidateId := row.candidateId
    «namespace» := row.namespace
    kind := kind
    scope := scope
    subject := row.subject
    content := row.content
    provenance := provenance
    confidence := row.confidence
    sensitivity := sensitivity
    visibility := visibility
    createdAt := createdAt
    validFrom := validFrom
    validUntil := validUntil
    ttlSeconds := row.ttlSeconds
    baseMemoryId := row.baseMemoryId
    baseRevisionId := row.baseRevisionId
    contradictionRevisionIds := row.contradictionRevisionIdsJson
    status := status }
  if h : fields.Valid then return ⟨fields, h⟩ else throw .validation

/-- `_revision`. -/
def revision (row : MemoryRevisionRow) : Except RowError (SubmittedRevision Z) := do
  let kind ← StrEnum.ofValue MemoryKind .value row.kind
  let scope ← memoryScope row.scopeKind row.scopeSubjectId
  let provenance ← provenance row.sourceKind row.sourceId row.sourceTrust row.sourceActorId
    row.sourceObservedAt row.evidenceEventIdsJson row.consented
  let sensitivity ← StrEnum.ofValue Sensitivity .value row.sensitivity
  let visibility ← StrEnum.ofValue Visibility .value row.visibility
  let validFrom ← decodeOptionalDatetime row.validFrom
  let validUntil ← decodeOptionalDatetime row.validUntil
  let status ← StrEnum.ofValue RevisionStatus .value row.status
  let createdAt ← decodeDatetime row.createdAt
  let fields : RevisionFields Z := {
    revisionId := row.revisionId
    memoryId := row.memoryId
    «namespace» := row.namespace
    generation := row.generation
    parentRevisionId := row.parentRevisionId
    promotedFromCandidateId := row.candidateId
    kind := kind
    scope := scope
    subject := row.subject
    content := row.content
    provenance := provenance
    confidence := row.confidence
    sensitivity := sensitivity
    visibility := visibility
    createdAt := createdAt
    validFrom := validFrom
    validUntil := validUntil
    ttlSeconds := row.ttlSeconds
    status := status }
  if h : fields.Valid then return ⟨fields, h⟩ else throw .validation

/-! ### Adding a candidate -/

inductive AddCandidateError where
  /-- `StableIdConflict`: the identifier of a candidate has different data. -/
  | candidateHasDifferentData (candidateId : Text)
  /-- What writing or reading a row raises. -/
  | row (e : RowError)
deriving DecidableEq, Repr

/-- `add_candidate`, on the rows of `memory_candidates`. -/
def addCandidateRow (c : SubmittedCandidate Z) (rows : Keyed MemoryCandidateRow.candidateId) :
    Except AddCandidateError (SubmittedCandidate Z × Keyed MemoryCandidateRow.candidateId) :=
  match rows.find? c.candidateId with
  | some existing => do
    let stored ← (candidate existing).mapError .row
    if ¬stored.Agrees EqTimestamp c.toCandidateFields then
      throw (.candidateHasDifferentData c.candidateId)
    return (stored, rows)
  | none => do
    let row ← (candidateRow c.toCandidateFields).mapError .row
    return (c, rows.insert row)

end Codecs

end Eeveetuber.Storage
