import Eeveetuber.Foundation.Checks
import Eeveetuber.Foundation.Keyed
import Eeveetuber.Foundation.Machine
import Eeveetuber.Memory.Promotion
import Eeveetuber.Memory.Submissions

/-!
# The memory repository

The tables of the memory repository, and what its calls do to them. A call is a
transaction (`Eeveetuber.Storage.transaction`): if it raises, nothing is changed. The identifiers
that are made up on the way are given to a call, and the constraints of the tables are checked
whatever they are.

A row is modelled by the value that it gives when it is read, which has its timestamps in UTC.
The candidates that are submitted have timestamps of any time zone, and are compared with
what their rows give. Where the clocks of an interval are in another order than their
instants, the row gives nothing: reading it raises, and only its identifier and its status
are known (`Eeveetuber.Storage.UnreadableRow`).
-/

namespace Eeveetuber.Storage

open Foundation Memory

/-! ### Tables -/

structure MemoryDecisionRow where
  decisionId : Text
  candidateId : Text
  action : PromotionAction
  reasonCodes : List Text
  policyVersion : Text
  decidedAt : Datetime
  decidedBy : Text
  approvedBy : Option Text
deriving DecidableEq

structure MemoryRecordRow where
  memoryId : Text
  «namespace» : Text
  kind : MemoryKind
  scope : MemoryScope
  subject : Text
  currentRevisionId : Text
  createdAt : Datetime
  deletedAt : Option Datetime := none
deriving DecidableEq

structure MemoryFtsRow where
  revisionId : Text
  memoryId : Text
  «namespace» : Text
  subject : Text
  content : Text
deriving DecidableEq

/-- A row of a candidate whose interval does not pass the check when it is read. -/
structure UnreadableRow where
  candidateId : Text
  status : CandidateStatus
deriving DecidableEq

structure Store where
  /-- What the rows of candidates give. -/
  candidates : Keyed MemoryCandidate.candidateId
  /-- The other rows of candidates. -/
  unreadable : Keyed UnreadableRow.candidateId
  decisions : Keyed MemoryDecisionRow.decisionId
  records : Keyed MemoryRecordRow.memoryId
  revisions : Keyed MemoryRevision.revisionId
  /-- The generation of a namespace; zero where there is no row. -/
  generations : Text → ℕ
  memoryFts : List MemoryFtsRow

/-- A store just made. -/
def Store.empty : Store := ⟨∅, ∅, ∅, ∅, ∅, fun _ => 0, []⟩

/-- What a call may raise. -/
inductive StorageError where
  /-- `StableIdConflict`: the identifier of a candidate has different data. -/
  | candidateHasDifferentData (candidateId : Text)
  /-- `StableIdConflict`: a memory identifier that was generated already exists. -/
  | generatedMemoryIdExists (memoryId : Text)
  /-- `InvalidPromotion`, each for its own reason. -/
  | candidateDoesNotExist (candidateId : Text)
  | candidateIsTerminal (status : CandidateStatus)
  | decisionCandidateDoesNotMatch
  | candidateMustRemain (action : PromotionAction)
  | reviewRequiredCannotAutoCommit
  | approvedByCannotBeBlank
  | cannotBeCommitted (kind : MemoryKind)
  | cannotChangeKindOrScope
  /-- `OptimisticConcurrencyError`. -/
  | baseMemoryNoLongerExists
  | baseRevisionIsStale
  /-- `RuntimeError`: a committed candidate has no revision. -/
  | committedCandidateHasNoRevision
  /-- `ValidationError`, of a revision. -/
  | invalidRevision
  /-- `ValidationError`, of a candidate that is read. -/
  | invalidCandidate
  /-- `ValueError`: a timestamp has no time zone. -/
  | timestampNotAware
  /-- `OverflowError`: the instant of a timestamp is not in the calendar of UTC. -/
  | timestampOverflow
  /-- `IntegrityError`: a row violates a constraint of its table. -/
  | integrity
  | searchUnavailable
  /-- `ValueError`: the limit of a search. -/
  | limitOutOfRange
deriving DecidableEq

/-- `session_factory.begin()`: what a call that raises has done is undone. -/
def transaction {α : Type} (body : Store → Except StorageError (α × Store)) (s : Store) :
    Except StorageError α × Store :=
  match body s with
  | .ok (a, s') => (.ok a, s')
  | .error e => (.error e, s)

/-- A row of a table with a primary key. -/
def insertRow {κ ν : Type} [DecidableEq κ] {key : ν → κ} (table : Keyed key) (row : ν) :
    Except StorageError (Keyed key) :=
  if table.contains (key row) then .error .integrity else .ok (table.insert row)

/-! ### Candidates -/

section Candidates

variable {Z : Type} [Zones Z]

/-- What the row gives of a timestamp: `decode_datetime(encode_datetime(t))`. -/
def storedTime (t : Timestamp Z) : Except StorageError Datetime :=
  if t.utcoffset = none then .error .timestampNotAware
  else orRaise .timestampOverflow (Datetime.ofInstant t.instant)

/-- What it gives of an optional one. -/
def optionalStoredTime : Option (Timestamp Z) → Except StorageError (Option Datetime)
  | none => .ok none
  | some t => some <$> storedTime t

variable [DecidableEq Z]

/-- What the row of a candidate gives, with its timestamps in UTC. -/
def storedCandidate (candidate : SubmittedCandidate Z) (observedAt createdAt : Datetime)
    (validFrom validUntil : Option Datetime)
    (h : ∀ f ∈ validFrom, ∀ u ∈ validUntil, f < u) : MemoryCandidate where
  candidateId := candidate.candidateId
  «namespace» := candidate.namespace
  kind := candidate.kind
  scope := candidate.scope
  subject := candidate.subject
  content := candidate.content
  provenance := {
    sourceKind := candidate.provenance.sourceKind
    sourceId := candidate.provenance.sourceId
    sourceTrust := candidate.provenance.sourceTrust
    observedAt := observedAt
    actorId := candidate.provenance.actorId
    evidenceEventIds := candidate.provenance.evidenceEventIds
    consented := candidate.provenance.consented
    sourceId_inLength := candidate.valid.provenance.sourceId
    actorId_le := candidate.valid.provenance.actorId }
  confidence := candidate.confidence
  sensitivity := candidate.sensitivity
  visibility := candidate.visibility
  createdAt := createdAt
  validFrom := validFrom
  validUntil := validUntil
  ttlSeconds := candidate.ttlSeconds
  baseMemoryId := candidate.baseMemoryId
  baseRevisionId := candidate.baseRevisionId
  contradictionRevisionIds := candidate.contradictionRevisionIds
  status := candidate.status
  -- what the row gives is valid because what was submitted is
  candidateId_inLength := candidate.valid.candidateId
  namespace_inLength := candidate.valid.namespace
  subject_inLength := candidate.valid.subject
  content_ne_nil := candidate.valid.content
  confidence_bounds := candidate.valid.confidence
  ttlSeconds_pos := candidate.valid.ttlSeconds
  baseMemoryId_le := candidate.valid.baseMemoryId
  baseRevisionId_le := candidate.valid.baseRevisionId
  validInterval := h
  validBase := candidate.valid.base

/-- `session.add(_candidate_row(candidate))`. -/
def addRow (candidate : SubmittedCandidate Z) (observedAt createdAt : Datetime)
    (validFrom validUntil : Option Datetime) (s : Store) : Store :=
  if h : ∀ f ∈ validFrom, ∀ u ∈ validUntil, f < u then
    let stored := storedCandidate candidate observedAt createdAt validFrom validUntil h
    { s with candidates := s.candidates.insert stored }
  else { s with unreadable := s.unreadable.insert ⟨candidate.candidateId, candidate.status⟩ }

def addCandidate (candidate : SubmittedCandidate Z) (s : Store) :
    Except StorageError (SubmittedCandidate Z × Store) :=
  if s.unreadable.contains candidate.candidateId then .error .invalidCandidate
  else match s.candidates.find? candidate.candidateId with
  | some stored =>
    if ¬(fieldsOf stored).Agrees EqTimestamp candidate.toCandidateFields then
      .error (.candidateHasDifferentData candidate.candidateId)
    else .ok (submittedOf stored, s)
  | none => do
    let observedAt ← storedTime candidate.provenance.observedAt
    let createdAt ← storedTime candidate.createdAt
    let validFrom ← optionalStoredTime candidate.validFrom
    let validUntil ← optionalStoredTime candidate.validUntil
    .ok (candidate, addRow candidate observedAt createdAt validFrom validUntil s)

end Candidates

/-! ### Decisions -/

/-- `_validate_decision`. The time of the baseline is not looked at. -/
def validateDecision (candidate : MemoryCandidate) (decision : PromotionDecision)
    (approvedBy : Option Text) : Except StorageError Unit := do
  raiseIf (decision.candidateId ≠ candidate.candidateId) .decisionCandidateDoesNotMatch
  let policy : PromotionPolicy :=
    { version := decision.policyVersion, version_inLength := decision.policyVersion_inLength }
  let baseline := (policy.classify candidate).1
  raiseIf ((baseline = .reject ∨ baseline = .quarantine) ∧ decision.action ≠ baseline)
    (.candidateMustRemain baseline)
  raiseIf (baseline = .requireReview ∧ decision.action = .autoCommit)
    .reviewRequiredCannotAutoCommit
  raiseIf (decision.action = .requireReview ∧ ∃ name ∈ approvedBy, isBlank name = true)
    .approvedByCannotBeBlank

/-- `_non_commit_status`. -/
def nonCommitStatus (decision : PromotionDecision) (approvedBy : Option Text) :
    Option CandidateStatus :=
  match decision.action with
  | .reject => some .rejected
  | .quarantine => some .quarantined
  | .requireReview => if approvedBy = none then some .reviewRequired else none
  | .autoCommit => none

/-- The identifiers that are made up in a call. -/
structure NewIds where
  decisionId : Text
  memoryId : Text
  revisionId : Text

def decisionRow (ids : NewIds) (candidate : MemoryCandidate) (decision : PromotionDecision)
    (approvedBy : Option Text) : MemoryDecisionRow where
  decisionId := ids.decisionId
  candidateId := candidate.candidateId
  action := decision.action
  reasonCodes := decision.reasonCodes
  policyVersion := decision.policyVersion
  decidedAt := decision.decidedAt
  decidedBy := decision.decidedBy
  approvedBy := approvedBy

/-- The candidate with another status. -/
def withStatus (candidate : MemoryCandidate) (status : CandidateStatus) : MemoryCandidate :=
  { candidate with status := status }

/-! ### Committing -/

/-- `candidate.base_memory_id or new_memory_id()`. -/
def memoryIdOf (ids : NewIds) (candidate : MemoryCandidate) : Text :=
  if given candidate.baseMemoryId then candidate.baseMemoryId.getD [] else ids.memoryId

/-- What is checked of the record that a candidate is about. -/
def checkRecord (candidate : MemoryCandidate) (memoryId : Text) :
    Option MemoryRecordRow → Except StorageError Unit
  | none => raiseIf (given candidate.baseMemoryId) .baseMemoryNoLongerExists
  | some record =>
    if given candidate.baseMemoryId then do
      raiseIf (some record.currentRevisionId ≠ candidate.baseRevisionId) .baseRevisionIsStale
      raiseIf (record.kind ≠ candidate.kind ∨ record.scope ≠ candidate.scope)
        .cannotChangeKindOrScope
    else .error (.generatedMemoryIdExists memoryId)

/-- The record, new or updated. -/
def recordRow (candidate : MemoryCandidate) (memoryId revisionId : Text) :
    Option MemoryRecordRow → MemoryRecordRow
  | none =>
    { memoryId := memoryId
      «namespace» := candidate.namespace
      kind := candidate.kind
      scope := candidate.scope
      subject := candidate.subject
      currentRevisionId := revisionId
      createdAt := candidate.createdAt }
  | some record =>
    { record with
      subject := candidate.subject
      currentRevisionId := revisionId }

/-- The revision that a candidate is promoted to. -/
def newRevision (candidate : MemoryCandidate) (memoryId revisionId : Text) (generation : ℕ) :
    Except StorageError MemoryRevision :=
  if h : InLength 128 revisionId ∧ InLength 128 memoryId ∧ 1 ≤ generation then
    .ok {
      revisionId := revisionId
      memoryId := memoryId
      «namespace» := candidate.namespace
      generation := generation
      parentRevisionId := candidate.baseRevisionId
      promotedFromCandidateId := some candidate.candidateId
      kind := candidate.kind
      scope := candidate.scope
      subject := candidate.subject
      content := candidate.content
      provenance := candidate.provenance
      confidence := candidate.confidence
      sensitivity := candidate.sensitivity
      visibility := candidate.visibility
      createdAt := candidate.createdAt
      validFrom := candidate.validFrom
      validUntil := candidate.validUntil
      ttlSeconds := candidate.ttlSeconds
      revisionId_inLength := h.1
      memoryId_inLength := h.2.1
      generation_pos := h.2.2 }
  else .error .invalidRevision

/-- The unique columns of the revisions and of the records, the primary keys apart. -/
def conflicts (s : Store) (revision : MemoryRevision) : Bool :=
  (s.revisions.values.any fun r =>
    (r.namespace = revision.namespace && r.generation = revision.generation) ||
      r.promotedFromCandidateId = revision.promotedFromCandidateId) ||
  s.records.values.any fun m => m.currentRevisionId = revision.revisionId

/-- What is indexed of a revision. -/
def ftsRow (revision : MemoryRevision) : MemoryFtsRow where
  revisionId := revision.revisionId
  memoryId := revision.memoryId
  «namespace» := revision.namespace
  subject := revision.subject
  content := revision.content

/-- `_commit_candidate`. -/
def commitCandidate (ftsAvailable : Bool) (ids : NewIds) (candidate : MemoryCandidate) (s : Store) :
    Except StorageError ((MemoryRevision × ℕ) × Store) := do
  raiseIf (candidate.kind ∈ [.proceduralSkill, .policy, .security])
    (.cannotBeCommitted candidate.kind)
  let memoryId := memoryIdOf ids candidate
  let found := s.records.find? memoryId
  checkRecord candidate memoryId found
  let generation := s.generations candidate.namespace + 1
  let revision ← newRevision candidate memoryId ids.revisionId generation
  raiseIf (conflicts s revision) .integrity
  let revisions ← insertRow s.revisions revision
  .ok ((revision, generation),
    { s with
      records := s.records.insert (recordRow candidate memoryId ids.revisionId found)
      revisions := revisions
      generations := Function.update s.generations candidate.namespace generation
      candidates := s.candidates.insert (withStatus candidate .committed)
      memoryFts := if ftsAvailable then s.memoryFts ++ [ftsRow revision] else s.memoryFts })

/-- A decision about a candidate that is still open. The row of the decision is written last. -/
def applyOpen (ftsAvailable : Bool) (ids : NewIds) (candidate : MemoryCandidate)
    (decision : PromotionDecision) (approvedBy : Option Text) (s : Store) :
    Except StorageError (PromotionResult × Store) := do
  validateDecision candidate decision approvedBy
  let row := decisionRow ids candidate decision approvedBy
  match nonCommitStatus decision approvedBy with
  | some status => do
    let decisions ← insertRow s.decisions row
    .ok (⟨decision, status, s.generations candidate.namespace, none⟩,
      { s with
        decisions := decisions
        candidates := s.candidates.insert (withStatus candidate status) })
  | none => do
    let ((revision, generation), s) ← commitCandidate ftsAvailable ids candidate s
    let decisions ← insertRow s.decisions row
    .ok (⟨decision, .committed, generation, some revision⟩, { s with decisions := decisions })

def applyDecision (ftsAvailable : Bool) (ids : NewIds) (decision : PromotionDecision)
    (approvedBy : Option Text) (s : Store) : Except StorageError (PromotionResult × Store) :=
  match s.candidates.find? decision.candidateId with
  | none =>
    if s.unreadable.contains decision.candidateId then .error .invalidCandidate
    else .error (.candidateDoesNotExist decision.candidateId)
  | some candidate =>
    match candidate.status with
    | .committed =>
      match s.revisions.values.find?
          fun r => r.promotedFromCandidateId = some candidate.candidateId with
      | none => .error .committedCandidateHasNoRevision
      | some revision => .ok (⟨decision, .committed, revision.generation, some revision⟩, s)
    | .rejected => .error (.candidateIsTerminal .rejected)
    | .quarantined => .error (.candidateIsTerminal .quarantined)
    | .pending | .reviewRequired => applyOpen ftsAvailable ids candidate decision approvedBy s

/-! ### Calls -/

section Calls

variable (Z : Type) [Zones Z] [DecidableEq Z]

/-- The calls; timestamps of candidates are of the time zones `Z`. -/
inductive Call where
  | addCandidate (candidate : SubmittedCandidate Z)
  | applyDecision (ftsAvailable : Bool) (ids : NewIds) (decision : PromotionDecision)
      (approvedBy : Option Text)

variable {Z} in
/-- What a call does to the store. -/
def Call.perform (s : Store) : Call Z → Store
  | .addCandidate candidate => (transaction (Storage.addCandidate candidate) s).2
  | .applyDecision ftsAvailable ids decision approvedBy =>
    (transaction (Storage.applyDecision ftsAvailable ids decision approvedBy) s).2

/-- Calls one after another, from a store just made. -/
def repository : Machine Store (Call Z) where
  start s := s = Store.empty
  next s call := some (call.perform s)

end Calls

/-! ### A memory of the owner -/

def noon : Datetime :=
  { Datetime.morning with day := 19, hour := 12, day_bounds := by decide, hour_lt := by decide }

theorem noBase_le : ∀ t ∈ (none : Option Text), t.length ≤ 128 :=
  fun t ht => absurd ht (Option.not_mem_none t)

theorem certain : (0 : ℚ) ≤ 1 ∧ (1 : ℚ) ≤ 1 := by norm_num

/-- Something that the owner says and may be committed at once. -/
def jasmineTea : MemoryCandidate where
  candidateId := "candidate-1".toList
  «namespace» := "eevee".toList
  kind := .userProfile
  scope := { kind := .owner, subjectId := "owner-1".toList }
  subject := "favorite tea".toList
  content := "The owner likes jasmine tea.".toList
  provenance := {
    sourceKind := .ownerStatement
    sourceId := "message-1".toList
    sourceTrust := .ownerStated
    observedAt := noon
    consented := true }
  confidence := 1
  sensitivity := .internal
  visibility := .streamSafe
  createdAt := noon
  confidence_bounds := certain
  baseMemoryId_le := noBase_le
  baseRevisionId_le := noBase_le

/-- Identifiers of one call. -/
def newIds (n : Text) : NewIds :=
  ⟨"memd_".toList ++ n, "mem_".toList ++ n, "memr_".toList ++ n⟩

/-- What the policy decides of a candidate. -/
def policyDecision (candidate : MemoryCandidate) : PromotionDecision :=
  PromotionPolicy.decide {} candidate noon

/-- A candidate is added, and the decision of the policy is applied. -/
def promote (s : Store) (n : Text) (candidate : MemoryCandidate) : Store :=
  (Call.applyDecision true (newIds n) (policyDecision candidate) none : Call Place).perform
    ((Call.addCandidate (submittedOf candidate) : Call Place).perform s)

end Eeveetuber.Storage
