import Mathlib.Algebra.Order.Ring.Rat
import Mathlib.Tactic.NormNum
import Eeveetuber.Foundation.Datetime

/-!
# Personal memory

What is remembered begins as a `Eeveetuber.Memory.MemoryCandidate`: a proposal with its source.
A `Eeveetuber.Memory.PromotionDecision` about it may make it a
`Eeveetuber.Memory.MemoryRevision`, which is what a memory is at one time.
-/

namespace Eeveetuber.Memory

open Foundation

inductive MemoryKind where
  | canon
  | persona
  | userProfile
  | viewerProfile
  | relationship
  | semanticFact
  | episode
  | activeTask
  | proceduralSkill
  | policy
  | security
deriving DecidableEq, Repr

inductive ScopeKind where
  | character
  | owner
  | user
  | viewer
  | relationship
  | channel
  | session
  | global
deriving DecidableEq, Repr

inductive SourceKind where
  | ownerStatement
  | ownerEdit
  | trustedOperator
  | privateConversation
  | publicChat
  | toolObservation
  | «import»
  | modelInference
deriving DecidableEq, Repr

inductive SourceTrust where
  | ownerAuthored
  | ownerStated
  | trustedOperator
  | authenticatedUser
  | toolObservation
  | modelInference
  | publicViewer
  | unverifiedImport
deriving DecidableEq, Repr

inductive Sensitivity where
  | «public»
  | internal
  | «private»
  | restricted
deriving DecidableEq, Repr

inductive Visibility where
  | streamSafe
  | trustedContext
  | privateSession
  | ownerOnly
deriving DecidableEq, Repr

inductive CandidateStatus where
  | pending
  | reviewRequired
  | quarantined
  | rejected
  | committed
deriving DecidableEq, Repr

inductive RevisionStatus where
  | committed
  | tombstoned
deriving DecidableEq, Repr

inductive PromotionAction where
  | autoCommit
  | requireReview
  | quarantine
  | reject
deriving DecidableEq, Repr

@[ext]
structure MemoryScope where
  kind : ScopeKind
  subjectId : Text
  subjectId_inLength : InLength 256 subjectId := by decide

instance : DecidableEq MemoryScope := fun _ _ => decidable_of_iff _ MemoryScope.ext_iff.symm

structure MemoryProvenance where
  sourceKind : SourceKind
  sourceId : Text
  sourceTrust : SourceTrust
  observedAt : Datetime
  actorId : Option Text := none
  evidenceEventIds : List Text := []
  consented : Bool := false
  sourceId_inLength : InLength 512 sourceId := by decide
  actorId_le : ∀ t ∈ actorId, t.length ≤ 256 := by simp
deriving DecidableEq

/-- Whether an optional text is there and not empty: what Python takes it for in a condition. -/
def given : Option Text → Bool
  | some (_ :: _) => true
  | _ => false

theorem given_iff {t : Option Text} : given t = true ↔ ∃ text, t = some text ∧ text ≠ [] := by
  rcases t with _ | _ | ⟨c, text⟩ <;> simp [given]

/-- A proposal of something to remember. -/
@[ext]
structure MemoryCandidate where
  candidateId : Text
  «namespace» : Text
  kind : MemoryKind
  scope : MemoryScope
  subject : Text
  content : Text
  provenance : MemoryProvenance
  confidence : ℚ
  sensitivity : Sensitivity
  visibility : Visibility
  createdAt : Datetime
  validFrom : Option Datetime := none
  validUntil : Option Datetime := none
  ttlSeconds : Option ℕ := none
  baseMemoryId : Option Text := none
  baseRevisionId : Option Text := none
  contradictionRevisionIds : List Text := []
  status : CandidateStatus := .pending
  candidateId_inLength : InLength 128 candidateId := by decide
  namespace_inLength : InLength 256 «namespace» := by decide
  subject_inLength : InLength 512 subject := by decide
  content_ne_nil : content ≠ [] := by decide
  confidence_bounds : 0 ≤ confidence ∧ confidence ≤ 1 := by norm_num
  ttlSeconds_pos : ∀ t ∈ ttlSeconds, 1 ≤ t := by simp
  baseMemoryId_le : ∀ t ∈ baseMemoryId, t.length ≤ 128 := by simp
  baseRevisionId_le : ∀ t ∈ baseRevisionId, t.length ≤ 128 := by simp
  /-- The check of the interval. -/
  validInterval : ∀ f ∈ validFrom, ∀ u ∈ validUntil, f < u := by simp
  /-- The check of the base. -/
  validBase : given baseRevisionId = true → given baseMemoryId = true := by decide

instance : DecidableEq MemoryCandidate := fun _ _ => decidable_of_iff _ MemoryCandidate.ext_iff.symm

/-- What a memory is at one time. -/
@[ext]
structure MemoryRevision where
  revisionId : Text
  memoryId : Text
  «namespace» : Text
  generation : ℕ
  parentRevisionId : Option Text
  promotedFromCandidateId : Option Text
  kind : MemoryKind
  scope : MemoryScope
  subject : Text
  content : Text
  provenance : MemoryProvenance
  confidence : ℚ
  sensitivity : Sensitivity
  visibility : Visibility
  createdAt : Datetime
  validFrom : Option Datetime
  validUntil : Option Datetime
  ttlSeconds : Option ℕ
  status : RevisionStatus := .committed
  revisionId_inLength : InLength 128 revisionId
  memoryId_inLength : InLength 128 memoryId
  generation_pos : 1 ≤ generation

instance : DecidableEq MemoryRevision := fun _ _ => decidable_of_iff _ MemoryRevision.ext_iff.symm

@[ext]
structure PromotionDecision where
  candidateId : Text
  action : PromotionAction
  reasonCodes : List Text
  policyVersion : Text
  decidedAt : Datetime
  decidedBy : Text := "memory-policy".toList
  candidateId_inLength : InLength 128 candidateId
  reasonCodes_ne_nil : reasonCodes ≠ []
  policyVersion_inLength : InLength 64 policyVersion
  decidedBy_inLength : InLength 256 decidedBy := by decide

instance : DecidableEq PromotionDecision := fun _ _ =>
  decidable_of_iff _ PromotionDecision.ext_iff.symm

structure PromotionResult where
  decision : PromotionDecision
  candidateStatus : CandidateStatus
  generation : ℕ
  revision : Option MemoryRevision := none
deriving DecidableEq

structure MemorySearchHit where
  memoryId : Text
  revisionId : Text
  «namespace» : Text
  subject : Text
  content : Text
  score : ℚ
  visibility : Visibility
  sensitivity : Sensitivity
deriving DecidableEq

end Eeveetuber.Memory
