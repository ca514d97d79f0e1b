import Eeveetuber.Memory.Models

/-!
# The memory-admission policy

`Eeveetuber.Memory.PromotionPolicy.classify` says what is to become of a candidate: whether it may
be committed, has to be reviewed first, is set aside, or is rejected.
-/

namespace Eeveetuber.Memory

open Foundation

structure PromotionPolicy where
  version : Text := "p0-v1".toList
  /-- The double that is written `0.9`. -/
  autoCommitConfidence : ℚ := 8106479329266893 / 9007199254740992
  version_inLength : InLength 64 version := by decide

namespace PromotionPolicy

/-- The default version. -/
theorem version_inLength_default : InLength 64 "p0-v1".toList := by decide

/-- The reasons for which a candidate has to be reviewed, whatever its kind. -/
def reviewReasons (policy : PromotionPolicy) (candidate : MemoryCandidate) : List Text :=
  (if candidate.kind = .canon ∨ candidate.kind = .persona
    then ["owner_controlled_identity".toList] else []) ++
  (if candidate.sensitivity = .«private» ∨ candidate.sensitivity = .restricted
    then ["sensitive_content".toList] else []) ++
  (if candidate.contradictionRevisionIds ≠ []
    then ["contradicts_committed_memory".toList] else []) ++
  (if candidate.provenance.sourceTrust = .modelInference
    then ["model_inference".toList] else []) ++
  (if candidate.provenance.consented = false
    then ["consent_not_recorded".toList] else []) ++
  (if candidate.confidence < policy.autoCommitConfidence
    then ["below_auto_commit_confidence".toList] else [])

def autoKinds : List MemoryKind :=
  [.userProfile, .relationship, .semanticFact, .episode, .activeTask]

def autoTrust : List SourceTrust := [.ownerAuthored, .ownerStated, .trustedOperator]

/-- `_classify`. -/
def classify (policy : PromotionPolicy) (candidate : MemoryCandidate) :
    PromotionAction × List Text :=
  let reasons := policy.reviewReasons candidate
  if candidate.kind = .policy ∨ candidate.kind = .security then
    (.reject, ["policy_and_security_are_not_memory".toList])
  else if candidate.kind = .proceduralSkill then
    (.reject, ["skills_require_separate_work_mode_lifecycle".toList])
  else if candidate.provenance.sourceTrust = .publicViewer ∨
      candidate.provenance.sourceTrust = .unverifiedImport then
    (.quarantine, ["untrusted_or_public_source".toList])
  else if reasons ≠ [] ∨ candidate.kind ∉ autoKinds then
    (.requireReview, if reasons ≠ [] then reasons else ["class_requires_review".toList])
  else if candidate.provenance.sourceTrust ∉ autoTrust then
    (.requireReview, ["source_requires_review".toList])
  else (.autoCommit, ["high_confidence_low_risk_owner_source".toList])

variable {candidate : MemoryCandidate}

/-- A classification is never without a reason. -/
theorem reasons_ne_nil (policy : PromotionPolicy) (candidate : MemoryCandidate) :
    (policy.classify candidate).2 ≠ [] := by
  rw [classify]
  split_ifs with _ _ _ _ h
  · nofun
  · nofun
  · nofun
  · exact h
  · nofun
  · nofun
  · nofun

/-- `decide`, at a time of the clock. -/
def decide (policy : PromotionPolicy) (candidate : MemoryCandidate) (now : Datetime) :
    PromotionDecision where
  candidateId := candidate.candidateId
  action := (policy.classify candidate).1
  reasonCodes := (policy.classify candidate).2
  policyVersion := policy.version
  decidedAt := now
  candidateId_inLength := candidate.candidateId_inLength
  reasonCodes_ne_nil := reasons_ne_nil policy candidate
  policyVersion_inLength := policy.version_inLength

/-- Kinds that are never memory. -/
def Forbidden (kind : MemoryKind) : Prop :=
  kind = .policy ∨ kind = .security ∨ kind = .proceduralSkill

/-- Sources that are never trusted. -/
def Untrusted (trust : SourceTrust) : Prop := trust = .publicViewer ∨ trust = .unverifiedImport

/-- **What is forbidden or comes from an untrusted source** is rejected or set aside. -/
theorem classify_of_untrusted (policy : PromotionPolicy) (h : Forbidden candidate.kind ∨
    Untrusted candidate.provenance.sourceTrust) :
    (policy.classify candidate).1 = .reject ∨ (policy.classify candidate).1 = .quarantine := by
  rw [classify]
  split_ifs with hpolicy hskill htrust
  · exact Or.inl rfl
  · exact Or.inl rfl
  · exact Or.inr rfl
  all_goals
    exfalso
    rcases h with (h | h | h) | h
    · exact hpolicy (Or.inl h)
    · exact hpolicy (Or.inr h)
    · exact hskill h
    · exact htrust h

end PromotionPolicy

end Eeveetuber.Memory
