import Eeveetuber.Storage.MemoryCodecs
import Eeveetuber.Storage.MemoryRepository

/-!
# What a call does to the tables

A call of the repository leaves the store as it is, adds a candidate, decides about an
open candidate without committing it, or commits it (`Eeveetuber.Storage.Performs`). What a
commit adds is an `Eeveetuber.Storage.Commit`: a revision, and the record that points to it. All
that holds of the stores of a run is derived from these.
-/

namespace Eeveetuber.Storage

open Foundation Memory

variable {Z : Type} [Zones Z] [DecidableEq Z] {s s' : Store} {candidate : MemoryCandidate}
  {decision : PromotionDecision} {approvedBy : Option Text} {ids : NewIds} {ftsAvailable : Bool}
  {status : CandidateStatus} {submitted : SubmittedCandidate Z} {call : Call Z}

/-! ### Parts of a call -/

theorem insertRow_eq_ok {κ ν : Type} [DecidableEq κ] {key : ν → κ} {table table' : Keyed key}
    {row : ν} : insertRow table row = .ok table' ↔
      (∀ r ∈ table, key r ≠ key row) ∧ table.insert row = table' := by
  rw [insertRow]
  split_ifs with h
  · refine iff_of_false (fun heq => by cases heq) ?_
    rintro ⟨hnew, -⟩
    obtain ⟨r, hr, hkey⟩ := Keyed.contains_iff.mp h
    exact hnew r hr hkey
  · rw [Except.ok.injEq]
    refine (and_iff_right fun r hr hkey => h ?_).symm
    exact Keyed.contains_iff.mpr ⟨r, hr, hkey⟩

/-- A candidate that a decision may still change. -/
def Open (status : CandidateStatus) : Prop := status = .pending ∨ status = .reviewRequired

/-- A decision that is valid for an open candidate of the store. -/
structure Decides (s : Store) (candidate : MemoryCandidate) (decision : PromotionDecision)
    (approvedBy : Option Text) : Prop where
  mem : candidate ∈ s.candidates
  candidateId_eq : candidate.candidateId = decision.candidateId
  «open» : Open candidate.status
  valid : validateDecision candidate decision approvedBy = .ok ()

/-- The record that a commit begins or goes on with. -/
inductive Base (s : Store) (candidate : MemoryCandidate) (memoryId : Text) :
    Option MemoryRecordRow → Prop
  /-- A memory that is new. -/
  | first (base : given candidate.baseMemoryId = false)
      (new : ∀ m ∈ s.records, m.memoryId ≠ memoryId) : Base s candidate memoryId none
  /-- A memory that is there, at the revision that the candidate is based on. -/
  | update (record : MemoryRecordRow) (mem : record ∈ s.records)
      (memoryId_eq : record.memoryId = memoryId) (base : candidate.baseMemoryId = some memoryId)
      (current : candidate.baseRevisionId = some record.currentRevisionId)
      (kind : record.kind = candidate.kind) (scope : record.scope = candidate.scope) :
      Base s candidate memoryId (some record)

theorem memoryIdOf_of_given (h : given candidate.baseMemoryId = true) :
    candidate.baseMemoryId = some (memoryIdOf ids candidate) := by
  obtain ⟨memoryId, hbase, -⟩ := given_iff.mp h
  rw [memoryIdOf, if_pos h, hbase, Option.getD_some]

theorem checkRecord_eq_ok (h : checkRecord candidate (memoryIdOf ids candidate)
      (s.records.find? (memoryIdOf ids candidate)) = .ok ()) :
    Base s candidate (memoryIdOf ids candidate) (s.records.find? (memoryIdOf ids candidate)) := by
  rcases hfind : s.records.find? (memoryIdOf ids candidate) with _ | record
  · rw [hfind, checkRecord, raiseIf_eq_ok, Bool.not_eq_true] at h
    exact .first h (Keyed.find?_eq_none.mp hfind)
  · obtain ⟨hmem, hkey⟩ := Keyed.find?_eq_some.mp hfind
    rw [hfind, checkRecord] at h
    split_ifs at h with hgiven
    rw [raiseIf_bind_eq_ok, raiseIf_eq_ok, not_not, not_or, not_not, not_not] at h
    exact .update record hmem hkey (memoryIdOf_of_given hgiven) h.1.symm h.2.1 h.2.2

/-- **What a commit adds**: a revision and the record that points to it. -/
structure Commit (s : Store) (candidate : MemoryCandidate) (memoryId revisionId : Text)
    (found : Option MemoryRecordRow) (revision : MemoryRevision) : Prop where
  base : Base s candidate memoryId found
  revision : newRevision candidate memoryId revisionId (s.generations candidate.namespace + 1) =
    .ok revision
  new : ∀ r ∈ s.revisions, r.revisionId ≠ revisionId
  unpromoted : ∀ r ∈ s.revisions, r.promotedFromCandidateId ≠ some candidate.candidateId
  notCurrent : ∀ m ∈ s.records, m.currentRevisionId ≠ revisionId
  permitted : ¬PromotionPolicy.Forbidden candidate.kind

/-- The store after a commit, before the decision is written. -/
def committed (s : Store) (candidate : MemoryCandidate) (memoryId : Text)
    (found : Option MemoryRecordRow) (revision : MemoryRevision)
    (memoryFts : List MemoryFtsRow) : Store where
  candidates := s.candidates.insert (withStatus candidate .committed)
  unreadable := s.unreadable
  decisions := s.decisions
  records := s.records.insert (recordRow candidate memoryId revision.revisionId found)
  revisions := s.revisions.insert revision
  generations := Function.update s.generations candidate.namespace
    (s.generations candidate.namespace + 1)
  memoryFts := memoryFts

/-- A row gives a submitted candidate back, up to time zones. -/
def GivesBack (stored : MemoryCandidate) (submitted : SubmittedCandidate Z) : Prop :=
  (fieldsOf stored).Agrees SameInstant submitted.toCandidateFields

/-- A candidate that has no row. -/
structure IsNew (s : Store) (submitted : SubmittedCandidate Z) : Prop where
  candidates : ∀ c ∈ s.candidates, c.candidateId ≠ submitted.candidateId
  unreadable : ∀ u ∈ s.unreadable, u.candidateId ≠ submitted.candidateId

/-- **What adding a candidate does**, if it is accepted. -/
inductive Adds (s : Store) (submitted : SubmittedCandidate Z) : Store → Prop
  /-- It is equal to what its row gives. -/
  | again (stored : MemoryCandidate) (mem : stored ∈ s.candidates)
      (equal : (fieldsOf stored).Agrees EqTimestamp submitted.toCandidateFields) :
    Adds s submitted s
  /-- It gets a row that gives it back. -/
  | added (stored : MemoryCandidate) (isNew : IsNew s submitted)
      (aware : submitted.EachTimestamp Timestamp.Aware) (givesBack : GivesBack stored submitted) :
    Adds s submitted { s with candidates := s.candidates.insert stored }
  /-- It gets a row that cannot be read. -/
  | unreadable (isNew : IsNew s submitted) (aware : submitted.EachTimestamp Timestamp.Aware)
      (unordered : ¬Ordered submitted.toCandidateFields) :
    Adds s submitted
      { s with unreadable := s.unreadable.insert ⟨submitted.candidateId, submitted.status⟩ }

/-- **What a call may do.** -/
inductive Performs (s : Store) : Call Z → Store → Prop
  | nothing (call : Call Z) : Performs s call s
  | adds (submitted : SubmittedCandidate Z) (s' : Store) (adds : Adds s submitted s') :
    Performs s (.addCandidate submitted) s'
  | decided (ftsAvailable : Bool) (ids : NewIds) (decision : PromotionDecision)
      (approvedBy : Option Text) (candidate : MemoryCandidate) (status : CandidateStatus)
      (decides : Decides s candidate decision approvedBy)
      (new : ∀ d ∈ s.decisions, d.decisionId ≠ ids.decisionId)
      (statusOf : nonCommitStatus decision approvedBy = some status) :
    Performs s (.applyDecision ftsAvailable ids decision approvedBy)
      { s with
        decisions := s.decisions.insert (decisionRow ids candidate decision approvedBy)
        candidates := s.candidates.insert (withStatus candidate status) }
  | committed (ftsAvailable : Bool) (ids : NewIds) (decision : PromotionDecision)
      (approvedBy : Option Text) (candidate : MemoryCandidate) (memoryId : Text)
      (found : Option MemoryRecordRow) (revision : MemoryRevision) (memoryFts : List MemoryFtsRow)
      (decides : Decides s candidate decision approvedBy)
      (new : ∀ d ∈ s.decisions, d.decisionId ≠ ids.decisionId)
      (commits : nonCommitStatus decision approvedBy = none)
      (commit : Commit s candidate memoryId ids.revisionId found revision)
      (indexed : memoryFts = s.memoryFts ∨ memoryFts = s.memoryFts ++ [ftsRow revision]) :
    Performs s (.applyDecision ftsAvailable ids decision approvedBy)
      { Storage.committed s candidate memoryId found revision memoryFts with
        decisions := s.decisions.insert (decisionRow ids candidate decision approvedBy) }

/-! ### The revision of a commit -/

section NewRevision

variable {memoryId revisionId : Text} {generation : ℕ} {revision : MemoryRevision}

theorem newRevision_eq_ok
    (h : newRevision candidate memoryId revisionId generation = .ok revision) :
    revision.revisionId = revisionId ∧ revision.memoryId = memoryId ∧
      revision.namespace = candidate.namespace ∧ revision.generation = generation ∧
      revision.parentRevisionId = candidate.baseRevisionId ∧
      revision.promotedFromCandidateId = some candidate.candidateId ∧
      revision.kind = candidate.kind ∧ revision.scope = candidate.scope ∧
      revision.provenance = candidate.provenance := by
  rw [newRevision] at h
  split_ifs at h
  obtain rfl := Except.ok.inj h
  exact ⟨rfl, rfl, rfl, rfl, rfl, rfl, rfl, rfl, rfl⟩

end NewRevision

section CommitFields

variable {memoryId revisionId : Text} {found : Option MemoryRecordRow} {revision : MemoryRevision}
  (h : Commit s candidate memoryId revisionId found revision)
include h

theorem Commit.revisionId_eq : revision.revisionId = revisionId := (newRevision_eq_ok h.revision).1

theorem Commit.memoryId_eq : revision.memoryId = memoryId := (newRevision_eq_ok h.revision).2.1

theorem Commit.namespace_eq : revision.namespace = candidate.namespace :=
  (newRevision_eq_ok h.revision).2.2.1

theorem Commit.generation_eq : revision.generation = s.generations candidate.namespace + 1 :=
  (newRevision_eq_ok h.revision).2.2.2.1

theorem Commit.parent_eq : revision.parentRevisionId = candidate.baseRevisionId :=
  (newRevision_eq_ok h.revision).2.2.2.2.1

theorem Commit.candidate_eq : revision.promotedFromCandidateId = some candidate.candidateId :=
  (newRevision_eq_ok h.revision).2.2.2.2.2.1

theorem Commit.kind_eq : revision.kind = candidate.kind :=
  (newRevision_eq_ok h.revision).2.2.2.2.2.2.1

theorem Commit.scope_eq : revision.scope = candidate.scope :=
  (newRevision_eq_ok h.revision).2.2.2.2.2.2.2.1

/-- The revision is new. -/
theorem Commit.revision_new : ∀ r ∈ s.revisions, r.revisionId ≠ revision.revisionId :=
  h.revisionId_eq.symm ▸ h.new

end CommitFields

/-! ### Calls -/

theorem commitCandidate_eq_ok {revision : MemoryRevision} {generation : ℕ}
    (h : commitCandidate ftsAvailable ids candidate s = .ok ((revision, generation), s')) :
    ∃ memoryId found memoryFts, Commit s candidate memoryId ids.revisionId found revision ∧
      (memoryFts = s.memoryFts ∨ memoryFts = s.memoryFts ++ [ftsRow revision]) ∧
      generation = s.generations candidate.namespace + 1 ∧
      s' = committed s candidate memoryId found revision memoryFts := by
  rw [commitCandidate, raiseIf_bind_eq_ok] at h
  obtain ⟨hkind, h⟩ := h
  obtain ⟨⟨⟩, hcheck, h⟩ := except_bind_eq_ok.mp h
  obtain ⟨r, hrevision, h⟩ := except_bind_eq_ok.mp h
  rw [raiseIf_bind_eq_ok] at h
  obtain ⟨hconflicts, h⟩ := h
  obtain ⟨revisions, hinsert, h⟩ := except_bind_eq_ok.mp h
  obtain ⟨hnew, rfl⟩ := insertRow_eq_ok.mp hinsert
  obtain ⟨hpair, rfl⟩ := Prod.mk.inj (Except.ok.inj h)
  obtain ⟨rfl, rfl⟩ := Prod.mk.inj hpair
  have hfields := newRevision_eq_ok hrevision
  simp only [conflicts, Bool.or_eq_true, List.any_eq_true, Bool.and_eq_true, decide_eq_true_eq,
    not_or, not_exists, not_and] at hconflicts
  obtain ⟨hunique, hcurrent⟩ := hconflicts
  refine ⟨_, _, if ftsAvailable then s.memoryFts ++ [ftsRow r] else s.memoryFts,
    ⟨checkRecord_eq_ok hcheck, hrevision, hfields.1 ▸ hnew, ?_, hfields.1 ▸ hcurrent, ?_⟩,
    ?_, rfl, ?_⟩
  · intro r' hr'
    rw [← hfields.2.2.2.2.2.1]
    exact (hunique r' hr').2
  · rintro (h | h | h) <;> simp [h] at hkind
  · split_ifs
    · exact Or.inr rfl
    · exact Or.inl rfl
  · rw [committed, hfields.1]

theorem applyOpen_performs {result : PromotionResult} (hmem : candidate ∈ s.candidates)
    (hid : candidate.candidateId = decision.candidateId) (hopen : Open candidate.status)
    (h : applyOpen ftsAvailable ids candidate decision approvedBy s = .ok (result, s')) :
    Performs s (.applyDecision ftsAvailable ids decision approvedBy : Call Z) s' := by
  rw [applyOpen] at h
  obtain ⟨⟨⟩, hvalid, h⟩ := except_bind_eq_ok.mp h
  rcases hstatus : nonCommitStatus decision approvedBy with _ | status
  · rw [hstatus] at h
    obtain ⟨⟨⟨revision, generation⟩, s₁⟩, hcommitted, h⟩ := except_bind_eq_ok.mp h
    obtain ⟨memoryId, found, memoryFts, hcommit, hindexed, -, rfl⟩ :=
      commitCandidate_eq_ok hcommitted
    obtain ⟨decisions, hinsert, h⟩ := except_bind_eq_ok.mp h
    obtain ⟨hnew, rfl⟩ := insertRow_eq_ok.mp hinsert
    obtain ⟨-, rfl⟩ := Prod.mk.inj (Except.ok.inj h)
    exact .committed ftsAvailable ids decision approvedBy candidate memoryId found revision
      memoryFts ⟨hmem, hid, hopen, hvalid⟩ hnew hstatus hcommit hindexed
  · rw [hstatus] at h
    obtain ⟨decisions, hinsert, h⟩ := except_bind_eq_ok.mp h
    obtain ⟨hnew, rfl⟩ := insertRow_eq_ok.mp hinsert
    obtain ⟨-, rfl⟩ := Prod.mk.inj (Except.ok.inj h)
    exact .decided ftsAvailable ids decision approvedBy candidate status
      ⟨hmem, hid, hopen, hvalid⟩ hnew hstatus

theorem applyDecision_performs {result : PromotionResult}
    (h : applyDecision ftsAvailable ids decision approvedBy s = .ok (result, s')) :
    Performs s (.applyDecision ftsAvailable ids decision approvedBy : Call Z) s' := by
  rw [applyDecision] at h
  rcases hfind : s.candidates.find? decision.candidateId with _ | candidate
  · rw [hfind] at h
    dsimp only at h
    split_ifs at h
  · rw [hfind] at h
    obtain ⟨hmem, hid⟩ := Keyed.find?_eq_some.mp hfind
    rcases hstatus : candidate.status with _ | _ | _ | _ | _
    · simp only [hstatus] at h
      exact applyOpen_performs hmem hid (Or.inl hstatus) h
    · simp only [hstatus] at h
      exact applyOpen_performs hmem hid (Or.inr hstatus) h
    · simp only [hstatus] at h
      contradiction
    · simp only [hstatus] at h
      contradiction
    · simp only [hstatus] at h
      split at h
      · contradiction
      · obtain ⟨-, rfl⟩ := Prod.mk.inj (Except.ok.inj h)
        exact .nothing _

omit [DecidableEq Z] in
theorem storedTime_eq_ok {t : Timestamp Z} {d : Datetime} :
    storedTime t = .ok d ↔ t.Aware ∧ AtUtc d t := by
  rw [storedTime, Timestamp.Aware, Option.isSome_iff_ne_none]
  split_ifs with hoffset
  · exact iff_of_false (fun heq => by cases heq) fun h => h.1 hoffset
  · rw [orRaise_eq_ok, Datetime.ofInstant_eq_some]
    exact (and_iff_right hoffset).symm

omit [DecidableEq Z] in
theorem optionalStoredTime_eq_ok {o : Option (Timestamp Z)} {p : Option Datetime} :
    optionalStoredTime o = .ok p ↔ (∀ t ∈ o, t.Aware) ∧ optionRel AtUtc p o := by
  rcases o with _ | t
  · rcases p with _ | d
    · exact iff_of_true rfl ⟨nofun, trivial⟩
    · exact iff_of_false (fun heq => by cases heq) fun h => h.2
  · rw [optionalStoredTime, map_eq_pure_bind, except_bind_eq_ok]
    rcases p with _ | d
    · refine iff_of_false ?_ fun h => h.2
      rintro ⟨_, -, heq⟩
      cases heq
    · simp only [Option.mem_def, Option.some.injEq, forall_eq']
      refine Iff.trans ?_ storedTime_eq_ok
      constructor
      · rintro ⟨_, ht, heq⟩
        cases heq
        exact ht
      · exact fun ht => ⟨d, ht, rfl⟩

@[simp] theorem candidateId_storedCandidate {observedAt createdAt : Datetime}
    {validFrom validUntil : Option Datetime} {h : ∀ f ∈ validFrom, ∀ u ∈ validUntil, f < u} :
    (storedCandidate submitted observedAt createdAt validFrom validUntil h).candidateId =
      submitted.candidateId := rfl

/-- A candidate that has no row gets one. -/
theorem addCandidate_of_none (hcandidates : s.candidates.find? submitted.candidateId = none)
    (hunreadable : s.unreadable.find? submitted.candidateId = none) :
    addCandidate submitted s = (do
      let observedAt ← storedTime submitted.provenance.observedAt
      let createdAt ← storedTime submitted.createdAt
      let validFrom ← optionalStoredTime submitted.validFrom
      let validUntil ← optionalStoredTime submitted.validUntil
      .ok (submitted, addRow submitted observedAt createdAt validFrom validUntil s)) := by
  rw [addCandidate, Keyed.contains_eq_isSome, hunreadable, hcandidates]
  rfl

/-- One that has a row is compared with what that gives. -/
theorem addCandidate_of_find? {stored : MemoryCandidate}
    (hcandidates : s.candidates.find? submitted.candidateId = some stored)
    (hunreadable : s.unreadable.find? submitted.candidateId = none) :
    addCandidate submitted s =
      if (fieldsOf stored).Agrees EqTimestamp submitted.toCandidateFields then
        .ok (submittedOf stored, s)
      else .error (.candidateHasDifferentData submitted.candidateId) := by
  rw [addCandidate, Keyed.contains_eq_isSome, hunreadable, hcandidates]
  exact ite_not _ _ _

/-- One whose row cannot be read is not accepted. -/
theorem addCandidate_of_unreadable {row : UnreadableRow}
    (hunreadable : s.unreadable.find? submitted.candidateId = some row) :
    addCandidate submitted s = .error .invalidCandidate := by
  rw [addCandidate, Keyed.contains_eq_isSome, hunreadable]
  rfl

theorem addCandidate_eq_ok {result : SubmittedCandidate Z}
    (h : addCandidate submitted s = .ok (result, s')) : Adds s submitted s' := by
  rcases hunreadable : s.unreadable.find? submitted.candidateId with _ | row
  · rcases hcandidates : s.candidates.find? submitted.candidateId with _ | stored
    · rw [addCandidate_of_none hcandidates hunreadable] at h
      obtain ⟨observedAt, hobserved, h⟩ := except_bind_eq_ok.mp h
      obtain ⟨createdAt, hcreated, h⟩ := except_bind_eq_ok.mp h
      obtain ⟨validFrom, hfrom, h⟩ := except_bind_eq_ok.mp h
      obtain ⟨validUntil, huntil, h⟩ := except_bind_eq_ok.mp h
      obtain ⟨-, rfl⟩ := Prod.mk.inj (Except.ok.inj h)
      obtain ⟨hobserved, hobserved'⟩ := storedTime_eq_ok.mp hobserved
      obtain ⟨hcreated, hcreated'⟩ := storedTime_eq_ok.mp hcreated
      obtain ⟨hfrom, hfrom'⟩ := optionalStoredTime_eq_ok.mp hfrom
      obtain ⟨huntil, huntil'⟩ := optionalStoredTime_eq_ok.mp huntil
      have hnew : IsNew s submitted :=
        ⟨Keyed.find?_eq_none.mp hcandidates, Keyed.find?_eq_none.mp hunreadable⟩
      rw [addRow]
      split_ifs with hordered
      · exact .added _ hnew ⟨hobserved, hcreated, hfrom, huntil⟩
          (agrees_inUtc hobserved' hcreated' hfrom' huntil')
      · exact .unreadable hnew ⟨hobserved, hcreated, hfrom, huntil⟩
          (mt (lt_iff_ordered hfrom' huntil').mpr hordered)
    · rw [addCandidate_of_find? hcandidates hunreadable] at h
      split_ifs at h with hequal
      obtain ⟨-, rfl⟩ := Prod.mk.inj (Except.ok.inj h)
      exact .again stored (Keyed.find?_eq_some.mp hcandidates).1 hequal
  · rw [addCandidate_of_unreadable hunreadable] at h
    cases h

/-- A transaction does what its body does, if that does not raise. -/
theorem transaction_performs {α : Type} {body : Store → Except StorageError (α × Store)}
    (h : ∀ a s', body s = .ok (a, s') → Performs s call s') :
    Performs s call (transaction body s).2 := by
  rw [transaction]
  split
  · exact h _ _ ‹_›
  · exact .nothing _

/-- **Every call does one of these.** -/
theorem Call.performs (s : Store) (call : Call Z) : Performs s call (call.perform s) := by
  rcases call with candidate | ⟨ftsAvailable, ids, decision, approvedBy⟩
  · exact transaction_performs fun _ s' h => .adds candidate s' (addCandidate_eq_ok h)
  · exact transaction_performs fun _ _ h => applyDecision_performs h

/-! ### What is kept -/

@[simp] theorem withStatus_status (candidate : MemoryCandidate) :
    withStatus candidate candidate.status = candidate := rfl

@[simp] theorem status_withStatus (candidate : MemoryCandidate) (status : CandidateStatus) :
    (withStatus candidate status).status = status := rfl

@[simp] theorem candidateId_withStatus (candidate : MemoryCandidate) (status : CandidateStatus) :
    (withStatus candidate status).candidateId = candidate.candidateId := rfl

theorem mem_insert_withStatus {candidates : Keyed MemoryCandidate.candidateId}
    (status : CandidateStatus) (hmem : candidate ∈ candidates) (hopen : Open candidate.status)
    {c : MemoryCandidate} (hc : c ∈ candidates) :
    ∃ new, withStatus c new ∈ candidates.insert (withStatus candidate status) ∧
      (¬Open c.status → new = c.status) := by
  by_cases hid : c.candidateId = candidate.candidateId
  · obtain rfl := Keyed.eq_of_key hc hmem hid
    exact ⟨status, Keyed.mem_insert_self, fun hclosed => absurd hopen hclosed⟩
  · exact ⟨c.status, Keyed.mem_insert.mpr (Or.inr ⟨hc, hid⟩), fun _ => rfl⟩

/-- No candidate is lost when another is added. -/
theorem Adds.candidates_subset (h : Adds s submitted s') {c : MemoryCandidate}
    (hc : c ∈ s.candidates) : c ∈ s'.candidates := by
  cases h with
  | again => exact hc
  | added stored hnew _ hback =>
    refine Keyed.mem_insert.mpr (Or.inr ⟨hc, ?_⟩)
    have hid : stored.candidateId = submitted.candidateId := hback.candidateId
    rw [hid]
    exact hnew.candidates c hc
  | unreadable => exact hc

/-- The other tables are as they were. -/
theorem Adds.tables_eq (h : Adds s submitted s') : s'.decisions = s.decisions ∧
    s'.records = s.records ∧ s'.revisions = s.revisions ∧ s'.generations = s.generations ∧
    s'.memoryFts = s.memoryFts := by
  cases h <;> exact ⟨rfl, rfl, rfl, rfl, rfl⟩

/-- **A candidate keeps its data**, and its status once that is not open. -/
theorem Performs.candidate_kept (h : Performs s call s') {c : MemoryCandidate}
    (hc : c ∈ s.candidates) :
    ∃ new, withStatus c new ∈ s'.candidates ∧ (¬Open c.status → new = c.status) := by
  rcases h with _ | ⟨submitted, _, hadds⟩ | ⟨_, _, _, _, _, _, hdecides, _, _⟩ |
    ⟨_, _, _, _, _, _, _, _, _, hdecides, _, _, _, _⟩
  · exact ⟨c.status, hc, fun _ => rfl⟩
  · exact ⟨c.status, hadds.candidates_subset hc, fun _ => rfl⟩
  · exact mem_insert_withStatus _ hdecides.mem hdecides.open hc
  · exact mem_insert_withStatus _ hdecides.mem hdecides.open hc

/-- Decisions are never taken back. -/
theorem Performs.decisions_subset (h : Performs s call s') {d : MemoryDecisionRow}
    (hd : d ∈ s.decisions) : d ∈ s'.decisions := by
  rcases h with _ | ⟨_, _, hadds⟩ | ⟨_, _, _, _, _, _, _, hnew, _⟩ |
    ⟨_, _, _, _, _, _, _, _, _, _, hnew, _, _, _⟩
  · exact hd
  · exact hadds.tables_eq.1 ▸ hd
  · exact Keyed.mem_insert.mpr (Or.inr ⟨hd, hnew d hd⟩)
  · exact Keyed.mem_insert.mpr (Or.inr ⟨hd, hnew d hd⟩)

/-- **What every call keeps** holds of every store of a run. -/
theorem reachable_induction {I : Store → Prop} (hempty : I Store.empty)
    (hstep : ∀ s (call : Call Z) s', I s → Performs s call s' → I s')
    (h : (repository Z).Reachable s) : I s := by
  refine h.invariant ?_ ?_
  · rintro _ rfl
    exact hempty
  · intro s call t _ hI _ hnext
    obtain rfl := Option.some.inj hnext
    exact hstep _ _ _ hI (call.performs s)

theorem reachable_promote {n : Text} (h : (repository Place).Reachable s) :
    (repository Place).Reachable (promote s n candidate) :=
  .step (.step h trivial rfl) trivial rfl

end Eeveetuber.Storage
