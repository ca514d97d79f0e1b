import Eeveetuber.Storage.MemorySteps

/-!
# What is admitted to memory

Decisions are made by the callers of the repository, who may say anything. Yet **nothing is
committed that the policy rejects or sets aside, and nothing without review that has to be
reviewed**: `Eeveetuber.Storage.admission_gate`.
-/

namespace Eeveetuber.Storage

open Foundation Memory PromotionPolicy

variable {Z : Type} [Zones Z] [DecidableEq Z] {s s' : Store} {candidate : MemoryCandidate}
  {decision : PromotionDecision} {approvedBy : Option Text} {call : Call Z}

/-- What the policy says of a candidate. -/
def baseline (candidate : MemoryCandidate) : PromotionAction :=
  (({ version_inLength := version_inLength_default } : PromotionPolicy).classify candidate).1

/-- The status has no part in it. -/
@[simp] theorem baseline_withStatus (candidate : MemoryCandidate) (status : CandidateStatus) :
    baseline (withStatus candidate status) = baseline candidate := rfl

/-! ### Valid decisions -/

theorem validateDecision_eq_ok (h : validateDecision candidate decision approvedBy = .ok ()) :
    (baseline candidate = .reject ∨ baseline candidate = .quarantine →
      decision.action = baseline candidate) ∧
    (baseline candidate = .requireReview → decision.action ≠ .autoCommit) ∧
    (decision.action = .requireReview → ∀ name ∈ approvedBy, isBlank name = false) := by
  rw [validateDecision, raiseIf_bind_eq_ok] at h
  obtain ⟨-, h⟩ := h
  dsimp only at h
  rw [raiseIf_bind_eq_ok, raiseIf_bind_eq_ok, raiseIf_eq_ok] at h
  obtain ⟨hremain, hreview, hblank⟩ := h
  refine ⟨fun hbase => ?_, fun hbase haction => hreview ⟨hbase, haction⟩,
    fun haction name hname => ?_⟩
  · by_contra hne
    exact hremain ⟨hbase, hne⟩
  · rw [Bool.eq_false_iff]
    exact fun hname' => hblank ⟨haction, name, hname, hname'⟩

/-- **A decision that commits** is about a candidate that is not rejected or set aside and,
if it has to be reviewed, approves it. -/
theorem Decides.commits (h : Decides s candidate decision approvedBy)
    (hcommits : nonCommitStatus decision approvedBy = none) :
    (baseline candidate ≠ .reject ∧ baseline candidate ≠ .quarantine) ∧
      (baseline candidate = .requireReview → decision.action = .requireReview ∧
        ∃ name ∈ approvedBy, isBlank name = false) := by
  obtain ⟨hremain, hreview, hblank⟩ := validateDecision_eq_ok h.valid
  rw [nonCommitStatus] at hcommits
  rcases haction : decision.action with _ | _ | _ | _
  · simp only [haction] at hremain hreview
    refine ⟨⟨fun hbase => ?_, fun hbase => ?_⟩, fun hbase => absurd rfl (hreview hbase)⟩
    · rw [hbase] at hremain
      exact nomatch hremain (Or.inl rfl)
    · rw [hbase] at hremain
      exact nomatch hremain (Or.inr rfl)
  · simp only [haction] at hremain hcommits
    refine ⟨⟨fun hbase => ?_, fun hbase => ?_⟩, fun _ => ⟨rfl, ?_⟩⟩
    · rw [hbase] at hremain
      exact nomatch hremain (Or.inl rfl)
    · rw [hbase] at hremain
      exact nomatch hremain (Or.inr rfl)
    · rcases approvedBy with _ | name
      · contradiction
      · exact ⟨name, rfl, hblank haction name rfl⟩
  · simp [haction] at hcommits
  · simp [haction] at hcommits

/-! ### Revisions -/

/-- A decision admits a revision that is promoted from a candidate. -/
structure Admits (candidate : MemoryCandidate) (d : MemoryDecisionRow) (r : MemoryRevision) :
    Prop where
  candidate_eq : r.promotedFromCandidateId = some candidate.candidateId
  decided : d.candidateId = candidate.candidateId
  permitted : ¬Forbidden candidate.kind
  trusted : ¬Untrusted candidate.provenance.sourceTrust
  /-- What has to be reviewed was approved by name. -/
  reviewed : baseline candidate = .requireReview →
    d.action = .requireReview ∧ ∃ name ∈ d.approvedBy, isBlank name = false

theorem Admits.withStatus {d : MemoryDecisionRow} {r : MemoryRevision} (h : Admits candidate d r)
    (status : CandidateStatus) : Admits (withStatus candidate status) d r :=
  ⟨h.candidate_eq, h.decided, h.permitted, h.trusted, h.reviewed⟩

/-- **A revision is new with the decision that admits it.** -/
theorem Performs.revision_cases (h : Performs s call s') {r : MemoryRevision}
    (hr : r ∈ s'.revisions) : r ∈ s.revisions ∨
      ∃ c ∈ s'.candidates, ∃ d ∈ s'.decisions, d ∉ s.decisions ∧ Admits c d r := by
  rcases h with _ | ⟨_, _, hadds⟩ | _ |
    ⟨_, ids, decision, approvedBy, candidate, memoryId, found, revision, memoryFts, hdecides, hnew,
      hcommits, hcommit, -⟩
  · exact Or.inl hr
  · exact Or.inl (hadds.tables_eq.2.2.1 ▸ hr)
  · exact Or.inl hr
  · rcases Keyed.mem_insert.mp hr with rfl | ⟨hr, -⟩
    · obtain ⟨⟨hreject, hquarantine⟩, hreview⟩ := hdecides.commits hcommits
      refine Or.inr ⟨_, Keyed.mem_insert_self, _, Keyed.mem_insert_self, fun hd => hnew _ hd rfl,
        hcommit.candidate_eq, rfl, hcommit.permitted, fun huntrusted => ?_, hreview⟩
      rcases classify_of_untrusted {} (Or.inr huntrusted) with hbase | hbase
      · exact hreject hbase
      · exact hquarantine hbase
    · exact Or.inl hr

/-- Every revision has a decision that admits it. -/
theorem admits_of_reachable (h : (repository Z).Reachable s) :
    ∀ r ∈ s.revisions, ∃ c ∈ s.candidates, ∃ d ∈ s.decisions, Admits c d r := by
  refine reachable_induction (I := fun s => ∀ r ∈ s.revisions, ∃ c ∈ s.candidates,
    ∃ d ∈ s.decisions, Admits c d r) (fun r hr => absurd hr Keyed.not_mem_empty) ?_ h
  intro s call s' ih hperforms r hr
  rcases hperforms.revision_cases hr with hr | ⟨c, hc, d, hd, -, hadmits⟩
  · obtain ⟨c, hc, d, hd, hadmits⟩ := ih r hr
    obtain ⟨status, hc', -⟩ := hperforms.candidate_kept hc
    exact ⟨_, hc', d, hperforms.decisions_subset hd, hadmits.withStatus status⟩
  · exact ⟨c, hc, d, hd, hadmits⟩

/-! ### The gate -/

variable (Z) in
/-- What is promised of a store and of every call from it. -/
structure AdmissionGate (s : Store) : Prop where
  /-- Every revision was admitted by a decision. -/
  admitted : ∀ r ∈ s.revisions, ∃ c ∈ s.candidates, ∃ d ∈ s.decisions, Admits c d r
  /-- It is recorded in the same step as the revision. -/
  recorded : ∀ call : Call Z, ∀ r ∈ (call.perform s).revisions, r ∉ s.revisions →
    ∃ c ∈ (call.perform s).candidates, ∃ d ∈ (call.perform s).decisions,
      d ∉ s.decisions ∧ Admits c d r
  /-- What was rejected or set aside stays so, in all that follows. -/
  terminal : ∀ t, (repository Z).Leads s t → ∀ c ∈ s.candidates,
    c.status = .rejected ∨ c.status = .quarantined → c ∈ t.candidates
  /-- A decision that raises changes nothing. -/
  rolledBack : ∀ ftsAvailable ids decision approvedBy error,
    (transaction (applyDecision ftsAvailable ids decision approvedBy) s).1 = .error error →
      (transaction (applyDecision ftsAvailable ids decision approvedBy) s).2 = s

theorem transaction_error {α : Type} {body : Store → Except StorageError (α × Store)}
    {error : StorageError} (h : (transaction body s).1 = .error error) :
    (transaction body s).2 = s := by
  rw [transaction] at h ⊢
  split
  · rename_i heq
    rw [heq] at h
    contradiction
  · rfl

/-- **Nothing is admitted to memory but by the gate**, in any run. -/
theorem admission_gate (h : (repository Z).Reachable s) : AdmissionGate Z s where
  admitted := admits_of_reachable h
  recorded call _ hr hnew := ((call.performs s).revision_cases hr).resolve_left hnew
  terminal t hleads c hc hstatus := by
    refine hleads.invariant (I := fun t => c ∈ t.candidates) hc fun s call t hc hnext => ?_
    obtain rfl := Option.some.inj hnext
    obtain ⟨new, hmem, hkept⟩ := (call.performs s).candidate_kept hc
    have hclosed : ¬Open c.status := by
      rcases hstatus with h | h <;> simp [Open, h]
    rwa [hkept hclosed, withStatus_status] at hmem
  rolledBack _ _ _ _ _ herror := transaction_error herror

/-- The gate, with a memory in the store. -/
theorem admission_gate_jasmineTea :
    (promote Store.empty ['1'] jasmineTea).revisions.length = 1 ∧
      AdmissionGate Place (promote Store.empty ['1'] jasmineTea) :=
  ⟨by decide +kernel, admission_gate (reachable_promote (.start rfl))⟩

end Eeveetuber.Storage
