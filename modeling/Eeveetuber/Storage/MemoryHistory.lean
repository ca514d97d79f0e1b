import Eeveetuber.Storage.MemorySteps

/-!
# The history of a memory

A memory is a record that points to its current revision, from which the parents lead back to
the first. The revisions of a namespace are numbered as they are committed. **Where no
candidate is committed against a record of another namespace, the history is coherent**
(`Eeveetuber.Storage.history_coherent`): a commit checks the kind and the scope of the record it
goes on with, but not its namespace.
-/

namespace Eeveetuber.Storage

open Foundation Memory

variable {Z : Type} [Zones Z] [DecidableEq Z] {s s' : Store} {candidate : MemoryCandidate}
  {decision : PromotionDecision} {approvedBy : Option Text} {ids : NewIds} {call : Call Z}

/-- Revisions that are reached from an identifier by their parents, to one without a parent. -/
def Follows (revisions : Keyed MemoryRevision.revisionId) :
    Option Text → List MemoryRevision → Prop
  | revisionId, [] => given revisionId = false
  | revisionId, r :: chain =>
    r ∈ revisions ∧ revisionId = some r.revisionId ∧ Follows revisions r.parentRevisionId chain

/-- **A coherent history.** -/
structure Coherent (s : Store) : Prop where
  /-- The revisions of a namespace carry the generations from the first to the current one. -/
  generations : ∀ name, (s.revisions.values.filter fun r => r.namespace = name).map
    (·.generation) = List.range' 1 (s.generations name)
  /-- A record points to the latest of its revisions. -/
  current : ∀ m ∈ s.records, ∃ r ∈ s.revisions, r.revisionId = m.currentRevisionId ∧
    r.memoryId = m.memoryId ∧
    ∀ r' ∈ s.revisions, r'.memoryId = m.memoryId → r'.generation ≤ r.generation
  /-- From there the parents lead through all of them. -/
  parents : ∀ m ∈ s.records, ∃ chain, Follows s.revisions (some m.currentRevisionId) chain ∧
    ∀ r, r ∈ chain ↔ r ∈ s.revisions ∧ r.memoryId = m.memoryId
  /-- A revision has the namespace, the kind and the scope of its record. -/
  belongs : ∀ r ∈ s.revisions, ∃ m ∈ s.records, m.memoryId = r.memoryId ∧
    m.namespace = r.namespace ∧ m.kind = r.kind ∧ m.scope = r.scope

/-- A candidate goes on with a record of its own namespace, if it goes on with one. -/
def GoesOn (s : Store) (candidate : MemoryCandidate) : Prop :=
  ∀ m ∈ s.records.values, candidate.baseMemoryId = some m.memoryId →
    candidate.baseRevisionId = some m.currentRevisionId → m.namespace = candidate.namespace

/-- The condition on a decision: it does not commit a candidate that goes on with a record of
another namespace. -/
def SameNamespace (s : Store) : Call Z → Prop
  | .addCandidate _ => True
  | .applyDecision _ _ decision approvedBy => nonCommitStatus decision approvedBy = none →
    ∀ c ∈ s.candidates.values, c.candidateId = decision.candidateId → GoesOn s c

instance (s : Store) (candidate : MemoryCandidate) : Decidable (GoesOn s candidate) :=
  inferInstanceAs (Decidable (∀ m ∈ s.records.values, _ → _ → _))

instance (s : Store) : ∀ call : Call Z, Decidable (SameNamespace s call)
  | .addCandidate _ => isTrue trivial
  | .applyDecision _ _ decision approvedBy =>
    inferInstanceAs (Decidable (nonCommitStatus decision approvedBy = none →
      ∀ c ∈ s.candidates.values, c.candidateId = decision.candidateId → GoesOn s c))

/-! ### What a commit does to a history -/

theorem Follows.insert {revisions : Keyed MemoryRevision.revisionId} {revision : MemoryRevision}
    (hnew : ∀ r ∈ revisions, r.revisionId ≠ revision.revisionId) (chain : List MemoryRevision) :
    ∀ {revisionId : Option Text}, Follows revisions revisionId chain →
      Follows (revisions.insert revision) revisionId chain := by
  induction chain with
  | nil => exact fun h => h
  | cons r chain ih =>
    rintro revisionId ⟨hr, hid, h⟩
    exact ⟨Keyed.mem_insert.mpr (Or.inr ⟨hr, hnew r hr⟩), hid, ih h⟩

section Commit

variable {memoryId revisionId : Text} {found : Option MemoryRecordRow} {revision : MemoryRevision}

/-- Among the revisions there is one more. -/
theorem Commit.mem_revisions (h : Commit s candidate memoryId revisionId found revision)
    {r : MemoryRevision} : r ∈ s.revisions.insert revision ↔ r = revision ∨ r ∈ s.revisions := by
  rw [Keyed.mem_insert]
  exact or_congr_right (and_iff_left_of_imp fun hr => h.revision_new r hr)

/-- The generations of a namespace are counted on. -/
theorem Commit.generations (h : Commit s candidate memoryId revisionId found revision)
    (hs : Coherent s) (name : Text) :
    ((s.revisions.insert revision).values.filter fun r => r.namespace = name).map (·.generation) =
      List.range' 1 (Function.update s.generations candidate.namespace
        (s.generations candidate.namespace + 1) name) := by
  rw [Keyed.values_insert_of_new h.revision_new, List.filter_append, List.map_append,
    hs.generations name]
  by_cases hname : name = candidate.namespace
  · subst hname
    rw [Function.update_self, List.filter_cons_of_pos (by simp [h.namespace_eq]), List.filter_nil,
      List.map_singleton, h.generation_eq, List.range'_1_concat, Nat.add_comm 1]
  · have hother : revision.namespace ≠ name := by
      rw [h.namespace_eq]
      exact Ne.symm hname
    rw [Function.update_of_ne hname, List.filter_cons_of_neg (by simpa using hother),
      List.filter_nil, List.map_nil, List.append_nil]

/-- A generation of a namespace is not later than the current one. -/
theorem Coherent.generation_le (hs : Coherent s) {r : MemoryRevision} (hr : r ∈ s.revisions) :
    r.generation ≤ s.generations r.namespace := by
  have hmem : r.generation ∈ List.range' 1 (s.generations r.namespace) := by
    rw [← hs.generations]
    exact List.mem_map_of_mem (List.mem_filter.mpr ⟨hr, by simp⟩)
  rw [List.mem_range'_1] at hmem
  omega

/-- **What the record of a commit says of the revisions before it**: they are of the
namespace, the kind and the scope of the candidate, and the parents lead through them. -/
structure Continues (s : Store) (candidate : MemoryCandidate) (memoryId : Text)
    (record : MemoryRecordRow) : Prop where
  memoryId_eq : record.memoryId = memoryId
  namespace_eq : record.namespace = candidate.namespace
  kind_eq : record.kind = candidate.kind
  scope_eq : record.scope = candidate.scope
  earlier : ∀ r ∈ s.revisions, r.memoryId = memoryId → r.namespace = candidate.namespace ∧
    r.kind = candidate.kind ∧ r.scope = candidate.scope
  parents : ∃ chain, Follows s.revisions candidate.baseRevisionId chain ∧
    ∀ r, r ∈ chain ↔ r ∈ s.revisions ∧ r.memoryId = memoryId

theorem Base.continues (hbase : Base s candidate memoryId found) (hs : Coherent s)
    (hsame : GoesOn s candidate) (revisionId : Text) :
    Continues s candidate memoryId (recordRow candidate memoryId revisionId found) := by
  rcases hbase with ⟨hbase, hnew⟩ | ⟨record, hmem, rfl, hbase, hcurrent, hkind, hscope⟩
  · -- a memory without a record has no revisions
    have hnone : ∀ r ∈ s.revisions, r.memoryId ≠ memoryId := by
      intro r hr hid
      obtain ⟨m, hm, hmid, -⟩ := hs.belongs r hr
      exact hnew m hm (hmid.trans hid)
    refine ⟨rfl, rfl, rfl, rfl, fun r hr hid => absurd hid (hnone r hr), [], ?_, fun r => ?_⟩
    · rw [Follows, Bool.eq_false_iff]
      intro hgiven
      rw [candidate.validBase hgiven] at hbase
      contradiction
    · exact iff_of_false List.not_mem_nil fun ⟨hr, hid⟩ => hnone r hr hid
  · have hnamespace := hsame record hmem hbase hcurrent
    obtain ⟨chain, hfollows, hchain⟩ := hs.parents record hmem
    refine ⟨rfl, hnamespace, hkind, hscope, fun r hr hid => ?_, chain, hcurrent ▸ hfollows, hchain⟩
    obtain ⟨m, hm, hmid, hmnamespace, hmkind, hmscope⟩ := hs.belongs r hr
    obtain rfl := Keyed.eq_of_key hm hmem (hmid.trans hid)
    exact ⟨hmnamespace.symm.trans hnamespace, hmkind.symm.trans hkind, hmscope.symm.trans hscope⟩

theorem recordRow_currentRevisionId (candidate : MemoryCandidate) (memoryId revisionId : Text)
    (found : Option MemoryRecordRow) :
    (recordRow candidate memoryId revisionId found).currentRevisionId = revisionId := by
  rcases found with _ | _ <;> rfl

/-- **A commit keeps a history coherent**, if the record is of the namespace of the candidate. -/
theorem Coherent.commit (hs : Coherent s)
    (h : Commit s candidate memoryId revisionId found revision)
    (hsame : GoesOn s candidate) (memoryFts : List MemoryFtsRow) :
    Coherent (committed s candidate memoryId found revision memoryFts) := by
  have hcontinues := h.base.continues hs hsame revision.revisionId
  let record := recordRow candidate memoryId revision.revisionId found
  have hcurrent : record.currentRevisionId = revision.revisionId :=
    recordRow_currentRevisionId _ _ _ _
  have hother : ∀ m ∈ s.records, m.memoryId ≠ record.memoryId → m ∈ s.records.insert record :=
    fun m hm hne => Keyed.mem_insert.mpr (Or.inr ⟨hm, hne⟩)
  refine ⟨h.generations hs, ?_, ?_, ?_⟩
  · intro m hm
    rcases Keyed.mem_insert.mp hm with rfl | ⟨hm, hne⟩
    -- the new revision is the latest of its record
    · refine ⟨revision, Keyed.mem_insert_self, hcurrent.symm,
        h.memoryId_eq.trans hcontinues.memoryId_eq.symm, fun r hr hid => ?_⟩
      rcases h.mem_revisions.mp hr with rfl | hr
      · exact le_rfl
      · have hle := hs.generation_le hr
        rw [(hcontinues.earlier r hr (hid.trans hcontinues.memoryId_eq)).1] at hle
        rw [h.generation_eq]
        exact hle.trans (Nat.le_succ _)
    · obtain ⟨r, hr, hid, hrm, hlatest⟩ := hs.current m hm
      refine ⟨r, h.mem_revisions.mpr (Or.inr hr), hid, hrm, fun r' hr' hid' => ?_⟩
      rcases h.mem_revisions.mp hr' with rfl | hr'
      -- the new revision is not of another record
      · rw [hcontinues.memoryId_eq, ← hid', h.memoryId_eq] at hne
        exact absurd rfl hne
      · exact hlatest r' hr' hid'
  · intro m hm
    rcases Keyed.mem_insert.mp hm with rfl | ⟨hm, hne⟩
    -- the chain of the record has grown by the new revision
    · obtain ⟨chain, hfollows, hchain⟩ := hcontinues.parents
      refine ⟨revision :: chain, ⟨Keyed.mem_insert_self, congrArg some hcurrent, ?_⟩, fun r => ?_⟩
      · rw [h.parent_eq]
        exact hfollows.insert h.revision_new
      · change _ ↔ r ∈ s.revisions.insert revision ∧ _
        rw [List.mem_cons, hchain, h.mem_revisions, or_and_right, hcontinues.memoryId_eq]
        refine or_congr_left (and_iff_left_of_imp ?_).symm
        rintro rfl
        exact h.memoryId_eq
    · obtain ⟨chain, hfollows, hchain⟩ := hs.parents m hm
      refine ⟨chain, hfollows.insert h.revision_new, fun r => ?_⟩
      change _ ↔ r ∈ s.revisions.insert revision ∧ _
      rw [hchain, h.mem_revisions, or_and_right, or_iff_right]
      rintro ⟨rfl, hid⟩
      rw [hcontinues.memoryId_eq, ← hid, h.memoryId_eq] at hne
      exact hne rfl
  · intro r hr
    rcases h.mem_revisions.mp hr with rfl | hr
    · exact ⟨record, Keyed.mem_insert_self, hcontinues.memoryId_eq.trans h.memoryId_eq.symm,
        hcontinues.namespace_eq.trans h.namespace_eq.symm,
        hcontinues.kind_eq.trans h.kind_eq.symm, hcontinues.scope_eq.trans h.scope_eq.symm⟩
    · obtain ⟨m, hm, hid, hnamespace, hkind, hscope⟩ := hs.belongs r hr
      -- the revisions of the record go along with it, for it is of their namespace
      by_cases hm' : m.memoryId = record.memoryId
      · obtain ⟨hns, hk, hsc⟩ :=
          hcontinues.earlier r hr (hid.symm.trans (hm'.trans hcontinues.memoryId_eq))
        exact ⟨record, Keyed.mem_insert_self, hm'.symm.trans hid,
          hcontinues.namespace_eq.trans hns.symm, hcontinues.kind_eq.trans hk.symm,
          hcontinues.scope_eq.trans hsc.symm⟩
      · exact ⟨m, hother m hm hm', hid, hnamespace, hkind, hscope⟩

end Commit

/-! ### Runs -/

theorem coherent_empty : Coherent Store.empty :=
  ⟨fun _ => rfl, fun _ hm => absurd hm Keyed.not_mem_empty,
    fun _ hm => absurd hm Keyed.not_mem_empty, fun _ hr => absurd hr Keyed.not_mem_empty⟩

/-- **A step keeps a history coherent.** -/
theorem Coherent.performs (hs : Coherent s) (hsame : SameNamespace s call)
    (h : Performs s call s') : Coherent s' := by
  rcases h with _ | ⟨_, _, hadds⟩ | _ |
    ⟨_, ids, decision, approvedBy, candidate, memoryId, found, revision, memoryFts, hdecides, -,
      hcommits, hcommit, -⟩
  · exact hs
  · cases hadds with
    | again => exact hs
    | added => exact ⟨hs.generations, hs.current, hs.parents, hs.belongs⟩
    | unreadable => exact ⟨hs.generations, hs.current, hs.parents, hs.belongs⟩
  · exact ⟨hs.generations, hs.current, hs.parents, hs.belongs⟩
  · have hcommitted := hs.commit hcommit
      (hsame hcommits candidate hdecides.mem hdecides.candidateId_eq) memoryFts
    exact ⟨hcommitted.generations, hcommitted.current, hcommitted.parents, hcommitted.belongs⟩

/-- **The history of every run is coherent**, if no candidate of the run is committed against a
record of another namespace. -/
theorem history_coherent (h : (repository Z).ReachableBy SameNamespace s) : Coherent s := by
  refine h.invariant ?_ ?_
  · rintro _ rfl
    exact coherent_empty
  · intro s call t _ hs hsame hnext
    obtain rfl := Option.some.inj hnext
    exact hs.performs hsame (call.performs s)

/-- Another candidate about the first memory of a store. -/
def aboutTea (name content : Text) (hname : InLength 256 name) (hcontent : content ≠ []) :
    MemoryCandidate :=
  { jasmineTea with
    candidateId := "candidate-2".toList
    «namespace» := name
    content := content
    baseMemoryId := some "mem_1".toList
    baseRevisionId := some "memr_1".toList
    candidateId_inLength := by decide
    namespace_inLength := hname
    content_ne_nil := hcontent
    baseMemoryId_le := by decide
    baseRevisionId_le := by decide
    validBase := fun _ => rfl }

/-- A memory and what it is updated to. -/
def updatedTea (name : Text) (hname : InLength 256 name) : Store :=
  promote (promote Store.empty ['1'] jasmineTea) ['2']
    (aboutTea name "The owner prefers roasted tea.".toList hname (by decide))

theorem reachableBy_promote {n : Text} (h : (repository Place).ReachableBy SameNamespace s)
    (hsame : SameNamespace ((Call.addCandidate (submittedOf candidate) : Call Place).perform s)
      (.applyDecision true (newIds n) (policyDecision candidate) none : Call Place)) :
    (repository Place).ReachableBy SameNamespace (promote s n candidate) :=
  .step (.step (l := .addCandidate (submittedOf candidate)) h trivial rfl) hsame rfl

/-- An update in the namespace of the memory. -/
theorem history_coherent_update :
    (updatedTea "eevee".toList (by decide)).revisions.length = 2 ∧
      Coherent (updatedTea "eevee".toList (by decide)) :=
  ⟨by decide +kernel, history_coherent (reachableBy_promote (reachableBy_promote (.start rfl)
    (by decide +kernel)) (by decide +kernel))⟩

/-- An update in another namespace: the memory has revisions of two namespaces. -/
theorem foreignUpdate_incoherent :
    (repository Place).Reachable (updatedTea "other".toList (by decide)) ∧
    ¬Coherent (updatedTea "other".toList (by decide)) := by
  refine ⟨reachable_promote (reachable_promote (.start rfl)), fun h => ?_⟩
  have hbelongs : ∀ r ∈ (updatedTea "other".toList (by decide)).revisions.values,
      ∃ m ∈ (updatedTea "other".toList (by decide)).records.values,
        m.memoryId = r.memoryId ∧ m.namespace = r.namespace := by
    intro r hr
    obtain ⟨m, hm, hid, hnamespace, -⟩ := h.belongs r hr
    exact ⟨m, hm, hid, hnamespace⟩
  exact absurd hbelongs (by decide +kernel)

end Eeveetuber.Storage
