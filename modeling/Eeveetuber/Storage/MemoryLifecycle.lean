import Eeveetuber.Storage.MemoryReplay

/-!
# The life of a candidate

A candidate is submitted with a status, and the repository goes on with that status as its own.
Two things follow. A candidate that is submitted as committed is taken for one, although
no revision was promoted from it; and a candidate whose status has changed is not the candidate
that was submitted, so that submitting it again raises. It also raises where the rows lose
something: the clocks of the interval are not in the order of their instants, or the offset of a
timestamp depends on its fold. **These are the only exceptions**:
`Eeveetuber.Storage.candidate_lifecycle`.
-/

namespace Eeveetuber.Storage

open Foundation Memory

variable {Z : Type} [Zones Z] [DecidableEq Z] {s s' : Store} {m : MemoryCandidate}
  {status : CandidateStatus} {c c' : SubmittedCandidate Z} {id : Text}

/-! ### What was submitted -/

variable (Z) in
/-- A store, with the candidates that were submitted to it. -/
structure History where
  store : Store
  /-- Those that were new. -/
  inserted : List (SubmittedCandidate Z)
  /-- Those that were accepted, new or not. -/
  accepted : List (SubmittedCandidate Z)

/-- Whether a candidate is accepted. -/
def accepts (s : Store) (c : SubmittedCandidate Z) : Bool :=
  match addCandidate c s with
  | .ok _ => true
  | .error _ => false

/-- Whether an identifier has a row. -/
def Store.contains (s : Store) (candidateId : Text) : Bool :=
  s.candidates.contains candidateId || s.unreadable.contains candidateId

def History.perform (h : History Z) (call : Call Z) : History Z where
  store := call.perform h.store
  inserted :=
    match call with
    | .addCandidate c =>
      if accepts h.store c && !h.store.contains c.candidateId then h.inserted ++ [c]
      else h.inserted
    | .applyDecision .. => h.inserted
  accepted :=
    match call with
    | .addCandidate c => if accepts h.store c then h.accepted ++ [c] else h.accepted
    | .applyDecision .. => h.accepted

variable (Z) in
/-- Calls one after another, with what was submitted. -/
def histories : Machine (History Z) (Call Z) where
  start h := h = ⟨Store.empty, [], []⟩
  next h call := some (h.perform call)

/-! ### What is promised -/

/-- A candidate has a row with a status. -/
def HasRow (s : Store) (candidateId : Text) (status : CandidateStatus) : Prop :=
  (∃ m ∈ s.candidates, m.candidateId = candidateId ∧ m.status = status) ∨
    (⟨candidateId, status⟩ : UnreadableRow) ∈ s.unreadable

/-- A revision that was promoted from a candidate. -/
def PromotedFrom (s : Store) (candidateId : Text) (r : MemoryRevision) : Prop :=
  r ∈ s.revisions ∧ r.promotedFromCandidateId = some candidateId

/-- **The life of the candidates of a store.** -/
structure Lifecycle (s : Store) : Prop where
  /-- Committed are those from which one revision was promoted. -/
  committed_iff : ∀ candidateId status, HasRow s candidateId status →
    (status = .committed ↔ ∃! r, PromotedFrom s candidateId r)
  /-- Any decision about them returns it and changes nothing. -/
  replayed : ∀ candidateId, HasRow s candidateId .committed → ∃ r, PromotedFrom s candidateId r ∧
    ∀ ftsAvailable ids decision approvedBy, decision.candidateId = candidateId →
      transaction (applyDecision ftsAvailable ids decision approvedBy) s =
        (.ok ⟨decision, .committed, r.generation, some r⟩, s)

/-- What was accepted can be submitted again, and changes nothing. -/
def Resubmittable (h : History Z) : Prop :=
  ∀ c ∈ h.accepted, ∃ stored, transaction (addCandidate c) h.store = (.ok stored, h.store)

/-! ### Rows -/

/-- No candidate has two rows. -/
def Apart (s : Store) : Prop :=
  ∀ m ∈ s.candidates, ∀ u ∈ s.unreadable, m.candidateId ≠ u.candidateId

theorem HasRow.status_eq (hapart : Apart s) {status' : CandidateStatus} (h : HasRow s id status)
    (h' : HasRow s id status') : status = status' := by
  rcases h with ⟨m, hm, rfl, rfl⟩ | hu
  · rcases h' with ⟨m', hm', hid, rfl⟩ | hu'
    · rw [Keyed.eq_of_key hm' hm hid]
    · exact absurd rfl (hapart m hm _ hu')
  · rcases h' with ⟨m', hm', hid, -⟩ | hu'
    · exact absurd hid (hapart m' hm' _ hu)
    · exact congrArg UnreadableRow.status (Keyed.eq_of_key hu hu' rfl)

/-- What is there of a candidate that was accepted. -/
inductive Kept (s : Store) (c : SubmittedCandidate Z) : Prop
  /-- A row that gives it back, with some status. -/
  | readable (m : MemoryCandidate) (mem : m ∈ s.candidates)
    (givesBack : GivesBack (withStatus m c.status) c) : Kept s c
  /-- A row that cannot be read. -/
  | unreadable (mem : (⟨c.candidateId, c.status⟩ : UnreadableRow) ∈ s.unreadable)
    (unordered : ¬Ordered c.toCandidateFields) : Kept s c

/-! ### Adding a candidate -/

section Adds

variable (h : Adds s c s')
include h

/-- A candidate that has a row changes nothing. -/
theorem Adds.eq_of_contains (hrow : s.contains c.candidateId = true) : s' = s := by
  rw [Store.contains, Bool.or_eq_true, Keyed.contains_iff, Keyed.contains_iff] at hrow
  cases h with
  | again => rfl
  | added _ hnew =>
    rcases hrow with ⟨m, hm, hid⟩ | ⟨u, hu, hid⟩
    · exact absurd hid (hnew.candidates m hm)
    · exact absurd hid (hnew.unreadable u hu)
  | unreadable hnew =>
    rcases hrow with ⟨m, hm, hid⟩ | ⟨u, hu, hid⟩
    · exact absurd hid (hnew.candidates m hm)
    · exact absurd hid (hnew.unreadable u hu)

theorem Adds.unreadable_subset {u : UnreadableRow} (hu : u ∈ s.unreadable) :
    u ∈ s'.unreadable := by
  cases h with
  | again => exact hu
  | added => exact hu
  | unreadable hnew => exact Keyed.mem_insert.mpr (Or.inr ⟨hu, hnew.unreadable u hu⟩)

theorem Adds.kept (hkept : Kept s c') : Kept s' c' := by
  cases hkept with
  | readable m hm hback => exact .readable m (h.candidates_subset hm) hback
  | unreadable hu hunordered => exact .unreadable (h.unreadable_subset hu) hunordered

/-- What is accepted has time zones, and is kept. -/
theorem Adds.kept_self : c.EachTimestamp Timestamp.Aware ∧ Kept s' c := by
  cases h with
  | again stored hmem hequal =>
    have haware := aware_of_agrees hequal
    have hback := ((agrees_eqTimestamp_iff (inUtc_fieldsOf stored) haware).mp hequal).1
    have hstatus : stored.status = c.status := hequal.status
    refine ⟨haware, .readable stored hmem ?_⟩
    rwa [← hstatus, withStatus_status]
  | added stored _ haware hback =>
    have hstatus : stored.status = c.status := hback.status
    refine ⟨haware, .readable stored Keyed.mem_insert_self ?_⟩
    rwa [← hstatus, withStatus_status]
  | unreadable _ haware hunordered => exact ⟨haware, .unreadable Keyed.mem_insert_self hunordered⟩

theorem Adds.apart (hapart : Apart s) : Apart s' := by
  cases h with
  | again => exact hapart
  | added stored hnew _ hback =>
    have hid : stored.candidateId = c.candidateId := hback.candidateId
    intro m hm u hu
    rcases Keyed.mem_insert.mp hm with rfl | ⟨hm, -⟩
    · exact hid ▸ (hnew.unreadable u hu).symm
    · exact hapart m hm u hu
  | unreadable hnew =>
    intro m hm u hu
    rcases Keyed.mem_insert.mp hu with rfl | ⟨hu, -⟩
    · exact hnew.candidates m hm
    · exact hapart m hm u hu

/-- The rows are those that were there and its own. -/
theorem Adds.hasRow_iff : HasRow s' id status ↔
    HasRow s id status ∨ id = c.candidateId ∧ status = c.status := by
  constructor
  · intro hrow
    cases h with
    | again => exact Or.inl hrow
    | added stored hnew _ hback =>
      rcases hrow with ⟨m, hm, hid, hstatus⟩ | hu
      · rcases Keyed.mem_insert.mp hm with rfl | ⟨hm, -⟩
        · exact Or.inr ⟨hid.symm.trans hback.candidateId, hstatus.symm.trans hback.status⟩
        · exact Or.inl (Or.inl ⟨m, hm, hid, hstatus⟩)
      · exact Or.inl (Or.inr hu)
    | unreadable hnew =>
      rcases hrow with hm | hu
      · exact Or.inl (Or.inl hm)
      · rcases Keyed.mem_insert.mp hu with heq | ⟨hu, -⟩
        · exact Or.inr (UnreadableRow.mk.inj heq)
        · exact Or.inl (Or.inr hu)
  · rintro (hrow | ⟨rfl, rfl⟩)
    · exact hrow.imp (fun ⟨m, hm, hrest⟩ => ⟨m, h.candidates_subset hm, hrest⟩)
        fun hu => h.unreadable_subset hu
    · cases h with
      | again stored hmem hequal =>
        exact Or.inl ⟨stored, hmem, hequal.candidateId, hequal.status⟩
      | added stored _ _ hback =>
        exact Or.inl ⟨stored, Keyed.mem_insert_self, hback.candidateId, hback.status⟩
      | unreadable => exact Or.inr Keyed.mem_insert_self

end Adds

/-! ### Deciding about a candidate -/

/-- An open candidate gets another status. -/
structure Marked (s s' : Store) (m : MemoryCandidate) (status : CandidateStatus) : Prop where
  mem : m ∈ s.candidates
  «open» : Open m.status
  candidates : s'.candidates = s.candidates.insert (withStatus m status)
  unreadable : s'.unreadable = s.unreadable

section Marked

variable (h : Marked s s' m status)
include h

theorem Marked.apart (hapart : Apart s) : Apart s' := by
  intro m' hm' u hu
  rw [h.unreadable] at hu
  rw [h.candidates] at hm'
  rcases Keyed.mem_insert.mp hm' with rfl | ⟨hm', -⟩
  · exact hapart m h.mem u hu
  · exact hapart m' hm' u hu

theorem Marked.kept (hkept : Kept s c) : Kept s' c := by
  cases hkept with
  | readable m' hm' hback =>
    by_cases hid : m'.candidateId = m.candidateId
    · obtain rfl := Keyed.eq_of_key hm' h.mem hid
      exact .readable (withStatus m' status) (h.candidates ▸ Keyed.mem_insert_self) hback
    · exact .readable m' (h.candidates ▸ Keyed.mem_insert.mpr (Or.inr ⟨hm', hid⟩)) hback
  | unreadable hu hunordered => exact .unreadable (h.unreadable ▸ hu) hunordered

/-- The row of the candidate has the status, and the others are as they were. -/
theorem Marked.hasRow_iff (hapart : Apart s) {status' : CandidateStatus} :
    HasRow s' id status' ↔ id = m.candidateId ∧ status' = status ∨
      id ≠ m.candidateId ∧ HasRow s id status' := by
  rw [HasRow, h.candidates, h.unreadable]
  constructor
  · rintro (⟨m', hm', rfl, rfl⟩ | hu)
    · rcases Keyed.mem_insert.mp hm' with rfl | ⟨hm', hid⟩
      · exact Or.inl ⟨rfl, rfl⟩
      · exact Or.inr ⟨hid, Or.inl ⟨m', hm', rfl, rfl⟩⟩
    · exact Or.inr ⟨(hapart m h.mem _ hu).symm, Or.inr hu⟩
  · rintro (⟨rfl, rfl⟩ | ⟨hid, ⟨m', hm', rfl, rfl⟩ | hu⟩)
    · exact Or.inl ⟨_, Keyed.mem_insert_self, rfl, rfl⟩
    · exact Or.inl ⟨m', Keyed.mem_insert.mpr (Or.inr ⟨hm', hid⟩), rfl, rfl⟩
    · exact Or.inr hu

/-- A committed candidate is another one. -/
theorem Marked.ne_of_committed (hapart : Apart s) (hrow : HasRow s id .committed) :
    id ≠ m.candidateId := by
  rintro rfl
  have hopen := h.open
  rw [← hrow.status_eq hapart (Or.inl ⟨m, h.mem, rfl, rfl⟩)] at hopen
  rcases hopen with hopen | hopen
  · contradiction
  · contradiction

/-- What is committed stays so. -/
theorem Marked.committed (hapart : Apart s) (hrow : HasRow s id .committed) :
    HasRow s' id .committed :=
  (h.hasRow_iff hapart).mpr (Or.inr ⟨h.ne_of_committed hapart hrow, hrow⟩)

end Marked

/-! ### The invariant -/

/-- What is known of a history. -/
structure Tracks (h : History Z) : Prop where
  apart : Apart h.store
  /-- What was accepted has time zones, and is there. -/
  accepted : ∀ c ∈ h.accepted, c.EachTimestamp Timestamp.Aware ∧ Kept h.store c
  /-- What was submitted as committed stays so, and nothing is promoted from it. -/
  premature : ∀ c ∈ h.inserted, c.status = .committed →
    HasRow h.store c.candidateId .committed ∧ ∀ r, ¬PromotedFrom h.store c.candidateId r
  /-- What else is committed was promoted. -/
  promoted : ∀ candidateId, HasRow h.store candidateId .committed →
    (∃ c ∈ h.inserted, c.candidateId = candidateId ∧ c.status = .committed) ∨
      ∃ r, PromotedFrom h.store candidateId r
  /-- A revision is promoted from a committed candidate. -/
  source : ∀ r ∈ h.store.revisions, ∃ m ∈ h.store.candidates,
    r.promotedFromCandidateId = some m.candidateId ∧ m.status = .committed
  /-- No two are promoted from one candidate. -/
  unique : ∀ r ∈ h.store.revisions, ∀ r' ∈ h.store.revisions,
    r.promotedFromCandidateId = r'.promotedFromCandidateId → r = r'

theorem tracks_start : Tracks (⟨Store.empty, [], []⟩ : History Z) where
  apart _ hm := absurd hm Keyed.not_mem_empty
  accepted _ hc := absurd hc List.not_mem_nil
  premature _ hc := absurd hc List.not_mem_nil
  promoted := by
    rintro _ (⟨m, hm, -⟩ | hu)
    · exact absurd hm Keyed.not_mem_empty
    · exact absurd hu Keyed.not_mem_empty
  source _ hr := absurd hr Keyed.not_mem_empty
  unique _ hr := absurd hr Keyed.not_mem_empty

variable {h : History Z}

theorem PromotedFrom.of_revisions_eq {r : MemoryRevision} (heq : s'.revisions = s.revisions) :
    PromotedFrom s' id r ↔ PromotedFrom s id r := by
  rw [PromotedFrom, PromotedFrom, heq]

/-- From a candidate that has no row nothing was promoted. -/
theorem Tracks.not_promotedFrom (ht : Tracks h) (hrow : h.store.contains id = false)
    (r : MemoryRevision) : ¬PromotedFrom h.store id r := by
  rintro ⟨hr, hfrom⟩
  obtain ⟨m, hm, hfrom', -⟩ := ht.source r hr
  rw [Store.contains, Bool.or_eq_false_iff, Bool.eq_false_iff] at hrow
  exact hrow.1 (Keyed.contains_iff.mpr ⟨m, hm, Option.some.inj (hfrom'.symm.trans hfrom)⟩)

/-- A candidate that has a row. -/
theorem Tracks.again (ht : Tracks h) (hadds : Adds h.store c h.store) :
    Tracks ⟨h.store, h.inserted, h.accepted ++ [c]⟩ := by
  refine ⟨ht.apart, fun c' hc' => ?_, ht.premature, ht.promoted, ht.source, ht.unique⟩
  rcases List.mem_append.mp hc' with hc' | hc'
  · exact ht.accepted c' hc'
  · obtain rfl := List.mem_singleton.mp hc'
    exact hadds.kept_self

/-- **A new candidate.** -/
theorem Tracks.added (ht : Tracks h) (hadds : Adds h.store c s')
    (hrow : h.store.contains c.candidateId = false) :
    Tracks ⟨s', h.inserted ++ [c], h.accepted ++ [c]⟩ := by
  have hrevisions : s'.revisions = h.store.revisions := hadds.tables_eq.2.2.1
  refine ⟨hadds.apart ht.apart, fun c' hc' => ?_, fun c' hc' hstatus => ?_, fun id hcommitted => ?_,
    fun r hr => ?_, ?_⟩
  · rcases List.mem_append.mp hc' with hc' | hc'
    · exact ⟨(ht.accepted c' hc').1, hadds.kept (ht.accepted c' hc').2⟩
    · obtain rfl := List.mem_singleton.mp hc'
      exact hadds.kept_self
  · simp only [PromotedFrom.of_revisions_eq hrevisions]
    rcases List.mem_append.mp hc' with hc' | hc'
    · obtain ⟨hcommitted, hnone⟩ := ht.premature c' hc' hstatus
      exact ⟨hadds.hasRow_iff.mpr (Or.inl hcommitted), hnone⟩
    · obtain rfl := List.mem_singleton.mp hc'
      exact ⟨hadds.hasRow_iff.mpr (Or.inr ⟨rfl, hstatus.symm⟩), ht.not_promotedFrom hrow⟩
  · simp only [PromotedFrom.of_revisions_eq hrevisions]
    rcases hadds.hasRow_iff.mp hcommitted with hcommitted | ⟨hid, hstatus⟩
    · refine (ht.promoted id hcommitted).imp_left fun ⟨c', hc', hid, hstatus⟩ => ?_
      exact ⟨c', List.mem_append_left _ hc', hid, hstatus⟩
    · exact Or.inl ⟨c, List.mem_append_right _ (List.mem_singleton_self c), hid.symm, hstatus.symm⟩
  · obtain ⟨m, hm, hfrom, hstatus⟩ := ht.source r (hrevisions ▸ hr)
    exact ⟨m, hadds.candidates_subset hm, hfrom, hstatus⟩
  · rw [hrevisions]
    exact ht.unique

section Decision

variable (hmarked : Marked h.store s' m status)
include hmarked

/-- The source of a revision is there after another candidate has got another status. -/
theorem Tracks.source_marked (ht : Tracks h) {r : MemoryRevision} (hr : r ∈ h.store.revisions) :
    ∃ m' ∈ s'.candidates, r.promotedFromCandidateId = some m'.candidateId ∧
      m'.status = .committed := by
  obtain ⟨m', hm', hfrom, hstatus⟩ := ht.source r hr
  have hne := hmarked.ne_of_committed ht.apart (Or.inl ⟨m', hm', rfl, hstatus⟩)
  exact ⟨m', hmarked.candidates ▸ Keyed.mem_insert.mpr (Or.inr ⟨hm', hne⟩), hfrom, hstatus⟩

/-- **A decision that does not commit.** -/
theorem Tracks.decided (ht : Tracks h) (hrevisions : s'.revisions = h.store.revisions)
    (hstatus : status ≠ .committed) : Tracks ⟨s', h.inserted, h.accepted⟩ := by
  refine ⟨hmarked.apart ht.apart, fun c hc => ?_, fun c hc hcommitted => ?_,
    fun id hcommitted => ?_, fun r hr => ?_, ?_⟩
  · exact ⟨(ht.accepted c hc).1, hmarked.kept (ht.accepted c hc).2⟩
  · simp only [PromotedFrom.of_revisions_eq hrevisions]
    obtain ⟨hrow, hnone⟩ := ht.premature c hc hcommitted
    exact ⟨hmarked.committed ht.apart hrow, hnone⟩
  · simp only [PromotedFrom.of_revisions_eq hrevisions]
    rcases (hmarked.hasRow_iff ht.apart).mp hcommitted with ⟨-, heq⟩ | ⟨-, hrow⟩
    · exact absurd heq.symm hstatus
    · exact ht.promoted id hrow
  · exact ht.source_marked hmarked (hrevisions ▸ hr)
  · rw [hrevisions]
    exact ht.unique

end Decision

/-- **A decision that commits.** -/
theorem Tracks.committed (ht : Tracks h) (hmarked : Marked h.store s' m .committed)
    {memoryId revisionId : Text} {found : Option MemoryRecordRow} {revision : MemoryRevision}
    (hcommit : Commit h.store m memoryId revisionId found revision)
    (hrevisions : s'.revisions = h.store.revisions.insert revision) :
    Tracks ⟨s', h.inserted, h.accepted⟩ := by
  have hfrom := hcommit.candidate_eq
  have hmem : ∀ r, r ∈ s'.revisions ↔ r = revision ∨ r ∈ h.store.revisions := by
    intro r
    rw [hrevisions, Keyed.mem_insert]
    exact or_congr_right (and_iff_left_of_imp fun hr => hcommit.revision_new r hr)
  have hcandidate : withStatus m .committed ∈ s'.candidates :=
    hmarked.candidates ▸ Keyed.mem_insert_self
  refine ⟨hmarked.apart ht.apart, fun c hc => ?_, fun c hc hcommitted => ?_,
    fun id hcommitted => ?_, fun r hr => ?_, fun r hr r' hr' heq => ?_⟩
  · exact ⟨(ht.accepted c hc).1, hmarked.kept (ht.accepted c hc).2⟩
  · obtain ⟨hrow, hnone⟩ := ht.premature c hc hcommitted
    refine ⟨hmarked.committed ht.apart hrow, fun r ⟨hr, hfrom'⟩ => ?_⟩
    rcases (hmem r).mp hr with rfl | hr
    · exact hmarked.ne_of_committed ht.apart hrow (Option.some.inj (hfrom'.symm.trans hfrom))
    · exact hnone r ⟨hr, hfrom'⟩
  · rcases (hmarked.hasRow_iff ht.apart).mp hcommitted with ⟨rfl, -⟩ | ⟨-, hrow⟩
    · exact Or.inr ⟨revision, (hmem revision).mpr (Or.inl rfl), hfrom⟩
    · refine (ht.promoted id hrow).imp_right fun ⟨r, hr, hfrom'⟩ => ?_
      exact ⟨r, (hmem r).mpr (Or.inr hr), hfrom'⟩
  · rcases (hmem r).mp hr with rfl | hr
    · exact ⟨_, hcandidate, hfrom, rfl⟩
    · exact ht.source_marked hmarked hr
  · -- nothing was promoted from the candidate before
    rcases (hmem r).mp hr with rfl | hold
    · rcases (hmem r').mp hr' with rfl | hold'
      · rfl
      · exact absurd (heq.symm.trans hfrom) (hcommit.unpromoted r' hold')
    · rcases (hmem r').mp hr' with rfl | hold'
      · exact absurd (heq.trans hfrom) (hcommit.unpromoted r hold)
      · exact ht.unique r hold r' hold' heq

/-! ### Runs -/

theorem nonCommitStatus_ne {decision : PromotionDecision} {approvedBy : Option Text}
    (h : nonCommitStatus decision approvedBy = some status) : status ≠ .committed := by
  rintro rfl
  rw [nonCommitStatus] at h
  rcases haction : decision.action with _ | _ | _ | _
  · simp [haction] at h
  · simp only [haction] at h
    split_ifs at h
    cases h
  · simp [haction] at h
  · simp [haction] at h

/-- **A call keeps what is known of a history.** -/
theorem Tracks.perform (ht : Tracks h) (call : Call Z) : Tracks (h.perform call) := by
  rcases call with c | ⟨ftsAvailable, ids, decision, approvedBy⟩
  · rcases hadd : addCandidate c h.store with error | ⟨result, s'⟩
    · simpa [History.perform, Call.perform, transaction, accepts, hadd] using ht
    · have hadds := addCandidate_eq_ok hadd
      rcases hrow : h.store.contains c.candidateId with _ | _
      · simpa [History.perform, Call.perform, transaction, accepts, hadd, hrow] using
          ht.added hadds hrow
      · obtain rfl := hadds.eq_of_contains hrow
        simpa [History.perform, Call.perform, transaction, accepts, hadd, hrow] using
          ht.again hadds
  · have hperforms :=
      (Call.applyDecision ftsAvailable ids decision approvedBy : Call Z).performs h.store
    rw [History.perform]
    generalize (Call.applyDecision ftsAvailable ids decision approvedBy : Call Z).perform h.store =
      s' at hperforms ⊢
    rcases hperforms with _ | _ | ⟨_, _, _, _, _, _, hdecides, _, hstatus⟩ |
      ⟨_, _, _, _, _, _, _, _, _, hdecides, _, _, hcommit, _⟩
    · exact ht
    · exact ht.decided ⟨hdecides.mem, hdecides.open, rfl, rfl⟩ rfl (nonCommitStatus_ne hstatus)
    · exact ht.committed ⟨hdecides.mem, hdecides.open, rfl, rfl⟩ hcommit rfl

theorem tracks_of_reachable (hr : (histories Z).Reachable h) : Tracks h := by
  refine hr.invariant ?_ ?_
  · rintro _ rfl
    exact tracks_start
  · intro h call t _ ht _ hnext
    obtain rfl := Option.some.inj hnext
    exact ht.perform call

/-! ### When it is kept -/

/-- A committed candidate from which a revision was promoted is done with. -/
theorem Tracks.replayed (ht : Tracks h) {r : MemoryRevision} (hr : PromotedFrom h.store id r)
    (ftsAvailable : Bool) (ids : NewIds) (decision : PromotionDecision) (approvedBy : Option Text)
    (hid : decision.candidateId = id) :
    transaction (applyDecision ftsAvailable ids decision approvedBy) h.store =
      (.ok ⟨decision, .committed, r.generation, some r⟩, h.store) := by
  obtain ⟨m, hm, hfrom, hstatus⟩ := ht.source r hr.1
  obtain rfl := Option.some.inj (hfrom.symm.trans hr.2)
  have hfind : (h.store.revisions.values.find?
      fun r => r.promotedFromCandidateId = some m.candidateId) = some r := by
    rcases hfound : h.store.revisions.values.find?
        fun r => r.promotedFromCandidateId = some m.candidateId with _ | r'
    · have hnone := List.find?_eq_none.mp hfound r hr.1
      simp [hr.2] at hnone
    · have hfrom' : r'.promotedFromCandidateId = some m.candidateId := by
        simpa using List.find?_some hfound
      rw [hfound, ht.unique r' (List.mem_of_find?_eq_some hfound) r hr.1
        (hfrom'.trans hr.2.symm)]
  rw [transaction, applyDecision, hid, Keyed.find?_key hm]
  simp only [hstatus, hfind]

/-- **The life of the candidates** is as promised if and only if none was submitted as
committed. -/
theorem Tracks.lifecycle_iff (ht : Tracks h) :
    Lifecycle h.store ↔ ∀ c ∈ h.inserted, c.status ≠ .committed := by
  constructor
  · intro hlife c hc hstatus
    obtain ⟨hrow, hnone⟩ := ht.premature c hc hstatus
    obtain ⟨r, hr, -⟩ := (hlife.committed_iff c.candidateId .committed hrow).mp rfl
    exact hnone r hr
  · intro hinserted
    have hpromoted : ∀ id, HasRow h.store id .committed → ∃ r, PromotedFrom h.store id r := by
      intro id hrow
      refine (ht.promoted id hrow).resolve_left ?_
      rintro ⟨c, hc, -, hstatus⟩
      exact hinserted c hc hstatus
    refine ⟨fun id status hrow => ⟨?_, ?_⟩, fun id hrow => ?_⟩
    · rintro rfl
      obtain ⟨r, hr⟩ := hpromoted id hrow
      exact ⟨r, hr, fun r' hr' => ht.unique r' hr'.1 r hr.1 (hr'.2.trans hr.2.symm)⟩
    · rintro ⟨r, hr, -⟩
      obtain ⟨m, hm, hfrom, hstatus⟩ := ht.source r hr.1
      obtain rfl := Option.some.inj (hfrom.symm.trans hr.2)
      exact hrow.status_eq ht.apart (Or.inl ⟨m, hm, rfl, hstatus⟩)
    · obtain ⟨r, hr⟩ := hpromoted id hrow
      exact ⟨r, hr, ht.replayed hr⟩

/-- **A candidate that was accepted can be submitted again** if and only if its status is still
the one it was submitted with, and the rows have lost nothing of its timestamps. -/
theorem Tracks.resubmit_iff (ht : Tracks h) (hc : c ∈ h.accepted) :
    (∃ stored, transaction (addCandidate c) h.store = (.ok stored, h.store)) ↔
      (∀ status, HasRow h.store c.candidateId status → status = c.status) ∧
        Ordered c.toCandidateFields ∧ c.EachTimestamp (¬·.FoldDependent) := by
  obtain ⟨haware, hkept⟩ := ht.accepted c hc
  cases hkept with
  | readable m hm hback =>
    have hid : m.candidateId = c.candidateId := hback.candidateId
    -- a row that can be read is none that cannot
    have hunreadable : h.store.unreadable.find? c.candidateId = none :=
      Keyed.find?_eq_none.mpr fun u hu => (hid ▸ ht.apart m hm u hu).symm
    have hequal : (fieldsOf m).Agrees EqTimestamp c.toCandidateFields ↔
        m.status = c.status ∧ c.EachTimestamp (¬·.FoldDependent) := by
      -- the row is in UTC, so that it equals what was submitted where no offset is of a fold
      rw [agrees_eqTimestamp_iff (inUtc_fieldsOf m) haware]
      refine and_congr_left' ⟨fun hagrees => hagrees.status, fun hstatus => ?_⟩
      rwa [← hstatus, withStatus_status] at hback
    rw [transaction, addCandidate_of_find? (Keyed.find?_eq_some.mpr ⟨hm, hid⟩) hunreadable]
    constructor
    · rintro ⟨stored, hstored⟩
      split_ifs at hstored with hagrees
      · obtain ⟨hstatus, hfold⟩ := hequal.mp hagrees
        refine ⟨fun status hrow => ?_, ordered_of_agrees hback, hfold⟩
        exact hrow.status_eq ht.apart (Or.inl ⟨m, hm, hid, hstatus⟩)
      · cases (Prod.mk.inj hstored).1
    · rintro ⟨hstatus, -, hfold⟩
      have hsame := hstatus m.status (Or.inl ⟨m, hm, hid, rfl⟩)
      rw [if_pos (hequal.mpr ⟨hsame, hfold⟩)]
      exact ⟨_, rfl⟩
  | unreadable hu hunordered =>
    -- a row that cannot be read fails the call; its interval is not in order
    refine iff_of_false ?_ fun hall => hunordered hall.2.1
    rintro ⟨stored, hstored⟩
    rw [transaction, addCandidate_of_unreadable (Keyed.find?_eq_some.mpr ⟨hu, rfl⟩)] at hstored
    cases (Prod.mk.inj hstored).1

/-- **When the life of candidates is as promised**: when none was submitted as committed; and
when what was accepted can be submitted again: when its status has not changed, its interval is
ordered in time, and no timestamp's offset depends on its fold. -/
theorem candidate_lifecycle {h : History Z} (hr : (histories Z).Reachable h) :
    (Lifecycle h.store ↔ ∀ c ∈ h.inserted, c.status ≠ .committed) ∧
      (Resubmittable h ↔ ∀ c ∈ h.accepted,
        (∀ status, HasRow h.store c.candidateId status → status = c.status) ∧
          Ordered c.toCandidateFields ∧ c.EachTimestamp (¬·.FoldDependent)) :=
  ⟨(tracks_of_reachable hr).lifecycle_iff,
    forall₂_congr fun _ hc => (tracks_of_reachable hr).resubmit_iff hc⟩

/-- A candidate is submitted to a store just made. -/
def submitted (c : SubmittedCandidate Place) : History Place :=
  History.perform ⟨Store.empty, [], []⟩ (.addCandidate c)

/-- The decision of the policy is applied to it. -/
def submittedAndDecided (m : MemoryCandidate) : History Place :=
  (submitted (submittedOf m)).perform (.applyDecision true (newIds ['1']) (policyDecision m) none)

theorem reachable_submitted (c : SubmittedCandidate Place) :
    (histories Place).Reachable (submitted c) :=
  .step (.start rfl) trivial rfl

theorem reachable_submittedAndDecided (m : MemoryCandidate) :
    (histories Place).Reachable (submittedAndDecided m) :=
  .step (reachable_submitted _) trivial rfl

theorem candidate_lifecycle_jasmineTea :
    (Lifecycle (submittedAndDecided jasmineTea).store ↔
        ∀ c ∈ (submittedAndDecided jasmineTea).inserted, c.status ≠ .committed) ∧
      (Resubmittable (submittedAndDecided jasmineTea) ↔
        ∀ c ∈ (submittedAndDecided jasmineTea).accepted,
          (∀ status, HasRow (submittedAndDecided jasmineTea).store c.candidateId status →
            status = c.status) ∧
          Ordered c.toCandidateFields ∧ c.EachTimestamp (¬·.FoldDependent)) :=
  candidate_lifecycle (reachable_submittedAndDecided jasmineTea)

theorem accepted_submitted {c : SubmittedCandidate Place} (h : accepts Store.empty c = true) :
    c ∈ (submitted c).accepted := by
  rw [submitted, History.perform]
  dsimp only
  rw [if_pos h]
  exact List.mem_singleton_self c

theorem inserted_submitted {c : SubmittedCandidate Place} (h : accepts Store.empty c = true) :
    c ∈ (submitted c).inserted := by
  rw [submitted, History.perform]
  dsimp only
  rw [h]
  exact List.mem_singleton_self c

/-- A candidate that is submitted as committed, one that is submitted again after it has
been committed, and one that is made when New York shows the same time twice. -/
theorem lifecycle_broken :
    ¬Lifecycle (submitted (submittedOf (withStatus jasmineTea .committed))).store ∧
      ¬Resubmittable (submittedAndDecided jasmineTea) ∧ ¬Resubmittable (submitted shownTwice) := by
  refine ⟨fun hlife => ?_, fun hresubmit => ?_, fun hresubmit => ?_⟩
  · have hinserted := (tracks_of_reachable (reachable_submitted _)).lifecycle_iff.mp hlife
    exact hinserted _ (inserted_submitted (by decide +kernel)) rfl
  · have haccepted : submittedOf jasmineTea ∈ (submittedAndDecided jasmineTea).accepted :=
      accepted_submitted (by decide +kernel)
    have hstatus := ((tracks_of_reachable (reachable_submittedAndDecided jasmineTea)).resubmit_iff
      haccepted).mp (hresubmit _ haccepted)
    have hrow : withStatus jasmineTea .committed ∈
        (submittedAndDecided jasmineTea).store.candidates.values := by decide +kernel
    have hsame := hstatus.1 .committed (Or.inl ⟨_, hrow, rfl, rfl⟩)
    cases hsame
  · have haccepted : shownTwice ∈ (submitted shownTwice).accepted :=
      accepted_submitted (by decide +kernel)
    have hfold := ((tracks_of_reachable (reachable_submitted shownTwice)).resubmit_iff
      haccepted).mp (hresubmit _ haccepted)
    exact hfold.2.2.createdAt (by decide)

end Eeveetuber.Storage
