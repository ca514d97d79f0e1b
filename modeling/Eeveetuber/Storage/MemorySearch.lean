import Eeveetuber.Foundation.SortByKey
import Eeveetuber.Storage.MemorySteps

/-!
# Searching the memory

A search joins what is indexed with the records that point to it, and keeps what is visible
and has not expired. It does not look at the time from which a memory is valid, nor at the
namespace of the record. **So its hits are valid if and only if no current memory of the
namespace that has not expired is to begin later, or is of a record of another namespace**:
`Eeveetuber.Storage.search_valid_iff`.
-/

namespace Eeveetuber.Storage

open Foundation Memory

/-! ### Queries -/

/-- What a full-text index does, which is not said here: which characters make up a term, and
which rows match a query and how well. -/
structure SearchEngine where
  isWord : Char → Bool
  isMatch : Text → MemoryFtsRow → Bool
  rank : Text → MemoryFtsRow → ℚ

/-- `safe_fts_query`: at most sixteen terms, in quotes. -/
def safeFtsQuery (isWord : Char → Bool) (value : Text) : Text :=
  let terms := (value.splitOnP fun c => !isWord c).filter (· ≠ [])
  " AND ".toList.intercalate ((terms.take 16).map fun term => ['"'] ++ term ++ ['"'])

/-- A row of the join. -/
structure JoinedRow where
  f : MemoryFtsRow
  m : MemoryRecordRow
  r : MemoryRevision

/-- `memory_fts AS f JOIN memory_records AS m … JOIN memory_revisions AS r …`. -/
def joined (s : Store) : List JoinedRow :=
  s.memoryFts.flatMap fun f =>
    (s.records.values.filter fun m => m.currentRevisionId = f.revisionId).flatMap fun m =>
      (s.revisions.values.filter fun r => r.revisionId = f.revisionId).map fun r => ⟨f, m, r⟩

/-- What is asked of a revision: it is visible, and neither its interval nor its time to live is
over. Times are compared as texts, and a time to live in seconds. -/
def Shown (allowed : List Visibility) (now : Datetime) (r : MemoryRevision) : Prop :=
  r.visibility ∈ allowed ∧ (∀ u ∈ r.validUntil, now.isoformat < u.isoformat) ∧
    ∀ ttl ∈ r.ttlSeconds, now.seconds < r.createdAt.seconds + ttl

instance (allowed : List Visibility) (now : Datetime) (r : MemoryRevision) :
    Decidable (Shown allowed now r) := by
  unfold Shown
  infer_instance

/-- The `WHERE` clause, the query apart. -/
def Selected («namespace» : Text) (allowed : List Visibility) (now : Datetime) (row : JoinedRow) :
    Prop :=
  row.f.namespace = «namespace» ∧ row.m.deletedAt = none ∧ Shown allowed now row.r

instance («namespace» : Text) (allowed : List Visibility) (now : Datetime) (row : JoinedRow) :
    Decidable (Selected «namespace» allowed now row) := by
  unfold Selected
  infer_instance

def searchHit (engine : SearchEngine) (query : Text) (row : JoinedRow) : MemorySearchHit where
  memoryId := row.f.memoryId
  revisionId := row.f.revisionId
  «namespace» := row.f.namespace
  subject := row.f.subject
  content := row.f.content
  score := -engine.rank query row.f
  visibility := row.r.visibility
  sensitivity := row.r.sensitivity

def search (engine : SearchEngine) (ftsAvailable : Bool) («namespace» query : Text) (limit : ℤ)
    (allowed : List Visibility) (now : Datetime) (s : Store) :
    Except StorageError (List MemorySearchHit) :=
  let matchQuery := safeFtsQuery engine.isWord query
  if ftsAvailable = false then .error .searchUnavailable
  else if ¬(1 ≤ limit ∧ limit ≤ 50) then .error .limitOutOfRange
  else if allowed = [] then .ok []
  else if matchQuery = [] then .ok []
  else
    let rows := (joined s).filter fun row =>
      engine.isMatch matchQuery row.f && decide (Selected «namespace» allowed now row)
    let ordered := rows.mergeSort fun a b =>
      decide (engine.rank matchQuery a.f ≤ engine.rank matchQuery b.f)
    .ok ((ordered.take limit.toNat).map (searchHit engine matchQuery))

variable {Z : Type} [Zones Z] [DecidableEq Z] {s : Store} {engine : SearchEngine}
  {ftsAvailable : Bool} {name query : Text} {limit : ℤ} {allowed : List Visibility}
  {now : Datetime} {hits : List MemorySearchHit} {hit : MemorySearchHit}

/-! ### What a hit is -/

theorem mem_joined {row : JoinedRow} : row ∈ joined s ↔
    row.f ∈ s.memoryFts ∧ row.m ∈ s.records ∧ row.r ∈ s.revisions ∧
      row.m.currentRevisionId = row.f.revisionId ∧ row.r.revisionId = row.f.revisionId := by
  simp only [joined, List.mem_flatMap, List.mem_map, List.mem_filter, decide_eq_true_eq]
  constructor
  · rintro ⟨f, hf, m, ⟨hm, hcurrent⟩, r, ⟨hr, hid⟩, rfl⟩
    exact ⟨hf, hm, hr, hcurrent, hid⟩
  · rintro ⟨hf, hm, hr, hcurrent, hid⟩
    exact ⟨row.f, hf, row.m, ⟨hm, hcurrent⟩, row.r, ⟨hr, hid⟩, rfl⟩

/-- **Every hit is a row that was selected.** -/
theorem mem_search (h : search engine ftsAvailable name query limit allowed now s = .ok hits)
    (hhit : hit ∈ hits) : ∃ row ∈ joined s, Selected name allowed now row ∧
      hit = searchHit engine (safeFtsQuery engine.isWord query) row := by
  rw [search] at h
  split_ifs at h
  · obtain rfl := Except.ok.inj h
    contradiction
  · obtain rfl := Except.ok.inj h
    contradiction
  · obtain rfl := Except.ok.inj h
    obtain ⟨row, hrow, rfl⟩ := List.mem_map.mp hhit
    have hmem := (List.mergeSort_perm _ _).mem_iff.mp (List.mem_of_mem_take hrow)
    obtain ⟨hjoined, hselected⟩ := List.mem_filter.mp hmem
    exact ⟨row, hjoined, of_decide_eq_true (Bool.and_eq_true_iff.mp hselected).2, rfl⟩

/-- A memory is valid at a time. -/
structure ValidAt (now : Datetime) (r : MemoryRevision) : Prop where
  from_le : ∀ f ∈ r.validFrom, f ≤ now
  lt_until : ∀ u ∈ r.validUntil, now < u
  alive : ∀ ttl ∈ r.ttlSeconds, now.microseconds < r.createdAt.microseconds + ttl * 1000000

/-- **A valid hit**: the current revision of a record of the namespace that is not deleted, visible
and valid. -/
def ValidHit (s : Store) (name : Text) (allowed : List Visibility) (now : Datetime)
    (hit : MemorySearchHit) : Prop :=
  ∃ m ∈ s.records, ∃ r ∈ s.revisions,
    (r.revisionId = hit.revisionId ∧ r.memoryId = hit.memoryId ∧ r.content = hit.content) ∧
    (m.currentRevisionId = r.revisionId ∧ m.memoryId = r.memoryId ∧ m.deletedAt = none) ∧
    (m.namespace = name ∧ r.namespace = name) ∧ r.visibility ∈ allowed ∧ ValidAt now r

/-- All hits of all searches of a namespace are valid, whatever matches. -/
def SearchValid (s : Store) (name : Text) (allowed : List Visibility) (now : Datetime) : Prop :=
  ∀ engine ftsAvailable query limit hits,
    search engine ftsAvailable name query limit allowed now s = .ok hits →
    ∀ hit ∈ hits, ValidHit s name allowed now hit

/-! ### The stores of a run -/

/-- What is indexed are revisions, and records point to revisions of theirs. -/
structure Linked (s : Store) : Prop where
  indexed : ∀ f ∈ s.memoryFts, ∃ r ∈ s.revisions, f = ftsRow r
  current : ∀ m ∈ s.records, ∃ r ∈ s.revisions, r.revisionId = m.currentRevisionId ∧
    r.memoryId = m.memoryId

theorem linked_of_reachable (h : (repository Z).Reachable s) : Linked s := by
  refine reachable_induction (I := Linked) ?_ ?_ h
  · exact ⟨fun _ hf => absurd hf List.not_mem_nil, fun _ hm => absurd hm Keyed.not_mem_empty⟩
  · intro s call s' hs hperforms
    rcases hperforms with _ | ⟨_, _, hadds⟩ | _ |
      ⟨_, ids, _, _, candidate, memoryId, found, revision, memoryFts, -, -, -, hcommit, hindexed⟩
    · exact hs
    · cases hadds with
      | again => exact hs
      | added => exact ⟨hs.indexed, hs.current⟩
      | unreadable => exact ⟨hs.indexed, hs.current⟩
    · exact ⟨hs.indexed, hs.current⟩
    -- no revision is replaced: the new one has an identifier of its own
    · have hkeep : ∀ r ∈ s.revisions, r ∈ s.revisions.insert revision :=
        fun r hr => Keyed.mem_insert.mpr (Or.inr ⟨hr, hcommit.revision_new r hr⟩)
      have hold : ∀ f ∈ s.memoryFts, ∃ r ∈ s.revisions.insert revision, f = ftsRow r := by
        intro f hf
        obtain ⟨r, hr, heq⟩ := hs.indexed f hf
        exact ⟨r, hkeep r hr, heq⟩
      refine ⟨fun f hf => ?_, fun m hm => ?_⟩
      · change f ∈ memoryFts at hf
        -- the index has one more row, or it is out of use
        rcases hindexed with rfl | rfl
        · exact hold f hf
        · rcases List.mem_append.mp hf with hf | hf
          · exact hold f hf
          · exact ⟨revision, Keyed.mem_insert_self, List.mem_singleton.mp hf⟩
      · rcases Keyed.mem_insert.mp hm with rfl | ⟨hm, -⟩
        · refine ⟨revision, Keyed.mem_insert_self, ?_⟩
          have hmemory := hcommit.memoryId_eq
          rcases hcommit.base with ⟨-, -⟩ | ⟨record, -, rfl, -, -, -, -⟩
          · exact ⟨rfl, hmemory⟩
          · exact ⟨rfl, hmemory⟩
        · obtain ⟨r, hr, hid, hmemory⟩ := hs.current m hm
          exact ⟨r, hkeep r hr, hid, hmemory⟩

/-- The record that points to a revision is its own. -/
theorem Linked.memoryId_eq (h : Linked s) {m : MemoryRecordRow} (hm : m ∈ s.records)
    {r : MemoryRevision} (hr : r ∈ s.revisions) (hcurrent : m.currentRevisionId = r.revisionId) :
    m.memoryId = r.memoryId := by
  obtain ⟨r', hr', hid, hmemory⟩ := h.current m hm
  rw [Keyed.eq_of_key hr hr' (hcurrent.symm.trans hid.symm)]
  exact hmemory.symm

/-! ### When all hits are valid -/

/-- No memory that is found begins later or is of a record of another namespace. -/
def NoneEarlyOrForeign (s : Store) (name : Text) (allowed : List Visibility) (now : Datetime) :
    Prop :=
  ∀ m ∈ s.records, ∀ r ∈ s.revisions, m.currentRevisionId = r.revisionId →
    ftsRow r ∈ s.memoryFts → r.namespace = name → m.deletedAt = none → Shown allowed now r →
    (∀ f ∈ r.validFrom, f ≤ now) ∧ m.namespace = name

/-- What is shown has not expired. -/
theorem Shown.validAt {r : MemoryRevision} (h : Shown allowed now r)
    (hfrom : ∀ f ∈ r.validFrom, f ≤ now) : ValidAt now r :=
  ⟨hfrom, fun u hu => Datetime.isoformat_lt_iff.mp (h.2.1 u hu),
    fun ttl httl => Datetime.lt_of_seconds_lt (h.2.2 ttl httl)⟩

theorem searchValid_of_none (h : Linked s) (hnone : NoneEarlyOrForeign s name allowed now) :
    SearchValid s name allowed now := by
  intro engine ftsAvailable query limit hits hsearch hit hhit
  obtain ⟨row, hrow, ⟨hname, hdeleted, hshown⟩, rfl⟩ := mem_search hsearch hhit
  obtain ⟨hf, hm, hr, hcurrent, hid⟩ := mem_joined.mp hrow
  obtain ⟨r, hr', heq⟩ := h.indexed row.f hf
  -- the row of the index is that of the revision
  obtain rfl : r = row.r := Keyed.eq_of_key hr' hr (by rw [hid, heq]; rfl)
  rw [heq] at hf hcurrent hname
  obtain ⟨hfrom, hrecord⟩ := hnone row.m hm row.r hr hcurrent hf hname hdeleted hshown
  refine ⟨row.m, hm, row.r, hr, ?_, ⟨hcurrent, h.memoryId_eq hm hr hcurrent, hdeleted⟩,
    ⟨hrecord, hname⟩, hshown.1, hshown.validAt hfrom⟩
  simp [searchHit, heq, ftsRow]

/-- An engine that finds one revision, and a query that is not empty. -/
def findOnly (revisionId : Text) : SearchEngine where
  isWord _ := true
  isMatch _ f := f.revisionId = revisionId
  rank _ _ := 0

theorem SearchValid.none (hvalid : SearchValid s name allowed now) (h : Linked s) :
    NoneEarlyOrForeign s name allowed now := by
  intro m hm r hr hcurrent hindexed hname hdeleted hshown
  let engine := findOnly r.revisionId
  let q := safeFtsQuery engine.isWord ['a']
  let rows := (joined s).filter fun row =>
    engine.isMatch q row.f && decide (Selected name allowed now row)
  let ordered := rows.mergeSort fun a b => decide (engine.rank q a.f ≤ engine.rank q b.f)
  have hquery : q ≠ [] := by
    change safeFtsQuery (fun _ => true) ['a'] ≠ []
    decide
  have hallowed : allowed ≠ [] := List.ne_nil_of_mem hshown.1
  have hsearch : search engine true name ['a'] 1 allowed now s =
      .ok ((ordered.take 1).map (searchHit engine q)) := by
    rw [search, if_neg (by decide), if_neg (by decide), if_neg hallowed, if_neg hquery]
    rfl
  have hrow : (⟨ftsRow r, m, r⟩ : JoinedRow) ∈ ordered := by
    refine (List.mergeSort_perm _ _).mem_iff.mpr (List.mem_filter.mpr ⟨?_, ?_⟩)
    · exact mem_joined.mpr ⟨hindexed, hm, hr, hcurrent, rfl⟩
    · simp [engine, findOnly, ftsRow, Selected, hname, hdeleted, hshown]
  obtain ⟨row, rest, hordered⟩ := List.exists_cons_of_ne_nil (List.ne_nil_of_mem hrow)
  have hfirst : row ∈ rows :=
    (List.mergeSort_perm _ _).mem_iff.mp (hordered ▸ List.mem_cons_self)
  obtain ⟨m', hm', r', hr', ⟨hid, -, -⟩, ⟨hcurrent', hmemory, -⟩, ⟨hrecord, -⟩, -, hvalidAt⟩ :=
    hvalid engine true ['a'] 1 _ hsearch (searchHit engine q row) (by rw [hordered]; simp)
  -- the first row is of the revision that is found
  have hrevision : row.f.revisionId = r.revisionId := by
    have hmatch := (Bool.and_eq_true_iff.mp (List.mem_filter.mp hfirst).2).1
    simpa [engine, findOnly] using hmatch
  obtain rfl : r' = r := Keyed.eq_of_key hr' hr (hid.trans hrevision)
  obtain rfl : m' = m :=
    Keyed.eq_of_key hm' hm (hmemory.trans (h.memoryId_eq hm hr hcurrent).symm)
  exact ⟨hvalidAt.from_le, hrecord⟩

/-- **When all hits of a search are valid**, in every store of a run. -/
theorem search_valid_iff (h : (repository Z).Reachable s) (name : Text) (allowed : List Visibility)
    (now : Datetime) :
    SearchValid s name allowed now ↔ NoneEarlyOrForeign s name allowed now :=
  ⟨fun hvalid => hvalid.none (linked_of_reachable h), searchValid_of_none (linked_of_reachable h)⟩

/-- A memory that is valid from the next year on. -/
def teaNextYear : MemoryCandidate :=
  { jasmineTea with
    validFrom := some { noon with year := 2027, year_bounds := by decide, day_bounds := by decide }
    validInterval := nofun }

theorem search_valid_iff_jasmineTea :
    SearchValid (promote Store.empty ['1'] jasmineTea) "eevee".toList [.streamSafe] noon ↔
      NoneEarlyOrForeign (promote Store.empty ['1'] jasmineTea) "eevee".toList [.streamSafe] noon :=
  search_valid_iff (reachable_promote (.start rfl)) _ _ _

/-- It is found in this one. -/
theorem earlySearch_invalid :
    (repository Place).Reachable (promote Store.empty ['1'] teaNextYear) ∧
      ¬SearchValid (promote Store.empty ['1'] teaNextYear) "eevee".toList [.streamSafe] noon := by
  have hreachable : (repository Place).Reachable (promote Store.empty ['1'] teaNextYear) :=
    reachable_promote (.start rfl)
  refine ⟨hreachable, fun hvalid => ?_⟩
  have hnone := hvalid.none (linked_of_reachable hreachable)
  have hearly : ∃ m ∈ (promote Store.empty ['1'] teaNextYear).records.values,
      ∃ r ∈ (promote Store.empty ['1'] teaNextYear).revisions.values,
        (m.currentRevisionId = r.revisionId ∧
          ftsRow r ∈ (promote Store.empty ['1'] teaNextYear).memoryFts ∧
          r.namespace = "eevee".toList ∧ m.deletedAt = none ∧ Shown [.streamSafe] noon r) ∧
        r.validFrom = teaNextYear.validFrom := by decide +kernel
  obtain ⟨m, hm, r, hr, ⟨hcurrent, hindexed, hname, hdeleted, hshown⟩, hfrom⟩ := hearly
  have hle := (hnone m hm r hr hcurrent hindexed hname hdeleted hshown).1 _ hfrom
  exact absurd hle (by decide)

end Eeveetuber.Storage
