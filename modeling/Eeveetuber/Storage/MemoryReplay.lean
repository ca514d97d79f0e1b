import Eeveetuber.Storage.MemorySteps

/-!
# Adding a candidate again

A candidate whose identifier has a row already is compared with what the row
gives, and a difference is a conflict. What is compared is timestamps with `==`,
and `==` has a say of its own where the offset of a timestamp depends on its
fold: such a candidate is in conflict with itself
(`Eeveetuber.Storage.conflict_with_itself_iff`). With what reading a row may do to
an interval, these are the cases in which the rows lose something
(`Eeveetuber.Storage.rows_lossless_iff`).

The store of `Eeveetuber.Storage.addCandidate` has the values that its rows give. What adding
does to the rows is what it does to that store
(`Eeveetuber.Storage.addCandidateRow_corresponds`).
-/

namespace Eeveetuber.Storage

open Foundation Memory

variable {Z : Type} [Zones Z]

section Candidates

variable [DecidableEq Z] {c : CandidateFields Z}

variable {rows : Keyed MemoryCandidateRow.candidateId} {row : MemoryCandidateRow}
  {submitted stored : SubmittedCandidate Z}

/-- Adding a candidate whose identifier has a row compares it with what the row gives. -/
theorem addCandidateRow_of_find? (hfind : rows.find? submitted.candidateId = some row)
    (hstored : candidate row = .ok stored) :
    addCandidateRow submitted rows =
      if stored.Agrees EqTimestamp submitted.toCandidateFields then .ok (stored, rows)
      else .error (.candidateHasDifferentData submitted.candidateId) := by
  rw [addCandidateRow, hfind]
  dsimp only
  rw [hstored, mapError_ok, ok_bind]
  by_cases h : stored.Agrees EqTimestamp submitted.toCandidateFields
  · rw [if_neg (not_not.mpr h), if_pos h]
    rfl
  · rw [if_pos h, if_neg h]
    rfl

/-- Adding it reports a conflict exactly if the two do not compare as equal. -/
theorem addCandidateRow_conflict_iff (hfind : rows.find? submitted.candidateId = some row)
    (hstored : candidate row = .ok stored) :
    addCandidateRow submitted rows = .error (.candidateHasDifferentData submitted.candidateId) ↔
      ¬stored.Agrees EqTimestamp submitted.toCandidateFields := by
  rw [addCandidateRow_of_find? hfind hstored]
  split
  · rename_i h
    exact iff_of_false (fun hconflict => by cases hconflict) (not_not.mpr h)
  · rename_i h
    exact iff_of_true rfl h

/-- A candidate whose timestamps are in the calendar of UTC has a row; if its interval is not
ordered in time, the row cannot be read. -/
theorem candidate_unreadable (ha : submitted.EachTimestamp Timestamp.Aware)
    (hr : submitted.EachTimestamp Representable) (ho : ¬Ordered submitted.toCandidateFields) :
    ∃ row, candidateRow submitted.toCandidateFields = .ok row ∧
      candidate row = (.error .validation : Except RowError (SubmittedCandidate Z)) := by
  obtain ⟨observedAt, createdAt, validFrom, validUntil, hobserved, hcreated, hfrom, huntil⟩ :=
    exists_atUtc hr
  have hboth := candidate_candidateRow ha submitted.valid.provenance hobserved hcreated hfrom huntil
  rw [dif_neg (fun h => ho ((valid_inUtc submitted.valid hfrom huntil).mp h))] at hboth
  rcases hrow : candidateRow submitted.toCandidateFields with e | row
  · rw [candidateRow, encodeDatetime_of_atUtc ha.observedAt hobserved,
      encodeDatetime_of_atUtc ha.createdAt hcreated,
      encodeOptionalDatetime_of_atUtc ha.validFrom hfrom,
      encodeOptionalDatetime_of_atUtc ha.validUntil huntil] at hrow
    cases hrow
  · rw [hrow, ok_bind] at hboth
    exact ⟨row, rfl, hboth⟩

/-- What the rows promise of a candidate: it is read back the same up to time zones, and adding it
where its identifier has a row reports a conflict exactly if some field differs. -/
structure Lossless (c : SubmittedCandidate Z) : Prop where
  readsBack : ∃ row stored, candidateRow c.toCandidateFields = .ok row ∧
    candidate row = .ok stored ∧ stored.Agrees SameInstant c.toCandidateFields
  conflict : ∀ rows existing stored, rows.find? c.candidateId = some existing →
    candidate existing = .ok stored →
    (addCandidateRow c rows = .error (.candidateHasDifferentData c.candidateId) ↔
      ¬stored.Agrees SameInstant c.toCandidateFields)

omit [DecidableEq Z] in
/-- The row of a candidate is under its identifier, and says its status. -/
theorem columns_of_candidateRow (h : candidateRow c = .ok row) :
    row.candidateId = c.candidateId ∧ row.status = StrEnum.value c.status := by
  rw [candidateRow] at h
  obtain ⟨_, _, h⟩ := except_bind_eq_ok.mp h
  obtain ⟨_, _, h⟩ := except_bind_eq_ok.mp h
  obtain ⟨_, _, h⟩ := except_bind_eq_ok.mp h
  obtain ⟨_, _, h⟩ := except_bind_eq_ok.mp h
  obtain rfl := Except.ok.inj h
  exact ⟨rfl, rfl⟩

omit [DecidableEq Z] in
/-- A candidate is found where its own row is. -/
theorem find?_own_row {id : Text} (h : row.candidateId = id) :
    ((∅ : Keyed MemoryCandidateRow.candidateId).insert row).find? id = some row :=
  Keyed.find?_eq_some.mpr ⟨Keyed.mem_insert_self, h⟩

/-- **Adding a candidate again reports a conflict with itself** exactly if the offset of one of its
timestamps depends on its fold. -/
theorem conflict_with_itself_iff (ha : submitted.EachTimestamp Timestamp.Aware)
    (hrow : candidateRow submitted.toCandidateFields = .ok row)
    (hstored : candidate row = .ok stored)
    (hagrees : stored.Agrees SameInstant submitted.toCandidateFields) :
    addCandidateRow submitted ((∅ : Keyed MemoryCandidateRow.candidateId).insert row) =
        .error (.candidateHasDifferentData submitted.candidateId) ↔
      ¬submitted.EachTimestamp (¬·.FoldDependent) := by
  rw [addCandidateRow_conflict_iff (find?_own_row (columns_of_candidateRow hrow).1) hstored,
    not_iff_not, agrees_eqTimestamp_iff (inUtc_of_candidate hstored) ha]
  exact and_iff_right hagrees

/-- If a candidate is to be added again, no timestamp's offset may depend on its fold. -/
theorem Lossless.not_foldDependent (h : Lossless submitted)
    (ha : submitted.EachTimestamp Timestamp.Aware) :
    submitted.EachTimestamp (¬·.FoldDependent) := by
  obtain ⟨row, stored, hrow, hstored, hagrees⟩ := h.readsBack
  by_contra hfold
  have hconflict := (conflict_with_itself_iff ha hrow hstored hagrees).mpr hfold
  have hfind := find?_own_row (columns_of_candidateRow hrow).1
  exact (h.conflict _ row stored hfind hstored).mp hconflict hagrees

/-- Where no offset depends on a fold, what compares as equal is the same up to time zones. -/
theorem conflict_iff (ha : submitted.EachTimestamp Timestamp.Aware)
    (hfold : submitted.EachTimestamp (¬·.FoldDependent))
    (hfind : rows.find? submitted.candidateId = some row) (hstored : candidate row = .ok stored) :
    addCandidateRow submitted rows = .error (.candidateHasDifferentData submitted.candidateId) ↔
      ¬stored.Agrees SameInstant submitted.toCandidateFields := by
  rw [addCandidateRow_conflict_iff hfind hstored, not_iff_not,
    agrees_eqTimestamp_iff (inUtc_of_candidate hstored) ha]
  exact and_iff_left hfold

/-- **When the rows keep their promise of a candidate.** -/
theorem lossless_iff (ha : submitted.EachTimestamp Timestamp.Aware) :
    Lossless submitted ↔ submitted.EachTimestamp Representable ∧
      Ordered submitted.toCandidateFields ∧ submitted.EachTimestamp (¬·.FoldDependent) := by
  constructor
  · intro h
    obtain ⟨hr, ho⟩ := (candidate_readsBack_iff submitted.valid ha).mp h.readsBack
    exact ⟨hr, ho, h.not_foldDependent ha⟩
  · rintro ⟨hr, ho, hfold⟩
    refine ⟨(candidate_readsBack_iff submitted.valid ha).mpr ⟨hr, ho⟩, ?_⟩
    intro rows existing stored hfind hstored
    exact conflict_iff ha hfold hfind hstored

end Candidates

/-! ### The rows of a store -/

/-- What the repository raises for an error of a row. -/
inductive RowRaises : RowError → StorageError → Prop
  | notAware : RowRaises .notAware .timestampNotAware
  | overflow : RowRaises .overflow .timestampOverflow
  | validation : RowRaises .validation .invalidCandidate

/-- What it raises for an error of adding a candidate. -/
inductive AddRaises : AddCandidateError → StorageError → Prop
  | candidateHasDifferentData (candidateId : Text) :
    AddRaises (.candidateHasDifferentData candidateId) (.candidateHasDifferentData candidateId)
  | row (e : RowError) (e' : StorageError) (h : RowRaises e e') : AddRaises (.row e) e'

section Rows

variable [DecidableEq Z] {s : Store} {rows : Keyed MemoryCandidateRow.candidateId}
  {row : MemoryCandidateRow} {c : SubmittedCandidate Z} {observedAt createdAt : Datetime}
  {validFrom validUntil : Option Datetime}

variable (Z) in
/-- What a store has under an identifier, and the row that is there. -/
inductive RowOf : Option MemoryCandidate → Option UnreadableRow → Option MemoryCandidateRow → Prop
  | noRow : RowOf none none none
  | readable (m : MemoryCandidate) (row : MemoryCandidateRow)
      (reads : candidate row = .ok (submittedOf m : SubmittedCandidate Z)) :
    RowOf (some m) none (some row)
  | unreadable (u : UnreadableRow) (row : MemoryCandidateRow)
      (status : row.status = StrEnum.value u.status)
      (reads : candidate row = (.error .validation : Except RowError (SubmittedCandidate Z))) :
    RowOf none (some u) (some row)

variable (Z) in
/-- The rows of the candidates of a store. -/
def RowsOf (s : Store) (rows : Keyed MemoryCandidateRow.candidateId) : Prop :=
  ∀ id, RowOf Z (s.candidates.find? id) (s.unreadable.find? id) (rows.find? id)

omit [DecidableEq Z] in
theorem storedTime_corresponds (t : Timestamp Z) :
    Corresponds RowRaises (fun text d => t.Aware ∧ AtUtc d t ∧ text = d.isoformat)
      (encodeDatetime t) (storedTime t) := by
  rw [encodeDatetime, storedTime]
  split_ifs with hoffset
  · exact .error .notAware
  · rcases hd : Datetime.ofInstant t.instant with _ | d
    · exact .error .overflow
    · exact .ok ⟨Option.isSome_iff_ne_none.mpr hoffset, Datetime.ofInstant_eq_some.mp hd, rfl⟩

omit [DecidableEq Z] in
theorem optionalStoredTime_corresponds (o : Option (Timestamp Z)) :
    Corresponds RowRaises (fun texts p => (∀ t ∈ o, t.Aware) ∧ optionRel AtUtc p o ∧
      texts = p.map Datetime.isoformat) (encodeOptionalDatetime o) (optionalStoredTime o) := by
  rcases o with _ | t
  · exact .ok ⟨nofun, trivial, rfl⟩
  · refine (storedTime_corresponds t).map ?_
    rintro text d ⟨ha, hd, rfl⟩
    exact ⟨fun _ ht => Option.some.inj ht ▸ ha, hd, rfl⟩

/-- A candidate that gets a row gets it in both. -/
theorem RowsOf.addRow (h : RowsOf Z s rows) (hcandidates : s.candidates.find? c.candidateId = none)
    (hunreadable : s.unreadable.find? c.candidateId = none) (ha : c.EachTimestamp Timestamp.Aware)
    (hobserved : AtUtc observedAt c.provenance.observedAt) (hcreated : AtUtc createdAt c.createdAt)
    (hfrom : optionRel AtUtc validFrom c.validFrom)
    (huntil : optionRel AtUtc validUntil c.validUntil)
    (hrow : candidateRow c.toCandidateFields = .ok row) :
    RowsOf Z (Storage.addRow c observedAt createdAt validFrom validUntil s) (rows.insert row) := by
  have hreads := candidate_candidateRow ha c.valid.provenance hobserved hcreated hfrom huntil
  rw [hrow, ok_bind] at hreads
  obtain ⟨hkey, hstatus⟩ := columns_of_candidateRow hrow
  intro id
  rw [Keyed.find?_insert, hkey, Storage.addRow]
  split_ifs with hordered hid hid
  · subst hid
    rw [dif_pos ((valid_inUtc c.valid hfrom huntil).mpr
      ((lt_iff_ordered hfrom huntil).mp hordered))] at hreads
    dsimp only
    rw [Keyed.find?_insert, if_pos candidateId_storedCandidate, hunreadable]
    exact .readable _ row hreads
  · dsimp only
    rw [Keyed.find?_insert, candidateId_storedCandidate, if_neg hid]
    exact h id
  · subst hid
    rw [dif_neg fun hv => hordered ((lt_iff_ordered hfrom huntil).mpr
      ((valid_inUtc c.valid hfrom huntil).mp hv))] at hreads
    dsimp only
    rw [Keyed.find?_insert, if_pos rfl, hcandidates]
    exact .unreadable _ row hstatus hreads
  · dsimp only
    rw [Keyed.find?_insert, if_neg hid]
    exact h id

/-- So does one that gets none. -/
theorem RowsOf.candidateRow_corresponds (h : RowsOf Z s rows)
    (hcandidates : s.candidates.find? c.candidateId = none)
    (hunreadable : s.unreadable.find? c.candidateId = none) :
    Corresponds RowRaises (fun row y => c = y.1 ∧ RowsOf Z y.2 (rows.insert row))
      (candidateRow c.toCandidateFields) (do
        let observedAt ← storedTime c.provenance.observedAt
        let createdAt ← storedTime c.createdAt
        let validFrom ← optionalStoredTime c.validFrom
        let validUntil ← optionalStoredTime c.validUntil
        .ok (c, Storage.addRow c observedAt createdAt validFrom validUntil s)) := by
  rw [candidateRow]
  refine (storedTime_corresponds c.provenance.observedAt).bind ?_
  rintro _ observedAt ⟨haware₁, hobserved, rfl⟩
  refine (storedTime_corresponds c.createdAt).bind ?_
  rintro _ createdAt ⟨haware₂, hcreated, rfl⟩
  refine (optionalStoredTime_corresponds c.validFrom).bind ?_
  rintro _ validFrom ⟨haware₃, hfrom, rfl⟩
  refine (optionalStoredTime_corresponds c.validUntil).bind ?_
  rintro _ validUntil ⟨haware₄, huntil, rfl⟩
  have ha : c.EachTimestamp Timestamp.Aware := ⟨haware₁, haware₂, haware₃, haware₄⟩
  refine .ok ⟨rfl, h.addRow hcandidates hunreadable ha hobserved hcreated hfrom huntil ?_⟩
  rw [candidateRow, encodeDatetime_of_atUtc haware₁ hobserved,
    encodeDatetime_of_atUtc haware₂ hcreated, encodeOptionalDatetime_of_atUtc haware₃ hfrom,
    encodeOptionalDatetime_of_atUtc haware₄ huntil]
  rfl

/-- **Adding a candidate to the rows is adding it to the store.** -/
theorem addCandidateRow_corresponds (h : RowsOf Z s rows) (c : SubmittedCandidate Z) :
    Corresponds AddRaises (fun x y => x.1 = y.1 ∧ RowsOf Z y.2 x.2)
      (addCandidateRow c rows) (addCandidate c s) := by
  have hrow := h c.candidateId
  generalize hcandidates : s.candidates.find? c.candidateId = stored at hrow
  generalize hunreadable : s.unreadable.find? c.candidateId = other at hrow
  generalize hfind : rows.find? c.candidateId = found at hrow
  cases hrow with
  | noRow =>
    have hboth := (h.candidateRow_corresponds hcandidates hunreadable).mapError AddRaises.row
    rw [addCandidateRow, hfind, addCandidate_of_none hcandidates hunreadable]
    exact hboth.bind_ok fun _ _ hy => hy
  | readable m row hreads =>
    have hrows : addCandidateRow c rows =
        if (fieldsOf m).Agrees EqTimestamp c.toCandidateFields then .ok (submittedOf m, rows)
        else .error (.candidateHasDifferentData c.candidateId) :=
      addCandidateRow_of_find? hfind hreads
    rw [hrows, addCandidate_of_find? hcandidates hunreadable]
    split_ifs with hequal
    · exact .ok ⟨rfl, h⟩
    · exact .error (.candidateHasDifferentData c.candidateId)
  | unreadable u row _ hreads =>
    rw [addCandidateRow, hfind, addCandidate_of_unreadable hunreadable]
    dsimp only
    rw [hreads]
    exact .error (.row _ _ .validation)

/-- `candidate_row.status = status.value`. -/
def MemoryCandidateRow.withStatus (row : MemoryCandidateRow) (status : CandidateStatus) :
    MemoryCandidateRow :=
  { row with status := StrEnum.value status }

/-- Fields that are those of a candidate pass the checks. -/
theorem readFields_eq_ok {fields : CandidateFields Z} {m : MemoryCandidate}
    (h : fields = fieldsOf m) : (if hvalid : fields.Valid then .ok ⟨fields, hvalid⟩
      else .error .validation : Except RowError (SubmittedCandidate Z)) = .ok (submittedOf m) := by
  subst h
  exact dif_pos (valid_fieldsOf m)

/-- A status that is written is read, with the rest as it was. -/
theorem candidate_withStatus {m : MemoryCandidate}
    (h : candidate row = .ok (submittedOf m : SubmittedCandidate Z)) (status : CandidateStatus) :
    candidate (row.withStatus status) =
      .ok (submittedOf (withStatus m status) : SubmittedCandidate Z) := by
  rw [candidate] at h
  obtain ⟨kind, hkind, h⟩ := except_bind_eq_ok.mp h
  obtain ⟨scope, hscope, h⟩ := except_bind_eq_ok.mp h
  obtain ⟨p, hp, h⟩ := except_bind_eq_ok.mp h
  obtain ⟨sensitivity, hsensitivity, h⟩ := except_bind_eq_ok.mp h
  obtain ⟨visibility, hvisibility, h⟩ := except_bind_eq_ok.mp h
  obtain ⟨createdAt, hcreated, h⟩ := except_bind_eq_ok.mp h
  obtain ⟨validFrom, hfrom, h⟩ := except_bind_eq_ok.mp h
  obtain ⟨validUntil, huntil, h⟩ := except_bind_eq_ok.mp h
  obtain ⟨_, -, h⟩ := except_bind_eq_ok.mp h
  dsimp only at h
  split at h
  · have hfields := congrArg SubmittedCandidate.toCandidateFields (Except.ok.inj h)
    have hmarked := congrArg (fun f : CandidateFields Z => { f with status := status }) hfields
    simp only [candidate, MemoryCandidateRow.withStatus, hkind, hscope, hp, hsensitivity,
      hvisibility, hcreated, hfrom, huntil, StrEnum.ofValue_value, ok_bind]
    exact readFields_eq_ok hmarked
  · cases h

/-- A decision writes a status to the row of a candidate that can be read. -/
theorem RowsOf.withStatus (h : RowsOf Z s rows) {m : MemoryCandidate} (hmem : m ∈ s.candidates)
    (status : CandidateStatus) : ∃ row, rows.find? m.candidateId = some row ∧
      ∀ s', s'.candidates = s.candidates.insert (withStatus m status) →
        s'.unreadable = s.unreadable → RowsOf Z s' (rows.insert (row.withStatus status)) := by
  have hrow := h m.candidateId
  rw [Keyed.find?_key hmem] at hrow
  generalize hunreadable : s.unreadable.find? m.candidateId = other at hrow
  generalize hfind : rows.find? m.candidateId = found at hrow
  cases hrow with
  | readable _ row hreads =>
    refine ⟨row, rfl, fun s' hcandidates hother id => ?_⟩
    have hkey : (row.withStatus status).candidateId = m.candidateId :=
      (Keyed.find?_eq_some.mp hfind).2
    rw [hcandidates, hother, Keyed.find?_insert, Keyed.find?_insert, hkey, candidateId_withStatus]
    split_ifs with hid
    · rw [← hid, hunreadable]
      exact .readable _ _ (candidate_withStatus hreads status)
    · exact h id

/-- **The store of every run is that of some rows.** -/
theorem exists_rowsOf (h : (repository Z).Reachable s) : ∃ rows, RowsOf Z s rows := by
  refine h.invariant (I := fun s => ∃ rows, RowsOf Z s rows) ?_ ?_
  · rintro _ rfl
    exact ⟨∅, fun _ => .noRow⟩
  · rintro s call t _ ⟨rows, hrows⟩ _ hnext
    obtain rfl := Option.some.inj hnext
    rcases call with c | ⟨ftsAvailable, ids, decision, approvedBy⟩
    · have hboth := addCandidateRow_corresponds hrows c
      rw [Call.perform, transaction]
      generalize addCandidateRow c rows = x at hboth
      generalize addCandidate c s = y at hboth ⊢
      cases hboth with
      | ok hnew => exact ⟨_, hnew.2⟩
      | error => exact ⟨rows, hrows⟩
    · have hperforms :=
        (Call.applyDecision ftsAvailable ids decision approvedBy : Call Z).performs s
      generalize (Call.applyDecision ftsAvailable ids decision approvedBy : Call Z).perform s = t
        at hperforms ⊢
      rcases hperforms with _ | _ | ⟨_, _, _, _, candidate, status, hdecides, _, _⟩ |
        ⟨_, _, _, _, candidate, _, _, _, _, hdecides, _, _, _, _⟩
      · exact ⟨rows, hrows⟩
      · obtain ⟨row, -, hmarked⟩ := hrows.withStatus hdecides.mem status
        exact ⟨_, hmarked _ rfl rfl⟩
      · obtain ⟨row, -, hmarked⟩ := hrows.withStatus hdecides.mem .committed
        exact ⟨_, hmarked _ rfl rfl⟩

end Rows

/-- What the rows promise of a revision. -/
def RevisionLossless (r : RevisionFields Z) : Prop :=
  ∃ row stored, revisionRow r = .ok row ∧ revision row = .ok stored ∧
    stored.Agrees SameInstant r

/-- **When the rows lose nothing.** Of a candidate, if its timestamps are in the calendar of UTC,
its interval is ordered in time, and no timestamp's offset depends on its fold; of a revision, if
its timestamps are in the calendar of UTC. -/
theorem rows_lossless_iff [DecidableEq Z] (c : SubmittedCandidate Z) (r : SubmittedRevision Z)
    (hc : c.EachTimestamp Timestamp.Aware) (hr : r.EachTimestamp Timestamp.Aware) :
    (Lossless c ↔ c.EachTimestamp Representable ∧ Ordered c.toCandidateFields ∧
        c.EachTimestamp (¬·.FoldDependent)) ∧
      (RevisionLossless r.toRevisionFields ↔ r.EachTimestamp Representable) :=
  ⟨lossless_iff hc, revision_readsBack_iff r.valid hr⟩

/-! ### The hour that New York shows twice -/

/-- A time of the first of November in New York, after one. -/
def pastOne (minute : ℕ) (fold : Bool) (h : minute < 60 := by decide) : Timestamp Place where
  clock := { fallBack.1 with minute := minute, minute_lt := h }
  fold := fold
  tzinfo := some .newYork

/-- Something the owner says, made at some time and with an interval. -/
def teaAt (createdAt : Timestamp Place) (validFrom validUntil : Option (Timestamp Place)) :
    CandidateFields Place :=
  { fieldsOf jasmineTea with
    createdAt := createdAt
    validFrom := validFrom
    validUntil := validUntil }

theorem valid_teaAt {createdAt : Timestamp Place} {validFrom validUntil : Option (Timestamp Place)}
    (h : intervalPasses validFrom validUntil) : (teaAt createdAt validFrom validUntil).Valid :=
  { valid_fieldsOf jasmineTea with interval := h }

/-- Made at half past one, when New York shows it first. -/
def shownTwice : SubmittedCandidate Place where
  toCandidateFields := teaAt (pastOne 30 false) none none
  valid := valid_teaAt (by decide)

/-- From half past one, shown the second time, until a quarter to two, shown the first time. -/
def backwards : SubmittedCandidate Place where
  toCandidateFields := teaAt (.ofUtc fallBack.1) (some (pastOne 30 true)) (some (pastOne 45 false))
  valid := valid_teaAt (by decide)

theorem aware_teaAt {createdAt : Timestamp Place} {validFrom validUntil : Option (Timestamp Place)}
    (hcreated : createdAt.Aware) (hfrom : ∀ t ∈ validFrom, t.Aware)
    (huntil : ∀ t ∈ validUntil, t.Aware) :
    (teaAt createdAt validFrom validUntil).EachTimestamp Timestamp.Aware :=
  ⟨Timestamp.aware_ofUtc, hcreated, hfrom, huntil⟩

theorem representable_teaAt {createdAt : Timestamp Place}
    {validFrom validUntil : Option (Timestamp Place)} (hcreated : Representable createdAt)
    (hfrom : ∀ t ∈ validFrom, Representable t) (huntil : ∀ t ∈ validUntil, Representable t) :
    (teaAt createdAt validFrom validUntil).EachTimestamp Representable :=
  ⟨(by decide : Representable (Timestamp.ofUtc noon : Timestamp Place)), hcreated, hfrom, huntil⟩

/-- **The rows lose something in New York.** A candidate made in the hour that is shown twice is in
conflict with itself, and the row of an interval that ends before it begins cannot be read. -/
theorem newYork_not_lossless :
    (shownTwice.EachTimestamp Timestamp.Aware ∧ ¬Lossless shownTwice ∧
      ∃ row stored, candidateRow shownTwice.toCandidateFields = .ok row ∧
        candidate row = .ok stored ∧
        stored.Agrees SameInstant shownTwice.toCandidateFields ∧
        addCandidateRow shownTwice ((∅ : Keyed MemoryCandidateRow.candidateId).insert row) =
          .error (.candidateHasDifferentData shownTwice.candidateId)) ∧
    (backwards.EachTimestamp Timestamp.Aware ∧ ¬Lossless backwards ∧
      ∃ row, candidateRow backwards.toCandidateFields = .ok row ∧
        candidate row = (.error .validation : Except RowError (SubmittedCandidate Place))) := by
  have hfirst : shownTwice.EachTimestamp Timestamp.Aware := aware_teaAt (by decide) nofun nofun
  have hsecond : backwards.EachTimestamp Timestamp.Aware :=
    aware_teaAt (by decide) (by decide) (by decide)
  have hfold : ¬shownTwice.EachTimestamp (¬·.FoldDependent) := by
    intro h
    exact h.createdAt (by decide)
  have horder : ¬Ordered backwards.toCandidateFields := by decide
  have hreads : ∃ row stored, candidateRow shownTwice.toCandidateFields = .ok row ∧
      candidate row = .ok stored ∧ stored.Agrees SameInstant shownTwice.toCandidateFields :=
    (candidate_readsBack_iff shownTwice.valid hfirst).mpr
      ⟨representable_teaAt (by decide) nofun nofun, by decide⟩
  refine ⟨⟨hfirst, fun h => hfold (h.not_foldDependent hfirst), ?_⟩, hsecond, ?_, ?_⟩
  · obtain ⟨row, stored, hrow, hstored, hagrees⟩ := hreads
    exact ⟨row, stored, hrow, hstored, hagrees,
      (conflict_with_itself_iff hfirst hrow hstored hagrees).mpr hfold⟩
  · intro h
    exact horder ((candidate_readsBack_iff backwards.valid hsecond).mp h.readsBack).2
  · exact candidate_unreadable hsecond
      (representable_teaAt (by decide) (by decide) (by decide)) horder

/-- What the tea is remembered as. -/
def teaRevision : SubmittedRevision Place where
  revisionId := "memr_1".toList
  memoryId := "mem_1".toList
  «namespace» := "eevee".toList
  generation := 1
  promotedFromCandidateId := some "candidate-1".toList
  kind := .userProfile
  scope := jasmineTea.scope
  subject := jasmineTea.subject
  content := jasmineTea.content
  provenance := shownTwice.provenance
  confidence := 1
  sensitivity := .internal
  visibility := .streamSafe
  createdAt := pastOne 30 false
  valid :=
    { revisionId := by decide
      memoryId := by decide
      «namespace» := by decide
      generation := le_rfl
      parentRevisionId := by decide
      promotedFromCandidateId := by decide
      subject := jasmineTea.subject_inLength
      content := jasmineTea.content_ne_nil
      provenance := shownTwice.valid.provenance
      confidence := ⟨by decide, by decide⟩
      ttlSeconds := by decide }

theorem rows_lossless_iff_tea :
    (Lossless shownTwice ↔ shownTwice.EachTimestamp Representable ∧
        Ordered shownTwice.toCandidateFields ∧ shownTwice.EachTimestamp (¬·.FoldDependent)) ∧
      (RevisionLossless teaRevision.toRevisionFields ↔ teaRevision.EachTimestamp Representable) :=
  rows_lossless_iff shownTwice teaRevision (aware_teaAt (by decide) nofun nofun)
    ⟨Timestamp.aware_ofUtc, by decide, nofun, nofun⟩

end Eeveetuber.Storage
