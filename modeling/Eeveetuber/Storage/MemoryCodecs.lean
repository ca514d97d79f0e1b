import Eeveetuber.Storage.MemoryRows

/-!
# What the rows of candidates and revisions lose

Of the fields of a candidate or a revision, a row changes the timestamps alone:
it has them in UTC. Reading the row back gives, for every field, what was
written, and for every timestamp one of the same instant
(`Eeveetuber.Storage.candidate_candidateRow`, `Eeveetuber.Storage.revision_revisionRow`).

Three things can go wrong with timestamps all the same. The instant may not be in
the calendar of UTC. The clocks of an interval, which the model compares in their
own time zone, may be in another order than the instants, so that the row does
not pass the check when it is read (`Eeveetuber.Storage.candidate_readsBack_iff`).
And a timestamp whose offset depends on its fold does not equal the one read back
(`Eeveetuber.Storage.agrees_eqTimestamp_iff`).
-/

namespace Eeveetuber.Storage

open Foundation Memory

variable {Z : Type} [Zones Z]

/-! ### Timestamps -/

/-- A point in time in UTC and a timestamp are of one instant. -/
def AtUtc (d : Datetime) (t : Timestamp Z) : Prop := (d.microseconds : ℤ) = t.instant

/-- The instant of a timestamp is in the calendar of UTC. -/
def Representable (t : Timestamp Z) : Prop :=
  (Datetime.first.microseconds : ℤ) ≤ t.instant ∧ t.instant ≤ Datetime.last.microseconds
deriving Decidable

/-- A timestamp as it is read from a row. -/
def InUtc (t : Timestamp Z) : Prop := ∃ d, t = Timestamp.ofUtc d

variable {t : Timestamp Z} {d : Datetime} {text : Text}

theorem representable_iff : Representable t ↔ ∃ d, AtUtc d t := by
  rw [Representable, ← Datetime.isSome_ofInstant, Option.isSome_iff_exists]
  exact exists_congr fun d => Datetime.ofInstant_eq_some

theorem encodeDatetime_of_atUtc (ha : t.Aware) (h : AtUtc d t) :
    encodeDatetime t = .ok d.isoformat := by
  have hoffset : t.utcoffset ≠ none := Option.isSome_iff_ne_none.mp ha
  rw [encodeDatetime, if_neg hoffset, Datetime.ofInstant_eq_some.mpr h]
  rfl

/-- What is written of a timestamp is the point in time in UTC. -/
theorem encodeDatetime_eq_ok (ha : t.Aware) :
    encodeDatetime t = .ok text ↔ ∃ d, AtUtc d t ∧ text = d.isoformat := by
  constructor
  · intro h
    have hoffset : t.utcoffset ≠ none := Option.isSome_iff_ne_none.mp ha
    rw [encodeDatetime, if_neg hoffset, orRaise_eq_ok, Option.map_eq_some_iff] at h
    obtain ⟨d, hd, rfl⟩ := h
    exact ⟨d, Datetime.ofInstant_eq_some.mp hd, rfl⟩
  · rintro ⟨d, hd, rfl⟩
    exact encodeDatetime_of_atUtc ha hd

@[simp] theorem decodeDatetime_isoformat :
    decodeDatetime d.isoformat = .ok (Timestamp.ofUtc d : Timestamp Z) := by
  rw [decodeDatetime, Datetime.fromisoformat_eq_some.mpr rfl]
  rfl

/-- What is read of a timestamp is in UTC. -/
theorem inUtc_of_decodeDatetime (h : decodeDatetime text = .ok t) : InUtc t := by
  rw [decodeDatetime, orRaise_eq_ok, Option.map_eq_some_iff] at h
  obtain ⟨d, _, rfl⟩ := h
  exact ⟨d, rfl⟩

/-! ### Optional timestamps -/

theorem encodeOptionalDatetime_of_atUtc {o : Option (Timestamp Z)} {p : Option Datetime}
    (ha : ∀ t ∈ o, t.Aware) (h : optionRel AtUtc p o) :
    encodeOptionalDatetime o = .ok (p.map Datetime.isoformat) := by
  rcases o with _ | t
  · rcases p with _ | d
    · rfl
    · exact h.elim
  · rcases p with _ | d
    · exact h.elim
    · rw [encodeOptionalDatetime, convertOptional, encodeDatetime_of_atUtc (ha t rfl) h]
      rfl

theorem representable_of_encodeOptionalDatetime {o : Option (Timestamp Z)} {texts : Option Text}
    (ha : ∀ t ∈ o, t.Aware) (h : encodeOptionalDatetime o = .ok texts) :
    ∀ t ∈ o, Representable t := by
  rintro t rfl
  rw [encodeOptionalDatetime, convertOptional, map_eq_pure_bind, except_bind_eq_ok] at h
  obtain ⟨text, htext, -⟩ := h
  obtain ⟨d, hd, -⟩ := (encodeDatetime_eq_ok (ha t rfl)).mp htext
  exact representable_iff.mpr ⟨d, hd⟩

@[simp] theorem decodeOptionalDatetime_isoformat {p : Option Datetime} :
    decodeOptionalDatetime (p.map Datetime.isoformat) =
      .ok (p.map (Timestamp.ofUtc : Datetime → Timestamp Z)) := by
  rcases p with _ | d
  · rfl
  · rw [Option.map_some, decodeOptionalDatetime, convertOptional, decodeDatetime_isoformat]
    rfl

/-- Optional timestamps whose instants are in the calendar. -/
theorem exists_optionRel_atUtc {o : Option (Timestamp Z)} (h : ∀ t ∈ o, Representable t) :
    ∃ p, optionRel AtUtc p o := by
  rcases o with _ | t
  · exact ⟨none, trivial⟩
  · obtain ⟨d, hd⟩ := representable_iff.mp (h t rfl)
    exact ⟨some d, hd⟩

/-! ### The parts of a row -/

theorem provenance_value {p : ProvenanceFields Z} (hp : p.Valid) :
    provenance (StrEnum.value p.sourceKind) p.sourceId (StrEnum.value p.sourceTrust) p.actorId
        d.isoformat p.evidenceEventIds p.consented.toInt =
      .ok ({ p with observedAt := Timestamp.ofUtc d } : ProvenanceFields Z) := by
  have hconsented : decide (p.consented.toInt ≠ 0) = p.consented := by
    cases p.consented <;> rfl
  have hvalid : ({ p with observedAt := Timestamp.ofUtc d } : ProvenanceFields Z).Valid :=
    ⟨hp.sourceId, hp.actorId⟩
  simp only [provenance, StrEnum.ofValue_value, decodeDatetime_isoformat, ok_bind, hconsented,
    raiseIf, not_not.mpr hvalid, if_false]
  rfl

@[simp] theorem memoryScope_value (s : MemoryScope) :
    memoryScope (StrEnum.value s.kind) s.subjectId = .ok s := by
  simp only [memoryScope, StrEnum.ofValue_value, ok_bind, dif_pos s.subjectId_inLength]
  rfl

/-- A candidate with its timestamps in UTC. -/
def inUtc (c : CandidateFields Z) (observedAt createdAt : Datetime)
    (validFrom validUntil : Option Datetime) : CandidateFields Z :=
  { c with
    provenance := { c.provenance with observedAt := .ofUtc observedAt }
    createdAt := .ofUtc createdAt
    validFrom := validFrom.map .ofUtc
    validUntil := validUntil.map .ofUtc }

section Candidates

variable [DecidableEq Z] {c : CandidateFields Z} {observedAt createdAt : Datetime}
  {validFrom validUntil : Option Datetime}

/-- **A row gives back the candidate with its timestamps in UTC**, if that passes the checks. -/
theorem candidate_candidateRow (ha : c.EachTimestamp Timestamp.Aware) (hp : c.provenance.Valid)
    (hobserved : AtUtc observedAt c.provenance.observedAt) (hcreated : AtUtc createdAt c.createdAt)
    (hfrom : optionRel AtUtc validFrom c.validFrom)
    (huntil : optionRel AtUtc validUntil c.validUntil) :
    (candidateRow c >>= candidate) =
      if h : (inUtc c observedAt createdAt validFrom validUntil).Valid then .ok ⟨_, h⟩
      else .error .validation := by
  simp only [candidateRow, encodeDatetime_of_atUtc ha.observedAt hobserved,
    encodeDatetime_of_atUtc ha.createdAt hcreated,
    encodeOptionalDatetime_of_atUtc ha.validFrom hfrom,
    encodeOptionalDatetime_of_atUtc ha.validUntil huntil, ok_bind, pure_bind]
  simp only [candidate, StrEnum.ofValue_value, memoryScope_value, provenance_value hp,
    decodeDatetime_isoformat, decodeOptionalDatetime_isoformat, ok_bind]
  rfl

/-- The end of an interval is after its beginning, in time. -/
def Ordered (c : CandidateFields Z) : Prop :=
  ∀ f ∈ c.validFrom, ∀ u ∈ c.validUntil, f.instant < u.instant
deriving Decidable

omit [DecidableEq Z] in
theorem sameInstant_ofUtc : SameInstant (Timestamp.ofUtc d) t ↔ AtUtc d t := by
  rw [SameInstant, Timestamp.instant_ofUtc, AtUtc]

omit [DecidableEq Z] in
theorem optionRel_sameInstant_ofUtc {p : Option Datetime} {o : Option (Timestamp Z)} :
    optionRel SameInstant (p.map Timestamp.ofUtc) o ↔ optionRel AtUtc p o := by
  rcases o with _ | t
  · rcases p with _ | d
    · exact Iff.rfl
    · exact Iff.rfl
  · rcases p with _ | d
    · exact Iff.rfl
    · exact sameInstant_ofUtc

omit [DecidableEq Z] in
/-- In UTC a candidate is the same up to time zones. -/
theorem agrees_inUtc (hobserved : AtUtc observedAt c.provenance.observedAt)
    (hcreated : AtUtc createdAt c.createdAt) (hfrom : optionRel AtUtc validFrom c.validFrom)
    (huntil : optionRel AtUtc validUntil c.validUntil) :
    (inUtc c observedAt createdAt validFrom validUntil).Agrees SameInstant c where
  candidateId := rfl
  «namespace» := rfl
  kind := rfl
  scope := rfl
  subject := rfl
  content := rfl
  provenance :=
    { sourceKind := rfl
      sourceId := rfl
      sourceTrust := rfl
      observedAt := sameInstant_ofUtc.mpr hobserved
      actorId := rfl
      evidenceEventIds := rfl
      consented := rfl }
  confidence := rfl
  sensitivity := rfl
  visibility := rfl
  createdAt := sameInstant_ofUtc.mpr hcreated
  validFrom := optionRel_sameInstant_ofUtc.mpr hfrom
  validUntil := optionRel_sameInstant_ofUtc.mpr huntil
  ttlSeconds := rfl
  baseMemoryId := rfl
  baseRevisionId := rfl
  contradictionRevisionIds := rfl
  status := rfl

omit [DecidableEq Z] in
/-- In UTC an interval is in the order of its instants. -/
theorem lt_iff_ordered (hfrom : optionRel AtUtc validFrom c.validFrom)
    (huntil : optionRel AtUtc validUntil c.validUntil) :
    (∀ f ∈ validFrom, ∀ u ∈ validUntil, f < u) ↔ Ordered c := by
  rw [Ordered]
  rcases hf : c.validFrom with _ | f
  · rw [hf] at hfrom
    rcases validFrom with _ | f'
    · exact iff_of_true nofun nofun
    · exact hfrom.elim
  rcases hu : c.validUntil with _ | u
  · rw [hu] at huntil
    rcases validUntil with _ | u'
    · exact iff_of_true (fun _ _ => nofun) fun _ _ => nofun
    · exact huntil.elim
  rw [hf] at hfrom
  rw [hu] at huntil
  rcases validFrom with _ | f'
  · exact hfrom.elim
  rcases validUntil with _ | u'
  · exact huntil.elim
  have hf' : (f'.microseconds : ℤ) = f.instant := hfrom
  have hu' : (u'.microseconds : ℤ) = u.instant := huntil
  simp only [Option.mem_def, Option.some.injEq, forall_eq', Datetime.lt_iff, ← hf', ← hu',
    Nat.cast_lt]

/-- In UTC an interval passes the check exactly if it is ordered in time. -/
theorem intervalPasses_inUtc (hfrom : optionRel AtUtc validFrom c.validFrom)
    (huntil : optionRel AtUtc validUntil c.validUntil) :
    intervalPasses (validFrom.map (Timestamp.ofUtc : Datetime → Timestamp Z))
        (validUntil.map Timestamp.ofUtc) ↔ Ordered c := by
  rw [intervalPasses, ← lt_iff_ordered hfrom huntil]
  simp only [Option.mem_def, Option.map_eq_some_iff, forall_exists_index, and_imp,
    forall_apply_eq_imp_iff₂, Timestamp.le_ofUtc, Option.some.injEq, decide_eq_false_iff_not,
    not_le]

/-- In UTC the other fields pass the checks they have passed. -/
theorem valid_inUtc (hc : c.Valid) (hfrom : optionRel AtUtc validFrom c.validFrom)
    (huntil : optionRel AtUtc validUntil c.validUntil) :
    (inUtc c observedAt createdAt validFrom validUntil).Valid ↔ Ordered c := by
  rw [← intervalPasses_inUtc hfrom huntil]
  constructor
  · exact fun h => h.interval
  · intro h
    exact
      { hc with
        provenance := ⟨hc.provenance.sourceId, hc.provenance.actorId⟩
        interval := h }

omit [DecidableEq Z] in
/-- A candidate that has a row has its timestamps in the calendar of UTC. -/
theorem representable_of_candidateRow {row : MemoryCandidateRow}
    (ha : c.EachTimestamp Timestamp.Aware) (h : candidateRow c = .ok row) :
    c.EachTimestamp Representable := by
  rw [candidateRow] at h
  obtain ⟨_, hobserved, h⟩ := except_bind_eq_ok.mp h
  obtain ⟨_, hcreated, h⟩ := except_bind_eq_ok.mp h
  obtain ⟨_, hfrom, h⟩ := except_bind_eq_ok.mp h
  obtain ⟨_, huntil, h⟩ := except_bind_eq_ok.mp h
  obtain ⟨d, hd, -⟩ := (encodeDatetime_eq_ok ha.observedAt).mp hobserved
  obtain ⟨e, he, -⟩ := (encodeDatetime_eq_ok ha.createdAt).mp hcreated
  exact
    { observedAt := representable_iff.mpr ⟨d, hd⟩
      createdAt := representable_iff.mpr ⟨e, he⟩
      validFrom := representable_of_encodeOptionalDatetime ha.validFrom hfrom
      validUntil := representable_of_encodeOptionalDatetime ha.validUntil huntil }

omit [DecidableEq Z] in
/-- Timestamps in the calendar of UTC have their points in time there. -/
theorem exists_atUtc (hr : c.EachTimestamp Representable) :
    ∃ observedAt createdAt validFrom validUntil, AtUtc observedAt c.provenance.observedAt ∧
      AtUtc createdAt c.createdAt ∧ optionRel AtUtc validFrom c.validFrom ∧
      optionRel AtUtc validUntil c.validUntil := by
  obtain ⟨observedAt, hobserved⟩ := representable_iff.mp hr.observedAt
  obtain ⟨createdAt, hcreated⟩ := representable_iff.mp hr.createdAt
  obtain ⟨validFrom, hfrom⟩ := exists_optionRel_atUtc hr.validFrom
  obtain ⟨validUntil, huntil⟩ := exists_optionRel_atUtc hr.validUntil
  exact ⟨observedAt, createdAt, validFrom, validUntil, hobserved, hcreated, hfrom, huntil⟩

/-- **A candidate is read back, the same up to time zones, exactly if its timestamps are in the
calendar of UTC and its interval is ordered in time.** -/
theorem candidate_readsBack_iff (hc : c.Valid) (ha : c.EachTimestamp Timestamp.Aware) :
    (∃ row stored, candidateRow c = .ok row ∧ candidate row = .ok stored ∧
        stored.Agrees SameInstant c) ↔ c.EachTimestamp Representable ∧ Ordered c := by
  constructor
  · rintro ⟨row, stored, hrow, hstored, -⟩
    have hr : c.EachTimestamp Representable := representable_of_candidateRow ha hrow
    obtain ⟨observedAt, createdAt, validFrom, validUntil, hobserved, hcreated, hfrom, huntil⟩ :=
      exists_atUtc hr
    have hboth := candidate_candidateRow ha hc.provenance hobserved hcreated hfrom huntil
    rw [hrow, ok_bind, hstored] at hboth
    refine ⟨hr, ?_⟩
    by_contra ho
    rw [dif_neg (fun h => ho ((valid_inUtc hc hfrom huntil).mp h))] at hboth
    cases hboth
  · rintro ⟨hr, ho⟩
    obtain ⟨observedAt, createdAt, validFrom, validUntil, hobserved, hcreated, hfrom, huntil⟩ :=
      exists_atUtc hr
    have hboth := candidate_candidateRow ha hc.provenance hobserved hcreated hfrom huntil
    rw [dif_pos ((valid_inUtc hc hfrom huntil).mpr ho)] at hboth
    obtain ⟨row, hrow, hstored⟩ := except_bind_eq_ok.mp hboth
    exact ⟨row, _, hrow, hstored, agrees_inUtc hobserved hcreated hfrom huntil⟩

/-! ### Comparing what is read with what is submitted -/

omit [DecidableEq Z] in
theorem forall_inUtc_of_decodeOptionalDatetime {texts : Option Text} {o : Option (Timestamp Z)}
    (h : decodeOptionalDatetime texts = .ok o) : ∀ t ∈ o, InUtc t := by
  rcases texts with _ | text
  · obtain rfl : none = o := Except.ok.inj h
    nofun
  · rw [decodeOptionalDatetime, convertOptional, map_eq_pure_bind] at h
    obtain ⟨t, ht, h⟩ := except_bind_eq_ok.mp h
    obtain rfl : some t = o := Except.ok.inj h
    intro s hs
    obtain rfl : t = s := Option.some.inj hs
    exact inUtc_of_decodeDatetime ht

omit [DecidableEq Z] in
theorem inUtc_of_provenance {sourceKind sourceId sourceTrust observedAt : Text}
    {actorId : Option Text} {ids : List Text} {consented : ℤ} {p : ProvenanceFields Z}
    (h : provenance sourceKind sourceId sourceTrust actorId observedAt ids consented = .ok p) :
    InUtc p.observedAt := by
  rw [provenance] at h
  obtain ⟨_, _, h⟩ := except_bind_eq_ok.mp h
  obtain ⟨_, _, h⟩ := except_bind_eq_ok.mp h
  obtain ⟨t, ht, h⟩ := except_bind_eq_ok.mp h
  obtain ⟨-, h⟩ := raiseIf_bind_eq_ok.mp h
  obtain rfl := Except.ok.inj h
  exact inUtc_of_decodeDatetime ht

/-- What is read of a row has its timestamps in UTC. -/
theorem inUtc_of_candidate {row : MemoryCandidateRow} {stored : SubmittedCandidate Z}
    (h : candidate row = .ok stored) : stored.EachTimestamp InUtc := by
  rw [candidate] at h
  obtain ⟨_, _, h⟩ := except_bind_eq_ok.mp h
  obtain ⟨_, _, h⟩ := except_bind_eq_ok.mp h
  obtain ⟨p, hp, h⟩ := except_bind_eq_ok.mp h
  obtain ⟨_, _, h⟩ := except_bind_eq_ok.mp h
  obtain ⟨_, _, h⟩ := except_bind_eq_ok.mp h
  obtain ⟨created, hcreated, h⟩ := except_bind_eq_ok.mp h
  obtain ⟨f, hf, h⟩ := except_bind_eq_ok.mp h
  obtain ⟨u, hu, h⟩ := except_bind_eq_ok.mp h
  obtain ⟨_, _, h⟩ := except_bind_eq_ok.mp h
  dsimp only at h
  split at h
  · obtain rfl := Except.ok.inj h
    exact
      { observedAt := inUtc_of_provenance hp
        createdAt := inUtc_of_decodeDatetime hcreated
        validFrom := forall_inUtc_of_decodeOptionalDatetime hf
        validUntil := forall_inUtc_of_decodeOptionalDatetime hu }
  · cases h

/-- A timestamp in UTC equals one of the same instant whose offset does not depend on its fold. -/
theorem eqTimestamp_iff {s : Timestamp Z} (hs : InUtc s) (ha : t.Aware) :
    EqTimestamp s t ↔ SameInstant s t ∧ ¬t.FoldDependent := by
  obtain ⟨d, rfl⟩ := hs
  rw [EqTimestamp, SameInstant, Timestamp.instant_ofUtc]
  exact Timestamp.ofUtc_eq_iff ha

theorem optionRel_eqTimestamp_iff {o p : Option (Timestamp Z)} (ho : ∀ s ∈ o, InUtc s)
    (ha : ∀ t ∈ p, t.Aware) :
    optionRel EqTimestamp o p ↔ optionRel SameInstant o p ∧ ∀ t ∈ p, ¬t.FoldDependent := by
  rcases o with _ | s
  · rcases p with _ | t
    · exact iff_of_true trivial ⟨trivial, nofun⟩
    · exact iff_of_false id fun h => h.1
  · rcases p with _ | t
    · exact iff_of_false id fun h => h.1
    · refine (eqTimestamp_iff (ho s rfl) (ha t rfl)).trans (and_congr_right' ?_)
      exact ⟨fun h _ ht => Option.some.inj ht ▸ h, fun h => h t rfl⟩

/-- **What is read equals what is submitted exactly if the two are the same up to time zones and no
timestamp's offset depends on its fold.** -/
theorem agrees_eqTimestamp_iff {stored : CandidateFields Z} (hs : stored.EachTimestamp InUtc)
    (ha : c.EachTimestamp Timestamp.Aware) :
    stored.Agrees EqTimestamp c ↔
      stored.Agrees SameInstant c ∧ c.EachTimestamp (¬·.FoldDependent) := by
  have hobserved := eqTimestamp_iff hs.observedAt ha.observedAt
  have hcreated := eqTimestamp_iff hs.createdAt ha.createdAt
  have hfrom := optionRel_eqTimestamp_iff hs.validFrom ha.validFrom
  have huntil := optionRel_eqTimestamp_iff hs.validUntil ha.validUntil
  constructor
  · intro h
    obtain ⟨hobserved, hfold₁⟩ := hobserved.mp h.provenance.observedAt
    obtain ⟨hcreated, hfold₂⟩ := hcreated.mp h.createdAt
    obtain ⟨hfrom, hfold₃⟩ := hfrom.mp h.validFrom
    obtain ⟨huntil, hfold₄⟩ := huntil.mp h.validUntil
    refine ⟨?_, ⟨hfold₁, hfold₂, hfold₃, hfold₄⟩⟩
    exact
      { h with
        provenance := { h.provenance with observedAt := hobserved }
        createdAt := hcreated
        validFrom := hfrom
        validUntil := huntil }
  · rintro ⟨h, hfold⟩
    exact
      { h with
        provenance := { h.provenance with
          observedAt := hobserved.mpr ⟨h.provenance.observedAt, hfold.observedAt⟩ }
        createdAt := hcreated.mpr ⟨h.createdAt, hfold.createdAt⟩
        validFrom := hfrom.mpr ⟨h.validFrom, hfold.validFrom⟩
        validUntil := huntil.mpr ⟨h.validUntil, hfold.validUntil⟩ }

end Candidates

/-! ### Candidates in UTC -/

section Utc

variable [DecidableEq Z] {m : MemoryCandidate} {c : CandidateFields Z}

omit [DecidableEq Z] in
theorem inUtc_map_ofUtc (o : Option Datetime) :
    ∀ t ∈ o.map (Timestamp.ofUtc : Datetime → Timestamp Z), InUtc t := by
  intro t ht
  obtain ⟨d, -, rfl⟩ := Option.map_eq_some_iff.mp ht
  exact ⟨d, rfl⟩

omit [DecidableEq Z] in
theorem inUtc_fieldsOf (m : MemoryCandidate) :
    (fieldsOf m : CandidateFields Z).EachTimestamp InUtc :=
  ⟨⟨_, rfl⟩, ⟨_, rfl⟩, inUtc_map_ofUtc _, inUtc_map_ofUtc _⟩

/-- What equals a timestamp in UTC has a time zone. -/
theorem aware_of_eqTimestamp_ofUtc (h : EqTimestamp (Timestamp.ofUtc d) t) : t.Aware := by
  rw [EqTimestamp, Timestamp.eq] at h
  split_ifs at h with hzone
  · rw [Timestamp.Aware, Timestamp.utcoffset_of_utc hzone.symm]
    rfl
  · rw [Timestamp.utcoffset_ofUtc] at h
    rcases hoffset : t.utcoffset with _ | offset
    · rw [hoffset] at h
      cases h
    · rw [Timestamp.Aware, hoffset]
      rfl

theorem aware_of_optionRel {p : Option Datetime} {o : Option (Timestamp Z)}
    (h : optionRel EqTimestamp (p.map Timestamp.ofUtc) o) : ∀ t ∈ o, t.Aware := by
  rintro t rfl
  rcases p with _ | d
  · exact h.elim
  · exact aware_of_eqTimestamp_ofUtc h

theorem aware_of_agrees (h : (fieldsOf m).Agrees EqTimestamp c) : c.EachTimestamp Timestamp.Aware :=
  ⟨aware_of_eqTimestamp_ofUtc h.provenance.observedAt, aware_of_eqTimestamp_ofUtc h.createdAt,
    aware_of_optionRel h.validFrom, aware_of_optionRel h.validUntil⟩

omit [DecidableEq Z] in
/-- What has the instants of a candidate in UTC is ordered in time. -/
theorem ordered_of_agrees (h : (fieldsOf m).Agrees SameInstant c) : Ordered c :=
  (lt_iff_ordered (optionRel_sameInstant_ofUtc.mp h.validFrom)
    (optionRel_sameInstant_ofUtc.mp h.validUntil)).mp m.validInterval

end Utc

/-! ### Revisions -/

section Revisions

variable {r : RevisionFields Z} {observedAt createdAt : Datetime}
  {validFrom validUntil : Option Datetime}

/-- A revision with its timestamps in UTC. -/
def revisionInUtc (r : RevisionFields Z) (observedAt createdAt : Datetime)
    (validFrom validUntil : Option Datetime) : RevisionFields Z :=
  { r with
    provenance := { r.provenance with observedAt := .ofUtc observedAt }
    createdAt := .ofUtc createdAt
    validFrom := validFrom.map .ofUtc
    validUntil := validUntil.map .ofUtc }

/-- In UTC a revision passes the checks it has passed. -/
theorem valid_revisionInUtc (hr : r.Valid) :
    (revisionInUtc r observedAt createdAt validFrom validUntil).Valid :=
  { hr with provenance := ⟨hr.provenance.sourceId, hr.provenance.actorId⟩ }

/-- **A row gives back the revision with its timestamps in UTC.** -/
theorem revision_revisionRow (hr : r.Valid) (ha : r.EachTimestamp Timestamp.Aware)
    (hobserved : AtUtc observedAt r.provenance.observedAt) (hcreated : AtUtc createdAt r.createdAt)
    (hfrom : optionRel AtUtc validFrom r.validFrom)
    (huntil : optionRel AtUtc validUntil r.validUntil) :
    (revisionRow r >>= revision) =
      .ok ⟨revisionInUtc r observedAt createdAt validFrom validUntil, valid_revisionInUtc hr⟩ := by
  simp only [revisionRow, encodeDatetime_of_atUtc ha.observedAt hobserved,
    encodeDatetime_of_atUtc ha.createdAt hcreated,
    encodeOptionalDatetime_of_atUtc ha.validFrom hfrom,
    encodeOptionalDatetime_of_atUtc ha.validUntil huntil, ok_bind, pure_bind]
  simp only [revision, StrEnum.ofValue_value, memoryScope_value, provenance_value hr.provenance,
    decodeDatetime_isoformat, decodeOptionalDatetime_isoformat, ok_bind]
  exact dif_pos (valid_revisionInUtc hr)

/-- In UTC a revision is the same up to time zones. -/
theorem agrees_revisionInUtc (hobserved : AtUtc observedAt r.provenance.observedAt)
    (hcreated : AtUtc createdAt r.createdAt) (hfrom : optionRel AtUtc validFrom r.validFrom)
    (huntil : optionRel AtUtc validUntil r.validUntil) :
    (revisionInUtc r observedAt createdAt validFrom validUntil).Agrees SameInstant r where
  revisionId := rfl
  memoryId := rfl
  «namespace» := rfl
  generation := rfl
  parentRevisionId := rfl
  promotedFromCandidateId := rfl
  kind := rfl
  scope := rfl
  subject := rfl
  content := rfl
  provenance :=
    { sourceKind := rfl
      sourceId := rfl
      sourceTrust := rfl
      observedAt := sameInstant_ofUtc.mpr hobserved
      actorId := rfl
      evidenceEventIds := rfl
      consented := rfl }
  confidence := rfl
  sensitivity := rfl
  visibility := rfl
  createdAt := sameInstant_ofUtc.mpr hcreated
  validFrom := optionRel_sameInstant_ofUtc.mpr hfrom
  validUntil := optionRel_sameInstant_ofUtc.mpr huntil
  ttlSeconds := rfl
  status := rfl

/-- A revision that has a row has its timestamps in the calendar of UTC. -/
theorem representable_of_revisionRow {row : MemoryRevisionRow}
    (ha : r.EachTimestamp Timestamp.Aware) (h : revisionRow r = .ok row) :
    r.EachTimestamp Representable := by
  rw [revisionRow] at h
  obtain ⟨_, hobserved, h⟩ := except_bind_eq_ok.mp h
  obtain ⟨_, hfrom, h⟩ := except_bind_eq_ok.mp h
  obtain ⟨_, huntil, h⟩ := except_bind_eq_ok.mp h
  obtain ⟨_, hcreated, h⟩ := except_bind_eq_ok.mp h
  obtain ⟨d, hd, -⟩ := (encodeDatetime_eq_ok ha.observedAt).mp hobserved
  obtain ⟨e, he, -⟩ := (encodeDatetime_eq_ok ha.createdAt).mp hcreated
  exact
    { observedAt := representable_iff.mpr ⟨d, hd⟩
      createdAt := representable_iff.mpr ⟨e, he⟩
      validFrom := representable_of_encodeOptionalDatetime ha.validFrom hfrom
      validUntil := representable_of_encodeOptionalDatetime ha.validUntil huntil }

/-- **A revision is read back, the same up to time zones, exactly if its timestamps are in the
calendar of UTC.** -/
theorem revision_readsBack_iff (hr : r.Valid) (ha : r.EachTimestamp Timestamp.Aware) :
    (∃ row stored, revisionRow r = .ok row ∧ revision row = .ok stored ∧
        stored.Agrees SameInstant r) ↔ r.EachTimestamp Representable := by
  constructor
  · rintro ⟨row, stored, hrow, -, -⟩
    exact representable_of_revisionRow ha hrow
  · intro hrep
    obtain ⟨observedAt, hobserved⟩ := representable_iff.mp hrep.observedAt
    obtain ⟨createdAt, hcreated⟩ := representable_iff.mp hrep.createdAt
    obtain ⟨validFrom, hfrom⟩ := exists_optionRel_atUtc hrep.validFrom
    obtain ⟨validUntil, huntil⟩ := exists_optionRel_atUtc hrep.validUntil
    have hboth := revision_revisionRow hr ha hobserved hcreated hfrom huntil
    obtain ⟨row, hrow, hstored⟩ := except_bind_eq_ok.mp hboth
    exact ⟨row, _, hrow, hstored, agrees_revisionInUtc hobserved hcreated hfrom huntil⟩

end Revisions

end Eeveetuber.Storage
