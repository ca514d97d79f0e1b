import Eeveetuber.Memory.ContextBudget

/-!
# What becomes of the entries of a context

An entry waits in the queue of a tier until it is placed, and then it is selected, in
whole or in part, or dropped, or it waits again, in the next tier
(`Eeveetuber.Memory.Compilation.Places`). What holds of the entries that wait and of those
that were placed is carried through a whole compilation by
`Eeveetuber.Memory.Compilation.compileTiers_induction`. With it, **every entry is accounted for
once** (`Eeveetuber.Memory.context_accounts_for_entries`), unless an entry of the request
has the identifier of the one that stands in for the canon.
-/

namespace Eeveetuber.Memory

open Foundation

/-- The tiers after a tier. -/
def ContextTier.later : ContextTier → List ContextTier
  | .t0Canon => [.t1Hot, .t2Map]
  | .t1Hot => [.t2Map]
  | .t2Map => []

/-- An entry with the tier it comes from, in the tier it waits in. -/
abbrev Waiting := ContextTier × ContextEntry × ContextTier

namespace Compilation

variable {estimator : TokenEstimator} {budget : ContextBudget} {c c' : Compilation}
  {tier originalTier : ContextTier} {entry : ContextEntry} {tierAllowance : ℤ}
  {item : ContextEntry × ContextTier} {rest : List (ContextEntry × ContextTier)}
  {moved W W' : List Waiting}

/-! ### What placing comes to -/

/-- **What placing an entry may do**, and where the entry waits afterwards. -/
inductive Places (estimator : TokenEstimator) (tier : ContextTier) (tierAllowance : ℤ)
    (c : Compilation) (entry : ContextEntry) (originalTier : ContextTier) :
    Compilation → List Waiting → Prop
  | whole (fits : estimator.estimate entry.text ≤ c.remaining tier tierAllowance) :
    Places estimator tier tierAllowance c entry originalTier
      (c.select (compiled entry originalTier tier (estimator.estimate entry.text) entry.text)) []
  | part (retained : Text)
      (eq : retained = estimator.truncate entry.text (c.remaining tier tierAllowance))
      (exceeds : c.remaining tier tierAllowance < estimator.estimate entry.text)
      (mandatory : entry.mandatory = true) (ne_nil : retained ≠ []) :
    Places estimator tier tierAllowance c entry originalTier
      { c.select (compiled entry originalTier tier (estimator.estimate retained) retained) with
        trims := c.trims ++ [⟨entry.entryId, tier, estimator.estimate entry.text,
          estimator.estimate retained, "mandatory_entry_truncated_to_budget"⟩] } []
  | demoted (nextTier : ContextTier) (next : tier.next = some nextTier)
      (demotable : entry.demotable = true) (mandatory : entry.mandatory = false) :
    Places estimator tier tierAllowance c entry originalTier
      { c with
        queues := Function.update c.queues nextTier (c.queues nextTier ++ [(entry, originalTier)])
        demotions := c.demotions ++ [⟨entry.entryId, tier, nextTier, "tier_budget_exceeded"⟩] }
      [(nextTier, entry, originalTier)]
  | dropped (exceeds : c.remaining tier tierAllowance < estimator.estimate entry.text)
      (cannot : ¬(entry.mandatory = true ∧ 0 < c.remaining tier tierAllowance ∧
        estimator.truncate entry.text (c.remaining tier tierAllowance) ≠ [])) :
    Places estimator tier tierAllowance c entry originalTier
      { c with drops := c.drops ++ [⟨entry.entryId, tier, "total_or_tier_budget_exceeded"⟩] } []

theorem place_places (estimator : TokenEstimator) (tier : ContextTier) (tierAllowance : ℤ)
    (c : Compilation) (item : ContextEntry × ContextTier) :
    ∃ moved, Places estimator tier tierAllowance c item.1 item.2
      (place estimator tier tierAllowance c item) moved := by
  obtain ⟨entry, originalTier⟩ := item
  rcases place_cases estimator tier tierAllowance c entry originalTier with
    ⟨hfits, heq⟩ | ⟨retained, hretained, hexceeds, hmandatory, -, hne, heq⟩ |
      ⟨hexceeds, hcannot, heq⟩
  · rw [heq]
    exact ⟨_, .whole hfits⟩
  · rw [heq]
    exact ⟨_, .part retained hretained hexceeds hmandatory hne⟩
  · rw [heq, passOn]
    rcases hnext : tier.next with _ | nextTier
    · exact ⟨_, .dropped hexceeds hcannot⟩
    · dsimp only
      split_ifs with hmay
      · exact ⟨_, .demoted nextTier hnext hmay.1 hmay.2⟩
      · exact ⟨_, .dropped hexceeds hcannot⟩

/-! ### What waits -/

/-- What waits while a tier is gone through: the rest of its queue, and the later queues. -/
def waiting (c : Compilation) (tier : ContextTier) (rest : List (ContextEntry × ContextTier)) :
    List Waiting :=
  rest.map (tier, ·) ++ tier.later.flatMap fun t => (c.queues t).map (t, ·)

/-- What is passed on waits in a later tier. -/
theorem Places.waiting (h : Places estimator tier tierAllowance c entry originalTier c' moved) :
    (c'.waiting tier rest).Perm (moved ++ c.waiting tier rest) := by
  rcases h with _ | _ | ⟨nextTier, hnext, -, -⟩ | _
  · exact .rfl
  · exact .rfl
  · have hlast : ∀ (q : List (ContextEntry × ContextTier)) (xs ys : List Waiting),
        (xs ++ ((q ++ [(entry, originalTier)]).map (nextTier, ·) ++ ys)).Perm
          ((nextTier, entry, originalTier) :: (xs ++ (q.map (nextTier, ·) ++ ys))) := by
      intro q xs ys
      rw [List.map_append, List.map_singleton, List.append_assoc, ← List.append_assoc xs,
        List.singleton_append]
      refine List.perm_middle.trans ?_
      rw [List.append_assoc]
    rcases tier with _ | _ | _ <;> cases hnext
    · exact hlast _ _ _
    · simpa [Compilation.waiting, ContextTier.later] using hlast (c.queues .t2Map) (rest.map _) []
  · exact .rfl

/-- What waits before the first tier. -/
theorem waiting_start (entries : List ContextEntry) :
    ((start entries).waiting .t0Canon ((start entries).queues .t0Canon)).Perm
      (entries.map fun entry => (entry.tier, entry, entry.tier)) := by
  -- the entries of one tier, waiting in it
  let q (t : ContextTier) (es : List ContextEntry) : List Waiting :=
    (es.filter fun e => e.tier = t).map fun e => (t, e, e.tier)
  have hq : ∀ es, (start es).waiting .t0Canon ((start es).queues .t0Canon) =
      q .t0Canon es ++ (q .t1Hot es ++ q .t2Map es) := by
    intro es
    simp [q, Compilation.waiting, ContextTier.later, start, Function.comp_def]
  rw [hq]
  induction entries with
  | nil => exact .rfl
  | cons entry entries ih =>
    have hcons : ∀ t, q t (entry :: entries) =
        if entry.tier = t then (t, entry, entry.tier) :: q t entries else q t entries := by
      intro t
      by_cases ht : entry.tier = t <;> simp [q, ht]
    rw [List.map_cons, hcons, hcons, hcons]
    refine .trans ?_ (ih.cons _)
    rcases htier : entry.tier with _ | _ | _
    · exact .rfl
    · exact List.perm_middle
    · rw [← List.append_assoc, ← List.append_assoc]
      exact List.perm_middle

/-! ### Carrying an invariant through a compilation -/

section Induction

variable {I : Compilation → List Waiting → Prop}

/-- One tier: what holds of what waits, and is carried on by placing one entry. -/
theorem placeAll_induction (hperm : ∀ {c W W'}, I c W → W.Perm W' → I c W')
    (hplace : ∀ {tier tierAllowance c entry originalTier c' moved W},
      I c ((tier, entry, originalTier) :: W) →
      Places estimator tier tierAllowance c entry originalTier c' moved → I c' (moved ++ W))
    (rest : List (ContextEntry × ContextTier)) : ∀ {c : Compilation}, I c (c.waiting tier rest) →
      I (rest.foldl (place estimator tier tierAllowance) c)
        ((rest.foldl (place estimator tier tierAllowance) c).waiting tier []) := by
  induction rest with
  | nil => exact fun h => h
  | cons item rest ih =>
    intro c h
    obtain ⟨moved, hplaces⟩ := place_places estimator tier tierAllowance c item
    exact ih (hperm (hplace h hplaces) hplaces.waiting.symm)

/-- **The induction rule of a compilation**: what holds of the entries that wait at first, and
is carried on by placing one that waits, holds in the end, when none waits. -/
theorem compileTiers_induction (hperm : ∀ {c W W'}, I c W → W.Perm W' → I c W')
    (hplace : ∀ {tier tierAllowance c entry originalTier c' moved W},
      I c ((tier, entry, originalTier) :: W) →
      Places estimator tier tierAllowance c entry originalTier c' moved → I c' (moved ++ W))
    {entries : List ContextEntry}
    (hstart : I (start entries) (entries.map fun entry => (entry.tier, entry, entry.tier))) :
    I (tierOrder.foldl (compileTier estimator budget) (start entries)) [] := by
  have htier : ∀ (tier : ContextTier) (c : Compilation), I c (c.waiting tier (c.queues tier)) →
      I (compileTier estimator budget c tier)
        ((compileTier estimator budget c tier).waiting tier []) := by
    intro tier c h
    have hsorted : I c (c.waiting tier (c.sortedQueue tier)) :=
      hperm h (((List.mergeSort_perm _ _).symm.map _).append_right _)
    exact placeAll_induction (I := I) hperm hplace _ hsorted
  -- what waits after a tier is the queue of the next one, and the later queues
  exact htier .t2Map _ (hperm (htier .t1Hot _ (htier .t0Canon _
    (hperm hstart (waiting_start entries).symm)))
    (by simp [Compilation.waiting, ContextTier.later]))

end Induction

/-! ### One place for each entry -/

/-- Demotions that lead from one tier to another, a tier at a time. -/
def Leads : ContextTier → List ContextDemotion → ContextTier → Prop
  | a, [], b => a = b
  | a, d :: ds, b => d.fromTier = a ∧ a.next = some d.toTier ∧ Leads d.toTier ds b

theorem Leads.concat {d : ContextDemotion} (hnext : d.fromTier.next = some d.toTier)
    (ds : List ContextDemotion) : ∀ {a : ContextTier}, Leads a ds d.fromTier →
      Leads a (ds ++ [d]) d.toTier := by
  induction ds with
  | nil =>
    rintro a rfl
    exact ⟨rfl, hnext, rfl⟩
  | cons d' ds ih =>
    rintro a ⟨hfrom, hto, h⟩
    exact ⟨hfrom, hto, ih h⟩

theorem index_lt_next {a b : ContextTier} (h : a.next = some b) : a.index < b.index := by
  rcases a with _ | _ | _ <;> cases h <;> decide

/-- Demotions lead downwards. -/
theorem Leads.index_le (ds : List ContextDemotion) : ∀ {a b : ContextTier}, Leads a ds b →
    a.index ≤ b.index := by
  induction ds with
  | nil =>
    rintro a b rfl
    exact le_rfl
  | cons d ds ih =>
    rintro a b ⟨-, hnext, h⟩
    exact (index_lt_next hnext).le.trans (ih h)

/-- The demotions of an entry. -/
def demotionsOf (demotions : List ContextDemotion) (entryId : Text) : List ContextDemotion :=
  demotions.filter fun d => d.entryId = entryId

/-- The trims of an entry. -/
def trimsOf (trims : List ContextTrim) (entryId : Text) : List ContextTrim :=
  trims.filter fun t => t.entryId = entryId

theorem demotionsOf_concat (demotions : List ContextDemotion) (d : ContextDemotion)
    (entryId : Text) : demotionsOf (demotions ++ [d]) entryId =
      if d.entryId = entryId then demotionsOf demotions entryId ++ [d]
      else demotionsOf demotions entryId := by
  by_cases h : d.entryId = entryId <;> simp [demotionsOf, h]

theorem trimsOf_concat (trims : List ContextTrim) (t : ContextTrim) (entryId : Text) :
    trimsOf (trims ++ [t]) entryId =
      if t.entryId = entryId then trimsOf trims entryId ++ [t] else trimsOf trims entryId := by
  by_cases h : t.entryId = entryId <;> simp [trimsOf, h]

/-- How an entry came to a tier. -/
structure Came (c : Compilation) (e : ContextEntry) (tier : ContextTier) : Prop where
  leads : Leads e.tier (demotionsOf c.demotions e.entryId) tier
  untrimmed : trimsOf c.trims e.entryId = []

/-- What is said of an entry that was selected. -/
structure Rendered (estimator : TokenEstimator) (c : Compilation) (e : ContextEntry)
    (x : CompiledContextEntry) : Prop where
  eq : x = compiled e e.tier x.tier x.estimatedTokens x.text
  leads : Leads e.tier (demotionsOf c.demotions e.entryId) x.tier
  text : (x.text = e.text ∧ trimsOf c.trims e.entryId = []) ∨
    (x.text ≠ e.text ∧ x.text <+: e.text ∧ x.text ≠ [] ∧ ∃ trim,
      trimsOf c.trims e.entryId = [trim] ∧ trim.retainedTokens = estimator.estimate x.text)

/-- The identifiers of the entries that were selected, were dropped or wait. -/
def ids (c : Compilation) (W : List Waiting) : List Text :=
  c.selected.map (·.entryId) ++ (c.drops.map (·.entryId) ++ W.map (·.2.1.entryId))

/-- Where every entry is, and what was recorded on its way. -/
structure Tracked (estimator : TokenEstimator) (all : List ContextEntry) (c : Compilation)
    (W : List Waiting) : Prop where
  ids : (c.ids W).Perm (all.map (·.entryId))
  waiting : ∀ w ∈ W, w.2.1 ∈ all ∧ w.2.2 = w.2.1.tier ∧ Came c w.2.1 w.1
  selected : ∀ x ∈ c.selected, ∃ e ∈ all, Rendered estimator c e x
  dropped : ∀ d ∈ c.drops, ∃ e ∈ all, e.entryId = d.entryId ∧ Came c e d.tier

theorem ids_perm (h : W.Perm W') : (c.ids W).Perm (c.ids W') :=
  ((h.map _).append_left _).append_left _

/-- **Identifiers are neither made nor lost.** -/
theorem Places.ids (h : Places estimator tier tierAllowance c entry originalTier c' moved)
    (W : List Waiting) :
    (c'.ids (moved ++ W)).Perm (c.ids ((tier, entry, originalTier) :: W)) := by
  have hplaced : ∀ xs ys zs : List Text, ((xs ++ [entry.entryId]) ++ (ys ++ zs)).Perm
      (xs ++ (ys ++ entry.entryId :: zs)) := by
    intro xs ys zs
    rw [List.append_assoc, List.singleton_append]
    exact List.perm_middle.symm.append_left xs
  rcases h with _ | _ | _ | _
  · simpa [Compilation.ids, Compilation.select, compiled] using hplaced _ _ _
  · simpa [Compilation.ids, Compilation.select, compiled] using hplaced _ _ _
  · exact .rfl
  · simp [Compilation.ids]

/-- What was recorded of an identifier is as it was. -/
structure Untouched (c c' : Compilation) (entryId : Text) : Prop where
  demotions : demotionsOf c'.demotions entryId = demotionsOf c.demotions entryId
  trims : trimsOf c'.trims entryId = trimsOf c.trims entryId

theorem Places.untouched (h : Places estimator tier tierAllowance c entry originalTier c' moved)
    {entryId : Text} (hne : entryId ≠ entry.entryId) : Untouched c c' entryId := by
  rcases h with _ | _ | _ | _
  · exact ⟨rfl, rfl⟩
  · exact ⟨rfl, (trimsOf_concat _ _ _).trans (if_neg hne.symm)⟩
  · exact ⟨(demotionsOf_concat _ _ _).trans (if_neg hne.symm), rfl⟩
  · exact ⟨rfl, rfl⟩

theorem Came.of_untouched {e : ContextEntry} (h : Came c e tier)
    (hsame : Untouched c c' e.entryId) : Came c' e tier := by
  refine ⟨?_, hsame.trims.trans h.untrimmed⟩
  rw [hsame.demotions]
  exact h.leads

theorem Rendered.of_untouched {e : ContextEntry} {x : CompiledContextEntry}
    (h : Rendered estimator c e x) (hsame : Untouched c c' e.entryId) :
    Rendered estimator c' e x := by
  refine ⟨h.eq, ?_, ?_⟩
  · rw [hsame.demotions]
    exact h.leads
  · rw [hsame.trims]
    exact h.text

theorem Rendered.entryId_eq {e : ContextEntry} {x : CompiledContextEntry}
    (h : Rendered estimator c e x) : e.entryId = x.entryId := by
  rw [h.eq]
  rfl

/-- **Placing an entry keeps track of all.** The entry that is placed is the only one of its
identifier, so nothing is recorded of the others. -/
theorem Tracked.place (hbounded : estimator.Bounded) (hcutting : estimator.Cutting)
    {all : List ContextEntry} (hnodup : (all.map (·.entryId)).Nodup)
    (h : Tracked estimator all c ((tier, entry, originalTier) :: W))
    (hplaces : Places estimator tier tierAllowance c entry originalTier c' moved) :
    Tracked estimator all c' (moved ++ W) := by
  obtain ⟨hmem, horiginal, hcame⟩ := h.waiting _ List.mem_cons_self
  dsimp only at hmem horiginal hcame
  subst horiginal
  -- the other identifiers
  have hothers : entry.entryId ∉ c.selected.map (·.entryId) ++
      (c.drops.map (·.entryId) ++ W.map (·.2.1.entryId)) := by
    have hperm : (entry.entryId :: (c.selected.map (·.entryId) ++
        (c.drops.map (·.entryId) ++ W.map (·.2.1.entryId)))).Perm (all.map (·.entryId)) := by
      refine .trans ?_ h.ids
      rw [Compilation.ids, List.map_cons, ← List.append_assoc, ← List.append_assoc]
      exact List.perm_middle.symm
    exact (List.nodup_cons.mp (hperm.nodup_iff.mpr hnodup)).1
  simp only [List.mem_append, not_or] at hothers
  obtain ⟨hnotSelected, hnotDropped, hnotWaiting⟩ := hothers
  have hW : ∀ w ∈ W, w.2.1 ∈ all ∧ w.2.2 = w.2.1.tier ∧ Came c' w.2.1 w.1 := by
    intro w hw
    obtain ⟨hwmem, hworiginal, hwcame⟩ := h.waiting w (List.mem_cons_of_mem _ hw)
    refine ⟨hwmem, hworiginal, hwcame.of_untouched (hplaces.untouched fun heq => hnotWaiting ?_)⟩
    exact heq ▸ List.mem_map_of_mem hw
  have hselected : ∀ x ∈ c.selected, ∃ e ∈ all, Rendered estimator c' e x := by
    intro x hx
    obtain ⟨e, he, hrendered⟩ := h.selected x hx
    refine ⟨e, he, hrendered.of_untouched (hplaces.untouched fun heq => hnotSelected ?_)⟩
    rw [← heq, hrendered.entryId_eq]
    exact List.mem_map_of_mem hx
  have hdropped : ∀ d ∈ c.drops, ∃ e ∈ all, e.entryId = d.entryId ∧ Came c' e d.tier := by
    intro d hd
    obtain ⟨e, he, hid, hdcame⟩ := h.dropped d hd
    refine ⟨e, he, hid, hdcame.of_untouched (hplaces.untouched fun heq => hnotDropped ?_)⟩
    rw [← heq, hid]
    exact List.mem_map_of_mem hd
  refine ⟨(hplaces.ids W).trans h.ids, ?_, ?_, ?_⟩
  · intro w hw
    rcases List.mem_append.mp hw with hw | hw
    · rcases hplaces with _ | _ | ⟨nextTier, hnext, -, -⟩ | _
      · contradiction
      · contradiction
      · obtain rfl := List.mem_singleton.mp hw
        refine ⟨hmem, rfl, ?_, hcame.untrimmed⟩
        have hconcat := demotionsOf_concat c.demotions
          ⟨entry.entryId, tier, nextTier, "tier_budget_exceeded"⟩ entry.entryId
        rw [if_pos rfl] at hconcat
        rw [hconcat]
        exact Leads.concat hnext _ hcame.leads
      · contradiction
    · exact hW w hw
  · intro x hx
    rcases hplaces with _ | ⟨retained, hretained, hexceeds, -, hne⟩ | _ | _
    · rcases List.mem_append.mp hx with hx | hx
      · exact hselected x hx
      · obtain rfl := List.mem_singleton.mp hx
        exact ⟨entry, hmem, rfl, hcame.leads, Or.inl ⟨rfl, hcame.untrimmed⟩⟩
    · rcases List.mem_append.mp hx with hx | hx
      · exact hselected x hx
      · obtain rfl := List.mem_singleton.mp hx
        -- what is retained has fewer tokens than the text
        have hlt : estimator.estimate retained < estimator.estimate entry.text :=
          (hretained ▸ hbounded _ _).trans_lt hexceeds
        refine ⟨entry, hmem, rfl, hcame.leads, Or.inr ⟨?_, hretained ▸ hcutting _ _, hne,
          ⟨entry.entryId, tier, estimator.estimate entry.text, estimator.estimate retained,
            "mandatory_entry_truncated_to_budget"⟩, ?_, rfl⟩⟩
        · rintro rfl
          exact lt_irrefl _ hlt
        · rw [trimsOf_concat, if_pos rfl, hcame.untrimmed]
          rfl
    · exact hselected x hx
    · exact hselected x hx
  · intro d hd
    rcases hplaces with _ | _ | _ | _
    · exact hdropped d hd
    · exact hdropped d hd
    · exact hdropped d hd
    · rcases List.mem_append.mp hd with hd | hd
      · exact hdropped d hd
      · obtain rfl := List.mem_singleton.mp hd
        exact ⟨entry, hmem, rfl, hcame.leads, hcame.untrimmed⟩

theorem ids_start (all : List ContextEntry) :
    ((start all).ids (all.map fun entry => (entry.tier, entry, entry.tier))).Perm
      (all.map (·.entryId)) := by
  simp [Compilation.ids, start, Function.comp_def]

/-- Before the first tier nothing is recorded. -/
theorem tracked_start (all : List ContextEntry) :
    Tracked estimator all (start all) (all.map fun entry => (entry.tier, entry, entry.tier)) := by
  refine ⟨ids_start all, fun w hw => ?_, nofun, nofun⟩
  obtain ⟨entry, hentry, rfl⟩ := List.mem_map.mp hw
  exact ⟨hentry, rfl, rfl, rfl⟩

/-- **All entries are tracked through a compilation.** -/
theorem tracked_compileTiers (hbounded : estimator.Bounded) (hcutting : estimator.Cutting)
    {all : List ContextEntry} (hnodup : (all.map (·.entryId)).Nodup) :
    Tracked estimator all (tierOrder.foldl (compileTier estimator budget) (start all)) [] := by
  refine compileTiers_induction (I := Tracked estimator all) ?_ ?_ (tracked_start all)
  · intro c W W' h hperm
    exact ⟨(ids_perm hperm).symm.trans h.ids, fun w hw => h.waiting w (hperm.mem_iff.mpr hw),
      h.selected, h.dropped⟩
  · intro tier tierAllowance c entry originalTier c' moved W h hplaces
    exact h.place hbounded hcutting hnodup hplaces

/-- Identifiers are conserved, though some of them be the same. -/
theorem ids_compileTiers (all : List ContextEntry) :
    ((tierOrder.foldl (compileTier estimator budget) (start all)).ids []).Perm
      (all.map (·.entryId)) := by
  refine compileTiers_induction (I := fun c W => (c.ids W).Perm (all.map (·.entryId))) ?_ ?_
    (ids_start all)
  · intro c W W' h hperm
    exact (ids_perm hperm).symm.trans h
  · intro tier tierAllowance c entry originalTier c' moved W h hplaces
    exact (hplaces.ids W).trans h

end Compilation

/-! ### The snapshot -/

/-- The identifier of the entry that stands in for the canon. -/
def fallbackId : Text := "__minimal_canon__".toList

namespace ContextCompileRequest

variable (request : ContextCompileRequest)

/-- Where an entry of the identifier of the canon's stand-in is compiled beside it. -/
def CollidesWithFallback : Prop :=
  request.usesFallback = true ∧ fallbackId ∈ request.entries.map (·.entryId)

theorem allEntries_ids : request.allEntries.map (·.entryId) =
    request.entries.map (·.entryId) ++ if request.usesFallback then [fallbackId] else [] := by
  rw [allEntries]
  split_ifs
  · rw [List.map_append]
    rfl
  · rw [List.append_nil]

theorem nodup_allEntries_ids :
    (request.allEntries.map (·.entryId)).Nodup ↔ ¬request.CollidesWithFallback := by
  rw [allEntries_ids, CollidesWithFallback]
  split_ifs with h
  · rw [List.perm_append_comm.nodup_iff, List.singleton_append, List.nodup_cons]
    simp [request.uniqueEntries, h]
  · simp [request.uniqueEntries, h]

end ContextCompileRequest

/-- **Every entry of a request is accounted for once** in a snapshot. -/
structure EntriesAccounted (request : ContextCompileRequest) (snapshot : ContextSnapshot) :
    Prop where
  distinct : (snapshot.entries.map (·.entryId) ++ snapshot.drops.map (·.entryId)).Nodup
  exact : ∀ entryId,
    entryId ∈ snapshot.entries.map (·.entryId) ++ snapshot.drops.map (·.entryId) ↔
      entryId ∈ request.entries.map (·.entryId) ∨
        snapshot.usedMinimalFallback = true ∧ entryId = fallbackId
  /-- The demotions of what was rendered lead from its own tier to the one it is in. -/
  rendered : ∀ x ∈ snapshot.entries, ∃ e ∈ request.allEntries, e.entryId = x.entryId ∧
    x.originalTier = e.tier ∧ e.tier.index ≤ x.tier.index ∧
    Compilation.Leads e.tier (Compilation.demotionsOf snapshot.demotions e.entryId) x.tier ∧
    x.text <+: e.text ∧
    (x.text ≠ e.text ↔ ∃ trim, Compilation.trimsOf snapshot.trims e.entryId = [trim])
  /-- The demotions of what was dropped lead from its own tier to the one it was dropped in. -/
  dropped : ∀ d ∈ snapshot.drops, ∃ e ∈ request.allEntries, e.entryId = d.entryId ∧
    Compilation.Leads e.tier (Compilation.demotionsOf snapshot.demotions e.entryId) d.tier

namespace Compilation

variable {estimator : TokenEstimator} {c : Compilation} {e : ContextEntry}
  {x : CompiledContextEntry}

theorem Rendered.isPrefix (h : Rendered estimator c e x) : x.text <+: e.text := by
  rcases h.text with ⟨heq, -⟩ | ⟨-, hcut, -⟩
  · exact ⟨[], by rw [List.append_nil, heq]⟩
  · exact hcut

theorem Rendered.ne_iff (h : Rendered estimator c e x) :
    x.text ≠ e.text ↔ ∃ trim, trimsOf c.trims e.entryId = [trim] := by
  rcases h.text with ⟨heq, hnone⟩ | ⟨hne, -, -, trim, htrim, -⟩
  · simp [heq, hnone]
  · exact ⟨fun _ => ⟨trim, htrim⟩, fun _ => hne⟩

end Compilation

/-- A snapshot has the identifiers of the entries that were compiled. -/
theorem snapshot_ids (request : ContextCompileRequest) :
    ((ContextCompiler.compile {} request).entries.map (·.entryId) ++
      (ContextCompiler.compile {} request).drops.map (·.entryId)).Perm
        (request.allEntries.map (·.entryId)) := by
  refine (((List.mergeSort_perm _ _).map _).append_right _).trans ?_
  have h : ((ContextCompiler.compileTiers {} request).ids []).Perm
      (request.allEntries.map (·.entryId)) := Compilation.ids_compileTiers _
  rwa [Compilation.ids, List.map_nil, List.append_nil] at h

/-- **When every entry is accounted for once**: unless the request has an entry of the
identifier of the canon's stand-in, and needs the stand-in. -/
theorem context_accounts_for_entries (request : ContextCompileRequest) :
    EntriesAccounted request (ContextCompiler.compile {} request) ↔
      ¬request.CollidesWithFallback := by
  let c := ContextCompiler.compileTiers {} request
  have hentries : (ContextCompiler.compile {} request).entries.Perm c.selected :=
    List.mergeSort_perm _ _
  have hids := snapshot_ids request
  rw [← request.nodup_allEntries_ids]
  refine ⟨fun h => hids.nodup_iff.mp h.distinct, fun hnodup => ?_⟩
  have htracked : Compilation.Tracked Utf8HeuristicTokenEstimator request.allEntries c [] :=
    Compilation.tracked_compileTiers Utf8HeuristicTokenEstimator.bounded
      Utf8HeuristicTokenEstimator.cutting hnodup
  refine ⟨hids.nodup_iff.mpr hnodup, ?_, ?_, ?_⟩
  · intro entryId
    rw [hids.mem_iff, request.allEntries_ids, List.mem_append]
    refine or_congr_right ?_
    change _ ↔ request.usesFallback = true ∧ _
    split_ifs with h <;> simp [h]
  · intro x hx
    obtain ⟨e, he, hrendered⟩ := htracked.selected x (hentries.mem_iff.mp hx)
    refine ⟨e, he, hrendered.entryId_eq, ?_, hrendered.leads.index_le, hrendered.leads,
      hrendered.isPrefix, hrendered.ne_iff⟩
    rw [hrendered.eq]
    rfl
  · intro d hd
    obtain ⟨e, he, hid, hcame⟩ := htracked.dropped d hd
    exact ⟨e, he, hid, hcame.leads⟩

/-- A note of the identifier of the canon's stand-in. -/
def forgedNote : ContextEntry where
  entryId := fallbackId
  tier := .t1Hot
  contextClass := .sessionState
  text := "note".toList
  sourceRevisionId_le := ContextEntry.noRevision_le
  sourceMemoryId_le := ContextEntry.noRevision_le

/-- A request without a canon, with the note. -/
def forgedFallback : ContextCompileRequest :=
  { bareRequest with entries := [forgedNote], uniqueEntries := by decide }

/-- The note and the stand-in for the canon have one identifier in the snapshot. -/
theorem forgedFallback_not_accounted :
    ¬EntriesAccounted forgedFallback (ContextCompiler.compile {} forgedFallback) := by
  intro h
  have hnodup := (snapshot_ids forgedFallback).nodup_iff.mp h.distinct
  exact absurd hnodup (by decide)

end Eeveetuber.Memory
