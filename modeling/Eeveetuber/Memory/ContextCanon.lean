import Eeveetuber.Foundation.SortByKey
import Eeveetuber.Memory.ContextBudget

/-!
# The canon of a context

A context is meant to have its canon at all times: a request without a mandatory entry
in the first tier is given one. **It has it exactly when some mandatory entry of the first tier
shows something in the budget** (`Eeveetuber.Memory.canon_present_iff`): the first of them
that shows something is selected, since mandatory entries come first and the ones
before it use nothing. A text that is white space for as long as the budget goes shows nothing,
is cut down to nothing, and is dropped.
-/

namespace Eeveetuber.Memory

open Foundation Utf8HeuristicTokenEstimator

/-- With the default estimator: what can be selected, in whole or in part. -/
theorem estimate_le_or_truncate_ne_nil {text : Text} {n : ℕ} :
    estimate text ≤ n ∨ truncate text n ≠ [] ↔ Shows n text := by
  by_cases h : estimate text ≤ n
  · exact iff_of_true (Or.inl h) (Or.inl (estimate_le_iff.mp h))
  · rw [or_iff_right h, truncate_ne_nil_iff (not_le.mp h)]

namespace Compilation

variable {c : Compilation} {tier : ContextTier} {tierAllowance : ℤ}
  {item : ContextEntry × ContextTier} {x : CompiledContextEntry}

/-! ### What is selected of an entry -/

/-- An entry of a snapshot shows an entry of the request in a tier. -/
structure Showing (x : CompiledContextEntry) (entry : ContextEntry) (tier : ContextTier) :
    Prop where
  entryId : entry.entryId = x.entryId
  tier : x.tier = tier
  mandatory : x.mandatory = entry.mandatory
  text_ne_nil : x.text ≠ []
  text : x.text <+: entry.text

theorem remaining_le (c : Compilation) (tier : ContextTier) (tierAllowance : ℤ) :
    c.remaining tier tierAllowance ≤ tierAllowance.toNat :=
  Int.toNat_le_toNat (by omega)

/-- What is selected stays. -/
theorem selected_subset_place (tier : ContextTier) (tierAllowance : ℤ) (c : Compilation)
    (item : ContextEntry × ContextTier) :
    c.selected ⊆ (place Utf8HeuristicTokenEstimator tier tierAllowance c item).selected := by
  rcases place_cases Utf8HeuristicTokenEstimator tier tierAllowance c item.1 item.2 with
    ⟨-, heq⟩ | ⟨_, -, -, -, -, -, heq⟩ | ⟨-, -, heq⟩
  · rw [heq]
    exact List.subset_append_left _ _
  · rw [heq]
    exact List.subset_append_left _ _
  · rw [heq, (sameUse_passOn c tier item.1 item.2).selected]
    exact List.Subset.refl _

/-- **What an entry adds to what is selected** shows it, in what remains of the allowance. -/
theorem mem_selected_place
    (h : x ∈ (place Utf8HeuristicTokenEstimator tier tierAllowance c item).selected) :
    x ∈ c.selected ∨
      Showing x item.1 tier ∧ Shows (c.remaining tier tierAllowance) item.1.text := by
  rcases place_cases Utf8HeuristicTokenEstimator tier tierAllowance c item.1 item.2 with
    ⟨hfits, heq⟩ | ⟨retained, rfl, -, -, -, hne, heq⟩ | ⟨-, -, heq⟩
  · rw [heq] at h
    rcases List.mem_append.mp h with h | h
    · exact Or.inl h
    · obtain rfl := List.mem_singleton.mp h
      exact Or.inr ⟨⟨rfl, rfl, rfl, item.1.text_ne_nil, List.prefix_rfl⟩,
        estimate_le_or_truncate_ne_nil.mp (Or.inl hfits)⟩
  · rw [heq] at h
    rcases List.mem_append.mp h with h | h
    · exact Or.inl h
    · obtain rfl := List.mem_singleton.mp h
      exact Or.inr ⟨⟨rfl, rfl, rfl, hne, truncate_isPrefix _ _⟩,
        estimate_le_or_truncate_ne_nil.mp (Or.inr hne)⟩
  · rw [heq, (sameUse_passOn c tier item.1 item.2).selected] at h
    exact Or.inl h

/-- **A mandatory entry that shows something in what remains is selected.** -/
theorem exists_selected_place (hmandatory : item.1.mandatory = true)
    (hshows : Shows (c.remaining tier tierAllowance) item.1.text) :
    ∃ x ∈ (place Utf8HeuristicTokenEstimator tier tierAllowance c item).selected,
      Showing x item.1 tier := by
  rcases place_cases Utf8HeuristicTokenEstimator tier tierAllowance c item.1 item.2 with
    ⟨-, heq⟩ | ⟨retained, rfl, -, -, -, hne, heq⟩ | ⟨hexceeds, hcannot, -⟩
  · rw [heq]
    exact ⟨_, List.mem_append_right _ (List.mem_singleton_self _), rfl, rfl, rfl,
      item.1.text_ne_nil, List.prefix_rfl⟩
  · rw [heq]
    exact ⟨_, List.mem_append_right _ (List.mem_singleton_self _), rfl, rfl, rfl, hne,
      truncate_isPrefix _ _⟩
  · have hne := (truncate_ne_nil_iff hexceeds).mpr hshows
    refine absurd ⟨hmandatory, Nat.pos_of_ne_zero fun hzero => hne ?_, hne⟩ hcannot
    rw [hzero]
    rfl

/-- An entry that shows nothing in what remains uses nothing. -/
theorem sameUse_place (hshows : ¬Shows (c.remaining tier tierAllowance) item.1.text) :
    SameUse c (place Utf8HeuristicTokenEstimator tier tierAllowance c item) := by
  rw [← estimate_le_or_truncate_ne_nil, not_or] at hshows
  rcases place_cases Utf8HeuristicTokenEstimator tier tierAllowance c item.1 item.2 with
    ⟨hfits, -⟩ | ⟨retained, rfl, -, -, -, hne, -⟩ | ⟨-, -, heq⟩
  · exact absurd hfits hshows.1
  · exact absurd hne hshows.2
  · exact heq ▸ sameUse_passOn c tier item.1 item.2

/-! ### A queue -/

theorem selected_subset_placeAll (items : List (ContextEntry × ContextTier)) :
    ∀ c : Compilation, c.selected ⊆
      (items.foldl (place Utf8HeuristicTokenEstimator tier tierAllowance) c).selected := by
  induction items with
  | nil => exact fun _ => List.Subset.refl _
  | cons item items ih =>
    exact fun c x hx => ih _ (selected_subset_place tier tierAllowance c item hx)

/-- What a queue adds shows one of its entries, in the allowance of the tier. -/
theorem mem_selected_placeAll (items : List (ContextEntry × ContextTier)) :
    ∀ {c : Compilation},
      x ∈ (items.foldl (place Utf8HeuristicTokenEstimator tier tierAllowance) c).selected →
      x ∈ c.selected ∨
        ∃ item ∈ items, Showing x item.1 tier ∧ Shows tierAllowance.toNat item.1.text := by
  induction items with
  | nil => exact fun h => Or.inl h
  | cons item items ih =>
    intro c h
    rcases ih h with h | ⟨item', hmem, hshowing⟩
    · refine (mem_selected_place h).imp_right fun ⟨hshowing, hshows⟩ => ?_
      exact ⟨item, List.mem_cons_self, hshowing, hshows.mono (remaining_le c tier tierAllowance)⟩
    · exact Or.inr ⟨item', List.mem_cons_of_mem _ hmem, hshowing⟩

/-- What comes before a mandatory entry is mandatory. -/
theorem mandatory_of_key_le {a b : ContextEntry} (h : entrySortKey a ≤ entrySortKey b)
    (hb : b.mandatory = true) : a.mandatory = true := by
  by_contra ha
  rw [entrySortKey, entrySortKey, if_neg ha, if_pos hb, Prod.Lex.toLex_le_toLex] at h
  simp at h

/-- **The first mandatory entry that shows something in the allowance is selected**, when the
tier has used nothing. -/
theorem exists_selected_placeAll (items : List (ContextEntry × ContextTier)) :
    ∀ {c : Compilation}, items.Pairwise (fun a b => entrySortKey a.1 ≤ entrySortKey b.1) →
      c.usedByTier tier = 0 →
      (∃ item ∈ items, item.1.mandatory = true ∧ Shows tierAllowance.toNat item.1.text) →
      ∃ x ∈ (items.foldl (place Utf8HeuristicTokenEstimator tier tierAllowance) c).selected,
        ∃ item ∈ items, item.1.mandatory = true ∧ Showing x item.1 tier := by
  induction items with
  | nil =>
    rintro c - - ⟨item, hitem, -⟩
    contradiction
  | cons head items ih =>
    rintro c hsorted hunused ⟨item, hitem, hmandatory, hshows⟩
    obtain ⟨hhead, hsorted⟩ := List.pairwise_cons.mp hsorted
    have hremaining : c.remaining tier tierAllowance = tierAllowance.toNat := by
      simp [remaining, hunused]
    have hheadMandatory : head.1.mandatory = true := by
      rcases List.mem_cons.mp hitem with rfl | hitem
      · exact hmandatory
      · exact mandatory_of_key_le (hhead item hitem) hmandatory
    by_cases hheadShows : Shows tierAllowance.toNat head.1.text
    · obtain ⟨x, hx, hshowing⟩ := exists_selected_place hheadMandatory (hremaining ▸ hheadShows)
      exact ⟨x, selected_subset_placeAll items _ hx, head, List.mem_cons_self, hheadMandatory,
        hshowing⟩
    · have hsame := sameUse_place (hremaining.symm ▸ hheadShows)
      have hmem : item ∈ items := by
        refine (List.mem_cons.mp hitem).resolve_left ?_
        rintro rfl
        exact hheadShows hshows
      obtain ⟨x, hx, item', hitem', hshowing⟩ := ih hsorted
        ((congrFun hsame.usedByTier tier).trans hunused) ⟨item, hmem, hmandatory, hshows⟩
      exact ⟨x, hx, item', List.mem_cons_of_mem _ hitem', hshowing⟩

end Compilation

/-! ### The snapshot -/

open Compilation

/-- What a canon may use. -/
def ContextBudget.canonTokens (budget : ContextBudget) : ℕ := min budget.t0Tokens budget.totalTokens

/-- A snapshot shows a mandatory entry of the first tier, in that tier. -/
def CanonPresent (request : ContextCompileRequest) (snapshot : ContextSnapshot) : Prop :=
  ∃ x ∈ snapshot.entries, ∃ e ∈ request.allEntries,
    e.tier = .t0Canon ∧ e.mandatory = true ∧ Showing x e .t0Canon

/-- What the first tier goes through, and what it may use. -/
theorem mem_sortedQueue_start (request : ContextCompileRequest)
    (item : ContextEntry × ContextTier) :
    item ∈ (Compilation.start request.allEntries).sortedQueue .t0Canon ↔
      ∃ e ∈ request.allEntries, e.tier = .t0Canon ∧ (e, e.tier) = item := by
  rw [sortedQueue, (List.mergeSort_perm _ _).mem_iff]
  simp [Compilation.start, and_assoc]

theorem allowance_start (request : ContextCompileRequest) :
    ((Compilation.start request.allEntries).allowance request.budget .t0Canon).toNat =
      request.budget.canonTokens := by
  simp only [allowance, Compilation.start, ContextBudget.configured, ContextBudget.canonTokens]
  omega

/-- A canon that is present shows something in the budget. -/
theorem CanonPresent.shows {request : ContextCompileRequest}
    (h : CanonPresent request (ContextCompiler.compile {} request)) :
    ∃ e ∈ request.allEntries, e.tier = .t0Canon ∧ e.mandatory = true ∧
      Shows request.budget.canonTokens e.text := by
  obtain ⟨x, hx, e, -, -, hmandatory, hshowing⟩ := h
  -- the other tiers add nothing to this one
  have hlater : ∀ {tier : ContextTier} {c : Compilation}, tier ≠ .t0Canon →
      x ∈ (compileTier Utf8HeuristicTokenEstimator request.budget c tier).selected →
      x ∈ c.selected := by
    intro tier c htier h
    refine (mem_selected_placeAll _ h).resolve_right ?_
    rintro ⟨item, -, hother, -⟩
    exact htier (hother.tier.symm.trans hshowing.tier)
  have hx₀ := hlater (by decide) (hlater (by decide) ((List.mergeSort_perm _ _).mem_iff.mp hx))
  rcases mem_selected_placeAll _ hx₀ with h | ⟨item, hitem, hshows, htext⟩
  · contradiction
  · obtain ⟨e', he', htier', rfl⟩ := (mem_sortedQueue_start request item).mp hitem
    refine ⟨e', he', htier', ?_, allowance_start request ▸ htext⟩
    rw [← hshows.mandatory, hshowing.mandatory, hmandatory]

/-- A canon that shows something in the budget is present. -/
theorem canonPresent_of_shows {request : ContextCompileRequest} {e : ContextEntry}
    (he : e ∈ request.allEntries) (htier : e.tier = .t0Canon) (hmandatory : e.mandatory = true)
    (hshows : Shows request.budget.canonTokens e.text) :
    CanonPresent request (ContextCompiler.compile {} request) := by
  let c₀ := Compilation.start request.allEntries
  have hunused : c₀.usedByTier .t0Canon = 0 := rfl
  have hsorted : (c₀.sortedQueue .t0Canon).Pairwise
      fun a b => entrySortKey a.1 ≤ entrySortKey b.1 :=
    pairwise_mergeSort_key (fun item : ContextEntry × ContextTier => entrySortKey item.1) _
  obtain ⟨x, hx, item, hitem, hmandatory', hshowing⟩ := exists_selected_placeAll _ hsorted hunused
    ⟨_, (mem_sortedQueue_start request _).mpr ⟨e, he, htier, rfl⟩, hmandatory,
      (allowance_start request).symm ▸ hshows⟩
  obtain ⟨e', he', htier', rfl⟩ := (mem_sortedQueue_start request item).mp hitem
  refine ⟨x, (List.mergeSort_perm _ _).mem_iff.mpr ?_, e', he', htier', hmandatory', hshowing⟩
  exact selected_subset_placeAll _ _ (selected_subset_placeAll _ _ hx)

/-- **When the canon is present.** -/
theorem canon_present_iff (request : ContextCompileRequest) :
    CanonPresent request (ContextCompiler.compile {} request) ↔
      ∃ e ∈ request.allEntries, e.tier = .t0Canon ∧ e.mandatory = true ∧
        Shows request.budget.canonTokens e.text :=
  ⟨CanonPresent.shows, fun ⟨_, he, htier, hmandatory, hshows⟩ =>
    canonPresent_of_shows he htier hmandatory hshows⟩

/-- A minimal canon that begins with more white space than the budget has bytes. -/
def blankCanon : ContextCompileRequest :=
  { bareRequest with
    budget := { bareRequest.budget with t0Tokens := 1, t0_pos := Nat.zero_lt_one }
    minimalCanon := "     kind".toList
    minimalCanon_ne_nil := by decide }

/-- It is dropped. -/
theorem blankCanon_dropped : ¬CanonPresent blankCanon (ContextCompiler.compile {} blankCanon) := by
  intro h
  obtain ⟨e, he, -, -, hshows⟩ := h.shows
  obtain rfl := List.mem_singleton.mp he
  exact (truncate_ne_nil_iff (by decide +kernel)).mpr hshows (by decide +kernel)

end Eeveetuber.Memory
