import Mathlib.Data.List.Perm.Basic
import Eeveetuber.Memory.Context

/-!
# The budget of a context

Whatever the entries, **a context stays within its budgets**:
`Eeveetuber.Memory.context_within_budget`. An entry is only ever selected when what it uses is what
remains of the allowance of its tier (`Eeveetuber.Memory.Compilation.place_cases`), and the
allowance is no more than what remains of the whole (`Eeveetuber.Memory.Compilation.Room`).
-/

namespace Eeveetuber.Memory

open Foundation

namespace Compilation

variable {estimator : TokenEstimator} {budget : ContextBudget} {c : Compilation}
  {tier originalTier : ContextTier} {entry : ContextEntry} {tierAllowance : ℤ}

/-! ### What placing an entry does -/

/-- What remains of an allowance. -/
def remaining (c : Compilation) (tier : ContextTier) (tierAllowance : ℤ) : ℕ :=
  (tierAllowance - c.usedByTier tier).toNat

/-- **What placing an entry does**: it is selected whole, selected in part, or passed on. -/
theorem place_cases (estimator : TokenEstimator) (tier : ContextTier) (tierAllowance : ℤ)
    (c : Compilation) (entry : ContextEntry) (originalTier : ContextTier) :
    (estimator.estimate entry.text ≤ c.remaining tier tierAllowance ∧
      place estimator tier tierAllowance c (entry, originalTier) =
        c.select (compiled entry originalTier tier (estimator.estimate entry.text) entry.text)) ∨
    (∃ retained, retained = estimator.truncate entry.text (c.remaining tier tierAllowance) ∧
      c.remaining tier tierAllowance < estimator.estimate entry.text ∧
      entry.mandatory = true ∧ 0 < c.remaining tier tierAllowance ∧ retained ≠ [] ∧
      place estimator tier tierAllowance c (entry, originalTier) =
        { c.select (compiled entry originalTier tier (estimator.estimate retained) retained) with
          trims := c.trims ++ [⟨entry.entryId, tier, estimator.estimate entry.text,
            estimator.estimate retained, "mandatory_entry_truncated_to_budget"⟩] }) ∨
    (c.remaining tier tierAllowance < estimator.estimate entry.text ∧
      ¬(entry.mandatory = true ∧ 0 < c.remaining tier tierAllowance ∧
        estimator.truncate entry.text (c.remaining tier tierAllowance) ≠ []) ∧
      place estimator tier tierAllowance c (entry, originalTier) =
        c.passOn tier entry originalTier) := by
  by_cases hfits : estimator.estimate entry.text ≤ c.remaining tier tierAllowance
  · exact Or.inl ⟨hfits, if_pos hfits⟩
  · by_cases hpart : entry.mandatory = true ∧ 0 < c.remaining tier tierAllowance ∧
        estimator.truncate entry.text (c.remaining tier tierAllowance) ≠ []
    · exact Or.inr (Or.inl ⟨_, rfl, not_le.mp hfits, hpart.1, hpart.2.1, hpart.2.2,
        (if_neg hfits).trans (if_pos hpart)⟩)
    · exact Or.inr (Or.inr ⟨not_le.mp hfits, hpart, (if_neg hfits).trans (if_neg hpart)⟩)

/-- Two compilations that use the same. -/
structure SameUse (c c' : Compilation) : Prop where
  selected : c'.selected = c.selected
  usedByTier : c'.usedByTier = c.usedByTier
  totalUsed : c'.totalUsed = c.totalUsed

/-- What is passed on uses nothing. -/
theorem sameUse_passOn (c : Compilation) (tier : ContextTier) (entry : ContextEntry)
    (originalTier : ContextTier) : SameUse c (c.passOn tier entry originalTier) := by
  unfold passOn
  dsimp only
  split
  · split <;> exact ⟨rfl, rfl, rfl⟩
  · exact ⟨rfl, rfl, rfl⟩

/-! ### The invariant -/

/-- The tokens that the entries of a tier were estimated at. -/
def tokensOf (entries : List CompiledContextEntry) (tier : ContextTier) : ℕ :=
  ((entries.filter fun e => e.tier = tier).map (·.estimatedTokens)).sum

/-- What is used is what was selected, and within the budgets. -/
structure Within (estimator : TokenEstimator) (budget : ContextBudget) (c : Compilation) :
    Prop where
  tier_le : ∀ tier, c.usedByTier tier ≤ budget.configured tier
  total : c.totalUsed = c.usedByTier .t0Canon + c.usedByTier .t1Hot + c.usedByTier .t2Map
  total_le : c.totalUsed ≤ budget.totalTokens
  accounted : ∀ tier, tokensOf c.selected tier = c.usedByTier tier
  estimated : ∀ e ∈ c.selected, e.estimatedTokens = estimator.estimate e.text

theorem within_start (entries : List ContextEntry) : Within estimator budget (start entries) :=
  ⟨fun _ => Nat.zero_le _, rfl, Nat.zero_le _, fun _ => rfl, nofun⟩

theorem Within.of_sameUse {c' : Compilation} (h : Within estimator budget c)
    (hsame : SameUse c c') : Within estimator budget c' := by
  obtain ⟨hselected, hused, htotal⟩ := hsame
  refine ⟨?_, ?_, ?_, ?_, ?_⟩
  · rw [hused]
    exact h.tier_le
  · rw [htotal, hused]
    exact h.total
  · rw [htotal]
    exact h.total_le
  · rw [hselected, hused]
    exact h.accounted
  · rw [hselected]
    exact h.estimated

theorem tokensOf_concat (entries : List CompiledContextEntry) (e : CompiledContextEntry)
    (tier : ContextTier) : tokensOf (entries ++ [e]) tier =
      tokensOf entries tier + if e.tier = tier then e.estimatedTokens else 0 := by
  by_cases h : e.tier = tier <;> simp [tokensOf, h]

/-- An entry for which there is room can be selected. -/
theorem Within.select {e : CompiledContextEntry} (h : Within estimator budget c)
    (htier : c.usedByTier e.tier + e.estimatedTokens ≤ budget.configured e.tier)
    (htotal : c.totalUsed + e.estimatedTokens ≤ budget.totalTokens)
    (hestimated : e.estimatedTokens = estimator.estimate e.text) :
    Within estimator budget (c.select e) where
  tier_le tier := by
    by_cases he : tier = e.tier
    · subst he
      simpa [Compilation.select] using htier
    · simpa [Compilation.select, he] using h.tier_le tier
  total := by
    have := h.total
    cases he : e.tier <;> simp [Compilation.select, he] <;> omega
  total_le := htotal
  accounted tier := by
    have := h.accounted tier
    by_cases he : e.tier = tier
    · subst he
      simp [Compilation.select, tokensOf_concat, this]
    · simp [Compilation.select, tokensOf_concat, this, he, Ne.symm he]
  estimated e' he' := by
    rcases List.mem_append.mp he' with he' | he'
    · exact h.estimated e' he'
    · rw [List.mem_singleton.mp he']
      exact hestimated

/-- An allowance is within what remains of the budgets. -/
structure Room (budget : ContextBudget) (tier : ContextTier) (tierAllowance : ℤ)
    (c : Compilation) : Prop where
  configured : tierAllowance ≤ budget.configured tier
  total : tierAllowance + c.totalUsed ≤ budget.totalTokens + c.usedByTier tier

theorem Room.select {e : CompiledContextEntry} (h : Room budget tier tierAllowance c)
    (he : e.tier = tier) : Room budget tier tierAllowance (c.select e) := by
  subst he
  refine ⟨h.configured, ?_⟩
  have htotal := h.total
  simp only [Compilation.select, Function.update_self]
  push_cast
  omega

theorem Room.of_sameUse {c' : Compilation} (h : Room budget tier tierAllowance c)
    (hsame : SameUse c c') : Room budget tier tierAllowance c' := by
  refine ⟨h.configured, ?_⟩
  rw [hsame.usedByTier, hsame.totalUsed]
  exact h.total

/-- An entry of what remains of the allowance can be selected. -/
theorem Within.select_remaining {e : CompiledContextEntry} (h : Within estimator budget c)
    (hroom : Room budget tier tierAllowance c) (he : e.tier = tier)
    (hremaining : e.estimatedTokens ≤ c.remaining tier tierAllowance)
    (hestimated : e.estimatedTokens = estimator.estimate e.text) :
    Within estimator budget (c.select e) := by
  subst he
  have htier := hroom.configured
  have htotal := hroom.total
  have hle := h.tier_le e.tier
  have hsum := h.total_le
  rw [remaining] at hremaining
  exact h.select (by omega) (by omega) hestimated

/-- What a step of a tier keeps. -/
structure Kept (estimator : TokenEstimator) (budget : ContextBudget) (tier : ContextTier)
    (tierAllowance : ℤ) (c c' : Compilation) : Prop where
  within : Within estimator budget c'
  room : Room budget tier tierAllowance c'
  /-- The other tiers use what they used. -/
  others : ∀ other, other ≠ tier → c'.usedByTier other = c.usedByTier other

/-- **Placing an entry keeps the invariant**, and the allowance within what remains. -/
theorem Within.place (hbounded : estimator.Bounded) (h : Within estimator budget c)
    (hroom : Room budget tier tierAllowance c) (item : ContextEntry × ContextTier) :
    Kept estimator budget tier tierAllowance c (place estimator tier tierAllowance c item) := by
  obtain ⟨entry, originalTier⟩ := item
  -- an entry that is selected uses its own tier and no other
  have selects : ∀ text c', estimator.estimate text ≤ c.remaining tier tierAllowance →
      SameUse (c.select (compiled entry originalTier tier (estimator.estimate text) text)) c' →
      Kept estimator budget tier tierAllowance c c' := by
    intro text c' hfits hsame
    refine ⟨(h.select_remaining hroom rfl hfits rfl).of_sameUse hsame,
      (hroom.select rfl).of_sameUse hsame, fun other hother => ?_⟩
    rw [hsame.usedByTier]
    exact Function.update_of_ne hother _ _
  rcases place_cases estimator tier tierAllowance c entry originalTier with
    ⟨hfits, heq⟩ | ⟨retained, rfl, -, -, -, -, heq⟩ | ⟨-, -, heq⟩
  · rw [heq]
    exact selects _ _ hfits ⟨rfl, rfl, rfl⟩
  · rw [heq]
    exact selects _ _ (hbounded _ _) ⟨rfl, rfl, rfl⟩
  · have hsame := sameUse_passOn c tier entry originalTier
    rw [heq]
    exact ⟨h.of_sameUse hsame, hroom.of_sameUse hsame, fun other _ =>
      congrFun hsame.usedByTier other⟩

/-- A whole queue keeps it too. -/
theorem Within.placeAll (hbounded : estimator.Bounded) (items : List (ContextEntry × ContextTier)) :
    ∀ {c : Compilation}, Within estimator budget c → Room budget tier tierAllowance c →
      Kept estimator budget tier tierAllowance c
        (items.foldl (Compilation.place estimator tier tierAllowance) c) := by
  induction items with
  | nil =>
    intro c h hroom
    exact ⟨h, hroom, fun _ _ => rfl⟩
  | cons item items ih =>
    intro c h hroom
    obtain ⟨hwithin, hroom, hothers⟩ := h.place hbounded hroom item
    obtain ⟨hwithin', hroom', hothers'⟩ := ih hwithin hroom
    exact ⟨hwithin', hroom', fun other hother =>
      (hothers' other hother).trans (hothers other hother)⟩

/-- A tier that has used nothing yet is allowed no more than what remains. -/
theorem room_allowance (hunused : c.usedByTier tier = 0) :
    Room budget tier (c.allowance budget tier) c := by
  refine ⟨min_le_left _ _, ?_⟩
  have hle : c.allowance budget tier ≤ budget.totalTokens - c.totalUsed := min_le_right _ _
  rw [hunused]
  push_cast
  omega

/-- **A tier keeps the invariant**, and uses nothing of the others. -/
theorem Within.compileTier (hbounded : estimator.Bounded) (h : Within estimator budget c)
    (hunused : c.usedByTier tier = 0) :
    Within estimator budget (compileTier estimator budget c tier) ∧
      ∀ other, other ≠ tier →
        (compileTier estimator budget c tier).usedByTier other = c.usedByTier other :=
  have hkept := h.placeAll hbounded (c.sortedQueue tier) (room_allowance hunused)
  ⟨hkept.within, hkept.others⟩

/-- Tiers that have used nothing yet, each once. -/
theorem Within.compileTiers (hbounded : estimator.Bounded) (tiers : List ContextTier) :
    ∀ {c : Compilation}, tiers.Nodup → (∀ tier ∈ tiers, c.usedByTier tier = 0) →
      Within estimator budget c →
      Within estimator budget (tiers.foldl (Compilation.compileTier estimator budget) c) := by
  induction tiers with
  | nil => exact fun _ _ h => h
  | cons tier tiers ih =>
    intro c hnodup hunused h
    obtain ⟨htier, hrest⟩ := List.nodup_cons.mp hnodup
    obtain ⟨hwithin, hothers⟩ := h.compileTier hbounded (hunused tier List.mem_cons_self)
    refine ih hrest (fun other hother => ?_) hwithin
    rw [hothers other fun heq => htier (heq ▸ hother)]
    exact hunused other (List.mem_cons_of_mem _ hother)

end Compilation

/-! ### The snapshot -/

/-- **A context stays within its budgets**, and what it says that it uses is what the default
estimator estimates of the texts of its entries. -/
theorem context_within_budget (request : ContextCompileRequest) :
    let snapshot := ContextCompiler.compile {} request
    (∀ tier, snapshot.usage.ofTier tier ≤ request.budget.configured tier) ∧
      snapshot.usage.totalTokens ≤ request.budget.totalTokens ∧
      snapshot.usage.totalTokens = snapshot.usage.ofTier .t0Canon + snapshot.usage.ofTier .t1Hot +
        snapshot.usage.ofTier .t2Map ∧
      (∀ tier, snapshot.usage.ofTier tier =
        ((snapshot.entries.filter fun e => e.tier = tier).map (·.estimatedTokens)).sum) ∧
      ∀ e ∈ snapshot.entries, e.estimatedTokens = Utf8HeuristicTokenEstimator.estimate e.text := by
  intro snapshot
  have h : Compilation.Within Utf8HeuristicTokenEstimator request.budget
      (ContextCompiler.compileTiers {} request) :=
    Compilation.Within.compileTiers Utf8HeuristicTokenEstimator.bounded tierOrder (by decide)
      (fun _ _ => rfl) (Compilation.within_start _)
  have hperm : snapshot.entries.Perm (ContextCompiler.compileTiers {} request).selected :=
    List.mergeSort_perm _ _
  have husage : ∀ tier, snapshot.usage.ofTier tier =
      (ContextCompiler.compileTiers {} request).usedByTier tier := by
    rintro (_ | _ | _) <;> rfl
  refine ⟨fun tier => husage tier ▸ h.tier_le tier, h.total_le, h.total, fun tier => ?_,
    fun e he => h.estimated e (hperm.mem_iff.mp he)⟩
  rw [husage, ← h.accounted]
  exact ((hperm.filter _).map _).sum_nat.symm

/-- A request with nothing in it. -/
def bareRequest : ContextCompileRequest where
  sessionId := "session".toList
  turnId := "turn".toList
  revision := {
    «namespace» := "owner".toList
    memoryGeneration := 0
    canonRevision := "canon-1".toList }

end Eeveetuber.Memory
