import Eeveetuber.Foundation.SortByKey
import Eeveetuber.Memory.ContextEntries

/-!
# The order in which entries are given

**A snapshot does not depend on the order of the entries of a request**
(`Eeveetuber.Memory.compile_perm`). A tier goes through its queue in the order of a key, and
no two entries that wait in one queue have the same key
(`Eeveetuber.Memory.Compilation.Distinct`). That needs an argument, since the identifier of the
canon's stand-in is not reserved: the stand-in is the only mandatory entry of its
tier, and a mandatory entry never leaves its tier.
-/

namespace Eeveetuber.Memory

open Foundation

namespace Compilation

variable {estimator : TokenEstimator} {budget : ContextBudget} {c c' : Compilation}
  {tier originalTier : ContextTier} {entry : ContextEntry} {tierAllowance : ℤ}
  {moved W W' : List Waiting}

/-! ### No two that wait are alike -/

/-- The identifier of an entry that waits and, if it cannot leave its tier, the tier. -/
def tag (w : Waiting) : Option ContextTier × Text :=
  (if w.2.1.mandatory then some w.1 else none, w.2.1.entryId)

/-- No two entries that wait have the same identifier, unless one of them is mandatory and they
are in different tiers, or both are mandatory. -/
def Distinct (W : List Waiting) : Prop := (W.map tag).Nodup

theorem distinct_perm (h : Distinct W) (hperm : W.Perm W') : Distinct W' :=
  (hperm.map tag).nodup_iff.mp h

/-- An entry that is passed on keeps its tag. -/
theorem Places.tag_moved (h : Places estimator tier tierAllowance c entry originalTier c' moved) :
    (moved.map tag).Sublist [tag (tier, entry, originalTier)] := by
  rcases h with _ | _ | ⟨nextTier, -, -, hmandatory⟩ | _
  · exact List.nil_sublist _
  · exact List.nil_sublist _
  · simp [tag, hmandatory]
  · exact List.nil_sublist _

theorem Distinct.place (h : Distinct ((tier, entry, originalTier) :: W))
    (hplaces : Places estimator tier tierAllowance c entry originalTier c' moved) :
    Distinct (moved ++ W) := by
  rw [Distinct, List.map_append]
  exact h.sublist (hplaces.tag_moved.append_right _)

/-- **Two entries of one queue have different keys.** -/
theorem Distinct.key_inj (h : Distinct (c.waiting tier (c.queues tier))) :
    ∀ a ∈ c.queues tier, ∀ b ∈ c.queues tier,
      entrySortKey a.1 = entrySortKey b.1 → a = b := by
  intro a ha b hb hkey
  have hmem : ∀ x ∈ c.queues tier, (tier, x) ∈ c.waiting tier (c.queues tier) := by
    intro x hx
    exact List.mem_append_left _ (List.mem_map_of_mem hx)
  have htag : tag (tier, a) = tag (tier, b) := by
    simp only [entrySortKey, toLex_inj, Prod.mk.injEq, neg_inj] at hkey
    obtain ⟨hmandatory, -, hid⟩ := hkey
    have hmandatory : a.1.mandatory = b.1.mandatory := by
      rcases ha : a.1.mandatory <;> rcases hb : b.1.mandatory <;> simp [ha, hb] at hmandatory ⊢
    simp [tag, hmandatory, hid]
  exact congrArg Prod.snd (List.inj_on_of_nodup_map h (hmem a ha) (hmem b hb) htag)

/-! ### Two compilations side by side -/

/-- Two compilations that differ in the order of their queues only. -/
structure Alike (c c' : Compilation) : Prop where
  queues : ∀ tier, (c.queues tier).Perm (c'.queues tier)
  selected : c.selected = c'.selected
  demotions : c.demotions = c'.demotions
  trims : c.trims = c'.trims
  drops : c.drops = c'.drops
  usedByTier : c.usedByTier = c'.usedByTier
  totalUsed : c.totalUsed = c'.totalUsed

theorem Alike.select (h : Alike c c') (x : CompiledContextEntry) :
    Alike (c.select x) (c'.select x) := by
  refine ⟨h.queues, ?_, h.demotions, h.trims, h.drops, ?_, ?_⟩
  · simp [Compilation.select, h.selected]
  · simp [Compilation.select, h.usedByTier]
  · simp [Compilation.select, h.totalUsed]

theorem Alike.passOn (h : Alike c c') (tier : ContextTier) (entry : ContextEntry)
    (originalTier : ContextTier) :
    Alike (c.passOn tier entry originalTier) (c'.passOn tier entry originalTier) := by
  have hdropped (d : ContextDrop) :
      Alike { c with drops := c.drops ++ [d] } { c' with drops := c'.drops ++ [d] } :=
    ⟨h.queues, h.selected, h.demotions, h.trims, congrArg (· ++ [d]) h.drops,
      h.usedByTier, h.totalUsed⟩
  rw [Compilation.passOn, Compilation.passOn]
  rcases tier.next with _ | nextTier
  · exact hdropped _
  · dsimp only
    split_ifs
    · refine ⟨fun t => ?_, h.selected, congrArg (· ++ _) h.demotions, h.trims, h.drops,
        h.usedByTier, h.totalUsed⟩
      dsimp only
      by_cases ht : t = nextTier
      · subst ht
        rw [Function.update_self, Function.update_self]
        exact (h.queues t).append_right _
      · rw [Function.update_of_ne ht, Function.update_of_ne ht]
        exact h.queues t
    · exact hdropped _

/-- Placing an entry does the same to both. -/
theorem Alike.place (h : Alike c c') (tier : ContextTier) (tierAllowance : ℤ)
    (item : ContextEntry × ContextTier) :
    Alike (place estimator tier tierAllowance c item)
      (place estimator tier tierAllowance c' item) := by
  rw [Compilation.place, Compilation.place, h.usedByTier]
  dsimp only
  split_ifs
  · exact h.select _
  · have hs := h.select (compiled item.1 item.2 tier
      (estimator.estimate
        (estimator.truncate item.1.text (tierAllowance - c'.usedByTier tier).toNat))
      (estimator.truncate item.1.text (tierAllowance - c'.usedByTier tier).toNat))
    exact ⟨hs.queues, hs.selected, hs.demotions, congrArg (· ++ _) h.trims, hs.drops,
      hs.usedByTier, hs.totalUsed⟩
  · exact h.passOn _ _ _

theorem Alike.placeAll (tier : ContextTier) (tierAllowance : ℤ)
    (items : List (ContextEntry × ContextTier)) : ∀ {c c' : Compilation}, Alike c c' →
      Alike (items.foldl (Compilation.place estimator tier tierAllowance) c)
        (items.foldl (Compilation.place estimator tier tierAllowance) c') := by
  induction items with
  | nil => exact fun h => h
  | cons item items ih => exact fun h => ih (h.place tier tierAllowance item)

/-- **A tier does the same to both**, when no two entries of its queue have the same key. -/
theorem Alike.compileTier (h : Alike c c') (hdistinct : Distinct (c.waiting tier (c.queues tier))) :
    Alike (compileTier estimator budget c tier) (compileTier estimator budget c' tier) := by
  have hsorted : c.sortedQueue tier = c'.sortedQueue tier :=
    mergeSort_key_eq_of_perm (fun item : ContextEntry × ContextTier => entrySortKey item.1)
      (h.queues tier) hdistinct.key_inj
  have hallowance : c.allowance budget tier = c'.allowance budget tier := by
    rw [allowance, allowance, h.totalUsed]
  rw [Compilation.compileTier, Compilation.compileTier, hsorted, hallowance]
  exact Alike.placeAll _ _ _ h

/-- What waits after a tier is distinct too. -/
theorem Distinct.compileTier (h : Distinct (c.waiting tier (c.queues tier))) :
    Distinct ((compileTier estimator budget c tier).waiting tier []) :=
  placeAll_induction (I := fun _ => Distinct) distinct_perm
    (fun hW hplaces => hW.place hplaces) _
    (distinct_perm h (((List.mergeSort_perm _ _).symm.map _).append_right _))

/-- **All tiers do the same to both.** -/
theorem Alike.compileTiers (h : Alike c c')
    (hdistinct : Distinct (c.waiting .t0Canon (c.queues .t0Canon))) :
    Alike (tierOrder.foldl (Compilation.compileTier estimator budget) c)
      (tierOrder.foldl (Compilation.compileTier estimator budget) c') := by
  let c₁ := Compilation.compileTier estimator budget c .t0Canon
  let c₂ := Compilation.compileTier estimator budget c₁ .t1Hot
  have hc₁ : Distinct (c₁.waiting .t0Canon []) := hdistinct.compileTier
  have h₁ : Distinct (c₁.waiting .t1Hot (c₁.queues .t1Hot)) :=
    distinct_perm hc₁ (by simp [Compilation.waiting, ContextTier.later])
  have hc₂ : Distinct (c₂.waiting .t1Hot []) := h₁.compileTier
  have h₂ : Distinct (c₂.waiting .t2Map (c₂.queues .t2Map)) :=
    distinct_perm hc₂ (by simp [Compilation.waiting, ContextTier.later])
  exact ((h.compileTier hdistinct).compileTier h₁).compileTier h₂

/-- Two permutations of the entries, before the first tier. -/
theorem alike_start {entries entries' : List ContextEntry} (h : entries.Perm entries') :
    Alike (start entries) (start entries') :=
  ⟨fun _ => (h.filter _).map _, rfl, rfl, rfl, rfl, rfl, rfl⟩

end Compilation

/-! ### Requests -/

namespace ContextCompileRequest

variable (request : ContextCompileRequest)

/-- A mandatory entry of the first tier is not compiled beside the stand-in. -/
theorem not_usesFallback {e : ContextEntry} (he : e ∈ request.entries) (htier : e.tier = .t0Canon)
    (hmandatory : e.mandatory = true) : request.usesFallback = false := by
  rw [usesFallback, Bool.not_eq_eq_eq_not, Bool.not_false, List.any_eq_true]
  exact ⟨e, he, by simp [htier, hmandatory]⟩

/-- **The entries that are compiled can be told apart**, also where one of them has the
identifier of the stand-in. -/
theorem distinct_start :
    Compilation.Distinct (request.allEntries.map fun entry => (entry.tier, entry, entry.tier)) := by
  let entryTag (e : ContextEntry) : Option ContextTier × Text :=
    (if e.mandatory then some e.tier else none, e.entryId)
  have hentries : (request.entries.map entryTag).Nodup := by
    refine List.Nodup.of_map Prod.snd ?_
    rw [List.map_map]
    exact request.uniqueEntries
  rw [Compilation.Distinct, List.map_map]
  change (request.allEntries.map entryTag).Nodup
  rw [allEntries]
  split_ifs with hfallback
  · rw [List.map_append, List.map_singleton, List.perm_append_comm.nodup_iff,
      List.singleton_append, List.nodup_cons]
    refine ⟨fun hmem => ?_, hentries⟩
    obtain ⟨e, he, htag⟩ := List.mem_map.mp hmem
    -- an entry of the tag of the stand-in is mandatory, in the first tier
    have hfirst : (if e.mandatory then some e.tier else none) = some .t0Canon :=
      congrArg Prod.fst htag
    by_cases hmandatory : e.mandatory = true
    · rw [if_pos hmandatory] at hfirst
      rw [request.not_usesFallback he (Option.some.inj hfirst) hmandatory] at hfallback
      contradiction
    · rw [if_neg hmandatory] at hfirst
      contradiction
  · exact hentries

/-- The request with its entries in another order. -/
def reorder (entries : List ContextEntry) (h : entries.Perm request.entries) :
    ContextCompileRequest :=
  { request with
    entries := entries
    uniqueEntries := (h.map _).nodup_iff.mpr request.uniqueEntries }

variable {request} {entries : List ContextEntry}

theorem reorder_usesFallback (h : entries.Perm request.entries) :
    (request.reorder entries h).usesFallback = request.usesFallback := by
  rw [usesFallback, usesFallback]
  exact congrArg _ h.any_eq

theorem reorder_allEntries (h : entries.Perm request.entries) :
    (request.reorder entries h).allEntries.Perm request.allEntries := by
  rw [allEntries, allEntries, reorder_usesFallback h]
  split_ifs
  · exact h.append_right _
  · exact h

end ContextCompileRequest

/-- **A snapshot does not depend on the order of the entries**, whatever counts the tokens. -/
theorem compile_perm (compiler : ContextCompiler) (request : ContextCompileRequest)
    (entries : List ContextEntry) (h : entries.Perm request.entries) :
    compiler.compile (request.reorder entries h) = compiler.compile request := by
  have hdistinct := Compilation.distinct_perm (request.reorder entries h).distinct_start
    (Compilation.waiting_start _).symm
  have halike : Compilation.Alike (compiler.compileTiers (request.reorder entries h))
      (compiler.compileTiers request) :=
    (Compilation.alike_start (ContextCompileRequest.reorder_allEntries h)).compileTiers hdistinct
  rw [ContextCompiler.compile, ContextCompiler.compile, halike.selected, halike.demotions,
    halike.trims, halike.drops, halike.usedByTier, halike.totalUsed,
    ContextCompileRequest.reorder_usesFallback h]
  rfl

/-- A request of a canon and a note that may be passed on. -/
def canonAndNote : ContextCompileRequest :=
  { forgedFallback with
    budget := { forgedFallback.budget with t0Tokens := 1, t0_pos := Nat.zero_lt_one }
    entries := [
      { forgedNote with
        entryId := "canon".toList, tier := .t0Canon, contextClass := .canon, mandatory := true
        text := "be kind and curious".toList
        entryId_inLength := by decide, text_ne_nil := by decide },
      { forgedNote with
        entryId := "note".toList, tier := .t0Canon, contextClass := .persona
        text := "warm".toList
        entryId_inLength := by decide, text_ne_nil := by decide }]
    uniqueEntries := by decide }

/-- The note before the canon. -/
theorem compile_perm_reverse :
    ContextCompiler.compile {} (canonAndNote.reorder canonAndNote.entries.reverse
      (List.reverse_perm _)) = ContextCompiler.compile {} canonAndNote :=
  compile_perm {} canonAndNote _ (List.reverse_perm _)

end Eeveetuber.Memory
