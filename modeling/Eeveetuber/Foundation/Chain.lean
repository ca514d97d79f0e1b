import Mathlib.Data.Finset.Card
import Mathlib.Logic.Relation

/-!
# Following a chain

A program that does not find what it looks for under a key may have another key
stand in for it, and for that one yet another. It follows the chain until it
finds something, until there is no key to go on with, or until it comes back to
a key it has seen; `Foundation.follow` is that loop.

It always comes to an end, within as many rounds as there are keys to go on from
(`Foundation.follow_isSome`). What it finds is on the chain
(`Foundation.follow_found`) and is the first that is there
(`Foundation.follow_firstFound`), and where it finds nothing there is nothing on the
chain (`Foundation.follow_lost`).
-/

namespace Foundation

variable {κ β : Type} {next : κ → Option κ} {look : κ → Option β} {fuel : ℕ} {seen keys : List κ}
  {k k' : κ} {v : β}

/-- How following a chain ends. -/
inductive Trail (κ β : Type) where
  /-- There is something under a key. -/
  | found (key : κ) (value : β)
  /-- No key stands in for this one. -/
  | deadEnd (key : κ)
  /-- This key was seen before. -/
  | circle (key : κ)

/-- One key stands in for another, or for one that stands in for it. -/
abbrev LeadsTo (next : κ → Option κ) : κ → κ → Prop :=
  Relation.ReflTransGen fun a b => next a = some b

/-- The chain goes on from a key under which there is nothing. -/
def PassesOn (next : κ → Option κ) (look : κ → Option β) (k k' : κ) : Prop :=
  look k = none ∧ next k = some k'

/-- The first key on the chain from a key under which there is something. -/
def FirstFound (next : κ → Option κ) (look : κ → Option β) (k k' : κ) (v : β) : Prop :=
  Relation.ReflTransGen (PassesOn next look) k k' ∧ look k' = some v

/-- **There is one first key at most.** -/
theorem FirstFound.unique {l : κ} {w : β} (h : FirstFound next look k k' v)
    (h' : FirstFound next look k l w) : l = k' ∧ w = v := by
  obtain ⟨hpath, hlook⟩ := h
  induction hpath using Relation.ReflTransGen.head_induction_on with
  | refl =>
    obtain rfl | ⟨x, hstep, -⟩ := h'.1.cases_head
    · exact ⟨rfl, Option.some.inj (h'.2.symm.trans hlook)⟩
    · exact nomatch hstep.1.symm.trans hlook
  | head hstep _ ih =>
    obtain rfl | ⟨x, hstep', hrest⟩ := h'.1.cases_head
    · exact nomatch hstep.1.symm.trans h'.2
    · obtain rfl := Option.some.inj (hstep'.2.symm.trans hstep.2)
      exact ih ⟨hrest, h'.2⟩

theorem FirstFound.leadsTo (h : FirstFound next look k k' v) : LeadsTo next k k' :=
  Relation.ReflTransGen.mono (fun _ _ hstep => hstep.2) _ _ h.1

/-- What a loop knows of the keys it has seen: nothing was found under them, and
the chain led on to keys it has seen or to the one it is at. -/
def Explored (next : κ → Option κ) (look : κ → Option β) (seen : List κ) (k : κ) : Prop :=
  ∀ s ∈ seen, look s = none ∧ ∃ x, next s = some x ∧ (x ∈ seen ∨ x = k)

variable [DecidableEq κ]

/-- Follow the chain from a key, for so many rounds. -/
def follow (next : κ → Option κ) (look : κ → Option β) :
    ℕ → List κ → κ → Option (Trail κ β)
  | 0, _, _ => none
  | fuel + 1, seen, k =>
    if k ∈ seen then some (.circle k)
    else match look k with
      | some v => some (.found k v)
      | none => match next k with
        | none => some (.deadEnd k)
        | some k' => follow next look fuel (k :: seen) k'

/-- **The loop ends.** -/
theorem follow_isSome (hkeys : ∀ k, (next k).isSome = true → k ∈ keys)
    (hfuel : (keys.toFinset \ seen.toFinset).card < fuel) :
    (follow next look fuel seen k).isSome = true := by
  induction fuel generalizing seen k with
  | zero => omega
  | succ fuel ih =>
    rw [follow]
    split
    · rfl
    rename_i hnew
    split
    · rfl
    split
    · rfl
    · rename_i k' hnext
      -- the key just seen is one fewer to come
      refine ih (lt_of_lt_of_le (Finset.card_lt_card ?_) (Nat.le_of_lt_succ hfuel))
      refine Finset.ssubset_iff_of_subset (fun x hx => ?_) |>.mpr ⟨k, ?_, ?_⟩
      · rw [Finset.mem_sdiff, List.mem_toFinset, List.mem_toFinset] at hx ⊢
        exact ⟨hx.1, fun hmem => hx.2 (List.mem_cons_of_mem _ hmem)⟩
      · rw [Finset.mem_sdiff, List.mem_toFinset, List.mem_toFinset]
        exact ⟨hkeys k (by rw [hnext]; rfl), hnew⟩
      · simp

/-- **What is found is the first that there is.** -/
theorem follow_firstFound (h : follow next look fuel seen k = some (.found k' v)) :
    FirstFound next look k k' v := by
  induction fuel generalizing seen k with
  | zero => cases h
  | succ fuel ih =>
    rw [follow] at h
    split at h
    · cases h
    split at h
    · rename_i hlook
      cases h
      exact ⟨.refl, hlook⟩
    split at h
    · cases h
    · rename_i hlook _ k' hnext
      obtain ⟨hpath, hlook'⟩ := ih h
      exact ⟨.head ⟨hlook, hnext⟩ hpath, hlook'⟩

/-- **What is found is on the chain.** -/
theorem follow_found (h : follow next look fuel seen k = some (.found k' v)) :
    LeadsTo next k k' ∧ look k' = some v :=
  ⟨(follow_firstFound h).leadsTo, (follow_firstFound h).2⟩

/-- **Where nothing is found, there is nothing on the chain.** -/
theorem follow_lost {trail : Trail κ β} (h : follow next look fuel seen k = some trail)
    (hseen : Explored next look seen k) (hlost : ∀ k' v, trail ≠ .found k' v)
    (hleads : LeadsTo next k k') : look k' = none := by
  suffices hall : ∀ k', k' ∈ seen ∨ LeadsTo next k k' → look k' = none from hall k' (.inr hleads)
  clear hleads
  induction fuel generalizing seen k with
  | zero => cases h
  | succ fuel ih =>
    rw [follow] at h
    split at h
    · -- everything the chain leads to was seen
      rename_i hmem
      have hclosed : ∀ k', LeadsTo next k k' → k' ∈ seen := by
        intro k' hleads
        induction hleads with
        | refl => exact hmem
        | tail _ hstep ih =>
          obtain ⟨-, x, hx, hin⟩ := hseen _ ih
          obtain rfl := Option.some.inj (hx.symm.trans hstep)
          rcases hin with hin | rfl
          · exact hin
          · exact hmem
      exact fun k' hk' => (hseen k' (hk'.elim id (hclosed k'))).1
    split at h
    · cases h
      exact absurd rfl (hlost _ _)
    rename_i hlook
    split at h
    · rename_i hnext
      rintro k' (hin | hleads)
      · exact (hseen k' hin).1
      · rcases hleads.cases_head with rfl | ⟨x, hx, -⟩
        · exact hlook
        · rw [hnext] at hx
          cases hx
    · rename_i next' hnext
      have hexplored : Explored next look (k :: seen) next' := by
        intro s hs
        rcases List.mem_cons.mp hs with rfl | hs
        · exact ⟨hlook, next', hnext, .inr rfl⟩
        · obtain ⟨hnone, x, hx, hin⟩ := hseen s hs
          exact ⟨hnone, x, hx, .inl (List.mem_cons.mpr (hin.symm.imp_left id))⟩
      have hall := ih h hexplored
      rintro k' (hin | hleads)
      · exact (hseen k' hin).1
      · rcases hleads.cases_head with rfl | ⟨x, hx, hrest⟩
        · exact hlook
        · obtain rfl := Option.some.inj (hnext.symm.trans hx)
          exact hall k' (.inr hrest)

end Foundation
