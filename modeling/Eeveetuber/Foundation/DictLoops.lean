import Eeveetuber.Foundation.Keyed

/-!
# Dictionaries made in loops

A dictionary comprehension puts its items into a dictionary one by one; items of different keys
are all there in the end, in their order (`Foundation.Keyed.values_foldl_insert`). A loop over the
keys of a dictionary that assigns each its new value changes the values alone
(`Foundation.Mapping.values_updateAll`).
-/

namespace Foundation

namespace Keyed

variable {κ ν : Type} {key : ν → κ} [DecidableEq κ] {d : Keyed key} {items : List ν}

/-- A dictionary of items: the last of a key, at the place of the first. -/
def ofItems (items : List ν) : Keyed key := items.foldl insert ∅

theorem values_foldl_insert (h : ((d.values ++ items).map key).Nodup) :
    (items.foldl insert d).values = d.values ++ items := by
  induction items generalizing d with
  | nil => exact (List.append_nil _).symm
  | cons v items ih =>
    have hnew : ∀ w ∈ d, key w ≠ key v := by
      rw [List.map_append, List.nodup_append] at h
      exact fun w hw => h.2.2 _ (List.mem_map_of_mem hw) _ List.mem_cons_self
    have hvalues := values_insert_of_new hnew
    rw [List.foldl_cons, ih, hvalues, List.append_assoc, List.singleton_append]
    rw [hvalues, List.append_assoc, List.singleton_append]
    exact h

/-- **Items of different keys are all there**, in their order. -/
theorem values_ofItems (h : (items.map key).Nodup) : (ofItems items : Keyed key).values = items :=
  values_foldl_insert (d := ∅) h

end Keyed

namespace Mapping

variable {κ ν : Type} [DecidableEq κ] {f : κ → ν → ν} {m : Mapping κ ν} {k : κ}

/-- `m[k] = f(k, m[k])`. -/
def updateKey (f : κ → ν → ν) (m : Mapping κ ν) (k : κ) : Mapping κ ν :=
  match m.get k with
  | some v => m.insert (k, f k v)
  | none => m

/-- `for k in tuple(m): m[k] = f(k, m[k])`. -/
def updateAll (f : κ → ν → ν) (m : Mapping κ ν) : Mapping κ ν := m.keys.foldl (updateKey f) m

theorem values_updateKey : (m.updateKey f k).values =
    m.values.map fun item => if item.1 = k then (item.1, f item.1 item.2) else item := by
  rw [updateKey]
  split
  · rename_i v hget
    have hmem := get_eq_some.mp hget
    rw [Keyed.values_insert, if_pos (Keyed.contains_iff.mpr ⟨_, hmem, rfl⟩)]
    refine List.map_congr_left fun item hitem => ?_
    by_cases hk : item.1 = k
    · obtain rfl : item = (k, v) := Keyed.eq_of_key hitem hmem hk
      rw [if_pos rfl]
    · rw [if_neg hk, if_neg hk]
  · rename_i hnone
    refine ((List.map_congr_left fun item hitem => if_neg ?_).trans (List.map_id _)).symm
    rintro rfl
    rw [get_eq_some.mpr hitem] at hnone
    exact nomatch hnone

theorem values_foldl_updateKey {ks : List κ} (hks : ks.Nodup) :
    (ks.foldl (updateKey f) m).values =
      m.values.map fun item => if item.1 ∈ ks then (item.1, f item.1 item.2) else item := by
  induction ks generalizing m with
  | nil =>
    refine ((List.map_congr_left fun item _ => ?_).trans (List.map_id _)).symm
    exact if_neg List.not_mem_nil
  | cons k ks ih =>
    obtain ⟨hk, hks⟩ := List.nodup_cons.mp hks
    rw [List.foldl_cons, ih hks, values_updateKey, List.map_map]
    refine List.map_congr_left fun item _ => ?_
    rw [Function.comp_apply]
    by_cases hitem : item.1 = k
    · rw [if_pos hitem, if_neg (by rw [hitem]; exact hk),
        if_pos (by rw [hitem]; exact List.mem_cons_self)]
    · rw [if_neg hitem]
      exact if_congr (by rw [List.mem_cons, or_iff_right hitem]) rfl rfl

/-- **The loop changes the values alone.** -/
theorem values_updateAll :
    (m.updateAll f).values = m.values.map fun item => (item.1, f item.1 item.2) := by
  have hkeys : m.keys.Nodup := m.nodup
  rw [updateAll, values_foldl_updateKey hkeys]
  exact List.map_congr_left fun item hitem => if_pos (List.mem_map_of_mem hitem)

/-- What is read after the loop. -/
theorem get_updateAll : (m.updateAll f).get k = (m.get k).map (f k) := by
  rw [get, get, Keyed.find?, Keyed.find?, values_updateAll, List.find?_map, Option.map_map,
    Option.map_map]
  -- an item keeps its key
  refine Option.map_congr fun item hitem => ?_
  have hkey : item.1 = k := of_decide_eq_true (List.find?_some hitem :)
  rw [Function.comp_apply, Function.comp_apply, hkey]

end Mapping

end Foundation
