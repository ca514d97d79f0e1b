import Mathlib.Data.List.Nodup

/-!
# Dictionaries whose values carry their keys

A program often keeps its records in a dictionary under a key that is a field
of the record itself. Such a dictionary is a list of records, in the order in
which their keys were first inserted, no two of which have the same key; that
is `Foundation.Keyed`, and the operations below keep it so. Assigning to a key
that is there replaces the record where it stands, as in Python; assigning to a
new one appends.

Its users reason about membership alone: `Foundation.Keyed.mem_insert`,
`Foundation.Keyed.mem_erase` and `Foundation.Keyed.find?_eq_some` say what the
operations do to it.
-/

namespace Foundation

/-- A dictionary of values under keys they carry, in insertion order. -/
@[ext]
structure Keyed {κ ν : Type} (key : ν → κ) where
  /-- The values, the oldest entry first. -/
  values : List ν
  /-- No two entries have the same key. -/
  nodup : (values.map key).Nodup

namespace Keyed

variable {κ ν : Type} {key : ν → κ}

instance : Membership ν (Keyed key) := ⟨fun d v => v ∈ d.values⟩

instance : EmptyCollection (Keyed key) := ⟨⟨[], List.nodup_nil⟩⟩

variable {d : Keyed key} {v w : ν} {k : κ} {p : ν → Bool}

theorem mem_values : v ∈ d.values ↔ v ∈ d := Iff.rfl

@[simp] theorem values_empty : (∅ : Keyed key).values = [] := rfl

@[simp] theorem not_mem_empty : v ∉ (∅ : Keyed key) := List.not_mem_nil

/-- `len(d)`. -/
def length (d : Keyed key) : ℕ := d.values.length

@[simp] theorem length_empty : (∅ : Keyed key).length = 0 := rfl

/-- A value is determined by its key. -/
theorem eq_of_key (hv : v ∈ d) (hw : w ∈ d) (h : key v = key w) : v = w :=
  List.inj_on_of_nodup_map d.nodup hv hw h

theorem nodup_values (d : Keyed key) : d.values.Nodup := d.nodup.of_map key

/-! ### Filtering and changing values -/

/-- Keep the entries whose values pass a test. -/
def filter (d : Keyed key) (p : ν → Bool) : Keyed key where
  values := d.values.filter p
  nodup := d.nodup.sublist (List.filter_sublist.map key)

@[simp] theorem mem_filter : v ∈ d.filter p ↔ v ∈ d ∧ p v = true := List.mem_filter

theorem length_filter_le : (d.filter p).length ≤ d.length := List.length_filter_le _ _

theorem filter_eq_self (h : ∀ v ∈ d, p v = true) : d.filter p = d :=
  Keyed.ext (List.filter_eq_self.mpr h)

/-- Change the values without changing their keys. -/
def map (d : Keyed key) (f : ν → ν) (hf : ∀ v, key (f v) = key v) : Keyed key where
  values := d.values.map f
  nodup := by
    rw [List.map_map, show key ∘ f = key from funext hf]
    exact d.nodup

@[simp] theorem mem_map {f : ν → ν} {hf : ∀ v, key (f v) = key v} :
    v ∈ d.map f hf ↔ ∃ w ∈ d, f w = v := List.mem_map

@[simp] theorem length_map {f : ν → ν} {hf : ∀ v, key (f v) = key v} :
    (d.map f hf).length = d.length := List.length_map _

/-- Drop the oldest entries until at most `n` are left. -/
def keepLast (d : Keyed key) (n : ℕ) : Keyed key where
  values := d.values.drop (d.values.length - n)
  nodup := d.nodup.sublist ((List.drop_sublist _ _).map key)

theorem mem_of_mem_keepLast {n : ℕ} (h : v ∈ d.keepLast n) : v ∈ d := List.mem_of_mem_drop h

theorem length_keepLast_le (d : Keyed key) (n : ℕ) : (d.keepLast n).length ≤ n := by
  rw [length, keepLast, List.length_drop]
  omega

/-! ### Looking up, deleting and assigning -/

variable [DecidableEq κ]

/-- `d.get(k)`. -/
def find? (d : Keyed key) (k : κ) : Option ν := d.values.find? (key · = k)

/-- `d.pop(k, None)`. -/
def erase (d : Keyed key) (k : κ) : Keyed key := d.filter (key · ≠ k)

/-- `k in d`. -/
def contains (d : Keyed key) (k : κ) : Bool := d.values.any (key · = k)

/-- `d[k] = v`. -/
def insert (d : Keyed key) (v : ν) : Keyed key where
  values := if d.contains (key v) then d.values.map fun w => if key w = key v then v else w
    else d.values ++ [v]
  nodup := by
    rcases h : d.contains (key v) with _ | _
    · rw [if_neg Bool.false_ne_true, List.map_append, List.nodup_append]
      refine ⟨d.nodup, List.nodup_singleton _, ?_⟩
      rintro _ hk _ hv rfl
      obtain ⟨w, hw, hkey⟩ := List.mem_map.mp hk
      have : d.contains (key v) = true :=
        List.any_eq_true.mpr ⟨w, hw, decide_eq_true (hkey.trans (List.mem_singleton.mp hv))⟩
      rw [h] at this
      cases this
    · rw [if_pos rfl, List.map_map]
      have hkeep : ∀ w, (key ∘ fun w => if key w = key v then v else w) w = key w := by
        intro w
        by_cases hw : key w = key v
        · simp [hw]
        · simp [hw]
      rw [funext hkeep]
      exact d.nodup

/-- `d.move_to_end(k)`. -/
def moveToEnd (d : Keyed key) (k : κ) : Keyed key where
  values := d.values.filter (key · ≠ k) ++ d.values.filter (key · = k)
  nodup := by
    have hp : (d.values.filter (key · ≠ k) ++ d.values.filter (key · = k)).Perm d.values := by
      have := List.filter_append_perm (fun w => decide (key w ≠ k)) d.values
      simpa using this
    exact (hp.map key).nodup_iff.mpr d.nodup

theorem find?_eq_some : d.find? k = some v ↔ v ∈ d ∧ key v = k := by
  constructor
  · intro h
    rw [find?] at h
    exact ⟨List.mem_of_find?_eq_some h, by simpa using List.find?_some h⟩
  · rintro ⟨hv, rfl⟩
    rcases h : d.find? (key v) with _ | w
    · have := List.find?_eq_none.mp h v hv
      simp at this
    · rw [find?] at h
      have hw : w ∈ d := List.mem_of_find?_eq_some h
      have hkey : key w = key v := by simpa using List.find?_some h
      rw [eq_of_key hw hv hkey]

theorem find?_eq_none : d.find? k = none ↔ ∀ v ∈ d, key v ≠ k := by
  rw [find?, List.find?_eq_none]
  simp [mem_values]

theorem find?_key (h : v ∈ d) : d.find? (key v) = some v := find?_eq_some.mpr ⟨h, rfl⟩

theorem contains_iff : d.contains k = true ↔ ∃ v ∈ d, key v = k := by
  simp [contains, mem_values]

theorem contains_eq_isSome : d.contains k = (d.find? k).isSome := by
  rw [Bool.eq_iff_iff, contains_iff, Option.isSome_iff_exists]
  exact exists_congr fun v => find?_eq_some.symm

theorem values_erase : (d.erase k).values = d.values.filter (key · ≠ k) := rfl

@[simp] theorem mem_erase : v ∈ d.erase k ↔ v ∈ d ∧ key v ≠ k := by
  simp [erase]

theorem erase_of_not_mem (h : ∀ v ∈ d, key v ≠ k) : d.erase k = d :=
  filter_eq_self fun v hv => by simpa using h v hv

theorem values_insert : (d.insert v).values = if d.contains (key v) then
    d.values.map fun w => if key w = key v then v else w else d.values ++ [v] := rfl

theorem values_insert_of_new (h : ∀ w ∈ d, key w ≠ key v) :
    (d.insert v).values = d.values ++ [v] := by
  refine if_neg fun hc => ?_
  obtain ⟨w, hw, hkey⟩ := contains_iff.mp hc
  exact h w hw hkey

theorem length_erase_le : (d.erase k).length ≤ d.length := length_filter_le

@[simp] theorem mem_insert : w ∈ d.insert v ↔ w = v ∨ w ∈ d ∧ key w ≠ key v := by
  rw [← mem_values]
  by_cases h : ∃ u ∈ d, key u = key v
  · rw [values_insert, if_pos (contains_iff.mpr h), List.mem_map]
    constructor
    · rintro ⟨u, hu, rfl⟩
      by_cases hk : key u = key v
      · exact .inl (if_pos hk)
      · exact .inr (by rw [if_neg hk]; exact ⟨hu, hk⟩)
    · rintro (rfl | ⟨hw, hk⟩)
      · obtain ⟨u, hu, hkey⟩ := h
        exact ⟨u, hu, if_pos hkey⟩
      · exact ⟨w, hw, if_neg hk⟩
  · push Not at h
    rw [values_insert_of_new h, List.mem_append, List.mem_singleton, mem_values, or_comm]
    exact or_congr_right ⟨fun hw => ⟨hw, h w hw⟩, fun hw => hw.1⟩

theorem mem_insert_self : v ∈ d.insert v := mem_insert.mpr (.inl rfl)

/-- What is found after an insertion. -/
theorem find?_insert : (d.insert v).find? k = if key v = k then some v else d.find? k := by
  split
  · rename_i h
    exact find?_eq_some.mpr ⟨mem_insert_self, h⟩
  · rename_i h
    rcases hf : d.find? k with _ | w
    · rw [find?_eq_none] at hf ⊢
      intro w hw
      rcases mem_insert.mp hw with rfl | ⟨hold, -⟩
      · exact h
      · exact hf w hold
    · obtain ⟨hw, rfl⟩ := find?_eq_some.mp hf
      exact find?_eq_some.mpr ⟨mem_insert.mpr (.inr ⟨hw, Ne.symm h⟩), rfl⟩

theorem length_insert_of_new (h : ∀ w ∈ d, key w ≠ key v) :
    (d.insert v).length = d.length + 1 := by
  rw [length, values_insert_of_new h, List.length_append]
  rfl

/-- One entry, and those under other keys. -/
theorem perm_cons_erase {e : Keyed key} (hkey : key v = k)
    (h : ∀ w, w ∈ e ↔ w = v ∨ w ∈ d ∧ key w ≠ k) : e.values.Perm (v :: (d.erase k).values) := by
  have hnot : v ∉ (d.erase k).values := fun hmem => (mem_erase.mp hmem).2 hkey
  refine (List.perm_ext_iff_of_nodup e.nodup_values
    (List.nodup_cons.mpr ⟨hnot, (d.erase k).nodup_values⟩)).mpr fun w => ?_
  rw [List.mem_cons, mem_values, mem_values, mem_erase]
  exact h w

/-- The entry under a key, and the others. -/
theorem perm_of_find? (h : d.find? k = some v) : d.values.Perm (v :: (d.erase k).values) := by
  obtain ⟨hv, hkey⟩ := find?_eq_some.mp h
  refine perm_cons_erase hkey fun w => ⟨fun hw => ?_, ?_⟩
  · by_cases hk : key w = k
    · exact Or.inl (eq_of_key hw hv (hk.trans hkey.symm))
    · exact Or.inr ⟨hw, hk⟩
  · rintro (rfl | ⟨hw, -⟩)
    · exact hv
    · exact hw

/-- An entry that is assigned, and the others. -/
theorem insert_perm (d : Keyed key) (v : ν) :
    (d.insert v).values.Perm (v :: (d.erase (key v)).values) :=
  perm_cons_erase rfl fun _ => mem_insert

/-- A new entry that is deleted again leaves no trace. -/
theorem erase_insert_of_new (h : ∀ w ∈ d, key w ≠ key v) : (d.insert v).erase (key v) = d := by
  refine Keyed.ext ?_
  have hkeep : d.values.filter (fun w => decide (key w ≠ key v)) = d.values :=
    List.filter_eq_self.mpr fun w hw => by simpa using h w hw
  rw [values_erase, values_insert_of_new h, List.filter_append, hkeep]
  simp

/-! ### A change of values that is not looked at -/

section Map

variable {f g : ν → ν} {hf : ∀ v, key (f v) = key v} {hg : ∀ v, key (g v) = key v}

omit [DecidableEq κ] in
theorem filter_map (hp : ∀ v, p (f v) = p v) : (d.map f hf).filter p = (d.filter p).map f hf := by
  have hcomp : p ∘ f = p := funext hp
  ext1
  show (d.values.map f).filter p = (d.values.filter p).map f
  rw [List.filter_map, hcomp]

omit [DecidableEq κ] in
theorem map_comm (h : ∀ v, g (f v) = f (g v)) : (d.map f hf).map g hg = (d.map g hg).map f hf := by
  ext1
  show (d.values.map f).map g = (d.values.map g).map f
  rw [List.map_map, List.map_map]
  exact List.map_congr_left fun v _ => h v

theorem contains_map : (d.map f hf).contains k = d.contains k := by
  show (d.values.map f).any _ = d.values.any _
  rw [List.any_map]
  congr 1
  funext v
  show decide (key (f v) = k) = _
  rw [hf]

theorem erase_map : (d.map f hf).erase k = (d.erase k).map f hf :=
  filter_map fun v => by rw [hf]

theorem insert_map : (d.map f hf).insert (f v) = (d.insert v).map f hf := by
  ext1
  show (if (d.map f hf).contains (key (f v)) then
      (d.values.map f).map fun w => if key w = key (f v) then f v else w
      else d.values.map f ++ [f v]) =
    (if d.contains (key v) then d.values.map fun w => if key w = key v then v else w
      else d.values ++ [v]).map f
  rw [contains_map, hf]
  split_ifs
  · rw [List.map_map, List.map_map]
    refine List.map_congr_left fun w _ => ?_
    show (if key (f w) = key v then f v else f w) = f (if key w = key v then v else w)
    rw [hf, apply_ite f]
  · rw [List.map_append, List.map_singleton]

end Map

@[simp] theorem mem_moveToEnd : v ∈ d.moveToEnd k ↔ v ∈ d := by
  rw [← mem_values, moveToEnd, List.mem_append, List.mem_filter, List.mem_filter]
  by_cases h : key v = k
  · simp [h, mem_values]
  · simp [h, mem_values]

end Keyed

/-! ### Plain dictionaries -/

/-- A dictionary whose keys are not part of its values. -/
abbrev Mapping (κ ν : Type) := Keyed (Prod.fst : κ × ν → κ)

namespace Mapping

variable {κ ν : Type} {m : Mapping κ ν} {k : κ} {v : ν}

/-- The keys. -/
def keys (m : Mapping κ ν) : List κ := m.values.map Prod.fst

theorem length_keys : m.keys.length = m.length := List.length_map _

variable [DecidableEq κ]

/-- `m.get(k)`. -/
def get (m : Mapping κ ν) (k : κ) : Option ν := (m.find? k).map Prod.snd

theorem get_eq_some : m.get k = some v ↔ (k, v) ∈ m := by
  rw [get, Option.map_eq_some_iff]
  constructor
  · rintro ⟨⟨k', v'⟩, hfind, rfl⟩
    obtain ⟨hmem, rfl⟩ := Keyed.find?_eq_some.mp hfind
    exact hmem
  · exact fun hmem => ⟨(k, v), Keyed.find?_eq_some.mpr ⟨hmem, rfl⟩, rfl⟩

theorem get_insert {k' : κ} :
    Mapping.get (m.insert (k', v)) k = if k' = k then some v else m.get k := by
  rw [get, Keyed.find?_insert]
  split_ifs
  · rfl
  · rfl

theorem mem_keys_of_get (h : (m.get k).isSome = true) : k ∈ m.keys := by
  obtain ⟨v, hv⟩ := Option.isSome_iff_exists.mp h
  exact List.mem_map_of_mem (get_eq_some.mp hv)

end Mapping

end Foundation
