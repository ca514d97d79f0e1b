import Mathlib.Algebra.BigOperators.Group.List.Basic
import Mathlib.Algebra.GroupWithZero.Nat
import Mathlib.Data.List.Infix
import Eeveetuber.Foundation.JsonText

/-!
# Tags in a text

An element is delimited by a tag that opens it and a tag that closes it. A tag is the sign `<`,
for a closing one `/`, and the name of the element, up to a character that ends the name:
`Foundation.Tag.count` counts the places of a text where there is one. Counts add up wherever
no tag can reach over the place where two texts meet (`Foundation.Tag.Separates`).

Written in JSON, a string keeps its tags, but for those whose name is ended by a character
that is escaped: that is `Foundation.Tag.count_jsonString`, and **nothing else protects a
delimiter from the data it delimits**.
-/

namespace Foundation

/-- What the name of an element is made of. -/
def isNameChar (c : Char) : Bool := c.isAlpha || c == '_'

/-- An element, by its name. -/
structure Element where
  name : Text
  name_chars : ∀ c ∈ name, isNameChar c = true := by decide

/-- A tag of an element. -/
structure Tag where
  element : Element
  closing : Bool

/-- The characters that end the name in a tag: the space, the signs `>` and `/`, and the control
characters that are white space. -/
def tagEnds : Text := [' ', '>', '/', '\t', '\n', '\r', Char.ofNat 12]

/-- Those of them that a string of JSON has as they are. -/
def plainTagEnds : Text := [' ', '>', '/']

namespace Tag

/-- The tag without the character that ends its name. -/
def stem (tag : Tag) : Text := '<' :: ((if tag.closing then ['/'] else []) ++ tag.element.name)

/-- Whether a text begins with a tag. -/
def startsAt (tag : Tag) (ends t : Text) : Bool :=
  tag.stem.isPrefixOf t && (t.drop tag.stem.length).head?.any (ends.contains ·)

/-- The number of places where a text has a tag. -/
def count (tag : Tag) (ends : Text) : Text → ℕ
  | [] => 0
  | c :: t => (tag.startsAt ends (c :: t)).toNat + tag.count ends t

variable {tag : Tag} {ends s t : Text} {c : Char}

/-! ### Where a tag can be -/

theorem startsAt_iff : tag.startsAt ends t = true ↔ ∃ e ∈ ends, tag.stem ++ [e] <+: t := by
  rw [startsAt, Bool.and_eq_true, List.isPrefixOf_iff_prefix]
  constructor
  · rintro ⟨⟨u, rfl⟩, hend⟩
    rw [List.drop_left, Option.any_eq_true] at hend
    obtain ⟨e, he, hmem⟩ := hend
    obtain ⟨u, rfl⟩ := List.head?_eq_some_iff.mp he
    exact ⟨e, List.contains_iff_mem.mp hmem, u, by simp⟩
  · rintro ⟨e, he, u, rfl⟩
    rw [List.append_assoc, List.drop_left]
    exact ⟨⟨_, rfl⟩, by simpa using he⟩

theorem startsAt_append (h : tag.startsAt ends s = true) :
    tag.startsAt ends (s ++ t) = true := by
  obtain ⟨e, he, hbegin⟩ := startsAt_iff.mp h
  exact startsAt_iff.mpr ⟨e, he, hbegin.trans (List.prefix_append s t)⟩

theorem mem_stem (h : c ∈ tag.stem) : c = '<' ∨ c = '/' ∨ isNameChar c = true := by
  rw [stem, List.mem_cons, List.mem_append] at h
  refine h.imp_right fun h => h.imp (fun h => ?_) (tag.element.name_chars c)
  split_ifs at h
  · exact List.mem_singleton.mp h
  · cases h

theorem not_mem_stem (h : c ≠ '<' ∧ c ≠ '/' ∧ isNameChar c = false) : c ∉ tag.stem := by
  intro hmem
  rcases mem_stem hmem with hc | hc | hc
  · exact h.1 hc
  · exact h.2.1 hc
  · exact Bool.false_ne_true (h.2.2.symm.trans hc)

theorem not_startsAt_of_ne (h : c ≠ '<') : tag.startsAt ends (c :: t) = false := by
  rw [← Bool.not_eq_true, startsAt_iff]
  rintro ⟨e, -, u, hu⟩
  exact h (List.cons.inj hu).1.symm

theorem count_cons_of_ne (h : c ≠ '<') : tag.count ends (c :: t) = tag.count ends t := by
  rw [count, not_startsAt_of_ne h, Bool.toNat_false, Nat.zero_add]

/-! ### Texts that are put together -/

/-- No tag begins in a text and reaches beyond it, whatever comes after. -/
def Separates (tag : Tag) (ends s : Text) : Prop :=
  ∀ t, tag.count ends (s ++ t) = tag.count ends s + tag.count ends t

/-- **Counts add up** when a tag that begins before the place where two texts meet ends
before it, too. -/
theorem count_append (h : ∀ v, v <:+ s → v ≠ [] → tag.startsAt ends (v ++ t) = true →
    tag.startsAt ends v = true) :
    tag.count ends (s ++ t) = tag.count ends s + tag.count ends t := by
  induction s with
  | nil => exact (Nat.zero_add _).symm
  | cons c s ih =>
    have hhead : tag.startsAt ends (c :: s ++ t) = tag.startsAt ends (c :: s) :=
      Bool.eq_iff_iff.mpr
        ⟨h (c :: s) List.suffix_rfl (List.cons_ne_nil c s), startsAt_append⟩
    rw [List.cons_append] at hhead ⊢
    rw [count, count, hhead, ih fun v hv => h v (hv.trans (List.suffix_cons c s)), Nat.add_assoc]

/-- A character that no tag has, or that only ends one. -/
theorem separates_concat (h : c ∉ tag.stem) : tag.Separates ends (s ++ [c]) := by
  intro t
  refine count_append fun v hv hne hstarts => ?_
  obtain ⟨e, he, hbegin⟩ := startsAt_iff.mp hstarts
  have hlast : c ∈ v := by
    obtain ⟨u, hu⟩ := hv
    have hsplit := List.dropLast_append_getLast hne
    rw [← hsplit, ← List.append_assoc] at hu
    have hc := (List.append_inj' hu rfl).2
    exact List.singleton_inj.mp hc ▸ List.getLast_mem hne
  obtain hle | hlt := Nat.lt_or_ge tag.stem.length v.length
  · refine startsAt_iff.mpr ⟨e, he, List.prefix_of_prefix_length_le hbegin
      (List.prefix_append v t) ?_⟩
    rw [List.length_append, List.length_singleton]
    exact hle
  · -- the text is in the stem, and so is its last character
    have hstem := List.prefix_of_prefix_length_le (List.prefix_append v t)
      ((List.prefix_append _ _).trans hbegin) hlt
    exact absurd (hstem.subset hlast) h

theorem separates_of_getLast (h : s.getLast? = some c) (hc : c ∉ tag.stem) :
    tag.Separates ends s := by
  obtain ⟨u, rfl⟩ := List.getLast?_eq_some_iff.mp h
  exact separates_concat hc

theorem Separates.append (hs : tag.Separates ends s) (ht : tag.Separates ends t) :
    tag.Separates ends (s ++ t) := by
  intro u
  rw [List.append_assoc, hs, ht, hs, Nat.add_assoc]

/-- A text without the sign a tag begins with. -/
theorem count_of_not_mem (h : '<' ∉ s) : tag.count ends s = 0 := by
  induction s with
  | nil => rfl
  | cons c s ih =>
    rw [List.mem_cons, not_or] at h
    rw [count_cons_of_ne (Ne.symm h.1), ih h.2]

theorem separates_of_not_mem (h : '<' ∉ s) : tag.Separates ends s := by
  intro t
  induction s with
  | nil => exact (Nat.zero_add _).symm
  | cons c s ih =>
    rw [List.mem_cons, not_or] at h
    rw [List.cons_append, count_cons_of_ne (Ne.symm h.1), count_cons_of_ne (Ne.symm h.1), ih h.2]

/-- A character that is in no tag. -/
theorem count_append_cons (hstem : c ∉ tag.stem) (hends : c ∉ ends) :
    tag.count ends (s ++ c :: t) = tag.count ends s + tag.count ends t := by
  have hc : c ≠ '<' := fun h => hstem (h ▸ List.mem_cons_self)
  rw [count_append, count_cons_of_ne hc]
  intro v _ _ hstarts
  obtain ⟨e, he, hbegin⟩ := startsAt_iff.mp hstarts
  refine startsAt_iff.mpr ⟨e, he, ?_⟩
  obtain hle | hlt := Nat.lt_or_ge v.length (tag.stem ++ [e]).length
  · -- the tag would have the character
    have hc : v ++ [c] <+: v ++ c :: t := ⟨t, List.append_assoc v [c] t⟩
    have hmem : v ++ [c] <+: tag.stem ++ [e] := by
      refine List.prefix_of_prefix_length_le hc hbegin ?_
      rwa [List.length_append]
    rcases List.mem_append.mp (hmem.subset (List.mem_append_right v (List.mem_singleton_self c)))
      with h | h
    · exact absurd h hstem
    · exact absurd (List.mem_singleton.mp h ▸ he) hends
  · exact List.prefix_of_prefix_length_le hbegin (List.prefix_append v _) hlt

/-- Texts with a separator. -/
theorem count_intercalate {sep : Text} (hsep : '<' ∉ sep) (texts : List Text)
    (h : ∀ s ∈ texts, tag.Separates ends s) :
    tag.count ends (sep.intercalate texts) = (texts.map (tag.count ends)).sum := by
  induction texts with
  | nil => rfl
  | cons s texts ih =>
    rcases texts with _ | ⟨s', texts⟩
    · rw [List.intercalate_singleton]
      simp
    · rw [List.intercalate_cons_cons, List.append_assoc, h s List.mem_cons_self,
        separates_of_not_mem hsep, count_of_not_mem hsep, Nat.zero_add,
        ih fun s hs => h s (List.mem_cons_of_mem _ hs)]
      rfl

theorem separates_intercalate {sep : Text} (hsep : '<' ∉ sep) (texts : List Text)
    (h : ∀ s ∈ texts, tag.Separates ends s) : tag.Separates ends (sep.intercalate texts) := by
  induction texts with
  | nil => exact separates_of_not_mem List.not_mem_nil
  | cons s texts ih =>
    have hs := h s List.mem_cons_self
    rcases texts with _ | ⟨s', texts⟩
    · rwa [List.intercalate_singleton]
    · rw [List.intercalate_cons_cons]
      exact (hs.append (separates_of_not_mem hsep)).append
        (ih fun s hs => h s (List.mem_cons_of_mem _ hs))

/-- A part of a text has no more tags. -/
theorem count_le_of_isInfix (h : s <:+: t) : tag.count ends s ≤ tag.count ends t := by
  obtain ⟨u, v, rfl⟩ := h
  rw [List.append_assoc]
  induction u with
  | nil =>
    rw [List.nil_append]
    induction s with
    | nil => exact Nat.zero_le _
    | cons c s ih =>
      rw [List.cons_append, count, count]
      refine Nat.add_le_add ?_ ih
      by_cases hstarts : tag.startsAt ends (c :: s) = true
      · rw [hstarts, ← List.cons_append, startsAt_append hstarts]
      · rw [eq_false_of_ne_true hstarts]
        exact Nat.zero_le _
  | cons c u ih =>
    rw [List.cons_append, count]
    exact ih.trans (Nat.le_add_left _ _)

/-! ### Texts of JSON -/

/-- A text of characters that are written as they are begins what is written of a string when
it begins the string. -/
theorem isPrefix_flatMap_jsonChar {w : Text} (hplain : ∀ d ∈ w, jsonChar d = [d] ∧ d ≠ '\\')
    (t : Text) : w <+: t.flatMap jsonChar ↔ w <+: t := by
  induction w generalizing t with
  | nil => simp
  | cons d w ih =>
    obtain ⟨hd, hbackslash⟩ := hplain d List.mem_cons_self
    rcases t with _ | ⟨c, t⟩
    · rfl
    · rw [List.flatMap_cons]
      obtain ⟨hc, -⟩ | ⟨u, hu, -⟩ := jsonChar_cases c
      · rw [hc, List.singleton_append, List.cons_prefix_cons, List.cons_prefix_cons,
          ih (fun d hd => hplain d (List.mem_cons_of_mem _ hd))]
      · refine iff_of_false ?_ ?_
        · rw [hu, List.cons_append, List.cons_prefix_cons]
          exact fun h => hbackslash h.1
        · rw [List.cons_prefix_cons]
          rintro ⟨rfl, -⟩
          exact hbackslash (List.cons.inj (hd.symm.trans hu)).1

/-- The characters of a name are written as they are. -/
theorem plain_of_isNameChar (h : isNameChar c = true) : 32 ≤ c.toNat ∧ c ≠ '"' ∧ c ≠ '\\' := by
  refine ⟨?_, ?_, ?_⟩
  · change (c.isUpper || c.isLower || c == '_') = true at h
    rw [Bool.or_eq_true, Bool.or_eq_true, beq_iff_eq] at h
    rcases h with (h | h) | rfl
    · have hle : 65 ≤ c.toNat := UInt32.le_iff_toNat_le.mp (of_decide_eq_true h).1
      omega
    · have hle : 97 ≤ c.toNat := UInt32.le_iff_toNat_le.mp
        (of_decide_eq_true (Bool.and_eq_true_iff.mp h).1)
      omega
    · decide
  · rintro rfl
    cases h
  · rintro rfl
    cases h

/-- The ends of a name that are written as they are. -/
theorem mem_plainTagEnds_iff : c ∈ plainTagEnds ↔ c ∈ tagEnds ∧ 32 ≤ c.toNat := by
  constructor
  · intro h
    simp only [plainTagEnds, List.mem_cons, List.not_mem_nil, or_false] at h
    rcases h with rfl | rfl | rfl <;> decide
  · rintro ⟨h, hle⟩
    simp only [tagEnds, List.mem_cons, List.not_mem_nil, or_false] at h
    rcases h with rfl | rfl | rfl | rfl | rfl | rfl | rfl
    all_goals first | decide | exact absurd hle (by decide)

theorem plain_of_mem_plainTagEnds (h : c ∈ plainTagEnds) :
    32 ≤ c.toNat ∧ c ≠ '"' ∧ c ≠ '\\' := by
  refine ⟨(mem_plainTagEnds_iff.mp h).2, ?_, ?_⟩
  · rintro rfl
    exact absurd h (by decide)
  · rintro rfl
    exact absurd h (by decide)

theorem startsAt_flatMap_jsonChar (t : Text) :
    tag.startsAt tagEnds (t.flatMap jsonChar) = tag.startsAt plainTagEnds t := by
  have hplain : ∀ e ∈ plainTagEnds, ∀ d ∈ tag.stem ++ [e], jsonChar d = [d] ∧ d ≠ '\\' := by
    intro e he d hd
    have hd' : 32 ≤ d.toNat ∧ d ≠ '"' ∧ d ≠ '\\' := by
      rcases List.mem_append.mp hd with hd | hd
      · rcases mem_stem hd with rfl | rfl | hname
        · decide
        · decide
        · exact plain_of_isNameChar hname
      · obtain rfl := List.mem_singleton.mp hd
        exact plain_of_mem_plainTagEnds he
    exact ⟨jsonChar_eq_singleton hd'.1 hd'.2.1 hd'.2.2, hd'.2.2⟩
  rw [Bool.eq_iff_iff, startsAt_iff, startsAt_iff]
  constructor
  · rintro ⟨e, he, hbegin⟩
    obtain ⟨c, -, hc⟩ := List.mem_flatMap.mp (hbegin.subset (List.mem_append_right _
      (List.mem_singleton_self e)))
    have he' := mem_plainTagEnds_iff.mpr ⟨he, (mem_jsonChar hc).1⟩
    exact ⟨e, he', (isPrefix_flatMap_jsonChar (hplain e he') t).mp hbegin⟩
  · rintro ⟨e, he, hbegin⟩
    exact ⟨e, (mem_plainTagEnds_iff.mp he).1,
      (isPrefix_flatMap_jsonChar (hplain e he) t).mpr hbegin⟩

theorem count_flatMap_jsonChar (t : Text) :
    tag.count tagEnds (t.flatMap jsonChar) = tag.count plainTagEnds t := by
  induction t with
  | nil => rfl
  | cons c t ih =>
    obtain ⟨hc, -⟩ | ⟨u, hu, -⟩ := jsonChar_cases c
    · rw [List.flatMap_cons, hc, List.singleton_append, count, count, ih]
      rw [← startsAt_flatMap_jsonChar (c :: t), List.flatMap_cons, hc, List.singleton_append]
    · have hsign : c ≠ '<' := by
        rintro rfl
        cases hu
      have hmem : '<' ∉ jsonChar c := fun h => hsign ((mem_jsonChar h).2 rfl)
      rw [List.flatMap_cons, separates_of_not_mem hmem, count_of_not_mem hmem, Nat.zero_add, ih,
        count_cons_of_ne hsign]

theorem quote_not_mem_stem : '"' ∉ tag.stem := not_mem_stem (by decide)

theorem separates_jsonString (t : Text) : tag.Separates ends (jsonString t) :=
  separates_concat quote_not_mem_stem

/-- **The tags of a string stay in what is written of it.** -/
theorem count_jsonString (t : Text) :
    tag.count tagEnds (jsonString t) = tag.count plainTagEnds t := by
  rw [jsonString, List.singleton_append, count_append_cons quote_not_mem_stem (by decide),
    count_cons_of_ne (by decide), count_flatMap_jsonChar]
  rfl

/-- What is written of members whose tags end in them. -/
theorem count_jsonArray (members : List Text) (h : ∀ s ∈ members, tag.Separates tagEnds s) :
    tag.count tagEnds (jsonArray members) = (members.map (tag.count tagEnds)).sum := by
  rw [jsonArray, count_append_cons (not_mem_stem (by decide)) (by decide), List.singleton_append,
    count_cons_of_ne (by decide), jsonJoin, count_intercalate (by decide) members h]
  rfl

/-- What is written of members under keys that have no tags. -/
theorem count_jsonObject (members : List (Text × Text)) (hkeys : '<' ∉ members.flatMap Prod.fst)
    (h : ∀ m ∈ members, tag.Separates tagEnds m.2) :
    tag.count tagEnds (jsonObject members) =
      (members.map fun m => tag.count tagEnds m.2).sum := by
  have hmember : ∀ m ∈ members, tag.count tagEnds (jsonString m.1 ++ [':'] ++ m.2) =
      tag.count tagEnds m.2 := by
    intro m hm
    have hkey : '<' ∉ m.1 := fun hmem => hkeys (List.mem_flatMap.mpr ⟨m, hm, hmem⟩)
    rw [List.append_assoc, separates_jsonString, count_jsonString, count_of_not_mem hkey,
      Nat.zero_add, List.singleton_append, count_cons_of_ne (by decide)]
  rw [jsonObject, count_append_cons (not_mem_stem (by decide)) (by decide),
    List.singleton_append, count_cons_of_ne (by decide), jsonJoin, count_intercalate (by decide)]
  · rw [List.map_map]
    exact congrArg List.sum (List.map_congr_left hmember)
  · intro s hs
    obtain ⟨m, hm, rfl⟩ := List.mem_map.mp hs
    exact ((separates_jsonString m.1).append (separates_of_not_mem (by decide))).append (h m hm)

theorem separates_jsonObject (members : List (Text × Text)) :
    tag.Separates ends (jsonObject members) :=
  separates_concat (not_mem_stem (by decide))

theorem separates_jsonArray (members : List Text) : tag.Separates ends (jsonArray members) :=
  separates_concat (not_mem_stem (by decide))

theorem separates_jsonOptional : ∀ t : Option Text, tag.Separates ends (jsonOptional t)
  | none => separates_of_not_mem (by decide)
  | some t => separates_jsonString t

theorem count_jsonOptional (t : Option Text) :
    tag.count tagEnds (jsonOptional t) = (t.toList.map (tag.count plainTagEnds)).sum := by
  rcases t with _ | t
  · exact count_of_not_mem (by decide)
  · rw [jsonOptional, count_jsonString]
    simp

end Tag

end Foundation
