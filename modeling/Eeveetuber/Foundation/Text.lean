import Mathlib.Data.List.TakeWhile

/-!
# Text

A text is a list of code points. `Foundation.isSpace` is the test that the
stripping functions of Python's `str` use; the character class `\s` of its
regular expressions is the same set.
-/

namespace Foundation

/-- A text, as its code points. -/
abbrev Text := List Char

instance lawfulBEq_text : LawfulBEq Text := inferInstance

/-- The white space of Python's `str.strip`, `str.isspace` and `\s`. -/
def isSpace (c : Char) : Bool :=
  let n := c.toNat
  (9 ≤ n && n ≤ 13) || (28 ≤ n && n ≤ 32) || n == 0x85 || n == 0xa0 || n == 0x1680 ||
    (0x2000 ≤ n && n ≤ 0x200a) || n == 0x2028 || n == 0x2029 || n == 0x202f || n == 0x205f ||
    n == 0x3000

/-- A text of at least one and at most so many characters. -/
def InLength (maxLength : ℕ) (t : Text) : Prop := 1 ≤ t.length ∧ t.length ≤ maxLength
deriving Decidable

/-- `str.lstrip()`. -/
def lstrip (t : Text) : Text := t.dropWhile isSpace

/-- `str.rstrip()`. -/
def rstrip (t : Text) : Text := (t.reverse.dropWhile isSpace).reverse

/-- `str.strip()`. -/
def strip (t : Text) : Text := rstrip (lstrip t)

/-- `not text.strip()`. -/
def isBlank (t : Text) : Bool := t.all isSpace

/-- Stripping on the right keeps a beginning. -/
theorem rstrip_isPrefix (t : Text) : rstrip t <+: t := by
  have h : t.reverse.dropWhile isSpace <:+ t.reverse := List.dropWhile_suffix _
  simpa [rstrip] using List.reverse_prefix.mpr h

/-- Stripping on the right leaves nothing of what is blank, and something of all else. -/
theorem strip_isInfix (t : Text) : strip t <:+: t :=
  (rstrip_isPrefix (lstrip t)).isInfix.trans (List.dropWhile_suffix isSpace).isInfix

theorem rstrip_eq_nil_iff {t : Text} : rstrip t = [] ↔ isBlank t = true := by
  simp only [rstrip, isBlank, List.reverse_eq_nil_iff, List.dropWhile_eq_nil_iff, List.mem_reverse,
    List.all_eq_true]

theorem isBlank_of_isPrefix {s t : Text} (h : s <+: t) (ht : isBlank t = true) :
    isBlank s = true := by
  rw [isBlank, List.all_eq_true] at ht ⊢
  exact fun c hc => ht c (h.subset hc)

theorem isBlank_iff {t : Text} : isBlank t = true ↔ strip t = [] := by
  simp only [isBlank, strip, rstrip, lstrip, List.all_eq_true, List.reverse_eq_nil_iff,
    List.dropWhile_eq_nil_iff, List.mem_reverse]
  constructor
  · intro h x hx
    exact h x ((List.dropWhile_sublist _).subset hx)
  · intro h x hx
    rw [← List.takeWhile_append_dropWhile (p := isSpace) (l := t), List.mem_append] at hx
    exact hx.elim List.mem_takeWhile_imp (h x)

/-- What stripping leaves is not blank. -/
theorem isBlank_strip {t : Text} (h : strip t ≠ []) : isBlank (strip t) = false := by
  rw [Bool.eq_false_iff]
  intro hblank
  rw [strip, rstrip] at h hblank
  set left := (lstrip t).reverse.dropWhile isSpace with hleft
  have hne : left ≠ [] := by simpa using h
  have hhead : isSpace (left.head hne) = false := by
    simpa using List.head_dropWhile_not isSpace (l := (lstrip t).reverse) hne
  rw [isBlank, List.all_eq_true] at hblank
  simp [hblank _ (List.mem_reverse.mpr (List.head_mem hne))] at hhead

/-- A text that neither begins nor ends with white space is left as it is. -/
theorem strip_eq_self {t : Text} (h : t ≠ []) (hhead : isSpace (t.head h) = false)
    (hlast : isSpace (t.getLast h) = false) : strip t = t := by
  have hleft : lstrip t = t := by
    rw [lstrip, List.dropWhile_eq_self_iff]
    intro hlen
    rw [← List.head_eq_getElem (h := h), hhead]
    exact Bool.false_ne_true
  rw [strip, hleft, rstrip, List.dropWhile_eq_self_iff.mpr, List.reverse_reverse]
  intro hlen
  rw [← List.head_eq_getElem (h := by simpa using h), List.head_reverse, hlast]
  exact Bool.false_ne_true

theorem isSpace_of_isDigit {c : Char} (h : c.isDigit = true) : isSpace c = false := by
  have hval : 48 ≤ c.toNat ∧ c.toNat ≤ 57 := by
    simpa [Char.isDigit, UInt32.le_iff_toNat_le] using h
  simp only [isSpace, Bool.or_eq_false_iff, Bool.and_eq_false_iff, decide_eq_false_iff_not,
    beq_eq_false_iff_ne]
  omega

/-! ### ASCII -/

/-- `str.encode("ascii")`; `none` is a `UnicodeEncodeError`. -/
def encodeAscii (t : Text) : Option (List UInt8) :=
  if t.all fun c => c.toNat < 128 then some (t.map fun c => UInt8.ofNat c.toNat) else none

/-- `bytes.decode("ascii")`; `none` is a `UnicodeDecodeError`. -/
def decodeAscii (bs : List UInt8) : Option Text :=
  if bs.all fun b => b.toNat < 128 then some (bs.map fun b => Char.ofNat b.toNat) else none

theorem encodeAscii_eq_some {t : Text} {bs : List UInt8} :
    encodeAscii t = some bs ↔ (∀ c ∈ t, c.toNat < 128) ∧
      t.map (fun c => UInt8.ofNat c.toNat) = bs := by
  simp [encodeAscii]

theorem decodeAscii_eq_some {t : Text} {bs : List UInt8} :
    decodeAscii bs = some t ↔ (∀ b ∈ bs, b.toNat < 128) ∧
      bs.map (fun b => Char.ofNat b.toNat) = t := by
  simp [decodeAscii]

theorem length_encodeAscii {t : Text} {bs : List UInt8} (h : encodeAscii t = some bs) :
    bs.length = t.length := by
  obtain ⟨-, rfl⟩ := encodeAscii_eq_some.mp h
  exact List.length_map _

/-- What is encoded is decoded, and the other way round. -/
theorem encodeAscii_iff {t : Text} {bs : List UInt8} :
    encodeAscii t = some bs ↔ decodeAscii bs = some t := by
  rw [encodeAscii_eq_some, decodeAscii_eq_some]
  constructor
  · rintro ⟨hlt, rfl⟩
    have hbyte : ∀ c ∈ t, (UInt8.ofNat c.toNat).toNat = c.toNat := by
      intro c hc
      have := hlt c hc
      rw [UInt8.toNat_ofNat']
      omega
    refine ⟨?_, ?_⟩
    · rintro b hb
      obtain ⟨c, hc, rfl⟩ := List.mem_map.mp hb
      rw [hbyte c hc]
      exact hlt c hc
    · rw [List.map_map]
      refine (List.map_congr_left fun c hc => ?_).trans (List.map_id t)
      rw [Function.comp_apply, hbyte c hc, Char.ofNat_toNat, id]
  · rintro ⟨hlt, rfl⟩
    have hchar : ∀ b ∈ bs, (Char.ofNat b.toNat).toNat = b.toNat := by
      intro b hb
      have hvalid : b.toNat.isValidChar := .inl (by have := hlt b hb; omega)
      rw [Char.ofNat, dif_pos hvalid]
      rfl
    refine ⟨?_, ?_⟩
    · rintro c hc
      obtain ⟨b, hb, rfl⟩ := List.mem_map.mp hc
      rw [hchar b hb]
      exact hlt b hb
    · rw [List.map_map]
      refine (List.map_congr_left fun b hb => ?_).trans (List.map_id bs)
      rw [Function.comp_apply, hchar b hb, UInt8.ofNat_toNat, id]

end Foundation
