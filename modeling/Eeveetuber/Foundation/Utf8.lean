import Mathlib.Data.List.Basic
import Eeveetuber.Foundation.Layout
import Eeveetuber.Foundation.Text

/-!
# UTF-8

A text as bytes, and back. The coding of one character is that of the core library;
`Foundation.decodeUtf8_eq_some` says that exactly the encodings of texts are decoded,
and `Foundation.isPrefix_of_encodeUtf8` that bytes at the beginning of a text which
are a text are one at its beginning.
-/

namespace Foundation

/-- `str.encode("utf-8")`. -/
def encodeUtf8 (t : Text) : Bytes := t.flatMap String.utf8EncodeChar

/-- `bytes.decode("utf-8")`, a character at a time and at most so many of them. -/
def decodeUtf8Chars : ℕ → Bytes → Option Text
  | _, [] => some []
  | 0, _ :: _ => none
  | n + 1, b :: bs => do
    let c ← ByteArray.utf8DecodeChar? (b :: bs).toByteArray 0
    let rest ← decodeUtf8Chars n ((b :: bs).drop c.utf8Size)
    return c :: rest

/-- `bytes.decode("utf-8")`; `none` is a `UnicodeDecodeError`. -/
def decodeUtf8 (bs : Bytes) : Option Text := decodeUtf8Chars bs.length bs

variable {c : Char} {s t : Text} {bs rest : Bytes} {n : ℕ}

@[simp] theorem encodeUtf8_nil : encodeUtf8 [] = [] := rfl

@[simp] theorem encodeUtf8_cons : encodeUtf8 (c :: t) = String.utf8EncodeChar c ++ encodeUtf8 t :=
  List.flatMap_cons

theorem encodeUtf8_append : encodeUtf8 (s ++ t) = encodeUtf8 s ++ encodeUtf8 t :=
  List.flatMap_append

/-- A character that is written is read, whatever follows. -/
theorem utf8DecodeChar_append :
    ByteArray.utf8DecodeChar? (String.utf8EncodeChar c ++ rest).toByteArray 0 = some c := by
  rw [List.toByteArray_append]
  exact ByteArray.utf8DecodeChar?_utf8EncodeChar_append

/-- A character that is read was written. -/
theorem eq_append_of_utf8DecodeChar (h : ByteArray.utf8DecodeChar? bs.toByteArray 0 = some c) :
    bs = String.utf8EncodeChar c ++ bs.drop c.utf8Size := by
  obtain ⟨rest, hrest⟩ := ByteArray.exists_of_utf8DecodeChar?_eq_some h
  have hlist : bs = String.utf8EncodeChar c ++ rest.data.toList := by
    have hdata := congrArg (fun b : ByteArray => b.data.toList) hrest
    simpa using hdata
  have hlength := String.length_utf8EncodeChar c
  conv_rhs => rw [hlist, ← hlength, List.drop_left]
  exact hlist

theorem encodeUtf8_eq_nil : encodeUtf8 t = [] ↔ t = [] := by
  rcases t with _ | ⟨c, t⟩
  · exact iff_of_true rfl rfl
  · rw [encodeUtf8_cons]
    refine iff_of_false (fun h => ?_) nofun
    exact String.utf8EncodeChar_ne_nil (List.append_eq_nil_iff.mp h).1

theorem decodeUtf8Chars_eq_some (n : ℕ) : ∀ {bs : Bytes} {t : Text}, bs.length ≤ n →
    (decodeUtf8Chars n bs = some t ↔ encodeUtf8 t = bs) := by
  induction n with
  | zero =>
    intro bs t hlen
    obtain rfl := List.length_eq_zero_iff.mp (Nat.le_zero.mp hlen)
    rw [decodeUtf8Chars, Option.some.injEq, encodeUtf8_eq_nil, eq_comm]
  | succ n ih =>
    intro bs t hlen
    rcases bs with _ | ⟨b, bs⟩
    · rw [decodeUtf8Chars, Option.some.injEq, encodeUtf8_eq_nil, eq_comm]
    · rw [decodeUtf8Chars, Option.bind_eq_bind, Option.bind_eq_some_iff]
      -- the rest is shorter, since a character is not nothing
      have hdrop : ∀ c : Char, ((b :: bs).drop c.utf8Size).length ≤ n := by
        intro c
        have hpos := c.utf8Size_pos
        rw [List.length_drop]
        omega
      constructor
      · rintro ⟨c, hc, h⟩
        obtain ⟨rest, hrest, h⟩ := Option.bind_eq_some_iff.mp h
        obtain rfl := Option.some.inj h
        rw [encodeUtf8_cons, (ih (hdrop c)).mp hrest, ← eq_append_of_utf8DecodeChar hc]
      · rintro h
        rcases t with _ | ⟨c, t⟩
        · cases h
        · rw [encodeUtf8_cons] at h
          have hrest : encodeUtf8 t = (b :: bs).drop c.utf8Size := by
            rw [← h, ← String.length_utf8EncodeChar, List.drop_left]
          refine ⟨c, by rw [← h]; exact utf8DecodeChar_append, ?_⟩
          exact Option.bind_eq_some_iff.mpr ⟨t, (ih (hdrop c)).mpr hrest, rfl⟩

/-- **What is decoded** is the encodings of texts. -/
theorem decodeUtf8_eq_some : decodeUtf8 bs = some t ↔ encodeUtf8 t = bs :=
  decodeUtf8Chars_eq_some _ le_rfl

/-- Different texts have different encodings. -/
theorem encodeUtf8_injective : Function.Injective encodeUtf8 := by
  intro s t h
  have hs : decodeUtf8 (encodeUtf8 t) = some s := decodeUtf8_eq_some.mpr h
  exact Option.some.inj (hs.symm.trans (decodeUtf8_eq_some.mpr rfl))

/-- **Whole characters at the beginning** of the bytes of a text are characters at the
beginning of the text. -/
theorem isPrefix_of_encodeUtf8 (h : encodeUtf8 s <+: encodeUtf8 t) : s <+: t := by
  induction s generalizing t with
  | nil => exact List.nil_prefix
  | cons c s ih =>
    obtain ⟨rest, hrest⟩ := h
    rcases t with _ | ⟨d, t⟩
    · rw [encodeUtf8_nil] at hrest
      exact absurd (List.append_eq_nil_iff.mp hrest).1 (by simp [encodeUtf8_eq_nil])
    · rw [encodeUtf8_cons, encodeUtf8_cons, List.append_assoc] at hrest
      have hhead := congrArg (fun bs => ByteArray.utf8DecodeChar? bs.toByteArray 0) hrest
      rw [utf8DecodeChar_append, utf8DecodeChar_append] at hhead
      obtain rfl := Option.some.inj hhead
      exact List.cons_prefix_cons.mpr ⟨rfl, ih ⟨rest, List.append_cancel_left hrest⟩⟩

/-- Of two beginnings of a text the one of more bytes begins with the other. -/
theorem isPrefix_of_length_encodeUtf8_le {u : Text} (hs : s <+: u) (ht : t <+: u)
    (h : (encodeUtf8 s).length ≤ (encodeUtf8 t).length) : s <+: t := by
  have hencode : ∀ {v : Text}, v <+: u → encodeUtf8 v <+: encodeUtf8 u := by
    rintro v ⟨rest, rfl⟩
    exact ⟨encodeUtf8 rest, encodeUtf8_append.symm⟩
  exact isPrefix_of_encodeUtf8 (List.prefix_of_prefix_length_le (hencode hs) (hencode ht) h)

end Foundation
