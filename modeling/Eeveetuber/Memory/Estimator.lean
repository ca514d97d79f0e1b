import Eeveetuber.Foundation.Utf8

/-!
# Counting tokens

A `Eeveetuber.Memory.TokenEstimator` counts the tokens of a text and cuts a text down to a
number of them. The default one counts four bytes of UTF-8 for a token; what it cuts a text down
to is `Eeveetuber.Memory.Utf8HeuristicTokenEstimator.Truncation`: **the text itself when it is
within the number, and else the longest beginning of so many bytes, stripped on the right**
(`Eeveetuber.Memory.Utf8HeuristicTokenEstimator.truncation_truncate`).
-/

namespace Eeveetuber.Memory

open Foundation

/-- What counts tokens. -/
structure TokenEstimator where
  estimate : Text → ℕ
  truncate : Text → ℕ → Text

/-- An estimator that cuts a text down to what it was asked for. -/
def TokenEstimator.Bounded (estimator : TokenEstimator) : Prop :=
  ∀ text maxTokens, estimator.estimate (estimator.truncate text maxTokens) ≤ maxTokens

/-- An estimator that cuts a text down to a beginning of it. -/
def TokenEstimator.Cutting (estimator : TokenEstimator) : Prop :=
  ∀ text maxTokens, estimator.truncate text maxTokens <+: text

namespace Utf8HeuristicTokenEstimator

def bytesPerToken : ℕ := 4

def estimate (text : Text) : ℕ :=
  if text = [] then 0
  else ((encodeUtf8 text).length + bytesPerToken - 1) / bytesPerToken

/-- The first of the bytes that are a text, at most `n` of them. -/
def decodeMost (encoded : Bytes) : ℕ → Text
  | 0 => []
  | n + 1 =>
    match decodeUtf8 (encoded.take (n + 1)) with
    | some result => result
    | none => decodeMost encoded n

/-- The first of the characters that are within the tokens, at most `n` of them. -/
def shorten (result : Text) (maxTokens : ℕ) : ℕ → Text
  | 0 => []
  | n + 1 =>
    if maxTokens < estimate (result.take (n + 1)) then shorten result maxTokens n
    else result.take (n + 1)

def truncate (text : Text) (maxTokens : ℕ) : Text :=
  if maxTokens ≤ 0 then []
  else if estimate text ≤ maxTokens then text
  else
    let byteLimit := maxTokens * bytesPerToken
    let encoded := (encodeUtf8 text).take byteLimit
    let result := decodeMost encoded encoded.length
    rstrip (shorten result maxTokens result.length)

variable {s t result : Text} {encoded : Bytes} {maxTokens : ℕ}

@[simp] theorem estimate_nil : estimate [] = 0 := rfl

/-- A beginning of a text has no more tokens. -/
theorem estimate_le_of_isPrefix (h : s <+: t) : estimate s ≤ estimate t := by
  by_cases hs : s = []
  · rw [hs]
    exact Nat.zero_le _
  · have ht : t ≠ [] := fun hnil => hs (List.prefix_nil.mp (hnil ▸ h))
    rw [estimate, estimate, if_neg hs, if_neg ht]
    refine Nat.div_le_div_right (Nat.sub_le_sub_right (Nat.add_le_add_right ?_ _) _)
    obtain ⟨rest, rfl⟩ := h
    rw [encodeUtf8_append, List.length_append]
    exact Nat.le_add_right _ _

theorem encodeUtf8_decodeMost (encoded : Bytes) (n : ℕ) :
    encodeUtf8 (decodeMost encoded n) <+: encoded := by
  induction n with
  | zero => exact List.nil_prefix
  | succ n ih =>
    rw [decodeMost]
    split
    · rename_i result h
      rw [decodeUtf8_eq_some.mp h]
      exact List.take_prefix _ _
    · exact ih

theorem shorten_isPrefix (result : Text) (maxTokens n : ℕ) :
    shorten result maxTokens n <+: result := by
  induction n with
  | zero => exact List.nil_prefix
  | succ n ih =>
    rw [shorten]
    split
    · exact ih
    · exact List.take_prefix _ _

theorem estimate_shorten_le (result : Text) (maxTokens n : ℕ) :
    estimate (shorten result maxTokens n) ≤ maxTokens := by
  induction n with
  | zero => exact Nat.zero_le _
  | succ n ih =>
    rw [shorten]
    split
    · exact ih
    · rename_i h
      exact not_lt.mp h

/-- **What is kept is a beginning of the text.** -/
theorem truncate_isPrefix (text : Text) (maxTokens : ℕ) : truncate text maxTokens <+: text := by
  rw [truncate]
  split_ifs
  · exact List.nil_prefix
  · exact List.prefix_rfl
  · refine (rstrip_isPrefix _).trans ((shorten_isPrefix _ _ _).trans (isPrefix_of_encodeUtf8 ?_))
    exact (encodeUtf8_decodeMost _ _).trans (List.take_prefix _ _)

/-- **What is kept is within the tokens.** -/
theorem estimate_truncate_le (text : Text) (maxTokens : ℕ) :
    estimate (truncate text maxTokens) ≤ maxTokens := by
  rw [truncate]
  split_ifs with hpos hfits
  · exact Nat.zero_le _
  · exact hfits
  · exact (estimate_le_of_isPrefix (rstrip_isPrefix _)).trans (estimate_shorten_le _ _ _)

/-! ### What is left of a text -/

theorem estimate_le_iff {n : ℕ} :
    estimate text ≤ n ↔ (encodeUtf8 text).length ≤ bytesPerToken * n := by
  by_cases h : text = []
  · simp [h]
  · rw [estimate, if_neg h, bytesPerToken]
    omega

/-- The decoded bytes are as many as can be decoded. -/
theorem le_length_decodeMost {m : ℕ} (hm : encodeUtf8 s = encoded.take m)
    (hlen : m ≤ encoded.length) (n : ℕ) (h : m ≤ n) (hn : n ≤ encoded.length) :
    m ≤ (encodeUtf8 (decodeMost encoded n)).length := by
  induction n with
  | zero =>
    rw [Nat.le_zero.mp h]
    exact Nat.zero_le _
  | succ n ih =>
    rw [decodeMost]
    split
    · rename_i result hresult
      rw [decodeUtf8_eq_some.mp hresult, List.length_take]
      exact le_min h hlen
    · rename_i hnone
      refine ih (Nat.lt_succ_iff.mp (lt_of_le_of_ne h ?_)) (Nat.le_of_succ_le hn)
      rintro rfl
      rw [decodeUtf8_eq_some.mpr hm] at hnone
      contradiction

/-- A text shows something in so many tokens: all of it fits, or a beginning that is not blank. -/
def Shows (maxTokens : ℕ) (text : Text) : Prop :=
  (encodeUtf8 text).length ≤ bytesPerToken * maxTokens ∨
    ∃ beginning, beginning <+: text ∧ isBlank beginning = false ∧
      (encodeUtf8 beginning).length ≤ bytesPerToken * maxTokens

theorem Shows.mono {n : ℕ} (h : Shows maxTokens text) (hle : maxTokens ≤ n) : Shows n text := by
  have hbytes := Nat.mul_le_mul_left bytesPerToken hle
  rcases h with h | ⟨beginning, hstarts, hblank, h⟩
  · exact Or.inl (h.trans hbytes)
  · exact Or.inr ⟨beginning, hstarts, hblank, h.trans hbytes⟩

/-- The characters that are whole among the first bytes of a text. -/
def kept (text : Text) (maxTokens : ℕ) : Text :=
  decodeMost ((encodeUtf8 text).take (maxTokens * bytesPerToken))
    ((encodeUtf8 text).take (maxTokens * bytesPerToken)).length

theorem encodeUtf8_kept (text : Text) (maxTokens : ℕ) :
    encodeUtf8 (kept text maxTokens) <+: (encodeUtf8 text).take (maxTokens * bytesPerToken) :=
  encodeUtf8_decodeMost _ _

theorem kept_isPrefix (text : Text) (maxTokens : ℕ) : kept text maxTokens <+: text :=
  isPrefix_of_encodeUtf8 ((encodeUtf8_kept _ _).trans (List.take_prefix _ _))

theorem length_kept_le (text : Text) (maxTokens : ℕ) :
    (encodeUtf8 (kept text maxTokens)).length ≤ bytesPerToken * maxTokens := by
  have hle := (encodeUtf8_kept text maxTokens).length_le
  rw [List.length_take, Nat.mul_comm] at hle
  exact hle.trans (min_le_left _ _)

/-- **No beginning of so many bytes is longer.** -/
theorem isPrefix_kept (hs : s <+: text)
    (hlen : (encodeUtf8 s).length ≤ bytesPerToken * maxTokens) : s <+: kept text maxTokens := by
  obtain ⟨rest, rfl⟩ := hs
  rw [Nat.mul_comm] at hlen
  have htake : encodeUtf8 s =
      ((encodeUtf8 (s ++ rest)).take (maxTokens * bytesPerToken)).take (encodeUtf8 s).length := by
    rw [List.take_take, Nat.min_eq_left hlen, encodeUtf8_append, List.take_left]
  have hle : (encodeUtf8 s).length ≤
      ((encodeUtf8 (s ++ rest)).take (maxTokens * bytesPerToken)).length := by
    rw [List.length_take, encodeUtf8_append, List.length_append]
    exact le_min hlen (Nat.le_add_right _ _)
  exact isPrefix_of_length_encodeUtf8_le (List.prefix_append _ _) (kept_isPrefix _ _)
    (le_length_decodeMost htake hle _ hle le_rfl)

theorem shorten_of_estimate_le (h : estimate result ≤ maxTokens) :
    shorten result maxTokens result.length = result := by
  rcases hlen : result.length with _ | n
  · rw [List.length_eq_zero_iff.mp hlen]
    rfl
  · rw [shorten, ← hlen, List.take_length, if_neg (not_lt.mpr h)]

/-- What is kept is stripped on the right. -/
theorem truncate_eq_rstrip (hexceeds : maxTokens < estimate text) :
    truncate text maxTokens = rstrip (kept text maxTokens) := by
  rw [truncate, if_neg (not_le.mpr hexceeds)]
  split_ifs with hpos
  · rw [Nat.le_zero.mp hpos]
    simp [kept, decodeMost, rstrip]
  · exact congrArg rstrip (shorten_of_estimate_le (estimate_le_iff.mpr (length_kept_le _ _)))

/-- **When something is left of a text that is cut down**: when a character that is not white
space is among the bytes that are kept. -/
theorem truncate_ne_nil_iff (hexceeds : maxTokens < estimate text) :
    truncate text maxTokens ≠ [] ↔ Shows maxTokens text := by
  have hfits : ¬(encodeUtf8 text).length ≤ bytesPerToken * maxTokens := by
    rw [← estimate_le_iff]
    exact not_le.mpr hexceeds
  rw [truncate_eq_rstrip hexceeds, Ne, rstrip_eq_nil_iff, Bool.not_eq_true, Shows,
    or_iff_right hfits]
  constructor
  · intro hblank
    exact ⟨_, kept_isPrefix _ _, hblank, length_kept_le _ _⟩
  · rintro ⟨beginning, hstarts, hblank, hlen⟩
    rw [Bool.eq_false_iff] at hblank ⊢
    exact fun h => hblank (isBlank_of_isPrefix (isPrefix_kept hstarts hlen) h)

/-! ### The longest beginning -/

/-- The longest beginning of a text that has at most so many bytes. -/
structure IsLongest (text : Text) (byteLimit : ℕ) (s : Text) : Prop where
  isPrefix : s <+: text
  fits : (encodeUtf8 s).length ≤ byteLimit
  longest : ∀ t, t <+: text → (encodeUtf8 t).length ≤ byteLimit → t.length ≤ s.length

/-- There is only one. -/
theorem IsLongest.unique {byteLimit : ℕ} (hs : IsLongest text byteLimit s)
    (ht : IsLongest text byteLimit t) : s = t := by
  have hlength : s.length = t.length :=
    le_antisymm (ht.longest s hs.isPrefix hs.fits) (hs.longest t ht.isPrefix ht.fits)
  exact (List.prefix_of_prefix_length_le hs.isPrefix ht.isPrefix hlength.le).eq_of_length hlength

/-- **The bytes that are dropped are those of one cut character**: what can be decoded is the
longest beginning. -/
theorem isLongest_kept (text : Text) (maxTokens : ℕ) :
    IsLongest text (bytesPerToken * maxTokens) (kept text maxTokens) where
  isPrefix := kept_isPrefix text maxTokens
  fits := length_kept_le text maxTokens
  longest _ ht hfits := (isPrefix_kept ht hfits).length_le

theorem truncate_of_estimate_le (h : estimate text ≤ maxTokens) :
    truncate text maxTokens = text := by
  rw [truncate]
  split_ifs with hpos
  · -- without tokens only the empty text is whole
    have hbytes := estimate_le_iff.mp (h.trans hpos)
    rw [Nat.mul_zero, Nat.le_zero, List.length_eq_zero_iff] at hbytes
    exact (encodeUtf8_eq_nil.mp hbytes).symm
  · rfl

/-- A text cut down to a number of tokens. -/
structure Truncation (text : Text) (maxTokens : ℕ) (result : Text) : Prop where
  whole : estimate text ≤ maxTokens → result = text
  cut : maxTokens < estimate text →
    ∃ s, IsLongest text (bytesPerToken * maxTokens) s ∧ result = rstrip s
  isPrefix : result <+: text
  fits : estimate result ≤ maxTokens
  again : truncate result maxTokens = result

/-- **What a text is cut down to.** -/
theorem truncation_truncate (text : Text) (maxTokens : ℕ) :
    Truncation text maxTokens (truncate text maxTokens) where
  whole := truncate_of_estimate_le
  cut hexceeds := ⟨_, isLongest_kept text maxTokens, truncate_eq_rstrip hexceeds⟩
  isPrefix := truncate_isPrefix text maxTokens
  fits := estimate_truncate_le text maxTokens
  again := truncate_of_estimate_le (estimate_truncate_le text maxTokens)

end Utf8HeuristicTokenEstimator

/-- The estimator that is used when no other is given. -/
def Utf8HeuristicTokenEstimator : TokenEstimator where
  estimate := Utf8HeuristicTokenEstimator.estimate
  truncate := Utf8HeuristicTokenEstimator.truncate

theorem Utf8HeuristicTokenEstimator.bounded : Utf8HeuristicTokenEstimator.Bounded :=
  Utf8HeuristicTokenEstimator.estimate_truncate_le

theorem Utf8HeuristicTokenEstimator.cutting : Utf8HeuristicTokenEstimator.Cutting :=
  Utf8HeuristicTokenEstimator.truncate_isPrefix

/-- A character of more than one byte is not cut through. -/
example : Utf8HeuristicTokenEstimator.truncate "aé水x é".toList 1 = "aé".toList := by decide +kernel

end Eeveetuber.Memory
