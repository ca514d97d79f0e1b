import Eeveetuber.Domain.Events
import Eeveetuber.Foundation.Layout
import Eeveetuber.Foundation.Text

/-!
# Identifiers on the wire

An identifier is written as its sixteen bytes, or as the text of their thirty-two
hexadecimal digits. `Eeveetuber.UUID.ofBytes_eq_ok` and
`Eeveetuber.UUID.parse_text` say that both are read back.
-/

namespace Eeveetuber

open Foundation

/-! ### Hexadecimal digits -/

/-- A number in so many hexadecimal digits, as `%0{w}x` formats one that has no more. -/
def hexText : ℕ → ℕ → Text
  | 0, _ => []
  | w + 1, n => hexText w (n / 16) ++ [Nat.digitChar (n % 16)]

/-- The value of a hexadecimal digit. -/
def hexValue? (c : Char) : Option ℕ :=
  if '0'.toNat ≤ c.toNat ∧ c.toNat ≤ '9'.toNat then some (c.toNat - '0'.toNat)
  else if 'a'.toNat ≤ c.toNat ∧ c.toNat ≤ 'f'.toNat then some (c.toNat - 'a'.toNat + 10)
  else if 'A'.toNat ≤ c.toNat ∧ c.toNat ≤ 'F'.toNat then some (c.toNat - 'A'.toNat + 10)
  else none

/-- The number that some hexadecimal digits are. -/
def ofHex? (t : Text) : Option ℕ :=
  t.foldlM (fun n c => (hexValue? c).map fun digit => 16 * n + digit) 0

variable {w n : ℕ} {bs : Bytes}

@[simp] theorem length_hexText : (hexText w n).length = w := by
  induction w generalizing n with
  | zero => rfl
  | succ w ih => rw [hexText, List.length_append, ih, List.length_singleton]

theorem hexValue_digitChar : ∀ n < 16, hexValue? (Nat.digitChar n) = some n := by decide

theorem hexText_isDigit : ∀ c ∈ hexText w n, (hexValue? c).isSome = true := by
  induction w generalizing n with
  | zero => exact fun c hc => absurd hc List.not_mem_nil
  | succ w ih =>
    intro c hc
    rcases List.mem_append.mp hc with hc | hc
    · exact ih c hc
    · rw [List.mem_singleton.mp hc, hexValue_digitChar _ (Nat.mod_lt _ (by omega))]
      rfl

/-- Digits are read back. -/
theorem ofHex_hexText (w n : ℕ) : ofHex? (hexText w n) = some (n % 16 ^ w) := by
  induction w generalizing n with
  | zero => simp [hexText, ofHex?, Nat.mod_one]
  | succ w ih =>
    have hdigit := hexValue_digitChar (n % 16) (Nat.mod_lt _ (by omega))
    unfold ofHex? at ih ⊢
    rw [hexText, List.foldlM_append, ih]
    simp only [Option.bind_eq_bind, Option.bind_some, List.foldlM_cons, List.foldlM_nil, hdigit,
      Option.map_some, Option.pure_def]
    rw [pow_succ', Nat.mod_mul, add_comm]

/-- Two digits a byte. -/
theorem hexText_bigEndian (w n : ℕ) :
    hexText (2 * w) n = (bigEndian w n).flatMap fun b => hexText 2 b.toNat := by
  induction w generalizing n with
  | zero => rfl
  | succ w ih =>
    have hbyte : hexText 2 (UInt8.ofNat n).toNat =
        [Nat.digitChar (n / 16 % 16), Nat.digitChar (n % 16)] := by
      have hlow : n % 256 % 16 = n % 16 := by omega
      have hhigh : n % 256 / 16 % 16 = n / 16 % 16 := by omega
      simp only [hexText, UInt8.toNat_ofNat', Nat.reducePow, hlow, hhigh, List.nil_append,
        List.singleton_append]
    have hshift : n / 16 / 16 = n / 256 := Nat.div_div_eq_div_mul n 16 16
    rw [Nat.mul_succ, hexText, hexText, hshift, ih, bigEndian, bigEndian, littleEndian,
      List.reverse_cons, List.flatMap_append, List.flatMap_singleton, hbyte, List.append_assoc,
      List.singleton_append]

/-! ### Identifiers -/

/-- Digits in the groups of an identifier. -/
def hyphenate (hex : Text) : Text :=
  hex.take 8 ++ ['-'] ++ (hex.drop 8).take 4 ++ ['-'] ++ (hex.drop 12).take 4 ++ ['-'] ++
    (hex.drop 16).take 4 ++ ['-'] ++ hex.drop 20

/-- Without the hyphens the digits are as they were. -/
theorem filter_hyphenate {hex : Text} (h : '-' ∉ hex) :
    (hyphenate hex).filter (· ≠ '-') = hex := by
  have hkeep : ∀ t : Text, (∀ c ∈ t, c ∈ hex) → t.filter (· ≠ '-') = t := by
    intro t ht
    refine List.filter_eq_self.mpr fun c hc => ?_
    exact decide_eq_true fun heq => h (heq ▸ ht c hc)
  have hdrop : ∀ k : ℕ, (hex.drop k).filter (· ≠ '-') = hex.drop k :=
    fun k => hkeep _ fun c hc => List.mem_of_mem_drop hc
  have hgroup : ∀ k : ℕ, ((hex.drop k).take 4).filter (· ≠ '-') = (hex.drop k).take 4 :=
    fun k => hkeep _ fun c hc => List.mem_of_mem_drop (List.mem_of_mem_take hc)
  have hhyphen : ['-'].filter (· ≠ '-') = [] := by decide
  rw [hyphenate]
  simp only [List.filter_append, hdrop, hgroup, hhyphen, List.nil_append,
    hkeep (hex.take 8) fun c hc => List.mem_of_mem_take hc, List.append_assoc]
  have hnext : ∀ k m : ℕ, m = k + 4 → (hex.drop k).take 4 ++ hex.drop m = hex.drop k := by
    rintro k m rfl
    rw [← List.drop_drop, List.take_append_drop]
  rw [hnext 16 20 rfl, hnext 12 16 rfl, hnext 8 12 rfl, List.take_append_drop]

namespace UUID

/-- `uuid.bytes`. -/
def bytes (id : UUID) : Bytes := bigEndian 16 id.toNat

/-- `UUID(bytes=…)`. -/
def ofBytes (bs : Bytes) : Except String UUID := do
  raiseIf (bs.length ≠ 16) "bytes is not a 16-char string"
  return BitVec.ofNat 128 (ofBigEndian bs)

/-- `str(uuid)`. -/
def text (id : UUID) : Text := hyphenate (hexText 32 id.toNat)

/-- `UUID(…)` of a text that `str` may have made. What else `UUID` takes – braces, `urn:`,
signs and underscores – is an error here. -/
def parse (t : Text) : Except String UUID := do
  let hex := t.filter (· ≠ '-')
  raiseIf (hex.length ≠ 32) "badly formed hexadecimal UUID string"
  let value ← orRaise "invalid literal for int() with base 16" (ofHex? hex)
  return BitVec.ofNat 128 value

variable {id : UUID}

@[simp] theorem length_bytes : id.bytes.length = 16 := length_bigEndian

theorem ofBytes_eq_ok : ofBytes bs = .ok id ↔ bs = id.bytes := by
  rw [ofBytes, raiseIf_bind_eq_ok, not_not]
  constructor
  · rintro ⟨hlen, h⟩
    obtain rfl := Except.ok.inj h
    have hlt := ofBigEndian_lt bs
    rw [hlen] at hlt
    rw [bytes, BitVec.toNat_ofNat, Nat.mod_eq_of_lt (by simpa using hlt), ← hlen,
      bigEndian_ofBigEndian]
  · rintro rfl
    refine ⟨length_bytes, ?_⟩
    have hlt : id.toNat < 256 ^ 16 := by simpa using id.isLt
    rw [bytes, ofBigEndian_bigEndian hlt, BitVec.ofNat_toNat, BitVec.setWidth_eq]
    rfl

theorem not_mem_hexText : '-' ∉ hexText w n := by
  intro h
  have hdigit := hexText_isDigit _ h
  exact absurd hdigit (by decide)

/-- **An identifier is read back from its text.** -/
theorem parse_text (id : UUID) : parse id.text = .ok id := by
  have hlt : id.toNat < 16 ^ 32 := by simpa using id.isLt
  rw [parse, text, filter_hyphenate not_mem_hexText]
  refine raiseIf_bind_eq_ok.mpr
    ⟨not_not.mpr length_hexText, except_bind_eq_ok.mpr ⟨id.toNat, ?_, ?_⟩⟩
  · rw [ofHex_hexText, Nat.mod_eq_of_lt hlt]
    rfl
  · rw [BitVec.ofNat_toNat, BitVec.setWidth_eq]
    rfl

end UUID

end Eeveetuber
