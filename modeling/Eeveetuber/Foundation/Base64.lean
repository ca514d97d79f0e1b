import Mathlib.Data.List.Basic
import Eeveetuber.Foundation.Layout
import Eeveetuber.Foundation.Text

/-!
# Base64

Three bytes are four digits of six bits; a rest of one or two bytes is padded with
`=`. `Foundation.b64decode` accepts digits in groups of four and padding in the last
group only, and `Foundation.b64decode_b64encode` says that it reads back what
`Foundation.b64encode` writes.
-/

namespace Foundation

/-- The digits, in their order. -/
def b64Alphabet : Text :=
  "ABCDEFGHIJKLMNOPQRSTUVWXYZabcdefghijklmnopqrstuvwxyz0123456789+/".toList

/-- The character of a number below 64. -/
def b64Digit (n : ℕ) : Char := b64Alphabet.getD n '='

/-- The number of a digit. -/
def b64Value? (c : Char) : Option ℕ :=
  let n := b64Alphabet.idxOf c
  if n < 64 then some n else none

/-- `base64.b64encode(…).decode("ascii")`. -/
def b64encode : Bytes → Text
  | [] => []
  | [a] => [b64Digit (a.toNat / 4), b64Digit (a.toNat % 4 * 16), '=', '=']
  | [a, b] =>
    [b64Digit (a.toNat / 4), b64Digit (a.toNat % 4 * 16 + b.toNat / 16),
      b64Digit (b.toNat % 16 * 4), '=']
  | a :: b :: c :: rest =>
    b64Digit (a.toNat / 4) :: b64Digit (a.toNat % 4 * 16 + b.toNat / 16) ::
      b64Digit (b.toNat % 16 * 4 + c.toNat / 64) :: b64Digit (c.toNat % 64) :: b64encode rest

/-- The bytes of the last group. -/
def b64Last : Text → Option Bytes
  | [p, q, '=', '='] => do
    let p ← b64Value? p
    let q ← b64Value? q
    return [UInt8.ofNat (p * 4 + q / 16)]
  | [p, q, r, '='] => do
    let p ← b64Value? p
    let q ← b64Value? q
    let r ← b64Value? r
    return [UInt8.ofNat (p * 4 + q / 16), UInt8.ofNat (q % 16 * 16 + r / 4)]
  | _ => none

/-- `base64.b64decode(…, validate=True)`; `none` is `binascii.Error`. -/
def b64decode : Text → Option Bytes
  | [] => some []
  | p :: q :: r :: s :: rest =>
    if s = '=' then b64Last (p :: q :: r :: s :: rest)
    else do
      let p ← b64Value? p
      let q ← b64Value? q
      let r ← b64Value? r
      let s ← b64Value? s
      let bytes ← b64decode rest
      return UInt8.ofNat (p * 4 + q / 16) :: UInt8.ofNat (q % 16 * 16 + r / 4) ::
        UInt8.ofNat (r % 4 * 64 + s) :: bytes
  | _ => none

theorem b64Value_b64Digit : ∀ n < 64, b64Value? (b64Digit n) = some n ∧ b64Digit n ≠ '=' := by
  decide +kernel

theorem ofNat_eq_of_toNat {n : ℕ} {a : UInt8} (h : n = a.toNat) : UInt8.ofNat n = a := by
  rw [h, UInt8.ofNat_toNat]

/-- **What is encoded is decoded.** -/
theorem b64decode_b64encode : ∀ bs : Bytes, b64decode (b64encode bs) = some bs
  | [] => rfl
  | [a] => by
    have ha : a.toNat < 256 := a.toNat_lt
    obtain ⟨hp, -⟩ := b64Value_b64Digit (a.toNat / 4) (by omega)
    obtain ⟨hq, -⟩ := b64Value_b64Digit (a.toNat % 4 * 16) (by omega)
    -- the digits put the byte together again
    have hfirst : UInt8.ofNat (a.toNat / 4 * 4 + a.toNat % 4 * 16 / 16) = a :=
      ofNat_eq_of_toNat (by omega)
    rw [b64encode, b64decode, if_pos rfl, b64Last, hp, hq]
    simp only [Option.bind_eq_bind, Option.bind_some, Option.pure_def, hfirst]
  | [a, b] => by
    have ha : a.toNat < 256 := a.toNat_lt
    have hb : b.toNat < 256 := b.toNat_lt
    obtain ⟨hp, -⟩ := b64Value_b64Digit (a.toNat / 4) (by omega)
    obtain ⟨hq, -⟩ := b64Value_b64Digit (a.toNat % 4 * 16 + b.toNat / 16) (by omega)
    obtain ⟨hr, hpad⟩ := b64Value_b64Digit (b.toNat % 16 * 4) (by omega)
    have hfirst : UInt8.ofNat (a.toNat / 4 * 4 + (a.toNat % 4 * 16 + b.toNat / 16) / 16) = a :=
      ofNat_eq_of_toNat (by omega)
    have hsecond : UInt8.ofNat ((a.toNat % 4 * 16 + b.toNat / 16) % 16 * 16 +
        b.toNat % 16 * 4 / 4) = b := ofNat_eq_of_toNat (by omega)
    rw [b64encode, b64decode, if_pos rfl, b64Last.eq_2 _ _ _ hpad, hp, hq, hr]
    simp only [Option.bind_eq_bind, Option.bind_some, Option.pure_def, hfirst, hsecond]
  | a :: b :: c :: rest => by
    have ha : a.toNat < 256 := a.toNat_lt
    have hb : b.toNat < 256 := b.toNat_lt
    have hc : c.toNat < 256 := c.toNat_lt
    obtain ⟨hp, -⟩ := b64Value_b64Digit (a.toNat / 4) (by omega)
    obtain ⟨hq, -⟩ := b64Value_b64Digit (a.toNat % 4 * 16 + b.toNat / 16) (by omega)
    obtain ⟨hr, -⟩ := b64Value_b64Digit (b.toNat % 16 * 4 + c.toNat / 64) (by omega)
    obtain ⟨hs, hpad⟩ := b64Value_b64Digit (c.toNat % 64) (by omega)
    -- the four digits put the three bytes together again
    have hfirst : UInt8.ofNat (a.toNat / 4 * 4 + (a.toNat % 4 * 16 + b.toNat / 16) / 16) = a :=
      ofNat_eq_of_toNat (by omega)
    have hsecond : UInt8.ofNat ((a.toNat % 4 * 16 + b.toNat / 16) % 16 * 16 +
        (b.toNat % 16 * 4 + c.toNat / 64) / 4) = b := ofNat_eq_of_toNat (by omega)
    have hthird : UInt8.ofNat ((b.toNat % 16 * 4 + c.toNat / 64) % 4 * 64 + c.toNat % 64) = c :=
      ofNat_eq_of_toNat (by omega)
    rw [b64encode, b64decode, if_neg hpad, hp, hq, hr, hs, b64decode_b64encode rest]
    simp only [Option.bind_eq_bind, Option.bind_some, Option.pure_def, hfirst, hsecond, hthird]

theorem b64encode_eq_nil {bs : Bytes} : b64encode bs = [] ↔ bs = [] := by
  rcases bs with _ | ⟨a, _ | ⟨b, _ | ⟨c, rest⟩⟩⟩
  · exact iff_of_true rfl rfl
  · simp [b64encode]
  · simp [b64encode]
  · simp [b64encode]

end Foundation
