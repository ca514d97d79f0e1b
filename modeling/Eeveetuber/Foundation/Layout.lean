import Mathlib.Tactic.NormNum
import Eeveetuber.Foundation.Checks

/-!
# Binary layouts

A header of a binary format is a sequence of fields of fixed widths: byte strings
and unsigned integers in network byte order. Such a sequence is a
`Foundation.Layout`, its values are a tuple, and `Foundation.Layout.pack` and
`Foundation.Layout.unpackFrom` are what Python's `struct` does with them.

Values that fit their fields are what reading gives back, whatever follows them
(`Foundation.Layout.unpackFrom_append`); and what reading gives fits, and is
written as it was read (`Foundation.Layout.pack_unpackFrom`). An integer that does
not fit is an error (`Foundation.Layout.pack_eq_ok`).
-/

namespace Foundation

/-- A byte string. -/
abbrev Bytes := List UInt8

/-! ### Integers -/

/-- A number in so many bytes, the lowest first; what is above them is cut off. -/
def littleEndian : ℕ → ℕ → Bytes
  | 0, _ => []
  | w + 1, n => UInt8.ofNat n :: littleEndian w (n / 256)

/-- The number that some bytes are, the lowest first. -/
def ofLittleEndian : Bytes → ℕ
  | [] => 0
  | b :: bs => b.toNat + 256 * ofLittleEndian bs

/-- A number in so many bytes, in network byte order. -/
def bigEndian (w n : ℕ) : Bytes := (littleEndian w n).reverse

/-- The number that some bytes are in network byte order. -/
def ofBigEndian (bs : Bytes) : ℕ := ofLittleEndian bs.reverse

variable {w n : ℕ} {bs : Bytes}

@[simp] theorem length_littleEndian : (littleEndian w n).length = w := by
  induction w generalizing n with
  | zero => rfl
  | succ w ih => rw [littleEndian, List.length_cons, ih]

@[simp] theorem length_bigEndian : (bigEndian w n).length = w := by
  rw [bigEndian, List.length_reverse, length_littleEndian]

theorem ofLittleEndian_littleEndian (w n : ℕ) :
    ofLittleEndian (littleEndian w n) = n % 256 ^ w := by
  induction w generalizing n with
  | zero => simp [littleEndian, ofLittleEndian, Nat.mod_one]
  | succ w ih =>
    have hbyte : (UInt8.ofNat n).toNat = n % 256 := UInt8.toNat_ofNat'
    rw [littleEndian, ofLittleEndian, ih, hbyte, pow_succ', Nat.mod_mul]

theorem ofLittleEndian_lt (bs : Bytes) : ofLittleEndian bs < 256 ^ bs.length := by
  induction bs with
  | nil => simp [ofLittleEndian]
  | cons b bs ih =>
    have hb : b.toNat < 256 := b.toNat_lt
    rw [ofLittleEndian, List.length_cons, pow_succ]
    omega

theorem littleEndian_ofLittleEndian (bs : Bytes) :
    littleEndian bs.length (ofLittleEndian bs) = bs := by
  induction bs with
  | nil => rfl
  | cons b bs ih =>
    have hb : b.toNat < 256 := b.toNat_lt
    have hlow : UInt8.ofNat (b.toNat + 256 * ofLittleEndian bs) = b := by
      rw [← UInt8.toNat_inj, UInt8.toNat_ofNat']
      omega
    have hhigh : (b.toNat + 256 * ofLittleEndian bs) / 256 = ofLittleEndian bs := by omega
    rw [ofLittleEndian, List.length_cons, littleEndian, hlow, hhigh, ih]

theorem ofBigEndian_bigEndian (h : n < 256 ^ w) : ofBigEndian (bigEndian w n) = n := by
  rw [ofBigEndian, bigEndian, List.reverse_reverse, ofLittleEndian_littleEndian, Nat.mod_eq_of_lt h]

theorem ofBigEndian_lt (bs : Bytes) : ofBigEndian bs < 256 ^ bs.length := by
  have h := ofLittleEndian_lt bs.reverse
  rwa [List.length_reverse] at h

theorem bigEndian_ofBigEndian (bs : Bytes) : bigEndian bs.length (ofBigEndian bs) = bs := by
  have h := littleEndian_ofLittleEndian bs.reverse
  rw [List.length_reverse] at h
  rw [bigEndian, ofBigEndian, h, List.reverse_reverse]

/-! ### Fields -/

/-- What stands in a field: so many bytes, or an unsigned integer of so many bytes. -/
inductive Field where
  | bytes (width : ℕ)
  | uint (width : ℕ)
deriving DecidableEq, Repr

namespace Field

def width : Field → ℕ
  | bytes w => w
  | uint w => w

/-- The values of a field. -/
@[reducible] def Value : Field → Type
  | bytes _ => Bytes
  | uint _ => ℤ

/-- An integer of so many bytes. -/
def InWidth (w : ℕ) (v : ℤ) : Prop := 0 ≤ v ∧ v < 256 ^ w
deriving Decidable

/-- The values that are written as they are. -/
def Fits : (c : Field) → c.Value → Prop
  | bytes w, v => v.length = w
  | uint w, v => InWidth w v

/-- The values that can be written. -/
def Accepts : (c : Field) → c.Value → Prop
  | bytes _, _ => True
  | uint w, v => InWidth w v

/-- The text of `struct.error` for an integer that does not fit its field, by the width of the
field. The integer is first made one of C, which may fail already. -/
def outOfRange : ℕ → ℤ → String
  | 1, v => if -2 ^ 63 ≤ v ∧ v < 2 ^ 63 then "ubyte format requires 0 <= number <= 255"
    else "argument out of range"
  | 2, v => if 0 ≤ v ∧ v < 2 ^ 64 then "'H' format requires 0 <= number <= 65535"
    else "argument out of range"
  | 4, v => if 0 ≤ v ∧ v < 2 ^ 64 then "'I' format requires 0 <= number <= 4294967295"
    else "argument out of range"
  | _, _ => "int too large to convert"

/-- A byte string is padded or cut to its field; an integer has to fit. -/
def pack : (c : Field) → c.Value → Except String Bytes
  | bytes w, v => .ok ((v ++ List.replicate (w - v.length) 0).take w)
  | uint w, v => do
    raiseIf (¬InWidth w v) (outOfRange w v)
    return bigEndian w v.toNat

/-- The bytes of a value that fits. -/
def write : (c : Field) → c.Value → Bytes
  | bytes _, v => v
  | uint w, v => bigEndian w v.toNat

def read : (c : Field) → Bytes → c.Value
  | bytes _, bs => bs
  | uint _, bs => (ofBigEndian bs : ℤ)

variable {c : Field} {v : c.Value}

theorem pack_eq_ok : (∃ bs, c.pack v = .ok bs) ↔ c.Accepts v := by
  rcases c with w | w
  · exact iff_of_true ⟨_, rfl⟩ trivial
  · constructor
    · rintro ⟨bs, h⟩
      exact not_not.mp (raiseIf_bind_eq_ok.mp h).1
    · intro h
      exact ⟨_, raiseIf_bind_eq_ok.mpr ⟨not_not.mpr h, rfl⟩⟩

theorem pack_fits (h : c.Fits v) :
    c.pack v = .ok (c.write v) ∧ (c.write v).length = c.width ∧ c.read (c.write v) = v := by
  rcases c with w | w
  · change v.length = w at h
    refine ⟨?_, h, rfl⟩
    simp [pack, write, h, List.take_of_length_le h.le]
  · refine ⟨raiseIf_bind_eq_ok.mpr ⟨not_not.mpr h, rfl⟩, length_bigEndian, ?_⟩
    obtain ⟨hpos, hlt⟩ := h
    have hnat : v.toNat < 256 ^ w := (Int.toNat_lt hpos).mpr (by push_cast; exact hlt)
    rw [write, read, ofBigEndian_bigEndian hnat, Int.toNat_of_nonneg hpos]

theorem read_fits (h : bs.length = c.width) : c.Fits (c.read bs) := by
  rcases c with w | w
  · exact h
  · refine ⟨Int.natCast_nonneg _, ?_⟩
    obtain rfl : bs.length = w := h
    have hlt : (ofBigEndian bs : ℤ) < 256 ^ bs.length := by exact_mod_cast ofBigEndian_lt bs
    exact hlt

theorem pack_read (h : bs.length = c.width) : c.pack (c.read bs) = .ok bs := by
  rcases c with w | w
  · obtain rfl : bs.length = w := h
    simp [pack, read]
  · obtain rfl : bs.length = w := h
    have hfits : (Field.uint bs.length).Fits (read (.uint bs.length) bs) := read_fits rfl
    refine raiseIf_bind_eq_ok.mpr ⟨not_not.mpr hfits, ?_⟩
    rw [read, Int.toNat_natCast, bigEndian_ofBigEndian]
    rfl

end Field

/-! ### Layouts -/

/-- The fields of a header. -/
abbrev Layout := List Field

namespace Layout

def size (l : Layout) : ℕ := (l.map Field.width).sum

/-- The values of a header. -/
@[reducible] def Values : Layout → Type
  | [] => Unit
  | c :: l => c.Value × Values l

/-- The headers that are written as they are. -/
def Fits : (l : Layout) → l.Values → Prop
  | [], _ => True
  | c :: l, vs => c.Fits vs.1 ∧ Fits l vs.2

/-- The headers that can be written. -/
def Accepts : (l : Layout) → l.Values → Prop
  | [], _ => True
  | c :: l, vs => c.Accepts vs.1 ∧ Accepts l vs.2

/-- `Struct.pack`. -/
def pack : (l : Layout) → l.Values → Except String Bytes
  | [], _ => .ok []
  | c :: l, vs => do
    let bs ← c.pack vs.1
    let rest ← pack l vs.2
    return bs ++ rest

/-- The bytes of a header that fits. -/
def write : (l : Layout) → l.Values → Bytes
  | [], _ => []
  | c :: l, vs => c.write vs.1 ++ write l vs.2

def read : (l : Layout) → Bytes → l.Values
  | [], _ => ()
  | c :: l, bs => (c.read (bs.take c.width), read l (bs.drop c.width))

/-- `Struct.unpack_from`. -/
def unpackFrom (l : Layout) (bs : Bytes) : Except String l.Values := do
  raiseIf (bs.length < l.size)
    (s!"unpack_from requires a buffer of at least {l.size} bytes for unpacking {l.size} bytes " ++
      s!"at offset 0 (actual buffer size is {bs.length})")
  return l.read bs

variable {l : Layout} {vs : l.Values}

@[simp] theorem size_cons {c : Field} : size (c :: l) = c.width + l.size := by
  simp [size]

/-- **Which headers can be written.** -/
theorem pack_eq_ok : (∃ bs, l.pack vs = .ok bs) ↔ l.Accepts vs := by
  induction l with
  | nil => exact iff_of_true ⟨_, rfl⟩ trivial
  | cons c l ih =>
    rw [Accepts, ← Field.pack_eq_ok, ← ih]
    constructor
    · rintro ⟨bs, h⟩
      obtain ⟨b, hb, h⟩ := except_bind_eq_ok.mp h
      obtain ⟨r, hr, -⟩ := except_bind_eq_ok.mp h
      exact ⟨⟨b, hb⟩, r, hr⟩
    · rintro ⟨⟨b, hb⟩, r, hr⟩
      exact ⟨_, except_bind_eq_ok.mpr ⟨b, hb, except_bind_eq_ok.mpr ⟨r, hr, rfl⟩⟩⟩

theorem pack_fits (h : l.Fits vs) : l.pack vs = .ok (l.write vs) ∧
    (l.write vs).length = l.size ∧ ∀ rest, l.read (l.write vs ++ rest) = vs := by
  induction l with
  | nil => exact ⟨rfl, rfl, fun _ => rfl⟩
  | cons c l ih =>
    obtain ⟨hpack, hlen, hread⟩ := Field.pack_fits h.1
    obtain ⟨hpack', hlen', hread'⟩ := ih h.2
    refine ⟨except_bind_eq_ok.mpr ⟨_, hpack, except_bind_eq_ok.mpr ⟨_, hpack', rfl⟩⟩, ?_, ?_⟩
    · rw [write, List.length_append, hlen, hlen', size_cons]
    · intro rest
      rw [read, write, List.append_assoc, ← hlen, List.take_left, List.drop_left, hread, hread']

/-- **What was written is read back.** -/
theorem unpackFrom_append (h : l.Fits vs) (rest : Bytes) :
    l.unpackFrom (l.write vs ++ rest) = .ok vs := by
  obtain ⟨-, hlen, hread⟩ := pack_fits h
  refine raiseIf_bind_eq_ok.mpr ⟨?_, ?_⟩
  · rw [List.length_append, hlen]
    omega
  · rw [hread]
    rfl

theorem pack_read (h : l.size ≤ bs.length) :
    l.pack (l.read bs) = .ok (bs.take l.size) ∧ l.Fits (l.read bs) := by
  induction l generalizing bs with
  | nil => exact ⟨by simp [pack, size], trivial⟩
  | cons c l ih =>
    rw [size_cons] at h ⊢
    have hlen : (bs.take c.width).length = c.width := by
      rw [List.length_take]
      omega
    have hrest : size l ≤ (bs.drop c.width).length := by
      rw [List.length_drop]
      omega
    obtain ⟨hpack, hfits⟩ := ih hrest
    refine ⟨except_bind_eq_ok.mpr ⟨_, Field.pack_read hlen, except_bind_eq_ok.mpr ⟨_, hpack, ?_⟩⟩,
      Field.read_fits hlen, hfits⟩
    rw [List.take_add]
    rfl

/-- **What was read is written back.** -/
theorem pack_unpackFrom (h : l.unpackFrom bs = .ok vs) :
    l.pack vs = .ok (bs.take l.size) ∧ l.Fits vs ∧ l.size ≤ bs.length := by
  obtain ⟨hlen, h⟩ := raiseIf_bind_eq_ok.mp h
  obtain rfl := Except.ok.inj h
  exact ⟨(pack_read (not_lt.mp hlen)).1, (pack_read (not_lt.mp hlen)).2, not_lt.mp hlen⟩

/-- A buffer that is large enough is read. -/
theorem unpackFrom_of_le (h : l.size ≤ bs.length) : l.unpackFrom bs = .ok (l.read bs) :=
  raiseIf_bind_eq_ok.mpr ⟨not_lt.mpr h, rfl⟩

end Layout

end Foundation
