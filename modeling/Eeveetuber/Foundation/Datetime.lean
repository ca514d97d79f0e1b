import Mathlib.Algebra.Group.Nat.Defs
import Mathlib.Data.Char
import Mathlib.Data.List.Lex
import Mathlib.Data.Prod.Lex
import Eeveetuber.Foundation.Text

/-!
# Points in time

A `Foundation.Datetime` is a point in time as a `datetime` in UTC has it: a day of the
calendar and a time of day, down to a microsecond. Written in ISO format it has always the
same length, the larger units first, so that **texts compare as the points in time do**:
`Foundation.Datetime.isoformat_lt_iff`.
-/

namespace Foundation

/-! ### Numbers of a fixed width -/

/-- A number in so many digits. -/
def digits : ℕ → ℕ → Text
  | 0, _ => []
  | width + 1, n => digits width (n / 10) ++ [Nat.digitChar (n % 10)]

@[simp] theorem length_digits (width n : ℕ) : (digits width n).length = width := by
  induction width generalizing n with
  | zero => rfl
  | succ width ih => rw [digits, List.length_append, ih, List.length_singleton]

/-- Texts that begin with texts of the same length. -/
theorem append_lt_append_iff {s t : Text} (h : s.length = t.length) {u v : Text} :
    s ++ u < t ++ v ↔ s < t ∨ s = t ∧ u < v := by
  induction s generalizing t with
  | nil =>
    obtain rfl := List.length_eq_zero_iff.mp h.symm
    simp
  | cons a s ih =>
    rcases t with _ | ⟨b, t⟩
    · contradiction
    · rw [List.cons_append, List.cons_append, List.cons_lt_cons_iff, List.cons_lt_cons_iff,
        ih (Nat.succ.inj h), List.cons.injEq]
      tauto

theorem digitChar_lt_digitChar {m n : ℕ} (hn : n < 10) (h : m < n) :
    Nat.digitChar m < Nat.digitChar n := by
  have hall : ∀ n < 10, ∀ m < n, Nat.digitChar m < Nat.digitChar n := by decide
  exact hall n hn m h

/-- The smaller number comes first. -/
theorem digits_lt_digits (width : ℕ) : ∀ {m n : ℕ}, n < 10 ^ width → m < n →
    digits width m < digits width n := by
  induction width with
  | zero =>
    intro m n hn h
    omega
  | succ width ih =>
    intro m n hn h
    have hlen : (digits width (m / 10)).length = (digits width (n / 10)).length := by simp
    rw [digits, digits, append_lt_append_iff hlen]
    rcases Nat.lt_or_ge (m / 10) (n / 10) with hlt | hge
    · refine Or.inl (ih ?_ hlt)
      rw [Nat.pow_succ] at hn
      omega
    · have heq : m / 10 = n / 10 := by omega
      refine Or.inr ⟨by rw [heq], List.cons_lt_cons_iff.mpr (Or.inl ?_)⟩
      exact digitChar_lt_digitChar (Nat.mod_lt _ (by decide)) (by omega)

/-! ### The calendar -/

def isLeap (year : ℕ) : Bool := year % 4 = 0 && (year % 100 ≠ 0 || year % 400 = 0)

def daysInMonth (year : ℕ) : ℕ → ℕ
  | 1 | 3 | 5 | 7 | 8 | 10 | 12 => 31
  | 4 | 6 | 9 | 11 => 30
  | 2 => if isLeap year then 29 else 28
  | _ => 0

/-- The days of a year before a month. -/
def daysBeforeMonth (year : ℕ) : ℕ → ℕ
  | 0 => 0
  | month + 1 => daysBeforeMonth year month + daysInMonth year month

/-- The days before a year. -/
def daysBeforeYear (year : ℕ) : ℕ :=
  (year - 1) * 365 + (year - 1) / 4 + (year - 1) / 400 - (year - 1) / 100

theorem daysBeforeMonth_mono (year : ℕ) : Monotone (daysBeforeMonth year) :=
  monotone_nat_of_le_succ fun _ => Nat.le_add_right _ _

theorem daysBeforeMonth_thirteen (year : ℕ) :
    daysBeforeMonth year 13 = if isLeap year then 366 else 365 := by
  simp only [daysBeforeMonth, daysInMonth]
  split <;> rfl

theorem daysBeforeYear_succ {year : ℕ} (h : 1 ≤ year) :
    daysBeforeYear (year + 1) = daysBeforeYear year + daysBeforeMonth year 13 := by
  have hleap : isLeap year = true ↔ year % 4 = 0 ∧ (year % 100 ≠ 0 ∨ year % 400 = 0) := by
    simp [isLeap]
  obtain ⟨y, rfl⟩ : ∃ y, year = y + 1 := ⟨year - 1, by omega⟩
  rw [daysBeforeMonth_thirteen, daysBeforeYear, daysBeforeYear, Nat.add_sub_cancel,
    Nat.add_sub_cancel]
  -- each quotient grows by one in the years that are its multiples
  have hdiv : ∀ k ∈ [4, 100, 400], (y + 1) / k = y / k + if (y + 1) % k = 0 then 1 else 0 := by
    intro k _
    rw [Nat.succ_div]
    simp only [Nat.dvd_iff_mod_eq_zero]
  rw [hdiv 4 (by decide), hdiv 100 (by decide), hdiv 400 (by decide)]
  have hle : y / 100 ≤ y := Nat.div_le_self y 100
  generalize y / 100 = centuries at hle
  generalize y / 4 = fourths
  generalize y / 400 = cycles
  by_cases h : isLeap (y + 1) = true
  · rw [if_pos h]
    obtain ⟨h4, h100 | h400⟩ := hleap.mp h
    · have h400 : (y + 1) % 400 ≠ 0 := by omega
      rw [if_pos h4, if_neg h400, if_neg h100]
      omega
    · have h100 : (y + 1) % 100 = 0 := by omega
      rw [if_pos h4, if_pos h400, if_pos h100]
      omega
  · rw [if_neg h]
    rw [hleap] at h
    have h400 : (y + 1) % 400 ≠ 0 := by omega
    by_cases h4 : (y + 1) % 4 = 0
    · have h100 : (y + 1) % 100 = 0 := by omega
      rw [if_pos h4, if_neg h400, if_pos h100]
      omega
    · have h100 : (y + 1) % 100 ≠ 0 := by omega
      rw [if_neg h4, if_neg h400, if_neg h100]
      omega

theorem daysBeforeYear_mono {year year' : ℕ} (h : 1 ≤ year) (hle : year ≤ year') :
    daysBeforeYear year ≤ daysBeforeYear year' := by
  induction hle with
  | refl => exact le_rfl
  | step hle ih =>
    rw [Nat.succ_eq_add_one, daysBeforeYear_succ (h.trans hle)]
    exact ih.trans (Nat.le_add_right _ _)

/-! ### Points in time -/

/-- A `datetime` in UTC. -/
structure Datetime where
  year : ℕ
  month : ℕ
  day : ℕ
  hour : ℕ
  minute : ℕ
  second : ℕ
  microsecond : ℕ
  year_bounds : 1 ≤ year ∧ year ≤ 9999 := by decide
  month_bounds : 1 ≤ month ∧ month ≤ 12 := by decide
  day_bounds : 1 ≤ day ∧ day ≤ daysInMonth year month := by decide
  hour_lt : hour < 24 := by decide
  minute_lt : minute < 60 := by decide
  second_lt : second < 60 := by decide
  microsecond_lt : microsecond < 1000000 := by decide
deriving DecidableEq

namespace Datetime

/-- `isoformat(timespec="microseconds")`, of a point in time in UTC. -/
def isoformat (d : Datetime) : Text :=
  digits 4 d.year ++ (['-'] ++ (digits 2 d.month ++ (['-'] ++ (digits 2 d.day ++ (['T'] ++
    (digits 2 d.hour ++ ([':'] ++ (digits 2 d.minute ++ ([':'] ++ (digits 2 d.second ++ (['.'] ++
      (digits 6 d.microsecond ++ "+00:00".toList))))))))))))

/-- The days since the first day of the first year. -/
def ordinal (d : Datetime) : ℕ := daysBeforeYear d.year + daysBeforeMonth d.year d.month + d.day

/-- The seconds of a point in time; what is less than a second is cut off. -/
def seconds (d : Datetime) : ℕ := ((d.ordinal * 24 + d.hour) * 60 + d.minute) * 60 + d.second

def microseconds (d : Datetime) : ℕ := d.seconds * 1000000 + d.microsecond

/-- The units of a point in time, the larger ones first. -/
def units (d : Datetime) : ℕ ×ₗ ℕ ×ₗ ℕ ×ₗ ℕ ×ₗ ℕ ×ₗ ℕ ×ₗ ℕ :=
  toLex (d.year, toLex (d.month, toLex (d.day, toLex (d.hour, toLex (d.minute,
    toLex (d.second, d.microsecond))))))

variable {d e : Datetime}

theorem units_injective : Function.Injective units := by
  intro d e h
  simp only [units, toLex_inj, Prod.mk.injEq] at h
  rcases d with ⟨⟩
  rcases e with ⟨⟩
  simp_all

theorem units_lt_iff : d.units < e.units ↔
    d.year < e.year ∨ d.year = e.year ∧ (d.month < e.month ∨ d.month = e.month ∧
      (d.day < e.day ∨ d.day = e.day ∧ (d.hour < e.hour ∨ d.hour = e.hour ∧
        (d.minute < e.minute ∨ d.minute = e.minute ∧ (d.second < e.second ∨
          d.second = e.second ∧ d.microsecond < e.microsecond))))) := by
  simp only [units, Prod.Lex.toLex_lt_toLex]

/-- Numbers of a fixed width, with what follows them. -/
theorem digits_append_lt {width m n : ℕ} {u v : Text} (hn : n < 10 ^ width)
    (h : m < n ∨ m = n ∧ u < v) : digits width m ++ u < digits width n ++ v := by
  rw [append_lt_append_iff (by simp)]
  rcases h with h | ⟨rfl, h⟩
  · exact Or.inl (digits_lt_digits width hn h)
  · exact Or.inr ⟨rfl, h⟩

theorem singleton_append_lt {c : Char} {u v : Text} (h : u < v) : [c] ++ u < [c] ++ v :=
  List.cons_lt_cons_iff.mpr (Or.inr ⟨rfl, h⟩)

theorem daysInMonth_le (year month : ℕ) : daysInMonth year month ≤ 31 := by
  rw [daysInMonth.eq_def]
  split <;> first | decide | (split <;> decide)

/-- **The larger units decide the order of the texts.** -/
theorem isoformat_lt_of_units_lt (h : d.units < e.units) : d.isoformat < e.isoformat := by
  have hday := e.day_bounds.2.trans (daysInMonth_le _ _)
  have hyear := e.year_bounds
  have hmonth := e.month_bounds
  have hhour := e.hour_lt
  have hminute := e.minute_lt
  have hsecond := e.second_lt
  refine digits_append_lt (by omega) ((units_lt_iff.mp h).imp_right fun ⟨hy, h⟩ =>
    ⟨hy, singleton_append_lt ?_⟩)
  refine digits_append_lt (by omega) (h.imp_right fun ⟨hm, h⟩ => ⟨hm, singleton_append_lt ?_⟩)
  refine digits_append_lt (by omega) (h.imp_right fun ⟨hd, h⟩ => ⟨hd, singleton_append_lt ?_⟩)
  refine digits_append_lt (by omega) (h.imp_right fun ⟨hh, h⟩ => ⟨hh, singleton_append_lt ?_⟩)
  refine digits_append_lt (by omega) (h.imp_right fun ⟨hm, h⟩ => ⟨hm, singleton_append_lt ?_⟩)
  refine digits_append_lt (by omega) (h.imp_right fun ⟨hs, h⟩ => ⟨hs, singleton_append_lt ?_⟩)
  exact digits_append_lt e.microsecond_lt (Or.inl h)

/-- A number of a mixed radix. -/
theorem radix_lt {k hi hi' lo lo' : ℕ} (hlo : lo < k) (h : hi < hi' ∨ hi = hi' ∧ lo < lo') :
    hi * k + lo < hi' * k + lo' := by
  rcases h with h | ⟨rfl, h⟩
  · calc hi * k + lo < (hi + 1) * k := by rw [Nat.add_mul]; omega
      _ ≤ hi' * k := Nat.mul_le_mul_right k h
      _ ≤ hi' * k + lo' := Nat.le_add_right _ _
  · omega

theorem ordinal_lt (h : d.year < e.year ∨ d.year = e.year ∧ (d.month < e.month ∨
    d.month = e.month ∧ d.day < e.day)) : d.ordinal < e.ordinal := by
  have hnext : daysBeforeMonth d.year d.month + d.day ≤ daysBeforeMonth d.year (d.month + 1) :=
    Nat.add_le_add_left d.day_bounds.2 _
  have hday := e.day_bounds.1
  rw [ordinal, ordinal]
  rcases h with hyear | ⟨hyear, hmonth | ⟨hmonth, hday⟩⟩
  · have hlast : daysBeforeMonth d.year d.month + d.day ≤ daysBeforeMonth d.year 13 :=
      hnext.trans (daysBeforeMonth_mono d.year (Nat.succ_le_succ d.month_bounds.2))
    have hmono := daysBeforeYear_mono (Nat.le_add_left 1 d.year) hyear
    rw [daysBeforeYear_succ d.year_bounds.1] at hmono
    omega
  · have hmono := daysBeforeMonth_mono d.year (Nat.succ_le_of_lt hmonth)
    rw [← hyear]
    rw [Nat.succ_eq_add_one] at hmono
    omega
  · rw [hyear, hmonth]
    omega

/-- **The larger units decide the order in time.** -/
theorem microseconds_lt_of_units_lt (h : d.units < e.units) : d.microseconds < e.microseconds := by
  have h' := units_lt_iff.mp h
  refine radix_lt d.microsecond_lt ?_
  have hday : d.ordinal < e.ordinal ∨ d.ordinal = e.ordinal ∧ (d.hour < e.hour ∨
      d.hour = e.hour ∧ (d.minute < e.minute ∨ d.minute = e.minute ∧ (d.second < e.second ∨
        d.second = e.second ∧ d.microsecond < e.microsecond))) := by
    rcases h' with hy | ⟨hy, hm | ⟨hm, hd | ⟨hd, h⟩⟩⟩
    · exact Or.inl (ordinal_lt (Or.inl hy))
    · exact Or.inl (ordinal_lt (Or.inr ⟨hy, Or.inl hm⟩))
    · exact Or.inl (ordinal_lt (Or.inr ⟨hy, Or.inr ⟨hm, hd⟩⟩))
    · exact Or.inr ⟨by rw [ordinal, ordinal, hy, hm, hd], h⟩
  have hhour : d.ordinal * 24 + d.hour < e.ordinal * 24 + e.hour ∨
      d.ordinal * 24 + d.hour = e.ordinal * 24 + e.hour ∧ (d.minute < e.minute ∨
        d.minute = e.minute ∧ (d.second < e.second ∨
          d.second = e.second ∧ d.microsecond < e.microsecond)) := by
    rcases hday with hd | ⟨hd, hh | ⟨hh, h⟩⟩
    · exact Or.inl (radix_lt d.hour_lt (Or.inl hd))
    · exact Or.inl (radix_lt d.hour_lt (Or.inr ⟨hd, hh⟩))
    · exact Or.inr ⟨by rw [hd, hh], h⟩
  have hminute := d.minute_lt
  have hsecond := d.second_lt
  rw [seconds, seconds]
  omega

/-- Both orders are the order of the units. -/
theorem microseconds_lt_iff : d.microseconds < e.microseconds ↔ d.units < e.units := by
  refine ⟨fun h => ?_, microseconds_lt_of_units_lt⟩
  rcases lt_trichotomy d.units e.units with hlt | heq | hgt
  · exact hlt
  · rw [units_injective heq] at h
    exact absurd h (lt_irrefl _)
  · exact absurd (h.trans (microseconds_lt_of_units_lt hgt)) (lt_irrefl _)

theorem microseconds_injective : Function.Injective microseconds := by
  intro d e h
  rcases lt_trichotomy d.units e.units with hlt | heq | hgt
  · exact absurd h (microseconds_lt_of_units_lt hlt).ne
  · exact units_injective heq
  · exact absurd h (microseconds_lt_of_units_lt hgt).ne'

/-- Points in time, in order. -/
instance : LinearOrder Datetime := LinearOrder.lift' microseconds microseconds_injective

theorem lt_iff : d < e ↔ d.microseconds < e.microseconds := Iff.rfl

/-- **Texts compare as the points in time do.** -/
theorem isoformat_lt_iff : d.isoformat < e.isoformat ↔ d < e := by
  rw [lt_iff, microseconds_lt_iff]
  refine ⟨fun h => ?_, isoformat_lt_of_units_lt⟩
  rcases lt_trichotomy d.units e.units with hlt | heq | hgt
  · exact hlt
  · rw [units_injective heq] at h
    exact absurd h (lt_irrefl _)
  · exact absurd (h.trans (isoformat_lt_of_units_lt hgt)) (lt_irrefl _)

/-- What is later by a second, with less than a second cut off, is later. -/
theorem lt_of_seconds_lt {n : ℕ} (h : d.seconds < e.seconds + n) :
    d.microseconds < e.microseconds + n * 1000000 := by
  have hmicro := d.microsecond_lt
  rw [microseconds, microseconds]
  omega

/-- The first point in time of the calendar. -/
def first : Datetime where
  year := 1
  month := 1
  day := 1
  hour := 0
  minute := 0
  second := 0
  microsecond := 0

/-- A morning, of which the examples say that they happen then. -/
def morning : Datetime where
  year := 2026
  month := 8
  day := 20
  hour := 8
  minute := 0
  second := 0
  microsecond := 0

end Datetime

end Foundation
