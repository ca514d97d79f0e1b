import Mathlib.Data.Nat.Find
import Eeveetuber.Foundation.Datetime

/-!
# Points in time from numbers and from texts

`Foundation.Datetime.microseconds` counts the microseconds up to a point in time
and `Foundation.Datetime.isoformat` writes it down. This file goes back:
`Foundation.Datetime.ofMicroseconds` finds the year, then the month, then the
day among the days that are left, and fails outside the years of the calendar;
`Foundation.Datetime.fromisoformat` reads the units at their places and
accepts a text that is how the point in time it has read is written.
-/

namespace Foundation

/-! ### Reading numbers -/

/-- The number that a text of digits writes. -/
def number (t : Text) : ℕ := t.foldl (fun n c => n * 10 + (c.toNat - '0'.toNat)) 0

theorem number_append_singleton (t : Text) (c : Char) :
    number (t ++ [c]) = number t * 10 + (c.toNat - '0'.toNat) := by
  rw [number, List.foldl_append]
  rfl

theorem toNat_digitChar {n : ℕ} (h : n < 10) : (Nat.digitChar n).toNat - '0'.toNat = n := by
  have hall : ∀ n < 10, (Nat.digitChar n).toNat - '0'.toNat = n := by decide
  exact hall n h

/-- A number that fits its width is read as it was written. -/
theorem number_digits (width : ℕ) : ∀ {n : ℕ}, n < 10 ^ width → number (digits width n) = n := by
  induction width with
  | zero =>
    intro n hn
    obtain rfl : n = 0 := by omega
    rfl
  | succ width ih =>
    intro n hn
    have hrest : n / 10 < 10 ^ width := by
      rw [Nat.pow_succ] at hn
      omega
    rw [digits, number_append_singleton, ih hrest, toNat_digitChar (Nat.mod_lt _ (by decide))]
    omega

namespace Datetime

/-! ### From a day of the calendar -/

/-- The year that a day falls into. -/
def yearOf (days : ℕ) : ℕ := Nat.findGreatest (fun year => daysBeforeYear year < days) 9999

/-- The month that a day of a year falls into. -/
def monthOf (year days : ℕ) : ℕ :=
  Nat.findGreatest (fun month => daysBeforeMonth year month < days) 12

variable {days year : ℕ}

theorem yearOf_bounds (h : 1 ≤ days) : 1 ≤ yearOf days ∧ yearOf days ≤ 9999 :=
  ⟨Nat.le_findGreatest (by decide) h, Nat.findGreatest_le _⟩

theorem daysBeforeYear_yearOf (h : 1 ≤ days) : daysBeforeYear (yearOf days) < days :=
  Nat.findGreatest_spec (P := fun year => daysBeforeYear year < days) (m := 1) (by decide) h

/-- The days up to the year's last day. -/
theorem le_daysBeforeYear_yearOf (h : days ≤ daysBeforeYear 10000) :
    days ≤ daysBeforeYear (yearOf days + 1) := by
  by_contra hlt
  rcases Nat.lt_or_ge (yearOf days) 9999 with hyear | hyear
  · exact Nat.findGreatest_is_greatest (Nat.lt_succ_self _) hyear (Nat.lt_of_not_le hlt)
  · have hlast : yearOf days = 9999 := le_antisymm (Nat.findGreatest_le _) hyear
    rw [hlast] at hlt
    exact hlt h

theorem monthOf_bounds (h : 1 ≤ days) : 1 ≤ monthOf year days ∧ monthOf year days ≤ 12 :=
  ⟨Nat.le_findGreatest (by decide) h, Nat.findGreatest_le _⟩

theorem daysBeforeMonth_monthOf (h : 1 ≤ days) :
    daysBeforeMonth year (monthOf year days) < days :=
  Nat.findGreatest_spec (P := fun month => daysBeforeMonth year month < days) (m := 1)
    (by decide) h

theorem le_daysBeforeMonth_monthOf (h : days ≤ daysBeforeMonth year 13) :
    days ≤ daysBeforeMonth year (monthOf year days + 1) := by
  by_contra hlt
  rcases Nat.lt_or_ge (monthOf year days) 12 with hmonth | hmonth
  · exact Nat.findGreatest_is_greatest (Nat.lt_succ_self _) hmonth (Nat.lt_of_not_le hlt)
  · have hlast : monthOf year days = 12 := le_antisymm (Nat.findGreatest_le _) hmonth
    rw [hlast] at hlt
    exact hlt h

theorem dayOfMonth_bounds (h : 1 ≤ days ∧ days ≤ daysBeforeMonth year 13) :
    1 ≤ days - daysBeforeMonth year (monthOf year days) ∧
      days - daysBeforeMonth year (monthOf year days) ≤ daysInMonth year (monthOf year days) := by
  have hlt : daysBeforeMonth year (monthOf year days) < days := daysBeforeMonth_monthOf h.1
  have hle := le_daysBeforeMonth_monthOf h.2
  rw [daysBeforeMonth] at hle
  omega

/-- The day of the year that a day is. -/
def dayOfYear (days : ℕ) : ℕ := days - daysBeforeYear (yearOf days)

theorem dayOfYear_bounds (h : 1 ≤ days ∧ days ≤ daysBeforeYear 10000) :
    1 ≤ dayOfYear days ∧ dayOfYear days ≤ daysBeforeMonth (yearOf days) 13 := by
  have hlt := daysBeforeYear_yearOf h.1
  have hle := le_daysBeforeYear_yearOf h.2
  rw [daysBeforeYear_succ (yearOf_bounds h.1).1] at hle
  rw [dayOfYear]
  omega

/-- The point in time after so many microseconds, if it is in the calendar. -/
def ofMicroseconds (n : ℕ) : Option Datetime :=
  let days := n / 86400000000
  let month := monthOf (yearOf days) (dayOfYear days)
  if h : 1 ≤ days ∧ days ≤ daysBeforeYear 10000 then
    some {
      year := yearOf days
      month := month
      day := dayOfYear days - daysBeforeMonth (yearOf days) month
      hour := n / 3600000000 % 24
      minute := n / 60000000 % 60
      second := n / 1000000 % 60
      microsecond := n % 1000000
      year_bounds := yearOf_bounds h.1
      month_bounds := monthOf_bounds (dayOfYear_bounds h).1
      day_bounds := dayOfMonth_bounds (dayOfYear_bounds h)
      hour_lt := Nat.mod_lt _ (by decide)
      minute_lt := Nat.mod_lt _ (by decide)
      second_lt := Nat.mod_lt _ (by decide)
      microsecond_lt := Nat.mod_lt _ (by decide) }
  else none

variable {d e : Datetime} {n : ℕ}

/-- The point in time found is the one after so many microseconds. -/
theorem microseconds_of_ofMicroseconds (h : ofMicroseconds n = some d) : d.microseconds = n := by
  unfold ofMicroseconds at h
  dsimp only at h
  split at h
  · rename_i hdays
    have hyear := daysBeforeYear_yearOf hdays.1
    have hmonth := (dayOfMonth_bounds (dayOfYear_bounds hdays)).1
    rw [Option.some.injEq] at h
    subst h
    rw [microseconds, seconds, ordinal]
    dsimp only
    rw [dayOfYear] at hmonth ⊢
    omega
  · cases h

theorem ordinal_bounds (d : Datetime) : 1 ≤ d.ordinal ∧ d.ordinal ≤ daysBeforeYear 10000 := by
  have hday := d.day_bounds
  have hmonth : daysBeforeMonth d.year (d.month + 1) ≤ daysBeforeMonth d.year 13 :=
    daysBeforeMonth_mono d.year (Nat.succ_le_succ d.month_bounds.2)
  have hyear : daysBeforeYear (d.year + 1) ≤ daysBeforeYear 10000 :=
    daysBeforeYear_mono (Nat.le_add_left 1 _) (Nat.succ_le_succ d.year_bounds.2)
  rw [daysBeforeYear_succ d.year_bounds.1] at hyear
  rw [daysBeforeMonth] at hmonth
  rw [ordinal]
  omega

theorem microseconds_div (d : Datetime) : d.microseconds / 86400000000 = d.ordinal := by
  have hhour := d.hour_lt
  have hminute := d.minute_lt
  have hsecond := d.second_lt
  have hmicrosecond := d.microsecond_lt
  rw [microseconds, seconds]
  omega

/-- **Every point in time is found again.** -/
theorem ofMicroseconds_eq_some : ofMicroseconds n = some d ↔ d.microseconds = n := by
  refine ⟨microseconds_of_ofMicroseconds, ?_⟩
  rintro rfl
  obtain ⟨e, he⟩ : ∃ e, ofMicroseconds d.microseconds = some e := by
    unfold ofMicroseconds
    dsimp only
    rw [dif_pos (by rw [microseconds_div]; exact d.ordinal_bounds)]
    exact ⟨_, rfl⟩
  rw [he, microseconds_injective (microseconds_of_ofMicroseconds he)]

theorem isSome_ofMicroseconds : (ofMicroseconds n).isSome = true ↔
    1 ≤ n / 86400000000 ∧ n / 86400000000 ≤ daysBeforeYear 10000 := by
  unfold ofMicroseconds
  dsimp only
  split
  · rename_i h
    exact iff_of_true rfl h
  · rename_i h
    exact iff_of_false Bool.false_ne_true h

/-- The point in time at an instant, counted in microseconds, if it is in the calendar. -/
def ofInstant : ℤ → Option Datetime
  | .ofNat n => ofMicroseconds n
  | .negSucc _ => none

theorem ofInstant_eq_some {i : ℤ} : ofInstant i = some d ↔ (d.microseconds : ℤ) = i := by
  rcases i with n | n
  · exact ofMicroseconds_eq_some.trans Int.ofNat_inj.symm
  · rw [ofInstant]
    constructor
    · intro h
      cases h
    · intro h
      cases h

/-- The last point in time of the calendar. -/
def last : Datetime where
  year := 9999
  month := 12
  day := 31
  hour := 23
  minute := 59
  second := 59
  microsecond := 999999

/-- The instants of the calendar are those from its first point in time to its last one. -/
theorem isSome_ofInstant {i : ℤ} :
    (ofInstant i).isSome = true ↔ (first.microseconds : ℤ) ≤ i ∧ i ≤ last.microseconds := by
  have hfirst : first.microseconds = 86400000000 := rfl
  have hlast : last.microseconds = 315537983999999999 := by decide
  have hdays : daysBeforeYear 10000 = 3652059 := rfl
  rw [hfirst, hlast]
  rcases i with n | n
  · rw [ofInstant, Int.ofNat_eq_natCast, isSome_ofMicroseconds, hdays]
    omega
  · rw [ofInstant]
    constructor
    · intro h
      cases h
    · intro h
      omega

/-! ### Reading texts -/

/-- The number that so many characters of a text write, from a place on. -/
def numberAt (t : Text) (place width : ℕ) : ℕ := number ((t.drop place).take width)

/-- The units at their places in a text, if they are those of a point in time. -/
def ofUnits (t : Text) : Option Datetime :=
  if h : (1 ≤ numberAt t 0 4 ∧ numberAt t 0 4 ≤ 9999) ∧
      (1 ≤ numberAt t 5 2 ∧ numberAt t 5 2 ≤ 12) ∧
      (1 ≤ numberAt t 8 2 ∧ numberAt t 8 2 ≤ daysInMonth (numberAt t 0 4) (numberAt t 5 2)) ∧
      numberAt t 11 2 < 24 ∧ numberAt t 14 2 < 60 ∧ numberAt t 17 2 < 60 ∧
      numberAt t 20 6 < 1000000 then
    some {
      year := numberAt t 0 4
      month := numberAt t 5 2
      day := numberAt t 8 2
      hour := numberAt t 11 2
      minute := numberAt t 14 2
      second := numberAt t 17 2
      microsecond := numberAt t 20 6
      year_bounds := h.1
      month_bounds := h.2.1
      day_bounds := h.2.2.1
      hour_lt := h.2.2.2.1
      minute_lt := h.2.2.2.2.1
      second_lt := h.2.2.2.2.2.1
      microsecond_lt := h.2.2.2.2.2.2 }
  else none

/-- `datetime.fromisoformat`, of texts as `isoformat` writes them in UTC. -/
def fromisoformat (t : Text) : Option Datetime := (ofUnits t).filter fun d => d.isoformat = t

/-- A unit is read at its place. -/
theorem numberAt_append {place width m : ℕ} {s u : Text} (hs : s.length = place)
    (hm : m < 10 ^ width) : numberAt (s ++ (digits width m ++ u)) place width = m := by
  rw [numberAt, ← hs, List.drop_left, List.take_left' (length_digits width m),
    number_digits width hm]

theorem ofUnits_isoformat (d : Datetime) : ofUnits d.isoformat = some d := by
  have hday := d.day_bounds.2.trans (daysInMonth_le _ _)
  have hyear := d.year_bounds
  have hmonth := d.month_bounds
  have hhour := d.hour_lt
  have hminute := d.minute_lt
  have hsecond := d.second_lt
  -- the units are moved to the front of the text one after the other
  have hyear' : numberAt d.isoformat 0 4 = d.year := numberAt_append (s := []) rfl (by omega)
  have hmonth' : numberAt d.isoformat 5 2 = d.month := by
    rw [isoformat, ← List.append_assoc]
    exact numberAt_append (by simp) (by omega)
  have hday' : numberAt d.isoformat 8 2 = d.day := by
    rw [isoformat]
    iterate 3 rw [← List.append_assoc]
    exact numberAt_append (by simp) (by omega)
  have hhour' : numberAt d.isoformat 11 2 = d.hour := by
    rw [isoformat]
    iterate 5 rw [← List.append_assoc]
    exact numberAt_append (by simp) (by omega)
  have hminute' : numberAt d.isoformat 14 2 = d.minute := by
    rw [isoformat]
    iterate 7 rw [← List.append_assoc]
    exact numberAt_append (by simp) (by omega)
  have hsecond' : numberAt d.isoformat 17 2 = d.second := by
    rw [isoformat]
    iterate 9 rw [← List.append_assoc]
    exact numberAt_append (by simp) (by omega)
  have hmicrosecond' : numberAt d.isoformat 20 6 = d.microsecond := by
    rw [isoformat]
    iterate 11 rw [← List.append_assoc]
    exact numberAt_append (by simp) d.microsecond_lt
  unfold ofUnits
  simp only [hyear', hmonth', hday', hhour', hminute', hsecond', hmicrosecond']
  exact dif_pos ⟨d.year_bounds, d.month_bounds, d.day_bounds, d.hour_lt, d.minute_lt, d.second_lt,
    d.microsecond_lt⟩

/-- **A text is read as the point in time that is written so.** -/
theorem fromisoformat_eq_some {t : Text} : fromisoformat t = some d ↔ d.isoformat = t := by
  rw [fromisoformat, Option.filter_eq_some_iff, decide_eq_true_eq]
  constructor
  · exact And.right
  · rintro rfl
    exact ⟨ofUnits_isoformat d, rfl⟩

end Datetime

end Foundation
