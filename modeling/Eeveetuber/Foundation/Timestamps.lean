import Mathlib.Data.Option.Basic
import Eeveetuber.Foundation.DatetimeParts

/-!
# Timestamps with a time zone

A `datetime` shows the time of a clock on a wall and may carry a time zone,
which says how far that clock is from UTC. The time zone is any object with a
`utcoffset` (`Foundation.Zones`); where the clock is put back, it shows an hour
twice, and the timestamp's `fold` tells the first from the second.

Two timestamps are compared in two ways. If they carry *the same* time zone
object, it is the clocks that are compared; otherwise the instants. And
timestamps of different time zones are never equal when the offset of one of
them depends on its fold (`Foundation.Timestamp.FoldDependent`), whatever
their instants.
-/

namespace Foundation

/-- Time zones. Two of them are the same object exactly if they are equal. -/
class Zones (Z : Type) where
  /-- `zone.utcoffset(dt)` in microseconds, of a clock and a fold. -/
  utcoffset : Z → Datetime → Bool → Option ℤ
  /-- `datetime.UTC`. -/
  utc : Z
  utcoffset_utc : ∀ clock fold, utcoffset utc clock fold = some 0

/-- A `datetime`. -/
structure Timestamp (Z : Type) where
  /-- What the clock shows. -/
  clock : Datetime
  fold : Bool := false
  tzinfo : Option Z
deriving DecidableEq

namespace Timestamp

variable {Z : Type} [Zones Z]

/-- `dt.utcoffset()`. -/
def utcoffset (t : Timestamp Z) : Option ℤ :=
  t.tzinfo.bind fun zone => Zones.utcoffset zone t.clock t.fold

/-- A timestamp with a time zone that knows its offset. -/
def Aware (t : Timestamp Z) : Prop := t.utcoffset.isSome = true
deriving Decidable

/-- The instant, in microseconds; without a time zone the one of the clock in UTC. -/
def instant (t : Timestamp Z) : ℤ := t.clock.microseconds - t.utcoffset.getD 0

/-- `dt.replace(fold=not dt.fold)`. -/
def otherFold (t : Timestamp Z) : Timestamp Z := { t with fold := !t.fold }

/-- Whether the offset is another one in the other fold. -/
def FoldDependent (t : Timestamp Z) : Prop := t.otherFold.utcoffset ≠ t.utcoffset
deriving Decidable

/-- A timestamp in UTC. -/
def ofUtc (d : Datetime) : Timestamp Z := ⟨d, false, some Zones.utc⟩

variable {s t : Timestamp Z} {d e : Datetime}

@[simp] theorem tzinfo_ofUtc : (ofUtc d : Timestamp Z).tzinfo = some Zones.utc := rfl

@[simp] theorem clock_ofUtc : (ofUtc d : Timestamp Z).clock = d := rfl

@[simp] theorem utcoffset_ofUtc : (ofUtc d : Timestamp Z).utcoffset = some 0 :=
  Zones.utcoffset_utc _ _

@[simp] theorem instant_ofUtc : (ofUtc d : Timestamp Z).instant = d.microseconds := by
  rw [instant, utcoffset_ofUtc, Option.getD_some, Int.sub_zero]
  rfl

theorem aware_ofUtc : (ofUtc d : Timestamp Z).Aware := by
  rw [Aware, utcoffset_ofUtc]
  rfl

theorem utcoffset_of_utc (h : t.tzinfo = some Zones.utc) : t.utcoffset = some 0 := by
  rw [utcoffset, h]
  exact Zones.utcoffset_utc _ _

/-- A clock in UTC shows the instant. -/
theorem instant_of_utc (h : t.tzinfo = some Zones.utc) : t.instant = t.clock.microseconds := by
  rw [instant, utcoffset_of_utc h, Option.getD_some, Int.sub_zero]

theorem not_foldDependent_of_utc (h : t.tzinfo = some Zones.utc) : ¬t.FoldDependent := by
  have hother : t.otherFold.utcoffset = some 0 := utcoffset_of_utc h
  rw [FoldDependent, hother, utcoffset_of_utc h]
  exact not_not.mpr rfl

variable [DecidableEq Z]

/-- `s == t`. -/
def eq (s t : Timestamp Z) : Bool :=
  if s.tzinfo = t.tzinfo then s.clock = t.clock
  else if s.FoldDependent ∨ t.FoldDependent then false
  else
    match s.utcoffset, t.utcoffset with
    | none, none => s.clock = t.clock
    | some _, some _ => s.instant = t.instant
    | _, _ => false

/-- `s <= t`; `none` is a `TypeError`. -/
def le (s t : Timestamp Z) : Option Bool :=
  if s.tzinfo = t.tzinfo then some (s.clock ≤ t.clock)
  else
    match s.utcoffset, t.utcoffset with
    | none, none => some (s.clock ≤ t.clock)
    | some _, some _ => some (s.instant ≤ t.instant)
    | _, _ => none

/-- **A point in time in UTC equals an aware timestamp of the same instant whose offset
does not depend on its fold**, and no other. -/
theorem ofUtc_eq_iff (h : t.Aware) :
    (ofUtc d).eq t = true ↔ (d.microseconds : ℤ) = t.instant ∧ ¬t.FoldDependent := by
  obtain ⟨offset, ht⟩ := Option.isSome_iff_exists.mp h
  by_cases hzone : t.tzinfo = some Zones.utc
  · have hfold := not_foldDependent_of_utc hzone
    rw [eq, tzinfo_ofUtc, if_pos hzone.symm, decide_eq_true_eq, clock_ofUtc, instant_of_utc hzone,
      Int.natCast_inj, Datetime.microseconds_injective.eq_iff]
    exact ⟨fun h => ⟨h, hfold⟩, And.left⟩
  · have hutc : ¬(ofUtc d : Timestamp Z).FoldDependent := not_foldDependent_of_utc rfl
    rw [eq, tzinfo_ofUtc, if_neg (Ne.symm hzone)]
    by_cases hfold : t.FoldDependent
    · rw [if_pos (.inr hfold)]
      exact iff_of_false nofun fun h => h.2 hfold
    · rw [if_neg (not_or.mpr ⟨hutc, hfold⟩), utcoffset_ofUtc, ht]
      dsimp only
      rw [decide_eq_true_eq, instant_ofUtc]
      exact ⟨fun h => ⟨h, hfold⟩, And.left⟩

theorem le_ofUtc : (ofUtc d).le (ofUtc e : Timestamp Z) = some (decide (d ≤ e)) := if_pos rfl

end Timestamp

/-! ### The clocks of New York -/

/-- Time zones: UTC, and the one of New York in 2026. -/
inductive Place where
  | utc
  | newYork
deriving DecidableEq

/-- The clocks of New York in 2026 between which an hour is skipped. -/
def springForward : Datetime × Datetime :=
  ({ Datetime.morning with
      month := 3, day := 8, hour := 2
      month_bounds := by decide, day_bounds := by decide, hour_lt := by decide },
    { Datetime.morning with
      month := 3, day := 8, hour := 3
      month_bounds := by decide, day_bounds := by decide, hour_lt := by decide })

/-- The clocks of New York in 2026 between which an hour is shown twice. -/
def fallBack : Datetime × Datetime :=
  ({ Datetime.morning with
      month := 11, day := 1, hour := 1
      month_bounds := by decide, day_bounds := by decide, hour_lt := by decide },
    { Datetime.morning with
      month := 11, day := 1, hour := 2
      month_bounds := by decide, day_bounds := by decide, hour_lt := by decide })

/-- The offset of New York in hours. -/
def newYorkOffset (clock : Datetime) (fold : Bool) : ℤ :=
  if clock < springForward.1 then -5
  else if clock < springForward.2 then if fold then -4 else -5
  else if clock < fallBack.1 then -4
  else if clock < fallBack.2 then if fold then -5 else -4
  else -5

instance : Zones Place where
  utcoffset
    | .utc, _, _ => some 0
    | .newYork, clock, fold => some (newYorkOffset clock fold * 3600000000)
  utc := .utc
  utcoffset_utc _ _ := rfl

end Foundation
