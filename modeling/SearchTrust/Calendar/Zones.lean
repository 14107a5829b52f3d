/-
Dates, instants and time zones.  A date is its ordinal, an instant the number of
microseconds from the start of date 0 in UTC, and a zone what it adds to UTC, with the
instants at which that changes.
-/
import Mathlib.Algebra.Order.Group.Unbundled.Int
import Mathlib.Tactic.Linarith

namespace SearchTrust.Calendar

/-- The microseconds of a date. -/
def dayMicros : ℤ := 86400000000

/-- A zone: the offset that holds at first, and the instants from which another one
holds, in order. -/
structure Zone where
  initial : ℤ
  changes : List (ℤ × ℤ)
  initial_bounded : |initial| < dayMicros
  changes_bounded : ∀ change ∈ changes, |change.2| < dayMicros

/-- The offset at an instant. -/
def offsetFrom (t : ℤ) : ℤ → List (ℤ × ℤ) → ℤ
  | offset, [] => offset
  | offset, (start, next) :: rest =>
      if start ≤ t then offsetFrom t next rest else offset

/-- The offset of a time on the clock.  A time that the clock shows twice is the first
one, and one that it skips has the offset before the skip. -/
def wallOffsetFrom (wall : ℤ) : ℤ → List (ℤ × ℤ) → ℤ
  | offset, [] => offset
  | offset, (start, next) :: rest =>
      if start + max offset next ≤ wall then wallOffsetFrom wall next rest else offset

namespace Zone

variable (zone : Zone)

def offsetAt (t : ℤ) : ℤ := offsetFrom t zone.initial zone.changes

def wallOffset (wall : ℤ) : ℤ := wallOffsetFrom wall zone.initial zone.changes

/-- The date that the clock shows at an instant. -/
def localDate (t : ℤ) : ℤ := (t + zone.offsetAt t) / dayMicros

/-- The instant of the first moment of a date, as its clock time is read. -/
def midnight (date : ℤ) : ℤ := date * dayMicros - zone.wallOffset (date * dayMicros)

variable {zone}

theorem offsetFrom_bounded {bound t offset : ℤ} {changes : List (ℤ × ℤ)}
    (hoffset : |offset| < bound) (hchanges : ∀ change ∈ changes, |change.2| < bound) :
    |offsetFrom t offset changes| < bound := by
  induction changes generalizing offset with
  | nil => exact hoffset
  | cons change rest ih =>
      unfold offsetFrom
      split
      · exact ih (hchanges change List.mem_cons_self)
          fun other hother => hchanges other (List.mem_cons_of_mem _ hother)
      · exact hoffset

theorem wallOffsetFrom_bounded {bound wall offset : ℤ} {changes : List (ℤ × ℤ)}
    (hoffset : |offset| < bound) (hchanges : ∀ change ∈ changes, |change.2| < bound) :
    |wallOffsetFrom wall offset changes| < bound := by
  induction changes generalizing offset with
  | nil => exact hoffset
  | cons change rest ih =>
      unfold wallOffsetFrom
      split
      · exact ih (hchanges change List.mem_cons_self)
          fun other hother => hchanges other (List.mem_cons_of_mem _ hother)
      · exact hoffset

/-- An instant lies less than a date away from the times of the date that the clock
shows. -/
theorem near_localDate (zone : Zone) (t : ℤ) :
    (zone.localDate t - 1) * dayMicros < t ∧ t < (zone.localDate t + 2) * dayMicros := by
  have hoffset : |zone.offsetAt t| < dayMicros :=
    offsetFrom_bounded zone.initial_bounded zone.changes_bounded
  have hbound := abs_lt.1 hoffset
  have hpos : 0 < dayMicros := by decide
  have hlow := Int.ediv_mul_le (t + zone.offsetAt t) hpos.ne'
  have hhigh := Int.lt_ediv_add_one_mul_self (t + zone.offsetAt t) hpos
  unfold localDate
  constructor <;> linarith

/-- The first moment of a date lies less than a date away from that moment in UTC. -/
theorem near_midnight (zone : Zone) (date : ℤ) :
    (date - 1) * dayMicros < zone.midnight date ∧ zone.midnight date < (date + 1) * dayMicros := by
  have hoffset : |zone.wallOffset (date * dayMicros)| < dayMicros :=
    wallOffsetFrom_bounded zone.initial_bounded zone.changes_bounded
  have hbound := abs_lt.1 hoffset
  unfold midnight
  constructor <;> linarith

/-- Instants some dates apart show dates not much further apart. -/
theorem localDate_lt (zone : Zone) {a b count : ℤ} (h : a < b + count * dayMicros) :
    zone.localDate a < zone.localDate b + count + 3 := by
  have hpos : 0 < dayMicros := by decide
  have ha := (near_localDate zone a).1
  have hb := (near_localDate zone b).2
  have hlt : (zone.localDate a - 1) * dayMicros <
      (zone.localDate b + 2 + count) * dayMicros := by linarith
  have hdates := lt_of_mul_lt_mul_right hlt hpos.le
  linarith

end Zone

end SearchTrust.Calendar
