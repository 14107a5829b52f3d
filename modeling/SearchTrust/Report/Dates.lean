/-
Calendar dates by their ordinals: day 1 is the first of January of year 1.
-/
import Mathlib.Data.Nat.Notation

namespace SearchTrust.Report

/-- A `date`, as its `toordinal()`. -/
abbrev Date := ℕ

/-- `date.max.toordinal()`. -/
def maxOrdinal : ℕ := 3652059

/-- `date + timedelta(days=days)`; `none` is an `OverflowError`. -/
def addDays (date : Date) (days : ℕ) : Option Date :=
  if date + days ≤ maxOrdinal then some (date + days) else none

/-- The year, the month and the day.  Years are counted from the first of March, in
eras of 400 years. -/
def yearMonthDay (date : Date) : ℕ × ℕ × ℕ :=
  let shifted := date + 305
  let dayOfEra := shifted % 146097
  let yearOfEra :=
    (dayOfEra + dayOfEra / 36524 - dayOfEra / 1460 - dayOfEra / 146096) / 365
  let dayOfYear := dayOfEra + yearOfEra / 100 - (365 * yearOfEra + yearOfEra / 4)
  let month := (5 * dayOfYear + 2) / 153
  let day := dayOfYear - (153 * month + 2) / 5 + 1
  let year := yearOfEra + shifted / 146097 * 400
  if month < 10 then (year, month + 3, day) else (year + 1, month - 9, day)

/-- A number with leading zeros. -/
def padded (width n : ℕ) : String :=
  let digits := (toString n).toList
  .ofList (List.replicate (width - digits.length) '0' ++ digits)

/-- `date.isoformat()`. -/
def isoformat (date : Date) : String :=
  let (year, month, day) := yearMonthDay date
  padded 4 year ++ "-" ++ padded 2 month ++ "-" ++ padded 2 day

example : isoformat 738945 = "2024-02-29" := by decide

end SearchTrust.Report
