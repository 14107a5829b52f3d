/-
Equal complete calendar windows around a date-only implementation assertion.
-/
import Mathlib.Tactic.Ring
import SearchTrust.Calendar.Zones
import SearchTrust.Capability.Priority
import SearchTrust.Report.Outcomes

namespace SearchTrust.Comparison

open SearchTrust.Calendar
open SearchTrust.Capability (require require_eq_ok)
open SearchTrust.Report.Outcomes

/-- What the windows read of an `ImplementationEntry`; the date is an ordinal. -/
structure ImplementationEntry where
  actionId : String
  implementedOn : ℤ
  timezone : String
deriving DecidableEq

structure DateRange where
  start : ℤ
  stop : ℤ
deriving DecidableEq

structure ComparisonWindows where
  days : ℕ
  timezone : String
  before : DateRange
  excluded : DateRange
  after : DateRange
deriving DecidableEq

/-- `ZoneInfo`; `none` is a `ZoneInfoNotFoundError`. -/
abbrev ZoneInfo := String → Option Zone

section Ranges

/-- `date.max` -/
def maxOrdinal : ℤ := 3652059

/-- A date of the calendar; other dates raise `OverflowError`. -/
def checkedDate (date : ℤ) : Except String ℤ :=
  if 1 ≤ date ∧ date ≤ maxOrdinal then .ok date else .error "date value out of range"

/-- An instant of the calendar. -/
def checkedInstant (t : ℤ) : Except String ℤ :=
  if dayMicros ≤ t ∧ t < (maxOrdinal + 1) * dayMicros then .ok t
  else .error "date value out of range"

theorem checkedDate_ok {date result : ℤ} (h : checkedDate date = .ok result) : result = date := by
  unfold checkedDate at h
  split at h
  · exact (Except.ok.inj h).symm
  · cases h

theorem checkedInstant_ok {t result : ℤ} (h : checkedInstant t = .ok result) : result = t := by
  unfold checkedInstant at h
  split at h
  · exact (Except.ok.inj h).symm
  · cases h

def zoneOf (zoneInfo : ZoneInfo) (name : String) : Except String Zone :=
  match zoneInfo name with
  | some zone => .ok zone
  | none => .error "No time zone found"

theorem zoneOf_ok {zoneInfo : ZoneInfo} {name : String} {zone : Zone}
    (h : zoneOf zoneInfo name = .ok zone) : zoneInfo name = some zone := by
  unfold zoneOf at h
  split at h
  next hzone =>
    rw [hzone, Except.ok.inj h]
  next => cases h

/-- `DateRange(start=start, end=stop)` -/
def dateRange (start stop : ℤ) : Except String DateRange := do
  require (decide (start ≤ stop)) "reversed window"
  return ⟨start, stop⟩

end Ranges

/-- `consistent` -/
def ComparisonWindows.consistent (windows : ComparisonWindows) : Except String Unit := do
  require (decide (windows.before.stop - windows.before.start + 1 = windows.days) &&
    decide (windows.after.stop - windows.after.start + 1 = windows.days))
    "comparison windows must have equal complete day counts"
  require (decide (windows.before.stop + 1 = windows.excluded.start) &&
    decide (windows.excluded.stop + 1 = windows.after.start))
    "implementation calendar dates must be excluded"

/-- `plan_windows` -/
def planWindows (zoneInfo : ZoneInfo) (entry : ImplementationEntry) (sourceTimezone : String)
    (days : ℕ) : Except String ComparisonWindows := do
  require (decide (days ∈ [7, 14, 28, 90])) "unsupported window length"
  let source ← zoneOf zoneInfo sourceTimezone
  let own ← zoneOf zoneInfo entry.timezone
  let implemented := entry.implementedOn
  let tomorrow ← checkedDate (implemented + 1)
  let firstUtc ← checkedInstant (own.midnight implemented)
  let lastUtc ← checkedInstant (own.midnight tomorrow)
  let firstOwn ← checkedDate (own.localDate firstUtc)
  require (decide (firstOwn = implemented) && decide (firstUtc < lastUtc))
    "implementation local date does not exist"
  let excludedStart ← checkedDate (source.localDate firstUtc)
  let excludedEnd ← checkedDate (source.localDate (lastUtc - 1))
  let beforeEnd ← checkedDate (excludedStart - 1)
  let afterStart ← checkedDate (excludedEnd + 1)
  let beforeStart ← checkedDate (beforeEnd - (days - 1))
  let before ← dateRange beforeStart beforeEnd
  let excluded ← dateRange excludedStart excludedEnd
  let afterEnd ← checkedDate (afterStart + (days - 1))
  let after ← dateRange afterStart afterEnd
  let windows : ComparisonWindows := ⟨days, sourceTimezone, before, excluded, after⟩
  windows.consistent
  return windows

section Contract

variable {zoneInfo : ZoneInfo} {entry : ImplementationEntry} {sourceTimezone : String}
  {days : ℕ} {windows : ComparisonWindows}

/-- The dates of a range, as instants of a zone show them. -/
def DateRange.Has (range : DateRange) (date : ℤ) : Prop :=
  range.start ≤ date ∧ date ≤ range.stop

/-- The windows have the length that was asked for and lie directly before and after the
excluded dates. -/
structure Adjacent (days : ℕ) (windows : ComparisonWindows) : Prop where
  before_days : windows.before.stop - windows.before.start + 1 = days
  after_days : windows.after.stop - windows.after.start + 1 = days
  before_next : windows.before.stop + 1 = windows.excluded.start
  after_next : windows.excluded.stop + 1 = windows.after.start

/-- No instant of the local date falls into a window. -/
def Avoids (own source : Zone) (date : ℤ) (windows : ComparisonWindows) : Prop :=
  ∀ t, own.localDate t = date →
    ¬ windows.before.Has (source.localDate t) ∧ ¬ windows.after.Has (source.localDate t)

/-- Through the whole local date the calendar of the source shows no date before that of
its first midnight, and none after that of the moment before the next midnight. -/
def StaysOnDates (own source : Zone) (date : ℤ) : Prop :=
  ∀ t, own.localDate t = date →
    source.localDate (own.midnight date) ≤ source.localDate t ∧
      source.localDate t ≤ source.localDate (own.midnight (date + 1) - 1)

/-- What a plan consists of. -/
structure Planned (own source : Zone) (date : ℤ) (days : ℕ) (windows : ComparisonWindows) :
    Prop where
  days_mem : days ∈ [7, 14, 28, 90]
  before_eq : windows.before = ⟨source.localDate (own.midnight date) - days,
    source.localDate (own.midnight date) - 1⟩
  excluded_eq : windows.excluded = ⟨source.localDate (own.midnight date),
    source.localDate (own.midnight (date + 1) - 1)⟩
  after_eq : windows.after = ⟨source.localDate (own.midnight (date + 1) - 1) + 1,
    source.localDate (own.midnight (date + 1) - 1) + days⟩

theorem planWindows_ok
    (h : planWindows zoneInfo entry sourceTimezone days = .ok windows) :
    ∃ own source, zoneInfo entry.timezone = some own ∧ zoneInfo sourceTimezone = some source ∧
      Planned own source entry.implementedOn days windows := by
  unfold planWindows at h
  obtain ⟨_, hdays, h⟩ := ok_of_bind h
  obtain ⟨source, hsource, h⟩ := ok_of_bind h
  obtain ⟨own, hown, h⟩ := ok_of_bind h
  obtain ⟨tomorrow, htomorrow, h⟩ := ok_of_bind h
  obtain ⟨firstUtc, hfirst, h⟩ := ok_of_bind h
  obtain ⟨lastUtc, hlast, h⟩ := ok_of_bind h
  obtain ⟨firstOwn, -, h⟩ := ok_of_bind h
  obtain ⟨_, -, h⟩ := ok_of_bind h
  obtain ⟨excludedStart, hstart, h⟩ := ok_of_bind h
  obtain ⟨excludedEnd, hend, h⟩ := ok_of_bind h
  obtain ⟨beforeEnd, hbeforeEnd, h⟩ := ok_of_bind h
  obtain ⟨afterStart, hafterStart, h⟩ := ok_of_bind h
  obtain ⟨beforeStart, hbeforeStart, h⟩ := ok_of_bind h
  obtain ⟨before, hbefore, h⟩ := ok_of_bind h
  obtain ⟨excluded, hexcluded, h⟩ := ok_of_bind h
  obtain ⟨afterEnd, hafterEnd, h⟩ := ok_of_bind h
  obtain ⟨after, hafter, h⟩ := ok_of_bind h
  obtain ⟨_, -, h⟩ := ok_of_bind h
  obtain rfl := Except.ok.inj h
  obtain ⟨_, -, hbefore⟩ := ok_of_bind hbefore
  obtain ⟨_, -, hexcluded⟩ := ok_of_bind hexcluded
  obtain ⟨_, -, hafter⟩ := ok_of_bind hafter
  obtain rfl := Except.ok.inj hbefore
  obtain rfl := Except.ok.inj hexcluded
  obtain rfl := Except.ok.inj hafter
  obtain rfl := checkedDate_ok htomorrow
  obtain rfl := checkedInstant_ok hfirst
  obtain rfl := checkedInstant_ok hlast
  obtain rfl := checkedDate_ok hstart
  obtain rfl := checkedDate_ok hend
  obtain rfl := checkedDate_ok hbeforeEnd
  obtain rfl := checkedDate_ok hafterStart
  obtain rfl := checkedDate_ok hbeforeStart
  obtain rfl := checkedDate_ok hafterEnd
  refine ⟨own, source, zoneOf_ok hown, zoneOf_ok hsource,
    of_decide_eq_true (require_eq_ok.1 hdays), ?_, rfl, ?_⟩
  · rw [DateRange.mk.injEq]
    exact ⟨by ring, rfl⟩
  · rw [DateRange.mk.injEq]
    exact ⟨rfl, by ring⟩

variable {own source : Zone} {date : ℤ}

theorem Planned.adjacent (h : Planned own source date days windows) : Adjacent days windows where
  before_days := by rw [h.before_eq]; ring
  after_days := by rw [h.after_eq]; ring
  before_next := by rw [h.before_eq, h.excluded_eq]; ring
  after_next := by rw [h.excluded_eq, h.after_eq]

/-- The windows avoid the local date exactly when it stays on the excluded dates: an
instant of it that strays from them is too near to lie beyond a window. -/
theorem Planned.avoids_iff (h : Planned own source date days windows) :
    Avoids own source date windows ↔ StaysOnDates own source date := by
  have hdays : (7 : ℤ) ≤ days := by
    have hmem := h.days_mem
    simp only [List.mem_cons, List.not_mem_nil, or_false] at hmem
    omega
  have hnear : ∀ t, own.localDate t = date →
      source.localDate (own.midnight date) < source.localDate t + 5 ∧
        source.localDate t < source.localDate (own.midnight (date + 1) - 1) + 5 := by
    intro t ht
    have hdate := own.near_localDate t
    rw [ht] at hdate
    have hfirst := own.near_midnight date
    have hlast := own.near_midnight (date + 1)
    constructor
    · have hlt : own.midnight date < t + 2 * dayMicros := by linarith [hfirst.2, hdate.1]
      have hdates := source.localDate_lt hlt
      linarith
    · have hlt : t < own.midnight (date + 1) - 1 + 2 * dayMicros := by linarith [hlast.1, hdate.2]
      have hdates := source.localDate_lt hlt
      linarith
  rw [Avoids, StaysOnDates, h.before_eq, h.after_eq]
  simp only [DateRange.Has]
  constructor
  · intro havoid t ht
    obtain ⟨hbefore, hafter⟩ := havoid t ht
    obtain ⟨hlow, hhigh⟩ := hnear t ht
    constructor
    · by_contra hless
      exact hbefore ⟨by omega, by omega⟩
    · by_contra hmore
      exact hafter ⟨by omega, by omega⟩
  · intro hstays t ht
    obtain ⟨hlow, hhigh⟩ := hstays t ht
    exact ⟨fun hin => by omega, fun hin => by omega⟩

/-- The local date is one stretch of time between its midnights, and the calendar of the
source does not go back in it. -/
structure Unbroken (own source : Zone) (date : ℤ) : Prop where
  within : ∀ t, own.localDate t = date → own.midnight date ≤ t ∧ t < own.midnight (date + 1)
  forward : ∀ s t, own.midnight date ≤ s → s ≤ t → t < own.midnight (date + 1) →
    source.localDate s ≤ source.localDate t

theorem Unbroken.staysOnDates (h : Unbroken own source date) : StaysOnDates own source date := by
  intro t ht
  obtain ⟨hlow, hhigh⟩ := h.within t ht
  refine ⟨h.forward _ t (le_refl _) hlow hhigh, ?_⟩
  exact h.forward t _ hlow (by omega) (by omega)

end Contract

end SearchTrust.Comparison
