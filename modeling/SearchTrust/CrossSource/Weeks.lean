/-
`complete_week_pairs`: the weeks that two sources cover from Monday to Sunday.  A date is
its ordinal, and date arithmetic that leaves the calendar raises `OverflowError`.
-/
import Mathlib.Algebra.Order.Ring.Int
import Mathlib.Data.List.Basic
import Mathlib.Tactic.Linarith
import Mathlib.Tactic.Ring

namespace SearchTrust.CrossSource

variable {ν : Type} [Add ν] [Zero ν]

/-- The days from `date.min` to `date.max`. -/
def InCalendar (day : ℤ) : Prop := 1 ≤ day ∧ day ≤ 3652059

instance decidableInCalendar (day : ℤ) : Decidable (InCalendar day) :=
  inferInstanceAs (Decidable (_ ∧ _))

/-- `date + timedelta(days=days)`; `none` is an `OverflowError`. -/
def plusDays (day days : ℤ) : Option ℤ :=
  if InCalendar (day + days) then some (day + days) else none

/-- `date.weekday()`: Monday is 0. -/
def weekday (day : ℤ) : ℤ := (day + 6) % 7

/-- The seven days from a Monday on. -/
def weekDays (monday : ℤ) : List ℤ := (List.range 7).map fun (offset : ℕ) => monday + offset

/-- `sum(values[day] for day in dates)`. -/
def sumOver (values : ℤ → Option ν) (dates : List ℤ) : ν :=
  (dates.filterMap values).foldl (· + ·) 0

/-- What one round appends. -/
def weekRow (left right : ℤ → Option ν) (cursor : ℤ) : Option (ℤ × ν × ν) :=
  let dates := weekDays cursor
  if ∀ day ∈ dates, (left day).isSome ∧ (right day).isSome then
    some (cursor, sumOver left dates, sumOver right dates)
  else none

/-- The `while` loop from a cursor on. -/
def weekRounds (left right : ℤ → Option ν) (last cursor : ℤ) (result : List (ℤ × ν × ν)) :
    Option (List (ℤ × ν × ν)) :=
  if InCalendar (cursor + 6) then
    if cursor + 6 ≤ last then
      if InCalendar (cursor + 7) then
        weekRounds left right last (cursor + 7) (result ++ (weekRow left right cursor).toList)
      else none
    else some result
  else none
termination_by (last - cursor).toNat

/-- `complete_week_pairs(left, right, start=start, end=stop, right_lag_days=lag)`. -/
def completeWeekPairs (left right : ℤ → Option ν) (start stop lag : ℤ) :
    Option (List (ℤ × ν × ν)) := do
  let effectiveEnd ← plusDays stop (-lag)
  let first ← plusDays start (-weekday start % 7)
  let last ← plusDays effectiveEnd (-((weekday effectiveEnd + 1) % 7))
  weekRounds left right last first []

/-- The first Monday from `start` on. -/
def firstMonday (start : ℤ) : ℤ := start + -weekday start % 7

/-- The last Sunday up to a day. -/
def lastSunday (day : ℤ) : ℤ := day - (weekday day + 1) % 7

/-- The days that the function computes lie in the calendar: the end less the lag, the
last Sunday, and the Sunday after the last round. -/
def Representable (start stop lag : ℤ) : Prop :=
  InCalendar (stop - lag) ∧ InCalendar (firstMonday start) ∧ InCalendar (lastSunday (stop - lag)) ∧
    InCalendar (max (firstMonday start) (lastSunday (stop - lag) + 1) + 6)

instance decidableRepresentable (start stop lag : ℤ) : Decidable (Representable start stop lag) :=
  inferInstanceAs (Decidable (_ ∧ _ ∧ _ ∧ _))

section Days

theorem firstMonday_spec (start : ℤ) :
    weekday (firstMonday start) = 0 ∧ start ≤ firstMonday start ∧
      firstMonday start ≤ start + 6 := by
  unfold firstMonday weekday
  omega

theorem lastSunday_spec (day : ℤ) :
    weekday (lastSunday day + 1) = 0 ∧ lastSunday day ≤ day ∧ day ≤ lastSunday day + 6 := by
  unfold lastSunday weekday
  omega

/-- A Monday whose week lies between the bounds lies between those of the loop. -/
theorem within_iff {monday start stop : ℤ} (h : weekday monday = 0) :
    start ≤ monday ∧ monday + 6 ≤ stop ↔
      firstMonday start ≤ monday ∧ monday + 6 ≤ lastSunday stop := by
  unfold firstMonday lastSunday
  unfold weekday at *
  omega

theorem mem_weekDays {monday day : ℤ} : day ∈ weekDays monday ↔ monday ≤ day ∧ day ≤ monday + 6 := by
  unfold weekDays
  rw [List.mem_map]
  constructor
  · rintro ⟨offset, hoffset, rfl⟩
    have hlt := List.mem_range.1 hoffset
    omega
  · rintro ⟨hlow, hhigh⟩
    refine ⟨(day - monday).toNat, List.mem_range.2 ?_, ?_⟩
    · omega
    · omega

end Days

section Rounds

variable {left right : ℤ → Option ν} {last : ℤ}

/-- The loop appends one row for each week that it passes. -/
theorem weekRounds_eq (rounds : ℕ) {cursor : ℤ} (result : List (ℤ × ν × ν))
    (hlast : last + 1 = cursor + 7 * rounds) (hcursor : 1 ≤ cursor)
    (hend : cursor + 7 * rounds + 6 ≤ 3652059) :
    weekRounds left right last cursor result =
      some (result ++ (List.range rounds).filterMap fun (round : ℕ) =>
        weekRow left right (cursor + 7 * round)) := by
  induction rounds generalizing cursor result with
  | zero =>
      have hinside : InCalendar (cursor + 6) := by
        unfold InCalendar
        omega
      rw [weekRounds, if_pos hinside, if_neg (by omega), List.range_zero, List.filterMap_nil,
        List.append_nil]
  | succ rounds ih =>
      have hinside : InCalendar (cursor + 6) := by
        unfold InCalendar
        omega
      have hnext : InCalendar (cursor + 7) := by
        unfold InCalendar
        omega
      have hrest := @ih (cursor + 7) (result ++ (weekRow left right cursor).toList)
        (by omega) (by omega) (by omega)
      have hshift : (List.range rounds).filterMap (fun (round : ℕ) =>
          weekRow left right (cursor + 7 + 7 * round)) =
          ((List.range rounds).map Nat.succ).filterMap fun (round : ℕ) =>
            weekRow left right (cursor + 7 * round) := by
        rw [List.filterMap_map]
        refine List.filterMap_congr ?_
        intro round _
        have hday : cursor + 7 + 7 * (round : ℤ) = cursor + 7 * ((round.succ : ℕ) : ℤ) := by
          push_cast
          ring
        rw [hday]
        rfl
      rw [weekRounds, if_pos hinside, if_pos (by omega), if_pos hnext, hrest, hshift,
        List.range_succ_eq_map, List.append_assoc]
      congr 2
      rw [List.filterMap_cons]
      have hzero : cursor + 7 * ((0 : ℕ) : ℤ) = cursor := by simp
      rw [hzero]
      cases weekRow left right cursor with
      | none => rfl
      | some row => rfl

/-- A loop that leaves the calendar raises. -/
theorem weekRounds_eq_none {cursor : ℤ} (result : List (ℤ × ν × ν)) (hcursor : 1 ≤ cursor)
    (h : 3652059 < max cursor (last + 1) + 6) (haligned : (last + 1 - cursor) % 7 = 0) :
    weekRounds left right last cursor result = none := by
  induction cursor, result using weekRounds.induct left right last with
  | case1 cursor result hinside hround hnext ih =>
      rw [weekRounds, if_pos hinside, if_pos hround, if_pos hnext]
      refine ih (by omega) ?_ (by omega)
      omega
  | case2 cursor result hinside hround hnext =>
      rw [weekRounds, if_pos hinside, if_pos hround, if_neg hnext]
  | case3 cursor result hinside hround =>
      unfold InCalendar at hinside
      omega
  | case4 cursor result hinside =>
      rw [weekRounds, if_neg hinside]

/-- A loop whose first week is too late appends nothing. -/
theorem weekRounds_of_late {cursor : ℤ} (result : List (ℤ × ν × ν))
    (hinside : InCalendar (cursor + 6)) (h : last < cursor + 6) :
    weekRounds left right last cursor result = some result := by
  rw [weekRounds, if_pos hinside, if_neg (not_le.2 h)]

end Rounds

section Pairs

variable {left right : ℤ → Option ν} {start stop lag : ℤ}

theorem weekRow_eq_some_iff {cursor : ℤ} {row : ℤ × ν × ν} :
    weekRow left right cursor = some row ↔
      (∀ day ∈ weekDays cursor, (left day).isSome ∧ (right day).isSome) ∧
        row = (cursor, sumOver left (weekDays cursor), sumOver right (weekDays cursor)) := by
  unfold weekRow
  simp only
  split
  next hall =>
    constructor
    · intro hrow
      exact ⟨hall, (Option.some.inj hrow).symm⟩
    · rintro ⟨_, rfl⟩
      rfl
  next hall =>
    constructor
    · intro hrow
      cases hrow
    · rintro ⟨hcovered, _⟩
      exact absurd hcovered hall

/-- The function is its loop where the days that it starts from are dates. -/
theorem completeWeekPairs_eq (hend : InCalendar (stop - lag))
    (hfirst : InCalendar (firstMonday start)) (hlast : InCalendar (lastSunday (stop - lag))) :
    completeWeekPairs left right start stop lag =
      weekRounds left right (lastSunday (stop - lag)) (firstMonday start) [] := by
  have hstop : plusDays stop (-lag) = some (stop - lag) := if_pos hend
  have hstart : plusDays start (-weekday start % 7) = some (firstMonday start) := if_pos hfirst
  have hsunday : plusDays (stop - lag) (-((weekday (stop - lag) + 1) % 7)) =
      some (lastSunday (stop - lag)) := if_pos hlast
  unfold completeWeekPairs
  rw [hstop]
  change (plusDays start (-weekday start % 7) >>= fun first =>
    plusDays (stop - lag) (-((weekday (stop - lag) + 1) % 7)) >>= fun last =>
      weekRounds left right last first []) = _
  rw [hstart]
  change (plusDays (stop - lag) (-((weekday (stop - lag) + 1) % 7)) >>= fun last =>
    weekRounds left right last (firstMonday start) []) = _
  rw [hsunday]
  rfl

theorem aligned (start day : ℤ) : (lastSunday day + 1 - firstMonday start) % 7 = 0 := by
  have hfirst := (firstMonday_spec start).1
  have hlast := (lastSunday_spec day).1
  unfold weekday at hfirst hlast
  omega

/-- Dates that leave the calendar end the call with an error. -/
theorem completeWeekPairs_eq_none (h : ¬Representable start stop lag) :
    completeWeekPairs left right start stop lag = none := by
  by_cases hend : InCalendar (stop - lag)
  · by_cases hfirst : InCalendar (firstMonday start)
    · by_cases hlast : InCalendar (lastSunday (stop - lag))
      · rw [completeWeekPairs_eq hend hfirst hlast]
        have hover : ¬InCalendar
            (max (firstMonday start) (lastSunday (stop - lag) + 1) + 6) :=
          fun hinside => h ⟨hend, hfirst, hlast, hinside⟩
        refine weekRounds_eq_none [] hfirst.1 ?_ (aligned start (stop - lag))
        have hlow := hfirst.1
        unfold InCalendar at hover
        omega
      · have hstop : plusDays stop (-lag) = some (stop - lag) := if_pos hend
        have hstart : plusDays start (-weekday start % 7) = some (firstMonday start) :=
          if_pos hfirst
        have hsunday : plusDays (stop - lag) (-((weekday (stop - lag) + 1) % 7)) = none :=
          if_neg hlast
        unfold completeWeekPairs
        rw [hstop]
        change (plusDays start (-weekday start % 7) >>= fun first =>
          plusDays (stop - lag) (-((weekday (stop - lag) + 1) % 7)) >>= fun last =>
            weekRounds left right last first []) = _
        rw [hstart]
        change (plusDays (stop - lag) (-((weekday (stop - lag) + 1) % 7)) >>= fun last =>
          weekRounds left right last (firstMonday start) []) = _
        rw [hsunday]
        rfl
    · have hstart : plusDays start (-weekday start % 7) = none := if_neg hfirst
      have hstop : plusDays stop (-lag) = some (stop - lag) := if_pos hend
      unfold completeWeekPairs
      rw [hstop, hstart]
      rfl
  · have hstop : plusDays stop (-lag) = none := if_neg hend
    unfold completeWeekPairs
    rw [hstop]
    rfl

/-- A week from Monday to Sunday within the bounds that both maps cover, with its sums. -/
structure IsCompleteWeek (left right : ℤ → Option ν) (start stop lag : ℤ)
    (row : ℤ × ν × ν) : Prop where
  monday : weekday row.1 = 0
  from_start : start ≤ row.1
  to_end : row.1 + 6 ≤ stop - lag
  covered : ∀ day, row.1 ≤ day → day ≤ row.1 + 6 → (left day).isSome ∧ (right day).isSome
  left_sum : row.2.1 = sumOver left (weekDays row.1)
  right_sum : row.2.2 = sumOver right (weekDays row.1)

theorem isCompleteWeek_iff {row : ℤ × ν × ν} :
    IsCompleteWeek left right start stop lag row ↔
      weekday row.1 = 0 ∧ start ≤ row.1 ∧ row.1 + 6 ≤ stop - lag ∧
        weekRow left right row.1 = some row := by
  rw [weekRow_eq_some_iff]
  constructor
  · intro h
    refine ⟨h.monday, h.from_start, h.to_end, ?_, ?_⟩
    · intro day hday
      obtain ⟨hlow, hhigh⟩ := mem_weekDays.1 hday
      exact h.covered day hlow hhigh
    · exact Prod.ext rfl (Prod.ext h.left_sum h.right_sum)
  · rintro ⟨hmonday, hstart, hend, hcovered, hrow⟩
    refine ⟨hmonday, hstart, hend, ?_, ?_, ?_⟩
    · intro day hlow hhigh
      exact hcovered day (mem_weekDays.2 ⟨hlow, hhigh⟩)
    · exact congrArg (fun r : ℤ × ν × ν => r.2.1) hrow
    · exact congrArg (fun r : ℤ × ν × ν => r.2.2) hrow

/-- The rows that a call returns, in closed form. -/
theorem completeWeekPairs_eq_rows (h : Representable start stop lag) :
    completeWeekPairs left right start stop lag =
      some ((List.range ((lastSunday (stop - lag) + 1 - firstMonday start) / 7).toNat).filterMap
        fun (round : ℕ) => weekRow left right (firstMonday start + 7 * round)) := by
  obtain ⟨hend, hfirst, hlast, hinside⟩ := h
  have haligned := aligned start (stop - lag)
  rw [completeWeekPairs_eq hend hfirst hlast]
  by_cases hlate : lastSunday (stop - lag) < firstMonday start + 6
  · have hinside' : InCalendar (firstMonday start + 6) := by
      have hlow := hfirst.1
      have hhigh := hinside.2
      unfold InCalendar
      omega
    have hnone : ((lastSunday (stop - lag) + 1 - firstMonday start) / 7).toNat = 0 := by omega
    rw [weekRounds_of_late [] hinside' hlate, hnone]
    rfl
  · have hhigh := hinside.2
    rw [weekRounds_eq ((lastSunday (stop - lag) + 1 - firstMonday start) / 7).toNat []
      (by omega) hfirst.1 (by omega), List.nil_append]

/-- A call returns the complete weeks in order, or ends with an error because a day that
it computes is none of the calendar. -/
theorem complete_week_pairs (left right : ℤ → Option ν) (start stop lag : ℤ) :
    (completeWeekPairs left right start stop lag = none ↔ ¬Representable start stop lag) ∧
    ∀ rows, completeWeekPairs left right start stop lag = some rows →
      rows.Pairwise (fun a b => a.1 < b.1) ∧
      (∀ row, row ∈ rows ↔ IsCompleteWeek left right start stop lag row) ∧
      ∀ day, ∀ a ∈ rows, ∀ b ∈ rows, a.1 ≤ day → day ≤ a.1 + 6 → b.1 ≤ day →
        day ≤ b.1 + 6 → a = b := by
  by_cases h : Representable start stop lag
  swap
  · rw [completeWeekPairs_eq_none h]
    refine ⟨⟨fun _ => h, fun _ => rfl⟩, ?_⟩
    intro rows hrows
    cases hrows
  rw [completeWeekPairs_eq_rows h]
  refine ⟨⟨fun hnone => absurd hnone (Option.some_ne_none _), fun hnot => absurd h hnot⟩, ?_⟩
  intro rows hrows
  obtain rfl := Option.some.inj hrows
  have hday : ∀ (round : ℕ) (row : ℤ × ν × ν),
      weekRow left right (firstMonday start + 7 * round) = some row →
        row.1 = firstMonday start + 7 * round := by
    intro round row hrow
    rw [(weekRow_eq_some_iff.1 hrow).2]
  have hmem : ∀ row, row ∈ (List.range
      ((lastSunday (stop - lag) + 1 - firstMonday start) / 7).toNat).filterMap
        (fun (round : ℕ) => weekRow left right (firstMonday start + 7 * round)) ↔
      IsCompleteWeek left right start stop lag row := by
    intro row
    have hmonday := (firstMonday_spec start).1
    rw [isCompleteWeek_iff, List.mem_filterMap]
    constructor
    · rintro ⟨round, hround, hrow⟩
      have hlt := List.mem_range.1 hround
      have hrowday := hday round row hrow
      have hweekday : weekday row.1 = 0 := by
        rw [hrowday]
        unfold weekday at *
        omega
      have hbounds : start ≤ row.1 ∧ row.1 + 6 ≤ stop - lag := by
        refine (within_iff hweekday).2 ?_
        rw [hrowday]
        omega
      refine ⟨hweekday, hbounds.1, hbounds.2, ?_⟩
      rw [hrowday]
      exact hrow
    · rintro ⟨hweekday, hstart, hend, hrow⟩
      have hbounds := (within_iff hweekday).1 ⟨hstart, hend⟩
      have hround : row.1 = firstMonday start + 7 * (((row.1 - firstMonday start) / 7).toNat : ℤ) := by
        unfold weekday at *
        omega
      refine ⟨((row.1 - firstMonday start) / 7).toNat, List.mem_range.2 ?_, ?_⟩
      · omega
      · rw [← hround]
        exact hrow
  refine ⟨?_, hmem, ?_⟩
  · refine List.Pairwise.filterMap _ ?_ List.pairwise_lt_range
    intro i j hij a ha b hb
    rw [hday i a ha, hday j b hb]
    omega
  · intro day a ha b hb halow hahigh hblow hbhigh
    have ha' := isCompleteWeek_iff.1 ((hmem a).1 ha)
    have hb' := isCompleteWeek_iff.1 ((hmem b).1 hb)
    have hsame : a.1 = b.1 := by
      have hma := ha'.1
      have hmb := hb'.1
      unfold weekday at hma hmb
      omega
    have hrow := ha'.2.2.2
    rw [hsame, hb'.2.2.2] at hrow
    exact (Option.some.inj hrow).symm

/-- On the last day of the calendar the loop leaves it. -/
theorem end_of_calendar :
    completeWeekPairs (fun _ => some (1 : ℤ)) (fun _ => some 1) 3651970 3652059 2 = none :=
  completeWeekPairs_eq_none (by decide)

end Pairs

end SearchTrust.CrossSource
