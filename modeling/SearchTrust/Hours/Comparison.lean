/-
Comparing the hours of two texts, and what a mismatch says about the minutes that the
texts write.
-/
import SearchTrust.Hours.WeekContract

namespace SearchTrust.Hours

open SearchTrust.Order

section Comparisons

inductive ComparisonState where
  | notChecked
  | mismatch
  | exactMatch
  | partialMatch
deriving DecidableEq, Repr

structure Compared where
  state : ComparisonState
  reason : String
  comparedDays : List ℕ
  omittedDays : List ℕ
deriving DecidableEq

/-- The days of the rows, which must not differ between them. -/
def unionDays (rows : List WeekResult) : Option Week :=
  (rows.flatMap (·.days)).foldlM (fun union entry =>
    match union.lookup entry.1 with
    | none => some (union ++ [entry])
    | some known => if known = entry.2 then some union else none) []

def notComparable (candidate : WeekResult) : Bool :=
  candidate.classification = .parseAmbiguous || candidate.classification = .appointmentOnly ||
    (candidate.classification = .other && candidate.reason ≠ some "hours_label_missing")

def unchecked (reason : String) : Compared := ⟨.notChecked, reason, [], List.range 7⟩

/-- The days of two weeks side by side. -/
def compareWeeks (left right : Week) : Compared :=
  let common := sortedBy id ((left.map Prod.fst).filter (· ∈ right.map Prod.fst))
  if common = [] then unchecked "hours_not_comparable"
  else
    let omitted := (List.range 7).filter (· ∉ common)
    if common.any fun day => left.lookup day ≠ right.lookup day then
      ⟨.mismatch, "value_mismatch", common, omitted⟩
    else if common.length = 7 then ⟨.exactMatch, "exact_match", common, omitted⟩
    else ⟨.partialMatch, "partial_match", common, omitted⟩

/-- `compare_candidates`. -/
def compareCandidates (site gbp : List WeekResult) (eligible : Bool) : Compared :=
  if ¬ eligible then unchecked "source_ineligible"
  else if site.any notComparable then unchecked "hours_not_comparable"
  else
    let usable := site.filter (·.classification = .parsed)
    if usable = [] ∨ gbp = [] then unchecked "field_not_observed"
    else if gbp.any (·.classification ≠ .parsed) then unchecked "hours_not_comparable"
    else
      match unionDays usable, unionDays gbp with
      | some left, some right =>
          if 1 < (usable.map (·.purpose)).dedup.length then unchecked "hours_not_comparable"
          else compareWeeks left right
      | _, _ => unchecked "conflicting_hours_sources"

end Comparisons

section Minutes

variable {weekly : Week} {days : Week} {day : ℕ}

/-- The week is open at a minute of a day; the end of a night counts on the day on which
it falls. -/
def OpenAt (weekly : Week) (day minute : ℕ) : Prop :=
  ∃ item, Falls weekly day item ∧ item.1 ≤ minute ∧ minute < item.2

/-- A night ends on the day at its first moment, where no open minute follows. -/
def MidnightLeft (weekly : Week) (day : ℕ) : Prop :=
  NightEnds weekly day 0 ∧ ¬ OpenAt weekly day 0

/-- Only the end of a night at midnight falls on a day as an empty interval. -/
theorem falls_zero_iff (hweekly : WeekStated weekly) :
    Falls weekly day (0, 0) ↔ NightEnds weekly day 0 := by
  constructor
  · rintro (⟨entry, hentry, -, interval, hinterval, hown⟩ | ⟨last, hnight, hlast⟩)
    · obtain ⟨hstart, -, hne⟩ := hweekly.intervals entry hentry interval hinterval
      unfold ownPart at hown
      split at hown
      · have hend : 0 = 1440 := congrArg Prod.snd hown
        cases hend
      · exact absurd (hown ▸ rfl) hne
    · have hzero : 0 = last := congrArg Prod.snd hlast
      rwa [hzero]
  · exact fun hnight => Or.inr ⟨0, hnight, rfl⟩

/-- What an entry of the expanded week says about its day. -/
theorem entry_spec (hweekly : WeekStated weekly) (hdays : expandWeek weekly = .ok days)
    {entry : ℕ × List Interval} (hentry : entry ∈ days) :
    NormalForm entry.2 ∧ (∀ minute, Covers entry.2 minute ↔ OpenAt weekly entry.1 minute) ∧
      ((0, 0) ∈ entry.2 ↔ MidnightLeft weekly entry.1) := by
  obtain ⟨-, -, hitems⟩ := expandWeek_ok hdays
  obtain ⟨items, hmerged, hfalls⟩ := hitems entry hentry
  have hforward : Forward items := fun item hitem =>
    (falls_bounds hweekly ((hfalls item).1 hitem)).1
  obtain ⟨-, -, hcovers⟩ := mergeIntervals_spec hforward
  have hopen : ∀ minute, Covers items minute ↔ OpenAt weekly entry.1 minute :=
    fun minute => exists_congr fun item => and_congr_left' (hfalls item)
  have hbottom : ∀ item ∈ items, 0 ≤ item.1 := fun item _ => Nat.zero_le _
  rw [hmerged]
  refine ⟨normalForm_merge hweekly fun item hitem => (hfalls item).1 hitem, ?_, ?_⟩
  · exact fun minute => (hcovers minute).trans (hopen minute)
  · rw [bottom_mem_mergeIntervals hforward hbottom, hfalls, falls_zero_iff hweekly, hopen]
    rfl

/-- Entries of one day are the same where their open minutes are and where midnight is left
in both or in neither. -/
theorem entries_eq_iff {other otherDays : Week} (hweekly : WeekStated weekly)
    (hdays : expandWeek weekly = .ok days) (hother : WeekStated other)
    (hotherDays : expandWeek other = .ok otherDays) {a b : ℕ × List Interval} (ha : a ∈ days)
    (hb : b ∈ otherDays) (hday : a.1 = b.1) :
    a.2 = b.2 ↔ (∀ minute, OpenAt weekly a.1 minute ↔ OpenAt other a.1 minute) ∧
      (MidnightLeft weekly a.1 ↔ MidnightLeft other a.1) := by
  obtain ⟨hform, hopen, hleft⟩ := entry_spec hweekly hdays ha
  obtain ⟨hotherForm, hotherOpen, hotherLeft⟩ := entry_spec hother hotherDays hb
  rw [← hday] at hotherOpen hotherLeft
  constructor
  · intro hsame
    refine ⟨fun minute => ?_, ?_⟩
    · rw [← hopen, ← hotherOpen, hsame]
    · rw [← hleft, ← hotherLeft, hsame]
  · rintro ⟨hminutes, hmidnight⟩
    refine eq_of_covers hform.separated (fun item hitem => (hform.bounds item hitem).2.1)
      hotherForm.separated (fun item hitem => (hotherForm.bounds item hitem).2.1) ?_ ?_
    · intro minute
      rw [hopen, hotherOpen, hminutes]
    · intro item hempty
      by_cases hzero : item = (0, 0)
      · rw [hzero, hleft, hotherLeft, hmidnight]
      · constructor
        · intro hitem
          exact absurd hempty (hform.nonempty item hitem hzero).ne
        · intro hitem
          exact absurd hempty (hotherForm.nonempty item hitem hzero).ne

end Minutes

section Mismatches

variable {left right : Week}

/-- A week of different days is found day by day. -/
theorem lookup_of_mem (hnodup : (left.map Prod.fst).Nodup) {entry : ℕ × List Interval}
    (hentry : entry ∈ left) : left.lookup entry.1 = some entry.2 := by
  induction left with
  | nil => exact absurd hentry List.not_mem_nil
  | cons first rest ih =>
      rw [List.map_cons, List.nodup_cons] at hnodup
      rcases List.mem_cons.1 hentry with rfl | hrest
      · rw [List.lookup_cons, beq_self_eq_true]
      · have hne : (entry.1 == first.1) = false := by
          rw [beq_eq_false_iff_ne]
          intro heq
          exact hnodup.1 (heq ▸ List.mem_map_of_mem hrest)
        rw [List.lookup_cons, hne]
        exact ih hnodup.2 hrest

theorem unionDays_singleton {result : WeekResult} (hnodup : (result.days.map Prod.fst).Nodup) :
    unionDays [result] = some result.days := by
  have hstep : ∀ (rest union : Week), ((union ++ rest).map Prod.fst).Nodup →
      rest.foldlM (fun union entry =>
        match union.lookup entry.1 with
        | none => some (union ++ [entry])
        | some known => if known = entry.2 then some union else none) union =
          some (union ++ rest) := by
    intro rest
    induction rest with
    | nil => exact fun union _ => by rw [List.append_nil]; rfl
    | cons entry rest ih =>
        intro union hunion
        have hnew : union.lookup entry.1 = none := by
          rw [lookup_eq_none_iff]
          rw [List.map_append, List.nodup_append] at hunion
          intro hmem
          exact hunion.2.2 entry.1 hmem entry.1 (List.mem_map_of_mem List.mem_cons_self) rfl
        rw [List.foldlM_cons, hnew]
        have hsplit : union ++ entry :: rest = (union ++ [entry]) ++ rest := by
          rw [List.append_assoc, List.singleton_append]
        rw [hsplit] at hunion ⊢
        exact ih (union ++ [entry]) hunion
  have hrun := hstep result.days [] hnodup
  rw [List.nil_append] at hrun
  unfold unionDays
  rw [List.flatMap_cons, List.flatMap_nil, List.append_nil]
  exact hrun

theorem compareWeeks_mismatch_iff :
    (compareWeeks left right).state = .mismatch ↔
      ∃ day, day ∈ left.map Prod.fst ∧ day ∈ right.map Prod.fst ∧
        left.lookup day ≠ right.lookup day := by
  have hmem : ∀ day, day ∈ sortedBy id ((left.map Prod.fst).filter (· ∈ right.map Prod.fst)) ↔
      day ∈ left.map Prod.fst ∧ day ∈ right.map Prod.fst := by
    intro day
    rw [mem_sortedBy, List.mem_filter, decide_eq_true_eq]
  unfold compareWeeks
  dsimp only
  split
  · next hnone =>
      constructor
      · intro h
        cases h
      · rintro ⟨day, hleft, hright, -⟩
        have hday := (hmem day).2 ⟨hleft, hright⟩
        rw [hnone] at hday
        exact absurd hday List.not_mem_nil
  · split
    · next hdiffer =>
        obtain ⟨day, hday, hne⟩ := List.any_eq_true.1 hdiffer
        obtain ⟨hleft, hright⟩ := (hmem day).1 hday
        exact iff_of_true rfl ⟨day, hleft, hright, of_decide_eq_true hne⟩
    · next hsame =>
        have hno : ¬ ∃ day, day ∈ left.map Prod.fst ∧ day ∈ right.map Prod.fst ∧
            left.lookup day ≠ right.lookup day := by
          rintro ⟨day, hleft, hright, hne⟩
          exact hsame (List.any_eq_true.2 ⟨day, (hmem day).2 ⟨hleft, hright⟩,
            decide_eq_true hne⟩)
        split
        · exact iff_of_false (fun h => by cases h) hno
        · exact iff_of_false (fun h => by cases h) hno

theorem compareCandidates_pair {a b : WeekResult} (ha : a.classification = .parsed)
    (hb : b.classification = .parsed) (hanodup : (a.days.map Prod.fst).Nodup)
    (hbnodup : (b.days.map Prod.fst).Nodup) :
    compareCandidates [a] [b] true = compareWeeks a.days b.days := by
  have hcomparable : notComparable a = false := by
    rw [notComparable, ha]
    rfl
  unfold compareCandidates
  rw [if_neg (not_not.2 rfl)]
  simp only [List.any_cons, List.any_nil, Bool.or_false, hcomparable, Bool.false_eq_true,
    if_false, List.filter_cons, ha, decide_true, if_true, List.filter_nil, hb, ne_eq,
    not_true_eq_false, decide_false, reduceCtorEq, or_self, unionDays_singleton hanodup,
    unionDays_singleton hbnodup, List.map_cons, List.map_nil]
  rw [if_neg (by simp)]

end Mismatches

section Soundness

variable {lib : TextLibrary} {structured other : Bool} {site gbp : List Char}
  {a b : WeekResult}

/-- A mismatch is found between two texts only for a day that both state and on which they
write different minutes, and never between texts that write the same minutes. -/
def MismatchSound (lib : TextLibrary) (site gbp : List Char) (left right : Week)
    (compared : Compared) : Prop :=
  (compared.state = .mismatch →
    ∃ day ∈ statedDays lib (normalized lib site), day ∈ statedDays lib (normalized lib gbp) ∧
      ∃ minute, ¬ (OpenAt left day minute ↔ OpenAt right day minute)) ∧
  ((∀ day minute, OpenAt left day minute ↔ OpenAt right day minute) →
    compared.state ≠ .mismatch)

/-- Some day that both texts state has different minutes, or every day that both results
have, also by the end of a night, has the same minutes and the same end at midnight. -/
def WrittenAlike (lib : TextLibrary) (site gbp : List Char) (left right : Week) : Prop :=
  (∃ day ∈ statedDays lib (normalized lib site), day ∈ statedDays lib (normalized lib gbp) ∧
    ∃ minute, ¬ (OpenAt left day minute ↔ OpenAt right day minute)) ∨
  ∀ day, HasDay left day → HasDay right day →
    (∀ minute, OpenAt left day minute ↔ OpenAt right day minute) ∧
      (MidnightLeft left day ↔ MidnightLeft right day)

/-- A mismatch is a common day whose minutes or whose ends at midnight differ. -/
theorem mismatch_iff {left right days others : Week} (hleft : WeekStated left)
    (hright : WeekStated right) (hdays : expandWeek left = .ok days)
    (hothers : expandWeek right = .ok others) :
    (compareWeeks days others).state = .mismatch ↔
      ∃ day, HasDay left day ∧ HasDay right day ∧
        ¬ ((∀ minute, OpenAt left day minute ↔ OpenAt right day minute) ∧
          (MidnightLeft left day ↔ MidnightLeft right day)) := by
  obtain ⟨hnodup, hhas, -⟩ := expandWeek_ok hdays
  obtain ⟨hotherNodup, hotherHas, -⟩ := expandWeek_ok hothers
  rw [compareWeeks_mismatch_iff]
  refine exists_congr fun day => ?_
  rw [hhas, hotherHas]
  refine and_congr_right fun hday => and_congr_right fun hother => not_congr ?_
  obtain ⟨first, hfirst, rfl⟩ := List.mem_map.1 ((hhas day).2 hday)
  obtain ⟨second, hsecond, hsame⟩ := List.mem_map.1 ((hotherHas _).2 hother)
  have hlookup : others.lookup first.1 = some second.2 := by
    rw [← hsame]
    exact lookup_of_mem hotherNodup hsecond
  rw [lookup_of_mem hnodup hfirst, hlookup, Option.some.injEq]
  exact entries_eq_iff hleft hdays hright hothers hfirst hsecond hsame.symm

end Soundness

section Midnight

/-- An evening on every day, up to midnight. -/
def everyEvening (last : String) : List Char := ("Open daily 18:00-" ++ last).toList

/-- What is parsed when midnight is the end of a day. -/
def eveningWeek : WeekResult :=
  ⟨.parsed, "regular_business", (List.range 7).map fun day => (day, [(1080, 1440)]), none,
    some []⟩

/-- What is parsed when midnight is the start of the next day. -/
def midnightWeek : WeekResult :=
  ⟨.parsed, "regular_business", [1, 0, 2, 3, 4, 5, 6].map fun day => (day, [(0, 0), (1080, 1440)]),
    none, some []⟩

theorem parseWeek_evening : parseWeek asciiLibrary false (everyEvening "24:00") =
    some eveningWeek := by
  decide +kernel

theorem parseWeek_midnight : parseWeek asciiLibrary false (everyEvening "0:00") =
    some midnightWeek := by
  decide +kernel

/-- The open minutes of a week are those of the days that it expands to. -/
theorem openAt_iff {weekly days : Week} (hweekly : WeekStated weekly)
    (hdays : expandWeek weekly = .ok days) {day minute : ℕ} :
    OpenAt weekly day minute ↔ ∃ entry ∈ days, entry.1 = day ∧ Covers entry.2 minute := by
  constructor
  · intro h
    have hday : HasDay weekly day := by
      obtain ⟨item, ⟨entry, hentry, rfl, -⟩ | ⟨last, hnight, -⟩, -⟩ := h
      · exact Or.inl (List.mem_map_of_mem hentry)
      · exact Or.inr ⟨last, hnight⟩
    obtain ⟨-, hhas, -⟩ := expandWeek_ok hdays
    obtain ⟨entry, hentry, rfl⟩ := List.mem_map.1 ((hhas day).2 hday)
    obtain ⟨-, hopen, -⟩ := entry_spec hweekly hdays hentry
    exact ⟨entry, hentry, rfl, (hopen minute).2 h⟩
  · rintro ⟨entry, hentry, rfl, hcovers⟩
    obtain ⟨-, hopen, -⟩ := entry_spec hweekly hdays hentry
    exact (hopen minute).1 hcovers

end Midnight

end SearchTrust.Hours
