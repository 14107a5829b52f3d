/-
The days of a parsed week: whose they are, and the form of their intervals.
-/
import SearchTrust.Hours.Week
import SearchTrust.Report.Outcomes

namespace SearchTrust.Hours

open SearchTrust.Text
open SearchTrust.Order
open SearchTrust.Report.Outcomes

section Times

variable {lib : TextLibrary} {structured : Bool}

theorem clockMinutes_le {text : List Char} {minutes : ℕ}
    (h : clockMinutes lib text = .ok minutes) : minutes ≤ 1440 := by
  unfold clockMinutes at h
  split at h
  · cases h
  · dsimp only at h
    split at h
    · cases h
    · next hminute =>
        split at h
        · split at h
          · cases h
          · next hhour =>
              cases h
              split <;> omega
        · split at h
          · cases h
          · split at h
            · cases h
            · next hhour =>
                cases h
                rw [not_or, not_and_not_right] at hhour
                omega

/-- An interval as a text may state it: no end of it is past midnight, it is not empty,
and it does not start at the end of the day. -/
def Stated (interval : Interval) : Prop :=
  interval.1 < 1440 ∧ interval.2 ≤ 1440 ∧ interval.1 ≠ interval.2

theorem stated_mk {first last : ℕ} (hfirst : first < 1440) (hlast : last ≤ 1440)
    (hne : first ≠ last) : Stated (first, last) := ⟨hfirst, hlast, hne⟩

theorem spanInterval_stated {groups : Groups} {found : Interval × Bool}
    (h : spanInterval lib structured groups = .ok found) : Stated found.1 := by
  unfold spanInterval at h
  obtain ⟨first, hfirst, h⟩ := ok_of_bind h
  obtain ⟨last, hlast, h⟩ := ok_of_bind h
  have hfirstLe := clockMinutes_le hfirst
  have hlastLe := clockMinutes_le hlast
  split at h
  · cases h
  · next hends =>
      rw [not_or] at hends
      split at h
      · next hday =>
          cases h
          exact stated_mk (by omega) (le_refl _) (by omega)
      · cases h
        exact stated_mk (by omega) hlastLe hends.1

theorem bodyRanges_stated {body : List Char} {found : List Interval × Bool}
    (h : bodyRanges lib structured body = .ok found) :
    ∀ interval ∈ found.1, Stated interval := by
  unfold bodyRanges at h
  obtain ⟨ranges, hranges, h⟩ := ok_of_bind h
  have hstated : ∀ interval ∈ ranges.1, Stated interval := by
    unfold statedRanges at hranges
    dsimp only at hranges
    split at hranges
    · cases hranges
    · split at hranges
      · cases hranges
        exact fun interval hmem => absurd hmem List.not_mem_nil
      · split at hranges
        · cases hranges
          intro interval hmem
          rw [List.mem_singleton.1 hmem]
          exact ⟨by decide, le_refl _, by decide⟩
        · split at hranges
          · cases hranges
          · obtain ⟨intervals, hintervals, hranges⟩ := ok_of_bind hranges
            cases hranges
            intro interval hmem
            obtain ⟨found, hfound, rfl⟩ := List.mem_map.1 hmem
            obtain ⟨groups, -, hgroups⟩ :=
              exists_left_of_mem (forall₂_of_mapM_ok hintervals) hfound
            exact spanInterval_stated hgroups
  split at h
  · cases h
  · split at h
    · cases h
    · cases h
      exact hstated

end Times

section Weeks

variable {lib : TextLibrary} {structured : Bool}

/-- A week as it is written: each day once, with intervals as a text may state them. -/
structure WeekStated (weekly : Week) : Prop where
  days : (weekly.map Prod.fst).Nodup
  intervals : ∀ entry ∈ weekly, ∀ interval ∈ entry.2, Stated interval

theorem lookup_eq_none_iff {weekly : Week} {day : ℕ} :
    weekly.lookup day = none ↔ day ∉ weekly.map Prod.fst := by
  rw [List.lookup_eq_none_iff, List.mem_map]
  constructor
  · rintro h ⟨entry, hentry, rfl⟩
    exact bne_iff_ne.1 (h entry hentry) rfl
  · intro h entry hentry
    rw [bne_iff_ne]
    rintro rfl
    exact h ⟨entry, hentry, rfl⟩

/-- Saying the hours of a day adds the day, unless it has them. -/
theorem setDay_ok {ranges : List Interval} {weekly after : Week} {day : ℕ}
    (h : setDay ranges weekly day = .ok after) :
    after = weekly ∧ weekly.lookup day = some ranges ∨
      after = weekly ++ [(day, ranges)] ∧ day ∉ weekly.map Prod.fst := by
  unfold setDay at h
  split at h
  · next hnone =>
      cases h
      exact Or.inr ⟨rfl, lookup_eq_none_iff.1 hnone⟩
  · next known hknown =>
      split at h
      · next hsame =>
          cases h
          exact Or.inl ⟨rfl, hsame ▸ hknown⟩
      · cases h

theorem setDay_stated {ranges : List Interval} {weekly after : Week} {day : ℕ}
    (hranges : ∀ interval ∈ ranges, Stated interval) (hweekly : WeekStated weekly)
    (h : setDay ranges weekly day = .ok after) : WeekStated after := by
  rcases setDay_ok h with ⟨rfl, -⟩ | ⟨rfl, hnew⟩
  · exact hweekly
  · constructor
    · rw [List.map_append, List.nodup_append]
      refine ⟨hweekly.days, List.nodup_singleton _, ?_⟩
      rintro known hknown other hother rfl
      rw [List.map_singleton, List.mem_singleton] at hother
      rw [hother] at hknown
      exact hnew hknown
    · intro entry hentry
      rcases List.mem_append.1 hentry with hentry | hentry
      · exact hweekly.intervals entry hentry
      · rw [List.mem_singleton.1 hentry]
        exact hranges

/-- The days that a week has after the hours of some days were said. -/
theorem setDay_days {ranges : List Interval} {weekly after : Week} {day : ℕ}
    (h : setDay ranges weekly day = .ok after) (other : ℕ) :
    other ∈ after.map Prod.fst ↔ other ∈ weekly.map Prod.fst ∨ other = day := by
  rcases setDay_ok h with ⟨rfl, hknown⟩ | ⟨rfl, -⟩
  · have hday : day ∈ after.map Prod.fst := by
      by_contra hnot
      rw [lookup_eq_none_iff.2 hnot] at hknown
      cases hknown
    constructor
    · exact Or.inl
    · rintro (hother | rfl)
      · exact hother
      · exact hday
  · rw [List.map_append, List.mem_append, List.map_singleton, List.mem_singleton]

theorem setDays_ok {ranges : List Interval} (hranges : ∀ interval ∈ ranges, Stated interval)
    {days : List ℕ} {weekly after : Week} (hweekly : WeekStated weekly)
    (h : days.foldlM (setDay ranges) weekly = .ok after) :
    WeekStated after ∧ ∀ other, other ∈ after.map Prod.fst ↔
      other ∈ weekly.map Prod.fst ∨ other ∈ days := by
  induction days generalizing weekly with
  | nil =>
      cases h
      exact ⟨hweekly, fun other => by simp⟩
  | cons day rest ih =>
      rw [List.foldlM_cons] at h
      obtain ⟨next, hnext, h⟩ := ok_of_bind h
      obtain ⟨hafter, hdays⟩ := ih (setDay_stated hranges hweekly hnext) h
      refine ⟨hafter, fun other => ?_⟩
      rw [hdays, setDay_days hnext, List.mem_cons, or_assoc]

/-- The written week has the days of its chunks. -/
theorem writtenWeek_ok {chunks : List Chunk} {written : Week × Bool}
    (h : writtenWeek lib structured chunks = .ok written) :
    WeekStated written.1 ∧ ∀ day, day ∈ written.1.map Prod.fst ↔
      ∃ chunk ∈ chunks, day ∈ chunk.days := by
  have hstep : ∀ (state : Week × Bool), WeekStated state.1 → ∀ (chunks : List Chunk),
      chunks.foldlM (addChunk lib structured) state = .ok written →
      WeekStated written.1 ∧ ∀ day, day ∈ written.1.map Prod.fst ↔
        day ∈ state.1.map Prod.fst ∨ ∃ chunk ∈ chunks, day ∈ chunk.days := by
    intro state hstate chunks hrun
    induction chunks generalizing state with
    | nil =>
        cases hrun
        exact ⟨hstate, fun day => by simp⟩
    | cons chunk rest ih =>
        rw [List.foldlM_cons] at hrun
        obtain ⟨next, hnext, hrun⟩ := ok_of_bind hrun
        unfold addChunk at hnext
        obtain ⟨ranges, hranges, hnext⟩ := ok_of_bind hnext
        obtain ⟨weekly, hweekly, hnext⟩ := ok_of_bind hnext
        cases hnext
        obtain ⟨hstated, hdays⟩ := setDays_ok (bodyRanges_stated hranges) hstate hweekly
        obtain ⟨hwritten, hall⟩ := ih (weekly, state.2 || ranges.2) hstated hrun
        refine ⟨hwritten, fun day => ?_⟩
        rw [hall, hdays, List.exists_mem_cons_iff, or_assoc]
  obtain ⟨hstated, hdays⟩ := hstep ([], false)
    ⟨List.nodup_nil, fun entry hentry => absurd hentry List.not_mem_nil⟩ chunks h
  refine ⟨hstated, fun day => ?_⟩
  rw [hdays]
  simp

end Weeks

section Expansion

/-- An interval stands in a week on a day. -/
def At (week : Week) (day : ℕ) (item : Interval) : Prop :=
  ∃ entry ∈ week, entry.1 = day ∧ item ∈ entry.2

/-- A night that starts on a day of the week ends on another. -/
def NightEnds (weekly : Week) (day last : ℕ) : Prop :=
  ∃ entry ∈ weekly, nextDay entry.1 = day ∧
    ∃ interval ∈ entry.2, isOvernight interval = true ∧ interval.2 = last

/-- The intervals that fall on a day: those of its own, and the ends of the nights before. -/
def Falls (weekly : Week) (day : ℕ) (item : Interval) : Prop :=
  (∃ entry ∈ weekly, entry.1 = day ∧ ∃ interval ∈ entry.2, item = ownPart interval) ∨
    ∃ last, NightEnds weekly day last ∧ item = (0, last)

variable {week weekly : Week} {day other : ℕ} {intervals : List Interval} {item : Interval}

theorem at_extendDay :
    At (extendDay day intervals week) other item ↔
      At week other item ∨ other = day ∧ item ∈ intervals := by
  induction week with
  | nil => simp [extendDay, At, eq_comm]
  | cons entry rest ih =>
      unfold extendDay
      split
      · next hday =>
          simp only [At, List.exists_mem_cons_iff, List.mem_append] at ih ⊢
          rw [hday]
          constructor
          · rintro (⟨hother, hitem | hitem⟩ | hrest)
            · exact Or.inl (Or.inl ⟨hother, hitem⟩)
            · exact Or.inr ⟨hother.symm, hitem⟩
            · exact Or.inl (Or.inr hrest)
          · rintro ((⟨hother, hitem⟩ | hrest) | ⟨hother, hitem⟩)
            · exact Or.inl ⟨hother, Or.inl hitem⟩
            · exact Or.inr hrest
            · exact Or.inl ⟨hother.symm, Or.inr hitem⟩
      · simp only [At, List.exists_mem_cons_iff] at ih ⊢
        rw [ih, or_assoc]

theorem mem_days_extendDay :
    other ∈ (extendDay day intervals week).map Prod.fst ↔
      other ∈ week.map Prod.fst ∨ other = day := by
  induction week with
  | nil => simp [extendDay]
  | cons entry rest ih =>
      unfold extendDay
      split
      · next hday =>
          simp only [List.map_cons, List.mem_cons, hday]
          constructor
          · exact Or.inl
          · rintro (hmem | hother)
            · exact hmem
            · exact Or.inl hother
      · rw [List.map_cons, List.map_cons, List.mem_cons, List.mem_cons, ih, or_assoc]

theorem nodup_extendDay (h : (week.map Prod.fst).Nodup) :
    ((extendDay day intervals week).map Prod.fst).Nodup := by
  induction week with
  | nil => exact List.nodup_singleton day
  | cons entry rest ih =>
      rw [List.map_cons, List.nodup_cons] at h
      unfold extendDay
      split
      · rw [List.map_cons, List.nodup_cons]
        exact h
      · next hday =>
          rw [List.map_cons, List.nodup_cons, mem_days_extendDay, not_or]
          exact ⟨⟨h.1, hday⟩, ih h.2⟩

/-- The ends of nights on the day after them. -/
theorem spill_spec (day : ℕ) (nights : List Interval) (week : Week) :
    (∀ other item, At (nights.foldl
        (fun week interval => extendDay day [(0, interval.2)] week) week) other item ↔
        At week other item ∨ other = day ∧ ∃ night ∈ nights, item = (0, night.2)) ∧
      (∀ other, other ∈ (nights.foldl
        (fun week interval => extendDay day [(0, interval.2)] week) week).map Prod.fst ↔
        other ∈ week.map Prod.fst ∨ other = day ∧ nights ≠ []) ∧
      ((week.map Prod.fst).Nodup → ((nights.foldl
        (fun week interval => extendDay day [(0, interval.2)] week) week).map
          Prod.fst).Nodup) := by
  induction nights generalizing week with
  | nil => simp
  | cons night rest ih =>
      rw [List.foldl_cons]
      obtain ⟨hat, hdays, hnodup⟩ := ih (extendDay day [(0, night.2)] week)
      refine ⟨fun other item => ?_, fun other => ?_, fun h => hnodup (nodup_extendDay h)⟩
      · rw [hat, at_extendDay, List.exists_mem_cons_iff, List.mem_singleton, or_assoc, and_or_left]
      · rw [hdays, mem_days_extendDay, or_assoc]
        simp only [ne_eq, reduceCtorEq, not_false_eq_true, and_true]
        refine or_congr_right ⟨?_, Or.inl⟩
        rintro (hother | ⟨hother, -⟩) <;> exact hother

theorem expandDay_spec (week : Week) (entry : ℕ × List Interval) :
    (∀ other item, At (expandDay week entry) other item ↔
        At week other item ∨ Falls [entry] other item) ∧
      (∀ other, other ∈ (expandDay week entry).map Prod.fst ↔
        other ∈ week.map Prod.fst ∨ other = entry.1 ∨ ∃ last, NightEnds [entry] other last) ∧
      ((week.map Prod.fst).Nodup → ((expandDay week entry).map Prod.fst).Nodup) := by
  obtain ⟨hat, hdays, hnodup⟩ :=
    spill_spec (nextDay entry.1) (entry.2.filter isOvernight) week
  unfold expandDay
  dsimp only
  refine ⟨fun other item => ?_, fun other => ?_, fun h => nodup_extendDay (hnodup h)⟩
  · rw [at_extendDay, hat, or_assoc]
    refine or_congr_right ?_
    simp only [Falls, NightEnds, List.mem_singleton, exists_eq_left, List.mem_map, List.mem_filter]
    constructor
    · rintro (⟨rfl, night, ⟨hnight, hover⟩, rfl⟩ | ⟨rfl, interval, hinterval, rfl⟩)
      · exact Or.inr ⟨night.2, ⟨rfl, night, hnight, hover, rfl⟩, rfl⟩
      · exact Or.inl ⟨rfl, interval, hinterval, rfl⟩
    · rintro (⟨rfl, interval, hinterval, rfl⟩ | ⟨last, ⟨rfl, night, hnight, hover, rfl⟩, rfl⟩)
      · exact Or.inr ⟨rfl, interval, hinterval, rfl⟩
      · exact Or.inl ⟨rfl, night, ⟨hnight, hover⟩, rfl⟩
  · rw [mem_days_extendDay, hdays, or_assoc]
    refine or_congr_right ?_
    rw [or_comm]
    refine or_congr_right ?_
    simp only [NightEnds, List.mem_singleton, exists_eq_left]
    constructor
    · rintro ⟨rfl, hne⟩
      obtain ⟨night, hnight⟩ := List.exists_mem_of_ne_nil _ hne
      obtain ⟨hmem, hover⟩ := List.mem_filter.1 hnight
      exact ⟨night.2, rfl, night, hmem, hover, rfl⟩
    · rintro ⟨last, rfl, night, hmem, hover, -⟩
      exact ⟨rfl, List.ne_nil_of_mem (List.mem_filter.2 ⟨hmem, hover⟩)⟩

theorem nightEnds_cons (entry : ℕ × List Interval) (rest : Week) (day last : ℕ) :
    NightEnds (entry :: rest) day last ↔
      NightEnds [entry] day last ∨ NightEnds rest day last := by
  simp only [NightEnds, List.exists_mem_cons_iff, List.mem_singleton, exists_eq_left]

theorem falls_cons {entry : ℕ × List Interval} {rest : Week} :
    Falls (entry :: rest) day item ↔ Falls [entry] day item ∨ Falls rest day item := by
  have hnights : (∃ last, NightEnds (entry :: rest) day last ∧ item = (0, last)) ↔
      (∃ last, NightEnds [entry] day last ∧ item = (0, last)) ∨
        ∃ last, NightEnds rest day last ∧ item = (0, last) := by
    rw [← exists_or]
    exact exists_congr fun last => by rw [nightEnds_cons entry rest, or_and_right]
  unfold Falls
  rw [hnights]
  simp only [List.exists_mem_cons_iff, List.mem_singleton, exists_eq_left]
  exact or_or_or_comm

/-- The days that expanding a week gives: its own, and those on which its nights end. -/
def HasDay (weekly : Week) (day : ℕ) : Prop :=
  day ∈ weekly.map Prod.fst ∨ ∃ last, NightEnds weekly day last

theorem expanded_spec (weekly week : Week) :
    (∀ day item, At (weekly.foldl expandDay week) day item ↔
        At week day item ∨ Falls weekly day item) ∧
      (∀ day, day ∈ (weekly.foldl expandDay week).map Prod.fst ↔
        day ∈ week.map Prod.fst ∨ HasDay weekly day) ∧
      ((week.map Prod.fst).Nodup → ((weekly.foldl expandDay week).map Prod.fst).Nodup) := by
  induction weekly generalizing week with
  | nil => simp [Falls, NightEnds, HasDay]
  | cons entry rest ih =>
      rw [List.foldl_cons]
      obtain ⟨hat, hdays, hnodup⟩ := ih (expandDay week entry)
      obtain ⟨hatFirst, hdaysFirst, hnodupFirst⟩ := expandDay_spec week entry
      refine ⟨fun day item => ?_, fun day => ?_, fun h => hnodup (hnodupFirst h)⟩
      · rw [hat, hatFirst, or_assoc, ← falls_cons]
      · rw [hdays, hdaysFirst, or_assoc]
        refine or_congr_right ?_
        unfold HasDay
        have hnights : (∃ last, NightEnds (entry :: rest) day last) ↔
            (∃ last, NightEnds [entry] day last) ∨ ∃ last, NightEnds rest day last := by
          rw [← exists_or]
          exact exists_congr fun last => nightEnds_cons entry rest day last
        rw [hnights, List.map_cons, List.mem_cons]
        exact or_or_or_comm

/-- Each day of the result holds the merged intervals that fall on it. -/
theorem expandWeek_ok {days : Week} (h : expandWeek weekly = .ok days) :
    (days.map Prod.fst).Nodup ∧ (∀ day, day ∈ days.map Prod.fst ↔ HasDay weekly day) ∧
      ∀ entry ∈ days, ∃ items, entry.2 = mergeIntervals items ∧
        ∀ item, item ∈ items ↔ Falls weekly entry.1 item := by
  unfold expandWeek at h
  split at h
  · cases h
  · cases h
    obtain ⟨hat, hdays, hnodup⟩ := expanded_spec weekly []
    have hunique := hnodup List.nodup_nil
    have hkeys : ((weekly.foldl expandDay []).map fun entry =>
        (entry.1, mergeIntervals entry.2)).map Prod.fst =
          (weekly.foldl expandDay []).map Prod.fst := by
      rw [List.map_map]
      rfl
    refine ⟨hkeys ▸ hunique, fun day => ?_, fun entry hentry => ?_⟩
    · rw [hkeys, hdays]
      simp
    · obtain ⟨source, hsource, rfl⟩ := List.mem_map.1 hentry
      refine ⟨source.2, rfl, fun item => ?_⟩
      have hsame := hat source.1 item
      simp only [At, List.not_mem_nil, false_and, exists_false, false_or] at hsame
      rw [← hsame]
      constructor
      · exact fun hitem => ⟨source, hsource, rfl, hitem⟩
      · rintro ⟨other, hother, hday, hitem⟩
        rwa [List.inj_on_of_nodup_map hunique hother hsource hday] at hitem

end Expansion

section Form

variable {weekly : Week} {day : ℕ} {item : Interval}

/-- Nothing that falls on a day runs backwards or past midnight; only the end of a night
at midnight is empty. -/
theorem falls_bounds (hweekly : WeekStated weekly) (h : Falls weekly day item) :
    item.1 ≤ item.2 ∧ item.2 ≤ 1440 ∧ (item.1 = item.2 → item = (0, 0)) := by
  rcases h with ⟨entry, hentry, -, interval, hinterval, rfl⟩ |
    ⟨last, ⟨entry, hentry, -, interval, hinterval, hnight, rfl⟩, rfl⟩
  · obtain ⟨hstart, hend, hne⟩ := hweekly.intervals entry hentry interval hinterval
    unfold ownPart
    split
    · exact ⟨hstart.le, le_refl _, fun heq => absurd heq hstart.ne⟩
    · next hday =>
        rw [isOvernight, decide_eq_true_eq, not_lt] at hday
        exact ⟨hday, hend, fun heq => absurd heq hne⟩
  · obtain ⟨-, hend, -⟩ := hweekly.intervals entry hentry interval hinterval
    refine ⟨Nat.zero_le _, hend, fun heq => ?_⟩
    have hzero : 0 = interval.2 := heq
    rw [← hzero]

/-- The intervals of a day: in order, apart from each other, within the day, and empty only
where a night ends at midnight. -/
structure NormalForm (intervals : List Interval) : Prop where
  separated : intervals.Pairwise fun a b => a.2 < b.1
  bounds : ∀ interval ∈ intervals, 0 ≤ interval.1 ∧ interval.1 ≤ interval.2 ∧ interval.2 ≤ 1440
  nonempty : ∀ interval ∈ intervals, interval ≠ (0, 0) → interval.1 < interval.2

theorem normalForm_merge {items : List Interval} (hweekly : WeekStated weekly)
    (hitems : ∀ item ∈ items, Falls weekly day item) : NormalForm (mergeIntervals items) := by
  have hforward : Forward items := fun item hitem =>
    (falls_bounds hweekly (hitems item hitem)).1
  obtain ⟨hseparated, hmerged, -⟩ := mergeIntervals_spec hforward
  refine ⟨hseparated, fun interval hinterval => ?_, fun interval hinterval hne => ?_⟩
  · obtain ⟨-, last, hlast, hend⟩ := mergeIntervals_source hinterval
    obtain ⟨-, hbound, -⟩ := falls_bounds hweekly (hitems last hlast)
    exact ⟨Nat.zero_le _, hmerged interval hinterval, hend ▸ hbound⟩
  · refine lt_of_le_of_ne (hmerged interval hinterval) fun hempty => hne ?_
    obtain ⟨⟨source, hsource, hstart, hend⟩, -⟩ := mergeIntervals_source hinterval
    obtain ⟨hforwardSource, -, hpoint⟩ := falls_bounds hweekly (hitems source hsource)
    have hsourceEmpty : source.1 = source.2 :=
      le_antisymm hforwardSource (by rw [hstart, hempty]; exact hend)
    have hzero := hpoint hsourceEmpty
    rw [hzero] at hstart
    have hfirst : interval.1 = 0 := hstart.symm
    exact Prod.ext hfirst (hempty ▸ hfirst)

end Form

section Texts

variable {lib : TextLibrary} {structured : Bool} {given : List Char} {result : WeekResult}

/-- The weekdays that a text states: those that it names, alone or in a range, or all of
them where it names none and speaks of every day. -/
def statedDays (lib : TextLibrary) (text : List Char) : List ℕ :=
  let found := (pieces (dayPattern lib) text).2
  if found = [] then if occurs (dailyPattern lib) text then List.range 7 else []
  else found.flatMap fun day => (namedDays lib day.1).getD []

theorem shareBodies_days (chunks : List Chunk) :
    (shareBodies lib chunks).map (·.days) = chunks.map (·.days) := by
  induction chunks with
  | nil => rfl
  | cons chunk rest ih =>
      cases rest with
      | nil => rfl
      | cons next rest =>
          unfold shareBodies
          dsimp only
          split
          · rw [List.map_cons, ih]
            rfl
          · rw [List.map_cons, ih]
            rfl

theorem namedChunks_days {found : List (Groups × List Char)} {chunks : List Chunk}
    (h : found.mapM (namedChunk lib) = some chunks) :
    chunks.flatMap (·.days) = found.flatMap fun day => (namedDays lib day.1).getD [] := by
  induction found generalizing chunks with
  | nil =>
      cases h
      rfl
  | cons first rest ih =>
      rw [List.mapM_cons] at h
      obtain ⟨chunk, hchunk, h⟩ := Option.bind_eq_some_iff.1 h
      obtain ⟨others, hothers, h⟩ := Option.bind_eq_some_iff.1 h
      cases h
      obtain ⟨days, hdays, hchunk⟩ := Option.bind_eq_some_iff.1 hchunk
      cases hchunk
      rw [List.flatMap_cons, List.flatMap_cons, ih hothers, hdays]
      rfl

/-- The chunks of a text are about the days that it states. -/
theorem weekChunks_days {text : List Char} {chunks : List Chunk}
    (h : weekChunks lib text = some chunks) :
    chunks.flatMap (·.days) = statedDays lib text := by
  unfold weekChunks at h
  unfold statedDays
  dsimp only at h ⊢
  split at h
  · next hnone =>
      rw [if_pos hnone]
      split at h
      · next hdaily =>
          cases h
          rw [if_pos hdaily]
          simp
      · next hdaily =>
          cases h
          rw [if_neg hdaily, List.flatMap_nil]
  · next hsome =>
      rw [if_neg hsome]
      obtain ⟨named, hnamed, h⟩ := Option.bind_eq_some_iff.1 h
      cases h
      rw [List.flatMap_def, shareBodies_days, ← List.flatMap_def]
      exact namedChunks_days hnamed

/-- The text states these hours. -/
def StatesWeek (lib : TextLibrary) (structured : Bool) (given : List Char) (weekly : Week) :
    Prop :=
  ∃ chunks changed, weekChunks lib (normalized lib given) = some chunks ∧
    writtenWeek lib structured chunks = .ok (weekly, changed)

/-- A parsed text states hours, which are expanded to the days of the result. -/
theorem parseWeek_parsed (h : parseWeek lib structured given = some result)
    (hparsed : result.classification = .parsed) :
    ∃ weekly, StatesWeek lib structured given weekly ∧ expandWeek weekly = .ok result.days := by
  unfold parseWeek at h
  dsimp only at h
  split at h
  · cases h
    cases hparsed
  · split at h
    · next early hearly =>
        cases h
        unfold notRegular at hearly
        split at hearly
        · cases hearly
          cases hparsed
        · split at hearly
          · cases hearly
            cases hparsed
          · split at hearly
            · cases hearly
              cases hparsed
            · split at hearly
              · cases hearly
                cases hparsed
              · cases hearly
    · split at h
      · cases h
        cases hparsed
      · split at h
        · cases h
        · cases h
          cases hparsed
        · next chunks _ hchunks =>
            split at h
            · cases h
              cases hparsed
            · next days changed hread =>
                cases h
                obtain ⟨written, hwritten, hread⟩ := ok_of_bind hread
                obtain ⟨expanded, hexpanded, hread⟩ := ok_of_bind hread
                cases hread
                exact ⟨written.1, ⟨chunks, written.2, hchunks, hwritten⟩, hexpanded⟩

theorem StatesWeek.spec {weekly : Week} (h : StatesWeek lib structured given weekly) :
    WeekStated weekly ∧ ∀ day, day ∈ weekly.map Prod.fst ↔
      day ∈ statedDays lib (normalized lib given) := by
  obtain ⟨chunks, changed, hchunks, hwritten⟩ := h
  obtain ⟨hstated, hdays⟩ := writtenWeek_ok hwritten
  refine ⟨hstated, fun day => ?_⟩
  rw [hdays, ← weekChunks_days hchunks, List.mem_flatMap]

/-- The days of a parsed week are stated, or follow a stated day with a night that ends on
them, and their intervals are in normal form. -/
theorem parse_week_normal_form (h : parseWeek lib structured given = some result)
    (hparsed : result.classification = .parsed) :
    ∃ weekly, StatesWeek lib structured given weekly ∧ (result.days.map Prod.fst).Nodup ∧
      ∀ entry ∈ result.days,
        (entry.1 ∈ statedDays lib (normalized lib given) ∨
          ∃ night ∈ weekly, night.1 ∈ statedDays lib (normalized lib given) ∧
            nextDay night.1 = entry.1 ∧ ∃ interval ∈ night.2, isOvernight interval = true) ∧
        NormalForm entry.2 := by
  obtain ⟨weekly, hweekly, hexpand⟩ := parseWeek_parsed h hparsed
  obtain ⟨hstated, hdays⟩ := hweekly.spec
  obtain ⟨hnodup, hhas, hitems⟩ := expandWeek_ok hexpand
  refine ⟨weekly, hweekly, hnodup, fun entry hentry => ⟨?_, ?_⟩⟩
  · rcases (hhas entry.1).1 (List.mem_map_of_mem hentry) with hday |
      ⟨last, night, hnight, hnext, interval, hinterval, hover, -⟩
    · exact Or.inl ((hdays entry.1).1 hday)
    · exact Or.inr ⟨night, hnight, (hdays night.1).1 (List.mem_map_of_mem hnight), hnext,
        interval, hinterval, hover⟩
  · obtain ⟨items, hmerged, hfalls⟩ := hitems entry hentry
    rw [hmerged]
    exact normalForm_merge hstated fun item hitem => (hfalls item).1 hitem

theorem readSpec_unparsed {str : Market.Value → List Char}
    {byDay : List (List Char × List (List Char))} {spec : Market.Value}
    (h : readSpec lib str byDay spec = .error result) : result.classification ≠ .parsed := by
  unfold readSpec at h
  split at h
  · dsimp only at h
    split at h
    · cases h
      exact Classification.noConfusion
    · split at h
      · cases h
        exact Classification.noConfusion
      · split at h
        · cases h
          exact Classification.noConfusion
        · cases h
  · cases h
    exact Classification.noConfusion

/-- A parsed specification is the parsed week of a text. -/
theorem parseSpec_parsed {str : Market.Value → List Char} {value : Market.Value}
    (h : parseSpec lib str value = some result) (hparsed : result.classification = .parsed) :
    ∃ given, parseWeek lib true given = some result := by
  have hfold : ∀ (specs : List Market.Value) (byDay : List (List Char × List (List Char))),
      specs.foldlM (readSpec lib str) byDay ≠ .error result := by
    intro specs
    induction specs with
    | nil => exact fun byDay hrun => by cases hrun
    | cons spec rest ih =>
        intro byDay hrun
        rw [List.foldlM_cons] at hrun
        cases hspec : readSpec lib str byDay spec with
        | error early =>
            rw [hspec] at hrun
            cases hrun
            exact readSpec_unparsed hspec hparsed
        | ok next =>
            rw [hspec] at hrun
            exact ih next hrun
  unfold parseSpec at h
  dsimp only at h
  split at h
  · next early hearly =>
      cases h
      exact absurd hearly (hfold _ _)
  · exact ⟨_, h⟩

/-- What a structured specification is read as: every day once, its hours in normal form. -/
theorem parse_spec_normal_form {str : Market.Value → List Char} {value : Market.Value}
    (h : parseSpec lib str value = some result) (hparsed : result.classification = .parsed) :
    (result.days.map Prod.fst).Nodup ∧ ∀ entry ∈ result.days, NormalForm entry.2 := by
  obtain ⟨given, hgiven⟩ := parseSpec_parsed h hparsed
  obtain ⟨weekly, hweekly, hexpand⟩ := parseWeek_parsed hgiven hparsed
  obtain ⟨hstated, -⟩ := hweekly.spec
  obtain ⟨hnodup, -, hitems⟩ := expandWeek_ok hexpand
  refine ⟨hnodup, fun entry hentry => ?_⟩
  obtain ⟨items, hmerged, hfalls⟩ := hitems entry hentry
  rw [hmerged]
  exact normalForm_merge hstated fun item hitem => (hfalls item).1 hitem

/-- A text by its code points, and nothing for other values. -/
def sampleStr : Market.Value → List Char
  | .str text => text.map Char.ofNat
  | _ => []

def mondaySpec : Market.Value :=
  .dict [("dayOfWeek", .str (Market.text "Monday")), ("opens", .str (Market.text "9:00")),
    ("closes", .str (Market.text "17:00"))]

theorem parse_spec_normal_form_monday : ∃ result,
    parseSpec asciiLibrary sampleStr mondaySpec = some result ∧
      result.classification = .parsed ∧
      (result.days.map Prod.fst).Nodup ∧ ∀ entry ∈ result.days, NormalForm entry.2 := by
  have hread : (parseSpec asciiLibrary sampleStr mondaySpec).any
      (fun result => result.classification = .parsed) = true := by
    decide +kernel
  obtain ⟨result, hresult, hparsed⟩ := Option.any_eq_true _ _ |>.1 hread
  exact ⟨result, hresult, of_decide_eq_true hparsed,
    parse_spec_normal_form hresult (of_decide_eq_true hparsed)⟩

def sundayNight : List Char := "Sunday 22:00-02:00".toList

def sundayWeek : WeekResult :=
  ⟨.parsed, "regular_business", [(0, [(0, 120)]), (6, [(1320, 1440)])], none, some []⟩

theorem parseWeek_sundayNight : parseWeek asciiLibrary false sundayNight = some sundayWeek := by
  decide +kernel

/-- The night ends on a day which the text does not name. -/
theorem sunday_night_reaches_monday :
    parseWeek asciiLibrary false sundayNight = some sundayWeek ∧
      sundayWeek.classification = .parsed ∧ 0 ∈ sundayWeek.days.map Prod.fst ∧
      0 ∉ statedDays asciiLibrary (normalized asciiLibrary sundayNight) := by
  refine ⟨parseWeek_sundayNight, rfl, ?_, ?_⟩ <;> decide +kernel

theorem parse_week_normal_form_sample :
    ∃ weekly, StatesWeek asciiLibrary false sundayNight weekly ∧
      (sundayWeek.days.map Prod.fst).Nodup ∧
      ∀ entry ∈ sundayWeek.days,
        (entry.1 ∈ statedDays asciiLibrary (normalized asciiLibrary sundayNight) ∨
          ∃ night ∈ weekly,
            night.1 ∈ statedDays asciiLibrary (normalized asciiLibrary sundayNight) ∧
            nextDay night.1 = entry.1 ∧ ∃ interval ∈ night.2, isOvernight interval = true) ∧
        NormalForm entry.2 :=
  parse_week_normal_form parseWeek_sundayNight rfl

end Texts

end SearchTrust.Hours
