/-
What a comparison publishes: counts of exactly the days of its windows, and windows that
stay clear of the implementation date wherever the calendars do not go back.
-/
import SearchTrust.Comparison.Compare

namespace SearchTrust.Comparison

open SearchTrust.Calendar
open SearchTrust.Capability (require require_eq_ok)
open SearchTrust.Report.Outcomes

section DateRows

variable {lib : Library} {value : GscSnapshot} {rows : List (ℤ × MetricRow)}

/-- The rows of the dates of a snapshot. -/
def dateRowsOf (value : GscSnapshot) : List MetricRow :=
  value.previous.dates.rows ++ value.current.dates.rows

/-- The rows of a snapshot about one date. -/
def rowsOn (lib : Library) (value : GscSnapshot) (day : ℤ) : List MetricRow :=
  (dateRowsOf value).filter fun row => row.key.bind lib.fromisoformat = some day

/-- What the loops over the date rows keep: every row that they took stands once, under
its own date. -/
structure Collected (lib : Library) (rows : List (ℤ × MetricRow)) (taken : List MetricRow) :
    Prop where
  taken_eq : rows.map Prod.snd = taken
  nodup : (rows.map Prod.fst).Nodup
  key_eq : ∀ row ∈ rows, row.2.key.bind lib.fromisoformat = some row.1

theorem Collected.add {period : Period} {taken : List MetricRow} {row : MetricRow}
    {next : List (ℤ × MetricRow)} (h : Collected lib rows taken)
    (hadd : addDateRow lib period rows row = .ok next) : Collected lib next (taken ++ [row]) := by
  unfold addDateRow at hadd
  split at hadd
  next => cases hadd
  next text hkey =>
    split at hadd
    next => cases hadd
    next key hdate =>
      obtain ⟨_, hfresh, hadd⟩ := ok_of_bind hadd
      obtain rfl := Except.ok.inj hadd
      rw [require_eq_ok, Bool.and_eq_true, Bool.and_eq_true] at hfresh
      have hnew : key ∉ rows.map Prod.fst := of_decide_eq_true hfresh.1.1
      refine ⟨?_, ?_, ?_⟩
      · rw [List.map_append, h.taken_eq]
        rfl
      · rw [List.map_append, List.nodup_append]
        refine ⟨h.nodup, List.nodup_singleton _, ?_⟩
        intro a ha b hb
        intro hab
        have hkeyed : a = key := hab.trans (List.mem_singleton.1 hb)
        exact hnew (hkeyed ▸ ha)
      · intro other hother
        rcases List.mem_append.1 hother with hother | hother
        · exact h.key_eq other hother
        · rw [List.mem_singleton.1 hother, hkey]
          exact hdate

theorem gscDates_collected (h : gscDates lib value = .ok rows) :
    Collected lib rows (dateRowsOf value) := by
  unfold gscDates at h
  obtain ⟨all, hall, h⟩ := ok_of_bind h
  obtain ⟨_, -, h⟩ := ok_of_bind h
  obtain rfl := Except.ok.inj h
  have hperiod : ∀ (rows next : List (ℤ × MetricRow)) (taken : List MetricRow) (period : Period),
      Collected lib rows taken → addPeriod lib rows period = .ok next →
      Collected lib next (taken ++ period.dates.rows) := by
    intro rows next taken period hrows hadd
    obtain ⟨_, -, hadd⟩ := ok_of_bind hadd
    obtain ⟨_, -, hadd⟩ := ok_of_bind hadd
    exact foldlM_ok (fun _ _ _ _ hinv hstep => hinv.add hstep) hrows hadd
  rw [List.foldlM_cons] at hall
  obtain ⟨previous, hprevious, hall⟩ := ok_of_bind hall
  rw [List.foldlM_cons] at hall
  obtain ⟨current, hcurrent, hall⟩ := ok_of_bind hall
  cases hall
  have hstart : Collected lib [] [] := ⟨rfl, List.nodup_nil, fun row hrow => by cases hrow⟩
  exact hperiod _ _ _ _ (hperiod _ _ _ _ hstart hprevious) hcurrent

/-- A date that is found has this one row. -/
theorem Collected.rowsOn_eq (h : Collected lib rows (dateRowsOf value)) {day : ℤ}
    {row : MetricRow} (hfound : (rows.find? fun r => r.1 = day).map Prod.snd = some row) :
    rowsOn lib value day = [row] := by
  obtain ⟨entry, hentry, rfl⟩ := Option.map_eq_some_iff.1 hfound
  have hday : entry.1 = day := by simpa using List.find?_some hentry
  have hmem := List.mem_of_find?_eq_some hentry
  have hfilter : rowsOn lib value day = (rows.filter fun r => r.1 = day).map Prod.snd := by
    rw [rowsOn, ← h.taken_eq, List.filter_map]
    refine congrArg (List.map Prod.snd) (List.filter_congr ?_)
    intro r hr
    rw [Function.comp_apply, h.key_eq r hr]
    simp
  have hone : rows.filter (fun r => r.1 = day) = [entry] := by
    obtain ⟨front, rest, rfl⟩ := List.append_of_mem hmem
    have hnodup := h.nodup
    rw [List.map_append, List.map_cons, List.nodup_append, List.nodup_cons] at hnodup
    obtain ⟨-, ⟨hrest, -⟩, hfront⟩ := hnodup
    have hnone : ∀ list : List (ℤ × MetricRow), (∀ r ∈ list, r.1 ≠ day) →
        list.filter (fun r => r.1 = day) = [] := by
      intro list hlist
      rw [List.filter_eq_nil_iff]
      intro r hr
      simpa using hlist r hr
    rw [List.filter_append, List.filter_cons, hnone front, hnone rest]
    · simp [hday]
    · intro r hr heq
      exact hrest (by rw [hday, ← heq]; exact List.mem_map_of_mem hr)
    · intro r hr heq
      exact hfront r.1 (List.mem_map_of_mem hr) entry.1 List.mem_cons_self (by rw [heq, hday])
  rw [hfilter, hone]
  rfl

end DateRows

section Counts

variable {lib : Library} {value : GscSnapshot} {range : DateRange} {scope : ComparisonScope}
  {counts : ℤ × ℤ}

/-- The counts are the sums over some rows. -/
structure SumsOf (counts : ℤ × ℤ) (rows : List MetricRow) : Prop where
  clicks : (counts.1 : ℚ) = (rows.map (·.clicks)).sum
  impressions : (counts.2 : ℚ) = (rows.map (·.impressions)).sum

theorem SumsOf.add {rows : List MetricRow} {row : MetricRow} {next : ℤ × ℤ}
    (h : SumsOf counts rows) (hadd : addCounts counts row = .ok next) :
    SumsOf next (rows ++ [row]) := by
  obtain ⟨_, hsafe, hadd⟩ := ok_of_bind hadd
  obtain rfl := Except.ok.inj hadd
  rw [require_eq_ok, Bool.and_eq_true, Bool.and_eq_true] at hsafe
  have hinteger : ∀ v : ℚ, safeCount v = true → (v.num : ℚ) = v := by
    intro v hv
    rw [safeCount, Bool.and_eq_true] at hv
    exact Rat.coe_int_num_of_den_eq_one (of_decide_eq_true hv.1)
  constructor
  · rw [List.map_append, List.sum_append, ← h.clicks]
    push_cast
    simp [hinteger _ hsafe.1.1]
  · rw [List.map_append, List.sum_append, ← h.impressions]
    push_cast
    simp [hinteger _ hsafe.1.2]

theorem countsOf_ok {rows : List MetricRow} (h : countsOf rows = .ok counts) :
    SumsOf counts rows := by
  obtain ⟨total, htotal, h⟩ := ok_of_bind h
  obtain ⟨_, -, h⟩ := ok_of_bind h
  obtain rfl := Except.ok.inj h
  have hstart : SumsOf (0, 0) [] := ⟨by simp, by simp⟩
  have hsums := foldlM_ok (fun _ _ _ _ hinv hstep => SumsOf.add hinv hstep) hstart htotal
  rwa [List.nil_append] at hsums

/-- Every day of the range occurs exactly once, and the counts are the sums over the days. -/
structure PropertyCounts (lib : Library) (value : GscSnapshot) (range : DateRange)
    (counts : ℤ × ℤ) : Prop where
  once : ∀ day ∈ daysOf range, ∃ row, rowsOn lib value day = [row]
  sums : SumsOf counts ((daysOf range).flatMap (rowsOn lib value))

/-- The counts are those of the rows with the key of the scope, in a view of exactly the
range that is not truncated. -/
def AggregateCounts (value : GscSnapshot) (scope : ComparisonScope) (range : DateRange)
    (counts : ℤ × ℤ) : Prop :=
  ∃ period ∈ [value.previous, value.current], ∃ view, viewOf scope.dimension period = some view ∧
    period.startDate = range.start ∧ period.endDate = range.stop ∧ view.truncated = false ∧
    view.aggregationType = requiredAggregation scope.dimension ∧
    SumsOf counts (view.rows.filter fun row => row.key = scope.key)

/-- What the counts of a window are taken from. -/
def CountsFrom (lib : Library) (value : GscSnapshot) (scope : ComparisonScope)
    (range : DateRange) (counts : ℤ × ℤ) : Prop :=
  if scope.dimension = .property then PropertyCounts lib value range counts
  else AggregateCounts value scope range counts

theorem propertyCounts_of_days {rows : List (ℤ × MetricRow)}
    (hrows : Collected lib rows (dateRowsOf value)) {days : List ℤ}
    (hall : ((days.map fun day => (rows.find? fun row => row.1 = day).map Prod.snd).any
      Option.isNone) = false) :
    (∀ day ∈ days, ∃ row, rowsOn lib value day = [row]) ∧
      (days.map fun day => (rows.find? fun row => row.1 = day).map Prod.snd).filterMap id =
        days.flatMap (rowsOn lib value) := by
  have hsome : ∀ day ∈ days, ∃ row,
      (rows.find? fun row => row.1 = day).map Prod.snd = some row := by
    intro day hday
    have hpresent := List.any_eq_false.1 hall _ (List.mem_map_of_mem hday)
    rw [Option.isNone_iff_eq_none] at hpresent
    exact Option.ne_none_iff_exists'.1 hpresent
  refine ⟨fun day hday => ?_, ?_⟩
  · obtain ⟨row, hrow⟩ := hsome day hday
    exact ⟨row, hrows.rowsOn_eq hrow⟩
  · clear hall
    induction days with
    | nil => rfl
    | cons day days ih =>
        obtain ⟨row, hrow⟩ := hsome day List.mem_cons_self
        have hrest := ih fun other hother => hsome other (List.mem_cons_of_mem _ hother)
        rw [List.map_cons, hrow, List.flatMap_cons, hrows.rowsOn_eq hrow, ← hrest]
        rfl

theorem extractCounts_ok (h : extractCounts lib value range scope = .ok (.ok counts)) :
    CountsFrom lib value scope range counts := by
  unfold extractCounts at h
  obtain ⟨rows, hrows, h⟩ := ok_of_bind h
  have hcollected := gscDates_collected hrows
  dsimp only at h
  split at h
  next => cases h
  next hdays =>
    split at h
    next hproperty =>
      obtain ⟨total, htotal, h⟩ := ok_of_bind h
      obtain rfl := Except.ok.inj (Except.ok.inj h)
      obtain ⟨honce, hlist⟩ := propertyCounts_of_days hcollected (Bool.not_eq_true _ ▸ hdays)
      rw [CountsFrom, if_pos hproperty]
      refine ⟨honce, ?_⟩
      rw [← hlist]
      exact countsOf_ok htotal
    next hother =>
      split at h
      next => cases h
      next =>
        split at h
        next => cases h
        next period hperiod =>
          split at h
          next => cases h
          next view hview =>
            split at h
            next => cases h
            next hcomplete =>
              split at h
              next => cases h
              next haggregation =>
                obtain ⟨_, -, h⟩ := ok_of_bind h
                split at h
                next => cases h
                next =>
                  obtain ⟨total, htotal, h⟩ := ok_of_bind h
                  obtain rfl := Except.ok.inj (Except.ok.inj h)
                  have hexact := List.find?_some hperiod
                  rw [decide_eq_true_eq] at hexact
                  rw [CountsFrom, if_neg hother]
                  exact ⟨period, List.mem_of_find?_eq_some hperiod, view, hview, hexact.1,
                    hexact.2, by simpa using hcomplete, not_not.1 haggregation,
                    countsOf_ok htotal⟩

end Counts

section Comparison

variable {lib : Library} {request : ComparisonRequest} {result : ComparisonResult}
  {prepared : Prepared}

/-- What a comparison says it compared. -/
structure ComparableSound (lib : Library) (request : ComparisonRequest)
    (result : ComparisonResult) : Prop where
  /-- The windows are planned for the selected entry. -/
  planned : ∃ entry ∈ request.implementation.entries, entry.actionId = request.actionId ∧
    ∃ zone, planWindows lib.zoneInfo entry zone request.days = .ok result.windows
  unpublished : result.state ≠ .comparable → result.metrics = []
  published : result.state = .comparable → ∃ savedBefore savedAfter before after first second,
    request.before = some savedBefore ∧ request.after = some savedAfter ∧
      validateSnapshot lib savedBefore = .ok (.gsc before) ∧
      validateSnapshot lib savedAfter = .ok (.gsc after) ∧
      CountsFrom lib before request.scope result.windows.before first ∧
      CountsFrom lib after request.scope result.windows.after second ∧
      result.metrics = metricsOf first second

theorem finish_ok {state : State} {reasons : List String} {metrics : List MetricComparison}
    (h : finish request prepared state reasons metrics = .ok result) :
    result.state = state ∧ result.metrics = metrics ∧ result.windows = prepared.windows := by
  unfold finish at h
  obtain ⟨_, -, h⟩ := ok_of_bind h
  obtain rfl := Except.ok.inj h
  exact ⟨rfl, rfl, rfl⟩

theorem mapM_some_ok {α β : Type} {f : α → Except String β} {a : α} {b : Option β}
    (h : (some a).mapM f = .ok b) : ∃ value, b = some value ∧ f a = .ok value := by
  cases hvalue : f a with
  | error e =>
      rw [Option.mapM_some, hvalue] at h
      cases h
  | ok value =>
      rw [Option.mapM_some, hvalue] at h
      exact ⟨value, (Except.ok.inj h).symm, rfl⟩

theorem prepare_ok {before after : Option SnapshotValue}
    (h : prepare lib request = .ok (before, after, prepared)) :
    (∃ entry ∈ request.implementation.entries, entry.actionId = request.actionId ∧
      ∃ zone, planWindows lib.zoneInfo entry zone request.days = .ok prepared.windows) ∧
      request.before.mapM (validateSnapshot lib) = .ok before ∧
      request.after.mapM (validateSnapshot lib) = .ok after := by
  unfold prepare at h
  obtain ⟨_, -, h⟩ := ok_of_bind h
  split at h
  next => cases h
  next entry hentry =>
    obtain ⟨before', hbefore, h⟩ := ok_of_bind h
    obtain ⟨after', hafter, h⟩ := ok_of_bind h
    obtain ⟨windows, hwindows, h⟩ := ok_of_bind h
    obtain ⟨beforeCutoff, -, h⟩ := ok_of_bind h
    obtain ⟨afterCutoff, -, h⟩ := ok_of_bind h
    obtain ⟨rfl, rfl, rfl⟩ := Except.ok.inj h
    have hid : entry.actionId = request.actionId := by simpa using List.find?_some hentry
    exact ⟨⟨entry, List.mem_of_find?_eq_some hentry, hid, _, hwindows⟩, hbefore, hafter⟩

/-- An exit without metrics. -/
theorem ComparableSound.of_exit {state : State} {reasons : List String}
    (hplanned : ∃ entry ∈ request.implementation.entries, entry.actionId = request.actionId ∧
      ∃ zone, planWindows lib.zoneInfo entry zone request.days = .ok prepared.windows)
    (hstate : state ≠ .comparable) (h : finish request prepared state reasons [] = .ok result) :
    ComparableSound lib request result := by
  obtain ⟨hresult, hmetrics, hwindows⟩ := finish_ok h
  refine ⟨hwindows ▸ hplanned, fun _ => hmetrics, ?_⟩
  intro hcomparable
  exact absurd (hresult.symm.trans hcomparable) hstate

theorem sharedExit_state {before after : TrustedFirstPartySnapshot} {state : State}
    {reasons : List String} (h : sharedExit request before after = some (state, reasons)) :
    state ≠ .comparable := by
  unfold sharedExit at h
  rintro rfl
  repeat' split at h
  all_goals cases h

theorem gscExit_state {before after : TrustedFirstPartySnapshot} {today : ℤ} {state : State}
    {reasons : List String} (h : gscExit prepared before after today = some (state, reasons)) :
    state ≠ .comparable := by
  unfold gscExit at h
  dsimp only at h
  rintro rfl
  repeat' split at h
  all_goals cases h

theorem ga4Exit_state {before after : Ga4Snapshot} :
    (ga4Exit request before after).1 ≠ .comparable := by
  unfold ga4Exit
  dsimp only
  intro h
  repeat' split at h
  all_goals cases h

theorem reasonExit_state (reasons : List String) : reasonExit reasons ≠ .comparable := by
  unfold reasonExit
  intro h
  split at h <;> cases h

theorem compareImplementation_sound (h : compareImplementation lib request = .ok result) :
    ComparableSound lib request result := by
  unfold compareImplementation at h
  obtain ⟨⟨before, after, prepared⟩, hprepare, h⟩ := ok_of_bind h
  obtain ⟨hplanned, hbefore, hafter⟩ := prepare_ok hprepare
  dsimp only at h
  split at h
  next savedBefore savedAfter valueBefore valueAfter hsavedBefore hsavedAfter =>
    split at h
    next state reasons hexit => exact .of_exit hplanned (sharedExit_state hexit) h
    next =>
      split at h
      next gscBefore gscAfter =>
        split at h
        next => exact .of_exit hplanned (by decide) h
        next =>
          obtain ⟨today, -, h⟩ := ok_of_bind h
          split at h
          next state reasons hexit => exact .of_exit hplanned (gscExit_state hexit) h
          next =>
            obtain ⟨first, hfirst, h⟩ := ok_of_bind h
            obtain ⟨second, hsecond, h⟩ := ok_of_bind h
            cases first with
            | error reason => exact .of_exit hplanned (reasonExit_state _) h
            | ok first =>
                cases second with
                | error reason => exact .of_exit hplanned (reasonExit_state _) h
                | ok second =>
                    obtain ⟨hstate, hmetrics, hwindows⟩ := finish_ok h
                    rw [hsavedBefore] at hbefore
                    rw [hsavedAfter] at hafter
                    obtain ⟨_, hb, hvb⟩ := mapM_some_ok hbefore
                    obtain ⟨_, ha, hva⟩ := mapM_some_ok hafter
                    obtain rfl := Option.some.inj hb
                    obtain rfl := Option.some.inj ha
                    refine ⟨hwindows ▸ hplanned, fun hne => absurd hstate hne, fun _ => ?_⟩
                    exact ⟨savedBefore, savedAfter, gscBefore, gscAfter, first, second,
                      hsavedBefore, hsavedAfter, hvb, hva, hwindows ▸ extractCounts_ok hfirst,
                      hwindows ▸ extractCounts_ok hsecond, hmetrics⟩
      next ga4Before ga4After => exact .of_exit hplanned ga4Exit_state h
      next => cases h
  next =>
    obtain ⟨today, -, h⟩ := ok_of_bind h
    refine .of_exit hplanned ?_ h
    split <;> decide

end Comparison

section Sample

/-- The clock of Newfoundland around 7 November 2010: at a minute past midnight it went
back to a minute past eleven. -/
def stJohns : Zone where
  initial := -9000000000
  changes := [(63424780260000000, -12600000000)]
  initial_bounded := by decide
  changes_bounded := by decide

def halifax : Zone where
  initial := -10800000000
  changes := [(63424789200000000, -14400000000)]
  initial_bounded := by decide
  changes_bounded := by decide

def sampleMetadata : ReportMetadata where
  subjectToThresholding := false
  dataLossFromOtherRow := false
  sampling := []
  timeZone := "America/Halifax"
  metricRestrictions := []

def sampleGa4Period (startDate endDate : ℤ) : Ga4Period where
  startDate := startDate
  endDate := endDate
  totals := ([], sampleMetadata)
  landingPages := ([], sampleMetadata)
  dates := ([], sampleMetadata)
  keyEvents := ([], sampleMetadata)

def sampleGa4 : Ga4Snapshot where
  resourceId := "properties/1"
  hostFilter := ["a.example"]
  configuredKeyEvents := []
  current := sampleGa4Period 734083 734090
  previous := sampleGa4Period 734075 734082
  limitations := []

def sampleLibrary : Library where
  zoneInfo name :=
    if name = "America/St_Johns" then some stJohns
    else if name = "America/Halifax" then some halifax
    else none
  fromisoformat _ := none
  isoformat _ := ""
  requestDigest _ := "sha256:0"
  snapshotDigest _ := "sha256:0"
  readGsc _ := none
  readGa4 _ := some sampleGa4

def sampleSnapshot : TrustedFirstPartySnapshot where
  snapshotId := "00000000-0000-4000-8000-000000000001"
  caseId := "00000000-0000-4000-8000-000000000002"
  bindingId := "00000000-0000-4000-8000-000000000003"
  sourceType := .ga4
  fetchedAt := 63425937600000000
  expiresAt := 63428529600000000
  identityMatched := true
  healthStatus := (evaluateGa4Health sampleGa4).1
  healthReasons := (evaluateGa4Health sampleGa4).2
  normalizedPayload := .null
  payloadChecksum := "sha256:0"
  externalResourceId := "properties/1"
  coverageStart := 734075
  coverageEnd := 734090

/-- The work of 6 November 2010 in Newfoundland. -/
def sampleEntry : ImplementationEntry := ⟨"a1", 734082, "America/St_Johns"⟩

def sampleRequest : ComparisonRequest where
  implementation :=
    { caseId := "00000000-0000-4000-8000-000000000002"
      recordedAt := 63425937600000000
      entries := [sampleEntry] }
  actionId := "a1"
  days := 28
  scope := ⟨.ga4, .property, none, .all, []⟩
  evaluatedAt := 63425937600000000
  before := none
  after := some sampleSnapshot
  concurrentChanges := .unknown

def sampleWindows : ComparisonWindows where
  days := 28
  timezone := "America/Halifax"
  before := ⟨734053, 734080⟩
  excluded := ⟨734081, 734082⟩
  after := ⟨734083, 734110⟩

theorem sampleWindows_planned :
    planWindows sampleLibrary.zoneInfo sampleEntry "America/Halifax" 28 = .ok sampleWindows := by
  rfl

/-- The hour that Newfoundland shows twice before midnight belongs to the next date of
Halifax, and so to the window after the work. -/
theorem sampleWindows_reached : ¬ Avoids stJohns halifax 734082 sampleWindows := by
  intro havoid
  exact (havoid 63424782900000000 (by decide)).2 (by unfold DateRange.Has; decide)

end Sample

end SearchTrust.Comparison
