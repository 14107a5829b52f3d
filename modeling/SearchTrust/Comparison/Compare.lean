/-
Pure descriptive comparisons over validated immutable snapshots.
-/
import SearchTrust.Comparison.Snapshots
import SearchTrust.Numeric.Binary64

namespace SearchTrust.Comparison

open SearchTrust.Calendar
open SearchTrust.Capability (require require_eq_ok)
open SearchTrust.Numeric

inductive ScopeSource where
  | gsc
  | ga4
deriving DecidableEq

inductive Dimension where
  | property
  | page
  | query
  | device
  | country
  | landingPage
deriving DecidableEq

inductive Channel where
  | all
  | organicSearch
deriving DecidableEq

structure ScopeFilter where
  dimension : Dimension
  value : String
deriving DecidableEq

structure ComparisonScope where
  source : ScopeSource
  dimension : Dimension
  key : Option String
  channel : Channel
  filters : List ScopeFilter
deriving DecidableEq

inductive ConcurrentChanges where
  | unknown
  | reported
  | noneReported
deriving DecidableEq

/-- What a comparison reads of an `ImplementationRecord`. -/
structure ImplementationRecord where
  caseId : String
  recordedAt : ℤ
  entries : List ImplementationEntry

structure ComparisonRequest where
  implementation : ImplementationRecord
  actionId : String
  days : ℕ
  scope : ComparisonScope
  evaluatedAt : ℤ
  before : Option TrustedFirstPartySnapshot
  after : Option TrustedFirstPartySnapshot
  concurrentChanges : ConcurrentChanges

inductive State where
  | waiting
  | insufficient
  | notComparable
  | comparable
deriving DecidableEq

structure ComparisonSource where
  snapshotId : String
  bindingId : String
  payloadChecksum : String
  resourceId : String
  fetchedAt : ℤ
  dataCutoff : Option ℤ
  usedThrough : Option ℤ
deriving DecidableEq

inductive Metric where
  | clicks
  | impressions
  | ctr
deriving DecidableEq

structure MetricComparison where
  metric : Metric
  comparable : Bool
  before : Option ℚ
  after : Option ℚ
  absoluteChange : Option ℚ
  relativeChange : Option ℚ
  percentagePointChange : Option ℚ
  reasons : List String
deriving DecidableEq

structure ComparisonResult where
  actionId : String
  evaluatedAt : ℤ
  scope : ComparisonScope
  windows : ComparisonWindows
  state : State
  reasons : List String
  beforeSource : Option ComparisonSource
  afterSource : Option ComparisonSource
  metrics : List MetricComparison
  limitations : List String
deriving DecidableEq

def SourceType.scope : SourceType → Option ScopeSource
  | gsc => some .gsc
  | ga4 => some .ga4
  | gbp => none

section Request

variable (lib : Library)

/-- `target` -/
def ComparisonScope.target (scope : ComparisonScope) : Except String Unit := do
  require (decide (scope.dimension = .property) == scope.key.isNone)
    "property scope has no key; other scopes require one"
  require (decide (scope.source ≠ .gsc) || decide (scope.channel = .organicSearch))
    "GSC measures search, not all traffic"

def snapshotCheck (request : ComparisonRequest) (snapshot : TrustedFirstPartySnapshot) : Bool :=
  decide (snapshot.caseId = request.implementation.caseId) &&
    decide (snapshot.sourceType.scope = some request.scope.source) &&
    decide (snapshot.fetchedAt ≤ request.evaluatedAt)

/-- `bound` -/
def ComparisonRequest.bound (request : ComparisonRequest) : Except String Unit := do
  request.scope.target
  require (decide (request.actionId ∈ request.implementation.entries.map (·.actionId)))
    "selected action has no saved implementation record"
  require (decide (request.implementation.recordedAt ≤ request.evaluatedAt))
    "evaluation predates the implementation record"
  require ((request.before.toList ++ request.after.toList).all (snapshotCheck request))
    "snapshot identity or evaluation binding mismatch"
  require (request.before.all fun b => request.after.all fun a =>
    decide (b.snapshotId ≠ a.snapshotId) || decide (lib.snapshotDigest b = lib.snapshotDigest a))
    "one snapshot identity cannot have two contents"

end Request

section Days

variable (lib : Library)

/-- `_days` -/
def daysOf (range : DateRange) : List ℤ :=
  (List.range (range.stop - range.start + 1).toNat).map fun i => range.start + i

/-- One round over the rows of a period. -/
def addDateRow (period : Period) (rows : List (ℤ × MetricRow)) (row : MetricRow) :
    Except String (List (ℤ × MetricRow)) :=
  match row.key with
  | none => .error "GSC date key is missing"
  | some text =>
      match lib.fromisoformat text with
      | none => .error "Invalid isoformat string"
      | some key => do
          require (decide (key ∉ rows.map Prod.fst) &&
            decide (period.startDate ≤ key ∧ key ≤ period.endDate) &&
            decide (lib.isoformat key = text)) "duplicate or out-of-scope GSC date"
          return rows ++ [(key, row)]

/-- One round over the periods. -/
def addPeriod (rows : List (ℤ × MetricRow)) (period : Period) :
    Except String (List (ℤ × MetricRow)) := do
  require (decide (period.startDate ≤ period.endDate) &&
    decide (period.endDate - period.startDate < 90)) "invalid GSC period"
  require (! period.dates.truncated && decide (period.dates.aggregationType = .byProperty))
    "daily property aggregation is not trustworthy"
  period.dates.rows.foldlM (addDateRow lib period) rows

/-- `_gsc_dates` -/
def gscDates (value : GscSnapshot) : Except String (List (ℤ × MetricRow)) := do
  let rows ← [value.previous, value.current].foldlM (addPeriod lib) []
  require (decide (value.previous.endDate < value.current.startDate)) "overlapping GSC periods"
  return rows

end Days

section Counts

/-- `MAX_SAFE` -/
def maxSafe : ℤ := 2 ^ 53 - 1

/-- `float(v).is_integer()` and the bounds. -/
def safeCount (v : ℚ) : Bool := decide (v.den = 1) && decide (0 ≤ v ∧ v ≤ maxSafe)

def addCounts (total : ℤ × ℤ) (row : MetricRow) : Except String (ℤ × ℤ) := do
  require (safeCount row.clicks && safeCount row.impressions &&
    decide (row.clicks ≤ row.impressions)) "invalid GSC count"
  return (total.1 + row.clicks.num, total.2 + row.impressions.num)

/-- `_counts` -/
def countsOf (rows : List MetricRow) : Except String (ℤ × ℤ) := do
  let total ← rows.foldlM addCounts (0, 0)
  require (decide (max total.1 total.2 ≤ maxSafe)) "comparison count exceeds shared numeric range"
  return total

/-- `VIEWS.get(scope.dimension)` -/
def viewOf (dimension : Dimension) (period : Period) : Option View :=
  match dimension with
  | .page => some period.pages
  | .query => some period.queries
  | .device => some period.devices
  | .country => some period.countries
  | _ => none

/-- The aggregation that a dimension is trusted under. -/
def requiredAggregation (dimension : Dimension) : AggregationType :=
  if dimension = .page then .byPage else .byProperty

/-- `_extract`: the counts, or the reason why there are none. -/
def extractCounts (lib : Library) (value : GscSnapshot) (expected : DateRange)
    (scope : ComparisonScope) : Except String (Except String (ℤ × ℤ)) := do
  let rows ← gscDates lib value
  let days := (daysOf expected).map fun day => (rows.find? fun row => row.1 = day).map Prod.snd
  if days.any Option.isNone then return .error "DAILY_COVERAGE_INCOMPLETE"
  else if scope.dimension = .property then return .ok (← countsOf (days.filterMap id))
  else if (viewOf scope.dimension value.current).isNone then
    return .error "DIMENSION_NOT_OBSERVED"
  else
    match [value.previous, value.current].find? fun p =>
        p.startDate = expected.start ∧ p.endDate = expected.stop with
    | none => return .error "EXACT_WINDOW_AGGREGATE_REQUIRED"
    | some period =>
        match viewOf scope.dimension period with
        | none => return .error "DIMENSION_NOT_OBSERVED"
        | some view =>
            if view.truncated then return .error "DETAIL_TRUNCATED"
            else if view.aggregationType ≠ requiredAggregation scope.dimension then
              return .error "AGGREGATION_NOT_SUPPORTED"
            else do
              require (decide (view.rows.map (·.key)).Nodup) "duplicate GSC target"
              let selected := view.rows.filter fun row => row.key = scope.key
              if selected = [] then return .error "TARGET_NOT_OBSERVED_IN_BOTH_WINDOWS"
              else return .ok (← countsOf selected)

end Counts

section Metrics

/-- The comparison of two counts. -/
def countMetric (metric : Metric) (before after : ℤ) : MetricComparison where
  metric := metric
  comparable := true
  before := some before
  after := some after
  absoluteChange := some (after - before)
  relativeChange := if before ≠ 0 then some (toBinary64 ((after - before) / before)) else none
  percentagePointChange := none
  reasons := if before ≠ 0 then [] else ["ZERO_BASELINE_NO_RELATIVE_CHANGE"]

def ratio (counts : ℤ × ℤ) : Option ℚ :=
  if counts.2 ≠ 0 then some (toBinary64 (counts.1 / counts.2)) else none

/-- The comparison of two click rates. -/
def ctrMetric (before after : ℤ × ℤ) : MetricComparison :=
  match ratio before, ratio after with
  | some a, some b =>
      { metric := .ctr, comparable := true, before := some a, after := some b
        absoluteChange := some (toBinary64 (b - a)), relativeChange := none
        percentagePointChange := some (toBinary64 (toBinary64 (b - a) * 100)), reasons := [] }
  | a, b =>
      { metric := .ctr, comparable := false, before := a, after := b
        absoluteChange := none, relativeChange := none
        percentagePointChange := none, reasons := ["ZERO_IMPRESSIONS_NO_CTR"] }

/-- `_metrics` -/
def metricsOf (before after : ℤ × ℤ) : List MetricComparison :=
  [countMetric .clicks before.1 after.1, countMetric .impressions before.2 after.2,
    ctrMetric before after]

end Metrics

section Comparison

variable (lib : Library) (request : ComparisonRequest)

/-- `instant.astimezone(ZoneInfo(source_zone)).date()` -/
def dateIn (sourceZone : String) (t : ℤ) : Except String ℤ := do
  let zone ← zoneOf lib.zoneInfo sourceZone
  checkedDate (zone.localDate t)

/-- The latest final date that a snapshot has. -/
def cutoffOf (sourceZone : String) (snapshot : Option TrustedFirstPartySnapshot)
    (value : Option SnapshotValue) : Except String (Option ℤ) :=
  match snapshot, value with
  | some saved, some (.gsc gsc) => do
      let observed ← gscDates lib gsc
      match (observed.map Prod.fst).max? with
      | none => return none
      | some last => do
          let fetched ← dateIn lib sourceZone saved.fetchedAt
          return some (min last (fetched - 1))
  | _, _ => .ok none

/-- `source_zone` -/
def sourceZoneOf (entry : ImplementationEntry) (values : List SnapshotValue) : String :=
  match request.scope.source with
  | .gsc => "America/Los_Angeles"
  | .ga4 =>
      match (values.flatMap (·.timeZones)).eraseDups with
      | [zone] => zone
      | _ => entry.timezone

def concurrentLimitation : ConcurrentChanges → String
  | .unknown => "Concurrent changes have not been checked."
  | .reported => "Other concurrent changes were reported and may affect the comparison."
  | .noneReported =>
      "No concurrent changes were reported; this is not independent confirmation that none occurred."

/-- `limitations` -/
def limitationsOf (values : List SnapshotValue) : List String :=
  (["Implementation is user-reported; this comparison does not verify the live page.",
    "Descriptive movement only. Metric-specific low-volume effect eligibility has not been calibrated.",
    "Seasonality, demand, competitors and concurrent changes may affect the observed values. No causal attribution."] ++
  (if 1 < request.implementation.entries.length then
    ["Multiple actions are recorded; observed movement cannot be isolated to the selected action."]
    else []) ++
  [concurrentLimitation request.concurrentChanges] ++
  (if request.scope.dimension = .property then
    ["Property-wide movement is not page-specific evidence or proof of the selected action's effect."]
    else []) ++
  values.flatMap (·.limitations)).eraseDups

/-- `ref` -/
def sourceRef (state : State) (saved : TrustedFirstPartySnapshot) (cutoff : Option ℤ)
    (period : DateRange) : ComparisonSource where
  snapshotId := saved.snapshotId
  bindingId := saved.bindingId
  payloadChecksum := saved.payloadChecksum
  resourceId := saved.externalResourceId
  fetchedAt := saved.fetchedAt
  dataCutoff := cutoff
  usedThrough := if state = .comparable then some period.stop else none

/-- `consistent` of a result. -/
def ComparisonResult.consistent (result : ComparisonResult) : Except String Unit := do
  require (decide (result.state = .comparable) || decide (result.metrics = []))
    "unqualified comparison cannot publish deltas"
  require (decide (result.state ≠ .comparable) || (decide (result.scope.source = .gsc) &&
    result.beforeSource.isSome && result.afterSource.isSome &&
    decide (result.metrics.map (·.metric) = [.clicks, .impressions, .ctr])))
    "descriptive source qualification missing"
  require (decide (result.state ≠ .comparable) ||
    (decide (result.beforeSource.bind (·.usedThrough) = some result.windows.before.stop) &&
      decide (result.afterSource.bind (·.usedThrough) = some result.windows.after.stop)))
    "actual used cutoff differs from selected windows"

/-- What the exits of a comparison share. -/
structure Prepared where
  values : List SnapshotValue
  sourceZone : String
  windows : ComparisonWindows
  beforeCutoff : Option ℤ
  afterCutoff : Option ℤ

/-- `finish` -/
def finish (prepared : Prepared) (state : State) (reasons : List String)
    (metrics : List MetricComparison) : Except String ComparisonResult := do
  let result : ComparisonResult :=
    { actionId := request.actionId
      evaluatedAt := request.evaluatedAt
      scope := request.scope
      windows := prepared.windows
      state
      reasons := reasons.eraseDups
      beforeSource := request.before.map fun saved =>
        sourceRef state saved prepared.beforeCutoff prepared.windows.before
      afterSource := request.after.map fun saved =>
        sourceRef state saved prepared.afterCutoff prepared.windows.after
      metrics
      limitations := limitationsOf request prepared.values }
  result.consistent
  return result

/-- The exits that every source has, for two snapshots. -/
def sharedExit (before after : TrustedFirstPartySnapshot) : Option (State × List String) :=
  if before.bindingId ≠ after.bindingId ∨ before.externalResourceId ≠ after.externalResourceId then
    some (.notComparable, ["SOURCE_BINDING_CHANGED"])
  else if ¬ (before.identityMatched ∧ after.identityMatched) then
    some (.notComparable, ["IDENTITY_NOT_MATCHED"])
  else if before.healthStatus ≠ .healthy ∨ after.healthStatus ≠ .healthy then
    some (.insufficient, ["SOURCE_UNHEALTHY"])
  else if after.expiresAt ≤ request.evaluatedAt then
    some (.notComparable, ["CURRENT_SNAPSHOT_EXPIRED"])
  else if request.scope.filters ≠ [] then
    some (.notComparable, ["COMBINED_DIMENSIONS_NOT_OBSERVED"])
  else none

/-- The exit of two Analytics snapshots: none of them is comparable. -/
def ga4Exit (before after : Ga4Snapshot) : State × List String :=
  let zones := ((SnapshotValue.ga4 before).timeZones ++ (SnapshotValue.ga4 after).timeZones).eraseDups
  let metadata : List ReportMetadata := before.previous.metadata ++ before.current.metadata ++
    after.previous.metadata ++ after.current.metadata
  if request.scope.channel = .organicSearch then
    (.notComparable, ["ORGANIC_CHANNEL_NOT_OBSERVED"])
  else if ¬ (before.hostFilter ⊆ after.hostFilter ∧ after.hostFilter ⊆ before.hostFilter) then
    (.notComparable, ["HOST_SCOPE_CHANGED"])
  else if zones.length ≠ 1 then (.notComparable, ["SOURCE_TIMEZONE_CHANGED"])
  else if metadata.any fun m => decide (m.sampling ≠ []) || m.subjectToThresholding ||
      m.dataLossFromOtherRow || decide (m.metricRestrictions ≠ []) then
    (.notComparable, ["GA4_REPORT_RESTRICTED"])
  else if before.configuredKeyEvents ≠ after.configuredKeyEvents then
    (.notComparable, ["GA4_EVENT_CONFIGURATION_CHANGED"])
  else (.notComparable, ["GA4_COMPLETENESS_NOT_ATTESTED", "GA4_EVENT_HISTORY_NOT_VERIFIED"])

/-- The exits of two Search Console snapshots before their counts are read. -/
def gscExit (prepared : Prepared) (before after : TrustedFirstPartySnapshot) (today : ℤ) :
    Option (State × List String) :=
  let windows := prepared.windows
  if today ≤ windows.after.stop then some (.waiting, ["AFTER_WINDOW_NOT_ELAPSED"])
  else if after.coverageEnd < windows.after.stop then
    some (.waiting, ["AFTER_COLLECTION_NOT_AVAILABLE"])
  else if windows.before.start < before.coverageStart ∨
      before.coverageEnd < windows.before.stop then
    some (.insufficient, ["BEFORE_WINDOW_NOT_COVERED"])
  else if ! (prepared.beforeCutoff.any fun c => decide (windows.before.stop ≤ c)) ||
      ! (prepared.afterCutoff.any fun c => decide (windows.after.stop ≤ c)) then
    some (.insufficient, ["FINAL_DATE_COVERAGE_UNCONFIRMED"])
  else none

/-- The exit that the reasons of two counts lead to. -/
def reasonExit (reasons : List String) : State :=
  if reasons.any fun r => decide (r ∈ ["DIMENSION_NOT_OBSERVED", "AGGREGATION_NOT_SUPPORTED"]) then
    .notComparable
  else .insufficient

def reasonOf : Except String (ℤ × ℤ) → List String
  | .ok _ => []
  | .error reason => [reason]

/-- The comparison of two Search Console snapshots that no exit stopped. -/
def compareCounts (prepared : Prepared) (before after : GscSnapshot) :
    Except String ComparisonResult := do
  let first ← extractCounts lib before prepared.windows.before request.scope
  let second ← extractCounts lib after prepared.windows.after request.scope
  match first, second with
  | .ok first, .ok second => finish request prepared .comparable [] (metricsOf first second)
  | first, second =>
      let reasons := reasonOf first ++ reasonOf second
      finish request prepared (reasonExit reasons) reasons []

/-- The values, the windows and the cutoffs that a comparison rests on. -/
def prepare : Except String (Option SnapshotValue × Option SnapshotValue × Prepared) := do
  request.bound lib
  match request.implementation.entries.find? fun e => e.actionId = request.actionId with
  | none => .error "StopIteration"
  | some entry => do
      let before ← request.before.mapM (validateSnapshot lib)
      let after ← request.after.mapM (validateSnapshot lib)
      let values := before.toList ++ after.toList
      let sourceZone := sourceZoneOf request entry values
      let windows ← planWindows lib.zoneInfo entry sourceZone request.days
      let beforeCutoff ← cutoffOf lib sourceZone request.before before
      let afterCutoff ← cutoffOf lib sourceZone request.after after
      return (before, after, ⟨values, sourceZone, windows, beforeCutoff, afterCutoff⟩)

/-- `compare_implementation` -/
def compareImplementation : Except String ComparisonResult := do
  let (before, after, prepared) ← prepare lib request
  match request.before, request.after, before, after with
  | some savedBefore, some savedAfter, some before, some after =>
      match sharedExit request savedBefore savedAfter with
      | some (state, reasons) => finish request prepared state reasons []
      | none =>
          match before, after with
          | .gsc gscBefore, .gsc gscAfter => do
              if request.scope.dimension = .landingPage then
                finish request prepared .notComparable ["DIMENSION_NOT_OBSERVED"] []
              else
                let today ← dateIn lib prepared.sourceZone request.evaluatedAt
                match gscExit prepared savedBefore savedAfter today with
                | some (state, reasons) => finish request prepared state reasons []
                | none => compareCounts lib request prepared gscBefore gscAfter
          | .ga4 ga4Before, .ga4 ga4After =>
              let (state, reasons) := ga4Exit request ga4Before ga4After
              finish request prepared state reasons []
          | _, _ => .error "AttributeError"
  | _, _, _, _ => do
      let today ← dateIn lib prepared.sourceZone request.evaluatedAt
      finish request prepared
        (if today ≤ prepared.windows.after.stop then .waiting else .insufficient)
        ["SNAPSHOT_MISSING"] []

end Comparison

end SearchTrust.Comparison
