/-
The saved Search Console and Analytics snapshots that a comparison reads, and the checks
before it reads them.
-/
import Mathlib.Data.Rat.Defs
import SearchTrust.Comparison.Windows
import SearchTrust.Jobs.Models
import SearchTrust.Order.Sorting

namespace SearchTrust.Comparison

open SearchTrust.Calendar
open SearchTrust.Capability (require require_eq_ok)
open SearchTrust.Jobs (Json)
open SearchTrust.Order

inductive SourceType where
  | gsc
  | ga4
  | gbp
deriving DecidableEq

inductive HealthStatus where
  | notChecked
  | healthy
  | unhealthy
  | expired
deriving DecidableEq

section Gsc

/-- What a comparison reads of a `MetricRow`; finite floats are rational numbers. -/
structure MetricRow where
  key : Option String
  clicks : ℚ
  impressions : ℚ
deriving DecidableEq

inductive AggregationType where
  | auto
  | byProperty
  | byPage
deriving DecidableEq

structure View where
  rows : List MetricRow
  truncated : Bool
  aggregationType : AggregationType
deriving DecidableEq

structure Period where
  startDate : ℤ
  endDate : ℤ
  totals : View
  queries : View
  pages : View
  dates : View
  devices : View
  countries : View
deriving DecidableEq

structure GscSnapshot where
  resourceId : String
  current : Period
  previous : Period
  limitations : List String
deriving DecidableEq

end Gsc

section Ga4

structure MetricRestriction where
  metricName : String
  restrictedMetricTypes : List String
deriving DecidableEq

structure ReportMetadata where
  subjectToThresholding : Bool
  dataLossFromOtherRow : Bool
  sampling : List (ℕ × ℕ)
  timeZone : String
  metricRestrictions : List MetricRestriction
deriving DecidableEq

/-- What is read of an `OverviewMetrics`. -/
structure OverviewMetrics where
  sessions : ℕ
  engagedSessions : ℕ
  keyEvents : ℚ
deriving DecidableEq

/-- What is read of a `DateRow`. -/
structure DateRow where
  date : ℤ
  sessions : ℕ
deriving DecidableEq

structure KeyEventConfig where
  eventName : String
  countingMethod : String
  custom : Bool
  deletable : Bool
  createTime : Option String
deriving DecidableEq

/-- The landing pages and the key events are lists of their names. -/
structure Ga4Period where
  startDate : ℤ
  endDate : ℤ
  totals : List OverviewMetrics × ReportMetadata
  landingPages : List String × ReportMetadata
  dates : List DateRow × ReportMetadata
  keyEvents : List String × ReportMetadata
deriving DecidableEq

structure Ga4Snapshot where
  resourceId : String
  hostFilter : List String
  configuredKeyEvents : List KeyEventConfig
  current : Ga4Period
  previous : Ga4Period
  limitations : List String
deriving DecidableEq

/-- The metadata of the four reports. -/
def Ga4Period.metadata (period : Ga4Period) : List ReportMetadata :=
  [period.totals.2, period.landingPages.2, period.dates.2, period.keyEvents.2]

end Ga4

structure TrustedFirstPartySnapshot where
  snapshotId : String
  caseId : String
  bindingId : String
  sourceType : SourceType
  fetchedAt : ℤ
  expiresAt : ℤ
  identityMatched : Bool
  healthStatus : HealthStatus
  healthReasons : List String
  normalizedPayload : Json
  payloadChecksum : String
  externalResourceId : String
  coverageStart : ℤ
  coverageEnd : ℤ

/-- What `_validate_snapshot` decodes. -/
inductive SnapshotValue where
  | gsc (value : GscSnapshot)
  | ga4 (value : Ga4Snapshot)
deriving DecidableEq

namespace SnapshotValue

def resourceId : SnapshotValue → String
  | gsc value => value.resourceId
  | ga4 value => value.resourceId

def limitations : SnapshotValue → List String
  | gsc value => value.limitations
  | ga4 value => value.limitations

def coverage : SnapshotValue → ℤ × ℤ
  | gsc value => (value.previous.startDate, value.current.endDate)
  | ga4 value => (value.previous.startDate, value.current.endDate)

/-- The time zones of the Analytics reports. -/
def timeZones : SnapshotValue → List String
  | gsc _ => []
  | ga4 value => (value.previous.metadata ++ value.current.metadata).map (·.timeZone)

end SnapshotValue

/-- The parts of the libraries that a comparison calls. -/
structure Library where
  zoneInfo : ZoneInfo
  /-- `date.fromisoformat`; `none` is a `ValueError`. -/
  fromisoformat : String → Option ℤ
  /-- `date.isoformat` -/
  isoformat : ℤ → String
  /-- `request_digest` of a payload. -/
  requestDigest : Json → String
  /-- `verified_request_digest` of a snapshot as it is dumped. -/
  snapshotDigest : TrustedFirstPartySnapshot → String
  /-- `GscSnapshot.model_validate_json`; `none` is a `ValidationError`. -/
  readGsc : Json → Option GscSnapshot
  /-- `Ga4Snapshot.model_validate_json` -/
  readGa4 : Json → Option Ga4Snapshot

section Health

/-- The problems of the dates with activity, in order. -/
def activityProblems (source : String) (endDate : ℤ) (dates : List ℤ) : List String :=
  match dates.getLast? with
  | none => []
  | some last =>
      (if 7 < endDate - last then [source ++ "_RECENT_ACTIVITY_MISSING_REVIEW"] else []) ++
      (if (dates.zip dates.tail).any fun (left, right) => decide (14 ≤ right - left - 1) then
        [source ++ "_ACTIVITY_GAP_REVIEW"] else [])

/-- `totals.rows[0].impressions <= 0`, or there is no such row. -/
def withoutImpressions (view : View) : Bool :=
  match view.rows with
  | [] => true
  | row :: _ => decide (row.impressions ≤ 0)

/-- `evaluate_health` of a Search Console snapshot; `none` is a `ValueError`. -/
def evaluateGscHealth (lib : Library) (snapshot : GscSnapshot) :
    Option (HealthStatus × List String) := do
  let current := snapshot.current
  let active := current.dates.rows.filter fun row =>
    decide (0 < row.impressions) && row.key.any fun key => decide (key ≠ "")
  let dates ← active.mapM fun row => row.key.bind lib.fromisoformat
  let dates := sortedBy id dates
  let problems :=
    (if withoutImpressions current.totals then ["GSC_NO_CURRENT_DATA"] else []) ++
    (if current.queries.rows = [] then ["GSC_NO_QUERY_ROWS"] else []) ++
    (if current.pages.rows = [] then ["GSC_NO_PAGE_ROWS"] else []) ++
    (if dates = [] then ["GSC_NO_ACTIVITY_DATES"] else
      activityProblems "GSC" current.endDate dates)
  return (if problems = [] then .healthy else .unhealthy,
    problems ++ snapshot.limitations ++
      if withoutImpressions snapshot.previous.totals then ["GSC_COMPARISON_UNAVAILABLE"] else [])

/-- `evaluate_health` of an Analytics snapshot. -/
def evaluateGa4Health (snapshot : Ga4Snapshot) : HealthStatus × List String :=
  let current := snapshot.current
  let totals := current.totals.1.head?
  let previous := snapshot.previous.totals.1.head?
  let active := sortedBy id ((current.dates.1.filter fun row => 0 < row.sessions).map (·.date))
  let metadata := current.metadata ++ snapshot.previous.metadata
  let configured := snapshot.configuredKeyEvents ≠ []
  let problems :=
    (if totals.all fun t => decide (t.sessions = 0) then ["GA4_NO_CURRENT_SESSIONS"] else []) ++
    (if current.landingPages.1 = [] then ["GA4_NO_LANDING_PAGE_ROWS"] else []) ++
    (if current.dates.1 = [] then ["GA4_NO_ACTIVITY_DATES"] else []) ++
    (if configured then [] else ["GA4_NO_CONFIGURED_KEY_EVENTS"]) ++
    activityProblems "GA4" current.endDate active
  let warnings :=
    (if configured ∧ totals.all fun t => decide (t.keyEvents = 0) then
      ["GA4_CONFIGURED_KEY_EVENTS_NO_ACTIVITY"] else []) ++
    (if totals.any fun t => decide (t.engagedSessions = 0) then
      ["GA4_NO_ENGAGED_SESSIONS_REVIEW"] else []) ++
    (if previous.all fun t => decide (t.sessions = 0) then ["GA4_COMPARISON_UNAVAILABLE"] else []) ++
    (if metadata.any fun m => decide (m.sampling ≠ []) then ["GA4_SAMPLED_DATA"] else []) ++
    (if metadata.any (·.subjectToThresholding) then ["GA4_THRESHOLDING_APPLIED"] else []) ++
    (if metadata.any (·.dataLossFromOtherRow) then ["GA4_OTHER_ROW_DATA_LOSS"] else []) ++
    (if metadata.any fun m => decide (m.metricRestrictions ≠ []) then
      ["GA4_METRIC_RESTRICTIONS"] else []) ++
    (if (current.landingPages.1 ++ snapshot.previous.landingPages.1).any
        fun page => decide (page = "(not set)") then ["GA4_LANDING_PAGE_NOT_SET"] else [])
  (if problems = [] then .healthy else .unhealthy,
    (problems ++ snapshot.limitations ++ warnings).eraseDups)

end Health

/-- The decoded payload with its health; a Business Profile snapshot is in no comparison. -/
def decodedSnapshot (lib : Library) (snapshot : TrustedFirstPartySnapshot) :
    Option (SnapshotValue × HealthStatus × List String) :=
  match snapshot.sourceType with
  | .gsc => do
      let value ← lib.readGsc snapshot.normalizedPayload
      let health ← evaluateGscHealth lib value
      return (.gsc value, health)
  | .ga4 => do
      let value ← lib.readGa4 snapshot.normalizedPayload
      return (.ga4 value, evaluateGa4Health value)
  | .gbp => none

/-- `_validate_snapshot` -/
def validateSnapshot (lib : Library) (snapshot : TrustedFirstPartySnapshot) :
    Except String SnapshotValue := do
  require (decide (lib.requestDigest snapshot.normalizedPayload = snapshot.payloadChecksum))
    "CHECKSUM_MISMATCH"
  match decodedSnapshot lib snapshot with
  | none => .error "INPUT_INVALID"
  | some (value, health, reasons) => do
      require (decide (health = snapshot.healthStatus) && decide (reasons = snapshot.healthReasons))
        "CHECKSUM_MISMATCH"
      require (decide (value.resourceId = snapshot.externalResourceId) &&
        decide (value.coverage = (snapshot.coverageStart, snapshot.coverageEnd)))
        "BINDING_INVALID"
      return value

end SearchTrust.Comparison
