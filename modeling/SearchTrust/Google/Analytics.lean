/-
Reading a report of the Analytics API.  A report of totals says that nothing was cut off
whatever number of rows the provider counts; the other views compare that number with
their limit.
-/
import SearchTrust.Google.Answers

namespace SearchTrust.Google

open SearchTrust.Market (Text text Value Fields Float64 encodable)
open SearchTrust.Report (Date)
open SearchTrust.Report.Outcomes

section Models

structure Sampling where
  samplesReadCount : ℕ
  samplingSpaceSize : ℕ

structure MetricRestriction where
  metricName : Text
  restrictedMetricTypes : List Text

structure ReportMetadata where
  subjectToThresholding : Bool
  dataLossFromOtherRow : Bool
  sampling : List Sampling
  emptyReason : Option Text
  timeZone : Text
  metricRestrictions : List MetricRestriction

/-- What the totals and a landing page have in common. -/
structure Engagement where
  sessions : ℕ
  engagedSessions : ℕ
  engagementRate : ℚ
  averageSessionDuration : ℚ
  screenPageViews : ℕ
  keyEvents : ℚ
  sessionKeyEventRate : ℚ

/-- `OverviewMetrics`, `LandingPageRow`, `DateRow` and `KeyEventRow`. -/
inductive ReportRow where
  | overview (activeUsers : ℕ) (metrics : Engagement)
  | landingPage (page : Text) (metrics : Engagement)
  | day (date : Date) (sessions engagedSessions : ℕ) (keyEvents : ℚ)
  | keyEvent (eventName : Text) (keyEvents : ℚ)

inductive ReportView where
  | totals | landingPages | dates | keyEvents
deriving DecidableEq

/-- `OverviewView`, `LandingPageView`, `DateView` and `KeyEventView`. -/
structure ReportResult where
  rows : List ReportRow
  truncated : Bool
  metadata : ReportMetadata

namespace ReportView

/-- A key of `REPORTS`. -/
def ofName (name : String) : Option ReportView :=
  if name = "totals" then some totals
  else if name = "landing_pages" then some landingPages
  else if name = "dates" then some dates
  else if name = "key_events" then some keyEvents
  else none

def dimensions : ReportView → List String
  | totals => []
  | landingPages => ["landingPage"]
  | dates => ["date"]
  | keyEvents => ["eventName"]

def metrics : ReportView → List String
  | totals => ["sessions", "activeUsers", "engagedSessions", "engagementRate",
      "averageSessionDuration", "screenPageViews", "keyEvents", "sessionKeyEventRate"]
  | landingPages => ["sessions", "engagedSessions", "engagementRate",
      "averageSessionDuration", "screenPageViews", "keyEvents", "sessionKeyEventRate"]
  | dates => ["sessions", "engagedSessions", "keyEvents"]
  | keyEvents => ["keyEvents"]

def limit : ReportView → ℕ
  | totals => 1
  | landingPages => 250
  | dates => 90
  | keyEvents => 100

end ReportView

end Models

section Metadata

/-- A field `bool` that is not strict. -/
def laxBool : Value → Option Bool
  | .bool b => some b
  | .int n => if n = 0 then some false else if n = 1 then some true else none
  | .float x =>
      if x.isFinite ∧ x.value = 0 then some false
      else if x.isFinite ∧ x.value = 1 then some true
      else none
  | .str t =>
      let lowered := t.map fun c => if 65 ≤ c ∧ c ≤ 90 then c + 32 else c
      if lowered ∈ ["0", "f", "n", "no", "off", "false"].map text then some false
      else if lowered ∈ ["1", "t", "y", "on", "yes", "true"].map text then some true
      else none
  | _ => none

/-- A field `str` with bounds on its length. -/
def modelText (shortest longest : ℕ) : Value → Option Text
  | .str t =>
      if shortest ≤ t.length ∧ t.length ≤ longest ∧ encodable t = true then some t else none
  | _ => none

/-- `_safe_int`. -/
def reportInt : Value → Except Exc ℕ
  | .str digits =>
      if isDigits digits ∧ digits.length ≤ maxStrDigits ∧ decimalValue digits ≤ maxSafeInteger then
        .ok (decimalValue digits)
      else .error .valueError
  | _ => .error .valueError

variable (lib : AnswerLibrary)

/-- `_safe_float`. -/
def reportFloat : Value → Except Exc ℚ
  | .str t =>
      if t = [] ∨ 64 < t.length then .error .valueError
      else
        match lib.float t with
        | none => .error .valueError
        | some x => if x.isFinite ∧ 0 ≤ x.value then .ok x.value else .error .valueError
  | _ => .error .valueError

def samplingOf (fields : Fields) : Except Exc Sampling := do
  let read ← item fields "samplesReadCount"
  let read ← reportInt read
  let space ← item fields "samplingSpaceSize"
  let space ← reportInt space
  return ⟨read, space⟩

def restrictedTypes : List Text :=
  ["RESTRICTED_METRIC_TYPE_UNSPECIFIED", "COST_DATA", "REVENUE_DATA"].map text

/-- A field with one of the restricted types. -/
def restrictedType : Value → Option Text
  | .str t => if t ∈ restrictedTypes then some t else none
  | _ => none

/-- A field that lists restricted types. -/
def restrictedMetricTypes : Value → Except Exc (List Text)
  | .list types => field (types.mapM restrictedType)
  | _ => .error .validationError

def restrictionOf (fields : Fields) : Except Exc MetricRestriction := do
  let name ← item fields "metricName"
  let name ← field (modelText 1 128 name)
  let types ← restrictedMetricTypes (getOr fields "restrictedMetricTypes" (.list []))
  return ⟨name, types⟩

/-- A field `str | None`. -/
def emptyReason : Value → Except Exc (Option Text)
  | .null => .ok none
  | value => (field (modelText 0 512 value)).map some

/-- The name of a time zone. -/
def timeZone : Value → Except Exc Text
  | .str t =>
      if t ≠ [] ∧ t.length ≤ 128 ∧ ∀ c ∈ t, 33 ≤ c then field (modelText 1 128 (.str t))
      else .error .valueError
  | _ => .error .valueError

/-- `_metadata`. -/
def readMetadata (payload : Fields) : Except Exc ReportMetadata := do
  let raw ← dictOf (getOr payload "metadata" .null)
  let zone ← timeZone (getOr raw "timeZone" .null)
  let sampling ← listOf (getOr raw "samplingMetadatas" (.list []))
  demand (sampling.length ≤ 2)
  let sampling ← sampling.mapM dictOf
  let restrictions ← attributeGet (getOr raw "schemaRestrictionResponse" (.dict []))
    "activeMetricRestrictions" (.list [])
  let restrictions ← listOf restrictions
  demand (restrictions.length ≤ 50)
  let restrictions ← restrictions.mapM dictOf
  let sampling ← sampling.mapM samplingOf
  demand (∀ s ∈ sampling, s.samplingSpaceSize ≠ 0 ∧ s.samplesReadCount ≤ s.samplingSpaceSize)
  let restrictions ← restrictions.mapM restrictionOf
  let thresholding ← field (laxBool (getOr raw "subjectToThresholding" (.bool false)))
  let loss ← field (laxBool (getOr raw "dataLossFromOtherRow" (.bool false)))
  let reason ← emptyReason (getOr raw "emptyReason" .null)
  return ⟨thresholding, loss, sampling, reason, zone, restrictions⟩

/-- The names of a list of headers. -/
def namesAre (headers : Value) (names : List String) : Except Exc Unit := do
  let headers ← listOf headers
  demand (headers.map (getIfDict "name") = names.map fun name => Value.str (text name))

/-- `_headers`. -/
def checkHeaders (payload : Fields) (dimensions metrics : List String) : Except Exc Unit := do
  let dh := getOr payload "dimensionHeaders" .null
  let mh := getOr payload "metricHeaders" .null
  namesAre (if dh = .null ∧ dimensions = [] then .list [] else dh) dimensions
  if mh = .null ∧ dimensions = [] ∧ "rows" ∉ keysOf payload ∧ "rowCount" ∉ keysOf payload then
    .ok ()
  else namesAre mh metrics

end Metadata

section Rows

variable (lib : AnswerLibrary)

/-- A value of a dimension. -/
def keyText : Value → Except Exc Text
  | .str t =>
      if t ≠ [] ∧ t.length ≤ 4096 ∧ ∀ c ∈ t, 32 ≤ c then .ok t else .error .valueError
  | _ => .error .valueError

/-- `data[name]`. -/
def metricValue (data : List (String × Value)) (name : String) : Except Exc Value :=
  item data name

def metricInt (data : List (String × Value)) (name : String) : Except Exc ℕ := do
  let value ← metricValue data name
  reportInt value

def metricFloat (data : List (String × Value)) (name : String) : Except Exc ℚ := do
  let value ← metricValue data name
  reportFloat lib value

/-- A rate of a model. -/
def metricRate (data : List (String × Value)) (name : String) : Except Exc ℚ := do
  let value ← metricFloat lib data name
  constrained (fun x => 0 ≤ x ∧ x ≤ 1) value

def engagementOf (data : List (String × Value)) : Except Exc Engagement := do
  let sessions ← metricInt data "sessions"
  let engaged ← metricInt data "engagedSessions"
  let rate ← metricRate lib data "engagementRate"
  let duration ← metricFloat lib data "averageSessionDuration"
  let views ← metricInt data "screenPageViews"
  let events ← metricFloat lib data "keyEvents"
  let eventRate ← metricRate lib data "sessionKeyEventRate"
  return ⟨sessions, engaged, rate, duration, views, events, eventRate⟩

/-- The date that a key writes. -/
def reportDate (start stop : Date) (key : Text) : Except Exc Date :=
  match lib.strptime key with
  | none => .error .valueError
  | some day => do
      demand (lib.strftime day "%Y%m%d" = key ∧ start ≤ day ∧ day ≤ stop)
      return day

/-- `keys[0]`. -/
def firstKey (keys : List Text) : Except Exc Text :=
  match keys with
  | key :: _ => .ok key
  | [] => .error .typeError

/-- The row of a view. -/
def makeRow (view : ReportView) (start stop : Date) (keys : List Text)
    (data : List (String × Value)) : Except Exc ReportRow :=
  match view with
  | .totals => do
      let users ← metricInt data "activeUsers"
      let metrics ← engagementOf lib data
      return .overview users metrics
  | .landingPages => do
      let page ← firstKey keys
      let page ← field (modelText 1 4096 (.str page))
      let metrics ← engagementOf lib data
      return .landingPage page metrics
  | .dates => do
      let key ← firstKey keys
      let day ← reportDate lib start stop key
      let sessions ← metricInt data "sessions"
      let engaged ← metricInt data "engagedSessions"
      let events ← metricFloat lib data "keyEvents"
      return .day day sessions engaged events
  | .keyEvents => do
      let name ← firstKey keys
      let name ← field (modelText 1 256 (.str name))
      let events ← metricFloat lib data "keyEvents"
      return .keyEvent name events

/-- One row; the state has the keys that have been seen, and the rows. -/
def reportRow (view : ReportView) (start stop : Date)
    (state : List (List Text) × List ReportRow) (value : Value) :
    Except Exc (List (List Text) × List ReportRow) := do
  let raw ← dictOf value
  let dims ← listOf (getOr raw "dimensionValues" (.list []))
  let vals ← listOf (getOr raw "metricValues" .null)
  demand (dims.length = view.dimensions.length ∧ vals.length = view.metrics.length)
  let keys ← (dims.map (getIfDict "value")).mapM keyText
  demand (keys ∉ state.1)
  let row ← makeRow lib view start stop keys (view.metrics.zip (vals.map (getIfDict "value")))
  return (state.1 ++ [keys], state.2 ++ [row])

/-- The number of rows that an answer reports. -/
def rowCountOf (payload : Fields) : Except Exc ℤ :=
  match getOr payload "rowCount" (.int 0) with
  | .int n => .ok n
  | _ => .error .valueError

/-- What `normalize_report` reads of an answer before it looks at the limit. -/
structure ReadReport where
  view : ReportView
  metadata : ReportMetadata
  rows : List ReportRow
  rowCount : ℤ

/-- The view of a name. -/
def viewNamed (name : String) : Except Exc ReportView :=
  match ReportView.ofName name with
  | some view => .ok view
  | none => .error .valueError

def readReport (payload : Value) (name : String) (start stop : Date) : Except Exc ReadReport := do
  let view ← viewNamed name
  let fields ← dictOf payload
  checkHeaders fields view.dimensions view.metrics
  let metadata ← readMetadata fields
  let raw ← listOf (getOr fields "rows" (.list []))
  demand (raw.length ≤ view.limit + 1)
  let count ← rowCountOf fields
  demand ((raw.length : ℤ) ≤ count)
  let state ← raw.foldlM (reportRow lib view start stop) ([], [])
  return ⟨view, metadata, state.2, count⟩

/-- The view of what has been read. -/
def viewOf (read : ReadReport) : Except Exc ReportResult := do
  let limit := read.view.limit
  let truncated := decide (limit < read.rows.length) || decide ((limit : ℤ) < read.rowCount)
  let rows := read.rows.take limit
  match read.view with
  | .totals =>
      demand (rows.length ≤ 1)
      return ⟨rows, false, read.metadata⟩
  | .landingPages => return ⟨rows, truncated, read.metadata⟩
  | .dates =>
      demand (¬truncated)
      return ⟨rows, false, read.metadata⟩
  | .keyEvents => return ⟨rows, truncated, read.metadata⟩

/-- The exceptions that `normalize_report` turns into a `SyncError`. -/
def reportErrors : List Exc :=
  [.valueError, .typeError, .keyError, .attributeError, .validationError, .overflowError]

/-- `normalize_report`. -/
def normalizeReport (payload : Value) (name : String) (start stop : Date) :
    Except Raised ReportResult :=
  guarded reportErrors do
    let read ← readReport lib payload name start stop
    viewOf read

end Rows

end SearchTrust.Google
