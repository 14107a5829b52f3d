/-
Reading the answers of the Business Profile APIs: the checks of a location, the daily
metrics of a window and a page of search keywords.
-/
import SearchTrust.Google.Answers

namespace SearchTrust.Google

open SearchTrust.Market (Text text Value Fields encodable)
open SearchTrust.Report (Date)
open SearchTrust.Report.Outcomes

section Models

structure ProfileChecks where
  voiceOfMerchant : Bool
  isOpen : Bool
  title : Bool
  website : Bool
  phone : Bool
  primaryCategory : Bool
  regularHours : Bool
  addressOrServiceArea : Bool
deriving DecidableEq

/-- `KeywordRow`: exactly one of the value and the threshold. -/
inductive Insight where
  | value (n : ℕ)
  | threshold (n : ℕ)
deriving DecidableEq

structure KeywordRow where
  keyword : Text
  insight : Insight
deriving DecidableEq

/-- The metrics of a window: each with its days. -/
abbrev Performance := List (Text × List (Date × ℕ))

end Models

section Reading

variable (lib : AnswerLibrary)

/-- The exceptions that the three functions turn into a `SyncError`. -/
def profileErrors : List Exc :=
  [.valueError, .typeError, .keyError, .validationError, .overflowError]

/-- `_rows`. -/
def rowsOf (value : Value) (maximum : ℕ) : Except Exc (List Fields) :=
  match value with
  | .null => .ok []
  | .list items => do
      demand (items.length ≤ maximum)
      items.mapM dictOf
  | _ => .error .valueError

/-- `_text`. -/
def textOf (value : Value) (maximum : ℕ) : Except Exc (Option Text) :=
  match value with
  | .null => .ok none
  | .str t =>
      if t ≠ [] ∧ t.length ≤ maximum ∧ ∀ c ∈ t, 32 ≤ c then .ok (some t) else .error .valueError
  | _ => .error .valueError

/-- `_boolean`. -/
def booleanOf (value : Value) : Except Exc (Option Bool) :=
  match value with
  | .null => .ok none
  | .bool b => .ok (some b)
  | _ => .error .valueError

/-- `_safe_int`. -/
def profileInt (value : Value) : Except Exc ℕ :=
  match value with
  | .str digits =>
      if isDigits digits ∧ digits.length ≤ 32 ∧ decimalValue digits ≤ maxSafeInteger then
        .ok (decimalValue digits)
      else .error .valueError
  | _ => .error .valueError

/-- `date(year, month, day)`: an integer that no C `int` holds overflows. -/
def dateOf (year month day : ℤ) : Except Exc Date :=
  if ∃ n ∈ [year, month, day], n < -2 ^ 31 ∨ 2 ^ 31 ≤ n then .error .overflowError
  else if 1 ≤ year ∧ 1 ≤ month ∧ 1 ≤ day then
    match lib.calendar year.toNat month.toNat day.toNat with
    | some date => .ok date
    | none => .error .valueError
  else .error .valueError

/-- A value that has to be an integer. -/
def integerOf (value : Value) : Except Exc ℤ :=
  match value with
  | .int n => .ok n
  | _ => .error .valueError

/-- `_date`. -/
def windowDate (value : Value) (start stop : Date) : Except Exc Date := do
  let fields ← dictOf value
  demand (KeysAre fields ["year", "month", "day"])
  let year ← item fields "year"
  let year ← integerOf year
  let month ← item fields "month"
  let month ← integerOf month
  let day ← item fields "day"
  let day ← integerOf day
  let date ← dateOf lib year month day
  demand (start ≤ date ∧ date ≤ stop)
  return date

/-- `_valid_url`. -/
def checkUrl (value : Text) : Except Exc Unit :=
  match lib.urlsplit value with
  | none => .error .valueError
  | some parts =>
      demand ((parts.scheme = text "http" ∨ parts.scheme = text "https") ∧ parts.netloc ≠ [] ∧
        (∀ name ∈ parts.username, name = []) ∧ (∀ word ∈ parts.password, word = []) ∧
        value.length ≤ 2083)

/-- A website that is there has to be a URL. -/
def checkWebsite (website : Option Text) : Except Exc Unit :=
  match website with
  | some url => checkUrl lib url
  | none => .ok ()

def readMask : List String :=
  ["name", "title", "phoneNumbers", "categories", "storefrontAddress", "websiteUri",
    "regularHours", "specialHours", "serviceArea", "openInfo", "metadata", "profile", "moreHours",
    "serviceItems"]

def openStatuses : List Text :=
  ["OPEN_FOR_BUSINESS_UNSPECIFIED", "OPEN", "CLOSED_PERMANENTLY", "CLOSED_TEMPORARILY"].map text

/-- A field of a location that is a dict, and empty where it is missing. -/
def dictField (fields : Fields) (key : String) : Except Exc Fields :=
  dictOf (getOr fields key (.dict []))

/-- `normalize_location`, before its errors are turned into a `SyncError`. -/
def readLocation (payload : Value) (resourceId : Text) : Except Exc ProfileChecks := do
  let fields ← dictOf payload
  demand (KeysWithin fields readMask ∧ getOr fields "name" .null = .str resourceId)
  let title ← textOf (getOr fields "title" .null) 240
  let website ← textOf (getOr fields "websiteUri" .null) 2083
  checkWebsite lib website
  let phones ← dictField fields "phoneNumbers"
  let phone ← textOf (getOr phones "primaryPhone" .null) 120
  let categories ← dictField fields "categories"
  let category ← dictField categories "primaryCategory"
  let categoryName ← textOf (getOr category "name" .null) 240
  let hours ← dictField fields "regularHours"
  let periods ← rowsOf (getOr hours "periods" (.list [])) 100
  let address ← dictField fields "storefrontAddress"
  let area ← dictField fields "serviceArea"
  let openInfo ← dictField fields "openInfo"
  let status ← textOf (getOr openInfo "status" .null) 64
  demand (∀ t ∈ status, t ∈ openStatuses)
  let metadata ← dictField fields "metadata"
  let voice ← booleanOf (getOr metadata "hasVoiceOfMerchant" .null)
  let _ ← dictField fields "specialHours"
  let _ ← dictField fields "profile"
  let _ ← rowsOf (getOr fields "moreHours" (.list [])) 100
  let _ ← rowsOf (getOr fields "serviceItems" (.list [])) 1000
  let addressPresent := address.any fun entry =>
    entry.2 ∉ [Value.null, Value.str [], Value.list []]
  let areaPresent := area.any fun entry =>
    entry.2 ∉ [Value.null, Value.str [], Value.list [], Value.dict []]
  return ⟨voice = some true, status = some (text "OPEN"), title.isSome, website.isSome,
    phone.isSome, categoryName.isSome, !periods.isEmpty, addressPresent || areaPresent⟩

/-- `normalize_location`. -/
def normalizeLocation (payload : Value) (resourceId : Text) : Except Raised ProfileChecks :=
  guarded profileErrors (readLocation lib payload resourceId)

def dailyMetrics : List Text :=
  ["BUSINESS_IMPRESSIONS_DESKTOP_SEARCH", "BUSINESS_IMPRESSIONS_MOBILE_SEARCH",
    "BUSINESS_IMPRESSIONS_DESKTOP_MAPS", "BUSINESS_IMPRESSIONS_MOBILE_MAPS", "CALL_CLICKS",
    "BUSINESS_DIRECTION_REQUESTS", "WEBSITE_CLICKS"].map text

/-- The first four of the daily metrics. -/
def impressionMetrics : List Text := dailyMetrics.take 4

/-- The count of a point; a missing one is zero. -/
def pointCount (value : Option Value) : Except Exc ℕ :=
  match value with
  | none => .ok 0
  | some value => profileInt value

/-- One day of a metric. -/
def addPoint (start stop : Date) (values : List (Date × ℕ)) (point : Fields) :
    Except Exc (List (Date × ℕ)) := do
  demand (KeysWithin point ["date", "value"])
  let day ← windowDate lib (getOr point "date" .null) start stop
  demand (day ∉ values.map Prod.fst)
  let count ← pointCount (point.get "value")
  return values ++ [(day, count)]

/-- One metric of the window. -/
def addSeries (start stop : Date) (result : Performance) (series : Fields) :
    Except Exc Performance := do
  demand (KeysWithin series ["dailyMetric", "dailySubEntityType", "timeSeries"])
  let metric ← textOf (getOr series "dailyMetric" .null) 128
  match metric with
  | none => .error .valueError
  | some metric => do
      demand (metric ∈ dailyMetrics ∧ metric ∉ result.map Prod.fst ∧
        getOr series "dailySubEntityType" .null ∈ [Value.null, Value.dict []])
      let timeSeries ← dictField series "timeSeries"
      demand (KeysWithin timeSeries ["datedValues"])
      let points ← rowsOf (getOr timeSeries "datedValues" (.list [])) 180
      let values ← points.foldlM (addPoint lib start stop) []
      return result ++ [(metric, values)]

/-- One group of metrics. -/
def addGroup (start stop : Date) (result : Performance) (group : Fields) :
    Except Exc Performance := do
  demand (KeysWithin group ["dailyMetricTimeSeries"])
  let series ← rowsOf (getOr group "dailyMetricTimeSeries" (.list [])) dailyMetrics.length
  series.foldlM (addSeries lib start stop) result

/-- `normalize_performance`, before its errors are turned into a `SyncError`. -/
def readPerformance (payload : Value) (start stop : Date) : Except Exc Performance := do
  let fields ← dictOf payload
  demand (KeysWithin fields ["multiDailyMetricTimeSeries"])
  let groups ← rowsOf (getOr fields "multiDailyMetricTimeSeries" (.list [])) dailyMetrics.length
  groups.foldlM (addGroup lib start stop) []

/-- `normalize_performance`. -/
def normalizePerformance (payload : Value) (start stop : Date) : Except Raised Performance :=
  guarded profileErrors (readPerformance lib payload start stop)

/-- `KeywordRow(keyword=keyword, ...)`. -/
def keywordRow (keyword : Text) (insight : Insight) : Except Exc KeywordRow :=
  if 1 ≤ keyword.length ∧ keyword.length ≤ 500 ∧ encodable keyword = true then
    .ok ⟨keyword, insight⟩
  else .error .validationError

/-- What is counted of a keyword. -/
def insightOf (fields : Fields) : Except Exc Insight :=
  if KeysAre fields ["value"] then do
    let value ← item fields "value"
    let n ← profileInt value
    return .value n
  else if KeysAre fields ["threshold"] then do
    let value ← item fields "threshold"
    let n ← profileInt value
    return .threshold n
  else .error .valueError

/-- A keyword with `keyword.casefold()`; one that is null has no such method. -/
def foldedKeyword (keyword : Option Text) : Except Exc (Text × Text) :=
  match keyword with
  | some t => .ok (t, lib.casefold t)
  | none => .error .attributeError

/-- One keyword; the state has the folded keywords that have been seen, and the rows. -/
def addKeyword (state : List Text × List KeywordRow) (raw : Fields) :
    Except Exc (List Text × List KeywordRow) := do
  demand (KeysAre raw ["searchKeyword", "insightsValue"])
  let value ← item raw "searchKeyword"
  let keyword ← textOf value 500
  let folded ← foldedKeyword lib keyword
  demand (folded.2 ∉ state.1)
  let value ← item raw "insightsValue"
  let fields ← dictOf value
  let insight ← insightOf fields
  let row ← keywordRow folded.1 insight
  return (state.1 ++ [folded.2], state.2 ++ [row])

/-- The page of keywords: the folded keywords that have been seen, the rows, and the token
of the next page. -/
structure KeywordPage where
  seen : List Text
  rows : List KeywordRow
  token : Text

/-- The keywords of an answer. -/
def keywordValues (payload : Value) : Except Exc (Fields × List Fields) := do
  let fields ← dictOf payload
  demand (KeysWithin fields ["searchKeywordsCounts", "nextPageToken"])
  let values ← rowsOf (getOr fields "searchKeywordsCounts" (.list [])) 100
  return (fields, values)

/-- `normalize_keyword_page`, before its errors are turned into a `SyncError`. -/
def readKeywordPage (payload : Value) (seen : List Text) : Except Exc KeywordPage := do
  let read ← keywordValues payload
  let state ← read.2.foldlM (addKeyword lib) (seen, [])
  let token ← textOf (getOr read.1 "nextPageToken" .null) 4096
  return ⟨state.1, state.2, token.getD []⟩

/-- `normalize_keyword_page`. -/
def normalizeKeywordPage (payload : Value) (seen : List Text) : Except Raised KeywordPage :=
  guarded profileErrors (readKeywordPage lib payload seen)

end Reading

end SearchTrust.Google
