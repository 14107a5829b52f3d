/-
One collection from the Business Profile APIs, what is kept of it for good, and the health
that is read off it.
-/
import SearchTrust.Google.Analytics
import SearchTrust.Google.BusinessProfile

namespace SearchTrust.Google

open SearchTrust.Market (Text text Value Fields encodable)
open SearchTrust.Report (Date isoformat yearMonthDay)

section Models

structure PerformancePeriod where
  startDate : Date
  endDate : Date
  impressions : ℕ

/-- `^[0-9]{4}-(0[1-9]|1[0-2])$`. -/
def isMonth : Text → Bool
  | [a, b, c, d, dash, tens, ones] =>
      [a, b, c, d].all (fun x => 48 ≤ x && x ≤ 57) && dash = 45 &&
        ((tens = 48 && 49 ≤ ones && ones ≤ 57) || (tens = 49 && 48 ≤ ones && ones ≤ 50))
  | _ => false

structure KeywordSummary where
  startMonth : Text
  endMonth : Text
  pages : ℕ
  available : Bool
  thresholdApplied : Bool
  truncated : Bool
  months : isMonth startMonth = true ∧ isMonth endMonth = true
  pages_bounds : 1 ≤ pages ∧ pages ≤ 10

structure GbpSnapshot where
  resourceId : Text
  profileChecks : ProfileChecks
  current : PerformancePeriod
  previous : PerformancePeriod
  keywords : KeywordSummary
  keywordRows : List KeywordRow
  limitations : List Text

/-- The raw payload of a collection. -/
structure RawPayload where
  businessInformation : Value
  performance : Value
  keywordPages : List Value

structure GbpCollection where
  snapshot : GbpSnapshot
  rawPayload : RawPayload

end Models

section Periods

/-- `end - timedelta(days=days)`. -/
def daysBefore (date : Date) (days : ℕ) : Except Exc Date :=
  if days < date then .ok (date - days) else .error .overflowError

/-- `date.replace(day=1)`. -/
def firstOfMonth (date : Date) : Date := date - ((yearMonthDay date).2.2 - 1)

/-- The impressions of a window. -/
def impressionsIn (performance : Performance) (first last : Date) : ℕ :=
  (impressionMetrics.map fun metric =>
    let values := ((performance.find? fun entry => entry.1 = metric).map Prod.snd).getD []
    ((values.filter fun entry => first ≤ entry.1 ∧ entry.1 ≤ last).map Prod.snd).sum).sum

/-- `PerformancePeriod(...)`. -/
def makePeriod (start stop : Date) (impressions : ℕ) : Except Exc PerformancePeriod :=
  if impressions ≤ maxSafeInteger then .ok ⟨start, stop, impressions⟩ else .error .validationError

/-- `KeywordSummary(...)`. -/
def makeSummary (startMonth endMonth : Text) (pages : ℕ)
    (available thresholdApplied truncated : Bool) : Except Exc KeywordSummary :=
  if hmonths : isMonth startMonth = true ∧ isMonth endMonth = true then
    if hpages : 1 ≤ pages ∧ pages ≤ 10 then
      .ok ⟨startMonth, endMonth, pages, available, thresholdApplied, truncated, hmonths, hpages⟩
    else .error .validationError
  else .error .validationError

/-- `^locations/[0-9]+$`. -/
def isLocation (resourceId : Text) : Prop :=
  text "locations/" <+: resourceId ∧ isDigits (resourceId.drop (text "locations/").length)

instance decidableIsLocation (resourceId : Text) : Decidable (isLocation resourceId) :=
  inferInstanceAs (Decidable (_ ∧ _))

/-- `GbpSnapshot(...)`. -/
def makeSnapshot (resourceId : Text) (checks : ProfileChecks)
    (current previous : PerformancePeriod) (keywords : KeywordSummary) (rows : List KeywordRow)
    (limitations : List Text) : Except Exc GbpSnapshot :=
  if isLocation resourceId ∧ rows.length ≤ 1000 ∧ ∀ t ∈ limitations, encodable t = true then
    .ok ⟨resourceId, checks, current, previous, keywords, rows, limitations⟩
  else .error .validationError

/-- Whether a row states only a threshold. -/
def KeywordRow.hasThreshold (row : KeywordRow) : Bool :=
  match row.insight with
  | .threshold _ => true
  | .value _ => false

end Periods

section Collecting

/-- What the provider answers to each request: a status and a payload, or an error of the
connection. -/
structure Responses where
  location : Except Raised (ℤ × Value)
  performance : Except Raised (ℤ × Value)
  keywords : ℕ → Text → Except Raised (ℤ × Value)

/-- The reasons for which an answer is refused for a while. -/
def quotaReasons : List Value :=
  ["rateLimitExceeded", "userRateLimitExceeded", "quotaExceeded", "RESOURCE_EXHAUSTED"].map
    fun reason => .str (text reason)

/-- Whether the errors of an answer have a reason of a quota. -/
def overQuota (payload : Value) : Bool :=
  match getIfDict "error" payload with
  | .dict error =>
      match getOr error "errors" (.list []) with
      | .list errors => errors.any fun value => match value with
          | .dict fields => getOr fields "reason" .null ∈ quotaReasons
          | _ => false
      | _ => false
  | _ => false

/-- `_classify`. -/
def classify (status : ℤ) (payload : Value) : Except Raised Unit :=
  if status = 200 then .ok ()
  else if status = 429 ∨ 500 ≤ status then .error (.syncError "SYNC_GOOGLE_UNAVAILABLE" true)
  else if status = 401 then .error (.syncError "SYNC_GOOGLE_TOKEN_EXPIRED" true)
  else if status = 403 ∨ status = 404 then
    if overQuota payload then .error (.syncError "SYNC_GOOGLE_UNAVAILABLE" true)
    else .error (.syncError "SYNC_GOOGLE_ACCESS_DENIED" false)
  else .error (.syncError "SYNC_GOOGLE_REJECTED" false)

/-- `_get`. -/
def received (response : Except Raised (ℤ × Value)) : Except Raised Value := do
  let answer ← response
  classify answer.1 answer.2
  return answer.2

/-- An exception that nothing catches. -/
def uncaught {α : Type} : Except Exc α → Except Raised α
  | .ok value => .ok value
  | .error exc => .error (.uncaught exc)

/-- What the loop over the pages of keywords holds. -/
structure KeywordState where
  rows : List KeywordRow := []
  pages : List Value := []
  seenKeywords : List Text := []
  seenTokens : List Text := []
  pageToken : Text := []

/-- The state with a page that was read. -/
def KeywordState.read (state : KeywordState) (payload : Value) (page : KeywordPage) :
    KeywordState where
  rows := state.rows ++ page.rows
  pages := state.pages ++ [payload]
  seenKeywords := page.seen
  seenTokens := if page.token = [] then state.seenTokens else page.token :: state.seenTokens
  pageToken := page.token

variable (lib : AnswerLibrary)

/-- The loop over the pages, with the number of pages that are left after this one; the
flag says that a page was left out. -/
def collectPages (responses : Responses) :
    ℕ → KeywordState → Except Raised (KeywordState × Bool)
  | left, state => do
      let payload ← received (responses.keywords (10 - left) state.pageToken)
      let page ← normalizeKeywordPage lib payload state.seenKeywords
      if page.token = [] then return (state.read payload page, false)
      else if page.token ∈ state.seenTokens then .error invalidResponse
      else
        match left with
        | 0 => return (state.read payload page, true)
        | left + 1 => collectPages responses left (state.read payload page)

/-- The impressions of a window, where a number can hold them. -/
def checkedImpressions (performance : Performance) (first last : Date) : Except Raised ℕ :=
  let total := impressionsIn performance first last
  if maxSafeInteger < total then .error invalidResponse else .ok total

def baseLimitations : List Text :=
  ["GBP_READ_ONLY", "GBP_CONTENT_TTL_30D", "GBP_KEYWORDS_MONTHLY"].map text

/-- The limitations of a collection. -/
def limitationsOf (rows : List KeywordRow) (truncated : Bool) : List Text :=
  baseLimitations ++
    (if rows = [] then [text "GBP_KEYWORDS_UNAVAILABLE"] else []) ++
    (if rows.any KeywordRow.hasThreshold then [text "GBP_KEYWORDS_THRESHOLD_APPLIED"] else []) ++
    (if truncated then [text "GBP_KEYWORDS_TRUNCATED"] else [])

/-- `collect`. -/
def collect (responses : Responses) (resourceId token : Text) (stop : Date) :
    Except Raised GbpCollection := do
  if ¬isLocation resourceId ∨ token = [] then .error (.syncError "SYNC_INVALID_RESOURCE" false)
  else do
    let start ← uncaught (daysBefore stop 179)
    let locationPayload ← received responses.location
    let checks ← normalizeLocation lib locationPayload resourceId
    let performancePayload ← received responses.performance
    let performance ← normalizePerformance lib performancePayload start stop
    let keywordStart := firstOfMonth start
    let collected ← collectPages lib responses 9 {}
    let rows := collected.1.rows
    let currentStart ← uncaught (daysBefore stop 89)
    let previousEnd ← uncaught (daysBefore stop 90)
    let currentImpressions ← checkedImpressions performance currentStart stop
    let current ← uncaught (makePeriod currentStart stop currentImpressions)
    let previousImpressions ← checkedImpressions performance start previousEnd
    let previous ← uncaught (makePeriod start previousEnd previousImpressions)
    let keywords ← uncaught (makeSummary (lib.strftime keywordStart "%Y-%m")
      (lib.strftime stop "%Y-%m") collected.1.pages.length (!rows.isEmpty)
      (rows.any KeywordRow.hasThreshold) collected.2)
    let snapshot ← uncaught (makeSnapshot resourceId checks current previous keywords rows
      (limitationsOf rows collected.2))
    return ⟨snapshot, ⟨locationPayload, performancePayload, collected.1.pages⟩⟩

end Collecting

section Manifest

/-- `KeywordSummary.model_dump(mode="json")`. -/
def KeywordSummary.dump (s : KeywordSummary) : Value :=
  .dict [("start_month", .str s.startMonth), ("end_month", .str s.endMonth),
    ("pages", .int s.pages), ("available", .bool s.available),
    ("threshold_applied", .bool s.thresholdApplied), ("truncated", .bool s.truncated)]

/-- `ProfileChecks.model_dump(mode="json")`. -/
def ProfileChecks.dump (c : ProfileChecks) : Value :=
  .dict [("voice_of_merchant", .bool c.voiceOfMerchant), ("open", .bool c.isOpen),
    ("title", .bool c.title), ("website", .bool c.website), ("phone", .bool c.phone),
    ("primary_category", .bool c.primaryCategory), ("regular_hours", .bool c.regularHours),
    ("address_or_service_area", .bool c.addressOrServiceArea)]

/-- A period without its number of impressions. -/
def PerformancePeriod.facts (p : PerformancePeriod) : Value :=
  .dict [("start_date", .str (text (isoformat p.startDate))),
    ("end_date", .str (text (isoformat p.endDate))),
    ("has_impressions", .bool (0 < p.impressions))]

/-- `manifest`. -/
def GbpSnapshot.manifest (s : GbpSnapshot) : Fields :=
  [("schema_version", .str (text "gbp_sync_v1")), ("resource_id", .str s.resourceId),
    ("current", s.current.facts), ("previous", s.previous.facts), ("keywords", s.keywords.dump),
    ("profile_checks", s.profileChecks.dump), ("limitations", .list (s.limitations.map .str))]

/-- The raw payload as it is stored. -/
def RawPayload.dump (raw : RawPayload) : Fields :=
  [("business_information", raw.businessInformation), ("performance", raw.performance),
    ("keyword_pages", .list raw.keywordPages)]

end Manifest

section Health

/-- `evaluate_health`: whether the profile is healthy, and the reasons. -/
def evaluateHealth (s : GbpSnapshot) : Text × List Text :=
  let c := s.profileChecks
  let problems := [(c.voiceOfMerchant, "GBP_LOCATION_UNVERIFIED"),
    (c.isOpen, "GBP_LOCATION_NOT_OPEN"), (c.title, "GBP_TITLE_MISSING"),
    (c.website, "GBP_WEBSITE_MISSING"), (c.phone, "GBP_PHONE_MISSING"),
    (c.primaryCategory, "GBP_PRIMARY_CATEGORY_MISSING"),
    (c.regularHours, "GBP_REGULAR_HOURS_MISSING"),
    (c.addressOrServiceArea, "GBP_ADDRESS_AND_SERVICE_AREA_MISSING"),
    (decide (0 < s.current.impressions), "GBP_NO_CURRENT_IMPRESSIONS")].filterMap fun check =>
      if check.1 then none else some (text check.2)
  let warnings := s.limitations ++
    (if s.previous.impressions = 0 then [text "GBP_COMPARISON_UNAVAILABLE"] else []) ++
    (if s.keywords.available then [] else [text "GBP_KEYWORDS_UNAVAILABLE"])
  (if problems = [] then text "healthy" else text "unhealthy", (problems ++ warnings).eraseDups)

end Health

end SearchTrust.Google
