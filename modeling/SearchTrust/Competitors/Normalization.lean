/-
The records of the competitor ranking, with the bounds that building them checks.
-/
import SearchTrust.Market.Models
import SearchTrust.Web.QueryText

namespace SearchTrust.Competitors

open SearchTrust.Market (SerpMarketResultRecord SerpResultType)

/-- The exceptions of the ranking: a `ValueError` of `urlsplit`, or a model whose
validation fails. -/
inductive RankingError where
  | valueError
  | validation (model : String)
deriving DecidableEq, Repr

section Inputs

/-- `TargetMarket`, as far as the ranking reads it. -/
structure TargetMarket where
  displayName : String
  region : Option String
  city : Option String
  postalCode : Option String

/-- `BusinessIdentity`, as far as the ranking reads it. -/
structure BusinessIdentity where
  businessName : String
  normalizedDomain : String
  primaryLocation : TargetMarket
  publicGbpUrl : Option String

/-- `SerpMarketSnapshot`: its queries, and the results of each query run. -/
structure SerpMarketSnapshot where
  queries : List String
  queryRuns : List (List SerpMarketResultRecord)

end Inputs

section Records

/-- `CandidateScore`. -/
structure CandidateScore where
  queryCoverage : ℚ
  rank : ℚ
  businessRelevance : ℚ
  identityConfidence : ℚ
  total : ℚ
deriving DecidableEq

/-- The bounds of a score; its total is computed by the checked formula. -/
def CandidateScore.valid (score : CandidateScore) : Bool :=
  [score.queryCoverage, score.rank, score.businessRelevance, score.identityConfidence,
    score.total].all fun value => 0 ≤ value && value ≤ 1

/-- `CandidateIdentityAudit`. -/
structure CandidateIdentityAudit where
  stableIdentityKey : String
  normalizedName : String
  normalizedDomain : Option String
  normalizedAddress : Option String
  providerPlaceIds : List String
  providerDataIds : List String
  providerCids : List String
  resultRecordIds : List String
  queries : List String
  resultTypes : List SerpResultType
deriving DecidableEq

/-- A list of different texts, with bounds on its length and on theirs. -/
def signalsFit (least most longest : ℕ) (values : List String) : Bool :=
  least ≤ values.length && values.length ≤ most &&
    values.all (fun value => 1 ≤ value.length && value.length ≤ longest) && decide values.Nodup

/-- The bounds of an identity audit, and `validate_unique_signals`. -/
def CandidateIdentityAudit.valid (audit : CandidateIdentityAudit) : Bool :=
  1 ≤ audit.stableIdentityKey.length && audit.stableIdentityKey.length ≤ 600 &&
    1 ≤ audit.normalizedName.length && audit.normalizedName.length ≤ 240 &&
    audit.normalizedDomain.all (·.length ≤ 253) && audit.normalizedAddress.all (·.length ≤ 500) &&
    signalsFit 0 20 500 audit.providerPlaceIds && signalsFit 0 20 500 audit.providerDataIds &&
    signalsFit 0 20 500 audit.providerCids && signalsFit 1 300 500 audit.resultRecordIds &&
    signalsFit 1 5 300 audit.queries &&
    1 ≤ audit.resultTypes.length && audit.resultTypes.length ≤ 3 && decide audit.resultTypes.Nodup

inductive CandidateConfidence where
  | low
  | medium
  | high
deriving DecidableEq

/-- `CompetitorCandidate`. -/
structure CompetitorCandidate where
  competitorId : String
  businessName : String
  websiteUrl : String
  publicGbpUrl : Option String
  queryAppearanceCount : ℕ
  bestPosition : ℤ
  relevanceReason : String
  confidence : CandidateConfidence
deriving DecidableEq

/-- The bounds of a candidate; its id and its reason fit by their form. -/
def CompetitorCandidate.valid (candidate : CompetitorCandidate) : Bool :=
  1 ≤ candidate.businessName.length && candidate.businessName.length ≤ 240 &&
    1 ≤ candidate.queryAppearanceCount && 1 ≤ candidate.bestPosition

inductive CandidateDisposition where
  | eligible
  | excluded
  | ambiguous
deriving DecidableEq

/-- `CandidateAuditRecord`, with the validation of its disposition. -/
structure CandidateAuditRecord where
  identity : CandidateIdentityAudit
  disposition : CandidateDisposition
  reasonCode : String
  score : Option CandidateScore
  candidate : Option CompetitorCandidate
  valid : if disposition = .eligible then score.isSome = true ∧ candidate.isSome = true
    else candidate = none
deriving DecidableEq

/-- `DataGap`. -/
structure DataGap where
  gapCode : String
  message : String
  blocking : Bool
  resolution : String
deriving DecidableEq

/-- `CandidateRankingResult`. -/
structure CandidateRankingResult where
  candidates : List CompetitorCandidate
  auditRecords : List CandidateAuditRecord
  readyForConfirmation : Bool
  dataGaps : List DataGap
  limitations : List String

/-- A model, where its validation passes. -/
def validated {α : Type} (model : String) (valid : α → Bool) (value : α) :
    Except RankingError α :=
  if valid value then .ok value else .error (.validation model)

end Records

end SearchTrust.Competitors

/-
The normal forms of competitor names, addresses and domains, and the tokens by which
relevance is measured.
-/
namespace SearchTrust.Competitors

open SearchTrust.Web (Text text strip rstripDots urlsplit parseQsl)

/-- The libraries of the ranking. -/
structure CompetitorLibrary where
  unicode : Web.UnicodeTables
  ip : Web.IpLibrary
  /-- `unicodedata.normalize("NFKC", value)`. -/
  nfkc : Text → Text
  /-- The characters of `\w`. -/
  isWord : Char → Bool
  /-- `str.isdecimal`, of a character. -/
  isDecimal : Char → Bool
  /-- `bytes.decode("utf-8", "replace")`. -/
  decodeUtf8 : List UInt8 → Text
  /-- The text of an `HttpUrl`; `none` is a failed validation. -/
  httpUrl : Text → Option Text
  /-- `hashlib.sha256(value.encode()).hexdigest()`. -/
  sha256 : String → String
  /-- `1.0 / math.log2(position + 1)`. -/
  reciprocalLog : ℤ → ℚ
  /-- `sum(values) / len(values)`, of floats. -/
  mean : List ℚ → ℚ

/-- `_BUSINESS_SUFFIXES`. -/
def businessSuffixes : List String :=
  ["co", "company", "corp", "corporation", "inc", "incorporated", "limited", "llc", "llp", "ltd",
    "pllc"]

/-- `_RELEVANCE_STOPWORDS`. -/
def relevanceStopwords : List String :=
  ["a", "an", "and", "at", "best", "for", "in", "local", "me", "near", "of", "the", "to", "top"]

/-- `_TOKEN_ALIASES.get(token, token)`. -/
def tokenAlias (token : String) : String :=
  if token ∈ ["plumber", "plumbers", "plumbing"] then "plumb" else token

variable (lib : CompetitorLibrary)

/-- `value.casefold()`. -/
def CompetitorLibrary.casefold (value : String) : String :=
  .ofList (lib.unicode.casefold value.toList)

/-- The words of a text: `_NON_WORD.sub(" ", ...).split()`, of its folded normal form. -/
def words (value : String) : List String :=
  (((lib.unicode.casefold (lib.nfkc value.toList)).splitOnP (! lib.isWord ·)).filter
    (· ≠ [])).map .ofList

/-- `normalize_text`. -/
def normalizeText (value : Option String) : String :=
  " ".intercalate (words lib (value.getD ""))

/-- The loop that drops the suffixes at the end of a name. -/
def dropSuffixes (tokens : List String) : List String := tokens.rdropWhile (· ∈ businessSuffixes)

/-- `normalize_name`. -/
def normalizeName (value : Option String) : String :=
  " ".intercalate (dropSuffixes (words lib (value.getD "")))

/-- `normalize_address`. -/
def normalizeAddress (value : Option String) : String := normalizeText lib value

/-- `normalize_domain`. -/
def normalizeDomain (value : Option String) : Except RankingError (Option String) :=
  match value.filter (· ≠ "") with
  | none => .ok none
  | some value =>
      match urlsplit lib.unicode lib.ip (strip value.toList) with
      | none => .error .valueError
      | some parsed =>
          if lib.unicode.casefold parsed.scheme ∉ [text "http", text "https"] ∨
              parsed.hostname lib.unicode = [] then .ok none
          else
            let host := rstripDots (lib.unicode.casefold (parsed.hostname lib.unicode))
            let host := if (text "www.").isPrefixOf host then host.drop 4 else host
            .ok ((lib.unicode.idna host).map .ofList)

/-- `canonical_competitor_url`. -/
def canonicalCompetitorUrl (value : Option String) : Except RankingError (Option String) :=
  (normalizeDomain lib value).map fun domain => domain.map fun domain => "https://" ++ domain ++ "/"

/-- `tokenize_relevance_text`. -/
def tokenizeRelevanceText (value : String) : List String :=
  (((words lib value).filter (· ∉ relevanceStopwords)).map tokenAlias).dedup

/-- `HttpUrl`, of an optional value. -/
def httpUrl (model : String) (value : Option String) : Except RankingError String :=
  match value.bind fun value => lib.httpUrl value.toList with
  | some url => .ok (.ofList url)
  | none => .error (.validation model)

/-- `HttpUrl | None`. -/
def optionalUrl (model : String) : Option String → Except RankingError (Option String)
  | none => .ok none
  | some url => (httpUrl lib model (some url)).map some

/-- The host name of a URL, folded and without `www.`, by which the result compares
websites; `none` is a `ValueError`. -/
def websiteHost (url : String) : Option Text :=
  (urlsplit lib.unicode lib.ip url.toList).map fun parsed =>
    let host := lib.unicode.casefold (parsed.hostname lib.unicode)
    if (text "www.").isPrefixOf host then host.drop 4 else host

end SearchTrust.Competitors
