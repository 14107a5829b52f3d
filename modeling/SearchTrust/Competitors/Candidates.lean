/-
The audit record of a group of observations: its identity, and the reason why it is no
competitor or its score and the candidate.
-/
import Mathlib.Data.Finset.Sort
import Mathlib.Data.Prod.Lex
import Mathlib.Data.String.Basic
import SearchTrust.Competitors.Grouping
import SearchTrust.Competitors.Normalization
import SearchTrust.Numeric.Binary64
import SearchTrust.Order.Sorting

namespace SearchTrust.Competitors

open SearchTrust.Market (SerpMarketResultRecord SerpResultType)
open SearchTrust.Numeric (toBinary64)
open SearchTrust.Order
open SearchTrust.Web (text urlsplit parseQsl)

section Observations

variable (lib : CompetitorLibrary)

/-- `f"{kind}:{normalize_text(value)}"`, of a value that is not empty. -/
def strongId (kind : String) (value : Option String) : Option String :=
  (value.filter (· ≠ "")).map fun value => kind ++ ":" ++ normalizeText lib (some value)

/-- `_strong_ids`. -/
def strongIdsOf (record : SerpMarketResultRecord) : Finset String :=
  ([strongId lib "place" record.providerPlaceId, strongId lib "data" record.providerDataId,
    strongId lib "cid" record.providerCid].reduceOption).toFinset

/-- `record.normalized_domain or normalize_domain(...)`. -/
def observedDomain (record : SerpMarketResultRecord) : Except RankingError (Option String) :=
  match record.normalizedDomain.filter (· ≠ "") with
  | some domain => .ok (some domain)
  | none => normalizeDomain lib record.url

/-- The observation of a record. -/
def observe (record : SerpMarketResultRecord) : Except RankingError Observation := do
  let domain ← observedDomain lib record
  return {
    record := record
    domain := domain
    normalizedName := normalizeName lib (some record.displayName)
    normalizedAddress := normalizeAddress lib record.address
    strongIds := strongIdsOf lib record }

/-- `_observations`. -/
def observationsOf (snapshot : SerpMarketSnapshot) : Except RankingError (List Observation) :=
  snapshot.queryRuns.flatten.mapM (observe lib)

end Observations

section Identity

/-- `_BLOCKED_PLATFORM_DOMAINS`. -/
def blockedPlatformDomains : List String :=
  ["angi.com", "angieslist.com", "expertise.com", "facebook.com", "homeadvisor.com", "houzz.com",
    "instagram.com", "linkedin.com", "mapquest.com", "nextdoor.com", "threebestrated.com",
    "thumbtack.com", "yellowpages.com", "yelp.com", "youtube.com"]

/-- `_blocked_domain`, of a domain that is there. -/
def blockedDomain (domain : String) : Bool :=
  domain ≠ "" && blockedPlatformDomains.any fun blocked =>
    domain = blocked || ("." ++ blocked).toList.isSuffixOf domain.toList

/-- `_most_common`. -/
def mostCommon (values : List String) : String :=
  (sortedBy (fun value => (toLex (-(values.count value : ℤ), value) : ℤ ×ₗ String))
    (values.filter (· ≠ "")).dedup).head?.getD ""

/-- A result of the local pack or of the map. -/
def isLocal (record : SerpMarketResultRecord) : Bool :=
  record.resultType = .maps || record.resultType = .localPack

/-- `_display_name`. -/
def displayName (group : List Observation) : String :=
  let names := (group.filter fun item => isLocal item.record).map (·.record.displayName)
  mostCommon (if names = [] then group.map (·.record.displayName) else names)

/-- `_identity_key`. -/
def identityKey (group : List Observation) (domain : Option String) (name address : String) :
    String :=
  match (sortedSet (group.flatMap fun item => item.strongIds.sort (· ≤ ·))).head? with
  | some strong => strong
  | none =>
      match domain.filter (· ≠ "") with
      | some domain => "domain:" ++ domain
      | none => "name-address:" ++ name ++ "|" ++ address

variable (lib : CompetitorLibrary)

/-- `_competitor_id`. -/
def competitorId (key : String) : String := "cp_" ++ String.ofList ((lib.sha256 key).toList.take 32)

/-- The provider cids that are decimal numbers. -/
def isDecimalCid (cid : String) : Bool := cid ≠ "" && cid.toList.all lib.isDecimal

/-- `_public_gbp_url`. -/
def publicGbpUrl (group : List Observation) : Option String :=
  ((sortedSet ((group.filterMap (·.record.providerCid)).filter (isDecimalCid lib))).head?).map
    ("https://www.google.com/maps?cid=" ++ ·)

/-- `_client_cid`. -/
def clientCid (business : BusinessIdentity) : Except RankingError (Option String) :=
  match business.publicGbpUrl with
  | none => .ok none
  | some url =>
      match urlsplit lib.unicode lib.ip url.toList with
      | none => .error .valueError
      | some parsed =>
          let items := (parseQsl lib.decodeUtf8 parsed.query).filter (·.2 ≠ [])
          let value := (items.find? (·.1 = text "cid")).map fun item => String.ofList item.2
          .ok (value.filter (isDecimalCid lib))

/-- `part in text`. -/
def containsText (whole part : String) : Bool := whole.toList.tails.any (part.toList.isPrefixOf ·)

/-- `text.removeprefix("www.")`. -/
def removeWww (host : String) : String :=
  if "www.".toList.isPrefixOf host.toList then .ofList (host.toList.drop 4) else host

/-- `_is_client_business`, of a group with a domain. -/
def isClientBusiness (group : List Observation) (business : BusinessIdentity)
    (domain name address : String) : Except RankingError Bool := do
  if domain ≠ "" ∧ domain = removeWww (lib.casefold business.normalizedDomain) then return true
  let cid ← clientCid lib business
  if cid.any fun cid => group.any fun item => item.record.providerCid = some cid then return true
  if name ≠ normalizeName lib (some business.businessName) then return false
  let location := business.primaryLocation
  let tokens := ([location.city, location.region, location.postalCode].reduceOption.filter
    (· ≠ "")).map fun value => normalizeText lib (some value)
  return address = "" || tokens.any fun token => token ≠ "" && containsText address token

end Identity

section Evidence

variable (lib : CompetitorLibrary)

/-- `_market_tokens`. -/
def marketTokens (market : TargetMarket) : List String :=
  tokenizeRelevanceText lib (" ".intercalate
    (([some market.displayName, market.city, market.region, market.postalCode].reduceOption).filter
      (· ≠ "")))

/-- `_has_local_evidence`. -/
def hasLocalEvidence (group : List Observation) (market : TargetMarket) : Bool :=
  group.any (fun item => isLocal item.record) ||
    (marketTokens lib market).any fun token => group.any fun item =>
      token ∈ tokenizeRelevanceText lib
        (item.record.address.getD "" ++ " " ++ item.record.snippet.getD "" ++ " " ++
          item.record.displayName)

/-- What a group says about its business. -/
def haystackTokens (group : List Observation) : List String :=
  group.flatMap fun item => tokenizeRelevanceText lib (" ".intercalate
    [item.record.displayName, item.record.snippet.getD "",
      " ".intercalate item.record.categories, item.record.url.getD ""])

/-- `len(tokens & haystack) / max(len(tokens), 1)`. -/
def tokenShare (tokens haystack : List String) : ℚ :=
  toBinary64 ((tokens.filter (· ∈ haystack)).length / max tokens.length 1)

/-- `_business_relevance`. -/
def businessRelevance (group : List Observation) (primaryService : String)
    (queries : List String) : ℚ :=
  let haystack := haystackTokens lib group
  let serviceScore := tokenShare (tokenizeRelevanceText lib primaryService) haystack
  let queryScore := tokenShare (queries.flatMap (tokenizeRelevanceText lib)).dedup haystack
  min 1 (toBinary64 (toBinary64 (serviceScore * toBinary64 (75 / 100)) +
    toBinary64 (queryScore * toBinary64 (25 / 100))))

/-- The best position for each query and type of result. -/
def bestPositions (group : List Observation) : List ℤ :=
  let contexts := (group.map fun item => (lib.casefold item.record.query, item.record.resultType))
  contexts.eraseDups.map fun context =>
    ((group.filter fun item =>
      (lib.casefold item.record.query, item.record.resultType) = context).map
        (·.record.position)).min?.getD 0

/-- `_rank_score`. -/
def rankScore (group : List Observation) : ℚ := lib.mean ((bestPositions lib group).map lib.reciprocalLog)

/-- `_identity_confidence`. -/
def identityConfidence (group : List Observation) (domain : Option String) (address : String) : ℚ :=
  let known := domain.any (· ≠ "")
  if (group.any Observation.strong) = true ∧ known = true then 1
  else if known = true ∧ address ≠ "" then toBinary64 (8 / 10)
  else if known = true then toBinary64 (6 / 10)
  else 0

/-- The weighted score of a candidate. -/
def totalScore (coverage rank relevance confidence : ℚ) : ℚ :=
  toBinary64 (toBinary64 (toBinary64 (toBinary64 (coverage * toBinary64 (45 / 100)) +
    toBinary64 (rank * toBinary64 (30 / 100))) + toBinary64 (relevance * toBinary64 (20 / 100))) +
      toBinary64 (confidence * toBinary64 (5 / 100)))

end Evidence

section Records

variable (lib : CompetitorLibrary)

/-- The order of the result types. -/
def resultTypeOrder : SerpResultType → ℕ
  | .maps => 0
  | .localPack => 1
  | .organic => 2

/-- The different values that are not empty, sorted. -/
def signals (values : List (Option String)) : List String :=
  sortedSet (values.reduceOption.filter (· ≠ ""))

/-- `_identity_audit`. -/
def identityAudit (group : List Observation) (key : String) (domain : Option String)
    (name address : String) : Except RankingError CandidateIdentityAudit :=
  validated "CandidateIdentityAudit" CandidateIdentityAudit.valid {
    stableIdentityKey := key
    normalizedName := name
    normalizedDomain := domain
    normalizedAddress := if address = "" then none else some address
    providerPlaceIds := signals (group.map (·.record.providerPlaceId))
    providerDataIds := signals (group.map (·.record.providerDataId))
    providerCids := signals (group.map (·.record.providerCid))
    resultRecordIds := sortedSet (group.map (·.record.recordId))
    queries := sortedBy lib.casefold (sortedSet (group.map (·.record.query)))
    resultTypes := sortedBy resultTypeOrder (group.map (·.record.resultType)).dedup }

/-- A record of a group that is no candidate. -/
def rejected (identity : CandidateIdentityAudit) (ambiguous : Bool) (reason : String) :
    CandidateAuditRecord where
  identity := identity
  disposition := if ambiguous then .ambiguous else .excluded
  reasonCode := reason
  score := none
  candidate := none
  valid := by cases ambiguous <;> rfl

/-- `_excluded`. -/
def excluded (identity : CandidateIdentityAudit) (reason : String) : CandidateAuditRecord :=
  rejected identity false reason

/-- The record of a candidate. -/
def eligible (identity : CandidateIdentityAudit) (score : CandidateScore)
    (candidate : CompetitorCandidate) : CandidateAuditRecord where
  identity := identity
  disposition := .eligible
  reasonCode := "eligible"
  score := some score
  candidate := some candidate
  valid := ⟨rfl, rfl⟩

/-- The confidence of a candidate. -/
def candidateConfidence (confidence : ℚ) (queries : ℕ) : CandidateConfidence :=
  if toBinary64 (8 / 10) ≤ confidence ∧ 2 ≤ queries then .high
  else if toBinary64 (6 / 10) ≤ confidence then .medium
  else .low

/-- The candidate of a group. -/
def candidateOf (group : List Observation) (key domain : String) (queries queryCount : ℕ)
    (confidence : ℚ) : Except RankingError CompetitorCandidate := do
  let website ← canonicalCompetitorUrl lib (some ("https://" ++ domain))
  let websiteUrl ← httpUrl lib "CompetitorCandidate" website
  let gbpUrl ← optionalUrl lib "CompetitorCandidate" (publicGbpUrl lib group)
  validated "CompetitorCandidate" CompetitorCandidate.valid {
    competitorId := competitorId lib key
    businessName := displayName group
    websiteUrl := websiteUrl
    publicGbpUrl := gbpUrl
    queryAppearanceCount := queries
    bestPosition := (group.map (·.record.position)).min?.getD 0
    relevanceReason := "Appeared for " ++ toString queries ++ " of " ++ toString queryCount ++
      " confirmed queries; service, local market, and identity signals were verified."
    confidence := candidateConfidence confidence queries }

/-- The request of a ranking. -/
structure RankingRequest where
  business : BusinessIdentity
  primaryService : String
  targetMarket : TargetMarket

/-- `_eligible_record`. -/
def eligibleRecord (request : RankingRequest) (queryCount : ℕ) (grouped : ObservationGroup) :
    Except RankingError CandidateAuditRecord := do
  let group := grouped.observations
  let common := mostCommon (group.filterMap (·.domain))
  let name := normalizeName lib (some (displayName group))
  let address := mostCommon (group.map fun item => normalizeAddress lib item.record.address)
  let domain := if common = "" then none else some common
  let key := identityKey group domain name address
  let identity ← identityAudit lib group key domain name address
  if grouped.ambiguous then return rejected identity true "ambiguous_identity"
  if common = "" then return excluded identity "missing_website"
  if blockedDomain common then return excluded identity "blocked_platform"
  let client ← isClientBusiness lib group request.business common name address
  if client then return excluded identity "client_business"
  if ¬ hasLocalEvidence lib group request.targetMarket then
    return excluded identity "no_local_evidence"
  let relevance := businessRelevance lib group request.primaryService identity.queries
  if relevance < toBinary64 (15 / 100) then return excluded identity "business_irrelevant"
  let coverage := toBinary64 (identity.queries.length / queryCount)
  let rank := rankScore lib group
  let confidence := identityConfidence group domain address
  let score ← validated "CandidateScore" CandidateScore.valid
    ⟨coverage, rank, relevance, confidence, totalScore coverage rank relevance confidence⟩
  let candidate ← candidateOf lib group key common identity.queries.length queryCount confidence
  return eligible identity score candidate

end Records

end SearchTrust.Competitors
