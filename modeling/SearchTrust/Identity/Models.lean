/-
Discovery of a business's own Google profile: saved observations, the decision about
each of them, and the ledger of the requests that a lookup has made.
-/
import SearchTrust.Alignment.Models
import SearchTrust.Jobs.Models
import SearchTrust.Market.Values

namespace SearchTrust.Identity

open SearchTrust.Alignment (truthy orEmpty TargetMarket)
open SearchTrust.Jobs (Instant)

instance lawfulBEqTriple : LawfulBEq (String × String × String) := Prod.instLawfulBEq

/-- The parts of a URL that `canonical_host` reads from `urlsplit`. -/
structure UrlParts where
  scheme : String
  hasUsername : Bool
  hasPassword : Bool
  hostname : Option String

/-- What is read from a Google Maps link once `validate_gbp_url` has accepted it: the
first `cid` of its query, `data_cid(extract_data_id(link))` and
`extract_google_place_id(link)`. -/
structure SafeLink where
  cidParameter : Option Market.Text
  dataCid : Option Market.Text
  placeId : Option Market.Text

/-- The functions of the standard library and of the URL modules that a lookup calls,
beside those of the comparators. -/
structure LookupLibrary extends Alignment.ComparisonLibrary where
  /-- `urlsplit`; `none` is a `ValueError`. -/
  urlsplit : String → Option UrlParts
  /-- `host.encode("idna").decode("ascii").lower()`; `none` is a `UnicodeError`. -/
  idna : String → Option String
  lower : String → String
  lowerText : Market.Text → Market.Text
  /-- `value.isdigit()`. -/
  isDigits : Market.Text → Bool
  /-- `none` where `_link_key` catches an exception. -/
  readLink : Market.Text → Option SafeLink
  /-- `data_cid`. -/
  dataCid : Market.Text → Option Market.Text

/-- `purpose` of an observation. -/
inductive Purpose where
  | business
  | competitor
  | privacy
  | review
deriving DecidableEq, Repr

/-- `IdentityObservation`. -/
structure IdentityObservation where
  value : String
  pageUrl : String
  sourceRef : String
  belongsToBusiness : Bool := false
  purpose : Purpose := .business

/-- `VerifiedAlias`. -/
structure VerifiedAlias where
  url : String
  sourceRef : String

/-- `kind` of a saved record. -/
inductive RecordKind where
  | market
  | detail
  | lookup
deriving DecidableEq, Repr

/-- `SavedGbpRecord`. -/
structure SavedGbpRecord where
  sourceRef : String
  recordId : String
  payloadChecksum : String
  observedAt : Instant
  expiresAt : Option Instant := none
  available : Bool := true
  kind : RecordKind
  businessName : Option String := none
  websiteUrl : Option String := none
  phone : Option String := none
  address : Option String := none
  categories : List String := []
  cid : Option String := none
  placeId : Option String := none
deriving DecidableEq

/-- `timedelta(days=30)`. -/
def thirtyDays : Int := 30 * 24 * 60 * 60 * 1000000

def isHexDigit (c : Char) : Bool := ('a' ≤ c && c ≤ 'f') || ('0' ≤ c && c ≤ '9')

/-- The pattern of a checksum. -/
def isChecksum (value : String) : Bool :=
  "sha256:".isPrefixOf value && value.length = 71 && (value.toList.drop 7).all isHexDigit

/-- The fields and the validator `lifetime` of a saved record. -/
def SavedGbpRecord.accepted (record : SavedGbpRecord) : Bool :=
  record.sourceRef ≠ "" && record.recordId ≠ "" && isChecksum record.payloadChecksum &&
    record.cid.all (fun cid => cid ≠ "" && cid.toList.all Char.isDigit) &&
    record.placeId.all (fun place => place ≠ "" && decide (place.length ≤ 300)) &&
    record.expiresAt.all fun expires =>
      decide (record.observedAt < expires) && decide (expires ≤ record.observedAt + thirtyDays)

/-- `(record.source_ref, record.record_id, record.payload_checksum)`. -/
def SavedGbpRecord.key (record : SavedGbpRecord) : String × String × String :=
  (record.sourceRef, record.recordId, record.payloadChecksum)

/-- `GbpIdentityRequest`. -/
structure GbpIdentityRequest where
  caseRef : String
  siteUrl : String
  countryCode : Option String := none
  targetMarket : TargetMarket
  evaluatedAt : Instant
  savedRecords : List SavedGbpRecord := []
  phones : List IdentityObservation := []
  names : List IdentityObservation := []
  aliases : List VerifiedAlias := []
  gbpUrl : Option String := none
  savedLinkDestinations : List (String × String) := []
  selectedBranchRef : Option String := none
  selectionSourceRef : Option String := none
  seoBusinessName : Option String := none
  seoNameSourceRef : Option String := none
  marketCollected : Bool := false

/-- `GbpIdentityRequest.model_validate`: the records and the validator `provenance`. -/
def GbpIdentityRequest.accepted (request : GbpIdentityRequest) : Bool :=
  request.caseRef ≠ "" && request.savedRecords.all SavedGbpRecord.accepted &&
    truthy request.selectedBranchRef = truthy request.selectionSourceRef &&
    truthy request.seoBusinessName = truthy request.seoNameSourceRef &&
    request.savedRecords.all fun record => decide (record.observedAt ≤ request.evaluatedAt)

/-- `CandidateDecision`. -/
structure CandidateDecision where
  record : SavedGbpRecord
  domainMatch : Option Bool
  phoneMatch : Option Bool
  eligible : Bool
  current : Bool
  reasons : List String
  matchedSourceRefs : List String

/-- The record can settle the identity now. -/
def CandidateDecision.counts (decision : CandidateDecision) : Bool :=
  decision.eligible && decision.current

/-- `stage` of an attempt. -/
inductive LookupStage where
  | link
  | refresh
  | domainPhone
  | name
deriving DecidableEq, Repr

def LookupStage.text : LookupStage → String
  | link => "link"
  | refresh => "refresh"
  | domainPhone => "domain_phone"
  | name => "name"

/-- `outcome` of an attempt. -/
inductive AttemptOutcome where
  | started
  | success
  | failed
  | interrupted
deriving DecidableEq, Repr

/-- `LookupAttempt`. -/
structure LookupAttempt where
  number : Nat
  stage : LookupStage
  outcome : AttemptOutcome := .started
deriving DecidableEq, Repr

/-- `GbpLookupLedger`, as its owner may hold it. -/
structure GbpLookupLedger where
  caseRef : String
  normalizedDomain : String
  attempts : List LookupAttempt := []
deriving DecidableEq, Repr

/-- The bound of three attempts. -/
def attemptLimit : Nat := 3

/-- The bounds and the validator `consecutive` of a ledger. -/
def GbpLookupLedger.accepted (ledger : GbpLookupLedger) : Bool :=
  decide (ledger.attempts.length ≤ attemptLimit) &&
    ledger.attempts.map LookupAttempt.number = List.range' 1 ledger.attempts.length

/-- `status` of a result. -/
inductive LookupStatus where
  | matched
  | identityUnconfirmed
  | gbpNotFound
  | lookupNotChecked
deriving DecidableEq, Repr

/-- `GbpIdentityResult`. -/
structure GbpIdentityResult where
  status : LookupStatus
  reason : String
  lookupStopReason : Option String := none
  selected : Option SavedGbpRecord := none
  candidates : List CandidateDecision
  ledger : GbpLookupLedger
  visitedStages : List String

section Hosts

variable (lib : LookupLibrary)

/-- `canonical_host`. -/
def canonicalHost (value : Option String) : Option String :=
  match lib.urlsplit (orEmpty value) with
  | none => none
  | some parsed =>
      if lib.lower parsed.scheme ∉ ["http", "https"] ∨ parsed.hasUsername ∨ parsed.hasPassword then
        none
      else
        let hostname := String.ofList (Web.rstripDots (orEmpty parsed.hostname).toList)
        match lib.idna hostname with
        | none => none
        | some host =>
            Alignment.orNone
              (if "www.".isPrefixOf host then .ofList (host.toList.drop 4) else host)

/-- `_owned_observations`. -/
def ownedObservations (request : GbpIdentityRequest) (observations : List IdentityObservation) :
    List IdentityObservation :=
  let domain := canonicalHost lib (some request.siteUrl)
  observations.filter fun o =>
    o.belongsToBusiness && o.purpose = .business && canonicalHost lib (some o.pageUrl) = domain

end Hosts

section Decisions

variable (lib : LookupLibrary)

/-- `_branch`. -/
def branch (record : SavedGbpRecord) : Option String :=
  if truthy record.cid then some ("cid:" ++ orEmpty record.cid)
  else if truthy record.placeId then some ("place_id:" ++ orEmpty record.placeId)
  else none

/-- `re.sub(r"\W+", " ", value).casefold().strip()`. -/
def foldedWords (value : Option String) : String :=
  Alignment.strip (lib.casefold (.ofList
    (Alignment.subRuns (fun c => !lib.isWord c) false (orEmpty value).toList)))

/-- `_address_only`. -/
def addressOnly (record : SavedGbpRecord) : Bool :=
  let name := foldedWords lib record.businessName
  let address := foldedWords lib record.address
  name = "" ||
    (address ≠ "" && (name = address || (name ++ " ").isPrefixOf address)) ||
    (record.categories ≠ [] && record.categories.all fun c => lib.casefold c ∈
      ["building", "street address", "premise", "route", "postal_code", "street_address"])

/-- The comparisons of a record's phone with the business's own. -/
def phoneComparisons (request : GbpIdentityRequest) (record : SavedGbpRecord) :
    List (IdentityObservation × Alignment.PairState) :=
  if truthy record.phone && truthy request.countryCode then
    (ownedObservations lib request request.phones).map fun o =>
      (o, (Alignment.comparePhones lib.toComparisonLibrary o.value (orEmpty record.phone)
        (orEmpty request.countryCode)).state)
  else []

/-- `assess_candidate`. -/
def assessCandidate (request : GbpIdentityRequest) (record : SavedGbpRecord) :
    CandidateDecision :=
  let expected := canonicalHost lib (some request.siteUrl)
  let observed := canonicalHost lib record.websiteUrl
  let aliased := request.aliases.reverse.find? fun a => canonicalHost lib (some a.url) = observed
  let domain := if observed.isSome then some (observed = expected || aliased.isSome) else none
  let comparisons := phoneComparisons lib request record
  let matching := comparisons.filter fun c => c.2.isMatch
  let phone :=
    if matching ≠ [] then some true
    else if comparisons.any fun c => c.2 = .mismatch then some false
    else none
  let current := record.available && decide (record.observedAt ≤ request.evaluatedAt) &&
    record.expiresAt.all fun expires => decide (request.evaluatedAt < expires)
  let blockers := (if addressOnly lib record then ["address_only_place"] else []) ++
    (if branch record = none then ["business_entity_key_missing"] else [])
  { record
    domainMatch := domain
    phoneMatch := phone
    eligible := blockers = [] && (domain = some true || phone = some true)
    current
    reasons := blockers ++
      (if domain = none then ["website_unavailable_or_invalid"] else []) ++
      (if phone = none then ["phone_unavailable_or_incomparable"] else []) ++
      (if domain = some false then ["domain_conflict"] else []) ++
      (if phone = some false then ["phone_conflict"] else []) ++
      (if current then [] else ["saved_evidence_unavailable_or_expired"])
    matchedSourceRefs := matching.map (fun c => c.1.sourceRef) ++
      (if domain = some true then (aliased.map VerifiedAlias.sourceRef).toList else []) }

@[simp] theorem assessCandidate_record (request : GbpIdentityRequest) (record : SavedGbpRecord) :
    (assessCandidate lib request record).record = record := rfl

end Decisions

end SearchTrust.Identity
