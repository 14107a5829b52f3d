/-
What the alignment of a website with the public profile reads and returns: candidates
with their evidence, the selection among them, the two sources and the field results.
-/
import Mathlib.Algebra.Order.Ring.Rat
import Mathlib.Data.Rat.Defs
import SearchTrust.Alignment.Comparators
import SearchTrust.Jobs.Models

namespace SearchTrust.Alignment

open SearchTrust.Jobs (Instant UUID)
open SearchTrust.Order

instance lawfulBEqOptional : LawfulBEq (Option String) := Option.instLawfulBEq _

/-- `TargetMarket`. -/
structure TargetMarket where
  displayName : String
  countryCode : String
  region : Option String := none
  city : Option String := none
  postalCode : Option String := none
  latitude : Option ℚ := none
  longitude : Option ℚ := none
deriving DecidableEq

/-- `OperatingModel`, with the meeting point of the explicit identity. -/
inductive OperatingModel where
  | storefront
  | serviceArea
  | hybrid
  | meetingPoint
deriving DecidableEq, Repr

/-- `OperatingPlace`, as far as the alignment reads it. -/
structure OperatingPlace where
  address : String
  city : Option String := none
  region : Option String := none
deriving DecidableEq

/-- What the alignment reads of a `BusinessIdentityV2`. -/
structure ExplicitIdentity where
  countryCode : Option String
  /-- `identity_match.state == "matched"`. -/
  identityMatched : Bool
  /-- `operating_location.role == "customer_facing"`. -/
  customerFacing : Bool
  operatingLocation : Option OperatingPlace
  selectedBranchRef : Option String

/-- `BusinessIdentity`, or the view `AlignmentIdentityV2` of an explicit identity. -/
structure BusinessIdentity where
  businessName : String
  siteUrl : String
  normalizedDomain : String
  operatingModel : Option OperatingModel
  primaryLocation : TargetMarket
  publicGbpUrl : Option String := none
  /-- `target_market` and `identity` of the view. -/
  explicit : Option (TargetMarket × ExplicitIdentity) := none

/-- `SourceKind`. -/
inductive SourceKind where
  | jsonldProperty
  | telLink
  | domAddress
  | domLabel
  | textPattern
deriving DecidableEq, Repr

/-- `SiteBusinessCandidate`.  A candidate without a scalar is an address with
components. -/
structure SiteBusinessCandidate where
  candidateId : String
  field : FieldKind
  sourceKind : SourceKind
  entityKey : Option String := none
  /-- `ownership_status == "declared_entity"`. -/
  declaredEntity : Bool := false
  declaredId : Option String := none
  declaredUrl : Option String := none
  scalarValue : Option String
  components : List (String × String) := []
  requestedUrl : String
  finalUrl : String
  evidenceIds : List String
  shape : scalarValue = none → field = .address ∧ components ≠ []

/-- `candidate.scalar_value` where the field is no address. -/
def SiteBusinessCandidate.scalar (candidate : SiteBusinessCandidate) : String :=
  orEmpty candidate.scalarValue

/-- `candidate.components or candidate.scalar_value`. -/
def SiteBusinessCandidate.addressValue (candidate : SiteBusinessCandidate) : AddressValue :=
  if candidate.components = [] then .text candidate.scalar
  else .structured candidate.components

/-- `SitePageType`, as far as the selection tells pages apart. -/
inductive PageType where
  | home
  | serviceIndex
  | serviceDetail
  | serviceArea
  | location
  | about
  | contact
  | other
deriving DecidableEq, Repr

/-- `CORE`. -/
def corePages : List PageType := [.home, .contact, .about, .location]

/-- `BUSINESS_CORE`. -/
def businessCorePages : List PageType :=
  corePages ++ [.serviceIndex, .serviceDetail, .serviceArea]

/-- `REQUIRED`. -/
def requiredPages : FieldKind → List PageType
  | .serviceArea => corePages ++ [.serviceArea]
  | _ => corePages

/-- `scope` of a diagnostic. -/
inductive DiagnosticScope where
  | extraction
  | ownership
  | availability
deriving DecidableEq, Repr

/-- `CandidateDiagnostic`. -/
structure CandidateDiagnostic where
  code : String
  fields : List FieldKind
  scope : DiagnosticScope := .extraction

/-- `status` of a page. -/
inductive PageStatus where
  | parsed
  | partlyParsed
  | notChecked
  | parseFailed
deriving DecidableEq, Repr

def PageStatus.text : PageStatus → String
  | parsed => "parsed"
  | partlyParsed => "partial"
  | notChecked => "not_checked"
  | parseFailed => "parse_failed"

/-- `CandidatePage`. -/
structure CandidatePage where
  requestedUrl : String
  pageType : PageType
  status : PageStatus
  finalUrl : Option String := none
  diagnostics : List CandidateDiagnostic := []

/-- `page.final_url or page.requested_url`. -/
def CandidatePage.url (page : CandidatePage) : String := page.finalUrl.getD page.requestedUrl

/-- `state` of the source of the facts. -/
inductive SourceState where
  | ready
  | missing
  | ineligible
deriving DecidableEq, Repr

/-- `source_type` of an evidence item, as far as it is told apart. -/
inductive SourceType where
  | gbp
  | coverage
  | other
deriving DecidableEq, Repr

/-- `EvidenceSelector`, without the fields that are left at their defaults. -/
structure EvidenceSelector where
  category : String
  recordKey : String
  recordContext : List String
  field : String
deriving DecidableEq

/-- `EvidenceItem`, its value as a text. -/
structure EvidenceItem where
  evidenceId : String
  snapshotId : UUID
  sourceType : SourceType
  url : Option String
  fieldPath : Option String
  originalValue : String
  normalizedValue : String
  collectedAt : Instant
  confidence : String
  healthStatus : String
  limitations : List String
deriving DecidableEq

/-- `EvidenceSourceTrace`. -/
structure EvidenceSourceTrace where
  evidenceId : String
  snapshotId : UUID
  selector : EvidenceSelector
  originPaths : List String

/-- `SiteBusinessFactsResult`.  The facts are verified to name each candidate once. -/
structure SiteBusinessFacts where
  /-- `extraction_version == "site_business_extraction_v2"`. -/
  textPatterns : Bool
  caseId : UUID
  siteUrl : String
  sourcePayloadChecksum : Option String
  sourceState : SourceState
  pages : List CandidatePage
  candidates : List SiteBusinessCandidate
  evidenceIndex : List EvidenceItem
  sourceTraces : List EvidenceSourceTrace
  nodup_candidateIds : (candidates.map SiteBusinessCandidate.candidateId).Nodup

/-- `facts.extraction_version`. -/
def SiteBusinessFacts.extractionVersion (facts : SiteBusinessFacts) : String :=
  if facts.textPatterns then "site_business_extraction_v2" else "site_business_extraction_v1"

/-- `EligibilityState`. -/
inductive EligibilityState where
  | eligible
  | unresolved
  | excluded
deriving DecidableEq, Repr

/-- `CandidateEligibility`. -/
structure CandidateEligibility where
  candidateId : String
  field : FieldKind
  state : EligibilityState
  reasons : List String
  entityKey : Option String
  requestedUrl : String
  finalUrl : String
  evidenceIds : List String

/-- `SiteFieldInspection`. -/
structure SiteFieldInspection where
  field : FieldKind
  complete : Bool
  requiredUrls : List String
  checkedUrls : List String
  invalidValueObserved : Bool
  limitations : List String

/-- `SiteBusinessSelectionResult`. -/
structure SiteBusinessSelection where
  sourceState : SourceState
  eligibility : List CandidateEligibility
  inspections : List SiteFieldInspection

/-- `FIELD_NAMES`. -/
def fieldNames : List FieldKind := [.businessName, .address, .phone, .serviceArea]

/-- `SiteGbpAlignmentLimits`, as far as the selection and the alignment read it. -/
structure SiteGbpAlignmentLimits where
  maxOutputBytes : Nat := 20000000
  maxCandidates : Nat := 5000
  maxPairComparisons : Nat := 250000
  maxEvidenceReferences : Nat := 20000
  maxCoverageEvidence : Nat := 100
  maxMergedEvidence : Nat := 20000
  maxComparisonAgeDays : Nat := 30

/-- `FindingsError`, and the `ValueError` of a model or of `urlsplit`. -/
inductive AlignmentError where
  | bindingInvalid
  | checksumMismatch
  | referenceInvalid
  | limitExceeded
  | idConflict
  | valueError
deriving DecidableEq, Repr

/-- `FieldState`. -/
inductive FieldState where
  | exactMatch
  | semanticMatch
  | partialMatch
  | mismatch
  | siteMissing
  | gbpMissing
  | bothMissing
  | notApplicable
  | notChecked
deriving DecidableEq, Repr

/-- `NotCheckedReason`. -/
inductive NotCheckedReason where
  | sourceMissing
  | sourceIneligible
  | identityUnresolved
  | siteContentNotChecked
  | comparisonTimeGap
  | comparatorUnsupported
  | operatingModelUnresolved
  | operatingLocationUnresolved
deriving DecidableEq, Repr

/-- `AlignmentPair`. -/
structure AlignmentPair where
  siteEvidenceIds : List String
  gbpEvidenceIds : List String
  state : PairState
  siteValue : NormalizedValue
  gbpValue : NormalizedValue
  comparedComponents : List String := []
  omittedComponents : List String := []

/-- `SiteGbpFieldResult`. -/
structure SiteGbpFieldResult where
  field : FieldKind
  state : FieldState
  notCheckedReason : Option NotCheckedReason := none
  siteEvidenceIds : List String := []
  gbpEvidenceIds : List String := []
  coverageEvidenceIds : List String := []
  matchedPairs : List AlignmentPair := []
  unmatchedSiteIds : List String := []
  unmatchedGbpIds : List String := []
  incomparableSiteIds : List String := []
  unresolvedCandidateIds : List String := []
  urls : List String := []
  limitations : List String := []

/-- `shape_and_canonicalize`, for a result whose reason fits its state. -/
def SiteGbpFieldResult.canonical (r : SiteGbpFieldResult) : SiteGbpFieldResult :=
  { r with
    siteEvidenceIds := sortedSet r.siteEvidenceIds
    gbpEvidenceIds := sortedSet r.gbpEvidenceIds
    coverageEvidenceIds := sortedSet r.coverageEvidenceIds
    unmatchedSiteIds := sortedSet r.unmatchedSiteIds
    unmatchedGbpIds := sortedSet r.unmatchedGbpIds
    incomparableSiteIds := sortedSet r.incomparableSiteIds
    unresolvedCandidateIds := sortedSet r.unresolvedCandidateIds
    urls := sortedSet r.urls
    limitations := sortedSet r.limitations }

/-- A page of the site's payload. -/
structure SitePayloadPage where
  pageType : PageType

/-- A selected page of the site's payload. -/
structure SelectedPage where
  pageType : PageType
  hasDeepSnapshot : Bool

/-- `SiteEvidenceSource`. -/
structure SiteEvidenceSource where
  snapshotId : UUID
  payloadChecksum : String
  completedAt : Instant
  canonicalHost : String
  pages : List SitePayloadPage
  selectedPages : List SelectedPage

/-- `PublicGbpEvidenceSource`. -/
structure PublicGbpEvidenceSource where
  snapshotId : UUID
  payloadChecksum : String
  completedAt : Instant
  subjectReferenceChecksum : String
  observedPublicGbpUrl : Option String
  /-- `record.fields.<field>.state == "observed"`. -/
  observed : FieldKind → Bool

/-- `CustomerPublicGbpReference`, with its `request_digest`. -/
structure CustomerPublicGbpReference where
  publicGbpUrl : String
  digest : String

/-- What the alignment reads of an `EvidenceBuildContext`. -/
structure EvidenceBuildContext where
  caseId : UUID
  siteUrl : String
  targetMarket : TargetMarket
  customerPublicGbp : Option CustomerPublicGbpReference

/-- What the alignment reads of an `EvidenceSourceSummary`. -/
structure EvidenceSourceSummary where
  snapshotId : UUID
  businessEligible : Bool

/-- `EvidenceBuildResult`. -/
structure EvidenceBuildResult where
  evidenceIndex : List EvidenceItem
  sourceTraces : List EvidenceSourceTrace
  sourceSummaries : List EvidenceSourceSummary

end SearchTrust.Alignment
