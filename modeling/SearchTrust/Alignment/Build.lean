/-
The alignment of a website with the public profile: one result for each field, and
dedicated evidence for what is missing.
-/
import SearchTrust.Alignment.Selection

namespace SearchTrust.Alignment

open SearchTrust.Jobs (Instant UUID)
open SearchTrust.Order

/-- What an anchor of an address was found by. -/
inductive AnchorKind where
  | street
  | postal
deriving DecidableEq, Repr

/-- The part of an observation that decides its identity. -/
structure CoverageObservation where
  snapshotId : UUID
  selector : EvidenceSelector
  url : Option String
  value : String

/-- A side of the alignment. -/
inductive Side where
  | site
  | gbp
deriving DecidableEq, Repr

def Side.text : Side → String
  | site => "site"
  | gbp => "gbp"

/-- `_GBP_FIELD`. -/
def gbpField : FieldKind → String
  | .serviceArea => "service_areas"
  | field => field.text

/-- `_NOT_APPLICABLE`. -/
def notApplicable : Option OperatingModel → FieldKind → Bool
  | some .storefront, field => field = .serviceArea
  | some .serviceArea, field => field = .address
  | some .meetingPoint, field => field = .address
  | _, _ => false

/-- The arguments of `build_site_gbp_alignment`. -/
structure AlignmentInput where
  context : EvidenceBuildContext
  identity : BusinessIdentity
  facts : SiteBusinessFacts
  selection : SiteBusinessSelection
  siteSource : Option SiteEvidenceSource
  publicSource : Option PublicGbpEvidenceSource
  evidence : EvidenceBuildResult
  limits : SiteGbpAlignmentLimits := {}
  nameQuality : Bool := false

/-- `SiteGbpAlignmentResult`. -/
structure SiteGbpAlignment where
  alignmentVersion : String
  caseId : UUID
  siteSnapshotId : Option UUID
  publicGbpSnapshotId : Option UUID
  sitePayloadChecksum : Option String
  publicGbpPayloadChecksum : Option String
  identitySummaryChecksum : String
  eligibility : List CandidateEligibility
  inspections : List SiteFieldInspection
  fields : List SiteGbpFieldResult

/-- `SiteGbpAlignmentBuildResult`. -/
structure SiteGbpAlignmentBuild where
  alignment : SiteGbpAlignment
  evidenceIndex : List EvidenceItem
  sourceTraces : List EvidenceSourceTrace

/-- The library of the selection, with the search for address anchors in a text and the
digests. -/
structure AlignmentLibrary extends SelectionLibrary where
  /-- The kinds that `address_matches(text, gbp_address, country)` finds. -/
  addressMatches : String → String → String → List AnchorKind
  uuidText : UUID → String
  stableKey : List String → String
  selectorPath : EvidenceSelector → String
  evidenceId : CoverageObservation → String
  /-- `request_digest(identity)`. -/
  identityDigest : BusinessIdentity → String
  /-- `len(canonical_json_bytes(output))`. -/
  outputBytes : SiteGbpAlignmentBuild → Nat

section Evidence

/-- `_summary_eligible`. -/
def summaryEligible (evidence : EvidenceBuildResult) (snapshotId : UUID) : Bool :=
  evidence.sourceSummaries.any fun item => item.snapshotId = snapshotId && item.businessEligible

/-- The traces of a field of the profile. -/
def gbpTraces (evidence : EvidenceBuildResult) (snapshotId : UUID) (field : FieldKind) :
    List EvidenceSourceTrace :=
  evidence.sourceTraces.filter fun trace =>
    trace.snapshotId = snapshotId && trace.selector.category = "public_gbp_field" &&
      trace.selector.field = gbpField field

/-- The value and the id of a trace's evidence. -/
def gbpItem (evidence : EvidenceBuildResult) (trace : EvidenceSourceTrace) :
    Except AlignmentError (String × String) :=
  match evidence.evidenceIndex.reverse.find? fun item => item.evidenceId = trace.evidenceId with
  | none => .error .referenceInvalid
  | some item =>
      if item.sourceType = .gbp then .ok (item.originalValue, item.evidenceId)
      else .error .referenceInvalid

/-- `_gbp_items`: the values of a field with the ids of their evidence. -/
def gbpItems (evidence : EvidenceBuildResult) (snapshotId : UUID) (field : FieldKind) :
    Except AlignmentError (List (String × String)) :=
  ((gbpTraces evidence snapshotId field).mapM (gbpItem evidence)).map (sortedBy Prod.snd)

/-- `_coverage_paths`. -/
def coveragePaths (side : Side) (field : FieldKind) (site : SiteEvidenceSource) :
    Except AlignmentError (List String) :=
  match side with
  | .gbp => .ok ["/payload/record/fields/" ++ gbpField field ++ "/state"]
  | .site =>
      let pages := (site.pages.mapIdx fun i page => (i, page.pageType)).filterMap fun entry =>
        if entry.2 ∈ requiredPages field then some ("/payload/pages/" ++ toString entry.1)
        else none
      let deep := (site.selectedPages.mapIdx fun i page => (i, page)).filterMap fun entry =>
        if entry.2.pageType ∈ requiredPages field ∧ entry.2.hasDeepSnapshot then
          some ("/payload/selected_pages/" ++ toString entry.1 ++ "/deep_snapshot/html")
        else none
      if pages ++ deep = [] then .error .referenceInvalid else .ok (sortedSet (pages ++ deep))

/-- `_COVERAGE_NOTE`. -/
def coverageNote : String :=
  "This evidence records a missing field in the saved, approved sample after required checks; it is not a business value or proof that the field is absent from the entire internet."

/-- `f"{side}_missing"`. -/
def missingText (side : Side) : String := side.text ++ "_missing"

end Evidence

section Fields

variable (lib : AlignmentLibrary) (inp : AlignmentInput)

/-- `version`. -/
def alignmentVersion : String :=
  if inp.identity.explicit.isSome then "site_gbp_alignment_v4"
  else if inp.nameQuality then "site_gbp_alignment_v3"
  else if inp.facts.textPatterns then "site_gbp_alignment_v2"
  else "site_gbp_alignment_v1"

/-- `_validate_identity`. -/
def validateIdentity : Except AlignmentError Unit :=
  let sourceDomain := match inp.siteSource with
    | some site => normalizedHost lib.toSelectionLibrary site.canonicalHost
    | none => inp.identity.normalizedDomain
  let target := (inp.identity.explicit.map Prod.fst).getD inp.identity.primaryLocation
  let reference := inp.context.customerPublicGbp
  if inp.identity.siteUrl ≠ inp.context.siteUrl ∨ target ≠ inp.context.targetMarket ∨
      normalizedHost lib.toSelectionLibrary inp.identity.normalizedDomain ≠ sourceDomain ∨
      inp.facts.caseId ≠ inp.context.caseId ∨ inp.facts.siteUrl ≠ inp.context.siteUrl then
    .error .bindingInvalid
  else if inp.identity.publicGbpUrl.isSome ∧
      inp.identity.publicGbpUrl ≠ reference.map CustomerPublicGbpReference.publicGbpUrl then
    .error .bindingInvalid
  else if inp.siteSource.any fun site =>
      inp.facts.sourcePayloadChecksum ≠ some site.payloadChecksum then
    .error .checksumMismatch
  else if inp.publicSource.any fun source =>
      reference.map CustomerPublicGbpReference.digest ≠ some source.subjectReferenceChecksum then
    .error .checksumMismatch
  else .ok ()

/-- `candidates.get(candidate_id)`. -/
def candidateOf (candidateId : String) : Option SiteBusinessCandidate :=
  inp.facts.candidates.find? fun candidate => candidate.candidateId = candidateId

/-- A record of the selection fits its candidate. -/
def recordFits (item : CandidateEligibility) : Bool :=
  (candidateOf inp item.candidateId).any fun candidate =>
    candidate.field = item.field && candidate.evidenceIds = item.evidenceIds

/-- The records of a field in a state. -/
def recordsOf (field : FieldKind) (state : EligibilityState) : List CandidateEligibility :=
  inp.selection.eligibility.filter fun item => item.field = field && item.state = state

/-- `eligible[field]`. -/
def eligibleOf (field : FieldKind) : List SiteBusinessCandidate :=
  (recordsOf inp field .eligible).filterMap fun item => candidateOf inp item.candidateId

/-- `unresolved[field]`. -/
def unresolvedOf (field : FieldKind) : List String :=
  (recordsOf inp field .unresolved).map CandidateEligibility.candidateId

/-- `field_urls`. -/
def fieldUrls (field : FieldKind) : List String :=
  sortedSet ((eligibleOf inp field).map SiteBusinessCandidate.finalUrl)

/-- `inspections[field]`. -/
def inspectionOf (field : FieldKind) : Option SiteFieldInspection :=
  inp.selection.inspections.reverse.find? fun item => item.field = field

/-- `_not_checked`. -/
def notChecked (field : FieldKind) (reason : NotCheckedReason) (limitations : List String) :
    SiteGbpFieldResult :=
  SiteGbpFieldResult.canonical
    { field
      state := .notChecked
      notCheckedReason := some reason
      unresolvedCandidateIds := unresolvedOf inp field
      urls := fieldUrls inp field
      limitations }

/-- `site_ready`. -/
def siteReady (site : SiteEvidenceSource) : Bool :=
  inp.selection.sourceState = .ready && summaryEligible inp.evidence site.snapshotId

/-- `gbp_ready`. -/
def gbpReady (gbp : PublicGbpEvidenceSource) : Bool :=
  summaryEligible inp.evidence gbp.snapshotId

/-- `time_comparable`, for two sources that are ready. -/
def timeComparable (site : SiteEvidenceSource) (gbp : PublicGbpEvidenceSource) : Bool :=
  decide (|site.completedAt - gbp.completedAt| ≤
    (inp.limits.maxComparisonAgeDays : Int) * 86400000000)

/-- The reason why an explicit identity does not allow the comparison of a field. -/
def explicitGate (field : FieldKind) : Option NotCheckedReason :=
  match inp.identity.explicit with
  | none => none
  | some (_, explicit) =>
      if field = .address ∧ (explicit.operatingLocation = none ∨ !explicit.identityMatched ∨
          !explicit.customerFacing ∨ explicit.selectedBranchRef = none) then
        some .operatingLocationUnresolved
      else if explicit.countryCode = none then some .comparatorUnsupported
      else none

/-- Text patterns are all that the website has of a field. -/
def textOnly (field : FieldKind) : Bool :=
  inp.facts.textPatterns && (field = .phone || field = .address) &&
    !inp.facts.candidates.any fun candidate =>
      candidate.field = field && candidate.sourceKind ≠ .textPattern

/-- The country of the comparisons. -/
def country : String := inp.identity.primaryLocation.countryCode

/-- The values of a field that the profile was observed to have. -/
def profileValues (gbp : PublicGbpEvidenceSource) (field : FieldKind) :
    Except AlignmentError (List (String × String)) :=
  if gbp.observed field then gbpItems inp.evidence gbp.snapshotId field else .ok []

/-- `phone_key`. -/
def phoneKey (value country : String) : Option String :=
  let digits := value.toList.filter lib.isDecimal
  let digits :=
    if country ∈ ["US", "CA"] ∧ digits.length = 11 ∧ digits.head? = some '1' then digits.tail
    else digits
  let digits :=
    if country = "GB" then
      let national := if ['4', '4'].isPrefixOf digits then digits.drop 2 else digits
      if national.head? = some '0' then national.tail else national
    else digits
  if 9 ≤ digits.length ∧ digits.length ≤ 15 then some (.ofList digits) else none

/-- `TEXT_NOTE`. -/
def textNote : String :=
  "Based on text recognition in saved HTML; confirm the business details before relying on this comparison."

/-- The note of a partial match of texts. -/
def postcodeNote : String :=
  "Only the postcode was corroborated; the remaining address components were not compared."

/-- A match of a text with a profile value: its key and what was compared. -/
def textMatch (field : FieldKind) (candidate : SiteBusinessCandidate) (value : String) :
    Option (Option String × String) :=
  if field = .phone then
    let key := phoneKey lib candidate.scalar (country inp)
    if key ≠ none ∧ key = phoneKey lib value (country inp) then some (key, "phone") else none
  else
    let anchors := lib.addressMatches candidate.scalar value (country inp)
    if anchors = [] then none
    else some (some (lib.casefold candidate.scalar),
      if .street ∈ anchors then "street" else "postal")

/-- The value of a text that matched. -/
def textValue (field : FieldKind) (value : String) (key : Option String) : NormalizedValue :=
  { field
    originalKey := Jobs.strip value
    normalizedKey := key
    version := "text_pattern_v1"
    countryCode := country inp }

/-- The pair of a text that matched, and what was compared. -/
def textPair (field : FieldKind) (candidate : SiteBusinessCandidate) (entry : String × String) :
    Option (AlignmentPair × String) :=
  (textMatch lib inp field candidate entry.1).map fun found =>
    ({ siteEvidenceIds := sortedSet candidate.evidenceIds
       gbpEvidenceIds := [entry.2]
       state := .semanticMatch
       siteValue := textValue inp field candidate.scalar found.1
       gbpValue := textValue inp field entry.1 found.1
       comparedComponents := [found.2]
       omittedComponents :=
        if field = .address then ["remaining_address_components"] else [] }, found.2)

/-- `_text_alignment`. -/
def textAlignment (field : FieldKind) (candidates : List SiteBusinessCandidate)
    (gbpValues : List (String × String)) : Except AlignmentError SiteGbpFieldResult :=
  if inp.limits.maxPairComparisons < candidates.length * gbpValues.length then
    .error .limitExceeded
  else
    let found := candidates.flatMap fun candidate =>
      gbpValues.filterMap (textPair lib inp field candidate)
    let state : FieldState :=
      if found = [] then .notChecked
      else if found.any fun entry => entry.2 ≠ "postal" then .semanticMatch
      else .partialMatch
    .ok <| SiteGbpFieldResult.canonical
      { field
        state
        notCheckedReason := if found = [] then some .siteContentNotChecked else none
        siteEvidenceIds := candidates.flatMap SiteBusinessCandidate.evidenceIds
        gbpEvidenceIds := gbpValues.map Prod.snd
        matchedPairs := found.map Prod.fst
        unresolvedCandidateIds := candidates.map SiteBusinessCandidate.candidateId
        urls := candidates.map SiteBusinessCandidate.finalUrl
        limitations := textNote :: if state = .partialMatch then [postcodeNote] else [] }

/-- The text candidates of a field that wait for the profile. -/
def textCandidates (field : FieldKind) : List SiteBusinessCandidate :=
  ((unresolvedOf inp field).filterMap (candidateOf inp)).filter fun candidate =>
    candidate.sourceKind = .textPattern

/-- A phone can be compared with itself. -/
def comparablePhone (value : String) : Bool :=
  (comparePhones lib.toComparisonLibrary value value (country inp)).state ≠ .incomparable

/-- `site_values`. -/
def siteValues (field : FieldKind) : List SiteBusinessCandidate :=
  if field = .phone then
    (eligibleOf inp field).filter fun candidate => comparablePhone lib inp candidate.scalar
  else eligibleOf inp field

/-- `gbp_values`, from those that were observed. -/
def comparedValues (field : FieldKind) (values : List (String × String)) :
    List (String × String) :=
  if field = .phone then values.filter fun entry => comparablePhone lib inp entry.1 else values

/-- `_coverage`. -/
def coverage (side : Side) (field : FieldKind) (site : SiteEvidenceSource)
    (gbp : PublicGbpEvidenceSource) (inspection : SiteFieldInspection) :
    Except AlignmentError (EvidenceItem × EvidenceSourceTrace) :=
  let state := missingText side
  let snapshotId := match side with
    | .site => site.snapshotId
    | .gbp => gbp.snapshotId
  let context := [alignmentVersion inp, field.text, side.text, lib.uuidText snapshotId,
    inp.facts.extractionVersion, "site_business_selection_v1", state] ++ inspection.requiredUrls
  let selector : EvidenceSelector := ⟨"coverage", lib.stableKey context, context, field.text⟩
  let url := match side with
    | .site => some inp.identity.siteUrl
    | .gbp => gbp.observedPublicGbpUrl.or inp.identity.publicGbpUrl
  let identifier := lib.evidenceId ⟨snapshotId, selector, url, state⟩
  (coveragePaths side field site).map fun paths =>
    ({ evidenceId := identifier
       snapshotId
       sourceType := .coverage
       url
       fieldPath := some (lib.selectorPath selector)
       originalValue := state
       normalizedValue := state
       collectedAt := match side with
        | .site => site.completedAt
        | .gbp => gbp.completedAt
       confidence := "low"
       healthStatus := "healthy"
       limitations := [coverageNote] },
     ⟨identifier, snapshotId, selector, paths⟩)

/-- The state of a field that a side lacks, and the sides that lack it. -/
def missingState (siteMissing gbpMissing : Bool) : FieldState × List Side :=
  if siteMissing && gbpMissing then (.bothMissing, [.site, .gbp])
  else if siteMissing then (.siteMissing, [.site])
  else (.gbpMissing, [.gbp])

/-- The result of a field with its dedicated evidence. -/
abbrev FieldOutcome := SiteGbpFieldResult × List (EvidenceItem × EvidenceSourceTrace)

/-- The result of a field that a side lacks. -/
def missingResult (field : FieldKind) (site : SiteEvidenceSource) (gbp : PublicGbpEvidenceSource)
    (inspection : SiteFieldInspection) (candidates : List SiteBusinessCandidate)
    (gbpValues : List (String × String)) : Except AlignmentError FieldOutcome := do
  let (state, sides) := missingState candidates.isEmpty gbpValues.isEmpty
  let covered ← sides.mapM fun side => coverage lib inp side field site gbp inspection
  let result := SiteGbpFieldResult.canonical
    { field
      state
      siteEvidenceIds := candidates.flatMap SiteBusinessCandidate.evidenceIds
      gbpEvidenceIds := gbpValues.map Prod.snd
      unresolvedCandidateIds := unresolvedOf inp field
      urls := fieldUrls inp field
      limitations := inspection.limitations }
  return ({ result with
    coverageEvidenceIds := sortedBy id (covered.map fun entry => entry.1.evidenceId) }, covered)

/-- The evidence ids of pairs, on one side. -/
def pairIds (ids : AlignmentPair → List String) (pairs : List AlignmentPair) : List String :=
  pairs.flatMap ids

/-- The result of a comparison: what matched, and what did not, on both sides. -/
def comparedResult (field : FieldKind) (state : FieldState)
    (candidates : List SiteBusinessCandidate) (gbpValues : List (String × String))
    (matches_ incomparable : List AlignmentPair) : SiteGbpFieldResult :=
  let siteIds := candidates.flatMap SiteBusinessCandidate.evidenceIds
  let gbpIds := gbpValues.map Prod.snd
  SiteGbpFieldResult.canonical
    { field
      state
      siteEvidenceIds := siteIds
      gbpEvidenceIds := gbpIds
      matchedPairs := matches_
      unmatchedSiteIds :=
        siteIds.filter (· ∉ pairIds AlignmentPair.siteEvidenceIds matches_)
      unmatchedGbpIds := gbpIds.filter (· ∉ pairIds AlignmentPair.gbpEvidenceIds matches_)
      incomparableSiteIds := pairIds AlignmentPair.siteEvidenceIds incomparable
      unresolvedCandidateIds := unresolvedOf inp field
      urls := fieldUrls inp field }

/-- The normalised service area of a value. -/
def serviceArea (value : String) : NormalizedValue :=
  normalizeServiceArea lib.toComparisonLibrary value (country inp)
    inp.identity.primaryLocation.regionCode

/-- The pairs of service areas with the same key, the missing one among them. -/
def servicePairs (candidates : List SiteBusinessCandidate) (gbpValues : List (String × String)) :
    List AlignmentPair :=
  candidates.flatMap fun candidate =>
    gbpValues.filterMap fun entry =>
      if (serviceArea lib inp candidate.scalar).normalizedKey =
          (serviceArea lib inp entry.1).normalizedKey then
        some
          { siteEvidenceIds := sortedSet candidate.evidenceIds
            gbpEvidenceIds := [entry.2]
            state := .exactMatch
            siteValue := serviceArea lib inp candidate.scalar
            gbpValue := serviceArea lib inp entry.1 }
      else none

def ServiceAreaState.fieldState : ServiceAreaState → FieldState
  | exactMatch => .exactMatch
  | partialMatch => .partialMatch
  | mismatch => .mismatch

/-- The result of the service areas. -/
def serviceResult (candidates : List SiteBusinessCandidate) (gbpValues : List (String × String)) :
    SiteGbpFieldResult :=
  let compared := compareServiceAreas lib.toComparisonLibrary
    (candidates.map SiteBusinessCandidate.scalar) (gbpValues.map Prod.fst) (country inp)
    inp.identity.primaryLocation.regionCode
  comparedResult inp .serviceArea compared.state.fieldState candidates gbpValues
    (servicePairs lib inp candidates gbpValues) []

/-- The comparison of `_pair`. -/
def pairComparison (field : FieldKind) (candidate : SiteBusinessCandidate) (value : String) :
    ValueComparison :=
  match field with
  | .businessName =>
      compareBusinessNames lib.toComparisonLibrary candidate.scalar value (country inp)
        inp.nameQuality inp.context.targetMarket.city
  | .address =>
      compareAddresses lib.toComparisonLibrary candidate.addressValue (.text value) (country inp)
  | _ => comparePhones lib.toComparisonLibrary candidate.scalar value (country inp)

/-- `_pair`. -/
def pair (field : FieldKind) (candidate : SiteBusinessCandidate) (entry : String × String) :
    AlignmentPair :=
  let compared := pairComparison lib inp field candidate entry.1
  { siteEvidenceIds := sortedSet candidate.evidenceIds
    gbpEvidenceIds := [entry.2]
    state := compared.state
    siteValue := compared.left
    gbpValue := compared.right
    comparedComponents := compared.comparedComponents
    omittedComponents := compared.omittedComponents }

/-- Every candidate with every value. -/
def allPairs (field : FieldKind) (candidates : List SiteBusinessCandidate)
    (gbpValues : List (String × String)) : List AlignmentPair :=
  candidates.flatMap fun candidate => gbpValues.map (pair lib inp field candidate)

/-- The result of names, addresses and phones. -/
def pairResult (field : FieldKind) (candidates : List SiteBusinessCandidate)
    (gbpValues : List (String × String)) : Except AlignmentError SiteGbpFieldResult :=
  if inp.limits.maxPairComparisons < candidates.length * gbpValues.length then
    .error .limitExceeded
  else
    let pairs := allPairs lib inp field candidates gbpValues
    let matching := pairs.filter fun p => p.state.isMatch
    let incomparable := pairs.filter fun p => p.state = .incomparable
    if matching ≠ [] then
      .ok (comparedResult inp field
        (if matching.any fun p => p.state = .exactMatch then .exactMatch else .semanticMatch)
        candidates gbpValues matching incomparable)
    else if pairs ≠ [] ∧ incomparable.length = pairs.length then
      .ok (notChecked inp field .comparatorUnsupported [])
    else .ok (comparedResult inp field .mismatch candidates gbpValues [] incomparable)

/-- The end of the loop over the fields: what both sources hold of a field. -/
def compareField (field : FieldKind) (site : SiteEvidenceSource) (gbp : PublicGbpEvidenceSource)
    (inspection : SiteFieldInspection) : Except AlignmentError FieldOutcome := do
  let observed ← profileValues inp gbp field
  let candidates := siteValues lib inp field
  let gbpValues := comparedValues lib inp field observed
  if candidates.isEmpty || gbpValues.isEmpty then
    missingResult lib inp field site gbp inspection candidates gbpValues
  else if field = .serviceArea then .ok (serviceResult lib inp candidates gbpValues, [])
  else (pairResult lib inp field candidates gbpValues).map fun result => (result, [])

/-- What follows for two sources that are there. -/
def sourcedField (field : FieldKind) (site : SiteEvidenceSource) (gbp : PublicGbpEvidenceSource)
    (inspection : SiteFieldInspection) : Except AlignmentError FieldOutcome :=
  if !siteReady inp site || !gbpReady inp gbp then
    .ok (notChecked inp field .sourceIneligible [], [])
  else if !timeComparable inp site gbp then
    .ok (notChecked inp field .comparisonTimeGap [], [])
  else if !inspection.complete then
    .ok (notChecked inp field .siteContentNotChecked inspection.limitations, [])
  else if textOnly inp field then do
    let values ← profileValues inp gbp field
    let result ← textAlignment lib inp field (textCandidates inp field) values
    return (result, [])
  else if eligibleOf inp field = [] ∧ unresolvedOf inp field ≠ [] then
    .ok (notChecked inp field .identityUnresolved [], [])
  else compareField lib inp field site gbp inspection

/-- The result of a field that does not apply to the business. -/
def notApplicableResult (field : FieldKind) : Except AlignmentError FieldOutcome := do
  let values ← match inp.publicSource with
    | none => .ok []
    | some gbp => gbpItems inp.evidence gbp.snapshotId field
  return (SiteGbpFieldResult.canonical
    { field
      state := .notApplicable
      siteEvidenceIds := (eligibleOf inp field).flatMap SiteBusinessCandidate.evidenceIds
      gbpEvidenceIds := values.map Prod.snd
      unresolvedCandidateIds := unresolvedOf inp field
      urls := fieldUrls inp field }, [])

/-- One turn of the loop over the fields. -/
def alignField (field : FieldKind) : Except AlignmentError FieldOutcome :=
  match inspectionOf inp field with
  | none => .error .referenceInvalid
  | some inspection =>
      if inp.identity.operatingModel = none ∧ (field = .address ∨ field = .serviceArea) then
        .ok (notChecked inp field .operatingModelUnresolved [], [])
      else if notApplicable inp.identity.operatingModel field then notApplicableResult inp field
      else
        match explicitGate inp field with
        | some reason => .ok (notChecked inp field reason [], [])
        | none =>
            match inp.siteSource, inp.publicSource with
            | some site, some gbp => sourcedField lib inp field site gbp inspection
            | _, _ => .ok (notChecked inp field .sourceMissing [], [])

/-- The items of a dictionary, by the sorted ids. -/
def indexed {α : Type} (key : α → String) (items : List α) : List α :=
  (sortedSet (items.map key)).filterMap fun identifier =>
    items.reverse.find? fun item => key item = identifier

/-- The end of the build: the evidence of the facts and that of the missing sides. -/
def assemble (outcomes : List FieldOutcome) : Except AlignmentError SiteGbpAlignmentBuild :=
  let covered := outcomes.flatMap Prod.snd
  let items := indexed EvidenceItem.evidenceId (covered.map Prod.fst)
  let conflict := items.any fun item =>
    (inp.facts.evidenceIndex.reverse.find? fun other =>
      other.evidenceId = item.evidenceId).any (· ≠ item)
  let merged := indexed EvidenceItem.evidenceId (inp.facts.evidenceIndex ++ items)
  if conflict then .error .idConflict
  else if inp.limits.maxMergedEvidence < merged.length ∨
      inp.limits.maxCoverageEvidence < items.length then
    .error .limitExceeded
  else
    let output : SiteGbpAlignmentBuild :=
      { alignment :=
          { alignmentVersion := alignmentVersion inp
            caseId := inp.context.caseId
            siteSnapshotId := inp.siteSource.map SiteEvidenceSource.snapshotId
            publicGbpSnapshotId := inp.publicSource.map PublicGbpEvidenceSource.snapshotId
            sitePayloadChecksum := inp.siteSource.map SiteEvidenceSource.payloadChecksum
            publicGbpPayloadChecksum :=
              inp.publicSource.map PublicGbpEvidenceSource.payloadChecksum
            identitySummaryChecksum := lib.identityDigest inp.identity
            eligibility := sortedBy CandidateEligibility.candidateId inp.selection.eligibility
            inspections := sortedBy (fun item => item.field.text) inp.selection.inspections
            fields := sortedBy (fun result => result.field.text) (outcomes.map Prod.fst) }
        evidenceIndex := merged
        sourceTraces := indexed EvidenceSourceTrace.evidenceId
          (inp.facts.sourceTraces ++ covered.map Prod.snd) }
    if inp.limits.maxOutputBytes < lib.outputBytes output then .error .limitExceeded
    else .ok output

/-- The check of the selection's records. -/
def checkSelection : Except AlignmentError Unit :=
  if inp.selection.eligibility.all (recordFits inp) &&
      fieldNames.all (fun field => (inspectionOf inp field).isSome) &&
      inp.selection.inspections.all (fun item => item.field ∈ fieldNames) then .ok ()
  else .error .referenceInvalid

/-- `build_site_gbp_alignment`. -/
def buildSiteGbpAlignment : Except AlignmentError SiteGbpAlignmentBuild := do
  validateIdentity lib inp
  checkSelection inp
  let outcomes ← fieldNames.mapM (alignField lib inp)
  assemble lib inp outcomes

end Fields

end SearchTrust.Alignment
