/-
The selection of website candidates inside the confirmed identity, and the inspection of
the pages that each field needs.
-/
import SearchTrust.Alignment.Models
import SearchTrust.Report.Outcomes

namespace SearchTrust.Alignment

open SearchTrust.Order

/-- The parts of a URL that the selection reads. -/
structure LinkParts where
  scheme : String
  hostname : Option String

/-- The library of the comparators, with `urlsplit`; `none` is a `ValueError`. -/
structure SelectionLibrary extends ComparisonLibrary where
  urlsplit : String → Option LinkParts

section Selection

variable (lib : SelectionLibrary)

/-- `normalized_host`. -/
def normalizedHost (value : String) : String :=
  let folded := String.ofList (Web.rstripDots (lib.casefold value).toList)
  if "www.".isPrefixOf folded then .ofList (folded.toList.drop 4) else folded

/-- `host`. -/
def host (url : String) : Except AlignmentError String :=
  match lib.urlsplit url with
  | none => .error .valueError
  | some parsed => .ok (normalizedHost lib (orEmpty parsed.hostname))

/-- The comparators' region of a place. -/
def TargetMarket.regionCode (target : TargetMarket) : Option String :=
  targetRegion target.displayName target.region target.countryCode

/-- `_candidate_key`. -/
def candidateKey (candidate : SiteBusinessCandidate) (identity : BusinessIdentity) :
    Option String :=
  let country := identity.primaryLocation.countryCode
  match candidate.field with
  | .businessName =>
      (normalizeBusinessName lib.toComparisonLibrary candidate.scalar country).normalizedKey
  | .phone => (normalizePhone lib.toComparisonLibrary candidate.scalar country).normalizedKey
  | .address =>
      (normalizeAddress lib.toComparisonLibrary candidate.addressValue country).normalizedKey
  | _ =>
      (normalizeServiceArea lib.toComparisonLibrary candidate.scalar country
        identity.primaryLocation.regionCode).normalizedKey

/-- `_external`. -/
def external (candidate : SiteBusinessCandidate) (identity : BusinessIdentity) :
    List (Option String) → Except AlignmentError Bool
  | [] => .ok false
  | value :: rest =>
      if !truthy value || "#".isPrefixOf (orEmpty value) then external candidate identity rest
      else
        match lib.urlsplit (orEmpty value) with
        | none => .error .valueError
        | some parsed =>
            if parsed.scheme ∈ ["http", "https"] then
              .ok (normalizedHost lib (orEmpty parsed.hostname) ≠ identity.normalizedDomain)
            else if parsed.scheme ≠ "" then .ok true
            else external candidate identity rest

/-- The place that a market anchor is compared with; `none` where there is none. -/
def anchorTarget (candidate : SiteBusinessCandidate) (identity : BusinessIdentity) :
    Option TargetMarket :=
  match candidate.field, identity.explicit with
  | .address, some (_, explicit) =>
      explicit.operatingLocation.map fun place =>
        { identity.primaryLocation with
          displayName := if truthy place.city then orEmpty place.city else place.address
          city := place.city
          region := place.region }
  | _, _ => some identity.primaryLocation

/-- `_market_anchor`. -/
def marketAnchor (candidate : SiteBusinessCandidate) (identity : BusinessIdentity) : Bool :=
  match anchorTarget candidate identity with
  | none => false
  | some target =>
      let key := fun value region =>
        (normalizeServiceArea lib.toComparisonLibrary value target.countryCode
          region).normalizedKey
      let anchors := ([target.city, some target.displayName].filter truthy).map fun value =>
        key (orEmpty value) target.regionCode
      match candidate.field with
      | .serviceArea =>
          let own := key candidate.scalar target.regionCode
          truthy own && own ∈ anchors
      | .address =>
          let locality := candidate.components.lookup "addressLocality"
          let region := candidate.components.lookup "addressRegion"
          truthy locality && key (orEmpty locality) target.region ∈ anchors &&
            (!truthy target.region || !truthy region ||
              lib.casefold (orEmpty region) = lib.casefold (orEmpty target.region))
      | _ => false

/-- `anchored.get(key)` of `_group_anchors`. -/
def groupAnchor (candidates : List SiteBusinessCandidate) (identity : BusinessIdentity)
    (key : Option String) : Option String :=
  if !truthy key then none
  else
    let group := candidates.filter fun c => c.entityKey = key
    if group.any fun c => c.field = .businessName &&
        (compareBusinessNames lib.toComparisonLibrary c.scalar identity.businessName
          identity.primaryLocation.countryCode false none).state.isMatch then
      some "noncore_name_anchor"
    else if group.any fun c => marketAnchor lib c identity then some "noncore_market_anchor"
    else none

/-- `pages.get(str(candidate.requested_url))`. -/
def pageOf (facts : SiteBusinessFacts) (candidate : SiteBusinessCandidate) :
    Option CandidatePage :=
  facts.pages.reverse.find? fun page => page.requestedUrl = candidate.requestedUrl

/-- The first loop of the selection, for one candidate. -/
def preliminary (candidates : List SiteBusinessCandidate) (identity : BusinessIdentity)
    (page : CandidatePage) (candidate : SiteBusinessCandidate) :
    Except AlignmentError (Option (EligibilityState × String)) :=
  match candidate.sourceKind with
  | .jsonldProperty =>
      if !candidate.declaredEntity then
        (external lib candidate identity [candidate.declaredUrl, candidate.declaredId]).map
          fun outside =>
            some (if outside then (.excluded, "external_entity_hint")
              else (.unresolved, "ownership_unresolved"))
      else if page.pageType ∈ businessCorePages then
        .ok (some (.eligible, "core_declared_entity"))
      else
        match groupAnchor lib candidates identity candidate.entityKey with
        | some anchor => .ok (some (.eligible, anchor))
        | none => .ok (some (.unresolved, "noncore_anchor_missing"))
  | .domLabel =>
      .ok (if page.pageType ∈ businessCorePages then some (.eligible, "explicit_label_core")
        else none)
  | _ => .ok none

/-- A candidate with its page and its preliminary state. -/
structure Examined where
  candidate : SiteBusinessCandidate
  page : CandidatePage
  state : Option (EligibilityState × String)

/-- The first loop of the selection. -/
def examine (facts : SiteBusinessFacts) (identity : BusinessIdentity)
    (candidates : List SiteBusinessCandidate) : Except AlignmentError (List Examined) :=
  candidates.mapM fun candidate =>
    match pageOf facts candidate with
    | none => .error .referenceInvalid
    | some page =>
        (preliminary lib candidates identity page candidate).map fun state =>
          ⟨candidate, page, state⟩

/-- A structured value that is eligible agrees with the candidate. -/
def corroborated (identity : BusinessIdentity) (examined : List Examined)
    (candidate : SiteBusinessCandidate) : Bool :=
  let country := identity.primaryLocation.countryCode
  examined.any fun other =>
    other.candidate.sourceKind = .jsonldProperty &&
      (other.state.map Prod.fst) = some .eligible &&
      other.candidate.field = candidate.field &&
      match candidate.field with
      | .phone =>
          (comparePhones lib.toComparisonLibrary candidate.scalar other.candidate.scalar
            country).state.isMatch
      | .address =>
          (compareAddresses lib.toComparisonLibrary candidate.addressValue
            other.candidate.addressValue country).state.isMatch
      | _ => false

/-- The value stands on two pages, one of them a core page. -/
def repeatedOk (identity : BusinessIdentity) (examined : List Examined)
    (candidate : SiteBusinessCandidate) : Bool :=
  let key := candidateKey lib candidate identity
  let same := examined.filter fun other =>
    other.candidate.sourceKind ≠ .textPattern && other.candidate.field = candidate.field &&
      candidateKey lib other.candidate identity = key
  truthy key && decide (2 ≤ (same.map fun other => other.candidate.finalUrl).dedup.length) &&
    same.any fun other => other.page.pageType ∈ corePages

/-- `state_reason` of a candidate. -/
def stateReason (identity : BusinessIdentity) (examined : List Examined) (entry : Examined) :
    EligibilityState × String :=
  if entry.candidate.sourceKind = .textPattern then (.unresolved, "text_pattern_requires_gbp")
  else
    match entry.state with
    | some state => state
    | none =>
        if corroborated lib identity examined entry.candidate then
          (.eligible, "structured_value_corroboration")
        else if repeatedOk lib identity examined entry.candidate then
          (.eligible, "repeated_across_final_pages")
        else (.unresolved, "page_not_eligible")

/-- The record of a candidate. -/
def eligibilityOf (identity : BusinessIdentity) (examined : List Examined) (entry : Examined) :
    CandidateEligibility :=
  let state := stateReason lib identity examined entry
  { candidateId := entry.candidate.candidateId
    field := entry.candidate.field
    state := state.1
    reasons := [state.2]
    entityKey := entry.candidate.entityKey
    requestedUrl := entry.candidate.requestedUrl
    finalUrl := entry.candidate.finalUrl
    evidenceIds := sortedSet entry.candidate.evidenceIds }

/-- The diagnostics of a page that bear on a field. -/
def fieldDiagnostics (field : FieldKind) (page : CandidatePage) : List CandidateDiagnostic :=
  page.diagnostics.filter fun d => field ∈ d.fields && d.scope ≠ .ownership

/-- The diagnostics that keep a page from being complete. -/
def blockers (field : FieldKind) (page : CandidatePage) : List CandidateDiagnostic :=
  (fieldDiagnostics field page).filter fun d => d.code ≠ "invalid_field_value"

/-- `page_complete`. -/
def pageComplete (field : FieldKind) (page : CandidatePage) : Bool :=
  page.status ∉ [.notChecked, .parseFailed] && (blockers field page).isEmpty

/-- `_inspection`. -/
def inspection (facts : SiteBusinessFacts) (field : FieldKind) : SiteFieldInspection :=
  let required := facts.pages.filter fun page => page.pageType ∈ requiredPages field
  let hasHome := required.any fun page => page.pageType = .home
  { field
    complete := facts.sourceState = .ready && hasHome && required.all (pageComplete field)
    requiredUrls := sortedSet (required.map CandidatePage.url)
    checkedUrls := sortedSet ((required.filter (pageComplete field)).map CandidatePage.url)
    invalidValueObserved := required.any fun page =>
      (fieldDiagnostics field page).any fun d => d.code = "invalid_field_value"
    limitations := sortedSet
      ((required.filter fun page => !pageComplete field page).flatMap (fun page =>
          (blockers field page).map (fun d => field.text ++ ":" ++ d.code) ++
            if page.status ∈ [.notChecked, .parseFailed] then
              [field.text ++ ":page_" ++ page.status.text]
            else []) ++
        if hasHome then [] else [field.text ++ ":home_not_checked"]) }

/-- The last loop of the selection, with the references counted so far. -/
def eligibilities (identity : BusinessIdentity) (limits : SiteGbpAlignmentLimits)
    (examined : List Examined) :
    ℕ → List Examined → Except AlignmentError (List CandidateEligibility)
  | _, [] => .ok []
  | count, entry :: rest =>
      let count := count + entry.candidate.evidenceIds.length
      if limits.maxEvidenceReferences < count then .error .limitExceeded
      else if entry.candidate.evidenceIds = [] then .error .valueError
      else (eligibilities identity limits examined count rest).map fun items =>
        eligibilityOf lib identity examined entry :: items

/-- The selection among candidates in the order of their ids. -/
def selectCandidates (facts : SiteBusinessFacts) (identity : BusinessIdentity)
    (limits : SiteGbpAlignmentLimits) : Except AlignmentError SiteBusinessSelection := do
  let examined ← examine lib facts identity
    (sortedBy SiteBusinessCandidate.candidateId facts.candidates)
  let eligibility ← eligibilities lib identity limits examined 0 examined
  return {
    sourceState := facts.sourceState
    eligibility
    inspections := [FieldKind.address, .businessName, .phone, .serviceArea].map
      (inspection facts) }

/-- `select_site_business_candidates`. -/
def selectSiteBusinessCandidates (facts : SiteBusinessFacts) (identity : BusinessIdentity)
    (limits : SiteGbpAlignmentLimits) : Except AlignmentError SiteBusinessSelection :=
  if facts.siteUrl ≠ identity.siteUrl then .error .bindingInvalid
  else
    match host lib identity.siteUrl with
    | .error e => .error e
    | .ok domain =>
        if domain ≠ identity.normalizedDomain then .error .bindingInvalid
        else if limits.maxCandidates < facts.candidates.length then .error .limitExceeded
        else selectCandidates lib facts identity limits

end Selection

section Facts

variable {lib : SelectionLibrary} {facts : SiteBusinessFacts} {identity : BusinessIdentity}
  {limits : SiteGbpAlignmentLimits} {selection : SiteBusinessSelection}

/-- A text pattern is never eligible. -/
theorem stateReason_textPattern {examined : List Examined} {entry : Examined}
    (h : entry.candidate.sourceKind = .textPattern) :
    (stateReason lib identity examined entry).1 = .unresolved := by
  rw [stateReason, if_pos h]

/-- A complete inspection saw the source, the home page and every required page. -/
structure Inspected (facts : SiteBusinessFacts) (field : FieldKind) : Prop where
  ready : facts.sourceState = .ready
  home : ∃ page ∈ facts.pages, page.pageType = .home
  pages : ∀ page ∈ facts.pages, page.pageType ∈ requiredPages field →
    pageComplete field page = true

theorem inspection_complete_iff {field : FieldKind} :
    (inspection facts field).complete = true ↔ Inspected facts field := by
  have hrequired : ∀ page, page ∈ facts.pages.filter
      (fun page => page.pageType ∈ requiredPages field) ↔
      page ∈ facts.pages ∧ page.pageType ∈ requiredPages field := by
    intro page
    rw [List.mem_filter, decide_eq_true_eq]
  have hhome : PageType.home ∈ requiredPages field := by
    cases field with
    | businessName => decide
    | address => decide
    | phone => decide
    | serviceArea => decide
    | openingHours => decide
  constructor
  · intro h
    rw [inspection, Bool.and_eq_true, Bool.and_eq_true, decide_eq_true_eq, List.any_eq_true,
      List.all_eq_true] at h
    obtain ⟨⟨hready, page, hpage, htype⟩, hall⟩ := h
    exact ⟨hready, ⟨page, ((hrequired page).1 hpage).1, of_decide_eq_true htype⟩,
      fun other hother hneeded => hall other ((hrequired other).2 ⟨hother, hneeded⟩)⟩
  · rintro ⟨hready, ⟨page, hpage, htype⟩, hall⟩
    rw [inspection, Bool.and_eq_true, Bool.and_eq_true, decide_eq_true_eq, List.any_eq_true,
      List.all_eq_true]
    refine ⟨⟨hready, page, (hrequired page).2 ⟨hpage, htype ▸ hhome⟩, decide_eq_true htype⟩, ?_⟩
    intro other hother
    exact hall other ((hrequired other).1 hother).1 ((hrequired other).1 hother).2

/-- What the selection promises: its records are those of candidates, no text pattern is
eligible, and a complete inspection saw every required page. -/
structure SelectionContract (facts : SiteBusinessFacts) (selection : SiteBusinessSelection) :
    Prop where
  eligible : ∀ item ∈ selection.eligibility, item.state = .eligible →
    ∃ candidate ∈ facts.candidates, candidate.candidateId = item.candidateId ∧
      candidate.sourceKind ≠ .textPattern
  inspected : ∀ item ∈ selection.inspections, item.complete = true → Inspected facts item.field

/-- The examined candidates are those of the facts. -/
theorem examine_candidates {candidates : List SiteBusinessCandidate} {examined : List Examined}
    (h : examine lib facts identity candidates = .ok examined) :
    examined.map Examined.candidate = candidates := by
  refine Report.Outcomes.map_eq_of_forall₂
    ((Report.Outcomes.forall₂_of_mapM_ok h).imp fun candidate entry hentry => ?_)
  split at hentry
  · cases hentry
  · obtain ⟨state, -, rfl⟩ := Report.Outcomes.ok_of_map hentry
    rfl

theorem mem_eligibilities {examined entries : List Examined} {count : ℕ}
    {items : List CandidateEligibility}
    (h : eligibilities lib identity limits examined count entries = .ok items)
    {item : CandidateEligibility} (hitem : item ∈ items) :
    ∃ entry ∈ entries, eligibilityOf lib identity examined entry = item := by
  induction entries generalizing count items with
  | nil =>
      cases h
      cases hitem
  | cons entry rest ih =>
      rw [eligibilities] at h
      split at h
      · cases h
      · split at h
        · cases h
        · obtain ⟨others, hothers, rfl⟩ := Report.Outcomes.ok_of_map h
          rcases List.mem_cons.1 hitem with rfl | hrest
          · exact ⟨entry, List.mem_cons_self, rfl⟩
          · obtain ⟨found, hfound, heq⟩ := ih hothers hrest
            exact ⟨found, List.mem_cons_of_mem _ hfound, heq⟩

theorem selectCandidates_contract
    (h : selectCandidates lib facts identity limits = .ok selection) :
    SelectionContract facts selection := by
  rw [selectCandidates] at h
  obtain ⟨examined, hexamined, h⟩ := Report.Outcomes.ok_of_bind h
  obtain ⟨items, hitems, h⟩ := Report.Outcomes.ok_of_bind h
  cases h
  constructor
  · intro item hitem heligible
    obtain ⟨entry, hentry, rfl⟩ := mem_eligibilities hitems hitem
    have hmem : entry.candidate ∈ examined.map Examined.candidate := List.mem_map_of_mem hentry
    rw [examine_candidates hexamined, mem_sortedBy] at hmem
    refine ⟨entry.candidate, hmem, rfl, fun htext => ?_⟩
    have hunresolved : (stateReason lib identity examined entry).1 = .unresolved :=
      stateReason_textPattern htext
    have habsurd : EligibilityState.unresolved = .eligible := hunresolved.symm.trans heligible
    cases habsurd
  · intro item hitem hcomplete
    obtain ⟨field, -, rfl⟩ := List.mem_map.1 hitem
    exact inspection_complete_iff.1 hcomplete

theorem select_contract
    (h : selectSiteBusinessCandidates lib facts identity limits = .ok selection) :
    SelectionContract facts selection := by
  rw [selectSiteBusinessCandidates] at h
  split at h
  · cases h
  · split at h
    · cases h
    · split at h
      · cases h
      · split at h
        · cases h
        · exact selectCandidates_contract h

end Facts

end SearchTrust.Alignment
