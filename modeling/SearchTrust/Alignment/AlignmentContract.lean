/-
The whole alignment: one result for each of the four fields, each with its contract, and
the evidence of the missing sides in the index.
-/
import SearchTrust.Alignment.BuildContract

namespace SearchTrust.Alignment

open SearchTrust.Order
open SearchTrust.Report.Outcomes

section Contract

variable (lib : AlignmentLibrary) (inp : AlignmentInput)

/-- What a finished alignment promises. -/
structure AlignmentContract (build : SiteGbpAlignmentBuild) : Prop where
  fields : build.alignment.fields.map SiteGbpFieldResult.field =
    [.address, .businessName, .phone, .serviceArea]
  results : ∀ r ∈ build.alignment.fields, ∃ covered, FieldContract lib inp r covered ∧
    ∀ id ∈ r.coverageEvidenceIds, ∃ item ∈ build.evidenceIndex, item.evidenceId = id
  /-- For a selection made from the facts. -/
  selected : selectSiteBusinessCandidates lib.toSelectionLibrary inp.facts inp.identity
      inp.limits = .ok inp.selection →
    ∀ r ∈ build.alignment.fields,
      (r.state = .mismatch → ∀ candidate ∈ eligibleOf inp r.field,
        candidate.sourceKind ≠ .textPattern) ∧
      (r.state.missingSides ≠ [] → Inspected inp.facts r.field)

end Contract

section Assembly

variable {lib : AlignmentLibrary} {inp : AlignmentInput} {outcomes : List FieldOutcome}
  {build : SiteGbpAlignmentBuild}

theorem FieldKind.text_injective : Function.Injective FieldKind.text := by
  intro a b h
  cases a <;> cases b <;> first | rfl | exact absurd h (by decide)

/-- Results of the four fields, sorted by the names of their fields. -/
theorem fields_sorted {results : List SiteGbpFieldResult}
    (h : results.map SiteGbpFieldResult.field = fieldNames) :
    (sortedBy (fun r => r.field.text) results).map SiteGbpFieldResult.field =
      [.address, .businessName, .phone, .serviceArea] := by
  have htexts : (sortedBy (fun r => r.field.text) results).map (fun r => r.field.text) =
      ["address", "business_name", "phone", "service_area"] := by
    have hsorted : ((sortedBy (fun r => r.field.text) results).map
        (fun r => r.field.text)).Pairwise (· ≤ ·) :=
      List.pairwise_map.2 (pairwise_sortedBy (fun r => r.field.text) results)
    have hperm : ((sortedBy (fun r => r.field.text) results).map
        (fun r => r.field.text)).Perm ["address", "business_name", "phone", "service_area"] := by
      have hnames : results.map (fun r => r.field.text) = fieldNames.map FieldKind.text := by
        rw [← h, List.map_map]
        rfl
      refine ((sortedBy_perm _ results).map _).trans ?_
      rw [hnames]
      decide
    exact hperm.eq_of_pairwise (fun _ _ _ _ => le_antisymm) hsorted (by decide)
  refine FieldKind.text_injective.list_map ?_
  rw [List.map_map]
  exact htexts

theorem mem_indexed {α : Type} {key : α → String} {items : List α} {identifier : String}
    (h : identifier ∈ items.map key) : ∃ item ∈ indexed key items, key item = identifier := by
  obtain ⟨item, hitem, rfl⟩ := List.mem_map.1 h
  cases hfound : items.reverse.find? (fun other => key other = key item) with
  | none =>
      have hnot := List.find?_eq_none.1 hfound item (List.mem_reverse.2 hitem)
      simp at hnot
  | some found =>
      have hkey := List.find?_some hfound
      rw [decide_eq_true_eq] at hkey
      exact ⟨found, List.mem_filterMap.2
        ⟨key item, mem_sortedSet.2 (List.mem_map_of_mem hitem), hfound⟩, hkey⟩

/-- The end of the build keeps the results and indexes their evidence. -/
theorem assemble_ok (h : assemble lib inp outcomes = .ok build) :
    build.alignment.fields =
        sortedBy (fun result => result.field.text) (outcomes.map Prod.fst) ∧
      ∀ outcome ∈ outcomes, ∀ entry ∈ outcome.2,
        ∃ item ∈ build.evidenceIndex, item.evidenceId = entry.1.evidenceId := by
  simp only [assemble] at h
  split at h
  · cases h
  split at h
  · cases h
  split at h
  · cases h
  cases h
  refine ⟨rfl, fun outcome houtcome entry hentry => mem_indexed ?_⟩
  rw [List.map_append, List.mem_append]
  refine .inr ?_
  have hcovered : entry ∈ outcomes.flatMap Prod.snd :=
    List.mem_flatMap.2 ⟨outcome, houtcome, hentry⟩
  obtain ⟨item, hitem, heq⟩ := mem_indexed
    (List.mem_map_of_mem (f := EvidenceItem.evidenceId)
      (List.mem_map_of_mem (f := Prod.fst) hcovered))
  exact List.mem_map.2 ⟨item, hitem, heq⟩

/-- The eligible candidates of a field, for a selection made from the facts. -/
theorem eligibleOf_not_textPattern {field : FieldKind}
    (h : SelectionContract inp.facts inp.selection) :
    ∀ candidate ∈ eligibleOf inp field, candidate.sourceKind ≠ .textPattern := by
  intro candidate hcandidate
  obtain ⟨item, hitem, hfound⟩ := List.mem_filterMap.1 hcandidate
  obtain ⟨hmem, hstate⟩ := List.mem_filter.1 hitem
  simp only [Bool.and_eq_true, decide_eq_true_eq] at hstate
  obtain ⟨known, hknown, hid, hkind⟩ := h.eligible item hmem hstate.2
  have hsame : inp.facts.candidates.find?
      (fun other => other.candidateId = known.candidateId) = some known :=
    find?_key_eq inp.facts.nodup_candidateIds hknown
  rw [candidateOf, ← hid, hsame, Option.some.injEq] at hfound
  rw [← hfound]
  exact hkind

/-- Every finished alignment keeps its contract. -/
theorem build_site_gbp_alignment_keeps_contract
    (h : buildSiteGbpAlignment lib inp = .ok build) : AlignmentContract lib inp build := by
  rw [buildSiteGbpAlignment] at h
  obtain ⟨-, -, h⟩ := ok_of_bind h
  obtain ⟨-, -, h⟩ := ok_of_bind h
  obtain ⟨outcomes, houtcomes, h⟩ := ok_of_bind h
  obtain ⟨hfields, hindex⟩ := assemble_ok h
  have hcontracts := (forall₂_of_mapM_ok houtcomes).imp fun field outcome hfield =>
    alignField_contract hfield
  have hnames : (outcomes.map Prod.fst).map SiteGbpFieldResult.field = fieldNames := by
    rw [List.map_map]
    exact map_eq_of_forall₂ (hcontracts.imp fun field outcome hfield => hfield.1)
  have hresult : ∀ r ∈ build.alignment.fields, ∃ outcome ∈ outcomes, outcome.1 = r ∧
      FieldContract lib inp outcome.1 outcome.2 := by
    intro r hr
    rw [hfields, mem_sortedBy] at hr
    obtain ⟨outcome, houtcome, rfl⟩ := List.mem_map.1 hr
    obtain ⟨field, -, -, hcontract⟩ := exists_left_of_mem hcontracts houtcome
    exact ⟨outcome, houtcome, rfl, hcontract⟩
  refine ⟨?_, ?_, ?_⟩
  · rw [hfields]
    exact fields_sorted hnames
  · intro r hr
    obtain ⟨outcome, houtcome, rfl, hcontract⟩ := hresult r hr
    refine ⟨outcome.2, hcontract, fun id hid => ?_⟩
    by_cases hsides : outcome.1.state.missingSides = []
    · rw [(hcontract.present hsides).1] at hid
      cases hid
    · rw [(hcontract.missing hsides).ids.mem_iff] at hid
      obtain ⟨entry, hentry, rfl⟩ := List.mem_map.1 hid
      exact hindex outcome houtcome entry hentry
  · intro hselect r hr
    have hselection := select_contract hselect
    obtain ⟨outcome, -, rfl, hcontract⟩ := hresult r hr
    refine ⟨fun _ => eligibleOf_not_textPattern hselection, fun hsides => ?_⟩
    obtain ⟨item, hitem, hcomplete, -⟩ := (hcontract.missing hsides).complete
    rw [inspectionOf] at hitem
    have hmem := List.mem_of_find?_eq_some hitem
    have hfield := List.find?_some hitem
    rw [decide_eq_true_eq] at hfield
    rw [← hfield]
    exact hselection.inspected item (List.mem_reverse.1 hmem) hcomplete

end Assembly

section Samples

/-- Lower-case texts, and links that are hosts. -/
def sampleAlignmentLibrary : AlignmentLibrary where
  nfkc := id
  casefold := id
  isWord := Char.isAlphanum
  isDecimal := Char.isDigit
  parsePhone _ _ := none
  tagAddress _ := none
  urlsplit value := some ⟨"https", some (.ofList (value.toList.drop 8))⟩
  addressMatches _ _ _ := []
  uuidText snapshotId := toString snapshotId
  stableKey context := "key:" ++ ",".intercalate context
  selectorPath selector := selector.recordKey
  evidenceId observation := "ev:" ++ observation.selector.recordKey
  identityDigest _ := "identity"
  outputBytes _ := 4000

def sampleMarket : TargetMarket := { displayName := "austin", countryCode := "US" }

def sampleIdentity : BusinessIdentity :=
  { businessName := "shop"
    siteUrl := "https://a.example"
    normalizedDomain := "a.example"
    operatingModel := some .hybrid
    primaryLocation := sampleMarket
    publicGbpUrl := some "https://maps.example" }

/-- A candidate of the home page. -/
def sampleCandidate (identifier : String) (field : FieldKind) (kind : SourceKind)
    (value : String) : SiteBusinessCandidate :=
  { candidateId := identifier
    field
    sourceKind := kind
    scalarValue := some value
    requestedUrl := "https://a.example"
    finalUrl := "https://a.example"
    evidenceIds := ["ev:" ++ identifier]
    shape := fun h => absurd h (Option.some_ne_none value) }

/-- Two phones in the text of the page, and a labelled service area of one dash. -/
def sampleFacts : SiteBusinessFacts :=
  { textPatterns := true
    caseId := 1
    siteUrl := "https://a.example"
    sourcePayloadChecksum := some "site"
    sourceState := .ready
    pages := [{ requestedUrl := "https://a.example", pageType := .home, status := .parsed }]
    candidates := [sampleCandidate "a" .phone .textPattern "512 555 0100",
      sampleCandidate "b" .phone .textPattern "512 555 0199",
      sampleCandidate "c" .serviceArea .domLabel "-"]
    evidenceIndex := []
    sourceTraces := []
    nodup_candidateIds := by decide }

/-- The evidence of a field of the profile. -/
def sampleGbpItem (identifier value : String) : EvidenceItem :=
  { evidenceId := identifier
    snapshotId := 3
    sourceType := .gbp
    url := none
    fieldPath := none
    originalValue := value
    normalizedValue := value
    collectedAt := 0
    confidence := "high"
    healthStatus := "healthy"
    limitations := [] }

def sampleGbpTrace (identifier field : String) : EvidenceSourceTrace :=
  ⟨identifier, 3, ⟨"public_gbp_field", identifier, [], field⟩, []⟩

/-- The profile has one of the phones, and a service area of one dot. -/
def sampleEvidence : EvidenceBuildResult :=
  { evidenceIndex := [sampleGbpItem "ev:p" "512 555 0100", sampleGbpItem "ev:s" "."]
    sourceTraces := [sampleGbpTrace "ev:p" "phone", sampleGbpTrace "ev:s" "service_areas"]
    sourceSummaries := [⟨2, true⟩, ⟨3, true⟩] }

def sampleSelection : SiteBusinessSelection :=
  match selectSiteBusinessCandidates sampleAlignmentLibrary.toSelectionLibrary sampleFacts
      sampleIdentity {} with
  | .ok selection => selection
  | .error _ => ⟨.ready, [], []⟩

def sampleAlignmentInput : AlignmentInput :=
  { context :=
      { caseId := 1
        siteUrl := "https://a.example"
        targetMarket := sampleMarket
        customerPublicGbp := some ⟨"https://maps.example", "reference"⟩ }
    identity := sampleIdentity
    facts := sampleFacts
    selection := sampleSelection
    siteSource := some
      { snapshotId := 2
        payloadChecksum := "site"
        completedAt := 0
        canonicalHost := "a.example"
        pages := [⟨.home⟩]
        selectedPages := [] }
    publicSource := some
      { snapshotId := 3
        payloadChecksum := "profile"
        completedAt := 0
        subjectReferenceChecksum := "reference"
        observedPublicGbpUrl := none
        observed := fun field => field = .phone || field = .serviceArea }
    evidence := sampleEvidence }

/-- The fields of the sample's alignment. -/
def sampleFields : List SiteGbpFieldResult :=
  match buildSiteGbpAlignment sampleAlignmentLibrary sampleAlignmentInput with
  | .ok build => build.alignment.fields
  | .error _ => []

set_option maxRecDepth 20000 in
/-- The alignment of the sample keeps its contract. -/
theorem build_site_gbp_alignment_keeps_contract_sample :
    ∃ build, buildSiteGbpAlignment sampleAlignmentLibrary sampleAlignmentInput = .ok build ∧
      build.alignment.fields.map SiteGbpFieldResult.state =
        [.notChecked, .bothMissing, .semanticMatch, .exactMatch] ∧
      selectSiteBusinessCandidates sampleAlignmentLibrary.toSelectionLibrary sampleFacts
        sampleIdentity {} = .ok sampleSelection ∧
      AlignmentContract sampleAlignmentLibrary sampleAlignmentInput build := by
  have hstates : sampleFields.map SiteGbpFieldResult.state =
      [.notChecked, .bothMissing, .semanticMatch, .exactMatch] := by with_unfolding_all decide
  have hselected : (selectSiteBusinessCandidates sampleAlignmentLibrary.toSelectionLibrary
      sampleFacts sampleIdentity {}).isOk = true := by with_unfolding_all decide
  cases hbuild : buildSiteGbpAlignment sampleAlignmentLibrary sampleAlignmentInput with
  | error e =>
      rw [sampleFields, hbuild] at hstates
      cases hstates
  | ok build =>
      rw [sampleFields, hbuild] at hstates
      refine ⟨build, rfl, hstates, ?_, build_site_gbp_alignment_keeps_contract hbuild⟩
      rw [sampleSelection]
      split
      · assumption
      · next e herror =>
        rw [herror] at hselected
        cases hselected

set_option maxRecDepth 20000 in
/-- A dash and a dot are reported to be the same service area, without a valid value among
them; and a phone of the text that the profile lacks is compared, but neither matched nor
unmatched. -/
theorem site_gbp_alignment_matches_nothing :
    (∃ r ∈ sampleFields, r.state = .exactMatch ∧
        ∀ p ∈ r.matchedPairs, p.siteValue.valid = false ∧ p.gbpValue.valid = false) ∧
      ∃ r ∈ sampleFields, r.state = .semanticMatch ∧ "ev:b" ∈ r.siteEvidenceIds ∧
        "ev:b" ∉ pairIds AlignmentPair.siteEvidenceIds r.matchedPairs ∧
        "ev:b" ∉ r.unmatchedSiteIds := by
  with_unfolding_all decide

end Samples

end SearchTrust.Alignment
