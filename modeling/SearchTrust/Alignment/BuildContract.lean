/-
What the alignment promises about each field: a match has a valid pair, a mismatch has
comparable values and no match, the compared evidence is split into what matched and
what did not, and a missing side has its own evidence.
-/
import SearchTrust.Alignment.Build

namespace SearchTrust.Alignment

open SearchTrust.Order
open SearchTrust.Report.Outcomes

/-- The states that report a match. -/
def FieldState.reportsMatch : FieldState → Bool
  | exactMatch | semanticMatch | partialMatch => true
  | _ => false

/-- The states of a comparison. -/
def FieldState.isCompared : FieldState → Bool
  | exactMatch | semanticMatch | partialMatch | mismatch => true
  | _ => false

/-- The sides that a state says are missing. -/
def FieldState.missingSides : FieldState → List Side
  | siteMissing => [.site]
  | gbpMissing => [.gbp]
  | bothMissing => [.site, .gbp]
  | _ => []

section Contract

variable (lib : AlignmentLibrary) (inp : AlignmentInput)

/-- How a candidate compares with a value of the profile.  Service areas compare by their
keys, where both have one. -/
def comparison (field : FieldKind) (candidate : SiteBusinessCandidate) (value : String) :
    ValueComparison :=
  match field with
  | .serviceArea =>
      let left := serviceArea lib inp candidate.scalar
      let right := serviceArea lib inp value
      { state :=
          if !left.valid || !right.valid then .incomparable
          else if left.normalizedKey = right.normalizedKey then .exactMatch
          else .mismatch
        left
        right }
  | field => pairComparison lib inp field candidate value

/-- The values that the profile was observed to have are these. -/
def Observed (field : FieldKind) (values : List (String × String)) : Prop :=
  ∃ gbp, inp.publicSource = some gbp ∧ profileValues inp gbp field = .ok values

/-- Each side has a service area that normalises to a key. -/
def ServiceKeys : Prop :=
  ∃ values, Observed inp .serviceArea values ∧
    (∃ candidate ∈ eligibleOf inp .serviceArea,
      (serviceArea lib inp candidate.scalar).valid = true) ∧
    ∃ entry ∈ values, (serviceArea lib inp entry.1).valid = true

/-- The ids of one side of a comparison are split into those that matched and those that
did not. -/
structure Partition (compared matched unmatched : List String) : Prop where
  covers : ∀ id, id ∈ compared ↔ id ∈ matched ∨ id ∈ unmatched
  disjoint : ∀ id ∈ unmatched, id ∉ matched

/-- A missing state: what was inspected, and the evidence of the sides that are missing. -/
structure MissingEvidence (r : SiteGbpFieldResult)
    (covered : List (EvidenceItem × EvidenceSourceTrace)) : Prop where
  complete : ∃ inspection, inspectionOf inp r.field = some inspection ∧
    inspection.complete = true ∧
    ∃ site gbp, inp.siteSource = some site ∧ inp.publicSource = some gbp ∧
      r.state.missingSides.mapM (fun side => coverage lib inp side r.field site gbp inspection) =
        .ok covered
  sides : ∃ values, Observed inp r.field values ∧
    (Side.site ∈ r.state.missingSides ↔ siteValues lib inp r.field = []) ∧
    (Side.gbp ∈ r.state.missingSides ↔ comparedValues lib inp r.field values = [])
  ids : r.coverageEvidenceIds.Perm (covered.map fun entry => entry.1.evidenceId)

/-- What holds of the result of a field and its evidence. -/
structure FieldContract (r : SiteGbpFieldResult)
    (covered : List (EvidenceItem × EvidenceSourceTrace)) : Prop where
  matched : r.state.reportsMatch = true → (r.field = .serviceArea → ServiceKeys lib inp) →
    ∃ p ∈ r.matchedPairs, p.siteValue.valid = true ∧ p.gbpValue.valid = true
  mismatch : r.state = .mismatch → (r.field = .serviceArea → ServiceKeys lib inp) →
    ∃ values, Observed inp r.field values ∧
      (∃ candidate ∈ eligibleOf inp r.field, ∃ entry ∈ values,
        (comparison lib inp r.field candidate entry.1).state ≠ .incomparable ∧
          (comparison lib inp r.field candidate entry.1).left.valid = true ∧
          (comparison lib inp r.field candidate entry.1).right.valid = true) ∧
      ∀ candidate ∈ eligibleOf inp r.field, ∀ entry ∈ values,
        (comparison lib inp r.field candidate entry.1).state.isMatch = false
  notTextual : r.state = .mismatch → eligibleOf inp r.field ≠ [] ∧ textOnly inp r.field = false
  siteIds : r.state.isCompared = true → textOnly inp r.field = false →
    Partition r.siteEvidenceIds (pairIds AlignmentPair.siteEvidenceIds r.matchedPairs)
      r.unmatchedSiteIds
  gbpIds : r.state.isCompared = true → textOnly inp r.field = false →
    Partition r.gbpEvidenceIds (pairIds AlignmentPair.gbpEvidenceIds r.matchedPairs)
      r.unmatchedGbpIds
  missing : r.state.missingSides ≠ [] → MissingEvidence lib inp r covered
  present : r.state.missingSides = [] → r.coverageEvidenceIds = [] ∧ covered = []

end Contract

section Results

variable {lib : AlignmentLibrary} {inp : AlignmentInput} {field : FieldKind}

/-- A result that compares nothing. -/
theorem contract_of_quiet {r : SiteGbpFieldResult}
    (h : r.state = .notChecked ∨ r.state = .notApplicable) (hids : r.coverageEvidenceIds = []) :
    FieldContract lib inp r [] := by
  have hstate : r.state.reportsMatch = false ∧ r.state ≠ .mismatch ∧
      r.state.isCompared = false ∧ r.state.missingSides = [] := by
    rcases h with h | h
    · rw [h]
      exact ⟨rfl, FieldState.noConfusion, rfl, rfl⟩
    · rw [h]
      exact ⟨rfl, FieldState.noConfusion, rfl, rfl⟩
  obtain ⟨hmatch, hmismatch, hcompared, hsides⟩ := hstate
  exact
    { matched := fun hreport => by rw [hmatch] at hreport; cases hreport
      mismatch := fun heq => absurd heq hmismatch
      notTextual := fun heq => absurd heq hmismatch
      siteIds := fun hreport => by rw [hcompared] at hreport; cases hreport
      gbpIds := fun hreport => by rw [hcompared] at hreport; cases hreport
      missing := fun hne => absurd hsides hne
      present := fun _ => ⟨hids, rfl⟩ }

theorem notChecked_contract (reason : NotCheckedReason) (limitations : List String) :
    FieldContract lib inp (notChecked inp field reason limitations) [] :=
  contract_of_quiet (.inl rfl) rfl

/-- The values of a text that matched are valid. -/
theorem textPair_valid {candidate : SiteBusinessCandidate} {entry : String × String}
    {found : AlignmentPair × String} (h : textPair lib inp field candidate entry = some found) :
    found.1.siteValue.valid = true ∧ found.1.gbpValue.valid = true := by
  rw [textPair, Option.map_eq_some_iff] at h
  obtain ⟨key, -, rfl⟩ := h
  exact ⟨rfl, rfl⟩

/-- Every match of texts has valid values. -/
theorem textAlignment_contract {candidates : List SiteBusinessCandidate}
    {values : List (String × String)} {r : SiteGbpFieldResult} (htext : textOnly inp field = true)
    (h : textAlignment lib inp field candidates values = .ok r) :
    r.field = field ∧ FieldContract lib inp r [] := by
  rw [textAlignment] at h
  split at h
  · cases h
  · cases h
    refine ⟨rfl, ?_⟩
    by_cases hfound : (candidates.flatMap fun candidate =>
        values.filterMap (textPair lib inp field candidate)) = []
    · refine contract_of_quiet (.inl ?_) rfl
      simp only [SiteGbpFieldResult.canonical, hfound, ↓reduceIte]
    · have hmatched : ∃ p ∈ (candidates.flatMap fun candidate =>
          values.filterMap (textPair lib inp field candidate)).map Prod.fst,
          p.siteValue.valid = true ∧ p.gbpValue.valid = true := by
        obtain ⟨found, hmem⟩ := List.exists_mem_of_ne_nil _ hfound
        obtain ⟨candidate, -, hcandidate⟩ := List.mem_flatMap.1 hmem
        obtain ⟨entry, -, hentry⟩ := List.mem_filterMap.1 hcandidate
        exact ⟨found.1, List.mem_map_of_mem hmem, textPair_valid hentry⟩
      have hstate : ∀ (b : Bool),
          (if b then FieldState.semanticMatch else .partialMatch) ≠ .mismatch ∧
            (if b then FieldState.semanticMatch else .partialMatch).missingSides = [] := by
        intro b
        cases b with
        | true => exact ⟨FieldState.noConfusion, rfl⟩
        | false => exact ⟨FieldState.noConfusion, rfl⟩
      have hcontradiction : ∀ {P : Prop}, textOnly inp field = false → P := by
        intro P hnot
        rw [htext] at hnot
        cases hnot
      refine ⟨fun _ _ => hmatched, ?_, ?_, fun _ hnot => hcontradiction hnot,
        fun _ hnot => hcontradiction hnot, ?_, fun _ => ⟨rfl, rfl⟩⟩
      · intro heq
        simp only [SiteGbpFieldResult.canonical, hfound, ↓reduceIte] at heq
        exact absurd heq (hstate _).1
      · intro heq
        simp only [SiteGbpFieldResult.canonical, hfound, ↓reduceIte] at heq
        exact absurd heq (hstate _).1
      · intro hne
        simp only [SiteGbpFieldResult.canonical, hfound, ↓reduceIte] at hne
        exact absurd (hstate _).2 hne

/-- What matched and what did not, on both sides. -/
theorem comparedResult_partition {state : FieldState} {candidates : List SiteBusinessCandidate}
    {values : List (String × String)} {matches_ incomparable : List AlignmentPair}
    (hsite : ∀ p ∈ matches_, ∀ id ∈ p.siteEvidenceIds,
      id ∈ candidates.flatMap SiteBusinessCandidate.evidenceIds)
    (hgbp : ∀ p ∈ matches_, ∀ id ∈ p.gbpEvidenceIds, id ∈ values.map Prod.snd) :
    let r := comparedResult inp field state candidates values matches_ incomparable
    Partition r.siteEvidenceIds (pairIds AlignmentPair.siteEvidenceIds r.matchedPairs)
        r.unmatchedSiteIds ∧
      Partition r.gbpEvidenceIds (pairIds AlignmentPair.gbpEvidenceIds r.matchedPairs)
        r.unmatchedGbpIds := by
  have hpart : ∀ (compared matched : List String), (∀ id ∈ matched, id ∈ compared) →
      Partition (sortedSet compared) matched (sortedSet (compared.filter (· ∉ matched))) := by
    intro compared matched hsub
    constructor
    · intro id
      rw [mem_sortedSet, mem_sortedSet, List.mem_filter, decide_eq_true_eq]
      constructor
      · intro hmem
        by_cases hmatched : id ∈ matched
        · exact .inl hmatched
        · exact .inr ⟨hmem, hmatched⟩
      · rintro (hmatched | ⟨hmem, -⟩)
        · exact hsub id hmatched
        · exact hmem
    · intro id hid
      rw [mem_sortedSet, List.mem_filter, decide_eq_true_eq] at hid
      exact hid.2
  constructor
  · refine hpart _ _ fun id hid => ?_
    obtain ⟨p, hp, hmem⟩ := List.mem_flatMap.1 hid
    exact hsite p hp id hmem
  · refine hpart _ _ fun id hid => ?_
    obtain ⟨p, hp, hmem⟩ := List.mem_flatMap.1 hid
    exact hgbp p hp id hmem

theorem observed_unique {values others : List (String × String)}
    (h : Observed inp field values) (hother : Observed inp field others) : values = others := by
  obtain ⟨gbp, hgbp, hvalues⟩ := h
  obtain ⟨gbp', hgbp', hothers⟩ := hother
  rw [hgbp, Option.some.injEq] at hgbp'
  subst hgbp'
  exact Except.ok.inj (hvalues.symm.trans hothers)

/-- The key of a service area, as the set comparison takes it. -/
def areaKey (lib : AlignmentLibrary) (inp : AlignmentInput) (value : String) : String :=
  serviceKey lib.toComparisonLibrary value (country inp) inp.identity.primaryLocation.regionCode

theorem serviceArea_valid_iff {value : String} :
    (serviceArea lib inp value).valid = true ↔ areaKey lib inp value ≠ "" :=
  normalizeServiceArea_valid_iff

theorem serviceArea_key {value : String} :
    (serviceArea lib inp value).normalizedKey = orNone (areaKey lib inp value) := by
  simp only [serviceArea, normalizeServiceArea, areaKey]

theorem orNone_inj {a b : String} (ha : a ≠ "") (h : orNone a = orNone b) : a = b := by
  rw [orNone, if_neg ha, orNone] at h
  split at h
  · cases h
  · exact Option.some.inj h

/-- Two keyed areas that compare as equal have one key. -/
theorem comparison_serviceArea_isMatch {candidate : SiteBusinessCandidate} {value : String}
    (h : (comparison lib inp .serviceArea candidate value).state.isMatch = true) :
    areaKey lib inp candidate.scalar ≠ "" ∧
      areaKey lib inp candidate.scalar = areaKey lib inp value := by
  rw [comparison] at h
  by_cases hleft : (serviceArea lib inp candidate.scalar).valid = true
  · by_cases hkeys : (serviceArea lib inp candidate.scalar).normalizedKey =
        (serviceArea lib inp value).normalizedKey
    · have hne := serviceArea_valid_iff.1 hleft
      rw [serviceArea_key, serviceArea_key] at hkeys
      exact ⟨hne, orNone_inj hne hkeys⟩
    · simp only [hkeys, ↓reduceIte] at h
      split at h
      · cases h
      · cases h
  · have hnot : (!(serviceArea lib inp candidate.scalar).valid ||
        !(serviceArea lib inp value).valid) = true := by simp [hleft]
    simp only [hnot, ↓reduceIte] at h
    cases h

/-- The state of the sets of keys. -/
theorem compareServiceAreas_state {site gbp : List String} {countryCode : String}
    {region : Option String} :
    let c := compareServiceAreas lib.toComparisonLibrary site gbp countryCode region
    let left := serviceKeys lib.toComparisonLibrary site countryCode region
    let right := serviceKeys lib.toComparisonLibrary gbp countryCode region
    (c.state = .exactMatch ∧ left = right) ∨
      (c.state = .partialMatch ∧ ∃ key ∈ left, key ∈ right) ∨
      (c.state = .mismatch ∧ left ≠ right ∧ ∀ key ∈ left, key ∉ right) := by
  intro c left right
  have hstate : c.state = if left = right then .exactMatch
      else if left.filter (· ∈ right) ≠ [] then .partialMatch else .mismatch := rfl
  rw [hstate]
  by_cases heq : left = right
  · rw [if_pos heq]
    exact .inl ⟨rfl, heq⟩
  · rw [if_neg heq]
    by_cases hmatched : left.filter (· ∈ right) = []
    · rw [if_neg (not_not.2 hmatched)]
      refine .inr (.inr ⟨rfl, heq, fun key hleft hright => ?_⟩)
      have hmem : key ∈ left.filter (· ∈ right) :=
        List.mem_filter.2 ⟨hleft, decide_eq_true hright⟩
      rw [hmatched] at hmem
      cases hmem
    · rw [if_pos hmatched]
      obtain ⟨key, hkey⟩ := List.exists_mem_of_ne_nil _ hmatched
      rw [List.mem_filter, decide_eq_true_eq] at hkey
      exact .inr (.inl ⟨rfl, key, hkey⟩)

theorem mem_siteKeys {candidates : List SiteBusinessCandidate} {key : String} :
    key ∈ serviceKeys lib.toComparisonLibrary (candidates.map SiteBusinessCandidate.scalar)
        (country inp) inp.identity.primaryLocation.regionCode ↔
      key ≠ "" ∧ ∃ candidate ∈ candidates, areaKey lib inp candidate.scalar = key := by
  rw [mem_serviceKeys]
  simp only [List.mem_map, exists_exists_and_eq_and]
  exact Iff.rfl

theorem mem_profileKeys {values : List (String × String)} {key : String} :
    key ∈ serviceKeys lib.toComparisonLibrary (values.map Prod.fst) (country inp)
        inp.identity.primaryLocation.regionCode ↔
      key ≠ "" ∧ ∃ entry ∈ values, areaKey lib inp entry.1 = key := by
  rw [mem_serviceKeys]
  constructor
  · rintro ⟨hne, value, hvalue, hkey⟩
    obtain ⟨entry, hentry, rfl⟩ := List.mem_map.1 hvalue
    exact ⟨hne, entry, hentry, hkey⟩
  · rintro ⟨hne, entry, hentry, hkey⟩
    exact ⟨hne, entry.1, List.mem_map_of_mem hentry, hkey⟩

/-- A key of both sides gives a valid pair. -/
theorem servicePairs_valid {candidates : List SiteBusinessCandidate}
    {values : List (String × String)} {candidate : SiteBusinessCandidate}
    {entry : String × String} (hcandidate : candidate ∈ candidates) (hentry : entry ∈ values)
    (hne : areaKey lib inp candidate.scalar ≠ "")
    (heq : areaKey lib inp candidate.scalar = areaKey lib inp entry.1) :
    ∃ p ∈ servicePairs lib inp candidates values,
      p.siteValue.valid = true ∧ p.gbpValue.valid = true := by
  have hkeys : (serviceArea lib inp candidate.scalar).normalizedKey =
      (serviceArea lib inp entry.1).normalizedKey := by
    rw [serviceArea_key, serviceArea_key, heq]
  refine ⟨_, List.mem_flatMap.2 ⟨candidate, hcandidate,
    List.mem_filterMap.2 ⟨entry, hentry, if_pos hkeys⟩⟩, ?_, ?_⟩
  · exact serviceArea_valid_iff.2 hne
  · exact serviceArea_valid_iff.2 (heq ▸ hne)

theorem servicePairs_ids {candidates : List SiteBusinessCandidate}
    {values : List (String × String)} {p : AlignmentPair}
    (hp : p ∈ servicePairs lib inp candidates values) :
    (∀ id ∈ p.siteEvidenceIds, id ∈ candidates.flatMap SiteBusinessCandidate.evidenceIds) ∧
      ∀ id ∈ p.gbpEvidenceIds, id ∈ values.map Prod.snd := by
  obtain ⟨candidate, hcandidate, hp⟩ := List.mem_flatMap.1 hp
  obtain ⟨entry, hentry, hp⟩ := List.mem_filterMap.1 hp
  split at hp
  · cases hp
    constructor
    · intro id hid
      exact List.mem_flatMap.2 ⟨candidate, hcandidate, mem_sortedSet.1 hid⟩
    · intro id hid
      rw [List.mem_singleton.1 hid]
      exact List.mem_map_of_mem hentry
  · cases hp

theorem fieldState_missingSides (state : ServiceAreaState) :
    state.fieldState.missingSides = [] := by
  cases state with
  | exactMatch => rfl
  | partialMatch => rfl
  | mismatch => rfl

/-- A service area of the website, one of the profile and one key give a valid pair. -/
theorem serviceKeys_pair {candidates : List SiteBusinessCandidate}
    {values : List (String × String)} {key : String}
    (hsite : key ∈ serviceKeys lib.toComparisonLibrary
      (candidates.map SiteBusinessCandidate.scalar) (country inp)
      inp.identity.primaryLocation.regionCode)
    (hgbp : key ∈ serviceKeys lib.toComparisonLibrary (values.map Prod.fst) (country inp)
      inp.identity.primaryLocation.regionCode) :
    ∃ p ∈ servicePairs lib inp candidates values,
      p.siteValue.valid = true ∧ p.gbpValue.valid = true := by
  obtain ⟨hne, candidate, hcandidate, hkey⟩ := mem_siteKeys.1 hsite
  obtain ⟨-, entry, hentry, hother⟩ := mem_profileKeys.1 hgbp
  refine servicePairs_valid hcandidate hentry ?_ ?_
  · rw [hkey]
    exact hne
  · rw [hkey, hother]

/-- The result of the service areas. -/
theorem serviceResult_contract {values : List (String × String)}
    (hvalues : Observed inp .serviceArea values)
    (heligible : eligibleOf inp .serviceArea ≠ []) (htext : textOnly inp .serviceArea = false) :
    FieldContract lib inp (serviceResult lib inp (eligibleOf inp .serviceArea) values) [] := by
  have hcases : ∀ (state : ServiceAreaState), (compareServiceAreas lib.toComparisonLibrary
      ((eligibleOf inp .serviceArea).map SiteBusinessCandidate.scalar) (values.map Prod.fst)
      (country inp) inp.identity.primaryLocation.regionCode).state = state →
      (serviceResult lib inp (eligibleOf inp .serviceArea) values).state =
        state.fieldState := by
    rintro state rfl
    rfl
  have hstates := @compareServiceAreas_state lib
    ((eligibleOf inp .serviceArea).map SiteBusinessCandidate.scalar) (values.map Prod.fst)
    (country inp) inp.identity.primaryLocation.regionCode
  have hsides : (serviceResult lib inp (eligibleOf inp .serviceArea) values).state.missingSides =
      [] := fieldState_missingSides _
  have hpartition := @comparedResult_partition inp .serviceArea
    (serviceResult lib inp (eligibleOf inp .serviceArea) values).state
    (eligibleOf inp .serviceArea) values
    (servicePairs lib inp (eligibleOf inp .serviceArea) values) []
    (fun p hp => (servicePairs_ids hp).1) (fun p hp => (servicePairs_ids hp).2)
  have hkeyed : ServiceKeys lib inp → ∃ candidate ∈ eligibleOf inp .serviceArea,
      ∃ entry ∈ values, (serviceArea lib inp candidate.scalar).valid = true ∧
        (serviceArea lib inp entry.1).valid = true := by
    rintro ⟨others, hothers, ⟨candidate, hcandidate, hleft⟩, entry, hentry, hright⟩
    rw [observed_unique hothers hvalues] at hentry
    exact ⟨candidate, hcandidate, entry, hentry, hleft, hright⟩
  refine ⟨?_, ?_, fun _ => ⟨heligible, htext⟩, fun _ _ => hpartition.1, fun _ _ => hpartition.2,
    fun hne => absurd hsides hne, fun _ => ⟨rfl, rfl⟩⟩
  · intro hreport hkeys
    obtain ⟨candidate, hcandidate, entry, -, hleft, -⟩ := hkeyed (hkeys rfl)
    rcases hstates with ⟨-, heq⟩ | ⟨-, key, hsite, hgbp⟩ | ⟨hstate, -, -⟩
    · have hsite := mem_siteKeys.2 ⟨serviceArea_valid_iff.1 hleft, candidate, hcandidate, rfl⟩
      refine serviceKeys_pair hsite ?_
      rw [← heq]
      exact hsite
    · exact serviceKeys_pair hsite hgbp
    · rw [hcases _ hstate] at hreport
      cases hreport
  · intro hmismatch hkeys
    rcases hstates with ⟨hstate, -⟩ | ⟨hstate, -⟩ | ⟨-, -, hdisjoint⟩
    · rw [hcases _ hstate] at hmismatch
      cases hmismatch
    · rw [hcases _ hstate] at hmismatch
      cases hmismatch
    · have hdiffer : ∀ candidate ∈ eligibleOf inp .serviceArea, ∀ entry ∈ values,
          areaKey lib inp candidate.scalar ≠ "" →
            areaKey lib inp candidate.scalar ≠ areaKey lib inp entry.1 := by
        intro candidate hcandidate entry hentry hne heq
        refine hdisjoint _ (mem_siteKeys.2 ⟨hne, candidate, hcandidate, rfl⟩) ?_
        exact mem_profileKeys.2 ⟨hne, entry, hentry, heq.symm⟩
      obtain ⟨candidate, hcandidate, entry, hentry, hleft, hright⟩ := hkeyed (hkeys rfl)
      refine ⟨values, hvalues, ⟨candidate, hcandidate, entry, hentry, ?_, hleft, hright⟩, ?_⟩
      · intro hstate
        have hvalid : (!(serviceArea lib inp candidate.scalar).valid ||
            !(serviceArea lib inp entry.1).valid) = false := by simp [hleft, hright]
        simp only [serviceResult, comparedResult, SiteGbpFieldResult.canonical, comparison,
          hvalid, Bool.false_eq_true, ↓reduceIte] at hstate
        split at hstate
        · cases hstate
        · cases hstate
      · intro candidate hcandidate entry hentry
        rw [← Bool.not_eq_true]
        intro hmatch
        obtain ⟨hne, heq⟩ := comparison_serviceArea_isMatch hmatch
        exact hdiffer candidate hcandidate entry hentry hne heq

/-- The pairs of names, addresses and phones carry what they compare. -/
theorem mem_allPairs {candidates : List SiteBusinessCandidate} {values : List (String × String)}
    {p : AlignmentPair} (hp : p ∈ allPairs lib inp field candidates values) :
    ∃ candidate ∈ candidates, ∃ entry ∈ values, pair lib inp field candidate entry = p := by
  obtain ⟨candidate, hcandidate, hp⟩ := List.mem_flatMap.1 hp
  obtain ⟨entry, hentry, rfl⟩ := List.mem_map.1 hp
  exact ⟨candidate, hcandidate, entry, hentry, rfl⟩

theorem pair_mem_allPairs {candidates : List SiteBusinessCandidate}
    {values : List (String × String)} {candidate : SiteBusinessCandidate}
    {entry : String × String} (hcandidate : candidate ∈ candidates) (hentry : entry ∈ values) :
    pair lib inp field candidate entry ∈ allPairs lib inp field candidates values :=
  List.mem_flatMap.2 ⟨candidate, hcandidate, List.mem_map_of_mem hentry⟩

theorem allPairs_ids {candidates : List SiteBusinessCandidate} {values : List (String × String)}
    {p : AlignmentPair} (hp : p ∈ allPairs lib inp field candidates values) :
    (∀ id ∈ p.siteEvidenceIds, id ∈ candidates.flatMap SiteBusinessCandidate.evidenceIds) ∧
      ∀ id ∈ p.gbpEvidenceIds, id ∈ values.map Prod.snd := by
  obtain ⟨candidate, hcandidate, entry, hentry, rfl⟩ := mem_allPairs hp
  constructor
  · intro id hid
    exact List.mem_flatMap.2 ⟨candidate, hcandidate, mem_sortedSet.1 hid⟩
  · intro id hid
    rw [List.mem_singleton.1 hid]
    exact List.mem_map_of_mem hentry

/-- Pairs are compared exactly when both values are valid. -/
theorem pairComparison_incomparable_iff {candidate : SiteBusinessCandidate} {value : String} :
    (pairComparison lib inp field candidate value).state = .incomparable ↔
      ¬ ((pairComparison lib inp field candidate value).left.valid = true ∧
        (pairComparison lib inp field candidate value).right.valid = true) := by
  cases field with
  | businessName => exact compareBusinessNames_incomparable_iff
  | address => exact compareAddresses_incomparable_iff
  | phone => exact comparePhones_incomparable_iff
  | serviceArea => exact comparePhones_incomparable_iff
  | openingHours => exact comparePhones_incomparable_iff

theorem comparison_eq (hfield : field ≠ .serviceArea) (candidate : SiteBusinessCandidate)
    (value : String) :
    comparison lib inp field candidate value = pairComparison lib inp field candidate value := by
  cases field with
  | businessName => rfl
  | address => rfl
  | phone => rfl
  | serviceArea => exact absurd rfl hfield
  | openingHours => rfl

theorem not_incomparable_of_isMatch {state : PairState} (h : state.isMatch = true) :
    state ≠ .incomparable := by
  rintro rfl
  cases h

/-- A phone that matches another can be compared with itself. -/
theorem comparablePhone_of_match {left right : String}
    (h : (comparePhones lib.toComparisonLibrary left right (country inp)).state.isMatch = true) :
    comparablePhone lib inp left = true ∧ comparablePhone lib inp right = true := by
  have hboth : (normalizePhone lib.toComparisonLibrary left (country inp)).valid = true ∧
      (normalizePhone lib.toComparisonLibrary right (country inp)).valid = true := by
    by_contra hnot
    exact not_incomparable_of_isMatch h (comparePhones_incomparable_iff.2 hnot)
  have hself : ∀ value : String,
      (normalizePhone lib.toComparisonLibrary value (country inp)).valid = true →
        comparablePhone lib inp value = true := by
    intro value hvalid
    rw [comparablePhone, decide_eq_true_eq]
    intro hstate
    exact comparePhones_incomparable_iff.1 hstate ⟨hvalid, hvalid⟩
  exact ⟨hself left hboth.1, hself right hboth.2⟩

theorem siteValues_sub {candidate : SiteBusinessCandidate}
    (h : candidate ∈ siteValues lib inp field) : candidate ∈ eligibleOf inp field := by
  rw [siteValues] at h
  split at h
  · exact (List.mem_filter.1 h).1
  · exact h

theorem comparedValues_sub {values : List (String × String)} {entry : String × String}
    (h : entry ∈ comparedValues lib inp field values) : entry ∈ values := by
  rw [comparedValues] at h
  split at h
  · exact (List.mem_filter.1 h).1
  · exact h

/-- What matches was compared. -/
theorem compared_of_match {values : List (String × String)} {candidate : SiteBusinessCandidate}
    {entry : String × String} (hcandidate : candidate ∈ eligibleOf inp field)
    (hentry : entry ∈ values)
    (h : (pairComparison lib inp field candidate entry.1).state.isMatch = true) :
    candidate ∈ siteValues lib inp field ∧ entry ∈ comparedValues lib inp field values := by
  rw [siteValues, comparedValues]
  by_cases hphone : field = .phone
  · subst hphone
    rw [if_pos rfl, if_pos rfl]
    obtain ⟨hleft, hright⟩ := comparablePhone_of_match h
    exact ⟨List.mem_filter.2 ⟨hcandidate, hleft⟩, List.mem_filter.2 ⟨hentry, hright⟩⟩
  · rw [if_neg hphone, if_neg hphone]
    exact ⟨hcandidate, hentry⟩

/-- The result of names, addresses and phones. -/
theorem pairResult_contract {values : List (String × String)} {r : SiteGbpFieldResult}
    (hvalues : Observed inp field values) (hfield : field ≠ .serviceArea)
    (hsite : siteValues lib inp field ≠ []) (hgbp : comparedValues lib inp field values ≠ [])
    (htext : textOnly inp field = false)
    (h : pairResult lib inp field (siteValues lib inp field)
      (comparedValues lib inp field values) = .ok r) :
    r.field = field ∧ FieldContract lib inp r [] := by
  have hids : ∀ p ∈ allPairs lib inp field (siteValues lib inp field)
      (comparedValues lib inp field values),
      (∀ id ∈ p.siteEvidenceIds,
        id ∈ (siteValues lib inp field).flatMap SiteBusinessCandidate.evidenceIds) ∧
      ∀ id ∈ p.gbpEvidenceIds, id ∈ (comparedValues lib inp field values).map Prod.snd :=
    fun p hp => allPairs_ids hp
  rw [pairResult] at h
  split at h
  · cases h
  · by_cases hmatching : (allPairs lib inp field (siteValues lib inp field)
        (comparedValues lib inp field values)).filter (fun p => p.state.isMatch) = []
    · simp only [hmatching, ne_eq, not_true_eq_false, ↓reduceIte] at h
      split at h
      · cases h
        exact ⟨rfl, notChecked_contract _ _⟩
      · next hsome =>
        cases h
        refine ⟨rfl, ?_⟩
        have hpartition := @comparedResult_partition inp field .mismatch
          (siteValues lib inp field) (comparedValues lib inp field values) []
          ((allPairs lib inp field (siteValues lib inp field)
            (comparedValues lib inp field values)).filter fun p => p.state = .incomparable)
          (fun p hp => absurd hp (List.not_mem_nil))
          (fun p hp => absurd hp (List.not_mem_nil))
        obtain ⟨first, hfirst⟩ := List.exists_mem_of_ne_nil _ hsite
        refine ⟨fun hreport => Bool.noConfusion hreport, fun _ _ => ⟨values, hvalues, ?_, ?_⟩,
          fun _ => ⟨fun hnil => ?_, htext⟩, fun _ _ => hpartition.1, fun _ _ => hpartition.2,
          fun hne => absurd rfl hne, fun _ => ⟨rfl, rfl⟩⟩
        · -- the pairs are there and are not all incomparable
          have hpairs : allPairs lib inp field (siteValues lib inp field)
              (comparedValues lib inp field values) ≠ [] := by
            obtain ⟨entry, hentry⟩ := List.exists_mem_of_ne_nil _ hgbp
            exact List.ne_nil_of_mem (pair_mem_allPairs hfirst hentry)
          have hcompared : ∃ p ∈ allPairs lib inp field (siteValues lib inp field)
              (comparedValues lib inp field values), p.state ≠ .incomparable := by
            by_contra hnone
            refine hsome ⟨hpairs, congrArg List.length (List.filter_eq_self.2 fun p hp => ?_)⟩
            rw [decide_eq_true_eq]
            by_contra hstate
            exact hnone ⟨p, hp, hstate⟩
          obtain ⟨p, hp, hstate⟩ := hcompared
          obtain ⟨candidate, hcandidate, entry, hentry, rfl⟩ := mem_allPairs hp
          have hvalid := not_not.1 (mt pairComparison_incomparable_iff.2 hstate)
          refine ⟨candidate, siteValues_sub hcandidate, entry, comparedValues_sub hentry, ?_⟩
          change (comparison lib inp field candidate entry.1).state ≠ _ ∧
            (comparison lib inp field candidate entry.1).left.valid = true ∧
            (comparison lib inp field candidate entry.1).right.valid = true
          rw [comparison_eq hfield]
          exact ⟨hstate, hvalid⟩
        · intro candidate hcandidate entry hentry
          change (comparison lib inp field candidate entry.1).state.isMatch = false
          rw [comparison_eq hfield, ← Bool.not_eq_true]
          intro hmatch
          obtain ⟨hleft, hright⟩ := compared_of_match hcandidate hentry hmatch
          have hmem : pair lib inp field candidate entry ∈ (allPairs lib inp field
              (siteValues lib inp field) (comparedValues lib inp field values)).filter
                fun p => p.state.isMatch :=
            List.mem_filter.2 ⟨pair_mem_allPairs hleft hright, hmatch⟩
          rw [hmatching] at hmem
          cases hmem
        · have hmem := siteValues_sub hfirst
          change eligibleOf inp field = [] at hnil
          rw [hnil] at hmem
          cases hmem
    · simp only [hmatching, ne_eq, not_false_eq_true, ↓reduceIte, Except.ok.injEq] at h
      subst h
      refine ⟨rfl, ?_⟩
      have hstates : ∀ b : Bool,
          (if b then FieldState.exactMatch else .semanticMatch) ≠ .mismatch ∧
            (if b then FieldState.exactMatch else .semanticMatch).missingSides = [] := by
        intro b
        cases b with
        | true => exact ⟨FieldState.noConfusion, rfl⟩
        | false => exact ⟨FieldState.noConfusion, rfl⟩
      have hpartition := fun state => @comparedResult_partition inp field state
        (siteValues lib inp field) (comparedValues lib inp field values)
        ((allPairs lib inp field (siteValues lib inp field)
          (comparedValues lib inp field values)).filter fun p => p.state.isMatch)
        ((allPairs lib inp field (siteValues lib inp field)
          (comparedValues lib inp field values)).filter fun p => p.state = .incomparable)
        (fun p hp => (hids p (List.mem_filter.1 hp).1).1)
        (fun p hp => (hids p (List.mem_filter.1 hp).1).2)
      refine ⟨fun _ _ => ?_, fun heq => absurd heq (hstates _).1,
        fun heq => absurd heq (hstates _).1, fun _ _ => (hpartition _).1,
        fun _ _ => (hpartition _).2, fun hne => absurd (hstates _).2 hne, fun _ => ⟨rfl, rfl⟩⟩
      obtain ⟨p, hp⟩ := List.exists_mem_of_ne_nil _ hmatching
      obtain ⟨hmem, hmatch⟩ := List.mem_filter.1 hp
      obtain ⟨candidate, -, entry, -, rfl⟩ := mem_allPairs hmem
      have hvalid := not_not.1
        (mt pairComparison_incomparable_iff.2 (not_incomparable_of_isMatch hmatch))
      exact ⟨_, hp, hvalid⟩

/-- The sides that a missing state names are those without values. -/
theorem missingState_sides {siteMissing gbpMissing : Bool}
    (h : siteMissing = true ∨ gbpMissing = true) :
    let found := missingState siteMissing gbpMissing
    found.1.missingSides = found.2 ∧ found.2 ≠ [] ∧ found.1.reportsMatch = false ∧
      found.1 ≠ .mismatch ∧ found.1.isCompared = false ∧
      (Side.site ∈ found.2 ↔ siteMissing = true) ∧ (Side.gbp ∈ found.2 ↔ gbpMissing = true) := by
  cases siteMissing with
  | true =>
    cases gbpMissing with
    | true => decide
    | false => decide
  | false =>
    cases gbpMissing with
    | true => decide
    | false => simp at h

/-- The result of a field that a side lacks. -/
theorem missingResult_contract {site : SiteEvidenceSource} {gbp : PublicGbpEvidenceSource}
    {inspection : SiteFieldInspection} {values : List (String × String)} {outcome : FieldOutcome}
    (hinspection : inspectionOf inp field = some inspection)
    (hcomplete : inspection.complete = true) (hsite : inp.siteSource = some site)
    (hgbp : inp.publicSource = some gbp) (hvalues : Observed inp field values)
    (hmissing : ((siteValues lib inp field).isEmpty ||
      (comparedValues lib inp field values).isEmpty) = true)
    (h : missingResult lib inp field site gbp inspection (siteValues lib inp field)
      (comparedValues lib inp field values) = .ok outcome) :
    outcome.1.field = field ∧ FieldContract lib inp outcome.1 outcome.2 := by
  rw [Bool.or_eq_true] at hmissing
  obtain ⟨hsides, hne, hreport, hmismatch, hcompared, hleft, hright⟩ :=
    missingState_sides hmissing
  rw [missingResult] at h
  obtain ⟨covered, hcovered, h⟩ := ok_of_bind h
  cases h
  refine ⟨rfl, ?_⟩
  refine ⟨fun hmatch => ?_, fun heq => absurd heq hmismatch, fun heq => absurd heq hmismatch,
    fun hstate => ?_, fun hstate => ?_, fun _ => ⟨⟨inspection, hinspection, hcomplete, site, gbp,
      hsite, hgbp, ?_⟩, ⟨values, hvalues, ?_, ?_⟩, ?_⟩, fun hnil => ?_⟩
  · exact absurd (hreport.symm.trans hmatch) Bool.noConfusion
  · exact absurd (hcompared.symm.trans hstate) Bool.noConfusion
  · exact absurd (hcompared.symm.trans hstate) Bool.noConfusion
  · refine Eq.trans ?_ hcovered
    exact congrArg (fun sides => sides.mapM fun side =>
      coverage lib inp side field site gbp inspection) hsides
  · refine Iff.trans (iff_of_eq (congrArg (Side.site ∈ ·) hsides)) (hleft.trans ?_)
    exact List.isEmpty_iff
  · refine Iff.trans (iff_of_eq (congrArg (Side.gbp ∈ ·) hsides)) (hright.trans ?_)
    exact List.isEmpty_iff
  · exact sortedBy_perm id _
  · exact absurd (hsides.symm.trans hnil) hne

/-- The result of a field that both sources can tell of. -/
theorem compareField_contract {site : SiteEvidenceSource} {gbp : PublicGbpEvidenceSource}
    {inspection : SiteFieldInspection} {outcome : FieldOutcome}
    (hinspection : inspectionOf inp field = some inspection)
    (hcomplete : inspection.complete = true) (hsite : inp.siteSource = some site)
    (hgbp : inp.publicSource = some gbp) (htext : textOnly inp field = false)
    (h : compareField lib inp field site gbp inspection = .ok outcome) :
    outcome.1.field = field ∧ FieldContract lib inp outcome.1 outcome.2 := by
  rw [compareField] at h
  obtain ⟨values, hvalues, h⟩ := ok_of_bind h
  have hobserved : Observed inp field values := ⟨gbp, hgbp, hvalues⟩
  by_cases hmissing : ((siteValues lib inp field).isEmpty ||
      (comparedValues lib inp field values).isEmpty) = true
  · simp only [hmissing, ↓reduceIte] at h
    exact missingResult_contract hinspection hcomplete hsite hgbp hobserved hmissing h
  · simp only [hmissing] at h
    rw [Bool.or_eq_true, not_or] at hmissing
    have hleft : siteValues lib inp field ≠ [] := fun hnil =>
      hmissing.1 (List.isEmpty_iff.2 hnil)
    have hright : comparedValues lib inp field values ≠ [] := fun hnil =>
      hmissing.2 (List.isEmpty_iff.2 hnil)
    by_cases hfield : field = .serviceArea
    · subst hfield
      cases h
      exact ⟨rfl, serviceResult_contract hobserved hleft htext⟩
    · simp only [hfield, Bool.false_eq_true, ↓reduceIte] at h
      obtain ⟨r, hr, rfl⟩ := ok_of_map h
      exact pairResult_contract hobserved hfield hleft hright htext hr

/-- The result of a field for two sources that are there. -/
theorem sourcedField_contract {site : SiteEvidenceSource} {gbp : PublicGbpEvidenceSource}
    {inspection : SiteFieldInspection} {outcome : FieldOutcome}
    (hinspection : inspectionOf inp field = some inspection)
    (hsite : inp.siteSource = some site) (hgbp : inp.publicSource = some gbp)
    (h : sourcedField lib inp field site gbp inspection = .ok outcome) :
    outcome.1.field = field ∧ FieldContract lib inp outcome.1 outcome.2 := by
  rw [sourcedField] at h
  split at h
  · cases h
    exact ⟨rfl, notChecked_contract _ _⟩
  split at h
  · cases h
    exact ⟨rfl, notChecked_contract _ _⟩
  split at h
  · cases h
    exact ⟨rfl, notChecked_contract _ _⟩
  next hcomplete =>
  rw [Bool.not_eq_true', Bool.not_eq_false] at hcomplete
  by_cases htext : textOnly inp field = true
  · rw [if_pos htext] at h
    obtain ⟨values, -, h⟩ := ok_of_bind h
    obtain ⟨r, hr, h⟩ := ok_of_bind h
    cases h
    exact textAlignment_contract htext hr
  · rw [if_neg htext] at h
    rw [Bool.not_eq_true] at htext
    split at h
    · cases h
      exact ⟨rfl, notChecked_contract _ _⟩
    · exact compareField_contract hinspection hcomplete hsite hgbp htext h

/-- The result of a field that does not apply. -/
theorem notApplicable_contract {outcome : FieldOutcome}
    (h : notApplicableResult inp field = .ok outcome) :
    outcome.1.field = field ∧ FieldContract lib inp outcome.1 outcome.2 := by
  rw [notApplicableResult] at h
  split at h
  · cases h
    exact ⟨rfl, contract_of_quiet (.inr rfl) rfl⟩
  · obtain ⟨values, -, h⟩ := ok_of_bind h
    cases h
    exact ⟨rfl, contract_of_quiet (.inr rfl) rfl⟩

/-- One turn of the loop over the fields. -/
theorem alignField_contract {outcome : FieldOutcome}
    (h : alignField lib inp field = .ok outcome) :
    outcome.1.field = field ∧ FieldContract lib inp outcome.1 outcome.2 := by
  rw [alignField] at h
  split at h
  · cases h
  next inspection hinspection =>
  split at h
  · cases h
    exact ⟨rfl, notChecked_contract _ _⟩
  split at h
  · exact notApplicable_contract h
  split at h
  · cases h
    exact ⟨rfl, notChecked_contract _ _⟩
  split at h
  · next site gbp hsite hgbp => exact sourcedField_contract hinspection hsite hgbp h
  · cases h
    exact ⟨rfl, notChecked_contract _ _⟩

end Results

end SearchTrust.Alignment
