/-
What a built request consists of: the facts of every action are those of its drafts,
and the second check of the request finds nothing to object to.
-/
import SearchTrust.Report.CopyClosed
import SearchTrust.Report.CopyRequest
import SearchTrust.Report.TextMeasures

namespace SearchTrust.Report

open SearchTrust.Jobs (Json strip)
open SearchTrust.Order Outcomes

section FactIds

theorem charSize_of_isLowerHex {c : Char} (h : isLowerHex c = true) : charSize c = 1 := by
  have hrange : 48 ≤ c.toNat ∧ c.toNat ≤ 102 ∧ c ≠ '\\' := by
    rw [isLowerHex, Bool.or_eq_true, Bool.and_eq_true, decide_eq_true_eq,
      decide_eq_true_eq] at h
    rcases h with h | ⟨hlow, hhigh⟩
    · rw [Char.isDigit, Bool.and_eq_true, decide_eq_true_eq, decide_eq_true_eq] at h
      have hlow : 48 ≤ c.toNat := UInt32.le_iff_toNat_le.1 h.1
      have hhigh : c.toNat ≤ 57 := UInt32.le_iff_toNat_le.1 h.2
      refine ⟨hlow, by omega, ?_⟩
      rintro rfl
      exact absurd hhigh (by decide)
    · have hl : 97 ≤ c.toNat := UInt32.le_iff_toNat_le.1 hlow
      have hh : c.toNat ≤ 102 := UInt32.le_iff_toNat_le.1 hhigh
      refine ⟨by omega, hh, ?_⟩
      rintro rfl
      exact absurd hl (by decide)
  have hquote : c ≠ '"' := by
    rintro rfl
    exact absurd hrange.1 (by decide)
  have hne : ¬ (c = '"' ∨ c = '\\') := by
    rw [not_or]
    exact ⟨hquote, hrange.2.2⟩
  rw [charSize, if_neg hne, if_neg (by omega), if_neg (by omega)]
  exact utf8Size_of_lt (by omega)

theorem contentSize_of_hex {rest : List Char} (h : ∀ c ∈ rest, isLowerHex c = true) :
    (rest.map charSize).sum = rest.length := by
  induction rest with
  | nil => rfl
  | cons c rest ih =>
      rw [List.map_cons, List.sum_cons, charSize_of_isLowerHex (h c List.mem_cons_self),
        ih fun d hd => h d (List.mem_cons_of_mem _ hd), List.length_cons, Nat.add_comm]

theorem isCopyFactId_iff {s : String} :
    isCopyFactId s = true ↔
      ∃ rest, s.toList = "cf_".toList ++ rest ∧ (∀ c ∈ rest, isLowerHex c = true) ∧
        rest.length = 24 := by
  unfold isCopyFactId
  constructor
  · intro h
    split at h
    · next rest hdrop =>
        rw [Bool.and_eq_true, decide_eq_true_eq, List.all_eq_true] at h
        exact ⟨rest, append_of_dropPrefix? hdrop, h⟩
    · cases h
  · rintro ⟨rest, hchars, hhex, hlength⟩
    have hdrop : s.toList.dropPrefix? "cf_".toList = some rest := by
      have hhead : "cf_".toList = ['c', 'f', '_'] := by decide
      rw [hchars, hhead]
      simp [List.dropPrefix?]
    rw [hdrop]
    simp only [Bool.and_eq_true, List.all_eq_true, decide_eq_true_eq]
    exact ⟨hhex, hlength⟩

theorem plain_of_isCopyFactId {s : String} (h : isCopyFactId s = true) : Plain s := by
  obtain ⟨rest, hchars, hhex, -⟩ := isCopyFactId_iff.1 h
  intro c hc
  rw [hchars, List.mem_append] at hc
  rcases hc with hc | hc
  · have hhead : Plain "cf_" := by decide
    exact hhead c hc
  · exact not_whitespace_of_isLowerOrDigit (isLowerOrDigit_of_isLowerHex (hhex c hc))

/-- All fact IDs have the same size. -/
theorem contentSize_of_isCopyFactId {s : String} (h : isCopyFactId s = true) :
    contentSize s = 27 := by
  obtain ⟨rest, hchars, hhex, hlength⟩ := isCopyFactId_iff.1 h
  have hhead : ("cf_".toList.map charSize).sum = 3 := by decide
  rw [contentSize, hchars, List.map_append, List.sum_append, contentSize_of_hex hhex, hhead,
    hlength]

theorem plain_copyFactId (hash : Hash) (actionId : String) (findingIds : List String)
    (path : String) (factType : CopyFactType) (value : String) :
    Plain (copyFactId hash actionId findingIds path factType value) := by
  have hhead : Plain "cf_" := by decide
  unfold copyFactId
  exact plain_hexDigits hhead _ 24

end FactIds

section Drafts

variable {hash : Hash} {actionId : String} {draft : FactDraft}

theorem CopyFact.stripped_stripped (fact : CopyFact) :
    fact.stripped.stripped = fact.stripped := by
  have hids : fact.sourceFindingIds.map (strip ∘ strip) = fact.sourceFindingIds.map strip :=
    List.map_congr_left fun id _ => Jobs.strip_strip id
  simp only [CopyFact.stripped, Jobs.strip_strip, List.map_map, hids]

theorem factOf_stripped : (factOf hash actionId draft).stripped = factOf hash actionId draft :=
  CopyFact.stripped_stripped _

@[simp] theorem factOf_value : (factOf hash actionId draft).value = pyStrip draft.value :=
  strip_pyStrip _

@[simp] theorem factOf_factType : (factOf hash actionId draft).factType = draft.factType := rfl

@[simp] theorem factOf_allowedPurposes : (factOf hash actionId draft).allowedPurposes =
    [if draft.factType ∈ whyFactTypes then .whyNow else .clientFacingExplanation] := rfl

@[simp] theorem factOf_actionId : (factOf hash actionId draft).actionId = strip actionId := rfl

/-- What the texts of a draft have to be for its fact to keep its ID. -/
structure FactDraft.Plain (draft : FactDraft) : Prop where
  sourcePath : Report.Plain draft.sourcePath
  sourceFindingIds : ∀ id ∈ draft.sourceFindingIds, Report.Plain id

/-- The fact names the draft again. -/
theorem factOf_factId (hash : Hash) (hplain : draft.Plain) (hid : Plain actionId) :
    (factOf hash actionId draft).factId =
      copyFactId hash (factOf hash actionId draft).actionId
        (factOf hash actionId draft).sourceFindingIds
        (factOf hash actionId draft).sourcePath (factOf hash actionId draft).factType
        (factOf hash actionId draft).value := by
  have hids : (sortedSet draft.sourceFindingIds).map strip = sortedSet draft.sourceFindingIds :=
    map_strip_eq_self fun id hmem =>
      (hplain.sourceFindingIds id (mem_sortedSet.1 hmem)).strip_eq
  rw [factOf_value]
  simp only [factOf, CopyFact.stripped, hids, hid.strip_eq, hplain.sourcePath.strip_eq]
  exact (plain_copyFactId _ _ _ _ _ _).strip_eq

theorem copyFact_ok {limits : PublicCopyLimits} {fact : CopyFact}
    (h : copyFact hash limits actionId draft = .ok fact) :
    fact = factOf hash actionId draft ∧ pyStrip draft.value ≠ "" ∧
      (pyStrip draft.value).length ≤ limits.maxFactValueChars := by
  unfold copyFact at h
  split at h
  · cases h
  · next hbounds =>
      rw [not_or, not_lt] at hbounds
      split at h
      · cases h
      · exact ⟨(Except.ok.inj h).symm, hbounds⟩

theorem plain_findingFields : ∀ name ∈ findingFields.map (·.attributeName), Plain name := by
  decide

theorem plain_findingDrafts {allowed : List AllowedFactField} {finding : Finding}
    (hid : Plain finding.findingId) :
    ∀ draft ∈ findingDrafts allowed finding, draft.Plain := by
  intro draft hdraft
  obtain ⟨entry, hentry, rfl⟩ := List.mem_map.1 hdraft
  have hattribute : Plain entry.attributeName :=
    plain_findingFields _ (List.mem_map_of_mem (List.mem_of_mem_filter hentry))
  have hhead : Plain "finding." := by decide
  have hdot : Plain "." := by decide
  constructor
  · dsimp only
    exact ((hhead.append hid).append hdot).append hattribute
  · intro id hmem
    rw [List.mem_singleton.1 hmem]
    exact hid

theorem plain_targetDigits (hash : Hash) (target : ActionTarget) :
    Plain (targetDigits hash target) := by
  have hempty : ∀ c ∈ ([] : List Char), Jobs.isWhitespace c = false :=
    fun _ hmem => absurd hmem List.not_mem_nil
  unfold targetDigits
  rw [← List.nil_append ((hexdigest _).take 16)]
  exact plain_hexDigits hempty _ 16

theorem plain_targetDrafts {allowed : List AllowedFactField} {target : ActionTarget}
    (hids : ∀ id ∈ target.findingIds, Plain id) :
    ∀ draft ∈ targetDrafts hash allowed target, draft.Plain := by
  intro draft hdraft
  obtain ⟨entry, hentry, rfl⟩ := List.mem_map.1 hdraft
  have hattribute : Plain entry.attributeName := by
    have hall : ∀ field ∈ targetFields, Plain field.attributeName := by decide
    exact hall entry (List.mem_of_mem_filter hentry)
  have hhead : Plain "target." := by decide
  have hdot : Plain "." := by decide
  have hkind : Plain target.kind.text := by
    cases target.kind <;> decide
  have hdigits := plain_targetDigits hash target
  constructor
  · dsimp only
    exact ((((hhead.append hkind).append hdot).append hdigits).append hdot).append hattribute
  · exact hids

theorem plain_listDrafts {findingIds : List String} {head : String} {factType : CopyFactType}
    {values : List String} (hids : ∀ id ∈ findingIds, Plain id) (hhead : Plain head) :
    ∀ draft ∈ listDrafts findingIds head factType values, draft.Plain := by
  intro draft hdraft
  obtain ⟨⟨value, position⟩, -, rfl⟩ := List.mem_map.1 hdraft
  exact ⟨hhead.append (plain_toString position), hids⟩

/-- The paths of an action's facts contain no white space. -/
theorem plain_factDrafts {action : ActionSkeleton} {findings : List Finding}
    (hvalid : action.Valid) :
    ∀ draft ∈ factDrafts hash action findings, draft.Plain := by
  have hids : ∀ id ∈ action.findingIds, Plain id := fun id hmem =>
    plain_of_isFindingId (hvalid.findingIds id hmem)
  intro draft hdraft
  simp only [factDrafts, List.mem_append, List.mem_flatMap] at hdraft
  rcases hdraft with ((⟨finding, hfinding, hdraft⟩ | ⟨target, htarget, hdraft⟩) | hdraft) |
    hdraft
  · obtain ⟨id, hid, hfound⟩ := List.mem_filterMap.1 hfinding
    have hname : finding.findingId = id := by simpa using List.find?_some hfound
    refine plain_findingDrafts ?_ draft hdraft
    rw [hname]
    exact hids id (mem_sortedBy.1 hid)
  · refine plain_targetDrafts ?_ draft hdraft
    intro id hid
    have htargetValid := hvalid.targets target (mem_sortedBy.1 htarget)
    exact plain_of_isFindingId (htargetValid.findingIds id hid)
  · split at hdraft
    · exact plain_listDrafts hids (by decide) draft hdraft
    · cases hdraft
  · exact plain_listDrafts hids (by decide) draft hdraft

end Drafts

section Inputs

/-- What `copyActionInput` makes of an action. -/
structure BuiltInput (hash : Hash) (limits : PublicCopyLimits) (findings : List Finding)
    (action : ActionSkeleton) (input : CopyActionInput) : Prop where
  findingIds : action.findingIds ⊆ findings.map (·.findingId)
  template : ∃ template, actionTemplate action.templateKey = some template ∧
    action.templateVersion = template.version ∧
    action.copyRequirements.allowedFactFields = template.copyAllowedFactFields ∧
    action.copyRequirements.requiredLimitations = template.copyRequiredLimitations
  actionId : input.actionId = action.actionId
  sequence : input.sequence = action.sequence
  templateKey : input.templateKey = action.templateKey
  templateVersion : input.templateVersion = action.templateVersion
  facts : input.facts.Perm
    ((factDrafts hash action findings).map (factOf hash action.actionId))
  factCount : input.facts.length ≤ limits.maxFactsPerAction
  values : ∀ draft ∈ factDrafts hash action findings, pyStrip draft.value ≠ "" ∧
    (pyStrip draft.value).length ≤ limits.maxFactValueChars
  whyNow : input.whyNowPatterns = expectedPatterns action.templateKey input.facts .whyNow
  explanation : input.explanationPatterns =
    expectedPatterns action.templateKey input.facts .clientFacingExplanation
  patternCounts : input.whyNowPatterns.length ≤ limits.maxPatternsPerPurpose ∧
    input.explanationPatterns.length ≤ limits.maxPatternsPerPurpose
  slotCounts : ∀ spec ∈ input.patterns, spec.slots.length ≤ limits.maxSlotsPerPattern
  limitationIds : input.requiredLimitationIds =
    (input.facts.filter (·.factType = .requiredLimitation)).map (·.factId)
  valid : input.Valid
  stripped : input.stripped = input

variable {hash : Hash} {limits : PublicCopyLimits} {findings : List Finding}
  {action : ActionSkeleton}

theorem validateActionContract_ok {template : ActionTemplate}
    (h : validateActionContract action findings = .ok template) :
    actionTemplate action.templateKey = some template ∧
      action.templateVersion = template.version ∧
      action.findingIds ⊆ findings.map (·.findingId) ∧
      action.copyRequirements.allowedFactFields = template.copyAllowedFactFields ∧
      action.copyRequirements.requiredLimitations = template.copyRequiredLimitations := by
  unfold validateActionContract at h
  split at h
  · cases h
  · next found hfound =>
      split at h
      · cases h
      · next hversion =>
          split at h
          · cases h
          · next hfindings =>
              split at h
              · cases h
              · next hcopy =>
                  cases h
                  rw [not_or, not_not, not_not] at hfindings hcopy
                  exact ⟨hfound, not_not.1 hversion, hfindings.1, hcopy⟩

theorem factsForAction_ok {facts : List CopyFact}
    (h : factsForAction hash limits action findings = .ok facts) :
    facts.Perm ((factDrafts hash action findings).map (factOf hash action.actionId)) ∧
      facts.length ≤ limits.maxFactsPerAction ∧
      ∀ draft ∈ factDrafts hash action findings, pyStrip draft.value ≠ "" ∧
        (pyStrip draft.value).length ≤ limits.maxFactValueChars := by
  unfold factsForAction at h
  obtain ⟨made, hmade, h⟩ := ok_of_bind h
  have hall := forall₂_of_mapM_ok hmade
  have hmap : made = (factDrafts hash action findings).map (factOf hash action.actionId) :=
    eq_map_of_forall₂ (hall.imp fun _ _ hfact => (copyFact_ok hfact).1)
  split at h
  · cases h
  · next hcount =>
      cases h
      rw [not_or, not_lt] at hcount
      refine ⟨?_, ?_, ?_⟩
      · rw [← hmap]
        exact sortedBy_perm _ _
      · rw [length_sortedBy]
        exact hcount.2
      · intro draft hdraft
        obtain ⟨fact, -, hfact⟩ := exists_right_of_mem hall hdraft
        exact (copyFact_ok hfact).2

theorem patternSpecs_ok {facts : List CopyFact} {purpose : CopyPurpose}
    {specs : List CopyPatternSpec} (h : patternSpecs action facts purpose limits = .ok specs) :
    specs = expectedPatterns action.templateKey facts purpose ∧
      specs.length ≤ limits.maxPatternsPerPurpose ∧
      ∀ spec ∈ specs, spec.slots.length ≤ limits.maxSlotsPerPattern := by
  unfold patternSpecs at h
  dsimp only at h
  split at h
  · cases h
  · next hcount =>
      split at h
      · cases h
      · next hslots =>
          cases h
          rw [not_or, not_lt] at hcount
          refine ⟨rfl, hcount.2, ?_⟩
          intro spec hspec
          by_contra hlong
          exact hslots ⟨spec, hspec, not_le.1 hlong⟩

theorem patternDefinitionsFor_subset (key : String) (purpose : CopyPurpose) :
    patternDefinitionsFor key purpose ⊆ allPatterns := by
  intro definition hmem
  unfold patternDefinitionsFor at hmem
  have hsource := List.mem_of_mem_filter hmem
  split at hsource
  · exact List.mem_append_left _ hsource
  · exact List.mem_append_right _ hsource

theorem expectedPatterns_stripped (key : String) (facts : List CopyFact)
    (purpose : CopyPurpose) :
    (expectedPatterns key facts purpose).map CopyPatternSpec.stripped =
      expectedPatterns key facts purpose := by
  refine specs_stripped _ ?_
  intro definition hmem
  exact patternDefinitionsFor_subset key purpose (List.mem_of_mem_filter hmem)

theorem actionTemplate_versions_plain :
    ∀ template ∈ actionTemplates, Plain template.version := by decide

theorem copyActionInput_ok {input : CopyActionInput} (hvalid : action.Valid)
    (h : copyActionInput hash limits findings action = .ok input) :
    BuiltInput hash limits findings action input := by
  unfold copyActionInput at h
  obtain ⟨template, htemplate, h⟩ := ok_of_bind h
  obtain ⟨facts, hfacts, h⟩ := ok_of_bind h
  obtain ⟨whyNow, hwhyNow, h⟩ := ok_of_bind h
  obtain ⟨explanation, hexplanation, h⟩ := ok_of_bind h
  obtain ⟨hfound, hversion, hfindings, hfields, hlimitations⟩ :=
    validateActionContract_ok htemplate
  obtain ⟨hperm, hcount, hvalues⟩ := factsForAction_ok hfacts
  obtain ⟨rfl, hwhyCount, hwhySlots⟩ := patternSpecs_ok hwhyNow
  obtain ⟨rfl, hexplanationCount, hexplanationSlots⟩ := patternSpecs_ok hexplanation
  have hfactsStripped : facts.map CopyFact.stripped = facts := by
    refine (List.map_congr_left ?_).trans (List.map_id facts)
    intro fact hfact
    obtain ⟨draft, -, rfl⟩ := List.mem_map.1 (hperm.mem_iff.1 hfact)
    exact factOf_stripped
  have hactionId : strip action.actionId = action.actionId :=
    (plain_of_isActionId hvalid.actionId).strip_eq
  have hkey : strip action.templateKey = action.templateKey :=
    (plain_of_isSnakeName hvalid.templateKey).strip_eq
  have hversionPlain : strip action.templateVersion = action.templateVersion := by
    rw [hversion]
    exact (actionTemplate_versions_plain template (actionTemplate_mem hfound)).strip_eq
  have hids : action.findingIds.map strip = action.findingIds :=
    map_strip_eq_self fun id hid => (plain_of_isFindingId (hvalid.findingIds id hid)).strip_eq
  have hlimitationIds : ((facts.filter (·.factType = .requiredLimitation)).map
      (·.factId)).map strip = (facts.filter (·.factType = .requiredLimitation)).map
        (·.factId) := by
    refine map_strip_eq_self ?_
    intro id hid
    obtain ⟨fact, hfact, rfl⟩ := List.mem_map.1 hid
    obtain ⟨draft, -, rfl⟩ := List.mem_map.1 (hperm.mem_iff.1 (List.mem_of_mem_filter hfact))
    exact Jobs.strip_strip _
  dsimp only [CopyActionInput.stripped] at h
  rw [hactionId, hkey, hversionPlain, hids, hfactsStripped, expectedPatterns_stripped,
    expectedPatterns_stripped, hlimitationIds] at h
  split at h
  · cases h
  · next hinput =>
      cases h
      exact {
        findingIds := hfindings
        template := ⟨template, hfound, hversion, hfields, hlimitations⟩
        actionId := rfl
        sequence := rfl
        templateKey := rfl
        templateVersion := rfl
        facts := hperm
        factCount := hcount
        values := hvalues
        whyNow := rfl
        explanation := rfl
        patternCounts := ⟨hwhyCount, hexplanationCount⟩
        slotCounts := by
          intro spec hspec
          rcases List.mem_append.1 hspec with hspec | hspec
          · exact hwhySlots spec hspec
          · exact hexplanationSlots spec hspec
        limitationIds := rfl
        valid := not_not.1 hinput
        stripped := by
          simp only [CopyActionInput.stripped, hactionId, hkey, hversionPlain, hids,
            hfactsStripped, expectedPatterns_stripped, hlimitationIds] }

/-- The second check of a request objects to no input that was built. -/
theorem BuiltInput.actionFault {py : Interpreter} (hhash : py.hash = hash)
    (hvalid : action.Valid) {input : CopyActionInput}
    (h : BuiltInput hash limits findings action input) :
    actionFault py limits input = none := by
  obtain ⟨template, hfound, hversion, -, -⟩ := h.template
  have hcounts : ¬ (limits.maxFactsPerAction < input.facts.length ∨
      limits.maxPatternsPerPurpose < input.whyNowPatterns.length ∨
      limits.maxPatternsPerPurpose < input.explanationPatterns.length ∨
      ∃ spec ∈ input.patterns, limits.maxSlotsPerPattern < spec.slots.length) := by
    simp only [not_or, not_lt, not_exists, not_and]
    exact ⟨h.factCount, h.patternCounts.1, h.patternCounts.2, h.slotCounts⟩
  have hfacts : input.facts.findSome? (factFault py limits) = none := by
    rw [List.findSome?_eq_none_iff]
    intro fact hfact
    obtain ⟨draft, hdraft, rfl⟩ := List.mem_map.1 (h.facts.mem_iff.1 hfact)
    have hid := factOf_factId hash (plain_factDrafts hvalid draft hdraft)
      (plain_of_isActionId hvalid.actionId)
    rw [factFault, hhash, if_neg (not_not.2 hid), factOf_value,
      if_neg (not_lt.2 (h.values draft hdraft).2)]
  have hpatterns : ¬ (input.whyNowPatterns ≠
        expectedPatterns input.templateKey input.facts .whyNow ∨
      input.explanationPatterns ≠
        expectedPatterns input.templateKey input.facts .clientFacingExplanation) := by
    rw [h.templateKey, not_or, not_not, not_not]
    exact ⟨h.whyNow, h.explanation⟩
  unfold Report.actionFault
  rw [if_neg hcounts, h.templateKey, hfound]
  dsimp only
  rw [if_neg (not_not.2 (by rw [h.templateVersion, hversion])), hfacts]
  dsimp only
  rw [← h.templateKey, if_neg hpatterns]

end Inputs

section Requests

/-- What `build_copy_request` makes of findings and a plan. -/
structure BuiltRequest (env : Environment) (limits : PublicCopyLimits)
    (findings : PublicFindingsResult) (plan : PublicActionPlan) (request : CopyRequestV1) :
    Prop where
  findingsValid : findings.Valid
  planValid : plan.Valid
  /-- The findings of a plan have different IDs. -/
  findingsNodup : (findings.findings.map (·.findingId)).Nodup
  findingsChecksum : request.findingsChecksum = plan.findingsChecksum
  actionPlanChecksum : request.actionPlanChecksum =
    requestDigest env.hash (canonicalPublicActionPlan plan).json
  actions : List.Forall₂ (BuiltInput env.hash limits
    (canonicalPublicFindings findings).findings) plan.actions request.actions
  valid : request.Valid
  stripped : request.stripped = request
  size : jsonSize request.json ≤ limits.maxInputBytes

theorem requestDigest_plain (hash : Hash) (value : Json) : Plain (requestDigest hash value) := by
  have hhead : Plain "sha256:" := by decide
  have h := plain_hexDigits hhead (hash value) 64
  rwa [List.take_of_length_le (by rw [hexdigest_length])] at h

theorem validatedReferences_nodup {result : PublicFindingsResult} {maxFindings : ℕ}
    {entries : List Entry} (h : validatedReferences result maxFindings = .ok entries) :
    (result.findings.map (·.findingId)).Nodup := by
  unfold validatedReferences at h
  split at h
  · cases h
  · split at h
    · cases h
    · next hnodup => exact not_not.1 hnodup

theorem buildPublicActionPlan_nodup {env : Environment} {findings : PublicFindingsResult}
    {planningDate : Date} {limits : PublicActionLimits} {plan : PublicActionPlan}
    (h : buildPublicActionPlan env findings planningDate limits = .ok plan) :
    (findings.findings.map (·.findingId)).Nodup := by
  unfold buildPublicActionPlan at h
  obtain ⟨entries, hentries, -⟩ := ok_of_bind h
  have hnodup := validatedReferences_nodup hentries
  exact ((sortedBy_perm _ _).map _).nodup_iff.1 hnodup

theorem buildCopyRequest_ok {env : Environment} {findings : PublicFindingsResult}
    {plan : PublicActionPlan} {limits : PublicCopyLimits} {request : CopyRequestV1}
    (h : buildCopyRequest env findings plan limits = .ok request) :
    BuiltRequest env limits findings plan request := by
  unfold buildCopyRequest at h
  obtain ⟨checked, hlimits, h⟩ := ok_of_bind h
  unfold validatedLimits at hlimits
  split at hlimits
  · cases hlimits
    split at h
    · cases h
    · next hvalid =>
        rw [not_or, not_not, not_not] at hvalid
        dsimp only at h
        split at h
        · cases h
        · split at h
          · cases h
          · next rebuilt hrebuilt =>
              split at h
              · cases h
              · split at h
                · cases h
                · obtain ⟨actions, hactions, h⟩ := ok_of_bind h
                  have hall := forall₂_of_mapM_ok hactions
                  have hbuilt : List.Forall₂ (BuiltInput env.hash limits
                      (canonicalPublicFindings findings).findings) plan.actions actions := by
                    rw [List.forall₂_iff_get] at hall ⊢
                    refine ⟨hall.1, fun i hi hj => ?_⟩
                    exact copyActionInput_ok
                      (hvalid.2.actions _ (List.get_mem _ _)) (hall.2 i hi hj)
                  have hstripped : actions.map CopyActionInput.stripped = actions := by
                    refine (List.map_congr_left ?_).trans (List.map_id actions)
                    intro input hinput
                    obtain ⟨action, -, hinputBuilt⟩ := exists_left_of_mem hbuilt hinput
                    exact hinputBuilt.stripped
                  have hchecksum : strip plan.findingsChecksum = plan.findingsChecksum :=
                    (plain_of_isDigest hvalid.2.findingsChecksum).strip_eq
                  have hplan : strip (requestDigest env.hash
                      (canonicalPublicActionPlan plan).json) = requestDigest env.hash
                        (canonicalPublicActionPlan plan).json :=
                    (requestDigest_plain _ _).strip_eq
                  have hrequest : CopyRequestV1.stripped {
                        findingsChecksum := (canonicalPublicActionPlan plan).findingsChecksum
                        actionPlanChecksum := requestDigest env.hash
                          (canonicalPublicActionPlan plan).json
                        actions := actions } = {
                      findingsChecksum := plan.findingsChecksum
                      actionPlanChecksum := requestDigest env.hash
                        (canonicalPublicActionPlan plan).json
                      actions := actions } := by
                    simp only [CopyRequestV1.stripped, hplan, hstripped]
                    rw [← hchecksum]
                    rfl
                  rw [hrequest] at h
                  split at h
                  · cases h
                  · next hrequestValid =>
                      split at h
                      · cases h
                      · next hsize =>
                          cases h
                          have hnodup := buildPublicActionPlan_nodup hrebuilt
                          exact {
                            findingsValid := hvalid.1
                            planValid := hvalid.2
                            findingsNodup := ((sortedBy_perm _ _).map _).nodup_iff.1 hnodup
                            findingsChecksum := rfl
                            actionPlanChecksum := rfl
                            actions := hbuilt
                            valid := not_not.1 hrequestValid
                            stripped := by
                              simp only [CopyRequestV1.stripped, hchecksum, hplan,
                                hstripped]
                            size := not_lt.1 hsize }
  · cases hlimits

/-- A request that was built passes its second check unchanged. -/
theorem BuiltRequest.checked {env : Environment} {py : Interpreter}
    (hhash : py.hash = env.hash) {limits : PublicCopyLimits}
    {findings : PublicFindingsResult} {plan : PublicActionPlan} {request : CopyRequestV1}
    (h : BuiltRequest env limits findings plan request) :
    validatedRequest py request limits = .ok request := by
  refine validatedRequest_of_checks h.stripped h.valid h.size ?_
  rw [List.findSome?_eq_none_iff]
  intro input hinput
  obtain ⟨action, haction, hbuilt⟩ := exists_left_of_mem
    ((List.forall₂_and_left _ _).2 ⟨fun a ha => ha, h.actions⟩) hinput
  exact hbuilt.2.actionFault hhash (h.planValid.actions action hbuilt.1)

end Requests

end SearchTrust.Report
