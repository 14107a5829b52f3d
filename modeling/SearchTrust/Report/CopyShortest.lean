/-
The shortest copy of a plan: every accepted copy of a request is at least as long as
the texts that the findings and the plan give rise to.
-/
import SearchTrust.Report.CopyFacts

namespace SearchTrust.Report

open SearchTrust.Jobs (Json strip)
open SearchTrust.Order Outcomes

section Texts

/-- The shorter of the two sentences about a finding. -/
def whyNowText (finding : Finding) : String :=
  "The saved evidence makes this action timely: " ++ pyStrip finding.statement

/-- The targets that an explanation of the action has to name. -/
def statedTargets (action : ActionSkeleton) : List String :=
  (action.exactTargets.filter fun target => ∃ entry ∈ targetFields,
    entry.field ∈ action.copyRequirements.allowedFactFields ∧ entry.kind = target.kind).map
      fun target => pyStrip target.value

def statedCompletion (action : ActionSkeleton) : List String :=
  action.definitionOfDone.map pyStrip

def statedLimitations (action : ActionSkeleton) : List String :=
  action.copyRequirements.requiredLimitations.map pyStrip

/-- An explanation in the words of a catalog template. -/
def explanationOf (opening middle : String) (targets completion limitations : List String) :
    String :=
  opening ++ ("; ".intercalate targets ++ (middle ++ ("; ".intercalate completion ++
    (" Keep these limits in view: " ++ "; ".intercalate limitations))))

/-- The shorter of the two explanations, which names every target, every definition of
done and every limitation. -/
def explanationText (action : ActionSkeleton) : String :=
  explanationOf "Focus on " ". Completion is defined by " (statedTargets action)
    (statedCompletion action) (statedLimitations action)

/-- A text of the form of a fact ID. -/
def someFactId : String := "cf_000000000000000000000000"

/-- How many facts an explanation of the action names. -/
def statedCount (action : ActionSkeleton) : ℕ :=
  (statedTargets action).length + ((statedCompletion action).length +
    (statedLimitations action).length)

def shortestAction (action : ActionSkeleton) (finding : Finding) : RenderedActionCopy where
  actionId := action.actionId
  sequence := action.sequence
  whyNow := whyNowText finding
  clientFacingExplanation := explanationText action
  whyNowPatternKey := "why_now.evidence_finding.v1"
  whyNowFactIds := [someFactId]
  explanationPatternKey := "explanation.targets_completion_limits.v1"
  explanationFactIds := List.replicate (statedCount action) someFactId

/-- The result of the size of the smallest copy that leads with the chosen findings. -/
def shortestCopy (hash : Hash) (plan : PublicActionPlan) (chosen : List Finding) :
    PublicActionCopyResult where
  findingsChecksum := plan.findingsChecksum
  actionPlanChecksum := requestDigest hash (canonicalPublicActionPlan plan).json
  actions := (plan.actions.zip chosen).map fun pair => shortestAction pair.1 pair.2

/-- Some finding of every action and everything that its explanation has to state stay
within the length of a text, and all of it within the size of a result. -/
def CopyFits (hash : Hash) (findings : PublicFindingsResult) (plan : PublicActionPlan) : Prop :=
  ∃ chosen : List Finding,
    List.Forall₂ (fun action finding => finding ∈ findings.findings ∧
      finding.findingId ∈ action.findingIds ∧ (whyNowText finding).length ≤ 200000 ∧
      (explanationText action).length ≤ 200000) plan.actions chosen ∧
    jsonSize (shortestCopy hash plan chosen).json ≤ 2000000

end Texts

section DraftsByType

variable {hash : Hash} {action : ActionSkeleton} {findings : List Finding}
  {allowed : List AllowedFactField}

theorem factType_of_mem_findingDrafts {finding : Finding} {draft : FactDraft}
    (h : draft ∈ findingDrafts allowed finding) : draft.factType ∈ whyFactTypes := by
  obtain ⟨entry, hentry, rfl⟩ := List.mem_map.1 h
  have hall : ∀ field ∈ findingFields.map (·.factType), field ∈ whyFactTypes := by decide
  exact hall _ (List.mem_map_of_mem (List.mem_of_mem_filter hentry))

theorem factType_of_mem_targetDrafts {target : ActionTarget} {draft : FactDraft}
    (h : draft ∈ targetDrafts hash allowed target) : draft.factType ∈ targetFactTypes := by
  obtain ⟨entry, hentry, rfl⟩ := List.mem_map.1 h
  have hall : ∀ field ∈ targetFields, field.factType ∈ targetFactTypes := by decide
  exact hall entry (List.mem_of_mem_filter hentry)

theorem factType_of_mem_listDrafts {ids : List String} {head : String}
    {factType : CopyFactType} {values : List String} {draft : FactDraft}
    (h : draft ∈ listDrafts ids head factType values) : draft.factType = factType := by
  obtain ⟨pair, -, rfl⟩ := List.mem_map.1 h
  rfl

theorem values_listDrafts (ids : List String) (head : String) (factType : CopyFactType)
    (values : List String) :
    (listDrafts ids head factType values).map (fun draft => pyStrip draft.value) =
      values.map pyStrip := by
  rw [listDrafts, List.map_map]
  calc values.zipIdx.map _ = values.zipIdx.map (pyStrip ∘ Prod.fst) :=
        List.map_congr_left fun _ _ => rfl
    _ = values.map pyStrip := by rw [← List.map_map, List.zipIdx_map_fst]

/-- A target gives a fact when its kind is allowed. -/
theorem values_targetDrafts (target : ActionTarget) :
    (targetDrafts hash allowed target).map (fun draft => pyStrip draft.value) =
      if ∃ entry ∈ targetFields, entry.field ∈ allowed ∧ entry.kind = target.kind then
        [pyStrip target.value] else [] := by
  have hone : ∀ kind : ActionTargetKind, ∃ field : TargetField,
      field ∈ targetFields ∧ field.kind = kind ∧
        targetFields.filter (·.kind = kind) = [field] := by
    intro kind
    cases kind with
    | site =>
        exact ⟨⟨.targetSite, .site, "url", .targetSite⟩, by simp [targetFields], rfl, rfl⟩
    | url =>
        exact ⟨⟨.targetUrl, .url, "url", .targetUrl⟩, by simp [targetFields], rfl, rfl⟩
    | query =>
        exact ⟨⟨.targetQuery, .query, "query", .targetQuery⟩, by simp [targetFields], rfl, rfl⟩
    | pageType =>
        exact ⟨⟨.targetPageType, .pageType, "page_type", .targetPageType⟩,
          by simp [targetFields], rfl, rfl⟩
    | gbpField =>
        exact ⟨⟨.targetGbpField, .gbpField, "gbp_field", .targetGbpField⟩,
          by simp [targetFields], rfl, rfl⟩
  obtain ⟨field, hfield, hkind, hfilter⟩ := hone target.kind
  have hboth : targetFields.filter
      (fun entry => entry.field ∈ allowed ∧ entry.kind = target.kind) =
        [field].filter (·.field ∈ allowed) := by
    rw [← hfilter, List.filter_filter]
    simp only [Bool.decide_and]
  have hiff : (∃ entry ∈ targetFields, entry.field ∈ allowed ∧ entry.kind = target.kind) ↔
      field.field ∈ allowed := by
    constructor
    · rintro ⟨entry, hentry, hmem, hsame⟩
      have hin : entry ∈ targetFields.filter (·.kind = target.kind) :=
        List.mem_filter.2 ⟨hentry, decide_eq_true hsame⟩
      rw [hfilter, List.mem_singleton] at hin
      rwa [← hin]
    · intro hmem
      exact ⟨field, hfield, hmem, hkind⟩
  rw [targetDrafts, hboth, List.map_map]
  by_cases hmem : field.field ∈ allowed
  · rw [if_pos (hiff.2 hmem), List.filter_cons_of_pos (by simpa using hmem)]
    rfl
  · rw [if_neg (hiff.not.2 hmem), List.filter_cons_of_neg (by simpa using hmem)]
    rfl

theorem flatMap_if {α β : Type*} (p : α → Prop) [DecidablePred p] (f : α → β)
    (items : List α) :
    (items.flatMap fun item => if p item then [f item] else []) =
      (items.filter (fun item => p item)).map f := by
  induction items with
  | nil => rfl
  | cons item rest ih =>
      rw [List.flatMap_cons, ih, List.filter_cons]
      by_cases hp : p item
      · rw [if_pos hp, if_pos (decide_eq_true hp)]
        rfl
      · rw [if_neg hp, if_neg (by simpa using hp)]
        rfl

/-- The values of the facts of some types, in the order of the drafts. -/
def draftValues (hash : Hash) (action : ActionSkeleton) (findings : List Finding)
    (types : List CopyFactType) : List String :=
  ((factDrafts hash action findings).filter (·.factType ∈ types)).map
    fun draft => pyStrip draft.value

theorem filter_drafts_eq_nil {drafts : List FactDraft} {types others : List CopyFactType}
    (hdrafts : ∀ draft ∈ drafts, draft.factType ∈ types)
    (hdisjoint : ∀ factType ∈ types, factType ∉ others) :
    drafts.filter (·.factType ∈ others) = [] := by
  rw [List.filter_eq_nil_iff]
  intro draft hdraft
  rw [decide_eq_true_eq]
  exact hdisjoint _ (hdrafts draft hdraft)

theorem filter_drafts_eq_self {drafts : List FactDraft} {types : List CopyFactType}
    (hdrafts : ∀ draft ∈ drafts, draft.factType ∈ types) :
    drafts.filter (·.factType ∈ types) = drafts := by
  rw [List.filter_eq_self]
  intro draft hdraft
  exact decide_eq_true (hdrafts draft hdraft)

theorem factType_of_mem_list {ids : List String} {head : String} {factType : CopyFactType}
    {values : List String} :
    ∀ draft ∈ listDrafts ids head factType values, draft.factType ∈ [factType] :=
  fun _ hdraft => List.mem_singleton.2 (factType_of_mem_listDrafts hdraft)

/-- The parts of the drafts, of which each has types of its own. -/
theorem factDrafts_parts (hash : Hash) (action : ActionSkeleton) (findings : List Finding)
    (hdone : AllowedFactField.actionDefinitionOfDone ∈
      action.copyRequirements.allowedFactFields) :
    ∃ whyDrafts targetDrafts done limitations : List FactDraft,
      factDrafts hash action findings = whyDrafts ++ targetDrafts ++ done ++ limitations ∧
      (∀ draft ∈ whyDrafts, draft.factType ∈ whyFactTypes) ∧
      (∀ draft ∈ targetDrafts, draft.factType ∈ targetFactTypes) ∧
      (∀ draft ∈ done, draft.factType ∈ [CopyFactType.definitionOfDone]) ∧
      (∀ draft ∈ limitations, draft.factType ∈ [CopyFactType.requiredLimitation]) ∧
      (targetDrafts.map fun draft => pyStrip draft.value).Perm (statedTargets action) ∧
      (done.map fun draft => pyStrip draft.value) = statedCompletion action ∧
      (limitations.map fun draft => pyStrip draft.value) = statedLimitations action := by
  refine ⟨_, _, _, _, rfl, ?_, ?_, ?_, ?_, ?_, ?_, ?_⟩
  · intro draft hdraft
    obtain ⟨finding, -, hdraft⟩ := List.mem_flatMap.1 hdraft
    exact factType_of_mem_findingDrafts hdraft
  · intro draft hdraft
    obtain ⟨target, -, hdraft⟩ := List.mem_flatMap.1 hdraft
    exact factType_of_mem_targetDrafts hdraft
  · rw [if_pos hdone]
    exact factType_of_mem_list
  · exact factType_of_mem_list
  · rw [List.map_flatMap]
    simp only [values_targetDrafts]
    rw [flatMap_if, statedTargets]
    exact ((sortedBy_perm _ _).filter _).map _
  · rw [if_pos hdone]
    exact values_listDrafts _ _ _ _
  · exact values_listDrafts _ _ _ _

theorem draftValues_targets (hdone : AllowedFactField.actionDefinitionOfDone ∈
    action.copyRequirements.allowedFactFields) :
    (draftValues hash action findings targetFactTypes).Perm (statedTargets action) := by
  obtain ⟨whyDrafts, targets, done, limitations, hdrafts, hwhy, htargets, hdoneTypes,
    hlimitations, hvalues, -, -⟩ := factDrafts_parts hash action findings hdone
  rw [draftValues, hdrafts, List.filter_append, List.filter_append, List.filter_append,
    filter_drafts_eq_nil hwhy (by decide), filter_drafts_eq_self htargets,
    filter_drafts_eq_nil hdoneTypes (by decide),
    filter_drafts_eq_nil hlimitations (by decide), List.nil_append, List.append_nil,
    List.append_nil]
  exact hvalues

theorem draftValues_completion (hdone : AllowedFactField.actionDefinitionOfDone ∈
    action.copyRequirements.allowedFactFields) :
    draftValues hash action findings [.definitionOfDone] = statedCompletion action := by
  obtain ⟨whyDrafts, targets, done, limitations, hdrafts, hwhy, htargets, hdoneTypes,
    hlimitations, -, hvalues, -⟩ := factDrafts_parts hash action findings hdone
  rw [draftValues, hdrafts, List.filter_append, List.filter_append, List.filter_append,
    filter_drafts_eq_nil hwhy (by decide), filter_drafts_eq_nil htargets (by decide),
    filter_drafts_eq_self hdoneTypes,
    filter_drafts_eq_nil hlimitations (by decide), List.nil_append, List.nil_append,
    List.append_nil]
  exact hvalues

theorem draftValues_limitations (hdone : AllowedFactField.actionDefinitionOfDone ∈
    action.copyRequirements.allowedFactFields) :
    draftValues hash action findings [.requiredLimitation] = statedLimitations action := by
  obtain ⟨whyDrafts, targets, done, limitations, hdrafts, hwhy, htargets, hdoneTypes,
    hlimitations, -, -, hvalues⟩ := factDrafts_parts hash action findings hdone
  rw [draftValues, hdrafts, List.filter_append, List.filter_append, List.filter_append,
    filter_drafts_eq_nil hwhy (by decide), filter_drafts_eq_nil htargets (by decide),
    filter_drafts_eq_nil hdoneTypes (by decide),
    filter_drafts_eq_self hlimitations, List.nil_append, List.nil_append, List.nil_append]
  exact hvalues

end DraftsByType

section FactsByType

variable {hash : Hash} {limits : PublicCopyLimits} {findings : List Finding}
  {action : ActionSkeleton} {input : CopyActionInput}

/-- The facts of some types. -/
def factsOf (input : CopyActionInput) (types : List CopyFactType) : List CopyFact :=
  input.facts.filter (·.factType ∈ types)

theorem mem_factsOf {types : List CopyFactType} {fact : CopyFact} :
    fact ∈ factsOf input types ↔ fact ∈ input.facts ∧ fact.factType ∈ types := by
  rw [factsOf, List.mem_filter, decide_eq_true_eq]

theorem BuiltInput.values_perm (h : BuiltInput hash limits findings action input)
    (types : List CopyFactType) :
    ((factsOf input types).map (·.value)).Perm (draftValues hash action findings types) := by
  have hvalue : (fun fact : CopyFact => fact.value) ∘ factOf hash action.actionId =
      fun draft => pyStrip draft.value := funext fun _ => factOf_value
  have htype : (fun fact : CopyFact => decide (fact.factType ∈ types)) ∘
      factOf hash action.actionId = fun draft => decide (draft.factType ∈ types) :=
    funext fun draft => by rw [Function.comp_apply, factOf_factType]
  have hperm := (h.facts.filter (·.factType ∈ types)).map (·.value)
  rw [List.filter_map, List.map_map, hvalue, htype] at hperm
  exact hperm

theorem BuiltInput.allowsDone (h : BuiltInput hash limits findings action input) :
    AllowedFactField.actionDefinitionOfDone ∈ action.copyRequirements.allowedFactFields := by
  obtain ⟨template, hfound, -, hfields, -⟩ := h.template
  have hall : ∀ template ∈ actionTemplates,
      AllowedFactField.actionDefinitionOfDone ∈ template.copyAllowedFactFields := by decide
  rw [hfields]
  exact hall template (actionTemplate_mem hfound)

theorem BuiltInput.allowsStatement (h : BuiltInput hash limits findings action input) :
    AllowedFactField.findingStatement ∈ action.copyRequirements.allowedFactFields := by
  obtain ⟨template, hfound, -, hfields, -⟩ := h.template
  have hall : ∀ template ∈ actionTemplates,
      AllowedFactField.findingStatement ∈ template.copyAllowedFactFields := by decide
  rw [hfields]
  exact hall template (actionTemplate_mem hfound)

/-- Every value is solid and not empty. -/
theorem BuiltInput.endsSolid (h : BuiltInput hash limits findings action input)
    {fact : CopyFact} (hfact : fact ∈ input.facts) : EndsSolid fact.value := by
  obtain ⟨draft, hdraft, rfl⟩ := List.mem_map.1 (h.facts.mem_iff.1 hfact)
  rw [factOf_value]
  exact (solid_pyStrip _).endsSolid (h.values draft hdraft).1

/-- A statement that a fact gives is the statement of a finding of the action. -/
theorem BuiltInput.exists_finding (h : BuiltInput hash limits findings action input)
    {fact : CopyFact} (hfact : fact ∈ input.facts)
    (htype : fact.factType = .findingStatement) :
    ∃ finding ∈ findings, finding.findingId ∈ action.findingIds ∧
      fact.value = pyStrip finding.statement := by
  obtain ⟨draft, hdraft, rfl⟩ := List.mem_map.1 (h.facts.mem_iff.1 hfact)
  rw [factOf_factType] at htype
  rw [factOf_value]
  simp only [factDrafts, List.mem_append, List.mem_flatMap] at hdraft
  rcases hdraft with ((⟨finding, hfinding, hdraft⟩ | ⟨target, -, hdraft⟩) | hdraft) | hdraft
  · obtain ⟨id, hid, hfound⟩ := List.mem_filterMap.1 hfinding
    have hname : finding.findingId = id := by simpa using List.find?_some hfound
    obtain ⟨entry, hentry, rfl⟩ := List.mem_map.1 hdraft
    refine ⟨finding, List.mem_of_find?_eq_some hfound, hname ▸ mem_sortedBy.1 hid, ?_⟩
    have hfield := List.mem_of_mem_filter hentry
    simp only [findingFields, List.mem_cons, List.not_mem_nil, or_false] at hfield
    rcases hfield with rfl | rfl | rfl | rfl
    · rfl
    · cases htype
    · cases htype
    · cases htype
  · have htarget := factType_of_mem_targetDrafts hdraft
    rw [htype] at htarget
    exact absurd htarget (by decide)
  · split at hdraft
    · rw [factType_of_mem_listDrafts hdraft] at htype
      cases htype
    · cases hdraft
  · rw [factType_of_mem_listDrafts hdraft] at htype
    cases htype

/-- Every finding of the action gives a fact with its statement. -/
theorem BuiltInput.exists_fact (h : BuiltInput hash limits findings action input)
    (hnodup : (findings.map (·.findingId)).Nodup) {finding : Finding}
    (hfinding : finding ∈ findings) (hid : finding.findingId ∈ action.findingIds) :
    ∃ fact ∈ input.facts, fact.factType = .findingStatement ∧
      fact.value = pyStrip finding.statement := by
  have hfound := find?_key_eq hnodup hfinding
  let entry : FindingField := ⟨.findingStatement, "statement", .findingStatement, (·.statement)⟩
  let draft : FactDraft := {
    sourceFindingIds := [finding.findingId]
    sourcePath := "finding." ++ finding.findingId ++ "." ++ entry.attributeName
    factType := entry.factType
    value := entry.value finding }
  have hentry : entry ∈ findingFields := List.mem_cons_self
  have hdraft : draft ∈ factDrafts hash action findings := by
    simp only [factDrafts, List.mem_append, List.mem_flatMap]
    refine .inl (.inl (.inl ⟨finding, ?_, ?_⟩))
    · exact List.mem_filterMap.2 ⟨finding.findingId, mem_sortedBy.2 hid, hfound⟩
    · exact List.mem_map.2 ⟨entry,
        List.mem_filter.2 ⟨hentry, decide_eq_true h.allowsStatement⟩, rfl⟩
  refine ⟨factOf hash action.actionId draft,
    h.facts.mem_iff.2 (List.mem_map_of_mem hdraft), rfl, ?_⟩
  rw [factOf_value]

end FactsByType

section Explanations

variable {hash : Hash} {limits : PublicCopyLimits} {findings : List Finding}
  {action : ActionSkeleton} {input : CopyActionInput} {rendered : RenderedActionCopy}
  {measure : String → ℕ}

theorem measure_explanationOf (h : AddsUp measure) (opening middle : String)
    (targets completion limitations : List String) :
    measure (explanationOf opening middle targets completion limitations) =
      measure opening + measure middle + measure " Keep these limits in view: " +
        measure ("; ".intercalate targets) + measure ("; ".intercalate completion) +
        measure ("; ".intercalate limitations) := by
  rw [explanationOf, h.append, h.append, h.append, h.append, h.append]
  omega

/-- A fact is known by its ID. -/
theorem eq_of_factId_eq (hvalid : input.Valid) {fact other : CopyFact}
    (hfact : fact ∈ input.facts) (hother : other ∈ input.facts)
    (h : fact.factId = other.factId) : fact = other :=
  List.inj_on_of_nodup_map hvalid.factIdsNodup hfact hother h

/-- Facts of some types that are chosen without repetition, and of which none may be
left out, are all facts of these types. -/
theorem chosen_perm_factsOf (hvalid : input.Valid) {types : List CopyFactType}
    {used facts : List CopyFact} (hused : ∀ fact ∈ used, fact ∈ input.facts)
    (hfacts : ∀ fact ∈ used, fact ∈ facts ↔ fact.factType ∈ types)
    (hsub : facts.Sublist used) (hnodup : (used.map (·.factId)).Nodup)
    (hall : ∀ fact ∈ input.facts, fact.factType ∈ types →
      fact.factId ∈ used.map (·.factId)) :
    facts.Perm (factsOf input types) := by
  have hleft : facts.Nodup := (List.Nodup.of_map _ hnodup).sublist hsub
  have hright : (factsOf input types).Nodup :=
    (List.Nodup.of_map _ hvalid.factIdsNodup).filter _
  refine (List.perm_ext_iff_of_nodup hleft hright).2 ?_
  intro fact
  rw [mem_factsOf]
  constructor
  · intro hfact
    have hmem := hsub.subset hfact
    exact ⟨hused fact hmem, (hfacts fact hmem).1 hfact⟩
  · rintro ⟨hfact, htype⟩
    obtain ⟨other, hother, hid⟩ := List.mem_map.1 (hall fact hfact htype)
    have hsame := eq_of_factId_eq hvalid (hused other hother) hfact hid
    exact (hfacts fact (hsame ▸ hother)).2 htype

/-- The facts of the slots of an explanation. -/
theorem closed_slots (h : BuiltInput hash limits findings action input)
    (hclosed : ClosedAction input rendered) {chosen : List (List CopyFact)}
    (hslots : List.Forall₂ (fun slot facts =>
      slot.minItems ≤ facts.length ∧ facts.length ≤ slot.maxItems ∧
      ∀ fact ∈ facts, fact ∈ input.facts ∧
        CopyPurpose.clientFacingExplanation ∈ fact.allowedPurposes ∧
        fact.factType ∈ slot.allowedFactTypes) explanationSlots chosen)
    (hids : rendered.explanationFactIds = chosen.flatten.map (·.factId))
    (hnodup : rendered.explanationFactIds.Nodup) :
    ∃ targets completion limitations, chosen = [targets, completion, limitations] ∧
      limitations ≠ [] ∧ targets.Perm (factsOf input targetFactTypes) ∧
      completion.Perm (factsOf input [.definitionOfDone]) ∧
      limitations.Perm (factsOf input [.requiredLimitation]) := by
  obtain ⟨targets, others, htargets, hothers, rfl⟩ := List.forall₂_cons_left_iff.1 hslots
  obtain ⟨completion, last, hcompletion, hlast, rfl⟩ := List.forall₂_cons_left_iff.1 hothers
  obtain ⟨limitations, rest, hlimitations, hrest, rfl⟩ := List.forall₂_cons_left_iff.1 hlast
  obtain rfl := List.forall₂_nil_left_iff.1 hrest
  rw [hids] at hnodup
  have hmem : ∀ fact, fact ∈ [targets, completion, limitations].flatten ↔
      fact ∈ targets ∨ fact ∈ completion ∨ fact ∈ limitations := by
    intro fact
    simp only [List.flatten_cons, List.flatten_nil, List.append_nil, List.mem_append]
  have hone : ∀ fact ∈ completion, fact.factType = .definitionOfDone := fun fact hfact =>
    List.mem_singleton.1 (hcompletion.2.2 fact hfact).2.2
  have htwo : ∀ fact ∈ limitations, fact.factType = .requiredLimitation := fun fact hfact =>
    List.mem_singleton.1 (hlimitations.2.2 fact hfact).2.2
  have hthree : ∀ fact ∈ targets, fact.factType ∈ targetFactTypes := fun fact hfact =>
    (htargets.2.2 fact hfact).2.2
  have hused : ∀ fact ∈ [targets, completion, limitations].flatten, fact ∈ input.facts := by
    intro fact hfact
    rcases (hmem fact).1 hfact with hfact | hfact | hfact
    · exact (htargets.2.2 fact hfact).1
    · exact (hcompletion.2.2 fact hfact).1
    · exact (hlimitations.2.2 fact hfact).1
  have hrequired : ∀ fact ∈ input.facts, fact.factType ∈ targetFactTypes ∨
      fact.factType = .definitionOfDone ∨ fact.factType = .requiredLimitation →
      fact.factId ∈ [targets, completion, limitations].flatten.map (·.factId) := by
    intro fact hfact htype
    rw [← hids, hclosed.required]
    rcases htype with htype | htype | htype
    · exact .inl ⟨fact, hfact, rfl, .inl htype⟩
    · exact .inl ⟨fact, hfact, rfl, .inr htype⟩
    · right
      rw [h.limitationIds]
      exact List.mem_map_of_mem (List.mem_filter.2 ⟨hfact, decide_eq_true htype⟩)
  refine ⟨targets, completion, limitations, rfl, ?_, ?_, ?_, ?_⟩
  · exact List.ne_nil_of_length_pos hlimitations.1
  · refine chosen_perm_factsOf h.valid hused ?_ ?_ hnodup
      fun fact hfact htype => hrequired fact hfact (.inl htype)
    · intro fact hfact
      refine ⟨hthree fact, fun htype => ?_⟩
      rcases (hmem fact).1 hfact with hfact | hfact | hfact
      · exact hfact
      · rw [hone fact hfact] at htype
        exact absurd htype (by decide)
      · rw [htwo fact hfact] at htype
        exact absurd htype (by decide)
    · exact List.sublist_append_left _ _
  · refine chosen_perm_factsOf h.valid hused ?_ ?_ hnodup
      fun fact hfact htype => hrequired fact hfact (.inr (.inl (List.mem_singleton.1 htype)))
    · intro fact hfact
      refine ⟨fun hin => List.mem_singleton.2 (hone fact hin), fun htype => ?_⟩
      rcases (hmem fact).1 hfact with hfact | hfact | hfact
      · have htarget := hthree fact hfact
        rw [List.mem_singleton.1 htype] at htarget
        exact absurd htarget (by decide)
      · exact hfact
      · rw [htwo fact hfact] at htype
        exact absurd htype (by decide)
    · exact (List.sublist_append_left _ _).trans (List.sublist_append_right _ _)
  · refine chosen_perm_factsOf h.valid hused ?_ ?_ hnodup
      fun fact hfact htype => hrequired fact hfact (.inr (.inr (List.mem_singleton.1 htype)))
    · intro fact hfact
      refine ⟨fun hin => List.mem_singleton.2 (htwo fact hin), fun htype => ?_⟩
      rcases (hmem fact).1 hfact with hfact | hfact | hfact
      · have htarget := hthree fact hfact
        rw [List.mem_singleton.1 htype] at htarget
        exact absurd htarget (by decide)
      · rw [hone fact hfact] at htype
        exact absurd htype (by decide)
      · exact hfact
    · exact (List.sublist_append_left _ _).trans
        ((List.sublist_append_right _ _).trans (List.sublist_append_right _ _))

theorem format_explanation (opening middle : String)
    (targets completion limitations : List CopyFact) :
    format [.literal opening, .placeholder "targets", .literal middle,
        .placeholder "completion", .literal " Keep these limits in view: ",
        .placeholder "limitations"]
      (fun name => (slotTexts explanationSlots [targets, completion, limitations]).lookup name) =
      some (explanationOf opening middle (targets.map (·.value)) (completion.map (·.value))
        (limitations.map (·.value))) := by
  simp [format, slotTexts, explanationSlots, joinedValues, explanationOf, List.lookup_cons]

theorem format_whyNow (opening : String) (fact : CopyFact) :
    format [.literal opening, .placeholder "finding"]
      (fun name => (slotTexts [findingSlot] [[fact]]).lookup name) =
      some (opening ++ fact.value) := by
  simp [format, slotTexts, findingSlot, joinedValues]

theorem whyNow_definitions : ∀ definition ∈ allPatterns, definition.spec.purpose = .whyNow →
    definition.spec.slots = [findingSlot] ∧
      ((definition.spec.patternKey = "why_now.evidence_finding.v1" ∧
          definition.template = [.literal "The saved evidence makes this action timely: ",
            .placeholder "finding"]) ∨
        (definition.spec.patternKey = "why_now.current_finding.v1" ∧
          definition.template =
            [.literal "This action is relevant now because the current finding is: ",
              .placeholder "finding"])) := by
  decide

theorem explanation_definitions : ∀ definition ∈ allPatterns,
    definition.spec.purpose = .clientFacingExplanation →
      definition.spec.slots = explanationSlots ∧
        ((definition.spec.patternKey = "explanation.targets_completion_limits.v1" ∧
            definition.template = [.literal "Focus on ", .placeholder "targets",
              .literal ". Completion is defined by ", .placeholder "completion",
              .literal " Keep these limits in view: ", .placeholder "limitations"]) ∨
          (definition.spec.patternKey = "explanation.completion_targets_limits.v1" ∧
            definition.template = [.literal "Use ", .placeholder "targets",
              .literal " as the exact scope. The completion condition is ",
              .placeholder "completion", .literal " Keep these limits in view: ",
              .placeholder "limitations"])) := by
  decide

theorem solid_explanationOf {opening middle : String} {targets completion limitations : List String}
    (hopening : opening ≠ "" ∧ ∀ c ∈ opening.toList.head?, Web.isSpace c = false)
    (hne : limitations ≠ []) (hends : ∀ value ∈ limitations, EndsSolid value) :
    Solid (explanationOf opening middle targets completion limitations) := by
  have hlast := endsSolid_intercalate "; " hne hends
  refine solid_append hopening.1 hopening.2 ?_
  exact ((((hlast.append _).append _).append _).append _)

/-- An explanation is one of the two catalog templates over all the facts that it has to
state. -/
theorem closed_explanation (h : BuiltInput hash limits findings action input)
    (hclosed : ClosedAction input rendered) :
    ∃ targets completion limitations : List String,
      targets.Perm (statedTargets action) ∧ completion.Perm (statedCompletion action) ∧
      limitations.Perm (statedLimitations action) ∧
      rendered.explanationFactIds.length = statedCount action ∧
      ((rendered.explanationPatternKey = "explanation.targets_completion_limits.v1" ∧
          rendered.clientFacingExplanation =
            explanationOf "Focus on " ". Completion is defined by " targets completion
              limitations) ∨
        (rendered.explanationPatternKey = "explanation.completion_targets_limits.v1" ∧
          rendered.clientFacingExplanation =
            explanationOf "Use " " as the exact scope. The completion condition is " targets
              completion limitations)) := by
  obtain ⟨definition, hcatalog, hpurpose, hkey, chosen, hall, hids, hnodup, filled, hfilled,
    htext⟩ := hclosed.explanation
  obtain ⟨hslots, hforms⟩ := explanation_definitions definition hcatalog hpurpose
  rw [hslots] at hall hfilled
  obtain ⟨targets, completion, limitations, rfl, hne, htargets, hcompletion, hlimitations⟩ :=
    closed_slots h hclosed hall hids hnodup
  have hvalues := fun types => h.values_perm types
  have htargetValues := ((htargets.map (·.value)).trans (hvalues _)).trans
    (draftValues_targets h.allowsDone)
  have hcompletionValues := ((hcompletion.map (·.value)).trans (hvalues _)).trans
    (List.Perm.of_eq (draftValues_completion h.allowsDone))
  have hlimitationValues := ((hlimitations.map (·.value)).trans (hvalues _)).trans
    (List.Perm.of_eq (draftValues_limitations h.allowsDone))
  have hends : ∀ value ∈ limitations.map (·.value), EndsSolid value := by
    intro value hvalue
    obtain ⟨fact, hfact, rfl⟩ := List.mem_map.1 hvalue
    exact h.endsSolid (mem_factsOf.1 (hlimitations.mem_iff.1 hfact)).1
  have hneValues : limitations.map (·.value) ≠ [] := by
    rw [ne_eq, List.map_eq_nil_iff]
    exact hne
  refine ⟨_, _, _, htargetValues, hcompletionValues, hlimitationValues, ?_, ?_⟩
  · rw [hids, List.length_map, List.flatten_cons, List.flatten_cons, List.flatten_cons,
      List.flatten_nil, List.append_nil, List.length_append, List.length_append, statedCount,
      ← htargetValues.length_eq, ← hcompletionValues.length_eq,
      ← hlimitationValues.length_eq, List.length_map, List.length_map, List.length_map]
  · rcases hforms with ⟨hform, htemplate⟩ | ⟨hform, htemplate⟩
    · refine .inl ⟨hkey.symm.trans hform, ?_⟩
      have hopening : ("Focus on " : String) ≠ "" ∧
          ∀ c ∈ "Focus on ".toList.head?, Web.isSpace c = false :=
        ⟨by decide, startsSolid (by decide)⟩
      rw [htemplate, format_explanation] at hfilled
      rw [htext, ← Option.some.inj hfilled]
      exact pyStrip_eq_self (solid_explanationOf hopening hneValues hends)
    · refine .inr ⟨hkey.symm.trans hform, ?_⟩
      have hopening : ("Use " : String) ≠ "" ∧
          ∀ c ∈ "Use ".toList.head?, Web.isSpace c = false :=
        ⟨by decide, startsSolid (by decide)⟩
      rw [htemplate, format_explanation] at hfilled
      rw [htext, ← Option.some.inj hfilled]
      exact pyStrip_eq_self (solid_explanationOf hopening hneValues hends)

/-- A sentence about a finding is one of the two catalog templates. -/
theorem closed_whyNow (h : BuiltInput hash limits findings action input)
    (hclosed : ClosedAction input rendered) :
    ∃ finding ∈ findings, finding.findingId ∈ action.findingIds ∧
      rendered.whyNowFactIds.length = 1 ∧
      ((rendered.whyNowPatternKey = "why_now.evidence_finding.v1" ∧
          rendered.whyNow = whyNowText finding) ∨
        (rendered.whyNowPatternKey = "why_now.current_finding.v1" ∧
          rendered.whyNow = "This action is relevant now because the current finding is: " ++
            pyStrip finding.statement)) := by
  obtain ⟨definition, hcatalog, hpurpose, hkey, chosen, hall, hids, -, filled, hfilled,
    htext⟩ := hclosed.whyNow
  obtain ⟨hslots, hforms⟩ := whyNow_definitions definition hcatalog hpurpose
  rw [hslots] at hall hfilled
  obtain ⟨facts, rest, hfacts, hrest, rfl⟩ := List.forall₂_cons_left_iff.1 hall
  obtain rfl := List.forall₂_nil_left_iff.1 hrest
  obtain ⟨fact, rfl⟩ := List.length_eq_one_iff.1 (Nat.le_antisymm hfacts.2.1 hfacts.1)
  obtain ⟨hfact, -, htype⟩ := hfacts.2.2 fact (List.mem_singleton_self fact)
  obtain ⟨finding, hfinding, hid, hvalue⟩ :=
    h.exists_finding hfact (List.mem_singleton.1 htype)
  have hends := h.endsSolid hfact
  rw [hvalue] at hends
  refine ⟨finding, hfinding, hid, by rw [hids]; rfl, ?_⟩
  rcases hforms with ⟨hform, htemplate⟩ | ⟨hform, htemplate⟩
  · refine .inl ⟨hkey.symm.trans hform, ?_⟩
    rw [htemplate, format_whyNow, hvalue] at hfilled
    rw [htext, ← Option.some.inj hfilled]
    exact pyStrip_eq_self (solid_append (by decide) (startsSolid (by decide)) hends)
  · refine .inr ⟨hkey.symm.trans hform, ?_⟩
    rw [htemplate, format_whyNow, hvalue] at hfilled
    rw [htext, ← Option.some.inj hfilled]
    exact pyStrip_eq_self (solid_append (by decide) (startsSolid (by decide)) hends)

end Explanations

section Sizes

theorem jsonSize_texts (values : List String) :
    jsonSize (texts values) =
      (values.map contentSize).sum + 2 * values.length + 2 + (values.length - 1) := by
  have hitems : itemsSize (values.map Json.string) =
      (values.map contentSize).sum + 2 * values.length := by
    induction values with
    | nil => rfl
    | cons value rest ih =>
        rw [List.map_cons, itemsSize, ih, jsonSize, stringSize, List.map_cons, List.sum_cons,
          List.length_cons]
        omega
  rw [texts, jsonSize, hitems, List.length_map]

/-- Lists of fact IDs differ in size by their length only. -/
theorem jsonSize_factIds {ids : List String} (h : ∀ id ∈ ids, isCopyFactId id = true) :
    jsonSize (texts ids) = 29 * ids.length + 2 + (ids.length - 1) := by
  have hsum : (ids.map contentSize).sum = 27 * ids.length := by
    have hall : ids.map contentSize = List.replicate ids.length 27 := by
      rw [List.eq_replicate_iff, List.length_map]
      refine ⟨rfl, ?_⟩
      intro size hsize
      obtain ⟨id, hid, rfl⟩ := List.mem_map.1 hsize
      exact contentSize_of_isCopyFactId (h id hid)
    rw [hall, List.sum_replicate_nat, Nat.mul_comm]
  rw [jsonSize_texts, hsum]
  omega

theorem jsonSize_renderedActionCopy (rendered : RenderedActionCopy) :
    jsonSize rendered.json = 170 + contentSize rendered.actionId +
      (toString rendered.sequence).length + contentSize rendered.whyNow +
      contentSize rendered.clientFacingExplanation + contentSize rendered.whyNowPatternKey +
      jsonSize (texts rendered.whyNowFactIds) + contentSize rendered.explanationPatternKey +
      jsonSize (texts rendered.explanationFactIds) := by
  have h1 : stringSize "action_id" = 11 := by decide
  have h2 : stringSize "sequence" = 10 := by decide
  have h3 : stringSize "why_now" = 9 := by decide
  have h4 : stringSize "client_facing_explanation" = 27 := by decide
  have h5 : stringSize "why_now_pattern_key" = 21 := by decide
  have h6 : stringSize "why_now_fact_ids" = 18 := by decide
  have h7 : stringSize "explanation_pattern_key" = 25 := by decide
  have h8 : stringSize "explanation_fact_ids" = 22 := by decide
  simp only [RenderedActionCopy.json, number, jsonSize, fieldsSize, h1, h2, h3, h4, h5, h6, h7,
    h8, List.length_cons, List.length_nil]
  simp only [stringSize]
  omega

theorem jsonSize_publicActionCopyResult (findingsChecksum actionPlanChecksum : String)
    (actions : List RenderedActionCopy) :
    jsonSize (PublicActionCopyResult.json { findingsChecksum, actionPlanChecksum, actions }) =
      230 + contentSize findingsChecksum + contentSize actionPlanChecksum +
        ((actions.map fun action => jsonSize action.json).sum + (actions.length - 1)) := by
  have h1 : stringSize "schema_version" = 16 := by decide
  have h2 : stringSize "copy_contract_version" = 23 := by decide
  have h3 : stringSize "copy_catalog_version" = 22 := by decide
  have h4 : stringSize "findings_checksum" = 19 := by decide
  have h5 : stringSize "action_plan_checksum" = 22 := by decide
  have h6 : stringSize "actions" = 9 := by decide
  have h7 : stringSize "attempt_count" = 15 := by decide
  have h8 : stringSize "public_action_copy_result_v1" = 30 := by decide
  have h9 : stringSize copyContractVersion = 24 := by decide
  have h10 : stringSize copyCatalogVersion = 28 := by decide
  have h11 : (toString 1).length = 1 := by decide
  simp only [PublicActionCopyResult.json, number, jsonSize, fieldsSize, h1, h2, h3, h4, h5, h6,
    h7, h8, h9, h10, h11, List.length_cons, List.length_nil, itemsSize_eq_sum, List.map_map,
    List.length_map]
  simp only [stringSize, Function.comp_def]
  omega

end Sizes

section Bounds

variable {hash : Hash} {limits : PublicCopyLimits} {findings : List Finding}
  {action : ActionSkeleton} {input : CopyActionInput} {rendered : RenderedActionCopy}
  {measure : String → ℕ}

/-- The explanation of a copy is no shorter than the shorter template. -/
theorem explanationText_le (hmeasure : AddsUp measure)
    (hwords : measure "Focus on " + measure ". Completion is defined by " ≤
      measure "Use " + measure " as the exact scope. The completion condition is ")
    (h : BuiltInput hash limits findings action input) (hclosed : ClosedAction input rendered) :
    measure (explanationText action) ≤ measure rendered.clientFacingExplanation := by
  obtain ⟨targets, completion, limitations, htargets, hcompletion, hlimitations, -, hforms⟩ :=
    closed_explanation h hclosed
  have h1 := measure_intercalate_perm hmeasure "; " htargets
  have h2 := measure_intercalate_perm hmeasure "; " hcompletion
  have h3 := measure_intercalate_perm hmeasure "; " hlimitations
  rw [explanationText, measure_explanationOf hmeasure]
  rcases hforms with ⟨-, htext⟩ | ⟨-, htext⟩
  · rw [htext, measure_explanationOf hmeasure]
    omega
  · rw [htext, measure_explanationOf hmeasure]
    omega

theorem factIds_shortestAction (action : ActionSkeleton) (finding : Finding) :
    (∀ id ∈ (shortestAction action finding).whyNowFactIds, isCopyFactId id = true) ∧
      ∀ id ∈ (shortestAction action finding).explanationFactIds, isCopyFactId id = true := by
  have hform : isCopyFactId someFactId = true := by decide
  constructor
  · intro id hid
    rwa [List.mem_singleton.1 hid]
  · intro id hid
    rwa [List.eq_of_mem_replicate hid]

/-- A longer opening makes a longer text. -/
theorem length_append_le {a b : String} (rest : String) (h : a.length ≤ b.length) :
    (a ++ rest).length ≤ (b ++ rest).length := by
  rw [String.length_append, String.length_append]
  exact Nat.add_le_add_right h _

theorem contentSize_append_le {a b : String} {k l : ℕ} (rest : String)
    (h : contentSize a + k ≤ contentSize b + l) :
    contentSize (a ++ rest) + k ≤ contentSize (b ++ rest) + l := by
  rw [addsUp_contentSize.append, addsUp_contentSize.append]
  omega

theorem whyNow_words_length :
    ("The saved evidence makes this action timely: " : String).length ≤
      ("This action is relevant now because the current finding is: " : String).length := by
  decide

theorem whyNow_words_size :
    contentSize "The saved evidence makes this action timely: " +
        contentSize "why_now.evidence_finding.v1" ≤
      contentSize "This action is relevant now because the current finding is: " +
        contentSize "why_now.current_finding.v1" := by
  decide

/-- The sentence of a copy is no shorter than the shorter template. -/
theorem whyNowText_le {finding : Finding} {key text : String}
    (h : (key = "why_now.evidence_finding.v1" ∧ text = whyNowText finding) ∨
      (key = "why_now.current_finding.v1" ∧
        text = "This action is relevant now because the current finding is: " ++
          pyStrip finding.statement)) :
    (whyNowText finding).length ≤ text.length ∧
      contentSize (whyNowText finding) + contentSize "why_now.evidence_finding.v1" ≤
        contentSize text + contentSize key := by
  rcases h with ⟨rfl, rfl⟩ | ⟨rfl, rfl⟩
  · exact ⟨Nat.le_refl _, Nat.le_refl _⟩
  · refine ⟨?_, ?_⟩
    · unfold whyNowText
      exact length_append_le _ whyNow_words_length
    · unfold whyNowText
      exact contentSize_append_le _ whyNow_words_size

/-- No copy of an action is shorter than the shortest one with the same finding. -/
theorem closed_lower_bound (h : BuiltInput hash limits findings action input)
    (hclosed : ClosedAction input rendered) (hvalid : rendered.Valid) :
    ∃ finding ∈ findings, finding.findingId ∈ action.findingIds ∧
      (whyNowText finding).length ≤ 200000 ∧ (explanationText action).length ≤ 200000 ∧
      jsonSize (shortestAction action finding).json ≤ jsonSize rendered.json := by
  obtain ⟨finding, hfinding, hid, hwhyCount, hwhy⟩ := closed_whyNow h hclosed
  obtain ⟨_, _, _, -, -, -, hcount, hforms⟩ := closed_explanation h hclosed
  obtain ⟨hwhyLength, hwhySize⟩ := whyNowText_le hwhy
  have hexplanationLength := explanationText_le addsUp_length (by decide) h hclosed
  have hexplanationSize := explanationText_le addsUp_contentSize (by decide) h hclosed
  have hkeySize : contentSize "explanation.targets_completion_limits.v1" =
      contentSize rendered.explanationPatternKey := by
    rcases hforms with ⟨hkey, -⟩ | ⟨hkey, -⟩
    · rw [hkey]
    · rw [hkey]
      decide
  have hwhyMax : rendered.whyNow.length ≤ 200000 := by
    have hwithin := hvalid.whyNow
    rw [lengthWithin, Bool.and_eq_true, decide_eq_true_eq, decide_eq_true_eq] at hwithin
    exact hwithin.2
  have hexplanationMax : rendered.clientFacingExplanation.length ≤ 200000 := by
    have hwithin := hvalid.explanation
    rw [lengthWithin, Bool.and_eq_true, decide_eq_true_eq, decide_eq_true_eq] at hwithin
    exact hwithin.2
  obtain ⟨hwhyForm, hexplanationForm⟩ := factIds_shortestAction action finding
  refine ⟨finding, hfinding, hid, hwhyLength.trans hwhyMax,
    hexplanationLength.trans hexplanationMax, ?_⟩
  rw [jsonSize_renderedActionCopy, jsonSize_renderedActionCopy, jsonSize_factIds hwhyForm,
    jsonSize_factIds hexplanationForm, jsonSize_factIds hvalid.whyNowFactIds,
    jsonSize_factIds hvalid.explanationFactIds, hclosed.actionId, hclosed.sequence, h.actionId,
    h.sequence, hwhyCount, hcount]
  simp only [shortestAction, List.length_singleton, List.length_replicate]
  omega

/-- What an accepted copy tells about the findings and the plan of its request. -/
theorem copyFits_of_closed {env : Environment} {result : PublicFindingsResult}
    {plan : PublicActionPlan} {request : CopyRequestV1}
    (h : BuiltRequest env limits result plan request) {done : List RenderedActionCopy}
    (hclosed : List.Forall₂ (fun action done => ClosedAction action done ∧
      RenderedActionCopy.Valid done) request.actions done)
    (hsize : jsonSize (PublicActionCopyResult.json {
      findingsChecksum := request.findingsChecksum
      actionPlanChecksum := request.actionPlanChecksum
      actions := done }) ≤ 2000000) :
    CopyFits env.hash result plan := by
  have hbounds := forall₂_trans h.actions hclosed fun action input done hbuilt hdone =>
    closed_lower_bound hbuilt hdone.1 hdone.2
  have hlength := hbounds.length_eq
  have hstep : List.Forall₂ (fun (action : ActionSkeleton) (done : RenderedActionCopy) =>
      ∃ finding, (finding ∈ result.findings ∧ finding.findingId ∈ action.findingIds ∧
          (whyNowText finding).length ≤ 200000 ∧ (explanationText action).length ≤ 200000) ∧
        jsonSize (shortestAction action finding).json ≤ jsonSize done.json)
      plan.actions done := by
    refine hbounds.imp ?_
    rintro action done ⟨finding, hfinding, hid, hwhy, hexplanation, hjson⟩
    exact ⟨finding, ⟨mem_findings_canonicalPublicFindings.1 hfinding, hid, hwhy,
      hexplanation⟩, hjson⟩
  obtain ⟨chosen, hchosen, hsum⟩ := exists_choice_of_forall₂ hstep
  refine ⟨chosen, hchosen, ?_⟩
  have hzip : (plan.actions.zip chosen).length = plan.actions.length := by
    rw [List.length_zip, ← hchosen.length_eq, Nat.min_self]
  rw [jsonSize_publicActionCopyResult] at hsize
  rw [shortestCopy, jsonSize_publicActionCopyResult, List.map_map, List.length_map, hzip,
    ← h.findingsChecksum, ← h.actionPlanChecksum]
  simp only [Function.comp_def]
  omega

end Bounds

end SearchTrust.Report
