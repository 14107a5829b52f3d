/-
Whether some provider output is accepted for a request that was built: exactly when
the shortest copy of the plan fits.
-/
import Mathlib.Algebra.Order.BigOperators.Group.List
import SearchTrust.Report.CopyShortest

namespace SearchTrust.Report

open SearchTrust.Jobs (Json strip)
open SearchTrust.Order Outcomes

section Rendering

variable {input : CopyActionInput} {selection : PatternSelection} {purpose : CopyPurpose}
  {limits : PublicCopyLimits}

/-- Facts that a slot accepts. -/
structure Binds (input : CopyActionInput) (selection : PatternSelection)
    (purpose : CopyPurpose) (limits : PublicCopyLimits) (slot : CopyPatternSlotSpec)
    (facts : List CopyFact) : Prop where
  ids : selection.binding slot = facts.map (·.factId)
  low : slot.minItems ≤ facts.length
  high : facts.length ≤ slot.maxItems
  most : facts.length ≤ limits.maxFactRefsPerSlot
  facts : ∀ fact ∈ facts, fact ∈ input.facts ∧ purpose ∈ fact.allowedPurposes ∧
    fact.factType ∈ slot.allowedFactTypes

theorem chooseFact_of (hvalid : input.Valid) {slot : CopyPatternSlotSpec} {fact : CopyFact}
    (hfact : fact ∈ input.facts) (hpurpose : purpose ∈ fact.allowedPurposes)
    (htype : fact.factType ∈ slot.allowedFactTypes) :
    chooseFact input purpose slot fact.factId = .ok fact := by
  rw [chooseFact, find?_key_eq hvalid.factIdsNodup hfact]
  exact if_pos ⟨hpurpose, htype⟩

theorem Binds.bindSlot (hvalid : input.Valid) {slot : CopyPatternSlotSpec}
    {facts : List CopyFact} (h : Binds input selection purpose limits slot facts) :
    bindSlot input selection purpose limits slot = .ok facts := by
  have hcount : ¬ ((facts.map (·.factId)).length < slot.minItems ∨
      slot.maxItems < (facts.map (·.factId)).length ∨
      limits.maxFactRefsPerSlot < (facts.map (·.factId)).length) := by
    rw [List.length_map, not_or, not_or, not_lt, not_lt, not_lt]
    exact ⟨h.low, h.high, h.most⟩
  unfold Report.bindSlot
  rw [h.ids]
  dsimp only
  rw [if_neg hcount]
  refine mapM_ok_of_forall₂ ?_
  rw [List.forall₂_map_left_iff, List.forall₂_same]
  intro fact hfact
  obtain ⟨hmem, hpurpose, htype⟩ := h.facts fact hfact
  exact chooseFact_of hvalid hmem hpurpose htype

theorem renderSelection_of (hvalid : input.Valid) {definition : CopyPatternDefinition}
    (hdefinition : selectedPattern input selection purpose = .ok definition)
    (hnames : selection.slotBindings.map Prod.fst = definition.spec.slots.map (·.slotName))
    (chosen : List (List CopyFact))
    (hbinds : List.Forall₂ (Binds input selection purpose limits) definition.spec.slots chosen)
    (hnodup : (chosen.flatten.map (·.factId)).Nodup) {filled : String}
    (hfilled : format definition.template
      (fun name => (slotTexts definition.spec.slots chosen).lookup name) = some filled)
    (hne : pyStrip filled ≠ "")
    (hlength : (pyStrip filled).length ≤ min definition.spec.maxRenderedChars
      limits.maxRenderedChars) :
    renderSelection input selection purpose limits =
      .ok (pyStrip filled, chosen.flatten.map (·.factId)) := by
  have hbound : definition.spec.slots.mapM (bindSlot input selection purpose limits) =
      .ok chosen := mapM_ok_of_forall₂ (hbinds.imp fun _ _ hslot => hslot.bindSlot hvalid)
  have hids := binding_eq_of_mapM (hbinds.imp fun _ _ hslot => hslot.bindSlot hvalid)
  unfold renderSelection
  rw [hdefinition, ok_bind, hnames]
  dsimp only
  rw [if_neg (not_not.2 ⟨List.Subset.refl _, List.Subset.refl _⟩), hbound, ok_bind, hids,
    if_neg (not_not.2 hnodup), hfilled]
  dsimp only
  rw [if_neg (not_or.2 ⟨hne, not_lt.2 hlength⟩)]

end Rendering

section Patterns

theorem exists_evidencePattern : ∃ definition ∈ whyNowCatalog,
    definition.spec.patternKey = "why_now.evidence_finding.v1" ∧
      definition.spec.slots = [findingSlot] ∧ definition.spec.maxRenderedChars = 200000 ∧
      definition.template = [.literal "The saved evidence makes this action timely: ",
        .placeholder "finding"] :=
  ⟨_, List.mem_cons_self, rfl, rfl, rfl, rfl⟩

theorem exists_targetsPattern : ∃ definition ∈ explanationCatalog,
    definition.spec.patternKey = "explanation.targets_completion_limits.v1" ∧
      definition.spec.slots = explanationSlots ∧ definition.spec.maxRenderedChars = 200000 ∧
      definition.template = [.literal "Focus on ", .placeholder "targets",
        .literal ". Completion is defined by ", .placeholder "completion",
        .literal " Keep these limits in view: ", .placeholder "limitations"] :=
  ⟨_, List.mem_cons_self, rfl, rfl, rfl, rfl⟩

theorem allPatterns_keys_nodup : (allPatterns.map (·.spec.patternKey)).Nodup := by
  decide

theorem allPatterns_templates : ∀ definition ∈ allPatterns,
    definition.spec.compatibleTemplateKeys = supportedTemplateKeys := by
  decide

/-- The patterns of one purpose. -/
def catalogOf (purpose : CopyPurpose) : List CopyPatternDefinition :=
  if purpose = .whyNow then whyNowCatalog else explanationCatalog

theorem catalogOf_subset (purpose : CopyPurpose) : catalogOf purpose ⊆ allPatterns := by
  intro definition hmem
  cases purpose with
  | whyNow => exact List.mem_append_left _ hmem
  | clientFacingExplanation => exact List.mem_append_right _ hmem

theorem catalogOf_purpose : ∀ purpose : CopyPurpose, ∀ definition ∈ catalogOf purpose,
    definition.spec.purpose = purpose := by
  intro purpose
  cases purpose with
  | whyNow => decide
  | clientFacingExplanation => decide

/-- The patterns of a purpose have the same slots, so all of them are offered if one is. -/
theorem mem_expectedPatterns {key : String} {facts : List CopyFact} {purpose : CopyPurpose}
    (hne : expectedPatterns key facts purpose ≠ []) {definition : CopyPatternDefinition}
    (hmem : definition ∈ catalogOf purpose) :
    definition.spec ∈ expectedPatterns key facts purpose := by
  obtain ⟨spec, hspec⟩ := List.exists_mem_of_ne_nil _ hne
  obtain ⟨other, hother, rfl⟩ := List.mem_map.1 hspec
  obtain ⟨hother, hsatisfiable⟩ := List.mem_filter.1 hother
  obtain ⟨hsource, hkey⟩ := List.mem_filter.1 hother
  have hslots : definition.spec.slots = other.spec.slots := by
    have h1 := catalogOf_purpose purpose definition hmem
    have h2 := catalogOf_purpose purpose other hsource
    have hall := catalogOf_subset purpose
    cases purpose with
    | whyNow =>
        rw [(whyNow_definitions definition (hall hmem) h1).1,
          (whyNow_definitions other (hall hsource) h2).1]
    | clientFacingExplanation =>
        rw [(explanation_definitions definition (hall hmem) h1).1,
          (explanation_definitions other (hall hsource) h2).1]
  refine List.mem_map_of_mem (List.mem_filter.2 ⟨List.mem_filter.2 ⟨hmem, ?_⟩, ?_⟩)
  · rw [allPatterns_templates definition (catalogOf_subset purpose hmem),
      ← allPatterns_templates other (catalogOf_subset purpose hsource)]
    exact hkey
  · rw [patternIsSatisfiable, hslots]
    exact hsatisfiable

variable {hash : Hash} {limits : PublicCopyLimits} {findings : List Finding}
  {action : ActionSkeleton} {input : CopyActionInput}

/-- Every pattern of the catalog can be selected for an input that was built. -/
theorem BuiltInput.selectedPattern (h : BuiltInput hash limits findings action input)
    (purpose : CopyPurpose) {definition : CopyPatternDefinition}
    (hmem : definition ∈ catalogOf purpose) (selection : PatternSelection)
    (hkey : selection.patternKey = definition.spec.patternKey) :
    selectedPattern input selection purpose = .ok definition := by
  have hfound : patternDefinition definition.spec.patternKey = some definition := by
    have hfind := find?_key_eq allPatterns_keys_nodup (catalogOf_subset purpose hmem)
    exact hfind
  have hkeys := h.valid.patternKeysNodup
  rw [CopyActionInput.patterns, List.map_append] at hkeys
  have hoffered : (if purpose = .whyNow then input.whyNowPatterns
      else input.explanationPatterns).find?
        (fun spec => spec.patternKey = definition.spec.patternKey) = some definition.spec := by
    cases purpose with
    | whyNow =>
        refine find?_key_eq (List.nodup_append.1 hkeys).1 ?_
        rw [h.whyNow]
        exact mem_expectedPatterns (h.whyNow ▸ h.valid.whyNowCount.1) hmem
    | clientFacingExplanation =>
        refine find?_key_eq (List.nodup_append.1 hkeys).2.1 ?_
        rw [h.explanation]
        exact mem_expectedPatterns (h.explanation ▸ h.valid.explanationCount.1) hmem
  unfold Report.selectedPattern
  dsimp only
  rw [hkey, hoffered, hfound]
  dsimp only
  rw [if_neg (not_not.2 rfl), if_neg (not_not.2 (catalogOf_purpose purpose definition hmem))]

end Patterns

section Selections

variable {hash : Hash} {limits : PublicCopyLimits} {findings : List Finding}
  {action : ActionSkeleton} {input : CopyActionInput}

def factIdsOf (input : CopyActionInput) (types : List CopyFactType) : List String :=
  (factsOf input types).map (·.factId)

/-- The selection that leads with a statement. -/
def whyNowSelection (fact : CopyFact) : PatternSelection where
  patternKey := "why_now.evidence_finding.v1"
  slotBindings := [("finding", [fact.factId])]

/-- The selection of all the facts that an explanation has to state. -/
def explanationSelection (input : CopyActionInput) : PatternSelection where
  patternKey := "explanation.targets_completion_limits.v1"
  slotBindings := [("targets", factIdsOf input targetFactTypes),
    ("completion", factIdsOf input [.definitionOfDone]),
    ("limitations", factIdsOf input [.requiredLimitation])]

def shortestSelection (input : CopyActionInput) (fact : CopyFact) : CopyActionSelection where
  actionId := input.actionId
  sequence := input.sequence
  whyNow := whyNowSelection fact
  clientFacingExplanation := explanationSelection input

theorem BuiltInput.allowedPurposes (h : BuiltInput hash limits findings action input)
    {fact : CopyFact} (hfact : fact ∈ input.facts) :
    fact.allowedPurposes =
      [if fact.factType ∈ whyFactTypes then .whyNow else .clientFacingExplanation] := by
  obtain ⟨draft, -, rfl⟩ := List.mem_map.1 (h.facts.mem_iff.1 hfact)
  rw [factOf_allowedPurposes, factOf_factType]

/-- The statement of a finding is rendered when it is short enough. -/
theorem BuiltInput.render_whyNow (h : BuiltInput hash {} findings action input)
    {finding : Finding} {fact : CopyFact} (hfact : fact ∈ input.facts)
    (htype : fact.factType = .findingStatement)
    (hvalue : fact.value = pyStrip finding.statement)
    (hlength : (whyNowText finding).length ≤ 200000) :
    renderSelection input (whyNowSelection fact) .whyNow {} =
      .ok (whyNowText finding, [fact.factId]) := by
  obtain ⟨definition, hmem, hkey, hslots, hmax, htemplate⟩ := exists_evidencePattern
  have hselected := h.selectedPattern .whyNow hmem (whyNowSelection fact) hkey.symm
  have hends := h.endsSolid hfact
  rw [hvalue] at hends
  have hsolid : pyStrip (whyNowText finding) = whyNowText finding :=
    pyStrip_eq_self (solid_append (by decide) (startsSolid (by decide)) hends)
  have hne : whyNowText finding ≠ "" := (hends.append _).ne_empty
  have hbinds : Binds input (whyNowSelection fact) .whyNow {} findingSlot [fact] := {
    ids := rfl
    low := le_rfl
    high := le_rfl
    most := (by decide : 1 ≤ 5000)
    facts := by
      intro other hother
      rw [List.mem_singleton.1 hother, h.allowedPurposes hfact, htype]
      exact ⟨hfact, by decide, by decide⟩ }
  have hformat : format definition.template (fun name =>
      (slotTexts definition.spec.slots [[fact]]).lookup name) = some (whyNowText finding) := by
    rw [hslots, htemplate, format_whyNow, hvalue]
    rfl
  have hrender := renderSelection_of h.valid hselected (by rw [hslots]; rfl)
    [[fact]] (by
      rw [hslots]
      exact List.Forall₂.cons hbinds List.Forall₂.nil)
    (List.nodup_singleton _) hformat
  rw [hsolid, hmax] at hrender
  exact hrender hne hlength

/-- Every kind of fact that an explanation has to state is there. -/
theorem BuiltInput.factsOf_pos (h : BuiltInput hash limits findings action input)
    (slot : CopyPatternSlotSpec) (hslot : slot ∈ explanationSlots) :
    slot.minItems ≤ (factsOf input slot.allowedFactTypes).length := by
  obtain ⟨spec, hspec⟩ := List.exists_mem_of_ne_nil _ h.valid.explanationCount.1
  rw [h.explanation] at hspec
  obtain ⟨definition, hdefinition, -⟩ := List.mem_map.1 hspec
  obtain ⟨hsource, hsatisfiable⟩ := List.mem_filter.1 hdefinition
  have hmem : definition ∈ catalogOf .clientFacingExplanation := (List.mem_filter.1 hsource).1
  have hslots := (explanation_definitions definition (catalogOf_subset _ hmem)
    (catalogOf_purpose _ definition hmem)).1
  rw [patternIsSatisfiable, hslots, List.all_eq_true] at hsatisfiable
  have hcount := of_decide_eq_true (hsatisfiable slot hslot)
  rwa [List.countP_eq_length_filter] at hcount

theorem factsOf_nodup (hvalid : input.Valid) (types : List CopyFactType) :
    (factsOf input types).Nodup :=
  (List.Nodup.of_map _ hvalid.factIdsNodup).filter _

theorem factsOf_disjoint {types others : List CopyFactType}
    (h : ∀ factType ∈ types, factType ∉ others) :
    List.Disjoint (factsOf input types) (factsOf input others) := by
  intro fact hfact hother
  exact h fact.factType (mem_factsOf.1 hfact).2 (mem_factsOf.1 hother).2

/-- The facts that an explanation states, slot by slot. -/
def statedFacts (input : CopyActionInput) : List (List CopyFact) :=
  [factsOf input targetFactTypes, factsOf input [.definitionOfDone],
    factsOf input [.requiredLimitation]]

theorem statedFacts_ids_nodup (hvalid : input.Valid) :
    ((statedFacts input).flatten.map (·.factId)).Nodup := by
  have hflat : (statedFacts input).flatten = factsOf input targetFactTypes ++
      (factsOf input [.definitionOfDone] ++ factsOf input [.requiredLimitation]) := by
    rw [statedFacts, List.flatten_cons, List.flatten_cons, List.flatten_cons, List.flatten_nil,
      List.append_nil]
  have hdisjoint : List.Disjoint (factsOf input targetFactTypes)
      (factsOf input [.definitionOfDone] ++ factsOf input [.requiredLimitation]) := by
    rw [List.disjoint_append_right]
    exact ⟨factsOf_disjoint (by decide), factsOf_disjoint (by decide)⟩
  have hnodup : (statedFacts input).flatten.Nodup := by
    rw [hflat, List.nodup_append', List.nodup_append']
    exact ⟨factsOf_nodup hvalid _, ⟨factsOf_nodup hvalid _, factsOf_nodup hvalid _,
      factsOf_disjoint (by decide)⟩, hdisjoint⟩
  refine hnodup.map_on ?_
  intro fact hfact other hother hid
  have hmem : ∀ fact ∈ (statedFacts input).flatten, fact ∈ input.facts := by
    intro fact hfact
    rw [hflat, List.mem_append, List.mem_append] at hfact
    rcases hfact with hfact | hfact | hfact <;> exact (mem_factsOf.1 hfact).1
  exact eq_of_factId_eq hvalid (hmem fact hfact) (hmem other hother) hid

theorem BuiltInput.binds (h : BuiltInput hash {} findings action input)
    {slot : CopyPatternSlotSpec} (hslot : slot ∈ explanationSlots)
    (hids : (explanationSelection input).binding slot = factIdsOf input slot.allowedFactTypes)
    (hhigh : (factsOf input slot.allowedFactTypes).length ≤ slot.maxItems) :
    Binds input (explanationSelection input) .clientFacingExplanation {} slot
      (factsOf input slot.allowedFactTypes) where
  ids := hids
  low := h.factsOf_pos slot hslot
  high := hhigh
  most := by
    have hcount : input.facts.length ≤ 5000 := h.factCount
    exact (List.length_filter_le _ _).trans hcount
  facts := by
    intro fact hfact
    obtain ⟨hmem, htype⟩ := mem_factsOf.1 hfact
    refine ⟨hmem, ?_, htype⟩
    have hother : ∀ slot ∈ explanationSlots, ∀ factType ∈ slot.allowedFactTypes,
        factType ∉ whyFactTypes := by decide
    rw [h.allowedPurposes hmem, if_neg (hother slot hslot _ htype)]
    exact List.mem_singleton_self _

/-- The texts that the facts of an explanation give. -/
def statedText (input : CopyActionInput) : String :=
  explanationOf "Focus on " ". Completion is defined by "
    ((factsOf input targetFactTypes).map (·.value))
    ((factsOf input [.definitionOfDone]).map (·.value))
    ((factsOf input [.requiredLimitation]).map (·.value))

/-- The text of the facts is as long as the text of the plan. -/
theorem BuiltInput.measure_statedText (h : BuiltInput hash limits findings action input)
    {measure : String → ℕ} (hmeasure : AddsUp measure) :
    measure (statedText input) = measure (explanationText action) := by
  have h1 := measure_intercalate_perm hmeasure "; "
    ((h.values_perm targetFactTypes).trans (draftValues_targets h.allowsDone))
  have h2 := measure_intercalate_perm hmeasure "; "
    ((h.values_perm [.definitionOfDone]).trans
      (List.Perm.of_eq (draftValues_completion h.allowsDone)))
  have h3 := measure_intercalate_perm hmeasure "; "
    ((h.values_perm [.requiredLimitation]).trans
      (List.Perm.of_eq (draftValues_limitations h.allowsDone)))
  rw [statedText, explanationText, measure_explanationOf hmeasure,
    measure_explanationOf hmeasure, h1, h2, h3]

theorem BuiltInput.statedFacts_length (h : BuiltInput hash limits findings action input) :
    (statedFacts input).flatten.length = statedCount action := by
  have h1 := ((h.values_perm targetFactTypes).trans
    (draftValues_targets h.allowsDone)).length_eq
  have h2 := ((h.values_perm [.definitionOfDone]).trans
    (List.Perm.of_eq (draftValues_completion h.allowsDone))).length_eq
  have h3 := ((h.values_perm [.requiredLimitation]).trans
    (List.Perm.of_eq (draftValues_limitations h.allowsDone))).length_eq
  rw [List.length_map] at h1 h2 h3
  rw [statedFacts, List.flatten_cons, List.flatten_cons, List.flatten_cons, List.flatten_nil,
    List.append_nil, List.length_append, List.length_append, h1, h2, h3, statedCount]

/-- The facts of an explanation are rendered when their text is short enough. -/
theorem BuiltInput.render_explanation (h : BuiltInput hash {} findings action input)
    (hvalid : action.Valid) (hlength : (explanationText action).length ≤ 200000) :
    renderSelection input (explanationSelection input) .clientFacingExplanation {} =
      .ok (statedText input, (statedFacts input).flatten.map (·.factId)) := by
  obtain ⟨definition, hmem, hkey, hslots, hmax, htemplate⟩ := exists_targetsPattern
  have hselected := h.selectedPattern .clientFacingExplanation hmem
    (explanationSelection input) hkey.symm
  have hne : (factsOf input [.requiredLimitation]).map (·.value) ≠ [] := by
    have hpos : 1 ≤ (factsOf input [.requiredLimitation]).length :=
      h.factsOf_pos ⟨"limitations", [.requiredLimitation], 1, 20⟩ (by decide)
    rw [ne_eq, List.map_eq_nil_iff]
    exact List.ne_nil_of_length_pos hpos
  have hends : ∀ value ∈ (factsOf input [.requiredLimitation]).map (·.value),
      EndsSolid value := by
    intro value hvalue
    obtain ⟨fact, hfact, rfl⟩ := List.mem_map.1 hvalue
    exact h.endsSolid (mem_factsOf.1 hfact).1
  have hsolid : Solid (statedText input) :=
    solid_explanationOf ⟨by decide, startsSolid (by decide)⟩ hne hends
  have htext : (statedText input).length ≤ 200000 := by
    rw [h.measure_statedText addsUp_length]
    exact hlength
  have hnonempty : statedText input ≠ "" := by
    have hlast := endsSolid_intercalate "; " hne hends
    exact (((((hlast.append _).append _).append _).append _).append _).ne_empty
  have hcounts : (factsOf input targetFactTypes).length ≤ 5000 ∧
      (factsOf input [.definitionOfDone]).length ≤ 20 ∧
      (factsOf input [.requiredLimitation]).length ≤ 20 := by
    have h2 := ((h.values_perm [.definitionOfDone]).trans
      (List.Perm.of_eq (draftValues_completion h.allowsDone))).length_eq
    have h3 := ((h.values_perm [.requiredLimitation]).trans
      (List.Perm.of_eq (draftValues_limitations h.allowsDone))).length_eq
    have hcount : input.facts.length ≤ 5000 := h.factCount
    rw [List.length_map, statedCompletion, List.length_map] at h2
    rw [List.length_map, statedLimitations, List.length_map] at h3
    exact ⟨(List.length_filter_le _ _).trans hcount, h2 ▸ hvalid.doneCount.2,
      h3 ▸ hvalid.copyRequirements.limitationCount⟩
  have hbinds : List.Forall₂ (Binds input (explanationSelection input)
      .clientFacingExplanation {}) explanationSlots (statedFacts input) :=
    List.Forall₂.cons (h.binds (by decide) rfl hcounts.1)
      (List.Forall₂.cons (h.binds (by decide) rfl hcounts.2.1)
        (List.Forall₂.cons (h.binds (by decide) rfl hcounts.2.2) List.Forall₂.nil))
  have hformat : format definition.template (fun name =>
      (slotTexts definition.spec.slots (statedFacts input)).lookup name) =
        some (statedText input) := by
    rw [hslots, htemplate, statedFacts, format_explanation]
    rfl
  have hrender := renderSelection_of h.valid hselected (by rw [hslots]; rfl)
    (statedFacts input) (by
      rw [hslots]
      exact hbinds)
    (statedFacts_ids_nodup h.valid) hformat
  rw [pyStrip_eq_self hsolid, hmax] at hrender
  exact hrender hnonempty htext

end Selections

section Actions

variable {hash : Hash} {limits : PublicCopyLimits} {findings : List Finding}
  {action : ActionSkeleton} {input : CopyActionInput}

theorem mem_statedFacts {fact : CopyFact} :
    fact ∈ (statedFacts input).flatten ↔ fact ∈ input.facts ∧
      (fact.factType ∈ targetFactTypes ∨ fact.factType = .definitionOfDone ∨
        fact.factType = .requiredLimitation) := by
  rw [statedFacts, List.flatten_cons, List.flatten_cons, List.flatten_cons, List.flatten_nil,
    List.append_nil, List.mem_append, List.mem_append, mem_factsOf, mem_factsOf, mem_factsOf,
    List.mem_singleton, List.mem_singleton, ← and_or_left, ← and_or_left]

/-- The IDs of these facts are the required ones. -/
theorem BuiltInput.validateMandatory (h : BuiltInput hash limits findings action input) :
    validateMandatoryExplanationFacts input ((statedFacts input).flatten.map (·.factId)) =
      .ok () := by
  have hsame : ∀ id, id ∈ (statedFacts input).flatten.map (·.factId) ↔
      id ∈ requiredFactIds input := by
    intro id
    rw [mem_requiredFactIds, h.limitationIds, List.mem_map, List.mem_map]
    constructor
    · rintro ⟨fact, hfact, rfl⟩
      obtain ⟨hmem, htype⟩ := mem_statedFacts.1 hfact
      rcases htype with htype | htype | htype
      · exact .inl ⟨fact, hmem, rfl, .inl htype⟩
      · exact .inl ⟨fact, hmem, rfl, .inr htype⟩
      · exact .inr ⟨fact, List.mem_filter.2 ⟨hmem, decide_eq_true htype⟩, rfl⟩
    · rintro (⟨fact, hmem, rfl, htype | htype⟩ | ⟨fact, hfact, rfl⟩)
      · exact ⟨fact, mem_statedFacts.2 ⟨hmem, .inl htype⟩, rfl⟩
      · exact ⟨fact, mem_statedFacts.2 ⟨hmem, .inr (.inl htype)⟩, rfl⟩
      · obtain ⟨hmem, htype⟩ := List.mem_filter.1 hfact
        exact ⟨fact, mem_statedFacts.2 ⟨hmem, .inr (.inr (of_decide_eq_true htype))⟩, rfl⟩
  have hpos : 1 ≤ (factsOf input [.requiredLimitation]).length :=
    h.factsOf_pos ⟨"limitations", [.requiredLimitation], 1, 20⟩ (by decide)
  obtain ⟨fact, hfact⟩ := List.exists_mem_of_length_pos hpos
  obtain ⟨hmem, htype⟩ := mem_factsOf.1 hfact
  have hrequired : fact.factId ∈ requiredFactIds input := (hsame _).1
    (List.mem_map_of_mem (mem_statedFacts.2 ⟨hmem, .inr (.inr (List.mem_singleton.1 htype))⟩))
  have howned : ¬ ∃ fact ∈ input.facts,
      fact.factId ∈ (statedFacts input).flatten.map (·.factId) ∧
        fact.actionId ≠ input.actionId := by
    rintro ⟨other, hother, -, hne⟩
    exact hne (h.valid.factActions other hother)
  unfold validateMandatoryExplanationFacts
  dsimp only
  rw [if_neg, if_neg howned]
  rw [not_or, not_not]
  exact ⟨List.ne_nil_of_mem hrequired, fun id hid => (hsame id).1 hid,
    fun id hid => (hsame id).2 hid⟩

/-- The copy of an action that leads with the statement of a fact. -/
def statedAction (input : CopyActionInput) (finding : Finding) (fact : CopyFact) :
    RenderedActionCopy where
  actionId := input.actionId
  sequence := input.sequence
  whyNow := whyNowText finding
  clientFacingExplanation := statedText input
  whyNowPatternKey := "why_now.evidence_finding.v1"
  whyNowFactIds := [fact.factId]
  explanationPatternKey := "explanation.targets_completion_limits.v1"
  explanationFactIds := (statedFacts input).flatten.map (·.factId)

theorem BuiltInput.renderAction (h : BuiltInput hash {} findings action input)
    (hvalid : action.Valid) (hchecked : CheckedAction input) {finding : Finding}
    {fact : CopyFact} (hfact : fact ∈ input.facts) (htype : fact.factType = .findingStatement)
    (hvalue : fact.value = pyStrip finding.statement)
    (hwhy : (whyNowText finding).length ≤ 200000)
    (hexplanation : (explanationText action).length ≤ 200000) :
    renderAction {} input (shortestSelection input fact) =
        .ok (statedAction input finding fact) ∧
      (statedAction input finding fact).Valid := by
  have hfirst := h.render_whyNow hfact htype hvalue hwhy
  have hsecond := h.render_explanation hvalid hexplanation
  obtain ⟨hstripped, hrendered⟩ := renderedAction_checked hchecked hfirst hsecond
  refine ⟨?_, hrendered⟩
  unfold Report.renderAction
  have hselection : (shortestSelection input fact).whyNow = whyNowSelection fact := rfl
  have hother : (shortestSelection input fact).clientFacingExplanation =
      explanationSelection input := rfl
  rw [hselection, hother, hfirst, ok_bind]
  dsimp only
  rw [hsecond, ok_bind]
  dsimp only
  rw [h.validateMandatory, ok_bind, hstripped, if_pos hrendered]
  rfl

/-- The copy has the size of the shortest one. -/
theorem BuiltInput.jsonSize_statedAction (h : BuiltInput hash limits findings action input)
    {finding : Finding} {fact : CopyFact} (hvalid : (statedAction input finding fact).Valid) :
    jsonSize (statedAction input finding fact).json =
      jsonSize (shortestAction action finding).json := by
  obtain ⟨hwhyForm, hexplanationForm⟩ := factIds_shortestAction action finding
  have hsize := h.measure_statedText addsUp_contentSize
  have hcount := h.statedFacts_length
  rw [jsonSize_renderedActionCopy, jsonSize_renderedActionCopy, jsonSize_factIds hwhyForm,
    jsonSize_factIds hexplanationForm, jsonSize_factIds hvalid.whyNowFactIds,
    jsonSize_factIds hvalid.explanationFactIds]
  simp only [statedAction, shortestAction, List.length_singleton, List.length_replicate,
    List.length_map, hsize, hcount, h.actionId, h.sequence]

end Actions

section Outputs

/-- A selection as the provider writes it. -/
def PatternSelection.json (selection : PatternSelection) : Json := .object [
  ("pattern_key", .string selection.patternKey),
  ("slot_bindings", .object (selection.slotBindings.map fun e => (e.1, texts e.2)))]

def CopyActionSelection.json (selection : CopyActionSelection) : Json := .object [
  ("action_id", .string selection.actionId), ("sequence", number selection.sequence),
  ("why_now", selection.whyNow.json),
  ("client_facing_explanation", selection.clientFacingExplanation.json)]

/-- A response without the literal fields, which have defaults. -/
def CopyResponseV1.json (response : CopyResponseV1) : Json := .object [
  ("action_plan_checksum", .string response.actionPlanChecksum),
  ("actions", .array (response.actions.map CopyActionSelection.json))]

def responseOutput (response : CopyResponseV1) : Json :=
  .object [(copyOutputKey, response.json)]

open Validated Reader

theorem text_of (form : String → Bool) {s : String} (hplain : Plain s) (hform : form s = true) :
    text form (.string s) = .ok s := by
  rw [text, hplain.strip_eq, if_pos hform]

theorem items_of {α : Type} {read : Reader α} {write : α → Json} {values : List α}
    (h : ∀ value ∈ values, read (write value) = .ok value) (position : ℕ) :
    items read position (values.map write) = .ok values := by
  induction values generalizing position with
  | nil => rfl
  | cons value rest ih =>
      rw [List.map_cons, items, h value List.mem_cons_self,
        ih fun other hother => h other (List.mem_cons_of_mem _ hother)]
      rfl

theorem list_of {α : Type} {read : Reader α} {write : α → Json} {values : List α}
    (h : ∀ value ∈ values, read (write value) = .ok value) (low : ℕ) (high : Option ℕ)
    (hlow : low ≤ values.length) (hhigh : high.any (· < values.length) = false) :
    list read low high (.array (values.map write)) = .ok values := by
  rw [list, List.length_map, hhigh, items_of h, if_neg Bool.false_ne_true, check,
    if_pos (decide_eq_true hlow)]

theorem entries_of {α : Type} {readKey : String → Bool} {read : Reader α} {write : α → Json}
    {pairs : List (String × α)} (hkeys : ∀ e ∈ pairs, Plain e.1 ∧ readKey e.1 = true)
    (h : ∀ e ∈ pairs, read (write e.2) = .ok e.2) :
    entries readKey read (pairs.map fun e => (e.1, write e.2)) = .ok pairs := by
  induction pairs with
  | nil => rfl
  | cons e rest ih =>
      have hkey := hkeys e List.mem_cons_self
      rw [List.map_cons, entries, hkey.1.strip_eq, if_pos hkey.2, h e List.mem_cons_self,
        ih (fun other hother => hkeys other (List.mem_cons_of_mem _ hother))
          fun other hother => h other (List.mem_cons_of_mem _ hother)]
      rfl

theorem foldl_insertEntry {α : Type} (done : List (String × α)) {pairs : List (String × α)}
    (h : ((done ++ pairs).map Prod.fst).Nodup) :
    pairs.foldl (fun merged e => insertEntry merged e.1 e.2) done = done ++ pairs := by
  induction pairs generalizing done with
  | nil => rw [List.foldl_nil, List.append_nil]
  | cons e rest ih =>
      have hsplit : done ++ e :: rest = (done ++ [e]) ++ rest := by
        rw [List.append_assoc, List.singleton_append]
      have hnew : e.1 ∉ done.map Prod.fst := by
        intro hmem
        rw [List.map_append, List.map_cons] at h
        exact (List.nodup_append.1 h).2.2 e.1 hmem e.1 List.mem_cons_self rfl
      rw [List.foldl_cons, insertEntry, if_neg hnew, hsplit]
      exact ih (done ++ [e]) (hsplit ▸ h)

theorem dict_of {α : Type} (readKey : String → Bool) (read : Reader α) (write : α → Json)
    {pairs : List (String × α)} (hkeys : ∀ e ∈ pairs, Plain e.1 ∧ readKey e.1 = true)
    (h : ∀ e ∈ pairs, read (write e.2) = .ok e.2) (hnodup : (pairs.map Prod.fst).Nodup)
    {low high : ℕ} (hlow : low ≤ pairs.length) (hhigh : pairs.length ≤ high) :
    dict readKey read low high (.object (pairs.map fun e => (e.1, write e.2))) = .ok pairs := by
  rw [dict, entries_of hkeys h]
  dsimp only
  rw [foldl_insertEntry [] hnodup, List.nil_append, if_pos ⟨hlow, hhigh⟩]

/-- What a selection has to be for its JSON to be read back. -/
structure PatternSelection.Readable (selection : PatternSelection) : Prop where
  key : Plain selection.patternKey ∧ isCopyPatternKey selection.patternKey = true
  names : ∀ e ∈ selection.slotBindings, Plain e.1 ∧ isCopySlotName e.1 = true
  ids : ∀ e ∈ selection.slotBindings, ∀ id ∈ e.2, isCopyFactId id = true
  namesNodup : (selection.slotBindings.map Prod.fst).Nodup
  count : 1 ≤ selection.slotBindings.length ∧ selection.slotBindings.length ≤ 20
  valid : selection.valid = true

theorem PatternSelection.Readable.read {selection : PatternSelection}
    (h : selection.Readable) : PatternSelection.read selection.json = .ok selection := by
  have hkey := text_of isCopyPatternKey h.key.1 h.key.2
  have hids : ∀ e ∈ selection.slotBindings,
      list (text isCopyFactId) 0 none (texts e.2) = .ok e.2 := fun e he =>
    list_of (fun id hid => text_of isCopyFactId (plain_of_isCopyFactId (h.ids e he id hid))
      (h.ids e he id hid)) 0 none (Nat.zero_le _) rfl
  have hbindings := dict_of isCopySlotName (list (text isCopyFactId) 0 none) texts h.names hids
    h.namesNodup h.count.1 h.count.2
  simp [PatternSelection.read, PatternSelection.json, required, List.lookup_cons, closed,
    Except.map, check, hkey, hbindings, h.valid]

/-- What an action's selection has to be. -/
structure CopyActionSelection.Readable (selection : CopyActionSelection) : Prop where
  actionId : isActionId selection.actionId = true
  sequence : 1 ≤ selection.sequence ∧ selection.sequence ≤ 3
  whyNow : selection.whyNow.Readable
  explanation : selection.clientFacingExplanation.Readable

theorem natural_of {n : ℕ} (h : 1 ≤ n ∧ n ≤ 3) : natural 1 3 (number n) = .ok n := by
  obtain ⟨hlow, hhigh⟩ := h
  have hcases : n = 1 ∨ n = 2 ∨ n = 3 := by omega
  rcases hcases with rfl | rfl | rfl <;> decide

theorem CopyActionSelection.Readable.read {selection : CopyActionSelection}
    (h : selection.Readable) : CopyActionSelection.read selection.json = .ok selection := by
  have hid := text_of isActionId (plain_of_isActionId h.actionId) h.actionId
  have hsequence := natural_of h.sequence
  simp [CopyActionSelection.read, CopyActionSelection.json, required, List.lookup_cons, closed,
    Except.map, hid, hsequence, h.whyNow.read, h.explanation.read]

theorem CopyResponseV1.read_json {response : CopyResponseV1}
    (hchecksum : isDigest response.actionPlanChecksum = true)
    (hactions : ∀ selection ∈ response.actions, selection.Readable)
    (hvalid : response.valid = true) :
    CopyResponseV1.read response.json = .ok response := by
  have hlength : response.actions.length = 3 := by
    rw [CopyResponseV1.valid, Bool.and_eq_true, decide_eq_true_eq] at hvalid
    have hcount := congrArg List.length hvalid.1
    rwa [List.length_map] at hcount
  have hdigest := text_of isDigest (plain_of_isDigest hchecksum) hchecksum
  have hlist := list_of (fun selection hselection => (hactions selection hselection).read) 3
    (some 3) hlength.ge (by rw [Option.any_some, hlength]; rfl)
  simp [CopyResponseV1.read, CopyResponseV1.json, required, Reader.optional, List.lookup_cons,
    closed, Except.map, check, hdigest, hlist, hvalid]

theorem depth_texts (values : List String) : jsonDepth (texts values) = 1 := by
  have hitems : itemsDepth (values.map Json.string) = 0 := by
    induction values with
    | nil => rfl
    | cons value rest ih =>
        rw [List.map_cons, itemsDepth, ih]
        rfl
  rw [texts, jsonDepth, hitems]

theorem PatternSelection.depth_json (selection : PatternSelection) :
    jsonDepth selection.json ≤ 3 := by
  have hfields : fieldsDepth (selection.slotBindings.map fun e => (e.1, texts e.2)) ≤ 1 := by
    induction selection.slotBindings with
    | nil => exact Nat.zero_le _
    | cons e rest ih =>
        rw [List.map_cons, fieldsDepth, depth_texts]
        exact Nat.max_le.2 ⟨le_rfl, ih⟩
  simp only [PatternSelection.json, jsonDepth, fieldsDepth]
  omega

/-- An output is nested seven deep. -/
theorem depth_responseOutput (response : CopyResponseV1) :
    jsonDepth (responseOutput response) ≤ 7 := by
  have hitems : itemsDepth (response.actions.map CopyActionSelection.json) ≤ 4 := by
    induction response.actions with
    | nil => exact Nat.zero_le _
    | cons selection rest ih =>
        have h1 := selection.whyNow.depth_json
        have h2 := selection.clientFacingExplanation.depth_json
        have hone : jsonDepth selection.json ≤ 4 := by
          simp only [CopyActionSelection.json, number, jsonDepth, fieldsDepth]
          omega
        rw [List.map_cons, itemsDepth]
        exact Nat.max_le.2 ⟨hone, ih⟩
  simp only [responseOutput, CopyResponseV1.json, jsonDepth, fieldsDepth]
  omega

/-- An interpreter that follows and encodes the output of every valid response. -/
structure Interpreter.Capable (py : Interpreter) : Prop where
  walks : 7 ≤ py.walkRoom
  encodes : ∀ response : CopyResponseV1, response.valid = true →
    py.encodes (responseOutput response) = true

theorem parseResponse_output {py : Interpreter} (hpy : py.Capable) (response : CopyResponseV1)
    (hchecksum : isDigest response.actionPlanChecksum = true)
    (hactions : ∀ selection ∈ response.actions, selection.Readable)
    (hvalid : response.valid = true) (limits : PublicCopyLimits)
    (hsize : jsonSize (responseOutput response) ≤ limits.maxOutputBytes) :
    parseResponse py (.value (responseOutput response)) limits = .ok response := by
  have hdepth := (depth_responseOutput response).trans hpy.walks
  have henvelope : envelope (responseOutput response) = some response.json := by
    simp [envelope, responseOutput]
  have hread : readResponse limits response.json = .ok response := by
    have h := CopyResponseV1.read_json hchecksum hactions hvalid
    rw [CopyResponseV1.json] at h ⊢
    rw [readResponse, h]
  have hdecoded : decodedValue py limits response.json = .ok response.json := rfl
  have hnull : responseOutput response = .null → False := by simp [responseOutput]
  rw [parseResponse.eq_3 py limits _ hnull, if_neg (not_lt.2 hdepth),
    if_neg (not_not.2 (hpy.encodes response hvalid)), if_neg (not_lt.2 hsize), henvelope]
  dsimp only
  rw [hdecoded, ok_bind, hread]

end Outputs

section Copies

variable {hash : Hash} {findings : List Finding} {action : ActionSkeleton}
  {input : CopyActionInput}

theorem jsonSize_patternSelection (selection : PatternSelection) :
    jsonSize selection.json = 35 + contentSize selection.patternKey +
      jsonSize (.object (selection.slotBindings.map fun e => (e.1, texts e.2))) := by
  have h1 : stringSize "pattern_key" = 13 := by decide
  have h2 : stringSize "slot_bindings" = 15 := by decide
  rw [PatternSelection.json, jsonSize, fieldsSize, fieldsSize, fieldsSize, h1, h2]
  simp only [jsonSize, stringSize, List.length_cons, List.length_nil]
  omega

theorem le_contentSize_append {a : String} {n : ℕ} (rest : String) (h : contentSize a = n) :
    n ≤ contentSize (a ++ rest) := by
  rw [addsUp_contentSize.append, h]
  exact Nat.le_add_right _ _

/-- A selection is smaller than what is rendered from it. -/
theorem jsonSize_shortestSelection_le {finding : Finding} {fact : CopyFact}
    (hvalid : (statedAction input finding fact).Valid) :
    jsonSize (shortestSelection input fact).json ≤
      jsonSize (statedAction input finding fact).json := by
  have h1 : stringSize "action_id" = 11 := by decide
  have h2 : stringSize "sequence" = 10 := by decide
  have h3 : stringSize "why_now" = 9 := by decide
  have h4 : stringSize "client_facing_explanation" = 27 := by decide
  have h5 : stringSize "finding" = 9 := by decide
  have h6 : stringSize "targets" = 9 := by decide
  have h7 : stringSize "completion" = 12 := by decide
  have h8 : stringSize "limitations" = 13 := by decide
  have hwhy : 45 ≤ contentSize (whyNowText finding) :=
    le_contentSize_append _ (by decide)
  have htext : 64 ≤ contentSize (statedText input) := by
    have hfirst : contentSize "Focus on " = 9 := by decide
    have hsecond : contentSize ". Completion is defined by " = 27 := by decide
    have hthird : contentSize " Keep these limits in view: " = 28 := by decide
    rw [statedText, measure_explanationOf addsUp_contentSize, hfirst, hsecond, hthird]
    omega
  have hids : ∀ types, factsOf input types ∈ statedFacts input →
      jsonSize (texts (factIdsOf input types)) =
        29 * (factsOf input types).length + 2 + ((factsOf input types).length - 1) := by
    intro types htypes
    rw [jsonSize_factIds, factIdsOf, List.length_map]
    intro id hid
    obtain ⟨other, hother, rfl⟩ := List.mem_map.1 hid
    exact hvalid.explanationFactIds _ (List.mem_map_of_mem
      (List.mem_flatten.2 ⟨_, htypes, hother⟩))
  have htargets := hids targetFactTypes List.mem_cons_self
  have hcompletion := hids [.definitionOfDone] (List.mem_cons_of_mem _ List.mem_cons_self)
  have hlimitations := hids [.requiredLimitation]
    (List.mem_cons_of_mem _ (List.mem_cons_of_mem _ List.mem_cons_self))
  have hcount : ((statedFacts input).flatten.map (·.factId)).length =
      (factsOf input targetFactTypes).length + ((factsOf input [.definitionOfDone]).length +
        (factsOf input [.requiredLimitation]).length) := by
    rw [List.length_map, statedFacts, List.flatten_cons, List.flatten_cons, List.flatten_cons,
      List.flatten_nil, List.append_nil, List.length_append, List.length_append]
  rw [jsonSize_renderedActionCopy, jsonSize_factIds hvalid.explanationFactIds,
    CopyActionSelection.json, shortestSelection, statedAction, hcount]
  simp only [jsonSize, fieldsSize, number, h1, h2, h3, h4, jsonSize_patternSelection,
    whyNowSelection, explanationSelection, List.map_cons, List.map_nil, h5, h6, h7, h8,
    htargets, hcompletion, hlimitations, List.length_cons, List.length_nil]
  simp only [stringSize]
  omega

/-- A copy of an action with the selection that it is rendered from. -/
structure CopyOf (input : CopyActionInput) (copy : CopyActionSelection × RenderedActionCopy) :
    Prop where
  actionId : copy.1.actionId = input.actionId
  sequence : copy.1.sequence = input.sequence
  rendered : renderAction {} input copy.1 = .ok copy.2
  readable : copy.1.Readable
  size : jsonSize copy.1.json ≤ jsonSize copy.2.json

theorem BuiltInput.exists_copy (h : BuiltInput hash {} findings action input)
    (hvalid : action.Valid) (hchecked : CheckedAction input)
    (hnodup : (findings.map (·.findingId)).Nodup) {finding : Finding}
    (hfinding : finding ∈ findings) (hid : finding.findingId ∈ action.findingIds)
    (hwhy : (whyNowText finding).length ≤ 200000)
    (hexplanation : (explanationText action).length ≤ 200000) :
    ∃ copy, CopyOf input copy ∧
      jsonSize copy.2.json = jsonSize (shortestAction action finding).json := by
  obtain ⟨fact, hfact, htype, hvalue⟩ := h.exists_fact hnodup hfinding hid
  obtain ⟨hrender, hrendered⟩ :=
    h.renderAction hvalid hchecked hfact htype hvalue hwhy hexplanation
  have hstatedIds := statedFacts_ids_nodup h.valid
  have hstated : ∀ slot ∈ explanationSlots, factIdsOf input slot.allowedFactTypes ≠ [] ∧
      (factIdsOf input slot.allowedFactTypes).Nodup := by
    intro slot hslot
    have hpos := h.factsOf_pos slot hslot
    have hmin : ∀ slot ∈ explanationSlots, 1 ≤ slot.minItems := by decide
    refine ⟨?_, ?_⟩
    · rw [factIdsOf, ne_eq, List.map_eq_nil_iff]
      exact List.ne_nil_of_length_pos ((hmin slot hslot).trans hpos)
    · exact h.valid.factIdsNodup.sublist (List.Sublist.map _ List.filter_sublist)
  have hform : ∀ types, ∀ id ∈ factIdsOf input types, isCopyFactId id = true := by
    intro types id hmem
    obtain ⟨other, hother, rfl⟩ := List.mem_map.1 hmem
    exact (h.valid.facts other (mem_factsOf.1 hother).1).factId
  refine ⟨⟨shortestSelection input fact, statedAction input finding fact⟩, ?_,
    h.jsonSize_statedAction hrendered⟩
  refine ⟨rfl, rfl, hrender, ⟨h.valid.actionId, h.valid.sequence, ?_, ?_⟩,
    jsonSize_shortestSelection_le hrendered⟩
  · have hkey : Plain "why_now.evidence_finding.v1" ∧
        isCopyPatternKey "why_now.evidence_finding.v1" = true := by decide
    have hname : Plain "finding" ∧ isCopySlotName "finding" = true := by decide
    exact {
      key := hkey
      names := by
        intro e he
        rw [List.mem_singleton.1 he]
        exact hname
      ids := by
        intro e he id hid
        rw [List.mem_singleton.1 he] at hid
        rw [List.mem_singleton.1 hid]
        exact (h.valid.facts fact hfact).factId
      namesNodup := List.nodup_singleton _
      count := ⟨le_rfl, (by decide : 1 ≤ 20)⟩
      valid := by simp [PatternSelection.valid, shortestSelection, whyNowSelection] }
  · have h1 := hstated ⟨"targets", targetFactTypes, 1, 5000⟩ (by decide)
    have h2 := hstated ⟨"completion", [.definitionOfDone], 1, 20⟩ (by decide)
    have h3 := hstated ⟨"limitations", [.requiredLimitation], 1, 20⟩ (by decide)
    have hkey : Plain "explanation.targets_completion_limits.v1" ∧
        isCopyPatternKey "explanation.targets_completion_limits.v1" = true := by
      decide
    exact {
      key := hkey
      names := by
        have hnames : ∀ name ∈ ["targets", "completion", "limitations"],
            Plain name ∧ isCopySlotName name = true := by decide
        intro e he
        exact hnames e.1 (List.mem_map_of_mem he)
      ids := by
        intro e he
        simp only [shortestSelection, explanationSelection, List.mem_cons, List.not_mem_nil,
          or_false] at he
        rcases he with rfl | rfl | rfl
        · exact hform _
        · exact hform _
        · exact hform _
      namesNodup := by
        have hnames : ["targets", "completion", "limitations"].Nodup := by decide
        exact hnames
      count := ⟨(by decide : 1 ≤ 3), (by decide : 3 ≤ 20)⟩
      valid := by
        simp [PatternSelection.valid, shortestSelection, explanationSelection, h1, h2, h3] }

theorem BuiltInput.checkedAction {limits : PublicCopyLimits}
    (h : BuiltInput hash limits findings action input) : CheckedAction input := by
  refine ⟨h.valid, ?_, ?_, ?_⟩
  · rw [← h.stripped]
    exact Jobs.strip_strip _
  · intro fact hfact
    rw [← h.stripped] at hfact
    obtain ⟨raw, -, rfl⟩ := List.mem_map.1 hfact
    exact Jobs.strip_strip _
  · intro spec hspec
    rw [← h.stripped] at hspec
    rcases List.mem_append.1 hspec with hspec | hspec <;>
    · obtain ⟨raw, -, rfl⟩ := List.mem_map.1 hspec
      exact Jobs.strip_strip _

/-- Copies of all actions, of the size of the shortest ones. -/
theorem exists_copies (hnodup : (findings.map (·.findingId)).Nodup)
    {actions : List ActionSkeleton} {inputs : List CopyActionInput} {chosen : List Finding}
    (hbuilt : List.Forall₂ (fun action input => action.Valid ∧
      BuiltInput hash {} findings action input) actions inputs)
    (hchosen : List.Forall₂ (fun action finding => finding ∈ findings ∧
      finding.findingId ∈ action.findingIds ∧ (whyNowText finding).length ≤ 200000 ∧
      (explanationText action).length ≤ 200000) actions chosen) :
    ∃ copies, List.Forall₂ CopyOf inputs copies ∧
      (copies.map fun copy => jsonSize copy.2.json).sum =
        ((actions.zip chosen).map fun pair =>
          jsonSize (shortestAction pair.1 pair.2).json).sum := by
  induction hbuilt generalizing chosen with
  | nil => exact ⟨[], List.Forall₂.nil, by rw [List.zip_nil_left]; rfl⟩
  | cons hfirst _ ih =>
      obtain ⟨finding, rest, hpick, hrest, rfl⟩ := List.forall₂_cons_left_iff.1 hchosen
      obtain ⟨hfinding, hid, hwhy, hexplanation⟩ := hpick
      obtain ⟨copy, hcopy, hsize⟩ := hfirst.2.exists_copy hfirst.1 hfirst.2.checkedAction
        hnodup hfinding hid hwhy hexplanation
      obtain ⟨copies, hcopies, hsum⟩ := ih hrest
      refine ⟨copy :: copies, List.Forall₂.cons hcopy hcopies, ?_⟩
      rw [List.map_cons, List.sum_cons, hsum, hsize, List.zip_cons_cons, List.map_cons,
        List.sum_cons]

theorem CopyOf.map_eq {inputs : List CopyActionInput}
    {copies : List (CopyActionSelection × RenderedActionCopy)}
    (h : List.Forall₂ CopyOf inputs copies) :
    (copies.map Prod.fst).map (fun selection => (selection.actionId, selection.sequence)) =
        inputs.map (fun input => (input.actionId, input.sequence)) ∧
      (inputs.zip (copies.map Prod.fst)).mapM
        (fun pair => renderAction {} pair.1 pair.2) = .ok (copies.map Prod.snd) := by
  induction h with
  | nil => exact ⟨rfl, rfl⟩
  | cons hcopy _ ih =>
      obtain ⟨hids, hrendered⟩ := ih
      refine ⟨?_, ?_⟩
      · rw [List.map_cons, List.map_cons, List.map_cons, hids, hcopy.actionId, hcopy.sequence]
      · rw [List.map_cons, List.zip_cons_cons, List.mapM_cons, hcopy.rendered, hrendered]
        rfl

/-- An output is smaller than the result that it leads to. -/
theorem jsonSize_responseOutput_le {findingsChecksum actionPlanChecksum : String}
    {copies : List (CopyActionSelection × RenderedActionCopy)}
    (h : ∀ copy ∈ copies, jsonSize copy.1.json ≤ jsonSize copy.2.json) :
    jsonSize (responseOutput {
        actionPlanChecksum := actionPlanChecksum
        actions := copies.map Prod.fst }) ≤
      jsonSize (PublicActionCopyResult.json {
        findingsChecksum := findingsChecksum
        actionPlanChecksum := actionPlanChecksum
        actions := copies.map Prod.snd }) := by
  have h1 : stringSize copyOutputKey = 18 := by decide
  have h2 : stringSize "action_plan_checksum" = 22 := by decide
  have h3 : stringSize "actions" = 9 := by decide
  have hsum : ((copies.map Prod.fst).map fun selection => jsonSize selection.json).sum ≤
      ((copies.map Prod.snd).map fun rendered => jsonSize rendered.json).sum := by
    rw [List.map_map, List.map_map]
    exact List.sum_le_sum h
  rw [jsonSize_publicActionCopyResult]
  simp only [responseOutput, CopyResponseV1.json, jsonSize, fieldsSize, h1, h2, h3,
    itemsSize_eq_sum, List.length_cons, List.length_nil, List.length_map]
  rw [List.map_map]
  simp only [stringSize, Function.comp_def] at hsum ⊢
  omega

variable {env : Environment} {py : Interpreter} {result : PublicFindingsResult}
  {plan : PublicActionPlan} {request : CopyRequestV1}

/-- The request accepts the output that names the facts of the shortest copy. -/
theorem BuiltRequest.satisfiable (hpy : py.Capable) (hhash : py.hash = env.hash)
    (h : BuiltRequest env {} result plan request) (hfits : CopyFits env.hash result plan) :
    ∃ outputs copy, validateAndRenderCopy py request outputs {} = .ok copy := by
  obtain ⟨chosen, hchosen, hsize⟩ := hfits
  have hchecked := h.checked hhash
  have hbuilt := (List.forall₂_and_left _ _).2 ⟨h.planValid.actions, h.actions⟩
  have hnodup : ((canonicalPublicFindings result).findings.map (·.findingId)).Nodup :=
    ((sortedBy_perm _ _).map _).nodup_iff.2 h.findingsNodup
  obtain ⟨copies, hcopies, hsum⟩ := exists_copies hnodup hbuilt
    (hchosen.imp fun _ _ hpick => ⟨mem_findings_canonicalPublicFindings.2 hpick.1, hpick.2⟩)
  obtain ⟨hids, hrendered⟩ := CopyOf.map_eq hcopies
  let response : CopyResponseV1 := {
    actionPlanChecksum := request.actionPlanChecksum
    actions := copies.map Prod.fst }
  let copy : PublicActionCopyResult := {
    findingsChecksum := request.findingsChecksum
    actionPlanChecksum := request.actionPlanChecksum
    actions := copies.map Prod.snd }
  have hlength : request.actions.length = response.actions.length :=
    hcopies.length_eq.trans (List.length_map _).symm
  have hclosed := closedActions_of_mapM hchecked hlength hrendered
  have hresult := renderedResult_valid h.valid (hclosed.imp fun _ _ hdone => hdone.1)
  have hfits : jsonSize copy.json ≤ 2000000 := by
    have hcount : copies.length = (plan.actions.zip chosen).length := by
      rw [List.length_zip, ← hchosen.length_eq, Nat.min_self, h.actions.length_eq,
        hcopies.length_eq]
    rw [shortestCopy, jsonSize_publicActionCopyResult, List.map_map, List.length_map,
      ← h.findingsChecksum, ← h.actionPlanChecksum] at hsize
    rw [jsonSize_publicActionCopyResult, List.map_map, List.length_map]
    simp only [Function.comp_def] at hsize ⊢
    omega
  have hvalid : response.valid = true := by
    have hfirst := congrArg (List.map Prod.fst) hids
    have hsecond := congrArg (List.map Prod.snd) hids
    simp only [List.map_map, Function.comp_def] at hfirst hsecond
    rw [CopyResponseV1.valid, Bool.and_eq_true, decide_eq_true_eq, decide_eq_true_eq]
    simp only [response, List.map_map, Function.comp_def]
    rw [hfirst, hsecond]
    exact ⟨h.valid.sequences, h.valid.actionIdsNodup⟩
  have hparse := parseResponse_output hpy response h.valid.actionPlanChecksum
    (fun selection hselection => by
      obtain ⟨copy, hcopy, rfl⟩ := List.mem_map.1 hselection
      obtain ⟨_, _, hone⟩ := exists_left_of_mem hcopies hcopy
      exact hone.readable) hvalid {}
    ((jsonSize_responseOutput_le fun copy hcopy => by
      obtain ⟨_, _, hone⟩ := exists_left_of_mem hcopies hcopy
      exact hone.size).trans hfits)
  refine ⟨.value (responseOutput response), copy, ?_⟩
  rw [validateAndRenderCopy_of_checked PublicCopyLimits.default_valid hchecked, hparse, ok_bind,
    renderResponse, if_neg (not_not.2 rfl), if_neg (not_not.2 hids), hrendered, ok_bind]
  dsimp only
  rw [if_neg (not_not.2 hresult), if_neg (not_lt.2 hfits)]

/-- A request has an output that is accepted exactly when the shortest copy fits. -/
theorem request_satisfiable_iff (hpy : py.Capable) (hhash : py.hash = env.hash)
    (h : buildCopyRequest env result plan {} = .ok request) :
    (∃ outputs copy, validateAndRenderCopy py request outputs {} = .ok copy) ↔
      CopyFits env.hash result plan := by
  have hbuilt := buildCopyRequest_ok h
  constructor
  · rintro ⟨outputs, copy, hcopy⟩
    have hchecked := hbuilt.checked hhash
    rw [validateAndRenderCopy_of_checked PublicCopyLimits.default_valid hchecked] at hcopy
    obtain ⟨response, -, hcopy⟩ := ok_of_bind hcopy
    obtain ⟨done, rfl, hclosed, hsize⟩ := renderResponse_ok hchecked hcopy
    exact copyFits_of_closed hbuilt hclosed hsize
  · exact hbuilt.satisfiable hpy hhash

/-- A task: findings and a plan with the request that is built of them. -/
structure CopyTask (env : Environment) where
  findings : PublicFindingsResult
  plan : PublicActionPlan
  request : CopyRequestV1
  built : buildCopyRequest env findings plan {} = .ok request

/-- An interpreter that can read every valid response, with the hash of the builder. -/
structure CopyReader (hash : Hash) where
  py : Interpreter
  capable : py.Capable
  sameHash : py.hash = hash

end Copies

end SearchTrust.Report
