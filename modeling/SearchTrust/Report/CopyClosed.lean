/-
What an accepted copy consists of, and how every other output is rejected.
-/
import SearchTrust.Report.CopyContract
import SearchTrust.Report.Outcomes
import SearchTrust.Report.TextMeasures

namespace SearchTrust.Report

open SearchTrust.Jobs (Json strip)
open Outcomes

section Statement

/-- A rendered text: a catalog template of the purpose whose slots hold values of
facts of the action, each allowed for the purpose and the slot and used once. -/
def RenderedFrom (action : CopyActionInput) (purpose : CopyPurpose) (patternKey : String)
    (rendered : String) (factIds : List String) : Prop :=
  ∃ definition ∈ allPatterns, definition.spec.purpose = purpose ∧
    definition.spec.patternKey = patternKey ∧
    ∃ chosen : List (List CopyFact),
      List.Forall₂ (fun slot facts =>
        slot.minItems ≤ facts.length ∧ facts.length ≤ slot.maxItems ∧
        ∀ fact ∈ facts, fact ∈ action.facts ∧ purpose ∈ fact.allowedPurposes ∧
          fact.factType ∈ slot.allowedFactTypes) definition.spec.slots chosen ∧
      factIds = chosen.flatten.map (·.factId) ∧ factIds.Nodup ∧
      ∃ filled, format definition.template
          (fun name => (slotTexts definition.spec.slots chosen).lookup name) = some filled ∧
        rendered = pyStrip filled

/-- A rendered action of a closed copy. -/
structure ClosedAction (action : CopyActionInput) (rendered : RenderedActionCopy) : Prop where
  actionId : rendered.actionId = action.actionId
  sequence : rendered.sequence = action.sequence
  whyNow : RenderedFrom action .whyNow rendered.whyNowPatternKey rendered.whyNow
    rendered.whyNowFactIds
  explanation : RenderedFrom action .clientFacingExplanation rendered.explanationPatternKey
    rendered.clientFacingExplanation rendered.explanationFactIds
  /-- The explanation uses exactly the targets, the definitions of done and the
  required limitations. -/
  required : ∀ id, id ∈ rendered.explanationFactIds ↔
    (∃ fact ∈ action.facts, fact.factId = id ∧
      (fact.factType ∈ targetFactTypes ∨ fact.factType = .definitionOfDone)) ∨
    id ∈ action.requiredLimitationIds

structure ClosedCopy (request : CopyRequestV1) (result : PublicActionCopyResult) : Prop where
  checksum : result.actionPlanChecksum = request.actionPlanChecksum
  actions : List.Forall₂ ClosedAction request.actions result.actions

/-- The output is nested more deeply than the interpreter recurses: as a value, or
as the JSON text that an accepted envelope carries. -/
def NestedTooDeeply (py : Interpreter) (limits : PublicCopyLimits) :
    ProviderOutput → Prop
  | .unencodable => False
  | .value outputs =>
      py.walkRoom < jsonDepth outputs ∨
        (py.encodes outputs = true ∧ jsonSize outputs ≤ limits.maxOutputBytes ∧
          ∃ text, envelope outputs = some (.string text) ∧
            utf8Size text ≤ limits.maxOutputBytes ∧
            ¬ "```".toList <+: text.toList.dropWhile Web.isSpace ∧
            loads py.scanRoom text = .error .recursionError)

def CopyFailure.IsOutput : CopyFailure → Prop
  | .output _ _ => True
  | _ => False

@[simp] theorem isOutput_publicCopyOutputError (kind : CopyOutputErrorKind)
    (details : List String) : (publicCopyOutputError kind details).IsOutput := trivial

end Statement

section Stripping

theorem isSpace_of_isWhitespace {c : Char} (h : Jobs.isWhitespace c = true) :
    Web.isSpace c = true := by
  rw [Web.isSpace, h, Bool.true_or]

/-- What `str.strip` leaves has no white space around it for the models either. -/
theorem strip_pyStrip (s : String) : strip (pyStrip s) = pyStrip s := by
  have hfront : (Web.strip s.toList).dropWhile Jobs.isWhitespace = Web.strip s.toList := by
    rw [List.dropWhile_eq_self_iff]
    intro hpos hspace
    have hself : (Web.strip s.toList).dropWhile Web.isSpace = Web.strip s.toList :=
      Jobs.dropWhile_rdropWhile_of_dropWhile _ _
    exact List.dropWhile_eq_self_iff.1 hself hpos (isSpace_of_isWhitespace hspace)
  have hback : (Web.strip s.toList).rdropWhile Jobs.isWhitespace = Web.strip s.toList := by
    rw [List.rdropWhile_eq_self_iff]
    intro hne hspace
    have hself : (Web.strip s.toList).rdropWhile Web.isSpace = Web.strip s.toList :=
      List.rdropWhile_idempotent _ _
    exact List.rdropWhile_eq_self_iff.1 hself hne (isSpace_of_isWhitespace hspace)
  simp only [strip, pyStrip, String.toList_ofList, hfront, hback]

/-- What the second check of a request leaves of an action. -/
structure CheckedAction (action : CopyActionInput) : Prop where
  valid : action.Valid
  actionId : strip action.actionId = action.actionId
  factIds : ∀ fact ∈ action.facts, strip fact.factId = fact.factId
  patternKeys : ∀ spec ∈ action.patterns, strip spec.patternKey = spec.patternKey

theorem validatedRequest_ok {py : Interpreter} {value request : CopyRequestV1}
    {limits : PublicCopyLimits} (h : validatedRequest py value limits = .ok request) :
    request = value.stripped ∧ request.Valid ∧
      jsonSize request.json ≤ limits.maxInputBytes ∧
      request.actions.findSome? (actionFault py limits) = none := by
  unfold validatedRequest at h
  dsimp only at h
  split at h
  · cases h
  · next hvalid =>
      split at h
      · cases h
      · next hsize =>
          split at h
          · cases h
          · next hnone =>
              cases h
              exact ⟨rfl, not_not.1 hvalid, not_lt.1 hsize, hnone⟩

theorem validatedRequest_of_checks {py : Interpreter} {value : CopyRequestV1}
    {limits : PublicCopyLimits} (hstripped : value.stripped = value) (hvalid : value.Valid)
    (hsize : jsonSize value.json ≤ limits.maxInputBytes)
    (hfault : value.actions.findSome? (actionFault py limits) = none) :
    validatedRequest py value limits = .ok value := by
  unfold validatedRequest
  dsimp only
  rw [hstripped, if_neg (not_not.2 hvalid), if_neg (not_lt.2 hsize), hfault]

theorem checkedAction_of_mem {py : Interpreter} {value request : CopyRequestV1}
    {limits : PublicCopyLimits} (h : validatedRequest py value limits = .ok request)
    {action : CopyActionInput} (haction : action ∈ request.actions) :
    CheckedAction action := by
  obtain ⟨rfl, hvalid, -, -⟩ := validatedRequest_ok h
  have hactionValid := hvalid.actions action haction
  obtain ⟨raw, -, rfl⟩ := List.mem_map.1 haction
  refine ⟨hactionValid, Jobs.strip_strip _, ?_, ?_⟩
  · intro fact hfact
    obtain ⟨rawFact, -, rfl⟩ := List.mem_map.1 hfact
    exact Jobs.strip_strip _
  · intro spec hspec
    rcases List.mem_append.1 hspec with hspec | hspec <;>
    · obtain ⟨rawSpec, -, rfl⟩ := List.mem_map.1 hspec
      exact Jobs.strip_strip _

end Stripping

section Rendering

variable {action : CopyActionInput} {selection : PatternSelection} {purpose : CopyPurpose}
  {limits : PublicCopyLimits}

theorem selectedPattern_ok {definition : CopyPatternDefinition}
    (h : selectedPattern action selection purpose = .ok definition) :
    definition ∈ allPatterns ∧ definition.spec.purpose = purpose ∧
      definition.spec ∈ action.patterns ∧
      definition.spec.patternKey = selection.patternKey := by
  unfold selectedPattern at h
  dsimp only at h
  split at h
  · next spec found hspec hdefinition =>
      split at h
      · cases h
      · next hsame =>
          split at h
          · cases h
          · next hpurpose =>
              cases h
              have hmem : definition.spec ∈ action.patterns := by
                rw [not_not.1 hsame]
                have hfound := List.mem_of_find?_eq_some hspec
                split at hfound
                · exact List.mem_append_left _ hfound
                · exact List.mem_append_right _ hfound
              exact ⟨patternDefinition_mem hdefinition, not_not.1 hpurpose, hmem,
                key_of_patternDefinition hdefinition⟩
  · cases h

theorem selectedPattern_error {e : CopyFailure}
    (h : selectedPattern action selection purpose = .error e) : e.IsOutput := by
  unfold selectedPattern at h
  dsimp only at h
  split at h
  · split at h
    · cases h
      exact isOutput_publicCopyOutputError _ _
    · split at h
      · cases h
        exact isOutput_publicCopyOutputError _ _
      · cases h
  · cases h
    exact isOutput_publicCopyOutputError _ _

theorem chooseFact_ok {slot : CopyPatternSlotSpec} {id : String} {fact : CopyFact}
    (h : chooseFact action purpose slot id = .ok fact) :
    fact ∈ action.facts ∧ fact.factId = id ∧ purpose ∈ fact.allowedPurposes ∧
      fact.factType ∈ slot.allowedFactTypes := by
  unfold chooseFact at h
  split at h
  · next found hfound =>
      split at h
      · next hallowed =>
          cases h
          have hid : fact.factId = id := by simpa using List.find?_some hfound
          exact ⟨List.mem_of_find?_eq_some hfound, hid, hallowed⟩
      · cases h
  · cases h

theorem chooseFact_error {slot : CopyPatternSlotSpec} {id : String} {e : CopyFailure}
    (h : chooseFact action purpose slot id = .error e) : e.IsOutput := by
  unfold chooseFact at h
  split at h
  · split at h
    · cases h
    · cases h
      exact isOutput_publicCopyOutputError _ _
  · cases h
    exact isOutput_publicCopyOutputError _ _

theorem bindSlot_ok {slot : CopyPatternSlotSpec} {facts : List CopyFact}
    (h : bindSlot action selection purpose limits slot = .ok facts) :
    facts.map (·.factId) = selection.binding slot ∧ slot.minItems ≤ facts.length ∧
      facts.length ≤ slot.maxItems ∧ facts.length ≤ limits.maxFactRefsPerSlot ∧
      ∀ fact ∈ facts, fact ∈ action.facts ∧ purpose ∈ fact.allowedPurposes ∧
        fact.factType ∈ slot.allowedFactTypes := by
  unfold bindSlot at h
  dsimp only at h
  split at h
  · cases h
  · next hcount =>
      have hall := forall₂_of_mapM_ok h
      have hlength := hall.length_eq
      have hids : facts.map (·.factId) = selection.binding slot :=
        map_eq_of_forall₂ (hall.imp fun _ _ hfact => (chooseFact_ok hfact).2.1)
      refine ⟨hids, by omega, by omega, by omega, ?_⟩
      intro fact hfact
      obtain ⟨id, -, hchosen⟩ := exists_left_of_mem hall hfact
      obtain ⟨hmem, -, hallowed⟩ := chooseFact_ok hchosen
      exact ⟨hmem, hallowed⟩

theorem bindSlot_error {slot : CopyPatternSlotSpec} {e : CopyFailure}
    (h : bindSlot action selection purpose limits slot = .error e) : e.IsOutput := by
  unfold bindSlot at h
  dsimp only at h
  split at h
  · cases h
    exact isOutput_publicCopyOutputError _ _
  · obtain ⟨id, -, hid⟩ := exists_of_mapM_error h
    exact chooseFact_error hid

/-- The IDs that a selection uses are those of the chosen facts. -/
theorem binding_eq_of_mapM {slots : List CopyPatternSlotSpec} {chosen : List (List CopyFact)}
    (h : List.Forall₂ (fun slot facts =>
      bindSlot action selection purpose limits slot = .ok facts) slots chosen) :
    slots.flatMap selection.binding = chosen.flatten.map (·.factId) := by
  induction h with
  | nil => rfl
  | cons hslot _ ih =>
      rw [List.flatMap_cons, List.flatten_cons, List.map_append, ih, (bindSlot_ok hslot).1]

/-- What rendering a selection gives, and the bounds that it keeps to. -/
theorem renderSelection_ok {rendered : String} {ids : List String}
    (h : renderSelection action selection purpose limits = .ok (rendered, ids)) :
    RenderedFrom action purpose selection.patternKey rendered ids ∧
      lengthWithin 1 200000 rendered = true ∧ strip rendered = rendered ∧
      ∃ spec ∈ action.patterns, spec.patternKey = selection.patternKey := by
  unfold renderSelection at h
  obtain ⟨definition, hdefinition, h⟩ := ok_of_bind h
  obtain ⟨hcatalog, hpurpose, hspec, hkey⟩ := selectedPattern_ok hdefinition
  dsimp only at h
  split at h
  · cases h
  · obtain ⟨chosen, hchosen, h⟩ := ok_of_bind h
    have hall := forall₂_of_mapM_ok hchosen
    split at h
    · cases h
    · next hnodup =>
        split at h
        · cases h
        · next filled hfilled =>
            split at h
            · cases h
            · next hbounds =>
                cases h
                rw [not_or, not_lt] at hbounds
                refine ⟨⟨definition, hcatalog, hpurpose, hkey, chosen, ?_,
                  binding_eq_of_mapM hall, not_not.1 hnodup, filled, hfilled, rfl⟩,
                  ?_, strip_pyStrip _, definition.spec, hspec, hkey⟩
                · refine hall.imp ?_
                  intro slot facts hslot
                  obtain ⟨-, hmin, hmax, -, hfacts⟩ := bindSlot_ok hslot
                  exact ⟨hmin, hmax, hfacts⟩
                · have hmax := (allPatterns_valid definition hcatalog).maxRenderedChars.2
                  have hpos : (pyStrip filled).length ≠ 0 := by
                    rw [ne_eq, String.length_eq_zero_iff]
                    exact hbounds.1
                  rw [lengthWithin, Bool.and_eq_true, decide_eq_true_eq, decide_eq_true_eq]
                  omega

theorem slotTexts_lookup_isSome {slots : List CopyPatternSlotSpec}
    {chosen : List (List CopyFact)} (hlength : slots.length = chosen.length) {name : String}
    (hname : name ∈ slots.map (·.slotName)) :
    ((slotTexts slots chosen).lookup name).isSome := by
  induction slots generalizing chosen with
  | nil => cases hname
  | cons slot slots ih =>
      cases chosen with
      | nil => cases hlength
      | cons facts chosen =>
          rw [slotTexts, List.map_cons, List.map_cons, List.zip_cons_cons, List.lookup_cons]
          cases hsame : name == slot.slotName with
          | true => rfl
          | false =>
              have hrest : name ∈ slots.map (·.slotName) := by
                rcases List.mem_cons.1 hname with rfl | hrest
                · rw [beq_self_eq_true] at hsame
                  cases hsame
                · exact hrest
              exact ih (Nat.succ.inj hlength) hrest

/-- The catalog has no template that could not be filled. -/
theorem renderSelection_error {e : CopyFailure}
    (h : renderSelection action selection purpose limits = .error e) : e.IsOutput := by
  unfold renderSelection at h
  rcases error_of_bind h with hpattern | ⟨definition, hdefinition, h⟩
  · exact selectedPattern_error hpattern
  · obtain ⟨hcatalog, -, -, -⟩ := selectedPattern_ok hdefinition
    dsimp only at h
    split at h
    · cases h
      exact isOutput_publicCopyOutputError _ _
    · rcases error_of_bind h with hbind | ⟨chosen, hchosen, h⟩
      · obtain ⟨slot, -, hslot⟩ := exists_of_mapM_error hbind
        exact bindSlot_error hslot
      · have hlength := (forall₂_of_mapM_ok hchosen).length_eq
        split at h
        · cases h
          exact isOutput_publicCopyOutputError _ _
        · split at h
          · next hnone =>
              have hsome := format_isSome definition.template
                (fun name => (slotTexts definition.spec.slots chosen).lookup name)
                fun part hpart name hname => slotTexts_lookup_isSome hlength
                  (placeholder_mem_slots definition hcatalog part hpart name hname)
              rw [hnone] at hsome
              cases hsome
          · split at h
            · cases h
              exact isOutput_publicCopyOutputError _ _
            · cases h

theorem validateMandatoryExplanationFacts_ok {ids : List String}
    (h : validateMandatoryExplanationFacts action ids = .ok ()) :
    ids ⊆ requiredFactIds action ∧ requiredFactIds action ⊆ ids := by
  unfold validateMandatoryExplanationFacts at h
  dsimp only at h
  split at h
  · cases h
  · next hrequired =>
      rw [not_or, not_not] at hrequired
      exact hrequired.2

theorem validateMandatoryExplanationFacts_error {ids : List String} {e : CopyFailure}
    (h : validateMandatoryExplanationFacts action ids = .error e) : e.IsOutput := by
  unfold validateMandatoryExplanationFacts at h
  dsimp only at h
  split at h
  · cases h
    exact isOutput_publicCopyOutputError _ _
  · split at h
    · cases h
      exact isOutput_publicCopyOutputError _ _
    · cases h

/-- The facts behind a rendered text. -/
theorem RenderedFrom.ids_subset {key rendered : String} {ids : List String}
    (h : RenderedFrom action purpose key rendered ids) :
    ids ⊆ action.facts.map (·.factId) := by
  obtain ⟨definition, -, -, -, chosen, hall, rfl, -, -⟩ := h
  intro id hid
  obtain ⟨fact, hfact, rfl⟩ := List.mem_map.1 hid
  obtain ⟨facts, hfacts, hmem⟩ := List.mem_flatten.1 hfact
  obtain ⟨slot, -, -, -, hslot⟩ := exists_left_of_mem hall hfacts
  exact List.mem_map_of_mem (hslot fact hmem).1

theorem RenderedFrom.ids_nodup {key rendered : String} {ids : List String}
    (h : RenderedFrom action purpose key rendered ids) : ids.Nodup := by
  obtain ⟨definition, -, -, -, chosen, -, -, hnodup, -⟩ := h
  exact hnodup

/-- Every pattern has a slot, and every slot asks for a fact. -/
theorem RenderedFrom.ids_ne_nil {key rendered : String} {ids : List String}
    (h : RenderedFrom action purpose key rendered ids) : ids ≠ [] := by
  obtain ⟨definition, hcatalog, -, -, chosen, hall, rfl, -, -⟩ := h
  have hvalid := allPatterns_valid definition hcatalog
  obtain ⟨slot, hslot⟩ := List.exists_mem_of_ne_nil _ hvalid.slotCount.1
  obtain ⟨facts, hfacts, hmin, -, -⟩ := exists_right_of_mem hall hslot
  have hpos : 0 < facts.length := Nat.lt_of_lt_of_le (hvalid.slots slot hslot).minItems.1 hmin
  obtain ⟨fact, hfact⟩ := List.exists_mem_of_length_pos hpos
  have hmem : fact.factId ∈ chosen.flatten.map (·.factId) :=
    List.mem_map_of_mem (List.mem_flatten.2 ⟨facts, hfacts, hfact⟩)
  exact List.ne_nil_of_mem hmem

/-- A text uses at most the facts of its action. -/
theorem RenderedFrom.ids_length_le {key rendered : String} {ids : List String}
    (h : RenderedFrom action purpose key rendered ids) :
    ids.length ≤ action.facts.length := by
  have hperm := (List.subperm_of_subset h.ids_nodup h.ids_subset).length_le
  rwa [List.length_map] at hperm

end Rendering

section Actions

variable {limits : PublicCopyLimits}

theorem mem_requiredFactIds {action : CopyActionInput} {id : String} :
    id ∈ requiredFactIds action ↔
      (∃ fact ∈ action.facts, fact.factId = id ∧
        (fact.factType ∈ targetFactTypes ∨ fact.factType = .definitionOfDone)) ∨
      id ∈ action.requiredLimitationIds := by
  rw [requiredFactIds, List.mem_append, List.mem_map]
  refine or_congr_left ⟨?_, ?_⟩
  · rintro ⟨fact, hfact, rfl⟩
    obtain ⟨hmem, htype⟩ := List.mem_filter.1 hfact
    exact ⟨fact, hmem, rfl, of_decide_eq_true htype⟩
  · rintro ⟨fact, hmem, rfl, htype⟩
    exact ⟨fact, List.mem_filter.2 ⟨hmem, decide_eq_true htype⟩, rfl⟩

theorem map_strip_eq_self {ids : List String} (h : ∀ id ∈ ids, strip id = id) :
    ids.map strip = ids := by
  calc ids.map strip = ids.map id := List.map_congr_left h
    _ = ids := List.map_id ids

/-- The IDs of a text keep their form. -/
theorem RenderedFrom.ids_checked {action : CopyActionInput} (hchecked : CheckedAction action)
    {purpose : CopyPurpose} {key rendered : String} {ids : List String}
    (h : RenderedFrom action purpose key rendered ids) :
    ∀ id ∈ ids, strip id = id ∧ isCopyFactId id = true := by
  intro id hid
  obtain ⟨fact, hfact, rfl⟩ := List.mem_map.1 (h.ids_subset hid)
  exact ⟨hchecked.factIds fact hfact, (hchecked.valid.facts fact hfact).factId⟩

/-- What two rendered selections make of an action is neither stripped further nor
refused by its own model. -/
theorem renderedAction_checked {action : CopyActionInput} (hchecked : CheckedAction action)
    {whyNow explanation : PatternSelection} {whyText explanationText : String}
    {whyIds explanationIds : List String}
    (hwhy : renderSelection action whyNow .whyNow limits = .ok (whyText, whyIds))
    (hexplanation : renderSelection action explanation .clientFacingExplanation limits =
      .ok (explanationText, explanationIds)) :
    let rendered : RenderedActionCopy := {
      actionId := action.actionId
      sequence := action.sequence
      whyNow := whyText
      clientFacingExplanation := explanationText
      whyNowPatternKey := whyNow.patternKey
      whyNowFactIds := whyIds
      explanationPatternKey := explanation.patternKey
      explanationFactIds := explanationIds }
    rendered.stripped = rendered ∧ rendered.Valid := by
  obtain ⟨hwhyFrom, hwhyLength, hwhyStrip, spec, hspec, hwhyKey⟩ := renderSelection_ok hwhy
  obtain ⟨hexpFrom, hexpLength, hexpStrip, spec', hspec', hexpKey⟩ :=
    renderSelection_ok hexplanation
  have hwhyIds := map_strip_eq_self fun id hid => (hwhyFrom.ids_checked hchecked id hid).1
  have hexpIds := map_strip_eq_self fun id hid => (hexpFrom.ids_checked hchecked id hid).1
  have hwhyKeyStrip := hwhyKey ▸ hchecked.patternKeys spec hspec
  have hexpKeyStrip := hexpKey ▸ hchecked.patternKeys spec' hspec'
  have hcount := hchecked.valid.factCount.2
  refine ⟨?_, ?_⟩
  · simp only [RenderedActionCopy.stripped, hchecked.actionId, hwhyKeyStrip, hwhyStrip,
      hwhyIds, hexpKeyStrip, hexpStrip, hexpIds]
  · exact {
      actionId := hchecked.valid.actionId
      sequence := hchecked.valid.sequence
      whyNow := hwhyLength
      explanation := hexpLength
      whyNowPatternKey := hwhyKey ▸ (hchecked.valid.patterns spec hspec).patternKey
      whyNowFacts := ⟨hwhyFrom.ids_ne_nil, hwhyFrom.ids_length_le.trans hcount⟩
      whyNowFactIds := fun id hid => (hwhyFrom.ids_checked hchecked id hid).2
      explanationPatternKey := hexpKey ▸ (hchecked.valid.patterns spec' hspec').patternKey
      explanationFacts := ⟨hexpFrom.ids_ne_nil, hexpFrom.ids_length_le.trans hcount⟩
      explanationFactIds := fun id hid => (hexpFrom.ids_checked hchecked id hid).2 }

theorem renderAction_ok {action : CopyActionInput} {selection : CopyActionSelection}
    {rendered : RenderedActionCopy} (hchecked : CheckedAction action)
    (h : renderAction limits action selection = .ok rendered) :
    ClosedAction action rendered ∧ rendered.Valid := by
  unfold renderAction at h
  obtain ⟨⟨whyNow, whyIds⟩, hwhy, h⟩ := ok_of_bind h
  obtain ⟨⟨explanation, explanationIds⟩, hexplanation, h⟩ := ok_of_bind h
  obtain ⟨_, hrequired, h⟩ := ok_of_bind h
  obtain ⟨hstripped, hvalid⟩ := renderedAction_checked hchecked hwhy hexplanation
  obtain ⟨hsub, hsup⟩ := validateMandatoryExplanationFacts_ok hrequired
  dsimp only at h hstripped hvalid
  rw [hstripped, if_pos hvalid] at h
  cases h
  refine ⟨⟨rfl, rfl, (renderSelection_ok hwhy).1, (renderSelection_ok hexplanation).1, ?_⟩,
    hvalid⟩
  intro id
  rw [← mem_requiredFactIds]
  exact ⟨fun hid => hsub hid, fun hid => hsup hid⟩

/-- The rendered action passes the checks of its own model. -/
theorem renderAction_error {action : CopyActionInput} {selection : CopyActionSelection}
    {e : CopyFailure} (hchecked : CheckedAction action)
    (h : renderAction limits action selection = .error e) : e.IsOutput := by
  unfold renderAction at h
  rcases error_of_bind h with hwhy | ⟨⟨whyNow, whyIds⟩, hwhy, h⟩
  · exact renderSelection_error hwhy
  rcases error_of_bind h with hexp | ⟨⟨explanation, explanationIds⟩, hexplanation, h⟩
  · exact renderSelection_error hexp
  rcases error_of_bind h with hreq | ⟨_, hrequired, h⟩
  · exact validateMandatoryExplanationFacts_error hreq
  obtain ⟨hstripped, hvalid⟩ := renderedAction_checked hchecked hwhy hexplanation
  dsimp only at h hstripped hvalid
  rw [hstripped, if_pos hvalid] at h
  cases h

end Actions

section Results

variable {py : Interpreter} {limits : PublicCopyLimits} {value request : CopyRequestV1}
  {response : CopyResponseV1}

/-- The actions of a rendering belong to those of the request, one by one. -/
theorem closedActions_of_mapM (hrequest : validatedRequest py value limits = .ok request)
    (hlength : request.actions.length = response.actions.length)
    {rendered : List RenderedActionCopy}
    (h : (request.actions.zip response.actions).mapM
      (fun pair => renderAction limits pair.1 pair.2) = .ok rendered) :
    List.Forall₂ (fun action done => ClosedAction action done ∧ RenderedActionCopy.Valid done)
      request.actions rendered := by
  have hall := forall₂_of_mapM_ok h
  have hclosed : List.Forall₂ (fun (pair : CopyActionInput × CopyActionSelection) done =>
      ClosedAction pair.1 done ∧ RenderedActionCopy.Valid done)
        (request.actions.zip response.actions) rendered := by
    refine List.forall₂_iff_zip.2 ⟨hall.length_eq, ?_⟩
    intro pair done hmem
    have hdone := List.forall₂_iff_zip.1 hall |>.2 hmem
    have haction : pair.1 ∈ request.actions := by
      have hzip := (List.of_mem_zip hmem).1
      exact (List.of_mem_zip (b := pair.2) hzip).1
    exact renderAction_ok (checkedAction_of_mem hrequest haction) hdone
  have hfst : (request.actions.zip response.actions).map Prod.fst = request.actions :=
    List.map_fst_zip hlength.le
  rw [← hfst, List.forall₂_map_left_iff]
  exact hclosed

/-- The request and the response name the same actions. -/
theorem renderResponse_ok (hrequest : validatedRequest py value limits = .ok request)
    {result : PublicActionCopyResult}
    (h : renderResponse request response limits = .ok result) :
    ∃ rendered, result = {
        findingsChecksum := request.findingsChecksum
        actionPlanChecksum := request.actionPlanChecksum
        actions := rendered } ∧
      List.Forall₂ (fun action done => ClosedAction action done ∧ RenderedActionCopy.Valid done)
        request.actions rendered ∧
      jsonSize result.json ≤ limits.maxResultBytes := by
  unfold renderResponse at h
  split at h
  · cases h
  · split at h
    · cases h
    · next hsame =>
        have hlength : request.actions.length = response.actions.length := by
          have hlengths := congrArg List.length (not_not.1 hsame)
          simpa only [List.length_map] using hlengths.symm
        obtain ⟨rendered, hrendered, h⟩ := ok_of_bind h
        dsimp only at h
        split at h
        · cases h
        · split at h
          · cases h
          · next hsize =>
              cases h
              exact ⟨rendered, rfl, closedActions_of_mapM hrequest hlength hrendered,
                not_lt.1 hsize⟩

theorem ClosedAction.map_eq {actions : List CopyActionInput}
    {rendered : List RenderedActionCopy} (h : List.Forall₂ ClosedAction actions rendered) :
    rendered.map (·.actionId) = actions.map (·.actionId) ∧
      rendered.map (·.sequence) = actions.map (·.sequence) := by
  induction h with
  | nil => exact ⟨rfl, rfl⟩
  | cons hclosed _ ih =>
      obtain ⟨hids, hsequences⟩ := ih
      simp only [List.map_cons, hids, hsequences, hclosed.actionId, hclosed.sequence, and_self]

/-- The actions of a rendering make a valid result. -/
theorem renderedResult_valid (hvalid : request.Valid) {rendered : List RenderedActionCopy}
    (h : List.Forall₂ ClosedAction request.actions rendered) :
    PublicActionCopyResult.Valid {
      findingsChecksum := request.findingsChecksum
      actionPlanChecksum := request.actionPlanChecksum
      actions := rendered } := by
  obtain ⟨hids, hsequences⟩ := ClosedAction.map_eq h
  exact {
    findingsChecksum := hvalid.findingsChecksum
    actionPlanChecksum := hvalid.actionPlanChecksum
    attemptCount := ⟨le_rfl, (by decide : 1 ≤ 3)⟩
    sequences := hsequences.trans hvalid.sequences
    actionIdsNodup := hids ▸ hvalid.actionIdsNodup }

/-- The result passes the checks of its own model, so rendering only rejects. -/
theorem renderResponse_error (hrequest : validatedRequest py value limits = .ok request)
    {e : CopyFailure} (h : renderResponse request response limits = .error e) :
    e.IsOutput := by
  have hvalid := (validatedRequest_ok hrequest).2.1
  unfold renderResponse at h
  split at h
  · cases h
    exact isOutput_publicCopyOutputError _ _
  · split at h
    · cases h
      exact isOutput_publicCopyOutputError _ _
    · next hsame =>
        have hlength : request.actions.length = response.actions.length := by
          have hlengths := congrArg List.length (not_not.1 hsame)
          simpa only [List.length_map] using hlengths.symm
        rcases error_of_bind h with hmap | ⟨rendered, hrendered, h⟩
        · obtain ⟨pair, hpair, herror⟩ := exists_of_mapM_error hmap
          have haction : pair.1 ∈ request.actions := (List.of_mem_zip hpair).1
          exact renderAction_error (checkedAction_of_mem hrequest haction) herror
        · have hall := closedActions_of_mapM hrequest hlength hrendered
          have hresult := renderedResult_valid hvalid (hall.imp fun _ _ hdone => hdone.1)
          dsimp only at h
          rw [if_neg (not_not.2 hresult)] at h
          split at h
          · cases h
            exact isOutput_publicCopyOutputError _ _
          · cases h

end Results

section Parsing

variable {py : Interpreter} {limits : PublicCopyLimits}

theorem readResponse_error {value : Json} {e : CopyFailure}
    (h : readResponse limits value = .error e) : e.IsOutput := by
  unfold readResponse at h
  split at h
  · split at h
    · cases h
    · dsimp only at h
      split at h <;>
      · cases h
        exact isOutput_publicCopyOutputError _ _
  · cases h
    exact isOutput_publicCopyOutputError _ _

/-- Decoding ends with the recursion error only when the scanner does. -/
theorem decodedValue_error {value : Json} {e : CopyFailure}
    (h : decodedValue py limits value = .error e) :
    e.IsOutput ∨ (e = .recursionError ∧ ∃ text, value = .string text ∧
      utf8Size text ≤ limits.maxOutputBytes ∧
      ¬ "```".toList <+: text.toList.dropWhile Web.isSpace ∧
      loads py.scanRoom text = .error .recursionError) := by
  cases value with
  | null =>
      cases h
      exact .inl (isOutput_publicCopyOutputError _ _)
  | string text =>
      rw [decodedValue] at h
      split at h
      · cases h
        exact .inl (isOutput_publicCopyOutputError _ _)
      · next hsize =>
          split at h
          · cases h
            exact .inl (isOutput_publicCopyOutputError _ _)
          · next hfence =>
              split at h
              · cases h
              · cases h
                exact .inl (isOutput_publicCopyOutputError _ _)
              · next hrecursion =>
                  cases h
                  exact .inr ⟨rfl, text, rfl, not_lt.1 hsize, hfence, hrecursion⟩
  | bool value => cases h
  | number literal => cases h
  | array items => cases h
  | object fields => cases h

/-- Parsing ends with the recursion error exactly for what is nested too deeply. -/
theorem parseResponse_error {outputs : ProviderOutput} {e : CopyFailure}
    (h : parseResponse py outputs limits = .error e) :
    e.IsOutput ∨ NestedTooDeeply py limits outputs := by
  unfold parseResponse at h
  split at h
  · cases h
    exact .inl (isOutput_publicCopyOutputError _ _)
  · cases h
    exact .inl (isOutput_publicCopyOutputError _ _)
  · next outputs _ =>
      split at h
      · next hdepth => exact .inr (.inl hdepth)
      · split at h
        · cases h
          exact .inl (isOutput_publicCopyOutputError _ _)
        · next hencodes =>
            split at h
            · cases h
              exact .inl (isOutput_publicCopyOutputError _ _)
            · next hsize =>
                split at h
                · cases h
                  exact .inl (isOutput_publicCopyOutputError _ _)
                · next value henvelope =>
                    rcases error_of_bind h with hdecoded | ⟨value', _, h⟩
                    · rcases decodedValue_error hdecoded with hout | ⟨-, text, rfl, htext⟩
                      · exact .inl hout
                      · exact .inr (.inr ⟨not_not.1 hencodes, not_lt.1 hsize, text,
                          henvelope, htext⟩)
                    · exact .inl (readResponse_error h)

theorem parseResponse_of_nestedTooDeeply {outputs : ProviderOutput}
    (h : NestedTooDeeply py limits outputs) :
    parseResponse py outputs limits = .error .recursionError := by
  cases outputs with
  | unencodable => exact h.elim
  | value outputs =>
      cases outputs with
      | null =>
          rcases h with hdepth | ⟨-, -, text, henvelope, -⟩
          · exact absurd hdepth (Nat.not_lt_zero _)
          · cases henvelope
      | object fields =>
          unfold parseResponse
          dsimp only
          by_cases hdepth : py.walkRoom < jsonDepth (.object fields)
          · rw [if_pos hdepth]
          · rcases h with hdeep | ⟨hencodes, hsize, text, henvelope, htext, hfence, hloads⟩
            · exact absurd hdeep hdepth
            · rw [if_neg hdepth, if_neg (not_not.2 hencodes), if_neg (not_lt.2 hsize),
                henvelope]
              have hdecoded : decodedValue py limits (.string text) = .error .recursionError := by
                rw [decodedValue, if_neg (not_lt.2 htext), if_neg hfence, hloads]
              dsimp only
              rw [hdecoded]
              rfl
      | array items =>
          rcases h with hdepth | ⟨-, -, text, henvelope, -⟩
          · unfold parseResponse
            dsimp only
            rw [if_pos hdepth]
          · cases henvelope
      | bool value =>
          rcases h with hdepth | ⟨-, -, text, henvelope, -⟩
          · exact absurd hdepth (Nat.not_lt_zero _)
          · cases henvelope
      | number literal =>
          rcases h with hdepth | ⟨-, -, text, henvelope, -⟩
          · exact absurd hdepth (Nat.not_lt_zero _)
          · cases henvelope
      | string text =>
          rcases h with hdepth | ⟨-, -, text, henvelope, -⟩
          · exact absurd hdepth (Nat.not_lt_zero _)
          · cases henvelope

/-- An envelope around a text of opening brackets. -/
def bracketOutput (n : Nat) : Json :=
  .object [(copyOutputKey, .string (.ofList (List.replicate n '[')))]

theorem bracketOutput_nestedTooDeeply {n : Nat} (hroom : py.scanRoom < n)
    (hsize : n + 23 ≤ limits.maxOutputBytes)
    (hencodes : py.encodes (bracketOutput n) = true) :
    NestedTooDeeply py limits (.value (bracketOutput n)) := by
  have hcontent : contentSize (.ofList (List.replicate n '[')) = n := by
    rw [contentSize, String.toList_ofList, List.map_replicate, List.sum_replicate_nat]
    exact Nat.mul_one n
  have hjson : jsonSize (bracketOutput n) ≤ limits.maxOutputBytes := by
    have hkey : contentSize copyOutputKey = 16 := by decide
    simp only [bracketOutput, jsonSize, fieldsSize, stringSize, hkey, hcontent,
      List.length_cons, List.length_nil]
    omega
  have hutf8 : utf8Size (.ofList (List.replicate n '[')) ≤ limits.maxOutputBytes := by
    have hbytes : utf8Size (.ofList (List.replicate n '[')) = n := by
      rw [utf8Size, String.toList_ofList, List.map_replicate, List.sum_replicate_nat]
      exact Nat.mul_one n
    omega
  have hfence : ¬ "```".toList <+:
      (String.ofList (List.replicate n '[')).toList.dropWhile Web.isSpace := by
    obtain ⟨n, rfl⟩ : ∃ m, n = m + 1 := ⟨n - 1, by omega⟩
    have hdrop : (List.replicate (n + 1) '[').dropWhile Web.isSpace =
        '[' :: List.replicate n '[' := rfl
    rw [String.toList_ofList (l := List.replicate (n + 1) '['), hdrop]
    rintro ⟨rest, hrest⟩
    cases hrest
  exact .inr ⟨hencodes, hjson, _, rfl, hutf8, hfence, loads_brackets hroom⟩

end Parsing

section Copies

variable {py : Interpreter} {limits : PublicCopyLimits} {value request : CopyRequestV1}

theorem validateAndRenderCopy_of_checked (hlimits : limits.Valid)
    (hrequest : validatedRequest py value limits = .ok request) (outputs : ProviderOutput) :
    validateAndRenderCopy py value outputs limits =
      (parseResponse py outputs limits >>= fun response =>
        renderResponse request response limits) := by
  have hvalidated : validatedLimits limits = .ok limits := if_pos hlimits
  rw [validateAndRenderCopy, hvalidated, ok_bind, hrequest, ok_bind]

/-- What is nested too deeply is not rejected. -/
theorem recursionError_of_nestedTooDeeply (hlimits : limits.Valid)
    (hrequest : validatedRequest py value limits = .ok request) {outputs : ProviderOutput}
    (hdeep : NestedTooDeeply py limits outputs) :
    validateAndRenderCopy py value outputs limits = .error .recursionError := by
  rw [validateAndRenderCopy_of_checked hlimits hrequest, parseResponse_of_nestedTooDeeply hdeep]
  rfl

/-- For a request that passes its check, every output gives a closed copy or a
rejection, unless it is nested more deeply than the interpreter recurses. -/
theorem copy_closed_or_rejected_iff (hlimits : limits.Valid)
    (hrequest : validatedRequest py value limits = .ok request) (outputs : ProviderOutput) :
    ((∃ result, validateAndRenderCopy py value outputs limits = .ok result ∧
        ClosedCopy request result) ∨
      ∃ kind details, validateAndRenderCopy py value outputs limits =
        .error (.output kind details)) ↔
      ¬ NestedTooDeeply py limits outputs := by
  have hrun := validateAndRenderCopy_of_checked hlimits hrequest outputs
  constructor
  · intro h hdeep
    rw [recursionError_of_nestedTooDeeply hlimits hrequest hdeep] at h
    rcases h with ⟨result, hresult, -⟩ | ⟨kind, details, herror⟩
    · cases hresult
    · cases herror
  · intro hshallow
    cases h : validateAndRenderCopy py value outputs limits with
    | ok result =>
        rw [hrun] at h
        obtain ⟨response, -, h⟩ := ok_of_bind h
        obtain ⟨rendered, rfl, hall, -⟩ := renderResponse_ok hrequest h
        exact .inl ⟨_, rfl, rfl, hall.imp fun _ _ hdone => hdone.1⟩
    | error e =>
        rw [hrun] at h
        have houtput : e.IsOutput := by
          rcases error_of_bind h with hparse | ⟨response, -, hrender⟩
          · exact (parseResponse_error hparse).resolve_right hshallow
          · exact renderResponse_error hrequest hrender
        cases e with
        | output kind details => exact .inr ⟨kind, details, rfl⟩
        | input kind => exact houtput.elim
        | validationError => exact houtput.elim
        | recursionError => exact houtput.elim

end Copies

section Samples

/-- A stand-in for the hash: one number for each type of facts. -/
def sampleHash : Hash
  | .object [_, _, _, _, (_, .string factType), _] =>
      if factType = "finding_statement" then 1 <<< 250
      else if factType = "target_url" then 2 <<< 250
      else if factType = "definition_of_done" then 3 <<< 250
      else 4 <<< 250
  | _ => 0

def samplePy : Interpreter where
  hash := sampleHash
  walkRoom := 900
  scanRoom := 900
  encodes := fun _ => true

def sampleFact (actionId : String) (factType : CopyFactType) (value : String)
    (purpose : CopyPurpose) : CopyFact where
  factId := copyFactId sampleHash actionId [] "p" factType value
  actionId := actionId
  sourceFindingIds := []
  sourcePath := "p"
  factType := factType
  value := value
  allowedPurposes := [purpose]

def sampleAction (actionId : String) (sequence : Nat) : CopyActionInput where
  actionId := actionId
  sequence := sequence
  templateKey := "restore_site_access_indexing"
  templateVersion := templateVersion
  findingIds := ["fn_abc"]
  facts := [
    sampleFact actionId .findingStatement "s" .whyNow,
    sampleFact actionId .targetUrl "u" .clientFacingExplanation,
    sampleFact actionId .definitionOfDone "d" .clientFacingExplanation,
    sampleFact actionId .requiredLimitation "l" .clientFacingExplanation]
  whyNowPatterns := whyNowCatalog.map (·.spec)
  explanationPatterns := explanationCatalog.map (·.spec)
  requiredLimitationIds := [copyFactId sampleHash actionId [] "p" .requiredLimitation "l"]

def sampleChecksum : String := requestDigest sampleHash .null

def sampleRequest : CopyRequestV1 where
  findingsChecksum := sampleChecksum
  actionPlanChecksum := sampleChecksum
  actions := [sampleAction "ac_abc" 1, sampleAction "ac_abd" 2, sampleAction "ac_abe" 3]

theorem sampleAction_stripped (actionId : String) (sequence : Nat)
    (hid : strip actionId = actionId)
    (hfacts : (sampleAction actionId sequence).facts.map CopyFact.stripped =
      (sampleAction actionId sequence).facts)
    (hlimitations : (sampleAction actionId sequence).requiredLimitationIds.map strip =
      (sampleAction actionId sequence).requiredLimitationIds) :
    (sampleAction actionId sequence).stripped = sampleAction actionId sequence := by
  have hwhy := specs_stripped whyNowCatalog (List.subset_append_left _ _)
  have hexp := specs_stripped explanationCatalog (List.subset_append_right _ _)
  have hkey : strip "restore_site_access_indexing" = "restore_site_access_indexing" := by
    decide
  have hversion : strip templateVersion = templateVersion := by decide
  have hfinding : strip "fn_abc" = "fn_abc" := by decide
  rw [CopyActionInput.stripped, hfacts, hlimitations]
  simp only [sampleAction, hid, hwhy, hexp, hkey, hversion, hfinding, List.map_cons,
    List.map_nil]

theorem sampleRequest_checked :
    validatedRequest samplePy sampleRequest {} = .ok sampleRequest := by
  have hstripped : sampleRequest.stripped = sampleRequest := by
    have h1 := sampleAction_stripped "ac_abc" 1 (by decide) (by decide)
      (by decide)
    have h2 := sampleAction_stripped "ac_abd" 2 (by decide) (by decide)
      (by decide)
    have h3 := sampleAction_stripped "ac_abe" 3 (by decide) (by decide)
      (by decide)
    have hchecksum : strip sampleChecksum = sampleChecksum := by decide
    simp only [CopyRequestV1.stripped, sampleRequest, hchecksum, h1, h2, h3, List.map_cons,
      List.map_nil]
  have hvalid : sampleRequest.Valid := by decide
  have hrough : roughSize sampleRequest.json ≤ 20000000 := by decide
  have hsize : jsonSize sampleRequest.json ≤ 20000000 :=
    (jsonSize_le_roughSize _).trans hrough
  have hfault : sampleRequest.actions.findSome? (actionFault samplePy {}) = none := by
    decide
  exact validatedRequest_of_checks hstripped hvalid hsize hfault

/-- An object that no encoder takes is rejected. -/
theorem sample_unencodable_is_rejected :
    (∃ result, validateAndRenderCopy samplePy sampleRequest .unencodable {} = .ok result ∧
        ClosedCopy sampleRequest result) ∨
      ∃ kind details, validateAndRenderCopy samplePy sampleRequest .unencodable {} =
        .error (.output kind details) :=
  (copy_closed_or_rejected_iff PublicCopyLimits.default_valid sampleRequest_checked
    .unencodable).2 fun h => h

/-- JSON text that opens more lists than the scanner can enter raises an error that
is no rejection. -/
theorem bracket_output_is_not_rejected :
    ¬ ((∃ result, validateAndRenderCopy samplePy sampleRequest (.value (bracketOutput 901)) {} =
          .ok result ∧ ClosedCopy sampleRequest result) ∨
        ∃ kind details, validateAndRenderCopy samplePy sampleRequest
          (.value (bracketOutput 901)) {} = .error (.output kind details)) := by
  have hdeep : NestedTooDeeply samplePy {} (.value (bracketOutput 901)) :=
    bracketOutput_nestedTooDeeply (by decide) (by decide) rfl
  rw [recursionError_of_nestedTooDeeply PublicCopyLimits.default_valid sampleRequest_checked
    hdeep]
  rintro (⟨result, hresult, -⟩ | ⟨kind, details, herror⟩)
  · cases hresult
  · cases herror

end Samples

end SearchTrust.Report
