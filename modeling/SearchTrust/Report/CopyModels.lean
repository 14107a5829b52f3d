/-
The models of the controlled copy contract.  A request and a result are kept as
plain data next to the conditions that their validators check.
-/
import Mathlib.Tactic.MkIffOfInductiveProp
import SearchTrust.Report.Models
import SearchTrust.Report.Validation

namespace SearchTrust.Report

open SearchTrust.Jobs (Json strip)

section Forms

/-- `^cf_[a-f0-9]{24}$`. -/
def isCopyFactId (s : String) : Bool :=
  match s.toList.dropPrefix? "cf_".toList with
  | some rest => rest.all isLowerHex && rest.length = 24
  | none => false

/-- `^[a-z][a-z0-9_.-]+$` with 3 to 120 characters. -/
def isCopyPatternKey (s : String) : Bool :=
  match s.toList with
  | first :: rest =>
      first.isLower &&
        rest.all (fun c => isLowerOrDigit c || c = '_' || c = '.' || c = '-') &&
        2 ≤ rest.length && rest.length < 120
  | [] => false

def isCopySlotName : String → Bool := isSnakeName 80

inductive CopyPurpose where
  | whyNow
  | clientFacingExplanation
deriving DecidableEq, Repr

def CopyPurpose.text : CopyPurpose → String
  | whyNow => "why_now"
  | clientFacingExplanation => "client_facing_explanation"

inductive CopyFactType where
  | findingStatement
  | findingScope
  | findingSeverity
  | findingConfidence
  | targetUrl
  | targetQuery
  | targetPageType
  | targetGbpField
  | targetSite
  | definitionOfDone
  | requiredLimitation
deriving DecidableEq, Repr

def CopyFactType.text : CopyFactType → String
  | findingStatement => "finding_statement"
  | findingScope => "finding_scope"
  | findingSeverity => "finding_severity"
  | findingConfidence => "finding_confidence"
  | targetUrl => "target_url"
  | targetQuery => "target_query"
  | targetPageType => "target_page_type"
  | targetGbpField => "target_gbp_field"
  | targetSite => "target_site"
  | definitionOfDone => "definition_of_done"
  | requiredLimitation => "required_limitation"

end Forms

section Limits

structure PublicCopyLimits where
  maxFactsPerAction : Nat := 5000
  maxPatternsPerPurpose : Nat := 20
  maxSlotsPerPattern : Nat := 20
  maxFactRefsPerSlot : Nat := 5000
  maxFactValueChars : Nat := 200000
  maxRenderedChars : Nat := 200000
  maxInputBytes : Nat := 20000000
  maxOutputBytes : Nat := 2000000
  maxResultBytes : Nat := 2000000
  maxErrorDetails : Nat := 20
deriving DecidableEq

/-- No limit lies outside one and its default. -/
def PublicCopyLimits.Valid (limits : PublicCopyLimits) : Prop :=
  let within (low high value : Nat) : Prop := low ≤ value ∧ value ≤ high
  within 1 5000 limits.maxFactsPerAction ∧ within 1 20 limits.maxPatternsPerPurpose ∧
    within 1 20 limits.maxSlotsPerPattern ∧ within 1 5000 limits.maxFactRefsPerSlot ∧
    within 1 200000 limits.maxFactValueChars ∧ within 1 200000 limits.maxRenderedChars ∧
    within 1 20000000 limits.maxInputBytes ∧ within 1 2000000 limits.maxOutputBytes ∧
    within 1 2000000 limits.maxResultBytes ∧ within 1 20 limits.maxErrorDetails

instance (limits : PublicCopyLimits) : Decidable limits.Valid :=
  inferInstanceAs (Decidable (_ ∧ _))

theorem PublicCopyLimits.default_valid : ({} : PublicCopyLimits).Valid := by decide

end Limits

section Requests

structure CopyFact where
  factId : String
  actionId : String
  sourceFindingIds : List String
  sourcePath : String
  factType : CopyFactType
  value : String
  allowedPurposes : List CopyPurpose
deriving DecidableEq

structure CopyPatternSlotSpec where
  slotName : String
  allowedFactTypes : List CopyFactType
  minItems : Nat
  maxItems : Nat
deriving DecidableEq

structure CopyPatternSpec where
  patternKey : String
  purpose : CopyPurpose
  compatibleTemplateKeys : List String
  selectionHint : String
  slots : List CopyPatternSlotSpec
  maxRenderedChars : Nat
deriving DecidableEq

structure CopyActionInput where
  actionId : String
  sequence : Nat
  templateKey : String
  templateVersion : String
  findingIds : List String
  facts : List CopyFact
  whyNowPatterns : List CopyPatternSpec
  explanationPatterns : List CopyPatternSpec
  requiredLimitationIds : List String
deriving DecidableEq

/-- `CopyRequestV1`, less its literal fields. -/
structure CopyRequestV1 where
  findingsChecksum : String
  actionPlanChecksum : String
  actions : List CopyActionInput
deriving DecidableEq

/-- The bounds and `validate_fact`. -/
@[mk_iff] structure CopyFact.Valid (fact : CopyFact) : Prop where
  factId : isCopyFactId fact.factId
  actionId : isActionId fact.actionId
  sourceFindingIds : ∀ id ∈ fact.sourceFindingIds, isFindingId id
  sourceCount : fact.sourceFindingIds.length ≤ 5000
  sourcePath : lengthWithin 1 500 fact.sourcePath
  value : lengthWithin 1 200000 fact.value
  purposes : fact.allowedPurposes ≠ [] ∧ fact.allowedPurposes.length ≤ 2
  sourcesNodup : fact.sourceFindingIds.Nodup
  purposesNodup : fact.allowedPurposes.Nodup
  findingPath : "finding.".toList <+: fact.sourcePath.toList →
    fact.sourceFindingIds.length = 1

@[mk_iff] structure CopyPatternSlotSpec.Valid (slot : CopyPatternSlotSpec) : Prop where
  slotName : isCopySlotName slot.slotName
  types : slot.allowedFactTypes ≠ [] ∧ slot.allowedFactTypes.length ≤ 20
  minItems : 1 ≤ slot.minItems ∧ slot.minItems ≤ 5000
  maxItems : 1 ≤ slot.maxItems ∧ slot.maxItems ≤ 5000
  typesNodup : slot.allowedFactTypes.Nodup
  ordered : slot.minItems ≤ slot.maxItems

instance (slot : CopyPatternSlotSpec) : Decidable slot.Valid :=
  decidable_of_iff' _ (CopyPatternSlotSpec.valid_iff slot)

@[mk_iff] structure CopyPatternSpec.Valid (spec : CopyPatternSpec) : Prop where
  patternKey : isCopyPatternKey spec.patternKey
  templates : spec.compatibleTemplateKeys ≠ [] ∧ spec.compatibleTemplateKeys.length ≤ 20
  hint : lengthWithin 1 300 spec.selectionHint
  slotCount : spec.slots ≠ [] ∧ spec.slots.length ≤ 20
  slots : ∀ slot ∈ spec.slots, slot.Valid
  maxRenderedChars : 1 ≤ spec.maxRenderedChars ∧ spec.maxRenderedChars ≤ 200000
  templatesNodup : spec.compatibleTemplateKeys.Nodup
  slotNamesNodup : (spec.slots.map (·.slotName)).Nodup

instance (spec : CopyPatternSpec) : Decidable spec.Valid :=
  decidable_of_iff' _ (CopyPatternSpec.valid_iff spec)

instance (fact : CopyFact) : Decidable fact.Valid :=
  decidable_of_iff' _ (CopyFact.valid_iff fact)

def CopyActionInput.patterns (action : CopyActionInput) : List CopyPatternSpec :=
  action.whyNowPatterns ++ action.explanationPatterns

/-- The bounds and `validate_action`. -/
@[mk_iff] structure CopyActionInput.Valid (action : CopyActionInput) : Prop where
  actionId : isActionId action.actionId
  sequence : 1 ≤ action.sequence ∧ action.sequence ≤ 3
  templateKey : isSnakeName 80 action.templateKey
  templateVersion : lengthWithin 1 32 action.templateVersion
  findingIds : ∀ id ∈ action.findingIds, isFindingId id
  findingCount : action.findingIds ≠ [] ∧ action.findingIds.length ≤ 5000
  facts : ∀ fact ∈ action.facts, fact.Valid
  factCount : action.facts ≠ [] ∧ action.facts.length ≤ 5000
  patterns : ∀ spec ∈ action.patterns, spec.Valid
  whyNowCount : action.whyNowPatterns ≠ [] ∧ action.whyNowPatterns.length ≤ 20
  explanationCount : action.explanationPatterns ≠ [] ∧ action.explanationPatterns.length ≤ 20
  limitationIds : ∀ id ∈ action.requiredLimitationIds, isCopyFactId id
  limitationCount : action.requiredLimitationIds.length ≤ 20
  findingIdsNodup : action.findingIds.Nodup
  factIdsNodup : (action.facts.map (·.factId)).Nodup
  factActions : ∀ fact ∈ action.facts, fact.actionId = action.actionId
  factFindings : ∀ fact ∈ action.facts, fact.sourceFindingIds ⊆ action.findingIds
  patternKeysNodup : (action.patterns.map (·.patternKey)).Nodup
  whyNowPurpose : ∀ spec ∈ action.whyNowPatterns, spec.purpose = .whyNow
  explanationPurpose : ∀ spec ∈ action.explanationPatterns,
    spec.purpose = .clientFacingExplanation
  templates : ∀ spec ∈ action.patterns, action.templateKey ∈ spec.compatibleTemplateKeys
  limitationIdsNodup : action.requiredLimitationIds.Nodup
  limitationFacts : ∀ id ∈ action.requiredLimitationIds,
    ∃ fact ∈ action.facts, fact.factId = id ∧ fact.factType = .requiredLimitation

instance (action : CopyActionInput) : Decidable action.Valid :=
  decidable_of_iff' _ (CopyActionInput.valid_iff action)

/-- The bounds and `validate_request`. -/
@[mk_iff] structure CopyRequestV1.Valid (request : CopyRequestV1) : Prop where
  findingsChecksum : isDigest request.findingsChecksum
  actionPlanChecksum : isDigest request.actionPlanChecksum
  actions : ∀ action ∈ request.actions, action.Valid
  sequences : request.actions.map (·.sequence) = [1, 2, 3]
  actionIdsNodup : (request.actions.map (·.actionId)).Nodup

instance (request : CopyRequestV1) : Decidable request.Valid :=
  decidable_of_iff' _ (CopyRequestV1.valid_iff request)

def CopyFact.stripped (fact : CopyFact) : CopyFact where
  factId := strip fact.factId
  actionId := strip fact.actionId
  sourceFindingIds := fact.sourceFindingIds.map strip
  sourcePath := strip fact.sourcePath
  factType := fact.factType
  value := strip fact.value
  allowedPurposes := fact.allowedPurposes

def CopyPatternSpec.stripped (spec : CopyPatternSpec) : CopyPatternSpec where
  patternKey := strip spec.patternKey
  purpose := spec.purpose
  compatibleTemplateKeys := spec.compatibleTemplateKeys.map strip
  selectionHint := strip spec.selectionHint
  slots := spec.slots.map fun slot => { slot with slotName := strip slot.slotName }
  maxRenderedChars := spec.maxRenderedChars

def CopyActionInput.stripped (action : CopyActionInput) : CopyActionInput where
  actionId := strip action.actionId
  sequence := action.sequence
  templateKey := strip action.templateKey
  templateVersion := strip action.templateVersion
  findingIds := action.findingIds.map strip
  facts := action.facts.map CopyFact.stripped
  whyNowPatterns := action.whyNowPatterns.map CopyPatternSpec.stripped
  explanationPatterns := action.explanationPatterns.map CopyPatternSpec.stripped
  requiredLimitationIds := action.requiredLimitationIds.map strip

/-- `str_strip_whitespace` on every text of a request. -/
def CopyRequestV1.stripped (request : CopyRequestV1) : CopyRequestV1 where
  findingsChecksum := strip request.findingsChecksum
  actionPlanChecksum := strip request.actionPlanChecksum
  actions := request.actions.map CopyActionInput.stripped

def CopyFact.json (fact : CopyFact) : Json := .object [
  ("fact_id", .string fact.factId), ("action_id", .string fact.actionId),
  ("source_finding_ids", texts fact.sourceFindingIds),
  ("source_path", .string fact.sourcePath), ("fact_type", .string fact.factType.text),
  ("value", .string fact.value),
  ("allowed_purposes", texts (fact.allowedPurposes.map CopyPurpose.text))]

def CopyPatternSlotSpec.json (slot : CopyPatternSlotSpec) : Json := .object [
  ("slot_name", .string slot.slotName),
  ("allowed_fact_types", texts (slot.allowedFactTypes.map CopyFactType.text)),
  ("min_items", number slot.minItems), ("max_items", number slot.maxItems)]

def CopyPatternSpec.json (spec : CopyPatternSpec) : Json := .object [
  ("pattern_key", .string spec.patternKey), ("purpose", .string spec.purpose.text),
  ("compatible_template_keys", texts spec.compatibleTemplateKeys),
  ("selection_hint", .string spec.selectionHint),
  ("slots", .array (spec.slots.map CopyPatternSlotSpec.json)),
  ("max_rendered_chars", number spec.maxRenderedChars)]

def CopyActionInput.json (action : CopyActionInput) : Json := .object [
  ("action_id", .string action.actionId), ("sequence", number action.sequence),
  ("template_key", .string action.templateKey),
  ("template_version", .string action.templateVersion),
  ("finding_ids", texts action.findingIds),
  ("facts", .array (action.facts.map CopyFact.json)),
  ("why_now_patterns", .array (action.whyNowPatterns.map CopyPatternSpec.json)),
  ("explanation_patterns", .array (action.explanationPatterns.map CopyPatternSpec.json)),
  ("required_limitation_ids", texts action.requiredLimitationIds)]

def copyContractVersion : String := "v22_controlled_copy_v1"

def copyCatalogVersion : String := "v22_english_action_copy_v1"

def CopyRequestV1.json (request : CopyRequestV1) : Json := .object [
  ("schema_version", .string "v22_copy_request_v1"),
  ("copy_contract_version", .string copyContractVersion),
  ("copy_catalog_version", .string copyCatalogVersion), ("language", .string "en"),
  ("findings_checksum", .string request.findingsChecksum),
  ("action_plan_checksum", .string request.actionPlanChecksum),
  ("actions", .array (request.actions.map CopyActionInput.json))]

end Requests

section Responses

structure PatternSelection where
  patternKey : String
  slotBindings : List (String × List String)
deriving DecidableEq

structure CopyActionSelection where
  actionId : String
  sequence : Nat
  whyNow : PatternSelection
  clientFacingExplanation : PatternSelection
deriving DecidableEq

/-- `CopyResponseV1`, less its literal fields. -/
structure CopyResponseV1 where
  actionPlanChecksum : String
  actions : List CopyActionSelection
deriving DecidableEq

/-- `validate_bindings`. -/
def PatternSelection.valid (selection : PatternSelection) : Bool :=
  selection.slotBindings.all fun e => e.2 ≠ [] && decide e.2.Nodup

/-- `validate_response`. -/
def CopyResponseV1.valid (response : CopyResponseV1) : Bool :=
  decide (response.actions.map (·.sequence) = [1, 2, 3]) &&
    decide (response.actions.map (·.actionId)).Nodup

open Validated Reader

def PatternSelection.read : Reader PatternSelection
  | .object fields =>
      let key := required fields "pattern_key" (text isCopyPatternKey)
      let bindings := required fields "slot_bindings"
        (dict isCopySlotName (list (text isCopyFactId) 0 none) 1 20)
      check valid ((closed fields ["pattern_key", "slot_bindings"] (key.both bindings)).map
        fun (key, bindings) => ⟨key, bindings⟩)
  | _ => fail

def CopyActionSelection.read : Reader CopyActionSelection
  | .object fields =>
      let id := required fields "action_id" (text isActionId)
      let sequence := required fields "sequence" (natural 1 3)
      let whyNow := required fields "why_now" PatternSelection.read
      let explanation := required fields "client_facing_explanation" PatternSelection.read
      (closed fields ["action_id", "sequence", "why_now", "client_facing_explanation"]
        (id.both (sequence.both (whyNow.both explanation)))).map
          fun (id, sequence, whyNow, explanation) => ⟨id, sequence, whyNow, explanation⟩
  | _ => fail

/-- `CopyResponseV1.model_validate`. -/
def CopyResponseV1.read : Reader CopyResponseV1
  | .object fields =>
      let literals :=
        (optional fields "schema_version" (literal "v22_copy_response_v1") ()).both
          ((optional fields "copy_contract_version" (literal copyContractVersion) ()).both
            ((optional fields "copy_catalog_version" (literal copyCatalogVersion) ()).both
              (optional fields "language" (literal "en") ())))
      let checksum := required fields "action_plan_checksum" (text isDigest)
      let actions := required fields "actions" (list CopyActionSelection.read 3 (some 3))
      check valid ((closed fields ["schema_version", "copy_contract_version",
        "copy_catalog_version", "language", "action_plan_checksum", "actions"]
          (literals.both (checksum.both actions))).map
            fun (_, checksum, actions) => ⟨checksum, actions⟩)
  | _ => fail

end Responses

section Results

structure RenderedActionCopy where
  actionId : String
  sequence : Nat
  whyNow : String
  clientFacingExplanation : String
  whyNowPatternKey : String
  whyNowFactIds : List String
  explanationPatternKey : String
  explanationFactIds : List String
deriving DecidableEq

/-- `PublicActionCopyResult`, less its literal fields. -/
structure PublicActionCopyResult where
  findingsChecksum : String
  actionPlanChecksum : String
  actions : List RenderedActionCopy
  attemptCount : Nat := 1
deriving DecidableEq

@[mk_iff] structure RenderedActionCopy.Valid (rendered : RenderedActionCopy) : Prop where
  actionId : isActionId rendered.actionId
  sequence : 1 ≤ rendered.sequence ∧ rendered.sequence ≤ 3
  whyNow : lengthWithin 1 200000 rendered.whyNow
  explanation : lengthWithin 1 200000 rendered.clientFacingExplanation
  whyNowPatternKey : isCopyPatternKey rendered.whyNowPatternKey
  whyNowFacts : rendered.whyNowFactIds ≠ [] ∧ rendered.whyNowFactIds.length ≤ 5000
  whyNowFactIds : ∀ id ∈ rendered.whyNowFactIds, isCopyFactId id
  explanationPatternKey : isCopyPatternKey rendered.explanationPatternKey
  explanationFacts : rendered.explanationFactIds ≠ [] ∧
    rendered.explanationFactIds.length ≤ 5000
  explanationFactIds : ∀ id ∈ rendered.explanationFactIds, isCopyFactId id

instance (rendered : RenderedActionCopy) : Decidable rendered.Valid :=
  decidable_of_iff' _ (RenderedActionCopy.valid_iff rendered)

@[mk_iff] structure PublicActionCopyResult.Valid (result : PublicActionCopyResult) : Prop where
  findingsChecksum : isDigest result.findingsChecksum
  actionPlanChecksum : isDigest result.actionPlanChecksum
  attemptCount : 1 ≤ result.attemptCount ∧ result.attemptCount ≤ 3
  sequences : result.actions.map (·.sequence) = [1, 2, 3]
  actionIdsNodup : (result.actions.map (·.actionId)).Nodup

instance (result : PublicActionCopyResult) : Decidable result.Valid :=
  decidable_of_iff' _ (PublicActionCopyResult.valid_iff result)

def RenderedActionCopy.stripped (rendered : RenderedActionCopy) : RenderedActionCopy where
  actionId := strip rendered.actionId
  sequence := rendered.sequence
  whyNow := strip rendered.whyNow
  clientFacingExplanation := strip rendered.clientFacingExplanation
  whyNowPatternKey := strip rendered.whyNowPatternKey
  whyNowFactIds := rendered.whyNowFactIds.map strip
  explanationPatternKey := strip rendered.explanationPatternKey
  explanationFactIds := rendered.explanationFactIds.map strip

def RenderedActionCopy.json (rendered : RenderedActionCopy) : Json := .object [
  ("action_id", .string rendered.actionId), ("sequence", number rendered.sequence),
  ("why_now", .string rendered.whyNow),
  ("client_facing_explanation", .string rendered.clientFacingExplanation),
  ("why_now_pattern_key", .string rendered.whyNowPatternKey),
  ("why_now_fact_ids", texts rendered.whyNowFactIds),
  ("explanation_pattern_key", .string rendered.explanationPatternKey),
  ("explanation_fact_ids", texts rendered.explanationFactIds)]

def PublicActionCopyResult.json (result : PublicActionCopyResult) : Json := .object [
  ("schema_version", .string "public_action_copy_result_v1"),
  ("copy_contract_version", .string copyContractVersion),
  ("copy_catalog_version", .string copyCatalogVersion),
  ("findings_checksum", .string result.findingsChecksum),
  ("action_plan_checksum", .string result.actionPlanChecksum),
  ("actions", .array (result.actions.map RenderedActionCopy.json)),
  ("attempt_count", number result.attemptCount)]

end Results

end SearchTrust.Report
