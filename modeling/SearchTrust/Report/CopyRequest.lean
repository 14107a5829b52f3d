/-
Deciding whether two JSON values have the same canonical bytes, and what that says
about their parts.
-/
import SearchTrust.Jobs.Digest
import SearchTrust.Report.Actions
import SearchTrust.Report.CopyContract
import Mathlib.Data.List.Forall2

namespace SearchTrust.Report

open SearchTrust.Jobs (Json)

section Decisions

mutual

def decEqJson : (a b : Json) → Decidable (a = b)
  | .null, .null => isTrue rfl
  | .bool a, .bool b => decidable_of_iff (a = b) (by rw [Json.bool.injEq])
  | .number a, .number b => decidable_of_iff (a = b) (by rw [Json.number.injEq])
  | .string a, .string b => decidable_of_iff (a = b) (by rw [Json.string.injEq])
  | .array a, .array b => @decidable_of_iff _ _ (by rw [Json.array.injEq]) (decEqItems a b)
  | .object a, .object b =>
      @decidable_of_iff _ _ (by rw [Json.object.injEq]) (decEqFields a b)
  | .null, .bool _ | .null, .number _ | .null, .string _ | .null, .array _
  | .null, .object _ | .bool _, .null | .bool _, .number _ | .bool _, .string _
  | .bool _, .array _ | .bool _, .object _ | .number _, .null | .number _, .bool _
  | .number _, .string _ | .number _, .array _ | .number _, .object _ | .string _, .null
  | .string _, .bool _ | .string _, .number _ | .string _, .array _ | .string _, .object _
  | .array _, .null | .array _, .bool _ | .array _, .number _ | .array _, .string _
  | .array _, .object _ | .object _, .null | .object _, .bool _ | .object _, .number _
  | .object _, .string _ | .object _, .array _ => isFalse (by simp)

def decEqItems : (a b : List Json) → Decidable (a = b)
  | [], [] => isTrue rfl
  | a :: as, b :: bs =>
      match decEqJson a b, decEqItems as bs with
      | isTrue h, isTrue hrest => isTrue (by rw [h, hrest])
      | isFalse h, _ => isFalse (by simp [h])
      | _, isFalse h => isFalse (by simp [h])
  | [], _ :: _ | _ :: _, [] => isFalse (by simp)

def decEqFields : (a b : List (String × Json)) → Decidable (a = b)
  | [], [] => isTrue rfl
  | (key, a) :: as, (other, b) :: bs =>
      match decEq key other, decEqJson a b, decEqFields as bs with
      | isTrue hkey, isTrue h, isTrue hrest => isTrue (by rw [hkey, h, hrest])
      | isFalse h, _, _ => isFalse (by simp [h])
      | _, isFalse h, _ => isFalse (by simp [h])
      | _, _, isFalse h => isFalse (by simp [h])
  | [], _ :: _ | _ :: _, [] => isFalse (by simp)

end

instance : DecidableEq Json := decEqJson

instance (a b : Json) : Decidable (a.Same b) := inferInstanceAs (Decidable (_ = _))

end Decisions

end SearchTrust.Report

/-
Building the request for controlled copy: the facts of every action are taken from
the findings and from the action plan, which has to be the plan of the findings.
-/
namespace SearchTrust.Report

open SearchTrust.Jobs (Json)
open SearchTrust.Order

section Checks

/-- The bounds of a findings result that a builder checks again. -/
def PublicFindingsResult.Valid (result : PublicFindingsResult) : Prop :=
  ∀ finding ∈ result.findings, finding.Valid

instance Finding.decidableValid (finding : Finding) : Decidable finding.Valid :=
  decidable_of_iff (isFindingId finding.findingId ∧ finding.statement ≠ "" ∧
      finding.evidenceIds ≠ [] ∧ lengthWithin 1 120 finding.ruleId ∧
      lengthWithin 1 64 finding.ruleVersion ∧ lengthWithin 1 240 finding.scope)
    ⟨fun ⟨h1, h2, h3, h4, h5, h6⟩ => ⟨h1, h2, h3, h4, h5, h6⟩,
      fun ⟨h1, h2, h3, h4, h5, h6⟩ => ⟨h1, h2, h3, h4, h5, h6⟩⟩

instance PublicFindingsResult.decidableValid (result : PublicFindingsResult) : Decidable result.Valid :=
  inferInstanceAs (Decidable (∀ finding ∈ result.findings, _))

/-- `canonical_public_action_plan`. -/
def canonicalPublicActionPlan (plan : PublicActionPlan) : PublicActionPlan :=
  { plan with
    selectionAudit := sortedBy (·.candidateKey) plan.selectionAudit
    unselectedFindingIds := sortedBy id plan.unselectedFindingIds }

/-- `_validate_action_contract`. -/
def validateActionContract (action : ActionSkeleton) (findings : List Finding) :
    Except CopyFailure ActionTemplate :=
  match actionTemplate action.templateKey with
  | none => .error (.input .catalogInvalid)
  | some template =>
      if action.templateVersion ≠ template.version then .error (.input .catalogInvalid)
      else if ¬ action.findingIds ⊆ findings.map (·.findingId) ∨
          action.copyRequirements.findingIds ≠ action.findingIds then
        .error (.input .inputInvalid)
      else if action.copyRequirements.allowedFactFields ≠ template.copyAllowedFactFields ∨
          action.copyRequirements.requiredLimitations ≠ template.copyRequiredLimitations then
        .error (.input .catalogInvalid)
      else .ok template

end Checks

section Facts

/-- What a fact is made of. -/
structure FactDraft where
  sourceFindingIds : List String
  sourcePath : String
  factType : CopyFactType
  value : String

/-- A field of `_FINDING_FIELDS`. -/
structure FindingField where
  field : AllowedFactField
  attributeName : String
  factType : CopyFactType
  value : Finding → String

/-- `_FINDING_FIELDS`. -/
def findingFields : List FindingField := [
  ⟨.findingStatement, "statement", .findingStatement, (·.statement)⟩,
  ⟨.findingScope, "scope", .findingScope, (·.scope)⟩,
  ⟨.findingSeverity, "severity", .findingSeverity, (·.severity.text)⟩,
  ⟨.findingConfidence, "confidence", .findingConfidence, (·.confidence.text)⟩]

/-- A field of `_TARGET_FIELDS`. -/
structure TargetField where
  field : AllowedFactField
  kind : ActionTargetKind
  attributeName : String
  factType : CopyFactType

/-- `_TARGET_FIELDS`. -/
def targetFields : List TargetField := [
  ⟨.targetUrl, .url, "url", .targetUrl⟩,
  ⟨.targetQuery, .query, "query", .targetQuery⟩,
  ⟨.targetPageType, .pageType, "page_type", .targetPageType⟩,
  ⟨.targetGbpField, .gbpField, "gbp_field", .targetGbpField⟩,
  ⟨.targetSite, .site, "url", .targetSite⟩]

/-- `_WHY_FACT_TYPES`. -/
def whyFactTypes : List CopyFactType :=
  [.findingStatement, .findingScope, .findingSeverity, .findingConfidence]

def findingDrafts (allowed : List AllowedFactField) (finding : Finding) : List FactDraft :=
  (findingFields.filter (·.field ∈ allowed)).map fun entry => {
    sourceFindingIds := [finding.findingId]
    sourcePath := "finding." ++ finding.findingId ++ "." ++ entry.attributeName
    factType := entry.factType
    value := entry.value finding }

/-- The digits of a target in the paths of its facts. -/
def targetDigits (hash : Hash) (target : ActionTarget) : String :=
  .ofList ((hexdigest (hash (.object [
    ("kind", .string target.kind.text), ("value", .string target.value),
    ("finding_ids", texts target.findingIds)]))).take 16)

def targetDrafts (hash : Hash) (allowed : List AllowedFactField) (target : ActionTarget) :
    List FactDraft :=
  (targetFields.filter fun entry => entry.field ∈ allowed ∧ entry.kind = target.kind).map
    fun entry => {
      sourceFindingIds := target.findingIds
      sourcePath := "target." ++ target.kind.text ++ "." ++ targetDigits hash target ++ "." ++
        entry.attributeName
      factType := entry.factType
      value := target.value }

/-- The facts of a list of texts, with their positions as paths. -/
def listDrafts (findingIds : List String) (head : String) (factType : CopyFactType)
    (values : List String) : List FactDraft :=
  values.zipIdx.map fun (value, position) =>
    { sourceFindingIds := findingIds, sourcePath := head ++ toString position, factType, value }

/-- The facts of an action, in the order in which they are made. -/
def factDrafts (hash : Hash) (action : ActionSkeleton) (findings : List Finding) :
    List FactDraft :=
  let allowed := action.copyRequirements.allowedFactFields
  let named := (sortedBy id action.findingIds).filterMap fun id =>
    findings.find? (·.findingId = id)
  named.flatMap (findingDrafts allowed) ++
    (sortedBy (canonicalText ·.json) action.exactTargets).flatMap (targetDrafts hash allowed) ++
    (if AllowedFactField.actionDefinitionOfDone ∈ allowed then
      listDrafts action.findingIds "action.definition_of_done." .definitionOfDone
        action.definitionOfDone
    else []) ++
    listDrafts action.findingIds "action.required_limitation." .requiredLimitation
      action.copyRequirements.requiredLimitations

/-- The fact that `_copy_fact` makes of a draft. -/
def factOf (hash : Hash) (actionId : String) (draft : FactDraft) : CopyFact :=
  let findingIds := sortedSet draft.sourceFindingIds
  let text := pyStrip draft.value
  CopyFact.stripped {
    factId := copyFactId hash actionId findingIds draft.sourcePath draft.factType text
    actionId := actionId
    sourceFindingIds := findingIds
    sourcePath := draft.sourcePath
    factType := draft.factType
    value := text
    allowedPurposes :=
      [if draft.factType ∈ whyFactTypes then .whyNow else .clientFacingExplanation] }

/-- `_copy_fact`. -/
def copyFact (hash : Hash) (limits : PublicCopyLimits) (actionId : String)
    (draft : FactDraft) : Except CopyFailure CopyFact :=
  if pyStrip draft.value = "" ∨ limits.maxFactValueChars < (pyStrip draft.value).length then
    .error (.input .limitExceeded)
  else if ¬ (factOf hash actionId draft).Valid then .error (.input .inputInvalid)
  else .ok (factOf hash actionId draft)

def factKey (fact : CopyFact) : String ×ₗ String := toLex (fact.sourcePath, fact.factId)

/-- `_facts_for_action`. -/
def factsForAction (hash : Hash) (limits : PublicCopyLimits) (action : ActionSkeleton)
    (findings : List Finding) : Except CopyFailure (List CopyFact) := do
  let facts ← (factDrafts hash action findings).mapM (copyFact hash limits action.actionId)
  if facts = [] ∨ limits.maxFactsPerAction < facts.length then
    .error (.input .limitExceeded)
  else .ok (sortedBy factKey facts)

end Facts

section Requests

/-- `_pattern_specs`. -/
def patternSpecs (action : ActionSkeleton) (facts : List CopyFact) (purpose : CopyPurpose)
    (limits : PublicCopyLimits) : Except CopyFailure (List CopyPatternSpec) :=
  let specs := expectedPatterns action.templateKey facts purpose
  if specs = [] ∨ limits.maxPatternsPerPurpose < specs.length then
    .error (.input .catalogInvalid)
  else if ∃ spec ∈ specs, limits.maxSlotsPerPattern < spec.slots.length then
    .error (.input .limitExceeded)
  else .ok specs

/-- The input for an action. -/
def copyActionInput (hash : Hash) (limits : PublicCopyLimits) (findings : List Finding)
    (action : ActionSkeleton) : Except CopyFailure CopyActionInput := do
  let _template ← validateActionContract action findings
  let facts ← factsForAction hash limits action findings
  let whyNowPatterns ← patternSpecs action facts .whyNow limits
  let explanationPatterns ← patternSpecs action facts .clientFacingExplanation limits
  let input := CopyActionInput.stripped {
    actionId := action.actionId
    sequence := action.sequence
    templateKey := action.templateKey
    templateVersion := action.templateVersion
    findingIds := action.findingIds
    facts
    whyNowPatterns
    explanationPatterns
    requiredLimitationIds :=
      (facts.filter (·.factType = .requiredLimitation)).map (·.factId) }
  if ¬ input.Valid then .error (.input .inputInvalid) else .ok input

/-- The limits that `PublicActionPlanInput` has when none are given. -/
def defaultActionLimits : PublicActionLimits := {}

/-- `build_copy_request` of findings and a plan that are parsed. -/
def buildCopyRequest (env : Environment) (findings : PublicFindingsResult)
    (actionPlan : PublicActionPlan) (limits : PublicCopyLimits) :
    Except CopyFailure CopyRequestV1 := do
  let checkedLimits ← validatedLimits limits
  if ¬ findings.Valid ∨ ¬ actionPlan.Valid then .error (.input .inputInvalid)
  else
    let checkedFindings := canonicalPublicFindings findings
    let checkedPlan := canonicalPublicActionPlan actionPlan
    if checkedPlan.findingsChecksum ≠ requestDigest env.hash checkedFindings.json then
      .error (.input .checksumMismatch)
    else
      match buildPublicActionPlan env checkedFindings checkedPlan.planningDate
          defaultActionLimits with
      | .error _ => .error (.input .inputInvalid)
      | .ok rebuilt =>
          if ¬ (canonicalPublicActionPlan rebuilt).json.Same checkedPlan.json then
            .error (.input .checksumMismatch)
          else if checkedLimits.maxInputBytes < jsonSize (.object [
              ("findings", checkedFindings.json), ("action_plan", checkedPlan.json)]) then
            .error (.input .limitExceeded)
          else do
            let actions ← checkedPlan.actions.mapM
              (copyActionInput env.hash checkedLimits checkedFindings.findings)
            let request := CopyRequestV1.stripped {
              findingsChecksum := checkedPlan.findingsChecksum
              actionPlanChecksum := requestDigest env.hash checkedPlan.json
              actions }
            if ¬ request.Valid then .error .validationError
            else if checkedLimits.maxInputBytes < jsonSize request.json then
              .error (.input .limitExceeded)
            else .ok request

end Requests

end SearchTrust.Report
