/-
The controlled copy contract: a bound request is checked again, the output of
the provider is parsed as untrusted JSON, and the copy is rendered from the
facts of the request only.
-/
import SearchTrust.Report.CopyCatalog
import SearchTrust.Report.JsonText
import SearchTrust.Web.UrlText

namespace SearchTrust.Report

open SearchTrust.Jobs (Json)

section Failures

inductive CopyInputErrorKind where
  | inputInvalid
  | checksumMismatch
  | catalogInvalid
  | limitExceeded
  | attemptsInvalid
deriving DecidableEq, Repr

inductive CopyOutputErrorKind where
  | outputMissing
  | outputInvalid
  | checksumMismatch
  | referenceInvalid
  | languageInvalid
  | limitExceeded
deriving DecidableEq, Repr

/-- What the copy contract raises: `PublicCopyInputError`, `PublicCopyOutputError`
with its details, a `ValidationError` of a model that is built outside of any
guard, and the `RecursionError` of the interpreter. -/
inductive CopyFailure where
  | input (kind : CopyInputErrorKind)
  | output (kind : CopyOutputErrorKind) (details : List String)
  | validationError
  | recursionError
deriving DecidableEq, Repr

/-- `PublicCopyOutputError`. -/
def publicCopyOutputError (kind : CopyOutputErrorKind) (details : List String) :
    CopyFailure := .output kind (details.take 20)

end Failures

section Environment

/-- The parts of the runtime that the contract rests on: the hash, how many
containers inside each other `reject_nonfinite` and the JSON scanner can follow,
and which values the canonical encoder takes. -/
structure Interpreter where
  hash : Hash
  walkRoom : Nat
  scanRoom : Nat
  encodes : Json → Bool

/-- The output of the provider: a JSON value, where `None` is null, or an object
that `reject_nonfinite` or the encoder refuses. -/
inductive ProviderOutput where
  | value (value : Json)
  | unencodable

/-- `str.strip()`. -/
def pyStrip (s : String) : String := .ofList (Web.strip s.toList)

def copyOutputKey : String := "action_copy_v2_2"

end Environment

section Requests

/-- The JSON that `_fact_id` hashes. -/
def factIdentity (actionId : String) (sourceFindingIds : List String)
    (sourcePath : String) (factType : CopyFactType) (value : String) : Json :=
  .object [
    ("copy_contract_version", .string copyContractVersion),
    ("action_id", .string actionId), ("source_finding_ids", texts sourceFindingIds),
    ("source_path", .string sourcePath), ("fact_type", .string factType.text),
    ("value", .string value)]

/-- `_fact_id`. -/
def copyFactId (hash : Hash) (actionId : String) (sourceFindingIds : List String)
    (sourcePath : String) (factType : CopyFactType) (value : String) : String :=
  .ofList ("cf_".toList ++ (hexdigest (hash
    (factIdentity actionId sourceFindingIds sourcePath factType value))).take 24)

/-- `_validated_limits`. -/
def validatedLimits (limits : PublicCopyLimits) : Except CopyFailure PublicCopyLimits :=
  if limits.Valid then .ok limits else .error (.input .inputInvalid)

/-- `_pattern_is_satisfiable`. -/
def patternIsSatisfiable (definition : CopyPatternDefinition) (facts : List CopyFact) :
    Bool :=
  definition.spec.slots.all fun slot =>
    slot.minItems ≤ facts.countP fun fact => fact.factType ∈ slot.allowedFactTypes

/-- The patterns that a request has to offer. -/
def expectedPatterns (templateKey : String) (facts : List CopyFact)
    (purpose : CopyPurpose) : List CopyPatternSpec :=
  ((patternDefinitionsFor templateKey purpose).filter
    (patternIsSatisfiable · facts)).map (·.spec)

def factFault (py : Interpreter) (limits : PublicCopyLimits) (fact : CopyFact) :
    Option CopyInputErrorKind :=
  if fact.factId ≠ copyFactId py.hash fact.actionId fact.sourceFindingIds
      fact.sourcePath fact.factType fact.value then some .checksumMismatch
  else if limits.maxFactValueChars < fact.value.length then some .limitExceeded
  else none

def actionFault (py : Interpreter) (limits : PublicCopyLimits) (action : CopyActionInput) :
    Option CopyInputErrorKind :=
  if limits.maxFactsPerAction < action.facts.length ∨
      limits.maxPatternsPerPurpose < action.whyNowPatterns.length ∨
      limits.maxPatternsPerPurpose < action.explanationPatterns.length ∨
      ∃ spec ∈ action.patterns, limits.maxSlotsPerPattern < spec.slots.length then
    some .limitExceeded
  else
    match actionTemplate action.templateKey with
    | none => some .catalogInvalid
    | some template =>
        if template.version ≠ action.templateVersion then some .catalogInvalid
        else
          match action.facts.findSome? (factFault py limits) with
          | some kind => some kind
          | none =>
              if action.whyNowPatterns ≠
                  expectedPatterns action.templateKey action.facts .whyNow ∨
                action.explanationPatterns ≠
                  expectedPatterns action.templateKey action.facts
                    .clientFacingExplanation then some .catalogInvalid
              else none

/-- `_validated_request`. -/
def validatedRequest (py : Interpreter) (value : CopyRequestV1) (limits : PublicCopyLimits) :
    Except CopyFailure CopyRequestV1 :=
  let request := value.stripped
  if ¬ request.Valid then .error (.input .inputInvalid)
  else if limits.maxInputBytes < jsonSize request.json then .error (.input .limitExceeded)
  else
    match request.actions.findSome? (actionFault py limits) with
    | some kind => .error (.input kind)
    | none => .ok request

end Requests

section Outputs

/-- `_SAFE_ERROR_PATH_PARTS`. -/
def safeErrorPathParts : List String :=
  [copyOutputKey, "schema_version", "copy_contract_version", "copy_catalog_version",
    "language", "action_plan_checksum", "actions", "action_id", "sequence", "why_now",
    "client_facing_explanation", "pattern_key", "slot_bindings", "finding", "targets",
    "completion", "limitations"]

def safePart : LocPart → String
  | .index position => toString position
  | .key name => if name ∈ safeErrorPathParts then name else "<unexpected>"

/-- `_safe_validation_paths`. -/
def safeValidationPaths (locs : List (List LocPart)) (maximum : Nat) : List String :=
  (locs.take maximum).map fun loc => ".".intercalate (loc.map safePart)

/-- The value of the only key that an output may have. -/
def envelope : Json → Option Json
  | .object fields =>
      if fields ≠ [] ∧ ∀ e ∈ fields, e.1 = copyOutputKey then fields.lookup copyOutputKey
      else none
  | _ => none

/-- A value that is a JSON text itself is decoded. -/
def decodedValue (py : Interpreter) (limits : PublicCopyLimits) :
    Json → Except CopyFailure Json
  | .null => .error (publicCopyOutputError .outputMissing [])
  | .string text =>
      if limits.maxOutputBytes < utf8Size text then
        .error (publicCopyOutputError .limitExceeded [])
      else if "```".toList <+: text.toList.dropWhile Web.isSpace then
        .error (publicCopyOutputError .outputInvalid [copyOutputKey])
      else
        match loads py.scanRoom text with
        | .ok value => .ok value
        | .error .decodeError => .error (publicCopyOutputError .outputInvalid [copyOutputKey])
        | .error .recursionError => .error .recursionError
  | value => .ok value

/-- `CopyResponseV1.model_validate` with its errors as safe paths. -/
def readResponse (limits : PublicCopyLimits) (value : Json) :
    Except CopyFailure CopyResponseV1 :=
  match value with
  | .object _ =>
      match CopyResponseV1.read value with
      | .ok response => .ok response
      | .error locs =>
          let paths := safeValidationPaths locs limits.maxErrorDetails
          if "language" ∈ paths then .error (publicCopyOutputError .languageInvalid paths)
          else .error (publicCopyOutputError .outputInvalid paths)
  | _ => .error (publicCopyOutputError .outputInvalid [copyOutputKey])

/-- `_parse_response`. -/
def parseResponse (py : Interpreter) (outputs : ProviderOutput) (limits : PublicCopyLimits) :
    Except CopyFailure CopyResponseV1 :=
  match outputs with
  | .unencodable => .error (publicCopyOutputError .outputInvalid [])
  | .value .null => .error (publicCopyOutputError .outputMissing [])
  | .value outputs =>
      if py.walkRoom < jsonDepth outputs then .error .recursionError
      else if ¬ py.encodes outputs then .error (publicCopyOutputError .outputInvalid [])
      else if limits.maxOutputBytes < jsonSize outputs then
        .error (publicCopyOutputError .limitExceeded [])
      else
        match envelope outputs with
        | none => .error (publicCopyOutputError .outputInvalid ["outputs"])
        | some value => do
            let value ← decodedValue py limits value
            readResponse limits value

end Outputs

section Rendering

/-- `_selected_pattern`. -/
def selectedPattern (action : CopyActionInput) (selection : PatternSelection)
    (purpose : CopyPurpose) : Except CopyFailure CopyPatternDefinition :=
  let available :=
    if purpose = .whyNow then action.whyNowPatterns else action.explanationPatterns
  match available.find? (fun spec => spec.patternKey = selection.patternKey),
      patternDefinition selection.patternKey with
  | some spec, some definition =>
      if definition.spec ≠ spec then
        .error (publicCopyOutputError .referenceInvalid [purpose.text, "pattern_key"])
      else if definition.spec.purpose ≠ purpose then
        .error (publicCopyOutputError .referenceInvalid [purpose.text, "purpose"])
      else .ok definition
  | _, _ => .error (publicCopyOutputError .referenceInvalid [purpose.text, "pattern_key"])

/-- The fact IDs that a selection binds to a slot. -/
def PatternSelection.binding (selection : PatternSelection) (slot : CopyPatternSlotSpec) :
    List String :=
  (selection.slotBindings.lookup slot.slotName).getD []

/-- A fact of the action that is allowed for the purpose and the slot. -/
def chooseFact (action : CopyActionInput) (purpose : CopyPurpose)
    (slot : CopyPatternSlotSpec) (factId : String) : Except CopyFailure CopyFact :=
  match action.facts.find? (fun fact => fact.factId = factId) with
  | some fact =>
      if purpose ∈ fact.allowedPurposes ∧ fact.factType ∈ slot.allowedFactTypes then .ok fact
      else .error (publicCopyOutputError .referenceInvalid [purpose.text, slot.slotName])
  | none => .error (publicCopyOutputError .referenceInvalid [purpose.text, slot.slotName])

def bindSlot (action : CopyActionInput) (selection : PatternSelection)
    (purpose : CopyPurpose) (limits : PublicCopyLimits) (slot : CopyPatternSlotSpec) :
    Except CopyFailure (List CopyFact) :=
  let factIds := selection.binding slot
  if factIds.length < slot.minItems ∨ slot.maxItems < factIds.length ∨
      limits.maxFactRefsPerSlot < factIds.length then
    .error (publicCopyOutputError .referenceInvalid [purpose.text, slot.slotName])
  else factIds.mapM (chooseFact action purpose slot)

/-- The values of a slot between semicolons. -/
def joinedValues (facts : List CopyFact) : String :=
  "; ".intercalate (facts.map (·.value))

/-- The text of every slot under its name. -/
def slotTexts (slots : List CopyPatternSlotSpec) (chosen : List (List CopyFact)) :
    List (String × String) :=
  (slots.map (·.slotName)).zip (chosen.map joinedValues)

/-- `_render_selection`. -/
def renderSelection (action : CopyActionInput) (selection : PatternSelection)
    (purpose : CopyPurpose) (limits : PublicCopyLimits) :
    Except CopyFailure (String × List String) := do
  let definition ← selectedPattern action selection purpose
  let slots := definition.spec.slots
  if ¬ (selection.slotBindings.map Prod.fst ⊆ slots.map (·.slotName) ∧
      slots.map (·.slotName) ⊆ selection.slotBindings.map Prod.fst) then
    .error (publicCopyOutputError .referenceInvalid [purpose.text, "slot_bindings"])
  else
    let chosen ← slots.mapM (bindSlot action selection purpose limits)
    let usedIds := slots.flatMap selection.binding
    if ¬ usedIds.Nodup then
      .error (publicCopyOutputError .referenceInvalid [purpose.text, "duplicate_fact"])
    else
      match format definition.template fun name => (slotTexts slots chosen).lookup name with
      | none => .error (.input .catalogInvalid)
      | some filled =>
          let rendered := pyStrip filled
          if rendered = "" ∨
              min definition.spec.maxRenderedChars limits.maxRenderedChars <
                rendered.length then
            .error (publicCopyOutputError .limitExceeded [purpose.text])
          else .ok (rendered, usedIds)

/-- The facts that every explanation has to state. -/
def requiredFactIds (action : CopyActionInput) : List String :=
  (action.facts.filter fun fact =>
    fact.factType ∈ targetFactTypes ∨ fact.factType = .definitionOfDone).map (·.factId) ++
      action.requiredLimitationIds

/-- `_validate_mandatory_explanation_facts`. -/
def validateMandatoryExplanationFacts (action : CopyActionInput)
    (explanationIds : List String) : Except CopyFailure Unit :=
  let required := requiredFactIds action
  if required = [] ∨ ¬ (explanationIds ⊆ required ∧ required ⊆ explanationIds) then
    .error (publicCopyOutputError .referenceInvalid
      ["client_facing_explanation", "required_facts"])
  else if ∃ fact ∈ action.facts, fact.factId ∈ explanationIds ∧
      fact.actionId ≠ action.actionId then
    .error (publicCopyOutputError .referenceInvalid ["action_id"])
  else .ok ()

/-- `_render_action`. -/
def renderAction (limits : PublicCopyLimits) (requestAction : CopyActionInput)
    (responseAction : CopyActionSelection) : Except CopyFailure RenderedActionCopy := do
  let (whyNow, whyIds) ← renderSelection requestAction responseAction.whyNow .whyNow limits
  let (explanation, explanationIds) ←
    renderSelection requestAction responseAction.clientFacingExplanation
      .clientFacingExplanation limits
  validateMandatoryExplanationFacts requestAction explanationIds
  let rendered : RenderedActionCopy := {
    actionId := requestAction.actionId
    sequence := requestAction.sequence
    whyNow := whyNow
    clientFacingExplanation := explanation
    whyNowPatternKey := responseAction.whyNow.patternKey
    whyNowFactIds := whyIds
    explanationPatternKey := responseAction.clientFacingExplanation.patternKey
    explanationFactIds := explanationIds }
  if rendered.stripped.Valid then .ok rendered.stripped else .error .validationError

/-- The rendering of a response that is bound to the request. -/
def renderResponse (request : CopyRequestV1) (response : CopyResponseV1)
    (limits : PublicCopyLimits) : Except CopyFailure PublicActionCopyResult :=
  if response.actionPlanChecksum ≠ request.actionPlanChecksum then
    .error (publicCopyOutputError .checksumMismatch ["action_plan_checksum"])
  else if response.actions.map (fun action => (action.actionId, action.sequence)) ≠
      request.actions.map (fun action => (action.actionId, action.sequence)) then
    .error (publicCopyOutputError .referenceInvalid ["actions"])
  else do
    let rendered ← (request.actions.zip response.actions).mapM fun pair =>
      renderAction limits pair.1 pair.2
    let result : PublicActionCopyResult := {
      findingsChecksum := request.findingsChecksum
      actionPlanChecksum := request.actionPlanChecksum
      actions := rendered }
    if ¬ result.Valid then .error .validationError
    else if limits.maxResultBytes < jsonSize result.json then
      .error (publicCopyOutputError .limitExceeded ["result"])
    else .ok result

/-- `validate_and_render_copy`. -/
def validateAndRenderCopy (py : Interpreter) (request : CopyRequestV1)
    (outputs : ProviderOutput) (limits : PublicCopyLimits) :
    Except CopyFailure PublicActionCopyResult := do
  let checkedLimits ← validatedLimits limits
  let checkedRequest ← validatedRequest py request checkedLimits
  let response ← parseResponse py outputs checkedLimits
  renderResponse checkedRequest response checkedLimits

end Rendering

end SearchTrust.Report
