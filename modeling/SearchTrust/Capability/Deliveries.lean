/-
The delivery of a report: which actions it keeps, which of them the client sees, and
what it says about technical work that it leaves out.
-/
import SearchTrust.Capability.Reports

namespace SearchTrust.Capability

open SearchTrust.Order

structure EditableAction where
  id : String
  title : String
  target : String
  steps : List String
  completion : List String
  review : String
  materials : List ExecutionMaterial
deriving DecidableEq

def EditableAction.fits (action : EditableAction) : Bool :=
  isLabel action.id && isLabel action.title && isText action.target &&
    boundedList isText 1 12 action.steps && boundedList isText 1 12 action.completion &&
    isText action.review && boundedList ExecutionMaterial.fits 0 3 action.materials

/-- `confirmed` is always `True`. -/
structure TechnicalOmissionConfirmation where
  omittedActionIds : List String
  selectedActionIds : List String
  clientActionIds : List String
deriving DecidableEq

def TechnicalOmissionConfirmation.fits (confirmation : TechnicalOmissionConfirmation) : Bool :=
  boundedList isLabel 1 1000 confirmation.omittedActionIds &&
    boundedList isLabel 0 3 confirmation.selectedActionIds &&
    boundedList isLabel 0 3 confirmation.clientActionIds

inductive DeliverySchema where
  | v1
  | v2
  | v3
deriving DecidableEq

inductive DeliveryStatus where
  | draft
  | approved
deriving DecidableEq

structure DeliveryRevision where
  schemaVersion : DeliverySchema
  clientActionIds : Option (List String)
  technicalOmissionConfirmation : Option TechnicalOmissionConfirmation
  reportId : Uuid
  userId : Uuid
  caseId : Uuid
  expectedRevision : ℕ
  sourceChecksum : Checksum
  status : DeliveryStatus
  title : String
  summary : String
  clientNote : Option String
  actions : List EditableAction
  /-- `model_fields_set` -/
  fieldsSet : List String
deriving DecidableEq

namespace DeliveryRevision

variable (delivery : DeliveryRevision)

/-- `visibility_version` -/
def visibilityVersion : Except String Unit := do
  if delivery.schemaVersion = .v1 then
    require (! decide ("client_action_ids" ∈ delivery.fieldsSet))
      "client action selection requires revision v2"
  else
    require (delivery.clientActionIds.any fun ids =>
        decide ids.Nodup && decide (ids ⊆ delivery.actions.map (·.id)))
      "client action selection must reference unique delivery actions"
  require (decide (delivery.schemaVersion = .v3) ||
    ! decide ("technical_omission_confirmation" ∈ delivery.fieldsSet))
    "technical confirmation requires v3"
  require (! decide ("technical_omission_confirmation" ∈ delivery.fieldsSet) ||
    delivery.technicalOmissionConfirmation.isSome) "absent confirmation must not be null"

/-- The bounds of the fields. -/
def fits : Bool :=
  (delivery.clientActionIds.all fun ids => boundedList isLabel 0 3 ids) &&
    delivery.technicalOmissionConfirmation.all TechnicalOmissionConfirmation.fits &&
    isLabel delivery.title && isText delivery.summary && delivery.clientNote.all isText &&
    boundedList EditableAction.fits 0 3 delivery.actions

/-- What `DeliveryRevision.model_validate` accepts. -/
structure Valid : Prop where
  fits : delivery.fits = true
  visibility : delivery.visibilityVersion = .ok ()

end DeliveryRevision

section Selection

/-- `valid_dependencies`, when the actions of `seen` stand before. -/
def validDependencies (pool : List CapabilityAction) : List String → List String → Bool
  | _, [] => true
  | seen, key :: rest =>
      match pool.find? fun a => a.id = key with
      | none => false
      | some action => decide (key ∉ seen) && decide (action.dependencies ⊆ seen) &&
          validDependencies pool (seen ++ [key]) rest

/-- `technical` -/
def technicalIds (report : CapabilityReport) : List String :=
  sortedBy id ((report.prioritization.elim [] fun trace =>
    trace.candidates.filter (·.isTechnical)).map (·.input.actionId))

/-- `omission_confirmation` -/
def omissionConfirmation (report : CapabilityReport) (ids clientIds : List String) :
    Option TechnicalOmissionConfirmation :=
  let technical := technicalIds report
  if technical ≠ [] ∧ ∀ key ∈ technical, key ∉ clientIds then
    some ⟨technical, ids, clientIds⟩
  else none

/-- `validate_selection` -/
def validateSelection (report : CapabilityReport) (ids clientIds : List String)
    (confirmation : Option TechnicalOmissionConfirmation) : Except String Unit := do
  let pool := report.actionCandidates.getD []
  let visible := ids.filter (· ∈ clientIds)
  require (decide (clientIds = visible) && validDependencies pool [] ids &&
    validDependencies pool [] visible) "selection dependencies or visible order invalid"
  require (decide (confirmation = omissionConfirmation report ids visible))
    "technical omission requires current selection confirmation"

/-- `valid_delivery_order`, when `seen` stands before and `layer` was reached. -/
def orderedByLayer (trace : PrioritizationTrace) : List String → ℕ → List String → Bool
  | _, _, [] => true
  | seen, layer, key :: rest =>
      match trace.candidates.reverse.find? fun e => e.input.actionId = key with
      | none => false
      | some entry =>
          let current := prerequisiteRank entry.prerequisite
          decide (layer ≤ current) && decide (entry.input.dependencies ⊆ seen) &&
            orderedByLayer trace (seen ++ [key]) current rest

/-- `valid_delivery_order` -/
def validDeliveryOrder (ids : List String) (trace : PrioritizationTrace) : Bool :=
  decide ids.Nodup && decide (ids ⊆ trace.actionOrder) && decide (trace.actionOrder ⊆ ids) &&
    orderedByLayer trace [] 0 ids

end Selection

/-- `verified_request_digest` of a finding and of a report, as they are dumped. -/
structure Digests where
  finding : CapabilityFinding → Checksum
  report : CapabilityReport → Checksum

namespace DeliveryRevision

variable (lib : Library) (digests : Digests) (delivery : DeliveryRevision)
  (report : CapabilityReport)

/-- `CapabilityReport.model_validate(report)` -/
def revalidated : Except String Unit := do
  require report.fits "invalid report field"
  report.validateReferences lib digests.finding

/-- The checks of the versions and of what the delivery says that it delivers. -/
def sourceChecks : Except String Unit := do
  require (decide (delivery.schemaVersion = .v3) ==
    decide (report.schemaVersion ∈ [ReportSchema.v227, .v228])) "v12 report requires revision v3"
  require (decide (delivery.schemaVersion ≠ .v2) ||
    decide (report.schemaVersion ∈ [ReportSchema.v225, .v226]))
    "visibility edits require labelled findings"
  require (decide (delivery.reportId = report.id ∧
    delivery.userId = report.inputManifest.userId ∧
    delivery.caseId = report.inputManifest.caseId ∧
    delivery.sourceChecksum = digests.report report)) "delivery source binding mismatch"

/-- `originals` -/
def originals : List CapabilityAction :=
  if delivery.schemaVersion = .v3 then report.actionCandidates.getD [] else report.actions

/-- The checks of the actions that the delivery keeps. -/
def identityChecks : Except String Unit := do
  let ids := delivery.actions.map (·.id)
  require (decide ids.Nodup && decide (ids.length = report.actions.length) &&
    (decide (delivery.schemaVersion = .v3) || (decide (ids ⊆ report.actions.map (·.id)) &&
      decide (report.actions.map (·.id) ⊆ ids)))) "delivery must preserve system action identities"
  require (decide (ids ⊆ (delivery.originals report).map (·.id))) "unknown frozen candidate"

def selectionChecks : Except String Unit :=
  if delivery.schemaVersion = .v3 then
    validateSelection report (delivery.actions.map (·.id)) (delivery.clientActionIds.getD [])
      delivery.technicalOmissionConfirmation
  else .ok ()

def orderChecks : Except String Unit :=
  match report.prioritization with
  | none => .ok ()
  | some trace => require (decide (trace.rulesVersion ≠ .v2) ||
      validDeliveryOrder (delivery.actions.map (·.id)) trace)
      "delivery order violates prerequisites"

/-- The materials of an action are those of its original, up to their wording. -/
def materialCheck (action : EditableAction) : Except String Unit := do
  let source := ((delivery.originals report).find? fun a => a.id = action.id).elim [] (·.materials)
  require (decide (action.materials.map (·.id)).Nodup &&
    decide (action.materials.map (·.id) ⊆ source.map (·.id)) &&
    decide (source.map (·.id) ⊆ action.materials.map (·.id)))
    "delivery must preserve material identities"
  require (action.materials.all fun item =>
    ((source.find? fun s => s.id = item.id).map (·.frozen)) == some item.frozen)
    "material evidence and confirmation state are immutable"

/-- `validate_report` -/
def validateReport : Except String Unit := do
  revalidated lib digests report
  delivery.sourceChecks digests report
  delivery.identityChecks report
  delivery.selectionChecks report
  delivery.orderChecks report
  delivery.actions.forM (delivery.materialCheck report)

end DeliveryRevision

section Own

/-- What an editor is free to write on a delivery. -/
structure DeliveryText where
  expectedRevision : ℕ
  status : DeliveryStatus
  title : String
  summary : String
  clientNote : Option String

def DeliveryText.fits (text : DeliveryText) : Bool :=
  isLabel text.title && isText text.summary && text.clientNote.all isText

/-- The action as it stands in a delivery that does not edit it. -/
def CapabilityAction.editable (action : CapabilityAction) : EditableAction where
  id := action.id
  title := action.title
  target := action.target
  steps := action.steps
  completion := action.completion
  review := action.review
  materials := action.materials

/-- The delivery that keeps the actions of the report, their order and their materials,
and shows all of them to the client. -/
def ownDelivery (digests : Digests) (report : CapabilityReport) (text : DeliveryText)
    (confirmation : Option TechnicalOmissionConfirmation) : DeliveryRevision where
  schemaVersion := .v3
  clientActionIds := some (report.actions.map (·.id))
  technicalOmissionConfirmation := confirmation
  reportId := report.id
  userId := report.inputManifest.userId
  caseId := report.inputManifest.caseId
  expectedRevision := text.expectedRevision
  sourceChecksum := digests.report report
  status := text.status
  title := text.title
  summary := text.summary
  clientNote := text.clientNote
  actions := report.actions.map (·.editable)
  fieldsSet := "client_action_ids" ::
    if confirmation.isSome then ["technical_omission_confirmation"] else []

end Own

end SearchTrust.Capability
