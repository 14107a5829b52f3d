/-
The models of a capability report: its findings, its actions, the trace of their
priority, and the delivery of a report.
-/
import SearchTrust.Report.Models

namespace SearchTrust.Capability

open SearchTrust.Report (Confidence Severity FactClassification)

abbrev Uuid := String

/-- A time, as its text. -/
abbrev Timestamp := String

abbrev Checksum := String

section Texts

/-- A text of bounded length with `\S` somewhere. -/
def boundedText (limit : ℕ) (value : String) : Bool :=
  decide (value.length ≤ limit) && value.toList.any (! Jobs.isWhitespace ·)

/-- `Text`. -/
def isText (value : String) : Bool := boundedText 2000 value

/-- `Label`. -/
def isLabel (value : String) : Bool := boundedText 200 value

/-- A list of some items, each of which fits. -/
def boundedList {α : Type} (fits : α → Bool) (low high : ℕ) (items : List α) : Bool :=
  decide (low ≤ items.length ∧ items.length ≤ high) && items.all fits

end Texts

section Findings

inductive FindingKind where
  | fact
  | inference
  | recommendation
deriving DecidableEq

inductive FindingStatus where
  | confirmed
  | notDetected
  | notChecked
  | notAssessed
deriving DecidableEq

inductive CoverageSource where
  | site
  | gbp
  | serp
  | competitor
  | citation
  | gsc
  | ga4
  | rendered
deriving DecidableEq

structure FindingCoverage where
  source : CoverageSource
  checked : Bool
deriving DecidableEq

inductive Interpretation where
  | supported
  | needsVerification
  | conflicting
deriving DecidableEq

structure CapabilityFinding where
  id : String
  ruleId : String
  ruleVersion : String
  classification : FactClassification
  kind : Option FindingKind
  status : Option FindingStatus
  coverage : Option (List FindingCoverage)
  severity : Severity
  confidence : Confidence
  target : String
  observedFact : String
  observedAt : Timestamp
  comparisonScope : String
  judgment : String
  interpretation : Interpretation
  impactPath : String
  evidenceIds : List String
  limitations : List String
deriving DecidableEq

namespace CapabilityFinding

/-- `validate_labels`: a finding has all labels or none. -/
def labelsFit (finding : CapabilityFinding) : Bool :=
  match finding.kind, finding.status, finding.coverage with
  | none, none, none => true
  | some kind, some status, some coverage =>
      (decide (kind = .fact) || decide (status = .notAssessed)) &&
        decide (coverage.map (·.source)).Nodup && boundedList (fun _ => true) 1 8 coverage
  | _, _, _ => false

def fits (finding : CapabilityFinding) : Bool :=
  isLabel finding.id && isLabel finding.ruleId && isLabel finding.ruleVersion &&
    finding.labelsFit && isText finding.target && isText finding.observedFact &&
    isText finding.comparisonScope && isText finding.judgment && isText finding.impactPath &&
    boundedList isLabel 1 20 finding.evidenceIds &&
    boundedList isText 0 20 finding.limitations

end CapabilityFinding

end Findings

section Actions

inductive MaterialKind where
  | titleBrief
  | serviceBrief
  | profileCorrection
  | technicalCheck
  | measurementCheck
deriving DecidableEq

def MaterialKind.text : MaterialKind → String
  | titleBrief => "title_brief"
  | serviceBrief => "service_brief"
  | profileCorrection => "profile_correction"
  | technicalCheck => "technical_check"
  | measurementCheck => "measurement_check"

inductive Readiness where
  | instructions
  | requiresConfirmation
  | readyToUse
deriving DecidableEq

def Readiness.text : Readiness → String
  | instructions => "instructions"
  | requiresConfirmation => "requires_confirmation"
  | readyToUse => "ready_to_use"

structure ExecutionMaterial where
  id : String
  kind : MaterialKind
  title : String
  target : String
  body : String
  readiness : Readiness
  confirmationItems : List String
  evidenceIds : List String
deriving DecidableEq

namespace ExecutionMaterial

/-- `validate_readiness` -/
def readinessFits (material : ExecutionMaterial) : Bool :=
  decide material.evidenceIds.Nodup &&
    match material.readiness with
    | .instructions => true
    | .requiresConfirmation => material.confirmationItems ≠ []
    | .readyToUse => material.confirmationItems = []

def fits (material : ExecutionMaterial) : Bool :=
  isLabel material.id && isLabel material.title && isText material.target &&
    isText material.body && boundedList isText 0 12 material.confirmationItems &&
    boundedList isLabel 1 20 material.evidenceIds && material.readinessFits

/-- `model_dump(exclude={"title", "body"})` -/
def frozen (material : ExecutionMaterial) : ExecutionMaterial :=
  { material with title := "", body := "" }

end ExecutionMaterial

structure CapabilityAction where
  id : String
  title : String
  target : String
  findingIds : List String
  steps : List String
  completion : List String
  review : String
  dependencies : List String
  materials : List ExecutionMaterial
deriving DecidableEq

def CapabilityAction.fits (action : CapabilityAction) : Bool :=
  isLabel action.id && isLabel action.title && isText action.target &&
    boundedList isLabel 1 20 action.findingIds && boundedList isText 1 12 action.steps &&
    boundedList isText 1 12 action.completion && isText action.review &&
    boundedList isLabel 0 2 action.dependencies &&
    boundedList ExecutionMaterial.fits 0 3 action.materials

end Actions

section Priority

structure PriorityCandidateInput where
  actionId : String
  target : String
  findingIds : List String
  dependencies : List String
  materialKinds : List MaterialKind
  readiness : List Readiness
deriving DecidableEq

def PriorityCandidateInput.fits (candidate : PriorityCandidateInput) : Bool :=
  isLabel candidate.actionId && isText candidate.target &&
    boundedList isLabel 1 20 candidate.findingIds &&
    boundedList isLabel 0 2 candidate.dependencies &&
    boundedList (fun _ => true) 0 5 candidate.materialKinds &&
    boundedList (fun _ => true) 0 3 candidate.readiness

inductive Prerequisite where
  | accessIndexing
  | measurement
  | none
deriving DecidableEq

def Prerequisite.text : Prerequisite → String
  | accessIndexing => "access_indexing"
  | measurement => "measurement"
  | none => "none"

inductive BusinessMatch where
  | confirmedTarget
  | confirmedObjective
  | notMatched
  | unknown
deriving DecidableEq

def BusinessMatch.text : BusinessMatch → String
  | confirmedTarget => "confirmed_target"
  | confirmedObjective => "confirmed_objective"
  | notMatched => "not_matched"
  | unknown => "unknown"

def Interpretation.text : Interpretation → String
  | supported => "supported"
  | needsVerification => "needs_verification"
  | conflicting => "conflicting"

inductive Execution where
  | confirmationRequired
  | instructionsOnly
  | readyToUse
deriving DecidableEq

def Execution.text : Execution → String
  | confirmationRequired => "confirmation_required"
  | instructionsOnly => "instructions_only"
  | readyToUse => "ready_to_use"

structure PriorityDecision where
  technicalFindingIds : Option (List String)
  defaultVisible : Option Bool
  input : PriorityCandidateInput
  prerequisite : Prerequisite
  businessMatch : BusinessMatch
  evidenceSupport : Interpretation
  execution : Execution
  severity : Severity
  confidence : Confidence
  impactPaths : List String
  comparisonScopes : List String
  reasonCodes : List String
  explanation : String
  selectedOrder : Option ℕ
deriving DecidableEq

namespace PriorityDecision

def fits (decision : PriorityDecision) : Bool :=
  (decision.technicalFindingIds.all fun ids => boundedList isLabel 0 20 ids) &&
    decision.input.fits && boundedList isText 1 20 decision.impactPaths &&
    boundedList isText 1 20 decision.comparisonScopes &&
    boundedList isLabel 1 12 decision.reasonCodes && isText decision.explanation &&
    decision.selectedOrder.all fun order => decide (1 ≤ order ∧ order ≤ 3)

/-- `technical_finding_ids` as the condition of an `if`. -/
def isTechnical (decision : PriorityDecision) : Bool :=
  decide (decision.technicalFindingIds.getD [] ≠ [])

end PriorityDecision

inductive RulesVersion where
  | v1
  | v2
  | v3
deriving DecidableEq

structure PrioritizationTrace where
  candidateOrder : Option (List String)
  rulesVersion : RulesVersion
  inputChecksum : Checksum
  businessPriority : Option String
  targetPages : List String
  actionOrder : List String
  candidates : List PriorityDecision
  limitations : List String
deriving DecidableEq

namespace PrioritizationTrace

/-- `versioned_candidate_metadata` -/
def metadataFits (trace : PrioritizationTrace) : Bool :=
  match trace.rulesVersion with
  | .v3 => trace.candidateOrder.isSome &&
      trace.candidates.all fun e => e.technicalFindingIds.isSome && e.defaultVisible.isSome
  | _ => trace.candidateOrder.isNone &&
      trace.candidates.all fun e => e.technicalFindingIds.isNone && e.defaultVisible.isNone

def fits (trace : PrioritizationTrace) : Bool :=
  (trace.candidateOrder.all fun order => boundedList isLabel 0 1000 order) &&
    trace.businessPriority.all isLabel && boundedList isText 0 20 trace.targetPages &&
    boundedList isLabel 0 3 trace.actionOrder &&
    boundedList PriorityDecision.fits 0 1000 trace.candidates &&
    boundedList isText 1 5 trace.limitations && trace.metadataFits

end PrioritizationTrace

end Priority

section Business

inductive Capacity where
  | unknown
  | limited
  | available
deriving DecidableEq

def Capacity.text : Capacity → String
  | unknown => "unknown"
  | limited => "limited"
  | available => "available"

inductive PublishingAccess where
  | unknown
  | needsApproval
  | available
deriving DecidableEq

def PublishingAccess.text : PublishingAccess → String
  | unknown => "unknown"
  | needsApproval => "needs_approval"
  | available => "available"

structure ExecutionConditions where
  capacity : Capacity
  publishingAccess : PublishingAccess
deriving DecidableEq

/-- What the priority reads of a `BusinessScope`. -/
structure BusinessScope where
  siteUrl : String
  targetPages : List String
  priority : Option String
  executionConditions : Option ExecutionConditions
deriving DecidableEq

end Business

end SearchTrust.Capability
