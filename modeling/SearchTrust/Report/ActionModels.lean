/-
The models of public action planning.
-/
import Mathlib.Tactic.MkIffOfInductiveProp
import SearchTrust.Report.ActionCatalog
import SearchTrust.Report.Dates
import SearchTrust.Report.Findings

namespace SearchTrust.Report

open SearchTrust.Jobs (Json)
open SearchTrust.Order

section Limits

structure PublicActionLimits where
  maxFindings : ℕ := 10000
  maxCandidates : ℕ := 1000
  maxFindingsPerAction : ℕ := 1000
  maxTargetsPerAction : ℕ := 1000
  maxStepsPerAction : ℕ := 20
  maxRequirementsPerGroup : ℕ := 50
  maxAssetsPerAction : ℕ := 50
  maxMetricsPerAction : ℕ := 20
  maxAuditEntries : ℕ := 1000
  maxBytes : ℕ := 20000000

/-- The bounds of the limits. -/
@[mk_iff] structure PublicActionLimits.Valid (limits : PublicActionLimits) : Prop where
  findings : 1 ≤ limits.maxFindings ∧ limits.maxFindings ≤ 10000
  candidates : 3 ≤ limits.maxCandidates ∧ limits.maxCandidates ≤ 1000
  findingsPerAction : 1 ≤ limits.maxFindingsPerAction ∧ limits.maxFindingsPerAction ≤ 1000
  targetsPerAction : 1 ≤ limits.maxTargetsPerAction ∧ limits.maxTargetsPerAction ≤ 1000
  stepsPerAction : 1 ≤ limits.maxStepsPerAction ∧ limits.maxStepsPerAction ≤ 20
  requirements : 1 ≤ limits.maxRequirementsPerGroup ∧ limits.maxRequirementsPerGroup ≤ 50
  assets : limits.maxAssetsPerAction ≤ 50
  metrics : 1 ≤ limits.maxMetricsPerAction ∧ limits.maxMetricsPerAction ≤ 20
  auditEntries : 3 ≤ limits.maxAuditEntries ∧ limits.maxAuditEntries ≤ 1000
  bytes : 1 ≤ limits.maxBytes ∧ limits.maxBytes ≤ 20000000

instance PublicActionLimits.decidableValid (limits : PublicActionLimits) :
    Decidable limits.Valid :=
  decidable_of_iff' _ (PublicActionLimits.valid_iff limits)

theorem PublicActionLimits.default_valid : ({} : PublicActionLimits).Valid := by decide

end Limits

section Targets

/-- `ActionTargetKind`, in the order of `_TARGET_ORDER`. -/
inductive ActionTargetKind where
  | site
  | url
  | query
  | pageType
  | gbpField
deriving DecidableEq, Repr

def ActionTargetKind.text : ActionTargetKind → String
  | site => "site"
  | url => "url"
  | query => "query"
  | pageType => "page_type"
  | gbpField => "gbp_field"

def ActionTargetKind.order : ActionTargetKind → ℕ
  | site => 0
  | url => 1
  | query => 2
  | pageType => 3
  | gbpField => 4

/-- `ActionTarget`: the value of the field that belongs to the kind. -/
structure ActionTarget where
  kind : ActionTargetKind
  value : String
  findingIds : List String
deriving DecidableEq

/-- The bounds of a target; only a query has one on its value. -/
@[mk_iff] structure ActionTarget.Valid (target : ActionTarget) : Prop where
  query : target.kind = .query → lengthWithin 1 300 target.value
  findingIds : ∀ id ∈ target.findingIds, isFindingId id
  findingCount : target.findingIds ≠ [] ∧ target.findingIds.length ≤ 1000

instance ActionTarget.decidableValid (target : ActionTarget) : Decidable target.Valid :=
  decidable_of_iff' _ (ActionTarget.valid_iff target)

def ActionTarget.json (target : ActionTarget) : Json :=
  let field (kinds : List ActionTargetKind) : Json :=
    if target.kind ∈ kinds then .string target.value else .null
  .object [
    ("kind", .string target.kind.text), ("url", field [.site, .url]),
    ("query", field [.query]), ("page_type", field [.pageType]),
    ("gbp_field", field [.gbpField]), ("finding_ids", texts target.findingIds)]

end Targets

section Actions

def AllowedFactField.text : AllowedFactField → String
  | findingStatement => "finding.statement"
  | findingScope => "finding.scope"
  | findingSeverity => "finding.severity"
  | findingConfidence => "finding.confidence"
  | targetUrl => "target.url"
  | targetQuery => "target.query"
  | targetPageType => "target.page_type"
  | targetGbpField => "target.gbp_field"
  | targetSite => "target.site"
  | actionDefinitionOfDone => "action.definition_of_done"

structure ImplementationStep where
  sequence : ℕ
  title : String
  instruction : String
deriving DecidableEq

structure ActionSpecification where
  contentRequirements : List String
  gbpRequirements : List String
  technicalRequirements : List String
deriving DecidableEq

structure ActionValidationMetric where
  metricKey : String
  baseline : String
  successCondition : String
  sourceTypes : List SourceType
deriving DecidableEq

structure ActionCopyRequirements where
  findingIds : List String
  allowedFactFields : List AllowedFactField
  requiredLimitations : List String
deriving DecidableEq

structure ActionSkeleton where
  actionId : String
  sequence : ℕ
  findingIds : List String
  templateKey : String
  templateVersion : String
  exactTargets : List ActionTarget
  implementationSteps : List ImplementationStep
  specification : ActionSpecification
  requiredClientAssets : List String
  dependencies : List String
  ownerSuggestion : String
  effortBucket : EffortBucket
  definitionOfDone : List String
  validationMetrics : List ActionValidationMetric
  dataSources : List SourceType
  reviewDate : Date
  copyRequirements : ActionCopyRequirements
deriving DecidableEq

@[mk_iff] structure ImplementationStep.Valid (step : ImplementationStep) : Prop where
  sequence : 1 ≤ step.sequence
  title : lengthWithin 1 200 step.title
  instruction : step.instruction ≠ ""

@[mk_iff] structure ActionValidationMetric.Valid (metric : ActionValidationMetric) :
    Prop where
  metricKey : lengthWithin 1 120 metric.metricKey
  baseline : lengthWithin 1 240 metric.baseline
  successCondition : metric.successCondition ≠ ""
  sourceTypes : metric.sourceTypes ≠ [] ∧ metric.sourceTypes.length ≤ 8
  sourcesNodup : metric.sourceTypes.Nodup

@[mk_iff] structure ActionCopyRequirements.Valid (copy : ActionCopyRequirements) :
    Prop where
  findingIds : ∀ id ∈ copy.findingIds, isFindingId id
  findingCount : copy.findingIds ≠ [] ∧ copy.findingIds.length ≤ 1000
  factFields : copy.allowedFactFields ≠ [] ∧ copy.allowedFactFields.length ≤ 20
  limitationCount : copy.requiredLimitations.length ≤ 20
  factFieldsNodup : copy.allowedFactFields.Nodup
  limitationsNodup : copy.requiredLimitations.Nodup

instance ImplementationStep.decidableValid (step : ImplementationStep) : Decidable step.Valid :=
  decidable_of_iff' _ (ImplementationStep.valid_iff step)

instance ActionValidationMetric.decidableValid (metric : ActionValidationMetric) :
    Decidable metric.Valid :=
  decidable_of_iff' _ (ActionValidationMetric.valid_iff metric)

instance ActionCopyRequirements.decidableValid (copy : ActionCopyRequirements) :
    Decidable copy.Valid :=
  decidable_of_iff' _ (ActionCopyRequirements.valid_iff copy)

/-- The bounds and `validate_action`. -/
@[mk_iff] structure ActionSkeleton.Valid (action : ActionSkeleton) : Prop where
  actionId : isActionId action.actionId
  sequence : 1 ≤ action.sequence ∧ action.sequence ≤ 3
  findingIds : ∀ id ∈ action.findingIds, isFindingId id
  findingCount : action.findingIds ≠ [] ∧ action.findingIds.length ≤ 1000
  templateKey : isSnakeName 80 action.templateKey
  templateVersion : lengthWithin 1 32 action.templateVersion
  targets : ∀ target ∈ action.exactTargets, target.Valid
  targetCount : action.exactTargets ≠ [] ∧ action.exactTargets.length ≤ 1000
  steps : ∀ step ∈ action.implementationSteps, step.Valid
  stepCount : action.implementationSteps ≠ [] ∧ action.implementationSteps.length ≤ 20
  assetCount : action.requiredClientAssets.length ≤ 50
  dependencyIds : ∀ id ∈ action.dependencies, isActionId id
  dependencyCount : action.dependencies.length ≤ 2
  ownerSuggestion : lengthWithin 1 160 action.ownerSuggestion
  doneCount : action.definitionOfDone ≠ [] ∧ action.definitionOfDone.length ≤ 20
  metrics : ∀ metric ∈ action.validationMetrics, metric.Valid
  metricCount : action.validationMetrics ≠ [] ∧ action.validationMetrics.length ≤ 20
  sourceCount : action.dataSources ≠ [] ∧ action.dataSources.length ≤ 8
  copyRequirements : action.copyRequirements.Valid
  stepSequences : action.implementationSteps.map (·.sequence) =
    List.range' 1 action.implementationSteps.length
  dependenciesNodup : action.dependencies.Nodup
  sourcesNodup : action.dataSources.Nodup
  copyFindings : action.copyRequirements.findingIds = action.findingIds
  targetFindings : ∀ target ∈ action.exactTargets, target.findingIds ⊆ action.findingIds
  targetsNodup : (action.exactTargets.map fun target => (target.kind, target.value)).Nodup

instance ActionSkeleton.decidableValid (action : ActionSkeleton) : Decidable action.Valid :=
  decidable_of_iff' _ (ActionSkeleton.valid_iff action)

def ImplementationStep.json (step : ImplementationStep) : Json := .object [
  ("sequence", number step.sequence), ("title", .string step.title),
  ("instruction", .string step.instruction)]

def ActionSpecification.json (specification : ActionSpecification) : Json := .object [
  ("content_requirements", texts specification.contentRequirements),
  ("gbp_requirements", texts specification.gbpRequirements),
  ("technical_requirements", texts specification.technicalRequirements)]

def ActionValidationMetric.json (metric : ActionValidationMetric) : Json := .object [
  ("metric_key", .string metric.metricKey), ("baseline", .string metric.baseline),
  ("success_condition", .string metric.successCondition),
  ("source_types", texts (metric.sourceTypes.map SourceType.text))]

def ActionCopyRequirements.json (copy : ActionCopyRequirements) : Json := .object [
  ("finding_ids", texts copy.findingIds),
  ("allowed_fact_fields", texts (copy.allowedFactFields.map AllowedFactField.text)),
  ("required_limitations", texts copy.requiredLimitations)]

def ActionSkeleton.json (action : ActionSkeleton) : Json := .object [
  ("action_id", .string action.actionId), ("sequence", number action.sequence),
  ("finding_ids", texts action.findingIds), ("template_key", .string action.templateKey),
  ("template_version", .string action.templateVersion),
  ("exact_targets", .array (action.exactTargets.map ActionTarget.json)),
  ("implementation_steps", .array (action.implementationSteps.map ImplementationStep.json)),
  ("specification", action.specification.json),
  ("required_client_assets", texts action.requiredClientAssets),
  ("dependencies", texts action.dependencies),
  ("owner_suggestion", .string action.ownerSuggestion),
  ("effort_bucket", .string action.effortBucket.text),
  ("definition_of_done", texts action.definitionOfDone),
  ("validation_metrics", .array (action.validationMetrics.map ActionValidationMetric.json)),
  ("data_sources", texts (action.dataSources.map SourceType.text)),
  ("review_date", .string (isoformat action.reviewDate)),
  ("copy_requirements", action.copyRequirements.json)]

end Actions

section Plans

structure ActionPriority where
  severityRank : ℕ
  confidenceRank : ℕ
  classificationRank : ℕ
  impactScope : ℕ
deriving DecidableEq

@[mk_iff] structure ActionPriority.Valid (priority : ActionPriority) : Prop where
  severityRank : 1 ≤ priority.severityRank ∧ priority.severityRank ≤ 4
  confidenceRank : 1 ≤ priority.confidenceRank ∧ priority.confidenceRank ≤ 3
  classificationRank : 1 ≤ priority.classificationRank ∧ priority.classificationRank ≤ 3
  impactScope : priority.impactScope ≤ 15

instance ActionPriority.decidableValid (rank : ActionPriority) : Decidable rank.Valid :=
  decidable_of_iff' _ (ActionPriority.valid_iff rank)

/-- `selection_state`; the reason follows from it. -/
inductive SelectionState where
  | selected
  | unselected
deriving DecidableEq, Repr

def SelectionState.text : SelectionState → String
  | selected => "selected"
  | unselected => "unselected"

def SelectionState.reason : SelectionState → String
  | selected => "selected_top_three"
  | unselected => "lower_priority"

structure ActionSelectionAudit where
  candidateKey : String
  actionId : String
  templateKey : String
  anchorFindingId : String
  findingIds : List String
  priority : ActionPriority
  selectionState : SelectionState
deriving DecidableEq

@[mk_iff] structure ActionSelectionAudit.Valid (audit : ActionSelectionAudit) : Prop where
  candidateKey : lengthWithin 1 200 audit.candidateKey
  actionId : isActionId audit.actionId
  templateKey : lengthWithin 1 80 audit.templateKey
  anchor : isFindingId audit.anchorFindingId
  findingIds : ∀ id ∈ audit.findingIds, isFindingId id
  findingCount : audit.findingIds ≠ [] ∧ audit.findingIds.length ≤ 1000
  priority : audit.priority.Valid
  anchorFinding : audit.anchorFindingId ∈ audit.findingIds

instance ActionSelectionAudit.decidableValid (audit : ActionSelectionAudit) :
    Decidable audit.Valid :=
  decidable_of_iff' _ (ActionSelectionAudit.valid_iff audit)

/-- `PublicActionPlan`, less its literal fields. -/
structure PublicActionPlan where
  planningDate : Date
  findingsChecksum : String
  actions : List ActionSkeleton
  selectionAudit : List ActionSelectionAudit
  unselectedFindingIds : List String
deriving DecidableEq

/-- The findings of the candidates that were not selected. -/
def auditedUnselected (audits : List ActionSelectionAudit) : List String :=
  sortedSet ((audits.filter (·.selectionState = .unselected)).flatMap (·.findingIds))

def selectedAudits (audits : List ActionSelectionAudit) : List String :=
  (audits.filter (·.selectionState = .selected)).map (·.actionId)

/-- An action against the others of its plan. -/
@[mk_iff] structure PublicActionPlan.Fits (plan : PublicActionPlan)
    (action : ActionSkeleton) : Prop where
  earlier : ∀ id ∈ action.dependencies,
    ∃ other ∈ plan.actions, other.actionId = id ∧ other.sequence < action.sequence
  reviewDate : addDays plan.planningDate (30 * action.sequence) = some action.reviewDate
  audit : ∃ audit ∈ plan.selectionAudit, audit.actionId = action.actionId ∧
    audit.templateKey = action.templateKey ∧ audit.findingIds = action.findingIds

instance PublicActionPlan.decidableFits (plan : PublicActionPlan)
    (action : ActionSkeleton) : Decidable (plan.Fits action) :=
  decidable_of_iff' _ (PublicActionPlan.fits_iff plan action)

/-- The bounds and `validate_plan`. -/
@[mk_iff] structure PublicActionPlan.Valid (plan : PublicActionPlan) : Prop where
  findingsChecksum : isDigest plan.findingsChecksum
  actions : ∀ action ∈ plan.actions, action.Valid
  audits : ∀ audit ∈ plan.selectionAudit, audit.Valid
  auditCount : 3 ≤ plan.selectionAudit.length ∧ plan.selectionAudit.length ≤ 1000
  unselectedIds : ∀ id ∈ plan.unselectedFindingIds, isFindingId id
  unselectedCount : plan.unselectedFindingIds.length ≤ 10000
  sequences : plan.actions.map (·.sequence) = [1, 2, 3]
  actionIdsNodup : (plan.actions.map (·.actionId)).Nodup
  fits : ∀ action ∈ plan.actions, plan.Fits action
  candidateKeysNodup : (plan.selectionAudit.map (·.candidateKey)).Nodup
  auditIdsNodup : (plan.selectionAudit.map (·.actionId)).Nodup
  selected : selectedAudits plan.selectionAudit ⊆ plan.actions.map (·.actionId) ∧
    plan.actions.map (·.actionId) ⊆ selectedAudits plan.selectionAudit
  selectedCount : (selectedAudits plan.selectionAudit).length = 3
  unselectedNodup : plan.unselectedFindingIds.Nodup
  disjoint : ∀ action ∈ plan.actions, ∀ id ∈ action.findingIds,
    id ∉ plan.unselectedFindingIds
  unselected : plan.unselectedFindingIds = auditedUnselected plan.selectionAudit

instance PublicActionPlan.decidableValid (plan : PublicActionPlan) : Decidable plan.Valid :=
  decidable_of_iff' _ (PublicActionPlan.valid_iff plan)

def ActionPriority.json (priority : ActionPriority) : Json := .object [
  ("severity_rank", number priority.severityRank),
  ("confidence_rank", number priority.confidenceRank),
  ("classification_rank", number priority.classificationRank),
  ("impact_scope", number priority.impactScope)]

def ActionSelectionAudit.json (audit : ActionSelectionAudit) : Json := .object [
  ("candidate_key", .string audit.candidateKey), ("action_id", .string audit.actionId),
  ("template_key", .string audit.templateKey),
  ("anchor_finding_id", .string audit.anchorFindingId),
  ("finding_ids", texts audit.findingIds), ("priority", audit.priority.json),
  ("selection_state", .string audit.selectionState.text),
  ("reason", .string audit.selectionState.reason)]

def PublicActionPlan.json (plan : PublicActionPlan) : Json := .object [
  ("schema_version", .string "public_action_plan_v1"),
  ("action_catalog_version", .string actionCatalogVersion),
  ("source_ruleset_version", .string rulesetVersion),
  ("planning_date", .string (isoformat plan.planningDate)),
  ("findings_checksum", .string plan.findingsChecksum),
  ("actions", .array (plan.actions.map ActionSkeleton.json)),
  ("selection_audit", .array (plan.selectionAudit.map ActionSelectionAudit.json)),
  ("unselected_finding_ids", texts plan.unselectedFindingIds)]

end Plans

end SearchTrust.Report
