/-
Deterministic selection of exactly three public actions: the findings are checked
against their evidence and evaluations, grouped into candidates, ranked, and the
first three are put into an order that respects their dependencies.
-/
import SearchTrust.Order.Scheduling
import SearchTrust.Report.ActionModels
import SearchTrust.Report.Outcomes
import SearchTrust.Web.UrlText

namespace SearchTrust.Report

open SearchTrust.Jobs (Json)
open SearchTrust.Order

section Environment

/-- `PublicActionError`. -/
inductive ActionErrorKind where
  | inputInvalid
  | referenceInvalid
  | unsupportedFinding
  | insufficientActionableFindings
  | idConflict
  | dependencyInvalid
  | limitExceeded
  | dateInvalid
deriving DecidableEq, Repr

/-- The parts of the runtime that planning rests on. -/
structure Environment where
  hash : Hash
  /-- `urlsplit(str(url)).hostname or ""`; a URL that is normalised always splits. -/
  hostname : HttpUrl → String
  casefold : String → String

/-- `normalized_host`. -/
def normalizedHost (env : Environment) (value : String) : String :=
  let folded := Web.rstripDots (env.casefold value).toList
  .ofList ((folded.dropPrefix? "www.".toList).getD folded)

/-- `host`. -/
def host (env : Environment) (url : HttpUrl) : String :=
  normalizedHost env (env.hostname url)

end Environment

section References

/-- A finding with its evaluation. -/
structure Entry where
  finding : Finding
  evaluation : RuleEvaluation

def PublicFindingsResult.evaluation (result : PublicFindingsResult) (finding : Finding) :
    Option RuleEvaluation :=
  result.ruleEvaluations.find? fun item => item.findingId = some finding.findingId

def PublicFindingsResult.evidence (result : PublicFindingsResult) (id : String) :
    Option EvidenceItem :=
  result.evidenceResult.evidenceIndex.find? fun item => item.evidenceId = id

def Finding.references (finding : Finding) : List String :=
  finding.evidenceIds ++ finding.comparatorIds

/-- The evidence that a finding refers to. -/
def PublicFindingsResult.referenced (result : PublicFindingsResult) (finding : Finding) :
    List EvidenceItem :=
  finding.references.filterMap result.evidence

/-- The identities of a result fit together. -/
def identitiesFit (result : PublicFindingsResult) : Bool :=
  let findingIds : List String := result.findings.map (·.findingId)
  let evidenceIds : List String := result.evidenceResult.evidenceIndex.map (·.evidenceId)
  let traceIds : List String := result.evidenceResult.sourceTraces.map (·.evidenceId)
  let evaluated : List String := result.ruleEvaluations.filterMap (·.findingId)
  decide (result.siteRollup.findingIds = sortedSet findingIds) &&
    decide (evidenceIds.Nodup ∧ evidenceIds ⊆ traceIds ∧ traceIds ⊆ evidenceIds) &&
    result.ruleEvaluations.all (fun item =>
      item.state ≠ .triggered || item.findingId.isSome) &&
    decide (evaluated.Nodup ∧ evaluated ⊆ findingIds ∧ findingIds ⊆ evaluated)

/-- A finding repeats what its evaluation says, and is covered by its evidence. -/
def referencesFit (result : PublicFindingsResult) (finding : Finding)
    (evaluation : RuleEvaluation) : Bool :=
  let referenced := result.referenced finding
  decide (evaluation.state = .triggered) &&
    decide (evaluation.ruleId = finding.ruleId) &&
    decide (evaluation.ruleVersion = finding.ruleVersion) &&
    decide (evaluation.evidenceIds = finding.evidenceIds) &&
    decide (evaluation.comparatorIds = finding.comparatorIds) &&
    decide (evaluation.target.urls = finding.affectedUrls) &&
    decide (evaluation.target.query.toList = finding.affectedQueries) &&
    finding.references.all (fun id => (result.evidence id).isSome) &&
    decide (finding.affectedUrls ⊆ referenced.filterMap (·.sourceLocator.url)) &&
    decide (finding.affectedQueries ⊆ referenced.filterMap (·.sourceLocator.query))

/-- The rule of a finding has an action, in the version of the finding. -/
def ruleSupported (finding : Finding) : Bool :=
  match ruleAction finding.ruleId with
  | none => false
  | some binding =>
      decide (binding.ruleVersion = finding.ruleVersion) ||
        decide (finding.ruleId ∈ gbpRules ∧ finding.ruleVersion ∈
          [textPatternGbpAlignmentRuleVersion, nameQualityGbpAlignmentRuleVersion,
            identityGbpAlignmentRuleVersion])

def findingFault (result : PublicFindingsResult) (finding : Finding) :
    Option ActionErrorKind :=
  match result.evaluation finding with
  | none => some .referenceInvalid
  | some evaluation =>
      if ¬ referencesFit result finding evaluation then some .referenceInvalid
      else if ¬ ruleSupported finding then some .unsupportedFinding
      else none

/-- `_validated_references`.  The version of the rules is a literal of the model. -/
def validatedReferences (result : PublicFindingsResult) (maxFindings : ℕ) :
    Except ActionErrorKind (List Entry) :=
  if maxFindings < result.findings.length then .error .limitExceeded
  else if ¬ (result.findings.map (·.findingId)).Nodup then .error .idConflict
  else if ¬ identitiesFit result then .error .referenceInvalid
  else
    match result.findings.findSome? (findingFault result) with
    | some kind => .error kind
    | none =>
        .ok (result.findings.filterMap fun finding =>
          (result.evaluation finding).map fun evaluation => ⟨finding, evaluation⟩)

end References

section Ranks

def Severity.rank : Severity → ℕ
  | low => 1
  | medium => 2
  | high => 3
  | critical => 4

def Confidence.rank : Confidence → ℕ
  | low => 1
  | medium => 2
  | high => 3

def FactClassification.rank : FactClassification → ℕ
  | estimate => 1
  | inference => 2
  | fact => 3

/-- `_SOURCE_ORDER`. -/
def sourceOrder : List SourceType :=
  [.site, .serp, .competitor, .gsc, .gbp, .ga4, .pagespeed, .coverage]

/-- `_finding_rank`. -/
def findingRank (finding : Finding) : ℤ ×ₗ ℤ ×ₗ ℤ ×ₗ ℤ ×ₗ String :=
  let impact := min finding.affectedUrls.dedup.length 5 +
    min finding.affectedQueries.dedup.length 5 + 1
  toLex (-finding.severity.rank, toLex (-finding.confidence.rank,
    toLex (-finding.classification.rank, toLex (-impact, finding.findingId))))

end Ranks

section Candidates

/-- `_Candidate`. -/
structure Candidate where
  template : ActionTemplate
  entries : List Entry
  targets : List ActionTarget
  actionId : String
  candidateKey : String
  anchor : Finding
  priority : ActionPriority
  dataSources : List SourceType
  dependencies : List String := []

/-- `sorted(finding.finding_id for finding, _ in entries)`. -/
def Candidate.findingIds (candidate : Candidate) : List String :=
  sortedSet (candidate.entries.map (·.finding.findingId))

/-- `_group_key`, next to the template of the group. -/
def groupKey (entry : Entry) : Except ActionErrorKind (String × ActionTemplate) :=
  match ruleAction entry.finding.ruleId with
  | none => .error .unsupportedFinding
  | some binding =>
      if entry.finding.ruleId = assetRule then
        match entry.evaluation.target.pageType with
        | none => .error .referenceInvalid
        | some pageType =>
            .ok (binding.template.key ++ ":" ++ pageType.text, binding.template)
      else .ok (binding.template.key, binding.template)

/-- The targets that an entry adds. -/
def entryReferences (entry : Entry) :
    Except ActionErrorKind (List (ActionTargetKind × String)) := do
  let pageTypes ←
    if entry.finding.ruleId = assetRule then
      match entry.evaluation.target.pageType with
      | none => .error .referenceInvalid
      | some pageType => .ok [(.pageType, pageType.text)]
    else .ok []
  let gbpFields ←
    if entry.finding.ruleId ∈ hoursRule :: gbpRules then
      match (ruleAction entry.finding.ruleId).bind (·.gbpField) with
      | none => .error .referenceInvalid
      | some field => .ok [(.gbpField, field)]
    else .ok []
  return entry.finding.affectedUrls.map (.url, ·) ++
    entry.finding.affectedQueries.map (.query, ·) ++ pageTypes ++ gbpFields

def targetSortKey (target : ActionTarget) : ℕ ×ₗ String :=
  toLex (target.kind.order, target.value)

/-- The targets of the references, each with the findings that refer to it. -/
def groupedTargets (references : List ((ActionTargetKind × String) × String)) :
    List ActionTarget :=
  (references.map Prod.fst).dedup.map fun key => {
    kind := key.1
    value := key.2
    findingIds := sortedSet ((references.filter (·.1 = key)).map Prod.snd) }

/-- `_build_targets`. -/
def buildTargets (template : ActionTemplate) (entries : List Entry) (siteUrl : HttpUrl) :
    Except ActionErrorKind (List ActionTarget) := do
  let own ← entries.mapM fun entry => do
    let references ← entryReferences entry
    return references.map (·, entry.finding.findingId)
  let site :=
    if template.key = "review_market_visibility" then
      entries.map fun entry => ((ActionTargetKind.site, siteUrl), entry.finding.findingId)
    else []
  let targets := groupedTargets (own.flatten ++ site)
  if targets = [] ∨ ∃ target ∈ targets, ¬ target.Valid then .error .referenceInvalid
  else .ok (sortedBy targetSortKey targets)

/-- The priority of `_candidate_priority`, by the anchor of the candidate. -/
def candidatePriority (anchor : Finding) (findings : List Finding) : ActionPriority where
  severityRank := anchor.severity.rank
  confidenceRank := anchor.confidence.rank
  classificationRank := anchor.classification.rank
  impactScope := min (findings.flatMap (·.affectedUrls)).dedup.length 5 +
    min (findings.flatMap (·.affectedQueries)).dedup.length 5 + min findings.length 5

def targetIdentity (targets : List ActionTarget) : Json :=
  .array (targets.map fun target => .object [
    ("kind", .string target.kind.text), ("value", .string target.value)])

/-- The digits of `_action_identity`. -/
def actionDigest (hash : Hash) (template : ActionTemplate) (targets : List ActionTarget) :
    List Char :=
  (hexdigest (hash (.object [
    ("catalog_version", .string actionCatalogVersion), ("template_key", .string template.key),
    ("template_version", .string template.version),
    ("targets", targetIdentity targets)]))).take 12

def candidateActionId (template : ActionTemplate) (digest : List Char) : String :=
  .ofList ("ac_".toList ++ template.idSlug.toList ++ '_' :: digest)

def candidateKey (digest : List Char) : String := .ofList ("candidate-".toList ++ digest)

/-- `_candidate_sort_key`. -/
def candidateSortKey (candidate : Candidate) :
    ℤ ×ₗ ℤ ×ₗ ℤ ×ₗ ℤ ×ₗ ℕ ×ₗ List Char ×ₗ String :=
  toLex (-candidate.priority.severityRank, toLex (-candidate.priority.confidenceRank,
    toLex (-candidate.priority.classificationRank, toLex (-candidate.priority.impactScope,
      toLex (candidate.template.order, toLex (canonicalText (targetIdentity candidate.targets),
        candidate.actionId))))))

/-- What `_build_candidates` makes of a group of entries. -/
def buildCandidate (env : Environment) (result : PublicFindingsResult)
    (limits : PublicActionLimits) (template : ActionTemplate) (entries : List Entry) :
    Except ActionErrorKind Candidate :=
  if limits.maxFindingsPerAction < entries.length then .error .limitExceeded
  else do
    let targets ← buildTargets template entries result.siteRollup.siteUrl
    let findings := entries.map (·.finding)
    let actualSources := (findings.flatMap result.referenced).map (·.sourceType)
    let digest := actionDigest env.hash template targets
    if limits.maxTargetsPerAction < targets.length then .error .limitExceeded
    else if actualSources = [] ∨ ¬ actualSources ⊆ template.allowedSourceTypes then
      .error .referenceInvalid
    else
      match sortedBy findingRank findings with
      | [] => .error .referenceInvalid
      | anchor :: _ =>
          .ok {
            template
            entries
            targets
            actionId := candidateActionId template digest
            candidateKey := candidateKey digest
            anchor
            priority := candidatePriority anchor findings
            dataSources := sourceOrder.filter (· ∈ actualSources) }

/-- `_build_candidates`. -/
def buildCandidates (env : Environment) (result : PublicFindingsResult)
    (entries : List Entry) (limits : PublicActionLimits) :
    Except ActionErrorKind (List Candidate) := do
  let keyed ← (sortedBy (·.finding.findingId) entries).mapM fun entry => do
    let group ← groupKey entry
    return (group, entry)
  let groups := sortedSet (keyed.map (·.1.1))
  if limits.maxCandidates < groups.length then .error .limitExceeded
  else
    let candidates ← groups.mapM fun group =>
      let members := keyed.filter (·.1.1 = group)
      match members with
      | [] => .error .referenceInvalid
      | first :: _ => buildCandidate env result limits first.1.2 (members.map Prod.snd)
    if ¬ (candidates.map (·.actionId)).Nodup then .error .idConflict
    else .ok (sortedBy candidateSortKey candidates)

end Candidates

section Dependencies

/-- `_url_targets`. -/
def urlTargets (candidate : Candidate) : List HttpUrl :=
  (candidate.targets.filter (·.kind = .url)).map (·.value)

/-- A candidate waits for the recovery of the pages or of the host that it is about. -/
def dependsOnRecovery (env : Environment) (siteUrl : HttpUrl) (recovery candidate : Candidate) :
    Bool :=
  let recoveryUrls := urlTargets recovery
  decide (candidate.actionId ≠ recovery.actionId) &&
    (decide (candidate.template.key = "differentiate_page_titles" ∧
        ∃ url ∈ urlTargets candidate, url ∈ recoveryUrls) ||
      decide (candidate.template.key = "review_market_visibility" ∧
        host env siteUrl ∈ recoveryUrls.map (host env)))

/-- `_add_dependencies`. -/
def addDependencies (env : Environment) (selected : List Candidate) (siteUrl : HttpUrl) :
    List Candidate :=
  match selected.find? fun item => item.template.key = "restore_site_access_indexing" with
  | none => selected
  | some recovery =>
      selected.map fun candidate =>
        if dependsOnRecovery env siteUrl recovery candidate then
          { candidate with dependencies := candidate.dependencies ++ [recovery.actionId] }
        else candidate

/-- A turn of `_topological_order`. -/
def nextCandidate (selected ordered : List Candidate) : Except ActionErrorKind Candidate :=
  let completed := ordered.map (·.actionId)
  let available := selected.filter fun item =>
    item.actionId ∉ completed ∧ item.dependencies ⊆ completed
  match sortedBy candidateSortKey available with
  | [] => .error .dependencyInvalid
  | current :: _ =>
      if current.actionId ∈ current.dependencies ∨
          ¬ current.dependencies ⊆ selected.map (·.actionId) then .error .dependencyInvalid
      else .ok current

/-- `_topological_order`: a turn for every item. -/
def topologicalOrder (selected : List Candidate) : Except ActionErrorKind (List Candidate) :=
  if ¬ (selected.map (·.actionId)).Nodup then .error .idConflict
  else schedule (nextCandidate selected) selected.length

end Dependencies

section Plans

/-- The template keeps to the limits of the request. -/
def templateFits (template : ActionTemplate) (limits : PublicActionLimits) : Bool :=
  decide (template.steps.length ≤ limits.maxStepsPerAction) &&
    decide (max template.contentRequirements.length
      (max template.gbpRequirements.length template.technicalRequirements.length) ≤
        limits.maxRequirementsPerGroup) &&
    decide (template.requiredClientAssets.length ≤ limits.maxAssetsPerAction) &&
    decide (1 ≤ limits.maxMetricsPerAction)

def implementationSteps (steps : List (String × String)) : List ImplementationStep :=
  steps.zipIdx.map fun (step, position) => ⟨position + 1, step.1, step.2⟩

/-- The action that `_build_action` makes of a candidate. -/
def actionSkeleton (candidate : Candidate) (sequence : ℕ) (reviewDate : Date) :
    ActionSkeleton where
  actionId := candidate.actionId
  sequence := sequence
  findingIds := candidate.findingIds
  templateKey := candidate.template.key
  templateVersion := candidate.template.version
  exactTargets := candidate.targets
  implementationSteps := implementationSteps candidate.template.steps
  specification := {
    contentRequirements := candidate.template.contentRequirements
    gbpRequirements := candidate.template.gbpRequirements
    technicalRequirements := candidate.template.technicalRequirements }
  requiredClientAssets := candidate.template.requiredClientAssets
  dependencies := sortedSet candidate.dependencies
  ownerSuggestion := candidate.template.ownerSuggestion
  effortBucket := candidate.template.effortBucket
  definitionOfDone := candidate.template.definitionOfDone
  validationMetrics := [{
    metricKey := candidate.template.metricKey
    baseline := candidate.template.metricBaseline
    successCondition := candidate.template.metricSuccessCondition
    sourceTypes := sourceOrder.filter fun source =>
      source ∈ candidate.dataSources ∧ source ∈ candidate.template.allowedSourceTypes }]
  dataSources := candidate.dataSources
  reviewDate := reviewDate
  copyRequirements := {
    findingIds := candidate.findingIds
    allowedFactFields := candidate.template.copyAllowedFactFields
    requiredLimitations := candidate.template.copyRequiredLimitations }

/-- `_build_action`; a metric without a source is no valid one. -/
def buildAction (candidate : Candidate) (sequence : ℕ) (reviewDate : Date)
    (limits : PublicActionLimits) : Except ActionErrorKind ActionSkeleton :=
  let action := actionSkeleton candidate sequence reviewDate
  if ¬ templateFits candidate.template limits then .error .limitExceeded
  else if ¬ action.Valid then .error .referenceInvalid
  else .ok action

/-- The actions in their order, with a review every thirty days. -/
def buildActions (planningDate : Date) (limits : PublicActionLimits) :
    ℕ → List Candidate → Except ActionErrorKind (List ActionSkeleton)
  | _, [] => .ok []
  | sequence, candidate :: rest =>
      match addDays planningDate (30 * sequence) with
      | none => .error .dateInvalid
      | some reviewDate => do
          let action ← buildAction candidate sequence reviewDate limits
          let actions ← buildActions planningDate limits (sequence + 1) rest
          return action :: actions

def selectionAudit (selectedIds : List String) (candidate : Candidate) :
    ActionSelectionAudit where
  candidateKey := candidate.candidateKey
  actionId := candidate.actionId
  templateKey := candidate.template.key
  anchorFindingId := candidate.anchor.findingId
  findingIds := candidate.findingIds
  priority := candidate.priority
  selectionState := if candidate.actionId ∈ selectedIds then .selected else .unselected

/-- `build_public_action_plan` of a valid request. -/
def buildPublicActionPlan (env : Environment) (findingsResult : PublicFindingsResult)
    (planningDate : Date) (limits : PublicActionLimits) :
    Except ActionErrorKind PublicActionPlan := do
  let result := canonicalPublicFindings findingsResult
  let entries ← validatedReferences result limits.maxFindings
  let candidates ← buildCandidates env result entries limits
  if candidates.length < 3 then .error .insufficientActionableFindings
  else if limits.maxAuditEntries < candidates.length then .error .limitExceeded
  else
    let selected := addDependencies env (candidates.take 3) result.siteRollup.siteUrl
    let ordered ← topologicalOrder selected
    let actions ← buildActions planningDate limits 1 ordered
    let selectedIds := selected.map (·.actionId)
    let selectedFindings := selected.flatMap (·.findingIds)
    let plan : PublicActionPlan := {
      planningDate
      findingsChecksum := requestDigest env.hash result.json
      actions
      selectionAudit := candidates.map (selectionAudit selectedIds)
      unselectedFindingIds := sortedSet
        ((entries.map (·.finding.findingId)).filter (· ∉ selectedFindings)) }
    if ¬ plan.Valid then .error .referenceInvalid
    else if limits.maxBytes < jsonSize plan.json then .error .limitExceeded
    else .ok plan

end Plans

end SearchTrust.Report
