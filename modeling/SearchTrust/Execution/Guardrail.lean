/-
`_guardrail`: the verified metric that guards an action of the execution plan.  Texts of
the models are taken as they are stored, without white space around them.
-/
import Mathlib.Data.Prod.Lex
import Mathlib.Data.String.Basic
import SearchTrust.Order.Sorting
import SearchTrust.Report.Models

namespace SearchTrust.Execution

open SearchTrust.Order
open SearchTrust.Report (SourceType)

inductive RelationKind where
  | supports
  | reducesUrgency
  | measurementConflict
  | unmatched
deriving DecidableEq

inductive FindingOrigin where
  | publicFindings
  | firstPartyFindings
  | crossSourceFindings
deriving DecidableEq

inductive TargetKind where
  | aggregate
  | query
  | page
  | landingPage
  | profile
  | searchDemand
  | coverage
  | weeklySeries
deriving DecidableEq

/-- `QualifiedFindingRef` -/
structure FindingRef where
  originStage : FindingOrigin
  rulesetVersion : String
  findingId : String
deriving DecidableEq

/-- What is read of a `FindingRelation`. -/
structure FindingRelation where
  relationId : String
  findingRef : FindingRef
  relationKind : RelationKind
deriving DecidableEq

/-- What is read of a rule evaluation of either source. -/
structure RuleEvaluation where
  findingId : Option String
  targetKind : TargetKind
  evidenceIds : List String
  comparatorIds : List String
deriving DecidableEq

/-- `ScalarValue`; a float by what Python writes for it. -/
inductive ScalarValue where
  | str (value : String)
  | int (value : ℤ)
  | float (written : String)
  | bool (value : Bool)
  | null
deriving DecidableEq

/-- The value in a formatted string. -/
def ScalarValue.text : ScalarValue → String
  | str value => value
  | int value => toString value
  | float written => written
  | bool true => "True"
  | bool false => "False"
  | null => "None"

/-- What is read of an `EvidenceItem`. -/
structure EvidenceItem where
  sourceType : SourceType
  normalizedValue : ScalarValue
deriving DecidableEq

/-- What is read of a `ProviderRequestContext`. -/
structure RequestContext where
  startDate : Option String
  endDate : Option String
deriving DecidableEq

/-- What is read of an `EvidenceSourceTrace` and its selector. -/
structure SourceTrace where
  evidenceId : String
  field : String
  requestContext : Option RequestContext
deriving DecidableEq

inductive MetricRole where
  | primary
  | guardrail
deriving DecidableEq

inductive BaselineKind where
  | exactValue
  | band
  | structuralState
  | sourceReadiness
deriving DecidableEq

inductive MetricEvaluator where
  | ruleNoLongerTriggers
  | sampleFloorPreserved
  | bandNotWorse
  | sourceReady
  | comparisonConflictCleared
deriving DecidableEq

structure ExecutionMetric where
  metricKey : String
  role : MetricRole
  baselineKind : BaselineKind
  baseline : String
  successCondition : String
  sourceTypes : List SourceType
  evidenceIds : List String
  comparatorIds : List String
  findingRefs : List FindingRef
  minimumSample : Option String
  evaluator : MetricEvaluator
  limitations : List String
deriving DecidableEq

/-- What leaves the function besides a result. -/
inductive GuardrailError where
  | attributeError
  | keyError
  | validationError
deriving DecidableEq

section Indexes

/-- The results of one stage: its origin, its evaluations and its traces. -/
structure StageResult where
  origin : FindingOrigin
  ruleEvaluations : List RuleEvaluation
  sourceTraces : List SourceTrace

/-- `_evaluation_indexes`: an entry that is written later replaces an earlier one. -/
def evaluationIndex (results : List StageResult) (key : FindingOrigin × String) :
    Option RuleEvaluation :=
  (results.flatMap fun result => result.ruleEvaluations.filterMap fun evaluation =>
    evaluation.findingId.map fun findingId => ((result.origin, findingId), evaluation)).reverse.find?
      (fun entry => entry.1 = key) |>.map Prod.snd

def traceIndex (results : List StageResult) (evidenceId : String) : Option SourceTrace :=
  (results.flatMap fun result => result.sourceTraces).reverse.find?
    fun trace => trace.evidenceId = evidenceId

end Indexes

/-- The validators of `ExecutionMetric`; `none` is a `ValidationError`. -/
def ExecutionMetric.validated (metric : ExecutionMetric) : Option ExecutionMetric :=
  let key := metric.metricKey.toList
  let canonical := { metric with
    evidenceIds := sortedSet metric.evidenceIds
    comparatorIds := sortedSet metric.comparatorIds
    limitations := sortedSet metric.limitations }
  if 2 ≤ key.length ∧ key.length ≤ 120 ∧ key.head?.any (fun c => 'a' ≤ c ∧ c ≤ 'z') ∧
      key.tail.all (fun c => ('a' ≤ c ∧ c ≤ 'z') ∨ ('0' ≤ c ∧ c ≤ '9') ∨ c = '_') ∧
      1 ≤ metric.baseline.length ∧ metric.baseline.length ≤ 240 ∧
      1 ≤ metric.successCondition.length ∧ metric.successCondition.length ≤ 500 ∧
      1 ≤ metric.sourceTypes.length ∧ metric.sourceTypes.length ≤ 8 ∧
      metric.evidenceIds.length ≤ 10000 ∧ metric.comparatorIds.length ≤ 10000 ∧
      metric.findingRefs.length ≤ 1000 ∧
      (metric.minimumSample.all fun sample => sample.length ≤ 240) ∧
      metric.limitations.length ≤ 40 ∧
      (∀ evidenceId ∈ metric.evidenceIds, evidenceId ∉ metric.comparatorIds) ∧
      (metric.baselineKind = .exactValue ∨ metric.baselineKind = .band →
        metric.evidenceIds ≠ []) ∧
      (metric.role = .guardrail →
        metric.evaluator = .sampleFloorPreserved ∨ metric.evaluator = .bandNotWorse) then
    some canonical
  else none

section Selection

variable (evaluations : FindingOrigin × String → Option RuleEvaluation)
  (evidence : String → Option EvidenceItem) (traces : String → Option SourceTrace)

/-- The priority of an observed field. -/
def fieldPriority (source : SourceType) (field : String) : ℕ :=
  match source, field with
  | .gsc, "impressions" => 0
  | .ga4, "sessions" => 0
  | .gbp, "change_band" => 0
  | .gbp, "demand_band" => 1
  | .gsc, "clicks" => 2
  | _, _ => 10

/-- The window of a trace, as the baseline writes it. -/
def coverageText (trace : SourceTrace) : String :=
  match trace.requestContext with
  | some ⟨some startDate, some endDate⟩ =>
      if startDate ≠ "" ∧ endDate ≠ "" then "; window=" ++ startDate ++ ".." ++ endDate else ""
  | _ => ""

/-- A candidate: its priority, its evidence id and its field. -/
abbrev Candidate := ℕ × String × String

def candidateOf (evidenceId : String) : Option Candidate :=
  match evidence evidenceId, traces evidenceId with
  | some item, some trace => some (fieldPriority item.sourceType trace.field, evidenceId, trace.field)
  | _, _ => none

/-- The loop over the evidence ids: the candidates, and what the variable `trace` holds
behind it. -/
def collectCandidates (evidenceIds : List String) : List Candidate × Option SourceTrace :=
  evidenceIds.foldl (fun state evidenceId =>
    (state.1 ++ (candidateOf evidence traces evidenceId).toList, traces evidenceId)) ([], none)

/-- The order of the candidates as tuples. -/
def candidateKey (candidate : Candidate) : ℕ ×ₗ (String ×ₗ String) :=
  toLex (candidate.1, toLex candidate.2)

/-- The field in a sentence. -/
def spaced (field : String) : String := field.map fun c => if c = '_' then ' ' else c

def minimumSample (source : SourceType) (field : String) (targetKind : TargetKind) : String :=
  if source = .gbp then "Preserve the same bound public target and comparable observation basis."
  else if source = .ga4 then
    "At least 20 sessions on the same bound target and comparable time basis."
  else if field = "clicks" then "At least 10 previous-period clicks on the same bound target."
  else if targetKind = .page then
    "At least 100 current-period impressions on the same bound page."
  else "At least 50 current-period impressions on the same bound query."

/-- The comparators that have a trace and, except for GBP, show the same field. -/
def comparatorsOf (evaluation : RuleEvaluation) (selectedId field : String)
    (source : SourceType) : List String :=
  evaluation.comparatorIds.filter fun key =>
    decide (key ≠ selectedId) && (traces key).any fun trace =>
      decide (source = .gbp) || decide (trace.field = field)

/-- The metric before its validation, with a window text. -/
def rawMetric (relation : FindingRelation) (evaluation : RuleEvaluation) (selectedId : String)
    (selected : EvidenceItem) (field window : String) : ExecutionMetric where
  metricKey := "verified_" ++ selected.sourceType.text ++ "_" ++ field
  role := .guardrail
  baselineKind := if selected.sourceType = .gbp then .band else .exactValue
  baseline := field ++ "=" ++ selected.normalizedValue.text ++ window
  successCondition :=
    if selected.sourceType = .gbp then
      "The verified " ++ spaced field ++ " band is not worse at the next review."
    else "Preserve the verified " ++ spaced field ++
      " sample floor while evaluating the primary action rule."
  sourceTypes := [selected.sourceType]
  evidenceIds := [selectedId]
  comparatorIds := comparatorsOf traces evaluation selectedId field selected.sourceType
  findingRefs := [relation.findingRef]
  minimumSample := some (minimumSample selected.sourceType field evaluation.targetKind)
  evaluator := if selected.sourceType = .gbp then .bandNotWorse else .sampleFloorPreserved
  limitations := ["This verified guardrail controls the evaluation sample; " ++
    "it is not an attribution or forecast."]

/-- A metric, the relations that it uses and the reason. -/
abbrev GuardrailResult := Option ExecutionMetric × List String × String

/-- What the loop does with one relation; `none` is `continue`. -/
def guardrailStep (relation : FindingRelation) : Option (Except GuardrailError GuardrailResult) :=
  if relation.relationKind ≠ .supports ∧ relation.relationKind ≠ .reducesUrgency then none
  else
    match evaluations (relation.findingRef.originStage, relation.findingRef.findingId) with
    | none => none
    | some evaluation =>
        let (candidates, last) := collectCandidates evidence traces evaluation.evidenceIds
        match sortedBy candidateKey candidates with
        | [] => none
        | (_, selectedId, field) :: _ => some (
            match evidence selectedId, last with
            | none, _ => .error .keyError
            -- behind the loop the variable belongs to the last evidence id
            | some _, none => .error .attributeError
            | some selected, some trace =>
                match (rawMetric traces relation evaluation selectedId selected field
                    (coverageText trace)).validated with
                | none => .error .validationError
                | some metric => .ok (some metric, [relation.relationId], "VERIFIED_TARGET_RELATION"))

/-- The loop over the relations of an action. -/
def guardrailFrom : List FindingRelation → Except GuardrailError GuardrailResult
  | [] => .ok (none, [], "NO_TARGET_BOUND_VERIFIED_GUARDRAIL")
  | relation :: rest =>
      match guardrailStep evaluations evidence traces relation with
      | some result => result
      | none => guardrailFrom rest

/-- `_guardrail`, with the relation ids of the ranked action. -/
def guardrail (relationIds : List String) (relations : String → Option FindingRelation) :
    Except GuardrailError GuardrailResult :=
  guardrailFrom evaluations evidence traces (relationIds.filterMap relations)

end Selection

end SearchTrust.Execution
