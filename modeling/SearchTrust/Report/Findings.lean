/-
The findings of the public rules with the evidence that they refer to.  The fields of
a record that nothing reads are kept as the rest of its JSON object.
-/
import Mathlib.Data.Prod.Lex
import SearchTrust.Report.CanonicalText
import SearchTrust.Report.Models

namespace SearchTrust.Report

open SearchTrust.Jobs (Json)
open SearchTrust.Order

abbrev Fields := List (String × Json)

/-- A field that may be `None`. -/
def optionalText : Option String → Json
  | some value => .string value
  | none => .null

section Evidence

inductive HealthStatus where
  | notChecked
  | healthy
  | unhealthy
  | unavailable
  | expired
  | error
deriving DecidableEq, Repr

def HealthStatus.text : HealthStatus → String
  | notChecked => "not_checked"
  | healthy => "healthy"
  | unhealthy => "unhealthy"
  | unavailable => "unavailable"
  | expired => "expired"
  | error => "error"

structure SourceLocator where
  url : Option HttpUrl
  query : Option String
  rest : Fields

structure EvidenceItem where
  evidenceId : String
  snapshotId : String
  sourceType : SourceType
  sourceLocator : SourceLocator
  normalizedValue : Json
  healthStatus : HealthStatus
  rest : Fields

structure EvidenceSourceTrace where
  evidenceId : String
  rest : Fields

structure EvidenceSourceSummary where
  snapshotId : String
  rest : Fields

/-- `EvidenceBuildResult`; a coverage gap is kept as its JSON. -/
structure EvidenceBuildResult where
  evidenceIndex : List EvidenceItem
  sourceTraces : List EvidenceSourceTrace
  sourceSummaries : List EvidenceSourceSummary
  coverageGaps : List Json

def SourceLocator.json (locator : SourceLocator) : Json := .object
  ([("url", optionalText locator.url), ("query", optionalText locator.query)] ++ locator.rest)

def EvidenceItem.json (item : EvidenceItem) : Json := .object
  ([("evidence_id", .string item.evidenceId), ("snapshot_id", .string item.snapshotId),
    ("source_type", .string item.sourceType.text),
    ("source_locator", item.sourceLocator.json),
    ("normalized_value", item.normalizedValue),
    ("health_status", .string item.healthStatus.text)] ++ item.rest)

def EvidenceSourceTrace.json (trace : EvidenceSourceTrace) : Json :=
  .object (("evidence_id", .string trace.evidenceId) :: trace.rest)

def EvidenceSourceSummary.json (summary : EvidenceSourceSummary) : Json :=
  .object (("snapshot_id", .string summary.snapshotId) :: summary.rest)

def EvidenceBuildResult.json (result : EvidenceBuildResult) : Json := .object [
  ("evidence_index", .array (result.evidenceIndex.map EvidenceItem.json)),
  ("source_traces", .array (result.sourceTraces.map EvidenceSourceTrace.json)),
  ("source_summaries", .array (result.sourceSummaries.map EvidenceSourceSummary.json)),
  ("coverage_gaps", .array result.coverageGaps)]

end Evidence

section Rules

inductive SitePageType where
  | home
  | serviceIndex
  | serviceDetail
  | serviceArea
  | location
  | about
  | contact
  | team
  | reviewTestimonial
  | caseStudyPortfolio
  | faq
  | blogIndex
  | blogPost
  | productCategory
  | productDetail
  | legal
  | other
deriving DecidableEq, Repr

def SitePageType.text : SitePageType → String
  | home => "home"
  | serviceIndex => "service_index"
  | serviceDetail => "service_detail"
  | serviceArea => "service_area"
  | location => "location"
  | about => "about"
  | contact => "contact"
  | team => "team"
  | reviewTestimonial => "review_testimonial"
  | caseStudyPortfolio => "case_study_portfolio"
  | faq => "faq"
  | blogIndex => "blog_index"
  | blogPost => "blog_post"
  | productCategory => "product_category"
  | productDetail => "product_detail"
  | legal => "legal"
  | other => "other"

inductive EvaluationState where
  | triggered
  | notTriggered
  | notChecked
deriving DecidableEq, Repr

def EvaluationState.text : EvaluationState → String
  | triggered => "triggered"
  | notTriggered => "not_triggered"
  | notChecked => "not_checked"

structure RuleTarget where
  urls : List HttpUrl
  query : Option String
  pageType : Option SitePageType
  rest : Fields

structure RuleEvaluation where
  ruleId : String
  ruleVersion : String
  target : RuleTarget
  state : EvaluationState
  evidenceIds : List String
  comparatorIds : List String
  findingId : Option String
  rest : Fields

structure FindingsRollup where
  siteUrl : HttpUrl
  pageType : Option SitePageType
  findingIds : List String
  rest : Fields

def optionalPageType (pageType : Option SitePageType) : Json :=
  optionalText (pageType.map SitePageType.text)

def RuleTarget.json (target : RuleTarget) : Json := .object
  ([("urls", texts target.urls), ("query", optionalText target.query),
    ("page_type", optionalPageType target.pageType)] ++ target.rest)

def RuleEvaluation.json (evaluation : RuleEvaluation) : Json := .object
  ([("rule_id", .string evaluation.ruleId), ("rule_version", .string evaluation.ruleVersion),
    ("target", evaluation.target.json), ("state", .string evaluation.state.text),
    ("evidence_ids", texts evaluation.evidenceIds),
    ("comparator_ids", texts evaluation.comparatorIds),
    ("finding_id", optionalText evaluation.findingId)] ++ evaluation.rest)

def FindingsRollup.json (rollup : FindingsRollup) : Json := .object
  ([("site_url", .string rollup.siteUrl), ("page_type", optionalPageType rollup.pageType),
    ("finding_ids", texts rollup.findingIds)] ++ rollup.rest)

def Finding.json (finding : Finding) : Json := .object [
  ("finding_id", .string finding.findingId), ("statement", .string finding.statement),
  ("evidence_ids", texts finding.evidenceIds),
  ("comparator_ids", texts finding.comparatorIds), ("rule_id", .string finding.ruleId),
  ("rule_version", .string finding.ruleVersion),
  ("classification", .string finding.classification.text),
  ("severity", .string finding.severity.text), ("scope", .string finding.scope),
  ("confidence", .string finding.confidence.text),
  ("affected_urls", texts finding.affectedUrls),
  ("affected_queries", texts finding.affectedQueries),
  ("missing_data", texts finding.missingData),
  ("change_conditions", texts finding.changeConditions)]

/-- The bounds of `Finding`. -/
structure Finding.Valid (finding : Finding) : Prop where
  findingId : isFindingId finding.findingId
  statement : finding.statement ≠ ""
  evidenceIds : finding.evidenceIds ≠ []
  ruleId : lengthWithin 1 120 finding.ruleId
  ruleVersion : lengthWithin 1 64 finding.ruleVersion
  scope : lengthWithin 1 240 finding.scope

end Rules

section Results

/-- `PublicFindingsResult`; the version of its rules is a literal. -/
structure PublicFindingsResult where
  evidenceResult : EvidenceBuildResult
  findings : List Finding
  ruleEvaluations : List RuleEvaluation
  siteRollup : FindingsRollup
  clusterRollups : List FindingsRollup

def PublicFindingsResult.json (result : PublicFindingsResult) : Json := .object [
  ("ruleset_version", .string "v22_public_findings_v1"),
  ("evidence_result", result.evidenceResult.json),
  ("findings", .array (result.findings.map Finding.json)),
  ("rule_evaluations", .array (result.ruleEvaluations.map RuleEvaluation.json)),
  ("site_rollup", result.siteRollup.json),
  ("cluster_rollups", .array (result.clusterRollups.map FindingsRollup.json))]

def canonicalEvidence (evidence : EvidenceBuildResult) : EvidenceBuildResult where
  evidenceIndex := sortedBy (·.evidenceId) evidence.evidenceIndex
  sourceTraces := sortedBy (·.evidenceId) evidence.sourceTraces
  sourceSummaries := sortedBy (·.snapshotId) evidence.sourceSummaries
  coverageGaps := sortedBy canonicalText evidence.coverageGaps

/-- `page_type or ""` and the encoding of a rollup. -/
def rollupKey (rollup : FindingsRollup) : String ×ₗ List Char :=
  toLex ((rollup.pageType.map SitePageType.text).getD "", canonicalText rollup.json)

/-- `canonical_public_findings`. -/
def canonicalPublicFindings (value : PublicFindingsResult) : PublicFindingsResult where
  evidenceResult := canonicalEvidence value.evidenceResult
  findings := sortedBy (·.findingId) value.findings
  ruleEvaluations := sortedBy (fun item => canonicalText item.json) value.ruleEvaluations
  siteRollup := value.siteRollup
  clusterRollups := sortedBy rollupKey value.clusterRollups

theorem mem_findings_canonicalPublicFindings {value : PublicFindingsResult}
    {finding : Finding} :
    finding ∈ (canonicalPublicFindings value).findings ↔ finding ∈ value.findings :=
  mem_sortedBy

end Results

end SearchTrust.Report
