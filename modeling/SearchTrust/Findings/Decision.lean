/-
The lookup of evidence by its places, and the outcome that a market rule decides on.
-/
import SearchTrust.Findings.SerpEvidence
import SearchTrust.Report.Findings

namespace SearchTrust.Findings

open SearchTrust.Market (SearchDevice SerpMarketResultRecord SerpResultType)
open SearchTrust.Order
open SearchTrust.Report (Confidence EvaluationState FactClassification Finding Severity)

section Context

/-- `TargetMarket`, as far as the rules read it. -/
structure TargetMarket where
  latitude : Option ℚ
  longitude : Option ℚ
  countryCode : String
  city : Option String
  region : Option String

/-- `ConfirmedCompetitor`, as far as the rules read it. -/
structure ConfirmedCompetitor where
  competitorId : String
  websiteUrl : String
deriving DecidableEq

/-- `EvidenceBuildContext`, as far as the rules read it. -/
structure MarketContext where
  caseId : String
  siteUrl : String
  competitors : List ConfirmedCompetitor
  targetMarket : TargetMarket
  queries : List String
  searchLanguage : String
  searchDevice : SearchDevice

end Context

section Lookup

/-- `EvidenceView`, of the evidence of a SERP source. -/
structure EvidenceView where
  source : Option SerpSource
  observed : List (Path × Observation)
  items : List (String × Observation)

inductive FindingsError where
  | inputInvalid
  | referenceInvalid
deriving DecidableEq

/-- The id of an observation in the index, unless it is a gap. -/
def EvidenceView.isEvidence (view : EvidenceView) (key : String) : Bool :=
  (view.items.lookup key).any (·.sourceType ≠ .coverage)

variable (evidenceId : Observation → String) (view : EvidenceView)

/-- `refs(path)`. -/
def EvidenceView.refs (path : Path) : List String :=
  sortedSet (((view.observed.filter (·.1 = path)).map fun entry => evidenceId entry.2).filter
    view.isEvidence)

/-- `refs(path, required=True)`. -/
def EvidenceView.requiredRefs (path : Path) : Except FindingsError (List String) :=
  if view.refs evidenceId path = [] then .error .referenceInvalid
  else .ok (view.refs evidenceId path)

/-- The evidence at places below a path. -/
def EvidenceView.descendants (path : Path) : List String :=
  (view.observed.filter fun entry => path ≠ [] && path.isPrefixOf entry.1 && entry.1 ≠ path &&
    entry.2.sourceType ≠ .coverage).map fun entry => evidenceId entry.2

/-- `field_refs(prefix, *fields)`. -/
def EvidenceView.fieldRefs (base : Path) (fields : List String) : List String :=
  sortedSet (fields.flatMap fun field =>
    view.refs evidenceId (base ++ [.field field]) ++
      view.descendants evidenceId (base ++ [.field field]))

end Lookup

section Notes

/-- `LIMITATIONS_OVERFLOW`. -/
def limitationsOverflow : String :=
  "Additional limitations are retained in the internal source summary."

/-- `limited`. -/
def limited (notes : List String) : List String :=
  let notes := sortedSet notes
  if notes.length ≤ 20 then notes else notes.take 19 ++ [limitationsOverflow]

/-- The limitations of the summary of a source. -/
def summaryLimitations (source : SerpSource) : List String :=
  sortedSet (source.payload.limitations ++ source.payload.queryRuns.flatMap (·.limitations))

/-- What `notes` reads of one piece of evidence. -/
def EvidenceView.notesOf (view : EvidenceView) (key : String) :
    Except FindingsError (List String) :=
  match view.items.lookup key with
  | none => .error .referenceInvalid
  | some item => .ok (limited item.limitations ++
      (view.source.map summaryLimitations).getD [])

/-- `notes(identifiers)`. -/
def EvidenceView.notes (view : EvidenceView) (identifiers : List String) :
    Except FindingsError (List String) :=
  (identifiers.mapM view.notesOf).map fun notes => sortedSet notes.flatten

end Notes

section Decisions

inductive MarketRule where
  | domain
  | ahead
deriving DecidableEq

/-- `DOMAIN` and `AHEAD`. -/
def MarketRule.id : MarketRule → String
  | domain => "v22_public.market_site_domain_unobserved"
  | ahead => "v22_public.market_confirmed_competitors_ahead"

/-- `RULE_VERSION`. -/
def ruleVersion : String := "1.0.0"

/-- `RuleSpec`. -/
structure RuleSpec where
  classification : FactClassification
  severity : Severity
  confidence : Confidence
  changeCondition : String

/-- `RULES`, of the market rules. -/
def MarketRule.spec : MarketRule → RuleSpec
  | domain => ⟨.fact, .low, .low, "Repeat the confirmed query in the same location, device and " ++
      "result type, with URL-bearing results."⟩
  | ahead => ⟨.fact, .medium, .medium, "Obtain new comparable positions for the client and " ++
      "confirmed competitor domains in the same search context."⟩

/-- `RuleTarget`, of the kind `market`. -/
structure RuleTarget where
  query : String
  resultType : SerpResultType
  snapshotId : Option String
  latitude : Option ℚ
  longitude : Option ℚ
  countryCode : String
  language : String
  device : SearchDevice
  competitorIds : List String
deriving DecidableEq

/-- The reasons of the market rules. -/
inductive EvaluationReason where
  | conditionMet
  | conditionNotMet
  | sourceMissing
  | sourceIneligible
  | insufficientSample
  | identityUnresolved
  | rankBasisMismatch
  | sampleNotLocal
deriving DecidableEq

/-- `RuleEvaluation`. -/
structure RuleEvaluation where
  rule : MarketRule
  target : RuleTarget
  state : EvaluationState
  reason : EvaluationReason
  evidenceIds : List String
  comparatorIds : List String
  findingId : Option String
  limitations : List String
deriving DecidableEq

/-- `RuleOutcome`. -/
structure RuleOutcome where
  evaluation : RuleEvaluation
  finding : Option Finding
deriving DecidableEq

/-- The libraries of the market rules. -/
structure FindingsLibrary where
  /-- `host(url)`. -/
  host : String → String
  /-- `evidence_id(observation)`. -/
  evidenceId : Observation → String
  /-- `finding_id(...)`. -/
  findingId : String → MarketRule → RuleTarget → List String → List String → String
  /-- `stable_key(target)[:24]`. -/
  targetKey : RuleTarget → String
  /-- `repr(text)`. -/
  repr : String → String
  /-- `unicodedata.normalize("NFKC", text).casefold()`. -/
  folded : String → List Char
  /-- The characters of `\w`. -/
  isWord : Char → Bool
  /-- `canonical_url(url)`. -/
  canonicalUrl : String → String
  /-- The state of `classify_record`, and the places of its signals. -/
  classifyRecord : TargetMarket → SerpMarketResultRecord → String × List (String × String)

/-- `SAMPLE_NOTE`. -/
def sampleNote : String :=
  "These observations concern the saved sample only, not complete site or market coverage."

def confidenceOrder : Confidence → ℕ
  | .low => 0
  | .medium => 1
  | .high => 2

/-- The least of some confidences, the first of equal ones. -/
def leastConfidence : Confidence → List Confidence → Confidence
  | best, [] => best
  | best, other :: rest =>
      leastConfidence (if confidenceOrder other < confidenceOrder best then other else best) rest

variable (lib : FindingsLibrary) (view : EvidenceView) (context : MarketContext)

/-- The confidences of some evidence. -/
def EvidenceView.confidences (identifiers : List String) : List Confidence :=
  identifiers.filterMap fun key => (view.items.lookup key).map (·.confidence)

/-- The finding of a rule that triggered. -/
def triggeredFinding (rule : MarketRule) (target : RuleTarget) (evidence comparators : List String)
    (statement : String) (limitations : List String) : Finding where
  findingId := lib.findingId context.caseId rule target evidence comparators
  statement := statement
  evidenceIds := evidence
  comparatorIds := comparators
  ruleId := rule.id
  ruleVersion := ruleVersion
  classification := rule.spec.classification
  severity := rule.spec.severity
  scope := "market:" ++ lib.targetKey target
  confidence := leastConfidence rule.spec.confidence (view.confidences (evidence ++ comparators))
  affectedUrls := []
  affectedQueries := [target.query]
  missingData := limitations
  changeConditions := [rule.spec.changeCondition]

/-- The finding of a decision: only a rule that triggered has one, and it needs evidence
and a statement. -/
def decisionFinding (rule : MarketRule) (target : RuleTarget) (state : EvaluationState)
    (evidence comparators : List String) (statement : String) (limitations : List String) :
    Except FindingsError (Option Finding) :=
  if state = .triggered then
    if evidence = [] ∨ statement = "" then .error .referenceInvalid
    else .ok (some (triggeredFinding lib view context rule target evidence comparators statement
      limitations))
  else .ok none

/-- `decision`. -/
def decision (rule : MarketRule) (target : RuleTarget) (state : EvaluationState)
    (reason : EvaluationReason) (evidence comparators : List String) (statement : String)
    (notes : List String) : Except FindingsError RuleOutcome := do
  let evidence := sortedSet evidence
  let comparators := sortedSet comparators
  let found ← view.notes (evidence ++ comparators)
  let limitations := sortedSet (sampleNote :: notes ++ found)
  let finding ← decisionFinding lib view context rule target state evidence comparators statement
    limitations
  return {
    evaluation :=
      { rule := rule
        target := target
        state := state
        reason := reason
        evidenceIds := evidence
        comparatorIds := comparators
        findingId := finding.map (·.findingId)
        limitations := limitations }
    finding := finding }

end Decisions

end SearchTrust.Findings
