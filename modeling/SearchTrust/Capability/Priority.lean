/-
The ordinal priority of the candidates of a report, over frozen findings and the
confirmed business scope.
-/
import Mathlib.Data.Prod.Lex
import Mathlib.Data.String.Basic
import SearchTrust.Capability.Models
import SearchTrust.Order.Scheduling
import SearchTrust.Order.Sorting
import SearchTrust.Web.UrlText

namespace SearchTrust.Capability

open SearchTrust.Order SearchTrust.Report
open SearchTrust.Web (Text text)

/-- The parts of the standard library that the capability modules call. -/
structure Library where
  unicode : Web.UnicodeTables
  ip : Web.IpLibrary
  /-- `datetime.fromisoformat`; `none` is a `ValueError`. -/
  fromisoformat : Timestamp → Option ℤ

/-- What stands after `if not condition: raise ValueError(message)`. -/
def require (condition : Bool) (message : String) : Except String Unit :=
  if condition then .ok () else .error message

@[simp] theorem require_eq_ok {condition : Bool} {message : String} :
    require condition message = .ok () ↔ condition = true := by
  cases condition <;> simp [require]

section Rules

def HTTP : String := "v22_public.site_http_error"

def NOINDEX : String := "v22_public.site_explicit_noindex"

def accessRules : List String := [HTTP, NOINDEX]

/-- `OBJECTIVES` -/
def objectives (priority : String) : Option (List MaterialKind) :=
  match priority with
  | "service_visibility" => some [.titleBrief, .serviceBrief]
  | "contact_path" => some [.serviceBrief, .profileCorrection]
  | "business_identity" => some [.profileCorrection]
  | _ => none

def LIMIT : String :=
  "Business return is unknown. This order is not a revenue forecast or evidence that SEO caused a change."

/-- `RANK` -/
def severityRank : Severity → ℕ
  | .low => 0
  | .medium => 1
  | .high => 2
  | .critical => 3

def confidenceRank : Confidence → ℕ
  | .low => 0
  | .medium => 1
  | .high => 2

def prerequisiteRank : Prerequisite → ℕ
  | .accessIndexing => 0
  | .measurement => 1
  | .none => 2

def businessRank : BusinessMatch → ℕ
  | .confirmedTarget => 0
  | .confirmedObjective => 1
  | .notMatched => 2
  | .unknown => 2

def supportRank : Interpretation → ℕ
  | .supported => 0
  | .needsVerification => 1
  | .conflicting => 2

def executionRank : Execution → ℕ
  | .readyToUse => 0
  | .instructionsOnly => 1
  | .confirmationRequired => 2

def measurementPrefixes : List String :=
  ["V22.FIRST_PARTY.GSC.MEASUREMENT_COVERAGE", "V22.FIRST_PARTY.GA4.MEASUREMENT_CONFIGURATION",
    "V22.FIRST_PARTY.GBP.PROFILE_OR_MEASUREMENT"]

def measurementRules : List String :=
  ["V22.CROSS_SOURCE.GSC_GA4.PAGE_DIRECTION_CONFLICT",
    "V22.CROSS_SOURCE.GSC_GA4.AGGREGATE_DIRECTION_CONFLICT",
    "V22.CROSS_SOURCE.GSC_GBP.VISIBILITY_CONFLICT", "V22.CROSS_SOURCE.GA4_GBP.BEHAVIOR_CONFLICT",
    "V22.CROSS_SOURCE.GSC_GA4.WEEKLY_CONFLICT"]

/-- `_measurement_rule` -/
def measurementRule (rule : String) : Bool :=
  (measurementPrefixes.any fun front => (text front ++ ['.']).isPrefixOf rule.toList) ||
    decide (rule ∈ measurementRules)

def contactGaps : List String :=
  ["V22.FIRST_PARTY.GA4.ENGAGEMENT_GAP", "V22.FIRST_PARTY.GA4.CONVERSION_GAP"]

/-- The kinds of material that change what is published. -/
def publishingKinds : List MaterialKind := [.titleBrief, .serviceBrief, .profileCorrection]

def publishes (kinds : List MaterialKind) : Bool :=
  kinds.any fun kind => decide (kind ∈ publishingKinds)

end Rules

section Pages

/-- `parsed.username or parsed.password` -/
def hasCredentials (parsed : Web.SplitResult) : Bool :=
  let userinfo := (parsed.netloc.rdropWhile (· ≠ '@')).dropLast
  decide (userinfo ≠ [] ∧ userinfo ≠ [':'])

/-- `hostname.lower().removeprefix("www.")` -/
def siteHost (lib : Library) (hostname : Text) : Text :=
  let lowered := lib.unicode.lower hostname
  (lowered.dropPrefix? "www.".toList).getD lowered

/-- The host, the port that is not the default one, the path and the query. -/
abbrev Page := Text × Option ℕ × Text × Text

/-- `_page`: only pages of the same business. -/
def page (lib : Library) (site value : Text) : Option Page :=
  match Web.urlsplit lib.unicode lib.ip value, Web.urlsplit lib.unicode lib.ip site with
  | some parsed, some business =>
      let hostname := parsed.hostname lib.unicode
      let owner := business.hostname lib.unicode
      if parsed.scheme ∉ ["http".toList, "https".toList] ∨ hostname = [] ∨
          hasCredentials parsed ∨ owner = [] ∨ siteHost lib hostname ≠ siteHost lib owner then none
      else
        match parsed.port with
        | none => none
        | some port =>
            let default := if parsed.scheme = "https".toList then 443 else 80
            some (siteHost lib hostname, if port = some default then none else port,
              if parsed.path = [] then ['/'] else parsed.path, parsed.query)
  | _, _ => none

end Pages

section Candidates

/-- `sorted(set(items))` of enumerated texts. -/
def sortedTexts {α : Type} [DecidableEq α] (text : α → String) (items : List α) : List α :=
  sortedBy text items.dedup

/-- `candidate_input` -/
def candidateInput (action : CapabilityAction) : PriorityCandidateInput where
  actionId := action.id
  target := action.target
  findingIds := sortedBy id action.findingIds
  dependencies := sortedBy id action.dependencies
  materialKinds := sortedTexts MaterialKind.text (action.materials.map (·.kind))
  readiness := sortedTexts Readiness.text (action.materials.map (·.readiness))

/-- Every list of the input is sorted and names nothing twice. -/
def isCanonical (candidate : PriorityCandidateInput) : Bool :=
  decide (candidate.findingIds = sortedSet candidate.findingIds) &&
    decide (candidate.dependencies = sortedSet candidate.dependencies) &&
    decide (candidate.materialKinds = sortedTexts MaterialKind.text candidate.materialKinds) &&
    decide (candidate.readiness = sortedTexts Readiness.text candidate.readiness)

/-- `by_id[key]`: of two findings with one id the later counts. -/
def findingById (findings : List CapabilityFinding) (key : String) : Option CapabilityFinding :=
  findings.reverse.find? fun f => f.id = key

/-- `linked` -/
def linkedFindings (findings : List CapabilityFinding) (candidate : PriorityCandidateInput) :
    List CapabilityFinding :=
  candidate.findingIds.filterMap (findingById findings)

/-- The candidate refers to known candidates other than itself and to known findings. -/
def referencesFit (ids : List String) (findings : List CapabilityFinding)
    (candidate : PriorityCandidateInput) : Bool :=
  decide (candidate.dependencies ⊆ ids) &&
    decide (candidate.actionId ∉ candidate.dependencies) &&
    decide (candidate.findingIds ≠ []) &&
    decide (candidate.findingIds ⊆ findings.map (·.id))

/-- `max(items, key=rank)`: the first of the greatest. -/
def greatest {α : Type} (rank : α → ℕ) (first : α) (rest : List α) : α :=
  rest.foldl (fun best a => if rank best < rank a then a else best) first

end Candidates

section Entries

variable (lib : Library) (rules : RulesVersion) (business : BusinessScope)

/-- `conditions` -/
def conditions : ExecutionConditions :=
  business.executionConditions.getD ⟨.unknown, .unknown⟩

/-- `pages` -/
def targetPages : List Page :=
  business.targetPages.filterMap fun p => page lib business.siteUrl.toList p.toList

/-- `objective` -/
def objective : Option (String × List MaterialKind) :=
  business.priority.bind fun priority => (objectives priority).map fun kinds => (priority, kinds)

/-- `prerequisite` -/
def prerequisiteOf (linked : List CapabilityFinding) : Prerequisite :=
  if linked.any fun f => decide (f.ruleId ∈ accessRules) then .accessIndexing
  else if linked.any fun f => measurementRule f.ruleId then .measurement
  else .none

/-- `match` -/
def businessMatchOf (candidate : PriorityCandidateInput) (linked : List CapabilityFinding) :
    BusinessMatch :=
  let pages := targetPages lib business
  if (candidate.target.toList.splitOn '\n').any fun t =>
      (page lib business.siteUrl.toList t).any fun p => decide (p ∈ pages) then .confirmedTarget
  else if (objective business).any fun (name, kinds) =>
      (candidate.materialKinds.any fun kind => decide (kind ∈ kinds)) ||
        (decide (rules = .v2 ∧ name = "contact_path") &&
          linked.any fun f => decide (f.ruleId ∈ contactGaps)) then .confirmedObjective
  else if pages ≠ [] ∨ (objective business).isSome then .notMatched
  else .unknown

/-- `support` -/
def supportOf (linked : List CapabilityFinding) : Interpretation :=
  if linked.any fun f => decide (f.interpretation = .conflicting) then .conflicting
  else if linked.any fun f =>
      decide (f.interpretation = .needsVerification ∨ f.classification = .estimate) then
    .needsVerification
  else .supported

/-- `execution` -/
def executionOf (candidate : PriorityCandidateInput) : Execution :=
  if rules = .v2 ∧ publishes candidate.materialKinds ∧
      (conditions business).publishingAccess = .needsApproval then .confirmationRequired
  else if .requiresConfirmation ∈ candidate.readiness then .confirmationRequired
  else if candidate.readiness ≠ [] ∧ ∀ r ∈ candidate.readiness, r = .readyToUse then .readyToUse
  else .instructionsOnly

/-- `explanation` -/
def explanationOf (candidate : PriorityCandidateInput) (prerequisite : Prerequisite)
    (businessMatch : BusinessMatch) (support : Interpretation) (execution : Execution) : String :=
  let opening := match prerequisite, businessMatch with
    | .accessIndexing, _ => "Check access and indexing before optimizing affected pages."
    | .measurement, _ => "Establish reliable measurement before interpreting performance."
    | .none, .confirmedTarget => "This work addresses an explicitly confirmed target page."
    | .none, .confirmedObjective => "This work matches the explicitly confirmed business objective."
    | .none, .notMatched => "No direct match to the confirmed focus; this is not a low-value judgment."
    | .none, .unknown => "Business focus is not specified; order uses evidence and problem attributes, not assumed business value."
  let basis := match support with
    | .conflicting => " Conflicting evidence calls for investigation, not a claimed business cause."
    | .needsVerification => " Confirm the stated assumptions before changing anything."
    | .supported => ""
  let approval := if execution = .confirmationRequired then
    " Business details or approval are still required." else ""
  let publishing := rules = .v2 ∧ publishes candidate.materialKinds
  let capacity := if publishing ∧ (conditions business).capacity = .limited then
    " Limited execution capacity is confirmed; reserve a separate slot for changes. No duration is estimated."
    else ""
  let access := if publishing ∧ (conditions business).publishingAccess = .unknown then
    " Publishing access is unknown, not assumed blocked or approved." else ""
  opening ++ basis ++ approval ++ capacity ++ access

/-- `codes` -/
def reasonCodesOf (candidate : PriorityCandidateInput) (prerequisite : Prerequisite)
    (businessMatch : BusinessMatch) (support : Interpretation) (execution : Execution)
    (severity : Severity) (confidence : Confidence) : List String :=
  ["prerequisite_" ++ prerequisite.text, "business_" ++ businessMatch.text,
    "evidence_" ++ support.text, "execution_" ++ execution.text, "severity_" ++ severity.text,
    "confidence_" ++ confidence.text, "return_unknown", "stable_identity_tiebreak"] ++
  (if candidate.dependencies ≠ [] then ["dependencies_first"] else []) ++
  (if rules = .v2 then
    ["capacity_" ++ (conditions business).capacity.text,
      "publishing_" ++ (conditions business).publishingAccess.text] else [])

/-- The entry of a candidate whose first linked finding is known. -/
def entryOf (candidate : PriorityCandidateInput) (first : CapabilityFinding)
    (rest : List CapabilityFinding) : PriorityDecision :=
  let linked := first :: rest
  let prerequisite := prerequisiteOf linked
  let businessMatch := businessMatchOf lib rules business candidate linked
  let support := supportOf linked
  let execution := executionOf rules business candidate
  let severity := greatest severityRank first.severity (rest.map (·.severity))
  let confidence := greatest confidenceRank first.confidence (rest.map (·.confidence))
  { technicalFindingIds := none
    defaultVisible := none
    input := candidate
    prerequisite
    businessMatch
    evidenceSupport := support
    execution
    severity
    confidence
    impactPaths := (linked.map (·.impactPath)).eraseDups
    comparisonScopes := (linked.map (·.comparisonScope)).eraseDups
    reasonCodes := reasonCodesOf rules business candidate prerequisite businessMatch support
      execution severity confidence
    explanation := explanationOf rules business candidate prerequisite businessMatch support
      execution
    selectedOrder := none }

/-- One round of the loop over the sorted inputs. -/
def priorityEntry (ids : List String) (findings : List CapabilityFinding)
    (candidate : PriorityCandidateInput) : Except String PriorityDecision := do
  require (isCanonical candidate) "noncanonical priority input"
  require (referencesFit ids findings candidate) "invalid priority references"
  match linkedFindings findings candidate with
  | [] => .error "invalid priority references"
  | first :: rest => .ok (entryOf lib rules business candidate first rest)

/-- `key` -/
def priorityKey (e : PriorityDecision) : ℕ ×ₗ ℕ ×ₗ ℕ ×ₗ ℤ ×ₗ ℤ ×ₗ ℕ ×ₗ ℕ ×ₗ String :=
  toLex (prerequisiteRank e.prerequisite, toLex (businessRank e.businessMatch,
    toLex (supportRank e.evidenceSupport, toLex (-(severityRank e.severity : ℤ),
      toLex (-(confidenceRank e.confidence : ℤ),
        toLex (if rules = .v2 ∧ (conditions business).capacity = .limited ∧
            publishes e.input.materialKinds then 1 else 0,
          toLex (executionRank e.execution, e.input.actionId)))))))

end Entries

section Selection

variable {κ : Type} [LinearOrder κ]

/-- A turn of the selection loop: the least of the pending entries whose dependencies
are ordered. -/
def nextEntry (message : String) (key : PriorityDecision → κ)
    (entries ordered : List PriorityDecision) : Except String PriorityDecision :=
  let done := ordered.map (·.input.actionId)
  let available := entries.filter fun e =>
    e.input.actionId ∉ done ∧ e.input.dependencies ⊆ done
  match sortedBy key available with
  | [] => .error message
  | e :: _ => .ok e

/-- The order in which the loop takes the entries. -/
def orderEntries (message : String) (key : PriorityDecision → κ)
    (entries : List PriorityDecision) : Except String (List PriorityDecision) :=
  schedule (nextEntry message key entries) entries.length

/-- What the loop writes into the entries that it takes: `chosen` is what it delivers
so far. -/
def settleEntries (settle : List String → PriorityDecision → PriorityDecision) :
    List String → List PriorityDecision → List PriorityDecision
  | _, [] => []
  | chosen, e :: rest =>
      let settled := settle chosen e
      settled :: settleEntries settle
        (if settled.selectedOrder.isSome then chosen ++ [e.input.actionId] else chosen) rest

/-- `chosen` at the end of the loop. -/
def chosenIds (settled : List PriorityDecision) : List String :=
  (settled.filter (·.selectedOrder.isSome)).map (·.input.actionId)

/-- The entries where they stood, with what the loop wrote into them. -/
def writtenEntries (entries settled : List PriorityDecision) : List PriorityDecision :=
  entries.map fun e =>
    (settled.find? fun s => s.input.actionId = e.input.actionId).getD e

end Selection

/-- The first three are delivered. -/
def settleFirst (chosen : List String) (e : PriorityDecision) : PriorityDecision :=
  if chosen.length < 3 then { e with selectedOrder := some (chosen.length + 1) }
  else { e with reasonCodes := e.reasonCodes ++ ["outside_delivery_budget"] }

/-- `prioritize` under the first and the second version of the rules. -/
def prioritizeFirst (lib : Library) (inputs : List PriorityCandidateInput)
    (findings : List CapabilityFinding) (business : BusinessScope) (checksum : Checksum)
    (rules : RulesVersion) : Except String PrioritizationTrace := do
  let ids := inputs.map (·.actionId)
  require (decide ids.Nodup) "duplicate priority candidate"
  let entries ← (sortedBy (·.actionId) inputs).mapM (priorityEntry lib rules business ids findings)
  let ordered ← orderEntries "cyclic priority dependencies" (priorityKey rules business) entries
  let settled := settleEntries settleFirst [] ordered
  return {
    candidateOrder := none
    rulesVersion := rules
    inputChecksum := checksum
    businessPriority := business.priority
    targetPages := business.targetPages
    actionOrder := chosenIds settled
    candidates := writtenEntries entries settled
    limitations := [LIMIT] }

end SearchTrust.Capability
