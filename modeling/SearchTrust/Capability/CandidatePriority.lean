/-
The order of the full candidate pool, and the selection of what a client sees.
-/
import SearchTrust.Capability.Priority

namespace SearchTrust.Capability

open SearchTrust.Order SearchTrust.Report

section Qualification

/-- `qualified_technical` -/
def qualifiedTechnical (f : CapabilityFinding) : Bool :=
  decide (f.ruleId ∈ accessRules) && decide (f.kind = some .fact) &&
    decide (f.status = some .confirmed) && decide (f.confidence = .medium ∨ f.confidence = .high) &&
    decide (f.interpretation = .supported) && decide (f.evidenceIds ≠ [])

/-- `rank_findings`: an unqualified technical finding is ranked under another rule. -/
def maskedFinding (f : CapabilityFinding) : CapabilityFinding :=
  if f.ruleId ∈ accessRules ∧ ¬ qualifiedTechnical f then
    { f with ruleId := "unqualified_technical_observation" }
  else f

/-- `default_visible` -/
def visibleByDefault (linked : List CapabilityFinding) : Bool :=
  linked.any fun f => decide (f.status = some .confirmed) && decide (f.confidence ≠ .low)

/-- What the loop over the entries adds to one of them. -/
def candidateEntry (findings : List CapabilityFinding) (e : PriorityDecision) :
    PriorityDecision :=
  let linked := linkedFindings findings e.input
  { e with
    technicalFindingIds := some (sortedBy id ((linked.filter qualifiedTechnical).map (·.id)))
    defaultVisible := some (visibleByDefault linked)
    selectedOrder := none
    reasonCodes := e.reasonCodes.filter (· ≠ "outside_delivery_budget") }

end Qualification

section Selection

/-- `key` -/
def candidateKey (business : BusinessScope) (e : PriorityDecision) :
    ℕ ×ₗ ℕ ×ₗ ℕ ×ₗ ℕ ×ₗ ℤ ×ₗ ℤ ×ₗ ℕ ×ₗ ℕ ×ₗ String :=
  toLex (if e.defaultVisible = some true then 0 else 1, priorityKey .v2 business e)

/-- `e['default_visible'] and len(chosen)<3 and set(e['input']['dependencies'])<=set(chosen)` -/
def selects (chosen : List String) (e : PriorityDecision) : Prop :=
  e.defaultVisible = some true ∧ chosen.length < 3 ∧ e.input.dependencies ⊆ chosen

instance selectsDecidable (chosen : List String) (e : PriorityDecision) :
    Decidable (selects chosen e) := by
  unfold selects
  infer_instance

/-- Why an entry is left out. -/
def omissionReason (chosen : List String) (e : PriorityDecision) : String :=
  if e.defaultVisible ≠ some true then "advisor_only_weak_basis"
  else if ¬ e.input.dependencies ⊆ chosen then "dependency_not_selected"
  else "outside_delivery_budget"

def settleCandidate (chosen : List String) (e : PriorityDecision) : PriorityDecision :=
  if selects chosen e then { e with selectedOrder := some (chosen.length + 1) }
  else { e with reasonCodes := e.reasonCodes ++ [omissionReason chosen e] }

/-- `prioritize_candidates` -/
def prioritizeCandidates (lib : Library) (inputs : List PriorityCandidateInput)
    (findings : List CapabilityFinding) (business : BusinessScope) (checksum : Checksum) :
    Except String PrioritizationTrace := do
  let trace ← prioritizeFirst lib inputs (findings.map maskedFinding) business checksum .v2
  let entries := trace.candidates.map (candidateEntry findings)
  let ordered ← orderEntries "cyclic candidate dependencies" (candidateKey business) entries
  let settled := settleEntries settleCandidate [] ordered
  return { trace with
    rulesVersion := .v3
    candidateOrder := some (ordered.map (·.input.actionId))
    actionOrder := chosenIds settled
    candidates := writtenEntries entries settled }

/-- `prioritize` -/
def prioritize (lib : Library) (inputs : List PriorityCandidateInput)
    (findings : List CapabilityFinding) (business : BusinessScope) (checksum : Checksum)
    (rules : RulesVersion) : Except String PrioritizationTrace :=
  match rules with
  | .v3 => prioritizeCandidates lib inputs findings business checksum
  | _ => prioritizeFirst lib inputs findings business checksum rules

end Selection

end SearchTrust.Capability
