/-
The versioned contract of a capability report.
-/
import SearchTrust.Capability.CandidatePriority

namespace SearchTrust.Capability

open SearchTrust.Order

inductive SourceKind where
  | site
  | serp
  | competitor
  | publicGbp
  | gsc
  | ga4
  | officialGbp
  | rendered
deriving DecidableEq

inductive Mode where
  | acquisition
  | afterAcquisition
  | firstService
  | review
deriving DecidableEq

inductive ReportType where
  | prospect
  | verifiedExecution
deriving DecidableEq

/-- What a report reads of a `SnapshotReference`. -/
structure SnapshotReference where
  snapshotId : Uuid
  sourceKind : SourceKind
  fetchedAt : Timestamp
deriving DecidableEq

structure ReportReference where
  reportId : Uuid
  caseId : Uuid
  reportType : ReportType
  version : ℕ
  payloadChecksum : Checksum
deriving DecidableEq

inductive ManifestSchema where
  | v1
  | v2
  | v3
deriving DecidableEq

/-- What a report reads of an `AnalysisInputManifest`. -/
structure AnalysisInputManifest where
  schemaVersion : ManifestSchema
  jobId : Uuid
  userId : Uuid
  caseId : Uuid
  mode : Mode
  business : BusinessScope
  snapshots : List SnapshotReference
  evaluatedAt : Timestamp
  rulesetVersion : String
  previousReport : Option ReportReference
  inputChecksum : Checksum
  /-- `execution_type == "public_reassessment"` -/
  publicReassessment : Bool
  baseReportRef : Option ReportReference
deriving DecidableEq

/-- What a report reads of a `CapabilityEvidence`. -/
structure CapabilityEvidence where
  id : String
  snapshotId : Uuid
  sourceKind : SourceKind
  observedAt : Timestamp
deriving DecidableEq

inductive ContactField where
  | phone
  | address
  | businessName
  | serviceArea
  | openingHours
deriving DecidableEq

/-- What a report reads of a `ContactCheck`. -/
structure ContactCheck where
  field : ContactField
  evidenceIds : List String
deriving DecidableEq

structure CapabilityChange where
  findingId : String
  previousFingerprint : Checksum
  currentFingerprint : Checksum
  reason : String
deriving DecidableEq

inductive ReportSchema where
  | v222
  | v224
  | v225
  | v226
  | v227
  | v228
deriving DecidableEq

inductive ActionState where
  | actionsSupported
  | insufficientBasis
deriving DecidableEq

inductive SettlementPolicy where
  | oneCredit
  | noChargePublicReassessment
deriving DecidableEq

structure CapabilityReport where
  schemaVersion : ReportSchema
  id : Uuid
  reportType : ReportType
  version : ℕ
  generatedAt : Timestamp
  inputManifest : AnalysisInputManifest
  title : String
  summary : String
  evidence : List CapabilityEvidence
  findings : List CapabilityFinding
  contactChecks : Option (List ContactCheck)
  actionState : ActionState
  actionCandidates : Option (List CapabilityAction)
  actions : List CapabilityAction
  limitations : List String
  changes : List CapabilityChange
  settlementPolicy : SettlementPolicy
  prioritization : Option PrioritizationTrace
  /-- `model_fields_set` -/
  fieldsSet : List String
deriving DecidableEq

section Rulesets

def publicV7On : List String :=
  ["v22_capability_public_v8", "v22_capability_public_v9", "v22_capability_public_v10",
    "v22_capability_public_v11", "v22_capability_public_v12", "v22_capability_public_v13"]

def candidateRulesets : List String := ["v22_capability_public_v12", "v22_capability_public_v13"]

def hoursRulesets : List String := "v22_capability_public_v11" :: candidateRulesets

def priorityRulesets : List String :=
  ["v22_capability_public_v2", "v22_capability_service_v2", "v22_capability_public_v3",
    "v22_capability_service_v3", "v22_capability_public_v4", "v22_capability_service_v4",
    "v22_capability_public_v5", "v22_capability_public_v6", "v22_capability_public_v7",
    "v22_capability_public_v8", "v22_capability_public_v9", "v22_capability_public_v10",
    "v22_capability_public_v11", "v22_capability_public_v12", "v22_capability_public_v13",
    "v22_capability_service_v5"]

/-- The ends of the names of rulesets under the second version of the priority. -/
def secondPrioritySuffixes : List String :=
  ["_v3", "_v4", "_v5", "_v6", "_v7", "_v8", "_v9", "_v10", "_v11"]

end Rulesets

namespace CapabilityReport

variable (lib : Library) (report : CapabilityReport)

/-- `v12` -/
def hasPool : Bool := decide (report.inputManifest.rulesetVersion ∈ candidateRulesets)

/-- `labelled` -/
def labelled : Bool := decide (report.schemaVersion ∈ [.v225, .v226, .v227, .v228])

/-- `self.action_candidates if v12 else self.actions` -/
def pool : List CapabilityAction :=
  if report.hasPool then report.actionCandidates.getD [] else report.actions

/-- `expected_version` -/
def expectedRules : RulesVersion :=
  if report.hasPool then .v3
  else if secondPrioritySuffixes.any fun suffix =>
      suffix.toList.isSuffixOf report.inputManifest.rulesetVersion.toList then .v2
  else .v1

/-- `instant` -/
def instant (value : Timestamp) : Except String ℤ :=
  match lib.fromisoformat value with
  | some time => .ok time
  | none => .error "Invalid isoformat string"

/-- The checks of the versions of the report, of its manifest and of its ruleset. -/
def versionChecks : Except String Unit := do
  let manifest := report.inputManifest
  require ((report.schemaVersion ∈ [.v227, .v228] : Bool) == report.hasPool &&
    report.hasPool == report.actionCandidates.isSome) "candidate pool requires v12"
  require (report.hasPool || ! decide ("action_candidates" ∈ report.fieldsSet))
    "historical report cannot contain candidate pool"
  require (decide (report.schemaVersion = .v228) ==
    decide (manifest.rulesetVersion = "v22_capability_public_v13"))
    "identity v2 report version mismatch"
  require (decide (report.schemaVersion = .v226) ==
    decide (manifest.rulesetVersion = "v22_capability_public_v11")) "hours require v11"
  require (report.labelled ==
    decide (manifest.rulesetVersion ∈ publicV7On ++ ["v22_capability_service_v5"]))
    "finding labels require a versioned ruleset"
  require (report.findings.all fun f => f.kind.isSome == report.labelled)
    "finding labels require the new report version"
  require (report.labelled ||
    decide (report.schemaVersion = .v224) == decide (manifest.schemaVersion = .v2))
    "report and manifest versions disagree"

/-- The checks of the task, the history and the settlement of the report. -/
def bindingChecks : Except String Unit := do
  let manifest := report.inputManifest
  require (decide (report.id = manifest.jobId)) "report task or evaluation binding mismatch"
  let generated ← instant lib report.generatedAt
  let evaluated ← instant lib manifest.evaluatedAt
  require (decide (evaluated ≤ generated)) "report task or evaluation binding mismatch"
  require (decide (report.reportType =
    if manifest.mode = .acquisition then .prospect else .verifiedExecution)) "report type mismatch"
  let reference := manifest.baseReportRef.or manifest.previousReport
  require (decide (report.version = reference.elim 1 (·.version + 1))) "report version mismatch"
  require (decide (report.settlementPolicy = .noChargePublicReassessment) ==
    manifest.publicReassessment) "reassessment settlement mismatch"
  require (decide (report.actions ≠ []) == decide (report.actionState = .actionsSupported))
    "action result state mismatch"
  require (decide (report.evidence.map (·.id)).Nodup && decide (report.findings.map (·.id)).Nodup &&
    decide (report.actions.map (·.id)).Nodup) "duplicate result identity"

/-- The checks of the contact fields. -/
def contactFieldChecks : Except String Unit := do
  let manifest := report.inputManifest
  let hasChecks := decide (manifest.rulesetVersion ∈ publicV7On)
  require (hasChecks == report.contactChecks.isSome &&
    (hasChecks || ! decide ("contact_checks" ∈ report.fieldsSet)))
    "contact checks require public v8"
  let checks := report.contactChecks.getD []
  require (decide (manifest.rulesetVersion ∈ hoursRulesets) ||
    (decide (checks.length ≤ 4) && checks.all fun c => decide (c.field ≠ .openingHours)))
    "hours require v11"
  require (decide (checks.map (·.field)).Nodup) "duplicate contact check field"
  require (checks.all fun c => decide (c.evidenceIds ⊆ report.evidence.map (·.id)))
    "contact check references unknown evidence"

/-- `snapshots.get(item.snapshot_id)`: of two snapshots with one id the later counts. -/
def snapshot (id : Uuid) : Option SnapshotReference :=
  report.inputManifest.snapshots.reverse.find? fun s => s.snapshotId = id

def evidenceChecks : Except String Unit := do
  require (report.evidence.all fun item =>
    match report.snapshot item.snapshotId with
    | none => false
    | some s => decide (s.sourceKind = item.sourceKind ∧ item.observedAt = s.fetchedAt))
    "evidence source binding mismatch"

/-- The times at which the evidence of a finding was observed. -/
def observedTimes (finding : CapabilityFinding) : Except String (List ℤ) :=
  (report.evidence.filter fun item => item.id ∈ finding.evidenceIds).mapM fun item =>
    instant lib item.observedAt

def findingCheck (finding : CapabilityFinding) : Except String Unit := do
  require (decide finding.evidenceIds.Nodup &&
    decide (finding.evidenceIds ⊆ report.evidence.map (·.id)))
    "finding references unknown or duplicate evidence"
  let observed ← instant lib finding.observedAt
  let times ← report.observedTimes lib finding
  require (decide (times.max? = some observed)) "finding observation time mismatch"

def findingChecks : Except String Unit := report.findings.forM (report.findingCheck lib)

/-- `allowed_evidence` -/
def allowedEvidence (action : CapabilityAction) : List String :=
  (report.findings.filter fun f => f.id ∈ action.findingIds).flatMap (·.evidenceIds)

/-- The checks of one action, when the actions of `prior` stand before it. -/
def actionCheck (prior : List String) (action : CapabilityAction) : Except String Unit := do
  require (decide (action.findingIds ⊆ report.findings.map (·.id)) &&
    decide action.findingIds.Nodup) "action references unknown or duplicate findings"
  require (decide (action.dependencies ⊆ prior) && decide action.dependencies.Nodup)
    "action dependencies must precede action"
  require (decide (action.materials.map (·.id)).Nodup) "duplicate material identity"
  require (action.materials.all fun m => decide (m.evidenceIds ⊆ report.allowedEvidence action))
    "material references evidence outside its action"

def actionChecks : List String → List CapabilityAction → Except String Unit
  | _, [] => .ok ()
  | prior, action :: rest => do
      report.actionCheck prior action
      actionChecks (prior ++ [action.id]) rest

/-- Every selected action has its dependencies before it. -/
def selectedChecks : List String → List CapabilityAction → Except String Unit
  | _, [] => .ok ()
  | seen, action :: rest => do
      require (decide (action.dependencies ⊆ seen)) "selected dependencies missing"
      selectedChecks (seen ++ [action.id]) rest

/-- The checks of the pool, for a report that has one. -/
def poolChecks : Except String Unit :=
  if report.hasPool then do
    let candidates := report.actionCandidates.getD []
    require (decide (candidates.map (·.id)).Nodup &&
      report.actions.all fun a => decide (candidates.find? (fun c => c.id = a.id) = some a))
      "selected action must equal frozen candidate"
    selectedChecks [] report.actions
  else .ok ()

def changeChecks (digest : CapabilityFinding → Checksum) : Except String Unit := do
  report.changes.forM fun change => do
    require (report.inputManifest.previousReport.isSome &&
      decide (change.findingId ∈ report.findings.map (·.id)) &&
      decide (change.previousFingerprint ≠ change.currentFingerprint))
      "invalid or unchanged history badge"
    require (((findingById report.findings change.findingId).map digest) ==
      some change.currentFingerprint) "changed finding fingerprint mismatch"
  require (decide (report.changes.map (·.findingId)).Nodup) "duplicate history badge"

/-- The trace is the one that its own inputs give, and it is that of the report. -/
def traceChecks (trace : PrioritizationTrace) : Except String Unit := do
  let manifest := report.inputManifest
  require (decide (trace.rulesVersion = report.expectedRules)) "priority version mismatch"
  let replay ← prioritize lib (trace.candidates.map (·.input)) report.findings manifest.business
    manifest.inputChecksum report.expectedRules
  require (decide (trace = replay) && decide (trace.actionOrder = report.actions.map (·.id)))
    "priority trace does not reproduce report order"
  require (report.pool.all fun a =>
    decide ((trace.candidates.map (·.input)).reverse.find? (fun i => i.actionId = a.id) =
      some (candidateInput a))) "priority inputs do not match delivered action"
  require (! report.hasPool || decide (trace.candidateOrder =
    some ((report.actionCandidates.getD []).map (·.id))))
    "candidate pool order or completeness mismatch"

def priorityChecks : Except String Unit := do
  require (report.prioritization.isSome || ! decide ("prioritization" ∈ report.fieldsSet))
    "absent historical priority must not be serialized as null"
  require (decide (report.inputManifest.rulesetVersion ∈ priorityRulesets) ==
    report.prioritization.isSome) "priority trace ruleset mismatch"
  report.prioritization.elim (.ok ()) (report.traceChecks lib)

/-- `validate_references` -/
def validateReferences (digest : CapabilityFinding → Checksum) : Except String Unit := do
  report.versionChecks
  report.bindingChecks lib
  report.contactFieldChecks
  report.evidenceChecks
  report.findingChecks lib
  report.actionChecks [] report.pool
  report.poolChecks
  report.changeChecks digest
  report.priorityChecks lib

/-- The bounds of the fields. -/
def fits : Bool :=
  isLabel report.title && isText report.summary && decide (1 ≤ report.version) &&
    boundedList (fun e => isLabel e.id) 1 500 report.evidence &&
    boundedList CapabilityFinding.fits 1 50 report.findings &&
    (report.contactChecks.all fun checks => decide (checks.length ≤ 5)) &&
    (report.actionCandidates.all fun pool => boundedList CapabilityAction.fits 0 1000 pool) &&
    boundedList CapabilityAction.fits 0 3 report.actions &&
    boundedList isText 1 40 report.limitations &&
    boundedList (fun change => isLabel change.findingId && isText change.reason) 0 50
      report.changes &&
    report.prioritization.all PrioritizationTrace.fits

/-- What `CapabilityReport.model_validate` accepts. -/
structure Valid (digest : CapabilityFinding → Checksum) : Prop where
  fits : report.fits = true
  references : report.validateReferences lib digest = .ok ()

end CapabilityReport

end SearchTrust.Capability
