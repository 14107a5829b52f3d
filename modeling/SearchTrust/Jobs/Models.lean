/-
The durable snapshot of a job and its validators.  A snapshot that a validator
has accepted is written back in normal form: its texts are stripped.
-/
import Mathlib.Algebra.Ring.Int.Defs
import Mathlib.Data.List.DropRight
import SearchTrust.Jobs.Errors

namespace SearchTrust.Jobs

/-- A `UUID`, as its 128-bit number. -/
abbrev UUID := Nat

/-- An aware `datetime`, in microseconds since the epoch. -/
abbrev Instant := Int

/-- A SHA-256 digest.  Its textual form always matches the pattern that the
models ask for. -/
abbrev Digest := BitVec 256

/-- `JobStage`. -/
inductive JobStage where
  | queued
  | collectingSite
  | collectingMarket
  | collectingCompetitors
  | buildingEvidence
  | evaluating
  | generatingCopy
  | validating
  | persisting
  | completed
  | failed
deriving DecidableEq, Repr

section Text

/-- Unicode white space. -/
def isWhitespace (c : Char) : Bool :=
  let n := c.toNat
  (9 ≤ n && n ≤ 13) || n = 0x20 || n = 0x85 || n = 0xA0 || n = 0x1680 ||
    (0x2000 ≤ n && n ≤ 0x200A) || n = 0x2028 || n = 0x2029 || n = 0x202F ||
    n = 0x205F || n = 0x3000

/-- `str_strip_whitespace`. -/
def strip (text : String) : String :=
  .ofList ((text.toList.dropWhile isWhitespace).rdropWhile isWhitespace)

/-- Dropping white space at the end does not uncover white space at the front. -/
theorem dropWhile_rdropWhile_of_dropWhile (p : Char → Bool) (l : List Char) :
    ((l.dropWhile p).rdropWhile p).dropWhile p = (l.dropWhile p).rdropWhile p := by
  rw [List.dropWhile_eq_self_iff]
  intro hpos
  have hprefix := List.rdropWhile_prefix p (l.dropWhile p)
  have hlen : 0 < (l.dropWhile p).length :=
    Nat.lt_of_lt_of_le hpos hprefix.length_le
  have hhead : ((l.dropWhile p).rdropWhile p)[0] = (l.dropWhile p)[0] :=
    hprefix.getElem hpos
  rw [hhead]
  exact List.dropWhile_eq_self_iff.1 (List.dropWhile_idempotent p l) hlen

@[simp] theorem strip_strip (text : String) : strip (strip text) = strip text := by
  simp only [strip, String.toList_ofList, dropWhile_rdropWhile_of_dropWhile,
    List.rdropWhile_idempotent]

end Text

section Counters

/-- A counter dictionary: distinct keys with integer values. -/
abbrev CostCounters := List (String × Int)

def baseCounterKeys : List String :=
  ["cost_schema_version", "cost_ledger_revision", "pricing_revision",
    "job_wall_elapsed_ms", "job_active_elapsed_ms", "job_attempts",
    "job_retry_count", "provider_attempts_total", "provider_successes_total",
    "provider_failures_total", "provider_outcome_unknown_total",
    "provider_local_denials_total", "checkpoint_hits_total",
    "estimated_cost_usd_micros", "pricing_unknown_units_total",
    "dify_input_tokens", "dify_output_tokens", "dify_total_tokens",
    "dify_usage_unknown_calls"]

def providers : List String :=
  ["serpapi", "firecrawl", "jina", "pagespeed", "gsc", "ga4", "gbp", "dify"]

def providerMetrics : List String :=
  ["attempts", "successes", "failures", "outcome_unknown", "local_denials",
    "duration_ms", "billable_units", "estimated_cost_usd_micros",
    "pricing_unknown_units"]

def providerCounterKeys : List String :=
  providers.flatMap fun provider =>
    providerMetrics.map fun metric => provider ++ "_" ++ metric

def allowedCounterKeys : List String := baseCounterKeys ++ providerCounterKeys

def maxCounterValue : Int := 10 ^ 15

/-- `validate_cost_counters_snapshot`: nothing yet, or one complete snapshot. -/
def ValidCostCounters (counters : CostCounters) : Prop :=
  counters = [] ∨
    ((counters.map Prod.fst).Nodup ∧
      (∀ key ∈ counters.map Prod.fst, key ∈ allowedCounterKeys) ∧
      (∀ key ∈ allowedCounterKeys, key ∈ counters.map Prod.fst) ∧
      (∀ value ∈ counters.map Prod.snd, 0 ≤ value ∧ value ≤ maxCounterValue) ∧
      counters.lookup "cost_schema_version" = some 1)

instance (counters : CostCounters) : Decidable (ValidCostCounters counters) := by
  unfold ValidCostCounters
  infer_instance

end Counters

/-- `JobErrorState`. -/
structure JobErrorState where
  errorCode : String
  userMessage : String
  retryable : Bool
  stage : JobStage
  diagnosticId : UUID
deriving DecidableEq

/-- The pattern `^[A-Z0-9_]+$`, without its length. -/
def isErrorCodeChar (c : Char) : Bool := c.isUpper || c.isDigit || c = '_'

def JobErrorState.Valid (e : JobErrorState) : Prop :=
  (1 ≤ e.errorCode.length ∧ e.errorCode.length ≤ 120) ∧
    (∀ c ∈ e.errorCode.toList, isErrorCodeChar c) ∧
    1 ≤ e.userMessage.length ∧ e.userMessage.length ≤ 500

instance (e : JobErrorState) : Decidable e.Valid := by
  unfold JobErrorState.Valid
  -- The characters of the code, not all characters.
  haveI := List.decidableBAll (fun c => isErrorCodeChar c = true) e.errorCode.toList
  infer_instance

def JobErrorState.normalized (e : JobErrorState) : JobErrorState :=
  { e with errorCode := strip e.errorCode, userMessage := strip e.userMessage }

/-- `JobErrorState.model_validate`. -/
def JobErrorState.modelValidate (e : JobErrorState) :
    Except JobException JobErrorState :=
  if e.normalized.Valid then .ok e.normalized else .error .invalidValue

/-- The part of `AnalysisInputManifest` that the runtime reads. -/
structure InputManifest where
  id : UUID
  caseId : UUID
  inputChecksum : Digest
deriving DecidableEq

/-- `report_type` of a capability report. -/
inductive ReportType where
  | prospect
  | verifiedExecution
deriving DecidableEq, Repr

/-- The part of `CapabilityReport` that the runtime reads; `content` is the
canonical text of the whole report. -/
structure CapabilityReport where
  id : UUID
  inputManifest : InputManifest
  reportType : ReportType
  content : String
deriving DecidableEq

/-- `DurableReport`. -/
inductive DurableReport where
  | reportV22 (content : String)
  | capability (report : CapabilityReport)
deriving DecidableEq

/-- `JobState`. -/
structure JobState where
  jobId : UUID
  caseId : UUID
  status : JobStatus
  stage : JobStage
  progress : Int
  message : String
  attemptCount : Int
  runGeneration : Int
  revision : Int
  requestDigest : Digest
  idempotencyKeyDigest : Digest
  heartbeatAt : Option Instant
  createdAt : Instant
  deadlineAt : Instant
  updatedAt : Instant
  completedAt : Option Instant
  report : Option DurableReport
  error : Option JobErrorState
  costCounters : CostCounters
  callbackSyncedRevision : Int
deriving DecidableEq

namespace JobState

def terminal (s : JobState) : Bool :=
  s.status = .succeeded || s.status = .failed

/-- The bounds that the fields of a snapshot declare. -/
structure FieldsValid (s : JobState) : Prop where
  progress : 0 ≤ s.progress ∧ s.progress ≤ 100
  message : 1 ≤ s.message.length ∧ s.message.length ≤ 500
  attemptCount : 0 ≤ s.attemptCount
  runGeneration : 1 ≤ s.runGeneration
  revision : 1 ≤ s.revision
  callbackSyncedRevision : 0 ≤ s.callbackSyncedRevision
  costCounters : ValidCostCounters s.costCounters
  error : ∀ e ∈ s.error, e.Valid

instance (s : JobState) : Decidable s.FieldsValid :=
  decidable_of_iff
    ((0 ≤ s.progress ∧ s.progress ≤ 100) ∧
      (1 ≤ s.message.length ∧ s.message.length ≤ 500) ∧
      0 ≤ s.attemptCount ∧ 1 ≤ s.runGeneration ∧ 1 ≤ s.revision ∧
      0 ≤ s.callbackSyncedRevision ∧ ValidCostCounters s.costCounters ∧
      ∀ e ∈ s.error, e.Valid)
    ⟨fun ⟨a, b, c, d, e, f, g, h⟩ => ⟨a, b, c, d, e, f, g, h⟩,
      fun ⟨a, b, c, d, e, f, g, h⟩ => ⟨a, b, c, d, e, f, g, h⟩⟩

/-- A capability result must belong to this task and Case. -/
def ReportBound (s : JobState) : Prop :=
  match s.report with
  | some (.capability report) =>
      report.id = s.jobId ∧ report.inputManifest.caseId = s.caseId
  | _ => True

instance (s : JobState) : Decidable s.ReportBound := by
  unfold ReportBound
  split <;> infer_instance

/-- The payload that the status of a snapshot asks for. -/
def PayloadFits (s : JobState) : Prop :=
  match s.status with
  | .succeeded =>
      s.report.isSome ∧ s.error = none ∧ s.stage = .completed ∧
        s.progress = 100 ∧ s.completedAt.isSome ∧ s.ReportBound
  | .failed =>
      s.error.isSome ∧ s.report = none ∧ s.stage = .failed ∧ s.completedAt.isSome
  | .queued | .running =>
      s.report = none ∧ s.error = none ∧ s.completedAt = none

instance (s : JobState) : Decidable s.PayloadFits := by
  unfold PayloadFits
  split <;> infer_instance

/-- `validate_lifecycle`. -/
def Lifecycle (s : JobState) : Prop :=
  s.createdAt ≤ s.updatedAt ∧ s.createdAt < s.deadlineAt ∧
    s.callbackSyncedRevision ≤ s.revision ∧ s.PayloadFits

instance (s : JobState) : Decidable s.Lifecycle := by
  unfold Lifecycle
  infer_instance

def Valid (s : JobState) : Prop := s.FieldsValid ∧ s.Lifecycle

instance (s : JobState) : Decidable s.Valid :=
  inferInstanceAs (Decidable (s.FieldsValid ∧ s.Lifecycle))

/-- The snapshot with its texts stripped. -/
def normalized (s : JobState) : JobState :=
  { s with
    message := strip s.message
    error := s.error.map JobErrorState.normalized }

/-- `JobState.model_validate`. -/
def modelValidate (s : JobState) : Except JobException JobState :=
  if s.normalized.Valid then .ok s.normalized else .error .invalidValue

/-- A snapshot that validation returns unchanged. -/
def Stored (s : JobState) : Prop := s.Valid ∧ s.normalized = s

@[simp] theorem normalized_normalized (s : JobState) :
    s.normalized.normalized = s.normalized := by
  have herror : (JobErrorState.normalized ∘ JobErrorState.normalized) =
      JobErrorState.normalized := by
    funext e
    simp [JobErrorState.normalized]
  simp [normalized, Option.map_map, herror]

theorem modelValidate_eq_ok_iff {s t : JobState} :
    s.modelValidate = .ok t ↔ t = s.normalized ∧ t.Valid := by
  unfold modelValidate
  by_cases h : s.normalized.Valid
  · simp only [h, ↓reduceIte, Except.ok.injEq]
    constructor
    · rintro rfl
      exact ⟨rfl, h⟩
    · rintro ⟨rfl, _⟩
      rfl
  · simp only [h, ↓reduceIte, reduceCtorEq, false_iff, not_and]
    rintro rfl
    exact h

theorem stored_of_modelValidate {s t : JobState}
    (h : s.modelValidate = .ok t) : t.Stored := by
  obtain ⟨rfl, hvalid⟩ := modelValidate_eq_ok_iff.1 h
  exact ⟨hvalid, normalized_normalized s⟩

theorem Stored.modelValidate_eq {s : JobState} (h : s.Stored) :
    s.modelValidate = .ok s :=
  modelValidate_eq_ok_iff.2 ⟨h.2.symm, h.1⟩

theorem terminal_iff {s : JobState} :
    s.terminal = true ↔ s.status = .succeeded ∨ s.status = .failed := by
  simp [terminal]

theorem not_terminal_iff {s : JobState} :
    s.terminal = false ↔ s.status = .queued ∨ s.status = .running := by
  unfold terminal
  cases s.status <;> simp

end JobState

end SearchTrust.Jobs
