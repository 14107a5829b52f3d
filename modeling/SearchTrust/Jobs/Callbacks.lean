/-
Delivery of job snapshots to the owner of the audit.
-/
import Mathlib
import SearchTrust.Jobs.System

namespace SearchTrust.Jobs

open SearchTrust.Interleave

/-- The `width` lowest hexadecimal digits of a number. -/
def hexDigits (width n : Nat) : List Char :=
  (List.range width).reverse.map fun i => Nat.digitChar (n / 16 ^ i % 16)

/-- `str(job_id)`. -/
def uuidText (id : UUID) : String :=
  .ofList (hexDigits 8 (id / 16 ^ 24) ++ '-' :: hexDigits 4 (id / 16 ^ 20) ++
    '-' :: hexDigits 4 (id / 16 ^ 16) ++ '-' :: hexDigits 4 (id / 16 ^ 12) ++
    '-' :: hexDigits 12 id)

/-- `JobCallbackEvent`. -/
structure JobCallbackEvent where
  eventId : String
  jobId : UUID
  caseId : UUID
  revision : Int
  status : JobStatus
  stage : JobStage
  progress : Int
  message : String
  attemptCount : Int
  runGeneration : Int
  deadlineAt : Instant
  heartbeatAt : Option Instant
  completedAt : Option Instant
  error : Option JobErrorState
  costCounters : CostCounters
  occurredAt : Instant
deriving DecidableEq

/-- The bounds that the fields of an event declare. -/
def JobCallbackEvent.Valid (e : JobCallbackEvent) : Prop :=
  (1 ≤ e.eventId.length ∧ e.eventId.length ≤ 200) ∧ 1 ≤ e.revision ∧
    (0 ≤ e.progress ∧ e.progress ≤ 100) ∧
    (1 ≤ e.message.length ∧ e.message.length ≤ 500) ∧
    0 ≤ e.attemptCount ∧ 1 ≤ e.runGeneration ∧ ValidCostCounters e.costCounters

instance (e : JobCallbackEvent) : Decidable e.Valid := by
  unfold JobCallbackEvent.Valid
  infer_instance

def eventId (job : UUID) (revision : Int) : String :=
  uuidText job ++ ":" ++ revision.repr

/-- The event before its fields are checked; no white space surrounds its
identifier. -/
def callbackEvent (s : JobState) : JobCallbackEvent where
  eventId := eventId s.jobId s.revision
  jobId := s.jobId
  caseId := s.caseId
  revision := s.revision
  status := s.status
  stage := s.stage
  progress := s.progress
  message := strip s.message
  attemptCount := s.attemptCount
  runGeneration := s.runGeneration
  deadlineAt := s.deadlineAt
  heartbeatAt := s.heartbeatAt
  completedAt := s.completedAt
  error := s.error
  costCounters := s.costCounters
  occurredAt := s.updatedAt

/-- `build_callback_event`. -/
def buildCallbackEvent (s : JobState) : Except JobException JobCallbackEvent :=
  if (callbackEvent s).Valid then .ok (callbackEvent s) else .error .invalidValue

/-- The identifiers of the events of one job tell its revisions apart. -/
theorem eventId_injective (job : UUID) : Function.Injective (eventId job) := by
  intro m n h
  have hrepr : m.repr = n.repr := (String.append_right_inj _).1 h
  exact Int.repr_injective hrepr

theorem buildCallbackEvent_eventId {s : JobState} {event : JobCallbackEvent}
    (h : buildCallbackEvent s = .ok event) :
    event.eventId = eventId s.jobId s.revision := by
  unfold buildCallbackEvent at h
  split at h
  next =>
    obtain rfl := Except.ok.inj h
    rfl
  next => cases h

/-- An event does not show which revision was acknowledged. -/
theorem buildCallbackEvent_synced (s : JobState) (revision : Int) :
    buildCallbackEvent { s with callbackSyncedRevision := revision } =
      buildCallbackEvent s := rfl

/-- `CallbackSynchronizer.sync`. -/
def sync (job : UUID) : Proc Bool := do
  let state ← requireState job
  if state.revision ≤ state.callbackSyncedRevision then return true
  else
    let accepted ← call (.send state)
    if accepted then
      let _ ← call (.markCallbackSynced job state.revision)
      return true
    else return false

end SearchTrust.Jobs
