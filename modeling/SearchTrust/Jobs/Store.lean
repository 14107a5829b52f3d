/-
The Redis-backed store of job states.  Every WATCH/MULTI block of the store is
one atomic function on the contents of the server; a block that raises writes
nothing.
-/
import SearchTrust.Jobs.Models
import SearchTrust.Redis.Keyspace

namespace SearchTrust.Jobs

open SearchTrust.Redis

/-- A JSON value; a number keeps its literal. -/
inductive Json where
  | null
  | bool (value : Bool)
  | number (literal : String)
  | string (value : String)
  | array (items : List Json)
  | object (fields : List (String × Json))

/-- `CapabilityTaskRequest`. -/
structure CapabilityTaskRequest where
  caseId : UUID
  manifestId : UUID
  inputChecksum : Digest
  reportType : ReportType
deriving DecidableEq

/-- A request mapping: the entries that the runtime looks at and the canonical
text of the whole mapping.  `capabilityRequest` is `none` when the mapping does
not parse as a capability request envelope. -/
structure RequestPayload where
  schemaVersion : Option String
  capabilityRequest : Option CapabilityTaskRequest
  content : String
deriving DecidableEq

/-- The identity stored under an idempotency key. -/
structure Identity where
  jobId : UUID
  caseId : UUID
  requestDigest : Digest
deriving DecidableEq

/-- The value of a lease key: `generation:sha256(token)`. -/
structure LeaseValue where
  generation : Int
  tokenDigest : Digest
deriving DecidableEq

/-- The keys of the job runtime.  The scores of `active` are instants; those of
the other two indexes are revisions and run generations. -/
structure JobRedis where
  clock : Nat
  states : Table UUID JobState
  requests : Table UUID RequestPayload
  idempotency : Table (UUID × Digest) Identity
  leases : Table UUID LeaseValue
  checkpoints : Table (UUID × Digest) Json
  active : SortedSet UUID Instant
  syncPending : SortedSet UUID Int
  recoveryPending : SortedSet UUID Int

namespace JobRedis

/-- A server on which no job was ever registered. -/
def initial : JobRedis where
  clock := 0
  states := Table.empty
  requests := Table.empty
  idempotency := Table.empty
  leases := Table.empty
  checkpoints := Table.empty
  active := SortedSet.empty
  syncPending := SortedSet.empty
  recoveryPending := SortedSet.empty

/-- The clock of the server advances and expired keys disappear. -/
def tick (r : JobRedis) (seconds : Nat) : JobRedis :=
  let clock := r.clock + seconds
  { r with
    clock
    states := r.states.purge clock
    requests := r.requests.purge clock
    idempotency := r.idempotency.purge clock
    leases := r.leases.purge clock
    checkpoints := r.checkpoints.purge clock }

/-- `get_state`. -/
def getState (r : JobRedis) (job : UUID) : Except JobException (Option JobState) :=
  match r.states.get job with
  | none => .ok none
  | some raw => raw.modelValidate.map some

/-- `require_state`. -/
def requireState (r : JobRedis) (job : UUID) : Except JobException JobState := do
  match ← r.getState job with
  | none => throw .jobNotFound
  | some state => return state

end JobRedis

/-- The settings of a `DurableJobStore`. -/
structure DurableJobStore where
  stateTtlSeconds : Nat
  jobTimeoutSeconds : Nat
  sha256 : String → Digest

/-- The arguments of `register_job`. -/
structure Registration where
  jobId : UUID
  caseId : UUID
  idempotencyKey : String
  requestPayload : RequestPayload
  now : Instant
  createdAt : Option Instant := none
  deadlineAt : Option Instant := none
  initialGeneration : Int := 1
  initialRevision : Int := 1
  initialAttemptCount : Int := 0
  initialCostCounters : CostCounters := []

structure RegistrationResult where
  state : JobState
  replayed : Bool
deriving DecidableEq

/-- The arguments of `transition`. -/
structure Transition where
  jobId : UUID
  status : JobStatus
  stage : JobStage
  progress : Int
  message : String
  now : Instant
  attemptCount : Option Int := none
  heartbeatAt : Option Instant := none
  report : Option DurableReport := none
  error : Option JobErrorState := none
  costCounters : Option CostCounters := none
  expectedGeneration : Option Int := none

structure TransitionResult where
  state : JobState
  applied : Bool
deriving DecidableEq

/-- `_ALLOWED_TRANSITIONS`. -/
def allowedTransitions : JobStatus → List JobStatus
  | .queued => [.queued, .running, .failed]
  | .running => [.running, .queued, .succeeded, .failed]
  | .succeeded => []
  | .failed => []

namespace DurableJobStore

variable (store : DurableJobStore)

section Register

def requestDigest (payload : RequestPayload) : Digest :=
  store.sha256 payload.content

def initialState (a : Registration) : JobState where
  jobId := a.jobId
  caseId := a.caseId
  status := .queued
  stage := .queued
  progress := 0
  message := "Queued. Analysis will begin shortly."
  attemptCount := a.initialAttemptCount
  runGeneration := a.initialGeneration
  revision := a.initialRevision
  requestDigest := store.requestDigest a.requestPayload
  idempotencyKeyDigest := store.sha256 a.idempotencyKey
  heartbeatAt := none
  createdAt := a.createdAt.getD a.now
  deadlineAt := a.deadlineAt.getD (a.now + store.jobTimeoutSeconds * 1000000)
  updatedAt := a.now
  completedAt := none
  report := none
  error := none
  costCounters := a.initialCostCounters
  callbackSyncedRevision := 0

def commitRegistration (a : Registration) (state : JobState) (r : JobRedis) :
    JobRedis :=
  let deadline := r.clock + store.stateTtlSeconds
  { r with
    idempotency := r.idempotency.set (a.caseId, store.sha256 a.idempotencyKey)
      ⟨a.jobId, a.caseId, store.requestDigest a.requestPayload⟩ deadline
    requests := r.requests.set a.jobId a.requestPayload deadline
    states := r.states.set a.jobId state deadline
    active := r.active.zadd a.jobId a.now
    syncPending := r.syncPending.zadd a.jobId state.revision }

/-- The atomic block of `register_job`. -/
def registerJob (a : Registration) (r : JobRedis) :
    Except JobException (RegistrationResult × JobRedis) := do
  let digest := store.requestDigest a.requestPayload
  let keyDigest := store.sha256 a.idempotencyKey
  let initial ← (store.initialState a).modelValidate
  match r.idempotency.get (a.caseId, keyDigest) with
  | some identity =>
      if identity.requestDigest ≠ digest then throw .idempotencyConflict
      else if identity.jobId ≠ a.jobId then throw .jobIdentityConflict
      else
        match ← r.getState a.jobId with
        | none => throw .jobIdentityConflict
        | some existing => return (⟨existing, true⟩, r)
  | none =>
      match ← r.getState a.jobId with
      | some existing =>
          if existing.caseId ≠ a.caseId ∨ existing.requestDigest ≠ digest ∨
              existing.idempotencyKeyDigest ≠ keyDigest then
            throw .jobIdentityConflict
          else return (⟨existing, true⟩, r)
      | none => return (⟨initial, false⟩, store.commitRegistration a initial r)

end Register

section Transition

def nextState (a : Transition) (current : JobState) : JobState :=
  { current with
    status := a.status
    stage := a.stage
    progress := a.progress
    message := a.message
    attemptCount := a.attemptCount.getD current.attemptCount
    revision := current.revision + 1
    heartbeatAt :=
      match a.heartbeatAt with
      | some at_ => some at_
      | none => if a.status = .running then some a.now else current.heartbeatAt
    updatedAt := a.now
    completedAt :=
      if a.status = .succeeded ∨ a.status = .failed then some a.now else none
    report := a.report
    error := a.error
    costCounters := a.costCounters.getD current.costCounters }

def commitTransition (a : Transition) (next : JobState) (r : JobRedis) :
    JobRedis :=
  let deadline := r.clock + store.stateTtlSeconds
  { r with
    states := r.states.set a.jobId next deadline
    requests := r.requests.expire a.jobId deadline
    active :=
      if next.terminal then r.active.zrem a.jobId
      else r.active.zadd a.jobId a.now
    recoveryPending :=
      if next.terminal then r.recoveryPending.zrem a.jobId
      else r.recoveryPending
    syncPending := r.syncPending.zadd a.jobId next.revision }

/-- The atomic block of `transition`. -/
def transition (a : Transition) (r : JobRedis) :
    Except JobException (TransitionResult × JobRedis) := do
  let current ← r.requireState a.jobId
  if a.expectedGeneration.any (· ≠ current.runGeneration) then
    throw .jobLeaseLost
  else if current.terminal then return (⟨current, false⟩, r)
  else if a.status ∉ allowedTransitions current.status then
    throw (.invalidJobTransition current.status a.status)
  else
    let next ← (nextState a current).modelValidate
    return (⟨next, true⟩, store.commitTransition a next r)

end Transition

section Recovery

def takenOver (current : JobState) (now : Instant) : JobState :=
  { current with
    status := .queued
    stage := .queued
    message := "Queued for recovery after a lost worker heartbeat."
    runGeneration := current.runGeneration + 1
    revision := current.revision + 1
    heartbeatAt := none
    updatedAt := now }

def commitTakeover (job : UUID) (now : Instant) (next : JobState)
    (r : JobRedis) : JobRedis :=
  { r with
    states := r.states.set job next (r.clock + store.stateTtlSeconds)
    leases := r.leases.delete job
    active := r.active.zadd job now
    syncPending := r.syncPending.zadd job next.revision
    recoveryPending := r.recoveryPending.zadd job next.runGeneration }

/-- The atomic block of `take_over_stale`. -/
def takeOverStale (job : UUID) (expectedGeneration : Int) (now : Instant)
    (r : JobRedis) : Except JobException (TransitionResult × JobRedis) := do
  let current ← r.requireState job
  if current.terminal ∨ current.runGeneration ≠ expectedGeneration then
    return (⟨current, false⟩, r)
  else if (r.recoveryPending.zscore job).isSome then
    return (⟨current, false⟩, r)
  else
    let next ← (takenOver current now).modelValidate
    return (⟨next, true⟩, store.commitTakeover job now next r)

def reopened (current : JobState) (now : Instant) : JobState :=
  { current with
    status := .queued
    stage := .queued
    progress := 0
    message := "Queued for a manual retry."
    runGeneration := current.runGeneration + 1
    revision := current.revision + 1
    heartbeatAt := none
    updatedAt := now
    completedAt := none
    report := none
    error := none }

def commitRetry (job : UUID) (now : Instant) (next : JobState) (r : JobRedis) :
    JobRedis :=
  let deadline := r.clock + store.stateTtlSeconds
  { r with
    states := r.states.set job next deadline
    requests := r.requests.expire job deadline
    active := r.active.zadd job now
    syncPending := r.syncPending.zadd job next.revision }

/-- The atomic block of `retry_failed`. -/
def retryFailed (job : UUID) (now : Instant) (r : JobRedis) :
    Except JobException (JobState × JobRedis) := do
  let current ← r.requireState job
  if current.status ≠ .failed ∨ ¬ current.error.any JobErrorState.retryable then
    throw .jobNotRetryable
  else
    let next ← (reopened current now).modelValidate
    return (next, store.commitRetry job now next r)

end Recovery

section Callbacks

/-- The revision that `mark_callback_synced` records. -/
def syncedRevision (current : JobState) (revision : Int) : Int :=
  min (max revision current.callbackSyncedRevision) current.revision

def synced (current : JobState) (revision : Int) : JobState :=
  { current with callbackSyncedRevision := syncedRevision current revision }

def commitSynced (job : UUID) (next : JobState) (r : JobRedis) : JobRedis :=
  { r with
    states := r.states.set job next (r.clock + store.stateTtlSeconds)
    syncPending :=
      if next.revision ≤ next.callbackSyncedRevision then r.syncPending.zrem job
      else r.syncPending }

/-- The atomic block of `mark_callback_synced`; the new snapshot is written
without being validated again. -/
def markCallbackSynced (job : UUID) (revision : Int) (r : JobRedis) :
    Except JobException (JobState × JobRedis) := do
  let current ← r.requireState job
  let next := synced current revision
  return (next, store.commitSynced job next r)

end Callbacks

section Leases

/-- The value that the holder of a token stores in the lease key. -/
def leaseValue (generation : Int) (token : String) : LeaseValue :=
  ⟨generation, store.sha256 token⟩

/-- `acquire_lease`: `SET NX EX`. -/
def acquireLease (job : UUID) (generation : Int) (token : String)
    (ttlSeconds : Nat) (r : JobRedis) : Bool × JobRedis :=
  match r.leases job with
  | some _ => (false, r)
  | none =>
      (true,
        { r with
          leases := r.leases.set job (store.leaseValue generation token)
            (r.clock + ttlSeconds) })

/-- The atomic block of `refresh_lease`. -/
def refreshLease (job : UUID) (generation : Int) (token : String)
    (ttlSeconds : Nat) (r : JobRedis) : Bool × JobRedis :=
  if r.leases.get job = some (store.leaseValue generation token) then
    (true, { r with leases := r.leases.expire job (r.clock + ttlSeconds) })
  else (false, r)

/-- The atomic block of `release_lease`. -/
def releaseLease (job : UUID) (generation : Int) (token : String)
    (r : JobRedis) : Bool × JobRedis :=
  if r.leases.get job = some (store.leaseValue generation token) then
    (true, { r with leases := r.leases.delete job })
  else (false, r)

end Leases

end DurableJobStore

namespace JobRedis

section Indexes

/-- `list_stale_jobs`, at most 100 jobs. -/
def listStaleJobs (r : JobRedis) (cutoff : Instant) : List UUID :=
  (r.active.zrangebyscore cutoff 100).map Prod.fst

/-- `list_pending_callbacks`, at most 100 jobs. -/
def listPendingCallbacks (r : JobRedis) : List UUID :=
  (r.syncPending.zrange 100).map Prod.fst

/-- `list_pending_recoveries`, at most 100 jobs.  The code also removes a score
that is no generation; no operation ever writes one. -/
def listPendingRecoveries (r : JobRedis) : List (UUID × Int) :=
  (r.recoveryPending.zrange 100).filter fun e => decide (1 ≤ e.2)

/-- `pending_recovery_generation`, with the same remark. -/
def pendingRecoveryGeneration (r : JobRedis) (job : UUID) : Option Int :=
  (r.recoveryPending.zscore job).filter fun generation => decide (1 ≤ generation)

def dropRecovery (job : UUID) (r : JobRedis) : JobRedis :=
  { r with recoveryPending := r.recoveryPending.zrem job }

/-- The atomic block of `discard_pending_recovery`. -/
def discardPendingRecovery (job : UUID) (generation : Int) (r : JobRedis) :
    Bool × JobRedis :=
  if r.recoveryPending.zscore job = some generation then
    (true, r.dropRecovery job)
  else (false, r)

def dropJob (job : UUID) (r : JobRedis) : JobRedis :=
  { r with
    active := r.active.zrem job
    syncPending := r.syncPending.zrem job
    recoveryPending := r.recoveryPending.zrem job
    leases := r.leases.delete job }

/-- The atomic block of `discard_missing_job_indexes`. -/
def discardMissingJobIndexes (job : UUID) (r : JobRedis) : Bool × JobRedis :=
  if (r.states job).isSome then (false, r) else (true, r.dropJob job)

/-- The atomic block of `discard_missing_job_recovery`. -/
def discardMissingJobRecovery (job : UUID) (generation : Int) (r : JobRedis) :
    Bool × JobRedis :=
  if (r.states job).isSome then (false, r)
  else if r.recoveryPending.zscore job ≠ some generation then (false, r)
  else (true, r.dropJob job)

/-- The marker is closed, and a job that is not terminal counts as active from
now on. -/
def closeRecovery (job : UUID) (current : JobState) (now : Instant)
    (r : JobRedis) : JobRedis :=
  { r with
    recoveryPending := r.recoveryPending.zrem job
    active := if current.terminal then r.active else r.active.zadd job now }

/-- The atomic block of `mark_recovery_enqueued`. -/
def markRecoveryEnqueued (job : UUID) (generation : Int) (now : Instant)
    (r : JobRedis) : Except JobException (Bool × JobRedis) := do
  let current ← r.requireState job
  if r.recoveryPending.zscore job ≠ some generation ∨
      current.runGeneration ≠ generation then
    return (false, r)
  else return (true, r.closeRecovery job current now)

end Indexes

end JobRedis

end SearchTrust.Jobs
