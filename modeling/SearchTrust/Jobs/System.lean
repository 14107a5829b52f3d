/-
Persisted stage checkpoints.  A checkpoint is written once; a run that carries a
generation may write only while that generation is the live one of its job.
-/
import SearchTrust.Interleave.Rely
import SearchTrust.Jobs.Blocks
import SearchTrust.Jobs.Store

namespace SearchTrust.Jobs

open SearchTrust.Redis

/-- The settings of a `JobCheckpoints`. -/
structure JobCheckpoints where
  ttlSeconds : Nat
  runGeneration : Option Int

namespace DurableJobStore

variable (store : DurableJobStore)

/-- The key of a checkpoint. -/
def checkpointKey (job : UUID) (key : String) : UUID × Digest :=
  (job, store.sha256 key)

/-- `JobCheckpoints.get`. -/
def getCheckpoint (job : UUID) (key : String) (r : JobRedis) : Option Json :=
  r.checkpoints.get (store.checkpointKey job key)

def commitCheckpoint (checkpoints : JobCheckpoints) (job : UUID) (key : String)
    (value : Json) (r : JobRedis) : JobRedis :=
  { r with
    checkpoints := r.checkpoints.set (store.checkpointKey job key) value
      (r.clock + checkpoints.ttlSeconds) }

/-- The atomic block of `JobCheckpoints.save`: it reads the raw job document. -/
def saveCheckpoint (checkpoints : JobCheckpoints) (job : UUID) (key : String)
    (value : Json) (r : JobRedis) : Bool × JobRedis :=
  match checkpoints.runGeneration with
  | none =>
      if (r.checkpoints (store.checkpointKey job key)).isSome then (false, r)
      else (true, store.commitCheckpoint checkpoints job key value r)
  | some generation =>
      match r.states.get job with
      | none => (false, r)
      | some state =>
          if state.runGeneration ≠ generation ∨ state.terminal then (false, r)
          else if (r.checkpoints (store.checkpointKey job key)).isSome then
            (false, r)
          else (true, store.commitCheckpoint checkpoints job key value r)

/-- A fenced save writes nothing. -/
theorem saveCheckpoint_of_ne {store : DurableJobStore}
    {checkpoints : JobCheckpoints} {generation : Int}
    (hgen : checkpoints.runGeneration = some generation) {job : UUID}
    {r : JobRedis}
    (hne : ∀ state, r.states.get job = some state →
      state.runGeneration ≠ generation)
    (key : String) (value : Json) :
    store.saveCheckpoint checkpoints job key value r = (false, r) := by
  unfold saveCheckpoint
  rw [hgen]
  cases hget : r.states.get job with
  | none => rfl
  | some state => simp [hne state hget]

end DurableJobStore

end SearchTrust.Jobs

/-
The atomic operations that the processes of the job runtime interleave, and the
machine that executes them: the blocks of the store, the calls of outside
services, whose replies the environment chooses, and the events of the
heartbeat task of an execution.
-/
namespace SearchTrust.Jobs

open SearchTrust.Interleave SearchTrust.Redis

/-- The answer of `finalize_v22_capability_failure`. -/
structure FinalizeAnswer where
  status : String
  completedReport : Option CapabilityReport
deriving DecidableEq

/-- The arguments of `finalize_v22_capability_failure`. -/
structure FinalizeRequest where
  jobId : UUID
  task : CapabilityTaskRequest
  runGeneration : Int
  errorCode : String
  userMessage : String
  attemptCount : Int
  fail : Bool
deriving DecidableEq

/-- The `asyncio` events that an execution shares with its heartbeat task. -/
structure HeartbeatTask where
  started : Bool
  stop : Bool
  lost : Bool
  ended : Bool

/-- One atomic operation.  An execution is named by a number. -/
inductive JobOp where
  | registerJob (a : Registration)
  | getState (job : UUID)
  | getRequest (job : UUID)
  | transition (a : Transition)
  | takeOverStale (job : UUID) (expectedGeneration : Int) (now : Instant)
  | retryFailed (job : UUID) (now : Instant)
  | markCallbackSynced (job : UUID) (revision : Int)
  | acquireLease (job : UUID) (generation : Int) (token : String) (ttlSeconds : Nat)
  | refreshLease (job : UUID) (generation : Int) (token : String) (ttlSeconds : Nat)
  | releaseLease (job : UUID) (generation : Int) (token : String)
  | listStaleJobs (cutoff : Instant)
  | listPendingCallbacks
  | listPendingRecoveries
  | pendingRecoveryGeneration (job : UUID)
  | discardPendingRecovery (job : UUID) (generation : Int)
  | discardMissingJobIndexes (job : UUID)
  | discardMissingJobRecovery (job : UUID) (generation : Int)
  | markRecoveryEnqueued (job : UUID) (generation : Int) (now : Instant)
  | publish (job : UUID) (revision : Int)
  | getCheckpoint (job : UUID) (key : String)
  | saveCheckpoint (checkpoints : JobCheckpoints) (job : UUID) (key : String)
      (value : Json)
  /-- `CallbackSender.send`. -/
  | send (state : JobState)
  /-- `JobQueue.enqueue`. -/
  | enqueue (job : UUID) (generation : Int)
  | finalizeFailure (request : FinalizeRequest)
  | utcNow
  | uuid4
  | ledgerEnsure (job : UUID) (requireExisting : Bool)
  | recordJobAttempt (job : UUID)
  /-- `JobCostLedger.claim`, `complete` and `record_checkpoint_hit`. -/
  | recordCost (job : UUID)
  | ledgerSnapshot (job : UUID)
  | enqueueCostSummary (job : UUID)
  /-- The call of `executor.execute`. -/
  | startExecutor (job : UUID)
  | startHeartbeat (execution : Nat)
  | awaitHeartbeatStart (execution : Nat)
  | stopHeartbeat (execution : Nat)
  | heartbeatStopped (execution : Nat)
  | setHeartbeatLost (execution : Nat)
  | heartbeatLost (execution : Nat)
  | endHeartbeat (execution : Nat)
  | awaitHeartbeatEnd (execution : Nat)

/-- What an operation returns. -/
@[reducible] def JobOp.Value : JobOp → Type
  | registerJob _ => RegistrationResult
  | getState _ => Option JobState
  | getRequest _ => Option RequestPayload
  | transition _ => TransitionResult
  | takeOverStale _ _ _ => TransitionResult
  | retryFailed _ _ => JobState
  | markCallbackSynced _ _ => JobState
  | acquireLease _ _ _ _ => Bool
  | refreshLease _ _ _ _ => Bool
  | releaseLease _ _ _ => Bool
  | listStaleJobs _ => List UUID
  | listPendingCallbacks => List UUID
  | listPendingRecoveries => List (UUID × Int)
  | pendingRecoveryGeneration _ => Option Int
  | discardPendingRecovery _ _ => Bool
  | discardMissingJobIndexes _ => Bool
  | discardMissingJobRecovery _ _ => Bool
  | markRecoveryEnqueued _ _ _ => Bool
  | publish _ _ => Unit
  | getCheckpoint _ _ => Option Json
  | saveCheckpoint _ _ _ _ => Bool
  | send _ => Bool
  | enqueue _ _ => Bool
  | finalizeFailure _ => FinalizeAnswer
  | utcNow => Instant
  | uuid4 => UUID
  | ledgerEnsure _ _ => Unit
  | recordJobAttempt _ => Unit
  | recordCost _ => Unit
  | ledgerSnapshot _ => CostCounters
  | enqueueCostSummary _ => Unit
  | startExecutor _ => Unit
  | startHeartbeat _ => Unit
  | awaitHeartbeatStart _ => Unit
  | stopHeartbeat _ => Unit
  | heartbeatStopped _ => Bool
  | setHeartbeatLost _ => Unit
  | heartbeatLost _ => Bool
  | endHeartbeat _ => Unit
  | awaitHeartbeatEnd _ => Unit

def jobSignature : Signature := ⟨JobOp, JobOp.Value⟩

/-- A process of the job runtime. -/
abbrev Proc (α : Type) := Program jobSignature JobException α

/-- A process that makes one call. -/
abbrev call (op : JobOp) : Proc op.Value :=
  Program.perform (S := jobSignature) op

/-- The calls that read, notify or wait, and decide nothing about a job. -/
def JobOp.readsOnly : JobOp → Bool
  | getState _ | getRequest _ | listStaleJobs _ | listPendingCallbacks
  | listPendingRecoveries | pendingRecoveryGeneration _ | publish _ _
  | getCheckpoint _ _ | send _ | utcNow | uuid4
  | ledgerEnsure _ _ | ledgerSnapshot _ | enqueueCostSummary _
  | awaitHeartbeatStart _ | heartbeatStopped _ | heartbeatLost _
  | awaitHeartbeatEnd _ => true
  | _ => false

/-- The calls that never leave the process, so that nothing interrupts them. -/
def JobOp.inProcess : JobOp → Bool
  | utcNow | uuid4 | startExecutor _ | startHeartbeat _ | awaitHeartbeatStart _
  | stopHeartbeat _ | heartbeatStopped _ | setHeartbeatLost _ | heartbeatLost _
  | endHeartbeat _ => true
  | _ => false

/-- `require_state`, called on its own. -/
def requireState (job : UUID) : Proc JobState := do
  match ← call (.getState job) with
  | none => .raise .jobNotFound
  | some state => return state

/-- The shared state: the server and the heartbeat tasks of all executions. -/
structure World where
  redis : JobRedis
  tasks : Nat → HeartbeatTask

namespace World

def initial : World := ⟨JobRedis.initial, fun _ => ⟨false, false, false, false⟩⟩

/-- The outcome of a block: a block that raises writes nothing. -/
def commit {α : Type} (w : World) :
    Except JobException (α × JobRedis) → Except JobException α × World
  | .ok (value, redis) => (.ok value, { w with redis })
  | .error e => (.error e, w)

/-- The outcome of a block that cannot raise. -/
def write {α : Type} (w : World) (outcome : α × JobRedis) :
    Except JobException α × World :=
  (.ok outcome.1, { w with redis := outcome.2 })

def setTask (w : World) (execution : Nat) (task : HeartbeatTask) : World :=
  { w with tasks := fun n => if n = execution then task else w.tasks n }

end World

/-- Why a call can fail before it has any effect. -/
inductive Interruption where
  | connectionError
  | cancelled

def Interruption.exception : Interruption → JobException
  | connectionError => .unexpected
  | cancelled => .cancelled

/-- The choice of the environment for one call: it goes through, with the given
replies of the outside services, or it is interrupted. -/
inductive JobAnswer where
  | proceed (reply : (op : JobOp) → Except JobException op.Value)
  | interrupt (reason : Interruption)

/-- Execute one operation.  `none` means that the caller has to wait. -/
def JobOp.exec (store : DurableJobStore)
    (reply : (op : JobOp) → Except JobException op.Value) :
    (op : JobOp) → World → Option (Except JobException op.Value × World)
  | .registerJob a, w => some (w.commit (store.registerJob a w.redis))
  | .getState job, w =>
      some (w.commit ((w.redis.getState job).map fun state => (state, w.redis)))
  | .getRequest job, w => some (.ok (w.redis.requests.get job), w)
  | .transition a, w => some (w.commit (store.transition a w.redis))
  | .takeOverStale job generation now, w =>
      some (w.commit (store.takeOverStale job generation now w.redis))
  | .retryFailed job now, w => some (w.commit (store.retryFailed job now w.redis))
  | .markCallbackSynced job revision, w =>
      some (w.commit (store.markCallbackSynced job revision w.redis))
  | .acquireLease job generation token ttl, w =>
      some (w.write (store.acquireLease job generation token ttl w.redis))
  | .refreshLease job generation token ttl, w =>
      some (w.write (store.refreshLease job generation token ttl w.redis))
  | .releaseLease job generation token, w =>
      some (w.write (store.releaseLease job generation token w.redis))
  | .listStaleJobs cutoff, w => some (.ok (w.redis.listStaleJobs cutoff), w)
  | .listPendingCallbacks, w => some (.ok w.redis.listPendingCallbacks, w)
  | .listPendingRecoveries, w => some (.ok w.redis.listPendingRecoveries, w)
  | .pendingRecoveryGeneration job, w =>
      some (.ok (w.redis.pendingRecoveryGeneration job), w)
  | .discardPendingRecovery job generation, w =>
      some (w.write (w.redis.discardPendingRecovery job generation))
  | .discardMissingJobIndexes job, w =>
      some (w.write (w.redis.discardMissingJobIndexes job))
  | .discardMissingJobRecovery job generation, w =>
      some (w.write (w.redis.discardMissingJobRecovery job generation))
  | .markRecoveryEnqueued job generation now, w =>
      some (w.commit (w.redis.markRecoveryEnqueued job generation now))
  | .publish _ _, w => some (.ok (), w)
  | .getCheckpoint job key, w => some (.ok (store.getCheckpoint job key w.redis), w)
  | .saveCheckpoint checkpoints job key value, w =>
      some (w.write (store.saveCheckpoint checkpoints job key value w.redis))
  | .startExecutor _, w => some (.ok (), w)
  | .startHeartbeat x, w =>
      some (.ok (), w.setTask x { w.tasks x with started := true })
  | .awaitHeartbeatStart x, w =>
      if (w.tasks x).started then some (.ok (), w) else none
  | .stopHeartbeat x, w =>
      some (.ok (), w.setTask x { w.tasks x with stop := true })
  | .heartbeatStopped x, w => some (.ok (w.tasks x).stop, w)
  | .setHeartbeatLost x, w =>
      some (.ok (), w.setTask x { w.tasks x with lost := true })
  | .heartbeatLost x, w => some (.ok (w.tasks x).lost, w)
  | .endHeartbeat x, w =>
      some (.ok (), w.setTask x { w.tasks x with ended := true })
  | .awaitHeartbeatEnd x, w =>
      if (w.tasks x).ended then some (.ok (), w) else none
  | .send state, w => some (reply (.send state), w)
  | .enqueue job generation, w => some (reply (.enqueue job generation), w)
  | .finalizeFailure request, w => some (reply (.finalizeFailure request), w)
  | .utcNow, w => some (reply .utcNow, w)
  | .uuid4, w => some (reply .uuid4, w)
  | .ledgerEnsure job existing, w => some (reply (.ledgerEnsure job existing), w)
  | .recordJobAttempt job, w => some (reply (.recordJobAttempt job), w)
  | .recordCost job, w => some (reply (.recordCost job), w)
  | .ledgerSnapshot job, w => some (reply (.ledgerSnapshot job), w)
  | .enqueueCostSummary job, w => some (reply (.enqueueCostSummary job), w)

/-- The machine of the job runtime, for one way in which time passes on the
server. -/
def jobMachine (store : DurableJobStore) (tick : JobRedis → Nat → JobRedis) :
    Machine jobSignature JobException World where
  Answer := JobAnswer
  exec
    | .proceed reply, op, w => JobOp.exec store reply op w
    | .interrupt reason, op, w =>
        if op.inProcess then none else some (.error reason.exception, w)
  Drift := Nat
  drift seconds w := some { w with redis := tick w.redis seconds }

/-- Time passes, and no job state expires: a job state lives for days and is
renewed by every write, a lease for minutes. -/
def JobRedis.tickWithinStateTtl (r : JobRedis) (seconds : Nat) : JobRedis :=
  { r.tick seconds with states := r.states }

/-- The runtime over a period in which no job state expires. -/
def durableMachine (store : DurableJobStore) :
    Machine jobSignature JobException World :=
  jobMachine store JobRedis.tickWithinStateTtl

/-- The runtime with every expiry that the time to live of a key allows. -/
def expiringMachine (store : DurableJobStore) :
    Machine jobSignature JobException World :=
  jobMachine store JobRedis.tick

section Sample

/-- The default settings; the digest only has to tell the sample texts apart. -/
def sampleStore : DurableJobStore where
  stateTtlSeconds := 604800
  jobTimeoutSeconds := 900
  sha256 := fun text =>
    text.toList.foldl (fun digest c => digest * 257 + BitVec.ofNat 256 c.toNat) 1

def sampleRegistration : Registration where
  jobId := 1
  caseId := 7
  idempotencyKey := "key"
  requestPayload := ⟨none, none, "{}"⟩
  now := 0

/-- The first move of a delivered run of the sample job. -/
def sampleRunning : Transition where
  jobId := 1
  status := .running
  stage := .collectingSite
  progress := 1
  message := "Collecting site evidence."
  now := 20
  attemptCount := some 1
  expectedGeneration := some 1

/-- Every outside service fails and no call is interrupted. -/
def quiet : JobAnswer := .proceed fun _ => .error .unexpected

end Sample

end SearchTrust.Jobs
