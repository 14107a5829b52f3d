/-
The worker: one delivery of a physical run, and the heartbeat task that renews
its lease while it runs.
-/
import SearchTrust.Jobs.CapabilityTerminal

namespace SearchTrust.Jobs

open SearchTrust.Interleave SearchTrust.Interleave.Program

/-- What an executor can ask of the runtime: to report a stage, to use the
checkpoints of its job, and to write to the cost ledger. -/
inductive ExecutorOp where
  | reportProgress (stage : JobStage)
  | getCheckpoint (key : String)
  | saveCheckpoint (key : String) (value : Json)
  | recordCost

@[reducible] def ExecutorOp.Value : ExecutorOp → Type
  | reportProgress _ => Unit
  | getCheckpoint _ => Option Json
  | saveCheckpoint _ _ => Bool
  | recordCost => Unit

def executorSignature : Signature := ⟨ExecutorOp, ExecutorOp.Value⟩

/-- `executor.execute`, seen from the runtime: any program that asks for these
and ends with a report or an exception, of which a timeout is one. -/
abbrev Executor := Program executorSignature JobException DurableReport

/-- One delivery of a physical run by the queue.  The heartbeat task loops for
as long as it is let; `heartbeatRounds` bounds the rounds that a run looks at. -/
structure Delivery where
  jobId : UUID
  runGeneration : Int
  leaseToken : String
  executor : Executor
  heartbeatRounds : Nat

/-- The part of `ctx` that decides what a delivery does; the three flags tell
whether there is a synchronizer, an outbox and a coordinator. -/
structure WorkerContext where
  leaseSeconds : Nat
  stateTtlSeconds : Nat
  maxAttempts : Int
  sha256 : String → Digest
  callbackSynchronizer : Bool
  costSummaryOutbox : Bool
  capabilityTerminalCoordinator : Bool

namespace WorkerContext

variable (ctx : WorkerContext)

/-- `retry_delay_seconds`. -/
def retryDelaySeconds (job : UUID) (attemptCount : Int) : Int :=
  let base := min (5 * 2 ^ (attemptCount - 1).toNat) 60
  let digest := ctx.sha256 (uuidText job ++ ":" ++ attemptCount.repr)
  base + ((digest >>> 248).toNat % 4 : Nat)

/-- `_notify_state`. -/
def notifyState (job : UUID) : Proc Unit :=
  if ctx.callbackSynchronizer then trySync job else return ()

/-- `_enqueue_cost_summary`. -/
def enqueueCostSummary (state : JobState) : Proc Unit :=
  if ctx.costSummaryOutbox ∧ state.terminal ∧ state.completedAt.isSome then
    catchException
      (do
        let _ ← call (.ledgerSnapshot state.jobId)
        call (.enqueueCostSummary state.jobId))
      fun _ => return ()
  else return ()

/-- What follows a transition that may have ended the job. -/
def announceEnd (job : UUID) (result : TransitionResult) : Proc Unit := do
  if result.applied then
    ctx.notifyState job
    ctx.enqueueCostSummary result.state
  else return ()

section Failure

/-- The attempt count that a failure records. -/
def failedAttempts (state : JobState) : Int := max state.attemptCount 1

def retryTransition (state : JobState) (generation : Int) (now : Instant)
    (costCounters : CostCounters) : Transition where
  jobId := state.jobId
  status := .queued
  stage := .queued
  progress := state.progress
  message := "A temporary issue occurred. The task will retry automatically."
  now := now
  attemptCount := some (failedAttempts state)
  costCounters := some costCounters
  expectedGeneration := some generation

/-- The run goes back to the queue, which delivers it again. -/
def retryLater (state : JobState) (generation : Int)
    (costCounters : CostCounters) : Proc Unit := do
  let now ← call .utcNow
  let queued ← Client.transition
    (retryTransition state generation now costCounters)
  if queued.applied then ctx.notifyState state.jobId else return ()
  .raise (.retry (ctx.retryDelaySeconds state.jobId (failedAttempts state)))

/-- The text that the owner of the audit reads. -/
def failureMessage (failure : ClassifiedJobError) : String :=
  if failure.retryable then
    "The analysis could not be completed after multiple attempts. " ++
      "Please retry later."
  else failure.userMessage

def failureError (failure : ClassifiedJobError) (diagnosticId : UUID) :
    JobErrorState where
  errorCode :=
    if failure.retryable then "JOB_RETRY_EXHAUSTED" else failure.errorCode
  userMessage := failureMessage failure
  retryable := failure.retryable
  stage := .failed
  diagnosticId := diagnosticId

def failureTransition (state : JobState) (failure : ClassifiedJobError)
    (error : JobErrorState) (generation : Int) (now : Instant)
    (costCounters : CostCounters) : Transition where
  jobId := state.jobId
  status := .failed
  stage := .failed
  progress := state.progress
  message := failureMessage failure
  now := now
  attemptCount := some (failedAttempts state)
  error := some error
  costCounters := some costCounters
  expectedGeneration := some generation

/-- A final failure, unless the database decides. -/
def recordFailure (state : JobState) (failure : ClassifiedJobError)
    (generation : Int) (costCounters : CostCounters) (error : JobErrorState) :
    Proc Unit := do
  let now ← call .utcNow
  let (handled, terminal) ← capabilityTerminalTransition state error now
    ctx.capabilityTerminalCoordinator true (some costCounters)
  if handled then
    match terminal with
    | none => .raise (.retry 30)
    | some updated => ctx.announceEnd state.jobId updated
  else
    let now ← call .utcNow
    let failed ← Client.transition
      (failureTransition state failure error generation now costCounters)
    ctx.announceEnd state.jobId failed

/-- The failure is final. -/
def failRun (state : JobState) (failure : ClassifiedJobError) (generation : Int)
    (costCounters : CostCounters) : Proc Unit := do
  let diagnosticId ← call .uuid4
  match (failureError failure diagnosticId).modelValidate with
  | .error e => .raise e
  | .ok error => ctx.recordFailure state failure generation costCounters error

/-- `_finish_failure`. -/
def finishFailure (state : JobState) (exc : JobException) (generation : Int)
    (costCounters : CostCounters) : Proc Unit :=
  let failure := classifyJobException exc
  if exc = .jobLeaseLost then return ()
  else if failure.retryable ∧ failedAttempts state < ctx.maxAttempts then
    ctx.retryLater state generation costCounters
  else ctx.failRun state failure generation costCounters

end Failure

section Execution

variable (n : Nat) (d : Delivery)

/-- A failure together with the costs so far. -/
def failWithCosts (state : JobState) (exc : JobException) : Proc Unit := do
  let costCounters ← call (.ledgerSnapshot d.jobId)
  ctx.finishFailure state exc d.runGeneration costCounters

/-- The ledger of a capability task must be there once the task has begun. -/
def ensureLedger (state : JobState) (request : Option RequestPayload) :
    Proc Unit :=
  if isCapabilityRequest request then
    catchException
      (call (.ledgerEnsure d.jobId
        (!state.costCounters.isEmpty || decide (0 < state.attemptCount))))
      fun _ => .raise (.retry 30)
  else call (.ledgerEnsure d.jobId false)

def runningTransition (state : JobState) (request : RequestPayload)
    (now : Instant) : Transition where
  jobId := d.jobId
  status := .running
  stage :=
    if isCapabilityRequest (some request) then .buildingEvidence
    else .collectingSite
  progress := max state.progress 1
  message := "Analysis is running."
  now := now
  attemptCount := some (state.attemptCount + 1)
  heartbeatAt := some now
  expectedGeneration := some d.runGeneration

/-- The message of a reported stage; the other stages are never reported. -/
def stageMessage : JobStage → Option String
  | .collectingMarket =>
      some "Checking the saved search context and source validity."
  | .collectingSite =>
      some "Checking website pages and the public business profile."
  | .collectingCompetitors =>
      some "Collecting the confirmed competitors' public evidence."
  | .buildingEvidence => some "Organising saved sources for the diagnosis."
  | .evaluating => some "Evaluating the evidence and supported actions."
  | .validating => some "Validating the report and its source references."
  | .persisting => some "Saving the validated report."
  | .queued | .generatingCopy | .completed | .failed => none

def stageTransition (current : JobState) (stage : JobStage) (message : String)
    (now : Instant) : Transition where
  jobId := d.jobId
  status := .running
  stage := stage
  progress := current.progress
  message := message
  now := now
  expectedGeneration := some d.runGeneration

/-- The end of `report_stage`, for a run that still holds its lease. -/
def commitStage (current : JobState) (stage : JobStage) : Proc Unit :=
  match stageMessage stage with
  | none => .raise .unexpected
  | some message => do
      let now ← call .utcNow
      let updated ← Client.transition (stageTransition d current stage message now)
      if updated.applied then ctx.notifyState d.jobId else .raise .jobLeaseLost

/-- `report_stage`. -/
def reportStage (stage : JobStage) : Proc Unit := do
  let current ← requireState d.jobId
  if current.runGeneration ≠ d.runGeneration ∨ current.status ≠ .running then
    .raise .jobLeaseLost
  else
    let lost ← call (.heartbeatLost n)
    if lost then .raise .jobLeaseLost else ctx.commitStage d current stage

/-- The checkpoints and the ledger that a run hands to its executor. -/
def serve : (op : ExecutorOp) → Proc op.Value
  | .reportProgress stage => ctx.reportStage n d stage
  | .getCheckpoint key => call (.getCheckpoint d.jobId key)
  | .saveCheckpoint key value =>
      call (.saveCheckpoint ⟨ctx.stateTtlSeconds, some d.runGeneration⟩ d.jobId
        key value)
  | .recordCost => call (.recordCost d.jobId)

/-- The `try` block around the executor. -/
def runExecutor : Proc DurableReport := do
  let _ ← call .utcNow
  let _ ← call (.startExecutor d.jobId)
  let report ← d.executor.interpret (ctx.serve n d)
  let lost ← call (.heartbeatLost n)
  if lost then .raise .jobLeaseLost else return report

def succeededTransition (report : DurableReport) (now : Instant)
    (costCounters : CostCounters) : Transition where
  jobId := d.jobId
  status := .succeeded
  stage := .completed
  progress := 100
  message := "Analysis complete."
  now := now
  report := some report
  costCounters := some costCounters
  expectedGeneration := some d.runGeneration

def commitReport (report : DurableReport) : Proc Unit := do
  let costCounters ← call (.ledgerSnapshot d.jobId)
  let now ← call .utcNow
  let completed ← Client.transition (succeededTransition d report now costCounters)
  ctx.announceEnd d.jobId completed

/-- What follows the `try` block, on each of its outcomes. -/
def finishRun (running : JobState) (outcome : Except JobException DurableReport) :
    Proc Unit := do
  let _ ← call (.recordJobAttempt d.jobId)
  match outcome with
  | .ok report => ctx.commitReport d report
  | .error .timeout => ctx.failWithCosts d running .jobDeadlineExceeded
  | .error .cancelled => .raise .cancelled
  | .error exc => ctx.failWithCosts d running exc

/-- The run of a job whose request is there and whose deadline has not passed. -/
def startRun (state : JobState) (request : RequestPayload) : Proc Unit := do
  let started ← call .utcNow
  let running ← Client.transition (runningTransition d state request started)
  if running.applied then
    ctx.notifyState d.jobId
    let outcome ← (ctx.runExecutor n d).attempt
    ctx.finishRun d running.state outcome
  else return ()

/-- `_execute_with_lease`. -/
def executeWithLease (state : JobState) : Proc Unit := do
  let request ← call (.getRequest d.jobId)
  ensureLedger d state request
  let now ← call .utcNow
  if state.deadlineAt ≤ now then ctx.failWithCosts d state .jobDeadlineExceeded
  else
    match request with
    | none =>
        ctx.failWithCosts d state (.deterministic "JOB_REQUEST_MISSING"
          "The persisted analysis request is unavailable.")
    | some request => ctx.startRun n d state request

/-- The `finally` block: the heartbeat task has ended before the lease is
given back. -/
def releaseRun : Proc Unit := do
  let _ ← call (.stopHeartbeat n)
  let _ ← call (.awaitHeartbeatEnd n)
  let _ ← call (.releaseLease d.jobId d.runGeneration d.leaseToken)

/-- `execute_v22_job` once it has its lease. -/
def holdLease (state : JobState) : Proc Unit := do
  let _ ← call (.startHeartbeat n)
  (ctx.executeWithLease n d state).ensuring (releaseRun n d)

/-- `execute_v22_job` once it has read the state of its job. -/
def takeLease (state : JobState) : Proc Unit := do
  let acquired ← call (.acquireLease d.jobId d.runGeneration d.leaseToken
    ctx.leaseSeconds)
  if acquired then ctx.holdLease n d state else return ()

/-- `execute_v22_job`. -/
def executeV22Job : Proc Unit := do
  let state ← requireState d.jobId
  if state.terminal ∨ state.runGeneration ≠ d.runGeneration then return ()
  else ctx.takeLease n d state

end Execution

section Heartbeat

variable (n : Nat) (d : Delivery)

/-- The `try` block of one round; its value tells whether there is a next one. -/
def beat : Proc Bool := do
  let refreshed ← call (.refreshLease d.jobId d.runGeneration d.leaseToken
    ctx.leaseSeconds)
  if refreshed then
    let now ← call .utcNow
    let _ ← Client.heartbeat d.jobId d.runGeneration now
    return true
  else
    let _ ← call (.setHeartbeatLost n)
    return false

/-- The handlers of one round; a cancellation ends the task. -/
def beatFailed (n : Nat) (e : JobException) : Proc Bool :=
  if e = .jobLeaseLost then do
    let _ ← call (.setHeartbeatLost n)
    return false
  else if e.isException then return true
  else .raise e

/-- One round of `maintain_heartbeat`. -/
def heartbeatRound : Proc Bool := do
  let stopped ← call (.heartbeatStopped n)
  if stopped then return false
  else (ctx.beat n d).handle (beatFailed n)

def heartbeatRounds : Nat → Proc Unit
  | 0 => return ()
  | rounds + 1 => do
      let continues ← ctx.heartbeatRound n d
      if continues then heartbeatRounds rounds else return ()

/-- `maintain_heartbeat`, as the task that the execution creates and awaits. -/
def maintainHeartbeat : Proc Unit := do
  let _ ← call (.awaitHeartbeatStart n)
  (ctx.heartbeatRounds n d d.heartbeatRounds).ensuring (call (.endHeartbeat n))

end Heartbeat

section Calls

variable {P : JobOp → Prop} {ctx : WorkerContext} {n : Nat} {d : Delivery}

theorem onlyCalls_notifyState (hread : ∀ op, op.readsOnly = true → P op)
    {job : UUID} (hmark : ∀ revision, P (.markCallbackSynced job revision)) :
    (ctx.notifyState job).OnlyCalls P := by
  unfold notifyState
  split
  next => exact onlyCalls_trySync hread hmark
  next => trivial

theorem onlyCalls_enqueueCostSummary (hread : ∀ op, op.readsOnly = true → P op)
    (state : JobState) : (ctx.enqueueCostSummary state).OnlyCalls P := by
  unfold enqueueCostSummary
  split
  next =>
    refine onlyCalls_catchException ?_ fun _ => trivial
    exact (onlyCalls_call (hread _ rfl)).bind fun _ => onlyCalls_call (hread _ rfl)
  next => trivial

theorem onlyCalls_announceEnd (hread : ∀ op, op.readsOnly = true → P op)
    {job : UUID} (hmark : ∀ revision, P (.markCallbackSynced job revision))
    (result : TransitionResult) : (ctx.announceEnd job result).OnlyCalls P := by
  unfold announceEnd
  split
  next =>
    exact (onlyCalls_notifyState hread hmark).bind fun _ =>
      onlyCalls_enqueueCostSummary hread result.state
  next => trivial

/-- The end of a retry, once the job is back in the queue. -/
theorem onlyCalls_retryEnd (hread : ∀ op, op.readsOnly = true → P op)
    {job : UUID} (hmark : ∀ revision, P (.markCallbackSynced job revision))
    (applied : Bool) (deferSeconds : Int) :
    (do
      if applied then ctx.notifyState job else return ()
      .raise (.retry deferSeconds) : Proc Unit).OnlyCalls P := by
  cases applied with
  | true => exact (onlyCalls_notifyState hread hmark).bind fun _ => trivial
  | false => trivial

theorem onlyCalls_retryLater (hread : ∀ op, op.readsOnly = true → P op)
    {state : JobState}
    (hmark : ∀ revision, P (.markCallbackSynced state.jobId revision))
    {generation : Int} {costCounters : CostCounters}
    (hmove : ∀ now, P (.transition
      (retryTransition state generation now costCounters))) :
    (ctx.retryLater state generation costCounters).OnlyCalls P := by
  refine (onlyCalls_call (hread _ rfl)).bind fun now => ?_
  refine (onlyCalls_transition hread (hmove now)).bind fun queued => ?_
  exact onlyCalls_retryEnd hread hmark queued.applied _

theorem onlyCalls_failRun (hread : ∀ op, op.readsOnly = true → P op)
    (hfinal : ∀ request, P (.finalizeFailure request)) {state : JobState}
    (hmark : ∀ revision, P (.markCallbackSynced state.jobId revision))
    (hdecided : ∀ a : Transition, a.jobId = state.jobId → a.attemptCount = none →
      a.expectedGeneration = some state.runGeneration → P (.transition a))
    {failure : ClassifiedJobError} {generation : Int} {costCounters : CostCounters}
    (hmove : ∀ error now, P (.transition
      (failureTransition state failure error generation now costCounters))) :
    (ctx.failRun state failure generation costCounters).OnlyCalls P := by
  refine (onlyCalls_call (hread _ rfl)).bind fun diagnosticId => ?_
  split
  next => trivial
  next error _ =>
    refine (onlyCalls_call (hread _ rfl)).bind fun now => ?_
    refine (onlyCalls_capabilityTerminalTransition hread hfinal
      (fun a h => hdecided a h.job h.attempt h.generation) _ _ _ _).bind
      fun outcome => ?_
    obtain ⟨handled, terminal⟩ := outcome
    cases handled with
    | true =>
        cases terminal with
        | none => trivial
        | some updated => exact onlyCalls_announceEnd hread hmark updated
    | false =>
        refine (onlyCalls_call (hread _ rfl)).bind fun now => ?_
        refine (onlyCalls_transition hread (hmove error now)).bind fun failed => ?_
        exact onlyCalls_announceEnd hread hmark failed

theorem onlyCalls_finishFailure (hread : ∀ op, op.readsOnly = true → P op)
    (hfinal : ∀ request, P (.finalizeFailure request)) {state : JobState}
    (hmark : ∀ revision, P (.markCallbackSynced state.jobId revision))
    (hmove : ∀ a : Transition, a.jobId = state.jobId → P (.transition a))
    (exc : JobException) (generation : Int) (costCounters : CostCounters) :
    (ctx.finishFailure state exc generation costCounters).OnlyCalls P := by
  unfold finishFailure
  dsimp only
  split
  next => trivial
  next =>
    split
    next => exact onlyCalls_retryLater hread hmark fun _ => hmove _ rfl
    next =>
      exact onlyCalls_failRun hread hfinal hmark (fun a hjob _ _ => hmove a hjob)
        fun _ _ => hmove _ rfl

theorem onlyCalls_ensureLedger (hread : ∀ op, op.readsOnly = true → P op)
    (state : JobState) (request : Option RequestPayload) :
    (ensureLedger d state request).OnlyCalls P := by
  unfold ensureLedger
  split
  next => exact onlyCalls_catchException (onlyCalls_call (hread _ rfl)) fun _ => trivial
  next => exact onlyCalls_call (hread _ rfl)

theorem onlyCalls_reportStage (hread : ∀ op, op.readsOnly = true → P op)
    (hmark : ∀ revision, P (.markCallbackSynced d.jobId revision))
    (hmove : ∀ current stage message now, P (.transition
      (stageTransition d current stage message now))) (stage : JobStage) :
    (ctx.reportStage n d stage).OnlyCalls P := by
  refine (onlyCalls_requireState hread d.jobId).bind fun current => ?_
  split
  next => trivial
  next =>
    refine (onlyCalls_call (hread _ rfl)).bind fun lost => ?_
    cases lost with
    | true => trivial
    | false =>
        show (ctx.commitStage d current stage).OnlyCalls P
        unfold commitStage
        split
        next => trivial
        next message _ =>
          refine (onlyCalls_call (hread _ rfl)).bind fun now => ?_
          refine (onlyCalls_transition hread (hmove _ _ _ _)).bind fun updated => ?_
          split
          next => exact onlyCalls_notifyState hread hmark
          next => trivial

theorem onlyCalls_serve (hread : ∀ op, op.readsOnly = true → P op)
    (hmark : ∀ revision, P (.markCallbackSynced d.jobId revision))
    (hmove : ∀ current stage message now, P (.transition
      (stageTransition d current stage message now)))
    (hsave : ∀ checkpoints key value,
      P (.saveCheckpoint checkpoints d.jobId key value))
    (hcost : P (.recordCost d.jobId)) (op : ExecutorOp) :
    (ctx.serve n d op).OnlyCalls P := by
  cases op with
  | reportProgress stage => exact onlyCalls_reportStage hread hmark hmove stage
  | getCheckpoint key => exact onlyCalls_call (hread _ rfl)
  | saveCheckpoint key value => exact onlyCalls_call (hsave _ _ _)
  | recordCost => exact onlyCalls_call hcost

theorem onlyCalls_commitReport (hread : ∀ op, op.readsOnly = true → P op)
    (hmark : ∀ revision, P (.markCallbackSynced d.jobId revision))
    {report : DurableReport}
    (hmove : ∀ now costCounters, P (.transition
      (succeededTransition d report now costCounters))) :
    (ctx.commitReport d report).OnlyCalls P := by
  refine (onlyCalls_call (hread _ rfl)).bind fun costCounters => ?_
  refine (onlyCalls_call (hread _ rfl)).bind fun now => ?_
  refine (onlyCalls_transition hread (hmove _ _)).bind fun completed => ?_
  exact onlyCalls_announceEnd hread hmark completed

theorem onlyCalls_releaseRun (hread : ∀ op, op.readsOnly = true → P op)
    (hstop : P (.stopHeartbeat n))
    (hrelease : P (.releaseLease d.jobId d.runGeneration d.leaseToken)) :
    (releaseRun n d).OnlyCalls P := by
  refine (onlyCalls_call hstop).bind fun _ => ?_
  refine (onlyCalls_call (hread _ rfl)).bind fun _ => ?_
  exact (onlyCalls_call hrelease).bind fun _ => trivial

theorem onlyCalls_failWithCosts (hread : ∀ op, op.readsOnly = true → P op)
    (hfinal : ∀ request, P (.finalizeFailure request)) {state : JobState}
    (hmark : ∀ revision, P (.markCallbackSynced state.jobId revision))
    (hmove : ∀ a : Transition, a.jobId = state.jobId → P (.transition a))
    (exc : JobException) : (ctx.failWithCosts d state exc).OnlyCalls P :=
  (onlyCalls_call (hread _ rfl)).bind fun costCounters =>
    onlyCalls_finishFailure hread hfinal hmark hmove exc d.runGeneration costCounters

theorem onlyCalls_finishRun (hread : ∀ op, op.readsOnly = true → P op)
    (hfinal : ∀ request, P (.finalizeFailure request))
    (hmark : ∀ job revision, P (.markCallbackSynced job revision))
    (hmove : ∀ a : Transition, P (.transition a))
    (hrecord : P (.recordJobAttempt d.jobId)) (running : JobState)
    (outcome : Except JobException DurableReport) :
    (ctx.finishRun d running outcome).OnlyCalls P := by
  have hfail : ∀ exc, (ctx.failWithCosts d running exc).OnlyCalls P :=
    onlyCalls_failWithCosts hread hfinal (hmark _) fun a _ => hmove a
  refine (onlyCalls_call hrecord).bind fun _ => ?_
  split
  next => exact onlyCalls_commitReport hread (hmark _) fun _ _ => hmove _
  next => exact hfail _
  next => trivial
  next => exact hfail _

theorem onlyCalls_runExecutor (hread : ∀ op, op.readsOnly = true → P op)
    (hmark : ∀ revision, P (.markCallbackSynced d.jobId revision))
    (hmove : ∀ current stage message now, P (.transition
      (stageTransition d current stage message now)))
    (hsave : ∀ checkpoints key value,
      P (.saveCheckpoint checkpoints d.jobId key value))
    (hcost : P (.recordCost d.jobId)) (hstart : P (.startExecutor d.jobId)) :
    (ctx.runExecutor n d).OnlyCalls P := by
  refine (onlyCalls_call (hread _ rfl)).bind fun _ => ?_
  refine OnlyCalls.bind (onlyCalls_call hstart) fun _ => ?_
  refine (OnlyCalls.interpret ?_ d.executor).bind fun report => ?_
  · exact onlyCalls_serve hread hmark hmove hsave hcost
  · refine (onlyCalls_call (hread _ rfl)).bind fun lost => ?_
    cases lost <;> trivial

theorem onlyCalls_heartbeatRound (hread : ∀ op, op.readsOnly = true → P op)
    (hrefresh : P (.refreshLease d.jobId d.runGeneration d.leaseToken
      ctx.leaseSeconds))
    (hbeat : ∀ now current, P (.transition
      (Client.heartbeatTransition d.jobId d.runGeneration now current)))
    (hlost : P (.setHeartbeatLost n)) : (ctx.heartbeatRound n d).OnlyCalls P := by
  have hlose : (do
      let _ ← call (.setHeartbeatLost n)
      return false : Proc Bool).OnlyCalls P :=
    OnlyCalls.bind (onlyCalls_call hlost) fun _ => trivial
  refine (onlyCalls_call (hread _ rfl)).bind fun stopped => ?_
  cases stopped with
  | true => trivial
  | false =>
      refine OnlyCalls.handle ?_ fun e => ?_
      · refine OnlyCalls.bind (onlyCalls_call hrefresh) fun refreshed => ?_
        cases refreshed with
        | true =>
            refine (onlyCalls_call (hread _ rfl)).bind fun now => ?_
            refine OnlyCalls.bind ?_ fun _ => trivial
            exact (onlyCalls_requireState hread d.jobId).bind fun current =>
              onlyCalls_transition hread (hbeat now current)
        | false => exact hlose
      · unfold beatFailed
        split
        next => exact hlose
        next => split <;> trivial

theorem onlyCalls_maintainHeartbeat (hread : ∀ op, op.readsOnly = true → P op)
    (hrefresh : P (.refreshLease d.jobId d.runGeneration d.leaseToken
      ctx.leaseSeconds))
    (hbeat : ∀ now current, P (.transition
      (Client.heartbeatTransition d.jobId d.runGeneration now current)))
    (hlost : P (.setHeartbeatLost n)) (hend : P (.endHeartbeat n)) :
    (ctx.maintainHeartbeat n d).OnlyCalls P := by
  refine OnlyCalls.bind (onlyCalls_call (hread _ rfl)) fun _ => ?_
  refine OnlyCalls.ensuring ?_ (onlyCalls_call hend)
  generalize d.heartbeatRounds = rounds
  induction rounds with
  | zero => trivial
  | succ rounds ih =>
      refine (onlyCalls_heartbeatRound hread hrefresh hbeat hlost).bind
        fun continues => ?_
      cases continues with
      | true => exact ih
      | false => trivial

end Calls

end WorkerContext

namespace JobOp

/-- What delivery `n` and its heartbeat task may call once the lease is theirs. -/
def whileLeased (n : Nat) : JobOp → Bool
  | transition _ | markCallbackSynced _ _ | refreshLease _ _ _ _
  | releaseLease _ _ _ | saveCheckpoint _ _ _ _ | recordJobAttempt _
  | recordCost _ | startExecutor _ | finalizeFailure _ => true
  | startHeartbeat x | stopHeartbeat x | setHeartbeatLost x | endHeartbeat x =>
      decide (x = n)
  | op => op.readsOnly

theorem whileLeased_of_readsOnly {n : Nat} {op : JobOp} (h : op.readsOnly = true) :
    op.whileLeased n = true := by
  cases op <;> first | rfl | cases h

end JobOp

namespace WorkerContext

variable {ctx : WorkerContext} {n : Nat} {d : Delivery}

theorem onlyCalls_startRun (state : JobState) (request : RequestPayload) :
    (ctx.startRun n d state request).OnlyCalls
      fun op : JobOp => op.whileLeased n = true := by
  have hread : ∀ op : JobOp, op.readsOnly = true → op.whileLeased n = true :=
    fun _ => JobOp.whileLeased_of_readsOnly
  refine (onlyCalls_call (hread _ rfl)).bind fun started => ?_
  refine (onlyCalls_transition hread rfl).bind fun running => ?_
  split
  next =>
    refine (onlyCalls_notifyState hread fun _ => rfl).bind fun _ => ?_
    have hexecutor : (ctx.runExecutor n d).OnlyCalls
        fun op : JobOp => op.whileLeased n = true :=
      onlyCalls_runExecutor hread (fun _ => rfl) (fun _ _ _ _ => rfl)
        (fun _ _ _ => rfl) rfl rfl
    refine hexecutor.attempt.bind fun outcome => ?_
    exact onlyCalls_finishRun hread (fun _ => rfl) (fun _ _ => rfl) (fun _ => rfl) rfl _ outcome
  next => trivial

theorem onlyCalls_executeWithLease (state : JobState) :
    (ctx.executeWithLease n d state).OnlyCalls
      fun op : JobOp => op.whileLeased n = true := by
  have hread : ∀ op : JobOp, op.readsOnly = true → op.whileLeased n = true :=
    fun _ => JobOp.whileLeased_of_readsOnly
  have hfail : ∀ exc, (ctx.failWithCosts d state exc).OnlyCalls
      fun op : JobOp => op.whileLeased n = true :=
    onlyCalls_failWithCosts hread (fun _ => rfl) (fun _ => rfl) fun _ _ => rfl
  refine (onlyCalls_call (hread _ rfl)).bind fun request => ?_
  refine (onlyCalls_ensureLedger hread state request).bind fun _ => ?_
  refine (onlyCalls_call (hread _ rfl)).bind fun now => ?_
  split
  next => exact hfail _
  next =>
    cases request with
    | none => exact hfail _
    | some request => exact onlyCalls_startRun state request

/-- All that a delivery calls once it has its lease. -/
theorem onlyCalls_holdLease (state : JobState) :
    (ctx.holdLease n d state).OnlyCalls
      fun op : JobOp => op.whileLeased n = true := by
  refine OnlyCalls.bind (onlyCalls_call (decide_eq_true rfl)) fun _ => ?_
  exact (onlyCalls_executeWithLease state).ensuring
    (onlyCalls_releaseRun (fun _ => JobOp.whileLeased_of_readsOnly)
      (decide_eq_true rfl) rfl)

/-- All that the heartbeat task of a delivery calls. -/
theorem whileLeased_maintainHeartbeat : (ctx.maintainHeartbeat n d).OnlyCalls
    fun op : JobOp => op.whileLeased n = true :=
  onlyCalls_maintainHeartbeat (fun _ => JobOp.whileLeased_of_readsOnly) rfl
    (fun _ _ => rfl) (decide_eq_true rfl) (decide_eq_true rfl)

end WorkerContext

/-- The parties of a deployment; an execution and its heartbeat task share a
number. -/
inductive Actor where
  | execution (n : Nat)
  | heartbeat (n : Nat)
  | client (n : Nat)
deriving DecidableEq

abbrev WorkerEvent := Event jobSignature JobException World Actor

abbrev WorkerConfig := Config jobSignature JobException World Actor

/-- Deliveries under one context, next to processes of any other kind: those
that register, reconcile and retry jobs. -/
structure Deployment where
  ctx : WorkerContext
  deliveries : Nat → Delivery
  clients : Nat → Proc Unit

def Deployment.pool (dep : Deployment) : Actor → Proc Unit
  | .execution n => dep.ctx.executeV22Job n (dep.deliveries n)
  | .heartbeat n => dep.ctx.maintainHeartbeat n (dep.deliveries n)
  | .client n => dep.clients n

section Sample

def sampleContext : WorkerContext where
  leaseSeconds := 180
  stateTtlSeconds := 604800
  maxAttempts := 2
  sha256 := sampleStore.sha256
  callbackSynchronizer := false
  costSummaryOutbox := false
  capabilityTerminalCoordinator := false

/-- A delivery of the sample job. -/
def sampleDelivery (generation : Int) (token : String) (executor : Executor) :
    Delivery where
  jobId := 1
  runGeneration := generation
  leaseToken := token
  executor := executor
  heartbeatRounds := 1

/-- Every outside service does what it is asked to do. -/
def obliging : JobAnswer :=
  .proceed fun
    | .utcNow => .ok 20
    | .uuid4 => .ok 5
    | .send _ => .ok true
    | .enqueue _ _ => .ok true
    | .ledgerEnsure _ _ | .recordJobAttempt _ | .recordCost _
    | .enqueueCostSummary _ => .ok ()
    | .ledgerSnapshot _ => .ok []
    | _ => .error .unexpected

/-- One client registers the sample job, another one takes it over, and the
others do nothing. -/
def sampleClients : Nat → Proc Unit
  | 0 => do let _ ← Client.registerJob sampleRegistration
  | 1 => do let _ ← Client.takeOverStale 1 1 10
  | _ => return ()

end Sample

end SearchTrust.Jobs
