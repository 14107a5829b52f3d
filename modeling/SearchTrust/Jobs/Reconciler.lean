/-
Recovery of stale runs and of undelivered callbacks.
-/
import SearchTrust.Jobs.CapabilityTerminal

namespace SearchTrust.Jobs

open SearchTrust.Interleave SearchTrust.Interleave.Program

/-- The arguments of `reconcile_once`; `synchronizer` and `coordinator` tell
whether there is one. -/
structure Reconciliation where
  synchronizer : Bool
  coordinator : Bool
  now : Instant
  staleSeconds : Nat
  maxAttempts : Int

namespace Reconciliation

variable (cfg : Reconciliation)

/-- The end of a round that may have finished a job. -/
def syncApplied (job : UUID) (applied : Bool) : Proc Unit :=
  if cfg.synchronizer ∧ applied then trySync job else return ()

/-- `_sync_capability_terminal`. -/
def syncCapabilityTerminal (job : UUID) (updated : Option TransitionResult) :
    Proc Unit :=
  cfg.syncApplied job (updated.any TransitionResult.applied)

def deadlineError (diagnosticId : UUID) : JobErrorState where
  errorCode := "JOB_DEADLINE_EXCEEDED"
  userMessage := "The analysis exceeded its processing deadline."
  retryable := false
  stage := .failed
  diagnosticId := diagnosticId

def exhaustedError (diagnosticId : UUID) : JobErrorState where
  errorCode := "JOB_RETRY_EXHAUSTED"
  userMessage := "The analysis could not be completed after multiple attempts. " ++
    "Please retry later."
  retryable := true
  stage := .failed
  diagnosticId := diagnosticId

def probeError (diagnosticId : UUID) : JobErrorState where
  errorCode := "JOB_RETRY_EXHAUSTED"
  userMessage := "The previous analysis run did not finish."
  retryable := true
  stage := .failed
  diagnosticId := diagnosticId

/-- Fail a job over the snapshot `state`, unless the database decides. -/
def failJob (job : UUID) (state : JobState) (error : JobErrorState) :
    Proc Unit := do
  let (handled, updated) ← capabilityTerminalTransition state error cfg.now
    cfg.coordinator true none
  if handled then cfg.syncCapabilityTerminal job updated
  else
    let updated ← Client.transition
      { failedTransition state error cfg.now none with jobId := job }
    cfg.syncApplied job updated.applied

/-- Whether the callback of the takeover has been delivered. -/
def deliverTakeover (job : UUID) (state : JobState) : Proc Bool :=
  if state.callbackSyncedRevision < state.revision then
    catchException (sync job) fun _ => return false
  else return true

/-- Put the physical run in the queue; `false` when that failed. -/
def enqueueRun (job : UUID) (generation : Int) : Proc Bool :=
  catchException
    (do
      let _ ← call (.enqueue job generation)
      return true)
    fun _ => return false

/-- `_finish_pending_recovery` for a job that is there. -/
def finishRecovery (job : UUID) (generation : Int) (state : JobState) :
    Proc Unit := do
  if state.runGeneration ≠ generation then
    let _ ← call (.discardPendingRecovery job generation)
  else if state.terminal then
    let _ ← call (.discardPendingRecovery job generation)
  else if state.deadlineAt ≤ cfg.now then
    let diagnosticId ← call .uuid4
    cfg.failJob job state (deadlineError diagnosticId)
  else if cfg.synchronizer then
    let delivered ← deliverTakeover job state
    if delivered then
      let enqueued ← enqueueRun job generation
      if enqueued then
        let _ ← call (.markRecoveryEnqueued job generation cfg.now)
      else return ()
    else return ()
  else return ()

/-- `_finish_pending_recovery`. -/
def finishPendingRecovery (job : UUID) (generation : Int) : Proc Unit := do
  let found ← (requireState job).attempt
  match found with
  | .ok state => cfg.finishRecovery job generation state
  | .error .jobNotFound =>
      let _ ← call (.discardMissingJobRecovery job generation)
  | .error e => .raise e

/-- One round of the loop over the pending callbacks. -/
def syncPendingCallback (job : UUID) : Proc Unit := do
  let outcome ← (do
    let _ ← requireState job
    let _ ← sync job : Proc Unit).attempt
  match outcome with
  | .ok () => return ()
  | .error .jobNotFound =>
      let _ ← call (.discardMissingJobIndexes job)
  | .error e => if e.isException then return () else .raise e

/-- Finish the recovery whose marker was found, if there was one. -/
def finishObserved (job : UUID) : Option Int → Proc Unit
  | some generation => cfg.finishPendingRecovery job generation
  | none => return ()

/-- The takeover of a stale run, with the barrier that follows it. -/
def takeOver (job : UUID) (state : JobState) : Proc Unit := do
  let diagnosticId ← call .uuid4
  let (handled, probed) ← capabilityTerminalTransition state
    (probeError diagnosticId) cfg.now cfg.coordinator false none
  if handled then cfg.syncCapabilityTerminal job probed
  else
    let updated ← Client.takeOverStale job state.runGeneration cfg.now
    let recoveryGeneration ← call (.pendingRecoveryGeneration job)
    cfg.finishObserved job recoveryGeneration
    cfg.syncApplied job (updated.applied && updated.state.terminal)

/-- A stale job whose marker, if it had one of another generation, is gone;
`waiting` tells whether the marker of its own generation is there. -/
def settleStaleJob (job : UUID) (state : JobState) (waiting : Bool) :
    Proc Unit := do
  let deadlineExceeded := decide (state.deadlineAt ≤ cfg.now)
  -- A generation that has not been enqueued yet is never incremented.
  if waiting ∧ ¬ deadlineExceeded then return ()
  else if deadlineExceeded then
    let diagnosticId ← call .uuid4
    cfg.failJob job state (deadlineError diagnosticId)
  else if state.status = .running ∧ cfg.maxAttempts ≤ state.attemptCount then
    let diagnosticId ← call .uuid4
    cfg.failJob job state (exhaustedError diagnosticId)
  else cfg.takeOver job state

/-- One round of the loop over the stale jobs, for a job that is there. -/
def reconcileStaleState (job : UUID) (state : JobState) : Proc Unit := do
  if state.terminal then return ()
  else
    let pendingGeneration ← call (.pendingRecoveryGeneration job)
    match pendingGeneration with
    | none => cfg.settleStaleJob job state false
    | some generation =>
        if generation ≠ state.runGeneration then
          let _ ← call (.discardPendingRecovery job generation)
          cfg.settleStaleJob job state false
        else cfg.settleStaleJob job state true

/-- One round of the loop over the stale jobs. -/
def reconcileStaleJob (job : UUID) : Proc Unit := do
  let found ← (requireState job).attempt
  match found with
  | .ok state => cfg.reconcileStaleState job state
  | .error .jobNotFound =>
      let _ ← call (.discardMissingJobIndexes job)
  | .error e => .raise e

/-- The loop over the pending callbacks; the recovery barrier has already tried
the jobs in `recovering`. -/
def syncPendingCallbacks (recovering : List UUID) : Proc Unit :=
  if cfg.synchronizer then do
    let jobs ← call .listPendingCallbacks
    Program.forEach jobs fun job =>
      if job ∈ recovering then return () else syncPendingCallback job
  else return ()

/-- `reconcile_once`. -/
def reconcileOnce : Proc Unit := do
  let pending ← call .listPendingRecoveries
  Program.forEach pending fun (job, generation) =>
    cfg.finishPendingRecovery job generation
  cfg.syncPendingCallbacks (pending.map Prod.fst)
  let stale ← call (.listStaleJobs (cfg.now - cfg.staleSeconds * 1000000))
  Program.forEach stale cfg.reconcileStaleJob

section Calls

variable {P : JobOp → Prop} {cfg : Reconciliation} {job : UUID}

theorem onlyCalls_syncApplied (hread : ∀ op, op.readsOnly = true → P op)
    (hmark : ∀ revision, P (.markCallbackSynced job revision)) (applied : Bool) :
    (cfg.syncApplied job applied).OnlyCalls P := by
  unfold syncApplied
  split
  next => exact onlyCalls_trySync hread hmark
  next => trivial

theorem onlyCalls_failJob (hread : ∀ op, op.readsOnly = true → P op)
    (hfinal : ∀ request, P (.finalizeFailure request))
    (hmark : ∀ revision, P (.markCallbackSynced job revision))
    {state : JobState} {error : JobErrorState}
    (hmove : ∀ a : Transition, a.jobId = job ∨ a.jobId = state.jobId →
      a.attemptCount = none → a.expectedGeneration = some state.runGeneration →
      a.error = none ∨ a.error = some error → P (.transition a)) :
    (cfg.failJob job state error).OnlyCalls P := by
  have hdecided := onlyCalls_capabilityTerminalTransition hread hfinal
    (fun a (h : DecisionMove state error a) =>
      hmove a (Or.inr h.job) h.attempt h.generation h.error)
    cfg.now cfg.coordinator true none
  refine hdecided.bind fun outcome => ?_
  obtain ⟨handled, updated⟩ := outcome
  cases handled with
  | true => exact onlyCalls_syncApplied hread hmark _
  | false =>
      refine (onlyCalls_transition hread
        (hmove _ (Or.inl rfl) rfl rfl (Or.inr rfl))).bind
        fun result => ?_
      exact onlyCalls_syncApplied hread hmark _

theorem onlyCalls_deliverTakeover (hread : ∀ op, op.readsOnly = true → P op)
    (hmark : ∀ revision, P (.markCallbackSynced job revision))
    (state : JobState) : (deliverTakeover job state).OnlyCalls P := by
  unfold deliverTakeover
  split
  next => exact onlyCalls_catchException (onlyCalls_sync hread hmark) fun _ => trivial
  next => trivial

theorem onlyCalls_syncPendingCallback (hread : ∀ op, op.readsOnly = true → P op)
    (hmark : ∀ revision, P (.markCallbackSynced job revision))
    (hdiscard : P (.discardMissingJobIndexes job)) :
    (syncPendingCallback job).OnlyCalls P := by
  have htry : (do
      let _ ← requireState job
      let _ ← sync job : Proc Unit).OnlyCalls P :=
    (onlyCalls_requireState hread job).bind fun _ =>
      (onlyCalls_sync hread hmark).bind fun _ => trivial
  refine htry.attempt.bind fun outcome => ?_
  split
  next => trivial
  next => exact (onlyCalls_call hdiscard).bind fun _ => trivial
  next => split <;> trivial

/-- `P` holds of every call of a reconciler but the moves and takeovers of jobs. -/
structure Bookkeeping (P : JobOp → Prop) : Prop where
  reads : ∀ op, op.readsOnly = true → P op
  decided : ∀ request, P (.finalizeFailure request)
  synced : ∀ job revision, P (.markCallbackSynced job revision)
  enqueued : ∀ job generation, P (.enqueue job generation)
  closed : ∀ job generation now, P (.markRecoveryEnqueued job generation now)
  discarded : ∀ job generation, P (.discardPendingRecovery job generation)
  missing : ∀ job, P (.discardMissingJobIndexes job)
  missingRecovery : ∀ job generation, P (.discardMissingJobRecovery job generation)

theorem Bookkeeping.mono {Q : JobOp → Prop} (h : Bookkeeping P)
    (hPQ : ∀ op, P op → Q op) : Bookkeeping Q where
  reads op hop := hPQ op (h.reads op hop)
  decided request := hPQ _ (h.decided request)
  synced job revision := hPQ _ (h.synced job revision)
  enqueued job generation := hPQ _ (h.enqueued job generation)
  closed job generation now := hPQ _ (h.closed job generation now)
  discarded job generation := hPQ _ (h.discarded job generation)
  missing job := hPQ _ (h.missing job)
  missingRecovery job generation := hPQ _ (h.missingRecovery job generation)

theorem onlyCalls_enqueueRun {generation : Int}
    (henqueue : P (.enqueue job generation)) :
    (enqueueRun job generation).OnlyCalls P := by
  refine onlyCalls_catchException ?_ fun _ => trivial
  exact (onlyCalls_call henqueue).bind fun _ => trivial

theorem onlyCalls_finishRecovery (hbooks : Bookkeeping P)
    (hmove : ∀ a : Transition, a.attemptCount = none →
      (a.error = none ∨ ∃ id, a.error = some (deadlineError id)) → P (.transition a))
    (generation : Int) (state : JobState) :
    (cfg.finishRecovery job generation state).OnlyCalls P := by
  unfold finishRecovery
  have hdiscard : (do
      let _ ← call (.discardPendingRecovery job generation) : Proc Unit).OnlyCalls P :=
    (onlyCalls_call (hbooks.discarded job generation)).bind fun _ => trivial
  split
  next => exact hdiscard
  next =>
    split
    next => exact hdiscard
    next =>
      split
      next =>
        refine (onlyCalls_call (hbooks.reads _ rfl)).bind fun _ => ?_
        refine onlyCalls_failJob hbooks.reads hbooks.decided (hbooks.synced job) ?_
        intro a _ hattempt _ herror
        exact hmove a hattempt (herror.imp id fun h => ⟨_, h⟩)
      next =>
        split
        next =>
          refine (onlyCalls_deliverTakeover hbooks.reads (hbooks.synced job)
            state).bind fun delivered => ?_
          split
          next =>
            refine (onlyCalls_enqueueRun (hbooks.enqueued job generation)).bind fun enqueued => ?_
            split
            next =>
              exact (onlyCalls_call (hbooks.closed job generation _)).bind
                fun _ => trivial
            next => trivial
          next => trivial
        next => trivial

/-- The barrier fails a job for its deadline only. -/
theorem onlyCalls_finishPendingRecovery (hbooks : Bookkeeping P)
    (hmove : ∀ a : Transition, a.attemptCount = none →
      (a.error = none ∨ ∃ id, a.error = some (deadlineError id)) → P (.transition a))
    (generation : Int) : (cfg.finishPendingRecovery job generation).OnlyCalls P := by
  refine (onlyCalls_requireState hbooks.reads job).attempt.bind fun found => ?_
  split
  next state => exact onlyCalls_finishRecovery hbooks hmove generation state
  next =>
    exact (onlyCalls_call (hbooks.missingRecovery job generation)).bind
      fun _ => trivial
  next => trivial

/-- What a reconciler does to a stale job over the snapshot `state`: it moves or
takes over that job, and any other move is about a deadline. -/
theorem onlyCalls_settleStaleJob (hbooks : Bookkeeping P) {state : JobState}
    (hmove : ∀ a : Transition, a.attemptCount = none →
      (a.jobId = job ∨ a.jobId = state.jobId ∨ a.error = none ∨
        ∃ id, a.error = some (deadlineError id)) → P (.transition a))
    (htake : P (.takeOverStale job state.runGeneration cfg.now)) (waiting : Bool) :
    (cfg.settleStaleJob job state waiting).OnlyCalls P := by
  have hfail : ∀ error, (cfg.failJob job state error).OnlyCalls P := by
    intro error
    refine onlyCalls_failJob hbooks.reads hbooks.decided (hbooks.synced job) ?_
    intro a hjob hattempt _ _
    exact hmove a hattempt (hjob.imp id Or.inl)
  have hsync : ∀ applied, (cfg.syncApplied job applied).OnlyCalls P :=
    onlyCalls_syncApplied hbooks.reads (hbooks.synced job)
  have htakeOver : (cfg.takeOver job state).OnlyCalls P := by
    refine (onlyCalls_call (hbooks.reads _ rfl)).bind fun _ => ?_
    refine (onlyCalls_capabilityTerminalTransition hbooks.reads
      hbooks.decided (fun a h => hmove a h.attempt (Or.inr (Or.inl h.job))) _ _ _ _).bind
      fun outcome => ?_
    obtain ⟨handled, probed⟩ := outcome
    cases handled with
    | true => exact hsync _
    | false =>
        refine (onlyCalls_takeOverStale hbooks.reads htake).bind fun updated => ?_
        refine (onlyCalls_call (hbooks.reads _ rfl)).bind fun found => ?_
        refine OnlyCalls.bind ?_ fun _ => hsync _
        cases found with
        | none => trivial
        | some generation =>
            refine onlyCalls_finishPendingRecovery hbooks ?_ generation
            intro a hattempt herror
            exact hmove a hattempt (Or.inr (Or.inr herror))
  unfold settleStaleJob
  dsimp only
  split
  next => trivial
  next =>
    split
    next => exact (onlyCalls_call (hbooks.reads _ rfl)).bind fun _ => hfail _
    next =>
      split
      next => exact (onlyCalls_call (hbooks.reads _ rfl)).bind fun _ => hfail _
      next => exact htakeOver

theorem onlyCalls_reconcileStaleState (hbooks : Bookkeeping P) {state : JobState}
    (hmove : ∀ a : Transition, a.attemptCount = none →
      (a.jobId = job ∨ a.jobId = state.jobId ∨ a.error = none ∨
        ∃ id, a.error = some (deadlineError id)) → P (.transition a))
    (htake : P (.takeOverStale job state.runGeneration cfg.now)) :
    (cfg.reconcileStaleState job state).OnlyCalls P := by
  have hsettle := @onlyCalls_settleStaleJob _ cfg _ hbooks _ hmove htake
  unfold reconcileStaleState
  split
  next => trivial
  next =>
    refine (onlyCalls_call (hbooks.reads _ rfl)).bind fun pending => ?_
    cases pending with
    | none => exact hsettle false
    | some generation =>
        dsimp only
        split
        next =>
          exact (onlyCalls_call (hbooks.discarded job generation)).bind
            fun _ => hsettle false
        next => exact hsettle true

theorem onlyCalls_syncPendingCallbacks (hread : ∀ op, op.readsOnly = true → P op)
    (hmark : ∀ job revision, P (.markCallbackSynced job revision))
    (hdiscard : ∀ job, P (.discardMissingJobIndexes job)) (recovering : List UUID) :
    (cfg.syncPendingCallbacks recovering).OnlyCalls P := by
  unfold syncPendingCallbacks
  split
  next =>
    refine (onlyCalls_call (hread _ rfl)).bind fun jobs => ?_
    refine onlyCalls_forEach fun job _ => ?_
    split
    next => trivial
    next => exact onlyCalls_syncPendingCallback hread (hmark job) (hdiscard job)
  next => trivial

end Calls

end Reconciliation

end SearchTrust.Jobs
