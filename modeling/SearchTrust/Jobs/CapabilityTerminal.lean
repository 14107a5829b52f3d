/-
Terminal decisions about a capability task.  The database decides first; the
store only follows a decision that has come back.
-/
import SearchTrust.Jobs.Client

namespace SearchTrust.Jobs

open SearchTrust.Interleave SearchTrust.Interleave.Program

/-- What `decide` returns. -/
inductive TerminalDecision where
  | report (report : CapabilityReport)
  | failed
  | active

/-- `CapabilityTerminalCoordinator.decide`. -/
def decideTerminal (state : JobState) (task : CapabilityTaskRequest)
    (error : JobErrorState) (finish : Bool) : Proc TerminalDecision := do
  let raw ← call (.finalizeFailure
    { jobId := state.jobId
      task
      runGeneration := state.runGeneration
      errorCode := error.errorCode
      userMessage := error.userMessage
      attemptCount := min (max state.attemptCount 1) 10
      fail := finish })
  if raw.status ∉ ["succeeded", "failed", "active"] then .raise .unexpected
  else if raw.status = "succeeded" then
    match raw.completedReport with
    | none => .raise .unexpected
    | some report =>
        if report.id ≠ state.jobId ∨ report.inputManifest.caseId ≠ state.caseId ∨
            report.inputManifest.id ≠ task.manifestId ∨
            report.inputManifest.inputChecksum ≠ task.inputChecksum ∨
            report.reportType ≠ task.reportType then
          .raise .unexpected
        else return .report report
  else if raw.completedReport.isSome ∨ (finish ∧ raw.status = "active") then
    .raise .unexpected
  else if raw.status = "failed" then return .failed
  else return .active

/-- What came of the consultation: `none` when the decision is not known. -/
def consultCoordinator (state : JobState) (task : Option CapabilityTaskRequest)
    (error : JobErrorState) (coordinator finish : Bool) :
    Proc (Option TerminalDecision) :=
  if coordinator then
    catchException
      (match task with
      | none => .raise .invalidValue
      | some task => do return some (← decideTerminal state task error finish))
      fun _ => return none
  else return none

def capabilitySchemaVersion : String := "v22_capability_request_envelope_v1"

def isCapabilityRequest : Option RequestPayload → Bool
  | some request => request.schemaVersion = some capabilitySchemaVersion
  | none => false

/-- The move that `capability_terminal_transition` makes before it restores a
completed diagnosis of a queued job. -/
def restoringTransition (state : JobState) (now : Instant) : Transition where
  jobId := state.jobId
  status := .running
  stage := .collectingSite
  progress := state.progress
  message := "Restoring the completed diagnosis."
  now := now
  expectedGeneration := some state.runGeneration

def completedTransition (state : JobState) (report : CapabilityReport)
    (now : Instant) (costCounters : Option CostCounters) : Transition where
  jobId := state.jobId
  status := .succeeded
  stage := .completed
  progress := 100
  message := "Analysis complete."
  report := some (.capability report)
  now := now
  costCounters := costCounters
  expectedGeneration := some state.runGeneration

/-- The failure that a decision or a reconciliation records. -/
def failedTransition (state : JobState) (error : JobErrorState) (now : Instant)
    (costCounters : Option CostCounters) : Transition where
  jobId := state.jobId
  status := .failed
  stage := .failed
  progress := state.progress
  message := error.userMessage
  error := some error
  now := now
  costCounters := costCounters
  expectedGeneration := some state.runGeneration

/-- The store follows a decision other than `active`. -/
def restoreReport (state : JobState) (report : CapabilityReport) (now : Instant)
    (costCounters : Option CostCounters) : Proc TransitionResult := do
  if state.status = .queued then
    let running ← Client.transition (restoringTransition state now)
    if running.applied then
      Client.transition (completedTransition state report now costCounters)
    else return running
  else Client.transition (completedTransition state report now costCounters)

/-- `capability_terminal_transition`; its two results are `handled` and the
update. -/
def capabilityTerminalTransition (state : JobState) (error : JobErrorState)
    (now : Instant) (coordinator finish : Bool)
    (costCounters : Option CostCounters) :
    Proc (Bool × Option TransitionResult) := do
  let request ← call (.getRequest state.jobId)
  if isCapabilityRequest request then
    let decision ← consultCoordinator state
      (request.bind RequestPayload.capabilityRequest) error coordinator finish
    match decision with
    | none => return (true, none)
    | some .active => return (false, none)
    | some (.report report) =>
        let updated ← restoreReport state report now costCounters
        return (true, some updated)
    | some .failed =>
        let updated ← Client.transition
          (failedTransition state error now costCounters)
        return (true, some updated)
  else return (false, none)

section Calls

variable {P : JobOp → Prop}

theorem onlyCalls_decideTerminal (hfinal : ∀ request, P (.finalizeFailure request))
    (state : JobState) (task : CapabilityTaskRequest) (error : JobErrorState)
    (finish : Bool) : (decideTerminal state task error finish).OnlyCalls P := by
  refine (onlyCalls_call (hfinal _)).bind fun raw => ?_
  repeat' split
  all_goals trivial

theorem onlyCalls_consultCoordinator
    (hfinal : ∀ request, P (.finalizeFailure request)) (state : JobState) (task : Option CapabilityTaskRequest)
    (error : JobErrorState) (coordinator finish : Bool) :
    (consultCoordinator state task error coordinator finish).OnlyCalls P := by
  unfold consultCoordinator
  split
  next =>
    refine onlyCalls_catchException ?_ fun _ => trivial
    cases task with
    | none => trivial
    | some task =>
        exact (onlyCalls_decideTerminal hfinal state task error finish).bind
          fun _ => trivial
  next => trivial

/-- A move of a terminal decision: for the generation, and over the job, of the
snapshot that it is about, with no error but the one that was asked about. -/
structure DecisionMove (state : JobState) (error : JobErrorState) (a : Transition) :
    Prop where
  job : a.jobId = state.jobId
  attempt : a.attemptCount = none
  generation : a.expectedGeneration = some state.runGeneration
  error : a.error = none ∨ a.error = some error

theorem onlyCalls_capabilityTerminalTransition
    (hread : ∀ op, op.readsOnly = true → P op)
    (hfinal : ∀ request, P (.finalizeFailure request)) {state : JobState}
    {error : JobErrorState}
    (hmove : ∀ a, DecisionMove state error a → P (.transition a))
    (now : Instant) (coordinator finish : Bool)
    (costCounters : Option CostCounters) :
    (capabilityTerminalTransition state error now coordinator finish
      costCounters).OnlyCalls P := by
  have hstep : ∀ a, DecisionMove state error a → (Client.transition a).OnlyCalls P :=
    fun a ha => onlyCalls_transition hread (hmove a ha)
  have hcompleted : ∀ report, (Client.transition
      (completedTransition state report now costCounters)).OnlyCalls P :=
    fun report => hstep _ ⟨rfl, rfl, rfl, Or.inl rfl⟩
  refine (onlyCalls_call (hread _ rfl)).bind fun request => ?_
  split
  next =>
    refine (onlyCalls_consultCoordinator hfinal _ _ _ _ _).bind fun decision => ?_
    rcases decision with _ | (report | _ | _)
    · trivial
    · refine OnlyCalls.bind ?_ fun _ => trivial
      unfold restoreReport
      split
      next =>
        refine (hstep _ ⟨rfl, rfl, rfl, Or.inl rfl⟩).bind fun running => ?_
        split
        next => exact hcompleted report
        next => trivial
      next => exact hcompleted report
    · exact (hstep _ ⟨rfl, rfl, rfl, Or.inr rfl⟩).bind fun _ => trivial
    · trivial
  next => trivial

end Calls

end SearchTrust.Jobs
