/-
What a process owes after an answer of the database.  The answer is checked once;
a valid one decides the next call of the process that has asked.
-/
import SearchTrust.Jobs.CapabilityTerminal
import SearchTrust.Jobs.Durable

namespace SearchTrust.Jobs

open SearchTrust.Interleave SearchTrust.Interleave.Program

section Answers

/-- The report is of the job, the case, the manifest, the input and the type that
the database was asked about. -/
structure CapabilityReport.BoundTo (report : CapabilityReport) (caseId : UUID)
    (request : FinalizeRequest) : Prop where
  job : report.id = request.jobId
  case : report.inputManifest.caseId = caseId
  manifest : report.inputManifest.id = request.task.manifestId
  inputChecksum : report.inputManifest.inputChecksum = request.task.inputChecksum
  reportType : report.reportType = request.task.reportType

instance (report : CapabilityReport) (caseId : UUID) (request : FinalizeRequest) :
    Decidable (report.BoundTo caseId request) :=
  decidable_of_iff
    (report.id = request.jobId ∧ report.inputManifest.caseId = caseId ∧
      report.inputManifest.id = request.task.manifestId ∧
      report.inputManifest.inputChecksum = request.task.inputChecksum ∧
      report.reportType = request.task.reportType)
    ⟨fun ⟨a, b, c, d, e⟩ => ⟨a, b, c, d, e⟩, fun ⟨a, b, c, d, e⟩ => ⟨a, b, c, d, e⟩⟩

/-- What an answer decides for a job of the case; `none` when it is not valid. -/
def verdict (caseId : UUID) (request : FinalizeRequest) (answer : FinalizeAnswer) :
    Option TerminalDecision :=
  match answer.completedReport with
  | some report =>
      if answer.status = "succeeded" ∧ report.BoundTo caseId request then
        some (.report report)
      else none
  | none =>
      if answer.status = "failed" then some .failed
      else if answer.status = "active" ∧ request.fail = false then some .active
      else none

theorem verdict_report {caseId : UUID} {request : FinalizeRequest}
    {answer : FinalizeAnswer} {report : CapabilityReport}
    (h : verdict caseId request answer = some (.report report)) :
    answer = ⟨"succeeded", some report⟩ ∧ report.BoundTo caseId request := by
  obtain ⟨status, completed⟩ := answer
  cases completed with
  | some found =>
      simp only [verdict, Option.ite_none_right_eq_some] at h
      obtain ⟨⟨rfl, hbound⟩, hfound⟩ := h
      obtain rfl := TerminalDecision.report.inj (Option.some.inj hfound)
      exact ⟨rfl, hbound⟩
  | none =>
      simp only [verdict] at h
      split at h
      next => cases h
      next => split at h <;> cases h

theorem verdict_failed {caseId : UUID} {request : FinalizeRequest}
    {answer : FinalizeAnswer} (h : verdict caseId request answer = some .failed) :
    answer = ⟨"failed", none⟩ := by
  obtain ⟨status, completed⟩ := answer
  cases completed with
  | some found =>
      simp only [verdict] at h
      split at h <;> cases h
  | none =>
      simp only [verdict] at h
      split at h
      next hstatus => exact congrArg (FinalizeAnswer.mk · none) hstatus
      next => split at h <;> cases h

theorem verdict_active {caseId : UUID} {request : FinalizeRequest}
    {answer : FinalizeAnswer} (h : verdict caseId request answer = some .active) :
    answer = ⟨"active", none⟩ ∧ request.fail = false := by
  obtain ⟨status, completed⟩ := answer
  cases completed with
  | some found =>
      simp only [verdict] at h
      split at h <;> cases h
  | none =>
      simp only [verdict] at h
      split at h
      next => cases h
      next =>
        split at h
        next hactive => exact ⟨congrArg (FinalizeAnswer.mk · none) hactive.1, hactive.2⟩
        next => cases h

/-- What `decide` asks. -/
def finalizeRequest (state : JobState) (task : CapabilityTaskRequest)
    (error : JobErrorState) (finish : Bool) : FinalizeRequest where
  jobId := state.jobId
  task := task
  runGeneration := state.runGeneration
  errorCode := error.errorCode
  userMessage := error.userMessage
  attemptCount := min (max state.attemptCount 1) 10
  fail := finish

/-- The end of `decide`, for what the answer decides. -/
def ofVerdict : Option TerminalDecision → Proc TerminalDecision
  | some decision => return decision
  | none => .raise .unexpected

/-- `decide` asks once and checks the answer. -/
theorem decideTerminal_eq (state : JobState) (task : CapabilityTaskRequest)
    (error : JobErrorState) (finish : Bool) :
    decideTerminal state task error finish =
      (call (.finalizeFailure (finalizeRequest state task error finish)) >>=
        fun raw => ofVerdict (verdict state.caseId
          (finalizeRequest state task error finish) raw)) := by
  unfold decideTerminal
  refine congrArg (Bind.bind _) (funext fun raw => ?_)
  obtain ⟨status, completed⟩ := raw
  have hbound : ∀ report : CapabilityReport,
      (report.id ≠ state.jobId ∨ report.inputManifest.caseId ≠ state.caseId ∨
        report.inputManifest.id ≠ task.manifestId ∨
        report.inputManifest.inputChecksum ≠ task.inputChecksum ∨
        report.reportType ≠ task.reportType) ↔
      ¬ report.BoundTo state.caseId (finalizeRequest state task error finish) := by
    intro report
    constructor
    · intro hother hto
      simp [hto.job, hto.case, hto.manifest, hto.inputChecksum, hto.reportType,
        finalizeRequest] at hother
    · intro hnot
      by_contra hother
      simp only [not_or, not_not] at hother
      obtain ⟨hjob, hcase, hmanifest, hchecksum, htype⟩ := hother
      exact hnot ⟨hjob, hcase, hmanifest, hchecksum, htype⟩
  by_cases hsucceeded : status = "succeeded"
  · subst hsucceeded
    cases completed with
    | none => simp [verdict, ofVerdict]
    | some report =>
        by_cases hto : report.BoundTo state.caseId
            (finalizeRequest state task error finish)
        · simp [verdict, ofVerdict, hbound, hto]
        · simp [verdict, ofVerdict, hbound, hto]
  · cases completed with
    | some report => simp [verdict, ofVerdict, hsucceeded]
    | none =>
        by_cases hfailed : status = "failed"
        · subst hfailed
          simp [verdict, ofVerdict]
        · by_cases hactive : status = "active"
          · subst hactive
            cases finish <;> simp [verdict, ofVerdict, finalizeRequest]
          · simp [verdict, ofVerdict, hsucceeded, hfailed, hactive]

end Answers

section Debts

/-- What a process that has asked the database has still to do. -/
inductive Debt where
  | none
  | answered (request : FinalizeRequest) (answer : FinalizeAnswer)
  /-- A queued job was put to work for the report. -/
  | restored (request : FinalizeRequest) (report : CapabilityReport)
  /-- Those who watch the job know that it runs. -/
  | published (request : FinalizeRequest) (report : CapabilityReport)

namespace JobOp

/-- The question and the answer of a call of the database. -/
def finalized : (op : JobOp) → Except JobException op.Value →
    Option (FinalizeRequest × FinalizeAnswer)
  | finalizeFailure request, .ok answer => some (request, answer)
  | _, _ => none

/-- Calls that move a job or ask the database about it. -/
def steers : JobOp → Bool
  | transition _ | takeOverStale _ _ _ | retryFailed _ _ | finalizeFailure _ => true
  | _ => false

theorem steers_of_readsOnly {op : JobOp} (h : op.readsOnly = true) :
    op.steers = false := by
  cases op <;> first | rfl | cases h

/-- Calls that neither ask the database nor record an error. -/
def Ordinary : JobOp → Prop
  | transition a => a.error = none
  | finalizeFailure _ => False
  | _ => True

theorem ordinary_of_not_steers {op : JobOp} (h : op.steers = false) :
    op.Ordinary := by
  cases op <;> trivial

theorem ordinary_of_readsOnly {op : JobOp} (h : op.readsOnly = true) :
    op.Ordinary :=
  ordinary_of_not_steers (steers_of_readsOnly h)

end JobOp

/-- What a process owes after one more call. -/
def Debt.after : Debt → (op : JobOp) → Except JobException op.Value → Debt
  | _, .finalizeFailure request, .ok answer => answered request answer
  | answered request answer, .transition a, .ok result =>
      match answer.completedReport with
      | some report =>
          if result.applied ∧ a.status = .running then restored request report
          else none
      | Option.none => none
  | restored request report, .publish _ _, .ok _ => published request report
  | _, _, _ => none

variable {ι : Type}

/-- What a process owes after the calls that it has made, newest first. -/
def debt : List (Event jobSignature JobException World ι) → Debt
  | [] => .none
  | e :: earlier => (debt earlier).after e.op e.result

theorem Debt.after_of_ordinary {op : JobOp} (h : op.Ordinary)
    (result : Except JobException op.Value) : Debt.none.after op result = .none := by
  cases op <;> first | rfl | cases h

theorem Debt.after_of_not_steers {op : JobOp} (h : op.steers = false)
    {request : FinalizeRequest} {answer : FinalizeAnswer}
    (result : Except JobException op.Value) :
    (Debt.answered request answer).after op result = .none := by
  cases op <;> first | rfl | cases h

/-- A move other than the one to `running` leaves nothing to do. -/
theorem Debt.after_transition {a : Transition} (ha : a.status ≠ .running) (d : Debt)
    (result : Except JobException TransitionResult) :
    d.after (.transition a) result = .none := by
  cases d with
  | answered request answer =>
      cases result with
      | ok result =>
          simp only [Debt.after, ha, and_false, if_false]
          split <;> rfl
      | error error => rfl
  | _ => rfl

/-- The answer that a process has got is in its history. -/
theorem mem_of_debt_answered
    {calls : List (Event jobSignature JobException World ι)} {request : FinalizeRequest}
    {answer : FinalizeAnswer} (h : debt calls = .answered request answer) :
    ∃ e ∈ calls, e.op.finalized e.result = some (request, answer) := by
  cases calls with
  | nil => cases h
  | cons e earlier =>
      refine ⟨e, List.mem_cons_self, ?_⟩
      obtain ⟨actor, op, result, before, after⟩ := e
      have h : (debt earlier).after op result = .answered request answer := h
      generalize debt earlier = d at h
      cases op with
      | finalizeFailure asked =>
          cases result with
          | ok found =>
              cases d <;> obtain ⟨rfl, rfl⟩ := Debt.answered.inj h <;> rfl
          | error error => cases d <;> cases h
      | transition a =>
          cases result with
          | ok found =>
              cases d with
              | answered asked found' =>
                  simp only [Debt.after] at h
                  split at h
                  next => split at h <;> cases h
                  next => cases h
              | _ => cases h
          | error error => cases d <;> cases h
      | publish job revision => cases result <;> cases d <;> cases h
      | _ => cases d <;> cases h

/-- The move puts the job of the request to work, over a snapshot of it. -/
def Restores (request : FinalizeRequest) (a : Transition) : Prop :=
  ∃ state now, state.Stored ∧ state.jobId = request.jobId ∧
    state.runGeneration = request.runGeneration ∧ a = restoringTransition state now

/-- The move ends the job of the request with the report. -/
def Completes (request : FinalizeRequest) (report : CapabilityReport)
    (a : Transition) : Prop :=
  ∃ state now costCounters, state.jobId = request.jobId ∧
    state.runGeneration = request.runGeneration ∧
    a = completedTransition state report now costCounters

/-- The move fails the job of the request. -/
def Fails (request : FinalizeRequest) (a : Transition) : Prop :=
  ∃ state error now costCounters, state.jobId = request.jobId ∧
    state.runGeneration = request.runGeneration ∧
    a = failedTransition state error now costCounters

/-- The call does what the process owes for a job of the case.  After an answer
that is not valid it moves no job and does not ask again. -/
def Pays (caseId : UUID) : Debt → JobOp → Prop
  | .none, _ => True
  | .answered request answer, op =>
      match verdict caseId request answer with
      | some (.report report) =>
          ∃ a, op = .transition a ∧ (Restores request a ∨ Completes request report a)
      | some .failed => ∃ a, op = .transition a ∧ Fails request a
      | some .active =>
          ∃ now, op = .takeOverStale request.jobId request.runGeneration now
      | none => op.steers = false
  | .restored request _, op => ∃ revision, op = .publish request.jobId revision
  | .published request report, op => ∃ a, op = .transition a ∧ Completes request report a

/-- The request and the report of a process that has been told of a report. -/
def Debt.report : Debt → Option (FinalizeRequest × CapabilityReport)
  | answered request answer =>
      if answer.status = "succeeded" then answer.completedReport.map (request, ·)
      else Option.none
  | published request report => some (request, report)
  | _ => Option.none

/-- The job that a debt is about. -/
def Debt.job : Debt → Option UUID
  | none => Option.none
  | answered request _ | restored request _ | published request _ => some request.jobId

end Debts

section Failures

variable {store : DurableJobStore} {tick : JobRedis → Nat → JobRedis}
  {op : JobOp} {w w' : World} {res : Except JobException op.Value} {job : UUID}

/-- The job is there and has failed. -/
def JobRedis.Failed (r : JobRedis) (job : UUID) : Prop :=
  ∃ s, r.states.get job = some s ∧ s.status = .failed

/-- Only a transition with an error makes a job fail. -/
theorem performs_failed (hr : w.redis.StatesStored)
    (h : (jobMachine store tick).Performs op w res w') (hafter : w'.redis.Failed job)
    (hbefore : ¬ w.redis.Failed job) :
    ∃ a, op = .transition a ∧ a.jobId = job ∧ a.status = .failed ∧
      a.error.isSome = true := by
  obtain ⟨s, hs, hstatus⟩ := hafter
  have hchange := performs_change hr h job
  have hs : (w'.redis.view job).state = some s := hs
  generalize hv : w.redis.view job = v at hchange
  generalize hv' : w'.redis.view job = v' at hchange hs
  have hsame : v.state ≠ some s := by
    intro hold
    rw [← hv] at hold
    exact hbefore ⟨s, hold, hstatus⟩
  cases hchange with
  | unchanged => exact absurd hs hsame
  | registered a state _ _ _ hstate =>
      obtain rfl := Option.some.inj hs
      obtain ⟨rfl, _⟩ := JobState.modelValidate_eq_ok_iff.1 hstate
      cases hstatus
  | moved a current next hop hjob _ hfits =>
      obtain rfl := Option.some.inj hs
      obtain ⟨rfl, hvalid⟩ := JobState.modelValidate_eq_ok_iff.1 hfits.validated
      have hmoved : a.status = .failed := hstatus
      refine ⟨a, hop, hjob, hmoved, ?_⟩
      have hpayload := hvalid.2.2.2.2
      simp only [JobState.PayloadFits, hstatus] at hpayload
      simpa [JobState.normalized, DurableJobStore.nextState] using hpayload.1
  | takenOver now current next _ _ _ _ hnext =>
      obtain rfl := Option.some.inj hs
      obtain ⟨rfl, _⟩ := JobState.modelValidate_eq_ok_iff.1 hnext
      cases hstatus
  | reopened now current next _ _ _ _ hnext =>
      obtain rfl := Option.some.inj hs
      obtain ⟨rfl, _⟩ := JobState.modelValidate_eq_ok_iff.1 hnext
      cases hstatus
  | synced revision current _ hcurrent =>
      obtain rfl := Option.some.inj hs
      rw [← hv] at hcurrent
      exact absurd ⟨current, hcurrent, hstatus⟩ hbefore
  | enqueued => exact absurd hs hsame
  | discarded => exact absurd hs hsame
  | purged => cases hs

theorem not_performs_failed_of_ordinary (hop : op.Ordinary)
    (hr : w.redis.StatesStored) (h : (jobMachine store tick).Performs op w res w')
    (hafter : w'.redis.Failed job) : w.redis.Failed job := by
  by_contra hbefore
  obtain ⟨a, rfl, _, _, herror⟩ := performs_failed hr h hafter hbefore
  have hnone : a.error = none := hop
  rw [hnone] at herror
  cases herror

end Failures

section Effects

variable {store : DurableJobStore} {tick : JobRedis → Nat → JobRedis}
  {w w' : World} {current : JobState} {request : FinalizeRequest} {now : Instant}

/-- A legal move is committed, unless the call is interrupted. -/
theorem performs_transition_of_fits (hr : w.redis.StatesStored) {a : Transition}
    {res : Except JobException TransitionResult} {next : JobState}
    (hcurrent : w.redis.states.get a.jobId = some current)
    (hfits : TransitionFits a current next)
    (h : (jobMachine store tick).Performs (.transition a) w res w') :
    (∃ reason : Interruption, res = .error reason.exception) ∨
      w'.redis.states.get a.jobId = some next := by
  rcases performs_cases h with ⟨reply, hexec⟩ | ⟨reason, hres, _⟩
  · right
    have hgeneration : a.expectedGeneration.any (· ≠ current.runGeneration) = false := by
      cases hgen : a.expectedGeneration with
      | none => rfl
      | some g => simp [hfits.generation g hgen]
    have hblock : store.transition a w.redis =
        .ok (⟨next, true⟩, store.commitTransition a next w.redis) := by
      unfold DurableJobStore.transition
      rw [hr.requireState_eq_ok.2 hcurrent]
      simp only [Except.ok_bind, hgeneration, hfits.alive, hfits.allowed, not_true,
        if_false, Bool.false_eq_true, hfits.validated]
      rfl
    simp only [JobOp.exec, hblock] at hexec
    obtain ⟨_, rfl⟩ := Prod.mk.inj (Option.some.inj hexec)
    exact congrArg JobView.state
      (@DurableJobStore.view_commitTransition_self store a next w.redis)
  · exact Or.inl ⟨reason, hres⟩

/-- The report of a job that runs can be recorded. -/
theorem completedTransition_fits (hcurrent : current.Stored) {state : JobState}
    {report : CapabilityReport} {costCounters : Option CostCounters}
    (hgeneration : current.runGeneration = state.runGeneration)
    (hrunning : current.status = .running) (hcreated : current.createdAt ≤ now)
    (hcosts : ∀ counters ∈ costCounters, ValidCostCounters counters)
    (hjob : report.id = current.jobId)
    (hcase : report.inputManifest.caseId = current.caseId) :
    ∃ next, TransitionFits (completedTransition state report now costCounters)
      current next ∧ next.status = .succeeded ∧
      next.report = some (.capability report) := by
  obtain ⟨⟨hfields, _, hdeadline, hsynced, _⟩, _⟩ := hcurrent
  have hcounters : ValidCostCounters (costCounters.getD current.costCounters) := by
    cases costCounters with
    | none => exact hfields.costCounters
    | some counters => exact hcosts counters rfl
  have hmessage : 1 ≤ (strip "Analysis complete.").length ∧
      (strip "Analysis complete.").length ≤ 500 := by
    decide
  let a := completedTransition state report now costCounters
  refine ⟨(DurableJobStore.nextState a current).normalized, ⟨?_, ?_, ?_, ?_⟩, rfl, rfl⟩
  · rintro g ⟨⟩
    exact hgeneration.symm
  · exact JobState.not_terminal_iff.2 (Or.inr hrunning)
  · rw [hrunning]
    exact show JobStatus.succeeded ∈ allowedTransitions .running by decide
  · refine JobState.modelValidate_eq_ok_iff.2 ⟨rfl, ⟨?_, hcreated, hdeadline, ?_, ?_⟩⟩
    · exact {
        progress := show (0 : Int) ≤ 100 ∧ (100 : Int) ≤ 100 by decide
        message := hmessage
        attemptCount := hfields.attemptCount
        runGeneration := hfields.runGeneration
        revision := Int.le_add_one hfields.revision
        callbackSyncedRevision := hfields.callbackSyncedRevision
        costCounters := hcounters
        error := by rintro e ⟨⟩ }
    · exact Int.le_add_one hsynced
    · exact ⟨rfl, rfl, rfl, rfl, rfl, hjob, hcase⟩

/-- A job that has not ended can be put to work again. -/
theorem restoringTransition_fits (hcurrent : current.Stored) {state : JobState}
    (hstate : state.Stored) (hgeneration : current.runGeneration = state.runGeneration)
    (halive : current.terminal = false) (hcreated : current.createdAt ≤ now) :
    ∃ next, TransitionFits (restoringTransition state now) current next ∧
      next.status = .running := by
  obtain ⟨⟨hfields, _, hdeadline, hsynced, _⟩, _⟩ := hcurrent
  have hmessage : 1 ≤ (strip "Restoring the completed diagnosis.").length ∧
      (strip "Restoring the completed diagnosis.").length ≤ 500 := by
    decide
  let a := restoringTransition state now
  refine ⟨(DurableJobStore.nextState a current).normalized, ⟨?_, halive, ?_, ?_⟩, rfl⟩
  · rintro g ⟨⟩
    exact hgeneration.symm
  · rcases JobState.not_terminal_iff.1 halive with hstatus | hstatus <;> rw [hstatus]
    · exact show JobStatus.running ∈ allowedTransitions .queued by decide
    · exact show JobStatus.running ∈ allowedTransitions .running by decide
  · refine JobState.modelValidate_eq_ok_iff.2 ⟨rfl, ⟨?_, hcreated, hdeadline, ?_, ?_⟩⟩
    · exact {
        progress := hstate.1.1.progress
        message := hmessage
        attemptCount := hfields.attemptCount
        runGeneration := hfields.runGeneration
        revision := Int.le_add_one hfields.revision
        callbackSyncedRevision := hfields.callbackSyncedRevision
        costCounters := hfields.costCounters
        error := by rintro e ⟨⟩ }
    · exact Int.le_add_one hsynced
    · exact ⟨rfl, rfl, rfl⟩

end Effects

end SearchTrust.Jobs
