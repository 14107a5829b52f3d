/-
The worker and the reconciler under the decisions of the database.
-/
import SearchTrust.Jobs.Reconciler
import SearchTrust.Jobs.TerminalDecisions
import SearchTrust.Jobs.Worker

namespace SearchTrust.Jobs

open SearchTrust.Interleave SearchTrust.Interleave.Program SearchTrust.Redis

section Parties

variable {store : DurableJobStore} {ι : Type} [DecidableEq ι] {i : ι}
  {c : Config jobSignature JobException World ι} {state : JobState}

namespace WorkerContext

variable {ctx : WorkerContext} {n : Nat} {d : Delivery}

theorem safe_announceEnd (job : UUID) (result : TransitionResult) :
    Safe (expiringMachine store) (decisionDiscipline ι) i (ctx.announceEnd job result)
      (Idle i) fun _ => Idle i :=
  safe_of_not_steers (onlyCalls_announceEnd (fun _ => JobOp.steers_of_readsOnly)
    (fun _ => rfl) result)

theorem safe_recordFailure (failure : ClassifiedJobError) (generation : Int)
    (costCounters : CostCounters) (error : JobErrorState) :
    Safe (expiringMachine store) (decisionDiscipline ι) i
      (ctx.recordFailure state failure generation costCounters error)
      (fun c => Idle i c ∧ Known state c) fun _ => Idle i := by
  have hknown := @persistent_known store ι _ state
  unfold recordFailure
  refine Safe.bind (safe_call_frame hknown rfl) fun now => ?_
  refine Safe.bind (B := Settled i state true) ?_ fun outcome => ?_
  · exact safe_capabilityTerminalTransition.strengthen fun c _ h => ⟨h.1.idle, h.2⟩
  · obtain ⟨handled, terminal⟩ := outcome
    cases handled with
    | true =>
        cases terminal with
        | none => exact Safe.raise fun c _ h => h
        | some updated => exact safe_announceEnd state.jobId updated
    | false =>
        refine Safe.bind (B := fun _ c => Free i c ∧ Plain state.jobId c) ?_
          fun now => ?_
        · refine (safe_call_frame (persistent_registers _) rfl).strengthen
            fun c _ h => ?_
          rcases h with h | ⟨hfinish, _⟩
          · exact ⟨h.1.idle, h.2⟩
          · cases hfinish
        · refine Safe.bind (B := fun _ => Idle i) ?_ fun failed =>
            safe_announceEnd state.jobId failed
          exact safe_bothOutcomes (safe_plainTransition _)

/-- A failure of the run: the job is put back, or it fails as the database decides. -/
theorem safe_finishFailure (exc : JobException) (generation : Int)
    (costCounters : CostCounters) :
    Safe (expiringMachine store) (decisionDiscipline ι) i
      (ctx.finishFailure state exc generation costCounters)
      (fun c => Free i c ∧ Known state c) fun _ => Idle i := by
  unfold finishFailure
  dsimp only
  split
  next => exact Safe.ret fun c _ h => h.1.idle
  next =>
    split
    next =>
      have hretry : (ctx.retryLater state generation costCounters).OnlyCalls
          JobOp.Ordinary :=
        onlyCalls_retryLater (fun _ => JobOp.ordinary_of_readsOnly) (fun _ => trivial)
          fun _ => rfl
      exact ((safe_of_ordinary hretry).weaken fun _ _ _ h => Free.idle h).strengthen
        fun c _ h => h.1
    next =>
      unfold failRun
      refine Safe.bind (safe_ordinary_frame (persistent_known state)
        (onlyCalls_call trivial)) fun diagnosticId => ?_
      split
      next => exact Safe.raise fun c _ h => h.1.idle
      next error _ =>
        exact (safe_recordFailure _ generation costCounters error).strengthen
          fun c _ h => ⟨h.1.idle, h.2⟩

/-- What is known of a snapshot that a move has returned. -/
def MoveKnown : Except JobException TransitionResult →
    Config jobSignature JobException World ι → Prop
  | .ok result => Known result.state
  | .error _ => fun _ => True

theorem moveKnown_perform {a : Transition}
    {result : Except JobException TransitionResult} {after : World} (hinv : Grounded c)
    (hstep : (expiringMachine store).Performs (.transition a) c.state result after)
    (rest : Proc Unit) :
    MoveKnown result (c.perform ⟨i, .transition a, result, c.state, after⟩ rest) := by
  have hafter : Grounded (c.perform ⟨i, .transition a, result, c.state, after⟩ rest) :=
    hinv.perform hstep
  rcases performs_cases hstep with ⟨reply, hexec⟩ | ⟨_, rfl, _⟩
  · rcases World.commit_cases (Option.some.inj hexec) with
      ⟨_, redis, hok, rfl, rfl⟩ | ⟨_, _, rfl, _⟩
    · obtain ⟨current, hcurrent, ⟨_, rfl, _⟩ | ⟨next, _, rfl, rfl⟩⟩ :=
        DurableJobStore.transition_cases hinv.stored hok
      · have hknown := hinv.known hcurrent
        exact ⟨hknown.1, hknown.2.perform _ rest⟩
      · exact hafter.known (congrArg JobView.state
          (DurableJobStore.view_commitTransition_self a next c.state.redis))
    · trivial
  · trivial

theorem safe_call_transition_known {a : Transition} (ha : (JobOp.transition a).Ordinary) :
    Safe (expiringMachine store) (decisionDiscipline ι) i (call (.transition a)) (Free i)
      fun result c => Free i c ∧ MoveKnown result c := by
  refine Safe.perform_post ?_ ?_
  · intro result
    cases result with
    | ok result => exact stable_free.and ((persistent_known _).stable i)
    | error error => exact stable_free.and (.const True)
  · intro c result after hinv hfree hstep _
    refine ⟨follows_of_ordinary ha hinv hfree hstep, fun rest _ => ?_⟩
    exact ⟨free_of_ordinary ha hfree rest, moveKnown_perform hinv hstep rest⟩

/-- The snapshot that a move returns is one of a registered job. -/
theorem safe_transition_known {a : Transition} (ha : a.error = none) :
    Safe (expiringMachine store) (decisionDiscipline ι) i (Client.transition a) (Free i)
      (Outcome (fun result c => Free i c ∧ Known result.state c) fun _ => Idle i) := by
  refine Safe.bind (B := fun result c => Free i c ∧ Known result.state c) ?_
    fun result => ?_
  · refine (safe_call_transition_known ha).weaken fun outcome c _ h => ?_
    cases outcome with
    | ok result => exact h
    | error error => exact h.1.idle
  · unfold Client.publishApplied
    split
    next =>
      refine Safe.bind ((safe_call_frame (persistent_known result.state)
        rfl).strengthen fun c _ h => ⟨h.1.idle, h.2⟩) fun _ => ?_
      exact Safe.ret fun c _ h => h
    next => exact Safe.ret fun c _ h => h

/-- The run of a job whose request is there. -/
theorem safe_startRun (request : RequestPayload) :
    Safe (expiringMachine store) (decisionDiscipline ι) i (ctx.startRun n d state request)
      (fun c => Free i c ∧ Known state c) fun _ => Idle i := by
  have hread : ∀ op : JobOp, op.readsOnly = true → op.Ordinary :=
    fun _ => JobOp.ordinary_of_readsOnly
  refine Safe.bind (safe_ordinary_frame (persistent_known state)
    (onlyCalls_call trivial)) fun started => ?_
  refine Safe.bind (B := fun result c => Free i c ∧ Known result.state c) ?_
    fun running => ?_
  · exact (safe_transition_known rfl).strengthen fun c _ h => h.1
  · split
    next =>
      have hknown := @persistent_known store ι _ running.state
      refine Safe.bind (safe_ordinary_frame hknown
        (onlyCalls_notifyState hread fun _ => trivial)) fun _ => ?_
      have hexecutor : (ctx.runExecutor n d).attempt.OnlyCalls JobOp.Ordinary :=
        (onlyCalls_runExecutor hread (fun _ => trivial) (fun _ _ _ _ => rfl)
          (fun _ _ _ => trivial) trivial trivial).attempt
      refine Safe.bind (safe_ordinary_frame hknown hexecutor) fun outcome => ?_
      unfold finishRun
      refine Safe.bind (safe_ordinary_frame hknown (onlyCalls_call trivial)) fun _ => ?_
      have hfail : ∀ exc, Safe (expiringMachine store) (decisionDiscipline ι) i
          (ctx.failWithCosts d running.state exc)
          (fun c => Free i c ∧ Known running.state c) fun _ => Idle i := fun exc =>
        Safe.bind (safe_ordinary_frame hknown (onlyCalls_call trivial)) fun costs =>
          safe_finishFailure exc d.runGeneration costs
      split
      next report =>
        have hcommit : (ctx.commitReport d report).OnlyCalls JobOp.Ordinary :=
          onlyCalls_commitReport hread (fun _ => trivial) fun _ _ => rfl
        exact ((safe_of_ordinary hcommit).weaken fun _ _ _ h =>
          Free.idle h).strengthen fun c _ h => h.1
      next => exact hfail _
      next => exact Safe.raise fun c _ h => h.1.idle
      next => exact hfail _
    next => exact Safe.ret fun c _ h => h.1.idle

theorem safe_executeWithLease :
    Safe (expiringMachine store) (decisionDiscipline ι) i (ctx.executeWithLease n d state)
      (fun c => Free i c ∧ Known state c) fun _ => Idle i := by
  have hread : ∀ op : JobOp, op.readsOnly = true → op.Ordinary :=
    fun _ => JobOp.ordinary_of_readsOnly
  have hknown := @persistent_known store ι _ state
  have hfail : ∀ exc, Safe (expiringMachine store) (decisionDiscipline ι) i
      (ctx.failWithCosts d state exc) (fun c => Free i c ∧ Known state c)
      fun _ => Idle i := fun exc =>
    Safe.bind (safe_ordinary_frame hknown (onlyCalls_call trivial)) fun costs =>
      safe_finishFailure exc d.runGeneration costs
  unfold executeWithLease
  refine Safe.bind (safe_ordinary_frame hknown (onlyCalls_call trivial))
    fun request => ?_
  refine Safe.bind (safe_ordinary_frame hknown
    (onlyCalls_ensureLedger hread state request)) fun _ => ?_
  refine Safe.bind (safe_ordinary_frame hknown (onlyCalls_call trivial)) fun now => ?_
  split
  next => exact hfail _
  next =>
    cases request with
    | none => exact hfail _
    | some request => exact safe_startRun request

/-- One delivery, from the first read to the release of the lease. -/
theorem safe_executeV22Job_decisions :
    Safe (expiringMachine store) (decisionDiscipline ι) i (ctx.executeV22Job n d) (Idle i)
      fun _ => Idle i := by
  refine Safe.bind (B := fun state c => Free i c ∧ Known state c) ?_ fun state => ?_
  · refine (safe_requireState_known d.jobId).weaken fun outcome c _ h => ?_
    cases outcome with
    | ok state => exact ⟨h.2, (h.1 state rfl).2⟩
    | error error => exact h.2.idle
  · have hknown := @persistent_known store ι _ state
    split
    next => exact Safe.ret fun c _ h => h.1.idle
    next =>
      unfold takeLease
      refine Safe.bind (safe_ordinary_frame hknown (onlyCalls_call trivial))
        fun acquired => ?_
      cases acquired with
      | false => exact Safe.ret fun c _ h => h.1.idle
      | true =>
          refine Safe.bind (safe_ordinary_frame hknown (onlyCalls_call trivial))
            fun _ => ?_
          refine Safe.ensuring safe_executeWithLease fun outcome => ?_
          exact safe_bothOutcomes (safe_of_not_steers
            (onlyCalls_releaseRun (fun _ => JobOp.steers_of_readsOnly) rfl rfl))

end WorkerContext

namespace Reconciliation

variable {cfg : Reconciliation} {job : UUID}

theorem safe_syncApplied_decisions (applied : Bool) :
    Safe (expiringMachine store) (decisionDiscipline ι) i (cfg.syncApplied job applied)
      (Idle i) fun _ => Idle i :=
  safe_of_not_steers (onlyCalls_syncApplied (fun _ => JobOp.steers_of_readsOnly)
    (fun _ => rfl) applied)

theorem safe_failJob_decisions (hjob : state.jobId = job) (error : JobErrorState) :
    Safe (expiringMachine store) (decisionDiscipline ι) i (cfg.failJob job state error)
      (fun c => Idle i c ∧ Known state c) fun _ => Idle i := by
  refine Safe.bind safe_capabilityTerminalTransition fun outcome => ?_
  obtain ⟨handled, updated⟩ := outcome
  cases handled with
  | true => exact safe_syncApplied_decisions _
  | false =>
      refine Safe.bind (B := fun _ => Idle i) ?_ fun result =>
        safe_syncApplied_decisions _
      refine (safe_bothOutcomes (safe_plainTransition _)).strengthen fun c _ h => ?_
      rcases h with h | ⟨hfinish, _⟩
      · exact ⟨h.1, hjob ▸ h.2⟩
      · cases hfinish

theorem safe_finishRecovery_decisions (hjob : state.jobId = job) (generation : Int) :
    Safe (expiringMachine store) (decisionDiscipline ι) i
      (cfg.finishRecovery job generation state)
      (fun c => Idle i c ∧ Known state c) fun _ => Idle i := by
  have hread : ∀ op : JobOp, op.readsOnly = true → op.steers = false :=
    fun _ => JobOp.steers_of_readsOnly
  have hdiscarding : (do
      let _ ← call (.discardPendingRecovery job generation) : Proc Unit).OnlyCalls
      fun op : JobOp => op.steers = false :=
    OnlyCalls.bind (onlyCalls_call rfl) fun _ => trivial
  have hdiscard : Safe (expiringMachine store) (decisionDiscipline ι) i
      (do let _ ← call (.discardPendingRecovery job generation) : Proc Unit)
      (fun c => Idle i c ∧ Known state c) fun _ => Idle i :=
    (safe_of_not_steers hdiscarding).strengthen fun c _ h => h.1
  unfold finishRecovery
  split
  next => exact hdiscard
  next =>
    split
    next => exact hdiscard
    next =>
      split
      next =>
        refine Safe.bind (safe_call_frame (persistent_known state) rfl)
          fun diagnosticId => ?_
        exact (safe_failJob_decisions hjob _).strengthen fun c _ h => ⟨h.1.idle, h.2⟩
      next =>
        refine (safe_of_not_steers ?_).strengthen fun c _ h => h.1
        split
        next =>
          refine (onlyCalls_deliverTakeover hread (fun _ => rfl) state).bind
            fun delivered => ?_
          split
          next =>
            refine OnlyCalls.bind (onlyCalls_enqueueRun rfl) fun enqueued => ?_
            split
            next => exact OnlyCalls.bind (onlyCalls_call rfl) fun _ => trivial
            next => trivial
          next => trivial
        next => trivial

/-- What the attempt to read a job has shown. -/
theorem safe_attempt_requireState (job : UUID) :
    Safe (expiringMachine store) (decisionDiscipline ι) i (requireState job).attempt
      (Idle i) (Outcome (fun found c => Idle i c ∧ ∀ state, found = .ok state →
        state.jobId = job ∧ Known state c) fun _ => Idle i) :=
  Safe.attempt ((safe_requireState_known job).weaken fun _ _ _ h => ⟨h.2.idle, h.1⟩)

/-- One look at a job: a reading of its state, and then what is done about it. -/
theorem safe_look {body : JobState → Proc Unit} {missing : Proc Unit}
    (hbody : ∀ state, state.jobId = job → Safe (expiringMachine store)
      (decisionDiscipline ι) i (body state) (fun c => Idle i c ∧ Known state c)
      fun _ => Idle i)
    (hmissing : missing.OnlyCalls fun op : JobOp => op.steers = false) :
    Safe (expiringMachine store) (decisionDiscipline ι) i
      (do
        let found ← (requireState job).attempt
        match found with
        | .ok state => body state
        | .error .jobNotFound => missing
        | .error e => .raise e)
      (Idle i) fun _ => Idle i := by
  refine Safe.bind (safe_attempt_requireState job) fun found => ?_
  rcases found with error | state
  · cases error with
    | jobNotFound => exact (safe_of_not_steers hmissing).strengthen fun c _ h => h.1
    | _ => exact Safe.raise fun c _ h => h.1
  · by_cases hjob : state.jobId = job
    · exact (hbody state hjob).strengthen fun c _ h => ⟨h.1, (h.2 state rfl).2⟩
    · exact Safe.of_false fun c _ h => hjob (h.2 state rfl).1

theorem safe_finishPendingRecovery_decisions (generation : Int) :
    Safe (expiringMachine store) (decisionDiscipline ι) i
      (cfg.finishPendingRecovery job generation) (Idle i) fun _ => Idle i :=
  safe_look (fun _ hjob => safe_finishRecovery_decisions hjob generation)
    (OnlyCalls.bind (onlyCalls_call rfl) fun _ => trivial)

/-- A takeover follows a probe that was answered `active`, or is about a job of
another kind. -/
theorem safe_call_takeOverStale (hjob : state.jobId = job) (now : Instant) :
    Safe (expiringMachine store) (decisionDiscipline ι) i
      (call (.takeOverStale job state.runGeneration now))
      (fun c => Settled i state false (false, none) c ∧ Known state c)
      fun _ => Free i := by
  refine Safe.perform_post (fun _ => stable_free) ?_
  rintro c result after hinv ⟨hsettled, hknown⟩ hstep _
  rcases hsettled with ⟨hfree, _⟩ | ⟨_, request, answer, howed, habout, _, hverdict⟩
  · have hop : (JobOp.takeOverStale job state.runGeneration now).Ordinary := trivial
    exact ⟨follows_of_ordinary hop hinv hfree hstep,
      fun rest _ => free_of_ordinary hop hfree rest⟩
  · refine ⟨follows_of_pays hknown ?_ ?_ ?_ ?_, fun rest _ => ?_⟩
    · rw [howed]
      exact congrArg some habout.job
    · rw [howed]
      simp only [Pays, hverdict]
      exact ⟨now, by rw [habout.job, habout.generation, hjob]⟩
    · intro j hafter hbefore
      refine absurd (not_failed_of_status hinv hstep ?_ j hafter) hbefore
      rintro a ⟨⟩
    · rintro request ⟨⟩
    · exact owed_perform howed (.takeOverStale job state.runGeneration now) result
        after rest

theorem safe_takeOver_decisions (hjob : state.jobId = job) :
    Safe (expiringMachine store) (decisionDiscipline ι) i (cfg.takeOver job state)
      (fun c => Idle i c ∧ Known state c) fun _ => Idle i := by
  have hread : ∀ op : JobOp, op.readsOnly = true → op.steers = false :=
    fun _ => JobOp.steers_of_readsOnly
  have hknown := @persistent_known store ι _ state
  refine Safe.bind (safe_call_frame hknown rfl) fun diagnosticId => ?_
  refine Safe.bind (B := fun outcome c => Settled i state false outcome c ∧
    Known state c) ?_ fun outcome => ?_
  · refine ((safe_capabilityTerminalTransition.frame hknown).weaken
      fun outcome c _ h => ?_).strengthen fun c _ h => ⟨⟨h.1.idle, h.2⟩, h.2⟩
    cases outcome with
    | ok outcome => exact h
    | error error => exact h.1
  · obtain ⟨handled, probed⟩ := outcome
    cases handled with
    | true => exact (safe_syncApplied_decisions _).strengthen fun c _ h => h.1
    | false =>
        refine Safe.bind (B := fun _ => Idle i) ?_ fun updated => ?_
        · refine Safe.bind (B := fun _ => Free i) ?_ fun result => ?_
          · refine (safe_call_takeOverStale hjob cfg.now).weaken
              fun outcome c _ h => ?_
            cases outcome with
            | ok result => exact h
            | error error => exact Free.idle h
          · exact (safe_bothOutcomes (safe_of_not_steers
              (onlyCalls_publishApplied hread job result))).strengthen
              fun c _ h => h.idle
        · refine Safe.bind (B := fun _ => Idle i) ?_ fun found => ?_
          · exact safe_bothOutcomes (safe_of_not_steers (onlyCalls_call rfl))
          · refine Safe.bind (B := fun _ => Idle i) ?_ fun _ =>
              safe_syncApplied_decisions _
            cases found with
            | none => exact Safe.ret fun c _ h => h
            | some generation =>
                exact safe_bothOutcomes (safe_finishPendingRecovery_decisions generation)

theorem safe_settleStaleJob_decisions (hjob : state.jobId = job) (waiting : Bool) :
    Safe (expiringMachine store) (decisionDiscipline ι) i
      (cfg.settleStaleJob job state waiting)
      (fun c => Idle i c ∧ Known state c) fun _ => Idle i := by
  have hfail : ∀ error : UUID → JobErrorState, Safe (expiringMachine store)
      (decisionDiscipline ι) i
      (call .uuid4 >>= fun id => cfg.failJob job state (error id))
      (fun c => Idle i c ∧ Known state c) fun _ => Idle i := fun error =>
    Safe.bind (safe_call_frame (persistent_known state) rfl) fun id =>
      (safe_failJob_decisions hjob (error id)).strengthen fun c _ h => ⟨h.1.idle, h.2⟩
  unfold settleStaleJob
  dsimp only
  split
  next => exact Safe.ret fun c _ h => h.1
  next =>
    split
    next => exact hfail _
    next =>
      split
      next => exact hfail _
      next => exact safe_takeOver_decisions hjob

theorem safe_reconcileStaleJob_decisions :
    Safe (expiringMachine store) (decisionDiscipline ι) i (cfg.reconcileStaleJob job)
      (Idle i) fun _ => Idle i := by
  refine safe_look (fun state hjob => ?_) (OnlyCalls.bind (onlyCalls_call rfl) fun _ => trivial)
  have hknown := @persistent_known store ι _ state
  have hsettle : ∀ waiting, Safe (expiringMachine store) (decisionDiscipline ι) i
      (cfg.settleStaleJob job state waiting) (fun c => Free i c ∧ Known state c)
      fun _ => Idle i := fun waiting =>
    (safe_settleStaleJob_decisions hjob waiting).strengthen
      fun c _ h => ⟨h.1.idle, h.2⟩
  unfold reconcileStaleState
  split
  next => exact Safe.ret fun c _ h => h.1
  next =>
    refine Safe.bind (safe_call_frame hknown rfl) fun pending => ?_
    cases pending with
    | none => exact hsettle false
    | some generation =>
        dsimp only
        split
        next =>
          refine Safe.bind ((safe_call_frame hknown rfl).strengthen
            fun c _ h => ⟨h.1.idle, h.2⟩) fun _ => hsettle false
        next => exact hsettle true

/-- The whole of `reconcile_once`. -/
theorem safe_reconcileOnce_decisions :
    Safe (expiringMachine store) (decisionDiscipline ι) i cfg.reconcileOnce (Idle i)
      fun _ => Idle i := by
  have hread : ∀ op : JobOp, op.readsOnly = true → op.steers = false :=
    fun _ => JobOp.steers_of_readsOnly
  refine Safe.bind (safe_bothOutcomes (safe_of_not_steers (onlyCalls_call rfl)))
    fun pending => ?_
  refine Safe.bind (B := fun _ => Idle i) ?_ fun _ => ?_
  · refine Safe.forEach (J := Idle i) (fun marker _ => ?_) fun c _ h => h
    exact safe_bothOutcomes (safe_finishPendingRecovery_decisions marker.2)
  · refine Safe.bind (safe_bothOutcomes (safe_of_not_steers
      (onlyCalls_syncPendingCallbacks hread (fun _ _ => rfl) (fun _ => rfl) _)))
      fun _ => ?_
    refine Safe.bind (safe_bothOutcomes (safe_of_not_steers (onlyCalls_call rfl)))
      fun stale => ?_
    refine Safe.forEach (J := Idle i) (fun job _ => ?_) fun c _ h => h
    exact safe_bothOutcomes safe_reconcileStaleJob_decisions

end Reconciliation

/-- The processes of a deployment; a client neither asks the database nor records an
error. -/
inductive Party : Proc Unit → Prop
  | execution (ctx : WorkerContext) (n : Nat) (d : Delivery) :
      Party (ctx.executeV22Job n d)
  | heartbeat (ctx : WorkerContext) (n : Nat) (d : Delivery) :
      Party (ctx.maintainHeartbeat n d)
  | reconciler (cfg : Reconciliation) : Party cfg.reconcileOnce
  | client (p : Proc Unit) (hp : p.OnlyCalls JobOp.Ordinary) : Party p

theorem Party.safe {p : Proc Unit} (h : Party p) :
    Safe (expiringMachine store) (decisionDiscipline ι) i p (Free i) fun _ _ => True := by
  have hordinary : ∀ {q : Proc Unit}, q.OnlyCalls JobOp.Ordinary →
      Safe (expiringMachine store) (decisionDiscipline ι) i q (Free i)
        fun _ _ => True := fun hq => (safe_of_ordinary hq).weaken fun _ _ _ _ => trivial
  cases h with
  | execution ctx n d =>
      exact (WorkerContext.safe_executeV22Job_decisions.weaken
        fun _ _ _ _ => trivial).strengthen fun _ _ h => h.idle
  | heartbeat ctx n d =>
      exact hordinary (WorkerContext.onlyCalls_maintainHeartbeat
        (fun _ => JobOp.ordinary_of_readsOnly) trivial (fun _ _ => rfl) trivial trivial)
  | reconciler cfg =>
      exact (Reconciliation.safe_reconcileOnce_decisions.weaken
        fun _ _ _ _ => trivial).strengthen fun _ _ h => h.idle
  | client p hp => exact hordinary hp

end Parties

section Runs

variable {store : DurableJobStore} {ι : Type} [DecidableEq ι]
  {c : Config jobSignature JobException World ι}
  {e : Event jobSignature JobException World ι} {rest : Proc Unit}
  {stored : List (Event jobSignature JobException World ι) → UUID →
    Option CapabilityReport}

/-- The database has given an answer with the status about the job. -/
def AnsweredFor (job : UUID) (status : String)
    (calls : List (Event jobSignature JobException World ι)) : Prop :=
  ∃ e ∈ calls, ∃ request answer, e.op.finalized e.result = some (request, answer) ∧
    request.jobId = job ∧ answer.status = status

/-- The database, by the completed report of each job that it holds after some calls:
it answers `succeeded` if and only if it holds one, it keeps what it holds, and it
takes none after it has answered `failed`. -/
structure DatabaseAnswers (stored : List (Event jobSignature JobException World ι) →
      UUID → Option CapabilityReport)
    (c : Config jobSignature JobException World ι)
    (e : Event jobSignature JobException World ι) : Prop where
  answers : ∀ request answer, e.op.finalized e.result = some (request, answer) →
    (answer.status = "succeeded" ↔ (stored c.history request.jobId).isSome = true)
  keeps : ∀ job, (stored c.history job).isSome = true →
    stored (e :: c.history) job = stored c.history job
  closes : ∀ job, AnsweredFor job "failed" (e :: c.history) →
    stored c.history job = none → stored (e :: c.history) job = none

/-- Where a process moves a job for a report that it was told of, and the job has not
ended, the job is still in the generation that the process has read, it has not gone
back to the queue before its last move, and clock and counters are in order. -/
def MovesInTime : CallCondition jobSignature JobException World ι :=
  fun c e => ∀ request report a current, (owed e.actor c).report = some (request, report) →
    e.op = .transition a → c.state.redis.states.get request.jobId = some current →
    current.terminal = false →
    current.runGeneration = request.runGeneration ∧
      (a.status = .succeeded → current.status = .running) ∧
      current.createdAt ≤ a.now ∧
      ∀ counters ∈ a.costCounters, ValidCostCounters counters

/-- The conditions under which terminal decisions follow the database. -/
structure DecisionConditions (stored : List (Event jobSignature JobException World ι) →
      UUID → Option CapabilityReport)
    (c : Config jobSignature JobException World ι)
    (e : Event jobSignature JobException World ι) : Prop where
  remembered : RequestsRemembered c e
  moves : MovesInTime c e
  database : DatabaseAnswers stored c e

/-- What a call does about the decisions of the database. -/
structure DatabaseFirst (c : Config jobSignature JobException World ι)
    (e : Event jobSignature JobException World ι) : Prop where
  /-- A job that was registered with capability requests only fails when its process
  has just been answered `failed`, and nobody was ever answered `succeeded`. -/
  failed : ∀ job, e.after.redis.Failed job → ¬ c.state.redis.Failed job →
    ¬ Plain job c →
    (∃ request, owed e.actor c = .answered request ⟨"failed", none⟩ ∧
      request.jobId = job ∧ AnsweredFor job "failed" c.history) ∧
    ¬ AnsweredFor job "succeeded" c.history
  /-- Whoever was answered does next what the answer decides: it restores and completes
  the job with the report, it fails the job, it takes the job over, or it leaves it. -/
  pays : ∀ job caseId, (owed e.actor c).job = some job →
    (∀ k, RegisteredFor job k c → k = caseId) → Pays caseId (owed e.actor c) e.op
  /-- Such a move of a job that has not ended goes through, and the last one ends it
  with the very report. -/
  reports : ∀ request report caseId a current,
    (owed e.actor c).report = some (request, report) → report.BoundTo caseId request →
    (∀ k, RegisteredFor request.jobId k c → k = caseId) → e.op = .transition a →
    c.state.redis.states.get request.jobId = some current → current.terminal = false →
    (∃ reason : Interruption, e.result = .error reason.exception) ∨
      ∃ next, e.after.redis.states.get request.jobId = some next ∧
        (Restores request a ∧ next.status = .running ∨
          Completes request report a ∧ next.status = .succeeded ∧
            next.report = some (.capability report))
  /-- The database is asked about the registered request, and asking changes nothing. -/
  asks : ∀ request, e.op = .finalizeFailure request →
    e.after.redis = c.state.redis ∧ ∃ payload, RegisteredWith request.jobId payload c ∧
      payload.capabilityRequest = some request.task

theorem decisions_sound {pool : ι → Proc Unit} (hparties : ∀ i, Party (pool i))
    (hrun : Run (expiringMachine store) RequestsRemembered (start World.initial pool) c) :
    Grounded c ∧ ∀ {e rest}, Enabled (expiringMachine store) RequestsRemembered c e rest →
      FollowsDecisions c e := by
  have hsafe : ∀ i, SafeAt (expiringMachine store) (decisionDiscipline ι)
      (start World.initial pool) i := fun i =>
    SafeAt.of_safe (Q := fun _ _ => True) stable_free rfl (hparties i).safe
  have hkept := @decisionDiscipline_kept store ι _
  refine ⟨((decisionDiscipline ι).sound hkept (grounded_start pool) hsafe hrun).1, ?_⟩
  intro e rest hen
  exact (decisionDiscipline ι).goal_of_run hkept (grounded_start pool) hsafe hrun hen

/-- The database never contradicts itself about a job. -/
theorem not_answered_twice {pool : ι → Proc Unit}
    (hrun : Run (expiringMachine store) (DecisionConditions stored)
      (start World.initial pool) c) (job : UUID)
    (hfailed : AnsweredFor job "failed" c.history) :
    ¬ AnsweredFor job "succeeded" c.history := by
  have hinv : ∀ job, (AnsweredFor job "succeeded" c.history →
      (stored c.history job).isSome = true) ∧
      (AnsweredFor job "failed" c.history → stored c.history job = none) := by
    refine Run.invariant (I := fun d => ∀ job,
      (AnsweredFor job "succeeded" d.history → (stored d.history job).isSome = true) ∧
      (AnsweredFor job "failed" d.history → stored d.history job = none)) hrun ?_ ?_
      (fun h _ => h) (fun _ h => h)
    · intro job
      constructor <;> rintro ⟨e, ⟨⟩, _⟩
    · rintro d e rest hd hen job
      have hdatabase := hen.meets.database
      constructor
      · rintro ⟨e', he', request, answer, hanswer, hjob, hstatus⟩
        have hheld : (stored d.history job).isSome = true := by
          rcases List.mem_cons.1 he' with rfl | he'
          · exact hjob ▸ (hdatabase.answers request answer hanswer).1 hstatus
          · exact (hd job).1 ⟨e', he', request, answer, hanswer, hjob, hstatus⟩
        rw [Config.perform_history, hdatabase.keeps job hheld]
        exact hheld
      · intro hfailed
        refine hdatabase.closes job hfailed ?_
        obtain ⟨e', he', request, answer, hanswer, hjob, hstatus⟩ := hfailed
        rcases List.mem_cons.1 he' with rfl | he'
        · have hnot : ¬ (stored d.history job).isSome = true := by
            rw [← hjob, ← hdatabase.answers request answer hanswer, hstatus]
            decide
          simpa using hnot
        · exact (hd job).2 ⟨e', he', request, answer, hanswer, hjob, hstatus⟩
  intro hsucceeded
  have hheld := (hinv job).1 hsucceeded
  rw [(hinv job).2 hfailed] at hheld
  cases hheld

/-- Nothing but a valid report makes a process owe one. -/
theorem pays_report {caseId : UUID} {d : Debt} {request : FinalizeRequest}
    {report : CapabilityReport} {op : JobOp} (hreport : d.report = some (request, report))
    (hbound : report.BoundTo caseId request) (hpays : Pays caseId d op) :
    ∃ a, op = .transition a ∧ (Restores request a ∨ Completes request report a) := by
  cases d with
  | answered asked answer =>
      obtain ⟨status, completed⟩ := answer
      simp only [Debt.report, Option.ite_none_right_eq_some, Option.map_eq_some_iff,
        Prod.mk.injEq] at hreport
      obtain ⟨rfl, found, rfl, rfl, rfl⟩ := hreport
      simpa [Pays, verdict, hbound] using hpays
  | published asked found =>
      obtain ⟨rfl, rfl⟩ := Prod.mk.inj (Option.some.inj hreport)
      obtain ⟨a, ha, hcompletes⟩ := hpays
      exact ⟨a, ha, Or.inr hcompletes⟩
  | _ => cases hreport

theorem Debt.job_of_report {d : Debt} {request : FinalizeRequest}
    {report : CapabilityReport} (h : d.report = some (request, report)) :
    d.job = some request.jobId := by
  cases d with
  | answered asked answer =>
      simp only [Debt.report, Option.ite_none_right_eq_some, Option.map_eq_some_iff,
        Prod.mk.injEq] at h
      obtain ⟨_, _, _, rfl, _⟩ := h
      rfl
  | published asked found =>
      obtain ⟨rfl, _⟩ := Prod.mk.inj (Option.some.inj h)
      rfl
  | _ => cases h

/-- The call of the database leaves the server. -/
theorem performs_finalizeFailure {w w' : World} {request : FinalizeRequest}
    {res : Except JobException FinalizeAnswer}
    (h : (expiringMachine store).Performs (.finalizeFailure request) w res w') :
    w'.redis = w.redis := by
  rcases performs_cases h with ⟨reply, hexec⟩ | ⟨_, _, rfl⟩
  · obtain ⟨_, rfl⟩ := Prod.mk.inj (Option.some.inj hexec)
    rfl
  · rfl

omit [DecidableEq ι] in
/-- A move for a report goes through where it comes in time. -/
theorem report_recorded (hgrounded : Grounded c) {request : FinalizeRequest}
    {report : CapabilityReport} {caseId : UUID} {a : Transition} {current : JobState}
    {res : Except JobException TransitionResult} {after : World}
    (hmove : Restores request a ∨ Completes request report a)
    (hbound : report.BoundTo caseId request)
    (hunique : ∀ k, RegisteredFor request.jobId k c → k = caseId)
    (hcurrent : c.state.redis.states.get request.jobId = some current)
    (halive : current.terminal = false)
    (hgeneration : current.runGeneration = request.runGeneration)
    (hrunning : a.status = .succeeded → current.status = .running)
    (hcreated : current.createdAt ≤ a.now)
    (hcosts : ∀ counters ∈ a.costCounters, ValidCostCounters counters)
    (hstep : (expiringMachine store).Performs (.transition a) c.state res after) :
    (∃ reason : Interruption, res = .error reason.exception) ∨
      ∃ next, after.redis.states.get request.jobId = some next ∧
        (Restores request a ∧ next.status = .running ∨
          Completes request report a ∧ next.status = .succeeded ∧
            next.report = some (.capability report)) := by
  have hstored := hgrounded.stored _ _ hcurrent
  have hname := hgrounded.named _ _ hcurrent
  rcases hmove with hrestores | hcompletes
  · obtain ⟨state, now, hstate, hjob, hstategen, rfl⟩ := hrestores
    obtain ⟨next, hfits, hstatus⟩ := restoringTransition_fits hstored hstate
      (hgeneration.trans hstategen.symm) halive hcreated
    rw [← hjob] at hcurrent
    refine (performs_transition_of_fits hgrounded.stored hcurrent hfits hstep).imp id
      fun hafter => ⟨next, hjob ▸ hafter, Or.inl ⟨?_, hstatus⟩⟩
    exact ⟨state, now, hstate, hjob, hstategen, rfl⟩
  · obtain ⟨state, now, costCounters, hjob, hstategen, rfl⟩ := hcompletes
    have hcase := hunique _ (hgrounded.states _ _ hcurrent)
    obtain ⟨next, hfits, hstatus, hreport⟩ := completedTransition_fits hstored
      (hgeneration.trans hstategen.symm) (hrunning rfl) hcreated hcosts
      (hbound.job.trans hname.symm) (hbound.case.trans hcase.symm)
    rw [← hjob] at hcurrent
    refine (performs_transition_of_fits hgrounded.stored hcurrent hfits hstep).imp id
      fun hafter => ⟨next, hjob ▸ hafter, Or.inr ⟨?_, hstatus, hreport⟩⟩
    exact ⟨state, now, costCounters, hjob, hstategen, rfl⟩

/-- In every run of such processes, with expiry, the terminal decisions about
capability jobs follow the database, as long as no request is forgotten before its job
and the moves for a report come in time. -/
theorem decisions_follow_the_database {pool : ι → Proc Unit}
    (hparties : ∀ i, Party (pool i))
    (hrun : Run (expiringMachine store) (DecisionConditions stored)
      (start World.initial pool) c)
    (hen : Enabled (expiringMachine store) (DecisionConditions stored) c e rest) :
    DatabaseFirst c e := by
  obtain ⟨hgrounded, hgoal⟩ := decisions_sound hparties
    (hrun.weaken fun _ _ h => h.remembered)
  have hfollows := hgoal ⟨hen.next, hen.before, hen.performs, hen.meets.remembered⟩
  refine ⟨?_, hfollows.pays, ?_, ?_⟩
  · intro job hafter hbefore hcapability
    rcases hfollows.failed job hafter hbefore with hplain | ⟨request, howed, hjob⟩
    · exact absurd hplain hcapability
    · obtain ⟨e', he', hanswer⟩ := mem_of_debt_answered howed
      have hfailed : AnsweredFor job "failed" c.history :=
        ⟨e', List.mem_of_mem_filter he', request, _, hanswer, hjob, rfl⟩
      exact ⟨⟨request, howed, hjob, hfailed⟩, not_answered_twice hrun job hfailed⟩
  · intro request report caseId a current hreport hbound hunique hop hcurrent halive
    have hpays := hfollows.pays _ caseId (Debt.job_of_report hreport) hunique
    obtain ⟨a', hop', hmove⟩ := pays_report hreport hbound hpays
    obtain rfl := JobOp.transition.inj (hop.symm.trans hop')
    obtain ⟨hgeneration, hrunning, hcreated, hcosts⟩ :=
      hen.meets.moves request report a current hreport hop hcurrent halive
    obtain ⟨actor, op, result, before, after⟩ := e
    obtain rfl : op = .transition a := hop
    exact report_recorded hgrounded hmove hbound hunique hcurrent halive hgeneration
      hrunning hcreated hcosts hen.performs
  · intro request hop
    refine ⟨?_, hfollows.asks request hop⟩
    obtain ⟨actor, op, result, before, after⟩ := e
    obtain rfl : op = .finalizeFailure request := hop
    exact performs_finalizeFailure hen.performs

section Sample

/-- The sample job as a capability task. -/
def capabilityRegistration : Registration :=
  { sampleRegistration with
    requestPayload := ⟨some capabilitySchemaVersion, some ⟨7, 3, 0, .prospect⟩, "{}"⟩ }

/-- A reconciliation at the given second, with a coordinator and no synchronizer. -/
def reconciliationAt (second : Int) : Reconciliation where
  synchronizer := false
  coordinator := true
  now := second * 1000000
  staleSeconds := 180
  maxAttempts := 3

/-- A capability job is registered, its callback is acknowledged, and a reconciler
comes by. -/
def capabilityPool (second : Int) : Nat → Proc Unit
  | 0 => do let _ ← call (.registerJob capabilityRegistration)
  | 1 => do let _ ← call (.markCallbackSynced 1 1)
  | _ => (reconciliationAt second).reconcileOnce

/-- The database answers `failed`. -/
def denying : JobAnswer := .proceed fun op =>
  match op with
  | .uuid4 => .ok 0
  | .finalizeFailure _ => .ok ⟨"failed", none⟩
  | _ => .error .unexpected

/-- The reconciler finds the job past its deadline and is about to fail it. -/
def deadlineMoves (asking : Nat) : List (Move (expiringMachine sampleStore) Nat) :=
  List.replicate (6 + asking) (.act 2 denying)

def refusedMoves : List (Move (expiringMachine sampleStore) Nat) :=
  .act 0 quiet :: deadlineMoves 1

/-- No move is made, no request is missing and the database answers `failed` only. -/
def refusedOnly (c : Config jobSignature JobException World Nat)
    (e : Event jobSignature JobException World Nat) : Bool :=
  (match e.op with
    | .transition _ => false
    | .getRequest job => (c.state.redis.requests.get job).isSome
    | _ => true) &&
    (e.op.finalized e.result).all fun p => p.2.status != "succeeded"

theorem databaseAnswers_none {c : Config jobSignature JobException World Nat}
    {e : Event jobSignature JobException World Nat}
    (h : (e.op.finalized e.result).all (fun p => p.2.status != "succeeded") = true) :
    DatabaseAnswers (fun _ _ => none) c e where
  answers request answer hanswer := by
    rw [hanswer] at h
    have hstatus : answer.status ≠ "succeeded" := by simpa using h
    simp [hstatus]
  keeps _ h := by cases h
  closes _ _ _ := rfl

theorem conditions_of_refusedOnly (c : Config jobSignature JobException World Nat)
    (e : Event jobSignature JobException World Nat) (h : refusedOnly c e = true) :
    DecisionConditions (fun _ _ => none) c e := by
  obtain ⟨actor, op, result, before, after⟩ := e
  simp only [refusedOnly, Bool.and_eq_true] at h
  refine ⟨?_, ?_, databaseAnswers_none h.2⟩
  · rintro job rfl
    exact Or.inr h.1
  · rintro request report a current _ rfl
    cases h.1

theorem refused_played :
    (play refusedOnly refusedMoves
      (start World.initial (capabilityPool 1000))).isSome = true := by
  decide

/-- The database has refused the job after its deadline. -/
def refused : Config jobSignature JobException World Nat :=
  (play refusedOnly refusedMoves (start World.initial (capabilityPool 1000))).get
    refused_played

theorem capabilityPool_party (second : Int) (i : Nat) :
    Party (capabilityPool second i) := by
  match i with
  | 0 => exact .client _ (OnlyCalls.bind (onlyCalls_call trivial) fun _ => trivial)
  | 1 => exact .client _ (OnlyCalls.bind (onlyCalls_call trivial) fun _ => trivial)
  | _ + 2 => exact .reconciler _

/-- The job fails once the database has refused it. -/
theorem refused_job_fails :
    ∃ (e : Event jobSignature JobException World Nat) (rest : Proc Unit),
      Enabled (expiringMachine sampleStore) (DecisionConditions fun _ _ => none) refused e
        rest ∧ e.after.redis.Failed 1 ∧ DatabaseFirst refused e := by
  have hrun : Run (expiringMachine sampleStore) (DecisionConditions fun _ _ => none)
      (start World.initial (capabilityPool 1000)) refused :=
    play_run conditions_of_refusedOnly (Option.some_get refused_played).symm
  have hplay : (nextCall (expiringMachine sampleStore) (fun _ _ => true) refused 2
      denying).any (fun p => decide (p.1.actor = 2) &&
        (p.1.op.finalized p.1.result).isNone && (match p.1.op with
          | .getRequest _ => false
          | _ => true) &&
        (p.1.after.redis.states.get 1).any fun s => decide (s.status = .failed)) =
        true := by
    decide
  obtain ⟨e, rest, hen, htest⟩ := exists_call_of_nextCall hplay
  simp only [Bool.and_eq_true, decide_eq_true_eq] at htest
  obtain ⟨⟨⟨hactor, hnone⟩, hread⟩, hfailed⟩ := htest
  obtain ⟨s, hs, hstatus⟩ := Option.any_eq_true _ _ |>.1 hfailed
  have hmeets : DecisionConditions (fun _ _ => none) refused e := by
    refine ⟨?_, ?_, databaseAnswers_none ?_⟩
    · intro job hop
      rw [hop] at hread
      cases hread
    · intro request report a current hreport
      have howed : (owed e.actor refused).report = none := by
        rw [hactor]
        rfl
      rw [howed] at hreport
      cases hreport
    · rw [Option.isNone_iff_eq_none.1 hnone]
      rfl
  have hen : Enabled (expiringMachine sampleStore) (DecisionConditions fun _ _ => none)
      refused e rest := ⟨hen.next, hen.before, hen.performs, hmeets⟩
  exact ⟨e, rest, hen, ⟨s, hs, of_decide_eq_true hstatus⟩,
    decisions_follow_the_database (capabilityPool_party 1000) hrun hen⟩

theorem forgotten_played :
    (play (fun _ _ => true) ([.act 0 quiet, .drift (600000 : Nat), .act 1 quiet,
      .drift (10000 : Nat)] ++ deadlineMoves 0)
      (start World.initial (capabilityPool 610000))).isSome = true := by
  decide

/-- The request of the job has expired, while the acknowledged state has not. -/
def forgotten : Config jobSignature JobException World Nat :=
  (play (fun _ _ => true) ([.act 0 quiet, .drift (600000 : Nat), .act 1 quiet,
    .drift (10000 : Nat)] ++ deadlineMoves 0)
    (start World.initial (capabilityPool 610000))).get forgotten_played

/-- A capability job fails although nobody has ever asked the database. -/
theorem forgotten_job_fails_unasked :
    Run (expiringMachine sampleStore) Anything
        (start World.initial (capabilityPool 610000)) forgotten ∧
      ¬ Plain 1 forgotten ∧
      (∀ e ∈ forgotten.history, e.op.finalized e.result = none) ∧
      ∃ (e : Event jobSignature JobException World Nat) (rest : Proc Unit),
        Enabled (expiringMachine sampleStore) Anything forgotten e rest ∧
        ¬ forgotten.state.redis.Failed 1 ∧ e.after.redis.Failed 1 := by
  have hrun : Run (expiringMachine sampleStore) Anything
      (start World.initial (capabilityPool 610000)) forgotten :=
    play_run (fun _ _ _ => trivial) (Option.some_get forgotten_played).symm
  have hplain : forgotten.history.all (fun e => (e.op.registered e.result).all
      fun a => isCapabilityRequest (some a.requestPayload)) = true := by
    decide
  have hunasked : forgotten.history.all (fun e =>
      (e.op.finalized e.result).isNone) = true := by
    decide
  have halive : (forgotten.state.redis.states.get 1).all (fun s =>
      decide (s.status ≠ .failed)) = true := by
    decide
  have hplay : (nextCall (expiringMachine sampleStore) (fun _ _ => true) forgotten 2
      denying).any (fun p => (p.1.after.redis.states.get 1).any fun s =>
        decide (s.status = .failed)) = true := by
    decide
  obtain ⟨e, rest, hen, hfailed⟩ := exists_call_of_nextCall hplay
  obtain ⟨s, hs, hstatus⟩ := Option.any_eq_true _ _ |>.1 hfailed
  refine ⟨hrun, ?_, ?_, e, rest, hen, ?_, s, hs, of_decide_eq_true hstatus⟩
  · rintro ⟨e', he', a, ha, _, hother⟩
    have hall := List.all_eq_true.1 hplain e' he'
    rw [ha] at hall
    have hcapability : isCapabilityRequest (some a.requestPayload) = true := hall
    rw [hother] at hcapability
    cases hcapability
  · intro e' he'
    exact Option.isNone_iff_eq_none.1 (List.all_eq_true.1 hunasked e' he')
  · rintro ⟨t, ht, hfailed⟩
    rw [ht] at halive
    exact absurd hfailed (of_decide_eq_true halive)

end Sample

end Runs

end SearchTrust.Jobs
