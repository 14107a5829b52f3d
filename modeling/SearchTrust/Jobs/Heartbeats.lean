/-
A heartbeat reads the snapshot of its job and replays it in a transition of its
own.  It leaves the work of the job alone exactly when nobody has moved the job
between the two.
-/
import SearchTrust.Jobs.Revisions
import SearchTrust.Jobs.SingleWriter

namespace SearchTrust.Jobs

open SearchTrust.Interleave SearchTrust.Interleave.Program SearchTrust.Redis

namespace JobState

/-- Two snapshots agree on what a heartbeat replays. -/
structure SameWork (t s : JobState) : Prop where
  status : t.status = s.status
  stage : t.stage = s.stage
  progress : t.progress = s.progress
  message : t.message = s.message

/-- `next` is `s` but for its heartbeat, its time of update and its revision. -/
def OnlyBeats (s next : JobState) : Prop :=
  next = { s with
    heartbeatAt := next.heartbeatAt
    updatedAt := next.updatedAt
    revision := next.revision }

/-- A live snapshot carries no payload. -/
theorem Valid.payload_of_alive {s : JobState} (h : s.Valid)
    (halive : s.terminal = false) :
    s.report = none ∧ s.error = none ∧ s.completedAt = none := by
  have hfits := h.2.2.2.2
  unfold PayloadFits at hfits
  rcases not_terminal_iff.1 halive with hstatus | hstatus
  · rw [hstatus] at hfits
    exact hfits
  · rw [hstatus] at hfits
    exact hfits

end JobState

/-- A committed heartbeat leaves the work of a job alone exactly when it replays
a snapshot that agrees with the current one. -/
theorem onlyBeats_iff_sameWork {job : UUID} {generation : Int} {now : Instant}
    {s t next : JobState} (hs : s.Stored) (ht : t.Stored)
    (h : TransitionFits (Client.heartbeatTransition job generation now t) s next) :
    s.OnlyBeats next ↔ t.SameWork s := by
  obtain ⟨hreport, herror, hcompleted⟩ := hs.1.payload_of_alive h.alive
  obtain ⟨hnext, hvalid⟩ := JobState.modelValidate_eq_ok_iff.1 h.validated
  have hstatus : next.status = t.status := by
    rw [hnext]
    rfl
  have hstage : next.stage = t.stage := by
    rw [hnext]
    rfl
  have hprogress : next.progress = t.progress := by
    rw [hnext]
    rfl
  have hmessage : next.message = t.message := by
    rw [hnext]
    exact (congrArg JobState.message ht.2 : strip t.message = t.message)
  constructor
  · intro honly
    refine ⟨?_, ?_, ?_, ?_⟩
    · rw [← hstatus, honly]
    · rw [← hstage, honly]
    · rw [← hprogress, honly]
    · rw [← hmessage, honly]
  · intro hsame
    have hlive : ¬ (s.status = .succeeded ∨ s.status = .failed) := by
      rw [← JobState.terminal_iff, h.alive]
      exact Bool.false_ne_true
    have hstripped : strip s.message = s.message := congrArg JobState.message hs.2
    unfold JobState.OnlyBeats
    rw [hnext]
    simp only [JobState.normalized, DurableJobStore.nextState,
      Client.heartbeatTransition, hstripped, hsame.status, hsame.stage,
      hsame.progress, hsame.message, hlive, hreport, herror, hcompleted,
      ↓reduceIte, Option.getD_none, Option.map_none]

namespace JobOp

/-- The job whose executor an operation starts. -/
def runs : JobOp → Option UUID
  | startExecutor job => some job
  | _ => none

/-- The statuses between which a transition is refused as invalid. -/
def refusal : (op : JobOp) → Except JobException op.Value →
    Option (JobStatus × JobStatus)
  | transition _, .error (.invalidJobTransition source target) =>
      some (source, target)
  | _, _ => none

theorem refusal_eq_some {a : Transition} {source target : JobStatus}
    {result : Except JobException TransitionResult}
    (h : refusal (transition a) result = some (source, target)) :
    result = .error (.invalidJobTransition source target) := by
  rcases result with error | value
  · cases error with
    | invalidJobTransition =>
        obtain ⟨rfl, rfl⟩ := Prod.mk.inj (Option.some.inj h)
        rfl
    | _ => cases h
  · cases h

theorem runs_of_readsOnly {op : JobOp} (h : op.readsOnly = true) :
    op.runs = none := by
  cases op <;> first | rfl | cases h

end JobOp

/-- Execution `n` has committed that the job is running. -/
def CommitsRunning (n : Nat) (job : UUID) (e : WorkerEvent) : Prop :=
  e.actor = .execution n ∧ JobOp.Revises job e.op ∧
    ∃ next, JobOp.committed e.op e.result = some next ∧ next.status = .running

section Discipline

/-- What a heartbeat writes is what it has just read, and an executor is started
once its execution has committed that the job is running. -/
def heartbeatDiscipline (cond : CallCondition jobSignature JobException World Actor) :
    Discipline jobSignature JobException World Actor where
  inv c := c.state.redis.StatesStored
  cond := cond
  goal c e :=
    (∀ n job, e.actor = .heartbeat n → JobOp.Revises job e.op →
      ∃ generation now t,
        e.op = .transition (Client.heartbeatTransition job generation now t) ∧
        t.Stored ∧ JustRead e.actor job t c) ∧
    ∀ n job, e.actor = .execution n → e.op.runs = some job →
      ∃ e' ∈ c.history, CommitsRunning n job e'

variable {cond : CallCondition jobSignature JobException World Actor}
  {store : DurableJobStore} {dep : Deployment}

theorem heartbeatDiscipline_kept :
    (heartbeatDiscipline cond).Kept (durableMachine store) where
  act := fun hinv hen _ => statesStored_of_run (.single (.act hen)) hinv
  drift := fun hinv hdrift =>
    statesStored_of_run (.single (.drift hdrift : Step _ cond _ _)) hinv
  crash := fun _ h => h

theorem heartbeatDiscipline_initial :
    (heartbeatDiscipline cond).inv (start World.initial dep.pool) :=
  statesStored_initial

theorem heartbeatGoal_of_not_revised {c : WorkerConfig} {e : WorkerEvent}
    (hrevised : e.op.revised = none) (hruns : e.op.runs = none) :
    (heartbeatDiscipline cond).goal c e := by
  constructor
  · intro n job _ hop
    cases hrevised.symm.trans (show e.op.revised = some job from hop)
  · intro n job _ hop
    rw [hruns] at hop
    cases hop

/-- A program of a heartbeat task that moves no job. -/
theorem safe_of_not_revised {α : Type} {p : Proc α} {i : Actor}
    {A : WorkerConfig → Prop}
    (hp : p.OnlyCalls fun op : JobOp => op.revised = none ∧ op.runs = none) :
    Safe (durableMachine store) (heartbeatDiscipline cond) i p A
      fun _ _ => True := by
  refine Safe.of_calls hp fun c op result after hop _ _ _ => ?_
  exact heartbeatGoal_of_not_revised hop.1 hop.2

theorem safe_heartbeat {n : Nat} {job : UUID} {generation : Int} {now : Instant} :
    Safe (durableMachine store) (heartbeatDiscipline cond) (.heartbeat n)
      (Client.heartbeat job generation now) (fun _ => True) fun _ _ => True := by
  refine Safe.bind (B := fun t c => t.Stored ∧ Seen job t c ∧
    JustRead (.heartbeat n) job t c) ?_ fun t => ?_
  · refine (safe_requireState (P := JobState.Stored) (fun _ h => h) ?_ ?_).weaken
      fun outcome c _ h => ?_
    · exact fun _ _ _ _ => heartbeatGoal_of_not_revised rfl rfl
    · exact fun c t hstored _ ht => hstored job t ht
    · cases outcome with
      | ok t => exact h
      | error error => trivial
  · refine (safe_transition (B := fun _ _ => True) ?_ ?_).weaken
      fun _ _ _ _ => trivial
    · refine Safe.anyOutcome (Safe.perform_post (fun _ => .const True) ?_)
      rintro c result after _ ⟨hstored, _, hread⟩ _ _
      refine ⟨⟨fun m j _ hop => ?_, fun m j hactor => nomatch hactor⟩,
        fun _ _ => trivial⟩
      obtain rfl : job = j := Option.some.inj hop
      exact ⟨generation, now, t, rfl, hstored, hread⟩
    · intro result revision
      exact (safe_of_not_revised (onlyCalls_call ⟨rfl, rfl⟩)).anyOutcome

theorem safe_heartbeatRound {ctx : WorkerContext} {n : Nat} {d : Delivery} :
    Safe (durableMachine store) (heartbeatDiscipline cond) (.heartbeat n)
      (ctx.heartbeatRound n d) (fun _ => True) fun _ _ => True := by
  refine (safe_of_not_revised (onlyCalls_call ⟨rfl, rfl⟩)).andThen fun stopped => ?_
  cases stopped with
  | true => exact Safe.done
  | false =>
      refine Safe.handle (E := fun _ _ => True) (Safe.anyOutcome ?_) fun e => ?_
      · refine (safe_of_not_revised (onlyCalls_call ⟨rfl, rfl⟩)).andThen
          fun refreshed => ?_
        cases refreshed with
        | true =>
            refine (safe_of_not_revised (onlyCalls_call ⟨rfl, rfl⟩)).andThen
              fun now => ?_
            exact safe_heartbeat.andThen fun _ => Safe.done
        | false =>
            refine safe_of_not_revised ?_
            exact OnlyCalls.bind (onlyCalls_call ⟨rfl, rfl⟩) fun _ => trivial
      · refine safe_of_not_revised ?_
        unfold WorkerContext.beatFailed
        split
        next => exact OnlyCalls.bind (onlyCalls_call ⟨rfl, rfl⟩) fun _ => trivial
        next => split <;> trivial

theorem safe_maintainHeartbeat_beats {ctx : WorkerContext} {n : Nat} {d : Delivery} :
    Safe (durableMachine store) (heartbeatDiscipline cond) (.heartbeat n)
      (ctx.maintainHeartbeat n d) (fun _ => True) fun _ _ => True := by
  refine (safe_of_not_revised (onlyCalls_call ⟨rfl, rfl⟩)).andThen fun _ => ?_
  refine Safe.ensuring (F := fun _ _ => True) ?_ fun _ => ?_
  · generalize d.heartbeatRounds = rounds
    induction rounds with
    | zero => exact Safe.done
    | succ rounds ih =>
        refine safe_heartbeatRound.andThen fun continues => ?_
        cases continues with
        | true => exact ih
        | false => exact Safe.done
  · exact (safe_of_not_revised (onlyCalls_call ⟨rfl, rfl⟩)).anyOutcome

/-- Where an execution starts no executor. -/
theorem safe_of_not_runs {α : Type} {p : Proc α} {n : Nat} {A : WorkerConfig → Prop}
    (hA : Persistent (durableMachine store) (heartbeatDiscipline cond) A)
    (hp : p.OnlyCalls fun op : JobOp => op.runs = none) :
    Safe (durableMachine store) (heartbeatDiscipline cond) (.execution n) p A
      fun _ => A := by
  refine Safe.keeps hp hA fun c op result after hop _ _ _ => ?_
  refine ⟨fun m job hactor => (nomatch hactor), fun m job _ hruns => ?_⟩
  cases hop.symm.trans hruns

/-- Nothing is known, and nothing is lost. -/
theorem persistent_true :
    Persistent (durableMachine store) (heartbeatDiscipline cond) fun _ => True :=
  ⟨fun _ _ _ _ _ => trivial, fun _ _ _ => trivial, fun _ _ _ => trivial⟩

section Execution

variable {ctx : WorkerContext} {n : Nat} {d : Delivery}

theorem safe_runExecutor :
    Safe (durableMachine store) (heartbeatDiscipline cond) (.execution n)
      (ctx.runExecutor n d)
      (fun c => ∃ e ∈ c.history, CommitsRunning n d.jobId e) fun _ _ => True := by
  have hran : Persistent (durableMachine store) (heartbeatDiscipline cond)
      fun c => ∃ e ∈ c.history, CommitsRunning n d.jobId e := .of_history _
  have hread : ∀ op : JobOp, op.readsOnly = true → op.runs = none :=
    fun _ => JobOp.runs_of_readsOnly
  refine Safe.bind (B := fun _ c => ∃ e ∈ c.history, CommitsRunning n d.jobId e)
    (safe_of_not_runs hran (onlyCalls_call rfl)).onValue fun now => ?_
  refine Safe.andThen ?_ fun _ => ?_
  · refine Safe.perform_post (fun _ => .const True) ?_
    intro c result after _ hran _ _
    refine ⟨⟨fun m job hactor => (nomatch hactor), fun m job hactor hruns => ?_⟩,
      fun _ _ => trivial⟩
    obtain rfl : n = m := Actor.execution.inj hactor
    obtain rfl : d.jobId = job := Option.some.inj hruns
    exact hran
  · refine (safe_of_not_runs persistent_true ?_).weaken fun _ _ _ _ => trivial
    refine (OnlyCalls.interpret ?_ d.executor).bind fun report => ?_
    · exact WorkerContext.onlyCalls_serve hread (fun _ => rfl) (fun _ _ _ _ => rfl)
        (fun _ _ _ => rfl) rfl
    · refine (onlyCalls_call (hread _ rfl)).bind fun lost => ?_
      cases lost <;> trivial

theorem safe_startRun {state : JobState} {request : RequestPayload} :
    Safe (durableMachine store) (heartbeatDiscipline cond) (.execution n)
      (ctx.startRun n d state request) (fun _ => True) fun _ _ => True := by
  have hread : ∀ op : JobOp, op.readsOnly = true → op.runs = none :=
    fun _ => JobOp.runs_of_readsOnly
  have hran : ∀ running : TransitionResult,
      Persistent (durableMachine store) (heartbeatDiscipline cond) fun c =>
        running.applied = true → ∃ e ∈ c.history, CommitsRunning n d.jobId e :=
    fun running => .imp _ (.of_history _)
  refine (safe_of_not_runs persistent_true (onlyCalls_call rfl)).andThen
    fun started => ?_
  refine Safe.bind (safe_transition (B := fun running c => running.applied = true →
    ∃ e ∈ c.history, CommitsRunning n d.jobId e) ?_ ?_) fun running => ?_
  · refine Safe.perform_post ?_ ?_
    · rintro (_ | running)
      · exact .const True
      · exact (hran running).stable _
    · intro c result after hinv _ hstep _
      refine ⟨⟨fun m job hactor => (nomatch hactor),
        fun m job _ hruns => (nomatch hruns)⟩, fun _ _ => ?_⟩
      cases result with
      | error error => trivial
      | ok running =>
          intro happlied
          obtain ⟨s, _, hfits, _⟩ := performs_applied hinv hstep happlied
          refine ⟨_, List.mem_cons_self, rfl, rfl, running.state, ?_, ?_⟩
          · simp [JobOp.committed, happlied]
          · rw [(JobState.modelValidate_eq_ok_iff.1 hfits.validated).1]
            rfl
  · exact fun running _ => (safe_of_not_runs (hran running)
      (onlyCalls_call rfl)).onValue
  · split
    next happlied =>
      refine Safe.bind (B := fun _ c => ∃ e ∈ c.history,
        CommitsRunning n d.jobId e) ?_ fun _ => ?_
      · refine Safe.onValue (Safe.strengthen (safe_of_not_runs (.of_history _) ?_)
          fun _ _ h => h happlied)
        exact WorkerContext.onlyCalls_notifyState hread fun _ => rfl
      · refine Safe.bind (B := fun _ _ => True) ?_ fun outcome => ?_
        · exact Safe.attempt (safe_runExecutor.weaken fun _ _ _ _ => trivial)
        · refine (safe_of_not_runs persistent_true ?_).weaken
            fun _ _ _ _ => trivial
          exact WorkerContext.onlyCalls_finishRun hread (fun _ => rfl) (fun _ _ => rfl)
            (fun _ => rfl) rfl _ outcome
    next => exact Safe.done

/-- An execution starts its executor only after it has committed that the job is
running. -/
theorem safe_executeV22Job_runs :
    Safe (durableMachine store) (heartbeatDiscipline cond) (.execution n)
      (ctx.executeV22Job n d) (fun _ => True) fun _ _ => True := by
  have hread : ∀ op : JobOp, op.readsOnly = true → op.runs = none :=
    fun _ => JobOp.runs_of_readsOnly
  have hquiet : ∀ {α : Type} {p : Proc α},
      p.OnlyCalls (fun op : JobOp => op.runs = none) →
      Safe (durableMachine store) (heartbeatDiscipline cond) (.execution n) p
        (fun _ => True) fun _ _ => True :=
    fun hp => safe_of_not_runs persistent_true hp
  refine (hquiet (onlyCalls_requireState hread d.jobId)).andThen fun state => ?_
  have hfail : ∀ exc, (ctx.failWithCosts d state exc).OnlyCalls
      fun op : JobOp => op.runs = none :=
    WorkerContext.onlyCalls_failWithCosts hread (fun _ => rfl) (fun _ => rfl) fun _ _ => rfl
  split
  next => exact Safe.done
  next =>
    refine (hquiet (onlyCalls_call rfl)).andThen fun acquired => ?_
    cases acquired with
    | false => exact Safe.done
    | true =>
        refine (hquiet (onlyCalls_call rfl)).andThen fun _ => ?_
        refine Safe.ensuring (F := fun _ _ => True) ?_ fun _ => ?_
        · refine (hquiet (onlyCalls_call rfl)).andThen fun request => ?_
          refine (hquiet (WorkerContext.onlyCalls_ensureLedger hread state
            request)).andThen fun _ => ?_
          refine (hquiet (onlyCalls_call rfl)).andThen fun now => ?_
          split
          next => exact hquiet (hfail _)
          next =>
            cases request with
            | none => exact hquiet (hfail _)
            | some request => exact safe_startRun
        · exact (hquiet (WorkerContext.onlyCalls_releaseRun hread rfl rfl)).anyOutcome

end Execution

/-- Clients move jobs as they like; they are neither executions nor heartbeats. -/
theorem heartbeatDiscipline_safe (i : Actor) :
    SafeAt (durableMachine store) (heartbeatDiscipline cond)
      (start World.initial dep.pool) i := by
  refine SafeAt.of_safe (Q := fun _ _ => True) (.const True) trivial ?_
  cases i with
  | execution n => exact safe_executeV22Job_runs
  | heartbeat n => exact safe_maintainHeartbeat_beats
  | client n =>
      have hall : (dep.clients n).OnlyCalls fun _ : JobOp => True :=
        OnlyCalls.all _
      refine Safe.of_calls hall fun c op result after _ _ _ _ => ?_
      exact ⟨fun m job hactor => (nomatch hactor),
        fun m job hactor => (nomatch hactor)⟩

end Discipline

section Calls

variable {store : DurableJobStore} {tick : JobRedis → Nat → JobRedis} {w w' : World}

/-- Where a transition is refused as invalid, the job is alive and in a status
that does not allow it. -/
theorem performs_invalidTransition {a : Transition} {source target : JobStatus}
    (hr : w.redis.StatesStored)
    (h : (jobMachine store tick).Performs (.transition a) w
      (.error (.invalidJobTransition source target)) w') :
    ∃ s, w.redis.states.get a.jobId = some s ∧ s.terminal = false ∧
      a.status ∉ allowedTransitions s.status := by
  rcases performs_cases h with ⟨reply, hexec⟩ | ⟨reason, hres, _⟩
  · rcases World.commit_cases (Option.some.inj hexec) with
      ⟨_, _, _, hres, _⟩ | ⟨e, herror, hres, _⟩
    · cases hres
    obtain rfl := Except.error.inj hres
    unfold DurableJobStore.transition at herror
    cases hget : w.redis.states.get a.jobId with
    | none =>
        simp only [JobRedis.requireState, hr.getState, hget, Except.ok_bind] at herror
        cases herror
    | some s =>
        rw [hr.requireState_eq_ok.2 hget, Except.ok_bind] at herror
        refine ⟨s, rfl, ?_⟩
        split at herror
        next => cases herror
        next =>
          split at herror
          next => cases herror
          next halive =>
            split at herror
            next hallowed => exact ⟨by simpa using halive, hallowed⟩
            next =>
              unfold JobState.modelValidate at herror
              split at herror <;> cases herror
  · cases reason <;> cases hres

end Calls

section Runs

variable {store : DurableJobStore} {dep : Deployment} {c : WorkerConfig}
  {e : WorkerEvent} {rest : Proc Unit}

/-- What a heartbeat replays is what the job it commits over still shows. -/
def HeartbeatsFresh : CallCondition jobSignature JobException World Actor :=
  fun c e => ∀ n a t s, e.actor = .heartbeat n → e.op = .transition a →
    JustRead e.actor a.jobId t c →
    c.state.redis.states.get a.jobId = some s → s.terminal = false →
    a.expectedGeneration = some s.runGeneration → t.SameWork s

/-- The call takes the job out of its status `running`. -/
def LeavesRunning (job : UUID) (e : WorkerEvent) : Prop :=
  ∃ s t, e.before.redis.states.get job = some s ∧ s.status = .running ∧
    e.after.redis.states.get job = some t ∧ t.status ≠ .running

/-- A committed heartbeat, with the snapshot it has read and the state it commits
over. -/
theorem heartbeat_commit {cond : CallCondition jobSignature JobException World Actor}
    (hstored : c.state.redis.StatesStored)
    (hen : Enabled (durableMachine store) cond c e rest)
    (hgoal : (heartbeatDiscipline cond).goal c e) {n : Nat} {job : UUID}
    (hactor : e.actor = .heartbeat n) (hop : JobOp.Revises job e.op)
    {next : JobState} (hnext : JobOp.committed e.op e.result = some next) :
    ∃ a s t, e.op = .transition a ∧ a.jobId = job ∧ JustRead e.actor job t c ∧
      c.state.redis.states.get job = some s ∧ s.terminal = false ∧
      a.expectedGeneration = some s.runGeneration ∧
      (s.OnlyBeats next ↔ t.SameWork s) := by
  obtain ⟨generation, now, t, htransition, ht, hread⟩ := hgoal.1 n job hactor hop
  obtain ⟨actor, op, result, before, after⟩ := e
  obtain rfl : op = _ := htransition
  cases result with
  | error error => cases hnext
  | ok res =>
      have happlied : res.applied = true := by
        by_contra hnot
        simp [JobOp.committed, hnot] at hnext
      obtain rfl : res.state = next := by
        simpa [JobOp.committed, happlied] using hnext
      obtain ⟨s, hs, hfits, _⟩ := performs_applied hstored hen.performs happlied
      refine ⟨_, s, t, rfl, rfl, hread, hs, hfits.alive, ?_, ?_⟩
      · exact congrArg some (hfits.generation generation rfl)
      · exact onlyBeats_iff_sameWork (hstored job s hs) ht hfits

/-- A fresh heartbeat leaves the status of a job alone. -/
theorem heartbeat_keeps_running (hstored : c.state.redis.StatesStored)
    (hen : Enabled (durableMachine store) HeartbeatsFresh c e rest)
    (hgoal : (heartbeatDiscipline HeartbeatsFresh).goal c e) {n : Nat} {job : UUID}
    (hactor : e.actor = .heartbeat n) : ¬ LeavesRunning job e := by
  rintro ⟨s, t, hs, hrunning, ht, hleft⟩
  rw [hen.before] at hs
  by_cases hop : JobOp.Revises job e.op
  · cases hcommit : JobOp.committed e.op e.result with
    | none =>
        have hsame := performs_uncommitted hstored hen.performs hop hcommit
        rw [hsame] at ht
        obtain rfl := Option.some.inj (hs.symm.trans ht)
        exact hleft hrunning
    | some next =>
        obtain ⟨a, s', r, htransition, rfl, hread, hs', halive, hgen, hiff⟩ :=
          heartbeat_commit hstored hen hgoal hactor hop hcommit
        obtain rfl := Option.some.inj (hs.symm.trans hs')
        have honly := hiff.2
          (hen.meets n a r s hactor htransition hread hs halive hgen)
        obtain ⟨_, _, hafter, _⟩ :=
          performs_committed hstored hen.performs hop hcommit
        obtain rfl := Option.some.inj (hafter.symm.trans ht)
        rw [honly] at hleft
        exact hleft hrunning
  · have hchange := performs_change hstored hen.performs job
    rcases hchange.state_of_not_revises hop hs with hsame | ⟨revision, _, hsynced⟩
    · obtain rfl := Option.some.inj (hsame.symm.trans ht)
      exact hleft hrunning
    · obtain rfl := Option.some.inj (hsynced.symm.trans ht)
      exact hleft hrunning

/-- Since an execution has committed that a job is running, the job is running,
or a call that is no heartbeat has taken it out of that status. -/
def RunningSince (c : WorkerConfig) : Prop :=
  ∀ later ran earlier n job, c.history = later ++ ran :: earlier →
    CommitsRunning n job ran →
    (∃ s, c.state.redis.states.get job = some s ∧ s.status = .running) ∨
    ∃ mover ∈ later, (∀ m, mover.actor ≠ .heartbeat m) ∧ LeavesRunning job mover

theorem RunningSince.perform (h : RunningSince c)
    (hstored : c.state.redis.StatesStored)
    (hen : Enabled (durableMachine store) HeartbeatsFresh c e rest)
    (hgoal : (heartbeatDiscipline HeartbeatsFresh).goal c e) :
    RunningSince (c.perform e rest) := by
  intro later ran earlier n job hsplit hran
  cases later with
  | nil =>
      obtain ⟨rfl, rfl⟩ := List.cons.inj hsplit
      obtain ⟨_, hop, next, hnext, hrunning⟩ := hran
      obtain ⟨_, _, hafter, _⟩ := performs_committed hstored hen.performs hop hnext
      exact Or.inl ⟨next, hafter, hrunning⟩
  | cons head later =>
      obtain ⟨rfl, hhistory⟩ := List.cons.inj hsplit
      rcases h later ran earlier n job hhistory hran with
        ⟨s, hs, hrunning⟩ | ⟨mover, hmover, hleaves⟩
      · obtain ⟨t, ht, _⟩ :=
          (performs_change hstored hen.performs job).later (hstored.view job) s hs
        by_cases hstill : t.status = .running
        · exact Or.inl ⟨t, ht, hstill⟩
        · have hleaves : LeavesRunning job e :=
            ⟨s, t, hen.before ▸ hs, hrunning, ht, hstill⟩
          refine Or.inr ⟨e, List.mem_cons_self, fun m hactor => ?_, hleaves⟩
          exact heartbeat_keeps_running hstored hen hgoal hactor hleaves
      · exact Or.inr ⟨mover, List.mem_cons_of_mem _ hmover, hleaves⟩

/-- An executor has been started only by executions that have committed that the
job is running. -/
def StartedRunning (c : WorkerConfig) : Prop :=
  ∀ x ∈ c.history, ∀ n job, x.actor = .execution n → x.op.runs = some job →
    ∃ ran ∈ c.history, CommitsRunning n job ran

/-- In every run, a heartbeat commit changes nothing but the heartbeat, the time
of update and the revision exactly when the snapshot it has read agrees with the
state it commits over.  In every run whose heartbeats meet that condition they
change nothing else, and when the succeeded transition of an execution that has
started its executor is refused as invalid, then a call that is no heartbeat has
taken the job out of `running` since the execution put it there. -/
theorem heartbeats_leave_work_alone (dep : Deployment) :
    (∀ c e rest n job next,
      Run (durableMachine store) Anything (start World.initial dep.pool) c →
      Enabled (durableMachine store) Anything c e rest →
      e.actor = .heartbeat n → JobOp.Revises job e.op →
      JobOp.committed e.op e.result = some next →
      ∃ s t, c.state.redis.states.get job = some s ∧ JustRead e.actor job t c ∧
        (s.OnlyBeats next ↔ t.SameWork s)) ∧
    ∀ c e rest,
      Run (durableMachine store) HeartbeatsFresh (start World.initial dep.pool) c →
      Enabled (durableMachine store) HeartbeatsFresh c e rest →
      (∀ n job next, e.actor = .heartbeat n → JobOp.Revises job e.op →
        JobOp.committed e.op e.result = some next →
        ∃ s, c.state.redis.states.get job = some s ∧ s.OnlyBeats next) ∧
      ∀ n a source target, e.actor = .execution n → e.op = .transition a →
        a.status = .succeeded →
        (∃ x ∈ c.history, x.actor = .execution n ∧ x.op.runs = some a.jobId) →
        JobOp.refusal e.op e.result = some (source, target) →
        ∃ later ran earlier, c.history = later ++ ran :: earlier ∧
          CommitsRunning n a.jobId ran ∧
          ∃ mover ∈ later, (∀ m, mover.actor ≠ .heartbeat m) ∧
            LeavesRunning a.jobId mover := by
  constructor
  · intro c e rest n job next hrun hen hactor hop hnext
    have hgoal := (heartbeatDiscipline Anything).goal_of_run
      heartbeatDiscipline_kept heartbeatDiscipline_initial heartbeatDiscipline_safe
      hrun hen
    obtain ⟨_, s, t, _, _, hread, hs, _, _, hiff⟩ := heartbeat_commit
      (statesStored_of_run hrun statesStored_initial) hen hgoal hactor hop hnext
    exact ⟨s, t, hs, hread, hiff⟩
  intro c e rest hrun hen
  have hstored := statesStored_of_run hrun statesStored_initial
  have hgoal := (heartbeatDiscipline HeartbeatsFresh).goal_of_run
    heartbeatDiscipline_kept heartbeatDiscipline_initial heartbeatDiscipline_safe
      hrun hen
  constructor
  · intro n job next hactor hop hnext
    obtain ⟨a, s, t, htransition, rfl, hread, hs, halive, hgen, hiff⟩ :=
      heartbeat_commit hstored hen hgoal hactor hop hnext
    exact ⟨s, hs, hiff.2 (hen.meets n a t s hactor htransition hread hs halive hgen)⟩
  · rintro n a source target hactor htransition hsucceeded ⟨x, hx, hstarted, hruns⟩
      hrefused
    have hsince : RunningSince c ∧ StartedRunning c := by
      refine (heartbeatDiscipline HeartbeatsFresh).invariant heartbeatDiscipline_kept
        heartbeatDiscipline_initial heartbeatDiscipline_safe hrun
        (I := fun c => RunningSince c ∧ StartedRunning c) ?_ ?_ ?_ ?_
      · refine ⟨fun later ran earlier n job hsplit => ?_, fun x hx => (nomatch hx)⟩
        simp [start] at hsplit
      · rintro d y rest' hd ⟨hsince, hstarts⟩ hen' hgoal'
        refine ⟨hsince.perform hd hen' hgoal', fun x hx m job hm hjob => ?_⟩
        have hbefore : ∃ ran ∈ d.history, CommitsRunning m job ran := by
          rcases List.mem_cons.1 hx with rfl | hx
          · exact hgoal'.2 m job hm hjob
          · exact hstarts x hx m job hm hjob
        obtain ⟨ran, hran, hcommits⟩ := hbefore
        exact ⟨ran, List.mem_cons_of_mem _ hran, hcommits⟩
      · rintro d after _ ⟨hsince, hstarts⟩ hdrift
        refine ⟨fun later ran earlier m job hsplit hran => ?_, hstarts⟩
        refine (hsince later ran earlier m job hsplit hran).imp ?_ id
        rintro ⟨s, hs, hrunning⟩
        exact ⟨s, (congrArg JobView.state (view_drifts hdrift job)).trans hs, hrunning⟩
      · exact fun _ _ h => h
    obtain ⟨ran, hran, hcommits⟩ := hsince.2 x hx n a.jobId hstarted hruns
    obtain ⟨later, earlier, hsplit⟩ := List.append_of_mem hran
    refine ⟨later, ran, earlier, hsplit, hcommits, ?_⟩
    obtain ⟨actor, op, result, before, after⟩ := e
    obtain rfl : op = _ := htransition
    obtain rfl := JobOp.refusal_eq_some hrefused
    obtain ⟨s, hs, halive, hallowed⟩ :=
      performs_invalidTransition hstored hen.performs
    rcases hsince.1 later ran earlier n a.jobId hsplit hcommits with
      ⟨t, ht, hrunning⟩ | hmover
    · obtain rfl := Option.some.inj (hs.symm.trans ht)
      rw [hsucceeded, hrunning] at hallowed
      exact absurd (by simp [allowedTransitions]) hallowed
    · exact hmover

/-- The sample job is delivered once, and its executor returns a report. -/
def onceDelivered : Deployment where
  ctx := sampleContext
  deliveries _ := sampleDelivery 1 "a" (.ret (.reportV22 "{}"))
  clients := sampleClients

/-- The check that a heartbeat replays the work that the job still shows. -/
def replaysCurrent (c : WorkerConfig) (e : WorkerEvent) : Bool :=
  match e.actor, e.op with
  | .heartbeat _, .transition a =>
      (c.state.redis.states.get a.jobId).all fun s =>
        decide (a.status = s.status) && decide (a.stage = s.stage) &&
        decide (a.progress = s.progress) && decide (a.message = s.message) &&
        (((lastCall c.history e.actor).bind fun x =>
          JobOp.observed x.op x.result).all fun p =>
            decide (p.2.status = a.status) && decide (p.2.stage = a.stage) &&
            decide (p.2.progress = a.progress) && decide (p.2.message = a.message))
  | _, _ => true

theorem heartbeatsFresh_of_replaysCurrent (c : WorkerConfig) (e : WorkerEvent)
    (h : replaysCurrent c e = true) : HeartbeatsFresh c e := by
  obtain ⟨actor, op, result, before, after⟩ := e
  intro n a t s hactor hop hread hs _ _
  obtain rfl : actor = _ := hactor
  obtain rfl : op = _ := hop
  have hlast : (lastCall c.history (.heartbeat n)).bind
      (fun x => JobOp.observed x.op x.result) = some (a.jobId, t) := hread
  simp only [replaysCurrent, hs, hlast, Option.all_some, Bool.and_eq_true,
    decide_eq_true_eq] at h
  obtain ⟨⟨⟨⟨hstatus, hstage⟩, hprogress⟩, hmessage⟩,
    ⟨⟨hstatus', hstage'⟩, hprogress'⟩, hmessage'⟩ := h
  exact ⟨hstatus'.trans hstatus, hstage'.trans hstage, hprogress'.trans hprogress,
    hmessage'.trans hmessage⟩

/-- The heartbeat task of the first delivery, up to its transition. -/
def firstBeat : List (Move (durableMachine sampleStore) Actor) :=
  List.replicate 5 (.act (.heartbeat 0) obliging)

theorem running_job_beats :
    ∃ (c : WorkerConfig) (e : WorkerEvent) (rest : Proc Unit) (s next : JobState),
      Run (durableMachine sampleStore) HeartbeatsFresh
        (start World.initial onceDelivered.pool) c ∧
      Enabled (durableMachine sampleStore) HeartbeatsFresh c e rest ∧
      e.actor = .heartbeat 0 ∧ JobOp.committed e.op e.result = some next ∧
      c.state.redis.states.get 1 = some s ∧ s.status = .running ∧
      s.OnlyBeats next ∧
      ∃ t, JustRead e.actor 1 t c ∧ t.SameWork s := by
  have hplay : (play replaysCurrent
      (firstMoves ++ .act (.execution 0) obliging :: firstBeat)
      (start World.initial onceDelivered.pool)).any (fun c =>
        (c.state.redis.states.get 1).any (fun s =>
          decide (s.status = .running)) &&
        (nextCall (durableMachine sampleStore) replaysCurrent c (.heartbeat 0)
          obliging).any fun p =>
            decide (p.1.actor = .heartbeat 0) &&
            decide (p.1.op.revised = some 1) &&
            (JobOp.committed p.1.op p.1.result).isSome) = true := by
    decide
  obtain ⟨c, hrun, htest⟩ :=
    exists_run_of_play heartbeatsFresh_of_replaysCurrent hplay
  simp only [Bool.and_eq_true] at htest
  obtain ⟨hstate, hcall⟩ := htest
  obtain ⟨s, hs, hrunning⟩ := Option.any_eq_true _ _ |>.1 hstate
  obtain ⟨e, rest, hen, htest⟩ :=
    exists_enabled_of_nextCall heartbeatsFresh_of_replaysCurrent hcall
  simp only [Bool.and_eq_true, decide_eq_true_eq] at htest
  obtain ⟨⟨hactor, hop⟩, hcommitted⟩ := htest
  obtain ⟨next, hnext⟩ := Option.isSome_iff_exists.1 hcommitted
  obtain ⟨s', hs', honly⟩ := ((heartbeats_leave_work_alone
    onceDelivered).2 c e rest hrun hen).1 0 1 next hactor hop hnext
  obtain rfl := Option.some.inj (hs.symm.trans hs')
  obtain ⟨s', t, hs', hread, hiff⟩ := (heartbeats_leave_work_alone
    onceDelivered).1 c e rest 0 1 next (hrun.weaken fun _ _ _ => trivial)
    ⟨hen.next, hen.before, hen.performs, trivial⟩ hactor hop hnext
  obtain rfl := Option.some.inj (hs.symm.trans hs')
  exact ⟨c, e, rest, s, next, hrun, hen, hactor, hnext, hs,
    of_decide_eq_true hrunning, honly, t, hread, hiff.1 honly⟩

/-- A heartbeat reads the queued job before the running transition of its own
execution and commits after it: the running job is queued again.  The succeeded
transition of the finished execution is then refused. -/
theorem heartbeat_requeues_running_job :
    (∃ (c : WorkerConfig) (e : WorkerEvent) (rest : Proc Unit) (s next : JobState),
      Run (durableMachine sampleStore) Anything
        (start World.initial onceDelivered.pool) c ∧
      Enabled (durableMachine sampleStore) Anything c e rest ∧
      e.actor = .heartbeat 0 ∧ JobOp.committed e.op e.result = some next ∧
      c.state.redis.states.get 1 = some s ∧ s.status = .running ∧
      next.status = .queued) ∧
    ∃ (c : WorkerConfig) (e : WorkerEvent) (rest : Proc Unit),
      Run (durableMachine sampleStore) Anything
        (start World.initial onceDelivered.pool) c ∧
      Enabled (durableMachine sampleStore) Anything c e rest ∧
      e.actor = .execution 0 ∧
      (∀ x ∈ c.history, x.actor = .client 0 ∨ x.actor = .execution 0 ∨
        x.actor = .heartbeat 0) ∧
      JobOp.refusal e.op e.result = some (.queued, .succeeded) := by
  constructor
  · have hplay : (play (fun _ _ => true)
        (firstMoves ++ firstBeat ++ [.act (.execution 0) obliging])
        (start World.initial onceDelivered.pool)).any (fun c =>
          (c.state.redis.states.get 1).any (fun s =>
            decide (s.status = .running)) &&
          (nextCall (durableMachine sampleStore) (fun _ _ => true) c (.heartbeat 0)
            obliging).any fun p =>
              decide (p.1.actor = .heartbeat 0) &&
              (JobOp.committed p.1.op p.1.result).any fun next =>
                decide (next.status = .queued)) = true := by
      decide
    obtain ⟨c, hrun, htest⟩ := exists_run_of_play (fun _ _ _ => trivial) hplay
    simp only [Bool.and_eq_true] at htest
    obtain ⟨hstate, hcall⟩ := htest
    obtain ⟨s, hs, hrunning⟩ := Option.any_eq_true _ _ |>.1 hstate
    obtain ⟨e, rest, hen, htest⟩ :=
      exists_enabled_of_nextCall (fun _ _ _ => trivial) hcall
    simp only [Bool.and_eq_true, decide_eq_true_eq] at htest
    obtain ⟨next, hnext, hqueued⟩ := Option.any_eq_true _ _ |>.1 htest.2
    exact ⟨c, e, rest, s, next, hrun, hen, htest.1, hnext, hs,
      of_decide_eq_true hrunning, of_decide_eq_true hqueued⟩
  · have hplay : (play (fun _ _ => true)
        (firstMoves ++ firstBeat ++ [.act (.execution 0) obliging,
          .act (.heartbeat 0) obliging] ++
          List.replicate 7 (.act (.execution 0) obliging))
        (start World.initial onceDelivered.pool)).any (fun c =>
          c.history.all (fun x => decide (x.actor = .client 0 ∨
            x.actor = .execution 0 ∨ x.actor = .heartbeat 0)) &&
          (nextCall (durableMachine sampleStore) (fun _ _ => true) c (.execution 0)
            obliging).any fun p =>
              decide (p.1.actor = .execution 0) &&
              decide (JobOp.refusal p.1.op p.1.result =
                some (.queued, .succeeded))) = true := by
      decide
    obtain ⟨c, hrun, htest⟩ := exists_run_of_play (fun _ _ _ => trivial) hplay
    simp only [Bool.and_eq_true] at htest
    obtain ⟨hactors, hcall⟩ := htest
    obtain ⟨e, rest, hen, htest⟩ :=
      exists_enabled_of_nextCall (fun _ _ _ => trivial) hcall
    simp only [Bool.and_eq_true, decide_eq_true_eq] at htest
    refine ⟨c, e, rest, hrun, hen, htest.1, fun x hx => ?_, htest.2⟩
    exact of_decide_eq_true (List.all_eq_true.1 hactors x hx)

end Runs

end SearchTrust.Jobs
