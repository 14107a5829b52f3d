/-
Whether a recovered job is still stale when the reconciler commits.  Staleness is
read from the index of active jobs once, before the jobs are looked at.
-/
import SearchTrust.Jobs.Durable
import SearchTrust.Jobs.Reconciler

namespace SearchTrust.Jobs

open SearchTrust.Interleave SearchTrust.Interleave.Program SearchTrust.Redis

/-- The cutoff of `reconcile_once`. -/
def Reconciliation.cutoff (cfg : Reconciliation) : Instant :=
  cfg.now - cfg.staleSeconds * 1000000

namespace JobOp

/-- The job that a call has taken over or failed as retry-exhausted. -/
def recovered : (op : JobOp) → Except JobException op.Value → Option UUID
  | takeOverStale job _ _, .ok result => if result.applied then some job else none
  | transition a, .ok result =>
      if result.applied ∧ a.error.any (·.errorCode = "JOB_RETRY_EXHAUSTED") then
        some a.jobId
      else none
  | _, _ => none

/-- The jobs that a scan has returned. -/
def listed : (op : JobOp) → Except JobException op.Value → List UUID
  | listStaleJobs _, .ok jobs => jobs
  | _, _ => []

/-- The transition that a call has committed, with the snapshot it wrote. -/
def moved : (op : JobOp) → Except JobException op.Value →
    Option (Transition × JobState)
  | transition a, .ok result => if result.applied then some (a, result.state) else none
  | _, _ => none

/-- Calls that recover no job whatever they return. -/
def NeverRecovers (op : JobOp) : Prop := ∀ result, op.recovered result = none

/-- Calls that recover no other job than the given one. -/
def RecoversOnly (job : UUID) (op : JobOp) : Prop :=
  ∀ result recovered, op.recovered result = some recovered → recovered = job

theorem neverRecovers_of_readsOnly {op : JobOp} (h : op.readsOnly = true) :
    op.NeverRecovers := by
  intro result
  cases op <;> first | rfl | cases h

theorem NeverRecovers.recoversOnly {op : JobOp} (h : op.NeverRecovers) (job : UUID) :
    op.RecoversOnly job := by
  intro result recovered hrecovered
  rw [h result] at hrecovered
  cases hrecovered

theorem recoversOnly_transition (a : Transition) :
    (JobOp.transition a).RecoversOnly a.jobId := by
  rintro (_ | result) recovered hrecovered
  · cases hrecovered
  · simp only [JobOp.recovered] at hrecovered
    split at hrecovered
    next => exact (Option.some.inj hrecovered).symm
    next => cases hrecovered

theorem recoversOnly_takeOverStale (job : UUID) (generation : Int) (now : Instant) :
    (JobOp.takeOverStale job generation now).RecoversOnly job := by
  rintro (_ | result) recovered hrecovered
  · cases hrecovered
  · simp only [JobOp.recovered] at hrecovered
    split at hrecovered
    next => exact (Option.some.inj hrecovered).symm
    next => cases hrecovered

/-- A transition that completes a job or fails it for its deadline recovers none. -/
theorem neverRecovers_transition {a : Transition}
    (h : a.error = none ∨
      ∃ id, a.error = some (Reconciliation.deadlineError id)) :
    (JobOp.transition a).NeverRecovers := by
  rintro (_ | result)
  · rfl
  · rcases h with h | ⟨id, h⟩ <;> simp [JobOp.recovered, h, Reconciliation.deadlineError]

theorem neverRecovers_bookkeeping : Reconciliation.Bookkeeping NeverRecovers where
  reads _ := neverRecovers_of_readsOnly
  decided _ _ := rfl
  synced _ _ _ := rfl
  enqueued _ _ _ := rfl
  closed _ _ _ _ := rfl
  discarded _ _ _ := rfl
  missing _ _ := rfl
  missingRecovery _ _ _ := rfl

end JobOp

section Scans

variable {ι : Type}

/-- The last recorded activity of the job is not after the cutoff. -/
def StaleAt (job : UUID) (cutoff : Instant) (w : World) : Prop :=
  ∀ at_, w.redis.active.zscore job = some at_ → at_ ≤ cutoff

/-- The call records an activity of the job that is after the cutoff. -/
def RecordsLater (job : UUID) (cutoff : Instant)
    (e : Event jobSignature JobException World ι) : Prop :=
  ∃ at_, e.after.redis.active.zscore job = some at_ ∧ cutoff < at_ ∧
    e.before.redis.active.zscore job ≠ some at_

/-- `newer` are the calls made since process `i` listed the job as stale. -/
def SinceListing (cfg : Reconciliation) (i : ι) (job : UUID)
    (newer history : List (Event jobSignature JobException World ι)) : Prop :=
  ∃ listing older, history = newer ++ listing :: older ∧ listing.actor = i ∧
    listing.op = .listStaleJobs cfg.cutoff ∧
    job ∈ listing.op.listed listing.result

/-- No recovery by process `i` follows an activity of its job that was recorded
after the scan which listed the job. -/
def NoActivitySinceListing (cfg : Reconciliation) (i : ι) :
    CallCondition jobSignature JobException World ι :=
  fun c e => e.actor = i → ∀ job, e.op.recovered e.result = some job →
    ∀ newer, SinceListing cfg i job newer c.history →
      ∀ e' ∈ newer, ¬ RecordsLater job cfg.cutoff e'

/-- Process `i` has listed the job, which has been stale ever since unless somebody
has recorded an activity. -/
def ListedStale (cfg : Reconciliation) (i : ι) (job : UUID)
    (c : Config jobSignature JobException World ι) : Prop :=
  ∃ newer, SinceListing cfg i job newer c.history ∧
    ((∀ e ∈ newer, ¬ RecordsLater job cfg.cutoff e) →
      StaleAt job cfg.cutoff c.state ∧
        ∀ e ∈ newer, StaleAt job cfg.cutoff e.after)

variable {cfg : Reconciliation} {i : ι} {job : UUID}
  {c : Config jobSignature JobException World ι}

/-- A call that records no later activity leaves a stale job stale. -/
theorem StaleAt.after {cutoff : Instant} {e : Event jobSignature JobException World ι}
    (h : StaleAt job cutoff e.before) (he : ¬ RecordsLater job cutoff e) :
    StaleAt job cutoff e.after := by
  intro at_ hafter
  by_contra hlate
  have hlate : cutoff < at_ := lt_of_not_ge hlate
  refine he ⟨at_, hafter, hlate, ?_⟩
  intro hbefore
  exact absurd (h at_ hbefore) (not_le_of_gt hlate)

theorem ListedStale.perform [DecidableEq ι] (h : ListedStale cfg i job c)
    {e : Event jobSignature JobException World ι} (hbefore : e.before = c.state)
    (rest : Proc Unit) : ListedStale cfg i job (c.perform e rest) := by
  obtain ⟨newer, ⟨listing, older, hhistory, hlisting⟩, hstale⟩ := h
  refine ⟨e :: newer, ⟨listing, older, ?_, hlisting⟩, ?_⟩
  · rw [Config.perform_history, hhistory, List.cons_append]
  · intro hquiet
    obtain ⟨hnow, hsince⟩ :=
      hstale fun e' he' => hquiet e' (List.mem_cons_of_mem e he')
    rw [← hbefore] at hnow
    have hafter := hnow.after (hquiet e List.mem_cons_self)
    refine ⟨hafter, ?_⟩
    intro e' he'
    rcases List.mem_cons.1 he' with rfl | he'
    · exact hafter
    · exact hsince e' he'

theorem ListedStale.drifted (h : ListedStale cfg i job c) {store : DurableJobStore}
    {after : World} (hdrift : (expiringMachine store).Drifts c.state after) :
    ListedStale cfg i job (c.drifted after) := by
  obtain ⟨seconds, hseconds⟩ := hdrift
  obtain rfl := Option.some.inj hseconds
  exact h

/-- What a scan returns is stale when the scan is made. -/
theorem listedStale_of_scan [DecidableEq ι] {store : DurableJobStore}
    {tick : JobRedis → Nat → JobRedis} {jobs : List UUID} {after : World}
    (hstep : (jobMachine store tick).Performs (.listStaleJobs cfg.cutoff) c.state
      (.ok jobs) after) (hjob : job ∈ jobs) (rest : Proc Unit) :
    ListedStale cfg i job (c.perform
      ⟨i, .listStaleJobs cfg.cutoff, .ok jobs, c.state, after⟩ rest) := by
  refine ⟨[], ⟨_, c.history, rfl, rfl, rfl, hjob⟩, fun _ => ⟨?_, ?_⟩⟩
  · rcases performs_cases hstep with ⟨reply, hexec⟩ | ⟨_, hres, _⟩
    · obtain ⟨hjobs, rfl⟩ := Prod.mk.inj (Option.some.inj hexec)
      obtain rfl := Except.ok.inj hjobs
      obtain ⟨⟨_, score⟩, hmem, rfl⟩ := List.mem_map.1 hjob
      have hscore := SortedSet.zscore_of_mem_zrangebyscore hmem
      intro at_ hat
      obtain rfl := Option.some.inj (hscore.1.symm.trans hat)
      exact hscore.2
    · cases hres
  · intro e he
    cases he

end Scans

section Reconciler

variable {store : DurableJobStore} {ι : Type} [DecidableEq ι]
  {cfg : Reconciliation} {i : ι} {job : UUID}
  {c : Config jobSignature JobException World ι}

/-- What a recovery by process `i` has to meet: its job has been stale from the
scan that listed it until now. -/
def RecoversStale (cfg : Reconciliation) (i : ι) :
    CallCondition jobSignature JobException World ι :=
  fun c e => e.actor = i → ∀ job, e.op.recovered e.result = some job →
    StaleAt job cfg.cutoff c.state ∧
    ∃ newer, SinceListing cfg i job newer c.history ∧
      ∀ e' ∈ newer, StaleAt job cfg.cutoff e'.after

def stalenessDiscipline (cfg : Reconciliation) (i : ι) :
    Discipline jobSignature JobException World ι where
  inv c := c.state.redis.StatesStored ∧ c.state.redis.StatesNamed
  cond := NoActivitySinceListing cfg i
  goal := RecoversStale cfg i

theorem stalenessDiscipline_kept :
    (stalenessDiscipline cfg i).Kept (expiringMachine store) where
  act := by
    rintro c e rest ⟨hstored, hnamed⟩ hen _
    exact ⟨statesStored_performs hstored hen.performs,
      statesNamed_performs hstored hnamed hen.performs⟩
  drift := by
    rintro c after ⟨hstored, hnamed⟩ ⟨seconds, hseconds⟩
    obtain rfl := Option.some.inj hseconds
    exact ⟨hstored.tick seconds, hnamed.tick seconds⟩
  crash _ h := h

/-- The jobs that a scan has returned stay listed. -/
theorem stable_listedStale (jobs : List UUID) :
    Stable (expiringMachine store) (stalenessDiscipline cfg i) i
      (fun c => ∀ job ∈ jobs, ListedStale cfg i job c) where
  act := fun _ h _ hen _ job hjob => (h job hjob).perform hen.before _
  drift := fun _ h hdrift job hjob => (h job hjob).drifted hdrift
  crash := fun _ _ h => h

omit [DecidableEq ι] in
/-- A recovery of a listed job meets its goal. -/
theorem recoversStale_of_listed {jobs : List UUID}
    (hlisted : ∀ job ∈ jobs, ListedStale cfg i job c) (hjob : job ∈ jobs)
    {e : Event jobSignature JobException World ι} (hop : e.op.RecoversOnly job)
    (hcond : NoActivitySinceListing cfg i c e) : RecoversStale cfg i c e := by
  intro hactor recovered hrecovered
  obtain rfl := hop e.result recovered hrecovered
  obtain ⟨newer, hsince, hstale⟩ := hlisted recovered hjob
  obtain ⟨hnow, hnewer⟩ := hstale (hcond hactor recovered hrecovered newer hsince)
  exact ⟨hnow, newer, hsince, hnewer⟩

/-- Calls that recover nothing need nothing. -/
theorem safe_of_neverRecovers {α : Type} {p : Proc α} {j : ι}
    {A : Config jobSignature JobException World ι → Prop}
    (hp : p.OnlyCalls JobOp.NeverRecovers) :
    Safe (expiringMachine store) (stalenessDiscipline cfg i) j p A fun _ _ => True := by
  refine Safe.of_calls hp ?_
  intro c op result after hop _ _ _ _ recovered hrecovered
  have hnone := hop result
  rw [hnone] at hrecovered
  cases hrecovered

/-- Calls about one listed job keep all jobs listed. -/
theorem safe_of_recoversOnly {α : Type} {p : Proc α} {jobs : List UUID}
    (hp : p.OnlyCalls (JobOp.RecoversOnly job)) (hjob : job ∈ jobs) :
    Safe (expiringMachine store) (stalenessDiscipline cfg i) i p
      (fun c => ∀ job ∈ jobs, ListedStale cfg i job c)
      fun _ c => ∀ job ∈ jobs, ListedStale cfg i job c := by
  refine Safe.of_onlyCalls hp (stable_listedStale jobs) ?_
  intro c op result after hop _ hlisted _ hcond
  refine ⟨recoversStale_of_listed hlisted hjob hop hcond, ?_⟩
  intro rest job' hjob'
  exact (hlisted job' hjob').perform rfl rest

/-- What a read has returned carries the name of the job. -/
def ReadsNamed (job : UUID) : Except JobException (Option JobState) → Prop
  | .ok (some state) => state.jobId = job
  | _ => True

theorem safe_getState_named {jobs : List UUID} (job : UUID) :
    Safe (expiringMachine store) (stalenessDiscipline cfg i) i (call (.getState job))
      (fun c => ∀ job ∈ jobs, ListedStale cfg i job c)
      fun result c => ReadsNamed job result ∧
        ∀ job ∈ jobs, ListedStale cfg i job c := by
  refine Safe.perform_post ?_ ?_
  · intro result
    exact (Stable.const _).and (stable_listedStale jobs)
  · rintro c result after ⟨hstored, hnamed⟩ hlisted hstep _
    refine ⟨?_, ?_⟩
    · intro _ recovered hrecovered
      cases hrecovered
    · intro rest _
      refine ⟨?_, fun job' hjob' => (hlisted job' hjob').perform rfl rest⟩
      obtain ⟨_, rfl | ⟨_, rfl⟩⟩ := performs_getState hstored hstep
      · cases hstate : c.state.redis.states.get job with
        | none => trivial
        | some state => exact hnamed job state hstate
      · trivial

/-- A snapshot that is read under a job carries the name of the job. -/
theorem safe_requireState_named {jobs : List UUID} (job : UUID) :
    Safe (expiringMachine store) (stalenessDiscipline cfg i) i (requireState job)
      (fun c => ∀ job ∈ jobs, ListedStale cfg i job c)
      fun outcome c => (∀ state, outcome = .ok state → state.jobId = job) ∧
        ∀ job ∈ jobs, ListedStale cfg i job c := by
  refine Safe.bind (B := fun found c => ReadsNamed job (.ok found) ∧
    ∀ job ∈ jobs, ListedStale cfg i job c) ?_ ?_
  · refine (safe_getState_named job).weaken ?_
    intro outcome c _ h
    cases outcome with
    | ok found => exact h
    | error error => exact ⟨fun _ hstate => (by cases hstate), h.2⟩
  · intro found
    cases found with
    | none => exact Safe.raise fun c _ h => ⟨fun _ hstate => (by cases hstate), h.2⟩
    | some state =>
        refine Safe.ret fun c _ h => ⟨?_, h.2⟩
        rintro _ ⟨⟩
        exact h.1

/-- After the scan its jobs are listed. -/
theorem safe_listStaleJobs :
    Safe (expiringMachine store) (stalenessDiscipline cfg i) i
      (call (.listStaleJobs cfg.cutoff)) (fun _ => True)
      (Outcome (fun jobs c => ∀ job ∈ jobs, ListedStale cfg i job c)
        fun _ _ => True) := by
  refine Safe.perform_post ?_ ?_
  · intro result
    cases result with
    | ok jobs => exact stable_listedStale jobs
    | error error => exact .const True
  · intro c result after _ _ hstep _
    refine ⟨?_, ?_⟩
    · intro _ recovered hrecovered
      cases result <;> cases hrecovered
    · intro rest _
      cases result with
      | ok jobs => exact fun job hjob => listedStale_of_scan hstep hjob rest
      | error error => trivial

/-- One round over a listed job. -/
theorem safe_reconcileStaleJob_staleness {jobs : List UUID} (hjob : job ∈ jobs) :
    Safe (expiringMachine store) (stalenessDiscipline cfg i) i
      (cfg.reconcileStaleJob job)
      (fun c => ∀ job ∈ jobs, ListedStale cfg i job c)
      fun _ c => ∀ job ∈ jobs, ListedStale cfg i job c := by
  have hbooks : Reconciliation.Bookkeeping (JobOp.RecoversOnly job) :=
    JobOp.neverRecovers_bookkeeping.mono fun _ h => h.recoversOnly job
  refine Safe.bind (B := fun found c => (∀ state, found = .ok state →
    state.jobId = job) ∧ ∀ job ∈ jobs, ListedStale cfg i job c) ?_ ?_
  · exact Safe.attempt (safe_requireState_named job)
  · intro found
    rcases found with error | state
    · cases error with
      | jobNotFound =>
          have hdiscard : (do
              let _ ← call (.discardMissingJobIndexes job) :
              Proc Unit).OnlyCalls (JobOp.RecoversOnly job) :=
            (onlyCalls_call (hbooks.missing job)).bind fun _ => trivial
          exact (safe_of_recoversOnly hdiscard hjob).strengthen fun c _ h => h.2
      | _ => exact Safe.raise fun c _ h => h.2
    · by_cases hname : state.jobId = job
      · have hstate : (cfg.reconcileStaleState job state).OnlyCalls
            (JobOp.RecoversOnly job) := by
          refine Reconciliation.onlyCalls_reconcileStaleState hbooks ?_ ?_
          · intro a _ hmove
            have hown : a.jobId = job → (JobOp.transition a).RecoversOnly job := by
              rintro rfl
              exact JobOp.recoversOnly_transition a
            rcases hmove with ha | ha | herror
            · exact hown ha
            · exact hown (ha.trans hname)
            · exact (JobOp.neverRecovers_transition herror).recoversOnly job
          · exact JobOp.recoversOnly_takeOverStale job state.runGeneration cfg.now
        exact (safe_of_recoversOnly hstate hjob).strengthen fun c _ h => h.2
      · exact Safe.of_false fun c _ h => hname (h.1 state rfl)

/-- The whole of `reconcile_once`: the barrier and the callbacks come first, then
one scan, then one round for each job of the scan. -/
theorem safe_reconcileOnce_staleness :
    Safe (expiringMachine store) (stalenessDiscipline cfg i) i cfg.reconcileOnce
      (fun _ => True) fun _ _ => True := by
  have hbooks := JobOp.neverRecovers_bookkeeping
  have hread : ∀ op : JobOp, op.readsOnly = true → (call op).OnlyCalls
      JobOp.NeverRecovers := fun op hop => onlyCalls_call (hbooks.reads op hop)
  refine (safe_of_neverRecovers (hread _ rfl)).andThen fun pending => ?_
  refine (safe_of_neverRecovers (onlyCalls_forEach fun marker _ => ?_)).andThen
    fun _ => ?_
  · obtain ⟨job, generation⟩ := marker
    refine Reconciliation.onlyCalls_finishPendingRecovery hbooks ?_ generation
    intro a _ herror
    exact JobOp.neverRecovers_transition herror
  · refine (safe_of_neverRecovers
      (Reconciliation.onlyCalls_syncPendingCallbacks hbooks.reads hbooks.synced
        hbooks.missing _)).andThen fun _ => ?_
    refine Safe.bind (B := fun jobs c => ∀ job ∈ jobs, ListedStale cfg i job c)
      (R := fun _ _ => True) ?_ fun jobs => ?_
    · refine safe_listStaleJobs.weaken fun outcome c _ h => ?_
      cases outcome with
      | ok jobs => exact h
      | error error => trivial
    · refine Safe.forEach (J := fun c => ∀ job ∈ jobs, ListedStale cfg i job c) ?_
        fun _ _ _ => trivial
      intro job hjob
      exact (safe_reconcileStaleJob_staleness hjob).onValue

/-- The rest of the system may do what it likes. -/
theorem safe_other {j : ι} (hj : j ≠ i) (p : Proc Unit) :
    Safe (expiringMachine store) (stalenessDiscipline cfg i) j p (fun _ => True)
      fun _ _ => True := by
  refine Safe.of_calls (OnlyCalls.all p) ?_
  intro c op result after _ _ _ _ hactor
  exact absurd hactor hj

theorem staleness_start {pool : ι → Proc Unit} (hpool : pool i = cfg.reconcileOnce)
    (j : ι) : SafeAt (expiringMachine store) (stalenessDiscipline cfg i)
      (start World.initial pool) j := by
  refine SafeAt.of_safe (.const True) trivial (Q := fun _ _ => True) ?_
  by_cases hj : j = i
  · subst hj
    show Safe _ _ j (pool j) _ _
    rw [hpool]
    exact safe_reconcileOnce_staleness
  · exact safe_other hj _

/-- The transition that a call has committed is the job's last activity. -/
theorem performs_moved {tick : JobRedis → Nat → JobRedis} {op : JobOp}
    {w w' : World} {res : Except JobException op.Value} (hr : w.redis.StatesStored)
    (h : (jobMachine store tick).Performs op w res w') {a : Transition}
    {next : JobState} (hmoved : op.moved res = some (a, next))
    (halive : next.terminal = false) :
    w'.redis.active.zscore a.jobId = some a.now := by
  cases op with
  | transition b =>
      rcases performs_cases h with ⟨reply, hexec⟩ | ⟨_, rfl, _⟩
      · rcases World.commit_cases (Option.some.inj hexec) with
          ⟨result, redis, hok, rfl, rfl⟩ | ⟨_, _, rfl, _⟩
        · obtain ⟨current, _, ⟨_, rfl, _⟩ | ⟨next', _, rfl, rfl⟩⟩ :=
            DurableJobStore.transition_cases hr hok
          · cases hmoved
          · obtain ⟨rfl, rfl⟩ := Prod.mk.inj (Option.some.inj hmoved)
            have hview := @DurableJobStore.view_commitTransition_self store b
              next' w.redis
            rw [halive] at hview
            exact congrArg JobView.active hview
        · cases hmoved
      · cases hmoved
  | _ => cases hmoved

end Reconciler

section Sample

/-- A reconciliation 200 seconds after the registration of the sample job. -/
def lateReconciliation : Reconciliation where
  synchronizer := false
  coordinator := false
  now := 200000000
  staleSeconds := 180
  maxAttempts := 3

/-- A worker that falls silent for a while and then sends a heartbeat, next to a
reconciler. -/
def lateHeartbeatPool : Nat → Proc Unit
  | 0 => do
      let _ ← call (.registerJob sampleRegistration)
      let _ ← call (.acquireLease 1 1 "token" 60)
      let _ ← call (.transition sampleRunning)
      let _ ← Client.heartbeat 1 1 199000000
  | _ => lateReconciliation.reconcileOnce

/-- The identifier of a diagnostic. -/
def identifying : JobAnswer := .proceed fun op =>
  match op with
  | .uuid4 => .ok 0
  | _ => .error .unexpected

/-- The worker starts, and the reconciler scans. -/
def scanMoves : List (Move (expiringMachine sampleStore) Nat) :=
  [.act 0 quiet, .act 0 quiet, .act 0 quiet, .act 1 quiet, .act 1 quiet]

/-- The reconciler looks at the job of its scan. -/
def recoveryMoves : List (Move (expiringMachine sampleStore) Nat) :=
  [.act 1 quiet, .act 1 quiet, .act 1 identifying, .act 1 quiet]

def recoversNothing (_ : Config jobSignature JobException World Nat)
    (e : Event jobSignature JobException World Nat) : Bool :=
  (e.op.recovered e.result).isNone

theorem noActivity_of_recoversNothing
    (c : Config jobSignature JobException World Nat)
    (e : Event jobSignature JobException World Nat)
    (h : recoversNothing c e = true) :
    NoActivitySinceListing lateReconciliation 1 c e := by
  intro _ job hrecovered
  have h : (e.op.recovered e.result).isNone = true := h
  rw [hrecovered] at h
  cases h

theorem silent_played :
    (play recoversNothing (scanMoves ++ recoveryMoves)
      (start World.initial lateHeartbeatPool)).isSome = true := by
  decide

/-- The worker is still silent when the reconciler is about to take its job over. -/
def silent : Config jobSignature JobException World Nat :=
  (play recoversNothing (scanMoves ++ recoveryMoves)
    (start World.initial lateHeartbeatPool)).get silent_played

theorem revived_played :
    (play (fun _ _ => true)
      (scanMoves ++ [.act 0 quiet, .act 0 quiet] ++ recoveryMoves)
      (start World.initial lateHeartbeatPool)).isSome = true := by
  decide

/-- The worker has sent its heartbeat after the scan. -/
def revived : Config jobSignature JobException World Nat :=
  (play (fun _ _ => true)
    (scanMoves ++ [.act 0 quiet, .act 0 quiet] ++ recoveryMoves)
    (start World.initial lateHeartbeatPool)).get revived_played

end Sample

end SearchTrust.Jobs
