/-
Every write to the server, read as a change of what the store knows about each
job.
-/
import SearchTrust.Jobs.Writes

namespace SearchTrust.Jobs

open SearchTrust.Interleave SearchTrust.Redis

/-- What the store knows about one job. -/
structure JobView where
  state : Option JobState
  active : Option Instant
  syncPending : Option Int
  recoveryPending : Option Int

def JobRedis.view (r : JobRedis) (job : UUID) : JobView where
  state := r.states.get job
  active := r.active.zscore job
  syncPending := r.syncPending.zscore job
  recoveryPending := r.recoveryPending.zscore job

/-- What one call can do to what the store knows about a job. -/
inductive JobChange (store : DurableJobStore) (job : UUID) (op : JobOp)
    (before : JobView) : JobView → Prop
  | unchanged : JobChange store job op before before
  | registered (a : Registration) (state : JobState)
      (hop : op = .registerJob a) (hjob : a.jobId = job)
      (habsent : before.state = none)
      (hstate : (store.initialState a).modelValidate = .ok state) :
      JobChange store job op before
        ⟨some state, some a.now, some state.revision, before.recoveryPending⟩
  | moved (a : Transition) (current next : JobState)
      (hop : op = .transition a) (hjob : a.jobId = job)
      (hcurrent : before.state = some current)
      (hfits : TransitionFits a current next) :
      JobChange store job op before
        ⟨some next, if next.terminal then none else some a.now,
          some next.revision,
          if next.terminal then none else before.recoveryPending⟩
  | takenOver (now : Instant) (current next : JobState)
      (hop : op = .takeOverStale job current.runGeneration now)
      (hcurrent : before.state = some current)
      (halive : current.terminal = false)
      (hmarker : before.recoveryPending = none)
      (hnext : (DurableJobStore.takenOver current now).modelValidate = .ok next) :
      JobChange store job op before
        ⟨some next, some now, some next.revision, some next.runGeneration⟩
  | reopened (now : Instant) (current next : JobState)
      (hop : op = .retryFailed job now)
      (hcurrent : before.state = some current)
      (hstatus : current.status = .failed)
      (hretryable : current.error.any JobErrorState.retryable = true)
      (hnext : (DurableJobStore.reopened current now).modelValidate = .ok next) :
      JobChange store job op before
        ⟨some next, some now, some next.revision, before.recoveryPending⟩
  | synced (revision : Int) (current : JobState)
      (hop : op = .markCallbackSynced job revision)
      (hcurrent : before.state = some current) :
      JobChange store job op before
        ⟨some (DurableJobStore.synced current revision), before.active,
          if current.revision ≤ DurableJobStore.syncedRevision current revision
          then none else before.syncPending,
          before.recoveryPending⟩
  | enqueued (now : Instant) (current : JobState)
      (hop : op = .markRecoveryEnqueued job current.runGeneration now)
      (hcurrent : before.state = some current)
      (hmarker : before.recoveryPending = some current.runGeneration) :
      JobChange store job op before
        ⟨before.state, if current.terminal then before.active else some now,
          before.syncPending, none⟩
  | discarded (generation : Int)
      (hop : op = .discardPendingRecovery job generation)
      (hmarker : before.recoveryPending = some generation) :
      JobChange store job op before { before with recoveryPending := none }
  | purged
      (hop : op = .discardMissingJobIndexes job ∨
        ∃ generation, op = .discardMissingJobRecovery job generation)
      (habsent : before.state = none) :
      JobChange store job op before ⟨none, none, none, none⟩

namespace DurableJobStore

variable {store : DurableJobStore} {r r' : JobRedis} {job : UUID}

section Views

theorem view_commitRegistration_self (a : Registration) (state : JobState)
    (r : JobRedis) :
    (store.commitRegistration a state r).view a.jobId =
      ⟨some state, some a.now, some state.revision,
        (r.view a.jobId).recoveryPending⟩ := by
  simp [JobRedis.view, commitRegistration]

theorem view_commitRegistration_of_ne {a : Registration} (h : job ≠ a.jobId)
    (state : JobState) (r : JobRedis) :
    (store.commitRegistration a state r).view job = r.view job := by
  simp [JobRedis.view, commitRegistration, Table.get_set_of_ne _ h,
    SortedSet.zscore_zadd_of_ne _ h]

theorem view_commitTransition_self (a : Transition) (next : JobState)
    (r : JobRedis) :
    (store.commitTransition a next r).view a.jobId =
      ⟨some next, if next.terminal then none else some a.now,
        some next.revision,
        if next.terminal then none else (r.view a.jobId).recoveryPending⟩ := by
  by_cases h : next.terminal <;> simp [JobRedis.view, commitTransition, h]

theorem view_commitTransition_of_ne {a : Transition} (h : job ≠ a.jobId)
    (next : JobState) (r : JobRedis) :
    (store.commitTransition a next r).view job = r.view job := by
  by_cases ht : next.terminal <;>
    simp [JobRedis.view, commitTransition, ht, Table.get_set_of_ne _ h,
      SortedSet.zscore_zadd_of_ne _ h, SortedSet.zscore_zrem_of_ne _ h]

theorem view_commitTakeover_self (job : UUID) (now : Instant) (next : JobState)
    (r : JobRedis) :
    (store.commitTakeover job now next r).view job =
      ⟨some next, some now, some next.revision, some next.runGeneration⟩ := by
  simp [JobRedis.view, commitTakeover]

theorem view_commitTakeover_of_ne {j : UUID} (h : job ≠ j) (now : Instant)
    (next : JobState) (r : JobRedis) :
    (store.commitTakeover j now next r).view job = r.view job := by
  simp [JobRedis.view, commitTakeover, Table.get_set_of_ne _ h,
    SortedSet.zscore_zadd_of_ne _ h]

theorem view_commitRetry_self (job : UUID) (now : Instant) (next : JobState)
    (r : JobRedis) :
    (store.commitRetry job now next r).view job =
      ⟨some next, some now, some next.revision,
        (r.view job).recoveryPending⟩ := by
  simp [JobRedis.view, commitRetry]

theorem view_commitRetry_of_ne {j : UUID} (h : job ≠ j) (now : Instant)
    (next : JobState) (r : JobRedis) :
    (store.commitRetry j now next r).view job = r.view job := by
  simp [JobRedis.view, commitRetry, Table.get_set_of_ne _ h,
    SortedSet.zscore_zadd_of_ne _ h]

theorem view_commitSynced_self (job : UUID) (next : JobState) (r : JobRedis) :
    (store.commitSynced job next r).view job =
      ⟨some next, (r.view job).active,
        if next.revision ≤ next.callbackSyncedRevision then none
        else (r.view job).syncPending,
        (r.view job).recoveryPending⟩ := by
  by_cases h : next.revision ≤ next.callbackSyncedRevision <;>
    simp [JobRedis.view, commitSynced, h]

theorem view_commitSynced_of_ne {j : UUID} (h : job ≠ j) (next : JobState)
    (r : JobRedis) : (store.commitSynced j next r).view job = r.view job := by
  by_cases hs : next.revision ≤ next.callbackSyncedRevision <;>
    simp [JobRedis.view, commitSynced, hs, Table.get_set_of_ne _ h,
      SortedSet.zscore_zrem_of_ne _ h]

theorem view_closeRecovery_self (job : UUID) (current : JobState)
    (now : Instant) (r : JobRedis) :
    (r.closeRecovery job current now).view job =
      ⟨(r.view job).state,
        if current.terminal then (r.view job).active else some now,
        (r.view job).syncPending, none⟩ := by
  by_cases h : current.terminal <;>
    simp [JobRedis.view, JobRedis.closeRecovery, h]

theorem view_closeRecovery_of_ne {j : UUID} (h : job ≠ j) (current : JobState)
    (now : Instant) (r : JobRedis) :
    (r.closeRecovery j current now).view job = r.view job := by
  by_cases ht : current.terminal <;>
    simp [JobRedis.view, JobRedis.closeRecovery, ht,
      SortedSet.zscore_zadd_of_ne _ h, SortedSet.zscore_zrem_of_ne _ h]

theorem view_dropRecovery_self (job : UUID) (r : JobRedis) :
    (r.dropRecovery job).view job =
      { r.view job with recoveryPending := none } := by
  simp [JobRedis.view, JobRedis.dropRecovery]

theorem view_dropRecovery_of_ne {j : UUID} (h : job ≠ j) (r : JobRedis) :
    (r.dropRecovery j).view job = r.view job := by
  simp [JobRedis.view, JobRedis.dropRecovery, SortedSet.zscore_zrem_of_ne _ h]

theorem view_dropJob_self (job : UUID) (r : JobRedis) :
    (r.dropJob job).view job = ⟨(r.view job).state, none, none, none⟩ := by
  simp [JobRedis.view, JobRedis.dropJob]

theorem view_dropJob_of_ne {j : UUID} (h : job ≠ j) (r : JobRedis) :
    (r.dropJob j).view job = r.view job := by
  simp [JobRedis.view, JobRedis.dropJob, SortedSet.zscore_zrem_of_ne _ h]

end Views

/-- Writing a lease or a checkpoint shows in no view. -/
theorem view_eq_of_sameIndexes (hstates : r'.states = r.states)
    (hactive : r'.active = r.active) (hsync : r'.syncPending = r.syncPending)
    (hrecovery : r'.recoveryPending = r.recoveryPending) (job : UUID) :
    r'.view job = r.view job := by
  simp only [JobRedis.view, hstates, hactive, hsync, hrecovery]

end DurableJobStore

section Calls

variable {store : DurableJobStore} {tick : JobRedis → Nat → JobRedis}
  {op : JobOp} {w w' : World} {res : Except JobException op.Value}

open DurableJobStore

/-- A write changes each job in one of the listed ways. -/
theorem Write.change {r r' : JobRedis} (h : Write store r op r') (job : UUID) :
    JobChange store job op (r.view job) (r'.view job) := by
  cases h with
  | registered a initial hinitial _ habsent =>
      by_cases hjob : job = a.jobId
      · subst hjob
        rw [view_commitRegistration_self]
        exact .registered a initial rfl rfl habsent hinitial
      · rw [view_commitRegistration_of_ne hjob]
        exact .unchanged
  | moved a current next hcurrent hfits =>
      by_cases hjob : job = a.jobId
      · subst hjob
        rw [view_commitTransition_self]
        exact .moved a current next rfl rfl hcurrent hfits
      · rw [view_commitTransition_of_ne hjob]
        exact .unchanged
  | takenOver j now current next hcurrent halive hmarker hnext =>
      by_cases hjob : job = j
      · subst hjob
        rw [view_commitTakeover_self]
        exact .takenOver now current next rfl hcurrent halive hmarker hnext
      · rw [view_commitTakeover_of_ne hjob]
        exact .unchanged
  | reopened j now current next hcurrent hstatus hretryable hnext =>
      by_cases hjob : job = j
      · subst hjob
        rw [view_commitRetry_self]
        exact .reopened now current next rfl hcurrent hstatus hretryable hnext
      · rw [view_commitRetry_of_ne hjob]
        exact .unchanged
  | synced j revision current hcurrent =>
      by_cases hjob : job = j
      · subst hjob
        rw [view_commitSynced_self]
        exact .synced revision current rfl hcurrent
      · rw [view_commitSynced_of_ne hjob]
        exact .unchanged
  | recoveryClosed j now current hcurrent hmarker =>
      by_cases hjob : job = j
      · subst hjob
        rw [view_closeRecovery_self]
        exact .enqueued now current rfl hcurrent hmarker
      · rw [view_closeRecovery_of_ne hjob]
        exact .unchanged
  | recoveryDropped j generation hmarker =>
      by_cases hjob : job = j
      · subst hjob
        rw [view_dropRecovery_self]
        exact .discarded generation rfl hmarker
      · rw [view_dropRecovery_of_ne hjob]
        exact .unchanged
  | jobDropped _ j hop habsent =>
      by_cases hjob : job = j
      · subst hjob
        have hget : (r.view job).state = none := habsent
        rw [view_dropJob_self, hget]
        exact .purged hop hget
      · rw [view_dropJob_of_ne hjob]
        exact .unchanged
  | leaseTaken | leaseRenewed | leaseReleased | checkpointSaved =>
      rw [view_eq_of_sameIndexes rfl rfl rfl rfl]
      exact .unchanged

/-- Whatever a process calls, it changes each job in one of the listed ways. -/
theorem performs_change (hr : w.redis.StatesStored)
    (h : (jobMachine store tick).Performs op w res w') (job : UUID) :
    JobChange store job op (w.redis.view job) (w'.redis.view job) := by
  rcases performs_write hr h with hsame | hwrite
  · rw [hsame]
    exact .unchanged
  · exact hwrite.change job

end Calls

end SearchTrust.Jobs
