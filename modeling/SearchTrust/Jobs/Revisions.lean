/-
The revision of a job names one snapshot.  Every committed change takes the next
revision, so a consumer may drop an event that it has already seen.
-/
import SearchTrust.Jobs.Callbacks
import SearchTrust.Jobs.Durable

namespace SearchTrust.Jobs

open SearchTrust.Interleave SearchTrust.Redis

namespace JobOp

/-- The job that an operation gives a new snapshot. -/
def revised : JobOp → Option UUID
  | transition a => some a.jobId
  | takeOverStale job _ _ => some job
  | retryFailed job _ => some job
  | _ => none

def Revises (job : UUID) (op : JobOp) : Prop := op.revised = some job

/-- The snapshot that such an operation reports to have committed. -/
def committed : (op : JobOp) → Except JobException op.Value → Option JobState
  | transition _, .ok res => if res.applied then some res.state else none
  | takeOverStale _ _ _, .ok res => if res.applied then some res.state else none
  | retryFailed _ _, .ok state => some state
  | _, _ => none

end JobOp

/-- What one call does to the snapshot of a job: it commits the next revision,
it records an acknowledgement, or it leaves the snapshot alone. -/
structure SnapshotStep (job : UUID) (op : JobOp)
    (result : Except JobException op.Value) (s t : JobState) : Prop where
  valid : t.Valid
  later : s.Later t
  committed : ∀ next, op.Revises job → op.committed result = some next →
    t = next ∧ t.revision = s.revision + 1
  uncommitted : op.Revises job → op.committed result = none → t = s
  marked : ∀ revision, op = .markCallbackSynced job revision →
    t = { s with callbackSyncedRevision := t.callbackSyncedRevision }
  otherwise : ¬ op.Revises job →
    (∀ revision, op ≠ .markCallbackSynced job revision) → t = s
  terminal : s.terminal = true →
    t = { s with callbackSyncedRevision := t.callbackSyncedRevision } ∨
      ∃ now, op = .retryFailed job now ∧ s.status = .failed ∧
        s.error.any JobErrorState.retryable = true

section Calls

variable {store : DurableJobStore} {tick : JobRedis → Nat → JobRedis}
  {op : JobOp} {w w' : World} {res : Except JobException op.Value} {job : UUID}

/-- A call that reports a new snapshot has stored it, one revision further. -/
theorem performs_committed (hr : w.redis.StatesStored)
    (h : (jobMachine store tick).Performs op w res w') (hop : op.Revises job)
    {next : JobState} (hnext : op.committed res = some next) :
    ∃ s, w.redis.states.get job = some s ∧
      w'.redis.states.get job = some next ∧ next.revision = s.revision + 1 := by
  rcases performs_cases h with ⟨reply, hexec⟩ | ⟨reason, rfl, _⟩
  · cases op with
    | transition a =>
        obtain rfl : a.jobId = job := Option.some.inj hop
        rcases World.commit_cases (Option.some.inj hexec) with
          ⟨value, redis, hok, rfl, rfl⟩ | ⟨_, _, rfl, _⟩
        · obtain ⟨s, hs, ⟨_, rfl, _⟩ | ⟨t, hfits, rfl, rfl⟩⟩ :=
            DurableJobStore.transition_cases hr hok
          · cases hnext
          · obtain rfl := Option.some.inj hnext
            obtain ⟨rfl, _⟩ := JobState.modelValidate_eq_ok_iff.1 hfits.validated
            exact ⟨s, hs, Table.get_set_self _ _ _ _, rfl⟩
        · cases hnext
    | takeOverStale j generation now =>
        obtain rfl : j = job := Option.some.inj hop
        rcases World.commit_cases (Option.some.inj hexec) with
          ⟨value, redis, hok, rfl, rfl⟩ | ⟨_, _, rfl, _⟩
        · obtain ⟨s, hs, ⟨rfl, _⟩ | ⟨t, _, _, _, ht, rfl, rfl⟩⟩ :=
            DurableJobStore.takeOverStale_cases hr hok
          · cases hnext
          · obtain rfl := Option.some.inj hnext
            obtain ⟨rfl, _⟩ := JobState.modelValidate_eq_ok_iff.1 ht
            exact ⟨s, hs, Table.get_set_self _ _ _ _, rfl⟩
        · cases hnext
    | retryFailed j now =>
        obtain rfl : j = job := Option.some.inj hop
        rcases World.commit_cases (Option.some.inj hexec) with
          ⟨value, redis, hok, rfl, rfl⟩ | ⟨_, _, rfl, _⟩
        · obtain ⟨s, hs, _, _, ht, rfl⟩ := DurableJobStore.retryFailed_cases hr hok
          obtain rfl := Option.some.inj hnext
          obtain ⟨rfl, _⟩ := JobState.modelValidate_eq_ok_iff.1 ht
          exact ⟨s, hs, Table.get_set_self _ _ _ _, rfl⟩
        · cases hnext
    | _ => cases hop
  · cases op <;> cases hnext

/-- A transition that reports to be applied was legal and is stored. -/
theorem performs_applied {a : Transition} {res : TransitionResult}
    (hr : w.redis.StatesStored)
    (h : (jobMachine store tick).Performs (.transition a) w (.ok res) w')
    (happlied : res.applied = true) :
    ∃ s, w.redis.states.get a.jobId = some s ∧ TransitionFits a s res.state ∧
      w'.redis.states.get a.jobId = some res.state := by
  rcases performs_cases h with ⟨reply, hexec⟩ | ⟨reason, hres, _⟩
  · rcases World.commit_cases (Option.some.inj hexec) with
      ⟨value, redis, hok, hvalue, rfl⟩ | ⟨_, _, hres, _⟩
    · obtain rfl := Except.ok.inj hvalue
      obtain ⟨s, hs, ⟨_, rfl, _⟩ | ⟨t, hfits, rfl, rfl⟩⟩ :=
        DurableJobStore.transition_cases hr hok
      · cases happlied
      · exact ⟨s, hs, hfits, Table.get_set_self _ _ _ _⟩
    · cases hres
  · cases hres

/-- A revising call that reports no new snapshot has not touched the server. -/
theorem performs_uncommitted (hr : w.redis.StatesStored)
    (h : (jobMachine store tick).Performs op w res w') (hop : op.Revises job)
    (hnone : op.committed res = none) : w'.redis = w.redis := by
  rcases performs_cases h with ⟨reply, hexec⟩ | ⟨reason, _, rfl⟩
  · cases op with
    | transition a =>
        rcases World.commit_cases (Option.some.inj hexec) with
          ⟨value, redis, hok, rfl, rfl⟩ | ⟨_, _, _, rfl⟩
        · obtain ⟨s, hs, ⟨_, _, rfl⟩ | ⟨t, _, rfl, _⟩⟩ :=
            DurableJobStore.transition_cases hr hok
          · rfl
          · cases hnone
        · rfl
    | takeOverStale j generation now =>
        rcases World.commit_cases (Option.some.inj hexec) with
          ⟨value, redis, hok, rfl, rfl⟩ | ⟨_, _, _, rfl⟩
        · obtain ⟨s, hs, ⟨_, rfl⟩ | ⟨t, _, _, _, _, rfl, _⟩⟩ :=
            DurableJobStore.takeOverStale_cases hr hok
          · rfl
          · cases hnone
        · rfl
    | retryFailed j now =>
        rcases World.commit_cases (Option.some.inj hexec) with
          ⟨value, redis, hok, rfl, rfl⟩ | ⟨_, _, _, rfl⟩
        · cases hnone
        · rfl
    | _ => cases hop
  · rfl

/-- The other calls keep a snapshot, up to the acknowledged revision. -/
theorem JobChange.state_of_not_revises {v v' : JobView}
    (h : JobChange store job op v v') (hop : ¬ op.Revises job) {s : JobState}
    (hs : v.state = some s) :
    v'.state = some s ∨ ∃ revision, op = .markCallbackSynced job revision ∧
      v'.state = some (DurableJobStore.synced s revision) := by
  cases h with
  | unchanged => exact Or.inl hs
  | registered _ _ _ _ habsent => simp [habsent] at hs
  | moved _ _ _ hop' hjob => exact absurd (hop' ▸ congrArg some hjob) hop
  | takenOver _ _ _ hop' => exact absurd (hop' ▸ rfl) hop
  | reopened _ _ _ hop' => exact absurd (hop' ▸ rfl) hop
  | synced revision current hop' hcurrent =>
      obtain rfl := Option.some.inj (hcurrent.symm.trans hs)
      exact Or.inr ⟨revision, hop', rfl⟩
  | enqueued => exact Or.inl hs
  | discarded => exact Or.inl hs
  | purged _ habsent => simp [habsent] at hs

/-- A terminal snapshot is final until a manual retry reopens it. -/
theorem JobChange.of_terminal {v v' : JobView}
    (h : JobChange store job op v v') {s : JobState} (hs : v.state = some s)
    (hterminal : s.terminal = true) :
    (∃ t, v'.state = some t ∧
      t = { s with callbackSyncedRevision := t.callbackSyncedRevision }) ∨
    ∃ now, op = .retryFailed job now ∧ s.status = .failed ∧
      s.error.any JobErrorState.retryable = true := by
  cases h with
  | unchanged => exact Or.inl ⟨s, hs, rfl⟩
  | registered _ _ _ _ habsent => simp [habsent] at hs
  | moved _ current _ _ _ hcurrent hfits =>
      obtain rfl := Option.some.inj (hcurrent.symm.trans hs)
      simp [hfits.alive] at hterminal
  | takenOver _ current _ _ hcurrent halive =>
      obtain rfl := Option.some.inj (hcurrent.symm.trans hs)
      simp [halive] at hterminal
  | reopened now current _ hop hcurrent hstatus hretryable =>
      obtain rfl := Option.some.inj (hcurrent.symm.trans hs)
      exact Or.inr ⟨now, hop, hstatus, hretryable⟩
  | synced revision current _ hcurrent =>
      obtain rfl := Option.some.inj (hcurrent.symm.trans hs)
      exact Or.inl ⟨_, rfl, rfl⟩
  | enqueued => exact Or.inl ⟨s, hs, rfl⟩
  | discarded => exact Or.inl ⟨s, hs, rfl⟩
  | purged _ habsent => simp [habsent] at hs

/-- Every call of every process makes one of the listed snapshot steps. -/
theorem performs_snapshotStep (hr : w.redis.StatesStored)
    (h : (jobMachine store tick).Performs op w res w') {s : JobState}
    (hs : w.redis.states.get job = some s) :
    ∃ t, w'.redis.states.get job = some t ∧ SnapshotStep job op res s t := by
  have hchange := performs_change hr h job
  obtain ⟨t, ht, hlater⟩ := hchange.later (hr.view job) s hs
  have hstored : t.Stored := hchange.stored (hr.view job) t ht
  refine ⟨t, ht, hstored.1, hlater, ?_, ?_, ?_, ?_, ?_⟩
  · intro next hop hnext
    obtain ⟨s', hs', ht', hrevision⟩ := performs_committed hr h hop hnext
    obtain rfl := Option.some.inj (hs.symm.trans hs')
    obtain rfl := Option.some.inj (ht.symm.trans ht')
    exact ⟨rfl, hrevision⟩
  · intro hop hnone
    have hsame := performs_uncommitted hr h hop hnone
    have ht' : w'.redis.states.get job = some t := ht
    rw [hsame, hs] at ht'
    exact (Option.some.inj ht').symm
  · rintro revision rfl
    rcases hchange.state_of_not_revises (fun hop => nomatch hop) hs with
      ht' | ⟨revision, _, ht'⟩
    · obtain rfl := Option.some.inj (ht.symm.trans ht')
      rfl
    · obtain rfl := Option.some.inj (ht.symm.trans ht')
      rfl
  · intro hop hmark
    rcases hchange.state_of_not_revises hop hs with ht' | ⟨revision, hop', _⟩
    · exact Option.some.inj (ht.symm.trans ht')
    · exact absurd hop' (hmark revision)
  · intro hterminal
    rcases hchange.of_terminal hs hterminal with ⟨t', ht', heq⟩ | hretry
    · obtain rfl := Option.some.inj (ht.symm.trans ht')
      exact Or.inl heq
    · exact Or.inr hretry

end Calls

/-- Events with one identifier, built from two snapshots of a job, are equal. -/
theorem JobState.Later.callbackEvent_eq {s t : JobState} (h : s.Later t)
    {event event' : JobCallbackEvent} (hs : buildCallbackEvent s = .ok event)
    (ht : buildCallbackEvent t = .ok event')
    (hid : event.eventId = event'.eventId) : event' = event := by
  rw [buildCallbackEvent_eventId hs, buildCallbackEvent_eventId ht,
    h.identity.jobId] at hid
  have hsame := h.sameRevision (eventId_injective _ hid)
  rw [hsame, buildCallbackEvent_synced, hs] at ht
  exact (Except.ok.inj ht).symm

section Runs

variable {store : DurableJobStore} {ι : Type} [DecidableEq ι]

/-- One process registers a job, acknowledges its first revision, and another
one starts it. -/
def acknowledgedPool : Bool → Proc Unit
  | false => do
      let _ ← call (.registerJob sampleRegistration)
      let _ ← call (.markCallbackSynced 1 1)
  | true => do
      let _ ← call (.transition sampleRunning)

/-- A terminal snapshot stays, but for the mark of its acknowledged revision, until the job
is retried by hand, which only a failure marked as retryable allows. -/
theorem outcomes_final_until_retried (pool : ι → Proc Unit)
    {c c' : Config jobSignature JobException World ι}
    (hrun : Run (durableMachine store) Anything (start World.initial pool) c)
    (hmore : Run (durableMachine store) Anything c c')
    {job : UUID} {s : JobState} (hs : c.state.redis.states.get job = some s)
    (hterminal : s.terminal = true) :
    ∃ later, c'.history = later ++ c.history ∧
      ((∃ t, c'.state.redis.states.get job = some t ∧
          t = { s with callbackSyncedRevision := t.callbackSyncedRevision }) ∨
        s.status = .failed ∧ s.error.any JobErrorState.retryable = true ∧
          ∃ e ∈ later, ∃ now, e.op = .retryFailed job now) := by
  -- by induction on the second run: what one call may do to a terminal snapshot is known
  induction hmore with
  | refl => exact ⟨[], rfl, Or.inl ⟨s, hs, rfl⟩⟩
  | tail hprev hstep ih =>
      obtain ⟨later, hhistory, hlater⟩ := ih
      have hstored := statesStored_of_run (hrun.trans hprev) statesStored_initial
      cases hstep with
      | @act e rest hen =>
          refine ⟨e :: later, by rw [Config.perform_history, hhistory]; rfl, ?_⟩
          rcases hlater with ⟨t, ht, hkept⟩ | ⟨hfailed, hretryable, old, hold, hretried⟩
          · have hdone : t.terminal = true := by
              rw [hkept]
              exact hterminal
            rcases (performs_change hstored hen.performs job).of_terminal ht hdone with
              ⟨u, hu, hsame⟩ | ⟨now, hop, hfailed, hretryable⟩
            · exact Or.inl ⟨u, hu, by rw [hsame, hkept]⟩
            · rw [hkept] at hfailed hretryable
              exact Or.inr ⟨hfailed, hretryable, e, List.mem_cons_self, now, hop⟩
          · exact Or.inr ⟨hfailed, hretryable, old, List.mem_cons_of_mem e hold, hretried⟩
      | drift hdrift =>
          have hview := congrArg JobView.state (view_drifts hdrift job)
          refine ⟨later, hhistory, hlater.imp_left ?_⟩
          rintro ⟨t, ht, hkept⟩
          exact ⟨t, hview.trans ht, hkept⟩
      | crash => exact ⟨later, hhistory, hlater⟩

def sampleFailure : Transition :=
  { sampleRunning with
    status := .failed
    stage := .failed
    error := some ⟨"JOB_FAILED", "The job could not be completed.", false, .queued, 9⟩ }

/-- The sample job fails for good while another process waits to retry it. -/
def failedPool : Bool → Proc Unit
  | false => do
      let _ ← call (.registerJob sampleRegistration)
      let _ ← call (.transition sampleFailure)
  | true => do
      let _ ← call (.retryFailed 1 30)

theorem outcomes_final_until_retried_failed :
    ∃ (c c' : Config jobSignature JobException World Bool) (s t : JobState),
      c.state.redis.states.get 1 = some s ∧ s.status = .failed ∧
      c'.history.length = 3 ∧ c'.state.redis.states.get 1 = some t ∧
      t = { s with callbackSyncedRevision := t.callbackSyncedRevision } := by
  have hplay : (play (M := durableMachine sampleStore) (fun _ _ => true)
      [.act false quiet, .act false quiet] (start World.initial failedPool)).any
      (fun c => (c.state.redis.states.get 1).any (fun s => s.status = .failed &&
        s.error.any JobErrorState.retryable = false) &&
        (play (M := durableMachine sampleStore) (fun _ _ => true) [.act true quiet] c).any
          (fun c' => c'.history.length = 3)) = true := by
    decide
  obtain ⟨c, hrun, htest⟩ := exists_run_of_play (fun _ _ _ => trivial) hplay
  rw [Bool.and_eq_true] at htest
  obtain ⟨s, hs, hfailed⟩ := Option.any_eq_true _ _ |>.1 htest.1
  rw [Bool.and_eq_true, decide_eq_true_eq, decide_eq_true_eq] at hfailed
  obtain ⟨c', hmore, htest'⟩ := exists_run_of_play (fun _ _ _ => trivial) htest.2
  obtain ⟨_, _, ⟨t, ht, hkept⟩ | ⟨_, hretryable, _⟩⟩ :=
    outcomes_final_until_retried failedPool hrun hmore hs (by simp [JobState.terminal, hfailed.1])
  · exact ⟨c, c', s, t, hs, hfailed.1, of_decide_eq_true htest', ht, hkept⟩
  · rw [hfailed.2] at hretryable
    cases hretryable

end Runs

end SearchTrust.Jobs
