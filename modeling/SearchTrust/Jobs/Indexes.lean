/-
The three indexes agree with the job states: the jobs to watch, the callbacks to
send and the recoveries to finish can be read off the indexes at any moment.
-/
import SearchTrust.Jobs.Durable

namespace SearchTrust.Jobs

open SearchTrust.Interleave SearchTrust.Redis

/-- The indexes say about a job what its state says. -/
structure JobView.IndexesAgree (v : JobView) (state : JobState) : Prop where
  active : v.active.isSome ↔ state.terminal = false
  syncPending : v.syncPending.isSome ↔
    state.callbackSyncedRevision < state.revision
  recoveryPending : ∀ generation ∈ v.recoveryPending,
    state.terminal = false ∧ generation = state.runGeneration

/-- A job without a state is in no index; the clause is what lets a
registration start from a clean slate. -/
structure JobView.Indexed (v : JobView) : Prop where
  present : ∀ state ∈ v.state, v.IndexesAgree state
  absent : v.state = none →
    v.active = none ∧ v.syncPending = none ∧ v.recoveryPending = none

theorem JobView.indexed_empty : JobView.empty.Indexed where
  present := by rintro state ⟨⟩
  absent := fun _ => ⟨rfl, rfl, rfl⟩

/-- A view with a state is indexed when its indexes agree with that state. -/
theorem JobView.IndexesAgree.indexed {v : JobView} {state : JobState}
    (hstate : v.state = some state) (h : v.IndexesAgree state) : v.Indexed where
  present := by
    intro s hs
    obtain rfl := Option.some.inj (hstate.symm.trans hs)
    exact h
  absent := by
    intro hnone
    rw [hstate] at hnone
    cases hnone

section Changes

variable {store : DurableJobStore} {job : UUID} {op : JobOp} {v v' : JobView}

theorem TransitionFits.preserves {a : Transition} {current next : JobState}
    (h : TransitionFits a current next) :
    next.revision = current.revision + 1 ∧
      next.callbackSyncedRevision = current.callbackSyncedRevision ∧
      next.runGeneration = current.runGeneration := by
  obtain ⟨rfl, _⟩ := JobState.modelValidate_eq_ok_iff.1 h.validated
  exact ⟨rfl, rfl, rfl⟩

theorem indexesAgree_registered {a : Registration} {state : JobState}
    (hstate : (store.initialState a).modelValidate = .ok state)
    (active : Instant) :
    JobView.IndexesAgree ⟨some state, some active, some state.revision, none⟩
      state := by
  obtain ⟨rfl, hvalid⟩ := JobState.modelValidate_eq_ok_iff.1 hstate
  have hrevision := hvalid.1.revision
  refine ⟨?_, ?_, ?_⟩
  · exact iff_of_true rfl rfl
  · exact iff_of_true rfl (show (0 : Int) < _ by omega)
  · rintro generation ⟨⟩

/-- A takeover and a manual retry both leave a job queued. -/
theorem indexesAgree_requeued {current : JobState} (next : JobState)
    {v : JobView}
    (hsynced : current.callbackSyncedRevision ≤ current.revision)
    (hqueued : next.status = .queued)
    (hrevision : next.revision = current.revision + 1)
    (hcallback : next.callbackSyncedRevision = current.callbackSyncedRevision)
    (hactive : v.active.isSome) (hpending : v.syncPending.isSome)
    (hrecovery : ∀ generation ∈ v.recoveryPending,
      generation = next.runGeneration) :
    v.IndexesAgree next := by
  have halive : next.terminal = false :=
    JobState.not_terminal_iff.2 (Or.inl hqueued)
  refine ⟨iff_of_true hactive halive, iff_of_true hpending (by omega), ?_⟩
  intro generation hgeneration
  exact ⟨halive, hrecovery generation hgeneration⟩

theorem indexesAgree_moved {a : Transition} {current next : JobState}
    {v : JobView} (hv : v.IndexesAgree current)
    (hsynced : current.callbackSyncedRevision ≤ current.revision)
    (hfits : TransitionFits a current next) :
    JobView.IndexesAgree
      ⟨some next, if next.terminal then none else some a.now,
        some next.revision,
        if next.terminal then none else v.recoveryPending⟩ next := by
  obtain ⟨hrevision, hcallback, hgeneration⟩ := hfits.preserves
  refine ⟨?_, iff_of_true rfl (by omega), ?_⟩
  · cases next.terminal <;> simp
  · intro generation hmem
    cases hterminal : next.terminal with
    | true => simp [hterminal] at hmem
    | false =>
        simp only [hterminal, Bool.false_eq_true, ↓reduceIte] at hmem
        have hcurrent := (hv.recoveryPending generation hmem).2
        exact ⟨rfl, hcurrent.trans hgeneration.symm⟩

theorem indexesAgree_synced {current : JobState} {v : JobView} (revision : Int)
    (hv : v.IndexesAgree current)
    (hsynced : current.callbackSyncedRevision ≤
      DurableJobStore.syncedRevision current revision) :
    JobView.IndexesAgree
      ⟨some (DurableJobStore.synced current revision), v.active,
        if current.revision ≤ DurableJobStore.syncedRevision current revision
        then none else v.syncPending,
        v.recoveryPending⟩
      (DurableJobStore.synced current revision) := by
  refine ⟨hv.active, ?_, hv.recoveryPending⟩
  by_cases hacked :
      current.revision ≤ DurableJobStore.syncedRevision current revision
  · simp only [hacked, ↓reduceIte, Option.isSome_none, Bool.false_eq_true,
      false_iff, not_lt]
    exact hacked
  · have hpending : v.syncPending.isSome := hv.syncPending.2 (by omega)
    simp only [hacked, ↓reduceIte, hpending, true_iff]
    exact not_le.1 hacked

/-- Every change keeps the indexes in agreement with the state. -/
theorem JobChange.indexed (h : JobChange store job op v v') (hstored : v.Stored)
    (hv : v.Indexed) : v'.Indexed := by
  cases h with
  | unchanged => exact hv
  | registered a state _ _ habsent hstate =>
      rw [(hv.absent habsent).2.2]
      exact (indexesAgree_registered hstate a.now).indexed rfl
  | moved a current next _ _ hcurrent hfits =>
      have hsynced := (hstored current hcurrent).1.2.2.2.1
      exact (indexesAgree_moved (hv.present current hcurrent) hsynced
        hfits).indexed rfl
  | takenOver now current next _ hcurrent _ _ hnext =>
      have hsynced := (hstored current hcurrent).1.2.2.2.1
      obtain ⟨rfl, _⟩ := JobState.modelValidate_eq_ok_iff.1 hnext
      refine (indexesAgree_requeued (DurableJobStore.takenOver current
        now).normalized hsynced rfl rfl rfl rfl rfl ?_).indexed rfl
      rintro generation ⟨⟩
      rfl
  | reopened now current next _ hcurrent hstatus _ hnext =>
      have hsynced := (hstored current hcurrent).1.2.2.2.1
      have hdead : current.terminal = true :=
        JobState.terminal_iff.2 (Or.inr hstatus)
      obtain ⟨rfl, _⟩ := JobState.modelValidate_eq_ok_iff.1 hnext
      refine (indexesAgree_requeued (DurableJobStore.reopened current
        now).normalized hsynced rfl rfl rfl rfl rfl ?_).indexed rfl
      -- The terminal job that is reopened had no recovery pending.
      intro generation hmem
      have halive := ((hv.present current hcurrent).recoveryPending
        generation hmem).1
      rw [hdead] at halive
      cases halive
  | synced revision current _ hcurrent =>
      have hle := (hstored current hcurrent).le_syncedRevision revision
      exact (indexesAgree_synced revision (hv.present current hcurrent)
        hle).indexed rfl
  | enqueued now current _ hcurrent _ =>
      have hold := hv.present current hcurrent
      have hagree : JobView.IndexesAgree
          ⟨v.state, if current.terminal then v.active else some now,
            v.syncPending, none⟩ current := by
        refine ⟨?_, hold.syncPending, by rintro generation ⟨⟩⟩
        cases hterminal : current.terminal with
        | true => simpa [hterminal] using hold.active
        | false => simp
      exact hagree.indexed hcurrent
  | discarded generation _ _ =>
      refine ⟨fun state hstate => ?_, fun hnone => ?_⟩
      · have hold := hv.present state hstate
        exact ⟨hold.active, hold.syncPending, by rintro generation ⟨⟩⟩
      · exact ⟨(hv.absent hnone).1, (hv.absent hnone).2.1, rfl⟩
  | purged _ _ => exact ⟨by rintro state ⟨⟩, fun _ => ⟨rfl, rfl, rfl⟩⟩

end Changes

section Runs

variable {store : DurableJobStore} {ι : Type} [DecidableEq ι]

theorem indexed_of_run {cond : CallCondition jobSignature JobException World ι}
    {c c' : Config jobSignature JobException World ι}
    (hrun : Run (durableMachine store) cond c c')
    (hstored : c.state.redis.StatesStored)
    (hindexed : ∀ job, (c.state.redis.view job).Indexed) (job : UUID) :
    (c'.state.redis.view job).Indexed :=
  (durable_invariant (P := fun _ v => v.Indexed) hrun hstored hindexed
    fun hv hP hchange => hchange.indexed hv hP).2 job

/-- In every reachable store, whatever processes run and however their blocks
interleave, a job that has a state is in each index exactly when its state says
so. -/
theorem indexes_agree_with_states (pool : ι → Proc Unit)
    {c : Config jobSignature JobException World ι}
    (hrun : Run (durableMachine store) Anything (start World.initial pool) c)
    {job : UUID} {state : JobState}
    (hstate : c.state.redis.states.get job = some state) :
    (c.state.redis.view job).IndexesAgree state :=
  (indexed_of_run hrun statesStored_initial
    (fun _ => JobView.indexed_empty) job).present state hstate

/-- One process registers a job and another one takes it over at once. -/
def takeoverPool : Bool → Proc Unit
  | false => do let _ ← call (.registerJob sampleRegistration)
  | true => do let _ ← call (.takeOverStale 1 1 10)

theorem indexes_agree_after_takeover :
    ∃ (c : Config jobSignature JobException World Bool) (state : JobState),
      Run (durableMachine sampleStore) Anything
        (start World.initial takeoverPool) c ∧
      c.state.redis.states.get 1 = some state ∧ state.runGeneration = 2 ∧
      (c.state.redis.view 1).IndexesAgree state := by
  have hplay : (play (M := durableMachine sampleStore) (fun _ _ => true)
      [.act false quiet, .act true quiet] (start World.initial takeoverPool)).any
      (fun c => (c.state.redis.states.get 1).any (·.runGeneration = 2)) = true := by
    decide
  obtain ⟨c, hrun, htest⟩ := exists_run_of_play (fun _ _ _ => trivial) hplay
  obtain ⟨state, hstate, hgeneration⟩ := Option.any_eq_true _ _ |>.1 htest
  exact ⟨c, state, hrun, hstate, of_decide_eq_true hgeneration,
    indexes_agree_with_states takeoverPool hrun hstate⟩

end Runs

end SearchTrust.Jobs
