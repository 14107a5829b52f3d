/-
Every call of every process, read as one write to the server.  The invariants of
the store are derived from this one list of writes.
-/
import SearchTrust.Jobs.System

namespace SearchTrust.Jobs

open SearchTrust.Interleave SearchTrust.Redis

/-- The writes that a call can make, with what was checked before. -/
inductive Write (store : DurableJobStore) (r : JobRedis) : JobOp → JobRedis → Prop
  | registered (a : Registration) (initial : JobState)
      (hinitial : (store.initialState a).modelValidate = .ok initial)
      (hkey : r.idempotency.get (a.caseId, store.sha256 a.idempotencyKey) = none)
      (habsent : r.states.get a.jobId = none) :
      Write store r (.registerJob a) (store.commitRegistration a initial r)
  | moved (a : Transition) (current next : JobState)
      (hcurrent : r.states.get a.jobId = some current)
      (hfits : TransitionFits a current next) :
      Write store r (.transition a) (store.commitTransition a next r)
  | takenOver (job : UUID) (now : Instant) (current next : JobState)
      (hcurrent : r.states.get job = some current)
      (halive : current.terminal = false)
      (hmarker : r.recoveryPending.zscore job = none)
      (hnext : (DurableJobStore.takenOver current now).modelValidate = .ok next) :
      Write store r (.takeOverStale job current.runGeneration now)
        (store.commitTakeover job now next r)
  | reopened (job : UUID) (now : Instant) (current next : JobState)
      (hcurrent : r.states.get job = some current)
      (hstatus : current.status = .failed)
      (hretryable : current.error.any JobErrorState.retryable = true)
      (hnext : (DurableJobStore.reopened current now).modelValidate = .ok next) :
      Write store r (.retryFailed job now) (store.commitRetry job now next r)
  | synced (job : UUID) (revision : Int) (current : JobState)
      (hcurrent : r.states.get job = some current) :
      Write store r (.markCallbackSynced job revision)
        (store.commitSynced job (DurableJobStore.synced current revision) r)
  | leaseTaken (job : UUID) (generation : Int) (token : String) (ttl : Nat)
      (hfree : r.leases job = none) :
      Write store r (.acquireLease job generation token ttl)
        { r with
          leases := r.leases.set job (store.leaseValue generation token)
            (r.clock + ttl) }
  | leaseRenewed (job : UUID) (generation : Int) (token : String) (ttl : Nat)
      (hheld : r.leases.get job = some (store.leaseValue generation token)) :
      Write store r (.refreshLease job generation token ttl)
        { r with leases := r.leases.expire job (r.clock + ttl) }
  | leaseReleased (job : UUID) (generation : Int) (token : String)
      (hheld : r.leases.get job = some (store.leaseValue generation token)) :
      Write store r (.releaseLease job generation token)
        { r with leases := r.leases.delete job }
  | recoveryClosed (job : UUID) (now : Instant) (current : JobState)
      (hcurrent : r.states.get job = some current)
      (hmarker : r.recoveryPending.zscore job = some current.runGeneration) :
      Write store r (.markRecoveryEnqueued job current.runGeneration now)
        (r.closeRecovery job current now)
  | recoveryDropped (job : UUID) (generation : Int)
      (hmarker : r.recoveryPending.zscore job = some generation) :
      Write store r (.discardPendingRecovery job generation) (r.dropRecovery job)
  | jobDropped (op : JobOp) (job : UUID)
      (hop : op = .discardMissingJobIndexes job ∨
        ∃ generation, op = .discardMissingJobRecovery job generation)
      (habsent : r.states.get job = none) :
      Write store r op (r.dropJob job)
  | checkpointSaved (checkpoints : JobCheckpoints) (job : UUID) (key : String)
      (value : Json)
      (hfree : r.checkpoints (store.checkpointKey job key) = none) :
      Write store r (.saveCheckpoint checkpoints job key value)
        (store.commitCheckpoint checkpoints job key value r)

section Calls

variable {store : DurableJobStore} {tick : JobRedis → Nat → JobRedis}
  {op : JobOp} {w w' : World} {res : Except JobException op.Value}

/-- A block either commits its new contents or raises and leaves the server. -/
theorem World.commit_cases {α : Type} {x : Except JobException (α × JobRedis)}
    {res : Except JobException α} (h : w.commit x = (res, w')) :
    (∃ value redis, x = .ok (value, redis) ∧ res = .ok value ∧
      w' = { w with redis }) ∨
    (∃ e, x = .error e ∧ res = .error e ∧ w' = w) := by
  cases x with
  | ok outcome =>
      obtain ⟨rfl, rfl⟩ := Prod.mk.inj h
      exact Or.inl ⟨_, _, rfl, rfl, rfl⟩
  | error e =>
      obtain ⟨rfl, rfl⟩ := Prod.mk.inj h
      exact Or.inr ⟨e, rfl, rfl, rfl⟩

/-- A call that goes through was executed; an interrupted one had no effect. -/
theorem performs_cases
    (h : (jobMachine store tick).Performs op w res w') :
    (∃ reply, JobOp.exec store reply op w = some (res, w')) ∨
      (∃ reason : Interruption, res = .error reason.exception ∧ w' = w) := by
  obtain ⟨answer, h⟩ := h
  cases answer with
  | proceed reply => exact Or.inl ⟨reply, h⟩
  | interrupt reason =>
      simp only [jobMachine, Option.ite_none_left_eq_some] at h
      obtain ⟨rfl, rfl⟩ := Prod.mk.inj (Option.some.inj h.2)
      exact Or.inr ⟨reason, rfl, rfl⟩

/-- Whether a block writes is decided by what it commits. -/
theorem write_commit {α : Type} {x : Except JobException (α × JobRedis)}
    {res : Except JobException α} (h : w.commit x = (res, w'))
    (hx : ∀ value redis, x = .ok (value, redis) →
      redis = w.redis ∨ Write store w.redis op redis) :
    w'.redis = w.redis ∨ Write store w.redis op w'.redis := by
  rcases World.commit_cases h with ⟨value, redis, hok, _, rfl⟩ | ⟨_, _, _, rfl⟩
  · exact hx value redis hok
  · exact Or.inl rfl

theorem states_get_of_absent {r : JobRedis} {job : UUID}
    (h : ¬ (r.states job).isSome = true) : r.states.get job = none := by
  simpa [Table.get] using h

/-- The save of a checkpoint that is not there yet. -/
theorem saveCheckpoint_cases (store : DurableJobStore)
    (checkpoints : JobCheckpoints) (job : UUID) (key : String) (value : Json)
    (r : JobRedis) :
    store.saveCheckpoint checkpoints job key value r = (false, r) ∨
    (r.checkpoints (store.checkpointKey job key) = none ∧
      store.saveCheckpoint checkpoints job key value r =
        (true, store.commitCheckpoint checkpoints job key value r)) := by
  unfold DurableJobStore.saveCheckpoint
  cases hentry : r.checkpoints (store.checkpointKey job key) with
  | some entry =>
      left
      simp only [Option.isSome_some, if_true]
      repeat' split
      all_goals rfl
  | none =>
      simp only [Option.isSome_none, Bool.false_eq_true, if_false, true_and]
      split
      next => exact Or.inr rfl
      next =>
        split
        next => exact Or.inl rfl
        next =>
          split
          next => exact Or.inl rfl
          next => exact Or.inr rfl

/-- Whatever a process calls, it leaves the server or makes a listed write. -/
theorem performs_write (hr : w.redis.StatesStored)
    (h : (jobMachine store tick).Performs op w res w') :
    w'.redis = w.redis ∨ Write store w.redis op w'.redis := by
  rcases performs_cases h with ⟨reply, hexec⟩ | ⟨_, _, rfl⟩
  · cases op with
    | registerJob a =>
        refine write_commit (Option.some.inj hexec) fun _ redis hok => ?_
        rcases DurableJobStore.registerJob_cases hr hok with
          ⟨_, _, _, _, rfl⟩ | ⟨initial, hinitial, hkey, habsent, _, rfl⟩
        · exact Or.inl rfl
        · exact Or.inr (.registered a initial hinitial hkey habsent)
    | transition a =>
        refine write_commit (Option.some.inj hexec) fun _ redis hok => ?_
        obtain ⟨current, hcurrent, ⟨_, _, rfl⟩ | ⟨next, hfits, _, rfl⟩⟩ :=
          DurableJobStore.transition_cases hr hok
        · exact Or.inl rfl
        · exact Or.inr (.moved a current next hcurrent hfits)
    | takeOverStale job generation now =>
        refine write_commit (Option.some.inj hexec) fun _ redis hok => ?_
        obtain ⟨current, hcurrent,
          ⟨_, rfl⟩ | ⟨next, halive, rfl, hmarker, hnext, _, rfl⟩⟩ :=
          DurableJobStore.takeOverStale_cases hr hok
        · exact Or.inl rfl
        · exact Or.inr (.takenOver job now current next hcurrent halive hmarker hnext)
    | retryFailed job now =>
        refine write_commit (Option.some.inj hexec) fun next redis hok => ?_
        obtain ⟨current, hcurrent, hstatus, hretryable, hnext, rfl⟩ :=
          DurableJobStore.retryFailed_cases hr hok
        exact Or.inr
          (.reopened job now current next hcurrent hstatus hretryable hnext)
    | markCallbackSynced job revision =>
        refine write_commit (Option.some.inj hexec) fun _ redis hok => ?_
        obtain ⟨current, hcurrent, rfl, rfl⟩ :=
          DurableJobStore.markCallbackSynced_cases hr hok
        exact Or.inr (.synced job revision current hcurrent)
    | markRecoveryEnqueued job generation now =>
        refine write_commit (Option.some.inj hexec) fun _ redis hok => ?_
        obtain ⟨current, hcurrent, ⟨_, rfl⟩ | ⟨_, hmarker, rfl, rfl⟩⟩ :=
          DurableJobStore.markRecoveryEnqueued_cases hr hok
        · exact Or.inl rfl
        · exact Or.inr (.recoveryClosed job now current hcurrent hmarker)
    | getState job =>
        refine write_commit (Option.some.inj hexec) fun _ redis hok => ?_
        obtain ⟨_, _, hpair⟩ := Except.map_eq_ok.1 hok
        exact Or.inl (Prod.mk.inj hpair).2.symm
    | acquireLease job generation token ttl =>
        obtain ⟨_, rfl⟩ := Prod.mk.inj (Option.some.inj hexec)
        unfold DurableJobStore.acquireLease
        split
        next => exact Or.inl rfl
        next hfree => exact Or.inr (.leaseTaken job generation token ttl hfree)
    | refreshLease job generation token ttl =>
        obtain ⟨_, rfl⟩ := Prod.mk.inj (Option.some.inj hexec)
        unfold DurableJobStore.refreshLease
        split
        next hheld => exact Or.inr (.leaseRenewed job generation token ttl hheld)
        next => exact Or.inl rfl
    | releaseLease job generation token =>
        obtain ⟨_, rfl⟩ := Prod.mk.inj (Option.some.inj hexec)
        unfold DurableJobStore.releaseLease
        split
        next hheld => exact Or.inr (.leaseReleased job generation token hheld)
        next => exact Or.inl rfl
    | discardPendingRecovery job generation =>
        obtain ⟨_, rfl⟩ := Prod.mk.inj (Option.some.inj hexec)
        unfold JobRedis.discardPendingRecovery
        split
        next hmarker => exact Or.inr (.recoveryDropped job generation hmarker)
        next => exact Or.inl rfl
    | discardMissingJobIndexes job =>
        obtain ⟨_, rfl⟩ := Prod.mk.inj (Option.some.inj hexec)
        unfold JobRedis.discardMissingJobIndexes
        split
        next => exact Or.inl rfl
        next habsent =>
          exact Or.inr
            (.jobDropped _ job (Or.inl rfl) (states_get_of_absent habsent))
    | discardMissingJobRecovery job generation =>
        obtain ⟨_, rfl⟩ := Prod.mk.inj (Option.some.inj hexec)
        unfold JobRedis.discardMissingJobRecovery
        split
        next => exact Or.inl rfl
        next habsent =>
          split
          next => exact Or.inl rfl
          next =>
            exact Or.inr (.jobDropped _ job (Or.inr ⟨generation, rfl⟩)
              (states_get_of_absent habsent))
    | saveCheckpoint checkpoints job key value =>
        obtain ⟨_, rfl⟩ := Prod.mk.inj (Option.some.inj hexec)
        rcases saveCheckpoint_cases store checkpoints job key value w.redis with
          heq | ⟨hfree, heq⟩
        · exact Or.inl (congrArg Prod.snd heq)
        · rw [heq]
          exact Or.inr (.checkpointSaved checkpoints job key value hfree)
    | awaitHeartbeatStart x | awaitHeartbeatEnd x =>
        simp only [JobOp.exec, Option.ite_none_right_eq_some] at hexec
        obtain ⟨_, rfl⟩ := Prod.mk.inj (Option.some.inj hexec.2)
        exact Or.inl rfl
    | _ =>
        -- The rest does not touch the server.
        obtain ⟨_, rfl⟩ := Prod.mk.inj (Option.some.inj hexec)
        exact Or.inl rfl
  · exact Or.inl rfl

end Calls

end SearchTrust.Jobs
