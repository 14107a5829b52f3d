/-
A takeover is announced before its run is put in the queue: however reconcilers
crash and overlap, the owner of the audit has accepted a snapshot of the
generation that they enqueue, or of a later one.
-/
import SearchTrust.Jobs.CallbackSoundness
import SearchTrust.Jobs.RecoveryMarkers
import SearchTrust.Jobs.Revisions

namespace SearchTrust.Jobs

open SearchTrust.Interleave SearchTrust.Redis

namespace JobOp

/-- The operations that record an acknowledgement or put a run in the queue. -/
def announces : JobOp → Bool
  | markCallbackSynced _ _ | enqueue _ _ => true
  | _ => false

theorem eq_enqueue_of_enqueued {op : JobOp} {result : Except JobException op.Value}
    {job : UUID} {generation : Int}
    (h : enqueued op result = some (job, generation)) :
    op = enqueue job generation := by
  cases op with
  | enqueue j g =>
      rcases result with error | accepted
      · cases h
      · obtain ⟨rfl, rfl⟩ := Prod.mk.inj (Option.some.inj h)
        rfl
  | _ => cases h

theorem announces_of_readsOnly {op : JobOp} (h : op.readsOnly = true) :
    op.announces = false := by
  cases op <;> first | rfl | cases h

end JobOp

section Evidence

variable {ι : Type} {history : List (Event jobSignature JobException World ι)}
  {job : UUID} {generation : Int} {s : JobState}

/-- A snapshot of a job, of the given generation or a later one, was read and
then delivered. -/
def GenerationAcknowledged
    (history : List (Event jobSignature JobException World ι)) (job : UUID)
    (generation : Int) : Prop :=
  ∃ t : JobState, generation ≤ t.runGeneration ∧
    (∃ e ∈ history, JobOp.observed e.op e.result = some (job, t)) ∧
    ∃ e ∈ history, JobOp.delivered e.op e.result = some t

theorem GenerationAcknowledged.cons
    (h : GenerationAcknowledged history job generation)
    (e : Event jobSignature JobException World ι) :
    GenerationAcknowledged (e :: history) job generation := by
  obtain ⟨t, hle, ⟨e₁, he₁, hread⟩, ⟨e₂, he₂, hsent⟩⟩ := h
  exact ⟨t, hle, ⟨e₁, List.mem_cons_of_mem e he₁, hread⟩,
    ⟨e₂, List.mem_cons_of_mem e he₂, hsent⟩⟩

theorem GenerationAcknowledged.of_le {earlier : Int}
    (h : GenerationAcknowledged history job generation)
    (hle : earlier ≤ generation) : GenerationAcknowledged history job earlier := by
  obtain ⟨t, hgeneration, hevidence⟩ := h
  exact ⟨t, hle.trans hgeneration, hevidence⟩

/-- Where the latest revision is acknowledged, so is the generation: the
delivered snapshot has that revision. -/
theorem SyncBacked.generation_acknowledged (h : SyncBacked history job s) (hs : s.Stored)
    (hsynced : s.revision ≤ s.callbackSyncedRevision) :
    GenerationAcknowledged history job s.runGeneration := by
  have hpositive : 1 ≤ s.revision := hs.1.1.revision
  have hle : s.callbackSyncedRevision ≤ s.revision := hs.1.2.2.2.1
  rcases h with hzero | ⟨t, hrevision, hlater, hread, hsent⟩
  · omega
  · have hsame : s.runGeneration = t.runGeneration := by
      rw [hlater.sameRevision (by omega)]
    exact ⟨t, hsame.le, hread, hsent⟩

end Evidence

section Discipline

variable {ι : Type}

/-- Whoever has read a snapshot with its latest revision acknowledged may rely
on a delivery of its generation. -/
def ReadsBacked (c : Config jobSignature JobException World ι) : Prop :=
  ∀ e ∈ c.history, ∀ job t, JobOp.observed e.op e.result = some (job, t) →
    t.revision ≤ t.callbackSyncedRevision →
    GenerationAcknowledged c.history job t.runGeneration

/-- Acknowledgements are backed by deliveries, and a process that reconciles puts
only acknowledged generations in the queue. -/
def barrierDiscipline (reconciles : ι → Prop) :
    Discipline jobSignature JobException World ι where
  inv c := (callbackDiscipline ι).inv c ∧ ReadsBacked c
  cond := Anything
  goal c e := (callbackDiscipline ι).goal c e ∧
    (reconciles e.actor → ∀ job generation, e.op = .enqueue job generation →
      GenerationAcknowledged c.history job generation)

variable {reconciles : ι → Prop} {store : DurableJobStore}

theorem barrierDiscipline_stored (c : Config jobSignature JobException World ι)
    (h : (barrierDiscipline reconciles).inv c) : c.state.redis.StatesStored := h.1.1

theorem barrierGoal_of_not_announces
    {c : Config jobSignature JobException World ι}
    {e : Event jobSignature JobException World ι}
    (h : JobOp.announces e.op = false) : (barrierDiscipline reconciles).goal c e := by
  constructor
  · intro job revision hop
    rw [hop] at h
    cases h
  · intro _ job generation hop
    rw [hop] at h
    cases h

/-- A read returns the stored snapshot. -/
theorem performs_observed {tick : JobRedis → Nat → JobRedis} {op : JobOp}
    {w w' : World} {result : Except JobException op.Value} {job : UUID}
    {t : JobState} (hr : w.redis.StatesStored)
    (h : (jobMachine store tick).Performs op w result w')
    (hread : JobOp.observed op result = some (job, t)) :
    w.redis.states.get job = some t := by
  cases op with
  | getState j =>
      rcases result with error | found
      · cases hread
      cases found with
      | none => cases hread
      | some found =>
          obtain ⟨rfl, rfl⟩ := Prod.mk.inj (Option.some.inj hread)
          obtain ⟨_, hfound | ⟨_, herror⟩⟩ := performs_getState hr h
          · exact (Except.ok.inj hfound).symm
          · cases herror
  | _ => cases hread

variable [DecidableEq ι]

theorem barrierDiscipline_kept :
    (barrierDiscipline reconciles).Kept (durableMachine store) where
  act := by
    rintro c e rest ⟨hbacked, hreads⟩ hen hgoal
    refine ⟨callbackDiscipline_kept.act hbacked hen hgoal.1, ?_⟩
    intro x hx job t hread hsynced
    rcases List.mem_cons.1 hx with rfl | hx
    · have ht := performs_observed hbacked.1 hen.performs hread
      have hback := (hbacked.2 job t ht).generation_acknowledged
        (hbacked.1 job t ht) hsynced
      exact hback.cons x
    · exact (hreads x hx job t hread hsynced).cons e
  drift := fun h hdrift => ⟨callbackDiscipline_kept.drift h.1 hdrift, h.2⟩
  crash := fun _ h => h

end Discipline

section Reconcilers

variable {ι : Type} [DecidableEq ι] {reconciles : ι → Prop}
  {store : DurableJobStore} {i : ι} {cfg : Reconciliation} {job : UUID}
  {generation : Int} {state : JobState}
  {A : Config jobSignature JobException World ι → Prop}

/-- A program that neither acknowledges nor enqueues. -/
theorem safe_of_not_announces {α : Type} {p : Proc α}
    (hp : p.OnlyCalls fun op : JobOp => op.announces = false) :
    Safe (durableMachine store) (barrierDiscipline reconciles) i p A
      fun _ _ => True :=
  Safe.of_calls hp fun _ _ _ _ hop _ _ _ => barrierGoal_of_not_announces hop

/-- A run of the synchronizer over a job that has reached a generation. -/
theorem safe_sync_barrier :
    Safe (durableMachine store) (barrierDiscipline reconciles) i (sync job)
      (fun c => c.state.AtLeast job generation)
      (Outcome (fun done c => done = true →
        SyncSeen job (fun t => generation ≤ t.runGeneration) c)
        fun _ _ => True) := by
  refine safe_sync_seen barrierDiscipline_stored ?_ ?_
  · rintro c ⟨actor, op, result, before, after⟩ _ hsyncs hback
    refine ⟨hback, fun _ j g hop => ?_⟩
    obtain rfl : op = _ := hop
    cases hsyncs
  · rintro c t _ ⟨s, hs, hle⟩ ht
    obtain rfl := Option.some.inj (hs.symm.trans ht)
    exact hle

omit [DecidableEq ι] in
/-- What such a run has seen is acknowledged. -/
theorem SyncSeen.generation_acknowledged
    {c : Config jobSignature JobException World ι}
    (h : SyncSeen job (fun t => generation ≤ t.runGeneration) c)
    (hinv : (barrierDiscipline reconciles).inv c) :
    GenerationAcknowledged c.history job generation := by
  obtain ⟨t, hle, ⟨_, e, he, hread⟩, hsynced | hsent⟩ := h
  · exact (hinv.2 e he job t hread hsynced).of_le hle
  · exact ⟨t, hle, ⟨e, he, hread⟩, hsent⟩

theorem safe_sync_any :
    Safe (durableMachine store) (barrierDiscipline reconciles) i (sync job) A
      fun _ _ => True := by
  refine (safe_sync_seen (P := fun _ => True) barrierDiscipline_stored ?_
    fun _ _ _ _ _ => trivial).weaken fun _ _ _ _ => trivial
  rintro c ⟨actor, op, result, before, after⟩ _ hsyncs hback
  refine ⟨hback, fun _ j g hop => ?_⟩
  obtain rfl : op = _ := hop
  cases hsyncs

theorem safe_syncApplied {applied : Bool} :
    Safe (durableMachine store) (barrierDiscipline reconciles) i
      (cfg.syncApplied job applied) A fun _ _ => True := by
  unfold Reconciliation.syncApplied
  split
  next =>
    refine Safe.handle (E := fun _ _ => True) (Safe.anyOutcome ?_) fun e => ?_
    · exact safe_sync_any.andThen fun _ => Safe.done
    · split
      next => exact Safe.done
      next => exact Safe.raise fun _ _ _ => trivial
  next => exact Safe.done

theorem safe_failJob_barrier {error : JobErrorState} :
    Safe (durableMachine store) (barrierDiscipline reconciles) i
      (cfg.failJob job state error) A fun _ _ => True := by
  have hread : ∀ op : JobOp, op.readsOnly = true → op.announces = false :=
    fun _ => JobOp.announces_of_readsOnly
  refine (safe_of_not_announces (onlyCalls_capabilityTerminalTransition hread
    (fun _ => rfl) (fun _ _ => rfl) _ _ _ _)).andThen fun outcome => ?_
  obtain ⟨handled, updated⟩ := outcome
  cases handled with
  | true => exact safe_syncApplied
  | false =>
      refine (safe_of_not_announces
        (onlyCalls_transition hread rfl)).andThen fun result => ?_
      exact safe_syncApplied

/-- The callback of a takeover: where it counts as delivered, the generation of
the snapshot is acknowledged. -/
theorem safe_deliverTakeover (hgeneration : generation = state.runGeneration) :
    Safe (durableMachine store) (barrierDiscipline reconciles) i
      (Reconciliation.deliverTakeover job state) (Seen job state)
      (Outcome (fun delivered c => delivered = true →
        GenerationAcknowledged c.history job generation) fun _ _ => True) := by
  unfold Reconciliation.deliverTakeover
  split
  next =>
    refine Safe.handle (E := fun _ _ => True) ?_ fun e => ?_
    · refine (@safe_sync_barrier ι _ reconciles store i job generation).strengthen ?_
        |>.weaken ?_
      · rintro c _ ⟨⟨s, hs, hlater⟩, _⟩
        exact ⟨s, hs, hgeneration ▸ hlater.generation⟩
      · intro outcome c hinv h
        cases outcome with
        | ok done => exact fun hdone => (h hdone).generation_acknowledged hinv
        | error error => trivial
    · split
      next => exact Safe.ret (by rintro _ _ _ ⟨⟩)
      next => exact Safe.raise fun _ _ _ => trivial
  next hsynced =>
    refine Safe.ret fun c hinv h _ => ?_
    obtain ⟨_, e, he, hread⟩ := h
    exact hgeneration ▸ hinv.2 e he job state hread (not_lt.1 hsynced)

theorem safe_enqueueRun_barrier :
    Safe (durableMachine store) (barrierDiscipline reconciles) i
      (Reconciliation.enqueueRun job generation)
      (fun c => GenerationAcknowledged c.history job generation)
      fun _ _ => True := by
  refine Safe.handle (E := fun _ _ => True) (Safe.anyOutcome ?_) fun e => ?_
  · refine Safe.andThen (Safe.perform_post (fun _ => .const True) ?_)
      fun _ => Safe.done
    rintro c result after _ hack _ _
    refine ⟨⟨?_, ?_⟩, fun _ _ => trivial⟩
    · rintro j revision ⟨⟩
    · rintro _ j g ⟨⟩
      exact hack
  · split
    next => exact Safe.done
    next => exact Safe.raise fun _ _ _ => trivial

/-- A takeover is finished with the barrier between its two halves. -/
theorem safe_finishRecovery_barrier :
    Safe (durableMachine store) (barrierDiscipline reconciles) i
      (cfg.finishRecovery job generation state) (Seen job state)
      fun _ _ => True := by
  have hquiet : ∀ {op : JobOp} {B : Config jobSignature JobException World ι → Prop},
      op.announces = false → Safe (durableMachine store)
        (barrierDiscipline reconciles) i (call op) B fun _ _ => True :=
    fun hop => safe_of_not_announces (onlyCalls_call hop)
  unfold Reconciliation.finishRecovery
  split
  next => exact (hquiet rfl).andThen fun _ => Safe.done
  next hgeneration =>
    split
    next => exact (hquiet rfl).andThen fun _ => Safe.done
    next =>
      split
      next => exact (hquiet rfl).andThen fun _ => safe_failJob_barrier
      next =>
        split
        next =>
          refine Safe.bind (safe_deliverTakeover (not_not.1 hgeneration).symm)
            fun delivered => ?_
          cases delivered with
          | false => exact Safe.done
          | true =>
              refine (safe_enqueueRun_barrier.strengthen
                fun _ _ h => h rfl).andThen fun enqueued => ?_
              cases enqueued with
              | false => exact Safe.done
              | true => exact (hquiet rfl).andThen fun _ => Safe.done
        next => exact Safe.done

theorem safe_finishPendingRecovery_barrier :
    Safe (durableMachine store) (barrierDiscipline reconciles) i
      (cfg.finishPendingRecovery job generation) A fun _ _ => True := by
  refine Safe.bind (B := Outcome (fun t c => True ∧ Seen job t c ∧
    JustRead i job t c) fun _ _ => True) (Safe.attempt ?_) fun found => ?_
  · exact safe_requireState barrierDiscipline_stored
      (fun _ _ _ _ => barrierGoal_of_not_announces rfl) fun _ _ _ _ _ => trivial
  rcases found with e | state
  · cases e with
    | jobNotFound =>
        refine (safe_of_not_announces ?_).andThen fun _ => Safe.done
        exact onlyCalls_call rfl
    | _ => exact Safe.raise fun _ _ _ => trivial
  · exact safe_finishRecovery_barrier.strengthen fun _ _ h => h.2.1

theorem safe_takeOver_barrier :
    Safe (durableMachine store) (barrierDiscipline reconciles) i
      (cfg.takeOver job state) A fun _ _ => True := by
  have hread : ∀ op : JobOp, op.readsOnly = true → op.announces = false :=
    fun _ => JobOp.announces_of_readsOnly
  refine (safe_of_not_announces (onlyCalls_call rfl)).andThen fun diagnosticId => ?_
  refine (safe_of_not_announces (onlyCalls_capabilityTerminalTransition hread
    (fun _ => rfl) (fun _ _ => rfl) _ _ _ _)).andThen fun outcome => ?_
  obtain ⟨handled, probed⟩ := outcome
  cases handled with
  | true => exact safe_syncApplied
  | false =>
      refine (safe_of_not_announces
        (onlyCalls_takeOverStale hread rfl)).andThen fun updated => ?_
      refine (safe_of_not_announces (onlyCalls_call rfl)).andThen fun found => ?_
      refine Safe.andThen ?_ fun _ => safe_syncApplied
      cases found with
      | none => exact Safe.done
      | some generation => exact safe_finishPendingRecovery_barrier

theorem safe_settleStaleJob_barrier {waiting : Bool} :
    Safe (durableMachine store) (barrierDiscipline reconciles) i
      (cfg.settleStaleJob job state waiting) A fun _ _ => True := by
  have huuid : Safe (durableMachine store) (barrierDiscipline reconciles) i
      (call .uuid4) A fun _ _ => True := safe_of_not_announces (onlyCalls_call rfl)
  unfold Reconciliation.settleStaleJob
  dsimp only
  split
  next => exact Safe.done
  next =>
    split
    next => exact huuid.andThen fun _ => safe_failJob_barrier
    next =>
      split
      next => exact huuid.andThen fun _ => safe_failJob_barrier
      next => exact safe_takeOver_barrier

theorem safe_reconcileStaleJob_barrier :
    Safe (durableMachine store) (barrierDiscipline reconciles) i
      (cfg.reconcileStaleJob job) A fun _ _ => True := by
  have hread : ∀ op : JobOp, op.readsOnly = true → op.announces = false :=
    fun _ => JobOp.announces_of_readsOnly
  refine (safe_of_not_announces (onlyCalls_requireState hread
    job).attempt).andThen fun found => ?_
  rcases found with e | state
  · cases e with
    | jobNotFound =>
        refine (safe_of_not_announces ?_).andThen fun _ => Safe.done
        exact onlyCalls_call rfl
    | _ => exact Safe.raise fun _ _ _ => trivial
  · show Safe _ _ i (cfg.reconcileStaleState job state) _ _
    unfold Reconciliation.reconcileStaleState
    split
    next => exact Safe.done
    next =>
      refine (safe_of_not_announces (onlyCalls_call rfl)).andThen fun found => ?_
      cases found with
      | none => exact safe_settleStaleJob_barrier
      | some generation =>
          show Safe _ _ i (if generation ≠ state.runGeneration then _ else _) _ _
          split
          next =>
            refine (safe_of_not_announces (onlyCalls_call rfl)).andThen fun _ => ?_
            exact safe_settleStaleJob_barrier
          next => exact safe_settleStaleJob_barrier

theorem safe_syncPendingCallback :
    Safe (durableMachine store) (barrierDiscipline reconciles) i
      (Reconciliation.syncPendingCallback job) A fun _ _ => True := by
  have hread : ∀ op : JobOp, op.readsOnly = true → op.announces = false :=
    fun _ => JobOp.announces_of_readsOnly
  refine Safe.bind (B := fun _ _ => True) (Safe.attempt ?_) fun outcome => ?_
  · refine (safe_of_not_announces (onlyCalls_requireState hread job)).andThen
      fun _ => ?_
    exact safe_sync_any.andThen fun _ => Safe.done
  · split
    next => exact Safe.done
    next =>
      refine (safe_of_not_announces ?_).andThen fun _ => Safe.done
      exact onlyCalls_call rfl
    next =>
      split
      next => exact Safe.done
      next => exact Safe.raise fun _ _ _ => trivial

/-- A whole reconciliation keeps the barrier. -/
theorem safe_reconcileOnce_barrier :
    Safe (durableMachine store) (barrierDiscipline reconciles) i cfg.reconcileOnce
      A fun _ _ => True := by
  have hloop : ∀ {γ : Type} {items : List γ} {body : γ → Proc Unit},
      (∀ item ∈ items, Safe (durableMachine store) (barrierDiscipline reconciles) i
        (body item) (fun _ => True) fun _ _ => True) →
      Safe (durableMachine store) (barrierDiscipline reconciles) i
        (Program.forEach items body) (fun _ => True) fun _ _ => True := by
    intro γ items body hbody
    exact Safe.forEach (J := fun _ => True)
      (fun item hitem => (hbody item hitem).anyOutcome) fun _ _ _ => trivial
  refine (safe_of_not_announces (onlyCalls_call rfl)).andThen fun pending => ?_
  refine (hloop fun item _ => safe_finishPendingRecovery_barrier).andThen fun _ => ?_
  refine Safe.andThen ?_ fun _ => ?_
  · unfold Reconciliation.syncPendingCallbacks
    split
    next =>
      refine (safe_of_not_announces (onlyCalls_call rfl)).andThen fun jobs => ?_
      refine hloop fun job _ => ?_
      split
      next => exact Safe.done
      next => exact safe_syncPendingCallback
    next => exact Safe.done
  · refine (safe_of_not_announces (onlyCalls_call rfl)).andThen fun stale => ?_
    exact hloop fun job _ => safe_reconcileStaleJob_barrier

end Reconcilers

section Runs

variable {ι : Type} [DecidableEq ι] {store : DurableJobStore}

/-- Reconcilers, next to processes that acknowledge through the synchronizer
only. -/
def BarrierPool (pool : ι → Proc Unit) : Prop :=
  ∀ i, (∃ cfg : Reconciliation, pool i = cfg.reconcileOnce) ∨
    CallbackClient (pool i)

theorem BarrierPool.safeAt {pool : ι → Proc Unit} (hpool : BarrierPool pool)
    (i : ι) :
    SafeAt (durableMachine store)
      (barrierDiscipline fun i => ∃ cfg : Reconciliation, pool i = cfg.reconcileOnce)
      (start World.initial pool) i := by
  refine SafeAt.of_safe (Q := fun _ _ => True) (.const True) trivial ?_
  show Safe _ _ i (pool i) _ _
  by_cases hreconciles : ∃ cfg : Reconciliation, pool i = cfg.reconcileOnce
  · obtain ⟨cfg, hcfg⟩ := hreconciles
    rw [hcfg]
    exact safe_reconcileOnce_barrier
  · have hclient : CallbackClient (pool i) := (hpool i).resolve_left hreconciles
    refine hclient.safe_of barrierDiscipline_stored fun c e hactor hback => ?_
    refine ⟨hback, fun hother => ?_⟩
    rw [hactor] at hother
    exact absurd hother hreconciles

/-- A takeover that is applied has found no marker. -/
theorem performs_takenOver {tick : JobRedis → Nat → JobRedis} {w w' : World}
    {job : UUID} {expected : Int} {now : Instant} {res : TransitionResult}
    (hr : w.redis.StatesStored)
    (h : (jobMachine store tick).Performs (.takeOverStale job expected now) w
      (.ok res) w') (happlied : res.applied = true) :
    w.redis.recoveryPending.zscore job = none := by
  rcases performs_cases h with ⟨reply, hexec⟩ | ⟨reason, hres, _⟩
  · rcases World.commit_cases (Option.some.inj hexec) with
      ⟨value, redis, hok, hvalue, rfl⟩ | ⟨_, _, hres, _⟩
    · obtain rfl := Except.ok.inj hvalue
      obtain ⟨_, _, ⟨rfl, _⟩ | ⟨_, _, _, hmarker, _⟩⟩ :=
        DurableJobStore.takeOverStale_cases hr hok
      · cases happlied
      · exact hmarker
    · cases hres
  · cases hres

/-- In every run of overlapping and crashing reconcilers, a generation is put in
the queue only after a snapshot of that generation, or of a later one, was read
and delivered, and no takeover is applied while the marker of an earlier one is
there. -/
theorem enqueued_generations_acknowledged (pool : ι → Proc Unit)
    (hpool : BarrierPool pool) {c : Config jobSignature JobException World ι}
    (hrun : Run (durableMachine store) Anything (start World.initial pool) c)
    {e : Event jobSignature JobException World ι} {rest : Proc Unit}
    (hen : Enabled (durableMachine store) Anything c e rest) :
    (∀ cfg : Reconciliation, pool e.actor = cfg.reconcileOnce →
      ∀ job generation, e.op = .enqueue job generation →
        GenerationAcknowledged c.history job generation) ∧
    ∀ job generation expected now, e.op = .takeOverStale job expected now →
      c.state.redis.recoveryPending.zscore job = some generation →
      JobOp.committed e.op e.result = none ∧ e.after.redis = c.state.redis := by
  have hstart : (barrierDiscipline fun i => ∃ cfg : Reconciliation,
      pool i = cfg.reconcileOnce).inv (start World.initial pool) :=
    ⟨⟨statesStored_initial, by rintro job s ⟨⟩⟩, fun x hx => (nomatch hx)⟩
  have hgoal := (barrierDiscipline _).goal_of_run barrierDiscipline_kept hstart
    hpool.safeAt hrun hen
  have hstored := statesStored_of_run hrun statesStored_initial
  constructor
  · intro cfg hcfg job generation hop
    exact hgoal.2 ⟨cfg, hcfg⟩ job generation hop
  · intro job generation expected now htakeover hmarker
    obtain ⟨actor, op, result, before, after⟩ := e
    obtain rfl : op = _ := htakeover
    have hnone : JobOp.committed (.takeOverStale job expected now) result = none := by
      rcases result with error | res
      · rfl
      by_cases happlied : res.applied = true
      · have habsent := performs_takenOver hstored hen.performs happlied
        cases hmarker.symm.trans habsent
      · simp [JobOp.committed, happlied]
    exact ⟨hnone, performs_uncommitted hstored hen.performs rfl hnone⟩

/-- The owner of the audit and the queue take what they are given. -/
def delivering : JobAnswer :=
  .proceed fun
    | .send _ => .ok true
    | .enqueue _ _ => .ok true
    | .uuid4 => .ok 5
    | _ => .error .unexpected

theorem barrierPool_reconcilingPool : BarrierPool reconcilingPool := by
  intro i
  cases i with
  | zero =>
      refine Or.inr (CallbackClient.bind ?_ fun _ => .ret ())
      refine (CallbackClient.of_call rfl).bind fun result => ?_
      split
      next => exact .ret result
      next => exact (CallbackClient.of_call rfl).bind fun _ => .ret result
  | succ n => exact Or.inl ⟨sampleReconciliation, rfl⟩

theorem takeover_enqueued_after_delivery :
    ∃ (c : Config jobSignature JobException World Nat)
      (e : Event jobSignature JobException World Nat) (rest : Proc Unit),
      Run (durableMachine sampleStore) Anything
        (start World.initial reconcilingPool) c ∧
      Enabled (durableMachine sampleStore) Anything c e rest ∧ e.actor = 1 ∧
      JobOp.enqueued e.op e.result = some (1, 2) ∧
      GenerationAcknowledged c.history 1 2 := by
  have hplay : (play (M := durableMachine sampleStore) (fun _ _ => true)
      (.act 0 delivering :: List.replicate 18 (.act 1 delivering))
      (start World.initial reconcilingPool)).any (fun c =>
        (nextCall (durableMachine sampleStore) (fun _ _ => true) c 1
          delivering).any fun p => decide (p.1.actor = 1) &&
            decide (JobOp.enqueued p.1.op p.1.result = some (1, 2))) = true := by
    decide
  obtain ⟨c, hrun, htest⟩ := exists_run_of_play (fun _ _ _ => trivial) hplay
  obtain ⟨e, rest, hen, htest⟩ :=
    exists_enabled_of_nextCall (fun _ _ _ => trivial) htest
  simp only [Bool.and_eq_true, decide_eq_true_eq] at htest
  refine ⟨c, e, rest, hrun, hen, htest.1, htest.2, ?_⟩
  refine (enqueued_generations_acknowledged reconcilingPool
    barrierPool_reconcilingPool hrun hen).1 sampleReconciliation ?_ 1 2
    (JobOp.eq_enqueue_of_enqueued htest.2)
  rw [htest.1]
  rfl

end Runs

end SearchTrust.Jobs
