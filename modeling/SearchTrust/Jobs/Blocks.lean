/-
What each atomic block of the store does when it does not raise.
-/
import SearchTrust.Jobs.Store

namespace SearchTrust.Jobs

open SearchTrust.Redis

theorem Except.bind_eq_ok {ε α β : Type} {x : Except ε α} {f : α → Except ε β}
    {b : β} : (x >>= f) = .ok b ↔ ∃ a, x = .ok a ∧ f a = .ok b := by
  cases x with
  | error e => exact ⟨fun h => (nomatch h), fun ⟨_, h, _⟩ => (nomatch h)⟩
  | ok a =>
      constructor
      · intro h
        exact ⟨a, rfl, h⟩
      · rintro ⟨a', h, hf⟩
        obtain rfl := Except.ok.inj h
        exact hf

theorem Except.map_eq_ok {ε α β : Type} {x : Except ε α} {f : α → β} {b : β} :
    x.map f = .ok b ↔ ∃ a, x = .ok a ∧ f a = b := by
  cases x with
  | error e => exact ⟨fun h => (nomatch h), fun ⟨_, h, _⟩ => (nomatch h)⟩
  | ok a =>
      constructor
      · intro h
        exact ⟨a, rfl, Except.ok.inj h⟩
      · rintro ⟨a', h, rfl⟩
        obtain rfl := Except.ok.inj h
        rfl

theorem Except.ok_bind {ε α β : Type} (a : α) (f : α → Except ε β) :
    ((.ok a : Except ε α) >>= f) = f a := rfl

theorem Except.throw_eq_error {ε α : Type} (e : ε) :
    (throw e : Except ε α) = .error e := rfl

theorem Except.pure_eq_ok {ε α : Type} (a : α) :
    (pure a : Except ε α) = .ok a := rfl

namespace JobRedis

/-- Every stored snapshot passes its own validator unchanged. -/
def StatesStored (r : JobRedis) : Prop :=
  ∀ job state, r.states.get job = some state → state.Stored

theorem StatesStored.getState {r : JobRedis} (h : r.StatesStored) (job : UUID) :
    r.getState job = .ok (r.states.get job) := by
  unfold JobRedis.getState
  cases hget : r.states.get job with
  | none => rfl
  | some raw =>
      show raw.modelValidate.map some = .ok (some raw)
      rw [(h job raw hget).modelValidate_eq]
      rfl

theorem StatesStored.requireState_eq_ok {r : JobRedis} (h : r.StatesStored)
    {job : UUID} {state : JobState} :
    r.requireState job = .ok state ↔ r.states.get job = some state := by
  unfold JobRedis.requireState
  rw [h.getState job]
  cases hget : r.states.get job with
  | none => exact ⟨fun h => (nomatch h), fun h => (nomatch h)⟩
  | some raw =>
      constructor
      · intro hok
        exact congrArg some (Except.ok.inj hok)
      · intro hsome
        exact congrArg Except.ok (Option.some.inj hsome)

end JobRedis

/-- The transition `a` is legal over `current` and produces `next`. -/
structure TransitionFits (a : Transition) (current next : JobState) : Prop where
  generation : ∀ g ∈ a.expectedGeneration, g = current.runGeneration
  alive : current.terminal = false
  allowed : a.status ∈ allowedTransitions current.status
  validated : (DurableJobStore.nextState a current).modelValidate = .ok next

namespace DurableJobStore

variable {store : DurableJobStore} {r r' : JobRedis}

section Specs

/-- The registration finds what it would register: through its idempotency key,
or, where that key is gone, in the state of the job itself. -/
def Replays (store : DurableJobStore) (a : Registration) (r : JobRedis)
    (existing : JobState) : Prop :=
  (∃ identity, r.idempotency.get (a.caseId, store.sha256 a.idempotencyKey) =
      some identity ∧ identity.requestDigest = store.requestDigest a.requestPayload ∧
      identity.jobId = a.jobId) ∨
    (existing.caseId = a.caseId ∧
      existing.requestDigest = store.requestDigest a.requestPayload ∧
      existing.idempotencyKeyDigest = store.sha256 a.idempotencyKey)

/-- What `register_job` does when it does not raise: it replays a stored job of
the same identity, or it finds neither key and registers the job. -/
theorem registerJob_cases (hr : r.StatesStored) {a : Registration}
    {res : RegistrationResult} (h : store.registerJob a r = .ok (res, r')) :
    (∃ existing, r.states.get a.jobId = some existing ∧
      store.Replays a r existing ∧ res = ⟨existing, true⟩ ∧ r' = r) ∨
    (∃ initial, (store.initialState a).modelValidate = .ok initial ∧
      r.idempotency.get (a.caseId, store.sha256 a.idempotencyKey) = none ∧
      r.states.get a.jobId = none ∧ res = ⟨initial, false⟩ ∧
      r' = store.commitRegistration a initial r) := by
  unfold registerJob at h
  simp only [hr.getState, Except.ok_bind, Except.throw_eq_error,
    Except.pure_eq_ok] at h
  obtain ⟨initial, hinitial, h⟩ := Except.bind_eq_ok.1 h
  cases hget : r.states.get a.jobId with
  | some existing =>
      refine Or.inl ⟨existing, rfl, ?_⟩
      simp only [hget] at h
      split at h
      next identity hidem =>
        split at h
        next => cases h
        next hdigest =>
          split at h
          next => cases h
          next hjob =>
            refine ⟨Or.inl ⟨identity, hidem, not_not.1 hdigest, not_not.1 hjob⟩, ?_⟩
            simpa [eq_comm] using h
      next hidem =>
        split at h
        next => cases h
        next hsame =>
          simp only [not_or, not_not] at hsame
          refine ⟨Or.inr hsame, ?_⟩
          simpa [eq_comm] using h
  | none =>
      refine Or.inr ⟨initial, hinitial, ?_⟩
      simp only [hget] at h
      split at h
      next identity hidem =>
        split at h
        next => cases h
        next => split at h <;> cases h
      next hidem =>
        refine ⟨hidem, rfl, ?_⟩
        simpa [eq_comm] using h

/-- What `transition` does when it does not raise: nothing over a terminal
state, and otherwise one legal move. -/
theorem transition_cases (hr : r.StatesStored) {a : Transition}
    {res : TransitionResult} (h : store.transition a r = .ok (res, r')) :
    ∃ current, r.states.get a.jobId = some current ∧
      ((current.terminal = true ∧ res = ⟨current, false⟩ ∧ r' = r) ∨
        ∃ next, TransitionFits a current next ∧ res = ⟨next, true⟩ ∧
          r' = store.commitTransition a next r) := by
  unfold transition at h
  obtain ⟨current, hcurrent, h⟩ := Except.bind_eq_ok.1 h
  refine ⟨current, hr.requireState_eq_ok.1 hcurrent, ?_⟩
  split at h
  next => cases h
  next hgeneration =>
    have hgen : ∀ g ∈ a.expectedGeneration, g = current.runGeneration := by
      intro g hg
      by_contra hne
      exact hgeneration (by simp [Option.mem_def.1 hg, hne])
    split at h
    next hterminal =>
      obtain ⟨rfl, rfl⟩ := Prod.mk.inj (Except.ok.inj h)
      exact Or.inl ⟨hterminal, rfl, rfl⟩
    next hterminal =>
      split at h
      next => cases h
      next hallowed =>
        obtain ⟨next, hnext, h⟩ := Except.bind_eq_ok.1 h
        obtain ⟨rfl, rfl⟩ := Prod.mk.inj (Except.ok.inj h)
        refine Or.inr ⟨next, ⟨hgen, ?_, ?_, hnext⟩, rfl, rfl⟩
        · simpa using hterminal
        · simpa using hallowed

/-- What `take_over_stale` does when it does not raise. -/
theorem takeOverStale_cases (hr : r.StatesStored) {job : UUID}
    {expectedGeneration : Int} {now : Instant} {res : TransitionResult}
    (h : store.takeOverStale job expectedGeneration now r = .ok (res, r')) :
    ∃ current, r.states.get job = some current ∧
      ((res = ⟨current, false⟩ ∧ r' = r) ∨
        ∃ next, current.terminal = false ∧
          current.runGeneration = expectedGeneration ∧
          r.recoveryPending.zscore job = none ∧
          (takenOver current now).modelValidate = .ok next ∧
          res = ⟨next, true⟩ ∧ r' = store.commitTakeover job now next r) := by
  unfold takeOverStale at h
  obtain ⟨current, hcurrent, h⟩ := Except.bind_eq_ok.1 h
  refine ⟨current, hr.requireState_eq_ok.1 hcurrent, ?_⟩
  split at h
  next =>
    obtain ⟨rfl, rfl⟩ := Prod.mk.inj (Except.ok.inj h)
    exact Or.inl ⟨rfl, rfl⟩
  next hcheck =>
    simp only [not_or, Bool.not_eq_true, not_not] at hcheck
    split at h
    next =>
      obtain ⟨rfl, rfl⟩ := Prod.mk.inj (Except.ok.inj h)
      exact Or.inl ⟨rfl, rfl⟩
    next hmarker =>
      obtain ⟨next, hnext, h⟩ := Except.bind_eq_ok.1 h
      obtain ⟨rfl, rfl⟩ := Prod.mk.inj (Except.ok.inj h)
      refine Or.inr ⟨next, hcheck.1, hcheck.2, ?_, hnext, rfl, rfl⟩
      simpa using hmarker

/-- What `retry_failed` does when it does not raise. -/
theorem retryFailed_cases (hr : r.StatesStored) {job : UUID} {now : Instant}
    {next : JobState} (h : store.retryFailed job now r = .ok (next, r')) :
    ∃ current, r.states.get job = some current ∧ current.status = .failed ∧
      current.error.any JobErrorState.retryable = true ∧
      (reopened current now).modelValidate = .ok next ∧
      r' = store.commitRetry job now next r := by
  unfold retryFailed at h
  obtain ⟨current, hcurrent, h⟩ := Except.bind_eq_ok.1 h
  refine ⟨current, hr.requireState_eq_ok.1 hcurrent, ?_⟩
  split at h
  next => cases h
  next hcheck =>
    simp only [not_or, not_not] at hcheck
    obtain ⟨next', hnext, h⟩ := Except.bind_eq_ok.1 h
    obtain ⟨rfl, rfl⟩ := Prod.mk.inj (Except.ok.inj h)
    exact ⟨hcheck.1, hcheck.2, hnext, rfl⟩

/-- What `mark_callback_synced` does when it does not raise. -/
theorem markCallbackSynced_cases (hr : r.StatesStored) {job : UUID}
    {revision : Int} {next : JobState}
    (h : store.markCallbackSynced job revision r = .ok (next, r')) :
    ∃ current, r.states.get job = some current ∧
      next = synced current revision ∧ r' = store.commitSynced job next r := by
  unfold markCallbackSynced at h
  obtain ⟨current, hcurrent, h⟩ := Except.bind_eq_ok.1 h
  obtain ⟨rfl, rfl⟩ := Prod.mk.inj (Except.ok.inj h)
  exact ⟨current, hr.requireState_eq_ok.1 hcurrent, rfl, rfl⟩

/-- What `mark_recovery_enqueued` does when it does not raise. -/
theorem markRecoveryEnqueued_cases (hr : r.StatesStored) {job : UUID}
    {generation : Int} {now : Instant} {res : Bool}
    (h : r.markRecoveryEnqueued job generation now = .ok (res, r')) :
    ∃ current, r.states.get job = some current ∧
      ((res = false ∧ r' = r) ∨
        res = true ∧ r.recoveryPending.zscore job = some generation ∧
          current.runGeneration = generation ∧
          r' = r.closeRecovery job current now) := by
  unfold JobRedis.markRecoveryEnqueued at h
  obtain ⟨current, hcurrent, h⟩ := Except.bind_eq_ok.1 h
  refine ⟨current, hr.requireState_eq_ok.1 hcurrent, ?_⟩
  split at h
  next =>
    obtain ⟨rfl, rfl⟩ := Prod.mk.inj (Except.ok.inj h)
    exact Or.inl ⟨rfl, rfl⟩
  next hcheck =>
    simp only [not_or, not_not] at hcheck
    obtain ⟨rfl, rfl⟩ := Prod.mk.inj (Except.ok.inj h)
    exact Or.inr ⟨rfl, hcheck.1, hcheck.2, rfl⟩

end Specs

end DurableJobStore

end SearchTrust.Jobs
