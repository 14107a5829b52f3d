/-
Generations fence each other off.  Once a job has moved on to a new generation,
nothing that is issued for an earlier one reaches the data of the job.
-/
import SearchTrust.Jobs.Revisions

namespace SearchTrust.Jobs

open SearchTrust.Interleave SearchTrust.Redis

namespace JobOp

/-- The job that an operation moves to a new generation. -/
def regenerated : JobOp → Option UUID
  | takeOverStale job _ _ => some job
  | retryFailed job _ => some job
  | _ => none

/-- The job and the generation that an operation is issued for. -/
def issuedFor : JobOp → Option (UUID × Int)
  | transition a => a.expectedGeneration.map fun generation =>
      (a.jobId, generation)
  | saveCheckpoint checkpoints job _ _ =>
      checkpoints.runGeneration.map fun generation => (job, generation)
  | refreshLease job generation _ _ => some (job, generation)
  | releaseLease job generation _ => some (job, generation)
  | _ => none

theorem revises_of_regenerated {op : JobOp} {job : UUID}
    (h : op.regenerated = some job) : op.Revises job := by
  cases op with
  | takeOverStale => exact h
  | retryFailed => exact h
  | _ => cases h

end JobOp

/-- Nothing changed but, possibly, a lease that `generation` itself holds. -/
structure Fenced (job : UUID) (generation : Int) (r r' : JobRedis) : Prop where
  data : r' = { r with leases := r'.leases }
  leases : ∀ j, (∀ entry ∈ r.leases j, j = job →
    entry.value.generation ≠ generation) → r'.leases j = r.leases j

theorem Fenced.refl (job : UUID) (generation : Int) (r : JobRedis) :
    Fenced job generation r r :=
  ⟨rfl, fun _ _ => rfl⟩

namespace DurableJobStore

variable {store : DurableJobStore} {r : JobRedis} {job : UUID}
  {current : JobState}

/-- A transition that expects another generation raises. -/
theorem transition_of_fenced (hr : r.StatesStored) {a : Transition}
    (hcurrent : r.states.get a.jobId = some current) {generation : Int}
    (hexpected : a.expectedGeneration = some generation)
    (hne : generation ≠ current.runGeneration) :
    store.transition a r = .error .jobLeaseLost := by
  unfold transition
  rw [hr.requireState_eq_ok.2 hcurrent, Except.ok_bind, hexpected]
  simp [hne, Except.throw_eq_error]

/-- Whatever entry stands where a matching lease stood belongs to the matching
generation. -/
theorem generation_of_leaseValue {generation : Int} {token : String}
    (h : r.leases.get job = some (store.leaseValue generation token)) :
    ∃ entry ∈ r.leases job, entry.value.generation = generation := by
  obtain ⟨entry, hentry, hvalue⟩ := Option.map_eq_some_iff.1 h
  exact ⟨entry, hentry, by rw [hvalue]; rfl⟩

theorem refreshLease_fenced (store : DurableJobStore) (job : UUID)
    (generation : Int) (token : String) (ttl : Nat) (r : JobRedis) :
    Fenced job generation r (store.refreshLease job generation token ttl r).2 := by
  unfold refreshLease
  split
  next hheld =>
    obtain ⟨entry, hentry, hgeneration⟩ := generation_of_leaseValue hheld
    refine ⟨rfl, fun j hj => ?_⟩
    have hne : j ≠ job := by
      rintro rfl
      exact hj entry hentry rfl hgeneration
    simp [Table.expire, hne]
  next => exact .refl _ _ _

theorem releaseLease_fenced (store : DurableJobStore) (job : UUID)
    (generation : Int) (token : String) (r : JobRedis) :
    Fenced job generation r (store.releaseLease job generation token r).2 := by
  unfold releaseLease
  split
  next hheld =>
    obtain ⟨entry, hentry, hgeneration⟩ := generation_of_leaseValue hheld
    refine ⟨rfl, fun j hj => ?_⟩
    have hne : j ≠ job := by
      rintro rfl
      exact hj entry hentry rfl hgeneration
    simp [Table.delete, hne]
  next => exact .refl _ _ _

end DurableJobStore

/-- What is issued for a generation that is not the live one of its job changes
nothing but that generation's own lease. -/
theorem performs_fenced {store : DurableJobStore}
    {tick : JobRedis → Nat → JobRedis} {op : JobOp} {w w' : World}
    {res : Except JobException op.Value} {job : UUID} {generation : Int}
    {current : JobState} (hr : w.redis.StatesStored)
    (h : (jobMachine store tick).Performs op w res w')
    (hcurrent : w.redis.states.get job = some current)
    (hne : generation ≠ current.runGeneration)
    (hop : op.issuedFor = some (job, generation)) :
    Fenced job generation w.redis w'.redis := by
  rcases performs_cases h with ⟨reply, hexec⟩ | ⟨_, _, rfl⟩
  · cases op with
    | transition a =>
        obtain ⟨g, hexpected, hpair⟩ := Option.map_eq_some_iff.1 hop
        obtain ⟨rfl, rfl⟩ := Prod.mk.inj hpair
        rcases World.commit_cases (Option.some.inj hexec) with
          ⟨value, redis, hok, _, rfl⟩ | ⟨_, _, _, rfl⟩
        · rw [DurableJobStore.transition_of_fenced hr hcurrent hexpected hne]
            at hok
          cases hok
        · exact .refl _ _ _
    | saveCheckpoint checkpoints j key value =>
        obtain ⟨g, hgeneration, hpair⟩ := Option.map_eq_some_iff.1 hop
        obtain ⟨rfl, rfl⟩ := Prod.mk.inj hpair
        obtain ⟨_, rfl⟩ := Prod.mk.inj (Option.some.inj hexec)
        have hstates : ∀ state, w.redis.states.get j = some state →
            state.runGeneration ≠ g := by
          intro state hstate
          obtain rfl := Option.some.inj (hcurrent.symm.trans hstate)
          exact hne.symm
        have hfenced : store.saveCheckpoint checkpoints j key value w.redis =
            (false, w.redis) :=
          DurableJobStore.saveCheckpoint_of_ne hgeneration hstates key value
        rw [hfenced]
        exact .refl _ _ _
    | refreshLease j g token ttl =>
        obtain ⟨rfl, rfl⟩ := Prod.mk.inj (Option.some.inj hop)
        obtain ⟨_, rfl⟩ := Prod.mk.inj (Option.some.inj hexec)
        exact DurableJobStore.refreshLease_fenced store j g token ttl w.redis
    | releaseLease j g token =>
        obtain ⟨rfl, rfl⟩ := Prod.mk.inj (Option.some.inj hop)
        obtain ⟨_, rfl⟩ := Prod.mk.inj (Option.some.inj hexec)
        exact DurableJobStore.releaseLease_fenced store j g token w.redis
    | _ => cases hop
  · exact .refl _ _ _

section Runs

variable {store : DurableJobStore} {ι : Type} [DecidableEq ι]

/-- A run of the first generation is taken over and then reports its next
stage. -/
def overtakenPool : Bool → Proc Unit
  | false => do
      let _ ← call (.registerJob sampleRegistration)
      let _ ← call (.transition sampleRunning)
  | true => do let _ ← call (.takeOverStale 1 1 10)

end Runs

end SearchTrust.Jobs
