/-
The lease of a physical run.  It is taken by its own execution only; whether it
keeps other executions away depends on when it is taken and when it is lost.
-/
import SearchTrust.Jobs.Fencing
import SearchTrust.Jobs.Reconciler
import SearchTrust.Jobs.Worker

namespace SearchTrust.Jobs

open SearchTrust.Interleave SearchTrust.Interleave.Program SearchTrust.Redis

namespace JobOp

def acquires : JobOp → Bool
  | acquireLease _ _ _ _ => true
  | _ => false

/-- The job and the generation whose lease a call has taken. -/
def leased : (op : JobOp) → Except JobException op.Value → Option (UUID × Int)
  | acquireLease job generation _ _, .ok true => some (job, generation)
  | _, _ => none

theorem not_acquires_of_whileLeased {n : Nat} {op : JobOp}
    (h : op.whileLeased n = true) : op.acquires = false := by
  cases op <;> first | rfl | cases h

end JobOp

section Calls

variable {store : DurableJobStore} {tick : JobRedis → Nat → JobRedis}
  {op : JobOp} {w w' : World} {res : Except JobException op.Value} {job : UUID}

/-- No job has a lease that it did not have before. -/
def LeasesKept (r r' : JobRedis) : Prop :=
  ∀ job value, r'.leases.get job = some value → r.leases.get job = some value

theorem LeasesKept.of_eq {r r' : JobRedis} (h : r'.leases = r.leases) :
    LeasesKept r r' := by
  intro job value hvalue
  rwa [h] at hvalue

theorem LeasesKept.of_delete {r r' : JobRedis}
    (h : r'.leases = r.leases.delete job) : LeasesKept r r' := by
  intro j value hvalue
  rw [h] at hvalue
  by_cases hj : j = job
  · subst hj
    simp at hvalue
  · rwa [Table.get_delete_of_ne _ hj] at hvalue

/-- Time only takes leases away. -/
theorem leasesKept_drifts {w w' : World}
    (h : (durableMachine store).Drifts w w') : LeasesKept w.redis w'.redis := by
  obtain ⟨(seconds : Nat), hdrift⟩ := h
  obtain rfl := Option.some.inj hdrift
  intro job value hvalue
  rcases Table.get_purge w.redis.leases (w.redis.clock + seconds) job with
    hnone | hsame
  · cases hnone.symm.trans hvalue
  · exact hsame.symm.trans hvalue

/-- What `acquire_lease` does: it takes a lease that nobody holds. -/
theorem acquireLease_cases (store : DurableJobStore) (job : UUID)
    (generation : Int) (token : String) (ttl : Nat) (r : JobRedis) :
    (∃ entry, r.leases job = some entry ∧
      store.acquireLease job generation token ttl r = (false, r)) ∨
    (r.leases job = none ∧ store.acquireLease job generation token ttl r =
      (true,
        { r with
          leases := r.leases.set job (store.leaseValue generation token)
            (r.clock + ttl) })) := by
  unfold DurableJobStore.acquireLease
  cases hlease : r.leases job with
  | none => exact Or.inr ⟨rfl, rfl⟩
  | some entry => exact Or.inl ⟨entry, rfl, rfl⟩

theorem Write.leasesKept {r r' : JobRedis} (h : Write store r op r')
    (hop : op.acquires = false) : LeasesKept r r' := by
  cases h with
  | leaseTaken => cases hop
  | leaseRenewed j generation token ttl =>
      intro i value hvalue
      exact (Table.get_expire _ _ _ _).symm.trans hvalue
  | takenOver | leaseReleased | jobDropped => exact .of_delete rfl
  | _ => exact .of_eq rfl

/-- Only `acquire_lease` gives a job a lease. -/
theorem performs_leasesKept (hr : w.redis.StatesStored)
    (h : (jobMachine store tick).Performs op w res w')
    (hop : op.acquires = false) : LeasesKept w.redis w'.redis := by
  rcases performs_write hr h with hsame | hwrite
  · exact .of_eq (congrArg JobRedis.leases hsame)
  · exact hwrite.leasesKept hop

/-- A job keeps its generation, unless a call moves it to a new one. -/
theorem JobChange.generation {v v' : JobView} (h : JobChange store job op v v')
    {s : JobState} (hs : v.state = some s) :
    ∃ t, v'.state = some t ∧ (t.runGeneration = s.runGeneration ∨
      JobOp.regenerated op = some job) := by
  cases h with
  | unchanged => exact ⟨s, hs, Or.inl rfl⟩
  | registered _ _ _ _ habsent => simp [habsent] at hs
  | moved a current next _ _ hcurrent hfits =>
      obtain rfl := Option.some.inj (hcurrent.symm.trans hs)
      obtain ⟨rfl, _⟩ := JobState.modelValidate_eq_ok_iff.1 hfits.validated
      exact ⟨_, rfl, Or.inl rfl⟩
  | takenOver _ _ next hop => exact ⟨next, rfl, Or.inr (hop ▸ rfl)⟩
  | reopened _ _ next hop => exact ⟨next, rfl, Or.inr (hop ▸ rfl)⟩
  | synced _ current _ hcurrent =>
      obtain rfl := Option.some.inj (hcurrent.symm.trans hs)
      exact ⟨_, rfl, Or.inl rfl⟩
  | enqueued => exact ⟨s, hs, Or.inl rfl⟩
  | discarded => exact ⟨s, hs, Or.inl rfl⟩
  | purged _ habsent => simp [habsent] at hs

/-- A takeover takes the lease away with the generation. -/
theorem performs_takeOverStale {generation : Int} {now : Instant}
    {res : Except JobException TransitionResult} (hr : w.redis.StatesStored)
    (h : (jobMachine store tick).Performs (.takeOverStale job generation now) w res
      w') : w' = w ∨ w'.redis.leases.get job = none := by
  rcases performs_cases h with ⟨reply, hexec⟩ | ⟨_, _, rfl⟩
  · rcases World.commit_cases (Option.some.inj hexec) with
      ⟨value, redis, hok, _, rfl⟩ | ⟨_, _, _, rfl⟩
    · obtain ⟨_, _, ⟨_, rfl⟩ | ⟨_, _, _, _, _, _, rfl⟩⟩ :=
        DurableJobStore.takeOverStale_cases hr hok
      · exact Or.inl rfl
      · exact Or.inr (Table.get_delete_self _ _)
    · exact Or.inl rfl
  · exact Or.inl rfl

theorem performs_acquireLease {generation : Int} {token : String} {ttl : Nat}
    {res : Except JobException Bool}
    (h : (jobMachine store tick).Performs (.acquireLease job generation token ttl) w
      res w') :
    (∃ entry, w.redis.leases job = some entry ∧ res = .ok false ∧ w' = w) ∨
    (w.redis.leases job = none ∧ res = .ok true ∧ w' =
      { w with
        redis :=
          { w.redis with
            leases := w.redis.leases.set job (store.leaseValue generation token)
              (w.redis.clock + ttl) } }) ∨
    ∃ reason : Interruption, res = .error reason.exception ∧ w' = w := by
  rcases performs_cases h with ⟨reply, hexec⟩ | ⟨reason, hres, rfl⟩
  · obtain ⟨rfl, rfl⟩ := Prod.mk.inj (Option.some.inj hexec)
    rcases acquireLease_cases store job generation token ttl w.redis with
      ⟨entry, hentry, heq⟩ | ⟨hfree, heq⟩
    · rw [heq]
      exact Or.inl ⟨entry, hentry, rfl, rfl⟩
    · rw [heq]
      exact Or.inr (Or.inl ⟨hfree, rfl, rfl⟩)
  · exact Or.inr (Or.inr ⟨reason, hres, rfl⟩)

end Calls

section OwnGeneration

/-- Execution `n` has taken the lease of a generation of a job. -/
def AcquiredBy (n : Nat) (job : UUID) (generation : Int)
    (history : List WorkerEvent) : Prop :=
  ∃ e ∈ history, e.actor = .execution n ∧
    JobOp.leased e.op e.result = some (job, generation)

theorem AcquiredBy.mono {n : Nat} {job : UUID} {generation : Int}
    {history : List WorkerEvent} (h : AcquiredBy n job generation history)
    (e : WorkerEvent) : AcquiredBy n job generation (e :: history) := by
  obtain ⟨e', he', hleased⟩ := h
  exact ⟨e', List.mem_cons_of_mem e he', hleased⟩

/-- A lease is taken for the live generation of its job only, and no job is
retried by hand while a lease of it is held. -/
def LeasesCurrent : CallCondition jobSignature JobException World Actor :=
  fun c e =>
    (∀ job generation token ttl,
      e.op = .acquireLease job generation token ttl →
      c.state.redis.leases job = none →
      ∃ s, c.state.redis.states.get job = some s ∧
        s.runGeneration = generation) ∧
    ∀ job now, e.op = .retryFailed job now → c.state.redis.leases job = none

namespace Deployment

variable (dep : Deployment) (store : DurableJobStore)

/-- Execution `m` has taken the lease of its job, and the lease is its own. -/
def Holds (m : Nat) (c : WorkerConfig) : Prop :=
  let d := dep.deliveries m
  AcquiredBy m d.jobId d.runGeneration c.history ∧
    c.state.redis.leases.get d.jobId =
      some (store.leaseValue d.runGeneration d.leaseToken)

/-- Some execution of a generation of a job holds the lease of the job. -/
def HeldFor (job : UUID) (generation : Int) (c : WorkerConfig) : Prop :=
  ∃ m, (dep.deliveries m).jobId = job ∧
    (dep.deliveries m).runGeneration = generation ∧ dep.Holds store m c

/-- Leases are taken by executions, each for itself; then every lease belongs to
the live generation of its job. -/
def leaseDiscipline : Discipline jobSignature JobException World Actor where
  inv c := c.state.redis.StatesStored ∧
    ∀ job value, c.state.redis.leases.get job = some value →
      (∃ s, c.state.redis.states.get job = some s ∧
        s.runGeneration = value.generation) ∧
      dep.HeldFor store job value.generation c
  cond := LeasesCurrent
  goal _ e := e.op.acquires = true → ∃ m ttl, e.actor = .execution m ∧
    e.op = .acquireLease (dep.deliveries m).jobId
      (dep.deliveries m).runGeneration (dep.deliveries m).leaseToken ttl

variable {dep store}

/-- The holder of a lease stays its holder while the lease is there. -/
theorem HeldFor.mono {c c' : WorkerConfig} {job : UUID} {generation : Int}
    (h : dep.HeldFor store job generation c)
    (hhistory : ∀ n j g, AcquiredBy n j g c.history → AcquiredBy n j g c'.history)
    (hleases : c'.state.redis.leases.get job = c.state.redis.leases.get job) :
    dep.HeldFor store job generation c' := by
  obtain ⟨m, rfl, hgeneration, hacquired, hlease⟩ := h
  exact ⟨m, rfl, hgeneration, hhistory _ _ _ hacquired, hleases.trans hlease⟩

/-- A lease that a call has left in place is still of the live generation. -/
theorem lease_kept {c : WorkerConfig} {e : WorkerEvent} {rest : Proc Unit}
    (hinv : (dep.leaseDiscipline store).inv c)
    (hen : Enabled (durableMachine store) LeasesCurrent c e rest) {job : UUID}
    {value : LeaseValue} (hbefore : c.state.redis.leases.get job = some value)
    (hafter : e.after.redis.leases.get job = some value) :
    (∃ s, e.after.redis.states.get job = some s ∧
      s.runGeneration = value.generation) ∧
    dep.HeldFor store job value.generation (c.perform e rest) := by
  obtain ⟨hstored, hleases⟩ := hinv
  obtain ⟨⟨s, hs, hgeneration⟩, hheld⟩ := hleases job value hbefore
  refine ⟨?_, hheld.mono (fun _ _ _ h => h.mono e) (hafter.trans hbefore.symm)⟩
  obtain ⟨t, ht, hsame | hmoved⟩ :=
    (performs_change hstored hen.performs job).generation hs
  · exact ⟨t, ht, hsame.trans hgeneration⟩
  · -- A takeover deletes the lease; a manual retry finds none.
    obtain ⟨actor, op, result, before, after⟩ := e
    cases op with
    | takeOverStale j generation now =>
        obtain rfl : j = job := Option.some.inj hmoved
        rcases performs_takeOverStale hstored hen.performs with hunchanged | hnone
        · exact ⟨s, hunchanged ▸ hs, hgeneration⟩
        · rw [hnone] at hafter
          cases hafter
    | retryFailed j now =>
        obtain rfl : j = job := Option.some.inj hmoved
        have hnone := hen.meets.2 j now rfl
        simp [Table.get, hnone] at hbefore
    | _ => cases hmoved

theorem leaseDiscipline_kept :
    (dep.leaseDiscipline store).Kept (durableMachine store) where
  act := by
    intro c e rest hinv hen hgoal
    have hchange := performs_change hinv.1 hen.performs
    refine ⟨fun job => (hchange job).stored (hinv.1.view job), ?_⟩
    intro job value hafter
    cases hop : e.op.acquires with
    | false =>
        exact lease_kept hinv hen
          (performs_leasesKept hinv.1 hen.performs hop job value hafter) hafter
    | true =>
        obtain ⟨m, ttl, hactor, hacquire⟩ := hgoal hop
        obtain ⟨actor, op, result, before, after⟩ := e
        obtain rfl : op = _ := hacquire
        rcases performs_acquireLease hen.performs with
          ⟨_, _, _, rfl⟩ | ⟨hfree, rfl, rfl⟩ | ⟨_, _, rfl⟩
        · exact lease_kept hinv hen hafter hafter
        · by_cases hjob : job = (dep.deliveries m).jobId
          · subst hjob
            obtain ⟨s, hs, hgeneration⟩ := hen.meets.1 _ _ _ _ rfl hfree
            obtain rfl := Option.some.inj
              ((Table.get_set_self _ _ _ _).symm.trans hafter)
            exact ⟨⟨s, hs, hgeneration⟩, m, rfl, rfl,
              ⟨_, List.mem_cons_self, hactor, rfl⟩, hafter⟩
          · have hbefore : c.state.redis.leases.get job = some value :=
              (Table.get_set_of_ne _ hjob _ _).symm.trans hafter
            exact lease_kept hinv hen hbefore hafter
        · exact lease_kept hinv hen hafter hafter
  drift := by
    rintro c after ⟨hstored, hleases⟩ hdrift
    have hview : ∀ job, after.redis.states.get job =
        c.state.redis.states.get job := fun job =>
      congrArg JobView.state (view_drifts hdrift job)
    refine ⟨fun job s hs => hstored job s ((hview job).symm.trans hs), ?_⟩
    intro job value hafter
    have hbefore := leasesKept_drifts hdrift job value hafter
    obtain ⟨⟨s, hs, hgeneration⟩, hheld⟩ := hleases job value hbefore
    refine ⟨⟨s, (hview job).trans hs, hgeneration⟩, ?_⟩
    exact hheld.mono (fun _ _ _ h => h) (hafter.trans hbefore.symm)
  crash := fun _ h => h

theorem safe_of_not_acquires {α : Type} {p : Proc α} {i : Actor}
    {A : WorkerConfig → Prop}
    (hp : p.OnlyCalls fun op : JobOp => op.acquires = false) :
    Safe (durableMachine store) (dep.leaseDiscipline store) i p A
      fun _ _ => True := by
  refine ((Safe.of_onlyCalls (A := fun _ => True) hp (.const True) ?_).weaken
    fun _ _ _ _ => trivial).strengthen fun _ _ _ => trivial
  intro c op result after hop _ _ _ _
  refine ⟨fun hacquires => ?_, fun _ => trivial⟩
  rw [show op.acquires = false from hop] at hacquires
  cases hacquires

/-- An execution takes no lease but its own. -/
theorem safe_executeV22Job (n : Nat) :
    Safe (durableMachine store) (dep.leaseDiscipline store) (.execution n)
      (dep.ctx.executeV22Job n (dep.deliveries n)) (fun _ => True)
      fun _ _ => True := by
  have hread : (requireState (dep.deliveries n).jobId).OnlyCalls
      fun op : JobOp => op.acquires = false := by
    refine OnlyCalls.bind (onlyCalls_call rfl) fun found => ?_
    cases found <;> trivial
  refine (safe_of_not_acquires hread).andThen fun state => ?_
  split
  next => exact Safe.done
  next =>
    refine Safe.andThen ?_ fun acquired => ?_
    · refine Safe.perform_post (fun _ => .const True) ?_
      intro c result after _ _ _ _
      exact ⟨fun _ => ⟨n, _, rfl, rfl⟩, fun _ _ => trivial⟩
    · cases acquired with
      | true =>
          exact safe_of_not_acquires ((WorkerContext.onlyCalls_holdLease state).mono
            fun _ => JobOp.not_acquires_of_whileLeased)
      | false => exact Safe.done

/-- Outside the deployed executions nobody takes a lease. -/
theorem leaseDiscipline_safe
    (hclients : ∀ n, (dep.clients n).OnlyCalls
      fun op : JobOp => op.acquires = false) (i : Actor) :
    SafeAt (durableMachine store) (dep.leaseDiscipline store)
      (start World.initial dep.pool) i := by
  refine SafeAt.of_safe (Q := fun _ _ => True) (.const True) trivial ?_
  cases i with
  | execution n => exact safe_executeV22Job n
  | heartbeat n =>
      exact safe_of_not_acquires (WorkerContext.whileLeased_maintainHeartbeat.mono
        fun _ => JobOp.not_acquires_of_whileLeased)
  | client n => exact safe_of_not_acquires (hclients n)

theorem leaseDiscipline_initial :
    (dep.leaseDiscipline store).inv (start World.initial dep.pool) :=
  ⟨statesStored_initial, by rintro job value ⟨⟩⟩

/-- What an execution that has no lease yet still has to do. -/
def BeforeLease (n : Nat) (p : Proc Unit) : Prop :=
  p = dep.ctx.executeV22Job n (dep.deliveries n) ∨
    (∃ state, p = dep.ctx.takeLease n (dep.deliveries n) state) ∨ p.Finished

/-- Before it has its lease an execution reads the state of its job and asks for
the lease, and it returns only on what it has found there. -/
theorem returns_before_lease {c : WorkerConfig} {e : WorkerEvent}
    {rest : Proc Unit} {n : Nat} {cond}
    (hstored : c.state.redis.StatesStored)
    (hen : Enabled (durableMachine store) cond c e rest)
    (hpool : dep.BeforeLease n (c.pool e.actor)) (hactor : e.actor = .execution n) :
    let d := dep.deliveries n
    (AcquiredBy n d.jobId d.runGeneration (e :: c.history) ∨
      dep.BeforeLease n rest) ∧
    (rest = .ret () →
      (∃ t, c.state.redis.states.get d.jobId = some t ∧
        (t.terminal = true ∨ t.runGeneration ≠ d.runGeneration)) ∨
      ∃ value, c.state.redis.leases.get d.jobId = some value) := by
  obtain ⟨actor, op, result, before, after⟩ := e
  obtain ⟨⟨k, hcall, hrest⟩, _, hperforms, _⟩ := hen
  simp only at hcall hrest hperforms hactor hpool
  rw [hcall] at hpool
  rcases hpool with hfirst | ⟨state, hsecond⟩ | hfinished
  · obtain ⟨rfl, hk⟩ := Program.call.inj hfirst
    obtain rfl := eq_of_heq hk
    obtain ⟨_, rfl | ⟨reason, rfl⟩⟩ := performs_getState hstored hperforms
    · cases hget : c.state.redis.states.get (dep.deliveries n).jobId with
      | none =>
          rw [hget] at hrest
          subst hrest
          exact ⟨Or.inr (Or.inr (Or.inr trivial)), by rintro ⟨⟩⟩
      | some t =>
          rw [hget] at hrest
          by_cases hover : t.terminal = true ∨
              t.runGeneration ≠ (dep.deliveries n).runGeneration
          · refine ⟨Or.inr (Or.inr (Or.inr ?_)), fun _ => Or.inl ⟨t, hget, hover⟩⟩
            rw [hrest]
            show Program.Finished (if _ then _ else _)
            rw [if_pos hover]
            trivial
          · have hnext : rest = dep.ctx.takeLease n (dep.deliveries n) t :=
              hrest.trans (if_neg hover)
            refine ⟨Or.inr (Or.inr (Or.inl ⟨t, hnext⟩)), fun hreturn => ?_⟩
            cases hnext.symm.trans hreturn
    · subst hrest
      exact ⟨Or.inr (Or.inr (Or.inr trivial)), by rintro ⟨⟩⟩
  · obtain ⟨rfl, hk⟩ := Program.call.inj hsecond
    obtain rfl := eq_of_heq hk
    rcases performs_acquireLease hperforms with
      ⟨entry, hentry, rfl, _⟩ | ⟨_, rfl, _⟩ | ⟨reason, rfl, _⟩
    · subst hrest
      refine ⟨Or.inr (Or.inr (Or.inr trivial)), fun _ => Or.inr ⟨entry.value, ?_⟩⟩
      simp [Table.get, hentry]
    · subst hrest
      refine ⟨Or.inl ⟨_, List.mem_cons_self, hactor, rfl⟩, by rintro ⟨⟩⟩
    · subst hrest
      exact ⟨Or.inr (Or.inr (Or.inr trivial)), by rintro ⟨⟩⟩
  · exact hfinished.elim

/-- In a run an execution that has not taken its lease is still before it. -/
theorem beforeLease_of_run {c : WorkerConfig} {cond}
    (hrun : Run (durableMachine store) cond (start World.initial dep.pool) c)
    (n : Nat) :
    AcquiredBy n (dep.deliveries n).jobId (dep.deliveries n).runGeneration
      c.history ∨ dep.BeforeLease n (c.pool (.execution n)) := by
  induction hrun with
  | refl => exact Or.inr (Or.inl rfl)
  | @tail d _ hprev hstep ih =>
      have hstored := statesStored_of_run hprev statesStored_initial
      cases hstep with
      | @act e rest hen =>
          rcases ih with hacquired | hbefore
          · exact Or.inl (hacquired.mono e)
          rw [Config.perform_pool]
          by_cases hactor : e.actor = .execution n
          · have hpool : dep.BeforeLease n (d.pool e.actor) := hactor ▸ hbefore
            rw [← hactor, Function.update_self]
            exact (returns_before_lease hstored hen hpool hactor).1
          · rw [Function.update_of_ne (Ne.symm hactor)]
            exact Or.inr hbefore
      | drift => exact ih
      | crash j =>
          refine ih.imp id fun hbefore => ?_
          rw [Config.crash_pool]
          by_cases hj : Actor.execution n = j
          · subst hj
            rw [Function.update_self]
            exact Or.inr (Or.inr trivial)
          · rwa [Function.update_of_ne hj]

end Deployment

section Runs

variable {store : DurableJobStore} {c : WorkerConfig}

/-- In every run in which leases are taken for live generations only, a lease
always belongs to the live generation of its job, and an execution of the live
generation that returns without having had the lease leaves it to an execution
of the same generation that holds it. -/
theorem refused_by_own_generation (dep : Deployment)
    (hclients : ∀ n, (dep.clients n).OnlyCalls
      fun op : JobOp => op.acquires = false)
    (hrun : Run (durableMachine store) LeasesCurrent
      (start World.initial dep.pool) c) :
    (∀ job value, c.state.redis.leases.get job = some value →
      ∃ s, c.state.redis.states.get job = some s ∧
        s.runGeneration = value.generation) ∧
    ∀ n e rest s, Enabled (durableMachine store) LeasesCurrent c e rest →
      e.actor = .execution n → rest = .ret () →
      ¬ AcquiredBy n (dep.deliveries n).jobId (dep.deliveries n).runGeneration
        c.history →
      c.state.redis.states.get (dep.deliveries n).jobId = some s →
      s.terminal = false → s.runGeneration = (dep.deliveries n).runGeneration →
      dep.HeldFor store (dep.deliveries n).jobId
        (dep.deliveries n).runGeneration c := by
  obtain ⟨⟨hstored, hleases⟩, _⟩ :=
    (dep.leaseDiscipline store).sound Deployment.leaseDiscipline_kept
      Deployment.leaseDiscipline_initial
      (Deployment.leaseDiscipline_safe hclients) hrun
  refine ⟨fun job value h => (hleases job value h).1, ?_⟩
  intro n e rest s hen hactor hreturn hidle hs halive hlive
  have hbefore := (Deployment.beforeLease_of_run hrun n).resolve_left hidle
  have hpool : dep.BeforeLease n (c.pool e.actor) := hactor ▸ hbefore
  rcases (Deployment.returns_before_lease hstored hen hpool hactor).2 hreturn with
    ⟨t, ht, hover⟩ | ⟨value, hvalue⟩
  · obtain rfl := Option.some.inj (hs.symm.trans ht)
    rcases hover with hterminal | hother
    · simp [halive] at hterminal
    · exact absurd hlive hother
  · obtain ⟨⟨t, ht, hgeneration⟩, hheld⟩ := hleases _ value hvalue
    obtain rfl := Option.some.inj (hs.symm.trans ht)
    rwa [← hlive, hgeneration]

/-- The first generation of the sample job is delivered twice. -/
def twiceDelivered : Deployment where
  ctx := sampleContext
  deliveries
    | 0 => sampleDelivery 1 "a" (.raise .unexpected)
    | _ => sampleDelivery 1 "b" (.raise .unexpected)
  clients := sampleClients

theorem not_acquires_sampleClients (n : Nat) :
    (sampleClients n).OnlyCalls fun op : JobOp => op.acquires = false := by
  have hread : ∀ op : JobOp, op.readsOnly = true → op.acquires = false :=
    fun _ h => JobOp.not_acquires_of_whileLeased
      (JobOp.whileLeased_of_readsOnly (n := 0) h)
  match n with
  | 0 => exact (onlyCalls_registerJob hread rfl).bind fun _ => trivial
  | 1 => exact (onlyCalls_takeOverStale hread rfl).bind fun _ => trivial
  | _ + 2 => trivial

/-- The check that a lease is taken for the live generation. -/
def takesLiveLease (c : WorkerConfig) (e : WorkerEvent) : Bool :=
  match e.op with
  | .acquireLease job generation _ _ =>
      (c.state.redis.states.get job).any (·.runGeneration = generation)
  | .retryFailed _ _ => false
  | _ => true

theorem leasesCurrent_of_takesLiveLease (c : WorkerConfig) (e : WorkerEvent)
    (h : takesLiveLease c e = true) : LeasesCurrent c e := by
  obtain ⟨actor, op, result, before, after⟩ := e
  constructor
  · rintro job generation token ttl rfl _
    obtain ⟨s, hs, hlive⟩ := Option.any_eq_true _ _ |>.1 h
    exact ⟨s, hs, of_decide_eq_true hlive⟩
  · rintro job now rfl
    cases h

/-- The check of an execution that has had no lease. -/
def neverLeased (n : Nat) (c : WorkerConfig) : Bool :=
  c.history.all fun e =>
    !(decide (e.actor = .execution n) && (JobOp.leased e.op e.result).isSome)

theorem not_acquiredBy_of_neverLeased {n : Nat} {job : UUID} {generation : Int}
    (h : neverLeased n c = true) : ¬ AcquiredBy n job generation c.history := by
  rintro ⟨e, he, hactor, hleased⟩
  have hnot := List.all_eq_true.1 h e he
  simp [hactor, hleased] at hnot

theorem second_delivery_refused :
    ∃ (c : WorkerConfig) (e : WorkerEvent) (rest : Proc Unit),
      Run (durableMachine sampleStore) LeasesCurrent
        (start World.initial twiceDelivered.pool) c ∧
      Enabled (durableMachine sampleStore) LeasesCurrent c e rest ∧
      e.actor = .execution 1 ∧ rest = .ret () ∧
      twiceDelivered.HeldFor sampleStore 1 1 c := by
  have hplay : (play (M := durableMachine sampleStore) takesLiveLease
      [.act (.client 0) quiet, .act (.execution 0) quiet,
        .act (.execution 0) quiet, .act (.execution 1) quiet]
      (start World.initial twiceDelivered.pool)).any (fun c =>
        neverLeased 1 c &&
        (c.state.redis.states.get 1).any (fun s =>
          decide (s.terminal = false) && decide (s.runGeneration = 1)) &&
        (nextCall (durableMachine sampleStore) takesLiveLease c (.execution 1)
          quiet).any fun p =>
            decide (p.1.actor = .execution 1) && p.2.returned) = true := by
    decide
  obtain ⟨c, hrun, htest⟩ := exists_run_of_play leasesCurrent_of_takesLiveLease hplay
  simp only [Bool.and_eq_true] at htest
  obtain ⟨⟨hnever, hstate⟩, hcall⟩ := htest
  obtain ⟨s, hs, hlive⟩ := Option.any_eq_true _ _ |>.1 hstate
  simp only [Bool.and_eq_true, decide_eq_true_eq] at hlive
  obtain ⟨e, rest, hen, htest⟩ :=
    exists_enabled_of_nextCall leasesCurrent_of_takesLiveLease hcall
  simp only [Bool.and_eq_true, decide_eq_true_eq] at htest
  have hreturn := Program.eq_ret_of_returned htest.2
  exact ⟨c, e, rest, hrun, hen, htest.1, hreturn,
    (refused_by_own_generation twiceDelivered not_acquires_sampleClients hrun).2
      1 e rest s hen htest.1 hreturn (not_acquiredBy_of_neverLeased hnever) hs
      hlive.1 hlive.2⟩

/-- The first generation of the sample job is delivered, and then the second. -/
def overtakenDelivery : Deployment where
  ctx := sampleContext
  deliveries
    | 0 => sampleDelivery 1 "a" (.raise .unexpected)
    | _ => sampleDelivery 2 "b" (.raise .unexpected)
  clients := sampleClients

/-- A delivery reads its generation, is overtaken, and takes the lease that the
takeover has freed; the delivery of the live generation then returns without
running, although no execution of that generation holds the lease. -/
theorem overtaken_delivery_takes_lease :
    ∃ (c : WorkerConfig) (e : WorkerEvent) (rest : Proc Unit) (s : JobState),
      Run (durableMachine sampleStore) Anything
        (start World.initial overtakenDelivery.pool) c ∧
      Enabled (durableMachine sampleStore) Anything c e rest ∧
      e.actor = .execution 1 ∧ rest = .ret () ∧
      ¬ AcquiredBy 1 1 2 c.history ∧
      c.state.redis.states.get 1 = some s ∧ s.terminal = false ∧
      s.runGeneration = 2 ∧ overtakenDelivery.HeldFor sampleStore 1 1 c ∧
      ¬ overtakenDelivery.HeldFor sampleStore 1 2 c := by
  have hplay : (play (M := durableMachine sampleStore) (fun _ _ => true)
      [.act (.client 0) quiet, .act (.execution 0) quiet,
        .act (.client 1) quiet, .act (.execution 0) quiet,
        .act (.execution 1) quiet]
      (start World.initial overtakenDelivery.pool)).any (fun c =>
        neverLeased 1 c &&
        (c.state.redis.states.get 1).any (fun s =>
          decide (s.terminal = false) && decide (s.runGeneration = 2)) &&
        decide (c.state.redis.leases.get 1 =
          some (sampleStore.leaseValue 1 "a")) &&
        c.history.any (fun e => decide (e.actor = .execution 0) &&
          decide (JobOp.leased e.op e.result = some (1, 1))) &&
        (nextCall (durableMachine sampleStore) (fun _ _ => true) c (.execution 1)
          quiet).any fun p =>
            decide (p.1.actor = .execution 1) && p.2.returned) = true := by
    decide
  obtain ⟨c, hrun, htest⟩ := exists_run_of_play (fun _ _ _ => trivial) hplay
  simp only [Bool.and_eq_true, decide_eq_true_eq] at htest
  obtain ⟨⟨⟨⟨hnever, hstate⟩, hlease⟩, hacquired⟩, hcall⟩ := htest
  obtain ⟨s, hs, hlive⟩ := Option.any_eq_true _ _ |>.1 hstate
  simp only [Bool.and_eq_true, decide_eq_true_eq] at hlive
  obtain ⟨e', he', hevent⟩ := List.any_eq_true.1 hacquired
  simp only [Bool.and_eq_true, decide_eq_true_eq] at hevent
  obtain ⟨e, rest, hen, htest⟩ :=
    exists_enabled_of_nextCall (fun _ _ _ => trivial) hcall
  simp only [Bool.and_eq_true, decide_eq_true_eq] at htest
  refine ⟨c, e, rest, s, hrun, hen, htest.1, Program.eq_ret_of_returned htest.2,
    not_acquiredBy_of_neverLeased hnever, hs, hlive.1, hlive.2, ?_, ?_⟩
  · exact ⟨0, rfl, rfl, ⟨e', he', hevent⟩, hlease⟩
  · rintro ⟨m, hjob, hgeneration, _, hother⟩
    rw [hjob, hlease] at hother
    have hsame : 1 = (overtakenDelivery.deliveries m).runGeneration :=
      congrArg LeaseValue.generation (Option.some.inj hother)
    omega

end Runs

end OwnGeneration

end SearchTrust.Jobs
