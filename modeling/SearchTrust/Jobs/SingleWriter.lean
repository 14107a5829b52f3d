/-
The executions of one physical run write one after the other, as long as each of
them has made its last write when the next one takes the lease.
-/
import SearchTrust.Jobs.Leases

namespace SearchTrust.Jobs

open SearchTrust.Interleave SearchTrust.Interleave.Program SearchTrust.Redis

namespace JobOp

/-- The operation writes a state or a cost of a job for its execution. -/
def writes : JobOp → Bool
  | transition _ | recordJobAttempt _ | recordCost _ => true
  | _ => false

/-- The heartbeat task that an operation starts. -/
def starts : JobOp → Option Nat
  | startHeartbeat n => some n
  | _ => none

theorem starts_of_whileLeased {n m : Nat} {op : JobOp}
    (h : op.whileLeased n = true) (hop : op.starts = some m) : m = n := by
  cases op with
  | startHeartbeat x =>
      obtain rfl := Option.some.inj hop
      exact of_decide_eq_true h
  | _ => cases hop

end JobOp

/-- The execution that an actor works for. -/
def Actor.worker : Actor → Option Nat
  | execution n => some n
  | heartbeat n => some n
  | client _ => none

section Tasks

variable {store : DurableJobStore} {tick : JobRedis → Nat → JobRedis}
  {op : JobOp} {w w' : World} {res : Except JobException op.Value}

theorem tasks_commit {α : Type} {x : Except JobException (α × JobRedis)}
    {res : Except JobException α} (h : w.commit x = (res, w')) :
    w'.tasks = w.tasks := by
  rcases World.commit_cases h with ⟨_, _, _, _, rfl⟩ | ⟨_, _, _, rfl⟩ <;> rfl

theorem started_setTask {n m : Nat} {task : HeartbeatTask}
    (h : ((w.setTask n task).tasks m).started = true)
    (htask : task.started = (w.tasks n).started) : (w.tasks m).started = true := by
  by_cases hm : m = n
  · subst hm
    rw [← htask]
    simpa [World.setTask] using h
  · simpa [World.setTask, hm] using h

/-- A heartbeat task is started by `startHeartbeat` only. -/
theorem performs_started (h : (jobMachine store tick).Performs op w res w') {m : Nat}
    (hstarted : (w'.tasks m).started = true) :
    (w.tasks m).started = true ∨ op.starts = some m := by
  rcases performs_cases h with ⟨reply, hexec⟩ | ⟨_, _, rfl⟩
  · cases op with
    | registerJob | getState | transition | takeOverStale | retryFailed
    | markCallbackSynced | markRecoveryEnqueued =>
        rw [tasks_commit (Option.some.inj hexec)] at hstarted
        exact Or.inl hstarted
    | startHeartbeat x =>
        obtain ⟨_, rfl⟩ := Prod.mk.inj (Option.some.inj hexec)
        by_cases hm : m = x
        · exact Or.inr (congrArg some hm.symm)
        · refine Or.inl ?_
          simpa [World.setTask, hm] using hstarted
    | stopHeartbeat x | setHeartbeatLost x | endHeartbeat x =>
        obtain ⟨_, rfl⟩ := Prod.mk.inj (Option.some.inj hexec)
        exact Or.inl (started_setTask hstarted rfl)
    | awaitHeartbeatStart x | awaitHeartbeatEnd x =>
        simp only [JobOp.exec, Option.ite_none_right_eq_some] at hexec
        obtain ⟨_, rfl⟩ := Prod.mk.inj (Option.some.inj hexec.2)
        exact Or.inl hstarted
    | _ =>
        -- The rest does not touch the tasks.
        obtain ⟨_, rfl⟩ := Prod.mk.inj (Option.some.inj hexec)
        exact Or.inl hstarted
  · exact Or.inl hstarted

/-- A heartbeat task that goes on has been started. -/
theorem performs_awaitHeartbeatStart {n : Nat}
    {res : Except JobException Unit}
    (h : (jobMachine store tick).Performs (.awaitHeartbeatStart n) w res w') :
    (w.tasks n).started = true := by
  obtain ⟨answer, hexec⟩ := h
  cases answer with
  | proceed reply =>
      simp only [jobMachine, JobOp.exec] at hexec
      split at hexec
      next hstarted => exact hstarted
      next => cases hexec
  | interrupt reason => cases hexec

end Tasks

section Handover

/-- The execution whose call took the lease of a generation of a job. -/
def takenBy (job : UUID) (generation : Int) (e : WorkerEvent) : Option Nat :=
  match e.actor with
  | .execution n =>
      if JobOp.leased e.op e.result = some (job, generation) then some n else none
  | _ => none

/-- The execution that was the last to take the lease of a generation. -/
def lastHolder (job : UUID) (generation : Int) (history : List WorkerEvent) :
    Option Nat :=
  history.findSome? (takenBy job generation)

theorem takenBy_eq_some_iff {job : UUID} {generation : Int} {e : WorkerEvent}
    {n : Nat} : takenBy job generation e = some n ↔
      e.actor = .execution n ∧ JobOp.leased e.op e.result = some (job, generation) := by
  unfold takenBy
  cases e.actor with
  | execution m =>
      by_cases h : JobOp.leased e.op e.result = some (job, generation) <;>
        simp [h]
  | heartbeat m => simp
  | client m => simp

theorem acquiredBy_cons_iff {n : Nat} {job : UUID} {generation : Int}
    {e : WorkerEvent} {history : List WorkerEvent} :
    AcquiredBy n job generation (e :: history) ↔
      takenBy job generation e = some n ∨ AcquiredBy n job generation history := by
  simp only [AcquiredBy, List.exists_mem_cons_iff, takenBy_eq_some_iff]

/-- Neither an execution nor its heartbeat task has a write left to make. -/
def Quiet (m : Nat) (c : WorkerConfig) : Prop :=
  (c.pool (.execution m)).OnlyCalls (fun op : JobOp => op.writes = false) ∧
    (c.pool (.heartbeat m)).OnlyCalls fun op : JobOp => op.writes = false

/-- When an execution takes a free lease, every other execution of the same
generation that has had the lease has made its last write. -/
def LeasesHandedOver : CallCondition jobSignature JobException World Actor :=
  fun c e => ∀ n job generation token ttl, e.actor = .execution n →
    e.op = .acquireLease job generation token ttl →
    c.state.redis.leases job = none →
    ∀ m, m ≠ n → AcquiredBy m job generation c.history → Quiet m c

theorem onlyCalls_update {P : JobOp → Prop} {c : WorkerConfig} {e : WorkerEvent}
    {rest : Proc Unit} {k} (hcall : c.pool e.actor = .call e.op k)
    (hrest : rest = k e.result) {i : Actor} (h : (c.pool i).OnlyCalls P) :
    ((c.perform e rest).pool i).OnlyCalls P := by
  rw [Config.perform_pool]
  by_cases hi : i = e.actor
  · subst hi
    rw [Function.update_self, hrest]
    rw [hcall] at h
    exact h.2 e.result
  · rwa [Function.update_of_ne hi]

theorem Quiet.perform {m : Nat} {c : WorkerConfig} {e : WorkerEvent}
    {rest : Proc Unit} {M : Machine jobSignature JobException World} {cond}
    (h : Quiet m c) (hen : Enabled M cond c e rest) : Quiet m (c.perform e rest) := by
  obtain ⟨k, hcall, hrest⟩ := hen.next
  exact ⟨onlyCalls_update hcall hrest h.1, onlyCalls_update hcall hrest h.2⟩

theorem Quiet.crash {m : Nat} {c : WorkerConfig} (h : Quiet m c) (j : Actor) :
    Quiet m (c.crash j) := by
  have hcrash : ∀ i, (c.pool i).OnlyCalls (fun op : JobOp => op.writes = false) →
      ((c.crash j).pool i).OnlyCalls fun op : JobOp => op.writes = false := by
    intro i hi
    rw [Config.crash_pool]
    by_cases hij : i = j
    · subst hij
      rw [Function.update_self]
      trivial
    · rwa [Function.update_of_ne hij]
  exact ⟨hcrash _ h.1, hcrash _ h.2⟩

/-- An actor that writes for a quiet execution is not there. -/
theorem Quiet.not_writes {n : Nat} {c : WorkerConfig} {e : WorkerEvent}
    {rest : Proc Unit} {M : Machine jobSignature JobException World} {cond}
    (h : Quiet n c) (hen : Enabled M cond c e rest)
    (hworker : e.actor.worker = some n) : e.op.writes = false := by
  obtain ⟨k, hcall, _⟩ := hen.next
  have hpool : (c.pool e.actor).OnlyCalls fun op : JobOp => op.writes = false := by
    cases hactor : e.actor with
    | execution m =>
        rw [hactor] at hworker
        obtain rfl := Option.some.inj hworker
        exact h.1
    | heartbeat m =>
        rw [hactor] at hworker
        obtain rfl := Option.some.inj hworker
        exact h.2
    | client m =>
        rw [hactor] at hworker
        cases hworker
  rw [hcall] at hpool
  exact hpool.1

end Handover

namespace Deployment

variable (dep : Deployment)

/-- Execution `n` has had the lease of its own delivery. -/
def Admitted (n : Nat) (c : WorkerConfig) : Prop :=
  AcquiredBy n (dep.deliveries n).jobId (dep.deliveries n).runGeneration c.history

/-- An execution starts its heartbeat task, and either of them writes, only
after the execution has had the lease. -/
def writerDiscipline : Discipline jobSignature JobException World Actor where
  inv c := ∀ n, (c.state.tasks n).started = true → dep.Admitted n c
  cond := LeasesHandedOver
  goal c e :=
    (∀ n, e.actor.worker = some n → e.op.writes = true → dep.Admitted n c) ∧
    ∀ n, e.op.starts = some n → dep.Admitted n c

variable {dep} {store : DurableJobStore}

theorem persistent_admitted (n : Nat) :
    Persistent (durableMachine store) dep.writerDiscipline (dep.Admitted n) :=
  .of_history _

theorem writerDiscipline_kept :
    dep.writerDiscipline.Kept (durableMachine store) where
  act := by
    intro c e rest hinv hen hgoal n hstarted
    rcases performs_started hen.performs hstarted with hbefore | hop
    · exact (hinv n hbefore).mono e
    · exact (hgoal.2 n hop).mono e
  drift := by
    intro c after hinv hdrift n hstarted
    obtain ⟨_, hdrift⟩ := hdrift
    obtain rfl := Option.some.inj hdrift
    exact hinv n hstarted
  crash := fun _ h => h

theorem writerGoal_of_not_writes {c : WorkerConfig} {e : WorkerEvent}
    (hwrites : e.op.writes = false) (hstarts : e.op.starts = none) :
    dep.writerDiscipline.goal c e := by
  constructor
  · intro n _ hop
    rw [hwrites] at hop
    cases hop
  · intro n hop
    rw [hstarts] at hop
    cases hop

/-- Where no call writes and no call starts a heartbeat task. -/
theorem safe_of_not_writes {α : Type} {p : Proc α} {i : Actor}
    {A : WorkerConfig → Prop}
    (hp : p.OnlyCalls fun op : JobOp => op.writes = false ∧ op.starts = none) :
    Safe (durableMachine store) dep.writerDiscipline i p A fun _ _ => True := by
  refine ((Safe.of_onlyCalls (A := fun _ => True) hp (.const True) ?_).weaken
    fun _ _ _ _ => trivial).strengthen fun _ _ _ => trivial
  rintro c op result after ⟨hwrites, hstarts⟩ _ _ _ _
  exact ⟨writerGoal_of_not_writes hwrites hstarts, fun _ => trivial⟩

/-- Once admitted, an execution and its heartbeat task may do their work. -/
theorem safe_of_admitted {α : Type} {p : Proc α} {i : Actor} {n : Nat}
    (hi : i.worker = some n)
    (hp : p.OnlyCalls fun op : JobOp => op.whileLeased n = true) :
    Safe (durableMachine store) dep.writerDiscipline i p (dep.Admitted n)
      fun _ _ => True := by
  refine (Safe.of_onlyCalls hp ((persistent_admitted n).stable i) ?_).weaken
    fun _ _ _ _ => trivial
  intro c op result after hop _ hadmitted _ _
  refine ⟨⟨fun m hm _ => ?_, fun m hm => ?_⟩, fun rest => hadmitted.mono _⟩
  · obtain rfl := Option.some.inj (hi.symm.trans hm)
    exact hadmitted
  · obtain rfl := JobOp.starts_of_whileLeased hop hm
    exact hadmitted

/-- What is known once an execution has asked for its lease. -/
def AdmittedIf (n : Nat) : Except JobException Bool → WorkerConfig → Prop
  | .ok true => dep.Admitted n
  | _ => fun _ => True

theorem safe_takeLease (n : Nat) (state : JobState) :
    Safe (durableMachine store) dep.writerDiscipline (.execution n)
      (dep.ctx.takeLease n (dep.deliveries n) state) (fun _ => True)
      fun _ _ => True := by
  refine Safe.bind (B := fun acquired => @AdmittedIf dep n (.ok acquired))
    ?_ fun acquired => ?_
  · refine (Safe.perform_post (B := @AdmittedIf dep n) ?_ ?_).weaken
      fun outcome c _ h => ?_
    · rintro (_ | _ | _)
      · exact .const True
      · exact .const True
      · exact (persistent_admitted n).stable _
    · intro c result after _ _ _ _
      refine ⟨writerGoal_of_not_writes rfl rfl, ?_⟩
      rcases result with _ | _ | _
      · exact fun _ _ => trivial
      · exact fun _ _ => trivial
      · exact fun _ _ => ⟨_, List.mem_cons_self, rfl, rfl⟩
    · cases outcome with
      | ok acquired => exact h
      | error error => trivial
  · cases acquired with
    | true => exact safe_of_admitted rfl (WorkerContext.onlyCalls_holdLease state)
    | false => exact Safe.done

theorem safe_executeV22Job_writer (n : Nat) :
    Safe (durableMachine store) dep.writerDiscipline (.execution n)
      (dep.ctx.executeV22Job n (dep.deliveries n)) (fun _ => True)
      fun _ _ => True := by
  refine (safe_of_not_writes ?_).andThen fun state => ?_
  · refine OnlyCalls.bind (onlyCalls_call ⟨rfl, rfl⟩) fun found => ?_
    cases found <;> trivial
  · split
    next => exact Safe.done
    next => exact safe_takeLease n state

theorem safe_maintainHeartbeat (n : Nat) :
    Safe (durableMachine store) dep.writerDiscipline (.heartbeat n)
      (dep.ctx.maintainHeartbeat n (dep.deliveries n)) (fun _ => True)
      fun _ _ => True := by
  intro c result after hinv _ hstep _
  have hadmitted := hinv n (performs_awaitHeartbeatStart hstep)
  refine ⟨writerGoal_of_not_writes rfl rfl, dep.Admitted n,
    (persistent_admitted n).stable _, fun _ _ => hadmitted.mono _, ?_⟩
  have honly := @WorkerContext.whileLeased_maintainHeartbeat dep.ctx n
    (dep.deliveries n)
  exact safe_of_admitted rfl (honly.2 result)

theorem writerDiscipline_safe
    (hclients : ∀ n, (dep.clients n).OnlyCalls
      fun op : JobOp => op.starts = none) (i : Actor) :
    SafeAt (durableMachine store) dep.writerDiscipline
      (start World.initial dep.pool) i := by
  refine SafeAt.of_safe (Q := fun _ _ => True) (.const True) trivial ?_
  cases i with
  | execution n => exact safe_executeV22Job_writer n
  | heartbeat n => exact safe_maintainHeartbeat n
  | client n =>
      refine Safe.weaken (Safe.of_onlyCalls (A := fun _ => True) (hclients n)
        (.const True) ?_) fun _ _ _ _ => trivial
      intro c op result after hop _ _ _ _
      refine ⟨⟨fun _ hworker => (nomatch hworker), fun m hm => ?_⟩, fun _ => trivial⟩
      rw [show op.starts = none from hop] at hm
      cases hm

end Deployment

section Runs

variable {store : DurableJobStore} {c : WorkerConfig} {e : WorkerEvent}
  {rest : Proc Unit}

/-- Whoever has had the lease of a generation is the last one to have taken it,
or has nothing left to write. -/
def HandedOver (c : WorkerConfig) : Prop :=
  ∀ m job generation, AcquiredBy m job generation c.history →
    lastHolder job generation c.history = some m ∨ Quiet m c

/-- A call keeps the executions apart: this is where the condition is used. -/
theorem HandedOver.perform (h : HandedOver c)
    (hen : Enabled (durableMachine store) LeasesHandedOver c e rest) :
    HandedOver (c.perform e rest) := by
  intro m job generation hacquired
  have hlast : lastHolder job generation (e :: c.history) =
      (takenBy job generation e).or (lastHolder job generation c.history) := by
    unfold lastHolder
    rw [List.findSome?_cons]
    cases takenBy job generation e <;> rfl
  rw [Config.perform_history] at hacquired ⊢
  rw [hlast]
  cases htaken : takenBy job generation e with
  | none =>
      rcases acquiredBy_cons_iff.1 hacquired with hnow | hbefore
      · rw [htaken] at hnow
        cases hnow
      · exact (h m job generation hbefore).imp id fun hquiet => hquiet.perform hen
  | some n =>
      by_cases hm : m = n
      · exact Or.inl (congrArg some hm.symm)
      refine Or.inr ?_
      have hbefore : AcquiredBy m job generation c.history := by
        rcases acquiredBy_cons_iff.1 hacquired with hnow | hbefore
        · exact absurd (Option.some.inj (hnow.symm.trans htaken)) hm
        · exact hbefore
      obtain ⟨hactor, hleased⟩ := takenBy_eq_some_iff.1 htaken
      obtain ⟨actor, op, result, before, after⟩ := e
      cases op with
      | acquireLease j g token ttl =>
          rcases performs_acquireLease hen.performs with
            ⟨_, _, rfl, _⟩ | ⟨hfree, rfl, _⟩ | ⟨_, rfl, _⟩
          · cases hleased
          · obtain ⟨rfl, rfl⟩ := Prod.mk.inj (Option.some.inj hleased)
            exact (hen.meets n _ _ _ _ hactor rfl hfree m hm hbefore).perform hen
          · cases hleased
      | _ => cases hleased

theorem not_starts_sampleClients (n : Nat) :
    (sampleClients n).OnlyCalls fun op : JobOp => op.starts = none := by
  have hread : ∀ op : JobOp, op.readsOnly = true → op.starts = none := by
    intro op h
    cases op <;> first | rfl | cases h
  match n with
  | 0 => exact (onlyCalls_registerJob hread rfl).bind fun _ => trivial
  | 1 => exact (onlyCalls_takeOverStale hread rfl).bind fun _ => trivial
  | _ + 2 => trivial

/-- The check that nobody has had a lease when one is taken. -/
def takesFirstLease (c : WorkerConfig) (e : WorkerEvent) : Bool :=
  !e.op.acquires || c.history.all fun e => (JobOp.leased e.op e.result).isNone

theorem leasesHandedOver_of_takesFirstLease (c : WorkerConfig) (e : WorkerEvent)
    (h : takesFirstLease c e = true) : LeasesHandedOver c e := by
  obtain ⟨actor, op, result, before, after⟩ := e
  rintro n job generation token ttl _ rfl _ m _ ⟨e', he', _, hleased⟩
  have hnone := List.all_eq_true.1 (show c.history.all _ = true from h) e' he'
  simp [hleased] at hnone

/-- The first moves of the first delivery, up to its running transition. -/
def firstMoves : List (Move (durableMachine sampleStore) Actor) :=
  .act (.client 0) obliging :: List.replicate 7 (.act (.execution 0) obliging)

end Runs

end SearchTrust.Jobs
