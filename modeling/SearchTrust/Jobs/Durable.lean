/-
Runs in which no job state expires.  What every change of a job keeps holds in
every configuration that such a run reaches.
-/
import SearchTrust.Jobs.Effects

namespace SearchTrust.Jobs

open SearchTrust.Interleave SearchTrust.Redis

namespace JobState

/-- The fields of a snapshot that no operation rewrites. -/
structure SameIdentity (s t : JobState) : Prop where
  jobId : t.jobId = s.jobId
  caseId : t.caseId = s.caseId
  requestDigest : t.requestDigest = s.requestDigest
  idempotencyKeyDigest : t.idempotencyKeyDigest = s.idempotencyKeyDigest
  createdAt : t.createdAt = s.createdAt
  deadlineAt : t.deadlineAt = s.deadlineAt

theorem SameIdentity.refl (s : JobState) : s.SameIdentity s :=
  ⟨rfl, rfl, rfl, rfl, rfl, rfl⟩

theorem SameIdentity.trans {s t u : JobState} (hst : s.SameIdentity t)
    (htu : t.SameIdentity u) : s.SameIdentity u where
  jobId := htu.jobId.trans hst.jobId
  caseId := htu.caseId.trans hst.caseId
  requestDigest := htu.requestDigest.trans hst.requestDigest
  idempotencyKeyDigest := htu.idempotencyKeyDigest.trans hst.idempotencyKeyDigest
  createdAt := htu.createdAt.trans hst.createdAt
  deadlineAt := htu.deadlineAt.trans hst.deadlineAt

/-- `t` is `s` or a snapshot that the same job had later. -/
structure Later (s t : JobState) : Prop where
  identity : s.SameIdentity t
  generation : s.runGeneration ≤ t.runGeneration
  revision : s.revision ≤ t.revision
  synced : s.callbackSyncedRevision ≤ t.callbackSyncedRevision
  sameRevision : s.revision = t.revision →
    t = { s with callbackSyncedRevision := t.callbackSyncedRevision }
  terminal : s.terminal = true →
    t.terminal = true ∨ s.runGeneration < t.runGeneration

theorem Later.refl (s : JobState) : s.Later s :=
  ⟨.refl s, le_refl _, le_refl _, le_refl _, fun _ => rfl, Or.inl⟩

theorem Later.trans {s t u : JobState} (hst : s.Later t) (htu : t.Later u) :
    s.Later u where
  identity := hst.identity.trans htu.identity
  generation := hst.generation.trans htu.generation
  revision := hst.revision.trans htu.revision
  synced := hst.synced.trans htu.synced
  sameRevision := by
    intro heq
    have hst' : s.revision = t.revision :=
      le_antisymm hst.revision (heq ▸ htu.revision)
    rw [htu.sameRevision (hst'.symm.trans heq), hst.sameRevision hst']
  terminal := by
    intro hs
    have hgen := htu.generation
    rcases hst.terminal hs with ht | hlt
    · rcases htu.terminal ht with hu | hlt
      · exact Or.inl hu
      · exact Or.inr (lt_of_le_of_lt hst.generation hlt)
    · exact Or.inr (lt_of_lt_of_le hlt hgen)

/-- A snapshot with the next revision is later, whatever else it rewrites. -/
theorem Later.of_revises {s t : JobState} (hid : s.SameIdentity t)
    (hgen : s.runGeneration ≤ t.runGeneration) (hrev : t.revision = s.revision + 1)
    (hsync : t.callbackSyncedRevision = s.callbackSyncedRevision)
    (hterminal : s.terminal = true → s.runGeneration < t.runGeneration) :
    s.Later t where
  identity := hid
  generation := hgen
  revision := by omega
  synced := hsync.ge
  sameRevision := fun h => by omega
  terminal := fun h => Or.inr (hterminal h)

/-- Acknowledging a revision does not lower the acknowledged revision. -/
theorem Stored.le_syncedRevision {s : JobState} (hs : s.Stored) (revision : Int) :
    s.callbackSyncedRevision ≤ DurableJobStore.syncedRevision s revision :=
  le_min (le_max_right _ _) hs.1.2.2.2.1

theorem syncedRevision_le (s : JobState) (revision : Int) :
    DurableJobStore.syncedRevision s revision ≤ s.revision :=
  min_le_right _ _

/-- The snapshot that `mark_callback_synced` writes unvalidated is valid. -/
theorem Stored.synced {s : JobState} (hs : s.Stored) (revision : Int) :
    (DurableJobStore.synced s revision).Stored := by
  obtain ⟨⟨hfields, hcreated, hdeadline, hsynced, hpayload⟩, hnorm⟩ := hs
  have hle := Stored.le_syncedRevision
    ⟨⟨hfields, hcreated, hdeadline, hsynced, hpayload⟩, hnorm⟩ revision
  refine ⟨⟨?_, hcreated, hdeadline, syncedRevision_le s revision, hpayload⟩, ?_⟩
  · exact { hfields with
      callbackSyncedRevision := hfields.callbackSyncedRevision.trans hle }
  · have hmessage : strip s.message = s.message := congrArg message hnorm
    have herror : s.error.map JobErrorState.normalized = s.error :=
      congrArg error hnorm
    simp only [normalized, DurableJobStore.synced, hmessage, herror]

end JobState

namespace DurableJobStore

variable {current next : JobState}

theorem later_of_transitionFits {a : Transition}
    (h : TransitionFits a current next) : current.Later next := by
  obtain ⟨rfl, _⟩ := JobState.modelValidate_eq_ok_iff.1 h.validated
  refine .of_revises ⟨rfl, rfl, rfl, rfl, rfl, rfl⟩ le_rfl rfl rfl ?_
  intro hterminal
  simp [h.alive] at hterminal

/-- A new generation may also follow a terminal snapshot. -/
theorem later_of_regenerated (hid : current.SameIdentity next)
    (hgen : next.runGeneration = current.runGeneration + 1)
    (hrev : next.revision = current.revision + 1)
    (hsync : next.callbackSyncedRevision = current.callbackSyncedRevision) :
    current.Later next :=
  .of_revises hid (by omega) hrev hsync fun _ => by omega

theorem later_of_takenOver {now : Instant}
    (h : (takenOver current now).modelValidate = .ok next) : current.Later next := by
  obtain ⟨rfl, _⟩ := JobState.modelValidate_eq_ok_iff.1 h
  exact later_of_regenerated ⟨rfl, rfl, rfl, rfl, rfl, rfl⟩ rfl rfl rfl

theorem later_of_reopened {now : Instant}
    (h : (reopened current now).modelValidate = .ok next) : current.Later next := by
  obtain ⟨rfl, _⟩ := JobState.modelValidate_eq_ok_iff.1 h
  exact later_of_regenerated ⟨rfl, rfl, rfl, rfl, rfl, rfl⟩ rfl rfl rfl

theorem later_of_synced (hcurrent : current.Stored) (revision : Int) :
    current.Later (synced current revision) :=
  ⟨⟨rfl, rfl, rfl, rfl, rfl, rfl⟩, le_rfl, le_rfl,
    hcurrent.le_syncedRevision revision, fun _ => rfl, Or.inl⟩

end DurableJobStore

namespace JobView

def empty : JobView := ⟨none, none, none, none⟩

/-- The stored snapshot, if there is one, passes its validator unchanged. -/
def Stored (v : JobView) : Prop := ∀ s ∈ v.state, s.Stored

/-- A job keeps its state, and every state is later than the ones before. -/
def Later (v v' : JobView) : Prop := ∀ s ∈ v.state, ∃ t ∈ v'.state, s.Later t

theorem Later.refl (v : JobView) : v.Later v :=
  fun s hs => ⟨s, hs, .refl s⟩

theorem Later.trans {u v w : JobView} (huv : u.Later v) (hvw : v.Later w) :
    u.Later w := by
  intro s hs
  obtain ⟨t, ht, hst⟩ := huv s hs
  obtain ⟨x, hx, htx⟩ := hvw t ht
  exact ⟨x, hx, hst.trans htx⟩

end JobView

section Changes

variable {store : DurableJobStore} {job : UUID} {op : JobOp} {v v' : JobView}

theorem JobChange.stored (h : JobChange store job op v v') (hv : v.Stored) :
    v'.Stored := by
  cases h with
  | unchanged => exact hv
  | registered a state _ _ _ hstate =>
      rintro s ⟨⟩
      exact JobState.stored_of_modelValidate hstate
  | moved a current next _ _ _ hfits =>
      rintro s ⟨⟩
      exact JobState.stored_of_modelValidate hfits.validated
  | takenOver now current next _ _ _ _ hnext =>
      rintro s ⟨⟩
      exact JobState.stored_of_modelValidate hnext
  | reopened now current next _ _ _ _ hnext =>
      rintro s ⟨⟩
      exact JobState.stored_of_modelValidate hnext
  | synced revision current _ hcurrent =>
      rintro s ⟨⟩
      exact (hv current hcurrent).synced revision
  | enqueued => exact hv
  | discarded => exact hv
  | purged => rintro s ⟨⟩

/-- The stored snapshot of a job carries the name of the job. -/
theorem JobChange.named (h : JobChange store job op v v')
    (hv : ∀ s ∈ v.state, s.jobId = job) : ∀ s ∈ v'.state, s.jobId = job := by
  cases h with
  | unchanged => exact hv
  | registered a state _ hjob _ hstate =>
      rintro s ⟨⟩
      obtain ⟨rfl, _⟩ := JobState.modelValidate_eq_ok_iff.1 hstate
      exact hjob
  | moved a current next _ _ hcurrent hfits =>
      rintro s ⟨⟩
      exact (DurableJobStore.later_of_transitionFits hfits).identity.jobId.trans
        (hv current hcurrent)
  | takenOver now current next _ hcurrent _ _ hnext =>
      rintro s ⟨⟩
      exact (DurableJobStore.later_of_takenOver hnext).identity.jobId.trans
        (hv current hcurrent)
  | reopened now current next _ hcurrent _ _ hnext =>
      rintro s ⟨⟩
      exact (DurableJobStore.later_of_reopened hnext).identity.jobId.trans
        (hv current hcurrent)
  | synced revision current _ hcurrent =>
      rintro s ⟨⟩
      exact hv current hcurrent
  | enqueued => exact hv
  | discarded => exact hv
  | purged => rintro s ⟨⟩

theorem JobChange.later (h : JobChange store job op v v') (hv : v.Stored) :
    v.Later v' := by
  cases h with
  | unchanged => exact .refl v
  | registered _ _ _ _ habsent =>
      intro s hs
      rw [habsent] at hs
      cases hs
  | moved a current next _ _ hcurrent hfits =>
      intro s hs
      obtain rfl := Option.some.inj (hcurrent.symm.trans hs)
      exact ⟨next, rfl, DurableJobStore.later_of_transitionFits hfits⟩
  | takenOver now current next _ hcurrent _ _ hnext =>
      intro s hs
      obtain rfl := Option.some.inj (hcurrent.symm.trans hs)
      exact ⟨next, rfl, DurableJobStore.later_of_takenOver hnext⟩
  | reopened now current next _ hcurrent _ _ hnext =>
      intro s hs
      obtain rfl := Option.some.inj (hcurrent.symm.trans hs)
      exact ⟨next, rfl, DurableJobStore.later_of_reopened hnext⟩
  | synced revision current _ hcurrent =>
      intro s hs
      obtain rfl := Option.some.inj (hcurrent.symm.trans hs)
      exact ⟨_, rfl, DurableJobStore.later_of_synced (hv _ hcurrent) revision⟩
  | enqueued => exact .refl v
  | discarded => exact .refl v
  | purged _ habsent =>
      intro s hs
      rw [habsent] at hs
      cases hs

end Changes

section Runs

variable {store : DurableJobStore} {ι : Type} [DecidableEq ι]
  {cond : CallCondition jobSignature JobException World ι}
  {pool : ι → Proc Unit} {c c' : Config jobSignature JobException World ι}

theorem JobRedis.StatesStored.view {r : JobRedis} (h : r.StatesStored)
    (job : UUID) : (r.view job).Stored := h job

theorem statesStored_initial : World.initial.redis.StatesStored := by
  intro job state h
  cases h

theorem statesStored_performs {tick : JobRedis → Nat → JobRedis} {op : JobOp}
    {w w' : World} {res : Except JobException op.Value}
    (hr : w.redis.StatesStored)
    (h : (jobMachine store tick).Performs op w res w') : w'.redis.StatesStored :=
  fun job => (performs_change hr h job).stored (hr.view job)

/-- Expiry leaves valid snapshots. -/
theorem JobRedis.StatesStored.tick {r : JobRedis} (h : r.StatesStored)
    (seconds : Nat) : (r.tick seconds).StatesStored := by
  intro job state hstate
  rcases Table.get_purge r.states (r.clock + seconds) job with hnone | hsame
  · cases hnone.symm.trans hstate
  · exact h job state (hsame.symm.trans hstate)

/-- Every stored snapshot is stored under the name of its job. -/
def JobRedis.StatesNamed (r : JobRedis) : Prop :=
  ∀ job state, r.states.get job = some state → state.jobId = job

theorem statesNamed_performs {tick : JobRedis → Nat → JobRedis} {op : JobOp}
    {w w' : World} {res : Except JobException op.Value}
    (hr : w.redis.StatesStored) (hnamed : w.redis.StatesNamed)
    (h : (jobMachine store tick).Performs op w res w') : w'.redis.StatesNamed :=
  fun job => (performs_change hr h job).named (hnamed job)

theorem JobRedis.StatesNamed.tick {r : JobRedis} (h : r.StatesNamed)
    (seconds : Nat) : (r.tick seconds).StatesNamed := by
  intro job state hstate
  rcases Table.get_purge r.states (r.clock + seconds) job with hnone | hsame
  · cases hnone.symm.trans hstate
  · exact h job state (hsame.symm.trans hstate)

theorem statesNamed_initial : World.initial.redis.StatesNamed := by
  intro job state h
  cases h

theorem statesStored_of_expiringRun (hrun : Run (expiringMachine store) cond c c')
    (hstored : c.state.redis.StatesStored) : c'.state.redis.StatesStored := by
  refine Run.invariant (I := fun d => d.state.redis.StatesStored) hrun hstored
    ?_ ?_ ?_
  · intro d e rest hd hen
    exact statesStored_performs hd hen.performs
  · intro d after hd hdrift
    obtain ⟨seconds, hseconds⟩ := hdrift
    obtain rfl := Option.some.inj hseconds
    exact hd.tick seconds
  · intro d i hd
    exact hd

/-- A drift of the durable machine changes nothing that a view shows. -/
theorem view_drifts {w w' : World} (h : (durableMachine store).Drifts w w')
    (job : UUID) : w'.redis.view job = w.redis.view job := by
  obtain ⟨seconds, hdrift⟩ := h
  obtain rfl := Option.some.inj hdrift
  rfl

/-- Every reachable store holds valid snapshots only, and what all changes of a
job keep holds of what the store knows about it. -/
theorem durable_invariant {P : UUID → JobView → Prop}
    (hrun : Run (durableMachine store) cond c c')
    (hstored : c.state.redis.StatesStored)
    (hstart : ∀ job, P job (c.state.redis.view job))
    (hchange : ∀ {job op v v'}, v.Stored → P job v →
      JobChange store job op v v' → P job v') :
    c'.state.redis.StatesStored ∧ ∀ job, P job (c'.state.redis.view job) := by
  refine Run.invariant (I := fun d => d.state.redis.StatesStored ∧
    ∀ job, P job (d.state.redis.view job)) hrun ⟨hstored, hstart⟩ ?_ ?_ ?_
  · rintro d e rest ⟨hd, hP⟩ hen
    have hstep := performs_change hd hen.performs
    refine ⟨fun job => (hstep job).stored (hd.view job), fun job => ?_⟩
    exact hchange (hd.view job) (hP job) (hstep job)
  · rintro d after ⟨hd, hP⟩ hdrift
    refine ⟨fun job => ?_, fun job => ?_⟩
    · show (after.redis.view job).Stored
      rw [view_drifts hdrift job]
      exact hd.view job
    · rw [Config.drifted_state, view_drifts hdrift job]
      exact hP job
  · rintro d i hd
    exact hd

theorem statesStored_of_run (hrun : Run (durableMachine store) cond c c')
    (hstored : c.state.redis.StatesStored) : c'.state.redis.StatesStored :=
  (durable_invariant (P := fun _ _ => True) hrun hstored (fun _ => trivial)
    fun _ _ _ => trivial).1

/-- Along a run every job keeps its state and only moves to later snapshots. -/
theorem later_of_run (hrun : Run (durableMachine store) cond c c')
    (hstored : c.state.redis.StatesStored) (job : UUID) :
    (c.state.redis.view job).Later (c'.state.redis.view job) := by
  refine (durable_invariant
    (P := fun j v => (c.state.redis.view j).Later v) hrun hstored
    (fun _ => .refl _) ?_).2 job
  intro j op v v' hv hP hchange
  exact hP.trans (hchange.later hv)

end Runs

section Reads

variable {store : DurableJobStore} {tick : JobRedis → Nat → JobRedis}
  {w w' : World} {job : UUID}

/-- The stored snapshot of a job is `t` or a later one. -/
def World.HasReached (w : World) (job : UUID) (t : JobState) : Prop :=
  ∃ s, w.redis.states.get job = some s ∧ t.Later s

/-- The job and the snapshot that a read has returned. -/
def JobOp.observed : (op : JobOp) → Except JobException op.Value →
    Option (UUID × JobState)
  | getState job, .ok (some state) => some (job, state)
  | _, _ => none

/-- A read shows the stored snapshot, unless it is interrupted. -/
theorem performs_getState (hr : w.redis.StatesStored)
    {res : Except JobException (Option JobState)}
    (h : (jobMachine store tick).Performs (.getState job) w res w') :
    w' = w ∧ (res = .ok (w.redis.states.get job) ∨
      ∃ reason : Interruption, res = .error reason.exception) := by
  rcases performs_cases h with ⟨reply, hexec⟩ | ⟨reason, hres, rfl⟩
  · simp only [JobOp.exec, hr.getState] at hexec
    obtain ⟨rfl, rfl⟩ := Prod.mk.inj (Option.some.inj hexec)
    exact ⟨rfl, Or.inl rfl⟩
  · exact ⟨rfl, Or.inr ⟨reason, hres⟩⟩

/-- What a process has read stays a lower bound of what the store holds. -/
theorem World.HasReached.performs {op : JobOp}
    {res : Except JobException op.Value} {t : JobState}
    (h : w.HasReached job t) (hr : w.redis.StatesStored)
    (hstep : (jobMachine store tick).Performs op w res w') :
    w'.HasReached job t := by
  obtain ⟨s, hs, hlater⟩ := h
  obtain ⟨s', hs', hlater'⟩ :=
    (performs_change hr hstep job).later (hr.view job) s hs
  exact ⟨s', hs', hlater.trans hlater'⟩

variable {ι : Type} [DecidableEq ι] {i : ι}
  {D : Discipline jobSignature JobException World ι}

theorem persistent_hasReached
    (hinv : ∀ c, D.inv c → c.state.redis.StatesStored) (job : UUID) (t : JobState) :
    Persistent (durableMachine store) D fun c => c.state.HasReached job t := by
  refine .of_state (P := fun w : World => w.HasReached job t) ?_ ?_
  · intro c e hc h hstep
    exact h.performs (hinv c hc) hstep
  · rintro c after _ ⟨s, hs, hlater⟩ hdrift
    refine ⟨s, ?_, hlater⟩
    have hview := congrArg JobView.state (view_drifts hdrift job)
    exact hview.trans hs

/-- Some process has read the snapshot `t` of a job, and the store holds it or a
later one. -/
def Seen (job : UUID) (t : JobState)
    (c : Config jobSignature JobException World ι) : Prop :=
  c.state.HasReached job t ∧
    ∃ e ∈ c.history, JobOp.observed e.op e.result = some (job, t)

theorem persistent_seen (hinv : ∀ c, D.inv c → c.state.redis.StatesStored)
    (job : UUID) (t : JobState) :
    Persistent (durableMachine store) D (Seen job t) :=
  (persistent_hasReached hinv job t).and (.of_history _)

/-- The latest call of process `i` was a read that has returned `t`. -/
def JustRead (i : ι) (job : UUID) (t : JobState)
    (c : Config jobSignature JobException World ι) : Prop :=
  (lastCall c.history i).bind (fun e => JobOp.observed e.op e.result) =
    some (job, t)

theorem stable_justRead (job : UUID) (t : JobState) :
    Stable (durableMachine store) D i (JustRead i job t) :=
  .of_ownCalls fun own : List (Event jobSignature JobException World ι) =>
    own.head?.bind (fun e => JobOp.observed e.op e.result) = some (job, t)

/-- What a read has returned has been seen, and `P` held of it. -/
def SeenBy (i : ι) (job : UUID) (P : JobState → Prop) :
    Except JobException (Option JobState) →
    Config jobSignature JobException World ι → Prop
  | .ok (some t) => fun c => P t ∧ Seen job t c ∧ JustRead i job t c
  | _ => fun _ => True

theorem safe_getState {A : Config jobSignature JobException World ι → Prop}
    {P : JobState → Prop}
    (hinv : ∀ c, D.inv c → c.state.redis.StatesStored)
    (hgoal : ∀ c result after, D.inv c →
      D.goal c ⟨i, .getState job, result, c.state, after⟩)
    (hread : ∀ c t, D.inv c → A c → c.state.redis.states.get job = some t → P t) :
    Safe (durableMachine store) D i (call (.getState job)) A (SeenBy i job P) := by
  refine Safe.perform_post ?_ ?_
  · rintro (_ | _ | t)
    · exact .const True
    · exact .const True
    · exact (Stable.const (P t)).and
        (((persistent_seen hinv job t).stable i).and (stable_justRead job t))
  · intro c result after hc hA hstep _
    refine ⟨hgoal c result after hc, fun rest _ => ?_⟩
    obtain ⟨rfl, rfl | ⟨_, rfl⟩⟩ := performs_getState (hinv c hc) hstep
    · cases hstate : c.state.redis.states.get job with
      | none => trivial
      | some t =>
          refine ⟨hread c t hc hA hstate, ⟨⟨t, hstate, .refl t⟩, ?_⟩, ?_⟩
          · exact ⟨_, List.mem_cons_self, rfl⟩
          · simp [JustRead, lastCall, ownCalls, JobOp.observed]
    · trivial

/-- What `require_state` returns has been seen. -/
theorem safe_requireState {A : Config jobSignature JobException World ι → Prop}
    {P : JobState → Prop}
    (hinv : ∀ c, D.inv c → c.state.redis.StatesStored)
    (hgoal : ∀ c result after, D.inv c →
      D.goal c ⟨i, .getState job, result, c.state, after⟩)
    (hread : ∀ c t, D.inv c → A c → c.state.redis.states.get job = some t → P t) :
    Safe (durableMachine store) D i (requireState job) A
      (Outcome (fun t c => P t ∧ Seen job t c ∧ JustRead i job t c)
        fun _ _ => True) := by
  refine Safe.bind (B := fun found => SeenBy i job P (.ok found)) ?_ ?_
  · refine (safe_getState hinv hgoal hread).weaken fun outcome c _ h => ?_
    cases outcome with
    | ok found => exact h
    | error error => trivial
  · intro found
    cases found with
    | none => exact Safe.raise fun _ _ _ => trivial
    | some t => exact Safe.ret fun _ _ h => h

end Reads

end SearchTrust.Jobs
