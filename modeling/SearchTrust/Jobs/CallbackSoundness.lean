/-
An acknowledged revision is the revision of a snapshot that was read, sent and
accepted, so a job leaves the list of pending callbacks only when its latest
snapshot has arrived.
-/
import SearchTrust.Jobs.Indexes
import SearchTrust.Jobs.Callbacks

namespace SearchTrust.Jobs

open SearchTrust.Interleave SearchTrust.Redis

namespace JobOp

/-- The snapshot that a successful `send` has delivered. -/
def delivered : (op : JobOp) → Except JobException op.Value → Option JobState
  | send state, .ok true => some state
  | _, _ => none

/-- The operation records an acknowledgement. -/
def marksCallback : JobOp → Bool
  | markCallbackSynced _ _ => true
  | _ => false

/-- The calls that a run of the synchronizer makes. -/
def syncs : JobOp → Bool
  | getState _ | send _ | markCallbackSynced _ _ => true
  | _ => false

end JobOp

/-- A process that records an acknowledgement only through `sync`. -/
inductive CallbackClient {α : Type} : Proc α → Prop
  | ret (value : α) : CallbackClient (.ret value)
  | raise (error : JobException) : CallbackClient (.raise error)
  | call {op : JobOp} (hop : op.marksCallback = false)
      {next : Except JobException op.Value → Proc α}
      (hnext : ∀ result, CallbackClient (next result)) :
      CallbackClient (.call op next)
  | sync (job : UUID) {next : Except JobException Bool → Proc α}
      (hnext : ∀ outcome, CallbackClient (next outcome)) :
      CallbackClient ((sync job).attempt >>= next)

namespace CallbackClient

variable {α β : Type}

theorem bind {p : Proc α} {f : α → Proc β} (hp : CallbackClient p)
    (hf : ∀ value, CallbackClient (f value)) : CallbackClient (p >>= f) := by
  induction hp with
  | ret value => exact hf value
  | raise error => exact .raise error
  | call hop _ ih => exact .call hop ih
  | sync job _ ih =>
      rw [Program.bind_assoc]
      exact .sync job ih

theorem of_call {op : JobOp} (hop : op.marksCallback = false) :
    CallbackClient (Jobs.call op) := by
  refine .call hop fun result => ?_
  cases result with
  | ok value => exact .ret value
  | error error => exact .raise error

theorem attempt {p : Proc α} (hp : CallbackClient p) :
    CallbackClient p.attempt := by
  induction hp with
  | ret value => exact .ret _
  | raise error => exact .ret _
  | call hop _ ih => exact .call hop ih
  | sync job _ ih =>
      rw [Program.attempt_attempt_bind]
      exact .sync job ih

theorem of_sync (job : UUID) : CallbackClient (Jobs.sync job) := by
  rw [← Program.bind_ret (Jobs.sync job), Program.bind_eq_attempt_bind]
  refine .sync job fun outcome => ?_
  cases outcome with
  | ok value => exact .ret value
  | error error => exact .raise error

end CallbackClient

section Evidence

variable {ι : Type}

/-- Some snapshot `t` of a job, with the given revision and not later than `s`,
was read and then delivered. -/
def Acknowledged (history : List (Event jobSignature JobException World ι))
    (job : UUID) (revision : Int) (s : JobState) : Prop :=
  ∃ t : JobState, t.revision = revision ∧ t.Later s ∧
    (∃ e ∈ history, JobOp.observed e.op e.result = some (job, t)) ∧
    ∃ e ∈ history, JobOp.delivered e.op e.result = some t

variable {history : List (Event jobSignature JobException World ι)}
  {job : UUID} {revision : Int} {s s' : JobState}

theorem Acknowledged.mono (h : Acknowledged history job revision s)
    (hlater : s.Later s') (e : Event jobSignature JobException World ι) :
    Acknowledged (e :: history) job revision s' := by
  obtain ⟨t, hrevision, hts, ⟨e₁, he₁, hread⟩, ⟨e₂, he₂, hsent⟩⟩ := h
  exact ⟨t, hrevision, hts.trans hlater,
    ⟨e₁, List.mem_cons_of_mem e he₁, hread⟩,
    ⟨e₂, List.mem_cons_of_mem e he₂, hsent⟩⟩

/-- The acknowledged revision of a snapshot is backed by the history. -/
def SyncBacked (history : List (Event jobSignature JobException World ι))
    (job : UUID) (s : JobState) : Prop :=
  s.callbackSyncedRevision = 0 ∨
    Acknowledged history job s.callbackSyncedRevision s

theorem SyncBacked.mono (h : SyncBacked history job s) (hlater : s.Later s')
    (hsynced : s'.callbackSyncedRevision = s.callbackSyncedRevision)
    (e : Event jobSignature JobException World ι) :
    SyncBacked (e :: history) job s' := by
  rcases h with hzero | hack
  · exact Or.inl (hsynced.trans hzero)
  · exact Or.inr (hsynced ▸ hack.mono hlater e)

/-- Recording an acknowledged revision keeps the record backed: a revision that
is not new is ignored, and a delivered one cannot exceed the current one. -/
theorem SyncBacked.synced (h : SyncBacked history job s) (hs : s.Stored)
    (hack : Acknowledged history job revision s)
    (e : Event jobSignature JobException World ι) :
    SyncBacked (e :: history) job (DurableJobStore.synced s revision) := by
  have hlater := DurableJobStore.later_of_synced hs revision
  have hcurrent : s.callbackSyncedRevision ≤ s.revision := hs.1.2.2.2.1
  by_cases hold : revision ≤ s.callbackSyncedRevision
  · refine h.mono hlater ?_ e
    show min (max revision s.callbackSyncedRevision) s.revision = _
    rw [max_eq_right hold, min_eq_left hcurrent]
  · have hle : revision ≤ s.revision := by
      obtain ⟨t, rfl, hts, _⟩ := hack
      exact hts.revision
    have hnew : DurableJobStore.syncedRevision s revision = revision := by
      unfold DurableJobStore.syncedRevision
      rw [max_eq_left (not_le.1 hold).le, min_eq_left hle]
    refine Or.inr ?_
    show Acknowledged _ _ (DurableJobStore.syncedRevision s revision) _
    rw [hnew]
    exact hack.mono hlater e

/-- Where the acknowledged revision of a new snapshot comes from. -/
theorem JobChange.synced_cases {store : DurableJobStore} {op : JobOp}
    {v v' : JobView} (h : JobChange store job op v v') (hv : v.Stored)
    (hs' : v'.state = some s') :
    s'.callbackSyncedRevision = 0 ∨
    (∃ s, v.state = some s ∧ s.Later s' ∧
      s'.callbackSyncedRevision = s.callbackSyncedRevision) ∨
    ∃ s revision, op = .markCallbackSynced job revision ∧ v.state = some s ∧
      s' = DurableJobStore.synced s revision := by
  have hlater : ∀ s, v.state = some s → s.Later s' := by
    intro s hs
    obtain ⟨t, ht, hst⟩ := h.later hv s hs
    obtain rfl := Option.some.inj (hs'.symm.trans ht)
    exact hst
  cases h with
  | unchanged => exact Or.inr (Or.inl ⟨s', hs', .refl s', rfl⟩)
  | registered a state _ _ _ hstate =>
      obtain rfl := Option.some.inj hs'
      obtain ⟨rfl, _⟩ := JobState.modelValidate_eq_ok_iff.1 hstate
      exact Or.inl rfl
  | moved a current next _ _ hcurrent hfits =>
      obtain rfl := Option.some.inj hs'
      exact Or.inr (Or.inl
        ⟨current, hcurrent, hlater current hcurrent, hfits.preserves.2.1⟩)
  | takenOver now current next _ hcurrent _ _ hnext =>
      obtain rfl := Option.some.inj hs'
      obtain ⟨rfl, _⟩ := JobState.modelValidate_eq_ok_iff.1 hnext
      exact Or.inr (Or.inl ⟨current, hcurrent, hlater current hcurrent, rfl⟩)
  | reopened now current next _ hcurrent _ _ hnext =>
      obtain rfl := Option.some.inj hs'
      obtain ⟨rfl, _⟩ := JobState.modelValidate_eq_ok_iff.1 hnext
      exact Or.inr (Or.inl ⟨current, hcurrent, hlater current hcurrent, rfl⟩)
  | synced revision current hop hcurrent =>
      obtain rfl := Option.some.inj hs'
      exact Or.inr (Or.inr ⟨current, revision, hop, hcurrent, rfl⟩)
  | enqueued => exact Or.inr (Or.inl ⟨s', hs', .refl s', rfl⟩)
  | discarded => exact Or.inr (Or.inl ⟨s', hs', .refl s', rfl⟩)
  | purged _ _ => cases hs'

end Evidence

section Discipline

variable (ι : Type)

/-- A process records only revisions that it knows to be delivered; in return
every acknowledged revision is backed by the history. -/
def callbackDiscipline : Discipline jobSignature JobException World ι where
  inv c := c.state.redis.StatesStored ∧
    ∀ job s, c.state.redis.states.get job = some s → SyncBacked c.history job s
  cond := Anything
  goal c e := ∀ job revision, e.op = .markCallbackSynced job revision →
    ∀ s, c.state.redis.states.get job = some s →
      Acknowledged c.history job revision s

variable {ι} [DecidableEq ι] {store : DurableJobStore}

theorem callbackDiscipline_kept :
    (callbackDiscipline ι).Kept (durableMachine store) where
  act := by
    rintro c e rest ⟨hstored, hbacked⟩ hen hgoal
    have hchange := performs_change hstored hen.performs
    refine ⟨fun job => (hchange job).stored (hstored.view job), ?_⟩
    intro job s' hs'
    rcases (hchange job).synced_cases (hstored.view job) hs' with
      hzero | ⟨s, hs, hlater, hsynced⟩ | ⟨s, revision, hop, hs, rfl⟩
    · exact Or.inl hzero
    · exact (hbacked job s hs).mono hlater hsynced e
    · exact (hbacked job s hs).synced (hstored job s hs)
        (hgoal job revision hop s hs) e
  drift := by
    rintro c after ⟨hstored, hbacked⟩ hdrift
    have hview : ∀ job, after.redis.states.get job =
        c.state.redis.states.get job := fun job =>
      congrArg JobView.state (view_drifts hdrift job)
    refine ⟨fun job s hs => hstored job s ((hview job).symm.trans hs), ?_⟩
    intro job s hs
    exact hbacked job s ((hview job).symm.trans hs)
  crash := fun _ h => h

/-- What is known once `send` has answered. -/
def DeliveredBy (job : UUID) (t : JobState) : Except JobException Bool →
    Config jobSignature JobException World ι → Prop
  | .ok true => fun c => Seen job t c ∧
      ∃ e ∈ c.history, JobOp.delivered e.op e.result = some t
  | _ => fun _ => True

section Synchronizer

variable {i : ι} {job : UUID} {D : Discipline jobSignature JobException World ι}
  {A : Config jobSignature JobException World ι → Prop} {P : JobState → Prop}

/-- A snapshot has been seen whose revision was acknowledged already, or which
has been delivered since. -/
def SyncSeen (job : UUID) (P : JobState → Prop)
    (c : Config jobSignature JobException World ι) : Prop :=
  ∃ t, P t ∧ Seen job t c ∧ (t.revision ≤ t.callbackSyncedRevision ∨
    ∃ e ∈ c.history, JobOp.delivered e.op e.result = some t)

/-- The call of `send`, for a snapshot that has been seen. -/
theorem safe_send {t : JobState}
    (hinv : ∀ c, D.inv c → c.state.redis.StatesStored)
    (hgoal : ∀ c result after, D.goal c ⟨i, .send t, result, c.state, after⟩) :
    Safe (durableMachine store) D i (call (.send t)) (Seen job t)
      (Outcome (fun accepted => DeliveredBy job t (.ok accepted))
        fun _ _ => True) := by
  refine (Safe.perform_post (B := DeliveredBy job t) ?_ ?_).weaken
    fun outcome c _ h => ?_
  · rintro (_ | _ | _)
    · exact .const True
    · exact .const True
    · exact ((persistent_seen hinv job t).and (.of_history _)).stable i
  · rintro c (_ | _ | _) after hc hseen hstep hcond
    · exact ⟨hgoal c _ after, fun _ _ => trivial⟩
    · exact ⟨hgoal c _ after, fun _ _ => trivial⟩
    · refine ⟨hgoal c _ after, fun rest _ => ⟨?_, ?_⟩⟩
      · exact (persistent_seen hinv job t).act hc hseen hstep hcond (hgoal c _ after)
      · exact ⟨_, List.mem_cons_self, rfl⟩
  · cases outcome with
    | ok accepted => exact h
    | error error => trivial

/-- A run of the synchronizer records only what its own `send` has delivered, and
it answers `True` only when a snapshot that it has seen is acknowledged. -/
theorem safe_sync_seen (hinv : ∀ c, D.inv c → c.state.redis.StatesStored)
    (hgoal : ∀ c (e : Event jobSignature JobException World ι), e.actor = i →
      JobOp.syncs e.op = true → (callbackDiscipline ι).goal c e → D.goal c e)
    (hread : ∀ c t, D.inv c → A c → c.state.redis.states.get job = some t → P t) :
    Safe (durableMachine store) D i (sync job) A
      (Outcome (fun done c => done = true → SyncSeen job P c) fun _ _ => True) := by
  have hquiet : ∀ c (e : Event jobSignature JobException World ι), e.actor = i →
      JobOp.syncs e.op = true → JobOp.marksCallback e.op = false → D.goal c e := by
    intro c e hactor hsyncs hmarks
    refine hgoal c e hactor hsyncs fun j revision hop => ?_
    rw [hop] at hmarks
    cases hmarks
  refine Safe.bind (safe_requireState hinv
    (fun c result after _ => hquiet c _ rfl rfl rfl) hread) fun t => ?_
  by_cases hP : P t
  swap
  · exact Safe.of_false fun _ _ h => hP h.1
  by_cases hsynced : t.revision ≤ t.callbackSyncedRevision
  · simp only [hsynced, ↓reduceIte]
    exact Safe.ret fun c _ h _ => ⟨t, hP, h.2.1, Or.inl hsynced⟩
  simp only [hsynced, ↓reduceIte]
  refine Safe.bind ((safe_send hinv fun c result after =>
    hquiet c _ rfl rfl rfl).strengthen fun _ _ h => h.2.1) fun accepted => ?_
  cases accepted with
  | false => exact Safe.ret (by rintro _ _ _ ⟨⟩)
  | true =>
      have hkept := (@persistent_seen store _ _ _ hinv job t).and
        (.of_history fun e => JobOp.delivered e.op e.result = some t)
      refine Safe.bind (B := fun _ c => Seen job t c ∧
        ∃ e ∈ c.history, JobOp.delivered e.op e.result = some t) ?_ fun _ => ?_
      · refine Safe.onValue (Safe.perform_post (fun _ => hkept.stable i) ?_)
        rintro c result after hc ⟨⟨⟨s, hs, hlater⟩, hseen⟩, hsent⟩ hstep hcond
        have hmark : D.goal c
            ⟨i, .markCallbackSynced job t.revision, result, c.state, after⟩ := by
          refine hgoal c _ rfl rfl ?_
          rintro j revision ⟨⟩ s' hs'
          obtain rfl := Option.some.inj (hs.symm.trans hs')
          exact ⟨t, rfl, hlater, hseen, hsent⟩
        refine ⟨hmark, fun rest _ => ?_⟩
        exact hkept.act hc ⟨⟨⟨s, hs, hlater⟩, hseen⟩, hsent⟩ hstep hcond hmark
      · exact Safe.ret fun c _ h _ => ⟨t, hP, h.1, Or.inr h.2⟩

/-- A process that acknowledges through `sync` only keeps to every discipline
that asks for no more than backed acknowledgements. -/
theorem CallbackClient.safe_of {α : Type} {p : Proc α} (hp : CallbackClient p)
    (hinv : ∀ c, D.inv c → c.state.redis.StatesStored)
    (hgoal : ∀ c (e : Event jobSignature JobException World ι), e.actor = i →
      (callbackDiscipline ι).goal c e → D.goal c e) :
    Safe (durableMachine store) D i p (fun _ => True) fun _ _ => True := by
  induction hp with
  | ret value => exact Safe.ret fun _ _ _ => trivial
  | raise error => exact Safe.raise fun _ _ _ => trivial
  | call hop _ ih =>
      intro c result after _ _ _ _
      refine ⟨hgoal c _ rfl ?_, _, .const True, fun _ _ => trivial, ih result⟩
      rintro job revision rfl
      cases hop
  | sync job _ ih =>
      refine Safe.bind (B := fun _ _ => True) (Safe.attempt ?_) ih
      refine (safe_sync_seen (P := fun _ => True) hinv ?_ ?_).weaken
        fun _ _ _ _ => trivial
      · exact fun c e hactor _ hback => hgoal c e hactor hback
      · exact fun _ _ _ _ _ => trivial

end Synchronizer

/-- A process that acknowledges through `sync` only keeps to the discipline. -/
theorem CallbackClient.safe {α : Type} {p : Proc α} (hp : CallbackClient p)
    (i : ι) : Safe (durableMachine store) (callbackDiscipline ι) i p
      (fun _ => True) fun _ _ => True :=
  hp.safe_of (fun _ h => h.1) fun _ _ _ h => h

end Discipline

section Runs

variable {ι : Type} [DecidableEq ι] {store : DurableJobStore}

/-- In every run of synchronizers, transitions and anything else that does not
acknowledge by itself, the acknowledged revision of a job never decreases and
never exceeds its revision, it is backed by a delivery, and a job that is
missing from the pending callbacks has its latest snapshot delivered. -/
theorem acknowledged_revisions_delivered (pool : ι → Proc Unit)
    (hpool : ∀ i, CallbackClient (pool i))
    {c c' : Config jobSignature JobException World ι}
    (hrun : Run (durableMachine store) Anything (start World.initial pool) c)
    (hmore : Run (durableMachine store) Anything c c')
    {job : UUID} {s : JobState} (hs : c.state.redis.states.get job = some s) :
    s.callbackSyncedRevision ≤ s.revision ∧
    (s.callbackSyncedRevision = 0 ∨
      Acknowledged c.history job s.callbackSyncedRevision s) ∧
    (c.state.redis.syncPending.zscore job = none →
      Acknowledged c.history job s.revision s) ∧
    ∃ s', c'.state.redis.states.get job = some s' ∧
      s.callbackSyncedRevision ≤ s'.callbackSyncedRevision := by
  obtain ⟨⟨hstored, hbacked⟩, _⟩ :=
    (callbackDiscipline ι).sound callbackDiscipline_kept
      ⟨statesStored_initial, by rintro job s ⟨⟩⟩
      (fun i => .of_safe (.const True) trivial ((hpool i).safe i)) hrun
  have hle : s.callbackSyncedRevision ≤ s.revision := (hstored job s hs).1.2.2.2.1
  refine ⟨hle, hbacked job s hs, ?_, ?_⟩
  · intro hpending
    have hagree := (indexed_of_run hrun statesStored_initial
      (fun _ => JobView.indexed_empty) job).present s hs
    have hlast : s.callbackSyncedRevision = s.revision := by
      refine le_antisymm hle (not_lt.1 fun hlt => ?_)
      have hmember := hagree.syncPending.2 hlt
      rw [show (c.state.redis.view job).syncPending = none from hpending] at hmember
      cases hmember
    rcases hbacked job s hs with hzero | hack
    · have hpositive := (hstored job s hs).1.1.revision
      omega
    · exact hlast ▸ hack
  · obtain ⟨s', hs', hlater⟩ := later_of_run hmore hstored job s hs
    exact ⟨s', hs', hlater.synced⟩

/-- One process registers a job, another one delivers its snapshot. -/
def deliveryPool : Bool → Proc Unit
  | false => do let _ ← call (.registerJob sampleRegistration)
  | true => do let _ ← sync 1

theorem callbackClient_deliveryPool (i : Bool) : CallbackClient (deliveryPool i) := by
  cases i with
  | false => exact (CallbackClient.of_call rfl).bind fun _ => .ret ()
  | true => exact (CallbackClient.of_sync 1).bind fun _ => .ret ()

/-- The owner of the audit accepts every snapshot. -/
def accepting : JobAnswer :=
  .proceed fun
    | .send _ => .ok true
    | _ => .error .unexpected

theorem delivered_revision_acknowledged :
    ∃ (c : Config jobSignature JobException World Bool) (s : JobState),
      Run (durableMachine sampleStore) Anything
        (start World.initial deliveryPool) c ∧
      c.state.redis.states.get 1 = some s ∧ s.callbackSyncedRevision = 1 ∧
      Acknowledged c.history 1 s.revision s := by
  have hplay : (play (M := durableMachine sampleStore) (fun _ _ => true)
      [.act false accepting, .act true accepting, .act true accepting,
        .act true accepting] (start World.initial deliveryPool)).any
      (fun c => (c.state.redis.states.get 1).any (·.callbackSyncedRevision = 1) &&
        decide (c.state.redis.syncPending.zscore 1 = none)) = true := by
    decide
  obtain ⟨c, hrun, htest⟩ := exists_run_of_play (fun _ _ _ => trivial) hplay
  rw [Bool.and_eq_true, decide_eq_true_eq] at htest
  obtain ⟨s, hs, hsynced⟩ := Option.any_eq_true _ _ |>.1 htest.1
  exact ⟨c, s, hrun, hs, of_decide_eq_true hsynced,
    (acknowledged_revisions_delivered deliveryPool callbackClient_deliveryPool
      hrun .refl hs).2.2.1 htest.2⟩

end Runs

end SearchTrust.Jobs
