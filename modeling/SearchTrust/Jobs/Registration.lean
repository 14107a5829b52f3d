/-
Registration is unique as long as idempotency keys are remembered.  The key of a
registration lives from its registration on, the state of the job is renewed by
every write, so a state can outlive its key.
-/
import SearchTrust.Jobs.Durable

namespace SearchTrust.Jobs

open SearchTrust.Interleave SearchTrust.Redis

section Keys

/-- The entry of a job stays, with its identity, and its deadline stays or is
renewed; a missing entry stays missing. -/
structure EntryKept (deadline : Nat) (before after : Option (Entry JobState)) :
    Prop where
  some : ∀ old ∈ before, ∃ new ∈ after, old.value.SameIdentity new.value ∧
    (new.expiresAt = old.expiresAt ∨ new.expiresAt = deadline)
  none : before = Option.none → after = Option.none

theorem EntryKept.refl (deadline : Nat) (entry : Option (Entry JobState)) :
    EntryKept deadline entry entry :=
  ⟨fun old hold => ⟨old, hold, .refl _, Or.inl rfl⟩, fun h => h⟩

/-- Writing a later snapshot of a job keeps all entries. -/
theorem entryKept_set {t : Table UUID JobState} {job : UUID} {s next : JobState}
    (hs : t.get job = some s) (hid : s.SameIdentity next) (deadline : Nat)
    (j : UUID) : EntryKept deadline (t j) (t.set job next deadline j) := by
  obtain ⟨entry, hentry, hvalue⟩ := Option.map_eq_some_iff.1 hs
  by_cases hj : j = job
  · subst hj
    rw [Table.set_self, hentry]
    refine ⟨?_, fun h => by cases h⟩
    rintro old ⟨⟩
    exact ⟨_, rfl, hvalue ▸ hid, Or.inr rfl⟩
  · rw [Table.set_of_ne _ hj]
    exact .refl _ _

/-- Neither the clock nor the states nor the idempotency keys have changed. -/
structure SameKeys (r r' : JobRedis) : Prop where
  clock : r'.clock = r.clock
  states : r'.states = r.states
  idempotency : r'.idempotency = r.idempotency

/-- The clock and the idempotency keys have not changed, and every job kept its
entry. -/
structure KeysKept (store : DurableJobStore) (r r' : JobRedis) : Prop where
  clock : r'.clock = r.clock
  idempotency : r'.idempotency = r.idempotency
  states : ∀ job, EntryKept (r.clock + store.stateTtlSeconds) (r.states job)
    (r'.states job)

theorem SameKeys.kept {store : DurableJobStore} {r r' : JobRedis}
    (h : SameKeys r r') : KeysKept store r r' :=
  ⟨h.clock, h.idempotency, fun _ => h.states ▸ .refl _ _⟩

end Keys

section Calls

variable {store : DurableJobStore} {tick : JobRedis → Nat → JobRedis}
  {op : JobOp} {w w' : World} {res : Except JobException op.Value}

/-- The registration that a call has committed. -/
def JobOp.registered : (op : JobOp) → Except JobException op.Value →
    Option Registration
  | registerJob a, .ok result => if result.replayed then none else some a
  | _, _ => none

/-- The call has committed the registration `a`. -/
structure Commits (store : DurableJobStore) (a : Registration) (op : JobOp)
    (res : Except JobException op.Value) (r r' : JobRedis) : Prop where
  op_eq : op = .registerJob a
  registered : op.registered res = some a
  keyFree : r.idempotency.get (a.caseId, store.sha256 a.idempotencyKey) = none
  jobFree : r.states.get a.jobId = none
  committed : ∃ initial, (store.initialState a).modelValidate = .ok initial ∧
    r' = store.commitRegistration a initial r

/-- A write keeps the keys and the entry of every job, except for the one that a
registration adds. -/
theorem Write.keysKept {r r' : JobRedis} (h : Write store r op r')
    (hop : ∀ a, op ≠ .registerJob a) : KeysKept store r r' := by
  cases h with
  | registered a => exact absurd rfl (hop a)
  | moved a current next hcurrent hfits =>
      have hid := (DurableJobStore.later_of_transitionFits hfits).identity
      exact ⟨rfl, rfl, entryKept_set hcurrent hid _⟩
  | takenOver j now current next hcurrent _ _ hnext =>
      have hid := (DurableJobStore.later_of_takenOver hnext).identity
      exact ⟨rfl, rfl, entryKept_set hcurrent hid _⟩
  | reopened j now current next hcurrent _ _ hnext =>
      have hid := (DurableJobStore.later_of_reopened hnext).identity
      exact ⟨rfl, rfl, entryKept_set hcurrent hid _⟩
  | synced j revision current hcurrent =>
      have hid : current.SameIdentity (DurableJobStore.synced current revision) :=
        ⟨rfl, rfl, rfl, rfl, rfl, rfl⟩
      exact ⟨rfl, rfl, entryKept_set hcurrent hid _⟩
  | _ => exact SameKeys.kept ⟨rfl, rfl, rfl⟩

theorem performs_rewrite_kept (hr : w.redis.StatesStored)
    (h : (jobMachine store tick).Performs op w res w')
    (hop : ∀ a, op ≠ .registerJob a) : KeysKept store w.redis w'.redis := by
  rcases performs_write hr h with hsame | hwrite
  · rw [hsame]
    exact SameKeys.kept ⟨rfl, rfl, rfl⟩
  · exact hwrite.keysKept hop

/-- What a registration that does not commit has done: it has found what it
registers, or it has raised. -/
theorem performs_registerJob (hr : w.redis.StatesStored) {a : Registration}
    {res : Except JobException RegistrationResult}
    (h : (jobMachine store tick).Performs (.registerJob a) w res w') :
    Commits store a (.registerJob a) res w.redis w'.redis ∨
    (∃ existing, w.redis.states.get a.jobId = some existing ∧
      store.Replays a w.redis existing ∧ res = .ok ⟨existing, true⟩ ∧
      w'.redis = w.redis) ∨
    ((∃ e, res = .error e) ∧ w'.redis = w.redis) := by
  rcases performs_cases h with ⟨reply, hexec⟩ | ⟨reason, hres, rfl⟩
  · rcases World.commit_cases (Option.some.inj hexec) with
      ⟨value, redis, hok, rfl, rfl⟩ | ⟨e, _, rfl, rfl⟩
    · rcases DurableJobStore.registerJob_cases hr hok with
        ⟨existing, hstate, hreplays, rfl, rfl⟩ |
        ⟨initial, hinitial, hkey, hjob, rfl, rfl⟩
      · exact Or.inr (Or.inl ⟨existing, hstate, hreplays, rfl, rfl⟩)
      · exact Or.inl ⟨rfl, rfl, hkey, hjob, initial, hinitial, rfl⟩
    · exact Or.inr (Or.inr ⟨⟨e, rfl⟩, rfl⟩)
  · exact Or.inr (Or.inr ⟨⟨_, hres⟩, rfl⟩)

/-- A call either commits a registration or keeps all keys. -/
theorem performs_keys (hr : w.redis.StatesStored)
    (h : (jobMachine store tick).Performs op w res w') :
    (∃ a, Commits store a op res w.redis w'.redis) ∨
      (op.registered res = none ∧ KeysKept store w.redis w'.redis) := by
  by_cases hop : ∃ a, op = .registerJob a
  · obtain ⟨a, rfl⟩ := hop
    rcases performs_registerJob hr h with
      hcommits | ⟨existing, _, _, rfl, hsame⟩ | ⟨⟨e, rfl⟩, hsame⟩
    · exact Or.inl ⟨a, hcommits⟩
    · exact Or.inr ⟨rfl, hsame ▸ SameKeys.kept ⟨rfl, rfl, rfl⟩⟩
    · exact Or.inr ⟨rfl, hsame ▸ SameKeys.kept ⟨rfl, rfl, rfl⟩⟩
  · have hne : ∀ a, op ≠ .registerJob a := fun a ha => hop ⟨a, ha⟩
    refine Or.inr ⟨?_, performs_rewrite_kept hr h hne⟩
    cases op with
    | registerJob a => exact absurd rfl (hne a)
    | _ => rfl

end Calls

section Bound

variable {store : DurableJobStore} {r r' : JobRedis}

/-- A snapshot was registered by `a`, as far as its digests tell. -/
def JobState.Matches (s : JobState) (store : DurableJobStore) (a : Registration) :
    Prop :=
  s.caseId = a.caseId ∧ s.idempotencyKeyDigest = store.sha256 a.idempotencyKey ∧
    s.requestDigest = store.requestDigest a.requestPayload

theorem JobState.Matches.of_sameIdentity {s t : JobState} {a : Registration}
    (h : t.Matches store a) (hid : s.SameIdentity t) : s.Matches store a :=
  ⟨hid.caseId.symm.trans h.1, hid.idempotencyKeyDigest.symm.trans h.2.1,
    hid.requestDigest.symm.trans h.2.2⟩

/-- An idempotency key is remembered only as long as its job, and two live jobs
of a case have different keys. -/
structure KeysBound (store : DurableJobStore) (r : JobRedis) : Prop where
  stored : r.StatesStored
  deadlines : ∀ job entry, r.states job = some entry →
    entry.expiresAt ≤ r.clock + store.stateTtlSeconds
  keys : ∀ key entry, r.idempotency key = some entry →
    ∃ s, r.states entry.value.jobId = some s ∧ entry.expiresAt ≤ s.expiresAt ∧
      s.value.caseId = key.1 ∧ s.value.idempotencyKeyDigest = key.2 ∧
      s.value.requestDigest = entry.value.requestDigest
  unique : ∀ i j s t, r.states.get i = some s → r.states.get j = some t →
    s.caseId = t.caseId → s.idempotencyKeyDigest = t.idempotencyKeyDigest → i = j

theorem keysBound_initial (store : DurableJobStore) :
    KeysBound store JobRedis.initial := by
  refine ⟨?_, ?_, ?_, ?_⟩
  · rintro job s ⟨⟩
  · rintro job entry ⟨⟩
  · rintro key entry ⟨⟩
  · rintro i j s t ⟨⟩

/-- The entry that a kept entry was before. -/
theorem KeysKept.old (h : KeysKept store r r') {job : UUID}
    {new : Entry JobState} (hnew : r'.states job = some new) :
    ∃ old, r.states job = some old ∧ old.value.SameIdentity new.value ∧
      (new.expiresAt = old.expiresAt ∨
        new.expiresAt = r.clock + store.stateTtlSeconds) := by
  cases hold : r.states job with
  | none =>
      have hnone := (h.states job).none hold
      rw [hnew] at hnone
      cases hnone
  | some old =>
      obtain ⟨new', hnew', hid, hdeadline⟩ := (h.states job).some old hold
      obtain rfl := Option.some.inj (hnew.symm.trans hnew')
      exact ⟨old, rfl, hid, hdeadline⟩

theorem KeysKept.old_get (h : KeysKept store r r') {job : UUID} {t : JobState}
    (ht : r'.states.get job = some t) :
    ∃ s, r.states.get job = some s ∧ s.SameIdentity t := by
  obtain ⟨new, hnew, rfl⟩ := Option.map_eq_some_iff.1 ht
  obtain ⟨old, hold, hid, _⟩ := h.old hnew
  exact ⟨old.value, congrArg (Option.map Entry.value) hold, hid⟩

theorem KeysBound.kept (h : KeysBound store r) (hkept : KeysKept store r r')
    (hstored : r'.StatesStored) : KeysBound store r' where
  stored := hstored
  deadlines := by
    intro job new hnew
    obtain ⟨old, hold, _, hdeadline⟩ := hkept.old hnew
    have hle := h.deadlines job old hold
    have hclock := hkept.clock
    omega
  keys := by
    intro key entry hentry
    rw [hkept.idempotency] at hentry
    obtain ⟨s, hs, hdeadline, hcase, hkey, hrequest⟩ := h.keys key entry hentry
    obtain ⟨t, ht, hid, hrenewed⟩ := (hkept.states _).some s hs
    have hle := h.deadlines _ s hs
    refine ⟨t, ht, by omega, hid.caseId.trans hcase,
      hid.idempotencyKeyDigest.trans hkey, hid.requestDigest.trans hrequest⟩
  unique := by
    intro i j s t hs ht hcase hkey
    obtain ⟨s₀, hs₀, hids⟩ := hkept.old_get hs
    obtain ⟨t₀, ht₀, hidt⟩ := hkept.old_get ht
    refine h.unique i j s₀ t₀ hs₀ ht₀ ?_ ?_
    · exact hids.caseId.symm.trans (hcase.trans hidt.caseId)
    · exact hids.idempotencyKeyDigest.symm.trans
        (hkey.trans hidt.idempotencyKeyDigest)

/-- A registered snapshot carries the identity of its registration. -/
theorem matches_of_initial {a : Registration} {initial : JobState}
    (h : (store.initialState a).modelValidate = .ok initial) :
    initial.Matches store a := by
  obtain ⟨rfl, _⟩ := JobState.modelValidate_eq_ok_iff.1 h
  exact ⟨rfl, rfl, rfl⟩

/-- A registration keeps the keys bound when no other live job has its case and
its key. -/
theorem KeysBound.commitRegistration (h : KeysBound store r) {a : Registration}
    {initial : JobState}
    (hinitial : (store.initialState a).modelValidate = .ok initial)
    (hjob : r.states.get a.jobId = none)
    (hfree : ∀ j s, j ≠ a.jobId → r.states.get j = some s →
      s.caseId = a.caseId →
      s.idempotencyKeyDigest ≠ store.sha256 a.idempotencyKey) :
    KeysBound store (store.commitRegistration a initial r) := by
  obtain ⟨hcase, hkey, hrequest⟩ := matches_of_initial hinitial
  have habsent : r.states a.jobId = none := by
    simpa [Table.get] using hjob
  refine ⟨?_, ?_, ?_, ?_⟩
  · intro job s hs
    by_cases hj : job = a.jobId
    · subst hj
      rw [show (store.commitRegistration a initial r).states.get a.jobId = _ from
        Table.get_set_self _ _ _ _] at hs
      obtain rfl := Option.some.inj hs
      exact JobState.stored_of_modelValidate hinitial
    · rw [show (store.commitRegistration a initial r).states.get job = _ from
        Table.get_set_of_ne _ hj _ _] at hs
      exact h.stored job s hs
  · intro job entry hentry
    by_cases hj : job = a.jobId
    · subst hj
      rw [show (store.commitRegistration a initial r).states a.jobId = _ from
        Table.set_self _ _ _ _] at hentry
      obtain rfl := Option.some.inj hentry
      exact le_rfl
    · rw [show (store.commitRegistration a initial r).states job = _ from
        Table.set_of_ne _ hj _ _] at hentry
      exact h.deadlines job entry hentry
  · intro key entry hentry
    by_cases hk : key = (a.caseId, store.sha256 a.idempotencyKey)
    · subst hk
      rw [show (store.commitRegistration a initial r).idempotency _ = _ from
        Table.set_self _ _ _ _] at hentry
      obtain rfl := Option.some.inj hentry
      exact ⟨_, Table.set_self _ _ _ _, le_rfl, hcase, hkey, hrequest⟩
    · rw [show (store.commitRegistration a initial r).idempotency key = _ from
        Table.set_of_ne _ hk _ _] at hentry
      obtain ⟨s, hs, hrest⟩ := h.keys key entry hentry
      have hj : entry.value.jobId ≠ a.jobId := by
        intro heq
        rw [heq, habsent] at hs
        cases hs
      exact ⟨s, (Table.set_of_ne _ hj _ _).trans hs, hrest⟩
  · have hothers : ∀ j t, j ≠ a.jobId →
        (store.commitRegistration a initial r).states.get j = some t →
        r.states.get j = some t := fun j t hj ht =>
      (Table.get_set_of_ne _ hj _ _).symm.trans ht
    have hself : ∀ t, (store.commitRegistration a initial r).states.get a.jobId =
        some t → t = initial := fun t ht =>
      (Option.some.inj ((Table.get_set_self _ _ _ _).symm.trans ht)).symm
    intro i j s t hs ht hcases hkeys
    by_cases hi : i = a.jobId
    · by_cases hj : j = a.jobId
      · exact hi.trans hj.symm
      · subst hi
        obtain rfl := hself s hs
        exact absurd (hkeys.symm.trans hkey) (hfree j t hj (hothers j t hj ht)
          (hcases.symm.trans hcase))
    · by_cases hj : j = a.jobId
      · subst hj
        obtain rfl := hself t ht
        exact absurd (hkeys.trans hkey) (hfree i s hi (hothers i s hi hs)
          (hcases.trans hcase))
      · exact h.unique i j s t (hothers i s hi hs) (hothers j t hj ht) hcases hkeys

/-- Expiry keeps the keys bound: a key never outlives the state of its job. -/
theorem KeysBound.tick (h : KeysBound store r) (seconds : Nat) :
    KeysBound store (r.tick seconds) := by
  have hget : ∀ job s, (r.tick seconds).states.get job = some s →
      r.states.get job = some s := by
    intro job s hs
    rcases Table.get_purge r.states (r.clock + seconds) job with hnone | hsame
    · exact absurd (hnone.symm.trans hs) (by simp)
    · exact hsame.symm.trans hs
  refine ⟨fun job s hs => h.stored job s (hget job s hs), ?_, ?_, ?_⟩
  · intro job entry hentry
    have hold := (Table.purge_eq_some_iff _ _ _ _).1 hentry
    have hle := h.deadlines job entry hold.1
    show entry.expiresAt ≤ r.clock + seconds + store.stateTtlSeconds
    omega
  · intro key entry hentry
    obtain ⟨hold, halive⟩ := (Table.purge_eq_some_iff _ _ _ _).1 hentry
    obtain ⟨s, hs, hdeadline, hrest⟩ := h.keys key entry hold
    exact ⟨s, (Table.purge_eq_some_iff _ _ _ _).2 ⟨hs, by omega⟩, hdeadline, hrest⟩
  · intro i j s t hs ht
    exact h.unique i j s t (hget i s hs) (hget j t ht)

end Bound

section Runs

variable {store : DurableJobStore} {ι : Type}
  {c c' : Config jobSignature JobException World ι}

/-- When a registration arrives while another live job has its case and its key,
the key has not expired. -/
def KeysRemembered (store : DurableJobStore) :
    CallCondition jobSignature JobException World ι :=
  fun c e => ∀ a, e.op = .registerJob a → ∀ job s, job ≠ a.jobId →
    c.state.redis.states.get job = some s → s.caseId = a.caseId →
    s.idempotencyKeyDigest = store.sha256 a.idempotencyKey →
    c.state.redis.idempotency.get (a.caseId, store.sha256 a.idempotencyKey) ≠ none

theorem KeysBound.act (h : KeysBound store c.state.redis)
    {e : Event jobSignature JobException World ι} {rest : Proc Unit}
    (hen : Enabled (expiringMachine store) (KeysRemembered store) c e rest) :
    KeysBound store e.after.redis := by
  rcases performs_keys h.stored hen.performs with ⟨a, hcommits⟩ | ⟨_, hkept⟩
  · obtain ⟨initial, hinitial, hafter⟩ := hcommits.committed
    rw [hafter]
    refine h.commitRegistration hinitial hcommits.jobFree ?_
    intro j s hj hs hcase hkey
    exact hen.meets a hcommits.op_eq j s hj hs hcase hkey hcommits.keyFree
  · exact h.kept hkept (statesStored_performs h.stored hen.performs)

theorem KeysBound.drift (h : KeysBound store c.state.redis) {after : World}
    (hdrift : (expiringMachine store).Drifts c.state after) :
    KeysBound store after.redis := by
  obtain ⟨seconds, hseconds⟩ := hdrift
  obtain rfl := Option.some.inj hseconds
  exact h.tick seconds

theorem keysBound_of_run [DecidableEq ι]
    (hrun : Run (expiringMachine store) (KeysRemembered store) c c')
    (h : KeysBound store c.state.redis) : KeysBound store c'.state.redis := by
  refine Run.invariant (I := fun d => KeysBound store d.state.redis) hrun h
    ?_ ?_ ?_
  · intro d e rest hd hen
    exact hd.act hen
  · intro d after hd hdrift
    exact hd.drift hdrift
  · intro d i hd
    exact hd

/-- A replayed registration has found a job of its own identity. -/
theorem KeysBound.matches_of_replays {r : JobRedis} (h : KeysBound store r)
    {a : Registration} {existing : JobState}
    (hstate : r.states.get a.jobId = some existing)
    (hreplays : store.Replays a r existing) : existing.Matches store a := by
  rcases hreplays with ⟨identity, hidentity, hrequest, hjob⟩ | ⟨hcase, hrequest, hkey⟩
  · obtain ⟨entry, hentry, rfl⟩ := Option.map_eq_some_iff.1 hidentity
    obtain ⟨s, hs, _, hcase, hkey, hdigest⟩ := h.keys _ entry hentry
    rw [hjob] at hs
    have hsame : some s.value = some existing :=
      (congrArg (Option.map Entry.value) hs).symm.trans hstate
    obtain rfl := Option.some.inj hsame
    exact ⟨hcase, hkey, hdigest.trans hrequest⟩
  · exact ⟨hcase, hkey, hrequest⟩

/-- A registration with the case and the key of a live job, but with another
payload or for another job, is refused and writes nothing. -/
theorem KeysBound.refuses (h : KeysBound store c.state.redis)
    {e : Event jobSignature JobException World ι} {rest : Proc Unit}
    (hen : Enabled (expiringMachine store) (KeysRemembered store) c e rest)
    {a : Registration} (hop : e.op = .registerJob a) {job : UUID} {s : JobState}
    (hs : c.state.redis.states.get job = some s) (hcase : s.caseId = a.caseId)
    (hkey : s.idempotencyKeyDigest = store.sha256 a.idempotencyKey)
    (hother : job ≠ a.jobId ∨
      s.requestDigest ≠ store.requestDigest a.requestPayload) :
    (∃ error, e.result = .error error) ∧ e.after.redis = c.state.redis := by
  have hcond := hen.meets
  have hstep := hen.performs
  obtain ⟨actor, op, result, before, after⟩ := e
  obtain rfl : op = .registerJob a := hop
  rcases performs_registerJob h.stored hstep with
    hcommits | ⟨existing, hexisting, hreplays, _, _⟩ | hrefused
  · by_cases hjob : job = a.jobId
    · have hfree := hcommits.jobFree
      rw [← hjob, hs] at hfree
      cases hfree
    · exact absurd hcommits.keyFree (hcond a rfl job s hjob hs hcase hkey)
  · -- The job that a replay finds is the only one with this case and key.
    have hmatches := h.matches_of_replays hexisting hreplays
    have hjob : job = a.jobId := h.unique job a.jobId s existing hs hexisting
      (hcase.trans hmatches.1.symm) (hkey.trans hmatches.2.1.symm)
    subst hjob
    obtain rfl := Option.some.inj (hs.symm.trans hexisting)
    rcases hother with hne | hne
    · exact absurd rfl hne
    · exact absurd hmatches.2.2 hne
  · exact hrefused

section Once

/-- Two registrations ask for the same job under the same key and payload. -/
def SameRequest (store : DurableJobStore) (a b : Registration) : Prop :=
  b.jobId = a.jobId ∧ b.caseId = a.caseId ∧
    store.sha256 b.idempotencyKey = store.sha256 a.idempotencyKey ∧
    store.requestDigest b.requestPayload = store.requestDigest a.requestPayload

instance (a b : Registration) : Decidable (SameRequest store a b) := by
  unfold SameRequest
  infer_instance

/-- The registration that a call has answered. -/
def JobOp.answered : (op : JobOp) → Except JobException op.Value →
    Option Registration
  | registerJob a, .ok _ => some a
  | _, _ => none

/-- A registration like `a` has returned. -/
def Returned (store : DurableJobStore) (a : Registration)
    (e : Event jobSignature JobException World ι) : Bool :=
  (JobOp.answered e.op e.result).any fun b => decide (SameRequest store a b)

/-- A registration like `a` has returned `replayed=False`. -/
def ReturnedFresh (store : DurableJobStore) (a : Registration)
    (e : Event jobSignature JobException World ι) : Bool :=
  (JobOp.registered e.op e.result).any fun b => decide (SameRequest store a b)

/-- None of the calls has registered `a`, and its job is not there. -/
structure NotRegistered (store : DurableJobStore) (a : Registration)
    (calls : List (Event jobSignature JobException World ι)) (r : JobRedis) :
    Prop where
  returned : ∀ e ∈ calls, Returned store a e = false
  fresh : calls.countP (ReturnedFresh store a) = 0
  absent : ∀ s, r.states.get a.jobId = some s → ¬ s.Matches store a

/-- Exactly one of the calls has registered `a`, and its job outlives
`deadline`. -/
structure RegisteredOnce (store : DurableJobStore) (a : Registration)
    (deadline : Nat) (calls : List (Event jobSignature JobException World ι))
    (r : JobRedis) : Prop where
  fresh : calls.countP (ReturnedFresh store a) = 1
  present : ∃ entry, r.states a.jobId = some entry ∧
    deadline ≤ entry.expiresAt

variable {a : Registration} {deadline : Nat}
  {calls : List (Event jobSignature JobException World ι)}
  {e : Event jobSignature JobException World ι} {rest : Proc Unit}

theorem returnedFresh_eq_false (h : JobOp.registered e.op e.result = none) :
    ReturnedFresh store a e = false := by
  simp [ReturnedFresh, h]

theorem returnedFresh_eq_decide {b : Registration}
    (h : JobOp.registered e.op e.result = some b) :
    ReturnedFresh store a e = decide (SameRequest store a b) := by
  simp [ReturnedFresh, h]

theorem answered_of_registered {op : JobOp} {res : Except JobException op.Value}
    {b : Registration} (h : op.registered res = some b) :
    op.answered res = some b := by
  cases op with
  | registerJob a =>
      cases res with
      | error e => cases h
      | ok result =>
          simp only [JobOp.registered] at h
          split at h
          next => cases h
          next => exact h
  | _ => cases h

/-- A call that answers a registration like `a` without committing one has found
the job of `a`. -/
theorem matches_of_returned (h : KeysBound store c.state.redis)
    (hen : Enabled (expiringMachine store) (KeysRemembered store) c e rest)
    (hnone : JobOp.registered e.op e.result = none)
    (hreturned : Returned store a e = true) :
    ∃ s, c.state.redis.states.get a.jobId = some s ∧ s.Matches store a := by
  obtain ⟨b, hanswered, hsame⟩ := Option.any_eq_true _ _ |>.1 hreturned
  obtain ⟨hjob, hcase, hkey, hrequest⟩ := of_decide_eq_true hsame
  have hstep := hen.performs
  obtain ⟨actor, op, result, before, after⟩ := e
  cases op with
  | registerJob b' =>
      rcases performs_registerJob h.stored hstep with
        hcommits | ⟨existing, hexisting, hreplays, hresult, _⟩ | ⟨⟨error, herror⟩, _⟩
      · rw [hcommits.registered] at hnone
        cases hnone
      · obtain rfl : result = _ := hresult
        obtain rfl := Option.some.inj hanswered
        have hmatches := h.matches_of_replays hexisting hreplays
        rw [hjob] at hexisting
        exact ⟨existing, hexisting, hmatches.1.trans hcase,
          hmatches.2.1.trans hkey, hmatches.2.2.trans hrequest⟩
      · obtain rfl : result = _ := herror
        cases hanswered
  | _ => cases hanswered

/-- A call on a job that is not registered leaves it so, or registers it. -/
theorem NotRegistered.act (hnot : NotRegistered store a calls c.state.redis)
    (h : KeysBound store c.state.redis)
    (hen : Enabled (expiringMachine store) (KeysRemembered store) c e rest) :
    NotRegistered store a (e :: calls) e.after.redis ∨
      RegisteredOnce store a (c.state.redis.clock + store.stateTtlSeconds)
        (e :: calls) e.after.redis := by
  rcases performs_keys h.stored hen.performs with ⟨b, hcommits⟩ | ⟨hnone, hkept⟩
  · obtain ⟨initial, hinitial, hafter⟩ := hcommits.committed
    have hfresh : ReturnedFresh store a e = decide (SameRequest store a b) :=
      returnedFresh_eq_decide hcommits.registered
    by_cases hsame : SameRequest store a b
    · refine Or.inr ⟨?_, ⟨initial, _⟩, ?_, le_rfl⟩
      · rw [List.countP_cons, hfresh, hnot.fresh]
        simp [hsame]
      · rw [hafter, ← hsame.1]
        exact Table.set_self _ _ _ _
    · refine Or.inl ⟨?_, ?_, ?_⟩
      · intro e' he'
        rcases List.mem_cons.1 he' with rfl | hold
        · simp [Returned, answered_of_registered hcommits.registered, hsame]
        · exact hnot.returned e' hold
      · rw [List.countP_cons, hfresh, hnot.fresh]
        simp [hsame]
      · intro s hs hmatches
        rw [hafter] at hs
        by_cases hjob : a.jobId = b.jobId
        · rw [hjob, show (store.commitRegistration b initial _).states.get b.jobId =
            _ from Table.get_set_self _ _ _ _] at hs
          obtain rfl := Option.some.inj hs
          obtain ⟨hcase, hkey, hrequest⟩ := matches_of_initial hinitial
          exact hsame ⟨hjob.symm, hcase.symm.trans hmatches.1,
            hkey.symm.trans hmatches.2.1, hrequest.symm.trans hmatches.2.2⟩
        · rw [show (store.commitRegistration b initial _).states.get a.jobId = _
            from Table.get_set_of_ne _ hjob _ _] at hs
          exact hnot.absent s hs hmatches
  · refine Or.inl ⟨?_, ?_, ?_⟩
    · intro e' he'
      rcases List.mem_cons.1 he' with rfl | hold
      · by_contra hreturned
        rw [Bool.not_eq_false] at hreturned
        obtain ⟨s, hs, hmatches⟩ := matches_of_returned h hen hnone hreturned
        exact hnot.absent s hs hmatches
      · exact hnot.returned e' hold
    · rw [List.countP_cons, returnedFresh_eq_false hnone, hnot.fresh]
      rfl
    · intro t ht hmatches
      obtain ⟨s, hs, hid⟩ := hkept.old_get ht
      exact hnot.absent s hs (hmatches.of_sameIdentity hid)

/-- A job that is registered once stays so, until its deadline. -/
theorem RegisteredOnce.act (honce : RegisteredOnce store a deadline calls
      c.state.redis) (h : KeysBound store c.state.redis)
    (hdeadline : deadline ≤ c.state.redis.clock + store.stateTtlSeconds)
    (hen : Enabled (expiringMachine store) (KeysRemembered store) c e rest) :
    RegisteredOnce store a deadline (e :: calls) e.after.redis := by
  obtain ⟨entry, hentry, hlate⟩ := honce.present
  rcases performs_keys h.stored hen.performs with ⟨b, hcommits⟩ | ⟨hnone, hkept⟩
  · obtain ⟨initial, hinitial, hafter⟩ := hcommits.committed
    have hjob : a.jobId ≠ b.jobId := by
      intro heq
      have hfree := hcommits.jobFree
      rw [← heq, Table.get, hentry] at hfree
      cases hfree
    have hother : ¬ SameRequest store a b := fun hsame => hjob hsame.1.symm
    refine ⟨?_, entry, ?_, hlate⟩
    · rw [List.countP_cons, returnedFresh_eq_decide hcommits.registered, honce.fresh]
      simp [hother]
    · rw [hafter]
      exact (Table.set_of_ne _ hjob _ _).trans hentry
  · obtain ⟨new, hnew, _, hrenewed⟩ := (hkept.states a.jobId).some entry hentry
    refine ⟨?_, new, hnew, by omega⟩
    rw [List.countP_cons, returnedFresh_eq_false hnone, honce.fresh]
    rfl

/-- What a run has done about the registration `a` since the clock stood at
`start`. -/
def OnceSince (store : DurableJobStore) (a : Registration) (start : Nat)
    (calls : List (Event jobSignature JobException World ι)) (r : JobRedis) :
    Prop :=
  r.clock < start + store.stateTtlSeconds →
    NotRegistered store a calls r ∨
      RegisteredOnce store a (start + store.stateTtlSeconds) calls r

theorem RegisteredOnce.mono {r : JobRedis} {deadline' : Nat}
    (h : RegisteredOnce store a deadline calls r) (hle : deadline' ≤ deadline) :
    RegisteredOnce store a deadline' calls r := by
  obtain ⟨entry, hentry, hlate⟩ := h.present
  exact ⟨h.fresh, entry, hentry, hle.trans hlate⟩

theorem clock_performs {tick : JobRedis → Nat → JobRedis} {op : JobOp}
    {w w' : World} {res : Except JobException op.Value}
    (hr : w.redis.StatesStored)
    (h : (jobMachine store tick).Performs op w res w') :
    w'.redis.clock = w.redis.clock := by
  rcases performs_keys hr h with ⟨b, hcommits⟩ | ⟨_, hkept⟩
  · obtain ⟨_, _, hafter⟩ := hcommits.committed
    rw [hafter]
    rfl
  · exact hkept.clock

theorem OnceSince.act {start : Nat} (honce : OnceSince store a start calls
      c.state.redis) (hstart : start ≤ c.state.redis.clock)
    (h : KeysBound store c.state.redis)
    (hen : Enabled (expiringMachine store) (KeysRemembered store) c e rest) :
    OnceSince store a start (e :: calls) e.after.redis := by
  intro hclock
  rw [clock_performs h.stored hen.performs] at hclock
  rcases honce hclock with hnot | honce
  · rcases hnot.act h hen with hnot' | honce'
    · exact Or.inl hnot'
    · exact Or.inr (honce'.mono (by omega))
  · exact Or.inr (honce.act h (by omega) hen)

theorem OnceSince.tick {start : Nat} {r : JobRedis}
    (honce : OnceSince store a start calls r) (seconds : Nat) :
    OnceSince store a start calls (r.tick seconds) := by
  intro hclock
  have hbefore : r.clock < start + store.stateTtlSeconds :=
    lt_of_le_of_lt (Nat.le_add_right _ seconds) hclock
  rcases honce hbefore with hnot | honce
  · refine Or.inl ⟨hnot.returned, hnot.fresh, fun s hs => ?_⟩
    rcases Table.get_purge r.states (r.clock + seconds) a.jobId with hnone | hsame
    · exact absurd (hnone.symm.trans hs) (by simp)
    · exact hnot.absent s (hsame.symm.trans hs)
  · obtain ⟨entry, hentry, hlate⟩ := honce.present
    refine Or.inr ⟨honce.fresh, entry, ?_, hlate⟩
    exact (Table.purge_eq_some_iff _ _ _ _).2 ⟨hentry, lt_of_lt_of_le hclock hlate⟩

/-- Among the registrations like `a` that return before the time to live has
passed, exactly one returns `replayed=False`. -/
theorem registered_once [DecidableEq ι] (h : KeysBound store c.state.redis)
    (habsent : c.state.redis.states.get a.jobId = none)
    (hmore : Run (expiringMachine store) (KeysRemembered store) c c') :
    ∃ calls, c'.history = calls ++ c.history ∧
      c.state.redis.clock ≤ c'.state.redis.clock ∧
      OnceSince store a c.state.redis.clock calls c'.state.redis := by
  refine (Run.invariant (I := fun d => KeysBound store d.state.redis ∧
    ∃ calls, d.history = calls ++ c.history ∧
      c.state.redis.clock ≤ d.state.redis.clock ∧
      OnceSince store a c.state.redis.clock calls d.state.redis) hmore
    ⟨h, [], rfl, le_rfl, ?_⟩ ?_ ?_ ?_).2
  · intro _
    refine Or.inl ⟨by simp, rfl, ?_⟩
    intro s hs
    rw [habsent] at hs
    cases hs
  · rintro d e rest ⟨hd, calls, hhistory, hclock, honce⟩ hen
    refine ⟨hd.act hen, e :: calls, ?_, ?_, honce.act hclock hd hen⟩
    · rw [Config.perform_history, hhistory]
      rfl
    · rw [Config.perform_state, clock_performs hd.stored hen.performs]
      exact hclock
  · rintro d after ⟨hd, calls, hhistory, hclock, honce⟩ hdrift
    refine ⟨hd.drift hdrift, ?_⟩
    obtain ⟨seconds, hseconds⟩ := hdrift
    obtain rfl := Option.some.inj hseconds
    exact ⟨calls, hhistory, hclock.trans (Nat.le_add_right _ seconds),
      honce.tick seconds⟩
  · rintro d i hd
    exact hd

end Once

/-- Where no registration comes after its key has expired while another job of
its case and key is still alive: two live jobs never share a case and a key; a
registration that differs from a live job of its case and key in the payload or
the job is refused and writes nothing; and of the registrations of a fresh job
that return within one time to live exactly one returns `replayed=False`. -/
theorem registrations_unique_while_keys_remembered [DecidableEq ι]
    (pool : ι → Proc Unit)
    (hrun : Run (expiringMachine store) (KeysRemembered store)
      (start World.initial pool) c) :
    (∀ i j s t, c.state.redis.states.get i = some s →
      c.state.redis.states.get j = some t → s.caseId = t.caseId →
      s.idempotencyKeyDigest = t.idempotencyKeyDigest → i = j) ∧
    (∀ e rest a job s,
      Enabled (expiringMachine store) (KeysRemembered store) c e rest →
      e.op = .registerJob a → c.state.redis.states.get job = some s →
      s.caseId = a.caseId →
      s.idempotencyKeyDigest = store.sha256 a.idempotencyKey →
      (job ≠ a.jobId ∨ s.requestDigest ≠ store.requestDigest a.requestPayload) →
      (∃ error, e.result = .error error) ∧ e.after.redis = c.state.redis) ∧
    ∀ a c', c.state.redis.states.get a.jobId = none →
      Run (expiringMachine store) (KeysRemembered store) c c' →
      c'.state.redis.clock < c.state.redis.clock + store.stateTtlSeconds →
      ∃ calls, c'.history = calls ++ c.history ∧
        ((∃ e ∈ calls, Returned store a e = true) →
          calls.countP (ReturnedFresh store a) = 1) := by
  have hbound := keysBound_of_run hrun (keysBound_initial store)
  refine ⟨hbound.unique, ?_, ?_⟩
  · intro e rest a job s hen hop hs hcase hkey hother
    exact hbound.refuses hen hop hs hcase hkey hother
  · intro a c' habsent hmore hclock
    obtain ⟨calls, hhistory, _, honce⟩ := registered_once hbound habsent hmore
    refine ⟨calls, hhistory, ?_⟩
    rintro ⟨e, he, hreturned⟩
    rcases honce hclock with hnot | honce
    · rw [hnot.returned e he] at hreturned
      cases hreturned
    · exact honce.fresh

section Sample

/-- Two processes register the same job. -/
def registeringPool : Bool → Proc Unit := fun _ => do
  let _ ← call (.registerJob sampleRegistration)

/-- A registration is let through only while its key is remembered. -/
def remembersKey (c : Config jobSignature JobException World Bool)
    (e : Event jobSignature JobException World Bool) : Bool :=
  match e.op with
  | .registerJob a => (c.state.redis.idempotency.get
      (a.caseId, sampleStore.sha256 a.idempotencyKey)).isSome
  | _ => true

theorem keysRemembered_of_remembersKey
    (c : Config jobSignature JobException World Bool)
    (e : Event jobSignature JobException World Bool)
    (h : remembersKey c e = true) : KeysRemembered sampleStore c e := by
  intro a hop job s _ _ _ _ hnone
  obtain ⟨actor, op, result, before, after⟩ := e
  obtain rfl : op = .registerJob a := hop
  have h' : (c.state.redis.idempotency.get
      (a.caseId, sampleStore.sha256 a.idempotencyKey)).isSome = true := h
  rw [hnone] at h'
  cases h'

theorem concurrent_registrations_registered_once :
    ∃ (c : Config jobSignature JobException World Bool),
      Run (expiringMachine sampleStore) (KeysRemembered sampleStore)
        (start World.initial registeringPool) c ∧
      c.history.length = 2 ∧
      c.history.countP (ReturnedFresh sampleStore sampleRegistration) = 1 := by
  have hplay : (nextCall (expiringMachine sampleStore) (fun _ _ => true)
      (start World.initial registeringPool) false quiet).any (fun p =>
        (play (M := expiringMachine sampleStore) remembersKey [.act true quiet]
          ((start World.initial registeringPool).perform p.1 p.2)).any fun c =>
            decide (c.history.length = 2) &&
            decide (c.state.redis.clock < sampleStore.stateTtlSeconds) &&
            c.history.any (Returned sampleStore sampleRegistration)) = true := by
    decide
  have hanything : ∀ (c : Config jobSignature JobException World Bool)
      (e : Event jobSignature JobException World Bool), true = true →
      Anything c e := fun _ _ _ => trivial
  obtain ⟨e, rest, hen, hplay⟩ := exists_enabled_of_nextCall hanything hplay
  -- The first registration comes to an empty server.
  have hfirst : Enabled (expiringMachine sampleStore) (KeysRemembered sampleStore)
      (start World.initial registeringPool) e rest :=
    ⟨hen.next, hen.before, hen.performs, by rintro a _ job s _ ⟨⟩⟩
  obtain ⟨c, hmore, htest⟩ :=
    exists_run_of_play keysRemembered_of_remembersKey hplay
  simp only [Bool.and_eq_true, decide_eq_true_eq] at htest
  obtain ⟨⟨hlength, hclock⟩, hany⟩ := htest
  have hrun := Relation.ReflTransGen.head (Step.act hfirst) hmore
  obtain ⟨calls, hhistory, honce⟩ :=
    (registrations_unique_while_keys_remembered registeringPool .refl).2.2
      sampleRegistration c rfl hrun (by
        change c.state.redis.clock < 0 + sampleStore.stateTtlSeconds
        omega)
  obtain rfl : c.history = calls := hhistory.trans (List.append_nil calls)
  obtain ⟨e', he', hreturned⟩ := List.any_eq_true.1 hany
  exact ⟨c, hrun, hlength, honce ⟨e', he', hreturned⟩⟩

/-- A job is registered, acknowledged after almost a week, and registered again
under another identifier after a week. -/
def laterRegistrationPool : Nat → Proc Unit
  | 0 => do let _ ← call (.registerJob sampleRegistration)
  | 1 => do let _ ← call (.markCallbackSynced 1 1)
  | _ => do let _ ← call (.registerJob { sampleRegistration with jobId := 2 })

/-- The acknowledgement renews the state but not the idempotency key, and the
later registration finds neither its key nor its job. -/
theorem two_live_jobs_under_one_key :
    ∃ (c : Config jobSignature JobException World Nat) (s t : JobState),
      Run (expiringMachine sampleStore) Anything
        (start World.initial laterRegistrationPool) c ∧
      c.state.redis.states.get 1 = some s ∧
      c.state.redis.states.get 2 = some t ∧
      s.caseId = t.caseId ∧ s.idempotencyKeyDigest = t.idempotencyKeyDigest := by
  have hplay : (play (M := expiringMachine sampleStore) (fun _ _ => true)
      [.act 0 quiet, .drift (600000 : Nat), .act 1 quiet, .drift (10000 : Nat),
        .act 2 quiet] (start World.initial laterRegistrationPool)).any (fun c =>
        (c.state.redis.states.get 1).any fun s =>
          (c.state.redis.states.get 2).any fun t =>
            decide (s.caseId = t.caseId ∧
              s.idempotencyKeyDigest = t.idempotencyKeyDigest)) = true := by
    decide
  obtain ⟨c, hrun, htest⟩ := exists_run_of_play (fun _ _ _ => trivial) hplay
  obtain ⟨s, hs, htest⟩ := Option.any_eq_true _ _ |>.1 htest
  obtain ⟨t, ht, htest⟩ := Option.any_eq_true _ _ |>.1 htest
  exact ⟨c, s, t, hrun, hs, ht, of_decide_eq_true htest⟩

end Sample

end Runs

end SearchTrust.Jobs
