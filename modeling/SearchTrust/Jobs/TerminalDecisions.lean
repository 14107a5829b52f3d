/-
Terminal decisions across interleavings.  A capability job fails only after the
database has answered so, and whoever has got an answer does next what it decides.
-/
import SearchTrust.Jobs.Decisions
import SearchTrust.Jobs.Registration

namespace SearchTrust.Jobs

open SearchTrust.Interleave SearchTrust.Interleave.Program SearchTrust.Redis

section Grounds

variable {ι : Type} {c : Config jobSignature JobException World ι}

/-- A registration with the property was committed. -/
def Registers (P : Registration → Prop)
    (c : Config jobSignature JobException World ι) : Prop :=
  ∃ e ∈ c.history, ∃ a, e.op.registered e.result = some a ∧ P a

/-- The job was registered for the case. -/
def RegisteredFor (job caseId : UUID) :
    Config jobSignature JobException World ι → Prop :=
  Registers fun a => a.jobId = job ∧ a.caseId = caseId

/-- The job was registered with the payload. -/
def RegisteredWith (job : UUID) (payload : RequestPayload) :
    Config jobSignature JobException World ι → Prop :=
  Registers fun a => a.jobId = job ∧ a.requestPayload = payload

/-- The job was registered with another request than one of a capability. -/
def Plain (job : UUID) : Config jobSignature JobException World ι → Prop :=
  Registers fun a => a.jobId = job ∧ isCapabilityRequest (some a.requestPayload) = false

/-- Every state and every request that the server holds was registered. -/
structure Grounded (c : Config jobSignature JobException World ι) : Prop where
  stored : c.state.redis.StatesStored
  named : c.state.redis.StatesNamed
  states : ∀ job s, c.state.redis.states.get job = some s → RegisteredFor job s.caseId c
  requests : ∀ job payload, c.state.redis.requests.get job = some payload →
    RegisteredWith job payload c

theorem Registers.mono {P Q : Registration → Prop} (h : Registers P c)
    (hPQ : ∀ a, P a → Q a) : Registers Q c := by
  obtain ⟨e, he, a, ha, hP⟩ := h
  exact ⟨e, he, a, ha, hPQ a hP⟩

theorem Registers.perform [DecidableEq ι] {P : Registration → Prop} (h : Registers P c)
    (e : Event jobSignature JobException World ι) (rest : Proc Unit) :
    Registers P (c.perform e rest) := by
  obtain ⟨e', he', hP⟩ := h
  exact ⟨e', List.mem_cons_of_mem e he', hP⟩

/-- A request changes by a registration only. -/
theorem Write.requestsKept {store : DurableJobStore} {r r' : JobRedis} {op : JobOp}
    (h : Write store r op r') (hop : ∀ a, op ≠ .registerJob a) (job : UUID) :
    r'.requests.get job = r.requests.get job := by
  cases h with
  | registered a => exact absurd rfl (hop a)
  | moved a current next hcurrent hfits => exact Table.get_expire _ _ _ _
  | reopened j now current next hcurrent _ _ hnext => exact Table.get_expire _ _ _ _
  | _ => rfl

variable {store : DurableJobStore} {tick : JobRedis → Nat → JobRedis}
  {e : Event jobSignature JobException World ι} {rest : Proc Unit}

theorem performs_requests (hr : c.state.redis.StatesStored)
    (h : (jobMachine store tick).Performs e.op c.state e.result e.after) :
    (∃ a, Commits store a e.op e.result c.state.redis e.after.redis) ∨
      ∀ job, e.after.redis.requests.get job = c.state.redis.requests.get job := by
  obtain ⟨actor, op, result, before, after⟩ := e
  by_cases hop : ∃ a, op = .registerJob a
  · obtain ⟨a, rfl⟩ := hop
    rcases performs_registerJob hr h with hcommits | ⟨_, _, _, _, hsame⟩ | ⟨_, hsame⟩
    · exact Or.inl ⟨a, hcommits⟩
    · exact Or.inr fun job => congrArg (fun r => r.requests.get job) hsame
    · exact Or.inr fun job => congrArg (fun r => r.requests.get job) hsame
  · have hne : ∀ a, op ≠ .registerJob a := fun a ha => hop ⟨a, ha⟩
    rcases performs_write hr h with hsame | hwrite
    · exact Or.inr fun job => congrArg (fun r => r.requests.get job) hsame
    · exact Or.inr (hwrite.requestsKept hne)

/-- A committed registration is in the history. -/
theorem registers_of_commits [DecidableEq ι] {a : Registration} {r r' : JobRedis}
    (h : Commits store a e.op e.result r r') {P : Registration → Prop} (hP : P a) :
    Registers P (c.perform e rest) :=
  ⟨e, List.mem_cons_self, a, h.registered, hP⟩

theorem Grounded.perform_states [DecidableEq ι] (h : Grounded c)
    (hstep : (jobMachine store tick).Performs e.op c.state e.result e.after)
    {job : UUID} {s : JobState} (hs : e.after.redis.states.get job = some s) :
    RegisteredFor job s.caseId (c.perform e rest) := by
  rcases performs_keys h.stored hstep with ⟨a, hcommits⟩ | ⟨_, hkept⟩
  · obtain ⟨initial, hinitial, hafter⟩ := hcommits.committed
    rw [hafter] at hs
    by_cases hjob : job = a.jobId
    · subst hjob
      obtain rfl := Option.some.inj ((Table.get_set_self _ _ _ _).symm.trans hs)
      exact registers_of_commits hcommits ⟨rfl, (matches_of_initial hinitial).1.symm⟩
    · have hold := (Table.get_set_of_ne _ hjob _ _).symm.trans hs
      exact (h.states job s hold).perform e rest
  · obtain ⟨old, hold, hid⟩ := hkept.old_get hs
    rw [hid.caseId]
    exact (h.states job old hold).perform e rest

theorem Grounded.perform_requests [DecidableEq ι] (h : Grounded c)
    (hstep : (jobMachine store tick).Performs e.op c.state e.result e.after)
    {job : UUID} {payload : RequestPayload}
    (hpayload : e.after.redis.requests.get job = some payload) :
    RegisteredWith job payload (c.perform e rest) := by
  rcases performs_requests h.stored hstep with ⟨a, hcommits⟩ | hsame
  · obtain ⟨initial, _, hafter⟩ := hcommits.committed
    rw [hafter] at hpayload
    by_cases hjob : job = a.jobId
    · subst hjob
      obtain rfl := Option.some.inj ((Table.get_set_self _ _ _ _).symm.trans hpayload)
      exact registers_of_commits hcommits ⟨rfl, rfl⟩
    · have hold := (Table.get_set_of_ne _ hjob _ _).symm.trans hpayload
      exact (h.requests job payload hold).perform e rest
  · exact (h.requests job payload ((hsame job).symm.trans hpayload)).perform e rest

theorem Grounded.perform [DecidableEq ι] (h : Grounded c)
    (hstep : (jobMachine store tick).Performs e.op c.state e.result e.after) :
    Grounded (c.perform e rest) where
  stored := statesStored_performs h.stored hstep
  named := statesNamed_performs h.stored h.named hstep
  states _ _ hs := h.perform_states hstep hs
  requests _ _ hpayload := h.perform_requests hstep hpayload

/-- What expires was registered too. -/
theorem Grounded.drifted (h : Grounded c) {after : World}
    (hdrift : (expiringMachine store).Drifts c.state after) :
    Grounded (c.drifted after) := by
  obtain ⟨seconds, hseconds⟩ := hdrift
  obtain rfl := Option.some.inj hseconds
  refine ⟨h.stored.tick seconds, h.named.tick seconds, ?_, ?_⟩
  · intro job s hs
    rcases Table.get_purge c.state.redis.states _ job with hnone | hsame
    · cases hnone.symm.trans hs
    · exact h.states job s (hsame.symm.trans hs)
  · intro job payload hpayload
    rcases Table.get_purge c.state.redis.requests _ job with hnone | hsame
    · cases hnone.symm.trans hpayload
    · exact h.requests job payload (hsame.symm.trans hpayload)

theorem grounded_start (pool : ι → Proc Unit) :
    Grounded (start World.initial pool) := by
  refine ⟨statesStored_initial, statesNamed_initial, ?_, ?_⟩
  · intro job s h
    cases h
  · intro job payload h
    cases h

end Grounds

section Rules

variable {store : DurableJobStore} {ι : Type} [DecidableEq ι] {i : ι}
  {c : Config jobSignature JobException World ι}

/-- The request of a job that was registered with capability requests only is there
whenever it is read. -/
def RequestsRemembered : CallCondition jobSignature JobException World ι :=
  fun c e => ∀ job, e.op = .getRequest job →
    Plain job c ∨ (c.state.redis.requests.get job).isSome = true

/-- What a process owes. -/
def owed (i : ι) (c : Config jobSignature JobException World ι) : Debt :=
  debt (ownCalls c.history i)

/-- What every call has to meet. -/
structure FollowsDecisions (c : Config jobSignature JobException World ι)
    (e : Event jobSignature JobException World ι) : Prop where
  failed : ∀ job, e.after.redis.Failed job → ¬ c.state.redis.Failed job →
    Plain job c ∨ ∃ request, owed e.actor c = .answered request ⟨"failed", none⟩ ∧
      request.jobId = job
  pays : ∀ job caseId, (owed e.actor c).job = some job →
    (∀ k, RegisteredFor job k c → k = caseId) → Pays caseId (owed e.actor c) e.op
  asks : ∀ request, e.op = .finalizeFailure request →
    ∃ payload, RegisteredWith request.jobId payload c ∧
      payload.capabilityRequest = some request.task

def decisionDiscipline (ι : Type) [DecidableEq ι] :
    Discipline jobSignature JobException World ι where
  inv := Grounded
  cond := RequestsRemembered
  goal := FollowsDecisions

theorem decisionDiscipline_kept :
    (decisionDiscipline ι).Kept (expiringMachine store) where
  act h hen _ := h.perform hen.performs
  drift h hdrift := h.drifted hdrift
  crash _ h := ⟨h.stored, h.named, h.states, h.requests⟩

/-- The process owes nothing. -/
def Free (i : ι) (c : Config jobSignature JobException World ι) : Prop :=
  owed i c = .none

/-- The process owes nothing, or it has got an answer that is not valid. -/
def Idle (i : ι) (c : Config jobSignature JobException World ι) : Prop :=
  Free i c ∨ ∃ request answer caseId, owed i c = .answered request answer ∧
    RegisteredFor request.jobId caseId c ∧ verdict caseId request answer = none

theorem Free.idle (h : Free i c) : Idle i c := Or.inl h

theorem persistent_registers (P : Registration → Prop) :
    Persistent (expiringMachine store) (decisionDiscipline ι) (Registers P) :=
  .of_history _

theorem stable_owed (P : Debt → Prop) :
    Stable (expiringMachine store) (decisionDiscipline ι) i fun c => P (owed i c) :=
  .of_ownCalls fun own => P (debt own)

theorem stable_free :
    Stable (expiringMachine store) (decisionDiscipline ι) i (Free i) :=
  stable_owed fun d => d = .none

theorem stable_idle :
    Stable (expiringMachine store) (decisionDiscipline ι) i (Idle i) where
  act := by
    rintro c e rest hinv (hfree | ⟨request, answer, caseId, howed, hcase, hnone⟩) hi hen
      hgoal
    · exact Or.inl (stable_free.act hinv hfree hi hen hgoal)
    · refine Or.inr ⟨request, answer, caseId, ?_, hcase.perform e rest, hnone⟩
      exact (stable_owed fun d => d = _).act hinv howed hi hen hgoal
  drift := fun _ h _ => h
  crash := fun _ _ h => h

theorem owed_perform {d : Debt} (howed : owed i c = d) (op : JobOp)
    (result : Except JobException op.Value) (after : World) (rest : Proc Unit) :
    owed i (c.perform ⟨i, op, result, c.state, after⟩ rest) = d.after op result := by
  have hown := ownCalls_cons_self (⟨i, op, result, c.state, after⟩ :
    Event jobSignature JobException World ι) c.history
  unfold owed at howed ⊢
  rw [Config.perform_history, hown, ← howed]
  rfl

variable {op : JobOp} {result : Except JobException op.Value} {after : World}

/-- An ordinary call of a process that owes nothing. -/
theorem follows_of_ordinary (hop : op.Ordinary) (hinv : Grounded c)
    (hfree : Free i c)
    (hstep : (expiringMachine store).Performs op c.state result after) :
    FollowsDecisions c ⟨i, op, result, c.state, after⟩ where
  failed job hafter hbefore :=
    absurd (not_performs_failed_of_ordinary hop hinv.stored hstep hafter) hbefore
  pays job caseId hjob _ := by
    have hnone : owed i c = .none := hfree
    rw [hnone] at hjob
    cases hjob
  asks := by
    rintro request rfl
    exact hop.elim

/-- A call that neither moves a job nor asks the database. -/
theorem follows_of_not_steers (hop : op.steers = false) (hinv : Grounded c)
    (hidle : Idle i c)
    (hstep : (expiringMachine store).Performs op c.state result after) :
    FollowsDecisions c ⟨i, op, result, c.state, after⟩ := by
  have hordinary := JobOp.ordinary_of_not_steers hop
  rcases hidle with hfree | ⟨request, answer, caseId, howed, hcase, hnone⟩
  · exact follows_of_ordinary hordinary hinv hfree hstep
  · refine ⟨?_, ?_, ?_⟩
    · intro job hafter hbefore
      exact absurd (not_performs_failed_of_ordinary hordinary hinv.stored hstep hafter)
        hbefore
    · intro job k hjob hunique
      rw [howed] at hjob
      obtain rfl := Option.some.inj hjob
      obtain rfl := hunique caseId hcase
      rw [howed]
      simp only [Pays, hnone]
      exact hop
    · rintro request' rfl
      cases hop

theorem free_of_ordinary (hop : op.Ordinary) (hfree : Free i c) (rest : Proc Unit) :
    Free i (c.perform ⟨i, op, result, c.state, after⟩ rest) :=
  (owed_perform hfree op result after rest).trans (Debt.after_of_ordinary hop result)

theorem free_of_not_steers (hop : op.steers = false) (hidle : Idle i c)
    (rest : Proc Unit) :
    Free i (c.perform ⟨i, op, result, c.state, after⟩ rest) := by
  rcases hidle with hfree | ⟨request, answer, caseId, howed, _, _⟩
  · exact free_of_ordinary (JobOp.ordinary_of_not_steers hop) hfree rest
  · exact (owed_perform howed op result after rest).trans
      (Debt.after_of_not_steers hop result)

/-- Calls that neither move a job nor ask the database. -/
theorem safe_of_not_steers {α : Type} {p : Proc α}
    (hp : p.OnlyCalls fun op : JobOp => op.steers = false) :
    Safe (expiringMachine store) (decisionDiscipline ι) i p (Idle i) fun _ => Idle i := by
  refine Safe.of_onlyCalls hp stable_idle ?_
  intro c op result after hop hinv hidle hstep _
  exact ⟨follows_of_not_steers hop hinv hidle hstep,
    fun rest => (free_of_not_steers hop hidle rest).idle⟩

/-- After such a call nothing is owed any more. -/
theorem safe_call_of_not_steers (hop : op.steers = false) :
    Safe (expiringMachine store) (decisionDiscipline ι) i (call op) (Idle i)
      fun _ => Free i := by
  refine Safe.perform_post (fun _ => stable_free) ?_
  intro c result after hinv hidle hstep _
  exact ⟨follows_of_not_steers hop hinv hidle hstep,
    fun rest _ => free_of_not_steers hop hidle rest⟩

/-- Ordinary calls of a process that owes nothing. -/
theorem safe_of_ordinary {α : Type} {p : Proc α} (hp : p.OnlyCalls JobOp.Ordinary) :
    Safe (expiringMachine store) (decisionDiscipline ι) i p (Free i) fun _ => Free i := by
  refine Safe.of_onlyCalls hp stable_free ?_
  intro c op result after hop hinv hfree hstep _
  exact ⟨follows_of_ordinary hop hinv hfree hstep, free_of_ordinary hop hfree⟩

/-- Ordinary calls, next to an assertion that no step breaks. -/
theorem safe_ordinary_frame {α : Type} {p : Proc α}
    {J : Config jobSignature JobException World ι → Prop}
    (hJ : Persistent (expiringMachine store) (decisionDiscipline ι) J)
    (hp : p.OnlyCalls JobOp.Ordinary) :
    Safe (expiringMachine store) (decisionDiscipline ι) i p (fun c => Free i c ∧ J c)
      (Outcome (fun _ c => Free i c ∧ J c) fun _ => Idle i) := by
  refine ((safe_of_ordinary hp).frame hJ).weaken fun outcome c _ h => ?_
  cases outcome with
  | ok value => exact h
  | error error => exact Free.idle h.1

/-- One call that neither moves a job nor asks, next to such an assertion. -/
theorem safe_call_frame {J : Config jobSignature JobException World ι → Prop}
    (hJ : Persistent (expiringMachine store) (decisionDiscipline ι) J)
    (hop : op.steers = false) :
    Safe (expiringMachine store) (decisionDiscipline ι) i (call op)
      (fun c => Idle i c ∧ J c)
      (Outcome (fun _ c => Free i c ∧ J c) fun _ => Idle i) := by
  refine ((safe_call_of_not_steers hop).frame hJ).weaken fun outcome c _ h => ?_
  cases outcome with
  | ok value => exact h
  | error error => exact Free.idle h.1

/-- What holds of every outcome holds of the value and of the exception. -/
theorem safe_bothOutcomes {α : Type} {p : Proc α}
    {A B : Config jobSignature JobException World ι → Prop}
    (hp : Safe (expiringMachine store) (decisionDiscipline ι) i p A fun _ => B) :
    Safe (expiringMachine store) (decisionDiscipline ι) i p A
      (Outcome (fun _ => B) fun _ => B) := by
  refine hp.weaken fun outcome c _ h => ?_
  cases outcome <;> exact h

end Rules

section Reads

variable {store : DurableJobStore} {ι : Type} [DecidableEq ι] {i : ι}
  {c : Config jobSignature JobException World ι} {job : UUID} {state : JobState}

/-- A snapshot of a job that was registered for its case. -/
def Known (s : JobState) (c : Config jobSignature JobException World ι) : Prop :=
  s.Stored ∧ RegisteredFor s.jobId s.caseId c

theorem persistent_known (s : JobState) :
    Persistent (expiringMachine store) (decisionDiscipline ι) (Known s) where
  act hinv h hstep hcond hgoal :=
    ⟨h.1, (persistent_registers _).act hinv h.2 hstep hcond hgoal⟩
  drift _ h _ := h
  crash _ _ h := h

omit [DecidableEq ι] in
theorem Grounded.known (h : Grounded c)
    (hstate : c.state.redis.states.get job = some state) : Known state c := by
  refine ⟨h.stored job state hstate, ?_⟩
  rw [h.named job state hstate]
  exact h.states job state hstate

/-- What is known of a snapshot that was read. -/
def ReadsKnown (job : UUID) : Except JobException (Option JobState) →
    Config jobSignature JobException World ι → Prop
  | .ok (some state), c => state.jobId = job ∧ Known state c
  | _, _ => True

theorem stable_readsKnown (result : Except JobException (Option JobState)) :
    Stable (expiringMachine store) (decisionDiscipline ι) i (ReadsKnown job result) := by
  rcases result with _ | _ | state
  · exact .const True
  · exact .const True
  · exact (Stable.const _).and ((persistent_known state).stable i)

theorem safe_getState_known (job : UUID) :
    Safe (expiringMachine store) (decisionDiscipline ι) i (call (.getState job)) (Idle i)
      fun result c => ReadsKnown job result c ∧ Free i c := by
  refine Safe.perform_post (fun result => (stable_readsKnown result).and stable_free) ?_
  intro c result after hinv hidle hstep _
  refine ⟨follows_of_not_steers rfl hinv hidle hstep, fun rest _ => ⟨?_, ?_⟩⟩
  · obtain ⟨_, rfl | ⟨_, rfl⟩⟩ := performs_getState hinv.stored hstep
    · cases hstate : c.state.redis.states.get job with
      | none => trivial
      | some state =>
          have hknown := hinv.known hstate
          exact ⟨hinv.named job state hstate, hknown.1, hknown.2.perform _ rest⟩
    · trivial
  · exact free_of_not_steers rfl hidle rest

/-- A snapshot that is read is one of a registered job. -/
theorem safe_requireState_known (job : UUID) :
    Safe (expiringMachine store) (decisionDiscipline ι) i (requireState job) (Idle i)
      fun outcome c => (∀ state, outcome = .ok state → state.jobId = job ∧
        Known state c) ∧ Free i c := by
  refine Safe.bind (B := fun found c => ReadsKnown job (.ok found) c ∧ Free i c) ?_ ?_
  · refine (safe_getState_known job).weaken fun outcome c _ h => ?_
    cases outcome with
    | ok found => exact h
    | error error => exact ⟨fun _ hstate => (by cases hstate), h.2⟩
  · intro found
    cases found with
    | none => exact Safe.raise fun c _ h => ⟨fun _ hstate => (by cases hstate), h.2⟩
    | some state =>
        refine Safe.ret fun c _ h => ⟨?_, h.2⟩
        rintro _ ⟨⟩
        exact h.1

/-- What is known of a request that was read. -/
def RequestKnown (job : UUID) : Option RequestPayload →
    Config jobSignature JobException World ι → Prop
  | some payload => RegisteredWith job payload
  | none => Plain job

theorem persistent_requestKnown (request : Option RequestPayload) :
    Persistent (expiringMachine store) (decisionDiscipline ι)
      (RequestKnown job request) := by
  cases request with
  | some payload => exact persistent_registers _
  | none => exact persistent_registers _

omit [DecidableEq ι] in
theorem RequestKnown.plain {request : Option RequestPayload}
    (h : RequestKnown job request c) (hplain : ¬ isCapabilityRequest request = true) :
    Plain job c := by
  cases request with
  | some payload =>
      refine Registers.mono h ?_
      rintro a ⟨hjob, rfl⟩
      exact ⟨hjob, Bool.eq_false_iff.2 hplain⟩
  | none => exact h

/-- This is where the condition is used: the request of a capability job is found. -/
theorem safe_getRequest (job : UUID) :
    Safe (expiringMachine store) (decisionDiscipline ι) i (call (.getRequest job))
      (Idle i) (Outcome (fun request c => RequestKnown job request c ∧ Free i c)
        fun _ => Free i) := by
  refine Safe.perform_post ?_ ?_
  · intro result
    cases result with
    | ok request => exact ((persistent_requestKnown request).stable i).and stable_free
    | error error => exact stable_free
  · intro c result after hinv hidle hstep hcond
    refine ⟨follows_of_not_steers rfl hinv hidle hstep, fun rest _ => ?_⟩
    have hfree : Free i (c.perform ⟨i, .getRequest job, result, c.state, after⟩ rest) :=
      free_of_not_steers rfl hidle rest
    rcases performs_cases hstep with ⟨reply, hexec⟩ | ⟨_, rfl, _⟩
    · obtain ⟨rfl, rfl⟩ := Prod.mk.inj (Option.some.inj hexec)
      refine ⟨?_, hfree⟩
      cases hrequest : c.state.redis.requests.get job with
      | some payload => exact (hinv.requests job payload hrequest).perform _ rest
      | none =>
          rcases hcond job rfl with hplain | hfound
          · exact hplain.perform _ rest
          · rw [hrequest] at hfound
            cases hfound
    · exact hfree

end Reads

section Decision

variable {store : DurableJobStore} {ι : Type} [DecidableEq ι] {i : ι}
  {c : Config jobSignature JobException World ι} {state : JobState}
  {error : JobErrorState} {finish coordinator : Bool} {decision : TerminalDecision}
  {report : CapabilityReport} {costCounters : Option CostCounters} {now : Instant}
  {job : UUID}

/-- The request is about the snapshot. -/
structure FinalizeRequest.About (request : FinalizeRequest) (state : JobState) :
    Prop where
  job : request.jobId = state.jobId
  generation : request.runGeneration = state.runGeneration

/-- The process has got a valid answer about the snapshot. -/
def Answered (i : ι) (state : JobState) (finish : Bool) (decision : TerminalDecision)
    (c : Config jobSignature JobException World ι) : Prop :=
  ∃ request answer, owed i c = .answered request answer ∧ request.About state ∧
    request.fail = finish ∧ verdict state.caseId request answer = some decision

/-- What is known once the coordinator was consulted. -/
def Consulted (i : ι) (state : JobState) (finish : Bool) : Option TerminalDecision →
    Config jobSignature JobException World ι → Prop
  | some decision => Answered i state finish decision
  | none => Idle i

/-- What is known once the database was asked. -/
def Asked (i : ι) (state : JobState) (request : FinalizeRequest) :
    Except JobException FinalizeAnswer →
    Config jobSignature JobException World ι → Prop
  | .ok answer => fun c => owed i c = .answered request answer ∧ Known state c
  | .error _ => Free i

theorem safe_finalizeFailure {request : FinalizeRequest} {payload : RequestPayload}
    (hjob : request.jobId = state.jobId)
    (htask : payload.capabilityRequest = some request.task) :
    Safe (expiringMachine store) (decisionDiscipline ι) i
      (call (.finalizeFailure request))
      (fun c => (RegisteredWith state.jobId payload c ∧ Free i c) ∧ Known state c)
      (Asked i state request) := by
  refine Safe.perform_post ?_ ?_
  · intro result
    cases result with
    | ok answer =>
        exact (stable_owed fun d => d = _).and ((persistent_known state).stable i)
    | error error => exact stable_free
  · rintro c result after hinv ⟨⟨hregistered, hfree⟩, hknown⟩ hstep _
    refine ⟨⟨?_, ?_, ?_⟩, fun rest _ => ?_⟩
    · intro job hafter hbefore
      obtain ⟨a, hop, _⟩ := performs_failed hinv.stored hstep hafter hbefore
      cases hop
    · intro job caseId hjob _
      have hnone : owed i c = .none := hfree
      rw [hnone] at hjob
      cases hjob
    · rintro _ ⟨⟩
      exact ⟨payload, hjob ▸ hregistered, htask⟩
    · have howed := owed_perform hfree (.finalizeFailure request) result after rest
      cases result with
      | ok answer => exact ⟨howed, hknown.1, hknown.2.perform _ rest⟩
      | error error => exact howed

theorem safe_decideTerminal {task : CapabilityTaskRequest} {payload : RequestPayload}
    (htask : payload.capabilityRequest = some task) :
    Safe (expiringMachine store) (decisionDiscipline ι) i
      (decideTerminal state task error finish)
      (fun c => (RegisteredWith state.jobId payload c ∧ Free i c) ∧ Known state c)
      (Outcome (Answered i state finish) fun _ => Idle i) := by
  rw [decideTerminal_eq]
  let request := finalizeRequest state task error finish
  refine Safe.bind (B := fun raw => Asked i state request (.ok raw)) ?_ fun raw => ?_
  · refine (safe_finalizeFailure rfl htask).weaken fun outcome c _ h => ?_
    cases outcome with
    | ok raw => exact h
    | error error => exact Free.idle h
  · cases hverdict : verdict state.caseId request raw with
    | some decision =>
        exact Safe.ret fun c _ h => ⟨request, raw, h.1, ⟨rfl, rfl⟩, rfl, hverdict⟩
    | none =>
        exact Safe.raise fun c _ h =>
          Or.inr ⟨request, raw, state.caseId, h.1, h.2.2, hverdict⟩

theorem safe_consultCoordinator (request : Option RequestPayload) :
    Safe (expiringMachine store) (decisionDiscipline ι) i
      (consultCoordinator state (request.bind RequestPayload.capabilityRequest) error
        coordinator finish)
      (fun c => (RequestKnown state.jobId request c ∧ Free i c) ∧ Known state c)
      (Outcome (Consulted i state finish) fun _ => Idle i) := by
  unfold consultCoordinator
  split
  next =>
    refine safe_catchException (E := fun _ => Idle i) ?_ ?_ fun _ _ _ h => h
    · cases htask : request.bind RequestPayload.capabilityRequest with
      | none => exact Safe.raise fun c _ h => h.1.2.idle
      | some task =>
          obtain ⟨payload, rfl, htask⟩ := Option.bind_eq_some_iff.1 htask
          refine Safe.bind (safe_decideTerminal htask) fun decision => ?_
          exact Safe.ret fun _ _ h => h
    · exact fun _ => Safe.ret fun _ _ h => h
  next => exact Safe.ret fun _ _ h => h.1.2.idle

/-- A call that does what the process owes, for a job registered for one case. -/
theorem follows_of_pays {op : JobOp} {result : Except JobException op.Value}
    {after : World} (hknown : Known state c)
    (hjob : (owed i c).job = some state.jobId)
    (hpays : Pays state.caseId (owed i c) op)
    (hfailed : ∀ job, after.redis.Failed job → ¬ c.state.redis.Failed job →
      Plain job c ∨ ∃ request, owed i c = .answered request ⟨"failed", none⟩ ∧
        request.jobId = job)
    (hasks : ∀ request, op ≠ .finalizeFailure request) :
    FollowsDecisions c ⟨i, op, result, c.state, after⟩ where
  failed := hfailed
  pays job caseId hjob' hunique := by
    obtain rfl := Option.some.inj (hjob.symm.trans hjob')
    obtain rfl := hunique state.caseId hknown.2
    exact hpays
  asks request hop := absurd hop (hasks request)

omit [DecidableEq ι] in
/-- A publication or a move to another status than `failed` fails no job. -/
theorem not_failed_of_status {op : JobOp} {result : Except JobException op.Value}
    {after : World} (hinv : Grounded c)
    (hstep : (expiringMachine store).Performs op c.state result after)
    (hop : ∀ a, op = .transition a → a.status ≠ .failed) (job : UUID)
    (hafter : after.redis.Failed job) : c.state.redis.Failed job := by
  by_contra hbefore
  obtain ⟨a, ha, _, hstatus, _⟩ := performs_failed hinv.stored hstep hafter hbefore
  exact hop a ha hstatus

/-- A move after which the process owes nothing, with its publication. -/
theorem safe_transition_free {a : Transition}
    {A : Config jobSignature JobException World ι → Prop}
    (hcall : Safe (expiringMachine store) (decisionDiscipline ι) i (call (.transition a))
      A fun _ => Free i) :
    Safe (expiringMachine store) (decisionDiscipline ι) i (Client.transition a) A
      fun _ => Idle i := by
  refine Safe.bind (B := fun _ => Idle i) ?_ fun result => ?_
  · refine hcall.weaken fun outcome c _ h => ?_
    cases outcome <;> exact Free.idle h
  · exact safe_of_not_steers
      (onlyCalls_publishApplied (fun _ => JobOp.steers_of_readsOnly) _ result)

/-- A move that pays what the process owes, other than the one to `running`. -/
theorem safe_settlingMove {a : Transition}
    {A : Config jobSignature JobException World ι → Prop} (ha : a.status ≠ .running)
    (hknown : ∀ c, A c → Known state c)
    (hjob : ∀ c, A c → (owed i c).job = some state.jobId)
    (hpays : ∀ c, A c → Pays state.caseId (owed i c) (.transition a))
    (hfailed : ∀ c, A c → a.status = .failed → ∃ request,
      owed i c = .answered request ⟨"failed", none⟩ ∧ request.jobId = a.jobId) :
    Safe (expiringMachine store) (decisionDiscipline ι) i (call (.transition a)) A
      fun _ => Free i := by
  refine Safe.perform_post (fun _ => stable_free) ?_
  intro c result after hinv hA hstep _
  refine ⟨follows_of_pays (hknown c hA) (hjob c hA) (hpays c hA) ?_ ?_, ?_⟩
  · intro job hafter hbefore
    obtain ⟨b, hop, hb, hstatus, _⟩ :=
      performs_failed hinv.stored hstep hafter hbefore
    obtain rfl := JobOp.transition.inj hop
    obtain ⟨request, howed, hrequest⟩ := hfailed c hA hstatus
    exact Or.inr ⟨request, howed, hrequest.trans hb⟩
  · rintro request ⟨⟩
  · intro rest _
    exact (owed_perform rfl (.transition a) result after rest).trans
      (Debt.after_transition ha _ result)

/-- The process owes the report to the job of the snapshot. -/
def OwesReport (i : ι) (state : JobState) (report : CapabilityReport)
    (c : Config jobSignature JobException World ι) : Prop :=
  ∃ request, request.About state ∧ (owed i c = .published request report ∨
    ∃ answer, owed i c = .answered request answer ∧
      verdict state.caseId request answer = some (.report report))

theorem stable_owesReport :
    Stable (expiringMachine store) (decisionDiscipline ι) i
      (OwesReport i state report) :=
  stable_owed fun d => ∃ request : FinalizeRequest, request.About state ∧
    (d = .published request report ∨ ∃ answer, d = .answered request answer ∧
      verdict state.caseId request answer = some (.report report))

/-- The end of a restored job. -/
theorem safe_completedTransition :
    Safe (expiringMachine store) (decisionDiscipline ι) i
      (Client.transition (completedTransition state report now costCounters))
      (fun c => OwesReport i state report c ∧ Known state c) fun _ => Idle i := by
  refine safe_transition_free (@safe_settlingMove store ι _ i state _ _ ?_ (fun _ h => h.2)
    ?_ ?_ ?_)
  · rintro ⟨⟩
  · rintro c ⟨⟨request, habout, howed | ⟨answer, howed, _⟩⟩, _⟩ <;> rw [howed] <;>
      exact congrArg some habout.job
  · rintro c ⟨⟨request, habout, howed⟩, _⟩
    have hcompletes : Completes request report
        (completedTransition state report now costCounters) :=
      ⟨state, now, costCounters, habout.job.symm, habout.generation.symm, rfl⟩
    rcases howed with howed | ⟨answer, howed, hverdict⟩
    · rw [howed]
      exact ⟨_, rfl, hcompletes⟩
    · rw [howed]
      simp only [Pays, hverdict]
      exact ⟨_, rfl, Or.inr hcompletes⟩
  · intro c _ hstatus
    cases hstatus

/-- A failure that the database has decided. -/
theorem safe_failedTransition :
    Safe (expiringMachine store) (decisionDiscipline ι) i
      (Client.transition (failedTransition state error now costCounters))
      (fun c => Answered i state finish .failed c ∧ Known state c) fun _ => Idle i := by
  refine safe_transition_free (@safe_settlingMove store ι _ i state _ _ ?_ (fun _ h => h.2)
    ?_ ?_ ?_)
  · rintro ⟨⟩
  · rintro c ⟨⟨request, answer, howed, habout, _⟩, _⟩
    rw [howed]
    exact congrArg some habout.job
  · rintro c ⟨⟨request, answer, howed, habout, _, hverdict⟩, _⟩
    rw [howed]
    simp only [Pays, hverdict]
    exact ⟨_, rfl, state, error, now, costCounters, habout.job.symm,
      habout.generation.symm, rfl⟩
  · rintro c ⟨⟨request, answer, howed, habout, _, hverdict⟩, _⟩ _
    obtain rfl := verdict_failed hverdict
    exact ⟨request, howed, habout.job⟩

/-- What is known once a queued job was put to work for its report. -/
def Restored (i : ι) (state : JobState) (report : CapabilityReport) (applied : Bool)
    (c : Config jobSignature JobException World ι) : Prop :=
  if applied then ∃ request : FinalizeRequest, request.About state ∧
    owed i c = .restored request report
  else Free i c

/-- The same once those who watch the job know. -/
def RestoredKnown (i : ι) (state : JobState) (report : CapabilityReport)
    (applied : Bool) (c : Config jobSignature JobException World ι) : Prop :=
  if applied then OwesReport i state report c else Free i c

theorem safe_call_restoring :
    Safe (expiringMachine store) (decisionDiscipline ι) i
      (call (.transition (restoringTransition state now)))
      (fun c => Answered i state finish (.report report) c ∧ Known state c)
      (Outcome (fun result => Restored i state report result.applied)
        fun _ => Free i) := by
  refine Safe.perform_post ?_ ?_
  · intro result
    cases result with
    | ok result =>
        exact stable_owed fun d => if result.applied then
          ∃ request : FinalizeRequest, request.About state ∧
            d = .restored request report else d = .none
    | error error => exact stable_free
  · rintro c result after hinv ⟨⟨request, answer, howed, habout, _, hverdict⟩, hknown⟩
      hstep _
    refine ⟨follows_of_pays hknown ?_ ?_ ?_ ?_, fun rest _ => ?_⟩
    · rw [howed]
      exact congrArg some habout.job
    · rw [howed]
      simp only [Pays, hverdict]
      exact ⟨_, rfl, Or.inl ⟨state, now, hknown.1, habout.job.symm,
        habout.generation.symm, rfl⟩⟩
    · intro job hafter hbefore
      refine absurd (not_failed_of_status hinv hstep ?_ job hafter) hbefore
      rintro a ⟨⟩ ⟨⟩
    · rintro request ⟨⟩
    · obtain ⟨rfl, _⟩ := verdict_report hverdict
      have hafter := owed_perform howed (.transition (restoringTransition state now))
        result after rest
      cases result with
      | error error => exact hafter
      | ok result =>
          show Restored i state report result.applied _
          unfold Restored
          cases happlied : result.applied with
          | true =>
              refine ⟨request, habout, hafter.trans ?_⟩
              simp [Debt.after, happlied, restoringTransition]
          | false =>
              refine hafter.trans ?_
              simp [Debt.after, happlied]

/-- The publication between the two moves of a restored job. -/
theorem safe_call_publish (hjob : state.jobId = job) (revision : Int) :
    Safe (expiringMachine store) (decisionDiscipline ι) i (call (.publish job revision))
      (fun c => Restored i state report true c ∧ Known state c)
      (Outcome (fun _ => OwesReport i state report) fun _ => Free i) := by
  refine Safe.perform_post ?_ ?_
  · intro result
    cases result with
    | ok result => exact stable_owesReport
    | error error => exact stable_free
  · rintro c result after hinv ⟨⟨request, habout, howed⟩, hknown⟩ hstep _
    refine ⟨follows_of_pays hknown ?_ ?_ ?_ ?_, fun rest _ => ?_⟩
    · rw [howed]
      exact congrArg some habout.job
    · rw [howed]
      exact ⟨revision, by rw [habout.job, hjob]⟩
    · intro job hafter hbefore
      refine absurd (not_failed_of_status hinv hstep ?_ job hafter) hbefore
      rintro a ⟨⟩
    · rintro request ⟨⟩
    · have hafter := owed_perform howed (.publish job revision) result after rest
      cases result with
      | ok result => exact ⟨request, habout, Or.inl hafter⟩
      | error error => exact hafter

theorem safe_restoringTransition :
    Safe (expiringMachine store) (decisionDiscipline ι) i
      (Client.transition (restoringTransition state now))
      (fun c => Answered i state finish (.report report) c ∧ Known state c)
      (Outcome (fun result c => RestoredKnown i state report result.applied c ∧
        Known state c) fun _ => Idle i) := by
  refine Safe.bind (B := fun result c =>
    Restored i state report result.applied c ∧ Known state c) ?_ fun result => ?_
  · have hcall := (@safe_call_restoring store ι _ i state finish report now).frame
      (persistent_known state)
    refine (hcall.weaken fun outcome c _ h => ?_).strengthen fun c _ h => ⟨h, h.2⟩
    cases outcome with
    | ok result => exact h
    | error error => exact Free.idle h.1
  · unfold Client.publishApplied
    cases happlied : result.applied with
    | true =>
        simp only [if_true]
        have hpublish := (@safe_call_publish store ι _ i state report _ rfl
          result.state.revision).frame (persistent_known state)
        refine Safe.bind (B := fun _ c => OwesReport i state report c ∧ Known state c)
          ?_ fun _ => Safe.ret fun c _ h => ?_
        · refine (hpublish.weaken fun outcome c _ h => ?_).strengthen
            fun c _ h => ⟨h, h.2⟩
          cases outcome with
          | ok result => exact h
          | error error => exact Free.idle h.1
        · show RestoredKnown i state report result.applied c ∧ Known state c
          rw [happlied]
          exact h
    | false =>
        simp only [Bool.false_eq_true, if_false]
        refine Safe.ret fun c _ h => ?_
        show RestoredKnown i state report result.applied c ∧ Known state c
        rw [happlied]
        exact h

theorem safe_restoreReport :
    Safe (expiringMachine store) (decisionDiscipline ι) i
      (restoreReport state report now costCounters)
      (fun c => Answered i state finish (.report report) c ∧ Known state c)
      fun _ => Idle i := by
  unfold restoreReport
  split
  next =>
    refine Safe.bind safe_restoringTransition fun running => ?_
    cases happlied : running.applied with
    | true =>
        simp only [if_true]
        exact safe_completedTransition
    | false =>
        simp only [Bool.false_eq_true, if_false]
        exact Safe.ret fun c _ h => Free.idle h.1
  next =>
    refine safe_completedTransition.strengthen ?_
    rintro c _ ⟨⟨request, answer, howed, habout, _, hverdict⟩, hknown⟩
    exact ⟨⟨request, habout, Or.inr ⟨answer, howed, hverdict⟩⟩, hknown⟩

/-- What is known when the helper has ended. -/
def Settled (i : ι) (state : JobState) (finish : Bool) :
    Bool × Option TransitionResult →
    Config jobSignature JobException World ι → Prop
  | (true, _), c => Idle i c
  | (false, _), c => Free i c ∧ Plain state.jobId c ∨
      finish = false ∧ Answered i state finish .active c

/-- The helper: where it does not handle the job, the job is not one of a capability,
or a probe was answered `active`. -/
theorem safe_capabilityTerminalTransition :
    Safe (expiringMachine store) (decisionDiscipline ι) i
      (capabilityTerminalTransition state error now coordinator finish costCounters)
      (fun c => Idle i c ∧ Known state c)
      (Outcome (Settled i state finish) fun _ => Idle i) := by
  have hknown := @persistent_known store ι _ state
  refine Safe.bind (B := fun request c =>
    (RequestKnown state.jobId request c ∧ Free i c) ∧ Known state c) ?_ fun request => ?_
  · refine ((safe_getRequest state.jobId).frame hknown).weaken fun outcome c _ h => ?_
    cases outcome with
    | ok request => exact h
    | error error => exact Free.idle h.1
  · by_cases hcapability : isCapabilityRequest request = true
    · simp only [hcapability, if_true]
      refine Safe.bind (B := fun decision c =>
        Consulted i state finish decision c ∧ Known state c) ?_ fun decision => ?_
      · refine (((safe_consultCoordinator request).frame hknown).weaken
          fun outcome c _ h => ?_).strengthen fun c _ h => ⟨h, h.2⟩
        cases outcome with
        | ok decision => exact h
        | error error => exact h.1
      · rcases decision with _ | (report | _ | _)
        · exact Safe.ret fun c _ h => h.1
        · refine Safe.bind (B := fun _ => Idle i) ?_ fun _ => Safe.ret fun c _ h => h
          exact safe_bothOutcomes safe_restoreReport
        · refine Safe.bind (B := fun _ => Idle i) ?_ fun _ => Safe.ret fun c _ h => h
          exact safe_bothOutcomes safe_failedTransition
        · refine Safe.ret fun c _ h => Or.inr ⟨?_, h.1⟩
          obtain ⟨⟨request, answer, _, _, hfinish, hverdict⟩, _⟩ := h
          exact hfinish.symm.trans (verdict_active hverdict).2
    · simp only [hcapability, if_false, Bool.false_eq_true]
      exact Safe.ret fun c _ h => Or.inl ⟨h.1.2, h.1.1.plain hcapability⟩

/-- A move of a job that was registered with another request. -/
theorem safe_plainTransition (a : Transition) :
    Safe (expiringMachine store) (decisionDiscipline ι) i (Client.transition a)
      (fun c => Free i c ∧ Plain a.jobId c) fun _ => Idle i := by
  refine safe_transition_free (Safe.perform_post (fun _ => stable_free) ?_)
  rintro c result after hinv ⟨hfree, hplain⟩ hstep _
  refine ⟨⟨?_, ?_, ?_⟩, fun rest _ => ?_⟩
  · intro job hafter hbefore
    obtain ⟨b, hop, hb, _⟩ := performs_failed hinv.stored hstep hafter hbefore
    obtain rfl := JobOp.transition.inj hop
    exact Or.inl (hb ▸ hplain)
  · intro job caseId hjob _
    have hnone : owed i c = .none := hfree
    rw [hnone] at hjob
    cases hjob
  · rintro request ⟨⟩
  · exact owed_perform hfree (.transition a) result after rest

end Decision

end SearchTrust.Jobs
