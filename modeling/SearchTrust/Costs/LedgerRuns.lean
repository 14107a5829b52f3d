/-
Clients of one cost ledger.  A client watches the key, reads it, and commits its
mutation only when the key was not written meanwhile; otherwise it starts over.
Every committed write is then one mutation of the ledger as it stood.
-/
import SearchTrust.Interleave.Rely
import SearchTrust.Costs.Ledger

namespace SearchTrust.Costs

open SearchTrust.Jobs SearchTrust.Interleave SearchTrust.Interleave.Program

/-- The ledger key, with the number of its modifications so far. -/
structure LedgerKey where
  value : Option StoredLedger
  version : Nat

namespace LedgerKey

/-- A key that was never written. -/
def absent : LedgerKey := ⟨none, 0⟩

/-- The key after the transaction of a mutation. -/
def write (key : LedgerKey) (updated : CostLedgerState) : LedgerKey :=
  ⟨some (.json updated), key.version + 1⟩

/-- The time to live of the key runs out. -/
def expire (key : LedgerKey) : LedgerKey := ⟨none, key.version + 1⟩

end LedgerKey

/-- The commands of `_mutate`.  `execute` is the transaction under the watch that
was set at version `watched`; it answers whether it was carried out. -/
inductive LedgerOp where
  | watch
  | clock
  | get
  | execute (watched : Nat) (updated : CostLedgerState)

abbrev LedgerOp.Value : LedgerOp → Type
  | watch => Nat
  | clock => Instant
  | get => Option StoredLedger
  | execute _ _ => Bool

abbrev ledgerCommands : Signature := ⟨LedgerOp, LedgerOp.Value⟩

/-- How a command ends: it is served, at a reading of the clock; the server is
not reached; or the server acts and its answer is lost. -/
inductive LedgerReply where
  | served (now : Instant)
  | unreachable
  | unanswered

def LedgerOp.exec : LedgerReply → (op : LedgerOp) → LedgerKey →
    Option (Except JobException op.Value × LedgerKey)
  | .served _, .watch, key => some (.ok key.version, key)
  | .served now, .clock, key => some (.ok now, key)
  | .served _, .get, key => some (.ok key.value, key)
  | .served _, .execute watched updated, key =>
      if watched = key.version then some (.ok true, key.write updated)
      else some (.ok false, key)
  | .unreachable, .clock, _ => none
  | .unreachable, .watch, key => some (.error .unexpected, key)
  | .unreachable, .get, key => some (.error .unexpected, key)
  | .unreachable, .execute _ _, key => some (.error .unexpected, key)
  | .unanswered, .execute watched updated, key =>
      if watched = key.version then some (.error .unexpected, key.write updated)
      else none
  | .unanswered, _, _ => none

/-- The ledger key on its server; the key can expire at any time. -/
def ledgerMachine : Machine ledgerCommands JobException LedgerKey where
  Answer := LedgerReply
  exec := LedgerOp.exec
  Drift := Unit
  drift := fun _ key => some key.expire

section Clients

def command (op : LedgerOp) : Program ledgerCommands JobException op.Value :=
  perform (S := ledgerCommands) op

/-- One round of `_mutate`; no value stands for a `WatchError`. -/
def JobCostLedger.mutateRound (ledger : JobCostLedger) (call : LedgerCall) :
    Program ledgerCommands JobException (Option call.Result) := do
  let watched ← command .watch
  let now ← command .clock
  let raw ← command .get
  match ledger.mutateOnce call.mutation raw now with
  | .error error => raise error
  | .ok (updated, result) =>
      let committed ← command (.execute watched updated)
      if committed then return some result else return none

/-- `_mutate`, cancelled after `rounds` rounds. -/
def JobCostLedger.mutate (ledger : JobCostLedger) (call : LedgerCall) :
    Nat → Program ledgerCommands JobException call.Result
  | 0 => raise .cancelled
  | rounds + 1 => do
      match ← ledger.mutateRound call with
      | some result => return result
      | none => ledger.mutate call rounds

/-- What the caller of a ledger call receives. -/
abbrev LedgerCall.Value : LedgerCall → Type
  | ensure => CostLedgerState
  | claim _ _ => CostClaim
  | complete _ _ => CostClaim
  | recordCheckpointHit _ => Unit
  | recordJobAttempt _ _ => Unit

/-- The end of a ledger call: `claim` raises when it was refused. -/
def LedgerCall.deliver : (call : LedgerCall) → call.Result →
    Except JobException call.Value
  | ensure, state => .ok state
  | claim .., some item => .ok item
  | claim .., none => .error costLimitExceeded
  | complete _ _, item => .ok item
  | recordCheckpointHit _, _ => .ok ()
  | recordJobAttempt _ _, _ => .ok ()

/-- A ledger call from its arguments to its answer. -/
def JobCostLedger.serve (rounds : Nat) (ledger : JobCostLedger) (call : LedgerCall) :
    Program ledgerCommands JobException call.Value :=
  if call.ArgumentsValid then
    ledger.mutate call rounds >>= fun result => ofExcept (call.deliver result)
  else raise .invalidValue

abbrev ledgerCalls : Signature := ⟨LedgerCall, LedgerCall.Value⟩

variable {ι : Type}

/-- Clients that make ledger calls, each on its own `JobCostLedger`. -/
def ledgerPool (rounds : Nat) (ledgers : ι → JobCostLedger)
    (clients : ι → Program ledgerCalls JobException Unit) (i : ι) :
    Program ledgerCommands JobException Unit :=
  (clients i).interpret fun call => (ledgers i).serve rounds call

end Clients

/-- A readable ledger within its limits. -/
def LedgerKey.Sound (key : LedgerKey) : Prop :=
  ∀ raw ∈ key.value, ∃ state : CostLedgerState,
    raw = .json state ∧ state.Valid ∧ state.WithinLimits

/-- The key moves on by one mutation of the ledger as it stands. -/
def JobCostLedger.Commits (ledger : JobCostLedger) (before after : LedgerKey) : Prop :=
  ∃ (call : LedgerCall) (now : Instant) (t : CostLedgerState) (result : call.Result),
    ledger.mutateOnce call.mutation before.value now = .ok (t, result) ∧
      after = before.write t

section Soundness

variable {ι : Type} [DecidableEq ι] {ledgers : ι → JobCostLedger} {rounds : Nat}
  {clients : ι → Program ledgerCalls JobException Unit}
  {c : Config ledgerCommands JobException LedgerKey ι}

/-- Every command leaves the key alone or commits a mutation of its client. -/
def ledgerDiscipline (ledgers : ι → JobCostLedger) :
    Discipline ledgerCommands JobException LedgerKey ι where
  inv := fun c => c.state.Sound
  cond := Anything
  goal := fun c e => e.after = c.state ∨ (ledgers e.actor).Commits c.state e.after

theorem JobCostLedger.decode_sound {ledger : JobCostLedger} {key : LedgerKey}
    {state : CostLedgerState} {now : Instant} (hkey : key.Sound)
    (h : ledger.decode key.value now = .ok state) :
    state.Valid ∧ state.WithinLimits := by
  refine ⟨JobCostLedger.decode_valid h, ?_⟩
  cases hvalue : key.value with
  | none =>
      rw [hvalue, decode] at h
      split at h
      next => cases h
      next =>
        obtain ⟨rfl, _⟩ := CostLedgerState.modelValidate_eq_ok_iff.1 h
        intro op
        exact Nat.zero_le _
  | some raw =>
      obtain ⟨stored, rfl, _, hlimits⟩ := hkey raw hvalue
      rw [hvalue] at h
      rw [JobCostLedger.decode_json h]
      exact hlimits

/-- A mutation of a sound ledger is sound. -/
theorem JobCostLedger.Commits.sound {ledger : JobCostLedger} {key after : LedgerKey}
    (h : ledger.Commits key after) (hkey : key.Sound) : after.Sound := by
  obtain ⟨call, now, t, result, hround, rfl⟩ := h
  obtain ⟨current, hdecode, hmutation, hvalid⟩ :=
    JobCostLedger.mutateOnce_eq_ok_iff.1 hround
  have hlimits := (JobCostLedger.decode_sound hkey hdecode).2
  intro raw hraw
  obtain rfl := Option.some.inj hraw
  exact ⟨t, rfl, hvalid, LedgerCall.mutation_withinLimits hmutation hlimits⟩

theorem ledgerDiscipline_kept :
    (ledgerDiscipline ledgers).Kept ledgerMachine where
  act := by
    rintro c e rest hinv _ (hsame | hcommit)
    · show e.after.Sound
      rw [hsame]
      exact hinv
    · exact hcommit.sound hinv
  drift := by
    rintro c after _ ⟨_, hdrift⟩
    obtain rfl := Option.some.inj hdrift
    rintro raw ⟨⟩
  crash := fun _ hinv => hinv

/-- The version only grows, and the value changes only with it. -/
theorem performs_version {op : LedgerOp} {key after : LedgerKey}
    {result : Except JobException op.Value}
    (h : ledgerMachine.Performs op key result after) :
    after = key ∨ after.version = key.version + 1 := by
  obtain ⟨answer, h⟩ := h
  cases answer with
  | served now =>
      cases op with
      | execute watched updated =>
          simp only [ledgerMachine, LedgerOp.exec] at h
          split at h
          · obtain ⟨_, rfl⟩ := Prod.mk.inj (Option.some.inj h)
            exact Or.inr rfl
          · obtain ⟨_, rfl⟩ := Prod.mk.inj (Option.some.inj h)
            exact Or.inl rfl
      | _ =>
          obtain ⟨_, rfl⟩ := Prod.mk.inj (Option.some.inj h)
          exact Or.inl rfl
  | unreachable =>
      cases op with
      | clock => cases h
      | _ =>
          obtain ⟨_, rfl⟩ := Prod.mk.inj (Option.some.inj h)
          exact Or.inl rfl
  | unanswered =>
      cases op with
      | execute watched updated =>
          simp only [ledgerMachine, LedgerOp.exec] at h
          split at h
          · obtain ⟨_, rfl⟩ := Prod.mk.inj (Option.some.inj h)
            exact Or.inr rfl
          · cases h
      | _ => cases h

/-- What a client knows of the key after it set its watch at `watched` and read
`raw`: no write has come in between, or the transaction will fail. -/
def Watching (watched : Nat) (raw : Option StoredLedger)
    (c : Config ledgerCommands JobException LedgerKey ι) : Prop :=
  watched ≤ c.state.version ∧ (c.state.version = watched → c.state.value = raw)

theorem watching_stable (watched : Nat) (raw : Option StoredLedger) (i : ι) :
    Stable ledgerMachine (ledgerDiscipline ledgers) i (Watching watched raw) where
  act := by
    rintro c e rest _ ⟨hle, hvalue⟩ _ hen _
    rcases performs_version hen.performs with hsame | hversion
    · simp only [Watching, Config.perform_state, hsame]
      exact ⟨hle, hvalue⟩
    · refine ⟨?_, fun h => ?_⟩
      · simp only [Config.perform_state]
        omega
      · simp only [Config.perform_state] at h
        omega
  drift := by
    rintro c after _ ⟨hle, _⟩ ⟨_, hdrift⟩
    obtain rfl := Option.some.inj hdrift
    refine ⟨Nat.le_succ_of_le hle, fun h => ?_⟩
    simp only [Config.drifted_state, LedgerKey.expire] at h
    omega
  crash := fun _ _ h => h

theorem version_stable (watched : Nat) (i : ι) :
    Stable ledgerMachine (ledgerDiscipline ledgers) i
      fun c => watched ≤ c.state.version where
  act := by
    intro c e rest _ hle _ hen _
    rcases performs_version hen.performs with hsame | hversion
    · simp only [Config.perform_state, hsame]
      exact hle
    · simp only [Config.perform_state]
      omega
  drift := by
    rintro c after _ hle ⟨_, hdrift⟩
    obtain rfl := Option.some.inj hdrift
    exact Nat.le_succ_of_le hle
  crash := fun _ _ h => h

theorem performs_watch {key after : LedgerKey} {result : Except JobException Nat}
    (h : ledgerMachine.Performs .watch key result after) :
    after = key ∧ ∀ watched, result = .ok watched → watched = key.version := by
  obtain ⟨_ | _ | _, h⟩ := h
  · obtain ⟨rfl, rfl⟩ := Prod.mk.inj (Option.some.inj h)
    exact ⟨rfl, fun _ hwatched => (Except.ok.inj hwatched).symm⟩
  · obtain ⟨rfl, rfl⟩ := Prod.mk.inj (Option.some.inj h)
    exact ⟨rfl, fun _ hwatched => nomatch hwatched⟩
  · cases h

theorem performs_clock {key after : LedgerKey} {result : Except JobException Instant}
    (h : ledgerMachine.Performs .clock key result after) : after = key := by
  obtain ⟨_ | _ | _, h⟩ := h
  · obtain ⟨_, rfl⟩ := Prod.mk.inj (Option.some.inj h)
    rfl
  · cases h
  · cases h

theorem performs_get {key after : LedgerKey}
    {result : Except JobException (Option StoredLedger)}
    (h : ledgerMachine.Performs .get key result after) :
    after = key ∧ ∀ raw, result = .ok raw → raw = key.value := by
  obtain ⟨_ | _ | _, h⟩ := h
  · obtain ⟨rfl, rfl⟩ := Prod.mk.inj (Option.some.inj h)
    exact ⟨rfl, fun _ hraw => (Except.ok.inj hraw).symm⟩
  · obtain ⟨rfl, rfl⟩ := Prod.mk.inj (Option.some.inj h)
    exact ⟨rfl, fun _ hraw => nomatch hraw⟩
  · cases h

/-- A transaction writes only under a watch that is still good. -/
theorem performs_execute {watched : Nat} {updated : CostLedgerState}
    {key after : LedgerKey} {result : Except JobException Bool}
    (h : ledgerMachine.Performs (.execute watched updated) key result after) :
    after = key ∨ (key.version = watched ∧ after = key.write updated) := by
  obtain ⟨_ | _ | _, h⟩ := h
  · simp only [ledgerMachine, LedgerOp.exec] at h
    split at h
    next hwatched =>
      obtain ⟨_, rfl⟩ := Prod.mk.inj (Option.some.inj h)
      exact Or.inr ⟨hwatched.symm, rfl⟩
    next =>
      obtain ⟨_, rfl⟩ := Prod.mk.inj (Option.some.inj h)
      exact Or.inl rfl
  · obtain ⟨_, rfl⟩ := Prod.mk.inj (Option.some.inj h)
    exact Or.inl rfl
  · simp only [ledgerMachine, LedgerOp.exec] at h
    split at h
    next hwatched =>
      obtain ⟨_, rfl⟩ := Prod.mk.inj (Option.some.inj h)
      exact Or.inr ⟨hwatched.symm, rfl⟩
    next => cases h

/-- One round commits its mutation to the ledger it read, or writes nothing. -/
theorem safe_mutateRound {i : ι} (call : LedgerCall) :
    Safe ledgerMachine (ledgerDiscipline ledgers) i ((ledgers i).mutateRound call)
      (fun _ => True) fun _ _ => True := by
  refine Safe.bind (B := fun watched c => watched ≤ c.state.version) ?_
    fun watched => ?_
  · refine Safe.perform fun c result after _ _ hstep _ => ?_
    obtain ⟨hsame, hversion⟩ := performs_watch hstep
    refine ⟨Or.inl hsame, ?_⟩
    cases result with
    | ok watched =>
        refine ⟨_, version_stable watched i, fun rest _ => ?_, fun _ _ h => h⟩
        obtain rfl := hversion watched rfl
        exact Nat.le_of_eq (congrArg LedgerKey.version hsame.symm)
    | error error =>
        exact ⟨_, Stable.const True, fun _ _ => trivial, fun _ _ _ => trivial⟩
  refine Safe.bind (B := fun _ c => watched ≤ c.state.version) ?_ fun now => ?_
  · refine (Safe.perform_post (fun _ => version_stable watched i) ?_).onValue
    intro c result after _ hle hstep _
    have hsame := performs_clock hstep
    exact ⟨Or.inl hsame, fun rest _ => by simpa [hsame] using hle⟩
  refine Safe.bind (B := fun raw => Watching watched raw) ?_ fun raw => ?_
  · refine Safe.perform fun c result after _ hle hstep _ => ?_
    obtain ⟨hsame, hvalue⟩ := performs_get hstep
    refine ⟨Or.inl hsame, ?_⟩
    cases result with
    | ok raw =>
        refine ⟨_, watching_stable watched raw i, fun rest _ => ?_, fun _ _ h => h⟩
        obtain rfl := hvalue raw rfl
        subst hsame
        exact ⟨hle, fun _ => rfl⟩
    | error error =>
        exact ⟨_, Stable.const True, fun _ _ => trivial, fun _ _ _ => trivial⟩
  split
  next => exact Safe.raise fun _ _ _ => trivial
  next updated result hround =>
    refine Safe.bind (B := fun _ _ => True) ?_ fun committed => ?_
    · refine (Safe.perform_post (B := fun _ _ => True)
        (fun _ => Stable.const True) ?_).anyOutcome
      intro c outcome after _ hwatching hstep _
      refine ⟨?_, fun _ _ => trivial⟩
      rcases performs_execute hstep with hsame | ⟨hversion, rfl⟩
      · exact Or.inl hsame
      · have hread : c.state.value = raw := hwatching.2 hversion
        rw [← hread] at hround
        exact Or.inr ⟨call, now, updated, result, hround, rfl⟩
    · cases committed <;> exact Safe.done

theorem safe_mutate {i : ι} (call : LedgerCall) (rounds : Nat) :
    Safe ledgerMachine (ledgerDiscipline ledgers) i ((ledgers i).mutate call rounds)
      (fun _ => True) fun _ _ => True := by
  induction rounds with
  | zero => exact Safe.raise fun _ _ _ => trivial
  | succ rounds ih =>
      refine (safe_mutateRound call).andThen fun outcome => ?_
      cases outcome with
      | some result => exact Safe.done
      | none => exact ih

theorem safe_serve {i : ι} (rounds : Nat) (call : LedgerCall) :
    Safe ledgerMachine (ledgerDiscipline ledgers) i ((ledgers i).serve rounds call)
      (fun _ => True) fun _ _ => True := by
  unfold JobCostLedger.serve
  split
  · refine (safe_mutate call rounds).andThen fun result => ?_
    cases call.deliver result with
    | ok value => exact Safe.done
    | error error => exact Safe.raise fun _ _ _ => trivial
  · exact Safe.raise fun _ _ _ => trivial

theorem ledgerPool_safe (i : ι) :
    SafeAt ledgerMachine (ledgerDiscipline ledgers)
      (start LedgerKey.absent (ledgerPool rounds ledgers clients)) i :=
  SafeAt.of_safe (A := fun _ => True) (Stable.const True) trivial
    (Safe.interpret (J := fun _ => True) (fun call => safe_serve rounds call) _)

omit [DecidableEq ι] in
theorem ledgerPool_start :
    (ledgerDiscipline ledgers).inv
      (start LedgerKey.absent (ledgerPool rounds ledgers clients)) := by
  rintro raw ⟨⟩

/-- Every ledger that a run reaches has distinct claims within the limits. -/
theorem ledger_sound_of_run
    (hrun : Run ledgerMachine Anything
      (start LedgerKey.absent (ledgerPool rounds ledgers clients)) c) :
    c.state.Sound :=
  ((ledgerDiscipline ledgers).sound ledgerDiscipline_kept ledgerPool_start
    ledgerPool_safe hrun).1

/-- Every command of a run writes nothing or commits one mutation. -/
theorem ledger_commits_of_run
    (hrun : Run ledgerMachine Anything
      (start LedgerKey.absent (ledgerPool rounds ledgers clients)) c)
    {e : Event ledgerCommands JobException LedgerKey ι}
    {rest : Program ledgerCommands JobException Unit}
    (hen : Enabled ledgerMachine Anything c e rest) :
    e.after = c.state ∨ (ledgers e.actor).Commits c.state e.after :=
  (ledgerDiscipline ledgers).goal_of_run ledgerDiscipline_kept ledgerPool_start
    ledgerPool_safe hrun hen

/-- The accounting of a job's ledger: distinct claims within the limits; every
write one mutation of the ledger as it stands; no mutation counts a claim twice
or changes a settled one; and a change of content moves the revision on. -/
theorem ledger_counts_claims_once {rounds : Nat} {ledgers : ι → JobCostLedger}
    {clients : ι → Program ledgerCalls JobException Unit}
    {c : Config ledgerCommands JobException LedgerKey ι}
    (hrun : Run ledgerMachine Anything
      (start LedgerKey.absent (ledgerPool rounds ledgers clients)) c) :
    (∀ s, c.state.value = some (.json s) →
      (s.claims.map CostClaim.claimId).Nodup ∧ s.WithinLimits) ∧
    (∀ e rest, Enabled ledgerMachine Anything c e rest →
      e.after = c.state ∨ (ledgers e.actor).Commits c.state e.after) ∧
    (∀ (ledger : JobCostLedger) (now : Instant) (s : CostLedgerState),
      ledger.decode c.state.value now = .ok s →
      (∀ (call : LedgerCall) (t : CostLedgerState) (result : call.Result),
        call.mutation s now = .ok (t, result) →
        call.Accounts s t now result ∧ (t = s ∨ s.revision < t.revision)) ∧
      ∀ item ∈ s.claims, item.completed = true →
        ∀ completion : Completion, item.outcome ≠ some completion.outcome →
        ∃ error, completeMutation item.claimId completion s now = .error error) := by
  have hsound := ledger_sound_of_run hrun
  refine ⟨?_, ?_, ?_⟩
  · intro s hs
    obtain ⟨state, hstate, hvalid, hlimits⟩ := hsound _ hs
    obtain rfl : s = state := by simpa using hstate
    exact ⟨hvalid.claimIds, hlimits⟩
  · intro e rest hen
    exact ledger_commits_of_run hrun hen
  · intro ledger now s hdecode
    have hvalid := JobCostLedger.decode_valid hdecode
    refine ⟨?_, ?_⟩
    · intro call t result hmutation
      refine ⟨LedgerCall.mutation_accounts hmutation hvalid, ?_⟩
      rcases LedgerCall.mutation_revision hmutation with hsame | hnext
      · exact Or.inl hsame
      · right
        omega
    · intro item hitem hcompleted completion hother
      cases hcall : completeMutation item.claimId completion s now with
      | error error => exact ⟨error, rfl⟩
      | ok updated =>
          have haccounts : LedgerCall.Accounts s updated.1 now
              (.complete item.claimId completion) updated.2 :=
            LedgerCall.mutation_accounts hcall hvalid
          have hitself := haccounts item hitem rfl
          rw [if_pos hcompleted] at hitself
          exact (hother hitself.2).elim

end Soundness

/-- Two clients race for the only location search; the second one is refused. -/
def sampleLedger : JobCostLedger where
  jobId := 1
  pricing := {}
  jobCreatedAt := 0

def sampleClients (i : Fin 2) : Program ledgerCalls JobException Unit := do
  let _ ← perform (S := ledgerCalls) (.claim .serpapiLocation (i + 1))
  return ()

def sampleRace : List (Move ledgerMachine (Fin 2)) :=
  [.act 0 (.served 5), .act 1 (.served 5), .act 0 (.served 5), .act 1 (.served 5),
    .act 0 (.served 5), .act 1 (.served 5), .act 0 (.served 5), .act 1 (.served 5),
    .act 1 (.served 6), .act 1 (.served 6), .act 1 (.served 6), .act 1 (.served 6)]

theorem racing_clients_share_one_claim :
    ∃ (c : Config ledgerCommands JobException LedgerKey (Fin 2))
      (s : CostLedgerState),
      Run ledgerMachine Anything (start LedgerKey.absent
        (ledgerPool 2 (fun _ => sampleLedger) sampleClients)) c ∧
      c.state.value = some (.json s) ∧ s.claims.length = 1 ∧
      s.localDenials .serpapiLocation = some 1 ∧
      (s.claims.map CostClaim.claimId).Nodup ∧ s.WithinLimits := by
  have hplay : (play (M := ledgerMachine) (fun _ _ => true) sampleRace
      (start LedgerKey.absent
        (ledgerPool 2 (fun _ => sampleLedger) sampleClients))).any
      (fun c => c.state.value.any fun
        | .json s => s.claims.length = 1 ∧ s.localDenials .serpapiLocation = some 1
        | .unreadable => false) = true := by
    decide
  obtain ⟨c, hrun, htest⟩ := exists_run_of_play (fun _ _ _ => trivial) hplay
  obtain ⟨raw, hraw, htest⟩ := Option.any_eq_true _ _ |>.1 htest
  cases raw with
  | unreadable => cases htest
  | json s =>
      obtain ⟨hclaims, hdenials⟩ := of_decide_eq_true htest
      obtain ⟨hids, hlimits⟩ := (ledger_counts_claims_once hrun).1 s hraw
      exact ⟨c, s, hrun, hraw, hclaims, hdenials, hids, hlimits⟩

end SearchTrust.Costs
