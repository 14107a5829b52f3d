/-
Claims of attempts, interleaved.  While the job stays live for the ledgers that save
its attempts, a refused save means that another claim is visible, so that a claim ends
after as many turns as there are attempts, and one more.
-/
import SearchTrust.Interleave.Answers
import SearchTrust.Providers.Attempts

namespace SearchTrust.Providers

open SearchTrust.Interleave SearchTrust.Interleave.Program SearchTrust.Redis
  SearchTrust.Jobs

/-- Time passes, and no checkpoint expires: a checkpoint lives for days. -/
def tickWithinCheckpointTtl (r : JobRedis) (seconds : Nat) : JobRedis :=
  { r.tick seconds with checkpoints := r.checkpoints }

/-- The runtime over a period in which no checkpoint expires. -/
def checkpointingMachine (store : DurableJobStore) :
    Machine jobSignature JobException World :=
  jobMachine store tickWithinCheckpointTtl

/-- One call of `claim`. -/
structure ClaimRequest where
  ledger : ProviderAttemptLedger
  keySlot : Nat
  fingerprint : String
  turns : Nat

/-- The process that makes the call. -/
def ClaimRequest.proc (format : ClaimFormat) (call : SerpPlannedCall)
    (request : ClaimRequest) : Proc Unit := do
  let _ ← request.ledger.claim format call request.keySlot request.fingerprint request.turns
  return ()

section Claims

variable (store : DurableJobStore) (format : ClaimFormat) (job : UUID)
  (call : SerpPlannedCall) {ι : Type}

/-- The process claims an attempt of the call for the job. -/
def ClaimsAttempt (pool : ι → Proc Unit) (i : ι) : Prop :=
  ∃ request : ClaimRequest, request.ledger.jobId = job ∧ pool i = request.proc format call

/-- The process saves no attempt of the call. -/
def LeavesAttempts (p : Proc Unit) : Prop :=
  p.OnlyCalls fun op => ∀ n, IsAttempt n → ¬ SavesAttempt store job call n op

/-- Whenever an attempt is saved for a generation, the job is there, has that generation
and is not terminal. -/
def SavedWhileLive : CallCondition jobSignature JobException World ι := fun c e =>
  ∀ checkpoints job' key value n generation,
    e.op = .saveCheckpoint checkpoints job' key value → IsAttempt n →
    store.checkpointKey job' key = attemptAt store job call n →
    checkpoints.runGeneration = some generation →
    ¬ FencedOrTerminal c.state.redis job' generation

/-- The number of calls in a turn: the reads, the clock and the save. -/
def callsPerTurn : Nat := serpProviderAttemptLimitPerCall + 2

/-- A claim makes no more turns than there are attempts, and one. -/
def callsPerClaim : Nat := callsPerTurn * (serpProviderAttemptLimitPerCall + 1)

variable [DecidableEq ι]

/-- What the saved attempts look like, and what a process has seen when it saves one. -/
def attemptDiscipline (pool : ι → Proc Unit) :
    Discipline jobSignature JobException World ι where
  inv c := c.state.redis.StatesStored ∧
    (∀ n entry, IsAttempt n →
      c.state.redis.checkpoints (attemptAt store job call n) = some entry →
      entry.value.isNull = false) ∧
    ∀ m n, IsAttempt m → IsAttempt n → m ≤ n →
      AttemptSaved store job call c.state n → AttemptSaved store job call c.state m
  cond := SavedWhileLive store job call
  goal c e :=
    (∀ checkpoints job' key value n,
      e.op = .saveCheckpoint checkpoints job' key value → IsAttempt n →
      store.checkpointKey job' key = attemptAt store job call n →
      value.isNull = false ∧
        ∀ m, IsAttempt m → m < n → AttemptSaved store job call c.state m) ∧
    (ClaimsAttempt format job call pool e.actor →
      (ownCalls c.history e.actor).length < callsPerClaim)

end Claims

section Kept

variable {store : DurableJobStore} {format : ClaimFormat} {job : UUID}
  {call : SerpPlannedCall} {ι : Type} [DecidableEq ι] {pool : ι → Proc Unit}

/-- A checkpoint that is there after a call was there before, or the call has saved it. -/
theorem checkpoint_cases {r r' : JobRedis} {op : JobOp} (h : Write store r op r')
    {at_ : UUID × Digest} {entry : Entry Json} (hentry : r'.checkpoints at_ = some entry) :
    r.checkpoints at_ = some entry ∨
      ∃ checkpoints job' key value, op = .saveCheckpoint checkpoints job' key value ∧
        store.checkpointKey job' key = at_ ∧ entry.value = value := by
  cases h with
  | checkpointSaved checkpoints job' key value hfree =>
      by_cases heq : at_ = store.checkpointKey job' key
      · subst heq
        refine Or.inr ⟨checkpoints, job', key, value, rfl, rfl, ?_⟩
        have hset : (store.commitCheckpoint checkpoints job' key value r).checkpoints
            (store.checkpointKey job' key) = some ⟨value, r.clock + checkpoints.ttlSeconds⟩ :=
          Table.set_self _ _ _ _
        exact (congrArg Entry.value (Option.some.inj (hset.symm.trans hentry))).symm
      · exact Or.inl ((Table.set_of_ne _ heq _ _).symm.trans hentry)
  | _ => exact Or.inl hentry

/-- A saved attempt stays saved. -/
theorem AttemptSaved.performs {w w' : World} {n : Nat} {op : JobOp}
    {result : Except JobException op.Value}
    (hsaved : AttemptSaved store job call w n) (hstored : w.redis.StatesStored)
    (h : (checkpointingMachine store).Performs op w result w') :
    AttemptSaved store job call w' n := by
  rcases performs_write hstored h with hsame | hwrite
  · rw [AttemptSaved, hsame]
    exact hsaved
  · obtain ⟨entry, hentry⟩ := Option.isSome_iff_exists.1 hsaved
    exact Option.isSome_iff_exists.2 ⟨entry, hwrite.checkpointsKept.entries _ _ hentry⟩

theorem persistent_saved (n : Nat) :
    Persistent (checkpointingMachine store) (attemptDiscipline store format job call pool)
      fun c => AttemptSaved store job call c.state n := by
  refine Persistent.of_state (P := fun w => AttemptSaved store job call w n) ?_ ?_
  · intro c e hinv hsaved hstep
    exact hsaved.performs hinv.1 hstep
  · rintro c after - hsaved ⟨seconds, hseconds⟩
    obtain rfl := Option.some.inj hseconds
    exact hsaved

/-- Attempts are saved in order, and what is saved is no null. -/
theorem attemptDiscipline_kept :
    (attemptDiscipline store format job call pool).Kept (checkpointingMachine store) where
  act := by
    rintro c e rest ⟨hstored, hnull, hclosed⟩ hen ⟨hgoal, -⟩
    have hnew : ∀ n entry, IsAttempt n →
        e.after.redis.checkpoints (attemptAt store job call n) = some entry →
        c.state.redis.checkpoints (attemptAt store job call n) = some entry ∨
          (entry.value.isNull = false ∧
            ∀ m, IsAttempt m → m < n → AttemptSaved store job call c.state m) := by
      intro n entry hn hentry
      rcases performs_write hstored hen.performs with hsame | hwrite
      · rw [hsame] at hentry
        exact Or.inl hentry
      · rcases checkpoint_cases hwrite hentry with hold |
          ⟨checkpoints, job', key, value, hop, hkey, hvalue⟩
        · exact Or.inl hold
        · obtain ⟨hvalid, hearlier⟩ := hgoal checkpoints job' key value n hop hn hkey
          exact Or.inr ⟨hvalue ▸ hvalid, hearlier⟩
    refine ⟨statesStored_performs hstored hen.performs, ?_, ?_⟩
    · intro n entry hn hentry
      rcases hnew n entry hn hentry with hold | ⟨hvalid, -⟩
      · exact hnull n entry hn hold
      · exact hvalid
    · intro m n hm hn hle hsaved
      obtain ⟨entry, hentry⟩ := Option.isSome_iff_exists.1 hsaved
      rcases hnew n entry hn hentry with hold | ⟨-, hearlier⟩
      · exact (hclosed m n hm hn hle (Option.isSome_iff_exists.2 ⟨entry, hold⟩)).performs
          hstored hen.performs
      · rcases Nat.lt_or_eq_of_le hle with hlt | rfl
        · exact (hearlier m hm hlt).performs hstored hen.performs
        · exact hsaved
  drift := by
    rintro c after ⟨hstored, hnull, hclosed⟩ ⟨seconds, hseconds⟩
    obtain rfl := Option.some.inj hseconds
    exact ⟨hstored.tick seconds, hnull, hclosed⟩
  crash := fun _ h => h

end Kept

section Safe

variable {store : DurableJobStore} {format : ClaimFormat} {job : UUID}
  {call : SerpPlannedCall} {ι : Type} [DecidableEq ι] {pool : ι → Proc Unit} {i : ι}

/-- Process `i` has made at most that many calls, and the attempts up to `seen` are saved. -/
def Progress (store : DurableJobStore) (job : UUID) (call : SerpPlannedCall) (i : ι)
    (calls seen : Nat) (c : Config jobSignature JobException World ι) : Prop :=
  (ownCalls c.history i).length ≤ calls ∧
    ∀ n, IsAttempt n → n ≤ seen → AttemptSaved store job call c.state n

theorem stable_progress (calls seen : Nat) :
    Stable (checkpointingMachine store) (attemptDiscipline store format job call pool) i
      (Progress store job call i calls seen) :=
  (Stable.of_ownCalls fun own => own.length ≤ calls).and
    ((Persistent.all fun n => Persistent.imp (IsAttempt n)
      (Persistent.imp (n ≤ seen) (persistent_saved n))).stable i)

theorem Progress.mono {calls calls' seen seen' : Nat}
    {c : Config jobSignature JobException World ι}
    (h : Progress store job call i calls seen c) (hcalls : calls ≤ calls')
    (hseen : seen' ≤ seen) : Progress store job call i calls' seen' c :=
  ⟨h.1.trans hcalls, fun n hn hle => h.2 n hn (hle.trans hseen)⟩

/-- One call of a claim, which saves an attempt only after those before it. -/
theorem safe_call (op : JobOp) {calls seen : Nat} (hcalls : calls < callsPerClaim)
    (hop : ∀ checkpoints job' key value n, op = .saveCheckpoint checkpoints job' key value →
      IsAttempt n → store.checkpointKey job' key = attemptAt store job call n →
      value.isNull = false ∧ n ≤ seen + 1)
    {B : Except JobException op.Value → Config jobSignature JobException World ι → Prop}
    (hstable : ∀ result, Stable (checkpointingMachine store)
      (attemptDiscipline store format job call pool) i (B result))
    (hpost : ∀ c result after rest,
      (attemptDiscipline store format job call pool).inv c →
      Progress store job call i calls seen c →
      (checkpointingMachine store).Performs op c.state result after →
      SavedWhileLive store job call c ⟨i, op, result, c.state, after⟩ →
      B result (c.perform ⟨i, op, result, c.state, after⟩ rest)) :
    Safe (checkpointingMachine store) (attemptDiscipline store format job call pool) i
      (Jobs.call op) (Progress store job call i calls seen)
      fun result c => Progress store job call i (calls + 1) seen c ∧ B result c := by
  refine Safe.perform_post (fun result => (stable_progress _ _).and (hstable result)) ?_
  intro c result after hinv hknown hstep hcond
  refine ⟨⟨?_, ?_⟩, fun rest _ => ⟨⟨?_, ?_⟩, hpost c result after rest hinv hknown hstep hcond⟩⟩
  · intro checkpoints job' key value n heq hn hkey
    obtain ⟨hvalid, hle⟩ := hop checkpoints job' key value n heq hn hkey
    exact ⟨hvalid, fun m hm hlt => hknown.2 m hm (by omega)⟩
  · intro _
    exact Nat.lt_of_le_of_lt hknown.1 hcalls
  · rw [Config.perform_history, ownCalls_cons_self, List.length_cons]
    exact Nat.succ_le_succ hknown.1
  · intro n hn hle
    exact (hknown.2 n hn hle).performs hinv.1 hstep

/-- Reading an attempt: a missing one is not among those that were seen. -/
theorem safe_getAttempt {calls seen n : Nat} (hcalls : calls < callsPerClaim)
    (hn : IsAttempt n) :
    Safe (checkpointingMachine store) (attemptDiscipline store format job call pool) i
      (JobCheckpoints.get job (attemptKey call n)) (Progress store job call i calls seen)
      (Outcome
        (fun raw c => Progress store job call i (calls + 1) seen c ∧
          (raw.isNull = false → AttemptSaved store job call c.state n) ∧
          (raw.isNull = true → seen < n))
        fun _ _ => True) := by
  refine Safe.bind
    (B := fun read c => Progress store job call i (calls + 1) seen c ∧
      ((read.getD .null).isNull = false → AttemptSaved store job call c.state n) ∧
      ((read.getD .null).isNull = true → seen < n))
    ((safe_call (.getCheckpoint job (attemptKey call n))
      (B := Outcome
        (fun read c => ((read.getD .null).isNull = false →
            AttemptSaved store job call c.state n) ∧
          ((read.getD .null).isNull = true → seen < n))
        fun _ _ => True) hcalls ?_ ?_ ?_).weaken ?_) ?_
  · intro checkpoints job' key value m hop
    cases hop
  · rintro (error | read)
    · exact Stable.const True
    · exact (((persistent_saved n).imp _).stable i).and (Stable.const _)
  · intro c result after rest hinv hknown hstep hcond
    obtain ⟨rfl, rfl | ⟨reason, rfl⟩⟩ := performs_getCheckpoint hstep
    · refine ⟨?_, ?_⟩
      · intro hvalue
        refine Option.isSome_iff_ne_none.2 fun hnone => ?_
        have hread : store.getCheckpoint job (attemptKey call n) c.state.redis = none :=
          congrArg (Option.map Entry.value) hnone
        rw [hread] at hvalue
        cases hvalue
      · intro hnull
        refine Nat.lt_of_not_le fun hle => ?_
        obtain ⟨entry, hentry⟩ := Option.isSome_iff_exists.1 (hknown.2 n hn hle)
        have hread : store.getCheckpoint job (attemptKey call n) c.state.redis =
            some entry.value := congrArg (Option.map Entry.value) hentry
        rw [hread, Option.getD_some, hinv.2.1 n entry hn hentry] at hnull
        cases hnull
    · trivial
  · rintro (error | read) c - ⟨hprogress, hread⟩
    · trivial
    · exact ⟨hprogress, hread⟩
  · rintro (_ | value)
    · exact fun c _ h => h
    · exact fun c _ h => h

/-- Counting the saved attempts: all that were seen are counted. -/
theorem safe_existingFrom {ledger : ProviderAttemptLedger} (hjob : ledger.jobId = job)
    (left calls seen n : Nat) (claims : List AttemptClaim) (missingSeen : Bool)
    (hcalls : calls + left ≤ callsPerClaim)
    (hn : n + left = serpProviderAttemptLimitPerCall + 1) (hpos : 1 ≤ n)
    (hseen : seen ≤ serpProviderAttemptLimitPerCall)
    (hpresent : missingSeen = false → claims.length + 1 = n)
    (hmissing : missingSeen = true → seen ≤ claims.length ∧ claims.length < n) :
    Safe (checkpointingMachine store) (attemptDiscipline store format job call pool) i
      (ledger.existingFrom format call (List.range' n left) claims missingSeen)
      (Progress store job call i calls (max seen claims.length))
      (Outcome
        (fun result c => Progress store job call i (calls + left) result.length c ∧
          seen ≤ result.length ∧ result.length ≤ serpProviderAttemptLimitPerCall)
        fun _ _ => True) := by
  subst hjob
  induction left generalizing calls n claims missingSeen with
  | zero =>
      intro c _ hprogress
      have hle : claims.length ≤ serpProviderAttemptLimitPerCall ∧ seen ≤ claims.length := by
        cases missingSeen with
        | false =>
            have := hpresent rfl
            omega
        | true =>
            have := hmissing rfl
            omega
      exact ⟨hprogress.mono (Nat.le_refl _) (le_max_right _ _), hle.2, hle.1⟩
  | succ left ih =>
      have hattempt : IsAttempt n := ⟨hpos, by omega⟩
      rw [List.range'_succ, ProviderAttemptLedger.existingFrom, Nat.add_comm left 1,
        ← Nat.add_assoc]
      refine Safe.bind (safe_getAttempt (by omega) hattempt) fun raw => ?_
      by_cases hnull : raw.isNull = true
      · rw [if_pos hnull]
        by_cases hlt : max seen claims.length < n
        · refine (ih (calls + 1) (n + 1) claims true (by omega) (by omega) (by omega)
            (fun h => by cases h) fun _ => ?_).strengthen fun c _ h => h.1
          cases missingSeen with
          | false =>
              have := hpresent rfl
              omega
          | true =>
              have := hmissing rfl
              omega
        · exact Safe.of_false fun c _ h => hlt (h.2.2 hnull)
      · rw [if_neg hnull]
        cases missingSeen with
        | true => exact fun _ _ _ => trivial
        | false =>
            have hlength := hpresent rfl
            rw [if_neg Bool.false_ne_true]
            split
            · exact fun _ _ _ => trivial
            next claim _ =>
              split
              · exact fun _ _ _ => trivial
              refine (ih (calls + 1) (n + 1) (claims ++ [claim]) false (by omega) (by omega)
                (by omega) (fun _ => ?_) fun h => by cases h).strengthen ?_
              · rw [List.length_append, List.length_singleton]
                omega
              · rintro c - ⟨hprogress, hsaved, -⟩
                refine ⟨hprogress.1, fun m hm hle => ?_⟩
                rw [List.length_append, List.length_singleton] at hle
                by_cases hmn : m = n
                · subst hmn
                  exact hsaved (Bool.eq_false_iff.2 hnull)
                · exact hprogress.2 m hm (by omega)

/-- While the job is live, a refused save means that the attempt is saved. -/
theorem saved_of_refused {w w' : World} {checkpoints : JobCheckpoints} {key : String}
    {value : Json} {n : Nat}
    (hkey : store.checkpointKey job key = attemptAt store job call n)
    (hlive : ∀ generation, checkpoints.runGeneration = some generation →
      ¬ FencedOrTerminal w.redis job generation)
    (h : (checkpointingMachine store).Performs (.saveCheckpoint checkpoints job key value)
      w (.ok false) w') : AttemptSaved store job call w' n := by
  rcases performs_cases h with ⟨reply, hexec⟩ | ⟨_, hres, _⟩
  · obtain ⟨hsaved, rfl⟩ := Prod.mk.inj (Option.some.inj hexec)
    have hrefused : (store.saveCheckpoint checkpoints job key value w.redis).1 = false :=
      Except.ok.inj hsaved
    rw [AttemptSaved, ← hkey]
    change ((store.saveCheckpoint checkpoints job key value w.redis).2.checkpoints
      (store.checkpointKey job key)).isSome = true
    unfold DurableJobStore.saveCheckpoint at hrefused ⊢
    split at hrefused
    · split at hrefused
      next hheld => rwa [if_pos hheld]
      next => cases hrefused
    next generation hgeneration =>
      have hlive := hlive generation hgeneration
      rw [FencedOrTerminal] at hlive
      push Not at hlive
      obtain ⟨state, hstate, hsame, halive⟩ := hlive
      simp only [hstate] at hrefused ⊢
      rw [if_neg (by simp [hsame, halive])] at hrefused ⊢
      split at hrefused
      next hheld => rwa [if_pos hheld]
      next => cases hrefused
  · cases hres

/-- A turn returns a number, or it has seen one more attempt. -/
theorem safe_claimTurn (hkeys : AttemptKeysDiffer store job call)
    {ledger : ProviderAttemptLedger} (hjob : ledger.jobId = job) (keySlot : Nat)
    (fingerprint : String) {calls seen : Nat} (hcalls : calls + callsPerTurn ≤ callsPerClaim)
    (hseen : seen ≤ serpProviderAttemptLimitPerCall) :
    Safe (checkpointingMachine store) (attemptDiscipline store format job call pool) i
      (ledger.claimTurn format call keySlot fingerprint)
      (Progress store job call i calls seen)
      (Outcome
        (fun result c => result = none → seen + 1 ≤ serpProviderAttemptLimitPerCall ∧
          Progress store job call i (calls + callsPerTurn) (seen + 1) c)
        fun _ _ => True) := by
  subst hjob
  have hturn : callsPerTurn = serpProviderAttemptLimitPerCall + 2 := rfl
  refine Safe.bind ((safe_existingFrom rfl serpProviderAttemptLimitPerCall calls seen 1 []
    false (by omega) (by omega) (Nat.le_refl _) hseen (fun _ => rfl)
    (fun h => by cases h)).strengthen fun c _ h => h.mono (Nat.le_refl _) (by simp)) ?_
  intro claims
  dsimp only
  by_cases hlimit : serpProviderAttemptLimitPerCall < claims.length + 1
  · rw [if_pos hlimit]
    exact fun _ _ _ => trivial
  rw [if_neg hlimit]
  by_cases hcounted : seen ≤ claims.length
  swap
  · exact Safe.of_false fun c _ h => hcounted h.2.1
  refine Safe.bind (B := fun _ => Progress store ledger.jobId call i
    (calls + serpProviderAttemptLimitPerCall + 1) claims.length) ?_ fun now => ?_
  · refine (((safe_call .utcNow (B := fun _ _ => True) (by omega) ?_
      (fun _ => Stable.const True) fun _ _ _ _ _ _ _ _ => trivial).strengthen
        fun c _ h => h.1).weaken ?_)
    · intro checkpoints job' key value n hop
      cases hop
    · rintro (error | now) c - ⟨h, -⟩
      · trivial
      · exact h
  split
  · exact fun _ _ _ => trivial
  -- The key of the save is that of the next attempt and of no other one.
  have hnext : IsAttempt (claims.length + 1) := ⟨by omega, by omega⟩
  refine Safe.bind (B := fun saved c => saved = false →
    Progress store ledger.jobId call i (calls + callsPerTurn) (claims.length + 1) c) ?_
      fun saved => ?_
  · refine (safe_call (.saveCheckpoint ledger.checkpoints ledger.jobId
      (attemptKey call (claims.length + 1)) _)
      (B := fun result c => result = .ok false →
        AttemptSaved store ledger.jobId call c.state (claims.length + 1))
      (by omega) ?_ (fun _ => ((persistent_saved _).imp _).stable i) ?_).weaken ?_
    · intro checkpoints job' key value n hop hn hkey
      obtain ⟨rfl, rfl, rfl, rfl⟩ := JobOp.saveCheckpoint.inj hop
      obtain rfl := hkeys.eq hnext hn hkey
      exact ⟨rfl, Nat.le_refl _⟩
    · rintro c result after rest - - hstep hcond rfl
      refine saved_of_refused rfl ?_ hstep
      intro generation hgeneration
      exact hcond _ _ _ _ _ generation rfl hnext rfl hgeneration
    · rintro (error | saved) c - ⟨hprogress, hsaved⟩
      · trivial
      · rintro rfl
        refine ⟨hprogress.1, fun m hm hle => ?_⟩
        by_cases hm' : m = claims.length + 1
        · exact hm' ▸ hsaved rfl
        · exact hprogress.2 m hm (by omega)
  · rintro c - h hnone
    cases saved with
    | true => cases hnone
    | false => exact ⟨by omega, (h rfl).mono (Nat.le_refl _) (by omega)⟩

/-- However many turns it is given, a claim keeps to its calls. -/
theorem safe_claim (hkeys : AttemptKeysDiffer store job call)
    {ledger : ProviderAttemptLedger} (hjob : ledger.jobId = job) (keySlot : Nat)
    (fingerprint : String) (turns seen : Nat)
    (hseen : seen ≤ serpProviderAttemptLimitPerCall) :
    Safe (checkpointingMachine store) (attemptDiscipline store format job call pool) i
      (ledger.claim format call keySlot fingerprint turns)
      (Progress store job call i (callsPerTurn * seen) seen) fun _ _ => True := by
  induction turns generalizing seen with
  | zero => exact fun _ _ _ => trivial
  | succ turns ih =>
      refine Safe.bind (safe_claimTurn hkeys hjob keySlot fingerprint ?_ hseen)
        fun result => ?_
      · rw [callsPerClaim, ← Nat.mul_succ]
        exact Nat.mul_le_mul_left _ (Nat.succ_le_succ hseen)
      · cases result with
        | some attemptNumber => exact fun _ _ _ => trivial
        | none =>
            by_cases hmore : seen + 1 ≤ serpProviderAttemptLimitPerCall
            · exact (ih (seen + 1) hmore).strengthen fun c _ h => (h rfl).2
            · exact Safe.of_false fun c _ h => hmore (h rfl).1

end Safe

section Runs

variable {store : DurableJobStore} {format : ClaimFormat} {job : UUID}
  {call : SerpPlannedCall} {ι : Type} [DecidableEq ι] {pool : ι → Proc Unit}

theorem safeAt_attempts (hkeys : AttemptKeysDiffer store job call)
    (hpool : ∀ i, ClaimsAttempt format job call pool i ∨ LeavesAttempts store job call (pool i))
    (w : World) (i : ι) :
    SafeAt (checkpointingMachine store) (attemptDiscipline store format job call pool)
      (start w pool) i := by
  by_cases hclaims : ClaimsAttempt format job call pool i
  · obtain ⟨request, hjob, hproc⟩ := hclaims
    refine SafeAt.of_safe (Q := fun _ _ => True) (stable_progress (callsPerTurn * 0) 0)
      ⟨Nat.le_refl _, fun n hn hle => ?_⟩ ?_
    · have := hn.1
      omega
    · change Safe _ _ i (pool i) _ _
      rw [hproc]
      exact (safe_claim hkeys hjob request.keySlot request.fingerprint request.turns 0
        (Nat.zero_le _)).andThen fun _ => Safe.done
  · have hleaves := (hpool i).resolve_left hclaims
    refine SafeAt.of_safe (A := fun _ => True) (Stable.const True) trivial
      (Safe.of_calls hleaves ?_)
    intro c op result after hop _ _ _
    refine ⟨?_, fun h => absurd h hclaims⟩
    intro checkpoints job' key value n heq hn hkey
    exact absurd ⟨checkpoints, job', key, value, heq, hkey⟩ (hop n hn)

/-- The saves that go through, of one attempt. -/
def attemptClaims (store : DurableJobStore) (job : UUID) (call : SerpPlannedCall) (n : Nat)
    (history : List (Event jobSignature JobException World ι)) : Nat :=
  history.countP fun e => claimsAttempt store job call n e.op e.result

omit [DecidableEq ι] in
/-- A save that goes through finds its attempt unsaved. -/
theorem claimsAttempt_performs {n : Nat} {op : JobOp} {result : Except JobException op.Value}
    {w w' : World} (hclaims : claimsAttempt store job call n op result = true)
    (h : (checkpointingMachine store).Performs op w result w') :
    ¬ AttemptSaved store job call w n ∧ AttemptSaved store job call w' n := by
  cases op with
  | saveCheckpoint checkpoints job' key value =>
      rcases performs_cases h with ⟨reply, hexec⟩ | ⟨_, rfl, _⟩
      · obtain ⟨rfl, rfl⟩ := Prod.mk.inj (Option.some.inj hexec)
        rcases saveCheckpoint_cases store checkpoints job' key value w.redis with
          heq | ⟨hfree, heq⟩
        · rw [heq] at hclaims
          cases hclaims
        · rw [heq] at hclaims
          have hkey : store.checkpointKey job' key = attemptAt store job call n :=
            of_decide_eq_true hclaims
          refine ⟨?_, ?_⟩
          · rw [AttemptSaved, ← hkey, hfree]
            exact Bool.false_ne_true
          · rw [AttemptSaved, ← hkey]
            change ((store.saveCheckpoint checkpoints job' key value w.redis).2.checkpoints
              (store.checkpointKey job' key)).isSome = true
            rw [heq]
            exact congrArg Option.isSome (Table.set_self _ _ _ _)
      · cases hclaims
  | _ => cases hclaims

/-- Saved attempts that are downward closed are the first ones. -/
theorem attemptsContiguous_of_closed {w : World}
    (hclosed : ∀ m n, IsAttempt m → IsAttempt n → m ≤ n →
      AttemptSaved store job call w n → AttemptSaved store job call w m) :
    AttemptsContiguous store job call w := by
  classical
  refine ⟨Nat.findGreatest (fun n => IsAttempt n ∧ AttemptSaved store job call w n)
    serpProviderAttemptLimitPerCall, Nat.findGreatest_le _, fun m hm => ⟨?_, ?_⟩⟩
  · intro hsaved
    exact Nat.le_findGreatest hm.2 ⟨hm, hsaved⟩
  · intro hle
    have hpos := hm.1
    have hne : Nat.findGreatest (fun n => IsAttempt n ∧ AttemptSaved store job call w n)
        serpProviderAttemptLimitPerCall ≠ 0 := by omega
    obtain ⟨hattempt, hsaved⟩ := Nat.findGreatest_of_ne_zero rfl hne
    exact hclosed m _ hm hattempt hle hsaved

theorem AttemptsContiguous.closed {w : World} (h : AttemptsContiguous store job call w)
    {m n : Nat} (hm : IsAttempt m) (hn : IsAttempt n) (hle : m ≤ n)
    (hsaved : AttemptSaved store job call w n) : AttemptSaved store job call w m := by
  obtain ⟨k, -, hk⟩ := h
  exact (hk m hm).2 (hle.trans ((hk n hn).1 hsaved))

/-- In every run whose attempts are saved while the job is live: a claim keeps to its
calls, however many turns it is given; the saved attempts are the first ones; and each
number is returned once, by the save of its attempt. -/
theorem claims_end_with_numbers_of_their_own (hkeys : AttemptKeysDiffer store job call)
    (hpool : ∀ i, ClaimsAttempt format job call pool i ∨ LeavesAttempts store job call (pool i))
    {w : World} (hstored : w.redis.StatesStored)
    (hnull : ∀ n entry, IsAttempt n →
      w.redis.checkpoints (attemptAt store job call n) = some entry →
      entry.value.isNull = false)
    (hcontiguous : AttemptsContiguous store job call w)
    {c : Config jobSignature JobException World ι}
    (hrun : Run (checkpointingMachine store) (SavedWhileLive store job call)
      (start w pool) c) :
    (∀ i, ClaimsAttempt format job call pool i →
      (ownCalls c.history i).length ≤ callsPerClaim) ∧
    AttemptsContiguous store job call c.state ∧
    (∀ n, attemptClaims store job call n c.history ≤ 1) ∧
    ∀ (ledger : ProviderAttemptLedger) (keySlot : Nat) (fingerprint : String) (turns : Nat),
      (ledger.claim format call keySlot fingerprint turns).ReturnsBy
        (ReturnedBySave store ledger call) := by
  have hinv : (attemptDiscipline store format job call pool).inv (start w pool) :=
    ⟨hstored, hnull, fun _ _ => hcontiguous.closed⟩
  have hsafe := safeAt_attempts hkeys hpool w
  refine ⟨?_, ?_, ?_, fun ledger => returnsBy_claim store format ledger call⟩
  · refine Discipline.invariant attemptDiscipline_kept hinv hsafe hrun
      (I := fun c => ∀ i, ClaimsAttempt format job call pool i →
        (ownCalls c.history i).length ≤ callsPerClaim) (fun _ _ => Nat.zero_le _) ?_ ?_ ?_
    · intro c e rest _ hlength hen hgoal i hclaims
      rw [Config.perform_history]
      by_cases hi : e.actor = i
      · subst hi
        rw [ownCalls_cons_self, List.length_cons]
        exact hgoal.2 hclaims
      · rw [ownCalls_cons_of_ne hi]
        exact hlength i hclaims
    · exact fun _ h _ => h
    · exact fun _ _ h => h
  · exact attemptsContiguous_of_closed
      (Discipline.sound attemptDiscipline_kept hinv hsafe hrun).1.2.2
  · intro n
    refine (Discipline.invariant attemptDiscipline_kept hinv hsafe hrun
      (I := fun c => attemptClaims store job call n c.history ≤ 1 ∧
        (attemptClaims store job call n c.history ≠ 0 →
          AttemptSaved store job call c.state n)) ⟨Nat.zero_le _, fun h => absurd rfl h⟩
      ?_ ?_ ?_).1
    · rintro c e rest hinv ⟨hone, hsaved⟩ hen -
      rw [Config.perform_history, Config.perform_state, attemptClaims, List.countP_cons,
        ← attemptClaims]
      by_cases hclaims : claimsAttempt store job call n e.op e.result = true
      · obtain ⟨hfree, hafter⟩ := claimsAttempt_performs hclaims hen.performs
        have hzero : attemptClaims store job call n c.history = 0 :=
          not_not.1 fun h => hfree (hsaved h)
        rw [hzero, if_pos hclaims]
        exact ⟨Nat.le_refl _, fun _ => hafter⟩
      · rw [if_neg hclaims, Nat.add_zero]
        exact ⟨hone, fun h => (hsaved h).performs hinv.1 hen.performs⟩
    · rintro c after - ⟨hone, hsaved⟩ ⟨seconds, hseconds⟩
      obtain rfl := Option.some.inj hseconds
      exact ⟨hone, hsaved⟩
    · exact fun _ _ h => h

end Runs

section Fenced

variable {store : DurableJobStore} (format : ClaimFormat) (ledger : ProviderAttemptLedger)
  (call : SerpPlannedCall)

/-- What the server answers to a ledger that may not save and finds no attempt. -/
def refusingAnswers : Answers jobSignature JobException
  | .getCheckpoint _ _ => .ok none
  | .utcNow => .ok (0 : Instant)
  | .saveCheckpoint _ _ _ _ => .ok false
  | _ => .error .unexpected

theorem existingFrom_refused (numbers : List Nat) (missingSeen : Bool) :
    (ledger.existingFrom format call numbers [] missingSeen).outcome refusingAnswers = .ok [] ∧
      ((ledger.existingFrom format call numbers [] missingSeen).calls refusingAnswers).length =
        numbers.length := by
  induction numbers generalizing missingSeen with
  | nil => exact ⟨rfl, rfl⟩
  | cons n rest ih =>
      obtain ⟨houtcome, hcalls⟩ := ih true
      exact ⟨houtcome, congrArg Nat.succ hcalls⟩

variable {keySlot : Nat} {fingerprint : String}

/-- A turn reads the attempts and the clock, tries to save, and comes to nothing. -/
theorem claimTurn_refused
    (haccepted : (AttemptClaim.mk call.requestDigest 1 keySlot fingerprint 0).accepted = true) :
    (ledger.claimTurn format call keySlot fingerprint).outcome refusingAnswers = .ok none ∧
      ((ledger.claimTurn format call keySlot fingerprint).calls refusingAnswers).length =
        callsPerTurn := by
  obtain ⟨houtcome, hcalls⟩ := existingFrom_refused format ledger call
    (List.range' 1 serpProviderAttemptLimitPerCall) false
  have hexisting : (ledger.existing format call).outcome refusingAnswers = .ok [] := houtcome
  have hnumber : ¬ serpProviderAttemptLimitPerCall < 1 := by decide
  have hpass : ¬ (!(AttemptClaim.mk call.requestDigest 1 keySlot fingerprint 0).accepted) =
      true := by
    rw [haccepted]
    decide
  have hclock : (Jobs.call .utcNow).outcome refusingAnswers = .ok (0 : Instant) := rfl
  have hsave : ∀ value, (ledger.checkpoints.save ledger.jobId (attemptKey call 1)
      value).outcome refusingAnswers = .ok false := fun _ => rfl
  constructor
  · rw [ProviderAttemptLedger.claimTurn, outcome_bind, hexisting]
    dsimp only [List.length_nil, Nat.reduceAdd]
    rw [if_neg hnumber, outcome_bind, hclock]
    dsimp only
    rw [if_neg hpass, outcome_bind, hsave]
    rfl
  · rw [ProviderAttemptLedger.claimTurn, calls_bind_of_ok hexisting, List.length_append,
      ProviderAttemptLedger.existing, hcalls]
    dsimp only [List.length_nil, Nat.reduceAdd]
    rw [if_neg hnumber, calls_bind_of_ok hclock, if_neg hpass, calls_bind_of_ok (hsave _)]
    rfl

/-- A claim that may not save uses up every turn that it is given. -/
theorem claim_refused
    (haccepted : (AttemptClaim.mk call.requestDigest 1 keySlot fingerprint 0).accepted = true)
    (turns : Nat) :
    (ledger.claim format call keySlot fingerprint turns).outcome refusingAnswers = .ok none ∧
      ((ledger.claim format call keySlot fingerprint turns).calls refusingAnswers).length =
        callsPerTurn * turns := by
  obtain ⟨houtcome, hcalls⟩ := claimTurn_refused format ledger call haccepted
  induction turns with
  | zero => exact ⟨rfl, rfl⟩
  | succ turns ih =>
      rw [ProviderAttemptLedger.claim, outcome_bind, houtcome, calls_bind_of_ok houtcome,
        List.length_append, hcalls]
      refine ⟨ih.1, ?_⟩
      dsimp only
      rw [ih.2, Nat.mul_succ, Nat.add_comm]

/-- The calls of a claim. -/
def IsClaimCall (op : JobOp) : Prop :=
  op = .utcNow ∨ (∃ n, IsAttempt n ∧ op = .getCheckpoint ledger.jobId (attemptKey call n)) ∨
    ∃ key value, op = .saveCheckpoint ledger.checkpoints ledger.jobId key value

theorem onlyCalls_existingFrom (numbers : List Nat) (claims : List AttemptClaim)
    (missingSeen : Bool) (hnumbers : ∀ n ∈ numbers, IsAttempt n) :
    (ledger.existingFrom format call numbers claims missingSeen).OnlyCalls
      (IsClaimCall ledger call) := by
  induction numbers generalizing claims missingSeen with
  | nil => trivial
  | cons n rest ih =>
      have hrest := fun claims missingSeen => ih claims missingSeen
        fun m hm => hnumbers m (List.mem_cons_of_mem n hm)
      refine OnlyCalls.bind (OnlyCalls.bind (onlyCalls_perform (Or.inr (Or.inl
        ⟨n, hnumbers n List.mem_cons_self, rfl⟩))) fun read => ?_) fun raw => ?_
      · cases read <;> trivial
      split
      · exact hrest _ _
      split
      · trivial
      split
      · trivial
      split
      · trivial
      · exact hrest _ _

theorem onlyCalls_claim (keySlot : Nat) (fingerprint : String) (turns : Nat) :
    (ledger.claim format call keySlot fingerprint turns).OnlyCalls
      (IsClaimCall ledger call) := by
  induction turns with
  | zero => trivial
  | succ turns ih =>
      refine OnlyCalls.bind (OnlyCalls.bind (onlyCalls_existingFrom format ledger call _ _ _ ?_)
        fun claims => ?_) fun result => ?_
      · intro n hn
        obtain ⟨hpos, hle⟩ := List.mem_range'_1.1 hn
        exact ⟨hpos, by omega⟩
      · dsimp only
        split
        · trivial
        refine OnlyCalls.bind (onlyCalls_perform (Or.inl rfl)) fun now => ?_
        split
        · trivial
        exact OnlyCalls.bind (onlyCalls_perform (Or.inr (Or.inr ⟨_, _, rfl⟩))) fun _ => trivial
      · cases result with
        | some attemptNumber => trivial
        | none => exact ih

/-- For a fenced generation, a terminal job or an expired state, and with no attempt saved,
no number of turns is enough: a claim on its own makes them all. -/
theorem fenced_claim_goes_on {w : World} {generation : Int}
    (hgeneration : ledger.checkpoints.runGeneration = some generation)
    (hfenced : FencedOrTerminal w.redis ledger.jobId generation)
    (hnone : ∀ n, IsAttempt n → ¬ AttemptSaved store ledger.jobId call w n)
    (haccepted : (AttemptClaim.mk call.requestDigest 1 keySlot fingerprint 0).accepted = true)
    (turns : Nat) :
    ∃ c, Run (checkpointingMachine store) Anything (start w fun _ : Nat =>
        (ClaimRequest.mk ledger keySlot fingerprint turns).proc format call) c ∧
      (ownCalls c.history 0).length = callsPerTurn * turns := by
  have hcalls : ((ClaimRequest.mk ledger keySlot fingerprint turns).proc format call).calls
      refusingAnswers = (ledger.claim format call keySlot fingerprint turns).calls
        refusingAnswers := by
    rw [ClaimRequest.proc, calls_bind_of_ok (claim_refused format ledger call haccepted turns).1]
    exact List.append_nil _
  have hperforms : ∀ op ∈ ((ClaimRequest.mk ledger keySlot fingerprint turns).proc format
      call).calls refusingAnswers,
        (checkpointingMachine store).Performs op w (refusingAnswers op) w := by
    intro op hop
    rw [hcalls] at hop
    have hreply := (onlyCalls_claim format ledger call keySlot fingerprint turns).of_mem_calls
      refusingAnswers hop
    refine ⟨.proceed refusingAnswers, ?_⟩
    rcases hreply with rfl | ⟨n, hn, rfl⟩ | ⟨key, value, rfl⟩
    · rfl
    · have hmissing : store.getCheckpoint ledger.jobId (attemptKey call n) w.redis = none :=
        congrArg (Option.map Entry.value) (Option.not_isSome_iff_eq_none.1 (hnone n hn))
      change some (Except.ok (store.getCheckpoint ledger.jobId (attemptKey call n) w.redis), w) =
        some (Except.ok none, w)
      rw [hmissing]
    · have hrefused := @saveCheckpoint_of_fencedOrTerminal store _ _ hgeneration _ _ hfenced
        key value
      change some (w.write (store.saveCheckpoint ledger.checkpoints ledger.jobId key value
        w.redis)) = some (Except.ok false, w)
      rw [hrefused]
      rfl
  obtain ⟨c, hrun, hlength⟩ := run_alone
    ((ClaimRequest.mk ledger keySlot fingerprint turns).proc format call)
    (c := start w fun _ : Nat =>
      (ClaimRequest.mk ledger keySlot fingerprint turns).proc format call) (i := 0) rfl hperforms
  refine ⟨c, hrun, ?_⟩
  rw [hlength, hcalls, (claim_refused format ledger call haccepted turns).2]
  exact Nat.zero_add _

end Fenced

section Sample

/-- A number as a JSON value that is read back without parsing. -/
def tally (n : Nat) : Json := .array (List.replicate n .null)

theorem canonical_tally (n : Nat) : (tally n).canonical = tally n := by
  rw [tally, Json.canonical]
  congr 1
  induction n with
  | zero => rfl
  | succ n ih => rw [List.replicate_succ, Json.canonicalItems, ih, Json.canonical]

/-- A format that keeps every field of a claim. -/
def sampleFormat : ClaimFormat where
  dump claim := [("claim", .array [tally claim.requestDigest.toNat, tally claim.attemptNumber,
    tally claim.keySlot, .string claim.keyFingerprint, .bool (decide (0 ≤ claim.claimedAt)),
    tally claim.claimedAt.natAbs])]
  validate
    | .object [(_, .array [.array digest, .array attemptNumber, .array keySlot,
        .string keyFingerprint, .bool after, .array claimedAt])] =>
        some ⟨BitVec.ofNat 256 digest.length, attemptNumber.length, keySlot.length,
          keyFingerprint, if after then claimedAt.length else -claimedAt.length⟩
    | _ => none
  validate_dump claim _ := by
    have hclaimed : (if decide (0 ≤ claim.claimedAt) = true then (claim.claimedAt.natAbs : Int)
        else -claim.claimedAt.natAbs) = claim.claimedAt := by
      split
      next h => exact Int.natAbs_of_nonneg (of_decide_eq_true h)
      next h =>
        have hneg : claim.claimedAt < 0 := by simpa using h
        rw [Int.ofNat_natAbs_of_nonpos hneg.le, neg_neg]
    simp only [Json.canonical, Json.canonicalFields, Json.canonicalItems, canonical_tally,
      List.mergeSort_singleton]
    simp only [tally, List.length_replicate, BitVec.ofNat_toNat, BitVec.setWidth_eq, hclaimed]

def sampleCall : SerpPlannedCall := ⟨0, "google"⟩

/-- A claim for the first generation of the sample job. -/
def sampleRequest (turns : Nat) : ClaimRequest where
  ledger := ⟨⟨604800, some 1⟩, 1⟩
  keySlot := 1
  fingerprint := "0123456789ab"
  turns := turns

/-- The execution that creates the sample job and starts it. -/
def startSample : Proc Unit := do
  let _ ← Jobs.call (.registerJob sampleRegistration)
  let _ ← Jobs.call (.transition sampleRunning)

/-- The job is created and started, and two claims are made meanwhile. -/
def samplePool : Nat → Proc Unit
  | 0 => startSample
  | _ => (sampleRequest 4).proc sampleFormat sampleCall

/-- An attempt is saved for the live generation only. -/
def liveSave (c : Config jobSignature JobException World Nat)
    (e : Event jobSignature JobException World Nat) : Bool :=
  match e.op with
  | .saveCheckpoint checkpoints job' _ _ =>
      checkpoints.runGeneration.all fun generation =>
        (c.state.redis.states.get job').any fun state =>
          decide (state.runGeneration = generation) && !state.terminal
  | _ => true

theorem savedWhileLive_of_liveSave {store : DurableJobStore} {job : UUID}
    {call : SerpPlannedCall} (c : Config jobSignature JobException World Nat)
    (e : Event jobSignature JobException World Nat) (h : liveSave c e = true) :
    SavedWhileLive store job call c e := by
  intro checkpoints job' key value n generation hop _ _ hgeneration hfenced
  rw [liveSave, hop] at h
  simp only [hgeneration, Option.all_some, Option.any_eq_true] at h
  obtain ⟨state, hstate, hlive⟩ := h
  rw [Bool.and_eq_true, decide_eq_true_eq, Bool.not_eq_true'] at hlive
  rcases hfenced state hstate with hne | hterminal
  · exact hne hlive.1
  · rw [hterminal] at hlive
    cases hlive.2

/-- The clock stands at zero; no other service is asked. -/
def clockAtZero : JobAnswer := .proceed fun
  | .utcNow => .ok 0
  | _ => .error .unexpected

/-- Both claims count the attempts before either has saved one. -/
def sampleMoves : List (Move (checkpointingMachine sampleStore) Nat) :=
  List.replicate 2 (.act 0 clockAtZero) ++ List.replicate 4 (.act 1 clockAtZero) ++
    List.replicate 4 (.act 2 clockAtZero) ++ [.act 1 clockAtZero] ++
    List.replicate 6 (.act 2 clockAtZero)

theorem samplePool_claims (i : Nat) :
    ClaimsAttempt sampleFormat 1 sampleCall samplePool i ∨
      LeavesAttempts sampleStore 1 sampleCall (samplePool i) := by
  cases i with
  | zero =>
      refine Or.inr (OnlyCalls.bind (onlyCalls_perform ?_) fun _ =>
        OnlyCalls.bind (onlyCalls_perform ?_) fun _ => trivial)
      · rintro n - ⟨_, _, _, _, hop, -⟩
        cases hop
      · rintro n - ⟨_, _, _, _, hop, -⟩
        cases hop
  | succ i => exact Or.inl ⟨sampleRequest 4, rfl, rfl⟩

set_option maxRecDepth 20000 in
/-- The claim whose save is refused takes the next number in its second turn. -/
theorem refused_claim_takes_the_next_number :
    ∃ c, Run (checkpointingMachine sampleStore) (SavedWhileLive sampleStore 1 sampleCall)
        (start World.initial samplePool) c ∧
      attemptClaims sampleStore 1 sampleCall 2 c.history = 1 ∧
      (ownCalls c.history 2).length = 10 ∧
      (ownCalls c.history 2).length ≤ callsPerClaim ∧
      AttemptsContiguous sampleStore 1 sampleCall c.state := by
  have hplay : (play (M := checkpointingMachine sampleStore) liveSave sampleMoves
      (start World.initial samplePool)).any (fun c =>
        decide (attemptClaims sampleStore 1 sampleCall 2 c.history = 1 ∧
          (ownCalls c.history 2).length = 10)) = true := by
    with_unfolding_all decide
  obtain ⟨c, hrun, htest⟩ := exists_run_of_play savedWhileLive_of_liveSave hplay
  obtain ⟨htwo, hturns⟩ := of_decide_eq_true htest
  obtain ⟨hcalls, hcontiguous, -, -⟩ := claims_end_with_numbers_of_their_own
    (by decide) samplePool_claims statesStored_initial
    (fun n entry _ hentry => by cases hentry)
    ⟨0, Nat.zero_le _, fun n hn => iff_of_false Bool.false_ne_true (by
      have := hn.1
      omega)⟩ hrun
  exact ⟨c, hrun, htwo, hturns, hcalls 2 ⟨sampleRequest 4, rfl, rfl⟩, hcontiguous⟩

/-- The job is created, started and taken over by another generation. -/
def takeOverSample : Proc Unit := do
  startSample
  let _ ← Jobs.call (.takeOverStale 1 1 2000)

/-- The sample job after its takeover. -/
def takenOverConfig : Option (Config jobSignature JobException World Nat) :=
  play (M := checkpointingMachine sampleStore) (fun _ _ => true)
    (List.replicate 3 (.act 0 clockAtZero)) (start World.initial fun _ => takeOverSample)

/-- After the takeover the first generation of the sample job is fenced. -/
theorem takenOver_fenced :
    takenOverConfig.any (fun c =>
      ((c.state.redis.states.get 1).any fun state => decide (state.runGeneration = 2)) &&
        (List.range' 1 serpProviderAttemptLimitPerCall).all fun n =>
          (c.state.redis.checkpoints (attemptAt sampleStore 1 sampleCall n)).isNone) = true := by
  decide

/-- The claim of an execution whose job has been taken over makes more calls than any
number one names. -/
theorem taken_over_claim_never_ends :
    ∃ c₀, Run (checkpointingMachine sampleStore) Anything
        (start World.initial fun _ : Nat => takeOverSample) c₀ ∧
      ∀ turns, ∃ c, Run (checkpointingMachine sampleStore) Anything
          (start c₀.state fun _ : Nat => (sampleRequest turns).proc sampleFormat sampleCall) c ∧
        (ownCalls c.history 0).length = callsPerTurn * turns := by
  obtain ⟨c₀, hrun, htest⟩ := exists_run_of_play
    (fun _ _ _ => (trivial : Anything _ _)) takenOver_fenced
  simp only [Bool.and_eq_true, Option.any_eq_true, List.all_eq_true, List.mem_range'_1,
    Option.isNone_iff_eq_none, decide_eq_true_eq] at htest
  obtain ⟨⟨state, hstate, hgeneration⟩, hnone⟩ := htest
  refine ⟨c₀, hrun, fun turns => ?_⟩
  have hfirst : (sampleRequest turns).ledger.checkpoints.runGeneration = some 1 := rfl
  refine fenced_claim_goes_on sampleFormat _ sampleCall hfirst ?_ ?_ (by decide) turns
  · intro current hcurrent
    obtain rfl := Option.some.inj (hstate.symm.trans hcurrent)
    rw [hgeneration]
    exact Or.inl (by decide)
  · rintro n ⟨hpos, hle⟩ hsaved
    have hmissing := congrArg Option.isSome (hnone n ⟨hpos, by omega⟩)
    exact Bool.false_ne_true (hmissing.symm.trans hsaved)

end Sample

end SearchTrust.Providers
