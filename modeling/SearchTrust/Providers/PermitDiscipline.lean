/-
What becomes of the circuit permits that a search takes.  The search of an operation
records its permit unless the provider fails in a way of its own; the search over the
keys records one permit for each key that it has tried, and takes one for each key
that it could try.
-/
import SearchTrust.Providers.Search

namespace SearchTrust.Providers

open SearchTrust.Interleave SearchTrust.Interleave.Program SearchTrust.Jobs

section Discipline

variable {Payload α β : Type} (answers : SearchAnswers Payload)

/-- The permit that a call obtains. -/
def issuedPermit : SearchOp Payload → Option CircuitPermit
  | .beforeCall slot provider operation now =>
      match answers (.beforeCall slot provider operation now) with
      | .ok probe => some ⟨provider, operation, probe⟩
      | .error _ => none
  | _ => none

/-- The permit that a call reports on. -/
def SearchOp.reported : SearchOp Payload → Option CircuitPermit
  | .recordSuccess permit | .recordFailure permit _ _ _ _ => some permit
  | _ => none

/-- The call goes through. -/
def goesThrough (op : SearchOp Payload) : Bool := (answers op).toBool

/-- The permit that a call records. -/
def recordedPermit (op : SearchOp Payload) : Option CircuitPermit :=
  if goesThrough answers op then op.reported else none

/-- Every permit that the search obtains is recorded exactly once before it ends. -/
def Disciplined (p : SearchProc Payload α) : Prop :=
  (p.collect answers (issuedPermit answers)).Perm
    (p.collect answers (recordedPermit answers))

instance (p : SearchProc Payload α) : Decidable (Disciplined answers p) :=
  inferInstanceAs (Decidable (List.Perm _ _))

/-- A call that neither obtains nor records a permit. -/
def SearchOp.quiet : SearchOp Payload → Bool
  | .beforeCall _ _ _ _ | .recordSuccess _ | .recordFailure _ _ _ _ _ => false
  | _ => true

/-- No call of the program has to do with a permit. -/
abbrev Quiet (p : SearchProc Payload α) : Prop :=
  p.OnlyCalls fun op => SearchOp.quiet op = true

variable {answers}

theorem issuedPermit_of_quiet {op : SearchOp Payload} (h : op.quiet = true) :
    issuedPermit answers op = none := by
  cases op <;> first | rfl | cases h

theorem recordedPermit_of_reported_eq_none {op : SearchOp Payload}
    (h : op.reported = none) : recordedPermit answers op = none := by
  rw [recordedPermit, h, ite_self]

theorem recordedPermit_of_quiet {op : SearchOp Payload} (h : op.quiet = true) :
    recordedPermit answers op = none := by
  refine recordedPermit_of_reported_eq_none ?_
  cases op <;> first | rfl | cases h

theorem Quiet.issued {p : SearchProc Payload α} (hp : Quiet p) :
    p.collect answers (issuedPermit answers) = [] :=
  collect_eq_nil answers _ (hp.mono fun _ => issuedPermit_of_quiet)

theorem Quiet.recorded {p : SearchProc Payload α} (hp : Quiet p) :
    p.collect answers (recordedPermit answers) = [] :=
  collect_eq_nil answers _ (hp.mono fun _ => recordedPermit_of_quiet)

theorem Quiet.disciplined {p : SearchProc Payload α} (hp : Quiet p) :
    Disciplined answers p := by
  rw [Disciplined, hp.issued, hp.recorded]

/-- Quiet work that goes before leaves the question to what follows. -/
theorem Quiet.disciplined_bind_iff {p : SearchProc Payload α} (hp : Quiet p)
    (f : α → SearchProc Payload β) :
    Disciplined answers (p >>= f) ↔
      ∀ value, p.outcome answers = .ok value → Disciplined answers (f value) := by
  rw [Disciplined, collect_bind, collect_bind, hp.issued, hp.recorded, List.nil_append,
    List.nil_append]
  cases p.outcome answers with
  | ok value =>
      constructor
      · rintro h _ ⟨⟩
        exact h
      · intro h
        exact h value rfl
  | error error =>
      constructor
      · rintro - _ ⟨⟩
      · intro _
        exact List.Perm.refl []

/-- Quiet work that follows changes nothing. -/
theorem disciplined_bind_quiet_iff (p : SearchProc Payload α)
    {f : α → SearchProc Payload β} (hf : ∀ value, Quiet (f value)) :
    Disciplined answers (p >>= f) ↔ Disciplined answers p := by
  rw [Disciplined, Disciplined,
    collect_bind_eq_left answers _ fun value => (hf value).mono fun _ => issuedPermit_of_quiet,
    collect_bind_eq_left answers _ fun value => (hf value).mono fun _ => recordedPermit_of_quiet]

theorem quiet_searchCall {op : SearchOp Payload} (h : op.quiet = true) :
    Quiet (searchCall op) :=
  onlyCalls_perform h

theorem issuedPermit_of_reported {op : SearchOp Payload} {permit : CircuitPermit}
    (h : op.reported = some permit) : issuedPermit answers op = none := by
  cases op <;> first | rfl | cases h

variable {held : Option CircuitPermit} {report : CircuitPermit → SearchOp Payload}

/-- A report obtains no permit. -/
theorem record_issued (hreport : ∀ permit, (report permit).reported = some permit) :
    (record held report).collect answers (issuedPermit answers) = [] := by
  cases held with
  | none => rfl
  | some permit =>
      refine collect_eq_nil answers _ (OnlyCalls.bind ?_ fun _ => trivial)
      exact onlyCalls_perform (issuedPermit_of_reported (hreport permit))

theorem record_recorded (hreport : ∀ permit, (report permit).reported = some permit) :
    (record held report).collect answers (recordedPermit answers) =
      (held.filter fun permit => goesThrough answers (report permit)).toList := by
  cases held with
  | none => rfl
  | some permit =>
      rw [record, collect_bind_eq_left, collect_perform, recordedPermit, hreport permit,
        Option.filter_some]
      intro _
      trivial

theorem record_outcome :
    (record held report).outcome answers =
      match held with
      | some permit => (answers (report permit)).map fun _ => ()
      | none => .ok () := by
  cases held with
  | none => rfl
  | some permit =>
      rw [record, outcome_bind, outcome_perform]
      cases h : answers (report permit) with
      | ok value => simp only [h, Except.map, outcome_ret]
      | error error => simp only [h, Except.map]

end Discipline

namespace CheckpointedSerpProvider

variable {Payload : Type} [DecidableEq Payload] (functions : PayloadFunctions Payload)
  (self : CheckpointedSerpProvider) (call : SerpPlannedCall) (now : SearchReadings)
  (answers : SearchAnswers Payload)

/-- The breaker lets the search through: there is no checkpoint of the call, attempts
are left, and the circuit of the operation issues a permit. -/
def ObtainsPermit (probe : Bool) : Prop :=
  self.circuitBreaker = true ∧ answers .getCheckpoint = .ok none ∧
    (∃ attempts, answers .countAttempts = .ok attempts ∧
      attempts < serpProviderAttemptLimitPerCall) ∧
    answers (.beforeCall none "serpapi" ("search:" ++ call.engine) now.startedAt) =
      .ok probe

/-- The provider answers or fails with a `SerpMarketProviderError`, and the record of
that goes through. -/
def ReportsOutcome (permit : CircuitPermit) : Prop :=
  match answers .delegateSearch with
  | .ok _ => goesThrough answers (.recordSuccess permit) = true
  | .error (.marketProvider code retryable _ _) =>
      goesThrough answers (.recordFailure permit (now.failedAt none) retryable
        (code == "SERP_PROVIDER_KEYS_UNAVAILABLE") none) = true
  | .error _ => False

/-- Once the search holds a permit, it reports on it. -/
def SettlesPermit : Prop :=
  ∀ probe, ObtainsPermit self call now answers probe →
    ReportsOutcome now answers (permit call probe)

theorem quiet_validatedCheckpoint (saved : Option (ProviderCheckpoint Payload)) :
    Quiet (validatedCheckpoint functions call saved) := by
  cases saved with
  | none => trivial
  | some checkpoint =>
      dsimp only [validatedCheckpoint]
      repeat' split
      all_goals trivial

theorem quiet_persist (response : SerpProviderResponse Payload) :
    Quiet (persist functions call now response) := by
  refine OnlyCalls.bind (quiet_searchCall rfl) fun attempts => ?_
  dsimp only
  split
  · trivial
  split
  · trivial
  split
  · trivial
  refine OnlyCalls.bind (quiet_searchCall rfl) fun _ => ?_
  refine OnlyCalls.bind (quiet_searchCall rfl) fun saved => ?_
  cases saved with
  | none => trivial
  | some persisted =>
      exact OnlyCalls.bind (quiet_validatedCheckpoint functions call persisted) fun _ => trivial

omit [DecidableEq Payload] in
/-- Asking the provider obtains no permit. -/
theorem guarded_issued (held : Option CircuitPermit) :
    (guarded now held : SearchProc Payload _).collect answers (issuedPermit answers) = [] := by
  rw [guarded, collect_bind, collect_attempt, collect_perform, outcome_attempt]
  dsimp only
  split
  · rw [collect_bind_eq_left, record_issued fun _ => rfl]
    · rfl
    intro _
    trivial
  · rfl
  · rw [collect_bind_eq_left, record_issued fun _ => rfl]
    · rfl
    intro _
    exact OnlyCalls.bind (onlyCalls_perform rfl) fun _ => trivial
  · rfl

omit [DecidableEq Payload] in
/-- What asking the provider records. -/
theorem guarded_recorded (permit : CircuitPermit) :
    (guarded now (some permit) : SearchProc Payload _).collect answers
      (recordedPermit answers) = [permit] ↔ ReportsOutcome now answers permit := by
  rw [guarded, collect_bind, collect_attempt, collect_perform, outcome_attempt,
    outcome_perform, ReportsOutcome]
  dsimp only
  cases answers .delegateSearch with
  | ok response =>
      dsimp only
      rw [collect_bind_eq_left, record_recorded fun _ => rfl]
      · cases h : goesThrough answers (.recordSuccess permit) <;>
          simp [recordedPermit, SearchOp.reported, h]
      intro _
      trivial
  | error error =>
      cases error with
      | marketProvider code retryable providerAttempts logicalCallUsed =>
          dsimp only
          rw [collect_bind_eq_left, record_recorded fun _ => rfl]
          · cases h : goesThrough answers (.recordFailure permit (now.failedAt none) retryable
                (code == "SERP_PROVIDER_KEYS_UNAVAILABLE") none) <;>
              simp [recordedPermit, SearchOp.reported, h]
          intro _
          refine OnlyCalls.bind (onlyCalls_perform ?_) fun _ => trivial
          exact recordedPermit_of_quiet rfl
      | _ => simp [recordedPermit, SearchOp.reported]

omit [DecidableEq Payload] in
theorem quiet_guarded_none : Quiet (guarded now none : SearchProc Payload _) := by
  refine OnlyCalls.bind (OnlyCalls.attempt (quiet_searchCall rfl)) fun result => ?_
  split
  · exact OnlyCalls.bind trivial fun _ => trivial
  · trivial
  · exact OnlyCalls.bind trivial fun _ =>
      OnlyCalls.bind (quiet_searchCall rfl) fun _ => trivial
  · trivial

omit [DecidableEq Payload] in
/-- With a breaker, a search that goes on to the provider obtains one permit, and the
discipline is that asking the provider reports on it. -/
theorem disciplined_takePermit_iff (hbreaker : self.circuitBreaker = true) :
    Disciplined answers (takePermit self call now >>= guarded now) ↔
      ∀ probe, answers (.beforeCall none "serpapi" ("search:" ++ call.engine)
        now.startedAt) = .ok probe → ReportsOutcome now answers (permit call probe) := by
  have hrecorded : recordedPermit answers (.beforeCall none "serpapi"
      ("search:" ++ call.engine) now.startedAt) = none :=
    recordedPermit_of_reported_eq_none rfl
  rw [takePermit, if_pos hbreaker, bind_assoc, Disciplined, collect_bind, collect_bind,
    collect_perform, collect_perform, outcome_perform, hrecorded]
  cases h : answers (.beforeCall none "serpapi" ("search:" ++ call.engine)
    now.startedAt) with
  | error error =>
      constructor
      · rintro - _ ⟨⟩
      · intro _
        simp only [issuedPermit, h]
        exact List.Perm.refl []
  | ok probe =>
      have hissued : issuedPermit answers (.beforeCall none "serpapi"
          ("search:" ++ call.engine) now.startedAt) = some (permit call probe) := by
        simp only [issuedPermit, h, permit]
      rw [hissued]
      dsimp only [Option.toList_some, Option.toList_none, pure_eq_ret, ret_bind]
      rw [guarded_issued, List.append_nil, List.nil_append, List.singleton_perm,
        eq_comm, guarded_recorded]
      constructor
      · rintro hreports _ ⟨⟩
        exact hreports
      · intro hreports
        exact hreports probe rfl

/-- The search goes on to the provider when no checkpoint is saved and attempts are left. -/
theorem disciplined_search_iff_takePermit :
    Disciplined answers (search functions self call now) ↔
      (answers .getCheckpoint = .ok none →
        ∀ attempts, answers .countAttempts = .ok attempts →
          attempts < serpProviderAttemptLimitPerCall →
            Disciplined answers (takePermit self call now >>= guarded now)) := by
  rw [search, (quiet_searchCall rfl).disciplined_bind_iff, outcome_perform]
  constructor
  · intro h hnone attempts hattempts hlt
    have hcount := h none hnone
    dsimp only at hcount
    rw [(quiet_searchCall rfl).disciplined_bind_iff, outcome_perform] at hcount
    have hgoes := hcount attempts hattempts
    rw [if_neg (Nat.not_le.2 hlt), ← bind_assoc,
      disciplined_bind_quiet_iff _ fun response => quiet_persist functions call now response]
      at hgoes
    exact hgoes
  · intro h saved hsaved
    cases saved with
    | some existing =>
        refine Quiet.disciplined ?_
        dsimp only
        have hrest : Quiet (validatedCheckpoint functions call existing >>= fun checkpoint =>
            ret (response checkpoint true)) :=
          OnlyCalls.bind (quiet_validatedCheckpoint functions call existing) fun _ => trivial
        split
        · exact OnlyCalls.bind (quiet_searchCall rfl) fun _ => hrest
        · exact hrest
    | none =>
        dsimp only
        rw [(quiet_searchCall rfl).disciplined_bind_iff, outcome_perform]
        intro attempts hattempts
        split
        · exact Quiet.disciplined trivial
        next hlt =>
          rw [← bind_assoc, disciplined_bind_quiet_iff _
            fun response => quiet_persist functions call now response]
          exact h hsaved attempts hattempts (Nat.not_le.1 hlt)

/-- The search of an operation. -/
theorem disciplined_search_iff :
    Disciplined answers (search functions self call now) ↔
      SettlesPermit self call now answers := by
  rw [disciplined_search_iff_takePermit]
  by_cases hbreaker : self.circuitBreaker = true
  · constructor
    · rintro h probe ⟨-, hnone, ⟨attempts, hattempts, hlt⟩, hprobe⟩
      exact (disciplined_takePermit_iff self call now answers hbreaker).1
        (h hnone attempts hattempts hlt) probe hprobe
    · intro h hnone attempts hattempts hlt
      refine (disciplined_takePermit_iff self call now answers hbreaker).2 ?_
      intro probe hprobe
      exact h probe ⟨hbreaker, hnone, ⟨attempts, hattempts, hlt⟩, hprobe⟩
  · constructor
    · rintro - probe ⟨hholds, -⟩
      exact absurd hholds hbreaker
    · intro _ _ _ _ _
      rw [takePermit, if_neg hbreaker]
      exact (quiet_guarded_none now).disciplined

end CheckpointedSerpProvider

section Loops

variable {Payload σ : Type} (functions : PayloadFunctions Payload)
  (callbacks : KeyCallbacks Payload σ) (now : SearchReadings) {P : SearchOp Payload → Prop}

/-- The loop over the keys makes the calls of `key_available`. -/
theorem onlyCalls_availableKeys
    (havailable : ∀ slot fingerprint state,
      (callbacks.keyAvailable slot fingerprint state).OnlyCalls P)
    (items : List KeySlot) (state : σ) :
    (availableKeys functions callbacks now items state).OnlyCalls P := by
  induction items generalizing state with
  | nil => trivial
  | cons item rest ih =>
      rw [availableKeys]
      split
      · exact OnlyCalls.bind (havailable _ _ _) fun checked =>
          OnlyCalls.bind (ih checked.2) fun _ => trivial
      · exact ih state

/-- The loop that tries the keys makes its requests and the calls of its callbacks. -/
theorem onlyCalls_tryKeys (hget : ∀ slot key, P (.get slot key))
    (hbefore : ∀ slot fingerprint, (callbacks.beforeAttempt slot fingerprint).OnlyCalls P)
    (hafter : ∀ slot fingerprint failureKind state,
      (callbacks.afterAttempt slot fingerprint failureKind state).OnlyCalls P)
    (items : List KeySlot) (attemptCount : Nat) (state : σ) :
    (tryKeys functions callbacks items attemptCount state).OnlyCalls P := by
  induction items generalizing attemptCount state with
  | nil => trivial
  | cons item rest ih =>
      refine OnlyCalls.bind (hbefore _ _) fun _ => ?_
      refine OnlyCalls.bind (OnlyCalls.attempt (onlyCalls_perform (hget _ _))) fun reply => ?_
      cases reply with
      | error error =>
          dsimp only
          split
          · exact OnlyCalls.bind (hafter _ _ _ _) fun _ => trivial
          · trivial
      | ok reply =>
          dsimp only
          split
          · exact OnlyCalls.bind (hafter _ _ _ _) fun _ => trivial
          split
          · exact OnlyCalls.bind (hafter _ _ _ _) fun state => ih _ state
          split
          · exact OnlyCalls.bind (hafter _ _ _ _) fun _ => trivial
          · exact OnlyCalls.bind (hafter _ _ _ _) fun _ => trivial

end Loops

namespace KeyPermits

/-- The fingerprints that hold a permit. -/
def fingerprints (permits : KeyPermits) : List String := permits.map Prod.fst

/-- A pop takes out what it returns. -/
theorem pop_length (permits : KeyPermits) (fingerprint : String) :
    (permits.pop fingerprint).1.toList.length + (permits.pop fingerprint).2.length =
      permits.length := by
  induction permits with
  | nil => rfl
  | cons entry rest ih =>
      obtain ⟨key, permit⟩ := entry
      simp only [pop] at ih ⊢
      by_cases h : key = fingerprint
      · simp [h, Nat.add_comm]
      · have hne : (fingerprint == key) = false := beq_false_of_ne fun heq => h heq.symm
        rw [List.lookup_cons, hne, List.eraseP_cons_of_neg (by simpa using h),
          List.length_cons, List.length_cons, ← ih, Nat.add_assoc]

theorem lookup_eraseP_of_ne {permits : KeyPermits} {fingerprint other : String}
    (hne : other ≠ fingerprint) :
    (permits.eraseP (·.1 == fingerprint)).lookup other = permits.lookup other := by
  induction permits with
  | nil => rfl
  | cons entry rest ih =>
      obtain ⟨key, permit⟩ := entry
      by_cases h : key = fingerprint
      · rw [List.eraseP_cons_of_pos (by simpa using h), List.lookup_cons, h,
          beq_false_of_ne hne]
      · rw [List.eraseP_cons_of_neg (by simpa using h), List.lookup_cons, List.lookup_cons,
          ih]

/-- A pop leaves the permits of other fingerprints. -/
theorem lookup_pop_of_ne {permits : KeyPermits} {fingerprint other : String}
    (hne : other ≠ fingerprint) :
    (permits.pop fingerprint).2.lookup other = permits.lookup other :=
  lookup_eraseP_of_ne hne

theorem lookup_put_self (permits : KeyPermits) (fingerprint : String)
    (permit : CircuitPermit) :
    (permits.put fingerprint permit).lookup fingerprint = some permit := by
  simp [put]

theorem lookup_put_of_ne {permits : KeyPermits} {fingerprint other : String}
    {permit : CircuitPermit} (hne : other ≠ fingerprint) :
    (permits.put fingerprint permit).lookup other = permits.lookup other := by
  rw [put, List.lookup_cons, beq_false_of_ne hne]
  exact lookup_eraseP_of_ne hne

theorem fingerprints_eraseP_subset (permits : KeyPermits) (fingerprint : String) :
    (permits.eraseP (·.1 == fingerprint)).map Prod.fst ⊆ permits.fingerprints :=
  (List.eraseP_sublist.map Prod.fst).subset

/-- A dictionary has each fingerprint once. -/
theorem fingerprints_put_nodup {permits : KeyPermits} (h : permits.fingerprints.Nodup)
    (fingerprint : String) (permit : CircuitPermit) :
    (permits.put fingerprint permit).fingerprints.Nodup := by
  refine List.nodup_cons.2 ⟨?_, h.sublist (List.eraseP_sublist.map Prod.fst)⟩
  induction permits with
  | nil => exact List.not_mem_nil
  | cons entry rest ih =>
      obtain ⟨hentry, hrest⟩ := List.nodup_cons.1 h
      by_cases heq : entry.1 = fingerprint
      · rw [List.eraseP_cons_of_pos (by simpa using heq)]
        rwa [← heq]
      · rw [List.eraseP_cons_of_neg (by simpa using heq)]
        intro hmem
        rcases List.mem_cons.1 hmem with hfirst | hlater
        · exact heq hfirst.symm
        · exact ih hrest hlater

end KeyPermits

namespace SerpApiSearchAdapter

variable {Payload : Type} (functions : PayloadFunctions Payload)
  (self : SerpApiSearchAdapter) (call : SerpPlannedCall) (now : SearchReadings)
  (answers : SearchAnswers Payload)

/-- The keys whose circuits let the call through, each with its permit, and whether the
breaker has answered for every key. -/
def grantedKeys : List KeySlot → List (KeySlot × CircuitPermit) × Bool
  | [] => ([], true)
  | item :: rest =>
      if now.blockedUntil item.1 ≤ now.monotonic then
        match answers (permitCall call now item.1 (functions.fingerprint item.2)) with
        | .ok probe =>
            ((item, permit call (functions.fingerprint item.2) probe) ::
              (grantedKeys rest).1, (grantedKeys rest).2)
        | .error .circuitOpen => grantedKeys rest
        | .error _ => ([], false)
      else grantedKeys rest

/-- What an attempt comes to: the report on its key, and whether the next key is tried.
A cancelled attempt has no report. -/
def verdict : Except ProviderException (HttpReply Payload) →
    Option (Option FailureKind × Bool)
  | .error error => if error.isException then some (some .transport, false) else none
  | .ok reply =>
      match reply.json with
      | none => some (some .invalidResponse, false)
      | some data =>
          match serpapiKeyFailureKind functions reply.status
            (functions.payloadError data) with
          | some failureKind => some (some failureKind, true)
          | none =>
              if 400 ≤ reply.status then some (some (.http reply.status), false)
              else some (none, false)

/-- Every key is tried and reported on: the attempt is claimed, it is not cancelled, its
report goes through, and unless the key is the last one its failure sends the call on
to the next. -/
def ReportsAll : List (KeySlot × CircuitPermit) → Prop
  | [] => True
  | (item, permit) :: rest =>
      answers (.beforeAttempt (item.1 + 1) (functions.fingerprint item.2)) = .ok () ∧
      ∃ failureKind goesOn,
        verdict functions (answers (.get item.1 item.2)) = some (failureKind, goesOn) ∧
        goesThrough answers
          (recordCall now (functions.fingerprint item.2) failureKind permit) = true ∧
        (rest = [] ∨ goesOn = true ∧
          answers (.afterAttempt (item.1 + 1) (functions.fingerprint item.2) failureKind) =
            .ok () ∧
          ReportsAll rest)

/-- The permits of the keys that are granted to a search. -/
def granted : List (KeySlot × CircuitPermit) × Bool :=
  grantedKeys functions call now answers
    (orderedKeys functions now.activeFingerprint (configuredSerpapiKeys self.keys))

/-- No key is granted; or the breaker has answered for every key, the granted ones have
different fingerprints, and each of them is tried and reported on. -/
def SettlesPermits : Prop :=
  self.circuitBreaker = true → answers .openClient = .ok () →
    (granted functions self call now answers).1 = [] ∨
      (granted functions self call now answers).2 = true ∧
      ((granted functions self call now answers).1.map
        fun g => functions.fingerprint g.1.2).Nodup ∧
      ReportsAll functions now answers (granted functions self call now answers).1

/-- The condition at an attempt that is claimed and ends with a report. -/
theorem reportsAll_cons_iff {item : KeySlot} {permit : CircuitPermit}
    {rest : List (KeySlot × CircuitPermit)} {failureKind : Option FailureKind} {goesOn : Bool}
    (hbefore : answers (.beforeAttempt (item.1 + 1) (functions.fingerprint item.2)) = .ok ())
    (hverdict : verdict functions (answers (.get item.1 item.2)) =
      some (failureKind, goesOn)) :
    ReportsAll functions now answers ((item, permit) :: rest) ↔
      goesThrough answers
        (recordCall now (functions.fingerprint item.2) failureKind permit) = true ∧
      (rest = [] ∨ goesOn = true ∧
        answers (.afterAttempt (item.1 + 1) (functions.fingerprint item.2) failureKind) =
          .ok () ∧
        ReportsAll functions now answers rest) := by
  rw [ReportsAll, hverdict]
  constructor
  · rintro ⟨-, _, _, ⟨⟩, h⟩
    exact h
  · intro h
    exact ⟨hbefore, failureKind, goesOn, rfl, h⟩

section Available

theorem keyAvailable_outcome (hbreaker : self.circuitBreaker = true) (slot : Nat)
    (fingerprint : String) (permits : KeyPermits) :
    ((callbacks self call now).keyAvailable slot fingerprint permits).outcome answers =
      match answers (permitCall call now slot fingerprint) with
      | .ok probe => .ok (true, permits.put fingerprint (permit call fingerprint probe))
      | .error .circuitOpen => .ok (false, permits)
      | .error error => .error error := by
  dsimp only [callbacks]
  rw [keyAvailable, if_pos hbreaker, outcome_bind, outcome_attempt, outcome_perform]
  dsimp only
  cases answers (permitCall call now slot fingerprint) with
  | ok probe => rfl
  | error error => cases error <;> rfl

theorem keyAvailable_collect (hbreaker : self.circuitBreaker = true)
    {β : Type} (pick : SearchOp Payload → Option β) (slot : Nat) (fingerprint : String)
    (permits : KeyPermits) :
    ((callbacks self call now).keyAvailable slot fingerprint permits).collect answers pick =
      (pick (permitCall call now slot fingerprint)).toList := by
  dsimp only [callbacks]
  rw [keyAvailable, if_pos hbreaker, collect_bind, outcome_attempt, outcome_perform,
    collect_attempt, collect_perform]
  refine (congrArg _ ?_).trans (List.append_nil _)
  dsimp only
  cases answers (permitCall call now slot fingerprint) with
  | ok probe => rfl
  | error error => cases error <;> rfl

theorem issuedPermit_permitCall (slot : Nat) (fingerprint : String) :
    issuedPermit answers (permitCall call now slot fingerprint) =
      match answers (permitCall call now slot fingerprint) with
      | .ok probe => some (permit call fingerprint probe)
      | .error _ => none := by
  simp only [permitCall, issuedPermit, permit]
  cases answers (.beforeCall (some slot) _ _ _) <;> rfl

/-- The loop over the keys obtains the permits of the granted ones. -/
theorem availableKeys_issued (hbreaker : self.circuitBreaker = true) (items : List KeySlot)
    (permits : KeyPermits) :
    (availableKeys functions (callbacks self call now) now items permits).collect answers
      (issuedPermit answers) = (grantedKeys functions call now answers items).1.map
        Prod.snd := by
  induction items generalizing permits with
  | nil => rfl
  | cons item rest ih =>
      rw [availableKeys, grantedKeys]
      split
      · rw [collect_bind, keyAvailable_collect self call now answers hbreaker,
          keyAvailable_outcome self call now answers hbreaker, issuedPermit_permitCall]
        cases answers (permitCall call now item.1 (functions.fingerprint item.2)) with
        | ok probe =>
            dsimp only
            rw [collect_bind_eq_left, ih]
            · rfl
            intro _
            trivial
        | error error =>
            cases error with
            | circuitOpen =>
                dsimp only
                rw [collect_bind_eq_left, ih]
                · rfl
                intro _
                trivial
            | _ => rfl
      · exact ih permits

/-- The loop over the keys records nothing. -/
theorem availableKeys_recorded (items : List KeySlot) (permits : KeyPermits) :
    (availableKeys functions (callbacks self call now) now items permits).collect answers
      (recordedPermit answers) = [] := by
  refine collect_eq_nil answers _ (onlyCalls_availableKeys functions _ now ?_ items permits)
  intro slot fingerprint permits
  dsimp only [callbacks, keyAvailable]
  split
  · refine OnlyCalls.bind (OnlyCalls.attempt (onlyCalls_perform ?_)) fun result => ?_
    · exact recordedPermit_of_reported_eq_none rfl
    split <;> trivial
  · trivial

/-- What the loop over the keys returns when the breaker has answered for every key. -/
theorem availableKeys_outcome (hbreaker : self.circuitBreaker = true) (items : List KeySlot)
    (permits : KeyPermits) :
    (availableKeys functions (callbacks self call now) now items permits).outcome answers =
        .ok ((grantedKeys functions call now answers items).1.map Prod.fst,
          (grantedKeys functions call now answers items).1.foldl
            (fun permits g => permits.put (functions.fingerprint g.1.2) g.2) permits) ∧
        (grantedKeys functions call now answers items).2 = true ∨
      (∃ error, (availableKeys functions (callbacks self call now) now items permits).outcome
        answers = .error error) ∧
        (grantedKeys functions call now answers items).2 = false := by
  induction items generalizing permits with
  | nil => exact .inl ⟨rfl, rfl⟩
  | cons item rest ih =>
      rw [availableKeys, grantedKeys]
      split
      · rw [outcome_bind, keyAvailable_outcome self call now answers hbreaker]
        cases answers (permitCall call now item.1 (functions.fingerprint item.2)) with
        | ok probe =>
            dsimp only
            rw [outcome_bind]
            rcases ih (permits.put (functions.fingerprint item.2)
              (permit call (functions.fingerprint item.2) probe)) with
              ⟨houtcome, hended⟩ | ⟨⟨error, houtcome⟩, hended⟩
            · rw [houtcome]
              exact .inl ⟨rfl, hended⟩
            · rw [houtcome]
              exact .inr ⟨⟨error, rfl⟩, hended⟩
        | error error =>
            cases error with
            | circuitOpen =>
                dsimp only
                rw [outcome_bind]
                rcases ih permits with ⟨houtcome, hended⟩ | ⟨⟨error, houtcome⟩, hended⟩
                · rw [houtcome]
                  exact .inl ⟨rfl, hended⟩
                · rw [houtcome]
                  exact .inr ⟨⟨error, rfl⟩, hended⟩
            | _ => exact .inr ⟨⟨_, rfl⟩, rfl⟩
      · exact ih permits

end Available

section Tried

/-- Reporting after an attempt. -/
theorem afterAttempt_recorded (hbreaker : self.circuitBreaker = true) (slot : Nat)
    (fingerprint : String) (failureKind : Option FailureKind) (permits : KeyPermits) :
    ((callbacks self call now).afterAttempt slot fingerprint failureKind permits).collect
        answers (recordedPermit answers) =
      ((permits.pop fingerprint).1.filter fun permit =>
        goesThrough answers (recordCall now fingerprint failureKind permit)).toList := by
  dsimp only [callbacks, handleAfterAttempt]
  rw [if_pos hbreaker, collect_bind_eq_left, record_recorded]
  · intro permit
    cases failureKind <;> rfl
  · intro _
    refine OnlyCalls.bind (onlyCalls_perform ?_) fun _ => trivial
    exact recordedPermit_of_reported_eq_none rfl

/-- What follows an attempt sees the dictionary without its key. -/
theorem eq_of_afterAttempt_outcome {slot : Nat} {fingerprint : String}
    {failureKind : Option FailureKind} {permits permits' : KeyPermits}
    (h : ((callbacks self call now).afterAttempt slot fingerprint failureKind
      permits).outcome answers = .ok permits') :
    permits' = (permits.pop fingerprint).2 := by
  dsimp only [callbacks, handleAfterAttempt] at h
  rw [outcome_bind] at h
  split at h
  · rw [outcome_bind] at h
    split at h
    · exact (Except.ok.inj h).symm
    · cases h
  · cases h

/-- It is reached if the report goes through and the callback returns. -/
theorem afterAttempt_outcome_of_reported (hbreaker : self.circuitBreaker = true)
    (slot : Nat) (fingerprint : String) (failureKind : Option FailureKind)
    (permits : KeyPermits)
    (hreported : ∀ permit, (permits.pop fingerprint).1 = some permit →
      goesThrough answers (recordCall now fingerprint failureKind permit) = true) :
    ((callbacks self call now).afterAttempt slot fingerprint failureKind permits).outcome
        answers =
      (answers (.afterAttempt slot fingerprint failureKind)).map
        fun _ => (permits.pop fingerprint).2 := by
  have hrecord : (record (permits.pop fingerprint).1
      (recordCall now fingerprint failureKind)).outcome answers = .ok () := by
    rw [record_outcome]
    cases hheld : (permits.pop fingerprint).1 with
    | none => rfl
    | some permit =>
        have hthrough := hreported permit hheld
        rw [goesThrough] at hthrough
        dsimp only
        cases h : answers (recordCall now fingerprint failureKind permit) with
        | ok value => rfl
        | error error =>
            rw [h] at hthrough
            cases hthrough
  dsimp only [callbacks, handleAfterAttempt]
  rw [if_pos hbreaker, outcome_bind, hrecord]
  dsimp only
  rw [outcome_bind, outcome_perform]
  cases answers (.afterAttempt slot fingerprint failureKind) <;> rfl

/-- A report that does not go through ends the search. -/
theorem afterAttempt_outcome_of_unreported (hbreaker : self.circuitBreaker = true)
    (slot : Nat) {fingerprint : String} {failureKind : Option FailureKind}
    {permits : KeyPermits} {permit : CircuitPermit}
    (hheld : (permits.pop fingerprint).1 = some permit)
    (hfails : goesThrough answers (recordCall now fingerprint failureKind permit) = false) :
    ∃ error, ((callbacks self call now).afterAttempt slot fingerprint failureKind
      permits).outcome answers = .error error := by
  dsimp only [callbacks, handleAfterAttempt]
  rw [if_pos hbreaker, outcome_bind, record_outcome, hheld]
  dsimp only
  rw [goesThrough] at hfails
  cases h : answers (recordCall now fingerprint failureKind permit) with
  | ok value =>
      rw [h] at hfails
      cases hfails
  | error error => exact ⟨error, rfl⟩

/-- The attempts obtain no permit. -/
theorem tryKeys_issued (items : List KeySlot) (attemptCount : Nat) (permits : KeyPermits) :
    (tryKeys functions (callbacks self call now) items attemptCount permits).collect answers
      (issuedPermit answers) = [] := by
  refine collect_eq_nil answers _
    (onlyCalls_tryKeys functions _ (fun _ _ => rfl) ?_ ?_ items attemptCount permits)
  · intro slot fingerprint
    exact onlyCalls_perform (S := searchSignature Payload) rfl
  intro slot fingerprint failureKind permits
  dsimp only [callbacks, handleAfterAttempt]
  refine OnlyCalls.bind ?_ fun _ => OnlyCalls.bind (onlyCalls_perform rfl) fun _ => trivial
  cases hheld : (if self.circuitBreaker then (permits.pop fingerprint).1 else none) with
  | none => trivial
  | some permit =>
      refine OnlyCalls.bind (onlyCalls_perform ?_) fun _ => trivial
      cases failureKind <;> rfl

/-- One turn of the loop that tries the keys. -/
theorem tryKeys_recorded_cons (item : KeySlot) (rest : List KeySlot) (attemptCount : Nat)
    (permits : KeyPermits) :
    (tryKeys functions (callbacks self call now) (item :: rest) attemptCount
        permits).collect answers (recordedPermit answers) =
      match answers (.beforeAttempt (item.1 + 1) (functions.fingerprint item.2)) with
      | .error _ => []
      | .ok _ =>
        match verdict functions (answers (.get item.1 item.2)) with
        | none => []
        | some (failureKind, goesOn) =>
          ((callbacks self call now).afterAttempt (item.1 + 1)
            (functions.fingerprint item.2) failureKind permits >>= fun permits =>
              if goesOn then
                tryKeys functions (callbacks self call now) rest (attemptCount + 1) permits
              else .raise .keysUnavailable).collect answers (recordedPermit answers) := by
  have hbefore : recordedPermit answers (.beforeAttempt (item.1 + 1)
      (functions.fingerprint item.2)) = none := recordedPermit_of_reported_eq_none rfl
  have hget : recordedPermit answers (.get item.1 item.2) = none :=
    recordedPermit_of_reported_eq_none rfl
  have hcall : (callbacks self call now).beforeAttempt (item.1 + 1)
      (functions.fingerprint item.2) =
        (searchCall (.beforeAttempt (item.1 + 1) (functions.fingerprint item.2)) :
          SearchProc Payload Unit) := rfl
  rw [tryKeys, hcall, collect_bind, collect_perform, outcome_perform, hbefore,
    Option.toList_none, List.nil_append]
  cases answers (.beforeAttempt (item.1 + 1) (functions.fingerprint item.2)) with
  | error error => rfl
  | ok claimed =>
      dsimp only
      rw [collect_bind, collect_attempt, collect_perform, outcome_attempt, outcome_perform,
        hget, Option.toList_none, List.nil_append]
      dsimp only
      cases answers (.get item.1 item.2) with
      | error error =>
          dsimp only [verdict]
          split
          · dsimp only
            rw [collect_bind, collect_bind]
            simp only [collect_raise, Bool.false_eq_true, if_false]
          · rfl
      | ok reply =>
          dsimp only [verdict]
          cases reply.json with
          | none =>
              dsimp only
              rw [collect_bind, collect_bind]
              simp only [collect_raise, Bool.false_eq_true, if_false]
          | some data =>
              dsimp only
              cases serpapiKeyFailureKind functions reply.status
                (functions.payloadError data) with
              | some failureKind =>
                  dsimp only
                  simp only [if_true]
              | none =>
                  dsimp only
                  split
                  · dsimp only
                    rw [collect_bind, collect_bind]
                    simp only [collect_raise, Bool.false_eq_true, if_false]
                  · dsimp only
                    rw [collect_bind, collect_bind]
                    simp only [pure_eq_ret, collect_ret, collect_raise, Bool.false_eq_true,
                      if_false]

/-- Each record takes a permit out of the dictionary. -/
theorem tryKeys_recorded_length (hbreaker : self.circuitBreaker = true)
    (items : List KeySlot) (attemptCount : Nat) (permits : KeyPermits) :
    ((tryKeys functions (callbacks self call now) items attemptCount permits).collect answers
      (recordedPermit answers)).length ≤ permits.length := by
  induction items generalizing attemptCount permits with
  | nil => exact Nat.zero_le _
  | cons item rest ih =>
      rw [tryKeys_recorded_cons]
      cases answers (.beforeAttempt (item.1 + 1) (functions.fingerprint item.2)) with
      | error error => exact Nat.zero_le _
      | ok claimed =>
          cases verdict functions (answers (.get item.1 item.2)) with
          | none => exact Nat.zero_le _
          | some ending =>
              obtain ⟨failureKind, goesOn⟩ := ending
              have hpop := permits.pop_length (functions.fingerprint item.2)
              have hafter : (((permits.pop (functions.fingerprint item.2)).1.filter fun permit =>
                  goesThrough answers (recordCall now (functions.fingerprint item.2) failureKind
                    permit)).toList).length ≤
                    (permits.pop (functions.fingerprint item.2)).1.toList.length := by
                cases (permits.pop (functions.fingerprint item.2)).1 with
                | none => exact Nat.le_refl _
                | some permit =>
                    rw [Option.filter_some]
                    split
                    · exact Nat.le_refl _
                    · exact Nat.zero_le _
              dsimp only
              rw [collect_bind, afterAttempt_recorded _ _ _ _ hbreaker, List.length_append]
              split
              next permits' houtcome =>
                rw [eq_of_afterAttempt_outcome self call now answers houtcome]
                cases goesOn with
                | false =>
                    simp only [Bool.false_eq_true, if_false, collect_raise, List.length_nil]
                    omega
                | true =>
                    have hrest := ih (attemptCount + 1)
                      (permits.pop (functions.fingerprint item.2)).2
                    simp only [if_true]
                    omega
              · rw [List.length_nil]
                omega

/-- With a permit for each of the keys, and no two of one fingerprint, the permits are
recorded exactly when every key is tried and reported on. -/
theorem tryKeys_recorded_perm_iff (hbreaker : self.circuitBreaker = true)
    (keys : List (KeySlot × CircuitPermit)) (attemptCount : Nat) (permits : KeyPermits)
    (hnodup : (keys.map fun g => functions.fingerprint g.1.2).Nodup)
    (hholds : ∀ g ∈ keys, permits.lookup (functions.fingerprint g.1.2) = some g.2) :
    (keys.map Prod.snd).Perm ((tryKeys functions (callbacks self call now)
        (keys.map Prod.fst) attemptCount permits).collect answers (recordedPermit answers)) ↔
      ReportsAll functions now answers keys := by
  induction keys generalizing attemptCount permits with
  | nil =>
      constructor
      · intro _
        trivial
      · intro _
        exact List.Perm.refl []
  | cons g rest ih =>
      obtain ⟨item, permit⟩ := g
      obtain ⟨hnew, hrestnodup⟩ := List.nodup_cons.1 hnodup
      have hheld : (permits.pop (functions.fingerprint item.2)).1 = some permit :=
        hholds (item, permit) List.mem_cons_self
      have hrestholds : ∀ g ∈ rest, (permits.pop (functions.fingerprint item.2)).2.lookup
          (functions.fingerprint g.1.2) = some g.2 := by
        intro g hg
        rw [KeyPermits.lookup_pop_of_ne]
        · exact hholds g (List.mem_cons_of_mem _ hg)
        · intro heq
          exact hnew (List.mem_map.2 ⟨g, hg, heq⟩)
      have hnone : ¬ (permit :: rest.map Prod.snd).Perm [] :=
        fun hperm => List.cons_ne_nil _ _ (List.perm_nil.1 hperm)
      have hone : (permit :: rest.map Prod.snd).Perm [permit] ↔ rest = [] := by
        rw [List.perm_cons, List.perm_nil, List.map_eq_nil_iff]
      rw [List.map_cons, List.map_cons, tryKeys_recorded_cons]
      cases hbefore : answers (.beforeAttempt (item.1 + 1) (functions.fingerprint item.2)) with
      | error error =>
          refine iff_of_false hnone ?_
          rintro ⟨hok, -⟩
          cases hbefore.symm.trans hok
      | ok claimed =>
          cases hverdict : verdict functions (answers (.get item.1 item.2)) with
          | none =>
              refine iff_of_false hnone ?_
              rintro ⟨-, failureKind, goesOn, hsome, -⟩
              cases hverdict.symm.trans hsome
          | some ending =>
              obtain ⟨failureKind, goesOn⟩ := ending
              rw [reportsAll_cons_iff functions now answers hbefore hverdict]
              dsimp only
              by_cases hthrough : goesThrough answers
                (recordCall now (functions.fingerprint item.2) failureKind permit) = true
              · have houtcome := afterAttempt_outcome_of_reported self call now answers hbreaker
                  (item.1 + 1) (functions.fingerprint item.2) failureKind permits fun held h =>
                    Option.some.inj (hheld.symm.trans h) ▸ hthrough
                cases hafter : answers (.afterAttempt (item.1 + 1)
                  (functions.fingerprint item.2) failureKind) with
                | error error =>
                    rw [hafter] at houtcome
                    rw [collect_bind_of_error answers _ houtcome,
                      afterAttempt_recorded _ _ _ _ hbreaker, hheld, Option.filter_some,
                      if_pos hthrough, Option.toList_some, hone]
                    simp only [hthrough, true_and, reduceCtorEq, false_and, and_false, or_false]
                | ok returned =>
                    rw [hafter] at houtcome
                    rw [collect_bind_of_ok answers _ houtcome,
                      afterAttempt_recorded _ _ _ _ hbreaker, hheld, Option.filter_some,
                      if_pos hthrough, Option.toList_some]
                    cases goesOn with
                    | false =>
                        simp only [Bool.false_eq_true, if_false, collect_raise, List.append_nil,
                          hone, hthrough, true_and, false_and, or_false]
                    | true =>
                        rw [if_pos rfl, List.singleton_append, List.perm_cons,
                          ih _ _ hrestnodup hrestholds]
                        constructor
                        · intro hrest
                          exact ⟨hthrough, .inr ⟨rfl, rfl, hrest⟩⟩
                        · rintro ⟨-, hlast | ⟨-, -, hrest⟩⟩
                          · rw [hlast]
                            trivial
                          · exact hrest
              · obtain ⟨error, houtcome⟩ := afterAttempt_outcome_of_unreported self call now
                  answers hbreaker (item.1 + 1) hheld (Bool.eq_false_iff.2 hthrough)
                rw [collect_bind_of_error answers _ houtcome,
                  afterAttempt_recorded _ _ _ _ hbreaker, hheld, Option.filter_some,
                  if_neg hthrough, Option.toList_none]
                exact iff_of_false hnone fun h => hthrough h.1

end Tried

section Dictionary

/-- The dictionary that the loop over the keys leaves. -/
def collected (keys : List (KeySlot × CircuitPermit)) (permits : KeyPermits) : KeyPermits :=
  keys.foldl (fun permits g => permits.put (functions.fingerprint g.1.2) g.2) permits

theorem fingerprints_collected_nodup (keys : List (KeySlot × CircuitPermit))
    {permits : KeyPermits} (h : permits.fingerprints.Nodup) :
    (collected functions keys permits).fingerprints.Nodup := by
  induction keys generalizing permits with
  | nil => exact h
  | cons g rest ih => exact ih (KeyPermits.fingerprints_put_nodup h _ _)

theorem fingerprints_collected_subset (keys : List (KeySlot × CircuitPermit))
    (permits : KeyPermits) :
    (collected functions keys permits).fingerprints ⊆
      keys.map (fun g => functions.fingerprint g.1.2) ++ permits.fingerprints := by
  induction keys generalizing permits with
  | nil => exact List.Subset.refl _
  | cons g rest ih =>
      intro fingerprint hmem
      rcases List.mem_append.1 (ih _ hmem) with hrest | hput
      · exact List.mem_append_left _ (List.mem_cons_of_mem _ hrest)
      · rcases List.mem_cons.1 hput with heq | hold
        · exact heq ▸ List.mem_append_left _ List.mem_cons_self
        · exact List.mem_append_right _
            (KeyPermits.fingerprints_eraseP_subset permits _ hold)

/-- Two keys of one fingerprint leave one permit between them. -/
theorem nodup_of_length_le_collected {keys : List (KeySlot × CircuitPermit)}
    (h : keys.length ≤ (collected functions keys []).length) :
    (keys.map fun g => functions.fingerprint g.1.2).Nodup := by
  have hnodup : (collected functions keys []).fingerprints.Nodup :=
    fingerprints_collected_nodup functions keys List.nodup_nil
  have hsubset : (collected functions keys []).fingerprints ⊆
      keys.map fun g => functions.fingerprint g.1.2 := by
    have happend := fingerprints_collected_subset functions keys []
    rwa [show KeyPermits.fingerprints [] = [] from rfl, List.append_nil] at happend
  have hperm := (hnodup.subperm hsubset).perm_of_length_le 
    (by rwa [KeyPermits.fingerprints, List.length_map, List.length_map])
  exact hperm.nodup_iff.1 hnodup

theorem lookup_collected_of_notMem {keys : List (KeySlot × CircuitPermit)}
    {permits : KeyPermits} {fingerprint : String}
    (hnew : fingerprint ∉ keys.map fun g => functions.fingerprint g.1.2) :
    (collected functions keys permits).lookup fingerprint = permits.lookup fingerprint := by
  induction keys generalizing permits with
  | nil => rfl
  | cons g rest ih =>
      obtain ⟨hne, hrest⟩ := not_or.1 (mt List.mem_cons.2 hnew)
      exact (ih hrest).trans (KeyPermits.lookup_put_of_ne hne)

/-- Keys of different fingerprints all find their permits. -/
theorem lookup_collected {keys : List (KeySlot × CircuitPermit)} {permits : KeyPermits}
    (hnodup : (keys.map fun g => functions.fingerprint g.1.2).Nodup)
    {g : KeySlot × CircuitPermit} (hg : g ∈ keys) :
    (collected functions keys permits).lookup (functions.fingerprint g.1.2) = some g.2 := by
  induction keys generalizing permits with
  | nil => cases hg
  | cons g' rest ih =>
      obtain ⟨hnew, hrest⟩ := List.nodup_cons.1 hnodup
      rcases List.mem_cons.1 hg with rfl | hg
      · exact (lookup_collected_of_notMem functions hnew).trans
          (KeyPermits.lookup_put_self _ _ _)
      · exact ih hrest hg

end Dictionary

/-- Inside the client, the discipline is that no key is granted or all are reported on. -/
theorem disciplined_executeSerpapiGet_iff (hbreaker : self.circuitBreaker = true) :
    Disciplined answers (executeSerpapiGet functions (callbacks self call now) now self.keys
        []) ↔
      ((granted functions self call now answers).1 = [] ∨
        (granted functions self call now answers).2 = true ∧
        ((granted functions self call now answers).1.map
          fun g => functions.fingerprint g.1.2).Nodup ∧
        ReportsAll functions now answers (granted functions self call now answers).1) := by
  rw [executeSerpapiGet, granted]
  dsimp only
  split
  next hnone =>
    rw [hnone]
    exact iff_of_true (Quiet.disciplined trivial) (.inl rfl)
  generalize orderedKeys functions now.activeFingerprint (configuredSerpapiKeys self.keys) =
    items
  rw [Disciplined, collect_bind, collect_bind,
    availableKeys_issued functions self call now answers hbreaker, availableKeys_recorded,
    List.nil_append]
  rcases availableKeys_outcome functions self call now answers hbreaker items [] with
    ⟨houtcome, hended⟩ | ⟨⟨error, houtcome⟩, hended⟩
  · rw [houtcome, hended]
    generalize (grantedKeys functions call now answers items).1 = keys
    change (keys.map Prod.snd ++ ((if keys.map Prod.fst = [] then .raise .keysUnavailable
      else tryKeys functions (callbacks self call now) (keys.map Prod.fst) 0
        (collected functions keys [])) : SearchProc Payload _).collect answers
          (issuedPermit answers)).Perm (((if keys.map Prod.fst = [] then .raise .keysUnavailable
      else tryKeys functions (callbacks self call now) (keys.map Prod.fst) 0
        (collected functions keys [])) : SearchProc Payload _).collect answers
          (recordedPermit answers)) ↔ _
    by_cases hkeys : keys = []
    · subst hkeys
      exact iff_of_true (List.Perm.refl []) (.inl rfl)
    rw [if_neg (mt List.map_eq_nil_iff.1 hkeys), tryKeys_issued, List.append_nil]
    by_cases hnodup : (keys.map fun g => functions.fingerprint g.1.2).Nodup
    · rw [tryKeys_recorded_perm_iff functions self call now answers hbreaker keys 0 _ hnodup
        fun g hg => lookup_collected functions hnodup hg]
      simp only [hkeys, hnodup, true_and, false_or]
    · refine iff_of_false ?_ ?_
      · intro hperm
        refine hnodup (nodup_of_length_le_collected functions ?_)
        have hlength := tryKeys_recorded_length functions self call now answers hbreaker
          (keys.map Prod.fst) 0 (collected functions keys [])
        rwa [← hperm.length_eq, List.length_map] at hlength
      · rintro (hnone | ⟨-, hdistinct, -⟩)
        · exact hkeys hnone
        · exact hnodup hdistinct
  · rw [houtcome, hended, List.append_nil]
    simp only [Bool.false_eq_true, false_and, or_false, List.perm_nil, List.map_eq_nil_iff]

/-- Without a breaker the search has nothing to do with permits. -/
theorem quiet_executeSerpapiGet (hbreaker : ¬ self.circuitBreaker = true) :
    Quiet (executeSerpapiGet functions (callbacks self call now) now self.keys []) := by
  rw [executeSerpapiGet]
  dsimp only
  split
  · trivial
  refine OnlyCalls.bind (onlyCalls_availableKeys functions _ now ?_ _ _) fun checked => ?_
  · intro slot fingerprint permits
    dsimp only [callbacks, keyAvailable]
    rw [if_neg hbreaker]
    trivial
  split
  · trivial
  refine onlyCalls_tryKeys functions _ (fun _ _ => rfl) (fun _ _ => quiet_searchCall rfl) ?_ _ _ _
  intro slot fingerprint failureKind permits
  dsimp only [callbacks, handleAfterAttempt]
  rw [if_neg hbreaker]
  exact OnlyCalls.bind trivial fun _ => OnlyCalls.bind (quiet_searchCall rfl) fun _ => trivial

/-- Opening and closing the client takes and records nothing. -/
theorem disciplined_withClient_iff :
    Disciplined answers (withClient functions self call now) ↔
      (answers .openClient = .ok () → Disciplined answers
        (executeSerpapiGet functions (callbacks self call now) now self.keys [])) := by
  rw [withClient, (quiet_searchCall rfl).disciplined_bind_iff, outcome_perform]
  have hclose : Disciplined answers
      ((executeSerpapiGet functions (callbacks self call now) now self.keys []).ensuring
        (searchCall .closeClient)) ↔ Disciplined answers
          (executeSerpapiGet functions (callbacks self call now) now self.keys []) := by
    rw [Disciplined, collect_ensuring, collect_ensuring,
      (quiet_searchCall rfl).issued, (quiet_searchCall rfl).recorded, List.append_nil,
      List.append_nil, Disciplined]
  constructor
  · intro h hopen
    exact hclose.1 (h () hopen)
  · intro h opened hopen
    exact hclose.2 (h hopen)

/-- The search over the keys. -/
theorem disciplined_search_iff :
    Disciplined answers (search functions self call now) ↔
      SettlesPermits functions self call now answers := by
  rw [search]
  split
  next hnone =>
    refine iff_of_true (Quiet.disciplined trivial) fun _ _ => .inl ?_
    rw [granted, hnone]
    rfl
  have htranslate : Disciplined answers ((withClient functions self call now).handle
      fun error => .raise (translate error)) ↔
        Disciplined answers (withClient functions self call now) := by
    rw [Disciplined, collect_handle_of_calls_eq_nil _ _ _ fun _ => rfl,
      collect_handle_of_calls_eq_nil _ _ _ fun _ => rfl, Disciplined]
  rw [disciplined_bind_quiet_iff, htranslate, disciplined_withClient_iff]
  swap
  · intro result
    trivial
  by_cases hbreaker : self.circuitBreaker = true
  · rw [disciplined_executeSerpapiGet_iff functions self call now answers hbreaker]
    constructor
    · intro h _
      exact h
    · intro h
      exact h hbreaker
  · refine iff_of_true (fun _ => ?_) fun hholds => absurd hholds hbreaker
    exact (quiet_executeSerpapiGet functions self call now hbreaker).disciplined

end SerpApiSearchAdapter

/-- Every permit is recorded exactly once before its search ends, for the operation when
the provider answers or fails with a `SerpMarketProviderError`, and for the keys when
every granted key is tried and reported on. -/
theorem permits_recorded_iff_settled {Payload : Type} [DecidableEq Payload]
    (functions : PayloadFunctions Payload) (call : SerpPlannedCall) (now : SearchReadings)
    (answers : SearchAnswers Payload) :
    (∀ provider : CheckpointedSerpProvider,
      Disciplined answers (provider.search functions call now) ↔
        provider.SettlesPermit call now answers) ∧
    (∀ adapter : SerpApiSearchAdapter,
      Disciplined answers (adapter.search functions call now) ↔
        adapter.SettlesPermits functions call now answers) :=
  ⟨fun provider => provider.disciplined_search_iff functions call now answers,
    fun adapter => adapter.disciplined_search_iff functions call now answers⟩

section Sample

def sampleFunctions : PayloadFunctions Unit where
  sanitize payload _ := payload
  requestDigest _ := 0
  size _ := 2
  payloadError _ := none
  normalizeMessage _ := ""
  fingerprint key := key

def sampleReadings : SearchReadings where
  startedAt := 0
  checkedAt _ := 0
  failedAt _ := 0
  completedAt := 1
  activeFingerprint := ""
  monotonic := 0
  blockedUntil _ := 0

/-- Every circuit is half open, the provider answers the first key, and the attempts
of the operation have run out meanwhile. -/
def halfOpenAnswers : SearchAnswers Unit
  | .getCheckpoint | .readBackCheckpoint => .ok none
  | .recordCheckpointHit => .ok ()
  | .countAttempts | .recountAttempts => .ok 0
  | .delegateSearch => .error .attemptsExhausted
  | .saveCheckpoint _ => .ok true
  | .beforeCall _ _ _ _ => .ok true
  | .recordSuccess _ => .ok ()
  | .recordFailure _ _ _ _ _ => .ok false
  | .openClient | .closeClient => .ok ()
  | .beforeAttempt _ _ => .ok ()
  | .get _ _ => .ok ⟨some (), 200⟩
  | .afterAttempt _ _ _ => .ok ()

/-- The probe of the operation is left claimed when the attempts run out, and that of
the second key when the first one answers. -/
theorem probes_left_claimed :
    ¬ Disciplined halfOpenAnswers
      ((⟨true, false⟩ : CheckpointedSerpProvider).search sampleFunctions ⟨0, "google"⟩
        sampleReadings) ∧
    ¬ Disciplined halfOpenAnswers
      ((⟨["first", "second"], true⟩ : SerpApiSearchAdapter).search sampleFunctions
        ⟨0, "google"⟩ sampleReadings) := by
  refine ⟨?_, ?_⟩
  · decide
  · decide

end Sample

end SearchTrust.Providers
