/-
The life of a circuit: it trips once, a failed probe reopens it, a successful
probe closes it.  A call that was permitted while the circuit was closed may
report after the circuit has opened; what its record then does to the episode is
set apart from what the life of a circuit allows.
-/
import SearchTrust.Providers.HalfOpen

namespace SearchTrust.Providers

open SearchTrust.Interleave SearchTrust.Redis SearchTrust.Jobs

/-- The changes of a circuit that a record may make; `none` is a closed circuit.
`probe` tells whether the record is that of a probe permit. -/
inductive Lifecycle (probe : Bool) : Option OpenCircuit → Option OpenCircuit → Prop
  | stays (state) : Lifecycle probe state state
  | trips (openUntil) : Lifecycle probe none (some ⟨1, openUntil⟩)
  | probeFails (openCount openUntil openUntil') (h : probe = true) :
      Lifecycle probe (some ⟨openCount, openUntil⟩) (some ⟨openCount + 1, openUntil'⟩)
  | probeSucceeds (state) (h : probe = true) : Lifecycle probe (some state) none

/-- What a read of the circuit key has found. -/
def foundCircuit (circuit : String) :
    (op : CircuitOp) → Except ProviderException op.Value → Option (Option OpenCircuit)
  | .getCircuit c, .ok state => if c = circuit then some state else none
  | _, _ => none

/-- The call opens the circuit, until the key expires at the given time. -/
def opensCircuit (circuit : String) (r : CircuitKeyspace) :
    (op : CircuitOp) → Except ProviderException op.Value → Option Nat
  | .setCircuit c _ lifetime, .ok _ =>
      if c = circuit then some (r.deadline lifetime) else none
  | _, _ => none

namespace CircuitEvent

variable {ι : Type}

def found (circuit : String) (e : CircuitEvent ι) : Option (Option OpenCircuit) :=
  foundCircuit circuit e.op e.result

def opens (circuit : String) (e : CircuitEvent ι) : Option Nat :=
  opensCircuit circuit e.before e.op e.result

end CircuitEvent

variable {ι : Type} [DecidableEq ι]

/-- The calls are those of a client with a probe permit. -/
def probed (circuit : String) (own : List (CircuitEvent ι)) : Bool :=
  own.any fun e => (CircuitEvent.issues circuit e).isSome

/-- The calls have found the circuit closed. -/
def foundClosed (circuit : String) (own : List (CircuitEvent ι)) : Bool :=
  own.any fun e => decide (CircuitEvent.found circuit e = some none)

/-- What the latest read of the circuit has found. -/
def lastFound (circuit : String) (own : List (CircuitEvent ι)) :
    Option (Option OpenCircuit) :=
  own.findSome? (CircuitEvent.found circuit)

/-- The latest opening of the circuit since client `i` has found it closed, given as
the time at which its key expires; a later closing cancels it. -/
def openedSince (circuit : String) : List (CircuitEvent ι) → ι → Option Nat
  | [], _ => none
  | e :: earlier, i =>
      match CircuitEvent.opens circuit e with
      | some expiry => some expiry
      | none =>
          if CircuitEvent.writes circuit e then none
          else if e.actor = i ∧ CircuitEvent.found circuit e = some none then none
          else openedSince circuit earlier i

/-- An ordinary call writes the circuit only while no opening that came after its
permit is in force. -/
def RecordsInEpisode (circuit : String) : CallCondition circuitSignature
    ProviderException CircuitKeyspace ι := fun c e =>
  CircuitEvent.writes circuit e = true →
    probed circuit (ownCalls c.history e.actor) = false →
    ∀ expiry, openedSince circuit c.history e.actor = some expiry →
      expiry ≤ c.state.clock

/-- A record opens the circuit only while it is as that record has read it. -/
def OpensAsRead (circuit : String) : CallCondition circuitSignature
    ProviderException CircuitKeyspace ι := fun c e =>
  (CircuitEvent.opens circuit e).isSome → ∀ found,
    lastFound circuit (ownCalls c.history e.actor) = some found →
    c.state.getCircuit circuit = found

def InOrder (circuit : String) : CallCondition circuitSignature
    ProviderException CircuitKeyspace ι := fun c e =>
  RecordsInEpisode circuit c e ∧ OpensAsRead circuit c e

section Effects

variable {circuit : String} {op : CircuitOp} {r r' : CircuitKeyspace}
  {result : Except ProviderException op.Value}

/-- Everything a call can do to one circuit key. -/
theorem performs_circuits (h : circuitMachine.Performs op r result r') :
    (∃ state lifetime, op = .setCircuit circuit state lifetime ∧
        writesCircuit circuit op result = true ∧
        opensCircuit circuit r op result = some (r.deadline lifetime) ∧
        r.clock < r.deadline lifetime ∧
        r'.circuits circuit = some ⟨state, r.deadline lifetime⟩) ∨
      (writesCircuit circuit op result = true ∧
        opensCircuit circuit r op result = none ∧ r'.circuits circuit = none) ∨
      (writesCircuit circuit op result = false ∧
        opensCircuit circuit r op result = none ∧
        r'.circuits circuit = r.circuits circuit) := by
  obtain ⟨answer, h⟩ := h
  cases answer with
  | interrupt reason =>
      simp only [circuitMachine] at h
      split at h
      · cases h
      · obtain ⟨rfl, rfl⟩ := Prod.mk.inj (Option.some.inj h)
        refine Or.inr (Or.inr ⟨?_, ?_, rfl⟩)
        · cases op <;> rfl
        · cases op <;> rfl
  | proceed now token outcome =>
      have h : CircuitOp.exec now token outcome op r = (result, r') := Option.some.inj h
      cases op with
      | setCircuit c state lifetime =>
          simp only [CircuitOp.exec] at h
          by_cases hzero : lifetime = 0
          · rw [if_pos hzero] at h
            obtain ⟨rfl, rfl⟩ := Prod.mk.inj h
            exact Or.inr (Or.inr ⟨rfl, rfl, rfl⟩)
          · rw [if_neg hzero] at h
            obtain ⟨rfl, rfl⟩ := Prod.mk.inj h
            by_cases hc : c = circuit
            · subst hc
              refine Or.inl ⟨state, lifetime, rfl, ?_, ?_, ?_, ?_⟩
              · simp [writesCircuit]
              · simp [opensCircuit]
              · simp only [CircuitKeyspace.deadline]
                omega
              · simp [CircuitKeyspace.setCircuit]
            · refine Or.inr (Or.inr ⟨?_, ?_, ?_⟩)
              · simp [writesCircuit, hc]
              · simp [opensCircuit, hc]
              · simp [CircuitKeyspace.setCircuit, Table.set_of_ne _ (Ne.symm hc)]
      | deleteCircuit c =>
          obtain ⟨rfl, rfl⟩ := Prod.mk.inj h
          by_cases hc : c = circuit
          · subst hc
            exact Or.inr (Or.inl ⟨by simp [writesCircuit], rfl, by
              simp [CircuitKeyspace.deleteCircuit, Table.delete]⟩)
          · exact Or.inr (Or.inr ⟨by simp [writesCircuit, hc], rfl, by
              simp [CircuitKeyspace.deleteCircuit, Table.delete, Ne.symm hc]⟩)
      | claimProbe c probeToken lifetime =>
          simp only [CircuitOp.exec] at h
          split at h
          · obtain ⟨rfl, rfl⟩ := Prod.mk.inj h
            exact Or.inr (Or.inr ⟨rfl, rfl, rfl⟩)
          · obtain ⟨rfl, rfl⟩ := Prod.mk.inj h
            refine Or.inr (Or.inr ⟨rfl, rfl, ?_⟩)
            simp only [CircuitKeyspace.claimProbe]
            split <;> rfl
      | _ =>
          obtain ⟨rfl, rfl⟩ := Prod.mk.inj h
          exact Or.inr (Or.inr ⟨rfl, rfl, rfl⟩)

/-- A read of the circuit key finds the circuit as it is. -/
theorem getCircuit_of_found (h : circuitMachine.Performs op r result r')
    {found : Option OpenCircuit} (hfound : foundCircuit circuit op result = some found) :
    r.getCircuit circuit = found := by
  obtain ⟨answer, h⟩ := h
  cases answer with
  | interrupt reason =>
      simp only [circuitMachine] at h
      split at h
      · cases h
      · obtain ⟨rfl, rfl⟩ := Prod.mk.inj (Option.some.inj h)
        cases op <;> cases hfound
  | proceed now token outcome =>
      have h : CircuitOp.exec now token outcome op r = (result, r') := Option.some.inj h
      cases op with
      | getCircuit c =>
          obtain ⟨rfl, rfl⟩ := Prod.mk.inj h
          simp only [foundCircuit] at hfound
          split at hfound
          next hc =>
            subst hc
            exact Option.some.inj hfound
          next => cases hfound
      | _ => cases result <;> cases hfound

end Effects

/-- An open circuit has been opened since any client has found it closed. -/
structure EpisodeInv (circuit : String) (c : CircuitConfig ι) : Prop where
  fresh : ∀ entry, c.state.circuits circuit = some entry →
    c.state.clock < entry.expiresAt
  since : ∀ i, foundClosed circuit (ownCalls c.history i) = true →
    ∀ entry, c.state.circuits circuit = some entry →
      openedSince circuit c.history i = some entry.expiresAt

section Steps

variable {circuit : String} {c : CircuitConfig ι} {e : CircuitEvent ι}
  {rest : CircuitProc Unit}

theorem EpisodeInv.step (hinv : EpisodeInv circuit c) (hbefore : e.before = c.state)
    (hperforms : circuitMachine.Performs e.op c.state e.result e.after) :
    EpisodeInv circuit (c.perform e rest) := by
  have hclock := (@performs_probes circuit _ _ _ _ hperforms).1
  rcases @performs_circuits circuit _ _ _ _ hperforms with
    ⟨state, lifetime, _, _, hopens, hfuture, hafter⟩ | ⟨_, _, hafter⟩ |
    ⟨hwrites, hopens, hafter⟩
  · rw [← hbefore] at hopens
    refine ⟨?_, ?_⟩
    · intro entry hentry
      rw [Config.perform_state, hafter, Option.some.injEq] at hentry
      subst hentry
      rw [Config.perform_state, hclock]
      exact hfuture
    · intro i _ entry hentry
      rw [Config.perform_state, hafter, Option.some.injEq] at hentry
      subst hentry
      have hopens : CircuitEvent.opens circuit e = some (c.state.deadline lifetime) := by
        rw [← hbefore]
        exact hopens
      simp [openedSince, hopens]
  · refine ⟨?_, ?_⟩
    · intro entry hentry
      rw [Config.perform_state, hafter] at hentry
      cases hentry
    · intro i _ entry hentry
      rw [Config.perform_state, hafter] at hentry
      cases hentry
  · have hopens : CircuitEvent.opens circuit e = none := by
      rw [← hbefore] at hopens
      exact hopens
    have hwrites : CircuitEvent.writes circuit e = false := hwrites
    refine ⟨?_, ?_⟩
    · intro entry hentry
      rw [Config.perform_state, hafter] at hentry
      rw [Config.perform_state, hclock]
      exact hinv.fresh entry hentry
    · intro i hclosed entry hentry
      rw [Config.perform_state, hafter] at hentry
      rw [Config.perform_history] at hclosed ⊢
      -- A read that finds the circuit closed is not made while it is open.
      have hopen : CircuitEvent.found circuit e ≠ some none := by
        intro hfound
        have hkey := getCircuit_of_found hperforms hfound
        simp [CircuitKeyspace.getCircuit, Table.get, hentry] at hkey
      have hearlier : foundClosed circuit (ownCalls c.history i) = true := by
        by_cases hi : e.actor = i
        · subst hi
          rw [ownCalls_cons_self] at hclosed
          simpa [foundClosed, hopen] using hclosed
        · rwa [ownCalls_cons_of_ne hi] at hclosed
      have hstep : openedSince circuit (e :: c.history) i =
          openedSince circuit c.history i := by
        simp [openedSince, hopens, hwrites, hopen]
      rw [hstep]
      exact hinv.since i hearlier entry hentry

theorem EpisodeInv.tick (hinv : EpisodeInv circuit c) (milliseconds : Nat) :
    EpisodeInv circuit (c.drifted (c.state.tick milliseconds)) := by
  have hpurge : ∀ entry, (c.state.tick milliseconds).circuits circuit = some entry →
      c.state.circuits circuit = some entry ∧
        c.state.clock + milliseconds < entry.expiresAt := by
    intro entry hentry
    exact (Table.purge_eq_some_iff _ _ _ _).1 hentry
  refine ⟨?_, ?_⟩
  · intro entry hentry
    exact (hpurge entry hentry).2
  · intro i hclosed entry hentry
    exact hinv.since i hclosed entry (hpurge entry hentry).1

end Steps

/-- What the record of a client rests on: its permit is that of a probe, or it has
found the circuit closed; and an opening counts on from what it has read. -/
def Backed (own : List (CircuitEvent ι)) (op : CircuitOp)
    (result : Except ProviderException op.Value) : Prop :=
  ∀ circuit, writesCircuit circuit op result = true →
    (probed circuit own = true ∨ foundClosed circuit own = true) ∧
      ∀ state lifetime, op = .setCircuit circuit state lifetime →
        ∃ found, lastFound circuit own = some found ∧
          state.openCount = (found.map OpenCircuit.openCount).getD 0 + 1

/-- The discipline of the clients, for one circuit. -/
def episodeDiscipline (ι : Type) [DecidableEq ι] (circuit : String) :
    Discipline circuitSignature ProviderException CircuitKeyspace ι where
  inv := EpisodeInv circuit
  cond := InOrder circuit
  goal := fun c e => Backed (ownCalls c.history e.actor) e.op e.result

theorem episodeDiscipline_kept (circuit : String) :
    (episodeDiscipline ι circuit).Kept circuitMachine where
  act := fun hinv hen _ => EpisodeInv.step hinv hen.before hen.performs
  drift := by
    rintro c after hinv ⟨milliseconds, hafter⟩
    obtain rfl := Option.some.inj hafter
    exact EpisodeInv.tick hinv milliseconds
  crash := fun _ hinv => ⟨hinv.fresh, hinv.since⟩

/-- The call records an outcome at a circuit key. -/
def CircuitOp.records : CircuitOp → Bool
  | setCircuit _ _ _ | deleteCircuit _ => true
  | _ => false

/-- What a client knows of its own permit. -/
def Admitted (permit : CircuitPermit) (own : List (CircuitEvent ι)) : Prop :=
  (permit.probe = true → probed permit.circuit own = true) ∧
    (permit.probe = false → foundClosed permit.circuit own = true)

omit [DecidableEq ι] in
theorem backed_of_not_records {own : List (CircuitEvent ι)} {op : CircuitOp}
    {result : Except ProviderException op.Value} (h : op.records = false) :
    Backed own op result := by
  intro circuit hwrites
  cases op with
  | setCircuit c state lifetime => cases h
  | deleteCircuit c => cases h
  | _ => cases hwrites

omit [DecidableEq ι] in
theorem Admitted.backed {permit : CircuitPermit} {own : List (CircuitEvent ι)}
    (h : Admitted permit own) :
    probed permit.circuit own = true ∨ foundClosed permit.circuit own = true := by
  cases hprobe : permit.probe with
  | true => exact Or.inl (h.1 hprobe)
  | false => exact Or.inr (h.2 hprobe)

omit [DecidableEq ι] in
theorem Admitted.cons {permit : CircuitPermit} {own : List (CircuitEvent ι)}
    (h : Admitted permit own) (e : CircuitEvent ι) : Admitted permit (e :: own) := by
  refine ⟨fun hprobe => ?_, fun hprobe => ?_⟩
  · have := h.1 hprobe
    simp only [probed, List.any_cons, Bool.or_eq_true] at this ⊢
    exact Or.inr this
  · have := h.2 hprobe
    simp only [foundClosed, List.any_cons, Bool.or_eq_true] at this ⊢
    exact Or.inr this

omit [DecidableEq ι] in
theorem lastFound_of_found {circuit : String} {e : CircuitEvent ι}
    {own : List (CircuitEvent ι)} {found : Option OpenCircuit}
    (h : CircuitEvent.found circuit e = some found) :
    lastFound circuit (e :: own) = some found := by
  rw [lastFound, List.findSome?_cons, h]

section Clients

variable {circuit : String} {i : ι} {breaker : RedisCircuitBreaker}
  {permit : CircuitPermit} {P : List (CircuitEvent ι) → Prop}

/-- A call that records nothing, under an assertion that own calls do not break. -/
theorem safe_keeping {op : CircuitOp} (hop : op.records = false)
    (hP : ∀ own e, P own → P (e :: own)) :
    Safe circuitMachine (episodeDiscipline ι circuit) i (circuitCall op)
      (fun c => P (ownCalls c.history i)) fun _ c => P (ownCalls c.history i) :=
  Safe.perform_own (R := fun _ own => P own)
    (fun _ _ _ _ _ => backed_of_not_records hop) fun _ _ _ own h => hP own _ h

theorem safe_of_not_records {α : Type} {p : CircuitProc α} {A : CircuitConfig ι → Prop}
    (hp : p.OnlyCalls fun op : CircuitOp => op.records = false) :
    Safe circuitMachine (episodeDiscipline ι circuit) i p A fun _ _ => True :=
  Safe.of_calls hp fun _ _ _ _ hop _ _ _ => backed_of_not_records hop

/-- `before_call`: a probe permit comes with a claim, an ordinary one from a closed
circuit. -/
theorem safe_beforeCall (provider operation : String) (now : Instant) :
    Safe circuitMachine (episodeDiscipline ι circuit) i
      (breaker.beforeCall provider operation now) (fun _ => True)
      (Outcome (fun permit c => Admitted permit (ownCalls c.history i))
        fun _ _ => True) := by
  have hread : Safe circuitMachine (episodeDiscipline ι circuit) i
      (circuitCall (.getCircuit (circuitName provider operation))) (fun _ => True)
      (Outcome (fun found c => found = none →
        foundClosed (circuitName provider operation) (ownCalls c.history i) = true)
        fun _ _ => True) := by
    refine (Safe.perform_own (P := fun _ => True) (R := fun result own =>
      result = .ok none → foundClosed (circuitName provider operation) own = true)
      (fun _ _ _ _ _ => backed_of_not_records rfl) ?_).weaken ?_
    · rintro result before after earlier _ rfl
      simp [foundClosed, CircuitEvent.found, foundCircuit]
    · intro outcome c _ h
      cases outcome with
      | ok found => exact fun hnone => h (congrArg _ hnone)
      | error error => trivial
  have hclaim : ∀ token, Safe circuitMachine (episodeDiscipline ι circuit) i
      (circuitCall (.claimProbe (circuitName provider operation) token
        breaker.probeSeconds)) (fun _ => True)
      (Outcome (fun claimed c => claimed = true →
        probed (circuitName provider operation) (ownCalls c.history i) = true)
        fun _ _ => True) := by
    intro token
    refine (Safe.perform_own (P := fun _ => True) (R := fun result own =>
      result = .ok true → probed (circuitName provider operation) own = true)
      (fun _ _ _ _ _ => backed_of_not_records rfl) ?_).weaken ?_
    · rintro result before after earlier _ rfl
      simp [probed, CircuitEvent.issues, claimsProbe]
    · intro outcome c _ h
      cases outcome with
      | ok claimed => exact fun htrue => h (congrArg _ htrue)
      | error error => trivial
  refine Safe.bind hread fun found => ?_
  cases found with
  | none => exact Safe.ret fun c _ h => ⟨fun hprobe => absurd hprobe Bool.false_ne_true,
      fun _ => h rfl⟩
  | some state =>
      by_cases hopen : now < state.openUntil
      · simp only [hopen, ↓reduceIte]
        exact Safe.raise fun _ _ _ => trivial
      · simp only [hopen, ↓reduceIte]
        refine Safe.bind (B := fun _ _ => True) ?_ fun token => ?_
        · exact (safe_keeping (P := fun _ => True) rfl fun _ _ _ => trivial).onValue
            |>.strengthen fun _ _ _ => trivial
        · refine Safe.bind (hclaim token) fun claimed => ?_
          cases claimed with
          | true => exact Safe.ret fun c _ h => ⟨fun _ => h rfl,
              fun hprobe => absurd hprobe.symm Bool.false_ne_true⟩
          | false => exact Safe.raise fun _ _ _ => trivial

theorem safe_recordSuccess :
    Safe circuitMachine (episodeDiscipline ι circuit) i
      (RedisCircuitBreaker.recordSuccess permit)
      (fun c => Admitted permit (ownCalls c.history i)) fun _ _ => True := by
  refine (Safe.perform_own (P := Admitted permit) (R := fun _ _ => True) ?_
    fun _ _ _ _ _ => trivial).weaken fun _ _ _ _ => trivial
  intro c result after hadmitted _ circuit' hwrites
  refine ⟨?_, by rintro state lifetime ⟨⟩⟩
  have hcircuit : permit.circuit = circuit' := by
    cases result with
    | ok value => exact of_decide_eq_true hwrites
    | error error => cases hwrites
  exact hcircuit ▸ hadmitted.backed

/-- What `record_failure` knows when it has read the circuit. -/
def HasRead (permit : CircuitPermit) (current : Option OpenCircuit)
    (own : List (CircuitEvent ι)) : Prop :=
  Admitted permit own ∧ lastFound permit.circuit own = some current

/-- The same of the outcome of its read. -/
def ReadBack (permit : CircuitPermit) :
    Except ProviderException (Option OpenCircuit) → List (CircuitEvent ι) → Prop
  | .ok current, own => HasRead permit current own
  | .error _, _ => True

/-- The read of `record_failure`. -/
theorem safe_readCircuit :
    Safe circuitMachine (episodeDiscipline ι circuit) i
      (circuitCall (.getCircuit permit.circuit))
      (fun c => Admitted permit (ownCalls c.history i))
      (Outcome (fun current c => HasRead permit current (ownCalls c.history i))
        fun _ _ => True) := by
  have hcall : Safe circuitMachine (episodeDiscipline ι circuit) i
      (circuitCall (.getCircuit permit.circuit))
      (fun c => Admitted permit (ownCalls c.history i))
      fun result c => ReadBack permit result (ownCalls c.history i) := by
    refine @Safe.perform_own circuitSignature _ _ _ _ circuitMachine _ i
      (.getCircuit permit.circuit) (Admitted permit) (ReadBack permit) ?_ ?_
    · intro c result after _ _
      exact backed_of_not_records rfl
    intro result before after earlier hadmitted
    cases result with
    | ok current =>
        exact ⟨hadmitted.cons _, lastFound_of_found (if_pos rfl)⟩
    | error error => trivial
  refine hcall.weaken fun outcome c _ h => ?_
  cases outcome with
  | ok current => exact h
  | error error => trivial

/-- The opening of `record_failure`. -/
theorem safe_openCircuit {current : Option OpenCircuit} (openUntil : Instant)
    (lifetime : Nat) :
    Safe circuitMachine (episodeDiscipline ι circuit) i
      (circuitCall (.setCircuit permit.circuit
        ⟨(current.map OpenCircuit.openCount).getD 0 + 1, openUntil⟩ lifetime))
      (fun c => HasRead permit current (ownCalls c.history i)) fun _ _ => True := by
  refine (Safe.perform_own (P := HasRead permit current) (R := fun _ _ => True) ?_
    fun _ _ _ _ _ => trivial).weaken fun _ _ _ _ => trivial
  intro c result after hread _ circuit' hwrites
  have hcircuit : permit.circuit = circuit' := by
    cases result with
    | ok value => exact of_decide_eq_true hwrites
    | error error => cases hwrites
  subst hcircuit
  refine ⟨hread.1.backed, ?_⟩
  rintro state lifetime' ⟨⟩
  exact ⟨current, hread.2, rfl⟩

theorem safe_recordFailure (now : Instant) (eligible immediate : Bool)
    (failureThreshold : Option Nat) :
    Safe circuitMachine (episodeDiscipline ι circuit) i
      (breaker.recordFailure permit now eligible immediate failureThreshold)
      (fun c => Admitted permit (ownCalls c.history i)) fun _ _ => True := by
  have hkeep : ∀ {op : CircuitOp}, op.records = false →
      Safe circuitMachine (episodeDiscipline ι circuit) i (circuitCall op)
        (fun c => Admitted permit (ownCalls c.history i))
        (Outcome (fun _ c => Admitted permit (ownCalls c.history i)) fun _ _ => True) :=
    fun hop => (safe_keeping hop fun _ e h => h.cons e).onValue
  unfold RedisCircuitBreaker.recordFailure
  cases eligible with
  | false =>
      refine safe_of_not_records ?_
      cases permit.probe with
      | true => exact Program.OnlyCalls.bind (Program.onlyCalls_perform rfl) fun _ => trivial
      | false => trivial
  | true =>
      refine Safe.bind (hkeep rfl) fun token => Safe.bind (hkeep rfl) fun _ => ?_
      refine Safe.bind (hkeep rfl) fun count => ?_
      refine Safe.bind safe_readCircuit fun current => ?_
      dsimp only
      split
      next =>
        refine Safe.andThen (safe_openCircuit _ _) fun _ => ?_
        exact safe_of_not_records
          (Program.OnlyCalls.bind (Program.onlyCalls_perform rfl) fun _ => trivial)
      next => exact Safe.done

/-- Every client of the breaker records what its own permit and reads back. -/
theorem safe_guardedCall (provider operation : String) :
    Safe circuitMachine (episodeDiscipline ι circuit) i
      (breaker.guardedCall provider operation) (fun _ => True) fun _ _ => True := by
  refine Safe.andThen (safe_of_not_records (Program.onlyCalls_perform rfl))
    fun started => ?_
  refine Safe.bind (safe_beforeCall provider operation started) fun permit => ?_
  refine Safe.bind (B := fun _ c => Admitted permit (ownCalls c.history i))
    (safe_keeping (P := Admitted permit) rfl fun _ e h => h.cons e).onValue
    fun outcome => ?_
  cases outcome with
  | success => exact safe_recordSuccess
  | failure eligible immediate failureThreshold =>
      refine Safe.bind (B := fun _ c => Admitted permit (ownCalls c.history i))
        (safe_keeping (P := Admitted permit) rfl fun _ e h => h.cons e).onValue
        fun now => ?_
      exact (safe_recordFailure now eligible immediate failureThreshold).andThen
        fun _ => Safe.done
  | abandoned => exact Safe.done

end Clients

section Runs

variable {circuit : String} {c : CircuitConfig ι} {e : CircuitEvent ι}
  {rest : CircuitProc Unit}

theorem episodeInv_start (circuit : String) (pool : ι → CircuitProc Unit) :
    EpisodeInv circuit (start CircuitKeyspace.initial pool) where
  fresh := fun _ h => by cases h
  since := fun _ _ _ h => by cases h

/-- A record that meets the conditions changes the circuit as its life allows. -/
theorem EpisodeInv.lifecycle (hinv : EpisodeInv circuit c) (hbefore : e.before = c.state)
    (hperforms : circuitMachine.Performs e.op c.state e.result e.after)
    (hcond : InOrder circuit c e)
    (hbacked : Backed (ownCalls c.history e.actor) e.op e.result) :
    Lifecycle (probed circuit (ownCalls c.history e.actor))
      (c.state.getCircuit circuit) (e.after.getCircuit circuit) := by
  -- An ordinary call does not write the circuit while it is open.
  have hprobe : CircuitEvent.writes circuit e = true →
      ∀ entry, c.state.circuits circuit = some entry →
        probed circuit (ownCalls c.history e.actor) = true := by
    intro hwrites entry hentry
    rcases (hbacked circuit hwrites).1 with hprobe | hclosed
    · exact hprobe
    · by_contra hordinary
      have hsince := hinv.since e.actor hclosed entry hentry
      have hover := hcond.1 hwrites (by simpa using hordinary) _ hsince
      have hfresh := hinv.fresh entry hentry
      omega
  rcases @performs_circuits circuit _ _ _ _ hperforms with
    ⟨state, lifetime, hop, hwrites, hopens, _, hafter⟩ | ⟨hwrites, _, hafter⟩ |
    ⟨_, _, hafter⟩
  · have hopens : CircuitEvent.opens circuit e = some (c.state.deadline lifetime) := by
      rw [← hbefore] at hopens ⊢
      exact hopens
    obtain ⟨found, hfound, hcount⟩ := (hbacked circuit hwrites).2 state lifetime hop
    have hread := hcond.2 (by rw [hopens]; rfl) found hfound
    have hset : e.after.getCircuit circuit = some state := by
      simp [CircuitKeyspace.getCircuit, Table.get, hafter]
    obtain ⟨openCount, openUntil⟩ := state
    rw [hset]
    cases hkey : c.state.circuits circuit with
    | none =>
        have hnone : c.state.getCircuit circuit = none := by
          simp [CircuitKeyspace.getCircuit, Table.get, hkey]
        rw [hnone] at hread ⊢
        subst hread
        obtain rfl : openCount = 1 := hcount
        exact .trips openUntil
    | some entry =>
        have hsome : c.state.getCircuit circuit = some entry.value := by
          simp [CircuitKeyspace.getCircuit, Table.get, hkey]
        rw [hsome] at hread ⊢
        subst hread
        obtain rfl : openCount = entry.value.openCount + 1 := hcount
        exact .probeFails _ _ _ (hprobe hwrites entry hkey)
  · have hdeleted : e.after.getCircuit circuit = none := by
      simp [CircuitKeyspace.getCircuit, Table.get, hafter]
    rw [hdeleted]
    cases hkey : c.state.circuits circuit with
    | none =>
        have hnone : c.state.getCircuit circuit = none := by
          simp [CircuitKeyspace.getCircuit, Table.get, hkey]
        rw [hnone]
        exact .stays none
    | some entry =>
        have hsome : c.state.getCircuit circuit = some entry.value := by
          simp [CircuitKeyspace.getCircuit, Table.get, hkey]
        rw [hsome]
        exact .probeSucceeds _ (hprobe hwrites entry hkey)
  · have hsame : e.after.getCircuit circuit = c.state.getCircuit circuit := by
      simp [CircuitKeyspace.getCircuit, Table.get, hafter]
    rw [hsame]
    exact .stays _

/-- The life of a circuit.  In a run whose records are in order every call changes the
circuit as its life allows: it trips with count one, only a failed probe reopens it,
counting on by one, and only a successful probe closes it.  Otherwise it can only
expire. -/
theorem circuit_lives_in_episodes (breaker : RedisCircuitBreaker)
    (provider operation : ι → String) (circuit : String)
    (hrun : Run circuitMachine (InOrder circuit)
      (start CircuitKeyspace.initial fun i =>
        breaker.guardedCall (provider i) (operation i)) c) :
    (∀ e rest, Enabled circuitMachine (InOrder circuit) c e rest →
      Lifecycle (probed circuit (ownCalls c.history e.actor))
        (c.state.getCircuit circuit) (e.after.getCircuit circuit)) ∧
      ∀ after, circuitMachine.Drifts c.state after →
        after.getCircuit circuit = c.state.getCircuit circuit ∨
          after.getCircuit circuit = none := by
  have hsafe : ∀ i, SafeAt circuitMachine (episodeDiscipline ι circuit)
      (start CircuitKeyspace.initial fun i =>
        breaker.guardedCall (provider i) (operation i)) i := fun i =>
    SafeAt.of_safe (.const True) trivial (safe_guardedCall (provider i) (operation i))
  refine ⟨fun e rest hen => ?_, ?_⟩
  · obtain ⟨hinv, hall⟩ := (episodeDiscipline ι circuit).sound
      (episodeDiscipline_kept circuit) (episodeInv_start circuit _) hsafe hrun
    have hbacked := (SafeAt.call (episodeDiscipline_kept circuit) hinv (hall e.actor)
      hen).1
    exact EpisodeInv.lifecycle hinv hen.before hen.performs hen.meets hbacked
  · rintro after ⟨milliseconds, hafter⟩
    obtain rfl := Option.some.inj hafter
    exact (Table.get_purge c.state.circuits _ circuit).symm

end Runs

section Sample

/-- No opening since the permit, and the circuit as it was read. -/
def orderly (c : CircuitConfig Nat) (e : CircuitEvent Nat) : Bool :=
  (!CircuitEvent.writes sampleCircuit e ||
      (openedSince sampleCircuit c.history e.actor).isNone ||
      probed sampleCircuit (ownCalls c.history e.actor)) &&
    (!(CircuitEvent.opens sampleCircuit e).isSome ||
      decide (lastFound sampleCircuit (ownCalls c.history e.actor) =
        some (c.state.getCircuit sampleCircuit)))

theorem inOrder_of_orderly (c : CircuitConfig Nat) (e : CircuitEvent Nat)
    (h : orderly c e = true) : InOrder sampleCircuit c e := by
  simp only [orderly, Bool.and_eq_true, Bool.or_eq_true, Bool.not_eq_true',
    Option.isNone_iff_eq_none, decide_eq_true_eq] at h
  refine ⟨?_, ?_⟩
  · intro hwrites hordinary expiry hsince
    rcases h.1 with (hquiet | hnone) | hprobe
    · rw [hquiet] at hwrites
      cases hwrites
    · rw [hnone] at hsince
      cases hsince
    · rw [hprobe] at hordinary
      cases hordinary
  · intro hopens found hfound
    rcases h.2 with hquiet | hread
    · rw [hquiet] at hopens
      cases hopens
    · exact Option.some.inj (hread.symm.trans hfound)

/-- The probe has been answered, and its success is about to be recorded. -/
theorem answered_played :
    (play orderly (probingMoves ++ [.act 1 (answerAt 61 .success)])
      (start CircuitKeyspace.initial sampleClients)).isSome = true := by
  decide

def answered : CircuitConfig Nat :=
  (play orderly (probingMoves ++ [.act 1 (answerAt 61 .success)])
    (start CircuitKeyspace.initial sampleClients)).get answered_played

theorem probe_closes_circuit :
    ∃ (e : CircuitEvent Nat) (rest : CircuitProc Unit),
      Enabled circuitMachine (InOrder sampleCircuit) answered e rest ∧
      (answered.state.getCircuit sampleCircuit).isSome ∧
      e.after.getCircuit sampleCircuit = none ∧
      Lifecycle (probed sampleCircuit (ownCalls answered.history e.actor))
        (answered.state.getCircuit sampleCircuit) (e.after.getCircuit sampleCircuit) := by
  have hrun : Run circuitMachine (InOrder sampleCircuit)
      (start CircuitKeyspace.initial sampleClients) answered :=
    play_run inOrder_of_orderly (Option.some_get answered_played).symm
  have hplay : (nextCall circuitMachine orderly answered 1
      (answerAt 61 .success)).any (fun p =>
        (answered.state.getCircuit sampleCircuit).isSome &&
          (p.1.after.getCircuit sampleCircuit).isNone) = true := by
    decide
  obtain ⟨e, rest, hen, htest⟩ := exists_enabled_of_nextCall inOrder_of_orderly hplay
  simp only [Bool.and_eq_true, Option.isNone_iff_eq_none] at htest
  exact ⟨e, rest, hen, htest.1, htest.2, (circuit_lives_in_episodes sampleBreaker
    (fun _ => "serpapi") (fun _ => "search") sampleCircuit hrun).1 e rest hen⟩

/-- The third client is admitted before the first one opens the circuit. -/
def lateMoves (outcome : CallOutcome) : List (Move circuitMachine Nat) :=
  List.replicate 2 (.act 2 (answerAt 0 outcome)) ++ openingMoves

/-- A call that changes an open circuit with an ordinary permit. -/
def ordinaryChange (c : CircuitConfig Nat) (e : CircuitEvent Nat) : Bool :=
  !probed sampleCircuit (ownCalls c.history e.actor) &&
    (c.state.getCircuit sampleCircuit).isSome &&
    decide (c.state.getCircuit sampleCircuit ≠ e.after.getCircuit sampleCircuit)

theorem not_lifecycle_of_ordinaryChange {c : CircuitConfig Nat} {e : CircuitEvent Nat}
    (h : ordinaryChange c e = true) :
    ¬ Lifecycle (probed sampleCircuit (ownCalls c.history e.actor))
      (c.state.getCircuit sampleCircuit) (e.after.getCircuit sampleCircuit) := by
  simp only [ordinaryChange, Bool.and_eq_true, Bool.not_eq_true', decide_eq_true_eq] at h
  obtain ⟨⟨hordinary, hopen⟩, hchanges⟩ := h
  rw [hordinary]
  intro hlife
  generalize c.state.getCircuit sampleCircuit = before at *
  generalize e.after.getCircuit sampleCircuit = after at *
  cases hlife with
  | stays => exact hchanges rfl
  | trips openUntil => cases hopen
  | probeFails openCount openUntil openUntil' hprobe => cases hprobe
  | probeSucceeds state hprobe => cases hprobe

/-- A call that was admitted while the circuit was closed reports after it has opened:
its success closes the circuit, and its failure opens it once more. -/
theorem late_records_change_the_episode :
    (∃ (c : CircuitConfig Nat) (e : CircuitEvent Nat) (rest : CircuitProc Unit),
      Run circuitMachine Anything (start CircuitKeyspace.initial sampleClients) c ∧
      Enabled circuitMachine Anything c e rest ∧
      e.after.getCircuit sampleCircuit = none ∧
      ¬ Lifecycle (probed sampleCircuit (ownCalls c.history e.actor))
        (c.state.getCircuit sampleCircuit) (e.after.getCircuit sampleCircuit)) ∧
    ∃ (c : CircuitConfig Nat) (e : CircuitEvent Nat) (rest : CircuitProc Unit),
      Run circuitMachine Anything (start CircuitKeyspace.initial sampleClients) c ∧
      Enabled circuitMachine Anything c e rest ∧
      e.after.getCircuit sampleCircuit = some ⟨2, seconds 121⟩ ∧
      ¬ Lifecycle (probed sampleCircuit (ownCalls c.history e.actor))
        (c.state.getCircuit sampleCircuit) (e.after.getCircuit sampleCircuit) := by
  refine ⟨?_, ?_⟩
  · have hplay : (play (M := circuitMachine) (fun _ _ => true)
        (lateMoves .success ++ [.act 2 (answerAt 1 .success)])
        (start CircuitKeyspace.initial sampleClients)).any (fun c =>
          (nextCall circuitMachine (fun _ _ => true) c 2 (answerAt 1 .success)).any
            fun p => ordinaryChange c p.1 &&
              (p.1.after.getCircuit sampleCircuit).isNone) = true := by
      decide
    obtain ⟨c, hrun, hnext⟩ := exists_run_of_play (fun _ _ _ => trivial) hplay
    obtain ⟨e, rest, hen, htest⟩ := exists_call_of_nextCall hnext
    simp only [Bool.and_eq_true, Option.isNone_iff_eq_none] at htest
    exact ⟨c, e, rest, hrun, hen, htest.2, not_lifecycle_of_ordinaryChange htest.1⟩
  · have hplay : (play (M := circuitMachine) (fun _ _ => true)
        (lateMoves (.failure true false none) ++
          List.replicate 6 (.act 2 (answerAt 1 (.failure true false none))))
        (start CircuitKeyspace.initial sampleClients)).any (fun c =>
          (nextCall circuitMachine (fun _ _ => true) c 2
            (answerAt 1 (.failure true false none))).any
            fun p => ordinaryChange c p.1 && decide (p.1.after.getCircuit sampleCircuit =
              some ⟨2, seconds 121⟩)) = true := by
      decide
    obtain ⟨c, hrun, hnext⟩ := exists_run_of_play (fun _ _ _ => trivial) hplay
    obtain ⟨e, rest, hen, htest⟩ := exists_call_of_nextCall hnext
    simp only [Bool.and_eq_true, decide_eq_true_eq] at htest
    exact ⟨c, e, rest, hrun, hen, htest.2, not_lifecycle_of_ordinaryChange htest.1⟩

end Sample

end SearchTrust.Providers
