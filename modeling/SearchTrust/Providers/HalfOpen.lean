/-
Half-open probing.  A probe permit is outstanding from the call that claims the
probe key to the call that gives it up; the key itself lives no longer than its
time to live, and whoever records an outcome deletes it.
-/
import SearchTrust.Providers.Circuit

namespace SearchTrust.Providers

open SearchTrust.Interleave SearchTrust.Redis SearchTrust.Jobs

/-- One atomic call of a client. -/
abbrev CircuitEvent (ι : Type) :=
  Event circuitSignature ProviderException CircuitKeyspace ι

abbrev CircuitConfig (ι : Type) :=
  Config circuitSignature ProviderException CircuitKeyspace ι

/-- The call writes the circuit key, so that another episode begins. -/
def writesCircuit (circuit : String) :
    (op : CircuitOp) → Except ProviderException op.Value → Bool
  | .setCircuit c _ _, .ok _ | .deleteCircuit c, .ok _ => decide (c = circuit)
  | _, _ => false

/-- The call deletes the probe key, whoever has claimed it. -/
def clearsProbe (circuit : String) :
    (op : CircuitOp) → Except ProviderException op.Value → Bool
  | .deleteProbe c, .ok _ | .deleteCircuit c, .ok _ => decide (c = circuit)
  | _, _ => false

/-- The call claims the probe key, until the given time. -/
def claimsProbe (circuit : String) (r : CircuitKeyspace) :
    (op : CircuitOp) → Except ProviderException op.Value → Option Nat
  | .claimProbe c _ seconds, .ok true =>
      if c = circuit then some (r.deadline seconds) else none
  | _, _ => none

namespace CircuitEvent

variable {ι : Type}

def writes (circuit : String) (e : CircuitEvent ι) : Bool :=
  writesCircuit circuit e.op e.result

def clears (circuit : String) (e : CircuitEvent ι) : Bool :=
  clearsProbe circuit e.op e.result

/-- The call issues a probe permit, whose claim lasts until the given time. -/
def issues (circuit : String) (e : CircuitEvent ι) : Option Nat :=
  claimsProbe circuit e.before e.op e.result

end CircuitEvent

variable {ι : Type} [DecidableEq ι]

/-- The probe permit that a client holds and has not recorded, given as the time
at which its claim runs out. -/
def outstandingProbe (circuit : String) : List (CircuitEvent ι) → ι → Option Nat
  | [], _ => none
  | e :: earlier, i =>
      if e.actor = i then
        match CircuitEvent.issues circuit e with
        | some expiry => some expiry
        | none =>
            if CircuitEvent.clears circuit e then none
            else outstandingProbe circuit earlier i
      else outstandingProbe circuit earlier i

/-- The client was issued a probe permit in the current episode: since the
circuit was last opened or closed. -/
def issuedThisEpisode (circuit : String) : List (CircuitEvent ι) → ι → Bool
  | [], _ => false
  | e :: earlier, i =>
      if CircuitEvent.writes circuit e then false
      else
        (decide (e.actor = i) && (CircuitEvent.issues circuit e).isSome) ||
          issuedThisEpisode circuit earlier i

/-- The client that has claimed the probe key last. -/
def claimant (circuit : String) : List (CircuitEvent ι) → Option ι
  | [] => none
  | e :: earlier =>
      if (CircuitEvent.issues circuit e).isSome then some e.actor
      else claimant circuit earlier

/-- At most one probe permit of the current episode is outstanding. -/
def SingleProbe (circuit : String) (c : CircuitConfig ι) : Prop :=
  ∀ i j, issuedThisEpisode circuit c.history i → issuedThisEpisode circuit c.history j →
    (outstandingProbe circuit c.history i).isSome →
    (outstandingProbe circuit c.history j).isSome → i = j

/-- The call removes no probe claim but that of its own client. -/
def LeavesOtherClaims (circuit : String) : CallCondition circuitSignature
    ProviderException CircuitKeyspace ι := fun c e =>
  CircuitEvent.clears circuit e = true → (c.state.probes circuit).isSome →
    claimant circuit c.history = some e.actor

/-- A probe is claimed only while no outstanding probe of another client in the
same episode has outlived its time to live. -/
def ProbesInTime (circuit : String) : CallCondition circuitSignature
    ProviderException CircuitKeyspace ι := fun c e =>
  (CircuitEvent.issues circuit e).isSome → ∀ j expiry, j ≠ e.actor →
    outstandingProbe circuit c.history j = some expiry →
    issuedThisEpisode circuit c.history j = true → c.state.clock < expiry

/-- An outcome whose record deletes the probe key is recorded only while no other
client is in the middle of a probe whose time to live is still running. -/
def RecordsApart (circuit : String) : CallCondition circuitSignature
    ProviderException CircuitKeyspace ι := fun c e =>
  CircuitEvent.clears circuit e = true → ∀ j expiry, j ≠ e.actor →
    outstandingProbe circuit c.history j = some expiry → expiry ≤ c.state.clock

def Unhurried (circuit : String) : CallCondition circuitSignature
    ProviderException CircuitKeyspace ι := fun c e =>
  ProbesInTime circuit c e ∧ RecordsApart circuit c e

section Effects

variable {circuit : String} {op : CircuitOp} {r r' : CircuitKeyspace}
  {result : Except ProviderException op.Value}

/-- Everything a call can do to one probe key. -/
theorem performs_probes (h : circuitMachine.Performs op r result r') :
    r'.clock = r.clock ∧
    ((∃ expiry, claimsProbe circuit r op result = some expiry ∧
        clearsProbe circuit op result = false ∧ r.clock < expiry ∧
        r.probes circuit = none ∧
        (r'.probes circuit).map Entry.expiresAt = some expiry) ∨
      (claimsProbe circuit r op result = none ∧
        clearsProbe circuit op result = true ∧ r'.probes circuit = none) ∨
      (claimsProbe circuit r op result = none ∧
        clearsProbe circuit op result = false ∧
        r'.probes circuit = r.probes circuit)) := by
  obtain ⟨answer, h⟩ := h
  cases answer with
  | interrupt reason =>
      simp only [circuitMachine] at h
      split at h
      · cases h
      · obtain ⟨rfl, rfl⟩ := Prod.mk.inj (Option.some.inj h)
        refine ⟨rfl, Or.inr (Or.inr ⟨?_, ?_, rfl⟩)⟩
        · cases op <;> rfl
        · cases op <;> rfl
  | proceed now token outcome =>
      have h : CircuitOp.exec now token outcome op r = (result, r') := Option.some.inj h
      cases op with
      | claimProbe c probeToken lifetime =>
          simp only [CircuitOp.exec] at h
          by_cases hzero : lifetime = 0
          · rw [if_pos hzero] at h
            obtain ⟨rfl, rfl⟩ := Prod.mk.inj h
            exact ⟨rfl, Or.inr (Or.inr ⟨rfl, rfl, rfl⟩)⟩
          rw [if_neg hzero] at h
          cases hkey : r.probes c with
          | some entry =>
              have hrefused : r.claimProbe c probeToken lifetime = (false, r) := by
                simp [CircuitKeyspace.claimProbe, hkey]
              rw [hrefused] at h
              obtain ⟨rfl, rfl⟩ := Prod.mk.inj h
              exact ⟨rfl, Or.inr (Or.inr ⟨rfl, rfl, rfl⟩)⟩
          | none =>
              have hclaimed : r.claimProbe c probeToken lifetime = (true, { r with
                  probes := r.probes.set c probeToken (r.deadline lifetime) }) := by
                simp [CircuitKeyspace.claimProbe, hkey]
              rw [hclaimed] at h
              obtain ⟨rfl, rfl⟩ := Prod.mk.inj h
              by_cases hc : c = circuit
              · subst hc
                refine ⟨rfl, Or.inl ⟨r.deadline lifetime, ?_, rfl, ?_, hkey, ?_⟩⟩
                · simp [claimsProbe]
                · simp only [CircuitKeyspace.deadline]
                  omega
                · simp
              · refine ⟨rfl, Or.inr (Or.inr ⟨?_, rfl, ?_⟩)⟩
                · simp [claimsProbe, hc]
                · simp [Table.set_of_ne _ (Ne.symm hc)]
      | deleteProbe c =>
          obtain ⟨rfl, rfl⟩ := Prod.mk.inj h
          by_cases hc : c = circuit
          · subst hc
            exact ⟨rfl, Or.inr (Or.inl ⟨rfl, by simp [clearsProbe], by
              simp [CircuitKeyspace.deleteProbe, Table.delete]⟩)⟩
          · exact ⟨rfl, Or.inr (Or.inr ⟨rfl, by simp [clearsProbe, hc], by
              simp [CircuitKeyspace.deleteProbe, Table.delete, Ne.symm hc]⟩)⟩
      | deleteCircuit c =>
          obtain ⟨rfl, rfl⟩ := Prod.mk.inj h
          by_cases hc : c = circuit
          · subst hc
            exact ⟨rfl, Or.inr (Or.inl ⟨rfl, by simp [clearsProbe], by
              simp [CircuitKeyspace.deleteCircuit, Table.delete]⟩)⟩
          · exact ⟨rfl, Or.inr (Or.inr ⟨rfl, by simp [clearsProbe, hc], by
              simp [CircuitKeyspace.deleteCircuit, Table.delete, Ne.symm hc]⟩)⟩
      | setCircuit c state lifetime =>
          simp only [CircuitOp.exec] at h
          split at h
          · obtain ⟨rfl, rfl⟩ := Prod.mk.inj h
            exact ⟨rfl, Or.inr (Or.inr ⟨rfl, rfl, rfl⟩)⟩
          · obtain ⟨rfl, rfl⟩ := Prod.mk.inj h
            exact ⟨rfl, Or.inr (Or.inr ⟨rfl, rfl, rfl⟩)⟩
      | _ =>
          obtain ⟨rfl, rfl⟩ := Prod.mk.inj h
          exact ⟨rfl, Or.inr (Or.inr ⟨rfl, rfl, rfl⟩)⟩

end Effects

section History

variable {circuit : String} {e : CircuitEvent ι} (earlier : List (CircuitEvent ι))

theorem outstandingProbe_of_issues {expiry : Nat}
    (h : CircuitEvent.issues circuit e = some expiry) (i : ι) :
    outstandingProbe circuit (e :: earlier) i =
      if e.actor = i then some expiry else outstandingProbe circuit earlier i := by
  simp [outstandingProbe, h]

theorem outstandingProbe_of_clears (h : CircuitEvent.issues circuit e = none)
    (hclear : CircuitEvent.clears circuit e = true) (i : ι) :
    outstandingProbe circuit (e :: earlier) i =
      if e.actor = i then none else outstandingProbe circuit earlier i := by
  simp [outstandingProbe, h, hclear]

theorem outstandingProbe_of_quiet (h : CircuitEvent.issues circuit e = none)
    (hclear : CircuitEvent.clears circuit e = false) (i : ι) :
    outstandingProbe circuit (e :: earlier) i = outstandingProbe circuit earlier i := by
  simp [outstandingProbe, h, hclear]

/-- Only a client that has made a call holds a permit. -/
theorem exists_call_of_outstandingProbe {j : ι} {expiry : Nat}
    (hj : outstandingProbe circuit earlier j = some expiry) :
    ∃ x ∈ earlier, x.actor = j := by
  induction earlier with
  | nil => cases hj
  | cons e earlier ih =>
      by_cases hactor : e.actor = j
      · exact ⟨e, List.mem_cons_self, hactor⟩
      · simp only [outstandingProbe, if_neg hactor] at hj
        obtain ⟨x, hx, hactor⟩ := ih hj
        exact ⟨x, List.mem_cons_of_mem e hx, hactor⟩

omit [DecidableEq ι] in
theorem claimant_of_issues {expiry : Nat}
    (h : CircuitEvent.issues circuit e = some expiry) :
    claimant circuit (e :: earlier) = some e.actor := by
  simp [claimant, h]

omit [DecidableEq ι] in
theorem claimant_of_not_issues (h : CircuitEvent.issues circuit e = none) :
    claimant circuit (e :: earlier) = claimant circuit earlier := by
  simp [claimant, h]

variable {earlier}

/-- A call that issues nothing puts no client into the current episode. -/
theorem issuedThisEpisode_of_not_issues (h : CircuitEvent.issues circuit e = none)
    {i : ι} (hi : issuedThisEpisode circuit (e :: earlier) i = true) :
    issuedThisEpisode circuit earlier i = true := by
  simp only [issuedThisEpisode, h] at hi
  split at hi
  · cases hi
  · simpa using hi

theorem issuedThisEpisode_of_ne {i : ι} (hne : e.actor ≠ i)
    (hi : issuedThisEpisode circuit (e :: earlier) i = true) :
    issuedThisEpisode circuit earlier i = true := by
  simp only [issuedThisEpisode, hne] at hi
  split at hi
  · cases hi
  · simpa using hi

end History

/-- What a probe key says about the permits, as long as all calls are unhurried:
its claim belongs to the client that has claimed it last, and every outstanding
probe whose time to live is running holds it. -/
structure ProbeInv (circuit : String) (c : CircuitConfig ι) : Prop where
  fresh : ∀ entry, c.state.probes circuit = some entry →
    c.state.clock < entry.expiresAt
  held : ∀ entry, c.state.probes circuit = some entry →
    ∃ j, claimant circuit c.history = some j ∧
      outstandingProbe circuit c.history j = some entry.expiresAt
  live : ∀ j expiry, outstandingProbe circuit c.history j = some expiry →
    c.state.clock < expiry →
      (c.state.probes circuit).map Entry.expiresAt = some expiry ∧
        claimant circuit c.history = some j
  single : SingleProbe circuit c

section Steps

variable {circuit : String} {c : CircuitConfig ι} {e : CircuitEvent ι}
  {rest : CircuitProc Unit}

/-- A claim succeeds only when no probe that still counts is outstanding. -/
theorem ProbeInv.none_in_time (hinv : ProbeInv circuit c)
    (hkey : c.state.probes circuit = none) {j : ι} {expiry : Nat}
    (hj : outstandingProbe circuit c.history j = some expiry) :
    expiry ≤ c.state.clock := by
  by_contra hlate
  have hlive := (hinv.live j expiry hj (Nat.lt_of_not_le hlate)).1
  simp [hkey] at hlive

theorem ProbeInv.claim (hinv : ProbeInv circuit c) {expiry : Nat}
    (hissues : CircuitEvent.issues circuit e = some expiry)
    (hclock : e.after.clock = c.state.clock) (hfuture : c.state.clock < expiry)
    (hkey : c.state.probes circuit = none)
    (hafter : (e.after.probes circuit).map Entry.expiresAt = some expiry)
    (hcond : ProbesInTime circuit c e) : ProbeInv circuit (c.perform e rest) := by
  have hout := outstandingProbe_of_issues c.history hissues
  have hclaimant := claimant_of_issues c.history hissues
  have hold : ∀ j x, j ≠ e.actor → outstandingProbe circuit c.history j = some x →
      issuedThisEpisode circuit c.history j = true → False := by
    intro j x hactor hj hepisode
    have hlate := hinv.none_in_time hkey hj
    have hearly := hcond (by rw [hissues]; rfl) j x hactor hj hepisode
    omega
  have honly : ∀ j, issuedThisEpisode circuit (e :: c.history) j = true →
      (outstandingProbe circuit (e :: c.history) j).isSome → j = e.actor := by
    intro j hepisode hj
    by_contra hne
    rw [hout, if_neg (Ne.symm hne)] at hj
    obtain ⟨x, hx⟩ := Option.isSome_iff_exists.1 hj
    exact hold j x hne hx (issuedThisEpisode_of_ne (Ne.symm hne) hepisode)
  refine ⟨?_, ?_, ?_, ?_⟩
  · intro entry hentry
    rw [Config.perform_state] at hentry ⊢
    rw [hentry, Option.map_some, Option.some.injEq] at hafter
    omega
  · intro entry hentry
    rw [Config.perform_state] at hentry
    rw [hentry, Option.map_some, Option.some.injEq] at hafter
    refine ⟨e.actor, hclaimant, ?_⟩
    rw [Config.perform_history, hout, if_pos rfl, hafter]
  · intro j x hj hlive
    rw [Config.perform_history, hout] at hj
    rw [Config.perform_state, hclock] at hlive
    by_cases hactor : e.actor = j
    · rw [if_pos hactor] at hj
      exact ⟨hafter.trans hj, hclaimant.trans (congrArg some hactor)⟩
    · rw [if_neg hactor] at hj
      have hlate := hinv.none_in_time hkey hj
      omega
  · intro i j hi hj hiout hjout
    exact (honly i hi hiout).trans (honly j hj hjout).symm

theorem ProbeInv.clear (hinv : ProbeInv circuit c)
    (hissues : CircuitEvent.issues circuit e = none)
    (hclears : CircuitEvent.clears circuit e = true)
    (hclock : e.after.clock = c.state.clock)
    (hafter : e.after.probes circuit = none)
    (hcond : RecordsApart circuit c e) : ProbeInv circuit (c.perform e rest) := by
  have hout := outstandingProbe_of_clears c.history hissues hclears
  refine ⟨?_, ?_, ?_, ?_⟩
  · intro entry hentry
    rw [Config.perform_state, hafter] at hentry
    cases hentry
  · intro entry hentry
    rw [Config.perform_state, hafter] at hentry
    cases hentry
  · intro j x hj hlive
    rw [Config.perform_history, hout] at hj
    rw [Config.perform_state, hclock] at hlive
    by_cases hactor : e.actor = j
    · rw [if_pos hactor] at hj
      cases hj
    · rw [if_neg hactor] at hj
      have hlate := hcond hclears j x (Ne.symm hactor) hj
      omega
  · intro i j hi hj hiout hjout
    rw [Config.perform_history] at hi hj hiout hjout
    rw [hout] at hiout hjout
    split at hiout
    · cases hiout
    split at hjout
    · cases hjout
    exact hinv.single i j (issuedThisEpisode_of_not_issues hissues hi)
      (issuedThisEpisode_of_not_issues hissues hj) hiout hjout

theorem ProbeInv.quiet (hinv : ProbeInv circuit c)
    (hissues : CircuitEvent.issues circuit e = none)
    (hclears : CircuitEvent.clears circuit e = false)
    (hclock : e.after.clock = c.state.clock)
    (hafter : e.after.probes circuit = c.state.probes circuit) :
    ProbeInv circuit (c.perform e rest) := by
  have hout := outstandingProbe_of_quiet c.history hissues hclears
  have hclaimant := claimant_of_not_issues c.history hissues
  refine ⟨?_, ?_, ?_, ?_⟩
  · intro entry hentry
    rw [Config.perform_state, hafter] at hentry
    rw [Config.perform_state, hclock]
    exact hinv.fresh entry hentry
  · intro entry hentry
    rw [Config.perform_state, hafter] at hentry
    rw [Config.perform_history, hclaimant]
    obtain ⟨j, hj, hjout⟩ := hinv.held entry hentry
    exact ⟨j, hj, (hout j).trans hjout⟩
  · intro j x hj hlive
    rw [Config.perform_history, hout] at hj
    rw [Config.perform_state, hclock] at hlive
    rw [Config.perform_state, Config.perform_history, hafter, hclaimant]
    exact hinv.live j x hj hlive
  · intro i j hi hj hiout hjout
    rw [Config.perform_history] at hi hj hiout hjout
    rw [hout] at hiout hjout
    exact hinv.single i j (issuedThisEpisode_of_not_issues hissues hi)
      (issuedThisEpisode_of_not_issues hissues hj) hiout hjout

/-- Every unhurried call keeps the invariant, and deletes no claim but its own. -/
theorem ProbeInv.step (hinv : ProbeInv circuit c)
    (hen : Enabled circuitMachine (Unhurried circuit) c e rest) :
    ProbeInv circuit (c.perform e rest) ∧ LeavesOtherClaims circuit c e := by
  obtain ⟨hbefore, hperforms, hintime, hapart⟩ := hen.before, hen.performs, hen.meets
  obtain ⟨hclock, h⟩ := @performs_probes circuit _ _ _ _ hperforms
  rw [← hbefore] at h
  rcases h with ⟨expiry, hissues, hclears, hfuture, hkey, hafter⟩ |
    ⟨hissues, hclears, hafter⟩ | ⟨hissues, hclears, hafter⟩
  · rw [hbefore] at hfuture hkey
    refine ⟨hinv.claim hissues hclock hfuture hkey hafter hintime, ?_⟩
    intro hclears'
    exact absurd (hclears.symm.trans hclears') (by decide)
  · refine ⟨hinv.clear hissues hclears hclock hafter hapart, ?_⟩
    intro _ hkey
    obtain ⟨entry, hentry⟩ := Option.isSome_iff_exists.1 hkey
    obtain ⟨j, hclaimant, hj⟩ := hinv.held entry hentry
    by_cases hactor : j = e.actor
    · rw [hclaimant, hactor]
    · have hlate := hapart hclears j _ hactor hj
      have hfresh := hinv.fresh entry hentry
      omega
  · rw [hbefore] at hafter
    refine ⟨hinv.quiet hissues hclears hclock hafter, ?_⟩
    intro hclears'
    exact absurd (hclears.symm.trans hclears') (by decide)

/-- A call that is not unhurried breaks what the others rely on: it admits a second
probe to the episode, or it deletes a claim that is not its own. -/
theorem ProbeInv.unhurried_of_kept (hinv : ProbeInv circuit c)
    (hen : Enabled circuitMachine Anything c e rest)
    (hsingle : SingleProbe circuit (c.perform e rest))
    (hleaves : LeavesOtherClaims circuit c e) : Unhurried circuit c e := by
  refine ⟨?_, ?_⟩
  · intro hissues j x hactor hj hepisode
    by_contra hlate
    obtain ⟨expiry, hissues⟩ := Option.isSome_iff_exists.1 hissues
    have hwrites : CircuitEvent.writes circuit e = false := by
      obtain ⟨actor, op, result, before, after⟩ := e
      cases op <;> first | rfl | cases hissues
    have hout := outstandingProbe_of_issues c.history hissues
    have hsame : j = e.actor := by
      refine hsingle j e.actor ?_ ?_ ?_ ?_
      · simp [issuedThisEpisode, hwrites, hepisode]
      · simp [issuedThisEpisode, hwrites, hissues]
      · rw [Config.perform_history, hout, if_neg (Ne.symm hactor), hj]
        rfl
      · rw [Config.perform_history, hout, if_pos rfl]
        rfl
    exact hactor hsame
  · intro hclears j x hactor hj
    by_contra hlive
    obtain ⟨hkey, hclaimant⟩ := hinv.live j x hj (Nat.lt_of_not_le hlive)
    obtain ⟨entry, hentry, _⟩ := Option.map_eq_some_iff.1 hkey
    have hown := hleaves hclears (by rw [hentry]; rfl)
    exact hactor (Option.some.inj (hclaimant.symm.trans hown))

theorem ProbeInv.tick (hinv : ProbeInv circuit c) (milliseconds : Nat) :
    ProbeInv circuit (c.drifted (c.state.tick milliseconds)) := by
  have hpurge : ∀ entry, (c.state.tick milliseconds).probes circuit = some entry →
      c.state.probes circuit = some entry ∧
        c.state.clock + milliseconds < entry.expiresAt := by
    intro entry hentry
    exact (Table.purge_eq_some_iff _ _ _ _).1 hentry
  refine ⟨?_, ?_, ?_, hinv.single⟩
  · intro entry hentry
    exact (hpurge entry hentry).2
  · intro entry hentry
    exact hinv.held entry (hpurge entry hentry).1
  · intro j x hj hlive
    have hlive : c.state.clock + milliseconds < x := hlive
    obtain ⟨hkey, hclaimant⟩ := hinv.live j x hj (by omega)
    refine ⟨?_, hclaimant⟩
    obtain ⟨entry, hentry, hexpiry⟩ := Option.map_eq_some_iff.1 hkey
    have hstays : (c.state.tick milliseconds).probes circuit = some entry :=
      (Table.purge_eq_some_iff _ _ _ _).2 ⟨hentry, by omega⟩
    rw [Config.drifted_state, hstays, Option.map_some, hexpiry]

theorem probeInv_start (circuit : String) (pool : ι → CircuitProc Unit) :
    ProbeInv circuit (start CircuitKeyspace.initial pool) where
  fresh := fun _ h => by cases h
  held := fun _ h => by cases h
  live := fun _ _ h => by cases h
  single := fun _ _ h => by cases h

theorem probeInv_of_run {pool : ι → CircuitProc Unit}
    (hrun : Run circuitMachine (Unhurried circuit)
      (start CircuitKeyspace.initial pool) c) : ProbeInv circuit c := by
  refine Run.invariant hrun (probeInv_start circuit pool) ?_ ?_ ?_
  · intro d e rest hd hen
    exact (hd.step hen).1
  · rintro d after hd ⟨milliseconds, hafter⟩
    obtain rfl := Option.some.inj hafter
    exact hd.tick milliseconds
  · intro d i hd
    exact ⟨hd.fresh, hd.held, hd.live, hd.single⟩

/-- Half-open probing.  As long as all calls are unhurried, at most one probe of
the current episode is outstanding and no record deletes the claim of another
client; and the next call keeps this exactly if it is unhurried too. -/
theorem half_open_admits_one_probe (breaker : RedisCircuitBreaker)
    (provider operation : ι → String) (circuit : String)
    (hrun : Run circuitMachine (Unhurried circuit)
      (start CircuitKeyspace.initial fun i =>
        breaker.guardedCall (provider i) (operation i)) c) :
    SingleProbe circuit c ∧
      ∀ e rest, Enabled circuitMachine Anything c e rest →
        ((SingleProbe circuit (c.perform e rest) ∧ LeavesOtherClaims circuit c e) ↔
          Unhurried circuit c e) := by
  have hinv := probeInv_of_run hrun
  refine ⟨hinv.single, fun e rest hen => ⟨?_, ?_⟩⟩
  · rintro ⟨hsingle, hleaves⟩
    exact hinv.unhurried_of_kept hen hsingle hleaves
  · intro hcond
    obtain ⟨hafter, hleaves⟩ :=
      hinv.step ⟨hen.next, hen.before, hen.performs, hcond⟩
    exact ⟨hafter.single, hleaves⟩

end Steps

section Sample

/-- A breaker that opens at the first failure and remembers it for two minutes. -/
def sampleBreaker : RedisCircuitBreaker where
  failureThreshold := 1
  windowSeconds := 120
  cooldownSeconds := [60, 120, 300]
  cooldown_ne_nil := by decide

/-- The clients of one circuit. -/
def sampleClients (_ : Nat) : CircuitProc Unit :=
  sampleBreaker.guardedCall "serpapi" "search"

def sampleCircuit : String := "serpapi:search"

/-- An answer at the given second. -/
def answerAt (second : Nat) (outcome : CallOutcome) : CircuitAnswer :=
  .proceed (seconds second) second outcome

/-- The first client fails and opens the circuit. -/
def openingMoves : List (Move circuitMachine Nat) :=
  List.replicate 10 (.act 0 (answerAt 0 (.failure true false none)))

/-- After the cooldown the second client claims the probe. -/
def probingMoves : List (Move circuitMachine Nat) :=
  openingMoves ++ .drift (61000 : Nat) ::
    List.replicate 4 (.act 1 (answerAt 61 .success))

/-- The probe outlives its claim, and the third client claims the next one. -/
def overlappingMoves : List (Move circuitMachine Nat) :=
  probingMoves ++ .drift (61000 : Nat) ::
    List.replicate 4 (.act 2 (answerAt 122 .success))

/-- No other client has a probe under way when a call claims or deletes the key. -/
def undisturbed (c : CircuitConfig Nat) (e : CircuitEvent Nat) : Bool :=
  c.history.all fun x => decide (x.actor = e.actor) ||
    (outstandingProbe sampleCircuit c.history x.actor).isNone

theorem unhurried_of_undisturbed (c : CircuitConfig Nat) (e : CircuitEvent Nat)
    (h : undisturbed c e = true) : Unhurried sampleCircuit c e := by
  have hnone : ∀ j expiry, j ≠ e.actor →
      outstandingProbe sampleCircuit c.history j ≠ some expiry := by
    intro j expiry hactor hj
    obtain ⟨x, hx, rfl⟩ := exists_call_of_outstandingProbe _ hj
    have htest := List.all_eq_true.1 h x hx
    simp [hactor, hj] at htest
  refine ⟨?_, ?_⟩
  · intro _ j expiry hactor hj
    exact absurd hj (hnone j expiry hactor)
  · intro _ j expiry hactor hj
    exact absurd hj (hnone j expiry hactor)

theorem probing_played :
    (play undisturbed probingMoves
      (start CircuitKeyspace.initial sampleClients)).isSome = true := by
  decide

/-- The second client holds the only probe. -/
def probing : CircuitConfig Nat :=
  (play undisturbed probingMoves (start CircuitKeyspace.initial sampleClients)).get
    probing_played

theorem one_probe_under_way :
    Run circuitMachine (Unhurried sampleCircuit)
        (start CircuitKeyspace.initial sampleClients) probing ∧
      outstandingProbe sampleCircuit probing.history 1 = some 121000 ∧
      SingleProbe sampleCircuit probing := by
  have hrun : Run circuitMachine (Unhurried sampleCircuit)
      (start CircuitKeyspace.initial sampleClients) probing :=
    play_run unhurried_of_undisturbed (Option.some_get probing_played).symm
  refine ⟨hrun, by decide, ?_⟩
  exact (half_open_admits_one_probe sampleBreaker (fun _ => "serpapi")
    (fun _ => "search") sampleCircuit hrun).1

/-- A slow probe: its claim runs out, the third client claims a second probe of
the same episode, and the success of the first one then deletes that claim. -/
theorem slow_probe_admits_second :
    ∃ (c : CircuitConfig Nat) (e : CircuitEvent Nat) (rest : CircuitProc Unit),
      Run circuitMachine Anything (start CircuitKeyspace.initial sampleClients) c ∧
      ¬ SingleProbe sampleCircuit c ∧
      Enabled circuitMachine Anything c e rest ∧
      ¬ LeavesOtherClaims sampleCircuit c e := by
  have hplay : (play (M := circuitMachine) (fun _ _ => true)
      (overlappingMoves ++ [.act 1 (answerAt 122 .success)])
      (start CircuitKeyspace.initial sampleClients)).any (fun c =>
        (issuedThisEpisode sampleCircuit c.history 1 &&
          issuedThisEpisode sampleCircuit c.history 2 &&
          (outstandingProbe sampleCircuit c.history 1).isSome &&
          (outstandingProbe sampleCircuit c.history 2).isSome) &&
        (decide (claimant sampleCircuit c.history = some 2) &&
          (c.state.probes sampleCircuit).isSome) &&
        (nextCall circuitMachine (fun _ _ => true) c 1 (answerAt 122 .success)).any
          fun p => decide (p.1.actor = 1) && CircuitEvent.clears sampleCircuit p.1) =
        true := by
    decide
  obtain ⟨c, hrun, htest⟩ := exists_run_of_play (fun _ _ _ => trivial) hplay
  simp only [Bool.and_eq_true, decide_eq_true_eq] at htest
  obtain ⟨⟨⟨⟨⟨h1, h2⟩, hout1⟩, hout2⟩, hclaimant, hkey⟩, hnext⟩ := htest
  obtain ⟨e, rest, hen, hcall⟩ :=
    exists_call_of_nextCall hnext
  simp only [Bool.and_eq_true, decide_eq_true_eq] at hcall
  refine ⟨c, e, rest, hrun, ?_, hen, ?_⟩
  · intro hsingle
    exact absurd (hsingle 1 2 h1 h2 hout1 hout2) (by decide)
  · intro hleaves
    have hown := hleaves hcall.2 hkey
    rw [hclaimant, hcall.1] at hown
    exact absurd (Option.some.inj hown) (by decide)

end Sample

end SearchTrust.Providers
