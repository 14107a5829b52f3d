/-
The cost ledger of one job.  A mutation reads the stored ledger, computes the
next one and validates it; this module is about one mutation on its own.
-/
import Mathlib.Data.List.Nodup
import SearchTrust.Costs.Models

namespace SearchTrust.Costs

open SearchTrust.Jobs

/-- The value of the ledger key: the JSON text of a ledger, or another text. -/
inductive StoredLedger where
  | json (state : CostLedgerState)
  | unreadable

/-- The settings of a `JobCostLedger`. -/
structure JobCostLedger where
  jobId : UUID
  pricing : PricingCatalog
  jobCreatedAt : Instant
  requireExisting : Bool := false

/-- `CostLedgerError`. -/
def costLedgerError (errorCode : String) : JobException :=
  .transient errorCode
    "Cost controls are temporarily unavailable. The task will be retried."

def costLedgerUnavailable : JobException :=
  costLedgerError "V22_COST_LEDGER_UNAVAILABLE"

/-- `CostClaimConflict`. -/
def costClaimConflict : JobException := costLedgerError "V22_COST_CLAIM_CONFLICT"

/-- `CostLimitExceeded`. -/
def costLimitExceeded : JobException :=
  .deterministic "V22_PROVIDER_ATTEMPT_LIMIT"
    "The task reached its safe provider request limit and could not be completed."

/-- What a mutation computes from the current ledger and the clock. -/
abbrev LedgerMutation (α : Type) :=
  CostLedgerState → Instant → Except JobException (CostLedgerState × α)

namespace JobCostLedger

/-- `_new_state`. -/
def newState (ledger : JobCostLedger) (now : Instant) : CostLedgerState where
  jobId := ledger.jobId
  pricing := ledger.pricing
  createdAt := ledger.jobCreatedAt
  updatedAt := max now ledger.jobCreatedAt
  phaseAttempts := some fun _ => none

/-- `_decode`. -/
def decode (ledger : JobCostLedger) (raw : Option StoredLedger) (now : Instant) :
    Except JobException CostLedgerState :=
  match raw with
  | none =>
      if ledger.requireExisting then
        .error (costLedgerError "CAPABILITY_RECOVERY_REQUIRED")
      else (ledger.newState now).modelValidate
  | some .unreadable => .error costLedgerUnavailable
  | some (.json state) =>
      if ¬ state.Valid then .error costLedgerUnavailable
      else if state.jobId ≠ ledger.jobId then .error costClaimConflict
      else .ok state

/-- One round of `_mutate`, between the read of the key and its transaction. -/
def mutateOnce {α : Type} (ledger : JobCostLedger) (operation : LedgerMutation α)
    (raw : Option StoredLedger) (now : Instant) :
    Except JobException (CostLedgerState × α) := do
  let current ← ledger.decode raw now
  let (updated, result) ← operation current now
  let updated ← updated.modelValidate
  return (updated, result)

end JobCostLedger

namespace CostLedgerState

/-- The ledger after a refused claim. -/
def denied (state : CostLedgerState) (operation : CostOperation) (now : Instant) :
    CostLedgerState :=
  { state with
    revision := state.revision + 1
    updatedAt := now
    localDenials := state.localDenials.set operation
      ((state.localDenials operation).getD 0 + 1) }

/-- The ledger after a new claim. -/
def claimed (state : CostLedgerState) (claim : CostClaim) (now : Instant) :
    CostLedgerState :=
  { state with
    revision := state.revision + 1
    updatedAt := now
    claims := state.claims ++ [claim]
    schemaVersion :=
      if claim.operation = .firecrawlScrape then .v2 else state.schemaVersion }

/-- The ledger after a completion. -/
def settled (state : CostLedgerState) (index : Nat) (completed : CostClaim)
    (now : Instant) : CostLedgerState :=
  { state with
    revision := state.revision + 1
    updatedAt := now
    claims := state.claims.set index completed }

end CostLedgerState

section Mutations

/-- `ensure`. -/
def ensureMutation : LedgerMutation CostLedgerState := fun state _ =>
  .ok (state, state)

/-- The claim that `claim` constructs. -/
def newClaim (operation : CostOperation) (requestedId : UUID) (now : Instant) :
    CostClaim where
  claimId := requestedId
  operation := operation
  provider := operationProvider operation
  claimedAt := now

/-- `mutate` in `claim`; no value stands for a refusal. -/
def claimMutation (operation : CostOperation) (requestedId : UUID) :
    LedgerMutation (Option CostClaim) := fun state now =>
  match state.claims.find? fun item => item.claimId = requestedId with
  | some existing =>
      if existing.operation ≠ operation then .error costClaimConflict
      else .ok (state, some existing)
  | none =>
      if operationLimit operation ≤ state.used operation then
        .ok (state.denied operation now, none)
      else do
        let claim ← (newClaim operation requestedId now).modelValidate
        return (state.claimed claim now, some claim)

/-- The arguments of `complete`. -/
structure Completion where
  outcome : CostOutcome
  durationMs : Int
  billableUnits : Int := 1
  usageKnown : Bool := false
  inputTokens : Option Int := none
  outputTokens : Option Int := none
  totalTokens : Option Int := none
deriving DecidableEq

/-- The claim with the arguments of `complete` filled in. -/
def Completion.fill (completion : Completion) (claim : CostClaim) (now : Instant) :
    CostClaim :=
  { claim with
    completedAt := some now
    outcome := some completion.outcome
    durationMs := some completion.durationMs
    billableUnits := completion.billableUnits
    usageKnown := completion.usageKnown
    inputTokens := completion.inputTokens
    outputTokens := completion.outputTokens
    totalTokens := completion.totalTokens }

/-- `mutate` in `complete`. -/
def completeMutation (claimId : UUID) (completion : Completion) :
    LedgerMutation CostClaim := fun state now =>
  match state.claims.findIdx? fun item => item.claimId = claimId with
  | none => .error costClaimConflict
  | some index =>
      match state.claims[index]? with
      | none => .error costClaimConflict
      | some current => do
          let completed ← (completion.fill current now).modelValidate
          if current.completed then
            if { current with completedAt := completed.completedAt } ≠ completed then
              .error costClaimConflict
            else .ok (state, current)
          else .ok (state.settled index completed now, completed)

/-- `mutate` in `record_checkpoint_hit`. -/
def checkpointHitMutation (count : Int) : LedgerMutation Unit := fun state now =>
  .ok ({ state with
    revision := state.revision + 1
    updatedAt := now
    checkpointHits := state.checkpointHits + count }, ())

/-- `mutate` in `record_job_attempt`. -/
def jobAttemptMutation (activeElapsedMs : Int) (phase : CostAttemptPhase) :
    LedgerMutation Unit := fun state now =>
  .ok ({ state with
    revision := state.revision + 1
    updatedAt := now
    jobAttempts := state.jobAttempts + 1
    phaseAttempts := state.phaseAttempts.map fun phases =>
      phases.set phase ((phases phase).getD 0 + 1)
    jobActiveElapsedMs := state.jobActiveElapsedMs + activeElapsedMs }, ())

end Mutations

/-- The calls that write the ledger. -/
inductive LedgerCall where
  | ensure
  | claim (operation : CostOperation) (claimId : UUID)
  | complete (claimId : UUID) (completion : Completion)
  | recordCheckpointHit (count : Int)
  | recordJobAttempt (activeElapsedMs : Int) (phase : CostAttemptPhase)

namespace LedgerCall

/-- What the mutation of a call hands back. -/
abbrev Result : LedgerCall → Type
  | ensure => CostLedgerState
  | claim _ _ => Option CostClaim
  | complete _ _ => CostClaim
  | recordCheckpointHit _ => Unit
  | recordJobAttempt _ _ => Unit

/-- The arguments that a call accepts before it reads the ledger. -/
def ArgumentsValid : LedgerCall → Prop
  | recordCheckpointHit count => 1 ≤ count ∧ count ≤ 10000
  | recordJobAttempt activeElapsedMs _ =>
      0 ≤ activeElapsedMs ∧ activeElapsedMs ≤ 86400000
  | _ => True

instance (call : LedgerCall) : Decidable call.ArgumentsValid := by
  unfold ArgumentsValid
  split <;> infer_instance

def mutation : (call : LedgerCall) → LedgerMutation call.Result
  | ensure => ensureMutation
  | claim operation claimId => claimMutation operation claimId
  | complete claimId completion => completeMutation claimId completion
  | recordCheckpointHit count => checkpointHitMutation count
  | recordJobAttempt activeElapsedMs phase => jobAttemptMutation activeElapsedMs phase

end LedgerCall

section Effects

variable {s t : CostLedgerState} {now : Instant}

theorem JobCostLedger.decode_valid {ledger : JobCostLedger}
    {raw : Option StoredLedger} (h : ledger.decode raw now = .ok s) : s.Valid := by
  unfold decode at h
  split at h
  next =>
    split at h
    next => cases h
    next =>
      obtain ⟨rfl, hvalid⟩ := CostLedgerState.modelValidate_eq_ok_iff.1 h
      exact hvalid
  next => cases h
  next state =>
    split at h
    next => cases h
    next hvalid =>
      split at h
      next => cases h
      next =>
        obtain rfl := Except.ok.inj h
        exact not_not.1 hvalid

theorem JobCostLedger.decode_jobId {ledger : JobCostLedger}
    {raw : Option StoredLedger} (h : ledger.decode raw now = .ok s) :
    s.jobId = ledger.jobId := by
  unfold decode at h
  split at h
  next =>
    split at h
    next => cases h
    next =>
      obtain ⟨rfl, _⟩ := CostLedgerState.modelValidate_eq_ok_iff.1 h
      rfl
  next => cases h
  next state =>
    split at h
    next => cases h
    next =>
      split at h
      next => cases h
      next hjob =>
        obtain rfl := Except.ok.inj h
        exact not_not.1 hjob

/-- A valid ledger of the job is decoded. -/
theorem JobCostLedger.decode_of_valid {ledger : JobCostLedger} (hs : s.Valid)
    (hjob : s.jobId = ledger.jobId) (now : Instant) :
    ledger.decode (some (.json s)) now = .ok s := by
  simp [decode, hs, hjob]

/-- A readable ledger is decoded as it is. -/
theorem JobCostLedger.decode_json {ledger : JobCostLedger} {state : CostLedgerState}
    (h : ledger.decode (some (.json state)) now = .ok s) : s = state := by
  unfold decode at h
  simp only at h
  split at h
  next => cases h
  next =>
    split at h
    next => cases h
    next => exact (Except.ok.inj h).symm

theorem JobCostLedger.mutateOnce_eq_ok_iff {α : Type} {ledger : JobCostLedger}
    {operation : LedgerMutation α} {raw : Option StoredLedger} {result : α} :
    ledger.mutateOnce operation raw now = .ok (t, result) ↔
      ∃ current, ledger.decode raw now = .ok current ∧
        operation current now = .ok (t, result) ∧ t.Valid := by
  unfold mutateOnce
  cases hdecode : ledger.decode raw now with
  | error error => simp [bind, Except.bind]
  | ok current =>
      cases hop : operation current now with
      | error error => simp [bind, Except.bind, hop]
      | ok updated =>
          obtain ⟨updated, value⟩ := updated
          by_cases hvalid : updated.Valid
          · simp only [bind, Except.bind, hop, CostLedgerState.modelValidate, hvalid,
              ↓reduceIte, pure, Except.pure, Except.ok.injEq, Prod.mk.injEq,
              exists_eq_left']
            constructor
            · rintro ⟨rfl, rfl⟩
              exact ⟨⟨rfl, rfl⟩, hvalid⟩
            · rintro ⟨h, _⟩
              exact h
          · simp only [bind, Except.bind, hop, CostLedgerState.modelValidate, hvalid,
              ↓reduceIte, reduceCtorEq, Except.ok.injEq, Prod.mk.injEq,
              exists_eq_left', false_iff, not_and]
            rintro ⟨rfl, _⟩
            exact hvalid

/-- A ledger that its validator rejects is not written. -/
theorem JobCostLedger.mutateOnce_invalid {α : Type} {ledger : JobCostLedger}
    {operation : LedgerMutation α} {raw : Option StoredLedger} {result : α}
    (hdecode : ledger.decode raw now = .ok s)
    (hop : operation s now = .ok (t, result)) (hinvalid : ¬ t.Valid) :
    ledger.mutateOnce operation raw now = .error .invalidValue := by
  simp [mutateOnce, hdecode, hop, CostLedgerState.modelValidate, hinvalid, bind,
    Except.bind]

/-- The claim that is constructed is always well formed. -/
theorem newClaim_valid (operation : CostOperation) (requestedId : UUID)
    (now : Instant) : (newClaim operation requestedId now).Valid where
  durationMs := by simp [newClaim]
  billableUnits := by simp [newClaim]
  inputTokens := by simp [newClaim]
  outputTokens := by simp [newClaim]
  totalTokens := by simp [newClaim]
  provider := rfl
  completion := ⟨rfl, rfl⟩
  completedAt := by simp [newClaim]
  onlyDify := fun _ => rfl
  tokens := by simp [newClaim, CostClaim.TokensFit]

/-- No claim of the ledger has this identifier. -/
def CostLedgerState.Fresh (s : CostLedgerState) (claimId : UUID) : Prop :=
  ∀ claim ∈ s.claims, claim.claimId ≠ claimId

theorem claimMutation_fresh {operation : CostOperation} {claimId : UUID}
    (hfresh : s.Fresh claimId) :
    claimMutation operation claimId s now =
      if operationLimit operation ≤ s.used operation then
        .ok (s.denied operation now, none)
      else .ok (s.claimed (newClaim operation claimId now) now,
        some (newClaim operation claimId now)) := by
  have hnone : s.claims.find? (fun item => item.claimId = claimId) = none := by
    rw [List.find?_eq_none]
    intro claim hclaim
    simpa using hfresh claim hclaim
  have hnew : (newClaim operation claimId now).modelValidate =
      .ok (newClaim operation claimId now) :=
    CostClaim.modelValidate_eq_ok_iff.2 ⟨rfl, newClaim_valid operation claimId now⟩
  simp only [claimMutation, hnone, hnew]
  rfl

/-- A claim replays an earlier one, is refused, or is new. -/
theorem claimMutation_cases {operation : CostOperation} {claimId : UUID}
    {result : Option CostClaim}
    (h : claimMutation operation claimId s now = .ok (t, result)) :
    (∃ existing ∈ s.claims, existing.claimId = claimId ∧
      existing.operation = operation ∧ t = s ∧ result = some existing) ∨
    (s.Fresh claimId ∧ operationLimit operation ≤ s.used operation ∧
      t = s.denied operation now ∧ result = none) ∨
    (s.Fresh claimId ∧ s.used operation < operationLimit operation ∧
      t = s.claimed (newClaim operation claimId now) now ∧
      result = some (newClaim operation claimId now)) := by
  cases hfind : s.claims.find? fun item => item.claimId = claimId with
  | some existing =>
      left
      simp only [claimMutation, hfind] at h
      split at h
      next => cases h
      next hop =>
        obtain ⟨rfl, rfl⟩ := Prod.mk.inj (Except.ok.inj h)
        have hid := List.find?_some hfind
        exact ⟨existing, List.mem_of_find?_eq_some hfind, by simpa using hid,
          not_not.1 hop, rfl, rfl⟩
  | none =>
      right
      have hfresh : s.Fresh claimId := by
        intro claim hclaim
        simpa using List.find?_eq_none.1 hfind claim hclaim
      rw [claimMutation_fresh hfresh] at h
      split at h
      next hlimit =>
        obtain ⟨rfl, rfl⟩ := Prod.mk.inj (Except.ok.inj h)
        exact Or.inl ⟨hfresh, hlimit, rfl, rfl⟩
      next hlimit =>
        obtain ⟨rfl, rfl⟩ := Prod.mk.inj (Except.ok.inj h)
        exact Or.inr ⟨hfresh, Nat.lt_of_not_le hlimit, rfl, rfl⟩

/-- A completion repeats the stored one or settles an open claim. -/
theorem completeMutation_cases {claimId : UUID} {completion : Completion}
    {result : CostClaim}
    (h : completeMutation claimId completion s now = .ok (t, result)) :
    ∃ index current, s.claims[index]? = some current ∧
      current.claimId = claimId ∧ (completion.fill current now).Valid ∧
      ((current.completed = true ∧
          { current with completedAt := some now } = completion.fill current now ∧
          t = s ∧ result = current) ∨
        (current.completed = false ∧
          t = s.settled index (completion.fill current now) now ∧
          result = completion.fill current now)) := by
  unfold completeMutation at h
  split at h
  next => cases h
  next index hindex =>
    split at h
    next => cases h
    next current hcurrent =>
      refine ⟨index, current, hcurrent, ?_, ?_⟩
      · obtain ⟨hlt, hid, _⟩ := List.findIdx?_eq_some_iff_getElem.1 hindex
        rw [List.getElem?_eq_getElem hlt] at hcurrent
        obtain rfl := Option.some.inj hcurrent
        simpa using hid
      · cases hfill : (completion.fill current now).modelValidate with
        | error error => simp [hfill, bind, Except.bind] at h
        | ok completed =>
            obtain ⟨rfl, hvalid⟩ := CostClaim.modelValidate_eq_ok_iff.1 hfill
            simp only [hfill, bind, Except.bind] at h
            refine ⟨hvalid, ?_⟩
            split at h
            next hcompleted =>
              left
              split at h
              next => cases h
              next hsame =>
                obtain ⟨rfl, rfl⟩ := Prod.mk.inj (Except.ok.inj h)
                exact ⟨hcompleted, not_not.1 hsame, rfl, rfl⟩
            next hopen =>
              right
              obtain ⟨rfl, rfl⟩ := Prod.mk.inj (Except.ok.inj h)
              exact ⟨by simpa using hopen, rfl, rfl⟩

/-- No operation has more claims than its limit. -/
def CostLedgerState.WithinLimits (s : CostLedgerState) : Prop :=
  ∀ op, s.used op ≤ operationLimit op

/-- Claims are counted by their operations alone. -/
theorem CostLedgerState.used_eq_count (s : CostLedgerState) (op : CostOperation) :
    s.used op = (s.claims.map CostClaim.operation).count op := by
  rw [List.count, List.countP_map, used]
  congr 1

theorem CostLedgerState.used_congr {op : CostOperation}
    (h : t.claims.map CostClaim.operation = s.claims.map CostClaim.operation) :
    t.used op = s.used op := by
  rw [used_eq_count, used_eq_count, h]

theorem CostLedgerState.used_claimed (claim : CostClaim) (op : CostOperation) :
    (s.claimed claim now).used op =
      s.used op + if claim.operation = op then 1 else 0 := by
  simp [used, claimed, List.countP_append, List.countP_singleton]

/-- A completion changes neither the operation nor the identifier of a claim. -/
theorem CostLedgerState.map_settled {β : Type} (f : CostClaim → β) {index : Nat}
    {current : CostClaim} (hcurrent : s.claims[index]? = some current)
    (completed : CostClaim) (hf : f completed = f current) (now : Instant) :
    (s.settled index completed now).claims.map f = s.claims.map f := by
  obtain ⟨hlt, rfl⟩ := List.getElem?_eq_some_iff.1 hcurrent
  simp only [settled, List.map_set, hf]
  rw [← List.getElem_map f (h := by simpa using hlt), List.set_getElem_self]

/-- Every mutation keeps the number of claims of each operation at its limit. -/
theorem LedgerCall.mutation_withinLimits {call : LedgerCall} {result : call.Result}
    (h : call.mutation s now = .ok (t, result)) (hs : s.WithinLimits) :
    t.WithinLimits := by
  intro op
  cases call with
  | ensure =>
      obtain ⟨rfl, _⟩ := Prod.mk.inj (Except.ok.inj h)
      exact hs op
  | claim operation claimId =>
      rcases claimMutation_cases h with ⟨_, _, _, _, rfl, _⟩ | ⟨_, _, rfl, _⟩ |
        ⟨_, hused, rfl, _⟩
      · exact hs op
      · exact hs op
      · rw [CostLedgerState.used_claimed]
        by_cases hop : operation = op
        · subst hop
          simpa [newClaim] using Nat.succ_le_of_lt hused
        · simpa [newClaim, hop] using hs op
  | complete claimId completion =>
      obtain ⟨index, current, hcurrent, _, _, ⟨_, _, rfl, _⟩ | ⟨_, rfl, _⟩⟩ :=
        completeMutation_cases h
      · exact hs op
      · have hops := CostLedgerState.map_settled CostClaim.operation hcurrent
          (completion.fill current now) rfl now
        rw [CostLedgerState.used_congr hops]
        exact hs op
  | recordCheckpointHit count =>
      obtain ⟨rfl, _⟩ := Prod.mk.inj (Except.ok.inj h)
      exact hs op
  | recordJobAttempt activeElapsedMs phase =>
      obtain ⟨rfl, _⟩ := Prod.mk.inj (Except.ok.inj h)
      exact hs op

/-- Every mutation that changes the ledger moves its revision on by one. -/
theorem LedgerCall.mutation_revision {call : LedgerCall} {result : call.Result}
    (h : call.mutation s now = .ok (t, result)) :
    t = s ∨ t.revision = s.revision + 1 := by
  cases call with
  | ensure =>
      obtain ⟨rfl, _⟩ := Prod.mk.inj (Except.ok.inj h)
      exact Or.inl rfl
  | claim operation claimId =>
      rcases claimMutation_cases h with ⟨_, _, _, _, rfl, _⟩ | ⟨_, _, rfl, _⟩ |
        ⟨_, _, rfl, _⟩
      · exact Or.inl rfl
      · exact Or.inr rfl
      · exact Or.inr rfl
  | complete claimId completion =>
      obtain ⟨index, current, _, _, _, ⟨_, _, rfl, _⟩ | ⟨_, rfl, _⟩⟩ :=
        completeMutation_cases h
      · exact Or.inl rfl
      · exact Or.inr rfl
  | recordCheckpointHit count =>
      obtain ⟨rfl, _⟩ := Prod.mk.inj (Except.ok.inj h)
      exact Or.inr rfl
  | recordJobAttempt activeElapsedMs phase =>
      obtain ⟨rfl, _⟩ := Prod.mk.inj (Except.ok.inj h)
      exact Or.inr rfl

/-- In a ledger with distinct identifiers a completion finds the claim itself. -/
theorem CostLedgerState.claim_eq_of_id {first second : CostClaim}
    (hids : (s.claims.map CostClaim.claimId).Nodup) (hfirst : first ∈ s.claims)
    (hsecond : second ∈ s.claims) (hid : first.claimId = second.claimId) :
    first = second :=
  List.inj_on_of_nodup_map hids hfirst hsecond hid

/-- How a mutation may change the claims of a ledger. -/
def LedgerCall.Accounts (s t : CostLedgerState) (now : Instant) :
    (call : LedgerCall) → call.Result → Prop
  | claim operation claimId, result =>
      (¬ s.Fresh claimId → t = s) ∧
      (s.Fresh claimId → operationLimit operation ≤ s.used operation →
        result = none ∧ t = s.denied operation now) ∧
      (s.Fresh claimId → s.used operation < operationLimit operation →
        ∃ item, result = some item ∧ t.claims = s.claims ++ [item])
  | complete claimId completion, _ =>
      ∀ item ∈ s.claims, item.claimId = claimId →
        if item.completed then t = s ∧ item.outcome = some completion.outcome
        else ∃ index, s.claims[index]? = some item ∧
          t.claims = s.claims.set index (completion.fill item now)
  | _, _ => t.claims = s.claims

theorem LedgerCall.mutation_accounts {call : LedgerCall} {result : call.Result}
    (h : call.mutation s now = .ok (t, result)) (hs : s.Valid) :
    call.Accounts s t now result := by
  cases call with
  | ensure =>
      obtain ⟨rfl, _⟩ := Prod.mk.inj (Except.ok.inj h)
      rfl
  | claim operation claimId =>
      rcases claimMutation_cases h with ⟨item, hmem, hid, _, rfl, _⟩ |
        ⟨hfresh, hlimit, rfl, rfl⟩ | ⟨hfresh, hused, rfl, rfl⟩
      · exact ⟨fun _ => rfl, fun hfresh => (hfresh item hmem hid).elim,
          fun hfresh => (hfresh item hmem hid).elim⟩
      · exact ⟨fun hold => (hold hfresh).elim, fun _ _ => ⟨rfl, rfl⟩,
          fun _ hused => absurd hused (Nat.not_lt.2 hlimit)⟩
      · exact ⟨fun hold => (hold hfresh).elim,
          fun _ hlimit => absurd hused (Nat.not_lt.2 hlimit),
          fun _ _ => ⟨_, rfl, rfl⟩⟩
  | complete claimId completion =>
      intro item hitem hid
      obtain ⟨index, current, hcurrent, hcurrentId, _, hcase⟩ :=
        completeMutation_cases h
      obtain rfl : current = item :=
        CostLedgerState.claim_eq_of_id hs.claimIds
          (List.mem_of_getElem? hcurrent) hitem (hcurrentId.trans hid.symm)
      rcases hcase with ⟨hcompleted, hsame, rfl, _⟩ | ⟨hopen, rfl, _⟩
      · rw [if_pos hcompleted]
        exact ⟨rfl, congrArg CostClaim.outcome hsame⟩
      · rw [if_neg (by simp [hopen])]
        exact ⟨index, hcurrent, rfl⟩
  | recordCheckpointHit count =>
      obtain ⟨rfl, _⟩ := Prod.mk.inj (Except.ok.inj h)
      rfl
  | recordJobAttempt activeElapsedMs phase =>
      obtain ⟨rfl, _⟩ := Prod.mk.inj (Except.ok.inj h)
      rfl

end Effects

end SearchTrust.Costs
