/-
The ledger of provider attempts.  Each attempt of a search is a checkpoint of its
own, written once; a claim counts the attempts that are saved and saves the next
one, and starts over when the save is refused.
-/
import SearchTrust.Jobs.CheckpointRuns
import SearchTrust.Providers.Search

namespace SearchTrust.Providers

open SearchTrust.Interleave SearchTrust.Interleave.Program SearchTrust.Redis
  SearchTrust.Jobs

/-- `_AttemptClaim`. -/
structure AttemptClaim where
  requestDigest : Digest
  attemptNumber : Nat
  keySlot : Nat
  keyFingerprint : String
  claimedAt : Instant

/-- The bounds of `_AttemptClaim`. -/
def AttemptClaim.accepted (claim : AttemptClaim) : Bool :=
  decide (1 ≤ claim.attemptNumber) &&
    decide (claim.attemptNumber ≤ serpProviderAttemptLimitPerCall) &&
    decide (1 ≤ claim.keySlot) && decide (claim.keySlot ≤ 3) &&
    decide (claim.keyFingerprint.toList.length = 12) &&
    claim.keyFingerprint.toList.all fun c =>
      (decide ('a' ≤ c) && decide (c ≤ 'f')) || (decide ('0' ≤ c) && decide (c ≤ '9'))

/-- How claims are written as JSON and read back.  A dump is an object, and what was
dumped is read again. -/
structure ClaimFormat where
  /-- `claim.model_dump(mode="json")`. -/
  dump : AttemptClaim → List (String × Json)
  /-- `_AttemptClaim.model_validate_json`; `none` where it raises. -/
  validate : Json → Option AttemptClaim
  validate_dump : ∀ claim, claim.accepted = true →
    validate (Json.object (dump claim)).canonical = some claim

/-- `ProviderAttemptLedger`. -/
structure ProviderAttemptLedger where
  checkpoints : JobCheckpoints
  jobId : UUID

/-- `SerpMarketCheckpointError`. -/
def serpMarketCheckpointError : JobException :=
  .deterministic "V22_SERP_MARKET_CHECKPOINT_INVALID"
    "A saved SERP market checkpoint could not be validated."

/-- `SerpProviderAttemptsExhausted`, which the runtime does not single out. -/
def serpProviderAttemptsExhausted : JobException := .unexpected

/-- The hexadecimal digits of a digest: what follows `sha256:` in its text. -/
def hexDigits (digest : Digest) : String :=
  .ofList ((List.range 64).reverse.map fun i => Nat.digitChar (digest.toNat / 16 ^ i % 16))

/-- `key`. -/
def attemptKey (call : SerpPlannedCall) (attemptNumber : Nat) : String :=
  "serp_market_v1:attempt:" ++ hexDigits call.requestDigest ++ ":" ++ toString attemptNumber

namespace ProviderAttemptLedger

variable (format : ClaimFormat) (ledger : ProviderAttemptLedger) (call : SerpPlannedCall)

/-- The loop of `_existing` over the numbers that are left. -/
def existingFrom : List Nat → List AttemptClaim → Bool → Proc (List AttemptClaim)
  | [], claims, _ => return claims
  | attemptNumber :: rest, claims, missingSeen => do
      let raw ← JobCheckpoints.get ledger.jobId (attemptKey call attemptNumber)
      if raw.isNull then existingFrom rest claims true
      else if missingSeen then .raise serpMarketCheckpointError
      else
        match format.validate raw with
        | none => .raise serpMarketCheckpointError
        | some claim =>
            if claim.requestDigest ≠ call.requestDigest ∨
                claim.attemptNumber ≠ attemptNumber then
              .raise serpMarketCheckpointError
            else existingFrom rest (claims ++ [claim]) missingSeen

/-- `_existing`. -/
def existing : Proc (List AttemptClaim) :=
  existingFrom format ledger call (List.range' 1 serpProviderAttemptLimitPerCall) [] false

/-- `count`. -/
def count : Proc Nat := do
  let claims ← existing format ledger call
  return claims.length

/-- One turn of the loop of `claim`: the number that it returns, if the save goes
through. -/
def claimTurn (keySlot : Nat) (fingerprint : String) : Proc (Option Nat) := do
  let claims ← existing format ledger call
  let nextNumber := claims.length + 1
  if serpProviderAttemptLimitPerCall < nextNumber then
    .raise serpProviderAttemptsExhausted
  else
    let now ← Jobs.call .utcNow
    let claim : AttemptClaim := ⟨call.requestDigest, nextNumber, keySlot, fingerprint, now⟩
    if !claim.accepted then .raise .invalidValue
    else
      let saved ← ledger.checkpoints.save ledger.jobId (attemptKey call nextNumber)
        (.object (format.dump claim))
      return if saved then some nextNumber else none

/-- `claim`, whose loop is given that many turns; `none` is a loop that would go on. -/
def claim (keySlot : Nat) (fingerprint : String) : Nat → Proc (Option Nat)
  | 0 => return none
  | turns + 1 => do
      match ← claimTurn format ledger call keySlot fingerprint with
      | some attemptNumber => return some attemptNumber
      | none => claim keySlot fingerprint turns

end ProviderAttemptLedger

section Attempts

variable (store : DurableJobStore) (job : UUID) (call : SerpPlannedCall)

/-- The key under which an attempt is saved. -/
def attemptAt (attemptNumber : Nat) : UUID × Digest :=
  store.checkpointKey job (attemptKey call attemptNumber)

/-- The number is that of an attempt. -/
def IsAttempt (attemptNumber : Nat) : Prop :=
  1 ≤ attemptNumber ∧ attemptNumber ≤ serpProviderAttemptLimitPerCall

instance (attemptNumber : Nat) : Decidable (IsAttempt attemptNumber) :=
  inferInstanceAs (Decidable (_ ∧ _))

/-- The attempt is saved. -/
def AttemptSaved (w : World) (attemptNumber : Nat) : Prop :=
  (w.redis.checkpoints (attemptAt store job call attemptNumber)).isSome = true

/-- The saved attempts are the first ones. -/
def AttemptsContiguous (w : World) : Prop :=
  ∃ n ≤ serpProviderAttemptLimitPerCall, ∀ attemptNumber, IsAttempt attemptNumber →
    (AttemptSaved store job call w attemptNumber ↔ attemptNumber ≤ n)

/-- The keys of the attempts have different digests. -/
def AttemptKeysDiffer : Prop :=
  ((List.range' 1 serpProviderAttemptLimitPerCall).map (attemptAt store job call)).Nodup

instance : Decidable (AttemptKeysDiffer store job call) :=
  inferInstanceAs (Decidable (List.Nodup _))

variable {store job call}

theorem AttemptKeysDiffer.eq (h : AttemptKeysDiffer store job call) {m n : Nat}
    (hm : IsAttempt m) (hn : IsAttempt n)
    (hkeys : attemptAt store job call m = attemptAt store job call n) : m = n := by
  refine List.inj_on_of_nodup_map h ?_ ?_ hkeys
  · exact List.mem_range'_1.2 ⟨hm.1, by have := hm.2; omega⟩
  · exact List.mem_range'_1.2 ⟨hn.1, by have := hn.2; omega⟩

variable (store job call)

/-- The call saves that attempt, whichever process makes it. -/
def SavesAttempt (attemptNumber : Nat) (op : JobOp) : Prop :=
  ∃ checkpoints job' key value, op = .saveCheckpoint checkpoints job' key value ∧
    store.checkpointKey job' key = attemptAt store job call attemptNumber

/-- The call has saved that attempt. -/
def claimsAttempt (attemptNumber : Nat) :
    (op : JobOp) → Except JobException op.Value → Bool
  | .saveCheckpoint _ job' key _, .ok true =>
      decide (store.checkpointKey job' key = attemptAt store job call attemptNumber)
  | _, _ => false

end Attempts

section Returns

variable (store : DurableJobStore) (format : ClaimFormat) (ledger : ProviderAttemptLedger)
  (call : SerpPlannedCall) (keySlot : Nat) (fingerprint : String)

/-- A number is returned by the call that has saved its attempt. -/
def ReturnedBySave (op : JobOp) (result : Except JobException op.Value)
    (value : Option Nat) : Prop :=
  ∀ attemptNumber, value = some attemptNumber →
    claimsAttempt store ledger.jobId call attemptNumber op result = true

theorem returnsBy_claimTurn :
    (ledger.claimTurn format call keySlot fingerprint).ReturnsBy
      (ReturnedBySave store ledger call) := by
  refine ReturnsBy.bind ?_ ?_ _
  · intro claims
    dsimp only
    split
    · trivial
    constructor
    · rintro (error | now) value hvalue
      · cases hvalue
      · simp only [Program.bind] at hvalue
        split at hvalue <;> cases hvalue
    · rintro (error | now)
      · trivial
      · simp only [Program.bind]
        split
        · trivial
        constructor
        · rintro (error | _ | _) value hvalue
          · cases hvalue
          · obtain rfl := Program.ret.inj hvalue
            intro attemptNumber hsome
            cases hsome
          · obtain rfl := Program.ret.inj hvalue
            intro attemptNumber hsome
            obtain rfl := Option.some.inj hsome
            exact decide_eq_true rfl
        · rintro (error | saved) <;> trivial
  · intro claims
    dsimp only
    split <;> trivial

/-- A claim returns a number by saving the attempt of that number. -/
theorem returnsBy_claim (turns : Nat) :
    (ledger.claim format call keySlot fingerprint turns).ReturnsBy
      (ReturnedBySave store ledger call) := by
  induction turns with
  | zero => trivial
  | succ turns ih =>
      refine (returnsBy_claimTurn store format ledger call keySlot fingerprint).andThen ?_ ?_
      · intro value
        cases value with
        | some attemptNumber => trivial
        | none => exact ih
      · intro op result inner value hinner hvalue
        cases inner with
        | some attemptNumber =>
            obtain rfl := Program.ret.inj hvalue
            exact hinner
        | none =>
            intro attemptNumber hsome
            cases turns with
            | zero => cases (Program.ret.inj hvalue).trans hsome
            | succ turns => cases hvalue

end Returns

end SearchTrust.Providers
