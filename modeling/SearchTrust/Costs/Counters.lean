/-
The flat counters of a cost snapshot.  The counters are summed up claim by
claim; what a claim adds to each of them is stated once, key by key.
-/
import SearchTrust.Costs.Models
import SearchTrust.Numeric.Binary64

namespace SearchTrust.Costs

open SearchTrust.Jobs SearchTrust.Numeric

/-- The counters that exist once. -/
inductive BaseCounter where
  | costSchemaVersion
  | costLedgerRevision
  | pricingRevision
  | jobWallElapsedMs
  | jobActiveElapsedMs
  | jobAttempts
  | jobRetryCount
  | providerAttemptsTotal
  | providerSuccessesTotal
  | providerFailuresTotal
  | providerOutcomeUnknownTotal
  | providerLocalDenialsTotal
  | checkpointHitsTotal
  | estimatedCostUsdMicros
  | pricingUnknownUnitsTotal
  | difyInputTokens
  | difyOutputTokens
  | difyTotalTokens
  | difyUsageUnknownCalls
deriving DecidableEq, Repr

/-- The counters that exist for every provider. -/
inductive ProviderMetric where
  | attempts
  | successes
  | failures
  | outcomeUnknown
  | localDenials
  | durationMs
  | billableUnits
  | estimatedCostUsdMicros
  | pricingUnknownUnits
deriving DecidableEq, Repr

/-- A key of the snapshot. -/
inductive CounterKey where
  | base (counter : BaseCounter)
  | provider (provider : CostProvider) (metric : ProviderMetric)
deriving DecidableEq, Repr

section Keys

def CostProvider.text : CostProvider → String
  | serpapi => "serpapi"
  | firecrawl => "firecrawl"
  | jina => "jina"
  | pagespeed => "pagespeed"
  | gsc => "gsc"
  | ga4 => "ga4"
  | gbp => "gbp"
  | dify => "dify"

def BaseCounter.all : List BaseCounter :=
  [.costSchemaVersion, .costLedgerRevision, .pricingRevision, .jobWallElapsedMs,
    .jobActiveElapsedMs, .jobAttempts, .jobRetryCount, .providerAttemptsTotal,
    .providerSuccessesTotal, .providerFailuresTotal, .providerOutcomeUnknownTotal,
    .providerLocalDenialsTotal, .checkpointHitsTotal, .estimatedCostUsdMicros,
    .pricingUnknownUnitsTotal, .difyInputTokens, .difyOutputTokens,
    .difyTotalTokens, .difyUsageUnknownCalls]

def BaseCounter.text : BaseCounter → String
  | costSchemaVersion => "cost_schema_version"
  | costLedgerRevision => "cost_ledger_revision"
  | pricingRevision => "pricing_revision"
  | jobWallElapsedMs => "job_wall_elapsed_ms"
  | jobActiveElapsedMs => "job_active_elapsed_ms"
  | jobAttempts => "job_attempts"
  | jobRetryCount => "job_retry_count"
  | providerAttemptsTotal => "provider_attempts_total"
  | providerSuccessesTotal => "provider_successes_total"
  | providerFailuresTotal => "provider_failures_total"
  | providerOutcomeUnknownTotal => "provider_outcome_unknown_total"
  | providerLocalDenialsTotal => "provider_local_denials_total"
  | checkpointHitsTotal => "checkpoint_hits_total"
  | estimatedCostUsdMicros => "estimated_cost_usd_micros"
  | pricingUnknownUnitsTotal => "pricing_unknown_units_total"
  | difyInputTokens => "dify_input_tokens"
  | difyOutputTokens => "dify_output_tokens"
  | difyTotalTokens => "dify_total_tokens"
  | difyUsageUnknownCalls => "dify_usage_unknown_calls"

def ProviderMetric.all : List ProviderMetric :=
  [.attempts, .successes, .failures, .outcomeUnknown, .localDenials, .durationMs,
    .billableUnits, .estimatedCostUsdMicros, .pricingUnknownUnits]

def ProviderMetric.text : ProviderMetric → String
  | attempts => "attempts"
  | successes => "successes"
  | failures => "failures"
  | outcomeUnknown => "outcome_unknown"
  | localDenials => "local_denials"
  | durationMs => "duration_ms"
  | billableUnits => "billable_units"
  | estimatedCostUsdMicros => "estimated_cost_usd_micros"
  | pricingUnknownUnits => "pricing_unknown_units"

def CounterKey.all : List CounterKey :=
  BaseCounter.all.map .base ++
    CostProvider.all.flatMap fun p => ProviderMetric.all.map (.provider p)

def CounterKey.text : CounterKey → String
  | base counter => counter.text
  | provider p metric => p.text ++ "_" ++ metric.text

theorem CounterKey.mem_all (key : CounterKey) : key ∈ CounterKey.all := by
  cases key with
  | base counter => cases counter <;> decide
  | provider p metric => cases p <;> cases metric <;> decide

/-- `ALLOWED_COUNTER_KEYS`. -/
theorem CounterKey.map_text_all : CounterKey.all.map CounterKey.text = allowedCounterKeys := by
  decide

theorem allowedCounterKeys_nodup : allowedCounterKeys.Nodup := by
  decide

theorem CounterKey.text_injective : Function.Injective CounterKey.text := by
  intro first second hsame
  refine List.inj_on_of_nodup_map ?_ first.mem_all second.mem_all hsame
  rw [CounterKey.map_text_all]
  exact allowedCounterKeys_nodup

end Keys

/-- The counters while they are summed up; a key starts at zero. -/
abbrev Counters := CounterKey → Int

namespace Counters

/-- `counters[key] += value`. -/
def add (counters : Counters) (key : CounterKey) (value : Int) : Counters :=
  fun k => if k = key then counters k + value else counters k

/-- The dictionary of the snapshot. -/
def toDict (counters : Counters) : CostCounters :=
  CounterKey.all.map fun key => (key.text, counters key)

theorem add_apply (counters : Counters) (key k : CounterKey) (value : Int) :
    counters.add key value k = counters k + if k = key then value else 0 := by
  by_cases h : k = key
  · simp [add, h]
  · simp [add, h]

theorem lookup_of_mem {counters : Counters} {key : CounterKey}
    {keys : List CounterKey} (h : key ∈ keys) :
    (keys.map fun k => (k.text, counters k)).lookup key.text =
      some (counters key) := by
  induction keys with
  | nil => cases h
  | cons k rest ih =>
      by_cases hk : key.text = k.text
      · have hsame := CounterKey.text_injective hk
        simp [hsame]
      · have hne : key ≠ k := fun hsame => hk (congrArg CounterKey.text hsame)
        have hrest := List.mem_of_ne_of_mem hne h
        simp [List.lookup_cons, beq_false_of_ne hk, ih hrest]

theorem lookup_toDict (counters : Counters) (key : CounterKey) :
    counters.toDict.lookup key.text = some (counters key) :=
  lookup_of_mem key.mem_all

/-- `CostCountersV1` accepts the counters that are in range. -/
theorem validCostCounters_toDict_iff {counters : Counters}
    (hschema : counters (.base .costSchemaVersion) = 1) :
    ValidCostCounters counters.toDict ↔
      ∀ key, 0 ≤ counters key ∧ counters key ≤ maxCounterValue := by
  have hkeys : counters.toDict.map Prod.fst = allowedCounterKeys := by
    rw [← CounterKey.map_text_all, toDict, List.map_map]
    rfl
  have hvalues : counters.toDict.map Prod.snd = CounterKey.all.map counters := by
    rw [toDict, List.map_map]
    rfl
  constructor
  · rintro (hempty | ⟨_, _, _, hrange, _⟩) key
    · rw [hempty] at hkeys
      exact absurd hkeys (by decide)
    · rw [hvalues] at hrange
      exact hrange _ (List.mem_map_of_mem key.mem_all)
  · intro hrange
    refine Or.inr ⟨?_, ?_, ?_, ?_, ?_⟩
    · rw [hkeys]
      exact allowedCounterKeys_nodup
    · rw [hkeys]
      exact fun _ hkey => hkey
    · rw [hkeys]
      exact fun _ hkey => hkey
    · rw [hvalues]
      intro value hvalue
      obtain ⟨key, _, rfl⟩ := List.mem_map.1 hvalue
      exact hrange key
    · have hlookup := counters.lookup_toDict (.base .costSchemaVersion)
      rwa [hschema] at hlookup

end Counters

section Snapshot

/-- `microdollars_for_tokens`. -/
def microdollarsForTokens (tokens ratePerMillion : Int) : Except JobException Int :=
  if tokens < 0 ∨ ratePerMillion < 0 then .error .invalidValue
  else if tokens = 0 ∨ ratePerMillion = 0 then .ok 0
  else .ok ((tokens * ratePerMillion + 999999) / 1000000)

/-- The `claim_cost` and `claim_unknown` that one kind of token adds. -/
def tokenCharge (tokens : Int) (rate : Option Int) : Except JobException (Int × Int) :=
  if tokens = 0 then .ok (0, 0)
  else match rate with
    | none => .ok (0, tokens)
    | some rate => do
        let cost ← microdollarsForTokens tokens rate
        return (cost, 0)

/-- `claim_cost` and `claim_unknown`. -/
def claimCharge (pricing : PricingCatalog) (claim : CostClaim) :
    Except JobException (Int × Int) := do
  let (cost, unknown) :=
    match pricing.requestUsdMicros claim.provider with
    | none => (0, claim.billableUnits)
    | some requestRate => (requestRate * claim.billableUnits, 0)
  if claim.provider = .dify ∧ claim.usageKnown then
    let (inputCost, inputUnknown) ←
      tokenCharge (claim.inputTokens.getD 0) pricing.difyInputMtokUsdMicros
    let (outputCost, outputUnknown) ←
      tokenCharge (claim.outputTokens.getD 0) pricing.difyOutputMtokUsdMicros
    return (cost + inputCost + outputCost, unknown + inputUnknown + outputUnknown)
  else return (cost, unknown)

/-- The counters of one claim outcome. -/
def outcomeKeys (p : CostProvider) : Option CostOutcome → CounterKey × CounterKey
  | some .success => (.provider p .successes, .base .providerSuccessesTotal)
  | some .failure => (.provider p .failures, .base .providerFailuresTotal)
  | none => (.provider p .outcomeUnknown, .base .providerOutcomeUnknownTotal)

/-- The Dify token counters of one claim. -/
def countTokens (counters : Counters) (claim : CostClaim) : Counters :=
  if claim.provider = .dify then
    if claim.usageKnown then
      ((counters.add (.base .difyInputTokens) (claim.inputTokens.getD 0)).add
        (.base .difyOutputTokens) (claim.outputTokens.getD 0)).add
        (.base .difyTotalTokens) (claim.totalTokens.getD 0)
    else counters.add (.base .difyUsageUnknownCalls) 1
  else counters

/-- The body of the loop over the claims. -/
def countClaim (pricing : PricingCatalog) (counters : Counters) (claim : CostClaim) :
    Except JobException Counters := do
  let p := claim.provider
  let counters := (counters.add (.provider p .attempts) 1).add
    (.base .providerAttemptsTotal) 1
  let counters := counters.add (.provider p .billableUnits) claim.billableUnits
  let (own, total) := outcomeKeys p claim.outcome
  let counters := (counters.add own 1).add total 1
  let counters := counters.add (.provider p .durationMs) (claim.durationMs.getD 0)
  let (cost, unknown) ← claimCharge pricing claim
  let counters := countTokens counters claim
  let counters := counters.add (.provider p .estimatedCostUsdMicros) cost
  let counters := counters.add (.provider p .pricingUnknownUnits) unknown
  let counters := counters.add (.base .estimatedCostUsdMicros) cost
  return counters.add (.base .pricingUnknownUnitsTotal) unknown

/-- The body of the loop over the local denials. -/
def countDenials (counters : Counters) (entry : CostOperation × Int) : Counters :=
  (counters.add (.provider (operationProvider entry.1) .localDenials) entry.2).add
    (.base .providerLocalDenialsTotal) entry.2

/-- `max(int(elapsed.total_seconds() * 1000), 0)` for a `timedelta` in
microseconds. -/
def elapsedMs (elapsed : Int) : Int :=
  let totalSeconds := toBinary64 (elapsed / 1000000)
  max (truncate (toBinary64 (totalSeconds * 1000))) 0

/-- `wall_ms`. -/
def wallElapsedMs (createdAt now : Int) : Int := elapsedMs (now - createdAt)

/-- What an aware `datetime` can hold: the years 1 to 9999 at an offset of less
than a day. -/
def IsDatetime (t : Int) : Prop :=
  -62135596800000000 - 86400000000 < t ∧ t < 253402300800000000 + 86400000000

/-- `job_retry_count`. -/
def retryCount (state : CostLedgerState) : Int :=
  match state.phaseAttempts with
  | some phases =>
      ((phases.items CostAttemptPhase.all).map fun entry => entry.2 - 1).sum
  | none => max (state.jobAttempts - 1) 0

/-- The counters before the two loops. -/
def initialCounters (state : CostLedgerState) (now : Instant) : Counters
  | .base .costSchemaVersion => 1
  | .base .costLedgerRevision => state.revision
  | .base .pricingRevision => state.pricing.revision
  | .base .jobWallElapsedMs => wallElapsedMs state.createdAt now
  | .base .jobActiveElapsedMs => state.jobActiveElapsedMs
  | .base .jobAttempts => state.jobAttempts
  | .base .jobRetryCount => retryCount state
  | .base .checkpointHitsTotal => state.checkpointHits
  | _ => 0

/-- `cost_counters_from_state`. -/
def costCountersFromState (state : CostLedgerState) (now : Instant) :
    Except JobException CostCounters := do
  let counters := (state.localDenials.items CostOperation.all).foldl countDenials
    (initialCounters state now)
  let counters ← state.claims.foldlM (countClaim state.pricing) counters
  if ValidCostCounters counters.toDict then return counters.toDict
  else throw .invalidValue

end Snapshot

end SearchTrust.Costs
