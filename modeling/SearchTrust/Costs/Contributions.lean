/-
What each claim and each refusal contributes to the counters of a snapshot.  On
a valid ledger the snapshot is the sum of these contributions, key by key.
-/
import Mathlib.Algebra.Order.BigOperators.Group.List
import SearchTrust.Costs.Counters

namespace SearchTrust.Costs

open SearchTrust.Jobs SearchTrust.Numeric

section Charges

/-- The price of a number of tokens, rounded upward. -/
def tokenCost (tokens : Int) (rate : Option Int) : Int :=
  ⌈(tokens * rate.getD 0 : ℚ) / 1000000⌉

/-- The tokens that have no price. -/
def tokensUnpriced (tokens : Int) (rate : Option Int) : Int :=
  if rate = none then tokens else 0

/-- Token prices are rounded upward. -/
theorem microdollarsForTokens_eq {tokens rate : Int} (htokens : 0 ≤ tokens)
    (hrate : 0 ≤ rate) :
    microdollarsForTokens tokens rate = .ok ⌈(tokens * rate : ℚ) / 1000000⌉ := by
  have hceil : ⌈(tokens * rate : ℚ) / 1000000⌉ = -(-(tokens * rate) / 1000000) := by
    have h := Rat.ceil_intCast_div_natCast (tokens * rate) 1000000
    exact_mod_cast h
  have hnot : ¬ (tokens < 0 ∨ rate < 0) := by omega
  rw [microdollarsForTokens, if_neg hnot, hceil]
  split
  next hzero =>
    have hproduct : tokens * rate = 0 := mul_eq_zero.2 hzero
    rw [hproduct]
    rfl
  next =>
    have hround : (tokens * rate + 999999) / 1000000 =
        -(-(tokens * rate) / 1000000) := by
      omega
    rw [hround]

theorem tokenCharge_eq {tokens : Int} {rate : Option Int} (htokens : 0 ≤ tokens)
    (hrate : ∀ r ∈ rate, 0 ≤ r) :
    tokenCharge tokens rate =
      .ok (tokenCost tokens rate, tokensUnpriced tokens rate) := by
  by_cases hzero : tokens = 0
  · simp [tokenCharge, tokenCost, tokensUnpriced, hzero]
  · cases rate with
    | none => simp [tokenCharge, tokenCost, tokensUnpriced, hzero]
    | some r =>
        have hcost := microdollarsForTokens_eq htokens (hrate r rfl)
        simp [tokenCharge, tokenCost, tokensUnpriced, hzero, hcost, bind, Except.bind,
          pure, Except.pure]

namespace CostClaim

/-- What the known tokens of a claim cost. -/
def tokensCost (pricing : PricingCatalog) (claim : CostClaim) : Int :=
  if claim.usageKnown then
    tokenCost (claim.inputTokens.getD 0) pricing.difyInputMtokUsdMicros +
      tokenCost (claim.outputTokens.getD 0) pricing.difyOutputMtokUsdMicros
  else 0

/-- What a claim is known to cost. -/
def cost (pricing : PricingCatalog) (claim : CostClaim) : Int :=
  (pricing.requestUsdMicros claim.provider).getD 0 * claim.billableUnits +
    claim.tokensCost pricing

/-- The units and tokens of a claim that have no price. -/
def unpriced (pricing : PricingCatalog) (claim : CostClaim) : Int :=
  (if pricing.requestUsdMicros claim.provider = none then claim.billableUnits else 0) +
    if claim.usageKnown then
      tokensUnpriced (claim.inputTokens.getD 0) pricing.difyInputMtokUsdMicros +
        tokensUnpriced (claim.outputTokens.getD 0) pricing.difyOutputMtokUsdMicros
    else 0

variable {pricing : PricingCatalog} {claim : CostClaim}

theorem Valid.input_nonneg (hclaim : claim.Valid) :
    0 ≤ claim.inputTokens.getD 0 ∧ claim.inputTokens.getD 0 ≤ 100000000 := by
  cases hinput : claim.inputTokens with
  | none => simp
  | some tokens => exact hclaim.inputTokens tokens hinput

theorem Valid.output_nonneg (hclaim : claim.Valid) :
    0 ≤ claim.outputTokens.getD 0 ∧ claim.outputTokens.getD 0 ≤ 100000000 := by
  cases houtput : claim.outputTokens with
  | none => simp
  | some tokens => exact hclaim.outputTokens tokens houtput

/-- Known usage is Dify's. -/
theorem Valid.dify_of_usageKnown (hclaim : claim.Valid)
    (hknown : claim.usageKnown = true) : claim.provider = .dify := by
  by_contra hother
  simp [hclaim.onlyDify hother] at hknown

theorem claimCharge_eq (hpricing : pricing.Valid) (hclaim : claim.Valid) :
    claimCharge pricing claim = .ok (claim.cost pricing, claim.unpriced pricing) := by
  have hinput := tokenCharge_eq hclaim.input_nonneg.1
    fun r hr => (hpricing.inputRate r hr).1
  have houtput := tokenCharge_eq hclaim.output_nonneg.1
    fun r hr => (hpricing.outputRate r hr).1
  by_cases hknown : claim.usageKnown = true
  · have hdify := hclaim.dify_of_usageKnown hknown
    cases hprice : pricing.requestUsdMicros claim.provider with
    | none =>
        simp [claimCharge, cost, unpriced, tokensCost, hknown, hdify ▸ hprice, hdify,
          hinput, houtput, bind, Except.bind, pure, Except.pure, add_assoc]
    | some price =>
        simp [claimCharge, cost, unpriced, tokensCost, hknown, hdify ▸ hprice, hdify,
          hinput, houtput, bind, Except.bind, pure, Except.pure, add_assoc]
  · cases hprice : pricing.requestUsdMicros claim.provider with
    | none =>
        simp [claimCharge, cost, unpriced, tokensCost, hknown, hprice, pure, Except.pure]
    | some price =>
        simp [claimCharge, cost, unpriced, tokensCost, hknown, hprice, pure, Except.pure]

end CostClaim

end Charges

namespace CostClaim

/-- What a claim adds to a counter of its own provider. -/
def metric (pricing : PricingCatalog) (claim : CostClaim) : ProviderMetric → Int
  | .attempts => 1
  | .successes => if claim.outcome = some .success then 1 else 0
  | .failures => if claim.outcome = some .failure then 1 else 0
  | .outcomeUnknown => if claim.outcome = none then 1 else 0
  | .localDenials => 0
  | .durationMs => claim.durationMs.getD 0
  | .billableUnits => claim.billableUnits
  | .estimatedCostUsdMicros => claim.cost pricing
  | .pricingUnknownUnits => claim.unpriced pricing

/-- What a claim adds to each counter. -/
def contribution (pricing : PricingCatalog) (claim : CostClaim) : CounterKey → Int
  | .provider p m => if p = claim.provider then claim.metric pricing m else 0
  | .base .providerAttemptsTotal => claim.metric pricing .attempts
  | .base .providerSuccessesTotal => claim.metric pricing .successes
  | .base .providerFailuresTotal => claim.metric pricing .failures
  | .base .providerOutcomeUnknownTotal => claim.metric pricing .outcomeUnknown
  | .base .estimatedCostUsdMicros => claim.metric pricing .estimatedCostUsdMicros
  | .base .pricingUnknownUnitsTotal => claim.metric pricing .pricingUnknownUnits
  | .base .difyInputTokens =>
      if claim.usageKnown then claim.inputTokens.getD 0 else 0
  | .base .difyOutputTokens =>
      if claim.usageKnown then claim.outputTokens.getD 0 else 0
  | .base .difyTotalTokens =>
      if claim.usageKnown then claim.totalTokens.getD 0 else 0
  | .base .difyUsageUnknownCalls =>
      if claim.provider = .dify ∧ claim.usageKnown = false then 1 else 0
  | _ => 0

end CostClaim

/-- What the refusals of one operation add to each counter. -/
def denialContribution (entry : CostOperation × Int) : CounterKey → Int
  | .provider p .localDenials => if p = operationProvider entry.1 then entry.2 else 0
  | .base .providerLocalDenialsTotal => entry.2
  | _ => 0

section Sums

variable {pricing : PricingCatalog} {claim : CostClaim}

theorem countDenials_eq (counters : Counters) (entry : CostOperation × Int) :
    countDenials counters entry =
      fun key => counters key + denialContribution entry key := by
  funext key
  simp only [countDenials, Counters.add_apply]
  cases key with
  | base counter => cases counter <;> simp [denialContribution]
  | provider p m => cases m <;> simp [denialContribution]

theorem countTokens_apply (pricing : PricingCatalog) (hclaim : claim.Valid)
    (counters : Counters) (counter : BaseCounter) :
    countTokens counters claim (.base counter) = counters (.base counter) +
      match counter with
      | .difyInputTokens | .difyOutputTokens | .difyTotalTokens
      | .difyUsageUnknownCalls => claim.contribution pricing (.base counter)
      | _ => 0 := by
  by_cases hknown : claim.usageKnown = true
  · have hdify := hclaim.dify_of_usageKnown hknown
    cases counter <;>
      simp [countTokens, hknown, hdify, Counters.add_apply, CostClaim.contribution]
  · by_cases hdify : claim.provider = .dify
    · cases counter <;>
        simp [countTokens, hknown, hdify, Counters.add_apply, CostClaim.contribution]
    · cases counter <;>
        simp [countTokens, hknown, hdify, CostClaim.contribution]

theorem countTokens_provider (counters : Counters) (p : CostProvider)
    (m : ProviderMetric) :
    countTokens counters claim (.provider p m) = counters (.provider p m) := by
  unfold countTokens
  split
  · split <;> simp [Counters.add_apply]
  · rfl

/-- A valid claim adds its contribution to each counter. -/
theorem countClaim_eq (hpricing : pricing.Valid) (hclaim : claim.Valid)
    (counters : Counters) :
    countClaim pricing counters claim =
      .ok fun key => counters key + claim.contribution pricing key := by
  simp only [countClaim, CostClaim.claimCharge_eq hpricing hclaim, bind, Except.bind,
    pure, Except.pure, Except.ok.injEq]
  funext key
  cases key with
  | base counter =>
      simp only [Counters.add_apply, countTokens_apply pricing hclaim]
      cases houtcome : claim.outcome with
      | none =>
          cases counter <;>
            simp [outcomeKeys, CostClaim.contribution, CostClaim.metric, houtcome]
      | some outcome =>
          cases outcome <;> cases counter <;>
            simp [outcomeKeys, CostClaim.contribution, CostClaim.metric, houtcome]
  | provider p m =>
      simp only [Counters.add_apply, countTokens_provider]
      cases houtcome : claim.outcome with
      | none =>
          cases m <;>
            simp [outcomeKeys, CostClaim.contribution, CostClaim.metric, houtcome]
      | some outcome =>
          cases outcome <;> cases m <;>
            simp [outcomeKeys, CostClaim.contribution, CostClaim.metric, houtcome]

theorem foldl_countDenials (entries : List (CostOperation × Int)) (counters : Counters) :
    entries.foldl countDenials counters = fun key =>
      counters key + (entries.map fun entry => denialContribution entry key).sum := by
  induction entries generalizing counters with
  | nil => simp
  | cons entry rest ih =>
      rw [List.foldl_cons, countDenials_eq, ih]
      funext key
      simp only [List.map_cons, List.sum_cons, add_assoc]

theorem foldlM_countClaim (hpricing : pricing.Valid) {claims : List CostClaim}
    (hclaims : ∀ claim ∈ claims, claim.Valid) (counters : Counters) :
    claims.foldlM (countClaim pricing) counters = .ok fun key =>
      counters key + (claims.map fun claim => claim.contribution pricing key).sum := by
  induction claims generalizing counters with
  | nil => simp [pure, Except.pure]
  | cons claim rest ih =>
      have hrest := fun other hother => hclaims other (List.mem_cons_of_mem _ hother)
      rw [List.foldlM_cons, countClaim_eq hpricing (hclaims claim List.mem_cons_self)]
      simp only [bind, Except.bind, ih hrest, List.map_cons, List.sum_cons, add_assoc]

end Sums

namespace CostLedgerState

/-- The counters of a ledger before they are validated. -/
def counters (s : CostLedgerState) (now : Instant) : Counters := fun key =>
  initialCounters s now key +
    ((s.localDenials.items CostOperation.all).map fun entry =>
      denialContribution entry key).sum +
    (s.claims.map fun claim => claim.contribution s.pricing key).sum

theorem counters_schema (s : CostLedgerState) (now : Instant) :
    s.counters now (.base .costSchemaVersion) = 1 := by
  simp [counters, initialCounters, denialContribution, CostClaim.contribution]

/-- On a valid ledger only the last validation can fail. -/
theorem costCountersFromState_eq {s : CostLedgerState} (hs : s.Valid) (now : Instant) :
    costCountersFromState s now =
      if ValidCostCounters (s.counters now).toDict
      then .ok (s.counters now).toDict else .error .invalidValue := by
  have hloop : s.claims.foldlM (countClaim s.pricing)
      ((s.localDenials.items CostOperation.all).foldl countDenials
        (initialCounters s now)) = .ok (s.counters now) := by
    rw [foldl_countDenials]
    exact foldlM_countClaim hs.pricing hs.claims _
  simp only [costCountersFromState, hloop, bind, Except.bind, pure, Except.pure,
    throw, throwThe, MonadExceptOf.throw]

/-- The snapshot of a valid ledger is its counters, when they are in range. -/
theorem costCountersFromState_eq_ok_iff {s : CostLedgerState} {now : Instant}
    (hs : s.Valid) {dict : CostCounters} :
    costCountersFromState s now = .ok dict ↔
      dict = (s.counters now).toDict ∧
        ∀ key, 0 ≤ s.counters now key ∧ s.counters now key ≤ maxCounterValue := by
  rw [costCountersFromState_eq hs,
    ← Counters.validCostCounters_toDict_iff (s.counters_schema now)]
  by_cases hvalid : ValidCostCounters (s.counters now).toDict
  · simp [hvalid, eq_comm]
  · simp [hvalid]

end CostLedgerState

end SearchTrust.Costs
