/-
The cost snapshot of a valid ledger: its counters add up over the providers, and
the snapshot exists exactly when the charges stay in the range of the counters.
-/
import Mathlib.Algebra.BigOperators.Ring.List
import SearchTrust.Costs.Contributions

namespace SearchTrust.Costs

open SearchTrust.Jobs SearchTrust.Numeric

/-- The sum of a counter over the providers. -/
def overProviders (f : CostProvider → Int) : Int := (CostProvider.all.map f).sum

theorem overProviders_add (f g : CostProvider → Int) :
    overProviders (fun p => f p + g p) = overProviders f + overProviders g :=
  List.sum_map_add

/-- A value that belongs to one provider is counted once. -/
theorem overProviders_ite (q : CostProvider) (x : Int) :
    overProviders (fun p => if p = q then x else 0) = x := by
  cases q <;> simp [overProviders, CostProvider.all]

/-- A sum over items, provider by provider. -/
theorem overProviders_sum {α : Type} (items : List α) (owner : α → CostProvider)
    (f : α → Int) :
    overProviders (fun p =>
      (items.map fun item => if p = owner item then f item else 0).sum) =
      (items.map f).sum := by
  induction items with
  | nil => simp [overProviders]
  | cons item rest ih =>
      simp only [List.map_cons, List.sum_cons]
      rw [overProviders_add, overProviders_ite, ih]

/-- What the refusals of one operation add to a counter of their provider. -/
def denialMetric (entry : CostOperation × Int) (m : ProviderMetric) : Int :=
  if m = .localDenials then entry.2 else 0

theorem denialContribution_provider (entry : CostOperation × Int) (p : CostProvider)
    (m : ProviderMetric) :
    denialContribution entry (.provider p m) =
      if p = operationProvider entry.1 then denialMetric entry m else 0 := by
  cases m <;> simp [denialContribution, denialMetric]

/-- The total that goes with a metric. -/
def totalOf : ProviderMetric → Option BaseCounter
  | .attempts => some .providerAttemptsTotal
  | .successes => some .providerSuccessesTotal
  | .failures => some .providerFailuresTotal
  | .outcomeUnknown => some .providerOutcomeUnknownTotal
  | .localDenials => some .providerLocalDenialsTotal
  | .estimatedCostUsdMicros => some .estimatedCostUsdMicros
  | .pricingUnknownUnits => some .pricingUnknownUnitsTotal
  | .durationMs | .billableUnits => none

namespace CostLedgerState

variable {s : CostLedgerState} {now : Instant}

/-- The claims of one provider. -/
def claimsOf (s : CostLedgerState) (p : CostProvider) : List CostClaim :=
  s.claims.filter fun claim => claim.provider = p

/-- The refusals, operation by operation. -/
def denials (s : CostLedgerState) : List (CostOperation × Int) :=
  s.localDenials.items CostOperation.all

theorem counters_provider (s : CostLedgerState) (now : Instant) (p : CostProvider)
    (m : ProviderMetric) :
    s.counters now (.provider p m) =
      (s.denials.map fun entry =>
        if p = operationProvider entry.1 then denialMetric entry m else 0).sum +
      (s.claims.map fun claim =>
        if p = claim.provider then claim.metric s.pricing m else 0).sum := by
  simp only [counters, denialContribution_provider]
  exact congrArg₂ (· + ·) (zero_add _) rfl

theorem counters_of_totalOf (s : CostLedgerState) (now : Instant) {m : ProviderMetric}
    {total : BaseCounter} (htotal : totalOf m = some total) :
    s.counters now (.base total) =
      (s.denials.map fun entry => denialMetric entry m).sum +
      (s.claims.map fun claim => claim.metric s.pricing m).sum := by
  cases m with
  | durationMs => cases htotal
  | billableUnits => cases htotal
  | localDenials =>
      obtain rfl := Option.some.inj htotal
      simp [counters, initialCounters, denialContribution, CostClaim.contribution,
        denialMetric, CostClaim.metric, denials]
  | _ =>
      obtain rfl := Option.some.inj htotal
      simp [counters, initialCounters, denialContribution, CostClaim.contribution,
        denialMetric]

/-- Every total is the sum of its metric over the providers. -/
theorem counters_total (s : CostLedgerState) (now : Instant) {m : ProviderMetric}
    {total : BaseCounter} (htotal : totalOf m = some total) :
    s.counters now (.base total) =
      overProviders fun p => s.counters now (.provider p m) := by
  simp only [counters_provider]
  rw [overProviders_add, overProviders_sum, overProviders_sum,
    counters_of_totalOf s now htotal]

/-- A counter of claims is the sum over the claims of its provider. -/
theorem counters_claimsOf (s : CostLedgerState) (now : Instant) (p : CostProvider)
    {m : ProviderMetric} (hm : m ≠ .localDenials) :
    s.counters now (.provider p m) =
      ((s.claimsOf p).map fun claim => claim.metric s.pricing m).sum := by
  have hfilter : ∀ claims : List CostClaim,
      (claims.map fun claim =>
        if p = claim.provider then claim.metric s.pricing m else 0).sum =
      ((claims.filter fun claim => claim.provider = p).map fun claim =>
        claim.metric s.pricing m).sum := by
    intro claims
    induction claims with
    | nil => rfl
    | cons claim rest ih =>
        by_cases hp : claim.provider = p
        · simp [hp, ih]
        · simp [hp, Ne.symm hp, ih]
  rw [counters_provider, hfilter]
  simp [denialMetric, hm, claimsOf]

/-- The attempts at a provider are the claims on it. -/
theorem counters_attempts (s : CostLedgerState) (now : Instant) (p : CostProvider) :
    s.counters now (.provider p .attempts) = (s.claimsOf p).length := by
  rw [counters_claimsOf s now p (by decide)]
  simp [CostClaim.metric]

/-- Every claim has exactly one of the three outcomes. -/
theorem metric_outcomes (pricing : PricingCatalog) (claim : CostClaim) :
    claim.metric pricing .attempts = claim.metric pricing .successes +
      claim.metric pricing .failures + claim.metric pricing .outcomeUnknown := by
  cases houtcome : claim.outcome with
  | none => simp [CostClaim.metric, houtcome]
  | some outcome => cases outcome <;> simp [CostClaim.metric, houtcome]

theorem counters_outcomes (s : CostLedgerState) (now : Instant) (p : CostProvider) :
    s.counters now (.provider p .attempts) =
      s.counters now (.provider p .successes) +
        s.counters now (.provider p .failures) +
        s.counters now (.provider p .outcomeUnknown) := by
  rw [counters_claimsOf s now p (by decide), counters_claimsOf s now p (by decide),
    counters_claimsOf s now p (by decide), counters_claimsOf s now p (by decide),
    ← List.sum_map_add, ← List.sum_map_add]
  simp only [metric_outcomes]

/-- A claim more in the ledger adds its contribution to every counter. -/
theorem counters_insert {t : CostLedgerState} {pre post : List CostClaim}
    {claim : CostClaim} (hs : s.claims = pre ++ post)
    (ht : t = { s with claims := pre ++ claim :: post }) (now : Instant)
    (key : CounterKey) :
    t.counters now key = s.counters now key + claim.contribution s.pricing key := by
  have hinitial : initialCounters t now = initialCounters s now := by
    rw [ht]
    rfl
  subst ht
  simp only [counters, hinitial, hs, List.map_append, List.map_cons, List.sum_append,
    List.sum_cons]
  ring

end CostLedgerState

section Range

theorem sum_map_range {α : Type} {items : List α} {f : α → Int} {bound : Int}
    (h : ∀ item ∈ items, 0 ≤ f item ∧ f item ≤ bound) :
    0 ≤ (items.map f).sum ∧ (items.map f).sum ≤ items.length * bound := by
  induction items with
  | nil => simp
  | cons item rest ih =>
      obtain ⟨hlow, hhigh⟩ := h item List.mem_cons_self
      obtain ⟨ihlow, ihhigh⟩ := ih fun other hother =>
        h other (List.mem_cons_of_mem _ hother)
      simp only [List.map_cons, List.sum_cons, List.length_cons, Nat.cast_add,
        Nat.cast_one, add_mul, one_mul]
      omega

theorem elapsedMs_le {elapsed : Int} (h : |elapsed| ≤ 320000000000000000) :
    elapsedMs elapsed ≤ maxCounterValue := by
  refine max_le ?_ (by decide)
  have helapsed : |(elapsed : ℚ)| ≤ 320000000000000000 := by exact_mod_cast h
  have hseconds : |toBinary64 (elapsed / 1000000)| ≤ 330000000000 := by
    refine (abs_toBinary64_le _).trans ?_
    rw [abs_div, abs_of_pos (by norm_num : (0 : ℚ) < 1000000)]
    linarith
  have hproduct := abs_toBinary64_le (toBinary64 (elapsed / 1000000) * 1000)
  rw [abs_mul, abs_of_pos (by norm_num : (0 : ℚ) < 1000)] at hproduct
  have hint := truncate_le_abs (toBinary64 (toBinary64 (elapsed / 1000000) * 1000))
  have hfits : ((truncate (toBinary64
      (toBinary64 (elapsed / 1000000) * 1000)) : Int) : ℚ) ≤ 1000000000000000 := by
    linarith
  exact_mod_cast hfits

/-- The time between two datetimes fits into its counter. -/
theorem wallElapsedMs_range {createdAt now : Int} (hcreated : IsDatetime createdAt)
    (hnow : IsDatetime now) :
    0 ≤ wallElapsedMs createdAt now ∧ wallElapsedMs createdAt now ≤ maxCounterValue := by
  obtain ⟨hcreatedLow, hcreatedHigh⟩ := hcreated
  obtain ⟨hnowLow, hnowHigh⟩ := hnow
  refine ⟨le_max_right _ _, elapsedMs_le ?_⟩
  rw [abs_le]
  omega

/-- The keys whose values are amounts of money. -/
def CounterKey.Money : CounterKey → Prop
  | .provider _ .estimatedCostUsdMicros => True
  | .base .estimatedCostUsdMicros => True
  | _ => False

/-- A bound on what one claim adds to a counter that is no amount of money. -/
def contributionBound : Int := 300000000

variable {pricing : PricingCatalog} {claim : CostClaim}

theorem tokensUnpriced_range {tokens : Int} (rate : Option Int)
    (h : 0 ≤ tokens ∧ tokens ≤ 100000000) :
    0 ≤ tokensUnpriced tokens rate ∧ tokensUnpriced tokens rate ≤ 100000000 := by
  unfold tokensUnpriced
  split
  · exact h
  · omega

theorem unpriced_range (pricing : PricingCatalog) (hclaim : claim.Valid) :
    0 ≤ claim.unpriced pricing ∧ claim.unpriced pricing ≤ contributionBound := by
  have hunits := hclaim.billableUnits
  have hinput := tokensUnpriced_range pricing.difyInputMtokUsdMicros hclaim.input_nonneg
  have houtput :=
    tokensUnpriced_range pricing.difyOutputMtokUsdMicros hclaim.output_nonneg
  unfold CostClaim.unpriced contributionBound
  split <;> split <;> omega

theorem metric_range (pricing : PricingCatalog) (hclaim : claim.Valid)
    {m : ProviderMetric} (hm : m ≠ .estimatedCostUsdMicros) :
    0 ≤ claim.metric pricing m ∧ claim.metric pricing m ≤ contributionBound := by
  have hone : ∀ p : Prop, [Decidable p] →
      0 ≤ (if p then 1 else 0 : Int) ∧ (if p then 1 else 0 : Int) ≤ contributionBound := by
    intro p _
    split <;> decide
  cases m with
  | attempts => exact (show (0 : Int) ≤ 1 ∧ (1 : Int) ≤ contributionBound by decide)
  | successes => exact hone _
  | failures => exact hone _
  | outcomeUnknown => exact hone _
  | localDenials =>
      exact (show (0 : Int) ≤ 0 ∧ (0 : Int) ≤ contributionBound by decide)
  | durationMs =>
      show 0 ≤ claim.durationMs.getD 0 ∧ claim.durationMs.getD 0 ≤ 300000000
      cases hduration : claim.durationMs with
      | none => simp
      | some duration =>
          have h := hclaim.durationMs duration hduration
          simp only [Option.getD_some]
          omega
  | billableUnits =>
      have h := hclaim.billableUnits
      show 0 ≤ claim.billableUnits ∧ claim.billableUnits ≤ 300000000
      omega
  | estimatedCostUsdMicros => exact (hm rfl).elim
  | pricingUnknownUnits => exact unpriced_range pricing hclaim

theorem contribution_range (pricing : PricingCatalog) (hclaim : claim.Valid)
    {key : CounterKey} (hkey : ¬ key.Money) :
    0 ≤ claim.contribution pricing key ∧
      claim.contribution pricing key ≤ contributionBound := by
  have hzero : (0 : Int) ≤ 0 ∧ (0 : Int) ≤ contributionBound := by decide
  have hinput := hclaim.input_nonneg
  have houtput := hclaim.output_nonneg
  have htotal : 0 ≤ claim.totalTokens.getD 0 ∧ claim.totalTokens.getD 0 ≤ 200000000 := by
    cases htokens : claim.totalTokens with
    | none => simp
    | some tokens => exact hclaim.totalTokens tokens htokens
  cases key with
  | provider p m =>
      have hm : m ≠ .estimatedCostUsdMicros := fun h => hkey (by rw [h]; trivial)
      simp only [CostClaim.contribution]
      split
      · exact metric_range pricing hclaim hm
      · exact hzero
  | base counter =>
      cases counter with
      | estimatedCostUsdMicros => exact (hkey trivial).elim
      | providerAttemptsTotal =>
          exact metric_range (m := .attempts) pricing hclaim (by decide)
      | providerSuccessesTotal =>
          exact metric_range (m := .successes) pricing hclaim (by decide)
      | providerFailuresTotal =>
          exact metric_range (m := .failures) pricing hclaim (by decide)
      | providerOutcomeUnknownTotal =>
          exact metric_range (m := .outcomeUnknown) pricing hclaim (by decide)
      | pricingUnknownUnitsTotal =>
          exact metric_range (m := .pricingUnknownUnits) pricing hclaim (by decide)
      | difyInputTokens =>
          simp only [CostClaim.contribution, contributionBound]
          split <;> omega
      | difyOutputTokens =>
          simp only [CostClaim.contribution, contributionBound]
          split <;> omega
      | difyTotalTokens =>
          simp only [CostClaim.contribution, contributionBound]
          split <;> omega
      | difyUsageUnknownCalls =>
          simp only [CostClaim.contribution, contributionBound]
          split <;> omega
      | _ => exact hzero

theorem denialContribution_range {entry : CostOperation × Int}
    (h : 0 ≤ entry.2 ∧ entry.2 ≤ 1000000) (key : CounterKey) :
    0 ≤ denialContribution entry key ∧ denialContribution entry key ≤ 1000000 := by
  have hzero : (0 : Int) ≤ 0 ∧ (0 : Int) ≤ 1000000 := by decide
  cases key with
  | provider p m =>
      rw [denialContribution_provider, denialMetric]
      split
      · split
        · exact h
        · exact hzero
      · exact hzero
  | base counter =>
      cases counter with
      | providerLocalDenialsTotal => exact h
      | _ => exact hzero

/-- A key is set before the loops or summed up in them, not both. -/
theorem initial_or_summed (s : CostLedgerState) (now : Instant) (key : CounterKey) :
    ((∀ entry, denialContribution entry key = 0) ∧
      ∀ pricing, ∀ claim : CostClaim, claim.contribution pricing key = 0) ∨
    initialCounters s now key = 0 := by
  cases key with
  | provider p m => exact Or.inr rfl
  | base counter =>
      cases counter with
      | costSchemaVersion | costLedgerRevision | pricingRevision | jobWallElapsedMs
      | jobActiveElapsedMs | jobAttempts | jobRetryCount | checkpointHitsTotal =>
          exact Or.inl ⟨fun _ => rfl, fun _ _ => rfl⟩
      | _ => exact Or.inr rfl

theorem denials_length_le (s : CostLedgerState) : s.denials.length ≤ 15 := by
  have h := List.length_filterMap_le
    (fun key => (s.localDenials key).map fun value => (key, value)) CostOperation.all
  exact h

theorem denials_range {s : CostLedgerState} (hs : s.Valid) (key : CounterKey) :
    0 ≤ (s.denials.map fun entry => denialContribution entry key).sum ∧
      (s.denials.map fun entry => denialContribution entry key).sum ≤ 15000000 := by
  have hentries : ∀ entry ∈ s.denials, 0 ≤ denialContribution entry key ∧
      denialContribution entry key ≤ 1000000 := by
    intro entry hentry
    obtain ⟨hkey, hvalue⟩ := Dict.mem_items.1 hentry
    exact denialContribution_range (hs.localDenials entry.1 hkey entry.2 hvalue) key
  obtain ⟨hlow, hhigh⟩ := sum_map_range hentries
  have hlength := denials_length_le s
  refine ⟨hlow, hhigh.trans ?_⟩
  omega

theorem retryCount_range {s : CostLedgerState} (hs : s.Valid) :
    0 ≤ retryCount s ∧ retryCount s ≤ 300 := by
  cases hphases : s.phaseAttempts with
  | none =>
      have h := hs.jobAttempts
      simp only [retryCount, hphases]
      omega
  | some phases =>
      have hentries : ∀ entry ∈ phases.items CostAttemptPhase.all,
          0 ≤ entry.2 - 1 ∧ entry.2 - 1 ≤ 100 := by
        intro entry hentry
        obtain ⟨hkey, hvalue⟩ := Dict.mem_items.1 hentry
        have h := hs.phaseCounts phases hphases entry.1 hkey entry.2 hvalue
        omega
      obtain ⟨hlow, hhigh⟩ := sum_map_range hentries
      have hlength : (phases.items CostAttemptPhase.all).length ≤ 3 :=
        List.length_filterMap_le _ CostAttemptPhase.all
      simp only [retryCount, hphases]
      refine ⟨hlow, hhigh.trans ?_⟩
      omega

variable {s : CostLedgerState} {now : Instant}

theorem initialCounters_range (hs : s.Valid) (hcreated : IsDatetime s.createdAt)
    (hnow : IsDatetime now) (hrevision : s.revision ≤ maxCounterValue)
    (key : CounterKey) :
    0 ≤ initialCounters s now key ∧ initialCounters s now key ≤ maxCounterValue := by
  have hzero : (0 : Int) ≤ 0 ∧ (0 : Int) ≤ maxCounterValue := by decide
  have hmax : maxCounterValue = 1000000000000000 := by decide
  cases key with
  | provider p m => exact hzero
  | base counter =>
      cases counter with
      | costSchemaVersion => exact (show (0 : Int) ≤ 1 ∧ 1 ≤ maxCounterValue by decide)
      | costLedgerRevision =>
          have h := hs.revision
          exact ⟨by simp only [initialCounters]; omega, hrevision⟩
      | pricingRevision =>
          have h := hs.pricing.revision
          simp only [initialCounters, hmax]
          omega
      | jobWallElapsedMs => exact wallElapsedMs_range hcreated hnow
      | jobActiveElapsedMs => exact hs.activeElapsed
      | jobAttempts =>
          have h := hs.jobAttempts
          simp only [initialCounters, hmax]
          omega
      | jobRetryCount =>
          have h := retryCount_range hs
          simp only [initialCounters, hmax]
          omega
      | checkpointHitsTotal =>
          have h := hs.checkpointHits
          simp only [initialCounters, hmax]
          omega
      | _ => exact hzero

/-- Every counter that is no amount of money is in range. -/
theorem counters_range (hs : s.Valid) (hcreated : IsDatetime s.createdAt)
    (hnow : IsDatetime now) (hrevision : s.revision ≤ maxCounterValue)
    {key : CounterKey} (hkey : ¬ key.Money) :
    0 ≤ s.counters now key ∧ s.counters now key ≤ maxCounterValue := by
  have hinitial := initialCounters_range hs hcreated hnow hrevision key
  rcases initial_or_summed s now key with ⟨hdenials, hclaims⟩ | hzero
  · simpa [CostLedgerState.counters, hdenials, hclaims] using hinitial
  · have hdenials := denials_range hs key
    have hclaims := sum_map_range fun claim (hclaim : claim ∈ s.claims) =>
      contribution_range s.pricing (hs.claims claim hclaim) hkey
    have hcount : (s.claims.length : Int) ≤ 100 := by
      exact_mod_cast hs.claimCount
    have hmax : maxCounterValue = 1000000000000000 := by decide
    have hbound : contributionBound = 300000000 := rfl
    simp only [CostLedgerState.denials] at hdenials
    simp only [CostLedgerState.counters, hzero, hmax]
    rw [hbound] at hclaims
    omega

end Range

section Charges

namespace CostLedgerState

/-- What the claims of a provider cost: its price for all the units that they
used, and the known tokens. -/
def spend (s : CostLedgerState) (p : CostProvider) : Int :=
  (s.pricing.requestUsdMicros p).getD 0 *
      ((s.claimsOf p).map CostClaim.billableUnits).sum +
    ((s.claimsOf p).map (CostClaim.tokensCost s.pricing)).sum

theorem counters_spend (s : CostLedgerState) (now : Instant) (p : CostProvider) :
    s.counters now (.provider p .estimatedCostUsdMicros) = s.spend p := by
  rw [counters_claimsOf s now p (by decide), spend, ← List.sum_map_mul_left,
    ← List.sum_map_add]
  refine congrArg List.sum (List.map_congr_left fun claim hclaim => ?_)
  have hp : claim.provider = p := by simpa using (List.mem_filter.1 hclaim).2
  simp [CostClaim.metric, CostClaim.cost, hp]

theorem spend_le_overProviders {s : CostLedgerState} (hspend : ∀ p, 0 ≤ s.spend p)
    (p : CostProvider) : s.spend p ≤ overProviders s.spend := by
  refine List.single_le_sum ?_ _ (List.mem_map_of_mem p.mem_all)
  intro x hx
  obtain ⟨q, _, rfl⟩ := List.mem_map.1 hx
  exact hspend q

/-- A valid ledger has a snapshot exactly when its revision and its charges stay
in the range of the counters. -/
theorem exists_snapshot_iff {s : CostLedgerState} {now : Instant} (hs : s.Valid)
    (hcreated : IsDatetime s.createdAt) (hnow : IsDatetime now) :
    (∃ dict, costCountersFromState s now = .ok dict) ↔
      s.revision ≤ maxCounterValue ∧ (∀ p, 0 ≤ s.spend p) ∧
        overProviders s.spend ≤ maxCounterValue := by
  have htotal : s.counters now (.base .estimatedCostUsdMicros) =
      overProviders s.spend := by
    rw [s.counters_total now (m := .estimatedCostUsdMicros) rfl]
    simp only [counters_spend]
  simp only [costCountersFromState_eq_ok_iff hs, exists_eq_left]
  constructor
  · intro hrange
    refine ⟨?_, fun p => ?_, ?_⟩
    · have h := (hrange (.base .costLedgerRevision)).2
      simpa [counters, initialCounters, denialContribution,
        CostClaim.contribution] using h
    · rw [← s.counters_spend now p]
      exact (hrange _).1
    · rw [← htotal]
      exact (hrange _).2
  · rintro ⟨hrevision, hspend, hsum⟩ key
    by_cases hkey : key.Money
    · cases key with
      | provider p m =>
          cases m with
          | estimatedCostUsdMicros =>
              rw [counters_spend]
              exact ⟨hspend p, (spend_le_overProviders hspend p).trans hsum⟩
          | _ => exact hkey.elim
      | base counter =>
          cases counter with
          | estimatedCostUsdMicros =>
              rw [htotal]
              exact ⟨(hspend .dify).trans (spend_le_overProviders hspend .dify), hsum⟩
          | _ => exact hkey.elim
    · exact counters_range hs hcreated hnow hrevision hkey

end CostLedgerState

/-- The snapshot of a valid ledger is a valid set of counters exactly when the
revision of the ledger fits into a counter, no provider has a negative charge,
and the charges together fit into a counter. -/
theorem snapshot_valid_iff {s : CostLedgerState} {now : Instant} (hs : s.Valid)
    (hcreated : IsDatetime s.createdAt) (hnow : IsDatetime now) :
    (∃ dict, costCountersFromState s now = .ok dict ∧ dict ≠ [] ∧
      ValidCostCounters dict) ↔
      s.revision ≤ maxCounterValue ∧ (∀ p, 0 ≤ s.spend p) ∧
        overProviders s.spend ≤ maxCounterValue := by
  rw [← CostLedgerState.exists_snapshot_iff hs hcreated hnow]
  refine exists_congr fun dict => ⟨And.left, fun h => ⟨h, ?_, ?_⟩⟩
  · obtain ⟨rfl, _⟩ := (CostLedgerState.costCountersFromState_eq_ok_iff hs).1 h
    exact List.cons_ne_nil _ _
  · obtain ⟨rfl, hrange⟩ := (CostLedgerState.costCountersFromState_eq_ok_iff hs).1 h
    exact (Counters.validCostCounters_toDict_iff (s.counters_schema now)).2 hrange

/-- A ledger with one completed workflow at the given price of a million input
tokens. -/
def workflowLedger (price : Int) : CostLedgerState where
  jobId := 1
  pricing := { difyInputMtokUsdMicros := some price }
  createdAt := 0
  updatedAt := 5
  claims := [{
    claimId := 7
    operation := .difyWorkflow
    provider := .dify
    claimedAt := 2
    completedAt := some 5
    outcome := some .success
    durationMs := some 3
    usageKnown := true
    inputTokens := some 100000000
    outputTokens := some 0
    totalTokens := some 100000000 }]

/-- At three dollars for a million tokens the snapshot exists. -/
theorem workflow_snapshot_valid :
    ∃ dict, costCountersFromState (workflowLedger 3000000) 5 = .ok dict ∧
      dict ≠ [] ∧ ValidCostCounters dict := by
  refine (snapshot_valid_iff (by decide) ?_ ?_).2 ⟨by decide, ?_, ?_⟩
  · exact ⟨by decide, by decide⟩
  · exact ⟨by decide, by decide⟩
  · intro p
    cases p <;> with_unfolding_all decide
  · with_unfolding_all decide

/-- The highest price that the catalog accepts and the largest number of tokens
that a claim accepts make a charge that the counters reject. -/
theorem highest_price_has_no_snapshot :
    (workflowLedger maxCounterValue).Valid ∧
      costCountersFromState (workflowLedger maxCounterValue) 5 =
        .error .invalidValue := by
  have hs : (workflowLedger maxCounterValue).Valid := by decide
  refine ⟨hs, ?_⟩
  have hnone : ¬ ∃ dict,
      costCountersFromState (workflowLedger maxCounterValue) 5 = .ok dict := by
    rw [CostLedgerState.exists_snapshot_iff hs ⟨by decide, by decide⟩
      ⟨by decide, by decide⟩]
    rintro ⟨_, _, hsum⟩
    exact absurd hsum (by with_unfolding_all decide)
  rw [CostLedgerState.costCountersFromState_eq hs] at hnone ⊢
  split at hnone
  next => exact (hnone ⟨_, rfl⟩).elim
  next hinvalid => rw [if_neg hinvalid]

end Charges

section Conservation

/-- The value of a key of a snapshot. -/
def reading (dict : CostCounters) (key : CounterKey) : Int :=
  (dict.lookup key.text).getD 0

theorem reading_eq {s : CostLedgerState} {now : Instant} (hs : s.Valid)
    {dict : CostCounters} (h : costCountersFromState s now = .ok dict)
    (key : CounterKey) : reading dict key = s.counters now key := by
  obtain ⟨rfl, _⟩ := (CostLedgerState.costCountersFromState_eq_ok_iff hs).1 h
  rw [reading, Counters.lookup_toDict, Option.getD_some]

/-- The keys that claims on a provider can change: its own counters and the
totals, and for Dify the token counters. -/
def CounterKey.Concerns (p : CostProvider) : CounterKey → Prop
  | .provider q _ => q = p
  | .base .difyInputTokens | .base .difyOutputTokens | .base .difyTotalTokens
  | .base .difyUsageUnknownCalls => p = .dify
  | .base counter => ∃ m, totalOf m = some counter

/-- A claim adds nothing to the counters of other providers. -/
theorem contribution_eq_zero {pricing : PricingCatalog} {claim : CostClaim}
    (hclaim : claim.Valid) {key : CounterKey} (hkey : ¬ key.Concerns claim.provider) :
    claim.contribution pricing key = 0 := by
  cases key with
  | provider q m => exact if_neg hkey
  | base counter =>
      have hunknown : claim.provider ≠ .dify → claim.usageKnown = false :=
        hclaim.onlyDify
      cases counter with
      | difyInputTokens => simp [CostClaim.contribution, hunknown hkey]
      | difyOutputTokens => simp [CostClaim.contribution, hunknown hkey]
      | difyTotalTokens => simp [CostClaim.contribution, hunknown hkey]
      | difyUsageUnknownCalls =>
          have hother : claim.provider ≠ .dify := hkey
          simp [CostClaim.contribution, hother]
      | providerAttemptsTotal => exact (hkey ⟨.attempts, rfl⟩).elim
      | providerSuccessesTotal => exact (hkey ⟨.successes, rfl⟩).elim
      | providerFailuresTotal => exact (hkey ⟨.failures, rfl⟩).elim
      | providerOutcomeUnknownTotal => exact (hkey ⟨.outcomeUnknown, rfl⟩).elim
      | estimatedCostUsdMicros => exact (hkey ⟨.estimatedCostUsdMicros, rfl⟩).elim
      | pricingUnknownUnitsTotal => exact (hkey ⟨.pricingUnknownUnits, rfl⟩).elim
      | _ => rfl

theorem contribution_totalOf (pricing : PricingCatalog) (claim : CostClaim)
    {m : ProviderMetric} {total : BaseCounter} (htotal : totalOf m = some total) :
    claim.contribution pricing (.base total) = claim.metric pricing m := by
  cases m with
  | durationMs => cases htotal
  | billableUnits => cases htotal
  | _ =>
      obtain rfl := Option.some.inj htotal
      rfl

/-- Conservation: the totals are sums over the providers, the outcomes of a
provider partition its claims, a claim is counted under its own provider alone,
and one completed claim more changes the counters of its provider and the totals
by what it stands for, and no other counter. -/
theorem snapshot_conserves {s : CostLedgerState} {now : Instant} (hs : s.Valid)
    {dict : CostCounters} (h : costCountersFromState s now = .ok dict) :
    (∀ m total, totalOf m = some total →
      reading dict (.base total) =
        overProviders fun p => reading dict (.provider p m)) ∧
    (∀ p, reading dict (.provider p .attempts) =
        reading dict (.provider p .successes) + reading dict (.provider p .failures) +
          reading dict (.provider p .outcomeUnknown) ∧
      reading dict (.provider p .attempts) = (s.claimsOf p).length) ∧
    (∀ claim ∈ s.claims, ∀ p,
      claim ∈ s.claimsOf p ↔ p = operationProvider claim.operation) ∧
    (∀ (pre post : List CostClaim) (claim : CostClaim) (t : CostLedgerState)
      (dict' : CostCounters), s.claims = pre ++ post →
      t = { s with claims := pre ++ claim :: post } → t.Valid →
      claim.completed = true → costCountersFromState t now = .ok dict' →
      (∀ key, ¬ CounterKey.Concerns claim.provider key →
        reading dict' key = reading dict key) ∧
      (∀ m, reading dict' (.provider claim.provider m) =
        reading dict (.provider claim.provider m) + claim.metric s.pricing m) ∧
      (∀ m total, totalOf m = some total →
        reading dict' (.base total) =
          reading dict (.base total) + claim.metric s.pricing m) ∧
      claim.metric s.pricing .attempts = 1 ∧
      claim.metric s.pricing .successes + claim.metric s.pricing .failures = 1 ∧
      claim.metric s.pricing .outcomeUnknown = 0) := by
  simp only [reading_eq hs h]
  refine ⟨?_, ?_, ?_, ?_⟩
  · intro m total htotal
    exact s.counters_total now htotal
  · intro p
    exact ⟨s.counters_outcomes now p, s.counters_attempts now p⟩
  · intro claim hclaim p
    simp only [CostLedgerState.claimsOf, List.mem_filter, hclaim, true_and,
      decide_eq_true_eq, (hs.claims claim hclaim).provider]
    exact eq_comm
  · intro pre post claim t dict' hsplit ht hvalid hcompleted h'
    have hclaim : claim.Valid := hvalid.claims claim (by simp [ht])
    have hinsert := CostLedgerState.counters_insert hsplit ht now
    simp only [reading_eq hvalid h', hinsert]
    refine ⟨?_, ?_, ?_, rfl, ?_, ?_⟩
    · intro key hkey
      rw [contribution_eq_zero hclaim hkey, add_zero]
    · intro m
      simp [CostClaim.contribution]
    · intro m total htotal
      rw [contribution_totalOf s.pricing claim htotal]
    · obtain ⟨outcome, houtcome⟩ := Option.isSome_iff_exists.1 hcompleted
      cases outcome <;> simp [CostClaim.metric, houtcome]
    · obtain ⟨outcome, houtcome⟩ := Option.isSome_iff_exists.1 hcompleted
      simp [CostClaim.metric, houtcome]

/-- A search that was completed without success. -/
def failedSearch : CostClaim where
  claimId := 8
  operation := .serpapiMarketSearch
  provider := .serpapi
  claimedAt := 3
  completedAt := some 4
  outcome := some .failure
  durationMs := some 1

/-- The ledger with the search in front of the workflow. -/
def searchedLedger : CostLedgerState :=
  { workflowLedger 3000000 with
    claims := failedSearch :: (workflowLedger 3000000).claims }

/-- The search changes the counters of its provider, not those of Dify. -/
theorem failed_search_is_conserved :
    ∃ dict dict' : CostCounters,
      costCountersFromState (workflowLedger 3000000) 5 = .ok dict ∧
      costCountersFromState searchedLedger 5 = .ok dict' ∧
      reading dict' (.provider .serpapi .failures) =
        reading dict (.provider .serpapi .failures) + 1 ∧
      reading dict' (.provider .dify .attempts) =
        reading dict (.provider .dify .attempts) := by
  have hs : (workflowLedger 3000000).Valid := by decide
  have ht : searchedLedger.Valid := by decide
  have hspend : ∀ s : CostLedgerState, s = workflowLedger 3000000 ∨ s = searchedLedger →
      s.revision ≤ maxCounterValue ∧ (∀ p, 0 ≤ s.spend p) ∧
        overProviders s.spend ≤ maxCounterValue := by
    rintro s (rfl | rfl)
    · exact ⟨by decide, fun p => by cases p <;> with_unfolding_all decide, by with_unfolding_all decide⟩
    · exact ⟨by decide, fun p => by cases p <;> with_unfolding_all decide, by with_unfolding_all decide⟩
  have hnow : IsDatetime 5 := ⟨by decide, by decide⟩
  have hcreated : IsDatetime 0 := ⟨by decide, by decide⟩
  obtain ⟨dict, hdict⟩ := (CostLedgerState.exists_snapshot_iff hs hcreated hnow).2
    (hspend _ (Or.inl rfl))
  obtain ⟨dict', hdict'⟩ := (CostLedgerState.exists_snapshot_iff ht hcreated hnow).2
    (hspend _ (Or.inr rfl))
  obtain ⟨hothers, hown, _⟩ := (snapshot_conserves hs hdict).2.2.2 [] _ failedSearch
    searchedLedger dict' rfl rfl ht rfl hdict'
  exact ⟨dict, dict', hdict, hdict', hown .failures,
    hothers (.provider .dify .attempts) (by rintro ⟨⟩)⟩

end Conservation

end SearchTrust.Costs
