/-
The contracts of provider cost accounting: operations with their limits, the
frozen price catalog, claims and the ledger of one job, with their validators.
-/
import SearchTrust.Jobs.Models

namespace SearchTrust.Costs

open SearchTrust.Jobs

/-- `CostProvider`. -/
inductive CostProvider where
  | serpapi
  | firecrawl
  | jina
  | pagespeed
  | gsc
  | ga4
  | gbp
  | dify
deriving DecidableEq, Repr

/-- `PROVIDERS`. -/
def CostProvider.all : List CostProvider :=
  [.serpapi, .firecrawl, .jina, .pagespeed, .gsc, .ga4, .gbp, .dify]

theorem CostProvider.mem_all (p : CostProvider) : p ∈ CostProvider.all := by
  cases p <;> decide

/-- `CostOperation`. -/
inductive CostOperation where
  | serpapiLocation
  | serpapiMarketSearch
  | serpapiPublicProfile
  | serpapiCustomerPublicGbp
  | firecrawlMap
  | firecrawlScrape
  | jinaFetch
  | pagespeedAnalysis
  | gscSearchAnalytics
  | ga4KeyEvents
  | ga4RunReport
  | gbpLocation
  | gbpPerformance
  | gbpKeywords
  | difyWorkflow
deriving DecidableEq, Repr

def CostOperation.all : List CostOperation :=
  [.serpapiLocation, .serpapiMarketSearch, .serpapiPublicProfile,
    .serpapiCustomerPublicGbp, .firecrawlMap, .firecrawlScrape, .jinaFetch,
    .pagespeedAnalysis, .gscSearchAnalytics, .ga4KeyEvents, .ga4RunReport,
    .gbpLocation, .gbpPerformance, .gbpKeywords, .difyWorkflow]

theorem CostOperation.mem_all (op : CostOperation) : op ∈ CostOperation.all := by
  cases op <;> decide

/-- `OPERATION_PROVIDER`. -/
def operationProvider : CostOperation → CostProvider
  | .serpapiLocation => .serpapi
  | .serpapiMarketSearch => .serpapi
  | .serpapiPublicProfile => .serpapi
  | .serpapiCustomerPublicGbp => .serpapi
  | .firecrawlMap => .firecrawl
  | .firecrawlScrape => .firecrawl
  | .jinaFetch => .jina
  | .pagespeedAnalysis => .pagespeed
  | .gscSearchAnalytics => .gsc
  | .ga4KeyEvents => .ga4
  | .ga4RunReport => .ga4
  | .gbpLocation => .gbp
  | .gbpPerformance => .gbp
  | .gbpKeywords => .gbp
  | .difyWorkflow => .dify

/-- `OPERATION_LIMITS`. -/
def operationLimit : CostOperation → Nat
  | .serpapiLocation => 1
  | .serpapiMarketSearch => 30
  | .serpapiPublicProfile => 15
  | .serpapiCustomerPublicGbp => 3
  | .firecrawlMap => 4
  | .firecrawlScrape => 2
  | .jinaFetch => 0
  | .pagespeedAnalysis => 5
  | .gscSearchAnalytics => 12
  | .ga4KeyEvents => 20
  | .ga4RunReport => 8
  | .gbpLocation => 1
  | .gbpPerformance => 1
  | .gbpKeywords => 10
  | .difyWorkflow => 3

/-- `MAX_LEDGER_CLAIMS`. -/
def maxLedgerClaims : Nat := 100

/-- `CostOutcome`. -/
inductive CostOutcome where
  | success
  | failure
deriving DecidableEq, Repr

/-- `CostAttemptPhase`. -/
inductive CostAttemptPhase where
  | job
  | preparation
  | execution
deriving DecidableEq, Repr

def CostAttemptPhase.all : List CostAttemptPhase := [.job, .preparation, .execution]

theorem CostAttemptPhase.mem_all (phase : CostAttemptPhase) :
    phase ∈ CostAttemptPhase.all := by
  cases phase <;> decide

/-- A dictionary over a closed set of keys. -/
abbrev Dict (K : Type) := K → Option Int

namespace Dict

variable {K : Type}

/-- `dict.items()`, with the keys in a fixed order. -/
def items (keys : List K) (d : Dict K) : List (K × Int) :=
  keys.filterMap fun key => (d key).map fun value => (key, value)

/-- `sum(dict.values())`. -/
def total (keys : List K) (d : Dict K) : Int :=
  ((d.items keys).map Prod.snd).sum

/-- `dict[key] = value`. -/
def set [DecidableEq K] (d : Dict K) (key : K) (value : Int) : Dict K :=
  fun k => if k = key then some value else d k

@[simp] theorem set_self [DecidableEq K] (d : Dict K) (key : K) (value : Int) :
    d.set key value key = some value := by
  simp [set]

theorem set_of_ne [DecidableEq K] (d : Dict K) {key k : K} (h : k ≠ key)
    (value : Int) : d.set key value k = d k := by
  simp [set, h]

theorem mem_items {keys : List K} {d : Dict K} {entry : K × Int} :
    entry ∈ d.items keys ↔ entry.1 ∈ keys ∧ d entry.1 = some entry.2 := by
  obtain ⟨key, value⟩ := entry
  simp only [items, List.mem_filterMap, Option.map_eq_some_iff, Prod.mk.injEq]
  constructor
  · rintro ⟨k, hk, v, hv, rfl, rfl⟩
    exact ⟨hk, hv⟩
  · rintro ⟨hk, hv⟩
    exact ⟨key, hk, value, hv, rfl, rfl⟩

end Dict

/-- `PricingCatalog`; the price table has an entry for every provider. -/
structure PricingCatalog where
  revision : Int := 1
  requestUsdMicros : CostProvider → Option Int := fun _ => none
  difyInputMtokUsdMicros : Option Int := none
  difyOutputMtokUsdMicros : Option Int := none

namespace PricingCatalog

/-- A request price has no bound of its own. -/
structure Valid (p : PricingCatalog) : Prop where
  revision : 1 ≤ p.revision ∧ p.revision ≤ 1000000
  inputRate : ∀ rate ∈ p.difyInputMtokUsdMicros, 0 ≤ rate ∧ rate ≤ maxCounterValue
  outputRate : ∀ rate ∈ p.difyOutputMtokUsdMicros, 0 ≤ rate ∧ rate ≤ maxCounterValue

instance (p : PricingCatalog) : Decidable p.Valid :=
  decidable_of_iff
    ((1 ≤ p.revision ∧ p.revision ≤ 1000000) ∧
      (∀ rate ∈ p.difyInputMtokUsdMicros, 0 ≤ rate ∧ rate ≤ maxCounterValue) ∧
      ∀ rate ∈ p.difyOutputMtokUsdMicros, 0 ≤ rate ∧ rate ≤ maxCounterValue)
    ⟨fun ⟨a, b, c⟩ => ⟨a, b, c⟩, fun ⟨a, b, c⟩ => ⟨a, b, c⟩⟩

end PricingCatalog

/-- `CostClaim`. -/
structure CostClaim where
  claimId : UUID
  operation : CostOperation
  provider : CostProvider
  claimedAt : Instant
  completedAt : Option Instant := none
  outcome : Option CostOutcome := none
  durationMs : Option Int := none
  billableUnits : Int := 1
  usageKnown : Bool := false
  inputTokens : Option Int := none
  outputTokens : Option Int := none
  totalTokens : Option Int := none
deriving DecidableEq

namespace CostClaim

def completed (c : CostClaim) : Bool := c.outcome.isSome

/-- Known usage has all three token counts, unknown usage has none. -/
def TokensFit (c : CostClaim) : Prop :=
  if c.usageKnown then
    c.inputTokens.isSome ∧ c.outputTokens.isSome ∧
      c.totalTokens = some (c.inputTokens.getD 0 + c.outputTokens.getD 0)
  else c.inputTokens = none ∧ c.outputTokens = none ∧ c.totalTokens = none

instance (c : CostClaim) : Decidable c.TokensFit := by
  unfold TokensFit
  infer_instance

/-- `validate_claim`, with the bounds that the fields declare. -/
structure Valid (c : CostClaim) : Prop where
  durationMs : ∀ d ∈ c.durationMs, 0 ≤ d ∧ d ≤ 86400000
  billableUnits : 1 ≤ c.billableUnits ∧ c.billableUnits ≤ 1000000
  inputTokens : ∀ t ∈ c.inputTokens, 0 ≤ t ∧ t ≤ 100000000
  outputTokens : ∀ t ∈ c.outputTokens, 0 ≤ t ∧ t ≤ 100000000
  totalTokens : ∀ t ∈ c.totalTokens, 0 ≤ t ∧ t ≤ 200000000
  provider : operationProvider c.operation = c.provider
  completion : c.completedAt.isSome = c.outcome.isSome ∧
    c.outcome.isSome = c.durationMs.isSome
  completedAt : ∀ t ∈ c.completedAt, c.claimedAt ≤ t
  onlyDify : c.provider ≠ .dify → c.usageKnown = false
  tokens : c.TokensFit

instance (c : CostClaim) : Decidable c.Valid :=
  decidable_of_iff
    ((∀ d ∈ c.durationMs, 0 ≤ d ∧ d ≤ 86400000) ∧
      (1 ≤ c.billableUnits ∧ c.billableUnits ≤ 1000000) ∧
      (∀ t ∈ c.inputTokens, 0 ≤ t ∧ t ≤ 100000000) ∧
      (∀ t ∈ c.outputTokens, 0 ≤ t ∧ t ≤ 100000000) ∧
      (∀ t ∈ c.totalTokens, 0 ≤ t ∧ t ≤ 200000000) ∧
      operationProvider c.operation = c.provider ∧
      (c.completedAt.isSome = c.outcome.isSome ∧
        c.outcome.isSome = c.durationMs.isSome) ∧
      (∀ t ∈ c.completedAt, c.claimedAt ≤ t) ∧
      (c.provider ≠ .dify → c.usageKnown = false) ∧ c.TokensFit)
    ⟨fun ⟨a, b, c, d, e, f, g, h, i, j⟩ => ⟨a, b, c, d, e, f, g, h, i, j⟩,
      fun ⟨a, b, c, d, e, f, g, h, i, j⟩ => ⟨a, b, c, d, e, f, g, h, i, j⟩⟩

/-- `CostClaim.model_validate`. -/
def modelValidate (c : CostClaim) : Except JobException CostClaim :=
  if c.Valid then .ok c else .error .invalidValue

theorem modelValidate_eq_ok_iff {c d : CostClaim} :
    c.modelValidate = .ok d ↔ d = c ∧ c.Valid := by
  unfold modelValidate
  by_cases h : c.Valid
  · simp [h, eq_comm]
  · simp [h]

end CostClaim

/-- `schema_version` of a ledger. -/
inductive LedgerSchema where
  | v1
  | v2
deriving DecidableEq, Repr

/-- `CostLedgerState`. -/
structure CostLedgerState where
  schemaVersion : LedgerSchema := .v1
  jobId : UUID
  revision : Int := 1
  pricing : PricingCatalog
  createdAt : Instant
  updatedAt : Instant
  claims : List CostClaim := []
  localDenials : Dict CostOperation := fun _ => none
  checkpointHits : Int := 0
  jobAttempts : Int := 0
  phaseAttempts : Option (Dict CostAttemptPhase) := none
  jobActiveElapsedMs : Int := 0

namespace CostLedgerState

/-- How many claims an operation has. -/
def used (s : CostLedgerState) (op : CostOperation) : Nat :=
  s.claims.countP fun claim => claim.operation = op

/-- `validate_state`, with the bounds that the fields declare. -/
structure Valid (s : CostLedgerState) : Prop where
  revision : 1 ≤ s.revision
  pricing : s.pricing.Valid
  claimCount : s.claims.length ≤ maxLedgerClaims
  claims : ∀ claim ∈ s.claims, claim.Valid
  checkpointHits : 0 ≤ s.checkpointHits ∧ s.checkpointHits ≤ 1000000
  jobAttempts : 0 ≤ s.jobAttempts ∧ s.jobAttempts ≤ 100
  phaseCounts : ∀ phases ∈ s.phaseAttempts, ∀ phase ∈ CostAttemptPhase.all,
    ∀ count ∈ phases phase, 1 ≤ count ∧ count ≤ 100
  activeElapsed : 0 ≤ s.jobActiveElapsedMs ∧ s.jobActiveElapsedMs ≤ maxCounterValue
  updatedAt : s.createdAt ≤ s.updatedAt
  phaseTotal : ∀ phases ∈ s.phaseAttempts,
    phases.total CostAttemptPhase.all = s.jobAttempts
  claimIds : (s.claims.map CostClaim.claimId).Nodup
  localDenials : ∀ op ∈ CostOperation.all, ∀ count ∈ s.localDenials op,
    0 ≤ count ∧ count ≤ 1000000

instance (s : CostLedgerState) : Decidable s.Valid :=
  decidable_of_iff
    (1 ≤ s.revision ∧ s.pricing.Valid ∧ s.claims.length ≤ maxLedgerClaims ∧
      (∀ claim ∈ s.claims, claim.Valid) ∧
      (0 ≤ s.checkpointHits ∧ s.checkpointHits ≤ 1000000) ∧
      (0 ≤ s.jobAttempts ∧ s.jobAttempts ≤ 100) ∧
      (∀ phases ∈ s.phaseAttempts, ∀ phase ∈ CostAttemptPhase.all,
        ∀ count ∈ phases phase, 1 ≤ count ∧ count ≤ 100) ∧
      (0 ≤ s.jobActiveElapsedMs ∧ s.jobActiveElapsedMs ≤ maxCounterValue) ∧
      s.createdAt ≤ s.updatedAt ∧
      (∀ phases ∈ s.phaseAttempts,
        phases.total CostAttemptPhase.all = s.jobAttempts) ∧
      (s.claims.map CostClaim.claimId).Nodup ∧
      ∀ op ∈ CostOperation.all, ∀ count ∈ s.localDenials op,
        0 ≤ count ∧ count ≤ 1000000)
    ⟨fun ⟨a, b, c, d, e, f, g, h, i, j, k, l⟩ => ⟨a, b, c, d, e, f, g, h, i, j, k, l⟩,
      fun ⟨a, b, c, d, e, f, g, h, i, j, k, l⟩ => ⟨a, b, c, d, e, f, g, h, i, j, k, l⟩⟩

/-- `CostLedgerState.model_validate`. -/
def modelValidate (s : CostLedgerState) : Except JobException CostLedgerState :=
  if s.Valid then .ok s else .error .invalidValue

theorem modelValidate_eq_ok_iff {s t : CostLedgerState} :
    s.modelValidate = .ok t ↔ t = s ∧ s.Valid := by
  unfold modelValidate
  by_cases h : s.Valid
  · simp [h, eq_comm]
  · simp [h]

end CostLedgerState

end SearchTrust.Costs
