/-
Claims against the limit of their operation.  The ledger as a whole is bounded
too, so a claim below its own limit can still fail validation.
-/
import SearchTrust.Costs.LedgerRuns

namespace SearchTrust.Costs

open SearchTrust.Jobs SearchTrust.Interleave SearchTrust.Interleave.Program

variable {s : CostLedgerState} {now : Instant} {op : CostOperation} {claimId : UUID}

/-- When a ledger accepts one more claim. -/
theorem CostLedgerState.claimed_valid_iff (hs : s.Valid) (hfresh : s.Fresh claimId) :
    (s.claimed (newClaim op claimId now) now).Valid ↔
      s.claims.length < maxLedgerClaims ∧ s.createdAt ≤ now := by
  constructor
  · intro h
    have hcount := h.claimCount
    simp only [claimed, List.length_append, List.length_singleton] at hcount
    exact ⟨by omega, h.updatedAt⟩
  · rintro ⟨hcount, hcreated⟩
    refine
      { revision := Int.le_add_one hs.revision
        pricing := hs.pricing
        claimCount := ?_
        claims := ?_
        checkpointHits := hs.checkpointHits
        jobAttempts := hs.jobAttempts
        phaseCounts := hs.phaseCounts
        activeElapsed := hs.activeElapsed
        updatedAt := hcreated
        phaseTotal := hs.phaseTotal
        claimIds := ?_
        localDenials := hs.localDenials }
    · simp only [claimed, List.length_append, List.length_singleton]
      omega
    · intro item hitem
      rcases List.mem_append.1 hitem with hold | hnew
      · exact hs.claims item hold
      · obtain rfl := List.mem_singleton.1 hnew
        exact newClaim_valid op claimId now
    · simp only [claimed, List.map_append, List.map_singleton]
      rw [List.nodup_append]
      refine ⟨hs.claimIds, List.nodup_singleton _, ?_⟩
      intro id hid other hother hsame
      obtain ⟨item, hitem, rfl⟩ := List.mem_map.1 hid
      obtain rfl := List.mem_singleton.1 hother
      exact hfresh item hitem hsame

/-- When a ledger accepts one more refusal. -/
theorem CostLedgerState.denied_valid_iff (hs : s.Valid) :
    (s.denied op now).Valid ↔
      (s.localDenials op).getD 0 < 1000000 ∧ s.createdAt ≤ now := by
  constructor
  · intro h
    have hcount := h.localDenials op op.mem_all
      ((s.localDenials op).getD 0 + 1) (by simp [denied])
    exact ⟨by omega, h.updatedAt⟩
  · rintro ⟨hcount, hcreated⟩
    refine
      { revision := Int.le_add_one hs.revision
        pricing := hs.pricing
        claimCount := hs.claimCount
        claims := hs.claims
        checkpointHits := hs.checkpointHits
        jobAttempts := hs.jobAttempts
        phaseCounts := hs.phaseCounts
        activeElapsed := hs.activeElapsed
        updatedAt := hcreated
        phaseTotal := hs.phaseTotal
        claimIds := hs.claimIds
        localDenials := ?_ }
    intro other hother count hmem
    by_cases hop : other = op
    · subst hop
      obtain rfl : (s.localDenials other).getD 0 + 1 = count := by
        simpa [denied] using hmem
      cases hold : s.localDenials other with
      | none => simp
      | some old =>
          have hbound := hs.localDenials other hother old hold
          simp only [hold, Option.getD_some] at hcount ⊢
          omega
    · refine hs.localDenials other hother count ?_
      simpa [denied, Dict.set_of_ne _ hop] using hmem

/-- What a claim under a fresh identifier has to do: a new claim below the limit
of its operation, a recorded refusal at the limit. -/
def ClaimKeepsToLimit (ledger : JobCostLedger) (raw : Option StoredLedger)
    (s : CostLedgerState) (op : CostOperation) (claimId : UUID) (now : Instant) :
    Prop :=
  (s.used op < operationLimit op →
    ∃ t item, ledger.mutateOnce (claimMutation op claimId) raw now =
        .ok (t, some item) ∧ t.claims = s.claims ++ [item]) ∧
  (operationLimit op ≤ s.used op →
    ∃ t, ledger.mutateOnce (claimMutation op claimId) raw now = .ok (t, none) ∧
      t.localDenials op = some ((s.localDenials op).getD 0 + 1) ∧
      (LedgerCall.claim op claimId).deliver none = .error costLimitExceeded)

/-- On a ledger that decodes, both outcomes depend on its validator alone. -/
theorem claimKeepsToLimit_iff {ledger : JobCostLedger}
    {raw : Option StoredLedger} (hdecode : ledger.decode raw now = .ok s)
    (hfresh : s.Fresh claimId) :
    ClaimKeepsToLimit ledger raw s op claimId now ↔
      s.createdAt ≤ now ∧
      (s.used op < operationLimit op → s.claims.length < maxLedgerClaims) ∧
      (operationLimit op ≤ s.used op → (s.localDenials op).getD 0 < 1000000) := by
  have hs := JobCostLedger.decode_valid hdecode
  have hround : ∀ t result, ledger.mutateOnce (claimMutation op claimId) raw now =
      .ok (t, result) ↔
        claimMutation op claimId s now = .ok (t, result) ∧ t.Valid := by
    intro t result
    rw [JobCostLedger.mutateOnce_eq_ok_iff]
    simp [hdecode]
  simp only [ClaimKeepsToLimit, hround, claimMutation_fresh hfresh]
  by_cases hlimit : operationLimit op ≤ s.used op
  · have hnot : ¬ s.used op < operationLimit op := Nat.not_lt.2 hlimit
    simp only [hlimit, hnot, false_implies, true_and, forall_const, ↓reduceIte,
      Except.ok.injEq, Prod.mk.injEq]
    rw [and_comm, ← CostLedgerState.denied_valid_iff hs]
    constructor
    · rintro ⟨t, ⟨⟨rfl, _⟩, hvalid⟩, _, _⟩
      exact hvalid
    · intro hvalid
      exact ⟨_, ⟨⟨rfl, trivial⟩, hvalid⟩, by simp [CostLedgerState.denied], rfl⟩
  · have hused : s.used op < operationLimit op := Nat.lt_of_not_le hlimit
    simp only [hlimit, hused, false_implies, and_true, forall_const, ↓reduceIte,
      Except.ok.injEq, Prod.mk.injEq]
    rw [and_comm, ← CostLedgerState.claimed_valid_iff hs hfresh]
    constructor
    · rintro ⟨t, item, ⟨⟨rfl, _⟩, hvalid⟩, _⟩
      exact hvalid
    · intro hvalid
      exact ⟨_, _, ⟨⟨rfl, rfl⟩, hvalid⟩, rfl⟩

/-- On every ledger that a run reaches, a claim keeps to the limit of its
operation exactly when the clock is not behind the creation of the job, a claim
below the limit finds room in the ledger, and a claim at the limit finds its
refusals below their bound. -/
theorem claim_keeps_to_limit_iff {ι : Type} [DecidableEq ι] {rounds : Nat}
    {ledgers : ι → JobCostLedger}
    {clients : ι → Program ledgerCalls JobException Unit}
    {c : Config ledgerCommands JobException LedgerKey ι}
    (hrun : Run ledgerMachine Anything
      (start LedgerKey.absent (ledgerPool rounds ledgers clients)) c)
    {ledger : JobCostLedger} (hdecode : ledger.decode c.state.value now = .ok s)
    (hfresh : s.Fresh claimId) :
    ClaimKeepsToLimit ledger c.state.value s op claimId now ↔
      s.createdAt ≤ now ∧
      (s.used op < operationLimit op → s.claims.length < maxLedgerClaims) ∧
      (s.used op = operationLimit op → (s.localDenials op).getD 0 < 1000000) := by
  have hlimit := (JobCostLedger.decode_sound (ledger_sound_of_run hrun) hdecode).2 op
  rw [claimKeepsToLimit_iff hdecode hfresh]
  constructor
  · rintro ⟨hcreated, hroom, hdenials⟩
    exact ⟨hcreated, hroom, fun hreached => hdenials hreached.ge⟩
  · rintro ⟨hcreated, hroom, hdenials⟩
    exact ⟨hcreated, hroom, fun hreached => hdenials (hlimit.antisymm hreached)⟩

theorem sampleLedger_decode :
    sampleLedger.decode none 5 = .ok (sampleLedger.newState 5) := by
  have hvalid : (sampleLedger.newState 5).Valid := by decide
  exact CostLedgerState.modelValidate_eq_ok_iff.2 ⟨rfl, hvalid⟩

/-- The first map request of a job is recorded. -/
theorem first_map_request_keeps_to_limit :
    ClaimKeepsToLimit sampleLedger none (sampleLedger.newState 5) .firecrawlMap 7 5 :=
  (claim_keeps_to_limit_iff (c := start LedgerKey.absent
      (ledgerPool 2 (fun _ => sampleLedger) sampleClients)) .refl sampleLedger_decode
    (by rintro claim ⟨⟩)).2 ⟨by decide, fun _ => by decide, fun _ => by decide⟩

section Mix

/-- A client that claims a list of operations, each under its own identifier. -/
def claimAll (items : List (CostOperation × UUID)) :
    Program ledgerCalls JobException Unit :=
  forEach items fun item => do
    let _ ← perform (S := ledgerCalls) (.claim item.1 item.2)
    return ()

variable {c : Config ledgerCommands JobException LedgerKey Unit}

theorem step_command (cmd : LedgerOp) {result : Except JobException cmd.Value}
    {after : LedgerKey} {next : Except JobException cmd.Value →
      Program ledgerCommands JobException Unit}
    (hpool : c.pool () = .call cmd next)
    (hperforms : ledgerMachine.Performs cmd c.state result after) :
    ∃ d, Step ledgerMachine Anything c d ∧ d.state = after ∧
      d.pool () = next result := by
  refine ⟨_, .act (e := ⟨(), cmd, result, c.state, after⟩)
    ⟨⟨next, hpool, rfl⟩, rfl, hperforms, trivial⟩, rfl, ?_⟩
  rw [Config.perform_pool, Function.update_self]

/-- A call that nobody disturbs commits its mutation in the first round. -/
theorem run_serve {ledger : JobCostLedger} {call : LedgerCall}
    {t : CostLedgerState} {result : call.Result}
    {next : Except JobException call.Value →
      Program ledgerCommands JobException Unit}
    (hargs : call.ArgumentsValid)
    (hpool : c.pool () = (ledger.serve 1 call).attempt >>= next)
    (hround : ledger.mutateOnce call.mutation c.state.value now = .ok (t, result)) :
    ∃ d, Run ledgerMachine Anything c d ∧ d.state = c.state.write t ∧
      d.pool () = next (call.deliver result) := by
  rw [JobCostLedger.serve, if_pos hargs] at hpool
  simp only [JobCostLedger.mutate, JobCostLedger.mutateRound, command, perform,
    call_bind, attempt] at hpool
  obtain ⟨c₁, hstep₁, hstate₁, hpool₁⟩ := step_command .watch hpool
    ⟨.served now, rfl⟩
  obtain ⟨c₂, hstep₂, hstate₂, hpool₂⟩ := step_command .clock hpool₁
    ⟨.served now, rfl⟩
  obtain ⟨c₃, hstep₃, hstate₃, hpool₃⟩ := step_command .get hpool₂
    ⟨.served now, rfl⟩
  simp only [hstate₂, hstate₁, ret_bind, hround] at hpool₃
  have hsame : c₃.state = c.state := hstate₃.trans (hstate₂.trans hstate₁)
  have hexec : ledgerMachine.Performs (.execute c.state.version t) c₃.state
      (.ok true) (c.state.write t) :=
    ⟨.served now, by simp [ledgerMachine, LedgerOp.exec, hsame]⟩
  obtain ⟨c₄, hstep₄, hstate₄, hpool₄⟩ := step_command _ hpool₃ hexec
  refine ⟨c₄, ?_, hstate₄, hpool₄.trans ?_⟩
  · exact (((Relation.ReflTransGen.single hstep₁).tail hstep₂).tail hstep₃).tail hstep₄
  · show (ofExcept (call.deliver result)).attempt >>= next = next (call.deliver result)
    cases call.deliver result <;> rfl

/-- Any mix of operations that fits the limits and the ledger is reached. -/
theorem run_claimAll {ledger : JobCostLedger} {items : List (CostOperation × UUID)}
    (hpool : c.pool () = (claimAll items).interpret (ledger.serve 1))
    (hdecode : ledger.decode c.state.value now = .ok s) (hcreated : s.createdAt ≤ now)
    (hfresh : ∀ item ∈ items, s.Fresh item.2) (hids : (items.map Prod.snd).Nodup)
    (hroom : s.claims.length + items.length ≤ maxLedgerClaims)
    (hlimits : ∀ op, s.used op + (items.map Prod.fst).count op ≤ operationLimit op) :
    ∃ d t, Run ledgerMachine Anything c d ∧ ledger.decode d.state.value now = .ok t ∧
      t.claims.map (fun claim => (claim.operation, claim.claimId)) =
        s.claims.map (fun claim => (claim.operation, claim.claimId)) ++ items := by
  induction items generalizing c s with
  | nil => exact ⟨c, s, .refl, hdecode, by simp⟩
  | cons item rest ih =>
      obtain ⟨op, claimId⟩ := item
      have hs := JobCostLedger.decode_valid hdecode
      have hnew : s.Fresh claimId := hfresh _ List.mem_cons_self
      have hused : s.used op < operationLimit op := by
        have h := hlimits op
        simp only [List.map_cons, List.count_cons_self] at h
        omega
      have hcount : s.claims.length < maxLedgerClaims := by
        simp only [List.length_cons] at hroom
        omega
      have hvalid : (s.claimed (newClaim op claimId now) now).Valid :=
        (CostLedgerState.claimed_valid_iff hs hnew).2 ⟨hcount, hcreated⟩
      have hround : ledger.mutateOnce (claimMutation op claimId) c.state.value now =
          .ok (s.claimed (newClaim op claimId now) now,
            some (newClaim op claimId now)) := by
        refine JobCostLedger.mutateOnce_eq_ok_iff.2 ⟨s, hdecode, ?_, hvalid⟩
        rw [claimMutation_fresh hnew, if_neg (Nat.not_le.2 hused)]
      have hargs : (LedgerCall.claim op claimId).ArgumentsValid := trivial
      obtain ⟨d, hrun, hstate, hrest⟩ := run_serve hargs hpool hround
      have hjob : s.jobId = ledger.jobId := JobCostLedger.decode_jobId hdecode
      have hread : ledger.decode d.state.value now =
          .ok (s.claimed (newClaim op claimId now) now) := by
        rw [hstate]
        exact JobCostLedger.decode_of_valid hvalid hjob now
      have hfresh' : ∀ item ∈ rest,
          (s.claimed (newClaim op claimId now) now).Fresh item.2 := by
        intro item hitem claim hclaim
        rcases List.mem_append.1 hclaim with hold | hlast
        · exact hfresh item (List.mem_cons_of_mem _ hitem) claim hold
        · obtain rfl := List.mem_singleton.1 hlast
          intro hsame
          exact (List.nodup_cons.1 hids).1 (List.mem_map.2 ⟨item, hitem, hsame.symm⟩)
      have hroom' : (s.claimed (newClaim op claimId now) now).claims.length +
          rest.length ≤ maxLedgerClaims := by
        simp only [CostLedgerState.claimed, List.length_append, List.length_singleton]
        simp only [List.length_cons] at hroom
        omega
      have hlimits' : ∀ other, (s.claimed (newClaim op claimId now) now).used other +
          (rest.map Prod.fst).count other ≤ operationLimit other := by
        intro other
        have h := hlimits other
        rw [CostLedgerState.used_claimed]
        by_cases hop : op = other
        · simp only [List.map_cons, List.count_cons, hop, beq_self_eq_true,
            ↓reduceIte] at h
          simp only [newClaim, hop, ↓reduceIte]
          omega
        · simpa [List.count_cons, newClaim, hop] using h
      obtain ⟨d', t, hrun', hdecode', hitems⟩ :=
        ih hrest hread hcreated hfresh' (List.nodup_cons.1 hids).2 hroom' hlimits'
      refine ⟨d', t, hrun.trans hrun', hdecode', hitems.trans ?_⟩
      simp [CostLedgerState.claimed, newClaim]

/-- One hundred claims, each operation within its own limit. -/
def fullMix : List CostOperation :=
  List.replicate 30 .serpapiMarketSearch ++
    List.replicate 20 .ga4KeyEvents ++
    List.replicate 15 .serpapiPublicProfile ++
    List.replicate 12 .gscSearchAnalytics ++
    List.replicate 10 .gbpKeywords ++
    List.replicate 8 .ga4RunReport ++
    List.replicate 5 .pagespeedAnalysis

def fullMixStart : Config ledgerCommands JobException LedgerKey Unit :=
  start LedgerKey.absent
    (ledgerPool 1 (fun _ => sampleLedger) fun _ => claimAll fullMix.zipIdx)

/-- A run fills the ledger although no operation passes its limit. -/
theorem fullMix_reached :
    ∃ (c : Config ledgerCommands JobException LedgerKey Unit) (s : CostLedgerState),
      Run ledgerMachine Anything fullMixStart c ∧
      sampleLedger.decode c.state.value 5 = .ok s ∧
      s.claims.length = maxLedgerClaims ∧ s.Fresh 100 ∧ s.used .firecrawlMap = 0 := by
  have hids : (fullMix.zipIdx.map Prod.snd).Nodup := by
    rw [List.zipIdx_map_snd]
    exact List.nodup_range'
  have hlimits : ∀ op, (sampleLedger.newState 5).used op +
      (fullMix.zipIdx.map Prod.fst).count op ≤ operationLimit op := by
    intro op
    rw [List.zipIdx_map_fst]
    cases op <;> decide
  obtain ⟨c, s, hrun, hread, hitems⟩ := run_claimAll (c := fullMixStart) rfl
    sampleLedger_decode
    (by decide) (fun _ _ => by rintro claim ⟨⟩) hids (by decide) hlimits
  have hall : s.claims.map (fun claim => (claim.operation, claim.claimId)) =
      fullMix.zipIdx := hitems
  have hops : s.claims.map CostClaim.operation = fullMix := by
    have h := congrArg (List.map Prod.fst) hall
    rwa [List.map_map, List.zipIdx_map_fst] at h
  refine ⟨c, s, hrun, hread, ?_, ?_, ?_⟩
  · have h := congrArg List.length hops
    rwa [List.length_map] at h
  · intro claim hclaim hid
    have hmem : (claim.operation, claim.claimId) ∈ fullMix.zipIdx := by
      rw [← hall]
      exact List.mem_map_of_mem hclaim
    rw [hid, List.mk_mem_zipIdx_iff_getElem?] at hmem
    have hnone : fullMix[100]? = none := by decide
    rw [hnone] at hmem
    cases hmem
  · rw [CostLedgerState.used_eq_count, hops]
    decide

/-- The first map request, allowed four times, fails validation on a full ledger
and is reported as an invalid analysis request. -/
theorem full_ledger_rejects_first_map_request :
    ∃ (c : Config ledgerCommands JobException LedgerKey Unit) (s : CostLedgerState),
      Run ledgerMachine Anything fullMixStart c ∧
      sampleLedger.decode c.state.value 5 = .ok s ∧
      s.Fresh 100 ∧ s.used .firecrawlMap < operationLimit .firecrawlMap ∧
      sampleLedger.mutateOnce (claimMutation .firecrawlMap 100) c.state.value 5 =
        .error .invalidValue ∧
      (classifyJobException .invalidValue).errorCode = "V22_INPUT_INVALID" ∧
      ¬ ClaimKeepsToLimit sampleLedger c.state.value s .firecrawlMap 100 5 := by
  obtain ⟨c, s, hrun, hread, hfull, hfresh, hused⟩ := fullMix_reached
  have hbelow : s.used .firecrawlMap < operationLimit .firecrawlMap := by
    rw [hused]
    decide
  have hs := JobCostLedger.decode_valid hread
  have hclaim : claimMutation .firecrawlMap 100 s 5 =
      .ok (s.claimed (newClaim .firecrawlMap 100 5) 5,
        some (newClaim .firecrawlMap 100 5)) := by
    rw [claimMutation_fresh hfresh, if_neg (Nat.not_le.2 hbelow)]
  have hinvalid : ¬ (s.claimed (newClaim .firecrawlMap 100 5) 5).Valid := by
    rw [CostLedgerState.claimed_valid_iff hs hfresh, hfull]
    exact fun h => (Nat.lt_irrefl _ h.1)
  have hround := JobCostLedger.mutateOnce_invalid hread hclaim hinvalid
  refine ⟨c, s, hrun, hread, hfresh, hbelow, hround, rfl, fun hkeeps => ?_⟩
  obtain ⟨t, item, hok, _⟩ := hkeeps.1 hbelow
  rw [hround] at hok
  cases hok

end Mix

end SearchTrust.Costs
