/-
The decisions of the market rules: each is made once for every type of results of every
query, and triggers exactly on what the sample shows.
-/
import SearchTrust.Findings.Market

namespace SearchTrust.Findings

open SearchTrust.Market (SerpMarketResultRecord SerpRankSource SerpResultType)
open SearchTrust.Order
open SearchTrust.Report (EvaluationState)
open SearchTrust.Report.Outcomes

section Decisions

variable {lib : FindingsLibrary} {view : EvidenceView} {context : MarketContext}

/-- The evidence of a list is in the index. -/
def EvidenceView.Holds (view : EvidenceView) (keys : List String) : Prop :=
  ∀ key ∈ keys, (view.items.lookup key).isSome

theorem EvidenceView.Holds.append {keys more : List String} (h : view.Holds keys)
    (hmore : view.Holds more) : view.Holds (keys ++ more) := by
  intro key hkey
  rcases List.mem_append.1 hkey with hkey | hkey
  · exact h key hkey
  · exact hmore key hkey

theorem EvidenceView.holds_nil : view.Holds [] := fun _ h => absurd h List.not_mem_nil

theorem EvidenceView.Holds.sortedSet {keys : List String} (h : view.Holds keys) :
    view.Holds (sortedSet keys) := fun key hkey => h key (mem_sortedSet.1 hkey)

theorem EvidenceView.Holds.notes {keys : List String} (h : view.Holds keys) :
    ∃ notes, view.notes keys = .ok notes := by
  obtain ⟨notes, hnotes⟩ := mapM_isOk (f := view.notesOf) (l := keys) fun key hkey => by
    obtain ⟨item, hitem⟩ := Option.isSome_iff_exists.1 (h key hkey)
    refine ⟨limited item.limitations ++ (view.source.map summaryLimitations).getD [], ?_⟩
    rw [EvidenceView.notesOf, hitem]
  exact ⟨SearchTrust.Order.sortedSet notes.flatten, by rw [EvidenceView.notes, hnotes]; rfl⟩

/-- An outcome with the rule, the target and the state of its decision. -/
structure Decides (rule : MarketRule) (target : RuleTarget) (state : EvaluationState)
    (reason : EvaluationReason) (outcome : RuleOutcome) : Prop where
  rule : outcome.evaluation.rule = rule
  target : outcome.evaluation.target = target
  state : outcome.evaluation.state = state
  reason : outcome.evaluation.reason = reason

/-- A decision is made where its evidence is in the index, and where a rule that triggers
has evidence. -/
theorem decision_ok {rule : MarketRule} {target : RuleTarget} {state : EvaluationState}
    {reason : EvaluationReason} {evidence comparators : List String} {statement : String}
    {notes : List String} (hevidence : view.Holds evidence) (hcomparators : view.Holds comparators)
    (htriggered : state = .triggered → evidence ≠ [] ∧ statement ≠ "") :
    ∃ outcome, decision lib view context rule target state reason evidence comparators statement
      notes = .ok outcome ∧ Decides rule target state reason outcome := by
  obtain ⟨found, hfound⟩ := (hevidence.sortedSet.append hcomparators.sortedSet).notes
  have hfinding : ∃ finding, decisionFinding lib view context rule target state
      (sortedSet evidence) (sortedSet comparators) statement
      (sortedSet (sampleNote :: notes ++ found)) = .ok finding := by
    unfold decisionFinding
    split
    next hstate =>
      obtain ⟨hne, hstatement⟩ := htriggered hstate
      rw [if_neg]
      · exact ⟨_, rfl⟩
      · rintro (hnil | hempty)
        · exact hne (sortedSet_eq_nil_iff.1 hnil)
        · exact hstatement hempty
    next => exact ⟨_, rfl⟩
  obtain ⟨finding, hfinding⟩ := hfinding
  have hrun : decision lib view context rule target state reason evidence comparators statement
      notes = .ok ⟨⟨rule, target, state, reason, sortedSet evidence, sortedSet comparators,
        finding.map (·.findingId), sortedSet (sampleNote :: notes ++ found)⟩, finding⟩ := by
    simp only [decision, hfound, ok_bind, hfinding]
    rfl
  exact ⟨_, hrun, rfl, rfl, rfl, rfl⟩

theorem exists_of_decides {rule : MarketRule} {target : RuleTarget} {state : EvaluationState}
    {reason : EvaluationReason} {x : Except FindingsError RuleOutcome} {p : RuleOutcome → Prop}
    (h : ∃ outcome, x = .ok outcome ∧ Decides rule target state reason outcome)
    (hp : ∀ outcome, Decides rule target state reason outcome → p outcome) :
    ∃ outcome, x = .ok outcome ∧ p outcome := by
  obtain ⟨outcome, hrun, hdecides⟩ := h
  exact ⟨outcome, hrun, hp outcome hdecides⟩

theorem EvidenceView.holds_refs (view : EvidenceView) (path : Path) :
    view.Holds (view.refs lib.evidenceId path) := by
  intro key hkey
  have hevidence := (List.mem_filter.1 (mem_sortedSet.1 hkey)).2
  rw [EvidenceView.isEvidence] at hevidence
  cases hlookup : view.items.lookup key with
  | none => simp [hlookup] at hevidence
  | some item => rfl

theorem EvidenceView.holds_fieldRefs (hindexed : Indexed lib.evidenceId view.items view.observed)
    (base : Path) (fields : List String) :
    view.Holds (view.fieldRefs lib.evidenceId base fields) := by
  intro key hkey
  obtain ⟨field, -, hkey⟩ := List.mem_flatMap.1 (mem_sortedSet.1 hkey)
  rcases List.mem_append.1 hkey with hkey | hkey
  · exact view.holds_refs _ key hkey
  · obtain ⟨entry, hentry, rfl⟩ := List.mem_map.1 hkey
    rw [hindexed.holds entry (List.mem_filter.1 hentry).1]
    rfl

theorem EvidenceView.holds_requiredRefs {path : Path} {keys : List String}
    (h : view.requiredRefs lib.evidenceId path = .ok keys) : view.Holds keys ∧ keys ≠ [] := by
  unfold EvidenceView.requiredRefs at h
  split at h
  next => cases h
  next hne =>
    cases h
    exact ⟨view.holds_refs path, hne⟩

/-- A place with an observation that is no gap has references. -/
theorem EvidenceView.requiredRefs_ok (hindexed : Indexed lib.evidenceId view.items view.observed)
    {path : Path} {observation : Observation} (hmem : (path, observation) ∈ view.observed)
    (hsource : observation.sourceType ≠ .coverage) :
    ∃ keys, view.requiredRefs lib.evidenceId path = .ok keys := by
  have hkey : lib.evidenceId observation ∈ view.refs lib.evidenceId path := by
    refine mem_sortedSet.2 (List.mem_filter.2 ⟨List.mem_map.2 ⟨(path, observation),
      List.mem_filter.2 ⟨hmem, by simp⟩, rfl⟩, ?_⟩)
    rw [EvidenceView.isEvidence, hindexed.holds _ hmem]
    simpa using hsource
  refine ⟨view.refs lib.evidenceId path, if_neg ?_⟩
  intro hnil
  rw [hnil] at hkey
  cases hkey

end Decisions

section Positions

variable {lib : FindingsLibrary} {view : EvidenceView} {index : ℕ}
  {records : List (SerpMarketResultRecord × ℕ)} {domain : String}

/-- A domain has one rank basis in a sample, and this best position. -/
def Placed (lib : FindingsLibrary) (sample : List SerpMarketResultRecord) (domain : String)
    (basis : SerpRankSource) (position : ℤ) : Prop :=
  (∀ record ∈ sample, hostOf lib record = some domain →
    record.rankSource = basis ∧ position ≤ record.position) ∧
  ∃ record ∈ sample, hostOf lib record = some domain ∧ record.position = position

theorem Placed.unique {sample : List SerpMarketResultRecord} {basis basis' : SerpRankSource}
    {position position' : ℤ} (h : Placed lib sample domain basis position)
    (h' : Placed lib sample domain basis' position') : basis = basis' ∧ position = position' := by
  obtain ⟨record, hmem, hhost, hposition⟩ := h.2
  obtain ⟨record', hmem', hhost', hposition'⟩ := h'.2
  have hbasis := (h.1 record hmem hhost).1
  have hbasis' := (h'.1 record hmem hhost).1
  have hle := (h.1 record' hmem' hhost').2
  have hle' := (h'.1 record hmem hhost).2
  exact ⟨hbasis.symm.trans hbasis', by omega⟩

theorem dedup_eq_singleton_iff {α : Type*} [DecidableEq α] {items : List α} {a : α} :
    items.dedup = [a] ↔ items ≠ [] ∧ ∀ b ∈ items, b = a := by
  constructor
  · intro h
    refine ⟨?_, fun b hb => ?_⟩
    · rintro rfl
      cases h
    · have hmem := List.mem_dedup.2 hb
      rw [h] at hmem
      exact List.mem_singleton.1 hmem
  · rintro ⟨hne, hall⟩
    have hmem : a ∈ items.dedup := by
      obtain ⟨b, hb⟩ := List.exists_mem_of_ne_nil _ hne
      exact List.mem_dedup.2 (hall b hb ▸ hb)
    refine List.perm_singleton.1 ((List.perm_ext_iff_of_nodup (List.nodup_dedup _)
      (List.nodup_singleton a)).2 fun b => ?_)
    rw [List.mem_singleton]
    refine ⟨fun hb => hall b (List.mem_dedup.1 hb), ?_⟩
    rintro rfl
    exact hmem

theorem mem_rowsOf {entry : SerpMarketResultRecord × ℕ} :
    entry ∈ rowsOf lib records domain ↔ entry ∈ records ∧ hostOf lib entry.1 = some domain := by
  simp [rowsOf]

/-- The position of a domain is found exactly where it has one rank basis. -/
theorem positionOf_some_iff {basis : SerpRankSource} {position : ℤ} :
    (∃ refs, positionOf lib view index records domain = some ⟨position, basis, refs⟩) ↔
      Placed lib (records.map Prod.fst) domain basis position := by
  have hbasis : ((rowsOf lib records domain).map fun entry => entry.1.rankSource).dedup =
      [basis] ↔ _ := dedup_eq_singleton_iff
  have hmin : ((rowsOf lib records domain).map fun entry => entry.1.position).min? =
      some position ↔ _ := List.min?_eq_some_iff
  constructor
  · rintro ⟨refs, h⟩
    unfold positionOf at h
    dsimp only at h
    split at h
    next basis' minimum hbasis' hmin' =>
      simp only [Option.some.injEq, DomainPosition.mk.injEq] at h
      obtain ⟨rfl, rfl, -⟩ := h
      obtain ⟨-, hsame⟩ := hbasis.1 hbasis'
      obtain ⟨hmem, hleast⟩ := hmin.1 hmin'
      refine ⟨?_, ?_⟩
      · intro record hrecord hhost
        obtain ⟨entry, hentry, rfl⟩ := List.mem_map.1 hrecord
        have hrow : entry ∈ rowsOf lib records domain := mem_rowsOf.2 ⟨hentry, hhost⟩
        exact ⟨hsame _ (List.mem_map_of_mem hrow), hleast _ (List.mem_map_of_mem hrow)⟩
      · obtain ⟨entry, hentry, hposition⟩ := List.mem_map.1 hmem
        obtain ⟨hmem, hhost⟩ := mem_rowsOf.1 hentry
        exact ⟨entry.1, List.mem_map_of_mem hmem, hhost, hposition⟩
    next => cases h
  · rintro ⟨hall, record, hrecord, hhost, hposition⟩
    obtain ⟨entry, hentry, rfl⟩ := List.mem_map.1 hrecord
    have hrow : entry ∈ rowsOf lib records domain := mem_rowsOf.2 ⟨hentry, hhost⟩
    have hbasis' := hbasis.2 ⟨List.ne_nil_of_mem (List.mem_map_of_mem hrow), by
      rintro other hother
      obtain ⟨entry', hentry', rfl⟩ := List.mem_map.1 hother
      obtain ⟨hmem', hhost'⟩ := mem_rowsOf.1 hentry'
      exact (hall _ (List.mem_map_of_mem hmem') hhost').1⟩
    have hmin' := hmin.2 ⟨List.mem_map.2 ⟨entry, hrow, hposition⟩, by
      rintro other hother
      obtain ⟨entry', hentry', rfl⟩ := List.mem_map.1 hother
      obtain ⟨hmem', hhost'⟩ := mem_rowsOf.1 hentry'
      exact (hall _ (List.mem_map_of_mem hmem') hhost').2⟩
    unfold positionOf
    simp only [hbasis', hmin']
    exact ⟨_, rfl⟩

theorem Placed.positionOf (view : EvidenceView) (index : ℕ) {basis : SerpRankSource}
    {position : ℤ} (h : Placed lib (records.map Prod.fst) domain basis position) :
    ∃ refs, positionOf lib view index records domain = some ⟨position, basis, refs⟩ :=
  positionOf_some_iff.2 h

theorem mem_domainsOf :
    domain ∈ domainsOf lib records ↔ ∃ entry ∈ records, hostOf lib entry.1 = some domain := by
  rw [domainsOf, List.mem_dedup, List.mem_filterMap]

theorem Placed.mem_domainsOf {basis : SerpRankSource} {position : ℤ}
    (h : Placed lib (records.map Prod.fst) domain basis position) :
    domain ∈ domainsOf lib records := by
  obtain ⟨record, hrecord, hhost, -⟩ := h.2
  obtain ⟨entry, hentry, rfl⟩ := List.mem_map.1 hrecord
  exact Findings.mem_domainsOf.2 ⟨entry, hentry, hhost⟩

theorem mem_positionsOf {position : DomainPosition} :
    (domain, position) ∈ positionsOf lib view index records ↔
      positionOf lib view index records domain = some position := by
  rw [positionsOf, List.mem_filterMap]
  constructor
  · rintro ⟨other, -, h⟩
    obtain ⟨found, hfound, heq⟩ := Option.map_eq_some_iff.1 h
    cases heq
    exact hfound
  · intro h
    refine ⟨domain, (positionOf_some_iff.1 ⟨position.refs, h⟩).mem_domainsOf, ?_⟩
    rw [h]
    rfl

theorem nodup_positionsOf : ((positionsOf lib view index records).map Prod.fst).Nodup := by
  rw [positionsOf, List.map_filterMap]
  refine List.Nodup.filterMap (fun a a' b hb hb' => ?_) (List.nodup_dedup _)
  simp only [Option.mem_def, Option.map_map, Option.map_eq_some_iff, Function.comp_apply] at hb hb'
  obtain ⟨_, -, rfl⟩ := hb
  obtain ⟨_, -, heq⟩ := hb'
  exact heq.symm

end Positions

section Comparison

variable {lib : FindingsLibrary} {view : EvidenceView} {context : MarketContext} {index : ℕ}
  {run : SerpQueryRun} {kind : SerpResultType} {client : DomainPosition}

/-- The results of a type in a run. -/
def sampleOf (run : SerpQueryRun) (kind : SerpResultType) : List SerpMarketResultRecord :=
  (run.recordsOf kind).map Prod.fst

/-- A competitor and the client have one rank basis each, the same one. -/
def Comparable (lib : FindingsLibrary) (context : MarketContext)
    (sample : List SerpMarketResultRecord) (competitor : ConfirmedCompetitor) : Prop :=
  ∃ basis position clientPosition,
    Placed lib sample (lib.host competitor.websiteUrl) basis position ∧
      Placed lib sample (clientHost lib context) basis clientPosition

/-- A comparable competitor has a best position before the best one of the client. -/
def AheadOf (lib : FindingsLibrary) (context : MarketContext)
    (sample : List SerpMarketResultRecord) (competitor : ConfirmedCompetitor) : Prop :=
  ∃ basis position clientPosition,
    Placed lib sample (lib.host competitor.websiteUrl) basis position ∧
      Placed lib sample (clientHost lib context) basis clientPosition ∧
      position < clientPosition

/-- Two competitors are ahead of the client. -/
def TwoAhead (lib : FindingsLibrary) (context : MarketContext)
    (sample : List SerpMarketResultRecord) : Prop :=
  ∃ first ∈ context.competitors, ∃ second ∈ context.competitors, first ≠ second ∧
    AheadOf lib context sample first ∧ AheadOf lib context sample second

theorem two_le_length_iff {α : Type*} {items : List α} (h : items.Nodup) :
    2 ≤ items.length ↔ ∃ a ∈ items, ∃ b ∈ items, a ≠ b := by
  constructor
  · match items, h with
    | [], _ => simp
    | [_], _ => simp
    | a :: b :: _, h =>
        exact fun _ => ⟨a, by simp, b, by simp, fun hab => (List.nodup_cons.1 h).1 (hab ▸ by simp)⟩
  · rintro ⟨a, ha, b, hb, hne⟩
    match items with
    | [] => cases ha
    | [c] => exact absurd ((List.mem_singleton.1 ha).trans (List.mem_singleton.1 hb).symm) hne
    | _ :: _ :: _ => simp

theorem mem_competitorHosts {domain : String} :
    domain ∈ competitorHosts lib context ↔
      ∃ competitor ∈ context.competitors, lib.host competitor.websiteUrl = domain := by
  rw [competitorHosts, List.mem_dedup, List.mem_map]

theorem mem_comparable {domain : String} :
    domain ∈ (comparablePositions lib view context index run kind client).map Prod.fst ↔
      domain ∈ competitorHosts lib context ∧
        ∃ position, Placed lib (sampleOf run kind) domain client.basis position := by
  constructor
  · intro h
    obtain ⟨⟨_, found⟩, hfound, rfl⟩ := List.mem_map.1 h
    obtain ⟨hmem, hcondition⟩ := List.mem_filter.1 hfound
    simp only [Bool.and_eq_true, decide_eq_true_eq] at hcondition
    refine ⟨hcondition.1, found.position, ?_⟩
    rw [← hcondition.2]
    exact positionOf_some_iff.1 ⟨found.refs, mem_positionsOf.1 hmem⟩
  · rintro ⟨hhost, position, hplaced⟩
    obtain ⟨refs, hfound⟩ := Placed.positionOf view index hplaced
    refine List.mem_map.2 ⟨(domain, ⟨position, client.basis, refs⟩), List.mem_filter.2
      ⟨mem_positionsOf.2 hfound, ?_⟩, rfl⟩
    simp [hhost]

theorem mem_leading {domain : String} :
    domain ∈ (leadingPositions lib view context index run kind client).map Prod.fst ↔
      domain ∈ competitorHosts lib context ∧
        ∃ position, Placed lib (sampleOf run kind) domain client.basis position ∧
          position < client.position := by
  constructor
  · intro h
    obtain ⟨⟨_, found⟩, hfound, rfl⟩ := List.mem_map.1 h
    obtain ⟨hcomparable, hless⟩ := List.mem_filter.1 hfound
    obtain ⟨hmem, hcondition⟩ := List.mem_filter.1 hcomparable
    simp only [Bool.and_eq_true, decide_eq_true_eq] at hcondition hless
    refine ⟨hcondition.1, found.position, ?_, hless⟩
    rw [← hcondition.2]
    exact positionOf_some_iff.1 ⟨found.refs, mem_positionsOf.1 hmem⟩
  · rintro ⟨hhost, position, hplaced, hless⟩
    obtain ⟨refs, hfound⟩ := Placed.positionOf view index hplaced
    refine List.mem_map.2 ⟨(domain, ⟨position, client.basis, refs⟩), List.mem_filter.2
      ⟨List.mem_filter.2 ⟨mem_positionsOf.2 hfound, ?_⟩, ?_⟩, rfl⟩
    · simp [hhost]
    · simpa using hless

theorem nodup_comparable :
    ((comparablePositions lib view context index run kind client).map Prod.fst).Nodup :=
  nodup_positionsOf.sublist (List.filter_sublist.map _)

theorem nodup_leading :
    ((leadingPositions lib view context index run kind client).map Prod.fst).Nodup :=
  nodup_comparable.sublist (List.filter_sublist.map _)

/-- The confirmed competitors have different domains. -/
def DomainsDiffer (lib : FindingsLibrary) (context : MarketContext) : Prop :=
  (context.competitors.map fun competitor => lib.host competitor.websiteUrl).Nodup

theorem DomainsDiffer.injective (h : DomainsDiffer lib context) {first second : ConfirmedCompetitor}
    (hfirst : first ∈ context.competitors) (hsecond : second ∈ context.competitors)
    (heq : lib.host first.websiteUrl = lib.host second.websiteUrl) : first = second :=
  List.inj_on_of_nodup_map h hfirst hsecond heq

variable (hclient : Placed lib (sampleOf run kind) (clientHost lib context) client.basis
  client.position)

include hclient

theorem aheadOf_iff {competitor : ConfirmedCompetitor} :
    AheadOf lib context (sampleOf run kind) competitor ↔
      ∃ position, Placed lib (sampleOf run kind) (lib.host competitor.websiteUrl) client.basis
        position ∧ position < client.position := by
  constructor
  · rintro ⟨basis, position, clientPosition, hplaced, hclient', hless⟩
    obtain ⟨rfl, rfl⟩ := hclient'.unique hclient
    exact ⟨position, hplaced, hless⟩
  · rintro ⟨position, hplaced, hless⟩
    exact ⟨client.basis, position, client.position, hplaced, hclient, hless⟩

theorem comparable_iff {competitor : ConfirmedCompetitor} :
    Comparable lib context (sampleOf run kind) competitor ↔
      ∃ position, Placed lib (sampleOf run kind) (lib.host competitor.websiteUrl) client.basis
        position := by
  constructor
  · rintro ⟨basis, position, clientPosition, hplaced, hclient'⟩
    obtain ⟨rfl, rfl⟩ := hclient'.unique hclient
    exact ⟨position, hplaced⟩
  · rintro ⟨position, hplaced⟩
    exact ⟨client.basis, position, client.position, hplaced, hclient⟩

/-- Two domains lead exactly where two competitors are ahead. -/
theorem two_le_leading_iff (hdomains : DomainsDiffer lib context) :
    2 ≤ (leadingPositions lib view context index run kind client).length ↔
      TwoAhead lib context (sampleOf run kind) := by
  rw [← List.length_map (f := Prod.fst), two_le_length_iff nodup_leading]
  constructor
  · rintro ⟨a, ha, b, hb, hne⟩
    obtain ⟨hhost, hahead⟩ := mem_leading.1 ha
    obtain ⟨hhost', hahead'⟩ := mem_leading.1 hb
    obtain ⟨first, hfirst, rfl⟩ := mem_competitorHosts.1 hhost
    obtain ⟨second, hsecond, rfl⟩ := mem_competitorHosts.1 hhost'
    exact ⟨first, hfirst, second, hsecond, fun h => hne (h ▸ rfl),
      (aheadOf_iff hclient).2 hahead, (aheadOf_iff hclient).2 hahead'⟩
  · rintro ⟨first, hfirst, second, hsecond, hne, hahead, hahead'⟩
    refine ⟨lib.host first.websiteUrl, mem_leading.2 ⟨mem_competitorHosts.2 ⟨first, hfirst, rfl⟩,
      (aheadOf_iff hclient).1 hahead⟩, lib.host second.websiteUrl, mem_leading.2
      ⟨mem_competitorHosts.2 ⟨second, hsecond, rfl⟩, (aheadOf_iff hclient).1 hahead'⟩, ?_⟩
    exact fun heq => hne (hdomains.injective hfirst hsecond heq)

/-- Where as many domains are comparable as are confirmed, all competitors are. -/
theorem comparable_of_length
    (hlength : (comparablePositions lib view context index run kind client).length =
      (competitorHosts lib context).length) {competitor : ConfirmedCompetitor}
    (hmem : competitor ∈ context.competitors) :
    Comparable lib context (sampleOf run kind) competitor := by
  have hsubperm : ((comparablePositions lib view context index run kind client).map
      Prod.fst).Subperm (competitorHosts lib context) :=
    List.subperm_of_subset nodup_comparable fun domain hdomain => (mem_comparable.1 hdomain).1
  have hperm := hsubperm.perm_of_length_le (by rw [List.length_map, hlength])
  have hhost := hperm.mem_iff.2 (mem_competitorHosts.2 ⟨competitor, hmem, rfl⟩)
  exact (comparable_iff hclient).2 (mem_comparable.1 hhost).2

end Comparison

section Outcomes

variable {lib : FindingsLibrary} {view : EvidenceView} {context : MarketContext}
  {source : SerpSource} {index : ℕ} {run : SerpQueryRun} {kind : SerpResultType} {sampling : Bool}
  {callRefs urlRefs : List String}

/-- All results of a sample show a URL, and none the host of the client. -/
def Unobserved (lib : FindingsLibrary) (context : MarketContext)
    (sample : List SerpMarketResultRecord) : Prop :=
  ∀ record ∈ sample, ∃ url, record.url = some url ∧ lib.host url ≠ clientHost lib context

theorem unobserved_iff :
    Unobserved lib context (sampleOf run kind) ↔
      (run.recordsOf kind).any (·.1.url.isNone) = false ∧
        clientHost lib context ∉ domainsOf lib (run.recordsOf kind) := by
  rw [mem_domainsOf, List.any_eq_false]
  constructor
  · intro h
    refine ⟨fun entry hentry hnone => ?_, ?_⟩
    · obtain ⟨url, hurl, -⟩ := h entry.1 (List.mem_map_of_mem hentry)
      simp [hurl] at hnone
    · rintro ⟨entry, hentry, hhost⟩
      obtain ⟨url, hurl, hne⟩ := h entry.1 (List.mem_map_of_mem hentry)
      rw [hostOf, hurl, Option.map_some, Option.some.injEq] at hhost
      exact hne hhost
  · rintro ⟨hurls, hclient⟩ record hrecord
    obtain ⟨entry, hentry, rfl⟩ := List.mem_map.1 hrecord
    cases hurl : entry.1.url with
    | none => exact absurd (by simp [hurl]) (hurls entry hentry)
    | some url =>
        exact ⟨url, rfl, fun heq => hclient ⟨entry, hentry, by rw [hostOf, hurl, ← heq]; rfl⟩⟩

/-- The sample of a type of results is not found to be mostly of other areas. -/
def PassesLocality (lib : FindingsLibrary) (context : MarketContext) (sampling : Bool)
    (run : SerpQueryRun) (kind : SerpResultType) : Prop :=
  ¬ (sampling ∧ kind = .organic ∧
    nonLocalMajority lib (sampleOf run kind) context.targetMarket = true)

variable (context source index run kind sampling) in
theorem domainOutcome_ok (hindexed : Indexed lib.evidenceId view.items view.observed)
    (hcall : view.Holds callRefs ∧ callRefs ≠ []) (hurls : view.Holds urlRefs) :
    ∃ outcome, domainOutcome lib view context source index run kind sampling callRefs urlRefs =
        .ok outcome ∧
      outcome.evaluation.rule = .domain ∧
      outcome.evaluation.target = marketTarget context run.query kind (some source) ∧
      (PassesLocality lib context sampling run kind →
        (outcome.evaluation.state = .triggered ↔ Unobserved lib context (sampleOf run kind))) := by
  unfold domainOutcome
  dsimp only
  rw [unobserved_iff]
  split
  next hnone =>
    refine exists_of_decides (decision_ok hcall.1 view.holds_nil
      fun h => EvaluationState.noConfusion h) fun outcome hdecides =>
        ⟨hdecides.rule, hdecides.target, fun _ => ?_⟩
    rw [hdecides.state, hnone]
    simp
  next hnone =>
    split
    next hlocal =>
      refine exists_of_decides (decision_ok (hcall.1.append fun key hkey => ?_) view.holds_nil
        fun h => EvaluationState.noConfusion h) fun outcome hdecides =>
          ⟨hdecides.rule, hdecides.target,
            fun hpasses => absurd ⟨hlocal.1, hlocal.2.1, hlocal.2.2.2⟩ hpasses⟩
      obtain ⟨entry, -, hkey⟩ := List.mem_flatMap.1 hkey
      exact EvidenceView.holds_fieldRefs hindexed _ _ key hkey
    next =>
      refine exists_of_decides (decision_ok (hcall.1.append hurls) view.holds_nil
        fun _ => ⟨List.append_ne_nil_of_left_ne_nil hcall.2 _, by simp⟩) fun outcome hdecides =>
          ⟨hdecides.rule, hdecides.target, fun _ => ?_⟩
      rw [hdecides.state]
      by_cases hclient : clientHost lib context ∈ domainsOf lib (run.recordsOf kind)
      · simp [hclient]
      · simp [hclient, hnone]

theorem refs_of_positionOf (hindexed : Indexed lib.evidenceId view.items view.observed)
    {records : List (SerpMarketResultRecord × ℕ)} {domain : String} {position : DomainPosition}
    (h : positionOf lib view index records domain = some position) : view.Holds position.refs := by
  unfold positionOf at h
  dsimp only at h
  split at h
  next =>
    cases h
    intro key hkey
    obtain ⟨entry, -, hkey⟩ := List.mem_flatMap.1 hkey
    exact EvidenceView.holds_fieldRefs hindexed _ _ key hkey
  next => cases h

/-- What the position rule decides: it triggers where two competitors are ahead, and
does not where all are comparable. -/
structure AheadDecided (lib : FindingsLibrary) (context : MarketContext) (run : SerpQueryRun)
    (kind : SerpResultType) (outcome : RuleOutcome) : Prop where
  rule : outcome.evaluation.rule = .ahead
  query : outcome.evaluation.target.query = run.query
  resultType : outcome.evaluation.target.resultType = kind
  triggered : outcome.evaluation.state = .triggered ↔ TwoAhead lib context (sampleOf run kind)
  notTriggered : outcome.evaluation.state = .notTriggered →
    (∀ competitor ∈ context.competitors, Comparable lib context (sampleOf run kind) competitor) ∧
      ¬ TwoAhead lib context (sampleOf run kind)

theorem comparedOutcome_ok (hindexed : Indexed lib.evidenceId view.items view.observed)
    (hdomains : DomainsDiffer lib context) (hcall : view.Holds callRefs ∧ callRefs ≠ [])
    {client : DomainPosition} (hclient : positionOf lib view index (run.recordsOf kind)
      (clientHost lib context) = some client) :
    ∃ outcome, comparedOutcome lib view context source index run kind callRefs client =
      .ok outcome ∧ AheadDecided lib context run kind outcome := by
  have hplaced : Placed lib (sampleOf run kind) (clientHost lib context) client.basis
      client.position := positionOf_some_iff.1 ⟨client.refs, hclient⟩
  have hrefs : ∀ entries : List (String × DomainPosition),
      entries ⊆ positionsOf lib view index (run.recordsOf kind) →
      view.Holds (entries.flatMap fun entry => entry.2.refs) := by
    intro entries hentries key hkey
    obtain ⟨entry, hentry, hkey⟩ := List.mem_flatMap.1 hkey
    exact refs_of_positionOf hindexed (mem_positionsOf.1 (hentries hentry)) key hkey
  have hcomparable : comparablePositions lib view context index run kind client ⊆
      positionsOf lib view index (run.recordsOf kind) := List.filter_subset' _
  have hleading : leadingPositions lib view context index run kind client ⊆
      positionsOf lib view index (run.recordsOf kind) :=
    List.Subset.trans (List.filter_subset' _) hcomparable
  have htwo : 2 ≤ (leadingPositions lib view context index run kind client).length ↔ _ :=
    two_le_leading_iff hplaced hdomains
  unfold comparedOutcome
  dsimp only
  refine exists_of_decides (decision_ok (hcall.1.append (refs_of_positionOf hindexed hclient))
    (hrefs _ ?_) fun _ => ⟨List.append_ne_nil_of_left_ne_nil hcall.2 _, ?_⟩) fun outcome hdecides =>
      ⟨hdecides.rule, ?_, ?_, ?_, ?_⟩
  · split
    · exact hleading
    · exact hcomparable
  · simp
  · rw [hdecides.target]
    rfl
  · rw [hdecides.target]
    rfl
  · rw [hdecides.state, ← htwo]
    split
    next h => simp [h]
    next h =>
      split <;> simp [h]
  · rw [hdecides.state, ← htwo]
    intro hstate
    split at hstate
    next => cases hstate
    next h =>
      split at hstate
      next hall =>
        exact ⟨fun competitor hmem => comparable_of_length hplaced hall.2 hmem, h⟩
      next => cases hstate

variable (source index run kind) in
theorem aheadOutcome_ok (hindexed : Indexed lib.evidenceId view.items view.observed)
    (hdomains : DomainsDiffer lib context) (hcall : view.Holds callRefs ∧ callRefs ≠ []) :
    ∃ outcome, aheadOutcome lib view context source index run kind callRefs = .ok outcome ∧
      AheadDecided lib context run kind outcome := by
  unfold aheadOutcome
  dsimp only
  split
  next hnone =>
    refine exists_of_decides (decision_ok hcall.1 view.holds_nil
      fun h => EvaluationState.noConfusion h) fun outcome hdecides =>
        ⟨hdecides.rule, ?_, ?_, ?_, ?_⟩
    · rw [hdecides.target]
      rfl
    · rw [hdecides.target]
      rfl
    · rw [hdecides.state]
      refine ⟨fun h => EvaluationState.noConfusion h, ?_⟩
      rintro ⟨first, -, -, -, -, ⟨basis, -, position, -, hplaced, -⟩, -⟩
      obtain ⟨refs, hsome⟩ := Placed.positionOf view index hplaced
      rw [hnone] at hsome
      cases hsome
    · rw [hdecides.state]
      exact fun h => EvaluationState.noConfusion h
  next client hclient => exact comparedOutcome_ok hindexed hdomains hcall hclient

end Outcomes

section Places

variable {lib : FindingsLibrary} {source : SerpSource} {localityFields : Bool} {run : SerpQueryRun}
  {index : ℕ}

theorem mem_observations_of_run {entry : Path × Observation}
    (hrun : (run, index) ∈ source.payload.queryRuns.zipIdx)
    (h : entry ∈ runObservations source localityFields (run, index)) :
    entry ∈ observations source localityFields :=
  List.mem_append_right _ (List.mem_flatMap.2 ⟨(run, index), hrun, h⟩)

theorem status_mem_observations (hrun : (run, index) ∈ source.payload.queryRuns.zipIdx)
    (kind : SerpResultType) :
    (runPath index ++ [.field (run.callOf kind).1, .field "status"],
        statusObservation source run (run.callOf kind).2) ∈
      observations source localityFields := by
  refine mem_observations_of_run hrun ?_
  rw [runObservations, List.append_assoc, List.append_assoc]
  cases kind with
  | maps => exact List.mem_append_left _ List.mem_cons_self
  | localPack | organic =>
      exact List.mem_append_right _ (List.mem_append_left _ List.mem_cons_self)

theorem field_mem_observations (hrun : (run, index) ∈ source.payload.queryRuns.zipIdx)
    {record : SerpMarketResultRecord} {i : ℕ} (hrecord : (record, i) ∈ run.results.zipIdx)
    {field : String} (hfield : field ∈ observedFields localityFields) {value : Scalar}
    (hvalue : recordValue record field = some value) :
    (recordPath index i ++ [.field field], recordObservation source run record field value) ∈
      observations source localityFields := by
  refine mem_observations_of_run hrun ?_
  refine List.mem_append_left _ (List.mem_append_right _ (List.mem_flatMap.2
    ⟨(record, i), hrecord, List.mem_filterMap.2 ⟨field, hfield, ?_⟩⟩))
  rw [hvalue]
  rfl

end Places

section Kinds

variable {lib : FindingsLibrary} {view : EvidenceView} {context : MarketContext}
  {source : SerpSource} {index : ℕ} {run : SerpQueryRun} {kind : SerpResultType}
  {reviewed sampling localityFields : Bool}

/-- An outcome of a rule on a type of results of a query. -/
def About (rule : MarketRule) (query : String) (kind : SerpResultType) (outcome : RuleOutcome) :
    Prop :=
  outcome.evaluation.rule = rule ∧ outcome.evaluation.target.query = query ∧
    outcome.evaluation.target.resultType = kind

instance decidableAbout (rule : MarketRule) (query : String) (kind : SerpResultType) :
    DecidablePred (About rule query kind) := fun _ => inferInstanceAs (Decidable (_ ∧ _ ∧ _))

/-- The sample of a type of results fits its query. -/
def PassesScope (lib : FindingsLibrary) (context : MarketContext) (reviewed : Bool)
    (run : SerpQueryRun) (kind : SerpResultType) : Prop :=
  ¬ (reviewed = true ∧ kind = .organic ∧
    ¬ organicScopeSupported lib run.query (sampleOf run kind) context.targetMarket.city = true)

/-- The decisions on a sample that may be judged. -/
structure Judged (lib : FindingsLibrary) (context : MarketContext) (run : SerpQueryRun)
    (kind : SerpResultType) (domain ahead : RuleOutcome) : Prop where
  domain : domain.evaluation.state = .triggered ↔ Unobserved lib context (sampleOf run kind)
  ahead : AheadDecided lib context run kind ahead

variable (lib view context) in
theorem notChecked_ok (target : RuleTarget) (reason : EvaluationReason) (notes : List String) :
    ∃ domain ahead, notChecked lib view context target reason notes = .ok [domain, ahead] ∧
      Decides .domain target .notChecked reason domain ∧
      Decides .ahead target .notChecked reason ahead := by
  have hrule : ∀ rule, ∃ outcome,
      decision lib view context rule target .notChecked reason [] [] "" notes = .ok outcome ∧
        Decides rule target .notChecked reason outcome := fun rule =>
    decision_ok view.holds_nil view.holds_nil fun h => EvaluationState.noConfusion h
  obtain ⟨domain, hdomain, hdecides⟩ := hrule .domain
  obtain ⟨ahead, hahead, hdecides'⟩ := hrule .ahead
  refine ⟨domain, ahead, ?_, hdecides, hdecides'⟩
  rw [notChecked, List.mapM_cons, hdomain, ok_bind, List.mapM_cons, hahead]
  rfl

theorem Decides.about {rule : MarketRule} {state : EvaluationState} {reason : EvaluationReason}
    {outcome : RuleOutcome} {snapshot : Option SerpSource} {query : String}
    (h : Decides rule (marketTarget context query kind snapshot) state reason outcome) :
    About rule query kind outcome := by
  refine ⟨h.rule, ?_, ?_⟩ <;> rw [h.target] <;> rfl

/-- The evidence of a source is in the index, with its observations. -/
structure Sees (lib : FindingsLibrary) (source : SerpSource) (localityFields : Bool)
    (view : EvidenceView) : Prop where
  shown : view.source = some source
  observed : view.observed = observations source localityFields
  indexed : Indexed lib.evidenceId view.items view.observed

variable (kind) in
theorem callRefs_ok (hsees : Sees lib source localityFields view)
    (hrun : (run, index) ∈ source.payload.queryRuns.zipIdx)
    (hcall : (run.callOf kind).2.status = .succeeded) :
    ∃ keys, view.requiredRefs lib.evidenceId
      (runPath index ++ [.field (run.callOf kind).1, .field "status"]) = .ok keys := by
  have hmem := hsees.observed.symm ▸ status_mem_observations hrun kind
  exact EvidenceView.requiredRefs_ok hsees.indexed hmem (by simp [statusObservation, hcall])

variable (kind) in
theorem allUrlRefs_ok (hsees : Sees lib source localityFields view)
    (hrun : (run, index) ∈ source.payload.queryRuns.zipIdx) :
    ∃ keys, allUrlRefs lib view index run kind = .ok keys ∧ view.Holds keys := by
  have hall : ∀ entry ∈ (run.recordsOf kind).filter (·.1.url.isSome), ∃ keys,
      view.requiredRefs lib.evidenceId (recordPath index entry.2 ++ [.field "url"]) = .ok keys := by
    intro entry hentry
    obtain ⟨hmem, hurl⟩ := List.mem_filter.1 hentry
    obtain ⟨url, hurl⟩ := Option.isSome_iff_exists.1 hurl
    have hmem' : (recordPath index entry.2 ++ [.field "url"],
        recordObservation source run entry.1 "url" (.text url)) ∈ view.observed := by
      rw [hsees.observed]
      refine field_mem_observations hrun (List.mem_filter.1 hmem).1 ?_ ?_
      · simp [observedFields]
      · simp [recordValue, hurl]
    exact EvidenceView.requiredRefs_ok hsees.indexed hmem' fun h =>
      Report.SourceType.noConfusion h
  obtain ⟨keys, hkeys⟩ := mapM_isOk hall
  refine ⟨keys.flatten, by rw [allUrlRefs, hkeys]; rfl, ?_⟩
  intro key hkey
  obtain ⟨list, hlist, hkey⟩ := List.mem_flatten.1 hkey
  obtain ⟨entry, -, hrefs⟩ := exists_left_of_mem (forall₂_of_mapM_ok hkeys) hlist
  exact (EvidenceView.holds_requiredRefs hrefs).1 key hkey

variable (reviewed sampling kind) in
/-- One decision of each rule is made on every type of results of a run, and they are
right where its sample may be judged. -/
theorem evaluateKind_ok (hsees : Sees lib source localityFields view)
    (hdomains : DomainsDiffer lib context)
    (hrun : (run, index) ∈ source.payload.queryRuns.zipIdx) :
    ∃ domain ahead,
      evaluateKind lib view context reviewed sampling source index run kind =
        .ok [domain, ahead] ∧
      About .domain run.query kind domain ∧ About .ahead run.query kind ahead ∧
      ((run.callOf kind).2.status = .succeeded → sampleOf run kind ≠ [] →
        PassesScope lib context reviewed run kind →
        PassesLocality lib context sampling run kind →
        Judged lib context run kind domain ahead) := by
  have hskip : ∀ reason notes, ∃ domain ahead,
      notChecked lib view context (marketTarget context run.query kind (some source)) reason
        notes = .ok [domain, ahead] ∧
      About .domain run.query kind domain ∧ About .ahead run.query kind ahead := by
    intro reason notes
    obtain ⟨domain, ahead, hok, hdomain, hahead⟩ := notChecked_ok lib view context
      (marketTarget context run.query kind (some source)) reason notes
    exact ⟨domain, ahead, hok, hdomain.about, hahead.about⟩
  unfold evaluateKind
  dsimp only
  split
  next hfailed =>
    obtain ⟨domain, ahead, hok, hdomain, hahead⟩ := hskip .sourceIneligible []
    exact ⟨domain, ahead, hok, hdomain, hahead, fun h => absurd h hfailed⟩
  next hsucceeded =>
    split
    next hempty =>
      obtain ⟨domain, ahead, hok, hdomain, hahead⟩ := hskip .insufficientSample []
      exact ⟨domain, ahead, hok, hdomain, hahead,
        fun _ hne => absurd (by rw [sampleOf, hempty]; rfl) hne⟩
    next hne =>
      split
      next hscope =>
        obtain ⟨domain, ahead, hok, hdomain, hahead⟩ := hskip .sourceIneligible [scopeNote]
        exact ⟨domain, ahead, hok, hdomain, hahead, fun _ _ hpasses => absurd hscope hpasses⟩
      next hscope =>
        obtain ⟨callRefs, hcallRefs⟩ := callRefs_ok kind hsees hrun
          (not_not.1 hsucceeded)
        obtain ⟨urlRefs, hurlRefs, hurls⟩ := allUrlRefs_ok kind hsees hrun
        have hcall := EvidenceView.holds_requiredRefs hcallRefs
        obtain ⟨domain, hdomain, hrule, htarget, hjudged⟩ := domainOutcome_ok context source
          index run kind sampling hsees.indexed hcall hurls
        obtain ⟨ahead, hahead, hdecided⟩ := aheadOutcome_ok source index run kind
          hsees.indexed hdomains hcall
        refine ⟨domain, ahead, ?_, ⟨hrule, by rw [htarget]; rfl, by rw [htarget]; rfl⟩,
          ⟨hdecided.rule, hdecided.query, hdecided.resultType⟩,
          fun _ _ _ hlocal => ⟨hjudged hlocal, hdecided⟩⟩
        rw [hcallRefs, ok_bind, hurlRefs, ok_bind, hdomain, ok_bind, hahead]
        rfl

end Kinds

section Evaluation

variable {lib : FindingsLibrary} {view : EvidenceView} {context : MarketContext}
  {source : SerpSource} {reviewed sampling localityFields : Bool}

/-- Where the results of a loop tell which item they are of, the results of an item are
the ones that tell so. -/
theorem filter_flatten_mapM {α β ε κ : Type} [DecidableEq κ] {f : α → Except ε (List β)}
    {items : List α} {lists : List (List β)}
    (key : α → κ) (label : β → κ) (h : items.mapM f = .ok lists) (hnodup : (items.map key).Nodup)
    (hlabel : ∀ item ∈ items, ∀ list, f item = .ok list → ∀ b ∈ list, label b = key item)
    {item : α} (hitem : item ∈ items) :
    ∃ list, f item = .ok list ∧ (lists.flatten.filter fun b => label b = key item) = list := by
  induction items generalizing lists with
  | nil => cases hitem
  | cons first rest ih =>
      obtain ⟨list, lists, hfirst, hrest, rfl⟩ := mapM_ok_cons h
      rw [List.map_cons, List.nodup_cons] at hnodup
      rw [List.flatten_cons, List.filter_append]
      have hlist := hlabel first List.mem_cons_self list hfirst
      have htail : ∀ b ∈ lists.flatten, ∃ other ∈ rest, label b = key other := by
        intro b hb
        obtain ⟨other, hother, hb⟩ := List.mem_flatten.1 hb
        obtain ⟨a, ha, hrun⟩ := exists_left_of_mem (forall₂_of_mapM_ok hrest) hother
        exact ⟨a, ha, hlabel a (List.mem_cons_of_mem _ ha) other hrun b hb⟩
      rcases List.mem_cons.1 hitem with rfl | hitem
      · refine ⟨list, hfirst, ?_⟩
        rw [List.filter_eq_self.2 fun b hb => by simpa using hlist b hb,
          List.filter_eq_nil_iff.2, List.append_nil]
        intro b hb hlabel'
        obtain ⟨other, hother, heq⟩ := htail b hb
        exact hnodup.1 (List.mem_map.2 ⟨other, hother, heq.symm.trans (by simpa using hlabel')⟩)
      · obtain ⟨found, hfound, hfilter⟩ := ih hrest hnodup.2
          (fun other hother => hlabel other (List.mem_cons_of_mem _ hother)) hitem
        refine ⟨found, hfound, ?_⟩
        rw [hfilter, List.filter_eq_nil_iff.2, List.nil_append]
        intro b hb hlabel'
        refine hnodup.1 (List.mem_map.2 ⟨item, hitem, ?_⟩)
        exact (of_decide_eq_true hlabel').symm.trans (hlist b hb)

/-- The query runs with the types of their results. -/
def runKinds (source : SerpSource) : List ((SerpQueryRun × ℕ) × SerpResultType) :=
  source.payload.queryRuns.zipIdx.flatMap fun entry => resultTypes.map fun kind => (entry, kind)

theorem mem_runKinds {item : (SerpQueryRun × ℕ) × SerpResultType} :
    item ∈ runKinds source ↔ item.1 ∈ source.payload.queryRuns.zipIdx := by
  obtain ⟨entry, kind⟩ := item
  simp only [runKinds, List.mem_flatMap, List.mem_map, Prod.mk.injEq]
  constructor
  · rintro ⟨_, h, _, _, rfl, -⟩
    exact h
  · intro h
    exact ⟨entry, h, kind, by cases kind <;> decide, rfl, rfl⟩

theorem runKinds_nodup :
    ((runKinds source).map fun item => (item.1.1.query, item.2)).Nodup := by
  have hqueries : (source.payload.queryRuns.zipIdx.map fun entry => entry.1.query).Nodup := by
    have hmap : (source.payload.queryRuns.zipIdx.map fun entry => entry.1.query) =
        source.payload.queryRuns.map SerpQueryRun.query := by
      have hmap := List.map_map (f := Prod.fst) (g := SerpQueryRun.query)
        (l := source.payload.queryRuns.zipIdx)
      rw [List.zipIdx_map_fst] at hmap
      exact hmap.symm
    rw [hmap]
    exact source.payload.queriesDiffer
  rw [runKinds, List.map_flatMap]
  have hswap : (source.payload.queryRuns.zipIdx.flatMap fun entry =>
      (resultTypes.map fun kind => (entry, kind)).map fun item => (item.1.1.query, item.2)) =
      (source.payload.queryRuns.zipIdx.map fun entry => entry.1.query).product resultTypes := by
    simp [List.product, List.flatMap_map, List.map_map, Function.comp_def]
  rw [hswap]
  exact hqueries.product (by decide)

variable (reviewed sampling) in
/-- On every type of results of every run each rule makes one decision. -/
theorem evaluate_ok (hsees : Sees lib source localityFields view)
    (heligible : source.businessEligible = true) (hdomains : DomainsDiffer lib context) :
    ∃ outcomes, evaluate lib view context reviewed sampling = .ok outcomes ∧
      ∀ run ∈ source.payload.queryRuns, ∀ kind, ∃ domain ahead,
        outcomes.filter (About .domain run.query kind) = [domain] ∧
        outcomes.filter (About .ahead run.query kind) = [ahead] ∧
        ((run.callOf kind).2.status = .succeeded → sampleOf run kind ≠ [] →
          PassesScope lib context reviewed run kind →
          PassesLocality lib context sampling run kind →
          Judged lib context run kind domain ahead) := by
  have havailable : view.available = some source := by
    rw [EvidenceView.available, hsees.shown, Option.filter_some, if_pos heligible]
  have hkind := fun (item : (SerpQueryRun × ℕ) × SerpResultType) (hitem : item ∈ runKinds source) =>
    evaluateKind_ok item.2 reviewed sampling hsees hdomains
      (mem_runKinds.1 hitem)
  obtain ⟨lists, hlists⟩ := mapM_isOk (l := runKinds source)
    (f := fun item => evaluateKind lib view context reviewed sampling source item.1.2 item.1.1
      item.2) fun item hitem => by
        obtain ⟨domain, ahead, hok, -⟩ := hkind item hitem
        exact ⟨_, hok⟩
  refine ⟨lists.flatten, ?_, fun run hrun kind => ?_⟩
  · rw [evaluate, havailable]
    exact congrArg (Except.map List.flatten) hlists
  · obtain ⟨index, hindex⟩ : ∃ index, (run, index) ∈ source.payload.queryRuns.zipIdx := by
      obtain ⟨index, hindex⟩ := List.mem_iff_getElem?.1 hrun
      exact ⟨index, List.mem_zipIdx_iff_getElem?.2 hindex⟩
    have hitem : ((run, index), kind) ∈ runKinds source := mem_runKinds.2 hindex
    obtain ⟨domain, ahead, hok, hdomain, hahead, hjudged⟩ := hkind _ hitem
    obtain ⟨list, hlist, hfilter⟩ := filter_flatten_mapM
      (fun item : (SerpQueryRun × ℕ) × SerpResultType => (item.1.1.query, item.2))
      (fun outcome : RuleOutcome =>
        (outcome.evaluation.target.query, outcome.evaluation.target.resultType))
      hlists runKinds_nodup (fun item hitem list hlist outcome houtcome => by
        obtain ⟨domain, ahead, hok, hdomain, hahead, -⟩ := hkind item hitem
        rw [hok, Except.ok.injEq] at hlist
        subst hlist
        rcases List.mem_cons.1 houtcome with rfl | houtcome
        · exact Prod.ext hdomain.2.1 hdomain.2.2
        · rw [List.mem_singleton.1 houtcome]
          exact Prod.ext hahead.2.1 hahead.2.2) hitem
    rw [hok, Except.ok.injEq] at hlist
    subst hlist
    have hrule : ∀ rule, lists.flatten.filter (About rule run.query kind) =
        [domain, ahead].filter fun outcome => outcome.evaluation.rule = rule := by
      intro rule
      rw [← hfilter, List.filter_filter]
      refine List.filter_congr fun outcome _ => ?_
      rw [← Bool.decide_and, decide_eq_decide]
      exact ⟨fun h => ⟨h.1, Prod.ext h.2.1 h.2.2⟩,
        fun h => ⟨h.1, (Prod.mk.inj h.2).1, (Prod.mk.inj h.2).2⟩⟩
    refine ⟨domain, ahead, ?_, ?_, hjudged⟩
    · rw [hrule]
      simp [hdomain.1, hahead.1]
    · rw [hrule]
      simp [hdomain.1, hahead.1]

end Evaluation

end SearchTrust.Findings
