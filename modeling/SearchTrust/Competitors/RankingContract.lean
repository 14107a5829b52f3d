/-
What the ranking of competitors promises: different competitors in the order of the sort
key, with the supplemental ones in the place of the worst of the others.
-/
import Mathlib.Data.List.ReduceOption
import SearchTrust.Competitors.GroupingContract
import SearchTrust.Competitors.Ranking
import SearchTrust.Report.Outcomes
import SearchTrust.Web.PublicConnections

namespace SearchTrust.Competitors

open SearchTrust.Order
open SearchTrust.Market (SerpMarketResultRecord)
open SearchTrust.Report.Outcomes
open SearchTrust.Web (asciiTables sampleAddresses)

section Contracts

variable (lib : CompetitorLibrary)

/-- No website that is built from an observed domain has a host of dots only. -/
def SitesHaveHosts (snapshot : SerpMarketSnapshot) : Prop :=
  ∀ observations, observationsOf lib snapshot = .ok observations → ∀ item ∈ observations,
    ∀ domain, item.domain = some domain → ∀ website url,
      canonicalCompetitorUrl lib (some ("https://" ++ domain)) = .ok (some website) →
        lib.httpUrl website.toList = some url →
          normalizeDomain lib (some (.ofList url)) ≠ .ok (some "")

/-- Eligible records with different domains, as far as they have one. -/
def DomainsDiffer (a b : RankedRecord) : Prop := a.domain = b.domain → a.domain = none

/-- What a ranking promises, with `domains` the supplemental domains. -/
structure RankingContract (domains : List String) (result : CandidateRankingResult) : Prop where
  ids : (result.candidates.map (·.competitorId)).Nodup
  websites : ∃ hosts, (result.candidates.mapM fun candidate =>
    websiteHost lib candidate.websiteUrl) = some hosts ∧ hosts.Nodup
  selection : ∃ eligible selected, eligibleRecords lib result.auditRecords = .ok eligible ∧
    eligible.Pairwise DomainsDiffer ∧ result.candidates = selected.map (·.candidate) ∧
    KeptBest (isSupplemental domains) sortKey candidateLimit eligible selected ∧
    result.dataGaps.count supplementalGap =
      domains.countP fun domain => eligible.all (·.domain ≠ some domain)

end Contracts

section Records

variable {lib : CompetitorLibrary} {request : RankingRequest} {queryCount : ℕ}

theorem mostCommon_mem {values : List String} (h : mostCommon values ≠ "") :
    mostCommon values ∈ values := by
  unfold mostCommon at h ⊢
  cases hhead : (sortedBy (fun value => (toLex (-(values.count value : ℤ), value) : ℤ ×ₗ String))
      (values.filter (· ≠ "")).dedup).head? with
  | none =>
      rw [hhead] at h
      exact absurd rfl h
  | some value =>
      have hmem := List.mem_of_mem_head? hhead
      rw [mem_sortedBy, List.mem_dedup] at hmem
      exact (List.mem_filter.1 hmem).1

theorem eq_of_validated {α : Type} {model : String} {valid : α → Bool} {value result : α}
    (h : validated model valid value = .ok result) : result = value := by
  unfold validated at h
  split at h
  · exact (Except.ok.inj h).symm
  · cases h

/-- The website of a candidate is the canonical URL of a domain. -/
theorem candidateOf_website {group : List Observation} {key domain : String}
    {queries : ℕ} {confidence : ℚ} {candidate : CompetitorCandidate}
    (h : candidateOf lib group key domain queries queryCount confidence = .ok candidate) :
    ∃ website url, canonicalCompetitorUrl lib (some ("https://" ++ domain)) = .ok (some website) ∧
      lib.httpUrl website.toList = some url ∧ candidate.websiteUrl = .ofList url := by
  obtain ⟨website, hwebsite, h⟩ := ok_of_bind h
  obtain ⟨websiteUrl, hurl, h⟩ := ok_of_bind h
  obtain ⟨gbpUrl, _, h⟩ := ok_of_bind h
  have hcandidate : candidate.websiteUrl = websiteUrl := by rw [eq_of_validated h]
  unfold httpUrl at hurl
  split at hurl
  next url hbind =>
    obtain ⟨text, rfl, htext⟩ := Option.bind_eq_some_iff.1 hbind
    exact ⟨text, url, hwebsite, htext, hcandidate.trans (Except.ok.inj hurl).symm⟩
  next => cases hurl

/-- The candidate of a record has a website for a domain of its group. -/
theorem eligibleRecord_website {grouped : ObservationGroup} {record : CandidateAuditRecord}
    {candidate : CompetitorCandidate}
    (h : eligibleRecord lib request queryCount grouped = .ok record)
    (hcandidate : record.candidate = some candidate) :
    ∃ item ∈ grouped.observations, ∃ domain, item.domain = some domain ∧ ∃ website url,
      canonicalCompetitorUrl lib (some ("https://" ++ domain)) = .ok (some website) ∧
        lib.httpUrl website.toList = some url ∧ candidate.websiteUrl = .ofList url := by
  have hrejected : ∀ {identity ambiguous reason}, record ≠ rejected identity ambiguous reason := by
    rintro identity ambiguous reason rfl
    cases hcandidate
  unfold eligibleRecord at h
  dsimp only at h
  obtain ⟨identity, _, h⟩ := ok_of_bind h
  split at h
  next => exact absurd (Except.ok.inj h).symm hrejected
  split at h
  next => exact absurd (Except.ok.inj h).symm hrejected
  next hcommon =>
    split at h
    next => exact absurd (Except.ok.inj h).symm hrejected
    obtain ⟨client, _, h⟩ := ok_of_bind h
    split at h
    next => exact absurd (Except.ok.inj h).symm hrejected
    split at h
    next => exact absurd (Except.ok.inj h).symm hrejected
    split at h
    next => exact absurd (Except.ok.inj h).symm hrejected
    obtain ⟨score, _, h⟩ := ok_of_bind h
    obtain ⟨built, hbuilt, h⟩ := ok_of_bind h
    have hrecord := Except.ok.inj h
    rw [← hrecord] at hcandidate
    obtain rfl := Option.some.inj hcandidate
    obtain ⟨website, url, hwebsite, hurl, hsite⟩ := candidateOf_website hbuilt
    obtain ⟨item, hitem, hdomain⟩ := List.mem_filterMap.1 (mostCommon_mem hcommon)
    exact ⟨item, hitem, _, hdomain, website, url, hwebsite, hurl, hsite⟩

end Records

section Suppression

variable {lib : CompetitorLibrary} {replacements : List (String × CandidateAuditRecord)}
  {audited records : List CandidateAuditRecord}

/-- The key by which records are replaced. -/
def RankedRecord.identityKey (ranked : RankedRecord) : String :=
  ranked.record.identity.stableIdentityKey

theorem rankRecord_record {record : CandidateAuditRecord} {ranked : RankedRecord}
    (h : rankRecord lib record = .ok (some ranked)) :
    ranked.record = record ∧ record.candidate = some ranked.candidate ∧
      normalizeDomain lib (some ranked.candidate.websiteUrl) = .ok ranked.domain := by
  unfold rankRecord at h
  split at h
  next score candidate _ _ hcandidate =>
    obtain ⟨domain, hdomain, hranked⟩ := ok_of_map h
    obtain rfl := Option.some.inj hranked
    exact ⟨rfl, hcandidate, hdomain⟩
  next => cases h

/-- A record that is replaced is not eligible any more, and the others stay. -/
theorem rankRecord_replaced
    (hexcluded : ∀ entry ∈ replacements, entry.2.disposition = .excluded)
    (record : CandidateAuditRecord) : rankRecord lib (replaced replacements record) =
      if record.identity.stableIdentityKey ∈ replacements.map Prod.fst then .ok none
      else rankRecord lib record := by
  unfold replaced
  split
  next entry hfind =>
    have hentry := List.mem_reverse.1 (List.mem_of_find?_eq_some hfind)
    have hkey : entry.1 = record.identity.stableIdentityKey := by
      have h := List.find?_some hfind
      rwa [decide_eq_true_eq] at h
    rw [if_pos (hkey ▸ List.mem_map_of_mem hentry)]
    unfold rankRecord
    split
    next hdisposition _ _ => cases (hexcluded entry hentry).symm.trans hdisposition
    next => rfl
  next hfind =>
    rw [if_neg]
    intro hmem
    obtain ⟨entry, hentry, hkey⟩ := List.mem_map.1 hmem
    have hnone := List.find?_eq_none.1 hfind entry (List.mem_reverse.2 hentry)
    rw [decide_eq_true_eq] at hnone
    exact hnone hkey

/-- After the replacements the eligible records are those whose key is not replaced. -/
theorem reduce_replaced
    (hexcluded : ∀ entry ∈ replacements, entry.2.disposition = .excluded)
    {before after : List (Option RankedRecord)}
    (hbefore : audited.mapM (rankRecord lib) = .ok before)
    (hafter : (audited.map (replaced replacements)).mapM (rankRecord lib) = .ok after) :
    after.reduceOption = before.reduceOption.filter fun ranked =>
      ranked.identityKey ∉ replacements.map Prod.fst := by
  induction audited generalizing before after with
  | nil =>
      cases hbefore
      cases hafter
      rfl
  | cons record audited ih =>
      obtain ⟨first, rest, hfirst, hrest, rfl⟩ := mapM_ok_cons hbefore
      rw [List.map_cons] at hafter
      obtain ⟨first', rest', hfirst', hrest', rfl⟩ := mapM_ok_cons hafter
      rw [rankRecord_replaced hexcluded, hfirst] at hfirst'
      cases first with
      | none =>
          have hnone : first' = none := by
            split at hfirst'
            · exact (Except.ok.inj hfirst').symm
            · exact (Except.ok.inj hfirst').symm
          rw [hnone, List.reduceOption_cons_of_none, List.reduceOption_cons_of_none]
          exact ih hrest hrest'
      | some ranked =>
          have hkey : ranked.identityKey = record.identity.stableIdentityKey := by
            rw [RankedRecord.identityKey, (rankRecord_record hfirst).1]
          rw [← hkey] at hfirst'
          rw [List.reduceOption_cons_of_some, List.filter_cons]
          split at hfirst'
          next hin =>
            obtain rfl := Except.ok.inj hfirst'
            rw [List.reduceOption_cons_of_none, if_neg (by simpa using hin)]
            exact ih hrest hrest'
          next hout =>
            obtain rfl := Except.ok.inj hfirst'
            rw [List.reduceOption_cons_of_some, if_pos (by simpa using hout), ih hrest hrest']

theorem sharedWebsites_excluded (seen : List String) (ranked : List RankedRecord) :
    ∀ entry ∈ sharedWebsites seen ranked, entry.2.disposition = .excluded := by
  induction ranked generalizing seen with
  | nil => simp [sharedWebsites]
  | cons first rest ih =>
      rw [sharedWebsites]
      split
      next => exact ih seen
      next domain _ =>
        split
        next => exact List.forall_mem_cons.2 ⟨rfl, ih seen⟩
        next => exact ih (domain :: seen)

/-- The records that are left have different domains, and none that was seen before. -/
theorem sharedWebsites_differ (seen : List String) {keys : List String}
    {ranked : List RankedRecord} (hdomains : ∀ record ∈ ranked, record.domain ≠ some "")
    (hkeys : ∀ key ∈ (sharedWebsites seen ranked).map Prod.fst, key ∈ keys) :
    (ranked.filter fun record => record.identityKey ∉ keys).Pairwise DomainsDiffer ∧
      ∀ record ∈ ranked, record.identityKey ∉ keys → ∀ domain ∈ seen,
        record.domain ≠ some domain := by
  induction ranked generalizing seen with
  | nil => exact ⟨List.Pairwise.nil, by simp⟩
  | cons first rest ih =>
      obtain ⟨hfirst, hrest⟩ := List.forall_mem_cons.1 hdomains
      rw [sharedWebsites] at hkeys
      split at hkeys
      next hnone =>
        obtain ⟨hdiffer, hseen⟩ := ih _ hrest hkeys
        have hdomain : first.domain = none := by
          cases hcase : first.domain with
          | none => rfl
          | some domain =>
              rw [hcase, Option.filter_some] at hnone
              split at hnone
              next => cases hnone
              next hempty =>
                rw [decide_eq_true_eq, not_not] at hempty
                exact absurd (hcase.trans (congrArg some hempty)) hfirst
        refine ⟨?_, List.forall_mem_cons.2 ⟨?_, hseen⟩⟩
        · rw [List.filter_cons]
          split
          · exact List.pairwise_cons.2 ⟨fun _ _ _ => hdomain, hdiffer⟩
          · exact hdiffer
        · intro _ domain _ hsame
          rw [hdomain] at hsame
          cases hsame
      next domain hfilter =>
        have hdomain : first.domain = some domain := (Option.filter_eq_some_iff.1 hfilter).1
        split at hkeys
        next hshared =>
          obtain ⟨hkey, hkeys⟩ := List.forall_mem_cons.1 hkeys
          obtain ⟨hdiffer, hseen⟩ := ih _ hrest hkeys
          have hdropped : first.identityKey ∈ keys := hkey
          refine ⟨?_, List.forall_mem_cons.2 ⟨fun h => absurd hdropped h, hseen⟩⟩
          rwa [List.filter_cons, if_neg (by simpa using hdropped)]
        next hnew =>
          obtain ⟨hdiffer, hseen⟩ := ih _ hrest hkeys
          refine ⟨?_, List.forall_mem_cons.2 ⟨?_, ?_⟩⟩
          · rw [List.filter_cons]
            split
            · refine List.pairwise_cons.2 ⟨fun other hother hsame => ?_, hdiffer⟩
              obtain ⟨hmem, hkept⟩ := List.mem_filter.1 hother
              rw [decide_eq_true_eq] at hkept
              rw [hdomain] at hsame
              exact absurd hsame.symm (hseen other hmem hkept domain List.mem_cons_self)
            · exact hdiffer
          · intro _ other hother hsame
            rw [hdomain] at hsame
            obtain rfl := Option.some.inj hsame
            exact hnew hother
          · intro record hrecord hkept other hother
            exact hseen record hrecord hkept other (List.mem_cons_of_mem _ hother)

instance differSymm : Std.Symm DomainsDiffer :=
  ⟨fun _ _ h hsame => hsame.trans (h hsame.symm)⟩

/-- After the suppression the eligible records have different domains. -/
theorem eligible_differ {before eligible : List RankedRecord}
    (hbefore : eligibleRecords lib audited = .ok before)
    (hdomains : ∀ record ∈ before, record.domain ≠ some "")
    (hrecords : suppressSharedWebsites lib audited = .ok records)
    (heligible : eligibleRecords lib records = .ok eligible) :
    eligible.Pairwise DomainsDiffer := by
  obtain ⟨first, hfirst, hsuppressed⟩ := ok_of_map hrecords
  obtain rfl := Except.ok.inj (hbefore.symm.trans hfirst)
  obtain ⟨ranked, hranked, rfl⟩ := ok_of_map hbefore
  obtain ⟨after, hafter, rfl⟩ := ok_of_map heligible
  rw [← hsuppressed] at hafter
  have hreduce := reduce_replaced (sharedWebsites_excluded _ _) hranked hafter
  have hdiffer := (sharedWebsites_differ [] hdomains fun key h => h).1
  have hperm : (sortedBy sortKey after.reduceOption).Perm
      ((sortedBy sortKey ranked.reduceOption).filter fun record => record.identityKey ∉
        (sharedWebsites [] (sortedBy sortKey ranked.reduceOption)).map Prod.fst) := by
    refine (sortedBy_perm _ _).trans ?_
    rw [hreduce]
    exact ((sortedBy_perm _ _).symm).filter _
  exact (hperm.pairwise_iff fun {a b} => differSymm.symm a b).2 hdiffer

end Suppression

section Supplementals

variable {eligible : List RankedRecord} {supplementalDomains : List String}

/-- The loop places the supplemental competitors that are eligible, and reports the others. -/
theorem foldl_supplementalStep (eligible : List RankedRecord)
    (supplementalDomains domains : List String) (selected : List RankedRecord)
    (gaps : List DataGap) : domains.foldl (supplementalStep eligible supplementalDomains) (selected, gaps) =
      ((domains.filterMap (eligibleByDomain eligible)).foldl
        (placeKept (isSupplemental supplementalDomains) sortKey) selected,
      gaps ++ List.replicate (domains.countP fun domain => eligible.all (·.domain ≠ some domain))
        supplementalGap) := by
  induction domains generalizing selected gaps with
  | nil => simp
  | cons domain domains ih =>
      rw [List.foldl_cons, supplementalStep, List.countP_cons]
      cases hfind : eligibleByDomain eligible domain with
      | none =>
          have hnone : (eligible.all fun ranked => ranked.domain ≠ some domain) = true := by
            rw [List.all_eq_true]
            intro ranked hranked
            have h := List.find?_eq_none.1 hfind ranked (List.mem_reverse.2 hranked)
            rw [decide_eq_true_eq] at h
            exact decide_eq_true h
          dsimp only
          rw [ih, List.filterMap_cons_none hfind, if_pos hnone, List.append_assoc,
            List.replicate_succ]
          rfl
      | some ranked =>
          have hsome : ¬ (eligible.all fun ranked => ranked.domain ≠ some domain) = true := by
            intro hall
            have hmem := List.mem_reverse.1 (List.mem_of_find?_eq_some hfind)
            have hdomain := List.find?_some hfind
            rw [decide_eq_true_eq] at hdomain
            exact of_decide_eq_true (List.all_eq_true.1 hall ranked hmem) hdomain
          dsimp only
          rw [ih, List.filterMap_cons_some hfind, List.foldl_cons, if_neg hsome, Nat.add_zero]

/-- The competitors that are placed are the eligible ones with a supplemental domain. -/
theorem mem_placed_iff (hdiffer : eligible.Pairwise DomainsDiffer) (ranked : RankedRecord) :
    ranked ∈ supplementalDomains.filterMap (eligibleByDomain eligible) ↔
      ranked ∈ eligible ∧ isSupplemental supplementalDomains ranked = true := by
  rw [List.mem_filterMap]
  constructor
  · rintro ⟨domain, hdomain, hfind⟩
    have hsame := List.find?_some hfind
    rw [decide_eq_true_eq] at hsame
    refine ⟨List.mem_reverse.1 (List.mem_of_find?_eq_some hfind), ?_⟩
    rw [isSupplemental, hsame]
    exact decide_eq_true hdomain
  · rintro ⟨hmem, hsupplemental⟩
    obtain ⟨domain, hdomain, hin⟩ := (Option.any_eq_true _ _).1 hsupplemental
    refine ⟨domain, of_decide_eq_true hin, ?_⟩
    cases hfind : eligibleByDomain eligible domain with
    | none =>
        have h := List.find?_eq_none.1 hfind ranked (List.mem_reverse.2 hmem)
        rw [decide_eq_true_eq] at h
        exact absurd hdomain h
    | some other =>
        have hother := List.mem_reverse.1 (List.mem_of_find?_eq_some hfind)
        have hsame := List.find?_some hfind
        rw [decide_eq_true_eq] at hsame
        by_cases heq : ranked = other
        · rw [heq]
        · have hnone := hdiffer.forall hmem hother heq (hdomain.trans hsame.symm)
          cases hdomain.symm.trans hnone

/-- Different records have different supplemental domains. -/
theorem supplemental_nodup (hdiffer : eligible.Pairwise DomainsDiffer) :
    (eligible.filter (isSupplemental supplementalDomains)).Nodup := by
  refine List.Pairwise.imp_of_mem ?_ (hdiffer.filter _)
  rintro a b ha hb h rfl
  have hsupplemental := (List.mem_filter.1 ha).2
  rw [isSupplemental, h rfl] at hsupplemental
  cases hsupplemental

/-- What a result that is built has passed. -/
theorem validRanking_ok {lib : CompetitorLibrary} {result : CandidateRankingResult} {done : Unit}
    (h : validRanking lib result = .ok done) :
    (result.candidates.map (·.competitorId)).Nodup ∧ ∃ hosts, (result.candidates.mapM
      fun candidate => websiteHost lib candidate.websiteUrl) = some hosts ∧ hosts.Nodup := by
  unfold validRanking at h
  split at h
  next => cases h
  next hosts hhosts =>
    split at h
    next hchecks => exact ⟨hchecks.2.2.2.1, hosts, hhosts, hchecks.2.2.2.2.1⟩
    next => cases h

/-- The gaps of a ranking, with as many of supplemental competitors as there are. -/
theorem count_gaps (ready : Bool) (n : ℕ) :
    (if ready then List.replicate n supplementalGap
      else List.replicate n supplementalGap ++ [insufficientGap]).count supplementalGap = n := by
  cases ready with
  | true => exact List.count_replicate_self
  | false =>
      have hgap : [insufficientGap].count supplementalGap = 0 := by decide
      rw [if_neg Bool.false_ne_true, List.count_append, List.count_replicate_self, hgap,
        Nat.add_zero]

end Supplementals

/-- For every input on which the ranking returns, whatever the order of the supplemental
competitors: the candidates differ, they come in the order of the sort key, and the eligible
supplemental competitors have the places of the worst of the others. -/
theorem ranking_contract (lib : CompetitorLibrary) (snapshot : SerpMarketSnapshot)
    (request : RankingRequest) (supplementalWebsiteUrls : List String)
    (hsites : SitesHaveHosts lib snapshot) {result : CandidateRankingResult}
    (h : rankCompetitorCandidates lib snapshot request supplementalWebsiteUrls = .ok result) :
    ∃ domains, supplementalDomainsOf lib supplementalWebsiteUrls = .ok domains ∧
      domains.Nodup ∧ RankingContract lib domains result := by
  obtain ⟨observations, hobservations, h⟩ := ok_of_bind h
  obtain ⟨audited, haudited, h⟩ := ok_of_bind h
  obtain ⟨records, hrecords, h⟩ := ok_of_bind h
  obtain ⟨eligible, heligible, h⟩ := ok_of_bind h
  obtain ⟨domains, hdomains, h⟩ := ok_of_bind h
  dsimp only at h
  obtain ⟨_, hvalid, h⟩ := ok_of_bind h
  obtain rfl := Except.ok.inj h
  obtain ⟨before, hbefore, _⟩ := ok_of_map hrecords
  have hsorted : eligible.Pairwise fun a b => sortKey a ≤ sortKey b := by
    obtain ⟨ranked, _, rfl⟩ := ok_of_map heligible
    exact pairwise_sortedBy _ _
  have hhosts : ∀ record ∈ before, record.domain ≠ some "" := by
    obtain ⟨ranked, hranked, rfl⟩ := ok_of_map hbefore
    intro record hrecord
    rw [mem_sortedBy, List.reduceOption_mem_iff] at hrecord
    obtain ⟨audit, haudit, hrank⟩ := exists_left_of_mem (forall₂_of_mapM_ok hranked) hrecord
    obtain ⟨grouped, hgrouped, hrecordOf⟩ :=
      exists_left_of_mem (forall₂_of_mapM_ok haudited) haudit
    obtain ⟨_, hcandidate, hdomain⟩ := rankRecord_record hrank
    obtain ⟨item, hitem, domain, hitemDomain, website, url, hwebsite, hurl, hsite⟩ :=
      eligibleRecord_website hrecordOf hcandidate
    have hobserved : item ∈ observations := (groups_partition observations).mem_iff.1
      (List.mem_flatMap.2 ⟨grouped, hgrouped, hitem⟩)
    have hnone := hsites observations hobservations item hobserved domain hitemDomain website url
      hwebsite hurl
    rw [hsite] at hdomain
    intro hempty
    rw [hempty] at hdomain
    exact hnone hdomain
  have hdiffer := eligible_differ hbefore hhosts hrecords heligible
  have hfold := foldl_supplementalStep eligible domains domains (eligible.take candidateLimit) []
  refine ⟨domains, hdomains, ?_, ?_⟩
  · obtain ⟨found, _, rfl⟩ := ok_of_map hdomains
    exact nodup_sortedSet _
  · obtain ⟨hids, hwebsites⟩ := validRanking_ok hvalid
    rw [hfold] at hids hwebsites ⊢
    refine ⟨hids, hwebsites, eligible, _, heligible, hdiffer, rfl,
      keptBest_foldl hsorted (supplemental_nodup hdiffer) (mem_placed_iff hdiffer), ?_⟩
    exact count_gaps _ _

section Sample

def sampleRecord (recordId name host : String) (position : ℤ) : SerpMarketResultRecord :=
  { namedRecord recordId name with
    query := "plumber"
    resultType := .maps
    position := position
    url := some ("https://" ++ host ++ "/")
    normalizedDomain := some host
    address := some "1 Main St" }

def sampleRankingLibrary : CompetitorLibrary where
  unicode := asciiTables
  ip := sampleAddresses
  nfkc := id
  isWord := Char.isAlphanum
  isDecimal := Char.isDigit
  decodeUtf8 bytes := bytes.map fun b => Char.ofNat b.toNat
  httpUrl := some
  sha256 := id
  reciprocalLog position := 1 / position
  mean values := values.sum / values.length

def sampleSnapshot : SerpMarketSnapshot where
  queries := ["plumber", "drain cleaning", "pipe repair"]
  queryRuns := [[sampleRecord "r1" "First Plumber" "first.example" 1,
    sampleRecord "r2" "Second Plumber" "second.example" 2]]

def sampleRequest : RankingRequest where
  business := ⟨"My Plumber", "my.example", ⟨"Springfield", none, some "Springfield", none⟩, none⟩
  primaryService := "plumber"
  targetMarket := ⟨"Springfield", none, some "Springfield", none⟩

theorem sample_sites_have_hosts : SitesHaveHosts sampleRankingLibrary sampleSnapshot := by
  have hdomains : (observationsOf sampleRankingLibrary sampleSnapshot).toOption.all
      (fun observations => observations.all fun item =>
        item.domain = some "first.example" ∨ item.domain = some "second.example") = true := by
    decide
  intro observations hobservations item hitem domain hdomain website url hwebsite hurl
  rw [hobservations] at hdomains
  have hknown := of_decide_eq_true (List.all_eq_true.1 hdomains item hitem)
  obtain rfl := Option.some.inj hurl
  rcases hknown with hknown | hknown
  · obtain rfl := Option.some.inj (hdomain.symm.trans hknown)
    have hsite : canonicalCompetitorUrl sampleRankingLibrary (some "https://first.example") =
        .ok (some "https://first.example/") := by rfl
    obtain rfl := Option.some.inj (Except.ok.inj (hwebsite.symm.trans hsite))
    have hhost : normalizeDomain sampleRankingLibrary (some "https://first.example/") =
        .ok (some "first.example") := by rfl
    intro hempty
    exact absurd (Option.some.inj (Except.ok.inj (hhost.symm.trans hempty))) (by decide)
  · obtain rfl := Option.some.inj (hdomain.symm.trans hknown)
    have hsite : canonicalCompetitorUrl sampleRankingLibrary (some "https://second.example") =
        .ok (some "https://second.example/") := by rfl
    obtain rfl := Option.some.inj (Except.ok.inj (hwebsite.symm.trans hsite))
    have hhost : normalizeDomain sampleRankingLibrary (some "https://second.example/") =
        .ok (some "second.example") := by rfl
    intro hempty
    exact absurd (Option.some.inj (Except.ok.inj (hhost.symm.trans hempty))) (by decide)

theorem ranking_contract_sample :
    ∃ result, rankCompetitorCandidates sampleRankingLibrary sampleSnapshot sampleRequest
        ["https://second.example/", "https://third.example/"] = .ok result ∧
      ∃ domains, supplementalDomainsOf sampleRankingLibrary
        ["https://second.example/", "https://third.example/"] = .ok domains ∧
        domains.Nodup ∧ RankingContract sampleRankingLibrary domains result := by
  have hreturns : (rankCompetitorCandidates sampleRankingLibrary sampleSnapshot sampleRequest
      ["https://second.example/", "https://third.example/"]).toOption.isSome = true := by
    with_unfolding_all decide
  cases hcase : rankCompetitorCandidates sampleRankingLibrary sampleSnapshot sampleRequest
      ["https://second.example/", "https://third.example/"] with
  | error e =>
      rw [hcase] at hreturns
      cases hreturns
  | ok result =>
      exact ⟨result, rfl, ranking_contract sampleRankingLibrary sampleSnapshot sampleRequest
        ["https://second.example/", "https://third.example/"] sample_sites_have_hosts hcase⟩

end Sample

end SearchTrust.Competitors
