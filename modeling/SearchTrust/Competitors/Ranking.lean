/-
The ranking of competitor candidates: shared websites are suppressed, the best records are
selected, and supplemental competitors replace the worst of the others.
-/
import SearchTrust.Competitors.Candidates
import SearchTrust.Order.Replacement

namespace SearchTrust.Competitors

open SearchTrust.Order

/-- `COMPETITOR_DISCOVERY_CANDIDATE_LIMIT`. -/
def candidateLimit : ℕ := 6

/-- `COMPETITOR_MIN_COUNT`. -/
def competitorMinCount : ℕ := 1

/-- An eligible record with its score, its candidate and the domain of its website. -/
structure RankedRecord where
  record : CandidateAuditRecord
  score : CandidateScore
  candidate : CompetitorCandidate
  domain : Option String
deriving DecidableEq

/-- `_sort_key`. -/
def sortKey (ranked : RankedRecord) : ℚ ×ₗ ℤ ×ₗ ℚ ×ₗ ℚ ×ₗ String :=
  toLex (-ranked.score.total, toLex (-(ranked.candidate.queryAppearanceCount : ℤ),
    toLex (-ranked.score.rank, toLex (-ranked.score.businessRelevance,
      ranked.candidate.competitorId))))

section Suppression

variable (lib : CompetitorLibrary)

/-- An eligible record, with what the ranking reads of it. -/
def rankRecord (record : CandidateAuditRecord) : Except RankingError (Option RankedRecord) :=
  match record.disposition, record.score, record.candidate with
  | .eligible, some score, some candidate =>
      (normalizeDomain lib (some candidate.websiteUrl)).map fun domain =>
        some ⟨record, score, candidate, domain⟩
  | _, _, _ => .ok none

/-- The eligible records, the best first. -/
def eligibleRecords (records : List CandidateAuditRecord) :
    Except RankingError (List RankedRecord) :=
  (records.mapM (rankRecord lib)).map fun ranked => sortedBy sortKey ranked.reduceOption

/-- The record of a suppressed candidate. -/
def suppressed (ranked : RankedRecord) : CandidateAuditRecord where
  identity := ranked.record.identity
  disposition := .excluded
  reasonCode := "shared_competitor_website"
  score := ranked.record.score
  candidate := none
  valid := rfl

/-- The loop over the eligible records: the later ones of each domain are replaced. -/
def sharedWebsites : List String → List RankedRecord → List (String × CandidateAuditRecord)
  | _, [] => []
  | seen, ranked :: rest =>
      match ranked.domain.filter (· ≠ "") with
      | none => sharedWebsites seen rest
      | some domain =>
          if domain ∈ seen then
            (ranked.record.identity.stableIdentityKey, suppressed ranked) ::
              sharedWebsites seen rest
          else sharedWebsites (domain :: seen) rest

/-- `replacements.get(record.identity.stable_identity_key, record)`. -/
def replaced (replacements : List (String × CandidateAuditRecord))
    (record : CandidateAuditRecord) : CandidateAuditRecord :=
  match replacements.reverse.find? (·.1 = record.identity.stableIdentityKey) with
  | some entry => entry.2
  | none => record

/-- `_suppress_shared_websites`. -/
def suppressSharedWebsites (records : List CandidateAuditRecord) :
    Except RankingError (List CandidateAuditRecord) :=
  (eligibleRecords lib records).map fun eligible =>
    records.map (replaced (sharedWebsites [] eligible))

end Suppression

section Selection

/-- The record of a supplemental competitor. -/
def isSupplemental (supplementalDomains : List String) (ranked : RankedRecord) : Bool :=
  ranked.domain.any (· ∈ supplementalDomains)

/-- The gap of a supplemental competitor that is not eligible. -/
def supplementalGap : DataGap where
  gapCode := "SUPPLEMENTAL_COMPETITOR_NOT_IN_MARKET"
  message := "A supplemental competitor was not eligible in the current market snapshot."
  blocking := false
  resolution := "Adjust the confirmed queries and run competitor discovery again."

/-- The gap of a ranking without candidates. -/
def insufficientGap : DataGap where
  gapCode := "INSUFFICIENT_COMPETITORS"
  message := "No eligible competitors were found."
  blocking := true
  resolution :=
    "Add at least one market-visible competitor or adjust the confirmed queries."

/-- `eligible_by_domain.get(domain)`. -/
def eligibleByDomain (eligible : List RankedRecord) (domain : String) : Option RankedRecord :=
  eligible.reverse.find? (·.domain = some domain)

/-- One turn of the loop over the supplemental domains: an eligible competitor that is not
selected replaces the last one that is not supplemental (`replace_index`). -/
def supplementalStep (eligible : List RankedRecord) (supplementalDomains : List String)
    (state : List RankedRecord × List DataGap) (domain : String) :
    List RankedRecord × List DataGap :=
  match eligibleByDomain eligible domain with
  | none => (state.1, state.2 ++ [supplementalGap])
  | some supplemental =>
      (placeKept (isSupplemental supplementalDomains) sortKey state.1 supplemental, state.2)

end Selection

section Ranking

variable (lib : CompetitorLibrary)

/-- `supplemental_domains`, sorted. -/
def supplementalDomainsOf (urls : List String) : Except RankingError (List String) :=
  (urls.mapM fun url => normalizeDomain lib (some url)).map fun domains =>
    sortedSet domains.reduceOption

/-- `validate_ranking`, with the bounds of the fields. -/
def validRanking (result : CandidateRankingResult) : Except RankingError Unit :=
  match result.candidates.mapM fun candidate => websiteHost lib candidate.websiteUrl with
  | none => .error .valueError
  | some hosts =>
      if result.candidates.length ≤ candidateLimit ∧ result.auditRecords.length ≤ 300 ∧
          result.dataGaps.length ≤ 50 ∧
          (result.candidates.map (·.competitorId)).Nodup ∧ hosts.Nodup ∧
          (result.readyForConfirmation = true →
            competitorMinCount ≤ result.candidates.length) ∧
          (result.readyForConfirmation = false →
            result.dataGaps.any (·.blocking) = true) then .ok ()
      else .error (.validation "CandidateRankingResult")

/-- `rank_competitor_candidates`. -/
def rankCompetitorCandidates (snapshot : SerpMarketSnapshot) (request : RankingRequest)
    (supplementalWebsiteUrls : List String) : Except RankingError CandidateRankingResult := do
  let observations ← observationsOf lib snapshot
  let audited ← (groups observations).mapM (eligibleRecord lib request snapshot.queries.length)
  let records ← suppressSharedWebsites lib audited
  let eligible ← eligibleRecords lib records
  let supplementalDomains ← supplementalDomainsOf lib supplementalWebsiteUrls
  let state := supplementalDomains.foldl (supplementalStep eligible supplementalDomains)
    (eligible.take candidateLimit, [])
  let candidates := state.1.map (·.candidate)
  let ready := decide (competitorMinCount ≤ candidates.length)
  let result := {
    candidates := candidates
    auditRecords := records
    readyForConfirmation := ready
    dataGaps := if ready then state.2 else state.2 ++ [insufficientGap]
    limitations := [] }
  let _ ← validRanking lib result
  return result

end Ranking

end SearchTrust.Competitors
