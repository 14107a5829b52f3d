/-
What the market rules decide on an eligible snapshot: one domain decision and one position
decision for every type of results of every query, right on the samples that may be
judged, and the same whatever the order of the results.
-/
import SearchTrust.Findings.MarketOrder

namespace SearchTrust.Findings

open SearchTrust.Market (SerpMarketResultRecord SerpResultType)
open SearchTrust.Order
open SearchTrust.Report (EvaluationState)
open SearchTrust.Report.Outcomes

section Sources

variable {lib : FindingsLibrary} {context : MarketContext} {source other : SerpSource}
  {localityFields reviewed sampling : Bool} {view view' : EvidenceView}

theorem flatMap_eq_of_forall₂ {α β γ : Type*} {R : α → β → Prop} {f : α → List γ}
    {g : β → List γ} {items : List α} {other : List β} (h : List.Forall₂ R items other)
    (hfg : ∀ a ∈ items, ∀ b ∈ other, R a b → g b = f a) : other.flatMap g = items.flatMap f := by
  induction h with
  | nil => rfl
  | cons hab _ ih =>
      rw [List.flatMap_cons, List.flatMap_cons,
        hfg _ List.mem_cons_self _ List.mem_cons_self hab, ih fun a ha b hb =>
          hfg a (List.mem_cons_of_mem _ ha) b (List.mem_cons_of_mem _ hb)]

/-- The runs of reordered sources, at the same indexes. -/
theorem Reordered.zipIdx (h : Reordered source other) :
    List.Forall₂ (fun entry entry' : SerpQueryRun × ℕ =>
        entry'.2 = entry.2 ∧ RunReordered entry.1 entry'.1)
      source.payload.queryRuns.zipIdx other.payload.queryRuns.zipIdx := by
  have hruns : ∀ {runs runs' : List SerpQueryRun}, List.Forall₂ RunReordered runs runs' → ∀ n,
      List.Forall₂ (fun entry entry' : SerpQueryRun × ℕ =>
        entry'.2 = entry.2 ∧ RunReordered entry.1 entry'.1) (runs.zipIdx n) (runs'.zipIdx n) := by
    intro runs runs' hall
    induction hall with
    | nil => exact fun _ => .nil
    | cons hrun _ ih => exact fun n => .cons ⟨rfl, hrun⟩ (ih (n + 1))
  exact hruns h.runs 0

theorem Sees.available (h : Sees lib source localityFields view)
    (heligible : source.businessEligible = true) : view.available = some source := by
  rw [EvidenceView.available, h.shown, Option.filter_some, if_pos heligible]

/-- All decisions are the same for reordered sources. -/
theorem Alike.evaluate (h : Alike lib source other localityFields view view')
    (heligible : source.businessEligible = true) :
    evaluate lib view' context reviewed sampling = evaluate lib view context reviewed sampling := by
  have heligible' : other.businessEligible = true := by
    rw [h.reordered.businessEligible, heligible]
  have hkinds : (runKinds other).map (fun item =>
        evaluateKind lib view' context reviewed sampling other item.1.2 item.1.1 item.2) =
      (runKinds source).map fun item =>
        evaluateKind lib view context reviewed sampling source item.1.2 item.1.1 item.2 := by
    rw [runKinds, runKinds, List.map_flatMap, List.map_flatMap]
    refine flatMap_eq_of_forall₂ h.reordered.zipIdx ?_
    rintro ⟨run, index⟩ hrun ⟨run', index'⟩ hrun' ⟨hindex, hreordered⟩
    dsimp only at hindex
    subst hindex
    have hrunAlike : RunAlike lib source other localityFields view view' index' run run' :=
      ⟨h, hreordered, hrun, hrun'⟩
    simp only [List.map_map, Function.comp_def, hrunAlike.evaluateKind]
  have hmapM : ∀ (view : EvidenceView) (source : SerpSource), view.available = some source →
      Findings.evaluate lib view context reviewed sampling =
        Except.map List.flatten (((runKinds source).map fun item =>
          evaluateKind lib view context reviewed sampling source item.1.2 item.1.1 item.2).mapM
            id) := by
    intro view source havailable
    rw [Findings.evaluate, havailable, List.mapM_map]
    rfl
  rw [hmapM view' other (h.sees'.available heligible'), hkinds,
    hmapM view source (h.sees.available heligible)]

theorem viewOf_ok (hids : Consistent lib.evidenceId (observations source sampling))
    (heligible : source.businessEligible = true) :
    ∃ view, viewOf lib sampling source = .ok view ∧ Sees lib source sampling view := by
  obtain ⟨items, hitems⟩ := build_of_consistent hids
  refine ⟨⟨some source, observations source sampling, items⟩, ?_, rfl, rfl,
    indexed_of_build hitems⟩
  rw [viewOf, if_pos heligible, hitems]
  rfl

/-- The market rules make one decision of each rule on every type of results of every
query of an eligible source. On a sample that is not empty, of a call that succeeded, and
that passes the checks of its scope and its locality, the domain rule triggers exactly
where every result shows a URL and none the host of the client, and the position rule
exactly where two competitors are ahead; and the order of the results does not matter. -/
theorem market_rules (lib : FindingsLibrary) (context : MarketContext) (reviewed sampling : Bool)
    (source : SerpSource) (heligible : source.businessEligible = true)
    (hdomains : (lib.host context.siteUrl ::
      context.competitors.map fun competitor => lib.host competitor.websiteUrl).Nodup)
    (hids : Consistent lib.evidenceId (observations source sampling)) :
    ∃ outcomes, marketOutcomes lib context reviewed sampling source = .ok outcomes ∧
      (∀ run ∈ source.payload.queryRuns, ∀ kind, ∃ domain ahead,
        outcomes.filter (About .domain run.query kind) = [domain] ∧
        outcomes.filter (About .ahead run.query kind) = [ahead] ∧
        ((run.callOf kind).2.status = .succeeded → sampleOf run kind ≠ [] →
          PassesScope lib context reviewed run kind →
          PassesLocality lib context (reviewed && sampling) run kind →
          Judged lib context run kind domain ahead)) ∧
      ∀ other, Reordered source other →
        marketOutcomes lib context reviewed sampling other = .ok outcomes := by
  obtain ⟨view, hview, hsees⟩ := viewOf_ok hids heligible
  obtain ⟨outcomes, houtcomes, hall⟩ := evaluate_ok reviewed (reviewed && sampling)
    hsees heligible (List.nodup_cons.1 hdomains).2
  refine ⟨outcomes, ?_, hall, fun other hother => ?_⟩
  · rw [marketOutcomes, if_pos hdomains, hview]
    exact houtcomes
  · have heligible' : other.businessEligible = true := by
      rw [hother.businessEligible, heligible]
    obtain ⟨view', hview', hsees'⟩ := viewOf_ok (hother.consistent hids) heligible'
    have halike : Alike lib source other sampling view view' := ⟨hother, hsees, hsees'⟩
    rw [marketOutcomes, if_pos hdomains, hview']
    exact (halike.evaluate heligible).trans houtcomes

end Sources

section Samples

/-- The host of a URL of these samples, without its scheme. -/
def sampleHost (url : String) : String :=
  String.ofList ((url.toList.drop 8).takeWhile (· ≠ '/'))

/-- Libraries for a sample: an id is made of what tells an observation from the others. -/
def sampleFindingsLibrary : FindingsLibrary where
  host := sampleHost
  evidenceId := fun observation => "ev_" ++ "/".intercalate
    (observation.recordContext ++ [observation.field])
  findingId := fun caseId rule target _ _ => "fi_" ++ caseId ++ rule.id ++ target.query
  targetKey := fun target => target.query
  repr := fun text => "'" ++ text ++ "'"
  folded := fun text => text.toList.map Char.toLower
  isWord := Char.isAlphanum
  canonicalUrl := id
  classifyRecord := fun _ _ => ("unknown", [])

def sampleCall (id : String) (kinds : List SerpResultType) : SerpCallRecord where
  callId := id
  resultTypes := kinds
  latitude := 52
  longitude := 13
  countryCode := "DE"
  language := "de"
  device := .desktop
  status := .succeeded
  completedAt := 0

def sampleResult (id : String) (position : ℤ) (url : String) : SerpMarketResultRecord where
  recordId := id
  callId := "maps"
  query := "plumber"
  resultType := .maps
  position := position
  rankSource := .providerPosition
  displayName := id
  url := some url
  normalizedDomain := none
  providerPlaceId := none
  providerDataId := none
  providerCid := none
  address := none
  phone := none
  categories := []
  rating := none
  reviewCount := none
  snippet := none
  providerSearchId := none
  responseChecksum := ""
  observedAt := 0
  latitude := 52
  longitude := 13
  countryCode := "DE"
  language := "de"
  device := .desktop

/-- A query whose Google call has no results. -/
def sampleRun : SerpQueryRun where
  query := "plumber"
  mapsCall := sampleCall "maps" [.maps]
  googleCall := sampleCall "google" [.localPack, .organic]
  results := [sampleResult "first" 1 "https://a.example/", sampleResult "second" 2
    "https://b.example/", sampleResult "third" 3 "https://c.example/"]
  complete := true
  limitations := []

def sampleSource : SerpSource where
  snapshotId := "snapshot"
  fetchedAt := 0
  businessEligible := true
  payload :=
    { targetPoint := ⟨52, 13, "DE"⟩
      queryRuns := [sampleRun]
      resultCounts := [(.maps, 3)]
      limitations := []
      queriesDiffer := List.nodup_singleton _ }

def sampleContext : MarketContext where
  caseId := "case"
  siteUrl := "https://c.example/"
  competitors := [⟨"a", "https://a.example/"⟩, ⟨"b", "https://b.example/"⟩]
  targetMarket := ⟨some 52, some 13, "DE", none, none⟩
  queries := ["plumber"]
  searchLanguage := "de"
  searchDevice := .desktop

theorem market_rules_sample :
    ∃ outcomes, marketOutcomes sampleFindingsLibrary sampleContext true false sampleSource =
        .ok outcomes ∧
      (∀ run ∈ sampleSource.payload.queryRuns, ∀ kind, ∃ domain ahead,
        outcomes.filter (About .domain run.query kind) = [domain] ∧
        outcomes.filter (About .ahead run.query kind) = [ahead] ∧
        ((run.callOf kind).2.status = .succeeded → sampleOf run kind ≠ [] →
          PassesScope sampleFindingsLibrary sampleContext true run kind →
          PassesLocality sampleFindingsLibrary sampleContext (true && false) run kind →
          Judged sampleFindingsLibrary sampleContext run kind domain ahead)) ∧
      ∀ other, Reordered sampleSource other →
        marketOutcomes sampleFindingsLibrary sampleContext true false other = .ok outcomes :=
  market_rules sampleFindingsLibrary sampleContext true false sampleSource rfl
    (by decide) (by unfold Consistent; decide)

/-- The type of results without a result is not judged, though it shows no result without
a URL and none of the client. -/
theorem empty_sample_not_judged :
    ∃ outcomes, marketOutcomes sampleFindingsLibrary sampleContext true false sampleSource =
        .ok outcomes ∧
      ¬ ∀ run ∈ sampleSource.payload.queryRuns, ∀ kind, ∃ domain ahead,
        outcomes.filter (About .domain run.query kind) = [domain] ∧
        outcomes.filter (About .ahead run.query kind) = [ahead] ∧
        ((run.callOf kind).2.status = .succeeded →
          PassesScope sampleFindingsLibrary sampleContext true run kind →
          PassesLocality sampleFindingsLibrary sampleContext (true && false) run kind →
          Judged sampleFindingsLibrary sampleContext run kind domain ahead) := by
  have hstates : (marketOutcomes sampleFindingsLibrary sampleContext true false sampleSource).map
      (fun outcomes => (outcomes.filter (About .domain "plumber" .localPack)).map
        fun outcome => outcome.evaluation.state) = .ok [.notChecked] := by
    decide
  obtain ⟨outcomes, houtcomes, hfilter⟩ := ok_of_map hstates
  refine ⟨outcomes, houtcomes, fun h => ?_⟩
  obtain ⟨domain, ahead, hdomain, -, hjudged⟩ := h sampleRun (List.mem_singleton_self _) .localPack
  rw [show sampleRun.query = "plumber" from rfl] at hdomain
  rw [hdomain, List.map_singleton, List.cons.injEq] at hfilter
  have hunobserved : Unobserved sampleFindingsLibrary sampleContext
      (sampleOf sampleRun .localPack) := by
    rw [show sampleOf sampleRun .localPack = [] by decide]
    exact fun _ hrecord => absurd hrecord List.not_mem_nil
  have htriggered := (hjudged rfl (by simp [PassesScope]) (by simp [PassesLocality])).domain.2
    hunobserved
  rw [htriggered] at hfilter
  exact EvaluationState.noConfusion hfilter.1

end Samples

end SearchTrust.Findings
