/-
What the search through the sitemaps promises: it ends, it fetches each file once and not
too many, and a search that reports no limit has found the pages of all sitemaps within
reach, provided that it only meets failures that it catches.
-/
import SearchTrust.Inventory.Sitemaps
import SearchTrust.Report.Outcomes
import SearchTrust.Web.PublicConnections

namespace SearchTrust.Inventory

open SearchTrust.Order
open SearchTrust.Web (Text text urlunsplit hostForbidden sampleLibraries)

section Pages

variable {search : SitemapSearch} {pages urls : List Text}

/-- What the loop over the pages of a document keeps. -/
structure Taken (search : SitemapSearch) (pages urls result : List Text) : Prop where
  grows : pages <+: result
  distinct : pages.Nodup → result.Nodup
  sources : ∀ page ∈ result, page ∈ pages ∨ page ∈ urls ∧ search.allowed page = true
  short : pages.length < search.pageLimit → result.length ≤ search.pageLimit
  all : result.length < search.pageLimit → ∀ page ∈ urls, search.allowed page = true →
    page ∈ result

theorem nodup_snoc {page : Text} (h : pages.Nodup) (hnew : page ∉ pages) :
    (pages ++ [page]).Nodup := by
  rw [List.nodup_append]
  refine ⟨h, List.nodup_singleton _, ?_⟩
  intro other hother last hlast
  rw [List.mem_singleton.1 hlast]
  rintro rfl
  exact hnew hother

theorem taken_takePages (search : SitemapSearch) (pages urls : List Text) :
    Taken search pages urls (takePages search pages urls) := by
  induction urls generalizing pages with
  | nil =>
      refine ⟨List.prefix_refl _, id, fun page h => .inl h, fun h => h.le, ?_⟩
      intro _ page hpage
      exact absurd hpage List.not_mem_nil
  | cons url urls ih =>
      rw [takePages]
      split
      next hnew =>
        split
        next hfull =>
          refine ⟨List.prefix_append _ _, fun h => nodup_snoc h hnew.2, ?_, ?_, ?_⟩
          · intro page hpage
            rcases List.mem_append.1 hpage with hpage | hpage
            · exact .inl hpage
            · rw [List.mem_singleton.1 hpage]
              exact .inr ⟨List.mem_cons_self, hnew.1⟩
          · intro hlt
            rw [List.length_append, List.length_singleton]
            exact hlt
          · intro hlt
            exact absurd hlt (not_lt.2 hfull)
        next hroom =>
          have hrest := ih (pages ++ [url])
          refine ⟨(List.prefix_append _ _).trans hrest.grows,
            fun h => hrest.distinct (nodup_snoc h hnew.2), ?_,
            fun _ => hrest.short (not_le.1 hroom), ?_⟩
          · intro page hpage
            rcases hrest.sources page hpage with h | h
            · rcases List.mem_append.1 h with h | h
              · exact .inl h
              · rw [List.mem_singleton.1 h]
                exact .inr ⟨List.mem_cons_self, hnew.1⟩
            · exact .inr ⟨List.mem_cons_of_mem _ h.1, h.2⟩
          · intro hlt page hpage hallowed
            rcases List.mem_cons.1 hpage with rfl | hpage
            · exact hrest.grows.subset (List.mem_append_right _ (List.mem_singleton_self _))
            · exact hrest.all hlt page hpage hallowed
      next hknown =>
        have hrest := ih pages
        refine ⟨hrest.grows, hrest.distinct, ?_, hrest.short, ?_⟩
        · intro page hpage
          rcases hrest.sources page hpage with h | h
          · exact .inl h
          · exact .inr ⟨List.mem_cons_of_mem _ h.1, h.2⟩
        · intro hlt page hpage hallowed
          rcases List.mem_cons.1 hpage with rfl | hpage
          · rw [not_and_or, not_not] at hknown
            exact hrest.grows.subset (hknown.resolve_left (not_not_intro hallowed))
          · exact hrest.all hlt page hpage hallowed

end Pages

section Contracts

variable (lib : SitemapLibraries) (search : SitemapSearch)

/-- The sitemaps that a readable sitemap index names. -/
def childSitemaps (url : Text) : List Text :=
  match readSitemap lib search url with
  | .ok document => document.childSitemaps
  | .error _ => []

/-- An allowed page of a readable sitemap. -/
def AllowedPage (url page : Text) : Prop :=
  ∃ document, readSitemap lib search url = .ok document ∧ page ∈ document.pageUrls ∧
    search.allowed page = true

/-- What a search promises for its fetches and its result. -/
structure SitemapContract (sitemapUrls fetches : List Text) (result : SitemapDiscoveryResult) :
    Prop where
  once : fetches.Nodup
  few : fetches.length ≤ search.maxFiles
  counted : result.fetchedSitemaps = fetches.length
  distinct : result.pageUrls.Nodup
  short : result.pageUrls.length ≤ search.pageLimit
  allowed : ∀ page ∈ result.pageUrls, search.allowed page = true
  canonical : ∀ page ∈ result.pageUrls, ∃ value base,
    canonicalizeInventoryUrl lib.toUrlLibraries search.scope value base = some page
  inScope : ∀ page ∈ result.pageUrls, ∃ path query,
    page = urlunsplit search.scope.scheme search.scope.canonicalHost path query
  complete : "sitemap_file_limit_reached" ∉ result.limitations →
    "sitemap_page_limit_reached" ∉ result.limitations →
    ∀ page, page ∈ result.pageUrls ↔ ∃ n ≤ search.maxDepth, ∃ url,
      ReachedIn (searchRoots lib search sitemapUrls) (childSitemaps lib search) n url ∧
        AllowedPage lib search url page

/-- What the loop keeps true. -/
structure Searches (sitemapUrls : List Text) (state : Searching) : Prop where
  found : ∃ done, done.map Prod.fst = state.visited ∧
    SearchValid (searchRoots lib search sitemapUrls) (childSitemaps lib search) search.maxDepth
      done state.queue
  fetches : state.fetches = state.visited
  few : state.visited.length ≤ search.maxFiles
  distinct : state.pages.Nodup
  short : state.pages.length ≤ search.pageLimit
  sources : ∀ page ∈ state.pages, ∃ url ∈ state.visited, AllowedPage lib search url page
  full : state.pages.length < search.pageLimit → ∀ url ∈ state.visited, ∀ page,
    AllowedPage lib search url page → page ∈ state.pages

/-- The URL that the next turn of the loop fetches. -/
def Searching.nextFetch (state : Searching) : Option Text :=
  match state.queue with
  | [] => none
  | (url, _) :: _ =>
      if state.visited.length < search.maxFiles ∧ state.pages.length < search.pageLimit ∧
        url ∉ state.visited then some url
      else none

/-- A sitemap that can be read, or whose failure is one that the search catches. -/
def Readable (url : Text) : Prop :=
  ∀ error, readSitemap lib search url = .error error → error.isCaught = true

/-- The states of a search. -/
inductive SearchReaches (sitemapUrls : List Text) : Searching → Prop where
  | start : SearchReaches sitemapUrls (searchStart lib search sitemapUrls)
  | step {state after : Searching} (h : SearchReaches sitemapUrls state)
      (hstep : searchStep lib search state = some (.ok after)) :
      SearchReaches sitemapUrls after

end Contracts

section Steps

variable {lib : SitemapLibraries} {search : SitemapSearch} {sitemapUrls : List Text}

theorem searches_start (lib : SitemapLibraries) (search : SitemapSearch)
    (sitemapUrls : List Text) :
    Searches lib search sitemapUrls (searchStart lib search sitemapUrls) where
  found := ⟨[], rfl, searchValid_start _ _ _⟩
  fetches := rfl
  few := Nat.zero_le _
  distinct := List.nodup_nil
  short := Nat.zero_le _
  sources := fun _ h => absurd h List.not_mem_nil
  full := fun _ _ h => absurd h List.not_mem_nil

/-- What a turn of the loop does. -/
theorem searchStep_some {state : Searching} {outcome : Except SearchFailure Searching}
    (h : searchStep lib search state = some outcome) :
    ∃ url depth rest, state.queue = (url, depth) :: rest ∧
      state.visited.length < search.maxFiles ∧ state.pages.length < search.pageLimit ∧
      outcome = if url ∈ state.visited then .ok { state with queue := rest }
        else visitSitemap lib search state url depth rest := by
  unfold searchStep at h
  split at h
  next => cases h
  next url depth rest hqueue =>
    split at h
    next hroom => exact ⟨url, depth, rest, hqueue, hroom.1, hroom.2, (Option.some.inj h).symm⟩
    next => cases h

/-- Queued URLs are not visited. -/
theorem Searches.head_new {state : Searching} (h : Searches lib search sitemapUrls state)
    {url : Text} {depth : ℕ} {rest : List (Text × ℕ)} (hqueue : state.queue = (url, depth) :: rest) :
    url ∉ state.visited := by
  obtain ⟨done, hdone, hvalid⟩ := h.found
  rw [hqueue] at hvalid
  rw [← hdone]
  exact hvalid.head_not_done

/-- What one turn keeps true. -/
theorem Searches.step {state after : Searching} (h : Searches lib search sitemapUrls state)
    (hstep : searchStep lib search state = some (.ok after)) :
    Searches lib search sitemapUrls after := by
  obtain ⟨url, depth, rest, hqueue, hfiles, hpages, hvisit⟩ := searchStep_some hstep
  have hnew := h.head_new hqueue
  rw [if_neg hnew] at hvisit
  obtain ⟨done, hdone, hvalid⟩ := h.found
  rw [hqueue] at hvalid
  have hmap : (done ++ [(url, depth)]).map Prod.fst = state.visited ++ [url] := by
    rw [List.map_append, hdone, List.map_singleton]
  have hknown : ∀ item, item ∈ (done ++ (url, depth) :: rest).map Prod.fst ↔
      item ∈ state.visited ++ [url] ∨ item ∈ rest.map Prod.fst := by
    intro item
    rw [List.map_append, List.map_cons, hdone, List.mem_append, List.mem_append, List.mem_cons,
      List.mem_singleton, or_assoc]
  have hlength : (state.visited ++ [url]).length ≤ search.maxFiles := by
    rw [List.length_append, List.length_singleton]
    exact hfiles
  unfold visitSitemap at hvisit
  dsimp only at hvisit
  split at hvisit
  next error hread =>
    split at hvisit
    next =>
      have hafter := Except.ok.inj hvisit
      have hchildren : childSitemaps lib search url = [] := by rw [childSitemaps, hread]
      have hnone : ∀ page, ¬ AllowedPage lib search url page := by
        rintro page ⟨document, hdocument, _⟩
        rw [hread] at hdocument
        cases hdocument
      have hnext := hvalid.visit (@List.nodup_nil Text)
        (fun _ h => absurd h List.not_mem_nil) (by
          intro _ item hitem
          rw [hchildren] at hitem
          exact absurd hitem List.not_mem_nil)
      rw [List.map_nil, List.append_nil] at hnext
      rw [hafter]
      refine ⟨⟨_, hmap, hnext⟩, ?_, hlength, h.distinct, h.short, ?_, ?_⟩
      · rw [h.fetches]
      · intro page hpage
        obtain ⟨source, hsource, hallowed⟩ := h.sources page hpage
        exact ⟨source, List.mem_append_left _ hsource, hallowed⟩
      · intro hroom source hsource page hallowed
        rcases List.mem_append.1 hsource with hsource | hsource
        · exact h.full hroom source hsource page hallowed
        · rw [List.mem_singleton.1 hsource] at hallowed
          exact absurd hallowed (hnone page)
    next => cases hvisit
  next document hread =>
    have hafter := Except.ok.inj hvisit
    have hchildren : childSitemaps lib search url = document.childSitemaps := by
      rw [childSitemaps, hread]
    have htaken := taken_takePages search state.pages document.pageUrls
    have hallowed : ∀ page, AllowedPage lib search url page ↔
        page ∈ document.pageUrls ∧ search.allowed page = true := by
      intro page
      constructor
      · rintro ⟨other, hother, hpage⟩
        rw [hread] at hother
        cases hother
        exact hpage
      · exact fun hpage => ⟨document, hread, hpage⟩
    have hnext : SearchValid (searchRoots lib search sitemapUrls) (childSitemaps lib search)
        search.maxDepth (done ++ [(url, depth)])
        (if depth < search.maxDepth then
          enqueue (state.visited ++ [url]) (depth + 1) rest document.childSitemaps else rest) := by
      by_cases hdepth : depth < search.maxDepth
      · rw [if_pos hdepth]
        obtain ⟨fresh, hfresh, hnodup, hitems, hall⟩ :=
          enqueue_eq (state.visited ++ [url]) (depth + 1) rest document.childSitemaps
        rw [hfresh]
        refine hvalid.visit hnodup ?_ ?_
        · intro item hitem
          obtain ⟨hchild, hunvisited, hunqueued⟩ := hitems item hitem
          refine ⟨hdepth, hchildren ▸ hchild, fun hmem => ?_⟩
          exact ((hknown item).1 hmem).elim hunvisited hunqueued
        · intro _ item hitem
          rw [hchildren] at hitem
          rw [hknown, or_assoc]
          exact hall item hitem
      · rw [if_neg hdepth]
        have hnext := hvalid.visit (@List.nodup_nil Text)
          (fun _ h => absurd h List.not_mem_nil) (fun hlt => absurd hlt hdepth)
        rwa [List.map_nil, List.append_nil] at hnext
    rw [hafter]
    refine ⟨⟨_, hmap, hnext⟩, ?_, hlength, htaken.distinct h.distinct, htaken.short hpages, ?_, ?_⟩
    · rw [h.fetches]
    · intro page hpage
      rcases htaken.sources page hpage with hpage | hpage
      · obtain ⟨source, hsource, hallowed⟩ := h.sources page hpage
        exact ⟨source, List.mem_append_left _ hsource, hallowed⟩
      · exact ⟨url, List.mem_append_right _ (List.mem_singleton_self _), (hallowed page).2 hpage⟩
    · intro hroom source hsource page hpage
      rcases List.mem_append.1 hsource with hsource | hsource
      · have hbefore := htaken.grows.length_le.trans_lt hroom
        exact htaken.grows.subset (h.full hbefore source hsource page hpage)
      · rw [List.mem_singleton.1 hsource, hallowed] at hpage
        exact htaken.all hroom page hpage.1 hpage.2

theorem Searches.of_reaches {state : Searching} (h : SearchReaches lib search sitemapUrls state) :
    Searches lib search sitemapUrls state := by
  induction h with
  | start => exact searches_start _ _ _
  | step _ hstep ih => exact ih.step hstep

end Steps

section Documents

variable {lib : SitemapLibraries} {search : SitemapSearch}

theorem mem_locations {document : XmlDocument} {canonicalize : Text → Option Text} {url : Text}
    (h : url ∈ locations lib document canonicalize) : ∃ value, canonicalize value = some url := by
  rw [locations, List.mem_eraseDups, List.mem_filterMap] at h
  obtain ⟨element, _, helement⟩ := h
  split at helement
  next => cases helement
  next =>
    obtain ⟨value, _, hvalue⟩ := Option.bind_eq_some_iff.1 helement
    exact ⟨value, hvalue⟩

/-- The pages of a document are canonical URLs of the scope. -/
theorem canonical_of_read {url page : Text} {document : SitemapDocument}
    (h : readSitemap lib search url = .ok document) (hpage : page ∈ document.pageUrls) :
    ∃ value base,
      canonicalizeInventoryUrl lib.toUrlLibraries search.scope value base = some page := by
  obtain ⟨response, _, h⟩ := Report.Outcomes.ok_of_bind h
  dsimp only at h
  split at h
  next => cases h
  unfold parseSitemapDocument at h
  obtain ⟨payload, _, h⟩ := Report.Outcomes.ok_of_bind h
  dsimp only at h
  split at h
  next => cases h
  split at h
  next => cases h
  obtain ⟨parsed, _, h⟩ := Report.Outcomes.ok_of_bind h
  split at h
  next => cases h
  split at h
  next =>
    cases h
    obtain ⟨value, hvalue⟩ := mem_locations hpage
    exact ⟨value, _, hvalue⟩
  next =>
    split at h
    next =>
      cases h
      exact absurd hpage List.not_mem_nil
    next => cases h

/-- A canonical URL has the scheme and the host of the scope. -/
theorem inScope_of_canonical {lib : UrlLibraries} {scope : SiteScope} {value : Text}
    {base : Option Text} {page : Text}
    (h : canonicalizeInventoryUrl lib scope value base = some page) :
    ∃ path query, page = urlunsplit scope.scheme scope.canonicalHost path query := by
  unfold canonicalizeInventoryUrl at h
  split at h
  next => cases h
  next =>
    dsimp only at h
    split at h
    next => cases h
    next =>
      obtain ⟨items, _, hitems⟩ := Option.map_eq_some_iff.1 h
      exact ⟨_, _, hitems.symm⟩

end Documents

section Ends

variable {lib : SitemapLibraries} {search : SitemapSearch} {sitemapUrls : List Text}

theorem searchLoop_end {state : Searching} (h : searchStep lib search state = none) :
    searchLoop lib search state = .ok state := by
  rw [searchLoop]
  split
  next => rfl
  next heq => exact absurd (heq.symm.trans h) (Option.some_ne_none _)
  next heq => exact absurd (heq.symm.trans h) (Option.some_ne_none _)

theorem searchLoop_fail {state : Searching} {failure : SearchFailure}
    (h : searchStep lib search state = some (.error failure)) :
    searchLoop lib search state = .error failure := by
  rw [searchLoop]
  split
  next heq => exact absurd (h.symm.trans heq) (Option.some_ne_none _)
  next heq => rw [Except.error.inj (Option.some.inj (h.symm.trans heq))]
  next heq => cases Option.some.inj (h.symm.trans heq)

theorem searchLoop_step {state after : Searching}
    (h : searchStep lib search state = some (.ok after)) :
    searchLoop lib search state = searchLoop lib search after := by
  rw [searchLoop]
  split
  next heq => exact absurd (h.symm.trans heq) (Option.some_ne_none _)
  next heq => cases Option.some.inj (h.symm.trans heq)
  next heq => rw [Except.ok.inj (Option.some.inj (h.symm.trans heq))]

/-- Where a loop ends: in a state without a next turn, or at a turn that fails. -/
theorem searchLoop_ends {state : Searching} (h : SearchReaches lib search sitemapUrls state) :
    (∃ final, searchLoop lib search state = .ok final ∧
      SearchReaches lib search sitemapUrls final ∧ searchStep lib search final = none) ∨
    ∃ failure last, searchLoop lib search state = .error failure ∧
      SearchReaches lib search sitemapUrls last ∧
      searchStep lib search last = some (.error failure) := by
  induction state using searchLoop.induct lib search with
  | case1 state hstep => exact .inl ⟨state, searchLoop_end hstep, h, hstep⟩
  | case2 state failure hstep => exact .inr ⟨failure, state, searchLoop_fail hstep, h, hstep⟩
  | case3 state after hstep ih =>
      rw [searchLoop_step hstep]
      exact ih (h.step hstep)

/-- The loop goes through the states that are reached. -/
theorem searchLoop_of_reaches {state : Searching}
    (h : SearchReaches lib search sitemapUrls state) :
    searchLoop lib search (searchStart lib search sitemapUrls) =
      searchLoop lib search state := by
  induction h with
  | start => rfl
  | step _ hstep ih => exact ih.trans (searchLoop_step hstep)

/-- A turn fails where it fetches a sitemap whose failure is not caught. -/
theorem Searches.fails_iff {state : Searching} (h : Searches lib search sitemapUrls state) :
    (∃ failure, searchStep lib search state = some (.error failure)) ↔
      ∃ url, state.nextFetch search = some url ∧ ¬ Readable lib search url := by
  constructor
  · rintro ⟨failure, hstep⟩
    obtain ⟨url, depth, rest, hqueue, hfiles, hpages, hvisit⟩ := searchStep_some hstep
    have hnew := h.head_new hqueue
    rw [if_neg hnew] at hvisit
    refine ⟨url, ?_, fun hreadable => ?_⟩
    · rw [Searching.nextFetch, hqueue]
      exact if_pos ⟨hfiles, hpages, hnew⟩
    · unfold visitSitemap at hvisit
      dsimp only at hvisit
      split at hvisit
      next error hread =>
        rw [if_pos (hreadable error hread)] at hvisit
        cases hvisit
      next => cases hvisit
  · rintro ⟨url, hnext, hreadable⟩
    unfold Searching.nextFetch at hnext
    split at hnext
    next => cases hnext
    next head depth rest hqueue =>
      split at hnext
      next hroom =>
        cases hnext
        have hfail : ∃ error, readSitemap lib search url = .error error ∧
            ¬ error.isCaught = true := by
          by_contra hall
          refine hreadable fun error herror => ?_
          by_contra hnot
          exact hall ⟨error, herror, hnot⟩
        obtain ⟨error, herror, hnot⟩ := hfail
        refine ⟨⟨error, state.fetches ++ [url]⟩, ?_⟩
        have hvisit : visitSitemap lib search state url depth rest =
            .error ⟨error, state.fetches ++ [url]⟩ := by
          rw [visitSitemap, herror]
          exact if_neg hnot
        rw [searchStep, hqueue]
        dsimp only
        rw [if_pos ⟨hroom.1, hroom.2.1⟩, if_neg hroom.2.2, hvisit]
      next => cases hnext

/-- What a failing turn has fetched. -/
theorem Searches.failure_fetches {state : Searching} (h : Searches lib search sitemapUrls state)
    {failure : SearchFailure} (hstep : searchStep lib search state = some (.error failure)) :
    failure.fetches.Nodup ∧ failure.fetches.length ≤ search.maxFiles := by
  obtain ⟨url, depth, rest, hqueue, hfiles, _, hvisit⟩ := searchStep_some hstep
  have hnew := h.head_new hqueue
  have hdistinct : state.visited.Nodup := by
    obtain ⟨done, hdone, hvalid⟩ := h.found
    have hall := hvalid.distinct
    rw [List.map_append, List.nodup_append] at hall
    rw [← hdone]
    exact hall.1
  rw [if_neg hnew] at hvisit
  have hfetches : failure.fetches = state.fetches ++ [url] := by
    unfold visitSitemap at hvisit
    dsimp only at hvisit
    split at hvisit
    next =>
      split at hvisit
      next => cases hvisit
      next => rw [Except.error.inj hvisit]
    next => cases hvisit
  rw [hfetches, h.fetches]
  refine ⟨nodup_snoc hdistinct hnew, ?_⟩
  rw [List.length_append, List.length_singleton]
  exact hfiles

/-- The result of a search that ended keeps the contract. -/
theorem Searches.contract {state : Searching} (h : Searches lib search sitemapUrls state)
    (hend : searchStep lib search state = none) :
    SitemapContract lib search sitemapUrls state.fetches (state.toResult search) := by
  obtain ⟨done, hdone, hvalid⟩ := h.found
  have hcanonical : ∀ page ∈ state.pages, ∃ value base,
      canonicalizeInventoryUrl lib.toUrlLibraries search.scope value base = some page := by
    intro page hpage
    obtain ⟨url, _, document, hread, hmem, _⟩ := h.sources page hpage
    exact canonical_of_read hread hmem
  refine ⟨?_, ?_, ?_, h.distinct, h.short, ?_, hcanonical, ?_, ?_⟩
  · have hall := hvalid.distinct
    rw [List.map_append, List.nodup_append] at hall
    rw [h.fetches, ← hdone]
    exact hall.1
  · rw [h.fetches]
    exact h.few
  · rw [h.fetches]
    rfl
  · intro page hpage
    obtain ⟨url, _, document, _, _, hallowed⟩ := h.sources page hpage
    exact hallowed
  · intro page hpage
    obtain ⟨value, base, hvalue⟩ := hcanonical page hpage
    exact inScope_of_canonical hvalue
  · intro hfiles hpages page
    have hroom : state.pages.length < search.pageLimit := by
      refine not_le.1 fun hle => hpages ?_
      rw [Searching.toResult, if_pos hle]
      exact List.mem_append_right _ (List.mem_singleton_self _)
    have hqueue : state.queue = [] := by
      by_contra hne
      have hvisits : state.visited.length < search.maxFiles := by
        refine not_le.1 fun hle => hfiles ?_
        have hlimit : (if state.queue ≠ [] ∧ search.maxFiles ≤ state.visited.length then
            ["sitemap_file_limit_reached"] else []) = ["sitemap_file_limit_reached"] :=
          if_pos ⟨hne, hle⟩
        rw [Searching.toResult, hlimit]
        exact List.mem_append_left _ (List.mem_append_right _ (List.mem_singleton_self _))
      obtain ⟨entry, rest, hcons⟩ := List.exists_cons_of_ne_nil hne
      rw [searchStep, hcons] at hend
      dsimp only at hend
      rw [if_pos ⟨hvisits, hroom⟩] at hend
      exact Option.some_ne_none _ hend
    rw [hqueue] at hvalid
    constructor
    · intro hpage
      obtain ⟨url, hurl, hallowed⟩ := h.sources page hpage
      rw [← hdone] at hurl
      obtain ⟨n, hn, hreached⟩ := hvalid.done_iff.1 hurl
      exact ⟨n, hn, url, hreached, hallowed⟩
    · rintro ⟨n, hn, url, hreached, hallowed⟩
      have hurl := hvalid.done_iff.2 ⟨n, hn, hreached⟩
      rw [hdone] at hurl
      exact h.full hroom url hurl page hallowed

end Ends

/-- For every graph of sitemaps the search ends, and it fetches no file twice and not more
files than it may.  It returns a result, and one that keeps the contract, exactly where each
sitemap that it comes to can be read or fails in a way that it catches. -/
theorem sitemap_discovery_iff (lib : SitemapLibraries) (search : SitemapSearch)
    (sitemapUrls : List Text) :
    ((discoverSitemapUrls lib search sitemapUrls).fetches.Nodup ∧
      (discoverSitemapUrls lib search sitemapUrls).fetches.length ≤ search.maxFiles) ∧
    ((∃ result, (discoverSitemapUrls lib search sitemapUrls).outcome = .ok result ∧
        SitemapContract lib search sitemapUrls
          (discoverSitemapUrls lib search sitemapUrls).fetches result) ↔
      ∀ state, SearchReaches lib search sitemapUrls state →
        ∀ url, state.nextFetch search = some url → Readable lib search url) := by
  have hstart : SearchReaches lib search sitemapUrls (searchStart lib search sitemapUrls) := .start
  rcases searchLoop_ends hstart with ⟨final, hloop, hreached, hend⟩ | ⟨failure, last, hloop,
    hreached, hfail⟩
  · have hvalid := Searches.of_reaches hreached
    have hcontract := hvalid.contract hend
    have hdiscover : discoverSitemapUrls lib search sitemapUrls =
        ⟨.ok (final.toResult search), final.fetches⟩ := by
      rw [discoverSitemapUrls, hloop]
    rw [hdiscover]
    refine ⟨⟨hcontract.once, hcontract.few⟩, ?_⟩
    refine iff_of_true ⟨_, rfl, hcontract⟩ fun state hstate url hnext => ?_
    by_contra hreadable
    obtain ⟨failure, hstep⟩ :=
      (Searches.of_reaches hstate).fails_iff.2 ⟨url, hnext, hreadable⟩
    have hboth := (searchLoop_of_reaches hstate).symm.trans hloop
    rw [searchLoop_fail hstep] at hboth
    cases hboth
  · have hvalid := Searches.of_reaches hreached
    have hdiscover : discoverSitemapUrls lib search sitemapUrls =
        ⟨.error failure.error, failure.fetches⟩ := by
      rw [discoverSitemapUrls, hloop]
    rw [hdiscover]
    refine ⟨hvalid.failure_fetches hfail, iff_of_false ?_ fun hall => ?_⟩
    · rintro ⟨result, hresult, _⟩
      cases hresult
    · obtain ⟨url, hnext, hreadable⟩ := hvalid.fails_iff.1 ⟨failure, hfail⟩
      exact hreadable (hall last hreached url hnext)

section Sample

def sampleSitemapLibraries : SitemapLibraries where
  toLibraries := { sampleLibraries with urljoin := fun _ url => some url }
  decodeUtf8 bytes := bytes.map fun b => Char.ofNat b.toNat
  gunzip _ _ := .error .other
  fromstring _ := .error .invalid

/-- Every sitemap leads to a host that is not public. -/
def sampleSitemapSearch : SitemapSearch where
  scope := ⟨text "https://shop.example/", text "https", text "shop.example", [text "shop.example"]⟩
  fetch _ := .error hostForbidden
  allowed _ := true
  maxFiles := 10
  maxDepth := 3
  maxDecompressedBytes := 1000
  pageLimit := 100

/-- A sitemap that redirects to an unsafe target ends the search with an exception. -/
theorem sitemap_search_raises :
    ¬ ∃ result, (discoverSitemapUrls sampleSitemapLibraries sampleSitemapSearch
        [text "https://shop.example/sitemap.xml"]).outcome = .ok result ∧
      SitemapContract sampleSitemapLibraries sampleSitemapSearch
        [text "https://shop.example/sitemap.xml"]
        (discoverSitemapUrls sampleSitemapLibraries sampleSitemapSearch
          [text "https://shop.example/sitemap.xml"]).fetches result := by
  have hstep : searchStep sampleSitemapLibraries sampleSitemapSearch
      (searchStart sampleSitemapLibraries sampleSitemapSearch
        [text "https://shop.example/sitemap.xml"]) =
      some (.error ⟨.fetch hostForbidden, [text "https://shop.example/sitemap.xml"]⟩) := by
    rfl
  rintro ⟨result, hresult, _⟩
  rw [discoverSitemapUrls, searchLoop_fail hstep] at hresult
  cases hresult

end Sample

end SearchTrust.Inventory
