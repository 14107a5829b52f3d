/-
What the selection of key pages promises for any scoring: few and different pages, the
best home page and the best of each type to cover in front, capped posts and products,
and no page left out without a reason.
-/
import SearchTrust.Inventory.Selection

namespace SearchTrust.Inventory

open SearchTrust.Order

/-- The best of the eligible pages of a type. -/
structure BestOfType (scoring : Scoring) (pages : List InventoryPageRecord)
    (pageType : SitePageType) (item : RankedPage) : Prop where
  ranked : ∃ page ∈ pages, eligible page = true ∧ scoring.rank page = item
  typed : item.pageType = pageType
  best : ∀ page ∈ pages, eligible page = true → page.pageType = pageType →
    rankKey item ≤ rankKey (scoring.rank page)

/-- What a selection of at most `limit` pages promises. -/
structure SelectionContract (scoring : Scoring) (limit : ℕ) (pages : List InventoryPageRecord)
    (chosen : List RankedPage) : Prop where
  short : chosen.length ≤ limit
  distinct : (chosen.map RankedPage.url).Nodup
  eligible : ∀ item ∈ chosen, ∃ page ∈ pages, eligible page = true ∧ scoring.rank page = item
  /-- The best pages of the home type and of the types to cover, in this order. -/
  leading : ∃ picks : List RankedPage,
    picks.map RankedPage.pageType = (.home :: coverageOrder).filter (fun pageType =>
      pages.any fun page => Inventory.eligible page && page.pageType = pageType) ∧
    (∀ item ∈ picks, BestOfType scoring pages item.pageType item) ∧
    picks.take limit <+: chosen
  capped : ∀ pageType ∈ cappedTypes, countOfType chosen pageType ≤ max 2 (limit / 5)
  maximal : chosen.length < limit → ∀ page ∈ pages, Inventory.eligible page = true →
    scoring.rank page ∉ chosen →
      page.pageType ∈ cappedTypes ∧ max 2 (limit / 5) ≤ countOfType chosen page.pageType

section Choices

variable {limit : ℕ} {chosen ranked : List RankedPage} {item : RankedPage}

theorem choose_extends : chosen <+: choose limit chosen item := by
  unfold choose
  split
  · exact List.prefix_append _ _
  · exact List.prefix_refl _

theorem choose_short (h : chosen.length ≤ limit) : (choose limit chosen item).length ≤ limit := by
  unfold choose
  split
  next hroom =>
    rw [List.length_append, List.length_singleton]
    exact hroom.2
  next => exact h

theorem choose_nodup (h : (chosen.map RankedPage.url).Nodup) :
    ((choose limit chosen item).map RankedPage.url).Nodup := by
  unfold choose
  split
  next hnew =>
    rw [List.map_append, List.nodup_append]
    refine ⟨h, List.nodup_singleton _, ?_⟩
    intro url hurl other hother
    rw [List.map_singleton, List.mem_singleton] at hother
    rintro rfl
    exact hnew.1 (hother ▸ hurl)
  next => exact h

theorem mem_of_mem_choose {other : RankedPage} (h : other ∈ choose limit chosen item) :
    other ∈ chosen ∨ other = item := by
  unfold choose at h
  split at h
  · rcases List.mem_append.1 h with h | h
    · exact .inl h
    · exact .inr (List.mem_singleton.1 h)
  · exact .inl h

/-- After a choice the page is there, or there is no room. -/
theorem choose_settles : item.url ∈ (choose limit chosen item).map RankedPage.url ∨
    limit ≤ chosen.length := by
  unfold choose
  split
  · refine .inl ?_
    rw [List.map_append]
    exact List.mem_append_right _ (List.mem_singleton_self _)
  next hnot =>
    by_cases hin : item.url ∈ chosen.map RankedPage.url
    · exact .inl hin
    · exact .inr (not_lt.1 fun hroom => hnot ⟨hin, hroom⟩)

theorem countOfType_choose {pageType : SitePageType} :
    countOfType (choose limit chosen item) pageType ≤
      countOfType chosen pageType + if item.pageType = pageType then 1 else 0 := by
  unfold choose countOfType
  split
  · rw [List.countP_append]
    simp [List.countP_cons]
  · exact Nat.le_add_right _ _

end Choices

section Covering

variable {limit : ℕ} {chosen ranked : List RankedPage} {item : RankedPage}

theorem firstOfType_type {pageType : SitePageType} (h : firstOfType ranked pageType = some item) :
    item.pageType = pageType := by
  have htype := List.find?_some h
  rwa [decide_eq_true_eq] at htype

theorem firstOfType_mem {pageType : SitePageType} (h : firstOfType ranked pageType = some item) :
    item ∈ ranked := List.mem_of_find?_eq_some h

/-- The best pages of some types, in their order. -/
def typePicks (ranked : List RankedPage) (types : List SitePageType) : List RankedPage :=
  types.filterMap (firstOfType ranked)

theorem mem_typePicks {types : List SitePageType} (h : item ∈ typePicks ranked types) :
    item ∈ ranked ∧ item.pageType ∈ types ∧ firstOfType ranked item.pageType = some item := by
  obtain ⟨pageType, htype, hfirst⟩ := List.mem_filterMap.1 h
  have htyped := firstOfType_type hfirst
  exact ⟨firstOfType_mem hfirst, htyped ▸ htype, htyped ▸ hfirst⟩

/-- Pages of different types have different URLs, where URLs are not repeated. -/
theorem type_eq_of_url_eq (hurls : (ranked.map RankedPage.url).Nodup) {other : RankedPage}
    (hitem : item ∈ ranked) (hother : other ∈ ranked) (h : item.url = other.url) :
    item = other := List.inj_on_of_nodup_map hurls hitem hother h

/-- The loop over the types takes the best page of each until the limit is reached. -/
theorem foldl_coverType (hurls : (ranked.map RankedPage.url).Nodup)
    {done types : List SitePageType} (htypes : (done ++ types).Nodup) :
    types.foldl (coverType limit ranked) ((typePicks ranked done).take limit) =
      (typePicks ranked (done ++ types)).take limit := by
  induction types generalizing done with
  | nil => rw [List.append_nil, List.foldl_nil]
  | cons pageType types ih =>
      have hstep : coverType limit ranked ((typePicks ranked done).take limit) pageType =
          (typePicks ranked (done ++ [pageType])).take limit := by
        have hpicks : typePicks ranked (done ++ [pageType]) =
            typePicks ranked done ++ (firstOfType ranked pageType).toList := by
          rw [typePicks, List.filterMap_append]
          cases hfirst : firstOfType ranked pageType with
          | none => simp [typePicks, hfirst]
          | some item => simp [typePicks, hfirst]
        rw [hpicks, coverType]
        by_cases hfull : limit ≤ ((typePicks ranked done).take limit).length
        · rw [if_pos hfull]
          rw [List.length_take] at hfull
          rw [List.take_append_of_le_length (by omega)]
        · rw [if_neg hfull]
          rw [List.length_take] at hfull
          have hall : (typePicks ranked done).take limit = typePicks ranked done :=
            List.take_of_length_le (by omega)
          rw [hall]
          cases hfirst : firstOfType ranked pageType with
          | none => rw [Option.toList_none, List.append_nil, hall]
          | some item =>
              have hnew : item.url ∉ (typePicks ranked done).map RankedPage.url := by
                intro hmem
                obtain ⟨other, hother, hurl⟩ := List.mem_map.1 hmem
                obtain ⟨hin, htype, -⟩ := mem_typePicks hother
                have hsame := type_eq_of_url_eq hurls hin (firstOfType_mem hfirst) hurl
                rw [hsame, firstOfType_type hfirst] at htype
                exact (List.nodup_append.1 htypes).2.2 _ htype _ List.mem_cons_self rfl
              have hroom : (typePicks ranked done).length < limit := by omega
              have hchoose : choose limit (typePicks ranked done) item =
                  typePicks ranked done ++ [item] := if_pos ⟨hnew, hroom⟩
              refine hchoose.trans ?_
              rw [Option.toList_some, List.take_of_length_le]
              rw [List.length_append, List.length_singleton]
              exact hroom
      have hnext : (done ++ [pageType] ++ types).Nodup := by
        rwa [List.append_assoc]
      rw [List.foldl_cons, hstep, ih hnext, List.append_assoc]
      rfl

theorem chooseHome_eq (hlimit : 0 < limit) :
    chooseHome limit ranked = (typePicks ranked [.home]).take limit := by
  unfold chooseHome
  cases hfirst : firstOfType ranked .home with
  | none => simp [typePicks, hfirst]
  | some item =>
      have hpick : typePicks ranked [.home] = [item] := by simp [typePicks, hfirst]
      rw [hpick, List.take_of_length_le (by rw [List.length_singleton]; exact hlimit)]
      exact if_pos ⟨List.not_mem_nil, hlimit⟩

/-- The first two loops choose the best pages of the leading types. -/
theorem leading_eq (hlimit : 0 < limit) (hurls : (ranked.map RankedPage.url).Nodup) :
    coverageOrder.foldl (coverType limit ranked) (chooseHome limit ranked) =
      (typePicks ranked (.home :: coverageOrder)).take limit := by
  rw [chooseHome_eq hlimit]
  exact foldl_coverType hurls (by decide)

end Covering

section Filling

variable {limit : ℕ} {chosen ranked rest : List RankedPage} {item : RankedPage}

theorem fillPage_extends : chosen <+: fillPage limit chosen item := by
  unfold fillPage
  split
  · exact List.prefix_refl _
  · split
    · exact List.prefix_refl _
    · exact choose_extends

theorem countOfType_mono {others : List RankedPage} (h : chosen <+: others)
    (pageType : SitePageType) : countOfType chosen pageType ≤ countOfType others pageType :=
  h.sublist.countP_le

/-- What the loops keep of the chosen pages. -/
structure Chosen (limit : ℕ) (ranked chosen : List RankedPage) : Prop where
  short : chosen.length ≤ limit
  distinct : (chosen.map RankedPage.url).Nodup
  known : chosen ⊆ ranked
  capped : ∀ pageType ∈ cappedTypes, countOfType chosen pageType ≤ max 2 (limit / 5)

theorem fillPage_chosen (h : Chosen limit ranked chosen) (hitem : item ∈ ranked) :
    Chosen limit ranked (fillPage limit chosen item) := by
  unfold fillPage
  split
  · exact h
  · split
    · exact h
    next huncapped =>
      refine ⟨choose_short h.short, choose_nodup h.distinct, ?_, ?_⟩
      · intro other hother
        rcases mem_of_mem_choose hother with hother | rfl
        · exact h.known hother
        · exact hitem
      · intro pageType htype
        have hcount := @countOfType_choose limit chosen item pageType
        by_cases hsame : item.pageType = pageType
        · subst hsame
          rw [capOf, if_pos htype, Option.any_some, decide_eq_true_eq, not_le] at huncapped
          rw [if_pos rfl] at hcount
          omega
        · rw [if_neg hsame] at hcount
          exact hcount.trans (h.capped pageType htype)

/-- A page that a loop went past is chosen, or there was no room for it. -/
def Settled (limit : ℕ) (chosen : List RankedPage) (item : RankedPage) : Prop :=
  item ∈ chosen ∨ limit ≤ chosen.length ∨
    (item.pageType ∈ cappedTypes ∧ max 2 (limit / 5) ≤ countOfType chosen item.pageType)

theorem settled_mono {others : List RankedPage} (hextends : chosen <+: others)
    (h : Settled limit chosen item) : Settled limit others item := by
  rcases h with h | h | ⟨htype, hcount⟩
  · exact .inl (hextends.subset h)
  · exact .inr (.inl (h.trans hextends.length_le))
  · exact .inr (.inr ⟨htype, hcount.trans (countOfType_mono hextends _)⟩)

theorem fillPage_settles (hurls : (ranked.map RankedPage.url).Nodup)
    (h : Chosen limit ranked chosen) (hitem : item ∈ ranked) :
    Settled limit (fillPage limit chosen item) item := by
  unfold fillPage
  split
  next hfull => exact .inr (.inl hfull)
  next hroom =>
    split
    next hcapped =>
      refine .inr (.inr ?_)
      rw [capOf] at hcapped
      split at hcapped
      next htype =>
        rw [Option.any_some, decide_eq_true_eq] at hcapped
        exact ⟨htype, hcapped⟩
      next => cases hcapped
    next =>
      rcases @choose_settles limit chosen item with hin | hfull
      · obtain ⟨other, hother, hurl⟩ := List.mem_map.1 hin
        have hknown : other ∈ ranked := by
          rcases mem_of_mem_choose hother with hold | rfl
          · exact h.known hold
          · exact hitem
        rw [List.inj_on_of_nodup_map hurls hknown hitem hurl] at hother
        exact .inl hother
      · exact absurd hfull hroom

/-- The last loop keeps what was chosen and settles every page. -/
theorem foldl_fillPage (hurls : (ranked.map RankedPage.url).Nodup)
    (h : Chosen limit ranked chosen) (hrest : rest ⊆ ranked) :
    chosen <+: rest.foldl (fillPage limit) chosen ∧
      Chosen limit ranked (rest.foldl (fillPage limit) chosen) ∧
      ∀ item ∈ rest, Settled limit (rest.foldl (fillPage limit) chosen) item := by
  induction rest generalizing chosen with
  | nil => exact ⟨List.prefix_refl _, h, fun item hitem => absurd hitem List.not_mem_nil⟩
  | cons first rest ih =>
      have hfirst := hrest List.mem_cons_self
      obtain ⟨hextends, hchosen, hsettled⟩ :=
        ih (fillPage_chosen h hfirst) fun item hitem => hrest (List.mem_cons_of_mem _ hitem)
      refine ⟨fillPage_extends.trans hextends, hchosen, ?_⟩
      intro item hitem
      rcases List.mem_cons.1 hitem with rfl | hitem
      · exact settled_mono hextends (fillPage_settles hurls h hfirst)
      · exact hsettled item hitem

end Filling

section Contract

variable {scoring : Scoring} {pages : List InventoryPageRecord} {limit : ℕ}

theorem mem_rankedPages {item : RankedPage} : item ∈ rankedPages scoring pages ↔
    ∃ page ∈ pages, eligible page = true ∧ scoring.rank page = item := by
  rw [rankedPages, mem_sortedBy, List.mem_map]
  constructor
  · rintro ⟨page, hpage, rfl⟩
    obtain ⟨hpage, heligible⟩ := List.mem_filter.1 hpage
    exact ⟨page, hpage, heligible, rfl⟩
  · rintro ⟨page, hpage, heligible, rfl⟩
    exact ⟨page, List.mem_filter.2 ⟨hpage, heligible⟩, rfl⟩

theorem rankedPages_urls (h : (pages.map (·.url)).Nodup) :
    ((rankedPages scoring pages).map RankedPage.url).Nodup := by
  have hperm := (sortedBy_perm rankKey ((pages.filter eligible).map scoring.rank)).map
    RankedPage.url
  refine hperm.nodup_iff.2 ?_
  rw [List.map_map]
  exact h.sublist (List.filter_sublist.map _)

/-- The first ranked page of a type is its best one. -/
theorem firstOfType_best {pageType : SitePageType} {item : RankedPage}
    (h : firstOfType (rankedPages scoring pages) pageType = some item) :
    BestOfType scoring pages pageType item := by
  refine ⟨mem_rankedPages.1 (firstOfType_mem h), firstOfType_type h, ?_⟩
  intro page hpage heligible htype
  rw [firstOfType, List.find?_eq_some_iff_append] at h
  obtain ⟨-, before, after, hsplit, hbefore⟩ := h
  have hmem : scoring.rank page ∈ rankedPages scoring pages :=
    mem_rankedPages.2 ⟨page, hpage, heligible, rfl⟩
  have hpairwise := pairwise_sortedBy rankKey ((pages.filter eligible).map scoring.rank)
  rw [← rankedPages, hsplit, List.pairwise_append, List.pairwise_cons] at hpairwise
  rw [hsplit, List.mem_append, List.mem_cons] at hmem
  rcases hmem with hmem | rfl | hmem
  · have hnot := hbefore _ hmem
    have hsame : (scoring.rank page).pageType = pageType := htype
    simp [hsame] at hnot
  · exact le_refl _
  · exact hpairwise.2.1.1 _ hmem

/-- A type has a first page exactly when it has an eligible one. -/
theorem firstOfType_isSome {pageType : SitePageType} :
    (firstOfType (rankedPages scoring pages) pageType).isSome =
      pages.any fun page => eligible page && page.pageType = pageType := by
  rw [Bool.eq_iff_iff, firstOfType, List.find?_isSome, List.any_eq_true]
  constructor
  · rintro ⟨item, hitem, htype⟩
    obtain ⟨page, hpage, heligible, rfl⟩ := mem_rankedPages.1 hitem
    refine ⟨page, hpage, ?_⟩
    rw [heligible, Bool.true_and]
    exact htype
  · rintro ⟨page, hpage, h⟩
    rw [Bool.and_eq_true] at h
    exact ⟨scoring.rank page, mem_rankedPages.2 ⟨page, hpage, h.1, rfl⟩, h.2⟩

theorem map_pageType_typePicks (types : List SitePageType) :
    (typePicks (rankedPages scoring pages) types).map RankedPage.pageType =
      types.filter fun pageType =>
        pages.any fun page => eligible page && page.pageType = pageType := by
  induction types with
  | nil => rfl
  | cons pageType types ih =>
      have hsome := @firstOfType_isSome scoring pages pageType
      rw [typePicks] at ih ⊢
      rw [List.filterMap_cons, List.filter_cons, ← hsome]
      cases hfirst : firstOfType (rankedPages scoring pages) pageType with
      | none => simpa using ih
      | some item =>
          simp only [Option.isSome_some, ↓reduceIte, List.map_cons]
          rw [ih, firstOfType_type hfirst]

/-- The leading pages are not of a capped type. -/
theorem countOfType_leading {types : List SitePageType} {ranked : List RankedPage}
    {pageType : SitePageType} (h : pageType ∉ types) :
    countOfType ((typePicks ranked types).take limit) pageType = 0 := by
  rw [countOfType, List.countP_eq_zero]
  intro item hitem htype
  rw [decide_eq_true_eq] at htype
  exact h (htype ▸ (mem_typePicks (List.mem_of_mem_take hitem)).2.1)

theorem chooseRanked_contract (hlimit : 0 < limit) (h : (pages.map (·.url)).Nodup) :
    SelectionContract scoring limit pages (chooseRanked limit (rankedPages scoring pages)) := by
  have hurls := @rankedPages_urls scoring pages h
  set ranked := rankedPages scoring pages with hranked
  have hstart : Chosen limit ranked ((typePicks ranked (.home :: coverageOrder)).take limit) := by
    refine ⟨?_, ?_, ?_, ?_⟩
    · rw [List.length_take]
      omega
    · have htypes : ((typePicks ranked (.home :: coverageOrder)).map
          RankedPage.pageType).Nodup := by
        rw [hranked, map_pageType_typePicks]
        exact List.Nodup.filter _ (by decide)
      have hpicks : ((typePicks ranked (.home :: coverageOrder)).map RankedPage.url).Nodup := by
        refine (List.Nodup.of_map _ htypes).map_on ?_
        intro a ha b hb hurl
        exact List.inj_on_of_nodup_map hurls (mem_typePicks ha).1 (mem_typePicks hb).1 hurl
      exact hpicks.sublist ((List.take_sublist _ _).map _)
    · exact fun item hitem => (mem_typePicks (List.mem_of_mem_take hitem)).1
    · intro pageType htype
      have hother : pageType ∉ SitePageType.home :: coverageOrder := by
        revert pageType
        decide
      rw [countOfType_leading hother]
      exact Nat.zero_le _
  obtain ⟨hextends, hchosen, hsettled⟩ := foldl_fillPage hurls hstart (List.Subset.refl ranked)
  rw [chooseRanked, leading_eq hlimit hurls]
  refine ⟨hchosen.short, hchosen.distinct, fun item hitem =>
    mem_rankedPages.1 (hchosen.known hitem), ?_, hchosen.capped, ?_⟩
  · exact ⟨typePicks ranked (.home :: coverageOrder), map_pageType_typePicks _,
      fun item hitem => firstOfType_best (mem_typePicks hitem).2.2, hextends⟩
  · intro hroom page hpage heligible hmissing
    rcases hsettled (scoring.rank page) (mem_rankedPages.2 ⟨page, hpage, heligible, rfl⟩) with
      hin | hfull | hcapped
    · exact absurd hin hmissing
    · exact absurd hroom (not_lt.2 hfull)
    · exact hcapped

theorem nothing_contract (scoring : Scoring) (pages : List InventoryPageRecord) :
    SelectionContract scoring 0 pages [] where
  short := Nat.le_refl 0
  distinct := List.nodup_nil
  eligible item hitem := absurd hitem List.not_mem_nil
  leading := by
    refine ⟨typePicks (rankedPages scoring pages) (.home :: coverageOrder),
      map_pageType_typePicks _, fun item hitem => firstOfType_best (mem_typePicks hitem).2.2, ?_⟩
    rw [List.take_zero]
  capped _ _ := Nat.zero_le _
  maximal h := absurd h (Nat.lt_irrefl 0)

/-- The ranking does not look at the order of the pages. -/
theorem rankedPages_perm {others : List InventoryPageRecord} (hperm : others.Perm pages)
    (h : (pages.map (·.url)).Nodup) : rankedPages scoring others = rankedPages scoring pages := by
  refine sortedBy_eq_of_perm ((hperm.filter _).map _) ?_
  have hothers := (hperm.map (·.url)).nodup_iff.2 h
  have hsub : (((others.filter eligible).map scoring.rank).map RankedPage.url).Nodup := by
    rw [List.map_map]
    exact hothers.sublist (List.filter_sublist.map _)
  have hkeys : (((others.filter eligible).map scoring.rank).map rankKey).Nodup := by
    refine (List.Nodup.of_map _ hsub).map_on ?_
    intro a ha b hb hkey
    have hurl : a.url = b.url := congrArg Prod.snd (toLex_inj.1 hkey)
    exact List.inj_on_of_nodup_map hsub ha hb hurl
  exact hkeys

/-- The selection of key pages keeps its promises for every scoring and every order of the
pages; the limit counts between nothing and 500. -/
theorem select_key_pages_contract (scoring : Scoring) (limit : ℤ)
    (pages : List InventoryPageRecord) (h : (pages.map (·.url)).Nodup) :
    SelectionContract scoring (boundedLimit limit) pages (selectRanked scoring limit pages) ∧
      ∀ others : List InventoryPageRecord, others.Perm pages →
        selectRanked scoring limit others = selectRanked scoring limit pages := by
  constructor
  · rw [selectRanked]
    by_cases hzero : boundedLimit limit = 0
    · rw [if_pos hzero, hzero]
      exact nothing_contract scoring pages
    · rw [if_neg hzero]
      exact chooseRanked_contract (Nat.pos_of_ne_zero hzero) h
  · intro others hperm
    rw [selectRanked, selectRanked, rankedPages_perm hperm h]

end Contract

section Samples

/-- A checked page without content. -/
def samplePage (url : String) (pageType : SitePageType) : InventoryPageRecord :=
  { url, crawlDepth := 1, checkStatus := .checked, statusCode := some 200, pageType }

def sampleScoring : Scoring := ⟨fun page => page.url.length, fun _ => ["page_type"]⟩

def samplePages : List InventoryPageRecord :=
  [samplePage "a" .other, samplePage "bb" .home, samplePage "ccc" .contact]

/-- The home page and the covered type come before a better page. -/
theorem select_key_pages_contract_sample :
    (selectRanked sampleScoring 2 samplePages).map RankedPage.url = ["bb", "ccc"] ∧
      SelectionContract sampleScoring 2 samplePages (selectRanked sampleScoring 2 samplePages) := by
  refine ⟨by decide, ?_⟩
  have hurls : (samplePages.map (·.url)).Nodup := by decide
  have hcontract := (select_key_pages_contract sampleScoring 2 samplePages hurls).1
  exact hcontract

/-- Posts with URLs of different lengths. -/
def samplePosts : List InventoryPageRecord :=
  (List.range 101).map fun n => samplePage (.ofList (List.replicate n 'p')) .blogPost

theorem samplePosts_urls : (samplePosts.map (·.url)).Nodup := by
  rw [samplePosts, List.map_map]
  refine List.nodup_range.map_on ?_
  intro a _ b _ h
  have hlength := congrArg (fun url : String => url.toList.length) h
  simpa [samplePage] using hlength

/-- A limit below nothing is taken as nothing, and one above 500 as 500: of 101 posts a
limit of 505 leaves one out, although the room for posts that goes with it is not used up. -/
theorem select_key_pages_bounds_limit :
    ¬ ((selectRanked sampleScoring (-1) samplePages).length : ℤ) ≤ -1 ∧
      ((selectRanked sampleScoring 505 samplePosts).length : ℤ) < 505 ∧
      ∃ page ∈ samplePosts, eligible page = true ∧
        sampleScoring.rank page ∉ selectRanked sampleScoring 505 samplePosts ∧
        countOfType (selectRanked sampleScoring 505 samplePosts) page.pageType <
          max 2 (505 / 5) := by
  have hcontract : SelectionContract sampleScoring 500 samplePosts
      (selectRanked sampleScoring 505 samplePosts) :=
    chooseRanked_contract (by decide) samplePosts_urls
  have hpost : ∀ page ∈ samplePosts, page.pageType = .blogPost ∧ eligible page = true := by
    intro page hpage
    obtain ⟨n, -, rfl⟩ := List.mem_map.1 hpage
    exact ⟨rfl, rfl⟩
  have hall : countOfType (selectRanked sampleScoring 505 samplePosts) .blogPost =
      (selectRanked sampleScoring 505 samplePosts).length := by
    rw [countOfType, List.countP_eq_length]
    intro item hitem
    obtain ⟨page, hpage, -, rfl⟩ := hcontract.eligible item hitem
    exact decide_eq_true (hpost page hpage).1
  have hcap := hcontract.capped .blogPost (by decide)
  rw [hall] at hcap
  have hcapped : (selectRanked sampleScoring 505 samplePosts).length ≤ 100 := hcap
  refine ⟨by decide, by omega, ?_⟩
  -- 101 posts do not fit into a list of at most 100
  by_contra hnone
  have hsub : samplePosts.map sampleScoring.rank ⊆ selectRanked sampleScoring 505 samplePosts := by
    intro item hitem
    obtain ⟨page, hpage, rfl⟩ := List.mem_map.1 hitem
    by_contra hmissing
    refine hnone ⟨page, hpage, (hpost page hpage).2, hmissing, ?_⟩
    rw [(hpost page hpage).1, hall]
    exact Nat.lt_of_le_of_lt hcapped (by decide)
  have hnodup : (samplePosts.map sampleScoring.rank).Nodup := by
    refine List.Nodup.of_map RankedPage.url ?_
    rw [List.map_map]
    exact samplePosts_urls
  have hposts : samplePosts.length = 101 := by rw [samplePosts, List.length_map, List.length_range]
  have hlength := (List.subperm_of_subset hnodup hsub).length_le
  rw [List.length_map, hposts] at hlength
  omega

end Samples

end SearchTrust.Inventory
