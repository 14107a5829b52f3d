/-
What `collect_one` keeps of the pages of reviews when one of them fails.
-/
import SearchTrust.Competitors.PlaceIdentity

namespace SearchTrust.Competitors

open SearchTrust.Market (Fields SerpMarketResultRecord Value)

section Outcomes

variable (lib : ProfileLibrary) (answers : StageAnswers) (language : String) (now : ℤ)

/-- The pages of reviews that a run obtains, one after the other, and the failure that
ends it. -/
def pageOutcomes (dataId : String) :
    ℕ → Option Market.Text → CollectState → List (List PublicReviewRecord) × Option StageError
  | 0, _, _ => ([], none)
  | pages + 1, token, state =>
      let params := reviewParams dataId language token
      match request lib answers state.trace params with
      | .error error => ([], some error)
      | .ok (payload, hit) =>
          let state := state.answered ⟨params, payload, hit⟩
          match normalizeReviewPage lib payload now params with
          | .error error => ([], some error)
          | .ok (pageRecords, nextToken) =>
              let state := addReviews pageRecords state
              if competitorReviewSampleLimit ≤ state.reviews.length ∨ nextToken = none ∨
                  nextToken = token then ([pageRecords], none)
              else
                let (rest, failure) := pageOutcomes dataId pages nextToken state
                (pageRecords :: rest, failure)

variable (competitor : ConfirmedCompetitor) (snapshot : SerpMarketSnapshot)

/-- The identified record and the state in which the profile stage of `collect_one` ends,
where it goes on to the reviews. -/
def profileState : Option (SerpMarketResultRecord × CollectState) :=
  match matchingRecords lib competitor snapshot with
  | .error _ => none
  | .ok records =>
      match records.find? identified with
      | none => none
      | some strong =>
          match profileFromMarket lib records now with
          | .error _ => none
          | .ok (some profile) => some (strong, ⟨some profile, 0, 0, 0, [], [], []⟩)
          | .ok none =>
              let params := placeParams lib strong language
              match request lib answers [] params with
              | .error _ => none
              | .ok (payload, hit) =>
                  match normalizePlaceProfile lib payload now params with
                  | .error _ => none
                  | .ok profile =>
                      match websiteConflicts lib competitor profile with
                      | .ok false => some (strong, ⟨profile, if hit then 0 else 1, 0,
                          if hit then 1 else 0, [], [], [⟨params, payload, hit⟩]⟩)
                      | _ => none

/-- The data id and the state with which the first page is requested. -/
def reviewStart : Option (String × CollectState) :=
  (profileState lib answers language now competitor snapshot).bind fun (strong, state) =>
    (reviewDataId state.profile strong).map fun dataId => (dataId, state)

/-- The first review of each key. -/
def distinctReviews : List String → List PublicReviewRecord → List PublicReviewRecord
  | _, [] => []
  | seen, review :: rest =>
      if reviewKey review ∈ seen then distinctReviews seen rest
      else review :: distinctReviews (seen ++ [reviewKey review]) rest

/-- The sample of the reviews that were obtained. -/
def reviewSample (pages : List (List PublicReviewRecord)) : List PublicReviewRecord :=
  (distinctReviews [] pages.flatten).take competitorReviewSampleLimit

/-- The outcomes of the pages from the first one on. -/
def reviewRun (dataId : String) (state : CollectState) :
    List (List PublicReviewRecord) × Option StageError :=
  pageOutcomes lib answers language now dataId competitorReviewPageLimit none state

/-- `collect_one` returns the sample of the pages that it obtained, with a limitation
exactly after a failure. -/
def ReviewsKept (dataId : String) (state : CollectState) : Prop :=
  ∃ result, (collectOne lib answers language now competitor snapshot).1 = .ok result ∧
    result.reviews = reviewSample (reviewRun lib answers language now dataId state).1 ∧
    (result.limitations ≠ [] ↔ (reviewRun lib answers language now dataId state).2.isSome)

/-- No page failed, or one failed with an error that becomes a limitation before any
review was obtained. -/
def NothingToLose (dataId : String) (state : CollectState) : Prop :=
  (reviewRun lib answers language now dataId state).2 = none ∨
    (reviewRun lib answers language now dataId state).2 ≠ some .escaping ∧
      (reviewRun lib answers language now dataId state).1.flatten = []

end Outcomes

section Sampling

theorem distinctReviews_append (seen : List String) (a b : List PublicReviewRecord) :
    distinctReviews seen (a ++ b) = distinctReviews seen a ++
      distinctReviews (seen ++ (distinctReviews seen a).map reviewKey) b := by
  induction a generalizing seen with
  | nil => rw [List.nil_append, distinctReviews, List.nil_append, List.map_nil, List.append_nil]
  | cons review a ih =>
      rw [List.cons_append, distinctReviews, distinctReviews]
      split
      · exact ih seen
      · rw [ih, List.map_cons, List.append_assoc]
        rfl

theorem distinctReviews_nil_ne_nil {reviews : List PublicReviewRecord} (h : reviews ≠ []) :
    distinctReviews [] reviews ≠ [] := by
  cases reviews with
  | nil => exact absurd rfl h
  | cons review rest =>
      rw [distinctReviews, if_neg List.not_mem_nil]
      exact List.cons_ne_nil _ _

/-- A page adds its new reviews, all of them unless the sample becomes full. -/
theorem addReviews_reviews (page : List PublicReviewRecord) (state : CollectState) :
    (addReviews page state).reviews <+: state.reviews ++ distinctReviews state.seen page ∧
      ((addReviews page state).reviews.length < competitorReviewSampleLimit →
        (addReviews page state).reviews = state.reviews ++ distinctReviews state.seen page ∧
          (addReviews page state).seen =
            state.seen ++ (distinctReviews state.seen page).map reviewKey) := by
  induction page generalizing state with
  | nil =>
      rw [addReviews, distinctReviews, List.append_nil, List.map_nil, List.append_nil]
      exact ⟨List.prefix_refl _, fun _ => ⟨rfl, rfl⟩⟩
  | cons review rest ih =>
      obtain ⟨hhead, hall⟩ := ih (state.add review)
      rw [addReviews]
      by_cases hseen : reviewKey review ∈ state.seen
      · have hadd : state.add review = state := if_pos hseen
        rw [distinctReviews, if_pos hseen]
        rw [hadd] at hhead hall ⊢
        split
        next hfull =>
          exact ⟨List.prefix_append _ _, fun hlt => absurd hfull (Nat.not_le.2 hlt)⟩
        next => exact ⟨hhead, hall⟩
      · have hadd : state.add review = { state with
            reviews := state.reviews ++ [review]
            seen := state.seen ++ [reviewKey review] } := if_neg hseen
        rw [distinctReviews, if_neg hseen]
        rw [hadd] at hhead hall ⊢
        simp only [List.append_assoc, List.singleton_append] at hhead hall
        split
        next hfull =>
          refine ⟨?_, fun hlt => absurd hfull (Nat.not_le.2 hlt)⟩
          exact ⟨distinctReviews (state.seen ++ [reviewKey review]) rest, by simp⟩
        next => exact ⟨hhead, hall⟩

end Sampling

section Runs

variable {lib : ProfileLibrary} {answers : StageAnswers} {language : String} {now : ℤ}
  {competitor : ConfirmedCompetitor} {snapshot : SerpMarketSnapshot}

/-- The loop collects the new reviews of the pages that it obtains, up to the sample, and
ends with the failure. -/
theorem reviewPages_sample (dataId : String) (pages : ℕ) (token : Option Market.Text)
    (state : CollectState) :
    ((reviewPages lib answers language now dataId pages token state).1.reviews.take
        competitorReviewSampleLimit =
      (state.reviews ++ distinctReviews state.seen
        (pageOutcomes lib answers language now dataId pages token state).1.flatten).take
          competitorReviewSampleLimit) ∧
    (reviewPages lib answers language now dataId pages token state).2 =
      match (pageOutcomes lib answers language now dataId pages token state).2 with
      | none => .ok ()
      | some error => .error error := by
  induction pages generalizing token state with
  | zero =>
      rw [reviewPages, pageOutcomes]
      exact ⟨by rw [List.flatten_nil, distinctReviews, List.append_nil], rfl⟩
  | succ pages ih =>
      rw [reviewPages, pageOutcomes]
      simp only
      cases request lib answers state.trace (reviewParams dataId language token) with
      | error error => exact ⟨by rw [List.flatten_nil, distinctReviews, List.append_nil], rfl⟩
      | ok answered =>
          obtain ⟨payload, hit⟩ := answered
          simp only
          cases normalizeReviewPage lib payload now (reviewParams dataId language token) with
          | error error => exact ⟨by rw [List.flatten_nil, distinctReviews, List.append_nil]; rfl, rfl⟩
          | ok read =>
              obtain ⟨pageRecords, nextToken⟩ := read
              simp only
              obtain ⟨hhead, hall⟩ := addReviews_reviews pageRecords
                (state.answered ⟨reviewParams dataId language token, payload, hit⟩)
              change _ <+: state.reviews ++ distinctReviews state.seen pageRecords at hhead
              split
              next hstop =>
                refine ⟨?_, rfl⟩
                rw [List.flatten_cons, List.flatten_nil, List.append_nil]
                by_cases hfull : competitorReviewSampleLimit ≤
                    (addReviews pageRecords (state.answered
                      ⟨reviewParams dataId language token, payload, hit⟩)).reviews.length
                · obtain ⟨more, hmore⟩ := hhead
                  rw [← hmore, List.take_append_of_le_length hfull]
                · rw [(hall (Nat.lt_of_not_le hfull)).1]
                  rfl
              next hgoes =>
                have hroom := Nat.lt_of_not_le (not_or.1 hgoes).1
                obtain ⟨hreviews, hseen⟩ := hall hroom
                obtain ⟨hsample, hend⟩ := ih nextToken (addReviews pageRecords
                  (state.answered ⟨reviewParams dataId language token, payload, hit⟩))
                refine ⟨?_, hend⟩
                rw [hsample, hreviews, hseen, List.flatten_cons, distinctReviews_append,
                  List.append_assoc]
                rfl

/-- Where the profile of a state comes from: the records of the market, or the page of the
place. -/
theorem profileState_cases {strong : SerpMarketResultRecord} {state : CollectState}
    (h : profileState lib answers language now competitor snapshot = some (strong, state)) :
    ∃ records, matchingRecords lib competitor snapshot = .ok records ∧
      records.find? identified = some strong ∧
      ((∃ profile, profileFromMarket lib records now = .ok (some profile) ∧
          state = ⟨some profile, 0, 0, 0, [], [], []⟩) ∨
        profileFromMarket lib records now = .ok none ∧ ∃ payload hit profile,
          request lib answers [] (placeParams lib strong language) = .ok (payload, hit) ∧
          normalizePlaceProfile lib payload now (placeParams lib strong language) =
            .ok profile ∧
          websiteConflicts lib competitor profile = .ok false ∧
          state = ⟨profile, if hit then 0 else 1, 0, if hit then 1 else 0, [], [],
            [⟨placeParams lib strong language, payload, hit⟩]⟩) := by
  unfold profileState at h
  split at h
  · cases h
  next records hrecords =>
    refine ⟨records, hrecords, ?_⟩
    split at h
    · cases h
    next first hfirst =>
      split at h
      · cases h
      next profile hmarket =>
        obtain ⟨rfl, rfl⟩ := Prod.mk.inj (Option.some.inj h)
        exact ⟨hfirst, .inl ⟨profile, hmarket, rfl⟩⟩
      next hmarket =>
        dsimp only at h
        split at h
        · cases h
        next payload hit hrequest =>
          split at h
          · cases h
          next profile hplace =>
            split at h
            next hsite =>
              obtain ⟨rfl, rfl⟩ := Prod.mk.inj (Option.some.inj h)
              exact ⟨hfirst, .inr ⟨hmarket, payload, hit, profile, hrequest, hplace, hsite, rfl⟩⟩
            · cases h

theorem collectReviews_of_dataId {strong : SerpMarketResultRecord} {state : CollectState}
    {dataId : String} (h : reviewDataId state.profile strong = some dataId) :
    collectReviews lib answers language now competitor strong state =
      match reviewPages lib answers language now dataId competitorReviewPageLimit none state with
      | (final, .ok ()) => (.ok (collectedResult competitor final), final.trace)
      | (final, .error error) => handled competitor final error := by
  cases hpages : reviewPages lib answers language now dataId competitorReviewPageLimit none
      state with
  | mk final result =>
    cases result with
    | error error => simp only [collectReviews, h, hpages]
    | ok done => simp only [collectReviews, h, hpages]

theorem collectOne_of_start {dataId : String} {state : CollectState}
    (h : reviewStart lib answers language now competitor snapshot = some (dataId, state)) :
    state.reviews = [] ∧ state.seen = [] ∧
      collectOne lib answers language now competitor snapshot =
        match reviewPages lib answers language now dataId competitorReviewPageLimit none state with
        | (final, .ok ()) => (.ok (collectedResult competitor final), final.trace)
        | (final, .error error) => handled competitor final error := by
  obtain ⟨⟨strong, reached⟩, hprofile, hdata⟩ := Option.bind_eq_some_iff.1 h
  obtain ⟨found, hfound, heq⟩ := Option.map_eq_some_iff.1 hdata
  obtain ⟨rfl, rfl⟩ := Prod.mk.inj heq
  rw [← collectReviews_of_dataId hfound]
  obtain ⟨records, hrecords, hfirst, ⟨profile, hmarket, rfl⟩ |
    ⟨hmarket, payload, hit, profile, hrequest, hplace, hsite, rfl⟩⟩ := profileState_cases hprofile
  · refine ⟨rfl, rfl, ?_⟩
    simp only [collectOne, hrecords, hfirst, hmarket]
  · refine ⟨rfl, rfl, ?_⟩
    simp only [collectOne, hrecords, hfirst, hmarket, collectPlace, hrequest, hplace, hsite]

/-- What `collect_one` returns, by the failure of the pages. -/
theorem collectOne_outcome {dataId : String} {state : CollectState}
    (h : reviewStart lib answers language now competitor snapshot = some (dataId, state)) :
    match (reviewRun lib answers language now dataId state).2 with
    | none => ∃ result, (collectOne lib answers language now competitor snapshot).1 = .ok result ∧
        result.reviews = reviewSample (reviewRun lib answers language now dataId state).1 ∧ result.limitations = []
    | some .escaping =>
        (collectOne lib answers language now competitor snapshot).1 = .error .escaping
    | some _ => ∃ result,
        (collectOne lib answers language now competitor snapshot).1 = .ok result ∧
          result.reviews = [] ∧ result.limitations ≠ [] := by
  obtain ⟨hreviews, hseen, hrun⟩ := collectOne_of_start h
  obtain ⟨hsample, hend⟩ := @reviewPages_sample lib answers language now dataId
    competitorReviewPageLimit none state
  rw [← reviewRun] at hsample hend
  rw [hrun]
  rw [hreviews, hseen, List.nil_append] at hsample
  cases hpages : reviewPages lib answers language now dataId competitorReviewPageLimit none state with
  | mk final outcome =>
      rw [hpages] at hsample hend
      cases hfailure : (reviewRun lib answers language now dataId state).2 with
      | none =>
          rw [hfailure] at hend
          change outcome = .ok () at hend
          subst hend
          exact ⟨_, rfl, hsample, rfl⟩
      | some error =>
          rw [hfailure] at hend
          change outcome = .error error at hend
          subst hend
          cases error with
          | escaping => rfl
          | budgetExhausted => exact ⟨_, rfl, rfl, List.cons_ne_nil _ _⟩
          | partly => exact ⟨_, rfl, rfl, List.cons_ne_nil _ _⟩

theorem reviewSample_eq_nil_iff {pages : List (List PublicReviewRecord)} :
    reviewSample pages = [] ↔ pages.flatten = [] := by
  unfold reviewSample
  constructor
  · intro hempty
    by_contra hsome
    rcases List.take_eq_nil_iff.1 hempty with hzero | hnone
    · exact absurd hzero (by decide)
    · exact distinctReviews_nil_ne_nil hsome hnone
  · intro hnone
    rw [hnone, distinctReviews, List.take_nil]

theorem nothingToLose_of_kept {dataId : String} {state : CollectState}
    (h : reviewStart lib answers language now competitor snapshot = some (dataId, state))
    (hkept : ReviewsKept lib answers language now competitor snapshot dataId state) :
    NothingToLose lib answers language now dataId state := by
  obtain ⟨result, hresult, hreviews, _⟩ := hkept
  have houtcome := collectOne_outcome h
  cases hfailure : (reviewRun lib answers language now dataId state).2 with
  | none => exact .inl hfailure
  | some error =>
      rw [hfailure] at houtcome
      cases error with
      | escaping =>
          change (collectOne lib answers language now competitor snapshot).1 = _ at houtcome
          rw [hresult] at houtcome
          cases houtcome
      | budgetExhausted =>
          obtain ⟨other, hother, hnone, _⟩ := houtcome
          obtain rfl := Except.ok.inj (hresult.symm.trans hother)
          refine .inr ⟨by rw [hfailure]; exact fun heq => StageError.noConfusion (Option.some.inj heq), ?_⟩
          exact reviewSample_eq_nil_iff.1 (hreviews.symm.trans hnone)
      | partly =>
          obtain ⟨other, hother, hnone, _⟩ := houtcome
          obtain rfl := Except.ok.inj (hresult.symm.trans hother)
          refine .inr ⟨by rw [hfailure]; exact fun heq => StageError.noConfusion (Option.some.inj heq), ?_⟩
          exact reviewSample_eq_nil_iff.1 (hreviews.symm.trans hnone)

theorem kept_of_nothingToLose {dataId : String} {state : CollectState}
    (h : reviewStart lib answers language now competitor snapshot = some (dataId, state))
    (hsafe : NothingToLose lib answers language now dataId state) :
    ReviewsKept lib answers language now competitor snapshot dataId state := by
  have houtcome := collectOne_outcome h
  cases hfailure : (reviewRun lib answers language now dataId state).2 with
  | none =>
      rw [hfailure] at houtcome
      obtain ⟨result, hresult, hreviews, hlimitations⟩ := houtcome
      exact ⟨result, hresult, hreviews, by simp [hlimitations, hfailure]⟩
  | some error =>
      rw [hfailure] at houtcome
      have hnone : (reviewRun lib answers language now dataId state).2 ≠ none := by
        rw [hfailure]
        exact Option.some_ne_none _
      obtain ⟨hhandled, hempty⟩ := hsafe.resolve_left hnone
      rw [hfailure] at hhandled
      have hlost : ∃ result,
          (collectOne lib answers language now competitor snapshot).1 = .ok result ∧
            result.reviews = [] ∧ result.limitations ≠ [] := by
        cases error with
        | escaping => exact absurd rfl hhandled
        | budgetExhausted => exact houtcome
        | partly => exact houtcome
      obtain ⟨result, hresult, hreviews, hlimitations⟩ := hlost
      refine ⟨result, hresult, ?_, iff_of_true hlimitations (by rw [hfailure]; rfl)⟩
      rw [hreviews, reviewSample_eq_nil_iff.2 hempty]

/-- `collect_one` keeps the reviews that it obtained exactly where no page fails, or one
fails, with a handled error, before any review was obtained. -/
theorem reviews_kept_iff (lib : ProfileLibrary) (answers : StageAnswers) (language : String)
    (now : ℤ) (competitor : ConfirmedCompetitor) (snapshot : SerpMarketSnapshot)
    (dataId : String) (state : CollectState)
    (h : reviewStart lib answers language now competitor snapshot = some (dataId, state)) :
    ReviewsKept lib answers language now competitor snapshot dataId state ↔
      NothingToLose lib answers language now dataId state :=
  ⟨nothingToLose_of_kept h, kept_of_nothingToLose h⟩

end Runs

section Sample

/-- A page with one review and the token of another page. -/
def firstPage : Fields :=
  [("reviews", .list [.dict [("rating", .float ⟨0⟩)]]),
    ("serpapi_pagination", .dict [("next_page_token", .str (Market.text "next"))])]

/-- A provider that answers one page and then has no attempt left. -/
def cutAnswers : StageAnswers where
  existing _ _ := .ok .null
  recordHit _ := .ok ()
  provided trace _ :=
    match trace with
    | [] => .ok (.dict firstPage)
    | _ :: _ => .error .budgetExhausted
  saved _ _ _ := .ok ()
  persisted _ _ _ := .ok .null

/-- The state in which the pages of the sample are requested. -/
def branchState : CollectState := ⟨some northProfile, 0, 0, 0, [], [], []⟩

theorem start_branches :
    reviewStart sampleProfileLibrary cutAnswers "en" 0 branchCompetitor branchSnapshot =
      some ("south-data", branchState) := by
  have hfirst : [southBranch, northBranch].find? identified = some southBranch := by decide
  have hdata : reviewDataId (some northProfile) southBranch = some "south-data" := by decide
  have hstate : profileState sampleProfileLibrary cutAnswers "en" 0 branchCompetitor
      branchSnapshot = some (southBranch, branchState) := by
    simp only [profileState, branches_match, hfirst, northBranch_profile, branchState]
  rw [reviewStart, hstate, Option.bind_some]
  simp only [branchState, hdata, Option.map_some]

theorem firstPage_read (params : ProviderParams) :
    normalizeReviewPage sampleProfileLibrary firstPage 0 params =
      .ok ([zeroReview sampleProfileLibrary 0 params], some (Market.text "next")) := by
  have hmap : [Value.dict [("rating", .float ⟨0⟩)]].mapM
      (normalizeReview sampleProfileLibrary 0 params) =
      .ok [some (zeroReview sampleProfileLibrary 0 params)] := by
    rw [List.mapM_cons, normalizeReview_zero]
    rfl
  change ([Value.dict [("rating", .float ⟨0⟩)]].mapM
    (normalizeReview sampleProfileLibrary 0 params)).bind _ = _
  rw [hmap]
  rfl

theorem request_firstPage :
    request sampleProfileLibrary cutAnswers [] (reviewParams "south-data" "en" none) =
      .ok (firstPage, false) := by
  rw [request, if_pos (by decide)]
  rfl

theorem request_nextPage (first : StageRequest) :
    request sampleProfileLibrary cutAnswers [first]
      (reviewParams "south-data" "en" (some (Market.text "next"))) =
      .error .budgetExhausted := by
  rw [request, if_pos (by decide)]
  rfl

theorem reviewRun_cut :
    reviewRun sampleProfileLibrary cutAnswers "en" 0 "south-data" branchState =
      ([[zeroReview sampleProfileLibrary 0 (reviewParams "south-data" "en" none)]],
        some .budgetExhausted) := by
  have hadded : addReviews
      [zeroReview sampleProfileLibrary 0 (reviewParams "south-data" "en" none)]
      (branchState.answered ⟨reviewParams "south-data" "en" none, firstPage, false⟩) =
      ⟨some northProfile, 0, 1, 0,
        [zeroReview sampleProfileLibrary 0 (reviewParams "south-data" "en" none)],
        [reviewKey (zeroReview sampleProfileLibrary 0 (reviewParams "south-data" "en" none))],
        [⟨reviewParams "south-data" "en" none, firstPage, false⟩]⟩ := rfl
  have hgoes : ¬(competitorReviewSampleLimit ≤
      [zeroReview sampleProfileLibrary 0 (reviewParams "south-data" "en" none)].length ∨
      some (Market.text "next") = none ∨ some (Market.text "next") = none) := by decide
  have hfirst : request sampleProfileLibrary cutAnswers branchState.trace
      (reviewParams "south-data" "en" none) = .ok (firstPage, false) := request_firstPage
  rw [reviewRun, competitorReviewPageLimit, pageOutcomes]
  simp only [hfirst, firstPage_read, hadded]
  rw [if_neg hgoes, pageOutcomes]
  simp only [request_nextPage]

/-- A failed page with nothing obtained before it loses nothing. -/
def refusingAnswers : StageAnswers where
  existing _ _ := .ok .null
  recordHit _ := .ok ()
  provided _ _ := .error .partly
  saved _ _ _ := .ok ()
  persisted _ _ _ := .ok .null

theorem start_refused :
    reviewStart sampleProfileLibrary refusingAnswers "en" 0 branchCompetitor branchSnapshot =
      some ("south-data", branchState) := by
  have hfirst : [southBranch, northBranch].find? identified = some southBranch := by decide
  have hdata : reviewDataId (some northProfile) southBranch = some "south-data" := by decide
  have hstate : profileState sampleProfileLibrary refusingAnswers "en" 0 branchCompetitor
      branchSnapshot = some (southBranch, branchState) := by
    simp only [profileState, branches_match, hfirst, northBranch_profile, branchState]
  rw [reviewStart, hstate, Option.bind_some]
  simp only [branchState, hdata, Option.map_some]

theorem reviews_kept_refused :
    ReviewsKept sampleProfileLibrary refusingAnswers "en" 0 branchCompetitor branchSnapshot
        "south-data" branchState ↔
      NothingToLose sampleProfileLibrary refusingAnswers "en" 0 "south-data" branchState :=
  reviews_kept_iff sampleProfileLibrary refusingAnswers "en" 0 branchCompetitor branchSnapshot
    "south-data" branchState start_refused

/-- A review that was obtained and saved is lost when the budget ends. -/
theorem review_lost :
    ¬ReviewsKept sampleProfileLibrary cutAnswers "en" 0 branchCompetitor branchSnapshot
      "south-data" branchState := by
  intro hkept
  have hsafe := nothingToLose_of_kept start_branches hkept
  unfold NothingToLose at hsafe
  rw [reviewRun_cut] at hsafe
  rcases hsafe with hnone | ⟨_, hempty⟩
  · cases hnone
  · cases hempty

end Sample

end SearchTrust.Competitors
