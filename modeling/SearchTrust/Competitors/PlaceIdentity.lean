/-
The reviews that the stage returns with a profile are those of the profile's own place,
exactly where the data id that they are asked with is known to be one of that place.
-/
import SearchTrust.Competitors.PublicProfileStage
import SearchTrust.Competitors.RankingContract
import SearchTrust.Report.Outcomes

namespace SearchTrust.Competitors

open SearchTrust.Market (Fields SerpMarketResultRecord Value)
open SearchTrust.Order

section Places

/-- The ids by which the provider knows a place. -/
structure PlaceIds where
  placeId : Option Market.Text
  dataId : Option Market.Text
  cid : Option Market.Text
deriving DecidableEq

/-- An id that is there and not empty. -/
def idText (value : Option String) : Option Market.Text :=
  (value.filter (· ≠ "")).map Market.text

def recordIds (record : SerpMarketResultRecord) : PlaceIds :=
  ⟨idText record.providerPlaceId, idText record.providerDataId, idText record.providerCid⟩

def profileIds (profile : PublicGbpProfile) : PlaceIds :=
  ⟨idText profile.providerPlaceId, idText profile.providerDataId, idText profile.providerCid⟩

variable (lib : ProfileLibrary)

/-- The ids in the details of a place. -/
def payloadIds (payload : Fields) : PlaceIds :=
  match placeFields payload with
  | none => ⟨none, none, none⟩
  | some place =>
      ⟨Market.boundedText lib.render (Fields.get place "place_id") 500,
        Market.boundedText lib.render (Fields.get place "data_id") 500,
        Market.boundedText lib.render (Fields.get place "cid") 200⟩

/-- The source shows a data id together with the ids that a profile has, of which there
is one at least. -/
def PlaceIds.Joins (source : PlaceIds) (dataId : Market.Text) (own : PlaceIds) : Prop :=
  source.dataId = some dataId ∧ own ≠ ⟨none, none, none⟩ ∧
    (own.placeId = none ∨ own.placeId = source.placeId) ∧
    (own.dataId = none ∨ own.dataId = source.dataId) ∧
    (own.cid = none ∨ own.cid = source.cid)

/-- A request for reviews. -/
def StageRequest.ForReviews (request : StageRequest) : Prop :=
  engineOf request.params = some (Market.text "google_maps_reviews")

/-- A request for the details of a place. -/
def StageRequest.ForPlace (request : StageRequest) : Prop :=
  engineOf request.params = some (Market.text "google_maps")

/-- Reviews were requested, and all with this data id. -/
def RequestedWith (trace : List StageRequest) (dataId : Market.Text) : Prop :=
  (∃ request ∈ trace, request.ForReviews) ∧
    ∀ request ∈ trace, request.ForReviews → request.params.lookup "data_id" = some dataId

/-- The data id of the requested reviews occurs with the ids of the profile, in one
record of the snapshot or in the details of the place. -/
def OnePlace (snapshot : SerpMarketSnapshot) (trace : List StageRequest)
    (profile : PublicGbpProfile) : Prop :=
  ∃ dataId, RequestedWith trace dataId ∧
    ((∃ record ∈ snapshot.queryRuns.flatten, (recordIds record).Joins dataId (profileIds profile)) ∨
      ∃ request ∈ trace, request.ForPlace ∧
        (payloadIds lib request.payload).Joins dataId (profileIds profile))

variable (language : String) (now : ℤ) (competitor : ConfirmedCompetitor)
  (snapshot : SerpMarketSnapshot)

/-- A profile and reviews that `collect_one` returns belong to one place. -/
def CollectsOnePlace (answers : StageAnswers) : Prop :=
  ∀ result trace, collectOne lib answers language now competitor snapshot = (.ok result, trace) →
    ∀ profile, result.profile = some profile → result.reviews ≠ [] →
      OnePlace lib snapshot trace profile

/-- The first record of the competitor that the provider identifies. -/
def strongRecord : Option SerpMarketResultRecord :=
  match matchingRecords lib competitor snapshot with
  | .ok records => records.find? identified
  | .error _ => none

/-- The request for the details of the place is answered with `place`. -/
def AnswersPlace (place : Except StageError Fields) (answers : StageAnswers) : Prop :=
  ∀ strong, strongRecord lib competitor snapshot = some strong →
    (request lib answers [] (placeParams lib strong language)).map Prod.fst = place

/-- The profile that the market shows, or else the details of the place, unless its
website is another one. -/
def ShowsProfile (records : List SerpMarketResultRecord) (strong : SerpMarketResultRecord)
    (place : Except StageError Fields) (profile : PublicGbpProfile) : Prop :=
  profileFromMarket lib records now = .ok (some profile) ∨
    profileFromMarket lib records now = .ok none ∧
      ∃ payload, place = .ok payload ∧
        normalizePlaceProfile lib payload now (placeParams lib strong language) =
          .ok (some profile) ∧
        websiteConflicts lib competitor (some profile) = .ok false

/-- Where the profile has no data id of its own and the first identified record has one,
a record of the snapshot shows that one with the ids of the profile. -/
def KnowsPlace (place : Except StageError Fields) : Prop :=
  ∀ records strong profile, matchingRecords lib competitor snapshot = .ok records →
    records.find? identified = some strong →
    ShowsProfile lib language now competitor records strong place profile →
    (profileIds profile).dataId = none → ∀ dataId, (recordIds strong).dataId = some dataId →
      ∃ record ∈ snapshot.queryRuns.flatten, (recordIds record).Joins dataId (profileIds profile)

end Places

section Runs

variable {lib : ProfileLibrary} {answers : StageAnswers} {language : String} {now : ℤ}
  {competitor : ConfirmedCompetitor}

theorem CollectState.add_profile (state : CollectState) (review : PublicReviewRecord) :
    (state.add review).profile = state.profile := by
  unfold add
  split <;> rfl

theorem CollectState.add_trace (state : CollectState) (review : PublicReviewRecord) :
    (state.add review).trace = state.trace := by
  unfold add
  split <;> rfl

theorem addReviews_profile (page : List PublicReviewRecord) (state : CollectState) :
    (addReviews page state).profile = state.profile := by
  induction page generalizing state with
  | nil => rfl
  | cons review rest ih =>
      rw [addReviews]
      split
      · exact state.add_profile review
      · rw [ih, state.add_profile]

theorem addReviews_trace (page : List PublicReviewRecord) (state : CollectState) :
    (addReviews page state).trace = state.trace := by
  induction page generalizing state with
  | nil => rfl
  | cons review rest ih =>
      rw [addReviews]
      split
      · exact state.add_trace review
      · rw [ih, state.add_trace]

/-- What a run of the loop over the pages leaves: the profile, and the requests before
it with those that it made. -/
structure PagesRun (dataId language : String) (before after : CollectState) : Prop where
  profile : after.profile = before.profile
  trace : ∃ made, after.trace = before.trace ++ made ∧
    (∀ request ∈ made, ∃ token, request.params = reviewParams dataId language token) ∧
    (made = [] → after.reviews = before.reviews)

variable (lib answers language now) in
theorem reviewPages_run (dataId : String) (pages : ℕ) (token : Option Market.Text)
    (state : CollectState) :
    PagesRun dataId language state
      (reviewPages lib answers language now dataId pages token state).1 := by
  induction pages generalizing token state with
  | zero => exact ⟨rfl, [], by simp [reviewPages]⟩
  | succ pages ih =>
      simp only [reviewPages]
      split
      next error _ => exact ⟨rfl, [], by simp⟩
      next payload hit _ =>
        split
        next error _ => exact ⟨rfl, [_], rfl, by simp, by simp⟩
        next pageRecords nextToken _ =>
          have hprofile' := addReviews_profile pageRecords
            (state.answered ⟨reviewParams dataId language token, payload, hit⟩)
          have htrace' := addReviews_trace pageRecords
            (state.answered ⟨reviewParams dataId language token, payload, hit⟩)
          split
          next => exact ⟨hprofile', [_], htrace', by simp, by simp⟩
          next =>
            obtain ⟨hprofile, made, htrace, hmade, -⟩ := ih nextToken (addReviews pageRecords
              (state.answered ⟨reviewParams dataId language token, payload, hit⟩))
            refine ⟨hprofile.trans hprofile', ⟨reviewParams dataId language token, payload, hit⟩ :: made, ?_, ?_, by simp⟩
            · rw [htrace, htrace', CollectState.answered, List.append_assoc]
              rfl
            · rintro request (_ | ⟨_, hrequest⟩)
              · exact ⟨token, rfl⟩
              · exact hmade request hrequest

theorem engineOf_reviewParams (dataId language : String) (token : Option Market.Text) :
    engineOf (reviewParams dataId language token) =
      some (Market.text "google_maps_reviews") := rfl

theorem dataId_reviewParams (dataId language : String) (token : Option Market.Text) :
    (reviewParams dataId language token).lookup "data_id" = some (Market.text dataId) := rfl

theorem engineOf_placeParams (strong : SerpMarketResultRecord) :
    engineOf (placeParams lib strong language) = some (Market.text "google_maps") := rfl

/-- An end with a profile and reviews: the profile is the one it was entered with, and
the reviews were requested with the data id that this one or the record has. -/
theorem collectReviews_ok {strong : SerpMarketResultRecord} {state : CollectState}
    {result : CompetitorPublicProfileResult} {trace : List StageRequest}
    (h : collectReviews lib answers language now competitor strong state = (.ok result, trace))
    (hempty : state.reviews = []) (hbefore : ∀ request ∈ state.trace, ¬ request.ForReviews)
    (hreviews : result.reviews ≠ []) :
    result.profile = state.profile ∧ state.trace ⊆ trace ∧
      ∃ dataId, reviewDataId state.profile strong = some dataId ∧
        RequestedWith trace (Market.text dataId) := by
  simp only [collectReviews] at h
  split at h
  next =>
    simp only [Prod.mk.injEq, Except.ok.injEq] at h
    rw [← h.1] at hreviews
    simp [collectedResult, hempty] at hreviews
  next dataId hdata =>
    have hrun := reviewPages_run lib answers language now dataId
      competitorReviewPageLimit none state
    split at h
    next after hpages =>
      rw [hpages] at hrun
      simp only [Prod.mk.injEq, Except.ok.injEq] at h
      obtain ⟨rfl, rfl⟩ := h
      obtain ⟨hprofile, made, htrace, hmade, hnone⟩ := hrun
      refine ⟨hprofile, by rw [htrace]; exact List.subset_append_left _ _, dataId, hdata, ?_, ?_⟩
      · cases made with
        | nil =>
            refine absurd ?_ hreviews
            rw [collectedResult, hnone rfl, hempty]
            rfl
        | cons first rest =>
            obtain ⟨token, hparams⟩ := hmade first List.mem_cons_self
            refine ⟨first, ?_, ?_⟩
            · rw [htrace]
              exact List.mem_append_right _ List.mem_cons_self
            · rw [StageRequest.ForReviews, hparams, engineOf_reviewParams]
      · intro request hrequest hfor
        rw [htrace, List.mem_append] at hrequest
        rcases hrequest with hrequest | hrequest
        · exact absurd hfor (hbefore request hrequest)
        · obtain ⟨token, hparams⟩ := hmade request hrequest
          rw [hparams, dataId_reviewParams]
    next after error hpages =>
      cases error with
      | escaping => simp [handled] at h
      | budgetExhausted =>
          simp only [handled, Prod.mk.injEq, Except.ok.injEq] at h
          rw [← h.1] at hreviews
          exact absurd rfl hreviews
      | partly =>
          simp only [handled, Prod.mk.injEq, Except.ok.injEq] at h
          rw [← h.1] at hreviews
          exact absurd rfl hreviews

end Runs

section Ids

variable {lib : ProfileLibrary} {language : String} {now : ℤ}

theorem text_decode {t : Market.Text} {s : String} (h : Market.decode t = some s) :
    Market.text s = t := by
  unfold Market.decode at h
  split at h
  next hall =>
    simp only [Option.some.injEq] at h
    rw [← h, Market.text, String.toList_ofList, List.map_map]
    refine (List.map_congr_left fun c hc => ?_).trans (List.map_id _)
    have hvalid : c.isValidChar := by simpa using List.all_eq_true.1 hall c hc
    rw [Function.comp_apply, Char.ofNat, dif_pos hvalid]
    rfl
  next => cases h

theorem idText_modelText {t : Option Market.Text} {value : Option String}
    (h : modelText t = .ok value) (hne : t ≠ some []) : idText value = t := by
  cases t with
  | none =>
      simp only [modelText, Market.decodeOptional, Except.ok.injEq] at h
      rw [← h]
      rfl
  | some t =>
      simp only [modelText, Market.decodeOptional] at h
      cases hdecode : Market.decode t with
      | none => simp [hdecode] at h
      | some s =>
          simp only [hdecode, Option.map_some, Except.ok.injEq] at h
          have htext := text_decode hdecode
          have hs : s ≠ "" := by
            rintro rfl
            exact hne (congrArg some htext.symm)
          rw [← h, idText, Option.filter_some, if_pos (by simpa using hs), Option.map_some, htext]

theorem boundedText_ne_nil (value : Option Value) (limit : ℕ) :
    Market.boundedText lib.render value limit ≠ some [] := by
  unfold Market.boundedText
  dsimp only
  split
  next h => simpa using h.1
  next => simp

theorem idText_modelField {fields : Fields} {key : String} {limit : ℕ} {value : Option String}
    (h : modelField lib fields key limit = .ok value) :
    idText value = Market.boundedText lib.render (Fields.get fields key) limit :=
  idText_modelText h (boundedText_ne_nil _ _)

theorem marketProfile_ids {best : SerpMarketResultRecord} {profile : PublicGbpProfile}
    (h : marketProfile lib best now = .ok profile) : profileIds profile = recordIds best := by
  obtain ⟨url, -, h⟩ := Report.Outcomes.ok_of_bind h
  dsimp only at h
  split at h
  next => cases h; rfl
  next => cases h

theorem placeProfile_ids {payload : Fields} {params : ProviderParams} {profile : PublicGbpProfile}
    (h : normalizePlaceProfile lib payload now params = .ok (some profile)) :
    profileIds profile = payloadIds lib payload := by
  unfold normalizePlaceProfile at h
  split at h
  next => cases h
  next place hplace =>
    split at h
    next => cases h
    next name _ =>
      obtain ⟨rating, -, h⟩ := Report.Outcomes.ok_of_bind h
      obtain ⟨businessName, -, h⟩ := Report.Outcomes.ok_of_bind h
      obtain ⟨gbp, -, h⟩ := Report.Outcomes.ok_of_bind h
      obtain ⟨gbpUrl, -, h⟩ := Report.Outcomes.ok_of_bind h
      obtain ⟨placeId, hplaceId, h⟩ := Report.Outcomes.ok_of_bind h
      obtain ⟨dataId, hdataId, h⟩ := Report.Outcomes.ok_of_bind h
      obtain ⟨cid, hcid, h⟩ := Report.Outcomes.ok_of_bind h
      obtain ⟨website, -, h⟩ := Report.Outcomes.ok_of_bind h
      obtain ⟨websiteUrl, -, h⟩ := Report.Outcomes.ok_of_bind h
      obtain ⟨address, -, h⟩ := Report.Outcomes.ok_of_bind h
      obtain ⟨categories, -, h⟩ := Report.Outcomes.ok_of_bind h
      dsimp only at h
      split at h
      next =>
        cases h
        rw [payloadIds, hplace]
        simp only [profileIds, idText_modelField hplaceId, idText_modelField hdataId,
          idText_modelField hcid]
      next => cases h

theorem text_eq_idText {value : Option String} {s : String} (h : value.filter (· ≠ "") = some s) :
    idText value = some (Market.text s) := by
  rw [idText, h]
  rfl

/-- The data id of the reviews: that of the profile, or that of the record. -/
theorem reviewDataId_some {profile : PublicGbpProfile} {strong : SerpMarketResultRecord}
    {dataId : String} (h : reviewDataId (some profile) strong = some dataId) :
    (profileIds profile).dataId = some (Market.text dataId) ∨
      (profileIds profile).dataId = none ∧
        (recordIds strong).dataId = some (Market.text dataId) := by
  unfold reviewDataId at h
  split at h
  next own hown =>
    left
    rw [Option.some.injEq] at h
    subst h
    exact text_eq_idText hown
  next hown =>
    right
    refine ⟨?_, text_eq_idText h⟩
    change Option.map _ _ = none
    rw [Option.map_eq_none_iff]
    exact hown

theorem reviewDataId_of_none {profile : PublicGbpProfile} {strong : SerpMarketResultRecord}
    {dataId : Market.Text} (hown : (profileIds profile).dataId = none)
    (h : (recordIds strong).dataId = some dataId) :
    ∃ s, reviewDataId (some profile) strong = some s ∧ Market.text s = dataId := by
  obtain ⟨s, hs, htext⟩ := Option.map_eq_some_iff.1 h
  refine ⟨s, ?_, htext⟩
  have hfilter : profile.providerDataId.filter (· ≠ "") = none := Option.map_eq_none_iff.1 hown
  simp only [reviewDataId, Option.bind_some, hfilter]
  exact hs

theorem PlaceIds.joins_self {ids : PlaceIds} {dataId : Market.Text} (h : ids.dataId = some dataId) :
    ids.Joins dataId ids := by
  refine ⟨h, ?_, .inr rfl, .inr rfl, .inr rfl⟩
  rintro rfl
  cases h

end Ids

section Collecting

variable {lib : ProfileLibrary} {answers : StageAnswers} {language : String} {now : ℤ}
  {competitor : ConfirmedCompetitor} {snapshot : SerpMarketSnapshot}

/-- The requests of a run that asked for the place were answered as asked. -/
theorem collectPlace_ok {strong : SerpMarketResultRecord}
    {result : CompetitorPublicProfileResult} {trace : List StageRequest}
    (h : collectPlace lib answers language now competitor strong = (.ok result, trace))
    {profile : PublicGbpProfile} (hprofile : result.profile = some profile)
    (hreviews : result.reviews ≠ []) :
    ∃ payload, (request lib answers [] (placeParams lib strong language)).map Prod.fst =
        .ok payload ∧
      normalizePlaceProfile lib payload now (placeParams lib strong language) =
        .ok (some profile) ∧
      websiteConflicts lib competitor (some profile) = .ok false ∧
      (∃ request ∈ trace, request.ForPlace ∧ request.payload = payload) ∧
      ∃ dataId, reviewDataId (some profile) strong = some dataId ∧
        RequestedWith trace (Market.text dataId) := by
  have hhandled : ∀ state error, handled competitor state error ≠ (.ok result, trace) := by
    intro state error hend
    cases error with
    | escaping => simp [handled] at hend
    | budgetExhausted | partly =>
        simp only [handled, Prod.mk.injEq, Except.ok.injEq] at hend
        rw [← hend.1] at hreviews
        exact hreviews rfl
  simp only [collectPlace] at h
  split at h
  next error _ => exact absurd h (hhandled _ _)
  next payload hit hrequest =>
    split at h
    next error _ => exact absurd h (hhandled _ _)
    next found hfound =>
      split at h
      next error _ => exact absurd h (hhandled _ _)
      next =>
        simp only [Prod.mk.injEq, Except.ok.injEq] at h
        rw [← h.1] at hreviews
        exact absurd rfl hreviews
      next hconflict =>
        obtain ⟨hstate, hsubset, dataId, hdata, hrequested⟩ := collectReviews_ok h rfl
          (by simp [StageRequest.ForReviews, engineOf_placeParams, Market.text]) hreviews
        rw [hprofile] at hstate
        dsimp only at hstate hdata
        subst hstate
        refine ⟨payload, by rw [hrequest]; rfl, hfound, hconflict, ?_, dataId, hdata, hrequested⟩
        exact ⟨_, hsubset List.mem_cons_self, engineOf_placeParams strong, rfl⟩

theorem bestRecord_mem {records : List SerpMarketResultRecord} {best : SerpMarketResultRecord}
    (h : bestRecord records = some best) : best ∈ records :=
  (sortedBy_perm _ _).mem_iff.1 (List.mem_of_head? h)

theorem matchingRecords_subset {records : List SerpMarketResultRecord}
    (h : matchingRecords lib competitor snapshot = .ok records) :
    records ⊆ snapshot.queryRuns.flatten := by
  obtain ⟨domain, -, rfl⟩ := Report.Outcomes.ok_of_map h
  exact List.filter_subset' _

theorem profileFromMarket_ids {records : List SerpMarketResultRecord} {profile : PublicGbpProfile}
    (h : profileFromMarket lib records now = .ok (some profile)) :
    ∃ best ∈ records, profileIds profile = recordIds best := by
  unfold profileFromMarket at h
  split at h
  next best hbest =>
    split at h
    next =>
      obtain ⟨found, hfound, hsome⟩ := Report.Outcomes.ok_of_map h
      rw [Option.some.injEq] at hsome
      subst hsome
      exact ⟨best, bestRecord_mem hbest, marketProfile_ids hfound⟩
    next => cases h
  next => cases h

/-- Where the place is known, what is collected belongs to one place. -/
theorem collectsOnePlace_of_knowsPlace {place : Except StageError Fields}
    (hknown : KnowsPlace lib language now competitor snapshot place)
    (hplace : AnswersPlace lib language competitor snapshot place answers) :
    CollectsOnePlace lib language now competitor snapshot answers := by
  intro result trace hrun profile hprofile hreviews
  unfold collectOne at hrun
  split at hrun
  next => cases hrun
  next records hrecords =>
    split at hrun
    next =>
      simp only [Prod.mk.injEq, Except.ok.injEq] at hrun
      rw [← hrun.1] at hreviews
      exact absurd rfl hreviews
    next strong hstrong =>
      have hstrong' : strongRecord lib competitor snapshot = some strong := by
        rw [strongRecord, hrecords]
        exact hstrong
      split at hrun
      next => cases hrun
      next hmarket =>
        obtain ⟨payload, hanswer, hfound, hconflict, ⟨request, hmem, hfor, hpayload⟩, dataId, hdata,
          hrequested⟩ := collectPlace_ok hrun hprofile hreviews
        refine ⟨_, hrequested, ?_⟩
        rcases reviewDataId_some hdata with hown | ⟨hown, hdata⟩
        · refine .inr ⟨request, hmem, hfor, ?_⟩
          rw [hpayload, ← placeProfile_ids hfound]
          exact PlaceIds.joins_self hown
        · refine .inl (hknown records strong profile hrecords hstrong
            (.inr ⟨hmarket, payload, ?_, hfound, hconflict⟩) hown _ hdata)
          rw [← hplace strong hstrong', hanswer]
      next found hmarket =>
        obtain ⟨hstate, -, dataId, hdata, hrequested⟩ :=
          collectReviews_ok hrun rfl (by simp) hreviews
        rw [hprofile] at hstate
        rw [← hstate] at hdata
        rw [Option.some.injEq] at hstate
        subst hstate
        refine ⟨_, hrequested, .inl ?_⟩
        rcases reviewDataId_some hdata with hown | ⟨hown, hdata⟩
        · obtain ⟨best, hbest, hids⟩ := profileFromMarket_ids hmarket
          refine ⟨best, matchingRecords_subset hrecords hbest, ?_⟩
          rw [← hids]
          exact PlaceIds.joins_self hown
        · exact hknown records strong profile hrecords hstrong (.inl hmarket) hown _ hdata

/-- A page with one review. -/
def onePage : Fields := [("reviews", .list [.dict [("rating", .float ⟨0⟩)]])]

/-- Answers of a provider with this page and these details of the place. -/
def pageAnswers (place : Except StageError Fields) : StageAnswers where
  existing _ _ := .ok .null
  recordHit _ := .ok ()
  provided _ params :=
    if engineOf params = some (Market.text "google_maps_reviews") then .ok (.dict onePage)
    else place.map .dict
  saved _ _ _ := .ok ()
  persisted _ params _ :=
    if engineOf params = some (Market.text "google_maps_reviews") then .ok .null
    else place.map .dict

theorem encodable_text (s : String) : Market.encodable (Market.text s) = true := by
  rw [Market.encodable, Market.text, List.all_map, List.all_eq_true]
  intro c _
  exact decide_eq_true c.valid

theorem encodable_placeParams (strong : SerpMarketResultRecord) :
    ((placeParams lib strong language).all fun param => Market.encodable param.2) = true := by
  unfold placeParams
  split <;> simp [encodable_text]

variable (lib language) in
theorem request_place (place : Except StageError Fields) (strong : SerpMarketResultRecord) :
    request lib (pageAnswers place) [] (placeParams lib strong language) =
      place.map fun payload => (payload, false) := by
  rw [request, if_pos (encodable_placeParams strong)]
  cases place with
  | error error => rfl
  | ok payload => rfl

theorem request_page (place : Except StageError Fields) (trace : List StageRequest)
    (dataId : String) :
    request lib (pageAnswers place) trace (reviewParams dataId language none) =
      .ok (onePage, false) := by
  have hencodable : ((reviewParams dataId language none).all
      fun param => Market.encodable param.2) = true := by
    simp [reviewParams, encodable_text]
  rw [request, if_pos hencodable]
  rfl

set_option maxRecDepth 20000 in
theorem reviewRating_zero : reviewRating (some (.float ⟨0⟩)) = .ok (some 0) := by
  with_unfolding_all decide

/-- The review of this page. -/
def zeroReview (lib : ProfileLibrary) (now : ℤ) (params : ProviderParams) :
    PublicReviewRecord where
  reviewRecordId := "rv_" ++ lib.reviewDigest none 0 none none
  providerReviewId := none
  rating := 0
  isoDate := none
  originalDateText := none
  text := none
  ownerResponseText := none
  ownerResponseIsoDate := none
  collectedAt := now
  requestRecordId := lib.requestRecordId params

theorem normalizeReview_zero (params : ProviderParams) :
    normalizeReview lib now params (.dict [("rating", .float ⟨0⟩)]) =
      .ok (some (zeroReview lib now params)) := by
  rw [normalizeReview, show Fields.get [("rating", Value.float ⟨0⟩)] "rating" =
    some (.float ⟨0⟩) from rfl, reviewRating_zero]
  rfl

theorem normalizeReviewPage_onePage (params : ProviderParams) :
    normalizeReviewPage lib onePage now params = .ok ([zeroReview lib now params], none) := by
  have hmap : [Value.dict [("rating", .float ⟨0⟩)]].mapM (normalizeReview lib now params) =
      .ok [some (zeroReview lib now params)] := by
    rw [List.mapM_cons, normalizeReview_zero]
    rfl
  change ([Value.dict [("rating", .float ⟨0⟩)]].mapM (normalizeReview lib now params)).bind _ = _
  rw [hmap]
  rfl

variable (lib language now competitor) in
/-- The reviews of these answers are one review, requested with the data id. -/
theorem collectReviews_onePage (place : Except StageError Fields)
    {strong : SerpMarketResultRecord} (state : CollectState) {dataId : String}
    (hdata : reviewDataId state.profile strong = some dataId) (hempty : state.reviews = [])
    (hseen : state.seen = []) :
    ∃ result, collectReviews lib (pageAnswers place) language now competitor strong state =
        (.ok result, state.trace ++ [⟨reviewParams dataId language none, onePage, false⟩]) ∧
      result.profile = state.profile ∧ result.reviews ≠ [] := by
  obtain ⟨profile, detailCalls, reviewCalls, checkpointHits, reviews, seen, trace⟩ := state
  dsimp only at hempty hseen hdata
  subst hempty hseen
  have hpages : reviewPages lib (pageAnswers place) language now dataId competitorReviewPageLimit
      none ⟨profile, detailCalls, reviewCalls, checkpointHits, [], [], trace⟩ =
      (⟨profile, detailCalls, reviewCalls + 1, checkpointHits,
        [zeroReview lib now (reviewParams dataId language none)],
        [reviewKey (zeroReview lib now (reviewParams dataId language none))],
        trace ++ [⟨reviewParams dataId language none, onePage, false⟩]⟩, .ok ()) := by
    rw [competitorReviewPageLimit, reviewPages]
    simp only [request_page, normalizeReviewPage_onePage]
    rfl
  refine ⟨collectedResult competitor ⟨profile, detailCalls, reviewCalls + 1, checkpointHits,
    [zeroReview lib now (reviewParams dataId language none)],
    [reviewKey (zeroReview lib now (reviewParams dataId language none))],
    trace ++ [⟨reviewParams dataId language none, onePage, false⟩]⟩, ?_, rfl,
    List.cons_ne_nil _ _⟩
  simp only [collectReviews, hdata, hpages]

/-- In a run whose last request asked for reviews, and for which no details of a place
have a data id, the place of the reviews is shown by a record. -/
theorem OnePlace.record {trace : List StageRequest} {profile : PublicGbpProfile} {dataId : String}
    (h : OnePlace lib snapshot
      (trace ++ [⟨reviewParams dataId language none, onePage, false⟩]) profile)
    (hplaces : ∀ request ∈ trace, (payloadIds lib request.payload).dataId = none) :
    ∃ record ∈ snapshot.queryRuns.flatten,
      (recordIds record).Joins (Market.text dataId) (profileIds profile) := by
  obtain ⟨found, ⟨-, hall⟩, hjoins⟩ := h
  have hfound := hall _ (List.mem_append_right _ List.mem_cons_self)
    (engineOf_reviewParams dataId language none)
  rw [dataId_reviewParams, Option.some.injEq] at hfound
  subst hfound
  rcases hjoins with hjoins | ⟨request, hmem, hfor, hjoins⟩
  · exact hjoins
  · rw [List.mem_append, List.mem_singleton] at hmem
    rcases hmem with hmem | rfl
    · have hnone := hplaces request hmem
      rw [hjoins.1] at hnone
      cases hnone
    · rw [StageRequest.ForPlace, engineOf_reviewParams] at hfor
      exact absurd hfor (by decide)

/-- Where what is collected belongs to one place for all reviews, the place is known. -/
theorem knowsPlace_of_collectsOnePlace {place : Except StageError Fields}
    (h : ∀ answers, AnswersPlace lib language competitor snapshot place answers →
      CollectsOnePlace lib language now competitor snapshot answers) :
    KnowsPlace lib language now competitor snapshot place := by
  intro records strong profile hrecords hstrong hshows hown dataId hdata
  obtain ⟨s, hreview, rfl⟩ := reviewDataId_of_none hown hdata
  have hone := h (pageAnswers place) fun strong _ => by
    rw [request_place]
    cases place <;> rfl
  rcases hshows with hmarket | ⟨hmarket, payload, rfl, hfound, hconflict⟩
  · obtain ⟨result, hrun, hprofile, hreviews⟩ := collectReviews_onePage lib language
      now competitor place ⟨some profile, 0, 0, 0, [], [], []⟩ hreview rfl rfl
    have hcollect : collectOne lib (pageAnswers place) language now competitor snapshot =
        (.ok result, [] ++ [⟨reviewParams s language none, onePage, false⟩]) := by
      simp only [collectOne, hrecords, hstrong, hmarket]
      exact hrun
    exact (hone result _ hcollect profile hprofile hreviews).record
      fun _ h => absurd h List.not_mem_nil
  · obtain ⟨result, hrun, hprofile, hreviews⟩ := collectReviews_onePage lib language
      now competitor (.ok payload) ⟨some profile, 1, 0, 0, [], [],
        [⟨placeParams lib strong language, payload, false⟩]⟩ hreview rfl rfl
    have hrequest := request_place lib language (.ok payload) strong
    have hcollect : collectOne lib (pageAnswers (.ok payload)) language now competitor snapshot =
        (.ok result, [⟨placeParams lib strong language, payload, false⟩] ++
          [⟨reviewParams s language none, onePage, false⟩]) := by
      simp only [collectOne, hrecords, hstrong, hmarket, collectPlace, hrequest, Except.map,
        hfound, hconflict]
      exact hrun
    refine (hone result _ hcollect profile hprofile hreviews).record ?_
    intro request hmem
    rw [List.mem_singleton] at hmem
    rw [hmem, ← placeProfile_ids hfound]
    exact hown

/-- A profile and reviews that are returned belong to one place, whatever the provider
answers on reviews, exactly where the market and the details of the place tell so. -/
theorem collect_one_one_place_iff (lib : ProfileLibrary) (language : String) (now : ℤ)
    (competitor : ConfirmedCompetitor) (snapshot : SerpMarketSnapshot)
    (place : Except StageError Fields) :
    (∀ answers, AnswersPlace lib language competitor snapshot place answers →
      CollectsOnePlace lib language now competitor snapshot answers) ↔
      KnowsPlace lib language now competitor snapshot place :=
  ⟨knowsPlace_of_collectsOnePlace, fun hknown _ => collectsOnePlace_of_knowsPlace hknown⟩

end Collecting

section Sample

/-- The libraries with ASCII texts and fixed digests. -/
def sampleProfileLibrary : ProfileLibrary where
  names := sampleRankingLibrary
  render _ := []
  isoDate _ := none
  isoFormat _ := ""
  floatText _ := "0.0"
  reviewDigest _ _ _ _ := "000000000000000000000000"
  requestRecordId _ := "req_000000000000000000000000"

/-- A place of `branches.example` in the market. -/
def branchRecord (recordId name : String) (position : ℤ) (placeId dataId : Option String) :
    SerpMarketResultRecord :=
  { sampleRecord recordId name "branches.example" position with
    providerPlaceId := placeId
    providerDataId := dataId
    providerCid := none
    address := some (name ++ " Street 1")
    categories := ["Plumber"]
    rating := some 4
    reviewCount := some 12 }

def southBranch : SerpMarketResultRecord :=
  branchRecord "r1" "South Branch" 2 (some "south-place") (some "south-data")

def northBranch : SerpMarketResultRecord :=
  branchRecord "r2" "North Branch" 1 (some "north-place") none

/-- The branch in the south comes first in the response, the one in the north has the
better position. -/
def branchSnapshot : SerpMarketSnapshot where
  queries := ["plumber", "drain cleaning", "pipe repair"]
  queryRuns := [[southBranch, northBranch]]

def branchCompetitor : ConfirmedCompetitor := ⟨"cp_1", "https://branches.example/"⟩

def northProfile : PublicGbpProfile where
  businessName := "North Branch"
  publicGbpUrl := none
  providerPlaceId := some "north-place"
  providerDataId := none
  providerCid := none
  websiteUrl := some "https://branches.example/"
  address := some "North Branch Street 1"
  categories := ["Plumber"]
  rating := some 4
  reviewCount := some 12
  collectedAt := 0
  requestRecordId := none

theorem branches_match :
    matchingRecords sampleProfileLibrary branchCompetitor branchSnapshot =
      .ok [southBranch, northBranch] := by
  decide

theorem northBranch_profile :
    profileFromMarket sampleProfileLibrary [southBranch, northBranch] 0 =
      .ok (some northProfile) := by
  decide

/-- The profile of one branch is returned with the reviews of the other. -/
theorem branches_mixed_up : ¬ CollectsOnePlace sampleProfileLibrary "en" 0 branchCompetitor
    branchSnapshot (pageAnswers (.error .partly)) := by
  intro h
  have hdata : reviewDataId (some northProfile) southBranch = some "south-data" := by decide
  obtain ⟨result, hrun, hprofile, hreviews⟩ := collectReviews_onePage sampleProfileLibrary "en" 0
    branchCompetitor (.error .partly) ⟨some northProfile, 0, 0, 0, [], [], []⟩ hdata rfl rfl
  have hfirst : [southBranch, northBranch].find? identified = some southBranch := by decide
  have hcollect : collectOne sampleProfileLibrary (pageAnswers (.error .partly)) "en" 0
      branchCompetitor branchSnapshot =
      (.ok result, [] ++ [⟨reviewParams "south-data" "en" none, onePage, false⟩]) := by
    simp only [collectOne, branches_match, northBranch_profile, hfirst]
    exact hrun
  obtain ⟨record, hrecord, hdata, -, hplace, -⟩ :=
    (h result _ hcollect northProfile hprofile hreviews).record
      fun _ h => absurd h List.not_mem_nil
  have hrecord' : record = southBranch ∨ record = northBranch := by
    simpa [branchSnapshot] using hrecord
  rcases hrecord' with rfl | rfl
  · exact absurd hplace (by decide)
  · exact absurd hdata (by decide)

end Sample

end SearchTrust.Competitors
