/-
`CheckpointedPublicProfileStage`: the requests for the profile and the reviews of one
competitor, with what checkpoints, budget and provider answer as a parameter.
-/
import SearchTrust.Competitors.PublicProfile
import SearchTrust.Order.Sorting

namespace SearchTrust.Competitors

open SearchTrust.Market (Fields SerpMarketResultRecord Value)
open SearchTrust.Order

/-- `COMPETITOR_REVIEW_PAGE_LIMIT`. -/
def competitorReviewPageLimit : ℕ := 4

/-- `COMPETITOR_REVIEW_SAMPLE_LIMIT`. -/
def competitorReviewSampleLimit : ℕ := 30

/-- `ConfirmedCompetitor`, as far as the stage reads it. -/
structure ConfirmedCompetitor where
  competitorId : String
  websiteUrl : String

/-- A request that was answered, and whether a checkpoint answered it. -/
structure StageRequest where
  params : ProviderParams
  payload : Fields
  hit : Bool

/-- What the checkpoints, the cost ledger and the provider with its budget answer, after
the requests that were answered before.  A checkpoint that is not there is null. -/
structure StageAnswers where
  existing : List StageRequest → ProviderParams → Except StageError Value
  recordHit : List StageRequest → Except StageError Unit
  provided : List StageRequest → ProviderParams → Except StageError Value
  saved : List StageRequest → ProviderParams → Fields → Except StageError Unit
  persisted : List StageRequest → ProviderParams → Fields → Except StageError Value

/-- `params.get("engine")`. -/
def engineOf (params : ProviderParams) : Option Market.Text := params.lookup "engine"

variable (lib : ProfileLibrary)

section Requests

/-- The payload of a checkpoint, which has to be a sanitized one. -/
def checkpointPayload (engine : Option Market.Text) : Value → Except StageError Fields
  | .dict existing =>
      if Value.canonical (.dict (sanitizePublicProfilePayload lib existing engine)) =
          Value.canonical (.dict existing) then .ok existing
      else .error .partly
  | _ => .error .partly

/-- The payload that the provider answers, saved and read back. -/
def providedPayload (answers : StageAnswers) (trace : List StageRequest)
    (params : ProviderParams) : Value → Except StageError Fields
  | .dict payload => do
      let clean := sanitizePublicProfilePayload lib payload (engineOf params)
      answers.saved trace params clean
      let persisted ← answers.persisted trace params clean
      match persisted with
      | .dict persisted => return persisted
      | _ => return clean
  | _ => .error .partly

/-- `_request`. -/
def request (answers : StageAnswers) (trace : List StageRequest) (params : ProviderParams) :
    Except StageError (Fields × Bool) :=
  if params.all fun param => Market.encodable param.2 then do
    let existing ← answers.existing trace params
    if existing.isNull then
      let payload ← answers.provided trace params
      return (← providedPayload lib answers trace params payload, false)
    else
      let payload ← checkpointPayload lib (engineOf params) existing
      answers.recordHit trace
      return (payload, true)
  else .error .escaping

/-- The parameters of the request for the details of a place. -/
def placeParams (strong : SerpMarketResultRecord) (language : String) : ProviderParams :=
  [("engine", Market.text "google_maps"), ("type", Market.text "place"),
    ("hl", Market.text language)] ++
    match strong.providerPlaceId.filter (· ≠ "") with
    | some placeId => [("place_id", Market.text placeId)]
    | none => [("data", Market.text (strong.providerDataId.getD "")),
        ("ll", Market.text ("@" ++ lib.floatText strong.latitude ++ "," ++
          lib.floatText strong.longitude ++ ",14z"))]

/-- The parameters of the request for a page of reviews. -/
def reviewParams (dataId language : String) (token : Option Market.Text) : ProviderParams :=
  [("engine", Market.text "google_maps_reviews"), ("data_id", Market.text dataId),
    ("sort_by", Market.text "newestFirst"), ("hl", Market.text language)] ++
    (token.map fun token => ("next_page_token", token)).toList

end Requests

section Profiles

/-- `normalize_domain(str(url))`, with its exceptions as those of the stage. -/
def domainOf (url : Option String) : Except StageError (Option String) :=
  match normalizeDomain lib.names url with
  | .ok domain => .ok domain
  | .error _ => .error .partly

/-- `_matching_records`. -/
def matchingRecords (candidate : ConfirmedCompetitor) (snapshot : SerpMarketSnapshot) :
    Except StageError (List SerpMarketResultRecord) :=
  (domainOf lib (some candidate.websiteUrl)).map fun domain =>
    snapshot.queryRuns.flatten.filter (·.normalizedDomain = domain)

/-- A record with a provider id. -/
def identified (record : SerpMarketResultRecord) : Bool :=
  record.providerDataId.any (· ≠ "") || record.providerPlaceId.any (· ≠ "") ||
    record.providerCid.any (· ≠ "")

/-- A record with all that the market says of a profile. -/
def complete (record : SerpMarketResultRecord) : Bool :=
  record.address.any (· ≠ "") && record.categories ≠ [] && record.rating.isSome &&
    record.reviewCount.isSome

/-- The profile that a record shows. -/
def marketProfile (best : SerpMarketResultRecord) (now : ℤ) :
    Except StageError PublicGbpProfile := do
  let gbpUrl ← modelUrl lib ((best.providerCid.filter (· ≠ "")).map
    ("https://www.google.com/maps?cid=" ++ ·))
  let profile : PublicGbpProfile :=
    { businessName := best.displayName
      publicGbpUrl := gbpUrl
      providerPlaceId := best.providerPlaceId
      providerDataId := best.providerDataId
      providerCid := best.providerCid
      websiteUrl := best.url
      address := best.address
      categories := best.categories
      rating := best.rating
      reviewCount := best.reviewCount
      collectedAt := now
      requestRecordId := none }
  if profile.accepted then .ok profile else .error .partly

/-- `sorted(records, key=lambda item: item.position)[0]`. -/
def bestRecord (records : List SerpMarketResultRecord) : Option SerpMarketResultRecord :=
  (sortedBy (·.position) records).head?

/-- `_profile_from_market`. -/
def profileFromMarket (records : List SerpMarketResultRecord) (now : ℤ) :
    Except StageError (Option PublicGbpProfile) :=
  match bestRecord records with
  | some best => if complete best then (marketProfile lib best now).map some else .ok none
  | none => .ok none

/-- Whether the website of a profile is another one than that of the competitor. -/
def websiteConflicts (competitor : ConfirmedCompetitor) (profile : Option PublicGbpProfile) :
    Except StageError Bool :=
  match profile.bind (·.websiteUrl) with
  | none => .ok false
  | some website => do
      let domain ← domainOf lib (some website)
      let confirmed ← domainOf lib (some competitor.websiteUrl)
      return domain ≠ confirmed

/-- `(profile.provider_data_id if profile else None) or strong.provider_data_id`, where it
is not empty. -/
def reviewDataId (profile : Option PublicGbpProfile) (strong : SerpMarketResultRecord) :
    Option String :=
  match (profile.bind (·.providerDataId)).filter (· ≠ "") with
  | some dataId => some dataId
  | none => strong.providerDataId.filter (· ≠ "")

end Profiles

section Collecting

/-- The variables of `collect_one`, with the requests that were answered. -/
structure CollectState where
  profile : Option PublicGbpProfile
  detailCalls : ℕ
  reviewCalls : ℕ
  checkpointHits : ℕ
  reviews : List PublicReviewRecord
  seen : List String
  trace : List StageRequest

/-- `CompetitorPublicProfileResult`; a status is whether it is available. -/
structure CompetitorPublicProfileResult where
  competitorId : String
  profile : Option PublicGbpProfile
  reviews : List PublicReviewRecord
  identityTraceable : Bool
  profileAvailable : Bool
  reviewsAvailable : Bool
  placeDetailCalls : ℕ
  reviewPageCalls : ℕ
  checkpointHits : ℕ
  limitations : List String

/-- The result of a run of `collect_one`, or its exception, and its requests. -/
abbrev Collected := Except StageError CompetitorPublicProfileResult × List StageRequest

/-- `review.provider_review_id or review.review_record_id`. -/
def reviewKey (review : PublicReviewRecord) : String :=
  (review.providerReviewId.filter (· ≠ "")).getD review.reviewRecordId

/-- A review is added unless its key was seen. -/
def CollectState.add (state : CollectState) (review : PublicReviewRecord) : CollectState :=
  if reviewKey review ∈ state.seen then state
  else { state with
    reviews := state.reviews ++ [review]
    seen := state.seen ++ [reviewKey review] }

/-- The reviews of a page, until the sample is full. -/
def addReviews : List PublicReviewRecord → CollectState → CollectState
  | [], state => state
  | review :: rest, state =>
      if competitorReviewSampleLimit ≤ (state.add review).reviews.length then state.add review
      else addReviews rest (state.add review)

/-- A page of reviews was answered. -/
def CollectState.answered (state : CollectState) (request : StageRequest) : CollectState :=
  { state with
    checkpointHits := state.checkpointHits + if request.hit then 1 else 0
    reviewCalls := state.reviewCalls + if request.hit then 0 else 1
    trace := state.trace ++ [request] }

variable (answers : StageAnswers) (language : String) (now : ℤ)

/-- The loop over the pages, with the exception that ended it. -/
def reviewPages (dataId : String) :
    ℕ → Option Market.Text → CollectState → CollectState × Except StageError Unit
  | 0, _, state => (state, .ok ())
  | pages + 1, token, state =>
      let params := reviewParams dataId language token
      match request lib answers state.trace params with
      | .error error => (state, .error error)
      | .ok (payload, hit) =>
          let state := state.answered ⟨params, payload, hit⟩
          match normalizeReviewPage lib payload now params with
          | .error error => (state, .error error)
          | .ok (pageRecords, nextToken) =>
              let state := addReviews pageRecords state
              if competitorReviewSampleLimit ≤ state.reviews.length ∨ nextToken = none ∨
                  nextToken = token then (state, .ok ())
              else reviewPages dataId pages nextToken state

variable (competitor : ConfirmedCompetitor)

/-- The result of a run that raised nothing. -/
def collectedResult (state : CollectState) : CompetitorPublicProfileResult where
  competitorId := competitor.competitorId
  profile := state.profile
  reviews := state.reviews.take competitorReviewSampleLimit
  identityTraceable := true
  profileAvailable := state.profile.isSome
  reviewsAvailable := state.reviews ≠ []
  placeDetailCalls := state.detailCalls
  reviewPageCalls := state.reviewCalls
  checkpointHits := state.checkpointHits
  limitations := []

/-- The result of a run that raised what `collect_one` turns into a limitation. -/
def limitedResult (state : CollectState) (limitation : String) :
    CompetitorPublicProfileResult where
  competitorId := competitor.competitorId
  profile := state.profile
  reviews := []
  identityTraceable := true
  profileAvailable := state.profile.isSome
  reviewsAvailable := false
  placeDetailCalls := state.detailCalls
  reviewPageCalls := state.reviewCalls
  checkpointHits := state.checkpointHits
  limitations := [limitation]

/-- The result of a run that ends before the reviews. -/
def untraceableResult (detailCalls checkpointHits : ℕ) (limitation : String) :
    CompetitorPublicProfileResult where
  competitorId := competitor.competitorId
  profile := none
  reviews := []
  identityTraceable := false
  profileAvailable := false
  reviewsAvailable := false
  placeDetailCalls := detailCalls
  reviewPageCalls := 0
  checkpointHits := checkpointHits
  limitations := [limitation]

/-- The `except` clauses. -/
def handled (state : CollectState) : StageError → Collected
  | .escaping => (.error .escaping, state.trace)
  | .budgetExhausted => (.ok (limitedResult competitor state
      "The shared public-provider attempt budget was exhausted."), state.trace)
  | .partly => (.ok (limitedResult competitor state
      "Public competitor data was only partially available."), state.trace)

/-- The reviews of the place, and the end of `collect_one`. -/
def collectReviews (strong : SerpMarketResultRecord) (state : CollectState) : Collected :=
  match reviewDataId state.profile strong with
  | none => (.ok (collectedResult competitor state), state.trace)
  | some dataId =>
      match reviewPages lib answers language now dataId competitorReviewPageLimit none state with
      | (state, .ok ()) => (.ok (collectedResult competitor state), state.trace)
      | (state, .error error) => handled competitor state error

/-- The request for the details of the place, where the market shows no profile. -/
def collectPlace (strong : SerpMarketResultRecord) : Collected :=
  let state : CollectState := ⟨none, 0, 0, 0, [], [], []⟩
  let params := placeParams lib strong language
  match request lib answers [] params with
  | .error error => handled competitor state error
  | .ok (payload, hit) =>
      let state := { state with
        checkpointHits := if hit then 1 else 0
        detailCalls := if hit then 0 else 1
        trace := [⟨params, payload, hit⟩] }
      match normalizePlaceProfile lib payload now params with
      | .error error => handled competitor state error
      | .ok profile =>
          let state := { state with profile := profile }
          match websiteConflicts lib competitor profile with
          | .error error => handled competitor state error
          | .ok true => (.ok (untraceableResult competitor state.detailCalls state.checkpointHits
              "The public place identity conflicts with the confirmed website."), state.trace)
          | .ok false => collectReviews lib answers language now competitor strong state

/-- `collect_one`. -/
def collectOne (snapshot : SerpMarketSnapshot) : Collected :=
  match matchingRecords lib competitor snapshot with
  | .error error => (.error error, [])
  | .ok records =>
      match records.find? identified with
      | none => (.ok (untraceableResult competitor 0 0
          "The competitor public place identity could not be traced."), [])
      | some strong =>
          match profileFromMarket lib records now with
          | .error error => (.error error, [])
          | .ok none => collectPlace lib answers language now competitor strong
          | .ok (some profile) =>
              collectReviews lib answers language now competitor strong
                ⟨some profile, 0, 0, 0, [], [], []⟩

end Collecting

end SearchTrust.Competitors
