/-
The public profile and the review records of a competitor, as they are read from the
sanitized payloads of the provider.
-/
import SearchTrust.Competitors.Normalization
import SearchTrust.Market.Results
import SearchTrust.Numeric.Binary64

namespace SearchTrust.Competitors

open SearchTrust.Market (Fields Float64 Rule SerpMarketResultRecord Value)
open SearchTrust.Numeric (toBinary64)

/-- How a stage ends when it raises: what `collect_one` turns into a limitation, and
what it lets through. -/
inductive StageError where
  | budgetExhausted
  /-- An `OSError`, a `ValueError` or a `RuntimeError`. -/
  | partly
  /-- A cancellation, a `CostLedgerError` or any other exception. -/
  | escaping
deriving DecidableEq

/-- The parameters of a provider request, a dict of texts. -/
abbrev ProviderParams := List (String × Market.Text)

/-- The libraries of the public profiles. -/
structure ProfileLibrary where
  names : CompetitorLibrary
  /-- `str(value)`, of a value that is no text. -/
  render : Value → Market.Text
  /-- `datetime.fromisoformat`; a time without a zone is read as UTC. -/
  isoDate : Market.Text → Option ℤ
  /-- `datetime.isoformat`. -/
  isoFormat : ℤ → String
  /-- The text of a finite float. -/
  floatText : ℚ → String
  /-- The digits that `request_digest` keeps of what identifies a review. -/
  reviewDigest : Option String → ℚ → Option String → Option String → String
  /-- `request_record_id`, of parameters that can be encoded. -/
  requestRecordId : ProviderParams → String

/-- `PublicGbpProfile`. -/
structure PublicGbpProfile where
  businessName : String
  publicGbpUrl : Option String
  providerPlaceId : Option String
  providerDataId : Option String
  providerCid : Option String
  websiteUrl : Option String
  address : Option String
  categories : List String
  rating : Option ℚ
  reviewCount : Option ℤ
  collectedAt : ℤ
  requestRecordId : Option String
deriving DecidableEq

/-- `PublicReviewRecord`; its source is `google_maps_reviews`. -/
structure PublicReviewRecord where
  reviewRecordId : String
  providerReviewId : Option String
  rating : ℚ
  isoDate : Option ℤ
  originalDateText : Option String
  text : Option String
  ownerResponseText : Option String
  ownerResponseIsoDate : Option ℤ
  collectedAt : ℤ
  requestRecordId : String
deriving DecidableEq

variable (lib : ProfileLibrary)

section Sanitizing

/-- `bounded_text(value, limit)`, as a rule. -/
def boundedRule (limit : ℕ) : Rule := Market.boundedString lib.render limit

/-- A number is kept as it is. -/
def numberRule : Rule
  | some (.int value) => some (.int value)
  | some (.float value) => some (.float value)
  | _ => none

/-- The texts among the first twenty items of a list. -/
def textsRule : Rule := Market.keptTexts lib.render

def responseRules : List (String × Rule) :=
  [("iso_date", boundedRule lib 120), ("snippet", boundedRule lib 10000),
    ("text", boundedRule lib 10000)]

/-- The owner's response, unless nothing of it is kept. -/
def responseRule : Rule
  | some (.dict response) =>
      let clean := Fields.keep (responseRules lib) response
      if clean = [] then none else some (.dict clean)
  | _ => none

def reviewRules : List (String × Rule) :=
  [("review_id", boundedRule lib 500), ("iso_date", boundedRule lib 120),
    ("date", boundedRule lib 120), ("snippet", boundedRule lib 10000),
    ("text", boundedRule lib 10000), ("rating", numberRule), ("response", responseRule lib)]

/-- What is kept of the first eight reviews; an item that is no dict is dropped. -/
def cleanReviews : Option Value → List Value
  | some (.list raw) => (raw.take 8).filterMap fun item =>
      match item with
      | .dict review => some (.dict (Fields.keep (reviewRules lib) review))
      | _ => none
  | _ => []

/-- The token of the next page. -/
def nextPageToken (payload : Fields) : Option Market.Text :=
  match Fields.get payload "serpapi_pagination" with
  | some (.dict pagination) =>
      Market.boundedText lib.render (Fields.get pagination "next_page_token") 500
  | _ => none

/-- `payload.get("place_results") or payload.get("local_results")`, and of a list its
first item, where that is a dict. -/
def placeFields (payload : Fields) : Option Fields :=
  match Market.orElse (Fields.get payload "place_results") (Fields.get payload "local_results") with
  | some (.list (.dict place :: _)) => some place
  | some (.dict place) => some place
  | _ => none

def placeRules : List (String × Rule) :=
  ([("title", 240), ("name", 240), ("website", 2083), ("address", 500), ("place_url", 2083),
    ("link", 2083), ("place_id", 500), ("data_id", 500), ("cid", 200), ("type", 240)].map
      fun entry => (entry.1, boundedRule lib entry.2)) ++
    (["rating", "reviews", "reviews_count"].map fun key => (key, numberRule)) ++
    (["types", "categories"].map fun key => (key, textsRule lib))

/-- `sanitize_public_profile_payload(payload, engine)`. -/
def sanitizePublicProfilePayload (payload : Fields) (engine : Option Market.Text) : Fields :=
  if engine = some (Market.text "google_maps_reviews") then
    ("reviews", .list (cleanReviews lib (Fields.get payload "reviews"))) ::
      match nextPageToken lib payload with
      | some token => [("serpapi_pagination", .dict [("next_page_token", .str token)])]
      | none => []
  else
    [("place_results", .dict (((placeFields payload).map (Fields.keep (placeRules lib))).getD []))]

end Sanitizing

section Places

/-- `float(value)`; an integer that is too large for a float escapes. -/
def floatOf (value : ℤ) : Except StageError ℚ :=
  if |toBinary64 value| < 2 ^ 1024 then .ok (toBinary64 value) else .error .escaping

/-- A rating that is a number; a model refuses a float that is not finite. -/
def ratingOf : Option Value → Except StageError (Option ℚ)
  | some (.int value) => (floatOf value).map some
  | some (.float value) => if value.isFinite then .ok (some value.value) else .error .partly
  | _ => .ok none

/-- A text of a model, which refuses lone surrogates. -/
def modelText (value : Option Market.Text) : Except StageError (Option String) :=
  match Market.decodeOptional value with
  | some value => .ok value
  | none => .error .partly

/-- `bounded_text`, of the value of a key, in a model. -/
def modelField (fields : Fields) (key : String) (limit : ℕ) : Except StageError (Option String) :=
  modelText (Market.boundedText lib.render (Fields.get fields key) limit)

/-- An `HttpUrl | None` of a model. -/
def modelUrl (value : Option String) : Except StageError (Option String) :=
  match value with
  | none => .ok none
  | some value =>
      match lib.names.httpUrl value.toList with
      | some url => .ok (some (.ofList url))
      | none => .error .partly

/-- The bounds of the rating and of the review count; what it is made of settles those of
the texts. -/
def PublicGbpProfile.accepted (profile : PublicGbpProfile) : Bool :=
  profile.rating.all (fun rating => 0 ≤ rating && rating ≤ 5) &&
    profile.reviewCount.all (fun count => 0 ≤ count && count ≤ 1000000000) &&
    decide profile.categories.Nodup

/-- The categories of a place: a list of them, or one value. -/
def placeCategories (place : Fields) : List Market.Text :=
  let raw := Market.orElse (Fields.get place "types") (Market.orElse (Fields.get place "categories")
    (Fields.get place "type"))
  let values := match raw with
    | some (.list values) => values
    | some value => if value.truthy then [value] else []
    | none => []
  ((values.take 20).filterMap fun value =>
    Market.boundedText lib.render (some value) 240).eraseDups

/-- The number of reviews of a place, where it is an integer. -/
def placeReviewCount (place : Fields) : Option ℤ :=
  match Market.orElse (Fields.get place "reviews") (Fields.get place "reviews_count") with
  | some (.int count) => some count
  | _ => none

/-- `normalize_place_profile`. -/
def normalizePlaceProfile (payload : Fields) (collectedAt : ℤ) (params : ProviderParams) :
    Except StageError (Option PublicGbpProfile) :=
  match placeFields payload with
  | none => .ok none
  | some place =>
      match Market.boundedText lib.render
          (Market.orElse (Fields.get place "title") (Fields.get place "name")) 240 with
      | none => .ok none
      | some name => do
          let rating ← ratingOf (Fields.get place "rating")
          let businessName ← modelText (some name)
          let gbp ← modelText (Market.boundedText lib.render
            (Market.orElse (Fields.get place "place_url") (Fields.get place "link")) 2083)
          let gbpUrl ← modelUrl lib gbp
          let placeId ← modelField lib place "place_id" 500
          let dataId ← modelField lib place "data_id" 500
          let cid ← modelField lib place "cid" 200
          let website ← modelField lib place "website" 2083
          let websiteUrl ← modelUrl lib website
          let address ← modelField lib place "address" 500
          let categories ← (placeCategories lib place).mapM fun value => modelText (some value)
          let profile : PublicGbpProfile :=
            { businessName := businessName.getD ""
              publicGbpUrl := gbpUrl
              providerPlaceId := placeId
              providerDataId := dataId
              providerCid := cid
              websiteUrl := websiteUrl
              address := address
              categories := categories.reduceOption
              rating := rating
              reviewCount := placeReviewCount place
              collectedAt := collectedAt
              requestRecordId := some (lib.requestRecordId params) }
          if profile.accepted then .ok (some profile) else .error .partly

end Places

section Reviews

/-- The rating of a review, where it is a number from 0 to 5. -/
def reviewRating : Option Value → Except StageError (Option ℚ)
  | some (.int value) => (floatOf value).map fun value =>
      if 0 ≤ value ∧ value ≤ 5 then some value else none
  | some (.float value) =>
      .ok (if value.isFinite ∧ 0 ≤ value.value ∧ value.value ≤ 5 then some value.value else none)
  | _ => .ok none

/-- `text.replace("Z", "+00:00")`. -/
def zuluOffset (t : Market.Text) : Market.Text :=
  t.flatMap fun c => if c = 0x5A then Market.text "+00:00" else [c]

/-- `_date`. -/
def dateOf (value : Option Value) : Option ℤ :=
  (Market.boundedText lib.render value 120).bind fun t => lib.isoDate (zuluOffset t)

/-- A text that a digest is made of; `orjson` refuses lone surrogates. -/
def digestText (value : Option Market.Text) : Except StageError (Option String) :=
  match Market.decodeOptional value with
  | some value => .ok value
  | none => .error .escaping

/-- One turn of the loop over the reviews of a page. -/
def normalizeReview (collectedAt : ℤ) (params : ProviderParams) (raw : Value) :
    Except StageError (Option PublicReviewRecord) :=
  match raw with
  | .dict raw => do
      let rating ← reviewRating (Fields.get raw "rating")
      match rating with
      | none => return none
      | some rating =>
          let isoDate := dateOf lib (Fields.get raw "iso_date")
          let text ← digestText (Market.boundedText lib.render
            (Market.orElse (Fields.get raw "snippet") (Fields.get raw "text")) 10000)
          let providerId ← digestText
            (Market.boundedText lib.render (Fields.get raw "review_id") 500)
          let response := match Fields.get raw "response" with
            | some (.dict response) => response
            | _ => []
          let responseText ← modelText (Market.boundedText lib.render
            (Market.orElse (Fields.get response "snippet") (Fields.get response "text")) 10000)
          let originalDate ← modelField lib raw "date" 120
          return some {
            reviewRecordId := "rv_" ++
              lib.reviewDigest providerId rating (isoDate.map lib.isoFormat) text
            providerReviewId := providerId
            rating := rating
            isoDate := isoDate
            originalDateText := originalDate
            text := text
            ownerResponseText := responseText
            ownerResponseIsoDate :=
              if responseText = none then none else dateOf lib (Fields.get response "iso_date")
            collectedAt := collectedAt
            requestRecordId := lib.requestRecordId params }
  | _ => .ok none

/-- `normalize_review_page`. -/
def normalizeReviewPage (payload : Fields) (collectedAt : ℤ) (params : ProviderParams) :
    Except StageError (List PublicReviewRecord × Option Market.Text) := do
  let raw := match Fields.get payload "reviews" with
    | some (.list reviews) => reviews.take 8
    | _ => []
  let records ← raw.mapM (normalizeReview lib collectedAt params)
  return (records.reduceOption, nextPageToken lib payload)

end Reviews

end SearchTrust.Competitors
