/-
`_normalize_results`: the result records and limitations of a sanitized payload.
-/
import SearchTrust.Market.Models
import SearchTrust.Market.Payloads

namespace SearchTrust.Market

/-- `urlsplit(text)`: the scheme in lower case, the host and the user name. -/
structure SplitUrl where
  scheme : Text
  hostname : Option Text
  username : Option Text

/-- What identifies a result within its call. -/
structure ResultIdentity where
  callId : String
  resultType : SerpResultType
  position : Int
  placeId : Option Text
  dataId : Option Text
  domain : Option Text
  displayName : Text
deriving DecidableEq

/-- The functions on texts that the normalization is built on. -/
structure ResultLibrary where
  /-- `str(value)` of a value that is no text. -/
  render : Value → Text
  casefold : Text → Text
  /-- `str.isdigit` of one character. -/
  isDigit : Nat → Bool
  /-- The value of a decimal digit; `int` raises `ValueError` for any other one. -/
  decimal : Nat → Option Nat
  /-- `int(text, 16)`; `none` where it raises `ValueError`. -/
  hexInteger : Text → Option Int
  /-- `none` where `urlsplit` raises `ValueError`. -/
  splitUrl : Text → Option SplitUrl
  /-- The `HttpUrl` of a text; `none` where it is refused. -/
  httpUrl : Text → Option String
  /-- The host of an `HttpUrl`, casefolded and without a leading `www.`. -/
  urlHost : String → String
  /-- `request_digest` of an identity that can be encoded. -/
  requestDigest : ResultIdentity → String

/-- What the normalization reads of a `SerpPlannedCall`. -/
structure MarketCall where
  callId : String
  query : String
  engine : SerpEngine

/-- What the normalization reads of a `SerpSearchPlan`. -/
structure MarketContext where
  latitude : ℚ
  longitude : ℚ
  countryCode : String
  language : String
  device : SearchDevice

/-- What ends the normalization. -/
inductive NormalizeError where
  | valueError
  /-- `orjson` refuses lone surrogates. -/
  | encodeError
deriving DecidableEq

def SerpEngine.text : SerpEngine → String
  | googleMaps => "google_maps"
  | google => "google"

/-- `result_type.upper()`. -/
def SerpResultType.upper : SerpResultType → String
  | maps => "MAPS"
  | localPack => "LOCAL_PACK"
  | organic => "ORGANIC"

def sectionInvalid (resultType : SerpResultType) : String :=
  "SERP_" ++ resultType.upper ++ "_SECTION_INVALID"

def resultSkipped (resultType : SerpResultType) : String :=
  "SERP_" ++ resultType.upper ++ "_RESULT_SKIPPED"

def duplicateSkipped (resultType : SerpResultType) : String :=
  "SERP_" ++ resultType.upper ++ "_DUPLICATE_SKIPPED"

section Fields

variable (library : ResultLibrary)

/-- `first or second`. -/
def orElse (first second : Option Value) : Option Value :=
  match first with
  | some value => if value.truthy then some value else second
  | none => second

/-- A text without lone surrogates. -/
def encodable (t : Text) : Bool := t.all fun c => decide c.isValidChar

/-- A text as a model field takes it. -/
def decode (t : Text) : Option String :=
  if encodable t then some (String.ofList (t.map Char.ofNat)) else none

def decodeOptional : Option Text → Option (Option String)
  | none => some none
  | some t => (decode t).map some

def inRange (minimum maximum value : Int) : Option Int :=
  if minimum ≤ value ∧ value ≤ maximum then some value else none

/-- `int(digits)`. -/
def digitsValue (digits : Text) : Option Int :=
  (digits.mapM library.decimal).map fun values =>
    ((values.foldl (fun value digit => value * 10 + digit) 0 : Nat) : Int)

/-- `_integer(value, minimum=minimum, maximum=maximum)`. -/
def integerField (value : Option Value) (minimum maximum : Int) :
    Except NormalizeError (Option Int) :=
  match value with
  | some (.int number) => .ok (inRange minimum maximum number)
  | some (.str t) =>
      let digits := t.filter fun c => c ≠ 0x2C
      if digits ≠ [] ∧ digits.all library.isDigit then
        match digitsValue library digits with
        | some number => .ok (inRange minimum maximum number)
        | none => .error .valueError
      else .ok none
  | _ => .ok none

/-- `_number(value, minimum=minimum, maximum=maximum)`. -/
def numberField (value : Option Value) (minimum maximum : ℚ) : Option ℚ :=
  match value with
  | some (.int number) =>
      if minimum ≤ number ∧ (number : ℚ) ≤ maximum then some number else none
  | some (.float number) =>
      if number.isFinite ∧ minimum ≤ number.value ∧ number.value ≤ maximum then
        some number.value
      else none
  | _ => none

/-- `_safe_url(value)`. -/
def safeUrl (value : Option Value) : Option Text × Option Text :=
  match boundedText library.render value 2083 with
  | none => (none, none)
  | some t =>
      match library.splitUrl t with
      | none => (none, none)
      | some parsed =>
          let hostname := parsed.hostname.getD []
          if (parsed.scheme ≠ text "http" ∧ parsed.scheme ≠ text "https") ∨ hostname = [] ∨
              parsed.username.getD [] ≠ [] then (none, none)
          else
            let folded := library.casefold hostname
            let host := if text "www." <+: folded then folded.drop 4 else folded
            (some t, if host.length ≤ 253 then some host else none)

/-- `_categories(item)`. -/
def categories (item : Fields) : List Text :=
  let raw := orElse (Fields.get item "types") (orElse (Fields.get item "categories")
    (Fields.get item "type"))
  let values := match raw with
    | some (.list values) => values.map some
    | raw => [raw]
  ((values.take 20).filterMap fun value => boundedText library.render value 240).eraseDups

/-- What follows the last colon. -/
def afterColon (t : Text) : Text := (t.reverse.takeWhile fun c => c ≠ 0x3A).reverse

/-- `tail.lower().startswith("0x")`. -/
def hexPrefixed : Text → Bool
  | 0x30 :: c :: _ => c == 0x78 || c == 0x58
  | _ => false

/-- `_provider_cid(item, data_id)`. -/
def providerCid (item : Fields) (dataId : Option Text) : Option Text :=
  match boundedText library.render (Fields.get item "cid") 200 with
  | some explicit => some explicit
  | none =>
      match dataId with
      | none => none
      | some dataId =>
          if 0x3A ∉ dataId then none
          else if hexPrefixed (afterColon dataId) then
            (library.hexInteger (afterColon dataId)).map fun number => text (toString number)
          else none

/-- `_provider_search_id(payload)`. -/
def providerSearchId (payload : Fields) : Option Text :=
  match Fields.get payload "search_metadata" with
  | some (.dict metadata) => boundedText library.render (Fields.get metadata "id") 200
  | _ => none

end Fields

section Records

variable (library : ResultLibrary)

/-- The bounds of `SerpMarketResultRecord` that its call and plan do not settle, and
its `validate_url_domain`. -/
def SerpMarketResultRecord.accepted (record : SerpMarketResultRecord) : Bool :=
  decide (1 ≤ record.position ∧ record.position ≤ 10000) &&
    decide (1 ≤ record.displayName.length ∧ record.displayName.length ≤ 240) &&
    record.normalizedDomain.all (fun t => decide (t.length ≤ 253)) &&
    record.providerPlaceId.all (fun t => decide (t.length ≤ 500)) &&
    record.providerDataId.all (fun t => decide (t.length ≤ 500)) &&
    record.providerCid.all (fun t => decide (t.length ≤ 200)) &&
    record.address.all (fun t => decide (t.length ≤ 500)) &&
    record.phone.all (fun t => decide (t.length ≤ 100)) &&
    decide (record.categories.length ≤ 20) &&
    record.categories.all (fun t => decide (1 ≤ t.length ∧ t.length ≤ 240)) &&
    record.rating.all (fun rating => decide (0 ≤ rating ∧ rating ≤ 5)) &&
    record.reviewCount.all (fun count => decide (0 ≤ count ∧ count ≤ 1000000000)) &&
    record.snippet.all (fun t => decide (t.length ≤ 2000)) &&
    record.providerSearchId.all (fun t => decide (t.length ≤ 200)) &&
    (match record.url with
      | none => decide (record.normalizedDomain = none)
      | some url => decide (record.normalizedDomain = some (library.urlHost url))) &&
    decide record.categories.Nodup

/-- An item of a section with its place in the response. -/
structure ListedItem where
  resultType : SerpResultType
  responseIndex : Nat
  item : Value

/-- `item.get("title") or item.get("name")`, bounded. -/
def displayName (item : Fields) : Option Text :=
  boundedText library.render (orElse (Fields.get item "title") (Fields.get item "name")) 240

/-- The text and the domain of the link of an item. -/
def itemUrl (resultType : SerpResultType) (item : Fields) : Option Text × Option Text :=
  let preferred := if resultType = .organic then Fields.get item "link"
    else Fields.get item "website"
  let found := safeUrl library (orElse preferred (Fields.get item "link"))
  if found.2 = none then (none, none) else found

def placeId (item : Fields) : Option Text :=
  boundedText library.render (Fields.get item "place_id") 500

def dataId (item : Fields) : Option Text :=
  boundedText library.render (Fields.get item "data_id") 500

/-- `item["reviews"] if "reviews" in item else item.get("reviews_count")`. -/
def reviewsValue (item : Fields) : Option Value :=
  match Fields.get item "reviews" with
  | some value => some value
  | none => Fields.get item "reviews_count"

/-- The identity of a named item at a position. -/
def identityAt (call : MarketCall) (resultType : SerpResultType) (item : Fields) (name : Text)
    (position : Int) : ResultIdentity where
  callId := call.callId
  resultType := resultType
  position := position
  placeId := placeId library item
  dataId := dataId library item
  domain := (itemUrl library resultType item).2
  displayName := library.casefold name

/-- `canonical_json_bytes` takes the identity. -/
def ResultIdentity.encodable (identity : ResultIdentity) : Bool :=
  identity.placeId.all Market.encodable && identity.dataId.all Market.encodable &&
    identity.domain.all Market.encodable && Market.encodable identity.displayName

def urlField : Option Text → Option (Option String)
  | none => some none
  | some t => (library.httpUrl t).map some

variable (call : MarketCall) (context : MarketContext) (payload : Fields)
  (responseChecksum : String) (observedAt : Int)

/-- `SerpMarketResultRecord(...)`; `none` where it raises `ValidationError`. -/
def buildRecord (listed : ListedItem) (item : Fields) (name : Text) (recordId : String)
    (providerPosition reviewCount : Option Int) : Option SerpMarketResultRecord := do
  let displayName ← decode name
  let url ← urlField library (itemUrl library listed.resultType item).1
  let normalizedDomain ← decodeOptional (itemUrl library listed.resultType item).2
  let providerPlaceId ← decodeOptional (placeId library item)
  let providerDataId ← decodeOptional (dataId library item)
  let cid ← decodeOptional (providerCid library item (dataId library item))
  let address ← decodeOptional (boundedText library.render (Fields.get item "address") 500)
  let phone ← decodeOptional (boundedText library.render (Fields.get item "phone") 100)
  let names ← (categories library item).mapM decode
  let snippet ← decodeOptional (boundedText library.render (Fields.get item "snippet") 2000)
  let searchId ← decodeOptional (providerSearchId library payload)
  let record : SerpMarketResultRecord :=
    { recordId := recordId
      callId := call.callId
      query := call.query
      resultType := listed.resultType
      position := providerPosition.getD listed.responseIndex
      rankSource := if providerPosition.isSome then .providerPosition else .responseOrder
      displayName := displayName
      url := url
      normalizedDomain := normalizedDomain
      providerPlaceId := providerPlaceId
      providerDataId := providerDataId
      providerCid := cid
      address := address
      phone := phone
      categories := names
      rating := numberField (Fields.get item "rating") 0 5
      reviewCount := reviewCount
      snippet := snippet
      providerSearchId := searchId
      responseChecksum := responseChecksum
      observedAt := observedAt
      latitude := context.latitude
      longitude := context.longitude
      countryCode := context.countryCode
      language := context.language
      device := context.device }
  if record.accepted library then some record else none

/-- The records, the limitations and the record ids so far. -/
structure NormalizeState where
  records : List SerpMarketResultRecord
  limitations : List String
  seen : List String

/-- One turn of the loop over the items of a section. -/
def normalizeItem (state : NormalizeState) (listed : ListedItem) :
    Except NormalizeError NormalizeState :=
  let skipped : NormalizeState :=
    { state with limitations := state.limitations ++ [resultSkipped listed.resultType] }
  match listed.item with
  | .dict item =>
      match displayName library item with
      | none => .ok skipped
      | some name => do
          let providerPosition ← integerField library (Fields.get item "position") 1 10000
          let identity := identityAt library call listed.resultType item name
            (providerPosition.getD listed.responseIndex)
          if !identity.encodable then .error .encodeError
          else
            let recordId := library.requestDigest identity
            if recordId ∈ state.seen then
              return { state with
                limitations := state.limitations ++ [duplicateSkipped listed.resultType] }
            else
              let reviewCount ← integerField library (reviewsValue item) 0 1000000000
              match buildRecord library call context payload responseChecksum observedAt listed
                  item name recordId providerPosition reviewCount with
              | none => return { skipped with seen := state.seen ++ [recordId] }
              | some record => return { state with
                  records := state.records ++ [record]
                  seen := state.seen ++ [recordId] }
  | _ => .ok skipped

/-- The sections of an engine with the type of their results. -/
def sections : SerpEngine → List (SerpResultType × String)
  | .googleMaps => [(.maps, "local_results")]
  | .google => [(.localPack, "local_results"), (.organic, "organic_results")]

/-- `enumerate(_result_list(payload, section), start=1)`. -/
def listedItems (resultType : SerpResultType) (raw : List Value) : List ListedItem :=
  ((raw.take serpResultLimitPerType).zipIdx 1).map fun entry => ⟨resultType, entry.2, entry.1⟩

/-- One turn of the loop over the sections. -/
def normalizeSection (state : NormalizeState) (entry : SerpResultType × String) :
    Except NormalizeError NormalizeState :=
  match Fields.get payload entry.2 with
  | none | some .null => .ok state
  | some (.list raw) =>
      (listedItems entry.1 raw).foldlM
        (normalizeItem library call context payload responseChecksum observedAt) state
  | some _ => .ok { state with limitations := state.limitations ++ [sectionInvalid entry.1] }

/-- `_normalize_results`. -/
def normalizeResults : Except NormalizeError (List SerpMarketResultRecord × List String) := do
  let state ← (sections call.engine).foldlM
    (normalizeSection library call context payload responseChecksum observedAt) ⟨[], [], []⟩
  return (state.records, state.limitations.eraseDups.take 20)

end Records

end SearchTrust.Market
