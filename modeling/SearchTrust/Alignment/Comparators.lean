/-
The offline comparators between a website and a business profile.  Every value is
normalised first; what normalises to nothing is not valid.
-/
import Mathlib.Data.Char
import Mathlib.Data.Nat.Basic
import Mathlib.Data.String.Basic
import Mathlib.Order.OrderDual
import SearchTrust.Order.Sorting
import SearchTrust.Report.CanonicalText
import SearchTrust.Web.UrlText

namespace SearchTrust.Alignment

open SearchTrust.Order
open SearchTrust.Web (isSpace)

/-- A number that `phonenumbers.parse` returned. -/
structure ParsedPhone where
  isPossibleNumber : Bool
  isValidNumber : Bool
  /-- `format_number(number, PhoneNumberFormat.E164)`. -/
  e164 : String
  extension : Option String

/-- What `usaddress.tag` returned: the labelled parts and the type of the address. -/
structure TaggedAddress where
  labels : List (String × String)
  addressType : String

/-- The Unicode tables and the two address libraries. -/
structure ComparisonLibrary where
  /-- `unicodedata.normalize("NFKC", value)`. -/
  nfkc : String → String
  casefold : String → String
  /-- The class `\w`. -/
  isWord : Char → Bool
  /-- The class `\d`. -/
  isDecimal : Char → Bool
  /-- `phonenumbers.parse`; `none` is a `NumberParseException`. -/
  parsePhone : String → Option String → Option ParsedPhone
  /-- `usaddress.tag`; `none` is one of the exceptions that `_tag_us` catches. -/
  tagAddress : String → Option TaggedAddress

/-- `FieldKind`. -/
inductive FieldKind where
  | businessName
  | address
  | phone
  | serviceArea
  | openingHours
deriving DecidableEq, Repr

def FieldKind.text : FieldKind → String
  | businessName => "business_name"
  | address => "address"
  | phone => "phone"
  | serviceArea => "service_area"
  | openingHours => "opening_hours"

/-- The keys of an address, in the order of their names. -/
inductive AddressPart where
  | country
  | house
  | locality
  | postal
  | region
  | street
  | unit
deriving DecidableEq, Repr

def AddressPart.name : AddressPart → String
  | country => "country"
  | house => "house"
  | locality => "locality"
  | postal => "postal"
  | region => "region"
  | street => "street"
  | unit => "unit"

/-- `sorted` over all keys. -/
def addressParts : List AddressPart :=
  [.country, .house, .locality, .postal, .region, .street, .unit]

/-- The components of an address. -/
abbrev AddressComponents := AddressPart → Option String

/-- `NormalizedValue`. -/
structure NormalizedValue where
  field : FieldKind
  originalKey : String
  normalizedKey : Option String := none
  components : AddressComponents := fun _ => none
  extension : Option String := none
  version : String
  countryCode : String
  transformations : List String := []
  valid : Bool := true

/-- `PairState`. -/
inductive PairState where
  | exactMatch
  | semanticMatch
  | mismatch
  | incomparable
deriving DecidableEq, Repr

/-- `state in {"exact_match", "semantic_match"}`. -/
def PairState.isMatch : PairState → Bool
  | exactMatch | semanticMatch => true
  | mismatch | incomparable => false

/-- `ValueComparison`. -/
structure ValueComparison where
  state : PairState
  left : NormalizedValue
  right : NormalizedValue
  comparedComponents : List String := []
  omittedComponents : List String := []

/-- `ServiceAreaState`. -/
inductive ServiceAreaState where
  | exactMatch
  | partialMatch
  | mismatch
deriving DecidableEq, Repr

/-- `ServiceAreaComparison`. -/
structure ServiceAreaComparison where
  state : ServiceAreaState
  matched : List String
  siteOnly : List String
  gbpOnly : List String

section Texts

/-- `pattern.sub(" ", value)` for a pattern that takes runs of a class. -/
def subRuns (p : Char → Bool) : Bool → List Char → List Char
  | _, [] => []
  | inRun, c :: rest =>
      if p c then
        if inRun then subRuns p true rest else ' ' :: subRuns p true rest
      else c :: subRuns p false rest

/-- `_SAFE_PUNCTUATION`. -/
def isSafePunctuation (c : Char) : Bool := c ∈ ".,;:!?'\"`()[]{}-_/\\".toList

/-- `value.strip()`. -/
def strip (value : String) : String := .ofList (Web.strip value.toList)

/-- `_WHITESPACE.sub(" ", value)`. -/
def joinSpaces (value : String) : String := .ofList (subRuns isSpace false value.toList)

/-- `value.split()`. -/
def splitWords (value : String) : List String :=
  ((value.toList.splitOnP isSpace).filter (· ≠ [])).map .ofList

/-- Whether `\b` + `word` + `\b` is found, after a character that is or is not in
`\w`. -/
def containsWord (isWord : Char → Bool) (word : List Char) : Bool → List Char → Bool
  | _, [] => false
  | afterWord, c :: rest =>
      (!afterWord && word.isPrefixOf (c :: rest) &&
          !((c :: rest).drop word.length).head?.any isWord) ||
        containsWord isWord word (isWord c) rest

/-- `value or None`. -/
def orNone (value : String) : Option String := if value = "" then none else some value

/-- `value or ""`. -/
def orEmpty (value : Option String) : String := value.getD ""

/-- `bool(value)`. -/
def truthy (value : Option String) : Bool := orEmpty value ≠ ""

end Texts

/-- `_US_LEGAL_SUFFIXES`, the longest first. -/
def usLegalSuffixes : List (List String) :=
  [["l", "l", "c"], ["llc"], ["inc"], ["incorporated"], ["corp"], ["corporation"], ["co"],
    ["company"], ["lp"], ["llp"], ["pllc"]]

/-- `_LEGAL_SUFFIXES.get(country_code, set())`. -/
def legalSuffixes (countryCode : String) : List (List String) :=
  if countryCode = "US" then usLegalSuffixes else []

/-- The suffixes of `normalize_business_name_v2`, by length and then by text. -/
def legalSuffixesV2 : List (List String) :=
  [["l", "l", "c"], ["l", "t", "d"], ["corp"], ["corporation"], ["inc"], ["incorporated"],
    ["limited"], ["llc"], ["ltd"]]

/-- `_STREET_SUFFIX`. -/
def streetSuffix : List (String × String) :=
  [("street", "st"), ("st", "st"), ("road", "rd"), ("rd", "rd"), ("avenue", "ave"),
    ("ave", "ave"), ("boulevard", "blvd"), ("blvd", "blvd"), ("drive", "dr"), ("dr", "dr"),
    ("lane", "ln"), ("ln", "ln"), ("court", "ct"), ("ct", "ct"), ("circle", "cir"),
    ("cir", "cir"), ("highway", "hwy"), ("hwy", "hwy"), ("parkway", "pkwy"),
    ("pkwy", "pkwy"), ("place", "pl"), ("pl", "pl"), ("terrace", "ter"), ("ter", "ter"),
    ("trail", "trl"), ("trl", "trl"), ("way", "way")]

/-- `_DIRECTION`. -/
def direction : List (String × String) :=
  [("north", "n"), ("south", "s"), ("east", "e"), ("west", "w"), ("northeast", "ne"),
    ("northwest", "nw"), ("southeast", "se"), ("southwest", "sw"), ("n", "n"), ("s", "s"),
    ("e", "e"), ("w", "w"), ("ne", "ne"), ("nw", "nw"), ("se", "se"), ("sw", "sw")]

/-- `_US_REGIONS`. -/
def usRegions : List (String × String) :=
  [("alabama", "al"), ("alaska", "ak"), ("arizona", "az"), ("arkansas", "ar"),
    ("california", "ca"), ("colorado", "co"), ("connecticut", "ct"), ("delaware", "de"),
    ("florida", "fl"), ("georgia", "ga"), ("hawaii", "hi"), ("idaho", "id"),
    ("illinois", "il"), ("indiana", "in"), ("iowa", "ia"), ("kansas", "ks"),
    ("kentucky", "ky"), ("louisiana", "la"), ("maine", "me"), ("maryland", "md"),
    ("massachusetts", "ma"), ("michigan", "mi"), ("minnesota", "mn"), ("mississippi", "ms"),
    ("missouri", "mo"), ("montana", "mt"), ("nebraska", "ne"), ("nevada", "nv"),
    ("new hampshire", "nh"), ("new jersey", "nj"), ("new mexico", "nm"), ("new york", "ny"),
    ("north carolina", "nc"), ("north dakota", "nd"), ("ohio", "oh"), ("oklahoma", "ok"),
    ("oregon", "or"), ("pennsylvania", "pa"), ("rhode island", "ri"),
    ("south carolina", "sc"), ("south dakota", "sd"), ("tennessee", "tn"), ("texas", "tx"),
    ("utah", "ut"), ("vermont", "vt"), ("virginia", "va"), ("washington", "wa"),
    ("west virginia", "wv"), ("wisconsin", "wi"), ("wyoming", "wy"),
    ("district of columbia", "dc")]

/-- `target_region`: the region, or two letters that end the name of a US place. -/
def targetRegion (displayName : String) (region : Option String) (countryCode : String) :
    Option String :=
  if truthy region then region
  else if countryCode = "US" then
    match displayName.toList.reverse.dropWhile isSpace with
    | b :: a :: before :: _ =>
        if a.isAlpha && b.isAlpha && (before = ',' || isSpace before) then
          some (.ofList [a.toUpper, b.toUpper])
        else none
    | _ => none
  else none

section Normalization

variable (lib : ComparisonLibrary)

/-- `_display`. -/
def display (value : String) : String := joinSpaces (strip (lib.nfkc value))

/-- `_words`. -/
def words (value : String) : String :=
  strip (joinSpaces (.ofList
    (subRuns isSafePunctuation false (lib.casefold (display lib value)).toList)))

/-- `tuple(tokens[-len(suffix):]) == suffix`. -/
def endsWithTokens (tokens suffix : List String) : Bool :=
  tokens.drop (tokens.length - suffix.length) = suffix

/-- The tokens without the first suffix of the list that they end with. -/
def dropSuffix (suffixes : List (List String)) (tokens : List String) : Option (List String) :=
  (suffixes.find? (endsWithTokens tokens)).map fun suffix =>
    tokens.take (tokens.length - suffix.length)

/-- `normalize_business_name`. -/
def normalizeBusinessName (value countryCode : String) : NormalizedValue :=
  let original := display lib value
  let transformed := words lib original
  let equivalent := '&' ∈ transformed.toList ||
    containsWord lib.isWord "and".toList false transformed.toList
  let joined :=
    if equivalent then
      strip (joinSpaces (.ofList (transformed.toList.flatMap fun c =>
        if c = '&' then " and ".toList else [c])))
    else transformed
  let tokens := splitWords joined
  let dropped := dropSuffix (legalSuffixes countryCode) tokens
  let key := " ".intercalate (dropped.getD tokens)
  { field := .businessName
    originalKey := original
    normalizedKey := orNone key
    version := "business_name_normalization_v1"
    countryCode
    transformations := sortedSet
      ((if original ≠ value then ["unicode_or_whitespace"] else []) ++
        (if equivalent then ["and_equivalent"] else []) ++
        (if dropped.isSome then ["legal_suffix_removed"] else []))
    valid := key ≠ "" }

/-- The city that stands at an end of the tokens, taken off when two remain. -/
def dropCity (city tokens : List String) : Option (List String) :=
  let n := city.length
  if n ≠ 0 ∧ n + 2 ≤ tokens.length then
    if tokens.drop (tokens.length - n) = city then some (tokens.take (tokens.length - n))
    else if tokens.take n = city then some (tokens.drop n)
    else none
  else none

/-- The loop of `normalize_business_name_v2`.  A turn that goes on takes a token off, so
there are at most as many turns as tokens. -/
def stripName (city : List String) : Nat → List String → List String →
    List String × List String
  | 0, tokens, changes => (tokens, changes)
  | turns + 1, tokens, changes =>
      if tokens = [] then (tokens, changes)
      else
        let plain := dropSuffix legalSuffixesV2 tokens
        let rest := plain.getD tokens
        let inner := dropCity city rest
        let changes := changes ++ (if plain.isSome then ["legal_suffix_removed"] else []) ++
          (if inner.isSome then ["boundary_city_removed"] else [])
        let next := inner.getD rest
        if next = tokens then (tokens, changes) else stripName city turns next changes

/-- `normalize_business_name_v2`. -/
def normalizeBusinessNameV2 (value countryCode : String) (city : Option String) :
    NormalizedValue :=
  let original := display lib value
  let normalized := (words lib original).toList.flatMap fun c =>
    if c = '&' then " and ".toList else [c]
  let tokens := splitWords (.ofList normalized)
  let cityTokens := splitWords (words lib (orEmpty city))
  let (kept, changes) := stripName cityTokens tokens.length tokens
    ["unicode_case_punctuation_whitespace"]
  { field := .businessName
    originalKey := original
    normalizedKey := orNone (" ".intercalate kept)
    version := "business_name_normalization_v2"
    countryCode
    transformations := sortedSet changes
    valid := kept ≠ [] }

/-- The states of `compare_business_names`, `compare_phones` and `compare_addresses` once
it is known whether the valid values differ. -/
def comparisonState (left right : NormalizedValue) (differ : Bool) : PairState :=
  if !left.valid || !right.valid then .incomparable
  else if left.originalKey = right.originalKey ∧ differ = false then .exactMatch
  else if differ then .mismatch
  else .semanticMatch

/-- `compare_business_names`.  Equal original keys match whatever the normalised keys
are. -/
def compareBusinessNames (left right countryCode : String) (nameQuality : Bool)
    (city : Option String) : ValueComparison :=
  let normalize := fun value =>
    if nameQuality then normalizeBusinessNameV2 lib value countryCode city
    else normalizeBusinessName lib value countryCode
  let a := normalize left
  let b := normalize right
  { state :=
      comparisonState a b (a.originalKey ≠ b.originalKey && a.normalizedKey ≠ b.normalizedKey)
    left := a
    right := b }

/-- `normalize_phone`. -/
def normalizePhone (value countryCode : String) : NormalizedValue :=
  let original := display lib value
  let region := if "+".isPrefixOf original then none else some countryCode
  let invalid : NormalizedValue :=
    { field := .phone
      originalKey := original
      normalizedKey := none
      version := "business_phone_normalization_v1"
      countryCode
      transformations := ["invalid_phone"]
      valid := false }
  match lib.parsePhone original region with
  | none => invalid
  | some number =>
      if number.isPossibleNumber && number.isValidNumber then
        let extension := orNone (orEmpty number.extension)
        { field := .phone
          originalKey := original
          normalizedKey := some number.e164
          extension
          version := "business_phone_normalization_v1"
          countryCode
          transformations := sortedSet
            ((if original ≠ number.e164 then ["phone_format"] else []) ++
              (if extension.isSome then ["extension_observed"] else [])) }
      else invalid

/-- `compare_phones`. -/
def comparePhones (left right countryCode : String) : ValueComparison :=
  let a := normalizePhone lib left countryCode
  let b := normalizePhone lib right countryCode
  { state :=
      comparisonState a b (a.normalizedKey ≠ b.normalizedKey ||
        (a.extension.isSome && b.extension.isSome && a.extension ≠ b.extension))
    left := a
    right := b
    comparedComponents := ["number"]
    omittedComponents :=
      if a.valid && b.valid && a.extension.isSome != b.extension.isSome then ["extension"]
      else [] }

/-- `_street_token`. -/
def streetToken (value : String) : String :=
  let token := words lib value
  (streetSuffix.lookup token).getD ((direction.lookup token).getD token)

/-- `tagged.get(label, "")`. -/
def TaggedAddress.part (tagged : TaggedAddress) (label : String) : String :=
  orEmpty (tagged.labels.lookup label)

/-- The name of a US region, as its code. -/
def regionCode (region : String) : String := (usRegions.lookup region).getD region

/-- `_tag_us`. -/
def tagUs (value : String) : AddressComponents :=
  match lib.tagAddress value with
  | none => fun _ => none
  | some tagged =>
      if tagged.addressType ≠ "Street Address" then fun _ => none
      else fun part =>
        orNone <| match part with
          | .house => words lib (tagged.part "AddressNumber")
          | .street => " ".intercalate
              (["StreetNamePreDirectional", "StreetName", "StreetNamePostType",
                "StreetNamePostDirectional"].flatMap fun label =>
                  (splitWords (tagged.part label)).map (streetToken lib))
          | .locality => words lib (tagged.part "PlaceName")
          | .region => regionCode (words lib (tagged.part "StateName"))
          | .postal => .ofList ((words lib (tagged.part "ZipCode")).toList.filter (!isSpace ·))
          | .unit => words lib (" ".intercalate
              ([tagged.part "OccupancyType", tagged.part "OccupancyIdentifier"].filter (· ≠ "")))
          | .country => "us"

/-- The house number and the street of `\s*(\d+[\w-]*)\s+(.+?)\s*`.  A street of white
space alone is written as nothing. -/
def houseAndStreet (street : List Char) : Option (List Char × List Char) :=
  let text := street.dropWhile isSpace
  let house := text.takeWhile fun c => lib.isWord c || c = '-'
  let rest := text.drop house.length
  let spaces := rest.takeWhile isSpace
  let name := (rest.dropWhile isSpace).rdropWhile isSpace
  if !text.head?.any lib.isDecimal || spaces = [] then none
  else if name ≠ [] then if '\n' ∈ name then none else some (house, name)
  else if spaces.tail.any (· ≠ '\n') then some (house, [])
  else none

/-- `components[key] = item`. -/
def AddressComponents.set (components : AddressComponents) (part : AddressPart)
    (item : String) : AddressComponents :=
  fun other => if other = part then some item else components other

/-- A field of a structured address that takes the place of a component. -/
def mapField (countryCode : String) (fields : List (String × String)) (part : AddressPart)
    (label : String) (components : AddressComponents) : AddressComponents :=
  match fields.lookup label with
  | none => components
  | some item =>
      if item = "" then components
      else
        let normalized := words lib item
        components.set part <|
          if part = .region ∧ countryCode = "US" then regionCode normalized
          else if part = .postal then .ofList (normalized.toList.filter (· ≠ ' '))
          else normalized

/-- `_structured_address`. -/
def structuredAddress (fields : List (String × String)) (countryCode : String) :
    AddressComponents :=
  let street := orEmpty (fields.lookup "streetAddress")
  let components : AddressComponents :=
    if countryCode = "US" then tagUs lib street
    else
      match houseAndStreet lib street.toList with
      | some (house, name) =>
          (AddressComponents.set (fun _ => none) .house (words lib (.ofList house))).set
            .street (words lib (.ofList name))
      | none => fun _ => none
  let components := mapField lib countryCode fields .locality "addressLocality" components
  let components := mapField lib countryCode fields .region "addressRegion" components
  let components := mapField lib countryCode fields .postal "postalCode" components
  let components := mapField lib countryCode fields .country "addressCountry" components
  if countryCode = "US" ∧ components .country = none then components.set .country "us"
  else components

/-- An address: a text, or the properties of a structured one. -/
inductive AddressValue where
  | text (value : String)
  | structured (fields : List (String × String))

/-- The names of the keys that a dictionary has. -/
def AddressComponents.keys (components : AddressComponents) : List AddressPart :=
  addressParts.filter fun part => (components part).isSome

/-- `normalize_address`. -/
def normalizeAddress (value : AddressValue) (countryCode : String) : NormalizedValue :=
  let original :=
    match value with
    | .text text => display lib text
    | .structured fields => .ofList (Report.canonicalText
        (.object (fields.map fun field => (field.1, .string field.2))))
  let components :=
    match value with
    | .structured fields => structuredAddress lib fields countryCode
    | .text text => if countryCode = "US" then tagUs lib text else fun _ => none
  let valid := truthy (components .house) && truthy (components .street)
  { field := .address
    originalKey := original
    normalizedKey :=
      if valid then
        some ("|".intercalate (components.keys.map fun part =>
          part.name ++ "=" ++ orEmpty (components part)))
      else none
    components
    version := "business_address_normalization_v1"
    countryCode
    transformations :=
      match value with
      | .structured _ => ["structured_components"]
      | .text text =>
          if valid ∧ words lib text ≠ words lib original then ["unicode_or_whitespace"] else []
    valid }

/-- `compare_addresses`. -/
def compareAddresses (left right : AddressValue) (countryCode : String) : ValueComparison :=
  let a := normalizeAddress lib left countryCode
  let b := normalizeAddress lib right countryCode
  if !a.valid || !b.valid then { state := .incomparable, left := a, right := b }
  else
    let compared := a.components.keys.filter (· ∈ b.components.keys)
    let omitted := addressParts.filter fun part =>
      part ∈ a.components.keys ∧ part ∉ b.components.keys ∨
        part ∉ a.components.keys ∧ part ∈ b.components.keys
    { state :=
        comparisonState a b ((AddressPart.house :: .street :: compared).any fun part =>
          a.components part ≠ b.components part)
      left := a
      right := b
      comparedComponents := compared.map AddressPart.name
      omittedComponents := omitted.map AddressPart.name }

/-- `suffixes` of `_service_key`, the longest first. -/
def serviceSuffixes (countryCode : String) (region : Option String) : List String :=
  let region := words lib (orEmpty region)
  let suffixes := words lib countryCode :: region ::
    (if countryCode = "US" then
      ["us", "usa", "united states", orEmpty (usRegions.lookup region)]
    else [])
  sortedBy (fun suffix => OrderDual.toDual suffix.length)
    (sortedSet (suffixes.filter (· ≠ "")))

/-- The loop of `_service_key`.  A suffix that is taken off is not empty. -/
def dropSuffixes (suffixes : List String) : Nat → List Char → List Char
  | 0, key => key
  | turns + 1, key =>
      match suffixes.find? fun suffix => (' ' :: suffix.toList).isSuffixOf key with
      | none => key
      | some suffix =>
          dropSuffixes suffixes turns (Web.strip (key.take (key.length - (suffix.length + 1))))

/-- `_service_key`. -/
def serviceKey (value countryCode : String) (region : Option String) : String :=
  let key := words lib value
  .ofList (dropSuffixes (serviceSuffixes lib countryCode region) key.length key.toList)

/-- `normalize_service_area`. -/
def normalizeServiceArea (value countryCode : String) (region : Option String) :
    NormalizedValue :=
  let key := serviceKey lib value countryCode region
  { field := .serviceArea
    originalKey := display lib value
    normalizedKey := orNone key
    version := "service_area_normalization_v1"
    countryCode
    transformations := if key ≠ words lib value then ["location_suffix_removed"] else []
    valid := key ≠ "" }

/-- The keys of the values on one side, without the empty one. -/
def serviceKeys (values : List String) (countryCode : String) (region : Option String) :
    List String :=
  sortedSet ((values.map fun value => serviceKey lib value countryCode region).filter (· ≠ ""))

/-- `compare_service_areas`. -/
def compareServiceAreas (siteValues gbpValues : List String) (countryCode : String)
    (region : Option String) : ServiceAreaComparison :=
  let site := serviceKeys lib siteValues countryCode region
  let gbp := serviceKeys lib gbpValues countryCode region
  let matched := site.filter (· ∈ gbp)
  { state := if site = gbp then .exactMatch else if matched ≠ [] then .partialMatch else .mismatch
    matched
    siteOnly := site.filter (· ∉ gbp)
    gbpOnly := gbp.filter (· ∉ site) }

end Normalization

section Validity

variable {lib : ComparisonLibrary}

/-- Values are compared exactly when both are valid. -/
theorem comparisonState_incomparable_iff {left right : NormalizedValue} {differ : Bool} :
    comparisonState left right differ = .incomparable ↔
      ¬ (left.valid = true ∧ right.valid = true) := by
  rw [comparisonState]
  cases hleft : left.valid <;> cases hright : right.valid <;> simp
  split
  · simp
  · split <;> simp

theorem compareBusinessNames_incomparable_iff {left right countryCode : String}
    {nameQuality : Bool} {city : Option String} :
    (compareBusinessNames lib left right countryCode nameQuality city).state = .incomparable ↔
      ¬ ((compareBusinessNames lib left right countryCode nameQuality city).left.valid = true ∧
        (compareBusinessNames lib left right countryCode nameQuality city).right.valid = true) :=
  comparisonState_incomparable_iff

theorem comparePhones_incomparable_iff {left right countryCode : String} :
    (comparePhones lib left right countryCode).state = .incomparable ↔
      ¬ ((comparePhones lib left right countryCode).left.valid = true ∧
        (comparePhones lib left right countryCode).right.valid = true) :=
  comparisonState_incomparable_iff

theorem compareAddresses_incomparable_iff {left right : AddressValue} {countryCode : String} :
    (compareAddresses lib left right countryCode).state = .incomparable ↔
      ¬ ((compareAddresses lib left right countryCode).left.valid = true ∧
        (compareAddresses lib left right countryCode).right.valid = true) := by
  rw [compareAddresses]
  by_cases hvalid : (normalizeAddress lib left countryCode).valid = true ∧
      (normalizeAddress lib right countryCode).valid = true
  · have hboth : (!(normalizeAddress lib left countryCode).valid ||
        !(normalizeAddress lib right countryCode).valid) = false := by
      simp [hvalid.1, hvalid.2]
    simp only [hboth, Bool.false_eq_true, ↓reduceIte]
    exact comparisonState_incomparable_iff
  · have hone : (!(normalizeAddress lib left countryCode).valid ||
        !(normalizeAddress lib right countryCode).valid) = true := by
      rw [← Bool.not_and, Bool.not_eq_true', Bool.eq_false_iff, ne_eq, Bool.and_eq_true]
      exact hvalid
    simp only [hone, ↓reduceIte, true_iff]
    exact hvalid

/-- The key of a service area is valid exactly when it is not empty. -/
theorem normalizeServiceArea_valid_iff {value countryCode : String} {region : Option String} :
    (normalizeServiceArea lib value countryCode region).valid = true ↔
      serviceKey lib value countryCode region ≠ "" := by
  simp [normalizeServiceArea]

theorem mem_serviceKeys {values : List String} {countryCode : String} {region : Option String}
    {key : String} :
    key ∈ serviceKeys lib values countryCode region ↔
      key ≠ "" ∧ ∃ value ∈ values, serviceKey lib value countryCode region = key := by
  rw [serviceKeys, mem_sortedSet, List.mem_filter, List.mem_map, decide_eq_true_eq]
  exact and_comm

end Validity

end SearchTrust.Alignment
