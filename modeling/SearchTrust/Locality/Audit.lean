/-
The places that a saved search result names: in a parameter and the segments of its URL and
in three texts.  A signal keeps the field and the fragment in which a place is named.  The
coordinates of the request name no place.
-/
import SearchTrust.Hours.Week
import SearchTrust.Order.Grouping
import SearchTrust.Order.Sorting
import SearchTrust.Web.QueryText
import Mathlib.Data.Char
import Mathlib.Data.List.Lex
import Mathlib.Data.Prod.Lex
import Mathlib.Data.Rat.Defs

namespace SearchTrust.Locality

open SearchTrust.Text
open SearchTrust.Hours (TextLibrary anyCase inClass letters)
open SearchTrust.Web (Text SplitResult UnicodeTables IpLibrary urlsplit parseQsl unquote)

section Texts

/-- The URL parser and the tables that the patterns of this module read. -/
structure LocalityLibrary extends TextLibrary where
  tables : UnicodeTables
  ip : IpLibrary
  decodeUtf8 : List UInt8 → Text

/-- A saved URL: the URL of a web page that `urlsplit` takes apart. -/
structure SavedUrl (lib : LocalityLibrary) where
  text : Text
  parts : SplitResult
  split : urlsplit lib.tables lib.ip text = some parts
  web : parts.scheme = "http".toList ∨ parts.scheme = "https".toList

/-- `_US_REGIONS`. -/
def usRegions : List (Text × Text) :=
  [("alabama", "al"), ("alaska", "ak"), ("arizona", "az"), ("arkansas", "ar"),
    ("california", "ca"), ("colorado", "co"), ("connecticut", "ct"), ("delaware", "de"),
    ("florida", "fl"), ("georgia", "ga"), ("hawaii", "hi"), ("idaho", "id"),
    ("illinois", "il"), ("indiana", "in"), ("iowa", "ia"), ("kansas", "ks"),
    ("kentucky", "ky"), ("louisiana", "la"), ("maine", "me"), ("maryland", "md"),
    ("massachusetts", "ma"), ("michigan", "mi"), ("minnesota", "mn"), ("mississippi", "ms"),
    ("missouri", "mo"), ("montana", "mt"), ("nebraska", "ne"), ("nevada", "nv"),
    ("new hampshire", "nh"), ("new jersey", "nj"), ("new mexico", "nm"), ("new york", "ny"),
    ("north carolina", "nc"), ("north dakota", "nd"), ("ohio", "oh"), ("oklahoma", "ok"),
    ("oregon", "or"), ("pennsylvania", "pa"), ("rhode island", "ri"), ("south carolina", "sc"),
    ("south dakota", "sd"), ("tennessee", "tn"), ("texas", "tx"), ("utah", "ut"),
    ("vermont", "vt"), ("virginia", "va"), ("washington", "wa"), ("west virginia", "wv"),
    ("wisconsin", "wi"), ("wyoming", "wy"), ("district of columbia", "dc")].map fun region =>
      (region.1.toList, region.2.toList)

/-- `_US_REGIONS.get(name)`. -/
def regionCode (name : Text) : Option Text :=
  (usRegions.find? fun region => region.1 = name).map Prod.snd

/-- `code in _US_REGIONS.values()`. -/
def isRegionCode (code : Text) : Bool := usRegions.any fun region => region.2 = code

variable (lib : LocalityLibrary)

/-- The longest runs of characters of a class. -/
def runs (accepts : Char → Bool) (text : Text) : List Text :=
  (text.splitOnP fun c => ! accepts c).filter (· ≠ [])

/-- `re.findall(r"[^\W_]+", ...)` of the folded text. -/
def wordList (value : Text) : List Text :=
  runs (fun c => lib.isWord c && c ≠ '_') (lib.casefold (lib.nfkc value))

def words (value : Text) : Text := [' '].intercalate (wordList lib value)

/-- `text.split()`. -/
def tokens (value : Text) : List Text := runs (! lib.isSpace ·) value

def isUpper (c : Char) : Bool := 'A' ≤ c && c ≤ 'Z'

def isLower (c : Char) : Bool := 'a' ≤ c && c ≤ 'z'

/-- `[A-Za-z]`. -/
def isLetter (c : Char) : Bool := isUpper c || isLower c

/-- `str.lower` of ASCII letters. -/
def lowered (value : Text) : Text := value.map Char.toLower

end Texts

section Records

/-- What the audit reads of the target market. -/
structure TargetMarket where
  countryCode : Text
  region : Option Text
  city : Option Text

/-- What the audit reads of a saved result. -/
structure ResultRecord (lib : LocalityLibrary) where
  query : Text
  position : ℕ
  displayName : Text
  url : Option (SavedUrl lib)
  address : Option Text
  snippet : Option Text

/-- The field that names a place. -/
inductive SignalField where
  | url | address | displayName | snippet
deriving DecidableEq

structure Signal where
  field : SignalField
  fragment : Text
  city : Option Text
  region : Option Text
  uncertain : Bool
deriving DecidableEq

variable (lib : LocalityLibrary)

/-- `\b(county|region|area)\b`. -/
def vaguePlace : Pattern :=
  Hours.words lib.toTextLibrary [Hours.exact "county", Hours.exact "region", Hours.exact "area"]

/-- `add`: what names neither a place nor a region is no signal. -/
def add (field : SignalField) (fragment place : Text) (state : Option Text) : List Signal :=
  let place := words lib place
  if place = [] ∧ state = none then []
  else
    [⟨field, fragment, if place = [] then none else some place, state,
      occurs (vaguePlace lib) place⟩]

/-- `query_terms`. -/
def queryTerms (query : Text) : List Text :=
  tokens lib (words lib query) ++
    ["best".toList, "top".toList, "hour".toList, "services".toList, "service".toList]

/-- `[·;:|]|\b(?:in|near|serving|serves)\s+`, whatever the case. -/
def placeLead : Pattern :=
  alt (one fun c => "·;:|".toList.contains c)
    (inOrder [boundary lib.isWord,
      anyOf [anyCase lib.toTextLibrary "in", anyCase lib.toTextLibrary "near",
        anyCase lib.toTextLibrary "serving", anyCase lib.toTextLibrary "serves"],
      several lib.isSpace])

/-- `clean_place`. -/
def cleanPlace (query raw : Text) : Text :=
  let names := tokens lib (words lib (lastPiece (placeLead lib) raw))
  [' '].intercalate (names.dropWhile fun token =>
    (queryTerms lib query).contains token || token.all lib.tables.isDigit)

end Records

section UrlSignals

variable (lib : LocalityLibrary)

/-- `(.+?),\s*([A-Za-z]{2})(?:\s+\d[\d -]*)?`. -/
def locationValue : Pattern :=
  inOrder [group 1 (seq (one (· ≠ '\n')) (fewest (· ≠ '\n'))), one (· = ','),
    many lib.isSpace, group 2 (exactly 2 (one isLetter)),
    maybe (inOrder [several lib.isSpace, one (Hours.isDigit lib.toTextLibrary),
      many fun c => Hours.isDigit lib.toTextLibrary c || c = ' ' || c = '-'])]

/-- The places of the location parameters. -/
def parameterSignals (parts : SplitResult) : List Signal :=
  (parseQsl lib.decodeUtf8 parts.query).flatMap fun (key, value) =>
    if lib.casefold key = "find_loc".toList then
      match fullMatch (locationValue lib) value with
      | some found =>
          if isRegionCode (lowered (found.text 2)) then
            add lib .url value (found.text 1) (some (lowered (found.text 2)))
          else []
      | none => []
    else []

/-- `text.strip("/")`. -/
def stripSlashes (text : Text) : Text := (text.dropWhile (· = '/')).rdropWhile (· = '/')

/-- The segments of a path. -/
def segments (parts : SplitResult) : List Text :=
  ((stripSlashes parts.path).splitOn '/').map (unquote lib.decodeUtf8)

/-- `"/".join(parts[start:stop])`. -/
def joined (parts : List Text) (start stop : ℕ) : Text :=
  ['/'].intercalate ((parts.drop start).take (stop - start))

/-- The place that a segment names with those beside it. -/
def segmentSignal (parts : List Text) (i : ℕ) (part : Text) : List Signal :=
  let code := regionCode (words lib part)
  let before := if i = 0 then none else parts[i - 1]?
  if before = some "united-states".toList ∧ code.isSome then
    add lib .url (joined parts (i - 1) (i + 1)) [] code
  else if before = some "near-me".toList ∧ code.isSome ∧ i + 1 < parts.length then
    add lib .url (joined parts (i - 1) (i + 2)) (parts.getD (i + 1) []) code
  else if isRegionCode (lib.casefold part) ∧ i + 1 + 1 = parts.length then
    add lib .url (joined parts i parts.length) (parts.getD (i + 1) [])
      (some (lib.casefold part))
  else []

/-- The places of the segments of a path. -/
def pathSignals (parts : List Text) : List Signal :=
  parts.zipIdx.flatMap fun (part, i) => segmentSignal lib parts i part

end UrlSignals

section TextSignals

variable (lib : LocalityLibrary)

/-- `(?<!\w)...(?!\w)`. -/
def wholeMention (city : Text) : Pattern :=
  inOrder [notAfter lib.isWord, inOrder (city.map fun c => one (· = c)), notBefore lib.isWord]

/-- `([A-Za-z][A-Za-z .'’-]*?),\s*([A-Z]{2})(?=\s|[.,;]|$)`. -/
def cityAndState : Pattern :=
  group 0 (inOrder [
    group 1 (seq (one isLetter) (fewest fun c => isLetter c || " .'’-".toList.contains c)),
    one (· = ','), many lib.isSpace, group 2 (exactly 2 (one isUpper)),
    followedBy (anyOf [one lib.isSpace, one fun c => ".,;".toList.contains c, atEnd])])

/-- `([A-Z][a-z]+(?:\s+[A-Z][a-z]+){0,3})\s+([A-Z]{2})\s`. -/
def titlePlace : Pattern :=
  group 0 (inOrder [
    group 1 (inOrder [one isUpper, several isLower,
      upTo 3 (inOrder [several lib.isSpace, one isUpper, several isLower])]),
    several lib.isSpace, group 2 (exactly 2 (one isUpper)), one lib.isSpace])

/-- `\bin\s+(name),\s*United States\b`, whatever the case. -/
def inNamedState (name : Text) : Pattern :=
  group 0 (inOrder [boundary lib.isWord, anyCase lib.toTextLibrary "in", several lib.isSpace,
    inOrder (name.map fun c => one (lib.sameCase c)), one (· = ','), many lib.isSpace,
    anyCase lib.toTextLibrary "United States", boundary lib.isWord])

/-- `([A-Za-z .'-]+)\s+(name)`, whatever the case. -/
def endsInNamedState (name : Text) : Pattern :=
  group 0 (inOrder [
    group 1 (several fun c => inClass lib.toTextLibrary letters c || " .'-".toList.contains c),
    several lib.isSpace, inOrder (name.map fun c => one (lib.sameCase c))])

/-- `[A-Z][a-z]+(?:\s+[A-Z][a-z]+)*`. -/
def properName : Pattern :=
  inOrder [one isUpper, several isLower,
    repeated (inOrder [several lib.isSpace, one isUpper, several isLower])]

/-- `\b(?:based in|...|near)\s+(name)(?=,|\s+(?:but|and|serving)|[.;·]|$)`. -/
def unqualifiedPlace : Pattern :=
  group 0 (inOrder [boundary lib.isWord,
    anyOf [Hours.exact "based in", Hours.exact "located in", Hours.exact "serving",
      Hours.exact "serves", Hours.exact "in", Hours.exact "near"],
    several lib.isSpace, group 1 (properName lib),
    followedBy (anyOf [one (· = ','),
      inOrder [several lib.isSpace,
        anyOf [Hours.exact "but", Hours.exact "and", Hours.exact "serving"]],
      one fun c => ".;·".toList.contains c, atEnd])])

/-- The target city, where a text mentions it. -/
def mentionSignals (market : TargetMarket) (field : SignalField) (text : Text) : List Signal :=
  let city := words lib (market.city.getD [])
  if city ≠ [] ∧ occurs (wholeMention lib city) (words lib text) then
    add lib field (market.city.getD []) city none
  else []

/-- The cities that a text names with the code of a state. -/
def stateSignals (query : Text) (field : SignalField) (text : Text) : List Signal :=
  (finditer (cityAndState lib) text).flatMap fun found =>
    if isRegionCode (lowered (found.text 2)) then
      add lib field (found.text 0) (cleanPlace lib query (found.text 1))
        (some (lowered (found.text 2)))
    else []

/-- The place at the start of a title, and the states that it names in full. -/
def titleSignals (query text : Text) : List Signal :=
  (match matchStart (titlePlace lib) text with
    | some found =>
        if isRegionCode (lowered (found.text 2)) then
          add lib .displayName (found.text 0) (found.text 1) (some (lowered (found.text 2)))
        else []
    | none => []) ++
  usRegions.flatMap fun (name, code) =>
    ((search (inNamedState lib name) text).toList.flatMap fun found =>
      add lib .displayName (found.text 0) [] (some code)) ++
    ((fullMatch (endsInNamedState lib name) text).toList.flatMap fun found =>
      add lib .displayName (found.text 0) (cleanPlace lib query (found.text 1)) (some code))

/-- A place without a state; what the same field names as a whole state is no second city. -/
def unqualifiedSignals (field : SignalField) (text : Text) (signals : List Signal) :
    List Signal :=
  (finditer (unqualifiedPlace lib) text).foldl (fun signals found =>
    let code := regionCode (words lib (found.text 1))
    if code.isSome ∧ signals.any fun s => s.field = field ∧ s.city = none ∧ s.region = code then
      signals
    else signals ++ add lib field (found.text 0) (found.text 1) none) signals

/-- The signals with those of one text. -/
def readText (market : TargetMarket) (query : Text) (signals : List Signal)
    (item : SignalField × Text) : List Signal :=
  let (field, text) := item
  let signals := signals ++ mentionSignals lib market field text
  if market.countryCode ≠ "US".toList then signals
  else
    let signals := signals ++ stateSignals lib query field text
    let signals := if field = .displayName then signals ++ titleSignals lib query text else signals
    unqualifiedSignals lib field text signals

/-- The signals of a record. -/
def signalsOf (market : TargetMarket) (record : ResultRecord lib) : List Signal :=
  let fromUrl := match record.url with
    | some url =>
        parameterSignals lib url.parts ++
          if market.countryCode = "US".toList then pathSignals lib (segments lib url.parts) else []
    | none => []
  [(SignalField.address, record.address.getD []), (.displayName, record.displayName),
    (.snippet, record.snippet.getD [])].foldl (readText lib market record.query) fromUrl

end TextSignals

end SearchTrust.Locality

/-
Where the records of a search sample lie, and the audit of a sample: every canonical URL has
one vote, and a record without a URL has one that decides nothing.
-/
namespace SearchTrust.Locality

open SearchTrust.Order
open SearchTrust.Web (Text SplitResult parseQsl urlencode urlunsplit)

section Classification

variable (lib : LocalityLibrary)

inductive LocalityState where
  | nonLocal | isLocal | unknown
deriving DecidableEq

/-- The region of the target market, by its code where it has one. -/
def targetRegion (market : TargetMarket) : Text :=
  let region := words lib (market.region.getD [])
  (regionCode region).getD region

/-- The city of the target market. -/
def targetCity (market : TargetMarket) : Text := words lib (market.city.getD [])

/-- `normalized`: each city with the regions that are stated for it. -/
def normalizedPlaces (signals : List Signal) : List (Option Text × Option Text) :=
  ((grouped Signal.city signals).flatMap fun (place, members) =>
    let explicit := members.filterMap Signal.region
    if explicit = [] then [(place, none)] else explicit.map fun state => (place, some state)).dedup

/-- Whether a text is there and not empty. -/
def Given (value : Option Text) : Prop := ∃ text, value = some text ∧ text ≠ []

instance givenDecidable (value : Option Text) : Decidable (Given value) :=
  decidable_of_iff (value ≠ none ∧ value ≠ some []) (by
    cases value with
    | none => simp [Given]
    | some text => simp [Given])

/-- The state of a record, with the reason. -/
def classifySignals (city region : Text) (signals : List Signal) : LocalityState × String :=
  match normalizedPlaces signals with
  | [] => (.unknown, "no_unambiguous_location")
  | (place, observed) :: more =>
      if signals.any Signal.uncertain then (.unknown, "no_unambiguous_location")
      else if more ≠ [] then
        if region ≠ [] ∧ ∀ p ∈ (place, observed) :: more, p.2 ≠ none ∧ p.2 ≠ some region then
          (.nonLocal, "all_locations_explicitly_outside_region")
        else (.unknown, "multiple_locations_not_all_outside_region")
      else if Given observed ∧ region ≠ [] ∧ observed ≠ some region then
        (.nonLocal, "different_region")
      else if place = some city ∧ city ≠ [] then (.isLocal, "target_city")
      else if Given place ∧ Given observed ∧ observed = some region then
        (.nonLocal, "different_city")
      else (.unknown, "insufficient_location")

/-- A classified record. -/
structure Classified where
  state : LocalityState
  reason : String
  signals : List Signal

def classifyRecord (market : TargetMarket) (record : ResultRecord lib) : Classified :=
  let signals := signalsOf lib market record
  let (state, reason) := classifySignals (targetCity lib market) (targetRegion lib market) signals
  ⟨state, reason, signals⟩

end Classification

section Sample

variable (lib : LocalityLibrary)

/-- `canonical_url`. -/
def canonicalUrl (url : SavedUrl lib) : Text :=
  let items := parseQsl lib.decodeUtf8 url.parts.query
  urlunsplit (lowered url.parts.scheme) (lib.lower url.parts.netloc)
    (if url.parts.path = [] then ['/'] else url.parts.path)
    (urlencode (sortedBy toLex items))

/-- A row of the audit before the votes. -/
structure AuditRow where
  index : ℕ
  position : ℕ
  url : Option (SavedUrl lib)
  state : LocalityState
  reason : String
  signals : List Signal

/-- The row of a record; without a URL it stays unknown. -/
def auditRow (market : TargetMarket) (record : ResultRecord lib) (index : ℕ) : AuditRow lib :=
  let found := classifyRecord lib market record
  if record.url.isSome then
    ⟨index, record.position, record.url, found.state, found.reason, found.signals⟩
  else ⟨index, record.position, none, .unknown, "url_missing", found.signals⟩

/-- The key of the group of a row. -/
def rowKey (row : AuditRow lib) : Text :=
  match row.url with
  | some url => canonicalUrl lib url
  | none => "missing:".toList ++ Nat.toDigits 10 row.index

/-- The places of a row, without the fragments that name them. -/
def placesOf (signals : List Signal) : List (Text ×ₗ Text) :=
  sortedSet (signals.map fun s => toLex (s.city.getD [], s.region.getD []))

/-- The one state of statements that agree in their places too; others decide nothing. -/
def agreedState {π : Type*} [DecidableEq π] (claims : List (LocalityState × π)) :
    LocalityState :=
  match (claims.map Prod.fst).dedup, (claims.map Prod.snd).dedup with
  | [state], [_] => state
  | _, _ => .unknown

/-- What a row states. -/
def rowClaim (row : AuditRow lib) : LocalityState × List (Text ×ₗ Text) :=
  (row.state, placesOf row.signals)

/-- The vote of a group. -/
def groupVote (group : List (AuditRow lib)) : LocalityState :=
  agreedState (group.map (rowClaim lib))

structure SampleAudit where
  n : ℕ
  o : ℕ
  l : ℕ
  unknown : ℤ
  nonLocalMajority : Bool
  /-- The rows, each with the vote of its group. -/
  rows : List (AuditRow lib × LocalityState)

/-- The rows of a sample, in its order. -/
def auditRows (market : TargetMarket) (records : List (ResultRecord lib)) : List (AuditRow lib) :=
  records.zipIdx.map fun (record, index) => auditRow lib market record index

/-- The vote of the group in which a row lies. -/
def rowVote (groups : List (Text × List (AuditRow lib))) (row : AuditRow lib) : LocalityState :=
  ((groups.find? fun group => group.1 = rowKey lib row).map fun group =>
    groupVote lib group.2).getD .unknown

/-- `audit_sample`. -/
def auditSample (market : TargetMarket) (records : List (ResultRecord lib)) : SampleAudit lib :=
  let rows := auditRows lib market records
  let groups := grouped (rowKey lib) rows
  let votes := groups.map fun group => groupVote lib group.2
  let n := votes.length
  let o := votes.count .nonLocal
  let l := votes.count .isLocal
  ⟨n, o, l, (n : ℤ) - o - l, 3 ≤ n && decide ((n : ℚ) / 2 < o),
    rows.map fun row => (row, rowVote lib groups row)⟩

end Sample

end SearchTrust.Locality
