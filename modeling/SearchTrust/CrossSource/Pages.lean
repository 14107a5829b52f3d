/-
The identity of a page in the first-party sources: a URL of the search console and a
landing path of the analytics are rewritten to one URL of the host of the case.
-/
import Mathlib.Data.Char
import Mathlib.Data.List.Lex
import Mathlib.Data.Prod.Lex
import SearchTrust.Order.Sorting
import SearchTrust.Web.Escapes

namespace SearchTrust.CrossSource

open SearchTrust.Order
open SearchTrust.Web

/-- The libraries of the page identity. -/
structure PageLibrary where
  unicode : UnicodeTables
  ip : IpLibrary
  /-- `bytes.decode("utf-8")`; `none` is a `UnicodeDecodeError`. -/
  decode : List UInt8 → Option Text
  lower_ascii : ∀ s : Text, (∀ c ∈ s, isAscii c = true) → unicode.lower s = s.map Char.toLower
  decode_ascii : DecodesAscii decode

variable (lib : PageLibrary)

section Parts

/-- `_host`. -/
def hostOf (value : Text) : Text :=
  let host := lib.unicode.lower (rstripDots value)
  if (text "www.").isPrefixOf host then host.drop 4 else host

/-- `_CONTROL`, of one character. -/
def isControl (c : Char) : Bool := c.toNat ≤ 0x1F || c.toNat = 0x7F

/-- `_BAD_PERCENT.search(value)`. -/
def badPercent : Text → Bool
  | [] => false
  | c :: rest =>
      (c = '%' && ! (rest.length ≥ 2 && (rest.take 2).all isHex)) || badPercent rest

/-- The three guards of a path and of a query. -/
def unfit (value : Text) : Bool := badPercent value || value.any isControl || '\\' ∈ value

/-- What replaces an escape. -/
def replaceEscape : Piece → Text
  | .plain c => [c]
  | .escape a b =>
      let char := Char.ofNat (Piece.code a b)
      if isAlwaysSafe char then [char] else ['%', a.toUpper, b.toUpper]

/-- `_decode_unreserved`. -/
def decodeUnreserved (value : Text) : Text := (pieces value).flatMap replaceEscape

/-- An item of a query: its key, its value, and whether it has an equals sign. -/
abbrev Item := Text × Text × Bool

/-- `_TRACKING`. -/
def tracking : List Text :=
  [text "gclid", text "dclid", text "fbclid", text "gbraid", text "wbraid"]

/-- The key belongs to tracking. -/
def isTracking (key : Text) : Bool :=
  let folded := lib.unicode.casefold key
  (text "utm_").isPrefixOf folded || folded ∈ tracking

/-- An item of a query, unless it belongs to tracking; `none` where its key has no text. -/
def queryItem (component : Text) : Option (Option Item) :=
  let (key, value) := partition '=' component
  match unquoteStrict lib.decode key with
  | none => none
  | some decoded =>
      if isTracking lib decoded then some none
      else some (some (decodeUnreserved key, decodeUnreserved value, decide ('=' ∈ component)))

/-- The order of the items. -/
def itemKey (item : Item) : Lex (Text × Lex (Text × Bool)) := toLex (item.1, toLex (item.2.1, item.2.2))

def itemText (item : Item) : Text :=
  if item.2.2 then item.1 ++ '=' :: item.2.1 else item.1

/-- `_query`. -/
def queryOf (value : Text) : Option Text :=
  if unfit value then none
  else if value = [] then some []
  else ((value.splitOn '&').mapM (queryItem lib)).map fun items =>
    ['&'].intercalate ((sortedBy itemKey items.reduceOption).map itemText)

/-- `_path`. -/
def pathOf (value : Text) : Option Text :=
  if value.head? ≠ some '/' ∨ unfit value then none
  else
    let normalized := decodeUnreserved value
    if (normalized.splitOn '/').any fun segment => segment = ['.'] || segment = ['.', '.'] then
      none
    else if normalized ≠ ['/'] then
      let stripped := normalized.rdropWhile (· = '/')
      some (if stripped = [] then ['/'] else stripped)
    else some normalized

end Parts

section Pages

/-- `parsed.username or parsed.password`. -/
def hasCredentials (parsed : SplitResult) : Bool :=
  let userinfo := (parsed.netloc.rdropWhile (· ≠ '@')).dropLast
  '@' ∈ parsed.netloc && ((partition ':' userinfo).1 ≠ [] || (partition ':' userinfo).2 ≠ [])

/-- The URL of a page of the case. -/
def pageUrl (domain path query : Text) : Text :=
  urlunsplit (text "https") (hostOf lib domain) path query

/-- `normalize_gsc_page`. -/
def normalizeGscPage (value domain : Text) : Option Text :=
  if 4096 < value.length ∨ value.any isControl ∨ '\\' ∈ value then none
  else
    match urlsplit lib.unicode lib.ip value with
    | none => none
    | some parsed =>
        match parsed.port with
        | none => none
        | some port =>
            let hostname := parsed.hostname lib.unicode
            let defaultPort := (parsed.scheme = text "http" && port = some 80) ||
              (parsed.scheme = text "https" && port = some 443)
            if (parsed.scheme ≠ text "http" ∧ parsed.scheme ≠ text "https") ∨ hostname = [] ∨
                hasCredentials parsed then none
            else if hostOf lib hostname ≠ hostOf lib domain ∨ (port ≠ none ∧ ! defaultPort) then none
            else
              (pathOf (if parsed.path = [] then ['/'] else parsed.path)).bind fun path =>
                (queryOf lib parsed.query).map fun query => pageUrl lib domain path query

/-- `normalize_ga4_page`. -/
def normalizeGa4Page (value domain : Text) : Option Text :=
  if 4096 < value.length ∨ value = text "(not set)" then none
  else
    match urlsplit lib.unicode lib.ip value with
    | none => none
    | some parsed =>
        if parsed.scheme ≠ [] ∨ parsed.netloc ≠ [] then none
        else (pathOf parsed.path).bind fun path =>
          (queryOf lib parsed.query).map fun query => pageUrl lib domain path query

end Pages

end SearchTrust.CrossSource
