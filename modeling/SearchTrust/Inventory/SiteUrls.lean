/-
The scope of a site, and the URLs of its pages and of its support resources in their
canonical form.
-/
import Mathlib.Data.Char
import Mathlib.Data.List.Lex
import Mathlib.Data.Prod.Lex
import SearchTrust.Order.Sorting
import SearchTrust.Web.QueryText
import SearchTrust.Web.Urls

namespace SearchTrust.Inventory

open SearchTrust.Order
open SearchTrust.Web

/-- The libraries of the URL checks, with the decoding of query bytes. -/
structure UrlLibraries extends Libraries where
  /-- `bytes.decode("utf-8", "replace")`. -/
  decodeUtf8 : List UInt8 → Text

section Tables

/-- `_TRACKING_QUERY_PREFIXES`. -/
def trackingQueryPrefixes : List Text := [text "utm_"]

/-- `_TRACKING_QUERY_KEYS`. -/
def trackingQueryKeys : List Text :=
  ["fbclid", "gclid", "gbraid", "mc_cid", "mc_eid", "msclkid", "ref", "source", "wbraid"].map text

/-- `_REJECTED_QUERY_KEYS`. -/
def rejectedQueryKeys : List Text :=
  ["filter", "facet", "order", "page", "paged", "q", "query", "s", "search", "session",
    "sessionid", "sid", "sort"].map text

/-- `_REJECTED_PATH_SEGMENTS`. -/
def rejectedPathSegments : List Text :=
  ["account", "admin", "cart", "checkout", "delete", "login", "logout", "my-account",
    "register", "search", "signin", "signup", "wp-admin"].map text

/-- The segments of the second check of a path. -/
def destructiveSegments : List Text := ["remove", "destroy", "unsubscribe"].map text

/-- `_STATIC_EXTENSIONS`. -/
def staticExtensions : List Text :=
  [".7z", ".avi", ".bmp", ".css", ".csv", ".doc", ".docx", ".eot", ".exe", ".gif", ".gz", ".ico",
    ".jpeg", ".jpg", ".js", ".json", ".m4a", ".mov", ".mp3", ".mp4", ".ogg", ".pdf", ".png",
    ".ppt", ".pptx", ".rar", ".rss", ".svg", ".tar", ".tif", ".tiff", ".ttf", ".txt", ".wav",
    ".webm", ".webp", ".woff", ".woff2", ".xls", ".xlsx", ".xml", ".zip"].map text

/-- `_DEFAULT_DOCUMENTS`. -/
def defaultDocuments : List Text :=
  ["index.htm", "index.html", "index.php", "default.htm", "default.html"].map text

end Tables

/-- `SiteScope`. -/
structure SiteScope where
  rootUrl : Text
  scheme : Text
  canonicalHost : Text
  allowedHosts : List Text

section Scopes

variable (lib : UrlLibraries)

/-- `SiteScope.from_root`. -/
def SiteScope.fromRoot (rootUrl : Text) : Except FetchException SiteScope := do
  let normalized ← normalizeSiteUrl lib.toLibraries rootUrl
  match urlsplit lib.unicode lib.ip normalized with
  | none => throw .valueError
  | some parsed =>
      let host := parsed.hostname lib.unicode
      return {
        rootUrl := normalized
        scheme := parsed.scheme
        canonicalHost := host
        allowedHosts := host ::
          if (lib.ip.ipAddress host).isSome then []
          else if (text "www.").isPrefixOf host then [host.drop 4]
          else [text "www." ++ host] }

/-- `contains_host`. -/
def SiteScope.containsHost (scope : SiteScope) (hostname : Text) : Bool :=
  (lib.unicode.idna (rstripDots (strip hostname))).any fun encoded =>
    encoded.map Char.toLower ∈ scope.allowedHosts

end Scopes

section Paths

/-- `"/".join(segments)`. -/
def joinSlash (segments : List Text) : Text := ['/'].intercalate segments

/-- `re.sub(r"/{2,}", "/", path)`. -/
def collapseSlashes : Text → Text
  | '/' :: '/' :: rest => collapseSlashes ('/' :: rest)
  | c :: rest => c :: collapseSlashes rest
  | [] => []

/-- The components of `posixpath.normpath`, the last one first. -/
def normComponents (rooted : Bool) : List Text → List Text → List Text
  | [], done => done
  | comp :: rest, done =>
      if comp = [] ∨ comp = ['.'] then normComponents rooted rest done
      else if comp ≠ ['.', '.'] ∨ (!rooted && done.isEmpty) ∨ done.head? = some ['.', '.'] then
        normComponents rooted rest (comp :: done)
      else normComponents rooted rest done.tail

/-- `posixpath.normpath`. -/
def normpath (path : Text) : Text :=
  if path = [] then ['.']
  else
    let slashes := if ! ['/'].isPrefixOf path then 0
      else if ['/', '/'].isPrefixOf path && ! ['/', '/', '/'].isPrefixOf path then 2 else 1
    let comps := (normComponents (slashes ≠ 0) (path.splitOn '/') []).reverse
    let normal := List.replicate slashes '/' ++ joinSlash comps
    if normal = [] then ['.'] else normal

/-- `text.rstrip("/")`. -/
def rstripSlashes (s : Text) : Text := s.rdropWhile (· = '/')

variable (u : UnicodeTables)

/-- The path without a default document at its end. -/
def dropDefaultDocument (path : Text) : Text :=
  let segments := (rstripSlashes path).splitOn '/'
  if (segments.getLast?.map u.casefold).any (· ∈ defaultDocuments) then
    let rest := joinSlash segments.dropLast
    if rest = [] then ['/'] else rest
  else path

/-- `_normalized_path`. -/
def normalizedPath (path : Text) : Text :=
  let normal := normpath (collapseSlashes (if path = [] then ['/'] else path))
  let normal := if ['/'].isPrefixOf normal then normal else '/' :: normal
  let normal := if normal = ['/', '.'] then ['/'] else normal
  let normal := dropDefaultDocument u normal
  if normal = ['/'] then normal else rstripSlashes normal

/-- The folded segments of a path. -/
def foldedSegments (path : Text) : List Text :=
  ((path.splitOn '/').filter (· ≠ [])).map u.casefold

/-- `_path_is_excluded`. -/
def pathIsExcluded (path : Text) : Bool :=
  let segments := foldedSegments u path
  segments.any (· ∈ rejectedPathSegments) || segments.any (· ∈ destructiveSegments) ||
    staticExtensions.any (·.isSuffixOf (segments.getLast?.getD []))

end Paths

section Canonical

variable (lib : UrlLibraries) (scope : SiteScope)

/-- The URL that a text means, if the scope may hold it. -/
def scopedUrl (value : Text) (baseUrl : Option Text) : Option SplitResult :=
  let raw := strip value
  if raw = [] then none
  else
    match (lib.urljoin ((baseUrl.filter (· ≠ [])).getD scope.rootUrl) raw).bind
        (urlsplit lib.unicode lib.ip) with
    | none => none
    | some parsed =>
        if lib.unicode.casefold parsed.scheme ∉ [text "http", text "https"] then none
        else if parsed.hasUserinfo then none
        else if !scope.containsHost lib (rstripDots (strip (parsed.hostname lib.unicode))) then none
        else
          match parsed.port with
          | none => none
          | some port =>
              if port.any (· ∉ allowedPorts) then none else some parsed

/-- What becomes of a query item: `none` rejects the URL, and `some none` drops it. -/
def queryItem (item : Text × Text) : Option (Option (Text × Text)) :=
  let key := strip item.1
  let lowered := lib.unicode.casefold key
  if lowered ∈ rejectedQueryKeys then none
  else if lowered ∈ trackingQueryKeys ∨ trackingQueryPrefixes.any (·.isPrefixOf lowered) then
    some none
  else some (some (key, item.2))

/-- The key by which query items are sorted. -/
def queryKey (item : Text × Text) : Text ×ₗ Text := toLex (lib.unicode.casefold item.1, item.2)

/-- The query items that are kept, in their order. -/
def queryItems (query : Text) : Option (List (Text × Text)) :=
  ((parseQsl lib.decodeUtf8 query).mapM (queryItem lib)).map fun items =>
    sortedBy (queryKey lib) items.reduceOption

/-- `canonicalize_inventory_url`. -/
def canonicalizeInventoryUrl (value : Text) (baseUrl : Option Text) : Option Text :=
  match scopedUrl lib scope value baseUrl with
  | none => none
  | some parsed =>
      let path := normalizedPath lib.unicode parsed.path
      if pathIsExcluded lib.unicode path then none
      else (queryItems lib parsed.query).map fun items =>
        urlunsplit scope.scheme scope.canonicalHost path (urlencode items)

/-- `canonicalize_site_resource_url`. -/
def canonicalizeSiteResourceUrl (value : Text) (baseUrl : Option Text) : Option Text :=
  (scopedUrl lib scope value baseUrl).map fun parsed =>
    urlunsplit scope.scheme scope.canonicalHost (normalizedPath lib.unicode parsed.path)
      parsed.query

/-- `is_admin_page`. -/
def isAdminPage (url : Option Text) : Bool :=
  match url with
  | none => false
  | some url =>
      if url = [] then false
      else
        match urlsplit lib.unicode lib.ip url with
        | none => false
        | some parts =>
            (((lib.unicode.casefold (unquote lib.decodeUtf8 parts.path)).splitOn '/').any fun s =>
                s ∈ [text "wp-login.php", text "wp-admin"]) ||
              (parseQsl lib.decodeUtf8 parts.query).any fun item =>
                lib.unicode.casefold item.1 = text "action"

end Canonical

end SearchTrust.Inventory
