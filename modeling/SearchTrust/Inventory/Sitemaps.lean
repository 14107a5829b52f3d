/-
Sitemap documents, and the search through the sitemap files of a site: breadth first, each
file once, within limits on the files, on the depth and on the pages.
-/
import SearchTrust.Inventory.SiteUrls
import SearchTrust.Order.BreadthFirst
import SearchTrust.Web.Fetchers

namespace SearchTrust.Inventory

open SearchTrust.Order
open SearchTrust.Web (Text text FetchException SiteFetchResponse siteError utf8)

section Documents

/-- An element of an XML document. -/
structure XmlElement where
  tag : Text
  text : Option Text

/-- An XML document: its root, and the other elements in their order. -/
structure XmlDocument where
  root : XmlElement
  others : List XmlElement

/-- What a library of the parser can raise. -/
inductive LibraryError where
  /-- The exceptions that its caller catches: `EOFError` and `OSError` of the decompression,
  `ParseError` of the XML parser. -/
  | invalid
  /-- Any other exception, such as `zlib.error`, or the `LookupError` of an encoding. -/
  | other
deriving DecidableEq

/-- The libraries of the sitemap parser. -/
structure SitemapLibraries extends UrlLibraries where
  /-- `GzipFile(...).read(n)`. -/
  gunzip : List UInt8 → ℕ → Except LibraryError (List UInt8)
  /-- `ET.fromstring`. -/
  fromstring : List UInt8 → Except LibraryError XmlDocument

/-- The exceptions of the sitemap search. -/
inductive SitemapException where
  | fetch (error : FetchException)
  /-- `SitemapParseError`. -/
  | parse (message : String)
  | library
deriving DecidableEq

/-- The exceptions that the search catches: `SiteFetchError`, `SitemapParseError` and
`UrlUnreachableError`. -/
def SitemapException.isCaught : SitemapException → Bool
  | fetch (.site _) => true
  | fetch (.urlUnreachable _) => true
  | parse _ => true
  | _ => false

/-- `SitemapDocument`. -/
structure SitemapDocument where
  pageUrls : List Text
  childSitemaps : List Text

variable (lib : SitemapLibraries)

/-- An exception of a library, with the message for those that are caught. -/
def libraryError (message : String) : LibraryError → SitemapException
  | .invalid => .parse message
  | .other => .library

/-- `_bounded_gzip_decompress`. -/
def boundedGzipDecompress (body : List UInt8) (maxBytes : ℕ) :
    Except SitemapException (List UInt8) := do
  let result ← (lib.gunzip body (maxBytes + 1)).mapError (libraryError "invalid gzip sitemap")
  if maxBytes < result.length then
    throw (.parse "decompressed sitemap exceeded the size limit")
  return result

/-- The bytes of a sitemap, decompressed where they are compressed. -/
def sitemapPayload (body : List UInt8) (maxBytes : ℕ) : Except SitemapException (List UInt8) :=
  if [0x1f, 0x8b].isPrefixOf body then boundedGzipDecompress lib body maxBytes else .ok body

/-- `bytes.lower()`. -/
def lowerBytes (bytes : List UInt8) : List UInt8 :=
  bytes.map fun b => if 65 ≤ b ∧ b ≤ 90 then b + 32 else b

/-- `part in bytes`. -/
def containsBytes (bytes part : List UInt8) : Bool := bytes.tails.any (part.isPrefixOf ·)

/-- `_local_name`. -/
def localName (tag : Text) : Text := lib.unicode.casefold ((tag.splitOn '}').getLast?.getD [])

/-- The different URLs that the `loc` elements of a document name. -/
def locations (document : XmlDocument) (canonicalize : Text → Option Text) : List Text :=
  ((document.root :: document.others).filterMap fun element =>
    if localName lib element.tag ≠ text "loc" then none
    else (element.text.filter (· ≠ [])).bind canonicalize).eraseDups

/-- `parse_sitemap_document`. -/
def parseSitemapDocument (scope : SiteScope) (maxDecompressedBytes maxNodes : ℕ)
    (body : List UInt8) (sourceUrl : Text) : Except SitemapException SitemapDocument := do
  let payload ← sitemapPayload lib body maxDecompressedBytes
  if maxDecompressedBytes < payload.length then
    throw (.parse "sitemap exceeded the size limit")
  let lowered := lowerBytes payload
  if containsBytes lowered (utf8 (text "<!doctype")) ||
      containsBytes lowered (utf8 (text "<!entity")) then
    throw (.parse "XML declarations with entities are not allowed")
  let document ← (lib.fromstring payload).mapError (libraryError "invalid sitemap XML")
  if maxNodes < document.others.length + 1 then
    throw (.parse "sitemap exceeded the node limit")
  let rootName := localName lib document.root.tag
  if rootName = text "urlset" then
    return ⟨locations lib document fun value =>
      canonicalizeInventoryUrl lib.toUrlLibraries scope value (some sourceUrl), []⟩
  else if rootName = text "sitemapindex" then
    return ⟨[], locations lib document fun value =>
      canonicalizeSiteResourceUrl lib.toUrlLibraries scope value (some sourceUrl)⟩
  else throw (.parse "unsupported sitemap root element")

end Documents

section Search

/-- The arguments of a search.  `fetch` is what fetching a URL comes to. -/
structure SitemapSearch where
  scope : SiteScope
  fetch : Text → Except FetchException SiteFetchResponse
  /-- `robots.allowed`. -/
  allowed : Text → Bool
  maxFiles : ℕ
  maxDepth : ℕ
  maxDecompressedBytes : ℕ
  pageLimit : ℕ

/-- The variables of the search, with the calls of `fetcher.fetch` so far. -/
structure Searching where
  queue : List (Text × ℕ)
  visited : List Text
  pages : List Text
  unavailable : Bool
  fetches : List Text

/-- A search that was stopped by an exception, with the calls of `fetcher.fetch` before it. -/
structure SearchFailure where
  error : SitemapException
  fetches : List Text

variable (lib : SitemapLibraries) (search : SitemapSearch)

/-- A sitemap file that is fetched and parsed. -/
def readSitemap (url : Text) : Except SitemapException SitemapDocument := do
  let response ← (search.fetch url).mapError .fetch
  if 400 ≤ response.statusCode then
    throw (.fetch (siteError "http_error" "The sitemap returned an HTTP error."))
  parseSitemapDocument lib search.scope search.maxDecompressedBytes 20000 response.body
    response.finalUrl

/-- The loop over the pages of a document, which stops at the limit. -/
def takePages : List Text → List Text → List Text
  | pages, [] => pages
  | pages, url :: urls =>
      if search.allowed url = true ∧ url ∉ pages then
        if search.pageLimit ≤ (pages ++ [url]).length then pages ++ [url]
        else takePages (pages ++ [url]) urls
      else takePages pages urls

/-- A sitemap URL is taken from the queue and read. -/
def visitSitemap (state : Searching) (url : Text) (depth : ℕ) (rest : List (Text × ℕ)) :
    Except SearchFailure Searching :=
  let visited := state.visited ++ [url]
  let fetches := state.fetches ++ [url]
  match readSitemap lib search url with
  | .error error =>
      if error.isCaught then .ok ⟨rest, visited, state.pages, true, fetches⟩
      else .error ⟨error, fetches⟩
  | .ok document =>
      .ok {
        queue := if depth < search.maxDepth then
            enqueue visited (depth + 1) rest document.childSitemaps
          else rest
        visited := visited
        pages := takePages search state.pages document.pageUrls
        unavailable := state.unavailable
        fetches := fetches }

/-- One turn of the loop; `none` is its end. -/
def searchStep (state : Searching) : Option (Except SearchFailure Searching) :=
  match state.queue with
  | [] => none
  | (url, depth) :: rest =>
      if state.visited.length < search.maxFiles ∧ state.pages.length < search.pageLimit then
        some (if url ∈ state.visited then .ok { state with queue := rest }
          else visitSitemap lib search state url depth rest)
      else none

variable {lib search}

/-- A turn leaves room for fewer files, or a shorter queue. -/
theorem searchStep_decreases {state after : Searching}
    (h : searchStep lib search state = some (.ok after)) :
    (search.maxFiles - after.visited.length < search.maxFiles - state.visited.length) ∨
      after.visited.length = state.visited.length ∧ after.queue.length < state.queue.length := by
  unfold searchStep at h
  split at h
  next => cases h
  next url depth rest hqueue =>
    split at h
    next hroom =>
      have hstep := Option.some.inj h
      split at hstep
      next =>
        cases hstep
        refine .inr ⟨rfl, ?_⟩
        rw [hqueue]
        exact Nat.lt_succ_self _
      next =>
        have hvisited : after.visited = state.visited ++ [url] := by
          unfold visitSitemap at hstep
          dsimp only at hstep
          split at hstep
          next =>
            split at hstep
            next =>
              cases hstep
              rfl
            next => cases hstep
          next =>
            cases hstep
            rfl
        refine .inl ?_
        rw [hvisited, List.length_append, List.length_singleton]
        omega
    next => cases h

variable (lib search)

/-- The loop of the search. -/
def searchLoop (state : Searching) : Except SearchFailure Searching :=
  match h : searchStep lib search state with
  | none => .ok state
  | some (.error failure) => .error failure
  | some (.ok after) => searchLoop after
termination_by (search.maxFiles - state.visited.length, state.queue.length)
decreasing_by
  rcases searchStep_decreases h with hfiles | ⟨hfiles, hqueue⟩
  · exact Prod.Lex.left _ _ hfiles
  · rw [hfiles]
    exact Prod.Lex.right _ hqueue

/-- `SitemapDiscoveryResult`. -/
structure SitemapDiscoveryResult where
  pageUrls : List Text
  fetchedSitemaps : ℕ
  limitations : List String

/-- What a search comes to, with its calls of `fetcher.fetch`. -/
structure SitemapDiscovery where
  outcome : Except SitemapException SitemapDiscoveryResult
  fetches : List Text

/-- The URLs that the search starts with. -/
def searchRoots (sitemapUrls : List Text) : List Text :=
  sitemapUrls.filterMap fun url =>
    canonicalizeSiteResourceUrl lib.toUrlLibraries search.scope url none

/-- The state before the loop. -/
def searchStart (sitemapUrls : List Text) : Searching where
  queue := enqueue [] 0 [] (searchRoots lib search sitemapUrls)
  visited := []
  pages := []
  unavailable := false
  fetches := []

/-- The result of a search that ended. -/
def Searching.toResult (state : Searching) : SitemapDiscoveryResult where
  pageUrls := state.pages
  fetchedSitemaps := state.visited.length
  limitations := (if state.unavailable then ["sitemap_unavailable"] else []) ++
    (if state.queue ≠ [] ∧ search.maxFiles ≤ state.visited.length then
      ["sitemap_file_limit_reached"] else []) ++
    if search.pageLimit ≤ state.pages.length then ["sitemap_page_limit_reached"] else []

/-- `discover_sitemap_urls`. -/
def discoverSitemapUrls (sitemapUrls : List Text) : SitemapDiscovery :=
  match searchLoop lib search (searchStart lib search sitemapUrls) with
  | .error failure => ⟨.error failure.error, failure.fetches⟩
  | .ok state => ⟨.ok (state.toResult search), state.fetches⟩

end Search

end SearchTrust.Inventory
