/-
The bounded fetchers of homepages and of site pages.  Every hop of a redirect
chain parses, resolves and pins its own target.
-/
import SearchTrust.Web.UrlSafety

namespace SearchTrust.Web

open SearchTrust.Interleave SearchTrust.Interleave.Program

variable (lib : Libraries)

section Pinned

/-- The host of a connection, as the pinned backend compares it; it is ASCII. -/
def canonicalHost (host : Text) : Text := (rstripDots host).map Char.toLower

/-- The loop of `_PinnedNetworkBackend.connect_tcp`, which ends with the last error. -/
def connectFirst (origin : Origin) : List Text → FetchException → Fetch Unit
  | [], last => .raise last
  | address :: rest, _ => do
      let opened ← (ask (.connectTcp origin address)).attempt
      match opened with
      | .ok () => return ()
      | .error e => if e.isException then connectFirst origin rest e else .raise e

/-- `_PinnedNetworkBackend.connect_tcp`. -/
def connectTcp (target : SafeUrl) (origin : Origin) : Fetch Unit :=
  if canonicalHost origin.host ≠ target.hostname then .raise .httpError
  else connectFirst origin target.addresses .httpError

/-- `client.stream("GET", target.request_url)` over the pinned transport. -/
def stream (target : SafeUrl) : Fetch Response :=
  match lib.client.origin target.requestUrl with
  | none => .raise .invalidUrl
  | some origin => do
      connectTcp target origin
      ask (.send origin target.requestUrl)

end Pinned

/-- What one hop of a redirect chain comes to. -/
inductive Hop (α : Type) where
  | redirect (url : Text)
  | done (result : α)

/-- The loop over the hops, with the number of redirects so far and of hops left. -/
def followRedirects {α : Type} (hop : Nat → Text → Fetch (Hop α))
    (exhausted : FetchException) : Nat → Nat → Text → Fetch α
  | _, 0, _ => .raise exhausted
  | redirectCount, n + 1, url => do
      match ← hop redirectCount url with
      | .redirect next => followRedirects hop exhausted (redirectCount + 1) n next
      | .done result => return result

/-- `_REDIRECT_STATUSES`. -/
def redirectStatuses : List Int := [301, 302, 303, 307, 308]

/-- Where a redirect leads, unless it is the last one allowed. -/
def redirectTarget (target : SafeUrl) (response : Response) (redirectCount : Nat)
    (maxRedirects : Int) (missing limit : FetchException) : Except FetchException Text :=
  let location := strip response.location
  if location = [] then throw missing
  else if maxRedirects ≤ redirectCount then throw limit
  else
    match lib.urljoin target.requestUrl location with
    | none => throw .valueError
    | some next => pure next

/-- The part of a content type before its parameters. -/
def mediaType (contentType : Text) : Text := strip (partition ';' contentType).1

section Homepage

/-- `HomepageSnapshot`. -/
structure HomepageSnapshot where
  sourceUrl : Text
  normalizedSiteUrl : Text
  statusCode : Int
  html : Text

/-- `BoundedHomepageFetcher`. -/
structure BoundedHomepageFetcher where
  maxRedirects : Int
  maxResponseBytes : Nat

def homepageError (code message : String) : FetchException := .homepage ⟨code, message⟩

def siteTimeout : FetchException :=
  homepageError "SITE_TIMEOUT"
    "The site did not respond within the preflight time limit."

/-- `_HTML_MEDIA_TYPES`. -/
def htmlMediaTypes : List Text := ["text/html", "application/xhtml+xml"].map text

/-- The loop that reads a body; it fails at the first chunk over the limit. -/
def readBody (maxBytes : Nat) (tooLarge : FetchException) (broken : Option FetchException) :
    List (List UInt8) → List UInt8 → Except FetchException (List UInt8)
  | [], body =>
      match broken with
      | some e => throw e
      | none => pure body
  | chunk :: rest, body =>
      let body := body ++ chunk
      if maxBytes < body.length then throw tooLarge
      else readBody maxBytes tooLarge broken rest body

namespace BoundedHomepageFetcher

variable (f : BoundedHomepageFetcher)

/-- What `_fetch_redirects` does with a response that is no redirect. -/
def snapshot (target : SafeUrl) (response : Response) :
    Except FetchException HomepageSnapshot := do
  if 400 ≤ response.statusCode then
    throw (homepageError "SITE_HTTP_ERROR"
      "The site returned an error response during preflight.")
  else if lib.unicode.lower (mediaType response.contentType) ∉ htmlMediaTypes then
    throw (homepageError "SITE_CONTENT_UNSUPPORTED"
      "The site did not return an HTML page.")
  else
    let body ← readBody f.maxResponseBytes
      (homepageError "SITE_RESPONSE_TOO_LARGE"
        "The site response exceeded the preflight size limit.")
      response.broken response.chunks []
    let utf8 := text "utf-8"
    let html :=
      ((lib.decode (response.encoding.getD utf8) body).orElse fun _ =>
        lib.decode utf8 body).getD []
    return ⟨response.url, target.normalizedUrl, response.statusCode, html⟩

def hop (redirectCount : Nat) (url : Text) : Fetch (Hop HomepageSnapshot) := do
  let target ← resolvePublicUrl lib url
  let response ← stream lib target
  if response.statusCode ∈ redirectStatuses then
    let next ← ofExcept (redirectTarget lib target response redirectCount f.maxRedirects
      (homepageError "SITE_REDIRECT_INVALID"
        "The site returned a redirect without a valid destination.")
      (homepageError "SITE_REDIRECT_LIMIT"
        "The site exceeded the preflight redirect limit."))
    return .redirect next
  else
    let result ← ofExcept (f.snapshot lib target response)
    return .done result

/-- `BoundedHomepageFetcher.fetch`. -/
def fetch (siteUrl : Text) : Fetch HomepageSnapshot := do
  let rootUrl ← ofExcept (normalizeSiteUrl lib siteUrl)
  (followRedirects (f.hop lib)
      (homepageError "SITE_REDIRECT_LIMIT" "The site exceeded the redirect limit.")
      0 (f.maxRedirects + 1).toNat rootUrl).handle fun
    | .cancelled | .httpTimeout => .raise siteTimeout
    | .httpError => .raise (homepageError "SITE_UNREACHABLE"
        "The site could not be reached during preflight.")
    | e => .raise e

end BoundedHomepageFetcher

end Homepage

section Site

/-- `SiteScope`, as far as the fetcher reads it. -/
structure SiteScope where
  allowedHosts : List Text

/-- `SiteScope.contains_host`. -/
def SiteScope.containsHost (scope : SiteScope) (hostname : Text) : Bool :=
  match lib.unicode.idna (rstripDots (strip hostname)) with
  | some canonical => canonical.map Char.toLower ∈ scope.allowedHosts
  | none => false

/-- `SiteFetchResponse`. -/
structure SiteFetchResponse where
  requestedUrl : Text
  finalUrl : Text
  statusCode : Int
  contentType : Text
  body : List UInt8
  truncated : Bool

/-- `BoundedSiteFetcher`. -/
structure BoundedSiteFetcher where
  maxRedirects : Int
  redirectLimitCode : String := "http_error"

/-- The arguments of `BoundedSiteFetcher.fetch`. -/
structure SiteRequest where
  url : Text
  scope : SiteScope
  maxBytes : Nat
  acceptedMediaTypes : Option (List Text)
  allowPrefix : Bool

def siteError (code message : String) : FetchException := .site ⟨code, message⟩

def unsafeTarget : FetchException :=
  siteError "unsafe_target" "The request left the allowed site scope."

def responseTooLarge : FetchException :=
  siteError "response_too_large" "The page response exceeded the size limit."

/-- `content_length.isdigit() and int(content_length) > max_bytes`. -/
def declaredTooLarge (contentLength : Text) (maxBytes : Nat) :
    Except FetchException Bool :=
  if contentLength ≠ [] ∧ contentLength.all lib.unicode.isDigit then
    match contentLength.mapM lib.unicode.decimal with
    | none => throw .valueError
    | some digits => pure (decide (maxBytes < digits.foldl (fun n d => 10 * n + d) 0))
  else pure false

/-- The loop that reads a page; with `allowPrefix` it stops at the limit. -/
def readPage (maxBytes : Nat) (allowPrefix : Bool) (broken : Option FetchException) :
    List (List UInt8) → List UInt8 → Except FetchException (List UInt8 × Bool)
  | [], body =>
      match broken with
      | some e => throw e
      | none => pure (body, false)
  | chunk :: rest, body =>
      let body := body ++ chunk
      if maxBytes < body.length then
        if allowPrefix then pure (body.take maxBytes, true) else throw responseTooLarge
      else readPage maxBytes allowPrefix broken rest body

namespace BoundedSiteFetcher

variable (f : BoundedSiteFetcher) (request : SiteRequest)

/-- What `_fetch_redirects` does with a response that is no redirect. -/
def page (response : Response) : Except FetchException SiteFetchResponse := do
  let contentType := strip response.contentType
  if request.acceptedMediaTypes.any fun accepted =>
      decide (lib.unicode.casefold (mediaType contentType) ∉ accepted) then
    throw (siteError "content_unsupported" "The page returned an unsupported content type.")
  else
    let tooLarge ←
      if request.allowPrefix then pure false
      else declaredTooLarge lib (strip response.contentLength) request.maxBytes
    if tooLarge then throw responseTooLarge
    else
      let (body, truncated) ← readPage request.maxBytes request.allowPrefix response.broken
        response.chunks []
      return ⟨request.url, response.url, response.statusCode, contentType, body, truncated⟩

def hop (redirectCount : Nat) (url : Text) : Fetch (Hop SiteFetchResponse) := do
  let target ← resolvePublicUrl lib url
  if request.scope.containsHost lib target.hostname then
    let _ ← ask .wait
    let response ← stream lib target
    if response.statusCode ∈ redirectStatuses then
      let next ← ofExcept (redirectTarget lib target response redirectCount f.maxRedirects
        (siteError "http_error" "The page returned a redirect without a destination.")
        (siteError f.redirectLimitCode "The page exceeded the redirect limit."))
      return .redirect next
    else
      let result ← ofExcept (page lib request response)
      return .done result
  else .raise unsafeTarget

/-- `BoundedSiteFetcher.fetch`. -/
def fetch : Fetch SiteFetchResponse :=
  (followRedirects (f.hop lib request)
      (siteError "http_error" "The page exceeded the redirect limit.")
      0 (f.maxRedirects + 1).toNat request.url).handle fun
    | .cancelled | .httpTimeout =>
        .raise (siteError "page_timeout" "The page request timed out.")
    | .httpError => .raise (siteError "http_error" "The page could not be reached.")
    | e => .raise e

end BoundedSiteFetcher

end Site

end SearchTrust.Web
