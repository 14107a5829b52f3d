/-
URL normalisation and the boundary around server-side requests: a URL text is
parsed, and its host resolved, once for every request.
-/
import Mathlib.Algebra.GroupWithZero.Nat
import SearchTrust.Interleave.Traces
import SearchTrust.Web.UrlText

namespace SearchTrust.Web

open SearchTrust.Interleave SearchTrust.Interleave.Program

/-- A code and a user message. -/
structure ErrorText where
  code : String
  userMessage : String
deriving DecidableEq

/-- What a fetch can raise. -/
inductive FetchException where
  /-- `UrlSafetyError`. -/
  | urlSafety (error : ErrorText)
  /-- `UrlUnreachableError`. -/
  | urlUnreachable (error : ErrorText)
  /-- `HomepageFetchError`. -/
  | homepage (error : ErrorText)
  /-- `SiteFetchError`. -/
  | site (error : ErrorText)
  /-- `httpx.TimeoutException`. -/
  | httpTimeout
  /-- Any other `httpx.HTTPError`, and `httpcore.ConnectError`, which becomes one. -/
  | httpError
  /-- `httpx.InvalidURL`. -/
  | invalidUrl
  /-- `socket.gaierror`. -/
  | gaierror
  /-- `ValueError`. -/
  | valueError
  /-- The cancellation by `asyncio.wait_for`, which turns it into a `TimeoutError`. -/
  | cancelled
deriving DecidableEq

def FetchException.isException : FetchException → Bool
  | cancelled => false
  | _ => true

/-- The libraries below the fetchers. -/
structure Libraries where
  unicode : UnicodeTables
  ip : IpLibrary
  client : UrlClient
  /-- `urljoin`; `none` is a `ValueError`. -/
  urljoin : Text → Text → Option Text
  /-- `bytes.decode` with replacement; `none` is a `LookupError`. -/
  decode : Text → List UInt8 → Option Text

/-- `SafeUrl`. -/
structure SafeUrl where
  normalizedUrl : Text
  requestUrl : Text
  scheme : Text
  hostname : Text
  port : Nat
  addresses : List Text

/-- `_ParsedUrl`. -/
structure ParsedUrl where
  split : SplitResult
  scheme : Text
  hostname : Text
  port : Nat
  explicitPort : Bool

/-- `_BLOCKED_HOSTNAMES`. -/
def blockedHostnames : List Text :=
  ["instance-data", "localhost", "metadata.aws.internal", "metadata.google",
    "metadata.google.internal"].map text

/-- `_ALLOWED_PORTS`. -/
def allowedPorts : List Nat := [80, 443]

section Errors

def urlInvalid : FetchException := .urlSafety ⟨"URL_INVALID", "The URL is invalid."⟩

def schemeUnsupported : FetchException :=
  .urlSafety ⟨"URL_SCHEME_UNSUPPORTED", "Only HTTP and HTTPS URLs are supported."⟩

def userinfoForbidden : FetchException :=
  .urlSafety ⟨"URL_USERINFO_FORBIDDEN",
    "URLs containing user information are not allowed."⟩

def hostMissing : FetchException :=
  .urlSafety ⟨"URL_HOST_MISSING", "The URL must include a hostname."⟩

def hostInvalid : FetchException :=
  .urlSafety ⟨"URL_HOST_INVALID", "The URL hostname is invalid."⟩

def hostForbidden : FetchException :=
  .urlSafety ⟨"URL_HOST_FORBIDDEN", "The URL hostname is not a public target."⟩

def portInvalid : FetchException :=
  .urlSafety ⟨"URL_PORT_INVALID", "The URL port is invalid."⟩

def portForbidden : FetchException :=
  .urlSafety ⟨"URL_PORT_FORBIDDEN", "Only public web ports 80 and 443 are allowed."⟩

def addressForbidden : FetchException :=
  .urlSafety ⟨"URL_ADDRESS_FORBIDDEN",
    "The URL resolves to a private or reserved address."⟩

def tooManyAddresses : FetchException :=
  .urlSafety ⟨"URL_ADDRESS_INVALID",
    "The site hostname resolved to too many addresses."⟩

def addressInvalid : FetchException :=
  .urlSafety ⟨"URL_ADDRESS_INVALID",
    "The site hostname resolved to an invalid address."⟩

def dnsUnavailable : FetchException :=
  .urlUnreachable ⟨"SITE_DNS_UNAVAILABLE", "The site hostname could not be resolved."⟩

end Errors

variable (lib : Libraries)

/-- `_require_global_address`. -/
def requireGlobalAddress (a : IpAddress) : Except FetchException Unit :=
  if a.ipv4Mapped ∨ lib.ip.isGlobal a = false then throw addressForbidden else pure ()

def defaultPort (scheme : Text) : Nat := if scheme = text "https" then 443 else 80

/-- `parsed_port or …`: port 0 stands for the default one. -/
def effectivePort (scheme : Text) : Option Nat → Nat
  | none | some 0 => defaultPort scheme
  | some port => port

/-- The host name that `_parse_url` works with. -/
def parsedHostname (split : SplitResult) : Except FetchException Text :=
  let hostname := rstripDots (strip (split.hostname lib.unicode))
  if hostname = [] then throw hostMissing
  else
    match lib.unicode.idna hostname with
    | none => throw hostInvalid
    -- The encoded name is ASCII.
    | some encoded => pure (encoded.map Char.toLower)

def isBlockedHostname (hostname : Text) : Bool :=
  hostname ∈ blockedHostnames || (text ".localhost").isSuffixOf hostname

/-- The check of a host that is the literal of an address. -/
def checkDirectAddress (hostname : Text) : Except FetchException Unit :=
  match lib.ip.ipAddress hostname with
  | some direct => requireGlobalAddress lib direct
  | none => pure ()

/-- `_parse_url`. -/
def parseUrl (value : Text) : Except FetchException ParsedUrl :=
  match urlsplit lib.unicode lib.ip (strip value) with
  | none => throw urlInvalid
  | some split =>
      if split.scheme ≠ text "http" ∧ split.scheme ≠ text "https" then
        throw schemeUnsupported
      else if split.hasUserinfo then throw userinfoForbidden
      else do
        let hostname ← parsedHostname lib split
        if isBlockedHostname hostname then throw hostForbidden
        else
          match split.port with
          | none => throw portInvalid
          | some parsedPort =>
              let port := effectivePort split.scheme parsedPort
              if parsedPort.isSome ∧ port ∉ allowedPorts then throw portForbidden
              else do
                checkDirectAddress lib hostname
                return ⟨split, split.scheme, hostname, port, parsedPort.isSome⟩

/-- The decimal digits of an allowed port. -/
def portText (port : Nat) : Text := text (toString port)

namespace ParsedUrl

variable (p : ParsedUrl)

/-- `_authority`. -/
def authority : Text :=
  let host := if ':' ∈ p.hostname then '[' :: p.hostname ++ [']'] else p.hostname
  if p.explicitPort ∧ p.port ≠ defaultPort p.scheme then host ++ ':' :: portText p.port
  else host

def normalizedUrl : Text := urlunsplit p.scheme p.authority ['/'] []

def requestUrl : Text :=
  urlunsplit p.scheme p.authority (if p.split.path = [] then ['/'] else p.split.path)
    p.split.query

end ParsedUrl

/-- `normalize_site_url`. -/
def normalizeSiteUrl (value : Text) : Except FetchException Text := do
  let parsed ← parseUrl lib value
  return parsed.normalizedUrl

/-- The loop over the addresses: each of them is checked, and listed once. -/
def uniqueAddresses : List Text → List Text → Except FetchException (List Text)
  | [], unique => pure unique
  | raw :: rest, unique =>
      match lib.ip.ipAddress raw with
      | none => throw addressInvalid
      | some address => do
          requireGlobalAddress lib address
          let canonical := lib.ip.str address
          uniqueAddresses rest
            (if canonical ∈ unique then unique else unique ++ [canonical])

/-- The answer of the server to one request; a body ends or breaks off. -/
structure Response where
  statusCode : Int
  location : Text
  contentType : Text
  contentLength : Text
  chunks : List (List UInt8)
  broken : Option FetchException
  encoding : Option Text
  url : Text

/-- What a fetcher asks of its environment. -/
inductive FetchOp where
  /-- The resolver. -/
  | resolve (hostname : Text)
  /-- `AsyncRateLimiter.wait`. -/
  | wait
  /-- `connect_tcp` of the delegate, for a request to the origin. -/
  | connectTcp (origin : Origin) (address : Text)
  /-- The request over the connection. -/
  | send (origin : Origin) (url : Text)

@[reducible] def FetchOp.Value : FetchOp → Type
  | resolve _ => List Text
  | wait => Unit
  | connectTcp _ _ => Unit
  | send _ _ => Response

def fetchSignature : Signature := ⟨FetchOp, FetchOp.Value⟩

/-- A coroutine of a fetcher. -/
abbrev Fetch (α : Type) := Program fetchSignature FetchException α

abbrev ask (op : FetchOp) : Fetch op.Value := Program.perform (S := fetchSignature) op

/-- The addresses of a host, which resolves to itself where it is a literal. -/
def addressValues (hostname : Text) : Fetch (List Text) :=
  match lib.ip.ipAddress hostname with
  | some direct => return [lib.ip.str direct]
  | none => do
      let values ← (ask (.resolve hostname)).handle fun e =>
        if e = .gaierror then .raise dnsUnavailable else .raise e
      if values = [] then .raise dnsUnavailable
      else if 16 < values.length then .raise tooManyAddresses
      else return values

/-- `resolve_public_url`. -/
def resolvePublicUrl (value : Text) : Fetch SafeUrl := do
  let parsed ← ofExcept (parseUrl lib value)
  let values ← addressValues lib parsed.hostname
  let addresses ← ofExcept (uniqueAddresses lib values [])
  return {
    normalizedUrl := parsed.normalizedUrl
    requestUrl := parsed.requestUrl
    scheme := parsed.scheme
    hostname := parsed.hostname
    port := parsed.port
    addresses }

end SearchTrust.Web
