/-
The parts of a URL text as the standard library and the HTTP client see them.
A text is a list of characters.
-/
import Mathlib.Algebra.GroupWithZero.Nat
import Mathlib.Data.List.DropRight
import SearchTrust.Jobs.Models
import SearchTrust.Order.Sorting

namespace SearchTrust.Web

/-- A Python `str`. -/
abbrev Text := List Char

def text (s : String) : Text := s.toList

section Strings

/-- `str.isspace`. -/
def isSpace (c : Char) : Bool :=
  Jobs.isWhitespace c || (0x1C ≤ c.toNat && c.toNat ≤ 0x1F)

/-- `str.strip()`. -/
def strip (s : Text) : Text := (s.dropWhile isSpace).rdropWhile isSpace

/-- `str.rstrip(".")`. -/
def rstripDots (s : Text) : Text := s.rdropWhile (· = '.')

/-- The text before the first `sep` and the text behind it. -/
def partition (sep : Char) (s : Text) : Text × Text :=
  (s.takeWhile (· ≠ sep), (s.dropWhile (· ≠ sep)).tail)

/-- The text behind the last `sep`. -/
def afterLast (sep : Char) (s : Text) : Text := s.rtakeWhile (· ≠ sep)

theorem strip_subset {c : Char} {s : Text} (h : c ∈ strip s) : c ∈ s := by
  have hdropped : c ∈ s.dropWhile isSpace := (List.rdropWhile_prefix _ _).subset h
  exact (List.dropWhile_suffix _).subset hdropped

theorem rstripDots_subset {c : Char} {s : Text} (h : c ∈ rstripDots s) : c ∈ s :=
  (List.rdropWhile_prefix _ _).subset h

theorem rstripDots_length_le (s : Text) : (rstripDots s).length ≤ s.length :=
  (List.rdropWhile_prefix _ _).length_le

theorem partition_fst_subset {c sep : Char} {s : Text} (h : c ∈ (partition sep s).1) :
    c ∈ s := (List.takeWhile_prefix _).subset h

theorem partition_snd_subset {c sep : Char} {s : Text} (h : c ∈ (partition sep s).2) :
    c ∈ s := (List.dropWhile_suffix _).subset (List.mem_of_mem_tail h)

end Strings

/-- The characters that end an authority or its user information. -/
def isDelimiter (c : Char) : Bool := c = '/' || c = '?' || c = '#' || c = '@'

/-- The Unicode tables behind `str.lower`, NFKC and the `idna` codec: `compat` gives
the compatibility mapping of one character.  Neither lower case nor the codec, which
maps letter case and then applies NFKC, yields a delimiter that is in no mapping. -/
structure UnicodeTables where
  compat : Char → Text
  lower : Text → Text
  casefold : Text → Text
  /-- `s.encode("idna").decode("ascii")`; `none` is a `UnicodeError`. -/
  idna : Text → Option Text
  /-- `c.isdigit()`. -/
  isDigit : Char → Bool
  /-- The value of a decimal digit; `int` refuses the other digits. -/
  decimal : Char → Option Nat
  compat_ascii : ∀ c, c.toNat < 128 → compat c = [c]
  lower_delimiter : ∀ s c d, c ∈ lower s → d ∈ compat c → isDelimiter d = true →
    ∃ b ∈ s, d ∈ compat b
  idna_delimiter : ∀ s e d, idna s = some e → d ∈ e → isDelimiter d = true →
    ∃ c ∈ s, d ∈ compat c

/-- `IPv4Address` and `IPv6Address`. -/
inductive IpAddress where
  | v4 (bits : BitVec 32)
  | v6 (bits : BitVec 128) (scope : Option String)
deriving DecidableEq

/-- `address.ipv4_mapped is not None`. -/
def IpAddress.ipv4Mapped : IpAddress → Bool
  | v4 _ => false
  | v6 bits _ => bits.toNat / 2 ^ 32 = 0xFFFF

def IpAddress.isV4 : IpAddress → Bool
  | v4 _ => true
  | v6 _ _ => false

/-- The module `ipaddress`. -/
structure IpLibrary where
  /-- `ipaddress.ip_address`; `none` is a `ValueError`. -/
  ipAddress : Text → Option IpAddress
  /-- `str(address)`. -/
  str : IpAddress → Text
  isGlobal : IpAddress → Bool
  ipAddress_str : ∀ t a, ipAddress t = some a → ipAddress (str a) = some a

/-- `SplitResult`. -/
structure SplitResult where
  scheme : Text
  netloc : Text
  path : Text
  query : Text
  fragment : Text

section Urlsplit

/-- `_WHATWG_C0_CONTROL_OR_SPACE`. -/
def isControlOrSpace (c : Char) : Bool := c.toNat ≤ 0x20

/-- `_UNSAFE_URL_BYTES_TO_REMOVE`. -/
def isUnsafeByte (c : Char) : Bool := c = '\t' || c = '\r' || c = '\n'

def isSchemeChar (c : Char) : Bool :=
  c.isAlphanum || c = '+' || c = '-' || c = '.'

/-- The scheme of a URL, in lower case, and what follows it. -/
def splitScheme (url : Text) : Text × Text :=
  let (head, rest) := partition ':' url
  if ':' ∈ url ∧ head.head?.any Char.isAlpha ∧ head.all isSchemeChar then
    (head.map Char.toLower, rest)
  else ([], url)

/-- The characters at which `_splitnetloc` stops. -/
def endsNetloc (c : Char) : Bool := c = '/' || c = '?' || c = '#'

/-- The network location of a URL, without its two slashes, and the rest. -/
def splitNetloc : Text → Text × Text
  | '/' :: '/' :: rest =>
      (rest.takeWhile (! endsNetloc ·), rest.dropWhile (! endsNetloc ·))
  | url => ([], url)

/-- `_check_bracketed_host`. -/
def checkBracketedHost (ip : IpLibrary) (host : Text) : Bool :=
  match host with
  | 'v' :: version =>
      let (digits, rest) := partition '.' version
      digits ≠ [] && digits.all (fun c => c.isDigit || ('a' ≤ c.toLower && c.toLower ≤ 'f')) &&
        '.' ∈ version && rest ≠ []
  | _ => (ip.ipAddress host).any fun a => ! a.isV4

/-- `_check_bracketed_netloc`: nothing stands before a bracket, and nothing but a port
behind it. -/
def checkBracketedNetloc (ip : IpLibrary) (netloc : Text) : Bool :=
  let hostAndPort := afterLast '@' netloc
  if '[' ∈ hostAndPort then
    let (before, bracketed) := partition '[' hostAndPort
    let (hostname, port) := partition ']' bracketed
    before = [] && (port = [] || port.head? = some ':') && checkBracketedHost ip hostname
  else checkBracketedHost ip (partition ':' hostAndPort).1

/-- The two checks of brackets. -/
def bracketsFit (ip : IpLibrary) (netloc : Text) : Bool :=
  decide ('[' ∈ netloc ↔ ']' ∈ netloc) &&
    (! decide ('[' ∈ netloc) || checkBracketedNetloc ip netloc)

/-- `_checknetloc`: NFKC must not turn another character into a delimiter. -/
def checkNetloc (u : UnicodeTables) (netloc : Text) : Bool :=
  netloc.all fun c =>
    c = '@' || c = ':' || c = '#' || c = '?' ||
      (u.compat c).all fun d => ! (isDelimiter d || d = ':')

/-- `urlsplit`; `none` is a `ValueError`. -/
def urlsplit (u : UnicodeTables) (ip : IpLibrary) (value : Text) : Option SplitResult :=
  let url := (value.dropWhile isControlOrSpace).filter fun c => ! isUnsafeByte c
  let (scheme, url) := splitScheme url
  let (netloc, url) := splitNetloc url
  if bracketsFit ip netloc then
    let (url, fragment) := partition '#' url
    let (path, query) := partition '?' url
    if checkNetloc u netloc then some ⟨scheme, netloc, path, query, fragment⟩ else none
  else none

variable {u : UnicodeTables} {ip : IpLibrary} {value : Text} {s : SplitResult}

theorem splitNetloc_fst {url : Text} {c : Char} (h : c ∈ (splitNetloc url).1) :
    endsNetloc c = false := by
  unfold splitNetloc at h
  split at h
  next =>
    have hc := List.mem_takeWhile_imp h
    simpa using hc
  next => cases h

/-- What is known of the network location of a URL that splits. -/
theorem urlsplit_netloc (h : urlsplit u ip value = some s) :
    (∀ c ∈ s.netloc, endsNetloc c = false) ∧ checkNetloc u s.netloc = true := by
  simp only [urlsplit] at h
  split at h
  next =>
    split at h
    next hchecked =>
      obtain rfl := Option.some.inj h
      exact ⟨fun c hc => splitNetloc_fst hc, hchecked⟩
    next => cases h
  next => cases h

end Urlsplit

namespace SplitResult

variable (s : SplitResult)

/-- `username is not None or password is not None`. -/
def hasUserinfo : Bool := '@' ∈ s.netloc

/-- `_hostinfo`: the host name and the text of the port. -/
def hostinfo : Text × Text :=
  let hostinfo := afterLast '@' s.netloc
  if '[' ∈ hostinfo then
    let (hostname, port) := partition ']' (partition '[' hostinfo).2
    (hostname, (partition ':' port).2)
  else partition ':' hostinfo

/-- `hostname`, and the empty text for `None`; a zone is not put into lower case. -/
def hostname (u : UnicodeTables) : Text :=
  let (name, zone) := partition '%' s.hostinfo.1
  if '%' ∈ s.hostinfo.1 then u.lower name ++ '%' :: zone else u.lower name

def digitsValue (digits : Text) : Nat :=
  digits.foldl (fun n c => 10 * n + (c.toNat - '0'.toNat)) 0

/-- `port`: `none` is a `ValueError`. -/
def port : Option (Option Nat) :=
  let port := s.hostinfo.2
  if port = [] then some none
  else if port.all Char.isDigit ∧ digitsValue port ≤ 65535 then
    some (some (digitsValue port))
  else none

end SplitResult

/-- `urlunsplit` of a URL with a scheme and a network location, without a fragment. -/
def urlunsplit (scheme netloc path query : Text) : Text :=
  let url := if path ≠ [] ∧ path.head? ≠ some '/' then '/' :: path else path
  scheme ++ ':' :: '/' :: '/' :: netloc ++ url ++
    (if query = [] then [] else '?' :: query)

/-- The URL parser of the HTTP client.  `accepts` is the check of the length and of the
printable characters; `encodeHost` is the normalisation of a host outside brackets. -/
structure UrlClient where
  accepts : Text → Bool
  encodeHost : Text → Option Text
  isIPv6 : Text → Bool

/-- Where the client sends a request. -/
structure Origin where
  scheme : Text
  userinfo : Text
  host : Text
  port : Nat
deriving DecidableEq

namespace UrlClient

variable (client : UrlClient)

/-- The host and the rest of an authority behind its user information. -/
def splitHost (hostAndPort : Text) : Text × Text :=
  match hostAndPort with
  | '[' :: rest =>
      if ']' ∈ rest then
        -- The pattern is greedy, so the last bracket closes the host.
        ('[' :: rest.rdropWhile (· ≠ ']'), rest.rtakeWhile (· ≠ ']'))
      else (hostAndPort.takeWhile (· ≠ ':'), hostAndPort.dropWhile (· ≠ ':'))
  | _ => (hostAndPort.takeWhile (· ≠ ':'), hostAndPort.dropWhile (· ≠ ':'))

/-- `encode_host`. -/
def normalHost (host : Text) : Option Text :=
  if host.head? = some '[' ∧ host.getLast? = some ']' then
    if client.isIPv6 host.tail.dropLast then some host.tail.dropLast else none
  else client.encodeHost host

/-- The port of an authority: `none` when it is no number. -/
def portOf (scheme rest : Text) : Option Nat :=
  let digits := if rest.head? = some ':' then rest.tail else rest
  if digits = [] then some (if scheme = text "https" then 443 else 80)
  else if digits.all Char.isDigit then some (SplitResult.digitsValue digits)
  else none

/-- The origin of a request URL; `none` is an `InvalidURL`. -/
def origin (url : Text) : Option Origin :=
  if client.accepts url then
    let (scheme, rest) := partition ':' url
    match rest with
    | '/' :: '/' :: rest =>
        let authority := rest.takeWhile (! endsNetloc ·)
        let userinfo := (authority.rdropWhile (· ≠ '@')).dropLast
        let (host, port) := splitHost (afterLast '@' authority)
        match client.normalHost host, portOf scheme port with
        | some host, some port => some ⟨scheme, userinfo, host, port⟩
        | _, _ => none
    | _ => none
  else none

end UrlClient

end SearchTrust.Web
