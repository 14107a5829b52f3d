/-
Every connection of the fetchers goes to a public address of the host that the
request names, whatever the resolver and the servers answer on each hop.
-/
import SearchTrust.Web.Fetchers

namespace SearchTrust.Web

open SearchTrust.Interleave SearchTrust.Interleave.Program

/-- A call of a fetcher with its answer. -/
abbrev FetchExchange := Exchange fetchSignature FetchException

/-- The host that was resolved, with the answer of the resolver. -/
def resolved : FetchExchange → Option (Text × List Text)
  | ⟨.resolve hostname, .ok values⟩ => some (hostname, values)
  | _ => none

/-- What the resolver answered last. -/
def lastResolved (past : List FetchExchange) : Option (Text × List Text) :=
  past.reverse.findSome? resolved

def isSend (e : FetchExchange) : Bool :=
  match e.op with
  | .send _ _ => true
  | _ => false

/-- The number of requests made. -/
def requestCount (past : List FetchExchange) : Nat := past.countP isSend

section History

variable {past later : List FetchExchange} {e : FetchExchange}

theorem lastResolved_concat_of_none (h : resolved e = none) :
    lastResolved (past ++ [e]) = lastResolved past := by
  rw [lastResolved, List.reverse_append, List.reverse_singleton, List.singleton_append,
    List.findSome?_cons, h]
  rfl

theorem lastResolved_concat {hostname : Text} {values : List Text} :
    lastResolved (past ++ [⟨.resolve hostname, .ok values⟩]) = some (hostname, values) := by
  rw [lastResolved, List.reverse_append, List.reverse_singleton, List.singleton_append,
    List.findSome?_cons]
  rfl

theorem requestCount_concat :
    requestCount (past ++ [e]) = requestCount past + if isSend e then 1 else 0 := by
  rw [requestCount, List.countP_append, List.countP_singleton]
  rfl

/-- Requests that are each made below a limit do not exceed it. -/
theorem requestCount_le {limit : Nat} (trace : List FetchExchange)
    (h : ∀ earlier e later, trace = earlier ++ e :: later → isSend e = true →
      requestCount earlier < limit) : requestCount trace ≤ limit := by
  induction trace using List.reverseRecOn with
  | nil => exact Nat.zero_le _
  | append_singleton earlier e ih =>
      rw [requestCount_concat]
      by_cases hsend : isSend e = true
      · have hlast := h earlier e [] rfl hsend
        rw [if_pos hsend]
        omega
      · rw [if_neg hsend]
        refine ih fun before x after hsplit => ?_
        refine h before x (after ++ [e]) ?_
        rw [hsplit, List.append_assoc, List.cons_append]

end History

/-- An address that may be connected to for a host, after the calls in `past`. -/
def PublicAddress (lib : Libraries) (past : List FetchExchange) (hostname address : Text) :
    Prop :=
  ∃ a, address = lib.ip.str a ∧ lib.ip.isGlobal a = true ∧ a.ipv4Mapped = false ∧
    (lib.ip.ipAddress hostname = some a ∨
      ∃ values raw, lastResolved past = some (hostname, values) ∧ raw ∈ values ∧
        lib.ip.ipAddress raw = some a)

/-- A request that may be made: over a web scheme, to its port, without user information. -/
structure PublicOrigin (origin : Origin) : Prop where
  scheme : origin.scheme = text "http" ∨ origin.scheme = text "https"
  port : origin.port = 80 ∨ origin.port = 443
  userinfo : origin.userinfo = []

/-- What every call of a fetcher has to meet; `inScope` is its check of hosts. -/
def PublicCall (lib : Libraries) (inScope : Text → Prop) (limit : Nat)
    (past : List FetchExchange) : FetchOp → Prop
  | .connectTcp origin address =>
      PublicOrigin origin ∧ PublicAddress lib past (canonicalHost origin.host) address
  | .send origin _ =>
      PublicOrigin origin ∧ inScope (canonicalHost origin.host) ∧ requestCount past < limit
  | _ => True

/-- What is known of a resolved target. -/
structure SafeUrl.Pinned (lib : Libraries) (past : List FetchExchange) (target : SafeUrl) :
    Prop where
  parsed : ∃ p : ParsedUrl, p.Checked ∧ target.requestUrl = p.requestUrl ∧
    target.hostname = p.hostname
  addresses : ∀ address ∈ target.addresses, PublicAddress lib past target.hostname address

variable {lib : Libraries} {inScope : Text → Prop} {limit : Nat}
  {past : List FetchExchange} {α : Type}

theorem PublicAddress.concat {hostname address : Text} {e : FetchExchange}
    (h : PublicAddress lib past hostname address) (he : resolved e = none) :
    PublicAddress lib (past ++ [e]) hostname address := by
  obtain ⟨a, haddress, hglobal, hmapped, hsource⟩ := h
  refine ⟨a, haddress, hglobal, hmapped, ?_⟩
  rwa [lastResolved_concat_of_none he]

theorem SafeUrl.Pinned.concat {target : SafeUrl} {e : FetchExchange}
    (h : target.Pinned lib past) (he : resolved e = none) :
    target.Pinned lib (past ++ [e]) where
  parsed := h.parsed
  addresses := fun address ha => (h.addresses address ha).concat he

/-- The request of a checked target is one that may be made. -/
theorem SafeUrl.Pinned.publicOrigin {target : SafeUrl} (h : target.Pinned lib past)
    {origin : Origin} (horigin : lib.client.origin target.requestUrl = some origin)
    (hhost : canonicalHost origin.host = target.hostname) : PublicOrigin origin := by
  obtain ⟨p, hchecked, hurl, hname⟩ := h.parsed
  rw [hurl] at horigin
  have hpath : (if p.split.path = [] then ['/'] else p.split.path) ≠ [] := by
    split
    · exact List.cons_ne_nil _ _
    · assumption
  obtain ⟨hscheme, huser, hport⟩ :=
    hchecked.origin hpath horigin (hhost.trans hname)
  refine ⟨?_, ?_, huser⟩
  · rw [hscheme]
    exact hchecked.scheme
  · rw [hport]
    exact List.mem_pair.1 hchecked.port

section Resolution

theorem traced_ofExcept (outcome : Except FetchException α)
    {Q : Except FetchException α → List FetchExchange → Prop} (h : Q outcome past) :
    (ofExcept outcome : Fetch α).Traced (PublicCall lib inScope limit) past Q := by
  cases outcome <;> exact h

theorem uniqueAddresses_public {hostname : Text} {values unique addresses : List Text}
    (hvalues : ∀ raw ∈ values, ∀ a, lib.ip.ipAddress raw = some a →
      lib.ip.ipAddress hostname = some a ∨
        ∃ all, lastResolved past = some (hostname, all) ∧ raw ∈ all)
    (hunique : ∀ address ∈ unique, PublicAddress lib past hostname address)
    (h : uniqueAddresses lib values unique = .ok addresses) :
    ∀ address ∈ addresses, PublicAddress lib past hostname address := by
  induction values generalizing unique with
  | nil =>
      obtain rfl := Except.ok.inj h
      exact hunique
  | cons raw rest ih =>
      unfold uniqueAddresses at h
      split at h
      next => cases h
      next a ha =>
        unfold requireGlobalAddress at h
        split at h
        next => cases h
        next hglobal =>
          simp only [not_or, Bool.not_eq_true, Bool.not_eq_false] at hglobal
          have haddress : PublicAddress lib past hostname (lib.ip.str a) := by
            refine ⟨a, rfl, hglobal.2, hglobal.1, ?_⟩
            rcases hvalues raw List.mem_cons_self a ha with hliteral | ⟨all, hall, hraw⟩
            · exact Or.inl hliteral
            · exact Or.inr ⟨all, raw, hall, hraw, ha⟩
          refine ih (fun r hr => hvalues r (List.mem_cons_of_mem raw hr)) ?_ h
          intro address hmem
          split at hmem
          · exact hunique address hmem
          · rcases List.mem_append.1 hmem with hmem | hmem
            · exact hunique address hmem
            · obtain rfl := List.mem_singleton.1 hmem
              exact haddress

/-- After the resolution of a host the answer of the resolver is the last one. -/
theorem traced_addressValues (hostname : Text) :
    (addressValues lib hostname).Traced (PublicCall lib inScope limit) past
      fun outcome later => requestCount later = requestCount past ∧
        ∀ values, outcome = .ok values → ∀ raw ∈ values, ∀ a,
          lib.ip.ipAddress raw = some a → lib.ip.ipAddress hostname = some a ∨
            ∃ all, lastResolved later = some (hostname, all) ∧ raw ∈ all := by
  unfold addressValues
  split
  next direct hdirect =>
    refine ⟨rfl, fun values hvalues raw hraw a ha => ?_⟩
    obtain rfl := Except.ok.inj hvalues
    obtain rfl := List.mem_singleton.1 hraw
    rw [lib.ip.ipAddress_str hostname direct hdirect] at ha
    exact Or.inl (hdirect.trans ha)
  next =>
    refine Traced.bind (Traced.handle (traced_perform trivial fun result => ?_))
    have hcount : requestCount (past ++ [⟨.resolve hostname, result⟩]) =
        requestCount past := requestCount_concat
    cases result with
    | error e =>
        dsimp only
        split
        · exact ⟨hcount, fun values h => by cases h⟩
        · exact ⟨hcount, fun values h => by cases h⟩
    | ok values =>
        dsimp only
        split
        · exact ⟨hcount, fun values h => by cases h⟩
        · split
          · exact ⟨hcount, fun values h => by cases h⟩
          · refine ⟨hcount, fun values' hvalues raw hraw a _ => ?_⟩
            obtain rfl := Except.ok.inj hvalues
            exact Or.inr ⟨values, lastResolved_concat, hraw⟩

theorem traced_resolvePublicUrl (value : Text) :
    (resolvePublicUrl lib value).Traced (PublicCall lib inScope limit) past
      fun outcome later => requestCount later = requestCount past ∧
        ∀ target, outcome = .ok target → target.Pinned lib later := by
  unfold resolvePublicUrl
  refine Traced.bind (traced_ofExcept _ ?_)
  cases hparsed : parseUrl lib value with
  | error e => exact ⟨rfl, fun target h => by cases h⟩
  | ok parsed =>
      refine Traced.bind ((traced_addressValues parsed.hostname).weaken ?_)
      rintro outcome later ⟨hcount, hvalues⟩
      cases outcome with
      | error e => exact ⟨hcount, fun target h => by cases h⟩
      | ok values =>
          refine Traced.bind (traced_ofExcept _ ?_)
          cases hunique : uniqueAddresses lib values [] with
          | error e => exact ⟨hcount, fun target h => by cases h⟩
          | ok addresses =>
              refine ⟨hcount, fun target h => ?_⟩
              obtain rfl := Except.ok.inj h
              refine ⟨⟨parsed, parseUrl_checked hparsed, rfl, rfl⟩, ?_⟩
              exact uniqueAddresses_public (hvalues values rfl)
                (fun address h => absurd h List.not_mem_nil) hunique

end Resolution

section Connecting

/-- The pinned backend tries the addresses of its target only. -/
theorem traced_connectFirst {origin : Origin} {addresses : List Text}
    (horigin : PublicOrigin origin) (last : FetchException)
    (haddresses : ∀ address ∈ addresses,
      PublicAddress lib past (canonicalHost origin.host) address) :
    (connectFirst origin addresses last).Traced (PublicCall lib inScope limit) past
      fun _ later => requestCount later = requestCount past := by
  induction addresses generalizing past last with
  | nil => rfl
  | cons address rest ih =>
      refine Traced.bind (Traced.attempt (traced_perform
        ⟨horigin, haddresses address List.mem_cons_self⟩ fun result => ?_))
      have hcount : requestCount (past ++ [⟨.connectTcp origin address, result⟩]) =
          requestCount past := requestCount_concat
      cases result with
      | ok _ => exact hcount
      | error e =>
          dsimp only
          split
          next =>
            refine (ih e fun other hother => ?_).weaken fun _ _ h => h.trans hcount
            exact (haddresses other (List.mem_cons_of_mem address hother)).concat rfl
          next => exact hcount

theorem traced_stream {target : SafeUrl} (htarget : target.Pinned lib past)
    (hscope : inScope target.hostname) (hlimit : requestCount past < limit) :
    (stream lib target).Traced (PublicCall lib inScope limit) past
      fun _ later => requestCount later ≤ requestCount past + 1 := by
  unfold stream
  split
  next => exact Nat.le_succ _
  next origin horigin =>
    unfold connectTcp
    split
    next => exact Nat.le_succ _
    next hhost =>
      have hhost := not_not.1 hhost
      have hpublic := htarget.publicOrigin horigin hhost
      have haddresses := htarget.addresses
      rw [← hhost] at haddresses
      refine Traced.bind ((traced_connectFirst hpublic .httpError haddresses).weaken ?_)
      intro outcome later hcount
      cases outcome with
      | error e => exact hcount.le.trans (Nat.le_succ _)
      | ok _ =>
          refine traced_perform ⟨hpublic, ?_, ?_⟩ fun result => ?_
          · rwa [hhost]
          · rwa [hcount]
          · rw [requestCount_concat, hcount]
            exact Nat.le_refl _

end Connecting

section Following

variable {hop : Nat → Text → Fetch (Hop α)} {exhausted : FetchException}

/-- A loop of hops that each make at most one request. -/
theorem traced_followRedirects
    (hhop : ∀ count url earlier, requestCount earlier < limit →
      (hop count url).Traced (PublicCall lib inScope limit) earlier
        fun _ later => requestCount later ≤ requestCount earlier + 1) :
    ∀ (hops count : Nat) (url : Text) (earlier : List FetchExchange),
      requestCount earlier + hops ≤ limit →
      (followRedirects hop exhausted count hops url).Traced
        (PublicCall lib inScope limit) earlier fun _ _ => True := by
  intro hops
  induction hops with
  | zero => exact fun _ _ _ _ => trivial
  | succ n ih =>
      intro count url earlier hroom
      refine Traced.bind ((hhop count url earlier (by omega)).weaken ?_)
      intro outcome later hcount
      cases outcome with
      | error e => trivial
      | ok next =>
          cases next with
          | redirect url => exact ih (count + 1) url later (by omega)
          | done result => trivial

end Following

theorem traced_homepageHop (f : BoundedHomepageFetcher) (count : Nat) (url : Text)
    (hlimit : requestCount past < limit) :
    (f.hop lib count url).Traced (PublicCall lib (fun _ => True) limit) past
      fun _ later => requestCount later ≤ requestCount past + 1 := by
  refine Traced.bind ((traced_resolvePublicUrl url).weaken ?_)
  rintro outcome later ⟨hcount, htarget⟩
  cases outcome with
  | error e => exact hcount.le.trans (Nat.le_succ _)
  | ok target =>
      refine Traced.bind ((traced_stream (htarget target rfl) trivial (by omega)).weaken ?_)
      intro outcome last hlast
      have hle : requestCount last ≤ requestCount past + 1 := by omega
      cases outcome with
      | error e => exact hle
      | ok response =>
          dsimp only
          split
          next =>
            refine Traced.bind (traced_ofExcept _ ?_)
            split <;> exact hle
          next =>
            refine Traced.bind (traced_ofExcept _ ?_)
            split <;> exact hle

theorem traced_siteHop (f : BoundedSiteFetcher) (request : SiteRequest) (count : Nat)
    (url : Text) (hlimit : requestCount past < limit) :
    (f.hop lib request count url).Traced
      (PublicCall lib (fun host => request.scope.containsHost lib host = true) limit) past
      fun _ later => requestCount later ≤ requestCount past + 1 := by
  refine Traced.bind ((traced_resolvePublicUrl url).weaken ?_)
  rintro outcome later ⟨hcount, htarget⟩
  cases outcome with
  | error e => exact hcount.le.trans (Nat.le_succ _)
  | ok target =>
      dsimp only
      split
      next hscope =>
        refine Traced.bind (traced_perform trivial fun result => ?_)
        have hwait : requestCount (later ++ [⟨.wait, result⟩]) = requestCount later :=
          requestCount_concat
        cases result with
        | error e => exact (hwait.trans hcount).le.trans (Nat.le_succ _)
        | ok _ =>
            refine Traced.bind ((traced_stream ((htarget target rfl).concat rfl) hscope
              (by omega)).weaken ?_)
            intro outcome last hlast
            have hle : requestCount last ≤ requestCount past + 1 := by omega
            cases outcome with
            | error e => exact hle
            | ok response =>
                dsimp only
                split
                next =>
                  refine Traced.bind (traced_ofExcept _ ?_)
                  split <;> exact hle
                next =>
                  refine Traced.bind (traced_ofExcept _ ?_)
                  split <;> exact hle
      next => exact hcount.le.trans (Nat.le_succ _)

/-- A run of a fetcher that stays in public. -/
structure PublicRun (lib : Libraries) (inScope : Text → Prop) (limit : Nat)
    (trace : List FetchExchange) : Prop where
  connections : ∀ earlier e later origin address, trace = earlier ++ e :: later →
    e.op = .connectTcp origin address →
      PublicOrigin origin ∧ PublicAddress lib earlier (canonicalHost origin.host) address
  requests : ∀ e ∈ trace, ∀ origin url, e.op = .send origin url →
    PublicOrigin origin ∧ inScope (canonicalHost origin.host)
  bounded : requestCount trace ≤ limit

theorem PublicRun.of_traced {p : Fetch α}
    {Q : Except FetchException α → List FetchExchange → Prop}
    (hp : p.Traced (PublicCall lib inScope limit) [] Q) {trace : List FetchExchange}
    (htrace : p.Trace trace) : PublicRun lib inScope limit trace where
  connections := by
    intro earlier e later origin address hsplit hop
    have hcall := hp.sound htrace hsplit
    rw [hop] at hcall
    exact hcall
  requests := by
    intro e he origin url hop
    obtain ⟨earlier, later, hsplit⟩ := List.append_of_mem he
    have hcall := hp.sound htrace hsplit
    rw [hop] at hcall
    exact ⟨hcall.1, hcall.2.1⟩
  bounded := by
    refine requestCount_le trace fun earlier e later hsplit hsend => ?_
    have hcall := hp.sound htrace hsplit
    obtain ⟨op, result⟩ := e
    cases op with
    | send origin url => exact hcall.2.2
    | _ => cases hsend

/-- Whatever the URL, the redirects and the answers of the resolver: every connection
goes, for a web request without user information, to a public address that the resolver
has just returned for the host of the request, or that this host is the literal of; there
is at most one request for each hop, and none out of the scope of a site. -/
theorem connections_stay_public (lib : Libraries) :
    (∀ (f : BoundedHomepageFetcher) (siteUrl : Text) (trace : List FetchExchange),
      (f.fetch lib siteUrl).Trace trace →
        PublicRun lib (fun _ => True) (f.maxRedirects + 1).toNat trace) ∧
    ∀ (f : BoundedSiteFetcher) (request : SiteRequest) (trace : List FetchExchange),
      (f.fetch lib request).Trace trace →
        PublicRun lib (fun host => request.scope.containsHost lib host = true)
          (f.maxRedirects + 1).toNat trace := by
  constructor
  · intro f siteUrl trace htrace
    refine PublicRun.of_traced (Q := fun _ _ => True) ?_ htrace
    refine Traced.bind (traced_ofExcept _ ?_)
    cases normalizeSiteUrl lib siteUrl with
    | error e => trivial
    | ok rootUrl =>
        refine Traced.handle ((traced_followRedirects (fun count url earlier h =>
          traced_homepageHop f count url h) _ 0 rootUrl [] (by simp [requestCount])).weaken ?_)
        intro outcome later _
        cases outcome with
        | ok snapshot => trivial
        | error e => cases e <;> trivial
  · intro f request trace htrace
    refine PublicRun.of_traced (Q := fun _ _ => True) ?_ htrace
    refine Traced.handle ((traced_followRedirects (fun count url earlier h =>
      traced_siteHop f request count url h) _ 0 request.url [] (by simp [requestCount])).weaken ?_)
    intro outcome later _
    cases outcome with
    | ok response => trivial
    | error e => cases e <;> trivial

section Sample

theorem isDelimiter_eq_of_toLower {b : Char} (h : isDelimiter b.toLower = true) :
    b.toLower = b := by
  rcases isDelimiter_iff.1 (isDelimiter_toLower h) with rfl | rfl | rfl | rfl <;> decide

/-- The tables, for ASCII texts. -/
def asciiTables : UnicodeTables where
  compat c := [c]
  lower s := s.map Char.toLower
  casefold s := s.map Char.toLower
  idna s := if s.all fun c => decide (c.toNat < 128) then some s else none
  isDigit := Char.isDigit
  decimal c := if c.isDigit then some (c.toNat - 48) else none
  compat_ascii := fun _ _ => rfl
  lower_delimiter := by
    intro s c d hc hd hdelimiter
    obtain ⟨b, hb, rfl⟩ := List.mem_map.1 hc
    obtain rfl := List.mem_singleton.1 hd
    exact ⟨b, hb, List.mem_singleton.2 (isDelimiter_eq_of_toLower hdelimiter)⟩
  idna_delimiter := by
    intro s e d hs hd _
    split at hs
    · obtain rfl := Option.some.inj hs
      exact ⟨d, hd, List.mem_singleton.2 rfl⟩
    · cases hs

/-- One public address and the literal of it. -/
def sampleAddresses : IpLibrary where
  ipAddress t := if t = text "8.8.8.8" then some (.v4 0x08080808) else none
  str _ := text "8.8.8.8"
  isGlobal _ := true
  ipAddress_str := by
    intro t a h
    split at h
    · rw [if_pos rfl]
      exact h
    · cases h

def sampleLibraries : Libraries where
  unicode := asciiTables
  ip := sampleAddresses
  client :=
    { accepts := fun t => t.all fun c => 32 < c.toNat && c.toNat < 127
      encodeHost := fun host => some (host.map Char.toLower)
      isIPv6 := fun _ => false }
  urljoin _ _ := none
  decode _ bytes := some (bytes.map fun b => Char.ofNat b.toNat)

def sampleFetcher : BoundedHomepageFetcher := ⟨3, 1000⟩

/-- Every host resolves to the sample address, and every server answers. -/
def sampleReply : (op : FetchOp) → Except FetchException op.Value
  | .resolve _ => .ok [text "8.8.8.8"]
  | .wait => .ok ()
  | .connectTcp _ _ => .ok ()
  | .send _ url => .ok ⟨200, [], text "text/html", [], [], none, none, url⟩

def sampleTrace : List FetchExchange :=
  transcript [sampleReply, sampleReply, sampleReply]
    (sampleFetcher.fetch sampleLibraries (text "https://Shop.example"))

example : sampleTrace.length = 3 := by decide

theorem sample_fetch_stays_public :
    PublicRun sampleLibraries (fun _ => True) (sampleFetcher.maxRedirects + 1).toNat
      sampleTrace :=
  (connections_stay_public sampleLibraries).1 sampleFetcher (text "https://Shop.example")
    sampleTrace (trace_transcript _ _)

/-- An address that the resolver has returned for a host. -/
def ResolvedAddress (lib : Libraries) (past : List FetchExchange) (hostname address : Text) :
    Prop :=
  ∃ values raw a, lastResolved past = some (hostname, values) ∧ raw ∈ values ∧
    lib.ip.ipAddress raw = some a ∧ address = lib.ip.str a

def connects (e : FetchExchange) : Bool :=
  match e.op with
  | .connectTcp _ _ => true
  | _ => false

/-- The host of `http://8.8.8.8/` is connected to although no resolver was asked. -/
theorem literal_host_is_connected_unresolved :
    ¬ ∀ (lib : Libraries) (f : BoundedHomepageFetcher) (siteUrl : Text)
      (trace : List FetchExchange), (f.fetch lib siteUrl).Trace trace →
        ∀ earlier e later origin address, trace = earlier ++ e :: later →
          e.op = .connectTcp origin address →
            ResolvedAddress lib earlier (canonicalHost origin.host) address := by
  intro hclaim
  let trace := transcript [sampleReply]
    (sampleFetcher.fetch sampleLibraries (text "http://8.8.8.8/"))
  have hfirst : trace.head?.any connects = true := by decide
  obtain ⟨e, he, hconnects⟩ := Option.any_eq_true _ _ |>.1 hfirst
  obtain ⟨later, hsplit⟩ := List.head?_eq_some_iff.1 he
  obtain ⟨op, result⟩ := e
  cases op with
  | connectTcp origin address =>
      obtain ⟨values, raw, a, hlast, -⟩ := hclaim sampleLibraries sampleFetcher
        (text "http://8.8.8.8/") trace (trace_transcript _ _) [] _ later origin address
        hsplit rfl
      cases hlast
  | _ => cases hconnects

end Sample

end SearchTrust.Web
