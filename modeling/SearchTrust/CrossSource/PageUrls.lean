/-
The addresses of the pages of a case: the host of a domain, the parts of a page's URL and
what the two normalizers make of them.
-/
import SearchTrust.CrossSource.PageSpelling

namespace SearchTrust.CrossSource

open SearchTrust.Order
open SearchTrust.Web

variable (lib : PageLibrary)

section Hosts

/-- A character of a domain. -/
def isHostChar (c : Char) : Bool := c.isAlphanum || c = '.' || c = '-'

/-- A domain: letters, digits, dots and hyphens that name a host. -/
structure IsDomain (domain : Text) : Prop where
  chars : ∀ c ∈ domain, isHostChar c = true
  host : hostOf lib domain ≠ []

/-- The host of the domain begins with no further "www.". -/
def Plain (domain : Text) : Prop := ¬ text "www." <+: hostOf lib domain

instance decidablePlain (domain : Text) : Decidable (Plain lib domain) :=
  inferInstanceAs (Decidable (¬ text "www." <+: hostOf lib domain))

/-- A host in lower case, without a dot at its end. -/
structure LowerHost (host : Text) : Prop where
  chars : ∀ c ∈ host, isHostChar c = true ∧ c.toLower = c
  last : host.getLast? ≠ some '.'

set_option maxRecDepth 20000 in
theorem isHostChar_ascii {c : Char} (h : isHostChar c = true) :
    c.toNat < 128 ∧ isHostChar c.toLower = true ∧ c.toLower.toLower = c.toLower ∧
      (c.toLower = '.' → c = '.') := by
  have hlt : c.toNat < 128 := by
    delta isHostChar Char.isAlphanum Char.isAlpha Char.isUpper Char.isLower Char.isDigit at h
    simp only [Bool.or_eq_true, Bool.and_eq_true, decide_eq_true_eq] at h
    rcases h with (((h | h) | h) | h) | h
    · exact lt_of_le_of_lt (UInt32.le_iff_toNat_le.1 h.2) (by decide)
    · exact lt_of_le_of_lt (UInt32.le_iff_toNat_le.1 h.2) (by decide)
    · exact lt_of_le_of_lt (UInt32.le_iff_toNat_le.1 h.2) (by decide)
    · rw [h]
      decide
    · rw [h]
      decide
  have hall : ∀ n ∈ List.range 128, isHostChar (Char.ofNat n) = true →
      isHostChar (Char.ofNat n).toLower = true ∧
        (Char.ofNat n).toLower.toLower = (Char.ofNat n).toLower ∧
        ((Char.ofNat n).toLower = '.' → Char.ofNat n = '.') := by decide
  have hc : Char.ofNat c.toNat = c := Char.ofNat_toNat c
  have hrange := hall c.toNat (List.mem_range.2 hlt)
  rw [hc] at hrange
  exact ⟨hlt, hrange h⟩

variable {lib} {host domain : Text}

theorem lower_eq_map (h : ∀ c ∈ host, isHostChar c = true) :
    lib.unicode.lower host = host.map Char.toLower :=
  lib.lower_ascii host fun c hc => decide_eq_true (isHostChar_ascii (h c hc)).1

theorem LowerHost.lower_eq (h : LowerHost host) : lib.unicode.lower host = host := by
  rw [lower_eq_map fun c hc => (h.chars c hc).1]
  exact (List.map_congr_left fun c hc => (h.chars c hc).2).trans (List.map_id _)

theorem LowerHost.rstripDots_eq (h : LowerHost host) : rstripDots host = host := by
  rw [rstripDots, List.rdropWhile_eq_self_iff]
  intro hne hlast
  refine h.last ?_
  rw [List.getLast?_eq_some_getLast hne, of_decide_eq_true hlast]

/-- The host of a text that is a host loses a "www." only. -/
theorem LowerHost.hostOf_eq (h : LowerHost host) :
    hostOf lib host = if (text "www.").isPrefixOf host then host.drop 4 else host := by
  rw [hostOf, h.rstripDots_eq, h.lower_eq]

theorem LowerHost.drop (h : LowerHost host) (n : ℕ) : LowerHost (host.drop n) := by
  refine ⟨fun c hc => h.chars c (List.mem_of_mem_drop hc), ?_⟩
  rw [List.getLast?_drop]
  split
  next => exact fun h => by cases h
  next => exact h.last

theorem IsDomain.lowerHost (h : IsDomain lib domain) : LowerHost (hostOf lib domain) := by
  have hchars : ∀ c ∈ rstripDots domain, isHostChar c = true :=
    fun c hc => h.chars c (rstripDots_subset hc)
  have hlower : LowerHost (lib.unicode.lower (rstripDots domain)) := by
    rw [lower_eq_map hchars]
    refine ⟨fun c hc => ?_, fun hlast => ?_⟩
    · obtain ⟨d, hd, rfl⟩ := List.mem_map.1 hc
      obtain ⟨-, hhost, hlower, -⟩ := isHostChar_ascii (hchars d hd)
      exact ⟨hhost, hlower⟩
    · rw [List.getLast?_map, Option.map_eq_some_iff] at hlast
      obtain ⟨d, hd, hdot⟩ := hlast
      obtain rfl := (isHostChar_ascii (hchars d (List.mem_of_getLast? hd))).2.2.2 hdot
      have hidempotent : rstripDots (rstripDots domain) = rstripDots domain :=
        List.rdropWhile_idempotent _ _
      rw [rstripDots, List.rdropWhile_eq_self_iff] at hidempotent
      have hne : rstripDots domain ≠ [] := by
        intro hnil
        rw [hnil] at hd
        cases hd
      refine hidempotent hne ?_
      rw [List.getLast?_eq_some_getLast hne, Option.some.injEq] at hd
      exact decide_eq_true hd
  rw [hostOf]
  split
  next => exact hlower.drop 4
  next => exact hlower

theorem lowerHost_www (h : LowerHost host) (hne : host ≠ []) :
    LowerHost (text "www." ++ host) := by
  refine ⟨fun c hc => ?_, ?_⟩
  · rcases List.mem_append.1 hc with hc | hc
    · have hall : ∀ c ∈ text "www.", isHostChar c = true ∧ c.toLower = c :=
        List.all_iff_forall_prop.1 (by decide)
      exact hall c hc
    · exact h.chars c hc
  · rw [List.getLast?_append_of_ne_nil _ hne]
    exact h.last

/-- The host of the domain with "www." before it. -/
theorem hostOf_www (h : LowerHost host) (hne : host ≠ []) :
    hostOf lib (text "www." ++ host) = host := by
  rw [(lowerHost_www h hne).hostOf_eq, if_pos (by simp)]
  exact List.drop_left' rfl

/-- The host of a domain is its own host where it is plain. -/
theorem hostOf_hostOf_iff (h : IsDomain lib domain) :
    hostOf lib (hostOf lib domain) = hostOf lib domain ↔ Plain lib domain := by
  rw [h.lowerHost.hostOf_eq, Plain, ← List.isPrefixOf_iff_prefix]
  split
  next hstart =>
    refine ⟨fun heq => ?_, fun hnot => absurd hstart hnot⟩
    have hlength := congrArg List.length heq
    rw [List.length_drop] at hlength
    have hpos := List.length_pos_iff.2 h.host
    omega
  next hstart => exact ⟨fun _ => hstart, fun _ => rfl⟩

end Hosts

section Tails

/-- What follows the authority of a URL: a path and, where there are any, components. -/
structure Tail where
  path : Text
  items : List Text

namespace Tail

def query (tail : Tail) : Text := ['&'].intercalate tail.items

def text (tail : Tail) : Text :=
  tail.path ++ if tail.items = [] then [] else '?' :: tail.query

/-- The path is absolute or empty, and no part holds a sign that would end it. -/
structure WellFormed (tail : Tail) : Prop where
  head : tail.path = [] ∨ tail.path.head? = some '/'
  path : '?' ∉ tail.path ∧ '#' ∉ tail.path
  items : ∀ c ∈ tail.items, '&' ∉ c ∧ '#' ∉ c

/-- Two tails of one page. -/
structure Same (tail other : Tail) : Prop where
  path : SamePath tail.path other.path
  items : SameItems lib tail.items other.items

/-- The path, or a component that is not tracking, is one that the code refuses. -/
def Refused (tail : Tail) : Prop :=
  pathOf (pathOrRoot tail.path) = none ∨ ∃ c ∈ untracked lib tail.items, ¬ GoodItem lib c

/-- The components of tracking are well formed. -/
def TrackingFit (tail : Tail) : Prop := ∀ c ∈ tail.items, tracked lib c = true → Fit c

/-- What the normalizers make of the parts of a page's URL. -/
def rewritten (tail : Tail) (domain : Text) : Option Text :=
  (pathOf (pathOrRoot tail.path)).bind fun path =>
    (queryOf lib tail.query).map fun query => pageUrl lib domain path query

variable {lib} {tail other : Tail} {domain : Text}

theorem notMem_intercalate {c : Char} {items : List Text} (hc : c ≠ '&')
    (h : ∀ item ∈ items, c ∉ item) : c ∉ ['&'].intercalate items := by
  induction items with
  | nil => exact List.not_mem_nil
  | cons item rest ih =>
      rw [List.forall_mem_cons] at h
      cases rest with
      | nil =>
          rw [List.intercalate_singleton]
          exact h.1
      | cons next rest =>
          rw [List.intercalate_cons_cons, List.mem_append, List.mem_append, List.mem_singleton]
          exact fun hmem => hmem.elim (fun hmem => hmem.elim h.1 hc) (ih h.2)

/-- A tail is rewritten exactly where nothing of it is refused and its tracking is fit. -/
theorem rewritten_isSome_iff (h : tail.WellFormed) : (tail.rewritten lib domain).isSome = true ↔
    ¬ tail.Refused lib ∧ tail.TrackingFit lib := by
  have hgood : (∀ c ∈ tail.items, GoodItem lib c) ↔ _ := goodItem_iff_untracked
  rw [← queryOf_isSome_iff fun c hc => (h.items c hc).1] at hgood
  have hrefused : ¬ tail.Refused lib ↔ (pathOf (pathOrRoot tail.path)).isSome = true ∧
      ∀ c ∈ untracked lib tail.items, GoodItem lib c := by
    rw [Refused, not_or, Option.isSome_iff_ne_none]
    push Not
    rfl
  rw [hrefused, and_assoc, TrackingFit, ← hgood, rewritten, query]
  cases pathOf (pathOrRoot tail.path) with
  | none => simp
  | some path => simp

theorem Same.refused_iff (h : tail.Same lib other) (htail : tail.WellFormed)
    (hother : other.WellFormed) : tail.Refused lib ↔ other.Refused lib := by
  have hpath := h.path.pathOf_eq htail.head hother.head
  have hitems := h.items.untracked_good
  rw [Refused, Refused, hpath]
  refine or_congr Iff.rfl ?_
  rw [← not_iff_not]
  push Not
  exact hitems

/-- Tails of one page that are rewritten are rewritten to the same URL. -/
theorem Same.rewritten_eq (h : tail.Same lib other) (htail : tail.WellFormed)
    (hother : other.WellFormed) (hrefused : ¬ tail.Refused lib) (hfit : tail.TrackingFit lib)
    (hfitOther : other.TrackingFit lib) :
    tail.rewritten lib domain = other.rewritten lib domain := by
  have hgood : ∀ c ∈ untracked lib tail.items, GoodItem lib c := by
    intro c hc
    by_contra hbad
    exact hrefused (.inr ⟨c, hc, hbad⟩)
  have hgoodTail := goodItem_iff_untracked.2 ⟨hgood, hfit⟩
  have hgoodOther := goodItem_iff_untracked.2 ⟨h.items.untracked_good.1 hgood, hfitOther⟩
  have hquery : queryOf lib tail.query = queryOf lib other.query :=
    h.items.queryOf_eq (fun c hc => (htail.items c hc).1) (fun c hc => (hother.items c hc).1)
      hgoodTail hgoodOther
  rw [rewritten, rewritten, h.path.pathOf_eq htail.head hother.head, hquery]

end Tail

end Tails

end SearchTrust.CrossSource

/-
What the two normalizers of pages return for the URLs and the landing paths of a case.
-/
namespace SearchTrust.CrossSource

open SearchTrust.Order
open SearchTrust.Web

variable {lib : PageLibrary} {domain : Text} {tail : Tail}

section Tails

set_option maxRecDepth 20000 in
theorem isHostChar_signs {c : Char} (h : isHostChar c = true) :
    isDelimiter c = false ∧ c ≠ ':' ∧ endsNetloc c = false ∧ c ≠ '[' ∧ c ≠ ']' ∧ c ≠ '%' ∧
      c ≠ '@' ∧ isControl c = false ∧ c ≠ '\\' ∧ isUnsafeByte c = false := by
  have hall : ∀ n ∈ List.range 128, isHostChar (Char.ofNat n) = true →
      isDelimiter (Char.ofNat n) = false ∧ Char.ofNat n ≠ ':' ∧
        endsNetloc (Char.ofNat n) = false ∧ Char.ofNat n ≠ '[' ∧ Char.ofNat n ≠ ']' ∧
        Char.ofNat n ≠ '%' ∧ Char.ofNat n ≠ '@' ∧ isControl (Char.ofNat n) = false ∧
        Char.ofNat n ≠ '\\' ∧ isUnsafeByte (Char.ofNat n) = false := by decide
  have hrange := hall c.toNat (List.mem_range.2 (isHostChar_ascii h).1)
  rw [Char.ofNat_toNat] at hrange
  exact hrange h

/-- The parts of a tail are cut out of its text. -/
theorem Tail.WellFormed.partition (h : tail.WellFormed) :
    '#' ∉ tail.text ∧ Web.partition '?' tail.text = (tail.path, tail.query) := by
  have hhash : '#' ∉ tail.query :=
    Tail.notMem_intercalate (by decide) fun c hc => (h.items c hc).2
  unfold Tail.text
  split
  next hitems =>
    rw [List.append_nil, partition_of_notMem h.path.1, Tail.query, hitems]
    exact ⟨h.path.2, rfl⟩
  next hitems =>
    rw [partition_append_cons h.path.1, List.mem_append, List.mem_cons, not_or, not_or]
    exact ⟨⟨h.path.2, by decide, hhash⟩, rfl⟩

/-- A tail is empty or begins with a sign that ends an authority. -/
theorem Tail.WellFormed.ends (h : tail.WellFormed) :
    tail.text = [] ∨ ∃ c rest, tail.text = c :: rest ∧ endsNetloc c = true := by
  unfold Tail.text
  rcases h.head with hpath | hpath
  · rw [hpath]
    split
    next => exact .inl rfl
    next => exact .inr ⟨'?', tail.query, rfl, by decide⟩
  · right
    cases hcons : tail.path with
    | nil =>
        rw [hcons] at hpath
        cases hpath
    | cons c rest =>
        rw [hcons] at hpath
        obtain rfl : c = '/' := Option.some.inj hpath
        exact ⟨'/', _, rfl, by decide⟩

/-- A character that the guards refuse lets nothing of a tail be rewritten. -/
theorem Tail.rewritten_of_unfit {c : Char} (hmem : c ∈ tail.text) (hne : c ≠ '?')
    (hc : isControl c = true ∨ c = '\\') : tail.rewritten lib domain = none := by
  have hunfit : ∀ {s : Text}, c ∈ s → unfit s = true := by
    intro s hs
    rw [unfit_eq_true_iff]
    intro hfit
    rcases hc with hc | rfl
    · rw [hfit.control c hs] at hc
      cases hc
    · exact hfit.backslash hs
  unfold Tail.text at hmem
  rcases List.mem_append.1 hmem with hpath | hquery
  · have hroot : pathOrRoot tail.path = tail.path := by
      refine if_neg ?_
      rintro hempty
      rw [hempty] at hpath
      cases hpath
    rw [rewritten, hroot, pathOf, if_pos (.inr (hunfit hpath))]
    rfl
  · have hmem : c ∈ tail.query := by
      split at hquery
      next => cases hquery
      next => exact (List.mem_cons.1 hquery).resolve_left hne
    rw [rewritten, queryOf, if_pos (hunfit hmem)]
    cases pathOf (pathOrRoot tail.path) <;> rfl

end Tails

section Splitting

variable {u : UnicodeTables} {ip : IpLibrary} {scheme netloc : Text}

/-- The authority of a URL of a case: a host and a port. -/
def IsAuthority (netloc : Text) : Prop := ∀ c ∈ netloc, isHostChar c = true ∨ c = ':'

theorem notMem_authority {c : Char} (h : IsAuthority netloc) (hc : isHostChar c = false)
    (hcolon : c ≠ ':') : c ∉ netloc := by
  intro hmem
  rcases h c hmem with hhost | rfl
  · rw [hc] at hhost
    cases hhost
  · exact hcolon rfl

theorem bracketsFit_authority (h : IsAuthority netloc) : bracketsFit ip netloc = true := by
  have hopen : '[' ∉ netloc := notMem_authority h (by decide) (by decide)
  have hclose : ']' ∉ netloc := notMem_authority h (by decide) (by decide)
  simp [bracketsFit, hopen, hclose]

theorem checkNetloc_authority (h : IsAuthority netloc) : checkNetloc u netloc = true := by
  rw [checkNetloc, List.all_eq_true]
  intro c hc
  rcases h c hc with hhost | rfl
  · obtain ⟨hdelimiter, hcolon, -⟩ := isHostChar_signs hhost
    rw [u.compat_ascii c (isHostChar_ascii hhost).1]
    simp [hdelimiter, hcolon]
  · simp

theorem splitNetloc_authority (h : IsAuthority netloc) (htail : tail.WellFormed) :
    splitNetloc ('/' :: '/' :: (netloc ++ tail.text)) = (netloc, tail.text) := by
  have hall : ∀ c ∈ netloc, (! endsNetloc c) = true := by
    intro c hc
    rcases h c hc with hhost | rfl
    · rw [(isHostChar_signs hhost).2.2.1]
      rfl
    · rfl
  have hnone : tail.text.takeWhile (! endsNetloc ·) = [] ∧
      tail.text.dropWhile (! endsNetloc ·) = tail.text := by
    rcases htail.ends with hnil | ⟨c, rest, hcons, hends⟩
    · rw [hnil]
      exact ⟨rfl, rfl⟩
    · rw [hcons, List.takeWhile_cons_of_neg (by simp [hends]),
        List.dropWhile_cons_of_neg (by simp [hends])]
      exact ⟨rfl, rfl⟩
  rw [splitNetloc, List.takeWhile_append_of_pos hall, List.dropWhile_append_of_pos hall,
    hnone.1, hnone.2, List.append_nil]

/-- The URL of an authority and a tail is split into them. -/
theorem urlsplit_address (hscheme : scheme = text "http" ∨ scheme = text "https")
    (h : IsAuthority netloc) (htail : tail.WellFormed)
    (hclean : ∀ c ∈ tail.text, isUnsafeByte c = false) :
    urlsplit u ip (scheme ++ ':' :: '/' :: '/' :: (netloc ++ tail.text)) =
      some ⟨scheme, netloc, tail.path, tail.query, []⟩ := by
  obtain ⟨hhash, hparts⟩ := htail.partition
  have hsafe : ∀ c ∈ netloc ++ tail.text, (! isUnsafeByte c) = true := by
    intro c hc
    rcases List.mem_append.1 hc with hc | hc
    · rcases h c hc with hhost | rfl
      · rw [(isHostChar_signs hhost).2.2.2.2.2.2.2.2.2]
        rfl
      · rfl
    · rw [hclean c hc]
      rfl
  have hcleaned : ((scheme ++ ':' :: '/' :: '/' :: (netloc ++ tail.text)).dropWhile
      isControlOrSpace).filter (fun c => ! isUnsafeByte c) =
        scheme ++ ':' :: '/' :: '/' :: (netloc ++ tail.text) := by
    have hdrop : ∀ rest : Text, (scheme ++ rest).dropWhile isControlOrSpace = scheme ++ rest := by
      intro rest
      rcases hscheme with rfl | rfl
      · exact List.dropWhile_cons_of_neg (by decide)
      · exact List.dropWhile_cons_of_neg (by decide)
    have hscheme : ∀ c ∈ scheme, (! isUnsafeByte c) = true := by
      rcases hscheme with rfl | rfl <;> exact List.all_eq_true.1 (by decide)
    rw [hdrop, List.filter_eq_self]
    intro c hc
    rcases List.mem_append.1 hc with hc | hc
    · exact hscheme c hc
    · rw [List.mem_cons, List.mem_cons, List.mem_cons] at hc
      rcases hc with rfl | rfl | rfl | hc
      · rfl
      · rfl
      · rfl
      · exact hsafe c hc
  have hsplit : splitScheme (scheme ++ ':' :: '/' :: '/' :: (netloc ++ tail.text)) =
      (scheme, '/' :: '/' :: (netloc ++ tail.text)) := by
    have hnot : ':' ∉ scheme := by
      rcases hscheme with rfl | rfl <;> decide
    have hname : scheme.head?.any Char.isAlpha = true ∧ scheme.all isSchemeChar = true ∧
        scheme.map Char.toLower = scheme := by
      rcases hscheme with rfl | rfl <;> decide
    rw [splitScheme, partition_append_cons hnot]
    dsimp only
    rw [if_pos ⟨by simp, hname.1, hname.2.1⟩, hname.2.2]
  unfold urlsplit
  dsimp only
  rw [hcleaned, hsplit, splitNetloc_authority h htail, partition_of_notMem hhash, hparts,
    bracketsFit_authority h, checkNetloc_authority h]
  rfl

/-- A landing path is split into its parts, where it begins with one slash. -/
theorem urlsplit_landing {landing : Text}
    (hlanding : landing.filter (fun c => ! isUnsafeByte c) = tail.text)
    (hhead : landing.head? = some '/') (htail : tail.WellFormed)
    (hsingle : ∀ rest, tail.text ≠ '/' :: '/' :: rest) :
    urlsplit u ip landing = some ⟨[], [], tail.path, tail.query, []⟩ := by
  obtain ⟨hhash, hparts⟩ := htail.partition
  have hcleaned : (landing.dropWhile isControlOrSpace).filter (fun c => ! isUnsafeByte c) =
      tail.text := by
    rw [← hlanding]
    cases landing with
    | nil => cases hhead
    | cons c rest =>
        obtain rfl : c = '/' := Option.some.inj hhead
        rw [List.dropWhile_cons_of_neg (by decide)]
  obtain ⟨rest, hrest⟩ : ∃ rest, tail.text = '/' :: rest := by
    rw [← hlanding]
    cases landing with
    | nil => cases hhead
    | cons c rest =>
        obtain rfl : c = '/' := Option.some.inj hhead
        exact ⟨_, List.filter_cons_of_pos (by decide)⟩
  have hscheme : splitScheme tail.text = ([], tail.text) := by
    rw [splitScheme, hrest]
    dsimp only
    rw [if_neg]
    rintro ⟨-, halpha, -⟩
    rw [Web.partition, List.takeWhile_cons_of_pos (by decide)] at halpha
    cases halpha
  have hnetloc : splitNetloc tail.text = ([], tail.text) := by
    rw [splitNetloc]
    exact hsingle
  unfold urlsplit
  dsimp only
  rw [hcleaned, hscheme, hnetloc, partition_of_notMem hhash, hparts,
    bracketsFit_authority fun _ hc => absurd hc List.not_mem_nil,
    checkNetloc_authority fun _ hc => absurd hc List.not_mem_nil]
  rfl

end Splitting

end SearchTrust.CrossSource
