/-
One URL for one page: where the normalizers of the two sources agree, where what they return
stays as it is, and where the spellings of a page do not matter.
-/
import SearchTrust.CrossSource.PageIdentity
import SearchTrust.Web.PublicConnections

namespace SearchTrust.CrossSource

open SearchTrust.Order
open SearchTrust.Web

variable (lib : PageLibrary)

section Landings

/-- A landing path: it begins with a single slash and has no fragment. -/
structure IsLanding (landing : Text) : Prop where
  head : landing.head? = some '/'
  single : ∀ rest, landing ≠ '/' :: '/' :: rest
  fragment : '#' ∉ landing

/-- A landing path without the characters that the URL parser takes out. -/
def cleaned (landing : Text) : Text := landing.filter fun c => ! isUnsafeByte c

/-- The parts that the URL parser makes of a landing path are no path and query of the host,
or are refused. -/
def LandingRefused (landing : Text) : Prop :=
  ∀ parsed, urlsplit lib.unicode lib.ip landing = some parsed → parsed.scheme = [] →
    parsed.netloc = [] → pathOf parsed.path = none ∨ queryOf lib parsed.query = none

/-- A text as a tail. -/
def tailOf (s : Text) : Tail where
  path := (partition '?' s).1
  items := if '?' ∈ s then (partition '?' s).2.splitOn '&' else []

theorem text_tailOf (s : Text) : (tailOf s).text = s := by
  unfold Tail.text Tail.query tailOf
  dsimp only
  by_cases hmem : '?' ∈ s
  · rw [if_pos hmem, if_neg (List.splitOn_ne_nil _ _), List.intercalate_splitOn]
    exact (partition_of_mem hmem).1.symm
  · rw [if_neg hmem, if_pos rfl, partition_of_notMem hmem, List.append_nil]

theorem wellFormed_tailOf {s : Text} (hhead : s.head? = some '/') (hhash : '#' ∉ s) :
    (tailOf s).WellFormed where
  head := by
    right
    cases s with
    | nil => cases hhead
    | cons c rest =>
        obtain rfl : c = '/' := Option.some.inj hhead
        rw [tailOf, partition, List.takeWhile_cons_of_pos (by decide)]
        rfl
  path := by
    refine ⟨fun hmem => ?_, fun hmem => hhash (partition_fst_subset hmem)⟩
    have hne := List.mem_takeWhile_imp hmem
    simp at hne
  items := by
    intro c hc
    unfold tailOf at hc
    dsimp only at hc
    split at hc
    next =>
      obtain ⟨hand, hsubset⟩ := of_mem_splitOn hc
      exact ⟨hand, fun hmem => hhash (partition_snd_subset (hsubset hmem))⟩
    next => cases hc

variable {lib} {landing domain : Text} {tail : Tail}

/-- What the analytics' normalizer returns for a landing path. -/
theorem normalizeGa4Page_eq_none_iff (hhead : landing.head? = some '/')
    (hlength : landing.length ≤ 4096) :
    normalizeGa4Page lib landing domain = none ↔ LandingRefused lib landing := by
  have hset : ¬ (4096 < landing.length ∨ landing = text "(not set)") := by
    rintro (hlong | rfl)
    · omega
    · cases hhead
  rw [normalizeGa4Page, if_neg hset, LandingRefused]
  cases hsplit : urlsplit lib.unicode lib.ip landing with
  | none =>
      refine iff_of_true rfl fun parsed hparsed => ?_
      cases hparsed
  | some parsed =>
      dsimp only
      have hforall : (∀ other, some parsed = some other → other.scheme = [] →
          other.netloc = [] → pathOf other.path = none ∨ queryOf lib other.query = none) ↔
          (parsed.scheme = [] → parsed.netloc = [] →
            pathOf parsed.path = none ∨ queryOf lib parsed.query = none) := by
        constructor
        · exact fun h => h parsed rfl
        · rintro h other heq
          rw [← Option.some.inj heq]
          exact h
      rw [hforall]
      by_cases hparts : parsed.scheme ≠ [] ∨ parsed.netloc ≠ []
      · rw [if_pos hparts]
        refine iff_of_true rfl fun hscheme hnetloc => ?_
        exact absurd hparts (not_or.2 ⟨not_not.2 hscheme, not_not.2 hnetloc⟩)
      · rw [if_neg hparts]
        push Not at hparts
        rw [forall_prop_of_true hparts.1, forall_prop_of_true hparts.2]
        cases pathOf parsed.path with
        | none => simp
        | some path => simp

/-- A landing path whose cleaned text is a tail is rewritten as this tail. -/
theorem normalizeGa4Page_cleaned (hhead : landing.head? = some '/')
    (hcleaned : cleaned landing = tail.text) (htail : tail.WellFormed)
    (hsingle : ∀ rest, tail.text ≠ '/' :: '/' :: rest) :
    normalizeGa4Page lib landing domain =
      if landing.length ≤ 4096 then tail.rewritten lib domain else none := by
  have hroot : pathOrRoot tail.path = tail.path := by
    refine if_neg fun hempty => ?_
    have hfirst : tail.text.head? = some '/' := by
      rw [← hcleaned, cleaned]
      cases landing with
      | nil => cases hhead
      | cons c rest =>
          obtain rfl : c = '/' := Option.some.inj hhead
          rw [List.filter_cons_of_pos (by decide)]
          rfl
    rw [Tail.text, hempty, List.nil_append] at hfirst
    split at hfirst
    · cases hfirst
    · cases hfirst
  by_cases hlength : landing.length ≤ 4096
  · have hset : ¬ (4096 < landing.length ∨ landing = text "(not set)") := by
      rintro (hlong | rfl)
      · omega
      · cases hhead
    rw [normalizeGa4Page, if_neg hset, urlsplit_landing hcleaned hhead htail hsingle,
      if_pos hlength, Tail.rewritten, hroot]
    dsimp only
    rw [if_neg (by simp)]
  · rw [normalizeGa4Page, if_pos (.inl (not_le.1 hlength)), if_neg hlength]

end Landings

section Returned

variable {lib} {value domain returned : Text}

theorem notMem_partition {sep : Char} (s : Text) : sep ∉ (partition sep s).1 := by
  intro hmem
  have hne := List.mem_takeWhile_imp hmem
  simp at hne

/-- The path and the query of a URL that is split hold no sign that would end them. -/
theorem urlsplit_signs {u : UnicodeTables} {ip : IpLibrary} {parsed : SplitResult}
    (h : urlsplit u ip value = some parsed) :
    '?' ∉ parsed.path ∧ '#' ∉ parsed.path ∧ '#' ∉ parsed.query := by
  simp only [urlsplit] at h
  split at h
  next =>
    split at h
    next =>
      obtain rfl := Option.some.inj h
      exact ⟨notMem_partition _, fun hmem => notMem_partition _ (partition_fst_subset hmem),
        fun hmem => notMem_partition _ (partition_snd_subset hmem)⟩
    next => cases h
  next => cases h

theorem hash_notMem_queryOf {s t : Text} (h : queryOf lib s = some t) (hs : '#' ∉ s) : '#' ∉ t := by
  have hsplit : ∀ c ∈ s.splitOn '&', '&' ∉ c := fun c hc => (of_mem_splitOn hc).1
  have hjoin : ['&'].intercalate (s.splitOn '&') = s := List.intercalate_splitOn '&'
  rw [← hjoin] at h
  have hgood := goodItem_of_queryOf hsplit h
  rw [queryOf_intercalate hsplit hgood, Option.some.injEq] at h
  rw [← h]
  refine Tail.notMem_intercalate (by decide) fun item hitem => ?_
  obtain ⟨kept, hkept, rfl⟩ := List.mem_map.1 hitem
  rw [mem_sortedBy] at hkept
  obtain ⟨c, hc, rfl⟩ := List.mem_map.1 hkept
  have hmem := List.mem_of_mem_filter hc
  exact notMem_itemText (by decide) (by decide) (by decide) (by decide) (hgood c hmem).fit
    fun hash => hs ((of_mem_splitOn hmem).2 hash)

/-- A URL that is returned is made of a path and a query that are rewritten to themselves. -/
theorem returned_parts (h : normalizeGscPage lib value domain = some returned ∨
    normalizeGa4Page lib value domain = some returned) :
    ∃ path query, pathOf path = some path ∧ queryOf lib query = some query ∧
      '?' ∉ path ∧ '#' ∉ path ∧ '#' ∉ query ∧ pageUrl lib domain path query = returned := by
  have hparts : ∃ parsed path', urlsplit lib.unicode lib.ip value = some parsed ∧
      (path' = parsed.path ∨ path' = ['/']) ∧ ((pathOf path').bind fun path =>
        (queryOf lib parsed.query).map fun query => pageUrl lib domain path query) =
          some returned := by
    rcases h with h | h
    · unfold normalizeGscPage at h
      split at h
      next => cases h
      next =>
        split at h
        next => cases h
        next parsed hsplit =>
          split at h
          next => cases h
          next =>
            dsimp only at h
            split at h
            next => cases h
            next =>
              split at h
              next => cases h
              next =>
                refine ⟨parsed, _, hsplit, ?_, h⟩
                split
                next => exact .inr rfl
                next => exact .inl rfl
    · unfold normalizeGa4Page at h
      split at h
      next => cases h
      next =>
        split at h
        next => cases h
        next parsed hsplit =>
          split at h
          next => cases h
          next => exact ⟨parsed, parsed.path, hsplit, .inl rfl, h⟩
  obtain ⟨parsed, path', hsplit, hpath', h⟩ := hparts
  obtain ⟨path, hpath, h⟩ := Option.bind_eq_some_iff.1 h
  obtain ⟨query, hquery, h⟩ := Option.map_eq_some_iff.1 h
  obtain ⟨hmark, hhash, hhashQuery⟩ := urlsplit_signs hsplit
  obtain ⟨-, -, -, hclean⟩ := pathOf_clean hpath
  have hsigns : '?' ∉ path' ∧ '#' ∉ path' := by
    rcases hpath' with rfl | rfl
    · exact ⟨hmark, hhash⟩
    · decide
  exact ⟨path, query, pathOf_pathOf hpath, queryOf_queryOf hquery,
    hclean '?' (by decide) (by decide) (by decide) hsigns.1,
    hclean '#' (by decide) (by decide) (by decide) hsigns.2,
    hash_notMem_queryOf hquery hhashQuery, h⟩

/-- A URL that is returned is a spelling of its page, and is what this is rewritten to. -/
theorem returned_spelling (h : normalizeGscPage lib value domain = some returned ∨
    normalizeGa4Page lib value domain = some returned) :
    ∃ s : Spelling, s.www = false ∧ s.tail.WellFormed ∧ s.url lib domain = returned ∧
      s.tail.rewritten lib domain = some returned := by
  obtain ⟨path, query, hpath, hquery, hmark, hhash, hhashQuery, hreturned⟩ := returned_parts h
  obtain ⟨hhead, -⟩ := pathOf_clean hpath
  have hne : path ≠ [] := by
    rintro rfl
    cases hhead
  let tail : Tail := ⟨path, if query = [] then [] else query.splitOn '&'⟩
  have htailQuery : tail.query = query := by
    change ['&'].intercalate (if query = [] then [] else query.splitOn '&') = query
    split
    next hempty => rw [hempty, List.intercalate_nil]
    next => exact List.intercalate_splitOn '&'
  have hitems : tail.items = [] ↔ query = [] := by
    change (if query = [] then [] else query.splitOn '&') = [] ↔ query = []
    split
    next hempty => exact iff_of_true rfl hempty
    next hquery => exact iff_of_false (List.splitOn_ne_nil _ _) hquery
  have htext : tail.text = path ++ if query = [] then [] else '?' :: query := by
    rw [Tail.text, htailQuery]
    simp only [hitems]
    rfl
  refine ⟨⟨true, false, false, tail⟩, rfl, ⟨.inr hhead, ⟨hmark, hhash⟩, ?_⟩, ?_, ?_⟩
  · intro c hc
    change c ∈ (if query = [] then [] else query.splitOn '&') at hc
    split at hc
    next => cases hc
    next =>
      obtain ⟨hand, hsubset⟩ := of_mem_splitOn hc
      exact ⟨hand, fun hmem => hhashQuery (hsubset hmem)⟩
  · rw [← hreturned, pageUrl, urlunsplit, if_neg fun hslash => hslash.2 hhead]
    change text "https" ++ ':' :: '/' :: '/' :: ((hostOf lib domain ++ []) ++ tail.text) = _
    rw [htext, List.append_nil]
    simp only [List.append_assoc, List.cons_append]
  · rw [Tail.rewritten, htailQuery, hquery, pathOrRoot]
    change (pathOf (if path = [] then ['/'] else path)).bind _ = _
    rw [if_neg hne, hpath, ← hreturned]
    rfl

end Returned

section Contract

/-- A landing path that is a spelling of a page: short enough, and with tracking that is
well formed. -/
def LandingReaches (landing : Text) (tail : Tail) : Prop :=
  landing.length ≤ 4096 ∧ tail.TrackingFit lib

variable {lib} {landing domain : Text}

/-- Guarded rewritings of two tails of one page. -/
theorem rewritten_eq_iff {tail other : Tail} (h : tail.Same lib other) (htail : tail.WellFormed)
    (hother : other.WellFormed) (p q : Prop) [Decidable p] [Decidable q] :
    ((if p then tail.rewritten lib domain else none) =
        if q then other.rewritten lib domain else none) ↔
      tail.Refused lib ∨ (p ∧ tail.TrackingFit lib ↔ q ∧ other.TrackingFit lib) := by
  have hsome : ∀ {t : Tail} {r : Prop} [Decidable r], t.WellFormed → ¬ t.Refused lib →
      ((if r then t.rewritten lib domain else none).isSome = true ↔ r ∧ t.TrackingFit lib) := by
    intro t r _ ht hrefused
    have hiff : (t.rewritten lib domain).isSome = true ↔ _ := Tail.rewritten_isSome_iff ht
    split
    next hr => simp [hiff, hr, hrefused]
    next hr => simp [hr]
  by_cases hrefused : tail.Refused lib
  · have hnone : ∀ {t : Tail}, t.WellFormed → t.Refused lib → t.rewritten lib domain = none := by
      intro t ht hrefused
      by_contra hne
      exact ((Tail.rewritten_isSome_iff ht).1 (Option.isSome_iff_ne_none.2 hne)).1 hrefused
    rw [hnone htail hrefused, hnone hother ((h.refused_iff htail hother).1 hrefused), ite_self,
      ite_self]
    exact iff_of_true rfl (.inl hrefused)
  · have hrefusedOther := fun hr => hrefused ((h.refused_iff htail hother).2 hr)
    constructor
    · intro heq
      right
      rw [← hsome htail hrefused, ← hsome hother hrefusedOther, heq]
    · rintro (hr | hiff)
      · exact absurd hr hrefused
      · by_cases hp : p ∧ tail.TrackingFit lib
        · have hq := hiff.1 hp
          rw [if_pos hp.1, if_pos hq.1]
          exact h.rewritten_eq htail hother hrefused hp.2 hq.2
        · have hnone : ∀ {o : Option Text}, ¬ o.isSome = true → o = none := by
            intro o ho
            rwa [Bool.not_eq_true, Option.isSome_eq_false_iff, Option.isNone_iff_eq_none] at ho
          rw [hnone fun ho => hp ((hsome htail hrefused).1 ho),
            hnone fun ho => hp (hiff.2 ((hsome hother hrefusedOther).1 ho))]

theorem cleaned_eq (h : ∀ c ∈ landing, isUnsafeByte c = false) : cleaned landing = landing :=
  List.filter_eq_self.2 fun c hc => by rw [h c hc]; rfl

/-- The URL of a landing path. -/
theorem landing_url (s : Text) : Spelling.url lib ⟨true, false, false, tailOf s⟩ domain =
    text "https://" ++ hostOf lib domain ++ s := by
  change text "https" ++ ':' :: '/' :: '/' :: ((hostOf lib domain ++ []) ++ (tailOf s).text) = _
  rw [text_tailOf, List.append_nil]
  rfl

theorem isControl_of_isUnsafeByte {c : Char} (h : isUnsafeByte c = true) : isControl c = true := by
  have hcases : c = '\t' ∨ c = '\r' ∨ c = '\n' := by
    simpa [isUnsafeByte, or_assoc] using h
  rcases hcases with rfl | rfl | rfl <;> decide

/-- The two normalizers agree on a landing path where it is refused, or where the host is plain
and the parser takes nothing out. -/
theorem landing_agrees_iff (hd : IsDomain lib domain) (h : IsLanding landing)
    (hlength : (text "https://" ++ hostOf lib domain ++ landing).length ≤ 4096) :
    normalizeGa4Page lib landing domain =
        normalizeGscPage lib (text "https://" ++ hostOf lib domain ++ landing) domain ↔
      LandingRefused lib landing ∨ Plain lib domain ∧ ∀ c ∈ landing, isUnsafeByte c = false := by
  have hshort : landing.length ≤ 4096 := by
    rw [List.length_append] at hlength
    omega
  have hnone : normalizeGa4Page lib landing domain = none ↔ LandingRefused lib landing :=
    normalizeGa4Page_eq_none_iff h.head hshort
  rw [← hnone]
  by_cases hclean : ∀ c ∈ landing, isUnsafeByte c = false
  · have htail := wellFormed_tailOf h.head h.fragment
    have hga4 : normalizeGa4Page lib landing domain = _ := normalizeGa4Page_cleaned h.head
      ((cleaned_eq hclean).trans (text_tailOf landing).symm) htail
      (by rw [text_tailOf]; exact h.single)
    have hgsc := normalizeGscPage_url (s := ⟨true, false, false, tailOf landing⟩) hd htail
    rw [landing_url] at hgsc
    rw [if_pos hshort] at hga4
    rw [hga4, hgsc]
    by_cases hplain : Plain lib domain
    · rw [if_pos ⟨hlength, .inr hplain⟩]
      exact iff_of_true rfl (.inr ⟨hplain, hclean⟩)
    · rw [if_neg fun hcond => hcond.2.elim Bool.false_ne_true hplain]
      exact ⟨.inl, fun hcond => hcond.resolve_right fun hboth => hplain hboth.1⟩
  · have hgsc : normalizeGscPage lib (text "https://" ++ hostOf lib domain ++ landing) domain =
        none := by
      push Not at hclean
      obtain ⟨c, hc, hunsafe⟩ := hclean
      have hcontrol := isControl_of_isUnsafeByte (eq_true_of_ne_false hunsafe)
      have hmem : c ∈ text "https://" ++ hostOf lib domain ++ landing :=
        List.mem_append_right _ hc
      rw [normalizeGscPage, if_pos (.inr (.inl (List.any_eq_true.2 ⟨c, hmem, hcontrol⟩)))]
    rw [hgsc]
    exact ⟨.inl, fun hcond => hcond.resolve_right fun hboth => hclean hboth.2⟩

/-- A URL that is returned is a fixed point where the host is plain and it is short enough. -/
theorem returned_fixed_iff {value returned : Text} (hd : IsDomain lib domain)
    (h : normalizeGscPage lib value domain = some returned ∨
      normalizeGa4Page lib value domain = some returned) :
    normalizeGscPage lib returned domain = some returned ↔
      Plain lib domain ∧ returned.length ≤ 4096 := by
  obtain ⟨s, hwww, htail, hurl, hrewritten⟩ := returned_spelling h
  have hgsc := normalizeGscPage_url hd htail
  rw [hurl, hrewritten, hwww] at hgsc
  rw [hgsc]
  by_cases hcond : returned.length ≤ 4096 ∧ Plain lib domain
  · rw [if_pos ⟨hcond.1, .inr hcond.2⟩]
    exact iff_of_true rfl hcond.symm
  · rw [if_neg fun hor => hcond ⟨hor.1, hor.2.resolve_left Bool.false_ne_true⟩]
    exact iff_of_false (fun heq => by cases heq) fun hboth => hcond hboth.symm

theorem asciiTables_lower (s : Text) (_ : ∀ c ∈ s, isAscii c = true) :
    asciiTables.lower s = s.map Char.toLower :=
  rfl

theorem asciiByte_decoded (s : Text) (hs : ∀ c ∈ s, isAscii c = true) :
    (if (s.map asciiByte).all (· < 128) then
      some ((s.map asciiByte).map fun b => Char.ofNat b.toNat) else none) = some s := by
  have hbyte : ∀ c ∈ s, asciiByte c < 128 ∧ Char.ofNat (asciiByte c).toNat = c := by
    intro c hc
    have hlt : c.toNat < 128 := of_decide_eq_true (hs c hc)
    have hnat : (asciiByte c).toNat = c.toNat := by
      rw [asciiByte, UInt8.toNat_ofNat']
      omega
    refine ⟨UInt8.lt_iff_toNat_lt.2 ?_, by rw [hnat, Char.ofNat_toNat]⟩
    rw [hnat]
    exact hlt
  refine (if_pos ?_).trans ?_
  · rw [List.all_map, List.all_eq_true]
    exact fun c hc => decide_eq_true (hbyte c hc).1
  · rw [List.map_map]
    exact congrArg some ((List.map_congr_left fun c hc => (hbyte c hc).2).trans (List.map_id _))

/-- Libraries of ASCII texts. -/
def samplePages : PageLibrary where
  unicode := asciiTables
  ip := sampleAddresses
  decode bytes :=
    if bytes.all (· < 128) then some (bytes.map fun b : UInt8 => Char.ofNat b.toNat) else none
  lower_ascii := asciiTables_lower
  decode_ascii := asciiByte_decoded

theorem isDomain_sample : IsDomain samplePages (text "www.example.com") where
  chars := List.all_iff_forall_prop.1 (by decide)
  host := by decide

/-- A path with a tab in it is a page of the analytics and none of the search console. -/
theorem landing_with_tab : ¬ ∀ landing, IsLanding landing →
    (text "https://" ++ hostOf samplePages (text "www.example.com") ++ landing).length ≤ 4096 →
    normalizeGa4Page samplePages landing (text "www.example.com") =
      normalizeGscPage samplePages
        (text "https://" ++ hostOf samplePages (text "www.example.com") ++ landing)
        (text "www.example.com") := by
  intro h
  have hlanding : IsLanding (text "/a\tb") := by
    refine ⟨by decide, fun rest heq => ?_, by decide⟩
    have hsecond := (List.cons.inj (List.cons.inj heq).2).1
    exact absurd hsecond (by decide)
  have heq := h (text "/a\tb") hlanding (by decide)
  revert heq
  decide

/-- The identity of a page.  A landing path and the URL of it get the same result exactly
where the path is refused, or the host has no second "www." and the path holds none of the
characters that the URL parser takes out; what is returned stays as it is exactly where the
host has no second "www." and it is short enough; and two spellings of one page get the same
result exactly where the page is refused or both reach it or neither does. -/
theorem page_identity {domain : Text} (hd : IsDomain lib domain) :
    (∀ landing, IsLanding landing →
      (text "https://" ++ hostOf lib domain ++ landing).length ≤ 4096 →
      (normalizeGa4Page lib landing domain =
          normalizeGscPage lib (text "https://" ++ hostOf lib domain ++ landing) domain ↔
        LandingRefused lib landing ∨
          Plain lib domain ∧ ∀ c ∈ landing, isUnsafeByte c = false)) ∧
    (∀ value returned, (normalizeGscPage lib value domain = some returned ∨
        normalizeGa4Page lib value domain = some returned) →
      (normalizeGscPage lib returned domain = some returned ↔
        Plain lib domain ∧ returned.length ≤ 4096)) ∧
    (∀ s t : Spelling, s.tail.WellFormed → t.tail.WellFormed → s.tail.Same lib t.tail →
      (normalizeGscPage lib (s.url lib domain) domain =
          normalizeGscPage lib (t.url lib domain) domain ↔
        s.tail.Refused lib ∨ (s.Reaches lib domain ↔ t.Reaches lib domain))) ∧
    (∀ landing other, IsLanding landing → IsLanding other → ∀ tail otherTail : Tail,
      cleaned landing = tail.text → cleaned other = otherTail.text →
      tail.WellFormed → otherTail.WellFormed → tail.Same lib otherTail →
      (∀ rest, tail.text ≠ '/' :: '/' :: rest) → (∀ rest, otherTail.text ≠ '/' :: '/' :: rest) →
      (normalizeGa4Page lib landing domain = normalizeGa4Page lib other domain ↔
        tail.Refused lib ∨
          (LandingReaches lib landing tail ↔ LandingReaches lib other otherTail))) := by
  refine ⟨fun landing h hlength => landing_agrees_iff hd h hlength,
    fun value returned h => returned_fixed_iff hd h, fun s t hs ht hsame => ?_,
    fun landing other h hother tail otherTail hcleaned hcleanedOther htail hotherTail hsame
      hsingle hsingleOther => ?_⟩
  · rw [normalizeGscPage_url hd hs, normalizeGscPage_url hd ht, rewritten_eq_iff hsame hs ht,
      Spelling.Reaches, Spelling.Reaches, and_assoc, and_assoc]
  · rw [normalizeGa4Page_cleaned h.head hcleaned htail hsingle,
      normalizeGa4Page_cleaned hother.head hcleanedOther hotherTail hsingleOther]
    exact rewritten_eq_iff hsame htail hotherTail _ _

/-- Two spellings of one page, with the items in another order and tracking in one of them. -/
theorem page_identity_sample :
    normalizeGa4Page samplePages (text "/a%2fb/?x=1") (text "www.example.com") =
      normalizeGscPage samplePages (text "https://example.com/a%2fb/?x=1")
        (text "www.example.com") ∧
    normalizeGscPage samplePages (text "https://example.com/a%2Fb?x=1") (text "www.example.com") =
      some (text "https://example.com/a%2Fb?x=1") ∧
    normalizeGscPage samplePages (text "http://www.example.com:80/a%2fb/?utm_id=7&x=1")
        (text "www.example.com") =
      normalizeGscPage samplePages (text "https://example.com/a%2Fb?x=1")
        (text "www.example.com") := by
  obtain ⟨hlanding, hfixed, hspellings, -⟩ := page_identity isDomain_sample
  have hplain : Plain samplePages (text "www.example.com") := by decide
  refine ⟨(hlanding (text "/a%2fb/?x=1") ⟨by decide, fun rest heq => ?_, by decide⟩
    (by decide)).2
    (.inr ⟨hplain, List.all_iff_forall_prop.1 (by decide)⟩), ?_, ?_⟩
  · exact absurd (List.cons.inj (List.cons.inj heq).2).1 (by decide)
  · refine (hfixed (text "http://www.example.com/a%2fb/?x=1") _ (.inl (by decide))).2 ?_
    exact ⟨hplain, by decide⟩
  · refine (hspellings ⟨false, true, true, ⟨text "/a%2fb/", [text "utm_id=7", text "x=1"]⟩⟩
      ⟨true, false, false, ⟨text "/a%2Fb", [text "x=1"]⟩⟩ ⟨.inr (by decide), by decide, by decide⟩
      ⟨.inr (by decide), by decide, by decide⟩ ⟨?_, [text "x=1"], ?_, ?_⟩).2 (.inr ?_)
    · unfold SamePath SameEscapes
      decide
    · have huntracked : untracked samplePages [text "utm_id=7", text "x=1"] = [text "x=1"] := by
        decide
      rw [huntracked]
    · have huntracked : untracked samplePages [text "x=1"] = [text "x=1"] := by decide
      rw [huntracked]
      exact .cons rfl .nil
    · refine iff_of_true ⟨by decide, .inr hplain, fun c hc _ => ?_⟩
        ⟨by decide, .inr hplain, fun c hc _ => ?_⟩
      · rw [← unfit_eq_false_iff]
        revert c
        decide
      · rw [← unfit_eq_false_iff]
        revert c
        decide

/-- Where every percent sign begins an escape, decoding the unreserved ones is done after
one pass, keeps what the text decodes to, and never makes it longer. -/
theorem decodeUnreserved_settles {decode : List UInt8 → Option Text} (hdecode : DecodesAscii decode)
    {s : Text} (h : SoundText s) :
    decodeUnreserved (decodeUnreserved s) = decodeUnreserved s ∧
      unquoteStrict decode (decodeUnreserved s) = unquoteStrict decode s ∧
      (decodeUnreserved s).length ≤ s.length := by
  rw [decodeUnreserved_eq, decodeUnreserved_eq]
  exact ⟨normalText_normalText h, unquoteStrict_normalText hdecode h, length_normalText_le s⟩

theorem decodeUnreserved_settles_sample :
    decodeUnreserved (text "/%7Ea%2f") = text "/~a%2F" ∧
      unquoteStrict samplePages.decode (text "/~a%2F") =
        unquoteStrict samplePages.decode (text "/%7Ea%2f") := by
  have hsample : decodeUnreserved (text "/%7Ea%2f") = text "/~a%2F" := by decide
  have hsound : SoundText (text "/%7Ea%2f") := by
    intro p hp
    rcases p with c | ⟨a, b⟩
    · rintro rfl
      revert hp
      decide
    · exact isHex_of_mem_pieces hp
  refine ⟨hsample, ?_⟩
  rw [← hsample]
  exact (decodeUnreserved_settles samplePages.decode_ascii hsound).2.1

end Contract

end SearchTrust.CrossSource
