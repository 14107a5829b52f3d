/-
The form of a URL that is checked and the form that is requested agree: the HTTP
client reads back the scheme and the port that `_parse_url` has allowed.
-/
import Mathlib.Tactic.IntervalCases
import SearchTrust.Web.Urls

namespace SearchTrust.Web

section Delimiters

theorem isDelimiter_iff {c : Char} :
    isDelimiter c = true ↔ c = '/' ∨ c = '?' ∨ c = '#' ∨ c = '@' := by
  simp [isDelimiter, or_assoc]

theorem endsNetloc_iff {c : Char} : endsNetloc c = true ↔ c = '/' ∨ c = '?' ∨ c = '#' := by
  simp [endsNetloc, or_assoc]

/-- Lower case makes letters of letters. -/
theorem isDelimiter_toLower {c : Char} (h : isDelimiter c.toLower = true) :
    isDelimiter c = true := by
  by_cases hupper : c.val ≥ 'A'.val ∧ c.val ≤ 'Z'.val
  · exfalso
    have hlow : 65 ≤ c.toNat := by
      have := UInt32.le_iff_toNat_le.1 hupper.1
      simpa using this
    have hhigh : c.toNat ≤ 90 := by
      have := UInt32.le_iff_toNat_le.1 hupper.2
      simpa using this
    have hn : ∃ n, n ≤ 90 ∧ 65 ≤ n ∧ c = Char.ofNat n :=
      ⟨c.toNat, hhigh, hlow, (Char.ofNat_toNat c).symm⟩
    obtain ⟨n, hle, hge, rfl⟩ := hn
    interval_cases n <;> revert h <;> decide
  · delta Char.toLower at h
    rwa [dif_neg hupper] at h

end Delimiters

variable {lib : Libraries} {value : Text}

/-- The bounds on a parsed URL that the request relies on. -/
structure ParsedUrl.Checked (p : ParsedUrl) : Prop where
  scheme : p.scheme = text "http" ∨ p.scheme = text "https"
  hostname : ∀ c ∈ p.hostname, isDelimiter c = false
  port : p.port ∈ allowedPorts
  implicit : p.explicitPort = false → p.port = defaultPort p.scheme

theorem defaultPort_mem (scheme : Text) : defaultPort scheme ∈ allowedPorts := by
  unfold defaultPort
  split <;> decide

section Parsing

variable {split : SplitResult}

theorem afterLast_subset {c sep : Char} {s : Text} (h : c ∈ afterLast sep s) : c ∈ s :=
  (List.rtakeWhile_suffix _ _).subset h

theorem hostinfo_fst_subset {c : Char} (h : c ∈ split.hostinfo.1) : c ∈ split.netloc := by
  simp only [SplitResult.hostinfo] at h
  split at h
  next =>
    have hinner := partition_fst_subset h
    exact afterLast_subset (partition_snd_subset hinner)
  next => exact afterLast_subset (partition_fst_subset h)

/-- A delimiter of the host name is a delimiter, after NFKC, of the network location. -/
theorem hostname_delimiter {u : UnicodeTables} {c d : Char}
    (h : c ∈ split.hostname u) (hd : d ∈ u.compat c) (hdelimiter : isDelimiter d = true) :
    ∃ b ∈ split.netloc, d ∈ u.compat b := by
  have hlower : ∀ c, c ∈ u.lower (partition '%' split.hostinfo.1).1 → d ∈ u.compat c →
      ∃ b ∈ split.netloc, d ∈ u.compat b := by
    intro c hc hd
    obtain ⟨b, hb, hdb⟩ := u.lower_delimiter _ _ _ hc hd hdelimiter
    exact ⟨b, hostinfo_fst_subset (partition_fst_subset hb), hdb⟩
  simp only [SplitResult.hostname] at h
  split at h
  next hzone =>
    rcases List.mem_append.1 h with h | h
    · exact hlower c h hd
    · rcases List.mem_cons.1 h with rfl | h
      · exact ⟨'%', hostinfo_fst_subset hzone, hd⟩
      · exact ⟨c, hostinfo_fst_subset (partition_snd_subset h), hd⟩
  next => exact hlower c h hd

/-- A location without user information that passes `_checknetloc` has no delimiter. -/
theorem compat_not_delimiter {u : UnicodeTables} {netloc : Text}
    (hends : ∀ c ∈ netloc, endsNetloc c = false) (hchecked : checkNetloc u netloc = true)
    (hplain : '@' ∉ netloc) {b d : Char} (hb : b ∈ netloc) (hd : d ∈ u.compat b) :
    isDelimiter d = false := by
  have hcase := List.all_eq_true.1 hchecked b hb
  simp only [Bool.or_eq_true, decide_eq_true_eq, List.all_eq_true, Bool.not_eq_true',
    Bool.or_eq_false_iff, decide_eq_false_iff_not] at hcase
  rcases hcase with (((rfl | rfl) | rfl) | rfl) | hall
  · exact absurd hb hplain
  · rw [u.compat_ascii ':' (by decide)] at hd
    obtain rfl := List.mem_singleton.1 hd
    decide
  · exact absurd (hends '#' hb) (by decide)
  · exact absurd (hends '?' hb) (by decide)
  · exact (hall d hd).1

theorem parsedHostname_checked {hostname : Text}
    (hends : ∀ c ∈ split.netloc, endsNetloc c = false)
    (hchecked : checkNetloc lib.unicode split.netloc = true)
    (hplain : '@' ∉ split.netloc) (h : parsedHostname lib split = .ok hostname) :
    ∀ c ∈ hostname, isDelimiter c = false := by
  unfold parsedHostname at h
  dsimp only at h
  split at h
  next => cases h
  next =>
    split at h
    next => cases h
    next encoded hencoded =>
      obtain rfl := Except.ok.inj h
      intro c hc
      obtain ⟨e, he, rfl⟩ := List.mem_map.1 hc
      by_contra hdelimiter
      have hraw : isDelimiter e = true := isDelimiter_toLower (by simpa using hdelimiter)
      obtain ⟨a, ha, hea⟩ := lib.unicode.idna_delimiter _ _ _ hencoded he hraw
      obtain ⟨b, hb, heb⟩ := hostname_delimiter (strip_subset (rstripDots_subset ha)) hea hraw
      have hfalse := compat_not_delimiter hends hchecked hplain hb heb
      rw [hfalse] at hraw
      cases hraw

/-- What a URL that parses is known to be. -/
theorem parseUrl_checked {p : ParsedUrl} (h : parseUrl lib value = .ok p) : p.Checked := by
  unfold parseUrl at h
  split at h
  next => cases h
  next split hsplit =>
    obtain ⟨hends, hchecked⟩ := urlsplit_netloc hsplit
    split at h
    next => cases h
    next hscheme =>
      split at h
      next => cases h
      next huser =>
        have hplain : '@' ∉ split.netloc := by simpa [SplitResult.hasUserinfo] using huser
        cases hhost : parsedHostname lib split with
        | error e => rw [hhost] at h; cases h
        | ok hostname =>
            rw [hhost] at h
            change (if isBlockedHostname hostname = true then _ else _) = _ at h
            split at h
            next => cases h
            next =>
              split at h
              next => cases h
              next parsedPort hport =>
                dsimp only at h
                split at h
                next => cases h
                next hallowed =>
                  cases hdirect : checkDirectAddress lib hostname with
                  | error e => rw [hdirect] at h; cases h
                  | ok _ =>
                      rw [hdirect] at h
                      obtain rfl := Except.ok.inj h
                      refine ⟨?_, parsedHostname_checked hends hchecked hplain hhost, ?_, ?_⟩
                      · by_contra hno
                        exact hscheme ⟨fun h => hno (Or.inl h), fun h => hno (Or.inr h)⟩
                      · cases parsedPort with
                        | none => exact defaultPort_mem _
                        | some port =>
                            simpa using hallowed
                      · intro himplicit
                        cases parsedPort with
                        | none => rfl
                        | some port => cases himplicit

end Parsing

section Origin

/-- What follows the host in an authority. -/
def ParsedUrl.portSuffix (p : ParsedUrl) : Text :=
  if p.explicitPort ∧ p.port ≠ defaultPort p.scheme then ':' :: portText p.port else []

def ParsedUrl.hostPart (p : ParsedUrl) : Text :=
  if ':' ∈ p.hostname then '[' :: p.hostname ++ [']'] else p.hostname

theorem ParsedUrl.authority_eq (p : ParsedUrl) : p.authority = p.hostPart ++ p.portSuffix := by
  unfold authority hostPart portSuffix
  dsimp only
  split <;> split <;> simp

variable {p : ParsedUrl}

theorem ParsedUrl.Checked.portSuffix_cases (hp : p.Checked) :
    p.portSuffix = [] ∧ p.port = defaultPort p.scheme ∨
      p.portSuffix = text ":80" ∧ p.port = 80 ∨ p.portSuffix = text ":443" ∧ p.port = 443 := by
  unfold portSuffix
  split
  next =>
    rcases List.mem_pair.1 hp.port with hport | hport <;> rw [hport]
    · exact Or.inr (Or.inl ⟨rfl, rfl⟩)
    · exact Or.inr (Or.inr ⟨rfl, rfl⟩)
  next hdefault =>
    refine Or.inl ⟨rfl, ?_⟩
    by_cases hexplicit : p.explicitPort = true
    · by_contra hne
      exact hdefault ⟨hexplicit, hne⟩
    · exact hp.implicit (by simpa using hexplicit)

/-- The client reads the allowed port back. -/
theorem ParsedUrl.Checked.portOf_suffix (hp : p.Checked) :
    UrlClient.portOf p.scheme p.portSuffix = some p.port := by
  rcases hp.portSuffix_cases with ⟨hs, hport⟩ | ⟨hs, hport⟩ | ⟨hs, hport⟩ <;> rw [hs, hport]
  · rfl
  · rfl
  · rfl

theorem ParsedUrl.Checked.not_mem_suffix (hp : p.Checked) {c : Char}
    (hc : c ≠ ':' ∧ c ≠ '8' ∧ c ≠ '0' ∧ c ≠ '4' ∧ c ≠ '3') : c ∉ p.portSuffix := by
  obtain ⟨h1, h2, h3, h4, h5⟩ := hc
  rcases hp.portSuffix_cases with ⟨hs, -⟩ | ⟨hs, -⟩ | ⟨hs, -⟩ <;> rw [hs] <;>
    simp [text, h1, h2, h3, h4, h5]

theorem ParsedUrl.Checked.not_mem_authority (hp : p.Checked) {c : Char}
    (hc : isDelimiter c = true) : c ∉ p.authority := by
  have hne : c ≠ ':' ∧ c ≠ '8' ∧ c ≠ '0' ∧ c ≠ '4' ∧ c ≠ '3' ∧ c ≠ '[' ∧ c ≠ ']' := by
    rcases isDelimiter_iff.1 hc with rfl | rfl | rfl | rfl <;> decide
  obtain ⟨h1, h2, h3, h4, h5, h6, h7⟩ := hne
  have hhost : c ∉ p.hostname := by
    intro hmem
    rw [hp.hostname c hmem] at hc
    cases hc
  rw [p.authority_eq, List.mem_append, not_or]
  refine ⟨?_, hp.not_mem_suffix ⟨h1, h2, h3, h4, h5⟩⟩
  unfold hostPart
  split
  · simp [h6, h7, hhost]
  · exact hhost

theorem rdropWhile_append_cons {c : Char} {s : Text} (h : c ∉ s) (l : Text) :
    (l ++ c :: s).rdropWhile (· ≠ c) = l ++ [c] := by
  have hpos : ∀ x ∈ s.reverse, decide (x ≠ c) = true := by
    intro x hx
    rw [decide_eq_true_eq]
    rintro rfl
    exact h (List.mem_reverse.1 hx)
  rw [List.rdropWhile, List.reverse_append, List.reverse_cons, List.append_assoc,
    List.dropWhile_append_of_pos hpos]
  simp

theorem rtakeWhile_append_cons {c : Char} {s : Text} (h : c ∉ s) (l : Text) :
    (l ++ c :: s).rtakeWhile (· ≠ c) = s := by
  have hpos : ∀ x ∈ s.reverse, decide (x ≠ c) = true := by
    intro x hx
    rw [decide_eq_true_eq]
    rintro rfl
    exact h (List.mem_reverse.1 hx)
  rw [List.rtakeWhile, List.reverse_append, List.reverse_cons, List.append_assoc,
    List.takeWhile_append_of_pos hpos]
  simp

theorem exists_last_of_mem {c : Char} {s : Text} (h : c ∈ s) :
    ∃ before after, s = before ++ c :: after ∧ c ∉ after := by
  obtain ⟨after, before, hsplit, hafter⟩ :=
    List.eq_append_cons_of_mem (List.mem_reverse.2 h)
  refine ⟨before.reverse, after.reverse, ?_, by simpa using hafter⟩
  rw [← s.reverse_reverse, hsplit]
  simp

/-- Without the separator, the text behind the last one is the whole text. -/
theorem afterLast_of_not_mem {sep : Char} {s : Text} (h : sep ∉ s) : afterLast sep s = s := by
  rw [afterLast, List.rtakeWhile_eq_self_iff]
  intro c hc
  rw [decide_eq_true_eq]
  rintro rfl
  exact h hc

theorem rdropWhile_of_not_mem {sep : Char} {s : Text} (h : sep ∉ s) :
    s.rdropWhile (· ≠ sep) = [] := by
  rw [List.rdropWhile_eq_nil_iff]
  intro c hc
  rw [decide_eq_true_eq]
  rintro rfl
  exact h hc

/-- The host that the client takes from the authority, and the port behind it. -/
theorem ParsedUrl.Checked.splitHost_cases (hp : p.Checked) :
    (UrlClient.splitHost p.authority).2 = p.portSuffix ∨
      ∃ inner : Text, (UrlClient.splitHost p.authority).1 = '[' :: inner ++ [']'] ∧
        inner.length < p.hostname.length := by
  have hbracket : ']' ∉ p.portSuffix := hp.not_mem_suffix (by decide)
  rw [p.authority_eq]
  by_cases hcolon : ':' ∈ p.hostname
  · refine Or.inl ?_
    have hpart : p.hostPart ++ p.portSuffix = '[' :: (p.hostname ++ ']' :: p.portSuffix) := by
      simp [hostPart, hcolon]
    rw [hpart]
    have hmem : ']' ∈ p.hostname ++ ']' :: p.portSuffix := by simp
    simp only [UrlClient.splitHost, hmem, ↓reduceIte]
    exact rtakeWhile_append_cons hbracket _
  · have hpart : p.hostPart = p.hostname := by simp [hostPart, hcolon]
    rw [hpart]
    have hplain : (p.hostname ++ p.portSuffix).dropWhile (· ≠ ':') = p.portSuffix := by
      have hpos : ∀ x ∈ p.hostname, decide (x ≠ ':') = true := by
        intro x hx
        rw [decide_eq_true_eq]
        rintro rfl
        exact hcolon hx
      rw [List.dropWhile_append_of_pos hpos]
      rcases hp.portSuffix_cases with ⟨hs, -⟩ | ⟨hs, -⟩ | ⟨hs, -⟩ <;> rw [hs] <;> rfl
    unfold UrlClient.splitHost
    split
    next rest hrest =>
      split
      next hmem =>
        -- The host name itself starts with a bracket, which the client strips.
        refine Or.inr ?_
        cases hname : p.hostname with
        | nil =>
            rw [hname, List.nil_append] at hrest
            rw [hrest] at hbracket
            exact absurd (List.mem_cons_of_mem _ hmem) hbracket
        | cons first name =>
            rw [hname, List.cons_append] at hrest
            obtain ⟨-, rfl⟩ := List.cons.inj hrest
            have hin : ']' ∈ name := by
              rcases List.mem_append.1 hmem with h | h
              · exact h
              · exact absurd h hbracket
            obtain ⟨before, after, rfl, hafter⟩ := exists_last_of_mem hin
            refine ⟨before, ?_, by simp only [List.length_cons, List.length_append]; omega⟩
            have hrest : ']' ∉ after ++ p.portSuffix := by
              rw [List.mem_append, not_or]
              exact ⟨hafter, hbracket⟩
            have hdrop := rdropWhile_append_cons hrest before
            rw [List.append_assoc, List.cons_append, hdrop]
            rfl
      next => exact Or.inl hplain
    next => exact Or.inl hplain

/-- The text of a request URL up to its path. -/
theorem urlunsplit_eq (scheme netloc path query : Text) (hpath : path ≠ []) :
    ∃ rest, urlunsplit scheme netloc path query =
      scheme ++ ':' :: '/' :: '/' :: (netloc ++ '/' :: rest) := by
  obtain ⟨first, path, rfl⟩ := List.exists_cons_of_ne_nil hpath
  unfold urlunsplit
  by_cases hslash : first = '/'
  · subst hslash
    refine ⟨path ++ (if query = [] then [] else '?' :: query), ?_⟩
    simp
  · refine ⟨first :: path ++ (if query = [] then [] else '?' :: query), ?_⟩
    simp [hslash]

theorem takeWhile_authority {authority rest : Text}
    (h : ∀ c ∈ authority, endsNetloc c = false) :
    (authority ++ '/' :: rest).takeWhile (! endsNetloc ·) = authority := by
  have hpos : ∀ c ∈ authority, (! endsNetloc c) = true := by
    intro c hc
    rw [h c hc]
    rfl
  rw [List.takeWhile_append_of_pos hpos]
  simp [endsNetloc]

/-- The client, where its host is the one that was checked, sends the request over the
scheme and to the port that were checked, and without user information. -/
theorem ParsedUrl.Checked.origin (hp : p.Checked) {client : UrlClient} {path query : Text}
    (hpath : path ≠ []) {o : Origin}
    (h : client.origin (urlunsplit p.scheme p.authority path query) = some o)
    (hhost : (rstripDots o.host).map Char.toLower = p.hostname) :
    o.scheme = p.scheme ∧ o.userinfo = [] ∧ o.port = p.port := by
  obtain ⟨rest, hurl⟩ := urlunsplit_eq p.scheme p.authority path query hpath
  have hscheme : partition ':' (urlunsplit p.scheme p.authority path query) =
      (p.scheme, '/' :: '/' :: (p.authority ++ '/' :: rest)) := by
    rw [hurl]
    rcases hp.scheme with hs | hs <;> rw [hs] <;> rfl
  have hplain : '@' ∉ p.authority := hp.not_mem_authority (by decide)
  have hends : ∀ c ∈ p.authority, endsNetloc c = false := by
    intro c hc
    by_contra htrue
    have hdelimiter : isDelimiter c = true := by
      rcases endsNetloc_iff.1 (by simpa using htrue) with rfl | rfl | rfl <;> decide
    exact hp.not_mem_authority hdelimiter hc
  unfold UrlClient.origin at h
  split at h
  next =>
    rw [hscheme] at h
    simp only [takeWhile_authority hends, afterLast_of_not_mem hplain,
      rdropWhile_of_not_mem hplain] at h
    split at h
    next host port hnormal hport =>
      obtain rfl := Option.some.inj h
      refine ⟨rfl, rfl, ?_⟩
      rcases hp.splitHost_cases with hsuffix | ⟨inner, hinner, hshort⟩
      · rw [hsuffix, hp.portOf_suffix] at hport
        exact (Option.some.inj hport).symm
      · exfalso
        have hstripped : host = inner := by
          rw [hinner, UrlClient.normalHost, if_pos ⟨rfl, List.getLast?_concat⟩] at hnormal
          split at hnormal
          next => simpa using (Option.some.inj hnormal).symm
          next => cases hnormal
        have hlength := congrArg List.length hhost
        rw [List.length_map] at hlength
        have hle := rstripDots_length_le host
        rw [hstripped] at hle hlength
        dsimp only at hlength
        omega
    next => cases h
  next => cases h

end Origin

end SearchTrust.Web
