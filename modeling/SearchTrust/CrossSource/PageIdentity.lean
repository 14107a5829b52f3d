/-
The spellings of a page of the case, and what the normalizer of the search console returns
for them.
-/
import SearchTrust.CrossSource.PageUrls

namespace SearchTrust.CrossSource

open SearchTrust.Order
open SearchTrust.Web

variable (lib : PageLibrary)

section Spellings

/-- A URL of a page of the case: its scheme, whether it writes "www." and the default port,
and its tail. -/
structure Spelling where
  secure : Bool
  www : Bool
  port : Bool
  tail : Tail

namespace Spelling

variable (s : Spelling)

def scheme : Text := if s.secure then text "https" else text "http"

def host (domain : Text) : Text :=
  if s.www then text "www." ++ hostOf lib domain else hostOf lib domain

def portText : Text :=
  if s.port then ':' :: (if s.secure then text "443" else text "80") else []

def authority (domain : Text) : Text := s.host lib domain ++ s.portText

def url (domain : Text) : Text :=
  s.scheme ++ ':' :: '/' :: '/' :: (s.authority lib domain ++ s.tail.text)

/-- The spelling names the host of the domain, is short enough, and its components of
tracking are well formed. -/
def Reaches (domain : Text) : Prop :=
  (s.url lib domain).length ≤ 4096 ∧ (s.www = true ∨ Plain lib domain) ∧ s.tail.TrackingFit lib

end Spelling

variable {lib} {s : Spelling} {domain : Text}

theorem Spelling.scheme_cases (s : Spelling) :
    s.scheme = text "http" ∨ s.scheme = text "https" := by
  cases hsecure : s.secure with
  | true =>
      right
      rw [scheme, hsecure, if_pos rfl]
  | false =>
      left
      rw [scheme, hsecure, if_neg Bool.false_ne_true]

theorem lowerHost_spelling (hd : IsDomain lib domain) :
    LowerHost (s.host lib domain) ∧ s.host lib domain ≠ [] := by
  unfold Spelling.host
  split
  next => exact ⟨lowerHost_www hd.lowerHost hd.host, by simp [text]⟩
  next => exact ⟨hd.lowerHost, hd.host⟩

theorem hostOf_spelling (hd : IsDomain lib domain) :
    hostOf lib (s.host lib domain) = hostOf lib domain ↔ s.www = true ∨ Plain lib domain := by
  unfold Spelling.host
  split
  next hwww =>
    rw [hostOf_www hd.lowerHost hd.host]
    exact ⟨fun _ => .inl hwww, fun _ => rfl⟩
  next hwww =>
    rw [hostOf_hostOf_iff hd]
    exact ⟨.inr, fun h => h.resolve_left hwww⟩

theorem isAuthority_spelling (hd : IsDomain lib domain) : IsAuthority (s.authority lib domain) := by
  intro c hc
  rcases List.mem_append.1 hc with hc | hc
  · exact .inl ((lowerHost_spelling hd).1.chars c hc).1
  · have hport : ∀ c ∈ s.portText, isHostChar c = true ∨ c = ':' := by
      unfold Spelling.portText
      cases s.port
      · exact fun c hc => absurd hc List.not_mem_nil
      · cases s.secure <;> exact List.all_iff_forall_prop.1 (by decide)
    exact hport c hc

/-- What the normalizer reads from the authority of a spelling. -/
theorem hostinfo_spelling (hd : IsDomain lib domain) (path query : Text) :
    (SplitResult.mk s.scheme (s.authority lib domain) path query []).hostinfo =
      (s.host lib domain, s.portText.tail) := by
  have hat : '@' ∉ s.authority lib domain :=
    notMem_authority (isAuthority_spelling hd) (by decide) (by decide)
  have hopen : '[' ∉ s.authority lib domain :=
    notMem_authority (isAuthority_spelling hd) (by decide) (by decide)
  have hcolon : ':' ∉ s.host lib domain := by
    intro hc
    exact (isHostChar_signs ((lowerHost_spelling hd).1.chars _ hc).1).2.1 rfl
  have hlast : afterLast '@' (s.authority lib domain) = s.authority lib domain :=
    List.rtakeWhile_eq_self_iff.2 fun c hc => decide_eq_true fun heq => hat (heq ▸ hc)
  unfold SplitResult.hostinfo
  dsimp only
  rw [hlast, if_neg hopen, Spelling.authority]
  cases hport : s.port with
  | true =>
      rw [Spelling.portText, hport, if_pos rfl, partition_append_cons hcolon]
      rfl
  | false =>
      rw [Spelling.portText, hport, if_neg Bool.false_ne_true, List.append_nil,
        partition_of_notMem hcolon]
      rfl

theorem hostname_spelling (hd : IsDomain lib domain) (path query : Text) :
    (SplitResult.mk s.scheme (s.authority lib domain) path query []).hostname lib.unicode =
      s.host lib domain := by
  have hpercent : '%' ∉ s.host lib domain := by
    intro hc
    exact (isHostChar_signs ((lowerHost_spelling hd).1.chars _ hc).1).2.2.2.2.2.1 rfl
  unfold SplitResult.hostname
  dsimp only
  rw [hostinfo_spelling hd, partition_of_notMem hpercent, if_neg hpercent]
  exact (lowerHost_spelling hd).1.lower_eq

theorem port_spelling (hd : IsDomain lib domain) (path query : Text) :
    (SplitResult.mk s.scheme (s.authority lib domain) path query []).port =
      some (if s.port then some (if s.secure then 443 else 80) else none) := by
  unfold SplitResult.port
  rw [hostinfo_spelling hd, Spelling.portText]
  dsimp only
  cases s.port
  · rfl
  · cases s.secure <;> decide

/-- What the search console's normalizer returns for a spelling. -/
theorem normalizeGscPage_url (hd : IsDomain lib domain) (htail : s.tail.WellFormed) :
    normalizeGscPage lib (s.url lib domain) domain =
      if (s.url lib domain).length ≤ 4096 ∧ (s.www = true ∨ Plain lib domain) then
        s.tail.rewritten lib domain
      else none := by
  have hbefore : ∀ c ∈ s.url lib domain, c ∉ s.tail.text → isControl c = false ∧ c ≠ '\\' := by
    intro c hc hnot
    have hscheme : ∀ c ∈ s.scheme ++ [':', '/', '/'], isControl c = false ∧ c ≠ '\\' := by
      rcases s.scheme_cases with h | h <;> rw [h] <;> exact List.all_iff_forall_prop.1 (by decide)
    rcases List.mem_append.1 hc with hc | hc
    · exact hscheme c (List.mem_append_left _ hc)
    · rw [List.mem_cons, List.mem_cons, List.mem_cons, List.mem_append] at hc
      rcases hc with rfl | rfl | rfl | hc | hc
      · decide
      · decide
      · decide
      · rcases isAuthority_spelling hd c hc with hhost | rfl
        · have hsigns := isHostChar_signs hhost
          exact ⟨hsigns.2.2.2.2.2.2.2.1, hsigns.2.2.2.2.2.2.2.2.1⟩
        · decide
      · exact absurd hc hnot
  by_cases hguard : ∃ c ∈ s.url lib domain, isControl c = true ∨ c = '\\'
  · obtain ⟨c, hc, hbad⟩ := hguard
    have hmem : c ∈ s.tail.text := by
      by_contra hnot
      obtain ⟨hcontrol, hbackslash⟩ := hbefore c hc hnot
      rcases hbad with hbad | hbad
      · rw [hcontrol] at hbad
        cases hbad
      · exact hbackslash hbad
    have hne : c ≠ '?' := by
      rintro rfl
      rcases hbad with hbad | hbad <;> cases hbad
    have hrefuse : 4096 < (s.url lib domain).length ∨ (s.url lib domain).any isControl = true ∨
        '\\' ∈ s.url lib domain := by
      rcases hbad with hbad | rfl
      · exact .inr (.inl (List.any_eq_true.2 ⟨c, hc, hbad⟩))
      · exact .inr (.inr hc)
    rw [normalizeGscPage, if_pos hrefuse, Tail.rewritten_of_unfit hmem hne hbad, ite_self]
  · push Not at hguard
    have hclean : ∀ c ∈ s.tail.text, isUnsafeByte c = false := by
      intro c hc
      by_contra hunsafe
      have hmem : c ∈ s.url lib domain := List.mem_append_right _ (List.mem_cons_of_mem _
        (List.mem_cons_of_mem _ (List.mem_cons_of_mem _ (List.mem_append_right _ hc))))
      refine (hguard c hmem).1 ?_
      have hcases : c = '\t' ∨ c = '\r' ∨ c = '\n' := by
        have hsome := eq_true_of_ne_false hunsafe
        simpa [isUnsafeByte, or_assoc] using hsome
      rcases hcases with rfl | rfl | rfl <;> decide
    have hpass : (4096 < (s.url lib domain).length ∨ (s.url lib domain).any isControl = true ∨
        '\\' ∈ s.url lib domain) ↔ ¬ (s.url lib domain).length ≤ 4096 := by
      constructor
      · rintro (hlong | hcontrol | hbackslash)
        · exact not_le.2 hlong
        · obtain ⟨c, hc, hcontrol⟩ := List.any_eq_true.1 hcontrol
          exact absurd hcontrol (hguard c hc).1
        · exact absurd rfl (hguard _ hbackslash).2
      · exact fun hlong => .inl (not_le.1 hlong)
    by_cases hlength : (s.url lib domain).length ≤ 4096
    · have hat : '@' ∉ s.authority lib domain :=
        notMem_authority (isAuthority_spelling hd) (by decide) (by decide)
      have hsplit : urlsplit lib.unicode lib.ip (s.url lib domain) = _ :=
        urlsplit_address s.scheme_cases (isAuthority_spelling hd) htail hclean
      have hcredentials : ∀ path query, hasCredentials
          (SplitResult.mk s.scheme (s.authority lib domain) path query []) = false := by
        intro path query
        rw [hasCredentials, decide_eq_false hat]
        rfl
      have hscheme : ¬ ((s.scheme ≠ text "http" ∧ s.scheme ≠ text "https") ∨
          s.host lib domain = [] ∨ False) := by
        rintro (hscheme | hempty | hfalse)
        · exact s.scheme_cases.elim hscheme.1 hscheme.2
        · exact (lowerHost_spelling hd).2 hempty
        · exact hfalse
      have hport : ¬ ((if s.port = true then some (if s.secure = true then 443 else 80)
            else none) ≠ (none : Option ℕ) ∧
          (! ((s.scheme = text "http" &&
              (if s.port = true then some (if s.secure = true then 443 else 80) else none) =
                some 80) ||
            (s.scheme = text "https" &&
              (if s.port = true then some (if s.secure = true then 443 else 80) else none) =
                some 443))) = true) := by
        unfold Spelling.scheme
        cases s.port
        · simp
        · cases s.secure <;> decide
      rw [normalizeGscPage, if_neg fun h => hpass.1 h hlength, hsplit]
      dsimp only
      rw [port_spelling hd, hostname_spelling hd, hcredentials]
      dsimp only
      rw [if_neg (by simpa using hscheme)]
      by_cases hhost : s.www = true ∨ Plain lib domain
      · refine (if_neg ?_).trans (if_pos ⟨hlength, hhost⟩).symm
        rintro (hne | hne)
        · exact hne ((hostOf_spelling hd).2 hhost)
        · exact hport hne
      · refine (if_pos ?_).trans (if_neg fun h => hhost h.2).symm
        exact .inl fun heq => hhost ((hostOf_spelling hd).1 heq)
    · rw [normalizeGscPage, if_pos (hpass.2 hlength), if_neg fun h => hlength h.1]

end Spellings

end SearchTrust.CrossSource
