/-
What an audit counts, and what a vote against a sample rests on: the regions that the
records state, or one other city of the target region.  Where the market names no city
there is no other city, and yet such a vote is counted.
-/
import SearchTrust.Locality.Votes
import SearchTrust.Web.PublicConnections

namespace SearchTrust.Locality

open SearchTrust.Order
open SearchTrust.Web (Text)

section Places

variable {city region : Text} {signals : List Signal}

/-- Every place that a record names lies outside of the region; a place without a region
takes those that are stated for the same city. -/
def OutsideRegion (region : Text) (signals : List Signal) : Prop :=
  region ≠ [] ∧ signals ≠ [] ∧ ∀ s ∈ signals,
    (∃ t ∈ signals, t.city = s.city ∧ t.region ≠ none) ∧
      ∀ t ∈ signals, t.city = s.city → t.region ≠ some region

/-- All signals name one place, and it is stated to lie in the region. -/
def OnlyPlace (place region : Text) (signals : List Signal) : Prop :=
  place ≠ [] ∧ region ≠ [] ∧
    (∀ s ∈ signals, s.city = some place ∧ (s.region = none ∨ s.region = some region) ∧
      s.uncertain = false) ∧ ∃ s ∈ signals, s.region = some region

/-- The market names a city, and all signals name another one of its region. -/
def OtherCity (city region : Text) (signals : List Signal) : Prop :=
  city ≠ [] ∧ ∃ place, place ≠ city ∧ OnlyPlace place region signals

theorem mem_normalizedPlaces {place state : Option Text} :
    (place, state) ∈ normalizedPlaces signals ↔
      (∃ s ∈ signals, s.city = place) ∧
        ((∃ s ∈ signals, s.city = place ∧ s.region = state ∧ state ≠ none) ∨
          state = none ∧ ∀ s ∈ signals, s.city = place → s.region = none) := by
  have hexplicit : ∀ place, (signals.filter fun s => s.city = place).filterMap Signal.region = [] ↔
      ∀ s ∈ signals, s.city = place → s.region = none := by
    intro place
    simp [List.filterMap_eq_nil_iff]
  have hstates : ∀ place code,
      code ∈ (signals.filter fun s => s.city = place).filterMap Signal.region ↔
        ∃ s ∈ signals, s.city = place ∧ s.region = some code := by
    intro place code
    simp [List.mem_filterMap, and_assoc]
  unfold normalizedPlaces
  rw [List.mem_dedup, grouped_eq, List.mem_flatMap]
  constructor
  · rintro ⟨_, hgroup, hmem⟩
    obtain ⟨key, hkey, rfl⟩ := List.mem_map.1 hgroup
    obtain ⟨first, hfirst, rfl⟩ := List.mem_map.1 (mem_groupKeys.1 hkey)
    simp only at hmem
    split at hmem
    next hnone =>
      obtain ⟨rfl, rfl⟩ := Prod.mk.inj (List.mem_singleton.1 hmem)
      exact ⟨⟨first, hfirst, rfl⟩, .inr ⟨rfl, (hexplicit _).1 hnone⟩⟩
    next =>
      obtain ⟨code, hcode, hpair⟩ := List.mem_map.1 hmem
      obtain ⟨rfl, rfl⟩ := Prod.mk.inj hpair
      obtain ⟨s, hs, hcity, hregion⟩ := (hstates _ _).1 hcode
      exact ⟨⟨first, hfirst, rfl⟩, .inl ⟨s, hs, hcity, hregion, Option.some_ne_none _⟩⟩
  · rintro ⟨⟨first, hfirst, rfl⟩, hstate⟩
    refine ⟨(first.city, signals.filter fun s => s.city = first.city), ?_, ?_⟩
    · exact List.mem_map.2 ⟨first.city, mem_groupKeys.2 (List.mem_map_of_mem hfirst), rfl⟩
    · simp only
      rcases hstate with ⟨s, hs, hcity, rfl, hsome⟩ | ⟨rfl, hnone⟩
      · obtain ⟨code, hcode⟩ := Option.ne_none_iff_exists'.1 hsome
        have hmem := (hstates first.city code).2 ⟨s, hs, hcity, hcode⟩
        rw [if_neg (List.ne_nil_of_mem hmem), hcode]
        exact List.mem_map.2 ⟨code, hmem, rfl⟩
      · rw [if_pos ((hexplicit _).2 hnone)]
        exact List.mem_singleton_self _

/-- A signal gives its own region, or its city has one stated elsewhere or none at all. -/
theorem exists_normalized {s : Signal} (h : s ∈ signals) :
    ∃ state, (s.city, state) ∈ normalizedPlaces signals ∧ (s.region ≠ none → state = s.region) := by
  by_cases hregion : s.region = none
  · by_cases hall : ∀ t ∈ signals, t.city = s.city → t.region = none
    · exact ⟨none, mem_normalizedPlaces.2 ⟨⟨s, h, rfl⟩, .inr ⟨rfl, hall⟩⟩,
        fun hne => absurd hregion hne⟩
    · push Not at hall
      obtain ⟨t, ht, hcity, hstate⟩ := hall
      exact ⟨t.region, mem_normalizedPlaces.2 ⟨⟨s, h, rfl⟩, .inl ⟨t, ht, hcity, rfl, hstate⟩⟩,
        fun hne => absurd hregion hne⟩
  · exact ⟨s.region, mem_normalizedPlaces.2 ⟨⟨s, h, rfl⟩, .inl ⟨s, h, rfl, rfl, hregion⟩⟩,
      fun _ => rfl⟩

theorem outsideRegion_of_normalized {first : Option Text × Option Text}
    {more : List (Option Text × Option Text)} (hplaces : normalizedPlaces signals = first :: more)
    (hregion : region ≠ [])
    (hall : ∀ p ∈ first :: more, p.2 ≠ none ∧ p.2 ≠ some region) :
    OutsideRegion region signals := by
  have hstated : ∀ p ∈ normalizedPlaces signals, p.2 ≠ none ∧ p.2 ≠ some region := by
    rw [hplaces]
    exact hall
  refine ⟨hregion, ?_, ?_⟩
  · rintro rfl
    cases hplaces
  · intro s hs
    obtain ⟨state, hstate, _⟩ := exists_normalized hs
    refine ⟨?_, ?_⟩
    · rcases (mem_normalizedPlaces.1 hstate).2 with ⟨t, ht, hcity, hregion, hsome⟩ | ⟨hnone, _⟩
      · exact ⟨t, ht, hcity, fun hnone => hsome (hregion ▸ hnone)⟩
      · exact absurd hnone (hstated _ hstate).1
    · intro t ht hcity hinside
      obtain ⟨other, hother, hsame⟩ := exists_normalized ht
      rw [hsame (by simp [hinside]), hinside] at hother
      exact (hstated _ hother).2 rfl

theorem onlyPlace_of_normalized {place : Text}
    (hplaces : normalizedPlaces signals = [(some place, some region)]) (hplace : place ≠ [])
    (hregion : region ≠ []) (hcertain : signals.any Signal.uncertain = false) :
    OnlyPlace place region signals := by
  refine ⟨hplace, hregion, ?_, ?_⟩
  · intro s hs
    obtain ⟨state, hstate, hsame⟩ := exists_normalized hs
    rw [hplaces] at hstate
    obtain ⟨hcity, rfl⟩ := Prod.mk.inj (List.mem_singleton.1 hstate)
    refine ⟨hcity, ?_, ?_⟩
    · by_cases hnone : s.region = none
      · exact .inl hnone
      · exact .inr (hsame hnone).symm
    · simpa using List.any_eq_false.1 hcertain s hs
  · have hmem : (some place, some region) ∈ normalizedPlaces signals := by
      rw [hplaces]
      exact List.mem_singleton_self _
    rcases (mem_normalizedPlaces.1 hmem).2 with ⟨s, hs, _, hstate, _⟩ | ⟨hnone, _⟩
    · exact ⟨s, hs, hstate⟩
    · cases hnone

theorem normalized_of_onlyPlace {place : Text} (h : OnlyPlace place region signals) :
    normalizedPlaces signals = [(some place, some region)] := by
  obtain ⟨_, _, hall, s, hs, hstate⟩ := h
  have hnodup : (normalizedPlaces signals).Nodup := List.nodup_dedup _
  apply List.perm_singleton.1
  apply (List.perm_ext_iff_of_nodup hnodup (List.nodup_singleton _)).2
  rintro ⟨city, state⟩
  rw [mem_normalizedPlaces, List.mem_singleton, Prod.mk.injEq]
  constructor
  · rintro ⟨⟨t, ht, rfl⟩, hcases⟩
    refine ⟨(hall t ht).1, ?_⟩
    rcases hcases with ⟨r, hr, _, rfl, hsome⟩ | ⟨_, hnone⟩
    · exact (hall r hr).2.1.resolve_left hsome
    · have hregion := hnone s hs ((hall s hs).1.trans (hall t ht).1.symm)
      rw [hstate] at hregion
      cases hregion
  · rintro ⟨rfl, rfl⟩
    exact ⟨⟨s, hs, (hall s hs).1⟩, .inl ⟨s, hs, (hall s hs).1, hstate, Option.some_ne_none _⟩⟩

/-- What a vote against a sample rests on. -/
theorem outside_or_onlyPlace (h : (classifySignals city region signals).1 = .nonLocal) :
    OutsideRegion region signals ∨
      ∃ place, (city ≠ [] → place ≠ city) ∧ OnlyPlace place region signals := by
  unfold classifySignals at h
  split at h
  next => cases h
  next place observed more hplaces =>
    split at h
    next => cases h
    next hcertain =>
      split at h
      next =>
        split at h
        next houtside => exact .inl (outsideRegion_of_normalized hplaces houtside.1 houtside.2)
        next => cases h
      next hsingle =>
        obtain rfl : more = [] := not_not.1 hsingle
        split at h
        next hother =>
          obtain ⟨⟨state, rfl, _⟩, hregion, hne⟩ := hother
          left
          apply outsideRegion_of_normalized hplaces hregion
          simpa using hne
        next =>
          split at h
          next => cases h
          next hcity =>
            split at h
            next hstated =>
              obtain ⟨⟨name, rfl, hname⟩, ⟨state, rfl, hstate⟩, hsame⟩ := hstated
              obtain rfl := Option.some.inj hsame
              right
              refine ⟨name, ?_, onlyPlace_of_normalized hplaces hname hstate (by simpa using hcertain)⟩
              rintro hnamed rfl
              exact hcity ⟨rfl, hnamed⟩
            next => cases h

/-- Without a city of the market, one place of the region counts against the sample. -/
theorem nonLocal_of_onlyPlace {place : Text} (hcity : city = [])
    (h : OnlyPlace place region signals) :
    (classifySignals city region signals).1 = .nonLocal := by
  have hcertain : signals.any Signal.uncertain = false := by
    simp only [List.any_eq_false]
    intro s hs
    simp [(h.2.2.1 s hs).2.2]
  unfold classifySignals
  rw [normalized_of_onlyPlace h]
  simp [hcertain, Given, hcity, h.1, h.2.1]

theorem not_outside_of_onlyPlace {place : Text} (h : OnlyPlace place region signals) :
    ¬OutsideRegion region signals := by
  rintro ⟨_, _, houtside⟩
  obtain ⟨_, _, _, s, hs, hstate⟩ := h
  exact (houtside s hs).2 s hs rfl hstate

end Places

section Contract

variable (lib : LocalityLibrary) (market : TargetMarket) (records : List (ResultRecord lib))

/-- The canonical URL of a row. -/
def rowUrl (row : AuditRow lib) : Option Text := row.url.map (canonicalUrl lib)

/-- The canonical URLs whose rows have a vote. -/
def urlsWithVote (state : LocalityState) : List Text :=
  (((auditSample lib market records).rows.filter fun item => item.2 = state).filterMap fun item =>
    rowUrl lib item.1).dedup

/-- What an audit counts, whatever the sample. -/
structure CountsVotes : Prop where
  rows : (auditSample lib market records).rows.map Prod.fst = auditRows lib market records
  one_vote : ∀ a ∈ (auditSample lib market records).rows,
    ∀ b ∈ (auditSample lib market records).rows, a.1.url ≠ none →
      rowUrl lib a.1 = rowUrl lib b.1 → a.2 = b.2
  missing : ∀ a ∈ (auditSample lib market records).rows, a.1.url = none → a.2 = .unknown
  n : (auditSample lib market records).n =
    (urls lib records).dedup.length + records.countP fun record => record.url.isNone
  o : (auditSample lib market records).o = (urlsWithVote lib market records .nonLocal).length
  l : (auditSample lib market records).l = (urlsWithVote lib market records .isLocal).length
  unknown : (auditSample lib market records).unknown =
    (urlsWithVote lib market records .unknown).length + records.countP fun record => record.url.isNone
  sum : ((auditSample lib market records).n : ℤ) = (auditSample lib market records).o +
    (auditSample lib market records).l + (auditSample lib market records).unknown
  majority : (auditSample lib market records).nonLocalMajority = true ↔
    3 ≤ (auditSample lib market records).n ∧
      (auditSample lib market records).n < 2 * (auditSample lib market records).o
  order : ∀ other, records.Perm other →
    (auditSample lib market other).n = (auditSample lib market records).n ∧
    (auditSample lib market other).o = (auditSample lib market records).o ∧
    (auditSample lib market other).l = (auditSample lib market records).l ∧
    (auditSample lib market other).unknown = (auditSample lib market records).unknown ∧
    (auditSample lib market other).nonLocalMajority =
      (auditSample lib market records).nonLocalMajority
  repeated : ∀ record key, canonical lib record = some key → key ∈ urls lib records →
    ∀ other, other.Perm (record :: records) →
      (auditSample lib market other).nonLocalMajority = true →
        (auditSample lib market records).nonLocalMajority = true

/-- Every vote against the sample rests on places outside of the target region, or on one
other city of it. -/
def SoundVotes : Prop :=
  ∀ item ∈ (auditSample lib market records).rows, item.2 = .nonLocal →
    OutsideRegion (targetRegion lib market) item.1.signals ∨
      OtherCity (targetCity lib market) (targetRegion lib market) item.1.signals

/-- All records of a URL of the sample state the same places, and these are one city stated
in the target region. -/
def OnePlaceUrl (key : Text) : Prop :=
  key ∈ urls lib records ∧
    ∃ place, ∀ record ∈ records, canonical lib record = some key →
      OnlyPlace place (targetRegion lib market) (signalsOf lib market record) ∧
        ∀ other ∈ records, canonical lib other = some key →
          placesOf (signalsOf lib market record) = placesOf (signalsOf lib market other)

variable {lib market records}

theorem length_urlsWithVote (state : LocalityState) :
    (urlsWithVote lib market records state).length =
      (urls lib records).dedup.countP fun key => urlVote lib market records key = state := by
  rw [List.countP_eq_length_filter]
  apply List.Perm.length_eq
  apply (List.perm_ext_iff_of_nodup (List.nodup_dedup _) ((List.nodup_dedup _).filter _)).2
  intro key
  rw [List.mem_dedup, List.mem_filterMap, List.mem_filter, List.mem_dedup, urls,
    List.mem_filterMap, decide_eq_true_eq]
  constructor
  · rintro ⟨item, hitem, hkey⟩
    obtain ⟨hmem, hstate⟩ := List.mem_filter.1 hitem
    obtain ⟨hrow, hvote⟩ := mem_audit_rows.1 hmem
    obtain ⟨record, index, hrecord, hitemRow⟩ := mem_auditRows.1 hrow
    obtain ⟨url, hurl, rfl⟩ := Option.map_eq_some_iff.1 hkey
    refine ⟨⟨record, List.mem_of_getElem? hrecord, ?_⟩, ?_⟩
    · rw [hitemRow, auditRow_url] at hurl
      simp [canonical, hurl]
    · rw [← of_decide_eq_true hstate, hvote, ballot, hurl]
      rfl
  · rintro ⟨⟨record, hrecord, hcanonical⟩, hvote⟩
    obtain ⟨index, hindex⟩ := List.getElem?_of_mem hrecord
    obtain ⟨url, hurl, rfl⟩ := Option.map_eq_some_iff.1 hcanonical
    refine ⟨(auditRow lib market record index, state), List.mem_filter.2 ⟨?_, by simp⟩, ?_⟩
    · apply mem_audit_rows.2
      refine ⟨mem_auditRows.2 ⟨record, index, hindex, rfl⟩, ?_⟩
      simp [ballot, hurl, hvote]
    · simp [rowUrl, hurl]

theorem countP_add_three {α : Type*} (state : α → LocalityState) (items : List α) :
    (items.countP fun a => state a = .nonLocal) + (items.countP fun a => state a = .isLocal) +
      (items.countP fun a => state a = .unknown) = items.length := by
  induction items with
  | nil => rfl
  | cons a items ih =>
      simp only [List.countP_cons, List.length_cons]
      cases state a with
      | nonLocal => simp; omega
      | isLocal => simp; omega
      | unknown => simp; omega

theorem countsVotes : CountsVotes lib market records where
  rows := by
    unfold auditSample
    rw [List.map_map]
    exact List.map_id _
  one_vote := by
    intro a ha b hb hurl hsame
    rw [(mem_audit_rows.1 ha).2, (mem_audit_rows.1 hb).2]
    obtain ⟨url, hurl⟩ := Option.ne_none_iff_exists'.1 hurl
    unfold rowUrl at hsame
    rw [hurl, Option.map_some] at hsame
    obtain ⟨other, hother, hkey⟩ := Option.map_eq_some_iff.1 hsame.symm
    simp [ballot, hurl, hother, hkey]
  missing := by
    intro a ha hurl
    rw [(mem_audit_rows.1 ha).2, ballot, hurl]
    rfl
  n := audit_n
  o := by rw [audit_o, length_urlsWithVote]
  l := by rw [audit_l, length_urlsWithVote]
  unknown := by
    have hall := countP_add_three (urlVote lib market records) (urls lib records).dedup
    rw [audit_unknown, audit_n, audit_o, audit_l, length_urlsWithVote]
    omega
  sum := by
    rw [audit_unknown]
    omega
  majority := majority_iff
  order := by
    intro other h
    obtain ⟨hn, ho, hl⟩ := @counts_perm lib market other records h.symm
    refine ⟨hn, ho, hl, ?_, ?_⟩
    · rw [audit_unknown, audit_unknown, hn, ho, hl]
    · rw [Bool.eq_iff_iff, majority_iff, majority_iff, hn, ho]
  repeated := by
    intro record key hrecord hkey other h hmajority
    obtain ⟨hn, ho, _⟩ := @counts_perm lib market other (record :: records) h
    apply majority_of_cons hrecord hkey
    rw [majority_iff] at hmajority ⊢
    rwa [← hn, ← ho]

/-- The places of a record name a city of a region. -/
theorem exists_signal_of_mem {place region : Text} {signals : List Signal} (hplace : place ≠ [])
    (hregion : region ≠ []) (h : toLex (place, region) ∈ placesOf signals) :
    ∃ s ∈ signals, s.city = some place ∧ s.region = some region := by
  obtain ⟨s, hs, hpair⟩ := List.mem_map.1 (mem_sortedSet.1 h)
  obtain ⟨hcity, hstate⟩ := Prod.mk.inj (toLex.injective hpair)
  refine ⟨s, hs, ?_, ?_⟩
  · cases hvalue : s.city with
    | none => exact absurd (by simpa [hvalue] using hcity) hplace
    | some name => simpa [hvalue] using hcity
  · cases hvalue : s.region with
    | none => exact absurd (by simpa [hvalue] using hstate) hregion
    | some code => simpa [hvalue] using hstate

theorem mem_placesOf {place region : Text} {signals : List Signal}
    (h : OnlyPlace place region signals) : toLex (place, region) ∈ placesOf signals := by
  obtain ⟨_, _, hall, s, hs, hstate⟩ := h
  apply mem_sortedSet.2
  apply List.mem_map.2
  exact ⟨s, hs, by rw [(hall s hs).1, hstate]; rfl⟩

theorem urlVote_nonLocal_iff {key : Text} :
    urlVote lib market records key = .nonLocal ↔ key ∈ urls lib records ∧
      ∃ places, ∀ record ∈ records, canonical lib record = some key →
        recordClaim lib market record = (.nonLocal, places) := by
  unfold urlVote
  rw [agreedState_eq_iff (by decide)]
  apply and_congr
  · simp [urls, List.mem_filterMap, List.filter_eq_nil_iff]
  · simp only [List.mem_map, List.mem_filter, decide_eq_true_eq]
    constructor
    · rintro ⟨places, hall⟩
      exact ⟨places, fun record hrecord hkey => hall _ ⟨record, ⟨hrecord, hkey⟩, rfl⟩⟩
    · rintro ⟨places, hall⟩
      refine ⟨places, ?_⟩
      rintro _ ⟨record, ⟨hrecord, hkey⟩, rfl⟩
      exact hall record hrecord hkey

/-- A vote that rests on nothing outside of the region is that of a URL whose records name
one place of it. -/
theorem onePlaceUrl_of_vote {key : Text}
    (hvote : urlVote lib market records key = .nonLocal) {record : ResultRecord lib}
    (hrecord : record ∈ records) (hkey : canonical lib record = some key)
    (hinside : ¬OutsideRegion (targetRegion lib market) (signalsOf lib market record)) :
    OnePlaceUrl lib market records key := by
  obtain ⟨hmem, places, hall⟩ := urlVote_nonLocal_iff.1 hvote
  have hstate : ∀ item ∈ records, canonical lib item = some key →
      (classifySignals (targetCity lib market) (targetRegion lib market)
        (signalsOf lib market item)).1 = .nonLocal ∧
      placesOf (signalsOf lib market item) = places := by
    intro item hitem hsame
    exact Prod.mk.inj (hall item hitem hsame)
  obtain ⟨hfirst, hplaces⟩ := hstate record hrecord hkey
  obtain ⟨place, _, honly⟩ := (outside_or_onlyPlace hfirst).resolve_left hinside
  refine ⟨hmem, place, ?_⟩
  intro item hitem hsame
  obtain ⟨hitemState, hitemPlaces⟩ := hstate item hitem hsame
  have hin := mem_placesOf honly
  rw [hplaces, ← hitemPlaces] at hin
  obtain ⟨s, hs, hname, hregion⟩ := exists_signal_of_mem honly.1 honly.2.1 hin
  refine ⟨?_, ?_⟩
  · rcases outside_or_onlyPlace hitemState with houtside | ⟨other, _, hother⟩
    · exact absurd hregion ((houtside.2.2 s hs).2 s hs rfl)
    · obtain rfl : other = place := Option.some.inj ((hother.2.2.1 s hs).1.symm.trans hname)
      exact hother
  · intro other hother hotherKey
    rw [hitemPlaces, (hstate other hother hotherKey).2]

/-- The votes are sound exactly when the market names a city, or no URL has only records
that name one place of its region. -/
theorem soundVotes_iff :
    SoundVotes lib market records ↔
      targetCity lib market ≠ [] ∨ ∀ key, ¬OnePlaceUrl lib market records key := by
  constructor
  · intro hsound
    by_contra hcondition
    push Not at hcondition
    obtain ⟨hcity, key, hmem, place, hall⟩ := hcondition
    obtain ⟨record, hrecord, hkey⟩ := List.mem_filterMap.1 hmem
    obtain ⟨index, hindex⟩ := List.getElem?_of_mem hrecord
    obtain ⟨url, hurl, hurlKey⟩ := Option.map_eq_some_iff.1 hkey
    have honly := (hall record hrecord hkey).1
    have hvote : urlVote lib market records key = .nonLocal := by
      apply urlVote_nonLocal_iff.2
      refine ⟨hmem, placesOf (signalsOf lib market record), ?_⟩
      intro item hitem hitemKey
      exact Prod.ext (nonLocal_of_onlyPlace hcity (hall item hitem hitemKey).1)
        ((hall item hitem hitemKey).2 record hrecord hkey)
    have hrow : (auditRow lib market record index, LocalityState.nonLocal) ∈
        (auditSample lib market records).rows := by
      apply mem_audit_rows.2
      refine ⟨mem_auditRows.2 ⟨record, index, hindex, rfl⟩, ?_⟩
      simp [ballot, hurl, hurlKey, hvote]
    rcases hsound _ hrow rfl with houtside | hother
    · rw [auditRow_signals] at houtside
      exact not_outside_of_onlyPlace honly houtside
    · exact hother.1 hcity
  · rintro hcondition ⟨row, vote⟩ hitem rfl
    obtain ⟨hrow, hvote⟩ := mem_audit_rows.1 hitem
    obtain ⟨record, index, hindex, rfl⟩ := mem_auditRows.1 hrow
    simp only [auditRow_url, auditRow_signals, ballot] at hvote ⊢
    cases hurl : record.url with
    | none => simp [hurl] at hvote
    | some url =>
        simp only [hurl, Option.map_some, Option.getD_some] at hvote
        have hrecord := List.mem_of_getElem? hindex
        have hkey : canonical lib record = some (canonicalUrl lib url) := by simp [canonical, hurl]
        by_cases houtside : OutsideRegion (targetRegion lib market) (signalsOf lib market record)
        · exact .inl houtside
        · obtain ⟨_, places, hall⟩ := urlVote_nonLocal_iff.1 hvote.symm
          have hstate := (Prod.mk.inj (hall record hrecord hkey)).1
          obtain ⟨place, hplace, honly⟩ := (outside_or_onlyPlace hstate).resolve_left houtside
          by_cases hcity : targetCity lib market = []
          · exact absurd (onePlaceUrl_of_vote hvote.symm hrecord hkey houtside)
              (hcondition.resolve_left (fun hne => hne hcity) _)
          · exact .inr ⟨hcity, place, hplace hcity, honly⟩

/-- An audit counts what it should, whatever the sample and the market, and its votes are
sound exactly when the market names a city or no URL has only records that name one place
of its region. -/
theorem sample_audit (lib : LocalityLibrary) (market : TargetMarket)
    (records : List (ResultRecord lib)) :
    CountsVotes lib market records ∧
      (SoundVotes lib market records ↔
        targetCity lib market ≠ [] ∨ ∀ key, ¬OnePlaceUrl lib market records key) :=
  ⟨countsVotes, soundVotes_iff⟩

/-- A library that knows the ASCII characters. -/
def sampleLibrary : LocalityLibrary where
  toTextLibrary := Hours.asciiLibrary
  tables := Web.asciiTables
  ip := Web.sampleAddresses
  decodeUtf8 bytes := bytes.map fun b => Char.ofNat b.toNat

def sampleUrl : SavedUrl sampleLibrary where
  text := "https://plumber.test/".toList
  parts := ⟨"https".toList, "plumber.test".toList, "/".toList, [], []⟩
  split := by rfl
  web := .inr rfl

def californiaMarket : TargetMarket := ⟨"US".toList, some "CA".toList, none⟩

def fresnoRecord : ResultRecord sampleLibrary where
  query := "plumber".toList
  position := 1
  displayName := "Plumber".toList
  url := some sampleUrl
  address := some "Fresno, CA".toList
  snippet := none

/-- A business of the target region counts against the sample of a market without a city. -/
theorem vote_without_city :
    ¬SoundVotes sampleLibrary californiaMarket [fresnoRecord] := by
  have hsignals : signalsOf sampleLibrary californiaMarket fresnoRecord =
      [⟨.address, "Fresno, CA".toList, some "fresno".toList, some "ca".toList, false⟩] := by
    decide +kernel
  have hcity : targetCity sampleLibrary californiaMarket = [] := by decide
  have hregion : targetRegion sampleLibrary californiaMarket = "ca".toList := by decide
  have honly : OnlyPlace "fresno".toList (targetRegion sampleLibrary californiaMarket)
      (signalsOf sampleLibrary californiaMarket fresnoRecord) := by
    rw [hsignals, hregion]
    simp [OnlyPlace]
  intro hsound
  rcases soundVotes_iff.1 hsound with hnamed | hnone
  · exact hnamed hcity
  · apply hnone (canonicalUrl sampleLibrary sampleUrl)
    refine ⟨List.mem_singleton.2 rfl, "fresno".toList, ?_⟩
    intro record hrecord _
    obtain rfl := List.mem_singleton.1 hrecord
    refine ⟨honly, ?_⟩
    intro other hother _
    rw [List.mem_singleton.1 hother]

end Contract

end SearchTrust.Locality
