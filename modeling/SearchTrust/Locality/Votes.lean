/-
The votes of an audit.  A URL votes for a state when all its records make one statement, so
neither the order of the records nor a further record of a URL makes a majority.
-/
import SearchTrust.Locality.Audit
import Mathlib.Tactic.NormNum

namespace SearchTrust.Locality

open SearchTrust.Order
open SearchTrust.Web (Text)

section Agreement

variable {σ π : Type*} [DecidableEq π]

theorem dedup_eq_singleton_iff {α : Type*} [DecidableEq α] {items : List α} {a : α} :
    items.dedup = [a] ↔ items ≠ [] ∧ ∀ b ∈ items, b = a := by
  constructor
  · intro h
    refine ⟨?_, ?_⟩
    · rintro rfl
      cases h
    · intro b hb
      rw [← List.mem_dedup, h] at hb
      exact List.mem_singleton.1 hb
  · rintro ⟨hne, hall⟩
    apply List.perm_singleton.1
    apply (List.perm_ext_iff_of_nodup (List.nodup_dedup items) (List.nodup_singleton a)).2
    intro b
    rw [List.mem_dedup, List.mem_singleton]
    constructor
    · exact hall b
    · rintro rfl
      obtain ⟨c, hc⟩ := List.exists_mem_of_ne_nil items hne
      exact hall c hc ▸ hc

variable {claims other : List (LocalityState × π)}

theorem agreedState_eq_iff {state : LocalityState} (h : state ≠ .unknown) :
    agreedState claims = state ↔ claims ≠ [] ∧ ∃ places, ∀ claim ∈ claims, claim = (state, places) := by
  unfold agreedState
  constructor
  · intro hagreed
    split at hagreed
    next found places hstates hplaces =>
      subst hagreed
      obtain ⟨hne, hstates⟩ := dedup_eq_singleton_iff.1 hstates
      obtain ⟨_, hplaces⟩ := dedup_eq_singleton_iff.1 hplaces
      refine ⟨fun hnil => hne (by rw [hnil, List.map_nil]), places, ?_⟩
      intro claim hclaim
      exact Prod.ext (hstates _ (List.mem_map_of_mem hclaim)) (hplaces _ (List.mem_map_of_mem hclaim))
    next => exact absurd hagreed.symm h
  · rintro ⟨hne, places, hall⟩
    have hstates : (claims.map Prod.fst).dedup = [state] := by
      apply dedup_eq_singleton_iff.2
      refine ⟨by simpa using hne, ?_⟩
      intro s hs
      obtain ⟨claim, hclaim, rfl⟩ := List.mem_map.1 hs
      rw [hall claim hclaim]
    have hplaces : (claims.map Prod.snd).dedup = [places] := by
      apply dedup_eq_singleton_iff.2
      refine ⟨by simpa using hne, ?_⟩
      intro p hp
      obtain ⟨claim, hclaim, rfl⟩ := List.mem_map.1 hp
      rw [hall claim hclaim]
    rw [hstates, hplaces]

/-- Further statements never make an agreement. -/
theorem agreedState_mono {state : LocalityState} (h : state ≠ .unknown) (hne : claims ≠ [])
    (hsub : claims ⊆ other) (hother : agreedState other = state) : agreedState claims = state := by
  obtain ⟨_, places, hall⟩ := (agreedState_eq_iff h).1 hother
  apply (agreedState_eq_iff h).2
  exact ⟨hne, places, fun claim hclaim => hall claim (hsub hclaim)⟩

theorem agreedState_congr (h : ∀ claim, claim ∈ claims ↔ claim ∈ other) :
    agreedState claims = agreedState other := by
  have hnil : claims = [] ↔ other = [] := by
    rw [List.eq_nil_iff_forall_not_mem, List.eq_nil_iff_forall_not_mem]
    simp only [h]
  by_cases hnone : claims = []
  · rw [hnone, hnil.1 hnone]
  · have hnone' : other ≠ [] := fun heq => hnone (hnil.2 heq)
    by_cases hstate : agreedState claims = .unknown
    · by_cases hother : agreedState other = .unknown
      · rw [hstate, hother]
      · exact agreedState_mono hother hnone (fun claim => (h claim).1) rfl
    · exact (agreedState_mono hstate hnone' (fun claim => (h claim).2) rfl).symm

/-- Statements of the unknown agree on nothing. -/
theorem agreedState_of_unknown (h : ∀ claim ∈ claims, claim.1 = .unknown) :
    agreedState claims = .unknown := by
  by_contra hstate
  obtain ⟨hne, places, hall⟩ := (agreedState_eq_iff hstate).1 rfl
  obtain ⟨claim, hclaim⟩ := List.exists_mem_of_ne_nil claims hne
  apply hstate
  rw [← h claim hclaim, hall claim hclaim]

end Agreement

section Votes

variable (lib : LocalityLibrary) (market : TargetMarket) (records : List (ResultRecord lib))

/-- The canonical URL of a record. -/
def canonical (record : ResultRecord lib) : Option Text := record.url.map (canonicalUrl lib)

/-- The canonical URLs of a sample. -/
def urls : List Text := records.filterMap (canonical lib)

/-- What a record with a URL states. -/
def recordClaim (record : ResultRecord lib) : LocalityState × List (Text ×ₗ Text) :=
  let found := classifyRecord lib market record
  (found.state, placesOf found.signals)

/-- The vote of a canonical URL. -/
def urlVote (key : Text) : LocalityState :=
  agreedState ((records.filter fun record => canonical lib record = some key).map
    (recordClaim lib market))

/-- The vote of a row: the vote of its canonical URL. -/
def ballot (row : AuditRow lib) : LocalityState :=
  (row.url.map fun url => urlVote lib market records (canonicalUrl lib url)).getD .unknown

variable {lib market records}

@[simp] theorem auditRow_url (record : ResultRecord lib) (index : ℕ) :
    (auditRow lib market record index).url = record.url := by
  unfold auditRow
  split
  next => rfl
  next h =>
    cases hurl : record.url with
    | none => rfl
    | some url => simp [hurl] at h

@[simp] theorem auditRow_index (record : ResultRecord lib) (index : ℕ) :
    (auditRow lib market record index).index = index := by
  unfold auditRow
  split
  next => rfl
  next => rfl

@[simp] theorem auditRow_signals (record : ResultRecord lib) (index : ℕ) :
    (auditRow lib market record index).signals = signalsOf lib market record := by
  unfold auditRow
  split
  next => rfl
  next => rfl

theorem rowClaim_of_url {record : ResultRecord lib} (h : record.url.isSome) (index : ℕ) :
    rowClaim lib (auditRow lib market record index) = recordClaim lib market record := by
  unfold auditRow
  rw [if_pos h]
  rfl

theorem rowClaim_of_missing {record : ResultRecord lib} (h : record.url = none) (index : ℕ) :
    (rowClaim lib (auditRow lib market record index)).1 = .unknown := by
  unfold auditRow
  rw [if_neg (by simp [h])]
  rfl

theorem mem_auditRows {row : AuditRow lib} :
    row ∈ auditRows lib market records ↔
      ∃ record index, records[index]? = some record ∧ row = auditRow lib market record index := by
  unfold auditRows
  simp only [List.mem_map, Prod.exists, List.mem_zipIdx_iff_getElem?]
  constructor
  · rintro ⟨record, index, hrecord, rfl⟩
    exact ⟨record, index, hrecord, rfl⟩
  · rintro ⟨record, index, hrecord, rfl⟩
    exact ⟨record, index, hrecord, rfl⟩

theorem canonicalUrl_head (url : SavedUrl lib) : (canonicalUrl lib url).head? = some 'h' := by
  unfold canonicalUrl Web.urlunsplit
  rcases url.web with h | h
  · simp [h, lowered]
  · simp [h, lowered]

theorem missing_ne_canonical (index : ℕ) (url : SavedUrl lib) :
    "missing:".toList ++ Nat.toDigits 10 index ≠ canonicalUrl lib url := by
  intro h
  have hhead := canonicalUrl_head url
  rw [← h] at hhead
  simp at hhead

theorem missing_injective {i j : ℕ}
    (h : "missing:".toList ++ Nat.toDigits 10 i = "missing:".toList ++ Nat.toDigits 10 j) :
    i = j := by
  have hdigits := List.append_cancel_left h
  have hvalue := congrArg (fun digits => Nat.ofDigitChars 10 digits 0) hdigits
  simpa [Nat.ofDigitChars_toDigits] using hvalue

theorem rowKey_eq_of_url {row : AuditRow lib} {url : SavedUrl lib} (h : row.url = some url) :
    rowKey lib row = canonicalUrl lib url := by
  unfold rowKey
  rw [h]

theorem rowKey_eq_of_missing {row : AuditRow lib} (h : row.url = none) :
    rowKey lib row = "missing:".toList ++ Nat.toDigits 10 row.index := by
  unfold rowKey
  rw [h]

/-- The group of a canonical URL has the vote of its records. -/
theorem groupVote_of_url {key : Text} (hkey : key ∈ urls lib records) :
    groupVote lib ((auditRows lib market records).filter fun row => rowKey lib row = key) =
      urlVote lib market records key := by
  obtain ⟨first, _, hfirst⟩ := List.mem_filterMap.1 hkey
  obtain ⟨firstUrl, _, rfl⟩ := Option.map_eq_some_iff.1 hfirst
  rw [groupVote, urlVote]
  apply agreedState_congr
  intro claim
  simp only [List.mem_map, List.mem_filter, mem_auditRows, decide_eq_true_eq]
  constructor
  · rintro ⟨_, ⟨⟨record, index, hrecord, rfl⟩, hrow⟩, rfl⟩
    cases hurl : record.url with
    | none =>
        rw [rowKey_eq_of_missing (by simpa using hurl)] at hrow
        exact absurd hrow (missing_ne_canonical _ _)
    | some url =>
        rw [rowKey_eq_of_url (by simpa using hurl)] at hrow
        refine ⟨record, ⟨List.mem_of_getElem? hrecord, ?_⟩, ?_⟩
        · simp [canonical, hurl, hrow]
        · exact (rowClaim_of_url (by simp [hurl]) index).symm
  · rintro ⟨record, ⟨hrecord, hcanonical⟩, rfl⟩
    obtain ⟨index, hindex⟩ := List.getElem?_of_mem hrecord
    obtain ⟨url, hurl, hsame⟩ := Option.map_eq_some_iff.1 hcanonical
    refine ⟨auditRow lib market record index, ⟨⟨record, index, hindex, rfl⟩, ?_⟩, ?_⟩
    · rw [rowKey_eq_of_url (by simpa using hurl), hsame]
    · exact rowClaim_of_url (by simp [hurl]) index

/-- A row without a URL is alone in its group, and its vote is unknown. -/
theorem groupVote_of_missing (index : ℕ) :
    groupVote lib ((auditRows lib market records).filter fun row =>
      rowKey lib row = "missing:".toList ++ Nat.toDigits 10 index) = .unknown := by
  rw [groupVote]
  apply agreedState_of_unknown
  intro claim hclaim
  simp only [List.mem_map, List.mem_filter, mem_auditRows, decide_eq_true_eq] at hclaim
  obtain ⟨_, ⟨⟨record, place, _, rfl⟩, hrow⟩, rfl⟩ := hclaim
  cases hurl : record.url with
  | none => exact rowClaim_of_missing hurl place
  | some url =>
      rw [rowKey_eq_of_url (by simpa using hurl)] at hrow
      exact absurd hrow.symm (missing_ne_canonical _ _)

/-- The keys of the rows without a URL. -/
def missingKeys (lib : LocalityLibrary) (records : List (ResultRecord lib)) : List Text :=
  (records.zipIdx.filter fun item => item.1.url.isNone).map fun item =>
    "missing:".toList ++ Nat.toDigits 10 item.2

theorem nodup_missingKeys : (missingKeys lib records).Nodup := by
  unfold missingKeys
  have hindexes : ((records.zipIdx.filter fun item => item.1.url.isNone).map Prod.snd).Nodup := by
    apply List.Nodup.sublist (List.filter_sublist.map Prod.snd)
    rw [List.zipIdx_map_snd]
    exact List.nodup_range'
  have hmap := hindexes.map (f := fun i => "missing:".toList ++ Nat.toDigits 10 i)
    fun _ _ => missing_injective
  rwa [List.map_map] at hmap

theorem length_missingKeys :
    (missingKeys lib records).length = records.countP fun record => record.url.isNone := by
  unfold missingKeys
  rw [List.length_map, ← List.countP_eq_length_filter]
  conv_rhs => rw [← List.zipIdx_map_fst 0 records, List.countP_map]
  rfl

/-- The keys of an audit: the canonical URLs, and one for each record without a URL. -/
theorem groupKeys_perm :
    (groupKeys (rowKey lib) (auditRows lib market records)).Perm
      ((urls lib records).dedup ++ missingKeys lib records) := by
  apply (List.perm_ext_iff_of_nodup (nodup_groupKeys _) ?_).2
  · intro key
    simp only [mem_groupKeys, List.mem_append, List.mem_dedup, List.mem_map, mem_auditRows, urls,
      List.mem_filterMap, missingKeys, List.mem_filter, Prod.exists,
      List.mem_zipIdx_iff_getElem?]
    constructor
    · rintro ⟨_, ⟨record, index, hrecord, rfl⟩, rfl⟩
      cases hurl : record.url with
      | none =>
          right
          refine ⟨record, index, ⟨hrecord, by simp [hurl]⟩, ?_⟩
          rw [rowKey_eq_of_missing (by simpa using hurl), auditRow_index]
      | some url =>
          left
          refine ⟨record, List.mem_of_getElem? hrecord, ?_⟩
          rw [rowKey_eq_of_url (by simpa using hurl)]
          simp [canonical, hurl]
    · rintro (⟨record, hrecord, hcanonical⟩ | ⟨record, index, ⟨hrecord, hurl⟩, rfl⟩)
      · obtain ⟨index, hindex⟩ := List.getElem?_of_mem hrecord
        obtain ⟨url, hurl, hsame⟩ := Option.map_eq_some_iff.1 hcanonical
        refine ⟨_, ⟨record, index, hindex, rfl⟩, ?_⟩
        rw [rowKey_eq_of_url (by simpa using hurl), hsame]
      · have hnone : record.url = none := by simpa using hurl
        refine ⟨_, ⟨record, index, hrecord, rfl⟩, ?_⟩
        rw [rowKey_eq_of_missing (by simpa using hnone), auditRow_index]
  · apply List.Nodup.append (List.nodup_dedup _) nodup_missingKeys
    intro key hkey hmissing
    rw [List.mem_dedup] at hkey
    obtain ⟨record, _, hcanonical⟩ := List.mem_filterMap.1 hkey
    obtain ⟨url, _, rfl⟩ := Option.map_eq_some_iff.1 hcanonical
    obtain ⟨item, _, hitem⟩ := List.mem_map.1 hmissing
    exact missing_ne_canonical _ _ hitem

end Votes

section Counts

variable {lib : LocalityLibrary} {market : TargetMarket} {records other : List (ResultRecord lib)}

/-- The votes of an audit, up to their order. -/
theorem votes_perm :
    ((grouped (rowKey lib) (auditRows lib market records)).map fun group =>
      groupVote lib group.2).Perm
      ((urls lib records).dedup.map (urlVote lib market records) ++
        (missingKeys lib records).map fun _ => .unknown) := by
  rw [grouped_eq, List.map_map]
  apply (groupKeys_perm.map _).trans
  rw [List.map_append]
  apply List.Perm.of_eq
  congr 1
  · apply List.map_congr_left
    intro key hkey
    exact groupVote_of_url (List.mem_dedup.1 hkey)
  · apply List.map_congr_left
    intro key hkey
    obtain ⟨item, _, rfl⟩ := List.mem_map.1 hkey
    exact groupVote_of_missing item.2

theorem audit_n :
    (auditSample lib market records).n =
      (urls lib records).dedup.length + records.countP fun record => record.url.isNone := by
  unfold auditSample
  simp only [votes_perm.length_eq, List.length_append, List.length_map, length_missingKeys]

theorem count_votes {state : LocalityState} (h : state ≠ .unknown) :
    ((grouped (rowKey lib) (auditRows lib market records)).map fun group =>
      groupVote lib group.2).count state =
      (urls lib records).dedup.countP fun key => urlVote lib market records key = state := by
  have hmissing : ((missingKeys lib records).map fun _ => LocalityState.unknown).count state = 0 := by
    apply List.count_eq_zero.2
    intro hmem
    obtain ⟨_, _, hstate⟩ := List.mem_map.1 hmem
    exact h hstate.symm
  rw [votes_perm.count_eq, List.count_append, hmissing, Nat.add_zero, List.count, List.countP_map]
  apply List.countP_congr
  intro key _
  simp

theorem audit_o :
    (auditSample lib market records).o =
      (urls lib records).dedup.countP fun key => urlVote lib market records key = .nonLocal :=
  count_votes (by decide)

theorem audit_l :
    (auditSample lib market records).l =
      (urls lib records).dedup.countP fun key => urlVote lib market records key = .isLocal :=
  count_votes (by decide)

theorem audit_unknown :
    (auditSample lib market records).unknown =
      (auditSample lib market records).n - (auditSample lib market records).o -
        (auditSample lib market records).l := rfl

theorem majority_iff :
    (auditSample lib market records).nonLocalMajority = true ↔
      3 ≤ (auditSample lib market records).n ∧
        (auditSample lib market records).n < 2 * (auditSample lib market records).o := by
  have hhalf : ((auditSample lib market records).n : ℚ) / 2 < (auditSample lib market records).o ↔
      (auditSample lib market records).n < 2 * (auditSample lib market records).o := by
    rw [div_lt_iff₀ (by norm_num), mul_comm]
    exact_mod_cast Iff.rfl
  rw [← hhalf]
  unfold auditSample
  simp

/-- The vote of a row is the vote of its canonical URL. -/
theorem rowVote_eq {row : AuditRow lib} (h : row ∈ auditRows lib market records) :
    rowVote lib (grouped (rowKey lib) (auditRows lib market records)) row =
      ballot lib market records row := by
  unfold rowVote ballot
  rw [find?_grouped (List.mem_map_of_mem h), Option.map_some, Option.getD_some]
  cases hurl : row.url with
  | none =>
      rw [rowKey_eq_of_missing hurl]
      exact groupVote_of_missing row.index
  | some url =>
      rw [rowKey_eq_of_url hurl]
      apply groupVote_of_url
      obtain ⟨record, index, hrecord, rfl⟩ := mem_auditRows.1 h
      rw [auditRow_url] at hurl
      apply List.mem_filterMap.2
      refine ⟨record, List.mem_of_getElem? hrecord, ?_⟩
      simp [canonical, hurl]

theorem mem_audit_rows {item : AuditRow lib × LocalityState} :
    item ∈ (auditSample lib market records).rows ↔
      item.1 ∈ auditRows lib market records ∧
        item.2 = ballot lib market records item.1 := by
  unfold auditSample
  simp only [List.mem_map]
  constructor
  · rintro ⟨row, hrow, rfl⟩
    exact ⟨hrow, rowVote_eq hrow⟩
  · rintro ⟨hrow, hvote⟩
    exact ⟨item.1, hrow, Prod.ext rfl ((rowVote_eq hrow).trans hvote.symm)⟩

theorem urlVote_perm (h : records.Perm other) (key : Text) :
    urlVote lib market records key = urlVote lib market other key := by
  unfold urlVote
  apply agreedState_congr
  intro claim
  exact ((h.filter _).map _).mem_iff

/-- A further record of a URL does not bring its vote about. -/
theorem urlVote_of_cons {state : LocalityState} (h : state ≠ .unknown) {record : ResultRecord lib}
    {key : Text} (hkey : key ∈ urls lib records)
    (hvote : urlVote lib market (record :: records) key = state) :
    urlVote lib market records key = state := by
  obtain ⟨first, hfirst, hcanonical⟩ := List.mem_filterMap.1 hkey
  refine agreedState_mono h ?_ ?_ hvote
  · apply List.ne_nil_of_mem
    apply List.mem_map_of_mem
    exact List.mem_filter.2 ⟨hfirst, by simp [hcanonical]⟩
  · apply List.map_subset
    intro item hitem
    obtain ⟨hmem, hsame⟩ := List.mem_filter.1 hitem
    exact List.mem_filter.2 ⟨List.mem_cons_of_mem _ hmem, hsame⟩

/-- The counts do not depend on the order of the records. -/
theorem counts_perm (h : records.Perm other) :
    (auditSample lib market records).n = (auditSample lib market other).n ∧
      (auditSample lib market records).o = (auditSample lib market other).o ∧
        (auditSample lib market records).l = (auditSample lib market other).l := by
  have hurls : (urls lib records).dedup.Perm (urls lib other).dedup := (h.filterMap _).dedup
  refine ⟨?_, ?_, ?_⟩
  · rw [audit_n, audit_n, hurls.length_eq, h.countP_eq]
  · rw [audit_o, audit_o, hurls.countP_eq]
    apply List.countP_congr
    intro key _
    rw [urlVote_perm h]
  · rw [audit_l, audit_l, hurls.countP_eq]
    apply List.countP_congr
    intro key _
    rw [urlVote_perm h]

/-- A record of a URL that is present makes no majority. -/
theorem majority_of_cons {record : ResultRecord lib} {key : Text}
    (hrecord : canonical lib record = some key) (hkey : key ∈ urls lib records)
    (h : (auditSample lib market (record :: records)).nonLocalMajority = true) :
    (auditSample lib market records).nonLocalMajority = true := by
  have hurls : urls lib (record :: records) = key :: urls lib records := by
    unfold urls
    rw [List.filterMap_cons_some hrecord]
  have hsome : record.url.isNone = false := by
    obtain ⟨url, hurl, _⟩ := Option.map_eq_some_iff.1 hrecord
    simp [hurl]
  have hn : (auditSample lib market (record :: records)).n = (auditSample lib market records).n := by
    rw [audit_n, audit_n, hurls, List.dedup_cons_of_mem hkey, List.countP_cons, hsome]
    simp
  have ho : (auditSample lib market (record :: records)).o ≤
      (auditSample lib market records).o := by
    rw [audit_o, audit_o, hurls, List.dedup_cons_of_mem hkey]
    apply List.countP_mono_left
    intro other hother hvote
    have hmem := List.mem_dedup.1 hother
    simp only [decide_eq_true_eq] at hvote ⊢
    exact urlVote_of_cons (by decide) hmem hvote
  rw [majority_iff] at h ⊢
  omega

end Counts

end SearchTrust.Locality
