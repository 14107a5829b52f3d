/-
The limits of what a public report lists: which evidence a finding shows.
-/
import SearchTrust.Order.RoundRobin
import SearchTrust.Order.Sorting

namespace SearchTrust.Report

open SearchTrust.Order
open SearchTrust.Order.RoundRobin

variable {ι κ : Type*} [LinearOrder κ]

/-- `groups[source_kind(key)].append(key)` for one key after the other. -/
def evidenceGroups (sourceKind : ι → κ) (keys : List ι) : κ → List ι :=
  keys.foldl (fun groups key =>
    Function.update groups (sourceKind key) (groups (sourceKind key) ++ [key])) fun _ => []

section Groups

variable {sourceKind : ι → κ} {keys : List ι}

theorem foldl_groups (groups : κ → List ι) (kind : κ) :
    keys.foldl (fun groups key =>
      Function.update groups (sourceKind key) (groups (sourceKind key) ++ [key])) groups kind =
      groups kind ++ keys.filter fun key => sourceKind key = kind := by
  induction keys generalizing groups with
  | nil => rw [List.foldl_nil, List.filter_nil, List.append_nil]
  | cons key keys ih =>
      rw [List.foldl_cons, ih]
      by_cases hkind : sourceKind key = kind
      · subst hkind
        rw [Function.update_self, List.filter_cons_of_pos (by simp), List.append_assoc]
        rfl
      · rw [Function.update_of_ne (Ne.symm hkind), List.filter_cons_of_neg (by simpa using hkind)]

/-- A group holds the ids of its kind, in order. -/
theorem evidenceGroups_eq (kind : κ) :
    evidenceGroups sourceKind keys kind = keys.filter fun key => sourceKind key = kind :=
  foldl_groups _ kind

theorem kind_of_mem_group (kind : κ) (key : ι) (h : key ∈ evidenceGroups sourceKind keys kind) :
    sourceKind key = kind := by
  rw [evidenceGroups_eq, List.mem_filter] at h
  simpa using h.2

end Groups

variable [LinearOrder ι]

/-- `select_evidence`: the selected ids and how many others there are. -/
def selectEvidence (ids : List ι) (sourceKind : ι → κ) (limit : ℤ) : List ι × ℕ :=
  let keys := sortedSet ids
  let kinds := sortedSet (keys.map sourceKind)
  let final := run limit kinds ⟨evidenceGroups sourceKind keys, []⟩
  (sortedBy id final.selected, ids.dedup.length - final.selected.length)

section Selection

variable (ids : List ι) (sourceKind : ι → κ) (limit : ℤ)

/-- The state in which the rounds of a selection end. -/
def finalDraw : State ι κ :=
  run limit (sortedSet ((sortedSet ids).map sourceKind))
    ⟨evidenceGroups sourceKind (sortedSet ids), []⟩

theorem split_finalDraw :
    Split sourceKind (evidenceGroups sourceKind (sortedSet ids))
      (finalDraw ids sourceKind limit) := by
  refine run_induction (motive := Split sourceKind _) ?_ fun kind => rfl
  intro state kind _ h
  exact split_draw kind_of_mem_group h kind

variable {ids sourceKind limit}

theorem mem_of_mem_finalDraw {key : ι} (h : key ∈ (finalDraw ids sourceKind limit).selected) :
    key ∈ ids := by
  have hsplit := split_finalDraw ids sourceKind limit (sourceKind key)
  have hgroup : key ∈ evidenceGroups sourceKind (sortedSet ids) (sourceKind key) := by
    rw [← hsplit]
    exact List.mem_append_left _ (List.mem_filter.2 ⟨h, by simp⟩)
  rw [evidenceGroups_eq, List.mem_filter, mem_sortedSet] at hgroup
  exact hgroup.1

theorem nodup_finalDraw : (finalDraw ids sourceKind limit).selected.Nodup := by
  rw [List.nodup_iff_count_le_one]
  intro key
  have hsplit := split_finalDraw ids sourceKind limit (sourceKind key)
  have hgroup : (evidenceGroups sourceKind (sortedSet ids) (sourceKind key)).Nodup := by
    rw [evidenceGroups_eq]
    exact (nodup_sortedSet ids).filter _
  rw [← hsplit] at hgroup
  have hcount := List.nodup_iff_count_le_one.1 (List.nodup_append.1 hgroup).1 key
  rwa [drawn, List.count_filter (by simp)] at hcount

/-- An id that was not selected is still in the queue of its kind. -/
theorem mem_queue_of_not_mem {key : ι} (hkey : key ∈ ids)
    (h : key ∉ (finalDraw ids sourceKind limit).selected) :
    key ∈ (finalDraw ids sourceKind limit).queues (sourceKind key) := by
  have hsplit := split_finalDraw ids sourceKind limit (sourceKind key)
  have hgroup : key ∈ evidenceGroups sourceKind (sortedSet ids) (sourceKind key) := by
    rw [evidenceGroups_eq, List.mem_filter, mem_sortedSet]
    exact ⟨hkey, by simp⟩
  rw [← hsplit, List.mem_append] at hgroup
  exact hgroup.resolve_left fun hdrawn => h (List.mem_filter.1 hdrawn).1

theorem length_finalDraw :
    (finalDraw ids sourceKind limit).selected.length = (min limit ids.dedup.length).toNat := by
  have hle : ((finalDraw ids sourceKind limit).selected.length : ℤ) ≤ max limit 0 :=
    length_run_le ⟨evidenceGroups sourceKind (sortedSet ids), []⟩ (le_max_right limit 0)
  have hbound : (finalDraw ids sourceKind limit).selected.length ≤ ids.dedup.length := by
    refine (List.subperm_of_subset nodup_finalDraw ?_).length_le
    intro key hkey
    exact List.mem_dedup.2 (mem_of_mem_finalDraw hkey)
  rcases run_ends limit (sortedSet ((sortedSet ids).map sourceKind))
    ⟨evidenceGroups sourceKind (sortedSet ids), []⟩ with hfull | hempty
  · change limit ≤ ((finalDraw ids sourceKind limit).selected.length : ℤ) at hfull
    change ((finalDraw ids sourceKind limit).selected.length : ℤ) ≤ _ at hle
    omega
  · have hall : ids.dedup.length ≤ (finalDraw ids sourceKind limit).selected.length := by
      refine (List.subperm_of_subset (List.nodup_dedup ids) ?_).length_le
      intro key hkey
      by_contra hnot
      have hmem := List.mem_dedup.1 hkey
      have hkind : sourceKind key ∈ sortedSet ((sortedSet ids).map sourceKind) :=
        mem_sortedSet.2 (List.mem_map_of_mem (mem_sortedSet.2 hmem))
      have hqueue := mem_queue_of_not_mem hmem hnot
      have hnone : (finalDraw ids sourceKind limit).queues (sourceKind key) = [] :=
        hempty _ hkind
      rw [hnone] at hqueue
      cases hqueue
    change ((finalDraw ids sourceKind limit).selected.length : ℤ) ≤ _ at hle
    omega

theorem mem_kinds {key : ι} (hkey : key ∈ ids) :
    sourceKind key ∈ sortedSet ((sortedSet ids).map sourceKind) :=
  mem_sortedSet.2 (List.mem_map_of_mem (mem_sortedSet.2 hkey))

/-- No kind is more than one id ahead of another one that has an id left. -/
theorem balanced_finalDraw {key : ι} (hkey : key ∈ ids)
    (hleft : key ∉ (finalDraw ids sourceKind limit).selected) (kind : κ) :
    (drawn sourceKind (finalDraw ids sourceKind limit) kind).length ≤
      (drawn sourceKind (finalDraw ids sourceKind limit) (sourceKind key)).length + 1 := by
  by_cases hknown : kind ∈ sortedSet ((sortedSet ids).map sourceKind)
  · have heven : Even sourceKind (evidenceGroups sourceKind (sortedSet ids))
        (sortedSet ((sortedSet ids).map sourceKind)) 0
        ⟨evidenceGroups sourceKind (sortedSet ids), []⟩ := by
      intro _ _
      rw [Nat.zero_min]
      rfl
    obtain ⟨reached, hlevel⟩ := run_level (kind_of_mem_group) (nodup_sortedSet _)
      (fun _ => rfl) heven
    have hupper : (drawn sourceKind (finalDraw ids sourceKind limit) kind).length ≤ reached + 1 :=
      (hlevel kind hknown).2
    have hlower : min reached (evidenceGroups sourceKind (sortedSet ids) (sourceKind key)).length ≤
        (drawn sourceKind (finalDraw ids sourceKind limit) (sourceKind key)).length :=
      (hlevel _ (mem_kinds hkey)).1
    have hsize := congrArg List.length (split_finalDraw ids sourceKind limit (sourceKind key))
    have hpos := List.length_pos_of_mem (mem_queue_of_not_mem hkey hleft)
    rw [List.length_append] at hsize
    omega
  · have hnone : drawn sourceKind (finalDraw ids sourceKind limit) kind = [] := by
      refine List.filter_eq_nil_iff.2 ?_
      intro other hother hkind
      refine hknown ?_
      rw [← of_decide_eq_true hkind]
      exact mem_kinds (mem_of_mem_finalDraw hother)
    rw [hnone]
    exact Nat.zero_le _

/-- Within a kind the smallest ids are selected. -/
theorem smallest_finalDraw {key other : ι}
    (hkey : key ∈ (finalDraw ids sourceKind limit).selected) (hother : other ∈ ids)
    (hkind : sourceKind other = sourceKind key) (hlt : other < key) :
    other ∈ (finalDraw ids sourceKind limit).selected := by
  by_contra hnot
  have hqueue := mem_queue_of_not_mem hother hnot
  rw [hkind] at hqueue
  have hsplit := split_finalDraw ids sourceKind limit (sourceKind key)
  have hsorted : (evidenceGroups sourceKind (sortedSet ids) (sourceKind key)).Pairwise (· < ·) := by
    rw [evidenceGroups_eq]
    exact (pairwise_sortedSet ids).filter _
  rw [← hsplit, List.pairwise_append] at hsorted
  have hdrawn : key ∈ drawn sourceKind (finalDraw ids sourceKind limit) (sourceKind key) :=
    List.mem_filter.2 ⟨hkey, by simp⟩
  exact absurd hlt (lt_asymm (hsorted.2.2 key hdrawn other hqueue))

end Selection

/-- A balanced selection: ids in order, as many as the limit allows, and the number of
the others; of each kind the smallest ones, and no kind more than one ahead of a kind that
still has an id. -/
structure IsSelection (ids : List ι) (sourceKind : ι → κ) (limit : ℤ)
    (selected : List ι) (omitted : ℕ) : Prop where
  increasing : selected.Pairwise (· < ·)
  subset : ∀ key ∈ selected, key ∈ ids
  length_eq : selected.length = (min limit ids.dedup.length).toNat
  omitted_eq : omitted = (ids.dedup.filter fun key => key ∉ selected).length
  balanced : ∀ key ∈ ids, key ∉ selected → ∀ kind,
    (selected.filter fun other => sourceKind other = kind).length ≤
      (selected.filter fun other => sourceKind other = sourceKind key).length + 1
  smallest : ∀ key ∈ selected, ∀ other ∈ ids, sourceKind other = sourceKind key →
    other < key → other ∈ selected

/-- The selection is balanced, and only the set of the ids decides it. -/
theorem selectEvidence_balanced (ids : List ι) (sourceKind : ι → κ) (limit : ℤ) :
    IsSelection ids sourceKind limit (selectEvidence ids sourceKind limit).1
      (selectEvidence ids sourceKind limit).2 ∧
    ∀ other : List ι, (∀ key, key ∈ other ↔ key ∈ ids) →
      selectEvidence other sourceKind limit = selectEvidence ids sourceKind limit := by
  have hperm : (sortedBy id (finalDraw ids sourceKind limit).selected).Perm
      (finalDraw ids sourceKind limit).selected := sortedBy_perm _ _
  have hmem : ∀ key, key ∈ (selectEvidence ids sourceKind limit).1 ↔
      key ∈ (finalDraw ids sourceKind limit).selected := fun key => hperm.mem_iff
  have hcount : ∀ kind, ((selectEvidence ids sourceKind limit).1.filter
      fun other => sourceKind other = kind).length =
      (drawn sourceKind (finalDraw ids sourceKind limit) kind).length :=
    fun kind => (hperm.filter _).length_eq
  have hnodup : (selectEvidence ids sourceKind limit).1.Nodup :=
    hperm.nodup_iff.2 nodup_finalDraw
  refine ⟨⟨?_, ?_, ?_, ?_, ?_, ?_⟩, ?_⟩
  · have hle := pairwise_sortedBy id (finalDraw ids sourceKind limit).selected
    exact (hle.and hnodup).imp fun h => lt_of_le_of_ne h.1 h.2
  · intro key hkey
    exact mem_of_mem_finalDraw ((hmem key).1 hkey)
  · exact hperm.length_eq.trans length_finalDraw
  · have hselected : (ids.dedup.filter fun key =>
        key ∈ (selectEvidence ids sourceKind limit).1).Perm
        (selectEvidence ids sourceKind limit).1 := by
      refine (List.perm_ext_iff_of_nodup ((List.nodup_dedup ids).filter _) hnodup).2 ?_
      intro key
      rw [List.mem_filter, List.mem_dedup, decide_eq_true_eq]
      exact and_iff_right_of_imp fun hkey => mem_of_mem_finalDraw ((hmem key).1 hkey)
    have htotal := List.length_eq_length_filter_add (l := ids.dedup)
      fun key => decide (key ∈ (selectEvidence ids sourceKind limit).1)
    have hfront := hselected.length_eq
    have hlength := hperm.length_eq
    simp only [decide_not]
    change ids.dedup.length - (finalDraw ids sourceKind limit).selected.length = _
    change _ = (finalDraw ids sourceKind limit).selected.length at hlength
    change _ = (sortedBy id (finalDraw ids sourceKind limit).selected).length at hfront
    omega
  · intro key hkey hleft kind
    rw [hcount, hcount]
    exact balanced_finalDraw hkey (fun h => hleft ((hmem key).2 h)) kind
  · intro key hkey other hother hkind hlt
    exact (hmem other).2 (smallest_finalDraw ((hmem key).1 hkey) hother hkind hlt)
  · intro other hsame
    have hkeys : sortedSet other = sortedSet ids := sortedSet_eq_of_mem_iff hsame
    have hlength : other.dedup.length = ids.dedup.length := by
      refine ((List.perm_ext_iff_of_nodup (List.nodup_dedup other) (List.nodup_dedup ids)).2
        ?_).length_eq
      intro key
      rw [List.mem_dedup, List.mem_dedup, hsame]
    unfold selectEvidence
    simp only
    rw [hkeys, hlength]

end SearchTrust.Report
