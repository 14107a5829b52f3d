/-
`_average_ranks` and `spearman`: how the order of the weeks in one source follows their
order in another one.
-/
import Mathlib.Data.List.TakeWhile
import SearchTrust.Numeric.Correlation
import SearchTrust.Order.Ranks
import SearchTrust.Order.Sorting

namespace SearchTrust.CrossSource

open SearchTrust.Numeric
open SearchTrust.Order

variable {α β δ : Type*} [LinearOrder α] [LinearOrder β]

/-- The rounds of the loop from a position of the sorted list on: `rest` is
`indexed[cursor:]`, and the inner loop finds the run of values equal to its first one. -/
def rankRuns (cursor : ℕ) : List (ℕ × α) → List ℚ → List ℚ
  | [], result => result
  | head :: rest, result =>
      let same := rest.takeWhile fun item => item.2 = head.2
      let stop := cursor + 1 + same.length
      let rank : ℚ := (cursor + 1 + stop) / 2
      rankRuns stop (rest.dropWhile fun item => item.2 = head.2)
        ((head :: same).foldl (fun result item => result.set item.1 rank) result)
termination_by items => items.length
decreasing_by
  exact Nat.lt_succ_of_le (List.dropWhile_sublist _).length_le

/-- `sorted(enumerate(values), key=lambda item: item[1])`. -/
def indexedValues (values : List α) : List (ℕ × α) :=
  sortedBy Prod.snd (values.zipIdx.map Prod.swap)

/-- `_average_ranks(values)`. -/
def averageRanks (values : List α) : List ℚ :=
  rankRuns 0 (indexedValues values) (List.replicate values.length 0)

/-- The two sides of the weeks. -/
def leftOf (values : List (δ × α × β)) : List α := values.map fun item => item.2.1

def rightOf (values : List (δ × α × β)) : List β := values.map fun item => item.2.2

/-- `spearman(values, minimum_weeks=minimumWeeks)`, in exact arithmetic. -/
noncomputable def spearman (values : List (δ × α × β)) (minimumWeeks : ℕ) : Option ℝ :=
  if values.length < minimumWeeks then none
  else
    let left := leftOf values
    let right := rightOf values
    if left.dedup.length < 2 ∨ right.dedup.length < 2 then none
    else
      let leftRanks := averageRanks left
      let rightRanks := averageRanks right
      let numerator : ℝ := covariation leftRanks rightRanks
      let denominator := √((variation leftRanks * variation rightRanks : ℚ) : ℝ)
      if denominator ≠ 0 then some (numerator / denominator) else none

section Loop

omit [LinearOrder α] in
theorem length_foldl_set (items : List (ℕ × α)) (rank : ℚ) (result : List ℚ) :
    (items.foldl (fun result item => result.set item.1 rank) result).length =
      result.length := by
  induction items generalizing result with
  | nil => rfl
  | cons item items ih => rw [List.foldl_cons, ih, List.length_set]

omit [LinearOrder α] in
/-- A run writes its rank at the indexes of its items. -/
theorem getElem?_foldl_set {items : List (ℕ × α)} {rank : ℚ} {result : List ℚ} {i : ℕ}
    (hi : i < result.length) :
    (items.foldl (fun result item => result.set item.1 rank) result)[i]? =
      if i ∈ items.map Prod.fst then some rank else result[i]? := by
  induction items generalizing result with
  | nil => rfl
  | cons item items ih =>
      rw [List.foldl_cons, ih (by rwa [List.length_set]), List.map_cons]
      by_cases hrest : i ∈ items.map Prod.fst
      · rw [if_pos hrest, if_pos (List.mem_cons_of_mem _ hrest)]
      · by_cases hhead : i = item.1
        · subst hhead
          rw [if_neg hrest, if_pos List.mem_cons_self, List.getElem?_set_self hi]
        · rw [if_neg hrest, if_neg fun hmem => hrest (List.mem_of_ne_of_mem hhead hmem),
            List.getElem?_set_ne (Ne.symm hhead)]

theorem length_rankRuns (cursor : ℕ) (items : List (ℕ × α)) (result : List ℚ) :
    (rankRuns cursor items result).length = result.length := by
  induction cursor, items, result using rankRuns.induct with
  | case1 cursor result => rw [rankRuns]
  | case2 cursor head rest result same stop rank ih =>
      rw [rankRuns, ih, length_foldl_set]

/-- What comes after a run of a sorted list is larger. -/
theorem lt_of_mem_dropWhile {head item : ℕ × α} {rest : List (ℕ × α)}
    (hsorted : (head :: rest).Pairwise fun a b => a.2 ≤ b.2)
    (hmem : item ∈ rest.dropWhile fun other => other.2 = head.2) : head.2 < item.2 := by
  induction rest with
  | nil => cases hmem
  | cons next rest ih =>
      obtain ⟨hhead, htail⟩ := List.pairwise_cons.1 hsorted
      rw [List.dropWhile_cons] at hmem
      by_cases hsame : next.2 = head.2
      · rw [if_pos (decide_eq_true hsame)] at hmem
        refine ih (List.pairwise_cons.2 ⟨?_, (List.pairwise_cons.1 htail).2⟩) hmem
        exact fun other hother => hhead other (List.mem_cons_of_mem _ hother)
      · rw [if_neg (by simpa using hsame)] at hmem
        have hnext : head.2 < next.2 :=
          lt_of_le_of_ne (hhead next List.mem_cons_self) (Ne.symm hsame)
        rcases List.mem_cons.1 hmem with rfl | hrest
        · exact hnext
        · exact hnext.trans_le ((List.pairwise_cons.1 htail).1 item hrest)

theorem eq_of_mem_run {head item : ℕ × α} {rest : List (ℕ × α)}
    (h : item ∈ head :: rest.takeWhile fun other => other.2 = head.2) : item.2 = head.2 := by
  rcases List.mem_cons.1 h with rfl | hsame
  · rfl
  · have hequal := List.mem_takeWhile_imp hsame
    exact of_decide_eq_true hequal

/-- The first run of what is left has the rank that the loop computes for it. -/
theorem averageRank_first_run {front rest : List (ℕ × α)} {head : ℕ × α}
    (hsorted : (head :: rest).Pairwise fun a b => a.2 ≤ b.2)
    (hfront : ∀ a ∈ front, a.2 < head.2) :
    averageRank ((front ++ head :: rest).map Prod.snd) head.2 =
      (front.length + 1 + ((front.length + 1 +
        (rest.takeWhile fun item => item.2 = head.2).length : ℕ) : ℚ)) / 2 := by
  have hrest := List.takeWhile_append_dropWhile (p := fun item : ℕ × α => item.2 = head.2)
    (l := rest)
  conv_lhs => rw [← hrest]
  rw [← List.cons_append, List.map_append, List.map_append, averageRank_of_run]
  · rw [List.length_map, List.length_map, List.length_cons]
    push_cast
    ring
  · intro a ha
    obtain ⟨item, hitem, rfl⟩ := List.mem_map.1 ha
    exact hfront item hitem
  · intro a ha
    obtain ⟨item, hitem, rfl⟩ := List.mem_map.1 ha
    exact eq_of_mem_run hitem
  · intro a ha
    obtain ⟨item, hitem, rfl⟩ := List.mem_map.1 ha
    exact lt_of_mem_dropWhile hsorted hitem

/-- The loop gives every item its rank in the whole list and touches nothing else. -/
theorem rankRuns_spec {front rest : List (ℕ × α)} {result : List ℚ}
    (hsorted : (front ++ rest).Pairwise fun a b => a.2 ≤ b.2)
    (hfront : ∀ a ∈ front, ∀ b ∈ rest, a.2 < b.2)
    (hindexes : ((front ++ rest).map Prod.fst).Nodup)
    (hbound : ∀ item ∈ rest, item.1 < result.length) :
    (∀ item ∈ rest, (rankRuns front.length rest result)[item.1]? =
      some (averageRank ((front ++ rest).map Prod.snd) item.2)) ∧
    ∀ i < result.length, i ∉ rest.map Prod.fst →
      (rankRuns front.length rest result)[i]? = result[i]? := by
  induction hlen : rest.length using Nat.strong_induction_on generalizing front rest result with
  | h size ih =>
      cases rest with
      | nil =>
          rw [rankRuns]
          exact ⟨fun item hitem => absurd hitem List.not_mem_nil, fun _ _ _ => rfl⟩
      | cons head rest =>
          let same := rest.takeWhile fun item => item.2 = head.2
          let after := rest.dropWhile fun item => item.2 = head.2
          let rank : ℚ := (front.length + 1 + ((front.length + 1 + same.length : ℕ) : ℚ)) / 2
          let written := (head :: same).foldl (fun result item => result.set item.1 rank) result
          have hrest : rest = same ++ after := (List.takeWhile_append_dropWhile).symm
          have hwhole : front ++ head :: rest = (front ++ head :: same) ++ after := by
            rw [List.append_assoc, List.cons_append, ← hrest]
          have hstep : rankRuns front.length (head :: rest) result =
              rankRuns (front ++ head :: same).length after written := by
            rw [rankRuns, List.length_append, List.length_cons]
            have hstop : front.length + 1 + same.length = front.length + (same.length + 1) := by
              omega
            rw [← hstop]
          have hrun : ∀ item ∈ head :: same, item.2 = head.2 := fun item => eq_of_mem_run
          have htail := (List.pairwise_append.1 hsorted).2.1
          have hafter : ∀ item ∈ after, head.2 < item.2 :=
            fun item => lt_of_mem_dropWhile htail
          have hrank : averageRank ((front ++ head :: rest).map Prod.snd) head.2 = rank :=
            averageRank_first_run htail fun item hitem =>
              hfront item hitem head List.mem_cons_self
          have hlength : written.length = result.length := length_foldl_set _ _ _
          have hsub : ∀ item ∈ after, item ∈ head :: rest := by
            intro item hitem
            exact List.mem_cons_of_mem _ ((List.dropWhile_sublist _).subset hitem)
          have hsmaller : after.length < size := by
            rw [← hlen]
            exact Nat.lt_succ_of_le (List.dropWhile_sublist _).length_le
          rw [hwhole] at hsorted hindexes ⊢
          have hfront' : ∀ a ∈ front ++ head :: same, ∀ b ∈ after, a.2 < b.2 := by
            intro a ha b hb
            rcases List.mem_append.1 ha with hold | hnew
            · exact hfront a hold b (hsub b hb)
            · rw [hrun a hnew]
              exact hafter b hb
          have hbound' : ∀ item ∈ after, item.1 < written.length := by
            intro item hitem
            rw [hlength]
            exact hbound item (hsub item hitem)
          obtain ⟨hvalues, hothers⟩ := ih after.length hsmaller hsorted hfront' hindexes hbound' rfl
          rw [hwhole] at hrank
          rw [hstep]
          refine ⟨?_, ?_⟩
          · intro item hitem
            rw [hrest, ← List.cons_append] at hitem
            rcases List.mem_append.1 hitem with hnew | hlater
            · have hbelow : item.1 < result.length := by
                refine hbound item ?_
                rw [hrest, ← List.cons_append]
                exact hitem
              have hfresh : item.1 ∉ after.map Prod.fst := by
                rw [List.map_append] at hindexes
                intro hmem
                have hfirst : item.1 ∈ (front ++ head :: same).map Prod.fst :=
                  List.mem_map_of_mem (List.mem_append_right _ hnew)
                exact (List.nodup_append.1 hindexes).2.2 _ hfirst _ hmem rfl
              rw [hothers item.1 (by rwa [hlength]) hfresh, getElem?_foldl_set hbelow,
                if_pos (List.mem_map_of_mem hnew), hrun item hnew, hrank]
            · exact hvalues item hlater
          · intro i hi hnot
            rw [hrest, ← List.cons_append, List.map_append, List.mem_append, not_or] at hnot
            rw [hothers i (by rwa [hlength]) hnot.2, getElem?_foldl_set hi, if_neg hnot.1]

end Loop

section Ranks

theorem indexedValues_perm (values : List α) :
    (indexedValues values).Perm (values.zipIdx.map Prod.swap) := sortedBy_perm _ _

/-- The ranks that the loop finds are the average ranks. -/
theorem averageRanks_eq (values : List α) :
    averageRanks values = values.map (averageRank values) := by
  have hperm := indexedValues_perm values
  have hfirsts : (indexedValues values).map Prod.fst |>.Perm (List.range values.length) := by
    refine (hperm.map Prod.fst).trans ?_
    rw [List.map_map]
    exact List.Perm.of_eq (List.zipIdx_map_snd 0 values |>.trans List.range_eq_range'.symm)
  have hseconds : (indexedValues values).map Prod.snd |>.Perm values := by
    refine (hperm.map Prod.snd).trans ?_
    rw [List.map_map]
    exact List.Perm.of_eq (List.zipIdx_map_fst 0 values)
  have hbound : ∀ item ∈ indexedValues values,
      item.1 < (List.replicate values.length (0 : ℚ)).length := by
    intro item hitem
    rw [List.length_replicate]
    exact List.mem_range.1 (hfirsts.mem_iff.1 (List.mem_map_of_mem hitem))
  have hfront : ∀ a ∈ ([] : List (ℕ × α)), ∀ b ∈ indexedValues values, a.2 < b.2 :=
    fun a ha => absurd ha List.not_mem_nil
  have hspec := (rankRuns_spec (pairwise_sortedBy _ _) hfront
    (hfirsts.nodup_iff.2 List.nodup_range) hbound).1
  refine List.ext_getElem? ?_
  intro i
  by_cases hi : i < values.length
  · have hmem : (i, values[i]) ∈ indexedValues values := by
      refine hperm.mem_iff.2 (List.mem_map.2 ⟨(values[i], i), ?_, rfl⟩)
      exact List.mem_zipIdx_iff_getElem?.2 (List.getElem?_eq_getElem hi)
    have hrank := hspec _ hmem
    rw [List.nil_append] at hrank
    rw [List.getElem?_map, List.getElem?_eq_getElem hi, Option.map_some,
      ← averageRank_perm hseconds]
    exact hrank
  · have hle := not_lt.1 hi
    have hlength : (averageRanks values).length = values.length := by
      rw [averageRanks, length_rankRuns, List.length_replicate]
    rw [List.getElem?_eq_none (by rwa [hlength]), List.getElem?_eq_none (by rwa [List.length_map])]

theorem length_averageRanks (values : List α) : (averageRanks values).length = values.length := by
  rw [averageRanks_eq, List.length_map]

end Ranks

section Spearman

variable {values : List (δ × α × β)} {minimumWeeks : ℕ}

/-- There are two different values in the list. -/
def Varied (items : List α) : Prop := ∃ a ∈ items, ∃ b ∈ items, a ≠ b

theorem varied_iff {items : List α} : Varied items ↔ ¬items.dedup.length < 2 := by
  constructor
  · rintro ⟨a, ha, b, hb, hne⟩ hlt
    have hsub : [a, b].Subperm items.dedup := by
      refine List.subperm_of_subset (by simpa using hne) ?_
      intro c hc
      rcases List.mem_cons.1 hc with rfl | hc
      · exact List.mem_dedup.2 ha
      · rw [List.mem_singleton.1 hc]
        exact List.mem_dedup.2 hb
    exact absurd hlt (not_lt.2 hsub.length_le)
  · intro hlt
    have hnodup := List.nodup_dedup items
    match hitems : items.dedup with
    | [] => exact absurd (by rw [hitems]; exact Nat.zero_lt_two) hlt
    | [a] => exact absurd (by rw [hitems]; exact Nat.one_lt_two) hlt
    | a :: b :: rest =>
        have ha : a ∈ items.dedup := by
          rw [hitems]
          exact List.mem_cons_self
        have hb : b ∈ items.dedup := by
          rw [hitems]
          exact List.mem_cons_of_mem _ List.mem_cons_self
        rw [hitems] at hnodup
        have hne : a ≠ b := fun heq => (List.nodup_cons.1 hnodup).1 (heq ▸ List.mem_cons_self)
        exact ⟨a, List.mem_dedup.1 ha, b, List.mem_dedup.1 hb, hne⟩

/-- Values that differ have ranks that vary. -/
theorem variation_averageRanks_pos {items : List α} (h : Varied items) :
    0 < variation (averageRanks items) := by
  obtain ⟨a, ha, b, hb, hne⟩ := h
  rw [averageRanks_eq]
  refine variation_pos (List.mem_map_of_mem ha) (List.mem_map_of_mem hb) ?_
  intro heq
  rcases lt_or_gt_of_ne hne with hlt | hlt
  · exact (averageRank_lt ha hb hlt).ne heq
  · exact (averageRank_lt hb ha hlt).ne' heq

theorem sides_length (values : List (δ × α × β)) :
    (averageRanks (leftOf values)).length = (averageRanks (rightOf values)).length := by
  rw [length_averageRanks, length_averageRanks, leftOf, rightOf, List.length_map, List.length_map]

/-- With enough weeks and two values on each side the denominator is positive. -/
theorem spearman_eq (hweeks : minimumWeeks ≤ values.length) (hleft : Varied (leftOf values))
    (hright : Varied (rightOf values)) :
    0 < √((variation (averageRanks (leftOf values)) *
      variation (averageRanks (rightOf values)) : ℚ) : ℝ) ∧
    spearman values minimumWeeks =
      some (correlation (averageRanks (leftOf values)) (averageRanks (rightOf values))) := by
  have hpos : 0 < √((variation (averageRanks (leftOf values)) *
      variation (averageRanks (rightOf values)) : ℚ) : ℝ) := by
    refine Real.sqrt_pos.2 ?_
    exact_mod_cast mul_pos (variation_averageRanks_pos hleft) (variation_averageRanks_pos hright)
  refine ⟨hpos, ?_⟩
  unfold spearman
  simp only
  rw [if_neg (not_lt.2 hweeks),
    if_neg (not_or.2 ⟨varied_iff.1 hleft, varied_iff.1 hright⟩), if_pos hpos.ne']
  rfl

/-- Without them there is no coefficient. -/
theorem spearman_eq_none
    (h : ¬(minimumWeeks ≤ values.length ∧ Varied (leftOf values) ∧ Varied (rightOf values))) :
    spearman values minimumWeeks = none := by
  unfold spearman
  simp only
  by_cases hweeks : values.length < minimumWeeks
  · rw [if_pos hweeks]
  · rw [if_neg hweeks]
    by_cases hsides : (leftOf values).dedup.length < 2 ∨ (rightOf values).dedup.length < 2
    · exact if_pos hsides
    · refine absurd ⟨not_lt.1 hweeks, ?_⟩ h
      exact ⟨varied_iff.2 fun hlt => hsides (.inl hlt), varied_iff.2 fun hlt => hsides (.inr hlt)⟩

end Spearman

section Orders

variable {α' β' : Type*} [LinearOrder α'] [LinearOrder β']

/-- Two lists of one length whose items are in the same order. -/
def SameOrder (items : List α) (other : List α') : Prop :=
  items.length = other.length ∧
    ∀ p ∈ items.zip other, ∀ q ∈ items.zip other, p.1 < q.1 ↔ p.2 < q.2

/-- Two lists of one length, the items of the second one in the reversed order. -/
def ReversedOrder (items : List α) (other : List α') : Prop :=
  items.length = other.length ∧
    ∀ p ∈ items.zip other, ∀ q ∈ items.zip other, p.1 < q.1 ↔ q.2 < p.2

variable {items : List α} {other : List α'}

theorem averageRanks_of_sameOrder (h : SameOrder items other) :
    averageRanks items = averageRanks other := by
  have hfst := List.map_fst_zip h.1.le
  have hsnd := List.map_snd_zip h.1.ge
  rw [averageRanks_eq, averageRanks_eq]
  conv_lhs => rw [← hfst]
  conv_rhs => rw [← hsnd]
  rw [List.map_map, List.map_map]
  refine List.map_congr_left ?_
  intro p hp
  exact averageRank_eq_of_sameOrder h.2 hp

theorem averageRanks_of_reversedOrder (h : ReversedOrder items other) :
    averageRanks other = (averageRanks items).map fun rank => (items.length : ℚ) + 1 - rank := by
  have hfst := List.map_fst_zip h.1.le
  have hsnd := List.map_snd_zip h.1.ge
  have hcount : (items.zip other).length = items.length := by
    rw [List.length_zip, h.1, min_self]
  rw [averageRanks_eq, averageRanks_eq, List.map_map]
  conv_lhs => rw [← hsnd]
  conv_rhs => rw [← hfst]
  rw [List.map_map, List.map_map]
  refine List.map_congr_left ?_
  intro p hp
  have hrank := averageRank_eq_of_reversedOrder h.2 hp
  rw [hcount] at hrank
  rw [hfst] at hrank ⊢
  exact hrank

omit [LinearOrder α] [LinearOrder α'] in
/-- Where different items stay different, a varied list leads to a varied one. -/
theorem varied_of_zip (hlength : items.length = other.length)
    (hne : ∀ p ∈ items.zip other, ∀ q ∈ items.zip other, p.1 ≠ q.1 → p.2 ≠ q.2)
    (h : Varied items) : Varied other := by
  obtain ⟨a, ha, b, hb, hab⟩ := h
  rw [← List.map_fst_zip hlength.le] at ha hb
  obtain ⟨p, hp, rfl⟩ := List.mem_map.1 ha
  obtain ⟨q, hq, rfl⟩ := List.mem_map.1 hb
  refine ⟨p.2, ?_, q.2, ?_, hne p hp q hq hab⟩
  · exact (List.of_mem_zip hp).2
  · exact (List.of_mem_zip hq).2

theorem sameOrder_symm (h : SameOrder items other) : SameOrder other items := by
  refine ⟨h.1.symm, ?_⟩
  intro p hp q hq
  rw [← List.zip_swap] at hp hq
  obtain ⟨p', hp', rfl⟩ := List.mem_map.1 hp
  obtain ⟨q', hq', rfl⟩ := List.mem_map.1 hq
  exact (h.2 p' hp' q' hq').symm

theorem reversedOrder_symm (h : ReversedOrder items other) : ReversedOrder other items := by
  refine ⟨h.1.symm, ?_⟩
  intro p hp q hq
  rw [← List.zip_swap] at hp hq
  obtain ⟨p', hp', rfl⟩ := List.mem_map.1 hp
  obtain ⟨q', hq', rfl⟩ := List.mem_map.1 hq
  exact (h.2 q' hq' p' hp').symm

theorem varied_of_sameOrder (h : SameOrder items other) (hvaried : Varied items) :
    Varied other := by
  refine varied_of_zip h.1 ?_ hvaried
  intro p hp q hq hne heq
  rcases lt_or_gt_of_ne hne with hlt | hlt
  · exact ((h.2 p hp q hq).1 hlt).ne heq
  · exact ((h.2 q hq p hp).1 hlt).ne' heq

theorem varied_of_reversedOrder (h : ReversedOrder items other) (hvaried : Varied items) :
    Varied other := by
  refine varied_of_zip h.1 ?_ hvaried
  intro p hp q hq hne heq
  rcases lt_or_gt_of_ne hne with hlt | hlt
  · exact ((h.2 p hp q hq).1 hlt).ne' heq
  · exact ((h.2 q hq p hp).1 hlt).ne heq

variable {values : List (δ × α × β)} {others : List (δ × α' × β')} {minimumWeeks : ℕ}

/-- Only the order of the values on each side decides the coefficient. -/
theorem spearman_of_sameOrder (hleft : SameOrder (leftOf values) (leftOf others))
    (hright : SameOrder (rightOf values) (rightOf others)) :
    spearman values minimumWeeks = spearman others minimumWeeks := by
  have hlength : values.length = others.length := by
    have hsides := hleft.1
    rwa [leftOf, leftOf, List.length_map, List.length_map] at hsides
  by_cases h : minimumWeeks ≤ values.length ∧ Varied (leftOf values) ∧ Varied (rightOf values)
  · obtain ⟨hweeks, hl, hr⟩ := h
    rw [(spearman_eq hweeks hl hr).2, (spearman_eq (hlength ▸ hweeks)
      (varied_of_sameOrder hleft hl) (varied_of_sameOrder hright hr)).2,
      averageRanks_of_sameOrder hleft, averageRanks_of_sameOrder hright]
  · rw [spearman_eq_none h, spearman_eq_none]
    rintro ⟨hweeks, hl, hr⟩
    exact h ⟨hlength ▸ hweeks, varied_of_sameOrder (sameOrder_symm hleft) hl,
      varied_of_sameOrder (sameOrder_symm hright) hr⟩

/-- Reversing the order of the right side turns the sign. -/
theorem spearman_of_reversedRight (hleft : SameOrder (leftOf values) (leftOf others))
    (hright : ReversedOrder (rightOf values) (rightOf others)) :
    spearman others minimumWeeks = (spearman values minimumWeeks).map fun r => -r := by
  have hlength : values.length = others.length := by
    have hsides := hleft.1
    rwa [leftOf, leftOf, List.length_map, List.length_map] at hsides
  by_cases h : minimumWeeks ≤ values.length ∧ Varied (leftOf values) ∧ Varied (rightOf values)
  · obtain ⟨hweeks, hl, hr⟩ := h
    rw [(spearman_eq hweeks hl hr).2, (spearman_eq (hlength ▸ hweeks)
      (varied_of_sameOrder hleft hl) (varied_of_reversedOrder hright hr)).2,
      ← averageRanks_of_sameOrder hleft, averageRanks_of_reversedOrder hright,
      correlation_reflect]
    rfl
  · rw [spearman_eq_none h, spearman_eq_none]
    · rfl
    rintro ⟨hweeks, hl, hr⟩
    exact h ⟨hlength ▸ hweeks, varied_of_sameOrder (sameOrder_symm hleft) hl,
      varied_of_reversedOrder (reversedOrder_symm hright) hr⟩

/-- The weeks with their sides exchanged. -/
def exchanged (values : List (δ × α × β)) : List (δ × β × α) :=
  values.map fun item => (item.1, item.2.2, item.2.1)

omit [LinearOrder α] [LinearOrder β] in
theorem leftOf_exchanged (values : List (δ × α × β)) :
    leftOf (exchanged values) = rightOf values := List.map_map ..

omit [LinearOrder α] [LinearOrder β] in
theorem rightOf_exchanged (values : List (δ × α × β)) :
    rightOf (exchanged values) = leftOf values := List.map_map ..

theorem spearman_exchanged (values : List (δ × α × β)) (minimumWeeks : ℕ) :
    spearman (exchanged values) minimumWeeks = spearman values minimumWeeks := by
  have hlength : (exchanged values).length = values.length := List.length_map ..
  by_cases h : minimumWeeks ≤ values.length ∧ Varied (leftOf values) ∧ Varied (rightOf values)
  · obtain ⟨hweeks, hl, hr⟩ := h
    have hweeks' : minimumWeeks ≤ (exchanged values).length := hlength.symm ▸ hweeks
    have hleft : Varied (leftOf (exchanged values)) := (leftOf_exchanged values).symm ▸ hr
    have hright : Varied (rightOf (exchanged values)) := (rightOf_exchanged values).symm ▸ hl
    rw [(spearman_eq hweeks' hleft hright).2, (spearman_eq hweeks hl hr).2, leftOf_exchanged, rightOf_exchanged,
      correlation_comm]
  · rw [spearman_eq_none h, spearman_eq_none]
    rw [hlength, leftOf_exchanged, rightOf_exchanged]
    exact fun hall => h ⟨hall.1, hall.2.2, hall.2.1⟩

theorem spearman_bounds {r : ℝ} (h : spearman values minimumWeeks = some r) :
    -1 ≤ r ∧ r ≤ 1 := by
  by_cases hall : minimumWeeks ≤ values.length ∧ Varied (leftOf values) ∧ Varied (rightOf values)
  · obtain ⟨hweeks, hl, hr⟩ := hall
    rw [(spearman_eq hweeks hl hr).2] at h
    obtain rfl := Option.some.inj h
    exact abs_le.1 (abs_correlation_le_one (sides_length values))
  · rw [spearman_eq_none hall] at h
    cases h

end Orders

section Laws

variable (α β δ)

/-- Equal values share a rank, larger ones have larger ranks, the ranks add up to
`1 + ... + n` and move with their values. -/
structure RankLaws : Prop where
  length_eq : ∀ values : List α, (averageRanks values).length = values.length
  equal : ∀ (values : List α) (i j : ℕ) (a : α) (p q : ℚ), values[i]? = some a →
    values[j]? = some a → (averageRanks values)[i]? = some p →
    (averageRanks values)[j]? = some q → p = q
  larger : ∀ (values : List α) (i j : ℕ) (a b : α) (p q : ℚ), values[i]? = some a →
    values[j]? = some b → (averageRanks values)[i]? = some p →
    (averageRanks values)[j]? = some q → a < b → p < q
  sum_eq : ∀ values : List α,
    (averageRanks values).sum = values.length * (values.length + 1) / 2
  permuted : ∀ (n : ℕ) (f : Fin n → α) (σ : Equiv.Perm (Fin n)) (i : Fin n),
    (averageRanks (List.ofFn (f ∘ σ)))[(i : ℕ)]? = (averageRanks (List.ofFn f))[(σ i : ℕ)]?

theorem rankLaws : RankLaws α := by
  have hrank : ∀ (values : List α) (i : ℕ) (a : α) (p : ℚ), values[i]? = some a →
      (averageRanks values)[i]? = some p → p = averageRank values a := by
    intro values i a p ha hp
    rw [averageRanks_eq, List.getElem?_map, ha, Option.map_some] at hp
    exact (Option.some.inj hp).symm
  refine ⟨length_averageRanks, ?_, ?_, ?_, ?_⟩
  · intro values i j a p q hi hj hp hq
    rw [hrank values i a p hi hp, hrank values j a q hj hq]
  · intro values i j a b p q hi hj hp hq hlt
    rw [hrank values i a p hi hp, hrank values j b q hj hq]
    exact averageRank_lt (List.mem_of_getElem? hi) (List.mem_of_getElem? hj) hlt
  · intro values
    rw [averageRanks_eq]
    exact sum_averageRank values
  · intro n f σ i
    have hperm : (List.ofFn (f ∘ σ)).Perm (List.ofFn f) := σ.ofFn_comp_perm f
    rw [averageRanks_eq, averageRanks_eq, List.getElem?_map, List.getElem?_map,
      List.getElem?_ofFn, List.getElem?_ofFn]
    simp only [Fin.is_lt, dite_true, Fin.eta, Function.comp, Option.map_some]
    rw [averageRank_perm hperm]

/-- Average ranks follow the values, and the coefficient, in exact arithmetic, is a
symmetric function of the two orders between -1 and 1 that turns its sign with one of them
and exists wherever both sides vary. -/
theorem rank_correlation :
    RankLaws α ∧
    (∀ (values others : List (δ × α × β)) (minimumWeeks : ℕ),
      SameOrder (leftOf values) (leftOf others) → SameOrder (rightOf values) (rightOf others) →
      spearman values minimumWeeks = spearman others minimumWeeks) ∧
    (∀ (values : List (δ × α × β)) (minimumWeeks : ℕ),
      spearman (exchanged values) minimumWeeks = spearman values minimumWeeks) ∧
    (∀ (values others : List (δ × α × β)) (minimumWeeks : ℕ),
      (SameOrder (leftOf values) (leftOf others) ∧
          ReversedOrder (rightOf values) (rightOf others) ∨
        ReversedOrder (leftOf values) (leftOf others) ∧
          SameOrder (rightOf values) (rightOf others)) →
      spearman others minimumWeeks = (spearman values minimumWeeks).map fun r => -r) ∧
    (∀ (values : List (δ × α × β)) (minimumWeeks : ℕ) (r : ℝ),
      spearman values minimumWeeks = some r → -1 ≤ r ∧ r ≤ 1) ∧
    ∀ (values : List (δ × α × β)) (minimumWeeks : ℕ), minimumWeeks ≤ values.length →
      Varied (leftOf values) → Varied (rightOf values) →
      √((variation (averageRanks (leftOf values)) *
        variation (averageRanks (rightOf values)) : ℚ) : ℝ) ≠ 0 ∧
      ∃ r, spearman values minimumWeeks = some r := by
  refine ⟨rankLaws α, ?_, spearman_exchanged, ?_, fun _ _ _ => spearman_bounds, ?_⟩
  · intro values others minimumWeeks hleft hright
    exact spearman_of_sameOrder hleft hright
  · rintro values others minimumWeeks (⟨hleft, hright⟩ | ⟨hleft, hright⟩)
    · exact spearman_of_reversedRight hleft hright
    · rw [← spearman_exchanged others, ← spearman_exchanged values]
      refine spearman_of_reversedRight ?_ ?_
      · rw [leftOf_exchanged, leftOf_exchanged]
        exact hright
      · rw [rightOf_exchanged, rightOf_exchanged]
        exact hleft
  · intro values minimumWeeks hweeks hleft hright
    obtain ⟨hpos, hvalue⟩ := spearman_eq hweeks hleft hright
    exact ⟨hpos.ne', _, hvalue⟩

end Laws

end SearchTrust.CrossSource
