/-
A selection of the best items in which items to keep replace the worst of the others: what
it comes to does not depend on the order of the replacements.
-/
import SearchTrust.Order.Sorting

namespace SearchTrust.Order

variable {α κ : Type*}

/-- The list with the last item that is not to be kept replaced; `none` where there is
none. -/
def replaceLast (keep : α → Bool) (item : α) : List α → Option (List α)
  | [] => none
  | head :: rest =>
      match replaceLast keep item rest with
      | some after => some (head :: after)
      | none => if keep head then none else some (item :: rest)

section Replacing

variable {keep : α → Bool} {item : α} {items after : List α}

theorem replaceLast_none (h : replaceLast keep item items = none) :
    ∀ a ∈ items, keep a = true := by
  induction items with
  | nil => simp
  | cons head rest ih =>
      rw [replaceLast] at h
      split at h
      next => cases h
      next hrest =>
        split at h
        next hkeep => exact List.forall_mem_cons.2 ⟨hkeep, ih hrest⟩
        next => cases h

/-- The item takes the place of the last one that is not to be kept. -/
theorem replaceLast_some (h : replaceLast keep item items = some after) :
    ∃ front old back, items = front ++ old :: back ∧ after = front ++ item :: back ∧
      keep old = false ∧ ∀ a ∈ back, keep a = true := by
  induction items generalizing after with
  | nil => cases h
  | cons head rest ih =>
      rw [replaceLast] at h
      split at h
      next rest' hrest =>
        obtain ⟨front, old, back, hitems, hafter, hold, hback⟩ := ih hrest
        cases h
        exact ⟨head :: front, old, back, by rw [hitems, List.cons_append],
          by rw [hafter, List.cons_append], hold, hback⟩
      next hrest =>
        split at h
        next => cases h
        next hkeep =>
          cases h
          exact ⟨[], head, rest, rfl, rfl, Bool.eq_false_iff.2 hkeep, replaceLast_none hrest⟩

end Replacing

section Placing

variable [LinearOrder κ] [DecidableEq α]

/-- A selection with one more item to keep. -/
def placeKept (keep : α → Bool) (key : α → κ) (selected : List α) (item : α) : List α :=
  if item ∈ selected then selected
  else
    match replaceLast keep item selected with
    | none => selected
    | some after => sortedBy key after

variable {keep : α → Bool} {key : α → κ} {limit : ℕ} {all done selected : List α} {item : α}

/-- What placing items to keep leaves true of a selection from a sorted list. -/
structure Selects (keep : α → Bool) (key : α → κ) (limit : ℕ) (all done selected : List α) :
    Prop where
  sorted : selected.Pairwise fun a b => key a ≤ key b
  length : selected.length = min limit all.length
  kept : ∀ a ∈ selected, keep a = true → a ∈ all
  distinct : (selected.filter keep).Nodup
  /-- The others are the best of the others. -/
  others : selected.filter (! keep ·) <+: all.filter (! keep ·)
  placed : ∀ a ∈ done, keep a = true ∧ (a ∈ selected ∨ ∀ b ∈ selected, keep b = true)

theorem selects_take (hsorted : all.Pairwise fun a b => key a ≤ key b)
    (hdistinct : (all.filter keep).Nodup) :
    Selects keep key limit all [] (all.take limit) where
  sorted := hsorted.sublist (List.take_sublist _ _)
  length := List.length_take
  kept := fun _ h _ => List.mem_of_mem_take h
  distinct := hdistinct.sublist ((List.take_sublist _ _).filter _)
  others := (List.take_prefix _ _).filter _
  placed := fun _ h => absurd h List.not_mem_nil

/-- A replacement that takes place. -/
theorem Selects.replace {after : List α} (h : Selects keep key limit all done selected)
    (hitem : item ∈ all) (hkeep : keep item = true) (hnew : item ∉ selected)
    (hafter : replaceLast keep item selected = some after) :
    Selects keep key limit all (done ++ [item]) (sortedBy key after) := by
  obtain ⟨front, old, back, hselected, rfl, hold, hback⟩ := replaceLast_some hafter
  have hbackOthers : back.filter (! keep ·) = [] := by
    refine List.filter_eq_nil_iff.2 fun a ha => ?_
    rw [hback a ha]
    exact Bool.false_ne_true
  have hothers : selected.filter (! keep ·) = front.filter (! keep ·) ++ [old] := by
    rw [hselected, List.filter_append, List.filter_cons_of_pos (by rw [hold]; rfl), hbackOthers]
  have hafterOthers : (front ++ item :: back).filter (! keep ·) = front.filter (! keep ·) := by
    rw [List.filter_append, List.filter_cons_of_neg (by rw [hkeep]; exact Bool.false_ne_true),
      hbackOthers, List.append_nil]
  have hfront : (front.filter (! keep ·)).Pairwise fun a b => key a ≤ key b := by
    refine h.sorted.sublist (List.Sublist.trans List.filter_sublist ?_)
    rw [hselected]
    exact List.sublist_append_left _ _
  have hstable : (sortedBy key (front ++ item :: back)).filter (! keep ·) =
      front.filter (! keep ·) := by
    rw [filter_sortedBy (hafterOthers ▸ hfront), hafterOthers]
  have hmem : ∀ a, a ∈ sortedBy key (front ++ item :: back) ↔
      a = item ∨ a ∈ front ∨ a ∈ back := by
    intro a
    rw [mem_sortedBy, List.mem_append, List.mem_cons]
    exact or_left_comm
  refine ⟨pairwise_sortedBy _ _, ?_, ?_, ?_, ?_, ?_⟩
  · rw [length_sortedBy, ← h.length, hselected, List.length_append, List.length_append,
      List.length_cons, List.length_cons]
  · intro a ha hkeepA
    rcases (hmem a).1 ha with rfl | ha
    · exact hitem
    · refine h.kept a ?_ hkeepA
      rw [hselected, List.mem_append, List.mem_cons]
      exact ha.imp_right .inr
  · have hkept : (sortedBy key (front ++ item :: back)).filter keep |>.Perm
        (item :: selected.filter keep) := by
      refine ((sortedBy_perm _ _).filter keep).trans ?_
      rw [hselected, List.filter_append, List.filter_append, List.filter_cons_of_pos hkeep,
        List.filter_cons_of_neg (by rw [hold]; exact Bool.false_ne_true)]
      exact List.perm_middle
    refine hkept.nodup_iff.2 (List.nodup_cons.2 ⟨?_, h.distinct⟩)
    exact fun hmem => hnew (List.mem_of_mem_filter hmem)
  · rw [hstable]
    refine List.IsPrefix.trans ?_ h.others
    rw [hothers]
    exact List.prefix_append _ _
  · intro a ha
    rcases List.mem_append.1 ha with ha | ha
    · obtain ⟨hkeepA, hplaced⟩ := h.placed a ha
      have hin : a ∈ selected := by
        refine hplaced.resolve_right fun hall => ?_
        have holdIn : old ∈ selected := by
          rw [hselected]
          exact List.mem_append_right _ List.mem_cons_self
        exact Bool.false_ne_true (hold.symm.trans (hall old holdIn))
      refine ⟨hkeepA, .inl ((hmem a).2 (.inr ?_))⟩
      rw [hselected, List.mem_append, List.mem_cons] at hin
      rcases hin with hin | rfl | hin
      · exact .inl hin
      · exact absurd (hold.symm.trans hkeepA) Bool.false_ne_true
      · exact .inr hin
    · rw [List.mem_singleton.1 ha]
      exact ⟨hkeep, .inl ((hmem item).2 (.inl rfl))⟩

/-- One more item to keep. -/
theorem Selects.place (h : Selects keep key limit all done selected) (hitem : item ∈ all)
    (hkeep : keep item = true) :
    Selects keep key limit all (done ++ [item]) (placeKept keep key selected item) := by
  have hunchanged : (item ∈ selected ∨ ∀ b ∈ selected, keep b = true) →
      Selects keep key limit all (done ++ [item]) selected := by
    intro hplaced
    refine ⟨h.sorted, h.length, h.kept, h.distinct, h.others, fun a ha => ?_⟩
    rcases List.mem_append.1 ha with ha | ha
    · exact h.placed a ha
    · rw [List.mem_singleton.1 ha]
      exact ⟨hkeep, hplaced⟩
  unfold placeKept
  split
  next hin => exact hunchanged (.inl hin)
  next hnew =>
    split
    next hnone => exact hunchanged (.inr (replaceLast_none hnone))
    next after hafter => exact h.replace hitem hkeep hnew hafter

/-- All the items to keep, one after the other. -/
theorem Selects.placeAll {items : List α} (h : Selects keep key limit all done selected)
    (hitems : ∀ a ∈ items, a ∈ all ∧ keep a = true) :
    Selects keep key limit all (done ++ items) (items.foldl (placeKept keep key) selected) := by
  induction items generalizing done selected with
  | nil => rwa [List.append_nil]
  | cons item items ih =>
      have hstep := h.place (hitems item List.mem_cons_self).1 (hitems item List.mem_cons_self).2
      have hrest := ih hstep fun a ha => hitems a (List.mem_cons_of_mem _ ha)
      rwa [List.append_assoc] at hrest

/-- What a selection comes to when all items to keep were placed. -/
structure KeptBest (keep : α → Bool) (key : α → κ) (limit : ℕ) (all selected : List α) :
    Prop where
  sorted : selected.Pairwise fun a b => key a ≤ key b
  length : selected.length = min limit all.length
  /-- Few items to keep leave room for the best of the others. -/
  closed : (all.filter keep).length ≤ limit → selected.Perm
    (all.filter keep ++ (all.filter (! keep ·)).take (limit - (all.filter keep).length))
  crowded : limit < (all.filter keep).length → ∀ a ∈ selected, a ∈ all ∧ keep a = true

theorem Selects.keptBest (h : Selects keep key limit all done selected)
    (hdistinct : (all.filter keep).Nodup) (hdone : ∀ a ∈ all, keep a = true → a ∈ done) :
    KeptBest keep key limit all selected := by
  have hparts : selected.Perm (selected.filter keep ++ selected.filter (! keep ·)) :=
    (List.filter_append_perm keep selected).symm
  have hall : (all.filter keep).length + (all.filter (! keep ·)).length = all.length := by
    rw [← List.length_append]
    exact (List.filter_append_perm keep all).length_eq
  have hselected : (selected.filter keep).length + (selected.filter (! keep ·)).length =
      min limit all.length := by
    rw [← List.length_append, ← hparts.length_eq, h.length]
  have hsub : (selected.filter keep).Subperm (all.filter keep) := by
    refine List.subperm_of_subset h.distinct fun a ha => ?_
    obtain ⟨hin, hkeep⟩ := List.mem_filter.1 ha
    exact List.mem_filter.2 ⟨h.kept a hin hkeep, hkeep⟩
  -- Either all items to keep are selected, or only such items are.
  have hcases : (selected.filter keep).Perm (all.filter keep) ∨
      selected.filter (! keep ·) = [] := by
    by_cases hothers : selected.filter (! keep ·) = []
    · exact .inr hothers
    · refine .inl (hsub.antisymm (List.subperm_of_subset hdistinct fun a ha => ?_))
      obtain ⟨hin, hkeep⟩ := List.mem_filter.1 ha
      refine List.mem_filter.2 ⟨?_, hkeep⟩
      refine (h.placed a (hdone a hin hkeep)).2.resolve_right fun hkeepAll => hothers ?_
      refine List.filter_eq_nil_iff.2 fun b hb => ?_
      rw [hkeepAll b hb]
      exact Bool.false_ne_true
  have hless := hsub.length_le
  refine ⟨h.sorted, h.length, fun hfew => ?_, fun hmany a ha => ?_⟩
  · have hkept : (selected.filter keep).Perm (all.filter keep) := by
      rcases hcases with hperm | hnone
      · exact hperm
      · rw [hnone, List.length_nil] at hselected
        exact hsub.perm_of_length_le (by omega)
    have hothers : selected.filter (! keep ·) =
        (all.filter (! keep ·)).take (limit - (all.filter keep).length) := by
      obtain ⟨rest, hrest⟩ := h.others
      rw [hkept.length_eq] at hselected
      rw [← hrest]
      have hlength : (selected.filter (! keep ·)).length + rest.length =
          (all.filter (! keep ·)).length := by
        rw [← List.length_append, hrest]
      by_cases hroom : limit - (all.filter keep).length ≤ (selected.filter (! keep ·)).length
      · have hexact : limit - (all.filter keep).length = (selected.filter (! keep ·)).length := by
          omega
        rw [hexact, List.take_left']
        rfl
      · have hnil : rest = [] := List.eq_nil_of_length_eq_zero (by omega)
        rw [hnil, List.append_nil, List.take_of_length_le (by omega)]
    refine hparts.trans ?_
    rw [hothers]
    exact hkept.append_right _
  · have hnone : selected.filter (! keep ·) = [] := by
      rcases hcases with hperm | hnone
      · refine List.eq_nil_of_length_eq_zero ?_
        rw [hperm.length_eq] at hselected
        omega
      · exact hnone
    have hkeep : keep a = true := by
      by_contra hnot
      have hmem : a ∈ selected.filter (! keep ·) := by
        refine List.mem_filter.2 ⟨ha, ?_⟩
        rw [Bool.eq_false_iff.2 hnot]
        rfl
      rw [hnone] at hmem
      exact List.not_mem_nil hmem
    exact ⟨h.kept a ha hkeep, hkeep⟩

/-- The best items, with the items to keep in the place of the worst others: the result
depends on neither the order nor the repetitions of the items that are placed. -/
theorem keptBest_foldl {items : List α} (hsorted : all.Pairwise fun a b => key a ≤ key b)
    (hdistinct : (all.filter keep).Nodup)
    (hitems : ∀ a, a ∈ items ↔ a ∈ all ∧ keep a = true) :
    KeptBest keep key limit all (items.foldl (placeKept keep key) (all.take limit)) := by
  have hstart : Selects keep key limit all [] (all.take limit) := selects_take hsorted hdistinct
  have hplaced := hstart.placeAll fun a ha => (hitems a).1 ha
  rw [List.nil_append] at hplaced
  exact hplaced.keptBest hdistinct fun a ha hkeep => (hitems a).2 ⟨ha, hkeep⟩

end Placing

end SearchTrust.Order
