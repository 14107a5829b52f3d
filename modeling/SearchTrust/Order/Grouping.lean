/-
Grouping of a list by a key, in the order of the first members.  What is decided group by
group depends on the keys and on the members of a key, not on the order of the list.
-/
import Mathlib.Data.List.Induction
import Mathlib.Data.List.Nodup
import Mathlib.Data.List.Perm.Basic
import Mathlib.Data.List.Dedup

namespace SearchTrust.Order

section Grouping

variable {α κ : Type*} [DecidableEq κ] (key : α → κ)

/-- `groups.setdefault(key(item), []).append(item)`. -/
def addMember (item : α) : List (κ × List α) → List (κ × List α)
  | [] => [(key item, [item])]
  | (other, members) :: rest =>
      if other = key item then (other, members ++ [item]) :: rest
      else (other, members) :: addMember item rest

/-- The groups of a list. -/
def grouped (items : List α) : List (κ × List α) :=
  items.foldl (fun groups item => addMember key item groups) []

/-- The keys in the order in which they appear first. -/
def groupKeys (items : List α) : List κ := (grouped key items).map Prod.fst

variable {key}

theorem grouped_append (items : List α) (item : α) :
    grouped key (items ++ [item]) = addMember key item (grouped key items) := by
  simp [grouped]

theorem keys_addMember (item : α) (groups : List (κ × List α)) :
    (addMember key item groups).map Prod.fst =
      if key item ∈ groups.map Prod.fst then groups.map Prod.fst
      else groups.map Prod.fst ++ [key item] := by
  induction groups with
  | nil => simp [addMember]
  | cons group rest ih =>
      by_cases h : group.1 = key item
      · simp [addMember, h]
      · have hne : ¬key item = group.1 := fun heq => h heq.symm
        simp only [addMember, if_neg h, List.map_cons, ih, List.mem_cons, hne, false_or]
        split
        · rfl
        · rfl

theorem mem_addMember {item : α} {groups : List (κ × List α)} {group : κ × List α}
    (hnodup : (groups.map Prod.fst).Nodup) (h : group ∈ addMember key item groups) :
    group = (key item, [item]) ∧ key item ∉ groups.map Prod.fst ∨
      group.1 = key item ∧ (∃ members, (group.1, members) ∈ groups ∧
        group.2 = members ++ [item]) ∨
      group.1 ≠ key item ∧ group ∈ groups := by
  induction groups with
  | nil =>
      left
      simpa [addMember] using h
  | cons first rest ih =>
      obtain ⟨hfresh, hnodup⟩ := List.nodup_cons.1 hnodup
      unfold addMember at h
      split at h
      next heq =>
        rcases List.mem_cons.1 h with rfl | hrest
        · exact .inr (.inl ⟨heq, first.2, List.mem_cons_self, rfl⟩)
        · refine .inr (.inr ⟨?_, List.mem_cons_of_mem _ hrest⟩)
          intro hsame
          apply hfresh
          rw [heq, ← hsame]
          exact List.mem_map_of_mem hrest
      next hne =>
        rcases List.mem_cons.1 h with rfl | hrest
        · exact .inr (.inr ⟨hne, List.mem_cons_self⟩)
        · rcases ih hnodup hrest with ⟨hnew, hnot⟩ | ⟨hkey, members, hold, hmembers⟩ | ⟨hkey, hold⟩
          · left
            refine ⟨hnew, ?_⟩
            simp only [List.map_cons, List.mem_cons, not_or]
            exact ⟨fun heq => hne heq.symm, hnot⟩
          · exact .inr (.inl ⟨hkey, members, List.mem_cons_of_mem _ hold, hmembers⟩)
          · exact .inr (.inr ⟨hkey, List.mem_cons_of_mem _ hold⟩)

theorem mem_groupKeys {items : List α} {k : κ} : k ∈ groupKeys key items ↔ k ∈ items.map key := by
  induction items using List.reverseRecOn with
  | nil => simp [groupKeys, grouped]
  | append_singleton items item ih =>
      rw [groupKeys, grouped_append, keys_addMember, ← groupKeys, List.map_append, List.mem_append,
        ← ih]
      split
      next hmem =>
        constructor
        · exact .inl
        · rintro (hk | hk)
          · exact hk
          · obtain rfl := List.mem_singleton.1 hk
            exact hmem
      next => simp

theorem nodup_groupKeys (items : List α) : (groupKeys key items).Nodup := by
  induction items using List.reverseRecOn with
  | nil => simp [groupKeys, grouped]
  | append_singleton items item ih =>
      rw [groupKeys, grouped_append, keys_addMember, ← groupKeys]
      split
      next => exact ih
      next hfresh =>
        apply List.Nodup.append ih (List.nodup_singleton _)
        simpa using hfresh

/-- The group of a key has the items of that key, in their order. -/
theorem members_eq {items : List α} {group : κ × List α} (h : group ∈ grouped key items) :
    group.2 = items.filter fun item => key item = group.1 := by
  induction items using List.reverseRecOn generalizing group with
  | nil => simp [grouped] at h
  | append_singleton items item ih =>
      rw [grouped_append] at h
      rw [List.filter_append]
      rcases mem_addMember (nodup_groupKeys items) h with
        ⟨rfl, hfresh⟩ | ⟨hkey, members, hold, hmembers⟩ | ⟨hkey, hold⟩
      · have hnone : items.filter (fun other => key other = key item) = [] := by
          apply List.filter_eq_nil_iff.2
          intro other hother hsame
          apply hfresh
          rw [← groupKeys, mem_groupKeys, ← of_decide_eq_true hsame]
          exact List.mem_map_of_mem hother
        simp [hnone]
      · have hmembers' : members = items.filter fun item => key item = group.1 := ih hold
        rw [hmembers, ← hmembers']
        simp [hkey]
      · rw [ih hold]
        have hne : ¬key item = group.1 := fun heq => hkey heq.symm
        simp [hne]

/-- The groups in closed form. -/
theorem grouped_eq (items : List α) :
    grouped key items =
      (groupKeys key items).map fun k => (k, items.filter fun item => key item = k) := by
  rw [groupKeys, List.map_map]
  conv_lhs => rw [← List.map_id (grouped key items)]
  apply List.map_congr_left
  intro group hgroup
  exact Prod.ext rfl (members_eq hgroup)

theorem find?_grouped {items : List α} {k : κ} (h : k ∈ items.map key) :
    (grouped key items).find? (fun group => group.1 = k) =
      some (k, items.filter fun item => key item = k) := by
  have hmem : (k, items.filter fun item => key item = k) ∈ grouped key items := by
    rw [grouped_eq]
    exact List.mem_map_of_mem (mem_groupKeys.2 h)
  cases hfound : (grouped key items).find? fun group => group.1 = k with
  | none =>
      have hnot := List.find?_eq_none.1 hfound _ hmem
      simp at hnot
  | some group =>
      have hkey : group.1 = k := by simpa using List.find?_some hfound
      have hmembers := members_eq (List.mem_of_find?_eq_some hfound)
      rw [hkey] at hmembers
      exact congrArg some (Prod.ext hkey hmembers)

end Grouping

end SearchTrust.Order
