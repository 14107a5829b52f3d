/-
What does not depend on the order of a list: finding the only item with a property, and
what is written of the items after they are sorted by a key.
-/
import SearchTrust.Order.Sorting

namespace SearchTrust.Order

section Finding

variable {α β : Type*} {items other : List α}

/-- The only item with a property is found in every order. -/
theorem find?_eq_of_perm {p : α → Bool} (h : items.Perm other)
    (hone : ∀ a ∈ items, ∀ b ∈ items, p a = true → p b = true → a = b) :
    items.find? p = other.find? p := by
  cases hfirst : items.find? p with
  | none =>
      symm
      rw [List.find?_eq_none] at hfirst ⊢
      intro a ha
      exact hfirst a (h.mem_iff.2 ha)
  | some a =>
      have ha := List.mem_of_find?_eq_some hfirst
      have hpa := List.find?_some hfirst
      cases hother : other.find? p with
      | none =>
          rw [List.find?_eq_none] at hother
          exact absurd hpa (hother a (h.mem_iff.1 ha))
      | some b =>
          have hb := h.mem_iff.2 (List.mem_of_find?_eq_some hother)
          rw [hone a ha b hb hpa (List.find?_some hother)]

/-- Where no value is given twice, only one item gives it. -/
theorem eq_of_nodup_filterMap {f : α → Option β} (hnodup : (items.filterMap f).Nodup)
    {a b : α} (ha : a ∈ items) (hb : b ∈ items) {value : β} (hfa : f a = some value)
    (hfb : f b = some value) : a = b := by
  induction items with
  | nil => cases ha
  | cons item rest ih =>
      have hlater : ∀ c ∈ rest, f c = some value → f item ≠ some value := by
        intro c hc hfc hitem
        rw [List.filterMap_cons_some hitem, List.nodup_cons] at hnodup
        exact hnodup.1 (List.mem_filterMap.2 ⟨c, hc, hfc⟩)
      have hrest : (rest.filterMap f).Nodup := by
        cases hitem : f item with
        | none => rwa [List.filterMap_cons_none hitem] at hnodup
        | some first =>
            rw [List.filterMap_cons_some hitem, List.nodup_cons] at hnodup
            exact hnodup.2
      rcases List.mem_cons.1 ha with rfl | ha'
      · rcases List.mem_cons.1 hb with rfl | hb'
        · rfl
        · exact absurd hfa (hlater b hb' hfb)
      · rcases List.mem_cons.1 hb with rfl | hb'
        · exact absurd hfb (hlater a ha' hfa)
        · exact ih hrest ha' hb'

end Finding

section Writing

variable {α β κ : Type*} [LinearOrder κ] {key : α → κ} {f : α → β} {items other : List α}

/-- What is written of sorted items does not depend on the order in which they came, where
items with one key are written alike. -/
theorem map_sortedBy_eq_of_perm (h : items.Perm other)
    (hties : ∀ a ∈ items, ∀ b ∈ items, key a = key b → f a = f b) :
    (sortedBy key items).map f = (sortedBy key other).map f := by
  let entry := fun a => (key a, f a)
  have hperm : ((sortedBy key items).map entry).Perm ((sortedBy key other).map entry) :=
    ((sortedBy_perm key items).trans (h.trans (sortedBy_perm key other).symm)).map entry
  have hsorted : ∀ list : List α,
      ((sortedBy key list).map entry).Pairwise fun a b => a.1 ≤ b.1 := by
    intro list
    rw [List.pairwise_map]
    exact pairwise_sortedBy key list
  have hentries : (sortedBy key items).map entry = (sortedBy key other).map entry := by
    refine hperm.eq_of_pairwise ?_ (hsorted items) (hsorted other)
    intro a b ha hb hab hba
    obtain ⟨first, hfirst, rfl⟩ := List.mem_map.1 ha
    obtain ⟨second, hsecond, rfl⟩ := List.mem_map.1 hb
    have hkey : key first = key second := le_antisymm hab hba
    have hvalue := hties first (mem_sortedBy.1 hfirst) second
      (h.mem_iff.2 (mem_sortedBy.1 hsecond)) hkey
    exact Prod.ext hkey hvalue
  have hsecond := congrArg (List.map Prod.snd) hentries
  rwa [List.map_map, List.map_map] at hsecond

/-- Items that are written alike in every order of theirs are written alike. -/
theorem written_of_swap {a b : α} {rest : List α} (hkey : key a = key b)
    (h : (sortedBy key (a :: b :: rest)).map f = (sortedBy key (b :: a :: rest)).map f) :
    f a = f b := by
  have hkeys : (sortedBy key (a :: b :: rest)).map key =
      (sortedBy key (b :: a :: rest)).map key :=
    map_sortedBy_eq_of_perm (List.Perm.swap b a rest) fun _ _ _ _ hties => hties
  have hpairs : (sortedBy key (a :: b :: rest)).map (fun c => (key c, f c)) =
      (sortedBy key (b :: a :: rest)).map (fun c => (key c, f c)) := by
    rw [← List.zip_map', ← List.zip_map', hkeys, h]
  -- Sorting leaves the items of one key in the order in which they came.
  have hstable : ∀ list : List α,
      (sortedBy key list).filter (fun c => key c = key a) =
        list.filter fun c => key c = key a := by
    intro list
    apply filter_sortedBy
    refine List.pairwise_of_forall_mem_list ?_
    intro c hc d hd
    have hkeyc := (List.mem_filter.1 hc).2
    have hkeyd := (List.mem_filter.1 hd).2
    rw [decide_eq_true_eq] at hkeyc hkeyd
    rw [hkeyc, hkeyd]
  have hfilter := congrArg (List.filter fun p => p.1 = key a) hpairs
  rw [List.filter_map, List.filter_map] at hfilter
  have hcomp : ((fun p : κ × β => decide (p.1 = key a)) ∘ fun c => (key c, f c)) =
      fun c => decide (key c = key a) := rfl
  rw [hcomp, hstable, hstable] at hfilter
  have hhead : ∀ (c : α) (list : List α), key c = key a →
      (c :: list).filter (fun d => key d = key a) =
        c :: list.filter fun d => key d = key a :=
    fun c list hc => List.filter_cons_of_pos (decide_eq_true hc)
  rw [hhead a (b :: rest) rfl, hhead b (a :: rest) hkey.symm, List.map_cons,
    List.map_cons] at hfilter
  exact congrArg Prod.snd (List.cons.inj hfilter).1

/-- What is written of sorted items is the same for every order in which they come exactly
where items with one key are written alike. -/
theorem map_sortedBy_invariant_iff :
    (∀ other, items.Perm other →
      (sortedBy key items).map f = (sortedBy key other).map f) ↔
      ∀ a ∈ items, ∀ b ∈ items, key a = key b → f a = f b := by
  constructor
  · intro h a ha b hb hkey
    by_cases hab : a = b
    · rw [hab]
    · obtain ⟨front, back, rfl⟩ := List.append_of_mem ha
      have hb' : b ∈ front ++ back := by
        rcases List.mem_append.1 hb with hb | hb
        · exact List.mem_append_left _ hb
        · rcases List.mem_cons.1 hb with rfl | hb
          · exact absurd rfl hab
          · exact List.mem_append_right _ hb
      obtain ⟨before, after, hsplit⟩ := List.append_of_mem hb'
      have hperm : (front ++ a :: back).Perm (a :: b :: (before ++ after)) := by
        refine List.perm_middle.trans (List.Perm.cons a ?_)
        rw [hsplit]
        exact List.perm_middle
      apply written_of_swap hkey
      rw [← h _ hperm, ← h _ (hperm.trans (List.Perm.swap b a _))]
  · intro hties other hperm
    exact map_sortedBy_eq_of_perm hperm hties

end Writing

end SearchTrust.Order
