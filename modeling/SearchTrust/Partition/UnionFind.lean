/-
Union-find over list positions with path halving, and the grouping of a list by
the roots it ends with.  The groups are the components of the relation that
decides which positions are merged.
-/
import SearchTrust.Partition.Components
import Mathlib.Data.Fintype.Card
import Mathlib.Data.List.FinRange

namespace SearchTrust.Partition

section Forests

/-- `parents[index]`. -/
def parentOf (parents : List ℕ) (index : ℕ) : ℕ := parents.getD index index

/-- `find(index)`: the position turns to its grandparent until it is a root. -/
def find : ℕ → List ℕ → ℕ → List ℕ × ℕ
  | 0, parents, index => (parents, index)
  | fuel + 1, parents, index =>
      if parentOf parents index = index then (parents, index)
      else
        let halved := parents.set index (parentOf parents (parentOf parents index))
        find fuel halved (parentOf halved index)

/-- `union(left, right)`: a chain of parents never has more steps than positions. -/
def union (parents : List ℕ) (left right : ℕ) : List ℕ :=
  let first := find parents.length parents left
  let second := find parents.length first.1 right
  if first.2 = second.2 then second.1 else second.1.set second.2 first.2

/-- `parents` is a forest on the positions below `n`, each below the root `root`
gives it; heights fall along the way. -/
structure Forest (n : ℕ) (root height : ℕ → ℕ) (parents : List ℕ) : Prop where
  length_eq : parents.length = n
  parent_lt : ∀ i < n, parentOf parents i < n
  root_parent : ∀ i < n, root (parentOf parents i) = root i
  root_self : ∀ i < n, parentOf parents i = i → root i = i
  height_lt : ∀ i < n, parentOf parents i ≠ i → height (parentOf parents i) < height i

/-- The roots after the tree of `right` is put under the root `left`. -/
def mergeRoots (root : ℕ → ℕ) (left right : ℕ) (i : ℕ) : ℕ :=
  if root i = right then left else root i

variable {n i j left right fuel : ℕ} {root height : ℕ → ℕ} {parents : List ℕ}

theorem parentOf_set (hi : i < parents.length) (value : ℕ) :
    parentOf (parents.set i value) j = if j = i then value else parentOf parents j := by
  unfold parentOf
  rw [List.getD_eq_getElem?_getD, List.getD_eq_getElem?_getD, List.getElem?_set]
  by_cases hj : j = i
  · rw [if_pos hj, if_pos hj.symm, if_pos hi, Option.getD_some]
  · rw [if_neg hj, if_neg fun h => hj h.symm]

theorem Forest.range (n : ℕ) : Forest n id id (List.range n) := by
  have hparent : ∀ i, parentOf (List.range n) i = i := by
    intro i
    unfold parentOf
    rw [List.getD_eq_getElem?_getD]
    by_cases hi : i < n
    · rw [List.getElem?_range hi, Option.getD_some]
    · rw [List.getElem?_eq_none (by rw [List.length_range]; omega), Option.getD_none]
  refine ⟨List.length_range, ?_, ?_, ?_, ?_⟩
  · intro i hi
    rwa [hparent]
  · intro i _
    rw [hparent]
  · intro i _ _
    rfl
  · intro i _ hne
    exact absurd (hparent i) hne

/-- The root of a position is a position that is its own parent. -/
theorem Forest.root_spec (h : Forest n root height parents) (hi : i < n) :
    root i < n ∧ parentOf parents (root i) = root i := by
  induction hk : height i using Nat.strong_induction_on generalizing i with
  | h k ih =>
      by_cases hself : parentOf parents i = i
      · rw [h.root_self i hi hself]
        exact ⟨hi, hself⟩
      · have hlt := h.height_lt i hi hself
        rw [← h.root_parent i hi]
        exact ih _ (hk ▸ hlt) (h.parent_lt i hi) rfl

theorem Forest.root_root (h : Forest n root height parents) (hi : i < n) :
    root (root i) = root i :=
  h.root_self (root i) (h.root_spec hi).1 (h.root_spec hi).2

/-- Heights may be taken below the number of positions. -/
theorem Forest.bounded (h : Forest n root height parents) :
    ∃ height', Forest n root height' parents ∧ ∀ i < n, height' i < n := by
  let below : ℕ → Finset ℕ := fun i => (Finset.range n).filter fun j => height j < height i
  refine ⟨fun i => (below i).card, ?_, ?_⟩
  · refine ⟨h.length_eq, h.parent_lt, h.root_parent, h.root_self, ?_⟩
    intro i hi hne
    have hlt := h.height_lt i hi hne
    refine Finset.card_lt_card (Finset.ssubset_iff_of_subset ?_ |>.2 ?_)
    · intro j hj
      rw [Finset.mem_filter] at hj ⊢
      exact ⟨hj.1, hj.2.trans hlt⟩
    · refine ⟨parentOf parents i, ?_, ?_⟩
      · rw [Finset.mem_filter, Finset.mem_range]
        exact ⟨h.parent_lt i hi, hlt⟩
      · rw [Finset.mem_filter]
        exact fun hmem => lt_irrefl _ hmem.2
  · intro i hi
    have hssub : below i ⊂ Finset.range n := by
      refine (Finset.ssubset_iff_of_subset (Finset.filter_subset _ _)).2 ?_
      refine ⟨i, Finset.mem_range.2 hi, ?_⟩
      rw [Finset.mem_filter]
      exact fun hmem => lt_irrefl _ hmem.2
    have hcard := Finset.card_lt_card hssub
    rwa [Finset.card_range] at hcard

theorem Forest.halve (h : Forest n root height parents) (hi : i < n)
    (hne : parentOf parents i ≠ i) :
    Forest n root height (parents.set i (parentOf parents (parentOf parents i))) := by
  have hlen : i < parents.length := by rw [h.length_eq]; exact hi
  have hup := h.parent_lt i hi
  have hheight : height (parentOf parents (parentOf parents i)) < height i := by
    by_cases hroot : parentOf parents (parentOf parents i) = parentOf parents i
    · rw [hroot]
      exact h.height_lt i hi hne
    · exact (h.height_lt _ hup hroot).trans (h.height_lt i hi hne)
  refine ⟨by rw [List.length_set, h.length_eq], ?_, ?_, ?_, ?_⟩
  · intro j hj
    rw [parentOf_set hlen]
    split
    · exact h.parent_lt _ hup
    · exact h.parent_lt j hj
  · intro j hj
    rw [parentOf_set hlen]
    split
    next heq => rw [h.root_parent _ hup, h.root_parent i hi, heq]
    next => exact h.root_parent j hj
  · intro j hj hself
    rw [parentOf_set hlen] at hself
    split at hself
    next heq =>
      rw [hself, heq] at hheight
      exact absurd hheight (lt_irrefl _)
    next => exact h.root_self j hj hself
  · intro j hj hself
    rw [parentOf_set hlen] at hself ⊢
    split at hself
    next heq =>
      rw [if_pos heq, heq]
      exact hheight
    next hj' =>
      rw [if_neg hj']
      exact h.height_lt j hj hself

/-- With enough turns `find` returns the root and keeps every root. -/
theorem Forest.find (h : Forest n root height parents) (hi : i < n) (hfuel : height i < fuel) :
    (find fuel parents i).2 = root i ∧ Forest n root height (find fuel parents i).1 := by
  induction fuel generalizing parents i with
  | zero => exact absurd hfuel (Nat.not_lt_zero _)
  | succ fuel ih =>
      unfold Partition.find
      split
      next hself => exact ⟨(h.root_self i hi hself).symm, h⟩
      next hne =>
        have hhalved := h.halve hi hne
        have hlen : i < parents.length := by rw [h.length_eq]; exact hi
        have hparent : parentOf (parents.set i (parentOf parents (parentOf parents i))) i =
            parentOf parents (parentOf parents i) := by
          rw [parentOf_set hlen, if_pos rfl]
        have hne' : parentOf (parents.set i (parentOf parents (parentOf parents i))) i ≠ i := by
          intro heq
          have hself := hhalved.root_self i hi heq
          have hroot := (h.root_spec hi).2
          rw [hself] at hroot
          exact hne hroot
        have hlt := hhalved.height_lt i hi hne'
        have hrec := ih hhalved (hhalved.parent_lt i hi) (by omega)
        rw [hhalved.root_parent i hi] at hrec
        exact hrec

theorem Forest.find_length (h : Forest n root height parents) (hi : i < n) :
    (Partition.find parents.length parents i).2 = root i ∧
      ∃ height', Forest n root height' (Partition.find parents.length parents i).1 := by
  obtain ⟨height', h', hbound⟩ := h.bounded
  have hfuel : height' i < parents.length := by
    rw [h.length_eq]
    exact hbound i hi
  have hfind := h'.find hi hfuel
  exact ⟨hfind.1, height', hfind.2⟩

/-- A root that is put under another root passes its tree on. -/
theorem Forest.link (h : Forest n root height parents) (hl : left < n) (hr : right < n)
    (hleft : root left = left) (hright : root right = right) (hne : left ≠ right) :
    ∃ height', Forest n (mergeRoots root left right) height' (parents.set right left) := by
  have hlen : right < parents.length := by rw [h.length_eq]; exact hr
  refine ⟨fun i => if root i = right then height i + height left + 1 else height i,
    by rw [List.length_set, h.length_eq], ?_, ?_, ?_, ?_⟩
  · intro j hj
    rw [parentOf_set hlen]
    split
    · exact hl
    · exact h.parent_lt j hj
  · intro j hj
    rw [parentOf_set hlen]
    split
    next heq =>
      rw [heq, mergeRoots, mergeRoots, hleft, hright, if_neg hne, if_pos rfl]
    next => rw [mergeRoots, mergeRoots, h.root_parent j hj]
  · intro j hj hself
    rw [parentOf_set hlen] at hself
    split at hself
    next heq => exact absurd (hself.trans heq) hne
    next hj' =>
      have hroot := h.root_self j hj hself
      rw [mergeRoots, hroot, if_neg hj']
  · intro j hj hself
    rw [parentOf_set hlen] at hself ⊢
    split at hself
    next heq =>
      rw [if_pos heq, heq, hright, hleft, if_neg hne, if_pos rfl]
      omega
    next hj' =>
      have hlt := h.height_lt j hj hself
      rw [if_neg hj', h.root_parent j hj]
      split
      · omega
      · exact hlt

theorem mergeRoots_self (root : ℕ → ℕ) (left : ℕ) : mergeRoots root left left = root := by
  funext i
  unfold mergeRoots
  split
  next h => exact h.symm
  next => rfl

/-- `union` puts the tree of `right` under the root of `left`. -/
theorem Forest.union (h : Forest n root height parents) (hl : left < n) (hr : right < n) :
    ∃ height', Forest n (mergeRoots root (root left) (root right)) height'
      (union parents left right) := by
  obtain ⟨hfirst, height₁, h₁⟩ := h.find_length hl
  have hlen : parents.length = (Partition.find parents.length parents left).1.length :=
    h.length_eq.trans h₁.length_eq.symm
  obtain ⟨hsecond, height₂, h₂⟩ := h₁.find_length hr
  rw [← hlen] at hsecond h₂
  unfold Partition.union
  simp only [hfirst, hsecond]
  split
  next heq =>
    rw [heq, mergeRoots_self]
    exact ⟨height₂, h₂⟩
  next hne =>
    exact h₂.link (h.root_spec hl).1 (h.root_spec hr).1 (h.root_root hl) (h.root_root hr) hne

end Forests

section Groups

variable {α : Type*}

/-- The positions `left < right` in the order of the two nested loops. -/
def pairs (n : ℕ) : List (ℕ × ℕ) :=
  (List.range n).flatMap fun left =>
    (List.range' (left + 1) (n - (left + 1))).map fun right => (left, right)

/-- The decision about two positions of a list. -/
def related (merges : α → α → Bool) (items : List α) (left right : ℕ) : Bool :=
  match items[left]?, items[right]? with
  | some a, some b => merges a b
  | _, _ => false

/-- The parents after one pair of positions. -/
def mergePair (merges : α → α → Bool) (items : List α) (parents : List ℕ) (pair : ℕ × ℕ) :
    List ℕ :=
  if related merges items pair.1 pair.2 then union parents pair.1 pair.2 else parents

/-- The parents after all pairs. -/
def mergeAll (merges : α → α → Bool) (items : List α) : List ℕ :=
  (pairs items.length).foldl (mergePair merges items) (List.range items.length)

/-- `grouped.setdefault(key, []).append(item)`. -/
def appendTo (key : ℕ) (item : α) : List (ℕ × List α) → List (ℕ × List α)
  | [] => [(key, [item])]
  | (other, members) :: rest =>
      if other = key then (other, members ++ [item]) :: rest
      else (other, members) :: appendTo key item rest

/-- One turn of the loop that collects the groups. -/
def collectOne (state : List ℕ × List (ℕ × List α)) (entry : α × ℕ) :
    List ℕ × List (ℕ × List α) :=
  let found := find state.1.length state.1 entry.2
  (found.1, appendTo found.2 entry.1 state.2)

/-- The groups in the order of their first members. -/
def connectedGroups (merges : α → α → Bool) (items : List α) : List (List α) :=
  ((items.zipIdx.foldl collectOne (mergeAll merges items, [])).2).map Prod.snd

variable {merges : α → α → Bool} {items : List α} {root : ℕ → ℕ} {parents : List ℕ}

theorem mem_pairs {n left right : ℕ} : (left, right) ∈ pairs n ↔ left < right ∧ right < n := by
  simp only [pairs, List.mem_flatMap, List.mem_range, List.mem_map, List.mem_range'_1,
    Prod.mk.injEq]
  constructor
  · rintro ⟨l, hl, r, hr, rfl, rfl⟩
    omega
  · rintro ⟨hlt, hr⟩
    exact ⟨left, by omega, right, by omega, rfl, rfl⟩

theorem related_get (i j : Fin items.length) :
    related merges items i j = merges (items.get i) (items.get j) := by
  unfold related
  rw [List.getElem?_eq_getElem i.isLt, List.getElem?_eq_getElem j.isLt]
  rfl

/-- The members of the tree below the root `k`. -/
def treeOf (items : List α) (root : ℕ → ℕ) (k : ℕ) : Multiset α :=
  (Finset.univ.filter fun i : Fin items.length => root i = k).val.map items.get

theorem mem_treeOf {k : ℕ} {a : α} :
    a ∈ treeOf items root k ↔ ∃ i : Fin items.length, root i = k ∧ items.get i = a := by
  simp [treeOf]

theorem treeOf_id (i : Fin items.length) : treeOf items id i = {items.get i} := by
  have hfilter : (Finset.univ.filter fun j : Fin items.length => id (j : ℕ) = i) = {i} := by
    ext j
    simp [Fin.ext_iff]
  rw [treeOf, hfilter]
  rfl

theorem treeOf_mergeRoots {left right : ℕ} (hne : left ≠ right) :
    treeOf items (mergeRoots root left right) left =
      treeOf items root left + treeOf items root right := by
  have hdisj : Disjoint (Finset.univ.filter fun i : Fin items.length => root i = left)
      (Finset.univ.filter fun i : Fin items.length => root i = right) := by
    rw [Finset.disjoint_filter]
    intro i _ hl hr
    exact hne (hl.symm.trans hr)
  have hfilter : (Finset.univ.filter fun i : Fin items.length =>
      mergeRoots root left right i = left) =
      (Finset.univ.filter fun i : Fin items.length => root i = left).disjUnion
        (Finset.univ.filter fun i : Fin items.length => root i = right) hdisj := by
    ext i
    rw [Finset.mem_disjUnion, Finset.mem_filter, Finset.mem_filter, Finset.mem_filter, mergeRoots]
    split
    next h => simp [h]
    next h => simp [h]
  rw [treeOf, hfilter, Finset.disjUnion, Multiset.map_add]
  rfl

theorem treeOf_mergeRoots_of_ne {left right k : ℕ} (hl : k ≠ left) (hr : k ≠ right) :
    treeOf items (mergeRoots root left right) k = treeOf items root k := by
  have hfilter : (Finset.univ.filter fun i : Fin items.length =>
      mergeRoots root left right i = k) =
      Finset.univ.filter fun i : Fin items.length => root i = k := by
    ext i
    rw [Finset.mem_filter, Finset.mem_filter, mergeRoots]
    split
    next h =>
      rw [h]
      exact ⟨fun h' => absurd h'.2.symm hl, fun h' => absurd h'.2.symm hr⟩
    next h => rfl
  rw [treeOf, hfilter]
  rfl

/-- What holds after the pairs `done`: related pairs have one root and every
tree is connected. -/
structure Merged (merges : α → α → Bool) (items : List α) (root : ℕ → ℕ)
    (done : List (ℕ × ℕ)) (parents : List ℕ) : Prop where
  forest : ∃ height, Forest items.length root height parents
  joined : ∀ pair ∈ done, related merges items pair.1 pair.2 → root pair.1 = root pair.2
  connected : ∀ i : Fin items.length,
    Connected (fun a b => merges a b = true) (treeOf items root (root i))

theorem Merged.start (merges : α → α → Bool) (items : List α) :
    Merged merges items id [] (List.range items.length) where
  forest := ⟨id, Forest.range items.length⟩
  joined := by simp
  connected := by
    intro i
    rw [id, treeOf_id]
    exact .single _

/-- One pair of positions. -/
theorem Merged.step (hsymm : ∀ a b, merges a b = true → merges b a = true)
    {done : List (ℕ × ℕ)} (h : Merged merges items root done parents) {left right : ℕ}
    (hl : left < items.length) (hr : right < items.length) :
    ∃ root', Merged merges items root' (done ++ [(left, right)])
      (mergePair merges items parents (left, right)) := by
  obtain ⟨height, hforest⟩ := h.forest
  unfold mergePair
  split
  next hrel =>
    refine ⟨mergeRoots root (root left) (root right), hforest.union hl hr, ?_, ?_⟩
    · intro pair hpair hpairs
      rcases List.mem_append.1 hpair with hpair | hpair
      · rw [mergeRoots, mergeRoots, h.joined pair hpair hpairs]
      · rw [List.mem_singleton.1 hpair, mergeRoots, mergeRoots, if_pos rfl]
        split
        · rfl
        · rfl
    · intro i
      by_cases hroots : root left = root right
      · rw [hroots, mergeRoots_self]
        exact h.connected i
      · by_cases hi : mergeRoots root (root left) (root right) i = root left
        · rw [hi, treeOf_mergeRoots hroots]
          rw [related_get ⟨left, hl⟩ ⟨right, hr⟩] at hrel
          exact (h.connected ⟨left, hl⟩).add hsymm (h.connected ⟨right, hr⟩)
            (mem_treeOf.2 ⟨⟨left, hl⟩, rfl, rfl⟩) (mem_treeOf.2 ⟨⟨right, hr⟩, rfl, rfl⟩) hrel
        · have hother : root i ≠ root right := by
            intro heq
            rw [mergeRoots, if_pos heq] at hi
            exact hi rfl
          rw [mergeRoots, if_neg hother] at hi
          rw [mergeRoots, if_neg hother, treeOf_mergeRoots_of_ne hi hother]
          exact h.connected i
  next hrel =>
    refine ⟨root, h.forest, ?_, h.connected⟩
    intro pair hpair hpairs
    rcases List.mem_append.1 hpair with hpair | hpair
    · exact h.joined pair hpair hpairs
    · rw [List.mem_singleton.1 hpair] at hpairs
      exact absurd hpairs hrel

/-- All pairs of a list of pairs. -/
theorem Merged.run (hsymm : ∀ a b, merges a b = true → merges b a = true)
    {done : List (ℕ × ℕ)} (h : Merged merges items root done parents)
    (todo : List (ℕ × ℕ)) (hlt : ∀ pair ∈ todo, pair.1 < items.length ∧ pair.2 < items.length) :
    ∃ root', Merged merges items root' (done ++ todo)
      (todo.foldl (mergePair merges items) parents) := by
  induction todo generalizing root done parents with
  | nil => exact ⟨root, by rwa [List.append_nil]⟩
  | cons pair todo ih =>
      have hpair := hlt pair List.mem_cons_self
      obtain ⟨root₁, h₁⟩ := h.step hsymm hpair.1 hpair.2
      obtain ⟨root₂, h₂⟩ := ih h₁ fun other hother => hlt other (List.mem_cons_of_mem pair hother)
      rw [List.append_assoc, List.singleton_append] at h₂
      exact ⟨root₂, h₂⟩

theorem mergeAll_merged (hsymm : ∀ a b, merges a b = true → merges b a = true)
    (items : List α) :
    ∃ root, Merged merges items root (pairs items.length) (mergeAll merges items) := by
  have hlt : ∀ pair ∈ pairs items.length, pair.1 < items.length ∧ pair.2 < items.length := by
    intro pair hpair
    have h := mem_pairs.1 hpair
    omega
  have h := (Merged.start merges items).run hsymm (pairs items.length) hlt
  rwa [List.nil_append] at h

/-- What holds of the groups after the entries `done`: each has the entries of its
root, in their order, and all roots occur. -/
structure Collected (root : ℕ → ℕ) (done : List (α × ℕ)) (grouped : List (ℕ × List α)) :
    Prop where
  nodup : (grouped.map Prod.fst).Nodup
  members : ∀ group ∈ grouped,
    group.2 = (done.filter fun entry => root entry.2 = group.1).map Prod.fst
  inhabited : ∀ group ∈ grouped, ∃ entry ∈ done, root entry.2 = group.1
  complete : ∀ entry ∈ done, root entry.2 ∈ grouped.map Prod.fst
  sum_eq : (grouped.map fun group => (group.2 : Multiset α)).sum = (done.map Prod.fst : List α)

variable {key : ℕ} {a : α} {grouped : List (ℕ × List α)}

theorem keys_appendTo :
    (appendTo key a grouped).map Prod.fst =
      if key ∈ grouped.map Prod.fst then grouped.map Prod.fst
      else grouped.map Prod.fst ++ [key] := by
  induction grouped with
  | nil => rfl
  | cons group grouped ih =>
      unfold appendTo
      by_cases hkey : group.1 = key
      · rw [if_pos hkey, if_pos (by simp [hkey])]
        rfl
      · have hne : key ≠ group.1 := fun h => hkey h.symm
        rw [if_neg hkey, List.map_cons, List.map_cons, ih]
        by_cases hmem : key ∈ grouped.map Prod.fst
        · rw [if_pos hmem, if_pos (List.mem_cons_of_mem _ hmem)]
        · rw [if_neg hmem, if_neg (List.not_mem_cons_of_ne_of_not_mem hne hmem)]
          rfl

/-- A group after an entry is an old one, or the one of the entry's key with the
entry at its end. -/
theorem mem_appendTo {group : ℕ × List α} (hnodup : (grouped.map Prod.fst).Nodup)
    (h : group ∈ appendTo key a grouped) :
    (group.1 ≠ key ∧ group ∈ grouped) ∨
      (group.1 = key ∧ ∃ members, group.2 = members ++ [a] ∧
        ((key, members) ∈ grouped ∨ (members = [] ∧ key ∉ grouped.map Prod.fst))) := by
  induction grouped with
  | nil =>
      rw [appendTo, List.mem_singleton] at h
      rw [h]
      exact .inr ⟨rfl, [], rfl, .inr ⟨rfl, List.not_mem_nil⟩⟩
  | cons first grouped ih =>
      rw [List.map_cons, List.nodup_cons] at hnodup
      unfold appendTo at h
      split at h
      next hkey =>
        rcases List.mem_cons.1 h with rfl | hmem
        · refine .inr ⟨hkey, first.2, rfl, .inl ?_⟩
          rw [← hkey]
          exact List.mem_cons_self
        · refine .inl ⟨?_, List.mem_cons_of_mem first hmem⟩
          intro heq
          refine hnodup.1 ?_
          rw [hkey, ← heq]
          exact List.mem_map_of_mem hmem
      next hkey =>
        rcases List.mem_cons.1 h with rfl | hmem
        · exact .inl ⟨hkey, List.mem_cons_self⟩
        · rcases ih hnodup.2 hmem with ⟨hne, hold⟩ | ⟨heq, members, hsnd, hold⟩
          · exact .inl ⟨hne, List.mem_cons_of_mem first hold⟩
          · refine .inr ⟨heq, members, hsnd, ?_⟩
            rcases hold with hold | ⟨hnil, hnot⟩
            · exact .inl (List.mem_cons_of_mem first hold)
            · exact .inr ⟨hnil, List.not_mem_cons_of_ne_of_not_mem (fun h => hkey h.symm) hnot⟩

theorem sum_appendTo :
    ((appendTo key a grouped).map fun group => (group.2 : Multiset α)).sum =
      (grouped.map fun group => (group.2 : Multiset α)).sum + {a} := by
  induction grouped with
  | nil => simp [appendTo]
  | cons first grouped ih =>
      unfold appendTo
      split
      next =>
        rw [List.map_cons, List.sum_cons, List.map_cons, List.sum_cons, ← Multiset.coe_add,
          Multiset.coe_singleton, add_right_comm]
      next => rw [List.map_cons, List.sum_cons, List.map_cons, List.sum_cons, ih, add_assoc]

theorem Collected.step {done : List (α × ℕ)} (h : Collected root done grouped)
    (entry : α × ℕ) :
    Collected root (done ++ [entry]) (appendTo (root entry.2) entry.1 grouped) := by
  refine ⟨?_, ?_, ?_, ?_, ?_⟩
  · rw [keys_appendTo]
    split
    · exact h.nodup
    next hnot => exact List.nodup_append.2 ⟨h.nodup, List.nodup_singleton _, by
        intro k hk k' hk' heq
        rw [List.mem_singleton] at hk'
        exact hnot (hk' ▸ heq ▸ hk)⟩
  · intro group hgroup
    rw [List.filter_append, List.map_append]
    rcases mem_appendTo h.nodup hgroup with ⟨hne, hold⟩ | ⟨heq, members, hsnd, hold⟩
    · have hlast : [entry].filter (fun entry => root entry.2 = group.1) = [] := by
        simpa using fun h : root entry.2 = group.1 => hne h.symm
      rw [h.members group hold, hlast, List.map_nil, List.append_nil]
    · have hlast : [entry].filter (fun other => root other.2 = root entry.2) = [entry] := by simp
      rw [hsnd, heq, hlast]
      refine congrArg (· ++ [entry.1]) ?_
      rcases hold with hold | ⟨hnil, hnot⟩
      · exact h.members _ hold
      · rw [hnil, eq_comm, List.map_eq_nil_iff, List.filter_eq_nil_iff]
        intro other hother hroot
        rw [decide_eq_true_eq] at hroot
        exact hnot (hroot ▸ h.complete other hother)
  · intro group hgroup
    rcases mem_appendTo h.nodup hgroup with ⟨-, hold⟩ | ⟨heq, -⟩
    · obtain ⟨other, hother, hroot⟩ := h.inhabited group hold
      exact ⟨other, List.mem_append_left _ hother, hroot⟩
    · exact ⟨entry, by simp, heq.symm⟩
  · intro other hother
    have hkeys : root other.2 ∈ grouped.map Prod.fst ∨ root other.2 = root entry.2 := by
      rcases List.mem_append.1 hother with hother | hother
      · exact .inl (h.complete other hother)
      · rw [List.mem_singleton.1 hother]
        exact .inr rfl
    rw [keys_appendTo]
    split
    next hmem => exact hkeys.elim id fun heq => heq ▸ hmem
    next => exact hkeys.elim (List.mem_append_left _) fun heq => heq ▸ by simp
  · rw [sum_appendTo, h.sum_eq, List.map_append, ← Multiset.coe_add]
    rfl

theorem Collected.start (root : ℕ → ℕ) : Collected root ([] : List (α × ℕ)) [] :=
  ⟨List.nodup_nil, by simp, by simp, by simp, rfl⟩

/-- The collecting loop sees every position under its root. -/
theorem Collected.run {n : ℕ} {height : ℕ → ℕ} {done : List (α × ℕ)}
    (h : Collected root done grouped) (hforest : Forest n root height parents)
    (todo : List (α × ℕ)) (hlt : ∀ entry ∈ todo, entry.2 < n) :
    Collected root (done ++ todo) (todo.foldl collectOne (parents, grouped)).2 := by
  induction todo generalizing done grouped parents height with
  | nil => rwa [List.append_nil]
  | cons entry todo ih =>
      obtain ⟨hroot, height', hforest'⟩ :=
        hforest.find_length (hlt entry List.mem_cons_self)
      have hstep := h.step entry
      rw [← hroot] at hstep
      have hrest := ih hstep hforest' fun other hother => hlt other (List.mem_cons_of_mem _ hother)
      rw [List.append_assoc, List.singleton_append] at hrest
      exact hrest

theorem zipIdx_eq_finRange (items : List α) :
    items.zipIdx = (List.finRange items.length).map fun i => (items.get i, (i : ℕ)) := by
  refine List.ext_getElem (by simp) ?_
  intro i _ _
  simp

theorem coe_filter_zipIdx (items : List α) (root : ℕ → ℕ) (k : ℕ) :
    (((items.zipIdx.filter fun entry => root entry.2 = k).map Prod.fst : List α) : Multiset α) =
      treeOf items root k := by
  rw [zipIdx_eq_finRange, List.filter_map, List.map_map]
  rfl

/-- The groups of a list are its components. -/
theorem connectedGroups_division (hsymm : ∀ a b, merges a b = true → merges b a = true)
    (items : List α) :
    Division (fun a b => merges a b = true) (items : Multiset α)
      ((connectedGroups merges items).map Multiset.ofList) := by
  obtain ⟨root, hmerged⟩ := mergeAll_merged hsymm items
  obtain ⟨height, hforest⟩ := hmerged.forest
  have hlt : ∀ entry ∈ items.zipIdx, entry.2 < items.length := by
    intro entry hentry
    exact (List.mem_zipIdx' hentry).1
  have hcollected := (Collected.start root).run hforest items.zipIdx hlt
  rw [List.nil_append] at hcollected
  have htree : ∀ group ∈ (items.zipIdx.foldl collectOne (mergeAll merges items, [])).2,
      (group.2 : Multiset α) = treeOf items root group.1 := by
    intro group hgroup
    rw [hcollected.members group hgroup, coe_filter_zipIdx]
  refine ⟨?_, ?_, ?_⟩
  · have hfst : items.zipIdx.map Prod.fst = items := by simp
    rw [connectedGroups, List.map_map]
    exact hcollected.sum_eq.trans (by rw [hfst])
  · intro t ht
    rw [connectedGroups, List.map_map, List.mem_map] at ht
    obtain ⟨group, hgroup, rfl⟩ := ht
    obtain ⟨entry, hentry, hroot⟩ := hcollected.inhabited group hgroup
    have hindex := hlt entry hentry
    have hconnected := hmerged.connected ⟨entry.2, hindex⟩
    rw [Function.comp_apply, htree group hgroup, ← hroot]
    exact hconnected
  · rw [connectedGroups, List.map_map, List.pairwise_map]
    have hkeys : ((items.zipIdx.foldl collectOne (mergeAll merges items, [])).2).Pairwise
        fun first second => first.1 ≠ second.1 := List.pairwise_map.1 hcollected.nodup
    refine hkeys.imp_of_mem ?_
    intro first second hfirst hsecond hne a ha b hb hab
    rw [Function.comp_apply, htree first hfirst, mem_treeOf] at ha
    rw [Function.comp_apply, htree second hsecond, mem_treeOf] at hb
    obtain ⟨i, hi, rfl⟩ := ha
    obtain ⟨j, hj, rfl⟩ := hb
    refine hne ?_
    rw [← hi, ← hj]
    -- the pair was looked at as `(i, j)` or as `(j, i)`
    rcases lt_trichotomy (i : ℕ) j with hij | hij | hij
    · refine hmerged.joined (i, j) (mem_pairs.2 ⟨hij, j.isLt⟩) ?_
      rw [related_get]
      exact hab
    · rw [hij]
    · refine (hmerged.joined (j, i) (mem_pairs.2 ⟨hij, i.isLt⟩) ?_).symm
      rw [related_get]
      exact hsymm _ _ hab

end Groups

end SearchTrust.Partition
