/-
The identity groups of competitor observations: components of shared provider
ids, components of weak name, address or domain matches, and the weak components
that join the one strong component they match.
-/
import SearchTrust.Market.Models
import SearchTrust.Partition.UnionFind
import Mathlib.Data.Finset.Basic

namespace SearchTrust.Competitors

open SearchTrust.Market (SerpMarketResultRecord)
open SearchTrust.Partition

structure Observation where
  record : SerpMarketResultRecord
  domain : Option String
  normalizedName : String
  normalizedAddress : String
  strongIds : Finset String
deriving DecidableEq

structure ObservationGroup where
  observations : List Observation
  ambiguous : Bool
deriving DecidableEq

/-- `bool(left.strong_ids & right.strong_ids)`. -/
def sharesStrongId (left right : Observation) : Bool :=
  decide (left.strongIds ∩ right.strongIds).Nonempty

def Observation.strong (item : Observation) : Bool := decide item.strongIds.Nonempty

/-- `bool(left.domain) and left.domain == right.domain`. -/
def sameDomain (left right : Observation) : Bool :=
  decide (left.domain ≠ none ∧ left.domain ≠ some "" ∧ left.domain = right.domain)

def sameNameAndAddress (left right : Observation) : Bool :=
  decide (left.normalizedName ≠ "" ∧ left.normalizedAddress ≠ "" ∧
    left.normalizedName = right.normalizedName ∧
    left.normalizedAddress = right.normalizedAddress)

def shouldMerge (left right : Observation) : Bool :=
  if sharesStrongId left right then true
  else if left.strong && right.strong then false
  else if sameDomain left right then true
  else sameNameAndAddress left right

/-- `connected_groups(items, strong_only=strong_only)`. -/
def connectedObservations (strongOnly : Bool) (items : List Observation) :
    List (List Observation) :=
  connectedGroups (fun left right =>
    if strongOnly then sharesStrongId left right else shouldMerge left right) items

/-- `any(_should_merge(weak, strong) for weak in weak_group for strong in strong_group)`. -/
def touches (weakGroup strongGroup : List Observation) : Bool :=
  weakGroup.any fun weak => strongGroup.any fun strong => shouldMerge weak strong

/-- The strong groups, which are extended in place, and the weak groups left over. -/
structure Matching where
  strong : List (List Observation)
  unmatched : List ObservationGroup

/-- One turn of the loop over the weak groups. -/
def placeWeak (state : Matching) (weakGroup : List Observation) : Matching :=
  let found := (state.strong.filter (touches weakGroup)).length
  if found = 1 then
    { state with
      strong := state.strong.map fun group =>
        if touches weakGroup group then group ++ weakGroup else group }
  else
    { state with unmatched := state.unmatched ++ [⟨weakGroup, decide (1 < found)⟩] }

def strongGroups (observations : List Observation) : List (List Observation) :=
  connectedObservations true (observations.filter Observation.strong)

def weakGroups (observations : List Observation) : List (List Observation) :=
  connectedObservations false (observations.filter fun item => !item.strong)

/-- `_groups(observations)`. -/
def groups (observations : List Observation) : List ObservationGroup :=
  let state := (weakGroups observations).foldl placeWeak ⟨strongGroups observations, []⟩
  state.strong.map (⟨·, false⟩) ++ state.unmatched

section Merging

variable {a b : Observation}

theorem sharesStrongId_symm (h : sharesStrongId a b = true) : sharesStrongId b a = true := by
  rw [sharesStrongId, Finset.inter_comm]
  exact h

theorem sharesStrongId_self (h : a.strong = true) : sharesStrongId a a = true := by
  rw [sharesStrongId, Finset.inter_self]
  exact h

theorem not_sharesStrongId_of_weak (h : a.strong = false) : sharesStrongId a b = false := by
  have hempty : a.strongIds = ∅ := by
    rw [← Finset.not_nonempty_iff_eq_empty]
    exact of_decide_eq_false h
  rw [sharesStrongId, hempty, Finset.empty_inter]
  rfl

theorem shouldMerge_symm (h : shouldMerge a b = true) : shouldMerge b a = true := by
  unfold shouldMerge at h ⊢
  have hshares : sharesStrongId b a = sharesStrongId a b := by
    rw [sharesStrongId, sharesStrongId, Finset.inter_comm]
  have hdomain : sameDomain b a = sameDomain a b := by
    unfold sameDomain
    rw [decide_eq_decide]
    constructor
    · rintro ⟨hnone, hempty, heq⟩
      exact ⟨heq ▸ hnone, heq ▸ hempty, heq.symm⟩
    · rintro ⟨hnone, hempty, heq⟩
      exact ⟨heq ▸ hnone, heq ▸ hempty, heq.symm⟩
  have hname : sameNameAndAddress b a = sameNameAndAddress a b := by
    unfold sameNameAndAddress
    rw [decide_eq_decide]
    constructor
    · rintro ⟨hname, haddress, hnames, haddresses⟩
      exact ⟨hnames ▸ hname, haddresses ▸ haddress, hnames.symm, haddresses.symm⟩
    · rintro ⟨hname, haddress, hnames, haddresses⟩
      exact ⟨hnames ▸ hname, haddresses ▸ haddress, hnames.symm, haddresses.symm⟩
  rwa [hshares, hdomain, hname, Bool.and_comm]

end Merging

section Divisions

variable (observations : List Observation)

/-- Observations that share a provider id. -/
def Shares (a b : Observation) : Prop := sharesStrongId a b = true

/-- Observations that are the same business by the merging rule. -/
def Merges (a b : Observation) : Prop := shouldMerge a b = true

theorem Shares.symm (a b : Observation) (h : Shares a b) : Shares b a := sharesStrongId_symm h

theorem Merges.symm (a b : Observation) (h : Merges a b) : Merges b a := shouldMerge_symm h

/-- The observations with provider ids. -/
def strongPart : Multiset Observation := (observations.filter Observation.strong : List _)

/-- The observations without provider ids. -/
def weakPart : Multiset Observation := (observations.filter fun item => !item.strong : List _)

theorem strongPart_add_weakPart :
    strongPart observations + weakPart observations = (observations : Multiset Observation) := by
  rw [strongPart, weakPart, Multiset.coe_add, Multiset.coe_eq_coe]
  exact List.filter_append_perm Observation.strong observations

/-- A connected component of shared provider ids. -/
def StrongComponent (component : Multiset Observation) : Prop :=
  Component Shares (strongPart observations) component

/-- A connected component of the observations without provider ids. -/
def WeakComponent (component : Multiset Observation) : Prop :=
  Component Merges (weakPart observations) component

theorem strongGroups_division :
    Division Shares (strongPart observations)
      ((strongGroups observations).map Multiset.ofList) :=
  connectedGroups_division (fun _ _ => sharesStrongId_symm) _

theorem weakGroups_division :
    Division Merges (weakPart observations) ((weakGroups observations).map Multiset.ofList) :=
  connectedGroups_division (fun _ _ => shouldMerge_symm) _

end Divisions

section Placing

variable {strong weak : List (List Observation)} {group : List Observation}

/-- Some member of the one merges with some member of the other. -/
def Touches (weakGroup strongGroup : Multiset Observation) : Prop :=
  ∃ a ∈ weakGroup, ∃ b ∈ strongGroup, Merges a b

instance decidableMerges (a b : Observation) : Decidable (Merges a b) :=
  inferInstanceAs (Decidable (shouldMerge a b = true))

instance decidableTouches (weakGroup strongGroup : Multiset Observation) :
    Decidable (Touches weakGroup strongGroup) :=
  have (a : Observation) : Decidable (∃ b ∈ strongGroup, Merges a b) :=
    Multiset.decidableExistsMultiset
  Multiset.decidableExistsMultiset

theorem touches_eq (weakGroup strongGroup : List Observation) :
    touches weakGroup strongGroup =
      decide (Touches (weakGroup : Multiset Observation) strongGroup) := by
  rw [Bool.eq_iff_iff, decide_eq_true_eq]
  simp only [touches, List.any_eq_true, Touches, Merges, Multiset.mem_coe]

/-- How many strong components a weak component touches. -/
def touchCount (strong : List (Multiset Observation)) (weakGroup : Multiset Observation) : ℕ :=
  (strong.filter fun strongGroup => Touches weakGroup strongGroup).length

/-- The weak components that a strong component takes in. -/
def joining (strong weak : List (Multiset Observation)) (strongGroup : Multiset Observation) :
    List (Multiset Observation) :=
  weak.filter fun weakGroup =>
    Touches weakGroup strongGroup ∧ touchCount strong weakGroup = 1

/-- The groups with their marks, given the strong and the weak components. -/
def assemble (strong weak : List (Multiset Observation)) :
    List (Multiset Observation × Bool) :=
  (strong.map fun strongGroup => (strongGroup + (joining strong weak strongGroup).sum, false)) ++
    (weak.filter fun weakGroup => touchCount strong weakGroup ≠ 1).map fun weakGroup =>
      (weakGroup, decide (1 < touchCount strong weakGroup))

/-- A group as a multiset, with its mark. -/
def ObservationGroup.summary (group : ObservationGroup) : Multiset Observation × Bool :=
  (group.observations, group.ambiguous)

/-- What the loop has done with the weak groups so far. -/
structure Placed (strong done : List (Multiset Observation)) (state : Matching) : Prop where
  strong_eq : state.strong.map Multiset.ofList =
    strong.map fun strongGroup => strongGroup + (joining strong done strongGroup).sum
  unmatched_eq : state.unmatched.map ObservationGroup.summary =
    (done.filter fun weakGroup => touchCount strong weakGroup ≠ 1).map fun weakGroup =>
      (weakGroup, decide (1 < touchCount strong weakGroup))

variable {strong done todo : List (Multiset Observation)} {weakGroup : List Observation}
  {state : Matching}

/-- Weak groups that were taken in do not change what a later weak group touches. -/
theorem touches_joining (hapart : ∀ other ∈ done, Apart Merges other weakGroup)
    (strongGroup : Multiset Observation) :
    Touches weakGroup (strongGroup + (joining strong done strongGroup).sum) ↔
      Touches weakGroup strongGroup := by
  constructor
  · rintro ⟨a, ha, b, hb, hab⟩
    rcases Multiset.mem_add.1 hb with hb | hb
    · exact ⟨a, ha, b, hb, hab⟩
    · obtain ⟨other, hother, hbo⟩ := mem_sum_iff.1 hb
      exact absurd (hab.symm a b) (hapart other (List.mem_of_mem_filter hother) b hbo a ha)
  · rintro ⟨a, ha, b, hb, hab⟩
    exact ⟨a, ha, b, Multiset.mem_add.2 (.inl hb), hab⟩

theorem Placed.found_eq (h : Placed strong done state)
    (hapart : ∀ other ∈ done, Apart Merges other weakGroup) :
    (state.strong.filter (touches weakGroup)).length = touchCount strong weakGroup := by
  have hmap : (state.strong.filter (touches weakGroup)).length =
      ((state.strong.map Multiset.ofList).filter fun group =>
        Touches (weakGroup : Multiset Observation) group).length := by
    rw [List.filter_map, List.length_map]
    refine congrArg List.length (List.filter_congr ?_)
    intro group _
    exact touches_eq weakGroup group
  rw [hmap, h.strong_eq, List.filter_map, List.length_map, touchCount]
  refine congrArg List.length (List.filter_congr ?_)
  intro group _
  exact decide_eq_decide.2 (touches_joining hapart group)

theorem joining_append (strongGroup : Multiset Observation) :
    joining strong (done ++ [(weakGroup : Multiset Observation)]) strongGroup =
      joining strong done strongGroup ++
        if Touches weakGroup strongGroup ∧ touchCount strong weakGroup = 1 then
          [(weakGroup : Multiset Observation)] else [] := by
  unfold joining
  rw [List.filter_append]
  refine congrArg (joining strong done strongGroup ++ ·) ?_
  by_cases htouch : Touches weakGroup strongGroup ∧ touchCount strong weakGroup = 1
  · rw [if_pos htouch]
    simpa using htouch
  · rw [if_neg htouch]
    simpa using htouch

/-- One turn of the loop over the weak groups. -/
theorem Placed.step (h : Placed strong done state)
    (hapart : ∀ other ∈ done, Apart Merges other weakGroup) :
    Placed strong (done ++ [(weakGroup : Multiset Observation)]) (placeWeak state weakGroup) := by
  have hfound := h.found_eq hapart
  unfold placeWeak
  simp only [hfound]
  split
  next hone =>
    refine ⟨?_, ?_⟩
    · have hextend : (state.strong.map fun group =>
          if touches weakGroup group then group ++ weakGroup else group).map Multiset.ofList =
          (state.strong.map Multiset.ofList).map fun group =>
            if Touches (weakGroup : Multiset Observation) group then group + weakGroup
            else group := by
        rw [List.map_map, List.map_map]
        refine List.map_congr_left ?_
        intro group _
        simp only [Function.comp_apply, touches_eq, decide_eq_true_eq]
        split
        · rw [Multiset.coe_add]
        · rfl
      rw [hextend, h.strong_eq, List.map_map]
      refine List.map_congr_left ?_
      intro group _
      rw [Function.comp_apply, joining_append]
      simp only [touches_joining hapart, hone, and_true]
      split
      · rw [List.sum_append, List.sum_singleton, add_assoc]
      · rw [List.append_nil]
    · rw [h.unmatched_eq, List.filter_append]
      simp [hone]
  next hother =>
    refine ⟨?_, ?_⟩
    · rw [h.strong_eq]
      refine List.map_congr_left ?_
      intro group _
      rw [joining_append, if_neg fun hboth => hother hboth.2, List.append_nil]
    · rw [List.map_append, h.unmatched_eq, List.filter_append, List.map_append]
      simp [hother, ObservationGroup.summary]

/-- The loop over the weak groups. -/
theorem Placed.run (todo : List (List Observation)) (h : Placed strong done state)
    (hapart : (done ++ todo.map Multiset.ofList).Pairwise (Apart Merges)) :
    Placed strong (done ++ todo.map Multiset.ofList) (todo.foldl placeWeak state) := by
  induction todo generalizing done state with
  | nil => simpa using h
  | cons weakGroup todo ih =>
      have hbefore : ∀ other ∈ done, Apart Merges other weakGroup := by
        intro other hother
        exact (List.pairwise_append.1 hapart).2.2 other hother weakGroup List.mem_cons_self
      rw [List.map_cons, List.append_cons] at hapart ⊢
      exact ih (h.step hbefore) hapart

theorem Placed.start (strong : List (List Observation)) :
    Placed (strong.map Multiset.ofList) [] ⟨strong, []⟩ where
  strong_eq := by simp [joining]
  unmatched_eq := rfl

/-- The groups are assembled from the strong and the weak components. -/
theorem groups_summary (observations : List Observation) :
    (groups observations).map ObservationGroup.summary =
      assemble ((strongGroups observations).map Multiset.ofList)
        ((weakGroups observations).map Multiset.ofList) := by
  have hplaced := (Placed.start (strongGroups observations)).run (weakGroups observations)
    (by rw [List.nil_append]; exact (weakGroups_division observations).apart)
  rw [List.nil_append] at hplaced
  unfold groups assemble
  simp only [List.map_append, List.map_map, hplaced.unmatched_eq]
  refine congrArg (· ++ _) ?_
  have hstrong := congrArg (List.map fun group : Multiset Observation => (group, false))
    hplaced.strong_eq
  rw [List.map_map, List.map_map, List.map_map] at hstrong
  exact hstrong

end Placing

end SearchTrust.Competitors
