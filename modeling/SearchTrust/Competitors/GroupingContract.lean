/-
What the identity groups of a list of observations are, in terms of its strong
and weak components, and that they do not depend on the order of the list.
-/
import SearchTrust.Competitors.Grouping
import Mathlib.Algebra.BigOperators.Group.List.Lemmas

namespace SearchTrust.Competitors

open SearchTrust.Market (SerpMarketResultRecord)
open SearchTrust.Partition

section Assembling

variable {strong weak strong' weak' : List (Multiset Observation)}

theorem touchCount_perm (h : strong.Perm strong') (group : Multiset Observation) :
    touchCount strong group = touchCount strong' group :=
  (h.filter _).length_eq

theorem touchCount_cons (first : Multiset Observation) (group : Multiset Observation) :
    touchCount (first :: strong) group =
      (if Touches group first then 1 else 0) + touchCount strong group := by
  unfold touchCount
  by_cases htouch : Touches group first
  · rw [List.filter_cons_of_pos (by simpa using htouch), if_pos htouch, List.length_cons, add_comm]
  · rw [List.filter_cons_of_neg (by simpa using htouch), if_neg htouch, zero_add]

/-- A weak group is taken in once for each strong group that it touches. -/
theorem sum_touched (strong : List (Multiset Observation)) (group : Multiset Observation) :
    (strong.map fun first => if Touches group first then group else 0).sum =
      touchCount strong group • group := by
  induction strong with
  | nil => rfl
  | cons first strong ih =>
      rw [List.map_cons, List.sum_cons, ih, touchCount_cons, add_nsmul]
      split
      · rw [one_nsmul]
      · rw [zero_nsmul]

/-- What the strong components take in, counted over all of them. -/
theorem sum_joining (strong weak : List (Multiset Observation)) :
    (strong.map fun group => (joining strong weak group).sum).sum =
      (weak.filter fun group => touchCount strong group = 1).sum := by
  induction weak with
  | nil => simp [joining]
  | cons first weak ih =>
      by_cases hone : touchCount strong first = 1
      · have hcons : ∀ group, (joining strong (first :: weak) group).sum =
            (if Touches first group then first else 0) + (joining strong weak group).sum := by
          intro group
          unfold joining
          by_cases htouch : Touches first group
          · rw [List.filter_cons_of_pos (by simp [htouch, hone]), List.sum_cons, if_pos htouch]
          · rw [List.filter_cons_of_neg (by simp [htouch]), if_neg htouch, zero_add]
        simp only [hcons]
        rw [List.sum_map_add, sum_touched, hone, one_nsmul, ih,
          List.filter_cons_of_pos (by simp [hone]), List.sum_cons]
      · have hcons : ∀ group, joining strong (first :: weak) group = joining strong weak group := by
          intro group
          unfold joining
          rw [List.filter_cons_of_neg (by simp [hone])]
        simp only [hcons]
        rw [ih, List.filter_cons_of_neg (by simp [hone])]

theorem sum_filter_add (weak : List (Multiset Observation)) (p : Multiset Observation → Prop)
    [DecidablePred p] :
    (weak.filter fun group => p group).sum + (weak.filter fun group => ¬ p group).sum =
      weak.sum := by
  induction weak with
  | nil => rfl
  | cons first weak ih =>
      rw [List.sum_cons, ← ih]
      by_cases hp : p first
      · rw [List.filter_cons_of_pos (by simpa using hp),
          List.filter_cons_of_neg (by simpa using hp), List.sum_cons, add_assoc]
      · rw [List.filter_cons_of_neg (by simpa using hp),
          List.filter_cons_of_pos (by simpa using hp), List.sum_cons, add_left_comm]

/-- Assembling loses and repeats nothing. -/
theorem sum_assemble (strong weak : List (Multiset Observation)) :
    ((assemble strong weak).map Prod.fst).sum = strong.sum + weak.sum := by
  have hfst : (assemble strong weak).map Prod.fst =
      (strong.map fun group => group + (joining strong weak group).sum) ++
        weak.filter fun group => touchCount strong group ≠ 1 := by
    rw [assemble, List.map_append, List.map_map, List.map_map]
    exact congrArg _ (List.map_id _)
  rw [hfst, List.sum_append, List.sum_map_add, List.map_id', sum_joining, add_assoc,
    sum_filter_add]

/-- Assembling does not depend on the order of the components. -/
theorem assemble_perm (hs : strong.Perm strong') (hw : weak.Perm weak') :
    (assemble strong weak).Perm (assemble strong' weak') := by
  have hcount : touchCount strong = touchCount strong' := funext (touchCount_perm hs)
  have hjoin : ∀ group, (joining strong weak group).sum = (joining strong' weak' group).sum := by
    intro group
    unfold joining
    rw [hcount]
    exact (hw.filter _).sum_eq
  unfold assemble
  simp only [hjoin, hcount]
  exact (hs.map _).append ((hw.filter _).map _)

theorem mem_assemble {group : Multiset Observation × Bool} :
    group ∈ assemble strong weak ↔
      (∃ s ∈ strong, group = (s + (joining strong weak s).sum, false)) ∨
        ∃ w ∈ weak, touchCount strong w ≠ 1 ∧ group = (w, decide (1 < touchCount strong w)) := by
  simp only [assemble, List.mem_append, List.mem_map, List.mem_filter, decide_eq_true_eq,
    and_assoc, @eq_comm _ group]

end Assembling

section Contract

/-- The groups are a partition, keep shared provider ids together, hold at most one
component of them, and mark the weak components that touch several. -/
structure GroupingContract (observations : List Observation) (result : List ObservationGroup) :
    Prop where
  partition : (result.flatMap ObservationGroup.observations).Perm observations
  together : result.Pairwise fun group other =>
    ∀ a ∈ group.observations, ∀ b ∈ other.observations, ¬ Shares a b
  one_component : ∀ group ∈ result, group.observations.filter Observation.strong = [] ∨
    StrongComponent observations (group.observations.filter Observation.strong : List _)
  joined : ∀ weak strong, WeakComponent observations weak → StrongComponent observations strong →
    Touches weak strong →
    (∀ other, StrongComponent observations other → Touches weak other → other = strong) →
    ∃ group ∈ result, group.ambiguous = false ∧ strong + weak ≤ group.observations
  marked : ∀ weak strong other, WeakComponent observations weak →
    StrongComponent observations strong → StrongComponent observations other → strong ≠ other →
    Touches weak strong → Touches weak other →
    ∃ group ∈ result, group.ambiguous = true ∧ (group.observations : Multiset Observation) = weak
  alone : ∀ weak, WeakComponent observations weak →
    (∀ strong, StrongComponent observations strong → ¬ Touches weak strong) →
    ∃ group ∈ result, group.ambiguous = false ∧
      (group.observations : Multiset Observation) = weak
  mark_justified : ∀ group ∈ result, group.ambiguous = true →
    WeakComponent observations group.observations ∧
      ∃ strong other, StrongComponent observations strong ∧ StrongComponent observations other ∧
        strong ≠ other ∧ Touches group.observations strong ∧ Touches group.observations other

variable {observations : List Observation} {a : Observation} {component : Multiset Observation}

theorem mem_strongGroups :
    component ∈ (strongGroups observations).map Multiset.ofList ↔
      StrongComponent observations component :=
  (strongGroups_division observations).mem_iff Shares.symm

theorem mem_weakGroups :
    component ∈ (weakGroups observations).map Multiset.ofList ↔
      WeakComponent observations component :=
  (weakGroups_division observations).mem_iff Merges.symm

theorem StrongComponent.strong_of_mem (h : StrongComponent observations component)
    (ha : a ∈ component) : a.strong = true := by
  have hmem := Multiset.mem_of_le h.le ha
  rw [strongPart, Multiset.mem_coe, List.mem_filter] at hmem
  exact hmem.2

theorem WeakComponent.weak_of_mem (h : WeakComponent observations component)
    (ha : a ∈ component) : a.strong = false := by
  have hmem := Multiset.mem_of_le h.le ha
  rw [weakPart, Multiset.mem_coe, List.mem_filter] at hmem
  simpa using hmem.2

/-- Strong components occur once: a member shares its ids with itself. -/
theorem strongGroups_nodup (observations : List Observation) :
    ((strongGroups observations).map Multiset.ofList).Nodup := by
  refine (strongGroups_division observations).apart.imp_of_mem ?_
  intro s t hs ht hapart heq
  have hcomponent := mem_strongGroups.1 hs
  obtain ⟨a, ha⟩ := hcomponent.connected.exists_mem
  exact hapart a ha a (heq ▸ ha) (sharesStrongId_self (hcomponent.strong_of_mem ha))

/-- Several touched components are counted as such. -/
theorem one_lt_touchCount {strong other weak : Multiset Observation}
    (hs : StrongComponent observations strong) (ho : StrongComponent observations other)
    (hne : strong ≠ other) (hts : Touches weak strong) (hto : Touches weak other) :
    1 < touchCount ((strongGroups observations).map Multiset.ofList) weak := by
  have hmem : ∀ s, StrongComponent observations s → Touches weak s →
      s ∈ ((strongGroups observations).map Multiset.ofList).filter fun s => Touches weak s := by
    intro s hs ht
    exact List.mem_filter.2 ⟨mem_strongGroups.2 hs, decide_eq_true ht⟩
  have hsub : [strong, other].Subperm
      (((strongGroups observations).map Multiset.ofList).filter fun s => Touches weak s) := by
    refine List.subperm_of_subset (by simpa using hne) ?_
    intro s hmem'
    rcases List.mem_cons.1 hmem' with rfl | hmem'
    · exact hmem s hs hts
    · rw [List.mem_singleton.1 hmem']
      exact hmem other ho hto
  exact hsub.length_le

/-- A count above one comes from two components. -/
theorem exists_of_one_lt_touchCount {weak : Multiset Observation}
    (h : 1 < touchCount ((strongGroups observations).map Multiset.ofList) weak) :
    ∃ strong other, StrongComponent observations strong ∧ StrongComponent observations other ∧
      strong ≠ other ∧ Touches weak strong ∧ Touches weak other := by
  unfold touchCount at h
  have hnodup := (strongGroups_nodup observations).filter fun s => decide (Touches weak s)
  match hfound : ((strongGroups observations).map Multiset.ofList).filter
      fun s => Touches weak s with
  | [] => rw [hfound] at h; exact absurd h (by simp)
  | [_] => rw [hfound] at h; exact absurd h (by simp)
  | strong :: other :: rest =>
      rw [hfound] at hnodup
      have hs : strong ∈ ((strongGroups observations).map Multiset.ofList).filter
          fun s => Touches weak s := by rw [hfound]; exact List.mem_cons_self
      have ho : other ∈ ((strongGroups observations).map Multiset.ofList).filter
          fun s => Touches weak s := by
        rw [hfound]; exact List.mem_cons_of_mem _ List.mem_cons_self
      rw [List.mem_filter, decide_eq_true_eq] at hs ho
      refine ⟨strong, other, mem_strongGroups.1 hs.1, mem_strongGroups.1 ho.1, ?_, hs.2, ho.2⟩
      intro heq
      exact (List.nodup_cons.1 hnodup).1 (heq ▸ List.mem_cons_self)

theorem touchCount_eq_one {strong weak : Multiset Observation}
    (hs : StrongComponent observations strong) (ht : Touches weak strong)
    (honly : ∀ other, StrongComponent observations other → Touches weak other → other = strong) :
    touchCount ((strongGroups observations).map Multiset.ofList) weak = 1 := by
  have hpos : 0 < touchCount ((strongGroups observations).map Multiset.ofList) weak :=
    List.length_pos_of_mem (List.mem_filter.2 ⟨mem_strongGroups.2 hs, decide_eq_true ht⟩)
  by_contra hne
  have hmany : 1 < touchCount ((strongGroups observations).map Multiset.ofList) weak := by omega
  obtain ⟨s, o, hs', ho, hdiff, hts, hto⟩ := exists_of_one_lt_touchCount hmany
  exact hdiff ((honly s hs' hts).trans (honly o ho hto).symm)

theorem mem_groups_summary {group : ObservationGroup} (h : group ∈ groups observations) :
    group.summary ∈ assemble ((strongGroups observations).map Multiset.ofList)
      ((weakGroups observations).map Multiset.ofList) := by
  rw [← groups_summary]
  exact List.mem_map_of_mem h

/-- A group with a given summary. -/
theorem exists_group {summary : Multiset Observation × Bool}
    (h : summary ∈ assemble ((strongGroups observations).map Multiset.ofList)
      ((weakGroups observations).map Multiset.ofList)) :
    ∃ group ∈ groups observations, group.ambiguous = summary.2 ∧
      (group.observations : Multiset Observation) = summary.1 := by
  rw [← groups_summary, List.mem_map] at h
  obtain ⟨group, hgroup, rfl⟩ := h
  exact ⟨group, hgroup, rfl, rfl⟩

/-- The observations with provider ids of a group that took weak components in. -/
theorem filter_strong_joined {strong : Multiset Observation}
    (hs : StrongComponent observations strong) :
    (strong + (joining ((strongGroups observations).map Multiset.ofList)
      ((weakGroups observations).map Multiset.ofList) strong).sum).filter
        (fun item => item.strong = true) = strong := by
  have hleft : strong.filter (fun item => item.strong = true) = strong :=
    Multiset.filter_eq_self.2 fun a ha => hs.strong_of_mem ha
  have hright : ((joining ((strongGroups observations).map Multiset.ofList)
      ((weakGroups observations).map Multiset.ofList) strong).sum).filter
        (fun item => item.strong = true) = 0 := by
    refine Multiset.filter_eq_nil.2 ?_
    intro a ha
    obtain ⟨weak, hweak, haw⟩ := mem_sum_iff.1 ha
    have hcomponent := mem_weakGroups.1 (List.mem_of_mem_filter hweak)
    rw [hcomponent.weak_of_mem haw]
    exact Bool.false_ne_true
  rw [Multiset.filter_add, hleft, hright, add_zero]

/-- Only observations with provider ids share one. -/
theorem Shares.strong {b : Observation} (h : Shares a b) : a.strong = true := by
  cases ha : a.strong with
  | true => rfl
  | false =>
      rw [Shares, not_sharesStrongId_of_weak ha] at h
      exact absurd h Bool.false_ne_true

/-- The strong part of each group is empty or a strong component. -/
theorem groups_one_component {group : ObservationGroup} (h : group ∈ groups observations) :
    group.observations.filter Observation.strong = [] ∨
      StrongComponent observations (group.observations.filter Observation.strong : List _) := by
  have hcoe : ((group.observations.filter Observation.strong : List Observation) :
      Multiset Observation) =
      (group.observations : Multiset Observation).filter fun item => item.strong = true := by
    rw [Multiset.filter_coe]
    simp
  rcases mem_assemble.1 (mem_groups_summary h) with ⟨strong, hstrong, heq⟩ | ⟨weak, hweak, -, heq⟩
  · have hcomponent := mem_strongGroups.1 hstrong
    have hobs : (group.observations : Multiset Observation) = _ := congrArg Prod.fst heq
    right
    rw [hcoe, hobs, filter_strong_joined hcomponent]
    exact hcomponent
  · have hobs : (group.observations : Multiset Observation) = weak := congrArg Prod.fst heq
    left
    rw [List.filter_eq_nil_iff]
    intro a ha
    have hmem : a ∈ weak := by
      rw [← hobs]
      exact ha
    rw [(mem_weakGroups.1 hweak).weak_of_mem hmem]
    exact Bool.false_ne_true

theorem coe_flatMap_observations (result : List ObservationGroup) :
    ((result.flatMap ObservationGroup.observations : List Observation) : Multiset Observation) =
      ((result.map ObservationGroup.summary).map Prod.fst).sum := by
  induction result with
  | nil => rfl
  | cons group result ih =>
      rw [List.flatMap_cons, ← Multiset.coe_add, ih]
      rfl

theorem groups_partition (observations : List Observation) :
    ((groups observations).flatMap ObservationGroup.observations).Perm observations := by
  rw [← Multiset.coe_eq_coe, coe_flatMap_observations, groups_summary, sum_assemble,
    (strongGroups_division observations).sum_eq, (weakGroups_division observations).sum_eq,
    strongPart_add_weakPart]

/-- A member of a group that took weak components in and has provider ids is one
of the strong component. -/
theorem mem_of_strong_joined {strong : Multiset Observation}
    (hs : StrongComponent observations strong) (hstrong : a.strong = true)
    (ha : a ∈ strong + (joining ((strongGroups observations).map Multiset.ofList)
      ((weakGroups observations).map Multiset.ofList) strong).sum) : a ∈ strong := by
  rw [← filter_strong_joined hs]
  exact Multiset.mem_filter.2 ⟨ha, hstrong⟩

theorem groups_together (observations : List Observation) :
    (groups observations).Pairwise fun group other =>
      ∀ a ∈ group.observations, ∀ b ∈ other.observations, ¬ Shares a b := by
  have hassemble : (assemble ((strongGroups observations).map Multiset.ofList)
      ((weakGroups observations).map Multiset.ofList)).Pairwise fun group other =>
        Apart Shares group.1 other.1 := by
    refine List.pairwise_append.2 ⟨?_, ?_, ?_⟩
    · rw [List.pairwise_map]
      refine (strongGroups_division observations).apart.imp_of_mem ?_
      intro s t hs ht hapart a ha b hb hab
      have hs' := mem_strongGroups.1 hs
      have ht' := mem_strongGroups.1 ht
      exact hapart a (mem_of_strong_joined hs' hab.strong ha) b
        (mem_of_strong_joined ht' (hab.symm a b).strong hb) hab
    · rw [List.pairwise_map]
      refine List.pairwise_of_forall_mem_list ?_
      intro s hs t _ a ha b _ hab
      have hweak := mem_weakGroups.1 (List.mem_of_mem_filter hs)
      have hstrong := hab.strong
      rw [hweak.weak_of_mem ha] at hstrong
      exact Bool.false_ne_true hstrong
    · intro s _ t ht a _ b hb hab
      obtain ⟨weak, hweak, rfl⟩ := List.mem_map.1 ht
      have hcomponent := mem_weakGroups.1 (List.mem_of_mem_filter hweak)
      have hstrong := (hab.symm a b).strong
      rw [hcomponent.weak_of_mem hb] at hstrong
      exact Bool.false_ne_true hstrong
  rw [← groups_summary, List.pairwise_map] at hassemble
  exact hassemble

theorem groups_joined {weak strong : Multiset Observation}
    (hw : WeakComponent observations weak) (hs : StrongComponent observations strong)
    (ht : Touches weak strong)
    (honly : ∀ other, StrongComponent observations other → Touches weak other →
      other = strong) :
    ∃ group ∈ groups observations, group.ambiguous = false ∧
      strong + weak ≤ (group.observations : Multiset Observation) := by
  have hone := touchCount_eq_one hs ht honly
  obtain ⟨group, hgroup, hmark, hobs⟩ := exists_group
    (mem_assemble.2 (.inl ⟨strong, mem_strongGroups.2 hs, rfl⟩))
  refine ⟨group, hgroup, hmark, ?_⟩
  have hjoin : weak ∈ joining ((strongGroups observations).map Multiset.ofList)
      ((weakGroups observations).map Multiset.ofList) strong :=
    List.mem_filter.2 ⟨mem_weakGroups.2 hw, decide_eq_true ⟨ht, hone⟩⟩
  rw [hobs]
  refine Multiset.add_le_add_left ?_
  exact le_sum_of_mem hjoin

theorem groups_unjoined {weak : Multiset Observation} (hw : WeakComponent observations weak)
    (hcount : touchCount ((strongGroups observations).map Multiset.ofList) weak ≠ 1) :
    ∃ group ∈ groups observations,
      group.ambiguous =
        decide (1 < touchCount ((strongGroups observations).map Multiset.ofList) weak) ∧
      (group.observations : Multiset Observation) = weak :=
  exists_group (mem_assemble.2 (.inr ⟨weak, mem_weakGroups.2 hw, hcount, rfl⟩))

theorem groups_contract (observations : List Observation) :
    GroupingContract observations (groups observations) where
  partition := groups_partition observations
  together := groups_together observations
  one_component := fun _ => groups_one_component
  joined := fun _ _ => groups_joined
  marked := by
    intro weak strong other hw hs ho hne hts hto
    have hcount := one_lt_touchCount hs ho hne hts hto
    obtain ⟨group, hgroup, hmark, hobs⟩ := groups_unjoined hw (by omega)
    exact ⟨group, hgroup, by rw [hmark, decide_eq_true hcount], hobs⟩
  alone := by
    intro weak hw hnone
    have hzero : touchCount ((strongGroups observations).map Multiset.ofList) weak = 0 := by
      unfold touchCount
      rw [List.length_eq_zero_iff, List.filter_eq_nil_iff]
      intro strong hstrong htouch
      exact hnone strong (mem_strongGroups.1 hstrong) (of_decide_eq_true htouch)
    obtain ⟨group, hgroup, hmark, hobs⟩ := groups_unjoined hw (by omega)
    refine ⟨group, hgroup, ?_, hobs⟩
    rw [hmark, hzero]
    rfl
  mark_justified := by
    intro group hgroup hmark
    rcases mem_assemble.1 (mem_groups_summary hgroup) with
      ⟨strong, -, heq⟩ | ⟨weak, hweak, -, heq⟩
    · have hmark' : group.ambiguous = false := congrArg Prod.snd heq
      rw [hmark'] at hmark
      exact absurd hmark Bool.false_ne_true
    · have hobs : (group.observations : Multiset Observation) = weak := congrArg Prod.fst heq
      have hcount : group.ambiguous = _ := congrArg Prod.snd heq
      rw [hmark, eq_comm, decide_eq_true_eq] at hcount
      rw [hobs]
      exact ⟨mem_weakGroups.1 hweak, exists_of_one_lt_touchCount hcount⟩

/-- The groups and their marks do not depend on the order of the observations. -/
theorem groups_summary_perm {other : List Observation} (h : observations.Perm other) :
    ((groups observations).map ObservationGroup.summary).Perm
      ((groups other).map ObservationGroup.summary) := by
  rw [groups_summary, groups_summary]
  have hstrong : strongPart observations = strongPart other :=
    Multiset.coe_eq_coe.2 (h.filter _)
  have hweak : weakPart observations = weakPart other := Multiset.coe_eq_coe.2 (h.filter _)
  refine assemble_perm ?_ ?_
  · exact (strongGroups_division observations).unique Shares.symm
      (hstrong ▸ strongGroups_division other)
  · exact (weakGroups_division observations).unique Merges.symm
      (hweak ▸ weakGroups_division other)

/-- `_groups` is a partition as described, the same for every order. -/
theorem groups_correct (observations : List Observation) :
    GroupingContract observations (groups observations) ∧
      ∀ other, observations.Perm other →
        ((groups observations).map ObservationGroup.summary).Perm
          ((groups other).map ObservationGroup.summary) :=
  ⟨groups_contract observations, fun _ => groups_summary_perm⟩

/-- A result without anything but a name. -/
def namedRecord (recordId displayName : String) : SerpMarketResultRecord where
  recordId := recordId
  callId := "sha256:call"
  query := "plumber"
  resultType := .maps
  position := 1
  rankSource := .providerPosition
  displayName := displayName
  url := none
  normalizedDomain := none
  providerPlaceId := none
  providerDataId := none
  providerCid := none
  address := none
  phone := none
  categories := []
  rating := none
  reviewCount := none
  snippet := none
  providerSearchId := none
  responseChecksum := "sha256:response"
  observedAt := 0
  latitude := 0
  longitude := 0
  countryCode := "US"
  language := "en"
  device := .mobile

/-- Two branches of a franchise and a web result of their common site. -/
def franchise : List Observation :=
  [⟨namedRecord "1" "North", some "pipes.com", "north", "", {"place:1"}⟩,
    ⟨namedRecord "2" "Pipes", some "pipes.com", "pipes", "", ∅⟩,
    ⟨namedRecord "3" "South", some "pipes.com", "south", "", {"place:3"}⟩]

example : (groups franchise).map (fun group => (group.observations.length, group.ambiguous)) =
    [(1, false), (1, false), (1, true)] := by decide

theorem groups_correct_franchise :
    GroupingContract franchise (groups franchise) ∧
      ((groups franchise).map ObservationGroup.summary).Perm
        ((groups franchise.reverse).map ObservationGroup.summary) :=
  ⟨(groups_correct franchise).1,
    (groups_correct franchise).2 franchise.reverse franchise.reverse_perm.symm⟩

end Contract

end SearchTrust.Competitors
