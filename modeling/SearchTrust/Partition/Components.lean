/-
Connected multisets under a symmetric relation and the components of a
multiset.  Members are counted with their copies, so two equal members are
connected only if the relation holds between them.  Every multiset has at most
one division into components.
-/
import Mathlib.Algebra.BigOperators.Group.Multiset.Basic
import Mathlib.Data.Multiset.AddSub

namespace SearchTrust.Partition

variable {α : Type*} {r : α → α → Prop} {a b : α} {s t u : Multiset α}

/-- Every member is reached from the first one along the relation. -/
inductive Connected (r : α → α → Prop) : Multiset α → Prop
  | single (a : α) : Connected r {a}
  | attach {a b : α} {s : Multiset α} :
      Connected r s → b ∈ s → r a b → Connected r (a ::ₘ s)

/-- The relation holds between no member of the one and no member of the other. -/
def Apart (r : α → α → Prop) (s t : Multiset α) : Prop := ∀ a ∈ s, ∀ b ∈ t, ¬ r a b

/-- A division of `s` into connected parts that are pairwise not related. -/
structure Division (r : α → α → Prop) (s : Multiset α) (parts : List (Multiset α)) : Prop where
  sum_eq : parts.sum = s
  connected : ∀ t ∈ parts, Connected r t
  apart : parts.Pairwise (Apart r)

section Connected

theorem Connected.ne_zero (h : Connected r s) : s ≠ 0 := by
  cases h with
  | single a => exact Multiset.singleton_ne_zero a
  | attach => exact Multiset.cons_ne_zero

theorem Connected.exists_mem (h : Connected r s) : ∃ a, a ∈ s :=
  Multiset.exists_mem_of_ne_zero h.ne_zero

/-- Two connected multisets with one related pair are connected together. -/
theorem Connected.add (hsymm : ∀ a b, r a b → r b a) (hs : Connected r s) (ht : Connected r t)
    (ha : a ∈ s) (hb : b ∈ t) (hab : r a b) : Connected r (s + t) := by
  -- on `t`, for every `s`: the last member of `t` may be the one that is linked to `s`
  induction ht generalizing s a b with
  | single c =>
      rw [Multiset.mem_singleton] at hb
      rw [add_comm, Multiset.singleton_add]
      exact .attach hs ha (hb ▸ hsymm a b hab)
  | @attach c d t ht hd hcd ih =>
      rw [Multiset.add_cons]
      rcases Multiset.mem_cons.1 hb with rfl | hb
      · have hcons : Connected r (b ::ₘ s) := .attach hs ha (hsymm a b hab)
        have h := ih hcons (Multiset.mem_cons_self b s) hd hcd
        rwa [Multiset.cons_add] at h
      · exact .attach (ih hs ha hb hab) (Multiset.mem_add.2 (.inr hd)) hcd

end Connected

section Apart

variable {parts others : List (Multiset α)}

theorem Apart.symm (hsymm : ∀ a b, r a b → r b a) (h : Apart r s t) : Apart r t s := by
  intro a ha b hb hab
  exact h b hb a ha (hsymm a b hab)

theorem Apart.mono (h : Apart r s t) (hu : u ≤ t) : Apart r s u := by
  intro a ha b hb
  exact h a ha b (Multiset.mem_of_le hu hb)

theorem mem_sum_iff : a ∈ parts.sum ↔ ∃ t ∈ parts, a ∈ t := by
  induction parts with
  | nil => simp
  | cons t parts ih => simp [ih]

theorem le_sum_of_mem (ht : t ∈ parts) : t ≤ parts.sum := by
  classical
  rw [(List.perm_cons_erase ht).sum_eq, List.sum_cons]
  exact Multiset.le_add_right t _

theorem Division.nil : Division r (0 : Multiset α) [] where
  sum_eq := rfl
  connected := by simp
  apart := List.Pairwise.nil

theorem Division.perm (hsymm : ∀ a b, r a b → r b a) (h : Division r s parts)
    (hperm : parts.Perm others) : Division r s others where
  sum_eq := by rw [← hperm.sum_eq, h.sum_eq]
  connected := fun t ht => h.connected t (hperm.mem_iff.2 ht)
  apart := h.apart.perm hperm fun h => h.symm hsymm

end Apart

section Components

variable [DecidableEq α]

/-- A connected part of `s` that is not related to the rest. -/
structure Component (r : α → α → Prop) (s t : Multiset α) : Prop where
  le : t ≤ s
  connected : Connected r t
  apart : Apart r t (s - t)

/-- All copies of a member that is related to a member of a part lie in that part. -/
theorem count_eq_of_apart (hle : t ≤ s) (hapart : Apart r t (s - t)) (ha : a ∈ t)
    (hab : r a b) : t.count b = s.count b := by
  have hnot : b ∉ s - t := by
    intro hb
    exact hapart a ha b hb hab
  have hzero := Multiset.count_eq_zero.2 hnot
  rw [Multiset.count_sub] at hzero
  have hcount := Multiset.count_le_of_le b hle
  omega

/-- A connected part of `s` lies in every unrelated part that it meets. -/
theorem Connected.le_of_mem (hsymm : ∀ a b, r a b → r b a) (hu : Connected r u) (hus : u ≤ s)
    (hts : t ≤ s) (hapart : Apart r t (s - t)) (ha : a ∈ u) (hat : a ∈ t) : u ≤ t := by
  induction hu generalizing a with
  | single c =>
      rw [Multiset.mem_singleton] at ha
      rw [Multiset.singleton_le, ← ha]
      exact hat
  | @attach c d u hu hd hcd ih =>
      have hus' : u ≤ s := (Multiset.le_cons_self u c).trans hus
      have hut : u ≤ t := by
        rcases Multiset.mem_cons.1 ha with rfl | ha
        · have hcount := count_eq_of_apart hts hapart hat hcd
          have hds : 0 < s.count d := Multiset.count_pos.2 (Multiset.mem_of_le hus' hd)
          refine ih hus' hd ?_
          rw [← Multiset.count_pos, hcount]
          exact hds
        · exact ih hus' ha hat
      have hdt : d ∈ t := Multiset.mem_of_le hut hd
      have hall : t.count c = s.count c :=
        count_eq_of_apart hts hapart hdt (hsymm c d hcd)
      rw [Multiset.le_iff_count]
      intro x
      by_cases hx : x = c
      · rw [hx, hall]
        exact Multiset.count_le_of_le c hus
      · rw [Multiset.count_cons_of_ne hx]
        exact Multiset.count_le_of_le x hut

/-- Two components with a common member are the same. -/
theorem Component.eq_of_mem (hsymm : ∀ a b, r a b → r b a) (ht : Component r s t)
    (hu : Component r s u) (hat : a ∈ t) (hau : a ∈ u) : t = u :=
  le_antisymm (ht.connected.le_of_mem hsymm ht.le hu.le hu.apart hat hau)
    (hu.connected.le_of_mem hsymm hu.le ht.le ht.apart hau hat)

end Components

section Divisions

variable [DecidableEq α] {parts others : List (Multiset α)}

theorem Division.tail (h : Division r s (t :: parts)) : Division r (s - t) parts where
  sum_eq := by
    rw [← h.sum_eq, List.sum_cons, add_tsub_cancel_left]
  connected := fun u hu => h.connected u (List.mem_cons_of_mem t hu)
  apart := (List.pairwise_cons.1 h.apart).2

theorem Division.head_component (h : Division r s (t :: parts)) : Component r s t where
  le := by
    rw [← h.sum_eq, List.sum_cons]
    exact Multiset.le_add_right t _
  connected := h.connected t List.mem_cons_self
  apart := by
    rw [← h.tail.sum_eq]
    intro a ha b hb
    obtain ⟨u, hu, hbu⟩ := mem_sum_iff.1 hb
    exact (List.pairwise_cons.1 h.apart).1 u hu a ha b hbu

theorem Division.component (hsymm : ∀ a b, r a b → r b a) (h : Division r s parts)
    (ht : t ∈ parts) : Component r s t :=
  (h.perm hsymm (List.perm_cons_erase ht)).head_component

/-- Every component is one of the parts. -/
theorem Division.mem_of_component (hsymm : ∀ a b, r a b → r b a) (h : Division r s parts)
    (ht : Component r s t) : t ∈ parts := by
  obtain ⟨a, ha⟩ := ht.connected.exists_mem
  have hsum : a ∈ parts.sum := by
    rw [h.sum_eq]
    exact Multiset.mem_of_le ht.le ha
  obtain ⟨u, hu, hau⟩ := mem_sum_iff.1 hsum
  have heq := ht.eq_of_mem hsymm (h.component hsymm hu) ha hau
  exact heq ▸ hu

theorem Division.mem_iff (hsymm : ∀ a b, r a b → r b a) (h : Division r s parts) :
    t ∈ parts ↔ Component r s t :=
  ⟨h.component hsymm, h.mem_of_component hsymm⟩

/-- A multiset is divided into components in one way, up to their order. -/
theorem Division.unique (hsymm : ∀ a b, r a b → r b a) (h : Division r s parts)
    (h' : Division r s others) : parts.Perm others := by
  induction parts generalizing s others with
  | nil =>
      have hzero : others.sum = 0 := by rw [h'.sum_eq, ← h.sum_eq, List.sum_nil]
      cases others with
      | nil => exact List.Perm.nil
      | cons u others =>
          obtain ⟨a, ha⟩ := (h'.connected u List.mem_cons_self).exists_mem
          have hmem : a ∈ (u :: others).sum := mem_sum_iff.2 ⟨u, List.mem_cons_self, ha⟩
          rw [hzero] at hmem
          exact absurd hmem (Multiset.notMem_zero a)
  | cons t parts ih =>
      have ht : t ∈ others := h'.mem_of_component hsymm h.head_component
      have hperm := List.perm_cons_erase ht
      have htail := (h'.perm hsymm hperm).tail
      exact ((ih h.tail htail).cons t).trans hperm.symm

end Divisions

end SearchTrust.Partition
