/-
Stable sorting by a key, and the sorted list of a set of values.
-/
import Mathlib.Data.List.Dedup
import Mathlib.Data.List.Sort

namespace SearchTrust.Order

instance lawfulBEqChars : LawfulBEq (List Char) := List.instLawfulBEq

section Lookups

variable {α κ : Type*} [DecidableEq κ] {key : α → κ} {items : List α}

/-- An item of a list without repeated keys is found by its key. -/
theorem find?_key_eq (hnodup : (items.map key).Nodup) {a : α} (ha : a ∈ items) :
    items.find? (fun item => key item = key a) = some a := by
  obtain ⟨front, rest, rfl⟩ := List.append_of_mem ha
  rw [List.find?_eq_some_iff_append]
  refine ⟨by simp, front, rest, rfl, ?_⟩
  intro other hother
  rw [List.map_append, List.map_cons] at hnodup
  have hne : key other ≠ key a := (List.nodup_append.1 hnodup).2.2 (key other)
    (List.mem_map_of_mem hother) (key a) List.mem_cons_self
  simpa using hne

end Lookups

section Repeats

variable {α : Type*} [DecidableEq α] {items known : List α}

/-- `list(dict.fromkeys(items))` has no item twice. -/
theorem nodup_eraseDups (items : List α) : items.eraseDups.Nodup := by
  induction hn : items.length using Nat.strong_induction_on generalizing items with
  | h n ih =>
      cases items with
      | nil => exact List.nodup_nil
      | cons a items =>
          rw [List.eraseDups_cons, List.nodup_cons]
          have hlt : (items.filter fun b => !b == a).length < n := by
            have hle := List.length_filter_le (fun b => !b == a) items
            rw [List.length_cons] at hn
            omega
          refine ⟨?_, ih _ hlt _ rfl⟩
          rw [List.mem_eraseDups, List.mem_filter]
          simp

/-- Items of a known list are few, once each is counted once. -/
theorem length_eraseDups_le (h : ∀ a ∈ items, a ∈ known) :
    items.eraseDups.length ≤ known.length := by
  refine (List.subperm_of_subset (nodup_eraseDups items) ?_).length_le
  intro a ha
  exact h a (List.mem_eraseDups.1 ha)

end Repeats

section Keys

variable {α κ : Type*} [LinearOrder κ]

/-- `sorted(items, key=key)`. -/
def sortedBy (key : α → κ) (items : List α) : List α :=
  items.insertionSort fun a b => key a ≤ key b

variable {key : α → κ} {items : List α}

theorem sortedBy_perm (key : α → κ) (items : List α) : (sortedBy key items).Perm items :=
  List.perm_insertionSort _ items

@[simp] theorem mem_sortedBy {a : α} : a ∈ sortedBy key items ↔ a ∈ items :=
  (sortedBy_perm key items).mem_iff

@[simp] theorem length_sortedBy : (sortedBy key items).length = items.length :=
  (sortedBy_perm key items).length_eq

theorem pairwise_sortedBy (key : α → κ) (items : List α) :
    (sortedBy key items).Pairwise fun a b => key a ≤ key b := by
  have htotal : Std.Total fun a b : α => key a ≤ key b := ⟨fun a b => le_total (key a) (key b)⟩
  have htrans : IsTrans α fun a b => key a ≤ key b := ⟨fun _ _ _ => le_trans⟩
  exact List.pairwise_insertionSort _ items

/-- Items with different keys have one sorted order. -/
theorem sortedBy_eq_of_perm {other : List α} (h : items.Perm other)
    (hnodup : (items.map key).Nodup) : sortedBy key items = sortedBy key other := by
  have hperm : (sortedBy key items).Perm (sortedBy key other) :=
    (sortedBy_perm key items).trans (h.trans (sortedBy_perm key other).symm)
  refine hperm.eq_of_pairwise ?_ (pairwise_sortedBy key items) (pairwise_sortedBy key other)
  intro a b ha hb hab hba
  exact List.inj_on_of_nodup_map hnodup ((sortedBy_perm key items).mem_iff.1 ha)
    (h.mem_iff.2 ((sortedBy_perm key other).mem_iff.1 hb)) (le_antisymm hab hba)

theorem nodup_sortedBy_iff : (sortedBy key items).Nodup ↔ items.Nodup :=
  (sortedBy_perm key items).nodup_iff

/-- Sorting is stable: what is sorted already keeps its order among the others. -/
theorem filter_sortedBy {p : α → Bool}
    (h : (items.filter p).Pairwise fun a b => key a ≤ key b) :
    (sortedBy key items).filter p = items.filter p := by
  have htotal : Std.Total fun a b : α => key a ≤ key b := ⟨fun a b => le_total (key a) (key b)⟩
  have htrans : IsTrans α fun a b => key a ≤ key b := ⟨fun _ _ _ => le_trans⟩
  have hsub : (items.filter p).Sublist (sortedBy key items) :=
    List.sublist_insertionSort h List.filter_sublist
  have hfiltered := hsub.filter p
  rw [List.filter_filter] at hfiltered
  simp only [Bool.and_self] at hfiltered
  exact (hfiltered.eq_of_length ((sortedBy_perm key items).filter p).length_eq.symm).symm

/-- The first item of a sorted list has the smallest key. -/
theorem head_sortedBy_le {first : α} {rest : List α} (h : sortedBy key items = first :: rest)
    {a : α} (ha : a ∈ items) : key first ≤ key a := by
  have hmem : a ∈ first :: rest := by
    rw [← h]
    exact mem_sortedBy.2 ha
  have hpairwise := pairwise_sortedBy key items
  rw [h, List.pairwise_cons] at hpairwise
  rcases List.mem_cons.1 hmem with rfl | hrest
  · exact le_refl _
  · exact hpairwise.1 a hrest

end Keys

section Sets

variable {α : Type*} [LinearOrder α] {items other : List α}

/-- `sorted(set(items))`. -/
def sortedSet (items : List α) : List α := sortedBy id items.dedup

@[simp] theorem mem_sortedSet {a : α} : a ∈ sortedSet items ↔ a ∈ items := by
  rw [sortedSet, mem_sortedBy, List.mem_dedup]

theorem nodup_sortedSet (items : List α) : (sortedSet items).Nodup :=
  nodup_sortedBy_iff.2 (List.nodup_dedup items)

theorem pairwise_sortedSet (items : List α) : (sortedSet items).Pairwise (· < ·) := by
  have hle := pairwise_sortedBy id items.dedup
  have hne : (sortedBy id items.dedup).Pairwise (· ≠ ·) := nodup_sortedSet items
  exact (hle.and hne).imp fun h => lt_of_le_of_ne h.1 h.2

/-- Lists with the same members have the same sorted set. -/
theorem sortedSet_eq_of_mem_iff (h : ∀ a, a ∈ items ↔ a ∈ other) :
    sortedSet items = sortedSet other := by
  refine (pairwise_sortedSet items).eq_of_mem_iff (pairwise_sortedSet other) ?_
  intro a
  rw [mem_sortedSet, mem_sortedSet, h]

theorem sortedSet_eq_nil_iff : sortedSet items = [] ↔ items = [] := by
  rw [List.eq_nil_iff_forall_not_mem, List.eq_nil_iff_forall_not_mem]
  simp only [mem_sortedSet]

end Sets

end SearchTrust.Order
