/-
The part of a Redis server that the stores rely on: string keys with a time to
live, and sorted sets.  A command is a function on these values; an expired key
is removed when the clock of the server moves past its deadline.
-/
import Mathlib.Data.List.Sort
import Mathlib.Order.Lattice

namespace SearchTrust.Redis

/-- A string value and the server time at which its time to live runs out. -/
structure Entry (V : Type) where
  value : V
  expiresAt : Nat

/-- A family of string keys. -/
abbrev Table (K V : Type) := K → Option (Entry V)

namespace Table

variable {K V : Type} [DecidableEq K]

def empty : Table K V := fun _ => none

/-- `GET`. -/
def get (t : Table K V) (k : K) : Option V := (t k).map Entry.value

/-- `SET key value EX ttl`, with the deadline already computed. -/
def set (t : Table K V) (k : K) (value : V) (expiresAt : Nat) : Table K V :=
  fun j => if j = k then some ⟨value, expiresAt⟩ else t j

/-- `EXPIRE`; a missing key stays missing. -/
def expire (t : Table K V) (k : K) (expiresAt : Nat) : Table K V :=
  fun j => if j = k then (t j).map fun e => ⟨e.value, expiresAt⟩ else t j

/-- `DEL`. -/
def delete (t : Table K V) (k : K) : Table K V :=
  fun j => if j = k then none else t j

/-- The keys that are left once the clock stands at `clock`. -/
def purge (t : Table K V) (clock : Nat) : Table K V :=
  fun j => (t j).filter fun e => decide (clock < e.expiresAt)

omit [DecidableEq K] in
@[simp] theorem get_empty (k : K) : (empty : Table K V).get k = none := rfl

@[simp] theorem set_self (t : Table K V) (k : K) (v : V) (x : Nat) :
    t.set k v x k = some ⟨v, x⟩ := by
  simp [set]

theorem set_of_ne (t : Table K V) {j k : K} (h : j ≠ k) (v : V) (x : Nat) :
    t.set k v x j = t j := by
  simp [set, h]

@[simp] theorem get_set_self (t : Table K V) (k : K) (v : V) (x : Nat) :
    (t.set k v x).get k = some v := by
  simp [get]

theorem get_set_of_ne (t : Table K V) {j k : K} (h : j ≠ k) (v : V) (x : Nat) :
    (t.set k v x).get j = t.get j := by
  simp [get, set_of_ne t h]

@[simp] theorem get_expire (t : Table K V) (j k : K) (x : Nat) :
    (t.expire k x).get j = t.get j := by
  by_cases h : j = k
  · simp [get, expire, h, Function.comp_def]
  · simp [get, expire, h]

@[simp] theorem get_delete_self (t : Table K V) (k : K) :
    (t.delete k).get k = none := by
  simp [get, delete]

theorem get_delete_of_ne (t : Table K V) {j k : K} (h : j ≠ k) :
    (t.delete k).get j = t.get j := by
  simp [get, delete, h]

omit [DecidableEq K] in
theorem purge_apply (t : Table K V) (clock : Nat) (k : K) :
    t.purge clock k = none ∨ t.purge clock k = t k := by
  unfold purge
  cases t k with
  | none => simp
  | some e =>
      by_cases h : clock < e.expiresAt
      · simp [h]
      · simp [h, Nat.le_of_not_lt h]

omit [DecidableEq K] in
theorem get_purge (t : Table K V) (clock : Nat) (k : K) :
    (t.purge clock).get k = none ∨ (t.purge clock).get k = t.get k := by
  rcases purge_apply t clock k with h | h
  · exact Or.inl (by simp [get, h])
  · exact Or.inr (by simp [get, h])

omit [DecidableEq K] in
theorem purge_eq_some_iff (t : Table K V) (clock : Nat) (k : K) (e : Entry V) :
    t.purge clock k = some e ↔ t k = some e ∧ clock < e.expiresAt := by
  simp [purge, Option.filter_eq_some_iff]

end Table

/-- A sorted set: distinct members in the order of their scores, members with
equal scores in the order of the members. -/
structure SortedSet (M Sc : Type) [LinearOrder M] [LinearOrder Sc] where
  entries : List (M × Sc)
  nodup : (entries.map Prod.fst).Nodup
  sorted : entries.Pairwise fun a b => a.2 < b.2 ∨ (a.2 = b.2 ∧ a.1 ≤ b.1)

namespace SortedSet

variable {M Sc : Type} [LinearOrder M] [LinearOrder Sc]

/-- The order in which a sorted set lists its entries. -/
def Precedes (a b : M × Sc) : Prop := a.2 < b.2 ∨ (a.2 = b.2 ∧ a.1 ≤ b.1)

instance : DecidableRel (@Precedes M Sc _ _) :=
  fun a b => inferInstanceAs (Decidable (a.2 < b.2 ∨ (a.2 = b.2 ∧ a.1 ≤ b.1)))

instance : Std.Total (@Precedes M Sc _ _) where
  total a b := by
    unfold Precedes
    rcases lt_trichotomy a.2 b.2 with h | h | h
    · exact Or.inl (Or.inl h)
    · rcases le_total a.1 b.1 with hm | hm
      · exact Or.inl (Or.inr ⟨h, hm⟩)
      · exact Or.inr (Or.inr ⟨h.symm, hm⟩)
    · exact Or.inr (Or.inl h)

instance : IsTrans (M × Sc) Precedes where
  trans a b c hab hbc := by
    unfold Precedes at *
    rcases hab with h | ⟨h, hm⟩
    · rcases hbc with h' | ⟨h', _⟩
      · exact Or.inl (h.trans h')
      · exact Or.inl (h' ▸ h)
    · rcases hbc with h' | ⟨h', hm'⟩
      · exact Or.inl (h ▸ h')
      · exact Or.inr ⟨h.trans h', hm.trans hm'⟩

def empty : SortedSet M Sc := ⟨[], List.nodup_nil, List.Pairwise.nil⟩

/-- `ZSCORE`. -/
def zscore (z : SortedSet M Sc) (m : M) : Option Sc :=
  (z.entries.find? fun e => decide (e.1 = m)).map Prod.snd

/-- `ZREM`. -/
def zrem (z : SortedSet M Sc) (m : M) : SortedSet M Sc where
  entries := z.entries.filter fun e => decide (e.1 ≠ m)
  nodup := (List.filter_sublist.map Prod.fst).nodup z.nodup
  sorted := z.sorted.sublist List.filter_sublist

theorem notMem_zrem (z : SortedSet M Sc) (m : M) :
    m ∉ (z.zrem m).entries.map Prod.fst := by
  simp [zrem]

/-- `ZADD`: an old score of the member is replaced. -/
def zadd (z : SortedSet M Sc) (m : M) (score : Sc) : SortedSet M Sc where
  entries := (z.zrem m).entries.orderedInsert Precedes (m, score)
  nodup := by
    have hperm := (List.perm_orderedInsert Precedes (m, score)
      (z.zrem m).entries).map Prod.fst
    rw [hperm.nodup_iff, List.map_cons, List.nodup_cons]
    exact ⟨notMem_zrem z m, (z.zrem m).nodup⟩
  sorted := List.Pairwise.orderedInsert (r := Precedes) _ _ (z.zrem m).sorted

/-- `ZREMRANGEBYSCORE -inf max`. -/
def zremrangebyscore (z : SortedSet M Sc) (max : Sc) : SortedSet M Sc where
  entries := z.entries.filter fun e => decide (max < e.2)
  nodup := (List.filter_sublist.map Prod.fst).nodup z.nodup
  sorted := z.sorted.sublist List.filter_sublist

/-- `ZRANGE 0 limit-1 WITHSCORES`. -/
def zrange (z : SortedSet M Sc) (limit : Nat) : List (M × Sc) :=
  z.entries.take limit

/-- `ZRANGEBYSCORE -inf max LIMIT 0 limit WITHSCORES`. -/
def zrangebyscore (z : SortedSet M Sc) (max : Sc) (limit : Nat) :
    List (M × Sc) :=
  (z.entries.filter fun e => decide (e.2 ≤ max)).take limit

/-- `ZCARD`. -/
def zcard (z : SortedSet M Sc) : Nat := z.entries.length

@[simp] theorem zscore_empty (m : M) :
    (empty : SortedSet M Sc).zscore m = none := rfl

omit [LinearOrder Sc] in
/-- With distinct members, looking a member up finds its only entry. -/
theorem mem_iff_find?_of_nodup {entries : List (M × Sc)}
    (hnodup : (entries.map Prod.fst).Nodup) (m : M) (score : Sc) :
    (m, score) ∈ entries ↔
      (entries.find? fun e => decide (e.1 = m)).map Prod.snd = some score := by
  induction entries with
  | nil => simp
  | cons head tail ih =>
      simp only [List.map_cons, List.nodup_cons] at hnodup
      by_cases hm : head.1 = m
      · have hnot : (m, score) ∉ tail := fun h =>
          hnodup.1 (hm ▸ List.mem_map_of_mem (f := Prod.fst) h)
        simp only [List.mem_cons, hnot, or_false, List.find?_cons, hm,
          decide_true, Option.map_some, Option.some.injEq]
        constructor
        · rintro rfl
          rfl
        · intro h
          exact Prod.ext hm.symm h.symm
      · have hne : (m, score) ≠ head := by
          rintro rfl
          exact hm rfl
        simp only [List.mem_cons, hne, false_or, List.find?_cons, hm,
          decide_false]
        exact ih hnodup.2

theorem mem_entries_iff (z : SortedSet M Sc) (m : M) (score : Sc) :
    (m, score) ∈ z.entries ↔ z.zscore m = some score :=
  mem_iff_find?_of_nodup z.nodup m score

@[simp] theorem zscore_zrem_self (z : SortedSet M Sc) (m : M) :
    (z.zrem m).zscore m = none := by
  rw [Option.eq_none_iff_forall_ne_some]
  intro score h
  rw [← mem_entries_iff] at h
  simp [zrem] at h

theorem zscore_zrem_of_ne (z : SortedSet M Sc) {j m : M} (h : j ≠ m) :
    (z.zrem m).zscore j = z.zscore j := by
  ext score
  rw [← mem_entries_iff, ← mem_entries_iff]
  simp [zrem, h]

theorem mem_zadd_iff (z : SortedSet M Sc) (m j : M) (score score' : Sc) :
    (j, score') ∈ (z.zadd m score).entries ↔
      (j = m ∧ score' = score) ∨ (j ≠ m ∧ (j, score') ∈ z.entries) := by
  simp only [zadd, List.mem_orderedInsert, Prod.mk.injEq, zrem,
    List.mem_filter, decide_eq_true_eq]
  tauto

@[simp] theorem zscore_zadd_self (z : SortedSet M Sc) (m : M) (score : Sc) :
    (z.zadd m score).zscore m = some score := by
  rw [← mem_entries_iff, mem_zadd_iff]
  exact Or.inl ⟨rfl, rfl⟩

theorem zscore_zadd_of_ne (z : SortedSet M Sc) {j m : M} (h : j ≠ m)
    (score : Sc) : (z.zadd m score).zscore j = z.zscore j := by
  ext score'
  rw [← mem_entries_iff, ← mem_entries_iff, mem_zadd_iff]
  simp [h]

theorem zscore_of_mem_zrange {z : SortedSet M Sc} {limit : Nat} {m : M}
    {score : Sc} (h : (m, score) ∈ z.zrange limit) :
    z.zscore m = some score :=
  (mem_entries_iff z m score).1 (List.mem_of_mem_take h)

theorem zscore_of_mem_zrangebyscore {z : SortedSet M Sc} {max : Sc}
    {limit : Nat} {m : M} {score : Sc}
    (h : (m, score) ∈ z.zrangebyscore max limit) :
    z.zscore m = some score ∧ score ≤ max := by
  have hmem := List.mem_of_mem_take h
  rw [List.mem_filter] at hmem
  exact ⟨(mem_entries_iff z m score).1 hmem.1, of_decide_eq_true hmem.2⟩

end SortedSet

end SearchTrust.Redis
