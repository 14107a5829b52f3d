/-
Ranks in a list with ties: equal values share the average of their positions.
-/
import Mathlib.Algebra.BigOperators.Group.List.Basic
import Mathlib.Algebra.Order.Ring.Rat
import Mathlib.Data.List.Count
import Mathlib.Tactic.Linarith
import Mathlib.Tactic.Ring

namespace SearchTrust.Order

variable {α β : Type*} [LinearOrder α] [LinearOrder β]

/-- The average of the positions, counted from one, that the items equal to `v` have in
the sorted list. -/
def averageRank (items : List α) (v : α) : ℚ :=
  (items.countP (· < v) : ℚ) + ((items.count v : ℚ) + 1) / 2

variable {items other : List α}

/-- Only how often each value occurs decides its rank. -/
theorem averageRank_perm (h : items.Perm other) (v : α) :
    averageRank items v = averageRank other v := by
  unfold averageRank
  rw [h.countP_eq, h.count_eq]

/-- The items below a value and those equal to it are below a larger value. -/
theorem countP_add_count_le {v w : α} (h : v < w) :
    items.countP (· < v) + items.count v ≤ items.countP (· < w) := by
  induction items with
  | nil => exact le_refl _
  | cons a items ih =>
      rw [List.countP_cons, List.countP_cons, List.count_cons]
      rcases lt_trichotomy a v with ha | rfl | ha
      · simp [ha, ha.ne, ha.trans h]
        omega
      · simp [h]
        omega
      · simp [ha.not_gt, ha.ne']
        omega

theorem averageRank_lt {v w : α} (hv : v ∈ items) (hw : w ∈ items) (h : v < w) :
    averageRank items v < averageRank items w := by
  have hbelow : items.countP (· < v) + items.count v ≤ items.countP (· < w) :=
    countP_add_count_le h
  have hvpos : 0 < items.count v := List.count_pos_iff.2 hv
  have hwpos : 0 < items.count w := List.count_pos_iff.2 hw
  have hbelow' : (items.countP (· < v) : ℚ) + items.count v ≤ items.countP (· < w) := by
    exact_mod_cast hbelow
  have hvone : (1 : ℚ) ≤ items.count v := by exact_mod_cast hvpos
  have hwone : (1 : ℚ) ≤ items.count w := by exact_mod_cast hwpos
  unfold averageRank
  linarith

/-- The rank that a run of equal items has between smaller and larger ones. -/
theorem averageRank_of_run {front run after : List α} {v : α} (hfront : ∀ a ∈ front, a < v)
    (hrun : ∀ a ∈ run, a = v) (hafter : ∀ a ∈ after, v < a) :
    averageRank (front ++ (run ++ after)) v = front.length + ((run.length : ℚ) + 1) / 2 := by
  have hbelow : (front ++ (run ++ after)).countP (· < v) = front.length := by
    rw [List.countP_append, List.countP_append,
      List.countP_eq_length.2 fun a ha => decide_eq_true (hfront a ha),
      List.countP_eq_zero.2 fun a ha => by simp [hrun a ha],
      List.countP_eq_zero.2 fun a ha => by simp [(hafter a ha).le]]
    rfl
  have hequal : (front ++ (run ++ after)).count v = run.length := by
    rw [List.count_append, List.count_append,
      List.count_eq_zero.2 fun ha => lt_irrefl _ (hfront v ha),
      List.count_eq_length.2 fun a ha => (hrun a ha).symm,
      List.count_eq_zero.2 fun ha => lt_irrefl _ (hafter v ha)]
    omega
  unfold averageRank
  rw [hbelow, hequal]

section Sum

/-- What one more item adds to the rank of a value. -/
theorem averageRank_cons (a : α) (items : List α) (v : α) :
    averageRank (a :: items) v =
      averageRank items v + (if a < v then 1 else 0) + (if a = v then 1 else 0) / 2 := by
  unfold averageRank
  rw [List.countP_cons, List.count_cons]
  rcases lt_trichotomy a v with h | rfl | h
  · simp [h, h.ne]
    ring
  · simp
    ring
  · simp [h.not_gt, h.ne']

/-- The items above, equal to and below a value are all items. -/
theorem counts_add_up (a : α) (items : List α) :
    (items.map fun v => if a < v then (1 : ℚ) else 0).sum + items.count a +
      items.countP (· < a) = items.length := by
  induction items with
  | nil => simp
  | cons b items ih =>
      rw [List.map_cons, List.sum_cons, List.count_cons, List.countP_cons, List.length_cons]
      push_cast
      rw [← ih]
      rcases lt_trichotomy a b with h | rfl | h
      · simp [h, h.not_gt, h.ne']
        ring
      · simp
        ring
      · simp [h, h.not_gt, h.ne]
        ring

theorem sum_equal (a : α) (items : List α) :
    (items.map fun v => (if a = v then (1 : ℚ) else 0) / 2).sum = items.count a / 2 := by
  induction items with
  | nil => simp
  | cons b items ih =>
      rw [List.map_cons, List.sum_cons, List.count_cons, ih]
      by_cases h : a = b
      · simp [h]
        ring
      · simp [h, Ne.symm h]

/-- The ranks of `n` items add up to `1 + ... + n`. -/
theorem sum_averageRank (items : List α) :
    (items.map (averageRank items)).sum = items.length * (items.length + 1) / 2 := by
  induction items with
  | nil => simp
  | cons a items ih =>
      have hothers : (items.map (averageRank (a :: items))).sum =
          (items.map (averageRank items)).sum +
            (items.map fun v => if a < v then (1 : ℚ) else 0).sum + items.count a / 2 := by
        rw [← sum_equal a items, ← List.sum_map_add, ← List.sum_map_add]
        refine congrArg List.sum (List.map_congr_left ?_)
        intro v _
        exact averageRank_cons a items v
      have hown : averageRank (a :: items) a =
          items.countP (· < a) + ((items.count a : ℚ) + 1 + 1) / 2 := by
        unfold averageRank
        rw [List.countP_cons, List.count_cons]
        simp
      have hcounts := counts_add_up a items
      rw [List.map_cons, List.sum_cons, hothers, ih, hown, List.length_cons]
      push_cast
      linarith

end Sum

section Orders

/-- Lists whose items are in the same order have the same ranks. -/
theorem averageRank_eq_of_sameOrder {pairs : List (α × β)}
    (h : ∀ p ∈ pairs, ∀ q ∈ pairs, p.1 < q.1 ↔ p.2 < q.2) {p : α × β} (hp : p ∈ pairs) :
    averageRank (pairs.map Prod.fst) p.1 = averageRank (pairs.map Prod.snd) p.2 := by
  have hbelow : (pairs.map Prod.fst).countP (· < p.1) =
      (pairs.map Prod.snd).countP (· < p.2) := by
    rw [List.countP_map, List.countP_map]
    refine List.countP_congr ?_
    intro q hq
    simpa using h q hq p hp
  have hequal : (pairs.map Prod.fst).count p.1 = (pairs.map Prod.snd).count p.2 := by
    rw [List.count, List.count, List.countP_map, List.countP_map]
    refine List.countP_congr ?_
    intro q hq
    have hqp := h q hq p hp
    have hpq := h p hp q hq
    simp only [Function.comp, beq_iff_eq]
    constructor
    · intro heq
      rw [heq] at hqp hpq
      exact le_antisymm (not_lt.1 fun hlt => lt_irrefl _ (hpq.2 hlt))
        (not_lt.1 fun hlt => lt_irrefl _ (hqp.2 hlt))
    · intro heq
      rw [heq] at hqp hpq
      exact le_antisymm (not_lt.1 fun hlt => lt_irrefl _ (hpq.1 hlt))
        (not_lt.1 fun hlt => lt_irrefl _ (hqp.1 hlt))
  unfold averageRank
  rw [hbelow, hequal]

/-- Reversing the order counts the positions from the other end. -/
theorem averageRank_toDual (items : List α) (v : α) :
    averageRank (items.map OrderDual.toDual) (OrderDual.toDual v) =
      items.length + 1 - averageRank items v := by
  have hcounts := counts_add_up v items
  have habove : ((items.map OrderDual.toDual).countP (· < OrderDual.toDual v) : ℚ) =
      (items.map fun w => if v < w then (1 : ℚ) else 0).sum := by
    rw [List.countP_map]
    induction items with
    | nil => simp
    | cons w items ih =>
        have hrest := ih (counts_add_up v items)
        rw [List.countP_cons, List.map_cons, List.sum_cons, ← hrest]
        by_cases h : v < w
        · simp [h]
          ring
        · simp [h]
  have hequal : (items.map OrderDual.toDual).count (OrderDual.toDual v) = items.count v :=
    List.count_map_of_injective _ _ OrderDual.toDual.injective _
  unfold averageRank at *
  rw [habove, hequal]
  linarith

/-- A list whose items are in the reversed order has the reversed ranks. -/
theorem averageRank_eq_of_reversedOrder {pairs : List (α × β)}
    (h : ∀ p ∈ pairs, ∀ q ∈ pairs, p.1 < q.1 ↔ q.2 < p.2) {p : α × β} (hp : p ∈ pairs) :
    averageRank (pairs.map Prod.snd) p.2 =
      pairs.length + 1 - averageRank (pairs.map Prod.fst) p.1 := by
  have horder : ∀ x ∈ pairs.map fun p => (p.1, OrderDual.toDual p.2),
      ∀ y ∈ pairs.map fun p => (p.1, OrderDual.toDual p.2), x.1 < y.1 ↔ x.2 < y.2 := by
    intro x hx y hy
    obtain ⟨q, hq, rfl⟩ := List.mem_map.1 hx
    obtain ⟨r, hr, rfl⟩ := List.mem_map.1 hy
    exact h q hq r hr
  have hsame := averageRank_eq_of_sameOrder horder (List.mem_map_of_mem hp)
  have hdual := averageRank_toDual (pairs.map Prod.snd) p.2
  rw [List.map_map, List.map_map] at hsame
  rw [List.map_map, List.length_map] at hdual
  have hleft : pairs.map (Prod.fst ∘ fun p => (p.1, OrderDual.toDual p.2)) =
      pairs.map Prod.fst := rfl
  have hright : pairs.map (Prod.snd ∘ fun p => (p.1, OrderDual.toDual p.2)) =
      pairs.map (OrderDual.toDual ∘ Prod.snd) := rfl
  rw [hleft, hright] at hsame
  linarith

end Orders

end SearchTrust.Order
