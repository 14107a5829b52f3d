/-
The correlation coefficient of two lists of rational numbers.  Only the square root in it
is a real number.
-/
import Mathlib.Algebra.BigOperators.Fin
import Mathlib.Algebra.Order.BigOperators.Ring.Finset
import Mathlib.Algebra.Order.BigOperators.Group.List
import Mathlib.Analysis.Real.Sqrt

namespace SearchTrust.Numeric

def mean (items : List ℚ) : ℚ := items.sum / items.length

/-- The sum of the products of the deviations from the means. -/
def covariation (left right : List ℚ) : ℚ :=
  ((left.zip right).map fun p => (p.1 - mean left) * (p.2 - mean right)).sum

/-- The sum of the squared deviations from the mean. -/
def variation (items : List ℚ) : ℚ := (items.map fun a => (a - mean items) ^ 2).sum

noncomputable def correlation (left right : List ℚ) : ℝ :=
  covariation left right / √((variation left * variation right : ℚ) : ℝ)

variable {left right items : List ℚ}

theorem covariation_comm (left right : List ℚ) :
    covariation left right = covariation right left := by
  unfold covariation
  rw [← List.zip_swap left right, List.map_map]
  refine congrArg List.sum (List.map_congr_left ?_)
  intro p _
  exact mul_comm _ _

theorem correlation_comm (left right : List ℚ) :
    correlation left right = correlation right left := by
  unfold correlation
  rw [covariation_comm, mul_comm (variation left)]

theorem variation_nonneg (items : List ℚ) : 0 ≤ variation items := by
  refine List.sum_nonneg ?_
  intro x hx
  obtain ⟨a, _, rfl⟩ := List.mem_map.1 hx
  exact sq_nonneg _

/-- Numbers that are not all the same vary. -/
theorem variation_pos {a b : ℚ} (ha : a ∈ items) (hb : b ∈ items) (hne : a ≠ b) :
    0 < variation items := by
  refine lt_of_le_of_ne (variation_nonneg items) ?_
  intro hzero
  have hall : ∀ c ∈ items, c = mean items := by
    intro c hc
    have hle : (c - mean items) ^ 2 ≤ variation items := by
      refine List.single_le_sum ?_ _ (List.mem_map_of_mem hc)
      intro x hx
      obtain ⟨d, _, rfl⟩ := List.mem_map.1 hx
      exact sq_nonneg _
    rw [← hzero] at hle
    exact sub_eq_zero.1 (pow_eq_zero_iff two_ne_zero |>.1 (le_antisymm hle (sq_nonneg _)))
  exact hne ((hall a ha).trans (hall b hb).symm)

/-- Cauchy and Schwarz for the deviations. -/
theorem sq_covariation_le (h : left.length = right.length) :
    covariation left right ^ 2 ≤ variation left * variation right := by
  have hleft : variation left =
      ((left.zip right).map fun p => (p.1 - mean left) ^ 2).sum := by
    have hfst := congrArg (List.map fun a => (a - mean left) ^ 2) (List.map_fst_zip h.le)
    rw [List.map_map] at hfst
    exact (congrArg List.sum hfst).symm
  have hright : variation right =
      ((left.zip right).map fun p => (p.2 - mean right) ^ 2).sum := by
    have hsnd := congrArg (List.map fun b => (b - mean right) ^ 2) (List.map_snd_zip h.ge)
    rw [List.map_map] at hsnd
    exact (congrArg List.sum hsnd).symm
  rw [hleft, hright]
  unfold covariation
  rw [← Fin.sum_univ_fun_getElem, ← Fin.sum_univ_fun_getElem, ← Fin.sum_univ_fun_getElem]
  exact Finset.sum_mul_sq_le_sq_mul_sq _ _ _

/-- The correlation lies between -1 and 1. -/
theorem abs_correlation_le_one (h : left.length = right.length) :
    |correlation left right| ≤ 1 := by
  unfold correlation
  rw [abs_div, abs_of_nonneg (Real.sqrt_nonneg _)]
  refine div_le_one_of_le₀ ?_ (Real.sqrt_nonneg _)
  refine Real.abs_le_sqrt ?_
  exact_mod_cast sq_covariation_le h

section Reflection

variable {c : ℚ}

theorem sum_reflect (c : ℚ) (items : List ℚ) :
    (items.map fun a => c - a).sum = items.length * c - items.sum := by
  induction items with
  | nil => simp
  | cons a items ih =>
      rw [List.map_cons, List.sum_cons, ih, List.length_cons, List.sum_cons]
      push_cast
      ring

theorem mean_reflect (h : items ≠ []) : mean (items.map fun a => c - a) = c - mean items := by
  have hpos : (items.length : ℚ) ≠ 0 := by
    exact_mod_cast (List.length_pos_iff.2 h).ne'
  unfold mean
  rw [sum_reflect, List.length_map, sub_div, mul_div_cancel_left₀ _ hpos]

theorem variation_reflect (c : ℚ) (items : List ℚ) :
    variation (items.map fun a => c - a) = variation items := by
  by_cases h : items = []
  · rw [h]
    rfl
  unfold variation
  rw [mean_reflect h, List.map_map]
  refine congrArg List.sum (List.map_congr_left ?_)
  intro a _
  change (c - a - (c - mean items)) ^ 2 = _
  ring

theorem covariation_reflect (c : ℚ) (left right : List ℚ) :
    covariation left (right.map fun b => c - b) = -covariation left right := by
  by_cases h : right = []
  · rw [h]
    simp [covariation]
  unfold covariation
  rw [mean_reflect h, List.zip_map_right, List.map_map, List.sum_neg, List.map_map]
  refine congrArg List.sum (List.map_congr_left ?_)
  intro p _
  change (p.1 - mean left) * (c - p.2 - (c - mean right)) =
    -((p.1 - mean left) * (p.2 - mean right))
  ring

/-- Reflecting one side turns the sign. -/
theorem correlation_reflect (c : ℚ) (left right : List ℚ) :
    correlation left (right.map fun b => c - b) = -correlation left right := by
  unfold correlation
  rw [covariation_reflect, variation_reflect]
  push_cast
  ring

end Reflection

end SearchTrust.Numeric
