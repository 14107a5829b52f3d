/-
Rounding of rational numbers to binary floating point with 53 significant bits,
to nearest with ties to even.  The exponent range is unbounded, so the results
are those of binary64 wherever it neither overflows nor underflows.
-/
import Mathlib.Algebra.Order.Field.Power
import Mathlib.Data.Int.Log
import Mathlib.Data.Rat.Floor
import Mathlib.Tactic.Linarith
import Mathlib.Tactic.Positivity
import Mathlib.Tactic.Ring

namespace SearchTrust.Numeric

/-- The nearest integer; a tie goes to the even one. -/
def roundHalfEven (q : ℚ) : ℤ :=
  let down := ⌊q⌋
  let rest := q - down
  if rest < 1 / 2 then down
  else if 1 / 2 < rest then down + 1
  else if down % 2 = 0 then down else down + 1

theorem abs_roundHalfEven_sub_le (q : ℚ) : |(roundHalfEven q : ℚ) - q| ≤ 1 / 2 := by
  have hfloor := Int.floor_le q
  have hlt := Int.lt_floor_add_one q
  unfold roundHalfEven
  simp only
  split
  next h =>
    rw [abs_le]
    constructor <;> linarith
  next h =>
    split
    next h' =>
      push_cast
      rw [abs_le]
      constructor <;> linarith
    next h' =>
      split
      · rw [abs_le]
        constructor <;> linarith
      · push_cast
        rw [abs_le]
        constructor <;> linarith

/-- The exponent of the last significant bit. -/
def ulpExponent (q : ℚ) : ℤ := Int.log 2 |q| - 52

/-- The number of 53 significant bits that is nearest to `q`. -/
def toBinary64 (q : ℚ) : ℚ :=
  if q = 0 then 0
  else (roundHalfEven (q / 2 ^ ulpExponent q) : ℚ) * 2 ^ ulpExponent q

@[simp] theorem toBinary64_zero : toBinary64 0 = 0 := by simp [toBinary64]

/-- The relative error of rounding is at most half a unit in the last place. -/
theorem abs_toBinary64_sub_le (q : ℚ) : |toBinary64 q - q| ≤ |q| / 2 ^ 53 := by
  by_cases hq : q = 0
  · simp [hq]
  have hpos : 0 < |q| := abs_pos.2 hq
  have hulp : (0 : ℚ) < 2 ^ ulpExponent q := by positivity
  have hlog : (2 : ℚ) ^ Int.log 2 |q| ≤ |q| := by
    have h := Int.zpow_log_le_self (b := 2) (R := ℚ) (by decide) hpos
    exact_mod_cast h
  have hsplit : (2 : ℚ) ^ Int.log 2 |q| = 2 ^ ulpExponent q * 2 ^ (52 : ℕ) := by
    have hexp : Int.log 2 |q| = ulpExponent q + (52 : ℕ) := by
      simp [ulpExponent]
    rw [hexp, zpow_add₀ (by norm_num), zpow_natCast]
  have hround := abs_roundHalfEven_sub_le (q / 2 ^ ulpExponent q)
  have herror : toBinary64 q - q =
      ((roundHalfEven (q / 2 ^ ulpExponent q) : ℚ) - q / 2 ^ ulpExponent q) *
        2 ^ ulpExponent q := by
    rw [toBinary64, if_neg hq, sub_mul, div_mul_cancel₀ _ hulp.ne']
  rw [herror, abs_mul, abs_of_pos hulp]
  calc |(roundHalfEven (q / 2 ^ ulpExponent q) : ℚ) - q / 2 ^ ulpExponent q| *
        2 ^ ulpExponent q
      ≤ 1 / 2 * 2 ^ ulpExponent q := mul_le_mul_of_nonneg_right hround hulp.le
    _ = 2 ^ ulpExponent q * 2 ^ (52 : ℕ) / 2 ^ 53 := by ring
    _ ≤ |q| / 2 ^ 53 := by
        rw [← hsplit]
        exact div_le_div_of_nonneg_right hlog (by positivity)

theorem abs_toBinary64_le (q : ℚ) : |toBinary64 q| ≤ |q| * (1 + 1 / 2 ^ 53) := by
  have herror := abs_toBinary64_sub_le q
  have htriangle : |toBinary64 q| ≤ |toBinary64 q - q| + |q| := by
    have h := abs_add_le (toBinary64 q - q) q
    rwa [sub_add_cancel] at h
  calc |toBinary64 q| ≤ |q| / 2 ^ 53 + |q| := by linarith
    _ = |q| * (1 + 1 / 2 ^ 53) := by ring

/-- `int(q)`: the fraction is dropped. -/
def truncate (q : ℚ) : ℤ := if 0 ≤ q then ⌊q⌋ else ⌈q⌉

theorem truncate_le_abs (q : ℚ) : (truncate q : ℚ) ≤ |q| := by
  unfold truncate
  split
  next h => exact (Int.floor_le q).trans (le_abs_self q)
  next h =>
    have hceil : ⌈q⌉ ≤ 0 := Int.ceil_le.2 (by push_cast; linarith)
    have hcast : (⌈q⌉ : ℚ) ≤ 0 := by exact_mod_cast hceil
    exact hcast.trans (abs_nonneg q)

end SearchTrust.Numeric
