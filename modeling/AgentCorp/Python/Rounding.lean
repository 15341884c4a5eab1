/-
  `round(x, digits)`: it keeps the order and what has no more digits.
-/
import AgentCorp.Lib.Rounding
import AgentCorp.Python.Values
import Mathlib.Tactic.Positivity

namespace AgentCorp.Python

open Rounding

variable (digits : ℕ)

theorem roundDigits_eq (x : ℚ) :
    roundDigits x digits = roundHalfEven (x * 10 ^ digits) / 10 ^ digits := rfl

/-- What is rounded to at most a number with as many digits. -/
theorem roundDigits_le_iff (x : ℚ) (n : ℤ) :
    roundDigits x digits ≤ n / 10 ^ digits ↔
      x * 10 ^ digits < n + 1 / 2 ∨ (x * 10 ^ digits = n + 1 / 2 ∧ n % 2 = 0) := by
  have hpos : (0 : ℚ) < 10 ^ digits := by positivity
  rw [roundDigits_eq, div_le_div_iff_of_pos_right hpos, Int.cast_le, roundHalfEven_le_iff]

theorem roundDigits_mono : Monotone (roundDigits · digits) := by
  intro x y hxy
  have hpos : (0 : ℚ) < 10 ^ digits := by positivity
  have hround : roundHalfEven (x * 10 ^ digits) ≤ roundHalfEven (y * 10 ^ digits) :=
    roundHalfEven_mono (mul_le_mul_of_nonneg_right hxy hpos.le)
  simp only [roundDigits_eq]
  exact div_le_div_of_nonneg_right (by exact_mod_cast hround) hpos.le

/-- What has no more digits is left as it is. -/
theorem roundDigits_intCast_div (n : ℤ) :
    roundDigits (n / 10 ^ digits) digits = n / 10 ^ digits := by
  have hne : (10 : ℚ) ^ digits ≠ 0 := by positivity
  rw [roundDigits_eq, div_mul_cancel₀ _ hne, roundHalfEven_intCast]

theorem roundDigits_nonneg {x : ℚ} (hx : 0 ≤ x) : 0 ≤ roundDigits x digits := by
  have hzero := roundDigits_intCast_div digits 0
  rw [Int.cast_zero, zero_div] at hzero
  have hmono : roundDigits 0 digits ≤ roundDigits x digits := roundDigits_mono digits hx
  rwa [hzero] at hmono

theorem roundDigits_roundDigits (x : ℚ) :
    roundDigits (roundDigits x digits) digits = roundDigits x digits := by
  rw [roundDigits_eq digits x, roundDigits_intCast_div]

theorem roundDigits_max (x y : ℚ) :
    roundDigits (max x y) digits = max (roundDigits x digits) (roundDigits y digits) :=
  (roundDigits_mono digits).map_max

/-- Rounding before the maximum is taken changes nothing in the rounded maximum. -/
theorem roundDigits_max_roundDigits (x y : ℚ) :
    roundDigits (max (roundDigits x digits) y) digits = roundDigits (max x y) digits := by
  rw [roundDigits_max, roundDigits_max, roundDigits_roundDigits]

end AgentCorp.Python
