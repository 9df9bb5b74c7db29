-- Decimals as rational numbers. The library compares two decimals by counting both on the
-- finer of their grids, and that is the order of the numbers, whatever their digits.
import Attestation.Number.Decimal
import Mathlib

namespace Attestation.Decimal

/-- The number that a decimal stands for. -/
def value (d : Decimal) : ℚ :=
  (if d.negative then -(d.coefficient : ℚ) else d.coefficient) * 10 ^ d.exponent

theorem ten_zpow_pos (e : ℤ) : (0 : ℚ) < 10 ^ e := zpow_pos (by norm_num) e

/-! ## The order of numbers -/

/-- On a grid that is fine enough no part of a number is lost. -/
theorem value_eq_steps {d : Decimal} {grid : ℤ} (h : grid ≤ d.exponent) :
    d.value = d.steps grid * 10 ^ grid := by
  have hsplit : (10 : ℚ) ^ d.exponent = 10 ^ (d.exponent - grid).toNat * 10 ^ grid := by
    rw [← zpow_natCast, ← zpow_add₀ (by norm_num)]
    congr 1
    omega
  unfold value steps
  rw [hsplit, Nat.pow_eq]
  cases d.negative
  · push_cast
    ring
  · simp only [if_true]
    push_cast
    ring

theorem le_iff_value_le (x y : Decimal) : x.le y = true ↔ x.value ≤ y.value := by
  have hpos := ten_zpow_pos (min x.exponent y.exponent)
  unfold le
  rw [value_eq_steps (Int.min_le_left x.exponent y.exponent),
    value_eq_steps (Int.min_le_right x.exponent y.exponent), mul_le_mul_iff_left₀ hpos, Int.cast_le]
  exact decide_eq_true_iff

theorem lt_iff_value_lt (x y : Decimal) : x.lt y = true ↔ x.value < y.value := by
  rw [← not_le, ← le_iff_value_le]
  simp [lt]

/-! ## Whole numbers and zero -/

theorem value_ofInt (n : ℤ) : (ofInt n).value = n := by
  unfold value ofInt
  rcases lt_or_ge n 0 with h | h
  · simp [h, abs_of_neg h]
  · simp [not_lt.2 h, abs_of_nonneg h]

theorem value_eq_zero_iff (d : Decimal) : d.value = 0 ↔ d.coefficient = 0 := by
  have hpos := (ten_zpow_pos d.exponent).ne'
  unfold value
  rw [mul_eq_zero_iff_right hpos]
  cases d.negative <;> simp

/-! ## Sign and size -/

theorem value_eq_signed (d : Decimal) :
    d.value = if d.negative then -(d.coefficient * 10 ^ d.exponent : ℚ)
      else d.coefficient * 10 ^ d.exponent := by
  unfold value
  split
  · rw [neg_mul]
  · rfl

theorem abs_value (d : Decimal) : |d.value| = d.coefficient * 10 ^ d.exponent := by
  have hsize : (0 : ℚ) ≤ d.coefficient * 10 ^ d.exponent :=
    mul_nonneg (Nat.cast_nonneg _) (ten_zpow_pos _).le
  rw [value_eq_signed]
  split
  · rw [abs_neg, abs_of_nonneg hsize]
  · exact abs_of_nonneg hsize

theorem negative_iff_value_neg {d : Decimal} (h : d.value ≠ 0) :
    d.negative = true ↔ d.value < 0 := by
  have hsize : (0 : ℚ) < d.coefficient * 10 ^ d.exponent := by
    rw [← abs_value]
    exact abs_pos.2 h
  rw [value_eq_signed]
  split
  · rename_i hnegative
    exact iff_of_true hnegative (neg_lt_zero.2 hsize)
  · rename_i hnegative
    exact iff_of_false hnegative hsize.not_gt

end Attestation.Decimal
