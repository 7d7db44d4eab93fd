import Mathlib.Algebra.Order.Round
import Mathlib.Data.Rat.Floor
import Mathlib.Tactic.Linarith
import Mathlib.Tactic.NormNum
import Mathlib.Tactic.Positivity
import Mathlib.Tactic.Ring

/-! Rounding to the nearest integer, away from zero at a tie. -/

set_option autoImplicit false

namespace HalfAway

/-- The integer nearest to a rational number, the one further from zero at a tie. -/
def roundAway (value : ℚ) : ℤ := if 0 ≤ value then round value else -round (-value)

theorem roundAway_of_nonneg {value : ℚ} (nonneg : 0 ≤ value) : roundAway value = round value :=
  if_pos nonneg

theorem roundAway_neg (value : ℚ) : roundAway (-value) = -roundAway value := by
  unfold roundAway
  rcases lt_trichotomy value 0 with negative | rfl | positive
  · rw [if_pos (by linarith), if_neg (by linarith), neg_neg]
  · simp
  · rw [if_neg (by linarith), if_pos positive.le, neg_neg]

/-- The quotient of two naturals, rounded by their remainder. -/
theorem roundAway_natCast_div (numerator : ℕ) {denominator : ℕ} (positive : 0 < denominator) :
    roundAway ((numerator : ℚ) / denominator) = (numerator / denominator +
        if denominator ≤ numerator % denominator * 2 then 1 else 0 : ℕ) := by
  rw [roundAway_of_nonneg (by positivity), round_eq, Int.floor_eq_iff]
  have nonzero : (0 : ℚ) < denominator := by exact_mod_cast positive
  have division : (numerator : ℚ) =
      denominator * (numerator / denominator : ℕ) + (numerator % denominator : ℕ) := by
    exact_mod_cast (Nat.div_add_mod numerator denominator).symm
  have remainder : ((numerator % denominator : ℕ) : ℚ) < denominator := by
    exact_mod_cast Nat.mod_lt numerator positive
  generalize numerator / denominator = quotient at *
  generalize numerator % denominator = rest at *
  have value : (numerator : ℚ) / denominator = quotient + rest / denominator := by
    rw [division]
    field_simp
  rw [value]
  have nonneg : (0 : ℚ) ≤ rest / denominator := by positivity
  have below : (rest : ℚ) / denominator < 1 := (div_lt_one nonzero).mpr remainder
  split
  next half =>
    have half : (denominator : ℚ) ≤ rest * 2 := by exact_mod_cast half
    have fraction : (1 : ℚ) / 2 ≤ rest / denominator := by
      rw [div_le_div_iff₀ two_pos nonzero]
      linarith
    push_cast
    exact ⟨by linarith, by linarith⟩
  rename_i short
  have short : (rest : ℚ) * 2 < denominator := by exact_mod_cast Nat.lt_of_not_le short
  have fraction : (rest : ℚ) / denominator < 1 / 2 := by
    rw [div_lt_div_iff₀ nonzero two_pos]
    linarith
  push_cast
  exact ⟨by linarith, by linarith⟩

end HalfAway
