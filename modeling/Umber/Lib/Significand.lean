import Mathlib.Algebra.Order.Round
import Mathlib.Data.Int.Log
import Mathlib.Data.Rat.Floor
import Mathlib.Tactic.FieldSimp
import Mathlib.Tactic.Linarith
import Mathlib.Tactic.Positivity
import Mathlib.Tactic.Ring

/-! Rounding of rationals to the nearest value with a significand of a given
number of bits, with ties to the even significand. -/

set_option autoImplicit false

namespace Significand

/-! ## Integers -/

def roundEven (value : ℚ) : ℤ :=
  if 2 * Int.fract value < 1 ∨ (2 * Int.fract value = 1 ∧ Even ⌊value⌋) then ⌊value⌋
  else ⌊value⌋ + 1

theorem floor_le_roundEven (value : ℚ) : ⌊value⌋ ≤ roundEven value := by
  unfold roundEven
  split <;> omega

theorem roundEven_le (value : ℚ) : roundEven value ≤ ⌊value⌋ + 1 := by
  unfold roundEven
  split <;> omega

@[simp] theorem roundEven_intCast (value : ℤ) : roundEven value = value := by
  simp [roundEven]

/-- A distance of at most one half on either side of the floor. -/
theorem roundEven_cases (value : ℚ) : (roundEven value = ⌊value⌋ ∧ 2 * Int.fract value ≤ 1) ∨
      (roundEven value = ⌊value⌋ + 1 ∧ 1 ≤ 2 * Int.fract value) := by
  unfold roundEven
  split
  · rename_i down
    rcases down with below | ⟨tie, -⟩
    · exact Or.inl ⟨rfl, below.le⟩
    · exact Or.inl ⟨rfl, tie.le⟩
  rename_i up
  rw [not_or, not_lt] at up
  exact Or.inr ⟨rfl, up.1⟩

theorem abs_sub_roundEven_le (value : ℚ) : |value - roundEven value| ≤ 1 / 2 := by
  have parts := Int.floor_add_fract value
  have low := Int.fract_nonneg value
  have high := Int.fract_lt_one value
  rw [abs_le]
  rcases roundEven_cases value with ⟨down, near⟩ | ⟨up, near⟩
  · rw [down]
    constructor <;> linarith
  rw [up]
  push_cast
  constructor <;> linarith

theorem abs_sub_roundEven_le_abs_sub (value : ℚ) (other : ℤ) :
    |value - roundEven value| ≤ |value - other| := by
  by_cases same : other = roundEven value
  · rw [same]
  have half := abs_sub_roundEven_le value
  have apart : (1 : ℚ) ≤ |(roundEven value : ℚ) - other| := by
    have distinct : (1 : ℤ) ≤ |roundEven value - other| :=
      Int.one_le_abs (sub_ne_zero.mpr (Ne.symm same))
    exact_mod_cast distinct
  have triangle : |(roundEven value : ℚ) - other| ≤
      |(roundEven value : ℚ) - value| + |value - other| := abs_sub_le _ _ _
  rw [abs_sub_comm (roundEven value : ℚ) value] at triangle
  linarith

/-- Of two integers at the same distance the even one is taken. -/
theorem even_roundEven_of_tie {value : ℚ} {other : ℤ} (different : other ≠ roundEven value)
    (tie : |value - other| = |value - roundEven value|) : Even (roundEven value) := by
  have half := abs_sub_roundEven_le value
  have apart : (1 : ℤ) ≤ |roundEven value - other| :=
    Int.one_le_abs (sub_ne_zero.mpr (Ne.symm different))
  have apartRational : (1 : ℚ) ≤ |(roundEven value : ℚ) - other| := by exact_mod_cast apart
  have triangle : |(roundEven value : ℚ) - other| ≤
      |(roundEven value : ℚ) - value| + |value - other| := abs_sub_le _ _ _
  rw [abs_sub_comm (roundEven value : ℚ) value, tie] at triangle
  have exact : |value - roundEven value| = 1 / 2 := by linarith
  have parts := Int.floor_add_fract value
  have fraction : 2 * Int.fract value = 1 := by
    rcases roundEven_cases value with ⟨down, near⟩ | ⟨up, near⟩
    · rw [down, abs_of_nonneg (by linarith [Int.fract_nonneg value])] at exact
      linarith
    rw [up, abs_of_nonpos (by push_cast; linarith [Int.fract_lt_one value])] at exact
    push_cast at exact
    linarith
  unfold roundEven
  by_cases even : Even ⌊value⌋
  · rw [if_pos (Or.inr ⟨fraction, even⟩)]
    exact even
  rw [if_neg (by simp [fraction, even])]
  exact Int.even_add_one.mpr even

/-- Rounding a quotient of naturals by its remainder. -/
theorem roundEven_div (n : ℕ) {d : ℕ} (positive : 0 < d) : roundEven ((n : ℚ) / d) =
      if n % d * 2 < d ∨ (n % d * 2 = d ∧ n / d % 2 = 0) then ((n / d : ℕ) : ℤ)
      else ((n / d + 1 : ℕ) : ℤ) := by
  have divisor : (0 : ℚ) < d := by exact_mod_cast positive
  have whole : ⌊(n : ℚ) / d⌋ = ((n / d : ℕ) : ℤ) := Rat.floor_natCast_div_natCast n d
  have fraction : 2 * Int.fract ((n : ℚ) / d) = ((n % d * 2 : ℕ) : ℚ) / d := by
    rw [Int.fract_div_natCast_eq_div_natCast_mod]
    push_cast
    ring
  have below : 2 * Int.fract ((n : ℚ) / d) < 1 ↔ n % d * 2 < d := by
    rw [fraction, div_lt_one divisor]
    exact_mod_cast Iff.rfl
  have tie : 2 * Int.fract ((n : ℚ) / d) = 1 ↔ n % d * 2 = d := by
    rw [fraction, div_eq_one_iff_eq divisor.ne']
    exact_mod_cast Iff.rfl
  have even : Even ((n / d : ℕ) : ℤ) ↔ n / d % 2 = 0 := by rw [Int.even_coe_nat, Nat.even_iff]
  simp only [roundEven, whole, below, tie, even]
  split
  · rfl
  push_cast
  rfl

/-! ## Significands -/

/-- The distance of the values around `value` that have a significand of
`bits` bits. -/
def spacing (bits : ℕ) (value : ℚ) : ℚ := 2 ^ (Int.log 2 value + 1 - bits)

/-- The nearest value with a significand of `bits` bits. -/
def nearest (bits : ℕ) (value : ℚ) : ℚ :=
  roundEven (value / spacing bits value) * spacing bits value

/-- A natural significand of at most `bits` bits, scaled by a power of two. -/
def Representable (bits : ℕ) (value : ℚ) : Prop :=
  ∃ (significand : ℕ) (exponent : ℤ), significand < 2 ^ bits ∧
    value = significand * (2 : ℚ) ^ exponent

theorem spacing_pos (bits : ℕ) (value : ℚ) : 0 < spacing bits value := by
  unfold spacing
  exact zpow_pos two_pos _

@[simp] theorem nearest_zero (bits : ℕ) : nearest bits 0 = 0 := by
  have zero : roundEven 0 = 0 := by exact_mod_cast roundEven_intCast 0
  simp [nearest, zero]

theorem pow_mul_spacing (bits : ℕ) (value : ℚ) :
    (2 : ℚ) ^ bits * spacing bits value = 2 ^ (Int.log 2 value + 1) := by
  rw [spacing, ← zpow_natCast, ← zpow_add₀ two_ne_zero]
  congr 1
  omega

variable {bits : ℕ}

theorem low_mul_spacing (positive : 0 < bits) (value : ℚ) :
    (2 : ℚ) ^ (bits - 1) * spacing bits value = 2 ^ Int.log 2 value := by
  rw [spacing, ← zpow_natCast, ← zpow_add₀ two_ne_zero]
  congr 1
  omega

theorem scaled_lt (bits : ℕ) (value : ℚ) : value / spacing bits value < 2 ^ bits := by
  rw [div_lt_iff₀ (spacing_pos bits value), pow_mul_spacing]
  exact_mod_cast Int.lt_zpow_succ_log_self (b := 2) (by decide) value

variable {value : ℚ}

theorem le_scaled (positive : 0 < bits) (nonzero : 0 < value) :
    (2 : ℚ) ^ (bits - 1) ≤ value / spacing bits value := by
  rw [le_div_iff₀ (spacing_pos bits value), low_mul_spacing positive]
  exact_mod_cast Int.zpow_log_le_self (b := 2) (by decide) nonzero

theorem nearest_error (bits : ℕ) (value : ℚ) :
    |value - nearest bits value| ≤ spacing bits value / 2 := by
  have unit := spacing_pos bits value
  have scaled : value - nearest bits value =
      (value / spacing bits value - roundEven (value / spacing bits value)) *
        spacing bits value := by
    rw [nearest, sub_mul, div_mul_cancel₀ _ unit.ne']
  have half := abs_sub_roundEven_le (value / spacing bits value)
  rw [scaled, abs_mul, abs_of_pos unit]
  calc |value / spacing bits value - roundEven (value / spacing bits value)| *
        spacing bits value ≤ 1 / 2 * spacing bits value :=
        mul_le_mul_of_nonneg_right half unit.le
    _ = spacing bits value / 2 := by ring

theorem nearest_relative_error (bits : ℕ) (nonneg : 0 ≤ value) :
    |value - nearest bits value| * 2 ^ bits ≤ value := by
  rcases nonneg.eq_or_lt with rfl | positive
  · simp
  have power : (0 : ℚ) < 2 ^ bits := by positivity
  have low : (2 : ℚ) ^ Int.log 2 value ≤ value := by
    exact_mod_cast Int.zpow_log_le_self (b := 2) (by decide) positive
  have next : (2 : ℚ) ^ (Int.log 2 value + 1) = 2 ^ Int.log 2 value * 2 :=
    zpow_add_one₀ two_ne_zero _
  calc |value - nearest bits value| * 2 ^ bits ≤ spacing bits value / 2 * 2 ^ bits :=
        mul_le_mul_of_nonneg_right (nearest_error bits value) power.le
    _ = 2 ^ bits * spacing bits value / 2 := by ring
    _ = 2 ^ Int.log 2 value := by rw [pow_mul_spacing, next]; ring
    _ ≤ value := low

theorem roundEven_scaled_bounds {bits : ℕ} (positive : 0 < bits) {value : ℚ} (nonzero : 0 < value) :
    (2 : ℤ) ^ (bits - 1) ≤ roundEven (value / spacing bits value) ∧
      roundEven (value / spacing bits value) ≤ 2 ^ bits := by
  constructor
  · refine le_trans ?_ (floor_le_roundEven _)
    rw [Int.le_floor]
    exact_mod_cast le_scaled positive nonzero
  refine le_trans (roundEven_le _) ?_
  rw [Int.add_one_le_iff, Int.floor_lt]
  exact_mod_cast scaled_lt bits value

/-- The carry into the next power of two keeps a value representable. -/
theorem nearest_representable (positive : 0 < bits) (nonneg : 0 ≤ value) :
    Representable bits (nearest bits value) := by
  rcases nonneg.eq_or_lt with rfl | nonzero
  · exact ⟨0, 0, by positivity, by simp⟩
  obtain ⟨low, high⟩ := roundEven_scaled_bounds positive nonzero
  have power : (0 : ℤ) < 2 ^ (bits - 1) := by positivity
  obtain ⟨significand, isNatural⟩ := Int.eq_ofNat_of_zero_le (power.le.trans low)
  rw [nearest, isNatural]
  rcases high.eq_or_lt with carried | within
  · refine ⟨1, Int.log 2 value + 1, Nat.one_lt_two_pow positive.ne', ?_⟩
    have whole : ((significand : ℤ) : ℚ) = 2 ^ bits := by
      rw [← isNatural, carried]
      push_cast
      rfl
    rw [whole, pow_mul_spacing]
    simp
  refine ⟨significand, Int.log 2 value + 1 - bits, ?_, ?_⟩
  · rw [isNatural] at within
    exact_mod_cast within
  · rfl

theorem nearest_nonneg (bits : ℕ) (nonneg : 0 ≤ value) : 0 ≤ nearest bits value := by
  have unit := spacing_pos bits value
  have floor : 0 ≤ ⌊value / spacing bits value⌋ := Int.floor_nonneg.mpr (div_nonneg nonneg unit.le)
  have whole : (0 : ℚ) ≤ roundEven (value / spacing bits value) := by
    exact_mod_cast floor.trans (floor_le_roundEven _)
  exact mul_nonneg whole unit.le

variable {other : ℚ}

/-- A representable value is a multiple of the spacing around a value, or it
lies below the value's power of two. -/
theorem Representable.multiple_or_lt (representable : Representable bits other) (value : ℚ) :
    (∃ multiple : ℤ, other = multiple * spacing bits value) ∨ other < 2 ^ Int.log 2 value := by
  obtain ⟨significand, exponent, bounded, rfl⟩ := representable
  rcases Int.lt_or_le exponent (Int.log 2 value + 1 - bits) with lower | higher
  · right
    have power : (0 : ℚ) < 2 ^ exponent := zpow_pos two_pos _
    have bound : (significand : ℚ) < 2 ^ bits := by exact_mod_cast bounded
    calc (significand : ℚ) * 2 ^ exponent < 2 ^ bits * 2 ^ exponent :=
          mul_lt_mul_of_pos_right bound power
      _ = 2 ^ ((bits : ℤ) + exponent) := by rw [zpow_add₀ two_ne_zero, zpow_natCast]
      _ ≤ 2 ^ Int.log 2 value := zpow_le_zpow_right₀ one_le_two (by omega)
  left
  refine ⟨significand * 2 ^ (exponent - (Int.log 2 value + 1 - bits)).toNat, ?_⟩
  have split : (2 : ℚ) ^ exponent =
      2 ^ (exponent - (Int.log 2 value + 1 - bits)).toNat * spacing bits value := by
    rw [spacing, ← zpow_natCast, ← zpow_add₀ two_ne_zero]
    congr 1
    omega
  rw [split]
  push_cast
  ring

theorem abs_sub_nearest (bits : ℕ) (value : ℚ) (multiple : ℤ) :
    |value - multiple * spacing bits value| =
      |value / spacing bits value - multiple| * spacing bits value := by
  have unit := spacing_pos bits value
  have scaled : value - multiple * spacing bits value =
      (value / spacing bits value - multiple) * spacing bits value := by
    rw [sub_mul, div_mul_cancel₀ _ unit.ne']
  rw [scaled, abs_mul, abs_of_pos unit]

/-- The power of two below a value is nearer than everything below it. -/
theorem abs_sub_nearest_lt (positive : 0 < bits) (nonzero : 0 < value)
    (below : other < 2 ^ Int.log 2 value) : |value - nearest bits value| < |value - other| := by
  have low : (2 : ℚ) ^ Int.log 2 value ≤ value := by
    exact_mod_cast Int.zpow_log_le_self (b := 2) (by decide) nonzero
  have grid : ((2 ^ (bits - 1) : ℤ) : ℚ) * spacing bits value = 2 ^ Int.log 2 value := by
    push_cast
    exact low_mul_spacing positive value
  have near : |value - nearest bits value| ≤
      |value - ((2 ^ (bits - 1) : ℤ) : ℚ) * spacing bits value| := by
    rw [nearest, abs_sub_nearest, abs_sub_nearest]
    exact mul_le_mul_of_nonneg_right (abs_sub_roundEven_le_abs_sub _ _) (spacing_pos bits value).le
  have distance : |value - (2 : ℚ) ^ Int.log 2 value| = value - 2 ^ Int.log 2 value :=
    abs_of_nonneg (by linarith)
  have otherDistance : |value - other| = value - other := abs_of_nonneg (by linarith)
  rw [grid, distance] at near
  rw [otherDistance]
  linarith

theorem abs_sub_nearest_le (positive : 0 < bits) (nonneg : 0 ≤ value)
    (representable : Representable bits other) :
    |value - nearest bits value| ≤ |value - other| := by
  rcases nonneg.eq_or_lt with rfl | nonzero
  · simp
  rcases representable.multiple_or_lt value with ⟨multiple, rfl⟩ | below
  · rw [nearest, abs_sub_nearest, abs_sub_nearest]
    exact mul_le_mul_of_nonneg_right (abs_sub_roundEven_le_abs_sub _ _) (spacing_pos bits value).le
  · exact (abs_sub_nearest_lt positive nonzero below).le

/-- Of two representable values at the same distance the one with the even
significand is taken. -/
theorem even_significand_of_tie (positive : 0 < bits) (nonneg : 0 ≤ value)
    (representable : Representable bits other) (different : other ≠ nearest bits value)
    (tie : |value - other| = |value - nearest bits value|) :
    Even (roundEven (value / spacing bits value)) := by
  have nonzero : 0 < value := by
    refine nonneg.lt_of_ne ?_
    rintro rfl
    rw [nearest_zero, sub_self, abs_zero, zero_sub, abs_neg, abs_eq_zero] at tie
    exact different (tie.trans (nearest_zero bits).symm)
  rcases representable.multiple_or_lt value with ⟨multiple, rfl⟩ | below
  · have unit := spacing_pos bits value
    refine @even_roundEven_of_tie _ multiple ?_ ?_
    · rintro rfl
      exact different rfl
    rw [nearest, abs_sub_nearest, abs_sub_nearest] at tie
    exact mul_right_cancel₀ unit.ne' tie
  · exact absurd tie (abs_sub_nearest_lt positive nonzero below).ne'

/-- A representable value is its own nearest value. -/
theorem nearest_of_representable (positive : 0 < bits) (nonneg : 0 ≤ value)
    (representable : Representable bits value) : nearest bits value = value := by
  have near := abs_sub_nearest_le positive nonneg representable
  rw [sub_self, abs_zero] at near
  exact (sub_eq_zero.mp (abs_nonpos_iff.mp near)).symm

theorem log_eq_of_bounds {exponent : ℤ} (low : 2 ^ exponent ≤ value)
    (high : value < 2 ^ (exponent + 1)) : Int.log 2 value = exponent := by
  have positive : 0 < value := lt_of_lt_of_le (zpow_pos two_pos _) low
  have lower : exponent ≤ Int.log 2 value :=
    (Int.zpow_le_iff_le_log (b := 2) (by decide) positive).mp (by exact_mod_cast low)
  have upper : Int.log 2 value < exponent + 1 :=
    (Int.lt_zpow_iff_log_lt (b := 2) (by decide) positive).mp (by exact_mod_cast high)
  omega

theorem log_mul_zpow (positive : 0 < value) (exponent : ℤ) :
    Int.log 2 (value * 2 ^ exponent) = Int.log 2 value + exponent := by
  have power : (0 : ℚ) < 2 ^ exponent := zpow_pos two_pos _
  have low : (2 : ℚ) ^ Int.log 2 value ≤ value := by
    exact_mod_cast Int.zpow_log_le_self (b := 2) (by decide) positive
  have high : value < (2 : ℚ) ^ (Int.log 2 value + 1) := by
    exact_mod_cast Int.lt_zpow_succ_log_self (b := 2) (by decide) value
  refine log_eq_of_bounds ?_ ?_
  · rw [zpow_add₀ two_ne_zero]
    exact mul_le_mul_of_nonneg_right low power.le
  rw [add_right_comm, zpow_add₀ two_ne_zero]
  exact mul_lt_mul_of_pos_right high power

/-- Rounding commutes with scaling by a power of two. -/
theorem nearest_mul_zpow (bits : ℕ) (nonneg : 0 ≤ value) (exponent : ℤ) :
    nearest bits (value * 2 ^ exponent) = nearest bits value * 2 ^ exponent := by
  rcases nonneg.eq_or_lt with rfl | positive
  · simp
  have power : (2 : ℚ) ^ exponent ≠ 0 := (zpow_pos two_pos _).ne'
  have scaledSpacing : spacing bits (value * 2 ^ exponent) =
      spacing bits value * 2 ^ exponent := by
    rw [spacing, spacing, log_mul_zpow positive, ← zpow_add₀ two_ne_zero]
    congr 1
    omega
  rw [nearest, nearest, scaledSpacing, mul_div_mul_right _ _ power, mul_assoc]

end Significand
