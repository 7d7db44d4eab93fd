import Umber.Lib.Significand
import Umber.Page.Geometry

/-! Glue setting rounds as binary64 arithmetic does, within 128-bit integers, and
the rounded widths of a list add up without an accumulated error. -/

set_option autoImplicit false

open Significand

namespace Umber.Page

variable {value : ℕ}

theorem u128_ok (fits : value < 2 ^ 128) : u128 value = some value :=
  if_pos fits

def binaryValue (parts : ℕ × ℤ) : ℚ := parts.1 * (2 : ℚ) ^ parts.2

/-! ## The quotient -/

variable {d : ℕ}

theorem roundQuotientToEven_eq (n : ℕ) (positive : 0 < d) :
    (roundQuotientToEven n d : ℤ) = roundEven ((n : ℚ) / d) := by
  rw [roundEven_div n positive, roundQuotientToEven]
  by_cases above : d < n % d * 2
  · rw [if_pos above, if_neg (by omega)]
  by_cases tie : n % d * 2 = d ∧ n / d % 2 ≠ 0
  · rw [if_neg above, if_pos tie, if_neg (by omega)]
  · rw [if_neg above, if_neg tie, if_pos (by omega)]

variable {n : ℕ}

theorem roundQuotientToEvenU128_eq (numerator : n < 2 ^ 127) (denominator : d < 2 ^ 127)
    (positive : 0 < d) : roundQuotientToEvenU128 n d = some (roundQuotientToEven n d) := by
  have below : n % d < d := Nat.mod_lt n positive
  have quotient : n / d ≤ n := Nat.div_le_self n d
  rw [roundQuotientToEvenU128, roundQuotientToEven]
  rw [u128_ok (by omega), Option.bind_eq_bind, Option.bind_some, u128_ok (by omega)]
  split
  · rfl
  split
  · rfl
  · rfl

/-- The bounds of a logarithm as powers with integer exponents. -/
theorem log2_bounds (positive : 0 < n) :
    (2 : ℚ) ^ (Nat.log2 n : ℤ) ≤ n ∧ (n : ℚ) < 2 ^ ((Nat.log2 n : ℤ) + 1) := by
  constructor
  · rw [zpow_natCast]
    exact_mod_cast Nat.log2_self_le positive.ne'
  have above : n < 2 ^ (Nat.log2 n + 1) := Nat.lt_log2_self
  rw [show ((Nat.log2 n : ℤ) + 1) = ((Nat.log2 n + 1 : ℕ) : ℤ) from by push_cast; rfl, zpow_natCast]
  exact_mod_cast above

theorem shifted_lt_iff (positive : 0 < d) (exponent : ℤ) :
    (if 0 ≤ exponent then n < d <<< exponent.toNat else n <<< (-exponent).toNat < d) ↔
      (n : ℚ) / d < 2 ^ exponent := by
  have divisor : (0 : ℚ) < d := by exact_mod_cast positive
  rw [div_lt_iff₀ divisor]
  split
  · rename_i nonneg
    obtain ⟨amount, rfl⟩ := Int.eq_ofNat_of_zero_le nonneg
    rw [Int.toNat_natCast, Nat.shiftLeft_eq, zpow_natCast, mul_comm]
    exact_mod_cast Iff.rfl
  rename_i negative
  obtain ⟨amount, shape⟩ := Int.eq_ofNat_of_zero_le (show 0 ≤ -exponent by omega)
  have inverse : exponent = -(amount : ℤ) := by omega
  have power : (0 : ℚ) < 2 ^ amount := by positivity
  rw [inverse, neg_neg, Int.toNat_natCast, Nat.shiftLeft_eq, zpow_neg, zpow_natCast,
    inv_mul_eq_div, lt_div_iff₀ power]
  exact_mod_cast Iff.rfl

theorem floorLog2Ratio_eq (numerator : 0 < n) (denominator : 0 < d) :
    floorLog2Ratio n d = Int.log 2 ((n : ℚ) / d) := by
  have divisor : (0 : ℚ) < d := by exact_mod_cast denominator
  obtain ⟨nLow, nHigh⟩ := log2_bounds numerator
  obtain ⟨dLow, dHigh⟩ := log2_bounds denominator
  have power : ∀ exponent : ℤ, (0 : ℚ) < 2 ^ exponent := fun exponent => zpow_pos two_pos _
  have low : (2 : ℚ) ^ ((Nat.log2 n : ℤ) - Nat.log2 d - 1) ≤ n / d := by
    rw [le_div_iff₀ divisor]
    calc (2 : ℚ) ^ ((Nat.log2 n : ℤ) - Nat.log2 d - 1) * d ≤
          2 ^ ((Nat.log2 n : ℤ) - Nat.log2 d - 1) * 2 ^ ((Nat.log2 d : ℤ) + 1) :=
          mul_le_mul_of_nonneg_left dHigh.le (power _).le
      _ = 2 ^ (Nat.log2 n : ℤ) := by
          rw [← zpow_add₀ two_ne_zero]
          congr 1
          omega
      _ ≤ n := nLow
  have high : (n : ℚ) / d < 2 ^ ((Nat.log2 n : ℤ) - Nat.log2 d + 1) := by
    rw [div_lt_iff₀ divisor]
    calc (n : ℚ) < 2 ^ ((Nat.log2 n : ℤ) + 1) := nHigh
      _ = 2 ^ ((Nat.log2 n : ℤ) - Nat.log2 d + 1) * 2 ^ (Nat.log2 d : ℤ) := by
          rw [← zpow_add₀ two_ne_zero]
          congr 1
          omega
      _ ≤ 2 ^ ((Nat.log2 n : ℤ) - Nat.log2 d + 1) * d :=
          mul_le_mul_of_nonneg_left dLow (power _).le
  have test := shifted_lt_iff (n := n) denominator ((Nat.log2 n : ℤ) - Nat.log2 d)
  rw [floorLog2Ratio]
  by_cases below : (n : ℚ) / d < 2 ^ ((Nat.log2 n : ℤ) - Nat.log2 d)
  · refine (if_pos (test.mpr below)).trans (log_eq_of_bounds low ?_).symm
    rw [sub_add_cancel]
    exact below
  exact (if_neg (fun lower => below (test.mp lower))).trans
    (log_eq_of_bounds (le_of_not_gt below) high).symm

structure RatioParts (n d : ℕ) : Prop where
  numerator : 0 < n
  denominator : 0 < d
  numeratorSmall : n < 2 ^ 31
  denominatorSmall : d < 2 ^ 31

theorem RatioParts.log_bounds (parts : RatioParts n d) :
    -31 ≤ Int.log 2 ((n : ℚ) / d) ∧ Int.log 2 ((n : ℚ) / d) ≤ 30 := by
  have divisor : (0 : ℚ) < d := by exact_mod_cast parts.denominator
  have one : (1 : ℚ) ≤ n := by exact_mod_cast parts.numerator
  have oneBelow : (1 : ℚ) ≤ d := by exact_mod_cast parts.denominator
  have nSmall : (n : ℚ) < 2147483648 := by exact_mod_cast parts.numeratorSmall
  have dSmall : (d : ℚ) < 2147483648 := by exact_mod_cast parts.denominatorSmall
  have positive : (0 : ℚ) < n / d := by positivity
  constructor
  · refine (Int.zpow_le_iff_le_log (b := 2) (by decide) positive).mp ?_
    rw [le_div_iff₀ divisor]
    norm_num
    linarith
  refine Int.lt_add_one_iff.mp ((Int.lt_zpow_iff_log_lt (b := 2) (by decide) positive).mp ?_)
  rw [div_lt_iff₀ divisor]
  norm_num
  linarith

theorem shiftLeft_natCast (value amount : ℕ) :
    ((value <<< amount : ℕ) : ℚ) = value * 2 ^ (amount : ℤ) := by
  rw [Nat.shiftLeft_eq, zpow_natCast]
  push_cast
  rfl

/-- The quotient of the shifted numerator is the numerator in units of the spacing. -/
theorem shifted_quotient {shift : ℤ} (nonneg : 0 ≤ shift)
    (unit : shift = 52 - Int.log 2 ((n : ℚ) / d)) :
    ((n <<< shift.toNat : ℕ) : ℚ) / d = (n : ℚ) / d / spacing 53 ((n : ℚ) / d) := by
  have amount : ((shift.toNat : ℕ) : ℤ) = shift := Int.toNat_of_nonneg nonneg
  have inverse : spacing 53 ((n : ℚ) / d) = (2 ^ shift)⁻¹ := by
    rw [spacing, ← zpow_neg]
    congr 1
    rw [unit]
    push_cast
    ring
  rw [shiftLeft_natCast, amount, inverse, div_inv_eq_mul]
  ring

/-- A significand that has grown by a bit, with the exponent adjusted. -/
theorem carried_value (exponent : ℤ) :
    binaryValue (1 <<< 53 >>> 1, exponent + 1) = ((1 <<< 53 : ℕ) : ℚ) * 2 ^ exponent := by
  have half : 1 <<< 53 >>> 1 = 4503599627370496 := rfl
  have whole : 1 <<< 53 = 9007199254740992 := rfl
  rw [binaryValue, half, whole, zpow_add_one₀ two_ne_zero]
  push_cast
  ring

/-- The binary64 quotient is the nearest value, with a significand and an
exponent in the range of the multiplication. -/
theorem binary64Ratio_nearest (parts : RatioParts n d) :
    binaryValue (binary64Ratio n d) = nearest 53 ((n : ℚ) / d) ∧
      (binary64Ratio n d).1 < 2 ^ 53 ∧ -83 ≤ (binary64Ratio n d).2 ∧
      (binary64Ratio n d).2 ≤ -21 := by
  obtain ⟨low, high⟩ := parts.log_bounds
  have divisor : (0 : ℚ) < d := by exact_mod_cast parts.denominator
  have numerator : (0 : ℚ) < n := by exact_mod_cast parts.numerator
  have positive : (0 : ℚ) < n / d := by positivity
  have nonneg : 0 ≤ 52 - Int.log 2 ((n : ℚ) / d) := by omega
  have rounded := roundQuotientToEven_eq (n <<< (52 - Int.log 2 ((n : ℚ) / d)).toNat)
    parts.denominator
  rw [shifted_quotient nonneg rfl] at rounded
  obtain ⟨-, upper⟩ := @roundEven_scaled_bounds 53 (by decide) _ positive
  rw [← rounded] at upper
  have unit : spacing 53 ((n : ℚ) / d) = 2 ^ (Int.log 2 ((n : ℚ) / d) - 52) := by
    rw [spacing]
    congr 1
    push_cast
    ring
  have value : nearest 53 ((n : ℚ) / d) =
      (roundQuotientToEven (n <<< (52 - Int.log 2 ((n : ℚ) / d)).toNat) d : ℕ) *
        2 ^ (Int.log 2 ((n : ℚ) / d) - 52) := by
    rw [nearest, ← rounded, unit]
    rfl
  rw [binary64Ratio, if_neg parts.numerator.ne', floorLog2Ratio_eq parts.numerator
    parts.denominator]
  dsimp only
  rw [if_pos nonneg, value]
  generalize roundQuotientToEven (n <<< (52 - Int.log 2 ((n : ℚ) / d)).toNat) d = significand
    at upper
  have limit : significand ≤ 2 ^ 53 := by exact_mod_cast upper
  by_cases carried : significand = 1 <<< 53
  · subst carried
    rw [if_pos rfl]
    dsimp only
    refine ⟨?_, by decide, by omega, by omega⟩
    rw [← carried_value]
    congr 2
    ring
  rw [if_neg carried]
  have below : significand < 2 ^ 53 := lt_of_le_of_ne limit carried
  exact ⟨rfl, below, by dsimp only; omega, by dsimp only; omega⟩

theorem shiftLeft_lt {value amount bits limit : ℕ} (small : value < 2 ^ bits)
    (bounded : bits + amount ≤ limit) : value <<< amount < 2 ^ limit := by
  rw [Nat.shiftLeft_eq]
  calc value * 2 ^ amount < 2 ^ bits * 2 ^ amount :=
        Nat.mul_lt_mul_of_pos_right small (Nat.two_pow_pos amount)
    _ = 2 ^ (bits + amount) := (Nat.pow_add 2 bits amount).symm
    _ ≤ 2 ^ limit := Nat.pow_le_pow_right (by decide) bounded

theorem floorLog2RatioU128_eq (parts : RatioParts n d) :
    floorLog2RatioU128 n d = some (floorLog2Ratio n d) := by
  have nLog : Nat.log2 n < 31 := (Nat.log2_lt parts.numerator.ne').mpr parts.numeratorSmall
  have dLog : Nat.log2 d < 31 := (Nat.log2_lt parts.denominator.ne').mpr parts.denominatorSmall
  rw [floorLog2RatioU128, floorLog2Ratio]
  by_cases nonneg : (0 : ℤ) ≤ (Nat.log2 n : ℤ) - Nat.log2 d
  · have fits : d <<< ((Nat.log2 n : ℤ) - Nat.log2 d).toNat < 2 ^ 128 :=
      shiftLeft_lt parts.denominatorSmall (by omega)
    simp only [nonneg, if_true, u128_ok fits, Option.bind_eq_bind, Option.bind_some]
  have fits : n <<< (-((Nat.log2 n : ℤ) - Nat.log2 d)).toNat < 2 ^ 128 :=
    shiftLeft_lt parts.numeratorSmall (by omega)
  simp only [nonneg, if_false, u128_ok fits, Option.bind_eq_bind, Option.bind_some]

theorem binary64RatioU128_eq (parts : RatioParts n d) :
    binary64RatioU128 n d = some (binary64Ratio n d) := by
  obtain ⟨low, high⟩ := parts.log_bounds
  rw [← floorLog2Ratio_eq parts.numerator parts.denominator] at low high
  have nonneg : 0 ≤ 52 - floorLog2Ratio n d := by omega
  have fits : n <<< (52 - floorLog2Ratio n d).toNat < 2 ^ 127 :=
    shiftLeft_lt parts.numeratorSmall (by omega)
  have fitsWide : n <<< (52 - floorLog2Ratio n d).toNat < 2 ^ 128 := by omega
  have denominator : d < 2 ^ 127 := lt_trans parts.denominatorSmall (by decide)
  rw [binary64RatioU128, binary64Ratio, if_neg parts.numerator.ne', if_neg parts.numerator.ne',
    floorLog2RatioU128_eq parts]
  simp only [nonneg, if_true, u128_ok fitsWide, Option.bind_eq_bind, Option.bind_some,
    roundQuotientToEvenU128_eq fits denominator parts.denominator]

/-! ## The product -/

variable {shift : ℕ}

theorem roundPowerOfTwoToEven_eq (positive : 0 < shift) :
    roundPowerOfTwoToEven value shift = roundQuotientToEven value (2 ^ shift) := by
  obtain ⟨half, rfl⟩ := Nat.exists_eq_add_of_lt positive
  have power : 2 ^ (0 + half + 1) = 2 ^ half * 2 := by rw [Nat.pow_succ, Nat.zero_add]
  rw [roundPowerOfTwoToEven, roundQuotientToEven]
  simp only [Nat.shiftRight_eq_div_pow, Nat.shiftLeft_eq, Nat.one_mul, Nat.add_sub_cancel,
    Nat.zero_add] at power ⊢
  generalize value % 2 ^ (half + 1) = remainder
  generalize value / 2 ^ (half + 1) = quotient
  rw [power]
  by_cases above : 2 ^ half < remainder
  · rw [if_pos (Or.inl above), if_pos (by omega)]
  rw [if_neg (by omega : ¬2 ^ half * 2 < remainder * 2)]
  by_cases tie : remainder = 2 ^ half ∧ quotient % 2 ≠ 0
  · rw [if_pos (Or.inr tie), if_pos ⟨by omega, tie.2⟩]
  · rw [if_neg (by omega), if_neg (by omega)]

theorem one_shiftLeft_lt {amount limit : ℕ} (bounded : amount < limit) :
    1 <<< amount < 2 ^ limit := by
  rw [Nat.one_shiftLeft]
  exact Nat.pow_lt_pow_right (by decide) bounded

theorem roundPowerOfTwoToEvenU128_eq (small : value < 2 ^ 127) (bounded : shift < 128) :
    roundPowerOfTwoToEvenU128 value shift = some (roundPowerOfTwoToEven value shift) := by
  have modulus : 1 <<< shift < 2 ^ 128 := one_shiftLeft_lt bounded
  have halfway : 1 <<< (shift - 1) < 2 ^ 128 := one_shiftLeft_lt (by omega)
  have quotient : value >>> shift ≤ value := by
    rw [Nat.shiftRight_eq_div_pow]
    exact Nat.div_le_self _ _
  have next : value >>> shift + 1 < 2 ^ 128 := by omega
  rw [roundPowerOfTwoToEvenU128, roundPowerOfTwoToEven]
  simp only [u128_ok modulus, u128_ok halfway, u128_ok next, Option.bind_eq_bind, Option.bind_some]
  split
  · rfl
  · rfl

theorem log_natCast_eq (value : ℕ) : Int.log 2 (value : ℚ) = Nat.log2 value := by
  rw [Int.log_natCast, Nat.log2_eq_log_two]

theorem nearest_natCast {value shift : ℕ} (long : shift = Nat.log2 value + 1 - 53)
    (positive : 0 < shift) :
    nearest 53 (value : ℚ) = (roundPowerOfTwoToEven value shift : ℕ) * 2 ^ (shift : ℤ) := by
  have unit : spacing 53 (value : ℚ) = 2 ^ (shift : ℤ) := by
    rw [spacing, log_natCast_eq]
    congr 1
    push_cast
    omega
  have rounded := roundQuotientToEven_eq value (Nat.two_pow_pos shift)
  have power : ((2 ^ shift : ℕ) : ℚ) = 2 ^ (shift : ℤ) := by
    rw [zpow_natCast]
    push_cast
    rfl
  rw [← roundPowerOfTwoToEven_eq positive, power] at rounded
  rw [nearest, unit, ← rounded]
  rfl

theorem roundPowerOfTwoToEven_le {value shift : ℕ} (long : shift = Nat.log2 value + 1 - 53)
    (positive : 0 < shift) : roundPowerOfTwoToEven value shift ≤ 2 ^ 53 := by
  have nonzero : (0 : ℚ) < value := by
    rcases Nat.eq_zero_or_pos value with rfl | above
    · rw [Nat.log2_zero] at long
      omega
    · exact_mod_cast above
  have unit : spacing 53 (value : ℚ) = ((2 ^ shift : ℕ) : ℚ) := by
    have power : ((2 ^ shift : ℕ) : ℚ) = 2 ^ (shift : ℤ) := by
      rw [zpow_natCast]
      push_cast
      rfl
    rw [power, spacing, log_natCast_eq]
    congr 1
    push_cast
    omega
  obtain ⟨-, upper⟩ := @roundEven_scaled_bounds 53 (by decide) _ nonzero
  rw [unit, ← roundQuotientToEven_eq value (Nat.two_pow_pos shift),
    ← roundPowerOfTwoToEven_eq positive] at upper
  exact_mod_cast upper

/-- A significand, an exponent and a multiplier in the range of the products
that glue setting forms. -/
structure ProductParts (significand : ℕ) (exponent : ℤ) (multiplier : ℕ) : Prop where
  significandSmall : significand < 2 ^ 53
  exponentLow : -83 ≤ exponent
  exponentHigh : exponent ≤ -21
  multiplierSmall : multiplier ≤ 2 ^ 31

variable {significand multiplier : ℕ} {exponent : ℤ}

section

variable (parts : ProductParts significand exponent multiplier)
include parts

theorem ProductParts.product_lt : significand * multiplier < 2 ^ 84 := by
  calc significand * multiplier ≤ significand * 2 ^ 31 :=
        Nat.mul_le_mul_left _ parts.multiplierSmall
    _ < 2 ^ 53 * 2 ^ 31 :=
        Nat.mul_lt_mul_of_pos_right parts.significandSmall (by decide)
    _ = 2 ^ 84 := by rw [← Nat.pow_add]

theorem binary64MultiplyInteger_nearest :
    binaryValue (binary64MultiplyInteger significand exponent multiplier) =
        nearest 53 (binaryValue (significand, exponent) * multiplier) ∧
      (binary64MultiplyInteger significand exponent multiplier).1 < 2 ^ 53 ∧
      -83 ≤ (binary64MultiplyInteger significand exponent multiplier).2 ∧
      (binary64MultiplyInteger significand exponent multiplier).2 ≤ 12 := by
  have small := parts.product_lt
  have low := parts.exponentLow
  have high := parts.exponentHigh
  have value : binaryValue (significand, exponent) * multiplier =
      ((significand * multiplier : ℕ) : ℚ) * 2 ^ exponent := by
    rw [binaryValue]
    push_cast
    ring
  have nonneg : (0 : ℚ) ≤ ((significand * multiplier : ℕ) : ℚ) := Nat.cast_nonneg _
  rw [value, nearest_mul_zpow 53 nonneg, binary64MultiplyInteger]
  generalize significand * multiplier = product at small
  dsimp only
  by_cases zero : product = 0
  · subst zero
    rw [if_pos rfl]
    simp [binaryValue]
  by_cases short : Nat.log2 product + 1 ≤ 53
  · have below : product < 2 ^ 53 := (Nat.log2_lt zero).mp (by omega)
    have exact : nearest 53 (product : ℚ) = product :=
      nearest_of_representable (by decide) (Nat.cast_nonneg _)
        ⟨product, 0, below, by simp⟩
    rw [if_neg zero, if_pos short, exact]
    exact ⟨rfl, below, by dsimp only; omega, by dsimp only; omega⟩
  have length : Nat.log2 product < 84 := (Nat.log2_lt zero).mpr small
  have limit := @roundPowerOfTwoToEven_le product _ rfl (by omega)
  rw [if_neg zero, if_neg short, @nearest_natCast product _ rfl (by omega)]
  generalize roundPowerOfTwoToEven product (Nat.log2 product + 1 - 53) = rounded at limit
  have join : (rounded : ℚ) * 2 ^ ((Nat.log2 product + 1 - 53 : ℕ) : ℤ) * 2 ^ exponent =
      rounded * 2 ^ (exponent + (Nat.log2 product + 1 - 53 : ℕ)) := by
    rw [mul_assoc, ← zpow_add₀ two_ne_zero, add_comm]
  rw [join]
  by_cases carried : rounded = 1 <<< 53
  · subst carried
    rw [if_pos rfl]
    dsimp only
    exact ⟨carried_value _, by decide, by omega, by omega⟩
  rw [if_neg carried]
  have below : rounded < 2 ^ 53 := lt_of_le_of_ne limit carried
  exact ⟨rfl, below, by dsimp only; omega, by dsimp only; omega⟩

theorem binary64MultiplyIntegerU128_eq :
    binary64MultiplyIntegerU128 significand exponent multiplier =
      some (binary64MultiplyInteger significand exponent multiplier) := by
  have small := parts.product_lt
  have fits : significand * multiplier < 2 ^ 128 := lt_trans small (by decide)
  rw [binary64MultiplyIntegerU128, binary64MultiplyInteger, u128_ok fits]
  simp only [Option.bind_eq_bind, Option.bind_some]
  by_cases zero : significand * multiplier = 0
  · rw [if_pos zero, if_pos zero]
  by_cases short : Nat.log2 (significand * multiplier) + 1 ≤ 53
  · rw [if_neg zero, if_pos short, if_neg zero, if_pos short]
  have length : Nat.log2 (significand * multiplier) < 84 := (Nat.log2_lt zero).mpr small
  rw [if_neg zero, if_neg short, if_neg zero, if_neg short,
    roundPowerOfTwoToEvenU128_eq (lt_trans small (by decide)) (by omega), Option.bind_some]

end

/-! ## The rounded product -/

/-- Half-up rounding of a quotient by an even divisor. -/
theorem half_up_div (value half : ℕ) (positive : 0 < half) : (value + half) / (half * 2) =
      value / (half * 2) + if half ≤ value % (half * 2) then 1 else 0 := by
  have below : value % (half * 2) < half * 2 := Nat.mod_lt _ (by omega)
  have split : value + half =
      half * 2 * (value / (half * 2)) + (value % (half * 2) + half) := by
    rw [← Nat.add_assoc, Nat.div_add_mod]
  rw [split, Nat.mul_add_div (by omega)]
  congr 1
  split
  · exact Nat.div_eq_of_lt_le (by omega) (by omega)
  · exact Nat.div_eq_of_lt (by omega)

theorem floor_half_up (value half : ℕ) (positive : 0 < half) :
    ⌊(value : ℚ) / (half * 2 : ℕ) + 1 / 2⌋ = (((value + half) / (half * 2) : ℕ) : ℤ) := by
  have divisor : (half : ℚ) ≠ 0 := by exact_mod_cast positive.ne'
  have shape : (value : ℚ) / (half * 2 : ℕ) + 1 / 2 =
      ((value + half : ℕ) : ℚ) / ((half * 2 : ℕ) : ℚ) := by
    push_cast
    field_simp
  rw [shape]
  exact Rat.floor_natCast_div_natCast _ _

/-- The product rounded half away from zero, and at most a billion. -/
theorem roundBinaryProduct_eq (significand : ℕ) (exponent : ℤ) :
    (roundBinaryProduct significand exponent : ℤ) =
      min ⌊binaryValue (significand, exponent) + 1 / 2⌋ 1000000000 := by
  rw [roundBinaryProduct, binaryValue]
  by_cases zero : significand = 0
  · subst zero
    norm_num
  by_cases nonneg : 0 ≤ exponent
  · obtain ⟨amount, rfl⟩ := Int.eq_ofNat_of_zero_le nonneg
    have whole : ⌊(significand : ℚ) * 2 ^ (amount : ℤ) + 1 / 2⌋ =
        ((significand <<< amount : ℕ) : ℤ) := by
      rw [← shiftLeft_natCast, Int.floor_natCast_add]
      norm_num
    rw [if_neg zero, if_pos nonneg, whole, Int.toNat_natCast]
    push_cast
    rfl
  obtain ⟨amount, shape⟩ := Int.eq_ofNat_of_zero_le (show 0 ≤ -exponent by omega)
  obtain ⟨half, rfl⟩ := Nat.exists_eq_add_of_lt (show 0 < amount by omega)
  have inverse : exponent = -((half + 1 : ℕ) : ℤ) := by omega
  have power : 2 ^ (half + 1) = 2 ^ half * 2 := Nat.pow_succ 2 half
  have quotient : (significand : ℚ) * 2 ^ exponent =
      (significand : ℚ) / ((2 ^ half * 2 : ℕ) : ℚ) := by
    rw [inverse, zpow_neg, zpow_natCast, ← power]
    push_cast
    rw [div_eq_mul_inv]
  have positive := Nat.two_pow_pos half
  rw [if_neg zero, if_neg nonneg, quotient, floor_half_up _ _ positive,
    half_up_div _ _ positive, inverse, neg_neg, Int.toNat_natCast]
  simp only [Nat.shiftLeft_eq, Nat.shiftRight_eq_div_pow, Nat.add_sub_cancel, Nat.one_mul, power]
  by_cases large : billion * (2 ^ half * 2) ≤ significand
  · have least : billion ≤ significand / (2 ^ half * 2) :=
      (Nat.le_div_iff_mul_le (by omega)).mpr large
    unfold billion at least
    rw [if_pos large, min_eq_right (by omega)]
    rfl
  have below : significand / (2 ^ half * 2) < billion :=
    (Nat.div_lt_iff_lt_mul (by omega)).mpr (by omega)
  unfold billion at below
  rw [if_neg large, min_eq_left (by split <;> omega)]

theorem roundBinaryProductU128_eq (small : significand < 2 ^ 53) (low : -83 ≤ exponent)
    (high : exponent ≤ 12) : roundBinaryProductU128 significand exponent =
      some (roundBinaryProduct significand exponent) := by
  rw [roundBinaryProductU128, roundBinaryProduct]
  by_cases zero : significand = 0
  · rw [if_pos zero, if_pos zero]
  by_cases nonneg : 0 ≤ exponent
  · have fits : significand <<< exponent.toNat < 2 ^ 128 := shiftLeft_lt small (by omega)
    rw [if_neg zero, if_neg zero, if_pos nonneg, if_pos nonneg, u128_ok fits]
    rfl
  have limit : billion <<< (-exponent).toNat < 2 ^ 128 :=
    @shiftLeft_lt billion _ 30 128 (by decide) (by omega)
  have modulus : 1 <<< (-exponent).toNat < 2 ^ 128 := one_shiftLeft_lt (by omega)
  have halfway : 1 <<< ((-exponent).toNat - 1) < 2 ^ 128 := one_shiftLeft_lt (by omega)
  have quotient : significand >>> (-exponent).toNat ≤ significand := by
    rw [Nat.shiftRight_eq_div_pow]
    exact Nat.div_le_self _ _
  rw [if_neg zero, if_neg zero, if_neg nonneg, if_neg nonneg]
  simp only [Option.bind_eq_bind, Option.bind_some, u128_ok limit, u128_ok modulus, u128_ok halfway]
  split
  · rfl
  · exact u128_ok (by split <;> omega)

/-! ## The setting of a running total -/

theorem GlueSetRatio.parts (glueSet : GlueSetRatio) (nonzero : glueSet.numerator.toInt ≠ 0) :
    RatioParts glueSet.numerator.toInt.natAbs glueSet.denominator.toInt.natAbs where
  numerator := Int.natAbs_pos.mpr nonzero
  denominator := Int.natAbs_pos.mpr glueSet.positive.ne'
  numeratorSmall := by
    have low := glueSet.representable
    have high := glueSet.numerator.toInt_lt
    omega
  denominatorSmall := by
    have low := glueSet.positive
    have high := glueSet.denominator.toInt_lt
    omega

theorem natAbs_toInt_le (value : Int32) : value.toInt.natAbs ≤ 2 ^ 31 := by
  have low := value.le_toInt
  have high := value.toInt_lt
  omega

theorem RatioParts.product (parts : RatioParts n d) (curGlue : Scaled) :
    ProductParts (binary64Ratio n d).1 (binary64Ratio n d).2 curGlue.toInt.natAbs := by
  obtain ⟨-, small, low, high⟩ := binary64Ratio_nearest parts
  exact ⟨small, low, high, natAbs_toInt_le curGlue⟩

/-- The product of a ratio and a total as two binary64 operations leave it. -/
def binary64Product (glueSet : GlueSetRatio) (curGlue : Scaled) : ℚ :=
  nearest 53 (nearest 53 ((glueSet.numerator.toInt.natAbs : ℚ) / glueSet.denominator.toInt.natAbs) *
    curGlue.toInt.natAbs)

/-- The magnitude of a set total: the product rounded half away from zero. -/
def settingMagnitude (glueSet : GlueSetRatio) (curGlue : Scaled) : ℤ :=
  min ⌊binary64Product glueSet curGlue + 1 / 2⌋ 1000000000

theorem roundedGlueSet_magnitude (glueSet : GlueSetRatio) (curGlue : Scaled) :
    ((min (roundBinaryProduct (binary64MultiplyInteger
          (binary64Ratio glueSet.numerator.toInt.natAbs glueSet.denominator.toInt.natAbs).1
          (binary64Ratio glueSet.numerator.toInt.natAbs glueSet.denominator.toInt.natAbs).2
          curGlue.toInt.natAbs).1 (binary64MultiplyInteger
          (binary64Ratio glueSet.numerator.toInt.natAbs glueSet.denominator.toInt.natAbs).1
          (binary64Ratio glueSet.numerator.toInt.natAbs glueSet.denominator.toInt.natAbs).2
          curGlue.toInt.natAbs).2) billion : ℕ) : ℤ) = settingMagnitude glueSet curGlue := by
  have limit : ((billion : ℕ) : ℤ) = 1000000000 := rfl
  rw [Nat.cast_min, roundBinaryProduct_eq, limit, min_assoc, min_self, settingMagnitude,
    binary64Product]
  by_cases zero : glueSet.numerator.toInt = 0
  · rw [zero]
    simp [binary64Ratio, binary64MultiplyInteger, binaryValue]
  have parts := glueSet.parts zero
  obtain ⟨product, -, -, -⟩ := binary64MultiplyInteger_nearest (parts.product curGlue)
  obtain ⟨ratio, -, -, -⟩ := binary64Ratio_nearest parts
  rw [← ratio]
  exact congrArg (fun value => min ⌊value + 1 / 2⌋ 1000000000) product

theorem binary64Product_nonneg (glueSet : GlueSetRatio) (curGlue : Scaled) :
    0 ≤ binary64Product glueSet curGlue :=
  nearest_nonneg 53 (mul_nonneg (nearest_nonneg 53 (by positivity)) (Nat.cast_nonneg _))

theorem settingMagnitude_bounds (glueSet : GlueSetRatio) (curGlue : Scaled) :
    0 ≤ settingMagnitude glueSet curGlue ∧ settingMagnitude glueSet curGlue ≤ 1000000000 := by
  have nonneg := binary64Product_nonneg glueSet curGlue
  refine ⟨le_min (Int.floor_nonneg.mpr (by linarith)) (by decide), min_le_right _ _⟩

variable {glueSet : GlueSetRatio}

theorem settingMagnitude_zero {curGlue : Scaled}
    (zero : glueSet.numerator.toInt * curGlue.toInt = 0) :
    settingMagnitude glueSet curGlue = 0 := by
  have product : binary64Product glueSet curGlue = 0 := by
    rw [binary64Product]
    rcases mul_eq_zero.mp zero with ratio | total
    · rw [ratio]
      simp
    rw [total]
    simp
  rw [settingMagnitude, product]
  norm_num

theorem toInt_roundedGlueSet (glueSet : GlueSetRatio) (curGlue : Scaled) :
    (roundedGlueSet glueSet curGlue).toInt =
      (glueSet.numerator.toInt * curGlue.toInt).sign * settingMagnitude glueSet curGlue := by
  obtain ⟨low, high⟩ := settingMagnitude_bounds glueSet curGlue
  have fits : ∀ value : ℤ, -1000000000 ≤ value → value ≤ 1000000000 →
      (Int32.ofInt value).toInt = value :=
    fun value lower upper => Int32.toInt_ofInt_of_le (by omega) (by omega)
  rw [roundedGlueSet, roundedGlueSet_magnitude]
  rcases lt_trichotomy (glueSet.numerator.toInt * curGlue.toInt) 0 with negative | zero | positive
  · have signs : (decide (glueSet.numerator.toInt < 0) != decide (curGlue.toInt < 0)) = true := by
      rcases mul_neg_iff.mp negative with ⟨above, below⟩ | ⟨below, above⟩
      · rw [decide_eq_false (by omega), decide_eq_true below]
        rfl
      rw [decide_eq_true below, decide_eq_false (by omega)]
      rfl
    rw [if_pos signs, fits _ (by omega) (by omega), Int.sign_eq_neg_one_of_neg negative]
    ring
  · rw [settingMagnitude_zero zero, mul_zero]
    split <;> rfl
  have signs : ¬(decide (glueSet.numerator.toInt < 0) != decide (curGlue.toInt < 0)) = true := by
    rcases mul_pos_iff.mp positive with ⟨left, right⟩ | ⟨left, right⟩
    · rw [decide_eq_false (by omega), decide_eq_false (by omega)]
      decide
    rw [decide_eq_true left, decide_eq_true right]
    decide
  rw [if_neg signs, fits _ (by omega) (by omega), Int.sign_eq_one_of_pos positive, one_mul]

theorem roundedGlueSetU128_eq (glueSet : GlueSetRatio) (curGlue : Scaled) :
    roundedGlueSetU128 glueSet curGlue = some (roundedGlueSet glueSet curGlue) := by
  rw [roundedGlueSetU128, roundedGlueSet]
  by_cases zero : glueSet.numerator.toInt = 0
  · rw [zero]
    simp [binary64RatioU128, binary64MultiplyIntegerU128, roundBinaryProductU128, binary64Ratio,
      binary64MultiplyInteger, roundBinaryProduct, u128]
  have parts := glueSet.parts zero
  obtain ⟨-, small, low, high⟩ := binary64MultiplyInteger_nearest (parts.product curGlue)
  simp only [binary64RatioU128_eq parts, Option.bind_eq_bind, Option.bind_some,
    binary64MultiplyIntegerU128_eq (parts.product curGlue),
    roundBinaryProductU128_eq small low high]

/-! ## The widths of a list -/

/-- The widths of the glue nodes of a list, with the totals behind the last one;
`none` when the arithmetic of a node overflows. -/
def adjustedGlueWidths (gSign : GlueSign) (gOrder : GlueOrder) (glueSet : GlueSetRatio) :
    GlueTotals → List GlueSpec → Option (List Scaled × GlueTotals)
  | totals, [] => some ([], totals)
  | totals, spec :: specs => do
    let first ← adjustedGlueWidth spec gSign gOrder glueSet totals
    let rest ← adjustedGlueWidths gSign gOrder glueSet first.2 specs
    some (first.1 :: rest.1, rest.2)

def setAmount (gSign : GlueSign) (gOrder : GlueOrder) (spec : GlueSpec) : ℤ :=
  if gSign = .stretching ∧ spec.stretchOrder = gOrder then spec.stretch.toInt
  else if gSign = .shrinking ∧ spec.shrinkOrder = gOrder then -spec.shrink.toInt
  else 0

def GlueTotals.Rounded (glueSet : GlueSetRatio) (totals : GlueTotals) : Prop :=
  totals.curG = roundedGlueSet glueSet totals.curGlue

theorem GlueTotals.rounded_zero (glueSet : GlueSetRatio) : GlueTotals.zero.Rounded glueSet := by
  refine Int32.toInt_inj.mp ?_
  rw [toInt_roundedGlueSet]
  simp [GlueTotals.zero]

theorem toInt_of_scaledOfInt {value : ℤ} {result : Scaled}
    (computed : scaledOfInt value = some result) : result.toInt = value := by
  rw [scaledOfInt] at computed
  split at computed
  · rename_i fits
    cases computed
    exact Int32.toInt_ofInt_of_le fits.1 (by omega)
  · cases computed

variable {totals : GlueTotals} {result : Scaled × GlueTotals}

theorem width_of_totals {base : Scaled} (computed : ((some totals).bind fun totals =>
      (base.checkedAdd totals.curG).bind fun width => some (width, totals)) = some result) :
    result.2 = totals ∧ result.1.toInt = base.toInt + totals.curG.toInt := by
  simp only [Option.bind_some, Option.bind_eq_some_iff, Option.some.injEq] at computed
  obtain ⟨width, added, rfl⟩ := computed
  exact ⟨rfl, toInt_of_scaledOfInt added⟩

variable {gSign : GlueSign} {gOrder : GlueOrder}

/-- One node: its width is its natural width and the change of the running glue. -/
theorem adjustedGlueWidth_step {spec : GlueSpec}
    (computed : adjustedGlueWidth spec gSign gOrder glueSet totals = some result)
    (rounded : totals.Rounded glueSet) :
    result.1.toInt = spec.width.toInt + result.2.curG.toInt - totals.curG.toInt ∧
      result.2.curGlue.toInt = totals.curGlue.toInt + setAmount gSign gOrder spec ∧
      result.2.Rounded glueSet := by
  rw [adjustedGlueWidth] at computed
  simp only [Option.bind_eq_bind, Option.bind_eq_some_iff] at computed
  obtain ⟨base, based, computed⟩ := computed
  have natural := toInt_of_scaledOfInt based
  unfold setAmount
  by_cases stretching : gSign = .stretching ∧ spec.stretchOrder = gOrder
  · rw [if_pos stretching] at computed ⊢
    obtain ⟨curGlue, added, computed⟩ := Option.bind_eq_some_iff.mp computed
    obtain ⟨next, width⟩ := width_of_totals computed
    rw [next, width, natural]
    exact ⟨by ring, toInt_of_scaledOfInt added, rfl⟩
  by_cases shrinking : gSign = .shrinking ∧ spec.shrinkOrder = gOrder
  · rw [if_neg stretching, if_pos shrinking] at computed ⊢
    obtain ⟨curGlue, subtracted, computed⟩ := Option.bind_eq_some_iff.mp computed
    obtain ⟨next, width⟩ := width_of_totals computed
    rw [next, width, natural]
    exact ⟨by ring, toInt_of_scaledOfInt subtracted, rfl⟩
  rw [if_neg stretching, if_neg shrinking] at computed ⊢
  obtain ⟨next, width⟩ := width_of_totals computed
  rw [next, width, natural]
  exact ⟨by ring, (add_zero _).symm, rounded⟩

def setTotal (gSign : GlueSign) (gOrder : GlueOrder) (specs : List GlueSpec) : ℤ :=
  (specs.map (setAmount gSign gOrder)).sum

def naturalTotal (specs : List GlueSpec) : ℤ := (specs.map fun spec => spec.width.toInt).sum

def widthTotal (widths : List Scaled) : ℤ := (widths.map Int32.toInt).sum

variable {specs : List GlueSpec}

theorem adjustedGlueWidths_totals {result : List Scaled × GlueTotals}
    (computed : adjustedGlueWidths gSign gOrder glueSet totals specs = some result)
    (rounded : totals.Rounded glueSet) : widthTotal result.1 =
        naturalTotal specs + result.2.curG.toInt - totals.curG.toInt ∧
      result.2.curGlue.toInt = totals.curGlue.toInt + setTotal gSign gOrder specs ∧
      result.2.Rounded glueSet := by
  induction specs generalizing totals result with
  | nil =>
    cases computed
    exact ⟨by simp [widthTotal, naturalTotal], by simp [setTotal], rounded⟩
  | cons spec specs ih => ?_
  simp only [adjustedGlueWidths, Option.bind_eq_bind, Option.bind_eq_some_iff,
    Option.some.injEq] at computed
  obtain ⟨first, firstComputed, rest, restComputed, rfl⟩ := computed
  obtain ⟨width, total, nextRounded⟩ := adjustedGlueWidth_step firstComputed rounded
  obtain ⟨widths, final, finalRounded⟩ := ih restComputed nextRounded
  refine ⟨?_, ?_, finalRounded⟩
  · simp only [widthTotal, naturalTotal, List.map_cons, List.sum_cons] at widths ⊢
    omega
  simp only [setTotal, List.map_cons, List.sum_cons] at final ⊢
  omega

theorem adjustedGlueWidths_sum {result : List Scaled × GlueTotals}
    (computed : adjustedGlueWidths gSign gOrder glueSet .zero specs = some result) :
    result.2.curGlue.toInt = setTotal gSign gOrder specs ∧ widthTotal result.1 =
        naturalTotal specs + (roundedGlueSet glueSet result.2.curGlue).toInt := by
  obtain ⟨widths, total, rounded⟩ :=
    adjustedGlueWidths_totals computed (GlueTotals.rounded_zero glueSet)
  rw [rounded] at widths
  refine ⟨total.trans (zero_add _), widths.trans ?_⟩
  exact Int.sub_zero _

/-- Setting a total emulates two binary64 operations, each to the nearest
significand of 53 bits with ties to even, and a rounding half away from zero,
within 128-bit integers; and the widths of any list of glue nodes add up to the
natural widths and the setting of the list's total. -/
theorem glueSetting_exact (glueSet : GlueSetRatio) :
    (∀ value other : ℚ, 0 ≤ value → Representable 53 other → Representable 53 (nearest 53 value) ∧
      |value - nearest 53 value| ≤ |value - other| ∧
      (other ≠ nearest 53 value → |value - other| = |value - nearest 53 value| →
        Even (roundEven (value / spacing 53 value)))) ∧ (∀ curGlue : Scaled,
      roundedGlueSetU128 glueSet curGlue = some (roundedGlueSet glueSet curGlue) ∧
      (roundedGlueSet glueSet curGlue).toInt = (glueSet.numerator.toInt * curGlue.toInt).sign *
          min ⌊nearest 53 (nearest 53 ((glueSet.numerator.toInt.natAbs : ℚ) /
            glueSet.denominator.toInt.natAbs) * curGlue.toInt.natAbs) + 1 / 2⌋ 1000000000) ∧
    ∀ (gSign : GlueSign) (gOrder : GlueOrder) (specs : List GlueSpec)
      (result : List Scaled × GlueTotals),
      adjustedGlueWidths gSign gOrder glueSet .zero specs = some result →
        ∃ total : Scaled, total.toInt = setTotal gSign gOrder specs ∧
          widthTotal result.1 = naturalTotal specs + (roundedGlueSet glueSet total).toInt := by
  refine ⟨?_, ?_, ?_⟩
  · intro value other nonneg representable
    exact ⟨nearest_representable (by decide) nonneg,
      abs_sub_nearest_le (by decide) nonneg representable,
      even_significand_of_tie (by decide) nonneg representable⟩
  · intro curGlue
    exact ⟨roundedGlueSetU128_eq glueSet curGlue, toInt_roundedGlueSet glueSet curGlue⟩
  intro gSign gOrder specs result computed
  obtain ⟨total, widths⟩ := adjustedGlueWidths_sum computed
  exact ⟨result.2.curGlue, total, widths⟩

def thirdRatio : GlueSetRatio where
  numerator := 1
  denominator := 3
  positive := by decide
  representable := by decide
  reduced := by decide

def stretchable (amount : Scaled) : GlueSpec where
  width := 10
  stretch := amount
  stretchOrder := .normal
  shrink := 0
  shrinkOrder := .normal

theorem glueSetting_exact_thirds : |(1 / 3 : ℚ) - nearest 53 (1 / 3)| ≤ |1 / 3 - 1 / 4| ∧
      ∃ total : Scaled, total.toInt = 8 ∧
        widthTotal [11, 12] = 20 + (roundedGlueSet thirdRatio total).toInt := by
  constructor
  · exact ((glueSetting_exact thirdRatio).1 (1 / 3) (1 / 4) (by norm_num)
      ⟨1, -2, by norm_num, by norm_num⟩).2.1
  exact (glueSetting_exact thirdRatio).2.2 .stretching .normal [stretchable 4, stretchable 4]
    ([11, 12], { curG := 3, curGlue := 8 }) (by decide +kernel)

end Umber.Page
