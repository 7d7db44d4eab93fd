import Umber.Arith.DecimalProperties

/-! Conversions between units are exact quotients that no intermediate value
overflows. -/

set_option autoImplicit false

open ExceptLib

namespace Umber.Arith

/-! ## Division of a product, digit by digit -/

/-- The quotient and the remainder of a product by a divisor, assembled from the
product's digits in a radix. -/
theorem radix_division (total radix d : ℕ) (divisor : 0 < d) :
    radix * (total / radix / d) + (total / radix % d * radix + total % radix) / d = total / d ∧
      (total / radix % d * radix + total % radix) % d = total % d := by
  have split : total =
      d * (radix * (total / radix / d)) + (total / radix % d * radix + total % radix) := by
    calc total = radix * (total / radix) + total % radix := (Nat.div_add_mod total radix).symm
      _ = radix * (d * (total / radix / d) + total / radix % d) + total % radix := by
          rw [Nat.div_add_mod (total / radix) d]
      _ = d * (radix * (total / radix / d)) + (total / radix % d * radix + total % radix) := by
          ring
  constructor
  · conv_rhs => rw [split]
    rw [Nat.mul_add_div divisor]
  conv_rhs => rw [split]
  rw [Nat.mul_add_mod]

theorem radix_quotient_large (total radix d : ℕ) (positive : 0 < radix) :
    radix ≤ total / radix / d ↔ radix * radix ≤ total / d := by
  rw [Nat.div_div_eq_div_mul, Nat.mul_comm radix d, ← Nat.div_div_eq_div_mul,
    Nat.le_div_iff_mul_le positive]

theorem tryI32_ok {value : Int} (message : String) (fits : InI32 value) :
    tryI32 value message = .ok (Int32.ofInt value) := if_pos fits

theorem natAbs_le (x : Int32) : x.toInt.natAbs ≤ 2147483648 := by
  have low := x.le_toInt
  have high := x.toInt_lt
  omega

/-- The product of a magnitude by a factor, split in the radix of the division. -/
theorem radix_product (a n : ℕ) : a / 32768 * n + a % 32768 * n / 32768 = a * n / 32768 ∧
      a % 32768 * n % 32768 = a * n % 32768 := by
  have split : a * n = 32768 * (a / 32768 * n) + a % 32768 * n := by
    calc a * n = (32768 * (a / 32768) + a % 32768) * n := by rw [Nat.div_add_mod]
      _ = 32768 * (a / 32768 * n) + a % 32768 * n := by ring
  rw [split]
  constructor
  · rw [Nat.mul_add_div (by decide)]
  · rw [Nat.mul_add_mod]

theorem signed_division (x : Int) (n d : ℕ) :
    (if 0 ≤ x then ((x.natAbs * n / d : ℕ) : Int) else -((x.natAbs * n / d : ℕ) : Int)) =
        (x * n).tdiv d ∧
      (if 0 ≤ x then ((x.natAbs * n % d : ℕ) : Int) else -((x.natAbs * n % d : ℕ) : Int)) =
        (x * n).tmod d := by
  by_cases positive : 0 ≤ x
  · obtain ⟨a, rfl⟩ := Int.eq_ofNat_of_zero_le positive
    simp only [if_pos positive]
    exact ⟨rfl, rfl⟩
  have negative : x * n = -((x.natAbs * n : ℕ) : Int) := by
    push_cast
    rw [abs_of_neg (by omega)]
    ring
  simp only [if_neg positive]
  rw [negative, Int.neg_tdiv, Int.neg_tmod]
  exact ⟨rfl, rfl⟩

variable {n d : ℕ}

/-- The truncated quotient and the signed remainder of a product, or the error
when the quotient is no legal dimension. -/
theorem xnOverD_eq (x : Scaled) (numerator : n ≤ 65536) (denominator : 1 ≤ d) (small : d ≤ 65536) :
    xnOverD x n d =
      if x.toInt.natAbs * n / d < 1073741824 then
        .ok { quotient := Int32.ofInt ((x.toInt * n).tdiv d),
              remainder := Int32.ofInt ((x.toInt * n).tmod d) }
      else .error (.dimension .tooLarge) := by
  have bound := natAbs_le x
  have signs := signed_division x.toInt n d
  rw [xnOverD, ensure_ok _ (by unfold unity; omega), ok_bind,
    ensure_ok _ (by unfold unity; omega), ok_bind]
  dsimp only
  simp only [decide_eq_true_eq]
  generalize x.toInt.natAbs = a at bound signs ⊢
  have product := radix_product a n
  have division := radix_division (a * n) 32768 d denominator
  have large := radix_quotient_large (a * n) 32768 d (by decide)
  have low : a % 32768 * n ≤ 32767 * 65536 := Nat.mul_le_mul (by omega) numerator
  have high : a / 32768 * n ≤ 65536 * 65536 := Nat.mul_le_mul (by omega) numerator
  have carry : a * n / 32768 % d < d := Nat.mod_lt _ denominator
  have remainder : a * n % d < d := Nat.mod_lt _ denominator
  have t : ((a : Int).tmod xnOverDRadix * n) = (a % 32768 * n : ℕ) := rfl
  have whole : ((a : Int).tdiv xnOverDRadix * n) = (a / 32768 * n : ℕ) := rfl
  have u : (((a / 32768 * n : ℕ) : Int) + ((a % 32768 * n : ℕ) : Int).tdiv xnOverDRadix) =
      (a * n / 32768 : ℕ) := congrArg Nat.cast product.1
  have carried : (((a * n / 32768 : ℕ) : Int).tmod d * xnOverDRadix) =
      (a * n / 32768 % d * 32768 : ℕ) := rfl
  have v : (((a * n / 32768 % d * 32768 : ℕ) : Int) +
      ((a % 32768 * n : ℕ) : Int).tmod xnOverDRadix) =
      (a * n / 32768 % d * 32768 + a * n % 32768 : ℕ) :=
    congrArg (fun rest : ℕ => ((a * n / 32768 % d * 32768 + rest : ℕ) : Int)) product.2
  have test : xnOverDRadix ≤ ((a * n / 32768 : ℕ) : Int).tdiv d ↔ ¬a * n / d < 1073741824 := by
    rw [Nat.not_lt]
    exact (Int.ofNat_le (m := 32768)).trans large
  have quotient : (xnOverDRadix * ((a * n / 32768 : ℕ) : Int).tdiv d +
      ((a * n / 32768 % d * 32768 + a * n % 32768 : ℕ) : Int).tdiv d) = (a * n / d : ℕ) :=
    congrArg Nat.cast division.1
  have rest : ((a * n / 32768 % d * 32768 + a * n % 32768 : ℕ) : Int).tmod d =
      (a * n % d : ℕ) := congrArg Nat.cast division.2
  have fits : ∀ value : ℕ, value ≤ 4295032832 → InI64 value := by
    intro value limit
    unfold InI64
    omega
  rw [i64_ok (fits a (by omega)), ok_bind, t,
    i64_ok (fits _ (by omega)), ok_bind, whole, i64_ok (fits _ (by omega)), ok_bind, u,
    i64_ok (fits _ (by omega)), ok_bind, carried, i64_ok (fits _ (by omega)), ok_bind, v,
    i64_ok (fits _ (by omega)), ok_bind]
  by_cases within : a * n / d < 1073741824
  · rw [if_neg (by rw [test, not_not]; exact within), if_pos within]
    have high : xnOverDRadix * ((a * n / 32768 : ℕ) : Int).tdiv d =
        (32768 * (a * n / 32768 / d) : ℕ) := rfl
    have below : 32768 * (a * n / 32768 / d) ≤ a * n / d := Nat.le.intro division.1
    rw [high] at quotient
    rw [high, i64_ok (fits _ (by omega)), ok_bind, quotient, i64_ok (fits _ (by omega)), ok_bind,
      rest, signs.1, signs.2]
    rw [tryI32_ok _ (by rw [← signs.1]; unfold InI32; omega), ok_bind,
      tryI32_ok _ (by rw [← signs.2]; unfold InI32; omega), ok_bind]
  · rw [if_pos (test.mpr within), if_neg within]

/-! ## Decimal parts -/

def convertedValue (integer fraction n d : ℕ) : ℕ := (65536 * integer + fraction) * n / d

theorem convertedValue_assembled (integer fraction n d : ℕ) (divisor : 0 < d) :
    65536 * (integer * n / d) + (n * fraction + 65536 * (integer * n % d)) / d =
      convertedValue integer fraction n d := by
  have split : (65536 * integer + fraction) * n =
      d * (65536 * (integer * n / d)) + (n * fraction + 65536 * (integer * n % d)) := by
    calc (65536 * integer + fraction) * n = 65536 * (integer * n) + n * fraction := by ring
      _ = 65536 * (d * (integer * n / d) + integer * n % d) + n * fraction := by
          rw [Nat.div_add_mod (integer * n) d]
      _ = d * (65536 * (integer * n / d)) + (n * fraction + 65536 * (integer * n % d)) := by ring
  rw [convertedValue, split, Nat.mul_add_div divisor]

theorem convertedValue_large {integer fraction n d : ℕ} (large : 1073741824 ≤ integer * n / d) :
    1073741824 ≤ convertedValue integer fraction n d := by
  refine Nat.le_trans large (Nat.div_le_div_right (Nat.mul_le_mul_right n ?_))
  omega

variable {value : ℕ}

theorem inI32_natCast (small : value ≤ 2147483647) : InI32 value := by
  unfold InI32
  omega

theorem inI32_signed {condition : Prop} [Decidable condition] (small : value ≤ 2147483647) :
    InI32 (if condition then (value : Int) else -value) := by
  unfold InI32
  split <;> omega

theorem toInt_ofInt {value : Int} (fits : InI32 value) : (Int32.ofInt value).toInt = value :=
  Int32.toInt_ofInt_of_le fits.1 (by have := fits.2; omega)

variable {a : ℕ}

theorem xnOverD_nonneg {x : Scaled} (value : x.toInt = a) (numerator : n ≤ 65536)
    (denominator : 1 ≤ d) (small : d ≤ 65536) :
    xnOverD x n d =
      if a * n / d < 1073741824 then
        .ok { quotient := Int32.ofInt (a * n / d : ℕ), remainder := Int32.ofInt (a * n % d : ℕ) }
      else .error (.dimension .tooLarge) := by
  rw [xnOverD_eq x numerator denominator small, value]
  rfl

/-- The ratios of the units fit the arithmetic of the conversion. -/
theorem pointRatio_bounds (unit : PhysicalUnit) (other : unit ≠ .sp) :
    ∃ n d : ℕ, unit.pointRatio = ((n : Int), (d : Int)) ∧ 1 ≤ d ∧ n + d ≤ 32768 := by
  cases unit with
  | sp => exact absurd rfl other
  | pt => exact ⟨1, 1, rfl, by decide, by decide⟩
  | inch => exact ⟨7227, 100, rfl, by decide, by decide⟩
  | pc => exact ⟨12, 1, rfl, by decide, by decide⟩
  | cm => exact ⟨7227, 254, rfl, by decide, by decide⟩
  | mm => exact ⟨7227, 2540, rfl, by decide, by decide⟩
  | bp => exact ⟨7227, 7200, rfl, by decide, by decide⟩
  | dd => exact ⟨1238, 1157, rfl, by decide, by decide⟩
  | cc => exact ⟨14856, 1157, rfl, by decide, by decide⟩
  | nd => exact ⟨685, 642, rfl, by decide, by decide⟩
  | nc => exact ⟨1370, 107, rfl, by decide, by decide⟩

variable {integer fraction : Int32} {unit : PhysicalUnit} {f : ℕ}

theorem pointParts_eq (integerValue : integer.toInt = a) (fractionValue : fraction.toInt = f)
    (inRange : f ≤ 65536) (other : unit ≠ .pt) (ratio : unit.pointRatio = ((n : Int), (d : Int)))
    (denominator : 1 ≤ d) (bounded : n + d ≤ 32768) : pointParts integer fraction unit =
      if a * n / d < 1073741824 then
        .ok ((convertedValue a f n d / 65536 : ℕ), (convertedValue a f n d % 65536 : ℕ))
      else .error (.dimension .tooLarge) := by
  rw [pointParts, if_pos other]
  dsimp only
  rw [ratio]
  dsimp only
  rw [xnOverD_nonneg integerValue (by omega) denominator (by omega)]
  by_cases within : a * n / d < 1073741824
  · have remainder : a * n % d < d := Nat.mod_lt _ denominator
    have assembled := convertedValue_assembled a f n d denominator
    have product : n * f ≤ n * 65536 := Nat.mul_le_mul_left n inRange
    have quotientBound : (n * f + 65536 * (a * n % d)) / d ≤ n * f + 65536 * (a * n % d) :=
      Nat.div_le_self _ _
    have scaledProduct : ((n : Int) * (f : Int)) = (n * f : ℕ) := rfl
    have carried : (unity * ((a * n % d : ℕ) : Int)) = (65536 * (a * n % d) : ℕ) := rfl
    have sum : (((n * f : ℕ) : Int) + (65536 * (a * n % d) : ℕ)) =
        (n * f + 65536 * (a * n % d) : ℕ) := rfl
    have frac : ((n * f + 65536 * (a * n % d) : ℕ) : Int).tdiv d =
        ((n * f + 65536 * (a * n % d)) / d : ℕ) := rfl
    have cur : (((a * n / d : ℕ) : Int) +
        (((n * f + 65536 * (a * n % d)) / d : ℕ) : Int).tdiv unity) =
        (a * n / d + (n * f + 65536 * (a * n % d)) / d / 65536 : ℕ) := rfl
    have rest : (((n * f + 65536 * (a * n % d)) / d : ℕ) : Int).tmod unity =
        ((n * f + 65536 * (a * n % d)) / d % 65536 : ℕ) := rfl
    rw [if_pos within, if_pos within, ok_bind]
    dsimp only
    rw [toInt_ofInt (inI32_natCast (by omega)), toInt_ofInt (inI32_natCast (by omega)),
      fractionValue, scaledProduct, i32_ok (inI32_natCast (by omega)), ok_bind, carried,
      i32_ok (inI32_natCast (by omega)), ok_bind, sum, i32_ok (inI32_natCast (by omega)), ok_bind,
      frac, i32_ok (inI32_natCast (by omega)), ok_bind, cur, i32_ok (inI32_natCast (by omega)),
      ok_bind, rest, ← assembled, Nat.mul_add_div (by decide), Nat.mul_add_mod]
  rw [if_neg within, if_neg within]
  rfl

theorem checkDimension_eq : checkDimension value =
      if value < 1073741824 then .ok (Int32.ofInt value) else .error (.dimension .tooLarge) := by
  rw [checkDimension]
  by_cases within : value < 1073741824
  · rw [if_neg (by omega), if_pos within]
  · rw [if_pos (by omega), if_neg within]

/-- The sum of the parts of a value in points is checked as a dimension. -/
theorem checked_parts {points rest : ℕ} (fraction : rest ≤ 65536) :
    (if 16384 ≤ (points : Int) then .error (.dimension .tooLarge)
      else do
        let points ← i32 ((points : Int) * unity)
        let raw ← i32 (points + (rest : Int))
        checkDimension raw) =
      if 65536 * points + rest < 1073741824 then
        .ok (Int32.ofInt (65536 * points + rest : ℕ))
      else .error (.dimension .tooLarge) := by
  by_cases large : 16384 ≤ points
  · rw [if_pos (by omega), if_neg (by omega)]
  have product : (points : Int) * unity = (65536 * points : ℕ) := by
    unfold unity
    omega
  have sum : ((65536 * points : ℕ) : Int) + (rest : Int) = (65536 * points + rest : ℕ) := rfl
  rw [if_neg (by omega), product, i32_ok (by unfold InI32; omega), ok_bind, sum,
    i32_ok (by unfold InI32; omega), ok_bind, checkDimension_eq]

theorem scaledFromDecimalParts_eq (integerValue : integer.toInt = a)
    (fractionValue : fraction.toInt = f) (inRange : f ≤ 65536) (other : unit ≠ .sp)
    (ratio : unit.pointRatio = ((n : Int), (d : Int))) :
    scaledFromDecimalParts integer fraction unit = if convertedValue a f n d < 1073741824 then
        .ok (Int32.ofInt (convertedValue a f n d : ℕ)) else .error (.dimension .tooLarge) := by
  obtain ⟨numerator, denominator, sameRatio, positive, bounded⟩ := pointRatio_bounds unit other
  rw [ratio, Prod.mk.injEq, Nat.cast_inj, Nat.cast_inj] at sameRatio
  obtain ⟨rfl, rfl⟩ := sameRatio
  rw [scaledFromDecimalParts, ensure_ok _ (by omega), ok_bind,
    ensure_ok _ (by unfold unity; omega), ok_bind, if_neg other]
  by_cases points : unit = .pt
  · subst points
    have unitRatio : n = 1 ∧ d = 1 := by
      rw [PhysicalUnit.pointRatio, Prod.mk.injEq] at ratio
      omega
    obtain ⟨rfl, rfl⟩ := unitRatio
    have total : convertedValue a f 1 1 = 65536 * a + f := by simp [convertedValue]
    rw [pointParts, if_neg (by simp), ok_bind, integerValue, fractionValue, total]
    exact checked_parts inRange
  rw [pointParts_eq integerValue fractionValue inRange points ratio positive bounded]
  by_cases within : a * n / d < 1073741824
  · rw [if_pos within, ok_bind]
    have parts := @checked_parts (convertedValue a f n d / 65536) (convertedValue a f n d % 65536)
      (by omega)
    rw [Nat.div_add_mod] at parts
    exact parts
  have large := @convertedValue_large a f n d (by omega)
  rw [if_neg within, if_neg (by omega)]
  rfl

theorem scaledFromDecimalParts_sp (integerValue : integer.toInt = a)
    (fractionValue : fraction.toInt = f) (inRange : f ≤ 65536) :
    scaledFromDecimalParts integer fraction .sp =
      if a < 1073741824 then .ok (Int32.ofInt a) else .error (.dimension .tooLarge) := by
  rw [scaledFromDecimalParts, ensure_ok _ (by omega), ok_bind,
    ensure_ok _ (by unfold unity; omega), ok_bind, if_pos rfl, integerValue, checkDimension_eq]

theorem trueFraction_le {f m remainder : ℕ} (inRange : f ≤ 65536) (below : remainder < m) :
    (1000 * f + 65536 * remainder) / m ≤ 65536000 + 65536 := by
  refine Nat.div_le_of_le_mul ?_
  calc 1000 * f + 65536 * remainder ≤ 1 * 65536000 + m * 65536 := by omega
    _ ≤ m * 65536000 + m * 65536 := Nat.add_le_add_right (Nat.mul_le_mul_right _ (by omega)) _
    _ = m * (65536000 + 65536) := by ring

variable {mag : Int32}

theorem scaleTrueDimensionParts_eq {m : ℕ} (integerValue : integer.toInt = a)
    (fractionValue : fraction.toInt = f) (inRange : f ≤ 65536) (magValue : mag.toInt = m)
    (positive : 1 ≤ m) (bounded : m ≤ 32768) (scaled : m ≠ 1000) :
    scaleTrueDimensionParts integer fraction mag = if a * 1000 / m < 1073741824 then
        .ok (Int32.ofInt (convertedValue a f 1000 m / 65536 : ℕ),
          Int32.ofInt (convertedValue a f 1000 m % 65536 : ℕ))
      else .error (.dimension .tooLarge) := by
  have thousand : (1000 : Int) = (1000 : ℕ) := rfl
  rw [scaleTrueDimensionParts, ensure_ok _ (by omega), ok_bind,
    ensure_ok _ (by unfold unity; omega), ok_bind, ensure_ok _ (by omega), ok_bind,
    if_neg (by omega), magValue, thousand,
    xnOverD_nonneg integerValue (by decide) positive (by omega)]
  by_cases within : a * 1000 / m < 1073741824
  · have remainder : a * 1000 % m < m := Nat.mod_lt _ positive
    have assembled := convertedValue_assembled a f 1000 m positive
    have quotientBound := trueFraction_le inRange remainder
    have product : ((1000 : ℕ) : Int) * (f : Int) = (1000 * f : ℕ) := rfl
    have carried : unity * ((a * 1000 % m : ℕ) : Int) = (65536 * (a * 1000 % m) : ℕ) := rfl
    have sum : (((1000 * f : ℕ) : Int) + (65536 * (a * 1000 % m) : ℕ)) =
        (1000 * f + 65536 * (a * 1000 % m) : ℕ) := rfl
    have integerPart : (((a * 1000 / m : ℕ) : Int) +
        (((1000 * f + 65536 * (a * 1000 % m) : ℕ) : Int).tdiv m).tdiv unity) =
        (a * 1000 / m + (1000 * f + 65536 * (a * 1000 % m)) / m / 65536 : ℕ) := rfl
    have rest : (((1000 * f + 65536 * (a * 1000 % m) : ℕ) : Int).tdiv m).tmod unity =
        ((1000 * f + 65536 * (a * 1000 % m)) / m % 65536 : ℕ) := rfl
    have fits : ∀ value : ℕ, value ≤ 4294967296 → InI64 value := by
      intro value limit
      unfold InI64
      omega
    rw [if_pos within, if_pos within, ok_bind]
    dsimp only
    rw [toInt_ofInt (inI32_natCast (by omega)), toInt_ofInt (inI32_natCast (by omega)),
      fractionValue, product, i32_ok (inI32_natCast (by omega)), ok_bind, carried,
      i64_ok (fits _ (by omega)), ok_bind, sum, i64_ok (fits _ (by omega)), ok_bind, integerPart,
      i64_ok (fits _ (by omega)), ok_bind, tryI32_ok _ (inI32_natCast (by omega)), ok_bind, rest,
      tryI32_ok _ (inI32_natCast (by omega)), ok_bind, ← assembled, Nat.mul_add_div (by decide),
      Nat.mul_add_mod]
  rw [if_neg within, if_neg within]
  rfl

/-! ## The conversions together -/

/-- A computation gives a correct result exactly when a value is a legal
dimension, and otherwise the error for large dimensions: it never panics. -/
def ExactBelowLimit {α : Type} (outcome : Outcome α) (value : Int) (correct : α → Prop) : Prop :=
  (value < 1073741824 → ∃ result, outcome = .ok result ∧ correct result) ∧
    (1073741824 ≤ value → outcome = .error (.dimension .tooLarge))

theorem ExactBelowLimit.of_ite {α : Type} {outcome : Outcome α} {value : ℕ} {result : α}
    {correct : α → Prop} (decided : outcome =
      if value < 1073741824 then .ok result else .error (.dimension .tooLarge))
    (isCorrect : value < 1073741824 → correct result) : ExactBelowLimit outcome value correct := by
  constructor
  · intro within
    have small : value < 1073741824 := by omega
    exact ⟨result, by rw [decided, if_pos small], isCorrect small⟩
  intro large
  rw [decided, if_neg (by omega)]

/-- The value of decimal parts in scaled points. The fraction of a number of
scaled points does not count. -/
def decimalValue (integer fraction : Int) (unit : PhysicalUnit) : Int :=
  if unit = .sp then integer
  else (65536 * integer + fraction) * unit.pointRatio.1 / unit.pointRatio.2

theorem scaledFromDecimalParts_exact (unit : PhysicalUnit) (nonneg : 0 ≤ integer.toInt)
    (fractionNonneg : 0 ≤ fraction.toInt) (inRange : fraction.toInt ≤ 65536) :
    ExactBelowLimit (scaledFromDecimalParts integer fraction unit)
      (decimalValue integer.toInt fraction.toInt unit)
      (fun result => result.toInt = decimalValue integer.toInt fraction.toInt unit) := by
  obtain ⟨a, integerValue⟩ := Int.eq_ofNat_of_zero_le nonneg
  obtain ⟨f, fractionValue⟩ := Int.eq_ofNat_of_zero_le fractionNonneg
  have small : f ≤ 65536 := by omega
  by_cases points : unit = .sp
  · subst points
    rw [integerValue, decimalValue, if_pos rfl]
    exact .of_ite (scaledFromDecimalParts_sp integerValue fractionValue small)
      (fun within => toInt_ofInt (inI32_natCast (by omega)))
  obtain ⟨n, d, ratio, positive, bounded⟩ := pointRatio_bounds unit points
  have value : decimalValue integer.toInt fraction.toInt unit = convertedValue a f n d := by
    rw [decimalValue, if_neg points, integerValue, fractionValue, ratio]
    rfl
  rw [value]
  exact .of_ite (scaledFromDecimalParts_eq integerValue fractionValue small points ratio)
    (fun within => toInt_ofInt (inI32_natCast (by omega)))

theorem xnOverD_exact {x n d : Int32} (nonneg : 0 ≤ n.toInt) (numerator : n.toInt ≤ 65536)
    (positive : 1 ≤ d.toInt) (denominator : d.toInt ≤ 65536) :
    ExactBelowLimit (xnOverD x n.toInt d.toInt) (x.toInt.natAbs * n.toInt / d.toInt)
      (fun result => result.quotient.toInt = (x.toInt * n.toInt).tdiv d.toInt ∧
        result.remainder.toInt = (x.toInt * n.toInt).tmod d.toInt) := by
  obtain ⟨factor, factorValue⟩ := Int.eq_ofNat_of_zero_le nonneg
  obtain ⟨divisor, divisorValue⟩ := Int.eq_ofNat_of_zero_le (Int.le_trans (by decide) positive)
  rw [factorValue, divisorValue]
  have signs := signed_division x.toInt factor divisor
  have remainder : x.toInt.natAbs * factor % divisor < divisor := Nat.mod_lt _ (by omega)
  refine @ExactBelowLimit.of_ite _ _ (x.toInt.natAbs * factor / divisor) _ _
    (xnOverD_eq x (by omega) (by omega) (by omega)) (fun within => ⟨?_, ?_⟩)
  · refine toInt_ofInt ?_
    rw [← signs.1]
    exact inI32_signed (by omega)
  refine toInt_ofInt ?_
  rw [← signs.2]
  exact inI32_signed (by omega)

/-- The value of decimal parts at a magnification, in units of a fraction. -/
def trueValue (integer fraction mag : Int) : Int := (65536 * integer + fraction) * 1000 / mag

theorem scaleTrueDimensionParts_exact (nonneg : 0 ≤ integer.toInt)
    (fractionNonneg : 0 ≤ fraction.toInt) (inRange : fraction.toInt ≤ 65536)
    (positive : 1 ≤ mag.toInt) (bounded : mag.toInt ≤ 32768) (scaled : mag.toInt ≠ 1000) :
    ExactBelowLimit (scaleTrueDimensionParts integer fraction mag)
      (integer.toInt * 1000 / mag.toInt) (fun result =>
        result.1.toInt = trueValue integer.toInt fraction.toInt mag.toInt / 65536 ∧
        result.2.toInt = trueValue integer.toInt fraction.toInt mag.toInt % 65536) := by
  obtain ⟨a, integerValue⟩ := Int.eq_ofNat_of_zero_le nonneg
  obtain ⟨f, fractionValue⟩ := Int.eq_ofNat_of_zero_le fractionNonneg
  obtain ⟨m, magValue⟩ := Int.eq_ofNat_of_zero_le (Int.le_trans (by decide) positive)
  have value : trueValue integer.toInt fraction.toInt mag.toInt =
      convertedValue a f 1000 m := by
    rw [trueValue, integerValue, fractionValue, magValue]
    rfl
  have decided := scaleTrueDimensionParts_eq integerValue fractionValue (by omega) magValue
    (by omega) (by omega) (by omega)
  rw [value, integerValue, magValue]
  refine @ExactBelowLimit.of_ite _ _ (a * 1000 / m) _ _ decided (fun within => ⟨?_, ?_⟩)
  · refine toInt_ofInt (inI32_natCast ?_)
    have assembled := convertedValue_assembled a f 1000 m (by omega)
    have below := @trueFraction_le f m (a * 1000 % m) (by omega) (Nat.mod_lt _ (by omega))
    omega
  · exact toInt_ofInt (inI32_natCast (by omega))

/-- The division and the two conversions are exact, give an error exactly when
the value is no legal dimension, and overflow nowhere. -/
theorem conversions_exact :
    (∀ x n d : Int32, 0 ≤ n.toInt → n.toInt ≤ 65536 → 1 ≤ d.toInt → d.toInt ≤ 65536 →
      ExactBelowLimit (xnOverD x n.toInt d.toInt) (x.toInt.natAbs * n.toInt / d.toInt)
        (fun result => result.quotient.toInt = (x.toInt * n.toInt).tdiv d.toInt ∧
          result.remainder.toInt = (x.toInt * n.toInt).tmod d.toInt)) ∧
    (∀ integer fraction : Int32, 0 ≤ integer.toInt → 0 ≤ fraction.toInt → fraction.toInt ≤ 65536 →
      (∀ unit, ExactBelowLimit (scaledFromDecimalParts integer fraction unit)
        (decimalValue integer.toInt fraction.toInt unit)
        (fun result => result.toInt = decimalValue integer.toInt fraction.toInt unit)) ∧
      ∀ mag : Int32, 1 ≤ mag.toInt → mag.toInt ≤ 32768 → (mag.toInt = 1000 →
          scaleTrueDimensionParts integer fraction mag = .ok (integer, fraction)) ∧
        (mag.toInt ≠ 1000 → ExactBelowLimit (scaleTrueDimensionParts integer fraction mag)
            (integer.toInt * 1000 / mag.toInt) (fun result =>
              result.1.toInt = trueValue integer.toInt fraction.toInt mag.toInt / 65536 ∧
              result.2.toInt = trueValue integer.toInt fraction.toInt mag.toInt % 65536))) := by
  constructor
  · intro x n d nonneg numerator positive denominator
    exact xnOverD_exact nonneg numerator positive denominator
  intro integer fraction nonneg fractionNonneg inRange
  refine ⟨fun unit => scaledFromDecimalParts_exact unit nonneg fractionNonneg inRange, ?_⟩
  intro mag positive bounded
  refine ⟨fun unscaled => ?_, scaleTrueDimensionParts_exact nonneg fractionNonneg inRange
    positive bounded⟩
  rw [scaleTrueDimensionParts, ensure_ok _ nonneg, ok_bind,
    ensure_ok _ ⟨fractionNonneg, inRange⟩, ok_bind, ensure_ok _ ⟨positive, bounded⟩, ok_bind,
    if_pos unscaled]

theorem conversions_exact_inch :
    (∃ result, xnOverD (-100) 7 3 = .ok result ∧ result.quotient.toInt = -233 ∧
      result.remainder.toInt = -1) ∧
    (∃ result, scaledFromDecimalParts 1 32768 .inch = .ok result ∧ result.toInt = 7104430) ∧
    ∃ result, scaleTrueDimensionParts 12 65536 1200 = .ok result ∧ result.1.toInt = 10 ∧
      result.2.toInt = 54613 := by
  refine ⟨?_, ?_, ?_⟩
  · exact (conversions_exact.1 (-100) 7 3 (by decide) (by decide) (by decide) (by decide)).1
      (by decide)
  · exact ((conversions_exact.2 1 32768 (by decide) (by decide) (by decide)).1 .inch).1
      (by decide)
  exact (((conversions_exact.2 12 65536 (by decide) (by decide) (by decide)).2 1200
    (by decide) (by decide)).2 (by decide)).1 (by decide)

/-- The fraction of a number of scaled points is dropped, so that the largest
legal dimension is accepted with a fraction that makes it too large. -/
theorem scaledFromDecimalParts_drops_fraction :
    scaledFromDecimalParts 1073741823 65536 .sp = .ok 1073741823 ∧
      ¬(65536 * 1073741823 + 65536) * PhysicalUnit.sp.pointRatio.1 /
        PhysicalUnit.sp.pointRatio.2 < 1073741824 := by
  decide

end Umber.Arith
