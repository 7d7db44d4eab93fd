import Umber.Lib.HalfAway
import Umber.Typeset.Widths

/-! Font expansion: the limits of a font, the ratio of a line, and the ratio of a glyph. -/

set_option autoImplicit false

namespace Umber.Typeset

inductive FontExpansionError where
  | invalidStep
  | invalidLimits

structure SteppedSpec extends FontExpansionSpec where
  step : Int
  autoExpand : Bool

structure ExpansionCapacity where
  stretch : Int
  shrink : Int

namespace SteppedSpec

def new (stretch shrink step : Int) (autoExpand : Bool) : Except FontExpansionError SteppedSpec :=
  let step := min (max step 0) 100
  if step = 0 then .error .invalidStep
  else
    let stretch := min (max stretch 0) 1000
    let shrink := min (max shrink 0) 500
    let stretch := stretch - stretch.tmod step
    let shrink := shrink - shrink.tmod step
    if stretch = 0 ∧ shrink = 0 then .error .invalidLimits
    else .ok { stretch, shrink, step, autoExpand }

end SteppedSpec

def roundRatioWide (value numerator denominator : Int) : Checked Int :=
  toWide (roundRatio value numerator denominator)

def steppedMagnitude (magnitude step limit : Int) : Checked Int :=
  if magnitude < limit ∧ magnitude.tmod step ≠ 0 then do
    let steps ← roundRatioWide magnitude 1 step
    toWide (step * steps.natAbs)
  else .ok magnitude

/-- The multiple of the step that is nearest to the requested ratio, within the limit. -/
def nearestStep (requested step limit : Int) : Checked Int := do
  let stepped ← steppedMagnitude (min (requested.natAbs : Int) limit) step limit
  let magnitude ← toScaled (min stepped limit)
  .ok (if requested < 0 then -magnitude else magnitude)

/-- A value that an `i16` can hold. -/
def toShort (value : Int) : Checked Int :=
  if -32768 ≤ value ∧ value ≤ 32767 then .ok value else .error .scaledOverflow

def SteppedSpec.discreteRatio (spec : SteppedSpec) (lineRatio efcode : Int) : Checked Int :=
  if lineRatio = 0 ∨ efcode ≤ 0 then .ok 0
  else
    let limit := if 0 < lineRatio then spec.stretch else spec.shrink
    if limit = 0 then .ok 0
    else do
      let requested ← roundRatioWide (lineRatio * clampEfcode efcode) limit 1000000
      let selected ← nearestStep requested spec.step limit
      toShort selected

def ExpansionCapacity.forMetric (natural : Int) (spec : SteppedSpec) (efcode : Int) :
    Checked ExpansionCapacity := do
  let efcode := clampEfcode efcode
  if efcode = 0 then .ok ⟨0, 0⟩
  else
    let stretched ← scaledAtRatio natural spec.stretch
    let shrunk ← scaledAtRatio natural (-spec.shrink)
    let wider ← toScaled (stretched - natural)
    let stretch ← positiveScaledRatio wider efcode 1000
    let narrower ← toScaled (natural - shrunk)
    let shrink ← positiveScaledRatio narrower efcode 1000
    .ok { stretch, shrink }

def divideScaled (value divisor : Int) (decimalDigits : Nat) : Checked Int :=
  let numerator := value * Int.pow 10 decimalDigits
  let rounded := (numerator.natAbs + (divisor.natAbs : Int) / 2) / divisor.natAbs
  toScaled (if decide (numerator < 0) != decide (divisor < 0) then -rounded else rounded)

def ExpansionCapacity.available (capacity : ExpansionCapacity) (shortfall : Int) : Int :=
  if 0 < shortfall then capacity.stretch else capacity.shrink

def lineExpansionRatio (shortfall : Int) (capacity : ExpansionCapacity)
    (hasInfiniteAdjustment : Bool) : Checked Int :=
  if shortfall = 0 ∨ hasInfiniteAdjustment = true then .ok 0
  else if capacity.available shortfall ≤ 0 then .ok 0
  else do
    let ratio ← divideScaled shortfall (capacity.available shortfall) 3
    .ok (min (max ratio (-1000)) 1000)

/-! ## Laws -/

open ExceptLib HalfAway

/-! ## Rounding -/

def halfUp (amount denominator : Int) : Int := (amount + denominator / 2) / denominator

variable {amount denominator : Int}

theorem halfUp_nonneg (nonneg : 0 ≤ amount) (positive : 0 < denominator) :
    0 ≤ halfUp amount denominator :=
  Int.ediv_nonneg (by omega) (by omega)

variable {larger : Int}

theorem halfUp_mono (positive : 0 < denominator) (below : amount ≤ larger) :
    halfUp amount denominator ≤ halfUp larger denominator :=
  Int.ediv_le_ediv positive (by omega)

theorem halfUp_mul {quotient denominator : Int} (positive : 0 < denominator) :
    halfUp (denominator * quotient) denominator = quotient := by
  have half : denominator / 2 / denominator = 0 :=
    Int.ediv_eq_zero_of_lt (by omega) (by omega)
  rw [halfUp, Int.add_comm, Int.add_mul_ediv_left _ _ (by omega), half, Int.zero_add]

theorem halfUp_le {bound : Int} (positive : 0 < denominator) (below : amount ≤ denominator * bound) :
    halfUp amount denominator ≤ bound := by
  have rounded := halfUp_mono positive below
  rwa [halfUp_mul positive] at rounded

theorem halfUp_natCast (amount : Nat) {denominator : Nat} (positive : 0 < denominator) :
    halfUp amount denominator = roundAway ((amount : ℚ) / denominator) := by
  rw [roundAway_natCast_div amount positive, halfUp]
  have division := Nat.div_add_mod amount denominator
  have below := Nat.mod_lt amount positive
  norm_cast
  have shifted : amount + denominator / 2 =
      amount % denominator + denominator / 2 + denominator * (amount / denominator) := by omega
  rw [shifted, Nat.add_mul_div_left _ _ positive, Nat.add_comm]
  congr 1
  split
  next half => exact Nat.div_eq_of_lt_le (by omega) (by omega)
  next short => exact Nat.div_eq_of_lt (by omega)

variable {value numerator : Int}

theorem roundRatio_of_nonneg (denominator : Int) (nonneg : 0 ≤ value * numerator) :
    roundRatio value numerator denominator = halfUp (value * numerator) denominator := by
  simp only [roundRatio, halfUp, Int.natAbs_of_nonneg nonneg, if_neg (Int.not_lt.mpr nonneg)]

theorem roundRatio_of_neg (denominator : Int) (negative : value * numerator < 0) :
    roundRatio value numerator denominator = -halfUp (-(value * numerator)) denominator := by
  have absolute : (((value * numerator).natAbs : Nat) : Int) = -(value * numerator) := by omega
  simp only [roundRatio, halfUp, absolute, if_pos negative]

theorem halfUp_zero (positive : 0 < denominator) : halfUp 0 denominator = 0 := by
  have same := @halfUp_mul 0 denominator positive
  rwa [Int.mul_zero] at same

theorem roundRatio_neg {value numerator denominator : Int} (positive : 0 < denominator)
    (nonneg : 0 ≤ value * numerator) :
    roundRatio (-value) numerator denominator = -halfUp (value * numerator) denominator := by
  have turned : -value * numerator = -(value * numerator) := Int.neg_mul _ _
  by_cases none : value * numerator = 0
  · rw [roundRatio_of_nonneg _ (by rw [turned]; omega), turned, none, Int.neg_zero,
      halfUp_zero positive, Int.neg_zero]
  · rw [roundRatio_of_neg _ (by rw [turned]; omega), turned, Int.neg_neg]

/-- The quotient of an integer by a positive one, halves away from zero. -/
theorem signed_halfUp (amount : Int) (positive : 0 < denominator) :
    (if amount < 0 then -halfUp amount.natAbs denominator else halfUp amount.natAbs denominator) =
      roundAway ((amount : ℚ) / denominator) := by
  lift denominator to Nat using by omega
  have counted : 0 < denominator := by omega
  have quotient := halfUp_natCast amount.natAbs counted
  rw [Int.cast_natCast]
  split
  next negative =>
    have absolute : amount = -(amount.natAbs : Int) := by omega
    have rational : (amount : ℚ) = -((amount.natAbs : Nat) : ℚ) := by
      calc (amount : ℚ) = ((-(amount.natAbs : Int) : Int) : ℚ) := congrArg _ absolute
        _ = -((amount.natAbs : Nat) : ℚ) := by rw [Int.cast_neg, Int.cast_natCast]
    rw [quotient, rational, neg_div, roundAway_neg]
  rename_i nonneg
  have absolute : amount = (amount.natAbs : Int) := by omega
  have rational : (amount : ℚ) = ((amount.natAbs : Nat) : ℚ) := by
    calc (amount : ℚ) = (((amount.natAbs : Nat) : Int) : ℚ) := congrArg _ absolute
      _ = ((amount.natAbs : Nat) : ℚ) := Int.cast_natCast _
  rw [quotient, rational]

/-! ## The ratio of a line -/

def lineRatioOf (shortfall : Int) (capacity : ExpansionCapacity)
    (hasInfiniteAdjustment : Bool) : Int :=
  if shortfall = 0 ∨ capacity.available shortfall ≤ 0 ∨ hasInfiniteAdjustment = true then 0
  else min (max (roundAway (((1000 * shortfall : Int) : ℚ) / capacity.available shortfall)) (-1000))
    1000

/-- The ratio before it is clamped is an `i32`. -/
def RatioFits (shortfall : Int) (capacity : ExpansionCapacity) (hasInfiniteAdjustment : Bool) :
    Prop :=
  shortfall = 0 ∨ capacity.available shortfall ≤ 0 ∨ hasInfiniteAdjustment = true ∨
    1000 * (shortfall.natAbs : Int) + capacity.available shortfall / 2 <
      capacity.available shortfall * (if shortfall < 0 then 2147483649 else 2147483648)

theorem divideScaled_eq {divisor : Int} (positive : 0 < divisor) : divideScaled value divisor 3 =
      toScaled (if 1000 * value < 0 then -halfUp (1000 * value).natAbs divisor
        else halfUp (1000 * value).natAbs divisor) := by
  have scale : value * Int.pow 10 3 = 1000 * value := Int.mul_comm _ _
  have size : ((divisor.natAbs : Nat) : Int) = divisor := by omega
  have sign : (decide (1000 * value < 0) != decide (divisor < 0)) = decide (1000 * value < 0) := by
    rw [decide_eq_false (Int.not_lt.mpr (Int.le_of_lt positive)), Bool.bne_false]
  simp only [divideScaled, scale, size, sign, halfUp, decide_eq_true_eq]

/-- The ratio of a line is the rounded and clamped one if and only if the rounded one is
an `i32`. -/
theorem lineExpansionRatio_eq_iff (shortfall : Int) (capacity : ExpansionCapacity)
    (hasInfiniteAdjustment : Bool) : lineExpansionRatio shortfall capacity hasInfiniteAdjustment =
        .ok (lineRatioOf shortfall capacity hasInfiniteAdjustment) ↔
      RatioFits shortfall capacity hasInfiniteAdjustment := by
  unfold lineExpansionRatio lineRatioOf RatioFits
  by_cases level : shortfall = 0
  · simp [level]
  rcases Bool.eq_false_or_eq_true hasInfiniteAdjustment with rfl | rfl
  · simp
  by_cases rigid : capacity.available shortfall ≤ 0
  · simp [rigid]
  generalize capacity.available shortfall = available at rigid ⊢
  have positive : 0 < available := Int.not_le.mp rigid
  simp only [level, Bool.false_eq_true, rigid, or_self, if_false, false_or]
  rw [divideScaled_eq positive, ← signed_halfUp _ positive]
  have below : halfUp (1000 * shortfall).natAbs available <
      (if shortfall < 0 then 2147483649 else 2147483648) ↔
      1000 * (shortfall.natAbs : Int) + available / 2 <
        available * (if shortfall < 0 then 2147483649 else 2147483648) := by
    have size : (((1000 * shortfall).natAbs : Nat) : Int) = 1000 * (shortfall.natAbs : Int) := by
      omega
    rw [halfUp, size, Int.ediv_lt_iff_lt_mul positive, Int.mul_comm available]
  rw [← below]
  have nonneg : 0 ≤ halfUp (1000 * shortfall).natAbs available :=
    halfUp_nonneg (by omega) positive
  generalize halfUp (1000 * shortfall).natAbs available = ratio at nonneg ⊢
  by_cases negative : shortfall < 0
  · rw [if_pos (show 1000 * shortfall < 0 by omega), if_pos negative]
    by_cases fits : ratio < 2147483649
    · refine iff_of_true ?_ fits
      rw [toScaled, if_pos ⟨by omega, by omega⟩, ok_bind]
    refine iff_of_false ?_ fits
    rw [toScaled, if_neg (by omega), error_bind]
    exact nofun
  rw [if_neg (show ¬1000 * shortfall < 0 by omega), if_neg negative]
  by_cases fits : ratio < 2147483648
  · refine iff_of_true ?_ fits
    rw [toScaled, if_pos ⟨by omega, by omega⟩, ok_bind]
  refine iff_of_false ?_ fits
  rw [toScaled, if_neg (by omega), error_bind]
  exact nofun

/-! ## The ratio of a glyph -/

structure SteppedSpec.Valid (spec : SteppedSpec) : Prop where
  step : 0 < spec.step ∧ spec.step ≤ 100
  stretch : 0 ≤ spec.stretch ∧ spec.stretch ≤ 1000
  shrink : 0 ≤ spec.shrink ∧ spec.shrink ≤ 500
  stretchStep : spec.step ∣ spec.stretch
  shrinkStep : spec.step ∣ spec.shrink

theorem floored_bounds {limit step bound : Int} (positive : 0 < step) (nonneg : 0 ≤ limit)
    (below : limit ≤ bound) : (0 ≤ limit - limit.tmod step ∧ limit - limit.tmod step ≤ bound) ∧
      step ∣ limit - limit.tmod step := by
  rw [Int.tmod_eq_emod_of_nonneg nonneg]
  have rest := Int.emod_nonneg limit (Int.ne_of_gt positive)
  have quotient := Int.emod_add_mul_ediv limit step
  have share : 0 ≤ step * (limit / step) :=
    Int.mul_nonneg (Int.le_of_lt positive) (Int.ediv_nonneg nonneg (Int.le_of_lt positive))
  exact ⟨⟨by omega, by omega⟩, Int.dvd_self_sub_emod⟩

variable {step : Int} {spec : SteppedSpec}

theorem SteppedSpec.valid_of_new {stretch shrink : Int} {autoExpand : Bool}
    (accepted : SteppedSpec.new stretch shrink step autoExpand = .ok spec) : spec.Valid := by
  unfold SteppedSpec.new at accepted
  extract_lets clamped wide narrow stretch shrink at accepted
  by_cases zero : clamped = 0
  · rw [if_pos zero] at accepted
    cases accepted
  rw [if_neg zero] at accepted
  by_cases none : stretch = 0 ∧ shrink = 0
  · rw [if_pos none] at accepted
    cases accepted
  rw [if_neg none] at accepted
  cases accepted
  have positive : 0 < clamped ∧ clamped ≤ 100 := by omega
  have wideFloor := @floored_bounds wide clamped 1000 positive.1 (by omega) (by omega)
  have narrowFloor := @floored_bounds narrow clamped 500 positive.1 (by omega) (by omega)
  exact ⟨positive, wideFloor.1, narrowFloor.1, wideFloor.2, narrowFloor.2⟩

/-- The ratio for a glyph that takes `amount` millionths of the limit. -/
def selectedStep (step limit amount : Int) : Int :=
  step * halfUp (min (halfUp (amount * limit) 1000000) limit) step

variable {limit : Int}

theorem selectedStep_mono (positive : 0 < step) (nonneg : 0 ≤ limit) (below : amount ≤ larger) :
    selectedStep step limit amount ≤ selectedStep step limit larger := by
  have products : amount * limit ≤ larger * limit := Int.mul_le_mul_of_nonneg_right below nonneg
  have requests := halfUp_mono (show (0 : Int) < 1000000 by decide) products
  exact Int.mul_le_mul_of_nonneg_left (halfUp_mono positive (by omega)) (Int.le_of_lt positive)

theorem selectedStep_nonneg (positive : 0 < step) (nonneg : 0 ≤ limit) (some : 0 ≤ amount) :
    0 ≤ selectedStep step limit amount := by
  have request := halfUp_nonneg (Int.mul_nonneg some nonneg) (show (0 : Int) < 1000000 by decide)
  exact Int.mul_nonneg (Int.le_of_lt positive) (halfUp_nonneg (by omega) positive)

theorem step_halfUp_le (positive : 0 < step) (multiple : step ∣ limit) (below : amount ≤ limit) :
    step * halfUp amount step ≤ limit := by
  obtain ⟨count, rfl⟩ := multiple
  exact Int.mul_le_mul_of_nonneg_left (halfUp_le positive below) (Int.le_of_lt positive)

theorem selectedStep_le (amount : Int) (positive : 0 < step) (multiple : step ∣ limit) :
    selectedStep step limit amount ≤ limit :=
  step_halfUp_le positive multiple (Int.min_le_right _ _)

theorem selectedStep_zero (positive : 0 < step) (nonneg : 0 ≤ limit) :
    selectedStep step limit 0 = 0 := by
  rw [selectedStep, Int.zero_mul, halfUp_zero (by decide), Int.min_eq_left nonneg,
    halfUp_zero positive, Int.mul_zero]

theorem toWide_of_bounds (low : -9223372036854775808 ≤ value) (high : value ≤ 9223372036854775807) :
    toWide value = .ok value := by
  refine if_pos ?_
  simp only [inWide, Bool.and_eq_true, decide_eq_true_eq]
  exact ⟨low, high⟩

theorem steppedMagnitude_eq (positive : 0 < step) (multiple : step ∣ limit) (nonneg : 0 ≤ amount)
    (below : amount ≤ limit) (bounded : limit ≤ 1000) :
    steppedMagnitude amount step limit = .ok (step * halfUp amount step) := by
  unfold steppedMagnitude
  have rounded : 0 ≤ halfUp amount step := halfUp_nonneg nonneg positive
  have product := step_halfUp_le positive multiple below
  have counted : halfUp amount step ≤ step * halfUp amount step :=
    le_mul_of_one_le_left rounded positive
  by_cases off : amount < limit ∧ amount.tmod step ≠ 0
  · have wide : roundRatioWide amount 1 step = .ok (halfUp amount step) := by
      rw [roundRatioWide, roundRatio_of_nonneg _ (by omega), Int.mul_one,
        toWide_of_bounds (by omega) (by omega)]
    rw [if_pos off, wide, ok_bind, Int.natAbs_of_nonneg rounded,
      toWide_of_bounds (by omega) (by omega)]
  rw [if_neg off]
  have exactly : step ∣ amount := by
    by_cases top : amount < limit
    · have zero : amount.tmod step = 0 := Classical.not_not.mp fun rest => off ⟨top, rest⟩
      exact Int.dvd_of_tmod_eq_zero zero
    have same : amount = limit := by omega
    exact same ▸ multiple
  obtain ⟨steps, rfl⟩ := exactly
  rw [halfUp_mul positive]

variable {requested : Int}

theorem nearestStep_of_nonneg (positive : 0 < step) (multiple : step ∣ limit)
    (limits : 0 ≤ limit ∧ limit ≤ 1000) (nonneg : 0 ≤ requested) :
    nearestStep requested step limit = .ok (step * halfUp (min requested limit) step) := by
  have below := step_halfUp_le positive multiple (Int.min_le_right requested limit)
  have above : 0 ≤ step * halfUp (min requested limit) step :=
    Int.mul_nonneg (Int.le_of_lt positive) (halfUp_nonneg (by omega) positive)
  rw [nearestStep, Int.natAbs_of_nonneg nonneg,
    steppedMagnitude_eq positive multiple (by omega) (Int.min_le_right _ _) limits.2, ok_bind,
    Int.min_eq_left below, toScaled, if_pos ⟨by omega, by omega⟩, ok_bind,
    if_neg (Int.not_lt.mpr nonneg)]

theorem nearestStep_neg (positive : 0 < step) (multiple : step ∣ limit)
    (limits : 0 ≤ limit ∧ limit ≤ 1000) (nonneg : 0 ≤ requested) :
    nearestStep (-requested) step limit = .ok (-(step * halfUp (min requested limit) step)) := by
  by_cases none : requested = 0
  · rw [none, Int.neg_zero, nearestStep_of_nonneg positive multiple limits (Int.le_refl 0),
      Int.min_eq_left limits.1, halfUp_zero positive, Int.mul_zero, Int.neg_zero]
  have below := step_halfUp_le positive multiple (Int.min_le_right requested limit)
  have above : 0 ≤ step * halfUp (min requested limit) step :=
    Int.mul_nonneg (Int.le_of_lt positive) (halfUp_nonneg (by omega) positive)
  rw [nearestStep, Int.natAbs_neg, Int.natAbs_of_nonneg nonneg,
    steppedMagnitude_eq positive multiple (by omega) (Int.min_le_right _ _) limits.2, ok_bind,
    Int.min_eq_left below, toScaled, if_pos ⟨by omega, by omega⟩, ok_bind, if_pos (by omega)]

/-- The amount of a line ratio and an efcode, in millionths of the limit. -/
theorem amount_bounds {ratio efcode : Int} (nonneg : 0 ≤ ratio) (bounded : ratio ≤ 1000) :
    0 ≤ ratio * clampEfcode efcode ∧ ratio * clampEfcode efcode ≤ 1000000 := by
  have clamped : 0 ≤ clampEfcode efcode ∧ clampEfcode efcode ≤ 1000 := by
    unfold clampEfcode
    omega
  exact ⟨Int.mul_nonneg nonneg clamped.1, Int.mul_le_mul bounded clamped.2 clamped.1 (by decide)⟩

theorem selected_eq (positive : 0 < step) (multiple : step ∣ limit)
    (limits : 0 ≤ limit ∧ limit ≤ 1000) (nonneg : 0 ≤ amount) (few : amount ≤ 1000000) :
    (do
      let requested ← roundRatioWide amount limit 1000000
      let selected ← nearestStep requested step limit
      toShort selected) = .ok (selectedStep step limit amount) ∧
    (do
      let requested ← roundRatioWide (-amount) limit 1000000
      let selected ← nearestStep requested step limit
      toShort selected) = .ok (-selectedStep step limit amount) := by
  have product : 0 ≤ amount * limit := Int.mul_nonneg nonneg limits.1
  have large : amount * limit ≤ 1000000 * 1000 :=
    Int.mul_le_mul few limits.2 limits.1 (by decide)
  have request : 0 ≤ halfUp (amount * limit) 1000000 := halfUp_nonneg product (by decide)
  have requested : halfUp (amount * limit) 1000000 ≤ 1000 := halfUp_le (by decide) (by omega)
  have above := selectedStep_nonneg positive limits.1 nonneg
  have below := selectedStep_le amount positive multiple
  constructor
  · rw [roundRatioWide, roundRatio_of_nonneg _ product, toWide_of_bounds (by omega) (by omega),
      ok_bind, nearestStep_of_nonneg positive multiple limits request, ok_bind]
    exact if_pos ⟨Int.le_trans (by decide) above, Int.le_trans below (by omega)⟩
  rw [roundRatioWide, roundRatio_neg (by decide) product,
    toWide_of_bounds (by omega) (by omega), ok_bind,
    nearestStep_neg positive multiple limits request, ok_bind]
  exact if_pos ⟨Int.le_trans (show -32768 ≤ -limit by omega) (Int.neg_le_neg below),
    Int.le_trans (Int.neg_nonpos_of_nonneg above) (by decide)⟩

def SteppedSpec.ratioFor (spec : SteppedSpec) (lineRatio efcode : Int) : Int :=
  if 0 ≤ lineRatio then selectedStep spec.step spec.stretch (lineRatio * clampEfcode efcode)
  else -selectedStep spec.step spec.shrink (-lineRatio * clampEfcode efcode)

variable {lineRatio : Int}

theorem SteppedSpec.Valid.discreteRatio_eq (valid : spec.Valid) (low : -1000 ≤ lineRatio)
    (high : lineRatio ≤ 1000) (efcode : Int) :
    spec.discreteRatio lineRatio efcode = .ok (spec.ratioFor lineRatio efcode) := by
  have stretchZero := selectedStep_zero valid.step.1 valid.stretch.1
  have shrinkZero := selectedStep_zero valid.step.1 valid.shrink.1
  unfold discreteRatio ratioFor
  by_cases idle : lineRatio = 0 ∨ efcode ≤ 0
  · have nothing : lineRatio * clampEfcode efcode = 0 := by
      rcases idle with rfl | rigid
      · exact Int.zero_mul _
      have none : clampEfcode efcode = 0 := by
        unfold clampEfcode
        omega
      rw [none, Int.mul_zero]
    rw [if_pos idle, Int.neg_mul, nothing, Int.neg_zero, stretchZero, shrinkZero, Int.neg_zero,
      ite_self]
  rw [if_neg idle]
  by_cases positive : 0 < lineRatio
  · have amount := @amount_bounds lineRatio efcode (Int.le_of_lt positive) high
    rw [if_pos positive, if_pos (Int.le_of_lt positive)]
    by_cases none : spec.stretch = 0
    · have bound := selectedStep_le (lineRatio * clampEfcode efcode) valid.step.1
        valid.stretchStep
      have least := selectedStep_nonneg valid.step.1 valid.stretch.1 amount.1
      rw [if_pos none]
      congr 1
      omega
    rw [if_neg none]
    exact (selected_eq valid.step.1 valid.stretchStep valid.stretch amount.1 amount.2).1
  have negative : ¬0 ≤ lineRatio := by omega
  have amount := @amount_bounds (-lineRatio) efcode (by omega) (by omega)
  rw [if_neg positive, if_neg negative]
  by_cases none : spec.shrink = 0
  · have bound := selectedStep_le (-lineRatio * clampEfcode efcode) valid.step.1
      valid.shrinkStep
    have least := selectedStep_nonneg valid.step.1 valid.shrink.1 amount.1
    rw [if_pos none]
    congr 1
    omega
  have turned : -(-lineRatio * clampEfcode efcode) = lineRatio * clampEfcode efcode := by
    rw [Int.neg_mul, Int.neg_neg]
  have limits : 0 ≤ spec.shrink ∧ spec.shrink ≤ 1000 := by
    have := valid.shrink
    omega
  have selected := (selected_eq valid.step.1 valid.shrinkStep limits amount.1 amount.2).2
  rw [turned] at selected
  rw [if_neg none]
  exact selected

theorem SteppedSpec.Valid.ratioFor_bounds (valid : spec.Valid) (low : -1000 ≤ lineRatio)
    (high : lineRatio ≤ 1000) (efcode : Int) : -spec.shrink ≤ spec.ratioFor lineRatio efcode ∧
      spec.ratioFor lineRatio efcode ≤ spec.stretch ∧
      spec.step ∣ spec.ratioFor lineRatio efcode := by
  have stretch := valid.stretch.1
  have shrink := valid.shrink.1
  unfold ratioFor
  split
  next nonneg =>
    have amount := @amount_bounds lineRatio efcode nonneg high
    have least := selectedStep_nonneg valid.step.1 stretch amount.1
    exact ⟨by omega, selectedStep_le _ valid.step.1 valid.stretchStep, Int.dvd_mul_right _ _⟩
  rename_i negative
  have amount := @amount_bounds (-lineRatio) efcode (by omega) (by omega)
  have least := selectedStep_nonneg valid.step.1 shrink amount.1
  have bound := selectedStep_le (-lineRatio * clampEfcode efcode) valid.step.1 valid.shrinkStep
  exact ⟨by omega, by omega, Int.dvd_neg.mpr (Int.dvd_mul_right _ _)⟩

variable {efcode : Int}

theorem clampEfcode_mono (below : efcode ≤ larger) : clampEfcode efcode ≤ clampEfcode larger := by
  unfold clampEfcode
  omega

theorem clampEfcode_nonneg (efcode : Int) : 0 ≤ clampEfcode efcode := by
  unfold clampEfcode
  omega

theorem SteppedSpec.Valid.ratioFor_mono (valid : spec.Valid) (low : -1000 ≤ lineRatio)
    (below : lineRatio ≤ larger) (high : larger ≤ 1000) (efcode : Int) :
    spec.ratioFor lineRatio efcode ≤ spec.ratioFor larger efcode := by
  have clamped := clampEfcode_nonneg efcode
  unfold ratioFor
  by_cases nonneg : 0 ≤ lineRatio
  · rw [if_pos nonneg, if_pos (Int.le_trans nonneg below)]
    exact selectedStep_mono valid.step.1 valid.stretch.1
      (Int.mul_le_mul_of_nonneg_right below clamped)
  have least := selectedStep_nonneg valid.step.1 valid.shrink.1
    (@amount_bounds (-lineRatio) efcode (by omega) (by omega)).1
  rw [if_neg nonneg]
  by_cases turned : 0 ≤ larger
  · have most := selectedStep_nonneg valid.step.1 valid.stretch.1
      (@amount_bounds larger efcode turned high).1
    rw [if_pos turned]
    omega
  rw [if_neg turned]
  refine Int.neg_le_neg (selectedStep_mono valid.step.1 valid.shrink.1 ?_)
  exact Int.mul_le_mul_of_nonneg_right (by omega) clamped

theorem SteppedSpec.Valid.ratioFor_mono_efcode (valid : spec.Valid) (lineRatio : Int)
    (below : efcode ≤ larger) :
    (0 ≤ lineRatio → spec.ratioFor lineRatio efcode ≤ spec.ratioFor lineRatio larger) ∧
      (lineRatio ≤ 0 → spec.ratioFor lineRatio larger ≤ spec.ratioFor lineRatio efcode) := by
  have clamped := clampEfcode_mono below
  unfold ratioFor
  by_cases nonneg : 0 ≤ lineRatio
  · rw [if_pos nonneg, if_pos nonneg]
    refine ⟨fun _ => selectedStep_mono valid.step.1 valid.stretch.1
      (Int.mul_le_mul_of_nonneg_left clamped nonneg), fun nonpos => ?_⟩
    have level : lineRatio = 0 := by omega
    rw [level, Int.zero_mul, Int.zero_mul]
  rw [if_neg nonneg, if_neg nonneg]
  refine ⟨fun impossible => absurd impossible nonneg, fun _ => ?_⟩
  exact Int.neg_le_neg (selectedStep_mono valid.step.1 valid.shrink.1
    (Int.mul_le_mul_of_nonneg_left clamped (by omega)))

/-! ## The capacities of a metric -/

theorem roundRatio_at {natural ratio : Int} (range : -500 ≤ ratio ∧ ratio ≤ 1000) :
    roundRatio natural (1000 + ratio) 1000 =
      if 0 ≤ natural then halfUp (natural * (1000 + ratio)) 1000
      else -halfUp (-natural * (1000 + ratio)) 1000 := by
  by_cases nonneg : 0 ≤ natural
  · rw [if_pos nonneg, roundRatio_of_nonneg _ (Int.mul_nonneg nonneg (by omega))]
  have turned := @roundRatio_neg (-natural) (1000 + ratio) 1000 (by decide)
    (Int.mul_nonneg (by omega) (by omega))
  rw [Int.neg_neg] at turned
  rw [if_neg nonneg, turned]

theorem halfUp_at_bounds {natural ratio : Int} (nonneg : 0 ≤ natural)
    (range : -500 ≤ ratio ∧ ratio ≤ 1000) : 0 ≤ halfUp (natural * (1000 + ratio)) 1000 ∧
      halfUp (natural * (1000 + ratio)) 1000 ≤ 2 * natural ∧
      (0 ≤ ratio → natural ≤ halfUp (natural * (1000 + ratio)) 1000) ∧
      (ratio ≤ 0 → halfUp (natural * (1000 + ratio)) 1000 ≤ natural) := by
  have whole : halfUp (natural * 1000) 1000 = natural := by
    rw [Int.mul_comm]
    exact halfUp_mul (by decide)
  have double : natural * (1000 + ratio) ≤ natural * 2000 :=
    Int.mul_le_mul_of_nonneg_left (by omega) nonneg
  refine ⟨halfUp_nonneg (Int.mul_nonneg nonneg (by omega)) (by decide),
    halfUp_le (by decide) (by omega), fun grows => ?_, fun shrinks => ?_⟩
  · have larger := halfUp_mono (show (0 : Int) < 1000 by decide)
      (Int.mul_le_mul_of_nonneg_left (show 1000 ≤ 1000 + ratio by omega) nonneg)
    rwa [whole] at larger
  have smaller := halfUp_mono (show (0 : Int) < 1000 by decide)
    (Int.mul_le_mul_of_nonneg_left (show 1000 + ratio ≤ 1000 by omega) nonneg)
  rwa [whole] at smaller

/-- The full width that a metric gains at a ratio, none where it is negative. -/
def gainAt (natural ratio : Int) : Int := roundRatio natural (1000 + ratio) 1000 - natural

theorem gainAt_bounds {natural ratio : Int} (range : -500 ≤ ratio ∧ ratio ≤ 1000)
    (low : -1073741824 < natural) (high : natural < 1073741824) :
    scaledAtRatio natural ratio = .ok (natural + gainAt natural ratio) ∧
      -1073741824 < gainAt natural ratio ∧ gainAt natural ratio < 1073741824 := by
  have value := @roundRatio_at natural ratio range
  have bounds : -2147483648 ≤ roundRatio natural (1000 + ratio) 1000 ∧
      roundRatio natural (1000 + ratio) 1000 ≤ 2147483647 ∧
      -1073741824 < gainAt natural ratio ∧ gainAt natural ratio < 1073741824 := by
    unfold gainAt
    rw [value]
    split
    next nonneg =>
      have bounds := halfUp_at_bounds nonneg range
      omega
    next negative =>
      have bounds := @halfUp_at_bounds (-natural) ratio (by omega) range
      omega
  refine ⟨?_, bounds.2.2⟩
  rw [scaledAtRatio, scaledRatio, toScaled, if_pos ⟨bounds.1, bounds.2.1⟩]
  congr 1
  unfold gainAt
  omega

def capacityOf (gain efcode : Int) : Int := halfUp (max gain 0 * clampEfcode efcode) 1000

theorem capacityOf_nonneg (gain efcode : Int) : 0 ≤ capacityOf gain efcode :=
  halfUp_nonneg (Int.mul_nonneg (Int.le_max_right _ _) (clampEfcode_nonneg efcode)) (by decide)

theorem capacityOf_mono (gain : Int) (below : efcode ≤ larger) :
    capacityOf gain efcode ≤ capacityOf gain larger :=
  halfUp_mono (by decide)
    (Int.mul_le_mul_of_nonneg_left (clampEfcode_mono below) (Int.le_max_right _ _))

theorem positiveScaledRatio_eq {gain : Int} (small : gain < 1073741824) (efcode : Int) :
    positiveScaledRatio gain (clampEfcode efcode) 1000 = .ok (capacityOf gain efcode) := by
  have clamped : 0 ≤ clampEfcode efcode ∧ clampEfcode efcode ≤ 1000 := by
    unfold clampEfcode
    omega
  unfold positiveScaledRatio capacityOf
  split
  next rigid => rw [Int.max_eq_right rigid, Int.zero_mul, halfUp_zero (by decide)]
  rename_i gains
  have product : 0 ≤ gain * clampEfcode efcode := Int.mul_nonneg (by omega) clamped.1
  have share : gain * clampEfcode efcode ≤ 1000 * gain := by
    rw [Int.mul_comm 1000]
    exact Int.mul_le_mul_of_nonneg_left clamped.2 (by omega)
  have least := halfUp_nonneg product (show (0 : Int) < 1000 by decide)
  have most := halfUp_le (show (0 : Int) < 1000 by decide) share
  rw [Int.max_eq_left (by omega), scaledRatio, roundRatio_of_nonneg _ product, toScaled,
    if_pos ⟨by omega, by omega⟩]

theorem SteppedSpec.Valid.forMetric_eq (valid : spec.Valid) {natural : Int}
    (low : -1073741824 < natural) (high : natural < 1073741824) (efcode : Int) :
    ExpansionCapacity.forMetric natural spec efcode =
      .ok { stretch := capacityOf (gainAt natural spec.stretch) efcode
            shrink := capacityOf (-gainAt natural (-spec.shrink)) efcode } := by
  have stretch := valid.stretch
  have shrink := valid.shrink
  have wider := @gainAt_bounds natural spec.stretch (by omega) low high
  have narrower := @gainAt_bounds natural (-spec.shrink) (by omega) low high
  unfold ExpansionCapacity.forMetric
  by_cases none : clampEfcode efcode = 0
  · simp only [none, if_true, capacityOf, Int.mul_zero, halfUp_zero (show (0 : Int) < 1000 by decide)]
  have gained : natural + gainAt natural spec.stretch - natural = gainAt natural spec.stretch := by
    omega
  have lost : natural - (natural + gainAt natural (-spec.shrink)) =
      -gainAt natural (-spec.shrink) := by omega
  have most : -gainAt natural (-spec.shrink) < 1073741824 := by omega
  simp only [none, if_false, wider.1, narrower.1, ok_bind, gained, lost]
  rw [toScaled, if_pos ⟨by omega, by omega⟩, ok_bind, positiveScaledRatio_eq wider.2.2, ok_bind,
    toScaled, if_pos ⟨by omega, by omega⟩, ok_bind, positiveScaledRatio_eq most, ok_bind]

/-! ## Font expansion as a whole -/

/-- Font expansion is total, bounded and monotone, but for the conversion of a ratio that is
not clamped yet. -/
theorem expansion_arithmetic (shortfall : Int) (capacity : ExpansionCapacity)
    (hasInfiniteAdjustment : Bool) (stretch shrink step : Int) (autoExpand : Bool)
    (spec : SteppedSpec) : (lineExpansionRatio shortfall capacity hasInfiniteAdjustment =
        .ok (lineRatioOf shortfall capacity hasInfiniteAdjustment) ↔
      RatioFits shortfall capacity hasInfiniteAdjustment) ∧
    (SteppedSpec.new stretch shrink step autoExpand = .ok spec →
      (∀ lineRatio efcode, -1000 ≤ lineRatio → lineRatio ≤ 1000 →
        ∃ selected, spec.discreteRatio lineRatio efcode = .ok selected ∧
          -spec.shrink ≤ selected ∧ selected ≤ spec.stretch ∧ spec.step ∣ selected ∧
          (lineRatio = 0 → selected = 0) ∧ (∀ larger, lineRatio ≤ larger → larger ≤ 1000 →
            ∃ more, spec.discreteRatio larger efcode = .ok more ∧ selected ≤ more) ∧
          ∀ larger, efcode ≤ larger → ∃ further, spec.discreteRatio lineRatio larger = .ok further ∧
              (0 ≤ lineRatio → selected ≤ further) ∧ (lineRatio ≤ 0 → further ≤ selected)) ∧
      ∀ natural efcode, -1073741824 < natural → natural < 1073741824 →
        ∃ capacity, ExpansionCapacity.forMetric natural spec efcode = .ok capacity ∧
          0 ≤ capacity.stretch ∧ 0 ≤ capacity.shrink ∧ ∀ larger, efcode ≤ larger →
            ∃ more, ExpansionCapacity.forMetric natural spec larger = .ok more ∧
              capacity.stretch ≤ more.stretch ∧ capacity.shrink ≤ more.shrink) := by
  refine ⟨lineExpansionRatio_eq_iff _ _ _, fun accepted => ?_⟩
  have valid := SteppedSpec.valid_of_new accepted
  refine ⟨fun lineRatio efcode low high => ?_, fun natural efcode low high => ?_⟩
  · have bounds := valid.ratioFor_bounds low high efcode
    refine ⟨_, valid.discreteRatio_eq low high efcode, bounds.1, bounds.2.1, bounds.2.2, ?_, ?_, ?_⟩
    · rintro rfl
      rw [SteppedSpec.ratioFor, if_pos (Int.le_refl 0), Int.zero_mul,
        selectedStep_zero valid.step.1 valid.stretch.1]
    · intro larger below top
      exact ⟨_, valid.discreteRatio_eq (Int.le_trans low below) top efcode,
        valid.ratioFor_mono low below top efcode⟩
    intro larger below
    exact ⟨_, valid.discreteRatio_eq low high larger, valid.ratioFor_mono_efcode lineRatio below⟩
  refine ⟨_, valid.forMetric_eq low high efcode, capacityOf_nonneg _ _, capacityOf_nonneg _ _, ?_⟩
  intro larger below
  exact ⟨_, valid.forMetric_eq low high larger, capacityOf_mono _ below, capacityOf_mono _ below⟩

theorem expansion_arithmetic_sample :
    (lineExpansionRatio 500 ⟨2000, 1000⟩ false = .ok (lineRatioOf 500 ⟨2000, 1000⟩ false) ↔
      RatioFits 500 ⟨2000, 1000⟩ false) ∧
    ∃ selected, SteppedSpec.discreteRatio ⟨⟨100, 50⟩, 10, true⟩ 250 800 = .ok selected ∧
      -50 ≤ selected := by
  have accepted : SteppedSpec.new 100 50 10 true = .ok ⟨⟨100, 50⟩, 10, true⟩ := rfl
  obtain ⟨ratio, stepped⟩ := expansion_arithmetic 500 ⟨2000, 1000⟩ false _ _ _ _ _
  refine ⟨ratio, ?_⟩
  obtain ⟨selected, found, low, _⟩ := (stepped accepted).1 250 800 (by decide) (by decide)
  exact ⟨selected, found, low⟩

/-- A line short by more than two million times its capacity: the ratio would be clamped to
one thousand, but its conversion fails before. -/
theorem large_ratio_is_not_converted :
    lineExpansionRatio 1000000000 ⟨1, 0⟩ false = .error .scaledOverflow ∧
      lineExpansionRatio 1000000000 ⟨1, 0⟩ false ≠ .ok (lineRatioOf 1000000000 ⟨1, 0⟩ false) := by
  have fails : lineExpansionRatio 1000000000 ⟨1, 0⟩ false = .error .scaledOverflow := rfl
  refine ⟨fails, ?_⟩
  rw [fails]
  exact nofun

end Umber.Typeset
