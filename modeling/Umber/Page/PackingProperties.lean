import Umber.Page.GlueProperties
import Umber.Page.Packing
import Mathlib.Data.Nat.Cast.Field

/-! The glue a packed box is set with makes its children fill the box exactly. -/

set_option autoImplicit false

open Significand

namespace Umber.Page

/-! ## A ratio and the total it was made from -/

/-- Two roundings of a quotient and of its product with the divisor stay within
a half of the dividend; the divisor may be one below the factor, where its
magnitude was saturated. -/
theorem nearest_product_near {dividend divisor factor : ℕ} (small : dividend ≤ 1000000000)
    (positive : 0 < divisor)
    (saturated : factor = divisor ∨ (factor = divisor + 1 ∧ divisor = 2147483647)) :
    |nearest 53 (nearest 53 ((dividend : ℚ) / divisor) * factor) - dividend| < 1 / 2 := by
  have divisorPositive : (0 : ℚ) < divisor := by exact_mod_cast positive
  have quotientNonneg : (0 : ℚ) ≤ dividend / divisor := by positivity
  have factorNonneg : (0 : ℚ) ≤ factor := Nat.cast_nonneg _
  have dividendSmall : (dividend : ℚ) ≤ 1000000000 := by exact_mod_cast small
  have first := nearest_relative_error 53 quotientNonneg
  have rounded := nearest_nonneg 53 quotientNonneg
  have second := nearest_relative_error 53 (mul_nonneg rounded factorNonneg)
  have product : |(dividend : ℚ) / divisor * factor -
      nearest 53 ((dividend : ℚ) / divisor) * factor| * 2 ^ 53 ≤
        (dividend : ℚ) / divisor * factor := by
    rw [← sub_mul, abs_mul, abs_of_nonneg factorNonneg]
    calc |(dividend : ℚ) / divisor - nearest 53 ((dividend : ℚ) / divisor)| * factor * 2 ^ 53 =
          |(dividend : ℚ) / divisor - nearest 53 ((dividend : ℚ) / divisor)| * 2 ^ 53 * factor := by
          ring
      _ ≤ (dividend : ℚ) / divisor * factor := mul_le_mul_of_nonneg_right first factorNonneg
  have exact : (dividend : ℚ) ≤ (dividend : ℚ) / divisor * factor ∧
      (dividend : ℚ) / divisor * factor ≤ dividend + 47 / 100 := by
    rcases saturated with rfl | ⟨rfl, rfl⟩
    · rw [div_mul_cancel₀ _ divisorPositive.ne']
      constructor <;> linarith
    push_cast
    constructor <;> linarith
  obtain ⟨lower, upper⟩ := exact
  generalize (dividend : ℚ) / divisor * factor = whole at product lower upper
  generalize nearest 53 ((dividend : ℚ) / divisor) * factor = inner at product second
  obtain ⟨productLow, productHigh⟩ := abs_le.mp
    (le_div_iff₀ (by norm_num : (0 : ℚ) < 2 ^ 53) |>.mpr product)
  obtain ⟨secondLow, secondHigh⟩ := abs_le.mp
    (le_div_iff₀ (by norm_num : (0 : ℚ) < 2 ^ 53) |>.mpr second)
  rw [abs_lt]
  constructor <;> linarith

theorem saturatingAbs_of_small {value : Int32} (small : value.toInt.natAbs ≤ 1000000000) :
    saturatingAbs value = value.toInt.natAbs := by
  unfold saturatingAbs
  omega

/-- The magnitudes of a reduced ratio keep their quotient. -/
theorem reducedRatio_quotient (negative : Bool) (numerator denominator : ℕ)
    (positive : 0 < denominator) (small : numerator ≤ 2147483647)
    (bounded : denominator ≤ 2147483647) :
    ((reducedRatio negative numerator denominator positive small bounded).numerator.toInt.natAbs
        : ℚ) / (reducedRatio negative numerator denominator positive small
        bounded).denominator.toInt.natAbs = (numerator : ℚ) / denominator := by
  have fits : numerator / numerator.gcd denominator ≤ 2147483647 :=
    Nat.le_trans (Nat.div_le_self _ _) small
  have fitsBelow : denominator / numerator.gcd denominator ≤ 2147483647 :=
    Nat.le_trans (Nat.div_le_self _ _) bounded
  have divisor : (numerator.gcd denominator : ℚ) ≠ 0 := by
    exact_mod_cast (Nat.gcd_pos_of_pos_right numerator positive).ne'
  rw [reducedRatio]
  dsimp only
  rw [toInt_ofInt_signed fits, natAbs_signed, toInt_ofInt_nat fitsBelow, Int.natAbs_natCast,
    Nat.cast_div (Nat.gcd_dvd_left _ _) divisor, Nat.cast_div (Nat.gcd_dvd_right _ _) divisor,
    div_div_div_cancel_right₀ divisor]

theorem reducedRatio_sign (negative : Bool) (numerator denominator : ℕ)
    (positive : 0 < denominator) (small : numerator ≤ 2147483647)
    (bounded : denominator ≤ 2147483647) (nonzero : 0 < numerator) :
    (reducedRatio negative numerator denominator positive small bounded).numerator.toInt.sign =
      if negative then -1 else 1 := by
  have fits : numerator / numerator.gcd denominator ≤ 2147483647 :=
    Nat.le_trans (Nat.div_le_self _ _) small
  have quotient : 0 < numerator / numerator.gcd denominator :=
    Nat.div_pos (Nat.le_of_dvd nonzero (Nat.gcd_dvd_left _ _))
      (Nat.gcd_pos_of_pos_right _ positive)
  rw [reducedRatio]
  dsimp only
  rw [toInt_ofInt_signed fits]
  generalize numerator / numerator.gcd denominator = magnitude at quotient
  cases negative with
  | false => exact Int.sign_eq_one_of_pos (by simpa using quotient)
  | true => exact Int.sign_eq_neg_one_of_neg (by simpa using quotient)

/-- A total of the magnitude a ratio was made with is set to the excess, with
the sign of the total's change. -/
theorem roundedGlueSet_fromRatioParts {excess total curGlue : Scaled} (positive : 0 < excess.toInt)
    (small : excess.toInt ≤ 1000000000) (nonzero : total ≠ 0) {sign : ℤ}
    (unit : sign = 1 ∨ sign = -1) (value : curGlue.toInt = sign * total.toInt) :
    (roundedGlueSet (.fromRatioParts excess total) curGlue).toInt = sign * excess.toInt := by
  have excessNonzero : excess ≠ 0 := by
    rintro rfl
    exact absurd positive (by decide)
  have totalNonzero : total.toInt ≠ 0 := fun zero => nonzero (Int32.toInt_inj.mp zero)
  have low := total.le_toInt
  have high := total.toInt_lt
  have magnitude : excess.toInt.natAbs ≤ 1000000000 := by omega
  have excessMagnitude := saturatingAbs_of_small magnitude
  have factor : curGlue.toInt.natAbs = total.toInt.natAbs := by
    rw [value]
    rcases unit with rfl | rfl
    · rw [one_mul]
    · rw [neg_one_mul, Int.natAbs_neg]
  have saturated : total.toInt.natAbs = saturatingAbs total ∨
      (total.toInt.natAbs = saturatingAbs total + 1 ∧ saturatingAbs total = 2147483647) := by
    unfold saturatingAbs
    omega
  have near := nearest_product_near magnitude (saturatingAbs_pos nonzero) saturated
  have quotient := reducedRatio_quotient
    (decide (excess.toInt < 0) != decide (total.toInt < 0)) (saturatingAbs excess)
    (saturatingAbs total) (saturatingAbs_pos nonzero) (Nat.min_le_right _ _) (Nat.min_le_right _ _)
  have signs := reducedRatio_sign
    (decide (excess.toInt < 0) != decide (total.toInt < 0)) (saturatingAbs excess)
    (saturatingAbs total) (saturatingAbs_pos nonzero) (Nat.min_le_right _ _) (Nat.min_le_right _ _)
    (saturatingAbs_pos excessNonzero)
  have setting : settingMagnitude (.fromRatioParts excess total) curGlue = excess.toInt := by
    have floor : ⌊binary64Product (.fromRatioParts excess total) curGlue + 1 / 2⌋ =
        excess.toInt.natAbs := by
      rw [binary64Product, GlueSetRatio.fromRatioParts, dif_pos ⟨excessNonzero, nonzero⟩, quotient,
        factor, excessMagnitude, Int.floor_eq_iff]
      obtain ⟨lower, upper⟩ := abs_lt.mp near
      simp only [Int.cast_natCast]
      constructor <;> linarith
    rw [settingMagnitude, floor, min_eq_left (by omega)]
    omega
  rw [toInt_roundedGlueSet, setting, Int.sign_mul, GlueSetRatio.fromRatioParts,
    dif_pos ⟨excessNonzero, nonzero⟩, signs, value, Int.sign_mul]
  have same : sign.sign = sign := by rcases unit with rfl | rfl <;> rfl
  have excessSign : decide (excess.toInt < 0) = false := decide_eq_false (by omega)
  rw [same, excessSign]
  rcases Int.lt_or_gt_of_ne totalNonzero with negative | above
  · rw [decide_eq_true negative, if_pos (by decide), Int.sign_eq_neg_one_of_neg negative]
    ring
  rw [decide_eq_false (by omega), if_neg (by decide), Int.sign_eq_one_of_pos above]
  ring

theorem roundedGlueSet_zero (curGlue : Scaled) : (roundedGlueSet .zero curGlue).toInt = 0 := by
  rw [toInt_roundedGlueSet]
  simp [GlueSetRatio.zero]

variable {curGlue : Scaled}

/-- A unit ratio leaves a total of at most a billion as it is. -/
theorem roundedGlueSet_unity (small : curGlue.toInt.natAbs ≤ 1000000000) :
    (roundedGlueSet .unity curGlue).toInt = curGlue.toInt := by
  have one : nearest 53 1 = 1 :=
    nearest_of_representable (by decide) (by norm_num) ⟨1, 0, by norm_num, by norm_num⟩
  have whole : nearest 53 (curGlue.toInt.natAbs : ℚ) = curGlue.toInt.natAbs :=
    nearest_of_representable (by decide) (Nat.cast_nonneg _)
      ⟨curGlue.toInt.natAbs, 0, by omega, by simp⟩
  have product : binary64Product .unity curGlue = curGlue.toInt.natAbs := by
    have ratio : ((GlueSetRatio.unity.numerator.toInt.natAbs : ℚ) /
        GlueSetRatio.unity.denominator.toInt.natAbs) = 1 := by
      simp [GlueSetRatio.unity]
    rw [binary64Product, ratio, one, one_mul, whole]
  have floor : ⌊(curGlue.toInt.natAbs : ℚ) + 1 / 2⌋ = curGlue.toInt.natAbs := by
    rw [Int.floor_natCast_add]
    norm_num
  have numerator : GlueSetRatio.unity.numerator.toInt = 1 := rfl
  rw [toInt_roundedGlueSet, settingMagnitude, product, floor, numerator, one_mul,
    min_eq_left (by omega)]
  exact Int.sign_mul_natAbs _

/-! ## The setting of a list -/

def settingTotal (sign : GlueSign) (total : ℤ) : ℤ :=
  if sign = .stretching then total else -total

variable {diff : ℤ} {sign : GlueSign} {totals : OrderTotals}

theorem settingOf_spec {glue : GlueSetting} (set : settingOf diff sign totals = some glue) :
    glue.sign = sign ∧ glue.order = highestOrder totals ∧ glue.excess.toInt = diff.natAbs ∧
      ((glue.ratio = (if totals.get (highestOrder totals) = 0 then .zero
            else .fromRatioParts glue.excess (totals.get (highestOrder totals))) ∧
          glue.overfullExcess = 0 ∧ ¬(sign = .shrinking ∧ highestOrder totals = .normal ∧
            totals.get (highestOrder totals) < glue.excess)) ∨
        (glue.ratio = (if totals.get (highestOrder totals) = 0 then .zero else .unity) ∧
          glue.overfullExcess.toInt = glue.excess.toInt - (totals.get (highestOrder totals)).toInt ∧
          sign = .shrinking ∧ highestOrder totals = .normal ∧
            totals.get (highestOrder totals) < glue.excess)) := by
  simp only [settingOf, Option.bind_eq_bind, Option.bind_eq_some_iff, Option.some.injEq] at set
  obtain ⟨excess, measured, overfullExcess, computed, rfl⟩ := set
  have value := toInt_of_scaledOfInt measured
  refine ⟨rfl, rfl, value, ?_⟩
  dsimp only
  by_cases overfull : sign = .shrinking ∧ highestOrder totals = .normal ∧
      totals.get (highestOrder totals) < excess
  · right
    obtain ⟨shrinking, normal, short⟩ := overfull
    have test : (decide (sign = .shrinking) && decide (highestOrder totals = .normal) &&
        decide (totals.get (highestOrder totals) < excess)) = true := by
      simp [shrinking, normal]
      rwa [normal] at short
    rw [excessBeyond, if_pos test] at computed
    refine ⟨?_, toInt_of_scaledOfInt computed, shrinking, normal, short⟩
    rw [if_pos test]
  left
  have test : ¬(decide (sign = .shrinking) && decide (highestOrder totals = .normal) &&
      decide (totals.get (highestOrder totals) < excess)) = true := by
    simpa [and_assoc] using overfull
  rw [excessBeyond, if_neg test] at computed
  cases computed
  refine ⟨?_, rfl, overfull⟩
  rw [if_neg test]

/-- What setting the glue of a list does to its running total: the total becomes
the missing size, or falls short of it by the reported excess. -/
theorem settingOf_fills {glue : GlueSetting} (set : settingOf diff sign totals = some glue)
    (small : diff.natAbs ≤ 1000000000)
    (direction : (sign = .stretching ∧ 0 < diff) ∨ (sign = .shrinking ∧ diff < 0))
    (value : curGlue.toInt = settingTotal sign (totals.get (highestOrder totals)).toInt) :
    (totals.get (highestOrder totals) ≠ 0 → glue.overfullExcess = 0 →
      (roundedGlueSet glue.ratio curGlue).toInt = diff) ∧
    (glue.overfullExcess ≠ 0 → -1000000000 ≤ (totals.get (highestOrder totals)).toInt →
      (roundedGlueSet glue.ratio curGlue).toInt = diff + glue.overfullExcess.toInt) := by
  obtain ⟨-, -, excess, outcome⟩ := settingOf_spec set
  generalize totals.get (highestOrder totals) = total at value outcome
  rcases outcome with ⟨ratio, none, -⟩ | ⟨ratio, short, shrinking, -, below⟩
  · refine ⟨fun nonzero _ => ?_, fun overfull => absurd none overfull⟩
    rw [ratio, if_neg nonzero]
    rcases direction with ⟨stretching, positive⟩ | ⟨shrinking, negative⟩
    · rw [settingTotal, if_pos stretching] at value
      rw [@roundedGlueSet_fromRatioParts _ _ _ (by omega) (by omega) nonzero 1 (Or.inl rfl)
        (by omega)]
      omega
    rw [settingTotal, if_neg (by rw [shrinking]; decide)] at value
    rw [@roundedGlueSet_fromRatioParts _ _ _ (by omega) (by omega) nonzero (-1) (Or.inr rfl)
      (by omega)]
    omega
  have belowExcess : total.toInt < glue.excess.toInt := Int32.lt_iff_toInt_lt.mp below
  have negative : diff < 0 := by
    rcases direction with ⟨stretching, -⟩ | ⟨-, negative⟩
    · rw [shrinking] at stretching
      cases stretching
    · exact negative
  rw [settingTotal, if_neg (by rw [shrinking]; decide)] at value
  constructor
  · intro _ full
    rw [full] at short
    change (0 : ℤ) = _ at short
    omega
  intro _ limit
  rw [ratio]
  by_cases zero : total = 0
  · have totalZero : total.toInt = 0 := by rw [zero]; rfl
    rw [if_pos zero, roundedGlueSet_zero]
    omega
  rw [if_neg zero, roundedGlueSet_unity (by omega)]
  omega

/-! ## Measured lists -/

def PackedNode.spec? : PackedNode → Option GlueSpec
  | .glue spec _ => some spec
  | _ => none

def glueSpecs (nodes : List PackedNode) : List GlueSpec := nodes.filterMap PackedNode.spec?

theorem glueSpecs_cons (node : PackedNode) (nodes : List PackedNode) :
    glueSpecs (node :: nodes) = glueSpecs [node] ++ glueSpecs nodes := by
  rw [glueSpecs, ← List.singleton_append, List.filterMap_append]
  rfl

theorem glueSpecs_glue (spec : GlueSpec) (leader : Option LeaderPayload) :
    glueSpecs [.glue spec leader] = [spec] := rfl

def extentTotal (extent : PackedNode → ℤ) (nodes : List PackedNode) : ℤ :=
  (nodes.map extent).sum

/-- A measurement that has gone on over some nodes: the size has grown by their
extents and the widths of their glue, and the totals by their glue. -/
structure Measures (size : ListMetrics → ℤ) (extent : PackedNode → ℤ) (meas : ListMetrics)
    (nodes : List PackedNode) (result : ListMetrics) : Prop where
  sized : size result = size meas + extentTotal extent nodes + naturalTotal (glueSpecs nodes)
  stretch : ∀ order, (result.stretch.get order).toInt =
    (meas.stretch.get order).toInt + setTotal .stretching order (glueSpecs nodes)
  shrink : ∀ order, (result.shrink.get order).toInt =
    (meas.shrink.get order).toInt - setTotal .shrinking order (glueSpecs nodes)

theorem Measures.nil (size : ListMetrics → ℤ) (extent : PackedNode → ℤ) (meas : ListMetrics) :
    Measures size extent meas [] meas where
  sized := by simp [extentTotal, glueSpecs, naturalTotal]
  stretch := by simp [glueSpecs, setTotal]
  shrink := by simp [glueSpecs, setTotal]

theorem Measures.cons {size : ListMetrics → ℤ} {extent : PackedNode → ℤ}
    {meas next result : ListMetrics} {node : PackedNode} {nodes : List PackedNode}
    (first : Measures size extent meas [node] next)
    (rest : Measures size extent next nodes result) :
    Measures size extent meas (node :: nodes) result := by
  have split := glueSpecs_cons node nodes
  have totals : ∀ sign order, setTotal sign order (glueSpecs (node :: nodes)) =
      setTotal sign order (glueSpecs [node]) + setTotal sign order (glueSpecs nodes) := by
    intro sign order
    rw [split, setTotal, List.map_append, List.sum_append]
    rfl
  have natural : naturalTotal (glueSpecs (node :: nodes)) =
      naturalTotal (glueSpecs [node]) + naturalTotal (glueSpecs nodes) := by
    rw [split, naturalTotal, List.map_append, List.sum_append]
    rfl
  have extents : extentTotal extent (node :: nodes) =
      extentTotal extent [node] + extentTotal extent nodes := by
    simp [extentTotal]
  constructor
  · rw [rest.sized, first.sized, natural, extents]
    ring
  · intro order
    rw [rest.stretch, first.stretch, totals]
    ring
  intro order
  rw [rest.shrink, first.shrink, totals]
  ring

variable {size : ListMetrics → ℤ} {extent : PackedNode → ℤ} {meas result : ListMetrics}
  {node : PackedNode}

theorem Measures.extended (plain : node.spec? = none)
    (sized : size result = size meas + extent node) (stretch : result.stretch = meas.stretch)
    (shrink : result.shrink = meas.shrink) : Measures size extent meas [node] result where
  sized := by simp [glueSpecs, plain, naturalTotal, extentTotal, sized]
  stretch := by simp [glueSpecs, plain, setTotal, stretch]
  shrink := by simp [glueSpecs, plain, setTotal, shrink]

theorem OrderTotals.get_set (totals : OrderTotals) (order other : GlueOrder) (value : Scaled) :
    (totals.set order value).get other = if order = other then value else totals.get other := by
  cases order <;> cases other <;> rfl

variable {amount : Scaled}

theorem OrderTotals.get_add {result : OrderTotals} {order : GlueOrder}
    (added : totals.add order amount = some result) (other : GlueOrder) : (result.get other).toInt =
      (totals.get other).toInt + if order = other then amount.toInt else 0 := by
  simp only [OrderTotals.add, Option.bind_eq_bind, Option.bind_eq_some_iff,
    Option.some.injEq] at added
  obtain ⟨sum, computed, rfl⟩ := added
  rw [OrderTotals.get_set]
  split
  · rename_i same
    rw [toInt_of_scaledOfInt computed, same]
  · rw [add_zero]

variable {spec : GlueSpec}

/-- A glue node: its width extends the size and its amounts the totals. -/
theorem Measures.glue {spaced glued : ListMetrics} {leader : Option LeaderPayload}
    (still : extent (.glue spec leader) = 0) (glueAdded : spaced.addGlue spec = some glued)
    (sized : size result = size meas + spec.width.toInt) (stretch : spaced.stretch = meas.stretch)
    (shrink : spaced.shrink = meas.shrink) (resultStretch : result.stretch = glued.stretch)
    (resultShrink : result.shrink = glued.shrink) :
    Measures size extent meas [.glue spec leader] result := by
  simp only [ListMetrics.addGlue, Option.bind_eq_bind, Option.bind_eq_some_iff,
    Option.some.injEq] at glueAdded
  obtain ⟨stretched, stretchAdded, shrunk, shrinkAdded, rfl⟩ := glueAdded
  constructor
  · simp [glueSpecs, PackedNode.spec?, naturalTotal, extentTotal, still, sized]
  · intro order
    rw [resultStretch, OrderTotals.get_add stretchAdded, stretch]
    simp [glueSpecs, PackedNode.spec?, setTotal, setAmount]
  intro order
  rw [resultShrink, OrderTotals.get_add shrinkAdded, shrink]
  simp [glueSpecs, PackedNode.spec?, setTotal, setAmount]
  split <;> simp

/-! ## Horizontal and vertical measurement -/

variable {width height depth : Scaled}

theorem appendHorizontal_measures (plain : node.spec? = none) (extended : extent node = width.toInt)
    (appended : meas.appendHorizontal width height depth = some result) :
    Measures (fun meas => meas.width.toInt) extent meas [node] result := by
  simp only [ListMetrics.appendHorizontal, Option.bind_eq_bind, Option.bind_eq_some_iff,
    Option.some.injEq] at appended
  obtain ⟨total, added, rfl⟩ := appended
  refine Measures.extended plain ?_ rfl rfl
  rw [extended]
  exact toInt_of_scaledOfInt added

theorem appendSpace_measures (plain : node.spec? = none) (extended : extent node = amount.toInt)
    (appended : meas.appendSpace amount = some result) :
    Measures (fun meas => meas.width.toInt) extent meas [node] result := by
  simp only [ListMetrics.appendSpace, Option.bind_eq_bind, Option.bind_eq_some_iff,
    Option.some.injEq] at appended
  obtain ⟨total, added, rfl⟩ := appended
  refine Measures.extended plain ?_ rfl rfl
  rw [extended]
  exact toInt_of_scaledOfInt added

theorem hleaderDimensions_keeps (meas : ListMetrics) (leader : Option LeaderPayload) :
    (meas.hleaderDimensions leader).width = meas.width ∧
      (meas.hleaderDimensions leader).stretch = meas.stretch ∧
      (meas.hleaderDimensions leader).shrink = meas.shrink := by
  cases leader with
  | none => exact ⟨rfl, rfl, rfl⟩
  | some payload => cases payload <;> exact ⟨rfl, rfl, rfl⟩

theorem vleaderDimensions_keeps (meas : ListMetrics) (leader : Option LeaderPayload) :
    (meas.vleaderDimensions leader).height = meas.height ∧
      (meas.vleaderDimensions leader).depth = meas.depth ∧
      (meas.vleaderDimensions leader).stretch = meas.stretch ∧
      (meas.vleaderDimensions leader).shrink = meas.shrink := by
  cases leader with
  | none => exact ⟨rfl, rfl, rfl, rfl⟩
  | some payload => cases payload <;> exact ⟨rfl, rfl, rfl, rfl⟩

theorem addGlue_keeps (added : meas.addGlue spec = some result) :
    result.width = meas.width ∧ result.height = meas.height ∧ result.depth = meas.depth := by
  simp only [ListMetrics.addGlue, Option.bind_eq_bind, Option.bind_eq_some_iff,
    Option.some.injEq] at added
  obtain ⟨stretched, -, shrunk, -, rfl⟩ := added
  exact ⟨rfl, rfl, rfl⟩

theorem observeHorizontal_measures (observed : observeHorizontal meas node = some result) :
    Measures (fun meas => meas.width.toInt) horizontalExtent meas [node] result := by
  cases node with
  | glyph metrics =>
    cases metrics with
    | none =>
      simp only [observeHorizontal, Option.some.injEq] at observed
      subst observed
      exact Measures.extended rfl (by simp [horizontalExtent]) rfl rfl
    | some metrics =>
      simp only [observeHorizontal] at observed
      exact appendHorizontal_measures rfl (by simp [horizontalExtent]) observed
  | kern amount =>
    simp only [observeHorizontal] at observed
    exact appendSpace_measures rfl (by simp [horizontalExtent]) observed
  | glue spec leader =>
    simp only [observeHorizontal, Option.bind_eq_bind, Option.bind_eq_some_iff,
      Option.some.injEq] at observed
    obtain ⟨spaced, appended, glued, added, rfl⟩ := observed
    simp only [ListMetrics.appendSpace, Option.bind_eq_bind, Option.bind_eq_some_iff,
      Option.some.injEq] at appended
    obtain ⟨total, widened, rfl⟩ := appended
    obtain ⟨width, stretch, shrink⟩ := hleaderDimensions_keeps glued leader
    refine Measures.glue (by simp [horizontalExtent]) added ?_ rfl rfl stretch shrink
    rw [width, (addGlue_keeps added).1]
    exact toInt_of_scaledOfInt widened
  | rule width height depth =>
    simp only [observeHorizontal] at observed
    exact appendHorizontal_measures rfl (by simp [horizontalExtent]) observed
  | box width height depth shift =>
    simp only [observeHorizontal, Option.bind_eq_bind, Option.bind_eq_some_iff] at observed
    obtain ⟨raised, -, lowered, -, appended⟩ := observed
    exact appendHorizontal_measures rfl (by simp [horizontalExtent]) appended
  | unset width height depth =>
    simp only [observeHorizontal] at observed
    exact appendHorizontal_measures rfl (by simp [horizontalExtent]) observed
  | disc replacement =>
    simp only [observeHorizontal, Option.bind_eq_bind, Option.bind_eq_some_iff] at observed
    obtain ⟨inner, measured, appended⟩ := observed
    refine appendHorizontal_measures rfl ?_ appended
    simp [horizontalExtent, measureHlist, measured]
  | image width height depth =>
    simp only [observeHorizontal] at observed
    exact appendHorizontal_measures rfl (by simp [horizontalExtent]) observed
  | math width =>
    simp only [observeHorizontal] at observed
    exact appendSpace_measures rfl (by simp [horizontalExtent]) observed
  | ignored => ?_
  simp only [observeHorizontal, Option.some.injEq] at observed
  subst observed
  exact Measures.extended rfl (by simp [horizontalExtent]) rfl rfl

variable {nodes : List PackedNode}

theorem measureHorizontal_measures (measured : measureHorizontal meas nodes = some result) :
    Measures (fun meas => meas.width.toInt) horizontalExtent meas nodes result := by
  induction nodes generalizing meas with
  | nil =>
    simp only [measureHorizontal, Option.some.injEq] at measured
    subst measured
    exact Measures.nil _ _ _
  | cons node nodes ih => ?_
  simp only [measureHorizontal, Option.bind_eq_bind, Option.bind_eq_some_iff] at measured
  obtain ⟨next, observed, rest⟩ := measured
  exact (observeHorizontal_measures observed).cons (ih rest)

/-- The extent of a vertical list: what stands above its last baseline and the
depth below it. -/
def verticalSize (meas : ListMetrics) : ℤ := meas.height.toInt + meas.depth.toInt

theorem appendVerticalSpacing_size (appended : meas.appendVerticalSpacing amount = some result) :
    verticalSize result = verticalSize meas + amount.toInt ∧ result.stretch = meas.stretch ∧
      result.shrink = meas.shrink := by
  simp only [ListMetrics.appendVerticalSpacing, Option.bind_eq_bind, Option.bind_eq_some_iff,
    Option.some.injEq] at appended
  obtain ⟨spacing, spaced, height, heightened, rfl⟩ := appended
  have spacingValue := toInt_of_scaledOfInt spaced
  have heightValue := toInt_of_scaledOfInt heightened
  have zero : (0 : Scaled).toInt = 0 := rfl
  refine ⟨?_, rfl, rfl⟩
  simp only [verticalSize]
  omega

theorem appendVerticalBox_measures {shift : Scaled} (plain : node.spec? = none)
    (extended : verticalExtent node = height.toInt + depth.toInt)
    (appended : meas.appendVerticalBox width height depth shift = some result) :
    Measures verticalSize verticalExtent meas [node] result := by
  simp only [ListMetrics.appendVerticalBox, Option.bind_eq_bind, Option.bind_eq_some_iff,
    Option.some.injEq] at appended
  obtain ⟨above, aboveAdded, total, totalAdded, right, -, rfl⟩ := appended
  have aboveValue := toInt_of_scaledOfInt aboveAdded
  have totalValue := toInt_of_scaledOfInt totalAdded
  refine Measures.extended plain ?_ rfl rfl
  rw [extended]
  simp only [verticalSize]
  omega

theorem observeVertical_measures (observed : observeVertical meas node = some result) :
    Measures verticalSize verticalExtent meas [node] result := by
  cases node with
  | kern amount =>
    obtain ⟨size, stretch, shrink⟩ := appendVerticalSpacing_size observed
    exact Measures.extended rfl size stretch shrink
  | glue spec leader =>
    simp only [observeVertical, Option.bind_eq_bind, Option.bind_eq_some_iff,
      Option.some.injEq] at observed
    obtain ⟨spaced, appended, glued, added, rfl⟩ := observed
    obtain ⟨size, stretch, shrink⟩ := appendVerticalSpacing_size appended
    obtain ⟨height, depth, leaderStretch, leaderShrink⟩ := vleaderDimensions_keeps glued leader
    obtain ⟨-, gluedHeight, gluedDepth⟩ := addGlue_keeps added
    refine Measures.glue rfl added ?_ stretch shrink leaderStretch leaderShrink
    rw [← size]
    simp only [verticalSize, height, depth, gluedHeight, gluedDepth]
  | rule width height depth => exact appendVerticalBox_measures rfl rfl observed
  | box width height depth shift => exact appendVerticalBox_measures rfl rfl observed
  | unset width height depth => exact appendVerticalBox_measures rfl rfl observed
  | image width height depth => exact appendVerticalBox_measures rfl rfl observed
  | glyph metrics | disc replacement | math width | ignored =>
    cases observed
    exact Measures.extended rfl (by simp [verticalExtent]) rfl rfl

theorem foldlM_observeVertical (measured : nodes.foldlM observeVertical meas = some result) :
    Measures verticalSize verticalExtent meas nodes result := by
  induction nodes generalizing meas with
  | nil =>
    cases measured
    exact Measures.nil _ _ _
  | cons node nodes ih => ?_
  simp only [List.foldlM_cons, Option.bind_eq_bind, Option.bind_eq_some_iff] at measured
  obtain ⟨next, observed, rest⟩ := measured
  exact (observeVertical_measures observed).cons (ih rest)

theorem clampDepth_size {boxMaxDepth : Scaled} (clamped : clampDepth meas boxMaxDepth = some result) :
     verticalSize result = verticalSize meas ∧ result.stretch = meas.stretch ∧
      result.shrink = meas.shrink := by
  rw [clampDepth] at clamped
  split at clamped
  · simp only [Option.bind_eq_bind, Option.bind_eq_some_iff, Option.some.injEq] at clamped
    obtain ⟨excess, subtracted, height, added, rfl⟩ := clamped
    have excessValue := toInt_of_scaledOfInt subtracted
    have heightValue := toInt_of_scaledOfInt added
    refine ⟨?_, rfl, rfl⟩
    simp only [verticalSize]
    omega
  cases clamped
  exact ⟨rfl, rfl, rfl⟩

/-! ## The advance over the children -/

structure Advances (extent : PackedNode → ℤ) (box : BoxFields) (cursor : Scaled × GlueTotals)
    (nodes : List PackedNode) (result : Scaled × GlueTotals) : Prop where
  position : result.1.toInt = cursor.1.toInt + extentTotal extent nodes +
    naturalTotal (glueSpecs nodes) + (result.2.curG.toInt - cursor.2.curG.toInt)
  total : result.2.curGlue.toInt =
    cursor.2.curGlue.toInt + setTotal box.glueSign box.glueOrder (glueSpecs nodes)
  rounded : result.2.Rounded box.glueSet

variable {box : BoxFields} {cursor : Scaled × GlueTotals}

theorem advanceNode_plain (plain : node.spec? = none) : advanceNode extent box cursor node =
      (scaledOfInt (cursor.1.toInt + extent node)).bind fun position =>
        some (position, cursor.2) := by
  cases node with
  | glue spec leader => cases plain
  | glyph | kern | rule | box | unset | disc | image | math | ignored => rfl

theorem advanceNode_advances {result : Scaled × GlueTotals}
    (still : ∀ spec leader, extent (.glue spec leader) = 0) (rounded : cursor.2.Rounded box.glueSet)
    (advanced : advanceNode extent box cursor node = some result) :
    Advances extent box cursor [node] result := by
  cases kind : node.spec? with
  | none =>
    rw [advanceNode_plain kind] at advanced
    obtain ⟨position, moved, equal⟩ := Option.bind_eq_some_iff.mp advanced
    cases equal
    have value := toInt_of_scaledOfInt moved
    constructor
    · simp [glueSpecs, kind, naturalTotal, extentTotal, value]
    · simp [glueSpecs, kind, setTotal]
    · exact rounded
  | some spec => ?_
  obtain ⟨leader, rfl⟩ : ∃ leader, node = .glue spec leader := by
    cases node with
    | glue other leader =>
      cases kind
      exact ⟨leader, rfl⟩
    | glyph | kern | rule | box | unset | disc | image | math | ignored => cases kind
  simp only [advanceNode, Option.bind_eq_bind, Option.bind_eq_some_iff,
    Option.some.injEq] at advanced
  obtain ⟨adjusted, computed, position, moved, rfl⟩ := advanced
  obtain ⟨width, total, nextRounded⟩ := adjustedGlueWidth_step computed rounded
  have value := toInt_of_scaledOfInt moved
  constructor
  · simp only [glueSpecs_glue, naturalTotal, extentTotal, List.map_cons, List.map_nil,
      List.sum_cons, List.sum_nil, still]
    omega
  · simp only [glueSpecs_glue, setTotal, List.map_cons, List.map_nil, List.sum_cons,
      List.sum_nil]
    omega
  · exact nextRounded

theorem foldlM_advanceNode {result : Scaled × GlueTotals}
    (still : ∀ spec leader, extent (.glue spec leader) = 0) (rounded : cursor.2.Rounded box.glueSet)
    (advanced : nodes.foldlM (advanceNode extent box) cursor = some result) :
    Advances extent box cursor nodes result := by
  induction nodes generalizing cursor with
  | nil =>
    cases advanced
    constructor
    · simp [extentTotal, glueSpecs, naturalTotal]
    · simp [glueSpecs, setTotal]
    · exact rounded
  | cons node nodes ih => ?_
  simp only [List.foldlM_cons, Option.bind_eq_bind, Option.bind_eq_some_iff] at advanced
  obtain ⟨next, moved, rest⟩ := advanced
  have first := advanceNode_advances still rounded moved
  have later := ih first.rounded rest
  have positions := first.position
  have totals := first.total
  have laterPosition := later.position
  have laterTotal := later.total
  constructor
  · rw [glueSpecs_cons, naturalTotal, List.map_append, List.sum_append]
    simp only [extentTotal, List.map_cons, List.map_nil, List.sum_cons, List.sum_nil,
      naturalTotal] at positions laterPosition ⊢
    omega
  · rw [glueSpecs_cons, setTotal, List.map_append, List.sum_append]
    simp only [setTotal] at totals laterTotal ⊢
    omega
  · exact later.rounded

/-! ## Packed boxes -/

/-- The total of the highest order on the side the glue of a list is set on. -/
def neededTotal (meas : ListMetrics) (diff : ℤ) : ℤ :=
  if 0 < diff then (meas.stretch.get (highestOrder meas.stretch)).toInt
  else (meas.shrink.get (highestOrder meas.shrink)).toInt

/-- The advance over the children of a box, `travelled`, is its size when the glue
can be set, and exceeds it by the reported excess when the shrink is too small. -/
def Fills (meas : ListMetrics) (glue : GlueSetting) (natural target size travelled : ℤ) : Prop :=
  (target - natural).natAbs ≤ 1000000000 →
    (target = natural ∨ neededTotal meas (target - natural) ≠ 0 → glue.overfullExcess = 0 →
      travelled = size) ∧
    (glue.overfullExcess ≠ 0 → -1000000000 ≤ meas.shrink.normal.toInt →
      travelled = size + glue.overfullExcess.toInt)

/-- The running total behind the glue of a list, with the setting it gives. -/
theorem setGlue_fills {target natural : Scaled} {meas : ListMetrics} {hasContent : Bool}
    {glue : GlueSetting} {specs : List GlueSpec} {curGlue : Scaled} {size travelled : ℤ}
    (set : setGlue target natural meas hasContent = some glue)
    (empty : hasContent = false → meas.stretch = .zero ∧ meas.shrink = .zero)
    (stretch : ∀ order, (meas.stretch.get order).toInt = setTotal .stretching order specs)
    (shrink : ∀ order, (meas.shrink.get order).toInt = -setTotal .shrinking order specs)
    (total : curGlue.toInt = setTotal glue.sign glue.order specs) (distance : travelled =
      size - target.toInt + natural.toInt + (roundedGlueSet glue.ratio curGlue).toInt) :
    Fills meas glue natural.toInt target.toInt size travelled := by
  intro small
  simp only [setGlue, Option.bind_eq_bind, Option.bind_eq_some_iff] at set
  obtain ⟨diff, subtracted, set⟩ := set
  have difference := toInt_of_scaledOfInt subtracted
  split at set
  · rename_i still
    cases set
    rw [GlueSetting.none, roundedGlueSet_zero] at distance
    refine ⟨fun needed _ => ?_, fun overfull => absurd rfl overfull⟩
    rcases still with zero | bare
    · rw [zero] at difference
      change (0 : ℤ) = _ at difference
      omega
    obtain ⟨noStretch, noShrink⟩ := empty bare
    rcases needed with same | nonzero
    · omega
    exfalso
    apply nonzero
    rw [neededTotal, noStretch, noShrink]
    split <;> rfl
  split at set
  · rename_i positive
    have above : 0 < diff.toInt := Int32.lt_iff_toInt_lt.mp positive
    obtain ⟨sign, order, -, outcome⟩ := settingOf_spec set
    rw [sign, order, ← stretch] at total
    obtain ⟨fills, -⟩ := settingOf_fills set (by omega) (Or.inl ⟨rfl, above⟩)
      (total.trans (if_pos rfl).symm)
    rw [neededTotal, if_pos (by omega)]
    constructor
    · intro needed full
      have nonzero : meas.stretch.get (highestOrder meas.stretch) ≠ 0 := by
        intro zero
        rw [zero] at needed
        change _ ∨ (0 : ℤ) ≠ 0 at needed
        omega
      rw [distance, fills nonzero full]
      omega
    intro overfull
    rcases outcome with ⟨-, none, -⟩ | ⟨-, -, shrinking, -⟩
    · exact absurd none overfull
    · cases shrinking
  rename_i zero negative
  have below : diff.toInt < 0 := by
    have nonzero : diff.toInt ≠ 0 := fun same =>
      zero (Or.inl (Int32.toInt_inj.mp same))
    have notAbove : ¬0 < diff.toInt := fun above =>
      negative (Int32.lt_iff_toInt_lt.mpr above)
    omega
  obtain ⟨sign, order, -, outcome⟩ := settingOf_spec set
  rw [sign, order] at total
  have amount : curGlue.toInt = settingTotal .shrinking
      (meas.shrink.get (highestOrder meas.shrink)).toInt := by
    rw [total, settingTotal, if_neg (by decide), shrink, neg_neg]
  obtain ⟨fills, exceeds⟩ := settingOf_fills set (by omega) (Or.inr ⟨rfl, below⟩) amount
  rw [neededTotal, if_neg (by omega)]
  constructor
  · intro needed full
    have nonzero : meas.shrink.get (highestOrder meas.shrink) ≠ 0 := by
      intro zero
      rw [zero] at needed
      change _ ∨ (0 : ℤ) ≠ 0 at needed
      omega
    rw [distance, fills nonzero full]
    omega
  intro overfull limit
  have normal : highestOrder meas.shrink = .normal := by
    rcases outcome with ⟨-, none, -⟩ | ⟨-, -, -, normal, -⟩
    · exact absurd none overfull
    · exact normal
  rw [normal] at exceeds
  rw [distance, exceeds overfull limit]
  omega

variable {start final : Scaled}

theorem advance_travels {box : PackedBox} (still : ∀ spec leader, extent (.glue spec leader) = 0)
    (advanced : advance extent box start = some final) : ∃ curGlue : Scaled,
      curGlue.toInt = setTotal box.node.glueSign box.node.glueOrder (glueSpecs box.children) ∧
      final.toInt - start.toInt = extentTotal extent box.children +
        naturalTotal (glueSpecs box.children) +
        (roundedGlueSet box.node.glueSet curGlue).toInt := by
  simp only [advance, Option.bind_eq_bind, Option.bind_eq_some_iff, Option.some.injEq] at advanced
  obtain ⟨cursor, folded, rfl⟩ := advanced
  have advances := foldlM_advanceNode still (GlueTotals.rounded_zero box.node.glueSet) folded
  have position := advances.position
  have total := advances.total
  have rounded : cursor.2.curG = roundedGlueSet box.node.glueSet cursor.2.curGlue :=
    advances.rounded
  have zero : GlueTotals.zero.curG.toInt = 0 ∧ GlueTotals.zero.curGlue.toInt = 0 := ⟨rfl, rfl⟩
  refine ⟨cursor.2.curGlue, ?_, ?_⟩
  · rw [total, zero.2, zero_add]
  rw [← rounded]
  dsimp only at position
  omega

theorem hpack_fills {spec : PackSpec} {params : HpackParams} {box : PackedBox}
    (packed : hpack nodes spec params = some box)
    (advanced : advance horizontalExtent box start = some final) :
    ∃ meas, measureHlist nodes = some meas ∧
      Fills meas box.glue meas.width.toInt box.node.width.toInt box.node.width.toInt
        (final.toInt - start.toInt) := by
  simp only [hpack, Option.bind_eq_bind, Option.bind_eq_some_iff, Option.some.injEq] at packed
  obtain ⟨meas, measured, width, -, glue, set, rfl⟩ := packed
  have measures := measureHorizontal_measures measured
  obtain ⟨curGlue, total, travelled⟩ :=
    advance_travels (fun _ _ => by simp [horizontalExtent]) advanced
  refine ⟨meas, measured, ?_⟩
  have zeroTotal : ∀ order, (OrderTotals.zero.get order).toInt = 0 := by
    intro order
    cases order <;> rfl
  refine @setGlue_fills _ _ _ _ _ (glueSpecs nodes) _ _ _ set ?_ ?_ ?_ total ?_
  · intro bare
    cases nodes with
    | nil =>
      simp only [measureHlist, measureHorizontal, Option.some.injEq] at measured
      subst measured
      exact ⟨rfl, rfl⟩
    | cons node nodes => cases bare
  · intro order
    rw [measures.stretch]
    exact (congrArg (· + _) (zeroTotal order)).trans (zero_add _)
  · intro order
    rw [measures.shrink]
    exact (congrArg (· - _) (zeroTotal order)).trans (zero_sub _)
  have sized := measures.sized
  have zero : ListMetrics.zero.width.toInt = 0 := rfl
  dsimp only at travelled sized ⊢
  omega

theorem vpack_fills {spec : PackSpec} {params : VpackParams} {box : PackedBox}
    (packed : vpack nodes spec params = some box)
    (advanced : advance verticalExtent box start = some final) :
    ∃ meas, (measureVlist nodes).bind (clampDepth · params.boxMaxDepth) = some meas ∧
      Fills meas box.glue meas.height.toInt box.node.height.toInt
        (box.node.height.toInt + box.node.depth.toInt) (final.toInt - start.toInt) := by
  simp only [vpack, Option.bind_eq_bind, Option.bind_eq_some_iff, Option.some.injEq] at packed
  obtain ⟨measured, measuredList, meas, clamped, height, -, glue, set, rfl⟩ := packed
  have measures := foldlM_observeVertical measuredList
  obtain ⟨size, stretch, shrink⟩ := clampDepth_size clamped
  obtain ⟨curGlue, total, travelled⟩ := advance_travels (fun _ _ => rfl) advanced
  have zeroTotal : ∀ order, (OrderTotals.zero.get order).toInt = 0 := by
    intro order
    cases order <;> rfl
  refine ⟨meas, by rw [measuredList, Option.bind_some, clamped], ?_⟩
  refine @setGlue_fills _ _ _ _ _ (glueSpecs nodes) _ _ _ set ?_ ?_ ?_ total ?_
  · intro bare
    cases nodes with
    | nil =>
      cases measuredList
      exact ⟨stretch, shrink⟩
    | cons node nodes => cases bare
  · intro order
    rw [stretch, measures.stretch]
    exact (congrArg (· + _) (zeroTotal order)).trans (zero_add _)
  · intro order
    rw [shrink, measures.shrink]
    exact (congrArg (· - _) (zeroTotal order)).trans (zero_sub _)
  have sized := measures.sized
  have zero : verticalSize .zero = 0 := rfl
  rw [zero, zero_add] at sized
  rw [← size] at sized
  simp only [verticalSize] at sized
  dsimp only at travelled ⊢
  omega

/-- The children of a packed box fill it exactly: the width of a horizontal box,
the height and the depth of a vertical one; those of an overfull box exceed it
by the reported excess, where the shrink is at least minus a billion. -/
theorem packing_fills :
    (∀ (nodes : List PackedNode) (spec : PackSpec) (params : HpackParams) (box : PackedBox)
      (start final : Scaled), hpack nodes spec params = some box →
      advance horizontalExtent box start = some final → ∃ meas, measureHlist nodes = some meas ∧
        Fills meas box.glue meas.width.toInt box.node.width.toInt box.node.width.toInt
          (final.toInt - start.toInt)) ∧
    ∀ (nodes : List PackedNode) (spec : PackSpec) (params : VpackParams) (box : PackedBox)
      (start final : Scaled), vpack nodes spec params = some box →
      advance verticalExtent box start = some final →
      ∃ meas, (measureVlist nodes).bind (clampDepth · params.boxMaxDepth) = some meas ∧
        Fills meas box.glue meas.height.toInt box.node.height.toInt
          (box.node.height.toInt + box.node.depth.toInt) (final.toInt - start.toInt) :=
  ⟨fun _ _ _ _ _ _ packed advanced => hpack_fills packed advanced,
    fun _ _ _ _ _ _ packed advanced => vpack_fills packed advanced⟩

def sampleHparams : HpackParams := { hbadness := 1000, hfuzz := 0 }

def sampleVparams : VpackParams := { vbadness := 1000, vfuzz := 0, boxMaxDepth := 100 }

/-- A space that stretches above a box with a height of five and a depth of two. -/
def sampleList : List PackedNode := [.glue (stretchable 4) none, .box 10 5 2 0]

def sampleHbox : PackedBox :=
  (hpack sampleList (.exactly 35) sampleHparams).get (by decide +kernel)

def sampleVbox : PackedBox :=
  (vpack sampleList (.exactly 32) sampleVparams).get (by decide +kernel)

def overfullHbox : PackedBox :=
  (hpack sampleList (.exactly 15) sampleHparams).get (by decide +kernel)

theorem packing_fills_sample :
    (35 : Scaled).toInt - (0 : Scaled).toInt = sampleHbox.node.width.toInt ∧
      (20 : Scaled).toInt - (0 : Scaled).toInt =
        overfullHbox.node.width.toInt + overfullHbox.glue.overfullExcess.toInt ∧
      (34 : Scaled).toInt - (0 : Scaled).toInt =
        sampleVbox.node.height.toInt + sampleVbox.node.depth.toInt := by
  have metrics : measureHlist sampleList = some ⟨20, 5, 2, ⟨4, 0, 0, 0⟩, .zero⟩ := by decide +kernel
  refine ⟨?_, ?_, ?_⟩
  · obtain ⟨meas, measured, fills⟩ := packing_fills.1 sampleList (.exactly 35) sampleHparams
      sampleHbox 0 35 (Option.some_get _).symm (by decide +kernel)
    cases measured.symm.trans metrics
    exact (fills (by decide +kernel)).1 (Or.inr (by decide +kernel)) (by decide +kernel)
  · obtain ⟨meas, measured, fills⟩ := packing_fills.1 sampleList (.exactly 15) sampleHparams
      overfullHbox 0 20 (Option.some_get _).symm (by decide +kernel)
    cases measured.symm.trans metrics
    exact (fills (by decide +kernel)).2 (by decide +kernel) (by decide +kernel)
  obtain ⟨meas, measured, fills⟩ := packing_fills.2 sampleList (.exactly 32) sampleVparams
    sampleVbox 0 34 (Option.some_get _).symm (by decide +kernel)
  have metrics : (measureVlist sampleList).bind (clampDepth · 100) =
      some ⟨10, 15, 2, ⟨4, 0, 0, 0⟩, .zero⟩ := by
    decide +kernel
  cases measured.symm.trans metrics
  exact (fills (by decide +kernel)).1 (Or.inr (by decide +kernel)) (by decide +kernel)

/-- The vertical advance goes on over the depth of the last box, so that it is not
the height alone; and glue that shrinks by less than minus a billion is not set
as the reported excess has it. -/
theorem packing_not_exact : (∃ box, vpack sampleList (.exactly 32) sampleVparams = some box ∧
      box.glue.overfullExcess = 0 ∧ advance verticalExtent box 0 = some 34 ∧ box.node.height = 32) ∧
    ∃ box, hpack [.glue ⟨10, 0, .normal, -1048576000, .normal⟩ none] (.exactly 9)
        sampleHparams = some box ∧ box.glue.overfullExcess = 1048576001 ∧
      advance horizontalExtent box 0 = some 1000000010 := by
  constructor
  · exact ⟨sampleVbox, (Option.some_get _).symm, by decide +kernel, by decide +kernel,
      by decide +kernel⟩
  exact ⟨(hpack [.glue ⟨10, 0, .normal, -1048576000, .normal⟩ none] (.exactly 9)
    sampleHparams).get (by decide +kernel), (Option.some_get _).symm, by decide +kernel,
    by decide +kernel⟩

end Umber.Page
