import Umber.Typeset.VerticalBreak
import Umber.Typeset.VerticalBreakProperties

/-! Badness with the width of its integers, and the badness of a line that may
take emergency stretch. -/

set_option autoImplicit false

namespace Umber.Typeset

/-- The ratio of a shortfall to what is available, about 297 times its value. -/
def badnessRatio (check : Int → Checked Int) (t s : Int) : Checked Int :=
  if t ≤ 7230584 then do
    let product ← check (t * 297)
    check (product.tdiv s)
  else if 1663497 ≤ s then check (t.tdiv (s.tdiv 297))
  else .ok t

def badnessOfRatio (check : Int → Checked Int) (r : Int) : Checked Int :=
  if 1290 < r then .ok infBad
  else do
    let square ← check (r * r)
    let cube ← check (square * r)
    let rounded ← check (cube + 131072)
    let bad ← toScaled (rounded.tdiv 262144)
    .ok (min bad infBad)

def badnessIn (check : Int → Checked Int) (t s : Int) : Checked Int :=
  if t = 0 then .ok 0
  else if s ≤ 0 then .ok infBad
  else do
    let r ← badnessRatio check t s
    badnessOfRatio check r

/-- Every intermediate is an `i32`. -/
def badness (t s : Int) : Checked Int := badnessIn toScaled t s

/-- Every intermediate is an `i64`, the result an `i32`. -/
def wideBadness (t s : Int) : Checked Int := badnessIn toWide t s

def wideSaturatingAbs (value : Int) : Int := min value.natAbs 9223372036854775807

/-- The badness of a line whose stretch is increased by `emergency`. -/
def emergencyBadness (widths : Widths) (target emergency : Int) (steps : Option (Int × Int)) :
    Checked Int := do
  let diff ← adjustedShortfall widths target steps
  if 0 ≤ diff then
    let order := widths.stretch.highestOrder
    if order ≠ .normal ∧ 0 < widths.stretch.get order then .ok 0
    else do
      let stretch ← toWide (widths.stretch.normal + emergency)
      wideBadness diff stretch
  else
    let order := widths.shrink.highestOrder
    if order ≠ .normal ∧ 0 < widths.shrink.get order then .ok 0
    else if widths.shrink.normal < wideSaturatingAbs diff then .ok (infBad + 1)
    else do
      let excess ← toWide diff.natAbs
      wideBadness excess widths.shrink.normal

/-! ## What the badness of a line is to be -/

/-- The badness of a line without infinite shrink, as a short line stretches and a long
one shrinks. -/
def lineBadnessOf (widths : Widths) (target emergency : Int) : Int :=
  let shortfall := target - widths.natural
  if 0 ≤ shortfall then
    if widths.stretch.infiniteIsZero then
      texBadnessWide shortfall (widths.stretch.normal + emergency)
    else 0
  else if widths.shrink.normal < -shortfall then infBad + 1
  else texBadnessWide (-shortfall) widths.shrink.normal

def asBreakBadness (badness : Int) : Int :=
  if badness = infBad + 1 then VerticalBreak.awfulBad else badness

def Negligible (t s : Int) : Prop :=
  t = 0 ∨ 0 < s ∧
    (t ≤ 7230584 ∧ t * 297 < 51 * s ∨
      7230584 < t ∧ 1663497 ≤ s ∧ t < 51 * (s / 297))

/-- The strongest infinite stretch of a short line is negative, and its finite stretch
does not hide this. -/
def NegativeStretch (widths : Widths) (target emergency : Int) : Prop :=
  0 ≤ target - widths.natural ∧ widths.stretch.get widths.stretch.highestOrder < 0 ∧
    widths.stretch.highestOrder ≠ .normal ∧
    ¬ Negligible (target - widths.natural) (widths.stretch.normal + emergency)

structure LineTotals (widths : Widths) (target emergency : Int) : Prop where
  shortfall : inWide (target - widths.natural) = true
  excess : inWide (widths.natural - target) = true
  stretch : inWide (widths.stretch.normal + emergency) = true

def Widths.breakAccum (widths : Widths) : VerticalBreakAccum :=
  { height := widths.natural
    depth := 0
    stretch := widths.stretch
    shrink := widths.shrink.normal
    infiniteShrinkGlue := [] }

def TreatedAlike (widths : Widths) (target : Int) : Prop :=
  ∃ bad, emergencyBadness widths target 0 none = .ok bad ∧
    VerticalBreak.verticalBreakBadness target widths.breakAccum = .ok (asBreakBadness bad)

def ExactWithNegativeShrink (widths : Widths) (target : Int) : Prop :=
  widths.natural = target ∧ widths.shrink.normal < 0

/-! ## Laws -/

open ExceptLib

/-! ## The two steps of badness -/

def ratioOf (t s : Int) : Int :=
  if t ≤ 7230584 then t * 297 / s
  else if 1663497 ≤ s then t / (s / 297)
  else t

def cubeOf (r : Int) : Int :=
  if 1290 < r then infBad else min ((r * r * r + 131072) / 262144) infBad

variable {t s : Int}

theorem ratioOf_nonneg (nonneg : 0 ≤ t) (positive : 0 < s) : 0 ≤ ratioOf t s := by
  unfold ratioOf
  split
  next => exact Int.ediv_nonneg (by omega) (by omega)
  split
  next => exact Int.ediv_nonneg nonneg (Int.ediv_nonneg (by omega) (by omega))
  next => exact nonneg

variable {r : Int}

theorem cube_nonneg (nonneg : 0 ≤ r) : 0 ≤ r * r * r :=
  Int.mul_nonneg (Int.mul_nonneg nonneg nonneg) nonneg

variable {large : Int}

theorem cube_le (nonneg : 0 ≤ r) (below : r ≤ large) : r * r * r ≤ large * large * large :=
  have square : r * r ≤ large * large :=
    Int.mul_le_mul below below nonneg (Int.le_trans nonneg below)
  Int.mul_le_mul square below nonneg (Int.mul_nonneg (Int.le_trans nonneg below)
    (Int.le_trans nonneg below))

/-- The cube of a ratio that is not infinitely bad lies below two to the thirty-first. -/
theorem cube_le_top (nonneg : 0 ≤ r) (small : r ≤ 1290) : r * r * r ≤ 2146689000 :=
  cube_le nonneg small

theorem texBadnessWide_eq (nonneg : 0 ≤ t) : texBadnessWide t s =
      if t = 0 then 0 else if s ≤ 0 then infBad else cubeOf (ratioOf t s) := by
  unfold texBadnessWide
  by_cases zero : t = 0
  · rw [if_pos zero, if_pos zero]
  by_cases rigid : s ≤ 0
  · rw [if_neg zero, if_neg zero, if_pos rigid, if_pos rigid]
  have positive : 0 < s := Int.not_le.mp rigid
  have ratio : (if t ≤ 7230584 then (t * 297).tdiv s
      else if 1663497 ≤ s then t.tdiv (s.tdiv 297) else t) = ratioOf t s := by
    unfold ratioOf
    rw [Int.tdiv_eq_ediv_of_nonneg (show 0 ≤ t * 297 by omega),
      Int.tdiv_eq_ediv_of_nonneg (show 0 ≤ s by omega), Int.tdiv_eq_ediv_of_nonneg nonneg]
  have cubed := cube_nonneg (ratioOf_nonneg nonneg positive)
  rw [if_neg zero, if_neg rigid, if_neg zero, if_neg rigid]
  simp only [ratio]
  rw [Int.tdiv_eq_ediv_of_nonneg (show 0 ≤ ratioOf t s * ratioOf t s * ratioOf t s + 131072 by omega)]
  rfl

theorem cubeOf_nonneg (nonneg : 0 ≤ r) : 0 ≤ cubeOf r := by
  have cubed := cube_nonneg nonneg
  unfold cubeOf infBad
  split
  next => omega
  next => exact Int.le_min.mpr ⟨Int.ediv_nonneg (by omega) (by omega), by omega⟩

theorem cubeOf_le (r : Int) : cubeOf r ≤ infBad := by
  unfold cubeOf
  split
  next => exact Int.le_refl _
  next => exact Int.min_le_right _ _

theorem cubeOf_mono (nonneg : 0 ≤ r) (grows : r ≤ large ∨ 1290 < large) :
    cubeOf r ≤ cubeOf large := by
  by_cases top : 1290 < large
  · exact Int.le_trans (cubeOf_le r) (Int.le_of_eq (if_pos top).symm)
  have below : r ≤ large := grows.resolve_right top
  have cubes := cube_le nonneg below
  unfold cubeOf
  rw [if_neg top, if_neg (by omega)]
  have parts : (r * r * r + 131072) / 262144 ≤ (large * large * large + 131072) / 262144 :=
    Int.ediv_le_ediv (by omega) (by omega)
  omega

/-- Only a ratio of at most fifty rounds to no badness. -/
theorem cubeOf_eq_zero_iff (nonneg : 0 ≤ r) : cubeOf r = 0 ↔ r ≤ 50 := by
  constructor
  · intro zero
    refine Int.not_lt.mp fun above => ?_
    have worse := cubeOf_mono (show (0 : Int) ≤ 51 by decide) (.inl (show 51 ≤ r from above))
    rw [zero] at worse
    exact absurd worse (by decide)
  intro below
  have better := cubeOf_mono nonneg (.inl below)
  have fifty : cubeOf 50 = 0 := by decide
  exact Int.le_antisymm (fifty ▸ better) (cubeOf_nonneg nonneg)

theorem ratioOf_le_fifty_iff (nonneg : 0 ≤ t) (positive : 0 < s) : ratioOf t s ≤ 50 ↔
      t ≤ 7230584 ∧ t * 297 < 51 * s ∨ 7230584 < t ∧ 1663497 ≤ s ∧ t < 51 * (s / 297) := by
  unfold ratioOf
  split
  next small =>
    have quotient : t * 297 / s < 51 ↔ t * 297 < 51 * s := Int.ediv_lt_iff_lt_mul positive
    omega
  rename_i large
  split
  next wide =>
    have part : 0 < s / 297 := by omega
    have quotient : t / (s / 297) < 51 ↔ t < 51 * (s / 297) := Int.ediv_lt_iff_lt_mul part
    omega
  next => omega

/-! ## The laws -/

theorem texBadnessWide_nonneg (nonneg : 0 ≤ t) (s : Int) : 0 ≤ texBadnessWide t s := by
  rw [texBadnessWide_eq nonneg]
  split
  next => exact Int.le_refl _
  split
  next => decide
  next rigid => exact cubeOf_nonneg (ratioOf_nonneg nonneg (Int.not_le.mp rigid))

theorem texBadnessWide_eq_zero_iff (nonneg : 0 ≤ t) : texBadnessWide t s = 0 ↔ Negligible t s := by
  rw [texBadnessWide_eq nonneg, Negligible]
  by_cases zero : t = 0
  · simp [zero]
  by_cases rigid : s ≤ 0
  · rw [if_neg zero, if_pos rigid]
    constructor
    · intro impossible
      exact absurd impossible (by decide)
    rintro (same | ⟨positive, _⟩)
    · exact absurd same zero
    · omega
  have positive : 0 < s := Int.not_le.mp rigid
  rw [if_neg zero, if_neg rigid, cubeOf_eq_zero_iff (ratioOf_nonneg nonneg positive),
    ratioOf_le_fifty_iff nonneg positive]
  constructor
  · exact fun small => .inr ⟨positive, small⟩
  · exact fun negligible => (negligible.resolve_left zero).2

theorem ediv_le_ediv_of_le {amount part larger : Int} (nonneg : 0 ≤ amount) (positive : 0 < part)
    (below : part ≤ larger) : amount / larger ≤ amount / part := by
  have quotient : 0 ≤ amount / larger := Int.ediv_nonneg nonneg (by omega)
  refine Int.le_ediv_of_mul_le positive ?_
  calc amount / larger * part
      ≤ amount / larger * larger := Int.mul_le_mul_of_nonneg_left below quotient
    _ ≤ amount := Int.ediv_mul_le _ (by omega)

theorem ratioOf_mono_shortfall (nonneg : 0 ≤ t) (positive : 0 < s) :
    ratioOf t s ≤ ratioOf (t + 1) s ∨ 1290 < ratioOf (t + 1) s := by
  unfold ratioOf
  by_cases next : t + 1 ≤ 7230584
  · rw [if_pos next, if_pos (by omega)]
    exact .inl (Int.ediv_le_ediv positive (by omega))
  rw [if_neg next]
  by_cases wide : 1663497 ≤ s
  · have part : 0 < s / 297 := by omega
    by_cases here : t ≤ 7230584
    · rw [if_pos here, if_pos wide]
      refine .inl (Int.le_ediv_of_mul_le part ?_)
      have scaled : t * 297 / s * s ≤ t * 297 := Int.ediv_mul_le _ (by omega)
      have share : s / 297 * 297 ≤ s := Int.ediv_mul_le _ (by decide)
      have quotient : 0 ≤ t * 297 / s := Int.ediv_nonneg (by omega) (by omega)
      have grown : t * 297 / s * (s / 297 * 297) ≤ t * 297 / s * s :=
        Int.mul_le_mul_of_nonneg_left share quotient
      rw [← Int.mul_assoc] at grown
      omega
    rw [if_neg here, if_pos wide, if_pos wide]
    exact .inl (Int.ediv_le_ediv part (by omega))
  rw [if_neg wide]
  exact .inr (by omega)

theorem ratioOf_mono_available (nonneg : 0 ≤ t) (positive : 0 < s) :
    ratioOf t (s + 1) ≤ ratioOf t s ∨ 1290 < ratioOf t s := by
  unfold ratioOf
  by_cases small : t ≤ 7230584
  · rw [if_pos small, if_pos small]
    exact .inl (ediv_le_ediv_of_le (by omega) positive (by omega))
  rw [if_neg small, if_neg small]
  by_cases wide : 1663497 ≤ s
  · rw [if_pos wide, if_pos (by omega)]
    exact .inl (ediv_le_ediv_of_le nonneg (by omega) (by omega))
  rw [if_neg wide]
  exact .inr (by omega)

theorem texBadnessWide_mono_shortfall (nonneg : 0 ≤ t) (s : Int) :
    texBadnessWide t s ≤ texBadnessWide (t + 1) s := by
  rw [texBadnessWide_eq nonneg, texBadnessWide_eq (by omega), if_neg (show ¬t + 1 = 0 by omega)]
  by_cases rigid : s ≤ 0
  · rw [if_pos rigid, if_pos rigid]
    split <;> decide
  have positive : 0 < s := Int.not_le.mp rigid
  rw [if_neg rigid, if_neg rigid]
  split
  next => exact cubeOf_nonneg (ratioOf_nonneg (by omega) positive)
  exact cubeOf_mono (ratioOf_nonneg nonneg positive) (ratioOf_mono_shortfall nonneg positive)

theorem texBadnessWide_mono_available (nonneg : 0 ≤ t) (s : Int) :
    texBadnessWide t (s + 1) ≤ texBadnessWide t s := by
  by_cases rigid : s ≤ 0
  · by_cases zero : t = 0
    · exact Int.le_of_eq ((if_pos zero).trans (if_pos zero).symm)
    have infinite : texBadnessWide t s = infBad := (if_neg zero).trans (if_pos rigid)
    exact infinite ▸ texBadnessWide_le t (s + 1)
  have positive : 0 < s := Int.not_le.mp rigid
  rw [texBadnessWide_eq nonneg, texBadnessWide_eq nonneg, if_neg (show ¬s + 1 ≤ 0 by omega),
    if_neg rigid]
  split
  next => exact Int.le_refl _
  exact cubeOf_mono (ratioOf_nonneg nonneg (by omega)) (ratioOf_mono_available nonneg positive)

/-! ## No intermediate overflows -/

variable {value : Int}

theorem toScaled_ok (low : -2147483648 ≤ value) (high : value ≤ 2147483647) :
    toScaled value = .ok value := if_pos ⟨low, high⟩

theorem toWide_ok (inside : inWide value = true) : toWide value = .ok value :=
  if_pos inside

variable {check : Int → Checked Int}

theorem badnessRatio_eq
    (accepts : ∀ value, 0 ≤ value → value ≤ max t 2147483647 → check value = .ok value)
    (nonneg : 0 ≤ t) (positive : 0 < s) : badnessRatio check t s = .ok (ratioOf t s) := by
  unfold badnessRatio ratioOf
  split
  next small =>
    have quotient : t * 297 / s ≤ t * 297 := Int.ediv_le_self _ (by omega)
    rw [accepts (t * 297) (by omega) (by omega), ok_bind,
      Int.tdiv_eq_ediv_of_nonneg (by omega),
      accepts _ (Int.ediv_nonneg (by omega) (by omega)) (by omega)]
  split
  next =>
    have quotient : t / (s / 297) ≤ t := Int.ediv_le_self _ nonneg
    rw [Int.tdiv_eq_ediv_of_nonneg (show 0 ≤ s by omega), Int.tdiv_eq_ediv_of_nonneg nonneg,
      accepts _ (Int.ediv_nonneg nonneg (by omega)) (by omega)]
  next => rfl

theorem badnessOfRatio_eq
    (accepts : ∀ value, 0 ≤ value → value ≤ 2147483647 → check value = .ok value) (nonneg : 0 ≤ r) :
    badnessOfRatio check r = .ok (cubeOf r) := by
  unfold badnessOfRatio cubeOf
  by_cases top : 1290 < r
  · rw [if_pos top, if_pos top]
  have small : r ≤ 1290 := Int.not_lt.mp top
  have squared : r * r ≤ 1290 * 1290 := Int.mul_le_mul small small nonneg (by decide)
  have cubed := cube_nonneg nonneg
  have bounded := cube_le_top nonneg small
  rw [if_neg top, if_neg top, accepts _ (Int.mul_nonneg nonneg nonneg) (by omega), ok_bind,
    accepts _ cubed (by omega), ok_bind, accepts _ (by omega) (by omega), ok_bind,
    Int.tdiv_eq_ediv_of_nonneg (by omega), toScaled_ok (by omega) (by omega), ok_bind]

theorem badnessIn_eq
    (accepts : ∀ value, 0 ≤ value → value ≤ max t 2147483647 → check value = .ok value)
    (nonneg : 0 ≤ t) : badnessIn check t s = .ok (texBadnessWide t s) := by
  rw [texBadnessWide_eq nonneg]
  unfold badnessIn
  by_cases zero : t = 0
  · rw [if_pos zero, if_pos zero]
  by_cases rigid : s ≤ 0
  · rw [if_neg zero, if_neg zero, if_pos rigid, if_pos rigid]
  have positive : 0 < s := Int.not_le.mp rigid
  rw [if_neg zero, if_neg zero, if_neg rigid, if_neg rigid,
    badnessRatio_eq accepts nonneg positive, ok_bind,
    badnessOfRatio_eq (fun value low high => accepts value low (by omega))
      (ratioOf_nonneg nonneg positive)]

theorem badness_eq (nonneg : 0 ≤ t) (fits : t ≤ 2147483647) (s : Int) :
    badness t s = .ok (texBadnessWide t s) :=
  badnessIn_eq (fun _ low high => toScaled_ok (by omega) (by omega)) nonneg

theorem wideBadness_eq (nonneg : 0 ≤ t) (fits : inWide t = true) (s : Int) :
    wideBadness t s = .ok (texBadnessWide t s) := by
  refine badnessIn_eq (fun value low high => toWide_ok ?_) nonneg
  simp only [inWide, Bool.and_eq_true, decide_eq_true_eq] at fits ⊢
  omega

/-! ## The badness of a line -/

theorem highestOrder_eq_normal_iff (amounts : PerOrder) :
    amounts.highestOrder = .normal ↔ amounts.infiniteIsZero = true := by
  unfold PerOrder.highestOrder PerOrder.infiniteIsZero
  by_cases filll : amounts.filll = 0 <;> by_cases fill : amounts.fill = 0 <;>
    by_cases fil : amounts.fil = 0 <;> simp [filll, fill, fil]

/-- The strongest infinite amount is the first that is not zero. -/
theorem get_highestOrder_ne_zero {amounts : PerOrder} (infinite : amounts.highestOrder ≠ .normal) :
    amounts.get amounts.highestOrder ≠ 0 := by
  unfold PerOrder.highestOrder at infinite ⊢
  split
  next filll => exact filll
  split
  next fill => exact fill
  split
  next fil => exact fil
  next filll fill fil => exact absurd (by rw [if_neg filll, if_neg fill, if_neg fil]) infinite

variable {widths : Widths} {target emergency : Int}

section

variable (totals : LineTotals widths target emergency)
include totals

theorem emergencyBadness_short
    (short : 0 ≤ target - widths.natural) : emergencyBadness widths target emergency none =
      .ok (if widths.stretch.highestOrder ≠ .normal ∧
          0 < widths.stretch.get widths.stretch.highestOrder then 0
        else texBadnessWide (target - widths.natural) (widths.stretch.normal + emergency)) := by
  unfold emergencyBadness adjustedShortfall
  simp only [toWide_ok totals.shortfall, ok_bind, pure, Except.pure, if_pos short]
  split
  next => rfl
  next => rw [toWide_ok totals.stretch, ok_bind, wideBadness_eq short totals.shortfall]

theorem emergencyBadness_long
    (long : target - widths.natural < 0) (finite : widths.shrink.infiniteIsZero = true) :
    emergencyBadness widths target emergency none =
      .ok (if widths.shrink.normal < -(target - widths.natural) then infBad + 1
        else texBadnessWide (-(target - widths.natural)) widths.shrink.normal) := by
  have order := (highestOrder_eq_normal_iff widths.shrink).mpr finite
  have excess := totals.excess
  have absolute : (((target - widths.natural).natAbs : Nat) : Int) = -(target - widths.natural) := by
    omega
  have fits : inWide (-(target - widths.natural)) = true := by
    rw [show -(target - widths.natural) = widths.natural - target by omega]
    exact excess
  have saturated : wideSaturatingAbs (target - widths.natural) = -(target - widths.natural) := by
    simp only [inWide, Bool.and_eq_true, decide_eq_true_eq] at fits
    unfold wideSaturatingAbs
    omega
  unfold emergencyBadness adjustedShortfall
  simp only [toWide_ok totals.shortfall, ok_bind, pure, Except.pure, if_neg (Int.not_le.mpr long),
    order, ne_eq, not_true, false_and, if_false, saturated, absolute, toWide_ok fits]
  split
  next => rfl
  next => exact wideBadness_eq (by omega) fits _

/-- The badness of a line without infinite shrink is the one it is to be, unless the line
is short and its strongest infinite stretch is negative. -/
theorem emergencyBadness_eq_iff (finite : widths.shrink.infiniteIsZero = true) :
    emergencyBadness widths target emergency none = .ok (lineBadnessOf widths target emergency) ↔
      ¬ NegativeStretch widths target emergency := by
  by_cases short : 0 ≤ target - widths.natural
  · have zero := texBadnessWide_eq_zero_iff (s := widths.stretch.normal + emergency) short
    rw [emergencyBadness_short totals short, Except.ok.injEq]
    simp only [lineBadnessOf, if_pos short, NegativeStretch]
    by_cases infinite : widths.stretch.highestOrder = .normal
    · have none := (highestOrder_eq_normal_iff widths.stretch).mp infinite
      simp [infinite, none]
    have some : widths.stretch.infiniteIsZero ≠ true :=
      fun none => infinite ((highestOrder_eq_normal_iff widths.stretch).mpr none)
    have nonzero := get_highestOrder_ne_zero infinite
    rw [if_neg some]
    by_cases positive : 0 < widths.stretch.get widths.stretch.highestOrder
    · rw [if_pos ⟨infinite, positive⟩]
      exact iff_of_true rfl fun negative => by have := negative.2.1; omega
    rw [if_neg fun both => positive both.2, zero]
    constructor
    · exact fun negligible negative => negative.2.2.2 negligible
    intro harmless
    refine Classical.not_not.mp fun visible => harmless ⟨short, ?_, infinite, visible⟩
    omega
  have long : target - widths.natural < 0 := Int.not_le.mp short
  rw [emergencyBadness_long totals long finite]
  simp only [lineBadnessOf, if_neg short, NegativeStretch]
  exact iff_of_true trivial fun negative => short negative.1

end

/-! ## The vertical break -/

theorem breakBadness_eq (low : -2147483648 < target - widths.natural)
    (high : target - widths.natural ≤ 2147483647) :
    VerticalBreak.verticalBreakBadness target widths.breakAccum =
      .ok (if widths.natural < target then if widths.stretch.infiniteIsZero = false then 0
          else texBadnessWide (target - widths.natural) widths.stretch.normal
        else if widths.shrink.normal < widths.natural - target then VerticalBreak.awfulBad
        else texBadnessWide (widths.natural - target) widths.shrink.normal) := by
  have short : VerticalBreak.sub target widths.natural = .ok (target - widths.natural) :=
    if_pos ⟨by omega, high⟩
  have excess : VerticalBreak.sub widths.natural target = .ok (widths.natural - target) :=
    if_pos ⟨by omega, by omega⟩
  simp only [VerticalBreak.verticalBreakBadness, Widths.breakAccum, short, excess, ok_bind, pure, Except.pure]
  split
  next => split <;> rfl
  by_cases beyond : widths.shrink.normal < widths.natural - target
  · rw [if_pos beyond]
    exact if_pos beyond
  rw [if_neg beyond]
  exact if_neg beyond

theorem asBreakBadness_eq (s : Int) : asBreakBadness (texBadnessWide t s) = texBadnessWide t s := by
  have bounded := texBadnessWide_le t s
  refine if_neg fun same => ?_
  rw [same] at bounded
  exact absurd bounded (by decide)

theorem treatedAlike_iff (totals : LineTotals widths target 0)
    (finite : widths.shrink.infiniteIsZero = true) (low : -2147483648 < target - widths.natural)
    (high : target - widths.natural ≤ 2147483647) : TreatedAlike widths target ↔
      ¬ NegativeStretch widths target 0 ∧ ¬ ExactWithNegativeShrink widths target := by
  unfold TreatedAlike
  rw [breakBadness_eq low high]
  by_cases short : 0 ≤ target - widths.natural
  · have zero := texBadnessWide_eq_zero_iff (s := widths.stretch.normal) short
    rw [emergencyBadness_short totals short, Int.add_zero]
    by_cases exactly : widths.natural = target
    · have none : target - widths.natural = 0 := by omega
      have rest : widths.natural - target = 0 := by omega
      have exact_ : ∀ s, texBadnessWide 0 s = 0 := fun s => if_pos rfl
      have harmless : ¬ NegativeStretch widths target 0 :=
        fun negative => negative.2.2.2 (.inl none)
      rw [none, rest, exact_, exact_, ite_self, if_neg (show ¬widths.natural < target by omega)]
      by_cases negative : widths.shrink.normal < 0
      · rw [if_pos negative]
        refine iff_of_false ?_ fun both => both.2 ⟨exactly, negative⟩
        rintro ⟨bad, found, same⟩
        cases found
        exact absurd (Except.ok.inj same) (by decide)
      rw [if_neg negative]
      exact iff_of_true ⟨0, rfl, rfl⟩ ⟨harmless, fun both => negative both.2⟩
    have below : widths.natural < target := by omega
    have apart : ¬ ExactWithNegativeShrink widths target := fun both => exactly both.1
    rw [if_pos below]
    simp only [NegativeStretch, short, true_and, Int.add_zero, apart, not_false_eq_true, and_true]
    by_cases infinite : widths.stretch.highestOrder = .normal
    · have none := (highestOrder_eq_normal_iff widths.stretch).mp infinite
      rw [if_neg fun both => both.1 infinite, if_neg (by rw [none]; decide)]
      exact iff_of_true ⟨_, rfl, by rw [asBreakBadness_eq]⟩ fun negative => negative.2.1 infinite
    have some : widths.stretch.infiniteIsZero = false := by
      refine Bool.eq_false_iff.mpr fun none => ?_
      exact infinite ((highestOrder_eq_normal_iff widths.stretch).mpr none)
    have nonzero := get_highestOrder_ne_zero infinite
    rw [if_pos some]
    by_cases positive : 0 < widths.stretch.get widths.stretch.highestOrder
    · rw [if_pos ⟨infinite, positive⟩]
      exact iff_of_true ⟨0, rfl, rfl⟩ fun negative => by have := negative.1; omega
    rw [if_neg fun both => positive both.2]
    constructor
    · rintro ⟨bad, found, same⟩ negative
      cases found
      rw [asBreakBadness_eq, Except.ok.injEq] at same
      exact negative.2.2 (zero.mp same.symm)
    intro harmless
    have negligible : Negligible (target - widths.natural) widths.stretch.normal :=
      Classical.not_not.mp fun visible => harmless ⟨by omega, infinite, visible⟩
    exact ⟨_, rfl, by rw [asBreakBadness_eq, zero.mpr negligible]⟩
  have long : target - widths.natural < 0 := Int.not_le.mp short
  have above : ¬widths.natural < target := by omega
  have turned : widths.natural - target = -(target - widths.natural) := by omega
  rw [emergencyBadness_long totals long finite, if_neg above, turned]
  refine iff_of_true ⟨_, rfl, ?_⟩
    ⟨fun negative => short negative.1, fun both => by have := both.1; omega⟩
  split
  next => rfl
  next => rw [asBreakBadness_eq]

/-! ## All badness computations -/

/-- Badness is total and monotone; the badness of a line is the one it is to be, unless its
strongest infinite stretch is negative. -/
theorem badness_laws (t s : Int) (widths : Widths) (target emergency : Int) :
    (0 ≤ t → t ≤ 2147483647 → -2147483648 ≤ s → s ≤ 2147483647 →
      badness t s = wideBadness t s ∧ ∃ bad, badness t s = .ok bad ∧ 0 ≤ bad ∧ bad ≤ 10000 ∧
        (t < 2147483647 → ∃ worse, badness (t + 1) s = .ok worse ∧ bad ≤ worse) ∧
        (s < 2147483647 → ∃ better, badness t (s + 1) = .ok better ∧ better ≤ bad)) ∧
    (LineTotals widths target emergency → widths.shrink.infiniteIsZero = true →
      (emergencyBadness widths target emergency none = .ok (lineBadnessOf widths target emergency) ↔
        ¬ NegativeStretch widths target emergency)) ∧
    (LineTotals widths target 0 → widths.shrink.infiniteIsZero = true →
      -2147483648 < target - widths.natural → target - widths.natural ≤ 2147483647 →
      (TreatedAlike widths target ↔
        ¬ NegativeStretch widths target 0 ∧ ¬ ExactWithNegativeShrink widths target)) := by
  refine ⟨fun nonneg fits _ _ => ?_, emergencyBadness_eq_iff, treatedAlike_iff⟩
  have wide : inWide t = true := by
    simp only [inWide, Bool.and_eq_true, decide_eq_true_eq]
    omega
  refine ⟨?_, texBadnessWide t s, badness_eq nonneg fits s, texBadnessWide_nonneg nonneg s,
    texBadnessWide_le t s, ?_, ?_⟩
  · rw [badness_eq nonneg fits, wideBadness_eq nonneg wide]
  · intro below
    exact ⟨_, badness_eq (by omega) (by omega) s, texBadnessWide_mono_shortfall nonneg s⟩
  intro _
  exact ⟨_, badness_eq nonneg fits (s + 1), texBadnessWide_mono_available nonneg s⟩

/-- A line with as much natural width as `natural` and infinite stretch of the first order. -/
def filWidths (natural fil : Int) : Widths :=
  { natural, stretch := ⟨0, fil, 0, 0⟩, shrink := .zero, fontStretch := 0, fontShrink := 0 }

theorem badness_laws_negative_fil : (emergencyBadness (filWidths 0 (-65536)) 65536 0 none =
        .ok (lineBadnessOf (filWidths 0 (-65536)) 65536 0) ↔
      ¬ NegativeStretch (filWidths 0 (-65536)) 65536 0) ∧
    ∃ bad, badness 65536 65536 = .ok bad ∧ 0 ≤ bad := by
  obtain ⟨laws, lines, -⟩ := badness_laws 65536 65536 (filWidths 0 (-65536)) 65536 0
  refine ⟨lines ⟨by decide, by decide, by decide⟩ (by decide), ?_⟩
  obtain ⟨_, bad, found, nonneg, _⟩ :=
    laws (by decide) (by decide) (by decide) (by decide)
  exact ⟨bad, found, nonneg⟩

/-- A line short by one point with `fil` stretch of minus one point: infinitely bad here, but
without badness in TeX and in a vertical break. -/
theorem negative_fil_is_infinitely_bad : LineTotals (filWidths 0 (-65536)) 65536 0 ∧
    (filWidths 0 (-65536)).shrink.infiniteIsZero = true ∧
    emergencyBadness (filWidths 0 (-65536)) 65536 0 none = .ok 10000 ∧
    lineBadnessOf (filWidths 0 (-65536)) 65536 0 = 0 ∧
    VerticalBreak.verticalBreakBadness 65536 (filWidths 0 (-65536)).breakAccum = .ok 0 :=
  ⟨⟨by decide, by decide, by decide⟩, by decide, rfl, by decide, rfl⟩

end Umber.Typeset
