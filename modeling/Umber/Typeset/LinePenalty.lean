import Umber.Typeset.Widths

/-! The penalty behind a line of a paragraph, and the size that `\left` and `\right` ask of
their delimiters. -/

set_option autoImplicit false

namespace Umber.Typeset

/-! ## Penalties between lines -/

structure PenaltySequence where
  values : List Int
  fallback : Int

inductive WidowPenaltySelector where
  | ordinary
  | displayInterrupted

structure WidowPenalties where
  selector : WidowPenaltySelector
  ordinary : PenaltySequence
  display : PenaltySequence

structure LinePenaltyParams where
  interlinePenalty : Int
  clubPenalty : Int
  widowPenalties : WidowPenalties
  brokenPenalty : Int
  prevGraf : Int
  interlinePenalties : List Int
  clubPenalties : List Int

def penaltyArrayValue (values : List Int) (oneBasedIndex : Nat) : Option Int :=
  if values.isEmpty then none else values[min oneBasedIndex values.length - 1]?

def WidowPenalties.selected (penalties : WidowPenalties) : PenaltySequence :=
  match penalties.selector with
  | .ordinary => penalties.ordinary
  | .displayInterrupted => penalties.display

namespace LinePenaltyParams

def interlineAt (params : LinePenaltyParams) (lineNo : Nat) : Int :=
  (penaltyArrayValue params.interlinePenalties (params.prevGraf.toNat + lineNo + 1)).getD
    params.interlinePenalty

def clubAt (params : LinePenaltyParams) (lineNo : Nat) : Int :=
  (penaltyArrayValue params.clubPenalties (lineNo + 1)).getD
    (if lineNo = 0 then params.clubPenalty else 0)

def widowAt (params : LinePenaltyParams) (lineNo breakCount : Nat) : Int :=
  (penaltyArrayValue params.widowPenalties.selected.values (breakCount - lineNo - 1)).getD
    (if lineNo + 2 = breakCount then params.widowPenalties.selected.fallback else 0)

end LinePenaltyParams

/-- The penalty behind a line, none behind the last one. Each sum must be a TeX integer. -/
def linePenaltyAfter (lineNo breakCount : Nat) (hyphenated : Bool) (params : LinePenaltyParams) :
    Checked (Option Int) :=
  if breakCount ≤ lineNo + 1 then .ok none
  else do
    let penalty ← toScaled (params.interlineAt lineNo + params.clubAt lineNo)
    let penalty ← toScaled (penalty + params.widowAt lineNo breakCount)
    let penalty ←
      if hyphenated = true then toScaled (penalty + params.brokenPenalty) else .ok penalty
    .ok (if penalty ≠ 0 then some penalty else none)

/-! ## Delimiters around a formula -/

inductive MathFontSize where
  | text
  | script
  | scriptScript

structure DelimiterParams where
  axisHeight : MathFontSize → Int
  delimiterFactor : Int
  delimiterShortfall : Int

def leftRightDelimiterTarget (params : DelimiterParams) (size : MathFontSize)
    (maxHeight maxDepth : Int) : Checked Int := do
  let axis := params.axisHeight size
  let delta2 ← toScaled (maxDepth + axis)
  let extent ← toScaled (maxHeight + maxDepth)
  let delta1 ← toScaled (extent - delta2)
  let delta1 := if delta1 < delta2 then delta2 else delta1
  let factored := min (max (delta1.tdiv 500 * params.delimiterFactor) (-2147483648)) 2147483647
  let twice ← toScaled (delta1 + delta1)
  let shortfallTarget ← toScaled (twice - params.delimiterShortfall)
  .ok (max factored shortfallTarget)

/-! ## Where the sums stay in range -/

def IsScaled (value : Int) : Prop := -2147483648 ≤ value ∧ value ≤ 2147483647

/-- The sums of the penalties behind a line, in the order in which they are added. -/
def LinePenaltiesFit (lineNo breakCount : Nat) (hyphenated : Bool) (params : LinePenaltyParams) :
    Prop :=
  breakCount ≤ lineNo + 1 ∨
    IsScaled (params.interlineAt lineNo + params.clubAt lineNo) ∧
      IsScaled (params.interlineAt lineNo + params.clubAt lineNo +
        params.widowAt lineNo breakCount) ∧
      (hyphenated = true → IsScaled (params.interlineAt lineNo + params.clubAt lineNo +
        params.widowAt lineNo breakCount + params.brokenPenalty))

def axisExtent (axis maxHeight maxDepth : Int) : Int := max (maxHeight - axis) (maxDepth + axis)

structure DelimiterFits (params : DelimiterParams) (size : MathFontSize)
    (maxHeight maxDepth : Int) : Prop where
  below : IsScaled (maxDepth + params.axisHeight size)
  extent : IsScaled (maxHeight + maxDepth)
  above : IsScaled (maxHeight - params.axisHeight size)
  twice : IsScaled (2 * axisExtent (params.axisHeight size) maxHeight maxDepth)
  shortfall : IsScaled (2 * axisExtent (params.axisHeight size) maxHeight maxDepth -
    params.delimiterShortfall)

theorem toScaled_isScaled {value : Int} (scaled : IsScaled value) :
    toScaled value = .ok value := if_pos scaled

theorem toScaled_not_isScaled {value : Int} (beyond : ¬ IsScaled value) :
    toScaled value = .error .scaledOverflow := if_neg beyond

open ExceptLib

theorem linePenaltyAfter_returns_iff (lineNo breakCount : Nat) (hyphenated : Bool)
    (params : LinePenaltyParams) :
    (∃ penalty, linePenaltyAfter lineNo breakCount hyphenated params = .ok penalty) ↔
      LinePenaltiesFit lineNo breakCount hyphenated params := by
  unfold linePenaltyAfter LinePenaltiesFit
  by_cases last : breakCount ≤ lineNo + 1
  · rw [if_pos last]
    exact iff_of_true ⟨none, rfl⟩ (.inl last)
  rw [if_neg last, or_iff_right last]
  by_cases club : IsScaled (params.interlineAt lineNo + params.clubAt lineNo)
  case neg =>
    rw [toScaled_not_isScaled club, error_bind]
    exact iff_of_false (fun found => nomatch found.choose_spec) fun fits => club fits.1
  rw [toScaled_isScaled club, ok_bind]
  by_cases widow : IsScaled (params.interlineAt lineNo + params.clubAt lineNo +
      params.widowAt lineNo breakCount)
  case neg =>
    rw [toScaled_not_isScaled widow, error_bind]
    exact iff_of_false (fun found => nomatch found.choose_spec) fun fits => widow fits.2.1
  rw [toScaled_isScaled widow, ok_bind]
  rcases Bool.eq_false_or_eq_true hyphenated with rfl | rfl
  · by_cases broken : IsScaled (params.interlineAt lineNo + params.clubAt lineNo +
        params.widowAt lineNo breakCount + params.brokenPenalty)
    · rw [if_pos rfl, toScaled_isScaled broken, ok_bind]
      exact iff_of_true ⟨_, rfl⟩ ⟨club, widow, fun _ => broken⟩
    rw [if_pos rfl, toScaled_not_isScaled broken, error_bind]
    exact iff_of_false (fun found => nomatch found.choose_spec) fun fits => broken (fits.2.2 rfl)
  rw [if_neg Bool.false_ne_true, ok_bind]
  exact iff_of_true ⟨_, rfl⟩ ⟨club, widow, nofun⟩

theorem leftRightDelimiterTarget_returns_iff (params : DelimiterParams) (size : MathFontSize)
    (maxHeight maxDepth : Int) :
    (∃ target, leftRightDelimiterTarget params size maxHeight maxDepth = .ok target) ↔
      DelimiterFits params size maxHeight maxDepth := by
  unfold leftRightDelimiterTarget
  by_cases below : IsScaled (maxDepth + params.axisHeight size)
  case neg =>
    simp only [toScaled_not_isScaled below, error_bind]
    exact iff_of_false (fun found => nomatch found.choose_spec) fun fits => below fits.below
  by_cases extent : IsScaled (maxHeight + maxDepth)
  case neg =>
    simp only [toScaled_isScaled below, toScaled_not_isScaled extent, ok_bind, error_bind]
    exact iff_of_false (fun found => nomatch found.choose_spec) fun fits => extent fits.extent
  have turned : maxHeight + maxDepth - (maxDepth + params.axisHeight size) =
      maxHeight - params.axisHeight size := by omega
  by_cases above : IsScaled (maxHeight - params.axisHeight size)
  case neg =>
    simp only [toScaled_isScaled below, toScaled_isScaled extent, turned,
      toScaled_not_isScaled above, ok_bind, error_bind]
    exact iff_of_false (fun found => nomatch found.choose_spec) fun fits => above fits.above
  have larger : (if maxHeight - params.axisHeight size < maxDepth + params.axisHeight size then
      maxDepth + params.axisHeight size else maxHeight - params.axisHeight size) =
      axisExtent (params.axisHeight size) maxHeight maxDepth := by
    unfold axisExtent
    omega
  have double : axisExtent (params.axisHeight size) maxHeight maxDepth +
      axisExtent (params.axisHeight size) maxHeight maxDepth =
      2 * axisExtent (params.axisHeight size) maxHeight maxDepth := by omega
  simp only [toScaled_isScaled below, toScaled_isScaled extent, turned, toScaled_isScaled above,
    ok_bind, larger, double]
  by_cases twice : IsScaled (2 * axisExtent (params.axisHeight size) maxHeight maxDepth)
  case neg =>
    simp only [toScaled_not_isScaled twice, error_bind]
    exact iff_of_false (fun found => nomatch found.choose_spec) fun fits => twice fits.twice
  by_cases shortfall : IsScaled (2 * axisExtent (params.axisHeight size) maxHeight maxDepth -
      params.delimiterShortfall)
  case neg =>
    simp only [toScaled_isScaled twice, toScaled_not_isScaled shortfall, ok_bind, error_bind]
    exact iff_of_false (fun found => nomatch found.choose_spec) fun fits => shortfall fits.shortfall
  simp only [toScaled_isScaled twice, toScaled_isScaled shortfall, ok_bind]
  exact iff_of_true ⟨_, rfl⟩ ⟨below, extent, above, twice, shortfall⟩

end Umber.Typeset
