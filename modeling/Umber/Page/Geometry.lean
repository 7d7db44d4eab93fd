import Umber.Page.Model

/-! Page geometry: checked scaled arithmetic, glue setting in emulated binary64
arithmetic, leader placement and vertical snapping. -/

set_option autoImplicit false

namespace Umber.Page

/-! ## Scaled arithmetic -/

def scaledOfInt (value : Int) : Option Scaled :=
  if -2147483648 ≤ value ∧ value ≤ 2147483647 then some (Int32.ofInt value) else none

def Scaled.checkedAdd (left right : Scaled) : Option Scaled :=
  scaledOfInt (left.toInt + right.toInt)

def Scaled.checkedSub (left right : Scaled) : Option Scaled :=
  scaledOfInt (left.toInt - right.toInt)

inductive GeometryError where
  | missingEffect (effectIndex : UInt32)
  | positionOverflow

def add (left right : Scaled) : Except GeometryError Scaled :=
  match Scaled.checkedAdd left right with
  | some sum => .ok sum
  | none => .error .positionOverflow

def scaled (value : Int) : Except GeometryError Scaled :=
  match scaledOfInt value with
  | some result => .ok result
  | none => .error .positionOverflow

/-! ## Glue -/

def billion : Nat := 1000000000

def roundQuotientToEven (n d : Nat) : Nat :=
  let quotient := n / d
  let remainder := n % d
  if d < remainder * 2 then quotient + 1
  else if remainder * 2 = d ∧ quotient % 2 ≠ 0 then quotient + 1
  else quotient

def roundPowerOfTwoToEven (value shift : Nat) : Nat :=
  let quotient := value >>> shift
  let remainder := value % (1 <<< shift)
  let halfway := 1 <<< (shift - 1)
  if halfway < remainder ∨ (remainder = halfway ∧ quotient % 2 ≠ 0) then quotient + 1
  else quotient

def floorLog2Ratio (n d : Nat) : Int :=
  let exponent : Int := (Nat.log2 n : Int) - Nat.log2 d
  let below :=
    if 0 ≤ exponent then n < d <<< exponent.toNat else n <<< (-exponent).toNat < d
  if below then exponent - 1 else exponent

/-- The nearest binary64 value to `n / d`, as a significand and an exponent. -/
def binary64Ratio (n d : Nat) : Nat × Int :=
  if n = 0 then (0, 0)
  else
    let exponent := floorLog2Ratio n d
    let shift := 52 - exponent
    let significand :=
      if 0 ≤ shift then roundQuotientToEven (n <<< shift.toNat) d
      else roundQuotientToEven n (d <<< (-shift).toNat)
    if significand = 1 <<< 53 then (significand >>> 1, exponent + 1 - 52)
    else (significand, exponent - 52)

def binary64MultiplyInteger (significand : Nat) (exponent : Int) (multiplier : Nat) :
    Nat × Int :=
  let product := significand * multiplier
  if product = 0 then (0, 0)
  else
    let bits := Nat.log2 product + 1
    if bits ≤ 53 then (product, exponent)
    else
      let shift := bits - 53
      let rounded := roundPowerOfTwoToEven product shift
      let exponent := exponent + shift
      if rounded = 1 <<< 53 then (rounded >>> 1, exponent + 1) else (rounded, exponent)

def roundBinaryProduct (significand : Nat) (exponent : Int) : Nat :=
  if significand = 0 then 0
  else if 0 ≤ exponent then min (significand <<< exponent.toNat) billion
  else
    let shift := (-exponent).toNat
    if billion <<< shift ≤ significand then billion
    else
      let quotient := significand >>> shift
      let remainder := significand % (1 <<< shift)
      quotient + if 1 <<< (shift - 1) ≤ remainder then 1 else 0

def roundedGlueSet (glueSet : GlueSetRatio) (curGlue : Scaled) : Scaled :=
  let ratio := binary64Ratio glueSet.numerator.toInt.natAbs glueSet.denominator.toInt.natAbs
  let negative : Bool :=
    decide (glueSet.numerator.toInt < 0) != decide (curGlue.toInt < 0)
  let product := binary64MultiplyInteger ratio.1 ratio.2 curGlue.toInt.natAbs
  let rounded := min (roundBinaryProduct product.1 product.2) billion
  Int32.ofInt (if negative then -(rounded : Int) else rounded)

structure GlueTotals where
  curG : Scaled
  curGlue : Scaled
deriving DecidableEq

def GlueTotals.zero : GlueTotals :=
  { curG := 0, curGlue := 0 }

/-- The size of a glue node in its list, with the totals behind it; `none` when
the arithmetic overflows. -/
def adjustedGlueWidth (spec : GlueSpec) (gSign : GlueSign) (gOrder : GlueOrder)
    (glueSet : GlueSetRatio) (totals : GlueTotals) : Option (Scaled × GlueTotals) := do
  let base ← Scaled.checkedSub spec.width totals.curG
  let totals ←
    if gSign = .stretching ∧ spec.stretchOrder = gOrder then do
      let curGlue ← Scaled.checkedAdd totals.curGlue spec.stretch
      some { curGlue, curG := roundedGlueSet glueSet curGlue : GlueTotals }
    else if gSign = .shrinking ∧ spec.shrinkOrder = gOrder then do
      let curGlue ← Scaled.checkedSub totals.curGlue spec.shrink
      some { curGlue, curG := roundedGlueSet glueSet curGlue : GlueTotals }
    else some totals
  let width ← Scaled.checkedAdd base totals.curG
  some (width, totals)

/-! ## Leaders -/

def leaderRoundingCompensation : Scaled := 10

inductive LeaderMode where
  | aligned
  | centered
  | expanded

def LeaderMode.fromGlue : GlueKind → Option LeaderMode
  | .leaders => some .aligned
  | .cleaders => some .centered
  | .xleaders => some .expanded
  | .normal | .baselineSkip | .lineSkip | .leftSkip | .rightSkip | .parFillSkip => none

/-- Where the first copy of a leader box goes and the space between copies. -/
def leaderStart (kind : LeaderMode) (cur origin available size : Scaled) :
    Except GeometryError (Scaled × Scaled) :=
  match kind with
  | .aligned => do
    let diff := cur.toInt - origin.toInt
    let quotient := diff.tdiv size.toInt
    let start ← scaled (origin.toInt + size.toInt * quotient)
    if start.toInt < cur.toInt then do
      let start ← add start size
      pure (start, 0)
    else pure (start, 0)
  | .centered => do
    let start ← add cur (Int32.ofInt ((available.toInt.tmod size.toInt).tdiv 2))
    pure (start, 0)
  | .expanded => do
    let quotient := available.toInt.tdiv size.toInt
    let remainder := available.toInt.tmod size.toInt
    let extra := remainder.tdiv (quotient + 1)
    let margin ← scaled ((remainder - (quotient - 1) * extra).tdiv 2)
    let start ← add cur margin
    let extra ← scaled extra
    pure (start, extra)

/-! ## Snapping -/

def correction (current reference : Scaled) (spec : GlueSpec) : Option Scaled :=
  let width := spec.width.toInt
  if width ≤ 0 then none
  else
    let relative := current.toInt - reference.toInt
    let lower := reference.toInt + relative / width * width
    let upper := lower + width
    let backward := lower - current.toInt
    let forward := upper - current.toInt
    let backwardAllowed := spec.shrinkOrder ≠ .normal ∨ -backward < spec.shrink.toInt
    let forwardAllowed := spec.stretchOrder ≠ .normal ∨ forward < spec.stretch.toInt
    if backwardAllowed then
      if forwardAllowed then
        if -backward < forward then scaledOfInt backward else scaledOfInt forward
      else scaledOfInt backward
    else if forwardAllowed then scaledOfInt forward
    else none

/-- The compensation of a correction, which the caller expects to fit. -/
def compensate (correction : Scaled) (ratio : UInt16) : Option Scaled :=
  scaledOfInt ((correction.toInt * ratio.toNat).tdiv 1000)

def predictSnapCorrection (effects : List PageEffect) (thisBox : BoxFields) :
    List PageNode → Scaled → Scaled → GlueTotals → Except GeometryError (Option Scaled)
  | [], _, _, _ => .ok none
  | child :: following, current, reference, totals =>
    match child with
    | .box _ fields _ => do
      let extent ← add fields.height fields.depth
      let current ← add current extent
      predictSnapCorrection effects thisBox following current reference totals
    | .rule _ height depth => do
      let extent ← add (height.getD 0) (depth.getD 0)
      let current ← add current extent
      predictSnapCorrection effects thisBox following current reference totals
    | .glue spec _ | .ruleLeader spec _ _ _ _ | .boxLeader spec _ _ _ _ =>
      match adjustedGlueWidth spec thisBox.glueSign thisBox.glueOrder thisBox.glueSet totals with
      | none => .error .positionOverflow
      | some (width, totals) => do
        let current ← add current width
        predictSnapCorrection effects thisBox following current reference totals
    | .kern amount _ | .marginKern amount _ _ _ => do
      let current ← add current amount
      predictSnapCorrection effects thisBox following current reference totals
    | .whatsitAnchor effectIndex =>
      match effects[effectIndex.toNat]? with
      | none => .error (.missingEffect effectIndex)
      | some .pdfSnapRefPoint =>
        predictSnapCorrection effects thisBox following current current totals
      | some (.pdfSnapY spec) => .ok (correction current reference spec)
      | some _ => predictSnapCorrection effects thisBox following current reference totals
    | _ => predictSnapCorrection effects thisBox following current reference totals

/-! ## Glue setting in checked 128-bit integers -/

def u128 (value : Nat) : Option Nat :=
  if value < 340282366920938463463374607431768211456 then some value else none

def roundQuotientToEvenU128 (n d : Nat) : Option Nat := do
  let quotient := n / d
  let doubled ← u128 (n % d * 2)
  if d < doubled then u128 (quotient + 1)
  else if doubled = d ∧ quotient % 2 ≠ 0 then u128 (quotient + 1)
  else some quotient

def roundPowerOfTwoToEvenU128 (value shift : Nat) : Option Nat := do
  let quotient := value >>> shift
  let modulus ← u128 (1 <<< shift)
  let remainder := value % modulus
  let halfway ← u128 (1 <<< (shift - 1))
  if halfway < remainder ∨ (remainder = halfway ∧ quotient % 2 ≠ 0) then u128 (quotient + 1)
  else some quotient

def floorLog2RatioU128 (n d : Nat) : Option Int := do
  let exponent : Int := (Nat.log2 n : Int) - Nat.log2 d
  let scaled ← u128 (if 0 ≤ exponent then d <<< exponent.toNat else n <<< (-exponent).toNat)
  let below := if 0 ≤ exponent then n < scaled else scaled < d
  some (if below then exponent - 1 else exponent)

def binary64RatioU128 (n d : Nat) : Option (Nat × Int) :=
  if n = 0 then some (0, 0)
  else do
    let exponent ← floorLog2RatioU128 n d
    let shift := 52 - exponent
    let scaled ← u128 (if 0 ≤ shift then n <<< shift.toNat else d <<< (-shift).toNat)
    let significand ←
      if 0 ≤ shift then roundQuotientToEvenU128 scaled d else roundQuotientToEvenU128 n scaled
    some (if significand = 1 <<< 53 then (significand >>> 1, exponent + 1 - 52)
      else (significand, exponent - 52))

def binary64MultiplyIntegerU128 (significand : Nat) (exponent : Int) (multiplier : Nat) :
    Option (Nat × Int) := do
  let product ← u128 (significand * multiplier)
  if product = 0 then some (0, 0)
  else if Nat.log2 product + 1 ≤ 53 then some (product, exponent)
  else do
    let shift := Nat.log2 product + 1 - 53
    let rounded ← roundPowerOfTwoToEvenU128 product shift
    let exponent := exponent + shift
    some (if rounded = 1 <<< 53 then (rounded >>> 1, exponent + 1) else (rounded, exponent))

def roundBinaryProductU128 (significand : Nat) (exponent : Int) : Option Nat :=
  if significand = 0 then some 0
  else if 0 ≤ exponent then do
    let scaled ← u128 (significand <<< exponent.toNat)
    some (min scaled billion)
  else do
    let shift := (-exponent).toNat
    let limit ← u128 (billion <<< shift)
    if limit ≤ significand then some billion
    else do
      let quotient := significand >>> shift
      let modulus ← u128 (1 <<< shift)
      let remainder := significand % modulus
      let halfway ← u128 (1 <<< (shift - 1))
      u128 (quotient + if halfway ≤ remainder then 1 else 0)

def roundedGlueSetU128 (glueSet : GlueSetRatio) (curGlue : Scaled) : Option Scaled := do
  let ratio ←
    binary64RatioU128 glueSet.numerator.toInt.natAbs glueSet.denominator.toInt.natAbs
  let negative : Bool :=
    decide (glueSet.numerator.toInt < 0) != decide (curGlue.toInt < 0)
  let product ← binary64MultiplyIntegerU128 ratio.1 ratio.2 curGlue.toInt.natAbs
  let whole ← roundBinaryProductU128 product.1 product.2
  let rounded := min whole billion
  some (Int32.ofInt (if negative then -(rounded : Int) else rounded))

end Umber.Page
