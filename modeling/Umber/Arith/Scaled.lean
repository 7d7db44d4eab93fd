import Umber.Lib.Except

/-! Fixed-point arithmetic: checked machine integers, decimal fractions, the
printed form of a scaled value and the conversion of physical units. -/

set_option autoImplicit false

namespace Umber.Arith

inductive Panic where
  | overflow
  | assertion (message : String)
  | expectation (message : String)
deriving DecidableEq

inductive DimensionError where
  | tooLarge
deriving DecidableEq

/-- Why a computation gives no value. `unfinished` marks a loop that has used
up the rounds the model grants it. -/
inductive Stop where
  | panic (reason : Panic)
  | dimension (error : DimensionError)
  | unfinished
deriving DecidableEq

abbrev Outcome (α : Type) := Except Stop α

abbrev Scaled := Int32

/-! ## Checked machine integers -/

def InI32 (value : Int) : Prop := -2147483648 ≤ value ∧ value ≤ 2147483647

def InI64 (value : Int) : Prop :=
  -9223372036854775808 ≤ value ∧ value ≤ 9223372036854775807

instance (value : Int) : Decidable (InI32 value) := inferInstanceAs (Decidable (_ ∧ _))

instance (value : Int) : Decidable (InI64 value) := inferInstanceAs (Decidable (_ ∧ _))

def i32 (value : Int) : Outcome Int :=
  if InI32 value then .ok value else .error (.panic .overflow)

def i64 (value : Int) : Outcome Int :=
  if InI64 value then .ok value else .error (.panic .overflow)

def tryI32 (value : Int) (message : String) : Outcome Scaled :=
  if InI32 value then .ok (Int32.ofInt value) else .error (.panic (.expectation message))

def ensure (condition : Prop) [Decidable condition] (message : String) : Outcome Unit :=
  if condition then .ok () else .error (.panic (.assertion message))

def unity : Int := 65536

def checkDimension (raw : Int) : Outcome Scaled :=
  if 1073741824 ≤ raw ∨ raw ≤ -1073741824 then .error (.dimension .tooLarge)
  else .ok (Int32.ofInt raw)

/-! ## Decimal fractions -/

def roundDecimalDigit (digit : UInt8) (a : Int) : Outcome Int := do
  ensure (digit ≤ 9) "decimal fraction digit out of range"
  let doubled ← i32 ((digit.toNat : Int) * 2)
  let scaledDigit ← i32 (doubled * unity)
  let sum ← i32 (a + scaledDigit)
  i32 (sum.tdiv 10)

def roundDecimalFraction (digits : List UInt8) : Outcome Int := do
  let a ← (digits.take 17).foldrM roundDecimalDigit 0
  let sum ← i32 (a + 1)
  i32 (sum.tdiv 2)

/-! ## Printing -/

/-- The character of a printed digit, with the checks of its two conversions. -/
def digitCharacter (digit : Int) : Outcome Char := do
  if 0 ≤ digit ∧ digit ≤ 255 then
    if digit + 48 ≤ 255 then .ok (Char.ofNat (digit.toNat + 48))
    else .error (.panic .overflow)
  else .error (.panic (.expectation "scaled digit fits u8"))

def roundFinalDigit (fraction delta : Int) : Outcome Int :=
  if unity < delta then i64 (fraction + (32768 - 50000)) else .ok fraction

def printScaledDigits : Nat → String → Int → Int → Outcome String
  | 0, _, _, _ => .error .unfinished
  | rounds + 1, text, fraction, delta => do
    let fraction ← roundFinalDigit fraction delta
    let character ← digitCharacter (fraction.tdiv unity)
    let text := text.push character
    let fraction ← i64 (10 * fraction.tmod unity)
    let delta ← i64 (delta * 10)
    if fraction ≤ delta then .ok text else printScaledDigits rounds text fraction delta

def printScaled (value : Scaled) : Outcome String := do
  let sign := if value.toInt < 0 then "-" else ""
  let remainder ← i64 (if value.toInt < 0 then -value.toInt else value.toInt)
  let text := (sign ++ toString (remainder.tdiv unity)).push '.'
  let shifted ← i64 (10 * remainder.tmod unity)
  let fraction ← i64 (shifted + 5)
  printScaledDigits 5 text fraction 10

/-! ## Physical units -/

inductive PhysicalUnit where
  | sp
  | pt
  | inch
  | pc
  | cm
  | mm
  | bp
  | dd
  | cc
  | nd
  | nc
deriving DecidableEq

def PhysicalUnit.pointRatio : PhysicalUnit → Int × Int
  | .sp => (1, unity)
  | .pt => (1, 1)
  | .inch => (7227, 100)
  | .pc => (12, 1)
  | .cm => (7227, 254)
  | .mm => (7227, 2540)
  | .bp => (7227, 7200)
  | .dd => (1238, 1157)
  | .cc => (14856, 1157)
  | .nd => (685, 642)
  | .nc => (1370, 107)

structure XnOverD where
  quotient : Scaled
  remainder : Int32

def xnOverDRadix : Int := 32768

def xnOverD (x : Scaled) (n d : Int) : Outcome XnOverD := do
  ensure (0 ≤ n ∧ n ≤ unity) "numerator out of TeX range"
  ensure (1 ≤ d ∧ d ≤ unity) "denominator out of TeX range"
  let positive : Bool := decide (0 ≤ x.toInt)
  let xAbs ← i64 (x.toInt.natAbs : Int)
  let t ← i64 (xAbs.tmod xnOverDRadix * n)
  let whole ← i64 (xAbs.tdiv xnOverDRadix * n)
  let u ← i64 (whole + t.tdiv xnOverDRadix)
  let carried ← i64 (u.tmod d * xnOverDRadix)
  let v ← i64 (carried + t.tmod xnOverDRadix)
  if xnOverDRadix ≤ u.tdiv d then .error (.dimension .tooLarge)
  else do
    let high ← i64 (xnOverDRadix * u.tdiv d)
    let quotient ← i64 (high + v.tdiv d)
    let remainder := v.tmod d
    let quotient ← tryI32 (if positive then quotient else -quotient)
      "xn_over_d quotient fits i32 after TeX overflow check"
    let remainder ← tryI32 (if positive then remainder else -remainder)
      "xn_over_d remainder fits i32"
    .ok { quotient, remainder }

/-- The whole points and the fraction of a point that a value is, in a unit other
than the scaled point. -/
def pointParts (integer fraction : Int32) (unit : PhysicalUnit) : Outcome (Int × Int) :=
  if unit ≠ .pt then do
    let num := unit.pointRatio.1
    let denom := unit.pointRatio.2
    let converted ← xnOverD integer num denom
    let product ← i32 (num * fraction.toInt)
    let carried ← i32 (unity * converted.remainder.toInt)
    let sum ← i32 (product + carried)
    let frac ← i32 (sum.tdiv denom)
    let cur ← i32 (converted.quotient.toInt + frac.tdiv unity)
    .ok (cur, frac.tmod unity)
  else .ok (integer.toInt, fraction.toInt)

def scaledFromDecimalParts (integer fraction : Int32) (unit : PhysicalUnit) :
    Outcome Scaled := do
  ensure (0 ≤ integer.toInt) "dimension integer part must be nonnegative"
  ensure (0 ≤ fraction.toInt ∧ fraction.toInt ≤ unity) "dimension fraction out of range"
  if unit = .sp then checkDimension integer.toInt
  else do
    let parts ← pointParts integer fraction unit
    if 16384 ≤ parts.1 then .error (.dimension .tooLarge)
    else do
      let points ← i32 (parts.1 * unity)
      let raw ← i32 (points + parts.2)
      checkDimension raw

def scaleTrueDimensionParts (integer fraction mag : Int32) : Outcome (Int32 × Int32) := do
  ensure (0 ≤ integer.toInt) "dimension integer part must be nonnegative"
  ensure (0 ≤ fraction.toInt ∧ fraction.toInt ≤ unity) "dimension fraction out of range"
  ensure (1 ≤ mag.toInt ∧ mag.toInt ≤ 32768) "magnification out of TeX range"
  if mag.toInt = 1000 then .ok (integer, fraction)
  else do
    let converted ← xnOverD integer 1000 mag.toInt
    let product ← i32 (1000 * fraction.toInt)
    let carried ← i64 (unity * converted.remainder.toInt)
    let numerator ← i64 (product + carried)
    let scaledFraction := numerator.tdiv mag.toInt
    let scaledInteger ← i64 (converted.quotient.toInt + scaledFraction.tdiv unity)
    let integer ← tryI32 scaledInteger "true-scaled integer parts fit i32"
    let fraction ← tryI32 (scaledFraction.tmod unity) "true-scaled fractional parts fit i32"
    .ok (integer, fraction)

end Umber.Arith
