import Umber.Command.Expression
import Umber.Lib.Audited
import Umber.Lib.HalfAway

/-! The meaning of expressions: syntax trees, the values they have by recursion
with the checks made on the way, and the grammar by which a stream of commands
reads as a tree. -/

set_option autoImplicit false

namespace Umber.Command

open Umber.Page (GlueOrder)
open HalfAway (roundAway)

/-! ## Checks -/

inductive ExpressionCheck where
  | range (value limit : Int)
  | divisor (value : Int)

namespace ExpressionCheck

def passes : ExpressionCheck → Bool
  | .range value limit => |value| ≤ limit
  | .divisor value => value ≠ 0

end ExpressionCheck

abbrev Checked (α : Type) := Audited ExpressionCheck α

def within (limit value : Int) : Checked Int where
  value := if |value| ≤ limit then value else 0
  checks := [.range value limit]

def product (factor limit value : Int) : Checked Int := within limit (value * factor)

/-- One exact product with one rounding. A division by zero gives zero. -/
def ratio (numerator denominator limit value : Int) : Checked Int :=
  if denominator = 0 then ⟨0, [.divisor 0]⟩
  else
    let rounded := within limit (roundAway ((value * numerator : ℚ) / denominator))
    ⟨rounded.value, .divisor denominator :: rounded.checks⟩

def signed (subtract : Bool) (value : Int) : Int := if subtract then -value else value

/-! ## Values by kind -/

@[reducible] def ExpressionKind.Value (γ : Type) : ExpressionKind → Type
  | .integer | .dimension => Int
  | .glue | .muGlue => ExpressionGlue γ

variable {γ : Type}

namespace ExpressionGlue

def components (operation : Int → Checked Int) (glue : ExpressionGlue γ) :
    Checked (ExpressionGlue γ) := do
  let width ← operation glue.width
  let stretch ← operation glue.stretch
  let shrink ← operation glue.shrink
  pure { glue with width, stretch, shrink }

/-- Components of one order add up. Of two orders the higher one wins, with its
own sign, unless its component is zero. -/
def sumComponent (subtract : Bool) (left right : Int × GlueOrder) : Checked (Int × GlueOrder) :=
  if left.2 = right.2 then do
    let sum ← within dimensionLimit (left.1 + signed subtract right.1)
    pure (sum, left.2)
  else if orderRank left.2 < orderRank right.2 ∧ right.1 ≠ 0 then pure right
  else pure left

def sum (subtract : Bool) (left right : ExpressionGlue γ) : Checked (ExpressionGlue γ) := do
  let width ← within dimensionLimit (left.width + signed subtract right.width)
  let stretch ← sumComponent subtract (left.stretch, left.stretchOrder)
    (right.stretch, right.stretchOrder)
  let shrink ← sumComponent subtract (left.shrink, left.shrinkOrder)
    (right.shrink, right.shrinkOrder)
  let added : ExpressionGlue γ := { left with
    width, stretch := stretch.1, stretchOrder := stretch.2
    shrink := shrink.1, shrinkOrder := shrink.2 }
  pure added.normalize.anonymous

end ExpressionGlue

namespace ExpressionKind

def present : (kind : ExpressionKind) → kind.Value γ → ExpressionValue γ
  | .integer, value | .dimension, value => .number value
  | .glue, value | .muGlue, value => .glue value

/-- The value with every component checked against the limit of its kind. -/
def checked : (kind : ExpressionKind) → kind.Value γ → Checked (kind.Value γ)
  | .integer, value => within integerLimit value
  | .dimension, value => within dimensionLimit value
  | .glue, value | .muGlue, value => value.components (within dimensionLimit)

/-- The first factor of a term: with an operator after it, glue loses its origin
and the orders of its zero components. -/
def settled : (kind : ExpressionKind) → (followed : Bool) → kind.Value γ → kind.Value γ
  | .integer, _, value | .dimension, _, value => value
  | .glue, followed, value | .muGlue, followed, value =>
    if followed then value.normalize.anonymous else value

def scaled (operation : (limit value : Int) → Checked Int) :
    (kind : ExpressionKind) → kind.Value γ → Checked (kind.Value γ)
  | .integer, value => operation integerLimit value
  | .dimension, value => operation dimensionLimit value
  | .glue, value | .muGlue, value => value.anonymous.components (operation dimensionLimit)

def sum (subtract : Bool) :
    (kind : ExpressionKind) → kind.Value γ → kind.Value γ → Checked (kind.Value γ)
  | .integer, left, right => within integerLimit (left + signed subtract right)
  | .dimension, left, right => within dimensionLimit (left + signed subtract right)
  | .glue, left, right | .muGlue, left, right => left.sum subtract right

end ExpressionKind

/-! ## Trees -/

inductive ExpressionLevel where
  | factor
  | term
  | expression

/-- The syntax trees of a level and a kind. Factors after a multiplication or a
division are integers, whatever the kind of the expression. -/
inductive ExpressionTree (γ : Type) : ExpressionLevel → ExpressionKind → Type where
  | scalar {kind : ExpressionKind} (value : kind.Value γ) : ExpressionTree γ .factor kind
  | group {kind : ExpressionKind} (body : ExpressionTree γ .expression kind) :
      ExpressionTree γ .factor kind
  | single {kind : ExpressionKind} (factor : ExpressionTree γ .factor kind) :
      ExpressionTree γ .term kind
  | multiply {kind : ExpressionKind} (term : ExpressionTree γ .term kind)
      (factor : ExpressionTree γ .factor .integer) : ExpressionTree γ .term kind
  | divide {kind : ExpressionKind} (term : ExpressionTree γ .term kind)
      (divisor : ExpressionTree γ .factor .integer) : ExpressionTree γ .term kind
  | scale {kind : ExpressionKind} (term : ExpressionTree γ .term kind)
      (numerator denominator : ExpressionTree γ .factor .integer) : ExpressionTree γ .term kind
  | first {kind : ExpressionKind} (term : ExpressionTree γ .term kind) :
      ExpressionTree γ .expression kind
  | sum {kind : ExpressionKind} (subtract : Bool) (left : ExpressionTree γ .expression kind)
      (right : ExpressionTree γ .term kind) : ExpressionTree γ .expression kind

/-- The value of a tree, with the checks of its factors, terms and partial sums.
`followed` tells whether an operator comes after it. -/
def ExpressionTree.evaluate {level : ExpressionLevel} {kind : ExpressionKind} :
    ExpressionTree γ level kind → (followed : Bool) → Checked (kind.Value γ)
  | .scalar value, _ => kind.checked value
  | .group body, _ => do
    let value ← body.evaluate false
    kind.checked value
  | .single factor, followed => do
    let value ← factor.evaluate followed
    pure (kind.settled followed value)
  | .multiply term factor, followed => do
    let value ← term.evaluate true
    let factor ← factor.evaluate followed
    kind.scaled (product factor) value
  | .divide term divisor, followed => do
    let value ← term.evaluate true
    let divisor ← divisor.evaluate followed
    kind.scaled (ratio 1 divisor) value
  | .scale term numerator denominator, followed => do
    let value ← term.evaluate true
    let numerator ← numerator.evaluate true
    let denominator ← denominator.evaluate followed
    kind.scaled (ratio numerator denominator) value
  | .first term, followed => term.evaluate followed
  | .sum subtract left right, followed => do
    let left ← left.evaluate true
    let right ← right.evaluate followed
    kind.sum subtract left right

/-! ## Grammar -/

def ExpressionOperator.follows (operator : ExpressionOperator) : Bool := operator ≠ .none

variable {σ κ ε : Type}

/-- From a state of the processor a tree is read, with the operator after it, and
leaves another state. -/
inductive Reads (processor : ExpressionProcessor σ κ γ ε) :
    {level : ExpressionLevel} → {kind : ExpressionKind} → (parenthesized : Bool) → σ →
      ExpressionTree γ level kind → ExpressionOperator → σ → Prop where
  | scalar {kind : ExpressionKind} {parenthesized : Bool} {start ready after rest : σ}
      {value : kind.Value γ} {operator : ExpressionOperator} :
      processor.opensFactor start = .ok (false, ready) →
      processor.scanFactor kind ready = .ok (kind.present value, after) →
      processor.scanExpressionOperator parenthesized after = .ok (operator, rest) →
      Reads processor parenthesized start (.scalar value) operator rest
  | group {kind : ExpressionKind} {parenthesized : Bool} {start inside after rest : σ}
      {body : ExpressionTree γ .expression kind} {operator : ExpressionOperator} :
      processor.opensFactor start = .ok (true, inside) →
      Reads processor true inside body .none after →
      processor.scanExpressionOperator parenthesized after = .ok (operator, rest) →
      Reads processor parenthesized start (.group body) operator rest
  | single {kind : ExpressionKind} {parenthesized : Bool} {start rest : σ}
      {factor : ExpressionTree γ .factor kind} {operator : ExpressionOperator} :
      Reads processor parenthesized start factor operator rest →
      Reads processor parenthesized start (.single factor) operator rest
  | multiply {kind : ExpressionKind} {parenthesized : Bool} {start middle rest : σ}
      {term : ExpressionTree γ .term kind} {factor : ExpressionTree γ .factor .integer}
      {operator : ExpressionOperator} :
      Reads processor parenthesized start term .multiply middle →
      Reads processor parenthesized middle factor operator rest → operator ≠ .divide →
      Reads processor parenthesized start (.multiply term factor) operator rest
  | divide {kind : ExpressionKind} {parenthesized : Bool} {start middle rest : σ}
      {term : ExpressionTree γ .term kind} {divisor : ExpressionTree γ .factor .integer}
      {operator : ExpressionOperator} :
      Reads processor parenthesized start term .divide middle →
      Reads processor parenthesized middle divisor operator rest →
      Reads processor parenthesized start (.divide term divisor) operator rest
  | scale {kind : ExpressionKind} {parenthesized : Bool} {start middle after rest : σ}
      {term : ExpressionTree γ .term kind}
      {numerator denominator : ExpressionTree γ .factor .integer}
      {operator : ExpressionOperator} :
      Reads processor parenthesized start term .multiply middle →
      Reads processor parenthesized middle numerator .divide after →
      Reads processor parenthesized after denominator operator rest →
      Reads processor parenthesized start (.scale term numerator denominator) operator rest
  | first {kind : ExpressionKind} {parenthesized : Bool} {start rest : σ}
      {term : ExpressionTree γ .term kind} {operator : ExpressionOperator} :
      Reads processor parenthesized start term operator rest →
      operator.continuesTerm = false →
      Reads processor parenthesized start (.first term) operator rest
  | sum {kind : ExpressionKind} {parenthesized subtract : Bool} {start middle rest : σ}
      {left : ExpressionTree γ .expression kind} {right : ExpressionTree γ .term kind}
      {operator : ExpressionOperator} :
      Reads processor parenthesized start left (if subtract then .subtract else .add) middle →
      Reads processor parenthesized middle right operator rest →
      operator.continuesTerm = false →
      Reads processor parenthesized start (.sum subtract left right) operator rest

def ExpressionProcessor.Raises (processor : ExpressionProcessor σ κ γ ε) (error : ε) : Prop :=
  (∃ state, processor.requestExpandedToken state = .error error) ∨
  (∃ command state, processor.backInput command state = .error error) ∨
  (∃ kind state, processor.scanFactor kind state = .error error) ∨
  ∃ state, processor.missingParenthesisError state = .error error

end Umber.Command
