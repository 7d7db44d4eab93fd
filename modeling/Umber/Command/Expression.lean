import Umber.Command.Token
import Umber.Page.Model

/-! The scanner of expressions: one loop over an explicit stack of frames. The
delivery of commands and the scanners of scalars are the operations of the
processor it runs on. -/

set_option autoImplicit false

namespace Umber.Command

open Umber.Page (GlueSpec GlueOrder Scaled)

/-! ## Values -/

def integerLimit : Int := 2147483647

def dimensionLimit : Int := 1073741823

inductive ExpressionKind where
  | integer
  | dimension
  | glue
  | muGlue
deriving DecidableEq

def ExpressionKind.limit : ExpressionKind → Int
  | .integer => integerLimit
  | .dimension | .glue | .muGlue => dimensionLimit

def orderRank : GlueOrder → Nat
  | .normal => 0
  | .fil => 1
  | .fill => 2
  | .filll => 3

structure ExpressionGlue (γ : Type) where
  width : Int
  stretch : Int
  stretchOrder : GlueOrder
  shrink : Int
  shrinkOrder : GlueOrder
  identity : Option γ
  sourceRegister : Option (Bool × UInt16)
  sharedZero : Bool
deriving DecidableEq

structure ScannedGlue (γ : Type) where
  spec : GlueSpec
  identity : Option γ
  register : Option (Bool × UInt16)
  sharedZero : Bool
deriving DecidableEq

variable {γ : Type}

namespace ExpressionGlue

def zero : ExpressionGlue γ where
  width := 0
  stretch := 0
  stretchOrder := .normal
  shrink := 0
  shrinkOrder := .normal
  identity := none
  sourceRegister := none
  sharedZero := false

def fromSpec (scanned : ScannedGlue γ) : ExpressionGlue γ where
  width := scanned.spec.width.toInt
  stretch := scanned.spec.stretch.toInt
  stretchOrder := scanned.spec.stretchOrder
  shrink := scanned.spec.shrink.toInt
  shrinkOrder := scanned.spec.shrinkOrder
  identity := scanned.identity
  sourceRegister := scanned.register
  sharedZero := scanned.sharedZero

def anonymous (glue : ExpressionGlue γ) : ExpressionGlue γ :=
  { glue with identity := none, sourceRegister := none, sharedZero := false }

def normalize (glue : ExpressionGlue γ) : ExpressionGlue γ :=
  { glue with
    stretchOrder := if glue.stretch = 0 then .normal else glue.stretchOrder
    shrinkOrder := if glue.shrink = 0 then .normal else glue.shrinkOrder }

end ExpressionGlue

inductive ExpressionValue (γ : Type) where
  | number (value : Int)
  | glue (value : ExpressionGlue γ)
deriving DecidableEq

def ExpressionKind.zero : ExpressionKind → ExpressionValue γ
  | .integer | .dimension => .number 0
  | .glue | .muGlue => .glue .zero

/-! ## Arithmetic

A computation keeps the overflow flag as its state and has no value where the
program panics. -/

abbrev Flagged (α : Type) := StateT Bool Option α

/-- The value of a computation of the 64-bit integers, unless it overflows. -/
def i64 (value : Int) : Flagged Int :=
  if -9223372036854775808 ≤ value ∧ value ≤ 9223372036854775807 then pure value
  else StateT.lift none

def ExpressionValue.integer : ExpressionValue γ → Flagged Int
  | .number value => pure value
  | .glue _ => StateT.lift none

def saturatingNeg (value : Int) : Int :=
  if value = -9223372036854775808 then 9223372036854775807 else -value

def negateValue : ExpressionValue γ → ExpressionValue γ
  | .number value => .number (saturatingNeg value)
  | .glue value =>
    .glue { value.anonymous with
      width := saturatingNeg value.width
      stretch := saturatingNeg value.stretch
      shrink := saturatingNeg value.shrink }

def orOverflow : Option Int → Flagged Int
  | some value => pure value
  | none => do
    set true
    pure 0

def bounded (value limit : Int) : Option Int :=
  if -limit ≤ value ∧ value ≤ limit then some value else none

def boundedNumber (value limit : Int) : Flagged Int := orOverflow (bounded value limit)

def roundedFraction (value numerator denominator limit : Int) : Option Int :=
  if denominator = 0 then none
  else
    let product := value * numerator
    let negative := decide (product < 0) != decide (denominator < 0)
    let quotient := product.natAbs / denominator.natAbs
    let rounded :=
      if denominator.natAbs ≤ product.natAbs % denominator.natAbs * 2 then quotient + 1
      else quotient
    bounded (if negative then -(rounded : Int) else rounded) limit

def signedRight (right : Int) (subtract : Bool) : Flagged Int :=
  if subtract then i64 (-right) else pure right

def addComponent (left right : Int) (subtract : Bool) : Flagged Int := do
  let right ← signedRight right subtract
  let sum ← i64 (left + right)
  boundedNumber sum dimensionLimit

def addOrderedComponent (left : Int) (leftOrder : GlueOrder) (right : Int)
    (rightOrder : GlueOrder) (subtract : Bool) : Flagged (Int × GlueOrder) :=
  if leftOrder = rightOrder then do
    let sum ← addComponent left right subtract
    pure (sum, leftOrder)
  else if orderRank leftOrder < orderRank rightOrder ∧ right ≠ 0 then pure (right, rightOrder)
  else pure (left, leftOrder)

def addValue (left right : ExpressionValue γ) (subtract : Bool) (kind : ExpressionKind) :
    Flagged (ExpressionValue γ) :=
  match left, right with
  | .number left, .number right => do
    let right ← signedRight right subtract
    let sum ← i64 (left + right)
    let value ← boundedNumber sum kind.limit
    pure (.number value)
  | .glue left, .glue right => do
    let width ← addComponent left.width right.width subtract
    let stretch ← addOrderedComponent left.stretch left.stretchOrder right.stretch
      right.stretchOrder subtract
    let shrink ← addOrderedComponent left.shrink left.shrinkOrder right.shrink
      right.shrinkOrder subtract
    let sum := { left with
      width, stretch := stretch.1, stretchOrder := stretch.2
      shrink := shrink.1, shrinkOrder := shrink.2 }
    pure (.glue sum.normalize.anonymous)
  | .number _, .glue _ | .glue _, .number _ => StateT.lift none

def mapComponents (value : ExpressionValue γ) (numberLimit : Int)
    (map : Int → Int → Option Int) : Flagged (ExpressionValue γ) :=
  match value with
  | .number value => do
    let result ← orOverflow (map value numberLimit)
    pure (.number result)
  | .glue glue => do
    let width ← orOverflow (map glue.width dimensionLimit)
    let stretch ← orOverflow (map glue.stretch dimensionLimit)
    let shrink ← orOverflow (map glue.shrink dimensionLimit)
    pure (.glue { glue.anonymous with width, stretch, shrink })

def multiplyValue (value : ExpressionValue γ) (factor : Int) (kind : ExpressionKind) :
    Flagged (ExpressionValue γ) :=
  mapComponents value kind.limit fun component limit => bounded (component * factor) limit

def divideValue (value : ExpressionValue γ) (divisor : Int) (kind : ExpressionKind) :
    Flagged (ExpressionValue γ) :=
  mapComponents value kind.limit fun component limit => roundedFraction component 1 divisor limit

def scaleValue (value : ExpressionValue γ) (numerator denominator : Int)
    (kind : ExpressionKind) : Flagged (ExpressionValue γ) :=
  mapComponents value kind.limit fun component limit =>
    roundedFraction component numerator denominator limit

/-! ## Frames -/

inductive ExpressionOperator where
  | none
  | add
  | subtract
  | multiply
  | divide
  | scale
deriving DecidableEq

def ExpressionOperator.continuesTerm : ExpressionOperator → Bool
  | .multiply | .divide | .scale => true
  | .none | .add | .subtract => false

structure ExpressionFrame (γ : Type) where
  kind : ExpressionKind
  expressionOperator : ExpressionOperator
  expression : ExpressionValue γ
  termOperator : ExpressionOperator
  term : ExpressionValue γ
  scaleNumerator : Int
  factorNegative : Bool

namespace ExpressionFrame

def new (kind : ExpressionKind) : ExpressionFrame γ where
  kind := kind
  expressionOperator := .none
  expression := kind.zero
  termOperator := .none
  term := kind.zero
  scaleNumerator := 0
  factorNegative := false

def factorKind (frame : ExpressionFrame γ) : ExpressionKind :=
  if frame.termOperator = .none then frame.kind else .integer

end ExpressionFrame

def validateFactor (factor : ExpressionValue γ) (kind : ExpressionKind)
    (termOperator : ExpressionOperator) : Flagged (ExpressionValue γ) :=
  match factor with
  | .number value => do
    let value ← boundedNumber value
      (if termOperator.continuesTerm then integerLimit else kind.limit)
    pure (.number value)
  | .glue value => do
    let width ← boundedNumber value.width dimensionLimit
    let stretch ← boundedNumber value.stretch dimensionLimit
    let shrink ← boundedNumber value.shrink dimensionLimit
    pure (.glue { value with width, stretch, shrink })

/-- The first factor of a term. Glue loses its origin when an operator follows. -/
def firstFactor (factor : ExpressionValue γ) (operator : ExpressionOperator) :
    ExpressionValue γ :=
  match factor with
  | .number value => .number value
  | .glue glue => if operator = .none then .glue glue else .glue glue.normalize.anonymous

/-- One more factor of the term. A division after a multiplication waits for its
divisor. -/
def applyFactor (frame : ExpressionFrame γ) (factor : ExpressionValue γ)
    (operator : ExpressionOperator) : Flagged (ExpressionFrame γ × ExpressionOperator) :=
  match frame.termOperator with
  | .none => pure ({ frame with term := firstFactor factor operator }, operator)
  | .multiply =>
    if operator = .divide then do
      let numerator ← factor.integer
      pure ({ frame with scaleNumerator := numerator }, .scale)
    else do
      let factor ← factor.integer
      let term ← multiplyValue frame.term factor frame.kind
      pure ({ frame with term }, operator)
  | .divide => do
    let divisor ← factor.integer
    let term ← divideValue frame.term divisor frame.kind
    pure ({ frame with term }, operator)
  | .scale => do
    let denominator ← factor.integer
    let term ← scaleValue frame.term frame.scaleNumerator denominator frame.kind
    pure ({ frame with term }, operator)
  | .add | .subtract => StateT.lift none

def sumWithTerm (frame : ExpressionFrame γ) : Flagged (ExpressionValue γ) :=
  match frame.expressionOperator with
  | .none => pure frame.term
  | .add => addValue frame.expression frame.term false frame.kind
  | .subtract => addValue frame.expression frame.term true frame.kind
  | .multiply | .divide | .scale => StateT.lift none

def evaluateTerm (frame : ExpressionFrame γ) (next : ExpressionOperator) :
    Flagged (ExpressionFrame γ) := do
  let expression ← sumWithTerm frame
  pure { frame with expression, termOperator := .none, expressionOperator := next }

/-! ## The processor -/

inductive ExpressionMeaning (κ : Type) where
  | charToken (ch : Char) (cat : Catcode)
  | relax
  | other (command : κ)
deriving DecidableEq

namespace ExpressionMeaning

variable {κ : Type}

def isSpace : ExpressionMeaning κ → Bool
  | .charToken _ cat => cat = .space
  | .relax | .other _ => false

def isOtherCharacter (meaning : ExpressionMeaning κ) (expected : Char) : Bool :=
  match meaning with
  | .charToken ch cat => cat = .other && ch = expected
  | .relax | .other _ => false

def isRelax : ExpressionMeaning κ → Bool
  | .relax => true
  | .charToken _ _ | .other _ => false

def operator (meaning : ExpressionMeaning κ) : Option ExpressionOperator :=
  if meaning.isOtherCharacter '+' then some .add
  else if meaning.isOtherCharacter '-' then some .subtract
  else if meaning.isOtherCharacter '*' then some .multiply
  else if meaning.isOtherCharacter '/' then some .divide
  else none

end ExpressionMeaning

/-- The processor under the scanner. Its stream is finite: only the return of a
command makes it longer, and by one command at most. -/
structure ExpressionProcessor (σ κ γ ε : Type) where
  requestExpandedToken : σ → Except ε (Option (ExpressionMeaning κ) × σ)
  backInput : ExpressionMeaning κ → σ → Except ε σ
  scanInteger : σ → Except ε (Int32 × σ)
  scanDimension : σ → Except ε (Scaled × σ)
  scanGlue : Bool → σ → Except ε (ScannedGlue γ × σ)
  missingParenthesisError : σ → Except ε σ
  remaining : σ → Nat
  remaining_request : ∀ {state delivered after},
    requestExpandedToken state = .ok (some delivered, after) → remaining after < remaining state
  remaining_end : ∀ {state after},
    requestExpandedToken state = .ok (none, after) → remaining after ≤ remaining state
  remaining_backInput : ∀ {command state after},
    backInput command state = .ok after → remaining after ≤ remaining state + 1
  remaining_integer : ∀ {state scanned},
    scanInteger state = .ok scanned → remaining scanned.2 ≤ remaining state
  remaining_dimension : ∀ {state scanned},
    scanDimension state = .ok scanned → remaining scanned.2 ≤ remaining state
  remaining_glue : ∀ {mu state scanned},
    scanGlue mu state = .ok scanned → remaining scanned.2 ≤ remaining state
  remaining_report : ∀ {state after},
    missingParenthesisError state = .ok after → remaining after ≤ remaining state

namespace ExpressionProcessor

variable {σ κ ε : Type}

def nextNonSpace (processor : ExpressionProcessor σ κ γ ε) (state : σ) :
    Except ε (Option (ExpressionMeaning κ) × σ) :=
  match _ : processor.requestExpandedToken state with
  | .error error => .error error
  | .ok (none, after) => .ok (none, after)
  | .ok (some command, after) =>
    if command.isSpace then processor.nextNonSpace after else .ok (some command, after)
termination_by processor.remaining state
decreasing_by exact processor.remaining_request ‹_›

/-- Whether a parenthesis opens the next factor. Any other command is returned. -/
def opensFactor (processor : ExpressionProcessor σ κ γ ε) (state : σ) :
    Except ε (Bool × σ) := do
  match ← processor.nextNonSpace state with
  | (none, after) => pure (false, after)
  | (some command, after) =>
    if command.isOtherCharacter '(' then pure (true, after)
    else do
      let returned ← processor.backInput command after
      pure (false, returned)

def scanFactor (processor : ExpressionProcessor σ κ γ ε) (kind : ExpressionKind) (state : σ) :
    Except ε (ExpressionValue γ × σ) :=
  match kind with
  | .integer => do
    let scanned ← processor.scanInteger state
    pure (.number scanned.1.toInt, scanned.2)
  | .dimension => do
    let scanned ← processor.scanDimension state
    pure (.number scanned.1.toInt, scanned.2)
  | .glue => do
    let scanned ← processor.scanGlue false state
    pure (.glue (.fromSpec scanned.1), scanned.2)
  | .muGlue => do
    let scanned ← processor.scanGlue true state
    pure (.glue (.fromSpec scanned.1), scanned.2)

def scanExpressionOperator (processor : ExpressionProcessor σ κ γ ε) (parenthesized : Bool)
    (state : σ) : Except ε (ExpressionOperator × σ) := do
  match ← processor.nextNonSpace state with
  | (none, after) => pure (.none, after)
  | (some command, after) =>
    match command.operator with
    | some operator => pure (operator, after)
    | none =>
      if parenthesized then
        if command.isOtherCharacter ')' then pure (.none, after)
        else do
          let returned ← processor.backInput command after
          let reported ← processor.missingParenthesisError returned
          pure (.none, reported)
      else if command.isRelax then pure (.none, after)
      else do
        let returned ← processor.backInput command after
        pure (.none, returned)

end ExpressionProcessor

structure ExpressionScalar (γ : Type) where
  integer : Int32
  dimension : Scaled
  glue : ScannedGlue γ
  muGlue : ScannedGlue γ
deriving DecidableEq

def ScannedGlue.missing : ScannedGlue γ where
  spec := ⟨0, 0, .normal, 0, .normal⟩
  identity := none
  register := none
  sharedZero := false

def takeScalar {α : Type} (read : ExpressionScalar γ → α) (missing : α) :
    List (ExpressionMeaning (ExpressionScalar γ)) →
      α × List (ExpressionMeaning (ExpressionScalar γ))
  | .other scalar :: rest => (read scalar, rest)
  | stream => (missing, stream)

theorem length_takeScalar_le {α : Type} (read : ExpressionScalar γ → α) (missing : α)
    (stream : List (ExpressionMeaning (ExpressionScalar γ))) :
    (takeScalar read missing stream).2.length ≤ stream.length := by
  fun_cases takeScalar read missing stream with
  | case1 scalar rest => exact Nat.le_succ rest.length
  | case2 => exact Nat.le_refl stream.length

def takeCommand {κ : Type} :
    List (ExpressionMeaning κ) → Option (ExpressionMeaning κ) × List (ExpressionMeaning κ)
  | [] => (none, [])
  | command :: rest => (some command, rest)

def streamProcessor :
    ExpressionProcessor (List (ExpressionMeaning (ExpressionScalar γ))) (ExpressionScalar γ) γ
      Empty where
  requestExpandedToken stream := .ok (takeCommand stream)
  backInput command stream := .ok (command :: stream)
  scanInteger stream := .ok (takeScalar (·.integer) 0 stream)
  scanDimension stream := .ok (takeScalar (·.dimension) 0 stream)
  scanGlue mu stream :=
    .ok (takeScalar (fun scalar => if mu then scalar.muGlue else scalar.glue) .missing stream)
  missingParenthesisError stream := .ok stream
  remaining := List.length
  remaining_request := by
    intro stream delivered after requested
    cases stream with
    | nil => cases requested
    | cons command rest =>
      cases requested
      exact Nat.lt_succ_self _
  remaining_end := by
    intro stream after requested
    cases stream with
    | nil =>
      cases requested
      exact Nat.le_refl _
    | cons command rest => cases requested
  remaining_backInput := by
    intro command stream after returned
    cases returned
    exact Nat.le_refl _
  remaining_integer := by
    intro stream scanned read
    cases read
    exact length_takeScalar_le _ _ stream
  remaining_dimension := by
    intro stream scanned read
    cases read
    exact length_takeScalar_le _ _ stream
  remaining_glue := by
    intro mu stream scanned read
    cases read
    exact length_takeScalar_le _ _ stream
  remaining_report := by
    intro stream after reported
    cases reported
    exact Nat.le_refl _

/-! ## The loop -/

inductive ExpressionPhase (γ : Type) where
  | factorLeading
  | factorScalar
  | operator (factor : ExpressionValue γ)

structure ExpressionMachine (σ γ : Type) where
  frame : ExpressionFrame γ
  stack : List (ExpressionFrame γ)
  overflow : Bool
  phase : ExpressionPhase γ
  state : σ

inductive ExpressionOutcome (σ γ ε : Type) where
  | failed (error : ε)
  | panic
  | complete (value : ExpressionValue γ) (overflow : Bool) (state : σ)
deriving DecidableEq

namespace ExpressionMachine

variable {σ κ ε : Type}

def start (kind : ExpressionKind) (state : σ) : ExpressionMachine σ γ where
  frame := .new kind
  stack := []
  overflow := false
  phase := .factorLeading
  state := state

/-- After a term the loop goes on with the operator, or completes a group, or
completes the expression. -/
def closeExpression (frame : ExpressionFrame γ) (stack : List (ExpressionFrame γ))
    (operator : ExpressionOperator) (overflow : Bool) (state : σ) :
    ExpressionMachine σ γ ⊕ ExpressionOutcome σ γ ε :=
  if operator ≠ .none then .inl ⟨frame, stack, overflow, .factorLeading, state⟩
  else
    match stack with
    | [] => .inr (.complete frame.expression overflow state)
    | parent :: stack => .inl ⟨parent, stack, overflow, .operator frame.expression, state⟩

def closeTerm (frame : ExpressionFrame γ) (stack : List (ExpressionFrame γ))
    (operator : ExpressionOperator) (overflow : Bool) (state : σ) :
    ExpressionMachine σ γ ⊕ ExpressionOutcome σ γ ε :=
  if operator.continuesTerm then
    .inl ⟨{ frame with termOperator := operator }, stack, overflow, .factorLeading, state⟩
  else
    match (evaluateTerm frame operator).run overflow with
    | none => .inr .panic
    | some (frame, overflow) => closeExpression frame stack operator overflow state

/-- What the loop does with a checked factor and the operator after it. -/
def absorb (frame : ExpressionFrame γ) (stack : List (ExpressionFrame γ))
    (factor : ExpressionValue γ) (operator : ExpressionOperator) (overflow : Bool)
    (state : σ) : ExpressionMachine σ γ ⊕ ExpressionOutcome σ γ ε :=
  match (applyFactor frame factor operator).run overflow with
  | none => .inr .panic
  | some ((frame, operator), overflow) => closeTerm frame stack operator overflow state

def finishFactor (processor : ExpressionProcessor σ κ γ ε) (machine : ExpressionMachine σ γ)
    (factor : ExpressionValue γ) (state : σ) :
    ExpressionMachine σ γ ⊕ ExpressionOutcome σ γ ε :=
  match processor.scanExpressionOperator (!machine.stack.isEmpty) state with
  | .error error => .inr (.failed error)
  | .ok (operator, state) =>
    let frame := machine.frame
    let factor := if frame.factorNegative then negateValue factor else factor
    match (validateFactor factor frame.kind frame.termOperator).run machine.overflow with
    | none => .inr .panic
    | some (factor, overflow) =>
      absorb { frame with factorNegative := false } machine.stack factor operator overflow
        state

def step (processor : ExpressionProcessor σ κ γ ε) (machine : ExpressionMachine σ γ) :
    ExpressionMachine σ γ ⊕ ExpressionOutcome σ γ ε :=
  match machine.phase with
  | .factorLeading =>
    match processor.opensFactor machine.state with
    | .error error => .inr (.failed error)
    | .ok (true, state) =>
      .inl ⟨.new machine.frame.factorKind, machine.frame :: machine.stack,
        machine.overflow, .factorLeading, state⟩
    | .ok (false, state) => .inl { machine with phase := .factorScalar, state }
  | .factorScalar =>
    match processor.scanFactor machine.frame.factorKind machine.state with
    | .error error => .inr (.failed error)
    | .ok (factor, state) => machine.finishFactor processor factor state
  | .operator factor => machine.finishFactor processor factor machine.state

def run (processor : ExpressionProcessor σ κ γ ε) :
    Nat → ExpressionMachine σ γ → Option (ExpressionOutcome σ γ ε)
  | 0, _ => none
  | rounds + 1, machine =>
    match machine.step processor with
    | .inl next => run processor rounds next
    | .inr outcome => some outcome

end ExpressionMachine

variable {σ κ ε : Type}

def ScansExpression (processor : ExpressionProcessor σ κ γ ε) (kind : ExpressionKind)
    (state : σ) (outcome : ExpressionOutcome σ γ ε) : Prop :=
  ∃ rounds, ExpressionMachine.run processor rounds (.start kind state) = some outcome

/-! ## The result -/

inductive InternalValue where
  | integer (value : Int32)
  | dimension (value : Scaled)
  | glue (value : GlueSpec)
  | muGlue (value : GlueSpec)
deriving DecidableEq

def tryI32 (value : Int) : Option Int32 :=
  if -2147483648 ≤ value ∧ value ≤ 2147483647 then some (Int32.ofInt value) else none

def ExpressionGlue.intoSpec (glue : ExpressionGlue γ) : Option GlueSpec := do
  let width ← tryI32 glue.width
  let stretch ← tryI32 glue.stretch
  let shrink ← tryI32 glue.shrink
  pure ⟨width, stretch, glue.stretchOrder, shrink, glue.shrinkOrder⟩

def expressionInternalValue (kind : ExpressionKind) (value : ExpressionValue γ) :
    Option InternalValue :=
  match kind, value with
  | .integer, .number value => (tryI32 value).map .integer
  | .dimension, .number value => (tryI32 value).map .dimension
  | .glue, .glue value => value.intoSpec.map .glue
  | .muGlue, .glue value => value.intoSpec.map .muGlue
  | .integer, .glue _ | .dimension, .glue _ | .glue, .number _ | .muGlue, .number _ => none

def publishedValue (kind : ExpressionKind) (value : ExpressionValue γ) (overflow : Bool) :
    ExpressionValue γ :=
  if overflow then
    match (kind.zero : ExpressionValue γ) with
    | .glue glue => .glue { glue with sharedZero := true }
    | .number value => .number value
  else value

end Umber.Command
