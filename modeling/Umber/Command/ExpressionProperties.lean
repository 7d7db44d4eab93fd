import Umber.Command.ExpressionSemantics

/-! The loop of the expression scanner computes the meaning of the tree its
stream reads as. -/

set_option autoImplicit false

namespace Umber.Command

open ExpressionMachine ExpressionCheck Audited ExpressionValue

open Umber.Page (GlueOrder)
open HalfAway (roundAway)
open Audited (Realises)

variable {γ : Type}

/-! ## Arithmetic -/

structure Decides (outcome : Option Int) (checked : Checked Int) : Prop where
  value : checked.value = outcome.getD 0
  failed : checked.failed passes = outcome.isNone

variable {value : Int}

theorem failed_singleton {check : ExpressionCheck} :
    (⟨value, [check]⟩ : Checked Int).failed passes = !check.passes := by
  simp [failed]

theorem decides_within (limit value : Int) :
    Decides (bounded value limit) (within limit value) := by
  unfold bounded within
  by_cases inside : |value| ≤ limit
  · rw [if_pos (abs_le.mp inside), if_pos inside]
    exact ⟨rfl, by rw [failed_singleton]; simp [passes, inside]⟩
  rw [if_neg (fun between => inside (abs_le.mpr between)), if_neg inside]
  exact ⟨rfl, by rw [failed_singleton]; simp [passes, inside]⟩

/-- The quotient of the magnitudes with its sign is the rounded quotient. -/
theorem signed_quotient_eq (product : Int) {denominator : Int} (nonzero : denominator ≠ 0)
    {rounded : Nat} (quotient : rounded =
      if denominator.natAbs ≤ product.natAbs % denominator.natAbs * 2 then
        product.natAbs / denominator.natAbs + 1 else product.natAbs / denominator.natAbs) :
    (if (decide (product < 0) != decide (denominator < 0)) = true then -(rounded : Int)
      else rounded) = roundAway ((product : ℚ) / denominator) := by
  have positive : 0 < denominator.natAbs := Int.natAbs_pos.mpr nonzero
  have magnitude : (rounded : Int) = roundAway (|(product : ℚ)| / |(denominator : ℚ)|) := by
    have rational := HalfAway.roundAway_natCast_div product.natAbs positive
    rw [Nat.cast_natAbs, Nat.cast_natAbs, Int.cast_abs, Int.cast_abs] at rational
    rw [rational, quotient]
    split <;> rfl
  rw [magnitude, ← HalfAway.roundAway_neg]
  by_cases negative : product < 0
  · have productNegative : (product : ℚ) < 0 := by exact_mod_cast negative
    by_cases below : denominator < 0
    · have denominatorNegative : (denominator : ℚ) < 0 := by exact_mod_cast below
      simp [negative, below, abs_of_neg productNegative, abs_of_neg denominatorNegative,
        neg_div_neg_eq]
    have denominatorNonneg : (0 : ℚ) ≤ denominator := by exact_mod_cast not_lt.mp below
    simp [negative, below, abs_of_neg productNegative, abs_of_nonneg denominatorNonneg, neg_div]
  have productNonneg : (0 : ℚ) ≤ product := by exact_mod_cast not_lt.mp negative
  by_cases below : denominator < 0
  · have denominatorNegative : (denominator : ℚ) < 0 := by exact_mod_cast below
    simp [negative, below, abs_of_nonneg productNonneg, abs_of_neg denominatorNegative, div_neg]
  have denominatorNonneg : (0 : ℚ) ≤ denominator := by exact_mod_cast not_lt.mp below
  simp [negative, below, abs_of_nonneg productNonneg, abs_of_nonneg denominatorNonneg]

theorem decides_ratio (numerator denominator limit value : Int) :
    Decides (roundedFraction value numerator denominator limit)
      (ratio numerator denominator limit value) := by
  unfold roundedFraction ratio
  by_cases zero : denominator = 0
  · rw [if_pos zero, if_pos zero]
    exact ⟨rfl, by rw [failed_singleton]; rfl⟩
  rw [if_neg zero, if_neg zero]
  have exact : (value * numerator : ℚ) = ((value * numerator : Int) : ℚ) := by push_cast; rfl
  rw [exact, ← signed_quotient_eq (value * numerator) zero rfl]
  have decided := decides_within limit
    (if (decide (value * numerator < 0) != decide (denominator < 0)) = true then
      -((if denominator.natAbs ≤ (value * numerator).natAbs % denominator.natAbs * 2 then
        (value * numerator).natAbs / denominator.natAbs + 1
        else (value * numerator).natAbs / denominator.natAbs : Nat) : Int)
    else (if denominator.natAbs ≤ (value * numerator).natAbs % denominator.natAbs * 2 then
        (value * numerator).natAbs / denominator.natAbs + 1
        else (value * numerator).natAbs / denominator.natAbs : Nat))
  refine ⟨decided.value, ?_⟩
  have divisor : (divisor denominator).passes = true := by simp [passes, zero]
  simp only [failed, List.any_cons, divisor, Bool.not_true, Bool.false_or]
  exact decided.failed

theorem decides_product (factor limit value : Int) :
    Decides (bounded (value * factor) limit) (product factor limit value) :=
  decides_within limit (value * factor)

/-! ## Values -/

/-- The program computes the value and raises the flag when a check fails. -/
abbrev Computes {α β : Type} (present : α → β) (program : Flagged β) (checked : Checked α) :
    Prop :=
  Realises passes present program checked

theorem orOverflow_computes {outcome : Option Int} {checked : Checked Int}
    (decided : Decides outcome checked) : Computes id (orOverflow outcome) checked := by
  intro flag
  rw [decided.failed, decided.value]
  cases outcome with
  | none => cases flag <;> rfl
  | some value => cases flag <;> rfl

theorem boundedNumber_computes (limit value : Int) :
    Computes id (boundedNumber value limit) (within limit value) :=
  orOverflow_computes (decides_within limit value)

theorem mapComponents_computes {map : Int → Int → Option Int}
    {operation : (limit value : Int) → Checked Int}
    (decided : ∀ limit value, Decides (map value limit) (operation limit value))
    (kind : ExpressionKind) (value : kind.Value γ) :
    Computes kind.present (mapComponents (kind.present value) kind.limit map)
      (kind.scaled operation value) := by
  have number : ∀ limit (value : Int), Computes number
      (mapComponents (.number value : ExpressionValue γ) limit map) (operation limit value) := by
    intro limit value
    exact (orOverflow_computes (decided limit value)).present number
  have glue : ∀ limit (value : ExpressionGlue γ), Computes glue
      (mapComponents (.glue value) limit map)
      (value.anonymous.components (operation dimensionLimit)) := by
    intro limit value
    refine .bind (orOverflow_computes (decided _ _)) ?_
    refine .bind (orOverflow_computes (decided _ _)) ?_
    refine .bind (orOverflow_computes (decided _ _)) ?_
    exact .pure _
  cases kind with
  | integer => exact number integerLimit value
  | dimension => exact number dimensionLimit value
  | glue => exact glue _ value
  | muGlue => exact glue _ value

theorem components_computes (value : ExpressionGlue γ) (kind : ExpressionKind)
    (termOperator : ExpressionOperator) :
    Computes glue (validateFactor (.glue value) kind termOperator)
      (value.components (within dimensionLimit)) := by
  refine .bind (boundedNumber_computes _ _) ?_
  refine .bind (boundedNumber_computes _ _) ?_
  refine .bind (boundedNumber_computes _ _) ?_
  exact .pure _

variable {limit : Int}

theorem number_computes (value : Int) (kind : ExpressionKind) (termOperator : ExpressionOperator)
    (same : limit = if termOperator.continuesTerm then integerLimit else kind.limit) :
    Computes number
      (validateFactor (.number value : ExpressionValue γ) kind termOperator)
      (within limit value) := by
  subst same
  exact (boundedNumber_computes _ value).present number

variable {frame : ExpressionFrame γ} {kind : ExpressionKind}

/-- A factor is checked against the limit of the kind it is read as. -/
theorem validateFactor_computes (read : frame.factorKind = kind)
    (settled : frame.termOperator = .none ∨ frame.termOperator.continuesTerm = true)
    (value : kind.Value γ) :
    Computes kind.present (validateFactor (kind.present value) frame.kind frame.termOperator)
      (kind.checked value) := by
  rcases settled with fresh | continuing
  · rw [ExpressionFrame.factorKind, if_pos fresh] at read
    rw [fresh, read]
    cases kind with
    | integer => exact number_computes value .integer .none rfl
    | dimension => exact number_computes value .dimension .none rfl
    | glue => exact components_computes value .glue .none
    | muGlue => exact components_computes value .muGlue .none
  have operator : frame.termOperator ≠ .none := by
    intro fresh
    rw [fresh] at continuing
    cases continuing
  rw [ExpressionFrame.factorKind, if_neg operator] at read
  subst read
  exact number_computes value frame.kind frame.termOperator (by rw [if_pos continuing])

def ExpressionKind.Limited : (kind : ExpressionKind) → kind.Value γ → Prop
  | .integer, value => |value| ≤ integerLimit
  | .dimension, value => |value| ≤ dimensionLimit
  | .glue, value | .muGlue, value =>
    |value.width| ≤ dimensionLimit ∧ |value.stretch| ≤ dimensionLimit ∧
      |value.shrink| ≤ dimensionLimit

theorem i64_of_limited (limited : |value| ≤ 4294967294) : i64 value = pure value := by
  obtain ⟨low, high⟩ := abs_le.mp limited
  exact if_pos ⟨by omega, by omega⟩

/-- The signed sum of two limited numbers is computed without an overflow. -/
theorem sum_computes {left right limit : Int} (subtract : Bool)
    (leftLimited : |left| ≤ integerLimit) (rightLimited : |right| ≤ integerLimit) :
    Computes id
      (do
        let right ← signedRight right subtract
        let sum ← i64 (left + right)
        boundedNumber sum limit)
      (within limit (left + signed subtract right)) := by
  have negated : signedRight right subtract = pure (signed subtract right) := by
    cases subtract with
    | false => rfl
    | true => exact i64_of_limited (by rw [abs_neg]; exact rightLimited.trans (by decide))
  have total : i64 (left + signed subtract right) = pure (left + signed subtract right) := by
    refine i64_of_limited ((abs_add_le _ _).trans ?_)
    have same : |signed subtract right| = |right| := by
      cases subtract with
      | false => rfl
      | true => exact abs_neg right
    rw [same]
    exact (Int.add_le_add leftLimited rightLimited).trans (by decide)
  rw [negated, pure_bind, total, pure_bind]
  exact boundedNumber_computes _ _

theorem dimension_le_integer (limited : |value| ≤ dimensionLimit) : |value| ≤ integerLimit :=
  limited.trans (by decide)

theorem addOrderedComponent_computes {left right : Int} (leftOrder rightOrder : GlueOrder)
    (subtract : Bool) (leftLimited : |left| ≤ dimensionLimit)
    (rightLimited : |right| ≤ dimensionLimit) :
    Computes id (addOrderedComponent left leftOrder right rightOrder subtract)
      (ExpressionGlue.sumComponent subtract (left, leftOrder) (right, rightOrder)) := by
  unfold addOrderedComponent ExpressionGlue.sumComponent
  by_cases same : leftOrder = rightOrder
  · rw [if_pos same, if_pos same]
    refine .bind (sum_computes subtract (dimension_le_integer leftLimited)
      (dimension_le_integer rightLimited)) ?_
    exact .pure _
  rw [if_neg same, if_neg same]
  dsimp only
  split
  · exact .pure _
  · exact .pure _

theorem addValue_computes {left right : kind.Value γ} (subtract : Bool)
    (leftLimited : kind.Limited left) (rightLimited : kind.Limited right) :
    Computes kind.present (addValue (kind.present left) (kind.present right) subtract kind)
      (kind.sum subtract left right) := by
  have number : ∀ (kind : ExpressionKind) (left right : Int), |left| ≤ integerLimit →
      |right| ≤ integerLimit → Computes number
        (addValue (.number left : ExpressionValue γ) (.number right) subtract kind)
        (within kind.limit (left + signed subtract right)) := by
    intro kind left right leftLimited rightLimited
    have sum := (@sum_computes left right kind.limit subtract leftLimited rightLimited).present
      (@number γ)
    simp only [bind_assoc] at sum
    exact sum
  have glue : ∀ left right : ExpressionGlue γ, ExpressionKind.glue.Limited left →
      ExpressionKind.glue.Limited right → Computes glue
        (addValue (.glue left) (.glue right) subtract kind) (left.sum subtract right) := by
    intro left right leftLimited rightLimited
    refine .bind (sum_computes subtract (dimension_le_integer leftLimited.1)
      (dimension_le_integer rightLimited.1)) ?_
    refine .bind (addOrderedComponent_computes _ _ subtract leftLimited.2.1 rightLimited.2.1) ?_
    refine .bind (addOrderedComponent_computes _ _ subtract leftLimited.2.2 rightLimited.2.2) ?_
    exact .pure _
  cases kind with
  | integer => exact number .integer left right leftLimited rightLimited
  | dimension =>
    exact number .dimension left right (dimension_le_integer leftLimited)
      (dimension_le_integer rightLimited)
  | glue => exact glue left right leftLimited rightLimited
  | muGlue => exact glue left right leftLimited rightLimited

/-! ## Limits -/

theorem within_limited {limit : Int} (nonneg : 0 ≤ limit) (value : Int) :
    |(within limit value).value| ≤ limit := by
  unfold within
  by_cases inside : |value| ≤ limit
  · rw [if_pos inside]
    exact inside
  rw [if_neg inside, abs_zero]
  exact nonneg

theorem ratio_limited (nonneg : 0 ≤ limit) (numerator denominator value : Int) :
    |(ratio numerator denominator limit value).value| ≤ limit := by
  unfold ratio
  by_cases zero : denominator = 0
  · rw [if_pos zero, abs_zero]
    exact nonneg
  rw [if_neg zero]
  exact within_limited nonneg _

theorem components_limited {operation : Int → Checked Int}
    (limited : ∀ value, |(operation value).value| ≤ dimensionLimit) (glue : ExpressionGlue γ) :
    ExpressionKind.glue.Limited (glue.components operation).value :=
  ⟨limited _, limited _, limited _⟩

theorem checked_limited (kind : ExpressionKind) (value : kind.Value γ) :
    kind.Limited (kind.checked value).value := by
  cases kind with
  | integer => exact within_limited (by decide) value
  | dimension => exact within_limited (by decide) value
  | glue => exact components_limited (within_limited (by decide)) value
  | muGlue => exact components_limited (within_limited (by decide)) value

theorem scaled_limited {operation : (limit value : Int) → Checked Int}
    (limited : ∀ limit value, 0 ≤ limit → |(operation limit value).value| ≤ limit)
    (kind : ExpressionKind) (value : kind.Value γ) :
    kind.Limited (kind.scaled operation value).value := by
  cases kind with
  | integer => exact limited _ _ (by decide)
  | dimension => exact limited _ _ (by decide)
  | glue => exact components_limited (fun _ => limited _ _ (by decide)) _
  | muGlue => exact components_limited (fun _ => limited _ _ (by decide)) _

theorem settled_limited (kind : ExpressionKind) (followed : Bool) {value : kind.Value γ}
    (limited : kind.Limited value) : kind.Limited (kind.settled followed value) := by
  cases kind with
  | integer => exact limited
  | dimension => exact limited
  | glue => cases followed <;> exact limited
  | muGlue => cases followed <;> exact limited

theorem sumComponent_limited (subtract : Bool) {left right : Int × GlueOrder}
    (leftLimited : |left.1| ≤ dimensionLimit) (rightLimited : |right.1| ≤ dimensionLimit) :
    |(ExpressionGlue.sumComponent subtract left right).value.1| ≤ dimensionLimit := by
  unfold ExpressionGlue.sumComponent
  split
  · exact within_limited (by decide) _
  split
  · exact rightLimited
  · exact leftLimited

theorem sum_limited (subtract : Bool) (kind : ExpressionKind) {left right : kind.Value γ}
    (leftLimited : kind.Limited left) (rightLimited : kind.Limited right) :
    kind.Limited (kind.sum subtract left right).value := by
  have glue : ∀ left right : ExpressionGlue γ, ExpressionKind.glue.Limited left →
      ExpressionKind.glue.Limited right →
      ExpressionKind.glue.Limited (left.sum subtract right).value := by
    intro left right leftLimited rightLimited
    have stretch := @sumComponent_limited subtract (left.stretch, left.stretchOrder)
      (right.stretch, right.stretchOrder) leftLimited.2.1 rightLimited.2.1
    have shrink := @sumComponent_limited subtract (left.shrink, left.shrinkOrder)
      (right.shrink, right.shrinkOrder) leftLimited.2.2 rightLimited.2.2
    have width := @within_limited dimensionLimit (by decide)
      (left.width + signed subtract right.width)
    exact ⟨width, stretch, shrink⟩
  cases kind with
  | integer => exact within_limited (by decide) _
  | dimension => exact within_limited (by decide) _
  | glue => exact glue left right leftLimited rightLimited
  | muGlue => exact glue left right leftLimited rightLimited

variable {level : ExpressionLevel}

/-- Every value of a tree keeps the limit of its kind. -/
theorem evaluate_limited (tree : ExpressionTree γ level kind) (followed : Bool) :
    kind.Limited (tree.evaluate followed).value := by
  induction tree generalizing followed with
  | scalar value => exact checked_limited _ value
  | group body _ =>
    rw [ExpressionTree.evaluate, value_bind]
    exact checked_limited _ _
  | single factor ih =>
    rw [ExpressionTree.evaluate, value_bind, value_pure]
    exact settled_limited _ followed (ih followed)
  | multiply term factor _ _ =>
    rw [ExpressionTree.evaluate, value_bind, value_bind]
    exact scaled_limited (fun _ _ nonneg => within_limited nonneg _) _ _
  | divide term divisor _ _ =>
    rw [ExpressionTree.evaluate, value_bind, value_bind]
    exact scaled_limited (fun _ _ nonneg => ratio_limited nonneg _ _ _) _ _
  | scale term numerator denominator _ _ _ =>
    rw [ExpressionTree.evaluate, value_bind, value_bind, value_bind]
    exact scaled_limited (fun _ _ nonneg => ratio_limited nonneg _ _ _) _ _
  | first term ih => exact ih followed
  | sum subtract left right leftIH rightIH =>
    rw [ExpressionTree.evaluate, value_bind, value_bind]
    exact sum_limited subtract _ (leftIH true) (rightIH followed)

/-! ## Rounds -/

variable {σ κ ε : Type}

def Ends (processor : ExpressionProcessor σ κ γ ε) :
    ExpressionMachine σ γ ⊕ ExpressionOutcome σ γ ε → ExpressionOutcome σ γ ε → Prop
  | .inl machine, outcome => ∃ rounds, run processor rounds machine = some outcome
  | .inr reached, outcome => reached = outcome

def Continues (processor : ExpressionProcessor σ κ γ ε)
    (start next : ExpressionMachine σ γ ⊕ ExpressionOutcome σ γ ε) : Prop :=
  ∀ outcome, Ends processor start outcome ↔ Ends processor next outcome

variable {processor : ExpressionProcessor σ κ γ ε}

theorem Continues.refl (point : ExpressionMachine σ γ ⊕ ExpressionOutcome σ γ ε) :
    Continues processor point point := fun _ => Iff.rfl

theorem Continues.trans {first second third : ExpressionMachine σ γ ⊕ ExpressionOutcome σ γ ε}
    (left : Continues processor first second) (right : Continues processor second third) :
    Continues processor first third := fun outcome => (left outcome).trans (right outcome)

theorem Continues.step (machine : ExpressionMachine σ γ) :
    Continues processor (.inl machine) (machine.step processor) := by
  intro outcome
  constructor
  · rintro ⟨rounds, reached⟩
    cases rounds with
    | zero => cases reached
    | succ rounds => ?_
    unfold run at reached
    cases stepped : machine.step processor with
    | inl next =>
      rw [stepped] at reached
      exact ⟨rounds, reached⟩
    | inr last =>
      rw [stepped] at reached
      exact Option.some.inj reached
  intro ends
  cases stepped : machine.step processor with
  | inl next =>
    rw [stepped] at ends
    obtain ⟨rounds, reached⟩ := ends
    refine ⟨rounds + 1, ?_⟩
    unfold run
    rw [stepped]
    exact reached
  | inr last => ?_
  rw [stepped] at ends
  refine ⟨1, ?_⟩
  unfold run
  rw [stepped]
  exact congrArg some ends

theorem Ends.unique {point : ExpressionMachine σ γ ⊕ ExpressionOutcome σ γ ε}
    {first second : ExpressionOutcome σ γ ε} (one : Ends processor point first)
    (other : Ends processor point second) : first = second := by
  cases point with
  | inr reached => exact one.symm.trans other
  | inl machine => ?_
  obtain ⟨rounds, reached⟩ := one
  induction rounds generalizing machine with
  | zero => cases reached
  | succ rounds ih => ?_
  have next := (Continues.step machine second).mp other
  unfold run at reached
  cases stepped : machine.step processor with
  | inl after =>
    rw [stepped] at reached next
    exact ih after next reached
  | inr last =>
    rw [stepped] at reached next
    exact (Option.some.inj reached).symm.trans next

/-! ## Trees -/

/-- From a factor on, the loop comes to the point where its checked value is
applied. -/
def FactorRead (processor : ExpressionProcessor σ κ γ ε) {kind : ExpressionKind}
    (parenthesized : Bool) (start : σ) (checked : Checked (kind.Value γ))
    (operator : ExpressionOperator) (rest : σ) : Prop :=
  ∀ (frame : ExpressionFrame γ) stack flag, frame.factorKind = kind →
    frame.factorNegative = false →
    (frame.termOperator = .none ∨ frame.termOperator.continuesTerm = true) →
    stack.isEmpty = !parenthesized →
    Continues processor (.inl ⟨frame, stack, flag, .factorLeading, start⟩)
      (absorb frame stack (kind.present checked.value) operator
        (flag || checked.failed passes) rest)

/-- From a term on, the loop comes to the point where its value is in the frame. -/
def TermRead (processor : ExpressionProcessor σ κ γ ε) {kind : ExpressionKind}
    (parenthesized : Bool) (start : σ) (checked : Checked (kind.Value γ))
    (operator : ExpressionOperator) (rest : σ) : Prop :=
  ∀ (frame : ExpressionFrame γ) stack flag, frame.kind = kind → frame.factorNegative = false →
    frame.termOperator = .none → stack.isEmpty = !parenthesized →
    ∃ next : ExpressionFrame γ, next.kind = kind ∧ next.factorNegative = false ∧
      next.expression = frame.expression ∧
      next.expressionOperator = frame.expressionOperator ∧
      next.term = kind.present checked.value ∧
      Continues processor (.inl ⟨frame, stack, flag, .factorLeading, start⟩)
        (closeTerm next stack operator
          (flag || checked.failed passes) rest)

/-- From an expression on, the loop comes to the point where it is complete or the
next term begins. -/
def ExpressionRead (processor : ExpressionProcessor σ κ γ ε) {kind : ExpressionKind}
    (parenthesized : Bool) (start : σ) (checked : Checked (kind.Value γ))
    (operator : ExpressionOperator) (rest : σ) : Prop :=
  ∀ (frame : ExpressionFrame γ) stack flag, frame.kind = kind → frame.factorNegative = false →
    frame.termOperator = .none → frame.expressionOperator = .none →
    stack.isEmpty = !parenthesized →
    ∃ next : ExpressionFrame γ, next.kind = kind ∧ next.factorNegative = false ∧
      next.termOperator = .none ∧ next.expressionOperator = operator ∧
      next.expression = kind.present checked.value ∧
      Continues processor (.inl ⟨frame, stack, flag, .factorLeading, start⟩)
        (closeExpression next stack operator
          (flag || checked.failed passes) rest)

def TreeRead (processor : ExpressionProcessor σ κ γ ε) {level : ExpressionLevel}
    {kind : ExpressionKind} (parenthesized : Bool) (start : σ)
    (tree : ExpressionTree γ level kind) (operator : ExpressionOperator) (rest : σ) : Prop :=
  let checked := tree.evaluate operator.follows
  match level with
  | .factor => FactorRead processor parenthesized start checked operator rest
  | .term => TermRead processor parenthesized start checked operator rest
  | .expression => ExpressionRead processor parenthesized start checked operator rest

variable {after rest : σ} {operator : ExpressionOperator}

theorem finishFactor_continues {machine : ExpressionMachine σ γ} {value : kind.Value γ}
    (read : machine.frame.factorKind = kind) (unsigned : machine.frame.factorNegative = false)
    (settled : machine.frame.termOperator = .none ∨ machine.frame.termOperator.continuesTerm = true)
    (scanned : processor.scanExpressionOperator (!machine.stack.isEmpty) after =
      .ok (operator, rest)) : machine.finishFactor processor (kind.present value) after =
      absorb machine.frame machine.stack
        (kind.present (kind.checked value).value) operator
        (machine.overflow || (kind.checked value).failed passes) rest := by
  have same : { machine.frame with factorNegative := false } = machine.frame := by rw [← unsigned]
  rw [finishFactor, scanned]
  dsimp only
  rw [same, unsigned, if_neg Bool.false_ne_true,
    validateFactor_computes read settled value machine.overflow]

variable {parenthesized : Bool} {start : σ}

theorem scalar_read {ready : σ} {value : kind.Value γ}
    (leading : processor.opensFactor start = .ok (false, ready))
    (factor : processor.scanFactor kind ready = .ok (kind.present value, after))
    (scanned : processor.scanExpressionOperator parenthesized after = .ok (operator, rest)) :
    FactorRead processor parenthesized start (kind.checked value) operator rest := by
  intro frame stack flag read unsigned settled nested
  refine (Continues.step _).trans ?_
  rw [step, leading]
  refine (Continues.step _).trans ?_
  rw [step]
  dsimp only
  rw [read, factor]
  dsimp only
  rw [finishFactor_continues read unsigned settled]
  · exact .refl _
  rw [nested, Bool.not_not]
  exact scanned

theorem group_read {inside : σ} {body : Checked (kind.Value γ)}
    (leading : processor.opensFactor start = .ok (true, inside))
    (bodyRead : ExpressionRead processor true inside body .none after)
    (scanned : processor.scanExpressionOperator parenthesized after = .ok (operator, rest)) :
    FactorRead processor parenthesized start (body >>= kind.checked) operator rest := by
  intro frame stack flag read unsigned settled nested
  refine (Continues.step _).trans ?_
  rw [step, leading]
  dsimp only
  obtain ⟨next, -, -, -, -, value, continued⟩ :=
    bodyRead (.new frame.factorKind) (frame :: stack) flag read rfl rfl rfl rfl
  refine continued.trans ?_
  rw [closeExpression, if_neg (by simp)]
  refine (Continues.step _).trans ?_
  rw [step]
  dsimp only
  rw [value, finishFactor_continues read unsigned settled, failed_bind, Bool.or_assoc]
  · exact .refl _
  rw [nested, Bool.not_not]
  exact scanned

theorem firstFactor_present (kind : ExpressionKind) (value : kind.Value γ)
    (operator : ExpressionOperator) : firstFactor (kind.present value) operator =
      kind.present (kind.settled operator.follows value) := by
  have glue : ∀ glue : ExpressionGlue γ, firstFactor (.glue glue) operator =
      .glue (if operator.follows then glue.normalize.anonymous else glue) := by
    intro glue
    unfold firstFactor
    by_cases last : operator = .none
    · simp [ExpressionOperator.follows, last]
    · simp [ExpressionOperator.follows, last]
  cases kind with
  | integer => rfl
  | dimension => rfl
  | glue => exact glue value
  | muGlue => exact glue value

theorem single_read {factor : Checked (kind.Value γ)}
    (factorRead : FactorRead processor parenthesized start factor operator rest) :
    TermRead processor parenthesized start
      (factor >>= fun value => pure (kind.settled operator.follows value)) operator rest := by
  intro frame stack flag same unsigned fresh nested
  have read : frame.factorKind = kind := by rw [ExpressionFrame.factorKind, if_pos fresh, same]
  refine ⟨{ frame with term := kind.present (kind.settled operator.follows factor.value) }, same,
    unsigned, rfl, rfl, rfl, ?_⟩
  refine (factorRead frame stack flag read unsigned (Or.inl fresh) nested).trans ?_
  rw [absorb, applyFactor, fresh]
  dsimp only
  rw [firstFactor_present, failed_bind, failed_pure, Bool.or_false]
  exact .refl _

theorem closeTerm_continues (continuing : operator.continuesTerm = true) (frame : ExpressionFrame γ)
    (stack : List (ExpressionFrame γ)) (flag : Bool) (state : σ) :
    (closeTerm frame stack operator flag state :
      ExpressionMachine σ γ ⊕ ExpressionOutcome σ γ ε) =
        .inl ⟨{ frame with termOperator := operator }, stack, flag, .factorLeading, state⟩ :=
  if_pos continuing

variable {middle : σ} {term : Checked (kind.Value γ)} {factor : Checked Int}

theorem factor_read {before : ExpressionOperator}
    {apply : kind.Value γ → Int → Checked (kind.Value γ)} (continuing : before.continuesTerm = true)
    (termRead : TermRead processor parenthesized start term before middle)
    (factorRead : @FactorRead _ _ _ _ processor .integer parenthesized middle factor operator rest)
    (applied : ∀ frame : ExpressionFrame γ, frame.kind = kind → frame.termOperator = before →
      frame.term = kind.present term.value →
      Computes (fun value => ({ frame with term := kind.present value }, operator))
        (applyFactor frame (.number factor.value) operator) (apply term.value factor.value)) :
    TermRead processor parenthesized start
      (do
        let value ← term
        let factor ← factor
        apply value factor) operator rest := by
  intro frame stack flag same unsigned fresh nested
  obtain ⟨next, nextKind, nextUnsigned, expression, expressionOperator, value, continued⟩ :=
    termRead frame stack flag same unsigned fresh nested
  rw [closeTerm_continues continuing] at continued
  have operated : before ≠ .none := by
    rintro rfl
    cases continuing
  have read : ({ next with termOperator := before } : ExpressionFrame γ).factorKind = .integer :=
    if_neg operated
  refine ⟨{ next with
    termOperator := before, term := kind.present (apply term.value factor.value).value },
    nextKind, nextUnsigned, expression, expressionOperator, rfl, ?_⟩
  refine continued.trans ((factorRead _ stack _ read nextUnsigned (Or.inr continuing)
    nested).trans ?_)
  rw [absorb]
  have computed := applied { next with termOperator := before } nextKind rfl value
    (flag || term.failed passes || factor.failed passes)
  rw [failed_bind, failed_bind, ← Bool.or_assoc, ← Bool.or_assoc]
  dsimp only [ExpressionKind.present] at computed ⊢
  rw [computed]
  exact .refl _

theorem first_read (closing : operator.continuesTerm = false)
    (termRead : TermRead processor parenthesized start term operator rest) :
    ExpressionRead processor parenthesized start term operator rest := by
  intro frame stack flag same unsigned fresh leading nested
  obtain ⟨next, nextKind, nextUnsigned, -, expressionOperator, value, continued⟩ :=
    termRead frame stack flag same unsigned fresh nested
  refine ⟨{ next with
    expression := next.term, termOperator := .none, expressionOperator := operator },
    nextKind, nextUnsigned, rfl, rfl, value, ?_⟩
  refine continued.trans ?_
  rw [closeTerm, if_neg (by rw [closing]; exact Bool.false_ne_true),
    evaluateTerm, sumWithTerm, expressionOperator, leading]
  exact .refl _

variable {subtract : Bool}

theorem evaluateTerm_computes {left right : frame.kind.Value γ} (next : ExpressionOperator)
    (operator : frame.expressionOperator = if subtract then .subtract else .add)
    (expression : frame.expression = frame.kind.present left)
    (term : frame.term = frame.kind.present right) (leftLimited : frame.kind.Limited left)
    (rightLimited : frame.kind.Limited right) :
    Computes
      (fun value => { frame with
        expression := frame.kind.present value, termOperator := .none
        expressionOperator := next })
      (evaluateTerm frame next) (frame.kind.sum subtract left right) := by
  have added := (addValue_computes subtract leftLimited rightLimited).present
    fun expression => ({ frame with
      expression, termOperator := .none, expressionOperator := next } : ExpressionFrame γ)
  rw [← expression, ← term] at added
  rw [evaluateTerm, sumWithTerm, operator]
  cases subtract with
  | false => exact added
  | true => exact added

theorem sum_read {left right : Checked (kind.Value γ)} (leftLimited : kind.Limited left.value)
    (rightLimited : kind.Limited right.value) (closing : operator.continuesTerm = false)
    (leftRead : ExpressionRead processor parenthesized start left
      (if subtract then .subtract else .add) middle)
    (rightRead : TermRead processor parenthesized middle right operator rest) :
    ExpressionRead processor parenthesized start
      (do
        let left ← left
        let right ← right
        kind.sum subtract left right) operator rest := by
  intro frame stack flag same unsigned fresh leading nested
  obtain ⟨next, nextKind, nextUnsigned, nextFresh, nextOperator, value, continued⟩ :=
    leftRead frame stack flag same unsigned fresh leading nested
  have operated : (if subtract then .subtract else .add : ExpressionOperator) ≠ .none := by
    cases subtract <;> decide
  unfold closeExpression at continued
  rw [if_pos operated] at continued
  obtain ⟨last, lastKind, lastUnsigned, expression, expressionOperator, term, ended⟩ :=
    rightRead next stack _ nextKind nextUnsigned nextFresh nested
  refine ⟨{ last with
    expression := kind.present (kind.sum subtract left.value right.value).value
    termOperator := .none, expressionOperator := operator },
    lastKind, lastUnsigned, rfl, rfl, rfl, ?_⟩
  refine continued.trans (ended.trans ?_)
  subst lastKind
  have added := evaluateTerm_computes operator (expressionOperator.trans nextOperator)
    (expression.trans value) term leftLimited rightLimited
    (flag || left.failed passes || right.failed passes)
  rw [closeTerm, if_neg (by rw [closing]; exact Bool.false_ne_true), added,
    failed_bind, failed_bind, ← Bool.or_assoc, ← Bool.or_assoc]
  exact .refl _

/-- The term of a frame after an operation on each component. -/
theorem term_computes {frame : ExpressionFrame γ} {kind : ExpressionKind} {value : kind.Value γ}
    {map : Int → Int → Option Int} {operation : (limit value : Int) → Checked Int}
    (same : frame.kind = kind) (term : frame.term = kind.present value)
    (operator : ExpressionOperator)
    (decided : ∀ limit value, Decides (map value limit) (operation limit value)) :
    Computes (fun value => ({ frame with term := kind.present value }, operator))
      (mapComponents frame.term frame.kind.limit map >>=
        fun term => pure ({ frame with term }, operator))
      (kind.scaled operation value) := by
  subst same
  rw [term]
  exact (mapComponents_computes decided frame.kind value).present
    fun term => (({ frame with term } : ExpressionFrame γ), operator)

theorem present_integer (value : Int) :
    (ExpressionKind.integer.present value : ExpressionValue γ) = .number value := rfl

theorem applyFactor_multiply (multiplying : frame.termOperator = .multiply)
    (plain : operator ≠ .divide) (factor : Int) : applyFactor frame (.number factor) operator =
      mapComponents frame.term frame.kind.limit
          (fun component limit => bounded (component * factor) limit) >>=
        fun term => pure ({ frame with term }, operator) := by
  simp only [applyFactor, multiplying, if_neg plain]
  rfl

theorem applyFactor_divide (operator : ExpressionOperator) (dividing : frame.termOperator = .divide)
    (divisor : Int) : applyFactor frame (.number divisor) operator =
      mapComponents frame.term frame.kind.limit
          (fun component limit => roundedFraction component 1 divisor limit) >>=
        fun term => pure ({ frame with term }, operator) := by
  simp only [applyFactor, dividing]
  rfl

theorem applyFactor_scale (operator : ExpressionOperator) (scaling : frame.termOperator = .scale)
    (denominator : Int) : applyFactor frame (.number denominator) operator =
      mapComponents frame.term frame.kind.limit (fun component limit =>
            roundedFraction component frame.scaleNumerator denominator limit) >>=
        fun term => pure ({ frame with term }, operator) := by
  simp only [applyFactor, scaling]
  rfl

theorem multiply_read (plain : operator ≠ .divide)
    (termRead : TermRead processor parenthesized start term .multiply middle) (factorRead :
      @FactorRead _ _ _ _ processor .integer parenthesized middle factor operator rest) :
    TermRead processor parenthesized start
      (do
        let value ← term
        let factor ← factor
        kind.scaled (product factor) value) operator rest := by
  refine factor_read rfl termRead factorRead ?_
  intro frame same multiplying value
  rw [applyFactor_multiply multiplying plain]
  exact term_computes same value operator (decides_product factor.value)

theorem divide_read {divisor : Checked Int}
    (termRead : TermRead processor parenthesized start term .divide middle) (factorRead :
      @FactorRead _ _ _ _ processor .integer parenthesized middle divisor operator rest) :
    TermRead processor parenthesized start
      (do
        let value ← term
        let divisor ← divisor
        kind.scaled (ratio 1 divisor) value) operator rest := by
  refine factor_read rfl termRead factorRead ?_
  intro frame same dividing value
  rw [applyFactor_divide operator dividing]
  exact term_computes same value operator (decides_ratio 1 divisor.value)

theorem scale_read {numerator denominator : Checked Int}
    (termRead : TermRead processor parenthesized start term .multiply middle) (numeratorRead :
      @FactorRead _ _ _ _ processor .integer parenthesized middle numerator .divide after)
    (denominatorRead :
      @FactorRead _ _ _ _ processor .integer parenthesized after denominator operator rest) :
    TermRead processor parenthesized start
      (do
        let value ← term
        let numerator ← numerator
        let denominator ← denominator
        kind.scaled (ratio numerator denominator) value) operator rest := by
  intro frame stack flag same unsigned fresh nested
  obtain ⟨next, nextKind, nextUnsigned, expression, expressionOperator, value, continued⟩ :=
    termRead frame stack flag same unsigned fresh nested
  rw [closeTerm_continues rfl] at continued
  -- The numerator waits in the frame for the denominator.
  have waiting := numeratorRead { next with termOperator := .multiply } stack
    (flag || term.failed passes) rfl nextUnsigned (Or.inr rfl) nested
  have dividing := denominatorRead
    { next with termOperator := .scale, scaleNumerator := numerator.value } stack
    (flag || term.failed passes || numerator.failed passes) rfl
    nextUnsigned (Or.inr rfl) nested
  refine ⟨{ next with
    termOperator := .scale, scaleNumerator := numerator.value
    term := kind.present (kind.scaled (ratio numerator.value denominator.value) term.value).value },
    nextKind, nextUnsigned, expression, expressionOperator, rfl, ?_⟩
  refine continued.trans (waiting.trans ?_)
  refine Continues.trans (.refl _) (dividing.trans ?_)
  have computed := @term_computes γ
    { next with termOperator := .scale, scaleNumerator := numerator.value } kind term.value _ _
    nextKind value operator (decides_ratio numerator.value denominator.value)
    (flag || term.failed passes || numerator.failed passes ||
      denominator.failed passes)
  rw [failed_bind, failed_bind, failed_bind, ← Bool.or_assoc, ← Bool.or_assoc, ← Bool.or_assoc]
  rw [absorb, present_integer, applyFactor_scale operator rfl, computed]
  exact .refl _

/-- Where the grammar reads a tree, the loop reads it too. -/
theorem Reads.treeRead {tree : ExpressionTree γ level kind}
    (reads : Reads processor parenthesized start tree operator rest) :
    TreeRead processor parenthesized start tree operator rest := by
  induction reads with
  | scalar leading factor scanned => exact scalar_read leading factor scanned
  | group leading _ scanned ih => exact group_read leading ih scanned
  | single _ ih => exact single_read ih
  | multiply _ _ plain termIH factorIH => exact multiply_read plain termIH factorIH
  | divide _ _ termIH factorIH => exact divide_read termIH factorIH
  | scale _ _ _ termIH numeratorIH denominatorIH =>
    exact scale_read termIH numeratorIH denominatorIH
  | first _ closing ih => exact first_read closing ih
  | @sum _ _ subtract _ _ _ _ _ _ _ _ closing leftIH rightIH => ?_
  have followed : (if subtract then .subtract else .add : ExpressionOperator).follows =
      true := by
    cases subtract <;> rfl
  unfold TreeRead at leftIH
  rw [followed] at leftIH
  exact sum_read (evaluate_limited _ _) (evaluate_limited _ _) closing leftIH rightIH

theorem Reads.scans {tree : ExpressionTree γ .expression kind}
    (reads : Reads processor false start tree .none rest) : ScansExpression processor kind start
      (.complete (kind.present (tree.evaluate false).value)
        ((tree.evaluate false).failed passes) rest) := by
  obtain ⟨next, -, -, -, -, value, continued⟩ :=
    reads.treeRead (.new kind) [] false rfl rfl rfl rfl rfl
  refine (continued _).mpr ?_
  unfold closeExpression
  rw [if_neg (by simp), value, Bool.false_or]
  rfl

end Umber.Command
