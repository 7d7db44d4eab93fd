import Umber.Command.ExpressionProperties
import Umber.Lib.Except

/-! The expression scanner ends on every stream: it reads a tree, or an operation
of the processor fails. -/

set_option autoImplicit false

namespace Umber.Command

open ExpressionMachine

open ExceptLib (bind_eq_error bind_eq_ok ok_bind)

variable {γ σ κ ε : Type} {processor : ExpressionProcessor σ κ γ ε}

namespace ExpressionProcessor

/-! ## The stream -/

variable {state after : σ} {command : ExpressionMeaning κ}

theorem nextNonSpace_command (delivered : processor.nextNonSpace state = .ok (some command, after)) :
     processor.remaining after < processor.remaining state := by
  fun_induction processor.nextNonSpace state with
  | case1 state error requested => cases delivered
  | case2 state after requested => cases delivered
  | case3 state first middle requested space ih =>
    exact (ih delivered).trans (processor.remaining_request requested)
  | case4 state first middle requested plain =>
    cases delivered
    exact processor.remaining_request requested

theorem nextNonSpace_end (delivered : processor.nextNonSpace state = .ok (none, after)) :
    processor.remaining after ≤ processor.remaining state := by
  fun_induction processor.nextNonSpace state with
  | case1 state error requested => cases delivered
  | case2 state last requested =>
    cases delivered
    exact processor.remaining_end requested
  | case3 state first middle requested space ih =>
    exact (ih delivered).trans (processor.remaining_request requested).le
  | case4 state first middle requested plain => cases delivered

variable {error : ε}

theorem nextNonSpace_error (failed : processor.nextNonSpace state = .error error) :
    processor.Raises error := by
  fun_induction processor.nextNonSpace state with
  | case1 state reason requested =>
    cases failed
    exact Or.inl ⟨state, requested⟩
  | case2 state after requested => cases failed
  | case3 state first middle requested space ih => exact ih failed
  | case4 state first middle requested plain => cases failed

theorem opensFactor_group {inside : σ} (opened : processor.opensFactor state = .ok (true, inside)) :
    processor.remaining inside < processor.remaining state := by
  unfold opensFactor at opened
  cases delivered : processor.nextNonSpace state with
  | error error =>
    rw [delivered] at opened
    cases opened
  | ok next => ?_
  obtain ⟨command, after⟩ := next
  rw [delivered, ok_bind] at opened
  cases command with
  | none => cases opened
  | some command => ?_
  dsimp only at opened
  split at opened
  · cases opened
    exact nextNonSpace_command delivered
  obtain ⟨returned, -, opened⟩ := bind_eq_ok.mp opened
  cases opened

theorem opensFactor_scalar {ready : σ} (opened : processor.opensFactor state = .ok (false, ready)) :
    processor.remaining ready ≤ processor.remaining state := by
  unfold opensFactor at opened
  obtain ⟨next, delivered, opened⟩ := bind_eq_ok.mp opened
  obtain ⟨command, after⟩ := next
  cases command with
  | none =>
    cases opened
    exact nextNonSpace_end delivered
  | some command => ?_
  dsimp only at opened
  split at opened
  · cases opened
  obtain ⟨returned, back, opened⟩ := bind_eq_ok.mp opened
  cases opened
  exact (processor.remaining_backInput back).trans (nextNonSpace_command delivered)

theorem opensFactor_error (failed : processor.opensFactor state = .error error) :
    processor.Raises error := by
  unfold opensFactor at failed
  rcases bind_eq_error.mp failed with failed | ⟨⟨command, after⟩, _, failed⟩
  · exact nextNonSpace_error failed
  cases command with
  | none => cases failed
  | some command => ?_
  dsimp only at failed
  split at failed
  · cases failed
  rcases bind_eq_error.mp failed with back | ⟨returned, _, failed⟩
  · exact Or.inr (Or.inl ⟨command, after, back⟩)
  · cases failed

theorem scanFactor_ok {kind : ExpressionKind} {scanned : ExpressionValue γ × σ}
    (factor : processor.scanFactor kind state = .ok scanned) :
    (∃ value : kind.Value γ, scanned.1 = kind.present value) ∧
      processor.remaining scanned.2 ≤ processor.remaining state := by
  cases kind with
  | integer =>
    obtain ⟨result, read, factor⟩ := bind_eq_ok.mp factor
    cases factor
    exact ⟨⟨result.1.toInt, rfl⟩, processor.remaining_integer read⟩
  | dimension =>
    obtain ⟨result, read, factor⟩ := bind_eq_ok.mp factor
    cases factor
    exact ⟨⟨result.1.toInt, rfl⟩, processor.remaining_dimension read⟩
  | glue =>
    obtain ⟨result, read, factor⟩ := bind_eq_ok.mp factor
    cases factor
    exact ⟨⟨.fromSpec result.1, rfl⟩, processor.remaining_glue read⟩
  | muGlue => ?_
  obtain ⟨result, read, factor⟩ := bind_eq_ok.mp factor
  cases factor
  exact ⟨⟨.fromSpec result.1, rfl⟩, processor.remaining_glue read⟩

variable {operator : ExpressionOperator}

theorem operator_ne_scale (known : command.operator = some operator) : operator ≠ .scale := by
  rintro rfl
  unfold ExpressionMeaning.operator at known
  split at known
  · cases known
  split at known
  · cases known
  split at known
  · cases known
  split at known
  · cases known
  · cases known

variable {parenthesized : Bool}

/-- The scan of an operator ends the expression or shortens the stream. -/
theorem scanExpressionOperator_ok {rest : σ}
    (scanned : processor.scanExpressionOperator parenthesized state = .ok (operator, rest)) :
    operator ≠ .scale ∧ ((operator = .none ∧ processor.remaining rest ≤ processor.remaining state) ∨
        processor.remaining rest < processor.remaining state) := by
  unfold scanExpressionOperator at scanned
  obtain ⟨next, delivered, scanned⟩ := bind_eq_ok.mp scanned
  obtain ⟨command, after⟩ := next
  cases command with
  | none =>
    cases scanned
    exact ⟨by decide, Or.inl ⟨rfl, nextNonSpace_end delivered⟩⟩
  | some command => ?_
  have shorter := nextNonSpace_command delivered
  dsimp only at scanned
  cases known : command.operator with
  | some found =>
    rw [known] at scanned
    cases scanned
    exact ⟨operator_ne_scale known, Or.inr shorter⟩
  | none => ?_
  rw [known] at scanned
  dsimp only at scanned
  split at scanned
  · split at scanned
    · cases scanned
      exact ⟨by decide, Or.inl ⟨rfl, shorter.le⟩⟩
    obtain ⟨returned, back, scanned⟩ := bind_eq_ok.mp scanned
    obtain ⟨reported, report, scanned⟩ := bind_eq_ok.mp scanned
    cases scanned
    refine ⟨by decide, Or.inl ⟨rfl, ?_⟩⟩
    exact (processor.remaining_report report).trans
      ((processor.remaining_backInput back).trans shorter)
  split at scanned
  · cases scanned
    exact ⟨by decide, Or.inl ⟨rfl, shorter.le⟩⟩
  obtain ⟨returned, back, scanned⟩ := bind_eq_ok.mp scanned
  cases scanned
  exact ⟨by decide, Or.inl ⟨rfl, (processor.remaining_backInput back).trans shorter⟩⟩

theorem scanExpressionOperator_error
    (failed : processor.scanExpressionOperator parenthesized state = .error error) :
    processor.Raises error := by
  unfold scanExpressionOperator at failed
  rcases bind_eq_error.mp failed with failed | ⟨⟨command, after⟩, _, failed⟩
  · exact nextNonSpace_error failed
  cases command with
  | none => cases failed
  | some command => ?_
  dsimp only at failed
  cases known : command.operator with
  | some found =>
    rw [known] at failed
    cases failed
  | none => ?_
  rw [known] at failed
  dsimp only at failed
  split at failed
  · split at failed
    · cases failed
    rcases bind_eq_error.mp failed with back | ⟨returned, _, failed⟩
    · exact Or.inr (Or.inl ⟨command, after, back⟩)
    rcases bind_eq_error.mp failed with report | ⟨reported, _, failed⟩
    · exact Or.inr (Or.inr (Or.inr ⟨returned, report⟩))
    · cases failed
  split at failed
  · cases failed
  rcases bind_eq_error.mp failed with back | ⟨returned, _, failed⟩
  · exact Or.inr (Or.inl ⟨command, after, back⟩)
  · cases failed

end ExpressionProcessor

/-! ## Failures -/

def ExpressionFrame.Begins (kind : ExpressionKind) :
    ExpressionLevel → ExpressionFrame γ → Prop
  | .factor, frame => frame.factorKind = kind ∧
      (frame.termOperator = .none ∨ frame.termOperator.continuesTerm = true)
  | .term, frame => frame.kind = kind ∧ frame.termOperator = .none
  | .expression, frame => frame.kind = kind ∧ frame.termOperator = .none ∧
      frame.expressionOperator = .none

def Fails (processor : ExpressionProcessor σ κ γ ε) (level : ExpressionLevel)
    (kind : ExpressionKind) (parenthesized : Bool) (state : σ) : Prop :=
  ∃ error, processor.Raises error ∧ ∀ (frame : ExpressionFrame γ) stack flag,
    frame.Begins kind level → frame.factorNegative = false → stack.isEmpty = !parenthesized →
    Ends processor (.inl ⟨frame, stack, flag, .factorLeading, state⟩) (.failed error)

def ExpressionLevel.Closes : ExpressionLevel → ExpressionOperator → Prop
  | .factor, operator => operator ≠ .scale
  | .term, operator => operator.continuesTerm = false
  | .expression, operator => operator = .none

/-- From the state the loop fails, or a tree is read that leaves no longer a
stream. -/
def Settles (processor : ExpressionProcessor σ κ γ ε) (level : ExpressionLevel)
    (kind : ExpressionKind) (parenthesized : Bool) (state : σ) : Prop :=
  Fails processor level kind parenthesized state ∨
    ∃ (tree : ExpressionTree γ level kind) (operator : ExpressionOperator) (rest : σ),
      Reads processor parenthesized state tree operator rest ∧ level.Closes operator ∧
        ((operator = .none ∧ processor.remaining rest ≤ processor.remaining state) ∨
          processor.remaining rest < processor.remaining state)

variable {state : σ}

theorem finishFactor_fails {machine : ExpressionMachine σ γ} {factor : ExpressionValue γ}
    {error : ε}
    (failed : processor.scanExpressionOperator (!machine.stack.isEmpty) state = .error error) :
    machine.finishFactor processor factor state = .inr (.failed error) := by
  rw [finishFactor, failed]

variable {kind : ExpressionKind} {parenthesized : Bool}

theorem scalar_settles {ready : σ} (leading : processor.opensFactor state = .ok (false, ready)) :
    Settles processor .factor kind parenthesized state := by
  have shorter := processor.opensFactor_scalar leading
  have begun : ∀ (frame : ExpressionFrame γ) stack flag,
      Continues processor (.inl ⟨frame, stack, flag, .factorLeading, state⟩)
        (.inl ⟨frame, stack, flag, .factorScalar, ready⟩) := by
    intro frame stack flag
    refine (Continues.step _).trans ?_
    rw [step, leading]
    exact .refl _
  cases factor : processor.scanFactor kind ready with
  | error error =>
    refine Or.inl ⟨error, Or.inr (Or.inr (Or.inl ⟨kind, ready, factor⟩)), ?_⟩
    intro frame stack flag begins unsigned nested
    refine (((begun frame stack flag).trans (Continues.step _)) _).mpr ?_
    rw [step]
    dsimp only
    rw [begins.1, factor]
    exact rfl
  | ok scanned => ?_
  obtain ⟨⟨value, same⟩, notLonger⟩ := processor.scanFactor_ok factor
  obtain ⟨result, after⟩ := scanned
  subst same
  cases next : processor.scanExpressionOperator parenthesized after with
  | error error =>
    refine Or.inl ⟨error, processor.scanExpressionOperator_error next, ?_⟩
    intro frame stack flag begins unsigned nested
    refine (((begun frame stack flag).trans (Continues.step _)) _).mpr ?_
    rw [step]
    dsimp only
    rw [begins.1, factor]
    dsimp only
    rw [finishFactor_fails]
    · exact rfl
    rw [nested, Bool.not_not]
    exact next
  | ok found => ?_
  obtain ⟨operator, rest⟩ := found
  obtain ⟨closes, progress⟩ := processor.scanExpressionOperator_ok next
  have bound := notLonger.trans shorter
  refine Or.inr ⟨.scalar value, operator, rest, .scalar leading factor next, closes, ?_⟩
  exact progress.imp (And.imp_right (fun left => left.trans bound))
    (fun left => left.trans_le bound)

/-- A factor in parentheses, when what they enclose settles. -/
theorem group_settles {inside : σ} (leading : processor.opensFactor state = .ok (true, inside))
    (body : Settles processor .expression kind true inside) :
    Settles processor .factor kind parenthesized state := by
  have shorter := processor.opensFactor_group leading
  have begun : ∀ (frame : ExpressionFrame γ) stack flag, frame.factorKind = kind →
      Continues processor (.inl ⟨frame, stack, flag, .factorLeading, state⟩)
        (.inl ⟨.new kind, frame :: stack, flag, .factorLeading, inside⟩) := by
    intro frame stack flag read
    refine (Continues.step _).trans ?_
    rw [step, leading]
    dsimp only
    rw [read]
    exact .refl _
  rcases body with ⟨error, raised, fails⟩ | ⟨tree, operator, after, reads, closes, progress⟩
  · refine Or.inl ⟨error, raised, ?_⟩
    intro frame stack flag begins unsigned nested
    refine (begun frame stack flag begins.1 _).mpr ?_
    exact fails (.new kind) (frame :: stack) flag ⟨rfl, rfl, rfl⟩ rfl rfl
  obtain rfl : operator = .none := closes
  have notLonger : processor.remaining after ≤ processor.remaining inside :=
    progress.elim And.right le_of_lt
  cases next : processor.scanExpressionOperator parenthesized after with
  | error error =>
    refine Or.inl ⟨error, processor.scanExpressionOperator_error next, ?_⟩
    intro frame stack flag begins unsigned nested
    obtain ⟨last, -, -, -, -, -, continued⟩ :=
      reads.treeRead (.new kind) (frame :: stack) flag rfl rfl rfl rfl rfl
    refine ((begun frame stack flag begins.1).trans continued _).mpr ?_
    unfold closeExpression
    rw [if_neg (by simp)]
    refine (Continues.step _ _).mpr ?_
    rw [step]
    dsimp only
    rw [finishFactor_fails]
    · exact rfl
    rw [nested, Bool.not_not]
    exact next
  | ok found => ?_
  obtain ⟨operator, rest⟩ := found
  obtain ⟨closes, progress⟩ := processor.scanExpressionOperator_ok next
  refine Or.inr ⟨.group tree, operator, rest, .group leading reads next, closes, ?_⟩
  exact progress.imp (And.imp_right (fun left => (left.trans notLonger).trans shorter.le))
    (fun left => left.trans (notLonger.trans_lt shorter))

def ShorterSettle (processor : ExpressionProcessor σ κ γ ε) (bound : Nat) : Prop :=
  ∀ (kind : ExpressionKind) (inside : σ), processor.remaining inside < bound →
    Settles processor .expression kind true inside

variable {bound : Nat}

theorem factor_settles (shorter : ShorterSettle processor bound) (kind : ExpressionKind)
    (parenthesized : Bool) (inBound : processor.remaining state ≤ bound) :
    Settles processor .factor kind parenthesized state := by
  cases leading : processor.opensFactor state with
  | error error =>
    refine Or.inl ⟨error, processor.opensFactor_error leading, ?_⟩
    intro frame stack flag begins unsigned nested
    refine (Continues.step _ _).mpr ?_
    rw [step, leading]
    exact rfl
  | ok opened => ?_
  obtain ⟨group, inside⟩ := opened
  cases group with
  | false => exact scalar_settles leading
  | true =>
    exact group_settles leading
      (shorter kind inside ((processor.opensFactor_group leading).trans_le inBound))

variable {start middle : σ} {term : Checked (kind.Value γ)} {operator : ExpressionOperator}

/-- A failure in a later factor of a term fails the term. -/
theorem fails_of_factor (continuing : operator.continuesTerm = true)
    (termRead : TermRead processor parenthesized start term operator middle)
    (fails : Fails processor .factor .integer parenthesized middle) :
    Fails processor .term kind parenthesized start := by
  obtain ⟨error, raised, fails⟩ := fails
  refine ⟨error, raised, ?_⟩
  intro frame stack flag begins unsigned nested
  obtain ⟨next, -, nextUnsigned, -, -, -, continued⟩ :=
    termRead frame stack flag begins.1 unsigned begins.2 nested
  rw [closeTerm_continues continuing] at continued
  refine (continued _).mpr (fails _ stack _ ⟨if_neg ?_, Or.inr continuing⟩ nextUnsigned nested)
  intro none
  rw [show operator = .none from none] at continuing
  cases continuing

/-- A failure in the denominator of a scaled term fails the term. -/
theorem fails_of_denominator {after : σ} {numerator : Checked Int}
    (termRead : TermRead processor parenthesized start term .multiply middle) (numeratorRead :
      @FactorRead _ _ _ _ processor .integer parenthesized middle numerator .divide after)
    (fails : Fails processor .factor .integer parenthesized after) :
    Fails processor .term kind parenthesized start := by
  obtain ⟨error, raised, fails⟩ := fails
  refine ⟨error, raised, ?_⟩
  intro frame stack flag begins unsigned nested
  obtain ⟨next, -, nextUnsigned, -, -, -, continued⟩ :=
    termRead frame stack flag begins.1 unsigned begins.2 nested
  rw [closeTerm_continues rfl] at continued
  have waiting := numeratorRead { next with termOperator := .multiply } stack
    (flag || term.failed ExpressionCheck.passes) rfl nextUnsigned (Or.inr rfl) nested
  refine ((continued.trans waiting) _).mpr ?_
  exact fails { next with termOperator := .scale, scaleNumerator := numerator.value } stack
    (flag || term.failed ExpressionCheck.passes || numerator.failed ExpressionCheck.passes)
    ⟨rfl, Or.inr rfl⟩ nextUnsigned nested

/-- The loop fails, or the term that begins at a state is read to its end. -/
def TermEnds (processor : ExpressionProcessor σ κ γ ε) (kind : ExpressionKind)
    (parenthesized : Bool) (start : σ) (bound : Nat) : Prop :=
  Fails processor .term kind parenthesized start ∨
    ∃ (tree : ExpressionTree γ .term kind) (operator : ExpressionOperator) (rest : σ),
      Reads processor parenthesized start tree operator rest ∧
        operator.continuesTerm = false ∧ processor.remaining rest ≤ bound

theorem TermEnds.mono {larger : Nat} (ends : TermEnds processor kind parenthesized start bound)
    (le : bound ≤ larger) : TermEnds processor kind parenthesized start larger := by
  refine ends.imp_right ?_
  rintro ⟨tree, operator, rest, reads, closing, inBound⟩
  exact ⟨tree, operator, rest, reads, closing, inBound.trans le⟩

/-- A term that has been read up to an operator is read to its end. -/
theorem term_ends (shorter : ShorterSettle processor bound) {tree : ExpressionTree γ .term kind}
    (reads : Reads processor parenthesized start tree operator middle) (plain : operator ≠ .scale)
    (inBound : processor.remaining middle ≤ bound) :
    TermEnds processor kind parenthesized start (processor.remaining middle) := by
  induction left : processor.remaining middle using Nat.strong_induction_on
    generalizing middle tree operator with
  | _ left ih => ?_
  subst left
  -- The induction is on the stream left after the operator.
  have extended : ∀ (tree : ExpressionTree γ .term kind) (next : ExpressionOperator) rest,
      Reads processor parenthesized start tree next rest → next ≠ .scale →
      ((next = .none ∧ processor.remaining rest ≤ processor.remaining middle) ∨
        processor.remaining rest < processor.remaining middle) →
      TermEnds processor kind parenthesized start (processor.remaining middle) := by
    rintro tree next rest reads plain (⟨rfl, notLonger⟩ | less)
    · exact Or.inr ⟨tree, .none, rest, reads, rfl, notLonger⟩
    · exact (ih _ less reads plain (less.le.trans inBound) rfl).mono less.le
  cases operator with
  | none => exact Or.inr ⟨tree, .none, middle, reads, rfl, le_rfl⟩
  | add => exact Or.inr ⟨tree, .add, middle, reads, rfl, le_rfl⟩
  | subtract => exact Or.inr ⟨tree, .subtract, middle, reads, rfl, le_rfl⟩
  | scale => exact absurd rfl plain
  | divide =>
    rcases factor_settles shorter .integer parenthesized inBound with
      fails | ⟨factor, next, rest, factorReads, closes, progress⟩
    · exact Or.inl (fails_of_factor rfl reads.treeRead fails)
    · exact extended _ next rest (.divide reads factorReads) closes progress
  | multiply => ?_
  rcases factor_settles shorter .integer parenthesized inBound with
    fails | ⟨factor, next, rest, factorReads, closes, progress⟩
  · exact Or.inl (fails_of_factor rfl reads.treeRead fails)
  by_cases dividing : next = .divide
  · subst dividing
    have less : processor.remaining rest < processor.remaining middle :=
      progress.elim (fun ended => absurd ended.1 (by decide)) id
    rcases factor_settles shorter .integer parenthesized (less.le.trans inBound) with
      fails | ⟨denominator, last, end_, denominatorReads, closes, progress⟩
    · exact Or.inl (fails_of_denominator reads.treeRead factorReads.treeRead fails)
    refine extended _ last end_ (.scale reads factorReads denominatorReads) closes ?_
    exact progress.imp (And.imp_right fun left => left.trans less.le) fun left => left.trans less
  · exact extended _ next rest (.multiply reads factorReads dividing) closes progress

theorem term_settles (shorter : ShorterSettle processor bound) (kind : ExpressionKind)
    (parenthesized : Bool) (inBound : processor.remaining state ≤ bound) :
    Settles processor .term kind parenthesized state := by
  rcases factor_settles shorter kind parenthesized inBound with
    ⟨error, raised, fails⟩ | ⟨factor, operator, middle, reads, closes, progress⟩
  · refine Or.inl ⟨error, raised, ?_⟩
    intro frame stack flag begins unsigned nested
    refine fails frame stack flag ⟨?_, Or.inl begins.2⟩ unsigned nested
    rw [ExpressionFrame.factorKind, if_pos begins.2, begins.1]
  rcases progress with ⟨rfl, notLonger⟩ | less
  · exact Or.inr ⟨.single factor, .none, middle, .single reads, rfl, Or.inl ⟨rfl, notLonger⟩⟩
  refine (term_ends shorter (.single reads) closes (less.le.trans inBound)).imp_right ?_
  rintro ⟨tree, last, rest, treeReads, closing, notLonger⟩
  exact ⟨tree, last, rest, treeReads, closing, Or.inr (notLonger.trans_lt less)⟩

/-- A failure in a later term of an expression fails the expression. -/
theorem fails_of_term {left : Checked (kind.Value γ)} (operated : operator ≠ .none)
    (leftRead : ExpressionRead processor parenthesized start left operator middle)
    (fails : Fails processor .term kind parenthesized middle) :
    Fails processor .expression kind parenthesized start := by
  obtain ⟨error, raised, fails⟩ := fails
  refine ⟨error, raised, ?_⟩
  intro frame stack flag begins unsigned nested
  obtain ⟨next, nextKind, nextUnsigned, nextFresh, -, -, continued⟩ :=
    leftRead frame stack flag begins.1 unsigned begins.2.1 begins.2.2 nested
  unfold closeExpression at continued
  rw [if_pos operated] at continued
  exact (continued _).mpr (fails next stack _ ⟨nextKind, nextFresh⟩ nextUnsigned nested)

/-- An expression that has been read up to an operator is read to its end. -/
theorem expression_ends (shorter : ShorterSettle processor bound)
    {tree : ExpressionTree γ .expression kind}
    (reads : Reads processor parenthesized start tree operator middle)
    (closed : operator.continuesTerm = false) (inBound : processor.remaining middle ≤ bound) :
    Fails processor .expression kind parenthesized start ∨
      ∃ (tree : ExpressionTree γ .expression kind) (rest : σ),
        Reads processor parenthesized start tree .none rest ∧
          processor.remaining rest ≤ processor.remaining middle := by
  induction left : processor.remaining middle using Nat.strong_induction_on
    generalizing middle tree operator with
  | _ left ih => ?_
  subst left
  -- The induction is on the stream left after the operator.
  have extended : ∀ subtract : Bool,
      operator = (if subtract then .subtract else .add) →
      Fails processor .expression kind parenthesized start ∨
        ∃ (tree : ExpressionTree γ .expression kind) (rest : σ),
          Reads processor parenthesized start tree .none rest ∧
            processor.remaining rest ≤ processor.remaining middle := by
    rintro subtract rfl
    rcases term_settles shorter kind parenthesized inBound with
      fails | ⟨term, next, rest, termReads, closing, progress⟩
    · refine Or.inl (fails_of_term ?_ reads.treeRead fails)
      cases subtract <;> decide
    have summed : Reads processor parenthesized start (.sum subtract tree term) next rest :=
      .sum reads termReads closing
    rcases progress with ⟨rfl, notLonger⟩ | less
    · exact Or.inr ⟨_, rest, summed, notLonger⟩
    refine (ih _ less summed closing (less.le.trans inBound) rfl).imp_right ?_
    rintro ⟨last, ended, lastReads, notLonger⟩
    exact ⟨last, ended, lastReads, notLonger.trans less.le⟩
  cases operator with
  | none => exact Or.inr ⟨tree, middle, reads, le_rfl⟩
  | add => exact extended false rfl
  | subtract => exact extended true rfl
  | multiply => cases closed
  | divide => cases closed
  | scale => cases closed

theorem expression_settles (shorter : ShorterSettle processor bound) (kind : ExpressionKind)
    (parenthesized : Bool) (inBound : processor.remaining state ≤ bound) :
    Settles processor .expression kind parenthesized state := by
  rcases term_settles shorter kind parenthesized inBound with
    ⟨error, raised, fails⟩ | ⟨term, operator, middle, reads, closes, progress⟩
  · refine Or.inl ⟨error, raised, ?_⟩
    intro frame stack flag begins unsigned nested
    exact fails frame stack flag ⟨begins.1, begins.2.1⟩ unsigned nested
  have notLonger : processor.remaining middle ≤ processor.remaining state :=
    progress.elim And.right le_of_lt
  refine (expression_ends shorter (.first reads closes) closes
    (notLonger.trans inBound)).imp_right ?_
  rintro ⟨tree, rest, treeReads, less⟩
  exact ⟨tree, .none, rest, treeReads, rfl, Or.inl ⟨rfl, less.trans notLonger⟩⟩

theorem shorterSettle (processor : ExpressionProcessor σ κ γ ε) (bound : Nat) :
    ShorterSettle processor bound := by
  induction bound with
  | zero => exact fun _ _ less => absurd less (Nat.not_lt_zero _)
  | succ bound ih =>
    exact fun kind inside less => expression_settles ih kind true (Nat.lt_succ_iff.mp less)

/-- The scan of an expression reads a tree, or ends with an error of the
processor. -/
theorem scans_or_fails (processor : ExpressionProcessor σ κ γ ε) (kind : ExpressionKind)
    (state : σ) :
    (∃ error, processor.Raises error ∧ ScansExpression processor kind state (.failed error)) ∨
      ∃ (tree : ExpressionTree γ .expression kind) (rest : σ),
        Reads processor false state tree .none rest := by
  rcases expression_settles (shorterSettle processor _) kind false (le_refl _) with
    ⟨error, raised, fails⟩ | ⟨tree, operator, rest, reads, closes, -⟩
  · exact Or.inl ⟨error, raised, fails (.new kind) [] false ⟨rfl, rfl, rfl⟩ rfl rfl⟩
  obtain rfl : operator = .none := closes
  exact Or.inr ⟨tree, rest, reads⟩

theorem ScansExpression.unique {kind : ExpressionKind} {state : σ}
    {first second : ExpressionOutcome σ γ ε} (one : ScansExpression processor kind state first)
    (other : ScansExpression processor kind state second) : first = second :=
  @Ends.unique _ _ _ _ processor (.inl (.start kind state)) _ _ one other

/-! ## Results -/

theorem tryI32_limited {value : Int} (limited : |value| ≤ integerLimit) :
    ∃ result, tryI32 value = some result := by
  obtain ⟨low, high⟩ := abs_le.mp limited
  unfold integerLimit at low high
  exact ⟨Int32.ofInt value, if_pos ⟨by omega, high⟩⟩

theorem intoSpec_limited {glue : ExpressionGlue γ} (limited : ExpressionKind.glue.Limited glue) :
    ∃ spec, glue.intoSpec = some spec := by
  obtain ⟨width, widthFits⟩ := tryI32_limited (dimension_le_integer limited.1)
  obtain ⟨stretch, stretchFits⟩ := tryI32_limited (dimension_le_integer limited.2.1)
  obtain ⟨shrink, shrinkFits⟩ := tryI32_limited (dimension_le_integer limited.2.2)
  unfold ExpressionGlue.intoSpec
  rw [widthFits, stretchFits, shrinkFits]
  exact ⟨_, rfl⟩

variable {value : kind.Value γ}

theorem internalValue_limited (limited : kind.Limited value) :
    ∃ internal, expressionInternalValue kind (kind.present value) = some internal := by
  have number : ∀ {value : Int} (wrap : Int32 → InternalValue), |value| ≤ integerLimit →
      ∃ internal, (tryI32 value).map wrap = some internal := by
    intro value wrap limited
    obtain ⟨result, fits⟩ := tryI32_limited limited
    exact ⟨wrap result, congrArg (Option.map wrap) fits⟩
  have glue : ∀ {value : ExpressionGlue γ} (wrap : Umber.Page.GlueSpec → InternalValue),
      ExpressionKind.glue.Limited value →
      ∃ internal, value.intoSpec.map wrap = some internal := by
    intro value wrap limited
    obtain ⟨spec, fits⟩ := intoSpec_limited limited
    exact ⟨wrap spec, congrArg (Option.map wrap) fits⟩
  cases kind with
  | integer => exact number .integer limited
  | dimension => exact number .dimension (dimension_le_integer limited)
  | glue => exact glue .glue limited
  | muGlue => exact glue .muGlue limited

theorem published_converts (limited : kind.Limited value) (overflow : Bool) :
    ∃ internal, expressionInternalValue kind
      (publishedValue kind (kind.present value) overflow) = some internal := by
  cases overflow with
  | false => exact internalValue_limited limited
  | true => cases kind <;> exact ⟨_, rfl⟩

/-- The scan of an expression ends on every stream. It never panics, fails only
with an error of the processor, and otherwise completes with the value of the
tree the stream reads as. The overflow flag tells whether one of the checks of
that tree fails, and the published value always fits its type. -/
theorem scanExpression_evaluates (processor : ExpressionProcessor σ κ γ ε)
    (kind : ExpressionKind) (state : σ) :
    (∃ outcome, ScansExpression processor kind state outcome) ∧
    ¬ScansExpression processor kind state .panic ∧
    (∀ error, ScansExpression processor kind state (.failed error) → processor.Raises error) ∧
    (∀ value overflow rest, ScansExpression processor kind state (.complete value overflow rest) ↔
      ∃ tree : ExpressionTree γ .expression kind, Reads processor false state tree .none rest ∧
        value = kind.present (tree.evaluate false).value ∧
        (overflow = true ↔ ∃ check ∈ (tree.evaluate false).checks, check.passes = false)) ∧
    ∀ value overflow rest, ScansExpression processor kind state (.complete value overflow rest) →
      ∃ internal,
        expressionInternalValue kind (publishedValue kind value overflow) = some internal := by
  have flagged : ∀ (tree : ExpressionTree γ .expression kind) (overflow : Bool),
      (overflow = true ↔ ∃ check ∈ (tree.evaluate false).checks, check.passes = false) ↔
        overflow = (tree.evaluate false).failed ExpressionCheck.passes := by
    intro tree overflow
    rw [← Audited.failed_iff, ← Bool.eq_iff_iff]
  have completes : ∀ value overflow rest,
      ScansExpression processor kind state (.complete value overflow rest) ↔
        ∃ tree : ExpressionTree γ .expression kind, Reads processor false state tree .none rest ∧
          value = kind.present (tree.evaluate false).value ∧
          (overflow = true ↔ ∃ check ∈ (tree.evaluate false).checks, check.passes = false) := by
    intro value overflow rest
    constructor
    · intro scans
      rcases scans_or_fails processor kind state with ⟨error, -, fails⟩ | ⟨tree, left, reads⟩
      · cases scans.unique fails
      cases scans.unique reads.scans
      exact ⟨tree, reads, rfl, (flagged tree _).mpr rfl⟩
    rintro ⟨tree, reads, rfl, flag⟩
    rw [(flagged tree overflow).mp flag]
    exact reads.scans
  refine ⟨?_, ?_, ?_, completes, ?_⟩
  · rcases scans_or_fails processor kind state with ⟨error, -, fails⟩ | ⟨tree, rest, reads⟩
    · exact ⟨_, fails⟩
    · exact ⟨_, reads.scans⟩
  · intro scans
    rcases scans_or_fails processor kind state with ⟨error, -, fails⟩ | ⟨tree, rest, reads⟩
    · cases scans.unique fails
    · cases scans.unique reads.scans
  · intro error scans
    rcases scans_or_fails processor kind state with ⟨reason, raised, fails⟩ | ⟨tree, rest, reads⟩
    · cases scans.unique fails
      exact raised
    · cases scans.unique reads.scans
  intro value overflow rest scans
  obtain ⟨tree, -, rfl, -⟩ := (completes value overflow rest).mp scans
  exact published_converts (evaluate_limited tree false) overflow

/-- `7*5/2` has one rounding, away from zero. -/
example :
    run streamProcessor 9 (.start .integer
      [.other (⟨7, 7, .missing, .missing⟩ : ExpressionScalar Unit), .charToken '*' .other,
        .other ⟨5, 5, .missing, .missing⟩, .charToken '/' .other,
        .other ⟨2, 2, .missing, .missing⟩]) = some (.complete (.number 18) false []) := by
  decide +kernel

end Umber.Command
