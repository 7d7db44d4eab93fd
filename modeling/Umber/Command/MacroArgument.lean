import Umber.Command.ArgumentWriter
import Umber.Lib.Overlap

/-! Matching the delimited arguments of a macro: the scalar matcher with its table of
delimiter overlaps, and the runs of resident words that are taken in one piece. -/

set_option autoImplicit false

namespace Umber.Command

inductive CommandError where
  | inputInvariant

structure MacroPlan where
  delimiter : List TokenWord
  long : Bool
  paragraphToken : Option TokenWord
  recoveryPar : TokenWord
  outer : TokenWord → Bool

structure ArgumentRunAdmission where
  commands : Option (TokenWord → Bool)
  paragraphToken : Option TokenWord
  stopWord : Option TokenWord
  depth : Nat
  closeFloor : Nat
  braceDelta : Int
  stopAtParameter : Bool
  completesUndelimited : Bool
  closed : Bool

namespace ArgumentRunAdmission

/-- An outer command is refused, and every command where meanings are not read. -/
def admitsCommand (admission : ArgumentRunAdmission) (word : TokenWord) : Bool :=
  match admission.commands with
  | none => false
  | some outer => !outer word

def admitsPlain (admission : ArgumentRunAdmission) (word : TokenWord) : Bool :=
  match word.literalCatcode with
  | some .space => !(admission.completesUndelimited && admission.depth == 0)
  | some .beginGroup | some .endGroup | some .alignmentTab => false
  | some .parameter => !admission.stopAtParameter
  | some .active => admission.admitsCommand word
  | some _ => true
  | none =>
    word.isControlSequence && decide (some word ≠ admission.paragraphToken) &&
      admission.admitsCommand word

def close (admission : ArgumentRunAdmission) (admitted : Bool) : Bool × ArgumentRunAdmission :=
  (admitted, { admission with
    closed := admitted && admission.completesUndelimited && admission.depth == 0 })

def admits (admission : ArgumentRunAdmission) (word : TokenWord) : Bool × ArgumentRunAdmission :=
  if admission.closed = true ∨ (admission.depth = 0 ∧ some word = admission.stopWord) then
    (false, admission)
  else if word.isBeginGroup = true ∧ admission.commands.isSome = true then
    (true, { admission with
      depth := admission.depth + 1, braceDelta := admission.braceDelta + 1 })
  else if word.isEndGroup = true ∧ admission.commands.isSome = true ∧
      (admission.closeFloor < admission.depth ∨
        (admission.completesUndelimited = true ∧ admission.depth = 1)) then
    { admission with
      depth := admission.depth - 1, braceDelta := admission.braceDelta - 1 }.close true
  else admission.close (admission.admitsPlain word)

def takeWhile (admission : ArgumentRunAdmission) : List TokenWord → List TokenWord
  | [] => []
  | word :: rest =>
    match admission.admits word with
    | (false, _) => []
    | (true, next) => word :: takeWhile next rest

end ArgumentRunAdmission

/-- One look at the resident words on top of the input: how many there are, whether
their commands may be taken, and whether the end of the run is an input transition that
is settled in place. -/
structure ResidentWindow where
  length : Nat
  commands : Bool
  settlesTransition : Bool

def delimiterAdmission (plan : MacroPlan) (window : ResidentWindow) (depth : Nat) :
    ArgumentRunAdmission :=
  { commands := if window.commands = true then some plan.outer else none
    paragraphToken := plan.paragraphToken
    stopWord := plan.delimiter.head?
    depth := depth
    closeFloor := 0
    braceDelta := 0
    stopAtParameter := false
    completesUndelimited := false
    closed := false }

/-- Failure links of the delimiter: for each word, the longest start of the delimiter
that ends there. -/
def buildDelimiterFailure (delimiter : List TokenWord) : Except CommandError (List Nat) :=
  match delimiter with
  | [] => .ok []
  | _ :: rest =>
    match Overlap.extendTable delimiter rest.length [0] with
    | none => .error .inputInvariant
    | some failure => .ok failure

/-- How much of the delimiter is still matched after a word that did not extend it. -/
def delimiterOverlap (delimiter : List TokenWord) (failure : List Nat) (prefixLen : Nat)
    (current : TokenWord) : Except CommandError Nat :=
  match Overlap.fallBack delimiter failure current prefixLen prefixLen with
  | none => .error .inputInvariant
  | some matched => .ok (min (Overlap.advance delimiter current matched) (delimiter.length - 1))

inductive Settled where
  | more (scratch : ArgumentScratch)
  | matched (scratch : ArgumentScratch)
  | extraRightBrace (scratch : ArgumentScratch)
  | paragraph (scratch : ArgumentScratch)

def settleOrdinary (plan : MacroPlan) (scratch : ArgumentScratch) (word : TokenWord) :
    Except CommandError Settled :=
  if scratch.depth = 0 ∧ word.isEndGroup = true then .ok (.extraRightBrace scratch)
  else if some word = plan.paragraphToken ∧ plan.long = false then .ok (.paragraph scratch)
  else
    match scratch.appendHotDelivery word (decide (some word = plan.paragraphToken)) with
    | .error _ => .error .inputInvariant
    | .ok appended => .ok (.more appended)

def settleFailedPrefix (plan : MacroPlan) (failure : List Nat) (scratch : ArgumentScratch)
    (word : TokenWord) : Except CommandError Settled :=
  let prefixLen := scratch.delimiterPrefixLen
  match delimiterOverlap plan.delimiter failure prefixLen word with
  | .error problem => .error problem
  | .ok retained =>
    let committed := if retained = 0 then prefixLen else prefixLen + 1 - retained
    match scratch.revealDelimiterWords committed with
    | .error _ => .error .inputInvariant
    | .ok revealed =>
      if retained ≠ 0 then .ok (.more (revealed.appendDelimiterWord word))
      else settleOrdinary plan revealed word

def settleComplete (scratch : ArgumentScratch) : Except CommandError Settled :=
  match scratch.truncateDelimiterSuffix with
  | .error _ => .error .inputInvariant
  | .ok truncated =>
    match truncated.stripArgumentOuterGroup with
    | .error _ => .error .inputInvariant
    | .ok stripped => .ok (.matched stripped)

def settleDelivery (plan : MacroPlan) (failure : List Nat) (scratch : ArgumentScratch)
    (word : TokenWord) : Except CommandError Settled :=
  let prefixLen := scratch.delimiterPrefixLen
  if scratch.depth = 0 ∧ plan.delimiter[prefixLen]? = some word then
    let held := scratch.appendDelimiterWord word
    if held.delimiterPrefixLen = plan.delimiter.length then settleComplete held
    else .ok (.more held)
  else if prefixLen ≠ 0 then settleFailedPrefix plan failure scratch word
  else settleOrdinary plan scratch word

/-- How the match of one argument ends, and what is left of the input then. -/
inductive MatchOutcome where
  | matched (scratch : ArgumentScratch) (remaining : List TokenWord)
  | extraRightBrace (scratch : ArgumentScratch) (remaining : List TokenWord)
  | paragraphEnded (scratch : ArgumentScratch) (remaining : List TokenWord)
  | inputEnded (scratch : ArgumentScratch)

/-- A match in progress: the looks at resident words still to come, the words still to be
delivered, and the argument so far. -/
structure MatchState where
  windows : List ResidentWindow
  stream : List TokenWord
  scratch : ArgumentScratch

def MatchState.size (state : MatchState) : Nat :=
  state.windows.length + state.stream.length

def deliverWord (plan : MacroPlan) (failure : List Nat) (state : MatchState) :
    Except CommandError (MatchOutcome ⊕ MatchState) :=
  match state.stream with
  | [] => .ok (.inl (.inputEnded state.scratch))
  | word :: rest =>
    match settleDelivery plan failure state.scratch word with
    | .error problem => .error problem
    | .ok (.more next) => .ok (.inr { state with stream := rest, scratch := next })
    | .ok (.matched done) => .ok (.inl (.matched done rest))
    | .ok (.extraRightBrace done) =>
      .ok (.inl (.extraRightBrace done (plan.recoveryPar :: word :: rest)))
    | .ok (.paragraph done) => .ok (.inl (.paragraphEnded done (word :: rest)))

/-- Take the resident words that need no delivery, where no delimiter prefix is held
back. -/
def consumeArgumentRun (plan : MacroPlan) (window : ResidentWindow) (scratch : ArgumentScratch)
    (stream : List TokenWord) : Except CommandError (ArgumentScratch × List TokenWord) :=
  let run := (delimiterAdmission plan window scratch.depth).takeWhile (stream.take window.length)
  match scratch.appendPlainSpan run with
  | .error _ => .error .inputInvariant
  | .ok appended => .ok (appended, stream.drop run.length)

/-- One round of the matcher's loop. Without windows every word is delivered, as in
observed runs. -/
def matchRound (plan : MacroPlan) (failure : List Nat) (state : MatchState) :
    Except CommandError (MatchOutcome ⊕ MatchState) :=
  match state.windows with
  | [] => deliverWord plan failure state
  | window :: later =>
    if state.scratch.delimiterPrefixLen = 0 then
      match consumeArgumentRun plan window state.scratch state.stream with
      | .error problem => .error problem
      | .ok (appended, rest) =>
        let next : MatchState := { windows := later, stream := rest, scratch := appended }
        if window.settlesTransition = true then .ok (.inr next)
        else deliverWord plan failure next
    else deliverWord plan failure { state with windows := later }

variable {plan : MacroPlan} {failure : List Nat} {state next : MatchState}

theorem deliverWord_smaller (delivered : deliverWord plan failure state = .ok (.inr next)) :
    next.size < state.size := by
  unfold deliverWord at delivered
  split at delivered
  next => cases delivered
  rename_i word rest found
  split at delivered
  next => cases delivered
  next =>
    cases delivered
    unfold MatchState.size
    rw [found, List.length_cons]
    exact Nat.lt_succ_self _
  next => cases delivered
  next => cases delivered
  next => cases delivered

theorem consumeArgumentRun_shorter {window : ResidentWindow} {scratch appended : ArgumentScratch}
    {stream rest : List TokenWord}
    (consumed : consumeArgumentRun plan window scratch stream = .ok (appended, rest)) :
    rest.length ≤ stream.length := by
  unfold consumeArgumentRun at consumed
  dsimp only at consumed
  split at consumed
  · cases consumed
  cases consumed
  rw [List.length_drop]
  exact Nat.sub_le _ _

theorem matchRound_smaller (ran : matchRound plan failure state = .ok (.inr next)) :
    next.size < state.size := by
  unfold matchRound at ran
  split at ran
  next => exact deliverWord_smaller ran
  rename_i window later found
  have fewer : later.length < state.windows.length := by
    rw [found]
    exact Nat.lt_succ_self _
  split at ran
  next =>
    split at ran
    next => cases ran
    rename_i appended rest consumed
    have shorter := consumeArgumentRun_shorter consumed
    have smaller : MatchState.size ⟨later, rest, appended⟩ < state.size :=
      Nat.add_lt_add_of_lt_of_le fewer shorter
    split at ran
    next =>
      cases ran
      exact smaller
    next => exact Nat.lt_trans (deliverWord_smaller ran) smaller
  have smaller : MatchState.size { state with windows := later } < state.size :=
    Nat.add_lt_add_right fewer _
  exact Nat.lt_trans (deliverWord_smaller ran) smaller

def scanLoop (plan : MacroPlan) (failure : List Nat) (state : MatchState) :
    Except CommandError MatchOutcome :=
  match ran : matchRound plan failure state with
  | .error problem => .error problem
  | .ok (.inl outcome) => .ok outcome
  | .ok (.inr next) => scanLoop plan failure next
termination_by state.size
decreasing_by exact matchRound_smaller ran

def scanDelimitedArgument (plan : MacroPlan) (windows : List ResidentWindow)
    (macroWords stream : List TokenWord) : Except CommandError MatchOutcome :=
  match buildDelimiterFailure plan.delimiter with
  | .error problem => .error problem
  | .ok failure =>
    scanLoop plan failure
      { windows := windows, stream := stream, scratch := .beginArgumentWriter macroWords }

end Umber.Command
