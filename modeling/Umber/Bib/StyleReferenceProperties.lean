import Umber.Bib.StyleReferences
import Umber.Bib.StyleLoweringProperties

/-! What a round of the parser takes, and what it defines. -/

set_option autoImplicit false

namespace Umber.Bib.Compile

open Metered

/-! ## Progress -/

structure Moves (first next : Compiler) : Prop where
  tokens : next.tokens = first.tokens
  forward : first.at_ ≤ next.at_
  reports : first.diagnostics <+: next.diagnostics

theorem Moves.trans {first next last : Compiler} (left : Moves first next)
    (right : Moves next last) : Moves first last :=
  ⟨right.tokens.trans left.tokens, Nat.le_trans left.forward right.forward,
    left.reports.trans right.reports⟩

def moving : Course Compiler where
  leads := Moves
  refl := fun _ => ⟨rfl, Nat.le_refl _, List.prefix_refl _⟩
  trans := Moves.trans

variable {first next : Compiler}

theorem Quiet.moves (quiet : Quiet first next) : Moves first next :=
  ⟨quiet.tokens, quiet.forward, quiet.reports⟩

theorem Lowers.moves (lowers : Lowers first next) : Moves first next :=
  ⟨lowers.tokens, lowers.forward, lowers.reports⟩

theorem moves {α : Type} {computation : Compile α} (keeps : Keeps quiet computation) :
    Keeps moving computation :=
  Keeps.weaken Quiet.moves keeps

theorem lowerBody_moves (fuel : Nat) (tokens : List Token) (current : Nat)
    (instructions : List Instruction) : Keeps moving (lowerBody fuel tokens current instructions) :=
  Keeps.weaken Lowers.moves (lowerBody_lowers fuel tokens current instructions)

theorem insertSymbol_moves (name : Text) (kind : SymbolKind) :
    Keeps moving (insertSymbol name kind) := by
  intro limits compiler
  unfold insertSymbol
  cases compiler.declarations.insert name kind with
  | none => exact moving.refl compiler
  | some grown => exact ⟨rfl, Nat.le_refl _, List.prefix_refl _⟩

structure Untouched (first next : Compiler) : Prop where
  tokens : next.tokens = first.tokens
  at_ : next.at_ = first.at_
  diagnostics : next.diagnostics = first.diagnostics
  functions : next.functions = first.functions
  declarations : next.declarations = first.declarations

theorem Untouched.trans {first next last : Compiler} (left : Untouched first next)
    (right : Untouched next last) : Untouched first last :=
  ⟨right.tokens.trans left.tokens, right.at_.trans left.at_,
    right.diagnostics.trans left.diagnostics, right.functions.trans left.functions,
    right.declarations.trans left.declarations⟩

theorem Untouched.refl (compiler : Compiler) : Untouched compiler compiler :=
  ⟨rfl, rfl, rfl, rfl, rfl⟩

theorem recordWeb2cSlot_untouched (state : Web2cSlots × Compiler) :
    Untouched state.2 (recordWeb2cSlot state).2 := by
  unfold recordWeb2cSlot
  by_cases full : state.1.slots = state.1.capacity
  · rw [if_pos full]
    exact ⟨rfl, rfl, rfl, rfl, rfl⟩
  rw [if_neg full]
  exact .refl _

theorem growWeb2cWiz_untouched (slots fuel : Nat) : ∀ compiler,
    Untouched compiler (growWeb2cWiz slots fuel compiler) := by
  induction fuel with
  | zero => exact Untouched.refl
  | succ fuel smaller => ?_
  intro compiler
  unfold growWeb2cWiz
  by_cases grows : compiler.web2cWizCapacity < compiler.web2cWizUsed + slots
  · rw [if_pos grows]
    have same := smaller { compiler with
      web2cReallocations := compiler.web2cReallocations ++
        [{ array := "wiz_functions"
           elementSize := hashPtrSize
           oldCapacity := compiler.web2cWizCapacity
           newCapacity := compiler.web2cWizCapacity + wizFunctionSpace }]
      web2cWizCapacity := compiler.web2cWizCapacity + wizFunctionSpace }
    exact ⟨same.tokens, same.at_, same.diagnostics, same.functions, same.declarations⟩
  rw [if_neg grows]
  exact .refl _

theorem finishWeb2cFunction_untouched (state : Web2cSlots × Compiler) :
    Untouched state.2 (finishWeb2cFunction state) := by
  refine (recordWeb2cSlot_untouched state).trans ?_
  refine (growWeb2cWiz_untouched _ _ _).trans ⟨rfl, rfl, rfl, rfl, rfl⟩

theorem recordWeb2cBody_untouched (fuel : Nat) : ∀ (tokens : List Token)
    (state : Web2cSlots × Compiler), Untouched state.2 (recordWeb2cBody fuel tokens state).2 := by
  induction fuel with
  | zero => exact fun _ _ => .refl _
  | succ fuel smaller => ?_
  intro tokens state
  cases tokens with
  | nil => exact .refl _
  | cons token rest => ?_
  unfold recordWeb2cBody
  cases token.kind with
  | quote =>
    exact ((recordWeb2cSlot_untouched _).trans (recordWeb2cSlot_untouched _)).trans (smaller _ _)
  | openBrace =>
    refine ((recordWeb2cSlot_untouched _).trans (recordWeb2cSlot_untouched _)).trans ?_
    dsimp only
    cases closeOf 1 rest with
    | none => exact smaller _ _
    | some count => ?_
    have inside := smaller (rest.take count) (.start, (recordWeb2cSlot (recordWeb2cSlot state)).2)
    have behind := smaller (rest.drop (count + 1))
      ((recordWeb2cSlot (recordWeb2cSlot state)).1, finishWeb2cFunction
        (recordWeb2cBody fuel (rest.take count)
          (.start, (recordWeb2cSlot (recordWeb2cSlot state)).2)))
    exact (inside.trans (finishWeb2cFunction_untouched _)).trans behind
  | closeBrace => exact smaller _ _
  | integer | string | identifier =>
    exact (recordWeb2cSlot_untouched _).trans (smaller _ _)

theorem recordWeb2cFunction_untouched (body : List Token) (limits : CompileLimits)
    (compiler : Compiler) : Untouched compiler (recordWeb2cFunction body limits compiler).2 :=
  (recordWeb2cBody_untouched body.length body (.start, compiler)).trans
    (finishWeb2cFunction_untouched _)

def defineBody (name : Text) (id : Nat) : Compile Unit := do
  tracePool (fold name)
  let body ← group
  recordWeb2cFunction body
  pushFunction name
  let instructions ← lowerBody body.length body id []
  setFunction id name instructions

def insertFunction (name : Text) (location : SourceLocation) : Compile Unit := do
  let id ← functionCount
  let inserted ← insertSymbol name (.userFunction id)
  match inserted with
  | none => do
    error .duplicateSymbol location "duplicate BST function"
    skipGroup
  | some _ => defineBody name id

def defineFunction (name : Text) (location : SourceLocation) : Compile Unit := do
  let shadowed ← Metered.read fun compiler => (compiler.declarations.lookup name).isSome
  if shadowed = true then do
    error .shadowing location "function shadows an existing BST symbol"
    skipGroup
  else
    branch functionsFull
      (do
        error .limit location "BST function limit exceeded"
        skipGroup)
      (insertFunction name location)

def namedFunction (location : SourceLocation) : Option Text → Compile Unit
  | none => recover
  | some name => defineFunction name location

theorem function_eq (location : SourceLocation) :
    function location = oneIdentifierGroup >>= namedFunction location := by
  unfold function
  refine congrArg (oneIdentifierGroup >>= ·) (funext fun name => ?_)
  cases name with
  | none => rfl
  | some name => rfl

theorem pushFunction_moves (name : Text) : Keeps moving (pushFunction name) :=
  .modify fun _ => ⟨rfl, Nat.le_refl _, List.prefix_refl _⟩

theorem setFunction_moves (id : Nat) (name : Text) (instructions : List Instruction) :
    Keeps moving (setFunction id name instructions) :=
  .modify fun _ => ⟨rfl, Nat.le_refl _, List.prefix_refl _⟩

theorem recordWeb2cFunction_moves (body : List Token) :
    Keeps moving (recordWeb2cFunction body) := by
  intro limits compiler
  have same := recordWeb2cFunction_untouched body limits compiler
  exact ⟨same.tokens, Nat.le_of_eq same.at_.symm, same.diagnostics ▸ List.prefix_refl _⟩

theorem lowerFunction_moves (name : Text) (id : Nat) (body : List Token) :
    Keeps moving (do
      recordWeb2cFunction body
      pushFunction name
      let instructions ← lowerBody body.length body id []
      setFunction id name instructions) :=
  .bind (recordWeb2cFunction_moves body) fun _ => .bind (pushFunction_moves name) fun _ =>
    .bind (lowerBody_moves _ _ _ _) fun _ => setFunction_moves _ _ _

theorem defineFunction_moves (name : Text) (location : SourceLocation) :
    Keeps moving (defineFunction name location) := by
  refine .bind (.read _) fun shadowed => .ite ?_ (.branch ?_ ?_)
  · exact .bind (moves (error_quiet _ _ _)) fun _ => moves skipGroup_quiet
  · exact .bind (moves (error_quiet _ _ _)) fun _ => moves skipGroup_quiet
  refine .bind (.read _) fun id => .bind (insertSymbol_moves _ _) fun inserted => ?_
  cases inserted with
  | none => exact .bind (moves (error_quiet _ _ _)) fun _ => moves skipGroup_quiet
  | some _ =>
    exact .bind (moves (tracePool_quiet _)) fun _ => .bind (moves group_quiet) fun body =>
      lowerFunction_moves name id body

theorem namedFunction_moves (location : SourceLocation) (name : Option Text) :
    Keeps moving (namedFunction location name) := by
  cases name with
  | none => exact moves recover_quiet
  | some name => exact defineFunction_moves name location

theorem function_moves (location : SourceLocation) : Keeps moving (function location) :=
  function_eq location ▸ .bind (moves oneIdentifierGroup_quiet) (namedFunction_moves location)

theorem command_moves (name : Text) (location : SourceLocation) :
    Keeps moving (command name location) := by
  by_cases same : name = ascii "function"
  · rw [same]
    exact function_moves location
  · exact moves (command_quiet same)

/-! ## A round -/

variable {limits : CompileLimits} {compiler : Compiler} {name : Text} {location : SourceLocation}

theorem parseCommand_identifier (found : compiler.tokens[compiler.at_]? =
      some { kind := .identifier name, location := location }) :
    parseCommand limits compiler =
      command (fold name) location limits { compiler with at_ := compiler.at_ + 1 } := by
  unfold parseCommand identifier
  rw [bind_run, bind_run]
  dsimp only [Metered.read]
  rw [found]
  rfl

theorem parseCommand_other (other : ∀ name location, compiler.tokens[compiler.at_]? ≠
      some { kind := .identifier name, location := location }) :
    parseCommand limits compiler =
      recover limits (errorHere .unknownCommand "expected BST command" limits compiler).2 := by
  unfold parseCommand identifier
  rw [bind_run, bind_run]
  dsimp only [Metered.read]
  cases found : compiler.tokens[compiler.at_]? with
  | none => rfl
  | some token => ?_
  rcases token with ⟨kind, location⟩
  cases kind with
  | identifier name => exact absurd found (other name location)
  | integer | string | quote | openBrace | closeBrace => rfl

theorem recover_run (limits : CompileLimits) (compiler : Compiler) : recover limits compiler =
      if isOpen compiler.tokens[compiler.at_]? = true then ((), (group limits compiler).2)
      else ((), compiler) := by
  unfold recover
  rw [bind_run]
  exact ite_run _ _ limits compiler

theorem group_forward (opens : isOpen compiler.tokens[compiler.at_]? = true) :
    compiler.at_ < (group limits compiler).2.at_ := by
  cases found : groupAt compiler.tokens compiler.at_ with
  | some grouped =>
    rw [group_some found]
    exact groupAt_behind found
  | none => ?_
  unfold groupAt at found
  rw [if_pos opens] at found
  rw [group_run, if_pos opens, Option.map_eq_none_iff.mp found]
  have forward := (errorHere_quiet .syntax_ "unterminated BST brace group" limits
    { compiler with at_ := compiler.tokens.length }).forward
  exact Nat.lt_of_lt_of_le (isOpen_lt opens) forward

theorem errorHere_stays (kind : DiagnosticKind) (message : String) (limits : CompileLimits)
    (compiler : Compiler) : (errorHere kind message limits compiler).2.at_ = compiler.at_ ∧
      (errorHere kind message limits compiler).2.tokens = compiler.tokens := by
  unfold errorHere
  rw [bind_run]
  unfold error
  by_cases room : compiler.diagnostics.length < limits.diagnostics
  · exact (if_pos room).symm ▸ ⟨rfl, rfl⟩
  · exact (if_neg room).symm ▸ ⟨rfl, rfl⟩

/-- A round takes a token exactly where it starts at a command or a group. -/
theorem parseCommand_advances (limits : CompileLimits) (compiler : Compiler) :
    compiler.at_ < (parseCommand limits compiler).2.at_ ↔
      startsCommand compiler.tokens[compiler.at_]? = true := by
  by_cases named : ∃ name location, compiler.tokens[compiler.at_]? =
      some { kind := .identifier name, location := location }
  · obtain ⟨name, location, found⟩ := named
    rw [parseCommand_identifier found, found]
    refine iff_of_true ?_ rfl
    have forward := (command_moves (fold name) location limits
      { compiler with at_ := compiler.at_ + 1 }).forward
    exact Nat.lt_of_succ_le forward
  rw [parseCommand_other fun name location found => named ⟨name, location, found⟩, recover_run]
  obtain ⟨stays, tokens⟩ := errorHere_stays .unknownCommand "expected BST command" limits compiler
  have opening : startsCommand compiler.tokens[compiler.at_]? =
      isOpen compiler.tokens[compiler.at_]? := by
    cases found : compiler.tokens[compiler.at_]? with
    | none => rfl
    | some token => ?_
    rcases token with ⟨kind, location⟩
    cases kind with
    | identifier name => exact absurd ⟨name, location, found⟩ named
    | integer | string | quote | openBrace | closeBrace => rfl
  rw [opening]
  by_cases opens : isOpen compiler.tokens[compiler.at_]? = true
  · refine iff_of_true ?_ opens
    rw [← stays, ← tokens] at opens
    rw [if_pos opens]
    exact stays ▸ group_forward opens
  refine iff_of_false ?_ opens
  rw [← stays, ← tokens] at opens
  rw [if_neg opens, stays]
  exact Nat.lt_irrefl _

/-! ## The definition of a function -/

theorem clean_start (moves : Moves first next) (clean : next.diagnostics = []) :
    first.diagnostics = [] :=
  List.prefix_nil.mp (clean ▸ moves.reports)

theorem identifiersOf_clean (reporting : 0 < limits.diagnostics) (tokens : List Token)
    (clean : (identifiersOf tokens limits compiler).2.diagnostics = []) :
    ∃ names, identifiersOf tokens limits compiler = (names, compiler) ∧
      tokens.map Token.kind = names.map .identifier := by
  induction tokens with
  | nil => exact ⟨[], rfl, rfl⟩
  | cons token rest smaller => ?_
  rcases token with ⟨kind, location⟩
  cases kind with
  | identifier name =>
    obtain ⟨names, run, kinds⟩ := smaller clean
    refine ⟨name :: names, ?_, congrArg (TokenKind.identifier name :: ·) kinds⟩
    exact congrArg (fun result : List Text × Compiler => (name :: result.1, result.2)) run
  | integer | string | quote | openBrace | closeBrace =>
    have later := moves (identifiersOf_quiet rest) limits
      (error .syntax_ location "declaration group requires identifiers" limits compiler).2
    exact absurd (clean_start later clean) (error_reports reporting compiler)

theorem identifiersGroup_clean (reporting : 0 < limits.diagnostics)
    (clean : (identifiersGroup limits compiler).2.diagnostics = []) :
    ∃ content place names, groupAt compiler.tokens compiler.at_ = some (content, place) ∧
      identifiersGroup limits compiler = (names, { compiler with at_ := place }) ∧
      content.map Token.kind = names.map .identifier := by
  unfold identifiersGroup at clean ⊢
  rw [bind_run] at clean ⊢
  cases found : groupAt compiler.tokens compiler.at_ with
  | none =>
    have later := moves (identifiersOf_quiet (group limits compiler).1) limits
      (group limits compiler).2
    exact absurd (clean_start later clean) ((group_none found).2.2 reporting)
  | some grouped => ?_
  obtain ⟨content, place⟩ := grouped
  rw [group_some found] at clean ⊢
  obtain ⟨names, run, kinds⟩ := identifiersOf_clean reporting content clean
  exact ⟨content, place, names, rfl, run, kinds⟩

theorem oneName_of_kinds {content : List Token}
    (kinds : content.map Token.kind = [.identifier name]) : oneName content = some name := by
  obtain ⟨token, rfl, kind⟩ := List.map_eq_singleton_iff.mp kinds
  rcases token with ⟨_, location⟩
  cases kind
  rfl

/-- A group of one name that is read without a report. -/
theorem oneIdentifierGroup_clean (reporting : 0 < limits.diagnostics)
    (clean : (oneIdentifierGroup limits compiler).2.diagnostics = []) :
    ∃ content place name, groupAt compiler.tokens compiler.at_ = some (content, place) ∧
      oneName content = some name ∧
      oneIdentifierGroup limits compiler = (some name, { compiler with at_ := place }) := by
  unfold oneIdentifierGroup at clean ⊢
  rw [bind_run] at clean ⊢
  rcases run : identifiersGroup limits compiler with ⟨names, after⟩
  rw [run] at clean
  rcases names with _ | ⟨name, _ | ⟨second, names⟩⟩
  · exact absurd clean (errorHere_reports reporting after)
  · have before : (identifiersGroup limits compiler).2.diagnostics = [] := run ▸ clean
    obtain ⟨content, place, names, found, same, kinds⟩ := identifiersGroup_clean reporting before
    rw [run] at same
    obtain ⟨rfl, rfl⟩ := Prod.mk.inj same
    exact ⟨content, place, name, found, oneName_of_kinds kinds, rfl⟩
  · exact absurd clean (errorHere_reports reporting after)

/-- What a round does that defines a function: it inserts its symbol, and lowers its body behind
the functions there are. -/
def Defines (limits : CompileLimits) (name : Text) (body : List Token)
    (first last : Compiler) : Prop :=
  ∃ id start, first.declarations.insert name (.userFunction first.functions.length) =
      some (id, start.declarations) ∧
    start.functions = first.functions ++ [{ name := name, instructions := [] }] ∧
    last = filled first.functions.length name
      (lowerBody body.length body first.functions.length [] limits start)

theorem defineBody_clean (reporting : 0 < limits.diagnostics) {id : Nat}
    (clean : (defineBody name id limits compiler).2.diagnostics = []) :
    ∃ body last start, groupAt compiler.tokens compiler.at_ = some (body, last) ∧
      start.declarations = compiler.declarations ∧
      start.functions = compiler.functions ++ [{ name := name, instructions := [] }] ∧
      (defineBody name id limits compiler).2 =
        filled id name (lowerBody body.length body id [] limits start) := by
  unfold defineBody at clean ⊢
  rw [bind_run, bind_run] at clean ⊢
  let traced := (tracePool (fold name) limits compiler).2
  cases found : groupAt compiler.tokens compiler.at_ with
  | none =>
    have later := lowerFunction_moves name id (group limits traced).1 limits (group limits traced).2
    have missing : groupAt traced.tokens traced.at_ = none := found
    exact absurd (clean_start later clean) ((group_none missing).2.2 reporting)
  | some grouped => ?_
  obtain ⟨body, last⟩ := grouped
  have there : groupAt traced.tokens traced.at_ = some (body, last) := found
  have same := recordWeb2cFunction_untouched body limits { traced with at_ := last }
  rw [show (tracePool (fold name) limits compiler).2 = traced from rfl, group_some there]
  refine ⟨body, last, (pushFunction name limits
    (recordWeb2cFunction body limits { traced with at_ := last }).2).2, rfl, ?_, ?_, rfl⟩
  · exact same.declarations
  · exact congrArg (· ++ [_]) same.functions

variable {kind : SymbolKind}

theorem insertSymbol_none (taken : compiler.declarations.insert name kind = none) :
    insertSymbol name kind limits compiler = (none, compiler) := by
  unfold insertSymbol
  rw [taken]

theorem insertSymbol_some {grown : Nat × Declarations}
    (inserted : compiler.declarations.insert name kind = some grown) :
    insertSymbol name kind limits compiler =
      (some grown.1, { compiler with declarations := grown.2 }) := by
  unfold insertSymbol
  rw [inserted]

section

variable (reporting : 0 < limits.diagnostics)
include reporting

theorem skips_not_clean {kind : DiagnosticKind} {message : String} (compiler : Compiler) :
    ((error kind location message >>= fun _ => skipGroup) limits compiler).2.diagnostics ≠ [] :=
  fun clean => error_reports reporting compiler
    (clean_start (moves skipGroup_quiet limits (error kind location message limits compiler).2)
      clean)

theorem defineFunction_clean
    (clean : (defineFunction name location limits compiler).2.diagnostics = []) :
    ∃ id grown, compiler.declarations.insert name (.userFunction compiler.functions.length) =
        some (id, grown) ∧ defineFunction name location limits compiler =
        defineBody name compiler.functions.length limits { compiler with declarations := grown } := by
  by_cases shadowed : (compiler.declarations.lookup name).isSome = true
  · have run : defineFunction name location limits compiler =
        (error .shadowing location "function shadows an existing BST symbol" >>=
          fun _ => skipGroup) limits compiler :=
      (ite_run _ _ _ _).trans (if_pos shadowed)
    exact absurd (run ▸ clean) (skips_not_clean reporting compiler)
  by_cases full : functionsFull limits compiler = true
  · have run : defineFunction name location limits compiler =
        (error .limit location "BST function limit exceeded" >>= fun _ => skipGroup) limits
          compiler :=
      (ite_run _ _ _ _).trans ((if_neg shadowed).trans (if_pos full))
    exact absurd (run ▸ clean) (skips_not_clean reporting compiler)
  have run : defineFunction name location limits compiler =
      insertFunction name location limits compiler :=
    (ite_run _ _ _ _).trans ((if_neg shadowed).trans (if_neg full))
  rw [run] at clean ⊢
  unfold insertFunction at clean ⊢
  rw [bind_run, bind_run] at clean ⊢
  dsimp only [functionCount, Metered.read] at clean ⊢
  cases inserted : compiler.declarations.insert name (.userFunction compiler.functions.length) with
  | none =>
    rw [insertSymbol_none inserted] at clean
    exact absurd clean (skips_not_clean reporting compiler)
  | some grown =>
    rw [insertSymbol_some inserted]
    exact ⟨grown.1, grown.2, rfl, rfl⟩

/-- What a round does that defines a function without a report. -/
theorem function_clean (clean : (function location limits compiler).2.diagnostics = []) :
    ∃ content place name body last, groupAt compiler.tokens compiler.at_ = some (content, place) ∧
      oneName content = some name ∧ groupAt compiler.tokens place = some (body, last) ∧
      Defines limits name body compiler (function location limits compiler).2 := by
  rw [function_eq] at clean ⊢
  rw [bind_run] at clean ⊢
  have before := clean_start (namedFunction_moves location _ limits _) clean
  obtain ⟨content, place, name, found, one, run⟩ := oneIdentifierGroup_clean reporting before
  rw [run] at clean ⊢
  obtain ⟨id, grown, inserted, same⟩ := defineFunction_clean reporting clean
  have defines : namedFunction location (some name) limits { compiler with at_ := place } = _ := same
  rw [defines] at clean ⊢
  obtain ⟨body, last, start, there, declarations, functions, filled⟩ :=
    defineBody_clean reporting clean
  exact ⟨content, place, name, body, last, found, one, there, id, start, declarations ▸ inserted,
    functions, filled⟩

end

theorem command_function (location : SourceLocation) :
    command (ascii "function") location = function location := by
  unfold command
  rw [if_neg (by decide), if_neg (by decide), if_neg (by decide), if_neg (by decide), if_pos rfl]

/-- A round without a report defines the function it starts with, or none. -/
theorem parseCommand_clean (reporting : 0 < limits.diagnostics)
    (clean : (parseCommand limits compiler).2.diagnostics = []) :
    (definesAt compiler = none ∧ Quiet compiler (parseCommand limits compiler).2) ∨
      ∃ name body, definesAt compiler = some (name, body) ∧
        Defines limits name body compiler (parseCommand limits compiler).2 := by
  by_cases named : ∃ name location, compiler.tokens[compiler.at_]? =
      some { kind := .identifier name, location := location }
  · obtain ⟨name, location, found⟩ := named
    rw [parseCommand_identifier found] at clean ⊢
    unfold definesAt
    rw [found]
    dsimp only
    by_cases defining : fold name = ascii "function"
    · rw [defining, command_function] at clean ⊢
      obtain ⟨content, place, name, body, last, first, one, second, defines⟩ :=
        function_clean reporting clean
      refine .inr ⟨name, body, ?_, defines⟩
      rw [if_pos rfl, show groupAt compiler.tokens (compiler.at_ + 1) = _ from first]
      dsimp only [Option.bind]
      rw [one]
      dsimp only
      rw [second]
      rfl
    refine .inl ⟨if_neg defining, ?_⟩
    have step : Quiet compiler { compiler with at_ := compiler.at_ + 1 } :=
      Quiet.of_same rfl (Nat.le_succ _) rfl rfl rfl
    exact step.trans (command_quiet defining limits _)
  rw [parseCommand_other fun name location found => named ⟨name, location, found⟩] at clean
  have later := moves recover_quiet limits
    (errorHere .unknownCommand "expected BST command" limits compiler).2
  exact absurd (clean_start later clean) (errorHere_reports reporting compiler)

end Umber.Bib.Compile
