import Umber.Bib.StyleReferences

/-! How the commands of a style move through its tokens, and which of them define functions. -/

set_option autoImplicit false

namespace Umber.Bib.Compile

open Metered

def Declared (declarations : Declarations) : Prop :=
  ∀ entry ∈ declarations.names, entry.2 < declarations.symbols.length

structure Quiet (first next : Compiler) : Prop where
  tokens : next.tokens = first.tokens
  forward : first.at_ ≤ next.at_
  reports : first.diagnostics <+: next.diagnostics
  functions : next.functions = first.functions
  named : ∀ id, Named next.declarations id ↔ Named first.declarations id
  declared : Declared first.declarations → Declared next.declarations

theorem Quiet.refl (compiler : Compiler) : Quiet compiler compiler :=
  ⟨rfl, Nat.le_refl _, List.prefix_refl _, rfl, fun _ => Iff.rfl, id⟩

theorem Quiet.trans {first next last : Compiler} (left : Quiet first next)
    (right : Quiet next last) : Quiet first last :=
  ⟨right.tokens.trans left.tokens, Nat.le_trans left.forward right.forward,
    left.reports.trans right.reports, right.functions.trans left.functions,
    fun id => (right.named id).trans (left.named id), right.declared ∘ left.declared⟩

def quiet : Course Compiler where
  leads := Quiet
  refl := Quiet.refl
  trans := Quiet.trans

theorem Quiet.of_same {first next : Compiler} (tokens : next.tokens = first.tokens)
    (forward : first.at_ ≤ next.at_) (reports : next.diagnostics = first.diagnostics)
    (functions : next.functions = first.functions)
    (declarations : next.declarations = first.declarations) : Quiet first next := by
  refine ⟨tokens, forward, ?_, functions, fun id => ?_, fun declared => ?_⟩
  · exact reports ▸ List.prefix_refl _
  · rw [declarations]
  rw [declarations]
  exact declared

theorem error_quiet (kind : DiagnosticKind) (location : SourceLocation) (message : String) :
    Keeps quiet (error kind location message) := by
  intro limits compiler
  unfold error
  by_cases room : compiler.diagnostics.length < limits.diagnostics
  · rw [if_pos room]
    exact ⟨rfl, Nat.le_refl _, List.prefix_append _ _, rfl, fun _ => Iff.rfl, id⟩
  rw [if_neg room]
  exact Quiet.refl compiler

theorem errorHere_quiet (kind : DiagnosticKind) (message : String) :
    Keeps quiet (errorHere kind message) :=
  .bind (.read _) fun _ => error_quiet _ _ _

variable {location : SourceLocation} {message : String} {limits : CompileLimits}

theorem error_reports {kind : DiagnosticKind} (reporting : 0 < limits.diagnostics)
    (compiler : Compiler) : (error kind location message limits compiler).2.diagnostics ≠ [] := by
  unfold error
  by_cases room : compiler.diagnostics.length < limits.diagnostics
  · rw [if_pos room]
    exact List.append_ne_nil_of_right_ne_nil _ (List.cons_ne_nil _ _)
  rw [if_neg room]
  intro clean
  rw [show compiler.diagnostics = [] from clean] at room
  exact room reporting

theorem errorHere_reports {kind : DiagnosticKind} (reporting : 0 < limits.diagnostics)
    (compiler : Compiler) : (errorHere kind message limits compiler).2.diagnostics ≠ [] :=
  error_reports reporting compiler

/-! ## Groups -/

theorem group_run (limits : CompileLimits) (compiler : Compiler) :
    group limits compiler =
      if isOpen compiler.tokens[compiler.at_]? = true then
        ((closeOf 1 (compiler.tokens.drop (compiler.at_ + 1))).map fun count =>
          ((compiler.tokens.drop (compiler.at_ + 1)).take count,
            { compiler with at_ := compiler.at_ + 1 + count + 1 })).getD
          ([], (errorHere .syntax_ "unterminated BST brace group" limits
            { compiler with at_ := compiler.tokens.length }).2)
      else ([], (errorHere .syntax_ "expected BST brace group" limits compiler).2) := by
  unfold group
  rw [bind_run]
  refine (ite_run _ _ limits compiler).trans (if_congr Iff.rfl ?_ rfl)
  dsimp only [Metered.read, id]
  cases closeOf 1 (compiler.tokens.drop (compiler.at_ + 1)) with
  | none => rfl
  | some count => rfl

variable {compiler : Compiler} {content : List Token} {place : Nat}

theorem group_some (found : groupAt compiler.tokens compiler.at_ = some (content, place)) :
    group limits compiler = (content, { compiler with at_ := place }) := by
  unfold groupAt at found
  rw [group_run]
  by_cases opens : isOpen compiler.tokens[compiler.at_]? = true
  · rw [if_pos opens] at found ⊢
    obtain ⟨count, closes, same⟩ := Option.map_eq_some_iff.mp found
    cases same
    rw [closes]
    rfl
  rw [if_neg opens] at found
  cases found

theorem isOpen_lt (opens : isOpen compiler.tokens[compiler.at_]? = true) :
    compiler.at_ < compiler.tokens.length := by
  cases found : compiler.tokens[compiler.at_]? with
  | none =>
    rw [found] at opens
    cases opens
  | some token => exact (List.getElem?_eq_some_iff.mp found).1

theorem group_none (missing : groupAt compiler.tokens compiler.at_ = none) :
    (group limits compiler).1 = [] ∧ Quiet compiler (group limits compiler).2 ∧
      (0 < limits.diagnostics → (group limits compiler).2.diagnostics ≠ []) := by
  unfold groupAt at missing
  rw [group_run]
  by_cases opens : isOpen compiler.tokens[compiler.at_]? = true
  · rw [if_pos opens] at missing ⊢
    rw [Option.map_eq_none_iff.mp missing]
    refine ⟨rfl, ?_, fun reporting => errorHere_reports reporting _⟩
    refine Quiet.trans ?_ (errorHere_quiet _ _ limits _)
    exact Quiet.of_same rfl (Nat.le_of_lt (isOpen_lt opens)) rfl rfl rfl
  rw [if_neg opens]
  exact ⟨rfl, errorHere_quiet _ _ limits compiler, fun reporting => errorHere_reports reporting _⟩

theorem groupAt_behind {tokens : List Token} {first : Nat}
    (found : groupAt tokens first = some (content, place)) : first < place := by
  unfold groupAt at found
  by_cases opens : isOpen tokens[first]? = true
  · rw [if_pos opens] at found
    obtain ⟨count, _, same⟩ := Option.map_eq_some_iff.mp found
    cases same
    omega
  rw [if_neg opens] at found
  cases found

theorem group_quiet : Keeps quiet group := by
  intro limits compiler
  cases found : groupAt compiler.tokens compiler.at_ with
  | none => exact (group_none found).2.1
  | some grouped =>
    rw [group_some found]
    exact Quiet.of_same rfl (Nat.le_of_lt (groupAt_behind found)) rfl rfl rfl

theorem skipGroup_quiet : Keeps quiet skipGroup :=
  .bind group_quiet fun _ => .pure _

theorem identifiersOf_quiet (tokens : List Token) : Keeps quiet (identifiersOf tokens) := by
  induction tokens with
  | nil => exact .pure _
  | cons token rest smaller => ?_
  rw [identifiersOf]
  cases token.kind with
  | identifier name => exact .bind smaller fun _ => .pure _
  | integer | string | quote | openBrace | closeBrace =>
    exact .bind (error_quiet _ _ _) fun _ => smaller

theorem identifiersGroup_quiet : Keeps quiet identifiersGroup :=
  .bind group_quiet identifiersOf_quiet

theorem oneIdentifierGroup_quiet : Keeps quiet oneIdentifierGroup := by
  refine .bind identifiersGroup_quiet fun names => ?_
  rcases names with _ | ⟨name, _ | ⟨other, names⟩⟩
  · exact .bind (errorHere_quiet _ _) fun _ => .pure _
  · exact .pure _
  · exact .bind (errorHere_quiet _ _) fun _ => .pure _

theorem oneStringGroup_quiet : Keeps quiet oneStringGroup := by
  refine .bind group_quiet fun tokens => ?_
  cases oneString tokens with
  | some value => exact .pure _
  | none => exact .bind (errorHere_quiet _ _) fun _ => .pure _

theorem recover_quiet : Keeps quiet recover :=
  .bind (.read _) fun _ => .ite skipGroup_quiet (.pure _)

/-! ## Declarations -/

theorem modify_quiet {change : Compiler → Compiler}
    (same : ∀ compiler, (change compiler).tokens = compiler.tokens ∧
      compiler.at_ ≤ (change compiler).at_ ∧ (change compiler).diagnostics = compiler.diagnostics ∧
      (change compiler).functions = compiler.functions ∧
      (change compiler).declarations = compiler.declarations) :
    Keeps quiet (modify change : Compile Unit) := by
  refine .modify fun compiler => ?_
  obtain ⟨tokens, forward, reports, functions, declarations⟩ := same compiler
  exact Quiet.of_same tokens forward reports functions declarations

theorem tracePool_quiet (value : Text) : Keeps quiet (tracePool value) :=
  modify_quiet fun _ => ⟨rfl, Nat.le_refl _, rfl, rfl, rfl⟩

theorem addString_quiet (value : Text) : Keeps quiet (addString value) := fun _ _ =>
  ⟨rfl, Nat.le_refl _, List.prefix_refl _, rfl, fun _ => Iff.rfl, id⟩

variable {declarations grown : Declarations} {name : Text} {kind : SymbolKind} {id : Nat}

section

variable (inserted : declarations.insert name kind = some (id, grown))
include inserted

theorem insert_some :
    declarations.lookup name = none ∧ id = declarations.symbols.length ∧
      grown.names = declarations.names ++ [(fold name, declarations.symbols.length)] ∧
      grown.symbols = declarations.symbols ++ [{ name := fold name, kind := kind }] := by
  unfold Declarations.insert at inserted
  cases taken : declarations.lookup name with
  | some other =>
    rw [taken] at inserted
    cases inserted
  | none => ?_
  rw [taken] at inserted
  cases inserted
  exact ⟨rfl, rfl, rfl, rfl⟩

theorem insert_named (function : Nat) :
     Named grown function ↔ Named declarations function ∨ kind = .userFunction function := by
  obtain ⟨_, _, _, symbols⟩ := insert_some inserted
  unfold Named
  rw [symbols]
  constructor
  · rintro ⟨symbol, member, same⟩
    rcases List.mem_append.mp member with earlier | here
    · exact .inl ⟨symbol, earlier, same⟩
    rw [List.mem_singleton.mp here] at same
    exact .inr same
  rintro (⟨symbol, earlier, same⟩ | same)
  · exact ⟨symbol, List.mem_append_left _ earlier, same⟩
  · exact ⟨_, List.mem_append_right _ List.mem_cons_self, same⟩

theorem insert_declared (declared : Declared declarations) : Declared grown := by
  obtain ⟨_, _, names, symbols⟩ := insert_some inserted
  unfold Declared
  rw [names, symbols, List.length_append]
  intro entry member
  rcases List.mem_append.mp member with earlier | here
  · exact Nat.lt_add_right 1 (declared entry earlier)
  rw [List.mem_singleton.mp here]
  exact Nat.lt_succ_self _

end

theorem insertSymbol_quiet (other : ∀ id, kind ≠ .userFunction id) :
    Keeps quiet (insertSymbol name kind) := by
  intro limits compiler
  unfold insertSymbol
  cases inserted : compiler.declarations.insert name kind with
  | none => exact Quiet.refl compiler
  | some grown => ?_
  refine ⟨rfl, Nat.le_refl _, List.prefix_refl _, rfl, fun id => ?_, insert_declared inserted⟩
  rw [insert_named inserted]
  exact or_iff_left (other id)

def ListsOnly (add : Declarations → Nat → Declarations) : Prop :=
  ∀ declarations id, (add declarations id).symbols = declarations.symbols ∧
    (add declarations id).names = declarations.names

variable {add : Declarations → Nat → Declarations}

theorem declare_quiet {kind : Declarations → SymbolKind}
    (other : ∀ declarations id, kind declarations ≠ .userFunction id) (lists : ListsOnly add) :
    Keeps quiet (declare name kind location add) := by
  refine .branch (error_quiet _ _ _) (.bind (.read _) fun declarations => ?_)
  refine .bind (insertSymbol_quiet (other declarations)) fun inserted => ?_
  cases inserted with
  | none => exact error_quiet _ _ _
  | some id => ?_
  refine .bind (tracePool_quiet _) fun _ => .modify fun compiler => ?_
  obtain ⟨symbols, names⟩ := lists compiler.declarations id
  refine ⟨rfl, Nat.le_refl _, List.prefix_refl _, rfl, fun function => ?_, fun declared => ?_⟩
  · unfold Named
    dsimp only
    rw [symbols]
  unfold Declared
  dsimp only
  rw [symbols, names]
  exact declared

theorem declareAll_quiet {kind : Declarations → SymbolKind}
    (other : ∀ declarations id, kind declarations ≠ .userFunction id) (lists : ListsOnly add)
    (names : List Text) : Keeps quiet (declareAll kind location add names) := by
  induction names with
  | nil => exact .pure _
  | cons name names smaller => exact .bind (declare_quiet other lists) fun _ => smaller

/-! ## Commands other than FUNCTION -/

theorem entry_quiet (location : SourceLocation) : Keeps quiet (entry location) := by
  refine .bind (.read _) fun seen => .ite (error_quiet _ _ _) ?_
  refine .bind (modify_quiet fun _ => ⟨rfl, Nat.le_refl _, rfl, rfl, rfl⟩) fun _ => ?_
  refine .bind identifiersGroup_quiet fun fields => ?_
  refine .bind identifiersGroup_quiet fun integers => ?_
  refine .bind identifiersGroup_quiet fun strings => ?_
  refine .bind (declareAll_quiet ?_ ?_ _) fun _ => .bind (declareAll_quiet ?_ ?_ _) fun _ =>
    declareAll_quiet ?_ ?_ _
  all_goals first
    | exact fun _ _ => ⟨rfl, rfl⟩
    | exact fun _ _ same => by cases same

theorem variables_quiet (location : SourceLocation) (integer : Bool) :
    Keeps quiet (variables_ location integer) := by
  refine .bind identifiersGroup_quiet fun names => .ite ?_ ?_
  all_goals
    refine declareAll_quiet ?_ ?_ _
    · exact fun _ _ same => by cases same
    · exact fun _ _ => ⟨rfl, rfl⟩

theorem macroCommand_quiet (location : SourceLocation) : Keeps quiet (macroCommand location) := by
  refine .bind (.read _) fun seen => .ite (error_quiet _ _ _) ?_
  refine .bind oneIdentifierGroup_quiet fun name => ?_
  cases name with
  | none => exact recover_quiet
  | some name => ?_
  refine .bind oneStringGroup_quiet fun value => ?_
  cases value with
  | none => exact recover_quiet
  | some value =>
    refine .bind (tracePool_quiet _) fun _ => .bind (addString_quiet _) fun id => ?_
    exact declare_quiet (fun _ _ same => by cases same) fun _ _ => ⟨rfl, rfl⟩

theorem pushCommand_quiet (command : CompiledCommand) (location : SourceLocation) :
    Keeps quiet (pushCommand command location) :=
  modify_quiet fun _ => ⟨rfl, Nat.le_refl _, rfl, rfl, rfl⟩

theorem read_quiet (location : SourceLocation) : Keeps quiet (read_ location) := by
  refine .bind (.read _) fun compiler => .ite (error_quiet _ _ _) (.ite (error_quiet _ _ _) ?_)
  exact .bind (modify_quiet fun _ => ⟨rfl, Nat.le_refl _, rfl, rfl, rfl⟩) fun _ =>
    pushCommand_quiet _ _

theorem callable_quiet (name : Text) (location : SourceLocation) :
    Keeps quiet (callable name location) := by
  refine .bind (.read _) fun symbol => ?_
  rcases symbol with _ | ⟨id, kind⟩
  · exact .bind (error_quiet _ _ _) fun _ => .pure _
  cases kind with
  | userFunction | builtin => exact .pure _
  | _ => exact .bind (error_quiet _ _ _) fun _ => .pure _

theorem invoke_quiet (location : SourceLocation) (command : Callable → CompiledCommand) :
    Keeps quiet (invoke location command) := by
  refine .bind (.read _) fun seen => .ite (error_quiet _ _ _) ?_
  refine .bind oneIdentifierGroup_quiet fun name => ?_
  cases name with
  | none => exact recover_quiet
  | some name => ?_
  refine .bind (callable_quiet _ _) fun called => ?_
  cases called with
  | none => exact .pure _
  | some called => exact pushCommand_quiet _ _

theorem sort_quiet (location : SourceLocation) : Keeps quiet (sort location) :=
  .bind (.read _) fun _ => .ite (error_quiet _ _ _) (pushCommand_quiet _ _)

/-- A command that is not FUNCTION defines no function. -/
theorem command_quiet (other : name ≠ ascii "function") : Keeps quiet (command name location) := by
  unfold command
  refine .ite (entry_quiet _) (.ite (variables_quiet _ _) (.ite (variables_quiet _ _)
    (.ite (macroCommand_quiet _) ?_)))
  rw [if_neg other]
  refine .ite (read_quiet _) (.ite (invoke_quiet _ _) (.ite (invoke_quiet _ _)
    (.ite (invoke_quiet _ _) (.ite (sort_quiet _) ?_))))
  exact .bind (error_quiet _ _ _) fun _ => recover_quiet

end Umber.Bib.Compile
