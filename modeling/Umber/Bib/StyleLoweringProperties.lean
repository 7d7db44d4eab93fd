import Umber.Bib.StyleCommandProperties

/-! What the lowered body of a function refers to. -/

set_option autoImplicit false

namespace Umber.Bib.Compile

open Metered

structure Lowers (first next : Compiler) : Prop where
  tokens : next.tokens = first.tokens
  forward : first.at_ ≤ next.at_
  reports : first.diagnostics <+: next.diagnostics
  symbols : next.declarations.symbols = first.declarations.symbols
  names : next.declarations.names = first.declarations.names
  longer : first.functions.length ≤ next.functions.length
  kept : ∀ id < first.functions.length, next.functions[id]? = first.functions[id]?

theorem Lowers.refl (compiler : Compiler) : Lowers compiler compiler :=
  ⟨rfl, Nat.le_refl _, List.prefix_refl _, rfl, rfl, Nat.le_refl _, fun _ _ => rfl⟩

theorem Lowers.trans {first next last : Compiler} (left : Lowers first next)
    (right : Lowers next last) : Lowers first last :=
  ⟨right.tokens.trans left.tokens, Nat.le_trans left.forward right.forward,
    left.reports.trans right.reports, right.symbols.trans left.symbols,
    right.names.trans left.names, Nat.le_trans left.longer right.longer,
    fun id old =>
      (right.kept id (Nat.lt_of_lt_of_le old left.longer)).trans (left.kept id old)⟩

def lowering : Course Compiler where
  leads := Lowers
  refl := Lowers.refl
  trans := Lowers.trans

theorem error_lowers (kind : DiagnosticKind) (location : SourceLocation) (message : String) :
    Keeps lowering (error kind location message) := by
  intro limits compiler
  unfold error
  by_cases room : compiler.diagnostics.length < limits.diagnostics
  · rw [if_pos room]
    exact ⟨rfl, Nat.le_refl _, List.prefix_append _ _, rfl, rfl, Nat.le_refl _, fun _ _ => rfl⟩
  rw [if_neg room]
  exact Lowers.refl compiler

theorem tracePool_lowers (value : Text) : Keeps lowering (tracePool value) :=
  .modify fun _ =>
    ⟨rfl, Nat.le_refl _, List.prefix_refl _, rfl, rfl, Nat.le_refl _, fun _ _ => rfl⟩

theorem addString_lowers (value : Text) : Keeps lowering (addString value) := fun _ _ =>
  ⟨rfl, Nat.le_refl _, List.prefix_refl _, rfl, rfl, Nat.le_refl _, fun _ _ => rfl⟩

theorem chargeWork_lowers : Keeps lowering chargeWork :=
  .modify fun _ =>
    ⟨rfl, Nat.le_refl _, List.prefix_refl _, rfl, rfl, Nat.le_refl _, fun _ _ => rfl⟩

theorem lowerQuoted_lowers (name : Text) (location : SourceLocation) :
    Keeps lowering (lowerQuoted name location) := by
  refine .bind (.read _) fun symbol => ?_
  rcases symbol with _ | ⟨id, kind⟩
  · exact .bind (error_lowers _ _ _) fun _ => .pure _
  · exact .pure _

theorem lowerIdentifier_lowers (name : Text) (location : SourceLocation) (current : Nat) :
    Keeps lowering (lowerIdentifier name location current) := by
  refine .bind (.read _) fun found => ?_
  cases found with
  | none => exact .bind (error_lowers _ _ _) fun _ => .pure _
  | some id => ?_
  refine .bind (.read _) fun symbol => ?_
  cases symbol.map Symbol.kind with
  | none => exact .pure _
  | some kind => ?_
  cases kind with
  | userFunction function =>
    exact .ite (.bind (error_lowers _ _ _) fun _ => .pure _) (.pure _)
  | _ => exact .pure _

/-! ## Anonymous functions -/

def opened (compiler : Compiler) : Compiler :=
  { compiler with
    poolTrace := compiler.poolTrace ++ [0x27 :: decimal compiler.anonymousPoolIndex]
    anonymousPoolIndex := compiler.anonymousPoolIndex + 1
    functions := compiler.functions ++
      [{ name := anonymousName compiler.functions.length, instructions := [] }] }

def filled (id : Nat) (name : Text) (lowered : List Instruction × Compiler) : Compiler :=
  { lowered.2 with
    functions := lowered.2.functions.set id { name := name, instructions := lowered.1 } }

theorem anonymous_run (lowered : Compile (List Instruction)) (current : Nat)
    (limits : CompileLimits) (compiler : Compiler) :
    anonymous lowered current limits compiler =
      if functionsFull limits compiler = true then
        (current, (error .limit { byte := 0, line := 1, column := 1 }
          "BST function limit exceeded" limits compiler).2)
      else
        (compiler.functions.length,
          filled compiler.functions.length (anonymousName compiler.functions.length)
            (lowered limits (opened compiler))) :=
  rfl

theorem opened_lowers (compiler : Compiler) : Lowers compiler (opened compiler) := by
  refine ⟨rfl, Nat.le_refl _, List.prefix_refl _, rfl, rfl, ?_, fun id old => ?_⟩
  · exact (List.length_append ▸ Nat.le_add_right _ _)
  · exact List.getElem?_append_left old

theorem opened_length (compiler : Compiler) :
    (opened compiler).functions.length = compiler.functions.length + 1 :=
  List.length_append

variable {id : Nat}

theorem filled_other {other : Nat} (name : Text) (lowered : List Instruction × Compiler)
    (differs : id ≠ other) :
    (filled id name lowered).functions[other]? = lowered.2.functions[other]? :=
  List.getElem?_set_ne differs

variable {lowered : List Instruction × Compiler}

theorem filled_same (name : Text) (there : id < lowered.2.functions.length) :
    (filled id name lowered).functions[id]? = some { name := name, instructions := lowered.1 } :=
  List.getElem?_set_self there

theorem filled_length (id : Nat) (name : Text) (lowered : List Instruction × Compiler) :
    (filled id name lowered).functions.length = lowered.2.functions.length :=
  List.length_set

variable {compiler : Compiler}

/-- The body of a new function leaves the functions before it alone. -/
theorem filled_lowers {start : Compiler} (name : Text) (starts : Lowers compiler start)
    (lowers : Lowers start lowered.2) :
    Lowers compiler (filled compiler.functions.length name lowered) := by
  have whole := starts.trans lowers
  refine ⟨whole.tokens, whole.forward, whole.reports, whole.symbols, whole.names, ?_,
    fun id old => ?_⟩
  · rw [filled_length]
    exact whole.longer
  rw [filled_other name lowered (Nat.ne_of_gt old)]
  exact whole.kept id old

theorem anonymous_lowers {lowered : Compile (List Instruction)} (current : Nat)
    (lowers : Keeps lowering lowered) : Keeps lowering (anonymous lowered current) := by
  intro limits compiler
  rw [anonymous_run]
  by_cases full : functionsFull limits compiler = true
  · rw [if_pos full]
    exact error_lowers _ _ _ limits compiler
  rw [if_neg full]
  exact filled_lowers _ (opened_lowers compiler) (lowers limits _)

theorem lowerBody_lowers (fuel : Nat) : ∀ (tokens : List Token) (current : Nat)
    (instructions : List Instruction), Keeps lowering (lowerBody fuel tokens current instructions) := by
  induction fuel with
  | zero => exact fun _ _ _ => .pure _
  | succ fuel smaller => ?_
  intro tokens current instructions
  cases tokens with
  | nil => exact .pure _
  | cons token rest => ?_
  unfold lowerBody
  refine .bind chargeWork_lowers fun _ => ?_
  refine .branch (.bind (error_lowers _ _ _) fun _ => .pure _) ?_
  cases token.kind with
  | integer value => exact .bind (tracePool_lowers _) fun _ => smaller _ _ _
  | string value =>
    exact .bind (tracePool_lowers _) fun _ =>
      .bind (addString_lowers _) fun _ => smaller _ _ _
  | quote =>
    cases rest with
    | nil => exact .bind (error_lowers _ _ _) fun _ => .pure _
    | cons quoted after => ?_
    dsimp only
    cases quoted.kind with
    | identifier name =>
      exact .bind (lowerQuoted_lowers _ _) fun _ => smaller _ _ _
    | integer | string | quote | openBrace | closeBrace =>
      exact .bind (error_lowers _ _ _) fun _ => smaller _ _ _
  | identifier name => exact .bind (lowerIdentifier_lowers _ _ _) fun _ => smaller _ _ _
  | openBrace =>
    dsimp only
    cases closeOf 1 rest with
    | none => exact .bind (error_lowers _ _ _) fun _ => .pure _
    | some count =>
      exact .bind (anonymous_lowers _ (smaller _ _ _)) fun _ => smaller _ _ _
  | closeBrace => exact .bind (error_lowers _ _ _) fun _ => smaller _ _ _

/-! ## Quotes -/

def QuotesHere (name : Text) (token : Token) (rest : List Token) : Prop :=
  token.kind = .quote ∧
    ∃ spelled, rest.head?.map Token.kind = some (.identifier spelled) ∧ fold spelled = fold name

theorem quotes_nil (name : Text) : ¬Quotes name [] := by
  rintro ⟨before, quote, quoted, after, spelled, split, _⟩
  exact List.append_ne_nil_of_right_ne_nil before (List.cons_ne_nil _ _) split.symm

theorem quotes_cons (name : Text) (token : Token) (rest : List Token) :
    Quotes name (token :: rest) ↔ QuotesHere name token rest ∨ Quotes name rest := by
  constructor
  · rintro ⟨before, quote, quoted, after, spelled, split, quotes, spells, same⟩
    cases before with
    | nil =>
      cases split
      exact .inl ⟨quotes, spelled, congrArg some spells, same⟩
    | cons first before =>
      cases split
      exact .inr ⟨before, quote, quoted, after, spelled, rfl, quotes, spells, same⟩
  rintro (⟨quotes, spelled, spells, same⟩ |
    ⟨before, quote, quoted, after, spelled, rfl, quotes, spells, same⟩)
  · cases rest with
    | nil => cases spells
    | cons quoted after =>
      exact ⟨[], token, quoted, after, spelled, rfl, quotes, Option.some.inj spells, same⟩
  · exact ⟨token :: before, quote, quoted, after, spelled, rfl, quotes, spells, same⟩

variable {token : Token}

theorem quotes_other {name : Text} (rest : List Token) (other : token.kind ≠ .quote) :
    Quotes name (token :: rest) ↔ Quotes name rest := by
  rw [quotes_cons]
  exact or_iff_right fun here => other here.1

theorem quotes_quote {name spelled : Text} {quote quoted : Token} (after : List Token)
    (quotes : quote.kind = .quote) (spells : quoted.kind = .identifier spelled) :
    Quotes name (quote :: quoted :: after) ↔ fold spelled = fold name ∨ Quotes name after := by
  rw [quotes_cons, quotes_other after (by simp [spells])]
  refine or_congr_left ⟨?_, fun same => ⟨quotes, spelled, congrArg some spells, same⟩⟩
  rintro ⟨_, spelled', spells', same⟩
  have kinds : quoted.kind = .identifier spelled' := Option.some.inj spells'
  rw [spells] at kinds
  cases kinds
  exact same

theorem quotes_split {name : Text} {brace : Token} (after : List Token)
    (closes : brace.kind = .closeBrace) (before : List Token) :
    Quotes name (before ++ brace :: after) ↔ Quotes name before ∨ Quotes name after := by
  induction before with
  | nil =>
    rw [List.nil_append, quotes_other after (by simp [closes])]
    exact (or_iff_right (quotes_nil name)).symm
  | cons token rest smaller => ?_
  rw [List.cons_append, quotes_cons, quotes_cons, smaller, ← or_assoc]
  refine or_congr_left (or_congr_left ?_)
  cases rest with
  | nil => simp [QuotesHere, closes]
  | cons second rest => exact Iff.rfl

theorem closeOf_splits (tokens : List Token) : ∀ {depth count : Nat},
    closeOf depth tokens = some count → ∃ brace, brace.kind = .closeBrace ∧
        tokens = tokens.take count ++ brace :: tokens.drop (count + 1) := by
  induction tokens with
  | nil =>
    intro depth count closes
    cases closes
  | cons token rest smaller => ?_
  intro depth count closes
  have deeper : ∀ {depth}, (closeOf depth rest).map (· + 1) = some count →
      ∃ brace, brace.kind = .closeBrace ∧
        token :: rest = (token :: rest).take count ++ brace :: (token :: rest).drop (count + 1) := by
    intro depth found
    obtain ⟨inner, inside, rfl⟩ := Option.map_eq_some_iff.mp found
    obtain ⟨brace, kind, split⟩ := smaller inside
    exact ⟨brace, kind, congrArg (token :: ·) split⟩
  unfold closeOf at closes
  cases kind : token.kind with
  | closeBrace =>
    rw [kind] at closes
    dsimp only at closes
    by_cases last : depth - 1 = 0
    · rw [if_pos last] at closes
      cases closes
      exact ⟨token, kind, rfl⟩
    rw [if_neg last] at closes
    exact deeper closes
  | openBrace | integer | string | identifier | quote =>
    rw [kind] at closes
    exact deeper closes

/-! ## What a lowered body refers to -/

theorem references_append (first second : List Instruction) :
    references (first ++ second) = references first ++ references second :=
  List.filterMap_append

def symbolOf (declarations : Declarations) (name : Text) : Option Symbol :=
  (declarations.lookup name).bind fun id => declarations.symbols[id]?

def Spells (declarations : Declarations) (name : Text) (function : Nat) : Prop :=
  ∀ spelled symbol, symbolOf declarations spelled = some symbol →
    (symbol.kind = .userFunction function ↔ fold spelled = fold name)

theorem symbolOf_named {declarations : Declarations} {name : Text} {symbol : Symbol}
    (found : symbolOf declarations name = some symbol) (kind : symbol.kind = .userFunction id) :
    Named declarations id := by
  obtain ⟨place, _, there⟩ := Option.bind_eq_some_iff.mp found
  exact ⟨symbol, List.mem_of_getElem? there, kind⟩

variable {limits : CompileLimits}

theorem lowerQuoted_clean {name : Text} {location : SourceLocation}
    (reporting : 0 < limits.diagnostics)
    (clean : (lowerQuoted name location limits compiler).2.diagnostics = []) :
    ∃ id symbol, symbolOf compiler.declarations name = some symbol ∧
      lowerQuoted name location limits compiler =
        ([.pushCallable (quotedCallable id symbol.kind)], compiler) := by
  unfold lowerQuoted at clean ⊢
  rw [bind_run] at clean ⊢
  dsimp only [symbolKind, Metered.read] at clean ⊢
  cases found : compiler.declarations.lookup name with
  | none =>
    rw [found] at clean
    exact absurd clean (error_reports reporting compiler)
  | some id => ?_
  rw [found] at clean
  dsimp only at clean ⊢
  cases there : compiler.declarations.symbols[id]? with
  | none =>
    rw [there] at clean
    exact absurd clean (error_reports reporting compiler)
  | some symbol => ?_
  refine ⟨id, symbol, ?_, rfl⟩
  unfold symbolOf
  rw [found]
  exact there

theorem lowerIdentifier_clean {name : Text} {location : SourceLocation} {current : Nat}
    (reporting : 0 < limits.diagnostics)
    (clean : (lowerIdentifier name location current limits compiler).2.diagnostics = []) :
    (lowerIdentifier name location current limits compiler).2 = compiler ∧
      ∀ id ∈ references (lowerIdentifier name location current limits compiler).1,
        Named compiler.declarations id ∧ id ≠ current := by
  have empty : ∀ id ∈ references [], Named compiler.declarations id ∧ id ≠ current :=
    fun _ member => absurd member List.not_mem_nil
  unfold lowerIdentifier at clean ⊢
  rw [bind_run] at clean ⊢
  dsimp only [Metered.read] at clean ⊢
  cases found : compiler.declarations.lookup name with
  | none =>
    rw [found] at clean
    exact absurd clean (error_reports reporting compiler)
  | some place => ?_
  rw [found] at clean
  dsimp only at clean ⊢
  rw [bind_run] at clean ⊢
  dsimp only [Metered.read] at clean ⊢
  cases there : compiler.declarations.symbols[place]? with
  | none => exact ⟨rfl, empty⟩
  | some symbol => ?_
  rw [there] at clean
  dsimp only [Option.map] at clean ⊢
  cases kind : symbol.kind with
  | userFunction function =>
    rw [kind] at clean
    dsimp only at clean ⊢
    by_cases own : function = current
    · rw [if_pos own] at clean
      exact absurd clean (error_reports reporting compiler)
    rw [if_neg own]
    refine ⟨rfl, fun id member => ?_⟩
    rw [List.mem_singleton.mp member]
    exact ⟨⟨symbol, List.mem_of_getElem? there, kind⟩, own⟩
  | _ => exact ⟨rfl, empty⟩

/-- What the body of a function refers to that was lowered behind other instructions, and what
the anonymous functions in it refer to. -/
structure Lowered (name : Text) (current : Nat) (tokens : List Token)
    (before : List Instruction) (first : Compiler) (result : List Instruction × Compiler) :
    Prop where
  inner : ∀ id ∈ references result.1, id ∈ references before ∨ Named first.declarations id ∨
    (first.functions.length ≤ id ∧ id < result.2.functions.length)
  nested : ∀ body function, first.functions.length ≤ body →
    result.2.functions[body]? = some function → ∀ id ∈ references function.instructions,
      Named first.declarations id ∨ (body < id ∧ id < result.2.functions.length)
  quoted : (current ∈ references result.1 ∨ ∃ body function, first.functions.length ≤ body ∧
      result.2.functions[body]? = some function ∧ current ∈ references function.instructions) ↔
    current ∈ references before ∨ Quotes name tokens

section

variable {name : Text} {current : Nat} {tokens rest : List Token}
  {before emitted : List Instruction} {first next : Compiler}
  {result : List Instruction × Compiler}

theorem Lowered.nil (first : Compiler) : Lowered name current [] before first (before, first) := by
  have absent : ∀ {body function}, first.functions.length ≤ body →
      first.functions[body]? = some function → False := by
    intro body function beyond there
    rw [List.getElem?_eq_none beyond] at there
    cases there
  refine ⟨fun id member => .inl member, fun body function beyond there => ?_, ?_⟩
  · exact (absent beyond there).elim
  constructor
  · rintro (member | ⟨body, function, beyond, there, _⟩)
    · exact .inl member
    · exact (absent beyond there).elim
  rintro (member | quotes)
  · exact .inl member
  · exact absurd quotes (quotes_nil name)

/-- A step that emits instructions without a new function. -/
theorem Lowered.emit (later : Lowered name current rest (before ++ emitted) next result)
    (functions : next.functions = first.functions)
    (symbols : next.declarations.symbols = first.declarations.symbols)
    (named : ∀ id ∈ references emitted, Named first.declarations id)
    (quotes : Quotes name tokens ↔ current ∈ references emitted ∨ Quotes name rest) :
    Lowered name current tokens before first result := by
  have same : ∀ id, Named next.declarations id ↔ Named first.declarations id := by
    intro id
    unfold Named
    rw [symbols]
  refine ⟨fun id member => ?_, fun body function beyond there id member => ?_, ?_⟩
  · rcases later.inner id member with earlier | old | fresh
    · rw [references_append] at earlier
      rcases List.mem_append.mp earlier with earlier | here
      · exact .inl earlier
      · exact .inr (.inl (named id here))
    · exact .inr (.inl ((same id).mp old))
    · exact .inr (.inr (functions ▸ fresh))
  · rw [← same]
    exact later.nested body function (functions ▸ beyond) there id member
  · rw [quotes, ← or_assoc, ← List.mem_append, ← references_append, ← later.quoted, functions]

theorem Lowered.nest {inside : List Token} {lowered : List Instruction × Compiler}
    {anonymousName : Text} (old : current < first.functions.length)
    (body : Lowered name current inside [] (opened first) lowered)
    (lowers : Lowers (opened first) lowered.2)
    (quotes : Quotes name tokens ↔ Quotes name inside ∨ Quotes name rest)
    (later : Lowered name current rest
      (before ++ [.pushCallable (.function first.functions.length)])
      (filled first.functions.length anonymousName lowered) result)
    (keeps : Lowers (filled first.functions.length anonymousName lowered) result.2) :
    Lowered name current tokens before first result := by
  have length := filled_length first.functions.length anonymousName lowered
  have longer := lowers.longer
  have longest := keeps.longer
  rw [opened_length] at longer
  rw [length] at longest
  have symbols : (filled first.functions.length anonymousName lowered).declarations.symbols =
      first.declarations.symbols := lowers.symbols
  have same : ∀ id, Named (filled first.functions.length anonymousName lowered).declarations id ↔
      Named first.declarations id := by
    intro id
    unfold Named
    rw [symbols]
  have new : result.2.functions[first.functions.length]? =
      some { name := anonymousName, instructions := lowered.1 } :=
    (keeps.kept _ (length ▸ longer)).trans (filled_same _ longer)
  have inherits : ∀ place, first.functions.length < place → place < lowered.2.functions.length →
      result.2.functions[place]? = lowered.2.functions[place]? := fun place above below =>
    (keeps.kept place (length ▸ below)).trans (filled_other _ _ (Nat.ne_of_lt above))
  have pushed : references [.pushCallable (.function first.functions.length)] =
      [first.functions.length] := rfl
  refine ⟨fun id member => ?_, fun place function beyond there id member => ?_, ?_⟩
  · rcases later.inner id member with earlier | named | fresh
    · rw [references_append, pushed] at earlier
      rcases List.mem_append.mp earlier with earlier | here
      · exact .inl earlier
      rw [List.mem_singleton.mp here]
      exact .inr (.inr ⟨Nat.le_refl _, Nat.lt_of_lt_of_le longer longest⟩)
    · exact .inr (.inl ((same id).mp named))
    rw [length] at fresh
    exact .inr (.inr ⟨by omega, fresh.2⟩)
  · rcases Nat.lt_or_ge place lowered.2.functions.length with within | behind
    · rcases Nat.eq_or_lt_of_le beyond with rfl | above
      · rw [new] at there
        cases there
        rcases body.inner id member with none | named | fresh
        · exact absurd none List.not_mem_nil
        · exact .inl named
        rw [opened_length] at fresh
        exact .inr ⟨fresh.1, by omega⟩
      rw [inherits place above within] at there
      have above' : (opened first).functions.length ≤ place := opened_length first ▸ above
      rcases body.nested place function above' there id member with named | fresh
      · exact .inl named
      · exact .inr ⟨fresh.1, by omega⟩
    rw [← same]
    exact later.nested place function (length ▸ behind) there id member
  have places : (∃ place function, first.functions.length ≤ place ∧
        result.2.functions[place]? = some function ∧
        current ∈ references function.instructions) ↔
      (current ∈ references lowered.1 ∨ ∃ place function,
        (opened first).functions.length ≤ place ∧ lowered.2.functions[place]? = some function ∧
        current ∈ references function.instructions) ∨
      ∃ place function,
        (filled first.functions.length anonymousName lowered).functions.length ≤ place ∧
        result.2.functions[place]? = some function ∧
        current ∈ references function.instructions := by
    rw [length, opened_length]
    constructor
    · rintro ⟨place, function, beyond, there, member⟩
      rcases Nat.lt_or_ge place lowered.2.functions.length with within | behind
      · rcases Nat.eq_or_lt_of_le beyond with rfl | above
        · rw [new] at there
          cases there
          exact .inl (.inl member)
        rw [inherits place above within] at there
        exact .inl (.inr ⟨place, function, above, there, member⟩)
      · exact .inr ⟨place, function, behind, there, member⟩
    rintro ((member | ⟨place, function, above, there, member⟩) |
      ⟨place, function, behind, there, member⟩)
    · exact ⟨_, _, Nat.le_refl _, new, member⟩
    · have within := (List.getElem?_eq_some_iff.mp there).1
      rw [← inherits place above within] at there
      exact ⟨place, function, Nat.le_of_lt above, there, member⟩
    · exact ⟨place, function, by omega, there, member⟩
  have differs : current ∈ references (before ++
      [.pushCallable (.function first.functions.length)]) ↔ current ∈ references before := by
    rw [references_append, pushed, List.mem_append, List.mem_singleton]
    exact or_iff_left (Nat.ne_of_lt old)
  have rest := later.quoted
  rw [differs] at rest
  have inside : _ ↔ Quotes name _ :=
    body.quoted.trans (or_iff_right List.not_mem_nil)
  rw [places, inside, quotes, or_left_comm, rest, or_left_comm]

end

theorem clean_before {first next : Compiler} (lowers : Lowers first next)
    (clean : next.diagnostics = []) : first.diagnostics = [] :=
  List.prefix_nil.mp (clean ▸ lowers.reports)

theorem Spells.same {first next : Compiler} {name : Text} {function : Nat}
    (spells : Spells first.declarations name function) (lowers : Lowers first next) :
    Spells next.declarations name function := by
  intro spelled symbol found
  apply spells spelled symbol
  rw [← found]
  unfold symbolOf Declarations.lookup
  rw [lowers.symbols, lowers.names]

theorem not_clean {kind : DiagnosticKind} {location : SourceLocation} {message : String}
    {last : Compiler} (reporting : 0 < limits.diagnostics)
    (lowers : Lowers (error kind location message limits compiler).2 last) :
    last.diagnostics ≠ [] :=
  fun clean => error_reports reporting compiler (clean_before lowers clean)

theorem quotes_plain {name : Text} {current : Nat} {rest : List Token} {emitted : List Instruction}
    (other : token.kind ≠ .quote) (apart : current ∉ references emitted) :
    Quotes name (token :: rest) ↔ current ∈ references emitted ∨ Quotes name rest :=
  (quotes_other rest other).trans (or_iff_right apart).symm

/-! ## A body that is lowered without a report -/

def Exceeds (limits : CompileLimits) (before : List Instruction) (first : Compiler) : Prop :=
  (decide (limits.work < first.work + 1) || decide (limits.instructions ≤ before.length)) = true

def charged (first : Compiler) : Compiler :=
  { first with work := first.work + 1 }

theorem charged_lowers (first : Compiler) : Lowers first (charged first) :=
  ⟨rfl, Nat.le_refl _, List.prefix_refl _, rfl, rfl, Nat.le_refl _, fun _ _ => rfl⟩

section

variable {fuel current : Nat} {location : SourceLocation} {rest : List Token}
  {before : List Instruction} {limits : CompileLimits} {first : Compiler}

theorem lowerBody_exceeding {token : Token} (exceeds : Exceeds limits before first) :
    lowerBody (fuel + 1) (token :: rest) current before limits first =
      (before, (error .limit token.location "BST instruction or work limit exceeded" limits
        (charged first)).2) :=
  if_pos exceeds

theorem lowerBody_integer {value : Int} (within : ¬Exceeds limits before first) :
    lowerBody (fuel + 1) ({ kind := .integer value, location := location } :: rest) current
        before limits first =
      lowerBody fuel rest current (before ++ [.pushInteger value]) limits
        (tracePool (integerText value) limits (charged first)).2 :=
  if_neg within

theorem lowerBody_string {value : Text} (within : ¬Exceeds limits before first) :
    lowerBody (fuel + 1) ({ kind := .string value, location := location } :: rest) current
        before limits first =
      lowerBody fuel rest current (before ++ [.pushString first.declarations.strings.length])
        limits (addString value limits (tracePool value limits (charged first)).2).2 :=
  if_neg within

variable {quoted : Token} {spelled : Text} (within : ¬Exceeds limits before first)
include within

theorem lowerBody_quote (spells : quoted.kind = .identifier spelled) :
    lowerBody (fuel + 1) ({ kind := .quote, location := location } :: quoted :: rest) current
        before limits first =
      lowerBody fuel rest current
        (before ++ (lowerQuoted spelled quoted.location limits (charged first)).1) limits
        (lowerQuoted spelled quoted.location limits (charged first)).2 := by
  rcases quoted with ⟨kind, place⟩
  cases spells
  exact if_neg within

theorem lowerBody_quote_other (other : ∀ spelled, quoted.kind ≠ .identifier spelled) :
    lowerBody (fuel + 1) ({ kind := .quote, location := location } :: quoted :: rest) current
        before limits first =
      lowerBody fuel rest current before limits
        (error .syntax_ quoted.location "quote requires an identifier" limits
          (charged first)).2 := by
  rcases quoted with ⟨kind, place⟩
  cases kind with
  | identifier spelled => exact absurd rfl (other spelled)
  | integer | string | quote | openBrace | closeBrace => exact if_neg within

theorem lowerBody_quote_nothing :
    lowerBody (fuel + 1) [{ kind := .quote, location := location }] current before limits first =
      (before, (error .syntax_ location "quote requires a symbol" limits (charged first)).2) :=
  if_neg within

theorem lowerBody_identifier :
    lowerBody (fuel + 1) ({ kind := .identifier spelled, location := location } :: rest) current
        before limits first =
      lowerBody fuel rest current
        (before ++ (lowerIdentifier spelled location current limits (charged first)).1) limits
        (lowerIdentifier spelled location current limits (charged first)).2 :=
  if_neg within

theorem lowerBody_unclosed (unclosed : closeOf 1 rest = none) :
    lowerBody (fuel + 1) ({ kind := .openBrace, location := location } :: rest) current before
        limits first =
      (before, (error .syntax_ location "unterminated anonymous function" limits
        (charged first)).2) := by
  refine (if_neg within).trans ?_
  dsimp only
  rw [unclosed]
  rfl

theorem lowerBody_anonymous {count : Nat} (closes : closeOf 1 rest = some count) :
    lowerBody (fuel + 1) ({ kind := .openBrace, location := location } :: rest) current before
        limits first =
      lowerBody fuel (rest.drop (count + 1)) current
        (before ++ [.pushCallable (.function (anonymous
          (lowerBody fuel (rest.take count) current []) current limits (charged first)).1)])
        limits (anonymous (lowerBody fuel (rest.take count) current []) current limits
          (charged first)).2 := by
  refine (if_neg within).trans ?_
  dsimp only
  rw [closes]
  rfl

theorem lowerBody_close :
    lowerBody (fuel + 1) ({ kind := .closeBrace, location := location } :: rest) current before
        limits first =
      lowerBody fuel rest current before limits
        (error .syntax_ location "unexpected close brace in function" limits
          (charged first)).2 :=
  if_neg within

end

theorem Lowered.charge {name : Text} {current : Nat} {tokens : List Token}
    {before : List Instruction} {first : Compiler} {result : List Instruction × Compiler}
    (lowered : Lowered name current tokens before (charged first) result) :
    Lowered name current tokens before first result :=
  ⟨lowered.inner, lowered.nested, lowered.quoted⟩

theorem quoted_function {place : Nat} {kind : SymbolKind} :
    id ∈ references [.pushCallable (quotedCallable place kind)] ↔ kind = .userFunction id := by
  cases kind with
  | userFunction function =>
    rw [SymbolKind.userFunction.injEq]
    exact List.mem_singleton.trans eq_comm
  | _ =>
    refine ⟨fun member => absurd member List.not_mem_nil, fun same => ?_⟩
    cases same

/-- A body that is lowered without a report refers to its own function exactly where it quotes
its name. -/
theorem lowerBody_clean {name : Text} {current : Nat}
    (reporting : 0 < limits.diagnostics) (fuel : Nat) : ∀ (tokens : List Token)
    (before : List Instruction) (first : Compiler), tokens.length ≤ fuel →
      current < first.functions.length → Spells first.declarations name current →
      (lowerBody fuel tokens current before limits first).2.diagnostics = [] →
      Lowered name current tokens before first
        (lowerBody fuel tokens current before limits first) := by
  induction fuel with
  | zero =>
    intro tokens before first enough _ _ _
    rw [List.length_eq_zero_iff.mp (Nat.le_zero.mp enough)]
    exact Lowered.nil first
  | succ fuel smaller => ?_
  intro tokens before first enough old spells clean
  rcases tokens with _ | ⟨token, rest⟩
  · exact Lowered.nil first
  have fewer : rest.length ≤ fuel := Nat.le_of_succ_le_succ enough
  by_cases within : Exceeds limits before first
  · rw [lowerBody_exceeding within] at clean
    exact absurd clean (error_reports reporting _)
  rcases token with ⟨kind, location⟩
  have start := charged_lowers first
  have none : ∀ id ∈ references [], Named first.declarations id :=
    fun _ member => absurd member List.not_mem_nil
  have apart : current ∉ references [] := List.not_mem_nil
  cases kind with
  | integer value =>
    rw [lowerBody_integer within] at clean ⊢
    have step := start.trans (tracePool_lowers (integerText value) limits _)
    have later := smaller rest _ _ fewer (Nat.lt_of_lt_of_le old step.longer)
      (spells.same step) clean
    exact later.emit rfl rfl none (quotes_plain (by simp) apart)
  | string value =>
    rw [lowerBody_string within] at clean ⊢
    have step := (start.trans (tracePool_lowers value limits _)).trans
      (addString_lowers value limits _)
    have later := smaller rest _ _ fewer (Nat.lt_of_lt_of_le old step.longer)
      (spells.same step) clean
    exact later.emit rfl rfl none (quotes_plain (by simp) apart)
  | quote =>
    rcases rest with _ | ⟨quoted, after⟩
    · rw [lowerBody_quote_nothing within] at clean
      exact absurd clean (error_reports reporting _)
    by_cases spelling : ∃ spelled, quoted.kind = .identifier spelled
    · obtain ⟨spelled, kind⟩ := spelling
      rw [lowerBody_quote within kind] at clean ⊢
      have after_lowers := lowerBody_lowers fuel after current
        (before ++ (lowerQuoted spelled quoted.location limits (charged first)).1) limits
        (lowerQuoted spelled quoted.location limits (charged first)).2
      obtain ⟨id, symbol, found, same⟩ :=
        lowerQuoted_clean reporting (clean_before after_lowers clean)
      rw [same] at clean ⊢
      have later := smaller after _ _ (Nat.le_of_succ_le fewer)
        (Nat.lt_of_lt_of_le old start.longer) (spells.same start) clean
      refine later.emit rfl rfl (fun function member => ?_) ?_
      · exact symbolOf_named found (quoted_function.mp member)
      · rw [quotes_quote after rfl kind, ← spells spelled symbol found, quoted_function]
    rw [lowerBody_quote_other within fun spelled kind => spelling ⟨spelled, kind⟩] at clean
    exact absurd clean (not_clean reporting (lowerBody_lowers _ _ _ _ _ _))
  | identifier spelled =>
    rw [lowerBody_identifier within] at clean ⊢
    have rest_lowers := lowerBody_lowers fuel rest current
      (before ++ (lowerIdentifier spelled location current limits (charged first)).1) limits
      (lowerIdentifier spelled location current limits (charged first)).2
    obtain ⟨same, named⟩ :=
      lowerIdentifier_clean reporting (clean_before rest_lowers clean)
    rw [same] at clean ⊢
    have later := smaller rest _ _ fewer (Nat.lt_of_lt_of_le old start.longer)
      (spells.same start) clean
    exact later.emit rfl rfl (fun id member => (named id member).1)
      (quotes_plain (by simp) fun member => (named _ member).2 rfl)
  | openBrace =>
    cases closes : closeOf 1 rest with
    | none =>
      rw [lowerBody_unclosed within closes] at clean
      exact absurd clean (error_reports reporting _)
    | some count => ?_
    obtain ⟨brace, kind, split⟩ := closeOf_splits rest closes
    have quotes : Quotes name _ ↔ _ :=
      quotes_split (rest.drop (count + 1)) kind (rest.take count)
    rw [← split] at quotes
    rw [lowerBody_anonymous within closes] at clean ⊢
    have keeps := lowerBody_lowers fuel (rest.drop (count + 1)) current
      (before ++ [.pushCallable (.function (anonymous
        (lowerBody fuel (rest.take count) current []) current limits
        (charged first)).1)]) limits
      (anonymous (lowerBody fuel (rest.take count) current []) current limits
        (charged first)).2
    rw [anonymous_run] at clean keeps ⊢
    by_cases full : functionsFull limits (charged first) = true
    · rw [if_pos full] at clean keeps
      exact absurd clean (not_clean reporting keeps)
    rw [if_neg full] at clean keeps ⊢
    have clear : (filled _ _ _).diagnostics = [] := clean_before keeps clean
    have lowers := lowerBody_lowers fuel (rest.take count) current [] limits
      (opened (charged first))
    have opens := opened_lowers (charged first)
    have spelled := spells.same (start.trans opens)
    have inside := smaller (rest.take count) [] (opened (charged first))
      (Nat.le_trans (List.take_sublist _ _).length_le fewer)
      (Nat.lt_of_lt_of_le old opens.longer) spelled clear
    have fills := filled_lowers (anonymousName (charged first).functions.length) opens lowers
    have later := smaller (rest.drop (count + 1)) _ _
      (Nat.le_trans (List.drop_sublist _ _).length_le fewer)
      (Nat.lt_of_lt_of_le old fills.longer) (spells.same (start.trans fills)) clean
    exact Lowered.charge (.nest old inside lowers ((quotes_other rest (by simp)).trans quotes)
      later keeps)
  | closeBrace =>
    rw [lowerBody_close within] at clean
    exact absurd clean (not_clean reporting (lowerBody_lowers _ _ _ _ _ _))

end Umber.Bib.Compile
