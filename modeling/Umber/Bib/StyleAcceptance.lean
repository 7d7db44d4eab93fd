import Umber.Bib.StyleReferenceProperties

/-! An accepted style refers to functions before only, exactly if no function quotes itself. -/

set_option autoImplicit false

namespace Umber.Bib.Compile

open Metered

theorem owns_congr {first next : Declarations} (same : ∀ id, Named next id ↔ Named first id)
    (owner body : Nat) : Owns next owner body ↔ Owns first owner body :=
  ⟨fun owns => ⟨(same owner).mp owns.named, owns.le, fun other named =>
      owns.last other ((same other).mpr named)⟩,
    fun owns => ⟨(same owner).mpr owns.named, owns.le, fun other named =>
      owns.last other ((same other).mp named)⟩⟩

theorem callsEarlier_congr {first next : Declarations} {functions : List CompiledFunction}
    (same : ∀ id, Named next id ↔ Named first id) :
    CallsEarlier next functions ↔ CallsEarlier first functions := by
  unfold CallsEarlier
  simp only [same, owns_congr same]

/-- The functions that names stand for are there, and no anonymous function comes before them. -/
structure Placed (declarations : Declarations) (functions : List CompiledFunction) : Prop where
  declared : Declared declarations
  within : ∀ id, Named declarations id → id < functions.length
  first : functions ≠ [] → Named declarations 0

structure Extends (first next : Declarations) (functions grown : List CompiledFunction)
    (own : Prop) : Prop where
  named : ∀ id, Named next id ↔ Named first id ∨ id = functions.length
  longer : functions.length < grown.length
  kept : ∀ id < functions.length, grown[id]? = functions[id]?
  inner : ∀ body function, functions.length ≤ body → grown[body]? = some function →
    ∀ id ∈ references function.instructions, Named next id ∨ (body < id ∧ id < grown.length)
  quoted : (∃ body function, functions.length ≤ body ∧ grown[body]? = some function ∧
    functions.length ∈ references function.instructions) ↔ own

section

variable {first next : Declarations} {functions grown : List CompiledFunction} {own : Prop}
  {owner body : Nat} (growth : Extends first next functions grown own)
include growth

theorem Extends.owns_old
    (old : body < functions.length) : Owns next owner body ↔ Owns first owner body := by
  constructor
  · intro owns
    refine ⟨?_, owns.le, fun other named =>
      owns.last other ((growth.named other).mpr (.inl named))⟩
    rcases (growth.named owner).mp owns.named with named | same
    · exact named
    have := owns.le
    omega
  intro owns
  refine ⟨(growth.named owner).mpr (.inl owns.named), owns.le, fun other named after => ?_⟩
  rcases (growth.named other).mp named with named | rfl
  · exact owns.last other named after
  · exact old

theorem Extends.owns_new (placed : Placed first functions) (new : functions.length ≤ body) :
    Owns next owner body ↔ owner = functions.length := by
  have self : Named next functions.length := (growth.named _).mpr (.inr rfl)
  constructor
  · intro owns
    rcases (growth.named owner).mp owns.named with named | same
    · have := owns.last _ self (placed.within owner named)
      omega
    · exact same
  rintro rfl
  refine ⟨self, new, fun other named after => ?_⟩
  rcases (growth.named other).mp named with named | same
  · have := placed.within other named
    omega
  · omega

/-- The functions refer to functions before still, exactly if the new one does not refer to
itself. -/
theorem Extends.callsEarlier (placed : Placed first functions) :
    CallsEarlier next grown ↔ CallsEarlier first functions ∧ ¬own := by
  have longer := growth.longer
  constructor
  · intro calls
    refine ⟨fun owner body function there owns id member => ?_, fun quoted => ?_⟩
    · have old := (List.getElem?_eq_some_iff.mp there).1
      have owned := (growth.owns_old old).mpr owns
      rcases calls owner body function ((growth.kept body old).trans there) owned id member with
        ⟨named, earlier⟩ | ⟨behind, _, same⟩
      · refine .inl ⟨?_, earlier⟩
        rcases (growth.named id).mp named with named | rfl
        · exact named
        have := owns.le
        omega
      by_cases new : functions.length ≤ id
      · have := (growth.owns_new placed new).mp same
        have := owns.le
        omega
      have old' : id < functions.length := Nat.lt_of_not_le new
      exact .inr ⟨behind, old', (growth.owns_old old').mp same⟩
    obtain ⟨body, function, new, there, member⟩ := growth.quoted.mpr quoted
    have owned := (growth.owns_new placed new).mpr rfl
    rcases calls _ body function there owned _ member with ⟨_, earlier⟩ | ⟨behind, _⟩
    · exact absurd earlier (Nat.lt_irrefl _)
    · omega
  rintro ⟨calls, notOwn⟩ owner body function there owns id member
  by_cases new : functions.length ≤ body
  · obtain rfl := (growth.owns_new placed new).mp owns
    rcases growth.inner body function new there id member with named | ⟨behind, within⟩
    · rcases (growth.named id).mp named with old | rfl
      · exact .inl ⟨named, placed.within id old⟩
      · exact absurd (growth.quoted.mp ⟨body, function, new, there, member⟩) notOwn
    · exact .inr ⟨behind, within, (growth.owns_new placed (by omega)).mpr rfl⟩
  have old : body < functions.length := Nat.lt_of_not_le new
  rw [growth.kept body old] at there
  rcases calls owner body function there ((growth.owns_old old).mp owns) id member with
    ⟨named, earlier⟩ | ⟨behind, within, same⟩
  · exact .inl ⟨(growth.named id).mpr (.inl named), earlier⟩
  · exact .inr ⟨behind, Nat.lt_trans within longer, (growth.owns_old within).mpr same⟩

theorem Extends.placed
    (placed : Placed first functions) (declared : Declared next) : Placed next grown := by
  have longer := growth.longer
  refine ⟨declared, fun id named => ?_, fun _ => ?_⟩
  · rcases (growth.named id).mp named with named | rfl
    · exact Nat.lt_trans (placed.within id named) longer
    · exact longer
  rw [growth.named]
  by_cases empty : functions = []
  · exact .inr (empty ▸ rfl)
  · exact .inl (placed.first empty)

end

/-! ## A new function -/

variable {declarations : Declarations} {name : Text} {id : Nat}

theorem inserted_spells {grown : Declarations} {function : Nat} (declared : Declared declarations)
    (unused : ¬Named declarations function)
    (inserted : declarations.insert name (.userFunction function) = some (id, grown)) :
    Spells grown name function := by
  obtain ⟨free, _, names, symbols⟩ := insert_some inserted
  intro spelled symbol found
  obtain ⟨place, looked, there⟩ := Option.bind_eq_some_iff.mp found
  unfold Declarations.lookup at looked free
  rw [names, List.lookup_append] at looked
  rw [symbols] at there
  by_cases same : fold spelled = fold name
  · rw [same, free, Option.none_or, List.lookup_cons_self] at looked
    rw [← Option.some.inj looked, List.getElem?_concat_length] at there
    rw [← Option.some.inj there]
    exact iff_of_true rfl same
  refine iff_of_false (fun kind => unused ?_) same
  have old : declarations.names.lookup (fold spelled) = some place := by
    cases earlier : declarations.names.lookup (fold spelled) with
    | some other =>
      rw [earlier] at looked
      exact looked
    | none => ?_
    rw [earlier, Option.none_or, List.lookup_cons] at looked
    rw [beq_eq_false_iff_ne.mpr same] at looked
    cases looked
  obtain ⟨before, after, split, _⟩ := List.lookup_eq_some_iff.mp old
  have within : place < declarations.symbols.length :=
    declared (fold spelled, place) (split ▸ List.mem_append_right _ List.mem_cons_self)
  rw [List.getElem?_append_left within] at there
  exact ⟨symbol, List.mem_of_getElem? there, kind⟩

variable {limits : CompileLimits}

theorem Defines.extends_ (reporting : 0 < limits.diagnostics) {body : List Token}
    {first last : Compiler} (placed : Placed first.declarations first.functions)
    (defines : Defines limits name body first last) (clean : last.diagnostics = []) :
    Extends first.declarations last.declarations first.functions last.functions
      (Quotes name body) ∧ Declared last.declarations := by
  obtain ⟨id, start, inserted, functions, rfl⟩ := defines
  have length : start.functions.length = first.functions.length + 1 := by
    rw [functions, List.length_append]
    rfl
  have lowers := lowerBody_lowers body.length body first.functions.length [] limits start
  have unused : ¬Named first.declarations first.functions.length := fun named =>
    Nat.lt_irrefl _ (placed.within _ named)
  have lowered := lowerBody_clean reporting body.length body [] start (Nat.le_refl _)
    (length ▸ Nat.lt_succ_self _) (inserted_spells placed.declared unused inserted) clean
  have named : ∀ id, Named start.declarations id ↔
      Named first.declarations id ∨ id = first.functions.length := by
    intro id
    rw [insert_named inserted, SymbolKind.userFunction.injEq]
    exact or_congr_right eq_comm
  have same : ∀ id, Named (lowerBody body.length body first.functions.length [] limits
      start).2.declarations id ↔ Named start.declarations id := by
    intro id
    unfold Named
    rw [lowers.symbols]
  have longer := lowers.longer
  rw [length] at longer
  have here := filled_same name longer
  have rest : ∀ place, first.functions.length + 1 ≤ place → _ := fun place above =>
    filled_other name (lowerBody body.length body first.functions.length [] limits start)
      (Nat.ne_of_lt above)
  refine ⟨⟨fun id => (same id).trans (named id), ?_, fun place old => ?_, ?_, ?_⟩, ?_⟩
  · rw [filled_length]
    exact longer
  · rw [filled_other _ _ (Nat.ne_of_gt old), lowers.kept place (by omega), functions,
      List.getElem?_append_left old]
  · intro place function above there id member
    rw [filled_length]
    rcases Nat.eq_or_lt_of_le above with rfl | beyond
    · rw [here] at there
      cases there
      rcases lowered.inner id member with none | known | fresh
      · exact absurd none List.not_mem_nil
      · exact .inl ((same id).mpr known)
      rw [length] at fresh
      exact .inr fresh
    rw [rest place beyond] at there
    rcases lowered.nested place function (length ▸ beyond) there id member with known | fresh
    · exact .inl ((same id).mpr known)
    · exact .inr fresh
  · refine Iff.trans ?_ (lowered.quoted.trans (or_iff_right List.not_mem_nil))
    rw [length]
    constructor
    · rintro ⟨place, function, above, there, member⟩
      rcases Nat.eq_or_lt_of_le above with rfl | beyond
      · rw [here] at there
        cases there
        exact .inl member
      rw [rest place beyond] at there
      exact .inr ⟨place, function, beyond, there, member⟩
    rintro (member | ⟨place, function, beyond, there, member⟩)
    · exact ⟨_, _, Nat.le_refl _, here, member⟩
    · exact ⟨place, function, Nat.le_of_lt beyond, (rest place beyond).trans there, member⟩
  have declared := insert_declared inserted placed.declared
  unfold Declared at declared ⊢
  rw [← lowers.names, ← lowers.symbols] at declared
  exact declared

/-! ## The scanner -/

def scanning : Course Compiler where
  leads first next := next.functions = first.functions ∧ next.declarations = first.declarations
  refl := fun _ => ⟨rfl, rfl⟩
  trans := fun left right => ⟨right.1.trans left.1, right.2.trans left.2⟩

def scannerCourse : Course Scanner where
  leads first next := scanning.leads first.compiler next.compiler
  refl := fun scanner => scanning.refl scanner.compiler
  trans := scanning.trans

theorem lift_error_scans (kind : DiagnosticKind) (location : SourceLocation) (message : String) :
    Keeps scannerCourse (lift (error kind location message)) := by
  have reports : Keeps scanning (error kind location message) := by
    intro limits compiler
    unfold error
    by_cases room : compiler.diagnostics.length < limits.diagnostics
    · rw [if_pos room]
      exact ⟨rfl, rfl⟩
    rw [if_neg room]
    exact ⟨rfl, rfl⟩
  exact .zoom reports fun _ _ leads => leads

theorem modify_scans {change : Scanner → Scanner}
    (same : ∀ scanner, scannerCourse.leads scanner (change scanner)) :
    Keeps scannerCourse (modify change : Scan Unit) :=
  .modify same

theorem bump_scans (byte : UInt8) : Keeps scannerCourse (bump byte) :=
  modify_scans fun _ => ⟨rfl, rfl⟩

theorem token_scans (kind : TokenKind) (location : SourceLocation) :
    Keeps scannerCourse (token kind location) :=
  modify_scans fun _ => ⟨rfl, rfl⟩

theorem bumpWhile_scans (test : UInt8 → Bool) (bytes : List UInt8) :
    Keeps scannerCourse (bumpWhile test bytes) := by
  induction bytes with
  | nil => exact .pure _
  | cons byte rest smaller =>
    exact .ite (.branch (.pure _) (.bind (bump_scans byte) fun _ => smaller)) (.pure _)

theorem skipSpaceAndComments_scans (bytes : List UInt8) : ∀ comment,
    Keeps scannerCourse (skipSpaceAndComments comment bytes) := by
  induction bytes with
  | nil => exact fun comment => .pure _
  | cons byte rest smaller => ?_
  intro comment
  have step : ∀ comment, Keeps scannerCourse (branch spent (pure ()) (do
      bump byte
      skipSpaceAndComments comment rest)) := fun comment =>
    .branch (.pure _) (.bind (bump_scans byte) fun _ => smaller comment)
  exact .ite (step true) (.ite (step false) (.ite (step true) (.pure _)))

theorem chargeScan_scans : Keeps scannerCourse chargeScan :=
  .bind (modify_scans fun _ => ⟨rfl, rfl⟩) fun _ => .bind (.read _) fun _ =>
    .branch (.bind (lift_error_scans _ _ _) fun _ => .pure _) (.pure _)

section

variable (bytes : List UInt8)
include bytes

theorem scanWord_scans (location : SourceLocation) :
    Keeps scannerCourse (scanWord bytes location) :=
  .bind (.read _) fun _ => .bind (bumpWhile_scans _ _) fun _ => .bind (.read _) fun _ =>
    token_scans _ _

theorem scanInteger_scans (hash : UInt8) (location : SourceLocation) :
    Keeps scannerCourse (scanInteger bytes hash location) := by
  refine .bind (bump_scans hash) fun _ => .bind (.read _) fun start => .bind ?_ fun _ => ?_
  · cases bytes[start]? with
    | none => exact .pure _
    | some byte => exact .ite (bump_scans byte) (.pure _)
  refine .bind (.read _) fun digits => .bind (bumpWhile_scans _ _) fun _ => ?_
  refine .bind (.read _) fun stop => .ite (lift_error_scans _ _ _) (.bind (.read _) fun text => ?_)
  cases parseInteger text with
  | none => exact lift_error_scans _ _ _
  | some value => exact token_scans _ _

theorem scanString_scans (quote : UInt8) (location : SourceLocation) :
    Keeps scannerCourse (scanString bytes quote location) := by
  refine .bind (bump_scans quote) fun _ => .bind (.read _) fun start => ?_
  refine .bind (bumpWhile_scans _ _) fun _ => .bind (.read _) fun stop => ?_
  cases bytes[stop]? with
  | none => exact lift_error_scans _ _ _
  | some byte =>
    exact .bind (.read _) fun text => .bind (bump_scans byte) fun _ => token_scans _ _

theorem scanToken_scans (byte : UInt8) (location : SourceLocation) :
    Keeps scannerCourse (scanToken bytes byte location) := by
  refine .ite (.bind (bump_scans byte) fun _ => .bind (modify_scans fun _ => ⟨rfl, rfl⟩) fun _ =>
    token_scans _ _) (.ite ?_ (.ite ?_ (.ite (scanString_scans _ _ _) (.ite (scanInteger_scans _ _ _)
      (.ite (scanWord_scans _ _) ?_)))))
  · refine .bind (bump_scans byte) fun _ => .bind (.read _) fun nesting => .ite ?_ ?_
    · exact .bind (lift_error_scans _ _ _) fun _ => token_scans _ _
    · exact .bind (modify_scans fun _ => ⟨rfl, rfl⟩) fun _ => token_scans _ _
  · exact .bind (bump_scans byte) fun _ => token_scans _ _
  · exact .bind (bump_scans byte) fun _ => lift_error_scans _ _ _

theorem scanLoop_scans (fuel : Nat) : Keeps scannerCourse (scanLoop bytes fuel) := by
  induction fuel with
  | zero => exact .pure _
  | succ fuel smaller => ?_
  refine .bind (.read _) fun first => .ite (.pure _) ?_
  refine .bind chargeScan_scans fun charged => .ite ?_ (.pure _)
  refine .bind (skipSpaceAndComments_scans _ _) fun _ => .bind (.read _) fun start => ?_
  cases bytes[start]? with
  | none => exact .pure _
  | some byte =>
    refine .bind (.read _) fun location => .bind (scanToken_scans _ _ _) fun _ => ?_
    exact .branch (lift_error_scans _ _ _) (.branch (lift_error_scans _ _ _) smaller)

theorem scan_scans : Keeps scanning (scan bytes) := by
  have scans : Keeps scannerCourse (do
      scanLoop bytes (bytes.length + 2)
      endScan) := by
    refine .bind (scanLoop_scans _ _) fun _ => .bind (modify_scans fun _ => ⟨rfl, rfl⟩) fun _ => ?_
    exact .bind (.read _) fun cursor => .ite (lift_error_scans _ _ _) (.pure _)
  exact .zoom scans fun _ _ leads => leads

end

/-! ## All rounds -/

theorem atLimit_run (limits : CompileLimits) (compiler : Compiler) : atLimit limits compiler =
      if decide (limits.work < compiler.work + 1) = true then
        (true, (errorHere .limit "BST parser work limit exceeded" limits (charged compiler)).2)
      else (false, charged compiler) :=
  rfl

theorem atLimit_moves : Keeps moving atLimit :=
  .bind (.modify fun _ => ⟨rfl, Nat.le_refl _, List.prefix_refl _⟩) fun _ =>
    .branch (.bind (moves (errorHere_quiet _ _)) fun _ => .pure _) (.pure _)

theorem parseCommand_moves : Keeps moving parseCommand := by
  refine .bind (.bind (.read _) fun token => ?_) fun found => ?_
  · rcases token with _ | ⟨kind, location⟩
    · exact .pure _
    cases kind with
    | identifier name =>
      exact .bind (.modify fun _ => ⟨rfl, Nat.le_succ _, List.prefix_refl _⟩) fun _ => .pure _
    | integer | string | quote | openBrace | closeBrace => exact .pure _
  cases found with
  | none => exact .bind (moves (errorHere_quiet _ _)) fun _ => moves recover_quiet
  | some found => exact command_moves _ _

theorem parseLoop_run (fuel : Nat) (limits : CompileLimits) (compiler : Compiler) :
    parseLoop (fuel + 1) limits compiler =
      if compiler.tokens.length ≤ compiler.at_ then ((), compiler) else
        if (atLimit limits compiler).1 = true then ((), (atLimit limits compiler).2)
        else parseLoop fuel limits (parseCommand limits (atLimit limits compiler).2).2 := by
  refine (ite_run _ _ limits compiler).trans (if_congr Iff.rfl rfl ?_)
  exact ite_run _ _ limits _

theorem parseLoop_moves (fuel : Nat) : Keeps moving (parseLoop fuel) := by
  induction fuel with
  | zero => exact .pure _
  | succ fuel smaller =>
    exact .bind (.read _) fun compiler => .ite (.pure _) (.bind atLimit_moves fun limited =>
      .ite (.pure _) (.bind parseCommand_moves fun _ => smaller))

/-- A round without a report leaves the references to functions before alone, unless it defines
a function that quotes itself. -/
theorem parseCommand_calls (reporting : 0 < limits.diagnostics) {compiler : Compiler}
    (placed : Placed compiler.declarations compiler.functions)
    (clean : (parseCommand limits compiler).2.diagnostics = []) :
    Placed (parseCommand limits compiler).2.declarations (parseCommand limits compiler).2.functions ∧
      (CallsEarlier (parseCommand limits compiler).2.declarations
          (parseCommand limits compiler).2.functions ↔
        CallsEarlier compiler.declarations compiler.functions ∧ ¬QuotesItself compiler) := by
  rcases parseCommand_clean reporting clean with ⟨nothing, quiet⟩ | ⟨name, body, found, defines⟩
  · have never : ¬QuotesItself compiler := by
      rintro ⟨name, body, found, _⟩
      rw [nothing] at found
      cases found
    rw [quiet.functions, callsEarlier_congr quiet.named]
    refine ⟨⟨quiet.declared placed.declared, fun id named => ?_, fun any => ?_⟩,
      (and_iff_left never).symm⟩
    · exact placed.within id ((quiet.named id).mp named)
    · exact (quiet.named 0).mpr (placed.first any)
  obtain ⟨growth, declared⟩ := defines.extends_ reporting placed clean
  have quotes : QuotesItself compiler ↔ Quotes name body := by
    constructor
    · rintro ⟨other, content, same, quotes⟩
      rw [found] at same
      cases same
      exact quotes
    · exact fun quotes => ⟨name, body, found, quotes⟩
  rw [quotes]
  exact ⟨growth.placed placed declared, growth.callsEarlier placed⟩

theorem parseLoop_calls (reporting : 0 < limits.diagnostics) (fuel : Nat) :
    ∀ compiler, Placed compiler.declarations compiler.functions →
      (parseLoop fuel limits compiler).2.diagnostics = [] →
      Placed (parseLoop fuel limits compiler).2.declarations
          (parseLoop fuel limits compiler).2.functions ∧
        (CallsEarlier (parseLoop fuel limits compiler).2.declarations
            (parseLoop fuel limits compiler).2.functions ↔
          CallsEarlier compiler.declarations compiler.functions ∧
            ∀ state ∈ rounds fuel limits compiler, ¬QuotesItself state) := by
  induction fuel with
  | zero =>
    intro compiler placed _
    exact ⟨placed, (and_iff_left fun state member => absurd member List.not_mem_nil).symm⟩
  | succ fuel smaller => ?_
  intro compiler placed clean
  rw [parseLoop_run] at clean ⊢
  unfold rounds
  by_cases over_ : compiler.tokens.length ≤ compiler.at_
  · rw [if_pos over_, if_pos over_]
    exact ⟨placed, (and_iff_left fun state member => absurd member List.not_mem_nil).symm⟩
  rw [if_neg over_] at clean ⊢
  rw [if_neg over_]
  rw [atLimit_run] at clean ⊢
  by_cases limited : decide (limits.work < compiler.work + 1) = true
  · rw [if_pos limited] at clean
    exact absurd clean (errorHere_reports reporting _)
  rw [if_neg limited] at clean ⊢
  have before := clean_start (parseLoop_moves fuel limits _) clean
  have placed' : Placed (charged compiler).declarations (charged compiler).functions :=
    placed
  obtain ⟨after, step⟩ := parseCommand_calls reporting placed' before
  obtain ⟨last, rest⟩ := smaller _ after clean
  refine ⟨last, rest.trans ?_⟩
  rw [step, and_assoc]
  refine and_congr_right fun _ => ?_
  have step : ∀ later, (∀ state ∈ charged compiler :: later, ¬QuotesItself state) ↔
      ¬QuotesItself (charged compiler) ∧ ∀ state ∈ later, ¬QuotesItself state :=
    fun later => List.forall_mem_cons
  exact (step (rounds fuel limits (parseCommand limits (charged compiler)).2)).symm

/-! ## Accepted styles -/

def Refers (functions : List CompiledFunction) (first second : Nat) : Prop :=
  ∃ function, functions[first]? = some function ∧ second ∈ references function.instructions

def Acyclic (functions : List CompiledFunction) : Prop :=
  ∀ id, ¬Relation.TransGen (Refers functions) id id

/-- A function that belongs to a named one before, or to the same one and comes behind. -/
def Below (declarations : Declarations) (first second : Nat) : Prop :=
  ∃ owner earlier, Owns declarations owner first ∧ Owns declarations earlier second ∧
    (earlier < owner ∨ (earlier = owner ∧ first < second))

theorem owner_unique {first second body : Nat} (left : Owns declarations first body)
    (right : Owns declarations second body) : first = second := by
  rcases Nat.lt_trichotomy first second with before | same | behind
  · have := left.last second right.named before
    have := right.le
    omega
  · exact same
  have := right.last first left.named behind
  have := left.le
  omega

theorem Below.trans {declarations : Declarations} {first second third : Nat}
    (left : Below declarations first second) (right : Below declarations second third) :
    Below declarations first third := by
  obtain ⟨owner, middle, owns, owned, order⟩ := left
  obtain ⟨middle', last, owned', ends, order'⟩ := right
  obtain rfl := owner_unique owned owned'
  exact ⟨owner, last, owns, ends, by omega⟩

theorem Below.irrefl : ¬Below declarations id id := by
  rintro ⟨owner, earlier, owns, owned, order⟩
  have := owner_unique owns owned
  omega

theorem exists_owner (first : Named declarations 0) (body : Nat) :
    ∃ owner, Owns declarations owner body := by
  induction body with
  | zero => exact ⟨0, first, Nat.le_refl _, fun _ _ after => after⟩
  | succ body smaller => ?_
  by_cases named : Named declarations (body + 1)
  · exact ⟨body + 1, named, Nat.le_refl _, fun _ _ after => after⟩
  obtain ⟨owner, owns⟩ := smaller
  refine ⟨owner, owns.named, Nat.le_succ_of_le owns.le, fun other known after => ?_⟩
  have behind := owns.last other known after
  refine Nat.lt_of_le_of_ne behind ?_
  rintro rfl
  exact named known

/-- Functions that refer to functions before only have no cycle of references. -/
theorem acyclic_of_callsEarlier {functions : List CompiledFunction}
    (placed : Placed declarations functions) (calls : CallsEarlier declarations functions) :
    Acyclic functions := by
  have step : ∀ {first second}, Refers functions first second →
      Below declarations first second := by
    rintro first second ⟨function, there, member⟩
    have some_ : functions ≠ [] := by
      rintro rfl
      cases there
    obtain ⟨owner, owns⟩ := exists_owner (placed.first some_) first
    rcases calls owner first function there owns second member with
      ⟨named, earlier⟩ | ⟨behind, _, same⟩
    · exact ⟨owner, second, owns, ⟨named, Nat.le_refl _, fun _ _ after => after⟩, .inl earlier⟩
    · exact ⟨owner, owner, owns, same, .inr ⟨rfl, behind⟩⟩
  intro id cycle
  have below : ∀ {first second}, Relation.TransGen (Refers functions) first second →
      Below declarations first second := by
    intro first second run
    induction run with
    | single last => exact step last
    | tail _ last earlier => exact earlier.trans (step last)
  exact Below.irrefl (below cycle)

theorem insert_all_placed (kinds : List (Text × SymbolKind))
    (others : ∀ entry ∈ kinds, ∀ id, entry.2 ≠ .userFunction id) : ∀ declarations,
      Placed declarations [] →
      Placed (kinds.foldl
        (fun declarations entry =>
          match declarations.insert entry.1 entry.2 with
          | some (_, grown) => grown
          | none => declarations)
        declarations) [] := by
  induction kinds with
  | nil => exact fun declarations placed => placed
  | cons entry kinds smaller => ?_
  intro declarations placed
  have later := smaller fun other member => others other (List.mem_cons_of_mem _ member)
  rw [List.foldl_cons]
  cases inserted : declarations.insert entry.1 entry.2 with
  | none => exact later declarations placed
  | some grown => ?_
  refine later grown.2 ⟨insert_declared inserted placed.declared, fun id named => ?_,
    fun some_ => absurd rfl some_⟩
  rcases (insert_named inserted id).mp named with old | same
  · exact placed.within id old
  · exact absurd same (others entry List.mem_cons_self id)

theorem predeclared_placed : Placed Declarations.predeclared [] := by
  refine insert_all_placed _ (fun entry member id => ?_) _ ⟨?_, ?_, fun some_ => absurd rfl some_⟩
  · rcases List.mem_append.mp member with builtin | special
    · obtain ⟨_, _, rfl⟩ := List.mem_map.mp builtin
      exact fun same => by cases same
    obtain ⟨_, _, rfl⟩ := List.mem_map.mp special
    exact fun same => by cases same
  · exact fun entry member => absurd member List.not_mem_nil
  rintro id ⟨symbol, member, _⟩
  exact absurd member List.not_mem_nil

/-- Each round takes a token exactly where it starts at a command or a group, and an accepted
style refers to functions before only, without a cycle, exactly if no round defines a function
whose body quotes its name. -/
theorem compile_progress_acyclic_iff (layout : Layout) (bytes : List UInt8)
    (limits : CompileLimits) (reporting : 0 < limits.diagnostics) :
    (∀ state ∈ parseRounds bytes limits, (state.at_ < (parseCommand limits state).2.at_ ↔
        startsCommand state.tokens[state.at_]? = true)) ∧
    ∀ style, (compile layout bytes limits).program = some style →
      ((CallsEarlier style.declarations style.functions ∧ Acyclic style.functions) ↔
        ∀ state ∈ parseRounds bytes limits, ¬QuotesItself state) := by
  refine ⟨fun state _ => parseCommand_advances limits state, fun style accepted => ?_⟩
  unfold compile at accepted
  by_cases long : limits.bytes < bytes.length
  · rw [if_pos long] at accepted
    cases accepted
  rw [if_neg long] at accepted
  unfold finish at accepted
  dsimp only at accepted
  by_cases fits : (run bytes limits (.new bytes.length)).2.diagnostics = [] ∧
      (charge layout (run bytes limits (.new bytes.length)).2).fits limits = true
  · rw [if_pos fits] at accepted
    obtain ⟨functions, declarations⟩ := scan_scans bytes limits (.new bytes.length)
    have placed : Placed (scan bytes limits (.new bytes.length)).2.declarations
        (scan bytes limits (.new bytes.length)).2.functions := by
      rw [functions, declarations]
      dsimp only [Compiler.new]
      exact predeclared_placed
    have start : CallsEarlier (scan bytes limits (.new bytes.length)).2.declarations
        (scan bytes limits (.new bytes.length)).2.functions := by
      rw [functions]
      dsimp only [Compiler.new]
      intro owner body function there
      cases there
    obtain ⟨last, calls⟩ := parseLoop_calls reporting (limits.work + 1) _ placed fits.1
    rw [and_iff_right start] at calls
    cases accepted
    refine Iff.trans ⟨And.left, fun earlier => ⟨earlier, acyclic_of_callsEarlier last earlier⟩⟩ calls
  rw [if_neg fits] at accepted
  cases accepted

theorem compile_progress_acyclic_iff_skip :
    (∀ state ∈ parseRounds (ascii "FUNCTION\x7bf\x7d\x7bskip$\x7d") .default,
      (state.at_ < (parseCommand .default state).2.at_ ↔
        startsCommand state.tokens[state.at_]? = true)) ∧
    ∀ style, (compile { instruction := 16, web2cReallocation := 40 }
        (ascii "FUNCTION\x7bf\x7d\x7bskip$\x7d") .default).program = some style →
      ((CallsEarlier style.declarations style.functions ∧ Acyclic style.functions) ↔
        ∀ state ∈ parseRounds (ascii "FUNCTION\x7bf\x7d\x7bskip$\x7d") .default,
          ¬QuotesItself state) :=
  compile_progress_acyclic_iff _ _ .default (by decide)

/-- The parser stays at a stray integer, and a function may quote itself. -/
theorem stray_token_and_own_quote :
    (∃ state ∈ parseRounds (ascii "#1") .default,
      ¬state.at_ < (parseCommand .default state).2.at_) ∧
    ∃ style, (compile { instruction := 16, web2cReallocation := 40 }
        (ascii "FUNCTION\x7bf\x7d\x7b'f\x7d") .default).program = some style ∧
      ¬Acyclic style.functions := by
  constructor
  · have first : (parseRounds (ascii "#1") .default).head?.map
        (fun state => decide (state.at_ < (parseCommand .default state).2.at_)) = some false := by
      decide +kernel
    obtain ⟨state, head, same⟩ := Option.map_eq_some_iff.mp first
    exact ⟨state, List.mem_of_head? head, of_decide_eq_false same⟩
  have accepted : (compile { instruction := 16, web2cReallocation := 40 }
      (ascii "FUNCTION\x7bf\x7d\x7b'f\x7d") .default).program.map
        (fun style => style.functions[0]?.map fun function => references function.instructions) =
      some (some [0]) := by
    decide +kernel
  obtain ⟨style, found, calls⟩ := Option.map_eq_some_iff.mp accepted
  obtain ⟨function, there, same⟩ := Option.map_eq_some_iff.mp calls
  refine ⟨style, found, fun acyclic => acyclic 0 (.single ⟨function, there, ?_⟩)⟩
  rw [same]
  exact List.mem_cons_self

end Umber.Bib.Compile
