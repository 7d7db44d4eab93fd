import Umber.Bib.StyleCompiler

/-! Which functions the bodies of a compiled style refer to, and the rounds of its parser. -/

set_option autoImplicit false

namespace Umber.Bib

def Instruction.function? : Instruction → Option Nat
  | .pushCallable (.function id) => some id
  | .call (.function id) => some id
  | .pushCallable (.builtin _) | .pushCallable (.variable_ _) | .call (.builtin _)
  | .call (.variable_ _) | .pushInteger _ | .pushString _ | .read _ => none

def references (instructions : List Instruction) : List Nat :=
  instructions.filterMap Instruction.function?

def Named (declarations : Declarations) (id : Nat) : Prop :=
  ∃ symbol ∈ declarations.symbols, symbol.kind = .userFunction id

/-- The body of a function is that of a named one, or nested in it: there is no other named one
in between. -/
structure Owns (declarations : Declarations) (owner body : Nat) : Prop where
  named : Named declarations owner
  le : owner ≤ body
  last : ∀ other, Named declarations other → owner < other → body < other

/-- The references in the bodies that belong to a named function are to named functions before
it, or to anonymous bodies of the same function, which come behind. -/
def CallsEarlier (declarations : Declarations) (functions : List CompiledFunction) : Prop :=
  ∀ owner body function, functions[body]? = some function → Owns declarations owner body →
    ∀ id ∈ references function.instructions,
      (Named declarations id ∧ id < owner) ∨
        (body < id ∧ id < functions.length ∧ Owns declarations owner id)

namespace Compile

def rounds : Nat → CompileLimits → Compiler → List Compiler
  | 0, _, _ => []
  | fuel + 1, limits, compiler =>
    if compiler.tokens.length ≤ compiler.at_ then []
    else
      match atLimit limits compiler with
      | (limited, charged) =>
        if limited = true then []
        else charged :: rounds fuel limits (parseCommand limits charged).2

def parseRounds (bytes : List UInt8) (limits : CompileLimits) : List Compiler :=
  rounds (limits.work + 1) limits (scan bytes limits (.new bytes.length)).2

def startsCommand : Option Token → Bool
  | some { kind := .identifier _, location := _ } => true
  | some { kind := .openBrace, location := _ } => true
  | _ => false

def groupAt (tokens : List Token) (place : Nat) : Option (List Token × Nat) :=
  if isOpen tokens[place]? = true then
    (closeOf 1 (tokens.drop (place + 1))).map fun count =>
      ((tokens.drop (place + 1)).take count, place + 1 + count + 1)
  else none

def oneName : List Token → Option Text
  | [{ kind := .identifier name, location := _ }] => some name
  | _ => none

def definesAt (compiler : Compiler) : Option (Text × List Token) :=
  match compiler.tokens[compiler.at_]? with
  | some { kind := .identifier command, location := _ } =>
    if fold command = ascii "function" then
      (groupAt compiler.tokens (compiler.at_ + 1)).bind fun first =>
        (oneName first.1).bind fun name =>
          (groupAt compiler.tokens first.2).map fun second => (name, second.1)
    else none
  | _ => none

def Quotes (name : Text) (tokens : List Token) : Prop :=
  ∃ before quote quoted after spelled, tokens = before ++ quote :: quoted :: after ∧
    quote.kind = .quote ∧ quoted.kind = .identifier spelled ∧ fold spelled = fold name

def QuotesItself (compiler : Compiler) : Prop :=
  ∃ name body, definesAt compiler = some (name, body) ∧ Quotes name body

end Compile

end Umber.Bib
