import Umber.Bib.RawDatabase

/-! Compiled classic styles: symbols, instructions, commands, and what a program is charged. -/

set_option autoImplicit false

namespace Umber.Bib

inductive Builtin where
  | equals
  | greaterThan
  | lessThan
  | add
  | subtract
  | concatenate
  | assign
  | addPeriod
  | callType
  | changeCase
  | chrToInt
  | cite
  | duplicate
  | empty
  | formatName
  | if_
  | intToChr
  | intToStr
  | missing
  | newline
  | numNames
  | pop
  | preamble
  | purify
  | quote
  | skip
  | stack
  | substring
  | swap
  | textLength
  | textPrefix
  | top
  | type_
  | warning
  | while_
  | width
  | write

inductive SpecialSymbol where
  | crossref
  | sortKey
  | entryMax
  | globalMax

inductive SymbolKind where
  | builtin (builtin : Builtin)
  | userFunction (function : Nat)
  | entryField (index : Nat)
  | entryInteger (index : Nat)
  | entryString (index : Nat)
  | globalInteger (index : Nat)
  | globalString (index : Nat)
  | stringMacro (string : Nat)
  | special (special : SpecialSymbol)

structure Symbol where
  name : Text
  kind : SymbolKind

structure Declarations where
  symbols : List Symbol
  names : List (Text × Nat)
  entryFields : List Nat
  entryIntegers : List Nat
  entryStrings : List Nat
  globalIntegers : List Nat
  globalStrings : List Nat
  strings : List Text

def fold (name : Text) : Text :=
  toAsciiLowercase name

namespace Declarations

def empty : Declarations :=
  { symbols := [], names := [], entryFields := [], entryIntegers := [], entryStrings := []
    globalIntegers := [], globalStrings := [], strings := [] }

def lookup (declarations : Declarations) (name : Text) : Option Nat :=
  declarations.names.lookup (fold name)

def insert (declarations : Declarations) (name : Text) (kind : SymbolKind) :
    Option (Nat × Declarations) :=
  match declarations.lookup name with
  | some _ => none
  | none =>
    some (declarations.symbols.length,
      { declarations with
        names := declarations.names ++ [(fold name, declarations.symbols.length)]
        symbols := declarations.symbols ++ [{ name := fold name, kind := kind }] })

def addString (declarations : Declarations) (value : Text) : Nat × Declarations :=
  (declarations.strings.length,
    { declarations with strings := declarations.strings ++ [value] })

def addEntryField (declarations : Declarations) (id : Nat) : Declarations :=
  { declarations with entryFields := declarations.entryFields ++ [id] }

def addEntryInteger (declarations : Declarations) (id : Nat) : Declarations :=
  { declarations with entryIntegers := declarations.entryIntegers ++ [id] }

def addEntryString (declarations : Declarations) (id : Nat) : Declarations :=
  { declarations with entryStrings := declarations.entryStrings ++ [id] }

def addGlobalInteger (declarations : Declarations) (id : Nat) : Declarations :=
  { declarations with globalIntegers := declarations.globalIntegers ++ [id] }

def addGlobalString (declarations : Declarations) (id : Nat) : Declarations :=
  { declarations with globalStrings := declarations.globalStrings ++ [id] }

end Declarations

inductive Callable where
  | function (function : Nat)
  | builtin (builtin : Builtin)
  | variable_ (symbol : Nat)

inductive Instruction where
  | pushInteger (value : Int)
  | pushString (string : Nat)
  | pushCallable (callable : Callable)
  | call (callable : Callable)
  | read (symbol : Nat)

structure CompiledFunction where
  name : Text
  instructions : List Instruction

inductive CompiledCommand where
  | read
  | execute (callable : Callable)
  | iterate (callable : Callable)
  | reverse (callable : Callable)
  | sort

structure SourceLocation where
  byte : Nat
  line : Nat
  column : Nat

structure ProgramCharge where
  sourceBytes : Nat
  tokens : Nat
  nesting : Nat
  symbols : Nat
  functions : Nat
  instructions : Nat
  work : Nat
  retainedBytes : Nat

structure Web2cReallocation where
  array : String
  elementSize : Nat
  oldCapacity : Nat
  newCapacity : Nat

structure CompiledStyle where
  declarations : Declarations
  functions : List CompiledFunction
  commands : List CompiledCommand
  commandLocations : List SourceLocation
  charge : ProgramCharge
  poolTrace : List Text
  web2cReallocations : List Web2cReallocation

structure CompileLimits where
  bytes : Nat
  tokens : Nat
  nesting : Nat
  symbols : Nat
  functions : Nat
  instructions : Nat
  diagnostics : Nat
  work : Nat
  retainedCacheBytes : Nat

def CompileLimits.default : CompileLimits :=
  { bytes := 8388608
    tokens := 1000000
    nesting := 256
    symbols := 100000
    functions := 100000
    instructions := 1000000
    diagnostics := 1000
    work := 16777216
    retainedCacheBytes := 67108864 }

namespace ProgramCharge

def fits (charge : ProgramCharge) (limits : CompileLimits) : Bool :=
  charge.sourceBytes ≤ limits.bytes && charge.tokens ≤ limits.tokens &&
    charge.nesting ≤ limits.nesting && charge.symbols ≤ limits.symbols &&
    charge.functions ≤ limits.functions && charge.instructions ≤ limits.instructions &&
    charge.work ≤ limits.work && charge.retainedBytes ≤ limits.retainedCacheBytes

end ProgramCharge

inductive DiagnosticKind where
  | syntax_
  | unknownCommand
  | phase
  | duplicateSymbol
  | shadowing
  | unknownSymbol
  | illegalRecursion
  | limit

structure Diagnostic where
  kind : DiagnosticKind
  location : SourceLocation
  message : String

/-! ## Names the compiler knows -/

def ascii (text : String) : Text :=
  text.toList.map fun char => UInt8.ofNat char.toNat

def builtinRegistry : List (Builtin × Text) :=
  [(.equals, ascii "="), (.greaterThan, ascii ">"), (.lessThan, ascii "<"), (.add, ascii "+"),
    (.subtract, ascii "-"), (.concatenate, ascii "*"), (.assign, ascii ":="),
    (.addPeriod, ascii "add.period$"), (.callType, ascii "call.type$"),
    (.changeCase, ascii "change.case$"), (.chrToInt, ascii "chr.to.int$"),
    (.cite, ascii "cite$"), (.duplicate, ascii "duplicate$"), (.empty, ascii "empty$"),
    (.formatName, ascii "format.name$"), (.if_, ascii "if$"),
    (.intToChr, ascii "int.to.chr$"), (.intToStr, ascii "int.to.str$"),
    (.missing, ascii "missing$"), (.newline, ascii "newline$"),
    (.numNames, ascii "num.names$"), (.pop, ascii "pop$"), (.preamble, ascii "preamble$"),
    (.purify, ascii "purify$"), (.quote, ascii "quote$"), (.skip, ascii "skip$"),
    (.stack, ascii "stack$"), (.substring, ascii "substring$"), (.swap, ascii "swap$"),
    (.textLength, ascii "text.length$"), (.textPrefix, ascii "text.prefix$"),
    (.top, ascii "top$"), (.type_, ascii "type$"), (.warning, ascii "warning$"),
    (.while_, ascii "while$"), (.width, ascii "width$"), (.write, ascii "write$")]

def specialNames : List (SpecialSymbol × Text) :=
  [(.crossref, ascii "crossref"), (.sortKey, ascii "sort.key$"),
    (.entryMax, ascii "entry.max$"), (.globalMax, ascii "global.max$")]

def Declarations.predeclared : Declarations :=
  let kinds := builtinRegistry.map (fun entry => (entry.2, SymbolKind.builtin entry.1)) ++
    specialNames.map fun entry => (entry.2, SymbolKind.special entry.1)
  kinds.foldl
    (fun declarations entry =>
      match declarations.insert entry.1 entry.2 with
      | some (_, grown) => grown
      | none => declarations)
    Declarations.empty

end Umber.Bib
