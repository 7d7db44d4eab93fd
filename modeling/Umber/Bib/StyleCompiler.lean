import Umber.Bib.StyleProgram
import Umber.Lib.Metered

/-! The compiler of classic styles: a scanner of tokens, a parser of commands, and the lowering
of function bodies, each charged against the limits of the compilation. -/

set_option autoImplicit false

namespace Umber.Bib

inductive TokenKind where
  | identifier (name : Text)
  | integer (value : Int)
  | string (value : Text)
  | quote
  | openBrace
  | closeBrace
deriving DecidableEq

structure Token where
  kind : TokenKind
  location : SourceLocation

structure CompileStats where
  cacheHit : Bool
  tokens : Nat
  nesting : Nat
  work : Nat

structure CompileResult where
  program : Option CompiledStyle
  diagnostics : List Diagnostic
  stats : CompileStats

structure Compiler where
  tokens : List Token
  at_ : Nat
  diagnostics : List Diagnostic
  declarations : Declarations
  functions : List CompiledFunction
  commands : List CompiledCommand
  commandLocations : List SourceLocation
  entrySeen : Bool
  readSeen : Bool
  sourceBytes : Nat
  nesting : Nat
  work : Nat
  poolTrace : List Text
  anonymousPoolIndex : Nat
  web2cReallocations : List Web2cReallocation
  web2cWizUsed : Nat
  web2cWizCapacity : Nat

abbrev Compile (α : Type) := Metered CompileLimits Compiler α

def hashPtrSize : Nat := 4

def singleFunctionSpace : Nat := 50

def wizFunctionSpace : Nat := 3000

structure Layout where
  instruction : Nat
  web2cReallocation : Nat

def Compiler.new (sourceBytes : Nat) : Compiler :=
  { tokens := []
    at_ := 0
    diagnostics := []
    declarations := .predeclared
    functions := []
    commands := []
    commandLocations := []
    entrySeen := false
    readSeen := false
    sourceBytes := sourceBytes
    nesting := 0
    work := 0
    poolTrace := []
    anonymousPoolIndex := 0
    web2cReallocations := []
    web2cWizUsed := 0
    web2cWizCapacity := wizFunctionSpace }

namespace Compile

open Metered (read modify branch)

def error (kind : DiagnosticKind) (location : SourceLocation) (message : String) : Compile Unit :=
  fun limits compiler =>
    if compiler.diagnostics.length < limits.diagnostics then
      ((), { compiler with
        diagnostics := compiler.diagnostics ++
          [{ kind := kind, location := location, message := message }] })
    else ((), compiler)

/-! ## The scanner -/

structure ScanCursor where
  at_ : Nat
  line : Nat
  column : Nat
  nesting : Nat
  maximumNesting : Nat

def ScanCursor.location (cursor : ScanCursor) : SourceLocation :=
  { byte := cursor.at_, line := max cursor.line 1, column := max cursor.column 1 }

def ScanCursor.start : ScanCursor :=
  { at_ := 0, line := 0, column := 0, nesting := 0, maximumNesting := 0 }

structure Scanner where
  compiler : Compiler
  cursor : ScanCursor

abbrev Scan (α : Type) := Metered CompileLimits Scanner α

def lift {α : Type} (inner : Compile α) : Scan α :=
  Metered.zoom Scanner.compiler (fun scanner compiler => { scanner with compiler := compiler })
    inner

def isWord (byte : UInt8) : Bool :=
  0x80 ≤ byte.toNat || isAsciiAlphabetic byte || isAsciiDigit byte ||
    byte == 0x24 || byte == 0x2E || byte == 0x3A || byte == 0x3D || byte == 0x3C ||
    byte == 0x3E || byte == 0x2B || byte == 0x2D || byte == 0x2A || byte == 0x5F

def compatibilityString (bytes : List UInt8) : Text :=
  bytes.flatMap fun byte =>
    if byte.toNat < 0x80 then [byte]
    else if byte.toNat < 0xC0 then [0xC2, byte]
    else [0xC3, byte - 0x40]

def bump (byte : UInt8) : Scan Unit :=
  modify fun scanner =>
    { compiler := { scanner.compiler with work := scanner.compiler.work + 1 }
      cursor :=
        if byte = 0x0A then
          { scanner.cursor with
            at_ := scanner.cursor.at_ + 1
            line := scanner.cursor.line + 1
            column := 1 }
        else
          { scanner.cursor with
            at_ := scanner.cursor.at_ + 1
            column := scanner.cursor.column + 1 } }

def token (kind : TokenKind) (location : SourceLocation) : Scan Unit :=
  modify fun scanner =>
    { scanner with
      compiler :=
        { scanner.compiler with
          tokens := scanner.compiler.tokens ++ [{ kind := kind, location := location }] } }

def spent (limits : CompileLimits) (scanner : Scanner) : Bool :=
  decide (limits.work < scanner.compiler.work)

def bumpWhile (test : UInt8 → Bool) : List UInt8 → Scan Unit
  | [] => pure ()
  | byte :: rest =>
    if test byte = true then
      branch spent (pure ()) (do
        bump byte
        bumpWhile test rest)
    else pure ()

def skipSpaceAndComments : Bool → List UInt8 → Scan Unit
  | _, [] => pure ()
  | comment, byte :: rest =>
    if comment = true ∧ byte ≠ 0x0A then
      branch spent (pure ()) (do
        bump byte
        skipSpaceAndComments true rest)
    else if byte = 0x20 ∨ byte = 0x09 ∨ byte = 0x0D ∨ byte = 0x0A then
      branch spent (pure ()) (do
        bump byte
        skipSpaceAndComments false rest)
    else if byte = 0x25 then
      branch spent (pure ()) (do
        bump byte
        skipSpaceAndComments true rest)
    else pure ()

def chargeScan : Scan Bool := do
  modify fun scanner =>
    { scanner with compiler := { scanner.compiler with work := scanner.compiler.work + 1 } }
  let location ← read fun scanner => scanner.cursor.location
  branch spent
    (do
      lift (error .limit location "BST lexer work limit exceeded")
      pure false)
    (pure true)

def sliceFrom (bytes : List UInt8) (first : Nat) : Scan (List UInt8) :=
  read fun scanner => (bytes.drop first).take (scanner.cursor.at_ - first)

def place : Scan Nat :=
  read fun scanner => scanner.cursor.at_

def scanWord (bytes : List UInt8) (location : SourceLocation) : Scan Unit := do
  let start ← place
  bumpWhile isWord (bytes.drop start)
  let name ← sliceFrom bytes start
  token (.identifier (compatibilityString name)) location

/-- The value of decimal digits behind an optional minus sign, if it is a 64-bit integer. -/
def parseInteger (text : List UInt8) : Option Int :=
  let negative := text.head? = some 0x2D
  let digits := if negative then text.drop 1 else text
  let magnitude : Nat :=
    digits.foldl (fun value digit => value * 10 + (digit.toNat - 0x30)) 0
  if negative then
    if magnitude ≤ 9223372036854775808 then some (-(magnitude : Int)) else none
  else if magnitude ≤ 9223372036854775807 then some (magnitude : Int)
  else none

def scanInteger (bytes : List UInt8) (hash : UInt8) (location : SourceLocation) :
    Scan Unit := do
  bump hash
  let start ← place
  (match bytes[start]? with
    | some byte => if byte = 0x2D then bump byte else pure ()
    | none => pure ())
  let digits ← place
  bumpWhile isAsciiDigit (bytes.drop digits)
  let stop ← place
  if digits = stop then lift (error .syntax_ location "expected digits after #")
  else do
    let text ← sliceFrom bytes start
    match parseInteger text with
    | some value => token (.integer value) location
    | none => lift (error .syntax_ location "BST integer is out of range")

def scanString (bytes : List UInt8) (quote : UInt8) (location : SourceLocation) : Scan Unit := do
  bump quote
  let start ← place
  bumpWhile (fun byte => byte != 0x22) (bytes.drop start)
  let stop ← place
  match bytes[stop]? with
  | none => lift (error .syntax_ location "unterminated BST string")
  | some byte => do
    let text ← sliceFrom bytes start
    bump byte
    token (.string (compatibilityString text)) location

def scanToken (bytes : List UInt8) (byte : UInt8) (location : SourceLocation) : Scan Unit :=
  if byte = 0x7B then do
    bump byte
    modify fun scanner =>
      { scanner with
        cursor :=
          { scanner.cursor with
            nesting := scanner.cursor.nesting + 1
            maximumNesting := max scanner.cursor.maximumNesting (scanner.cursor.nesting + 1) } }
    token .openBrace location
  else if byte = 0x7D then do
    bump byte
    let nesting ← read fun scanner => scanner.cursor.nesting
    if nesting = 0 then do
      lift (error .syntax_ location "unexpected closing brace")
      token .closeBrace location
    else do
      modify fun scanner =>
        { scanner with cursor := { scanner.cursor with nesting := nesting - 1 } }
      token .closeBrace location
  else if byte = 0x27 then do
    bump byte
    token .quote location
  else if byte = 0x22 then scanString bytes byte location
  else if byte = 0x23 then scanInteger bytes byte location
  else if isWord byte = true then scanWord bytes location
  else do
    bump byte
    lift (error .syntax_ location "invalid BST byte")

def checkScan (location : SourceLocation) (more : Scan Unit) : Scan Unit :=
  branch (fun limits scanner => decide (limits.tokens ≤ scanner.compiler.tokens.length))
    (lift (error .limit location "BST token limit exceeded"))
    (branch (fun limits scanner => decide (limits.nesting < scanner.cursor.maximumNesting))
      (lift (error .limit location "BST nesting limit exceeded"))
      more)

def scanLoop (bytes : List UInt8) : Nat → Scan Unit
  | 0 => pure ()
  | fuel + 1 => do
    let first ← place
    if bytes.length ≤ first then pure ()
    else do
      let charged ← chargeScan
      if charged = true then do
        skipSpaceAndComments false (bytes.drop first)
        let start ← place
        match bytes[start]? with
        | none => pure ()
        | some byte => do
          let location ← read fun scanner => scanner.cursor.location
          scanToken bytes byte location
          checkScan location (scanLoop bytes fuel)
      else pure ()

/-- Record the nesting of the source, which must end outside all braces. -/
def endScan : Scan Unit := do
  modify fun scanner =>
    { scanner with
      compiler := { scanner.compiler with nesting := scanner.cursor.maximumNesting } }
  let cursor ← read fun scanner => scanner.cursor
  if cursor.nesting ≠ 0 then lift (error .syntax_ cursor.location "unterminated brace group")
  else pure ()

def scan (bytes : List UInt8) : Compile Unit :=
  Metered.zoom (fun compiler => { compiler := compiler, cursor := .start })
    (fun _ scanner => scanner.compiler)
    (do
      scanLoop bytes (bytes.length + 2)
      endScan)

/-! ## Groups -/

def errorHere (kind : DiagnosticKind) (message : String) : Compile Unit := do
  let location ← read fun compiler =>
    match compiler.tokens[compiler.at_]? with
    | some token => token.location
    | none => { byte := compiler.sourceBytes, line := 1, column := 1 }
  error kind location message

def atLimit : Compile Bool := do
  modify fun compiler => { compiler with work := compiler.work + 1 }
  branch (fun limits compiler => decide (limits.work < compiler.work))
    (do
      errorHere .limit "BST parser work limit exceeded"
      pure true)
    (pure false)

def closeOf : Nat → List Token → Option Nat
  | _, [] => none
  | depth, token :: rest =>
    match token.kind with
    | .openBrace => (closeOf (depth + 1) rest).map (· + 1)
    | .closeBrace => if depth - 1 = 0 then some 0 else (closeOf (depth - 1) rest).map (· + 1)
    | .identifier _ | .integer _ | .string _ | .quote => (closeOf depth rest).map (· + 1)

def isOpen (token : Option Token) : Bool :=
  token.map Token.kind == some .openBrace

def group : Compile (List Token) := do
  let compiler ← read id
  if isOpen compiler.tokens[compiler.at_]? = true then
    let rest := compiler.tokens.drop (compiler.at_ + 1)
    match closeOf 1 rest with
    | some count => do
      modify fun compiler => { compiler with at_ := compiler.at_ + 1 + count + 1 }
      pure (rest.take count)
    | none => do
      modify fun compiler => { compiler with at_ := compiler.tokens.length }
      errorHere .syntax_ "unterminated BST brace group"
      pure []
  else do
    errorHere .syntax_ "expected BST brace group"
    pure []

def skipGroup : Compile Unit := do
  let _ ← group
  pure ()

def identifiersOf : List Token → Compile (List Text)
  | [] => pure []
  | token :: rest =>
    match token.kind with
    | .identifier name => do
      let names ← identifiersOf rest
      pure (name :: names)
    | .integer _ | .string _ | .quote | .openBrace | .closeBrace => do
      error .syntax_ token.location "declaration group requires identifiers"
      identifiersOf rest

def identifiersGroup : Compile (List Text) := do
  let tokens ← group
  identifiersOf tokens

def oneIdentifierGroup : Compile (Option Text) := do
  let names ← identifiersGroup
  match names with
  | [name] => pure (some name)
  | [] | _ :: _ :: _ => do
    errorHere .syntax_ "expected exactly one identifier"
    pure none

def oneString : List Token → Option Text
  | [{ kind := .string value, location := _ }] => some value
  | _ => none

def oneStringGroup : Compile (Option Text) := do
  let tokens ← group
  match oneString tokens with
  | some value => pure (some value)
  | none => do
    errorHere .syntax_ "expected exactly one string"
    pure none

def recover : Compile Unit := do
  let opens ← read fun compiler => isOpen compiler.tokens[compiler.at_]?
  if opens = true then skipGroup else pure ()

def identifier : Compile (Option (Text × SourceLocation)) := do
  let token ← read fun compiler => compiler.tokens[compiler.at_]?
  match token with
  | some { kind := .identifier name, location := location } => do
    modify fun compiler => { compiler with at_ := compiler.at_ + 1 }
    pure (some (name, location))
  | _ => pure none

/-! ## Lowering -/

def insertSymbol (name : Text) (kind : SymbolKind) : Compile (Option Nat) := fun _ compiler =>
  match compiler.declarations.insert name kind with
  | some (id, grown) => (some id, { compiler with declarations := grown })
  | none => (none, compiler)

def tracePool (value : Text) : Compile Unit :=
  modify fun compiler => { compiler with poolTrace := compiler.poolTrace ++ [value] }

def addString (value : Text) : Compile Nat := fun _ compiler =>
  match compiler.declarations.addString value with
  | (id, grown) => (id, { compiler with declarations := grown })

def decimal (value : Nat) : Text :=
  ascii (toString value)

def integerText (value : Int) : Text :=
  if value < 0 then 0x2D :: decimal value.natAbs else decimal value.natAbs

def anonymousName (id : Nat) : Text :=
  ascii "<anonymous:" ++ decimal id ++ ascii ">"

def symbolKind (name : Text) : Compile (Option (Nat × SymbolKind)) :=
  read fun compiler =>
    match compiler.declarations.lookup name with
    | none => none
    | some id => (compiler.declarations.symbols[id]?).map fun symbol => (id, symbol.kind)

def quotedCallable (id : Nat) : SymbolKind → Callable
  | .userFunction function => .function function
  | .builtin builtin => .builtin builtin
  | .entryField _ | .stringMacro _ | .special _ | .globalInteger _ | .globalString _
  | .entryInteger _ | .entryString _ => .variable_ id

def lowerQuoted (name : Text) (location : SourceLocation) : Compile (List Instruction) := do
  let symbol ← symbolKind name
  match symbol with
  | some (id, kind) => pure [.pushCallable (quotedCallable id kind)]
  | none => do
    error .unknownSymbol location "unknown quoted BST symbol"
    pure []

def lowerIdentifier (name : Text) (location : SourceLocation) (current : Nat) :
    Compile (List Instruction) := do
  let found ← read fun compiler => compiler.declarations.lookup name
  match found with
  | none => do
    error .unknownSymbol location "unknown BST symbol"
    pure []
  | some id => do
    let symbol ← read fun compiler => compiler.declarations.symbols[id]?
    match symbol.map Symbol.kind with
    | none => pure []
    | some (.builtin builtin) => pure [.call (.builtin builtin)]
    | some (.userFunction function) =>
      if function = current then do
        error .illegalRecursion location "recursive BST function definition"
        pure []
      else pure [.call (.function function)]
    | some _ => pure [.read id]

def pushFunction (name : Text) : Compile Unit :=
  modify fun compiler =>
    { compiler with
      functions := compiler.functions ++ [{ name := name, instructions := [] }] }

def setFunction (id : Nat) (name : Text) (instructions : List Instruction) : Compile Unit :=
  modify fun compiler =>
    { compiler with
      functions := compiler.functions.set id { name := name, instructions := instructions } }

def functionCount : Compile Nat :=
  read fun compiler => compiler.functions.length

def functionsFull (limits : CompileLimits) (compiler : Compiler) : Bool :=
  decide (limits.functions ≤ compiler.functions.length)

/-- An anonymous function with a lowered body, or the current one at the limit. -/
def anonymous (lowered : Compile (List Instruction)) (current : Nat) : Compile Nat := do
  let id ← functionCount
  branch functionsFull
    (do
      error .limit { byte := 0, line := 1, column := 1 } "BST function limit exceeded"
      pure current)
    (do
      let index ← read fun compiler => compiler.anonymousPoolIndex
      tracePool (0x27 :: decimal index)
      modify fun compiler =>
        { compiler with anonymousPoolIndex := compiler.anonymousPoolIndex + 1 }
      pushFunction (anonymousName id)
      let instructions ← lowered
      setFunction id (anonymousName id) instructions
      pure id)

def chargeWork : Compile Unit :=
  modify fun compiler => { compiler with work := compiler.work + 1 }

/-- Lower the tokens of a body behind the instructions it has so far. Each step takes a token,
so the number of tokens is fuel enough. -/
def lowerBody : Nat → List Token → Nat → List Instruction → Compile (List Instruction)
  | 0, _, _, instructions => pure instructions
  | _ + 1, [], _, instructions => pure instructions
  | fuel + 1, token :: rest, current, instructions => do
    chargeWork
    branch
      (fun limits compiler => decide (limits.work < compiler.work) ||
        decide (limits.instructions ≤ instructions.length))
      (do
        error .limit token.location "BST instruction or work limit exceeded"
        pure instructions)
      (match token.kind with
      | .integer value => do
        tracePool (integerText value)
        lowerBody fuel rest current (instructions ++ [.pushInteger value])
      | .string value => do
        tracePool value
        let id ← addString value
        lowerBody fuel rest current (instructions ++ [.pushString id])
      | .quote =>
        match rest with
        | [] => do
          error .syntax_ token.location "quote requires a symbol"
          pure instructions
        | quoted :: after =>
          match quoted.kind with
          | .identifier name => do
            let lowered ← lowerQuoted name quoted.location
            lowerBody fuel after current (instructions ++ lowered)
          | .integer _ | .string _ | .quote | .openBrace | .closeBrace => do
            error .syntax_ quoted.location "quote requires an identifier"
            lowerBody fuel after current instructions
      | .identifier name => do
        let lowered ← lowerIdentifier name token.location current
        lowerBody fuel rest current (instructions ++ lowered)
      | .openBrace =>
        match closeOf 1 rest with
        | none => do
          error .syntax_ token.location "unterminated anonymous function"
          pure instructions
        | some count => do
          let id ← anonymous (lowerBody fuel (rest.take count) current []) current
          lowerBody fuel (rest.drop (count + 1)) current
            (instructions ++ [.pushCallable (.function id)])
      | .closeBrace => do
        error .syntax_ token.location "unexpected close brace in function"
        lowerBody fuel rest current instructions)

/-! ## Reallocations of the reference -/

structure Web2cSlots where
  slots : Nat
  capacity : Nat

def Web2cSlots.start : Web2cSlots :=
  { slots := 0, capacity := singleFunctionSpace }

def recordWeb2cSlot (state : Web2cSlots × Compiler) : Web2cSlots × Compiler :=
  if state.1.slots = state.1.capacity then
    ({ slots := state.1.slots + 1, capacity := state.1.capacity + singleFunctionSpace },
      { state.2 with
        web2cReallocations := state.2.web2cReallocations ++
          [{ array := "singl_function"
             elementSize := hashPtrSize
             oldCapacity := state.1.capacity
             newCapacity := state.1.capacity + singleFunctionSpace }] })
  else ({ state.1 with slots := state.1.slots + 1 }, state.2)

def growWeb2cWiz (slots : Nat) : Nat → Compiler → Compiler
  | 0, compiler => compiler
  | fuel + 1, compiler =>
    if compiler.web2cWizCapacity < compiler.web2cWizUsed + slots then
      growWeb2cWiz slots fuel
        { compiler with
          web2cReallocations := compiler.web2cReallocations ++
            [{ array := "wiz_functions"
               elementSize := hashPtrSize
               oldCapacity := compiler.web2cWizCapacity
               newCapacity := compiler.web2cWizCapacity + wizFunctionSpace }]
          web2cWizCapacity := compiler.web2cWizCapacity + wizFunctionSpace }
    else compiler

/-- The end of a body takes the last slot, and the slots go to the common array. -/
def finishWeb2cFunction (state : Web2cSlots × Compiler) : Compiler :=
  match recordWeb2cSlot state with
  | (local_, compiler) =>
    let grown := growWeb2cWiz local_.slots (compiler.web2cWizUsed + local_.slots) compiler
    { grown with web2cWizUsed := grown.web2cWizUsed + local_.slots }

def recordWeb2cBody : Nat → List Token → Web2cSlots × Compiler → Web2cSlots × Compiler
  | 0, _, state => state
  | _ + 1, [], state => state
  | fuel + 1, token :: rest, state =>
    match token.kind with
    | .quote => recordWeb2cBody fuel (rest.drop 1) (recordWeb2cSlot (recordWeb2cSlot state))
    | .openBrace =>
      match recordWeb2cSlot (recordWeb2cSlot state) with
      | (local_, compiler) =>
        match closeOf 1 rest with
        | some count =>
          recordWeb2cBody fuel (rest.drop (count + 1))
            (local_, finishWeb2cFunction
              (recordWeb2cBody fuel (rest.take count) (.start, compiler)))
        | none => recordWeb2cBody fuel rest (local_, compiler)
    | .closeBrace => recordWeb2cBody fuel rest state
    | .integer _ | .string _ | .identifier _ => recordWeb2cBody fuel rest (recordWeb2cSlot state)

def recordWeb2cFunction (body : List Token) : Compile Unit :=
  modify fun compiler =>
    finishWeb2cFunction (recordWeb2cBody body.length body (.start, compiler))

/-! ## Commands -/

def declare (name : Text) (kind : Declarations → SymbolKind) (location : SourceLocation)
    (add : Declarations → Nat → Declarations) : Compile Unit :=
  branch (fun limits compiler => decide (limits.symbols ≤ compiler.declarations.symbols.length))
    (error .limit location "BST symbol limit exceeded")
    (do
      let declarations ← read Compiler.declarations
      let inserted ← insertSymbol name (kind declarations)
      match inserted with
      | some id => do
        tracePool (fold name)
        modify fun compiler =>
          { compiler with declarations := add compiler.declarations id }
      | none => error .duplicateSymbol location "duplicate or shadowing BST symbol")

def declareAll (kind : Declarations → SymbolKind) (location : SourceLocation)
    (add : Declarations → Nat → Declarations) : List Text → Compile Unit
  | [] => pure ()
  | name :: rest => do
    declare name kind location add
    declareAll kind location add rest

def entry (location : SourceLocation) : Compile Unit := do
  let seen ← read fun compiler => compiler.entrySeen || compiler.readSeen
  if seen = true then error .phase location "ENTRY must occur once before READ"
  else do
    modify fun compiler => { compiler with entrySeen := true }
    let fields ← identifiersGroup
    let integers ← identifiersGroup
    let strings ← identifiersGroup
    declareAll (fun declarations => .entryField declarations.entryFields.length) location
      .addEntryField fields
    declareAll (fun declarations => .entryInteger declarations.entryIntegers.length) location
      .addEntryInteger integers
    declareAll (fun declarations => .entryString declarations.entryStrings.length) location
      .addEntryString strings

def variables_ (location : SourceLocation) (integer : Bool) : Compile Unit := do
  let names ← identifiersGroup
  if integer = true then
    declareAll (fun declarations => .globalInteger declarations.globalIntegers.length) location
      .addGlobalInteger names
  else
    declareAll (fun declarations => .globalString declarations.globalStrings.length) location
      .addGlobalString names

def macroCommand (location : SourceLocation) : Compile Unit := do
  let seen ← read Compiler.readSeen
  if seen = true then error .phase location "MACRO must precede READ"
  else do
    let name ← oneIdentifierGroup
    match name with
    | none => recover
    | some name => do
      let value ← oneStringGroup
      match value with
      | none => recover
      | some value => do
        tracePool value
        let id ← addString value
        declare name (fun _ => .stringMacro id) location fun declarations _ => declarations

def function (location : SourceLocation) : Compile Unit := do
  let name ← oneIdentifierGroup
  match name with
  | none => recover
  | some name => do
    let shadowed ← read fun compiler => (compiler.declarations.lookup name).isSome
    if shadowed = true then do
      error .shadowing location "function shadows an existing BST symbol"
      skipGroup
    else
      branch functionsFull
        (do
          error .limit location "BST function limit exceeded"
          skipGroup)
        (do
          let id ← functionCount
          let inserted ← insertSymbol name (.userFunction id)
          match inserted with
          | none => do
            error .duplicateSymbol location "duplicate BST function"
            skipGroup
          | some _ => do
            tracePool (fold name)
            let body ← group
            recordWeb2cFunction body
            pushFunction name
            let instructions ← lowerBody body.length body id []
            setFunction id name instructions)

def pushCommand (command : CompiledCommand) (location : SourceLocation) : Compile Unit :=
  modify fun compiler =>
    { compiler with
      commands := compiler.commands ++ [command]
      commandLocations := compiler.commandLocations ++ [location] }

def read_ (location : SourceLocation) : Compile Unit := do
  let compiler ← read id
  if compiler.readSeen = true then error .phase location "READ may occur only once"
  else if compiler.entrySeen = false then error .phase location "READ requires ENTRY first"
  else do
    modify fun compiler => { compiler with readSeen := true }
    pushCommand .read location

def callable (name : Text) (location : SourceLocation) : Compile (Option Callable) := do
  let symbol ← symbolKind name
  match symbol with
  | some (_, .userFunction function) => pure (some (.function function))
  | some (_, .builtin builtin) => pure (some (.builtin builtin))
  | some _ => do
    error .syntax_ location "command requires a callable BST function"
    pure none
  | none => do
    error .unknownSymbol location "unknown BST function"
    pure none

def invoke (location : SourceLocation) (command : Callable → CompiledCommand) :
    Compile Unit := do
  let seen ← read Compiler.readSeen
  if seen = false then error .phase location "execution commands require READ first"
  else do
    let name ← oneIdentifierGroup
    match name with
    | none => recover
    | some name => do
      let called ← callable name location
      match called with
      | none => pure ()
      | some called => pushCommand (command called) location

def sort (location : SourceLocation) : Compile Unit := do
  let seen ← read Compiler.readSeen
  if seen = false then error .phase location "SORT requires READ first"
  else pushCommand .sort location

def command (name : Text) (location : SourceLocation) : Compile Unit :=
  if name = ascii "entry" then entry location
  else if name = ascii "integers" then variables_ location true
  else if name = ascii "strings" then variables_ location false
  else if name = ascii "macro" then macroCommand location
  else if name = ascii "function" then function location
  else if name = ascii "read" then read_ location
  else if name = ascii "execute" then invoke location .execute
  else if name = ascii "iterate" then invoke location .iterate
  else if name = ascii "reverse" then invoke location .reverse
  else if name = ascii "sort" then sort location
  else do
    error .unknownCommand location "unknown BST command"
    recover

def parseCommand : Compile Unit := do
  let found ← identifier
  match found with
  | none => do
    errorHere .unknownCommand "expected BST command"
    recover
  | some (name, location) => command (fold name) location

def parseLoop : Nat → Compile Unit
  | 0 => pure ()
  | fuel + 1 => do
    let compiler ← read id
    if compiler.tokens.length ≤ compiler.at_ then pure ()
    else do
      let limited ← atLimit
      if limited = true then pure ()
      else do
        parseCommand
        parseLoop fuel

def parse : Compile Unit := fun limits compiler =>
  parseLoop (limits.work + 1) limits compiler

/-! ## The result -/

def instructionCount (functions : List CompiledFunction) : Nat :=
  (functions.flatMap CompiledFunction.instructions).length

def charge (layout : Layout) (compiler : Compiler) : ProgramCharge :=
  { sourceBytes := compiler.sourceBytes
    tokens := compiler.tokens.length
    nesting := compiler.nesting
    symbols := compiler.declarations.symbols.length
    functions := compiler.functions.length
    instructions := instructionCount compiler.functions
    work := compiler.work
    retainedBytes := compiler.sourceBytes +
      instructionCount compiler.functions * layout.instruction +
      (compiler.declarations.strings.flatMap id).length +
      compiler.web2cReallocations.length * layout.web2cReallocation }

def program (layout : Layout) (compiler : Compiler) : CompiledStyle :=
  { declarations := compiler.declarations
    functions := compiler.functions
    commands := compiler.commands
    commandLocations := compiler.commandLocations
    charge := charge layout compiler
    poolTrace := compiler.poolTrace
    web2cReallocations := compiler.web2cReallocations }

def finish (layout : Layout) (limits : CompileLimits) (compiler : Compiler) : CompileResult :=
  let charged := charge layout compiler
  let reported :=
    if charged.fits limits = true then compiler
    else
      (error .limit { byte := compiler.sourceBytes, line := 1, column := 1 }
        "compiled BST exceeds active limits" limits compiler).2
  { program :=
      if compiler.diagnostics = [] ∧ charged.fits limits = true then
        some (program layout compiler)
      else none
    diagnostics := reported.diagnostics
    stats :=
      { cacheHit := false
        tokens := charged.tokens
        nesting := charged.nesting
        work := charged.work } }

def run (bytes : List UInt8) : Compile Unit := do
  scan bytes
  parse

end Compile

def compile (layout : Layout) (bytes : List UInt8) (limits : CompileLimits) : CompileResult :=
  if limits.bytes < bytes.length then
    { program := none
      diagnostics :=
        [{ kind := .limit
           location := { byte := 0, line := 1, column := 1 }
           message := "BST byte limit exceeded" }]
      stats := { cacheHit := false, tokens := 0, nesting := 0, work := 0 } }
  else
    Compile.finish layout limits (Compile.run bytes limits (.new bytes.length)).2

end Umber.Bib
