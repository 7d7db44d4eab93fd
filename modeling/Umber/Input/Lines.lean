import Mathlib.Data.List.DropRight
import Umber.Lib.Utf8

/-! Physical-line splitting and line normalization of one registered source,
and the order in which its characters and line ends reach the tokenizer. -/

set_option autoImplicit false

namespace Umber.Input

def space : UInt8 := 32
def lineFeed : UInt8 := 10
def carriageReturn : UInt8 := 13

inductive CharacterMode where
  | eightBitExact
  | unicodeExtended

/-- A character code of the exact-byte domain or of the Unicode-scalar domain. -/
inductive CharacterCode where
  | byte (value : Nat)
  | scalar (value : Nat)
  deriving DecidableEq

structure RegisteredSource where
  mode : CharacterMode
  bytes : List UInt8
  wellFormed : mode = .unicodeExtended → Utf8.Valid bytes

inductive LineTerminator where
  | missing
  | lf
  | cr
  | crLf

inductive LexerState where
  | newLine
  | midLine
  | skipBlanks

structure PhysicalLine where
  number : Nat
  contentStart : Nat
  contentEnd : Nat
  terminatorEnd : Nat
  terminatorKind : LineTerminator

structure SourceLexCursor where
  byteCursor : Nat
  scalarCursor : Nat
  lexerState : LexerState
  endlineDelivered : Bool

structure SourceLineState where
  physical : PhysicalLine
  retainedEnd : Nat
  endline : Option CharacterCode
  cursor : SourceLexCursor

structure SourceCharacter where
  code : CharacterCode
  start : Nat
  stop : Nat
  scalarOffset : Nat
  synthetic : Bool

structure SourceCursor where
  backing : RegisteredSource
  pendingAcquiredLine : Bool
  nextPhysicalOffset : Nat
  nextLineNumber : Nat
  line : Option SourceLineState
  endAfterLine : Bool

namespace SourceCursor

def new (backing : RegisteredSource) : SourceCursor where
  backing := backing
  pendingAcquiredLine := false
  nextPhysicalOffset := 0
  nextLineNumber := 1
  line := none
  endAfterLine := false

end SourceCursor

/-- The character at the front of a source tail, with its width in bytes. -/
def CharacterMode.decode (mode : CharacterMode) (bytes : List UInt8) :
    Option (CharacterCode × Nat) :=
  match mode with
  | .eightBitExact => bytes.head?.map fun byte => (.byte byte.toNat, 1)
  | .unicodeExtended => (Utf8.decode bytes).map fun (scalar, width) => (.scalar scalar, width)

def decodeWithin (mode : CharacterMode) : Nat → List UInt8 → List CharacterCode
  | 0, _ => []
  | fuel + 1, bytes =>
    match mode.decode bytes with
    | none => []
    | some (code, width) => code :: decodeWithin mode fuel (bytes.drop width)

def decodeText (mode : CharacterMode) (bytes : List UInt8) : List CharacterCode :=
  decodeWithin mode bytes.length bytes

namespace SourceLineState

/-- The next character of a loaded line. A decoding failure is impossible on a
well-formed backing; the source text panics there. -/
def nextCharacterFrom (line : SourceLineState) (cursor : SourceLexCursor)
    (mode : CharacterMode) (bytes : List UInt8) :
    Option SourceCharacter × SourceLexCursor :=
  if cursor.byteCursor < line.retainedEnd then
    match mode.decode (bytes.drop cursor.byteCursor) with
    | none => (none, cursor)
    | some (code, width) =>
      (some
        { code := code
          start := cursor.byteCursor
          stop := cursor.byteCursor + width
          scalarOffset := cursor.scalarCursor
          synthetic := false },
        { cursor with
          byteCursor := cursor.byteCursor + width
          scalarCursor := cursor.scalarCursor + 1 })
  else if cursor.endlineDelivered then
    (none, cursor)
  else
    match line.endline with
    | none => (none, { cursor with endlineDelivered := true })
    | some code =>
      (some
        { code := code
          start := line.retainedEnd
          stop := line.retainedEnd
          scalarOffset := cursor.scalarCursor
          synthetic := true },
        { cursor with endlineDelivered := true, scalarCursor := cursor.scalarCursor + 1 })

def nextCharacter (line : SourceLineState) (mode : CharacterMode) (bytes : List UInt8) :
    Option SourceCharacter × SourceLineState :=
  let (character, cursor) := line.nextCharacterFrom line.cursor mode bytes
  (character, { line with cursor := cursor })

def skipRestOfLine (line : SourceLineState) : SourceLineState :=
  { line with cursor :=
    { line.cursor with byteCursor := line.retainedEnd, endlineDelivered := true } }

/-- All the characters of a line, its end-of-line character the last. -/
def characters (line : SourceLineState) (mode : CharacterMode) (bytes : List UInt8) :
    List CharacterCode :=
  decodeText mode ((bytes.take line.retainedEnd).drop line.physical.contentStart) ++
    line.endline.toList

end SourceLineState

def isUnicodeScalar (value : Nat) : Bool :=
  value < 0xD800 || (0xDFFF < value && value < 0x110000)

def endlineCharacter (mode : CharacterMode) (endlinechar : Int) : Option CharacterCode :=
  match mode with
  | .eightBitExact =>
    if 0 ≤ endlinechar ∧ endlinechar ≤ 255 then some (.byte endlinechar.toNat) else none
  | .unicodeExtended =>
    if 0 ≤ endlinechar ∧ isUnicodeScalar endlinechar.toNat then
      some (.scalar endlinechar.toNat)
    else none

def isTerminatorByte (byte : UInt8) : Bool :=
  byte == carriageReturn || byte == lineFeed

/-- The bytes of a tail before its first terminator, the terminator that ends
them and its width. -/
def splitTail (tail : List UInt8) : List UInt8 × LineTerminator × Nat :=
  let content := tail.takeWhile (!isTerminatorByte ·)
  match tail.drop content.length with
  | [] => (content, .missing, 0)
  | byte :: rest =>
    if byte = carriageReturn then
      if rest.head? = some lineFeed then (content, .crLf, 2) else (content, .cr, 1)
    else (content, .lf, 1)

def stripSpaces (content : List UInt8) : List UInt8 :=
  content.rdropWhile (· == space)

namespace SourceCursor

/-- Loads the next physical line. `none` means that no line is left. -/
def loadNextLine (cursor : SourceCursor) (endlinechar : Int) : Option SourceCursor :=
  if cursor.line.isSome then
    some cursor
  else
    let bytes := cursor.backing.bytes
    if bytes.length ≤ cursor.nextPhysicalOffset ∧ cursor.pendingAcquiredLine = false then
      none
    else
      let start := cursor.nextPhysicalOffset
      let (content, terminatorKind, terminatorWidth) := splitTail (bytes.drop start)
      let contentEnd := start + content.length
      let terminatorEnd := contentEnd + terminatorWidth
      some
        { backing := cursor.backing
          pendingAcquiredLine := false
          nextPhysicalOffset := terminatorEnd
          nextLineNumber := cursor.nextLineNumber + 1
          line := some
            { physical :=
                { number := cursor.nextLineNumber
                  contentStart := start
                  contentEnd := contentEnd
                  terminatorEnd := terminatorEnd
                  terminatorKind := terminatorKind }
              retainedEnd := start + (stripSpaces content).length
              endline := endlineCharacter cursor.backing.mode endlinechar
              cursor :=
                { byteCursor := start
                  scalarCursor := 0
                  lexerState := .newLine
                  endlineDelivered := false } }
          endAfterLine := terminatorEnd == bytes.length }

end SourceCursor

/-- What the engine state contributes while a source is read: `\endlinechar`
when a line is loaded, whether `\endinput` was met by the end of a line, and the
place of the character of a line, a comment character, with which the tokenizer
leaves it; a place past the last one if it reads all of the line. -/
structure LineControls where
  endlinechar : Nat → Int
  forceEof : Nat → Bool
  leaves : Nat → List CharacterCode → Nat

inductive SourceEvent where
  | line (number : Nat)
  | character (code : CharacterCode)
  deriving DecidableEq

/-- A character delivered to the tokenizer, and the line as it leaves it. -/
def SourceLineState.takeCharacter (controls : LineControls) (line : SourceLineState)
    (mode : CharacterMode) (bytes : List UInt8) : Option SourceCharacter × SourceLineState :=
  match line.nextCharacter mode bytes with
  | (none, next) => (none, next)
  | (some character, next) =>
    (some character,
      if controls.leaves line.physical.number (line.characters mode bytes) ≤
        character.scalarOffset then next.skipRestOfLine else next)

namespace SourceCursor

def needLine (controls : LineControls) (cursor : SourceCursor) :
    Option (SourceEvent × SourceCursor) :=
  let released := { cursor with line := none }
  (released.loadNextLine (controls.endlinechar cursor.nextLineNumber)).map
    fun loaded => (.line cursor.nextLineNumber, loaded)

/-- One delivery to the tokenizer; `none` is the end of the source. -/
def pull (controls : LineControls) (cursor : SourceCursor) :
    Option (SourceEvent × SourceCursor) :=
  match cursor.line with
  | none => needLine controls cursor
  | some line =>
    match line.takeCharacter controls cursor.backing.mode cursor.backing.bytes with
    | (some character, line) => some (.character character.code, { cursor with line := some line })
    | (none, _) =>
      if controls.forceEof line.physical.number ||
          (cursor.endAfterLine && !cursor.pendingAcquiredLine) then
        none
      else needLine controls cursor

/-- Everything the source still delivers within a number of deliveries. -/
def drain (controls : LineControls) : Nat → SourceCursor → List SourceEvent
  | 0, _ => []
  | fuel + 1, cursor =>
    match cursor.pull controls with
    | none => []
    | some (event, next) => event :: drain controls fuel next

def lineBudget (cursor : SourceCursor) : Nat :=
  match cursor.line with
  | none => 0
  | some line =>
    (line.retainedEnd - line.cursor.byteCursor) + (if line.cursor.endlineDelivered then 0 else 1)

/-- A bound on the deliveries left; see `pull_budget`. -/
def budget (cursor : SourceCursor) : Nat :=
  3 * (cursor.backing.bytes.length - cursor.nextPhysicalOffset) +
    (if cursor.pendingAcquiredLine then 2 else 0) + cursor.lineBudget

def deliver (controls : LineControls) (cursor : SourceCursor) : List SourceEvent :=
  cursor.drain controls (cursor.budget + 1)

end SourceCursor

/-- The states a source passes through while it is read, with what it has
delivered so far. -/
inductive Reads (controls : LineControls) (backing : RegisteredSource) :
    List SourceEvent → SourceCursor → Prop where
  | start : Reads controls backing [] (SourceCursor.new backing)
  | pull {events : List SourceEvent} {event : SourceEvent} {cursor next : SourceCursor} :
      Reads controls backing events cursor →
      cursor.pull controls = some (event, next) →
      Reads controls backing (events ++ [event]) next

end Umber.Input
