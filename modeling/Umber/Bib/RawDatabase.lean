import Umber.Lib.Utf8

/-! Raw bibliography databases: records with their source spelling and their places in the
bytes they were read from. Texts are lists of UTF-8 bytes. -/

set_option autoImplicit false

namespace Umber.Bib

abbrev Text := List UInt8

structure BibTexLimits where
  maxBytes : Nat
  maxEntries : Nat
  maxFieldsPerEntry : Nat
  maxMacros : Nat
  maxValueBytes : Nat
  maxNesting : Nat
  maxWork : Nat
  maxDiagnostics : Nat

def BibTexLimits.default : BibTexLimits :=
  { maxBytes := 16777216
    maxEntries := 100000
    maxFieldsPerEntry := 1000
    maxMacros := 10000
    maxValueBytes := 1048576
    maxNesting := 256
    maxWork := 67108864
    maxDiagnostics := 1000 }

inductive LegacyEncoding where
  | utf8
  | latin1
  | latin2
  | latin3
  | macRoman
deriving DecidableEq

structure BibTexOptions where
  encoding : LegacyEncoding
  limits : BibTexLimits

inductive BibTexDiagnosticKind where
  | encoding
  | syntax_
  | undefinedMacro
  | duplicateEntry
  | caseCollision
  | duplicateField
  | limit

inductive BibTexMessage where
  | text (message : String)
  | entryCollides (key previous : Text)
  | duplicateField (name key : Text)

structure BibTexDiagnostic where
  kind : BibTexDiagnosticKind
  offset : Nat
  message : BibTexMessage

structure RawBibLocation where
  byteStart : Nat
  byteEnd : Nat
  line : Nat
  column : Nat

structure RawBibIdentifier where
  source : Text
  folded : Text
  location : RawBibLocation

structure RawBibControlSequence where
  source : Text
  location : RawBibLocation

structure RawBibText where
  source : Text
  location : RawBibLocation
  controls : List RawBibControlSequence

inductive RawBibValuePart where
  | braced (text : RawBibText)
  | quoted (text : RawBibText)
  | number (text : RawBibText)
  | macro_ (name : RawBibIdentifier)

structure RawBibValue where
  parts : List RawBibValuePart
  location : RawBibLocation

structure RawBibField where
  name : RawBibIdentifier
  value : RawBibValue
  location : RawBibLocation

inductive RawBibRecord where
  | entry (entryType key : RawBibIdentifier) (fields : List RawBibField)
      (location : RawBibLocation)
  | string (name : RawBibIdentifier) (value : RawBibValue) (location : RawBibLocation)
  | preamble (value : RawBibValue) (location : RawBibLocation)
  | comment (value : RawBibText) (location : RawBibLocation)
  | recovery (location : RawBibLocation)

namespace RawBibRecord

def location : RawBibRecord → RawBibLocation
  | .entry _ _ _ location | .string _ _ location | .preamble _ location
  | .comment _ location | .recovery location => location

def isEntry : RawBibRecord → Bool
  | .entry _ _ _ _ => true
  | .string _ _ _ | .preamble _ _ | .comment _ _ | .recovery _ => false

def isString : RawBibRecord → Bool
  | .string _ _ _ => true
  | .entry _ _ _ _ | .preamble _ _ | .comment _ _ | .recovery _ => false

def parts : RawBibRecord → List RawBibValuePart
  | .entry _ _ fields _ => fields.flatMap fun field => field.value.parts
  | .string _ value _ | .preamble value _ => value.parts
  | .comment _ _ | .recovery _ => []

end RawBibRecord

structure RawBibDatabase where
  records : List RawBibRecord
  diagnostics : List BibTexDiagnostic
  options : BibTexOptions

/-! ## Bytes and texts -/

def isAsciiWhitespace (byte : UInt8) : Bool :=
  byte == 0x20 || byte == 0x09 || byte == 0x0A || byte == 0x0C || byte == 0x0D

def isAsciiDigit (byte : UInt8) : Bool :=
  0x30 ≤ byte.toNat && byte.toNat ≤ 0x39

def isAsciiUppercase (byte : UInt8) : Bool :=
  0x41 ≤ byte.toNat && byte.toNat ≤ 0x5A

def isAsciiAlphabetic (byte : UInt8) : Bool :=
  isAsciiUppercase byte || (0x61 ≤ byte.toNat && byte.toNat ≤ 0x7A)

def toAsciiLowercase (text : Text) : Text :=
  text.map fun byte => if isAsciiUppercase byte = true then byte + 0x20 else byte

def scalars : Nat → Text → List (Nat × Text)
  | 0, _ => []
  | fuel + 1, text =>
    match Utf8.decode text with
    | none => []
    | some (scalar, width) => (scalar, text.take width) :: scalars fuel (text.drop width)

def isWhitespace (scalar : Nat) : Bool :=
  (0x09 ≤ scalar && scalar ≤ 0x0D) || scalar == 0x20 || scalar == 0x85 || scalar == 0xA0 ||
    scalar == 0x1680 || (0x2000 ≤ scalar && scalar ≤ 0x200A) || scalar == 0x2028 ||
    scalar == 0x2029 || scalar == 0x202F || scalar == 0x205F || scalar == 0x3000

def trimStart (text : Text) : Text :=
  ((scalars text.length text).dropWhile fun piece => isWhitespace piece.1).flatMap Prod.snd

def trim (text : Text) : Text :=
  (((scalars text.length text).dropWhile fun piece => isWhitespace piece.1).reverse.dropWhile
    fun piece => isWhitespace piece.1).reverse.flatMap Prod.snd

def afterLastNewline (text : Text) : Option Text :=
  if text.contains 0x0A then some (text.reverse.takeWhile fun byte => byte != 0x0A).reverse
  else none

/-- Whether a text may be cut at a place: not inside an encoded scalar. -/
def isCharBoundary (text : Text) (index : Nat) : Bool :=
  index == 0 ||
    match text[index]? with
    | none => index == text.length
    | some byte => !Utf8.isContinuation byte

/-- A text was cut where it may not be, or a loop ran longer than its fuel. -/
inductive Stop where
  | badSlice (text : Text) (first last : Nat)
  | outOfFuel
deriving DecidableEq

abbrev Checked (α : Type) := Except Stop α

def slice (text : Text) (first last : Nat) : Checked Text :=
  if first ≤ last ∧ isCharBoundary text first = true ∧ isCharBoundary text last = true then
    .ok ((text.drop first).take (last - first))
  else .error (.badSlice text first last)

end Umber.Bib
