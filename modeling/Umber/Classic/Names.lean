import Umber.Lib.Chars

/-! Names of the style machine: splitting a list of names, the parts of one, and formatting it. -/

set_option autoImplicit false

namespace Umber.Classic

open Chars (trim splitAt)

structure BibName where
  first : List (List Char) := []
  von : List (List Char) := []
  last : List (List Char) := []
  jr : List (List Char) := []

def isAsciiAlphabetic (character : Char) : Bool :=
  let scalar := character.toNat
  (65 ≤ scalar && scalar ≤ 90) || (97 ≤ scalar && scalar ≤ 122)

def isAsciiLowercase (character : Char) : Bool :=
  let scalar := character.toNat
  97 ≤ scalar && scalar ≤ 122

def nameWords (value : List Char) : List (List Char) :=
  Chars.words value

def startsLower (value : List Char) : Bool :=
  ((value.find? isAsciiAlphabetic).map isAsciiLowercase).getD false

def BibName.ofWords (words : List (List Char)) : BibName :=
  let split := (words.findIdx? startsLower).getD words.length
  let lastStart :=
    if split = words.length then split - 1
    else
      match (words.drop split).findIdx? fun word => !startsLower word with
      | none => words.length - 1
      | some offset => split + offset
  let vonStart := min split lastStart
  { first := words.take vonStart
    von := (words.take lastStart).drop vonStart
    last := words.drop lastStart }

def BibName.parse (value : List Char) : BibName :=
  match (splitAt ',' value).map nameWords with
  | [last, first] => { last, first }
  | last :: jr :: first :: _ => { last, jr, first }
  | _ => .ofWords (nameWords value)

def matchingCloseFrom : Nat → Nat → List Char → Option Nat
  | _, _, [] => none
  | depth, offset, character :: rest =>
    if character = '{' then matchingCloseFrom (depth + 1) (offset + 1) rest
    else if character = '}' then
      match depth with
      | 0 => none
      | 1 => some offset
      | depth + 2 => matchingCloseFrom (depth + 1) (offset + 1) rest
    else matchingCloseFrom depth (offset + 1) rest

def matchingCloseBrace (value : List Char) : Option Nat :=
  matchingCloseFrom 0 0 value

def isPartKey (character : Char) : Bool :=
  character == 'f' || character == 'v' || character == 'l' || character == 'j'

def BibName.part (parts : BibName) (key : Char) : List (List Char) :=
  if key = 'f' then parts.first
  else if key = 'v' then parts.von
  else if key = 'l' then parts.last
  else parts.jr

/-- Whether a format still has a part that the name has, with the characters of the current group
still to pass. -/
def hasFollowingFrom (parts : BibName) : Nat → List Char → Bool
  | _, [] => false
  | skipped + 1, _ :: rest => hasFollowingFrom parts skipped rest
  | 0, character :: rest =>
    if character ≠ '{' then hasFollowingFrom parts 0 rest
    else
      match matchingCloseBrace (character :: rest) with
      | none => false
      | some close =>
        match (rest.take (close - 1)).find? isPartKey with
        | some key =>
          if (parts.part key).isEmpty then hasFollowingFrom parts close rest else true
        | none => hasFollowingFrom parts close rest

def hasFollowingNamePart (format : List Char) (parts : BibName) : Bool :=
  hasFollowingFrom parts 0 format

/-- The parts of a word between hyphens outside of groups, with the current one in reverse. -/
def segmentsFrom : Nat → List Char → List Char → List (List Char)
  | _, segment, [] => [segment.reverse]
  | depth, segment, character :: rest =>
    if character = '{' then segmentsFrom (depth + 1) (character :: segment) rest
    else if character = '}' then segmentsFrom (depth - 1) (character :: segment) rest
    else if character = '-' ∧ depth = 0 then segment.reverse :: segmentsFrom depth [] rest
    else segmentsFrom depth (character :: segment) rest

def splitNameWordSegments (word : List Char) : List (List Char) :=
  segmentsFrom 0 [] word

def initialGroupFrom : Nat → Nat → List Char → Option Nat
  | _, _, [] => none
  | depth, offset, character :: rest =>
    if character = '{' then initialGroupFrom (depth + 1) (offset + 1) rest
    else if character = '}' then
      if depth - 1 = 0 then some (offset + 1)
      else initialGroupFrom (depth - 1) (offset + 1) rest
    else initialGroupFrom depth (offset + 1) rest

def initialBracedGroup (segment : List Char) : Option (List Char) :=
  match segment with
  | '{' :: _ =>
    match initialGroupFrom 0 0 segment with
    | some width => some (segment.take width)
    | none => some segment
  | _ => none

def segmentInitial (segment : List Char) : List Char :=
  match initialBracedGroup segment with
  | some group => group
  | none => segment.take 1

def abbreviatedNameWord (word : List Char) : List Char :=
  (".-".toList).intercalate ((splitNameWordSegments word).map segmentInitial)

def afterKey (key : Char) (pattern : List Char) : List Char :=
  (pattern.reverse.takeWhile fun character => character != key).reverse

/-- The separator of words that a pattern gives in a group of its own, and the rest of it. -/
def patternSeparator (rawAfter : List Char) : Option (List Char) × List Char :=
  match rawAfter with
  | '{' :: rest =>
    match matchingCloseBrace rawAfter with
    | some close => (some (rest.take (close - 1)), rest.drop close)
    | none => (none, rawAfter)
  | _ => (none, rawAfter)

def wordJoint (separator : Option (List Char)) (consumeTie abbreviated : Bool)
    (after afterWithoutTie : List Char) : List Char :=
  match separator with
  | some separator => separator
  | none =>
    if consumeTie then
      (if abbreviated && afterWithoutTie.getLast? != some '.' then ['.'] else []) ++ after
    else if abbreviated then ['.', '~']
    else [' ']

def formatNameWords (words : List (List Char)) (abbreviated : Bool) (pattern : List Char)
    (key : Char) (hasFollowingPart : Bool) : List Char :=
  let before := pattern.takeWhile fun character => !isPartKey character
  let (separator, after) := patternSeparator (afterKey key pattern)
  let consumeTie :=
    separator.isNone && after.getLast? == some '~' && words.length > 1 && hasFollowingPart
  let afterWithoutTie := if consumeTie then after.dropLast else after
  let joint := wordJoint separator consumeTie abbreviated after afterWithoutTie
  let spelled := words.map fun word => if abbreviated then abbreviatedNameWord word else word
  before ++ joint.intercalate spelled ++
    (if !consumeTie then after
    else if hasFollowingPart then afterWithoutTie ++ [' ']
    else [])

def bytesAsChars (character : Char) : List Char :=
  (String.utf8EncodeChar character).map fun byte => Char.ofNat byte.toNat

def formatGroup (parts : BibName) (pattern following : List Char) : List Char :=
  match pattern.find? isPartKey with
  | none => pattern
  | some key =>
    let words := parts.part key
    if words.isEmpty then []
    else
      formatNameWords words (pattern.count key == 1) pattern key
        (hasFollowingNamePart following parts)

/-- The formatted name from a place of the format on, with the characters of the current group
still to pass. -/
def formatFrom (parts : BibName) : Nat → List Char → List Char
  | _, [] => []
  | skipped + 1, _ :: rest => formatFrom parts skipped rest
  | 0, character :: rest =>
    if character ≠ '{' then bytesAsChars character ++ formatFrom parts 0 rest
    else
      match matchingCloseBrace (character :: rest) with
      | none => '{' :: formatFrom parts 0 rest
      | some close =>
        formatGroup parts (rest.take (close - 1)) (rest.drop close) ++
          formatFrom parts close rest

def formatBibName (name format : List Char) : List Char :=
  formatFrom (.parse name) 0 format

end Umber.Classic
