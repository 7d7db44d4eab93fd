/-! The text functions of the style machine: classic text units, prefixes, slices. Positions count
characters, where the source's count bytes: none of these lies inside a character. -/

set_option autoImplicit false

namespace Umber.Classic

structure TextUnit where
  last : Nat
  deriving DecidableEq

/-- The units of a text from a position on. Inside a group that is read as one unit the depth is
that of its braces; elsewhere it is zero. -/
def textUnitsFrom : Nat → Nat → List Char → List TextUnit
  | 0, _, [] => []
  | 0, position, '{' :: '\\' :: rest => textUnitsFrom 1 (position + 2) rest
  | 0, position, character :: rest =>
    if character = '{' ∨ character = '}' then textUnitsFrom 0 (position + 1) rest
    else { last := position + 1 } :: textUnitsFrom 0 (position + 1) rest
  | _ + 1, position, [] => [{ last := position }]
  | depth + 1, position, character :: rest =>
    if character = '{' then textUnitsFrom (depth + 2) (position + 1) rest
    else if character = '}' then
      match depth with
      | 0 => { last := position + 1 } :: textUnitsFrom 0 (position + 1) rest
      | depth + 1 => textUnitsFrom (depth + 1) (position + 1) rest
    else textUnitsFrom (depth + 1) (position + 1) rest

def classicTextUnits (value : List Char) : List TextUnit :=
  textUnitsFrom 0 0 value

def textLength (value : List Char) : Nat :=
  (classicTextUnits value).length

/-- The depth of braces behind a text, where a brace that closes none is passed over. -/
def braceDepth : Nat → List Char → Nat
  | depth, [] => depth
  | depth, character :: rest =>
    if character = '{' then braceDepth (depth + 1) rest
    else if character = '}' then braceDepth (depth - 1) rest
    else braceDepth depth rest

def classicTextPrefix (value : List Char) (count : Int64) : List Char :=
  if count.toInt ≤ 0 then []
  else
    let last := match (classicTextUnits value)[count.toInt.toNat - 1]? with
      | some unit => unit.last
      | none => value.length
    let kept := value.take last
    kept ++ List.replicate (braceDepth 0 kept) '}'

def checked128 (number : Int) : Option Int :=
  if -170141183460469231731687303715884105728 ≤ number ∧
      number < 170141183460469231731687303715884105728 then some number else none

def classicSubstring (value : List Char) (start count : Int64) : Option (List Char) :=
  if count.toInt ≤ 0 ∨ start.toInt = 0 then some []
  else do
    let length ← checked128 value.length
    let count := count.toInt
    let start := start.toInt
    if count ≥ length ∧ (start = 1 ∨ start = -1) then some value
    else
      let lowest ← checked128 (-length)
      if start > length ∨ start < lowest then some []
      else if start > 0 then
        let first ← checked128 (start - 1)
        let available ← checked128 (length - first)
        some ((value.drop first.toNat).take (min count available).toNat)
      else
        let sum ← checked128 (length + start)
        let last ← checked128 (sum + 1)
        let first ← checked128 (last - min count last)
        some ((value.drop first.toNat).take (min count last).toNat)

end Umber.Classic
