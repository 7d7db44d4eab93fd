/-! Texts as lists of characters: space, trimming, splitting, words. -/

set_option autoImplicit false

namespace Chars

def isWhiteSpace (character : Char) : Bool :=
  let scalar := character.toNat
  (9 ≤ scalar && scalar ≤ 13) || scalar == 0x20 || scalar == 0x85 || scalar == 0xA0 ||
    scalar == 0x1680 || (0x2000 ≤ scalar && scalar ≤ 0x200A) || scalar == 0x2028 ||
    scalar == 0x2029 || scalar == 0x202F || scalar == 0x205F || scalar == 0x3000

def trimStart (text : List Char) : List Char :=
  text.dropWhile isWhiteSpace

def trim (text : List Char) : List Char :=
  (trimStart (trimStart text).reverse).reverse

def splitAt (separator : Char) : List Char → List (List Char)
  | [] => [[]]
  | character :: rest =>
    match splitAt separator rest with
    | [] => [[character]]
    | part :: parts =>
      if character = separator then [] :: part :: parts else (character :: part) :: parts

/-- The words of a text that starts in a word, whose characters come in reverse. -/
def wordsFrom : List Char → List Char → List (List Char)
  | [], [] => []
  | word, [] => [word.reverse]
  | [], character :: rest =>
    if isWhiteSpace character then wordsFrom [] rest else wordsFrom [character] rest
  | word, character :: rest =>
    if isWhiteSpace character then word.reverse :: wordsFrom [] rest
    else wordsFrom (character :: word) rest

def words (text : List Char) : List (List Char) :=
  wordsFrom [] text

end Chars
