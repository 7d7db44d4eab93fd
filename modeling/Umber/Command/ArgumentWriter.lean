import Umber.Command.Token

/-! The lane of argument words and its writer. A delimiter candidate is written ahead
behind the visible argument, and is later revealed or truncated. -/

set_option autoImplicit false

namespace Umber.Command

structure ScannerCursor where
  braceDepth : Nat
  wordCount : Nat
  rejectsNonLongParagraph : Bool
  outerGroupCandidate : Bool

namespace ScannerCursor

def start : ScannerCursor :=
  { braceDepth := 0
    wordCount := 0
    rejectsNonLongParagraph := false
    outerGroupCandidate := false }

def removableOuterGroup (cursor : ScannerCursor) : Bool :=
  cursor.outerGroupCandidate && cursor.braceDepth == 0

def settleArgumentWord (cursor : ScannerCursor) (word : TokenWord) (paragraph : Bool) :
    ScannerCursor :=
  { braceDepth :=
      if word.isBeginGroup = true then cursor.braceDepth + 1
      else if word.isEndGroup = true then cursor.braceDepth - 1
      else cursor.braceDepth
    wordCount := cursor.wordCount + 1
    rejectsNonLongParagraph := cursor.rejectsNonLongParagraph || paragraph
    outerGroupCandidate :=
      if cursor.wordCount = 0 then word.isBeginGroup
      else if cursor.braceDepth = 0 then false
      else cursor.outerGroupCandidate }

def settleWords (cursor : ScannerCursor) (words : List TokenWord) : ScannerCursor :=
  words.foldl (fun cursor word => cursor.settleArgumentWord word false) cursor

end ScannerCursor

inductive ScratchError where
  | invalidCoordinate

structure MacroArgumentWriter where
  start : Nat
  visibleEnd : Nat
  cursor : ScannerCursor
  endTrim : Nat
  holdbackStart : Nat
  holdbackLen : Nat

structure ArgumentScratch where
  macroWords : List TokenWord
  writer : MacroArgumentWriter

namespace ArgumentScratch

def beginArgumentWriter (macroWords : List TokenWord) : ArgumentScratch :=
  { macroWords := macroWords
    writer :=
      { start := macroWords.length
        visibleEnd := macroWords.length
        cursor := .start
        endTrim := 0
        holdbackStart := macroWords.length
        holdbackLen := 0 } }

def delimiterPrefixLen (scratch : ArgumentScratch) : Nat :=
  scratch.writer.holdbackLen

def depth (scratch : ArgumentScratch) : Nat :=
  scratch.writer.cursor.braceDepth

def appendHotDelivery (scratch : ArgumentScratch) (word : TokenWord) (paragraph : Bool) :
    Except ScratchError ArgumentScratch :=
  if scratch.writer.holdbackLen ≠ 0 then .error .invalidCoordinate
  else
    .ok
      { macroWords := scratch.macroWords ++ [word]
        writer := { scratch.writer with
          cursor := scratch.writer.cursor.settleArgumentWord word paragraph
          visibleEnd := scratch.macroWords.length + 1 } }

def appendPlainSpan (scratch : ArgumentScratch) (words : List TokenWord) :
    Except ScratchError ArgumentScratch :=
  if scratch.writer.holdbackLen ≠ 0 then .error .invalidCoordinate
  else
    .ok
      { macroWords := scratch.macroWords ++ words
        writer := { scratch.writer with
          cursor := scratch.writer.cursor.settleWords words
          visibleEnd := scratch.macroWords.length + words.length } }

def appendDelimiterWord (scratch : ArgumentScratch) (word : TokenWord) : ArgumentScratch :=
  { macroWords := scratch.macroWords ++ [word]
    writer := { scratch.writer with
      holdbackStart :=
        if scratch.writer.holdbackLen = 0 then scratch.writer.visibleEnd
        else scratch.writer.holdbackStart
      holdbackLen := scratch.writer.holdbackLen + 1 } }

def revealDelimiterWords (scratch : ArgumentScratch) (count : Nat) :
    Except ScratchError ArgumentScratch :=
  if scratch.writer.holdbackLen < count then .error .invalidCoordinate
  else
    let revealedEnd := scratch.writer.holdbackStart + count
    let absolute := scratch.writer.visibleEnd
    if scratch.macroWords.length < revealedEnd then .error .invalidCoordinate
    else
      .ok { scratch with
        writer := { scratch.writer with
          cursor := scratch.writer.cursor.settleWords
            ((scratch.macroWords.drop absolute).take (revealedEnd - absolute))
          visibleEnd := revealedEnd
          holdbackStart := revealedEnd
          holdbackLen := scratch.writer.holdbackLen - count } }

def truncateDelimiterSuffix (scratch : ArgumentScratch) : Except ScratchError ArgumentScratch :=
  let holdbackEnd := scratch.writer.holdbackStart + scratch.writer.holdbackLen
  if scratch.macroWords.length < scratch.writer.holdbackStart ∨
      holdbackEnd ≠ scratch.macroWords.length then
    .error .invalidCoordinate
  else
    .ok
      { macroWords := scratch.macroWords.take scratch.writer.holdbackStart
        writer := { scratch.writer with
          visibleEnd := scratch.writer.holdbackStart
          holdbackLen := 0 } }

def matchWords (scratch : ArgumentScratch) : Except ScratchError (List TokenWord) :=
  let visibleEnd := scratch.writer.visibleEnd - scratch.writer.endTrim
  if scratch.writer.visibleEnd < scratch.writer.endTrim ∨ visibleEnd < scratch.writer.start ∨
      scratch.macroWords.length < scratch.writer.visibleEnd then
    .error .invalidCoordinate
  else
    .ok ((scratch.macroWords.drop scratch.writer.start).take (visibleEnd - scratch.writer.start))

def stripOuterGroup (scratch : ArgumentScratch) : Except ScratchError ArgumentScratch :=
  if scratch.writer.visibleEnd - scratch.writer.start - scratch.writer.endTrim < 2 then
    .error .invalidCoordinate
  else
    .ok { scratch with
      writer := { scratch.writer with
        start := scratch.writer.start + 1
        endTrim := scratch.writer.endTrim + 1 } }

def stripArgumentOuterGroup (scratch : ArgumentScratch) : Except ScratchError ArgumentScratch :=
  if scratch.writer.cursor.removableOuterGroup = true then scratch.stripOuterGroup
  else .ok scratch

end ArgumentScratch

end Umber.Command
