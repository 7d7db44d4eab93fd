import Umber.Typeset.Widths

/-! The legal breakpoints of a paragraph. -/

set_option autoImplicit false

namespace Umber.Typeset

def ejectPenalty : Int := -10000

def infPenalty : Int := 10000

/-! ## Parameters -/

structure LineShapeEntry where
  indent : Int
  width : Int

structure ParagraphShape where
  lines : List LineShapeEntry
  nonempty : lines ≠ []

structure LineShape where
  hsize : Int
  parshape : Option ParagraphShape
  hangIndent : Int
  hangAfter : Int
  lineOffset : Nat

structure LineBreakParams where
  pretolerance : Int
  tolerance : Int
  linePenalty : Int
  hyphenPenalty : Int
  exHyphenPenalty : Int
  adjDemerits : Int
  doubleHyphenDemerits : Int
  finalHyphenDemerits : Int
  emergencyStretch : Int
  looseness : Int
  lastLineFit : Int
  pdfAdjustSpacing : Int
  expansionSteps : Option (Int × Int)
  pdfProtrudeChars : Int
  leftSkip : GlueSpec
  rightSkip : GlueSpec
  parFillSkip : GlueSpec
  shape : LineShape

/-! ## Breakpoints -/

structure Breakpoint where
  position : Nat
  protrusionEnd : Nat
  penalty : Int
  hyphenated : Bool
  addWidth : Widths
  lineWidth : Widths
  nextPosition : Nat
  nextWidth : Widths

def Node.isDiscardable : Node → Bool
  | .glue _ => true
  | .penalty _ => true
  | .mathOn _ => true
  | .mathOff _ => true
  | .kern _ kind => kind = .explicit || kind = .mu
  | _ => false

def Node.isGlue : Node → Bool
  | .glue _ => true
  | _ => false

def Node.isExplicitKern : Node → Bool
  | .kern _ .explicit => true
  | _ => false

def discretionaryPenalty (preIsEmpty : Bool) (params : LineBreakParams) : Int :=
  if preIsEmpty then params.exHyphenPenalty else params.hyphenPenalty

structure LegalBreakpoints where
  width : Widths
  autoBreaking : Bool
  output : List Breakpoint
  pendingStart : Option Nat

namespace LegalBreakpoints

def new : LegalBreakpoints :=
  { width := .zero, autoBreaking := true, output := [], pendingStart := none }

/-- The breaks in front of discardable material start their next line behind
it. -/
def finalizePending (analyzer : LegalBreakpoints) (nextPosition : Nat) : LegalBreakpoints :=
  match analyzer.pendingStart with
  | none => analyzer
  | some start =>
    { analyzer with
      pendingStart := none
      output :=
        analyzer.output.take start ++
          (analyzer.output.drop start).map fun breakpoint =>
            { breakpoint with nextPosition, nextWidth := analyzer.width } }

/-- A break of penalty zero: at glue behind material, or at an explicit kern in
front of glue. -/
def zeroPenaltyBreak (analyzer : LegalBreakpoints) (index : Nat) (previous next : Option Node)
    (node : Node) : Bool :=
  analyzer.autoBreaking &&
    ((node.isGlue && 0 < index && previous.any fun node => !node.isDiscardable) ||
      (node.isExplicitKern && next.any Node.isGlue))

def push (analyzer : LegalBreakpoints) (awaits : Bool) (breakpoint : Breakpoint) :
    LegalBreakpoints :=
  { analyzer with
    pendingStart :=
      if awaits then some (analyzer.pendingStart.getD analyzer.output.length)
      else analyzer.pendingStart
    output := analyzer.output ++ [breakpoint] }

def pushPlain (analyzer : LegalBreakpoints) (index : Nat) (before : Widths) (penalty : Int) :
    LegalBreakpoints :=
  analyzer.push true
    { position := index + 1
      protrusionEnd := index
      penalty
      hyphenated := false
      addWidth := .zero
      lineWidth := before
      nextPosition := index + 1
      nextWidth := analyzer.width }

def widthBehind (state : TypesetState) (expansion : Bool) (analyzer : LegalBreakpoints)
    (post : List Node) : Checked Widths :=
  if post.isEmpty then .ok analyzer.width
  else do
    let postWidth ← lineWidthsView state expansion post
    analyzer.width.sub postWidth

def pushDiscretionary (state : TypesetState) (params : LineBreakParams) (analyzer : LegalBreakpoints)
    (index : Nat) (before : Widths) (pre post : List Node) : Checked LegalBreakpoints := do
  let expansion := decide (1 < params.pdfAdjustSpacing)
  let addWidth ← lineWidthsView state expansion pre
  let nextWidth ← widthBehind state expansion analyzer post
  pure (analyzer.push post.isEmpty
    { position := index + 1
      protrusionEnd := index + 1
      penalty := discretionaryPenalty pre.isEmpty params
      hyphenated := true
      addWidth
      lineWidth := before
      nextPosition := index + 1
      nextWidth })

def observeBreak (state : TypesetState) (params : LineBreakParams) (analyzer : LegalBreakpoints)
    (index : Nat) (before : Widths) (previous next : Option Node) (node : Node) :
    Checked LegalBreakpoints :=
  if analyzer.zeroPenaltyBreak index previous next node then
    .ok (analyzer.pushPlain index before 0)
  else
    match node with
    | .penalty value =>
      .ok (if value < infPenalty then analyzer.pushPlain index before (max value ejectPenalty)
        else analyzer)
    | .disc pre post _ => analyzer.pushDiscretionary state params index before pre post
    | .mathOff _ =>
      let analyzer := { analyzer with autoBreaking := true }
      .ok (if next.any Node.isGlue then analyzer.pushPlain index before 0 else analyzer)
    | .mathOn _ => .ok { analyzer with autoBreaking := false }
    | _ => .ok analyzer

def observeNode (state : TypesetState) (params : LineBreakParams) (analyzer : LegalBreakpoints)
    (index : Nat) (previous next : Option Node) (node : Node) : Checked LegalBreakpoints := do
  let analyzer := if node.isDiscardable then analyzer else analyzer.finalizePending index
  let before := analyzer.width
  let width ← addNodeWidth state (decide (1 < params.pdfAdjustSpacing)) before previous next node
  { analyzer with width }.observeBreak state params index before previous next node

def observeNodes (state : TypesetState) (params : LineBreakParams) (analyzer : LegalBreakpoints)
    (index : Nat) (previous : Option Node) : List Node → Checked LegalBreakpoints
  | [] => .ok analyzer
  | node :: rest => do
    let analyzer ← analyzer.observeNode state params index previous rest.head? node
    observeNodes state params analyzer (index + 1) (some node) rest

def finish (analyzer : LegalBreakpoints) (length : Nat) : List Breakpoint :=
  let analyzer := analyzer.finalizePending length
  if analyzer.output.getLast?.all fun breakpoint => breakpoint.position < length then
    analyzer.output ++
      [{ position := length
         protrusionEnd := length
         penalty := ejectPenalty
         hyphenated := false
         addWidth := .zero
         lineWidth := analyzer.width
         nextPosition := length
         nextWidth := analyzer.width }]
  else analyzer.output

end LegalBreakpoints

end Umber.Typeset
