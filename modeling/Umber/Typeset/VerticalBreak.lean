import Umber.Typeset.Widths

/-! The search for the best break of a vertical list. -/

set_option autoImplicit false

namespace Umber.Typeset

inductive VerticalNode where
  | hlist (height depth : Int)
  | vlist (height depth : Int)
  | rule (height depth : Option Int)
  | glue (spec : GlueSpec)
  | kern (amount : Int)
  | marginKern (amount : Int)
  | penalty (value : Int)
  | mathOn
  | mathOff
  | whatsit (pdfSnapY : Bool)
  | other
deriving DecidableEq

inductive VerticalBreakError where
  | arithmeticOverflow

abbrev Breaking (α : Type) := Except VerticalBreakError α

structure VerticalBreak where
  breakIndex : Option Nat
  bestHeightPlusDepth : Int
  infiniteShrinkGlue : List Nat

structure VerticalBreakAccum where
  height : Int
  depth : Int
  stretch : PerOrder
  shrink : Int
  infiniteShrinkGlue : List Nat

def VerticalBreakAccum.new : VerticalBreakAccum :=
  { height := 0, depth := 0, stretch := .zero, shrink := 0, infiniteShrinkGlue := [] }

namespace VerticalBreak

def awfulBad : Int := 1073741823

def deplorable : Int := 100000

def infPenalty : Int := 10000

def ejectPenalty : Int := -10000

def stored (value : Int) : Breaking Int :=
  if -2147483648 ≤ value ∧ value ≤ 2147483647 then .ok value else .error .arithmeticOverflow

def add (left right : Int) : Breaking Int :=
  stored (left + right)

def sub (left right : Int) : Breaking Int :=
  stored (left - right)

def precedesBreak : VerticalNode → Bool
  | .glue _ | .kern _ | .penalty _ | .mathOn | .mathOff => false
  | .hlist _ _ | .vlist _ _ | .rule _ _ | .marginKern _ | .whatsit _ | .other => true

def isGlue : Option VerticalNode → Bool
  | some (.glue _) => true
  | _ => false

def appendVerticalBox (acc : VerticalBreakAccum) (height depth : Int) :
    Breaking VerticalBreakAccum := do
  let above ← add acc.height acc.depth
  let total ← add above height
  pure { acc with height := total, depth := depth }

/-- The room of a kern or of glue: the depth before it counts as height from here on. -/
def appendSpacing (acc : VerticalBreakAccum) (width : Int) : Breaking VerticalBreakAccum := do
  let above ← add acc.height acc.depth
  let total ← add above width
  pure { acc with height := total, depth := 0 }

def appendGlue (acc : VerticalBreakAccum) (spec : GlueSpec) (index : Nat) :
    Breaking VerticalBreakAccum := do
  let _ ← add (acc.stretch.get spec.stretchOrder) spec.stretch
  let shrink ← add acc.shrink spec.shrink
  appendSpacing
    { acc with
      stretch := acc.stretch.increase spec.stretch spec.stretchOrder
      shrink := shrink
      infiniteShrinkGlue :=
        if spec.shrinkOrder ≠ .normal ∧ spec.shrink ≠ 0 then acc.infiniteShrinkGlue ++ [index]
        else acc.infiniteShrinkGlue }
    spec.width

def updateSpacingNode (acc : VerticalBreakAccum) (node : VerticalNode) (index : Nat) :
    Breaking VerticalBreakAccum :=
  match node with
  | .kern amount => appendSpacing acc amount
  | .glue spec => appendGlue acc spec index
  | _ => pure acc

/-- What a node does before the break at it is judged: the height it adds, the penalty of the
break, and whether its room is added only behind the break. -/
structure Observed where
  acc : VerticalBreakAccum
  penalty : Option Int
  updateSpacing : Bool

def observe (acc : VerticalBreakAccum) (index : Nat) (prev next : Option VerticalNode) :
    VerticalNode → Breaking Observed
  | .hlist height depth | .vlist height depth => do
    let acc ← appendVerticalBox acc height depth
    pure { acc := acc, penalty := none, updateSpacing := false }
  | .rule height depth => do
    let acc ← appendVerticalBox acc (height.getD 0) (depth.getD 0)
    pure { acc := acc, penalty := none, updateSpacing := false }
  | .glue spec =>
    if prev.any precedesBreak = true then
      pure { acc := acc, penalty := some 0, updateSpacing := true }
    else do
      let acc ← updateSpacingNode acc (.glue spec) index
      pure { acc := acc, penalty := none, updateSpacing := false }
  | .kern amount =>
    if isGlue next = true then
      pure { acc := acc, penalty := some 0, updateSpacing := true }
    else do
      let acc ← updateSpacingNode acc (.kern amount) index
      pure { acc := acc, penalty := none, updateSpacing := false }
  | .marginKern amount =>
    if isGlue next = true then
      pure { acc := acc, penalty := some 0, updateSpacing := true }
    else do
      let acc ← updateSpacingNode acc (.marginKern amount) index
      pure { acc := acc, penalty := none, updateSpacing := false }
  | .penalty value => pure { acc := acc, penalty := some value, updateSpacing := false }
  | .mathOn | .mathOff | .whatsit _ | .other =>
    pure { acc := acc, penalty := none, updateSpacing := false }

def verticalBreakBadness (goal : Int) (acc : VerticalBreakAccum) : Breaking Int :=
  if acc.height < goal then
    if acc.stretch.infiniteIsZero = false then pure 0
    else do
      let short ← sub goal acc.height
      pure (texBadnessWide short acc.stretch.normal)
  else do
    let excess ← sub acc.height goal
    if acc.shrink < excess then pure awfulBad else pure (texBadnessWide excess acc.shrink)

def breakCost (goal : Int) (acc : VerticalBreakAccum) (penalty : Int) : Breaking Int := do
  let cost ← verticalBreakBadness goal acc
  if cost < awfulBad then
    if penalty ≤ ejectPenalty then pure penalty
    else if cost < infBad then add cost penalty
    else pure deplorable
  else pure cost

structure Search where
  acc : VerticalBreakAccum
  leastCost : Int
  best : VerticalBreak

def Search.new : Search :=
  { acc := .new
    leastCost := awfulBad
    best := { breakIndex := none, bestHeightPlusDepth := 0, infiniteShrinkGlue := [] } }

def consider (goal : Int) (breakIndex : Option Nat) (penalty : Int) (search : Search) :
    Breaking (Search × Bool) :=
  if penalty < infPenalty then do
    let cost ← breakCost goal search.acc penalty
    let last := decide (cost = awfulBad) || decide (penalty ≤ ejectPenalty)
    if cost ≤ search.leastCost then do
      let total ← add search.acc.height search.acc.depth
      pure ({ search with
        leastCost := cost
        best :=
          { breakIndex := breakIndex
            bestHeightPlusDepth := total
            infiniteShrinkGlue := [] } }, last)
    else pure (search, last)
  else pure (search, false)

def clampDepth (maxDepth : Int) (acc : VerticalBreakAccum) : Breaking VerticalBreakAccum :=
  if maxDepth < acc.depth then do
    let beyond ← sub acc.depth maxDepth
    let height ← add acc.height beyond
    pure { acc with height := height, depth := maxDepth }
  else pure acc

/-- The room of a node that its break was judged without, and the bound of the depth. -/
def advance (maxDepth : Int) (index : Nat) (node : VerticalNode) (updateSpacing : Bool)
    (acc : VerticalBreakAccum) : Breaking VerticalBreakAccum := do
  let acc ← if updateSpacing = true then updateSpacingNode acc node index else pure acc
  clampDepth maxDepth acc

def judge (goal : Int) (index : Nat) (observed : Observed) (search : Search) :
    Breaking (Search × Bool) :=
  match observed.penalty with
  | none => pure ({ search with acc := observed.acc }, false)
  | some penalty => consider goal (some index) penalty { search with acc := observed.acc }

def round (goal maxDepth : Int) (index : Nat) (prev next : Option VerticalNode)
    (node : VerticalNode) (search : Search) : Breaking (Search × Bool) := do
  let observed ← observe search.acc index prev next node
  let (search, last) ← judge goal index observed search
  if last = true then pure (search, true)
  else do
    let acc ← advance maxDepth index node observed.updateSpacing search.acc
    pure ({ search with acc := acc }, false)

/-- The rounds over the nodes from an index on, and over the end of the list. -/
def searchFrom (goal maxDepth : Int) (index : Nat) (prev : Option VerticalNode) (search : Search) :
    List VerticalNode → Breaking Search
  | [] => do
    let (search, _) ← consider goal none ejectPenalty search
    pure search
  | node :: rest => do
    let (search, last) ← round goal maxDepth index prev rest.head? node search
    if last = true then pure search
    else searchFrom goal maxDepth (index + 1) (some node) search rest

end VerticalBreak

open VerticalBreak in
def vertBreak (nodes : List VerticalNode) (goal maxDepth : Int) : Breaking VerticalBreak := do
  let search ← searchFrom goal maxDepth 0 nodes.head? .new nodes
  pure { search.best with infiniteShrinkGlue := search.acc.infiniteShrinkGlue }

end Umber.Typeset
