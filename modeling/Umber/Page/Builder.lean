import Umber.Typeset.VerticalBreak

/-! The page builder: contributions move to the current page until a break fires it up. -/

set_option autoImplicit false

namespace Umber.PageBuilder

open Umber.Typeset VerticalBreak

/-! ## Arithmetic -/

/-- `insertPenaltyOverflow` is an abort of the program, `unfinished` a loop that has used up
the rounds the model grants it. -/
inductive ExecError where
  | arithmeticOverflow
  | confusion
  | insertPenaltyOverflow
  | unfinished

abbrev Building (α : Type) := Except ExecError α

def fitsScaled (value : Int) : Bool := -2147483648 ≤ value && value ≤ 2147483647

def stored (value : Int) : Building Int :=
  if fitsScaled value then .ok value else .error .arithmeticOverflow

def add (left right : Int) : Building Int := stored (left + right)

def sub (left right : Int) : Building Int := stored (left - right)

def maxDimen : Int := 1073741823

def xOverN (x n : Int) : Building Int :=
  if n = 0 then .error .arithmeticOverflow
  else do
    let quotient ← stored (x.tdiv n)
    let _ ← stored (x.tmod n)
    pure quotient

def multAndAdd (n x y maxAnswer : Int) : Building Int :=
  let x := if n < 0 then -x else x
  let n := if n < 0 then -n else n
  if n = 0 then .ok y
  else if x ≤ (maxAnswer - y).tdiv n ∧ -x ≤ (maxAnswer + y).tdiv n then stored (n * x + y)
  else .error .arithmeticOverflow

def nxPlusY (n x y : Int) : Building Int := multAndAdd n x y maxDimen

/-! ## Nodes and parameters -/

structure Insertion where
  insertClass : Nat
  size : Int
  splitTopSkip : GlueSpec
  splitMaxDepth : Int
  floatingPenalty : Int
  content : List VerticalNode
deriving DecidableEq

/-- The contributions, with the kind of glue and of whatsits that page building looks at. -/
inductive PageNode where
  | hlist (height depth : Int)
  | vlist (height depth : Int)
  | rule (height depth : Option Int)
  | glue (spec : GlueSpec) (topSkip : Bool)
  | kern (amount : Int)
  | penalty (value : Int)
  | ins (insertion : Insertion)
  | whatsit (pdfSnapY : Bool)
  | mark
  | other
deriving DecidableEq

inductive InsertBox where
  | hbox
  | vbox (height depth : Int)

structure PageParams where
  vsize : Int
  maxDepth : Int
  topSkip : GlueSpec
  savingVDiscards : Int
  count : Nat → Int
  dimen : Nat → Int
  skip : Nat → GlueSpec
  box : Nat → Option InsertBox

def PageNode.isPageTopDiscardable : PageNode → Bool
  | .glue _ _ | .kern _ | .penalty _ | .whatsit true => true
  | _ => false

def precedesBreak : PageNode → Bool
  | .glue _ _ | .kern _ | .penalty _ => false
  | _ => true

def verticalHeight : PageNode → Int
  | .hlist height _ | .vlist height _ => height
  | .rule height _ => height.getD 0
  | _ => 0

def verticalDepth : PageNode → Int
  | .hlist _ depth | .vlist _ depth => depth
  | .rule _ depth => depth.getD 0
  | _ => 0

/-! ## The state of the page -/

inductive PageContents where
  | empty
  | insertsOnly
  | boxThere
deriving DecidableEq

inductive PageInsertionStatus where
  | inserting
  | splitUp (brokenInsIndex : Nat) (brokenAt : Option Nat)

structure PageInsertion where
  insertClass : Nat
  status : PageInsertionStatus
  height : Int
  lastInsIndex : Option Nat
  bestInsIndex : Option Nat

def PageInsertion.new (insertClass : Nat) (height : Int) : PageInsertion :=
  { insertClass, status := .inserting, height, lastInsIndex := none, bestInsIndex := none }

structure PageFireUp where
  bestBreak : Nat
  bestSize : Int
  trigger : Nat

structure PageTotals where
  goal : Int
  total : Int
  depth : Int
  stretch : PerOrder
  shrink : Int

structure PageState where
  contents : PageContents
  totals : PageTotals
  maxDepth : Int
  insertPenalties : Int
  leastPageCost : Int
  bestPageBreak : Option Nat
  bestSize : Int
  fireUp : Option PageFireUp
  contribution : List PageNode
  currentPage : List PageNode
  discards : List PageNode
  discarded : List PageNode
  insertions : List PageInsertion
  clearedBoxes : List Nat

def PageTotals.zero : PageTotals := ⟨0, 0, 0, .zero, 0⟩

def PageState.new (contribution : List PageNode) : PageState :=
  { contents := .empty, totals := .zero, maxDepth := 0, insertPenalties := 0
    leastPageCost := VerticalBreak.awfulBad, bestPageBreak := none, bestSize := 0, fireUp := none
    contribution, currentPage := [], discards := [], discarded := [], insertions := []
    clearedBoxes := [] }

namespace PageState

def hasBox (state : PageState) : Bool := state.contents = .boxThere

def pageInsertion (state : PageState) (insertClass : Nat) : Option PageInsertion :=
  state.insertions.find? fun insertion => insertion.insertClass = insertClass

def upsertPageInsertion (state : PageState) (insertion : PageInsertion) : PageState :=
  { state with
    insertions :=
      if state.insertions.any fun other => other.insertClass = insertion.insertClass then
        state.insertions.map fun other =>
          if other.insertClass = insertion.insertClass then insertion else other
      else state.insertions ++ [insertion] }

def setGoal (state : PageState) (goal : Int) : PageState :=
  { state with totals := { state.totals with goal } }

def setShrink (state : PageState) (shrink : Int) : PageState :=
  { state with totals := { state.totals with shrink } }

def setExtent (state : PageState) (total depth : Int) : PageState :=
  { state with totals := { state.totals with total, depth } }

def freezePageSpecs (state : PageState) (params : PageParams) (contents : PageContents) :
    PageState :=
  { state with
    contents
    totals := { PageTotals.zero with goal := params.vsize }
    maxDepth := params.maxDepth
    leastPageCost := VerticalBreak.awfulBad
    bestPageBreak := none
    bestSize := 0
    insertions := [] }

def recordBestPageBreak (state : PageState) (breakIndex : Nat) (bestSize cost : Int) : PageState :=
  { state with
    bestPageBreak := some breakIndex
    bestSize
    leastPageCost := cost
    insertions := state.insertions.map fun insertion =>
      { insertion with bestInsIndex := insertion.lastInsIndex } }

def recordPageFireUp (state : PageState) (trigger : Nat) : PageState :=
  { state with
    fireUp := some
      { bestBreak := state.bestPageBreak.getD trigger, bestSize := state.bestSize, trigger } }

end PageState

section Fields

variable (state : PageState) (goal shrink : Int)

@[simp] theorem PageState.setGoal_insertPenalties :
    (state.setGoal goal).insertPenalties = state.insertPenalties := rfl

@[simp] theorem PageState.setShrink_insertPenalties :
    (state.setShrink shrink).insertPenalties = state.insertPenalties := rfl

end Fields

/-! ## Glue and boxes -/

def addGlueStretch (state : PageState) (spec : GlueSpec) : Building PageState := do
  let _ ← add (state.totals.stretch.get spec.stretchOrder) spec.stretch
  pure
    { state with
      totals :=
        { state.totals with
          stretch := state.totals.stretch.increase spec.stretch spec.stretchOrder } }

def finitePageShrink (spec : GlueSpec) : GlueSpec :=
  if spec.shrinkOrder ≠ .normal ∧ spec.shrink ≠ 0 then { spec with shrinkOrder := .normal }
  else spec

def addRoom (state : PageState) (width depth : Int) : Building PageState := do
  let above ← add state.totals.total state.totals.depth
  let total ← add above width
  pure (state.setExtent total depth)

def prepareBoxOrRule (state : PageState) (node : PageNode) : Building PageState :=
  addRoom state (verticalHeight node) (verticalDepth node)

def updateGlueOrKern (state : PageState) (node : PageNode) : Building (PageState × PageNode) :=
  match node with
  | .kern amount => do
    let state ← addRoom state amount 0
    pure (state, .kern amount)
  | .glue spec topSkip => do
    let spec := finitePageShrink spec
    let state ← addGlueStretch state spec
    let shrink ← add state.totals.shrink spec.shrink
    let state ← addRoom (state.setShrink shrink) spec.width 0
    pure (state, .glue spec topSkip)
  | node => .ok (state, node)

def ensureMaxDepth (state : PageState) : Building PageState :=
  if state.maxDepth < state.totals.depth then do
    let excess ← sub state.totals.depth state.maxDepth
    let total ← add state.totals.total excess
    pure (state.setExtent total state.maxDepth)
  else .ok state

/-- The front of the contributions, now `node`, becomes the tail of the current page. -/
def contributeFrontAs (state : PageState) (node : PageNode) : Building PageState := do
  let state ← ensureMaxDepth state
  pure
    { state with
      contribution := state.contribution.tail
      currentPage := state.currentPage ++ [node] }

def discardFront (params : PageParams) (state : PageState) (node : PageNode) : PageState :=
  if 0 < params.savingVDiscards then
    { state with
      contribution := state.contribution.tail
      discards := state.discards ++ [node] }
  else
    { state with
      contribution := state.contribution.tail
      discarded := state.discarded ++ [node] }

def topSkipFor (params : PageParams) (node : PageNode) : PageNode :=
  let width := params.topSkip.width - verticalHeight node
  .glue { params.topSkip with width := if 0 < width ∧ fitsScaled width then width else 0 } true

def initializePageWithTopskip (params : PageParams) (state : PageState) (node : PageNode) :
    PageState :=
  let state :=
    if state.contents = .empty then state.freezePageSpecs params .boxThere
    else { state with contents := .boxThere }
  { state with contribution := topSkipFor params node :: state.contribution }

/-! ## Breaks -/

def pageBadness (totals : PageTotals) : Building Int :=
  if totals.total < totals.goal then
    if totals.stretch.infiniteIsZero = false then .ok 0
    else do
      let short ← sub totals.goal totals.total
      pure (texBadnessWide short totals.stretch.normal)
  else do
    let excess ← sub totals.total totals.goal
    if totals.shrink < excess then pure VerticalBreak.awfulBad
    else pure (texBadnessWide excess totals.shrink)

/-- The cost of a break, before the penalties of split insertions forbid to wait for it. -/
def breakCost (badness penalty insertPenalties : Int) : Building Int :=
  if badness < VerticalBreak.awfulBad then
    if penalty ≤ VerticalBreak.ejectPenalty then .ok penalty
    else if badness < infBad then do
      let cost ← add badness penalty
      add cost insertPenalties
    else .ok deplorable
  else .ok badness

def checkBreak (state : PageState) (penalty : Int) : Building PageState :=
  if VerticalBreak.infPenalty ≤ penalty then .ok state
  else do
    let badness ← pageBadness state.totals
    let cost ← breakCost badness penalty state.insertPenalties
    let cost :=
      if VerticalBreak.infPenalty ≤ state.insertPenalties then VerticalBreak.awfulBad else cost
    let breakIndex := state.currentPage.length
    let state :=
      if cost ≤ state.leastPageCost then
        state.recordBestPageBreak breakIndex state.totals.goal cost
      else state
    pure
      (if cost = VerticalBreak.awfulBad ∨ penalty ≤ VerticalBreak.ejectPenalty then
        state.recordPageFireUp breakIndex
      else state)

/-! ## Insertions -/

def scaledInsertionSize (size count : Int) : Building Int :=
  if count = 1000 then .ok size
  else do
    let quotient ← xOverN size 1000
    nxPlusY count quotient 0

def inverseScaledInsertionCapacity (size count : Int) : Building Int :=
  if count = 1000 then .ok size
  else do
    let quotient ← xOverN size count
    nxPlusY 1000 quotient 0

/-- The size of what a box register holds already; a horizontal box is cleared. -/
def insertionBoxSize (params : PageParams) (state : PageState) (insertClass : Nat) :
    Building (PageState × Int) :=
  if insertClass ∈ state.clearedBoxes then .ok (state, 0)
  else
    match params.box insertClass with
    | none => .ok (state, 0)
    | some .hbox => .ok ({ state with clearedBoxes := insertClass :: state.clearedBoxes }, 0)
    | some (.vbox height depth) => do
      let size ← add height depth
      pure (state, size)

def createPageInsertion (params : PageParams) (state : PageState) (insertClass : Nat) :
    Building (PageState × PageInsertion) := do
  let (state, existing) ← insertionBoxSize params state insertClass
  let scaled ← scaledInsertionSize existing (params.count insertClass)
  let skip := params.skip insertClass
  let goal ← sub state.totals.goal scaled
  let goal ← sub goal skip.width
  let state ← addGlueStretch (state.setGoal goal) skip
  let shrink ← add state.totals.shrink skip.shrink
  pure (state.setShrink shrink, PageInsertion.new insertClass existing)

def insertionDelta (totals : PageTotals) : Building Int := do
  let delta ← sub totals.goal totals.total
  let delta ← sub delta totals.depth
  add delta totals.shrink

/-- A penalty beyond an `i32` aborts the program. -/
def addInsertPenalty (state : PageState) (penalty : Int) : Building PageState :=
  if fitsScaled (state.insertPenalties + penalty) then
    .ok { state with insertPenalties := state.insertPenalties + penalty }
  else .error .insertPenaltyOverflow

def finiteShrink : VerticalNode → VerticalNode
  | .glue spec => .glue (finitePageShrink spec)
  | node => node

/-- The content of a split insertion with finite shrink, if there is anything to change. -/
def normalizeInsertContentShrink (insertion : Insertion) (indices : List Nat) :
    Option Insertion :=
  let content := indices.foldl (fun content index => content.modify index finiteShrink)
    insertion.content
  if content = insertion.content then none else some { insertion with content }

def availableCapacity (totals : PageTotals) (count : Int) : Building Int :=
  if count ≤ 0 then .ok maxDimen
  else do
    let available ← sub totals.goal totals.total
    let available ← sub available totals.depth
    inverseScaledInsertionCapacity available count

def splitCapacity (params : PageParams) (totals : PageTotals) (insertClass : Nat) (height : Int) :
    Building Int := do
  let capacity ← availableCapacity totals (params.count insertClass)
  let remaining ← sub (params.dimen insertClass) height
  pure (min capacity remaining)

def raised (breaking : Breaking VerticalBreak) : Building VerticalBreak :=
  match breaking with
  | .ok split => .ok split
  | .error _ => .error .arithmeticOverflow

def splitPenalty (content : List VerticalNode) : Option Nat → Int
  | none => VerticalBreak.ejectPenalty
  | some index =>
    match content[index]? with
    | some (.penalty value) => value
    | _ => 0

def splitPageInsertion (params : PageParams) (state : PageState) (record : PageInsertion)
    (insertion : Insertion) : Building (PageState × PageInsertion × Option Insertion) := do
  let capacity ← splitCapacity params state.totals insertion.insertClass record.height
  let split ← raised (vertBreak insertion.content capacity insertion.splitMaxDepth)
  let replacement := normalizeInsertContentShrink insertion split.infiniteShrinkGlue
  let height ← add record.height split.bestHeightPlusDepth
  let scaled ← scaledInsertionSize split.bestHeightPlusDepth (params.count insertion.insertClass)
  let goal ← sub state.totals.goal scaled
  let record :=
    { record with height, status := .splitUp state.currentPage.length split.breakIndex }
  let state ← addInsertPenalty (state.setGoal goal)
    (splitPenalty insertion.content split.breakIndex)
  pure (state, record, replacement)

def insertionFits (params : PageParams) (record : PageInsertion) (insertion : Insertion)
    (delta scaled : Int) : Building Bool :=
  if scaled ≤ 0 ∨ scaled ≤ delta then do
    let height ← add record.height insertion.size
    pure (decide (height ≤ params.dimen insertion.insertClass))
  else pure false

def pageInsertionFor (params : PageParams) (state : PageState) (insertClass : Nat) :
    Building (PageState × PageInsertion) :=
  match state.pageInsertion insertClass with
  | some record => .ok (state, record)
  | none => createPageInsertion params state insertClass

def prepareInsertion (params : PageParams) (state : PageState) (insertion : Insertion) :
    Building (PageState × Option Insertion) := do
  let (state, record) ← pageInsertionFor params state insertion.insertClass
  match record.status with
  | .splitUp _ _ => do
    let state ← addInsertPenalty state insertion.floatingPenalty
    pure (state.upsertPageInsertion record, none)
  | .inserting => do
    let record := { record with lastInsIndex := some state.currentPage.length }
    let delta ← insertionDelta state.totals
    let scaled ← scaledInsertionSize insertion.size (params.count insertion.insertClass)
    let fits ← insertionFits params record insertion delta scaled
    if fits = true then do
      let goal ← sub state.totals.goal scaled
      let height ← add record.height insertion.size
      pure ((state.setGoal goal).upsertPageInsertion { record with height }, none)
    else do
      let (state, record, replacement) ← splitPageInsertion params state record insertion
      pure (state.upsertPageInsertion record, replacement)

/-! ## The builder -/

def checkLegalBreak (state : PageState) (legal : Bool) : Building PageState :=
  if legal = true then checkBreak state 0 else .ok state

def contributeRoom (state : PageState) (node : PageNode) (legal : Bool) : Building PageState := do
  let state ← checkLegalBreak state legal
  if state.fireUp.isSome then pure state
  else do
    let (state, node) ← updateGlueOrKern state node
    contributeFrontAs state node

def isGlue : PageNode → Bool
  | .glue _ _ => true
  | _ => false

/-- The state after a round; `stopped` marks a builder that leaves its loop. -/
structure Round where
  state : PageState
  stopped : Bool

def goOn (state : PageState) : Round := ⟨state, state.fireUp.isSome⟩

def buildNode (params : PageParams) (state : PageState) (node : PageNode)
    (second : Option PageNode) : Building Round :=
  match node with
  | .hlist _ _ | .vlist _ _ | .rule _ _ =>
    if state.hasBox = false then .ok ⟨initializePageWithTopskip params state node, false⟩
    else do
      let state ← prepareBoxOrRule state node
      let state ← contributeFrontAs state node
      pure ⟨state, false⟩
  | .glue _ _ =>
    if state.hasBox = false then .ok ⟨discardFront params state node, false⟩
    else do
      let state ← contributeRoom state node (state.currentPage.getLast?.any precedesBreak)
      pure (goOn state)
  | .kern _ =>
    if state.hasBox = false then .ok ⟨discardFront params state node, false⟩
    else
      match second with
      | none => .ok ⟨state, true⟩
      | some next => do
        let state ← contributeRoom state node (isGlue next)
        pure (goOn state)
  | .penalty value =>
    if state.hasBox = false then .ok ⟨discardFront params state node, false⟩
    else do
      let state ← checkBreak state value
      if state.fireUp.isSome then pure ⟨state, true⟩
      else do
        let state ← contributeFrontAs state node
        pure ⟨state, false⟩
  | .ins insertion => do
    let state :=
      if state.contents = .empty then state.freezePageSpecs params .insertsOnly else state
    let (state, replacement) ← prepareInsertion params state insertion
    let state ← contributeFrontAs state (.ins (replacement.getD insertion))
    pure ⟨state, false⟩
  | .whatsit _ =>
    if state.hasBox = false ∧ node.isPageTopDiscardable = true then
      .ok ⟨discardFront params state node, false⟩
    else do
      let state ← contributeFrontAs state node
      pure ⟨state, false⟩
  | .mark => do
    let state ← contributeFrontAs state node
    pure ⟨state, false⟩
  | .other => .error .confusion

def buildLoop (params : PageParams) : Nat → PageState → Building PageState
  | 0, state => if state.contribution.isEmpty then .ok state else .error .unfinished
  | fuel + 1, state =>
    match state.contribution with
    | [] => .ok state
    | node :: rest => do
      let round ← buildNode params state node rest.head?
      if round.stopped = true then pure round.state
      else buildLoop params fuel round.state

/-- A builder needs a round for each contribution and two for the skip at the top of a page. -/
def buildPage (params : PageParams) (state : PageState) : Building PageState :=
  if state.fireUp.isSome then .ok state
  else buildLoop params (state.contribution.length + 2) state

end Umber.PageBuilder
