import Umber.Page.BuilderRounds
import Umber.Page.Splitting

/-! The output of pages: what stands before the best break is printed, the rest goes back. -/

set_option autoImplicit false

namespace Umber.PageBuilder

open Umber.Typeset ExceptLib

/-! ## Insertions -/

structure InsertionQueue where
  nodes : List VerticalNode
  bestInsIndex : Nat
  status : PageInsertionStatus
  accepting : Bool

/-- What the output reads, and how what is left of a split insertion is measured. -/
structure OutputParams where
  holdingInserts : Int
  insertionBoxNodes : Nat → List VerticalNode
  naturalVlistSize : List VerticalNode → Building Int

structure DistributedInsertions where
  pageNodes : List PageNode
  heldover : List PageNode
  boxes : List (Nat × List VerticalNode)

def insertionQueues (params : OutputParams) (state : PageState) (insertClass : Nat) :
    Option InsertionQueue := do
  let insertion ← state.pageInsertion insertClass
  let bestInsIndex ← insertion.bestInsIndex
  pure
    { nodes := params.insertionBoxNodes insertClass, bestInsIndex, status := insertion.status
      accepting := true }

def nodeView : VerticalNode → PageSplitting.NodeView
  | .hlist height _ => .hlist height
  | .vlist height _ => .vlist height
  | .rule height _ => .rule height
  | .glue _ => .glue
  | .kern _ => .kern
  | .penalty _ => .penalty
  | .whatsit pdfSnapY => .whatsit pdfSnapY
  | .marginKern _ | .mathOn | .mathOff | .other => .other

def prunedNode : PageSplitting.PrunedNode VerticalNode → VerticalNode
  | .source node => node
  | .splitTopSkip spec => .glue spec

def splitInsertionRemainder (params : OutputParams) (queue : InsertionQueue)
    (insertionStart pageIndex : Nat) (insertion : Insertion) :
    Building (InsertionQueue × Option Insertion) :=
  match queue.status with
  | .splitUp brokenInsIndex (some brokenAt) =>
    if brokenInsIndex = pageIndex then
      let split := min (insertionStart + brokenAt) queue.nodes.length
      let content := (PageSplitting.prunePageTopList nodeView insertion.splitTopSkip
        (queue.nodes.drop split)).map prunedNode
      let queue := { queue with nodes := queue.nodes.take split }
      if content.isEmpty then .ok (queue, none)
      else do
        let size ← params.naturalVlistSize content
        pure (queue, some { insertion with size, content })
    else .ok (queue, none)
  | _ => .ok (queue, none)

def distributeFrom (params : OutputParams) (index : Nat) (queues : Nat → Option InsertionQueue) :
    List PageNode → Building DistributedInsertions
  | [] => .ok ⟨[], [], []⟩
  | .ins insertion :: nodes =>
    match (queues insertion.insertClass).filter (·.accepting) with
    | none => do
      let rest ← distributeFrom params (index + 1) queues nodes
      pure { rest with heldover := .ins insertion :: rest.heldover }
    | some queue => do
      let grown := { queue with nodes := queue.nodes ++ insertion.content }
      let put queue := fun insertClass =>
        if insertClass = insertion.insertClass then some queue else queues insertClass
      if queue.bestInsIndex = index then do
        let (packed, remainder) ←
          splitInsertionRemainder params grown queue.nodes.length index insertion
        let rest ← distributeFrom params (index + 1) (put { packed with accepting := false }) nodes
        pure
          { rest with
            heldover := remainder.toList.map .ins ++ rest.heldover
            boxes := (insertion.insertClass, packed.nodes) :: rest.boxes }
      else distributeFrom params (index + 1) (put grown) nodes
  | node :: nodes => do
    let rest ← distributeFrom params (index + 1) queues nodes
    pure { rest with pageNodes := node :: rest.pageNodes }

def distributeInsertions (params : OutputParams) (state : PageState) (pageNodes : List PageNode) :
    Building DistributedInsertions :=
  if 0 < params.holdingInserts then .ok ⟨pageNodes, [], []⟩
  else distributeFrom params 0 (insertionQueues params state) pageNodes

/-! ## The page -/

structure BrokenPage where
  outputPenalty : Int
  afterBreak : List PageNode
  contribution : List PageNode

def outputPenaltyAndRewriteBreak (afterBreak contribution : List PageNode) (fireUp : PageFireUp) :
    BrokenPage :=
  match afterBreak with
  | .penalty value :: tail => ⟨value, .penalty VerticalBreak.infPenalty :: tail, contribution⟩
  | afterBreak =>
    match contribution with
    | .penalty value :: rest =>
      if fireUp.trigger = fireUp.bestBreak then
        ⟨value, afterBreak ++ [.penalty VerticalBreak.infPenalty], rest⟩
      else ⟨VerticalBreak.infPenalty, afterBreak, contribution⟩
    | contribution => ⟨VerticalBreak.infPenalty, afterBreak, contribution⟩

def startPageAfterOutput (state : PageState) : PageState :=
  { state with
    contents := .empty
    totals := { state.totals with depth := 0 }
    maxDepth := 0
    insertPenalties := 0
    leastPageCost := VerticalBreak.awfulBad
    bestPageBreak := none
    bestSize := 0
    fireUp := none
    currentPage := []
    insertions := []
    clearedBoxes := [] }

structure OutputPage where
  outputPenalty : Int
  size : Int
  nodes : List PageNode
  boxes : List (Nat × List VerticalNode)

def prepareBox255 (params : OutputParams) (state : PageState) (fireUp : PageFireUp) :
    Building (PageState × OutputPage) := do
  let broken := outputPenaltyAndRewriteBreak (state.currentPage.drop fireUp.bestBreak)
    state.contribution fireUp
  let distributed ← distributeInsertions params state (state.currentPage.take fireUp.bestBreak)
  let heldoverCount ← stored distributed.heldover.length
  pure
    ({ startPageAfterOutput state with
        contribution := broken.afterBreak ++ broken.contribution
        currentPage := distributed.heldover
        insertPenalties := heldoverCount },
      { outputPenalty := broken.outputPenalty, size := fireUp.bestSize
        nodes := distributed.pageNodes, boxes := distributed.boxes })

def PageState.onlyRewrittenBreak (state : PageState) : Bool :=
  (state.currentPage = [.penalty VerticalBreak.infPenalty] ∧ state.contribution = []) ∨
    (state.currentPage = [] ∧ state.contribution = [.penalty VerticalBreak.infPenalty])

def prependOutputHeldover (state : PageState) (outputNodes : List PageNode)
    (discardRewrittenBreak : Bool) : PageState :=
  { startPageAfterOutput state with
    contribution :=
      if discardRewrittenBreak && state.onlyRewrittenBreak then outputNodes
      else state.currentPage ++ outputNodes ++ state.contribution }

/-! ## Documents -/

def PageState.contribute (state : PageState) (nodes : List PageNode) : PageState :=
  { state with contribution := state.contribution ++ nodes }

/-- The pages put out so far, and the matter the document was given in the order of its pages. -/
structure Document where
  page : PageState
  outputs : List OutputPage
  supplied : List PageNode

def Document.new : Document := ⟨.new [], [], []⟩

def Document.printed (document : Document) : List PageNode :=
  matterOf (document.outputs.flatMap OutputPage.nodes)

/-- An output without nodes to return is the one of the program, others are those of the user. -/
inductive PageEvent where
  | contribute (nodes : List PageNode)
  | build (params : PageParams)
  | output (params : OutputParams) (returned : Option (List PageNode))

/-- What an output routine returns comes behind all that is printed. -/
def Document.putOut (document : Document) (params : OutputParams) (fireUp : PageFireUp)
    (returned : Option (List PageNode)) : Building Document := do
  let (page, box255) ← prepareBox255 params document.page fireUp
  let count := (document.printed ++ matterOf box255.nodes).length
  pure
    { page :=
        { prependOutputHeldover page (returned.getD []) returned.isNone with discards := [] }
      outputs := document.outputs ++ [box255]
      supplied :=
        document.supplied.take count ++ matterOf (returned.getD []) ++
          document.supplied.drop count }

def Document.step (document : Document) : PageEvent → Building Document
  | .contribute nodes =>
    .ok { document with
      page := document.page.contribute nodes, supplied := document.supplied ++ matterOf nodes }
  | .build params => do
    let page ← buildPage params document.page
    pure { document with page }
  | .output params returned =>
    match document.page.fireUp with
    | none => .ok document
    | some fireUp => document.putOut params fireUp returned

def Document.run (document : Document) (events : List PageEvent) : Building Document :=
  events.foldlM Document.step document

variable {state : PageState}

theorem distributeFrom_matter (params : OutputParams) (nodes : List PageNode) (index : Nat)
    (queues : Nat → Option InsertionQueue) :
    Ensures (distributeFrom params index queues nodes) fun distributed =>
      matterOf distributed.pageNodes = matterOf nodes ∧ matterOf distributed.heldover = [] := by
  induction nodes generalizing index queues with
  | nil => exact .ok ⟨rfl, rfl⟩
  | cons node nodes ih => ?_
  cases node with
  | ins insertion =>
    unfold distributeFrom
    split
    next => exact (ih _ _).bind fun rest kept => .ok kept
    rename_i queue _
    refine .ite
      (fun _ => .after fun packed _ => (ih _ _).bind fun rest kept => .ok ⟨kept.1, ?_⟩)
      fun _ => ih _ _
    rw [matterOf_append, kept.2, List.append_nil]
    cases packed.2 with
    | none => rfl
    | some remainder => rfl
  | _ =>
    exact (ih _ _).bind fun rest kept =>
      .ok ⟨(matterOf_append [_] _).trans ((congrArg (_ ++ ·) kept.1).trans
        (matterOf_append [_] _).symm), kept.2⟩

theorem rewriteBreak_matter (afterBreak contribution : List PageNode) (fireUp : PageFireUp) :
    matterOf (outputPenaltyAndRewriteBreak afterBreak contribution fireUp).afterBreak ++
        matterOf (outputPenaltyAndRewriteBreak afterBreak contribution fireUp).contribution =
      matterOf afterBreak ++ matterOf contribution := by
  unfold outputPenaltyAndRewriteBreak
  split
  next => rfl
  split
  next =>
    split
    next => exact congrArg (· ++ _) ((matterOf_append _ _).trans (List.append_nil _))
    next => rfl
  next => rfl

theorem prepareBox255_matter (params : OutputParams) (fireUp : PageFireUp) :
    Ensures (prepareBox255 params state fireUp) fun broken =>
      matterOf broken.2.nodes ++ matterOf broken.1.contribution = state.standing.matter ∧
        matterOf broken.1.currentPage = [] := by
  have distributed : Ensures (distributeInsertions params state
      (state.currentPage.take fireUp.bestBreak)) fun distributed =>
      matterOf distributed.pageNodes = matterOf (state.currentPage.take fireUp.bestBreak) ∧
        matterOf distributed.heldover = [] :=
    .ite (fun _ => .ok ⟨rfl, rfl⟩) fun _ => distributeFrom_matter _ _ _ _
  refine distributed.bind fun distributed kept => .after fun _ _ => .ok ⟨?_, kept.2⟩
  rw [kept.1, matterOf_append, rewriteBreak_matter, ← List.append_assoc, ← matterOf_append,
    List.take_append_drop, ← matterOf_append]
  rfl

theorem prependOutputHeldover_matter (outputNodes : List PageNode) (discardRewrittenBreak : Bool)
    (held : matterOf state.currentPage = []) :
    (prependOutputHeldover state outputNodes discardRewrittenBreak).standing.matter =
      matterOf outputNodes ++ matterOf state.contribution := by
  show matterOf (if _ then _ else _) = _
  split
  next only =>
    have bare : matterOf state.contribution = [] := by
      rw [Bool.and_eq_true] at only
      rcases of_decide_eq_true only.2 with ⟨_, empty⟩ | ⟨_, penalty⟩
      · exact congrArg matterOf empty
      · exact congrArg matterOf penalty
    rw [bare, List.append_nil]
  next => rw [matterOf_append, matterOf_append, held, List.nil_append]

def Document.InOrder (document : Document) : Prop :=
  document.printed ++ document.page.standing.matter = document.supplied

theorem Document.InOrder.step {document : Document} (inOrder : document.InOrder)
    (event : PageEvent) : Ensures (document.step event) Document.InOrder := by
  cases event with
  | contribute nodes =>
    refine .ok ?_
    show _ ++ matterOf (_ ++ (_ ++ nodes)) = _ ++ matterOf nodes
    rw [← inOrder, ← List.append_assoc, matterOf_append, ← List.append_assoc]
    rfl
  | build params =>
    have kept : Ensures (buildPage params document.page)
        (·.standing.matter = document.page.standing.matter) :=
      buildPage_keeps (fun same quiet front turned =>
        (buildNode_turned front quiet _ turned).matter.trans same) rfl
    exact kept.bind fun page same => .ok ((congrArg (document.printed ++ ·) same).trans inOrder)
  | output params returned => ?_
  simp only [Document.step]
  split
  next => exact .ok inOrder
  rename_i fireUp _
  refine (prepareBox255_matter params fireUp).bind fun broken kept => .ok ?_
  have printed : matterOf ((document.outputs ++ [broken.2]).flatMap OutputPage.nodes) =
      document.printed ++ matterOf broken.2.nodes := by
    rw [List.flatMap_append, matterOf_append, List.flatMap_singleton]
    rfl
  have split : document.supplied =
      (document.printed ++ matterOf broken.2.nodes) ++ matterOf broken.1.contribution := by
    rw [← inOrder, ← kept.1, List.append_assoc]
  refine (congrArg (matterOf _ ++ ·) (prependOutputHeldover_matter _ _ kept.2)).trans ?_
  rw [printed, split, List.take_left, List.drop_left, ← List.append_assoc]

/-- In every run, what is printed, on the page and waiting is the document's matter in order. -/
theorem document_in_order (events : List PageEvent) :
    (fun document => document.printed ++ document.page.standing.matter) <$>
        Document.new.run events = Document.supplied <$> Document.new.run events := by
  have runs : ∀ (events : List PageEvent) (start : Document), start.InOrder →
      Ensures (start.run events) Document.InOrder := by
    intro events
    induction events with
    | nil => exact fun start inOrder => .ok inOrder
    | cons event events ih =>
      exact fun start inOrder => (inOrder.step event).bind fun next kept => ih next kept
  cases ran : Document.new.run events with
  | error error => rfl
  | ok document => exact congrArg Except.ok (runs events .new rfl document ran)

end Umber.PageBuilder
