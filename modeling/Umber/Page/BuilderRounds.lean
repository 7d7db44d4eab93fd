import Umber.Lib.Except
import Umber.Page.Builder

/-! What one round of the page builder does with the contributions. -/

set_option autoImplicit false

namespace Umber.PageBuilder

open Umber.Typeset ExceptLib

structure Choice where
  fireUp : Option PageFireUp
  leastPageCost : Int
  bestPageBreak : Option Nat
  bestSize : Int

structure Standing where
  contents : PageContents
  choice : Choice
  contribution : List PageNode
  currentPage : List PageNode

def PageState.choice (state : PageState) : Choice :=
  ⟨state.fireUp, state.leastPageCost, state.bestPageBreak, state.bestSize⟩

def PageState.standing (state : PageState) : Standing :=
  ⟨state.contents, state.choice, state.contribution, state.currentPage⟩

/-- A node that the builder neither discards nor rewrites. -/
def PageNode.isMatter : PageNode → Bool
  | .ins _ => false
  | node => !node.isPageTopDiscardable

def matterOf (nodes : List PageNode) : List PageNode := nodes.filter PageNode.isMatter

def Standing.matter (standing : Standing) : List PageNode :=
  matterOf (standing.currentPage ++ standing.contribution)

theorem matterOf_append (left right : List PageNode) :
    matterOf (left ++ right) = matterOf left ++ matterOf right := List.filter_append ..

theorem matterOf_cons_other {node : PageNode} (other : node.isMatter = false)
    (nodes : List PageNode) : matterOf (node :: nodes) = matterOf nodes :=
  List.filter_cons_of_neg (Bool.eq_false_iff.mp other)

variable {params : PageParams} {state : PageState}

theorem addGlueStretch_keeps (spec : GlueSpec) :
    Ensures (addGlueStretch state spec) (·.standing = state.standing) :=
  .after fun _ _ => .ok rfl

theorem addRoom_keeps (width depth : Int) :
    Ensures (addRoom state width depth) (·.standing = state.standing) :=
  .after fun _ _ => .after fun _ _ => .ok rfl

theorem updateGlueOrKern_keeps (node : PageNode) :
    Ensures (updateGlueOrKern state node) fun found => found.1.standing = state.standing ∧
      matterOf [found.2] = matterOf [node] := by
  cases node with
  | kern amount => exact (addRoom_keeps _ _).bind fun _ kept => .ok ⟨kept, rfl⟩
  | glue spec topSkip =>
    exact (addGlueStretch_keeps _).bind fun stretched widened => .after fun shrink _ =>
      (@addRoom_keeps (stretched.setShrink shrink) _ _).bind fun _ kept =>
        .ok ⟨kept.trans widened, rfl⟩
  | _ => exact .ok ⟨rfl, rfl⟩

theorem ensureMaxDepth_keeps : Ensures (ensureMaxDepth state) (·.standing = state.standing) :=
  .ite (fun _ => .after fun _ _ => .after fun _ _ => .ok rfl) fun _ => .ok rfl

theorem insertionBoxSize_keeps (insertClass : Nat) :
    Ensures (insertionBoxSize params state insertClass) (·.1.standing = state.standing) := by
  refine .ite (fun _ => .ok rfl) fun _ => ?_
  split
  next => exact .ok rfl
  next => exact .ok rfl
  next => exact .after fun _ _ => .ok rfl

theorem pageInsertionFor_keeps (insertClass : Nat) :
    Ensures (pageInsertionFor params state insertClass) (·.1.standing = state.standing) := by
  unfold pageInsertionFor
  split
  next => exact .ok rfl
  exact (insertionBoxSize_keeps _).bind fun boxed sized => .after fun _ _ => .after fun _ _ =>
    .after fun goal _ => (@addGlueStretch_keeps (boxed.1.setGoal goal) _).bind fun _ kept =>
      .after fun _ _ => .ok (kept.trans sized)

theorem addInsertPenalty_keeps (penalty : Int) :
    Ensures (addInsertPenalty state penalty) (·.standing = state.standing) :=
  .ite (fun _ => .ok rfl) fun _ => .error _

theorem splitPageInsertion_keeps (record : PageInsertion) (insertion : Insertion) :
    Ensures (splitPageInsertion params state record insertion) (·.1.standing = state.standing) :=
  .after fun _ _ => .after fun _ _ => .after fun _ _ => .after fun _ _ => .after fun goal _ =>
    (@addInsertPenalty_keeps (state.setGoal goal) _).bind fun _ kept => .ok kept

theorem prepareInsertion_keeps (insertion : Insertion) :
    Ensures (prepareInsertion params state insertion) (·.1.standing = state.standing) := by
  refine (pageInsertionFor_keeps _).bind fun found known => ?_
  dsimp only
  split
  next => exact (addInsertPenalty_keeps _).bind fun _ kept => .ok (kept.trans known)
  refine .after fun _ _ => .after fun _ _ => .after fun fits _ => .ite (fun _ => ?_) fun _ => ?_
  · exact .after fun _ _ => .after fun _ _ => .ok known
  · exact (splitPageInsertion_keeps _ _).bind fun _ kept => .ok (kept.trans known)

/-! ## The break a round looks at -/

structure LegalBreak where
  place : Nat
  penalty : Int
  cost : Int

/-- The break at the end of the current page. -/
def breakPrice (state : PageState) (penalty : Int) : Building (Option LegalBreak) :=
  if VerticalBreak.infPenalty ≤ penalty then .ok none
  else do
    let badness ← pageBadness state.totals
    let cost ← breakCost badness penalty state.insertPenalties
    pure (some
      { place := state.currentPage.length, penalty
        cost :=
          if VerticalBreak.infPenalty ≤ state.insertPenalties then VerticalBreak.awfulBad
          else cost })

def PageState.noteBest (state : PageState) (legal : LegalBreak) : PageState :=
  if legal.cost ≤ state.leastPageCost then
    state.recordBestPageBreak legal.place state.totals.goal legal.cost
  else state

def PageState.visit (state : PageState) (legal : LegalBreak) : PageState :=
  if legal.cost = VerticalBreak.awfulBad ∨ legal.penalty ≤ VerticalBreak.ejectPenalty then
    (state.noteBest legal).recordPageFireUp legal.place
  else state.noteBest legal

theorem checkBreak_eq (state : PageState) (penalty : Int) :
    checkBreak state penalty = breakPrice state penalty >>= fun legal =>
      pure (legal.elim state state.visit) := by
  unfold checkBreak breakPrice
  split
  next => rfl
  simp only [bind_assoc]
  rfl

def breakPenalty (state : PageState) (node : PageNode) (second : Option PageNode) : Option Int :=
  if state.hasBox = false then none
  else
    match node with
    | .glue _ _ => if state.currentPage.getLast?.any precedesBreak = true then some 0 else none
    | .kern _ => if second.any isGlue = true then some 0 else none
    | .penalty value => some value
    | _ => none

def legalBreak (state : PageState) (node : PageNode) (second : Option PageNode) :
    Building (Option LegalBreak) :=
  (breakPenalty state node second).elim (.ok none) (breakPrice state)

def Visited (state : PageState) (node : PageNode) (second : Option PageNode)
    (visited : PageState) : Prop :=
  ∃ legal, legalBreak state node second = .ok legal ∧ visited = legal.elim state state.visit

variable {node : PageNode} {second : Option PageNode} {visited : PageState}

theorem Visited.keeps (seen : Visited state node second visited) :
    visited.standing = { state.standing with choice := visited.choice } := by
  obtain ⟨legal, _, rfl⟩ := seen
  cases legal with
  | none => rfl
  | some legal => ?_
  simp only [Option.elim_some, PageState.visit, PageState.noteBest]
  split
  all_goals
    split
    all_goals rfl

theorem visited_none (looked : breakPenalty state node second = none) :
    Visited state node second state := ⟨none, by rw [legalBreak, looked]; rfl, rfl⟩

theorem visited_some {penalty : Int} (looked : breakPenalty state node second = some penalty) :
    Ensures (checkBreak state penalty) (Visited state node second) := by
  rw [checkBreak_eq]
  exact .after fun legal priced => .ok ⟨legal, by rw [legalBreak, looked]; exact priced, rfl⟩

def Decided (state : PageState) (node : PageNode) (second : Option PageNode) (choice : Choice) :
    Prop :=
  (state.hasBox = false ∧ choice = ⟨none, VerticalBreak.awfulBad, none, 0⟩) ∨
    ∃ visited, Visited state node second visited ∧ choice = visited.choice

/-- At most this many rounds are left: one a contribution, and two around the skip that the first
box of a page is behind. -/
def PageState.roundsLeft (state : PageState) : Nat :=
  state.contribution.length + if state.hasBox = true then 0 else 2

structure Turned (state : PageState) (node : PageNode) (second : Option PageNode)
    (round : Round) : Prop where
  matter : round.state.standing.matter = state.standing.matter
  boxed : state.hasBox = true → round.state.hasBox = true
  calm : round.stopped = false → round.state.fireUp = none
  decided : Decided state node second round.state.choice
  fewer : round.stopped = false → round.state.roundsLeft < state.roundsLeft

variable {rest : List PageNode}

theorem roundsLeft_lt {next : PageState} (front : state.contribution = node :: rest)
    (taken : next.contribution = rest) (boxed : state.hasBox = true → next.hasBox = true) :
    next.roundsLeft < state.roundsLeft := by
  unfold PageState.roundsLeft
  rw [front, taken, List.length_cons]
  by_cases there : state.hasBox = true
  · rw [if_pos there, if_pos (boxed there)]
    exact Nat.lt_succ_self _
  rw [if_neg there]
  split
  all_goals omega

theorem Decided.bare (bare : state.hasBox = false) : Decided state node second state.choice :=
  .inr ⟨_, visited_none (if_pos bare), rfl⟩

theorem contributeFrontAs_turned (front : state.contribution = node :: rest) {before : PageState}
    {shown : PageNode} {contents : PageContents} {choice : Choice}
    (kept : before.standing = { state.standing with contents, choice })
    (boxed : state.hasBox = true → contents = .boxThere) (calm : choice.fireUp = none)
    (decided : Decided state node second choice) (same : matterOf [shown] = matterOf [node]) :
    Ensures (contributeFrontAs before shown) fun next =>
      ∀ stopped, Turned state node second ⟨next, stopped⟩ := by
  refine ensureMaxDepth_keeps.bind fun bounded fitted => .ok ?_
  have held := fitted.trans kept
  have quiet : bounded.fireUp = none := (congrArg (·.choice.fireUp) held).trans calm
  have contributed : bounded.contribution = state.contribution :=
    congrArg Standing.contribution held
  have there : state.hasBox = true → decide (bounded.contents = .boxThere) = true := fun box =>
    decide_eq_true ((congrArg Standing.contents held).trans (boxed box))
  refine fun stopped => ⟨?_, there, fun _ => quiet, ?_, fun _ => roundsLeft_lt front ?_ there⟩
  · show matterOf (bounded.currentPage ++ [shown] ++ bounded.contribution.tail) =
      matterOf (state.currentPage ++ state.contribution)
    rw [show bounded.currentPage = state.currentPage from congrArg Standing.currentPage held,
      contributed, front, List.append_assoc, matterOf_append, matterOf_append, matterOf_append, same,
      ← matterOf_append]
    rfl
  · rw [← show bounded.choice = choice from congrArg Standing.choice held] at decided
    exact decided
  show bounded.contribution.tail = rest
  rw [contributed, front]
  rfl

theorem waits_turned (seen : Visited state node second visited) :
    Turned state node second ⟨visited, true⟩ := by
  have kept := seen.keeps
  refine ⟨congrArg (·.matter) kept, fun boxed => ?_, fun going => ?_, .inr ⟨_, seen, rfl⟩,
    fun going => ?_⟩
  · exact decide_eq_true ((congrArg Standing.contents kept).trans (of_decide_eq_true boxed))
  · cases going
  · cases going

theorem topSkip_turned (bare : state.hasBox = false) (quiet : state.fireUp = none) :
    Turned state node second ⟨initializePageWithTopskip params state node, false⟩ := by
  have glued : matterOf (state.currentPage ++ topSkipFor params node :: state.contribution) =
      state.standing.matter := by
    rw [matterOf_append, matterOf_cons_other rfl, ← matterOf_append]
    rfl
  have fewer : ∀ next : PageState, next.contribution = topSkipFor params node :: state.contribution →
      next.hasBox = true → next.roundsLeft < state.roundsLeft := by
    intro next longer there
    unfold PageState.roundsLeft
    rw [longer, there, bare, List.length_cons]
    exact Nat.lt_succ_self _
  unfold initializePageWithTopskip
  split
  next =>
    exact ⟨glued, fun _ => rfl, fun _ => quiet, .inl ⟨bare, congrArg (Choice.mk · _ _ _) quiet⟩,
      fun _ => fewer _ rfl rfl⟩
  next => exact ⟨glued, fun _ => rfl, fun _ => quiet, .bare bare, fun _ => fewer _ rfl rfl⟩

section

variable (front : state.contribution = node :: rest)
include front

theorem discardFront_turned (loose : node.isPageTopDiscardable = true) (bare : state.hasBox = false)
    (quiet : state.fireUp = none) :
    Turned state node second ⟨discardFront params state node, false⟩ := by
  have other : node.isMatter = false := by
    cases node with
    | ins insertion => rfl
    | _ => exact congrArg not loose
  have dropped : matterOf (state.currentPage ++ state.contribution.tail) =
      state.standing.matter := by
    rw [Standing.matter, show state.standing.contribution = node :: rest from front, front,
      matterOf_append, matterOf_append, matterOf_cons_other other]
    rfl
  unfold discardFront
  split
  all_goals
    exact ⟨dropped, id, fun _ => quiet, .bare bare, fun _ =>
      roundsLeft_lt front (congrArg List.tail front) id⟩

theorem contributeRoom_turned {legal : Bool}
    (looked : breakPenalty state node second = if legal = true then some 0 else none) :
    Ensures (contributeRoom state node legal >>= fun next => pure (goOn next))
      (Turned state node second) := by
  refine Ensures.bind (show Ensures _ fun next => Turned state node second (goOn next) from
    .after fun visited legality => ?_) fun _ turned => .ok turned
  have seen : Visited state node second visited := by
    cases legal with
    | true => exact visited_some looked _ legality
    | false =>
      cases legality
      exact visited_none looked
  refine .ite (fun fired => .ok ?_) fun calm => ?_
  · rw [goOn, fired]
    exact waits_turned seen
  exact (updateGlueOrKern_keeps _).bind fun room moved next placed =>
  contributeFrontAs_turned front (moved.1.trans seen.keeps)
    of_decide_eq_true (Option.not_isSome_iff_eq_none.mp calm) (.inr ⟨_, seen, rfl⟩)
    moved.2 next placed _

theorem buildNode_turned (quiet : state.fireUp = none) :
    Ensures (buildNode params state node second) (Turned state node second) := by
  have placed : ∀ {visited before : PageState} {shown : PageNode},
      Visited state node second visited → visited.fireUp = none →
      before.standing = visited.standing → matterOf [shown] = matterOf [node] →
      Ensures (contributeFrontAs before shown >>= fun next => pure ⟨next, false⟩)
        (Turned state node second) := fun seen calm kept same =>
    (contributeFrontAs_turned front (kept.trans seen.keeps) of_decide_eq_true calm
      (.inr ⟨_, seen, rfl⟩) same).bind fun _ turned => .ok (turned false)
  cases node with
  | hlist | vlist | rule =>
    exact .ite (fun bare => .ok (topSkip_turned bare quiet)) fun _ =>
      (addRoom_keeps _ _).bind fun _ kept => placed (visited_none (ite_self _)) quiet kept rfl
  | glue spec topSkip =>
    exact .ite (fun bare => .ok (discardFront_turned front rfl bare quiet)) fun boxed =>
      contributeRoom_turned front (if_neg boxed)
  | kern amount =>
    refine .ite (fun bare => .ok (discardFront_turned front rfl bare quiet)) fun boxed => ?_
    cases second with
    | none => exact .ok (waits_turned (visited_none (if_neg boxed)))
    | some next => exact contributeRoom_turned front (if_neg boxed)
  | penalty value =>
    refine .ite (fun bare => .ok (discardFront_turned front rfl bare quiet)) fun boxed =>
      .after fun visited priced => ?_
    have seen := visited_some
      (show breakPenalty state (.penalty value) second = some value from if_neg boxed) _ priced
    exact .ite (fun _ => .ok (waits_turned seen)) fun calm =>
      placed seen (Option.not_isSome_iff_eq_none.mp calm) rfl rfl
  | ins insertion =>
    refine (prepareInsertion_keeps _).bind fun settled kept => ?_
    by_cases empty : state.contents = .empty
    · rw [if_pos empty] at kept
      have bare : state.hasBox = false := by
        rw [PageState.hasBox, empty]
        rfl
      refine .bind (contributeFrontAs_turned front kept (fun boxed => ?_) quiet
        (.inl ⟨bare, congrArg (Choice.mk · _ _ _) quiet⟩) rfl) fun _ turned => .ok (turned false)
      exact absurd (bare.symm.trans boxed) Bool.false_ne_true
    rw [if_neg empty] at kept
    exact placed (visited_none (ite_self _)) quiet kept rfl
  | whatsit pdfSnapY =>
    exact .ite (fun loose => .ok (discardFront_turned front loose.2 loose.1 quiet)) fun _ =>
      placed (visited_none (ite_self _)) quiet rfl rfl
  | mark => exact placed (visited_none (ite_self _)) quiet rfl rfl
  | other => exact .error _

end

theorem buildPage_keeps {invariant : PageState → Prop}
    (step : ∀ {state : PageState} {node : PageNode} {rest : List PageNode} {round : Round},
      invariant state → state.fireUp = none → state.contribution = node :: rest →
      buildNode params state node rest.head? = .ok round → invariant round.state)
    (start : invariant state) : Ensures (buildPage params state) invariant := by
  have looped : ∀ fuel state, invariant state → state.fireUp = none →
      Ensures (buildLoop params fuel state) invariant := by
    intro fuel
    induction fuel with
    | zero => exact fun state holds _ => .ite (fun _ => .ok holds) fun _ => .error _
    | succ fuel ih => ?_
    intro state holds quiet
    unfold buildLoop
    split
    next => exact .ok holds
    rename_i node rest front
    refine .after fun round turned => ?_
    have kept := step holds quiet front turned
    refine .ite (fun _ => .ok kept) fun going => ih round.state kept ?_
    exact (buildNode_turned front quiet _ turned).calm (Bool.eq_false_iff.mpr going)
  exact .ite (fun _ => .ok start) fun calm =>
    looped _ state start (Option.not_isSome_iff_eq_none.mp calm)

end Umber.PageBuilder
