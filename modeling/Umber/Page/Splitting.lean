import Umber.Typeset.Widths

/-! Pruning the top of a page: the runs of nodes before the first box, collected as ranges. -/

set_option autoImplicit false

namespace Umber.PageSplitting

open Umber.Typeset

inductive NodeView where
  | hlist (height : Int)
  | vlist (height : Int)
  | rule (height : Option Int)
  | glue
  | kern
  | penalty
  | whatsit (pdfSnapY : Bool)
  | other
deriving DecidableEq

def NodeView.isBox : NodeView → Bool
  | .hlist _ | .vlist _ | .rule _ => true
  | _ => false

def NodeView.isPageTopDiscardable : NodeView → Bool
  | .glue | .kern | .penalty | .whatsit true => true
  | _ => false

def NodeView.verticalHeight : NodeView → Int
  | .hlist height | .vlist height => height
  | .rule height => height.getD 0
  | _ => 0

/-- A node of the pruned list: one of the source, or the glue in front of the first box. -/
inductive PrunedNode (α : Type) where
  | source (node : α)
  | splitTopSkip (spec : GlueSpec)
deriving DecidableEq

def checkedSub (left right : Int) : Option Int :=
  if -2147483648 ≤ left - right ∧ left - right ≤ 2147483647 then some (left - right) else none

def adjustedTopSkip (splitTopSkip : GlueSpec) (node : NodeView) : GlueSpec :=
  { splitTopSkip with
    width := ((checkedSub splitTopSkip.width node.verticalHeight).filter fun width =>
      0 < width).getD 0 }

/-! ## Runs -/

structure Runs where
  ranges : List (Nat × Nat)
  start : Option Nat

namespace Runs

def none : Runs := ⟨[], .none⟩

def close (runs : Runs) (stop : Nat) : Runs :=
  match runs.start with
  | some start => ⟨runs.ranges ++ [(start, stop)], .none⟩
  | .none => runs

def extend (runs : Runs) (index : Nat) : Runs :=
  { runs with start := some (runs.start.getD index) }

def nodes {α : Type} (runs : Runs) (source : List α) : List α :=
  runs.ranges.flatMap fun range => (source.drop range.1).take (range.2 - range.1)

end Runs

section Prune

variable {α : Type} (view : α → NodeView) (splitTopSkip : GlueSpec)

/-- The index of the first box and the glue in front of it. -/
abbrev FirstBox := Option (Nat × GlueSpec)

def scanTop : Nat → List α → Runs → Runs × FirstBox
  | _, [], runs => (runs, none)
  | index, node :: rest, runs =>
    if (view node).isBox then
      (runs.close index, some (index, adjustedTopSkip splitTopSkip (view node)))
    else if (view node).isPageTopDiscardable then scanTop (index + 1) rest (runs.close index)
    else scanTop (index + 1) rest (runs.extend index)

def composed (source : List α) (retained : Runs) (firstBox : FirstBox) : List (PrunedNode α) :=
  (retained.nodes source).map .source ++
    match firstBox with
    | some (index, spec) => .splitTopSkip spec :: (source.drop index).map .source
    | none => []

def prunePageTopList (source : List α) : List (PrunedNode α) :=
  let scanned := scanTop view splitTopSkip 0 source .none
  let retained := if scanned.2.isNone then scanned.1.close source.length else scanned.1
  composed source retained scanned.2

structure TwoRuns where
  retained : Runs
  discarded : Runs

def scanTopWithDiscards : Nat → List α → TwoRuns → TwoRuns × FirstBox
  | _, [], runs => (runs, none)
  | index, node :: rest, runs =>
    if (view node).isBox then
      (⟨runs.retained.close index, runs.discarded.close index⟩,
        some (index, adjustedTopSkip splitTopSkip (view node)))
    else if (view node).isPageTopDiscardable then
      scanTopWithDiscards (index + 1) rest
        ⟨runs.retained.close index, runs.discarded.extend index⟩
    else
      scanTopWithDiscards (index + 1) rest
        ⟨runs.retained.extend index, runs.discarded.close index⟩

def prunePageTopListWithDiscards (source : List α) : List (PrunedNode α) × List α :=
  let scanned := scanTopWithDiscards view splitTopSkip 0 source ⟨.none, .none⟩
  let runs :=
    if scanned.2.isNone then
      ⟨scanned.1.retained.close source.length, scanned.1.discarded.close source.length⟩
    else scanned.1
  (composed source runs.retained scanned.2, runs.discarded.nodes source)

end Prune

/-! ## What the runs hold -/

structure Holds {α : Type} (source : List α) (belongs : α → Bool) (runs : Runs) (done : List α) :
    Prop where
  below : ∀ start, runs.start = some start → start ≤ done.length
  closed : (runs.close done.length).nodes source = done.filter belongs

theorem Runs.close_close (runs : Runs) (stop other : Nat) :
    (runs.close stop).close other = runs.close stop := by
  obtain ⟨ranges, start⟩ := runs
  cases start <;> rfl

theorem Runs.close_start (runs : Runs) (stop : Nat) : (runs.close stop).start = .none := by
  obtain ⟨ranges, start⟩ := runs
  cases start <;> rfl

theorem Runs.nodes_close {α : Type} (source : List α) (runs : Runs) (stop : Nat) :
    (runs.close stop).nodes source = runs.nodes source ++
      (runs.start.elim [] fun start => (source.drop start).take (stop - start)) := by
  obtain ⟨ranges, start⟩ := runs
  cases start with
  | none => simp [close, nodes]
  | some start => simp [close, nodes]

theorem holds_none {α : Type} (source : List α) (belongs : α → Bool) :
    Holds source belongs .none [] :=
  ⟨nofun, rfl⟩

section Steps

variable {α : Type} {source done rest : List α} {belongs : α → Bool} {runs : Runs} {node : α}

theorem Holds.close (holds : Holds source belongs runs done) (apart : belongs node = false) :
    Holds source belongs (runs.close done.length) (done ++ [node]) where
  below := by
    intro start found
    rw [Runs.close_start] at found
    cases found
  closed := by
    rw [Runs.close_close, holds.closed, List.filter_append, List.filter_cons_of_neg (by
      rw [apart]; exact Bool.false_ne_true), List.filter_nil, List.append_nil]

theorem Holds.extend (holds : Holds source belongs runs done) (whole : source = done ++ node :: rest)
    (member : belongs node = true) :
    Holds source belongs (runs.extend done.length) (done ++ [node]) := by
  have longer : (done ++ [node]).length = done.length + 1 := List.length_append
  have here : source.drop done.length = node :: rest := by
    rw [whole]
    exact List.drop_left
  have closed := holds.closed
  rw [Runs.nodes_close] at closed
  constructor
  · intro start found
    rw [longer]
    cases begun : runs.start with
    | none =>
      simp only [Runs.extend, begun, Option.getD_none] at found
      cases found
      exact Nat.le_succ _
    | some earlier => ?_
    simp only [Runs.extend, begun, Option.getD_some] at found
    cases found
    exact Nat.le_succ_of_le (holds.below _ begun)
  rw [Runs.nodes_close, longer, List.filter_append, List.filter_cons_of_pos member,
    List.filter_nil, ← closed, List.append_assoc]
  have same : (runs.extend done.length).nodes source = runs.nodes source := rfl
  rw [same]
  cases begun : runs.start with
  | none => simp [Runs.extend, begun, here]
  | some earlier => ?_
  have low := holds.below _ begun
  have next : (source.drop earlier).take (done.length + 1 - earlier) =
      (source.drop earlier).take (done.length - earlier) ++ [node] := by
    have steps : done.length + 1 - earlier = done.length - earlier + 1 := by omega
    have there : (source.drop earlier)[done.length - earlier]? = some node := by
      rw [List.getElem?_drop, Nat.add_sub_cancel' low, whole,
        List.getElem?_append_right (Nat.le_refl _), Nat.sub_self]
      rfl
    rw [steps, List.take_add_one, there]
    rfl
  simp [Runs.extend, begun, next]

end Steps

section Pruned

variable {α : Type} (view : α → NodeView) (splitTopSkip : GlueSpec)

def beforeBox (source : List α) : List α := source.takeWhile fun node => !(view node).isBox

def fromBox (source : List α) : List α := source.dropWhile fun node => !(view node).isBox

def discardable (node : α) : Bool := (view node).isPageTopDiscardable

/-- The glue in front of a box: the skip less the height of the box, where it is positive and
fits a scaled value. -/
def topGlue (node : NodeView) : GlueSpec :=
  { splitTopSkip with
    width :=
      if 2147483647 < splitTopSkip.width - node.verticalHeight then 0
      else if 0 ≤ splitTopSkip.width - node.verticalHeight then
        splitTopSkip.width - node.verticalHeight
      else 0 }

theorem adjustedTopSkip_eq (node : NodeView) :
    adjustedTopSkip splitTopSkip node = topGlue splitTopSkip node := by
  unfold adjustedTopSkip topGlue checkedSub
  congr 1
  split
  next fits =>
    rw [if_neg (by omega), Option.filter_some]
    by_cases positive : 0 < splitTopSkip.width - node.verticalHeight
    · rw [if_pos (decide_eq_true positive), if_pos (by omega)]
      rfl
    rw [if_neg (by rw [decide_eq_true_iff]; exact positive)]
    by_cases zero : 0 ≤ splitTopSkip.width - node.verticalHeight
    · rw [if_pos zero]
      show (0 : Int) = _
      omega
    rw [if_neg zero]
    rfl
  rename_i out
  show (0 : Int) = _
  by_cases above : 2147483647 < splitTopSkip.width - node.verticalHeight
  · rw [if_pos above]
  · rw [if_neg above, if_neg (by omega)]

/-- The scan for the kept list is the first half of the scan for both. -/
theorem scanTop_eq (index : Nat) (rest : List α) (runs : TwoRuns) :
    scanTop view splitTopSkip index rest runs.retained =
      ((scanTopWithDiscards view splitTopSkip index rest runs).1.retained,
        (scanTopWithDiscards view splitTopSkip index rest runs).2) := by
  induction rest generalizing index runs with
  | nil => rfl
  | cons node rest ih => ?_
  rw [scanTop, scanTopWithDiscards]
  by_cases box : (view node).isBox = true
  · rw [if_pos box, if_pos box]
  rw [if_neg box, if_neg box]
  by_cases vanishes : (view node).isPageTopDiscardable = true
  · rw [if_pos vanishes, if_pos vanishes]
    exact ih _ ⟨_, _⟩
  rw [if_neg vanishes, if_neg vanishes]
  exact ih _ ⟨_, _⟩

def settled (source : List α) (firstBox : FirstBox) (runs : Runs) : Runs :=
  if firstBox.isNone then runs.close source.length else runs

structure Found (source : List α) (scanned : TwoRuns × FirstBox) : Prop where
  retained : (settled source scanned.2 scanned.1.retained).nodes source =
    (beforeBox view source).filter fun node => !discardable view node
  discarded : (settled source scanned.2 scanned.1.discarded).nodes source =
    (beforeBox view source).filter (discardable view)
  firstBox : scanned.2 = (fromBox view source).head?.map fun node =>
    ((beforeBox view source).length, topGlue splitTopSkip (view node))

theorem scan_found {source done rest : List α} {runs : TwoRuns} (whole : source = done ++ rest)
    (clear : ∀ node ∈ done, (view node).isBox = false)
    (keeps : Holds source (fun node => !discardable view node) runs.retained done)
    (drops : Holds source (discardable view) runs.discarded done) : Found view splitTopSkip source
      (scanTopWithDiscards view splitTopSkip done.length rest runs) := by
  have notBox : ∀ node ∈ done, (!(view node).isBox) = true :=
    fun node member => by rw [clear node member]; rfl
  induction rest generalizing done runs with
  | nil =>
    rw [List.append_nil] at whole
    subst whole
    have all : beforeBox view source = source := by
      have taken := @List.takeWhile_append_of_pos _ _ _ [] notBox
      rw [List.append_nil, List.takeWhile_nil, List.append_nil] at taken
      exact taken
    have empty : fromBox view source = [] := by
      have dropped := @List.dropWhile_append_of_pos _ _ _ [] notBox
      rw [List.append_nil, List.dropWhile_nil] at dropped
      exact dropped
    rw [scanTopWithDiscards]
    refine ⟨?_, ?_, ?_⟩
    · rw [all]
      exact keeps.closed
    · rw [all]
      exact drops.closed
    rw [empty]
    rfl
  | cons node rest ih => ?_
  have longer : done.length + 1 = (done ++ [node]).length := by
    rw [List.length_append]
    rfl
  rw [scanTopWithDiscards]
  by_cases box : (view node).isBox = true
  · have stops : ¬ (!(view node).isBox) = true := by
      rw [box]
      exact Bool.false_ne_true
    have before : beforeBox view source = done := by
      rw [beforeBox, whole, List.takeWhile_append_of_pos notBox]
      simp only [List.takeWhile_cons, if_neg stops, List.append_nil]
    have behind : fromBox view source = node :: rest := by
      rw [fromBox, whole, List.dropWhile_append_of_pos notBox]
      simp only [List.dropWhile_cons, if_neg stops]
    rw [if_pos box]
    refine ⟨?_, ?_, ?_⟩
    · rw [before]
      exact keeps.closed
    · rw [before]
      exact drops.closed
    rw [before, behind, adjustedTopSkip_eq]
    rfl
  have open_ : (view node).isBox = false := Bool.eq_false_iff.mpr box
  have whole' : source = (done ++ [node]) ++ rest := by
    rw [whole, List.append_assoc]
    rfl
  have clear' : ∀ other ∈ done ++ [node], (view other).isBox = false := by
    intro other member
    rcases List.mem_append.mp member with older | new
    · exact clear other older
    rw [List.mem_singleton.mp new]
    exact open_
  rw [if_neg box]
  by_cases vanishes : (view node).isPageTopDiscardable = true
  · rw [if_pos vanishes, longer]
    refine ih whole' clear' (keeps.close ?_) (drops.extend whole vanishes) ?_
    · rw [discardable, vanishes]
      rfl
    · exact fun other member => by rw [clear' other member]; rfl
  have stays : discardable view node = false := Bool.eq_false_iff.mpr vanishes
  rw [if_neg vanishes, longer]
  refine ih whole' clear' (keeps.extend whole ?_) (drops.close stays) ?_
  · rw [stays]
    rfl
  · exact fun other member => by rw [clear' other member]; rfl

variable (source : List α)

theorem beforeBox_fromBox : beforeBox view source ++ fromBox view source = source :=
  List.takeWhile_append_dropWhile

def sources (pruned : List (PrunedNode α)) : List α :=
  pruned.filterMap fun
    | .source node => some node
    | .splitTopSkip _ => none

theorem sources_map (nodes : List α) : sources (nodes.map .source) = nodes := by
  rw [sources, List.filterMap_map]
  exact List.filterMap_some

theorem scan_whole : Found view splitTopSkip source
    (scanTopWithDiscards view splitTopSkip 0 source ⟨.none, .none⟩) :=
  @scan_found _ view splitTopSkip _ [] _ _ rfl nofun
    (holds_none source _) (holds_none source _)

def keptList : List (PrunedNode α) :=
  ((beforeBox view source).filter fun node => !discardable view node).map .source ++
    (((fromBox view source).head?.map fun node =>
        PrunedNode.splitTopSkip (topGlue splitTopSkip (view node))).toList ++
      (fromBox view source).map .source)

theorem prunePageTopListWithDiscards_eq : prunePageTopListWithDiscards view splitTopSkip source =
      (keptList view splitTopSkip source, (beforeBox view source).filter (discardable view)) := by
  have found := scan_whole view splitTopSkip source
  have behind : source.drop (beforeBox view source).length = fromBox view source := by
    have parts := congrArg (List.drop (beforeBox view source).length)
      (beforeBox_fromBox view source)
    rw [List.drop_left] at parts
    exact parts.symm
  generalize scanned : scanTopWithDiscards view splitTopSkip 0 source ⟨.none, .none⟩ = result
    at found
  obtain ⟨runs, firstBox⟩ := result
  obtain ⟨retained, discarded, first⟩ := found
  simp only at retained discarded first
  rw [prunePageTopListWithDiscards, scanned, keptList, ← retained, ← discarded]
  cases box : fromBox view source with
  | nil =>
    rw [box] at first
    subst first
    rfl
  | cons node rest => ?_
  rw [box] at first behind
  subst first
  simp only [List.head?_cons, Option.map_some, composed, behind]
  rfl

theorem prunePageTopList_eq : (prunePageTopListWithDiscards view splitTopSkip source).1 =
      prunePageTopList view splitTopSkip source := by
  rw [prunePageTopList, scanTop_eq view splitTopSkip 0 source ⟨.none, .none⟩,
    prunePageTopListWithDiscards]
  generalize scanTopWithDiscards view splitTopSkip 0 source ⟨.none, .none⟩ = scanned
  obtain ⟨runs, firstBox⟩ := scanned
  cases firstBox <;> rfl

theorem sources_kept : sources (keptList view splitTopSkip source) =
    ((beforeBox view source).filter fun node => !discardable view node) ++ fromBox view source := by
  have noGlue : sources (((fromBox view source).head?.map fun node =>
      @PrunedNode.splitTopSkip α (topGlue splitTopSkip (view node))).toList) = [] := by
    cases (fromBox view source).head? <;> rfl
  rw [keptList, sources, List.filterMap_append, List.filterMap_append]
  change sources _ ++ (sources _ ++ sources _) = _
  rw [sources_map, noGlue, sources_map, List.nil_append]

/-- Both prunings keep the same list, and every node of the source is kept or discarded, once. -/
theorem prunePageTopList_exact : (prunePageTopListWithDiscards view splitTopSkip source).1 =
        prunePageTopList view splitTopSkip source ∧
      prunePageTopList view splitTopSkip source = keptList view splitTopSkip source ∧
      (prunePageTopListWithDiscards view splitTopSkip source).2 =
        (beforeBox view source).filter (discardable view) ∧
      (sources (prunePageTopListWithDiscards view splitTopSkip source).1 ++
        (prunePageTopListWithDiscards view splitTopSkip source).2).Perm source := by
  have both := prunePageTopListWithDiscards_eq view splitTopSkip source
  have same := prunePageTopList_eq view splitTopSkip source
  refine ⟨same, ?_, ?_, ?_⟩
  · rw [← same, both]
  · rw [both]
  have parted : (((beforeBox view source).filter fun node => !discardable view node) ++
      (beforeBox view source).filter (discardable view)).Perm (beforeBox view source) :=
    List.perm_append_comm.trans (List.filter_append_perm (discardable view) _)
  rw [both, sources_kept]
  calc (((beforeBox view source).filter fun node => !discardable view node) ++
        fromBox view source) ++ (beforeBox view source).filter (discardable view)
    _ |>.Perm ((((beforeBox view source).filter fun node => !discardable view node) ++
        (beforeBox view source).filter (discardable view)) ++ fromBox view source) := by
      rw [List.append_assoc, List.append_assoc]
      exact List.perm_append_comm.append_left _
    _ |>.Perm (beforeBox view source ++ fromBox view source) := parted.append_right _
    _ |>.Perm source := .of_eq (beforeBox_fromBox view source)

end Pruned

/-- A skip above a box of negative height leaves the glue without width where the difference is
no scaled value. -/
theorem wide_skip_vanishes :
    ¬ ∀ (node : NodeView) (skip : GlueSpec), node.isBox = true →
      prunePageTopList id skip [node] =
        [.splitTopSkip { skip with width := if 0 ≤ skip.width - node.verticalHeight then
            skip.width - node.verticalHeight else 0 }, .source node] := by
  intro always
  have wrong := always (.hlist (-1)) ⟨2147483647, 0, .normal, 0, .normal⟩
  revert wrong
  decide

end Umber.PageSplitting
