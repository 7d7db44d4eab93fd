import Umber.Lib.LastCheapest
import Umber.Typeset.VerticalBreak

/-! The search of a vertical break ends at the first break that is overfull or forced, and takes
the last cheapest one up to there. -/

set_option autoImplicit false

namespace Umber.Typeset

open ExceptLib VerticalBreak

/-! ## Legal breaks and their costs -/

/-- The penalty of a break at a node, or at the end of the list, where it is legal. -/
def breakPenalty (prev next : Option VerticalNode) : Option VerticalNode → Option Int
  | none => some VerticalBreak.ejectPenalty
  | some (.glue _) => if prev.any precedesBreak = true then some 0 else none
  | some (.kern _) | some (.marginKern _) => if isGlue next = true then some 0 else none
  | some (.penalty value) => if value < VerticalBreak.infPenalty then some value else none
  | some (.hlist _ _) | some (.vlist _ _) | some (.rule _ _) | some .mathOn | some .mathOff
  | some (.whatsit _) | some .other => none

def legalAt (nodes : List VerticalNode) (index : Nat) : Option Int :=
  if index ≤ nodes.length then
    breakPenalty (nodes.take index).getLast? nodes[index + 1]? nodes[index]?
  else none

/-- The height and depth a node adds to the material. -/
def naturalHeight : VerticalNode → Int
  | .hlist height depth | .vlist height depth => height + depth
  | .rule height depth => height.getD 0 + depth.getD 0
  | .glue spec => spec.width
  | .kern amount => amount
  | .marginKern _ | .penalty _ | .mathOn | .mathOff | .whatsit _ | .other => 0

/-- The depth below a node: a box or a rule has its own, and spacing ends what hangs down. -/
def depthLeft : VerticalNode → Option Int
  | .hlist _ depth | .vlist _ depth => some depth
  | .rule _ depth => some (depth.getD 0)
  | .glue _ | .kern _ => some 0
  | .marginKern _ | .penalty _ | .mathOn | .mathOff | .whatsit _ | .other => none

def stretchOf (order : Order) : VerticalNode → Int
  | .glue spec => if spec.stretchOrder = order then spec.stretch else 0
  | _ => 0

def shrinkOf : VerticalNode → Int
  | .glue spec => spec.shrink
  | _ => 0

def total (amount : VerticalNode → Int) : List VerticalNode → Int
  | [] => 0
  | node :: rest => amount node + total amount rest

def lastDepth (before : List VerticalNode) : Int :=
  (before.filterMap depthLeft).getLast?.getD 0

/-- The depth of the material before a break: the last one in it, but at most the largest. -/
def depthBefore (maxDepth : Int) (before : List VerticalNode) : Int :=
  if before ≠ [] ∧ maxDepth < lastDepth before then maxDepth else lastDepth before

/-- What of the material before a break is not its depth, and so also what lies too deep. -/
def heightBefore (maxDepth : Int) (before : List VerticalNode) : Int :=
  total naturalHeight before - depthBefore maxDepth before

def Overfull (goal maxDepth : Int) (before : List VerticalNode) : Prop :=
  goal ≤ heightBefore maxDepth before ∧
    total shrinkOf before < heightBefore maxDepth before - goal

instance (goal maxDepth : Int) (before : List VerticalNode) :
    Decidable (Overfull goal maxDepth before) :=
  inferInstanceAs (Decidable (_ ∧ _))

def badnessBefore (goal maxDepth : Int) (before : List VerticalNode) : Int :=
  if goal ≤ heightBefore maxDepth before then
    texBadnessWide (heightBefore maxDepth before - goal) (total shrinkOf before)
  else if total (stretchOf .fil) before ≠ 0 ∨ total (stretchOf .fill) before ≠ 0 ∨
      total (stretchOf .filll) before ≠ 0 then 0
  else texBadnessWide (goal - heightBefore maxDepth before) (total (stretchOf .normal) before)

/-- The cost of a break behind some material, by the penalty of the break. -/
def costBefore (goal maxDepth : Int) (before : List VerticalNode) (penalty : Int) : Int :=
  if Overfull goal maxDepth before then VerticalBreak.awfulBad
  else if penalty ≤ VerticalBreak.ejectPenalty then penalty
  else if badnessBefore goal maxDepth before < infBad then
    badnessBefore goal maxDepth before + penalty
  else deplorable

def breakCostAt (nodes : List VerticalNode) (goal maxDepth : Int) (index : Nat) : Option Int :=
  (legalAt nodes index).map (costBefore goal maxDepth (nodes.take index))

def EndsAt (nodes : List VerticalNode) (goal maxDepth : Int) (index : Nat) : Prop :=
  ∃ penalty, legalAt nodes index = some penalty ∧
    (Overfull goal maxDepth (nodes.take index) ∨ penalty ≤ VerticalBreak.ejectPenalty)

/-! ## The material so far -/

def appendNode (index : Nat) (acc : VerticalBreakAccum) : VerticalNode → Breaking VerticalBreakAccum
  | .hlist height depth | .vlist height depth => appendVerticalBox acc height depth
  | .rule height depth => appendVerticalBox acc (height.getD 0) (depth.getD 0)
  | .glue spec => appendGlue acc spec index
  | .kern amount => appendSpacing acc amount
  | .marginKern _ | .penalty _ | .mathOn | .mathOff | .whatsit _ | .other => pure acc

def contribute (maxDepth : Int) (index : Nat) (acc : VerticalBreakAccum) (node : VerticalNode) :
    Breaking VerticalBreakAccum := do
  let acc ← appendNode index acc node
  clampDepth maxDepth acc

/-- The sums the search keeps are those of the material it is behind. -/
structure Measures (maxDepth : Int) (before : List VerticalNode) (acc : VerticalBreakAccum) :
    Prop where
  depth : acc.depth = depthBefore maxDepth before
  extent : acc.height + acc.depth = total naturalHeight before
  stretch : ∀ order, acc.stretch.get order = total (stretchOf order) before
  shrink : acc.shrink = total shrinkOf before

/-- What a node changes in the sums, before the depth is bounded. -/
structure Appends (node : VerticalNode) (acc next : VerticalBreakAccum) : Prop where
  depth : next.depth = (depthLeft node).getD acc.depth
  extent : next.height + next.depth = acc.height + acc.depth + naturalHeight node
  stretch : ∀ order, next.stretch.get order = acc.stretch.get order + stretchOf order node
  shrink : next.shrink = acc.shrink + shrinkOf node

theorem total_concat (amount : VerticalNode → Int) (before : List VerticalNode)
    (node : VerticalNode) : total amount (before ++ [node]) = total amount before + amount node := by
  induction before with
  | nil => exact Int.add_comm _ _
  | cons head before ih => ?_
  show amount head + total amount (before ++ [node]) = _
  rw [ih, ← Int.add_assoc]
  rfl

theorem lastDepth_concat (before : List VerticalNode) (node : VerticalNode) :
    lastDepth (before ++ [node]) = (depthLeft node).getD (lastDepth before) := by
  unfold lastDepth
  rw [List.filterMap_append]
  cases left : depthLeft node with
  | none => rw [List.filterMap_cons_none left, List.filterMap_nil, List.append_nil]; rfl
  | some depth =>
    rw [List.filterMap_cons_some left, List.filterMap_nil, List.getLast?_concat]
    rfl

theorem add_ok {left right sum : Int} (found : add left right = .ok sum) : sum = left + right := by
  unfold add stored at found
  split at found
  · cases found
    rfl
  · cases found

theorem sub_ok {left right difference : Int} (found : sub left right = .ok difference) :
    difference = left - right :=
  @add_ok left (-right) difference found

variable {acc next : VerticalBreakAccum}

theorem appendVerticalBox_spec {height depth : Int}
    (done : appendVerticalBox acc height depth = .ok next) :
    next = { acc with height := acc.height + acc.depth + height, depth := depth } := by
  obtain ⟨above, first, done⟩ := bind_eq_ok.mp done
  obtain ⟨sum, second, same⟩ := bind_eq_ok.mp done
  cases same
  rw [add_ok second, add_ok first]

theorem appendSpacing_spec {width : Int} (done : appendSpacing acc width = .ok next) :
    next = { acc with height := acc.height + acc.depth + width, depth := 0 } :=
  appendVerticalBox_spec done

theorem increase_get (amounts : PerOrder) (amount : Int) (order wanted : Order) :
    (amounts.increase amount order).get wanted =
      amounts.get wanted + if order = wanted then amount else 0 := by
  cases order <;> cases wanted <;> first | rfl | exact (Int.add_zero _).symm

variable {node : VerticalNode}

theorem appendNode_spec {index : Nat}
    (done : appendNode index acc node = .ok next) : Appends node acc next := by
  cases node with
  | hlist height depth | vlist height depth | rule height depth =>
    cases appendVerticalBox_spec done
    exact ⟨rfl, Int.add_assoc _ _ _, fun _ => (Int.add_zero _).symm, (Int.add_zero _).symm⟩
  | kern amount =>
    cases appendSpacing_spec done
    exact ⟨rfl, Int.add_zero _, fun _ => (Int.add_zero _).symm, (Int.add_zero _).symm⟩
  | glue spec =>
    obtain ⟨_, _, done⟩ := bind_eq_ok.mp done
    obtain ⟨shrink, summed, done⟩ := bind_eq_ok.mp done
    cases appendSpacing_spec done
    exact ⟨rfl, Int.add_zero _, fun order => increase_get _ _ _ order, add_ok summed⟩
  | marginKern _ | penalty _ | mathOn | mathOff | whatsit _ | other =>
    cases done
    exact ⟨rfl, (Int.add_zero _).symm, fun _ => (Int.add_zero _).symm, (Int.add_zero _).symm⟩

/-- The bound of the depth moves what is too deep into the height. -/
theorem clampDepth_spec {maxDepth : Int} (done : clampDepth maxDepth acc = .ok next) :
    next.depth = (if maxDepth < acc.depth then maxDepth else acc.depth) ∧
      next.height + next.depth = acc.height + acc.depth ∧ next.stretch = acc.stretch ∧
      next.shrink = acc.shrink := by
  unfold clampDepth at done
  by_cases deep : maxDepth < acc.depth
  · rw [if_pos deep] at done ⊢
    obtain ⟨beyond, first, done⟩ := bind_eq_ok.mp done
    obtain ⟨height, second, same⟩ := bind_eq_ok.mp done
    cases same
    refine ⟨rfl, ?_, rfl, rfl⟩
    show height + maxDepth = _
    rw [add_ok second, sub_ok first]
    omega
  rw [if_neg deep] at done ⊢
  cases done
  exact ⟨rfl, rfl, rfl, rfl⟩

theorem Measures.contribute {maxDepth : Int} {before : List VerticalNode} {index : Nat}
    (measures : Measures maxDepth before acc)
    (done : contribute maxDepth index acc node = .ok next) :
    Measures maxDepth (before ++ [node]) next := by
  obtain ⟨grown, appended, clamped⟩ := bind_eq_ok.mp done
  have appends := appendNode_spec appended
  obtain ⟨depth, extent, stretch, shrink⟩ := clampDepth_spec clamped
  refine ⟨?_, ?_, fun order => ?_, ?_⟩
  · have filled : before ++ [node] ≠ [] :=
      List.append_ne_nil_of_right_ne_nil _ (List.cons_ne_nil _ _)
    rw [depth, appends.depth, measures.depth]
    unfold depthBefore
    rw [lastDepth_concat]
    cases depthLeft node with
    | some left => simp only [Option.getD_some, filled, ne_eq, not_false_eq_true, true_and]
    | none => ?_
    simp only [Option.getD_none, filled, ne_eq, not_false_eq_true, true_and]
    by_cases deep : ¬before = [] ∧ maxDepth < lastDepth before
    · rw [if_pos deep, if_pos deep.2, if_neg (Int.lt_irrefl _)]
    · rw [if_neg deep]
  · rw [extent, appends.extent, measures.extent, total_concat]
  · rw [stretch, appends.stretch, measures.stretch, total_concat]
  · rw [shrink, appends.shrink, measures.shrink, total_concat]

theorem Measures.height {maxDepth : Int} {before : List VerticalNode}
    (measures : Measures maxDepth before acc) : acc.height = heightBefore maxDepth before := by
  unfold heightBefore
  rw [← measures.extent, ← measures.depth, Int.add_sub_cancel]

/-! ## Single steps -/

/-- A node that is observed before its break, and the rest of it behind the break, are the node. -/
theorem observe_spec {index : Nat} {prev next : Option VerticalNode}
    {observed : Observed} (maxDepth : Int) (found : observe acc index prev next node = .ok observed) :
     observed.penalty.filter (· < VerticalBreak.infPenalty) = breakPenalty prev next (some node) ∧
      (observed.penalty ≠ none → observed.acc = acc) ∧
      advance maxDepth index node observed.updateSpacing observed.acc =
        contribute maxDepth index acc node := by
  cases node with
  | hlist height depth | vlist height depth | rule height depth =>
    obtain ⟨grown, appended, same⟩ := bind_eq_ok.mp found
    cases same
    refine ⟨rfl, fun some_ => absurd rfl some_, ?_⟩
    exact (congrArg (· >>= clampDepth maxDepth) appended).symm
  | glue spec =>
    dsimp only [observe] at found
    by_cases legal : prev.any precedesBreak = true
    · rw [if_pos legal] at found
      cases found
      exact ⟨(if_pos legal).symm, fun _ => rfl, rfl⟩
    rw [if_neg legal] at found
    obtain ⟨grown, appended, same⟩ := bind_eq_ok.mp found
    cases same
    refine ⟨(if_neg legal).symm, fun some_ => absurd rfl some_, ?_⟩
    show _ = (updateSpacingNode acc (.glue spec) index >>= clampDepth maxDepth)
    rw [appended]
    rfl
  | kern amount | marginKern amount =>
    dsimp only [observe] at found
    by_cases legal : isGlue next = true
    · rw [if_pos legal] at found
      cases found
      exact ⟨(if_pos legal).symm, fun _ => rfl, rfl⟩
    rw [if_neg legal] at found
    obtain ⟨grown, appended, same⟩ := bind_eq_ok.mp found
    cases same
    refine ⟨(if_neg legal).symm, fun some_ => absurd rfl some_, ?_⟩
    exact (congrArg (· >>= clampDepth maxDepth) appended).symm
  | penalty value =>
    cases found
    refine ⟨?_, fun _ => rfl, rfl⟩
    dsimp only [breakPenalty]
    by_cases legal : value < VerticalBreak.infPenalty
    · rw [if_pos legal]
      exact Option.filter_some_pos (decide_eq_true legal)
    rw [if_neg legal]
    exact Option.filter_some_neg (by simpa using legal)
  | mathOn | mathOff | whatsit _ | other =>
    cases found
    exact ⟨rfl, fun some_ => absurd rfl some_, rfl⟩

theorem texBadnessWide_le (t s : Int) : texBadnessWide t s ≤ infBad := by
  unfold texBadnessWide
  by_cases exact_ : t = 0
  · rw [if_pos exact_]
    decide
  by_cases rigid : s ≤ 0
  · exact Int.le_of_eq ((if_neg exact_).trans (if_pos rigid))
  rw [if_neg exact_, if_neg rigid]
  extract_lets r
  by_cases large : 1290 < r
  · exact Int.le_of_eq (if_pos large)
  rw [if_neg large]
  exact Int.min_le_right _ _

variable {penalty maxDepth : Int} {before : List VerticalNode}

theorem verticalBreakBadness_spec {goal badness : Int} (measures : Measures maxDepth before acc)
    (found : verticalBreakBadness goal acc = .ok badness) :
    badness = if Overfull goal maxDepth before then VerticalBreak.awfulBad
      else badnessBefore goal maxDepth before := by
  unfold verticalBreakBadness at found
  unfold badnessBefore
  rw [measures.height] at found
  by_cases short : heightBefore maxDepth before < goal
  · have below : ¬goal ≤ heightBefore maxDepth before := Int.not_le.mpr short
    rw [if_pos short] at found
    rw [if_neg (fun overfull : Overfull goal maxDepth before => below overfull.1), if_neg below]
    have infinite : acc.stretch.infiniteIsZero = false ↔ total (stretchOf .fil) before ≠ 0 ∨
        total (stretchOf .fill) before ≠ 0 ∨ total (stretchOf .filll) before ≠ 0 := by
      rw [← measures.stretch .fil, ← measures.stretch .fill, ← measures.stretch .filll]
      simp only [PerOrder.infiniteIsZero, PerOrder.get, Bool.and_eq_false_iff, or_assoc,
        decide_eq_false_iff_not, ne_eq]
    by_cases stretches : acc.stretch.infiniteIsZero = false
    · rw [if_pos stretches] at found
      cases found
      exact (if_pos (infinite.mp stretches)).symm
    rw [if_neg stretches] at found
    obtain ⟨missing, difference, same⟩ := bind_eq_ok.mp found
    cases same
    rw [if_neg fun some_ => stretches (infinite.mpr some_), sub_ok difference,
      ← measures.stretch .normal]
    rfl
  have reached : goal ≤ heightBefore maxDepth before := Int.not_lt.mp short
  rw [if_neg short] at found
  obtain ⟨excess, difference, same⟩ := bind_eq_ok.mp found
  cases sub_ok difference
  rw [if_pos reached]
  rw [measures.shrink] at same
  by_cases beyond : total shrinkOf before < heightBefore maxDepth before - goal
  · rw [if_pos beyond] at same
    cases same
    exact (if_pos (show Overfull goal maxDepth before from ⟨reached, beyond⟩)).symm
  rw [if_neg beyond] at same
  cases same
  exact (if_neg fun overfull : Overfull goal maxDepth before => beyond overfull.2).symm

theorem badnessBefore_le (goal : Int) : badnessBefore goal maxDepth before ≤ infBad := by
  unfold badnessBefore
  split
  · exact texBadnessWide_le _ _
  split
  · decide
  · exact texBadnessWide_le _ _

theorem breakCost_spec {goal cost : Int} (measures : Measures maxDepth before acc)
    (found : breakCost goal acc penalty = .ok cost) :
    cost = costBefore goal maxDepth before penalty := by
  obtain ⟨badness, judged, priced⟩ := bind_eq_ok.mp found
  cases verticalBreakBadness_spec measures judged
  unfold costBefore
  by_cases overfull : Overfull goal maxDepth before
  · rw [if_pos overfull, if_neg (Int.lt_irrefl _)] at priced
    cases priced
    exact (if_pos overfull).symm
  rw [if_neg overfull] at priced ⊢
  have bounded : badnessBefore goal maxDepth before ≤ infBad := badnessBefore_le goal
  rw [if_pos (Int.lt_of_le_of_lt bounded (by decide))] at priced
  by_cases forced : penalty ≤ VerticalBreak.ejectPenalty
  · rw [if_pos forced] at priced ⊢
    cases priced
    rfl
  rw [if_neg forced] at priced ⊢
  by_cases finite : badnessBefore goal maxDepth before < infBad
  · rw [if_pos finite] at priced ⊢
    exact add_ok priced
  rw [if_neg finite] at priced ⊢
  cases priced
  rfl

/-- The cost of a break is the largest one exactly if the material before it is overfull. -/
theorem costBefore_awful (goal : Int) (legal : penalty < VerticalBreak.infPenalty) :
    costBefore goal maxDepth before penalty ≤ VerticalBreak.awfulBad ∧
      (costBefore goal maxDepth before penalty = VerticalBreak.awfulBad ↔
        Overfull goal maxDepth before) := by
  unfold costBefore
  by_cases overfull : Overfull goal maxDepth before
  · rw [if_pos overfull]
    exact ⟨Int.le_refl _, iff_of_true rfl overfull⟩
  rw [if_neg overfull]
  have bounded : badnessBefore goal maxDepth before ≤ infBad := badnessBefore_le goal
  unfold infBad at bounded ⊢
  unfold VerticalBreak.infPenalty at legal
  unfold VerticalBreak.awfulBad VerticalBreak.ejectPenalty deplorable
  split
  · exact ⟨by omega, iff_of_false (by omega) overfull⟩
  split
  · exact ⟨by omega, iff_of_false (by omega) overfull⟩
  · exact ⟨by omega, iff_of_false (by omega) overfull⟩

variable {breakIndex : Option Nat} {search : Search}

/-- A legal break is judged by its cost, and taken if that is not above the least one so far. -/
theorem consider_spec {goal : Int} {next : Search} {last : Bool}
    (measures : Measures maxDepth before search.acc) (legal : penalty < VerticalBreak.infPenalty)
    (found : consider goal breakIndex penalty search = .ok (next, last)) :
    next.acc = search.acc ∧
      (last = true ↔ Overfull goal maxDepth before ∨ penalty ≤ VerticalBreak.ejectPenalty) ∧
      (search.leastCost < costBefore goal maxDepth before penalty ∧ next = search ∨
        costBefore goal maxDepth before penalty ≤ search.leastCost ∧
          next.leastCost = costBefore goal maxDepth before penalty ∧
          next.best.breakIndex = breakIndex ∧
          next.best.bestHeightPlusDepth = total naturalHeight before) := by
  unfold consider at found
  rw [if_pos legal] at found
  obtain ⟨cost, priced, found⟩ := bind_eq_ok.mp found
  cases breakCost_spec measures priced
  have ends : (decide (costBefore goal maxDepth before penalty = VerticalBreak.awfulBad) ||
      decide (penalty ≤ VerticalBreak.ejectPenalty)) = true ↔
      Overfull goal maxDepth before ∨ penalty ≤ VerticalBreak.ejectPenalty := by
    rw [Bool.or_eq_true, decide_eq_true_iff, decide_eq_true_iff, (costBefore_awful goal legal).2]
  by_cases taken : costBefore goal maxDepth before penalty ≤ search.leastCost
  · rw [if_pos taken] at found
    obtain ⟨sum, summed, found⟩ := bind_eq_ok.mp found
    cases found
    exact ⟨rfl, ends, .inr ⟨taken, rfl, rfl, (add_ok summed).trans measures.extent⟩⟩
  rw [if_neg taken] at found
  cases found
  exact ⟨rfl, ends, .inl ⟨Int.not_le.mp taken, rfl⟩⟩

theorem consider_illegal {goal : Int} (illegal : ¬penalty < VerticalBreak.infPenalty) :
    consider goal breakIndex penalty search = .ok (search, false) :=
  if_neg illegal

/-! ## The search -/

section

variable {nodes : List VerticalNode} {goal maxDepth : Int}

structure BestBefore (nodes : List VerticalNode) (goal maxDepth : Int) (bound : Nat)
    (search : Search) (best : Nat) : Prop where
  cheapest : LastCheapest (breakCostAt nodes goal maxDepth) bound best search.leastCost
  index : search.best.breakIndex = if best = nodes.length then none else some best
  extent : search.best.bestHeightPlusDepth = total naturalHeight (nodes.take best)

structure SearchedTo (nodes : List VerticalNode) (goal maxDepth : Int) (bound : Nat)
    (search : Search) : Prop where
  open_ : ∀ index < bound, ¬EndsAt nodes goal maxDepth index
  found : (search.leastCost = VerticalBreak.awfulBad ∧
      ∀ index < bound, breakCostAt nodes goal maxDepth index = none) ∨
    ∃ best, BestBefore nodes goal maxDepth bound search best

variable {index : Nat} {penalty : Int}

theorem breakCostAt_some (legal : legalAt nodes index = some penalty) :
    breakCostAt nodes goal maxDepth index =
      some (costBefore goal maxDepth (nodes.take index) penalty) :=
  congrArg (Option.map _) legal

theorem breakCostAt_none (illegal : legalAt nodes index = none) :
    breakCostAt nodes goal maxDepth index = none :=
  congrArg (Option.map _) illegal

variable {bound : Nat} {search next : Search}

/-- An index without a legal break changes nothing. -/
theorem SearchedTo.skip (searched : SearchedTo nodes goal maxDepth bound search)
    (illegal : legalAt nodes bound = none) (least : next.leastCost = search.leastCost)
    (best : next.best = search.best) : SearchedTo nodes goal maxDepth (bound + 1) next := by
  refine ⟨fun index inside => ?_, ?_⟩
  · rcases Nat.lt_succ_iff_lt_or_eq.mp inside with earlier | rfl
    · exact searched.open_ index earlier
    rintro ⟨penalty, legal, _⟩
    rw [illegal] at legal
    cases legal
  rw [least]
  rcases searched.found with ⟨awful, nothing⟩ | ⟨index, found⟩
  · refine .inl ⟨awful, fun index inside => ?_⟩
    rcases Nat.lt_succ_iff_lt_or_eq.mp inside with earlier | rfl
    · exact nothing index earlier
    · exact breakCostAt_none illegal
  exact .inr ⟨index, least.symm ▸ found.cheapest.skip (breakCostAt_none illegal),
    best.symm ▸ found.index, best.symm ▸ found.extent⟩

theorem SearchedTo.judge {last : Bool} (searched : SearchedTo nodes goal maxDepth bound search)
    (legal : legalAt nodes bound = some penalty) (allowed : penalty < VerticalBreak.infPenalty)
    (measures : Measures maxDepth (nodes.take bound) search.acc)
    (judged : consider goal (if bound = nodes.length then none else some bound) penalty search =
      .ok (next, last)) : next.acc = search.acc ∧ (last = true ↔ EndsAt nodes goal maxDepth bound) ∧
      ∃ best, BestBefore nodes goal maxDepth (bound + 1) next best := by
  obtain ⟨same, ends, taken⟩ := consider_spec measures allowed judged
  have here : breakCostAt nodes goal maxDepth bound = _ := breakCostAt_some legal
  refine ⟨same, ?_, ?_⟩
  · rw [ends]
    constructor
    · exact fun stops => ⟨penalty, legal, stops⟩
    rintro ⟨other, legal', stops⟩
    cases legal.symm.trans legal'
    exact stops
  rcases taken with ⟨dearer, rfl⟩ | ⟨cheaper, least, index, extent⟩
  · rcases searched.found with ⟨awful, _⟩ | ⟨best, found⟩
    · rw [awful] at dearer
      exact absurd (costBefore_awful goal allowed).1 (Int.not_le.mpr dearer)
    · exact ⟨best, found.cheapest.keep here dearer, found.index, found.extent⟩
  refine ⟨bound, ?_, index, extent⟩
  rw [least]
  refine LastCheapest.take here fun place before other priced' => ?_
  rcases searched.found with ⟨_, nothing⟩ | ⟨best, found⟩
  · rw [nothing place before] at priced'
    cases priced'
  · exact Int.le_trans cheaper (found.cheapest.below place before other priced')

variable {prev : Option VerticalNode}

/-- What a round finds: the search ends at its break, or is open behind it. -/
theorem round_spec {next : Option VerticalNode} {node : VerticalNode} {result : Search × Bool}
    (searched : SearchedTo nodes goal maxDepth index search) (here : nodes[index]? = some node)
    (legal : legalAt nodes index = breakPenalty prev next (some node))
    (measures : Measures maxDepth (nodes.take index) search.acc)
    (found : round goal maxDepth index prev next node search = .ok result) :
    result.2 = true ∧ EndsAt nodes goal maxDepth index ∧
        (∃ best, BestBefore nodes goal maxDepth (index + 1) result.1 best) ∨
      result.2 = false ∧ SearchedTo nodes goal maxDepth (index + 1) result.1 ∧
        Measures maxDepth (nodes.take (index + 1)) result.1.acc := by
  obtain ⟨inside, same⟩ := List.getElem?_eq_some_iff.mp here
  have behind : nodes.take (index + 1) = nodes.take index ++ [node] := by
    rw [List.take_add_one, here]
    rfl
  obtain ⟨observed, observing, found⟩ := bind_eq_ok.mp found
  obtain ⟨penalty, unchanged, added⟩ := observe_spec maxDepth observing
  have grows : ∀ acc, advance maxDepth index node observed.updateSpacing observed.acc = .ok acc →
      Measures maxDepth (nodes.take (index + 1)) acc := fun acc advanced =>
    behind ▸ measures.contribute (added.symm.trans advanced)
  rw [← penalty] at legal
  obtain ⟨⟨judged, last⟩, judging, found⟩ := bind_eq_ok.mp found
  unfold judge at judging
  cases penalized : observed.penalty with
  | none =>
    rw [penalized] at judging legal
    cases judging
    obtain ⟨acc, advanced, found⟩ := bind_eq_ok.mp found
    cases found
    exact .inr ⟨rfl, searched.skip legal rfl rfl, grows acc advanced⟩
  | some value => ?_
  rw [penalized] at judging legal
  have kept := unchanged (penalized ▸ Option.some_ne_none value)
  rw [kept] at judging grows
  by_cases allowed : value < VerticalBreak.infPenalty
  · have legal : legalAt nodes index = some value :=
      legal.trans (Option.filter_some_pos (decide_eq_true allowed))
    have place : (if index = nodes.length then none else some index) = some index :=
      if_neg (Nat.ne_of_lt inside)
    have considered : consider goal (if index = nodes.length then none else some index) value
        search = .ok (judged, last) := place.symm ▸ judging
    obtain ⟨material, ends, best⟩ := searched.judge legal allowed measures considered
    cases last with
    | true =>
      cases found
      exact .inl ⟨rfl, ends.mp rfl, best⟩
    | false => ?_
    obtain ⟨acc, advanced, found⟩ := bind_eq_ok.mp found
    cases found
    refine .inr ⟨rfl, ⟨fun earlier below => ?_, ?_⟩, grows acc (material ▸ advanced)⟩
    · rcases Nat.lt_succ_iff_lt_or_eq.mp below with before | rfl
      · exact searched.open_ earlier before
      · exact fun stops => Bool.false_ne_true (ends.mpr stops)
    obtain ⟨chosen, cheapest⟩ := best
    exact .inr ⟨chosen, cheapest.cheapest, cheapest.index, cheapest.extent⟩
  have illegal : legalAt nodes index = none :=
    legal.trans (Option.filter_some_neg (by simpa using allowed))
  have considered : consider goal (some index) value search = .ok (judged, last) := judging
  rw [consider_illegal allowed] at considered
  cases considered
  obtain ⟨acc, advanced, found⟩ := bind_eq_ok.mp found
  cases found
  exact .inr ⟨rfl, searched.skip illegal rfl rfl, grows acc advanced⟩

/-- The node before an index, as the search keeps it: at the head of the list it is the head. -/
def PrevFits (seen rest : List VerticalNode) (prev : Option VerticalNode) : Prop :=
  prev = seen.getLast? ∨ seen = [] ∧ prev = rest.head?

theorem legalAt_seen {seen rest : List VerticalNode} (split : nodes = seen ++ rest)
    (fits : PrevFits seen rest prev) :
    legalAt nodes seen.length = breakPenalty prev rest[1]? rest.head? := by
  subst split
  unfold legalAt
  rw [if_pos (by rw [List.length_append]; exact Nat.le_add_right _ _), List.take_left' rfl,
    List.getElem?_append_right (Nat.le_succ _), List.getElem?_append_right (Nat.le_refl _),
    Nat.succ_sub (Nat.le_refl _), Nat.sub_self, List.head?_eq_getElem?]
  rcases fits with rfl | ⟨rfl, rfl⟩
  · rfl
  cases rest with
  | nil => rfl
  | cons node rest => cases node <;> rfl

theorem head?_of_take {first second : List VerticalNode} (count : Nat)
    (same : first.take (count + 1) = second.take (count + 1)) : first.head? = second.head? := by
  have heads := congrArg List.head? same
  rw [List.head?_take, List.head?_take, if_neg (Nat.succ_ne_zero _)] at heads
  exact heads

/-- A search ends at the first break that is overfull or forced, with the best break up to there,
and does not look behind the node after it. -/
theorem searchFrom_spec (rest : List VerticalNode) : ∀ (seen : List VerticalNode)
    (prev : Option VerticalNode) (search final : Search), nodes = seen ++ rest →
      PrevFits seen rest prev → Measures maxDepth seen search.acc →
      SearchedTo nodes goal maxDepth seen.length search →
      searchFrom goal maxDepth seen.length prev search rest = .ok final →
      ∃ last best, seen.length ≤ last ∧ EndsAt nodes goal maxDepth last ∧
        (∀ index < last, ¬EndsAt nodes goal maxDepth index) ∧
        BestBefore nodes goal maxDepth (last + 1) final best ∧ ∀ others : List VerticalNode,
          others.take (last - seen.length + 2) = rest.take (last - seen.length + 2) →
          searchFrom goal maxDepth seen.length prev search others = .ok final := by
  induction rest with
  | nil =>
    intro seen prev search final split fits measures searched found
    have whole : seen = nodes := by rw [split, List.append_nil]
    subst whole
    obtain ⟨⟨judged, last⟩, considered, ends⟩ := bind_eq_ok.mp found
    cases ends
    have legal : legalAt seen seen.length = some VerticalBreak.ejectPenalty :=
      legalAt_seen split fits
    have here : Measures maxDepth (seen.take seen.length) search.acc := by
      rw [List.take_length]
      exact measures
    have place : (if seen.length = seen.length then none else some seen.length) = none :=
      if_pos rfl
    have considered' : consider goal (if seen.length = seen.length then none
        else some seen.length) VerticalBreak.ejectPenalty search = .ok (final, last) :=
      place.symm ▸ considered
    obtain ⟨_, _, best, cheapest⟩ := searched.judge legal (by decide) here considered'
    refine ⟨seen.length, best, Nat.le_refl _, ⟨VerticalBreak.ejectPenalty, legal,
      .inr (Int.le_refl _)⟩, searched.open_, cheapest, fun others same => ?_⟩
    rw [Nat.sub_self, List.take_nil] at same
    have empty : others = [] := by
      cases others with
      | nil => rfl
      | cons head others => cases same
    rw [empty]
    exact found
  | cons node rest ih => ?_
  intro seen prev search final split fits measures searched found
  have here : nodes[seen.length]? = some node := by
    rw [split, List.getElem?_append_right (Nat.le_refl _), Nat.sub_self]
    rfl
  have taken : nodes.take seen.length = seen := by
    rw [split]
    exact List.take_left' rfl
  have legal := legalAt_seen split fits
  rw [← taken] at measures
  obtain ⟨⟨next, last⟩, rounded, ends⟩ := bind_eq_ok.mp found
  have following : (node :: rest)[1]? = rest.head? := by rw [List.head?_eq_getElem?]; rfl
  rw [following] at legal
  rcases round_spec searched here legal measures rounded with
    ⟨rfl, stops, best, cheapest⟩ | ⟨rfl, open_, measures'⟩
  · cases ends
    refine ⟨seen.length, best, Nat.le_refl _, stops, searched.open_, cheapest,
      fun others same => ?_⟩
    rw [Nat.sub_self] at same
    cases others with
    | nil => cases same
    | cons head others => ?_
    obtain ⟨rfl, tails⟩ := List.cons.inj same
    have heads := head?_of_take _ tails
    unfold searchFrom
    rw [heads, rounded]
    rfl
  have split' : nodes = (seen ++ [node]) ++ rest := by
    rw [List.append_assoc]
    exact split
  have length : (seen ++ [node]).length = seen.length + 1 := List.length_append
  have step := ih (seen ++ [node]) (some node) next final split' (.inl List.getLast?_concat.symm)
  rw [length] at step
  have grown : nodes.take (seen.length + 1) = seen ++ [node] := by
    rw [split']
    exact List.take_left' length
  rw [grown] at measures'
  obtain ⟨stop, best, behind, stops, before, cheapest, unread⟩ := step measures' open_ ends
  refine ⟨stop, best, Nat.le_of_succ_le behind, stops, before, cheapest, fun others same => ?_⟩
  have distance : stop - seen.length + 2 = stop - (seen.length + 1) + 2 + 1 := by omega
  rw [distance] at same
  cases others with
  | nil => cases same
  | cons head others => ?_
  obtain ⟨rfl, tails⟩ := List.cons.inj same
  have heads := head?_of_take _ tails
  unfold searchFrom
  rw [heads, rounded]
  exact unread others tails

end

/-- A vertical break is the last cheapest one of the legal breaks up to the first overfull or
forced one, with the height and depth of the material before it, and no node behind the one after
that break is looked at. -/
theorem vertBreak_lastCheapest {nodes : List VerticalNode} {goal maxDepth : Int}
    {result : VerticalBreak} (found : vertBreak nodes goal maxDepth = .ok result) :
    ∃ last best least, EndsAt nodes goal maxDepth last ∧
      (∀ index < last, ¬EndsAt nodes goal maxDepth index) ∧
      LastCheapest (breakCostAt nodes goal maxDepth) (last + 1) best least ∧
      result.breakIndex = (if best = nodes.length then none else some best) ∧
      result.bestHeightPlusDepth = heightBefore maxDepth (nodes.take best) +
        depthBefore maxDepth (nodes.take best) ∧
      ∀ others : List VerticalNode, others.take (last + 2) = nodes.take (last + 2) →
        vertBreak others goal maxDepth = .ok result := by
  obtain ⟨final, searching, same⟩ := bind_eq_ok.mp found
  cases same
  have start : SearchedTo nodes goal maxDepth 0 .new :=
    ⟨fun _ below => absurd below (Nat.not_lt_zero _),
      .inl ⟨rfl, fun _ below => absurd below (Nat.not_lt_zero _)⟩⟩
  have nothing : Measures maxDepth [] VerticalBreakAccum.new :=
    ⟨rfl, rfl, fun order => by cases order <;> rfl, rfl⟩
  obtain ⟨last, best, _, stops, before, cheapest, unread⟩ :=
    searchFrom_spec nodes [] nodes.head? .new final (List.nil_append nodes).symm
      (.inr ⟨rfl, rfl⟩) nothing start searching
  refine ⟨last, best, final.leastCost, stops, before, cheapest.cheapest, cheapest.index,
    cheapest.extent.trans (Int.sub_add_cancel _ _).symm, fun others same => ?_⟩
  have heads := head?_of_take _ same
  have again : searchFrom goal maxDepth 0 nodes.head? .new others = .ok final :=
    unread others same
  unfold vertBreak
  rw [heads, again]
  rfl

/-- A box whose depth beyond the largest one makes the first of two breaks overfull. -/
theorem vertBreak_lastCheapest_deepBox :
    vertBreak [.hlist 10 8, .penalty 0, .penalty (-10000)] 15 2 = .ok ⟨some 1, 18, []⟩ ∧
      ∃ last best least,
        EndsAt [.hlist 10 8, .penalty 0, .penalty (-10000)] 15 2 last ∧
        (∀ index < last, ¬EndsAt [.hlist 10 8, .penalty 0, .penalty (-10000)] 15 2 index) ∧
        LastCheapest (breakCostAt [.hlist 10 8, .penalty 0, .penalty (-10000)] 15 2)
          (last + 1) best least ∧
        some 1 = (if best = 3 then none else some best) ∧
        18 = heightBefore 2 ([.hlist 10 8, .penalty 0, .penalty (-10000)].take best) +
          depthBefore 2 ([.hlist 10 8, .penalty 0, .penalty (-10000)].take best) ∧
        ∀ others : List VerticalNode,
          others.take (last + 2) = [.hlist 10 8, .penalty 0, .penalty (-10000)].take (last + 2) →
          vertBreak others 15 2 = .ok ⟨some 1, 18, []⟩ :=
  ⟨rfl, @vertBreak_lastCheapest [.hlist 10 8, .penalty 0, .penalty (-10000)] 15 2
    ⟨some 1, 18, []⟩ rfl⟩

end Umber.Typeset
