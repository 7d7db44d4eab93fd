import Umber.Dvi.Leaders
import Umber.Page.Packing

/-! The traversal of a horizontal box moves as packing counts: behind its nodes stands the
position they advance to. -/

set_option autoImplicit false

namespace Umber.Dvi

open Umber.Page
open ExceptLib Turns

/-- What packing sees of a node of a page, in which discretionaries are resolved. -/
def packedNode : PageNode → PackedNode
  | .char _ _ width | .lig _ _ _ width => .glyph (some ⟨width, 0, 0⟩)
  | .kern amount _ | .marginKern amount _ _ _ => .kern amount
  | .glue spec _ => .glue spec none
  | .ruleLeader spec _ width height depth => .glue spec (some (.rule width height depth))
  | .boxLeader spec _ _ fields _ =>
    .glue spec (some (.box fields.width fields.height fields.depth))
  | .rule width height depth => .rule width height depth
  | .box _ fields _ => .box fields.width fields.height fields.depth fields.shift
  | .mathOn width | .mathOff width => .math width
  | .penalty _ | .disc .. | .mark .. | .insert .. | .whatsitAnchor _ | .adjust _ => .ignored

theorem scaledOfInt_toInt (value : Scaled) : scaledOfInt value.toInt = some value := by
  have low := value.le_toInt
  have high := value.toInt_lt
  unfold scaledOfInt
  rw [if_pos (by omega), Int32.ofInt_toInt]

theorem solid_advances {node : PackedNode} {totals : GlueTotals} {start stop : Scaled}
    {box : BoxFields} (solid : ∀ spec leader, node ≠ .glue spec leader)
    (moved : stop.toInt = start.toInt + horizontalExtent node) :
    advanceNode horizontalExtent box (start, totals) node = some (stop, totals) := by
  cases node with
  | glue spec leader => exact absurd rfl (solid spec leader)
  | _ => simp [advanceNode, ← moved, scaledOfInt_toInt]

namespace DviBodyCompiler

variable {self next moved : DviBodyCompiler} {outer : List DirectFrame}
  {state : DirectStreamState}

/-! ## Output that stays -/

theorem synchH_curH (synched : self.synchH = .ok next) : next.curH = self.curH := by
  unfold synchH at synched
  split at synched
  · obtain ⟨_, _, synched⟩ := bind_eq_ok.mp synched
    cases pure_eq_ok.mp synched
    rfl
  cases synched
  rfl

theorem fntDef_curH {number : UInt32} {font : FontResource}
    (defined : self.fntDef number font = .ok next) : next.curH = self.curH := by
  obtain ⟨area, _, defined⟩ := bind_eq_ok.mp defined
  obtain ⟨name, _, defined⟩ := bind_eq_ok.mp defined
  split at defined
  · cases defined
  cases pure_eq_ok.mp defined
  simp only [raw, u8, u32, scaled, i32]
  (repeat' split) <;> rfl

theorem changeFont_curH {fontId : UInt32} (changed : self.changeFont fontId = .ok next) :
    next.curH = self.curH := by
  unfold changeFont at changed
  split at changed
  · cases changed
    rfl
  obtain ⟨font, _, changed⟩ := bind_eq_ok.mp changed
  obtain ⟨⟨number, defined⟩, ensured, changed⟩ := bind_eq_ok.mp changed
  have stays : defined.curH = self.curH := by
    simp only [ensureFontDefined] at ensured
    split at ensured
    · cases pure_eq_ok.mp ensured
      rfl
    obtain ⟨written, writes, ensured⟩ := bind_eq_ok.mp ensured
    cases pure_eq_ok.mp ensured
    have stays : written.curH = self.curH := fntDef_curH writes
    exact stays
  cases pure_eq_ok.mp changed
  rw [← stays]
  (repeat' split) <;> rfl

theorem setChar_curH {ch : UInt32} (set : self.setChar ch = .ok next) : next.curH = self.curH := by
  unfold setChar at set
  (repeat' split at set) <;> cases set <;> rfl

theorem outWhat_curH {effects : List PageEffect} {effectIndex : UInt32}
    (output : self.outWhat effects effectIndex = .ok next) : next.curH = self.curH := by
  obtain ⟨effect, _, output⟩ := bind_eq_ok.mp output
  split at output
  · obtain ⟨across, synchedH, output⟩ := bind_eq_ok.mp output
    obtain ⟨down, synchedV, output⟩ := bind_eq_ok.mp output
    rw [← synchH_curH synchedH, ← (synchV_at synchedV).2.1]
    (repeat' split at output) <;> cases output <;> rfl
  cases pure_eq_ok.mp output
  rfl

variable {baseLine : Scaled}

theorem outputRuleInHlist_curH {ruleHt ruleDp ruleWd : Scaled}
    (output : self.outputRuleInHlist ruleHt ruleDp ruleWd baseLine = .ok next) :
    next.curH = self.curH := by
  obtain ⟨total, _, output⟩ := bind_eq_ok.mp output
  split at output
  · obtain ⟨across, synchedH, output⟩ := bind_eq_ok.mp output
    obtain ⟨curV, _, output⟩ := bind_eq_ok.mp output
    obtain ⟨down, synchedV, output⟩ := bind_eq_ok.mp output
    obtain ⟨dviH, _, output⟩ := bind_eq_ok.mp output
    cases pure_eq_ok.mp output
    rw [← synchH_curH synchedH]
    exact (synchV_at synchedV).2.1
  cases pure_eq_ok.mp output
  rfl

/-! ## Boxes and leaders -/

variable {walk : DviBodyCompiler → DirectStreamState → Walk} {frame : DirectFrame}
  {leftEdge : Scaled} {totals : GlueTotals}

theorem box_curH (keeps : KeepsBoxes walk) {entered : DviBodyCompiler} {inside : DirectStreamState}
    {fields : BoxFields} {vertical empty opened : Bool}
    (across : frame.axis = .h baseLine leftEdge totals)
    (began : self.directBeginBox ⟨frame :: outer⟩ fields vertical empty =
      .ok (opened, entered, inside)) (walked : (if opened = true then do
        let (self, state) ← walk entered inside
        self.directEndBox state
      else pure (entered, inside) : Walk) = .ok (next, state)) :
    next.curH.toInt = self.curH.toInt + fields.width.toInt := by
  obtain ⟨_, last, began⟩ := bind_eq_ok.mp began
  cases Except.ok.inj last
  simp only [across] at began
  split at began
  · obtain ⟨curH, moved, began⟩ := bind_eq_ok.mp began
    cases pure_eq_ok.mp began
    cases pure_eq_ok.mp walked
    exact addScaled_eq_ok moved
  obtain ⟨curV, _, began⟩ := bind_eq_ok.mp began
  obtain ⟨⟨inner, innerState⟩, enters, began⟩ := bind_eq_ok.mp began
  cases pure_eq_ok.mp began
  obtain ⟨⟨last, lastState⟩, walks, ended⟩ := bind_eq_ok.mp walked
  obtain ⟨_, frame, continues, ended⟩ := closes_entered keeps enters walks ended
  simp only [directEndBox, continues] at ended
  obtain ⟨curH, moved, ended⟩ := bind_eq_ok.mp ended
  cases pure_eq_ok.mp ended
  exact addScaled_eq_ok moved

/-- The position behind a leader: where its copies resume, or where the glue ends. -/
theorem moveRight_resumes {thisBox : BoxFields} {kind : GlueKind} {leader : Leader} {size : Scaled}
    {copies : Option HLeaderRepeat}
    (moves : self.moveRightOrOutputLeaders thisBox kind leader size leftEdge baseLine =
      .ok (moved, copies)) :
    (copies.map fun copies => copies.edge.toInt - 10).getD moved.curH.toInt =
      self.curH.toInt + size.toInt := by
  simp only [moveRightOrOutputLeaders] at moves
  split at moves
  · obtain ⟨curH, across, moves⟩ := bind_eq_ok.mp moves
    cases pure_eq_ok.mp moves
    exact addScaled_eq_ok across
  split at moves
  · obtain ⟨ruled, output, moves⟩ := bind_eq_ok.mp moves
    obtain ⟨curH, across, moves⟩ := bind_eq_ok.mp moves
    cases pure_eq_ok.mp moves
    rw [← outputRuleInHlist_curH output]
    exact addScaled_eq_ok across
  split at moves
  · obtain ⟨space, widens, moves⟩ := bind_eq_ok.mp moves
    obtain ⟨edge, reach, moves⟩ := bind_eq_ok.mp moves
    obtain ⟨⟨start, gap⟩, _, moves⟩ := bind_eq_ok.mp moves
    cases pure_eq_ok.mp moves
    have room : space.toInt = size.toInt + 10 := addScaled_eq_ok widens
    have reach := addScaled_eq_ok reach
    show edge.toInt - 10 = _
    omega
  obtain ⟨curH, across, moves⟩ := bind_eq_ok.mp moves
  cases pure_eq_ok.mp moves
  exact addScaled_eq_ok across

theorem repeatHLeader_resumes (copies : HLeaderRepeat) {fuel : Nat} {after : DirectStreamState}
    (repeated : repeatHLeader walk copies fuel self state = .ok (next, after)) :
    next.curH.toInt = copies.edge.toInt - 10 :=
  @loop_induct Place DviFailure _ (fun _ last => last.1.curH.toInt = copies.edge.toInt - 10)
    (fun fuel place => repeatHLeader walk copies fuel place.1 place.2)
    (repeatHLeader_unfolds copies) nofun (fun _ _ _ _ resumes => resumes)
    (fun _ _ turned => (hLeaderTurn_leave turned).1.2) fuel (self, state) (next, after) repeated

/-! ## Lists -/

/-- In a horizontal frame a walk moves as packing counts the node. -/
def Advances (walk : DviBodyCompiler → DirectStreamState → Walk) (node : PackedNode) : Prop :=
  ∀ (self next : DviBodyCompiler) (frame : DirectFrame) (outer : List DirectFrame)
    (state : DirectStreamState) (baseLine leftEdge : Scaled) (totals : GlueTotals),
    frame.axis = .h baseLine leftEdge totals → walk self ⟨frame :: outer⟩ = .ok (next, state) →
    ∃ after, state = ⟨{ frame with axis := .h baseLine leftEdge after } :: outer⟩ ∧
      advanceNode horizontalExtent frame.fields (self.curH, totals) node =
        some (next.curH, after)

/-- A node that leaves the glue totals alone moves by its extent. -/
theorem advances_of_state {node : PackedNode} (solid : ∀ spec leader, node ≠ .glue spec leader)
    (moves : ∀ (self next : DviBodyCompiler) (frame : DirectFrame) (outer : List DirectFrame)
      (state : DirectStreamState) (baseLine leftEdge : Scaled) (totals : GlueTotals),
      frame.axis = .h baseLine leftEdge totals → walk self ⟨frame :: outer⟩ = .ok (next, state) →
      state = ⟨frame :: outer⟩ ∧
        next.curH.toInt = self.curH.toInt + horizontalExtent node) : Advances walk node := by
  intro self next frame outer state baseLine leftEdge totals across walked
  obtain ⟨rfl, moved⟩ := moves self next frame outer state _ _ _ across walked
  exact ⟨totals, by rw [← across], solid_advances solid moved⟩

/-- A glue node moves by its adjusted size. -/
theorem setGlue_advances {spec : GlueSpec} {leader : Option LeaderPayload}
    {size start stop : Scaled} (across : frame.axis = .h baseLine leftEdge totals)
    (set : setGlue frame outer spec totals = .ok (size, state))
    (moved : stop.toInt = start.toInt + size.toInt) : ∃ after,
      state = ⟨{ frame with axis := .h baseLine leftEdge after } :: outer⟩ ∧
      advanceNode horizontalExtent frame.fields (start, totals) (.glue spec leader) =
        some (stop, after) := by
  obtain ⟨⟨width, adjusted⟩, computed, set⟩ := bind_eq_ok.mp set
  cases pure_eq_ok.mp set
  refine ⟨adjusted, by rw [across], ?_⟩
  simp only [advanceNode, orError_eq_ok.mp computed, Option.bind_eq_bind, Option.bind_some]
  rw [Scaled.checkedAdd, ← moved, scaledOfInt_toInt]
  rfl

theorem directOwnedLeader_advances (keeps : KeepsBoxes walk) (spec : GlueSpec) (kind : GlueKind)
    (leader : Leader) (payload : Option LeaderPayload) :
    Advances (directOwnedLeader walk spec kind leader) (.glue spec payload) := by
  intro self next frame outer state baseLine leftEdge totals across walked
  obtain ⟨_, last, walked⟩ := bind_eq_ok.mp walked
  cases Except.ok.inj last
  simp only [across] at walked
  obtain ⟨⟨size, glued⟩, set, walked⟩ := bind_eq_ok.mp walked
  obtain ⟨⟨moved, copies⟩, moves, walked⟩ := bind_eq_ok.mp walked
  have resumes := moveRight_resumes moves
  cases copies with
  | none =>
    cases pure_eq_ok.mp walked
    exact setGlue_advances across set resumes
  | some copies =>
    obtain rfl := repeatHLeader_keeps keeps _ _ _ _ _ _ walked
    exact setGlue_advances across set ((repeatHLeader_resumes copies walked).trans resumes)

theorem directOwnedNode_advances (effects : List PageEffect) (following : List PageNode)
    (node : PageNode) : Advances (directOwnedNode effects following node) (packedNode node) := by
  cases node with
  | ruleLeader spec kind width height depth =>
    intro self next frame outer state baseLine leftEdge totals across walked
    rw [directOwnedNode] at walked
    exact directOwnedLeader_advances (skip_keeps.boxes fun _ _ => rfl) _ _ _ _ _ _ _ _ _ _ _ _
      across walked
  | boxLeader spec kind vertical fields children =>
    intro self next frame outer state baseLine leftEdge totals across walked
    rw [directOwnedNode] at walked
    exact directOwnedLeader_advances (directOwnedList_keeps effects children) _ _ _ _ _ _ _ _ _ _
      _ _ across walked
  | glue spec kind =>
    intro self next frame outer state baseLine leftEdge totals across walked
    rw [directOwnedNode] at walked
    obtain ⟨_, last, walked⟩ := bind_eq_ok.mp walked
    cases Except.ok.inj last
    simp only [across] at walked
    obtain ⟨⟨size, glued⟩, set, walked⟩ := bind_eq_ok.mp walked
    obtain ⟨curH, moved, walked⟩ := bind_eq_ok.mp walked
    cases pure_eq_ok.mp walked
    exact setGlue_advances across set (addScaled_eq_ok moved)
  | box vertical fields children =>
    refine advances_of_state (by simp [packedNode]) ?_
    intro self next frame outer state _ _ _ across walked
    rw [directOwnedNode] at walked
    obtain ⟨⟨opened, entered, inside⟩, began, walked⟩ := bind_eq_ok.mp walked
    have keeps := directOwnedList_keeps effects children
    exact ⟨box_keeps keeps began walked, box_curH keeps across began walked⟩
  | char | lig =>
    refine advances_of_state (by simp [packedNode]) ?_
    intro self next frame outer state _ _ _ across walked
    rw [directOwnedNode] at walked
    obtain ⟨_, last, walked⟩ := bind_eq_ok.mp walked
    cases Except.ok.inj last
    simp only [across] at walked
    obtain ⟨synchedH, first, walked⟩ := bind_eq_ok.mp walked
    obtain ⟨synchedV, second, walked⟩ := bind_eq_ok.mp walked
    obtain ⟨changed, third, walked⟩ := bind_eq_ok.mp walked
    obtain ⟨set, fourth, walked⟩ := bind_eq_ok.mp walked
    obtain ⟨curH, moved, walked⟩ := bind_eq_ok.mp walked
    cases pure_eq_ok.mp walked
    refine ⟨rfl, ?_⟩
    rw [← synchH_curH first, ← (synchV_at second).2.1, ← changeFont_curH third,
      ← setChar_curH fourth]
    exact addScaled_eq_ok moved
  | kern | marginKern | mathOn | mathOff =>
    refine advances_of_state (by simp [packedNode]) ?_
    intro self next frame outer state _ _ _ across walked
    rw [directOwnedNode] at walked
    obtain ⟨_, last, walked⟩ := bind_eq_ok.mp walked
    cases Except.ok.inj last
    simp only [across] at walked
    obtain ⟨curH, moved, walked⟩ := bind_eq_ok.mp walked
    cases pure_eq_ok.mp walked
    exact ⟨rfl, addScaled_eq_ok moved⟩
  | rule width height depth =>
    refine advances_of_state (by simp [packedNode]) ?_
    intro self next frame outer state _ _ _ across walked
    rw [directOwnedNode] at walked
    obtain ⟨_, last, walked⟩ := bind_eq_ok.mp walked
    cases Except.ok.inj last
    simp only [across] at walked
    obtain ⟨ruled, output, walked⟩ := bind_eq_ok.mp walked
    obtain ⟨curH, moved, walked⟩ := bind_eq_ok.mp walked
    cases pure_eq_ok.mp walked
    refine ⟨rfl, ?_⟩
    rw [← outputRuleInHlist_curH output]
    exact addScaled_eq_ok moved
  | whatsitAnchor effectIndex =>
    refine advances_of_state (by simp [packedNode]) ?_
    intro self next frame outer state _ _ _ across walked
    rw [directOwnedNode] at walked
    obtain ⟨_, last, walked⟩ := bind_eq_ok.mp walked
    cases Except.ok.inj last
    simp only [across] at walked
    obtain ⟨output, what, walked⟩ := bind_eq_ok.mp walked
    obtain ⟨_, last, walked⟩ := bind_eq_ok.mp walked
    cases Except.ok.inj last
    simp only [across] at walked
    cases pure_eq_ok.mp walked
    refine ⟨rfl, ?_⟩
    rw [← outWhat_curH what]
    exact (Int.add_zero _).symm
  | penalty | disc | mark | insert | adjust =>
    refine advances_of_state (by simp [packedNode]) ?_
    intro self next frame outer state _ _ _ _ walked
    rw [directOwnedNode] at walked
    cases pure_eq_ok.mp walked
    exact ⟨rfl, (Int.add_zero _).symm⟩

/-- The nodes of a list advance the position of the frame it is walked in. -/
theorem directOwnedList_advances (effects : List PageEffect) (nodes : List PageNode)
    (across : frame.axis = .h baseLine leftEdge totals)
    (walked : directOwnedList effects nodes self ⟨frame :: outer⟩ = .ok (next, state)) :
    ∃ after, (nodes.map packedNode).foldlM (advanceNode horizontalExtent frame.fields)
      (self.curH, totals) = some (next.curH, after) := by
  induction nodes generalizing self frame totals with
  | nil =>
    rw [directOwnedList] at walked
    cases pure_eq_ok.mp walked
    exact ⟨totals, rfl⟩
  | cons node following ih => ?_
  rw [directOwnedList] at walked
  obtain ⟨⟨middle, middleState⟩, first, walked⟩ := bind_eq_ok.mp walked
  obtain ⟨between, rfl, one⟩ :=
    directOwnedNode_advances effects following node _ _ _ _ _ _ _ _ across first
  obtain ⟨after, rest⟩ := ih rfl walked
  refine ⟨after, ?_⟩
  rw [List.map_cons, List.foldlM_cons, one]
  exact rest

/-- Behind the nodes of a packed box stands the position packing computes. -/
theorem directOwnedList_advance (effects : List PageEffect) (nodes : List PageNode)
    (box : PackedBox) (fields : frame.fields = box.node)
    (children : box.children = nodes.map packedNode)
    (fresh : frame.axis = .h baseLine leftEdge .zero)
    (walked : directOwnedList effects nodes self ⟨frame :: outer⟩ = .ok (next, state)) :
    advance horizontalExtent box self.curH = some next.curH := by
  obtain ⟨_, folded⟩ := directOwnedList_advances effects nodes fresh walked
  rw [fields, ← children] at folded
  rw [advance, folded]
  rfl

end DviBodyCompiler

end Umber.Dvi
