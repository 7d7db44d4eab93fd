import Umber.Dvi.Compiler

/-! The traversal of a page: one frame for each open box, and the walk of an
owned node list that enters boxes and repeats leaders. -/

set_option autoImplicit false

namespace Umber.Dvi

open Umber.Page

inductive DirectAxis where
  | h (baseLine leftEdge : Scaled) (totals : GlueTotals)
  | v (leftEdge topEdge : Scaled) (totals : GlueTotals)

inductive DirectContinuation where
  | root
  | h (saveH saveV edge baseLine width : Scaled)
  | v (saveH saveV leftEdge depth : Scaled)
  | hLeader (saveH saveV baseLine width extra : Scaled)
  | vLeader (saveH saveV leftEdge height depth extra : Scaled)

structure DirectFrame where
  fields : BoxFields
  saveLoc : Nat
  axis : DirectAxis
  continuation : DirectContinuation

structure DirectStreamState where
  frames : List DirectFrame

def DirectStreamState.last (state : DirectStreamState) : Except DviFailure DirectFrame :=
  expect state.frames.head? "direct stream has a root frame"

inductive Leader where
  | rule (width height depth : Option Scaled)
  | box (vertical : Bool) (fields : BoxFields)

structure HLeaderRepeat where
  vertical : Bool
  fields : BoxFields
  edge : Scaled
  extra : Scaled
  baseLine : Scaled

structure VLeaderRepeat where
  vertical : Bool
  fields : BoxFields
  edge : Scaled
  extra : Scaled
  leftEdge : Scaled

abbrev Walk := Except DviFailure (DviBodyCompiler × DirectStreamState)

namespace DviBodyCompiler

/-! ## Boxes -/

def enterDirectFrame (self : DviBodyCompiler) (state : DirectStreamState) (fields : BoxFields)
    (vertical : Bool) (continuation : DirectContinuation) : Walk := do
  let self := self.enterBox
  let self := if 0 < self.curS then self.u8 Opcode.push else self
  let saveLoc := self.bytes.length
  let self :=
    if 0 < self.curS then { self with dviPopSaveLocs := self.dviPopSaveLocs ++ [saveLoc] }
    else self
  if vertical then do
    let leftEdge := self.curH
    let curV ← subScaled self.curV fields.height
    let frame :=
      { fields, saveLoc, axis := .v leftEdge curV .zero, continuation : DirectFrame }
    pure ({ self with curV }, { frames := frame :: state.frames })
  else
    let frame :=
      { fields, saveLoc, axis := .h self.curV self.curH .zero, continuation : DirectFrame }
    pure (self, { frames := frame :: state.frames })

def directBeginBox (self : DviBodyCompiler) (state : DirectStreamState) (fields : BoxFields)
    (vertical empty : Bool) :
    Except DviFailure (Bool × DviBodyCompiler × DirectStreamState) := do
  let parent ← state.last
  if empty then
    match parent.axis with
    | .h .. => do
      let curH ← addScaled self.curH fields.width
      pure (false, { self with curH }, state)
    | .v .. => do
      let below ← addScaled self.curV fields.height
      let curV ← addScaled below fields.depth
      pure (false, { self with curV }, state)
  else
    match parent.axis with
    | .h baseLine _ _ => do
      let continuation := .h self.dviH self.dviV self.curH baseLine fields.width
      let curV ← addScaled baseLine fields.shift
      let (self, state) ←
        { self with curV }.enterDirectFrame state fields vertical continuation
      pure (true, self, state)
    | .v leftEdge _ _ => do
      let curV ← addScaled self.curV fields.height
      let self ← { self with curV }.synchV
      let continuation := .v self.dviH self.dviV leftEdge fields.depth
      let curH ← addScaled leftEdge fields.shift
      let (self, state) ←
        { self with curH }.enterDirectFrame state fields vertical continuation
      pure (true, self, state)

def directEndBox (self : DviBodyCompiler) (state : DirectStreamState) : Walk :=
  match state.frames with
  | [] => .error (.expectation "direct stream box is balanced")
  | frame :: frames => do
    let self := self.pruneMovements frame.saveLoc
    let self := if 0 < self.curS then self.dviPop else self
    let self := { self with curS := self.curS - 1 }
    let state : DirectStreamState := { frames }
    match frame.continuation with
    | .root => pure (self, state)
    | .h saveH saveV edge baseLine width => do
      let curH ← addScaled edge width
      pure ({ self with dviH := saveH, dviV := saveV, curH, curV := baseLine }, state)
    | .v saveH saveV leftEdge depth => do
      let curV ← addScaled saveV depth
      pure ({ self with dviH := saveH, dviV := saveV, curV, curH := leftEdge }, state)
    | .hLeader saveH saveV baseLine width extra => do
      let right ← addScaled saveH width
      let curH ← addScaled right extra
      pure ({ self with dviH := saveH, dviV := saveV, curH, curV := baseLine }, state)
    | .vLeader saveH saveV leftEdge height depth extra => do
      let top ← subScaled saveV height
      let extent ← addScaled height depth
      let extent ← addScaled extent extra
      let curV ← addScaled top extent
      pure ({ self with dviH := saveH, dviV := saveV, curH := leftEdge, curV }, state)

/-! ## Leaves -/

def directChar (self : DviBodyCompiler) (state : DirectStreamState) (fontId ch : UInt32)
    (width : Scaled) : Walk := do
  let frame ← state.last
  match frame.axis with
  | .h baseLine _ _ => do
    let self ← self.synchH
    let self ← self.synchV
    let self ← self.changeFont fontId
    let self ← self.setChar ch
    let curH ← addScaled self.curH width
    pure ({ self with curH, dviH := curH, curV := baseLine }, state)
  | .v .. => pure (self, state)

def directKern (self : DviBodyCompiler) (state : DirectStreamState) (amount : Scaled) : Walk := do
  let frame ← state.last
  match frame.axis with
  | .h .. => do
    let curH ← addScaled self.curH amount
    pure ({ self with curH }, state)
  | .v .. => do
    let curV ← addScaled self.curV amount
    pure ({ self with curV }, state)

def directMath (self : DviBodyCompiler) (state : DirectStreamState) (amount : Scaled) : Walk := do
  let frame ← state.last
  match frame.axis with
  | .h .. => do
    let curH ← addScaled self.curH amount
    pure ({ self with curH }, state)
  | .v .. => pure (self, state)

def directRule (self : DviBodyCompiler) (state : DirectStreamState)
    (width height depth : Option Scaled) : Walk := do
  let frame ← state.last
  match frame.axis with
  | .h baseLine _ _ => do
    let ruleHt := height.getD frame.fields.height
    let ruleDp := depth.getD frame.fields.depth
    let ruleWd := width.getD 0
    let self ← self.outputRuleInHlist ruleHt ruleDp ruleWd baseLine
    let curH ← addScaled self.curH ruleWd
    pure ({ self with curH, curV := baseLine }, state)
  | .v .. => do
    let ruleHt ← addScaled (height.getD 0) (depth.getD 0)
    let self ← self.outputRuleInVlist ruleHt (width.getD frame.fields.width)
    pure (self, state)

/-- Set a glue node in its frame: its size and the state with the new totals. -/
def setGlue (frame : DirectFrame) (outer : List DirectFrame) (spec : GlueSpec)
    (totals : GlueTotals) : Except DviFailure (Scaled × DirectStreamState) := do
  let (size, totals) ← orError (adjustedGlueWidth spec frame.fields.glueSign
    frame.fields.glueOrder frame.fields.glueSet totals) .positionOverflow
  let axis :=
    match frame.axis with
    | .h baseLine leftEdge _ => .h baseLine leftEdge totals
    | .v leftEdge topEdge _ => .v leftEdge topEdge totals
  pure (size, { frames := { frame with axis } :: outer })

def directGlue (self : DviBodyCompiler) (state : DirectStreamState) (spec : GlueSpec) : Walk := do
  let frame ← state.last
  match frame.axis with
  | .h baseLine _ totals => do
    let (width, state) ← setGlue frame state.frames.tail spec totals
    let curH ← addScaled self.curH width
    pure ({ self with curH, curV := baseLine }, state)
  | .v _ _ totals => do
    let (height, state) ← setGlue frame state.frames.tail spec totals
    let curV ← addScaled self.curV height
    pure ({ self with curV }, state)

def directWhatsit (self : DviBodyCompiler) (state : DirectStreamState)
    (effects : List PageEffect) (effectIndex : UInt32) : Walk := do
  let self ← self.outWhat effects effectIndex
  let frame ← state.last
  match frame.axis with
  | .h baseLine _ _ => pure ({ self with curV := baseLine }, state)
  | .v .. => pure (self, state)

/-! ## Leaders -/

def moveRightOrOutputLeaders (self : DviBodyCompiler) (thisBox : BoxFields) (kind : GlueKind)
    (leader : Leader) (ruleWd leftEdge baseLine : Scaled) :
    Except DviFailure (DviBodyCompiler × Option HLeaderRepeat) :=
  match LeaderMode.fromGlue kind with
  | none => do
    let curH ← addScaled self.curH ruleWd
    pure ({ self with curH }, none)
  | some leaderKind =>
    match leader with
    | .rule _ height depth => do
      let ruleHt := height.getD thisBox.height
      let ruleDp := depth.getD thisBox.depth
      let self ← self.outputRuleInHlist ruleHt ruleDp ruleWd baseLine
      let curH ← addScaled self.curH ruleWd
      pure ({ self with curH }, none)
    | .box vertical fields =>
      let leaderWd := fields.width
      if 0 < leaderWd.toInt ∧ 0 < ruleWd.toInt then do
        let leaderSpace ← addScaled ruleWd leaderRoundingCompensation
        let edge ← addScaled self.curH leaderSpace
        let (start, lx) ←
          ofGeometry (leaderStart leaderKind self.curH leftEdge leaderSpace leaderWd)
        pure ({ self with curH := start },
          some { vertical, fields, edge, extra := lx, baseLine })
      else do
        let curH ← addScaled self.curH ruleWd
        pure ({ self with curH }, none)

def moveDownOrOutputLeaders (self : DviBodyCompiler) (thisBox : BoxFields) (kind : GlueKind)
    (leader : Leader) (ruleHt leftEdge topEdge : Scaled) :
    Except DviFailure (DviBodyCompiler × Option VLeaderRepeat) :=
  match LeaderMode.fromGlue kind with
  | none => do
    let curV ← addScaled self.curV ruleHt
    pure ({ self with curV }, none)
  | some leaderKind =>
    match leader with
    | .rule width _ _ => do
      let ruleWd := width.getD thisBox.width
      let self ← self.outputRuleInVlist ruleHt ruleWd
      pure (self, none)
    | .box vertical fields => do
      let leaderHt ← addScaled fields.height fields.depth
      if 0 < leaderHt.toInt ∧ 0 < ruleHt.toInt then do
        let leaderSpace ← addScaled ruleHt leaderRoundingCompensation
        let edge ← addScaled self.curV leaderSpace
        let (start, lx) ←
          ofGeometry (leaderStart leaderKind self.curV topEdge leaderSpace leaderHt)
        pure ({ self with curV := start },
          some { vertical, fields, edge, extra := lx, leftEdge })
      else do
        let curV ← addScaled self.curV ruleHt
        pure ({ self with curV }, none)

/-- The copies of a leader box in a horizontal list; `walk` outputs its children.
Each copy moves `curH` to the right, so the distance to the edge bounds their
number. -/
def repeatHLeader (walk : DviBodyCompiler → DirectStreamState → Walk) (copies : HLeaderRepeat) :
    Nat → DviBodyCompiler → DirectStreamState → Walk
  | 0, _, _ => .error (.expectation "leader copies reach the edge")
  | fuel + 1, self, state => do
    let width := copies.fields.width
    let right ← addScaled self.curH width
    if copies.edge.toInt < right.toInt then do
      let curH ← subScaled copies.edge leaderRoundingCompensation
      pure ({ self with curH }, state)
    else do
      let curV ← addScaled copies.baseLine copies.fields.shift
      let self ← { self with curV }.synchV
      let saveV := self.dviV
      let self ← self.synchH
      let saveH := self.dviH
      let (self, state) ← self.enterDirectFrame state copies.fields copies.vertical
        (.hLeader saveH saveV copies.baseLine width copies.extra)
      let (self, state) ← walk self state
      let (self, state) ← self.directEndBox state
      repeatHLeader walk copies fuel self state

def repeatVLeader (walk : DviBodyCompiler → DirectStreamState → Walk) (copies : VLeaderRepeat) :
    Nat → DviBodyCompiler → DirectStreamState → Walk
  | 0, _, _ => .error (.expectation "leader copies reach the edge")
  | fuel + 1, self, state => do
    let height := copies.fields.height
    let depth := copies.fields.depth
    let size ← addScaled height depth
    let bottom ← addScaled self.curV size
    if copies.edge.toInt < bottom.toInt then do
      let curV ← subScaled copies.edge leaderRoundingCompensation
      pure ({ self with curV }, state)
    else do
      let curH ← addScaled copies.leftEdge copies.fields.shift
      let self ← { self with curH }.synchH
      let saveH := self.dviH
      let curV ← addScaled self.curV height
      let self ← { self with curV }.synchV
      let saveV := self.dviV
      let (self, state) ← self.enterDirectFrame state copies.fields copies.vertical
        (.vLeader saveH saveV copies.leftEdge height depth copies.extra)
      let (self, state) ← walk self state
      let (self, state) ← self.directEndBox state
      repeatVLeader walk copies fuel self state

def directOwnedLeader (walk : DviBodyCompiler → DirectStreamState → Walk) (spec : GlueSpec)
    (kind : GlueKind) (leader : Leader) (self : DviBodyCompiler) (state : DirectStreamState) :
    Walk := do
  let frame ← state.last
  match frame.axis with
  | .h baseLine leftEdge totals => do
    let (width, state) ← setGlue frame state.frames.tail spec totals
    let (self, copies) ←
      self.moveRightOrOutputLeaders frame.fields kind leader width leftEdge baseLine
    let self := { self with curV := baseLine }
    match copies with
    | none => pure (self, state)
    | some copies =>
      repeatHLeader walk copies ((copies.edge.toInt - self.curH.toInt).toNat + 1) self state
  | .v leftEdge topEdge totals => do
    let (height, state) ← setGlue frame state.frames.tail spec totals
    let (self, copies) ←
      self.moveDownOrOutputLeaders frame.fields kind leader height leftEdge topEdge
    match copies with
    | none => pure (self, state)
    | some copies =>
      repeatVLeader walk copies ((copies.edge.toInt - self.curV.toInt).toNat + 1) self state

/-! ## Lists -/

mutual

def directOwnedList (effects : List PageEffect) :
    List PageNode → DviBodyCompiler → DirectStreamState → Walk
  | [], self, state => pure (self, state)
  | node :: following, self, state => do
    let (self, state) ← directOwnedNode effects following node self state
    directOwnedList effects following self state

def directOwnedNode (effects : List PageEffect) (following : List PageNode) :
    PageNode → DviBodyCompiler → DirectStreamState → Walk
  | .whatsitAnchor effectIndex, self, state => do
    let frame ← state.last
    match frame.axis with
    | .v _ _ totals => do
      let self ← self.outWhatV effects effectIndex following frame.fields totals
      pure (self, state)
    | .h .. => self.directWhatsit state effects effectIndex
  | .box vertical fields children, self, state => do
    let (entered, self, state) ← self.directBeginBox state fields vertical children.isEmpty
    if entered then do
      let (self, state) ← directOwnedList effects children self state
      self.directEndBox state
    else pure (self, state)
  | .ruleLeader spec kind width height depth, self, state =>
    directOwnedLeader (fun self state => pure (self, state)) spec kind
      (.rule width height depth) self state
  | .boxLeader spec kind vertical fields children, self, state =>
    directOwnedLeader (directOwnedList effects children) spec kind (.box vertical fields)
      self state
  | .char fontId ch width, self, state => self.directChar state fontId ch width
  | .lig fontId ch _ width, self, state => self.directChar state fontId ch width
  | .kern amount _, self, state => self.directKern state amount
  | .marginKern amount _ _ _, self, state => self.directKern state amount
  | .glue spec _, self, state => self.directGlue state spec
  | .penalty _, self, state => pure (self, state)
  | .disc .., self, state => pure (self, state)
  | .mark .., self, state => pure (self, state)
  | .insert .., self, state => pure (self, state)
  | .adjust _, self, state => pure (self, state)
  | .rule width height depth, self, state => self.directRule state width height depth
  | .mathOn width, self, state => self.directMath state width
  | .mathOff width, self, state => self.directMath state width

end

end DviBodyCompiler

end Umber.Dvi
