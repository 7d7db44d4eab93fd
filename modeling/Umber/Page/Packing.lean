import Umber.Page.Geometry

/-! Packing: lists are measured, a target size is chosen and their glue is set.
Dimensions that overflow are reported by giving no box. -/

set_option autoImplicit false

namespace Umber.Page

open Scaled

/-! ## Metrics -/

structure GlyphMetrics where
  width : Scaled
  height : Scaled
  depth : Scaled

inductive LeaderPayload where
  | box (width height depth : Scaled)
  | rule (width height depth : Option Scaled)

/-- What packing reads of a node. The metrics of a glyph are the ones its font
gives, where it has any. -/
inductive PackedNode where
  | glyph (metrics : Option GlyphMetrics)
  | kern (amount : Scaled)
  | glue (spec : GlueSpec) (leader : Option LeaderPayload)
  | rule (width height depth : Option Scaled)
  | box (width height depth shift : Scaled)
  | unset (width height depth : Scaled)
  | disc (replacement : List PackedNode)
  | image (width height depth : Scaled)
  | math (width : Scaled)
  | ignored

structure OrderTotals where
  normal : Scaled
  fil : Scaled
  fill : Scaled
  filll : Scaled
deriving DecidableEq

def OrderTotals.zero : OrderTotals := ⟨0, 0, 0, 0⟩

def OrderTotals.get (totals : OrderTotals) : GlueOrder → Scaled
  | .normal => totals.normal
  | .fil => totals.fil
  | .fill => totals.fill
  | .filll => totals.filll

def OrderTotals.set (totals : OrderTotals) (order : GlueOrder) (value : Scaled) : OrderTotals :=
  match order with
  | .normal => { totals with normal := value }
  | .fil => { totals with fil := value }
  | .fill => { totals with fill := value }
  | .filll => { totals with filll := value }

def OrderTotals.add (totals : OrderTotals) (order : GlueOrder) (amount : Scaled) :
    Option OrderTotals := do
  let sum ← checkedAdd (totals.get order) amount
  some (totals.set order sum)

structure ListMetrics where
  width : Scaled
  height : Scaled
  depth : Scaled
  stretch : OrderTotals
  shrink : OrderTotals
deriving DecidableEq

namespace ListMetrics

def zero : ListMetrics := ⟨0, 0, 0, .zero, .zero⟩

def addGlue (meas : ListMetrics) (spec : GlueSpec) : Option ListMetrics := do
  let stretch ← meas.stretch.add spec.stretchOrder spec.stretch
  let shrink ← meas.shrink.add spec.shrinkOrder spec.shrink
  some { meas with stretch, shrink }

def appendHorizontal (meas : ListMetrics) (width height depth : Scaled) : Option ListMetrics := do
  let width ← checkedAdd meas.width width
  some { meas with width, height := max meas.height height, depth := max meas.depth depth }

def appendSpace (meas : ListMetrics) (amount : Scaled) : Option ListMetrics := do
  let width ← checkedAdd meas.width amount
  some { meas with width }

def appendVerticalSpacing (meas : ListMetrics) (amount : Scaled) : Option ListMetrics := do
  let spacing ← checkedAdd meas.depth amount
  let height ← checkedAdd meas.height spacing
  some { meas with height, depth := 0 }

def appendVerticalBox (meas : ListMetrics) (width height depth shift : Scaled) :
    Option ListMetrics := do
  let above ← checkedAdd meas.height meas.depth
  let total ← checkedAdd above height
  let right ← checkedAdd width shift
  some { meas with height := total, depth, width := max meas.width right }

def hleaderDimensions (meas : ListMetrics) : Option LeaderPayload → ListMetrics
  | none => meas
  | some (.box _ height depth) =>
    { meas with height := max meas.height height, depth := max meas.depth depth }
  | some (.rule _ height depth) =>
    { meas with
      height := max meas.height (height.getD meas.height)
      depth := max meas.depth (depth.getD meas.depth) }

def vleaderDimensions (meas : ListMetrics) : Option LeaderPayload → ListMetrics
  | none => meas
  | some (.box width _ _) => { meas with width := max meas.width width }
  | some (.rule width _ _) => { meas with width := max meas.width (width.getD meas.width) }

end ListMetrics

/-! ## Measurement -/

mutual

def observeHorizontal (meas : ListMetrics) : PackedNode → Option ListMetrics
  | .glyph none => some meas
  | .glyph (some metrics) => meas.appendHorizontal metrics.width metrics.height metrics.depth
  | .kern amount => meas.appendSpace amount
  | .glue spec leader => do
    let meas ← meas.appendSpace spec.width
    let meas ← meas.addGlue spec
    some (meas.hleaderDimensions leader)
  | .rule width height depth =>
    meas.appendHorizontal (width.getD 0) (height.getD 0) (depth.getD 0)
  | .box width height depth shift => do
    let raised ← checkedSub height shift
    let lowered ← checkedAdd depth shift
    meas.appendHorizontal width raised lowered
  | .unset width height depth => meas.appendHorizontal width height depth
  | .disc replacement => do
    let inner ← measureHorizontal .zero replacement
    meas.appendHorizontal inner.width inner.height inner.depth
  | .image width height depth => meas.appendHorizontal width height depth
  | .math width => meas.appendSpace width
  | .ignored => some meas

def measureHorizontal (meas : ListMetrics) : List PackedNode → Option ListMetrics
  | [] => some meas
  | node :: nodes => do
    let meas ← observeHorizontal meas node
    measureHorizontal meas nodes

end

def measureHlist (nodes : List PackedNode) : Option ListMetrics := measureHorizontal .zero nodes

def observeVertical (meas : ListMetrics) : PackedNode → Option ListMetrics
  | .kern amount => meas.appendVerticalSpacing amount
  | .glue spec leader => do
    let meas ← meas.appendVerticalSpacing spec.width
    let meas ← meas.addGlue spec
    some (meas.vleaderDimensions leader)
  | .rule width height depth =>
    meas.appendVerticalBox (width.getD 0) (height.getD 0) (depth.getD 0) 0
  | .box width height depth shift => meas.appendVerticalBox width height depth shift
  | .unset width height depth => meas.appendVerticalBox width height depth 0
  | .image width height depth => meas.appendVerticalBox width height depth 0
  | .glyph _ | .disc _ | .math _ | .ignored => some meas

def measureVlist (nodes : List PackedNode) : Option ListMetrics :=
  nodes.foldlM observeVertical .zero

def clampDepth (meas : ListMetrics) (boxMaxDepth : Scaled) : Option ListMetrics :=
  if boxMaxDepth < meas.depth then do
    let excess ← checkedSub meas.depth boxMaxDepth
    let height ← checkedAdd meas.height excess
    some { meas with height, depth := boxMaxDepth }
  else some meas

/-! ## Setting the glue -/

inductive PackSpec where
  | natural
  | exactly (size : Scaled)
  | spread (extra : Scaled)

def targetSize (natural : Scaled) : PackSpec → Option Scaled
  | .natural => some natural
  | .exactly size => some size
  | .spread extra => checkedAdd natural extra

def highestOrder (values : OrderTotals) : GlueOrder :=
  if values.filll ≠ 0 then .filll
  else if values.fill ≠ 0 then .fill
  else if values.fil ≠ 0 then .fil
  else .normal

theorem one_positive : 0 < (1 : Int32).toInt := by decide

theorem zero_representable : -2147483647 ≤ (0 : Int32).toInt := by decide

theorem one_representable : -2147483647 ≤ (1 : Int32).toInt := by decide

def GlueSetRatio.zero : GlueSetRatio where
  numerator := 0
  denominator := 1
  positive := one_positive
  representable := zero_representable
  reduced := rfl

def GlueSetRatio.unity : GlueSetRatio where
  numerator := 1
  denominator := 1
  positive := one_positive
  representable := one_representable
  reduced := rfl

def saturatingAbs (value : Int32) : Nat := min value.toInt.natAbs 2147483647

theorem saturatingAbs_pos {value : Int32} (nonzero : value ≠ 0) : 0 < saturatingAbs value := by
  have parts : value.toInt ≠ 0 := fun zero => nonzero (Int32.toInt_inj.mp zero)
  unfold saturatingAbs
  omega

theorem toInt_ofInt_signed {negative : Bool} {value : Nat} (small : value ≤ 2147483647) :
    (Int32.ofInt (if negative then -(value : Int) else value)).toInt =
      if negative then -(value : Int) else value :=
  Int32.toInt_ofInt_of_le (by split <;> omega) (by split <;> omega)

theorem toInt_ofInt_nat {value : Nat} (small : value ≤ 2147483647) :
    (Int32.ofInt (value : Int)).toInt = value :=
  Int32.toInt_ofInt_of_le (by omega) (by omega)

theorem natAbs_signed (negative : Bool) (value : Nat) :
    (if negative then -(value : Int) else value).natAbs = value := by
  split <;> omega

def reducedRatio (negative : Bool) (numerator denominator : Nat) (positive : 0 < denominator)
    (small : numerator ≤ 2147483647) (bounded : denominator ≤ 2147483647) : GlueSetRatio where
  numerator := Int32.ofInt
    (if negative then -((numerator / numerator.gcd denominator : Nat) : Int)
      else (numerator / numerator.gcd denominator : Nat))
  denominator := Int32.ofInt (denominator / numerator.gcd denominator : Nat)
  positive := by
    have divisor : 0 < numerator.gcd denominator := Nat.gcd_pos_of_pos_right _ positive
    have quotient : 0 < denominator / numerator.gcd denominator :=
      Nat.div_pos (Nat.le_of_dvd positive (Nat.gcd_dvd_right _ _)) divisor
    have fits : denominator / numerator.gcd denominator ≤ 2147483647 :=
      Nat.le_trans (Nat.div_le_self _ _) bounded
    rw [toInt_ofInt_nat fits]
    exact Int.natCast_pos.mpr quotient
  representable := by
    have fits : numerator / numerator.gcd denominator ≤ 2147483647 :=
      Nat.le_trans (Nat.div_le_self _ _) small
    rw [toInt_ofInt_signed fits]
    generalize numerator / numerator.gcd denominator = quotient at fits
    split <;> omega
  reduced := by
    have fits : numerator / numerator.gcd denominator ≤ 2147483647 :=
      Nat.le_trans (Nat.div_le_self _ _) small
    have fitsBelow : denominator / numerator.gcd denominator ≤ 2147483647 :=
      Nat.le_trans (Nat.div_le_self _ _) bounded
    rw [toInt_ofInt_signed fits, natAbs_signed, toInt_ofInt_nat fitsBelow, Int.natAbs_natCast]
    exact Nat.coprime_div_gcd_div_gcd (Nat.gcd_pos_of_pos_right _ positive)

def GlueSetRatio.fromRatioParts (numerator denominator : Int32) : GlueSetRatio :=
  if nonzero : numerator ≠ 0 ∧ denominator ≠ 0 then
    reducedRatio (decide (numerator.toInt < 0) != decide (denominator.toInt < 0))
      (saturatingAbs numerator) (saturatingAbs denominator) (saturatingAbs_pos nonzero.2)
      (Nat.min_le_right _ _) (Nat.min_le_right _ _)
  else .zero

def infBad : Int := 10000

def overfullBadness : Int := 1000000

def badness (t s : Scaled) : Int :=
  let t := t.toInt
  let s := s.toInt
  if t = 0 then 0
  else if s ≤ 0 then infBad
  else
    let r :=
      if t ≤ 7230584 then (t * 297).tdiv s
      else if 1663497 ≤ s then t.tdiv (s.tdiv 297)
      else t
    if 1290 < r then infBad else min ((r * r * r + 131072).tdiv 262144) infBad

structure GlueSetting where
  ratio : GlueSetRatio
  sign : GlueSign
  order : GlueOrder
  badness : Int
  excess : Scaled
  overfullExcess : Scaled

def GlueSetting.none : GlueSetting := ⟨.zero, .normal, .normal, 0, 0, 0⟩

def excessBeyond (overfull : Bool) (excess total : Scaled) : Option Scaled :=
  if overfull then checkedSub excess total else some 0

/-- The setting when the list has to change its size by `diff`. -/
def settingOf (diff : Int) (sign : GlueSign) (totals : OrderTotals) : Option GlueSetting := do
  let order := highestOrder totals
  let total := totals.get order
  let excess ← scaledOfInt diff.natAbs
  let overfull : Bool :=
    decide (sign = .shrinking) && decide (order = .normal) && decide (total < excess)
  let ratio :=
    if total = 0 then .zero
    else if overfull then .unity
    else GlueSetRatio.fromRatioParts excess total
  let overfullExcess ← excessBeyond overfull excess total
  some {
    ratio, sign, order, excess, overfullExcess
    badness :=
      if 0 < overfullExcess then overfullBadness
      else if order = .normal then Umber.Page.badness excess total
      else 0 }

def setGlue (target natural : Scaled) (meas : ListMetrics) (hasContent : Bool) :
    Option GlueSetting := do
  let diff ← checkedSub target natural
  if diff = 0 ∨ hasContent = false then some .none
  else if 0 < diff then settingOf diff.toInt .stretching meas.stretch
  else settingOf diff.toInt .shrinking meas.shrink

/-! ## Packed boxes -/

inductive PackDiagnostic where
  | underfull (badness : Int) (excess : Scaled)
  | loose (badness : Int) (excess : Scaled)
  | tight (badness : Int) (excess : Scaled)
  | overfull (excess : Scaled)

def commonDiagnostics (glue : GlueSetting) (badnessThreshold : Int32) (fuzz : Scaled) :
    List PackDiagnostic :=
  if 0 < glue.overfullExcess then
    if fuzz < glue.overfullExcess ∨ badnessThreshold < 100 then [.overfull glue.overfullExcess]
    else []
  else if glue.badness ≤ badnessThreshold.toInt then []
  else
    match glue.sign with
    | .stretching => [.underfull glue.badness glue.excess]
    | .shrinking => [.tight glue.badness glue.excess]
    | .normal => []

structure PackedBox where
  node : BoxFields
  children : List PackedNode
  glue : GlueSetting
  diagnostics : List PackDiagnostic

structure HpackParams where
  hbadness : Int32
  hfuzz : Scaled

structure VpackParams where
  vbadness : Int32
  vfuzz : Scaled
  boxMaxDepth : Scaled

def hpack (nodes : List PackedNode) (spec : PackSpec) (params : HpackParams) :
    Option PackedBox := do
  let meas ← measureHlist nodes
  let width ← targetSize meas.width spec
  let glue ← setGlue width meas.width meas (!nodes.isEmpty)
  some {
    node := {
      width, height := meas.height, depth := meas.depth, shift := 0
      glueSet := glue.ratio, glueSign := glue.sign, glueOrder := glue.order }
    children := nodes
    glue
    diagnostics := commonDiagnostics glue params.hbadness params.hfuzz }

def vpack (nodes : List PackedNode) (spec : PackSpec) (params : VpackParams) :
    Option PackedBox := do
  let measured ← measureVlist nodes
  let meas ← clampDepth measured params.boxMaxDepth
  let height ← targetSize meas.height spec
  let glue ← setGlue height meas.height meas (!nodes.isEmpty)
  some {
    node := {
      width := meas.width, height, depth := meas.depth, shift := 0
      glueSet := glue.ratio, glueSign := glue.sign, glueOrder := glue.order }
    children := nodes
    glue
    diagnostics := commonDiagnostics glue params.vbadness params.vfuzz }

/-! ## The advance of the output drivers -/

/-- How far a node other than glue moves the horizontal position. A
discretionary moves it by its replacement. -/
def horizontalExtent : PackedNode → Int
  | .glyph metrics => (metrics.map fun glyph => glyph.width.toInt).getD 0
  | .kern amount => amount.toInt
  | .rule width _ _ => (width.getD 0).toInt
  | .box width _ _ _ => width.toInt
  | .unset width _ _ => width.toInt
  | .disc replacement => ((measureHlist replacement).map fun inner => inner.width.toInt).getD 0
  | .image width _ _ => width.toInt
  | .math width => width.toInt
  | .glue _ _ | .ignored => 0

def verticalExtent : PackedNode → Int
  | .kern amount => amount.toInt
  | .rule _ height depth => (height.getD 0).toInt + (depth.getD 0).toInt
  | .box _ height depth _ => height.toInt + depth.toInt
  | .unset _ height depth => height.toInt + depth.toInt
  | .image _ height depth => height.toInt + depth.toInt
  | .glyph _ | .glue _ _ | .disc _ | .math _ | .ignored => 0

def advanceNode (extent : PackedNode → Int) (box : BoxFields) (cursor : Scaled × GlueTotals) :
    PackedNode → Option (Scaled × GlueTotals)
  | .glue spec _ => do
    let adjusted ← adjustedGlueWidth spec box.glueSign box.glueOrder box.glueSet cursor.2
    let position ← checkedAdd cursor.1 adjusted.1
    some (position, adjusted.2)
  | node => do
    let position ← scaledOfInt (cursor.1.toInt + extent node)
    some (position, cursor.2)

/-- The position behind the children of a box whose list starts at `start`;
`none` when a position overflows. -/
def advance (extent : PackedNode → Int) (box : PackedBox) (start : Scaled) : Option Scaled := do
  let cursor ← box.children.foldlM (advanceNode extent box.node) (start, .zero)
  some cursor.1

end Umber.Page
