import Umber.Lib.Except

/-! Widths of horizontal material as the line breaker accumulates them, with the
badness of a line. -/

set_option autoImplicit false

namespace Umber.Typeset

inductive Panic where
  | scaledOverflow
  | demeritsOverflow
  | noFinalRoute
deriving DecidableEq

abbrev Checked (α : Type) := Except Panic α

def infBad : Int := 10000

def toScaled (value : Int) : Checked Int :=
  if -2147483648 ≤ value ∧ value ≤ 2147483647 then .ok value else .error .scaledOverflow

def inWide (value : Int) : Bool :=
  -9223372036854775808 ≤ value && value ≤ 9223372036854775807

def toWide (value : Int) : Checked Int :=
  if inWide value then .ok value else .error .scaledOverflow

/-! ## Glue -/

inductive Order where
  | normal
  | fil
  | fill
  | filll
deriving DecidableEq

structure GlueSpec where
  width : Int
  stretch : Int
  stretchOrder : Order
  shrink : Int
  shrinkOrder : Order
deriving DecidableEq

def GlueSpec.zero : GlueSpec := ⟨0, 0, .normal, 0, .normal⟩

structure PerOrder where
  normal : Int
  fil : Int
  fill : Int
  filll : Int

namespace PerOrder

def zero : PerOrder := ⟨0, 0, 0, 0⟩

def get (amounts : PerOrder) : Order → Int
  | .normal => amounts.normal
  | .fil => amounts.fil
  | .fill => amounts.fill
  | .filll => amounts.filll

def increase (amounts : PerOrder) (amount : Int) : Order → PerOrder
  | .normal => { amounts with normal := amounts.normal + amount }
  | .fil => { amounts with fil := amounts.fil + amount }
  | .fill => { amounts with fill := amounts.fill + amount }
  | .filll => { amounts with filll := amounts.filll + amount }

def add (left right : PerOrder) : PerOrder :=
  ⟨left.normal + right.normal, left.fil + right.fil, left.fill + right.fill,
    left.filll + right.filll⟩

def sub (left right : PerOrder) : PerOrder :=
  ⟨left.normal - right.normal, left.fil - right.fil, left.fill - right.fill,
    left.filll - right.filll⟩

def inRange (amounts : PerOrder) : Bool :=
  inWide amounts.normal && inWide amounts.fil && inWide amounts.fill && inWide amounts.filll

def infiniteIsZero (amounts : PerOrder) : Bool :=
  amounts.fil = 0 && amounts.fill = 0 && amounts.filll = 0

def highestOrder (amounts : PerOrder) : Order :=
  if amounts.filll ≠ 0 then .filll
  else if amounts.fill ≠ 0 then .fill
  else if amounts.fil ≠ 0 then .fil
  else .normal

end PerOrder

/-! ## Accumulated widths -/

structure Widths where
  natural : Int
  stretch : PerOrder
  shrink : PerOrder
  fontStretch : Int
  fontShrink : Int

namespace Widths

def zero : Widths := ⟨0, .zero, .zero, 0, 0⟩

def inRange (widths : Widths) : Bool :=
  inWide widths.natural && widths.stretch.inRange && widths.shrink.inRange &&
    inWide widths.fontStretch && inWide widths.fontShrink

/-- The accumulators after an operation, each of which must stay in range. -/
def checked (widths : Widths) : Checked Widths :=
  if widths.inRange then .ok widths else .error .scaledOverflow

def addAssign (left right : Widths) : Checked Widths :=
  checked
    { natural := left.natural + right.natural
      stretch := left.stretch.add right.stretch
      shrink := left.shrink.add right.shrink
      fontStretch := left.fontStretch + right.fontStretch
      fontShrink := left.fontShrink + right.fontShrink }

def sub (left right : Widths) : Checked Widths :=
  checked
    { natural := left.natural - right.natural
      stretch := left.stretch.sub right.stretch
      shrink := left.shrink.sub right.shrink
      fontStretch := left.fontStretch - right.fontStretch
      fontShrink := left.fontShrink - right.fontShrink }

def addNatural (widths : Widths) (amount : Int) : Checked Widths :=
  checked { widths with natural := widths.natural + amount }

def addGlue (widths : Widths) (spec : GlueSpec) : Checked Widths :=
  checked
    { widths with
      natural := widths.natural + spec.width
      stretch := widths.stretch.increase spec.stretch spec.stretchOrder
      shrink := widths.shrink.increase spec.shrink spec.shrinkOrder }

def fromGlue (spec : GlueSpec) : Checked Widths := zero.addGlue spec

def addNormalStretch (widths : Widths) (amount : Int) : Checked Widths :=
  checked { widths with stretch := widths.stretch.increase amount .normal }

def addFontVariation (widths : Widths) (stretch shrink : Int) : Checked Widths :=
  checked
    { widths with
      fontStretch := widths.fontStretch + stretch
      fontShrink := widths.fontShrink + shrink }

def hasInfiniteAdjustment (widths : Widths) (shortfall : Int) : Bool :=
  if 0 < shortfall then !widths.stretch.infiniteIsZero
  else if shortfall < 0 then !widths.shrink.infiniteIsZero
  else false

end Widths

/-! ## Nodes -/

inductive KernKind where
  | explicit
  | font
  | auto
  | accent
  | mu
  | leftMargin
  | rightMargin
deriving DecidableEq

inductive Node where
  | char (font ch : Nat)
  | lig (font ch : Nat)
  | kern (amount : Int) (kind : KernKind)
  | marginKern (amount : Int)
  | glue (spec : GlueSpec)
  | penalty (value : Int)
  | rule (width : Option Int)
  | box (width : Int)
  | unset (width : Int)
  | image (width : Int)
  | disc (pre post replace : List Node)
  | mathOn (width : Int)
  | mathOff (width : Int)
  | other

structure FontExpansionSpec where
  stretch : Int
  shrink : Int

/-- The protrusion of the two edge characters of a line, with the variation of
its marginal kerns. -/
structure LineProtrusion where
  total : Int
  marginStretch : Int
  marginShrink : Int

/-- What the typesetting kernels read of the fonts, and the edge characters found
for a line between two positions of a list. -/
structure TypesetState where
  fontUsesTfmMetrics : Nat → Bool
  fontWidths : Nat → Nat → Int
  fontCharacterWidth : Nat → Nat → Option Int
  fontExpansionSpec : Nat → Option FontExpansionSpec
  efcode : Nat → Nat → Int
  fontKern : Nat → Nat → Nat → Option Int
  lineProtrusion : List Node → Nat → Nat → Checked LineProtrusion

def Node.glyph : Node → Option (Nat × Nat)
  | .char font ch => some (font, ch)
  | .lig font ch => some (font, ch)
  | _ => none

def directGlyph (node : Node) : Option (Nat × Nat) := node.glyph.filter fun glyph => glyph.2 < 256

/-! ## Font expansion -/

def roundRatio (value numerator denominator : Int) : Int :=
  let product := value * numerator
  let rounded := (product.natAbs + denominator / 2) / denominator
  if product < 0 then -rounded else rounded

def scaledRatio (value numerator denominator : Int) : Checked Int :=
  toScaled (roundRatio value numerator denominator)

def scaledAtRatio (value ratio : Int) : Checked Int := scaledRatio value (1000 + ratio) 1000

def positiveScaledRatio (value numerator denominator : Int) : Checked Int :=
  if value ≤ 0 then .ok 0 else scaledRatio value numerator denominator

def clampEfcode (efcode : Int) : Int := min (max efcode 0) 1000

def expansionCapacity (natural : Int) (spec : FontExpansionSpec) (efcode : Int) :
    Checked (Int × Int) := do
  let efcode := clampEfcode efcode
  if efcode = 0 then .ok (0, 0)
  else
    let stretched ← scaledAtRatio natural spec.stretch
    let shrunk ← scaledAtRatio natural (-spec.shrink)
    let stretch ← positiveScaledRatio (stretched - natural) efcode 1000
    let shrink ← positiveScaledRatio (natural - shrunk) efcode 1000
    pure (stretch, shrink)

def addCharExpansion (state : TypesetState) (widths : Widths) (font code : Nat) (natural : Int) :
    Checked Widths :=
  match state.fontExpansionSpec font with
  | none => .ok widths
  | some spec => do
    let (stretch, shrink) ← expansionCapacity natural spec (state.efcode font code)
    widths.addFontVariation stretch shrink

def addFontKernCapacity (state : TypesetState) (widths : Widths) (left right : Nat × Nat)
    (natural : Int) : Checked Widths :=
  if left.1 ≠ right.1 then .ok widths
  else
    match state.fontExpansionSpec left.1 with
    | none => .ok widths
    | some spec => do
      let efcode := clampEfcode (state.efcode left.1 left.2)
      let pairKern := (state.fontKern left.1 left.2 right.2).getD 0
      let stretched ← scaledAtRatio pairKern spec.stretch
      let shrunk ← scaledAtRatio pairKern (-spec.shrink)
      let stretch ← scaledRatio (if 0 < spec.stretch then stretched - natural else 0) efcode 1000
      let shrink ← scaledRatio (if 0 < spec.shrink then natural - shrunk else 0) efcode 1000
      widths.addFontVariation stretch shrink

def addFontKernExpansion (state : TypesetState) (widths : Widths) (previous next : Option Node)
    (natural : Int) : Checked Widths :=
  match previous.bind directGlyph, next.bind directGlyph with
  | some left, some right => addFontKernCapacity state widths left right natural
  | _, _ => .ok widths

def addGlyphWidth (state : TypesetState) (expansion : Bool) (widths : Widths) (font ch : Nat) :
    Checked Widths :=
  match state.fontCharacterWidth font ch with
  | none => .ok widths
  | some width => do
    let widths ← widths.addNatural width
    if expansion && ch < 256 then addCharExpansion state widths font ch width else pure widths

/-! ## Widths of nodes -/

mutual

/-- One node between its neighbours. A discretionary counts its replacement,
whose last font kern sees the node behind the discretionary. -/
def addNodeWidth (state : TypesetState) (expansion : Bool) (widths : Widths)
    (previous next : Option Node) : Node → Checked Widths
  | .char font ch => addGlyphWidth state expansion widths font ch
  | .lig font ch => addGlyphWidth state expansion widths font ch
  | .kern amount kind => do
    let widths ← widths.addNatural amount
    if expansion && kind = .font then addFontKernExpansion state widths previous next amount
    else pure widths
  | .marginKern amount => widths.addNatural amount
  | .glue spec => widths.addGlue spec
  | .rule (some width) => widths.addNatural width
  | .box width => widths.addNatural width
  | .unset width => widths.addNatural width
  | .image width => widths.addNatural width
  | .disc _ _ replace => addNestedListWidths state expansion widths none next replace
  | .mathOn width => widths.addNatural width
  | .mathOff width => widths.addNatural width
  | .rule none => .ok widths
  | .penalty _ => .ok widths
  | .other => .ok widths

def addNestedListWidths (state : TypesetState) (expansion : Bool) (widths : Widths)
    (previous successor : Option Node) : List Node → Checked Widths
  | [] => .ok widths
  | node :: rest => do
    let widths ← addNodeWidth state expansion widths previous (rest.head?.or successor) node
    addNestedListWidths state expansion widths (some node) successor rest

end

def charRunWidth (state : TypesetState) (font code : Nat) : Int :=
  if state.fontUsesTfmMetrics font then state.fontWidths font code
  else (state.fontCharacterWidth font code).getD 0

def addListedWidth (state : TypesetState) (expansion : Bool) (widths : Widths)
    (previous next : Option Node) (node : Node) : Checked Widths :=
  match node with
  | .char font ch =>
    if ch < 256 then do
      let natural := charRunWidth state font ch
      let widths ← widths.addNatural natural
      if expansion then addCharExpansion state widths font ch natural else pure widths
    else addNodeWidth state expansion widths previous next node
  | node => addNodeWidth state expansion widths previous next node

def lineWidths (state : TypesetState) (expansion : Bool) (widths : Widths)
    (previous : Option Node) : List Node → Checked Widths
  | [] => .ok widths
  | node :: rest => do
    let widths ← addListedWidth state expansion widths previous rest.head? node
    lineWidths state expansion widths (some node) rest

def lineWidthsView (state : TypesetState) (expansion : Bool) (nodes : List Node) : Checked Widths :=
  lineWidths state expansion .zero none nodes

/-! ## Badness -/

/-- The badness of a line short by `t` that can stretch or shrink by `s`. -/
def texBadnessWide (t s : Int) : Int :=
  if t = 0 then 0
  else if s ≤ 0 then infBad
  else
    let r :=
      if t ≤ 7230584 then (t * 297).tdiv s
      else if 1663497 ≤ s then t.tdiv (s.tdiv 297)
      else t
    if 1290 < r then infBad else min ((r * r * r + 131072).tdiv 262144) infBad

def expansionAdjustedShortfall (shortfall capacity steps : Int) : Int :=
  if shortfall < capacity && 0 < steps then (capacity.tdiv steps).tdiv 2 else shortfall - capacity

def adjustedShortfall (widths : Widths) (target : Int) (steps : Option (Int × Int)) :
    Checked Int := do
  let diff ← toWide (target - widths.natural)
  match steps with
  | none => pure diff
  | some (stretchSteps, shrinkSteps) =>
    if 0 < diff && 0 < widths.fontStretch then
      toWide (expansionAdjustedShortfall diff widths.fontStretch stretchSteps)
    else if diff < 0 && 0 < widths.fontShrink then
      toWide (-expansionAdjustedShortfall (-diff) widths.fontShrink shrinkSteps)
    else pure diff

def badnessOfShortfall (widths : Widths) (diff : Int) : Int :=
  if 0 ≤ diff then
    let order := widths.stretch.highestOrder
    if order ≠ .normal ∧ 0 < widths.stretch.get order then 0
    else texBadnessWide diff widths.stretch.normal
  else
    let order := widths.shrink.highestOrder
    if order ≠ .normal ∧ 0 < widths.shrink.get order then 0
    else if widths.shrink.normal < -diff then infBad + 1
    else texBadnessWide (-diff) widths.shrink.normal

/-- The badness of a line; an overfull one is worse than infinitely bad. -/
def lineBadness (widths : Widths) (target : Int) (steps : Option (Int × Int)) : Checked Int := do
  let diff ← adjustedShortfall widths target steps
  pure (badnessOfShortfall widths diff)

end Umber.Typeset
