import Umber.Lib.Champion
import Umber.Lib.Merge
import Umber.Typeset.Tape

/-! The search for the breaks of a paragraph. -/

set_option autoImplicit false

namespace Umber.Typeset

def awfulBad : Int := 1073741823

def usizeMax : Nat := 18446744073709551615

/-! ## Line shapes -/

structure LineDimensions where
  indent : Int
  width : Int

def saturatingAbs (value : Int) : Nat := min value.natAbs 2147483647

def hangingApplies (line : Nat) (hangAfter : Int) : Bool :=
  if hangAfter < 0 then line ≤ saturatingAbs hangAfter else saturatingAbs hangAfter < line

def LineShape.dimensions (shape : LineShape) (line : Nat) : Checked LineDimensions :=
  let oneBased := max line 1 + shape.lineOffset
  match shape.parshape with
  | some parshape =>
    let entry := parshape.lines.get
      ⟨min (oneBased - 1) (parshape.lines.length - 1), by
        have positive := List.length_pos_iff.mpr parshape.nonempty
        omega⟩
    .ok { indent := entry.indent, width := entry.width }
  | none =>
    if shape.hangIndent = 0 || !hangingApplies oneBased shape.hangAfter then
      .ok { indent := 0, width := shape.hsize }
    else if 0 ≤ shape.hangIndent then do
      let width ← toScaled (shape.hsize - shape.hangIndent)
      pure { indent := shape.hangIndent, width }
    else do
      let width ← toScaled (shape.hsize + shape.hangIndent)
      pure { indent := 0, width }

def texEasyLine (params : LineBreakParams) : Nat :=
  if params.looseness ≠ 0 then usizeMax
  else
    match params.shape.parshape with
    | some parshape => parshape.lines.length - 1
    | none => if params.shape.hangIndent = 0 then 0 else saturatingAbs params.shape.hangAfter

/-- The last line number that keeps a class of its own is the easy one. -/
def lineNumberClass (line easyLine : Nat) : Nat := min line (easyLine + 1)

/-! ## Routes -/

inductive Fitness where
  | tight
  | decent
  | loose
  | veryLoose
deriving DecidableEq

namespace Fitness

def rank : Fitness → Int
  | .tight => 0
  | .decent => 1
  | .loose => 2
  | .veryLoose => 3

def trace : Fitness → Nat
  | .veryLoose => 0
  | .loose => 1
  | .decent => 2
  | .tight => 3

def incompatible (left right : Fitness) : Bool := 1 < (left.rank - right.rank).natAbs

end Fitness

def fitnessClass (bad natural target : Int) : Fitness :=
  if 12 < bad then
    if target < natural then .tight
    else if 99 < bad then .veryLoose
    else .loose
  else .decent

structure Candidate where
  serial : Nat
  position : Nat
  breakSite : Option Nat
  penalty : Int
  line : Nat
  fitness : Fitness
  pathDemerits : Int
  passive : Option Nat
  previous : Option Nat
  hyphenated : Bool
  lineShortfall : Int
  lineGlue : Int

def Candidate.initial : Candidate :=
  { serial := 0
    position := 0
    breakSite := none
    penalty := 0
    line := 0
    fitness := .decent
    pathDemerits := 0
    passive := none
    previous := none
    hyphenated := false
    lineShortfall := 0
    lineGlue := 0 }

namespace Candidate

def breakpoint (candidate : Candidate) (breakSites : List Breakpoint) : Option Breakpoint :=
  candidate.breakSite.bind fun site => breakSites[site]?

def widthPosition (candidate : Candidate) (breakSites : List Breakpoint) : Nat :=
  match candidate.breakpoint breakSites with
  | none => 0
  | some breakpoint => breakpoint.nextPosition

def startWidth (candidate : Candidate) (breakSites : List Breakpoint) : Widths :=
  match candidate.breakpoint breakSites with
  | none => .zero
  | some breakpoint => breakpoint.nextWidth

end Candidate

structure BreakDecision where
  position : Nat
  penalty : Int
  hyphenated : Bool

structure PassiveRoute where
  decision : BreakDecision
  previous : Option Nat
  serial : Nat

inductive BreakMemoryOwner where
  | active (serial : Nat)
  | passive (id : Nat)
deriving DecidableEq

inductive BreakMemoryEvent where
  | allocate (owner : BreakMemoryOwner) (words : Nat)
  | free (owner : BreakMemoryOwner)

structure BreakMemoryPlan where
  search : List BreakMemoryEvent
  cleanup : List BreakMemoryEvent

structure BreakPlan where
  breaks : List BreakDecision
  demerits : Int
  lastLineFill : Option GlueSpec
  memory : BreakMemoryPlan

/-! ## Last-line fit -/

structure LastLineFit where
  amount : Int
  parFill : GlueSpec
  fillWidth : PerOrder
  enabled : Bool

def LastLineFit.new (params : LineBreakParams) (background : Widths) : LastLineFit :=
  let parFill := params.parFillSkip
  let enabled :=
    decide (0 < params.lastLineFit) && decide (0 < parFill.stretch) &&
      decide (parFill.stretchOrder ≠ .normal) && background.stretch.infiniteIsZero
  { amount := params.lastLineFit
    parFill
    fillWidth :=
      if enabled then PerOrder.zero.increase parFill.stretch parFill.stretchOrder else .zero
    enabled }

def maxDimen : Int := 1073741823

def roundedFraction (x n d : Int) : Int :=
  if d = 0 then if x * n < 0 then -maxDimen else maxDimen
  else
    let numerator := x * n
    let rounded : Int := (numerator.natAbs + d.natAbs / 2) / d.natAbs
    let signed := if decide (numerator < 0) ≠ decide (d < 0) then -rounded else rounded
    max (-maxDimen) (min signed maxDimen)

def fittedFitness (adjustment bad : Int) : Fitness :=
  if 0 < adjustment then
    if 99 < bad then .veryLoose else if 12 < bad then .loose else .decent
  else if 12 < bad then .tight
  else .decent

namespace LastLineFit

/-- The last line cannot take over the adjustment of the line before it. -/
def unavailable (fit : LastLineFit) (previous : Candidate) (widths : Widths) (target : Int) : Bool :=
  !fit.enabled || previous.lineShortfall = 0 || previous.lineGlue ≤ 0 ||
    target ≤ widths.natural ||
    !(widths.stretch.fil = fit.fillWidth.fil && widths.stretch.fill = fit.fillWidth.fill &&
      widths.stretch.filll = fit.fillWidth.filll)

def available (previous : Candidate) (widths : Widths) : Int :=
  if 0 < previous.lineShortfall then widths.stretch.normal else widths.shrink.normal

def adjustment (fit : LastLineFit) (previous : Candidate) (available : Int) : Int :=
  let adjustment := roundedFraction available previous.lineShortfall previous.lineGlue
  if fit.amount < 1000 then roundedFraction adjustment fit.amount 1000 else adjustment

def bounded (widths : Widths) (target available adjustment : Int) : Checked Int :=
  if 0 < adjustment then do
    let remaining ← toScaled (target - widths.natural)
    pure (min adjustment remaining)
  else .ok (max adjustment (-available))

def badness (fit : LastLineFit) (previous : Candidate) (widths : Widths) (target : Int) :
    Checked (Option (Int × Fitness × Int)) :=
  if fit.unavailable previous widths target || available previous widths ≤ 0 then .ok none
  else do
    let available ← toScaled (available previous widths)
    let adjustment := fit.adjustment previous available
    if adjustment = 0 then pure none
    else
      let bounded ← bounded widths target available adjustment
      let bad := texBadnessWide bounded.natAbs available
      pure (some (bad, fittedFitness adjustment bad, bounded))

def adjustedFill (fit : LastLineFit) (chosen : Candidate) : Checked (Option GlueSpec) :=
  if fit.enabled && decide (chosen.lineShortfall ≠ 0) then do
    let filled ← toScaled (fit.parFill.width + chosen.lineShortfall)
    let width ← toScaled (filled - chosen.lineGlue)
    pure (some { fit.parFill with width, stretch := 0 })
  else .ok none

end LastLineFit

/-! ## Passes -/

structure Pass where
  state : TypesetState
  tape : ParagraphTape
  params : LineBreakParams
  tolerance : Int
  emergency : Bool
  finalPass : Bool
  background : Widths

namespace Pass

def easyLine (pass : Pass) : Nat := texEasyLine pass.params

def expansionSteps (pass : Pass) : Option (Int × Int) :=
  if 1 < pass.params.pdfAdjustSpacing then pass.params.expansionSteps else none

def lastLineFit (pass : Pass) : LastLineFit := .new pass.params pass.background

def forced (site : Breakpoint) : Bool := site.penalty ≤ ejectPenalty

def terminal (pass : Pass) (site : Breakpoint) : Bool :=
  forced site && pass.tape.nodes.length ≤ site.position

def protruded (pass : Pass) (candidate : Candidate) (site : Breakpoint) (widths : Widths)
    (target : Int) : Checked (Widths × Int) :=
  if 1 < pass.params.pdfProtrudeChars then do
    let start := min (candidate.widthPosition pass.tape.breakSites) pass.tape.nodes.length
    let finish := max (min site.protrusionEnd pass.tape.nodes.length) start
    let protrusion ← pass.state.lineProtrusion pass.tape.nodes start finish
    let widths ←
      (if pass.expansionSteps.isSome then
        widths.addFontVariation protrusion.marginStretch protrusion.marginShrink
      else .ok widths : Checked Widths)
    let target ← toScaled (target + protrusion.total)
    pure (widths, target)
  else .ok (widths, target)

def lineMaterial (pass : Pass) (candidate : Candidate) (site : Breakpoint) :
    Checked (Widths × Int) := do
  let breakpointWidth ← site.lineWidth.addAssign pass.background
  let breakpointWidth ← breakpointWidth.addAssign site.addWidth
  let widths ← breakpointWidth.sub (candidate.startWidth pass.tape.breakSites)
  let dimensions ← pass.params.shape.dimensions (candidate.line + 1)
  let widths ← widths.addNormalStretch (if pass.emergency then pass.params.emergencyStretch else 0)
  pass.protruded candidate site widths dimensions.width

structure LineScore where
  widths : Widths
  target : Int
  badness : Int
  fitness : Fitness
  fitted : Option Int

def fittedBadness (pass : Pass) (candidate : Candidate) (site : Breakpoint) (widths : Widths)
    (target : Int) : Checked (Option (Int × Fitness × Int)) :=
  if pass.terminal site then pass.lastLineFit.badness candidate widths target else .ok none

def scoreLine (pass : Pass) (candidate : Candidate) (site : Breakpoint) : Checked LineScore := do
  let (widths, target) ← pass.lineMaterial candidate site
  let normal ← lineBadness widths target pass.expansionSteps
  let fitted ← pass.fittedBadness candidate site widths target
  pure
    (match fitted with
    | some (badness, fitness, adjustment) =>
      { widths, target, badness, fitness, fitted := some adjustment }
    | none =>
      { widths
        target
        badness := normal
        fitness := fitnessClass (min normal infBad) widths.natural target
        fitted := none })

/-! ## Demerits -/

def lineDemerits (params : LineBreakParams) (hyphenated : Bool) (fitness : Fitness)
    (bad penalty : Int) (next : Fitness) (site : Breakpoint) (terminal : Bool) : Int :=
  let lineBad := params.linePenalty + bad
  (if infBad ≤ lineBad.natAbs then 100000000 else lineBad * lineBad) +
    (if 0 < penalty then penalty * penalty
    else if ejectPenalty < penalty then -(penalty * penalty)
    else 0) +
    (if hyphenated then
      if terminal then params.finalHyphenDemerits
      else if site.hyphenated then params.doubleHyphenDemerits
      else 0
    else 0) +
    (if fitness.incompatible next then params.adjDemerits else 0)

def computeRouteDemerits (params : LineBreakParams) (active : Candidate) (bad penalty : Int)
    (fitness : Fitness) (site : Breakpoint) (terminal : Bool) : Checked Int :=
  let demerits :=
    lineDemerits params active.hyphenated active.fitness bad penalty fitness site terminal
  if -2147483648 ≤ demerits ∧ demerits ≤ 2147483647 then .ok demerits
  else .error .demeritsOverflow

def computeDemerits (params : LineBreakParams) (active : Candidate) (bad penalty : Int)
    (fitness : Fitness) (site : Breakpoint) (terminal : Bool) : Checked Int := do
  let route ← computeRouteDemerits params active bad penalty fitness site terminal
  pure (max (-2147483648) (min (route + active.pathDemerits) awfulBad))

/-- What a new route adds to its predecessor: nothing when it is kept for want of
another one. -/
def routeDemerits (pass : Pass) (active : Candidate) (score : LineScore) (site : Breakpoint)
    (artificial : Bool) : Checked Int :=
  if artificial then .ok active.pathDemerits
  else
    computeDemerits pass.params active (min score.badness infBad) site.penalty score.fitness site
      (pass.terminal site)

/-! ## Candidates -/

def lineShortfallForRoute (target natural : Int) : Checked Int := do
  let shortfall ← toWide (target - natural)
  pure (if -2147483648 ≤ shortfall ∧ shortfall ≤ 2147483647 then shortfall else 0)

def candidateLineGlue (widths : Widths) (target badness : Int) : Checked Int :=
  let shortfall := target - widths.natural
  if infBad < badness || widths.hasInfiniteAdjustment shortfall then .ok 0
  else if 0 < shortfall then toScaled widths.stretch.normal
  else if shortfall < 0 then toScaled widths.shrink.normal
  else .ok 0

def routeShortfall (pass : Pass) (score : LineScore) (site : Breakpoint) : Checked Int :=
  if pass.terminal site && score.fitted.isNone then .ok 0
  else lineShortfallForRoute score.target score.widths.natural

def routeGlue (score : LineScore) : Checked Int :=
  match score.fitted with
  | some adjustment => .ok adjustment
  | none => candidateLineGlue score.widths score.target score.badness

def newCandidate (pass : Pass) (serial index : Nat) (site : Breakpoint) (active : Candidate)
    (score : LineScore) (artificial : Bool) : Checked Candidate := do
  let pathDemerits ← pass.routeDemerits active score site artificial
  let lineShortfall ← pass.routeShortfall score site
  let lineGlue ← routeGlue score
  pure
    { serial
      position := site.position
      breakSite := some index
      penalty := site.penalty
      line := active.line + 1
      fitness := score.fitness
      pathDemerits
      passive := none
      previous := active.passive
      hyphenated := site.hyphenated
      lineShortfall
      lineGlue }

/-! ## The active list -/

structure Sweep where
  survivors : List Candidate
  winners : List Candidate
  nextSerial : Nat
  search : List BreakMemoryEvent

def routeClass (easyLine : Nat) (candidate : Candidate) : Nat :=
  lineNumberClass candidate.line easyLine

/-- A new route competes with those of its fitness in the last line class. -/
def recordBestRoute (easyLine : Nat) (winners : List Candidate) (candidate : Candidate) :
    List Candidate :=
  Champion.record (routeClass easyLine) Candidate.fitness Candidate.pathDemerits winners candidate

/-- The last route is kept when no other one reaches this breakpoint or passes
it. -/
def artificial (pass : Pass) (sweep : Sweep) (isLast : Bool) (deactivates : Bool) : Bool :=
  pass.finalPass && sweep.survivors.isEmpty && sweep.winners.isEmpty && isLast && deactivates

def admitCandidate (pass : Pass) (index : Nat) (site : Breakpoint) (active : Candidate) (score : LineScore)
    (artificial : Bool) (sweep : Sweep) : Checked Sweep :=
  if decide (site.penalty < infPenalty) && (artificial || score.badness ≤ pass.tolerance) then do
    let candidate ← pass.newCandidate sweep.nextSerial index site active score artificial
    pure
      { sweep with
        winners := recordBestRoute pass.easyLine sweep.winners candidate
        nextSerial := sweep.nextSerial + 1 }
  else .ok sweep

def settle (active : Candidate) (deactivates : Bool) (sweep : Sweep) : Sweep :=
  if deactivates then { sweep with search := sweep.search ++ [.free (.active active.serial)] }
  else { sweep with survivors := sweep.survivors ++ [active] }

def visit (pass : Pass) (index : Nat) (site : Breakpoint) (isLast : Bool) (active : Candidate)
    (sweep : Sweep) : Checked Sweep :=
  if site.position ≤ active.position then
    .ok { sweep with survivors := sweep.survivors ++ [active] }
  else do
    let score ← pass.scoreLine active site
    let deactivates := decide (infBad < score.badness) || forced site
    let artificial := pass.artificial sweep isLast deactivates
    let sweep ← pass.admitCandidate index site active score artificial sweep
    pure (settle active deactivates sweep)

def visitAll (pass : Pass) (index : Nat) (site : Breakpoint) (sweep : Sweep) :
    List Candidate → Checked Sweep
  | [] => .ok sweep
  | active :: rest => do
    let sweep ← pass.visit index site rest.isEmpty active sweep
    pass.visitAll index site sweep rest

/-- The route is within the adjacency demerits of the best one of its line
class. -/
def isCompetitive (adjDemerits : Int) (easyLine : Nat) (winners : List Candidate)
    (candidate : Candidate) : Bool :=
  Champion.withinMargin (routeClass easyLine) Candidate.pathDemerits adjDemerits.natAbs
    (awfulBad - 1) winners candidate

def recordedOrder (easyLine : Nat) (left right : Candidate) : Bool :=
  let leftClass := lineNumberClass left.line easyLine
  let rightClass := lineNumberClass right.line easyLine
  leftClass < rightClass || leftClass = rightClass && left.fitness.trace ≤ right.fitness.trace

def retainCompetitiveRoutes (adjDemerits : Int) (easyLine : Nat) (winners : List Candidate) :
    List Candidate :=
  Merge.sort (recordedOrder easyLine)
    (winners.filter (isCompetitive adjDemerits easyLine winners))

def recordPassive (nodeCount : Nat) (passive : List PassiveRoute) (search : List BreakMemoryEvent) :
    List Candidate → List Candidate × List PassiveRoute × List BreakMemoryEvent
  | [] => ([], passive, search)
  | candidate :: rest =>
    let route :=
      { decision :=
          { position := min candidate.position nodeCount
            penalty := candidate.penalty
            hyphenated := candidate.hyphenated }
        previous := candidate.previous
        serial := candidate.serial : PassiveRoute }
    let (rest, later, search) := recordPassive nodeCount (passive ++ [route])
      (search ++ [.allocate (.passive passive.length) 2, .allocate (.active candidate.serial) 3])
      rest
    ({ candidate with passive := some passive.length } :: rest, later, search)

def effectiveLine (params : LineBreakParams) (candidate : Candidate) : Nat :=
  candidate.line + 1 + params.shape.lineOffset

def activeCandidateOrder (params : LineBreakParams) (easyLine : Nat) (left right : Candidate) :
    Ordering :=
  let leftLine := effectiveLine params left
  let rightLine := effectiveLine params right
  (compare (lineNumberClass leftLine easyLine) (lineNumberClass rightLine easyLine)).then
    ((if easyLine < leftLine then compare left.position right.position
      else compare right.position left.position).then
      ((compare left.fitness.trace right.fitness.trace).then (compare left.serial right.serial)))

def mergeActiveCandidates (params : LineBreakParams) (easyLine : Nat)
    (survivors winners : List Candidate) : List Candidate :=
  let sorted := Merge.sort
    (fun left right => (activeCandidateOrder params easyLine left right).isLE) winners
  (Merge.merge (fun survivor winner =>
    (activeCandidateOrder params easyLine survivor winner).isGT) survivors.reverse
    sorted.reverse).reverse

/-! ## The pass -/

structure SearchState where
  active : List Candidate
  passive : List PassiveRoute
  nextSerial : Nat
  search : List BreakMemoryEvent

def SearchState.initial : SearchState :=
  { active := [.initial]
    passive := []
    nextSerial := 1
    search := [.allocate (.active 0) 3] }

def breakAt (pass : Pass) (index : Nat) (site : Breakpoint) (search : SearchState) :
    Checked SearchState := do
  let sweep ← pass.visitAll index site
    { survivors := [], winners := [], nextSerial := search.nextSerial, search := search.search }
    search.active
  let retained := retainCompetitiveRoutes pass.params.adjDemerits pass.easyLine sweep.winners
  let (winners, passive, events) :=
    recordPassive pass.tape.nodes.length search.passive sweep.search retained
  pure
    { active := mergeActiveCandidates pass.params pass.easyLine sweep.survivors winners
      passive
      nextSerial := sweep.nextSerial
      search := events }

def breakSites (pass : Pass) (index : Nat) (search : SearchState) :
    List Breakpoint → Checked SearchState
  | [] => .ok search
  | site :: rest => do
    let search ← pass.breakAt index site search
    pass.breakSites (index + 1) search rest

def bestCandidate (finals : List Candidate) : Option Candidate :=
  Champion.leastBy (fun candidate => (candidate.pathDemerits, 0)) finals

def chooseFinal (finals : List Candidate) (looseness : Int) : Option Candidate :=
  match bestCandidate finals with
  | none => none
  | some first =>
    Champion.leastBy
      (fun candidate =>
        (((candidate.line : Int) - (first.line + looseness)).natAbs, candidate.pathDemerits))
      finals

/-- The decisions along a chain of passive routes, the last one first. -/
def decisions (passive : List PassiveRoute) : Nat → Option Nat → List BreakDecision
  | 0, _ => []
  | _ + 1, none => []
  | fuel + 1, some id =>
    match passive[id]? with
    | none => []
    | some route => route.decision :: decisions passive fuel route.previous

def reconstruct (pass : Pass) (chosen : Candidate) (search : SearchState) : Checked BreakPlan := do
  let lastLineFill ← pass.lastLineFit.adjustedFill chosen
  pure
    { breaks := (decisions search.passive search.passive.length chosen.passive).reverse
      demerits := min chosen.pathDemerits awfulBad
      lastLineFill
      memory :=
        { search := search.search
          cleanup :=
            search.active.map (fun candidate => .free (.active candidate.serial)) ++
              (List.range search.passive.length).reverse.map fun id => .free (.passive id) } }

def choose (pass : Pass) (search : SearchState) : Checked (Option BreakPlan) :=
  match chooseFinal search.active pass.params.looseness, bestCandidate search.active with
  | some chosen, some best =>
    if !pass.finalPass && (chosen.line : Int) - best.line ≠ pass.params.looseness then .ok none
    else do
      let plan ← pass.reconstruct chosen search
      pure (some plan)
  | _, _ => .ok none

end Pass

def lineBackground (params : LineBreakParams) : Checked Widths := do
  let left ← Widths.fromGlue params.leftSkip
  let right ← Widths.fromGlue params.rightSkip
  left.addAssign right

def Pass.run (pass : Pass) : Checked (Option BreakPlan) := do
  let search ← pass.breakSites 0 .initial pass.tape.breakSites
  pass.choose search

def runPass (state : TypesetState) (tape : ParagraphTape) (params : LineBreakParams)
    (tolerance : Int) (emergency finalPass : Bool) : Checked (Option BreakPlan) := do
  let background ← lineBackground params
  Pass.run { state, tape, params, tolerance, emergency, finalPass, background }

def breakHyphenatedTape (state : TypesetState) (tape : ParagraphTape) (params : LineBreakParams) :
    Checked BreakPlan := do
  let second ←
    runPass state tape params params.tolerance false (decide (params.emergencyStretch ≤ 0))
  match second with
  | some plan => pure plan
  | none =>
    match runPass state tape params params.tolerance true true with
    | .error panic => .error panic
    | .ok none => .error .noFinalRoute
    | .ok (some plan) => .ok plan

end Umber.Typeset
