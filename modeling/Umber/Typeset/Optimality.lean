import Umber.Typeset.FinalPassProperties
import Umber.Typeset.Routes

/-! The search finds a best break sequence. -/

set_option autoImplicit false

namespace Umber.Typeset

open ExceptLib

/-! ## Line classes -/

variable {left right : Nat}

theorem dimensions_of_class {params : LineBreakParams} (tight : params.looseness = 0)
    (same : lineNumberClass left (texEasyLine params) = lineNumberClass right (texEasyLine params)) :
     params.shape.dimensions (left + 1) = params.shape.dimensions (right + 1) := by
  unfold lineNumberClass texEasyLine at same
  rw [if_neg (by simp [tight])] at same
  unfold LineShape.dimensions
  cases shaped : params.shape.parshape with
  | some parshape =>
    rw [shaped] at same
    dsimp only at same ⊢
    have entry : min (max (left + 1) 1 + params.shape.lineOffset - 1) (parshape.lines.length - 1) =
        min (max (right + 1) 1 + params.shape.lineOffset - 1) (parshape.lines.length - 1) := by
      omega
    simp only [entry]
  | none => ?_
  rw [shaped] at same
  dsimp only at same ⊢
  by_cases flush : params.shape.hangIndent = 0
  · simp [flush]
  rw [if_neg flush] at same
  have applies : hangingApplies (max (left + 1) 1 + params.shape.lineOffset)
        params.shape.hangAfter =
      hangingApplies (max (right + 1) 1 + params.shape.lineOffset) params.shape.hangAfter := by
    unfold hangingApplies
    split
    · rw [decide_eq_decide]
      omega
    rw [decide_eq_decide]
    omega
  rw [applies]

theorem lineNumberClass_succ {easyLine : Nat}
    (same : lineNumberClass left easyLine = lineNumberClass right easyLine) :
    lineNumberClass (left + 1) easyLine = lineNumberClass (right + 1) easyLine := by
  unfold lineNumberClass at *
  omega

namespace Pass

variable {pass : Pass} {index : Nat} {breaks : List Nat} {route : RouteEnd} {site : Breakpoint}
  {candidate winner : Candidate} {passive : List PassiveRoute} {search next : SearchState}

/-! ## Demerits -/

/-- The demerits of a line depend on the fitness in front of it by at most the
adjacency demerits. -/
theorem lineDemerits_le (params : LineBreakParams) (hyphenated : Bool) (left right : Fitness)
    (bad penalty : Int) (next : Fitness) (site : Breakpoint) (terminal : Bool) :
    lineDemerits params hyphenated left bad penalty next site terminal ≤
      lineDemerits params hyphenated right bad penalty next site terminal +
        params.adjDemerits.natAbs := by
  unfold lineDemerits
  dsimp only
  have margin : (if left.incompatible next then params.adjDemerits else 0) ≤
      (if right.incompatible next then params.adjDemerits else 0) + params.adjDemerits.natAbs := by
    split <;> split <;> omega
  omega

/-! ## Chains of passive routes -/

def decisionOf (pass : Pass) (site : Breakpoint) : BreakDecision :=
  { position := min site.position pass.tape.nodes.length
    penalty := site.penalty
    hyphenated := site.hyphenated }

def decisionsOf (pass : Pass) (breaks : List Nat) : List BreakDecision :=
  breaks.filterMap fun index => pass.tape.breakSites[index]?.map pass.decisionOf

/-- The passive routes hold the decisions of a break sequence, each in front of the
next. -/
inductive Chain (pass : Pass) (passive : List PassiveRoute) : Option Nat → List Nat → Prop where
  | nil : Chain pass passive none []
  | snoc {id index : Nat} {breaks : List Nat} {route : PassiveRoute} {site : Breakpoint}
      (stored : passive[id]? = some route) (found : pass.tape.breakSites[index]? = some site)
      (decided : route.decision = pass.decisionOf site)
      (earlier : ∀ previous, route.previous = some previous → previous < id)
      (chain : Chain pass passive route.previous breaks) :
      Chain pass passive (some id) (breaks ++ [index])

theorem Chain.lt_length {id : Nat} (chain : pass.Chain passive (some id) breaks) :
    id < passive.length := by
  cases chain with
  | snoc stored => exact (List.getElem?_eq_some_iff.mp stored).1

variable {last : Option Nat}

theorem Chain.append (chain : pass.Chain passive last breaks) (more : List PassiveRoute) :
    pass.Chain (passive ++ more) last breaks := by
  induction chain with
  | nil => exact .nil
  | snoc stored found decided earlier _ ih => ?_
  refine .snoc ?_ found decided earlier ih
  rw [List.getElem?_append_left (List.getElem?_eq_some_iff.mp stored).1]
  exact stored

theorem Chain.decisions (chain : pass.Chain passive last breaks) {fuel : Nat}
    (enough : ∀ id, last = some id → id < fuel) :
    decisions passive fuel last = (pass.decisionsOf breaks).reverse := by
  induction chain generalizing fuel with
  | nil =>
    cases fuel with
    | zero => rfl
    | succ fuel => rfl
  | @snoc id index breaks route site stored found decided earlier _ ih => ?_
  cases fuel with
  | zero => exact absurd (enough id rfl) (Nat.not_lt_zero _)
  | succ fuel => ?_
  have inner := @ih fuel fun previous same =>
    Nat.lt_of_lt_of_le (earlier previous same) (Nat.le_of_lt_succ (enough id rfl))
  unfold Pass.decisions
  rw [stored]
  dsimp only
  rw [inner, decided]
  unfold decisionsOf
  rw [List.filterMap_append, List.reverse_append]
  simp [found]

/-! ## Candidates and break sequences -/

def positionAt (pass : Pass) (last : Option Nat) : Nat :=
  (last.bind fun index => pass.tape.breakSites[index]?).elim 0 Breakpoint.position

structure Stands (pass : Pass) (candidate : Candidate) (route : RouteEnd) : Prop where
  site : candidate.breakSite = route.site
  position : candidate.position = pass.positionAt route.site
  line : candidate.line = route.line
  fitness : candidate.fitness = route.fitness
  hyphenated : candidate.hyphenated = route.hyphenated
  demerits : candidate.pathDemerits = route.demerits

structure Covers (pass : Pass) (candidate : Candidate) (route : RouteEnd) : Prop where
  site : candidate.breakSite = route.site
  lineClass : lineNumberClass candidate.line pass.easyLine = lineNumberClass route.line pass.easyLine
  cheaper : candidate.fitness = route.fitness ∧ candidate.pathDemerits ≤ route.demerits ∨
    candidate.pathDemerits + pass.params.adjDemerits.natAbs < route.demerits

structure Explored (pass : Pass) (index : Nat) (search : SearchState) : Prop where
  sound : ∀ candidate ∈ search.active, ∃ breaks route,
    pass.Follows pass.tolerance index breaks route ∧ pass.Stands candidate route ∧
      pass.Chain search.passive candidate.passive breaks
  covered : ∀ breaks route, pass.Follows pass.tolerance index breaks route →
    ∃ candidate ∈ search.active, pass.Covers candidate route

structure Plain (pass : Pass) : Prop where
  tight : pass.params.looseness = 0
  unfitted : pass.lastLineFit.enabled = false
  nonfinal : pass.finalPass = false
  some_ : pass.tape.nodes ≠ []

theorem Stands.scoreLine (plain : pass.Plain) (stands : pass.Stands candidate route) :
    pass.scoreLine candidate site = pass.scoreLine route.candidate site := by
  refine scoreLine_congr plain.unfitted stands.site ?_ site
  rw [stands.line]
  rfl

theorem Covers.scoreLine (plain : pass.Plain) (covers : pass.Covers candidate route) :
    pass.scoreLine candidate site = pass.scoreLine route.candidate site := by
  refine scoreLine_congr plain.unfitted covers.site ?_ site
  exact dimensions_of_class plain.tight covers.lineClass

variable {limit : Int}

/-- A route ends in front of the breakpoints it has not met. -/
theorem Follows.before (plain : pass.Plain) (followed : pass.Follows limit index breaks route)
    (found : pass.tape.breakSites[index]? = some site) :
    pass.positionAt route.site < site.position := by
  obtain ⟨inside, here⟩ := List.getElem?_eq_some_iff.mp found
  unfold positionAt
  cases ended : route.site with
  | none => exact pass.tape.positive plain.some_ site (List.mem_of_getElem? found)
  | some last => ?_
  have less := followed.site_lt ended
  have ordered := List.pairwise_iff_getElem.mp pass.tape.ordered last index
    (Nat.lt_trans less inside) inside less
  rw [here] at ordered
  simpa [List.getElem?_eq_getElem (Nat.lt_trans less inside)] using ordered

/-! ## One breakpoint -/

theorem computeDemerits_eq {params : LineBreakParams} {bad penalty demerits : Int}
    {fitness : Fitness} {terminal : Bool}
    (computed : computeDemerits params candidate bad penalty fitness site terminal = .ok demerits) :
    demerits = max (-2147483648) (min (lineDemerits params candidate.hyphenated candidate.fitness bad
      penalty fitness site terminal + candidate.pathDemerits) awfulBad) := by
  obtain ⟨added, adding, computed⟩ := bind_eq_ok.mp computed
  cases pure_eq_ok.mp computed
  unfold computeRouteDemerits at adding
  dsimp only at adding
  split at adding
  · cases adding
    rfl
  · cases adding

theorem Stands.startsBefore (stands : pass.Stands candidate route)
    (followed : pass.Follows limit index breaks route) : candidate.StartsBefore index :=
  fun _ same => followed.site_lt (stands.site.symm.trans same)

/-- A new candidate stands for the extended route. -/
theorem Stands.reaches (plain : pass.Plain) (unclamped : pass.Unclamped)
    (followed : pass.Follows pass.tolerance index breaks route)
    (found : pass.tape.breakSites[index]? = some site) (stands : pass.Stands candidate route)
    (reaches : pass.Reaches index site candidate winner) :
    ∃ score, pass.scoreLine route.candidate site = .ok score ∧ site.penalty < infPenalty ∧
      score.badness ≤ pass.tolerance ∧ pass.Stands winner (pass.extend route index site score) ∧
      winner.previous = candidate.passive ∧ winner.penalty = site.penalty := by
  obtain ⟨_, score, serial, scoring, open_, within, making⟩ := reaches
  rw [stands.scoreLine plain] at scoring
  obtain ⟨demerits, _, _, computing, rfl⟩ := newCandidate_eq_ok making
  have value := computeDemerits_eq computing
  have bounds := unclamped _ _ _ (.breaks followed found scoring open_ within)
  have total : demerits = (pass.extend route index site score).demerits := by
    rw [stands.hyphenated, stands.fitness, stands.demerits] at value
    unfold extend at bounds ⊢
    dsimp only at bounds ⊢
    omega
  refine ⟨score, scoring, open_, within, ⟨rfl, ?_, ?_, rfl, rfl, total⟩, rfl, rfl⟩
  · unfold positionAt extend
    simp [found]
  unfold extend
  rw [stands.line]

/-- A candidate that covers a route reaches each breakpoint that the route can
break at, no dearer. -/
theorem Covers.reaches (plain : pass.Plain) (inRange : pass.InRange) (unclamped : pass.Unclamped)
    {own : RouteEnd} {ownBreaks : List Nat} (covers : pass.Covers candidate route)
    (stands : pass.Stands candidate own)
    (ownFollowed : pass.Follows pass.tolerance index ownBreaks own)
    (followed : pass.Follows pass.tolerance index breaks route)
    (found : pass.tape.breakSites[index]? = some site) {score : LineScore}
    (scoring : pass.scoreLine route.candidate site = .ok score) (open_ : site.penalty < infPenalty)
    (within : score.badness ≤ pass.tolerance) : ∃ winner, pass.Reaches index site candidate winner ∧
      routeClass pass.easyLine winner =
        lineNumberClass (pass.extend route index site score).line pass.easyLine ∧
      winner.fitness = (pass.extend route index site score).fitness ∧
      winner.pathDemerits ≤ (pass.extend route index site score).demerits := by
  have before : candidate.position < site.position := by
    rw [stands.position]
    exact ownFollowed.before plain found
  have scored : pass.scoreLine candidate site = .ok score := (covers.scoreLine plain).trans scoring
  have fits : pass.fits site candidate = true := by
    rw [fits_of_score before scored]
    exact decide_eq_true within
  obtain ⟨winner, reaches⟩ := inRange.reaches found (stands.startsBefore ownFollowed) fits open_
  obtain ⟨ownScore, ownScoring, _, _, standing, _⟩ :=
    stands.reaches plain unclamped ownFollowed found reaches
  cases (ownScoring.symm.trans (stands.scoreLine plain).symm).trans scored
  have hyphenated : own.hyphenated = route.hyphenated := by
    rw [ownFollowed.hyphenated, followed.hyphenated, ← stands.site, covers.site]
  refine ⟨winner, reaches, ?_, standing.fitness, ?_⟩
  · unfold routeClass
    rw [standing.line]
    refine lineNumberClass_succ ?_
    rw [← stands.line]
    exact covers.lineClass
  rw [standing.demerits]
  unfold extend
  dsimp only
  rw [← stands.demerits, hyphenated]
  rcases covers.cheaper with ⟨sameFitness, cheaper⟩ | less
  · rw [← stands.fitness, sameFitness]
    exact Int.add_le_add_right cheaper _
  have near := lineDemerits_le pass.params route.hyphenated own.fitness route.fitness
    (min score.badness infBad) site.penalty score.fitness site (pass.terminal site)
  omega

/-- A champion of the breakpoint is kept, or a much cheaper one of its line class
is. -/
theorem exists_retained {winners : List Candidate} (unclamped : route.demerits < awfulBad)
    (member : winner ∈ winners)
    (lineClass : routeClass pass.easyLine winner = lineNumberClass route.line pass.easyLine)
    (fitness : winner.fitness = route.fitness) (cheaper : winner.pathDemerits ≤ route.demerits) :
    ∃ kept ∈ retainCompetitiveRoutes pass.params.adjDemerits pass.easyLine winners,
      routeClass pass.easyLine kept = lineNumberClass route.line pass.easyLine ∧
      (kept.fitness = route.fitness ∧ kept.pathDemerits ≤ route.demerits ∨
        kept.pathDemerits + pass.params.adjDemerits.natAbs < route.demerits) := by
  rcases @Champion.withinMargin_covers _ _ _ (routeClass pass.easyLine) Candidate.pathDemerits _ _ _
      (awfulBad - 1) (Int.natCast_nonneg pass.params.adjDemerits.natAbs) member with
    within | ⟨cheapest, held, sameClass, less, kept⟩ | above
  · exact ⟨winner, mem_retainCompetitiveRoutes.mpr ⟨member, within⟩, lineClass,
      .inl ⟨fitness, cheaper⟩⟩
  · have below : cheapest.pathDemerits ≤ awfulBad - 1 := by omega
    exact ⟨cheapest, mem_retainCompetitiveRoutes.mpr ⟨held, kept below⟩, sameClass.trans lineClass,
      .inr (Int.lt_of_lt_of_le less cheaper)⟩
  · omega

section

variable {sweep : Sweep} (swept : Swept pass index site
    { survivors := [], winners := [], nextSerial := search.nextSerial, search := search.search }
    search.active sweep)
include swept

section

variable
  (member : candidate ∈ mergeActiveCandidates pass.params pass.easyLine sweep.survivors
    (recordPassive pass.tape.nodes.length search.passive sweep.search
      (retainCompetitiveRoutes pass.params.adjDemerits pass.easyLine sweep.winners)).1)
include member

/-- A candidate of the next active list passed the breakpoint or was retained
there. -/
theorem mem_next :
    (candidate ∈ search.active ∧ pass.endsAt site candidate = false) ∨
      ∃ winner parent id, parent ∈ search.active ∧ pass.Reaches index site parent winner ∧
        candidate = { winner with passive := some id } ∧ search.passive.length ≤ id ∧
        (recordPassive pass.tape.nodes.length search.passive sweep.search
          (retainCompetitiveRoutes pass.params.adjDemerits pass.easyLine sweep.winners)).2.1[id]? =
            some (passiveRoute pass.tape.nodes.length winner) := by
  rcases mem_mergeActiveCandidates.mp member with survivor | new
  · rw [swept.survivors, List.nil_append] at survivor
    obtain ⟨held, stays⟩ := List.mem_filter.mp survivor
    exact .inl ⟨held, by simpa using stays⟩
  obtain ⟨winner, retained, id, same, behind, stored⟩ := mem_recordPassive new
  obtain ⟨won, _⟩ := mem_retainCompetitiveRoutes.mp retained
  rcases swept.origin winner won with none_ | ⟨parent, held, reaches⟩
  · cases none_
  · exact .inr ⟨winner, parent, id, held, reaches, same, behind, stored⟩

theorem Explored.sound_next (plain : pass.Plain) (inRange : pass.InRange)
    (unclamped : pass.Unclamped) (found : pass.tape.breakSites[index]? = some site)
    (explored : pass.Explored index search) :
    ∃ breaks route, pass.Follows pass.tolerance (index + 1) breaks route ∧
      pass.Stands candidate route ∧
      pass.Chain (recordPassive pass.tape.nodes.length search.passive sweep.search
        (retainCompetitiveRoutes pass.params.adjDemerits pass.easyLine sweep.winners)).2.1
        candidate.passive breaks := by
  rcases mem_next swept member with
    ⟨held, stays⟩ | ⟨winner, parent, id, held, reaches, rfl, behind, stored⟩
  · obtain ⟨breaks, route, followed, stands, chain⟩ := explored.sound candidate held
    obtain ⟨score, scoring⟩ :=
      inRange.scored index site candidate found (stands.startsBefore followed)
    have before : candidate.position < site.position := by
      rw [stands.position]
      exact followed.before plain found
    rw [endsAt_of_score before scoring, Bool.or_eq_false_iff, decide_eq_false_iff_not] at stays
    rw [stands.scoreLine plain] at scoring
    rw [recordPassive_passive]
    exact ⟨breaks, route, .passes followed found scoring (Int.not_lt.mp stays.1) stays.2, stands,
      chain.append _⟩
  obtain ⟨breaks, route, followed, stands, chain⟩ := explored.sound parent held
  obtain ⟨score, scoring, open_, within, standing, previous, penalty⟩ :=
    stands.reaches plain unclamped followed found reaches
  refine ⟨_, _, .breaks followed found scoring open_ within, ?_, ?_⟩
  · exact ⟨standing.site, standing.position, standing.line, standing.fitness, standing.hyphenated,
      standing.demerits⟩
  have position : winner.position = site.position := by
    rw [standing.position]
    unfold positionAt extend
    simp [found]
  refine .snoc stored found ?_ ?_ ?_
  · unfold passiveRoute decisionOf
    rw [position, penalty, standing.hyphenated]
    rfl
  · intro earlier same
    rw [show (passiveRoute _ winner).previous = winner.previous from rfl, previous] at same
    rw [same] at chain
    exact Nat.lt_of_lt_of_le chain.lt_length behind
  rw [show (passiveRoute _ winner).previous = winner.previous from rfl, previous,
    recordPassive_passive]
  exact chain.append _

end

theorem Explored.covered_next (plain : pass.Plain) (inRange : pass.InRange)
    (unclamped : pass.Unclamped) (explored : pass.Explored index search)
    (found : pass.tape.breakSites[index]? = some site)
    (followed : pass.Follows pass.tolerance (index + 1) breaks route) :
    ∃ candidate ∈ mergeActiveCandidates pass.params pass.easyLine sweep.survivors
      (recordPassive pass.tape.nodes.length search.passive sweep.search
        (retainCompetitiveRoutes pass.params.adjDemerits pass.easyLine sweep.winners)).1,
      pass.Covers candidate route := by
  cases followed with
  | @passes _ _ _ _ score followed foundAgain scoring stays optional =>
    cases found.symm.trans foundAgain
    obtain ⟨candidate, held, covers⟩ := explored.covered _ _ followed
    refine ⟨candidate, mem_mergeActiveCandidates.mpr (.inl ?_), covers⟩
    rw [swept.survivors, List.nil_append]
    obtain ⟨_, own, ownFollowed, stands, _⟩ := explored.sound candidate held
    have before : candidate.position < site.position := by
      rw [stands.position]
      exact ownFollowed.before plain found
    refine List.mem_filter.mpr ⟨held, ?_⟩
    rw [endsAt_of_score before ((covers.scoreLine plain).trans scoring), optional]
    simp [Int.not_lt.mpr stays]
  | @breaks _ _ parent _ score followed foundAgain scoring open_ within => ?_
  cases found.symm.trans foundAgain
  have bounds := unclamped _ _ _ (.breaks followed found scoring open_ within)
  obtain ⟨candidate, held, covers⟩ := explored.covered _ _ followed
  obtain ⟨_, own, ownFollowed, stands, _⟩ := explored.sound candidate held
  obtain ⟨winner, reaches, lineClass, fitness, cheaper⟩ :=
    covers.reaches plain inRange unclamped stands ownFollowed followed found scoring open_ within
  obtain ⟨champion, won, sameClass, sameFitness, less⟩ :=
    swept.covers winner (.inr ⟨candidate, held, reaches⟩)
  obtain ⟨kept, retained, keptClass, keptCheaper⟩ :=
    exists_retained bounds.2 won (sameClass.trans lineClass) (sameFitness.trans fitness)
      (Int.le_trans less cheaper)
  obtain ⟨id, recorded⟩ := recordPassive_mem retained
  refine ⟨_, mem_mergeActiveCandidates.mpr (.inr recorded), ?_, keptClass, keptCheaper⟩
  rcases swept.origin kept (mem_retainCompetitiveRoutes.mp retained).1 with
    none_ | ⟨_, _, _, _, _, _, _, _, making⟩
  · cases none_
  obtain ⟨_, _, _, _, rfl⟩ := newCandidate_eq_ok making
  rfl

end

theorem Explored.breakAt (plain : pass.Plain) (inRange : pass.InRange)
    (unclamped : pass.Unclamped) (explored : pass.Explored index search)
    (found : pass.tape.breakSites[index]? = some site)
    (broken : pass.breakAt index site search = .ok next) : pass.Explored (index + 1) next := by
  obtain ⟨sweep, visited, active, recorded⟩ := breakAt_eq_ok broken
  have swept := visitAll_swept plain.nonfinal visited
  constructor
  case sound =>
    intro candidate member
    rw [active] at member
    rw [recorded]
    exact explored.sound_next swept member plain inRange unclamped found
  case covered =>
    intro breaks route followed
    rw [active]
    exact explored.covered_next swept plain inRange unclamped found followed

theorem explored_initial : pass.Explored 0 .initial := by
  constructor
  case sound =>
    intro candidate member
    rw [List.mem_singleton.mp member]
    exact ⟨[], .start, .start, ⟨rfl, rfl, rfl, rfl, rfl, rfl⟩, .nil⟩
  case covered =>
    intro breaks route followed
    cases followed
    exact ⟨.initial, List.mem_cons_self, rfl, rfl, .inl ⟨rfl, Int.le_refl _⟩⟩

theorem Arrives.explored (plain : pass.Plain) (inRange : pass.InRange)
    (unclamped : pass.Unclamped) (arrived : pass.Arrives index search) :
    pass.Explored index search := by
  induction arrived with
  | start => exact explored_initial
  | step _ found broken ih => exact ih.breakAt plain inRange unclamped found broken

/-! ## The chosen sequence -/

theorem Covers.le (covers : pass.Covers candidate route) :
    candidate.pathDemerits ≤ route.demerits := by
  rcases covers.cheaper with ⟨_, cheaper⟩ | less
  · exact cheaper
  · omega

/-- Without looseness the chosen route is a cheapest one, with the line number of
the first cheapest one. -/
theorem chooseFinal_least {finals : List Candidate} {chosen best : Candidate}
    (choosing : chooseFinal finals 0 = some chosen) (finding : bestCandidate finals = some best) :
    chosen ∈ finals ∧ chosen.line = best.line ∧
      ∀ other ∈ finals, chosen.pathDemerits ≤ other.pathDemerits := by
  unfold chooseFinal at choosing
  rw [finding] at choosing
  obtain ⟨held, least⟩ := Champion.leastBy_spec choosing
  obtain ⟨bestHeld, bestLeast⟩ := Champion.leastBy_spec finding
  have first := least best bestHeld
  simp only [Champion.pairLt] at first
  refine ⟨held, by omega, fun other listed => ?_⟩
  have bound := bestLeast other listed
  simp only [Champion.pairLt] at bound
  omega

def IsBest (pass : Pass) (limit : Int) (result : Option BreakPlan) : Prop :=
  (result = none ↔ ¬ ∃ breaks total, pass.Sequence limit breaks total) ∧
    ∀ plan, result = some plan → ∃ breaks, plan.breaks = pass.decisionsOf breaks ∧
      pass.Sequence limit breaks plan.demerits ∧
        ∀ others total, pass.Sequence limit others total → plan.demerits ≤ total

theorem choose_isBest (plain : pass.Plain) (inRange : pass.InRange) (unclamped : pass.Unclamped)
    (ended : pass.Arrives pass.tape.breakSites.length search) :
    ∃ result, pass.choose search = .ok result ∧ pass.IsBest pass.tolerance result := by
  have explored := ended.explored plain inRange unclamped
  unfold choose
  by_cases some_ : search.active = []
  · have none_ : chooseFinal search.active pass.params.looseness = none := by
      rw [some_]
      rfl
    rw [none_]
    refine ⟨none, rfl, ⟨fun _ sequence => ?_, fun _ => rfl⟩, fun _ absent => (nomatch absent)⟩
    obtain ⟨breaks, total, route, followed, _⟩ := sequence
    obtain ⟨candidate, held, _⟩ := explored.covered breaks route followed
    rw [some_] at held
    cases held
  obtain ⟨chosen, best, choosing, finding, _⟩ := chooseFinal_isSome some_ pass.params.looseness
  rw [choosing, finding]
  rw [plain.tight] at choosing ⊢
  obtain ⟨held, sameLine, least⟩ := chooseFinal_least choosing finding
  obtain ⟨breaks, route, followed, stands, chain⟩ := explored.sound chosen held
  obtain ⟨fill, filling⟩ := (inRange.ready ended).filled chosen held
  dsimp only
  rw [if_neg (by simp [sameLine])]
  unfold reconstruct
  rw [filling, ok_bind]
  have bounds := unclamped _ _ _ followed
  have demerits : min chosen.pathDemerits awfulBad = route.demerits := by
    rw [stands.demerits]
    omega
  refine ⟨_, rfl, ⟨fun absent => (nomatch absent), fun none_ => ?_⟩, fun plan same => ?_⟩
  · exact absurd ⟨breaks, _, route, followed, rfl⟩ none_
  cases same
  refine ⟨breaks, ?_, ⟨route, followed, demerits.symm⟩, fun others total sequence => ?_⟩
  · dsimp only
    rw [chain.decisions, List.reverse_reverse]
    intro id same
    rw [same] at chain
    exact chain.lt_length
  obtain ⟨other, otherFollowed, rfl⟩ := sequence
  obtain ⟨candidate, listed, covers⟩ := explored.covered others other otherFollowed
  dsimp only
  exact Int.le_trans (Int.min_le_left ..) (Int.le_trans (least candidate listed) covers.le)

/-- The pass finds a best sequence among those with every line within the
tolerance, overfull lines included. -/
theorem run_isBest (plain : pass.Plain) (inRange : pass.InRange) (unclamped : pass.Unclamped) :
    ∃ result, pass.run = .ok result ∧ pass.IsBest pass.tolerance result := by
  obtain ⟨last, finished, ended⟩ := inRange.breakSites_ok .start
    (show pass.tape.breakSites.drop 0 = pass.tape.breakSites from rfl)
  rw [Nat.zero_add] at ended
  obtain ⟨result, choosing, best⟩ := choose_isBest plain inRange unclamped ended
  refine ⟨result, ?_, best⟩
  unfold run
  rw [finished, ok_bind, choosing]

def IsOptimal (pass : Pass) (result : Option BreakPlan) : Prop :=
  pass.IsBest (min pass.tolerance infBad) result

/-- Each sequence within the tolerance is feasible, or dearer than a feasible one. -/
def OverfullDearer (pass : Pass) : Prop :=
  ∀ breaks total, pass.Sequence pass.tolerance breaks total →
    pass.Feasible breaks total ∨ ∃ others less, pass.Feasible others less ∧ less < total

/-- Each sequence within the tolerance is at least as dear as a feasible one. -/
def OverfullNoCheaper (pass : Pass) : Prop :=
  ∀ breaks total, pass.Sequence pass.tolerance breaks total →
    ∃ others less, pass.Feasible others less ∧ less ≤ total

theorem overfullDearer_of_le (bounded : pass.tolerance ≤ infBad) : pass.OverfullDearer := by
  intro breaks total sequence
  refine .inl ?_
  unfold Feasible
  rw [Int.min_eq_left bounded]
  exact sequence

variable {result : Option BreakPlan}

theorem IsBest.optimal (best : pass.IsBest pass.tolerance result) (dearer : pass.OverfullDearer) :
    pass.IsOptimal result := by
  obtain ⟨absent, present⟩ := best
  refine ⟨absent.trans (not_congr ⟨fun sequence => ?_, fun feasible => ?_⟩), fun plan same => ?_⟩
  · obtain ⟨breaks, total, sequence⟩ := sequence
    rcases dearer breaks total sequence with feasible | ⟨others, less, feasible, _⟩
    · exact ⟨breaks, total, feasible⟩
    · exact ⟨others, less, feasible⟩
  · obtain ⟨breaks, total, feasible⟩ := feasible
    exact ⟨breaks, total, Feasible.sequence feasible⟩
  obtain ⟨breaks, decided, sequence, least⟩ := present plan same
  refine ⟨breaks, decided, ?_, fun others total feasible => least others total
    (Feasible.sequence feasible)⟩
  rcases dearer breaks _ sequence with feasible | ⟨others, less, feasible, cheaper⟩
  · exact feasible
  · exact absurd (least others less (Feasible.sequence feasible)) (Int.not_le.mpr cheaper)

theorem IsBest.overfullNoCheaper (best : pass.IsBest pass.tolerance result)
    (optimal : pass.IsOptimal result) : pass.OverfullNoCheaper := by
  intro breaks total sequence
  cases found : result with
  | none => exact absurd ⟨breaks, total, sequence⟩ (best.1.mp found)
  | some plan => ?_
  obtain ⟨others, _, feasible, _⟩ := optimal.2 plan found
  obtain ⟨_, _, _, least⟩ := best.2 plan found
  exact ⟨others, plan.demerits, feasible, least breaks total sequence⟩

end Pass

/-! ## The pass -/

def openPass (state : TypesetState) (tape : ParagraphTape) (params : LineBreakParams)
    (tolerance : Int) (emergency : Bool) (background : Widths) : Pass :=
  { state, tape, params, tolerance, emergency, finalPass := false, background }

/-- The pass returns a best feasible sequence when each sequence with an overfull
line is dearer than a feasible one, and only when none is cheaper than all
feasible ones. -/
theorem runPass_optimal {state : TypesetState} {tape : ParagraphTape} {params : LineBreakParams}
    {tolerance : Int} {emergency : Bool} {background : Widths}
    (added : lineBackground params = .ok background) (tight : params.looseness = 0)
    (unfitted : (LastLineFit.new params background).enabled = false) (some_ : tape.nodes ≠ [])
    (inRange : (openPass state tape params tolerance emergency background).InRange)
    (unclamped : (openPass state tape params tolerance emergency background).Unclamped) :
    ∃ result, runPass state tape params tolerance emergency false = .ok result ∧
      ((openPass state tape params tolerance emergency background).OverfullDearer →
        (openPass state tape params tolerance emergency background).IsOptimal result) ∧
      ((openPass state tape params tolerance emergency background).IsOptimal result →
        (openPass state tape params tolerance emergency background).OverfullNoCheaper) := by
  have plain : (openPass state tape params tolerance emergency background).Plain :=
    ⟨tight, unfitted, rfl, some_⟩
  obtain ⟨result, ran, best⟩ := Pass.run_isBest plain inRange unclamped
  refine ⟨result, ?_, best.optimal, best.overfullNoCheaper⟩
  unfold runPass
  rw [added, ok_bind]
  exact ran

def twoLines : List Node :=
  [.box 40, .glue ⟨10, 100, .normal, 0, .normal⟩, .box 45, .glue ⟨10, 100, .normal, 0, .normal⟩,
    .box 60] ++ [.penalty 10000, .glue (narrowParams 50).parFillSkip]

def overfullLine : List Node :=
  [.box 1000] ++ [.penalty 10000, .glue (narrowParams 50).parFillSkip]

/-- The sums of a pass over a narrow paragraph stay in range and away from the
clamps. -/
def unclampedCheck (pass : Pass) : Bool :=
  pass.rangeCheck &&
    ((List.range (pass.tape.breakSites.length + 1)).all fun index =>
      (pass.follow pass.tolerance index).all fun taken =>
        decide (-1073741824 < taken.2.demerits) && decide (taken.2.demerits < awfulBad))

theorem runPass_optimal_twoLines :
    ∃ tape result, ParagraphTape.analyze noFonts twoLines (narrowParams 50) = .ok tape ∧
      runPass noFonts tape (narrowParams 50) 200 false false = .ok result ∧ result.isSome = true ∧
      (openPass noFonts tape (narrowParams 50) 200 false .zero).IsOptimal result := by
  have evaluated : ((ParagraphTape.analyze noFonts twoLines (narrowParams 50)).toOption.any
      fun tape => unclampedCheck (openPass noFonts tape (narrowParams 50) 200 false .zero) &&
        (!tape.nodes.isEmpty && (runPass noFonts tape (narrowParams 50) 200 false
          false).toOption.any Option.isSome)) = true := by
    decide +kernel
  obtain ⟨tape, analyzed, checked⟩ := exists_of_toOption_any evaluated
  obtain ⟨sums, some_⟩ := (Bool.and_eq_true ..).mp checked
  obtain ⟨nonempty, planned⟩ := (Bool.and_eq_true ..).mp some_
  obtain ⟨range, clamps⟩ := (Bool.and_eq_true ..).mp sums
  have inside : tape.nodes ≠ [] := by
    intro empty
    rw [empty] at nonempty
    cases nonempty
  obtain ⟨result, ran, optimal, _⟩ := runPass_optimal rfl rfl rfl inside
    (Pass.inRange_of_check ⟨Int.le_refl _, fun _ => rfl⟩ range) (Pass.unclamped_of_follow clamps)
  obtain ⟨planned, planRan, isSome⟩ := exists_of_toOption_any planned
  cases planRan.symm.trans ran
  have bounded : (openPass noFonts tape (narrowParams 50) 200 false .zero).tolerance ≤ infBad := by
    change (200 : Int) ≤ 10000
    decide
  exact ⟨tape, result, analyzed, ran, isSome, optimal (Pass.overfullDearer_of_le bounded)⟩

/-- A tolerance above the badness of overfull lines admits them: the pass returns
a plan where no sequence is feasible. -/
theorem overfull_line_within_tolerance :
    ∃ tape result, ParagraphTape.analyze noFonts overfullLine (narrowParams 50) = .ok tape ∧
      tape.nodes ≠ [] ∧ (openPass noFonts tape (narrowParams 50) 20000 false .zero).InRange ∧
      (openPass noFonts tape (narrowParams 50) 20000 false .zero).Unclamped ∧
      runPass noFonts tape (narrowParams 50) 20000 false false = .ok result ∧
      ¬ (openPass noFonts tape (narrowParams 50) 20000 false .zero).IsOptimal result := by
  have evaluated : ((ParagraphTape.analyze noFonts overfullLine (narrowParams 50)).toOption.any
      fun tape => unclampedCheck (openPass noFonts tape (narrowParams 50) 20000 false .zero) &&
        (!tape.nodes.isEmpty && ((runPass noFonts tape (narrowParams 50) 20000 false
          false).toOption.any Option.isSome &&
            ((openPass noFonts tape (narrowParams 50) 20000 false .zero).follow 10000
              tape.breakSites.length).isEmpty))) = true := by
    decide +kernel
  obtain ⟨tape, analyzed, checked⟩ := exists_of_toOption_any evaluated
  obtain ⟨sums, some_⟩ := (Bool.and_eq_true ..).mp checked
  obtain ⟨nonempty, rest⟩ := (Bool.and_eq_true ..).mp some_
  obtain ⟨planned, none_⟩ := (Bool.and_eq_true ..).mp rest
  obtain ⟨range, clamps⟩ := (Bool.and_eq_true ..).mp sums
  obtain ⟨result, ran, isSome⟩ := exists_of_toOption_any planned
  refine ⟨tape, result, analyzed, fun empty => ?_,
    Pass.inRange_of_check ⟨Int.le_refl _, fun _ => rfl⟩ range, Pass.unclamped_of_follow clamps, ran,
    fun optimal => ?_⟩
  · rw [empty] at nonempty
    cases nonempty
  obtain ⟨plan, rfl⟩ := Option.isSome_iff_exists.mp isSome
  obtain ⟨breaks, _, ⟨route, followed, _⟩, _⟩ := optimal.2 plan rfl
  have listed := followed.mem_follow
  rw [List.isEmpty_iff] at none_
  exact absurd (none_ ▸ listed) List.not_mem_nil

end Umber.Typeset
