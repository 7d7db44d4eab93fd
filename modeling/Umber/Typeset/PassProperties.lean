import Umber.Typeset.LineBreak

/-! What one breakpoint does to the active routes. -/

set_option autoImplicit false

namespace Umber.Typeset

open ExceptLib

def Candidate.StartsBefore (route : Candidate) (index : Nat) : Prop :=
  ∀ start, route.breakSite = some start → start < index

namespace Pass

variable {pass : Pass} {index : Nat} {site : Breakpoint}

/-! ## One route at a breakpoint -/

/-- The route is given up at the breakpoint: its line is overfull there, or the
breakpoint is forced. -/
def endsAt (pass : Pass) (site : Breakpoint) (active : Candidate) : Bool :=
  decide (active.position < site.position) &&
    match pass.scoreLine active site with
    | .ok score => decide (infBad < score.badness) || forced site
    | .error _ => false

/-- The line from the route to the breakpoint is within the tolerance. -/
def fits (pass : Pass) (site : Breakpoint) (active : Candidate) : Bool :=
  decide (active.position < site.position) &&
    match pass.scoreLine active site with
    | .ok score => decide (score.badness ≤ pass.tolerance)
    | .error _ => false

def Reaches (pass : Pass) (index : Nat) (site : Breakpoint) (active winner : Candidate) : Prop :=
  active.position < site.position ∧ ∃ score serial, pass.scoreLine active site = .ok score ∧
    site.penalty < infPenalty ∧ score.badness ≤ pass.tolerance ∧
    pass.newCandidate serial index site active score false = .ok winner

variable {isLast : Bool} {active : Candidate} {sweep result : Sweep}

/-- What one visit does with a route that stands before the breakpoint. -/
theorem visit_eq_ok (before : active.position < site.position)
    (visited : pass.visit index site isLast active sweep = .ok result) :
    ∃ score admitted, pass.scoreLine active site = .ok score ∧
      pass.admitCandidate index site active score
        (pass.artificial sweep isLast (decide (infBad < score.badness) || forced site)) sweep =
          .ok admitted ∧
      result = settle active (decide (infBad < score.badness) || forced site) admitted := by
  unfold visit at visited
  rw [if_neg (Nat.not_le.mpr before)] at visited
  obtain ⟨score, scoring, visited⟩ := bind_eq_ok.mp visited
  obtain ⟨admitted, admitting, visited⟩ := bind_eq_ok.mp visited
  cases pure_eq_ok.mp visited
  exact ⟨score, admitted, scoring, admitting, rfl⟩

theorem settle_winners (active : Candidate) (deactivates : Bool) (sweep : Sweep) :
    (settle active deactivates sweep).winners = sweep.winners := by
  unfold settle
  split <;> rfl

theorem settle_survivors (active : Candidate) (deactivates : Bool) (sweep : Sweep) :
    (settle active deactivates sweep).survivors =
      sweep.survivors ++ [active].filter fun _ => !deactivates := by
  unfold settle
  cases deactivates with
  | true => simp
  | false => simp

variable {score : LineScore} {artificial : Bool}

theorem admit_survivors {admitted : Sweep}
    (admitting : pass.admitCandidate index site active score artificial sweep = .ok admitted) :
    admitted.survivors = sweep.survivors := by
  unfold admitCandidate at admitting
  split at admitting
  · obtain ⟨candidate, _, admitting⟩ := bind_eq_ok.mp admitting
    cases pure_eq_ok.mp admitting
    rfl
  cases admitting
  rfl

/-! ## The sweep -/

structure Swept (pass : Pass) (index : Nat) (site : Breakpoint) (sweep : Sweep)
    (active : List Candidate) (result : Sweep) : Prop where
  survivors : result.survivors = sweep.survivors ++ active.filter fun route => !pass.endsAt site route
  origin : ∀ winner ∈ result.winners,
    winner ∈ sweep.winners ∨ ∃ route ∈ active, pass.Reaches index site route winner
  covers : ∀ other, (other ∈ sweep.winners ∨ ∃ route ∈ active, pass.Reaches index site route other) →
    ∃ winner ∈ result.winners, routeClass pass.easyLine winner = routeClass pass.easyLine other ∧
      winner.fitness = other.fitness ∧ winner.pathDemerits ≤ other.pathDemerits

theorem Swept.nil (sweep : Sweep) : Swept pass index site sweep [] sweep := by
  refine ⟨by simp, fun winner held => .inl held, fun other listed => ?_⟩
  rcases listed with held | ⟨_, member, _⟩
  · exact ⟨other, held, rfl, rfl, Int.le_refl _⟩
  · cases member

theorem Swept.trans {sweep between result : Sweep} {first second : List Candidate}
    (before : Swept pass index site sweep first between)
    (behind : Swept pass index site between second result) :
    Swept pass index site sweep (first ++ second) result := by
  refine ⟨?_, fun winner held => ?_, fun other listed => ?_⟩
  · rw [behind.survivors, before.survivors, List.filter_append, List.append_assoc]
  · rcases behind.origin winner held with earlier | ⟨route, member, reaches⟩
    · rcases before.origin winner earlier with initial | ⟨route, member, reaches⟩
      · exact .inl initial
      · exact .inr ⟨route, List.mem_append_left _ member, reaches⟩
    · exact .inr ⟨route, List.mem_append_right _ member, reaches⟩
  have middle : (∃ winner ∈ between.winners,
      routeClass pass.easyLine winner = routeClass pass.easyLine other ∧
        winner.fitness = other.fitness ∧ winner.pathDemerits ≤ other.pathDemerits) ∨
      ∃ route ∈ second, pass.Reaches index site route other := by
    rcases listed with held | ⟨route, member, reaches⟩
    · exact .inl (before.covers other (.inl held))
    rcases List.mem_append.mp member with early | late
    · exact .inl (before.covers other (.inr ⟨route, early, reaches⟩))
    · exact .inr ⟨route, late, reaches⟩
  rcases middle with ⟨winner, held, sameClass, sameFitness, cheaper⟩ | late
  · obtain ⟨last, kept, lastClass, lastFitness, lastCheaper⟩ := behind.covers winner (.inl held)
    exact ⟨last, kept, lastClass.trans sameClass, lastFitness.trans sameFitness,
      Int.le_trans lastCheaper cheaper⟩
  · exact behind.covers other (.inr late)

variable {serial : Nat} {winner : Candidate}

theorem newCandidate_eq_ok
    (made : pass.newCandidate serial index site active score artificial = .ok winner) :
    ∃ pathDemerits lineShortfall lineGlue,
      pass.routeDemerits active score site artificial = .ok pathDemerits ∧
      winner =
        { serial
          position := site.position
          breakSite := some index
          penalty := site.penalty
          line := active.line + 1
          fitness := score.fitness
          pathDemerits
          passive := none
          previous := active.passive
          hyphenated := site.hyphenated
          lineShortfall
          lineGlue } := by
  obtain ⟨pathDemerits, demerits, made⟩ := bind_eq_ok.mp made
  obtain ⟨lineShortfall, _, made⟩ := bind_eq_ok.mp made
  obtain ⟨lineGlue, _, made⟩ := bind_eq_ok.mp made
  cases pure_eq_ok.mp made
  exact ⟨pathDemerits, lineShortfall, lineGlue, demerits, rfl⟩

theorem visit_behind (behind : site.position ≤ active.position) :
    pass.visit index site isLast active sweep =
      .ok { sweep with survivors := sweep.survivors ++ [active] } := by
  unfold visit
  rw [if_pos behind]

theorem endsAt_behind (behind : site.position ≤ active.position) :
    pass.endsAt site active = false := by
  simp [endsAt, Nat.not_lt.mpr behind]

theorem endsAt_of_score (before : active.position < site.position)
    (scoring : pass.scoreLine active site = .ok score) :
    pass.endsAt site active = (decide (infBad < score.badness) || forced site) := by
  simp [endsAt, before, scoring]

theorem fits_of_score (before : active.position < site.position)
    (scoring : pass.scoreLine active site = .ok score) :
    pass.fits site active = decide (score.badness ≤ pass.tolerance) := by
  simp [fits, before, scoring]

theorem swept_behind (behind : site.position ≤ active.position) :
    Swept pass index site sweep [active]
      { sweep with survivors := sweep.survivors ++ [active] } := by
  refine ⟨?_, fun winner held => .inl held, fun other listed => ?_⟩
  · simp only [List.filter_cons, List.filter_nil, endsAt_behind behind, Bool.not_false, if_true]
  rcases listed with held | ⟨route, member, before, _⟩
  · exact ⟨other, held, rfl, rfl, Int.le_refl _⟩
  rw [List.mem_singleton.mp member] at before
  exact absurd before (Nat.not_lt.mpr behind)

variable {candidate : Candidate}

/-- A new route takes part in the competition of its class. -/
theorem swept_admitted (before : active.position < site.position)
    (scoring : pass.scoreLine active site = .ok score) (open_ : site.penalty < infPenalty)
    (within : score.badness ≤ pass.tolerance)
    (making : pass.newCandidate serial index site active score false = .ok candidate) :
    (∀ winner ∈ recordBestRoute pass.easyLine sweep.winners candidate,
      winner ∈ sweep.winners ∨ ∃ route ∈ [active], pass.Reaches index site route winner) ∧
    ∀ other, (other ∈ sweep.winners ∨ ∃ route ∈ [active], pass.Reaches index site route other) →
      ∃ winner ∈ recordBestRoute pass.easyLine sweep.winners candidate,
        routeClass pass.easyLine winner = routeClass pass.easyLine other ∧
          winner.fitness = other.fitness ∧ winner.pathDemerits ≤ other.pathDemerits := by
  refine ⟨fun winner held => ?_, fun other listed => ?_⟩
  · rcases Champion.mem_record held with earlier | same
    · exact .inl earlier
    rw [same]
    exact .inr ⟨active, List.mem_cons_self, before, score, _, scoring, open_, within, making⟩
  rcases listed with held | ⟨route, member, _, otherScore, _, otherScoring, _, _, otherMaking⟩
  · exact Champion.record_covers (.inl held)
  rw [List.mem_singleton.mp member] at otherScoring otherMaking
  cases scoring.symm.trans otherScoring
  obtain ⟨winner, kept, sameClass, sameFitness, cheaper⟩ :=
    @Champion.record_covers _ _ _ _ _ (routeClass pass.easyLine) Candidate.fitness
      Candidate.pathDemerits sweep.winners candidate candidate (.inr rfl)
  obtain ⟨demerits, _, _, computing, rfl⟩ := newCandidate_eq_ok making
  obtain ⟨otherDemerits, _, _, otherComputing, rfl⟩ := newCandidate_eq_ok otherMaking
  cases computing.symm.trans otherComputing
  exact ⟨winner, kept, sameClass, sameFitness, cheaper⟩

/-- A visit in which the last-route rule does not apply. -/
theorem visit_swept (genuine : ∀ deactivates, pass.artificial sweep isLast deactivates = false)
    (visited : pass.visit index site isLast active sweep = .ok result) :
    Swept pass index site sweep [active] result := by
  rcases Nat.lt_or_ge active.position site.position with before | behind
  case inr =>
    rw [visit_behind behind] at visited
    cases visited
    exact swept_behind behind
  obtain ⟨score, admitted, scoring, admitting, rfl⟩ := visit_eq_ok before visited
  rw [genuine] at admitting
  have survivors : (settle active (decide (infBad < score.badness) || forced site)
      admitted).survivors =
        sweep.survivors ++ [active].filter fun route => !pass.endsAt site route := by
    rw [settle_survivors, admit_survivors admitting]
    simp only [List.filter_cons, List.filter_nil, endsAt_of_score before scoring]
  refine ⟨survivors, ?_, ?_⟩
  all_goals
    rw [settle_winners]
    unfold admitCandidate at admitting
    split at admitting
  case _ admissible =>
    simp only [Bool.false_or, Bool.and_eq_true, decide_eq_true_eq] at admissible
    obtain ⟨candidate, making, admitting⟩ := bind_eq_ok.mp admitting
    cases pure_eq_ok.mp admitting
    exact (swept_admitted before scoring admissible.1 admissible.2 making).1
  case _ =>
    cases admitting
    exact fun winner held => .inl held
  case _ admissible =>
    simp only [Bool.false_or, Bool.and_eq_true, decide_eq_true_eq] at admissible
    obtain ⟨candidate, making, admitting⟩ := bind_eq_ok.mp admitting
    cases pure_eq_ok.mp admitting
    exact (swept_admitted before scoring admissible.1 admissible.2 making).2
  case _ inadmissible =>
    cases admitting
    intro other listed
    rcases listed with held | ⟨route, member, _, otherScore, _, otherScoring, open_, within, _⟩
    · exact ⟨other, held, rfl, rfl, Int.le_refl _⟩
    rw [List.mem_singleton.mp member] at otherScoring
    cases scoring.symm.trans otherScoring
    simp [open_, within] at inadmissible

theorem visitAll_swept {active : List Candidate} (open_ : pass.finalPass = false)
    (visited : pass.visitAll index site sweep active = .ok result) :
    Swept pass index site sweep active result := by
  induction active generalizing sweep with
  | nil =>
    cases visited
    exact .nil _
  | cons route rest ih => ?_
  obtain ⟨between, visiting, visited⟩ := bind_eq_ok.mp visited
  have first := visit_swept (fun _ => by simp [artificial, open_]) visiting
  exact first.trans (ih visited)

/-! ## The new active list -/

variable {params : LineBreakParams} {easyLine : Nat} {survivors winners : List Candidate}

theorem mem_mergeActiveCandidates :
    candidate ∈ mergeActiveCandidates params easyLine survivors winners ↔
      candidate ∈ survivors ∨ candidate ∈ winners := by
  unfold mergeActiveCandidates
  simp [Merge.mem_merge, Merge.mem_sort]

variable {adjDemerits : Int}

theorem mem_retainCompetitiveRoutes :
    candidate ∈ retainCompetitiveRoutes adjDemerits easyLine winners ↔
      candidate ∈ winners ∧ isCompetitive adjDemerits easyLine winners candidate = true := by
  unfold retainCompetitiveRoutes
  simp [Merge.mem_sort]

def passiveRoute (nodeCount : Nat) (winner : Candidate) : PassiveRoute :=
  { decision :=
      { position := min winner.position nodeCount
        penalty := winner.penalty
        hyphenated := winner.hyphenated }
    previous := winner.previous
    serial := winner.serial }

theorem recordPassive_passive (nodeCount : Nat) (passive : List PassiveRoute)
    (search : List BreakMemoryEvent) (winners : List Candidate) :
    (recordPassive nodeCount passive search winners).2.1 =
      passive ++ winners.map (passiveRoute nodeCount) := by
  induction winners generalizing passive search with
  | nil => exact (List.append_nil _).symm
  | cons winner rest ih => ?_
  unfold recordPassive
  dsimp only
  rw [ih, List.map_cons, List.append_assoc]
  rfl

variable {nodeCount : Nat} {passive : List PassiveRoute} {search : List BreakMemoryEvent}

/-- A recorded route differs from the winner it comes from in its passive one
only, which is new. -/
theorem mem_recordPassive (member : candidate ∈ (recordPassive nodeCount passive search winners).1) :
    
    ∃ winner ∈ winners, ∃ id, candidate = { winner with passive := some id } ∧
      passive.length ≤ id ∧ (recordPassive nodeCount passive search winners).2.1[id]? =
        some (passiveRoute nodeCount winner) := by
  induction winners generalizing passive search with
  | nil => cases member
  | cons winner rest ih => ?_
  rw [recordPassive_passive]
  unfold recordPassive at member
  rcases List.mem_cons.mp member with rfl | later
  · refine ⟨winner, List.mem_cons_self, _, rfl, Nat.le_refl _, ?_⟩
    rw [List.getElem?_append_right (Nat.le_refl _), Nat.sub_self]
    rfl
  obtain ⟨other, held, id, same, behind, found⟩ := ih later
  rw [recordPassive_passive, List.append_assoc] at found
  rw [List.length_append] at behind
  exact ⟨other, List.mem_cons_of_mem _ held, id, same, Nat.le_of_add_right_le behind, found⟩

theorem recordPassive_mem (member : winner ∈ winners) :
    ∃ id, { winner with passive := some id } ∈
      (recordPassive nodeCount passive search winners).1 := by
  induction winners generalizing passive search with
  | nil => cases member
  | cons first rest ih => ?_
  unfold recordPassive
  rcases List.mem_cons.mp member with rfl | later
  · exact ⟨_, List.mem_cons_self⟩
  obtain ⟨id, held⟩ := ih later
  exact ⟨id, List.mem_cons_of_mem _ held⟩

theorem recordPassive_eq_nil :
    (recordPassive nodeCount passive search winners).1 = [] ↔ winners = [] := by
  cases winners with
  | nil => exact ⟨fun _ => rfl, fun _ => rfl⟩
  | cons winner rest => exact ⟨fun empty => (nomatch empty), fun empty => (nomatch empty)⟩

theorem mergeActiveCandidates_eq_nil :
    mergeActiveCandidates params easyLine survivors winners = [] ↔
      survivors = [] ∧ winners = [] := by
  simp only [List.eq_nil_iff_forall_not_mem, mem_mergeActiveCandidates]
  exact ⟨fun none_ => ⟨fun route held => none_ route (.inl held),
      fun route held => none_ route (.inr held)⟩,
    fun both route held => held.elim (both.1 route) (both.2 route)⟩

/-- The competition leaves no route just when all of them are awfully bad. -/
theorem retainCompetitiveRoutes_eq_nil : retainCompetitiveRoutes adjDemerits easyLine winners = [] ↔
      ∀ winner ∈ winners, awfulBad ≤ winner.pathDemerits := by
  rw [List.eq_nil_iff_forall_not_mem]
  refine ⟨fun none_ winner held => ?_, fun awful route kept => ?_⟩
  · obtain ⟨cheapest, listed, same, found, least⟩ :=
      @Champion.exists_leastCost _ _ _ (routeClass easyLine) Candidate.pathDemerits _ _ held
    rcases @Champion.withinMargin_covers _ _ _ (routeClass easyLine) Candidate.pathDemerits _ _ _
        (awfulBad - 1) (Int.natCast_nonneg adjDemerits.natAbs) listed with
      within | ⟨cheaper, listedCheaper, sameClass, less, _⟩ | above
    · exact absurd (mem_retainCompetitiveRoutes.mpr ⟨listed, within⟩) (none_ cheapest)
    · have bound := least cheaper listedCheaper (sameClass.trans same)
      omega
    have bound := least winner held rfl
    omega
  obtain ⟨held, within⟩ := mem_retainCompetitiveRoutes.mp kept
  have below := Champion.le_cap_of_withinMargin within
  have above := awful route held
  omega

end Pass

/-! ## What the score of a line depends on -/

namespace Pass

variable {pass : Pass} {index : Nat} {site : Breakpoint}

/-- Without last-line fit, a line depends on the break it starts from and on the
dimensions of its line number only. -/
theorem scoreLine_congr {left right : Candidate} (plain : pass.lastLineFit.enabled = false)
    (sameSite : left.breakSite = right.breakSite)
    (sameDimensions : pass.params.shape.dimensions (left.line + 1) =
      pass.params.shape.dimensions (right.line + 1)) (site : Breakpoint) :
    pass.scoreLine left site = pass.scoreLine right site := by
  have sameWidth : left.startWidth pass.tape.breakSites = right.startWidth pass.tape.breakSites := by
    unfold Candidate.startWidth Candidate.breakpoint
    rw [sameSite]
  have samePosition : left.widthPosition pass.tape.breakSites =
      right.widthPosition pass.tape.breakSites := by
    unfold Candidate.widthPosition Candidate.breakpoint
    rw [sameSite]
  have sameMaterial : pass.lineMaterial left site = pass.lineMaterial right site := by
    unfold lineMaterial protruded
    rw [sameWidth, samePosition, sameDimensions]
  have noFit : ∀ (route : Candidate) (widths : Widths) (target : Int),
      pass.fittedBadness route site widths target = .ok none := by
    intro route widths target
    unfold fittedBadness
    split
    · simp [LastLineFit.badness, LastLineFit.unavailable, plain]
    · rfl
  unfold scoreLine
  simp only [sameMaterial, noFit]

theorem lastLineFit_disabled (off : pass.params.lastLineFit ≤ 0) :
    pass.lastLineFit.enabled = false := by
  simp [lastLineFit, LastLineFit.new, Int.not_lt.mpr off]

/-! ## Checking the sums -/

structure Uniform (pass : Pass) : Prop where
  plain : pass.params.lastLineFit ≤ 0
  dimensions : ∀ line, pass.params.shape.dimensions (line + 1) = pass.params.shape.dimensions 1

def probe (start : Option Nat) : Candidate := { Candidate.initial with breakSite := start }

def demeritsInRange (pass : Pass) (site : Breakpoint) (score : LineScore) : Bool :=
  [Fitness.tight, .decent, .loose, .veryLoose].all fun fitness =>
    [true, false].all fun hyphenated =>
      (computeRouteDemerits pass.params { Candidate.initial with fitness, hyphenated }
        (min score.badness infBad) site.penalty score.fitness site (pass.terminal site)).isOk

def lineInRange (pass : Pass) (site : Breakpoint) (start : Option Nat) : Bool :=
  (pass.scoreLine (probe start) site).toOption.any fun score =>
    pass.demeritsInRange site score && (pass.routeShortfall score site).isOk &&
      (routeGlue score).isOk

def rangeCheck (pass : Pass) : Bool :=
  (List.range pass.tape.breakSites.length).all fun index =>
    pass.tape.breakSites[index]?.all fun site =>
      (none :: (List.range index).map some).all (pass.lineInRange site)

theorem lineInRange_of_check (checked : pass.rangeCheck = true)
    (found : pass.tape.breakSites[index]? = some site) {route : Candidate}
    (starts : route.StartsBefore index) : pass.lineInRange site route.breakSite = true := by
  have inside := (List.getElem?_eq_some_iff.mp found).1
  have here := List.all_eq_true.mp checked index (List.mem_range.mpr inside)
  rw [found] at here
  refine List.all_eq_true.mp here route.breakSite ?_
  cases start : route.breakSite with
  | none => exact List.mem_cons_self
  | some earlier =>
    exact List.mem_cons_of_mem _ (List.mem_map_of_mem (List.mem_range.mpr (starts earlier start)))

theorem Uniform.score (uniform : pass.Uniform) (route : Candidate) :
    pass.scoreLine route site = pass.scoreLine (probe route.breakSite) site := by
  have same : route.breakSite = (probe route.breakSite).breakSite := rfl
  refine scoreLine_congr (lastLineFit_disabled uniform.plain) same ?_ site
  exact (uniform.dimensions route.line).trans (uniform.dimensions (probe route.breakSite).line).symm

theorem computeRouteDemerits_ok {score : LineScore} (route : Candidate)
    (inRange : pass.demeritsInRange site score = true) :
    (computeRouteDemerits pass.params route (min score.badness infBad) site.penalty score.fitness
      site (pass.terminal site)).isOk = true := by
  unfold demeritsInRange at inRange
  have fitness := List.all_eq_true.mp inRange route.fitness (by cases route.fitness <;> simp)
  exact List.all_eq_true.mp fitness route.hyphenated (by cases route.hyphenated <;> simp)

end Pass

end Umber.Typeset
