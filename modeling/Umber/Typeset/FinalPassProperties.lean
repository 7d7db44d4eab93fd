import Umber.Typeset.PassProperties

/-! When a pass keeps a route up to the end of its paragraph. -/

set_option autoImplicit false

namespace Umber.Typeset

open ExceptLib

namespace Pass

variable {pass : Pass} {index : Nat} {site : Breakpoint}

/-! ## Starving breakpoints -/

def AwfullyBad (pass : Pass) (index : Nat) (site : Breakpoint) (active : List Candidate) : Prop :=
  ∀ route ∈ active, ∀ winner, pass.Reaches index site route winner → awfulBad ≤ winner.pathDemerits

/-- The breakpoint gives up every active route without a successor: it cannot be
chosen, or its new routes are awfully bad and hide the last route from the rule
that would keep it. -/
def Starves (pass : Pass) (index : Nat) (site : Breakpoint) (active : List Candidate) : Prop :=
  (∀ route ∈ active, pass.endsAt site route = true) ∧
    (infPenalty ≤ site.penalty ∨
      (pass.finalPass = true → ∃ route ∈ active.dropLast, pass.fits site route = true) ∧
        pass.AwfullyBad index site active)

variable {front : List Candidate} {last : Candidate} {sweep result : Sweep}

/-- The routes in front of the last one are swept without the last-route rule. -/
theorem visitAll_concat (visited : pass.visitAll index site sweep (front ++ [last]) = .ok result) :
    ∃ between, Swept pass index site sweep front between ∧
      pass.visit index site true last between = .ok result := by
  induction front generalizing sweep with
  | nil =>
    obtain ⟨between, visiting, visited⟩ := bind_eq_ok.mp visited
    cases visited
    exact ⟨sweep, .nil _, visiting⟩
  | cons route rest ih => ?_
  obtain ⟨next, visiting, visited⟩ := bind_eq_ok.mp visited
  have more : (rest.append [last]).isEmpty = false := by
    cases rest with
    | nil => rfl
    | cons _ _ => rfl
  rw [more] at visiting
  have first := visit_swept (fun _ => by simp [artificial]) visiting
  obtain ⟨between, swept, visiting⟩ := ih visited
  exact ⟨between, first.trans swept, visiting⟩

variable {route : Candidate}

theorem Reaches.fits {winner : Candidate} (reaches : pass.Reaches index site route winner) :
    pass.fits site route = true := by
  obtain ⟨before, score, _, scoring, _, within, _⟩ := reaches
  rw [fits_of_score before scoring]
  exact decide_eq_true within

variable {active : List Candidate}

theorem Swept.survivors_eq_nil (swept : Swept pass index site sweep active result)
    (fresh : sweep.survivors = []) :
    result.survivors = [] ↔ ∀ route ∈ active, pass.endsAt site route = true := by
  rw [swept.survivors, fresh, List.nil_append, List.filter_eq_nil_iff]
  simp only [Bool.not_eq_true', Bool.not_eq_false]

theorem Swept.awfullyBad (swept : Swept pass index site sweep active result)
    (fresh : sweep.winners = []) : (∀ winner ∈ result.winners, awfulBad ≤ winner.pathDemerits) ↔
      pass.AwfullyBad index site active := by
  refine ⟨fun awful route member other reaches => ?_, fun awful winner held => ?_⟩
  · obtain ⟨winner, held, _, _, cheaper⟩ := swept.covers other (.inr ⟨route, member, reaches⟩)
    exact Int.le_trans (awful winner held) cheaper
  rcases swept.origin winner held with earlier | ⟨route, member, reaches⟩
  · rw [fresh] at earlier
    cases earlier
  · exact awful route member winner reaches

variable {between : Sweep}

/-- A breakpoint at which the last-route rule does not apply. -/
theorem starves_of_swept (freshSurvivors : sweep.survivors = []) (freshWinners : sweep.winners = [])
    (early : Swept pass index site sweep front between)
    (swept : Swept pass index site sweep (front ++ [last]) result)
    (inactive : ¬ (pass.finalPass = true ∧ between.survivors = [] ∧ between.winners = [])) :
    (result.survivors = [] ∧ ∀ winner ∈ result.winners, awfulBad ≤ winner.pathDemerits) ↔
      pass.Starves index site (front ++ [last]) := by
  rw [swept.survivors_eq_nil freshSurvivors, swept.awfullyBad freshWinners]
  refine and_congr_right fun ends => ⟨fun awful => .inr ⟨fun final => ?_, awful⟩, fun starving => ?_⟩
  · rw [List.dropLast_concat]
    have gone : between.survivors = [] := (early.survivors_eq_nil freshSurvivors).mpr
      fun route member => ends route (List.mem_append_left _ member)
    cases won : between.winners with
    | nil => exact absurd ⟨final, gone, won⟩ inactive
    | cons winner _ => ?_
    rcases early.origin winner (won ▸ List.mem_cons_self) with earlier | ⟨route, member, reaches⟩
    · rw [freshWinners] at earlier
      cases earlier
    · exact ⟨route, member, reaches.fits⟩
  rcases starving with inhibited | ⟨_, awful⟩
  · intro route _ winner reaches
    obtain ⟨_, _, _, _, open_, _⟩ := reaches
    exact absurd inhibited (Int.not_le.mpr open_)
  · exact awful

/-- The last route at a breakpoint that keeps no other one. -/
theorem starves_of_last (freshSurvivors : sweep.survivors = [])
    (early : Swept pass index site sweep front between)
    (visited : pass.visit index site true last between = .ok result) (final : pass.finalPass = true)
    (gone : between.survivors = []) (lost : between.winners = [])
    (bounded : last.pathDemerits < awfulBad)
    (made : ∀ route ∈ front, pass.fits site route = true → site.penalty < infPenalty →
      ∃ winner, pass.Reaches index site route winner) :
    (result.survivors = [] ∧ ∀ winner ∈ result.winners, awfulBad ≤ winner.pathDemerits) ↔
      pass.Starves index site (front ++ [last]) := by
  have lastListed : last ∈ front ++ [last] := List.mem_append_right _ List.mem_cons_self
  rcases Nat.lt_or_ge last.position site.position with before | behind
  case inr =>
    rw [visit_behind behind] at visited
    cases visited
    refine ⟨fun empty => ?_, fun starving => ?_⟩
    · simp at empty
    have ends := starving.1 last lastListed
    rw [endsAt_behind behind] at ends
    cases ends
  obtain ⟨score, admitted, scoring, admitting, rfl⟩ := visit_eq_ok before visited
  have lastEnds := endsAt_of_score before scoring
  rw [settle_survivors, settle_winners, admit_survivors admitting, gone]
  generalize (decide (infBad < score.badness) || forced site) = deactivates at *
  cases deactivates with
  | false =>
    refine ⟨fun empty => ?_, fun starving => ?_⟩
    · simp at empty
    rw [starving.1 last lastListed] at lastEnds
    cases lastEnds
  | true => ?_
  have kept : pass.artificial between true true = true := by simp [artificial, final, gone, lost]
  rw [kept] at admitting
  by_cases open_ : site.penalty < infPenalty
  · unfold admitCandidate at admitting
    rw [if_pos (by simp [open_])] at admitting
    obtain ⟨candidate, making, admitting⟩ := bind_eq_ok.mp admitting
    cases pure_eq_ok.mp admitting
    obtain ⟨demerits, _, _, computing, rfl⟩ := newCandidate_eq_ok making
    cases computing
    refine ⟨fun empty => ?_, fun starving => ?_⟩
    · obtain ⟨winner, held, _, _, cheaper⟩ :=
        @Champion.record_covers _ _ _ _ _ (routeClass pass.easyLine) Candidate.fitness
          Candidate.pathDemerits between.winners _ _ (.inr rfl)
      have awful := empty.2 winner held
      exact absurd (Int.lt_of_le_of_lt cheaper bounded) (Int.not_lt.mpr awful)
    rcases starving.2 with inhibited | ⟨fitting, _⟩
    · exact absurd inhibited (Int.not_le.mpr open_)
    obtain ⟨route, member, fits⟩ := fitting final
    rw [List.dropLast_concat] at member
    obtain ⟨winner, reaches⟩ := made route member fits open_
    obtain ⟨champion, held, _⟩ := early.covers winner (.inr ⟨route, member, reaches⟩)
    rw [lost] at held
    cases held
  unfold admitCandidate at admitting
  rw [if_neg (by simp [open_])] at admitting
  cases admitting
  refine ⟨fun _ => ⟨fun route member => ?_, .inl (Int.not_lt.mp open_)⟩, fun _ => ?_⟩
  · rcases List.mem_append.mp member with other | same
    · exact (early.survivors_eq_nil freshSurvivors).mp gone route other
    rw [List.mem_singleton.mp same]
    exact lastEnds
  rw [lost]
  exact ⟨rfl, fun _ held => absurd held List.not_mem_nil⟩

/-- A sweep loses every route just when the breakpoint starves. -/
theorem visitAll_starves (some_ : active ≠ []) (freshSurvivors : sweep.survivors = [])
    (freshWinners : sweep.winners = []) (bounded : ∀ route ∈ active, route.pathDemerits < awfulBad)
    (made : ∀ route ∈ active, pass.fits site route = true → site.penalty < infPenalty →
      ∃ winner, pass.Reaches index site route winner)
    (visited : pass.visitAll index site sweep active = .ok result) :
    (result.survivors = [] ∧ ∀ winner ∈ result.winners, awfulBad ≤ winner.pathDemerits) ↔
      pass.Starves index site active := by
  rcases List.eq_nil_or_concat active with empty | ⟨front, last, rfl⟩
  · exact absurd empty some_
  rw [List.concat_eq_append] at *
  obtain ⟨between, early, visiting⟩ := visitAll_concat visited
  by_cases applies : pass.finalPass = true ∧ between.survivors = [] ∧ between.winners = []
  · obtain ⟨final, gone, lost⟩ := applies
    exact starves_of_last freshSurvivors early visiting final gone lost
      (bounded last (List.mem_append_right _ List.mem_cons_self))
      fun route member => made route (List.mem_append_left _ member)
  have genuine : ∀ deactivates, pass.artificial between true deactivates = false := by
    intro deactivates
    cases holds : pass.artificial between true deactivates with
    | false => rfl
    | true =>
      simp only [artificial, Bool.and_eq_true, List.isEmpty_iff] at holds
      exact absurd ⟨holds.1.1.1.1, holds.1.1.1.2, holds.1.1.2⟩ applies
  exact starves_of_swept freshSurvivors freshWinners early
    (early.trans (visit_swept genuine visiting)) applies

/-! ## Sums in range -/

structure InRange (pass : Pass) : Prop where
  scored : ∀ index site route, pass.tape.breakSites[index]? = some site →
    route.StartsBefore index → ∃ score, pass.scoreLine route site = .ok score
  extended : ∀ index site route score serial artificial,
    pass.tape.breakSites[index]? = some site → route.StartsBefore index →
    pass.scoreLine route site = .ok score →
    (artificial = true ∧ pass.endsAt site route = true ∨ score.badness ≤ pass.tolerance) →
    ∃ winner fill, pass.newCandidate serial index site route score artificial = .ok winner ∧
      pass.lastLineFit.adjustedFill winner = .ok fill

/-- A route that ends with the breakpoint, and could end the paragraph. -/
def Landed (pass : Pass) (index : Nat) (route : Candidate) : Prop :=
  route.breakSite = some index ∧ ∃ fill, pass.lastLineFit.adjustedFill route = .ok fill

section

variable (inRange : pass.InRange) (found : pass.tape.breakSites[index]? = some site)
include inRange found

theorem InRange.admit_ok
    {active : Candidate} (starts : active.StartsBefore index) {score : LineScore}
    (scoring : pass.scoreLine active site = .ok score) {artificial : Bool}
    (ends : artificial = true → pass.endsAt site active = true) (sweep : Sweep) :
    ∃ admitted, pass.admitCandidate index site active score artificial sweep = .ok admitted ∧
      ∀ winner ∈ admitted.winners, winner ∈ sweep.winners ∨ pass.Landed index winner := by
  unfold admitCandidate
  split
  · rename_i admissible
    simp only [Bool.and_eq_true, Bool.or_eq_true, decide_eq_true_eq] at admissible
    have allowed : artificial = true ∧ pass.endsAt site active = true ∨
        score.badness ≤ pass.tolerance :=
      admissible.2.imp_left fun chosen => ⟨chosen, ends chosen⟩
    obtain ⟨candidate, fill, making, filling⟩ :=
      inRange.extended index site active score sweep.nextSerial artificial found starts scoring
        allowed
    rw [making, ok_bind]
    refine ⟨_, rfl, fun winner held => ?_⟩
    rcases Champion.mem_record held with earlier | rfl
    · exact .inl earlier
    refine .inr ⟨?_, fill, filling⟩
    obtain ⟨_, _, _, _, rfl⟩ := newCandidate_eq_ok making
    rfl
  · exact ⟨sweep, rfl, fun winner held => .inl held⟩

theorem InRange.visit_ok
    {active : Candidate} (starts : active.StartsBefore index) (isLast : Bool) (sweep : Sweep) :
    ∃ result, pass.visit index site isLast active sweep = .ok result ∧
      (∀ route ∈ result.survivors, route ∈ sweep.survivors ∨ route = active) ∧
      ∀ winner ∈ result.winners, winner ∈ sweep.winners ∨ pass.Landed index winner := by
  rcases Nat.lt_or_ge active.position site.position with before | behind
  case inr =>
    refine ⟨_, visit_behind behind, fun route held => ?_, fun winner held => .inl held⟩
    exact (List.mem_append.mp held).imp id List.mem_singleton.mp
  obtain ⟨score, scoring⟩ := inRange.scored index site active found starts
  have ends : pass.artificial sweep isLast (decide (infBad < score.badness) || forced site) = true →
      pass.endsAt site active = true := by
    intro chosen
    rw [endsAt_of_score before scoring]
    simp only [artificial, Bool.and_eq_true] at chosen
    exact chosen.2
  obtain ⟨admitted, admitting, landed⟩ := inRange.admit_ok found starts scoring ends sweep
  refine ⟨settle active (decide (infBad < score.badness) || forced site) admitted, ?_, ?_, ?_⟩
  · unfold visit
    rw [if_neg (Nat.not_le.mpr before), scoring, ok_bind]
    dsimp only
    rw [admitting, ok_bind]
    rfl
  · intro route held
    rw [settle_survivors, admit_survivors admitting] at held
    refine (List.mem_append.mp held).imp id fun last => ?_
    exact List.mem_singleton.mp (List.mem_filter.mp last).1
  rw [settle_winners]
  exact landed

theorem InRange.visitAll_ok (starts : ∀ route ∈ active, route.StartsBefore index) (sweep : Sweep) :
    ∃ result, pass.visitAll index site sweep active = .ok result ∧
      (∀ route ∈ result.survivors, route ∈ sweep.survivors ∨ route ∈ active) ∧
      ∀ winner ∈ result.winners, winner ∈ sweep.winners ∨ pass.Landed index winner := by
  induction active generalizing sweep with
  | nil => exact ⟨sweep, rfl, fun _ held => .inl held, fun _ held => .inl held⟩
  | cons first rest ih => ?_
  obtain ⟨between, visiting, kept, won⟩ :=
    inRange.visit_ok found (starts first List.mem_cons_self) rest.isEmpty sweep
  obtain ⟨result, visited, later, landed⟩ :=
    ih (fun route member => starts route (List.mem_cons_of_mem _ member)) between
  refine ⟨result, ?_, fun route held => ?_, fun winner held => ?_⟩
  · unfold visitAll
    rw [visiting, ok_bind, visited]
  · rcases later route held with earlier | member
    · rcases kept route earlier with survivor | rfl
      · exact .inl survivor
      · exact .inr List.mem_cons_self
    · exact .inr (List.mem_cons_of_mem _ member)
  rcases landed winner held with earlier | new
  · exact won winner earlier
  · exact .inr new

/-- Every line within the tolerance makes a new route. -/
theorem InRange.reaches (starts : route.StartsBefore index) (fits : pass.fits site route = true)
    (open_ : site.penalty < infPenalty) : ∃ winner, pass.Reaches index site route winner := by
  unfold Pass.fits at fits
  simp only [Bool.and_eq_true, decide_eq_true_eq] at fits
  obtain ⟨before, within⟩ := fits
  obtain ⟨score, scoring⟩ := inRange.scored index site route found starts
  rw [scoring] at within
  obtain ⟨winner, _, making, _⟩ :=
    inRange.extended index site route score 0 false found starts scoring
      (.inr (of_decide_eq_true within))
  exact ⟨winner, before, score, 0, scoring, open_, of_decide_eq_true within, making⟩

end

/-- The check of the sums is enough for uniform lines. -/
theorem inRange_of_check (uniform : pass.Uniform) (checked : pass.rangeCheck = true) :
    pass.InRange := by
  have plain := lastLineFit_disabled uniform.plain
  constructor
  case scored =>
    intro index site route found starts
    obtain ⟨score, scoring, _⟩ := exists_of_toOption_any (lineInRange_of_check checked found starts)
    rw [uniform.score]
    exact ⟨score, scoring⟩
  case extended =>
    intro index site route score serial artificial found starts scoring _
    obtain ⟨probed, probing, sums⟩ :=
      exists_of_toOption_any (lineInRange_of_check checked found starts)
    rw [uniform.score] at scoring
    cases scoring.symm.trans probing
    simp only [Bool.and_eq_true] at sums
    obtain ⟨⟨demerits, shortfall⟩, glue⟩ := sums
    obtain ⟨lineShortfall, shortfallOk⟩ := exists_of_isOk shortfall
    obtain ⟨lineGlue, glueOk⟩ := exists_of_isOk glue
    obtain ⟨added, addedOk⟩ := exists_of_isOk (computeRouteDemerits_ok route demerits)
    obtain ⟨pathDemerits, pathOk⟩ : ∃ pathDemerits,
        pass.routeDemerits route score site artificial = .ok pathDemerits := by
      unfold routeDemerits
      split
      · exact ⟨_, rfl⟩
      unfold computeDemerits
      rw [addedOk, ok_bind]
      exact ⟨_, rfl⟩
    unfold newCandidate
    rw [pathOk, ok_bind, shortfallOk, ok_bind, glueOk, ok_bind]
    exact ⟨_, none, rfl, by simp [LastLineFit.adjustedFill, plain]⟩

/-! ## Whole passes -/

structure Ready (pass : Pass) (index : Nat) (search : SearchState) : Prop where
  starts : ∀ route ∈ search.active, route.StartsBefore index
  bounded : ∀ route ∈ search.active, route.pathDemerits < awfulBad
  filled : ∀ route ∈ search.active, ∃ fill, pass.lastLineFit.adjustedFill route = .ok fill

inductive Arrives (pass : Pass) : Nat → SearchState → Prop where
  | start : Arrives pass 0 .initial
  | step {index : Nat} {search next : SearchState} {site : Breakpoint}
      (arrived : Arrives pass index search) (found : pass.tape.breakSites[index]? = some site)
      (broken : pass.breakAt index site search = .ok next) : Arrives pass (index + 1) next

def NeverStarves (pass : Pass) : Prop :=
  ∀ index site search, pass.Arrives index search → pass.tape.breakSites[index]? = some site →
    ¬ pass.Starves index site search.active

variable {search next : SearchState}

theorem breakAt_eq_ok (broken : pass.breakAt index site search = .ok next) :
    ∃ sweep, pass.visitAll index site
        { survivors := [], winners := [], nextSerial := search.nextSerial, search := search.search }
        search.active = .ok sweep ∧
      next.active = mergeActiveCandidates pass.params pass.easyLine sweep.survivors
        (recordPassive pass.tape.nodes.length search.passive sweep.search
          (retainCompetitiveRoutes pass.params.adjDemerits pass.easyLine sweep.winners)).1 ∧
      next.passive = (recordPassive pass.tape.nodes.length search.passive sweep.search
        (retainCompetitiveRoutes pass.params.adjDemerits pass.easyLine sweep.winners)).2.1 := by
  obtain ⟨sweep, visited, broken⟩ := bind_eq_ok.mp broken
  cases pure_eq_ok.mp broken
  exact ⟨sweep, visited, rfl, rfl⟩

theorem InRange.breakAt_ok (inRange : pass.InRange)
    (found : pass.tape.breakSites[index]? = some site) (ready : pass.Ready index search) :
    ∃ next, pass.breakAt index site search = .ok next ∧ pass.Ready (index + 1) next := by
  obtain ⟨sweep, visited, kept, landed⟩ := inRange.visitAll_ok found ready.starts
    { survivors := [], winners := [], nextSerial := search.nextSerial, search := search.search }
  unfold breakAt
  rw [visited, ok_bind]
  refine ⟨_, rfl, ?_⟩
  have survivors : ∀ route ∈ sweep.survivors, route ∈ search.active := fun route held =>
    (kept route held).resolve_left nofun
  have split : ∀ route ∈ mergeActiveCandidates pass.params pass.easyLine sweep.survivors
      (recordPassive pass.tape.nodes.length search.passive sweep.search
        (retainCompetitiveRoutes pass.params.adjDemerits pass.easyLine sweep.winners)).1,
      route ∈ search.active ∨ pass.Landed index route ∧ route.pathDemerits < awfulBad := by
    intro route held
    rcases mem_mergeActiveCandidates.mp held with survivor | new
    · exact .inl (survivors route survivor)
    obtain ⟨winner, retained, id, rfl, _⟩ := mem_recordPassive new
    obtain ⟨won, within⟩ := mem_retainCompetitiveRoutes.mp retained
    have below := Champion.le_cap_of_withinMargin within
    rcases landed winner won with none_ | new
    · cases none_
    · exact .inr ⟨new, Int.lt_of_le_sub_one below⟩
  refine ⟨fun route held start same => ?_, fun route held => ?_, fun route held => ?_⟩
  · rcases split route held with earlier | ⟨landed, _⟩
    · exact Nat.lt_succ_of_lt (ready.starts route earlier start same)
    rw [landed.1] at same
    cases same
    exact Nat.lt_succ_self _
  · rcases split route held with earlier | ⟨_, below⟩
    · exact ready.bounded route earlier
    · exact below
  rcases split route held with earlier | ⟨landed, _⟩
  · exact ready.filled route earlier
  · exact landed.2

/-- A breakpoint leaves no active route just when it starves. -/
theorem InRange.breakAt_starves (inRange : pass.InRange)
    (found : pass.tape.breakSites[index]? = some site) (ready : pass.Ready index search)
    (some_ : search.active ≠ []) (broken : pass.breakAt index site search = .ok next) :
    next.active = [] ↔ pass.Starves index site search.active := by
  obtain ⟨sweep, visited, active, _⟩ := breakAt_eq_ok broken
  rw [active, mergeActiveCandidates_eq_nil, recordPassive_eq_nil, retainCompetitiveRoutes_eq_nil]
  exact visitAll_starves some_ rfl rfl ready.bounded
    (fun route member => inRange.reaches found (ready.starts route member)) visited

theorem breakAt_empty (empty : search.active = [])
    (broken : pass.breakAt index site search = .ok next) : next.active = [] := by
  obtain ⟨sweep, visited, active, _⟩ := breakAt_eq_ok broken
  rw [empty] at visited
  cases visited
  rw [active, mergeActiveCandidates_eq_nil, recordPassive_eq_nil, retainCompetitiveRoutes_eq_nil]
  exact ⟨rfl, nofun⟩

theorem ready_initial : pass.Ready 0 .initial := by
  refine ⟨fun route held => ?_, fun route held => ?_, fun route held => ?_⟩
  all_goals rw [List.mem_singleton.mp held]
  · exact nofun
  · decide
  · exact ⟨none, by simp [LastLineFit.adjustedFill, Candidate.initial]⟩

theorem InRange.ready (inRange : pass.InRange) (arrived : pass.Arrives index search) :
    pass.Ready index search := by
  induction arrived with
  | start => exact ready_initial
  | step _ found broken ih => ?_
  obtain ⟨next, breaking, ready⟩ := inRange.breakAt_ok found ih
  cases breaking.symm.trans broken
  exact ready

variable {sites : List Breakpoint}

/-- The rest of a pass from a state it arrives at. -/
theorem InRange.breakSites_ok (inRange : pass.InRange) (arrived : pass.Arrives index search)
    (rest : pass.tape.breakSites.drop index = sites) :
    ∃ last, pass.breakSites index search sites = .ok last ∧
      pass.Arrives (index + sites.length) last := by
  induction sites generalizing index search with
  | nil => exact ⟨search, rfl, arrived⟩
  | cons site sites ih => ?_
  have found : pass.tape.breakSites[index]? = some site := by
    rw [← List.head?_drop, rest]
    rfl
  obtain ⟨next, broken, _⟩ := inRange.breakAt_ok found (inRange.ready arrived)
  have behind : pass.tape.breakSites.drop (index + 1) = sites := by
    rw [← List.tail_drop, rest]
    rfl
  obtain ⟨last, finished, arrives⟩ := ih (.step arrived found broken) behind
  refine ⟨last, ?_, ?_⟩
  · unfold breakSites
    rw [broken, ok_bind, finished]
  rw [List.length_cons, Nat.add_comm sites.length, ← Nat.add_assoc]
  exact arrives

theorem breakSites_empty {last : SearchState} (empty : search.active = [])
    (finished : pass.breakSites index search sites = .ok last) : last.active = [] := by
  induction sites generalizing index search with
  | nil =>
    cases finished
    exact empty
  | cons site sites ih =>
    obtain ⟨next, broken, finished⟩ := bind_eq_ok.mp finished
    exact ih (breakAt_empty empty broken) finished

/-- Each state of a pass continues to the same end. -/
theorem Arrives.breakSites {last : SearchState} (arrived : pass.Arrives index search)
    (finished : pass.breakSites 0 .initial pass.tape.breakSites = .ok last) :
    pass.breakSites index search (pass.tape.breakSites.drop index) = .ok last := by
  induction arrived with
  | start => exact finished
  | step _ found broken ih => ?_
  have inside := (List.getElem?_eq_some_iff.mp found).1
  rw [List.drop_eq_getElem_cons inside, (List.getElem?_eq_some_iff.mp found).2] at ih
  obtain ⟨next, breaking, continued⟩ := bind_eq_ok.mp ih
  cases breaking.symm.trans broken
  exact continued

/-- A pass ends with an active route just when no breakpoint starves. -/
theorem InRange.neverStarves_iff (inRange : pass.InRange) {last : SearchState}
    (finished : pass.breakSites 0 .initial pass.tape.breakSites = .ok last)
    (ended : pass.Arrives pass.tape.breakSites.length last) :
    last.active ≠ [] ↔ pass.NeverStarves := by
  refine ⟨fun kept index site search arrived found starving => ?_, fun never => ?_⟩
  · obtain ⟨next, broken, _⟩ := inRange.breakAt_ok found (inRange.ready arrived)
    have lost : next.active = [] := by
      by_cases empty : search.active = []
      · exact breakAt_empty empty broken
      · exact (inRange.breakAt_starves found (inRange.ready arrived) empty broken).mpr starving
    exact kept (breakSites_empty lost ((arrived.step found broken).breakSites finished))
  have alive : ∀ index search, pass.Arrives index search → search.active ≠ [] := by
    intro index search arrived
    induction arrived with
    | start => exact nofun
    | step arrived found broken ih => ?_
    intro empty
    exact never _ _ _ arrived found
      ((inRange.breakAt_starves found (inRange.ready arrived) ih broken).mp empty)
  exact alive _ _ ended

/-! ## Plans -/

def Loosened (pass : Pass) (search : SearchState) : Prop :=
  ∀ chosen best, chooseFinal search.active pass.params.looseness = some chosen →
    bestCandidate search.active = some best →
      (chosen.line : Int) - best.line = pass.params.looseness

theorem chooseFinal_isSome {finals : List Candidate} (some_ : finals ≠ []) (looseness : Int) :
    ∃ chosen best, chooseFinal finals looseness = some chosen ∧
      bestCandidate finals = some best ∧ chosen ∈ finals := by
  unfold chooseFinal
  cases found : bestCandidate finals with
  | none => exact absurd (Champion.leastBy_eq_none.mp found) some_
  | some best => ?_
  obtain ⟨chosen, choosing, member⟩ := Champion.exists_leastBy
    (fun candidate : Candidate =>
      (((candidate.line : Int) - (best.line + looseness)).natAbs, candidate.pathDemerits)) some_
  exact ⟨chosen, best, choosing, rfl, member⟩

/-- The pass returns, with a plan just when it kept a route, and outside the
final pass when that route has the looseness asked for. -/
theorem Ready.choose_ok (ready : pass.Ready index search) :
    ∃ result, pass.choose search = .ok result ∧ (result.isSome = true ↔
        search.active ≠ [] ∧ (pass.finalPass = true ∨ pass.Loosened search)) := by
  by_cases some_ : search.active = []
  · have none_ : chooseFinal search.active pass.params.looseness = none := by
      rw [some_]
      rfl
    refine ⟨none, ?_, fun isSome => (nomatch isSome), fun kept => absurd some_ kept.1⟩
    unfold choose
    rw [none_]
  obtain ⟨chosen, best, choosing, finding, member⟩ :=
    chooseFinal_isSome some_ pass.params.looseness
  have loosened : pass.Loosened search ↔
      (chosen.line : Int) - best.line = pass.params.looseness := by
    refine ⟨fun all => all chosen best choosing finding, fun holds other least found leastFound => ?_⟩
    cases choosing.symm.trans found
    cases finding.symm.trans leastFound
    exact holds
  obtain ⟨fill, filling⟩ := ready.filled chosen member
  unfold choose
  rw [choosing, finding]
  dsimp only
  by_cases wrong : (!pass.finalPass && decide
      ((chosen.line : Int) - best.line ≠ pass.params.looseness)) = true
  · rw [if_pos wrong]
    simp only [Bool.and_eq_true, Bool.not_eq_true', decide_eq_true_eq] at wrong
    refine ⟨none, rfl, fun isSome => (nomatch isSome), fun kept => ?_⟩
    rcases kept.2 with final | met
    · rw [wrong.1] at final
      cases final
    · exact absurd (loosened.mp met) wrong.2
  rw [if_neg wrong]
  unfold reconstruct
  rw [filling, ok_bind]
  refine ⟨_, rfl, fun _ => ⟨some_, ?_⟩, fun _ => rfl⟩
  simp only [Bool.and_eq_true, Bool.not_eq_true', decide_eq_true_eq, not_and,
    Decidable.not_not] at wrong
  cases final : pass.finalPass with
  | true => exact .inl rfl
  | false => exact .inr (loosened.mpr (wrong final))

def MeetsLooseness (pass : Pass) : Prop :=
  ∀ search, pass.Arrives pass.tape.breakSites.length search → pass.Loosened search

theorem Arrives.unique {first second : SearchState} (left : pass.Arrives index first)
    (right : pass.Arrives index second) : first = second := by
  induction left generalizing second with
  | start =>
    cases right
    rfl
  | step _ found broken ih => ?_
  cases right with
  | step arrived otherFound otherBroken => ?_
  cases found.symm.trans otherFound
  cases ih arrived
  exact Except.ok.inj (broken.symm.trans otherBroken)

/-- A pass in range returns; it finds a plan just when no breakpoint starves and
its looseness is met or does not matter. -/
theorem InRange.run_ok (inRange : pass.InRange) : ∃ result, pass.run = .ok result ∧
      (result.isSome = true ↔
        pass.NeverStarves ∧ (pass.finalPass = true ∨ pass.MeetsLooseness)) := by
  obtain ⟨last, finished, ended⟩ := inRange.breakSites_ok .start
    (show pass.tape.breakSites.drop 0 = pass.tape.breakSites from rfl)
  rw [Nat.zero_add] at ended
  obtain ⟨result, choosing, found⟩ := (inRange.ready ended).choose_ok
  refine ⟨result, ?_, ?_⟩
  · unfold run
    rw [finished, ok_bind, choosing]
  rw [found, inRange.neverStarves_iff finished ended]
  have met : pass.MeetsLooseness ↔ pass.Loosened last :=
    ⟨fun all => all last ended, fun holds search arrived => ended.unique arrived ▸ holds⟩
  rw [met]

end Pass

/-! ## The hyphenated paragraph -/

section Hyphenated

variable (state : TypesetState) (tape : ParagraphTape) (params : LineBreakParams)
  (background : Widths)

/-- The pass with the tolerance of the paragraph, the final one unless there is
emergency stretch. -/
def secondPass : Pass :=
  { state
    tape
    params
    tolerance := params.tolerance
    emergency := false
    finalPass := decide (params.emergencyStretch ≤ 0)
    background }

def emergencyPass : Pass :=
  { state, tape, params, tolerance := params.tolerance, emergency := true, finalPass := true,
    background }

/-- A paragraph whose sums stay in range is broken into lines just when one of its
two passes is not starved. -/
theorem breakHyphenatedTape_returns (added : lineBackground params = .ok background)
    (second : (secondPass state tape params background).InRange)
    (emergency : (emergencyPass state tape params background).InRange) :
    (∃ plan, breakHyphenatedTape state tape params = .ok plan) ↔
      (secondPass state tape params background).NeverStarves ∧ (params.emergencyStretch ≤ 0 ∨
            (secondPass state tape params background).MeetsLooseness) ∨
        (emergencyPass state tape params background).NeverStarves := by
  obtain ⟨first, firstRun, firstFound⟩ := second.run_ok
  obtain ⟨last, lastRun, lastFound⟩ := emergency.run_ok
  have secondRun : runPass state tape params params.tolerance false
      (decide (params.emergencyStretch ≤ 0)) = .ok first := by
    unfold runPass
    rw [added, ok_bind]
    exact firstRun
  have emergencyRun : runPass state tape params params.tolerance true true = .ok last := by
    unfold runPass
    rw [added, ok_bind]
    exact lastRun
  have final : (secondPass state tape params background).finalPass = true ↔
      params.emergencyStretch ≤ 0 := decide_eq_true_iff
  have always : (emergencyPass state tape params background).finalPass = true := rfl
  rw [← final, ← firstFound]
  simp only [always, true_or, and_true] at lastFound
  rw [← lastFound]
  unfold breakHyphenatedTape
  rw [secondRun, ok_bind]
  cases first with
  | some plan => exact ⟨fun _ => .inl rfl, fun _ => ⟨plan, rfl⟩⟩
  | none => ?_
  rw [emergencyRun]
  cases last with
  | some plan => exact ⟨fun _ => .inr rfl, fun _ => ⟨plan, rfl⟩⟩
  | none => exact ⟨fun ⟨_, found⟩ => (nomatch found), fun found => by simp at found⟩

end Hyphenated

def noFonts : TypesetState :=
  { fontUsesTfmMetrics := fun _ => true
    fontWidths := fun _ _ => 0
    fontCharacterWidth := fun _ _ => none
    fontExpansionSpec := fun _ => none
    efcode := fun _ _ => 1000
    fontKern := fun _ _ _ => none
    lineProtrusion := fun _ _ _ => .ok ⟨0, 0, 0⟩ }

def narrowParams (hyphenPenalty : Int) : LineBreakParams :=
  { pretolerance := 100
    tolerance := 200
    linePenalty := 10
    hyphenPenalty
    exHyphenPenalty := 50
    adjDemerits := 10000
    doubleHyphenDemerits := 10000
    finalHyphenDemerits := 5000
    emergencyStretch := 0
    looseness := 0
    lastLineFit := 0
    pdfAdjustSpacing := 0
    expansionSteps := none
    pdfProtrudeChars := 0
    leftSkip := .zero
    rightSkip := .zero
    parFillSkip := ⟨0, 65536, .fil, 0, .normal⟩
    shape := { hsize := 100, parshape := none, hangIndent := 0, hangAfter := 1, lineOffset := 0 } }

def wideWord (hyphenPenalty : Int) : List Node :=
  [.box 1000, .disc [.box 10] [] [], .box 10] ++
    [.penalty 10000, .glue (narrowParams hyphenPenalty).parFillSkip]

/-- Each of the two passes over a tape of the narrow paragraph is in range. -/
def narrowCheck (tape : ParagraphTape) (hyphenPenalty : Int) : Bool :=
  (secondPass noFonts tape (narrowParams hyphenPenalty) .zero).rangeCheck &&
    (emergencyPass noFonts tape (narrowParams hyphenPenalty) .zero).rangeCheck

theorem inRange_of_narrowCheck {tape : ParagraphTape} {hyphenPenalty : Int}
    (checked : narrowCheck tape hyphenPenalty = true) :
    (secondPass noFonts tape (narrowParams hyphenPenalty) .zero).InRange ∧
      (emergencyPass noFonts tape (narrowParams hyphenPenalty) .zero).InRange := by
  obtain ⟨second, emergency⟩ := (Bool.and_eq_true ..).mp checked
  exact ⟨Pass.inRange_of_check ⟨Int.le_refl _, fun _ => rfl⟩ second,
    Pass.inRange_of_check ⟨Int.le_refl _, fun _ => rfl⟩ emergency⟩

theorem breakHyphenatedTape_returns_hyphenated :
    ∃ tape, ParagraphTape.analyze noFonts (wideWord 50) (narrowParams 50) = .ok tape ∧
      ((secondPass noFonts tape (narrowParams 50) .zero).NeverStarves ∧
          ((narrowParams 50).emergencyStretch ≤ 0 ∨
            (secondPass noFonts tape (narrowParams 50) .zero).MeetsLooseness) ∨
        (emergencyPass noFonts tape (narrowParams 50) .zero).NeverStarves) := by
  have evaluated : ((ParagraphTape.analyze noFonts (wideWord 50) (narrowParams 50)).toOption.any
      fun tape => narrowCheck tape 50 &&
        (breakHyphenatedTape noFonts tape (narrowParams 50)).isOk) = true := by
    decide +kernel
  obtain ⟨tape, analyzed, checked⟩ := exists_of_toOption_any evaluated
  obtain ⟨range, broken⟩ := (Bool.and_eq_true ..).mp checked
  obtain ⟨second, emergency⟩ := inRange_of_narrowCheck range
  exact ⟨tape, analyzed,
    (breakHyphenatedTape_returns noFonts tape (narrowParams 50) .zero rfl second emergency).mp
      (exists_of_isOk broken)⟩

/-- An overfull line is given up at a discretionary of infinite penalty, where no
route can take its place. -/
theorem inhibited_discretionary_starves :
    ∃ tape, ParagraphTape.analyze noFonts (wideWord 10000) (narrowParams 10000) = .ok tape ∧
      lineBackground (narrowParams 10000) = .ok .zero ∧
      (secondPass noFonts tape (narrowParams 10000) .zero).InRange ∧
      (emergencyPass noFonts tape (narrowParams 10000) .zero).InRange ∧
      ¬ ∃ plan, breakHyphenatedTape noFonts tape (narrowParams 10000) = .ok plan := by
  have evaluated : ((ParagraphTape.analyze noFonts (wideWord 10000)
      (narrowParams 10000)).toOption.any fun tape => narrowCheck tape 10000 &&
        !(breakHyphenatedTape noFonts tape (narrowParams 10000)).isOk) = true := by
    decide +kernel
  obtain ⟨tape, analyzed, checked⟩ := exists_of_toOption_any evaluated
  obtain ⟨range, failed⟩ := (Bool.and_eq_true ..).mp checked
  obtain ⟨second, emergency⟩ := inRange_of_narrowCheck range
  refine ⟨tape, analyzed, rfl, second, emergency, fun broken => ?_⟩
  obtain ⟨plan, broken⟩ := broken
  rw [broken] at failed
  cases failed

end Umber.Typeset
