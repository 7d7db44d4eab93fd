import Mathlib.Data.List.Perm.Subperm
import Umber.Lib.ChampionKeys
import Umber.Typeset.FinalPassProperties

/-! One champion for each line class and fitness: when the new routes of a breakpoint keep it. -/

set_option autoImplicit false

namespace Umber.Typeset

open ExceptLib

def routeKey (easyLine : Nat) (candidate : Candidate) : Nat × Fitness :=
  (lineNumberClass candidate.line easyLine, candidate.fitness)

namespace Pass

variable {pass : Pass} {index : Nat} {site : Breakpoint} {search next : SearchState}

/-- The class and the fitness of the line from a route to a breakpoint, when it is within the
tolerance and a break is allowed there. -/
def arrival (pass : Pass) (site : Breakpoint) (active : Candidate) : Option (Nat × Fitness) :=
  if active.position < site.position ∧ site.penalty < infPenalty then
    match pass.scoreLine active site with
    | .ok score =>
      if score.badness ≤ pass.tolerance then
        some (lineNumberClass (active.line + 1) pass.easyLine, score.fitness)
      else none
    | .error _ => none
  else none

/-- The classes and fitnesses in which routes arrive at a breakpoint, in visit order. -/
def arrivals (pass : Pass) (site : Breakpoint) (active : List Candidate) : List (Nat × Fitness) :=
  active.filterMap (pass.arrival site)

def newRoutes (index : Nat) (search : SearchState) : List Candidate :=
  search.active.filter fun candidate => candidate.breakSite = some index

/-! ## Arrivals -/

variable {active : Candidate}

theorem arrival_of_score {score : LineScore} (before : active.position < site.position)
    (scoring : pass.scoreLine active site = .ok score) : pass.arrival site active =
      if site.penalty < infPenalty ∧ score.badness ≤ pass.tolerance then
        some (lineNumberClass (active.line + 1) pass.easyLine, score.fitness) else none := by
  unfold arrival
  rw [scoring]
  by_cases allowed : site.penalty < infPenalty
  · rw [if_pos ⟨before, allowed⟩]
    simp [allowed]
  · rw [if_neg fun both => allowed both.2, if_neg fun both => allowed both.1]

variable {isLast : Bool} {sweep result : Sweep}

/-- A visit enters what arrives, or the last route for want of another one. -/
theorem visit_arrived (visited : pass.visit index site isLast active sweep = .ok result) :
    ∃ arrived : List Candidate,
      result.winners = arrived.foldl (recordBestRoute pass.easyLine) sweep.winners ∧
        (arrived.map (routeKey pass.easyLine) = (pass.arrival site active).toList ∨
          isLast = true ∧ sweep.winners = [] ∧ pass.arrival site active = none ∧
            ∃ only, arrived = [only]) := by
  rcases Nat.lt_or_ge active.position site.position with before | behind
  case inr =>
    rw [visit_behind behind] at visited
    cases visited
    refine ⟨[], rfl, .inl ?_⟩
    unfold arrival
    rw [if_neg fun both => absurd both.1 (Nat.not_lt.mpr behind)]
    rfl
  obtain ⟨score, admitted, scoring, admitting, rfl⟩ := visit_eq_ok before visited
  rw [settle_winners, arrival_of_score before scoring]
  unfold admitCandidate at admitting
  split at admitting
  case isTrue admissible =>
    obtain ⟨allowed, within⟩ := (Bool.and_eq_true ..).mp admissible
    obtain ⟨candidate, making, admitting⟩ := bind_eq_ok.mp admitting
    cases pure_eq_ok.mp admitting
    obtain ⟨_, _, _, _, shape⟩ := newCandidate_eq_ok making
    refine ⟨[candidate], rfl, ?_⟩
    by_cases genuine : score.badness ≤ pass.tolerance
    · rw [if_pos ⟨of_decide_eq_true allowed, genuine⟩, shape]
      exact .inl rfl
    rw [if_neg fun both => genuine both.2]
    refine .inr ?_
    rw [decide_eq_false genuine, Bool.or_false] at within
    unfold artificial at within
    simp only [Bool.and_eq_true, List.isEmpty_iff] at within
    exact ⟨within.1.2, within.1.1.2, rfl, candidate, rfl⟩
  case isFalse inadmissible =>
    cases admitting
    refine ⟨[], rfl, .inl ?_⟩
    rw [if_neg]
    · rfl
    rintro ⟨allowed, within⟩
    refine inadmissible ?_
    rw [decide_eq_true allowed, decide_eq_true within, Bool.or_true]
    rfl

variable {easyLine : Nat} {winners : List Candidate}

theorem foldl_recordBestRoute_eq_nil {arrived : List Candidate}
    (empty : arrived.foldl (recordBestRoute easyLine) winners = []) :
    arrived = [] ∧ winners = [] := by
  induction arrived generalizing winners with
  | nil => exact ⟨rfl, empty⟩
  | cons first rest ih => exact absurd (ih empty).2 Champion.record_ne_nil

/-- A sweep enters what arrives, or the last route when nothing does. -/
theorem visitAll_arrived {active : List Candidate}
    (visited : pass.visitAll index site sweep active = .ok result) : ∃ arrived : List Candidate,
      result.winners = arrived.foldl (recordBestRoute pass.easyLine) sweep.winners ∧
        (arrived.map (routeKey pass.easyLine) = pass.arrivals site active ∨
          sweep.winners = [] ∧ pass.arrivals site active = [] ∧ ∃ only, arrived = [only]) := by
  induction active generalizing sweep with
  | nil =>
    cases visited
    exact ⟨[], rfl, .inl rfl⟩
  | cons route rest ih => ?_
  obtain ⟨between, visiting, visited⟩ := bind_eq_ok.mp visited
  obtain ⟨first, firstWinners, firstArrived⟩ := visit_arrived visiting
  obtain ⟨later, winners, arrived⟩ := ih visited
  have split_ : pass.arrivals site (route :: rest) =
      (pass.arrival site route).toList ++ pass.arrivals site rest := by
    cases arriving : pass.arrival site route with
    | none => exact List.filterMap_cons_none arriving
    | some key => exact List.filterMap_cons_some arriving
  refine ⟨first ++ later, by rw [List.foldl_append, ← firstWinners, winners], ?_⟩
  rw [split_, List.map_append]
  rcases firstArrived with firstKeys | ⟨isLast, empty, absent, only, rfl⟩
  · rw [firstKeys]
    rcases arrived with laterKeys | ⟨empty, none_, only, rfl⟩
    · exact .inl (by rw [laterKeys])
    rw [firstWinners] at empty
    obtain ⟨rfl, none_earlier⟩ := foldl_recordBestRoute_eq_nil empty
    have absent : (pass.arrival site route).toList = [] := firstKeys.symm
    exact .inr ⟨none_earlier, by rw [absent, none_]; rfl, only, rfl⟩
  cases List.isEmpty_iff.mp isLast
  cases visited
  have none_later : later = [] := by
    rcases arrived with laterKeys | ⟨none_, _⟩
    · exact List.map_eq_nil_iff.mp laterKeys
    rw [firstWinners] at none_
    exact absurd none_ Champion.record_ne_nil
  rw [none_later, absent]
  exact .inr ⟨empty, rfl, only, rfl⟩

/-- The winners of a sweep hold each class and fitness once just when no line class comes back
with the same fitness behind another one. -/
theorem visitAll_nodup {active : List Candidate} (empty : sweep.winners = [])
    (visited : pass.visitAll index site sweep active = .ok result) :
    (result.winners.map (routeKey pass.easyLine)).Nodup ↔
      ¬ Champion.Separated (pass.arrivals site active) := by
  obtain ⟨arrived, winners, keys⟩ := visitAll_arrived visited
  rw [empty] at winners
  have entered : result.winners.map (routeKey pass.easyLine) =
      (arrived.map (routeKey pass.easyLine)).foldl Champion.recordKey [] := by
    rw [winners]
    exact Champion.foldl_record_keys arrived []
  rw [entered, Champion.foldl_recordKey_nodup]
  rcases keys with same | ⟨_, none_, only, rfl⟩
  · rw [same]
  rw [none_]
  refine not_congr ⟨fun separated => ?_, fun separated => ?_⟩
  · obtain ⟨before, key, between, after, shape, _⟩ := separated
    have lengths := congrArg List.length shape
    simp at lengths
    omega
  obtain ⟨before, key, between, after, shape, _⟩ := separated
  simp at shape

/-! ## What a sweep leaves -/

/-- A new route of the breakpoint, kept for want of another one or not. -/
def Makes (pass : Pass) (index : Nat) (site : Breakpoint) (active winner : Candidate) : Prop :=
  active.position < site.position ∧ ∃ score serial artificial,
    pass.newCandidate serial index site active score artificial = .ok winner

theorem Makes.landed {winner : Candidate} (makes : pass.Makes index site active winner) :
    winner.breakSite = some index ∧ winner.line = active.line + 1 := by
  obtain ⟨_, _, _, _, making⟩ := makes
  obtain ⟨_, _, _, _, rfl⟩ := newCandidate_eq_ok making
  exact ⟨rfl, rfl⟩

theorem visit_left (visited : pass.visit index site isLast active sweep = .ok result) :
    result.survivors = sweep.survivors ++ [active].filter (fun route => !pass.endsAt site route) ∧
      ∀ winner ∈ result.winners, winner ∈ sweep.winners ∨ pass.Makes index site active winner := by
  rcases Nat.lt_or_ge active.position site.position with before | behind
  case inr =>
    rw [visit_behind behind] at visited
    cases visited
    refine ⟨?_, fun winner held => .inl held⟩
    simp only [List.filter_cons, List.filter_nil, endsAt_behind behind, Bool.not_false, if_true]
  obtain ⟨score, admitted, scoring, admitting, rfl⟩ := visit_eq_ok before visited
  rw [settle_survivors, settle_winners, admit_survivors admitting]
  constructor
  · simp only [List.filter_cons, List.filter_nil, endsAt_of_score before scoring]
  intro winner held
  unfold admitCandidate at admitting
  split at admitting
  · obtain ⟨candidate, making, admitting⟩ := bind_eq_ok.mp admitting
    cases pure_eq_ok.mp admitting
    rcases Champion.mem_record held with earlier | rfl
    · exact .inl earlier
    · exact .inr ⟨before, score, _, _, making⟩
  cases admitting
  exact .inl held

theorem visitAll_left {active : List Candidate}
    (visited : pass.visitAll index site sweep active = .ok result) :
    result.survivors = sweep.survivors ++ active.filter (fun route => !pass.endsAt site route) ∧
      ∀ winner ∈ result.winners,
        winner ∈ sweep.winners ∨ ∃ route ∈ active, pass.Makes index site route winner := by
  induction active generalizing sweep with
  | nil =>
    cases visited
    exact ⟨(List.append_nil _).symm, fun winner held => .inl held⟩
  | cons route rest ih => ?_
  obtain ⟨between, visiting, visited⟩ := bind_eq_ok.mp visited
  obtain ⟨firstSurvivors, firstWinners⟩ := visit_left visiting
  obtain ⟨survivors, winners⟩ := ih visited
  constructor
  · rw [survivors, firstSurvivors, List.append_assoc, ← List.filter_append]
    rfl
  intro winner held
  rcases winners winner held with earlier | ⟨other, member, makes⟩
  · rcases firstWinners winner earlier with initial | makes
    · exact .inl initial
    · exact .inr ⟨route, List.mem_cons_self, makes⟩
  · exact .inr ⟨other, List.mem_cons_of_mem _ member, makes⟩

theorem mergeActiveCandidates_perm (params : LineBreakParams) (easyLine : Nat)
    (survivors winners : List Candidate) :
    (mergeActiveCandidates params easyLine survivors winners).Perm (survivors ++ winners) := by
  unfold mergeActiveCandidates
  refine (List.reverse_perm _).trans ((Merge.merge_perm _ _).trans ?_)
  exact (List.reverse_perm _).append ((List.reverse_perm _).trans (Merge.sort_perm _))

theorem recordPassive_keys (easyLine nodeCount : Nat) (passive : List PassiveRoute)
    (search : List BreakMemoryEvent) (winners : List Candidate) :
    (recordPassive nodeCount passive search winners).1.map (routeKey easyLine) =
      winners.map (routeKey easyLine) := by
  induction winners generalizing passive search with
  | nil => rfl
  | cons winner rest ih => ?_
  unfold recordPassive
  dsimp only
  rw [List.map_cons, ih, List.map_cons]
  rfl

/-- The new routes of a breakpoint are competitive champions, each of them once. -/
theorem newRoutes_keys (starts : ∀ route ∈ search.active, route.StartsBefore index)
    (visited : pass.visitAll index site
      { survivors := [], winners := [], nextSerial := search.nextSerial, search := search.search }
      search.active = .ok sweep)
    (active : next.active = mergeActiveCandidates pass.params pass.easyLine sweep.survivors
      (recordPassive pass.tape.nodes.length search.passive sweep.search
        (retainCompetitiveRoutes pass.params.adjDemerits pass.easyLine sweep.winners)).1) :
    ((newRoutes index next).map (routeKey pass.easyLine)).Perm
      ((sweep.winners.filter (isCompetitive pass.params.adjDemerits pass.easyLine
        sweep.winners)).map (routeKey pass.easyLine)) := by
  obtain ⟨survivors, landed⟩ := visitAll_left visited
  have older : sweep.survivors.filter (fun route => route.breakSite = some index) = [] := by
    rw [survivors, List.nil_append]
    refine List.filter_eq_nil_iff.mpr fun route member same => ?_
    have earlier := starts route (List.mem_filter.mp member).1 index (of_decide_eq_true same)
    exact absurd earlier (Nat.lt_irrefl _)
  have keys := recordPassive_keys pass.easyLine pass.tape.nodes.length search.passive sweep.search
    (retainCompetitiveRoutes pass.params.adjDemerits pass.easyLine sweep.winners)
  have newer : ∀ route ∈ (recordPassive pass.tape.nodes.length search.passive sweep.search
      (retainCompetitiveRoutes pass.params.adjDemerits pass.easyLine sweep.winners)).1,
      decide (route.breakSite = some index) = true := by
    intro route member
    obtain ⟨winner, retained, _, rfl, _⟩ := mem_recordPassive member
    have won := (mem_retainCompetitiveRoutes.mp retained).1
    rcases landed winner won with none_ | ⟨_, _, makes⟩
    · cases none_
    · exact decide_eq_true makes.landed.1
  generalize (recordPassive pass.tape.nodes.length search.passive sweep.search
    (retainCompetitiveRoutes pass.params.adjDemerits pass.easyLine sweep.winners)).1 = recorded at *
  have routes : (newRoutes index next).Perm recorded := by
    unfold newRoutes
    rw [active]
    refine ((mergeActiveCandidates_perm ..).filter _).trans ?_
    rw [List.filter_append, older, List.filter_eq_self.mpr newer]
    exact .refl _
  refine (routes.map _).trans ?_
  rw [keys]
  exact (Merge.sort_perm _).map _

/-! ## The order of the active routes -/

def orderClass (pass : Pass) (candidate : Candidate) : Nat :=
  lineNumberClass (effectiveLine pass.params candidate) pass.easyLine

variable {left right : Candidate}

theorem activeCandidateOrder_class :
    ((activeCandidateOrder pass.params pass.easyLine left right).isLE = true →
      pass.orderClass left ≤ pass.orderClass right) ∧
    ((activeCandidateOrder pass.params pass.easyLine left right).isGE = true →
      pass.orderClass right ≤ pass.orderClass left) := by
  unfold activeCandidateOrder orderClass
  dsimp only
  cases compared : compare (lineNumberClass (effectiveLine pass.params left) pass.easyLine)
      (lineNumberClass (effectiveLine pass.params right) pass.easyLine) with
  | lt =>
    have less := Nat.compare_eq_lt.mp compared
    refine ⟨fun _ => Nat.le_of_lt less, fun above => ?_⟩
    cases above
  | eq =>
    have same := Nat.compare_eq_eq.mp compared
    exact ⟨fun _ => Nat.le_of_eq same, fun _ => Nat.le_of_eq same.symm⟩
  | gt => ?_
  have more := Nat.compare_eq_gt.mp compared
  refine ⟨fun below => ?_, fun _ => Nat.le_of_lt more⟩
  cases below

/-- Merging winners keeps the active routes in the order of their classes. -/
theorem mergeActiveCandidates_pairwise {survivors : List Candidate}
    (ordered : survivors.Pairwise fun left right => pass.orderClass left ≤ pass.orderClass right) :
    (mergeActiveCandidates pass.params pass.easyLine survivors winners).Pairwise
      fun left right => pass.orderClass left ≤ pass.orderClass right := by
  unfold mergeActiveCandidates
  refine List.pairwise_reverse.mpr (Merge.pairwise_merge ?_ ?_ ?_
    (List.pairwise_reverse.mpr ordered)
    (List.pairwise_reverse.mpr (Merge.pairwise_sort ?_ ?_ ?_ _)))
  · exact fun _ _ _ first second => Nat.le_trans second first
  · intro survivor winner greater
    exact activeCandidateOrder_class.2 (by
      cases order : activeCandidateOrder pass.params pass.easyLine survivor winner with
      | gt => rfl
      | eq => rfl
      | lt =>
        rw [order] at greater
        cases greater)
  · intro survivor winner notGreater
    exact activeCandidateOrder_class.1 (by
      cases order : activeCandidateOrder pass.params pass.easyLine survivor winner with
      | lt => rfl
      | eq => rfl
      | gt =>
        rw [order] at notGreater
        cases notGreater)
  · exact fun _ _ _ first second => Nat.le_trans first second
  · exact fun left right below => activeCandidateOrder_class.1 below
  intro left right notBelow
  exact activeCandidateOrder_class.2 (by
    cases order : activeCandidateOrder pass.params pass.easyLine left right with
    | gt => rfl
    | eq =>
      rw [order] at notBelow
      cases notBelow
    | lt =>
      rw [order] at notBelow
      cases notBelow)

structure Ordered (pass : Pass) (index : Nat) (search : SearchState) : Prop where
  starts : ∀ route ∈ search.active, route.StartsBefore index
  lines : ∀ route ∈ search.active, route.line ≤ index
  sorted : search.active.Pairwise fun left right => pass.orderClass left ≤ pass.orderClass right

theorem Ordered.breakAt (ordered : pass.Ordered index search)
    (broken : pass.breakAt index site search = .ok next) : pass.Ordered (index + 1) next := by
  obtain ⟨sweep, visited, active, _⟩ := breakAt_eq_ok broken
  obtain ⟨survivors, landed⟩ := visitAll_left visited
  rw [List.nil_append] at survivors
  have split : ∀ route ∈ next.active, route ∈ search.active ∨
      ∃ earlier ∈ search.active, route.breakSite = some index ∧ route.line = earlier.line + 1 := by
    intro route member
    rw [active] at member
    rcases mem_mergeActiveCandidates.mp member with survivor | new
    · rw [survivors] at survivor
      exact .inl (List.mem_filter.mp survivor).1
    obtain ⟨winner, retained, _, rfl, _⟩ := mem_recordPassive new
    rcases landed winner (mem_retainCompetitiveRoutes.mp retained).1 with
      none_ | ⟨earlier, held, makes⟩
    · cases none_
    · exact .inr ⟨earlier, held, makes.landed⟩
  constructor
  case starts =>
    intro route member start same
    rcases split route member with earlier | ⟨_, _, landed, _⟩
    · exact Nat.lt_succ_of_lt (ordered.starts route earlier start same)
    rw [landed] at same
    cases same
    exact Nat.lt_succ_self _
  case lines =>
    intro route member
    rcases split route member with earlier | ⟨earlier, held, _, line⟩
    · exact Nat.le_succ_of_le (ordered.lines route earlier)
    rw [line]
    exact Nat.succ_le_succ (ordered.lines earlier held)
  case sorted =>
    rw [active, survivors]
    exact mergeActiveCandidates_pairwise (ordered.sorted.sublist List.filter_sublist)

theorem Arrives.ordered (arrived : pass.Arrives index search) : pass.Ordered index search := by
  induction arrived with
  | start =>
    refine ⟨fun route member => ?_, fun route member => ?_, List.pairwise_singleton _ _⟩
    · rw [List.mem_singleton.mp member]
      exact nofun
    rw [List.mem_singleton.mp member]
    exact Nat.zero_le _
  | step _ _ broken ih => exact ih.breakAt broken

/-! ## Aligned classes -/

/-- The classes of the routes that arrive follow those that order the routes: the paragraph starts
on its first line, its lines share one class, or each of them has its own. -/
def Aligned (pass : Pass) : Prop :=
  pass.params.shape.lineOffset = 0 ∨ pass.easyLine = 0 ∨
    pass.tape.breakSites.length + pass.params.shape.lineOffset ≤ pass.easyLine

theorem Aligned.class_le (aligned : pass.Aligned) (inside : index < pass.tape.breakSites.length)
    (leftLine : left.line ≤ index) (rightLine : right.line ≤ index)
    (sorted : pass.orderClass left ≤ pass.orderClass right) :
    lineNumberClass (left.line + 1) pass.easyLine ≤
      lineNumberClass (right.line + 1) pass.easyLine := by
  unfold orderClass lineNumberClass effectiveLine at *
  rcases aligned with offset | easy | apart
  all_goals omega

theorem arrival_eq_some {key : Nat × Fitness} (arriving : pass.arrival site active = some key) :
    key.1 = lineNumberClass (active.line + 1) pass.easyLine := by
  unfold arrival at arriving
  split at arriving
  case isFalse => cases arriving
  split at arriving
  · split at arriving
    · cases arriving
      rfl
    · cases arriving
  · cases arriving

theorem Aligned.arrivals_sorted (aligned : pass.Aligned) (ordered : pass.Ordered index search)
    (inside : index < pass.tape.breakSites.length) (site : Breakpoint) :
    (pass.arrivals site search.active).Pairwise fun left right => left.1 ≤ right.1 := by
  refine List.pairwise_filterMap.mpr (ordered.sorted.imp_of_mem ?_)
  intro left right leftHeld rightHeld classes leftKey leftArrives rightKey rightArrives
  have order := aligned.class_le inside (ordered.lines left leftHeld)
    (ordered.lines right rightHeld) classes
  rw [arrival_eq_some leftArrives, arrival_eq_some rightArrives]
  exact order

/-- A class that holds each fitness once has at most four routes. -/
theorem class_length_le {routes : List Candidate} (nodup : (routes.map (routeKey easyLine)).Nodup)
    (class_ : Nat) :
    (routes.filter fun route => routeClass easyLine route = class_).length ≤ 4 := by
  have apart := (List.pairwise_map.mp nodup).sublist
    (List.filter_sublist (p := fun route => routeClass easyLine route = class_))
  have fitnesses : ((routes.filter fun route => routeClass easyLine route = class_).map
      Candidate.fitness).Nodup := by
    refine List.pairwise_map.mpr (apart.imp_of_mem ?_)
    intro left right leftHeld rightHeld differ same
    have leftClass := of_decide_eq_true (List.mem_filter.mp leftHeld).2
    have rightClass := of_decide_eq_true (List.mem_filter.mp rightHeld).2
    exact differ (Prod.ext (leftClass.trans rightClass.symm) same)
  have among : (routes.filter fun route => routeClass easyLine route = class_).map
      Candidate.fitness ⊆ [.tight, .decent, .loose, .veryLoose] := by
    intro fitness _
    cases fitness
    all_goals decide
  have bound := (List.subperm_of_subset fitnesses among).length_le
  rw [List.length_map] at bound
  exact bound

/-- In every pass the champions at a breakpoint hold each line class and fitness once just when no
class comes back with the same fitness behind another one, and then so do the new routes, at
most four of a class. It cannot come back where the classes are aligned. -/
theorem Arrives.one_champion (arrived : pass.Arrives index search)
    (found : pass.tape.breakSites[index]? = some site)
    (broken : pass.breakAt index site search = .ok next) :
    (∃ sweep, pass.visitAll index site
        { survivors := [], winners := [], nextSerial := search.nextSerial, search := search.search }
        search.active = .ok sweep ∧
      ((sweep.winners.map (routeKey pass.easyLine)).Nodup ↔
        ¬ Champion.Separated (pass.arrivals site search.active))) ∧
    (¬ Champion.Separated (pass.arrivals site search.active) →
      ((newRoutes index next).map (routeKey pass.easyLine)).Nodup ∧
        ∀ class_, ((newRoutes index next).filter fun route =>
          routeClass pass.easyLine route = class_).length ≤ 4) ∧
    (pass.Aligned →
      ((pass.arrivals site search.active).Pairwise fun left right => left.1 ≤ right.1) ∧
        ¬ Champion.Separated (pass.arrivals site search.active)) := by
  obtain ⟨sweep, visited, active, _⟩ := breakAt_eq_ok broken
  have champions := visitAll_nodup rfl visited
  have ordered := arrived.ordered
  refine ⟨⟨sweep, visited, champions⟩, fun together => ?_, fun aligned => ?_⟩
  · have nodup : ((newRoutes index next).map (routeKey pass.easyLine)).Nodup :=
      (newRoutes_keys ordered.starts visited active).nodup_iff.mpr
        ((champions.mpr together).sublist (List.filter_sublist.map _))
    exact ⟨nodup, fun class_ => class_length_le nodup class_⟩
  have sorted := aligned.arrivals_sorted ordered (List.getElem?_eq_some_iff.mp found).1 site
  exact ⟨sorted, Champion.not_separated_of_pairwise (fun _ _ => Nat.le_antisymm) sorted⟩

/-- The states of a pass are those it breaks its first sites with. -/
theorem Arrives.continued {sites : List Breakpoint} (arrived : pass.Arrives index search)
    (listed : sites <+: pass.tape.breakSites.drop index)
    (ran : pass.breakSites index search sites = .ok next) :
    pass.Arrives (index + sites.length) next := by
  induction sites generalizing index search with
  | nil =>
    cases ran
    exact arrived
  | cons site sites ih => ?_
  obtain ⟨between, broken, ran⟩ := bind_eq_ok.mp ran
  obtain ⟨later, shape⟩ := listed
  have found : pass.tape.breakSites[index]? = some site := by
    rw [← List.head?_drop, ← shape]
    rfl
  have behind : sites <+: pass.tape.breakSites.drop (index + 1) := by
    rw [← List.tail_drop, ← shape]
    exact ⟨later, rfl⟩
  have continued := ih (.step arrived found broken) behind ran
  rw [List.length_cons, Nat.add_comm sites.length, ← Nat.add_assoc]
  exact continued

end Pass

/-- Six words of a paragraph whose lines have a shape of their own up to the third one. -/
def shapedWords : List Node :=
  .box 10 :: (List.replicate 5 [.glue ⟨0, 1, .fil, 0, .normal⟩, .box 10]).flatten ++
    [.penalty 10000, .glue (narrowParams 50).parFillSkip]

def shapedParams (lineOffset : Nat) : LineBreakParams :=
  { narrowParams 50 with
    shape :=
      { (narrowParams 50).shape with
        parshape := some ⟨[⟨0, 50⟩, ⟨0, 50⟩, ⟨0, 50⟩], by decide⟩
        lineOffset } }

def shapedCheck (lineOffset index : Nat) (test : List (Nat × Fitness) → Bool) : Bool :=
  (ParagraphTape.analyze noFonts shapedWords (shapedParams lineOffset)).toOption.any fun tape =>
    let pass := secondPass noFonts tape (shapedParams lineOffset) .zero
    (pass.breakSites 0 .initial (tape.breakSites.take index)).toOption.any fun search =>
      tape.breakSites[index]?.any fun site =>
        (pass.breakAt index site search).toOption.any fun next =>
          test ((Pass.newRoutes index next).map (routeKey pass.easyLine))

theorem arrives_of_shapedCheck {lineOffset index : Nat} {test : List (Nat × Fitness) → Bool}
    (checked : shapedCheck lineOffset index test = true) :
    ∃ tape, ParagraphTape.analyze noFonts shapedWords (shapedParams lineOffset) = .ok tape ∧
      ∃ search site next,
        (secondPass noFonts tape (shapedParams lineOffset) .zero).Arrives index search ∧
        tape.breakSites[index]? = some site ∧
        (secondPass noFonts tape (shapedParams lineOffset) .zero).breakAt index site search =
          .ok next ∧ test ((Pass.newRoutes index next).map (routeKey
          (secondPass noFonts tape (shapedParams lineOffset) .zero).easyLine)) = true := by
  obtain ⟨tape, analyzed, checked⟩ := exists_of_toOption_any checked
  obtain ⟨search, ran, checked⟩ := exists_of_toOption_any checked
  obtain ⟨site, found, checked⟩ := (Option.any_eq_true ..).mp checked
  obtain ⟨next, broken, tested⟩ := exists_of_toOption_any checked
  have inside := (List.getElem?_eq_some_iff.mp found).1
  have arrived : (secondPass noFonts tape (shapedParams lineOffset) .zero).Arrives
      (0 + (tape.breakSites.take index).length) search :=
    Pass.Arrives.start.continued (List.take_prefix index tape.breakSites) ran
  rw [List.length_take, Nat.min_eq_left (Nat.le_of_lt inside), Nat.zero_add] at arrived
  exact ⟨tape, analyzed, search, site, next, arrived, found, broken, tested⟩

theorem one_champion_shaped : ∃ tape search site next,
      ParagraphTape.analyze noFonts shapedWords (shapedParams 0) = .ok tape ∧
      (secondPass noFonts tape (shapedParams 0) .zero).Arrives 5 search ∧
      tape.breakSites[5]? = some site ∧
      (secondPass noFonts tape (shapedParams 0) .zero).breakAt 5 site search = .ok next ∧
      ((secondPass noFonts tape (shapedParams 0) .zero).arrivals site search.active).Pairwise
        (fun left right => left.1 ≤ right.1) ∧ ((Pass.newRoutes 5 next).map (routeKey
        (secondPass noFonts tape (shapedParams 0) .zero).easyLine)).Nodup := by
  have evaluated : shapedCheck 0 5 (fun keys => decide (keys.length = 2)) = true := by
    decide +kernel
  obtain ⟨tape, analyzed, search, site, next, arrived, found, broken, _⟩ :=
    arrives_of_shapedCheck evaluated
  obtain ⟨_, together, aligned⟩ := Pass.Arrives.one_champion arrived found broken
  obtain ⟨sorted, apart⟩ := aligned (.inl rfl)
  exact ⟨tape, search, site, next, analyzed, arrived, found, broken, sorted, (together apart).1⟩

/-- In a paragraph continued behind two lines a class gets two routes of one fitness. -/
theorem shaped_continuation_repeats : ∃ tape search site next,
      ParagraphTape.analyze noFonts shapedWords (shapedParams 2) = .ok tape ∧
      (secondPass noFonts tape (shapedParams 2) .zero).Arrives 5 search ∧
      tape.breakSites[5]? = some site ∧
      (secondPass noFonts tape (shapedParams 2) .zero).breakAt 5 site search = .ok next ∧
      ¬ ((Pass.newRoutes 5 next).map (routeKey
        (secondPass noFonts tape (shapedParams 2) .zero).easyLine)).Nodup := by
  have evaluated : shapedCheck 2 5 (fun keys => !decide keys.Nodup) = true := by decide +kernel
  obtain ⟨tape, analyzed, search, site, next, arrived, found, broken, repeated⟩ :=
    arrives_of_shapedCheck evaluated
  refine ⟨tape, search, site, next, analyzed, arrived, found, broken, fun nodup => ?_⟩
  rw [decide_eq_true nodup] at repeated
  cases repeated

end Umber.Typeset
