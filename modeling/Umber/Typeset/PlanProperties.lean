import Umber.Typeset.MemoryProperties
import Umber.Typeset.Optimality
import Umber.Typeset.SiteProperties

/-! The plans of a pass are well formed. -/

set_option autoImplicit false

namespace Umber.Typeset

open ExceptLib

namespace Pass

variable {pass : Pass} {index : Nat} {site : Breakpoint} {search next : SearchState}
  {route : Candidate} {breaks : List Nat} {passive : List PassiveRoute}

/-! ## The breaks behind a route -/

structure Threaded (pass : Pass) (index : Nat) (passive : List PassiveRoute) (route : Candidate)
    (breaks : List Nat) : Prop where
  chain : pass.Chain passive route.passive breaks
  increasing : breaks.Pairwise (· < ·)
  inside : ∀ earlier ∈ breaks, earlier < index
  forced : ∀ earlier site, earlier < index → pass.tape.breakSites[earlier]? = some site →
    forced site = true → earlier ∈ breaks
  position : route.position = pass.positionAt breaks.getLast?

theorem Threaded.before (threaded : pass.Threaded index passive route breaks)
    (some_ : pass.tape.nodes ≠ []) (found : pass.tape.breakSites[index]? = some site) :
    route.position < site.position := by
  obtain ⟨listed, here⟩ := List.getElem?_eq_some_iff.mp found
  rw [threaded.position]
  unfold positionAt
  cases last : breaks.getLast? with
  | none => exact pass.tape.positive some_ site (List.mem_of_getElem? found)
  | some earlier => ?_
  have less := threaded.inside earlier (List.mem_of_getLast? last)
  have earlierFound := List.getElem?_eq_getElem (Nat.lt_trans less listed)
  rw [Option.bind_some, earlierFound, ← here]
  exact List.pairwise_iff_getElem.mp pass.tape.ordered earlier index _ listed less

theorem visitAll_scored {active : List Candidate} {sweep result : Sweep}
    (visited : pass.visitAll index site sweep active = .ok result) (member : route ∈ active)
    (before : route.position < site.position) : ∃ score, pass.scoreLine route site = .ok score := by
  induction active generalizing sweep with
  | nil => cases member
  | cons first rest ih => ?_
  obtain ⟨between, visiting, visited⟩ := bind_eq_ok.mp visited
  rcases List.mem_cons.mp member with rfl | later
  · obtain ⟨score, _, scoring, _⟩ := visit_eq_ok before visiting
    exact ⟨score, scoring⟩
  · exact ih visited later

/-- A route that passes a breakpoint which is not forced. -/
theorem Threaded.stay (threaded : pass.Threaded index passive route breaks)
    (found : pass.tape.breakSites[index]? = some site) (optional : Pass.forced site = false)
    (more : List PassiveRoute) : pass.Threaded (index + 1) (passive ++ more) route breaks := by
  refine ⟨threaded.chain.append more, threaded.increasing,
    fun earlier member => Nat.lt_succ_of_lt (threaded.inside earlier member), ?_,
    threaded.position⟩
  intro earlier other less listed eject
  rcases Nat.lt_succ_iff_lt_or_eq.mp less with before | rfl
  · exact threaded.forced earlier other before listed eject
  cases found.symm.trans listed
  rw [optional] at eject
  cases eject

/-- The route that ends with a line to the breakpoint. -/
theorem Threaded.extend (threaded : pass.Threaded index passive route breaks)
    (found : pass.tape.breakSites[index]? = some site) {winner : Candidate}
    (makes : pass.Makes index site route winner) {more : List PassiveRoute} {id : Nat}
    (behind : passive.length ≤ id)
    (stored : (passive ++ more)[id]? = some (passiveRoute pass.tape.nodes.length winner)) :
    pass.Threaded (index + 1) (passive ++ more) { winner with passive := some id }
      (breaks ++ [index]) := by
  obtain ⟨_, score, serial, artificial, making⟩ := makes
  obtain ⟨_, _, _, _, rfl⟩ := newCandidate_eq_ok making
  constructor
  case chain =>
    refine .snoc stored found rfl (fun previous same => ?_) (threaded.chain.append more)
    have chain := threaded.chain
    rw [show route.passive = some previous from same] at chain
    exact Nat.lt_of_lt_of_le chain.lt_length behind
  case increasing =>
    refine List.pairwise_append.mpr ⟨threaded.increasing, List.pairwise_singleton _ _, ?_⟩
    intro earlier member last same
    rw [List.mem_singleton.mp same]
    exact threaded.inside earlier member
  case inside =>
    intro earlier member
    rcases List.mem_append.mp member with before | last
    · exact Nat.lt_succ_of_lt (threaded.inside earlier before)
    rw [List.mem_singleton.mp last]
    exact Nat.lt_succ_self _
  case forced =>
    intro earlier other less listed eject
    rcases Nat.lt_succ_iff_lt_or_eq.mp less with before | rfl
    · exact List.mem_append_left _ (threaded.forced earlier other before listed eject)
    · exact List.mem_append_right _ List.mem_cons_self
  case position =>
    unfold positionAt
    rw [List.getLast?_concat, Option.bind_some, found]
    rfl

def Traced (pass : Pass) (index : Nat) (search : SearchState) : Prop :=
  ∀ route ∈ search.active, ∃ breaks, pass.Threaded index search.passive route breaks

theorem traced_initial : pass.Traced 0 .initial := by
  intro route member
  rw [List.mem_singleton.mp member]
  exact ⟨[], .nil, .nil, fun _ absent => absurd absent List.not_mem_nil,
    fun _ _ absent => absurd absent (Nat.not_lt_zero _), rfl⟩

theorem Traced.breakAt (traced : pass.Traced index search) (some_ : pass.tape.nodes ≠ [])
    (found : pass.tape.breakSites[index]? = some site)
    (broken : pass.breakAt index site search = .ok next) : pass.Traced (index + 1) next := by
  obtain ⟨sweep, visited, active, recorded⟩ := breakAt_eq_ok broken
  obtain ⟨survivors, landed⟩ := visitAll_left visited
  rw [List.nil_append] at survivors
  intro route member
  rw [active] at member
  rw [recorded, recordPassive_passive]
  rcases mem_mergeActiveCandidates.mp member with survivor | new
  · rw [survivors] at survivor
    obtain ⟨held, stays⟩ := List.mem_filter.mp survivor
    obtain ⟨breaks, threaded⟩ := traced route held
    have before := threaded.before some_ found
    obtain ⟨score, scoring⟩ := visitAll_scored visited held before
    rw [endsAt_of_score before scoring, Bool.not_or, Bool.and_eq_true, Bool.not_eq_true',
      Bool.not_eq_true'] at stays
    exact ⟨breaks, threaded.stay found stays.2 _⟩
  obtain ⟨winner, retained, id, rfl, behind, stored⟩ := mem_recordPassive new
  rcases landed winner (mem_retainCompetitiveRoutes.mp retained).1 with
    none_ | ⟨parent, held, makes⟩
  · cases none_
  obtain ⟨breaks, threaded⟩ := traced parent held
  rw [recordPassive_passive] at stored
  exact ⟨_, threaded.extend found makes behind stored⟩

theorem Arrives.traced (some_ : pass.tape.nodes ≠ []) (arrived : pass.Arrives index search) :
    pass.Traced index search := by
  induction arrived with
  | start => exact traced_initial
  | step _ found broken ih => exact ih.breakAt some_ found broken

end Pass

/-! ## Plans -/

def Breakpoint.decision (site : Breakpoint) : BreakDecision :=
  { position := site.position, penalty := site.penalty, hyphenated := site.hyphenated }

structure BreakPlan.WellFormed (pass : Pass) (plan : BreakPlan) : Prop where
  increasing : plan.breaks.Pairwise fun left right => left.position < right.position
  legal : ∀ decision ∈ plan.breaks, ∃ site ∈ pass.tape.breakSites, decision = site.decision
  last : ∃ decision, plan.breaks.getLast? = some decision ∧
    decision.position = pass.tape.nodes.length ∧ decision.penalty = ejectPenalty
  forced : ∀ site ∈ pass.tape.breakSites, site.penalty ≤ ejectPenalty →
    site.decision ∈ plan.breaks
  hyphenated : ∀ decision ∈ plan.breaks, 0 < decision.position ∧
    (decision.hyphenated = true ↔ ∃ pre post replace,
      pass.tape.nodes[decision.position - 1]? = some (.disc pre post replace))
  /-- Every route of the pass has its memory once, and no other owner has any. -/
  memory : ∀ owner, pass.Created owner →
    ∃ words, (plan.memory.search ++ plan.memory.cleanup).filter
      (fun event => event.owner = owner) = [.allocate owner words, .free owner]
  owners : ∀ event ∈ plan.memory.search ++ plan.memory.cleanup, pass.Created event.owner

namespace Pass

variable {pass : Pass} {index : Nat} {search : SearchState} {plan : BreakPlan}

/-- A plan stands for an active route at the end of the pass. -/
theorem choose_eq_some (chosen : pass.choose search = .ok (some plan)) :
    ∃ route ∈ search.active,
      plan.breaks = (decisions search.passive search.passive.length route.passive).reverse ∧
      plan.memory =
        { search := search.search
          cleanup :=
            search.active.map freed ++
              (List.range search.passive.length).reverse.map fun id => .free (.passive id) } := by
  by_cases some_ : search.active = []
  · have none_ : chooseFinal search.active pass.params.looseness = none := by
      rw [some_]
      rfl
    unfold choose at chosen
    rw [none_] at chosen
    cases chosen
  obtain ⟨route, best, choosing, finding, member⟩ :=
    chooseFinal_isSome some_ pass.params.looseness
  unfold choose at chosen
  rw [choosing, finding] at chosen
  dsimp only at chosen
  split at chosen
  · cases chosen
  obtain ⟨built, building, chosen⟩ := bind_eq_ok.mp chosen
  cases pure_eq_ok.mp chosen
  obtain ⟨fill, _, building⟩ := bind_eq_ok.mp building
  cases pure_eq_ok.mp building
  exact ⟨route, member, rfl, rfl⟩

theorem Booked.balanced (booked : Booked search) {held : BreakMemoryOwner}
    {events : List BreakMemoryEvent} (all : events = search.search ++ (search.active.map freed ++
      (List.range search.passive.length).reverse.map fun id => .free (.passive id)))
    (listed : held ∈ search.search.map BreakMemoryEvent.owner) :
    ∃ words, events.filter (fun event => event.owner = held) =
      [.allocate held words, .free held] := by
  have owned : ∀ event ∈ events.filter (fun event => event.owner = held), event.owner = held :=
    fun event member => of_decide_eq_true (List.mem_filter.mp member).2
  rcases booked.cleaned.others held id with none_ | both
  · refine absurd (List.mem_map.mp listed) fun some_ => ?_
    obtain ⟨event, member, same⟩ := some_
    exact Ledger.history_eq_nil.mp none_
      (List.mem_map.mpr ⟨event, List.mem_append_left _ member, same⟩)
  rw [← all] at both
  change (events.filter fun event => event.owner = held).map _ = _ at both
  generalize events.filter (fun event => event.owner = held) = history at *
  obtain ⟨first, rest, rfl, opening, both⟩ := List.map_eq_cons_iff.mp both
  obtain ⟨second, tail, rfl, closing, none_⟩ := List.map_eq_cons_iff.mp both
  cases List.map_eq_nil_iff.mp none_
  have firstOwned := owned first List.mem_cons_self
  have secondOwned := owned second (List.mem_cons_of_mem _ List.mem_cons_self)
  cases first with
  | free _ => cases opening
  | allocate owner words => ?_
  cases second with
  | allocate _ _ => cases closing
  | free other => ?_
  cases firstOwned
  cases secondOwned
  exact ⟨words, rfl⟩

theorem decisionOf_eq (closed : pass.tape.Closed) {site : Breakpoint}
    (member : site ∈ pass.tape.breakSites) : pass.decisionOf site = site.decision := by
  unfold Pass.decisionOf Breakpoint.decision
  rw [Nat.min_eq_left (closed.inside site member)]

variable {breaks : List Nat}

section

variable (closed : pass.tape.Closed)
include closed

theorem mem_decisionsOf {decision : BreakDecision} (member : decision ∈ pass.decisionsOf breaks) :
    ∃ index ∈ breaks, ∃ site, pass.tape.breakSites[index]? = some site ∧
      decision = site.decision := by
  obtain ⟨index, listed, mapped⟩ := List.mem_filterMap.mp member
  obtain ⟨site, found, rfl⟩ := Option.map_eq_some_iff.mp mapped
  exact ⟨index, listed, site, found, decisionOf_eq closed (List.mem_of_getElem? found)⟩

theorem decisionsOf_concat {site : Breakpoint} (found : pass.tape.breakSites[index]? = some site) :
    pass.decisionsOf (breaks ++ [index]) = pass.decisionsOf breaks ++ [site.decision] := by
  unfold decisionsOf
  rw [List.filterMap_append]
  congr 1
  simp [found, decisionOf_eq closed (List.mem_of_getElem? found)]

theorem decision_mem {site : Breakpoint}
    (member : index ∈ breaks) (found : pass.tape.breakSites[index]? = some site) :
    site.decision ∈ pass.decisionsOf breaks := by
  refine List.mem_filterMap.mpr ⟨index, member, ?_⟩
  rw [found, Option.map_some, decisionOf_eq closed (List.mem_of_getElem? found)]

theorem decisionsOf_pairwise (increasing : breaks.Pairwise (· < ·)) :
    (pass.decisionsOf breaks).Pairwise fun left right => left.position < right.position := by
  refine List.pairwise_filterMap.mpr (increasing.imp ?_)
  intro left right less leftDecision leftMapped rightDecision rightMapped
  obtain ⟨leftSite, leftFound, rfl⟩ := Option.map_eq_some_iff.mp leftMapped
  obtain ⟨rightSite, rightFound, rfl⟩ := Option.map_eq_some_iff.mp rightMapped
  rw [decisionOf_eq closed (List.mem_of_getElem? leftFound),
    decisionOf_eq closed (List.mem_of_getElem? rightFound)]
  obtain ⟨leftInside, rfl⟩ := List.getElem?_eq_some_iff.mp leftFound
  obtain ⟨rightInside, rfl⟩ := List.getElem?_eq_some_iff.mp rightFound
  exact List.pairwise_iff_getElem.mp pass.tape.ordered left right leftInside rightInside less

end

/-- The last of the numbers below a bound, when its predecessor is among them. -/
theorem eq_concat_of_increasing {bound : Nat} {numbers : List Nat}
    (increasing : numbers.Pairwise (· < ·)) (inside : ∀ number ∈ numbers, number < bound)
    (member : bound - 1 ∈ numbers) : ∃ front, numbers = front ++ [bound - 1] := by
  rcases List.eq_nil_or_concat numbers with rfl | ⟨front, last, rfl⟩
  · cases member
  rw [List.concat_eq_append] at *
  have below := inside last (List.mem_append_right _ List.mem_cons_self)
  rcases List.mem_append.mp member with earlier | same
  · have less := (List.pairwise_append.mp increasing).2.2 _ earlier last List.mem_cons_self
    omega
  · exact ⟨front, by rw [List.mem_singleton.mp same]⟩

theorem isDiscretionary_iff {node : Option Node} : node.any Node.isDiscretionary = true ↔
      ∃ pre post replace, node = some (.disc pre post replace) := by
  rw [Option.any_eq_true]
  constructor
  · rintro ⟨held, rfl, discretionary⟩
    cases held with
    | disc pre post replace => exact ⟨pre, post, replace, rfl⟩
    | _ => cases discretionary
  rintro ⟨pre, post, replace, rfl⟩
  exact ⟨_, rfl, rfl⟩

/-- A plan of the pass over a whole paragraph is well formed. -/
theorem run_wellFormed (closed : pass.tape.Closed) (some_ : pass.tape.nodes ≠ [])
    (ran : pass.run = .ok (some plan)) : plan.WellFormed pass := by
  obtain ⟨search, finished, chosen⟩ := bind_eq_ok.mp ran
  have arrived : pass.Arrives (0 + pass.tape.breakSites.length) search :=
    Arrives.start.continued (List.prefix_refl _) finished
  rw [Nat.zero_add] at arrived
  obtain ⟨route, member, breaks_, memory⟩ := choose_eq_some chosen
  obtain ⟨breaks, threaded⟩ := arrived.traced some_ route member
  have decided : plan.breaks = pass.decisionsOf breaks := by
    rw [breaks_, threaded.chain.decisions, List.reverse_reverse]
    intro id same
    have chain := threaded.chain
    rw [same] at chain
    exact chain.lt_length
  constructor
  case increasing =>
    rw [decided]
    exact decisionsOf_pairwise closed threaded.increasing
  case legal =>
    intro decision listed
    rw [decided] at listed
    obtain ⟨_, _, site, found, same⟩ := mem_decisionsOf closed listed
    exact ⟨site, List.mem_of_getElem? found, same⟩
  case last =>
    obtain ⟨site, lastSite, position, penalty⟩ := closed.last
    rw [List.getLast?_eq_getElem?] at lastSite
    have below := (List.getElem?_eq_some_iff.mp lastSite).1
    have ending := threaded.forced _ site below lastSite (decide_eq_true (Int.le_of_eq penalty))
    obtain ⟨front, rfl⟩ := eq_concat_of_increasing threaded.increasing threaded.inside ending
    refine ⟨site.decision, ?_, position, penalty⟩
    rw [decided, decisionsOf_concat closed lastSite, List.getLast?_concat]
  case forced =>
    intro site listed eject
    obtain ⟨index, below, rfl⟩ := List.mem_iff_getElem.mp listed
    have found := List.getElem?_eq_getElem below
    rw [decided]
    exact decision_mem closed (threaded.forced index _ below found (decide_eq_true eject)) found
  case hyphenated =>
    intro decision listed
    rw [decided] at listed
    obtain ⟨_, _, site, found, rfl⟩ := mem_decisionsOf closed listed
    have held := List.mem_of_getElem? found
    refine ⟨pass.tape.positive some_ site held, ?_⟩
    rw [← isDiscretionary_iff, show site.decision.hyphenated = site.hyphenated from rfl,
      closed.hyphenated site held]
    rfl
  case memory =>
    intro owner created
    rw [memory]
    exact arrived.booked.balanced rfl (created.mem_owner finished)
  case owners =>
    intro event listed
    rw [memory] at listed
    rcases List.mem_append.mp listed with searched | cleaned
    · exact arrived.created event searched
    rcases List.mem_append.mp cleaned with active | passive
    · exact ⟨_, search, arrived, freed_held (fun _ held => held) event active⟩
    obtain ⟨id, below, rfl⟩ := List.mem_map.mp passive
    exact ⟨_, search, arrived, List.mem_range.mp (List.mem_reverse.mp below)⟩

end Pass

/-- Whatever pass finds a plan for a paragraph that ends with an infinite penalty and glue, the
plan is well formed. -/
theorem runPass_wellFormed {state : TypesetState} {params tapeParams : LineBreakParams}
    {tolerance : Int} {emergency finalPass : Bool} {front : List Node} {fill : GlueSpec}
    {tape : ParagraphTape} {plan : BreakPlan}
    (taped : ParagraphTape.analyze state (front ++ [.penalty 10000, .glue fill]) tapeParams =
      .ok tape)
    (planned : runPass state tape params tolerance emergency finalPass = .ok (some plan)) :
    ∃ background, lineBackground params = .ok background ∧
      plan.WellFormed { state, tape, params, tolerance, emergency, finalPass, background } := by
  obtain ⟨background, measured, ran⟩ := bind_eq_ok.mp planned
  have some_ : tape.nodes ≠ [] := by
    obtain ⟨_, _, nodes, _⟩ := ParagraphTape.analyze_eq_ok taped
    rw [nodes]
    exact fun empty => by simp at empty
  exact ⟨background, measured, Pass.run_wellFormed (ParagraphTape.closed taped) some_ ran⟩

theorem runPass_wellFormed_twoLines :
    ∃ tape plan background, ParagraphTape.analyze noFonts twoLines (narrowParams 50) = .ok tape ∧
      runPass noFonts tape (narrowParams 50) 200 false false = .ok (some plan) ∧
      lineBackground (narrowParams 50) = .ok background ∧
      plan.WellFormed
        { state := noFonts, tape, params := narrowParams 50, tolerance := 200,
          emergency := false, finalPass := false, background } := by
  have evaluated : ((ParagraphTape.analyze noFonts twoLines (narrowParams 50)).toOption.any
      fun tape => (runPass noFonts tape (narrowParams 50) 200 false false).toOption.any
        Option.isSome) = true := by
    decide +kernel
  obtain ⟨tape, taped, checked⟩ := exists_of_toOption_any evaluated
  obtain ⟨result, ran, isSome⟩ := exists_of_toOption_any checked
  obtain ⟨plan, rfl⟩ := Option.isSome_iff_exists.mp isSome
  obtain ⟨background, measured, wellFormed⟩ := runPass_wellFormed taped ran
  exact ⟨tape, plan, background, taped, ran, measured, wellFormed⟩

end Umber.Typeset
