import Umber.Typeset.Tape

/-! The breakpoints of a paragraph: where they stand, which of them are hyphens, and the last
one. -/

set_option autoImplicit false

namespace Umber.Typeset

open ExceptLib LegalBreakpoints

def Node.isDiscretionary : Node → Bool
  | .disc _ _ _ => true
  | _ => false

structure Sited (nodes : List Node) (site : Breakpoint) : Prop where
  positive : 0 < site.position
  hyphenated : site.hyphenated = nodes[site.position - 1]?.any Node.isDiscretionary

namespace LegalBreakpoints

variable {state : TypesetState} {params : LineBreakParams} {analyzer next : LegalBreakpoints}
  {index : Nat} {whole : List Node} {position : Nat}

theorem mem_finalizePending {site : Breakpoint}
    (member : site ∈ (analyzer.finalizePending position).output) :
    ∃ earlier ∈ analyzer.output, site.position = earlier.position ∧
      site.hyphenated = earlier.hyphenated := by
  unfold finalizePending at member
  split at member
  · exact ⟨site, member, rfl, rfl⟩
  rcases List.mem_append.mp member with first | last
  · exact ⟨site, List.mem_of_mem_take first, rfl, rfl⟩
  obtain ⟨earlier, dropped, rfl⟩ := List.mem_map.mp last
  exact ⟨earlier, List.mem_of_mem_drop dropped, rfl, rfl⟩

theorem sited_finalizePending (sited : ∀ site ∈ analyzer.output, Sited whole site) :
    ∀ site ∈ (analyzer.finalizePending position).output, Sited whole site := by
  intro site member
  obtain ⟨earlier, listed, same, hyphens⟩ := mem_finalizePending member
  obtain ⟨positive, hyphenated⟩ := sited earlier listed
  exact ⟨same ▸ positive, by rw [hyphens, same, hyphenated]⟩

variable {node : Node}

theorem sited_push {awaits : Bool} {breakpoint : Breakpoint}
    (sited : ∀ site ∈ analyzer.output, Sited whole site) (found : whole[index]? = some node)
    (position : breakpoint.position = index + 1)
    (hyphenated : breakpoint.hyphenated = node.isDiscretionary) :
    ∀ site ∈ (analyzer.push awaits breakpoint).output, Sited whole site := by
  intro site member
  rcases List.mem_append.mp member with earlier | last
  · exact sited site earlier
  rw [List.mem_singleton.mp last]
  refine ⟨by rw [position]; exact Nat.succ_pos _, ?_⟩
  rw [hyphenated, position, Nat.add_sub_cancel, found]
  rfl

variable {previous following : Option Node}

section

variable (sited : ∀ site ∈ analyzer.output, Sited whole site)
include sited

theorem sited_observeBreak {before : Widths} (found : whole[index]? = some node) (observed :
      analyzer.observeBreak state params index before previous following node = .ok next) :
    ∀ site ∈ next.output, Sited whole site := by
  unfold observeBreak at observed
  split at observed
  · rename_i zero
    cases observed
    refine sited_push sited found rfl ?_
    unfold zeroPenaltyBreak at zero
    cases node with
    | disc pre post replace => simp [Node.isGlue, Node.isExplicitKern] at zero
    | _ => rfl
  cases node with
  | penalty value =>
    dsimp only at observed
    split at observed
    · cases observed
      exact sited_push sited found rfl rfl
    cases observed
    exact sited
  | disc pre post replace =>
    obtain ⟨addWidth, _, observed⟩ := bind_eq_ok.mp observed
    obtain ⟨nextWidth, _, observed⟩ := bind_eq_ok.mp observed
    cases pure_eq_ok.mp observed
    exact sited_push sited found rfl rfl
  | mathOff width =>
    dsimp only at observed
    split at observed
    · cases observed
      exact sited_push sited found rfl rfl
    cases observed
    exact sited
  | mathOn width =>
    cases observed
    exact sited
  | _ =>
    cases observed
    exact sited

theorem sited_observeNode (found : whole[index]? = some node)
    (observed : analyzer.observeNode state params index previous following node = .ok next) :
    ∀ site ∈ next.output, Sited whole site := by
  obtain ⟨width, _, observed⟩ := bind_eq_ok.mp observed
  refine sited_observeBreak ?_ found observed
  dsimp only
  split
  · exact sited
  · exact sited_finalizePending sited

theorem sited_observeNodes {nodes : List Node} (listed : whole.drop index = nodes)
    (observed : analyzer.observeNodes state params index previous nodes = .ok next) :
    ∀ site ∈ next.output, Sited whole site := by
  induction nodes generalizing analyzer index previous with
  | nil =>
    cases observed
    exact sited
  | cons node rest ih => ?_
  obtain ⟨between, observing, observed⟩ := bind_eq_ok.mp observed
  have found : whole[index]? = some node := by
    rw [← List.head?_drop, listed]
    rfl
  have behind : whole.drop (index + 1) = rest := by
    rw [← List.tail_drop, listed]
    rfl
  exact ih (sited_observeNode sited found observing) behind observed

end

/-! ## The end of a paragraph -/

/-- A node that offers no break leaves the positions as they are. -/
theorem positions_observeNode (silent : ∀ analyzer before,
      observeBreak state params analyzer index before previous following node = .ok analyzer)
    (observed : analyzer.observeNode state params index previous following node = .ok next) :
    next.positions = analyzer.positions := by
  obtain ⟨width, _, observed⟩ := bind_eq_ok.mp observed
  rw [silent] at observed
  cases observed
  change positions (if node.isDiscardable then analyzer else analyzer.finalizePending index) = _
  split
  · rfl
  · exact positions_finalizePending index

/-- The penalty and the glue at the end of a paragraph offer no break. -/
theorem observeNodes_end {front : List Node} {fill : GlueSpec}
    (placed : Placed index analyzer.positions)
    (observed : analyzer.observeNodes state params index previous
      (front ++ [.penalty 10000, .glue fill]) = .ok next) :
    Placed (index + front.length) next.positions := by
  induction front generalizing analyzer index previous with
  | nil =>
    obtain ⟨first, penalty, observed⟩ := bind_eq_ok.mp observed
    obtain ⟨second, glue, observed⟩ := bind_eq_ok.mp observed
    cases observed
    have kept := positions_observeNode (fun _ _ => by
      simp [observeBreak, zeroPenaltyBreak, Node.isGlue, Node.isExplicitKern, infPenalty]) penalty
    have keptAgain := positions_observeNode (fun _ _ => by
      simp [observeBreak, zeroPenaltyBreak, Node.isGlue, Node.isExplicitKern,
        Node.isDiscardable]) glue
    rw [keptAgain, kept]
    exact placed
  | cons node rest ih => ?_
  obtain ⟨between, observing, observed⟩ := bind_eq_ok.mp observed
  rw [List.length_cons, Nat.add_comm rest.length, ← Nat.add_assoc]
  exact ih (placed_observeNode placed observing) observed

def lastBreak (length : Nat) (width : Widths) : Breakpoint :=
  { position := length
    protrusionEnd := length
    penalty := ejectPenalty
    hyphenated := false
    addWidth := .zero
    lineWidth := width
    nextPosition := length
    nextWidth := width }

theorem finish_end {seen length : Nat} (placed : Placed seen analyzer.positions)
    (less : seen < length) : ∃ width, analyzer.finish length =
      (analyzer.finalizePending length).output ++ [lastBreak length width] := by
  have same := @positions_finalizePending analyzer length
  rw [← same] at placed
  have before : (analyzer.finalizePending length).output.getLast?.all
      (fun breakpoint => decide (breakpoint.position < length)) = true := by
    cases last : (analyzer.finalizePending length).output.getLast? with
    | none => rfl
    | some site => ?_
    have member := List.mem_map_of_mem (f := Breakpoint.position) (List.mem_of_getLast? last)
    exact decide_eq_true (Nat.lt_of_le_of_lt (placed.inside _ member).2 less)
  refine ⟨(analyzer.finalizePending length).width, ?_⟩
  unfold finish
  dsimp only
  rw [if_pos before]
  rfl

end LegalBreakpoints

structure ParagraphTape.Closed (tape : ParagraphTape) : Prop where
  inside : ∀ site ∈ tape.breakSites, site.position ≤ tape.nodes.length
  hyphenated : ∀ site ∈ tape.breakSites,
    site.hyphenated = tape.nodes[site.position - 1]?.any Node.isDiscretionary
  last : ∃ site, tape.breakSites.getLast? = some site ∧ site.position = tape.nodes.length ∧
    site.penalty = ejectPenalty

theorem ParagraphTape.analyze_eq_ok {state : TypesetState} {nodes : List Node}
    {params : LineBreakParams} {tape : ParagraphTape}
    (analyzed : ParagraphTape.analyze state nodes params = .ok tape) :
    ∃ analyzer, new.observeNodes state params 0 none nodes = .ok analyzer ∧
      tape.nodes = nodes ∧ tape.breakSites = analyzer.finish nodes.length := by
  unfold analyze at analyzed
  split at analyzed
  · cases analyzed
  rename_i analyzer observed
  cases analyzed
  exact ⟨analyzer, observed, rfl, rfl⟩

/-- A paragraph that ends with an infinite penalty and glue is closed. -/
theorem ParagraphTape.closed {state : TypesetState} {params : LineBreakParams} {front : List Node}
    {fill : GlueSpec} {tape : ParagraphTape}
    (analyzed : ParagraphTape.analyze state (front ++ [.penalty 10000, .glue fill]) params =
      .ok tape) : tape.Closed := by
  obtain ⟨analyzer, observed, nodes, sites⟩ := analyze_eq_ok analyzed
  have start : Placed 0 new.positions :=
    ⟨.nil, fun _ absent => absurd absent List.not_mem_nil⟩
  have placed := observeNodes_end start observed
  rw [Nat.zero_add] at placed
  have sited : ∀ site ∈ analyzer.output, Sited (front ++ [.penalty 10000, .glue fill]) site :=
    sited_observeNodes (fun _ absent => absurd absent List.not_mem_nil) rfl
      observed
  have length : tape.nodes.length = front.length + 2 := by
    rw [nodes, List.length_append]
    rfl
  obtain ⟨width, finished⟩ := finish_end placed (show front.length < tape.nodes.length by omega)
  rw [← nodes, finished] at sites
  have inside := @positions_finalizePending analyzer tape.nodes.length
  constructor
  case inside =>
    intro site member
    rw [sites] at member
    rcases List.mem_append.mp member with earlier | last
    · have listed := List.mem_map_of_mem (f := Breakpoint.position) earlier
      change site.position ∈ positions _ at listed
      rw [inside] at listed
      have bound := (placed.inside _ listed).2
      omega
    rw [List.mem_singleton.mp last]
    exact Nat.le_refl _
  case hyphenated =>
    intro site member
    rw [sites] at member
    rw [nodes]
    rcases List.mem_append.mp member with earlier | last
    · exact (sited_finalizePending sited site earlier).hyphenated
    rw [List.mem_singleton.mp last]
    change false = ((front ++ [.penalty 10000, .glue fill])[tape.nodes.length - 1]?).any _
    rw [length, List.getElem?_append_right (by omega)]
    simp [Node.isDiscretionary]
  case last =>
    refine ⟨lastBreak tape.nodes.length width, ?_, rfl, rfl⟩
    rw [sites]
    exact List.getLast?_concat

end Umber.Typeset
