import Umber.Typeset.Breakpoints

/-! Paragraph tapes: the breakpoints of a node list stand in order. -/

set_option autoImplicit false

namespace Umber.Typeset

open ExceptLib

structure Placed (seen : Nat) (positions : List Nat) : Prop where
  increasing : positions.Pairwise (· < ·)
  inside : ∀ position ∈ positions, 0 < position ∧ position ≤ seen

variable {seen more : Nat}

theorem Placed.mono {positions : List Nat} (placed : Placed seen positions) (le : seen ≤ more) :
    Placed more positions :=
  ⟨placed.increasing, fun position member =>
    ⟨(placed.inside position member).1, Nat.le_trans (placed.inside position member).2 le⟩⟩

theorem Placed.push {position : Nat} {positions : List Nat} (placed : Placed seen positions)
    (behind : ∀ earlier ∈ positions, earlier < position) (positive : 0 < position)
    (inside : position ≤ more) (le : seen ≤ more) : Placed more (positions ++ [position]) := by
  refine ⟨List.pairwise_append.mpr ⟨placed.increasing, List.pairwise_singleton .., ?_⟩, ?_⟩
  · intro earlier member last same
    rw [List.mem_singleton.mp same]
    exact behind earlier member
  intro other member
  rcases List.mem_append.mp member with earlier | last
  · exact (placed.mono le).inside other earlier
  rw [List.mem_singleton.mp last]
  exact ⟨positive, inside⟩

namespace LegalBreakpoints

variable {state : TypesetState} {params : LineBreakParams} {analyzer next : LegalBreakpoints}
  {index : Nat}

def positions (analyzer : LegalBreakpoints) : List Nat := analyzer.output.map (·.position)

theorem positions_finalizePending (position : Nat) :
    (analyzer.finalizePending position).positions = analyzer.positions := by
  unfold finalizePending positions
  split
  · rfl
  rename_i start _
  dsimp only
  rw [List.map_append, List.map_map]
  conv => rhs; rw [← List.take_append_drop start analyzer.output, List.map_append]
  rfl

theorem placed_push {awaits : Bool} {breakpoint : Breakpoint}
    (placed : Placed index analyzer.positions) (position : breakpoint.position = index + 1) :
    Placed (index + 1) (analyzer.push awaits breakpoint).positions := by
  unfold push positions
  dsimp only
  rw [List.map_append, List.map_singleton, position]
  exact placed.push (fun earlier member => Nat.lt_succ_of_le (placed.inside earlier member).2)
    (Nat.succ_pos _) (Nat.le_refl _) (Nat.le_succ _)

variable {previous following : Option Node} {node : Node}

section

variable (placed : Placed index analyzer.positions)
include placed

theorem placed_observeBreak {before : Widths}
    (observed : analyzer.observeBreak state params index before previous following node = .ok next) :
     Placed (index + 1) next.positions := by
  have kept := placed.mono (Nat.le_succ index)
  unfold observeBreak at observed
  split at observed
  · cases observed
    exact placed_push placed rfl
  cases node with
  | penalty value =>
    dsimp only at observed
    split at observed
    · cases observed
      exact placed_push placed rfl
    cases observed
    exact kept
  | disc pre post replace =>
    obtain ⟨addWidth, _, observed⟩ := bind_eq_ok.mp observed
    obtain ⟨nextWidth, _, observed⟩ := bind_eq_ok.mp observed
    cases pure_eq_ok.mp observed
    exact placed_push placed rfl
  | mathOff width =>
    dsimp only at observed
    split at observed
    · cases observed
      exact placed_push placed rfl
    cases observed
    exact kept
  | mathOn width =>
    cases observed
    exact kept
  | _ =>
    cases observed
    exact kept

theorem placed_observeNode
    (observed : analyzer.observeNode state params index previous following node = .ok next) :
    Placed (index + 1) next.positions := by
  obtain ⟨width, _, observed⟩ := bind_eq_ok.mp observed
  refine placed_observeBreak ?_ observed
  unfold positions
  dsimp only
  split
  · exact placed
  have same := @positions_finalizePending analyzer index
  unfold positions at same
  rw [same]
  exact placed

theorem placed_observeNodes {nodes : List Node}
    (observed : analyzer.observeNodes state params index previous nodes = .ok next) :
    Placed (index + nodes.length) next.positions := by
  induction nodes generalizing analyzer index previous with
  | nil =>
    cases observed
    exact placed
  | cons node rest ih => ?_
  obtain ⟨between, observing, observed⟩ := bind_eq_ok.mp observed
  rw [List.length_cons, Nat.add_comm rest.length, ← Nat.add_assoc]
  exact ih (placed_observeNode placed observing) observed

end

theorem placed_finish {length : Nat} (placed : Placed length analyzer.positions) :
    (analyzer.finish length).Pairwise (fun left right => left.position < right.position) ∧
      (0 < length → ∀ site ∈ analyzer.finish length, 0 < site.position) := by
  have same := @positions_finalizePending analyzer length
  rw [← same] at placed
  have ordered : (analyzer.finalizePending length).output.Pairwise
      (fun left right => left.position < right.position) := List.pairwise_map.mp placed.increasing
  have positive : ∀ site ∈ (analyzer.finalizePending length).output, 0 < site.position :=
    fun site member => (placed.inside _ (List.mem_map_of_mem member)).1
  unfold finish
  dsimp only
  split
  · rename_i last
    refine ⟨List.pairwise_append.mpr ⟨ordered, List.pairwise_singleton .., ?_⟩, ?_⟩
    · intro site member final same
      rw [List.mem_singleton.mp same]
      rcases List.eq_nil_or_concat (analyzer.finalizePending length).output with
        empty | ⟨earlier, end_, shape⟩
      · rw [empty] at member
        cases member
      rw [shape] at last member ordered
      simp only [List.concat_eq_append, List.getLast?_append, List.getLast?_singleton,
        Option.some_or, Option.all_some, decide_eq_true_eq] at last
      rw [List.concat_eq_append] at member ordered
      rcases List.mem_append.mp member with before | final
      · exact Nat.lt_trans ((List.pairwise_append.mp ordered).2.2 site before end_
          List.mem_cons_self) last
      rw [List.mem_singleton.mp final]
      exact last
    intro nonempty site member
    rcases List.mem_append.mp member with earlier | final
    · exact positive site earlier
    rw [List.mem_singleton.mp final]
    exact nonempty
  · exact ⟨ordered, fun _ => positive⟩

end LegalBreakpoints

structure ParagraphTape where
  nodes : List Node
  breakSites : List Breakpoint
  ordered : breakSites.Pairwise fun left right => left.position < right.position
  positive : nodes ≠ [] → ∀ site ∈ breakSites, 0 < site.position

theorem LegalBreakpoints.finish_placed {state : TypesetState} {params : LineBreakParams}
    {nodes : List Node} {analyzer : LegalBreakpoints}
    (observed : LegalBreakpoints.new.observeNodes state params 0 none nodes = .ok analyzer) :
    (analyzer.finish nodes.length).Pairwise (fun left right => left.position < right.position) ∧
      (nodes ≠ [] → ∀ site ∈ analyzer.finish nodes.length, 0 < site.position) := by
  have placed := placed_observeNodes
    (show Placed 0 LegalBreakpoints.new.positions from ⟨.nil, nofun⟩)
    observed
  rw [Nat.zero_add] at placed
  obtain ⟨ordered, positive⟩ := placed_finish placed
  exact ⟨ordered, fun some => positive (List.length_pos_iff.mpr some)⟩

def ParagraphTape.analyze (state : TypesetState) (nodes : List Node) (params : LineBreakParams) :
    Checked ParagraphTape :=
  match observed : LegalBreakpoints.new.observeNodes state params 0 none nodes with
  | .error panic => .error panic
  | .ok analyzer =>
    .ok
      { nodes
        breakSites := analyzer.finish nodes.length
        ordered := (LegalBreakpoints.finish_placed observed).1
        positive := (LegalBreakpoints.finish_placed observed).2 }

end Umber.Typeset
