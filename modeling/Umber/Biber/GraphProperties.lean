import Umber.Biber.Graph

/-! Resolving inheritance: the values an entry gets are those that its relationships determine,
whatever was resolved before and in whatever order the entries stand, and a cycle is reported. -/

set_option autoImplicit false

namespace Umber.Biber

variable {Location Value : Type}

/-! ## Fields -/

theorem field_pushField (entry : DraftEntry Location Value) (pushed : DraftField Location Value)
    (id : Text) : (entry.pushField pushed).field id =
      (entry.field id).or (if pushed.id = id then some pushed.value else none) := by
  unfold DraftEntry.field DraftEntry.pushField
  rw [List.find?_append]
  cases entry.fields.find? fun field => field.id = id with
  | some field => rfl
  | none => ?_
  rw [Option.none_or, List.find?_singleton]
  by_cases same : pushed.id = id
  · rw [if_pos same, if_pos (decide_eq_true same)]
    rfl
  rw [if_neg same, if_neg fun true_ => same (of_decide_eq_true true_)]
  rfl

section

variable (parent result : DraftEntry Location Value)
include parent

theorem inheritField_field (inherited : DraftField Location Value) (id : Text) :
    (inheritField parent result inherited).field id = (result.field id).or
        (if isRelationship id = true then none
        else if inherited.id = id then some inherited.value else none) := by
  unfold inheritField
  by_cases skips : isRelationship inherited.id ∨ (result.field inherited.id).isSome
  · rw [if_pos skips]
    cases own : result.field id with
    | some value => rfl
    | none => ?_
    by_cases same : inherited.id = id
    · rw [same, own] at skips
      rw [if_pos (skips.resolve_right Bool.false_ne_true)]
      rfl
    rw [if_neg same]
    cases isRelationship id <;> rfl
  rw [if_neg skips, field_pushField]
  by_cases same : inherited.id = id
  · rw [← same, if_neg fun relates => skips (.inl relates)]
  rw [if_neg same]
  cases isRelationship id <;> rfl

/-- A child that inherits from a parent has its own values, and those of the parent for the other
fields that pass on. -/
theorem inheritFrom_field (id : Text) :
    (inheritFrom parent result).field id =
      (result.field id).or (if isRelationship id = true then none else parent.field id) := by
  have folded : ∀ (fields : List (DraftField Location Value))
      (result : DraftEntry Location Value),
      (fields.foldl (inheritField parent) result).field id =
        (result.field id).or (if isRelationship id = true then none
          else (fields.find? fun field => field.id = id).map DraftField.value) := by
    intro fields
    induction fields with
    | nil =>
      intro result
      cases isRelationship id <;> exact (Option.or_none).symm
    | cons field fields smaller => ?_
    intro result
    rw [List.foldl_cons, smaller, inheritField_field, Option.or_assoc]
    refine congrArg _ ?_
    cases isRelationship id with
    | true => rfl
    | false => ?_
    rw [List.find?_cons]
    by_cases same : field.id = id
    · rw [if_pos same, decide_eq_true same]
      rfl
    rw [if_neg same, decide_eq_false same]
    rfl
  exact folded parent.fields result

/-- Inheriting keeps the child's name and fields, and adds others behind them. -/
theorem inheritFrom_keeps :
    (inheritFrom parent result).id = result.id ∧
      result.fields <+: (inheritFrom parent result).fields := by
  have folded : ∀ (fields : List (DraftField Location Value))
      (result : DraftEntry Location Value),
      (fields.foldl (inheritField parent) result).id = result.id ∧
        result.fields <+: (fields.foldl (inheritField parent) result).fields := by
    intro fields
    induction fields with
    | nil => exact fun result => ⟨rfl, List.prefix_refl _⟩
    | cons field fields smaller => ?_
    intro result
    obtain ⟨same, grown⟩ := smaller (inheritField parent result field)
    have step : (inheritField parent result field).id = result.id ∧
        result.fields <+: (inheritField parent result field).fields := by
      unfold inheritField
      split
      · exact ⟨rfl, List.prefix_refl _⟩
      · exact ⟨rfl, List.prefix_append _ _⟩
    exact ⟨same.trans step.1, step.2.trans grown⟩
  exact folded parent.fields result

end

/-! ## The index -/

section

variable {lowercase : Text → Text}
  {start position : Nat} {entries : List (DraftEntry Location Value)}
  {before index : List (Text × Nat)} {key : Text}
  (indexed : indexFrom lowercase start entries before = .ok index)
include indexed

theorem indexFrom_sound
    (found : index.lookup key = some position) : before.lookup key = some position ∨
      ∃ entry, start ≤ position ∧ entries[position - start]? = some entry ∧
        lowercase entry.id = key := by
  induction entries generalizing start before with
  | nil =>
    cases indexed
    exact .inl found
  | cons entry entries smaller => ?_
  unfold indexFrom at indexed
  by_cases taken : (before.lookup (lowercase entry.id)).isSome = true
  · rw [if_pos taken] at indexed
    cases indexed
  rw [if_neg taken] at indexed
  rcases smaller indexed with here | ⟨other, later, at_, same⟩
  · rw [List.lookup_cons] at here
    by_cases equal : key = lowercase entry.id
    · rw [beq_iff_eq.mpr equal] at here
      cases here
      exact .inr ⟨entry, Nat.le_refl _, by rw [Nat.sub_self]; rfl, equal.symm⟩
    rw [beq_eq_false_iff_ne.mpr equal] at here
    exact .inl here
  refine .inr ⟨other, Nat.le_of_succ_le later, ?_, same⟩
  have step : position - start = position - (start + 1) + 1 := by omega
  rw [step]
  exact at_

theorem indexFrom_keeps
    (found : before.lookup key = some position) : index.lookup key = some position := by
  induction entries generalizing start before with
  | nil =>
    cases indexed
    exact found
  | cons entry entries smaller => ?_
  unfold indexFrom at indexed
  by_cases taken : (before.lookup (lowercase entry.id)).isSome = true
  · rw [if_pos taken] at indexed
    cases indexed
  rw [if_neg taken] at indexed
  refine smaller indexed ?_
  have apart : key ≠ lowercase entry.id := by
    rintro rfl
    exact taken (found ▸ rfl)
  rw [List.lookup_cons, beq_eq_false_iff_ne.mpr apart]
  exact found

theorem indexFrom_complete
    {entry : DraftEntry Location Value} (found : entries[position]? = some entry) :
    index.lookup (lowercase entry.id) = some (start + position) := by
  induction entries generalizing start position before with
  | nil => cases found
  | cons first entries smaller => ?_
  unfold indexFrom at indexed
  by_cases taken : (before.lookup (lowercase first.id)).isSome = true
  · rw [if_pos taken] at indexed
    cases indexed
  rw [if_neg taken] at indexed
  cases position with
  | zero =>
    cases found
    refine indexFrom_keeps indexed ?_
    rw [List.lookup_cons, beq_self_eq_true]
    rfl
  | succ position => ?_
  have later := smaller indexed found
  rw [Nat.add_right_comm] at later
  exact later

end

variable {position : Nat}

theorem Graph.indexed_inside (graph : Graph Location Value) {key : Text}
    (found : graph.index.lookup key = some position) :
    ∃ entry, graph.entries[position]? = some entry ∧ graph.lowercase entry.id = key := by
  rcases indexFrom_sound graph.indexed found with nothing | ⟨entry, _, at_, same⟩
  · cases nothing
  · exact ⟨entry, at_, same⟩

theorem Graph.resolveId_inside (graph : Graph Location Value) {id : Text}
    (found : graph.resolveId id = some position) :
    ∃ entry, graph.entries[position]? = some entry := by
  unfold resolveId at found
  cases direct : graph.index.lookup (graph.lowercase id) with
  | some here =>
    rw [direct] at found
    cases found
    obtain ⟨entry, at_, _⟩ := graph.indexed_inside direct
    exact ⟨entry, at_⟩
  | none => ?_
  rw [direct] at found
  cases named : graph.aliases.lookup (graph.lowercase id) with
  | none =>
    rw [named] at found
    cases found
  | some target => ?_
  rw [named] at found
  obtain ⟨entry, at_, _⟩ := graph.indexed_inside found
  exact ⟨entry, at_⟩

/-! ## Runs that end well -/

def Graph.positions (graph : Graph Location Value) (parents : List (Text × Text)) : List Nat :=
  parents.filterMap fun parent => graph.resolveId parent.2

def Graph.hierarchy (graph : Graph Location Value) : Hierarchy Nat Text (DraftValue Value) where
  parents position :=
    match graph.entries[position]? with
    | none => []
    | some entry => graph.positions (graph.parentsOf entry)
  own position id := (graph.entries[position]?).bind fun entry => entry.field id
  passes id := !isRelationship id

inductive Graph.ParentsRan (graph : Graph Location Value)
    (resolveAt : Nat → Inheritance Location Value →
      Outcome Location Value (DraftEntry Location Value)) :
    List (Text × Text) → DraftEntry Location Value → Inheritance Location Value →
      DraftEntry Location Value → Inheritance Location Value → Prop where
  | done {result : DraftEntry Location Value} {state : Inheritance Location Value} :
      ParentsRan graph resolveAt [] result state result state
  | missing {relationship parent : Text} {parents : List (Text × Text)}
      {result final : DraftEntry Location Value} {state after : Inheritance Location Value}
      (diagnostic : BibDiagnostic) (nowhere : graph.resolveId parent = none)
      (rest : ParentsRan graph resolveAt parents result
        { state with diagnostics := state.diagnostics ++ [diagnostic] } final after) :
      ParentsRan graph resolveAt ((relationship, parent) :: parents) result state final after
  | parent {relationship parent : Text} {parents : List (Text × Text)} {position : Nat}
      {result final entry : DraftEntry Location Value}
      {state between after : Inheritance Location Value}
      (there : graph.resolveId parent = some position)
      (resolved : resolveAt position state = (.ok entry, between))
      (rest : ParentsRan graph resolveAt parents (inheritFrom entry result) between final after) :
      ParentsRan graph resolveAt ((relationship, parent) :: parents) result state final after

section

variable {graph : Graph Location Value}
  {state after : Inheritance Location Value} {limits : GraphLimits}
  {diagnostic : BibDiagnostic}

theorem Inheritance.pushDiagnostic_ok
    (pushed : state.pushDiagnostic limits diagnostic = (.ok (), after)) :
    after = { state with diagnostics := state.diagnostics ++ [diagnostic] } := by
  unfold Inheritance.pushDiagnostic at pushed
  by_cases full : state.diagnostics.length ≥ limits.maxDiagnostics
  · rw [if_pos full] at pushed
    cases pushed
  rw [if_neg full] at pushed
  cases pushed
  rfl

variable {resolveAt : Nat → Inheritance Location Value → Outcome Location Value (DraftEntry Location Value)}
  {child result final : DraftEntry Location Value}

theorem Graph.resolveParents_ok {parents : List (Text × Text)}
    (ran : graph.resolveParents resolveAt child parents result state = (.ok final, after)) :
    graph.ParentsRan resolveAt parents result state final after := by
  induction parents generalizing result state with
  | nil =>
    cases ran
    exact .done
  | cons named parents smaller => ?_
  obtain ⟨relationship, parent⟩ := named
  unfold resolveParents at ran
  cases found : graph.resolveId parent with
  | none =>
    rw [found] at ran
    dsimp only at ran
    cases pushed : state.pushDiagnostic graph.limits (missingParent child relationship parent) with
    | mk outcome next => ?_
    rw [pushed] at ran
    cases outcome with
    | error problem => cases ran
    | ok done =>
      rw [Inheritance.pushDiagnostic_ok pushed] at ran
      exact .missing _ found (smaller ran)
  | some position => ?_
  rw [found] at ran
  dsimp only at ran
  cases resolved : resolveAt position state with
  | mk outcome next => ?_
  rw [resolved] at ran
  cases outcome with
  | error problem => cases ran
  | ok entry => exact .parent found resolved (smaller ran)

inductive Graph.Ran (graph : Graph Location Value) (room position : Nat)
    (state : Inheritance Location Value) :
    DraftEntry Location Value → Inheritance Location Value → Prop where
  | known {entry : DraftEntry Location Value} (found : (position, entry) ∈ state.memo) :
      Ran graph room position state entry state
  | circular {entry : DraftEntry Location Value} {ids : List Text}
      (at_ : graph.entries[position]? = some entry) (stacked : position ∈ state.stack) :
      Ran graph room position state entry
        { state with diagnostics := state.diagnostics ++ [Biber.circular ids entry.id] }
  | inherited {entry result : DraftEntry Location Value} {after : Inheritance Location Value}
      {less : Nat} (same : room = less + 1) (at_ : graph.entries[position]? = some entry)
      (fresh : position ∉ state.stack)
      (ran : graph.ParentsRan (graph.resolve less) (graph.parentsOf entry) entry
        { state with stack := state.stack ++ [position] } result after) :
      Ran graph room position state result
        { after with stack := after.stack.dropLast, memo := (position, result) :: after.memo }

theorem mem_of_lookup {Key Kept : Type} [BEq Key] [LawfulBEq Key] {key : Key} {kept : Kept}
    {pairs : List (Key × Kept)} (found : pairs.lookup key = some kept) : (key, kept) ∈ pairs := by
  obtain ⟨before, later, rfl, _⟩ := List.lookup_eq_some_iff.mp found
  exact List.mem_append_right _ List.mem_cons_self

variable {room position : Nat}

theorem Graph.resolve_ok (ran : graph.resolve room position state = (.ok result, after)) :
    graph.Ran room position state result after := by
  cases remembered : state.memo.lookup position with
  | some entry =>
    have same : graph.resolve room position state = (.ok entry, state) := by
      cases room <;> (unfold resolve; rw [remembered])
    rw [same] at ran
    cases ran
    exact .known (mem_of_lookup remembered)
  | none => ?_
  cases room with
  | zero =>
    unfold resolve at ran
    rw [remembered] at ran
    cases ran
  | succ room => ?_
  unfold resolve at ran
  rw [remembered] at ran
  dsimp only at ran
  cases at_ : graph.entries[position]? with
  | none =>
    rw [at_] at ran
    cases ran
  | some entry => ?_
  rw [at_] at ran
  dsimp only at ran
  by_cases stacked : position ∈ state.stack
  · rw [if_pos stacked] at ran
    cases pushed : state.pushDiagnostic graph.limits (Biber.circular
        (graph.ids (state.stack.dropWhile fun other => other ≠ position))
        entry.id) with
    | mk outcome next => ?_
    rw [pushed] at ran
    cases outcome with
    | error problem => cases ran
    | ok done => ?_
    cases ran
    rw [Inheritance.pushDiagnostic_ok pushed]
    exact .circular at_ stacked
  rw [if_neg stacked] at ran
  cases inherited : graph.resolveParents (graph.resolve room) entry
      (graph.parentsOf entry) entry
      { state with stack := state.stack ++ [position] } with
  | mk outcome next => ?_
  rw [inherited] at ran
  cases outcome with
  | error problem => cases ran
  | ok final =>
    cases ran
    exact .inherited rfl at_ stacked (resolveParents_ok inherited)

/-! ## The stack -/

theorem Graph.ParentsRan.stack
    (step : ∀ position state entry after, resolveAt position state = (.ok entry, after) →
      after.stack = state.stack) {parents : List (Text × Text)}
    (ran : graph.ParentsRan resolveAt parents result state final after) :
    after.stack = state.stack := by
  induction ran with
  | done => rfl
  | missing diagnostic nowhere rest smaller => exact smaller
  | parent there resolved rest smaller => exact smaller.trans (step _ _ _ _ resolved)

/-- A position that is resolved leaves the stack as it was. -/
theorem Graph.resolve_stack (ran : graph.resolve room position state = (.ok result, after)) :
    after.stack = state.stack := by
  induction room generalizing position state after result with
  | zero =>
    cases resolve_ok ran with
    | known found => rfl
    | circular at_ stacked => rfl
    | inherited same => cases same
  | succ room smaller => ?_
  cases resolve_ok ran with
  | known found => rfl
  | circular at_ stacked => rfl
  | inherited same at_ fresh ran => ?_
  cases same
  have below := ran.stack fun _ _ _ _ => smaller
  dsimp only
  rw [below]
  exact List.dropLast_concat

/-! ## The values -/

/-- What an accessible position gives: its entry's name and fields first, and the values that are
inherited. -/
structure Graph.Gives (graph : Graph Location Value)
    (values : Nat → Text → Option (DraftValue Value)) (position : Nat)
    (result : DraftEntry Location Value) : Prop where
  values : ∀ id, result.field id = values position id
  own : ∃ entry, graph.entries[position]? = some entry ∧ result.id = entry.id ∧
    entry.fields <+: result.fields

def Graph.Sound (graph : Graph Location Value)
    (values : Nat → Text → Option (DraftValue Value)) (state : Inheritance Location Value) : Prop :=
  ∀ known ∈ state.memo, Acc graph.hierarchy.Parent known.1 → graph.Gives values known.1 known.2

/-- The entries of the stack inherit from a position, not the other way round. -/
def Graph.Above (graph : Graph Location Value) (position : Nat) (stack : List Nat) : Prop :=
  ∀ child ∈ stack, Relation.TransGen graph.hierarchy.Parent position child

variable {entry : DraftEntry Location Value}

theorem Graph.hierarchy_parents (at_ : graph.entries[position]? = some entry) :
    graph.hierarchy.parents position = graph.positions (graph.parentsOf entry) := by
  unfold hierarchy
  dsimp only
  rw [at_]

variable {relationship : Text}

theorem Graph.positions_missing {parent : Text} {parents : List (Text × Text)}
    (nowhere : graph.resolveId parent = none) :
    graph.positions ((relationship, parent) :: parents) = graph.positions parents :=
  List.filterMap_cons_none nowhere

theorem Graph.positions_there {parent : Text} {parents : List (Text × Text)}
    (there : graph.resolveId parent = some position) :
    graph.positions ((relationship, parent) :: parents) = position :: graph.positions parents :=
  List.filterMap_cons_some there

theorem Graph.Above.parent {position parent : Nat} {stack : List Nat}
    (above : graph.Above position stack) (inherits : graph.hierarchy.Parent parent position) :
    graph.Above parent (stack ++ [position]) := by
  intro child member
  rcases List.mem_append.mp member with earlier | here
  · exact .trans (.single inherits) (above child earlier)
  rw [List.mem_singleton.mp here]
  exact .single inherits

variable {values : Nat → Text → Option (DraftValue Value)}

/-- Parents that give their values, each in turn, give the first ones to the child. -/
theorem Graph.ParentsRan.gives
    (step : ∀ position state entry after, Acc graph.hierarchy.Parent position →
      graph.Above position state.stack → graph.Sound values state →
      graph.resolve room position state = (.ok entry, after) →
        graph.Sound values after ∧ graph.Gives values position entry) {parents : List (Text × Text)}
    (ran : graph.ParentsRan (graph.resolve room) parents result state final after)
    (accessible : ∀ position ∈ graph.positions parents, Acc graph.hierarchy.Parent position)
    (above : ∀ position ∈ graph.positions parents, graph.Above position state.stack)
    (sound : graph.Sound values state) :
    graph.Sound values after ∧ final.id = result.id ∧ result.fields <+: final.fields ∧
      ∀ id, final.field id = (result.field id).or (if (!isRelationship id) = true then
        (graph.positions parents).findSome? fun position => values position id else none) := by
  induction ran with
  | done =>
    refine ⟨sound, rfl, List.prefix_refl _, fun id => ?_⟩
    cases isRelationship id <;> exact Option.or_none.symm
  | missing diagnostic nowhere rest smaller =>
    rw [positions_missing nowhere] at accessible above ⊢
    exact smaller accessible above sound
  | @parent relationship parent parents position result final entry state between after there
      resolved rest smaller =>
      rw [positions_there there] at accessible above ⊢
      obtain ⟨soundBetween, gives⟩ := step position state entry between
        (accessible _ List.mem_cons_self) (above _ List.mem_cons_self) sound resolved
      obtain ⟨soundAfter, sameId, grown, fields⟩ := smaller
        (fun other member => accessible other (List.mem_cons_of_mem _ member))
        (fun other member => by
          rw [resolve_stack resolved]
          exact above other (List.mem_cons_of_mem _ member))
        soundBetween
      obtain ⟨keptId, kept⟩ := inheritFrom_keeps entry result
      refine ⟨soundAfter, sameId.trans keptId, kept.trans grown, fun id => ?_⟩
      rw [fields id, inheritFrom_field, Option.or_assoc, gives.values id, List.findSome?_cons]
      refine congrArg _ ?_
      cases isRelationship id with
      | true => rfl
      | false =>
        cases values position id <;> rfl

theorem Graph.resolve_gives (inherits : graph.hierarchy.Inherits values)
    (accessible : Acc graph.hierarchy.Parent position) (above : graph.Above position state.stack)
    (sound : graph.Sound values state)
    (ran : graph.resolve room position state = (.ok result, after)) :
    graph.Sound values after ∧ graph.Gives values position result := by
  induction room generalizing position state after result with
  | zero =>
    cases resolve_ok ran with
    | known found => exact ⟨sound, sound _ found accessible⟩
    | circular at_ stacked =>
      exact absurd (above position stacked) (Hierarchy.not_cycle_of_acc accessible)
    | inherited same => cases same
  | succ room smaller => ?_
  cases resolve_ok ran with
  | known found => exact ⟨sound, sound _ found accessible⟩
  | circular at_ stacked =>
    exact absurd (above position stacked) (Hierarchy.not_cycle_of_acc accessible)
  | @inherited entry result between less same at_ fresh ran => ?_
  cases same
  have parents := hierarchy_parents at_
  have inherited : ∀ parent ∈ graph.positions (graph.parentsOf entry),
      graph.hierarchy.Parent parent position := by
    intro parent member
    rw [Hierarchy.Parent, parents]
    exact member
  obtain ⟨soundBetween, sameId, grown, fields⟩ :=
    ran.gives (fun _ _ _ _ reach up known resolved => smaller reach up known resolved)
      (fun parent member => accessible.inv (inherited parent member))
      (fun parent member => above.parent (inherited parent member)) sound
  have gives : graph.Gives values position result := by
    refine ⟨fun id => ?_, entry, at_, sameId, grown⟩
    rw [fields id, inherits position id, parents]
    unfold hierarchy
    dsimp only
    rw [at_]
    rfl
  refine ⟨fun known member reach => ?_, gives⟩
  rcases List.mem_cons.mp member with rfl | earlier
  · exact gives
  · exact soundBetween known earlier reach

/-! ## Cycles -/

def Inheritance.Reported (state : Inheritance Location Value) : Prop :=
  ∃ diagnostic ∈ state.diagnostics, diagnostic.code = "CIRCULAR_INHERITANCE"

/-- As long as no cycle is reported, the memo has accessible positions only. -/
def Graph.Watched (graph : Graph Location Value) (state : Inheritance Location Value) : Prop :=
  state.Reported ∨ ∀ known ∈ state.memo, Acc graph.hierarchy.Parent known.1

theorem Inheritance.Reported.push (reported : state.Reported) (diagnostic : BibDiagnostic) :
    ({ state with diagnostics := state.diagnostics ++ [diagnostic] } :
      Inheritance Location Value).Reported := by
  obtain ⟨found, member, code⟩ := reported
  exact ⟨found, List.mem_append_left _ member, code⟩

theorem Inheritance.Reported.circular (state : Inheritance Location Value) (ids : List Text)
    (entry : Text) :
    ({ state with diagnostics := state.diagnostics ++ [Biber.circular ids entry] } :
      Inheritance Location Value).Reported :=
  ⟨Biber.circular ids entry, List.mem_append_right _ List.mem_cons_self, rfl⟩

theorem Graph.ParentsRan.watched (step : ∀ position state entry after, graph.Watched state →
      graph.resolve room position state = (.ok entry, after) →
        (state.Reported → after.Reported) ∧ graph.Watched after ∧
          (after.Reported ∨ Acc graph.hierarchy.Parent position)) {parents : List (Text × Text)}
    (ran : graph.ParentsRan (graph.resolve room) parents result state final after)
    (watched : graph.Watched state) : (state.Reported → after.Reported) ∧ graph.Watched after ∧
      (after.Reported ∨
        ∀ position ∈ graph.positions parents, Acc graph.hierarchy.Parent position) := by
  induction ran with
  | done => exact ⟨id, watched, .inr fun position member => absurd member List.not_mem_nil⟩
  | missing diagnostic nowhere rest smaller =>
    rw [positions_missing nowhere]
    obtain ⟨later, watchedAfter, ends⟩ := smaller (watched.imp (·.push diagnostic) id)
    exact ⟨fun reported => later (reported.push diagnostic), watchedAfter, ends⟩
  | @parent relationship parent parents position result final entry state between after there
      resolved rest smaller =>
      rw [positions_there there]
      obtain ⟨first, watchedBetween, here⟩ := step position state entry between watched resolved
      obtain ⟨later, watchedAfter, ends⟩ := smaller watchedBetween
      refine ⟨fun reported => later (first reported), watchedAfter, ?_⟩
      rcases here with reported | accessible
      · exact .inl (later reported)
      refine ends.imp_right fun others => ?_
      exact List.forall_mem_cons.mpr ⟨accessible, others⟩

/-- A position that is resolved is accessible, or a cycle has been reported. -/
theorem Graph.resolve_watched (watched : graph.Watched state)
    (ran : graph.resolve room position state = (.ok result, after)) :
    (state.Reported → after.Reported) ∧ graph.Watched after ∧
      (after.Reported ∨ Acc graph.hierarchy.Parent position) := by
  induction room generalizing position state after result with
  | zero =>
    cases resolve_ok ran with
    | known found => exact ⟨id, watched, watched.imp_right fun known => known _ found⟩
    | @circular _ ids at_ stacked =>
      have reported := Inheritance.Reported.circular state ids result.id
      exact ⟨fun _ => reported, .inl reported, .inl reported⟩
    | inherited same => cases same
  | succ room smaller => ?_
  cases resolve_ok ran with
  | known found => exact ⟨id, watched, watched.imp_right fun known => known _ found⟩
  | @circular _ ids at_ stacked =>
    have reported := Inheritance.Reported.circular state ids result.id
    exact ⟨fun _ => reported, .inl reported, .inl reported⟩
  | @inherited entry result between less same at_ fresh ran => ?_
  cases same
  obtain ⟨later, watchedBetween, ends⟩ :=
    ran.watched (fun _ _ _ _ sees resolved => smaller sees resolved) watched
  have accessible : between.Reported ∨ Acc graph.hierarchy.Parent position := by
    refine ends.imp_right fun parents => ⟨_, fun parent member => parents parent ?_⟩
    rw [Hierarchy.Parent, hierarchy_parents at_] at member
    exact member
  refine ⟨later, ?_, accessible⟩
  rcases watchedBetween with reported | known
  · exact .inl reported
  refine accessible.imp_right fun here => ?_
  exact List.forall_mem_cons.mpr ⟨here, known⟩

/-! ## Errors -/

variable {problem : GraphError}

theorem Inheritance.pushDiagnostic_error
    (pushed : state.pushDiagnostic limits diagnostic = (.error problem, after)) :
    problem = .limit "diagnostic limit exceeded" := by
  unfold Inheritance.pushDiagnostic at pushed
  by_cases full : state.diagnostics.length ≥ limits.maxDiagnostics
  · rw [if_pos full] at pushed
    cases pushed
    rfl
  rw [if_neg full] at pushed
  cases pushed

theorem Graph.resolveParents_error {allowed : GraphError → Prop}
    {fits : Nat → List Nat → Prop} (full : allowed (.limit "diagnostic limit exceeded"))
    {parents : List (Text × Text)} (step : ∀ position ∈ graph.positions parents,
      ∀ (state after : Inheritance Location Value) (problem : GraphError),
        fits position state.stack →
        graph.resolve room position state = (.error problem, after) → allowed problem)
    (holds : ∀ position ∈ graph.positions parents, fits position state.stack)
    (ran : graph.resolveParents (graph.resolve room) child parents result state =
      (.error problem, after)) : allowed problem := by
  induction parents generalizing result state with
  | nil => cases ran
  | cons named parents smaller => ?_
  obtain ⟨relationship, parent⟩ := named
  unfold resolveParents at ran
  cases found : graph.resolveId parent with
  | none =>
    rw [found] at ran
    dsimp only at ran
    rw [positions_missing found] at step holds
    cases pushed : state.pushDiagnostic graph.limits (missingParent child relationship parent) with
    | mk outcome next => ?_
    rw [pushed] at ran
    cases outcome with
    | error other =>
      cases ran
      exact Inheritance.pushDiagnostic_error pushed ▸ full
    | ok done => ?_
    refine smaller step ?_ ran
    rw [Inheritance.pushDiagnostic_ok pushed]
    exact holds
  | some position => ?_
  rw [found] at ran
  dsimp only at ran
  rw [positions_there found] at step holds
  cases resolved : graph.resolve room position state with
  | mk outcome next => ?_
  rw [resolved] at ran
  cases outcome with
  | error other =>
    cases ran
    exact step position List.mem_cons_self _ _ _ (holds _ List.mem_cons_self) resolved
  | ok entry => ?_
  refine smaller (fun other member => step other (List.mem_cons_of_mem _ member)) ?_ ran
  rw [resolve_stack resolved]
  exact fun other member => holds other (List.mem_cons_of_mem _ member)

/-- What the errors of a resolve can be: the diagnostics exceed their limit, or the room for a
position and its stack, which an invariant follows through the relationships, has an end. -/
theorem Graph.resolve_error (allowed : GraphError → Prop) (fits : Nat → Nat → List Nat → Prop)
    (full : allowed (.limit "diagnostic limit exceeded"))
    (ends : ∀ position stack, fits 0 position stack →
      allowed (.limit "inheritance depth limit exceeded"))
    (parent : ∀ {room position other : Nat} {stack : List Nat}, fits (room + 1) position stack →
      position ∉ stack → position < graph.entries.length →
      graph.hierarchy.Parent other position → fits room other (stack ++ [position]))
    (inside : ∃ entry, graph.entries[position]? = some entry)
    (holds : fits room position state.stack)
    (ran : graph.resolve room position state = (.error problem, after)) : allowed problem := by
  induction room generalizing position state after problem with
  | zero =>
    unfold resolve at ran
    cases remembered : state.memo.lookup position with
    | some known =>
      rw [remembered] at ran
      cases ran
    | none => ?_
    rw [remembered] at ran
    cases ran
    exact ends position _ holds
  | succ room smaller => ?_
  obtain ⟨entry, at_⟩ := inside
  unfold resolve at ran
  cases remembered : state.memo.lookup position with
  | some known =>
    rw [remembered] at ran
    cases ran
  | none => ?_
  rw [remembered] at ran
  dsimp only at ran
  rw [at_] at ran
  dsimp only at ran
  by_cases stacked : position ∈ state.stack
  · rw [if_pos stacked] at ran
    cases pushed : state.pushDiagnostic graph.limits (Biber.circular
        (graph.ids (state.stack.dropWhile fun other => other ≠ position)) entry.id) with
    | mk outcome next => ?_
    rw [pushed] at ran
    cases outcome with
    | ok done => cases ran
    | error other =>
      cases ran
      exact Inheritance.pushDiagnostic_error pushed ▸ full
  rw [if_neg stacked] at ran
  have follows : ∀ other ∈ graph.positions (graph.parentsOf entry),
      fits room other (state.stack ++ [position]) := by
    intro other member
    refine parent holds stacked (List.getElem?_eq_some_iff.mp at_).1 ?_
    rw [Hierarchy.Parent, hierarchy_parents at_]
    exact member
  cases inherited : graph.resolveParents (graph.resolve room) entry
      (graph.parentsOf entry) entry
      { state with stack := state.stack ++ [position] } with
  | mk outcome next => ?_
  rw [inherited] at ran
  cases outcome with
  | ok final => cases ran
  | error other => ?_
  cases ran
  refine resolveParents_error full ?_ follows inherited
  intro other member state after problem up failed
  obtain ⟨named, _, found⟩ := List.mem_filterMap.mp member
  exact smaller (graph.resolveId_inside found) up failed

/-- Where no path is longer than the room, only the diagnostics can exceed a limit. -/
theorem Graph.resolve_error_within (within : graph.hierarchy.Within room position)
    (inside : ∃ entry, graph.entries[position]? = some entry)
    (ran : graph.resolve room position state = (.error problem, after)) :
    problem = .limit "diagnostic limit exceeded" := by
  refine resolve_error (fun problem => problem = .limit "diagnostic limit exceeded")
    (fun room position _ => graph.hierarchy.Within room position)
    rfl (fun _ _ none_ => ?_) (fun within _ _ member => ?_) inside within ran
  · cases none_
  cases within with
  | node parents => exact parents _ member

/-- In any graph the depth can exceed its limit only if there are as many entries. -/
theorem Graph.resolve_error_deep (inside : ∃ entry, graph.entries[position]? = some entry)
    (distinct : state.stack.Nodup) (among : ∀ other ∈ state.stack, other < graph.entries.length)
    (ran : graph.resolve room position state = (.error problem, after)) :
    problem = .limit "diagnostic limit exceeded" ∨
      problem = .limit "inheritance depth limit exceeded" ∧
        state.stack.length + room ≤ graph.entries.length := by
  refine resolve_error (fun problem => problem = .limit "diagnostic limit exceeded" ∨
      problem = .limit "inheritance depth limit exceeded" ∧
        state.stack.length + room ≤ graph.entries.length)
    (fun left _ stack => stack.Nodup ∧ (∀ other ∈ stack, other < graph.entries.length) ∧
      stack.length + left = state.stack.length + room)
    (.inl rfl) (fun _ stack fits => .inr ⟨rfl, ?_⟩) (fun fits fresh here _ => ?_) inside
    ⟨distinct, among, rfl⟩ ran
  · obtain ⟨distinct, among, deep⟩ := fits
    have count := distinct.length_le_of_subset fun other member =>
      List.mem_range.mpr (among other member)
    rw [List.length_range] at count
    exact deep ▸ count
  obtain ⟨distinct, among, deep⟩ := fits
  refine ⟨?_, fun other member => ?_, ?_⟩
  · refine List.nodup_append.mpr ⟨distinct, List.pairwise_singleton _ _, ?_⟩
    rintro other member _ same rfl
    exact fresh (List.mem_singleton.mp same ▸ member)
  · rcases List.mem_append.mp member with earlier | same
    · exact among other earlier
    · exact List.mem_singleton.mp same ▸ here
  rw [List.length_append, List.length_singleton, Nat.add_assoc, Nat.add_comm 1]
  exact deep

/-! ## Rearranged entries -/

structure Graph.Rearranged (first second : Graph Location Value) : Prop where
  entries : first.entries.Perm second.entries
  lowercase : first.lowercase = second.lowercase
  aliases : first.aliases = second.aliases
  inheritXref : first.inheritXref = second.inheritXref

def Graph.moved (first second : Graph Location Value) (position : Nat) : Nat :=
  match first.entries[position]? with
  | none => position
  | some entry => (second.index.lookup (second.lowercase entry.id)).getD position

theorem Graph.indexed_at (graph : Graph Location Value)
    (at_ : graph.entries[position]? = some entry) :
    graph.index.lookup (graph.lowercase entry.id) = some position := by
  have found := indexFrom_complete graph.indexed at_
  rw [Nat.zero_add] at found
  exact found

section

variable {first second : Graph Location Value}
  {position other : Nat} {entry : DraftEntry Location Value}

theorem Graph.moved_eq (at_ : first.entries[position]? = some entry)
    (there : second.entries[other]? = some entry) : first.moved second position = other := by
  unfold Graph.moved
  rw [at_]
  dsimp only
  rw [second.indexed_at there]
  rfl

section

variable (rearranged : first.Rearranged second)
include rearranged

theorem Graph.Rearranged.moved_at (at_ : first.entries[position]? = some entry) :
    second.entries[first.moved second position]? = some entry := by
  obtain ⟨other, inside, same⟩ := List.getElem_of_mem
    (rearranged.entries.subset (List.mem_of_getElem? at_))
  have there : second.entries[other]? = some entry := by rw [List.getElem?_eq_getElem inside, same]
  rw [Graph.moved_eq at_ there]
  exact there

theorem Graph.Rearranged.lookup (key : Text) :
    second.index.lookup key = (first.index.lookup key).map (first.moved second) := by
  cases found : first.index.lookup key with
  | some position =>
    obtain ⟨entry, at_, same⟩ := first.indexed_inside found
    have there := second.indexed_at (rearranged.moved_at at_)
    rw [← rearranged.lowercase, same] at there
    exact there
  | none => ?_
  cases there : second.index.lookup key with
  | none => rfl
  | some other => ?_
  obtain ⟨entry, at_, same⟩ := second.indexed_inside there
  obtain ⟨position, inside, here⟩ := List.getElem_of_mem
    (rearranged.entries.symm.subset (List.mem_of_getElem? at_))
  have known : first.entries[position]? = some entry := by
    rw [List.getElem?_eq_getElem inside, here]
  have indexed := first.indexed_at known
  rw [rearranged.lowercase, same, found] at indexed
  cases indexed

theorem Graph.Rearranged.resolveId (id : Text) :
    second.resolveId id = (first.resolveId id).map (first.moved second) := by
  unfold Graph.resolveId
  rw [← rearranged.lowercase, ← rearranged.aliases, rearranged.lookup]
  cases first.index.lookup (first.lowercase id) with
  | some position => rfl
  | none => ?_
  cases first.aliases.lookup (first.lowercase id) with
  | none => rfl
  | some target => exact rearranged.lookup _

theorem Graph.Rearranged.parents (at_ : first.entries[position]? = some entry) :
    second.hierarchy.parents (first.moved second position) =
      (first.hierarchy.parents position).map (first.moved second) := by
  rw [Graph.hierarchy_parents at_, Graph.hierarchy_parents (rearranged.moved_at at_)]
  have same : second.parentsOf entry = first.parentsOf entry := by
    unfold Graph.parentsOf Graph.relationshipOrder
    rw [rearranged.inheritXref]
  rw [same, Graph.positions, Graph.positions, List.map_filterMap]
  refine congrArg (List.filterMap · (first.parentsOf entry)) ?_
  funext parent
  exact rearranged.resolveId parent.2

theorem Graph.Rearranged.parents_valid (position : Nat)
    (valid : ∃ entry, first.entries[position]? = some entry) :
    second.hierarchy.parents (first.moved second position) =
      (first.hierarchy.parents position).map (first.moved second) := by
  obtain ⟨entry, at_⟩ := valid
  exact rearranged.parents at_

end

theorem Graph.closed (graph : Graph Location Value) (position : Nat)
    (valid : ∃ entry, graph.entries[position]? = some entry) :
    ∀ parent ∈ graph.hierarchy.parents position, ∃ entry, graph.entries[parent]? = some entry := by
  intro parent member
  obtain ⟨entry, at_⟩ := valid
  rw [hierarchy_parents at_] at member
  obtain ⟨named, _, found⟩ := List.mem_filterMap.mp member
  exact graph.resolveId_inside found

variable {depth : Nat}

/-- Inherited values do not depend on the order of the entries. -/
theorem Graph.Rearranged.inherited_eq (rearranged : first.Rearranged second)
    {values others : Nat → Text → Option (DraftValue Value)}
    (inherits : first.hierarchy.Inherits values) (othersInherit : second.hierarchy.Inherits others)
    (within : first.hierarchy.Within depth position) (at_ : first.entries[position]? = some entry)
    (there : second.entries[other]? = some entry) (id : Text) :
    others other id = values position id := by
  have own : ∀ node, (∃ entry, first.entries[node]? = some entry) →
      second.hierarchy.own (first.moved second node) = first.hierarchy.own node := by
    rintro node ⟨found, valid⟩
    unfold Graph.hierarchy
    dsimp only
    rw [valid, rearranged.moved_at valid]
  rw [← Graph.moved_eq at_ there]
  exact inherits.eq_map othersInherit first.closed rearranged.parents_valid own rfl within
    ⟨entry, at_⟩ id

theorem Graph.Rearranged.within (rearranged : first.Rearranged second)
    (within : first.hierarchy.Within depth position)
    (valid : ∃ entry, first.entries[position]? = some entry) :
    second.hierarchy.Within depth (first.moved second position) :=
  within.map first.closed rearranged.parents_valid valid

end

/-! ## Whole runs -/

inductive Graph.Reached (graph : Graph Location Value) : Inheritance Location Value → Prop where
  | new (diagnostics : List BibDiagnostic) : Reached graph (.new diagnostics)
  | resolved {position : Nat} {state after : Inheritance Location Value}
      {result : DraftEntry Location Value} (earlier : Reached graph state)
      (ran : graph.resolveEntry position state = (.ok result, after)) : Reached graph after

theorem Graph.Reached.stack (reached : graph.Reached state) : state.stack = [] := by
  induction reached with
  | new diagnostics => rfl
  | resolved earlier ran smaller => exact (resolve_stack ran).trans smaller

theorem Graph.Reached.watched (reached : graph.Reached state) : graph.Watched state := by
  induction reached with
  | new diagnostics => exact .inr fun known member => absurd member List.not_mem_nil
  | resolved earlier ran smaller => exact (resolve_watched smaller ran).2.1

theorem Graph.above_nil (graph : Graph Location Value) (position : Nat) :
    graph.Above position [] := fun _ member => absurd member List.not_mem_nil

theorem Graph.Reached.sound (inherits : graph.hierarchy.Inherits values)
    (accessible : ∀ position, Acc graph.hierarchy.Parent position) (reached : graph.Reached state) :
    graph.Sound values state := by
  induction reached with
  | new diagnostics => exact fun known member => absurd member List.not_mem_nil
  | @resolved position state after result earlier ran smaller => ?_
  refine (resolve_gives inherits (accessible position) ?_ smaller ran).1
  rw [earlier.stack]
  exact graph.above_nil position

def Graph.Acyclic (graph : Graph Location Value) (depth : Nat) : Prop :=
  ∀ position < graph.entries.length, graph.hierarchy.Within depth position

variable {depth : Nat}

theorem Graph.Acyclic.all (acyclic : graph.Acyclic depth) (some_ : 0 < graph.entries.length)
    (position : Nat) : graph.hierarchy.Within depth position := by
  by_cases inside : position < graph.entries.length
  · exact acyclic position inside
  cases acyclic 0 some_ with
  | node parents => ?_
  refine .node fun parent member => ?_
  unfold hierarchy at member
  dsimp only at member
  rw [List.getElem?_eq_none (Nat.le_of_not_lt inside)] at member
  exact absurd member List.not_mem_nil

theorem Graph.Rearranged.acyclic {second : Graph Location Value}
    (rearranged : graph.Rearranged second) (acyclic : graph.Acyclic depth) :
    second.Acyclic depth := by
  intro other inside
  have there := List.getElem?_eq_getElem inside
  obtain ⟨position, within, same⟩ := List.getElem_of_mem
    (rearranged.entries.symm.subset (List.getElem_mem inside))
  have at_ : graph.entries[position]? = some second.entries[other] := by
    rw [List.getElem?_eq_getElem within, same]
  rw [← moved_eq at_ there]
  exact rearranged.within (acyclic position within) ⟨_, at_⟩

end

/-! ## Two entries -/

def linked (id parent : String) (title : Nat) : DraftEntry Unit Nat :=
  { id := id.toList
    fields :=
      [{ id := "crossref".toList
         value := .keyList [parent.toList]
         stage := .normalized
         provenance := .datasource () },
        { id := ("title" ++ id).toList
          value := .other title
          stage := .normalized
          provenance := .datasource () }]
    source := () }

def twoEntries (parent : String) (maxInheritanceDepth : Nat) : Graph Unit Nat where
  lowercase := id
  entries := [linked "a" "b" 1, linked "b" parent 2]
  index := [("b".toList, 1), ("a".toList, 0)]
  aliases := []
  inheritXref := true
  limits := { maxInheritanceDepth, maxDiagnostics := 10 }
  indexed := rfl

end Umber.Biber
