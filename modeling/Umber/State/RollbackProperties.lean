import Umber.State.CandidateProperties
import Umber.State.Rollback

/-! A state inside an operation keeps the groups and the saves of the begin, and its lane
leads back to the cells of the begin. -/

set_option autoImplicit false

namespace Umber.State

open ExceptLib UndoLog SaveJournal

variable {R : References}

/-! ## Group marks -/

/-- The marks of one stack of groups, the innermost of which may have counted entries. -/
inductive Aged : List GroupMark → List GroupMark → Prop
  | nil : Aged [] []
  | cons {mark later : GroupMark} {outer : List GroupMark} :
      later.frame = mark.frame → later.start = mark.start → Aged (mark :: outer) (later :: outer)

namespace Aged

theorem refl (marks : List GroupMark) : Aged marks marks := by
  cases marks with
  | nil => exact .nil
  | cons mark outer => exact .cons rfl rfl

theorem length {marks later : List GroupMark} (aged : Aged marks later) :
    later.length = marks.length := by
  cases aged with
  | nil => rfl
  | cons frame start => rfl

theorem head {mark changed : GroupMark} {marks outer : List GroupMark}
    (aged : Aged marks (mark :: outer)) (frame : changed.frame = mark.frame)
    (start : changed.start = mark.start) : Aged marks (changed :: outer) := by
  cases aged with
  | cons sameFrame sameStart => exact .cons (frame.trans sameFrame) (start.trans sameStart)

end Aged

/-- The marks stand on those of an outer stack; the others start behind a position. -/
def Covers (outer : List GroupMark) (position : Nat) (marks : List GroupMark) : Prop :=
  ∃ inner base, marks = inner ++ base ∧ Aged outer base ∧ ∀ mark ∈ inner, position ≤ mark.start

namespace Covers

variable {outer marks : List GroupMark} {position : Nat}

theorem refl (marks : List GroupMark) (position : Nat) : Covers marks position marks :=
  ⟨[], marks, rfl, .refl marks, nofun⟩

theorem length_le (covers : Covers outer position marks) : outer.length ≤ marks.length := by
  obtain ⟨inner, base, rfl, aged, _⟩ := covers
  rw [List.length_append, aged.length]
  exact Nat.le_add_left _ _

theorem push {mark : GroupMark} (covers : Covers outer position marks)
    (behind : position ≤ mark.start) : Covers outer position (mark :: marks) := by
  obtain ⟨inner, base, rfl, aged, starts⟩ := covers
  refine ⟨mark :: inner, base, rfl, aged, ?_⟩
  intro other member
  rcases List.mem_cons.mp member with rfl | later
  · exact behind
  · exact starts other later

/-- A mark above the outer stack can be taken away. -/
theorem pop {mark : GroupMark} (covers : Covers outer position (mark :: marks))
    (above : outer.length < (mark :: marks).length) :
    position ≤ mark.start ∧ Covers outer position marks := by
  obtain ⟨inner, base, shape, aged, starts⟩ := covers
  cases inner with
  | nil =>
    rw [List.nil_append] at shape
    rw [shape, aged.length] at above
    exact absurd above (Nat.lt_irrefl _)
  | cons first rest => ?_
  obtain ⟨rfl, rfl⟩ := List.cons.inj shape
  exact ⟨starts mark List.mem_cons_self, rest, base, rfl, aged,
    fun other member => starts other (List.mem_cons_of_mem _ member)⟩

theorem head {mark changed : GroupMark} (covers : Covers outer position (mark :: marks))
    (frame : changed.frame = mark.frame) (start : changed.start = mark.start) :
    Covers outer position (changed :: marks) := by
  obtain ⟨inner, base, shape, aged, starts⟩ := covers
  cases inner with
  | nil =>
    rw [List.nil_append] at shape
    subst shape
    exact ⟨[], changed :: marks, rfl, aged.head frame start, nofun⟩
  | cons first rest => ?_
  obtain ⟨rfl, rfl⟩ := List.cons.inj shape
  refine ⟨changed :: rest, base, rfl, aged, ?_⟩
  intro other member
  rcases List.mem_cons.mp member with rfl | later
  · rw [start]
    exact starts mark List.mem_cons_self
  · exact starts other (List.mem_cons_of_mem _ later)

theorem countEntry (covers : Covers outer position marks) (index : Nat) (cell : StateCell) :
    Covers outer position (SaveJournal.countEntry marks index cell) := by
  cases marks with
  | nil => exact covers
  | cons mark rest => exact covers.head rfl rfl

/-- Popping groups down to a depth keeps what stands below it. -/
theorem popGroups {base sequence : List (JournalEntry R)} {depth : Nat}
    (covers : Covers outer base.length marks) (deep : outer.length ≤ depth)
    (kept : base <+: sequence) :
    Covers outer base.length (SaveJournal.popGroups depth sequence marks).2 ∧
      base <+: (SaveJournal.popGroups depth sequence marks).1 := by
  induction marks generalizing sequence with
  | nil => exact ⟨covers, kept⟩
  | cons mark rest ih => ?_
  unfold SaveJournal.popGroups
  split
  · rename_i above
    obtain ⟨behind, inner⟩ := covers.pop (Nat.lt_of_le_of_lt deep above)
    exact ih inner (List.prefix_take_iff.mpr ⟨kept, behind⟩)
  · exact ⟨covers, kept⟩

end Covers

namespace SaveJournal

variable {journal suffixed : SaveJournal R} {operation : StateOperation}

theorem rollbackGroupSuffix_covers {outer : List GroupMark} {base : List (JournalEntry R)}
    (rolledBack : journal.rollbackGroupSuffix operation = .ok suffixed)
    (covers : Covers outer base.length journal.activeGroups)
    (kept : base <+: journal.activeSequence) (deep : outer.length ≤ operation.groupDepth)
    (far : base.length ≤ operation.savePosition) :
    Covers outer base.length suffixed.activeGroups ∧ base <+: suffixed.activeSequence := by
  unfold rollbackGroupSuffix at rolledBack
  split at rolledBack
  · cases rolledBack
  dsimp only at rolledBack
  split at rolledBack
  · cases rolledBack
  obtain rfl := Except.ok.inj rolledBack
  obtain ⟨marks, sequence⟩ := covers.popGroups deep kept
  refine ⟨?_, List.prefix_take_iff.mpr ⟨sequence, far⟩⟩
  dsimp only
  cases popped : (popGroups operation.groupDepth journal.activeSequence journal.activeGroups).2 with
  | nil =>
    rw [popped] at marks
    exact marks
  | cons mark rest =>
    rw [popped] at marks
    exact marks.head rfl rfl

theorem rollbackGroupSuffix_transactionDepth
    (rolledBack : journal.rollbackGroupSuffix operation = .ok suffixed) :
    suffixed.transactionDepth = journal.transactionDepth := by
  unfold rollbackGroupSuffix at rolledBack
  split at rolledBack
  · cases rolledBack
  dsimp only at rolledBack
  split at rolledBack
  · cases rolledBack
  obtain rfl := Except.ok.inj rolledBack
  rfl

theorem recordMutation_operating {mutation : Mutation R} (open_ : journal.transactionDepth ≠ 0) :
    (journal.recordMutation mutation).transactionEntries =
      journal.transactionEntries ++ [mutation] := by
  rw [recordMutation_transactionEntries]
  unfold retainOperation
  rw [retainDelta_transactionDepth, if_pos open_, retainDelta_transactionEntries]

end SaveJournal

namespace DenseState

variable {start state next : DenseState R} {operation : StateOperation}
  {opens : List StateOperation}

/-! ## The operation lane -/

def displacedBy (mutation : Mutation R) : StateCell × (StateWord R × Nat) :=
  (mutation.cell, (mutation.before, mutation.beforeLevel))

theorem levelled_of_written {banks : Banks R} {journal : SaveJournal R} {cell : StateCell}
    {content : BankCell (StateWord R)} (written : Banks.Written state.banks banks cell content) :
    ({ state with banks, journal } : DenseState R).levelled =
      put state.levelled cell content.levelled := by
  funext other
  rw [levelled_written written]
  rfl

/-- A log of writable mutations can be undone, and rewinds the cells. -/
theorem undoEntries_rewinds {entries : List (Mutation R)}
    (ready : ∀ mutation ∈ entries, state.Ready mutation) :
    ∃ banks, state.undoEntries entries = .ok { state with banks } ∧
      ({ state with banks } : DenseState R).levelled =
        rewound (entries.reverse.map displacedBy) state.levelled ∧
      ∀ saved, state.Ready saved → ({ state with banks } : DenseState R).Ready saved := by
  induction entries generalizing state with
  | nil => exact ⟨state.banks, rfl, rfl, fun _ held => held⟩
  | cons mutation earlier ih => ?_
  obtain ⟨⟨content, found⟩, fits⟩ := ready mutation List.mem_cons_self
  obtain ⟨banks, writing, _⟩ := @Banks.writeCell_of_read R state.banks mutation.cell content
    { value := mutation.before, level := mutation.beforeLevel,
      saveSerial := state.journal.saveSerial } (Banks.contents_eq_some.mp found) fits
  have written := Banks.writeCell_written writing
  obtain ⟨last, undoing, values, kept⟩ := @ih { state with banks } (by
    intro other member
    exact (ready other (List.mem_cons_of_mem _ member)).written written)
  refine ⟨last, ?_, ?_, fun saved held => kept saved (held.written written)⟩
  · rw [undoEntries, writeCell, writing]
    exact undoing
  change ({ state with banks := last } : DenseState R).levelled = _ at values
  rw [values, List.reverse_cons, List.map_append, rewound_append, List.map_singleton,
    rewound_cons, rewound_nil]
  exact congrArg _ (levelled_of_written written)

/-- The lane of the open operations leads back to the cells of a state. -/
def Undoable (start state : DenseState R) : Prop :=
  ∃ log, state.journal.transactionEntries = start.journal.transactionEntries ++ log ∧
    (∀ mutation ∈ log, state.Ready mutation) ∧
    ∀ cell found, start.levelled cell = some found →
      rewound (log.map displacedBy) state.levelled cell = some found

namespace Undoable

theorem begun (same : next.journal.transactionEntries = start.journal.transactionEntries)
    (banks : next.banks = start.banks) : Undoable start next := by
  refine ⟨[], by rw [same, List.append_nil], nofun, ?_⟩
  intro cell found held
  rw [List.map_nil, rewound_nil, levelled, banks]
  exact held

variable (undoable : Undoable start state)
include undoable

theorem idle (same : next.journal.transactionEntries = state.journal.transactionEntries)
    (banks : next.banks = state.banks) : Undoable start next := by
  obtain ⟨log, entries, ready, values⟩ := undoable
  have cells : next.levelled = state.levelled := by
    funext cell
    rw [levelled, levelled, banks]
  refine ⟨log, same.trans entries, fun mutation member => ?_, ?_⟩
  · obtain ⟨⟨content, found⟩, fits⟩ := ready mutation member
    exact ⟨⟨content, by rw [banks]; exact found⟩, fits⟩
  rw [cells]
  exact values

/-- A write whose displaced content goes to the lane. -/
theorem write {cell : StateCell}
    {before content : BankCell (StateWord R)} {savedAt : Option Nat} {banks : Banks R}
    {journal : SaveJournal R} (representable : cell.Representable)
    (found : state.banks.contents cell = some before)
    (written : Banks.Written state.banks banks cell content)
    (recorded : journal.transactionEntries =
      state.journal.transactionEntries ++ [.new cell before savedAt]) :
    Undoable start { state with banks, journal } := by
  obtain ⟨log, entries, ready, values⟩ := undoable
  have named := Mutation.cell_new representable before savedAt
  refine ⟨log ++ [.new cell before savedAt], ?_, ?_, ?_⟩
  · dsimp only
    rw [recorded, entries, List.append_assoc]
  · intro mutation member
    rcases List.mem_append.mp member with earlier | last
    · exact (ready mutation earlier).written written
    rw [List.mem_singleton.mp last]
    refine Ready.written written ⟨⟨before, by rw [named]; exact found⟩, ?_⟩
    rw [named]
    exact Banks.readCell_fits (Banks.contents_eq_some.mp found)
  intro other kept held
  have displaced : displacedBy (.new cell before savedAt) = (cell, before.levelled) := by
    rw [displacedBy, named]
    rfl
  have live : state.levelled cell = some before.levelled := by
    rw [levelled, found]
    rfl
  rw [levelled_of_written written, List.map_append, List.map_singleton, displaced,
    rewound_concat_put _ live]
  exact values other kept held

theorem grow (grows : Grows state next) : Undoable start next := by
  obtain ⟨log, entries, ready, values⟩ := undoable
  obtain ⟨banks, rfl, grown⟩ := grows.grown
  refine ⟨log, entries, fun mutation member => ?_, fun cell found held => ?_⟩
  · obtain ⟨⟨content, contained⟩, fits⟩ := ready mutation member
    exact ⟨⟨content, grown.kept _ _ contained⟩, fits⟩
  refine rewound_mono (fun here => ?_) (values cell found held)
  obtain ⟨content, contained, rfl⟩ := Option.map_eq_some_iff.mp here
  exact Option.map_eq_some_iff.mpr ⟨content, grown.kept _ _ contained, rfl⟩

/-- A part of the lane can be undone, which shortens it. -/
theorem undo {position : Nat} (inner : start.journal.transactionEntries.length ≤ position) :
    ∃ banks, state.undoEntries (state.journal.transactionEntries.drop position).reverse =
        .ok { state with banks } ∧ ∀ (journal : SaveJournal R) (groups : List GroupFrame),
        journal.transactionEntries = state.journal.transactionEntries.take position →
          Undoable start { state with banks, journal, groups } := by
  obtain ⟨log, entries, ready, values⟩ := undoable
  have suffix : state.journal.transactionEntries.drop position =
      log.drop (position - start.journal.transactionEntries.length) := by
    rw [entries, List.drop_append, List.drop_eq_nil_of_le inner, List.nil_append]
  have kept : state.journal.transactionEntries.take position =
      start.journal.transactionEntries ++
        log.take (position - start.journal.transactionEntries.length) := by
    rw [entries, List.take_append, List.take_of_length_le inner]
  obtain ⟨banks, undoing, cells, still⟩ := @undoEntries_rewinds R state
    (state.journal.transactionEntries.drop position).reverse (by
      intro mutation member
      rw [suffix] at member
      exact ready mutation (List.mem_of_mem_drop (List.mem_reverse.mp member)))
  refine ⟨banks, undoing, ?_⟩
  intro journal groups cut
  refine ⟨log.take (position - start.journal.transactionEntries.length), cut.trans kept,
    fun mutation member => still mutation (ready mutation (List.mem_of_mem_take member)), ?_⟩
  intro cell found held
  change rewound _ ({ state with banks } : DenseState R).levelled cell = _
  rw [cells, List.reverse_reverse, suffix, ← rewound_append, ← List.map_append,
    List.take_append_drop]
  exact values cell found held

/-- With the lane of the begin, the cells are those of the begin. -/
theorem levelled (same : state.journal.transactionEntries = start.journal.transactionEntries)
    {cell : StateCell} {found : StateWord R × Nat} (held : start.levelled cell = some found) :
    state.levelled cell = some found := by
  obtain ⟨log, entries, _, values⟩ := undoable
  rw [same] at entries
  obtain rfl := List.self_eq_append_right.mp entries
  exact values cell found held

end Undoable

/-! ## Steps inside an operation -/

/-- A state inside an operation: the groups and the saves of the begin are still there, and
the lane of the operation leads back to its cells. -/
structure Inside (start state : DenseState R) : Prop where
  groups : start.groups <:+ state.groups
  paired : state.Paired
  position : state.journal.savePosition = state.journal.activeSequence.length
  sequence : start.journal.activeSequence <+: state.journal.activeSequence
  marks : Covers start.journal.activeGroups start.journal.activeSequence.length
    state.journal.activeGroups
  undoable : Undoable start state
  operating : start.journal.transactionDepth < state.journal.transactionDepth

structure Opened (start : DenseState R) (operation : StateOperation) : Prop where
  entries : start.journal.transactionEntries.length ≤ operation.transactionPosition
  groups : start.groups.length ≤ operation.groupDepth
  sequence : start.journal.activeSequence.length ≤ operation.savePosition

namespace Inside

variable (inside : Inside start state)
include inside

theorem open_ : state.journal.transactionDepth ≠ 0 :=
  Nat.ne_of_gt (Nat.zero_lt_of_lt inside.operating)

/-- A step that leaves the groups, the saves and the cells alone. -/
theorem idle {journal : SaveJournal R}
    (sequence : journal.activeSequence = state.journal.activeSequence)
    (marks : journal.activeGroups = state.journal.activeGroups)
    (position : journal.savePosition = state.journal.savePosition)
    (entries : journal.transactionEntries = state.journal.transactionEntries)
    (operating : start.journal.transactionDepth < journal.transactionDepth) :
    Inside start { state with journal } := by
  refine ⟨inside.groups, ?_, ?_, ?_, ?_, inside.undoable.idle entries rfl, operating⟩
  · have paired := inside.paired
    unfold Paired at paired ⊢
    rw [paired, ← marks]
  · dsimp only
    rw [position, sequence]
    exact inside.position
  · dsimp only
    rw [sequence]
    exact inside.sequence
  dsimp only
  rw [marks]
  exact inside.marks

theorem write {cell : StateCell}
    {before content : BankCell (StateWord R)} {banks : Banks R} (savedAt : Option Nat)
    (representable : cell.Representable) (found : state.banks.contents cell = some before)
    (written : Banks.Written state.banks banks cell content) : Inside start { state with
      banks, journal := state.journal.recordMutation (.new cell before savedAt) } := by
  have touched := recordMutation_touched representable before savedAt inside.position
  refine ⟨inside.groups, inside.paired.trans recordMutation_activeGroups.symm, touched.position,
    ?_, ?_, inside.undoable.write representable found written
      (recordMutation_operating inside.open_), ?_⟩
  · dsimp only
    cases savedAt with
    | none =>
      rw [(recordMutation_unsaved _ _ rfl).1]
      exact inside.sequence
    | some level =>
      rw [(recordMutation_saved _ _ rfl).1]
      exact inside.sequence.trans (List.prefix_append _ _)
  · dsimp only
    cases savedAt with
    | none =>
      rw [(recordMutation_unsaved _ _ rfl).2]
      exact inside.marks
    | some level =>
      rw [(recordMutation_saved _ _ rfl).2]
      exact inside.marks.countEntry _ _
  dsimp only
  rw [recordMutation_transactionDepth, retainDelta_transactionDepth]
  exact inside.operating

theorem assign {cell : StateCell} {value : StateWord R}
    {scope : AssignmentScope} (representable : cell.Representable)
    (assigned : state.assign cell value scope = .ok next) : Inside start next := by
  obtain ⟨before, banks, found, written, rfl⟩ := assign_eq_ok assigned
  have needed : state.journal.needsMutation before.saveSerial
      (state.savedLevel scope before.level) = true := by
    simp [SaveJournal.needsMutation, inside.open_]
  unfold assignedJournal
  dsimp only
  rw [if_pos needed]
  exact inside.write _ representable found written

theorem grow (grows : Grows state next) : Inside start next := by
  have undoable := inside.undoable.grow grows
  obtain ⟨banks, rfl, _⟩ := grows.grown
  exact ⟨inside.groups, inside.paired, inside.position, inside.sequence, inside.marks, undoable,
    inside.operating⟩

theorem beginGroup {kind : GroupKind} {line : Nat}
    (begun : state.beginGroup kind line = .ok next) : Inside start next := by
  obtain ⟨frame, _, _, _, rfl⟩ := beginGroup_eq_ok begun
  refine ⟨inside.groups.trans (List.suffix_cons _ _), ?_, ?_,
    inside.sequence.trans (List.prefix_append _ _), inside.marks.push inside.sequence.length_le,
    inside.undoable.idle rfl rfl, inside.operating⟩
  · have paired := inside.paired
    unfold Paired at paired ⊢
    simp only [SaveJournal.recordGroupEnter, List.length_cons, paired]
  · simp [SaveJournal.recordGroupEnter]

theorem restoreGroupMutation {saved : Mutation R}
    (restored : state.restoreGroupMutation saved = .ok next) :
    Inside start next ∧ next.groups = state.groups ∧
      next.journal.transactionDepth = state.journal.transactionDepth := by
  obtain ⟨current, reading, restored⟩ := bind_eq_ok.mp restored
  split at restored
  · cases pure_eq_ok.mp restored
    exact ⟨inside, rfl, rfl⟩
  obtain ⟨written, writing, restored⟩ := bind_eq_ok.mp restored
  obtain ⟨banks, storing, writing⟩ := bind_eq_ok.mp writing
  cases pure_eq_ok.mp writing
  cases pure_eq_ok.mp restored
  refine ⟨inside.write none saved.cell_representable (Banks.contents_eq_some.mpr reading)
    (Banks.writeCell_written storing), rfl, ?_⟩
  exact (recordMutation_transactionDepth _ _).trans (retainDelta_transactionDepth _ _)

theorem endGroup (paired : start.Paired) {kind : GroupKind}
    {boxes : BoxUnsave} (above : start.groups.length < state.groups.length)
    (ended : state.endGroup kind boxes = .ok next) : Inside start next ∧
      next.journal.transactionDepth = state.journal.transactionDepth := by
  obtain ⟨frame, _, unsaved⟩ := bind_eq_ok.mp ended
  obtain ⟨unwound, journal, ⟨walked, groups, depth⟩, exiting, rfl⟩ :=
    @unsave_keeps R _ _ (fun between => Inside start between ∧ between.groups = state.groups ∧
        between.journal.transactionDepth = state.journal.transactionDepth)
      (fun _ _ _ before restored => by
        obtain ⟨kept, same, depth⟩ := before.1.restoreGroupMutation restored
        exact ⟨kept, same.trans before.2.1, depth.trans before.2.2⟩)
      _ _ ⟨inside, rfl, rfl⟩ unsaved
  unfold SaveJournal.recordGroupExitWithRecords at exiting
  split at exiting
  · cases exiting
  rename_i group outer marked
  cases exiting
  have lengths := walked.paired
  have marks := walked.marks
  unfold Paired at lengths paired
  rw [marked] at marks lengths
  obtain ⟨behind, rest⟩ := marks.pop (by rw [← paired, ← lengths, groups]; exact above)
  refine ⟨⟨?_, ?_, rfl, List.prefix_take_iff.mpr ⟨walked.sequence, behind⟩, rest,
    walked.undoable.idle rfl rfl, walked.operating⟩, depth⟩
  · cases inner : unwound.groups with
    | nil =>
      rw [inner] at lengths
      cases lengths
    | cons frame rest =>
      have suffix := walked.groups
      rw [← groups, inner] at above
      rw [inner] at suffix
      rcases List.suffix_cons_iff.mp suffix with same | suffix
      · rw [same] at above
        exact absurd above (Nat.lt_irrefl _)
      · exact suffix
  unfold Paired
  rw [List.length_tail, lengths]
  rfl

/-- An operation that begins or rolls inside another one is deeper. -/
theorem opened {journal : SaveJournal R}
    (position : journal.savePosition = state.journal.savePosition) :
    Opened start (state.openOperation state.journal.transactionEntries.length journal) := by
  obtain ⟨log, entries, _⟩ := inside.undoable
  refine ⟨?_, inside.groups.length_le, ?_⟩
  · dsimp only [openOperation]
    rw [entries, List.length_append]
    exact Nat.le_add_right _ _
  dsimp only [openOperation]
  rw [position, inside.position]
  exact inside.sequence.length_le

/-- The rollback of an operation opened inside another one stays inside. -/
theorem rollback (paired : start.Paired) (opened : Opened start operation)
    (deep : start.journal.transactionDepth + 1 < state.journal.transactionDepth)
    (rolledBack : state.rollbackStateTransaction operation = .ok next) : Inside start next ∧
      next.journal.transactionDepth = state.journal.transactionDepth - 1 := by
  obtain ⟨banks, undoing, undoable⟩ := inside.undoable.undo opened.entries
  unfold rollbackStateTransaction at rolledBack
  dsimp only at rolledBack
  rw [undoing, ok_bind] at rolledBack
  obtain ⟨suffixed, suffix, rolledBack⟩ := bind_eq_ok.mp rolledBack
  obtain ⟨journal, finishing, rolledBack⟩ := bind_eq_ok.mp rolledBack
  cases pure_eq_ok.mp rolledBack
  obtain rfl := finishTransactionRollback_eq_ok finishing
  have depth := rollbackGroupSuffix_transactionDepth suffix
  obtain ⟨reaches, depths, _, _, _, entries, position⟩ := rollbackGroupSuffix_eq_ok suffix
  obtain ⟨marks, sequence⟩ := rollbackGroupSuffix_covers suffix inside.marks
    inside.sequence (Nat.le_trans (Nat.le_of_eq paired.symm) opened.groups) opened.sequence
  have lengths : state.groups.length = state.journal.activeGroups.length := inside.paired
  change operation.groupDepth ≤ state.journal.activeGroups.length at reaches
  change suffixed.transactionDepth = state.journal.transactionDepth at depth
  refine ⟨⟨?_, ?_, position, sequence, marks, undoable _ _ ?_, ?_⟩, ?_⟩
  · obtain ⟨inner, shape⟩ := inside.groups
    have count := congrArg List.length shape
    rw [List.length_append] at count
    have cut : state.groups.length - operation.groupDepth ≤ inner.length := by
      have groups := opened.groups
      omega
    dsimp only
    rw [← shape, List.drop_append_of_le_length (by rw [shape]; exact cut)]
    exact List.suffix_append _ _
  · unfold Paired
    dsimp only
    rw [depths, List.length_drop]
    omega
  · exact congrArg (List.take _) entries
  · dsimp only
    omega
  dsimp only
  rw [depth]

end Inside

/-! ## Runs inside an operation -/

theorem inside_begin (paired : start.Paired)
    (position : start.journal.savePosition = start.journal.activeSequence.length)
    (begun : start.beginStateTransaction = (operation, state)) : Inside start state ∧
      state.journal.transactionDepth = start.journal.transactionDepth + 1 := by
  cases begun
  exact ⟨⟨List.suffix_refl _, paired, position, List.prefix_rfl, .refl _ _, .begun rfl rfl,
    Nat.lt_succ_self _⟩, rfl⟩

/-- Every state of an operation is inside it, and so are the operations opened in it. -/
theorem Operates.inside (operates : Operates StateCell.Representable start state opens)
    (paired : start.Paired)
    (position : start.journal.savePosition = start.journal.activeSequence.length) :
    Inside start state ∧
      state.journal.transactionDepth = start.journal.transactionDepth + 1 + opens.length ∧
      ∀ operation ∈ opens, Opened start operation := by
  induction operates with
  | begun begun =>
    obtain ⟨inside, depth⟩ := inside_begin paired position begun
    exact ⟨inside, depth, nofun⟩
  | assign _ representable assigned ih =>
    obtain ⟨inside, depth, deeper⟩ := ih
    refine ⟨inside.assign representable assigned, ?_, deeper⟩
    obtain ⟨before, banks, _, _, rfl⟩ := assign_eq_ok assigned
    rw [← depth]
    unfold assignedJournal
    dsimp only
    split
    · rw [recordMutation_transactionDepth, retainDelta_transactionDepth]
    · rfl
  | grow _ grows ih =>
    obtain ⟨inside, depth, deeper⟩ := ih
    refine ⟨inside.grow grows, ?_, deeper⟩
    obtain ⟨banks, rfl, _⟩ := grows.grown
    exact depth
  | beginGroup _ begun ih =>
    obtain ⟨inside, depth, deeper⟩ := ih
    refine ⟨inside.beginGroup begun, ?_, deeper⟩
    obtain ⟨frame, _, _, _, rfl⟩ := beginGroup_eq_ok begun
    exact depth
  | endGroup _ above ended ih =>
    obtain ⟨inside, depth, deeper⟩ := ih
    obtain ⟨kept, same⟩ := inside.endGroup paired above ended
    exact ⟨kept, same.trans depth, deeper⟩
  | beginTransaction _ begun ih =>
    obtain ⟨inside, depth, deeper⟩ := ih
    cases begun
    refine ⟨inside.idle rfl rfl rfl rfl (Nat.lt_succ_of_lt inside.operating), ?_, ?_⟩
    · dsimp only
      rw [List.length_cons, ← Nat.add_assoc, ← depth]
    intro other member
    rcases List.mem_cons.mp member with rfl | earlier
    · exact inside.opened rfl
    · exact deeper other earlier
  | rollTransaction _ rolled ih =>
    obtain ⟨inside, depth, deeper⟩ := ih
    rw [List.length_cons] at depth
    unfold rollStateTransaction SaveJournal.rollTransaction at rolled
    rw [if_neg (by omega)] at rolled
    cases rolled
    refine ⟨inside, depth, ?_⟩
    intro other member
    rcases List.mem_cons.mp member with rfl | earlier
    · exact inside.opened rfl
    · exact deeper other (List.mem_cons_of_mem _ earlier)
  | commitTransaction _ committed ih =>
    obtain ⟨inside, depth, deeper⟩ := ih
    rw [List.length_cons] at depth
    obtain ⟨journal, committing, committed⟩ := bind_eq_ok.mp committed
    cases pure_eq_ok.mp committed
    unfold SaveJournal.commitTransaction at committing
    split at committing
    · cases committing
    cases committing
    refine ⟨inside.idle rfl rfl rfl (if_neg ?_) ?_, ?_,
      fun other member => deeper other (List.mem_cons_of_mem _ member)⟩
    · omega
    · dsimp only
      omega
    dsimp only
    omega
  | rollbackTransaction _ rolledBack ih => ?_
  obtain ⟨inside, depth, deeper⟩ := ih
  rw [List.length_cons] at depth
  obtain ⟨kept, shallower⟩ := inside.rollback paired (deeper _ List.mem_cons_self)
    (by omega) rolledBack
  exact ⟨kept, by omega, fun other member => deeper other (List.mem_cons_of_mem _ member)⟩

/-! ## The rollback -/

/-- Rolling back to a stack of groups and a save sequence that are still there. -/
theorem rollbackGroupSuffix_exact {journal : SaveJournal R} {outer : List GroupMark}
    {base : List (JournalEntry R)} (covers : Covers outer base.length journal.activeGroups)
    (kept : base <+: journal.activeSequence) (depth : operation.groupDepth = outer.length)
    (position : operation.savePosition = base.length)
    (metadata : ∀ mark rest, outer = mark :: rest →
      operation.groupEntries = mark.entries ∧ operation.groupSparseStart = mark.sparseStart) :
    journal.rollbackGroupSuffix operation = .ok { journal with
      activeSequence := base
      activeGroups := outer
      saveStack := operation.saveStack
      savePosition := base.length } := by
  have deep : operation.groupDepth ≤ journal.activeGroups.length := by
    rw [depth]
    exact covers.length_le
  obtain ⟨marks, sequence⟩ := covers.popGroups (Nat.le_of_eq depth.symm) kept
  have count := @popGroups_length R _ _ deep journal.activeSequence
  unfold SaveJournal.rollbackGroupSuffix
  rw [if_neg (Nat.not_lt.mpr deep)]
  dsimp only
  rw [position, if_neg (Nat.not_lt.mpr sequence.length_le), List.prefix_iff_eq_take.mp sequence]
  obtain ⟨inner, last, shape, aged, _⟩ := marks
  rw [shape, List.length_append, aged.length, depth] at count
  obtain rfl := List.eq_nil_of_length_eq_zero (show inner.length = 0 by omega)
  rw [shape, List.nil_append]
  cases aged with
  | nil => simp
  | @cons mark later rest frame start => ?_
  obtain ⟨entries, sparseStart⟩ := metadata mark rest rfl
  obtain ⟨_, _, _, _⟩ := mark
  simp only at frame start entries sparseStart
  simp [frame, start, entries, sparseStart]

theorem Operates.rollback (operates : Operates StateCell.Representable start state [])
    (paired : start.Paired)
    (position : start.journal.savePosition = start.journal.activeSequence.length) :
    ∃ next, state.rollbackStateTransaction start.beginStateTransaction.1 = .ok next ∧
      Alike start next ∧ next.journal.transactionEntries = start.journal.transactionEntries ∧
      next.journal.transactionDepth = start.journal.transactionDepth := by
  obtain ⟨inside, depth, _⟩ := operates.inside paired position
  let operation := start.beginStateTransaction.1
  obtain ⟨banks, undoing, undoable⟩ := inside.undoable.undo (Nat.le_refl _)
  obtain ⟨log, entries, _⟩ := inside.undoable
  have suffix := @rollbackGroupSuffix_exact R operation state.journal _ _ inside.marks
    inside.sequence paired position (by
      intro mark rest marks
      dsimp only [operation, beginStateTransaction, openOperation, SaveJournal.beginTransaction,
        SaveJournal.currentGroupSaveMetadata]
      rw [marks]
      exact ⟨rfl, rfl⟩)
  have cut : state.journal.transactionEntries.take start.journal.transactionEntries.length =
      start.journal.transactionEntries := by
    rw [entries, List.take_left]
  have groups : state.groups.drop (state.groups.length - start.groups.length) = start.groups := by
    obtain ⟨inner, shape⟩ := inside.groups
    rw [← shape, List.length_append, Nat.add_sub_cancel, List.drop_left]
  refine ⟨{ state with
      banks
      groups := start.groups
      journal := { state.journal with
        activeSequence := start.journal.activeSequence
        activeGroups := start.journal.activeGroups
        saveStack := start.journal.saveStack
        savePosition := start.journal.activeSequence.length
        transactionEntries := start.journal.transactionEntries
        transactionDepth := start.journal.transactionDepth } },
    ?_, ⟨rfl, rfl, rfl, rfl, position.symm, ?_⟩, rfl, rfl⟩
  · have settled : state.journal.transactionDepth - 1 = start.journal.transactionDepth := by
      rw [depth, List.length_nil, Nat.add_zero, Nat.add_sub_cancel]
    change (do
      let state ← state.undoEntries
        (state.journal.transactionEntries.drop start.journal.transactionEntries.length).reverse
      let journal ← state.journal.rollbackGroupSuffix operation
      let journal ← journal.finishTransactionRollback start.journal.transactionEntries.length
      pure ({ state with
        groups := state.groups.drop (state.groups.length - start.groups.length)
        journal } : DenseState R)) = _
    rw [undoing, ok_bind]
    dsimp only
    rw [suffix, ok_bind, SaveJournal.finishTransactionRollback, if_neg inside.open_, ok_bind,
      groups]
    dsimp only
    rw [cut, settled]
    rfl
  intro cell found held
  exact (undoable { state.journal with transactionEntries := start.journal.transactionEntries }
    start.groups cut.symm).levelled rfl held

end DenseState

end Umber.State
