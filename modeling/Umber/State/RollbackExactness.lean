import Umber.State.RollbackProperties

/-! Every state of a run is sound, and what a rollback gives back is not told apart from the
begin of the operation by later group ends. -/

set_option autoImplicit false

namespace Umber.State

open ExceptLib UndoLog

namespace DenseState

variable {R : References} {start state next other : DenseState R} {operation : StateOperation}

/-! ## Group ends -/

def Restorable (state : DenseState R) : Prop :=
  ∀ saved, JournalEntry.mutation saved ∈ state.journal.activeSequence → state.Ready saved

theorem Restorable.records (restorable : state.Restorable) (frame : GroupFrame) :
    ∀ saved ∈ state.recordsOf frame, state.Ready saved := by
  intro saved member
  obtain ⟨⟨entry, index⟩, listed, held⟩ := List.mem_flatMap.mp member
  have placed := List.mem_of_mem_drop (List.mem_reverse.mp listed)
  have entries := List.mem_map_of_mem (f := Prod.fst) placed
  rw [List.zipIdx_map_fst] at entries
  cases entry with
  | groupEnter entered => cases held
  | mutation record => ?_
  unfold savedBy at held
  dsimp only at held
  split at held
  · rw [List.mem_singleton.mp held]
    exact restorable record entries
  · cases held

section

variable (alike : Alike state other)
include alike

theorem Alike.ready {saved : Mutation R} (ready : state.Ready saved) : other.Ready saved := by
  obtain ⟨⟨content, found⟩, fits⟩ := ready
  have held := alike.values saved.cell content.levelled (by rw [levelled, found]; rfl)
  obtain ⟨kept, contained, _⟩ := Option.map_eq_some_iff.mp held
  exact ⟨⟨kept, contained⟩, fits⟩

theorem Alike.recordsOf (frame : GroupFrame) : other.recordsOf frame = state.recordsOf frame := by
  unfold DenseState.recordsOf
  rw [alike.sequence]

/-- One group end does not tell states alike apart. -/
theorem Alike.endGroup (restorable : state.Restorable)
    (paired : state.Paired) (kind : GroupKind) (boxes : BoxUnsave) :
    Agree (state.endGroup kind boxes) (other.endGroup kind boxes) ∧
      ∀ next, state.endGroup kind boxes = .ok next → next.Restorable ∧ next.Paired := by
  have closing : other.closingGroup kind = state.closingGroup kind := by
    unfold closingGroup
    rw [alike.groups]
  unfold DenseState.endGroup
  rw [closing]
  cases closed : state.closingGroup kind with
  | error error => exact ⟨rfl, fun next ended => by cases ended⟩
  | ok frame => ?_
  rw [ok_bind, ok_bind]
  cases marks : state.journal.activeGroups with
  | nil =>
    unfold Paired at paired
    rw [marks] at paired
    rw [closingGroup, List.eq_nil_of_length_eq_zero paired] at closed
    cases closed
  | cons mark outer => ?_
  obtain ⟨next, unsaving, exits⟩ := unsave_exits marks (restorable.records frame) boxes
  obtain ⟨last, leaving, exited⟩ := unsave_exits (alike.marks.trans marks)
    (fun saved member => alike.ready
      (restorable.records frame saved (alike.recordsOf frame ▸ member))) boxes
  rw [unsaving, leaving]
  refine ⟨⟨?_, ?_, ?_, ?_, ?_, ?_⟩, ?_⟩
  · rw [exits.groups, exited.groups, alike.groups]
  · rw [exits.sequence, exited.sequence, alike.sequence]
  · rw [exits.marks, exited.marks]
  · rw [exits.saveStack, exited.saveStack]
  · rw [exits.savePosition, exited.savePosition, exits.sequence, exited.sequence,
      alike.sequence]
  · intro cell found held
    rw [exits.values] at held
    obtain ⟨current, live, unwound⟩ := Option.map_eq_some_iff.mp held
    rw [exited.values, alike.values cell current live, alike.recordsOf frame, ← unwound]
    rfl
  rintro _ ⟨⟩
  refine ⟨?_, ?_⟩
  · intro saved member
    rw [exits.sequence] at member
    exact exits.ready saved (restorable saved (List.mem_of_mem_take member))
  unfold Paired at paired ⊢
  rw [exits.groups, exits.marks, List.length_tail, paired, marks]
  rfl

theorem Alike.endGroups (restorable : state.Restorable)
    (paired : state.Paired) (calls : List (GroupKind × BoxUnsave)) :
    Agree (state.endGroups calls) (other.endGroups calls) := by
  induction calls generalizing state other with
  | nil => exact alike
  | cons call later ih => ?_
  obtain ⟨kind, boxes⟩ := call
  obtain ⟨agree, keeps⟩ := alike.endGroup restorable paired kind boxes
  unfold DenseState.endGroups
  cases ended : state.endGroup kind boxes with
  | error error =>
    rw [ended] at agree
    cases exited : other.endGroup kind boxes with
    | error failure =>
      rw [exited] at agree
      exact agree
    | ok last =>
      rw [exited] at agree
      exact agree.elim
  | ok next => ?_
  rw [ended] at agree
  obtain ⟨kept, still⟩ := keeps next ended
  cases exited : other.endGroup kind boxes with
  | error failure =>
    rw [exited] at agree
    exact agree.elim
  | ok last =>
    rw [exited] at agree
    exact ih agree kept still

end

/-! ## The saves of a run -/

theorem restorable_of_empty (empty : state.journal.activeSequence = []) : state.Restorable := by
  intro saved member
  rw [empty] at member
  cases member

namespace Restorable

theorem assign (restorable : state.Restorable) {cell : StateCell} {value : StateWord R}
    {scope : AssignmentScope} (representable : cell.Representable)
    (assigned : state.assign cell value scope = .ok next) : next.Restorable := by
  obtain ⟨before, banks, found, written, rfl⟩ := assign_eq_ok assigned
  intro saved member
  cases saves : state.savedLevel scope before.level with
  | none =>
    rw [(assignedJournal_unsaved saves).1] at member
    exact (restorable saved member).written written
  | some level => ?_
  rw [(assignedJournal_saved saves).1] at member
  rcases List.mem_append.mp member with earlier | last
  · exact (restorable saved earlier).written written
  have record := JournalEntry.mutation.inj (List.mem_singleton.mp last)
  have named := Mutation.cell_new representable before (some level)
  rw [record]
  refine Ready.written written ⟨⟨before, by rw [named]; exact found⟩, ?_⟩
  rw [named]
  exact Banks.readCell_fits (Banks.contents_eq_some.mp found)

theorem grow (restorable : state.Restorable) (grows : Grows state next) : next.Restorable := by
  obtain ⟨banks, rfl, grown⟩ := grows.grown
  intro saved member
  obtain ⟨⟨content, found⟩, fits⟩ := restorable saved member
  exact ⟨⟨content, grown.kept _ _ found⟩, fits⟩

variable {kind : GroupKind}

theorem beginGroup (restorable : state.Restorable) {line : Nat}
    (begun : state.beginGroup kind line = .ok next) : next.Restorable := by
  obtain ⟨frame, _, _, _, rfl⟩ := beginGroup_eq_ok begun
  intro saved member
  rcases List.mem_append.mp member with earlier | last
  · exact restorable saved earlier
  · cases List.mem_singleton.mp last

theorem restoreGroupMutation (restorable : state.Restorable) {record : Mutation R}
    (restored : state.restoreGroupMutation record = .ok next) : next.Restorable := by
  obtain ⟨current, reading, restored⟩ := bind_eq_ok.mp restored
  split at restored
  · cases pure_eq_ok.mp restored
    exact restorable
  obtain ⟨written, writing, restored⟩ := bind_eq_ok.mp restored
  obtain ⟨banks, storing, writing⟩ := bind_eq_ok.mp writing
  cases pure_eq_ok.mp writing
  cases pure_eq_ok.mp restored
  intro saved member
  have unsaved := (SaveJournal.recordMutation_unsaved state.journal
    (.new record.cell current none) rfl).1
  have member : JournalEntry.mutation saved ∈ state.journal.activeSequence := unsaved ▸ member
  exact (restorable saved member).written (Banks.writeCell_written storing)

theorem endGroup (restorable : state.Restorable) {boxes : BoxUnsave}
    (ended : state.endGroup kind boxes = .ok next) : next.Restorable := by
  obtain ⟨frame, _, unsaved⟩ := bind_eq_ok.mp ended
  obtain ⟨unwound, journal, walked, exiting, rfl⟩ :=
    @unsave_keeps R _ _ Restorable
      (fun _ _ _ before restored => before.restoreGroupMutation restored) _ _ restorable unsaved
  unfold SaveJournal.recordGroupExitWithRecords at exiting
  split at exiting
  · cases exiting
  cases exiting
  exact fun saved member => walked saved (List.mem_of_mem_take member)

end Restorable

theorem undoEntries_ready {entries : List (Mutation R)}
    (undone : state.undoEntries entries = .ok next) :
    next.journal = state.journal ∧ next.groups = state.groups ∧
      ∀ saved, state.Ready saved → next.Ready saved := by
  induction entries generalizing state with
  | nil =>
    cases undone
    exact ⟨rfl, rfl, fun _ held => held⟩
  | cons mutation earlier ih => ?_
  obtain ⟨between, writing, undone⟩ := bind_eq_ok.mp undone
  obtain ⟨banks, storing, writing⟩ := bind_eq_ok.mp writing
  obtain rfl := pure_eq_ok.mp writing
  obtain ⟨journal, groups, ready⟩ := ih undone
  exact ⟨journal, groups, fun saved held =>
    ready saved (held.written (Banks.writeCell_written storing))⟩

theorem popGroups_within (depth : Nat) (sequence : List (JournalEntry R))
    (groups : List GroupMark) : (SaveJournal.popGroups depth sequence groups).1 <+: sequence := by
  induction groups generalizing sequence with
  | nil => exact List.prefix_rfl
  | cons group outer ih => ?_
  unfold SaveJournal.popGroups
  split
  · exact (ih _).trans (List.take_prefix _ _)
  · exact List.prefix_rfl

theorem Restorable.rollback (restorable : state.Restorable)
    (rolledBack : state.rollbackStateTransaction operation = .ok next) : next.Restorable := by
  obtain ⟨undone, undoing, rolledBack⟩ := bind_eq_ok.mp rolledBack
  obtain ⟨suffixed, suffix, rolledBack⟩ := bind_eq_ok.mp rolledBack
  obtain ⟨journal, finishing, rolledBack⟩ := bind_eq_ok.mp rolledBack
  cases pure_eq_ok.mp rolledBack
  obtain rfl := finishTransactionRollback_eq_ok finishing
  obtain ⟨same, _, ready⟩ := undoEntries_ready undoing
  unfold SaveJournal.rollbackGroupSuffix at suffix
  split at suffix
  · cases suffix
  dsimp only at suffix
  split at suffix
  · cases suffix
  obtain rfl := Except.ok.inj suffix
  intro saved member
  have listed := (popGroups_within _ _ _).subset (List.mem_of_mem_take member)
  rw [same] at listed
  exact ready saved (restorable saved listed)

structure Sound (state : DenseState R) : Prop where
  paired : state.Paired
  position : state.journal.savePosition = state.journal.activeSequence.length
  restorable : state.Restorable

namespace Sound

theorem of_empty (groups : state.groups = []) (sequence : state.journal.activeSequence = [])
    (marks : state.journal.activeGroups = []) (position : state.journal.savePosition = 0) :
    state.Sound := by
  refine ⟨?_, ?_, restorable_of_empty sequence⟩
  · unfold Paired
    rw [groups, marks]
    rfl
  rw [position, sequence]
  rfl

theorem assign (sound : state.Sound) {cell : StateCell} {value : StateWord R}
    {scope : AssignmentScope} (representable : cell.Representable)
    (assigned : state.assign cell value scope = .ok next) : next.Sound := by
  have touches := assign_touches representable sound.position assigned
  obtain ⟨_, _, _, _, _, _, touched⟩ := touches.writes
  exact ⟨touches.paired sound.paired, touched.position,
    sound.restorable.assign representable assigned⟩

theorem grow (sound : state.Sound) (grows : Grows state next) : next.Sound := by
  have restorable := sound.restorable.grow grows
  obtain ⟨banks, rfl, _⟩ := grows.grown
  exact ⟨sound.paired, sound.position, restorable⟩

theorem moves (sound : state.Sound) (moves : Relation.ReflTransGen Moves state next)
    (restorable : next.Restorable) : next.Sound := by
  refine ⟨?_, position_of_moves sound.position moves, restorable⟩
  clear restorable
  induction moves with
  | refl => exact sound.paired
  | tail _ move ih => ?_
  cases move with
  | idle idle _ _ => exact idle.paired ih
  | touch touches => exact touches.paired ih

variable {kind : GroupKind} (sound : state.Sound)
include sound

theorem beginGroup {line : Nat} (begun : state.beginGroup kind line = .ok next) : next.Sound :=
  sound.moves (.single (beginGroup_idle begun)) (sound.restorable.beginGroup begun)

theorem endGroup {boxes : BoxUnsave} (ended : state.endGroup kind boxes = .ok next) : next.Sound :=
  sound.moves (endGroup_moves sound.position ended) (sound.restorable.endGroup ended)

/-- A step that leaves the groups, the saves and the cells alone. -/
theorem idle {journal : SaveJournal R}
    (sequence : journal.activeSequence = state.journal.activeSequence)
    (marks : journal.activeGroups = state.journal.activeGroups)
    (position : journal.savePosition = state.journal.savePosition) :
    ({ state with journal } : DenseState R).Sound := by
  refine ⟨?_, ?_, ?_⟩
  · have paired := sound.paired
    unfold Paired at paired ⊢
    rw [paired, ← marks]
  · dsimp only
    rw [position, sequence]
    exact sound.position
  intro saved member
  dsimp only at member
  rw [sequence] at member
  exact sound.restorable saved member

theorem rollTransaction (rolled : state.rollStateTransaction = (operation, next)) : next.Sound := by
  unfold rollStateTransaction SaveJournal.rollTransaction at rolled
  cases rolled
  split
  · exact sound.idle rfl rfl rfl
  · exact sound.idle rfl rfl rfl

theorem commitTransaction {position : Nat}
    (committed : state.commitStateTransaction position = .ok next) : next.Sound := by
  obtain ⟨journal, committing, committed⟩ := bind_eq_ok.mp committed
  cases pure_eq_ok.mp committed
  unfold SaveJournal.commitTransaction at committing
  split at committing
  · cases committing
  cases committing
  exact sound.idle rfl rfl rfl

theorem rollbackTransaction
    (rolledBack : state.rollbackStateTransaction operation = .ok next) : next.Sound := by
  have restorable := sound.restorable.rollback rolledBack
  obtain ⟨undone, undoing, rolledBack⟩ := bind_eq_ok.mp rolledBack
  obtain ⟨suffixed, suffix, rolledBack⟩ := bind_eq_ok.mp rolledBack
  obtain ⟨journal, finishing, rolledBack⟩ := bind_eq_ok.mp rolledBack
  cases pure_eq_ok.mp rolledBack
  obtain rfl := finishTransactionRollback_eq_ok finishing
  obtain ⟨reaches, depths, _, _, _, _, position⟩ := rollbackGroupSuffix_eq_ok suffix
  have paired := sound.paired
  rw [(undoEntries_ready undoing).1] at reaches
  refine ⟨?_, position, restorable⟩
  unfold Paired at paired ⊢
  rw [depths, List.length_drop, (undoEntries_ready undoing).2.1, paired]
  omega

theorem capture {cursor : JournalCursor}
    (captured : state.journalCursor = .ok (cursor, next)) : next.Sound := by
  obtain ⟨_, _, rfl⟩ := journalCursor_eq_ok captured
  exact sound.idle rfl rfl rfl

end Sound

variable {cursor : JournalCursor}

theorem restoreValidated_empty (restored : state.restoreValidated cursor = .ok next) :
    next.groups = [] ∧ next.journal.activeSequence = [] ∧ next.journal.activeGroups = [] ∧
      next.journal.savePosition = cursor.savePosition := by
  obtain ⟨_, _, _, _, _, rfl⟩ := restoreValidated_shape restored
  exact ⟨rfl, rfl, rfl, rfl⟩

theorem validateCursorShape_savePosition {journal : SaveJournal R}
    (valid : journal.validateCursorShape cursor = true) : cursor.savePosition = 0 := by
  unfold SaveJournal.validateCursorShape at valid
  simp only [Bool.and_eq_true, decide_eq_true_eq] at valid
  exact valid.2

theorem validateRestoreCursor_savePosition {afterReplay : Bool}
    (validated : state.validateRestoreCursor cursor afterReplay = .ok ()) :
    cursor.savePosition = 0 := by
  unfold validateRestoreCursor at validated
  cases afterReplay with
  | true =>
    dsimp only at validated
    cases valid : state.journal.validateCursorAfterReplay cursor with
    | false =>
      rw [valid] at validated
      cases validated
    | true => ?_
    unfold SaveJournal.validateCursorAfterReplay at valid
    simp only [Bool.and_eq_true] at valid
    exact validateCursorShape_savePosition valid.1.1
  | false => ?_
  dsimp only at validated
  cases valid : state.journal.validateCursor cursor with
  | false =>
    rw [valid] at validated
    cases validated
  | true => ?_
  unfold SaveJournal.validateCursor at valid
  simp only [Bool.and_eq_true] at valid
  exact validateCursorShape_savePosition valid.1

theorem validateRestore_savePosition (validated : state.validateRestore cursor = .ok ()) :
    cursor.savePosition = 0 := by
  unfold validateRestore at validated
  split at validated
  · cases validated
  · exact validateRestoreCursor_savePosition validated

theorem restore_sound (restored : state.restore cursor = .ok next) :
    next.Sound ∧ next.journal.activeSequence = [] := by
  obtain ⟨_, validated, restored⟩ := bind_eq_ok.mp restored
  obtain ⟨groups, sequence, marks, position⟩ := restoreValidated_empty restored
  exact ⟨.of_empty groups sequence marks (position.trans (validateRestore_savePosition validated)),
    sequence⟩

theorem restoreAfterReplay_sound (restored : state.restoreAfterReplay cursor = .ok next) :
    next.Sound := by
  obtain ⟨_, validated, restored⟩ := bind_eq_ok.mp restored
  obtain ⟨groups, sequence, marks, position⟩ := restoreValidated_empty restored
  exact .of_empty groups sequence marks
    (position.trans (validateRestoreCursor_savePosition validated))

variable {dense : DenseStateCursor} {tail : AcceptedDenseStateTail}

/-- A candidate generation begins outside every group, and so did the accepted one. -/
theorem beginCheckpointCandidate_sound (sound : state.Sound)
    (begun : state.beginCheckpointCandidate cursor dense = .ok (tail, next)) :
    next.Sound ∧ tail.journal.savePosition = 0 := by
  unfold beginCheckpointCandidate at begun
  split at begun
  · cases begun
  rename_i refused
  have eligible : state.checkpointEligible = true := by simpa using refused
  obtain ⟨groups, marks, sequence, _⟩ := checkpointEligible_iff.mp eligible
  obtain ⟨_, validated, begun⟩ := bind_eq_ok.mp begun
  split at begun
  · cases begun
  obtain ⟨⟨suffix, banks⟩, _, begun⟩ := bind_eq_ok.mp begun
  obtain ⟨⟨journalTail, journal⟩, beginning, begun⟩ := bind_eq_ok.mp begun
  cases pure_eq_ok.mp begun
  unfold SaveJournal.beginCheckpointCandidate at beginning
  split at beginning
  · cases beginning
  split at beginning
  · cases beginning
  split at beginning
  · cases beginning
  cases beginning
  have position := sound.position
  rw [sequence] at position
  exact ⟨.of_empty groups sequence marks rfl, position⟩

theorem rejectCheckpointCandidate_sound (position : tail.journal.savePosition = 0)
    (rejected : state.rejectCheckpointCandidate cursor dense tail = .ok next) : next.Sound := by
  obtain ⟨⟨_, banks⟩, _, rejected⟩ := bind_eq_ok.mp rejected
  dsimp only at rejected
  split at rejected
  · cases rejected
  obtain ⟨⟨_, banks⟩, _, rejected⟩ := bind_eq_ok.mp rejected
  obtain ⟨journal, rejecting, rejected⟩ := bind_eq_ok.mp rejected
  cases pure_eq_ok.mp rejected
  unfold SaveJournal.rejectCheckpointCandidate at rejecting
  split at rejecting
  · cases rejecting
  cases rejecting
  exact .of_empty rfl rfl rfl position

theorem acceptCheckpointCandidate_sound (sound : state.Sound)
    (accepted : state.acceptCheckpointCandidate = .ok next) : next.Sound := by
  obtain ⟨journal, accepting, accepted⟩ := bind_eq_ok.mp accepted
  cases pure_eq_ok.mp accepted
  unfold SaveJournal.acceptCheckpointCandidate at accepting
  split at accepting
  · cases accepting
  split at accepting
  · cases accepting
  cases accepting
  exact sound.idle rfl rfl rfl

theorem Reached.sound (reached : Reached StateCell.Representable state) : state.Sound := by
  induction reached with
  | start fresh =>
    refine .of_empty fresh.groups ?_ ?_ ?_
    · rw [fresh.journal]
      rfl
    · rw [fresh.journal]
      rfl
    rw [fresh.journal]
    rfl
  | assign _ representable assigned ih => exact ih.assign representable assigned
  | grow _ grows ih => exact ih.grow grows
  | beginGroup _ begun ih => exact ih.beginGroup begun
  | endGroup _ ended ih => exact ih.endGroup ended
  | beginTransaction _ begun ih =>
    cases begun
    exact ih.idle rfl rfl rfl
  | rollTransaction _ rolled ih => exact ih.rollTransaction rolled
  | commitTransaction _ committed ih => exact ih.commitTransaction committed
  | rollbackTransaction _ rolledBack ih => exact ih.rollbackTransaction rolledBack
  | capture _ captured ih => exact ih.capture captured
  | restore _ restored _ => exact (restore_sound restored).1
  | restoreAfterReplay _ restored _ => exact restoreAfterReplay_sound restored
  | restoreCheckpoint _ restored truncated _ =>
    obtain ⟨sound, empty⟩ := restore_sound restored
    obtain rfl := restoreCheckpointCursor_eq_ok truncated
    exact ⟨sound.paired, sound.position, restorable_of_empty empty⟩
  | beginCandidate _ begun ih => exact (beginCheckpointCandidate_sound ih begun).1
  | rejectCandidate _ begun _ rejected ih _ =>
    exact rejectCheckpointCandidate_sound (beginCheckpointCandidate_sound ih begun).2 rejected
  | acceptCandidate _ accepted ih => exact acceptCheckpointCandidate_sound ih accepted

/-! ## Rollbacks are exact -/

/-- The rollback of an operation succeeds, and gives back a state that no later group end
tells apart from the one before the operation. -/
theorem rollback_is_exact (reached : Reached StateCell.Representable start)
    (operates : Operates StateCell.Representable start state []) :
    ∃ next, state.rollbackStateTransaction start.beginStateTransaction.1 = .ok next ∧
      Alike start next ∧ next.journal.transactionEntries = start.journal.transactionEntries ∧
      next.journal.transactionDepth = start.journal.transactionDepth ∧
      ∀ calls, Agree (start.endGroups calls) (next.endGroups calls) := by
  have sound := reached.sound
  obtain ⟨next, rolledBack, alike, entries, depth⟩ :=
    operates.rollback sound.paired sound.position
  exact ⟨next, rolledBack, alike, entries, depth,
    fun calls => alike.endGroups sound.restorable sound.paired calls⟩

/-- A group opened in an operation and a counter assigned in it are rolled back. -/
theorem rollback_is_exact_count :
    ∃ (begun grouped assigned next : DenseState plainReferences) (operation : StateOperation),
      (new 16 () : DenseState plainReferences).beginStateTransaction = (operation, begun) ∧
      begun.beginGroup .simple 1 = .ok grouped ∧
      grouped.assign (.count 300) (.integer 7) .local = .ok assigned ∧
      assigned.rollbackStateTransaction operation = .ok next ∧ next.groups = [] ∧
      next.levelled (.count 300) = some (.integer 0, levelOne) := by
  have start : Reached StateCell.Representable (new 16 () : DenseState plainReferences) :=
    .start ⟨rfl, rfl, fun _ _ found => (Banks.contents_new found).2⟩
  obtain ⟨operation, begun, beginning⟩ : ∃ operation begun,
      (new 16 () : DenseState plainReferences).beginStateTransaction = (operation, begun) :=
    ⟨_, _, rfl⟩
  obtain ⟨grouped, grouping⟩ : ∃ grouped, begun.beginGroup .simple 1 = .ok grouped := by
    cases beginning
    exact ⟨_, rfl⟩
  obtain ⟨assigned, assigning⟩ : ∃ assigned,
      grouped.assign (.count 300) (.integer 7) .local = .ok assigned := by
    cases beginning
    cases grouping
    exact ⟨_, rfl⟩
  have operates := Operates.assign (.beginGroup (.begun beginning) grouping)
    (show StateCell.Representable (.count 300) from trivial) assigning
  obtain ⟨next, rolledBack, alike, _⟩ := rollback_is_exact start operates
  rw [beginning] at rolledBack
  exact ⟨begun, grouped, assigned, next, operation, beginning, grouping, assigning, rolledBack,
    alike.groups, alike.values _ _ rfl⟩

/-- The rollback writes the value of an aliased assignment to the cell the record names. -/
theorem aliased_assignment_stays (sound : start.Sound) {cell aliased : StateCell}
    (alias_ : (JournalCell.pack cell).unpack = aliased) (apart : cell ≠ aliased)
    {value : StateWord R} {before displaced : BankCell (StateWord R)}
    (found : start.banks.contents cell = some before)
    (exists_ : start.banks.contents aliased = some displaced)
    (fitsOther : wordFits aliased before.value = true) (fits : wordFits cell value = true) :
    ∃ assigned final, start.beginStateTransaction.2.assign cell value .global = .ok assigned ∧
      assigned.rollbackStateTransaction start.beginStateTransaction.1 = .ok final ∧
      final.levelled cell = some (value, levelOne) := by
  let begun := start.beginStateTransaction.2
  obtain ⟨assigned, assigning⟩ := @assign_of_contents R begun cell value before found fits .global
  obtain ⟨earlier, banks, same, written, rfl⟩ := assign_eq_ok assigning
  cases found.symm.trans same
  let record := Mutation.new cell before none
  have recorded : begun.assignedJournal cell .global before =
      begun.journal.recordMutation record := by
    have needed : begun.journal.needsMutation before.saveSerial none = true := by
      simp [SaveJournal.needsMutation, begun, beginStateTransaction, SaveJournal.beginTransaction]
    unfold assignedJournal
    exact if_pos needed
  have ready : ({ begun with banks, journal := begun.assignedJournal cell .global before } :
      DenseState R).Ready record := by
    have aliasedReady : begun.Ready record := by
      refine ⟨⟨displaced, ?_⟩, ?_⟩
      · change start.banks.contents (JournalCell.pack cell).unpack = _
        rw [alias_]
        exact exists_
      change wordFits (JournalCell.pack cell).unpack before.value = true
      rw [alias_]
      exact fitsOther
    exact aliasedReady.written written
  obtain ⟨undone, undoing, cells, _⟩ := @undoEntries_rewinds R
    { begun with banks, journal := begun.assignedJournal cell .global before } [record]
    (fun mutation member => by rw [List.mem_singleton.mp member]; exact ready)
  have entries : (begun.journal.recordMutation record).transactionEntries =
      start.journal.transactionEntries ++ [record] :=
    SaveJournal.recordMutation_operating (Nat.succ_ne_zero _)
  obtain ⟨sequence, marks⟩ := SaveJournal.recordMutation_unsaved begun.journal record rfl
  have suffix := @rollbackGroupSuffix_exact R start.beginStateTransaction.1
    (begun.journal.recordMutation record) start.journal.activeGroups start.journal.activeSequence
    (by rw [marks]; exact .refl _ _) (by rw [sequence]; exact List.prefix_rfl) sound.paired
    sound.position (by
      intro mark rest groups
      dsimp only [beginStateTransaction, openOperation, SaveJournal.beginTransaction,
        SaveJournal.currentGroupSaveMetadata]
      rw [groups]
      exact ⟨rfl, rfl⟩)
  have open_ : (begun.journal.recordMutation record).transactionDepth ≠ 0 := by
    rw [SaveJournal.recordMutation_transactionDepth, SaveJournal.retainDelta_transactionDepth]
    exact Nat.succ_ne_zero _
  rw [recorded] at undoing cells assigning
  obtain ⟨final, rolledBack, kept⟩ : ∃ final,
      ({ begun with banks, journal := begun.journal.recordMutation record } :
        DenseState R).rollbackStateTransaction start.beginStateTransaction.1 = .ok final ∧
      final.banks = undone := by
    have lane : ((begun.journal.recordMutation record).transactionEntries.drop
        start.beginStateTransaction.1.transactionPosition).reverse = [record] := by
      change ((begun.journal.recordMutation record).transactionEntries.drop
        start.journal.transactionEntries.length).reverse = _
      rw [entries, List.drop_left]
      rfl
    unfold rollbackStateTransaction
    dsimp only
    rw [lane, undoing, ok_bind]
    dsimp only
    rw [suffix, ok_bind, SaveJournal.finishTransactionRollback, if_neg open_, ok_bind]
    exact ⟨_, rfl, rfl⟩
  refine ⟨_, final, assigning, rolledBack, ?_⟩
  have other : displacedBy record = (aliased, (before.value, before.level)) := by
    change ((JournalCell.pack cell).unpack, _) = _
    rw [alias_]
    rfl
  rw [levelled, kept]
  change ({ begun with banks := undone, journal := begun.journal.recordMutation record } :
    DenseState R).levelled cell = _
  rw [cells, List.reverse_singleton, List.map_singleton, other, rewound_cons, rewound_nil,
    put_other _ _ apart, levelled_of_written written, put_same]
  rfl

/-- A parameter of 19 bits assigned in an operation keeps its value when the operation is
rolled back. -/
theorem rollback_loses_wide_parameter : ∃ (start assigned final : DenseState plainReferences),
      twoFonts = .ok start ∧ Reached (fun _ => True) start ∧
        start.beginStateTransaction.2.assign (.fontRuntime (.dimen 0 262145)) (.dimension 5)
          .global = .ok assigned ∧ Operates (fun _ => True) start assigned [] ∧
        assigned.rollbackStateTransaction start.beginStateTransaction.1 = .ok final ∧
        start.levelled (.fontRuntime (.dimen 0 262145)) = some (.dimension 0, levelOne) ∧
        final.levelled (.fontRuntime (.dimen 0 262145)) = some (.dimension 5, levelOne) := by
  obtain ⟨first, start, fonts, installing, adding, wide, narrow⟩ := twoFonts_ok
  have fresh : Reached StateCell.Representable (new 16 () : DenseState plainReferences) :=
    .start ⟨rfl, rfl, fun _ _ found => (Banks.contents_new found).2⟩
  have reached : Reached (fun _ => True) start :=
    .grow (.grow (.start ⟨rfl, rfl, fun _ _ found => (Banks.contents_new found).2⟩)
      (.font installing)) (.font adding)
  have sound := ((fresh.grow (.font installing)).grow (.font adding)).sound
  obtain ⟨assigned, final, assigning, rolledBack, stays⟩ := aliased_assignment_stays sound
    (show (JournalCell.pack (.fontRuntime (.dimen 0 262145))).unpack = .fontRuntime (.dimen 1 1) by
      decide)
    (by decide) wide narrow rfl (show wordFits _ (.dimension 5) = true from rfl)
  refine ⟨start, assigned, final, fonts, reached, assigning, .assign (.begun rfl) trivial assigning,
    rolledBack, ?_, stays⟩
  rw [levelled, wide]
  rfl

end DenseState

end Umber.State
