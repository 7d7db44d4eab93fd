import Mathlib.Logic.Relation
import Umber.State.CheckpointProperties

/-! Every step of a run keeps the checkpoints that its lane still names. -/

set_option autoImplicit false

namespace Umber.State

open ExceptLib UndoLog

variable {R : References}

inductive ForkOwnership.SameSide : ForkOwnership R → ForkOwnership R → Prop
  | accepted {payload other : List (Chunk R)} : SameSide (.accepted payload) (.accepted other)
  | forked {kept detachedPrior current other : List (Chunk R)} :
      SameSide (.forked kept detachedPrior current) (.forked kept detachedPrior other)

namespace ForkOwnership.SameSide

theorem refl (ownership : ForkOwnership R) : SameSide ownership ownership := by
  cases ownership with
  | accepted payload => exact .accepted
  | forked kept detachedPrior current => exact .forked

theorem trans {first second third : ForkOwnership R} (before : SameSide first second)
    (behind : SameSide second third) : SameSide first third := by
  cases before with
  | accepted =>
    cases behind
    exact .accepted
  | forked =>
    cases behind
    exact .forked

theorem of_accepted {payload : List (Chunk R)} {ownership : ForkOwnership R}
    (side : SameSide (.accepted payload) ownership) : ∃ other, ownership = .accepted other := by
  cases side with
  | accepted => exact ⟨_, rfl⟩

end ForkOwnership.SameSide

namespace CheckpointArena

theorem push_sameSide (arena : CheckpointArena R) (delta : CheckpointDelta R) :
    arena.ownership.SameSide (arena.push delta).ownership := by
  unfold push
  cases arena.ownership with
  | accepted payload => exact .accepted
  | forked kept detachedPrior current => exact .forked

theorem restoreCheckpoint_sameSide {arena next : CheckpointArena R} {mark : CheckpointMark}
    (restored : arena.restoreCheckpoint mark = .ok next) :
    arena.ownership.SameSide next.ownership := by
  unfold restoreCheckpoint at restored
  cases owned : arena.ownership with
  | accepted payload =>
    rw [owned] at restored
    cases restored
    exact .accepted
  | forked kept detachedPrior current => ?_
  rw [owned] at restored
  dsimp only at restored
  split at restored
  · cases restored
    exact .forked
  · cases restored

end CheckpointArena

namespace DenseState

variable {state next : DenseState R} {history : List (Capture R)} {capture : Capture R}

def Outside (state : DenseState R) : Prop :=
  state.journal.transactionDepth = 0 ∧ state.journal.transactionEntries = []

def Continues (nextKey : Nat) (lane later : List (Chunk R)) : Prop :=
  ∃ count added, later = lane.take count ++ added ∧ ∀ chunk ∈ added, nextKey ≤ chunk.key

theorem Continues.refl (nextKey : Nat) (lane : List (Chunk R)) : Continues nextKey lane lane :=
  ⟨lane.length, [], by rw [List.take_length, List.append_nil], nofun⟩

theorem Continues.trans {nextKey more : Nat} {first second third : List (Chunk R)}
    (before : Continues nextKey first second) (behind : Continues more second third)
    (le : nextKey ≤ more) : Continues nextKey first third := by
  obtain ⟨count, added, rfl, keys⟩ := before
  obtain ⟨cut, fresh, rfl, newer⟩ := behind
  refine ⟨min cut count, (added.take (cut - (first.take count).length)) ++ fresh, ?_,
    fun chunk member => ?_⟩
  · rw [List.take_append, List.take_take, List.append_assoc]
  rcases List.mem_append.mp member with earlier | later
  · exact keys chunk (List.mem_of_mem_take earlier)
  · exact Nat.le_trans le (newer chunk later)

structure Persists (state next : DenseState R) : Prop where
  side : state.journal.checkpointArena.ownership.SameSide next.journal.checkpointArena.ownership
  nextKey : state.journal.checkpointArena.nextKey ≤ next.journal.checkpointArena.nextKey
  serial : state.journal.saveSerial ≤ next.journal.saveSerial
  lane : Continues state.journal.checkpointArena.nextKey state.lane next.lane
  installed : ∀ cell, state.banks.Installed cell → next.banks.Installed cell
  paired : state.Paired → next.Paired

theorem Persists.refl (state : DenseState R) : Persists state state :=
  ⟨.refl _, Nat.le_refl _, Nat.le_refl _, .refl _ _, fun _ held => held, fun held => held⟩

theorem Persists.trans {first second third : DenseState R} (before : Persists first second)
    (behind : Persists second third) : Persists first third :=
  ⟨before.side.trans behind.side, Nat.le_trans before.nextKey behind.nextKey,
    Nat.le_trans before.serial behind.serial, before.lane.trans behind.lane before.nextKey,
    fun cell held => behind.installed cell (before.installed cell held),
    fun held => behind.paired (before.paired held)⟩

theorem Idle.persists (idle : Idle state next)
    (side : state.journal.checkpointArena.ownership.SameSide
      next.journal.checkpointArena.ownership) : Persists state next := by
  refine ⟨side, Nat.le_of_eq idle.nextKey.symm, Nat.le_of_eq idle.serial.symm, ?_,
    fun cell held => ?_, idle.paired⟩
  · rw [idle.lane]
    exact .refl _ _
  rw [idle.banks]
  exact held

structure Touches (state next : DenseState R) : Prop where
  writes : ∃ cell before content,
    state.banks.contents cell = some before ∧
    Banks.Written state.banks next.banks cell content ∧
    content.saveSerial = state.journal.saveSerial ∧
    Touched state.journal next.journal cell before
  outside : state.Outside → next.Outside
  paired : state.Paired → next.Paired

theorem Touches.persists (touches : Touches state next) : Persists state next := by
  obtain ⟨cell, before, content, found, written, _, touched⟩ := touches.writes
  have shape := written.sameShape found
  rcases touched.lane with ⟨_, arena, _⟩ | ⟨_, arena, _⟩
  · refine ⟨?_, ?_, Nat.le_of_eq touched.serial.symm, ?_, shape.installed, touches.paired⟩
    · rw [arena]
      exact CheckpointArena.push_sameSide _ _
    · rw [arena]
      exact Nat.le_succ _
    rw [DenseState.lane, DenseState.lane, arena, CheckpointArena.live_push]
    refine ⟨_, _, by rw [List.take_length], fun chunk member => ?_⟩
    exact Nat.le_of_eq (by rw [List.mem_singleton.mp member])
  refine ⟨?_, ?_, Nat.le_of_eq touched.serial.symm, ?_, shape.installed, touches.paired⟩
  · rw [arena]
    exact .refl _
  · exact Nat.le_of_eq (by rw [arena])
  rw [DenseState.lane, DenseState.lane, arena]
  exact .refl _ _

inductive Moves : DenseState R → DenseState R → Prop
  | idle {state next : DenseState R} :
      Idle state next →
        state.journal.checkpointArena.ownership.SameSide next.journal.checkpointArena.ownership →
        (state.Outside → next.Outside) → Moves state next
  | touch {state next : DenseState R} : Touches state next → Moves state next

theorem Coherent.moves (coherent : Coherent state history)
    (moves : Relation.ReflTransGen Moves state next) :
    Coherent next history ∧ Persists state next ∧ (state.Outside → next.Outside) := by
  induction moves with
  | refl => exact ⟨coherent, .refl state, id⟩
  | tail _ move ih => ?_
  obtain ⟨between, persists, outside⟩ := ih
  cases move with
  | idle idle side kept =>
    exact ⟨between.idle idle, persists.trans (idle.persists side), fun held => kept (outside held)⟩
  | touch touches => ?_
  obtain ⟨cell, before, content, found, written, stamped, touched⟩ := touches.writes
  exact ⟨between.touch found written stamped touched, persists.trans touches.persists,
    fun held => touches.outside (outside held)⟩

/-! ## Assignments -/

variable {journal : SaveJournal R} {mutation : Mutation R}

theorem recordMutation_outside (depth : journal.transactionDepth = 0)
    (entries : journal.transactionEntries = []) :
    (journal.recordMutation mutation).transactionDepth = 0 ∧
      (journal.recordMutation mutation).transactionEntries = [] := by
  rw [SaveJournal.recordMutation_transactionDepth, SaveJournal.recordMutation_transactionEntries]
  have closed : (journal.retainDelta mutation).transactionDepth = 0 := by
    rw [SaveJournal.retainDelta_transactionDepth, depth]
  unfold SaveJournal.retainOperation
  rw [if_neg (Decidable.not_not.mpr closed)]
  exact ⟨closed, by rw [SaveJournal.retainDelta_transactionEntries, entries]⟩

theorem recordMutation_activeGroups :
    (journal.recordMutation mutation).activeGroups.length = journal.activeGroups.length := by
  obtain ⟨kept, shape⟩ := SaveJournal.retainOperation_eq (journal.retainDelta mutation) mutation
  unfold SaveJournal.recordMutation SaveJournal.retainSave
  rw [shape]
  split
  · rw [SaveJournal.retainDelta_activeGroups]
  rw [SaveJournal.retainDelta_activeGroups]
  cases journal.activeGroups with
  | nil => rfl
  | cons group outer => rfl

variable {cell : StateCell}

theorem assign_touches {value : StateWord R} {scope : AssignmentScope}
    (representable : cell.Representable)
    (position : state.journal.savePosition = state.journal.activeSequence.length)
    (assigned : state.assign cell value scope = .ok next) : Touches state next := by
  obtain ⟨before, banks, found, written, rfl⟩ := assign_eq_ok assigned
  refine ⟨⟨cell, before, _, found, written, rfl, assignedJournal_touched representable position⟩,
    fun outside => ?_, fun paired => ?_⟩
  · unfold Outside assignedJournal
    dsimp only
    split
    · exact recordMutation_outside outside.1 outside.2
    · exact outside
  unfold Paired assignedJournal
  dsimp only
  split
  · rw [recordMutation_activeGroups]
    exact paired
  · exact paired

/-! ## Groups -/

variable {kind : GroupKind}

theorem beginGroup_idle {line : Nat} (begun : state.beginGroup kind line = .ok next) :
    Moves state next := by
  obtain ⟨frame, _, _, _, rfl⟩ := beginGroup_eq_ok begun
  refine .idle ⟨rfl, rfl, rfl, rfl, rfl, fun _ member => member, ?_, fun paired => ?_⟩ (.refl _)
    fun outside => outside
  · simp [SaveJournal.recordGroupEnter]
  simp only [Paired, SaveJournal.recordGroupEnter, List.length_cons]
  rw [paired]

theorem restoreGroupMutation_moves {saved : Mutation R}
    (position : state.journal.savePosition = state.journal.activeSequence.length)
    (restored : state.restoreGroupMutation saved = .ok next) :
    Relation.ReflTransGen Moves state next := by
  obtain ⟨current, reading, restored⟩ := bind_eq_ok.mp restored
  split at restored
  · cases pure_eq_ok.mp restored
    exact .refl
  obtain ⟨written, writing, restored⟩ := bind_eq_ok.mp restored
  obtain ⟨banks, storing, writing⟩ := bind_eq_ok.mp writing
  cases pure_eq_ok.mp writing
  cases pure_eq_ok.mp restored
  refine .single (.touch ⟨⟨saved.cell, current, _, Banks.contents_eq_some.mpr reading,
    Banks.writeCell_written storing, rfl, ?_⟩, fun outside => ?_, fun paired => ?_⟩)
  · exact recordMutation_touched saved.cell_representable current none position
  · exact recordMutation_outside outside.1 outside.2
  · exact paired.trans recordMutation_activeGroups.symm

section Unwinding

variable {P : DenseState R → Prop}
  (restores : ∀ (state next : DenseState R) (saved : Mutation R), P state →
    state.restoreGroupMutation saved = .ok next → P next)

include restores

theorem restoreSparse_keeps {records : List (Nat × Mutation R)} {boxes left : BoxUnsave}
    (held : P state) (restored : state.restoreSparse boxes records = .ok (next, left)) : P next := by
  induction records generalizing state boxes with
  | nil =>
    cases restored
    exact held
  | cons record later ih =>
    obtain ⟨between, restoring, restored⟩ := bind_eq_ok.mp restored
    exact ih (restores _ _ _ held restoring) restored

variable {unwind left : Unwind R}

theorem Unwind.restoreSparse_keeps (held : P unwind.state)
    (restored : unwind.restoreSparse = .ok left) : P left.state := by
  obtain ⟨⟨between, boxes⟩, restoring, restored⟩ := bind_eq_ok.mp restored
  cases pure_eq_ok.mp restored
  exact DenseState.restoreSparse_keeps restores held restoring

theorem Unwind.restoreSparseWhen_keeps {passed : Bool} (held : P unwind.state)
    (restored : unwind.restoreSparseWhen passed = .ok left) : P left.state := by
  unfold Unwind.restoreSparseWhen at restored
  split at restored
  · exact Unwind.restoreSparse_keeps restores held restored
  cases restored
  exact held

theorem restoreBoxesAbove_keeps {limit : Nat} {keys : List Nat} (held : P unwind.state)
    (restored : restoreBoxesAbove limit keys unwind = .ok left) : P left.state := by
  induction keys generalizing unwind with
  | nil =>
    cases restored
    exact held
  | cons key later ih => ?_
  unfold restoreBoxesAbove at restored
  split at restored
  · obtain ⟨between, restoring, restored⟩ := bind_eq_ok.mp restored
    exact ih (Unwind.restoreSparseWhen_keeps restores held restoring) restored
  cases restored
  exact held

variable {frame : GroupFrame}

theorem Unwind.restoreEntry_keeps {index : Nat} {entry : JournalEntry R} (held : P unwind.state)
    (restored : unwind.restoreEntry frame index entry = .ok left) : P left.state := by
  cases entry with
  | groupEnter entered =>
    cases restored
    exact held
  | mutation saved => ?_
  unfold Unwind.restoreEntry at restored
  dsimp only at restored
  split at restored
  · split at restored
    · cases restored
      exact held
    obtain ⟨between, restoring, restored⟩ := bind_eq_ok.mp restored
    cases pure_eq_ok.mp restored
    exact restores _ _ _ held restoring
  cases restored
  exact held

theorem unsaveEntries_keeps {records : List (JournalEntry R × Nat)} (held : P unwind.state)
    (restored : unsaveEntries frame unwind records = .ok left) : P left.state := by
  induction records generalizing unwind with
  | nil =>
    cases restored
    exact held
  | cons record earlier ih => ?_
  obtain ⟨between, entry, restored⟩ := bind_eq_ok.mp restored
  refine ih ?_ restored
  obtain ⟨boxed, boxes, entry⟩ := bind_eq_ok.mp entry
  obtain ⟨passed, sparse, entry⟩ := bind_eq_ok.mp entry
  obtain ⟨settled, scalar, entry⟩ := bind_eq_ok.mp entry
  have first := restoreBoxesAbove_keeps restores held boxes
  have second := Unwind.restoreSparseWhen_keeps restores first sparse
  have third := Unwind.restoreEntry_keeps restores second scalar
  exact Unwind.restoreSparseWhen_keeps restores third entry

theorem unsave_keeps {frame : GroupFrame} {boxes : BoxUnsave} (held : P state)
    (restored : state.unsave frame boxes = .ok next) :
    ∃ unwound journal, P unwound ∧ unwound.journal.recordGroupExitWithRecords frame = .ok journal ∧
      next = { unwound with groups := unwound.groups.tail, journal } := by
  obtain ⟨walked, walking, restored⟩ := bind_eq_ok.mp restored
  obtain ⟨boxed, boxing, restored⟩ := bind_eq_ok.mp restored
  obtain ⟨settled, sparse, restored⟩ := bind_eq_ok.mp restored
  obtain ⟨journal, exiting, restored⟩ := bind_eq_ok.mp restored
  cases pure_eq_ok.mp restored
  have first : P walked.state := unsaveEntries_keeps restores held walking
  have second := restoreBoxesAbove_keeps restores first boxing
  exact ⟨settled.state, journal, Unwind.restoreSparse_keeps restores second sparse, exiting, rfl⟩

end Unwinding

theorem Moves.position {state next : DenseState R} (moves : Moves state next) :
    next.journal.savePosition = next.journal.activeSequence.length := by
  cases moves with
  | idle idle _ _ => exact idle.position
  | touch touches =>
    obtain ⟨_, _, _, _, _, _, touched⟩ := touches.writes
    exact touched.position

theorem position_of_moves
    (position : state.journal.savePosition = state.journal.activeSequence.length)
    (moves : Relation.ReflTransGen Moves state next) :
    next.journal.savePosition = next.journal.activeSequence.length := by
  cases moves with
  | refl => exact position
  | tail _ last => exact last.position

theorem endGroup_moves {boxes : BoxUnsave}
    (position : state.journal.savePosition = state.journal.activeSequence.length)
    (ended : state.endGroup kind boxes = .ok next) : Relation.ReflTransGen Moves state next := by
  obtain ⟨frame, _, unsaved⟩ := bind_eq_ok.mp ended
  obtain ⟨unwound, journal, walked, exiting, rfl⟩ :=
    @unsave_keeps R _ _ (Relation.ReflTransGen Moves state)
      (fun _ _ _ before restored =>
        before.trans (restoreGroupMutation_moves (position_of_moves position before) restored))
      _ _ .refl unsaved
  refine walked.tail ?_
  unfold SaveJournal.recordGroupExitWithRecords at exiting
  split at exiting
  · cases exiting
  rename_i group outer open_
  cases exiting
  refine .idle ⟨rfl, rfl, rfl, rfl, rfl, fun _ member => member, rfl, fun paired => ?_⟩ (.refl _)
    fun outside => outside
  unfold Paired at paired ⊢
  rw [List.length_tail, paired, open_]
  rfl

/-! ## State transactions -/

theorem Coherent.undoEntries (coherent : Coherent state history) {entries : List (Mutation R)}
    (held : ∀ mutation ∈ entries, mutation ∈ state.journal.transactionEntries)
    (undone : state.undoEntries entries = .ok next) :
    Coherent next history ∧ Persists state next ∧ next.journal = state.journal := by
  induction entries generalizing state with
  | nil =>
    cases undone
    exact ⟨coherent, .refl next, rfl⟩
  | cons mutation earlier ih => ?_
  obtain ⟨between, writing, undone⟩ := bind_eq_ok.mp undone
  obtain ⟨banks, storing, writing⟩ := bind_eq_ok.mp writing
  obtain rfl := pure_eq_ok.mp writing
  obtain ⟨content, found, stamp⟩ :=
    coherent.operations mutation (held mutation List.mem_cons_self)
  have touches : Touches state { state with banks } :=
    ⟨⟨mutation.cell, content, _, found, Banks.writeCell_written storing, rfl,
      ⟨.inr ⟨stamp, rfl, rfl⟩, rfl, fun _ member => .inl member, coherent.position⟩⟩,
      fun outside => outside, fun paired => paired⟩
  obtain ⟨between, persists, _⟩ := coherent.moves (.single (.touch touches))
  obtain ⟨last, kept, journal⟩ :=
    ih between (fun other member => held other (List.mem_cons_of_mem _ member)) undone
  exact ⟨last, persists.trans kept, journal⟩

variable {operation : StateOperation}

section

variable (coherent : Coherent state history)
include coherent

theorem beginStateTransaction_idle (begun : state.beginStateTransaction = (operation, next)) :
    Idle state next ∧ next.journal.checkpointArena = state.journal.checkpointArena := by
  cases begun
  refine ⟨?_, rfl⟩
  exact ⟨rfl, rfl, rfl, rfl, rfl, fun _ member => member, coherent.position, fun paired => paired⟩

theorem rollStateTransaction_idle (rolled : state.rollStateTransaction = (operation, next)) :
    Idle state next ∧ next.journal.checkpointArena = state.journal.checkpointArena := by
  unfold rollStateTransaction SaveJournal.rollTransaction at rolled
  cases rolled
  split
  · refine ⟨?_, rfl⟩
    exact ⟨rfl, rfl, rfl, rfl, rfl, nofun, coherent.position, fun paired => paired⟩
  refine ⟨?_, rfl⟩
  exact ⟨rfl, rfl, rfl, rfl, rfl, fun _ member => member, coherent.position, fun paired => paired⟩

theorem commitStateTransaction_idle {position : Nat}
    (committed : state.commitStateTransaction position = .ok next) :
    Idle state next ∧ next.journal.checkpointArena = state.journal.checkpointArena := by
  obtain ⟨journal, committing, committed⟩ := bind_eq_ok.mp committed
  cases pure_eq_ok.mp committed
  unfold SaveJournal.commitTransaction at committing
  split at committing
  · cases committing
  cases committing
  refine ⟨⟨rfl, rfl, rfl, rfl, rfl, fun mutation member => ?_, coherent.position,
    fun paired => paired⟩, rfl⟩
  dsimp only at member
  split at member
  · cases member
  · exact member

end

theorem popGroups_length {depth : Nat} {groups : List GroupMark} (deep : depth ≤ groups.length)
    {sequence : List (JournalEntry R)} :
    (SaveJournal.popGroups depth sequence groups).2.length = depth := by
  induction groups generalizing sequence with
  | nil => exact (Nat.le_zero.mp deep).symm
  | cons group outer ih => ?_
  unfold SaveJournal.popGroups
  split
  · rename_i above
    exact ih (Nat.le_of_lt_succ above)
  rename_i here
  exact Nat.le_antisymm (Nat.le_of_not_lt here) deep

theorem rollbackGroupSuffix_eq_ok {suffixed : SaveJournal R}
    (rolledBack : journal.rollbackGroupSuffix operation = .ok suffixed) :
    operation.groupDepth ≤ journal.activeGroups.length ∧
      suffixed.activeGroups.length = operation.groupDepth ∧
      suffixed.checkpointArena = journal.checkpointArena ∧
      suffixed.checkpointEntries = journal.checkpointEntries ∧
      suffixed.saveSerial = journal.saveSerial ∧
      suffixed.transactionEntries = journal.transactionEntries ∧
      suffixed.savePosition = suffixed.activeSequence.length := by
  unfold SaveJournal.rollbackGroupSuffix at rolledBack
  split at rolledBack
  · cases rolledBack
  rename_i deep
  have deep := Nat.le_of_not_lt deep
  dsimp only at rolledBack
  by_cases short : (SaveJournal.popGroups operation.groupDepth journal.activeSequence
      journal.activeGroups).1.length < operation.savePosition
  · rw [if_pos short] at rolledBack
    cases rolledBack
  rw [if_neg short] at rolledBack
  obtain rfl := Except.ok.inj rolledBack
  refine ⟨deep, ?_, rfl, rfl, rfl, rfl, (List.length_take_of_le (Nat.le_of_not_lt short)).symm⟩
  have popped := @popGroups_length R _ _ deep journal.activeSequence
  dsimp only
  split
  · rename_i none_
    rw [none_] at popped
    exact popped
  rename_i some_
  rw [some_] at popped
  exact popped

theorem finishTransactionRollback_eq_ok {finished : SaveJournal R} {position : Nat}
    (rolledBack : journal.finishTransactionRollback position = .ok finished) :
    { journal with
      transactionEntries := journal.transactionEntries.take position
      transactionDepth := journal.transactionDepth - 1 } = finished := by
  unfold SaveJournal.finishTransactionRollback at rolledBack
  split at rolledBack
  · cases rolledBack
  · exact Except.ok.inj rolledBack

theorem Coherent.rollbackStateTransaction (coherent : Coherent state history)
    (rolledBack : state.rollbackStateTransaction operation = .ok next) :
    Coherent next history ∧ Persists state next := by
  obtain ⟨undone, undoing, rolledBack⟩ := bind_eq_ok.mp rolledBack
  obtain ⟨suffixed, suffix, rolledBack⟩ := bind_eq_ok.mp rolledBack
  obtain ⟨journal, finishing, rolledBack⟩ := bind_eq_ok.mp rolledBack
  cases pure_eq_ok.mp rolledBack
  obtain ⟨between, persists, _⟩ := coherent.undoEntries
    (fun mutation member => List.mem_of_mem_drop (List.mem_reverse.mp member)) undoing
  obtain ⟨deep, depth, arena, entries, serial, operations, position⟩ :=
    rollbackGroupSuffix_eq_ok suffix
  obtain rfl := finishTransactionRollback_eq_ok finishing
  have idle : Idle undone { undone with
      groups := undone.groups.drop (undone.groups.length - operation.groupDepth)
      journal := { suffixed with
        transactionEntries := suffixed.transactionEntries.take operation.transactionPosition
        transactionDepth := suffixed.transactionDepth - 1 } } := by
    refine ⟨rfl, congrArg CheckpointArena.live arena, congrArg CheckpointArena.nextKey arena,
      entries, serial, fun mutation member => ?_, position, fun paired => ?_⟩
    · rw [← operations]
      exact List.mem_of_mem_take member
    unfold Paired at paired ⊢
    rw [← paired] at deep
    rw [depth, List.length_drop, Nat.sub_sub_self deep]
  refine ⟨between.idle idle, persists.trans (idle.persists ?_)⟩
  dsimp only
  rw [arena]
  exact .refl _

/-! ## Restores -/

theorem restoreValidated_persists {cursor : JournalCursor} (coherent : Coherent state history)
    (restored : state.restoreValidated cursor = .ok next) :
    Persists state next ∧ (state.Outside → next.Outside) ∧
      next.groups = [] ∧ next.journal.activeGroups = [] ∧ next.journal.activeSequence = [] := by
  obtain ⟨_, _, arena, rewinding, cutting, rfl⟩ := restoreValidated_shape restored
  obtain ⟨_, _, found, _, _, shape, _⟩ := @rewind_rewinds R state.banks
    (state.journal.checkpointSuffix cursor)
    (fun chunk member => coherent.exchangeable chunk (List.mem_of_mem_drop member))
  cases rewinding.symm.trans found
  obtain ⟨live, nextKey⟩ := CheckpointArena.restoreCheckpoint_eq_ok cutting
  refine ⟨⟨CheckpointArena.restoreCheckpoint_sameSide cutting, Nat.le_of_eq nextKey.symm,
    Nat.le_succ _, ?_, shape.installed, fun _ => rfl⟩, fun outside => outside, rfl, rfl, rfl⟩
  exact ⟨_, [], by rw [List.append_nil]; exact live, nofun⟩

theorem restoreCheckpointCursor_eq_ok {cursor : DenseStateCursor}
    (restored : state.restoreCheckpointCursor cursor = .ok next) :
    next = { state with banks := state.banks.truncateRows cursor.fontRuntimeRows } := by
  unfold restoreCheckpointCursor at restored
  split at restored
  · exact (Except.ok.inj restored).symm
  · cases restored

theorem installed_truncateRows {banks : Banks R} {rows : Nat} (installed : banks.Installed cell) :
    (banks.truncateRows rows).Installed cell := by
  cases cell <;> exact installed

/-! ## Steps -/

variable {later before : List (Capture R)}

/-- Checkpoints of an earlier generation stand before those of the run. -/
theorem Coherent.plainStep (coherent : Coherent state (before ++ history))
    (step : PlainStep StateCell.Representable state history next later) :
    Coherent next (before ++ later) ∧ Persists state next ∧ (state.Outside → next.Outside) := by
  cases step with
  | assign representable assigned =>
    exact coherent.moves (.single (.touch
      (assign_touches representable coherent.position assigned)))
  | grow grows =>
    have grown := coherent.grow grows
    obtain ⟨banks, rfl, kept⟩ := grows.grown
    exact ⟨grown, ⟨.refl _, Nat.le_refl _, Nat.le_refl _, .refl _ _, kept.installed, fun paired => paired⟩,
      fun outside => outside⟩
  | beginGroup begun => exact coherent.moves (.single (beginGroup_idle begun))
  | endGroup ended => exact coherent.moves (endGroup_moves coherent.position ended)
  | capture captured =>
    rw [← List.append_assoc]
    refine ⟨coherent.journalCursor captured, ?_⟩
    obtain ⟨_, _, rfl⟩ := journalCursor_eq_ok captured
    exact ⟨⟨.refl _, Nat.le_refl _, Nat.le_succ _, .refl _ _, fun _ held => held, fun paired => paired⟩,
      fun outside => outside⟩
  | restore member restored =>
    have held := List.mem_append_right before member
    obtain ⟨names, rewoundTo⟩ := coherent.restore held restored
    obtain ⟨_, _, restored⟩ := bind_eq_ok.mp restored
    obtain ⟨persists, outside, _⟩ := restoreValidated_persists coherent restored
    exact ⟨coherent.rewoundTo held names rewoundTo, persists, outside⟩
  | restoreAfterReplay member restored =>
    have held := List.mem_append_right before member
    obtain ⟨names, rewoundTo⟩ := coherent.restoreAfterReplay held restored
    obtain ⟨_, _, restored⟩ := bind_eq_ok.mp restored
    obtain ⟨persists, outside, _⟩ := restoreValidated_persists coherent restored
    exact ⟨coherent.rewoundTo held names rewoundTo, persists, outside⟩
  | @restoreCheckpoint between _ earlier after capture restored truncated => ?_
  have held : capture ∈ before ++ (earlier ++ capture :: after) :=
    List.mem_append_right _ (List.mem_append_right _ List.mem_cons_self)
  obtain ⟨names, rewoundTo⟩ := coherent.restore held restored
  obtain ⟨_, _, restored⟩ := bind_eq_ok.mp restored
  obtain ⟨persists, outside, _⟩ := restoreValidated_persists coherent restored
  obtain rfl := restoreCheckpointCursor_eq_ok truncated
  have fewer : ((before ++ earlier) ++ [capture]).Sublist
      (before ++ (earlier ++ capture :: after)) := by
    rw [← List.append_assoc]
    exact (List.Sublist.refl _).append (List.singleton_sublist.mpr List.mem_cons_self)
  have rewound := (coherent.rewoundTo held names rewoundTo).sublist fewer
  have end_ : capture.mark = between.lane.length := by
    rw [rewoundTo.lane, List.length_take_of_le names.1]
    rfl
  have named : Names between.lane capture.cursor := by
    rw [rewoundTo.lane]
    exact names.take (Nat.le_refl _)
  rw [← List.append_assoc]
  exact ⟨rewound.truncateRows named end_ rewoundTo.operations,
    persists.trans ⟨.refl _, Nat.le_refl _, Nat.le_refl _, .refl _ _,
      fun _ held => installed_truncateRows held, fun paired => paired⟩,
    fun held => outside held⟩

theorem Coherent.step (coherent : Coherent state history)
    (step : Step StateCell.Representable state history next later) :
    Coherent next later ∧ Persists state next := by
  cases step with
  | plain plain =>
    obtain ⟨kept, persists, _⟩ := @Coherent.plainStep R _ _ _ _ [] coherent plain
    exact ⟨kept, persists⟩
  | beginTransaction begun =>
    obtain ⟨idle, arena⟩ := beginStateTransaction_idle coherent begun
    exact ⟨coherent.idle idle, idle.persists (by rw [arena]; exact .refl _)⟩
  | rollTransaction rolled =>
    obtain ⟨idle, arena⟩ := rollStateTransaction_idle coherent rolled
    exact ⟨coherent.idle idle, idle.persists (by rw [arena]; exact .refl _)⟩
  | commitTransaction committed =>
    obtain ⟨idle, arena⟩ := commitStateTransaction_idle coherent committed
    exact ⟨coherent.idle idle, idle.persists (by rw [arena]; exact .refl _)⟩
  | rollbackTransaction rolledBack => exact coherent.rollbackStateTransaction rolledBack

/-- A candidate generation keeps the checkpoints of the accepted one it began at. -/
theorem Coherent.candidateRun {start : DenseState R} (coherent : Coherent start before)
    (run : CandidateRun StateCell.Representable start state history) :
    Coherent state (before ++ history) ∧ Persists start state ∧ (start.Outside → state.Outside) := by
  induction run with
  | begun =>
    rw [List.append_nil]
    exact ⟨coherent, .refl start, fun outside => outside⟩
  | step _ step ih => ?_
  obtain ⟨between, persists, outside⟩ := ih
  obtain ⟨last, kept, still⟩ := between.plainStep step
  exact ⟨last, persists.trans kept, fun held => still (outside held)⟩

end DenseState

end Umber.State
