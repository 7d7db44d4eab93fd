import Umber.State.Checkpoint
import Umber.State.ExchangeProperties

/-! Why a checkpoint restores exactly: the lane behind its mark holds the oldest
displaced value of every cell written since. -/

set_option autoImplicit false

namespace Umber.State

open ExceptLib UndoLog CheckpointArena SaveJournal

variable {R : References}

/-! ## Font rows -/

def StateCell.Below (rows : Nat) : StateCell → Prop
  | .fontRuntime cell => cell.font.toNat < rows
  | _ => True

variable {more : Nat}

theorem StateCell.Below.mono {rows : Nat} {cell : StateCell} (below : cell.Below rows)
    (le : rows ≤ more) : cell.Below more := by
  cases cell with
  | fontRuntime font => exact Nat.lt_of_lt_of_le below le
  | _ => trivial

namespace Banks

variable {banks : Banks R} {cell : StateCell} {content : BankCell (StateWord R)} {rows : Nat}

def truncateRows (banks : Banks R) (rows : Nat) : Banks R :=
  { banks with fontRuntime := banks.fontRuntime.truncate rows }

theorem below_of_contents (found : banks.contents cell = some content) :
    cell.Below banks.fontRuntime.rows.length := by
  have reading := contents_eq_some.mp found
  cases cell with
  | fontRuntime font =>
    have located : ∃ value, banks.fontRuntime.read font = .ok value := by
      unfold readCell at reading
      dsimp only at reading
      split at reading
      · rename_i read
        exact ⟨_, read⟩
      · rename_i read
        exact ⟨_, read⟩
      · cases reading
    obtain ⟨value, read⟩ := located
    obtain ⟨row, located, _⟩ := bind_eq_ok.mp read
    unfold FontRuntimeBank.row at located
    split at located
    · rename_i position
      exact (List.getElem?_eq_some_iff.mp position).1
    · cases located
  | _ => trivial

theorem contents_fontRuntime {other : Banks R} {font : FontRuntimeCell}
    (same : banks.fontRuntime.read font = other.fontRuntime.read font) :
    banks.contents (.fontRuntime font) = other.contents (.fontRuntime font) := by
  simp only [contents, readCell, same]

theorem contents_truncateRows (below : cell.Below rows) :
    (banks.truncateRows rows).contents cell = banks.contents cell := by
  cases cell with
  | fontRuntime font =>
    have same : (banks.fontRuntime.truncate rows).read font = banks.fontRuntime.read font := by
      have located : (banks.fontRuntime.truncate rows).row font.font =
          banks.fontRuntime.row font.font := by
        unfold FontRuntimeBank.row FontRuntimeBank.truncate
        rw [List.getElem?_take_of_lt below]
      rw [FontRuntimeBank.read, located, ← FontRuntimeBank.read]
    exact contents_fontRuntime same
  | _ => rfl

theorem contents_of_truncateRows (found : (banks.truncateRows rows).contents cell = some content) :
    cell.Below rows ∧ banks.contents cell = some content := by
  have below : cell.Below rows := by
    have inside := below_of_contents found
    refine inside.mono ?_
    exact List.length_take_le _ _
  rw [contents_truncateRows below] at found
  exact ⟨below, found⟩

end Banks

/-! ## The lane -/

namespace CheckpointArena

variable {arena next : CheckpointArena R}

theorem live_push (arena : CheckpointArena R) (delta : CheckpointDelta R) :
    (arena.push delta).live = arena.live ++ [{ key := arena.nextKey, delta }] := by
  unfold push live
  cases arena.ownership with
  | accepted payload => rfl
  | forked kept detachedPrior current => exact (List.append_assoc ..).symm

theorem restoreCheckpoint_eq_ok {mark : CheckpointMark}
    (restored : arena.restoreCheckpoint mark = .ok next) :
    next.live = arena.live.take mark.payloadChunks ∧ next.nextKey = arena.nextKey := by
  unfold restoreCheckpoint at restored
  unfold live
  cases owned : arena.ownership with
  | accepted payload =>
    rw [owned] at restored
    cases restored
    exact ⟨rfl, rfl⟩
  | forked kept detachedPrior current => ?_
  rw [owned] at restored
  dsimp only at restored ⊢
  split at restored
  · rename_i inside
    cases restored
    refine ⟨?_, rfl⟩
    rw [List.take_append, List.take_of_length_le inside]
  · cases restored

variable {chunks : List (Chunk R)} {position : Nat}

theorem keyBelow_append (inside : position ≤ chunks.length) (more : List (Chunk R)) :
    keyBelow (chunks ++ more) position = keyBelow chunks position := by
  cases position with
  | zero => rfl
  | succ index =>
    simp only [keyBelow, List.getElem?_append_left inside]

theorem keyBelow_take {count : Nat} (inside : position ≤ count) :
    keyBelow (chunks.take count) position = keyBelow chunks position := by
  cases position with
  | zero => rfl
  | succ index =>
    simp only [keyBelow, List.getElem?_take_of_lt inside]

end CheckpointArena

/-! ## The invariant -/

def Capture.mark (capture : Capture R) : Nat := capture.cursor.checkpoint.payloadChunks

structure Issued (nextKey : Nat) (cursor : JournalCursor) : Prop where
  entries : cursor.checkpointEntries = cursor.checkpoint.payloadChunks
  groupDepth : cursor.groupDepth = 0
  savePosition : cursor.savePosition = 0
  tail : cursor.checkpoint.payloadChunks ≠ 0 →
    ∃ key < nextKey, cursor.checkpoint.payloadTail = some key

variable {nextKey : Nat} {cursor : JournalCursor}

theorem Issued.mono (issued : Issued nextKey cursor) (le : nextKey ≤ more) :
    Issued more cursor := by
  refine ⟨issued.entries, issued.groupDepth, issued.savePosition, fun marked => ?_⟩
  obtain ⟨key, bound, tail⟩ := issued.tail marked
  exact ⟨key, Nat.lt_of_lt_of_le bound le, tail⟩

def Names (live : List (Chunk R)) (cursor : JournalCursor) : Prop :=
  cursor.checkpoint.payloadChunks ≤ live.length ∧
    (cursor.checkpoint.payloadChunks = 0 ∨
      cursor.checkpoint.payloadTail =
        keyBelow live cursor.checkpoint.payloadChunks)

variable {live : List (Chunk R)} {count : Nat}

theorem Names.take (names : Names live cursor) (inside : cursor.checkpoint.payloadChunks ≤ count) :
    Names (live.take count) cursor := by
  refine ⟨by rw [List.length_take]; exact Nat.le_min.mpr ⟨inside, names.1⟩, ?_⟩
  rw [keyBelow_take inside]
  exact names.2

theorem Names.of_take (names : Names (live.take count) cursor) :
    Names live cursor ∧ cursor.checkpoint.payloadChunks ≤ count := by
  obtain ⟨bounded, tail⟩ := names
  rw [List.length_take] at bounded
  have inside : cursor.checkpoint.payloadChunks ≤ count := Nat.le_trans bounded (Nat.min_le_left ..)
  rw [keyBelow_take inside] at tail
  exact ⟨⟨Nat.le_trans bounded (Nat.min_le_right ..), tail⟩, inside⟩

theorem Names.append (names : Names live cursor) (more : List (Chunk R)) :
    Names (live ++ more) cursor := by
  refine ⟨by rw [List.length_append]; exact Nat.le_add_right_of_le names.1, ?_⟩
  rw [keyBelow_append names.1]
  exact names.2

/-- A new chunk has a key that no earlier cursor has. -/
theorem Names.of_append (issued : Issued nextKey cursor) {delta : CheckpointDelta R}
    (names : Names (live ++ [{ key := nextKey, delta }]) cursor) : Names live cursor := by
  obtain ⟨bounded, tail⟩ := names
  by_cases inside : cursor.checkpoint.payloadChunks ≤ live.length
  · rw [keyBelow_append inside] at tail
    exact ⟨inside, tail⟩
  rw [List.length_append, List.length_singleton] at bounded
  have last : cursor.checkpoint.payloadChunks = live.length + 1 :=
    Nat.le_antisymm bounded (Nat.lt_of_not_le inside)
  obtain ⟨key, earlier, issuedTail⟩ := issued.tail (by rw [last]; exact Nat.succ_ne_zero _)
  have here : cursor.checkpoint.payloadTail = some nextKey := by
    rcases tail with zero | tail
    · rw [last] at zero
      cases zero
    rw [tail, last]
    simp [keyBelow]
  rw [issuedTail] at here
  cases here
  exact absurd earlier (Nat.lt_irrefl _)

namespace DenseState

def lane (state : DenseState R) : List (Chunk R) := state.journal.checkpointArena.live

structure Holds (state : DenseState R) (capture : Capture R) : Prop where
  contents : ∀ cell content, capture.contents cell = some content →
    rewound (entriesOf (state.lane.drop capture.mark)) state.banks.contents cell = some content
  below : ∀ chunk ∈ state.lane.take capture.mark,
    chunk.delta.cell.Below capture.dense.fontRuntimeRows
  domain : ∀ cell content, capture.contents cell = some content →
    cell.Below capture.dense.fontRuntimeRows
  rows : capture.dense.fontRuntimeRows ≤ state.banks.fontRuntime.rows.length
  covered : ∀ cell content, state.banks.contents cell = some content →
    content.saveSerial = state.journal.saveSerial →
      ∃ chunk ∈ state.lane.drop capture.mark, chunk.delta.cell = cell

structure Coherent (state : DenseState R) (history : List (Capture R)) : Prop where
  position : state.journal.savePosition = state.journal.activeSequence.length
  entries : state.journal.checkpointEntries = state.lane.length
  keys : ∀ chunk ∈ state.lane, chunk.key < state.journal.checkpointArena.nextKey
  exchangeable : ∀ chunk ∈ state.lane, Exchangeable state.banks chunk
  stamps : ∀ cell content, state.banks.contents cell = some content →
    content.saveSerial ≤ state.journal.saveSerial
  retained : ∀ chunk ∈ state.lane, chunk.delta.alternate.saveSerial ≤ state.journal.saveSerial
  begun : history ≠ [] → 0 < state.journal.saveSerial
  operations : ∀ mutation ∈ state.journal.transactionEntries, ∃ content,
    state.banks.contents mutation.cell = some content ∧
      content.saveSerial = state.journal.saveSerial
  issued : ∀ capture ∈ history, Issued state.journal.checkpointArena.nextKey capture.cursor
  holds : ∀ capture ∈ history, Names state.lane capture.cursor → state.Holds capture
  ordered : history.Pairwise fun earlier later =>
    Names state.lane earlier.cursor → Names state.lane later.cursor →
      earlier.mark ≤ later.mark ∧ earlier.dense.fontRuntimeRows ≤ later.dense.fontRuntimeRows

variable {state next : DenseState R} {history : List (Capture R)} {capture : Capture R}

/-- A captured cursor is accepted just when the lane names it. -/
theorem Coherent.validateCursorShape (coherent : Coherent state history) {nextKey : Nat}
    (issued : Issued nextKey capture.cursor) :
    state.journal.validateCursorShape capture.cursor = true ↔ Names state.lane capture.cursor := by
  simp only [SaveJournal.validateCursorShape, validatesCheckpoint,
    Bool.and_eq_true, Bool.or_eq_true, decide_eq_true_eq, issued.entries, issued.groupDepth,
    issued.savePosition, coherent.entries, and_true]
  constructor
  · rintro ⟨_, names⟩
    exact names
  intro names
  exact ⟨names.1, names⟩

theorem Coherent.sublist {fewer : List (Capture R)} (coherent : Coherent state history)
    (sublist : fewer.Sublist history) : Coherent state fewer := by
  refine ⟨coherent.position, coherent.entries, coherent.keys, coherent.exchangeable,
    coherent.stamps, coherent.retained, fun some => coherent.begun ?_, coherent.operations,
    fun capture member => coherent.issued capture (sublist.subset member),
    fun capture member => coherent.holds capture (sublist.subset member),
    coherent.ordered.sublist sublist⟩
  rintro rfl
  exact some (List.sublist_nil.mp sublist)

theorem Fresh.coherent (fresh : state.Fresh) : Coherent state [] := by
  have journal := fresh.journal
  have lane : state.lane = [] := by rw [DenseState.lane, journal]; rfl
  refine ⟨by rw [journal]; rfl, by rw [lane, journal]; rfl, ?_, ?_, fun cell content found => ?_,
    ?_, fun some => absurd rfl some, ?_, nofun,
    nofun, .nil⟩
  · rw [lane]
    exact nofun
  · rw [lane]
    exact nofun
  · rw [fresh.stamps cell content found]
    exact Nat.zero_le _
  · rw [lane]
    exact nofun
  rw [journal]
  exact nofun

/-! ## Steps that leave the lane -/

def Paired (state : DenseState R) : Prop :=
  state.groups.length = state.journal.activeGroups.length

structure Idle (state next : DenseState R) : Prop where
  banks : next.banks = state.banks
  lane : next.lane = state.lane
  nextKey : next.journal.checkpointArena.nextKey = state.journal.checkpointArena.nextKey
  entries : next.journal.checkpointEntries = state.journal.checkpointEntries
  serial : next.journal.saveSerial = state.journal.saveSerial
  operations : ∀ mutation ∈ next.journal.transactionEntries,
    mutation ∈ state.journal.transactionEntries
  position : next.journal.savePosition = next.journal.activeSequence.length
  paired : state.Paired → next.Paired

theorem Coherent.idle (coherent : Coherent state history) (idle : Idle state next) :
    Coherent next history := by
  have lane := idle.lane
  refine ⟨idle.position, ?_, ?_, ?_, ?_, ?_, ?_, ?_, ?_, fun capture member names => ?_, ?_⟩
  · rw [idle.entries, lane, coherent.entries]
  · rw [lane, idle.nextKey]
    exact coherent.keys
  · rw [lane, idle.banks]
    exact coherent.exchangeable
  · rw [idle.banks, idle.serial]
    exact coherent.stamps
  · rw [lane, idle.serial]
    exact coherent.retained
  · rw [idle.serial]
    exact coherent.begun
  · rw [idle.banks, idle.serial]
    exact fun mutation member => coherent.operations mutation (idle.operations mutation member)
  · rw [idle.nextKey]
    exact coherent.issued
  · rw [lane] at names
    have holds := coherent.holds capture member names
    refine ⟨?_, ?_, holds.domain, ?_, ?_⟩
    · rw [lane, idle.banks]
      exact holds.contents
    · rw [lane]
      exact holds.below
    · rw [idle.banks]
      exact holds.rows
    rw [lane, idle.banks, idle.serial]
    exact holds.covered
  rw [lane]
  exact coherent.ordered

/-! ## Steps that write a cell -/

/-- The journal behind a write of a cell: its displaced content goes to the lane
when it is the first one of the interval. -/
structure Touched (journal next : SaveJournal R) (cell : StateCell)
    (before : BankCell (StateWord R)) : Prop where
  lane : before.saveSerial ≠ journal.saveSerial ∧
      next.checkpointArena = journal.checkpointArena.push { cell, alternate := before } ∧
      next.checkpointEntries = journal.checkpointEntries + 1 ∨
    before.saveSerial = journal.saveSerial ∧
      next.checkpointArena = journal.checkpointArena ∧
      next.checkpointEntries = journal.checkpointEntries
  serial : next.saveSerial = journal.saveSerial
  operations : ∀ mutation ∈ next.transactionEntries,
    mutation ∈ journal.transactionEntries ∨ mutation.cell = cell
  position : next.savePosition = next.activeSequence.length

theorem retainDelta_touched {journal : SaveJournal R} {cell : StateCell}
    (representable : cell.Representable) (before : BankCell (StateWord R)) (savedAt : Option Nat) :
    let next := journal.retainDelta (.new cell before savedAt)
    before.saveSerial ≠ journal.saveSerial ∧
        next.checkpointArena = journal.checkpointArena.push { cell, alternate := before } ∧
        next.checkpointEntries = journal.checkpointEntries + 1 ∨
      before.saveSerial = journal.saveSerial ∧
        next.checkpointArena = journal.checkpointArena ∧
        next.checkpointEntries = journal.checkpointEntries := by
  have named := Mutation.cell_new representable before savedAt
  unfold SaveJournal.retainDelta
  by_cases first : (Mutation.new cell before savedAt).beforeSaveSerial ≠ journal.saveSerial
  · refine .inl ⟨first, ?_, ?_⟩
    · rw [if_pos first, named]
      rfl
    · rw [if_pos first]
  refine .inr ⟨Decidable.not_not.mp first, ?_, ?_⟩
  · rw [if_neg first]
  · rw [if_neg first]

variable {journal : SaveJournal R}

theorem recordMutation_touched {cell : StateCell} (representable : cell.Representable)
    (before : BankCell (StateWord R)) (savedAt : Option Nat)
    (position : journal.savePosition = journal.activeSequence.length) :
    Touched journal (journal.recordMutation (.new cell before savedAt)) cell before := by
  have delta := @retainDelta_touched R journal cell representable before savedAt
  have named := Mutation.cell_new representable before savedAt
  have operations : ∀ mutation ∈ ((journal.retainDelta (.new cell before savedAt)).retainOperation
      (.new cell before savedAt)).transactionEntries,
      mutation ∈ journal.transactionEntries ∨ mutation.cell = cell := by
    intro mutation member
    unfold SaveJournal.retainOperation at member
    split at member
    · rw [retainDelta_transactionEntries] at member
      rcases List.mem_append.mp member with earlier | last
      · exact .inl earlier
      rw [List.mem_singleton.mp last]
      exact .inr named
    rw [retainDelta_transactionEntries] at member
    exact .inl member
  obtain ⟨kept, shape⟩ := retainOperation_eq
    (journal.retainDelta (.new cell before savedAt)) (.new cell before savedAt)
  have saved : ((journal.retainDelta (.new cell before savedAt)).retainOperation
      (.new cell before savedAt)).savePosition =
      ((journal.retainDelta (.new cell before savedAt)).retainOperation
      (.new cell before savedAt)).activeSequence.length := by
    rw [shape]
    dsimp only
    rw [retainDelta_activeSequence, ← position]
    unfold SaveJournal.retainDelta
    split <;> rfl
  refine ⟨?_, ?_, ?_, ?_⟩
  · rw [recordMutation_checkpointArena, recordMutation_checkpointEntries]
    exact delta
  · rw [recordMutation_saveSerial, retainDelta_saveSerial]
  · rw [recordMutation_transactionEntries]
    exact operations
  unfold SaveJournal.recordMutation SaveJournal.retainSave
  cases savedAt with
  | none => exact saved
  | some level => simp [Mutation.new]

variable {before : BankCell (StateWord R)}

theorem assignedJournal_touched {cell : StateCell} {scope : AssignmentScope}
    (representable : cell.Representable)
    (position : state.journal.savePosition = state.journal.activeSequence.length) :
    Touched state.journal (state.assignedJournal cell scope before) cell before := by
  unfold assignedJournal
  dsimp only
  split
  · exact recordMutation_touched representable before _ position
  rename_i needless
  simp only [SaveJournal.needsMutation, Bool.or_eq_true, not_or, decide_eq_true_eq,
    Decidable.not_not] at needless
  exact ⟨.inr ⟨needless.1.1, rfl, rfl⟩, rfl, fun _ member => .inl member, position⟩

theorem Touched.lane_eq {next : SaveJournal R} {cell : StateCell}
    (touched : Touched journal next cell before) :
    next.checkpointArena.live = journal.checkpointArena.live ∧
        before.saveSerial = journal.saveSerial ∨
      next.checkpointArena.live = journal.checkpointArena.live ++
        [{ key := journal.checkpointArena.nextKey, delta := { cell, alternate := before } }] := by
  rcases touched.lane with ⟨_, arena, _⟩ | ⟨same, arena, _⟩
  · rw [arena, live_push]
    exact .inr rfl
  rw [arena]
  exact .inl ⟨rfl, same⟩

section

variable (coherent : Coherent state history)
include coherent

/-- What a capture holds of a state stays through a write. -/
theorem Coherent.holds_touch {cell : StateCell}
    {content : BankCell (StateWord R)} (found : state.banks.contents cell = some before)
    (written : Banks.Written state.banks next.banks cell content)
    (touched : Touched state.journal next.journal cell before) (member : capture ∈ history)
    (earlier : Names state.lane capture.cursor) : next.Holds capture := by
  have contents : next.banks.contents = put state.banks.contents cell content := written.put
  have shape := written.sameShape found
  have elsewhere : ∀ other, other ≠ cell →
      next.banks.contents other = state.banks.contents other := by
    intro other apart
    rw [contents, put_other _ _ apart]
  have holds := coherent.holds capture member earlier
  have inside : capture.mark ≤ state.lane.length := earlier.1
  rcases touched.lane_eq with ⟨lane, same⟩ | lane
  · have lane : next.lane = state.lane := lane
    refine ⟨fun other kept captured => ?_, ?_, holds.domain, ?_, fun other now live stamp => ?_⟩
    · rw [lane, ← holds.contents other kept captured]
      by_cases at_ : other = cell
      · subst at_
        exact rewound_named (named_entriesOf.mpr (holds.covered _ _ found same)) _ _
      · exact rewound_congr _ (elsewhere other at_)
    · rw [lane]
      exact holds.below
    · rw [shape.rows]
      exact holds.rows
    rw [lane]
    by_cases at_ : other = cell
    · subst at_
      exact holds.covered _ _ found same
    rw [elsewhere other at_] at live
    rw [touched.serial] at stamp
    exact holds.covered other now live stamp
  have lane : next.lane = state.lane ++ _ := lane
  have dropped : next.lane.drop capture.mark = state.lane.drop capture.mark ++
      [{ key := state.journal.checkpointArena.nextKey
         delta := { cell, alternate := before } }] := by
    rw [lane, List.drop_append_of_le_length inside]
  refine ⟨fun other kept captured => ?_, ?_, holds.domain, ?_, fun other now live stamp => ?_⟩
  · have undone : rewound (entriesOf (next.lane.drop capture.mark)) next.banks.contents =
        rewound (entriesOf (state.lane.drop capture.mark)) state.banks.contents := by
      rw [dropped, entriesOf, List.map_append, rewound_append, contents]
      simp only [List.map_cons, List.map_nil, Chunk.entry, rewound_cons, rewound_nil]
      rw [put_put_self found]
      rfl
    rw [undone]
    exact holds.contents other kept captured
  · rw [lane, List.take_append_of_le_length inside]
    exact holds.below
  · rw [shape.rows]
    exact holds.rows
  rw [dropped]
  by_cases at_ : other = cell
  · exact ⟨_, List.mem_append_right _ List.mem_cons_self, at_.symm⟩
  rw [elsewhere other at_] at live
  rw [touched.serial] at stamp
  obtain ⟨chunk, held, cells⟩ := holds.covered other now live stamp
  exact ⟨chunk, List.mem_append_left _ held, cells⟩

theorem Coherent.touch {cell : StateCell}
    {content : BankCell (StateWord R)} (found : state.banks.contents cell = some before)
    (written : Banks.Written state.banks next.banks cell content)
    (stamped : content.saveSerial = state.journal.saveSerial)
    (touched : Touched state.journal next.journal cell before) : Coherent next history := by
  have contents : next.banks.contents = put state.banks.contents cell content := written.put
  have shape := written.sameShape found
  have here : next.banks.contents cell = some content := by rw [contents, put_same]
  have elsewhere : ∀ other, other ≠ cell →
      next.banks.contents other = state.banks.contents other := by
    intro other apart
    rw [contents, put_other _ _ apart]
  have arenaKeys : state.journal.checkpointArena.nextKey ≤ next.journal.checkpointArena.nextKey := by
    rcases touched.lane with ⟨_, arena, _⟩ | ⟨_, arena, _⟩
    · rw [arena]
      exact Nat.le_succ _
    · exact Nat.le_of_eq (by rw [arena])
  have entries : next.journal.checkpointEntries = next.lane.length := by
    unfold DenseState.lane
    rcases touched.lane with ⟨_, arena, count⟩ | ⟨_, arena, count⟩
    · rw [arena, count, live_push, List.length_append, coherent.entries]
      rfl
    rw [arena, count, coherent.entries]
    rfl
  have members : ∀ chunk ∈ next.lane, chunk ∈ state.lane ∨
      chunk = { key := state.journal.checkpointArena.nextKey, delta := { cell, alternate := before } } ∧
        state.journal.checkpointArena.nextKey < next.journal.checkpointArena.nextKey := by
    intro chunk member
    unfold DenseState.lane at member ⊢
    rcases touched.lane with ⟨_, arena, _⟩ | ⟨_, arena, _⟩
    · rw [arena, live_push] at member
      rcases List.mem_append.mp member with earlier | last
      · exact .inl earlier
      rw [arena]
      exact .inr ⟨List.mem_singleton.mp last, Nat.lt_succ_self _⟩
    rw [arena] at member
    exact .inl member
  have named : ∀ capture ∈ history, Names next.lane capture.cursor →
      Names state.lane capture.cursor := by
    intro capture member names
    unfold DenseState.lane at names ⊢
    rcases touched.lane_eq with ⟨lane, _⟩ | lane
    · rw [lane] at names
      exact names
    rw [lane] at names
    exact names.of_append (coherent.issued capture member)
  refine ⟨touched.position, entries, fun chunk member => ?_, fun chunk member => ?_,
    fun other now same => ?_, fun chunk member => ?_, ?_, fun mutation member => ?_,
    fun capture member => (coherent.issued capture member).mono arenaKeys,
    fun capture member names => ?_, ?_⟩
  · rcases members chunk member with earlier | ⟨rfl, newer⟩
    · exact Nat.lt_of_lt_of_le (coherent.keys chunk earlier) arenaKeys
    · exact newer
  · rcases members chunk member with earlier | ⟨rfl, _⟩
    · exact (coherent.exchangeable chunk earlier).sameShape shape
    exact ⟨⟨content, here⟩, written.installed,
      Banks.readCell_fits (Banks.contents_eq_some.mp found)⟩
  · rw [touched.serial]
    by_cases at_ : other = cell
    · subst at_
      rw [here] at same
      cases same
      exact Nat.le_of_eq stamped
    rw [elsewhere other at_] at same
    exact coherent.stamps other now same
  · rw [touched.serial]
    rcases members chunk member with earlier | ⟨rfl, _⟩
    · exact coherent.retained chunk earlier
    · exact coherent.stamps cell before found
  · rw [touched.serial]
    exact coherent.begun
  · rw [touched.serial]
    by_cases at_ : mutation.cell = cell
    · rw [at_]
      exact ⟨content, here, stamped⟩
    rw [elsewhere _ at_]
    exact coherent.operations mutation ((touched.operations mutation member).resolve_right at_)
  · exact coherent.holds_touch found written touched member (named capture member names)
  refine coherent.ordered.imp_of_mem ?_
  intro earlier later first second order firstNames secondNames
  exact order (named earlier first firstNames) (named later second secondNames)

/-! ## Growth -/

theorem Coherent.grow (grows : Grows state next) : Coherent next history := by
  obtain ⟨banks, rfl, grown⟩ := grows.grown
  refine ⟨coherent.position, coherent.entries, coherent.keys, fun chunk member => ?_,
    fun cell content found => ?_, coherent.retained, coherent.begun, fun mutation member => ?_,
    coherent.issued, fun capture member names => ?_, coherent.ordered⟩
  · have exchangeable := coherent.exchangeable chunk member
    obtain ⟨content, found⟩ := exchangeable.found
    exact ⟨⟨content, grown.kept _ _ found⟩, grown.installed _ exchangeable.installed,
      exchangeable.fits⟩
  · cases before : state.banks.contents cell with
    | none =>
      rw [(grown.fresh cell content before found).2]
      exact Nat.zero_le _
    | some earlier =>
      have kept := grown.kept cell earlier before
      rw [show banks.contents cell = some content from found] at kept
      cases kept
      exact coherent.stamps cell content before
  · obtain ⟨content, found, stamp⟩ := coherent.operations mutation member
    exact ⟨content, grown.kept _ _ found, stamp⟩
  have holds := coherent.holds capture member names
  refine ⟨fun cell content captured => ?_, holds.below, holds.domain,
    Nat.le_trans holds.rows grown.rows, fun cell content found stamp => ?_⟩
  · exact rewound_mono (grown.kept cell content) (holds.contents cell content captured)
  cases before : state.banks.contents cell with
  | none =>
    have zero := (grown.fresh cell content before found).2
    have positive := coherent.begun (List.ne_nil_of_mem member)
    rw [show content.saveSerial = state.journal.saveSerial from stamp] at zero
    rw [zero] at positive
    exact absurd positive (Nat.lt_irrefl _)
  | some earlier => ?_
  have kept := grown.kept cell earlier before
  rw [show banks.contents cell = some content from found] at kept
  cases kept
  exact holds.covered cell content before stamp

/-! ## Captures -/

theorem Coherent.advance (settled : state.journal.transactionEntries = []) :
    Coherent { state with journal := { state.journal with
      saveSerial := state.journal.saveSerial + 1 } } history := by
  refine ⟨coherent.position, coherent.entries, coherent.keys, coherent.exchangeable,
    fun cell content found => Nat.le_succ_of_le (coherent.stamps cell content found),
    fun chunk member => Nat.le_succ_of_le (coherent.retained chunk member),
    fun _ => Nat.succ_pos _, ?_, coherent.issued, fun capture member names => ?_,
    coherent.ordered⟩
  · intro mutation member
    rw [show state.journal.transactionEntries = [] from settled] at member
    cases member
  have holds := coherent.holds capture member names
  refine ⟨holds.contents, holds.below, holds.domain, holds.rows, fun cell content found stamp => ?_⟩
  have bounded := coherent.stamps cell content found
  rw [show content.saveSerial = state.journal.saveSerial + 1 from stamp] at bounded
  exact absurd bounded (Nat.not_succ_le_self _)

end

variable {cursor : JournalCursor}

/-- A cursor at the end of the lane captures what the banks hold, when no cell
was written in the current interval. -/
theorem Coherent.addCapture (coherent : Coherent state history)
    (issued : Issued state.journal.checkpointArena.nextKey cursor)
    (end_ : cursor.checkpoint.payloadChunks = state.lane.length)
    (unwritten : ∀ cell content, state.banks.contents cell = some content →
      content.saveSerial < state.journal.saveSerial) (positive : 0 < state.journal.saveSerial) :
    Coherent state (history ++ [⟨cursor, state.checkpointCursor, state.banks.contents⟩]) := by
  refine ⟨coherent.position, coherent.entries, coherent.keys, coherent.exchangeable,
    coherent.stamps, coherent.retained, fun _ => positive, coherent.operations,
    fun capture member => ?_, fun capture member names => ?_, ?_⟩
  · rcases List.mem_append.mp member with earlier | last
    · exact coherent.issued capture earlier
    rw [List.mem_singleton.mp last]
    exact issued
  · rcases List.mem_append.mp member with earlier | last
    · exact coherent.holds capture earlier names
    rw [List.mem_singleton.mp last]
    refine ⟨fun cell content captured => ?_, fun chunk held => ?_,
      fun cell content captured => Banks.below_of_contents captured, Nat.le_refl _,
      fun cell content found stamp => ?_⟩
    · simp only [Capture.mark, end_, List.drop_length, entriesOf, List.map_nil, rewound_nil]
      exact captured
    · obtain ⟨content, found⟩ := (coherent.exchangeable chunk (List.mem_of_mem_take held)).found
      exact Banks.below_of_contents found
    have earlier := unwritten cell content found
    rw [stamp] at earlier
    exact absurd earlier (Nat.lt_irrefl _)
  refine List.pairwise_append.mpr ⟨coherent.ordered, List.pairwise_singleton .., ?_⟩
  intro earlier member later last names _
  rw [List.mem_singleton.mp last]
  refine ⟨?_, (coherent.holds earlier member names).rows⟩
  simp only [Capture.mark, end_]
  exact names.1

theorem journalCursor_eq_ok (captured : state.journalCursor = .ok (cursor, next)) :
    ¬ (state.groups.length ≠ 0 ∨ (!state.journal.checkpointEligible) = true) ∧
      cursor = ⟨state.journal.checkpointArena.checkpointMark, state.journal.checkpointEntries,
        state.groups.length, state.journal.saveStack, state.journal.savePosition⟩ ∧
      next = { state with
        journal := { state.journal with saveSerial := state.journal.saveSerial + 1 } } := by
  obtain ⟨⟨issuedCursor, journal⟩, capturing, captured⟩ := bind_eq_ok.mp captured
  cases pure_eq_ok.mp captured
  unfold SaveJournal.checkpointCursor at capturing
  split at capturing
  · cases capturing
  rename_i eligible
  split at capturing
  · cases capturing
  cases capturing
  exact ⟨by simpa using eligible, rfl, rfl⟩

theorem Coherent.journalCursor (coherent : Coherent state history)
    (captured : state.journalCursor = .ok (cursor, next)) :
    Coherent next (history ++ [⟨cursor, state.checkpointCursor, state.banks.contents⟩]) := by
  obtain ⟨eligible, rfl, rfl⟩ := journalCursor_eq_ok captured
  simp only [SaveJournal.checkpointEligible, Bool.not_eq_true',
    Bool.and_eq_false_iff, not_or, decide_eq_true_eq, Decidable.not_not,
    Bool.not_eq_false, List.isEmpty_iff] at eligible
  obtain ⟨depth, ⟨⟨_, sequence⟩, _⟩, operations⟩ := eligible
  have advanced := coherent.advance operations
  refine advanced.addCapture ⟨coherent.entries, depth, ?_, fun marked => ?_⟩ rfl
    (fun cell content found => Nat.lt_succ_of_le (coherent.stamps cell content found))
    (Nat.succ_pos _)
  · dsimp only
    rw [coherent.position, sequence]
    rfl
  change ∃ key < _, state.lane.getLast?.map (·.key) = some key
  cases last : state.lane.getLast? with
  | none =>
    rw [List.getLast?_eq_none_iff] at last
    exact absurd (congrArg List.length last) marked
  | some chunk =>
    exact ⟨chunk.key, coherent.keys chunk (List.mem_of_getLast? last), rfl⟩

/-! ## Restores -/

structure RewoundTo (state next : DenseState R) (cursor : JournalCursor) : Prop where
  contents : next.banks.contents =
    rewound (entriesOf (state.lane.drop cursor.checkpoint.payloadChunks)) state.banks.contents
  shape : SameShape state.banks next.banks
  lane : next.lane = state.lane.take cursor.checkpoint.payloadChunks
  nextKey : next.journal.checkpointArena.nextKey = state.journal.checkpointArena.nextKey
  entries : next.journal.checkpointEntries = cursor.checkpointEntries
  serial : state.journal.saveSerial < next.journal.saveSerial
  operations : next.journal.transactionEntries = []
  position : next.journal.savePosition = next.journal.activeSequence.length

theorem RewoundTo.stamps (rewoundTo : RewoundTo state next cursor)
    (coherent : Coherent state history) {cell : StateCell} {content : BankCell (StateWord R)}
    (found : next.banks.contents cell = some content) :
    content.saveSerial < next.journal.saveSerial := by
  refine Nat.lt_of_le_of_lt ?_ rewoundTo.serial
  rw [rewoundTo.contents] at found
  rcases rewound_eq_some found with ⟨entry, member, rfl⟩ | live
  · obtain ⟨chunk, held, rfl⟩ := List.mem_map.mp member
    exact coherent.retained chunk (List.mem_of_mem_drop held)
  · exact coherent.stamps cell content live

theorem drop_take_append_drop {α : Type} {values : List α} {first second : Nat}
    (le : first ≤ second) (inside : second ≤ values.length) :
    (values.take second).drop first ++ values.drop second = values.drop first := by
  have length : (values.take second).length = second := List.length_take_of_le inside
  rw [← List.drop_append_of_le_length (by rw [length]; exact le), List.take_append_drop]

theorem Coherent.rewoundTo (coherent : Coherent state history) (member : capture ∈ history)
    (names : Names state.lane capture.cursor) (rewoundTo : RewoundTo state next capture.cursor) :
    Coherent next history := by
  have lane := rewoundTo.lane
  have subset : ∀ chunk ∈ next.lane, chunk ∈ state.lane := by
    rw [lane]
    exact fun chunk held => List.mem_of_mem_take held
  have named : ∀ other : Capture R, Names next.lane other.cursor →
      Names state.lane other.cursor ∧ other.mark ≤ capture.mark := by
    intro other held
    rw [lane] at held
    exact held.of_take
  refine ⟨rewoundTo.position, ?_, fun chunk held => ?_, fun chunk held => ?_,
    fun cell content found => Nat.le_of_lt (rewoundTo.stamps coherent found), fun chunk held => ?_,
    fun _ => Nat.zero_lt_of_lt rewoundTo.serial, ?_, ?_, fun other held otherNames => ?_, ?_⟩
  · rw [rewoundTo.entries, (coherent.issued capture member).entries, lane,
      List.length_take_of_le names.1]
  · rw [rewoundTo.nextKey]
    exact coherent.keys chunk (subset chunk held)
  · exact (coherent.exchangeable chunk (subset chunk held)).sameShape rewoundTo.shape
  · exact Nat.le_of_lt
      (Nat.lt_of_le_of_lt (coherent.retained chunk (subset chunk held)) rewoundTo.serial)
  · intro mutation held
    rw [rewoundTo.operations] at held
    cases held
  · rw [rewoundTo.nextKey]
    exact coherent.issued
  · obtain ⟨before, le⟩ := named other otherNames
    have holds := coherent.holds other held before
    refine ⟨fun cell content captured => ?_, ?_, holds.domain, ?_, fun cell content found stamp => ?_⟩
    · rw [lane, rewoundTo.contents, ← rewound_append, entriesOf, entriesOf, ← List.map_append]
      change rewound (entriesOf ((state.lane.take capture.mark).drop other.mark ++
        state.lane.drop capture.mark)) _ cell = _
      rw [drop_take_append_drop le names.1]
      exact holds.contents cell content captured
    · rw [lane]
      intro chunk taken
      rw [List.take_take] at taken
      rw [show min other.mark capture.cursor.checkpoint.payloadChunks = other.mark from
        Nat.min_eq_left le] at taken
      exact holds.below chunk taken
    · rw [rewoundTo.shape.rows]
      exact holds.rows
    have earlier := rewoundTo.stamps coherent found
    rw [stamp] at earlier
    exact absurd earlier (Nat.lt_irrefl _)
  exact coherent.ordered.imp fun order first second =>
    order (named _ first).1 (named _ second).1

theorem restoreValidated_shape (restored : state.restoreValidated cursor = .ok next) :
    ∃ displaced banks arena,
      rewind state.banks (state.journal.checkpointSuffix cursor) = .ok (displaced, banks) ∧
      state.journal.checkpointArena.restoreCheckpoint cursor.checkpoint = .ok arena ∧
      next = { state with
        banks
        groups := []
        journal := { state.journal with
          checkpointArena := arena
          checkpointEntries := cursor.checkpointEntries
          saveSerial := state.journal.saveSerial + 1
          saveStack := cursor.saveStack
          savePosition := cursor.savePosition
          activeSequence := []
          activeGroups := [] } } := by
  obtain ⟨⟨displaced, banks⟩, rewinding, restored⟩ := bind_eq_ok.mp restored
  obtain ⟨journal, truncating, restored⟩ := bind_eq_ok.mp restored
  cases pure_eq_ok.mp restored
  unfold SaveJournal.truncateCheckpoint SaveJournal.restoreGroupCursorAfterReplay at truncating
  dsimp only at truncating
  split at truncating
  · cases truncating
  rename_i arena cutting
  cases truncating
  exact ⟨displaced, banks, arena, rewinding, cutting, rfl⟩

theorem restoreValidated_eq_ok (coherent : Coherent state history)
    (position : cursor.savePosition = 0) (settled : state.journal.transactionEntries = [])
    (restored : state.restoreValidated cursor = .ok next) : RewoundTo state next cursor := by
  obtain ⟨_, _, arena, rewinding, cutting, rfl⟩ := restoreValidated_shape restored
  obtain ⟨_, _, found, rewinds, _, shape, _⟩ := @rewind_rewinds R state.banks
    (state.journal.checkpointSuffix cursor)
    (fun chunk member => coherent.exchangeable chunk (List.mem_of_mem_drop member))
  cases rewinding.symm.trans found
  obtain ⟨live, nextKey⟩ := restoreCheckpoint_eq_ok cutting
  exact ⟨rewinds.final_eq, shape, live, nextKey, rfl, Nat.lt_succ_self _, settled, position⟩

/-- Outside a candidate a cursor that the lane names can be restored. -/
theorem restoreValidated_of_accepted {cursor : JournalCursor} {payload : List (Chunk R)}
    (coherent : Coherent state history)
    (accepted : state.journal.checkpointArena.ownership = .accepted payload) :
    ∃ next, state.restoreValidated cursor = .ok next := by
  obtain ⟨displaced, banks, rewinding, _⟩ := @rewind_rewinds R state.banks
    (state.journal.checkpointSuffix cursor)
    (fun chunk member => coherent.exchangeable chunk (List.mem_of_mem_drop member))
  unfold restoreValidated SaveJournal.truncateCheckpoint SaveJournal.restoreGroupCursorAfterReplay
    restoreCheckpoint
  rw [rewinding, ok_bind]
  simp only [accepted]
  exact ⟨_, rfl⟩

theorem validateRestoreCursor_eq_ok {afterReplay : Bool}
    (validated : state.validateRestoreCursor cursor afterReplay = .ok ()) :
    state.journal.validateCursorShape cursor = true ∧ state.journal.transactionEntries = [] := by
  cases afterReplay with
  | false =>
    simp only [validateRestoreCursor, Bool.false_eq_true, if_false] at validated
    split at validated
    · cases validated
    rename_i valid
    simp only [SaveJournal.validateCursor, SaveJournal.checkpointEligible, Bool.not_eq_true,
      Bool.not_eq_false', Bool.and_eq_true, List.isEmpty_iff] at valid
    exact ⟨valid.1, valid.2.2⟩
  | true => ?_
  simp only [validateRestoreCursor, if_true] at validated
  split at validated
  · cases validated
  rename_i valid
  simp only [SaveJournal.validateCursorAfterReplay, Bool.not_eq_true,
    Bool.not_eq_false', Bool.and_eq_true, List.isEmpty_iff] at valid
  exact ⟨valid.1.1, valid.2⟩

theorem validateRestore_eq_ok (validated : state.validateRestore cursor = .ok ()) :
    state.journal.validateCursorShape cursor = true ∧ state.journal.transactionEntries = [] := by
  unfold validateRestore at validated
  split at validated
  · cases validated
  · exact validateRestoreCursor_eq_ok validated

theorem Coherent.restore (coherent : Coherent state history) (member : capture ∈ history)
    (restored : state.restore capture.cursor = .ok next) :
    Names state.lane capture.cursor ∧ RewoundTo state next capture.cursor := by
  obtain ⟨_, validated, restored⟩ := bind_eq_ok.mp restored
  obtain ⟨valid, settled⟩ := validateRestore_eq_ok validated
  exact ⟨(coherent.validateCursorShape (coherent.issued capture member)).mp valid, restoreValidated_eq_ok coherent
    (coherent.issued capture member).savePosition settled restored⟩

theorem Coherent.restoreAfterReplay (coherent : Coherent state history)
    (member : capture ∈ history) (restored : state.restoreAfterReplay capture.cursor = .ok next) :
    Names state.lane capture.cursor ∧ RewoundTo state next capture.cursor := by
  obtain ⟨_, validated, restored⟩ := bind_eq_ok.mp restored
  obtain ⟨valid, settled⟩ := validateRestoreCursor_eq_ok validated
  exact ⟨(coherent.validateCursorShape (coherent.issued capture member)).mp valid, restoreValidated_eq_ok coherent
    (coherent.issued capture member).savePosition settled restored⟩

/-- The font rows loaded behind the last checkpoint are dropped. -/
theorem Coherent.truncateRows {before : List (Capture R)}
    (coherent : Coherent state (before ++ [capture])) (names : Names state.lane capture.cursor)
    (end_ : capture.mark = state.lane.length) (settled : state.journal.transactionEntries = []) :
    Coherent { state with banks := state.banks.truncateRows capture.dense.fontRuntimeRows }
      (before ++ [capture]) := by
  have last : capture ∈ before ++ [capture] := List.mem_append_right _ List.mem_cons_self
  have here := coherent.holds capture last names
  have rows : ∀ other ∈ before ++ [capture], Names state.lane other.cursor →
      other.dense.fontRuntimeRows ≤ capture.dense.fontRuntimeRows := by
    intro other member otherNames
    rcases List.mem_append.mp member with earlier | same
    · have order := (List.pairwise_append.mp coherent.ordered).2.2 other earlier capture
        List.mem_cons_self
      exact (order otherNames names).2
    · exact Nat.le_of_eq (by rw [List.mem_singleton.mp same])
  have length : (state.banks.truncateRows capture.dense.fontRuntimeRows).fontRuntime.rows.length =
      capture.dense.fontRuntimeRows := List.length_take_of_le here.rows
  refine ⟨coherent.position, coherent.entries, coherent.keys, fun chunk member => ?_,
    fun cell content found => coherent.stamps cell content (Banks.contents_of_truncateRows found).2,
    coherent.retained, coherent.begun, ?_, coherent.issued, fun other member otherNames => ?_,
    coherent.ordered⟩
  · have exchangeable := coherent.exchangeable chunk member
    have below : chunk.delta.cell.Below capture.dense.fontRuntimeRows :=
      here.below chunk (by rw [end_, List.take_length]; exact member)
    refine ⟨?_, ?_, exchangeable.fits⟩
    · rw [Banks.contents_truncateRows below]
      exact exchangeable.found
    have installed := exchangeable.installed
    cases cell : chunk.delta.cell <;> rw [cell] at installed <;> exact installed
  · intro mutation member
    rw [show state.journal.transactionEntries = [] from settled] at member
    cases member
  have holds := coherent.holds other member otherNames
  have fewer := rows other member otherNames
  refine ⟨fun cell content captured => ?_, holds.below, holds.domain, ?_,
    fun cell content found stamp =>
      holds.covered cell content (Banks.contents_of_truncateRows found).2 stamp⟩
  · have below := (holds.domain cell content captured).mono fewer
    rw [← holds.contents cell content captured]
    exact rewound_congr _ (Banks.contents_truncateRows below)
  dsimp only
  rw [length]
  exact fewer

end DenseState

end Umber.State
