import Umber.State.RunProperties

/-! Candidate generations over the accepted cells: beginning one exposes a
checkpoint, rejecting one gives the accepted cells back and accepting one keeps
the checkpoints it began behind. -/

set_option autoImplicit false

namespace Umber.State

open ExceptLib UndoLog

variable {R : References}

def Banks.spliceRows (banks : Banks R) (rows : Nat) (tail : List FontRuntimeRow) : Banks R :=
  { banks with fontRuntime := { rows := (banks.fontRuntime.truncate rows).rows ++ tail } }

theorem Banks.contents_spliceRows {banks : Banks R} {cell : StateCell} {rows : Nat}
    {tail : List FontRuntimeRow} (below : cell.Below rows)
    (inside : rows ≤ banks.fontRuntime.rows.length) :
    (banks.spliceRows rows tail).contents cell = banks.contents cell := by
  cases cell with
  | fontRuntime font =>
    apply contents_fontRuntime
    have located : (banks.spliceRows rows tail).fontRuntime.row font.font =
        banks.fontRuntime.row font.font := by
      have bound : font.font.toNat < (banks.fontRuntime.rows.take rows).length := by
        rw [List.length_take_of_le inside]
        exact below
      unfold FontRuntimeBank.row
      dsimp only [spliceRows, FontRuntimeBank.truncate]
      rw [List.getElem?_append_left bound, List.getElem?_take_of_lt below]
    rw [FontRuntimeBank.read, located, ← FontRuntimeBank.read]
  | _ => rfl

/-- The cell is in a font row from the given one on. -/
theorem Banks.contents_spliceRows_tail {banks other : Banks R} {font : FontRuntimeCell} {rows : Nat}
    (above : rows ≤ font.font.toNat) (inside : rows ≤ banks.fontRuntime.rows.length) :
    (banks.spliceRows rows (other.fontRuntime.rows.drop rows)).contents (.fontRuntime font) =
      other.contents (.fontRuntime font) := by
  apply contents_fontRuntime
  have located : (banks.spliceRows rows (other.fontRuntime.rows.drop rows)).fontRuntime.row
      font.font = other.fontRuntime.row font.font := by
    have length : (banks.fontRuntime.rows.take rows).length = rows :=
      List.length_take_of_le inside
    unfold FontRuntimeBank.row
    dsimp only [spliceRows, FontRuntimeBank.truncate]
    rw [List.getElem?_append_right (by rw [length]; exact above), length, List.getElem?_drop,
      Nat.add_sub_cancel' above]
  rw [FontRuntimeBank.read, located, ← FontRuntimeBank.read]

/-- Chunks with the same keys and the same entries are the same. -/
theorem chunks_eq {chunks others : List (Chunk R)} (entries : entriesOf chunks = entriesOf others)
    (keys : chunks.map (·.key) = others.map (·.key)) : chunks = others := by
  induction chunks generalizing others with
  | nil =>
    cases others with
    | nil => rfl
    | cons other later => cases keys
  | cons chunk rest ih => ?_
  cases others with
  | nil => cases keys
  | cons other later => ?_
  obtain ⟨key, ⟨cell, alternate⟩⟩ := chunk
  obtain ⟨otherKey, ⟨otherCell, otherAlternate⟩⟩ := other
  rw [entriesOf, entriesOf, List.map_cons, List.map_cons] at entries
  rw [List.map_cons, List.map_cons] at keys
  obtain ⟨sameEntry, restEntries⟩ := List.cons.inj entries
  obtain ⟨sameKey, restKeys⟩ := List.cons.inj keys
  cases sameEntry
  cases sameKey
  rw [ih restEntries restKeys]

namespace DenseState

variable {state next candidate last : DenseState R} {before after history later : List (Capture R)}
  {capture : Capture R} {tail : AcceptedDenseStateTail}

/-! ## Validation -/

theorem checkpointEligible_iff : state.checkpointEligible = true ↔
      state.groups = [] ∧ state.journal.activeGroups = [] ∧ state.journal.activeSequence = [] ∧
        state.Outside := by
  simp only [checkpointEligible, SaveJournal.checkpointEligible, Outside, Bool.and_eq_true,
    List.isEmpty_iff, decide_eq_true_eq, and_assoc]

/-- Outside groups and transactions a cursor is accepted just when the lane names
it. -/
theorem Coherent.validateRestore_iff (coherent : Coherent state history) {nextKey : Nat}
    (issued : Issued nextKey capture.cursor) : state.validateRestore capture.cursor = .ok () ↔
      state.checkpointEligible = true ∧ Names state.lane capture.cursor := by
  have shape := coherent.validateCursorShape issued
  have matching : ((state.journal.checkpointSuffix capture.cursor).all fun chunk =>
      wordMatches chunk.delta.cell chunk.delta.alternate.value) = true := by
    refine List.all_eq_true.mpr fun chunk held => wordMatches_of_wordFits ?_
    exact (coherent.exchangeable chunk (List.mem_of_mem_drop held)).fits
  unfold validateRestore
  by_cases eligible : state.checkpointEligible = true
  · rw [eligible]
    have journal : state.journal.checkpointEligible = true := by
      unfold DenseState.checkpointEligible at eligible
      exact (Bool.and_eq_true_iff.mp eligible).2
    by_cases names : Names state.lane capture.cursor
    · simp [validateRestoreCursor, SaveJournal.validateCursor, shape.mpr names, journal, matching,
        names]
    have rejected : state.journal.validateCursorShape capture.cursor = false :=
      Bool.eq_false_iff.mpr fun accepted => names (shape.mp accepted)
    simp [validateRestoreCursor, SaveJournal.validateCursor, rejected, names]
  · simp [eligible]

/-! ## Beginning a candidate -/

structure Begun (state candidate : DenseState R) (capture : Capture R)
    (tail : AcceptedDenseStateTail) (suffix : List (Chunk R)) (banks : Banks R) : Prop where
  eligible : state.checkpointEligible = true
  names : Names state.lane capture.cursor
  accepted : state.journal.checkpointArena.ownership = .accepted state.lane
  rewinding : rewind state.banks (state.lane.drop capture.mark) = .ok (suffix, banks)
  exposed : candidate.banks = banks.truncateRows capture.dense.fontRuntimeRows
  forked : candidate.journal.checkpointArena.ownership =
    .forked (state.lane.take capture.mark) suffix []
  nextKey : candidate.journal.checkpointArena.nextKey = state.journal.checkpointArena.nextKey
  entries : candidate.journal.checkpointEntries = capture.cursor.checkpointEntries
  serial : candidate.journal.saveSerial = state.journal.saveSerial + 1
  outside : candidate.Outside
  position : candidate.journal.savePosition = candidate.journal.activeSequence.length
  groups : candidate.groups = [] ∧ candidate.journal.activeGroups = []
  priorEntries : tail.journal.priorCheckpointEntries = state.journal.checkpointEntries
  priorPosition : tail.journal.savePosition = state.journal.savePosition
  rows : tail.fontRuntime = banks.fontRuntime.rows.drop capture.dense.fontRuntimeRows

theorem Coherent.beginCheckpointCandidate (coherent : Coherent state history) (member : capture ∈ history)
    (begins : state.beginCheckpointCandidate capture.cursor capture.dense = .ok (tail, candidate)) :
    ∃ suffix banks, Begun state candidate capture tail suffix banks := by
  unfold DenseState.beginCheckpointCandidate at begins
  split at begins
  · cases begins
  obtain ⟨_, validated, begins⟩ := bind_eq_ok.mp begins
  obtain ⟨eligible, names⟩ := (coherent.validateRestore_iff (coherent.issued capture member)).mp validated
  obtain ⟨groups, activeGroups, sequence, outside⟩ := checkpointEligible_iff.mp eligible
  split at begins
  · cases begins
  obtain ⟨⟨suffix, banks⟩, rewinding, begins⟩ := bind_eq_ok.mp begins
  obtain ⟨⟨journalTail, journal⟩, forking, begins⟩ := bind_eq_ok.mp begins
  cases pure_eq_ok.mp begins
  unfold SaveJournal.beginCheckpointCandidate at forking
  split at forking
  · cases forking
  split at forking
  · cases forking
  split at forking
  · cases forking
  rename_i arena beginning
  cases forking
  cases owned : state.journal.checkpointArena.ownership with
  | forked kept detachedPrior current =>
    simp [CheckpointArena.beginCheckpointCandidate, CheckpointArena.setSuffix, owned] at beginning
  | accepted payload => ?_
  have lane : state.lane = payload := by simp [DenseState.lane, CheckpointArena.live, owned]
  have length : (payload.take capture.cursor.checkpoint.payloadChunks).length =
      capture.cursor.checkpoint.payloadChunks := by
    rw [← lane]
    exact List.length_take_of_le names.1
  simp only [CheckpointArena.beginCheckpointCandidate, CheckpointArena.setSuffix,
    owned] at beginning
  split at beginning
  · cases beginning
    refine ⟨suffix, banks, eligible, names, by rw [owned, lane], rewinding, rfl, ?_,
      rfl, rfl, rfl, outside, ?_, ⟨groups, activeGroups⟩, rfl, rfl, rfl⟩
    · rw [List.take_left' length, List.drop_left' length, lane]
      rfl
    dsimp only
    rw [sequence]
    rfl
  · cases beginning

section Candidate

variable {suffix : List (Chunk R)} {banks : Banks R}

section

variable (begun : Begun state candidate capture tail suffix banks)
include begun

theorem Begun.rewinds (coherent : Coherent state history) :
    Rewinds state.banks.contents (entriesOf (state.lane.drop capture.mark)) (entriesOf suffix)
        banks.contents ∧ suffix.map (·.key) = (state.lane.drop capture.mark).map (·.key) ∧
      SameShape state.banks banks ∧ ∀ chunk ∈ suffix, Exchangeable banks chunk := by
  obtain ⟨displaced, rewoundBanks, rewinding, facts⟩ := @rewind_rewinds R state.banks
    (state.lane.drop capture.mark)
    (fun chunk member => coherent.exchangeable chunk (List.mem_of_mem_drop member))
  cases rewinding.symm.trans begun.rewinding
  exact facts

theorem Begun.lane : candidate.lane = state.lane.take capture.mark := by
  simp [DenseState.lane, CheckpointArena.live, begun.forked]

theorem Begun.rewoundTo (coherent : Coherent state history) :
    RewoundTo state { candidate with banks } capture.cursor := by
  obtain ⟨rewinds, _, shape, _⟩ := begun.rewinds coherent
  refine ⟨rewinds.final_eq, shape, begun.lane, begun.nextKey, begun.entries, ?_, begun.outside.2,
    begun.position⟩
  rw [begun.serial]
  exact Nat.lt_succ_self _

end

def initialCapture (candidate : DenseState R) (capture : Capture R) : Capture R :=
  ⟨capture.cursor, candidate.checkpointCursor, candidate.banks.contents⟩

theorem Begun.coherent (begun : Begun state candidate capture tail suffix banks)
    (coherent : Coherent state (before ++ capture :: after)) :
    Coherent candidate (before ++ [capture]) ∧
      Coherent candidate (before ++ [capture] ++ [candidate.initialCapture capture]) := by
  have member : capture ∈ before ++ capture :: after :=
    List.mem_append_right _ List.mem_cons_self
  have rewoundTo := begun.rewoundTo coherent
  have fewer : (before ++ [capture]).Sublist (before ++ capture :: after) :=
    (List.Sublist.refl _).append (List.singleton_sublist.mpr List.mem_cons_self)
  have rewound := (coherent.rewoundTo member begun.names rewoundTo).sublist fewer
  have end_ : capture.mark = candidate.lane.length := by
    rw [begun.lane]
    exact (List.length_take_of_le begun.names.1).symm
  have named : Names candidate.lane capture.cursor := by
    rw [begun.lane]
    exact begun.names.take (Nat.le_refl _)
  have same : { candidate with
      banks := banks.truncateRows capture.dense.fontRuntimeRows } = candidate := by
    rw [← begun.exposed]
  have kept : Coherent candidate (before ++ [capture]) := by
    have cut := rewound.truncateRows named end_ begun.outside.2
    rw [show { ({ candidate with banks } : DenseState R) with
      banks := banks.truncateRows capture.dense.fontRuntimeRows } = candidate from same] at cut
    exact cut
  refine ⟨kept, kept.addCapture ?_ end_ (fun cell content found => ?_) ?_⟩
  · rw [begun.nextKey]
    exact coherent.issued capture member
  · rw [begun.exposed] at found
    exact rewoundTo.stamps coherent (Banks.contents_of_truncateRows found).2
  rw [begun.serial]
  exact Nat.succ_pos _

/-- Beginning a candidate exposes the captured cells. -/
theorem Begun.exposes (begun : Begun state candidate capture tail suffix banks)
    (coherent : Coherent state (before ++ capture :: after)) {cell : StateCell}
    {content : BankCell (StateWord R)} (captured : capture.contents cell = some content) :
    candidate.banks.contents cell = some content := by
  have kept := (begun.coherent coherent).1
  have named : Names candidate.lane capture.cursor := by
    rw [begun.lane]
    exact begun.names.take (Nat.le_refl _)
  have holds := kept.holds capture (List.mem_append_right _ List.mem_cons_self) named
  have found := holds.contents cell content captured
  rw [begun.lane, List.drop_take_self] at found
  exact found

/-! ## Rejecting a candidate -/

/-- The accepted generation as it was before a candidate, under a later serial
and perhaps with more cells. -/
structure Resumed (state next : DenseState R) : Prop where
  contents : ∀ cell content, state.banks.contents cell = some content →
    next.banks.contents cell = some content
  installed : ∀ cell, state.banks.Installed cell → next.banks.Installed cell
  rows : next.banks.fontRuntime.rows.length = state.banks.fontRuntime.rows.length
  accepted : next.journal.checkpointArena.ownership = .accepted state.lane
  nextKey : state.journal.checkpointArena.nextKey ≤ next.journal.checkpointArena.nextKey
  entries : next.journal.checkpointEntries = state.journal.checkpointEntries
  serial : state.journal.saveSerial < next.journal.saveSerial
  stamps : ∀ cell content, next.banks.contents cell = some content →
    content.saveSerial < next.journal.saveSerial
  eligible : next.checkpointEligible = true
  position : next.journal.savePosition = 0

theorem Resumed.lane (resumed : Resumed state next) : next.lane = state.lane := by
  simp [DenseState.lane, CheckpointArena.live, resumed.accepted]

theorem Coherent.resumed (coherent : Coherent state history) (resumed : Resumed state next) :
    Coherent next history := by
  obtain ⟨_, _, sequence, outside⟩ := checkpointEligible_iff.mp resumed.eligible
  have lane := resumed.lane
  refine ⟨?_, ?_, fun chunk member => ?_, fun chunk member => ?_,
    fun cell content found => Nat.le_of_lt (resumed.stamps cell content found),
    fun chunk member => ?_, fun _ => Nat.zero_lt_of_lt resumed.serial, ?_,
    fun capture member => (coherent.issued capture member).mono resumed.nextKey,
    fun capture member names => ?_, ?_⟩
  · rw [resumed.position, sequence]
    rfl
  · rw [resumed.entries, lane, coherent.entries]
  · rw [lane] at member
    exact Nat.lt_of_lt_of_le (coherent.keys chunk member) resumed.nextKey
  · rw [lane] at member
    have exchangeable := coherent.exchangeable chunk member
    obtain ⟨content, found⟩ := exchangeable.found
    exact ⟨⟨content, resumed.contents _ _ found⟩, resumed.installed _ exchangeable.installed,
      exchangeable.fits⟩
  · rw [lane] at member
    exact Nat.le_of_lt (Nat.lt_of_le_of_lt (coherent.retained chunk member) resumed.serial)
  · intro mutation member
    rw [outside.2] at member
    cases member
  · rw [lane] at names
    have holds := coherent.holds capture member names
    refine ⟨fun cell content captured => ?_, ?_, holds.domain, ?_,
      fun cell content found stamp => ?_⟩
    · rw [lane]
      exact rewound_mono (resumed.contents cell content) (holds.contents cell content captured)
    · rw [lane]
      exact holds.below
    · rw [resumed.rows]
      exact holds.rows
    have earlier := resumed.stamps cell content found
    rw [stamp] at earlier
    exact absurd earlier (Nat.lt_irrefl _)
  rw [lane]
  exact coherent.ordered

structure Pending (state candidate last : DenseState R) (before later : List (Capture R))
    (capture : Capture R) (tail : AcceptedDenseStateTail) (suffix : List (Chunk R))
    (banks : Banks R) : Prop where
  begun : Begun state candidate capture tail suffix banks
  coherent : Coherent last (before ++ [capture] ++ [candidate.initialCapture capture] ++ later)
  persists : Persists candidate last
  outside : last.Outside

section

variable (pending : Pending state candidate last before later capture tail suffix banks)
include pending

theorem Pending.forked :
    ∃ current, last.journal.checkpointArena.ownership =
      .forked (state.lane.take capture.mark) suffix current := by
  have side := pending.persists.side
  rw [pending.begun.forked] at side
  generalize last.journal.checkpointArena.ownership = ownership at side
  cases side with
  | forked => exact ⟨_, rfl⟩

theorem Pending.names : Names last.lane capture.cursor := by
  obtain ⟨current, forked⟩ := pending.forked
  have lane : last.lane = state.lane.take capture.mark ++ current := by
    simp [DenseState.lane, CheckpointArena.live, forked]
  rw [lane]
  exact (pending.begun.names.take (Nat.le_refl _)).append current

/-- Undoing the candidate gives back what it began with. -/
theorem Pending.rewinds :
    ∃ displaced undone, rewind last.banks (last.lane.drop capture.mark) = .ok (displaced, undone) ∧
      SameShape last.banks undone ∧ (∀ cell content, candidate.banks.contents cell = some content →
        undone.contents cell = some content) ∧
      (∀ cell content, undone.contents cell = some content →
        content.saveSerial ≤ last.journal.saveSerial) ∧
      capture.dense.fontRuntimeRows ≤ undone.fontRuntime.rows.length := by
  have coherent := pending.coherent
  obtain ⟨displaced, undone, rewinding, rewinds, _, shape, _⟩ := @rewind_rewinds R last.banks
    (last.lane.drop capture.mark)
    (fun chunk member => coherent.exchangeable chunk (List.mem_of_mem_drop member))
  have contents := rewinds.final_eq
  refine ⟨displaced, undone, rewinding, shape, fun cell content found => ?_,
    fun cell content found => ?_, ?_⟩
  · have member : candidate.initialCapture capture ∈
        before ++ [capture] ++ [candidate.initialCapture capture] ++ later :=
      List.mem_append_left _ (List.mem_append_right _ List.mem_cons_self)
    rw [contents]
    exact (coherent.holds _ member pending.names).contents cell content found
  · rw [contents] at found
    rcases rewound_eq_some found with ⟨entry, member, rfl⟩ | live
    · obtain ⟨chunk, held, rfl⟩ := List.mem_map.mp member
      exact coherent.retained chunk (List.mem_of_mem_drop held)
    · exact coherent.stamps cell content live
  have member : capture ∈
      before ++ [capture] ++ [candidate.initialCapture capture] ++ later :=
    List.mem_append_left _ (List.mem_append_left _ (List.mem_append_right _ List.mem_cons_self))
  rw [shape.rows]
  exact (coherent.holds capture member pending.names).rows

end

/-- The accepted font rows are put back behind the common ones. -/
theorem Begun.spliced (begun : Begun state candidate capture tail suffix banks) {undone : Banks R}
    (exposed : ∀ cell content, candidate.banks.contents cell = some content →
      undone.contents cell = some content)
    (inside : capture.dense.fontRuntimeRows ≤ undone.fontRuntime.rows.length) (cell : StateCell) :
    let spliced := undone.spliceRows capture.dense.fontRuntimeRows tail.fontRuntime
    ((banks.contents cell).isSome → spliced.contents cell = banks.contents cell) ∧
      (banks.contents cell = none → spliced.contents cell = none ∨
        spliced.contents cell = undone.contents cell) := by
  dsimp only
  by_cases below : cell.Below capture.dense.fontRuntimeRows
  · rw [Banks.contents_spliceRows below inside]
    refine ⟨fun found => ?_, fun _ => .inr rfl⟩
    obtain ⟨content, found⟩ := Option.isSome_iff_exists.mp found
    rw [found]
    apply exposed
    rw [begun.exposed, Banks.contents_truncateRows below, found]
  cases cell with
  | fontRuntime font =>
    have above : capture.dense.fontRuntimeRows ≤ font.font.toNat := Nat.le_of_not_lt below
    rw [begun.rows, Banks.contents_spliceRows_tail above inside]
    exact ⟨fun _ => rfl, fun absent => .inl absent⟩
  | _ => exact absurd trivial below

theorem installed_spliceRows {undone : Banks R} {cell : StateCell} {rows : Nat}
    {added : List FontRuntimeRow} (installed : undone.Installed cell) :
    (undone.spliceRows rows added).Installed cell := by
  cases cell <;> exact installed

theorem Pending.rejected
    (pending : Pending state candidate last before later capture tail suffix banks)
    (coherent : Coherent state history) (member : capture ∈ history) :
    ∃ next, last.rejectCheckpointCandidate capture.cursor capture.dense tail = .ok next ∧
      Resumed state next := by
  have begun := pending.begun
  obtain ⟨rewinds, keys, shape, exchangeable⟩ := begun.rewinds coherent
  obtain ⟨current, forked⟩ := pending.forked
  obtain ⟨displaced, undone, rewinding, undoneShape, exposed, stamps, inside⟩ := pending.rewinds
  have spliced := begun.spliced exposed inside
  have named : ∀ entry ∈ entriesOf suffix, (banks.contents entry.1).isSome := by
    intro entry listed
    obtain ⟨chunk, held, rfl⟩ := List.mem_map.mp listed
    exact Option.isSome_iff_exists.mpr (exchangeable chunk held).found
  have installed : ∀ cell, banks.Installed cell →
      (undone.spliceRows capture.dense.fontRuntimeRows tail.fontRuntime).Installed cell := by
    intro cell held
    apply installed_spliceRows
    apply undoneShape.installed
    apply pending.persists.installed
    rw [begun.exposed]
    exact installed_truncateRows held
  obtain ⟨final, redoes, agrees⟩ := rewinds.redoes.congr named fun cell found => (spliced cell).1 found
  obtain ⟨restored, redone, redoing, entries, contents, restoredKeys, redoneShape⟩ :=
    redo_redoes redoes fun chunk held => by
      have ready := exchangeable chunk held
      obtain ⟨content, found⟩ := ready.found
      refine ⟨⟨content, ?_⟩, installed _ ready.installed, ready.fits⟩
      rw [(spliced chunk.delta.cell).1 (Option.isSome_iff_exists.mpr ready.found), found]
  have lane : restored = state.lane.drop capture.mark :=
    chunks_eq entries (restoredKeys.trans keys)
  have detached : last.journal.checkpointArena.detachedPrior = suffix := by
    simp [CheckpointArena.detachedPrior, forked]
  have replaced : (last.journal.checkpointArena.setDetachedPrior restored).ownership =
      .forked (state.lane.take capture.mark) restored current := by
    simp [CheckpointArena.setDetachedPrior, forked]
  have earlier : state.journal.saveSerial < last.journal.saveSerial := by
    have later := pending.persists.serial
    rw [begun.serial] at later
    exact later
  have unwritten : ∀ cell content, redone.contents cell = some content →
      content.saveSerial < last.journal.saveSerial + 1 := by
    intro cell content found
    refine Nat.lt_succ_of_le ?_
    rw [contents] at found
    cases common : banks.contents cell with
    | some _ =>
      rw [agrees cell (by rw [common]; rfl)] at found
      exact Nat.le_of_lt (Nat.lt_of_le_of_lt (coherent.stamps cell content found) earlier)
    | none => ?_
    have unnamed : ∀ entry ∈ entriesOf suffix, entry.1 ≠ cell := by
      rintro entry listed rfl
      have held := named entry listed
      rw [common] at held
      cases held
    rw [redoes.unnamed unnamed] at found
    rcases (spliced cell).2 common with absent | same
    · cases absent.symm.trans found
    · exact stamps cell content (same.symm.trans found)
  have length : redone.fontRuntime.rows.length = state.banks.fontRuntime.rows.length := by
    have fewer := (coherent.holds capture member begun.names).rows
    rw [redoneShape.rows]
    simp only [Banks.spliceRows, FontRuntimeBank.truncate, List.length_append, begun.rows,
      List.length_drop, List.length_take_of_le inside, shape.rows]
    exact Nat.add_sub_cancel' fewer
  have rejecting : last.rejectCheckpointCandidate capture.cursor capture.dense tail =
      .ok
        { banks := redone
          journal := { last.journal with
            activeSequence := []
            activeGroups := []
            saveStack := tail.journal.saveStack
            savePosition := tail.journal.savePosition
            checkpointEntries := tail.journal.priorCheckpointEntries
            checkpointArena :=
              { ownership := .accepted (state.lane.take capture.mark ++ restored)
                nextKey := last.journal.checkpointArena.nextKey }
            checkpointFork := false
            saveSerial := last.journal.saveSerial + 1 }
          groups := []
          nextGroupLineage := tail.nextGroupLineage } := by
    unfold rejectCheckpointCandidate SaveJournal.checkpointSuffix
    rw [show last.journal.checkpointArena.live.drop capture.cursor.checkpoint.payloadChunks =
      last.lane.drop capture.mark from rfl, rewinding, ok_bind]
    dsimp only
    rw [if_neg (show ¬ undone.fontRuntime.cursor < _ from Nat.not_lt_of_le inside), detached]
    change (redo (undone.spliceRows capture.dense.fontRuntimeRows tail.fontRuntime) suffix >>= _) = _
    rw [redoing, ok_bind]
    simp only [SaveJournal.rejectCheckpointCandidate, CheckpointArena.rejectCheckpointCandidate,
      replaced]
    rfl
  refine ⟨_, rejecting, ?_⟩
  refine ⟨fun cell content found => ?_, fun cell held => ?_, length, ?_, ?_, begun.priorEntries,
    ?_, unwritten, ?_, ?_⟩
  · have found' : (banks.contents cell).isSome := by
      rw [shape.exist cell, found]
      rfl
    rw [contents, agrees cell found', found]
  · exact redoneShape.installed cell (installed cell (shape.installed cell held))
  · rw [lane, List.take_append_drop]
  · rw [← begun.nextKey]
    exact pending.persists.nextKey
  · exact Nat.lt_succ_of_lt earlier
  · exact checkpointEligible_iff.mpr ⟨rfl, rfl, rfl, pending.outside⟩
  obtain ⟨_, _, sequence, _⟩ := checkpointEligible_iff.mp begun.eligible
  dsimp only
  rw [begun.priorPosition, coherent.position, sequence]
  rfl

/-! ## Accepting a candidate -/

theorem Begun.pending (begun : Begun state candidate capture tail suffix banks)
    (coherent : Coherent state (before ++ capture :: after))
    (run : CandidateRun StateCell.Representable candidate last later) :
    Pending state candidate last before later capture tail suffix banks := by
  obtain ⟨lasting, persists, outside⟩ := (begun.coherent coherent).2.candidateRun run
  exact ⟨begun, lasting, persists, outside begun.outside⟩

/-- The candidate became the accepted generation, under a later serial. -/
theorem Pending.accepted
    (pending : Pending state candidate last before later capture tail suffix banks)
    (accepts : last.acceptCheckpointCandidate = .ok next) :
    next.banks = last.banks ∧ next.lane = last.lane ∧
      (∃ payload, next.journal.checkpointArena.ownership = .accepted payload) ∧
      Coherent next (before ++ [capture] ++ later) ∧ next.checkpointEligible = true := by
  obtain ⟨current, forked⟩ := pending.forked
  obtain ⟨journal, accepting, accepts⟩ := bind_eq_ok.mp accepts
  cases pure_eq_ok.mp accepts
  unfold SaveJournal.acceptCheckpointCandidate at accepting
  split at accepting
  · cases accepting
  rename_i settled
  unfold CheckpointArena.acceptCheckpointCandidate at accepting
  simp only [forked] at accepting
  cases accepting
  simp only [Bool.or_eq_true, not_or, Bool.not_eq_true', Bool.not_eq_false, List.isEmpty_iff,
    decide_eq_true_eq, Decidable.not_not] at settled
  obtain ⟨⟨⟨_, activeGroups⟩, sequence⟩, _⟩ := settled
  have lane : state.lane.take capture.mark ++ current = last.lane := by
    simp [DenseState.lane, CheckpointArena.live, forked]
  have paired : last.Paired := by
    apply pending.persists.paired
    unfold Paired
    rw [pending.begun.groups.1, pending.begun.groups.2]
    rfl
  have groups : last.groups = [] := by
    unfold Paired at paired
    rw [activeGroups] at paired
    exact List.length_eq_zero_iff.mp paired
  have fewer : (before ++ [capture] ++ later).Sublist
      (before ++ [capture] ++ [candidate.initialCapture capture] ++ later) :=
    (List.sublist_append_left _ _).append (List.Sublist.refl _)
  have idle : Idle last { last with journal := { last.journal with
      checkpointArena :=
        { ownership := .accepted (state.lane.take capture.mark ++ current)
          nextKey := last.journal.checkpointArena.nextKey }
      checkpointFork := false } } :=
    ⟨rfl, lane, rfl, rfl, rfl, fun _ member => member, pending.coherent.position,
      fun held => held⟩
  have kept := ((pending.coherent.sublist fewer).idle idle).advance pending.outside.2
  exact ⟨rfl, lane, ⟨_, rfl⟩, kept,
    checkpointEligible_iff.mpr ⟨groups, activeGroups, sequence, pending.outside⟩⟩

/-- The candidate's lane names an accepted cursor just when that stands no later
than the cursor the candidate began at. -/
theorem Pending.names_iff
    (pending : Pending state candidate last before later capture tail suffix banks)
    {other : Capture R} (issued : Issued state.journal.checkpointArena.nextKey other.cursor) :
    Names last.lane other.cursor ↔ Names state.lane other.cursor ∧ other.mark ≤ capture.mark := by
  obtain ⟨current, forked⟩ := pending.forked
  have lane : last.lane = state.lane.take capture.mark ++ current := by
    simp [DenseState.lane, CheckpointArena.live, forked]
  have length : (state.lane.take capture.mark).length = capture.mark :=
    List.length_take_of_le pending.begun.names.1
  constructor
  · intro names
    have inside : other.mark ≤ capture.mark := by
      obtain ⟨count, added, shape, fresh⟩ := pending.persists.lane
      rw [pending.begun.nextKey] at fresh
      rw [pending.begun.lane] at shape
      refine Nat.le_of_not_lt fun beyond => ?_
      have marked : other.cursor.checkpoint.payloadChunks ≠ 0 :=
        Nat.ne_of_gt (Nat.zero_lt_of_lt beyond)
      obtain ⟨key, older, tailKey⟩ := issued.tail marked
      have here := names.2.resolve_left marked
      obtain ⟨index, position⟩ := Nat.exists_eq_succ_of_ne_zero marked
      rw [tailKey, position] at here
      have behind : ((state.lane.take capture.mark).take count).length ≤ index := by
        refine Nat.le_trans (List.length_take_le' _ _) ?_
        rw [length]
        apply Nat.le_of_lt_succ
        rw [← position]
        exact beyond
      simp only [CheckpointArena.keyBelow] at here
      obtain ⟨chunk, found, same⟩ := Option.map_eq_some_iff.mp here.symm
      rw [shape, List.getElem?_append_right behind] at found
      have newer := fresh chunk (List.mem_of_getElem? found)
      rw [same] at newer
      exact absurd older (Nat.not_lt_of_le newer)
    refine ⟨?_, inside⟩
    rw [lane] at names
    have taken := names.take (show other.cursor.checkpoint.payloadChunks ≤ capture.mark from inside)
    rw [List.take_left' length] at taken
    exact taken.of_take.1
  rintro ⟨names, inside⟩
  rw [lane]
  exact (names.take inside).append current

end Candidate

end DenseState

end Umber.State
