import Umber.Command.StackRewinding

/-! Candidates of a stack: one begins at a mark, and is rejected or accepted as a whole. -/

set_option autoImplicit false

namespace Umber.Command

open PackedJournal

open UndoLog (put rewound Rewinds Redoes)

variable {α σ κ : Type} [LogicalStackElement α σ] {keeps : α → κ} {stack : LogicalStack α σ}
  {lineage : Lineage α} {entries : List (Nat × α)} {start floor : Nat}

omit [LogicalStackElement α σ] in
theorem asSlice_length (bounded : stack.top ≤ stack.rows.length) :
    stack.asSlice.length = stack.top := by
  unfold LogicalStack.asSlice
  rw [List.length_take, Nat.min_eq_left bounded]

omit [LogicalStackElement α σ] in
theorem asSlice_getElem? {index : Nat} (inside : index < stack.top) :
    stack.asSlice[index]? = rowsAt stack.rows index := by
  unfold LogicalStack.asSlice
  exact List.getElem?_take_of_lt inside

/-- The stack of a candidate before its first interval. -/
def LogicalStack.begun (stack : LogicalStack α σ) (mark : LogicalStackMark)
    (before visited : List (JournalChunk (ElementUndo σ))) (rows : List α)
    (displaced : SlotMap α) : LogicalStack α σ :=
  { stack with
    undo :=
      { stack.undo with
        current := before
        detached := visited
        chunks := mark.undo.chunks
        records := mark.undo.records
        fork := some
          { selected := mark.undo
            priorChunks := stack.undo.chunks
            priorRecords := stack.undo.records }
        intervalTailOpen := false }
    rows := rows
    displaced := displaced
    top := mark.top
    fork := some stack.top }

/-- The records behind the mark are undone, and stand aside to redo the accepted rows. -/
structure Begins (keeps : α → κ) (stack : LogicalStack α σ) (mark : LogicalStackMark)
    (before after visited : List (JournalChunk (ElementUndo σ))) (rows : List α)
    (displaced : SlotMap α) (older newer back : List (Nat × α)) : Prop where
  cuts : Cuts stack.undo.baseChunks stack.undo.baseRecords mark.undo before after stack.undo.current
  shape : SameShape visited after
  size : (recordsOf before).length = older.length
  length : rows.length = stack.rows.length
  rewinds : Rewinds (rowsAt stack.rows) newer back (rowsAt rows)
  redone : Redone keeps displaced (rowsAt rows) (recordsOf visited) back

section

variable {mark : LogicalStackMark} {before after visited : List (JournalChunk (ElementUndo σ))}
  {rows : List α} {displaced : SlotMap α} {older newer back : List (Nat × α)}
  (begins : Begins keeps stack mark before after visited rows displaced older newer back)
  (kept : Held keeps stack lineage (older ++ newer) start floor)
include begins kept

/-- The marks up to that of the candidate stay marks. -/
theorem Begins.marks {held : LogicalStackMark × List α}
    (member : held ∈ Lineage.upTo lineage.marks mark) :
    (∃ front behind, Cuts stack.undo.baseChunks stack.undo.baseRecords held.1.undo front behind
        before) ∧ held.1.undo.records - stack.undo.baseRecords ≤ older.length ∧
      held.2.length ≤ rows.length ∧
      Remembers stack.undo.baseRecords older (rowsAt rows) held.1 held.2 := by
  obtain ⟨earlier, ordered⟩ := List.mem_filter.mp member
  have ordered := of_decide_eq_true ordered
  obtain ⟨boundary, _, within, remembers⟩ := kept.marks held earlier
  obtain ⟨heldBefore, heldAfter, heldCuts⟩ := boundary.cuts
  obtain ⟨middle, front⟩ := cuts_front begins.cuts heldCuts ordered
  have place : held.1.undo.records - stack.undo.baseRecords ≤ older.length := by
    have total := front.spans.records_eq
    have inner := congrArg (fun lane => (recordsOf lane).length) front.split
    rw [recordsOf_append, List.length_append, begins.size] at inner
    omega
  refine ⟨⟨heldBefore, middle, front⟩, place, ?_, ?_⟩
  · rw [begins.length]
    exact Nat.le_trans within kept.floored
  rw [begins.rewinds.final_eq]
  exact remembers.front place

theorem Begins.aside : Aside keeps (stack.begun mark before visited rows displaced).undo
    (some stack.top) displaced rows older older.length rows.length
    (stack.asSlice, lineage.marks) ⟨mark.undo, stack.undo.chunks, stack.undo.records⟩ before []
    rows.length (rowsAt rows) (rowsAt stack.rows) back newer where
  undoFork := rfl
  top := congrArg some (asSlice_length kept.bounded).symm
  cuts := ⟨(List.append_nil _).symm, begins.cuts.spans, begins.cuts.tail⟩
  position := Nat.le_of_eq begins.size
  within := Nat.le_refl _
  rewinds := by
    intro index _
    rw [begins.size, List.drop_length, UndoLog.rewound_nil]
  inside := by
    intro entry member
    have mapped := List.mem_map_of_mem (f := Prod.fst) member
    rw [begins.rewinds.cells] at mapped
    obtain ⟨other, otherMember, sameCell⟩ := List.mem_map.mp mapped
    have inside := kept.undoes.inside other (List.mem_append_right _ otherMember)
    rw [begins.length]
    omega
  redone := begins.redone
  redoes := begins.rewinds.redoes
  shown := by
    rw [asSlice_length kept.bounded, begins.length]
    exact kept.bounded
  sequence := by
    intro index inside
    rw [asSlice_length kept.bounded] at inside
    exact (asSlice_getElem? inside).symm
  marks := by
    intro held member
    obtain ⟨boundary, _, within, remembers⟩ := kept.marks held member
    obtain ⟨heldBefore, heldAfter, heldCuts⟩ := boundary.cuts
    refine ⟨?_, ?_, ?_⟩
    · rw [begins.length]
      exact Nat.le_trans within kept.floored
    · refine cuts_shape heldCuts ?_
      have shape := begins.shape
      unfold SameShape at shape ⊢
      rw [begins.cuts.split, List.map_append, List.map_append, ← shape]
      rfl
    rw [begins.size, List.take_length]
    exact remembers

end

theorem begin_inv (covers : Covers keeps) (inv : Inv keeps stack lineage)
    {mark : LogicalStackMark} (recording : stack.recording = true) (unforked : stack.fork = none)
    (valid : stack.validates mark = true) :
    ∃ next, stack.beginCheckpointCandidate mark = some next ∧
      Inv keeps next
        { lineage with
          marks := Lineage.upTo lineage.marks mark
          accepted := some (stack.asSlice, lineage.marks) } ∧
      ∀ seen, (mark, seen) ∈ lineage.marks → next.asSlice = seen := by
  obtain ⟨entries, start, floor, kept⟩ := inv
  have undoUnforked := kept.fork_eq_none.2.mpr (kept.fork_eq_none.1.mp unforked)
  obtain ⟨bounded, before, after, cuts⟩ := kept.cuts_of_validates valid
  have undoes := kept.undoes
  have payloads := kept.payloads
  rw [cuts.split, recordsOf_append] at undoes
  rw [cuts.split, recordsOf_append, handlesOf_append, kept.sound.unforked undoUnforked] at payloads
  obtain ⟨older, newer, rfl, size, newerUndoes, olderUndoes⟩ := undoes.cut
  rw [recordsOf_nil, show handlesOf ([] : List (ElementUndo σ)) = [] from rfl,
    List.append_nil] at payloads
  obtain ⟨_, distinctAfter, apart⟩ := List.nodup_append.mp payloads.nodup
  obtain ⟨swapped, rows, displaced, back, ran, length, handles, frame, holds, rewinds, redone⟩ :=
    newerUndoes.swapReverse covers distinctAfter
  obtain ⟨visited, visiting, same, shape⟩ := visitReverse_of_swapReverse ran
  have final := rewinds.final_eq
  have begins : Begins keeps stack mark before after visited rows displaced older newer back :=
    ⟨cuts, shape, size, length, rewinds, same ▸ redone⟩
  have began : stack.beginCheckpointCandidate mark =
      some (stack.begun mark before visited rows displaced).nextInterval := by
    unfold LogicalStack.beginCheckpointCandidate
    rw [unforked, valid, if_neg (by simp)]
    have undoValid := (validates_iff kept.sound).mpr ⟨before, after, cuts⟩
    unfold beginCheckpointCandidate
    rw [undoUnforked, undoValid, if_neg (by simp), cutAt_of_cuts kept.sound cuts]
    dsimp only
    rw [visiting]
    rfl
  refine ⟨_, began, ⟨older, older.length, rows.length,
    @Held.next _ _ _ _ _ _ _ _ older.length rows.length ?_⟩, ?_⟩
  · exact
      { sound := forked_sound kept.sound undoUnforked cuts shape
        payloads := by
          show displaced.Holds (handlesOf (recordsOf before) ++ handlesOf (recordsOf visited))
          rw [same, handles]
          exact holds _ payloads
        bounded := length ▸ bounded
        touchedLength := kept.touchedLength.trans length.symm
        capturedLength := kept.capturedLength.trans length.symm
        idle := fun idle => absurd (recording.symm.trans idle) (by decide)
        interval := kept.interval
        stamps := kept.stamps
        undoes := by
          show Undoes keeps displaced (rowsAt rows) (recordsOf before) older
          rw [final]
          exact olderUndoes.frame fun payload member =>
            frame payload fun other => apart payload member payload other rfl
        started := Nat.le_refl _
        floored := Nat.le_refl _
        marks := by
          intro held member
          obtain ⟨boundary, remembered⟩ := begins.marks kept.toHeld member
          exact ⟨⟨boundary, nofun⟩, remembered⟩
        forked := ⟨_, before, [], rows.length, rowsAt rows, rowsAt stack.rows, back, newer,
          begins.aside kept.toHeld⟩ }
  intro seen member
  have remembers := (kept.marks _ member).2.2.2
  apply remembers.shown final
  rw [cuts.spans.records_eq, size]
  omega

variable {accepted : List α × List (LogicalStackMark × List α)}

theorem Held.aside (held : Held keeps stack lineage entries start floor)
    (some_ : lineage.accepted = some accepted) :
    ∃ fork before after width base final forward backward,
      Aside keeps stack.undo stack.fork stack.displaced stack.rows entries start floor accepted
        fork before after width base final forward backward := by
  have forked := held.forked
  unfold Forked at forked
  rw [some_] at forked
  exact forked

section

variable {undo : PackedJournal (ElementUndo σ)} {acceptedTop : Option Nat} {displaced : SlotMap α}
  {rows redone : List α} {older newer forward backward : List (Nat × α)} {fork : JournalFork}
  {before after visited : List (JournalChunk (ElementUndo σ))} {width : Nat}
  {base final : Nat → Option α}
  (aside : Aside keeps undo acceptedTop displaced rows (older ++ newer) start floor accepted
    fork before after width base final forward backward)
  (shown : ∀ cell, cell < width → rowsAt redone cell = final cell)
include aside shown

/-- Redone rows show the accepted sequence. -/
theorem Aside.take_redone : redone.take accepted.1.length = accepted.1 := by
  apply List.ext_getElem?
  intro index
  by_cases inside : index < accepted.1.length
  · rw [List.getElem?_take_of_lt inside]
    show rowsAt redone index = _
    rw [shown index (Nat.lt_of_lt_of_le inside aside.shown), aside.sequence index inside]
  rw [List.getElem?_eq_none (Nat.le_of_not_lt inside), List.getElem?_eq_none]
  rw [List.length_take]
  omega

/-- The accepted marks are marks of the log the records are joined to again. -/
theorem Aside.marks_redone (size : (recordsOf before).length = older.length)
    (shape : SameShape visited undo.detached) (count : (recordsOf visited).length = backward.length)
    {held : LogicalStackMark × List α} (member : held ∈ accepted.2) :
    (∃ front behind, Cuts undo.baseChunks undo.baseRecords held.1.undo front behind
        (before ++ visited)) ∧
      held.1.undo.records - undo.baseRecords ≤ (older ++ backward).length ∧
      Remembers undo.baseRecords (older ++ backward) (rowsAt redone) held.1 held.2 := by
  obtain ⟨short, ⟨front, behind, cuts⟩, remembers⟩ := aside.marks held member
  have joined : SameShape (before ++ undo.detached) (before ++ visited) := by
    unfold SameShape at shape ⊢
    rw [List.map_append, List.map_append, shape]
  obtain ⟨heldBefore, heldAfter, heldCuts⟩ := cuts_shape cuts joined
  refine ⟨⟨heldBefore, heldAfter, heldCuts⟩, ?_, remembers.top, fun index inside => ?_⟩
  · have total := heldCuts.spans.records_eq
    have inner := congrArg (fun lane => (recordsOf lane).length) heldCuts.split
    rw [recordsOf_append, recordsOf_append, List.length_append, List.length_append, count,
      size] at inner
    rw [List.length_append]
    omega
  have found := remembers.rows index inside
  rw [size, List.take_left] at found
  rw [← found]
  exact UndoLog.rewound_congr _ (shown index (Nat.lt_of_lt_of_le inside short))

end

theorem reject_inv (covers : Covers keeps) (inv : Inv keeps stack lineage)
    (recording : stack.recording = true) (some_ : lineage.accepted = some accepted) :
    ∃ next, stack.rejectCheckpointCandidate = some next ∧ next.asSlice = accepted.1 ∧
      Inv keeps next { lineage with marks := accepted.2, accepted := none } := by
  obtain ⟨entries, start, floor, kept⟩ := inv
  obtain ⟨fork, before, after, width, base, final, forward, backward, aside⟩ :=
    kept.toHeld.aside some_
  obtain ⟨older, newer, slots, rows, displaced, rfl, size, ran, length, rewoundRows, undoes,
    keys, payloads, frame⟩ := kept.toHeld.rewind covers aside.cuts
  have within : width ≤ rows.length := by
    rw [length]
    exact Nat.le_trans aside.within kept.floored
  have agree : ∀ cell, cell < width → rowsAt rows cell = base cell := by
    intro cell inside
    have found := aside.rewinds cell inside
    rw [size, List.drop_left] at found
    rw [rewoundRows]
    exact found
  -- the accepted rows are redone from the rows the candidate began with
  have redone : Redone keeps displaced (rowsAt rows) (recordsOf stack.undo.detached) forward := by
    refine @Redone.congr α σ κ _ keeps displaced base _ forward (· < width) ?_ aside.inside _ agree
    exact aside.redone.frame fun payload member => frame payload (List.mem_append_right _ member)
  have distinct := (List.nodup_append.mp payloads.nodup).2.1
  have apart := (List.nodup_append.mp payloads.nodup).2.2
  obtain ⟨swapped, finalRows, finalDisplaced, back, ranForward, finalLength, handles, finalFrame,
    holds, redoes, redoneUndoes⟩ := redone.swapForward covers distinct
  obtain ⟨visited, visiting, same, shape⟩ := visitForward_of_swapForward ranForward
  obtain ⟨result, expected, agrees⟩ := aside.redoes.congr aside.inside agree
  obtain ⟨rfl, sameFinal⟩ := redoes.unique expected
  have shownRows : ∀ cell, cell < width → rowsAt finalRows cell = final cell := by
    intro cell inside
    rw [sameFinal]
    exact agrees cell inside
  have rejected : stack.rejectCheckpointCandidate =
      some
        ({ stack with
            undo :=
              { stack.undo with
                slots := slots
                current := before ++ visited
                detached := []
                chunks := fork.priorChunks
                records := fork.priorRecords
                fork := none
                intervalTailOpen := false }
            rows := finalRows
            displaced := finalDisplaced
            top := accepted.1.length
            fork := none } : LogicalStack α σ).nextInterval := by
    unfold LogicalStack.rejectCheckpointCandidate
    rw [aside.top]
    dsimp only
    unfold rejectCheckpointCandidateWith
    rw [aside.undoFork]
    dsimp only
    rw [ran]
    dsimp only
    rw [visiting]
  have bounded : accepted.1.length ≤ finalRows.length := by
    rw [finalLength]
    exact Nat.le_trans aside.shown within
  refine ⟨_, rejected, ?_, ⟨older ++ back, (older ++ back).length, finalRows.length,
    @Held.next _ _ _ _ _ _ _ _ (older ++ back).length finalRows.length ?_⟩⟩
  · exact aside.take_redone shownRows
  exact
    { sound := rejoined_sound kept.sound aside.undoFork aside.cuts shape keys
      payloads := by
        show finalDisplaced.Holds (handlesOf (recordsOf (before ++ visited)) ++ [])
        rw [recordsOf_append, handlesOf_append, same, handles, List.append_nil]
        exact holds _ payloads
      bounded := bounded
      touchedLength := by
        rw [finalLength, length]
        exact kept.touchedLength
      capturedLength := by
        rw [finalLength, length]
        exact kept.capturedLength
      idle := fun idle => absurd (recording.symm.trans idle) (by decide)
      interval := kept.interval
      stamps := kept.stamps
      undoes := by
        show Undoes keeps finalDisplaced (rowsAt finalRows) (recordsOf (before ++ visited)) _
        rw [recordsOf_append, same]
        refine Undoes.append ?_ redoneUndoes
        rw [redoes.rewound]
        refine undoes.frame fun payload member => finalFrame payload ?_
        exact fun other => apart payload member payload other rfl
      started := Nat.le_refl _
      floored := Nat.le_refl _
      marks := by
        intro held member
        obtain ⟨boundary, place, remembers⟩ := aside.marks_redone shownRows size shape
          (by rw [same, redoneUndoes.length]) member
        refine ⟨⟨boundary, nofun⟩, place, ?_, remembers⟩
        rw [finalLength]
        exact Nat.le_trans (aside.marks held member).1 within
      forked := ⟨rfl, rfl⟩ }

theorem accept_inv (inv : Inv keeps stack lineage) (recording : stack.recording = true)
    (some_ : lineage.accepted = some accepted) :
    ∃ next, stack.acceptCheckpointCandidate = some next ∧ next.asSlice = stack.asSlice ∧
      Inv keeps next { lineage with accepted := none } := by
  obtain ⟨entries, start, floor, kept⟩ := inv
  obtain ⟨fork, before, after, width, base, final, forward, backward, aside⟩ :=
    kept.toHeld.aside some_
  have payloads := kept.payloads.perm List.perm_append_comm
  have keys := kept.sound.keys.perm List.perm_append_comm
  have due : Owed stack.rows (handlesOf (recordsOf stack.undo.current)) stack.displaced
      (recordsOf stack.undo.detached) (stack.rows, stack.displaced) :=
    ⟨rfl, payloads, fun _ _ => rfl⟩
  obtain ⟨slots, released, ran, keysLeft, settled⟩ :=
    releaseChunks_spec (owed_settles _ _ _) stack.undo.detached keys due
  obtain ⟨rows, displaced⟩ := released
  have sameRows : rows = stack.rows := settled.rows
  subst sameRows
  have accepting : stack.acceptCheckpointCandidate =
      some
        ({ stack with
            fork := none
            undo :=
              { stack.undo with
                slots := slots
                detached := []
                fork := none
                intervalTailOpen := false }
            displaced := displaced } : LogicalStack α σ).nextInterval := by
    unfold LogicalStack.acceptCheckpointCandidate
    rw [aside.top]
    dsimp only
    unfold acceptCheckpointCandidateWith
    rw [aside.undoFork]
    dsimp only
    rw [ran]
  refine ⟨_, accepting, rfl, ⟨entries, entries.length, stack.rows.length,
    @Held.next _ _ _ _ _ _ _ _ start floor ?_⟩⟩
  exact
    { sound := accepted_sound kept.sound keysLeft
      payloads := by
        show displaced.Holds (handlesOf (recordsOf stack.undo.current) ++ [])
        rw [List.append_nil]
        exact settled.holds
      bounded := kept.bounded
      touchedLength := kept.touchedLength
      capturedLength := kept.capturedLength
      idle := fun idle => absurd (recording.symm.trans idle) (by decide)
      interval := kept.interval
      stamps := kept.stamps
      undoes := kept.undoes.frame settled.frame
      started := kept.started
      floored := kept.floored
      marks := by
        intro held member
        obtain ⟨boundary, rest⟩ := kept.marks held member
        exact ⟨⟨boundary.cuts, nofun⟩, rest⟩
      forked := ⟨rfl, rfl⟩ }

omit [LogicalStackElement α σ] in
theorem Shielded.drop {cell : Nat} {first second : List (ElementUndo σ)}
    (shielded : Shielded cell (first ++ second)) : Shielded cell second := by
  induction first with
  | nil => exact shielded
  | cons record first ih => exact ih shielded.1

theorem Kept.fewer (kept : Kept keeps stack lineage entries start floor)
    {marks : List (LogicalStackMark × List α)} (recording : stack.recording = true)
    (fewer : ∀ held ∈ marks, held ∈ lineage.marks) :
    Kept keeps stack { lineage with marks := marks } entries start floor :=
  { kept with
    idle := fun idle => absurd (recording.symm.trans idle) (by decide)
    marks := fun held member => kept.marks held (fewer held member) }

theorem Kept.release (kept : Kept keeps stack lineage entries start floor)
    (unforked : stack.fork = none) {mark : PackedJournalMark} (recording : stack.recording = true)
    {before after : List (JournalChunk (ElementUndo σ))}
    (cuts : Cuts stack.undo.baseChunks stack.undo.baseRecords mark before after stack.undo.current)
    {slots : SlotMap Unit} {displaced : SlotMap α} (keys : slots.Holds (keysOf after))
    (payloads : displaced.Holds (handlesOf (recordsOf after)))
    (frame : ∀ payload ∈ handlesOf (recordsOf after),
      displaced.view payload = stack.displaced.view payload) : Inv keeps
      { stack with
        undo :=
          { stack.undo with
            slots := slots
            current := after
            baseChunks := mark.chunks
            baseRecords := mark.records
            intervalTailOpen := false }
        displaced := displaced }
      { lineage with
        marks := lineage.marks.filter fun held => mark.chunks ≤ held.1.undo.chunks } := by
  have accepted := kept.fork_eq_none.1.mp unforked
  have undoUnforked := kept.fork_eq_none.2.mpr accepted
  have undoes := kept.undoes
  rw [cuts.split, recordsOf_append] at undoes
  obtain ⟨older, newer, rfl, size, newerUndoes, _⟩ := undoes.cut
  have place := cuts.spans.records_eq
  have started := kept.started
  rw [List.length_append] at started
  refine ⟨newer, start - older.length, if older.length ≤ start then floor else 0, ⟨?_, ?_, ?_⟩⟩
  · exact
      { sound := released_sound kept.sound undoUnforked cuts keys
        payloads := by
          show displaced.Holds
            (handlesOf (recordsOf after) ++ handlesOf (recordsOf stack.undo.detached))
          rw [kept.sound.unforked undoUnforked]
          exact payloads.perm (by rw [show handlesOf (recordsOf ([] : List
            (JournalChunk (ElementUndo σ)))) = [] from rfl, List.append_nil])
        bounded := kept.bounded
        touchedLength := kept.touchedLength
        capturedLength := kept.capturedLength
        idle := fun idle => absurd (recording.symm.trans idle) (by decide)
        interval := kept.interval
        stamps := kept.stamps
        undoes := newerUndoes.frame frame
        started := by omega
        floored := by
          split
          · exact kept.floored
          · exact Nat.zero_le _
        marks := by
          intro held member
          obtain ⟨earlier, ordered⟩ := List.mem_filter.mp member
          have ordered := of_decide_eq_true ordered
          obtain ⟨boundary, position, within, remembers⟩ := kept.marks held earlier
          obtain ⟨heldBefore, heldAfter, heldCuts⟩ := boundary.cuts
          obtain ⟨middle, back⟩ := cuts_back cuts heldCuts ordered
          have heldPlace := back.spans.records_eq
          have reached : older.length ≤ start := by omega
          refine ⟨⟨⟨middle, heldAfter, back⟩, nofun⟩, ?_, ?_, ?_⟩
          · show held.1.undo.records - mark.records ≤ _
            omega
          · rw [if_pos reached]
            exact within
          refine ⟨remembers.top, fun index inside => ?_⟩
          have found := remembers.rows index inside
          have shift : held.1.undo.records - stack.undo.baseRecords =
              older.length + (held.1.undo.records - mark.records) := by omega
          rw [shift, List.drop_append, Nat.add_sub_cancel_left, List.drop_of_length_le
            (Nat.le_add_right _ _), List.nil_append] at found
          exact found
        forked := by
          have forked := kept.forked
          unfold Forked at forked ⊢
          rw [accepted] at forked ⊢
          exact forked }
  · intro index stamped
    split
    next reached =>
      have tail : (older ++ newer).drop start = newer.drop (start - older.length) := by
        rw [List.drop_append, List.drop_of_length_le reached, List.nil_append]
      rw [← tail]
      exact kept.fresh index stamped
    next => exact .inr (Nat.zero_le index)
  intro index stamped uncaptured
  have shielded := kept.shielded index stamped uncaptured
  rw [cuts.split, recordsOf_append] at shielded
  exact shielded.drop

/-- Releasing the records before a mark keeps the marks from there on. -/
theorem releasePrefix_inv (inv : Inv keeps stack lineage) {mark : LogicalStackMark}
    (recording : stack.recording = true) :
    ∃ released next, stack.releasePrefix mark = some (released, next) ∧
      next.asSlice = stack.asSlice ∧ (released = none → next = stack) ∧ (released ≠ none →
        Inv keeps next { lineage with marks := Lineage.since lineage.marks mark }) := by
  obtain ⟨entries, start, floor, kept⟩ := inv
  unfold LogicalStack.releasePrefix
  by_cases refused : stack.fork.isSome = true ∨ stack.validates mark = false
  · rw [if_pos refused]
    exact ⟨none, stack, rfl, rfl, fun _ => rfl, fun released => absurd rfl released⟩
  rw [if_neg refused]
  obtain ⟨unforked, valid⟩ := unforked_of_not_refused refused
  have undoUnforked := kept.fork_eq_none.2.mpr (kept.fork_eq_none.1.mp unforked)
  obtain ⟨bounded, before, after, cuts⟩ := kept.cuts_of_validates valid
  have undoValid := (validates_iff kept.sound).mpr ⟨before, after, cuts⟩
  unfold releasePrefix
  rw [if_neg (by rw [undoUnforked, undoValid]; simp)]
  by_cases base : stack.undo.isBase mark.undo = true
  · rw [if_pos base]
    refine ⟨_, _, rfl, rfl, nofun, fun _ => ?_⟩
    exact ⟨entries, start, floor,
      kept.fewer recording fun held member => (List.mem_filter.mp member).1⟩
  rw [if_neg base, cutAt_of_cuts kept.sound cuts]
  have keys := kept.sound.keys
  have payloads := kept.payloads
  rw [kept.sound.unforked undoUnforked, cuts.split] at keys payloads
  unfold keysOf at keys
  rw [List.map_append, List.map_nil, List.append_nil] at keys
  rw [recordsOf_append, handlesOf_append, recordsOf_nil,
    show handlesOf ([] : List (ElementUndo σ)) = [] from rfl, List.append_nil] at payloads
  have due : Owed stack.rows (handlesOf (recordsOf after)) stack.displaced
      (recordsOf before) (stack.rows, stack.displaced) :=
    ⟨rfl, payloads, fun _ _ => rfl⟩
  obtain ⟨slots, released, ran, keysLeft, settled⟩ :=
    releaseChunks_spec (owed_settles _ _ _) before keys due
  obtain ⟨rows, displaced⟩ := released
  dsimp only
  rw [ran]
  refine ⟨_, _, rfl, rfl, nofun, fun _ => ?_⟩
  exact kept.release unforked recording cuts keysLeft settled.holds settled.frame

end Umber.Command
