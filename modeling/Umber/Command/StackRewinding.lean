import Umber.Command.StackProperties

/-! Going back to a mark: the records behind it are exchanged and released, and what the
marks before it remember stays. -/

set_option autoImplicit false

namespace Umber.Command

open PackedJournal ElementUndo

open UndoLog (put rewound Rewinds Redoes)

variable {α σ κ : Type}

structure Owed (rows : List α) (others : List PayloadHandle) (seen : SlotMap α)
    (records : List (ElementUndo σ)) (context : List α × SlotMap α) : Prop where
  rows : context.1 = rows
  holds : context.2.Holds (handlesOf records ++ others)
  frame : ∀ payload ∈ others, context.2.view payload = seen.view payload

theorem owed_settles (rows : List α) (others : List PayloadHandle) (seen : SlotMap α) :
    PackedJournal.Settles release
      (Owed rows others seen : List (ElementUndo σ) → List α × SlotMap α → Prop) := by
  intro record later context owed
  cases record with
  | inlineState index state => exact ⟨context, rfl, owed.rows, owed.holds, owed.frame⟩
  | replacement index payload => ?_
  have holds : context.2.Holds (payload :: (handlesOf later ++ others)) := owed.holds
  obtain ⟨retired, retiring, rest⟩ := holds.retire
  refine ⟨(context.1, retired), ?_, owed.rows, rest, ?_⟩
  · unfold release
    dsimp only
    rw [retiring]
  intro other member
  have apart : other ≠ payload := by
    rintro rfl
    have distinct := List.nodup_cons.mp holds.nodup
    exact distinct.1 (List.mem_append_right _ member)
  show retired.view other = seen.view other
  rw [SlotMap.view_retire retiring, if_neg apart]
  exact owed.frame other member

variable [LogicalStackElement α σ] {keeps : α → κ} {stack : LogicalStack α σ}
  {lineage : Lineage α} {entries : List (Nat × α)} {start floor : Nat}
  {before after : List (JournalChunk (ElementUndo σ))}

theorem Held.rewind (covers : Covers keeps) (held : Held keeps stack lineage entries start floor)
    {mark : PackedJournalMark}
    (cuts : Cuts stack.undo.baseChunks stack.undo.baseRecords mark before after
      stack.undo.current) :
    ∃ older newer slots rows displaced, entries = older ++ newer ∧
      (recordsOf before).length = older.length ∧
      stack.undo.rewindTo mark swap release
          (stack.rows, stack.displaced) =
        some
          ({ stack.undo with
              slots := slots
              current := before
              chunks := mark.chunks
              records := mark.records
              intervalTailOpen := false },
            rows, displaced) ∧
      rows.length = stack.rows.length ∧ rowsAt rows = rewound newer (rowsAt stack.rows) ∧
      Undoes keeps displaced (rowsAt rows) (recordsOf before) older ∧
      slots.Holds (keysOf before ++ keysOf stack.undo.detached) ∧
      displaced.Holds
        (handlesOf (recordsOf before) ++ handlesOf (recordsOf stack.undo.detached)) ∧
      ∀ payload ∈ handlesOf (recordsOf before) ++ handlesOf (recordsOf stack.undo.detached),
        displaced.view payload = stack.displaced.view payload := by
  have undoes := held.undoes
  have payloads := held.payloads
  rw [cuts.split, recordsOf_append] at undoes
  rw [cuts.split, recordsOf_append, handlesOf_append] at payloads
  obtain ⟨older, newer, rfl, size, newerUndoes, olderUndoes⟩ := undoes.cut
  have sorted : stack.displaced.Holds (handlesOf (recordsOf after) ++
      (handlesOf (recordsOf before) ++ handlesOf (recordsOf stack.undo.detached))) := by
    refine payloads.perm ?_
    rw [← List.append_assoc]
    exact List.Perm.append_right _ List.perm_append_comm
  obtain ⟨distinctAfter, _, apart⟩ := List.nodup_append.mp sorted.nodup
  obtain ⟨swapped, rows, between, back, ran, length, handles, frame, holds, rewinds, _⟩ :=
    newerUndoes.swapReverse covers distinctAfter
  have outside : ∀ payload ∈
      handlesOf (recordsOf before) ++ handlesOf (recordsOf stack.undo.detached),
      between.view payload = stack.displaced.view payload :=
    fun payload member => frame payload fun inside => apart payload inside payload member rfl
  have due : ∀ records : List (ElementUndo σ), records.Perm swapped →
      Owed rows (handlesOf (recordsOf before) ++ handlesOf (recordsOf stack.undo.detached))
        between records (rows, between) := by
    intro records same
    refine ⟨rfl, (holds _ sorted).perm ?_, fun _ _ => rfl⟩
    rw [← handles]
    exact List.Perm.append_right _ (same.filterMap _)
  obtain ⟨slots, released, ranRewind, settled, keys⟩ :=
    rewindTo_spec held.sound cuts ran (owed_settles rows _ between) due
  obtain ⟨releasedRows, displaced⟩ := released
  have sameRows : releasedRows = rows := settled.rows
  subst sameRows
  have final : ∀ payload ∈
      handlesOf (recordsOf before) ++ handlesOf (recordsOf stack.undo.detached),
      displaced.view payload = stack.displaced.view payload :=
    fun payload member => (settled.frame payload member).trans (outside payload member)
  refine ⟨older, newer, slots, releasedRows, displaced, rfl, size, ranRewind, length,
    rewinds.final_eq, ?_, keys, settled.holds, final⟩
  rw [rewinds.final_eq]
  exact olderUndoes.frame fun payload member => final payload (List.mem_append_left _ member)

variable {baseRecords : Nat} {older newer : List (Nat × α)} {mark : LogicalStackMark}
  {seen : List α}

/-- What a mark remembers of a log is the same when the log is rewound behind it. -/
theorem Remembers.front {live : Nat → Option α}
    (remembers : Remembers baseRecords (older ++ newer) live mark seen)
    (position : mark.undo.records - baseRecords ≤ older.length) :
    Remembers baseRecords older (rewound newer live) mark seen := by
  refine ⟨remembers.top, fun index inside => ?_⟩
  have whole := remembers.rows index inside
  rw [List.drop_append_of_le_length position, UndoLog.rewound_append] at whole
  exact whole

variable {rows : List α}

section

variable (held : Held keeps stack lineage entries start floor)
include held

/-- A stack that went back to a mark remembers what the earlier marks saw. -/
theorem Held.back {mark : PackedJournalMark}
    (cuts : Cuts stack.undo.baseChunks stack.undo.baseRecords mark before after stack.undo.current)
    (selected : ∀ fork, stack.undo.fork = some fork → fork.selected.chunks ≤ mark.chunks)
    {slots : SlotMap Unit} {displaced : SlotMap α} {top : Nat} (split_ : entries = older ++ newer)
    (size : (recordsOf before).length = older.length) (length : rows.length = stack.rows.length)
    (final : rowsAt rows = rewound newer (rowsAt stack.rows))
    (undoes : Undoes keeps displaced (rowsAt rows) (recordsOf before) older)
    (keys : slots.Holds (keysOf before ++ keysOf stack.undo.detached)) (payloads : displaced.Holds
      (handlesOf (recordsOf before) ++ handlesOf (recordsOf stack.undo.detached)))
    (frame : ∀ payload ∈ handlesOf (recordsOf before) ++ handlesOf (recordsOf stack.undo.detached),
      displaced.view payload = stack.displaced.view payload) (bounded : top ≤ stack.rows.length)
    (recording : stack.recording = true) : Held keeps
      { stack with
        undo :=
          { stack.undo with
            slots := slots
            current := before
            chunks := mark.chunks
            records := mark.records
            intervalTailOpen := false }
        rows := rows
        displaced := displaced
        top := top }
      { lineage with
        marks := lineage.marks.filter fun kept => kept.1.undo.chunks ≤ mark.chunks }
      older older.length rows.length := by
  subst split_
  exact
    { sound := rewound_sound held.sound cuts selected keys
      payloads := payloads
      bounded := length ▸ bounded
      touchedLength := held.touchedLength.trans length.symm
      capturedLength := held.capturedLength.trans length.symm
      idle := fun idle => absurd (recording.symm.trans idle) (by decide)
      interval := held.interval
      stamps := held.stamps
      undoes := undoes
      started := Nat.le_refl _
      floored := Nat.le_refl _
      marks := by
        intro kept member
        obtain ⟨earlier, ordered⟩ := List.mem_filter.mp member
        have ordered := of_decide_eq_true ordered
        obtain ⟨boundary, _, within, remembers⟩ := held.marks kept earlier
        obtain ⟨keptBefore, keptAfter, keptCuts⟩ := boundary.cuts
        obtain ⟨middle, front⟩ := cuts_front cuts keptCuts ordered
        have place : kept.1.undo.records - stack.undo.baseRecords ≤ older.length := by
          have total := front.spans.records_eq
          have inner := congrArg (fun lane => (recordsOf lane).length) front.split
          rw [recordsOf_append, List.length_append] at inner
          omega
        refine ⟨⟨⟨keptBefore, middle, front⟩, nofun⟩, place, ?_, ?_⟩
        · rw [length]
          exact Nat.le_trans within held.floored
        rw [final]
        exact remembers.front place
      forked := by
        have forked := held.forked
        unfold Forked at forked ⊢
        cases some_ : lineage.accepted with
        | none =>
          rw [some_] at forked
          exact forked
        | some accepted => ?_
        rw [some_] at forked
        obtain ⟨fork, selectedBefore, selectedAfter, width, base, last, forward, backward,
          aside⟩ := forked
        obtain ⟨middle, front⟩ :=
          cuts_front cuts aside.cuts (selected fork aside.undoFork)
        have place : (recordsOf selectedBefore).length ≤ older.length := by
          have inner := congrArg (fun lane => (recordsOf lane).length) front.split
          rw [recordsOf_append, List.length_append] at inner
          omega
        refine ⟨fork, selectedBefore, middle, width, base, last, forward, backward, ?_⟩
        exact
          { undoFork := aside.undoFork
            top := aside.top
            cuts := front
            position := place
            within := by
              rw [length]
              exact Nat.le_trans aside.within held.floored
            rewinds := by
              intro index inside
              have whole := aside.rewinds index inside
              rw [List.drop_append_of_le_length place, UndoLog.rewound_append] at whole
              rw [final]
              exact whole
            inside := aside.inside
            redone := aside.redone.frame fun payload member =>
              frame payload (List.mem_append_right _ member)
            redoes := aside.redoes
            shown := aside.shown
            sequence := aside.sequence
            marks := by
              intro kept member
              have found := aside.marks kept member
              rw [List.take_append_of_le_length place] at found
              exact found } }

/-- A mark that is accepted cuts the lane, within the rows. -/
theorem Held.cuts_of_validates
    (valid : stack.validates mark = true) : mark.top ≤ stack.rows.length ∧ ∃ before after,
      Cuts stack.undo.baseChunks stack.undo.baseRecords mark.undo before after
        stack.undo.current := by
  unfold LogicalStack.validates at valid
  rw [Bool.and_eq_true, decide_eq_true_iff] at valid
  exact ⟨valid.1, (validates_iff held.sound).mp valid.2⟩

/-- The candidate of the journal is that of the stack. -/
theorem Held.fork_eq_none :
    (stack.fork = none ↔ lineage.accepted = none) ∧
      (stack.undo.fork = none ↔ lineage.accepted = none) := by
  have forked := held.forked
  unfold Forked at forked
  cases some_ : lineage.accepted with
  | none =>
    rw [some_] at forked
    exact ⟨⟨fun _ => rfl, fun _ => forked.1⟩, ⟨fun _ => rfl, fun _ => forked.2⟩⟩
  | some accepted => ?_
  rw [some_] at forked
  obtain ⟨fork, _, _, _, _, _, _, _, aside⟩ := forked
  rw [aside.top, aside.undoFork]
  constructor
  · constructor <;> exact nofun
  · constructor <;> exact nofun

end

omit [LogicalStackElement α σ] in
theorem unforked_of_not_refused
    (accepts : ¬ (stack.fork.isSome = true ∨ stack.validates mark = false)) :
    stack.fork = none ∧ stack.validates mark = true := by
  simpa using accepts

/-- What the stack shows of rows that a mark remembers. -/
theorem Remembers.shown {before : List α}
    (remembers : Remembers baseRecords (older ++ newer) (rowsAt before) mark seen)
    (final : rowsAt rows = rewound newer (rowsAt before))
    (position : mark.undo.records - baseRecords = older.length) : rows.take mark.top = seen := by
  apply List.ext_getElem?
  intro index
  by_cases inside : index < seen.length
  · have found := remembers.rows index inside
    rw [position, List.drop_left, ← final] at found
    rw [List.getElem?_take_of_lt (by rw [remembers.top]; exact inside)]
    exact found
  rw [List.getElem?_eq_none (Nat.le_of_not_lt inside), List.getElem?_eq_none]
  rw [List.length_take, remembers.top]
  omega

theorem Held.recording_of_issued (held : Held keeps stack lineage entries start floor)
    (issued : mark ∈ lineage.issued) : stack.recording = true := by
  cases recording : stack.recording with
  | true => rfl
  | false =>
    rw [(held.idle recording).2.2.1] at issued
    cases issued

/-- Rewinding a stack to a mark, with a top within the rows. -/
theorem Held.rewound (covers : Covers keeps) (held : Held keeps stack lineage entries start floor)
    (bounded : mark.top ≤ stack.rows.length)
    (cuts : Cuts stack.undo.baseChunks stack.undo.baseRecords mark.undo before after
      stack.undo.current)
    (selected : ∀ fork, stack.undo.fork = some fork → fork.selected.chunks ≤ mark.undo.chunks)
    (recording : stack.recording = true) :
    ∃ undo rows displaced,
      stack.undo.rewindTo mark.undo swap release
        (stack.rows, stack.displaced) = some (undo, rows, displaced) ∧
      Inv keeps
        { stack with undo := undo, rows := rows, displaced := displaced, top := mark.top }.nextInterval
        { lineage with marks := Lineage.upTo lineage.marks mark } ∧
      ∀ seen, (mark, seen) ∈ lineage.marks → rows.take mark.top = seen := by
  obtain ⟨older, newer, slots, rows, displaced, split_, size, ran, length, final, undoes, keys,
    payloads, frame⟩ := held.rewind covers cuts
  refine ⟨_, rows, displaced, ran, ?_, ?_⟩
  · have back := held.back cuts selected split_ size length final undoes keys payloads frame
      bounded recording
    exact ⟨_, _, _, back.next⟩
  intro seen member
  have remembers := (held.marks _ member).2.2.2
  rw [split_] at remembers
  apply remembers.shown final
  rw [cuts.spans.records_eq, size]
  omega

section Restore

variable (covers : Covers keeps)
include covers

/-- Restoring never fails; a refused mark changes nothing. -/
theorem restore_inv (inv : Inv keeps stack lineage) {mark : LogicalStackMark}
    (recording : stack.recording = true) :
    ∃ restored next, stack.restore mark = some (restored, next) ∧
      (restored = false → next = stack) ∧
      (restored = true →
        Inv keeps next { lineage with marks := Lineage.upTo lineage.marks mark }) ∧
      (∀ seen, (mark, seen) ∈ lineage.marks → stack.fork = none →
        restored = true ∧ next.asSlice = seen) := by
  obtain ⟨entries, start, floor, kept⟩ := inv
  unfold LogicalStack.restore
  by_cases refused : stack.fork.isSome = true ∨ stack.validates mark = false
  · rw [if_pos refused]
    refine ⟨false, stack, rfl, fun _ => rfl, nofun, ?_⟩
    intro seen member unforked
    obtain ⟨boundary, _, within, remembers⟩ := kept.marks _ member
    rcases refused with forked | invalid
    · rw [unforked] at forked
      cases forked
    have valid : stack.validates mark = true := by
      unfold LogicalStack.validates
      rw [Bool.and_eq_true, decide_eq_true_iff]
      refine ⟨?_, (validates_iff kept.sound).mpr boundary.cuts⟩
      rw [remembers.top]
      exact Nat.le_trans within kept.floored
    rw [invalid] at valid
    cases valid
  rw [if_neg refused]
  obtain ⟨unforked, valid⟩ := unforked_of_not_refused refused
  have undoUnforked := kept.fork_eq_none.2.mpr (kept.fork_eq_none.1.mp unforked)
  obtain ⟨bounded, before, after, cuts⟩ := kept.cuts_of_validates valid
  have selected : ∀ fork, stack.undo.fork = some fork →
      fork.selected.chunks ≤ mark.undo.chunks := by
    rw [undoUnforked]
    exact nofun
  obtain ⟨undo, rows, displaced, ran, inv, shown⟩ :=
    kept.toHeld.rewound covers bounded cuts selected recording
  have undoValid := (validates_iff kept.sound).mpr ⟨before, after, cuts⟩
  have restoring : stack.undo.restoreWith mark.undo swap release
      (stack.rows, stack.displaced) = some (true, undo, rows, displaced) := by
    unfold restoreWith
    rw [undoUnforked, undoValid, if_neg (by simp), ran]
  rw [restoring]
  refine ⟨true, _, rfl, nofun, fun _ => inv, ?_⟩
  exact fun seen member _ => ⟨rfl, shown seen member⟩

/-- A mark on the lane of the candidate gives back what it saw. -/
theorem restoreCurrent_inv (inv : Inv keeps stack lineage) {mark : LogicalStackMark}
    (recording : stack.recording = true) :
    ∃ restored next, stack.restoreCurrent mark = some (restored, next) ∧
      (restored = false → next = stack) ∧
      (restored = true →
        Inv keeps next { lineage with marks := Lineage.upTo lineage.marks mark }) ∧
      (∀ seen fork, (mark, seen) ∈ lineage.marks → stack.undo.fork = some fork →
        fork.selected.chunks ≤ mark.undo.chunks → restored = true ∧ next.asSlice = seen) := by
  obtain ⟨entries, start, floor, kept⟩ := inv
  unfold LogicalStack.restoreCurrent
  by_cases refused : stack.canRestoreCurrent mark = false
  · rw [if_pos refused]
    refine ⟨false, stack, rfl, fun _ => rfl, nofun, ?_⟩
    intro seen fork member forked ordered
    obtain ⟨boundary, _, within, remembers⟩ := kept.marks _ member
    have allowed : stack.canRestoreCurrent mark = true := by
      obtain ⟨selectedBefore, selectedAfter, selectedCuts⟩ :=
        (kept.sound.forked fork forked).1.cuts
      obtain ⟨before, after, cuts⟩ := boundary.cuts
      obtain ⟨middle, _, _, spans⟩ := cuts_nested cuts selectedCuts ordered
      have records := spans.records_eq
      have stackFork : stack.fork.isSome = true := by
        cases stackFork : stack.fork with
        | some top => rfl
        | none =>
          rw [kept.fork_eq_none.2.mpr (kept.fork_eq_none.1.mp stackFork)] at forked
          cases forked
      unfold LogicalStack.canRestoreCurrent canRestoreCurrent
      rw [forked, stackFork, (validates_iff kept.sound).mpr boundary.cuts]
      have bounded := Nat.le_trans within kept.floored
      have top := remembers.top
      dsimp only at top bounded records
      simp only [Bool.true_and, Bool.and_eq_true, decide_eq_true_eq]
      omega
    rw [refused] at allowed
    cases allowed
  rw [if_neg refused]
  have allowed := (Bool.not_eq_false _).mp refused
  unfold LogicalStack.canRestoreCurrent at allowed
  rw [Bool.and_eq_true, Bool.and_eq_true, decide_eq_true_iff] at allowed
  obtain ⟨⟨_, bounded⟩, undoAllowed⟩ := allowed
  have found := undoAllowed
  unfold canRestoreCurrent at found
  cases forked : stack.undo.fork with
  | none =>
    rw [forked] at found
    cases found
  | some fork => ?_
  rw [forked] at found
  dsimp only at found
  rw [Bool.and_eq_true, Bool.and_eq_true, decide_eq_true_iff] at found
  obtain ⟨before, after, cuts⟩ := (validates_iff kept.sound).mp found.1.1
  have selected : ∀ other, stack.undo.fork = some other →
      other.selected.chunks ≤ mark.undo.chunks := by
    intro other same
    rw [forked] at same
    cases same
    exact found.1.2
  obtain ⟨undo, rows, displaced, ran, inv, shown⟩ :=
    kept.toHeld.rewound covers bounded cuts selected recording
  have restoring : stack.undo.restoreCurrentWith mark.undo swap release
      (stack.rows, stack.displaced) = some (true, undo, rows, displaced) := by
    unfold restoreCurrentWith
    rw [undoAllowed, if_neg (by simp), ran]
  rw [restoring]
  refine ⟨true, _, rfl, nofun, fun _ => inv, ?_⟩
  exact fun seen _ member _ _ => ⟨rfl, shown seen member⟩

end Restore

end Umber.Command
