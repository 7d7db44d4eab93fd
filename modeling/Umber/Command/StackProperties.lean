import Umber.Command.UndoProperties

/-! What a reversible stack keeps: every mark of its lineage remembers the rows it saw, and
a candidate remembers the accepted stack. -/

set_option autoImplicit false

namespace Umber.Command

open PackedJournal

open UndoLog (put rewound Rewinds Redoes)

variable {α σ κ : Type}

/-- All marks that were made, those on the current lineage with what they saw, and while
there is a candidate what was accepted before it with the marks of that lineage. -/
structure Lineage (α : Type) where
  issued : List LogicalStackMark
  marks : List (LogicalStackMark × List α)
  accepted : Option (List α × List (LogicalStackMark × List α))

namespace Lineage

def empty : Lineage α :=
  { issued := [], marks := [], accepted := none }

def mark (lineage : Lineage α) (mark : LogicalStackMark) (seen : List α) : Lineage α :=
  { lineage with
    issued := mark :: lineage.issued
    marks := lineage.marks ++ [(mark, seen)] }

def upTo (marks : List (LogicalStackMark × List α)) (mark : LogicalStackMark) :
    List (LogicalStackMark × List α) :=
  marks.filter fun kept => kept.1.undo.chunks ≤ mark.undo.chunks

def since (marks : List (LogicalStackMark × List α)) (mark : LogicalStackMark) :
    List (LogicalStackMark × List α) :=
  marks.filter fun kept => mark.undo.chunks ≤ kept.1.undo.chunks

end Lineage

structure Remembers (baseRecords : Nat) (entries : List (Nat × α)) (live : Nat → Option α)
    (mark : LogicalStackMark) (seen : List α) : Prop where
  top : mark.top = seen.length
  rows : ∀ index, index < seen.length →
    rewound (entries.drop (mark.undo.records - baseRecords)) live index = seen[index]?

variable [LogicalStackElement α σ]

/-- What is set aside while there is a candidate: the records that redo the accepted rows
from the rows the candidate began with. -/
structure Aside (keeps : α → κ) (undo : PackedJournal (ElementUndo σ)) (acceptedTop : Option Nat)
    (displaced : SlotMap α) (rows : List α) (entries : List (Nat × α))
    (start floor : Nat) (accepted : List α × List (LogicalStackMark × List α))
    (fork : JournalFork) (before after : List (JournalChunk (ElementUndo σ))) (width : Nat)
    (base final : Nat → Option α) (forward backward : List (Nat × α)) : Prop where
  undoFork : undo.fork = some fork
  top : acceptedTop = some accepted.1.length
  cuts : Cuts undo.baseChunks undo.baseRecords fork.selected before after undo.current
  position : (recordsOf before).length ≤ start
  within : width ≤ floor
  rewinds : ∀ index, index < width →
    rewound (entries.drop (recordsOf before).length) (rowsAt rows) index = base index
  inside : ∀ entry ∈ forward, entry.1 < width
  redone : Redone keeps displaced base (recordsOf undo.detached) forward
  redoes : Redoes base forward backward final
  shown : accepted.1.length ≤ width
  sequence : ∀ index, index < accepted.1.length → final index = accepted.1[index]?
  marks : ∀ kept ∈ accepted.2, kept.2.length ≤ width ∧
    (∃ front back, Cuts undo.baseChunks undo.baseRecords kept.1.undo front back
      (before ++ undo.detached)) ∧
    Remembers undo.baseRecords (entries.take (recordsOf before).length ++ backward) final
      kept.1 kept.2

def Forked (keeps : α → κ) (stack : LogicalStack α σ) (lineage : Lineage α)
    (entries : List (Nat × α)) (start floor : Nat) : Prop :=
  match lineage.accepted with
  | none => stack.fork = none ∧ stack.undo.fork = none
  | some accepted => ∃ fork before after width base final forward backward,
      Aside keeps stack.undo stack.fork stack.displaced stack.rows entries start floor accepted
        fork before after width base final forward backward

/-- A stack and its log, where the current interval began at a place in the log and with a
number of rows. -/
structure Held (keeps : α → κ) (stack : LogicalStack α σ) (lineage : Lineage α)
    (entries : List (Nat × α)) (start floor : Nat) : Prop where
  sound : Sound stack.undo
  payloads : stack.displaced.Holds
    (handlesOf (recordsOf stack.undo.current) ++ handlesOf (recordsOf stack.undo.detached))
  bounded : stack.top ≤ stack.rows.length
  touchedLength : stack.touched.length = stack.rows.length
  capturedLength : stack.partiallyCaptured.length = stack.rows.length
  idle : stack.recording = false → stack.top = stack.rows.length ∧ stack.undo.current = [] ∧
    lineage.issued = [] ∧ lineage.marks = [] ∧ lineage.accepted = none
  interval : stack.interval < 18446744073709551616
  stamps : ∀ stamp ∈ stack.touched, stamp ≤ stack.interval
  undoes : Undoes keeps stack.displaced (rowsAt stack.rows) (recordsOf stack.undo.current) entries
  started : start ≤ entries.length
  floored : floor ≤ stack.rows.length
  marks : ∀ kept ∈ lineage.marks, Boundary stack.undo kept.1.undo ∧
    kept.1.undo.records - stack.undo.baseRecords ≤ start ∧ kept.2.length ≤ floor ∧
    Remembers stack.undo.baseRecords entries (rowsAt stack.rows) kept.1 kept.2
  forked : Forked keeps stack lineage entries start floor

/-- Rows stamped with the current interval are in the log of the interval, or newer than
all that can be seen from a mark. -/
structure Kept (keeps : α → κ) (stack : LogicalStack α σ) (lineage : Lineage α)
    (entries : List (Nat × α)) (start floor : Nat) : Prop
    extends Held keeps stack lineage entries start floor where
  fresh : ∀ index, stack.touched[index]? = some stack.interval →
    (∃ entry ∈ entries.drop start, entry.1 = index) ∨ floor ≤ index
  shielded : ∀ index, stack.touched[index]? = some stack.interval →
    stack.partiallyCaptured[index]? ≠ some stack.interval →
    Shielded index (recordsOf stack.undo.current)

def Inv (keeps : α → κ) (stack : LogicalStack α σ) (lineage : Lineage α) : Prop :=
  ∃ entries start floor, Kept keeps stack lineage entries start floor

section Basics

variable {keeps : α → κ} {stack : LogicalStack α σ} {lineage : Lineage α}
  {entries : List (Nat × α)} {start floor : Nat}

theorem SlotMap.holds_empty {β : Type} : (SlotMap.empty : SlotMap β).Holds [] := by
  intro id
  have vacant : (SlotMap.empty : SlotMap β).view id = none := rfl
  rw [vacant]
  rfl

theorem inv_empty (keeps : α → κ) : Inv keeps (.empty : LogicalStack α σ) .empty := by
  refine ⟨[], 0, 0, ⟨?_, ?_, ?_⟩⟩
  · exact
      { sound := sound_empty _
        payloads := SlotMap.holds_empty
        bounded := Nat.le_refl 0
        touchedLength := rfl
        capturedLength := rfl
        idle := fun _ => ⟨rfl, rfl, rfl, rfl, rfl⟩
        interval := (by decide : 1 < 18446744073709551616)
        stamps := nofun
        undoes := .nil
        started := Nat.le_refl 0
        floored := Nat.le_refl 0
        marks := nofun
        forked := ⟨rfl, rfl⟩ }
  · exact fun index _ => .inr (Nat.zero_le index)
  · exact fun _ _ _ => trivial

variable {laterStart laterFloor : Nat}

theorem Aside.later {accepted : List α × List (LogicalStackMark × List α)} {fork : JournalFork}
    {before after : List (JournalChunk (ElementUndo σ))} {width : Nat}
    {base final : Nat → Option α} {forward backward : List (Nat × α)}
    (aside : Aside keeps stack.undo stack.fork stack.displaced stack.rows entries start floor
      accepted fork before after width base final forward backward) (starts : start ≤ laterStart) (floors : floor ≤ laterFloor) :
    Aside keeps stack.undo stack.fork stack.displaced stack.rows entries laterStart laterFloor
      accepted fork before after width base final forward backward :=
  { aside with
    position := Nat.le_trans aside.position starts
    within := Nat.le_trans aside.within floors }

theorem Forked.later
    (forked : Forked keeps stack lineage entries start floor) (starts : start ≤ laterStart)
    (floors : floor ≤ laterFloor) : Forked keeps stack lineage entries laterStart laterFloor := by
  unfold Forked at forked ⊢
  split
  next none_ =>
    rw [none_] at forked
    exact forked
  rename_i accepted some_
  rw [some_] at forked
  obtain ⟨fork, before, after, width, base, final, forward, backward, aside⟩ := forked
  exact ⟨fork, before, after, width, base, final, forward, backward, aside.later starts floors⟩

theorem Held.later
    (held : Held keeps stack lineage entries start floor) (starts : start ≤ laterStart)
    (floors : floor ≤ laterFloor) (started : laterStart ≤ entries.length)
    (floored : laterFloor ≤ stack.rows.length) :
    Held keeps stack lineage entries laterStart laterFloor :=
  { held with
    started := started
    floored := floored
    marks := fun kept member =>
      have ⟨boundary, position, length, remembers⟩ := held.marks kept member
      ⟨boundary, Nat.le_trans position starts, Nat.le_trans length floors, remembers⟩
    forked := held.forked.later starts floors }

omit [LogicalStackElement α σ] in
theorem nextInterval_stale (bound : stack.interval < 18446744073709551616)
    (stamps : ∀ stamp ∈ stack.touched, stamp ≤ stack.interval) :
    stack.nextInterval.interval < 18446744073709551616 ∧
      ∀ stamp ∈ stack.nextInterval.touched, stamp < stack.nextInterval.interval := by
  unfold LogicalStack.nextInterval
  dsimp only
  refine ⟨by omega, ?_⟩
  intro stamp member
  by_cases wraps : stack.interval + 1 = 18446744073709551616
  · rw [if_pos (by omega)] at member
    obtain ⟨_, _, zero⟩ := List.mem_map.mp member
    omega
  have step : (stack.interval + 1) % 18446744073709551616 = stack.interval + 1 :=
    Nat.mod_eq_of_lt (by omega)
  have older : stamp ≤ stack.interval := by
    split at member
    next =>
      obtain ⟨_, _, zero⟩ := List.mem_map.mp member
      omega
    next => exact stamps stamp member
  omega

theorem Held.next (held : Held keeps stack lineage entries start floor) :
    Kept keeps stack.nextInterval lineage entries entries.length stack.rows.length := by
  obtain ⟨bound, stale⟩ := nextInterval_stale held.interval held.stamps
  have now := held.later held.started held.floored (Nat.le_refl _) (Nat.le_refl _)
  refine ⟨?_, ?_, ?_⟩
  · exact
      { sound := now.sound
        payloads := now.payloads
        bounded := now.bounded
        touchedLength := by
          unfold LogicalStack.nextInterval
          dsimp only
          split
          next => exact (List.length_map ..).trans now.touchedLength
          next => exact now.touchedLength
        capturedLength := now.capturedLength
        idle := now.idle
        interval := bound
        stamps := fun stamp member => Nat.le_of_lt (stale stamp member)
        undoes := now.undoes
        started := now.started
        floored := now.floored
        marks := now.marks
        forked := now.forked }
  · intro index stamped
    exact absurd (stale _ (List.mem_of_getElem? stamped)) (Nat.lt_irrefl _)
  intro index stamped
  exact absurd (stale _ (List.mem_of_getElem? stamped)) (Nat.lt_irrefl _)

end Basics

/-! ## Changes of the log that no mark can see -/

/-- A log and its rows changed behind a place in the log, so that nothing shows there. -/
def Unseen (start floor : Nat) (entries : List (Nat × α)) (rows : List α)
    (grown : List (Nat × α)) (changed : List α) : Prop :=
  ∀ position, position ≤ start → grown.take position = entries.take position ∧
    ∀ index, index < floor →
      rewound (grown.drop position) (rowsAt changed) index =
        rewound (entries.drop position) (rowsAt rows) index

section Changes

variable {keeps : α → κ} {stack changed : LogicalStack α σ} {lineage : Lineage α}
  {entries grown : List (Nat × α)} {start floor : Nat} {rows : List α}

omit [LogicalStackElement α σ] in
/-- A row that was stamped in this interval is written. -/
theorem unseen_write {index : Nat} {old : α} (found : rows[index]? = some old) (value : α)
    (fresh : (∃ entry ∈ entries.drop start, entry.1 = index) ∨ floor ≤ index) :
    Unseen start floor entries rows entries (rows.set index value) := by
  intro position before
  refine ⟨rfl, ?_⟩
  intro other inside
  rw [rowsAt_set found]
  rcases fresh with ⟨entry, member, same⟩ | beyond
  · have named : ∃ entry ∈ entries.drop position, entry.1 = index :=
      ⟨entry, (List.drop_sublist_drop_left entries before).subset member, same⟩
    rw [UndoLog.rewound_put_named named]
  · exact UndoLog.rewound_put_other _ _ _ (by omega)

omit [LogicalStackElement α σ] in
theorem unseen_displace {index : Nat} {old : α} (started : start ≤ entries.length)
    (found : rows[index]? = some old) (value : α) :
    Unseen start floor entries rows (entries ++ [(index, old)]) (rows.set index value) := by
  intro position before
  have inside : position ≤ entries.length := Nat.le_trans before started
  refine ⟨List.take_append_of_le_length inside, ?_⟩
  intro other _
  rw [List.drop_append_of_le_length inside, rowsAt_set found,
    UndoLog.rewound_concat_put _ (show rowsAt rows index = some old from found)]

omit [LogicalStackElement α σ] in
theorem unseen_push (floored : floor ≤ rows.length) (value : α) :
    Unseen start floor entries rows entries (rows ++ [value]) := by
  intro position _
  refine ⟨rfl, ?_⟩
  intro index inside
  apply UndoLog.rewound_congr
  unfold rowsAt
  rw [List.getElem?_append_left (Nat.lt_of_lt_of_le inside floored)]

omit [LogicalStackElement α σ] in
theorem Remembers.unseen {baseRecords : Nat} {mark : LogicalStackMark} {seen changedRows : List α}
    (remembers : Remembers baseRecords entries (rowsAt rows) mark seen)
    (unseen : Unseen start floor entries rows grown changedRows)
    (position : mark.undo.records - baseRecords ≤ start) (within : seen.length ≤ floor) :
    Remembers baseRecords grown (rowsAt changedRows) mark seen := by
  refine ⟨remembers.top, fun index inside => ?_⟩
  rw [(unseen _ position).2 index (Nat.lt_of_lt_of_le inside within)]
  exact remembers.rows index inside

/-- A candidate is unchanged while its own lane grows. -/
theorem Forked.unseen (forked : Forked keeps stack lineage entries start floor)
    (unseen : Unseen start floor entries stack.rows grown changed.rows)
    (sameFork : changed.fork = stack.fork) (sameUndoFork : changed.undo.fork = stack.undo.fork)
    (sameDetached : changed.undo.detached = stack.undo.detached)
    (sameChunks : changed.undo.baseChunks = stack.undo.baseChunks)
    (sameRecords : changed.undo.baseRecords = stack.undo.baseRecords)
    (cuts : ∀ fork before after, stack.undo.fork = some fork →
      Cuts stack.undo.baseChunks stack.undo.baseRecords fork.selected before after
        stack.undo.current →
      ∃ later, Cuts stack.undo.baseChunks stack.undo.baseRecords fork.selected before later
        changed.undo.current) (frame : ∀ payload ∈ handlesOf (recordsOf stack.undo.detached),
      changed.displaced.view payload = stack.displaced.view payload) :
    Forked keeps changed lineage grown start floor := by
  unfold Forked at forked ⊢
  cases some_ : lineage.accepted with
  | none =>
    rw [some_] at forked
    exact ⟨sameFork.trans forked.1, sameUndoFork.trans forked.2⟩
  | some accepted => ?_
  rw [some_] at forked
  obtain ⟨fork, before, after, width, base, final, forward, backward, aside⟩ := forked
  obtain ⟨later, cut⟩ := cuts fork before after aside.undoFork aside.cuts
  refine ⟨fork, before, later, width, base, final, forward, backward, ?_⟩
  exact
    { undoFork := sameUndoFork.trans aside.undoFork
      top := sameFork.trans aside.top
      cuts := by
        rw [sameChunks, sameRecords]
        exact cut
      position := aside.position
      within := aside.within
      rewinds := by
        intro index inside
        rw [(unseen _ aside.position).2 index (Nat.lt_of_lt_of_le inside aside.within)]
        exact aside.rewinds index inside
      inside := aside.inside
      redone := by
        rw [sameDetached]
        exact aside.redone.frame frame
      redoes := aside.redoes
      shown := aside.shown
      sequence := aside.sequence
      marks := by
        intro kept member
        rw [sameChunks, sameRecords, sameDetached, (unseen _ aside.position).1]
        exact aside.marks kept member }

/-- A row stamped in this interval is written, and nothing is recorded. -/
theorem Kept.write (kept : Kept keeps stack lineage entries start floor) {index : Nat}
    {old : α} (found : stack.rows[index]? = some old) (value : α) {captured : List Nat} {top : Nat}
    (recording : stack.recording = true) (stamped : stack.touched[index]? = some stack.interval)
    (undoes : Undoes keeps stack.displaced (rowsAt (stack.rows.set index value))
      (recordsOf stack.undo.current) entries)
    (length : captured.length = stack.partiallyCaptured.length)
    (shielded : ∀ other, stack.touched[other]? = some stack.interval →
      captured[other]? ≠ some stack.interval → Shielded other (recordsOf stack.undo.current))
    (bounded : top ≤ stack.rows.length) :
    Kept keeps
      { stack with
        rows := stack.rows.set index value
        partiallyCaptured := captured
        top := top }
      lineage entries start floor := by
  have unseen := unseen_write found value (kept.fresh index stamped)
  refine ⟨?_, kept.fresh, shielded⟩
  exact
    { sound := kept.sound
      payloads := kept.payloads
      bounded := by
        rw [List.length_set]
        exact bounded
      touchedLength := by
        rw [List.length_set]
        exact kept.touchedLength
      capturedLength := by
        rw [List.length_set, length]
        exact kept.capturedLength
      idle := fun idle => absurd (recording.symm.trans idle) (by decide)
      interval := kept.interval
      stamps := kept.stamps
      undoes := undoes
      started := kept.started
      floored := by
        rw [List.length_set]
        exact kept.floored
      marks := by
        intro held member
        obtain ⟨boundary, position, within, remembers⟩ := kept.marks held member
        exact ⟨boundary, position, within, remembers.unseen unseen position within⟩
      forked := by
        refine kept.forked.unseen unseen rfl rfl rfl rfl rfl ?_ fun _ _ => rfl
        exact fun _ _ after _ cuts => ⟨after, cuts⟩ }

theorem Kept.displace (kept : Kept keeps stack lineage entries start floor)
    {record : ElementUndo σ} {old value : α} {displaced : SlotMap α} {stamp top : Nat}
    (found : stack.rows[record.index]? = some old) (recording : stack.recording = true)
    (stands : Stands keeps displaced value record (record.index, old))
    (frame : ∀ payload, (stack.displaced.view payload).isSome = true →
      displaced.view payload = stack.displaced.view payload)
    (payloads : ∀ names, stack.displaced.Holds names →
      displaced.Holds (handlesOf [record] ++ names))
    (shields : record.payload? = none → stamp = stack.interval)
    (bounded : top ≤ stack.rows.length) :
    Kept keeps
      { stack with
        rows := stack.rows.set record.index value
        touched := stack.touched.set record.index stack.interval
        partiallyCaptured := stack.partiallyCaptured.set record.index stamp
        undo := stack.undo.append record
        displaced := displaced
        top := top }
      lineage (entries ++ [(record.index, old)]) start floor := by
  have unseen := @unseen_displace _ _ _ floor _ _ _ kept.started found value
  have liveCurrent : ∀ payload ∈ handlesOf (recordsOf stack.undo.current),
      displaced.view payload = stack.displaced.view payload :=
    fun payload member => frame payload (kept.payloads.live (List.mem_append_left _ member))
  have liveDetached : ∀ payload ∈ handlesOf (recordsOf stack.undo.detached),
      displaced.view payload = stack.displaced.view payload :=
    fun payload member => frame payload (kept.payloads.live (List.mem_append_right _ member))
  have inside := (List.getElem?_eq_some_iff.mp found).1
  have live := rowsAt_set found value
  refine ⟨?_, ?_, ?_⟩
  · exact
      { sound := append_sound kept.sound record
        payloads := by
          refine (payloads _ kept.payloads).perm ?_
          rw [recordsOf_append_current, append_detached, handlesOf_append, ← List.append_assoc]
          exact List.Perm.append_right _ List.perm_append_comm
        bounded := by
          rw [List.length_set]
          exact bounded
        touchedLength := by
          rw [List.length_set, List.length_set]
          exact kept.touchedLength
        capturedLength := by
          rw [List.length_set, List.length_set]
          exact kept.capturedLength
        idle := fun idle => absurd (recording.symm.trans idle) (by decide)
        interval := kept.interval
        stamps := by
          intro other member
          rcases List.mem_or_eq_of_mem_set member with earlier | rfl
          · exact kept.stamps other earlier
          · exact Nat.le_refl _
        undoes := by
          rw [recordsOf_append_current, live]
          refine Undoes.append ?_ ?_
          · rw [UndoLog.rewound_cons, UndoLog.rewound_nil,
              UndoLog.put_put_self (show rowsAt stack.rows record.index = some old from found)]
            exact kept.undoes.frame liveCurrent
          · exact .cons .nil (UndoLog.put_same ..) stands
        started := by
          rw [List.length_append]
          exact Nat.le_trans kept.started (Nat.le_add_right _ _)
        floored := by
          rw [List.length_set]
          exact kept.floored
        marks := by
          intro held member
          obtain ⟨boundary, position, within, remembers⟩ := kept.marks held member
          rw [append_baseRecords]
          exact ⟨append_boundary kept.sound boundary record, position, within,
            remembers.unseen unseen position within⟩
        forked := by
          refine kept.forked.unseen unseen rfl (append_fork ..)
            (append_detached ..) (append_baseChunks ..)
            (append_baseRecords ..) ?_ liveDetached
          intro fork before after forked cuts
          have closed := (kept.sound.forked fork forked).1.closed
          exact (append_cuts kept.sound cuts closed record).1 }
  · intro index stamped
    by_cases same : record.index = index
    · left
      refine ⟨(record.index, old), ?_, same⟩
      rw [List.drop_append_of_le_length kept.started]
      exact List.mem_append_right _ List.mem_cons_self
    dsimp only at stamped
    rw [List.getElem?_set_ne same] at stamped
    rcases kept.fresh index stamped with ⟨entry, member, named⟩ | beyond
    · left
      refine ⟨entry, ?_, named⟩
      rw [List.drop_append_of_le_length kept.started]
      exact List.mem_append_left _ member
    · exact .inr beyond
  intro index stamped uncaptured
  dsimp only at stamped uncaptured
  rw [recordsOf_append_current]
  by_cases same : record.index = index
  · cases record with
    | inlineState cell state =>
      rw [← same, List.getElem?_set_self (by rw [kept.capturedLength]; exact inside),
        shields rfl] at uncaptured
      exact absurd rfl uncaptured
    | replacement cell payload =>
      rw [← same]
      exact shielded_concat_replacement _ _ _
  rw [List.getElem?_set_ne same] at stamped uncaptured
  exact (kept.shielded index stamped uncaptured).concat same

end Changes

/-! ## Pushing, popping and writing -/

section Operations

variable {keeps : α → κ} {stack : LogicalStack α σ} {lineage : Lineage α}
  {entries : List (Nat × α)} {start floor : Nat}

section

variable (kept : Kept keeps stack lineage entries start floor)
include kept

/-- Before the first mark the rows may be changed in any way. -/
theorem Kept.rebuild (idle : stack.recording = false) (rows : List α) (touched captured : List Nat)
    (touchedLength : touched.length = rows.length) (capturedLength : captured.length = rows.length)
    (stamps : ∀ stamp ∈ touched, stamp ≤ stack.interval) :
    Inv keeps
      { stack with
        rows := rows
        touched := touched
        partiallyCaptured := captured
        top := rows.length }
      lineage := by
  obtain ⟨_, none_, issued, marks, accepted⟩ := kept.idle idle
  refine ⟨[], 0, 0, ⟨?_, fun index _ => .inr (Nat.zero_le index), ?_⟩⟩
  · exact
      { sound := kept.sound
        payloads := kept.payloads
        bounded := Nat.le_refl _
        touchedLength := touchedLength
        capturedLength := capturedLength
        idle := fun _ => ⟨rfl, none_, issued, marks, accepted⟩
        interval := kept.interval
        stamps := stamps
        undoes := by
          dsimp only
          rw [none_]
          exact .nil
        started := Nat.le_refl 0
        floored := Nat.zero_le _
        marks := by
          rw [marks]
          exact nofun
        forked := by
          have forked := kept.forked
          unfold Forked at forked ⊢
          rw [accepted] at forked ⊢
          exact forked }
  intro index _ _
  dsimp only
  rw [none_]
  exact trivial

theorem Kept.unnamed {index : Nat} (beyond : stack.rows.length ≤ index) :
    ∀ record ∈ recordsOf stack.undo.current, record.index ≠ index := by
  intro record member same
  have mapped := List.mem_map_of_mem (f := ElementUndo.index) member
  rw [kept.undoes.indexes] at mapped
  obtain ⟨entry, entryMember, entrySame⟩ := List.mem_map.mp mapped
  have inside := kept.undoes.inside entry entryMember
  omega

theorem Kept.grow (value : α) (full : stack.top = stack.rows.length) :
    Kept keeps
      { stack with
        rows := stack.rows ++ [value]
        touched := stack.touched ++ [stack.interval]
        partiallyCaptured := stack.partiallyCaptured ++ [0]
        top := stack.top + 1 }
      lineage entries start floor := by
  have unseen := @unseen_push _ entries start floor _ kept.floored value
  refine ⟨?_, ?_, ?_⟩
  · exact
      { sound := kept.sound
        payloads := kept.payloads
        bounded := by
          have exact_ : stack.top + 1 = (stack.rows ++ [value]).length := by
            rw [List.length_append, List.length_singleton, full]
          exact Nat.le_of_eq exact_
        touchedLength := by
          rw [List.length_append, List.length_append, kept.touchedLength]
          rfl
        capturedLength := by
          rw [List.length_append, List.length_append, kept.capturedLength]
          rfl
        idle := by
          intro idle
          refine ⟨?_, (kept.idle idle).2⟩
          rw [List.length_append, List.length_singleton, full]
        interval := kept.interval
        stamps := by
          intro stamp member
          rcases List.mem_append.mp member with earlier | here
          · exact kept.stamps stamp earlier
          · exact Nat.le_of_eq (List.mem_singleton.mp here)
        undoes := by
          refine kept.undoes.mono fun cell row found => ?_
          have inside : cell < stack.rows.length := (List.getElem?_eq_some_iff.mp found).1
          unfold rowsAt at found ⊢
          rw [List.getElem?_append_left inside, found]
        started := kept.started
        floored := by
          rw [List.length_append]
          exact Nat.le_trans kept.floored (Nat.le_add_right _ _)
        marks := by
          intro held member
          obtain ⟨boundary, position, within, remembers⟩ := kept.marks held member
          exact ⟨boundary, position, within, remembers.unseen unseen position within⟩
        forked := by
          refine kept.forked.unseen unseen rfl rfl rfl rfl rfl ?_ fun _ _ => rfl
          exact fun _ _ after _ cuts => ⟨after, cuts⟩ }
  · intro index stamped
    dsimp only at stamped
    rcases Nat.lt_or_ge index stack.rows.length with inside | beyond
    · rw [List.getElem?_append_left (by rw [kept.touchedLength]; exact inside)] at stamped
      exact kept.fresh index stamped
    · exact .inr (Nat.le_trans kept.floored beyond)
  intro index stamped uncaptured
  dsimp only at stamped uncaptured
  rcases Nat.lt_or_ge index stack.rows.length with inside | beyond
  · rw [List.getElem?_append_left (by rw [kept.touchedLength]; exact inside)] at stamped
    rw [List.getElem?_append_left (by rw [kept.capturedLength]; exact inside)] at uncaptured
    exact kept.shielded index stamped uncaptured
  · exact shielded_of_unnamed (kept.unnamed beyond)

end

theorem push_inv (inv : Inv keeps stack lineage) (value : α) :
    Inv keeps (stack.push value) lineage := by
  obtain ⟨entries, start, floor, kept⟩ := inv
  unfold LogicalStack.push
  by_cases full : stack.top = stack.rows.length
  · rw [if_pos full]
    exact ⟨entries, start, floor, kept.grow value full⟩
  rw [if_neg full]
  have inside : stack.top < stack.rows.length := Nat.lt_of_le_of_ne kept.bounded full
  have found : stack.rows[stack.top]? = some stack.rows[stack.top] :=
    List.getElem?_eq_getElem inside
  have recording : stack.recording = true := by
    cases recording : stack.recording with
    | true => rfl
    | false => exact absurd (kept.idle recording).1 full
  dsimp only
  cases displaces : stack.displacesTop with
  | true =>
    rw [found]
    refine ⟨entries ++ [(stack.top, stack.rows[stack.top])], start, floor, ?_⟩
    refine @Kept.displace α σ κ _ keeps stack lineage entries start floor kept
      (.replacement stack.top stack.displaced.nextId) _ value _ 0 _ found recording
      ⟨rfl, SlotMap.view_insert_self ..⟩ ?_ ?_ nofun inside
    · intro payload live
      apply SlotMap.view_insert_of_ne
      rintro rfl
      rw [SlotMap.view_nextId] at live
      cases live
    · exact fun names holds => holds.insert _
  | false => ?_
  unfold LogicalStack.displacesTop at displaces
  rw [recording, Bool.true_and, Bool.or_eq_false_iff, decide_eq_false_iff_not,
    decide_eq_false_iff_not, Decidable.not_not] at displaces
  obtain ⟨stamped, uncaptured⟩ := displaces
  have sameTouched : stack.touched.set stack.top stack.interval = stack.touched := by
    apply List.ext_getElem?
    intro index
    by_cases same : stack.top = index
    · rw [← same, List.getElem?_set_self (by rw [kept.touchedLength]; exact inside), stamped]
    · rw [List.getElem?_set_ne same]
  dsimp only
  rw [sameTouched]
  refine ⟨entries, start, floor, kept.write found value recording stamped ?_
    (List.length_set ..) ?_ inside⟩
  · rw [rowsAt_set found]
    exact kept.undoes.overwrite (kept.shielded _ stamped uncaptured)
  intro other stampedOther uncapturedOther
  by_cases same : stack.top = other
  · exact same ▸ kept.shielded _ stamped uncaptured
  rw [List.getElem?_set_ne same] at uncapturedOther
  exact kept.shielded other stampedOther uncapturedOther

/-- While the stack records, only its top changes. -/
theorem Kept.lower (kept : Kept keeps stack lineage entries start floor)
    (recording : stack.recording = true) {top : Nat} (bounded : top ≤ stack.rows.length) :
    Kept keeps { stack with top := top } lineage entries start floor :=
  { kept with
    bounded := bounded
    idle := fun idle => absurd (recording.symm.trans idle) (by decide) }

section

variable (inv : Inv keeps stack lineage)
include inv

theorem popProject_inv : Inv keeps stack.popProject.2 lineage := by
  obtain ⟨entries, start, floor, kept⟩ := inv
  unfold LogicalStack.popProject
  cases top : stack.top with
  | zero => exact ⟨entries, start, floor, kept⟩
  | succ top_ => ?_
  have bounded := kept.bounded
  dsimp only
  by_cases recording : stack.recording = true
  · rw [if_pos recording]
    exact ⟨entries, start, floor, kept.lower recording (by omega)⟩
  rw [if_neg recording]
  have idle := Bool.eq_false_iff.mpr recording
  have full := (kept.idle idle).1
  have size : top_ = stack.rows.dropLast.length := by
    rw [List.length_dropLast]
    omega
  rw [size]
  refine kept.rebuild idle _ _ _ ?_ ?_ ?_
  · rw [List.length_dropLast, List.length_dropLast, kept.touchedLength]
  · rw [List.length_dropLast, List.length_dropLast, kept.capturedLength]
  · exact fun stamp member => kept.stamps stamp ((List.dropLast_sublist _).subset member)

theorem truncateTop_inv (top : Nat) : Inv keeps (stack.truncateTop top).2 lineage := by
  obtain ⟨entries, start, floor, kept⟩ := inv
  unfold LogicalStack.truncateTop
  by_cases above : stack.top < top
  · rw [if_pos above]
    exact ⟨entries, start, floor, kept⟩
  rw [if_neg above]
  have bounded := kept.bounded
  dsimp only
  by_cases recording : stack.recording = true
  · rw [if_pos recording]
    exact ⟨entries, start, floor, kept.lower recording (by omega)⟩
  rw [if_neg recording]
  have idle := Bool.eq_false_iff.mpr recording
  have full := (kept.idle idle).1
  have size : top = (stack.rows.take top).length := by
    rw [List.length_take]
    omega
  have rebuilt := kept.rebuild idle (stack.rows.take top) (stack.touched.take top)
    (stack.partiallyCaptured.take top)
    (by rw [List.length_take, List.length_take, kept.touchedLength])
    (by rw [List.length_take, List.length_take, kept.capturedLength])
    (fun stamp member => kept.stamps stamp (List.mem_of_mem_take member))
  rw [← size] at rebuilt
  exact rebuilt

/-- A row is written in place, where the part that is not captured stays. -/
theorem indexMut_inv {index : Nat} {old value : α}
    (found : stack.rows[index]? = some old) (same : keeps value = keeps old) :
    Inv keeps (stack.indexMut index value) lineage := by
  obtain ⟨entries, start, floor, kept⟩ := inv
  unfold LogicalStack.indexMut LogicalStack.record
  by_cases idle : stack.recording = false
  · rw [if_pos (.inl idle)]
    have full := (kept.idle idle).1
    have rebuilt := kept.rebuild idle (stack.rows.set index value) stack.touched
      stack.partiallyCaptured (by rw [List.length_set, kept.touchedLength])
      (by rw [List.length_set, kept.capturedLength]) kept.stamps
    rw [List.length_set, ← full] at rebuilt
    exact rebuilt
  have recording := (Bool.not_eq_false _).mp idle
  by_cases stamped : stack.touched[index]? = some stack.interval
  · rw [if_pos (.inr stamped)]
    refine ⟨entries, start, floor, ?_⟩
    refine kept.write found value recording stamped ?_ rfl kept.shielded kept.bounded
    rw [rowsAt_set found]
    exact kept.undoes.mutate (show rowsAt stack.rows index = some old from found) same
  rw [if_neg (fun either => either.elim idle stamped), found]
  refine ⟨entries ++ [(index, old)], start, floor, ?_⟩
  exact @Kept.displace α σ κ _ keeps stack lineage entries start floor kept
    (.inlineState index (captureState old)) old value stack.displaced stack.interval
    stack.top found recording ⟨rfl, rfl, same.symm⟩ (fun _ _ => rfl)
    (fun _ holds => holds) (fun _ => rfl) kept.bounded

end

omit [LogicalStackElement α σ] in
theorem unseen_refl (rows : List α) : Unseen start floor entries rows entries rows :=
  fun _ _ => ⟨rfl, fun _ _ => rfl⟩

theorem Held.position (held : Held keeps stack lineage entries start floor) :
    stack.undo.records - stack.undo.baseRecords = entries.length := by
  rw [held.sound.spans.records_eq, held.undoes.length]
  omega

theorem mark_inv (inv : Inv keeps stack lineage) :
    Inv keeps stack.mark.2
      (match stack.mark.1 with
      | none => lineage
      | some mark => lineage.mark mark stack.asSlice) := by
  obtain ⟨entries, start, floor, kept⟩ := inv
  unfold LogicalStack.mark
  by_cases fits : stack.top < 4294967296
  · rw [if_pos fits]
    dsimp only
    have shown : stack.asSlice.length = stack.top := by
      unfold LogicalStack.asSlice
      rw [List.length_take, Nat.min_eq_left kept.bounded]
    refine ⟨entries, entries.length, stack.rows.length,
      @Held.next _ _ _ _ _ _ _ _ entries.length stack.rows.length ?_⟩
    have now := kept.later kept.started kept.floored (Nat.le_refl _) (Nat.le_refl _)
    exact
      { now with
        sound := mark_sound kept.sound
        idle := nofun
        marks := by
          intro held member
          rcases List.mem_append.mp member with earlier | here
          · obtain ⟨boundary, position, within, remembers⟩ := now.marks held earlier
            exact ⟨mark_boundary boundary, position, within, remembers⟩
          cases List.mem_singleton.mp here
          refine ⟨mark_new kept.sound, Nat.le_of_eq kept.position, ?_, shown.symm, ?_⟩
          · rw [shown]
            exact kept.bounded
          intro index inside
          show rewound (entries.drop (stack.undo.records - stack.undo.baseRecords)) _ index = _
          rw [kept.position, List.drop_length, UndoLog.rewound_nil]
          unfold LogicalStack.asSlice rowsAt
          rw [List.getElem?_take_of_lt (shown ▸ inside)]
        forked := by
          refine now.forked.unseen (unseen_refl _) rfl rfl rfl rfl rfl ?_ fun _ _ => rfl
          exact fun _ _ after _ cuts => ⟨after, cuts⟩ }
  rw [if_neg fits]
  exact ⟨entries, start, floor, { kept with idle := nofun }⟩

end Operations

end Umber.Command
