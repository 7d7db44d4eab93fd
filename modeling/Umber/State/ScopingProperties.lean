import Umber.State.DenseProperties

/-! The save records of the open groups carry every frame of the reference. -/

set_option autoImplicit false

namespace Umber.State

open ExceptLib

/-! ## A stack of environments -/

abbrev Environment (R : References) := StateCell → Option (StateWord R)

namespace Environment

variable {R : References}

/-- A local assignment changes the innermost frame, a global one every frame. -/
def assign (scope : AssignmentScope) (cell : StateCell) (value : StateWord R)
    (frames : List (Environment R)) : List (Environment R) :=
  match scope, frames with
  | .local, environment :: outer => setAt environment cell (some value) :: outer
  | .local, [] => []
  | .global, frames => frames.map fun environment => setAt environment cell (some value)

def extend (grown environment : Environment R) : Environment R :=
  fun cell => match environment cell with
    | some value => some value
    | none => grown cell

end Environment

namespace DenseState

variable {R : References}

def environment (state : DenseState R) : Environment R :=
  fun cell => (state.banks.contents cell).map (·.value)

structure Settled (state : DenseState R) : Prop where
  groups : state.groups = []
  sequence : state.journal.activeSequence = []
  marks : state.journal.activeGroups = []
  global : ∀ cell content, state.banks.contents cell = some content → content.level ≤ levelOne

inductive Scoped (assignable : StateCell → Prop) :
    DenseState R → List (Environment R) → Prop
  | start {state : DenseState R} :
      state.Settled → Scoped assignable state [state.environment]
  | assign {state next : DenseState R} {frames : List (Environment R)} {cell : StateCell}
      {value : StateWord R} {scope : AssignmentScope} :
      Scoped assignable state frames → assignable cell →
        state.assign cell value scope = .ok next →
        Scoped assignable next (Environment.assign scope cell value frames)
  | grow {state next : DenseState R} {frames : List (Environment R)} :
      Scoped assignable state frames → Grows state next →
        Scoped assignable next (frames.map (Environment.extend next.environment))
  | beginGroup {state next : DenseState R} {environment : Environment R}
      {outer : List (Environment R)} {kind : GroupKind} {line : Nat} :
      Scoped assignable state (environment :: outer) → state.beginGroup kind line = .ok next →
        Scoped assignable next (environment :: environment :: outer)
  | endGroup {state next : DenseState R} {environment : Environment R}
      {outer : List (Environment R)} {kind : GroupKind} {boxes : BoxUnsave} :
      Scoped assignable state (environment :: outer) → state.endGroup kind boxes = .ok next →
        Scoped assignable next outer

end DenseState

variable {R : References}

/-! ## Restoring one record -/

def restored (current : StateWord R × Nat) (saved : Mutation R) : StateWord R × Nat :=
  if current.2 = levelOne then current else (saved.before, saved.beforeLevel)

def BankCell.levelled (content : BankCell (StateWord R)) : StateWord R × Nat :=
  (content.value, content.level)

def savesOf (cell : StateCell) (saves : List (Mutation R)) : List (Mutation R) :=
  saves.filter fun saved => saved.cell = cell

namespace DenseState

def levelled (state : DenseState R) (cell : StateCell) : Option (StateWord R × Nat) :=
  (state.banks.contents cell).map BankCell.levelled

def Ready (state : DenseState R) (saved : Mutation R) : Prop :=
  (∃ content, state.banks.contents saved.cell = some content) ∧
    wordFits saved.cell saved.before = true

structure Unwinds (state : DenseState R) (order : List (Mutation R)) (next : DenseState R) :
    Prop where
  groups : next.groups = state.groups
  sequence : next.journal.activeSequence = state.journal.activeSequence
  marks : next.journal.activeGroups = state.journal.activeGroups
  exist : ∀ cell, (next.banks.contents cell).isSome = (state.banks.contents cell).isSome
  values : ∀ cell, next.levelled cell =
    (state.levelled cell).map fun current => (savesOf cell order).foldl restored current

theorem Unwinds.refl (state : DenseState R) : Unwinds state [] state :=
  ⟨rfl, rfl, rfl, fun _ => rfl, fun cell => by simp [savesOf]⟩

theorem Unwinds.trans {state between next : DenseState R} {order later : List (Mutation R)}
    (first : Unwinds state order between) (second : Unwinds between later next) :
    Unwinds state (order ++ later) next := by
  refine ⟨second.groups.trans first.groups, second.sequence.trans first.sequence,
    second.marks.trans first.marks, fun cell => (second.exist cell).trans (first.exist cell),
    fun cell => ?_⟩
  rw [second.values, first.values]
  simp only [savesOf, List.filter_append, List.foldl_append, Option.map_map]
  rfl

variable {saved : Mutation R}

theorem Unwinds.ready {state next : DenseState R} {order : List (Mutation R)}
    (unwinds : Unwinds state order next) (ready : state.Ready saved) : next.Ready saved := by
  obtain ⟨⟨content, found⟩, fits⟩ := ready
  have exist := unwinds.exist saved.cell
  rw [found] at exist
  exact ⟨Option.isSome_iff_exists.mp exist, fits⟩

theorem restoreGroupMutation_unwinds {state : DenseState R} (ready : state.Ready saved) :
    ∃ next, state.restoreGroupMutation saved = .ok next ∧ Unwinds state [saved] next := by
  obtain ⟨⟨current, found⟩, fits⟩ := ready
  have reading := Banks.contents_eq_some.mp found
  unfold restoreGroupMutation readCell
  rw [reading, ok_bind]
  by_cases global : current.level = levelOne
  · refine ⟨state, by rw [if_pos global]; rfl, rfl, rfl, rfl, fun _ => rfl, fun cell => ?_⟩
    by_cases same : saved.cell = cell
    · subst same
      simp [levelled, found, savesOf, restored, BankCell.levelled, global]
    · simp [savesOf, same]
  obtain ⟨banks, writing, _⟩ := Banks.writeCell_of_read reading
    (show wordFits saved.cell
      (({ value := saved.before, level := saved.beforeLevel, saveSerial := state.journal.saveSerial } :
        BankCell (StateWord R)).value) = true from fits)
  have written := (Banks.writeCell_written writing).contents
  refine ⟨({ state with banks } : DenseState R).recordMutation (.new saved.cell current none),
    by rw [if_neg global, writeCell, writing]; rfl, rfl, ?_, ?_, fun cell => ?_, fun cell => ?_⟩
  · exact (SaveJournal.recordMutation_unsaved _ _ rfl).1
  · exact (SaveJournal.recordMutation_unsaved _ _ rfl).2
  · change (banks.contents cell).isSome = _
    rw [written]
    by_cases same : cell = saved.cell
    · subst same
      rw [setAt_same, found]
      rfl
    · rw [setAt_other _ _ same]
  change (banks.contents cell).map BankCell.levelled = _
  rw [written]
  by_cases same : cell = saved.cell
  · subst same
    rw [setAt_same]
    simp [levelled, found, savesOf, restored, BankCell.levelled, global]
  have unsaved : savesOf cell [saved] = [] := by simp [savesOf, Ne.symm same]
  rw [setAt_other _ _ same, unsaved]
  simp only [List.foldl_nil, Option.map_id']
  rfl

/-! ## Unwinding a group -/

theorem restoreSparse_unwinds {state : DenseState R} (boxes : BoxUnsave)
    {sparse : List (Nat × Mutation R)} (ready : ∀ pair ∈ sparse, state.Ready pair.2) :
    ∃ next boxes', restoreSparse state boxes sparse = .ok (next, boxes') ∧
      Unwinds state (sparse.map (·.2)) next := by
  induction sparse generalizing state boxes with
  | nil => exact ⟨state, _, rfl, .refl state⟩
  | cons pair later ih => ?_
  obtain ⟨index, saved⟩ := pair
  obtain ⟨between, restoring, first⟩ :=
    restoreGroupMutation_unwinds (ready (index, saved) List.mem_cons_self)
  obtain ⟨next, boxes', rest, second⟩ := ih
    { boxes with sparse := boxes.sparse.dropWhile (scalarKey index < ·) }
    (fun pair member => first.ready (ready pair (List.mem_cons_of_mem _ member)))
  refine ⟨next, boxes', ?_, first.trans second⟩
  simp only [restoreSparse, restoring, ok_bind]
  exact rest

def Flushes (unwind later : Unwind R) : Prop :=
  ∃ order, Unwinds unwind.state order later.state ∧
    order ++ later.sparse.map (·.2) = unwind.sparse.map (·.2) ∧
    ∀ pair ∈ later.sparse, pair ∈ unwind.sparse

theorem Flushes.refl (unwind : Unwind R) : Flushes unwind unwind :=
  ⟨[], .refl _, rfl, fun _ member => member⟩

theorem Flushes.trans {first second third : Unwind R} (before : Flushes first second)
    (behind : Flushes second third) : Flushes first third := by
  obtain ⟨order, unwinds, deferred, kept⟩ := before
  obtain ⟨later, unwinding, remaining, keeping⟩ := behind
  refine ⟨order ++ later, unwinds.trans unwinding, ?_, fun pair member => kept _ (keeping _ member)⟩
  rw [List.append_assoc, remaining, deferred]

variable {unwind later : Unwind R}

theorem Flushes.ready (flushes : Flushes unwind later) (ready : unwind.state.Ready saved) :
    later.state.Ready saved := by
  obtain ⟨order, unwinds, _⟩ := flushes
  exact unwinds.ready ready

theorem Unwind.restoreSparse_flushes (ready : ∀ pair ∈ unwind.sparse, unwind.state.Ready pair.2) :
    ∃ later, unwind.restoreSparse = .ok later ∧ Flushes unwind later ∧ later.sparse = [] := by
  obtain ⟨next, boxes, restoring, unwinds⟩ := restoreSparse_unwinds unwind.boxes ready
  refine ⟨{ state := next, boxes, boundary := none, sparse := [] }, ?_, ⟨_, unwinds, ?_, ?_⟩, rfl⟩
  · rw [Unwind.restoreSparse, restoring, ok_bind]
    rfl
  · simp
  · simp

/-- The deferred records are restored when the walk passes a boundary. -/
theorem Unwind.restoreSparseWhen_flushes (passed : Bool)
    (ready : ∀ pair ∈ unwind.sparse, unwind.state.Ready pair.2) :
    ∃ later, unwind.restoreSparseWhen passed = .ok later ∧ Flushes unwind later := by
  cases passed with
  | true =>
    obtain ⟨later, restoring, flushes, _⟩ := Unwind.restoreSparse_flushes ready
    exact ⟨later, restoring, flushes⟩
  | false => exact ⟨unwind, rfl, .refl unwind⟩

theorem restoreBoxesAbove_flushes (limit : Nat) (keys : List Nat)
    (ready : ∀ pair ∈ unwind.sparse, unwind.state.Ready pair.2) :
    ∃ later, restoreBoxesAbove limit keys unwind = .ok later ∧ Flushes unwind later := by
  induction keys generalizing unwind with
  | nil => exact ⟨_, rfl, [], .refl _, rfl, fun _ member => member⟩
  | cons key earlier ih => ?_
  unfold restoreBoxesAbove
  split
  · obtain ⟨between, flushing, first⟩ :=
      Unwind.restoreSparseWhen_flushes (unwind.boundary.any (key < ·)) ready
    obtain ⟨_, _, _, kept⟩ := id first
    obtain ⟨later, restoring, second⟩ := @ih between
      (fun pair member => first.ready (ready pair (kept pair member)))
    exact ⟨later, by rw [flushing, ok_bind, restoring], first.trans second⟩
  · exact ⟨_, rfl, [], .refl _, rfl, fun _ member => member⟩

def savedBy (frame : GroupFrame) : JournalEntry R → List (Mutation R)
  | .groupEnter _ => []
  | .mutation saved => if saved.savedAt = some frame.level then [saved] else []

/-- The deferred records of an exit are those of extended registers, and can be
restored. -/
def Deferred (unwind : Unwind R) : Prop :=
  ∀ pair ∈ unwind.sparse, unwind.state.Ready pair.2 ∧ isExtendedRegisterCell pair.2.cell = true

/-- An exit went on over records: what it restored and what it still defers are,
for every cell, the records in their order. -/
def Advances (unwind : Unwind R) (saves : List (Mutation R)) (later : Unwind R) : Prop :=
  Deferred later ∧ ∃ order, Unwinds unwind.state order later.state ∧
    ∀ cell, savesOf cell (order ++ later.sparse.map (·.2)) =
      savesOf cell (unwind.sparse.map (·.2) ++ saves)

theorem Flushes.deferred (flushes : Flushes unwind later) (deferred : Deferred unwind) :
    Deferred later := by
  obtain ⟨order, unwinds, _, kept⟩ := flushes
  intro pair member
  obtain ⟨ready, extended⟩ := deferred pair (kept pair member)
  exact ⟨unwinds.ready ready, extended⟩

theorem Flushes.advances {unwind later : Unwind R} (flushes : Flushes unwind later)
    (deferred : Deferred unwind) : Advances unwind [] later := by
  refine ⟨flushes.deferred deferred, ?_⟩
  obtain ⟨order, unwinds, remaining, _⟩ := flushes
  exact ⟨order, unwinds, fun cell => by rw [remaining, List.append_nil]⟩

theorem Advances.trans {first second third : Unwind R} {saves later : List (Mutation R)}
    (before : Advances first saves second) (behind : Advances second later third) :
    Advances first (saves ++ later) third := by
  obtain ⟨_, order, unwinds, records⟩ := before
  obtain ⟨deferred, further, unwinding, remaining⟩ := behind
  refine ⟨deferred, order ++ further, unwinds.trans unwinding, fun cell => ?_⟩
  have records := records cell
  have remaining := remaining cell
  simp only [savesOf, List.filter_append] at records remaining ⊢
  rw [List.append_assoc, remaining, ← List.append_assoc, records, List.append_assoc]

variable {frame : GroupFrame} {entry : JournalEntry R}

theorem Unwind.restoreEntry_advances (index : Nat) (deferred : Deferred unwind)
    (ready : ∀ saved ∈ savedBy frame entry, unwind.state.Ready saved) :
    ∃ later, unwind.restoreEntry frame index entry = .ok later ∧
      Advances unwind (savedBy frame entry) later := by
  cases entry with
  | groupEnter other =>
    exact ⟨unwind, rfl, deferred, [], .refl _, fun cell => by simp [savedBy]⟩
  | mutation saved => ?_
  unfold Unwind.restoreEntry
  dsimp only
  by_cases level : saved.savedAt = some frame.level
  · have recorded : savedBy frame (.mutation saved) = [saved] := if_pos level
    rw [recorded] at ready ⊢
    have ready := ready saved List.mem_cons_self
    rw [if_pos level]
    by_cases extended : isExtendedRegisterCell saved.cell = true
    · rw [if_pos extended]
      refine ⟨_, rfl, ?_, [], .refl _, fun cell => by simp⟩
      intro pair member
      rcases List.mem_append.mp member with earlier | last
      · exact deferred pair earlier
      rw [List.mem_singleton] at last
      subst last
      exact ⟨ready, extended⟩
    rw [if_neg extended]
    obtain ⟨next, restoring, unwinds⟩ := restoreGroupMutation_unwinds ready
    refine ⟨{ unwind with state := next }, by rw [restoring, ok_bind]; rfl,
      fun pair member => ?_, [saved], unwinds, fun cell => ?_⟩
    · obtain ⟨ready, extended⟩ := deferred pair member
      exact ⟨unwinds.ready ready, extended⟩
    -- a record restored at once is not of a cell with deferred records
    by_cases same : saved.cell = cell
    · have none : savesOf cell (unwind.sparse.map (·.2)) = [] := by
        simp only [savesOf, List.filter_eq_nil_iff, List.mem_map, decide_eq_true_eq]
        rintro other ⟨pair, member, rfl⟩ cells
        have sparse := (deferred pair member).2
        rw [cells, ← same] at sparse
        exact extended sparse
      simp only [savesOf, List.filter_append] at none ⊢
      rw [none]
      simp
    · simp [savesOf, same]
  have unrecorded : savedBy frame (.mutation saved) = [] := if_neg level
  rw [unrecorded, if_neg level]
  exact ⟨unwind, rfl, deferred, [], .refl _, fun cell => by simp⟩

theorem unsaveEntry_advances (index : Nat) (deferred : Deferred unwind)
    (ready : ∀ saved ∈ savedBy frame entry, unwind.state.Ready saved) :
    ∃ later, unsaveEntry frame unwind index entry = .ok later ∧
      Advances unwind (savedBy frame entry) later := by
  obtain ⟨boxed, boxing, first⟩ := restoreBoxesAbove_flushes (scalarKey index) unwind.boxes.dense
    (fun pair member => (deferred pair member).1)
  have afterBoxes := first.deferred deferred
  obtain ⟨passed, passing, second⟩ := Unwind.restoreSparseWhen_flushes
    (boxed.boundary.any (scalarKey index < ·)) (fun pair member => (afterBoxes pair member).1)
  have afterPassing := second.deferred afterBoxes
  obtain ⟨restored, restoring, third⟩ := Unwind.restoreEntry_advances index afterPassing
    (fun saved member => second.ready (first.ready (ready saved member)))
  obtain ⟨later, finishing, fourth⟩ := Unwind.restoreSparseWhen_flushes
    (decide (restored.boundary = some (scalarKey index)))
    (fun pair member => (third.1 pair member).1)
  refine ⟨later, ?_, ?_⟩
  · rw [unsaveEntry, boxing, ok_bind, passing, ok_bind, restoring, ok_bind, finishing]
  have advances := ((first.trans second).advances deferred).trans
    (third.trans (fourth.advances third.1))
  simpa using advances

theorem Advances.ready {saves : List (Mutation R)} (advances : Advances unwind saves later)
    (ready : unwind.state.Ready saved) : later.state.Ready saved := by
  obtain ⟨_, order, unwinds, _⟩ := advances
  exact unwinds.ready ready

theorem unsaveEntries_advances {frame : GroupFrame} (records : List (JournalEntry R × Nat))
    {unwind : Unwind R} (deferred : Deferred unwind)
    (ready : ∀ saved ∈ records.flatMap (fun record => savedBy frame record.1),
      unwind.state.Ready saved) : ∃ later, unsaveEntries frame unwind records = .ok later ∧
      Advances unwind (records.flatMap fun record => savedBy frame record.1) later := by
  induction records generalizing unwind with
  | nil => exact ⟨unwind, rfl, deferred, [], .refl _, fun cell => by simp⟩
  | cons record earlier ih => ?_
  obtain ⟨entry, index⟩ := record
  obtain ⟨between, stepping, first⟩ := unsaveEntry_advances index deferred
    (fun saved member => ready saved (List.mem_append_left _ member))
  obtain ⟨later, walking, second⟩ := ih first.1
    (fun saved member => first.ready (ready saved (List.mem_append_right _ member)))
  refine ⟨later, ?_, first.trans second⟩
  rw [unsaveEntries, stepping, ok_bind, walking]

def recordsOf (state : DenseState R) (frame : GroupFrame) : List (Mutation R) :=
  (state.journal.activeSequence.zipIdx.drop frame.journalStart).reverse.flatMap fun record =>
    savedBy frame record.1

structure Exits (state : DenseState R) (frame : GroupFrame) (mark : GroupMark)
    (outer : List GroupMark) (next : DenseState R) : Prop where
  groups : next.groups = state.groups.tail
  sequence : next.journal.activeSequence = state.journal.activeSequence.take mark.start
  marks : next.journal.activeGroups = outer
  saveStack : next.journal.saveStack =
    { words := frame.saveStackWordsBefore, latestPush := frame.latestSavePushBefore }
  savePosition : next.journal.savePosition = next.journal.activeSequence.length
  ready : ∀ saved, state.Ready saved → next.Ready saved
  values : ∀ cell, next.levelled cell = (state.levelled cell).map fun current =>
    (savesOf cell (state.recordsOf frame)).foldl restored current

/-- A group whose records can be restored can be left, with any box saves. -/
theorem unsave_exits {state : DenseState R} {mark : GroupMark} {outer : List GroupMark}
    (marks : state.journal.activeGroups = mark :: outer)
    (ready : ∀ saved ∈ state.recordsOf frame, state.Ready saved) (boxes : BoxUnsave) :
    ∃ next, state.unsave frame boxes = .ok next ∧ Exits state frame mark outer next := by
  let boundary :=
    leastKey ((state.journal.groupSparseStart frame).map scalarKey) boxes.sparseBoundary
  obtain ⟨walked, walking, advances⟩ := @unsaveEntries_advances R frame
    (state.journal.activeSequence.zipIdx.drop frame.journalStart).reverse
    { state, boxes, boundary, sparse := [] } nofun ready
  obtain ⟨boxed, boxing, flushes⟩ := restoreBoxesAbove_flushes 0 walked.boxes.dense
    (fun pair member => (advances.1 pair member).1)
  have deferred := flushes.deferred advances.1
  obtain ⟨final, finishing, last, empty⟩ := Unwind.restoreSparse_flushes
    (fun pair member => (deferred pair member).1)
  have total := advances.trans ((flushes.trans last).advances advances.1)
  rw [List.append_nil] at total
  obtain ⟨_, order, unwinds, saves⟩ := total
  have groups : final.state.journal.activeGroups = mark :: outer := unwinds.marks.trans marks
  refine ⟨{ final.state with
      groups := final.state.groups.tail
      journal := { final.state.journal with
        activeSequence := final.state.journal.activeSequence.take mark.start
        activeGroups := outer
        saveStack :=
          { words := frame.saveStackWordsBefore, latestPush := frame.latestSavePushBefore }
        savePosition := (final.state.journal.activeSequence.take mark.start).length } },
    ?_, ?_, ?_, rfl, rfl, rfl, fun saved held => unwinds.ready held, fun cell => ?_⟩
  · rw [DenseState.unsave, walking, ok_bind, boxing, ok_bind, finishing, ok_bind]
    simp only [SaveJournal.recordGroupExitWithRecords, groups]
    rfl
  · exact congrArg List.tail unwinds.groups
  · exact congrArg (List.take mark.start) unwinds.sequence
  have values := unwinds.values cell
  have saves := saves cell
  rw [empty] at saves
  simp only [List.map_nil, List.append_nil, List.nil_append] at saves
  rw [saves] at values
  exact values

end DenseState

/-! ## The records of the open groups -/

structure Segment (R : References) where
  frame : GroupFrame
  saves : List (Mutation R)

def sequenceOf : List (Segment R) → List (JournalEntry R)
  | [] => []
  | segment :: outer =>
    sequenceOf outer ++ .groupEnter segment.frame :: segment.saves.map .mutation

def marksOf : List (Segment R) → List (GroupFrame × Nat)
  | [] => []
  | segment :: outer => (segment.frame, (sequenceOf outer).length) :: marksOf outer

/-- The frames carry their level and their position, and the records the level
they were saved at. -/
def Laid : List (Segment R) → Prop
  | [] => True
  | segment :: outer =>
    segment.frame.level = outer.length + 2 ∧
      segment.frame.journalStart = (sequenceOf outer).length + 1 ∧
      (∀ saved ∈ segment.saves, saved.savedAt = some segment.frame.level) ∧ Laid outer

def unwound (cell : StateCell) (saves : List (Mutation R)) (current : StateWord R × Nat) :
    StateWord R × Nat :=
  (savesOf cell saves.reverse).foldl restored current

variable {saved : Mutation R}

theorem unwound_concat_same {cell : StateCell} (same : saved.cell = cell)
    (saves : List (Mutation R)) (current : StateWord R × Nat) :
    unwound cell (saves ++ [saved]) current = unwound cell saves (restored current saved) := by
  simp [unwound, savesOf, same]

theorem unwound_concat_other {cell : StateCell} (apart : saved.cell ≠ cell)
    (saves : List (Mutation R)) (current : StateWord R × Nat) :
    unwound cell (saves ++ [saved]) current = unwound cell saves current := by
  simp [unwound, savesOf, apart]

variable {saves : List (Mutation R)}

theorem unwound_unsaved {cell : StateCell} (unsaved : ∀ saved ∈ saves, saved.cell ≠ cell)
    (current : StateWord R × Nat) : unwound cell saves current = current := by
  have none : savesOf cell saves.reverse = [] := by
    simp only [savesOf, List.filter_eq_nil_iff, List.mem_reverse, decide_eq_true_eq]
    exact unsaved
  rw [unwound, none]
  rfl

theorem foldl_restored_global (saves : List (Mutation R)) {current : StateWord R × Nat}
    (global : current.2 = levelOne) : saves.foldl restored current = current := by
  induction saves with
  | nil => rfl
  | cons saved later ih =>
    have kept : restored current saved = current := if_pos global
    rw [List.foldl_cons, kept, ih]

/-- With a record of the cell, only whether the current value is global matters. -/
theorem unwound_of_saved {cell : StateCell} (recorded : ∃ saved ∈ saves, saved.cell = cell)
    {current changed : StateWord R × Nat} (leveled : current.2 ≠ levelOne)
    (releveled : changed.2 ≠ levelOne) :
    unwound cell saves changed = unwound cell saves current := by
  unfold unwound
  cases records : savesOf cell saves.reverse with
  | nil =>
    obtain ⟨saved, member, same⟩ := recorded
    simp only [savesOf, List.filter_eq_nil_iff, List.mem_reverse, decide_eq_true_eq] at records
    exact absurd same (records saved member)
  | cons saved later => ?_
  have first : restored current saved = (saved.before, saved.beforeLevel) := if_neg leveled
  have second : restored changed saved = (saved.before, saved.beforeLevel) := if_neg releveled
  rw [List.foldl_cons, List.foldl_cons, first, second]

/-- One cell through the frames: its value in each frame is what the exits
outside that frame's group leave, and a value of the innermost level has a
record. -/
def Chained (cell : StateCell) :
    Option (StateWord R × Nat) → List (Segment R) → List (Environment R) → Prop
  | current, [], frames =>
    ∃ environment, frames = [environment] ∧ environment cell = current.map (·.1) ∧
      ∀ found, current = some found → found.2 ≤ levelOne
  | current, segment :: outer, frames =>
    ∃ environment rest, frames = environment :: rest ∧
      environment cell = current.map (·.1) ∧
      (∀ found, current = some found → found.2 ≤ segment.frame.level ∧
        (found.2 = segment.frame.level → ∃ saved ∈ segment.saves, saved.cell = cell)) ∧
      Chained cell (current.map (unwound cell segment.saves)) outer rest

variable {current : Option (StateWord R × Nat)}

theorem Chained.head {cell : StateCell} {segments : List (Segment R)}
    {frames : List (Environment R)} (chained : Chained cell current segments frames) :
    ∃ environment rest, frames = environment :: rest ∧ environment cell = current.map (·.1) := by
  cases segments with
  | nil =>
    obtain ⟨environment, rfl, values, _⟩ := chained
    exact ⟨environment, [], rfl, values⟩
  | cons segment outer =>
    obtain ⟨environment, rest, rfl, values, _⟩ := chained
    exact ⟨environment, rest, rfl, values⟩

theorem Chained.length {cell : StateCell} {segments : List (Segment R)}
    {frames : List (Environment R)} (chained : Chained cell current segments frames) :
    frames.length = segments.length + 1 := by
  induction segments generalizing current frames with
  | nil =>
    obtain ⟨environment, rfl, _⟩ := chained
    rfl
  | cons segment outer ih =>
    obtain ⟨environment, rest, rfl, _, _, deeper⟩ := chained
    simp [ih deeper]

variable {found : StateWord R × Nat}

theorem Chained.level_le {cell : StateCell} {segments : List (Segment R)}
    {frames : List (Environment R)} (chained : Chained cell current segments frames)
    (laid : Laid segments) (same : current = some found) : found.2 ≤ segments.length + 1 := by
  cases segments with
  | nil =>
    obtain ⟨_, _, _, global⟩ := chained
    exact global found same
  | cons segment rest => ?_
  obtain ⟨_, _, _, _, level, _⟩ := chained
  have level := (level found same).1
  rw [laid.1] at level
  exact level

/-- A cell that no record names has one value in every frame. -/
theorem Chained.of_unsaved {cell : StateCell} {segments : List (Segment R)}
    {frames : List (Environment R)} (count : frames.length = segments.length + 1)
    (laid : Laid segments)
    (unsaved : ∀ segment ∈ segments, ∀ saved ∈ segment.saves, saved.cell ≠ cell)
    (values : ∀ environment ∈ frames, environment cell = current.map (·.1))
    (global : ∀ found, current = some found → found.2 ≤ levelOne) :
    Chained cell current segments frames := by
  induction segments generalizing frames with
  | nil =>
    obtain ⟨environment, rfl⟩ := List.length_eq_one_iff.mp count
    exact ⟨environment, rfl, values environment List.mem_cons_self, global⟩
  | cons segment outer ih => ?_
  cases frames with
  | nil => cases count
  | cons environment rest => ?_
  refine ⟨environment, rest, rfl, values environment List.mem_cons_self, fun found some => ?_, ?_⟩
  · have level := laid.1
    have bound : found.2 ≤ 1 := global found some
    exact ⟨by omega, fun same => absurd same (by omega)⟩
  have unchanged : current.map (unwound cell segment.saves) = current := by
    cases current with
    | none => rfl
    | some found =>
      exact congrArg some (unwound_unsaved (unsaved segment List.mem_cons_self) found)
  rw [unchanged]
  exact ih (Nat.succ.inj count) laid.2.2.2
    (fun other member => unsaved other (List.mem_cons_of_mem _ member))
    (fun other member => values other (List.mem_cons_of_mem _ member))

/-- A global value is in every frame, whatever the records. -/
theorem Chained.of_global {cell : StateCell} {segments : List (Segment R)}
    {frames : List (Environment R)} {value : StateWord R}
    (count : frames.length = segments.length + 1) (laid : Laid segments)
    (values : ∀ environment ∈ frames, environment cell = some value) :
    Chained cell (some (value, levelOne)) segments frames := by
  induction segments generalizing frames with
  | nil =>
    obtain ⟨environment, rfl⟩ := List.length_eq_one_iff.mp count
    refine ⟨environment, rfl, values environment List.mem_cons_self, fun found same => ?_⟩
    cases same
    exact Nat.le_refl _
  | cons segment outer ih => ?_
  cases frames with
  | nil => cases count
  | cons environment rest => ?_
  refine ⟨environment, rest, rfl, values environment List.mem_cons_self, fun found same => ?_, ?_⟩
  · cases same
    have level := laid.1
    have one : levelOne = 1 := rfl
    exact ⟨by omega, fun same => absurd same (by omega)⟩
  have unchanged : unwound cell segment.saves (value, levelOne) = (value, levelOne) :=
    foldl_restored_global _ rfl
  rw [Option.map_some, unchanged]
  exact ih (Nat.succ.inj count) laid.2.2.2
    (fun other member => values other (List.mem_cons_of_mem _ member))

theorem Chained.extend {cell : StateCell} {segments : List (Segment R)}
    {frames : List (Environment R)} (grown : Environment R)
    (chained : Chained cell current segments frames) (exists_ : current = some found) :
    Chained cell current segments (frames.map (Environment.extend grown)) := by
  induction segments generalizing current frames found with
  | nil =>
    obtain ⟨environment, rfl, values, global⟩ := chained
    refine ⟨_, rfl, ?_, global⟩
    rw [exists_] at values ⊢
    simp only [Environment.extend, values, Option.map_some]
  | cons segment outer ih => ?_
  obtain ⟨environment, rest, rfl, values, levels, deeper⟩ := chained
  refine ⟨_, _, rfl, ?_, levels, ih deeper (by rw [exists_]; rfl)⟩
  rw [exists_] at values ⊢
  simp only [Environment.extend, values, Option.map_some]

theorem Chained.values_none {cell : StateCell} {segments : List (Segment R)}
    {frames : List (Environment R)} (chained : Chained cell none segments frames) :
    ∀ environment ∈ frames, environment cell = none := by
  induction segments generalizing frames with
  | nil =>
    obtain ⟨environment, rfl, values, _⟩ := chained
    intro other member
    rw [List.mem_singleton.mp member]
    exact values
  | cons segment outer ih => ?_
  obtain ⟨environment, rest, rfl, values, _, deeper⟩ := chained
  intro other member
  rcases List.mem_cons.mp member with rfl | later
  · exact values
  · exact ih deeper other later

theorem Chained.congr {cell : StateCell} {current : Option (StateWord R × Nat)}
    {segments : List (Segment R)} {frames : List (Environment R)}
    (change : Environment R → Environment R) (same : ∀ environment, change environment cell = environment cell)
    (chained : Chained cell current segments frames) :
    Chained cell current segments (frames.map change) := by
  induction segments generalizing current frames with
  | nil =>
    obtain ⟨environment, rfl, values, global⟩ := chained
    exact ⟨_, rfl, by rw [same, values], global⟩
  | cons segment outer ih =>
    obtain ⟨environment, rest, rfl, values, levels, deeper⟩ := chained
    exact ⟨_, _, rfl, by rw [same, values], levels, ih deeper⟩

/-! ## The invariant -/

namespace DenseState

structure Lays (state : DenseState R) (segments : List (Segment R)) : Prop where
  laid : Laid segments
  groups : state.groups = segments.map (·.frame)
  sequence : state.journal.activeSequence = sequenceOf segments
  marks : state.journal.activeGroups.map (fun mark => (mark.frame, mark.start)) = marksOf segments
  ready : ∀ segment ∈ segments, ∀ saved ∈ segment.saves, state.Ready saved

structure Scopes (state : DenseState R) (segments : List (Segment R))
    (frames : List (Environment R)) : Prop extends Lays state segments where
  chained : ∀ cell, Chained cell (state.levelled cell) segments frames

variable {state next : DenseState R} {segments : List (Segment R)} {frames : List (Environment R)}

theorem Scopes.count (scopes : Scopes state segments frames) :
    frames.length = segments.length + 1 :=
  (scopes.chained .currentFont).length

theorem map_levelled (state : DenseState R) (cell : StateCell) :
    (state.levelled cell).map (·.1) = state.environment cell := by
  simp [levelled, environment, BankCell.levelled, Function.comp_def]

theorem Scopes.head (scopes : Scopes state segments frames) :
    ∃ outer, frames = state.environment :: outer := by
  cases frames with
  | nil => cases scopes.count
  | cons environment outer => ?_
  refine ⟨outer, ?_⟩
  have same : environment = state.environment := by
    funext cell
    obtain ⟨other, rest, shape, values⟩ := (scopes.chained cell).head
    cases shape
    rw [values, map_levelled]
  rw [same]

theorem Lays.of_settled (settled : state.Settled) : Lays state [] :=
  ⟨trivial, settled.groups, settled.sequence, by rw [settled.marks]; rfl,
    nofun⟩

theorem Scopes.of_settled (settled : state.Settled) : Scopes state [] [state.environment] := by
  refine ⟨.of_settled settled, fun cell => ⟨_, rfl, (map_levelled state cell).symm, ?_⟩⟩
  intro found same
  obtain ⟨content, contained, rfl⟩ := Option.map_eq_some_iff.mp same
  exact settled.global cell content contained

theorem Lays.currentLevel (lays : Lays state segments) :
    state.currentLevel = segments.length + 1 := by
  unfold DenseState.currentLevel
  rw [lays.groups]
  cases segments with
  | nil => rfl
  | cons segment outer => exact lays.laid.1

/-! ## Groups -/

variable {kind : GroupKind} {line : Nat}

theorem Lays.beginGroup (lays : Lays state segments) (begun : state.beginGroup kind line = .ok next) :
     ∃ frame, frame.kind = kind ∧ frame.level = segments.length + 2 ∧
      Lays next (⟨frame, []⟩ :: segments) ∧ next.banks = state.banks := by
  obtain ⟨frame, kinds, level, position, rfl⟩ := beginGroup_eq_ok begun
  have depth : state.groups.length = segments.length := by rw [lays.groups]; simp
  rw [depth] at level
  rw [lays.sequence] at position
  refine ⟨frame, kinds, level, ⟨⟨level, position, nofun, lays.laid⟩,
    ?_, ?_, ?_, fun segment member saved => ?_⟩, rfl⟩
  · dsimp only
    rw [lays.groups]
    rfl
  · simp [SaveJournal.recordGroupEnter, sequenceOf, lays.sequence]
  · simp only [SaveJournal.recordGroupEnter, List.map_cons, marksOf, lays.sequence, lays.marks]
  rcases List.mem_cons.mp member with rfl | earlier
  · exact nofun
  · exact lays.ready segment earlier saved

variable {environment : Environment R} {outer : List (Environment R)}

theorem Scopes.beginGroup (scopes : Scopes state segments (environment :: outer))
    (begun : state.beginGroup kind line = .ok next) :
    ∃ segments, Scopes next segments (environment :: environment :: outer) := by
  obtain ⟨frame, _, level, lays, banks⟩ := scopes.toLays.beginGroup begun
  refine ⟨_, lays, fun cell => ?_⟩
  have current : next.levelled cell = state.levelled cell := by rw [levelled, banks]; rfl
  rw [current]
  obtain ⟨head, rest, shape, values⟩ := (scopes.chained cell).head
  cases shape
  refine ⟨environment, environment :: outer, rfl, values, fun found same => ?_, ?_⟩
  · have bounded := (scopes.chained cell).level_le scopes.laid same
    dsimp only
    exact ⟨by omega, fun same => absurd same (by omega)⟩
  have unchanged : (state.levelled cell).map (unwound cell []) = state.levelled cell := by
    cases state.levelled cell <;> rfl
  exact unchanged.symm ▸ scopes.chained cell

/-- The records a group exit walks over, the newest one first. -/
theorem recordedSaves (segment : Segment R) (outer : List (Segment R))
    (laid : Laid (segment :: outer)) :
    ((sequenceOf (segment :: outer)).zipIdx.drop segment.frame.journalStart).reverse.flatMap
      (fun record => savedBy segment.frame record.1) = segment.saves.reverse := by
  obtain ⟨_, position, levels, _⟩ := laid
  have entries : ∀ records : List (JournalEntry R × Nat),
      records.flatMap (fun record => savedBy segment.frame record.1) =
        (records.map (·.1)).flatMap (savedBy segment.frame) := by
    intro records
    rw [List.flatMap_map]
  have dropped : (sequenceOf (segment :: outer)).drop segment.frame.journalStart =
      segment.saves.map .mutation := by
    rw [position, sequenceOf, List.drop_append]
    simp
  rw [entries, List.map_reverse, List.map_drop, List.zipIdx_map_fst, dropped, ← List.map_reverse,
    List.flatMap_map]
  have recorded : ∀ saves : List (Mutation R),
      (∀ saved ∈ saves, saved.savedAt = some segment.frame.level) →
        saves.flatMap (fun saved => savedBy segment.frame (.mutation saved)) = saves := by
    intro saves all
    induction saves with
    | nil => rfl
    | cons saved later ih => ?_
    have here : savedBy segment.frame (.mutation saved) = [saved] :=
      if_pos (all saved List.mem_cons_self)
    rw [List.flatMap_cons, here, ih fun other member => all other (List.mem_cons_of_mem _ member)]
    rfl
  exact recorded _ fun saved member => levels saved (List.mem_reverse.mp member)

variable {segment : Segment R}

/-- The exit of the innermost group restores its records and drops its segment. -/
theorem Lays.unsave {outer : List (Segment R)} (lays : Lays state (segment :: outer))
    (boxes : BoxUnsave) : ∃ next, state.unsave segment.frame boxes = .ok next ∧ Lays next outer ∧
      ∀ cell, next.levelled cell = (state.levelled cell).map (unwound cell segment.saves) := by
  have records : state.recordsOf segment.frame = segment.saves.reverse := by
    rw [recordsOf, lays.sequence]
    exact recordedSaves segment outer lays.laid
  have marks := lays.marks
  cases groups : state.journal.activeGroups with
  | nil =>
    rw [groups] at marks
    cases marks
  | cons mark rest => ?_
  rw [groups] at marks
  simp only [List.map_cons, marksOf, List.cons.injEq, Prod.mk.injEq] at marks
  obtain ⟨⟨_, start⟩, marks⟩ := marks
  obtain ⟨next, unsaving, exits⟩ := unsave_exits groups (by
    intro saved member
    rw [records] at member
    exact lays.ready segment List.mem_cons_self saved (List.mem_reverse.mp member)) boxes
  refine ⟨next, unsaving, ⟨lays.laid.2.2.2, ?_, ?_, ?_, ?_⟩, ?_⟩
  · rw [exits.groups, lays.groups]
    rfl
  · rw [exits.sequence, lays.sequence, start, sequenceOf, List.take_left]
  · rw [exits.marks]
    exact marks
  · exact fun other member saved held =>
      exits.ready saved (lays.ready other (List.mem_cons_of_mem _ member) saved held)
  intro cell
  rw [exits.values, records]
  rfl

/-- The innermost group can be ended, with any box saves. -/
theorem Lays.endGroup {outer : List (Segment R)} (lays : Lays state (segment :: outer))
    (boxes : BoxUnsave) :
    ∃ next, state.endGroup segment.frame.kind boxes = .ok next ∧ Lays next outer ∧
      ∀ cell, next.levelled cell = (state.levelled cell).map (unwound cell segment.saves) := by
  obtain ⟨next, unsaving, result⟩ := lays.unsave boxes
  refine ⟨next, ?_, result⟩
  unfold DenseState.endGroup closingGroup
  rw [lays.groups]
  simp only [List.map_cons, if_true]
  exact unsaving

theorem Scopes.endGroup {boxes : BoxUnsave} (scopes : Scopes state segments (environment :: outer))
    (ended : state.endGroup kind boxes = .ok next) : ∃ segments, Scopes next segments outer := by
  cases segments with
  | nil =>
    obtain ⟨frame, closing, _⟩ := bind_eq_ok.mp ended
    rw [closingGroup, scopes.groups] at closing
    cases closing
  | cons segment rest => ?_
  have kinds : segment.frame.kind = kind := by
    obtain ⟨frame, closing, _⟩ := bind_eq_ok.mp ended
    rw [closingGroup, scopes.groups] at closing
    simp only [List.map_cons] at closing
    split at closing
    · assumption
    · cases closing
  subst kinds
  obtain ⟨result, ending, lays, values⟩ := scopes.toLays.endGroup boxes
  rw [ending] at ended
  cases ended
  refine ⟨rest, lays, fun cell => ?_⟩
  obtain ⟨_, _, shape, _, _, deeper⟩ := scopes.chained cell
  cases shape
  rw [values]
  exact deeper

/-! ## Growth and assignments -/

variable {banks : Banks R}

theorem levelled_grown (grown : Banks.Grown state.banks banks) (cell : StateCell) :
    (∃ found, state.levelled cell = some found ∧
        ({ state with banks } : DenseState R).levelled cell = some found) ∨
      state.levelled cell = none ∧
        ∀ found, ({ state with banks } : DenseState R).levelled cell = some found →
          found.2 ≤ levelOne := by
  cases before : state.banks.contents cell with
  | some content =>
    have kept := grown.kept cell content before
    exact .inl ⟨content.levelled, by rw [levelled, before]; rfl, by rw [levelled, kept]; rfl⟩
  | none => ?_
  refine .inr ⟨by rw [levelled, before]; rfl, fun found same => ?_⟩
  obtain ⟨content, contained, rfl⟩ := Option.map_eq_some_iff.mp same
  exact (grown.fresh cell content before contained).1

theorem Scopes.grow (scopes : Scopes state segments frames) (grows : Grows state next) :
    Scopes next segments (frames.map (Environment.extend next.environment)) := by
  obtain ⟨banks, rfl, grown⟩ := grows.grown
  refine ⟨⟨scopes.laid, scopes.groups, scopes.sequence, scopes.marks,
    fun segment member saved held => ?_⟩, fun cell => ?_⟩
  · obtain ⟨⟨content, found⟩, fits⟩ := scopes.ready segment member saved held
    exact ⟨⟨content, grown.kept _ _ found⟩, fits⟩
  rcases levelled_grown grown cell with ⟨found, before, after⟩ | ⟨absent, global⟩
  · have chained := scopes.chained cell
    rw [before] at chained
    rw [after]
    exact chained.extend _ rfl
  have chained := scopes.chained cell
  rw [absent] at chained
  refine Chained.of_unsaved (by simpa using scopes.count) scopes.laid
    (fun segment member saved held same => ?_) (fun environment member => ?_) global
  · obtain ⟨⟨content, found⟩, _⟩ := scopes.ready segment member saved held
    rw [same] at found
    rw [levelled, found] at absent
    cases absent
  obtain ⟨earlier, held, rfl⟩ := List.mem_map.mp member
  simp only [Environment.extend, chained.values_none earlier held]
  exact (map_levelled _ cell).symm

theorem assignedJournal_unsaved {cell : StateCell} {scope : AssignmentScope}
    {before : BankCell (StateWord R)} (unsaved : state.savedLevel scope before.level = none) :
    (state.assignedJournal cell scope before).activeSequence = state.journal.activeSequence ∧
      (state.assignedJournal cell scope before).activeGroups = state.journal.activeGroups := by
  unfold assignedJournal
  dsimp only
  split
  · exact SaveJournal.recordMutation_unsaved _ _ unsaved
  · exact ⟨rfl, rfl⟩

theorem assignedJournal_saved {cell : StateCell} {scope : AssignmentScope} {level : Nat}
    {before : BankCell (StateWord R)} (saved : state.savedLevel scope before.level = some level) :
    (state.assignedJournal cell scope before).activeSequence =
        state.journal.activeSequence ++ [.mutation (.new cell before (some level))] ∧
      (state.assignedJournal cell scope before).activeGroups.map
          (fun mark => (mark.frame, mark.start)) =
        state.journal.activeGroups.map (fun mark => (mark.frame, mark.start)) := by
  have needed : state.journal.needsMutation before.saveSerial (some level) = true := by
    simp [SaveJournal.needsMutation]
  unfold assignedJournal
  simp only [saved, needed, if_true]
  obtain ⟨sequence, groups⟩ := SaveJournal.recordMutation_saved state.journal
    (.new cell before (some level)) rfl
  refine ⟨sequence, ?_⟩
  rw [groups]
  cases state.journal.activeGroups with
  | nil => rfl
  | cons mark outer => rfl

variable {journal : SaveJournal R}

theorem levelled_written {cell : StateCell} {content : BankCell (StateWord R)}
    (written : Banks.Written state.banks banks cell content) (other : StateCell) :
    ({ state with banks, journal } : DenseState R).levelled other =
      if other = cell then some content.levelled else state.levelled other := by
  change (banks.contents other).map BankCell.levelled = _
  rw [written.contents]
  split
  · rename_i same
    rw [same, setAt_same]
    rfl
  rename_i apart
  rw [setAt_other _ _ apart]
  rfl

theorem Ready.written {cell : StateCell} {content : BankCell (StateWord R)}
    (written : Banks.Written state.banks banks cell content) {saved : Mutation R}
    (ready : state.Ready saved) : ({ state with banks, journal } : DenseState R).Ready saved := by
  obtain ⟨⟨found, contained⟩, fits⟩ := ready
  refine ⟨?_, fits⟩
  change ∃ content, banks.contents saved.cell = some content
  rw [written.contents]
  by_cases same : saved.cell = cell
  · rw [same, setAt_same]
    exact ⟨_, rfl⟩
  rw [setAt_other _ _ same]
  exact ⟨found, contained⟩

section Assignments

variable {cell : StateCell} {value : StateWord R} {before content : BankCell (StateWord R)}
  {banks : Banks R} {scope : AssignmentScope}

theorem Lays.assignUnsaved (lays : Lays state segments)
    (written : Banks.Written state.banks banks cell content)
    (unsaved : state.savedLevel scope before.level = none) :
    Lays { state with banks, journal := state.assignedJournal cell scope before } segments := by
  obtain ⟨sequence, groups⟩ := @assignedJournal_unsaved R state cell scope before unsaved
  exact ⟨lays.laid, lays.groups, sequence.trans lays.sequence,
    by dsimp only; rw [groups]; exact lays.marks,
    fun segment member saved held => (lays.ready segment member saved held).written written⟩

variable {segment : Segment R} {outer : List (Segment R)}

theorem Lays.assignSaved (lays : Lays state (segment :: outer))
    (written : Banks.Written state.banks banks cell content)
    (saves : state.savedLevel scope before.level = some segment.frame.level)
    (ready : state.Ready (.new cell before (some segment.frame.level))) :
    Lays { state with banks, journal := state.assignedJournal cell scope before }
      ({ segment with
        saves := segment.saves ++ [.new cell before (some segment.frame.level)] } :: outer) := by
  obtain ⟨sequence, groups⟩ := @assignedJournal_saved R state cell scope _ before saves
  refine ⟨⟨lays.laid.1, lays.laid.2.1, fun other member => ?_, lays.laid.2.2.2⟩, lays.groups,
    ?_, ?_, fun other member saved held => ?_⟩
  · rcases List.mem_append.mp member with earlier | last
    · exact lays.laid.2.2.1 other earlier
    rw [List.mem_singleton.mp last]
    rfl
  · dsimp only
    rw [sequence, lays.sequence]
    simp [sequenceOf]
  · dsimp only
    rw [groups, lays.marks]
    rfl
  rcases List.mem_cons.mp member with rfl | later
  · rcases List.mem_append.mp held with earlier | last
    · exact (lays.ready segment List.mem_cons_self saved earlier).written written
    rw [List.mem_singleton.mp last]
    exact ready.written written
  · exact (lays.ready _ (List.mem_cons_of_mem _ later) saved held).written written

theorem Scopes.assignGlobal (scopes : Scopes state segments frames)
    (written : Banks.Written state.banks banks cell
      { value, level := levelOne, saveSerial := state.journal.saveSerial }) :
    Scopes { state with banks, journal := state.assignedJournal cell .global before } segments
      (Environment.assign .global cell value frames) := by
  refine ⟨scopes.toLays.assignUnsaved written rfl, fun other => ?_⟩
  rw [levelled_written written]
  split
  · rename_i same
    subst same
    refine Chained.of_global (by simpa [Environment.assign] using scopes.count) scopes.laid
      fun environment member => ?_
    obtain ⟨earlier, _, rfl⟩ := List.mem_map.mp member
    rw [setAt_same]
  rename_i apart
  exact (scopes.chained other).congr _ fun environment => setAt_other _ _ apart

theorem Scopes.assignOuter (scopes : Scopes state [] frames)
    (written : Banks.Written state.banks banks cell
      { value, level := levelOne, saveSerial := state.journal.saveSerial }) :
    Scopes { state with banks, journal := state.assignedJournal cell .local before } []
      (Environment.assign .local cell value frames) := by
  have level := scopes.toLays.currentLevel
  have unsaved : state.savedLevel .local before.level = none := by
    simp [savedLevel, level, levelOne]
  obtain ⟨environment, rfl⟩ := List.length_eq_one_iff.mp scopes.count
  refine ⟨scopes.toLays.assignUnsaved written unsaved, fun other => ?_⟩
  rw [levelled_written written]
  split
  · rename_i same
    subst same
    refine ⟨_, rfl, setAt_same .., fun found same => ?_⟩
    cases same
    exact Nat.le_refl _
  rename_i apart
  obtain ⟨head, shape, values, global⟩ := scopes.chained other
  cases shape
  exact ⟨_, rfl, by rw [setAt_other _ _ apart, values], global⟩

/-- A local assignment in a group: the displaced value gets a record unless the
group has one already. -/
theorem Scopes.assignInner (scopes : Scopes state (segment :: outer) frames)
    (representable : cell.Representable) (found : state.banks.contents cell = some before)
    (written : Banks.Written state.banks banks cell
      { value, level := segment.frame.level, saveSerial := state.journal.saveSerial }) :
    ∃ segments, Scopes { state with banks, journal := state.assignedJournal cell .local before }
      segments (Environment.assign .local cell value frames) := by
  have level : state.currentLevel = segment.frame.level :=
    scopes.toLays.currentLevel.trans scopes.laid.1.symm
  have inner : segment.frame.level ≠ levelOne := by
    rw [scopes.laid.1]
    exact fun same => absurd (Nat.succ.inj same) (Nat.succ_ne_zero _)
  have current : state.levelled cell = some before.levelled := by rw [levelled, found]; rfl
  by_cases saved : before.level = segment.frame.level
  · have unsaved : state.savedLevel .local before.level = none := by
      simp [savedLevel, level, saved]
    refine ⟨segment :: outer, scopes.toLays.assignUnsaved written unsaved, fun other => ?_⟩
    obtain ⟨environment, rest, shape, values, levels, deeper⟩ := scopes.chained other
    subst shape
    rw [levelled_written written]
    split
    · rename_i same
      subst same
      have recorded := (levels _ current).2 saved
      refine ⟨_, rest, rfl, setAt_same .., fun found same => ?_, ?_⟩
      · cases same
        exact ⟨Nat.le_refl _, fun _ => recorded⟩
      have unwinding : unwound other segment.saves (value, segment.frame.level) =
          unwound other segment.saves before.levelled :=
        unwound_of_saved recorded (by rw [show before.levelled.2 = _ from saved]; exact inner)
          inner
      rw [current] at deeper
      change Chained other (some (unwound other segment.saves (value, segment.frame.level))) _ _
      rw [unwinding]
      exact deeper
    rename_i apart
    exact ⟨_, rest, rfl, by rw [setAt_other _ _ apart, values], levels, deeper⟩
  have saves : state.savedLevel .local before.level = some segment.frame.level := by
    simp [savedLevel, level, saved, inner]
  let record := Mutation.new cell before (some segment.frame.level)
  have recordCell : record.cell = cell := Mutation.cell_new representable _ _
  have recordReady : state.Ready record := by
    refine ⟨⟨before, by rw [recordCell]; exact found⟩, ?_⟩
    rw [recordCell]
    exact Banks.readCell_fits (Banks.contents_eq_some.mp found)
  refine ⟨_, scopes.toLays.assignSaved written saves recordReady, fun other => ?_⟩
  obtain ⟨environment, rest, shape, values, levels, deeper⟩ := scopes.chained other
  subst shape
  rw [levelled_written written]
  split
  · rename_i same
    subst same
    refine ⟨_, rest, rfl, setAt_same .., fun found same => ?_, ?_⟩
    · cases same
      exact ⟨Nat.le_refl _, fun _ => ⟨record, List.mem_append_right _ List.mem_cons_self,
        recordCell⟩⟩
    have unwinding :
        unwound other (segment.saves ++ [record]) (value, segment.frame.level) =
          unwound other segment.saves before.levelled := by
      rw [unwound_concat_same recordCell]
      have displaced : restored (value, segment.frame.level) record = before.levelled :=
        if_neg inner
      rw [displaced]
    rw [current] at deeper
    change Chained other
      (some (unwound other (segment.saves ++ [record]) (value, segment.frame.level))) _ _
    rw [unwinding]
    exact deeper
  rename_i apart
  refine ⟨_, rest, rfl, by rw [setAt_other _ _ apart, values], fun found same => ?_, ?_⟩
  · obtain ⟨bounded, recorded⟩ := levels found same
    refine ⟨bounded, fun equal => ?_⟩
    obtain ⟨saved, member, cells⟩ := recorded equal
    exact ⟨saved, List.mem_append_left _ member, cells⟩
  have unwinding : unwound other (segment.saves ++ [record]) =
      unwound other segment.saves := by
    funext current
    exact unwound_concat_other (by rw [recordCell]; exact Ne.symm apart) _ _
  dsimp only
  rw [unwinding]
  exact deeper

end Assignments

theorem Scopes.assign {cell : StateCell} {value : StateWord R} {scope : AssignmentScope}
    (scopes : Scopes state segments frames) (representable : cell.Representable)
    (assigned : state.assign cell value scope = .ok next) :
    ∃ segments, Scopes next segments (Environment.assign scope cell value frames) := by
  obtain ⟨before, banks, found, written, rfl⟩ := assign_eq_ok assigned
  cases scope with
  | global => exact ⟨segments, scopes.assignGlobal written⟩
  | «local» => ?_
  have level := scopes.toLays.currentLevel
  unfold assignedLevel at written
  rw [level] at written
  cases segments with
  | nil => exact ⟨[], scopes.assignOuter written⟩
  | cons segment outer => ?_
  rw [List.length_cons, show outer.length + 1 + 1 = segment.frame.level from
    scopes.laid.1.symm] at written
  exact scopes.assignInner representable found written

/-! ## Runs -/

theorem Scoped.scopes (run : Scoped StateCell.Representable state frames) :
    ∃ segments, Scopes state segments frames := by
  induction run with
  | start settled => exact ⟨[], .of_settled settled⟩
  | assign _ representable assigned ih =>
    obtain ⟨segments, scopes⟩ := ih
    exact scopes.assign representable assigned
  | grow _ grows ih =>
    obtain ⟨segments, scopes⟩ := ih
    exact ⟨segments, scopes.grow grows⟩
  | beginGroup _ begun ih =>
    obtain ⟨segments, scopes⟩ := ih
    exact scopes.beginGroup begun
  | endGroup _ ended ih =>
    obtain ⟨segments, scopes⟩ := ih
    exact scopes.endGroup ended

/-- In every state of a run each cell has its value in the innermost frame of the
reference, and the innermost group can be ended. -/
theorem grouping_is_scoping (run : Scoped StateCell.Representable state frames) :
    (∃ outer, frames = state.environment :: outer) ∧ frames.length = state.groups.length + 1 ∧
      ∀ frame outer, state.groups = frame :: outer →
        ∀ boxes, ∃ next, state.endGroup frame.kind boxes = .ok next := by
  obtain ⟨segments, scopes⟩ := run.scopes
  refine ⟨scopes.head, ?_, fun frame outer groups boxes => ?_⟩
  · rw [scopes.count, scopes.groups, List.length_map]
  cases segments with
  | nil =>
    rw [scopes.groups] at groups
    cases groups
  | cons segment rest => ?_
  rw [scopes.groups] at groups
  cases groups
  obtain ⟨next, ended, _⟩ := scopes.toLays.endGroup boxes
  exact ⟨next, ended⟩

theorem Settled.grow (settled : state.Settled) (grows : Grows state next) : next.Settled := by
  obtain ⟨banks, rfl, grown⟩ := grows.grown
  refine ⟨settled.groups, settled.sequence, settled.marks, fun cell content found => ?_⟩
  cases before : state.banks.contents cell with
  | none => exact (grown.fresh cell content before found).1
  | some earlier => ?_
  have kept := grown.kept cell earlier before
  rw [show banks.contents cell = some content from found] at kept
  cases kept
  exact settled.global cell content before

theorem settled_new (meaningCapacity : Nat) (undefined : R.Meaning) :
    (DenseState.new meaningCapacity undefined).Settled :=
  ⟨rfl, rfl, rfl, fun _ _ found => (Banks.contents_new found).1⟩

/-- A local assignment whose record names another, global cell survives its group. -/
theorem aliased_assignment_survives (settled : state.Settled)
    (room : state.nextGroupLineage + 1 < serialLimit) {cell other : StateCell}
    (aliased : (JournalCell.pack cell).unpack = other) (apart : other ≠ cell)
    {before displaced : BankCell (StateWord R)} {value : StateWord R}
    (found : state.banks.contents cell = some before)
    (global : before.level = levelOne) (exists_ : state.banks.contents other = some displaced)
    (fitsOther : wordFits other before.value = true) (fits : wordFits cell value = true) :
    ∃ begun assigned final, state.beginGroup .simple 1 = .ok begun ∧
      begun.assign cell value .local = .ok assigned ∧
      assigned.endGroup .simple { dense := [], sparse := [] } = .ok final ∧
      final.environment cell = some value := by
  obtain ⟨begun, beginning⟩ : ∃ begun, state.beginGroup .simple 1 = .ok begun := by
    unfold DenseState.beginGroup
    simp only [settled.groups, settled.sequence, List.length_nil]
    rw [if_neg (by decide), if_neg (Nat.not_le.mpr room), if_neg (by decide)]
    exact ⟨_, rfl⟩
  obtain ⟨frame, kinds, level, lays, banks⟩ := (Lays.of_settled settled).beginGroup beginning
  have level : frame.level = 2 := level
  rw [← banks] at found exists_
  obtain ⟨assigned, assigning⟩ := assign_of_contents found fits .local
  obtain ⟨earlier, changed, same, written, shape⟩ := assign_eq_ok assigning
  rw [found] at same
  cases same
  have current : begun.currentLevel = frame.level := lays.currentLevel.trans level.symm
  have saves : begun.savedLevel .local before.level = some frame.level := by
    simp [savedLevel, current, level, global, levelOne]
  let record := Mutation.new cell before (some frame.level)
  have ready : begun.Ready record := ⟨⟨displaced, by
    change begun.banks.contents (JournalCell.pack cell).unpack = _
    rw [aliased]
    exact exists_⟩, by
    change wordFits (JournalCell.pack cell).unpack before.value = true
    rw [aliased]
    exact fitsOther⟩
  have laid := lays.assignSaved written saves ready
  rw [← shape] at laid
  obtain ⟨final, ending, _, values⟩ := laid.endGroup { dense := [], sparse := [] }
  rw [show frame.kind = .simple from kinds] at ending
  refine ⟨begun, assigned, final, beginning, assigning, ending, ?_⟩
  have survived : unwound cell [record] (value, begun.assignedLevel .local) =
      (value, begun.assignedLevel .local) := by
    apply unwound_unsaved
    intro saved member
    rw [List.mem_singleton.mp member]
    change (JournalCell.pack cell).unpack ≠ cell
    rw [aliased]
    exact apart
  have kept : final.levelled cell = some (value, begun.assignedLevel .local) := by
    rw [values, shape, levelled_written written, if_pos rfl]
    exact congrArg some survived
  rw [← map_levelled, kept]
  rfl

/-- Two nested groups: the outer one assigns locally, the inner one locally and
globally. -/
theorem grouping_is_scoping_nested :
    ∃ (outer first inner second both : DenseState plainReferences),
      (new 16 () : DenseState plainReferences).beginGroup .simple 1 = .ok outer ∧
      outer.assign (.count 300) (.integer 7) .local = .ok first ∧
      first.beginGroup .semiSimple 2 = .ok inner ∧
      inner.assign (.count 300) (.integer 8) .local = .ok second ∧
      second.assign (.count 7) (.integer 5) .global = .ok both ∧
      both.environment (.count 300) = some (.integer 8) ∧
      ∃ left closed frame, both.endGroup .semiSimple { dense := [], sparse := [] } = .ok left ∧
        left.environment (.count 300) = some (.integer 7) ∧
        left.environment (.count 7) = some (.integer 5) ∧ left.groups = [frame] ∧
        left.endGroup frame.kind { dense := [], sparse := [] } = .ok closed ∧
        closed.environment (.count 300) = some (.integer 0) ∧
        closed.environment (.count 7) = some (.integer 5) := by
  have start : Scoped StateCell.Representable (new 16 () : DenseState plainReferences) _ :=
    .start (@settled_new plainReferences 16 ())
  have sparse : StateCell.Representable (.count 300) := trivial
  have dense : StateCell.Representable (.count 7) := trivial
  obtain ⟨outer, first, inner, second, both, begun, assigned, nested, again, globally⟩ :
      ∃ outer first inner second both,
        (new 16 () : DenseState plainReferences).beginGroup .simple 1 = .ok outer ∧
        outer.assign (.count 300) (.integer 7) .local = .ok first ∧
        first.beginGroup .semiSimple 2 = .ok inner ∧
        inner.assign (.count 300) (.integer 8) .local = .ok second ∧
        second.assign (.count 7) (.integer 5) .global = .ok both :=
    ⟨_, _, _, _, _, rfl, rfl, rfl, rfl, rfl⟩
  have run := Scoped.assign (.assign (.beginGroup (.assign (.beginGroup start begun) sparse
    assigned) nested) sparse again) dense globally
  refine ⟨outer, first, inner, second, both, begun, assigned, nested, again, globally, ?_⟩
  obtain ⟨⟨_, frames⟩, _, ends⟩ := grouping_is_scoping run
  obtain ⟨shown, _⟩ := List.cons.inj frames
  refine ⟨by rw [← shown]; rfl, ?_⟩
  obtain ⟨left, ending⟩ : ∃ left,
      both.endGroup .semiSimple { dense := [], sparse := [] } = .ok left := by
    cases begun
    cases assigned
    cases nested
    cases again
    cases globally
    exact ends _ _ rfl _
  have run := Scoped.endGroup run ending
  obtain ⟨⟨_, frames⟩, count, ends⟩ := grouping_is_scoping run
  obtain ⟨outside, _⟩ := List.cons.inj frames
  obtain ⟨frame, alone⟩ := List.length_eq_one_iff.mp (Nat.succ.inj count).symm
  obtain ⟨closed, closing⟩ := ends _ _ alone { dense := [], sparse := [] }
  have run := Scoped.endGroup run closing
  obtain ⟨⟨_, frames⟩, _, _⟩ := grouping_is_scoping run
  obtain ⟨restored, _⟩ := List.cons.inj frames
  exact ⟨left, closed, frame, ending, by rw [← outside]; rfl, by rw [← outside]; rfl, alone,
    closing, by rw [← restored]; rfl, by rw [← restored]; rfl⟩

/-- A parameter of 19 bits assigned in a group keeps its value behind the group. -/
theorem scoping_loses_wide_parameter :
    ∃ (start begun assigned final : DenseState plainReferences)
      (frames : List (Environment plainReferences)),
      twoFonts = .ok start ∧ start.beginGroup .simple 1 = .ok begun ∧
        begun.assign (.fontRuntime (.dimen 0 262145)) (.dimension 5) .local = .ok assigned ∧
        assigned.endGroup .simple { dense := [], sparse := [] } = .ok final ∧
        Scoped (fun _ => True) final frames ∧
        frames.map (fun environment => environment (.fontRuntime (.dimen 0 262145))) =
          [some (.dimension 0)] ∧
        final.environment (.fontRuntime (.dimen 0 262145)) = some (.dimension 5) := by
  obtain ⟨first, start, fonts, installing, adding, wide, narrow⟩ := twoFonts_ok
  have settled := ((@settled_new plainReferences 16 ()).grow (.font installing)).grow (.font adding)
  obtain ⟨begun, assigned, final, beginning, assigning, ending, survived⟩ :=
    aliased_assignment_survives settled (by
        cases installing
        cases adding
        decide)
      (show (JournalCell.pack (.fontRuntime (.dimen 0 262145))).unpack = .fontRuntime (.dimen 1 1) by
        decide)
      (by decide) wide rfl narrow rfl (show wordFits _ (.dimension 5) = true from rfl)
  refine ⟨start, begun, assigned, final, [start.environment], fonts, beginning, assigning, ending,
    .endGroup (.assign (.beginGroup (.start settled) beginning) trivial assigning) ending, ?_,
    survived⟩
  rw [List.map_singleton, environment, wide]
  rfl

end DenseState

end Umber.State
