import Umber.Boxes.DurableProperties
import Umber.Boxes.UnsaveOrderProperties
import Umber.State.ScopingProperties

/-! In every run the end of a group restores its saves in order. -/

set_option autoImplicit false

namespace Umber.Boxes

open ExceptLib Umber.State SaveJournal DurableBoxState

variable {R : References} {α : Type}

/-! ## Orders -/

variable {β : Type}

theorem unsaveOrder_map {γ : Type} (place : β → γ) {isSparse : γ → Bool} (saves : List β) :
    (unsaveOrder (fun save => isSparse (place save)) saves).map place =
      unsaveOrder isSparse (saves.map place) := by
  unfold unsaveOrder
  simp only [List.map_append, List.map_reverse, List.takeWhile_map, List.dropWhile_map,
    List.filter_map, Function.comp_def]

/-- An order of the saves leaves none out and has none twice. -/
theorem unsaveOrder_perm (isSparse : β → Bool) (saves : List β) :
    (unsaveOrder isSparse saves).Perm saves := by
  let earlier := saves.takeWhile fun save => !isSparse save
  let later := saves.dropWhile fun save => !isSparse save
  have rest : ((later.filter fun save => !isSparse save).reverse ++
      (later.filter isSparse).reverse).Perm later := by
    refine ((List.reverse_perm _).append (List.reverse_perm _)).trans ?_
    exact List.perm_append_comm.trans (List.filter_append_perm isSparse later)
  calc unsaveOrder isSparse saves
    _ = ((later.filter fun save => !isSparse save).reverse ++ (later.filter isSparse).reverse) ++
          earlier.reverse := rfl
    _ |>.Perm (later ++ earlier) := rest.append (List.reverse_perm earlier)
    _ |>.Perm (earlier ++ later) := List.perm_append_comm
    _ = saves := List.takeWhile_append_dropWhile

/-! ## The saves of the open groups -/

def placesOf (groups : List DurableGroup) : List (Nat × List DurableMutation) :=
  groups.map fun group => (group.level, group.entries)

/-- The open groups with their saves, in the journal and in the boxes. -/
inductive Stacked :
    List (List GroupRestorationCell) → List GroupFrame → List GroupMark →
      List (Nat × List DurableMutation) → List (JournalEntry R) → Prop
  | nil : Stacked [] [] [] [] []
  | cons {outer : List (List GroupRestorationCell)} {frames : List GroupFrame}
      {marks : List GroupMark} {boxes : List (Nat × List DurableMutation)}
      {sequence : List (JournalEntry R)} {frame : GroupFrame} {mark : GroupMark}
      {saves : List (Save R)} {records : List (Mutation R)} {entries : List DurableMutation} :
      Stacked outer frames marks boxes sequence → frame.level = frames.length + 2 →
        frame.journalStart = sequence.length + 1 → mark.frame = frame →
        mark.start = sequence.length →
        mark.sparseStart = (records.findIdx? fun record => isExtendedRegisterCell record.cell).map
          (sequence.length + 1 + ·) →
        Interleaved frame.level (sequence.length + 1) saves records entries →
        Stacked (saves.map Save.cell :: outer) (frame :: frames) (mark :: marks)
          ((frame.level, entries) :: boxes) (sequence ++ .groupEnter frame :: records.map .mutation)

namespace Stacked

variable {groups : List (List GroupRestorationCell)} {frames : List GroupFrame}
  {marks : List GroupMark} {boxes : List (Nat × List DurableMutation)}
  {sequence : List (JournalEntry R)} {frame : GroupFrame}

theorem scalar {cell : StateCell} {record : Mutation R}
    (stacked : Stacked groups (frame :: frames) marks boxes sequence) (keyed : record.cell = cell)
    (savedAt : record.savedAt = some frame.level) :
    Stacked (Stores.saving (.scalar cell) true groups) (frame :: frames)
      (countEntry marks sequence.length record.cell) boxes
      (sequence ++ [.mutation record]) := by
  cases stacked with
  | @cons outer _ marks boxes sequence _ mark saves records entries under level position named
      start sparseStart interleaved =>
      have extended := interleaved.scalar keyed savedAt
      have next := @cons R outer frames marks boxes sequence frame
        { mark with
          entries := mark.entries + 1
          sparseStart :=
            if mark.sparseStart.isNone && isExtendedRegisterCell record.cell then
              some (sequence ++ JournalEntry.groupEnter frame ::
                records.map JournalEntry.mutation).length
            else mark.sparseStart }
        (saves ++ [.scalar cell record]) (records ++ [record]) entries under level position named
        start ?_ extended
      · rw [List.map_append, List.map_append, List.map_cons, List.map_nil, List.map_cons,
          List.map_nil] at next
        rw [List.append_assoc]
        exact next
      rw [List.findIdx?_append, sparseStart]
      cases found : records.findIdx? fun record => isExtendedRegisterCell record.cell with
      | some index => simp
      | none => ?_
      cases sparse : isExtendedRegisterCell record.cell with
      | true =>
        simp [sparse]
        omega
      | false => simp [sparse]

theorem box {level : Nat} {entries : List DurableMutation} {record : DurableMutation}
    (stacked : Stacked groups frames marks ((level, entries) :: boxes) sequence)
    (position : record.groupSavePosition = sequence.length) :
    Stacked (Stores.saving (.boxRegister record.index) true groups) frames marks
      ((level, entries ++ [record]) :: boxes) sequence := by
  cases stacked with
  | @cons outer frames marks _ sequence frame mark saves records _ under level start named marked
      sparseStart interleaved =>
      have here : record.groupSavePosition = sequence.length + 1 + records.length := by
        rw [position, List.length_append, List.length_cons, List.length_map]
        omega
      have next := cons under level start named marked sparseStart (interleaved.box here)
      rw [List.map_append, List.map_cons, List.map_nil] at next
      exact next

end Stacked

namespace Stores

structure Innermost (stores : Stores R α) (frame : GroupFrame) (mark : GroupMark)
    (earlier : List (JournalEntry R)) (saves : List (Save R)) (records : List (Mutation R))
    (entries : List DurableMutation) : Prop where
  frames : stores.state.groups.head? = some frame
  marks : stores.state.journal.activeGroups.head? = some mark
  places : (placesOf stores.boxes.groups).head? = some (frame.level, entries)
  sequence : stores.state.journal.activeSequence =
    earlier ++ .groupEnter frame :: records.map .mutation
  position : frame.journalStart = earlier.length + 1
  named : mark.frame = frame
  start : mark.start = earlier.length
  sparseStart : mark.sparseStart =
    (records.findIdx? fun record => isExtendedRegisterCell record.cell).map
      (earlier.length + 1 + ·)
  interleaved : Interleaved frame.level (earlier.length + 1) saves records entries

def Holds (stores : Stores R α) (groups : List (List GroupRestorationCell)) : Prop :=
  Stacked groups stores.state.groups stores.state.journal.activeGroups
    (placesOf stores.boxes.groups) stores.state.journal.activeSequence

variable {stores next : Stores R α} {groups : List (List GroupRestorationCell)}

theorem Holds.same (holds : stores.Holds groups) (same : stores.SameSaves next) :
    next.Holds groups := by
  unfold Holds placesOf
  rw [same.groups, same.marks, same.boxes, same.sequence]
  exact holds

variable {cells : List GroupRestorationCell} {outer : List (List GroupRestorationCell)}

theorem Holds.innermost (holds : stores.Holds (cells :: outer)) :
    ∃ (frame : GroupFrame) (mark : GroupMark) (earlier : List (JournalEntry R))
      (saves : List (Save R)) (records : List (Mutation R)) (entries : List DurableMutation),
      stores.Innermost frame mark earlier saves records entries ∧ saves.map Save.cell = cells ∧
        Stacked outer stores.state.groups.tail stores.state.journal.activeGroups.tail
          (placesOf stores.boxes.groups).tail earlier := by
  unfold Holds at holds
  generalize frames : stores.state.groups = groups at holds
  generalize marks : stores.state.journal.activeGroups = below at holds
  generalize places : placesOf stores.boxes.groups = boxes at holds
  generalize sequence : stores.state.journal.activeSequence = entries at holds
  cases holds with
  | cons under level position named start sparseStart interleaved => ?_
  refine ⟨_, _, _, _, _, _, ⟨?_, ?_, ?_, sequence, position, named, start, sparseStart,
    interleaved⟩, rfl, under⟩
  · rw [frames]
    rfl
  · rw [marks]
    rfl
  rw [places]
  rfl

theorem Holds.start (frames : stores.state.groups = [])
    (sequence : stores.state.journal.activeSequence = [])
    (marks : stores.state.journal.activeGroups = []) (boxes : stores.boxes.groups = []) :
    stores.Holds [] := by
  unfold Holds
  rw [frames, sequence, marks, boxes]
  exact .nil

variable {kind : GroupKind}

theorem Holds.beginGroup {line : Nat} (holds : stores.Holds groups)
    (begun : stores.beginGroup kind line = .ok next) : next.Holds ([] :: groups) := by
  obtain ⟨state, beginning, begun⟩ := bind_eq_ok.mp begun
  cases pure_eq_ok.mp begun
  obtain ⟨frame, _, level, position, rfl⟩ := DenseState.beginGroup_eq_ok beginning
  exact @Stacked.cons R groups _ _ _ _ frame _ [] [] [] holds level position rfl rfl rfl .nil

/-! ## Assignments -/

theorem saving_false (cell : GroupRestorationCell) : saving cell false groups = groups := by
  cases groups with
  | nil => rfl
  | cons saves outer => rfl

variable {scope : AssignmentScope} {level : Nat}

theorem in_group
    (saves : DurableBoxState.assignmentSaves scope stores.state.currentLevel level = true) :
    ∃ frame frames, stores.state.groups = frame :: frames ∧
      stores.state.currentLevel = frame.level := by
  cases groups : stores.state.groups with
  | nil =>
    unfold DenseState.currentLevel at saves
    rw [groups] at saves
    simp [DurableBoxState.assignmentSaves] at saves
  | cons frame frames => ?_
  refine ⟨frame, frames, rfl, ?_⟩
  unfold DenseState.currentLevel
  rw [groups]

theorem Holds.assign (holds : stores.Holds groups) {cell : StateCell}
    (representable : cell.Representable) {before : BankCell (StateWord R)} {value : StateWord R}
    {scope : AssignmentScope} {state : DenseState R}
    (found : stores.state.readCell cell = .ok before)
    (assigned : stores.state.assign cell value scope = .ok state) :
    ({ stores with state } : Stores R α).Holds (saving (.scalar cell)
        (DurableBoxState.assignmentSaves scope stores.state.currentLevel before.level) groups) := by
  obtain ⟨earlier, banks, contained, _, rfl⟩ := DenseState.assign_eq_ok assigned
  have same := Except.ok.inj ((Banks.contents_eq_some.mp contained).symm.trans found)
  subst same
  have levels : stores.state.savedLevel scope earlier.level =
      if DurableBoxState.assignmentSaves scope stores.state.currentLevel earlier.level then
        some stores.state.currentLevel
      else none := rfl
  unfold Holds
  dsimp only
  cases saves : DurableBoxState.assignmentSaves scope stores.state.currentLevel earlier.level with
  | false =>
    rw [saves] at levels
    obtain ⟨sequence, marks⟩ :=
      @DenseState.assignedJournal_unsaved R stores.state cell scope earlier levels
    rw [sequence, marks, saving_false]
    exact holds
  | true => ?_
  rw [saves, if_pos rfl] at levels
  obtain ⟨frame, frames, shape, current⟩ := in_group saves
  have needed : stores.state.journal.needsMutation earlier.saveSerial
      (some stores.state.currentLevel) = true := by
    simp [needsMutation]
  have journal : stores.state.assignedJournal cell scope earlier =
      stores.state.journal.recordMutation
        (.new cell earlier (some stores.state.currentLevel)) := by
    unfold DenseState.assignedJournal
    simp only [levels, needed, if_true]
  obtain ⟨sequence, marks⟩ := recordMutation_saved stores.state.journal
    (.new cell earlier (some stores.state.currentLevel)) rfl
  unfold Holds at holds
  rw [shape] at holds
  rw [journal, sequence, marks, shape]
  exact holds.scalar (Mutation.cell_new representable earlier _) (congrArg some current)

variable {index : Nat}

theorem BindsBox.records {boxes : DurableBoxState α} (bound : stores.BindsBox index scope boxes) :
    DurableBoxState.Records stores.boxes boxes
      (DurableBoxState.assignmentSaves scope stores.state.currentLevel
        (stores.boxes.cell index).level)
      index (stores.boxes.cell index).level stores.saveStackOrderPosition := by
  cases bound with
  | @assign value _ assigned =>
    cases value with
    | none => exact installInScope_records assigned rfl rfl
    | some closure => exact installInScope_records assigned rfl rfl
  | pageLoan assigned =>
    unfold DurableBoxState.assignWithPageLoan at assigned
    dsimp only at assigned
    split at assigned
    · exact installInScope_records assigned rfl rfl
    · exact installInScope_records assigned rfl rfl
  | outputCarrier assigned =>
    unfold DurableBoxState.assignOutputCarrier at assigned
    split at assigned
    · cases assigned
    obtain ⟨result, installed, assigned⟩ := bind_eq_ok.mp assigned
    dsimp only at assigned
    split at assigned
    · rename_i succeeded
      cases pure_eq_ok.mp assigned
      have shape : result = (true, result.2) := Prod.ext succeeded rfl
      rw [shape] at installed
      exact installInScope_records installed rfl rfl
    obtain ⟨retired, _, assigned⟩ := bind_eq_ok.mp assigned
    cases pure_eq_ok.mp assigned
  | registerTake assigned => ?_
  obtain ⟨loan, _, assigned⟩ := bind_eq_ok.mp assigned
  obtain ⟨result, installed, assigned⟩ := bind_eq_ok.mp assigned
  dsimp only at assigned
  split at assigned
  · rename_i succeeded
    cases pure_eq_ok.mp assigned
    have shape : result = (true, result.2) := Prod.ext succeeded rfl
    rw [shape] at installed
    exact (installInScope_records installed rfl rfl).congr rfl rfl
  split at assigned
  · cases assigned
  · cases pure_eq_ok.mp assigned

theorem Holds.bindBox (holds : stores.Holds groups) {boxes : DurableBoxState α}
    (bound : stores.BindsBox index scope boxes) : ({ stores with boxes } : Stores R α).Holds
      (saving (.boxRegister index) (DurableBoxState.assignmentSaves scope stores.state.currentLevel
          (stores.boxes.cell index).level) groups) := by
  have records := bound.records
  unfold DurableBoxState.Records at records
  unfold Holds at holds ⊢
  cases saves : DurableBoxState.assignmentSaves scope stores.state.currentLevel
      (stores.boxes.cell index).level with
  | false =>
    rw [saves] at records
    rw [saving_false]
    dsimp only
    rw [records]
    exact holds
  | true => ?_
  rw [saves] at records
  obtain ⟨group, outer, alternate, shape, next⟩ := records
  rw [shape] at holds
  dsimp only
  rw [next]
  exact @Stacked.box R groups _ _ _ _ group.level group.entries
    { index
      alternate
      alternateLevel := (stores.boxes.cell index).level
      groupSavePosition := stores.saveStackOrderPosition } holds rfl

/-! ## The end of a group -/

theorem SameSaves.refl (stores : Stores R α) : stores.SameSaves stores := ⟨rfl, rfl, rfl, rfl⟩

theorem SameSaves.trans {between : Stores R α} (first : stores.SameSaves between)
    (second : between.SameSaves next) : stores.SameSaves next :=
  ⟨second.groups.trans first.groups, second.sequence.trans first.sequence,
    second.marks.trans first.marks, second.boxes.trans first.boxes⟩

variable {state : DenseState R}

theorem restoreGroupMutation_same {last : DenseState R} {record : Mutation R}
    (restored : state.restoreGroupMutation record = .ok last) :
    last.groups = state.groups ∧ last.journal.activeSequence = state.journal.activeSequence ∧
      last.journal.activeGroups = state.journal.activeGroups := by
  obtain ⟨current, _, restored⟩ := bind_eq_ok.mp restored
  split at restored
  · cases pure_eq_ok.mp restored
    exact ⟨rfl, rfl, rfl⟩
  obtain ⟨written, writing, restored⟩ := bind_eq_ok.mp restored
  obtain ⟨banks, _, writing⟩ := bind_eq_ok.mp writing
  cases pure_eq_ok.mp writing
  cases pure_eq_ok.mp restored
  obtain ⟨sequence, marks⟩ := recordMutation_unsaved state.journal
    (.new record.cell current none) rfl
  exact ⟨rfl, sequence, marks⟩

variable {β : Type} {result : β}

theorem liftState_eq_ok {computation : Except StateError β}
    (lifted : liftState computation = .ok result) : computation = .ok result := by
  cases computation with
  | error error => cases lifted
  | ok value =>
    cases lifted
    rfl

theorem liftChecked_eq_ok {computation : Checked β} (lifted : liftChecked computation = .ok result) :
    computation = .ok result := by
  cases computation with
  | error error => cases lifted
  | ok value =>
    cases lifted
    rfl

theorem restoreMutation_same {state last : DurableBoxState α} {mutation : DurableMutation}
    {restored : DurableGroupRestoration α}
    (restoring : state.restoreMutation mutation = .ok (restored, last)) :
    restored.index = mutation.index ∧ last.groups = state.groups := by
  obtain ⟨saved, _, restoring⟩ := bind_eq_ok.mp restoring
  obtain ⟨result, saving, restoring⟩ := bind_eq_ok.mp restoring
  dsimp only at restoring
  split at restoring
  · cases restoring
  rename_i succeeded
  obtain ⟨live, _, restoring⟩ := bind_eq_ok.mp restoring
  cases pure_eq_ok.mp restoring
  have shape : result = (true, result.2) := Prod.ext (by simpa using succeeded) rfl
  have saved := liftChecked_eq_ok saving
  rw [shape] at saved
  exact ⟨rfl, restoreSave_groups saved⟩

/-- A visit restores the cell of its save, and makes no save. -/
theorem visit_eq_ok {save : Save R} {entry : GroupRestorationEntry R α}
    (keyed : ∀ cell record, save = .scalar cell record → record.cell = cell)
    (visited : stores.visit save = .ok (entry, next)) :
    entry.cell = save.cell ∧ stores.SameSaves next := by
  cases save with
  | scalar cell record =>
    obtain ⟨restored, restoring, visited⟩ := bind_eq_ok.mp visited
    cases pure_eq_ok.mp visited
    obtain ⟨current, _, restoring⟩ := bind_eq_ok.mp (liftState_eq_ok restoring)
    obtain ⟨last, writing, restoring⟩ := bind_eq_ok.mp restoring
    cases pure_eq_ok.mp restoring
    obtain ⟨groups, sequence, marks⟩ := restoreGroupMutation_same writing
    exact ⟨congrArg GroupRestorationCell.scalar (keyed cell record rfl), groups, sequence, marks,
      rfl⟩
  | box record => ?_
  obtain ⟨restored, restoring, visited⟩ := bind_eq_ok.mp visited
  cases pure_eq_ok.mp visited
  obtain ⟨index, groups⟩ := restoreMutation_same restoring
  refine ⟨congrArg GroupRestorationCell.boxRegister index, rfl, rfl, rfl, ?_⟩
  exact congrArg (List.map fun group => (group.level, group.entries)) groups

variable {saves : List (Save R)}

theorem visitAll_eq_ok {entries : List (GroupRestorationEntry R α)}
    (keyed : ∀ cell record, .scalar cell record ∈ saves → record.cell = cell)
    (visited : stores.visitAll saves = .ok (entries, next)) :
    entries.map (·.cell) = saves.map Save.cell ∧ stores.SameSaves next := by
  induction saves generalizing stores entries with
  | nil =>
    cases visited
    exact ⟨rfl, .refl _⟩
  | cons save later ih => ?_
  obtain ⟨first, visiting, visited⟩ := bind_eq_ok.mp visited
  obtain ⟨rest, continued, visited⟩ := bind_eq_ok.mp visited
  cases pure_eq_ok.mp visited
  obtain ⟨here, same⟩ := visit_eq_ok (fun cell record shape =>
    keyed cell record (shape ▸ List.mem_cons_self)) visiting
  obtain ⟨cells, kept⟩ := ih
    (fun cell record member => keyed cell record (List.mem_cons_of_mem _ member)) continued
  exact ⟨by rw [List.map_cons, List.map_cons, here, cells], same.trans kept⟩

variable {frame : GroupFrame}

theorem closingGroup_eq_ok (closing : state.closingGroup kind = .ok frame) :
    ∃ outer, state.groups = frame :: outer := by
  unfold DenseState.closingGroup at closing
  split at closing
  · cases closing
  rename_i innermost outer shape
  split at closing
  · cases closing
    exact ⟨outer, shape⟩
  · cases closing

variable {boxes : BoxUnsave α}

theorem beginUnsave_eq_ok {state : DurableBoxState α}
    (begun : state.beginUnsave level = .ok boxes) :
    ∃ (group : DurableGroup) (outer : List DurableGroup), state.groups = group :: outer ∧
      boxes.group = group ∧ group.entries.length ≤ 4294967296 ∧ boxes.state.groups = outer ∧
      boxes.dense = rposition (fun entry => !entry.isSparse) group.entries ∧
      boxes.sparse = rposition (·.isSparse) group.entries := by
  unfold DurableBoxState.beginUnsave at begun
  split at begun
  · cases begun
  rename_i group outer shape
  split at begun
  · cases begun
  split at begun
  · cases begun
  rename_i few
  obtain ⟨retained, retaining, begun⟩ := bind_eq_ok.mp begun
  have kept := retainGroup_keeps group retained.1 retained.2 (liftChecked_eq_ok retaining)
  dsimp only at begun
  split at begun
  · cases begun
  cases pure_eq_ok.mp begun
  exact ⟨group, outer, shape, rfl, Nat.not_lt.mp few, kept, rfl, rfl⟩

def walkOf (state : DenseState R) (frame : GroupFrame) (boxes : BoxUnsave α) : Walk R α :=
  { state
    boxes
    boxed := boxes.len ≠ 0
    boundary :=
      leastKey ((state.journal.groupSparseStart frame).map scalarKey)
        (if boxes.len = 0 then none else boxes.sparseBoundary)
    sparse := []
    entries := [] }

theorem unsave_eq (state : DenseState R) (frame : GroupFrame) (boxes : BoxUnsave α) :
    unsave state frame boxes = (do
      let walk ← Walk.finishing frame
        (state.journal.activeSequence.zipIdx.drop frame.journalStart).reverse
        (walkOf state frame boxes)
      let journal ← liftState (walk.state.journal.recordGroupExitWithRecords frame)
      pure
        ({ frame, entries := walk.entries },
         { walk.state with groups := walk.state.groups.tail, journal },
         walk.boxes)) := by
  unfold unsave Walk.finishing
  rw [bind_assoc]
  refine congrArg _ (funext fun walk => ?_)
  dsimp only
  rw [bind_assoc]

theorem finish_eq (exhausted : ∀ sparse, boxes.cursor sparse = none) : boxes.finish =
      .ok { boxes.state with
        retainedGroups := boxes.state.retainedGroups ++ boxes.retained.toList } := by
  have dense : boxes.dense = none := exhausted false
  have sparse : boxes.sparse = none := exhausted true
  unfold BoxUnsave.finish
  rw [dense, sparse]
  rfl

variable {order : List (Save R)}

/-- An unsave whose walk visits saves in an order restores them one by one. -/
theorem endGroupWithBoxes_eq (visits : ∀ frame boxes, stores.state.closingGroup kind = .ok frame →
      stores.boxes.beginUnsave frame.level = .ok boxes → Walk.Performs (Walk.finishing frame
          (stores.state.journal.activeSequence.zipIdx.drop frame.journalStart).reverse
          (walkOf stores.state frame boxes))
        (walkOf stores.state frame boxes) order Walk.Exhausted) :
    stores.endGroupWithBoxes kind = stores.endGroupInOrder kind order := by
  unfold endGroupWithBoxes endGroupInOrder
  cases closing : stores.state.closingGroup kind with
  | error error => rfl
  | ok frame => ?_
  cases begun : stores.boxes.beginUnsave frame.level with
  | error error =>
    change (stores.boxes.beginUnsave frame.level >>= _) =
      (stores.boxes.beginUnsave frame.level >>= _)
    rw [begun]
    rfl
  | ok boxes => ?_
  have performs := visits frame boxes closing begun
  change (stores.boxes.beginUnsave frame.level >>= _) =
    (stores.boxes.beginUnsave frame.level >>= _)
  rw [begun, ok_bind, ok_bind, unsave_eq, bind_assoc]
  cases visited : visitAll { stores with boxes := boxes.state } order with
  | error error =>
    rw [performs.error visited]
    rfl
  | ok result => ?_
  obtain ⟨walk, walked, same, appended, retained, exhausted⟩ := performs.ok visited
  have state : walk.state = result.2.state := congrArg Stores.state same
  have store : walk.boxes.state = result.2.boxes := congrArg Stores.boxes same
  have entries : walk.entries = result.1 := appended
  rw [walked, ok_bind, ok_bind, state, entries]
  dsimp only
  cases liftState (result.2.state.journal.recordGroupExitWithRecords frame) with
  | error error => rfl
  | ok journal => ?_
  rw [ok_bind, ok_bind]
  change (walk.boxes.finish >>= _) = _
  rw [finish_eq exhausted, store, retained]
  rfl

variable {earlier : List (JournalEntry R)}

theorem positions_eq {base : Nat} (records : List (Mutation R))
    (position : base = earlier.length + 1) :
    ((earlier ++ JournalEntry.groupEnter frame :: records.map .mutation).zipIdx.drop base).reverse =
      Walk.positions base records := by
  have split_ : earlier ++ JournalEntry.groupEnter frame :: records.map .mutation =
      (earlier ++ [.groupEnter frame]) ++ records.map .mutation := by
    rw [List.append_assoc]
    rfl
  have length : ((earlier ++ [JournalEntry.groupEnter frame]).zipIdx).length = base := by
    rw [List.length_zipIdx, List.length_append, List.length_singleton, position]
  unfold Walk.positions
  rw [split_, List.zipIdx_append, ← length, List.drop_left, List.length_zipIdx, Nat.zero_add]

variable {entries : List DurableMutation}

/-- The walk stands at every save of the boxes when it starts. -/
theorem walkOf_faces (same : boxes.group.entries = entries)
    (dense : boxes.dense = rposition (fun entry => !entry.isSparse) entries)
    (sparse : boxes.sparse = rposition (·.isSparse) entries) :
    Walk.Faces (walkOf state frame boxes) entries fun _ => entries := by
  refine ⟨⟨congrArg (List.map placeOf) same, fun _ => List.prefix_rfl, ?_, ?_⟩, ?_⟩
  · intro _ index mutation found _
    change boxes.group.entries[index]? = some mutation
    rw [same]
    exact found
  · intro kind
    cases kind with
    | false =>
      have tests : (fun entry : DurableMutation => !entry.isSparse) =
          fun entry => entry.isSparse == false := by
        funext entry
        cases entry.isSparse <;> rfl
      exact dense.trans (congrArg (rposition · entries) tests)
    | true => ?_
    have tests : (fun entry : DurableMutation => entry.isSparse) =
        fun entry => entry.isSparse == true := by
      funext entry
      cases entry.isSparse <;> rfl
    exact sparse.trans (congrArg (rposition · entries) tests)
  cases entries with
  | nil => exact .inr rfl
  | cons first rest => ?_
  refine .inl (decide_eq_true ?_)
  unfold BoxUnsave.len
  rw [same]
  exact Nat.succ_ne_zero _

theorem sparseBoundary_eq :
    (if boxes.len = 0 then none else boxes.sparseBoundary) = boxBoundary boxes.group.entries := by
  split
  · rename_i empty
    rw [List.length_eq_zero_iff.mp empty]
    rfl
  · rfl

variable {mark : GroupMark}

/-- The walk at the end of a group visits its saves in order. -/
theorem Innermost.visits {records : List (Mutation R)}
    (innermost : stores.Innermost frame mark earlier saves records entries) {closed : GroupFrame}
    (closing : stores.state.closingGroup kind = .ok closed)
    (begun : stores.boxes.beginUnsave closed.level = .ok boxes) : Walk.Performs
      (Walk.finishing closed
        (stores.state.journal.activeSequence.zipIdx.drop closed.journalStart).reverse
        (walkOf stores.state closed boxes))
      (walkOf stores.state closed boxes) (unsaveOrder Save.isSparse saves) Walk.Exhausted := by
  obtain ⟨others, shape⟩ := closingGroup_eq_ok closing
  have same : closed = frame := by
    have frames := innermost.frames
    rw [shape] at frames
    exact Option.some.inj frames
  subst same
  obtain ⟨group, _, grouped, held, many, _, dense, sparse⟩ := beginUnsave_eq_ok begun
  have contents : group.entries = entries := by
    have places := innermost.places
    unfold placesOf at places
    rw [grouped] at places
    exact congrArg Prod.snd (Option.some.inj places)
  rw [contents] at many dense sparse
  have same : boxes.group.entries = entries := by rw [held, contents]
  have bounded : (walkOf stores.state closed boxes).boundary =
      boundaryOf closed.journalStart records entries := by
    have scalars : (stores.state.journal.groupSparseStart closed).map scalarKey =
        scalarBoundary closed.journalStart records := by
      obtain ⟨below, marks⟩ := List.head?_eq_some_iff.mp innermost.marks
      unfold groupSparseStart
      rw [marks]
      dsimp only
      rw [if_pos innermost.named, innermost.sparseStart, Option.map_map, ← innermost.position]
      rfl
    unfold walkOf boundaryOf
    dsimp only
    rw [scalars, sparseBoundary_eq, same]
  have interleaved := innermost.interleaved
  rw [← innermost.position] at interleaved
  rw [innermost.sequence, positions_eq records innermost.position]
  exact Walk.finishing_performs rfl interleaved many
    (by rw [innermost.position]; exact Nat.succ_pos _) (walkOf_faces same dense sparse) rfl bounded

/-- The end of the innermost group restores its saves one by one, in order. -/
theorem Holds.endGroup_eq (holds : stores.Holds (cells :: outer)) :
    ∃ saves : List (Save R), saves.map Save.cell = cells ∧
      (∀ cell record, .scalar cell record ∈ saves → record.cell = cell) ∧
      ∀ kind, stores.endGroupWithBoxes kind =
        stores.endGroupInOrder kind (unsaveOrder Save.isSparse saves) := by
  obtain ⟨_, _, _, saves, _, _, innermost, same, _⟩ := holds.innermost
  exact ⟨saves, same, fun _ _ member => innermost.interleaved.keyed member,
    fun _ => endGroupWithBoxes_eq fun _ _ closing begun => innermost.visits closing begun⟩

variable {restorations : GroupRestorations R α}

theorem Holds.endGroup (holds : stores.Holds (cells :: outer))
    (ended : stores.endGroupWithBoxes kind = .ok (restorations, next)) :
    restorations.entries.map (·.cell) = unsaveOrder GroupRestorationCell.isSparse cells ∧
      next.Holds outer := by
  obtain ⟨saves, same, keyed, ends⟩ := holds.endGroup_eq
  rw [ends kind] at ended
  obtain ⟨frame, closing, ended⟩ := bind_eq_ok.mp ended
  obtain ⟨boxes, begun, ended⟩ := bind_eq_ok.mp ended
  obtain ⟨result, visited, ended⟩ := bind_eq_ok.mp ended
  obtain ⟨journal, exited, ended⟩ := bind_eq_ok.mp ended
  cases pure_eq_ok.mp ended
  have members : ∀ cell record, .scalar cell record ∈ unsaveOrder Save.isSparse saves →
      record.cell = cell := fun cell record member =>
    keyed cell record ((unsaveOrder_perm Save.isSparse saves).mem_iff.mp member)
  obtain ⟨restored, kept⟩ := visitAll_eq_ok members visited
  constructor
  · have placed : (unsaveOrder Save.isSparse saves).map Save.cell =
        unsaveOrder GroupRestorationCell.isSparse (saves.map Save.cell) :=
      unsaveOrder_map Save.cell saves
    rw [restored, placed, same]
  obtain ⟨_, mark, earlier, _, _, _, innermost, _, under⟩ := holds.innermost
  obtain ⟨below, marks⟩ := List.head?_eq_some_iff.mp innermost.marks
  obtain ⟨group, others, grouped, _, _, boxed, _⟩ := beginUnsave_eq_ok begun
  have left : result.2.state.journal.activeGroups = mark :: below := kept.marks.trans marks
  have exited := liftState_eq_ok exited
  unfold recordGroupExitWithRecords at exited
  rw [left] at exited
  cases exited
  have sequence : result.2.state.journal.activeSequence.take mark.start = earlier := by
    rw [kept.sequence, innermost.sequence, innermost.start, List.take_left]
  have places : placesOf result.2.boxes.groups = (placesOf stores.boxes.groups).tail := by
    unfold placesOf
    rw [kept.boxes, grouped]
    dsimp only
    rw [boxed]
    rfl
  unfold Holds
  dsimp only
  rw [kept.groups, sequence, places]
  rw [marks] at under
  exact under

/-! ## Runs -/

theorem Saved.holds (run : Saved StateCell.Representable stores groups) : stores.Holds groups := by
  induction run with
  | start frames sequence marks boxes => exact .start frames sequence marks boxes
  | assign _ representable found assigned ih => exact ih.assign representable found assigned
  | bindBox _ bound ih => exact ih.bindBox bound
  | beginGroup _ begun ih => exact ih.beginGroup begun
  | endGroup _ ended ih => exact (ih.endGroup ended).2
  | resume _ same ih => exact ih.same same

/-! ## The cursors at the end -/

def Finishes {β : Type} (computation : Unsaving β) : Prop := computation ≠ .error .unfinished

theorem Finishes.bind {γ : Type} {first : Unsaving β} {rest : β → Unsaving γ}
    (finishes : Finishes first) (later : ∀ result, Finishes (rest result)) :
    Finishes (first >>= rest) := by
  cases first with
  | error error => exact fun stopped => finishes (congrArg Except.error (Except.error.inj stopped))
  | ok result => exact later result

theorem liftState_finishes (computation : Except StateError β) :
    Finishes (liftState computation) := by
  cases computation with
  | error error => exact fun stopped => by cases stopped
  | ok result => exact fun stopped => by cases stopped

theorem liftChecked_finishes (computation : Checked β) : Finishes (liftChecked computation) := by
  cases computation with
  | error error => exact fun stopped => by cases stopped
  | ok result => exact fun stopped => by cases stopped

theorem ok_finishes (result : β) : Finishes (.ok result : Unsaving β) :=
  fun stopped => by cases stopped

theorem visit_finishes (save : Save R) : Finishes (stores.visit save) := by
  cases save with
  | scalar cell record => exact (liftState_finishes _).bind fun _ => ok_finishes _
  | box record => ?_
  refine Finishes.bind ?_ fun _ => ok_finishes _
  refine (liftChecked_finishes _).bind fun saved => ?_
  refine (liftChecked_finishes _).bind fun result => ?_
  dsimp only
  split
  · exact fun stopped => by cases stopped
  · exact (liftChecked_finishes _).bind fun live => ok_finishes _

theorem visitAll_finishes (saves : List (Save R)) : Finishes (stores.visitAll saves) := by
  induction saves generalizing stores with
  | nil => exact ok_finishes _
  | cons save later ih => exact (visit_finishes save).bind fun _ => ih.bind fun _ => ok_finishes _

theorem beginUnsave_finishes (state : DurableBoxState α) (level : Nat) :
    Finishes (state.beginUnsave level) := by
  unfold DurableBoxState.beginUnsave
  split
  · exact fun stopped => by cases stopped
  split
  · exact fun stopped => by cases stopped
  split
  · exact fun stopped => by cases stopped
  refine (liftChecked_finishes _).bind fun retained => ?_
  dsimp only
  split
  · exact fun stopped => by cases stopped
  · exact ok_finishes _

theorem endGroupInOrder_finishes (kind : GroupKind) (order : List (Save R)) :
    Finishes (stores.endGroupInOrder kind order) :=
  (liftState_finishes _).bind fun _ => (beginUnsave_finishes _ _).bind fun _ =>
    (visitAll_finishes _).bind fun _ => (liftState_finishes _).bind fun _ => ok_finishes _

/-- In every run that assigns cells with an exact record, the end of a group restores each save
of the group once: the dense ones in reverse save order, and the sparse ones in reverse save
order at the place of the first of them. -/
theorem unsave_visits_in_order {saves : List GroupRestorationCell}
    {outer : List (List GroupRestorationCell)}
    (run : Saved StateCell.Representable stores (saves :: outer)) (kind : GroupKind) :
    (∃ recorded : List (Save R), recorded.map Save.cell = saves ∧ stores.endGroupWithBoxes kind =
          stores.endGroupInOrder kind (unsaveOrder Save.isSparse recorded)) ∧
      stores.endGroupWithBoxes kind ≠ .error .unfinished ∧
      ∀ restorations next, stores.endGroupWithBoxes kind = .ok (restorations, next) →
        restorations.entries.map (·.cell) = unsaveOrder GroupRestorationCell.isSparse saves ∧
          (restorations.entries.map (·.cell)).Perm saves := by
  obtain ⟨recorded, same, _, ends⟩ := run.holds.endGroup_eq
  refine ⟨⟨recorded, same, ends kind⟩, ?_, fun restorations next ended => ?_⟩
  · rw [ends kind]
    exact endGroupInOrder_finishes kind _
  have order := (run.holds.endGroup ended).1
  exact ⟨order, by rw [order]; exact unsaveOrder_perm _ _⟩

/-- A group that saves two classical and two extended registers in both stores. -/
theorem unsave_visits_in_order_registers : ∃ (stores next : Stores plainReferences Unit)
      (restorations : GroupRestorations plainReferences Unit), Saved StateCell.Representable stores
          [[.scalar (.count 300), .boxRegister 3, .boxRegister 300, .scalar (.count 5)]] ∧
        stores.endGroupWithBoxes .simple = .ok (restorations, next) ∧
        restorations.entries.map (·.cell) =
          [.scalar (.count 5), .boxRegister 3, .boxRegister 300, .scalar (.count 300)] := by
  let outside : Stores plainReferences Unit :=
    { state := .new 16 (), boxes := .new fun _ => true }
  have start : Saved StateCell.Representable outside [] := .start rfl rfl rfl rfl
  obtain ⟨begun, beginning⟩ : ∃ begun, outside.beginGroup .simple 1 = .ok begun := ⟨_, rfl⟩
  obtain ⟨state, assigning⟩ :
      ∃ state, begun.state.assign (.count 300) (.integer 7) .local = .ok state := by
    cases beginning
    exact ⟨_, rfl⟩
  obtain ⟨boxes, binding⟩ : ∃ boxes, begun.boxes.assignWithGroupPosition 3 none .local
      state.currentLevel ({ begun with state } : Stores _ _).saveStackOrderPosition =
        .ok (true, boxes) := by
    cases beginning
    cases assigning
    exact ⟨_, rfl⟩
  obtain ⟨more, extending⟩ : ∃ more, boxes.assignWithGroupPosition 300 none .local
      state.currentLevel ({ state, boxes } : Stores _ _).saveStackOrderPosition =
        .ok (true, more) := by
    cases beginning
    cases assigning
    cases binding
    exact ⟨_, rfl⟩
  obtain ⟨last, continuing⟩ :
      ∃ last, state.assign (.count 5) (.integer 7) .local = .ok last := by
    cases beginning
    cases assigning
    exact ⟨_, rfl⟩
  have inner := start.beginGroup beginning
  have first := inner.assign (show StateCell.Representable (.count 300) from trivial)
    (by cases beginning; rfl) assigning
  have second := first.bindBox (.assign binding)
  have third := second.bindBox (.assign extending)
  have run := third.assign (show StateCell.Representable (.count 5) from trivial)
    (by cases beginning; cases assigning; rfl) continuing
  have saves : Saved StateCell.Representable ({ state := last, boxes := more } : Stores _ Unit)
      [[.scalar (.count 300), .boxRegister 3, .boxRegister 300, .scalar (.count 5)]] := by
    cases beginning
    cases assigning
    cases binding
    cases extending
    cases continuing
    exact run
  obtain ⟨result, ending⟩ : ∃ result,
      ({ state := last, boxes := more } : Stores _ _).endGroupWithBoxes .simple = .ok result := by
    cases beginning
    cases assigning
    cases binding
    cases extending
    cases continuing
    exact exists_of_isOk (by decide +kernel)
  have order := ((unsave_visits_in_order saves .simple).2.2 result.1 result.2 ending).1
  exact ⟨_, result.2, result.1, saves, ending, order⟩

theorem endGroupInOrder_of_visited
    {result : List (GroupRestorationEntry R α) × Stores R α} {below : List GroupMark}
    (closing : stores.state.closingGroup kind = .ok frame)
    (begun : stores.boxes.beginUnsave frame.level = .ok boxes)
    (visited : visitAll { stores with boxes := boxes.state } order = .ok result)
    (marks : result.2.state.journal.activeGroups = mark :: below) :
    ∃ ended, stores.endGroupInOrder kind order = .ok ended := by
  unfold endGroupInOrder
  rw [closing]
  change ∃ ended, (stores.boxes.beginUnsave frame.level >>= _) = _
  rw [begun, ok_bind, visited, ok_bind]
  unfold recordGroupExitWithRecords
  rw [marks]
  exact ⟨_, rfl⟩

theorem endGroupInOrder_cells
    (keyed : ∀ cell record, .scalar cell record ∈ order → record.cell = cell)
    (ended : stores.endGroupInOrder kind order = .ok (restorations, next)) :
    restorations.entries.map (·.cell) = order.map Save.cell := by
  obtain ⟨frame, _, ended⟩ := bind_eq_ok.mp ended
  obtain ⟨boxes, _, ended⟩ := bind_eq_ok.mp ended
  obtain ⟨result, visited, ended⟩ := bind_eq_ok.mp ended
  obtain ⟨journal, _, ended⟩ := bind_eq_ok.mp ended
  cases pure_eq_ok.mp ended
  exact (visitAll_eq_ok keyed visited).1

/-- A group whose only save has a record that names another, global cell returns that cell. -/
theorem aliased_save_returns (outside : stores.state.groups = [])
    (sequence : stores.state.journal.activeSequence = [])
    (room : stores.state.nextGroupLineage + 1 < serialLimit)
    {cell aliased : StateCell} (alias_ : (JournalCell.pack cell).unpack = aliased)
    (dense : isExtendedRegisterCell aliased = false) {before displaced : BankCell (StateWord R)}
    {value : StateWord R} (found : stores.state.banks.contents cell = some before)
    (global : before.level = levelOne)
    (exists_ : stores.state.banks.contents aliased = some displaced)
    (fitsOther : wordFits aliased before.value = true) (fits : wordFits cell value = true) :
    ∃ (begun : Stores R α) (state : DenseState R) (restorations : GroupRestorations R α)
      (final : Stores R α),
      stores.beginGroup .simple 1 = .ok begun ∧ begun.state.readCell cell = .ok before ∧
        DurableBoxState.assignmentSaves .local begun.state.currentLevel before.level = true ∧
        begun.state.assign cell value .local = .ok state ∧
        ({ begun with state } : Stores R α).endGroupWithBoxes .simple = .ok (restorations, final) ∧
        restorations.entries.map (·.cell) = [.scalar aliased] := by
  obtain ⟨entered, beginning⟩ : ∃ entered, stores.state.beginGroup .simple 1 = .ok entered := by
    unfold DenseState.beginGroup
    simp only [outside, sequence, List.length_nil]
    rw [if_neg (by decide), if_neg (Nat.not_le.mpr room), if_neg (by decide)]
    exact ⟨_, rfl⟩
  have begins : stores.beginGroup .simple 1 =
      .ok { state := entered, boxes := stores.boxes.beginGroup entered.currentLevel } := by
    unfold beginGroup
    rw [beginning]
    rfl
  obtain ⟨frame, kinds, level, position, rfl⟩ := DenseState.beginGroup_eq_ok beginning
  let entered : DenseState R :=
    { stores.state with
      journal := stores.state.journal.recordGroupEnter frame
      groups := frame :: stores.state.groups
      nextGroupLineage := stores.state.nextGroupLineage + 1 }
  have levels : before.level ≠ frame.level := by
    rw [global, level, levelOne]
    omega
  have saves : DurableBoxState.assignmentSaves .local entered.currentLevel before.level = true := by
    have current : entered.currentLevel = frame.level := rfl
    rw [current]
    simp [DurableBoxState.assignmentSaves, level, global, levelOne]
  obtain ⟨state, assigning⟩ :=
    @DenseState.assign_of_contents R entered cell value before found fits .local
  obtain ⟨earlier, banks, same, written, shape⟩ := DenseState.assign_eq_ok assigning
  cases found.symm.trans same
  let record := Mutation.new cell before (some frame.level)
  have journal : entered.assignedJournal cell .local before =
      entered.journal.recordMutation record := by
    have saved : entered.savedLevel .local before.level = some frame.level := if_pos saves
    unfold DenseState.assignedJournal
    rw [saved]
    exact if_pos (by simp [needsMutation])
  obtain ⟨recorded, counted⟩ := recordMutation_saved entered.journal record rfl
  have keyed : record.cell = aliased := alias_
  have ready : ({ entered with banks, journal := entered.assignedJournal cell .local before } :
      DenseState R).Ready record := by
    have unwritten : entered.Ready record :=
      ⟨⟨displaced, by rw [keyed]; exact exists_⟩, by rw [keyed]; exact fitsOther⟩
    exact unwritten.written written
  have innermost : ({ state, boxes := stores.boxes.beginGroup frame.level } : Stores R α).Innermost
      frame
      { frame, start := stores.state.journal.activeSequence.length, entries := 1
        sparseStart := none }
      [] [.scalar aliased record] [record] [] := by
    subst shape
    refine ⟨rfl, ?_, rfl, ?_, ?_, rfl, ?_, ?_, ?_⟩
    · dsimp only
      rw [journal, counted, keyed]
      simp [countEntry, entered, recordGroupEnter, dense]
    · dsimp only
      rw [journal, recorded]
      simp [entered, recordGroupEnter, sequence]
    · rw [position, sequence]
    · rw [sequence]
    · simp [keyed, dense]
    have single := (@Interleaved.nil R frame.level 1).scalar keyed rfl
    exact single
  rw [← shape] at ready
  let inside : Stores R α := { state, boxes := stores.boxes.beginGroup frame.level }
  have single : unsaveOrder Save.isSparse [Save.scalar aliased record] =
      [.scalar aliased record] := by
    simp [unsaveOrder, dense]
  have ends : inside.endGroupWithBoxes .simple =
      inside.endGroupInOrder .simple [.scalar aliased record] := by
    rw [← single]
    exact endGroupWithBoxes_eq fun _ _ closing begun => innermost.visits closing begun
  obtain ⟨result, ending⟩ : ∃ result,
      inside.endGroupInOrder .simple [.scalar aliased record] = .ok result := by
    have closing : inside.state.closingGroup .simple = .ok frame := by
      have groups : state.groups = frame :: stores.state.groups := by rw [shape]
      unfold DenseState.closingGroup
      dsimp only [inside]
      rw [groups]
      exact if_pos kinds
    obtain ⟨unsaving, begun⟩ : ∃ unsaving,
        inside.boxes.beginUnsave frame.level = .ok unsaving := by
      unfold DurableBoxState.beginUnsave
      dsimp only [inside, DurableBoxState.beginGroup]
      rw [if_neg (not_not_intro rfl), if_neg (by simp)]
      exact ⟨_, rfl⟩
    obtain ⟨last, restoring, _⟩ := DenseState.restoreGroupMutation_unwinds ready
    obtain ⟨⟨current, contained⟩, _⟩ := ready
    obtain ⟨entry, visiting⟩ : ∃ entry,
        restoreGroupMutation (α := α) state record = .ok (entry, last) := by
      unfold restoreGroupMutation DenseState.readCell
      rw [Banks.contents_eq_some.mp contained, ok_bind, restoring]
      exact ⟨_, rfl⟩
    obtain ⟨_, _, kept⟩ := restoreGroupMutation_same restoring
    obtain ⟨below, marked⟩ := List.head?_eq_some_iff.mp innermost.marks
    have visits : visitAll { inside with boxes := unsaving.state } [.scalar aliased record] =
        .ok ([entry], { state := last, boxes := unsaving.state }) := by
      unfold visitAll visit
      dsimp only [inside]
      rw [visiting]
      rfl
    exact endGroupInOrder_of_visited closing begun visits (kept.trans marked)
  refine ⟨_, state, result.1, result.2, begins, Banks.contents_eq_some.mp found, saves, assigning,
    ends.trans ending, endGroupInOrder_cells (fun other named member => ?_) ending⟩
  cases List.mem_singleton.mp member
  exact keyed

/-- The entry for a parameter of 19 bits names another parameter. -/
theorem unsave_loses_wide_parameter : ∃ (stores final : Stores plainReferences Unit)
      (restorations : GroupRestorations plainReferences Unit),
      Saved (fun _ => True) stores [[.scalar (.fontRuntime (.dimen 0 262145))]] ∧
        stores.endGroupWithBoxes .simple = .ok (restorations, final) ∧
        restorations.entries.map (·.cell) = [.scalar (.fontRuntime (.dimen 1 1))] ∧
        ¬ (restorations.entries.map (·.cell)).Perm [.scalar (.fontRuntime (.dimen 0 262145))] := by
  obtain ⟨first, start, _, installing, adding, wide, narrow⟩ := DenseState.twoFonts_ok
  let outside : Stores plainReferences Unit := { state := start, boxes := .new fun _ => true }
  have groups : start.groups = [] := by
    cases installing
    cases adding
    rfl
  have sequence : start.journal.activeSequence = [] := by
    cases installing
    cases adding
    rfl
  have marks : start.journal.activeGroups = [] := by
    cases installing
    cases adding
    rfl
  obtain ⟨begun, state, restorations, final, beginning, found, saves, assigning, ending, cells⟩ :=
    @aliased_save_returns plainReferences Unit outside groups sequence
      (by
        cases installing
        cases adding
        decide)
      (.fontRuntime (.dimen 0 262145)) (.fontRuntime (.dimen 1 1)) (by decide) rfl _ _
      (.dimension 5) wide rfl narrow rfl rfl
  have run := ((Saved.start groups sequence marks rfl : Saved (fun _ => True) outside []).beginGroup
    beginning).assign trivial found assigning
  rw [saves] at run
  refine ⟨_, final, restorations, run, ending, cells, fun same => ?_⟩
  rw [cells] at same
  have equal := List.singleton_perm_singleton.mp same
  cases equal

end Stores

end Umber.Boxes
