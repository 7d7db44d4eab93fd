import Umber.Boxes.Durable
import Umber.Lib.Except

/-! What the operations on durable boxes do to the saves of the open groups. -/

set_option autoImplicit false

namespace Umber.Boxes

open ExceptLib
open Umber.State (AssignmentScope levelOne)

namespace DurableBoxState

variable {α : Type} {state next : DurableBoxState α}

/-- A computation that leaves the open groups and their saves as they were. -/
def Keeps {β : Type} (groups : List DurableGroup)
    (computation : Checked (β × DurableBoxState α)) : Prop :=
  ∀ result next, computation = .ok (result, next) → next.groups = groups

namespace Keeps

variable {β γ : Type} {groups : List DurableGroup}

theorem ok (result : β) (same : state.groups = groups) :
    Keeps groups (.ok (result, state) : Checked (β × DurableBoxState α)) := by
  intro other next done
  cases done
  exact same

theorem bind {first : Checked (β × DurableBoxState α)}
    {rest : β × DurableBoxState α → Checked (γ × DurableBoxState α)} (keeps : Keeps groups first)
    (later : ∀ result middle, middle.groups = groups → Keeps groups (rest (result, middle))) :
    Keeps groups (first >>= rest) := by
  intro result next done
  obtain ⟨middle, here, done⟩ := bind_eq_ok.mp done
  exact later middle.1 middle.2 (keeps middle.1 middle.2 here) result next done

theorem read {first : Checked γ} {rest : γ → Checked (β × DurableBoxState α)}
    (later : ∀ result, first = .ok result → Keeps groups (rest result)) :
    Keeps groups (first >>= rest) := by
  intro result next done
  obtain ⟨middle, here, done⟩ := bind_eq_ok.mp done
  exact later middle here result next done

end Keeps

variable {value : Option DurableOwnerId}

theorem retireValue_groups (retired : state.retireValue value = .ok next) :
    next.groups = state.groups := by
  cases value with
  | none =>
    cases retired
    rfl
  | some id => ?_
  obtain ⟨owners, _, kept⟩ := bind_eq_ok.mp retired
  cases pure_eq_ok.mp kept
  rfl

theorem copyValue_keeps (value : Option DurableOwnerId) :
    Keeps state.groups (state.copyValue value) := by
  cases value with
  | none => exact .ok _ rfl
  | some id => ?_
  refine .read fun closure _ => .read fun source _ => ?_
  dsimp only
  split
  · exact .ok _ rfl
  · exact .ok _ rfl

theorem stageCopies_keeps (before : Option DurableOwnerId) (forCheckpoint forGroup : Bool) :
    Keeps state.groups (state.stageCopies before forCheckpoint forGroup) := by
  unfold stageCopies
  cases forCheckpoint
  all_goals
    refine .bind (by first | exact copyValue_keeps before | exact .ok _ rfl)
      fun copied middle same => ?_
    cases copied with
    | none => exact .ok _ same
    | some checkpointCopy => ?_
    cases forGroup
    all_goals
      refine .bind (by first | exact same ▸ copyValue_keeps before | exact .ok _ same)
        fun copied last kept => ?_
      cases copied with
      | none =>
        exact .read fun retired retiring => .ok _ ((retireValue_groups retiring).trans kept)
      | some groupCopy => exact .ok _ kept

theorem copyMutations_keeps (mutations : List DurableMutation) {groups : List DurableGroup}
    (same : state.groups = groups) : Keeps groups (state.copyMutations mutations) := by
  induction mutations generalizing state with
  | nil => exact .ok _ same
  | cons mutation rest ih => ?_
  refine .bind (same ▸ copyValue_keeps mutation.alternate) fun copied middle kept => ?_
  cases copied with
  | none => exact .ok _ kept
  | some alternate => exact .bind (ih kept) fun copies last done => .ok _ done

theorem retainGroup_keeps (group : DurableGroup) :
    Keeps state.groups (state.retainGroup group) := by
  unfold retainGroup
  split
  · refine .bind ?_ fun copy last kept => .ok _ kept
    exact .bind (copyMutations_keeps group.entries rfl) fun entries last kept => .ok _ kept
  · exact .ok _ rfl

def Records (state next : DurableBoxState α) (saves : Bool) (index level position : Nat) : Prop :=
  if saves then
    ∃ (group : DurableGroup) (outer : List DurableGroup) (alternate : Option DurableOwnerId),
      state.groups = group :: outer ∧
        next.groups =
          { group with
            entries := group.entries ++
              [{ index, alternate, alternateLevel := level, groupSavePosition := position }] } ::
            outer
  else next.groups = state.groups

variable {index level position : Nat}

theorem recordGroupSave_records {alternate : Option DurableOwnerId}
    (recorded : state.recordGroupSave index alternate level position = .ok next) :
    Records state next true index level position := by
  unfold recordGroupSave at recorded
  split at recorded
  · cases recorded
  rename_i group outer groups
  cases recorded
  exact ⟨group, outer, _, groups, rfl⟩

theorem recordCheckpoint_groups (index level : Nat) (alternate : Option DurableOwnerId)
    (recorded : Bool) :
    (if recorded then state.recordCheckpoint index alternate level else state).groups =
      state.groups := by
  cases recorded <;> rfl

theorem recordOperation_groups (index level : Nat) (alternate : Option DurableOwnerId)
    (recorded : Bool) :
    (if recorded then state.recordOperation index alternate level else state).groups =
      state.groups := by
  cases recorded <;> rfl

theorem Records.congr {earlier last : DurableBoxState α} {saves : Bool}
    {index level position : Nat} (records : Records state next saves index level position)
    (before : state.groups = earlier.groups) (after : last.groups = next.groups) :
    Records earlier last saves index level position := by
  unfold Records at records ⊢
  rw [after, ← before]
  exact records

theorem recordBefore_records {before : DurableBoxCell} {forCheckpoint forGroup forOperation : Bool}
    {copies : Option DurableOwnerId × Option DurableOwnerId}
    (recorded : state.recordBefore index before forCheckpoint forGroup forOperation position
      copies = .ok next) : Records state next forGroup index before.level position := by
  cases forGroup with
  | false =>
    obtain ⟨saved, saving, recorded⟩ := bind_eq_ok.mp recorded
    cases saving
    cases pure_eq_ok.mp recorded
    change _ = _
    rw [recordOperation_groups, recordCheckpoint_groups]
  | true => ?_
  obtain ⟨saved, saving, recorded⟩ := bind_eq_ok.mp recorded
  cases pure_eq_ok.mp recorded
  exact (recordGroupSave_records saving).congr (recordCheckpoint_groups _ _ _ _)
    (recordOperation_groups _ _ _ _)

theorem installMutation_records {saves : Bool}
    (installed : state.installMutation index value level saves position = .ok (true, next)) :
    Records state next saves index (state.cell index).level position := by
  unfold installMutation at installed
  dsimp only at installed
  split at installed
  · cases installed
  obtain ⟨staged, staging, installed⟩ := bind_eq_ok.mp installed
  have earlier := stageCopies_keeps _ _ _ staged.1 staged.2 staging
  cases copies : staged.1 with
  | none =>
    rw [copies] at installed
    cases pure_eq_ok.mp installed
  | some copied => ?_
  rw [copies] at installed
  dsimp only at installed
  split at installed
  · rename_i quiet
    obtain ⟨retired, retiring, installed⟩ := bind_eq_ok.mp installed
    cases pure_eq_ok.mp installed
    have unsaved : saves = false := by
      revert quiet
      cases saves <;> simp
    rw [unsaved]
    exact (retireValue_groups retiring).trans earlier
  obtain ⟨recorded, recording, installed⟩ := bind_eq_ok.mp installed
  cases pure_eq_ok.mp installed
  exact (recordBefore_records recording).congr earlier rfl

/-- A binding in a scope is saved at the level of the register. -/
theorem installInScope_records {earlier : DurableBoxState α} {scope : AssignmentScope}
    (installed : state.installInScope index value scope level position = .ok (true, next))
    (groups : state.groups = earlier.groups) (registers : state.registers = earlier.registers) :
    Records earlier next (assignmentSaves scope level (earlier.cell index).level) index
      (earlier.cell index).level position := by
  have same : state.cell index = earlier.cell index := congrArg (·.get index) registers
  have records := installMutation_records installed
  rw [same] at records
  exact records.congr groups rfl

theorem restoreSave_groups {mutation : DurableMutation}
    (restored : state.restoreSave mutation = .ok (true, next)) : next.groups = state.groups := by
  unfold restoreSave at restored
  split at restored
  · obtain ⟨retired, retiring, restored⟩ := bind_eq_ok.mp restored
    cases pure_eq_ok.mp restored
    exact retireValue_groups retiring
  · exact installMutation_records restored

end DurableBoxState

end Umber.Boxes
