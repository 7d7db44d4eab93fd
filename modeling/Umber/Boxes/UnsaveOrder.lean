import Umber.Boxes.Unsave

/-! The saves of the open groups in the order in which they were made, and the order in which
the end of a group restores them. -/

set_option autoImplicit false

namespace Umber.Boxes

open Umber.State

variable {R : References} {α : Type}

def GroupRestorationCell.isSparse : GroupRestorationCell → Bool
  | .scalar cell => isExtendedRegisterCell cell
  | .boxRegister index => 255 < index

/-- The order in which the saves of a group are restored: the dense ones backward, and all
sparse ones backward at the place of the first of them. -/
def unsaveOrder {β : Type} (isSparse : β → Bool) (saves : List β) : List β :=
  let earlier := saves.takeWhile fun save => !isSparse save
  let later := saves.dropWhile fun save => !isSparse save
  (later.filter fun save => !isSparse save).reverse ++ (later.filter isSparse).reverse ++
    earlier.reverse

/-- A save of a group: the cell of a scalar with its record, or the record of a box. -/
inductive Save (R : References) where
  | scalar (cell : StateCell) (record : Mutation R)
  | box (record : DurableMutation)

namespace Save

def cell : Save R → GroupRestorationCell
  | .scalar cell _ => .scalar cell
  | .box record => .boxRegister record.index

def isSparse (save : Save R) : Bool := save.cell.isSparse

@[simp] theorem isSparse_scalar (cell : StateCell) (record : Mutation R) :
    (Save.scalar cell record).isSparse = isExtendedRegisterCell cell := rfl

@[simp] theorem isSparse_box (record : DurableMutation) :
    (Save.box record : Save R).isSparse = record.isSparse := rfl

end Save

namespace Stores

def visit (stores : Stores R α) :
    Save R → Unsaving (GroupRestorationEntry R α × Stores R α)
  | .scalar _ record => do
    let restored ← liftState (restoreGroupMutation stores.state record)
    pure (restored.1, { stores with state := restored.2 })
  | .box record => do
    let restored ← stores.boxes.restoreMutation record
    pure (restored.1.entry, { stores with boxes := restored.2 })

def visitAll (stores : Stores R α) :
    List (Save R) → Unsaving (List (GroupRestorationEntry R α) × Stores R α)
  | [] => .ok ([], stores)
  | save :: later => do
    let visited ← stores.visit save
    let rest ← visited.2.visitAll later
    pure (visited.1 :: rest.1, rest.2)

def endGroupInOrder (stores : Stores R α) (expected : GroupKind) (saves : List (Save R)) :
    Unsaving (GroupRestorations R α × Stores R α) := do
  let frame ← liftState (stores.state.closingGroup expected)
  let boxes ← stores.boxes.beginUnsave frame.level
  let visited ← ({ stores with boxes := boxes.state }).visitAll saves
  let journal ← liftState (visited.2.state.journal.recordGroupExitWithRecords frame)
  pure
    ({ frame, entries := visited.1 },
     { state := { visited.2.state with groups := visited.2.state.groups.tail, journal }
       boxes := { visited.2.boxes with
         retainedGroups := visited.2.boxes.retainedGroups ++ boxes.retained.toList } })

inductive BindsBox (stores : Stores R α) (index : Nat) (scope : AssignmentScope) :
    DurableBoxState α → Prop
  | assign {value : Option (DurableNodeClosure α)} {boxes : DurableBoxState α} :
      stores.boxes.assignWithGroupPosition index value scope stores.state.currentLevel
          stores.saveStackOrderPosition = .ok (true, boxes) →
        BindsBox stores index scope boxes
  | pageLoan {closure : DurableNodeClosure α} {boxes : DurableBoxState α} :
      stores.boxes.assignWithPageLoan index closure scope stores.state.currentLevel
          stores.saveStackOrderPosition = .ok (true, boxes) →
        BindsBox stores index scope boxes
  | outputCarrier {closure : DurableNodeClosure α} {boxes : DurableBoxState α} :
      stores.boxes.assignOutputCarrier index closure scope stores.state.currentLevel
          stores.saveStackOrderPosition = .ok (true, boxes) →
        BindsBox stores index scope boxes
  | registerTake {take : UniqueBoxRegisterTake} {boxes : DurableBoxState α} :
      stores.boxes.finishUniqueRegisterTake take index scope stores.state.currentLevel
          stores.saveStackOrderPosition = .ok (true, boxes) →
        BindsBox stores index scope boxes

structure SameSaves (stores other : Stores R α) : Prop where
  groups : other.state.groups = stores.state.groups
  sequence : other.state.journal.activeSequence = stores.state.journal.activeSequence
  marks : other.state.journal.activeGroups = stores.state.journal.activeGroups
  boxes : other.boxes.groups.map (fun group => (group.level, group.entries)) =
    stores.boxes.groups.map fun group => (group.level, group.entries)

def saving (cell : GroupRestorationCell) (saved : Bool) :
    List (List GroupRestorationCell) → List (List GroupRestorationCell)
  | [] => []
  | saves :: outer => (if saved then saves ++ [cell] else saves) :: outer

/-- Runs of the two stores, with the cells that the open groups saved, in the order in which
they did. A step without saves and the rollback of an operation resume at the groups of a point
that was reached before. -/
inductive Saved (assignable : StateCell → Prop) :
    Stores R α → List (List GroupRestorationCell) → Prop
  | start {stores : Stores R α} :
      stores.state.groups = [] → stores.state.journal.activeSequence = [] →
        stores.state.journal.activeGroups = [] → stores.boxes.groups = [] →
        Saved assignable stores []
  | assign {stores : Stores R α} {groups : List (List GroupRestorationCell)} {cell : StateCell}
      {before : BankCell (StateWord R)} {value : StateWord R} {scope : AssignmentScope}
      {state : DenseState R} :
      Saved assignable stores groups → assignable cell → stores.state.readCell cell = .ok before →
        stores.state.assign cell value scope = .ok state →
        Saved assignable { stores with state }
          (saving (.scalar cell)
            (DurableBoxState.assignmentSaves scope stores.state.currentLevel before.level) groups)
  | bindBox {stores : Stores R α} {groups : List (List GroupRestorationCell)} {index : Nat}
      {scope : AssignmentScope} {boxes : DurableBoxState α} :
      Saved assignable stores groups → stores.BindsBox index scope boxes →
        Saved assignable { stores with boxes }
          (saving (.boxRegister index)
            (DurableBoxState.assignmentSaves scope stores.state.currentLevel
              (stores.boxes.cell index).level) groups)
  | beginGroup {stores next : Stores R α} {groups : List (List GroupRestorationCell)}
      {kind : GroupKind} {line : Nat} :
      Saved assignable stores groups → stores.beginGroup kind line = .ok next →
        Saved assignable next ([] :: groups)
  | endGroup {stores next : Stores R α} {saves : List GroupRestorationCell}
      {outer : List (List GroupRestorationCell)} {kind : GroupKind}
      {restorations : GroupRestorations R α} :
      Saved assignable stores (saves :: outer) →
        stores.endGroupWithBoxes kind = .ok (restorations, next) →
        Saved assignable next outer
  | resume {stores other : Stores R α} {groups : List (List GroupRestorationCell)} :
      Saved assignable stores groups → stores.SameSaves other → Saved assignable other groups

end Stores

end Umber.Boxes
