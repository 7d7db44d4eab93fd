import Umber.Lib.Except
import Umber.Lib.SlotMap
import Umber.State.Dense

/-! Durable box owners and the registers that name them: assignments, takes, groups and
operations. -/

set_option autoImplicit false

namespace Umber.Boxes

open Umber.State (AssignmentScope levelOne)

/-! ## Owners -/

inductive Panic where
  | deadOwner
  | emptyOwner
  | occupiedOwner
  | noGroup
  | noOperation
  | wrongOperation
  | noEntry
  | wrongTake
  | pendingTake
  | invalidCursor
  | copyFailed
  | wrongFork
deriving DecidableEq

abbrev Checked (β : Type) := Except Panic β

/-! ## Closures -/

inductive BoxDimension where
  | width
  | height
  | depth

structure DurableNodeClosure (α : Type) where
  material : α
  width : Int
  height : Int
  depth : Int

/-! ## Owners -/

abbrev DurableOwnerId := SlotId

structure DurableOwner (α : Type) where
  lineage : Nat
  closure : Option (DurableNodeClosure α)

structure DurableOwnerStore (α : Type) where
  slots : SlotMap (DurableOwner α)
  nextLineage : Nat

namespace DurableOwnerStore

variable {α : Type}

def empty : DurableOwnerStore α := { slots := .empty, nextLineage := 0 }

def insertWithLineage (store : DurableOwnerStore α) (closure : DurableNodeClosure α)
    (lineage : Nat) : DurableOwnerId × DurableOwnerStore α :=
  (store.slots.nextId,
    { store with slots := store.slots.insert { lineage, closure := some closure } })

def insert (store : DurableOwnerStore α) (closure : DurableNodeClosure α) :
    DurableOwnerId × DurableOwnerStore α :=
  let lineage := store.nextLineage + 1
  { store with nextLineage := lineage }.insertWithLineage closure lineage

def slot (store : DurableOwnerStore α) (id : DurableOwnerId) : Checked (DurableOwner α) :=
  match store.slots.view id with
  | none => .error .deadOwner
  | some owner => .ok owner

def owner (store : DurableOwnerStore α) (id : DurableOwnerId) : Checked (DurableNodeClosure α) := do
  let owner ← store.slot id
  match owner.closure with
  | none => .error .emptyOwner
  | some closure => .ok closure

def retire (store : DurableOwnerStore α) (id : DurableOwnerId) : Checked (DurableOwnerStore α) :=
  match store.slots.retire id with
  | none => .error .deadOwner
  | some slots => .ok { store with slots }

end DurableOwnerStore

/-! ## Registers and journals -/

structure DurableBoxCell where
  value : Option DurableOwnerId
  level : Nat

def DurableBoxCell.void : DurableBoxCell := { value := none, level := levelOne }

structure DurableMutation where
  index : Nat
  alternate : Option DurableOwnerId
  alternateLevel : Nat
  groupSavePosition : Nat

structure DurableGroup where
  id : Nat
  parent : Nat
  level : Nat
  entries : List DurableMutation
  checkpointPinned : Bool

structure RegisterTakeLoan where
  source : Nat
  destination : Nat
  owner : DurableOwnerId
  serial : Nat
  destinationBinding : Option Nat

structure UniqueBoxRegisterTake where
  serial : Nat
  actionPosition : Nat
  operationDepth : Nat

structure DurableDimensionMutation where
  index : Nat
  owner : DurableOwnerId
  lineage : Nat
  dimension : BoxDimension
  previous : Int

inductive DurableOperationAction (α : Type) where
  | binding (position : Nat)
  | registerTake (loan : RegisterTakeLoan)
  | durableToPage (mutationPosition : Nat) (loan : DurableNodeClosure α)
  | pageToDurable (owner : DurableOwnerId)
  | outputCarrier (owner : DurableOwnerId)
  | dimension (mutation : DurableDimensionMutation)

structure CopyArena where
  allocates : Nat → Bool
  copies : Nat

/-- Register cells; one that was never written is void. -/
abbrev Registers := List (Nat × DurableBoxCell)

namespace Registers

def get (registers : Registers) (index : Nat) : DurableBoxCell :=
  (registers.lookup index).getD .void

def set (registers : Registers) (index : Nat) (cell : DurableBoxCell) : Registers :=
  match registers with
  | [] => [(index, cell)]
  | (other, current) :: rest =>
    if index = other then (other, cell) :: rest else (other, current) :: set rest index cell

end Registers

structure DurableBoxState (α : Type) where
  arena : CopyArena
  nextTakeSerial : Nat
  owners : DurableOwnerStore α
  registers : Registers
  checkpointEntries : List DurableMutation
  checkpointEntryBase : Nat
  scalarEntries : List DurableDimensionMutation
  scalarEntryBase : Nat
  scalarStamps : Nat → BoxDimension → Option Nat
  checkpointStamps : Nat → Option Nat
  checkpointEpoch : Nat
  checkpointAnchored : Bool
  /-- The open groups, the innermost one first. -/
  groups : List DurableGroup
  retainedGroups : List DurableGroup
  retainedGroupBase : Nat
  nextGroupId : Nat
  operationEntries : List DurableMutation
  operationActions : List (DurableOperationAction α)
  operationDepth : Nat

namespace DurableBoxState

variable {α : Type}

def new (allocates : Nat → Bool) : DurableBoxState α :=
  { arena := { allocates, copies := 0 }
    nextTakeSerial := 0
    owners := .empty
    registers := []
    checkpointEntries := []
    checkpointEntryBase := 0
    scalarEntries := []
    scalarEntryBase := 0
    scalarStamps := fun _ _ => none
    checkpointStamps := fun _ => none
    checkpointEpoch := 1
    checkpointAnchored := false
    groups := []
    retainedGroups := []
    retainedGroupBase := 0
    nextGroupId := 0
    operationEntries := []
    operationActions := []
    operationDepth := 0 }

def cell (state : DurableBoxState α) (index : Nat) : DurableBoxCell := state.registers.get index

def setCell (state : DurableBoxState α) (index : Nat) (cell : DurableBoxCell) : DurableBoxState α :=
  { state with registers := state.registers.set index cell }

def setValue (state : DurableBoxState α) (index : Nat) (value : Option DurableOwnerId) :
    DurableBoxState α :=
  state.setCell index { state.cell index with value }

def operationIsActive (state : DurableBoxState α) : Bool := state.operationDepth ≠ 0

/-! ## Owners -/

def insertOwner (state : DurableBoxState α) (closure : DurableNodeClosure α) :
    DurableOwnerId × DurableBoxState α :=
  let (id, owners) := state.owners.insert closure
  (id, { state with owners })

def insertOwner? (state : DurableBoxState α) :
    Option (DurableNodeClosure α) → Option DurableOwnerId × DurableBoxState α
  | none => (none, state)
  | some closure =>
    let (id, state) := state.insertOwner closure
    (some id, state)

def insertHistoricalCopy (state : DurableBoxState α) (lineage : Nat)
    (closure : DurableNodeClosure α) : DurableOwnerId × DurableBoxState α :=
  let (id, owners) := state.owners.insertWithLineage closure lineage
  (id, { state with owners })

def allocate (state : DurableBoxState α) : Bool × DurableBoxState α :=
  (state.arena.allocates state.arena.copies,
    { state with arena := { state.arena with copies := state.arena.copies + 1 } })

/-- A historical copy of a value, unless the arena has no room for it. -/
def copyValue (state : DurableBoxState α) (value : Option DurableOwnerId) :
    Checked (Option (Option DurableOwnerId) × DurableBoxState α) :=
  match value with
  | none => .ok (some none, state)
  | some id => do
    let closure ← state.owners.owner id
    let source ← state.owners.slot id
    let (fits, state) := state.allocate
    if fits then
      let (copy, state) := state.insertHistoricalCopy source.lineage closure
      pure (some (some copy), state)
    else pure (none, state)

def retireOwner (state : DurableBoxState α) (id : DurableOwnerId) : Checked (DurableBoxState α) := do
  let owners ← state.owners.retire id
  pure { state with owners }

def retireValue (state : DurableBoxState α) : Option DurableOwnerId → Checked (DurableBoxState α)
  | none => .ok state
  | some id => state.retireOwner id

/-! ## Bindings -/

def checkpointNeeded (state : DurableBoxState α) (index : Nat) : Bool :=
  state.checkpointAnchored && state.checkpointStamps index ≠ some state.checkpointEpoch

/-- The copies for the checkpoint lane and for the group lane, when the binding
they preserve moves into another lane. -/
def stageCopies (state : DurableBoxState α) (before : Option DurableOwnerId)
    (forCheckpoint forGroup : Bool) :
    Checked (Option (Option DurableOwnerId × Option DurableOwnerId) × DurableBoxState α) := do
  let (checkpointCopy, state) ← if forCheckpoint then state.copyValue before else .ok (some none, state)
  match checkpointCopy with
  | none => pure (none, state)
  | some checkpointCopy =>
    let (groupCopy, state) ← if forGroup then state.copyValue before else .ok (some none, state)
    match groupCopy with
    | none =>
      let state ← state.retireValue checkpointCopy
      pure (none, state)
    | some groupCopy => pure (some (checkpointCopy, groupCopy), state)

def recordCheckpoint (state : DurableBoxState α) (index : Nat) (alternate : Option DurableOwnerId)
    (alternateLevel : Nat) : DurableBoxState α :=
  { state with
    checkpointEntries :=
      state.checkpointEntries ++ [{ index, alternate, alternateLevel, groupSavePosition := 0 }]
    checkpointStamps := fun other =>
      if other = index then some state.checkpointEpoch else state.checkpointStamps other }

def recordGroupSave (state : DurableBoxState α) (index : Nat) (alternate : Option DurableOwnerId)
    (alternateLevel groupSavePosition : Nat) : Checked (DurableBoxState α) :=
  match state.groups with
  | [] => .error .noGroup
  | group :: outer =>
    .ok
      { state with
        groups :=
          { group with
            entries := group.entries ++ [{ index, alternate, alternateLevel, groupSavePosition }] } ::
            outer }

def recordOperation (state : DurableBoxState α) (index : Nat) (alternate : Option DurableOwnerId)
    (alternateLevel : Nat) : DurableBoxState α :=
  { state with
    operationEntries :=
      state.operationEntries ++ [{ index, alternate, alternateLevel, groupSavePosition := 0 }]
    operationActions := state.operationActions ++ [.binding state.operationEntries.length] }

/-- Hand the previous binding to the lanes that need it: the operation keeps the
owner itself, then the group, then the checkpoint. -/
def recordBefore (state : DurableBoxState α) (index : Nat) (before : DurableBoxCell)
    (forCheckpoint forGroup forOperation : Bool) (groupSavePosition : Nat)
    (copies : Option DurableOwnerId × Option DurableOwnerId) : Checked (DurableBoxState α) := do
  let state :=
    if forCheckpoint then
      state.recordCheckpoint index (if forGroup || forOperation then copies.1 else before.value)
        before.level
    else state
  let state ←
    if forGroup then
      state.recordGroupSave index (if forOperation then copies.2 else before.value) before.level
        groupSavePosition
    else .ok state
  pure (if forOperation then state.recordOperation index before.value before.level else state)

/-- Bind a register to a value. The result says whether the copies found room. -/
def installMutation (state : DurableBoxState α) (index : Nat) (value : Option DurableOwnerId)
    (level : Nat) (saves : Bool) (groupSavePosition : Nat) : Checked (Bool × DurableBoxState α) :=
  let forCheckpoint := state.checkpointNeeded index
  let forOperation := state.operationIsActive
  if saves && state.groups.isEmpty then .error .noGroup
  else do
    let before := state.cell index
    let (copies, state) ← state.stageCopies before.value
      (forCheckpoint && (saves || forOperation)) (saves && forOperation)
    match copies with
    | none => pure (false, state)
    | some copies =>
      let state := state.setCell index { value, level }
      if !forCheckpoint && !saves && !forOperation then
        let state ← state.retireValue before.value
        pure (true, state)
      else
        let state ← state.recordBefore index before forCheckpoint saves forOperation
          groupSavePosition copies
        pure (true, state)

def assignedLevel (scope : AssignmentScope) (currentLevel : Nat) : Nat :=
  match scope with
  | .global => levelOne
  | .local => currentLevel

def assignmentSaves (scope : AssignmentScope) (currentLevel beforeLevel : Nat) : Bool :=
  scope = .local && currentLevel ≠ levelOne && beforeLevel ≠ currentLevel

def installInScope (state : DurableBoxState α) (index : Nat) (value : Option DurableOwnerId)
    (scope : AssignmentScope) (currentLevel groupSavePosition : Nat) :
    Checked (Bool × DurableBoxState α) :=
  state.installMutation index value (assignedLevel scope currentLevel)
    (assignmentSaves scope currentLevel (state.cell index).level) groupSavePosition

def assignWithGroupPosition (state : DurableBoxState α) (index : Nat)
    (value : Option (DurableNodeClosure α)) (scope : AssignmentScope)
    (currentLevel groupSavePosition : Nat) : Checked (Bool × DurableBoxState α) :=
  let (value, state) := state.insertOwner? value
  state.installInScope index value scope currentLevel groupSavePosition

def pushAction (state : DurableBoxState α) (action : DurableOperationAction α) :
    DurableBoxState α :=
  { state with operationActions := state.operationActions ++ [action] }

def assignWithPageLoan (state : DurableBoxState α) (index : Nat) (closure : DurableNodeClosure α)
    (scope : AssignmentScope) (currentLevel groupSavePosition : Nat) :
    Checked (Bool × DurableBoxState α) :=
  let (owner, state) := state.insertOwner closure
  let state := if state.operationIsActive then state.pushAction (.pageToDurable owner) else state
  state.installInScope index (some owner) scope currentLevel groupSavePosition

/-- A rejected install returns the region of its carrier and retires the owner. -/
def assignOutputCarrier (state : DurableBoxState α) (index : Nat) (closure : DurableNodeClosure α)
    (scope : AssignmentScope) (currentLevel groupSavePosition : Nat) :
    Checked (Bool × DurableBoxState α) :=
  if !state.operationIsActive then .error .noOperation
  else
    let (owner, state) := state.insertOwner closure
    let state := state.pushAction (.outputCarrier owner)
    do
      let (installed, state) ←
        state.installInScope index (some owner) scope currentLevel groupSavePosition
      if installed then pure (true, state)
      else
        let state := { state with operationActions := state.operationActions.dropLast }
        let state ← state.retireOwner owner
        pure (false, state)

/-! ## Takes -/

def pendingTake (state : DurableBoxState α) (take : UniqueBoxRegisterTake) (destination : Nat) :
    Checked RegisterTakeLoan :=
  match state.operationActions[take.actionPosition]? with
  | some (.registerTake loan) =>
    if take.operationDepth = state.operationDepth ∧
        state.operationActions.length = take.actionPosition + 1 ∧ loan.serial = take.serial ∧
        loan.destination = destination ∧ loan.destinationBinding = none then
      .ok loan
    else .error .wrongTake
  | _ => .error .wrongTake

def finishUniqueRegisterTake (state : DurableBoxState α) (take : UniqueBoxRegisterTake)
    (destination : Nat) (scope : AssignmentScope) (currentLevel groupSavePosition : Nat) :
    Checked (Bool × DurableBoxState α) := do
  let loan ← state.pendingTake take destination
  let destinationBinding := state.operationEntries.length
  let (installed, state) ←
    state.installInScope destination (some loan.owner) scope currentLevel groupSavePosition
  if installed then
    pure (true,
      { state with
        operationActions :=
          state.operationActions.set take.actionPosition
            (.registerTake { loan with destinationBinding := some destinationBinding }) })
  else if (state.cell loan.source).value.isSome then .error .wrongTake
  else
    pure (false,
      ({ state with operationActions := state.operationActions.dropLast }).setValue loan.source
        (some loan.owner))

/-! ## Groups -/

def beginGroup (state : DurableBoxState α) (level : Nat) : DurableBoxState α :=
  let id := state.nextGroupId + 1
  { state with
    nextGroupId := id
    groups :=
      { id
        parent := (state.groups.head?.map DurableGroup.id).getD 0
        level
        entries := []
        checkpointPinned := false } :: state.groups }

def copyMutations (state : DurableBoxState α) :
    List DurableMutation → Checked (Option (List DurableMutation) × DurableBoxState α)
  | [] => .ok (some [], state)
  | mutation :: rest => do
    let (copy, state) ← state.copyValue mutation.alternate
    match copy with
    | none => pure (none, state)
    | some alternate =>
      let (copies, state) ← state.copyMutations rest
      pure (copies.map ({ mutation with alternate } :: ·), state)

def copyGroup (state : DurableBoxState α) (group : DurableGroup) :
    Checked (Option DurableGroup × DurableBoxState α) := do
  let (entries, state) ← state.copyMutations group.entries
  pure (entries.map fun entries => { group with entries, checkpointPinned := true }, state)

/-- One save of a group that ends. A register that was assigned globally keeps its
binding. -/
def restoreSave (state : DurableBoxState α) (mutation : DurableMutation) :
    Checked (Bool × DurableBoxState α) :=
  if (state.cell mutation.index).level = levelOne then do
    let state ← state.retireValue mutation.alternate
    pure (true, state)
  else
    state.installMutation mutation.index mutation.alternate mutation.alternateLevel false 0

def retainGroup (state : DurableBoxState α) (group : DurableGroup) :
    Checked (Option (List DurableGroup) × DurableBoxState α) :=
  if group.checkpointPinned then do
    let (copy, state) ← state.copyGroup group
    pure (copy.map ([·]), state)
  else .ok (some [], state)

end DurableBoxState

end Umber.Boxes
