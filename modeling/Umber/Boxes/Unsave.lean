import Umber.Boxes.Durable

/-! The unsave of a group: one reverse walk over the saves of the scalar journal and of the
durable boxes. -/

set_option autoImplicit false

namespace Umber.Boxes

open Umber.State

inductive UnsaveError where
  | state (error : StateError)
  | panic (panic : Panic)
  | allocationFailed
  | saveOverflow
  | unfinished

abbrev Unsaving (β : Type) := Except UnsaveError β

def liftState {β : Type} : Except StateError β → Unsaving β
  | .ok value => .ok value
  | .error error => .error (.state error)

def liftChecked {β : Type} : Checked β → Unsaving β
  | .ok value => .ok value
  | .error panic => .error (.panic panic)

/-! ## Restorations -/

inductive GroupRestorationOutcome where
  | restored
  | retained

inductive GroupRestorationCell where
  | scalar (cell : StateCell)
  | boxRegister (index : Nat)

inductive GroupRestorationValue (R : References) (α : Type) where
  | word (word : StateWord R)
  | nodeList (closure : Option (DurableNodeClosure α))

structure GroupRestorationEntry (R : References) (α : Type) where
  cell : GroupRestorationCell
  saved : GroupRestorationValue R α
  live : GroupRestorationValue R α
  outcome : GroupRestorationOutcome

structure GroupRestorations (R : References) (α : Type) where
  frame : GroupFrame
  entries : List (GroupRestorationEntry R α)

structure DurableGroupRestoration (α : Type) where
  index : Nat
  saved : Option (DurableNodeClosure α)
  live : Option (DurableNodeClosure α)
  outcome : GroupRestorationOutcome

def DurableGroupRestoration.entry {R : References} {α : Type}
    (restored : DurableGroupRestoration α) : GroupRestorationEntry R α :=
  { cell := .boxRegister restored.index
    saved := .nodeList restored.saved
    live := .nodeList restored.live
    outcome := restored.outcome }

def restoreGroupMutation {R : References} {α : Type} (state : DenseState R) (saved : Mutation R) :
    Except StateError (GroupRestorationEntry R α × DenseState R) := do
  let current ← state.readCell saved.cell
  let next ← state.restoreGroupMutation saved
  let retained := current.level = levelOne
  pure
    ({ cell := .scalar saved.cell
       saved := .word saved.before
       live := .word (if retained then current.value else saved.before)
       outcome := if retained then .retained else .restored },
     next)

namespace DurableBoxState

variable {α : Type}

def metadata (state : DurableBoxState α) : Option DurableOwnerId →
    Checked (Option (DurableNodeClosure α))
  | none => .ok none
  | some id => do
    let closure ← state.owners.owner id
    pure (some closure)

def restoreMutation (state : DurableBoxState α) (mutation : DurableMutation) :
    Unsaving (DurableGroupRestoration α × DurableBoxState α) := do
  let saved ← liftChecked (state.metadata mutation.alternate)
  let retained := (state.cell mutation.index).level = levelOne
  let (restored, state) ← liftChecked (state.restoreSave mutation)
  if !restored then .error .allocationFailed
  else
    let live ← liftChecked (state.metadata (state.cell mutation.index).value)
    pure
      ({ index := mutation.index
         saved
         live
         outcome := if retained then .retained else .restored },
       state)

end DurableBoxState

/-! ## The saves of a box group -/

def rposition {β : Type} (test : β → Bool) : List β → Option Nat
  | [] => none
  | value :: rest =>
    match rposition test rest with
    | some index => some (index + 1)
    | none => if test value then some 0 else none

def DurableMutation.isSparse (mutation : DurableMutation) : Bool := 255 < mutation.index

/-- The box saves of one group during its unsave, with a cursor on the dense ones and one on
the sparse ones. -/
structure BoxUnsave (α : Type) where
  state : DurableBoxState α
  group : DurableGroup
  retained : Option DurableGroup
  dense : Option Nat
  sparse : Option Nat

namespace BoxUnsave

variable {α : Type}

def len (boxes : BoxUnsave α) : Nat := boxes.group.entries.length

def key (boxes : BoxUnsave α) (index : Nat) : Option Nat :=
  boxes.group.entries[index]?.map fun entry => entry.groupSavePosition <<< 32 ||| index

def cursor (boxes : BoxUnsave α) (sparse : Bool) : Option Nat :=
  if sparse then boxes.sparse else boxes.dense

def nextKey (boxes : BoxUnsave α) (sparse : Bool) : Option Nat :=
  (boxes.cursor sparse).bind boxes.key

def sparseBoundary (boxes : BoxUnsave α) : Option Nat :=
  (boxes.group.entries.findIdx? DurableMutation.isSparse).bind boxes.key

def before (boxes : BoxUnsave α) (index : Nat) (sparse : Bool) : Option Nat :=
  rposition (fun entry => entry.isSparse == sparse) (boxes.group.entries.take index)

def setCursor (boxes : BoxUnsave α) (sparse : Bool) (cursor : Option Nat) : BoxUnsave α :=
  if sparse then { boxes with sparse := cursor } else { boxes with dense := cursor }

def restore (boxes : BoxUnsave α) (sparse : Bool) :
    Unsaving (DurableGroupRestoration α × BoxUnsave α) :=
  match boxes.cursor sparse with
  | none => .error (.panic .noEntry)
  | some index =>
    match boxes.group.entries[index]? with
    | none => .error (.panic .noEntry)
    | some mutation => do
      let (restored, state) ← boxes.state.restoreMutation mutation
      let entries := boxes.group.entries.set index { mutation with alternate := none }
      let boxes := { boxes with state, group := { boxes.group with entries } }
      pure (restored, boxes.setCursor sparse (boxes.before index sparse))

def finish (boxes : BoxUnsave α) : Unsaving (DurableBoxState α) :=
  if boxes.dense.isSome || boxes.sparse.isSome then .error .unfinished
  else
    .ok { boxes.state with
      retainedGroups := boxes.state.retainedGroups ++ boxes.retained.toList }

end BoxUnsave

def DurableBoxState.beginUnsave {α : Type} (state : DurableBoxState α) (level : Nat) :
    Unsaving (BoxUnsave α) :=
  match state.groups with
  | [] => .error (.panic .noGroup)
  | group :: outer =>
    if group.level ≠ level then .error (.panic .noGroup)
    else if 4294967296 < group.entries.length then .error .saveOverflow
    else do
      let (retained, state) ← liftChecked (({ state with groups := outer }).retainGroup group)
      match retained with
      | none => .error .allocationFailed
      | some retained =>
        pure
          { state
            group
            retained := retained.head?
            dense := rposition (fun entry => !entry.isSparse) group.entries
            sparse := rposition (·.isSparse) group.entries }

/-! ## The walk -/

variable {R : References} {α : Type}

structure Walk (R : References) (α : Type) where
  state : DenseState R
  boxes : BoxUnsave α
  boxed : Bool
  boundary : Option Nat
  sparse : List (Nat × Mutation R)
  entries : List (GroupRestorationEntry R α)

namespace Walk

def nextKey (walk : Walk R α) (sparse : Bool) : Option Nat :=
  if walk.boxed then walk.boxes.nextKey sparse else none

def rounds (walk : Walk R α) : Nat := walk.boxes.len

def restoreScalar (walk : Walk R α) (saved : Mutation R) : Unsaving (Walk R α) := do
  let (entry, state) ← liftState (restoreGroupMutation walk.state saved)
  pure { walk with state, entries := walk.entries ++ [entry] }

def restoreBox (walk : Walk R α) (sparse : Bool) : Unsaving (Walk R α) := do
  let (restored, boxes) ← walk.boxes.restore sparse
  pure { walk with boxes, entries := walk.entries ++ [restored.entry] }

def restoreSparseBoxes (passes : Nat → Bool) : Nat → Walk R α → Unsaving (Walk R α)
  | 0, walk => .ok walk
  | rounds + 1, walk =>
    if (walk.nextKey true).any passes then do
      let walk ← walk.restoreBox true
      restoreSparseBoxes passes rounds walk
    else .ok walk

/-- Restore deferred records, with the sparse box saves above each of them. -/
def restoreDeferred : List (Nat × Mutation R) → Walk R α → Unsaving (Walk R α)
  | [], walk => restoreSparseBoxes (fun _ => true) walk.rounds walk
  | (index, saved) :: later, walk => do
    let walk ← restoreSparseBoxes (scalarKey index < ·) walk.rounds walk
    let walk ← walk.restoreScalar saved
    restoreDeferred later walk

def restoreSparse (walk : Walk R α) : Unsaving (Walk R α) :=
  restoreDeferred walk.sparse { walk with sparse := [] }

def restoreSparseWhen (walk : Walk R α) (passed : Bool) : Unsaving (Walk R α) :=
  if passed then do
    let walk ← walk.restoreSparse
    pure { walk with boundary := none }
  else .ok walk

def restoreBoxesAbove (limit : Nat) : Nat → Walk R α → Unsaving (Walk R α)
  | 0, walk => .ok walk
  | rounds + 1, walk =>
    match (walk.nextKey false).filter (limit < ·) with
    | none => .ok walk
    | some key => do
      let walk ← walk.restoreSparseWhen (walk.boundary.any (key < ·))
      let walk ← walk.restoreBox false
      restoreBoxesAbove limit rounds walk

def restoreEntry (walk : Walk R α) (frame : GroupFrame) (index : Nat) :
    JournalEntry R → Unsaving (Walk R α)
  | .groupEnter _ => .ok walk
  | .mutation saved =>
    if saved.savedAt = some frame.level then
      if isExtendedRegisterCell saved.cell then
        .ok { walk with sparse := walk.sparse ++ [(index, saved)] }
      else walk.restoreScalar saved
    else .ok walk

/-- What one position of the journal does once the box saves above it are restored. -/
def settleEntry (walk : Walk R α) (frame : GroupFrame) (entry : JournalEntry R) (index : Nat) :
    Unsaving (Walk R α) := do
  let walk ← walk.restoreSparseWhen (walk.boundary.any (scalarKey index < ·))
  let walk ← walk.restoreEntry frame index entry
  walk.restoreSparseWhen (walk.boundary = some (scalarKey index))

def unsaveEntries (frame : GroupFrame) :
    List (JournalEntry R × Nat) → Walk R α → Unsaving (Walk R α)
  | [], walk => .ok walk
  | (entry, index) :: earlier, walk => do
    let walk ← restoreBoxesAbove (scalarKey index) walk.rounds walk
    let walk ← walk.settleEntry frame entry index
    unsaveEntries frame earlier walk

end Walk

/-! ## The end of a group -/

structure Stores (R : References) (α : Type) where
  state : DenseState R
  boxes : DurableBoxState α

namespace Stores

def unsave (state : DenseState R) (frame : GroupFrame) (boxes : BoxUnsave α) :
    Unsaving (GroupRestorations R α × DenseState R × BoxUnsave α) := do
  let boundary :=
    leastKey ((state.journal.groupSparseStart frame).map scalarKey)
      (if boxes.len = 0 then none else boxes.sparseBoundary)
  let records := (state.journal.activeSequence.zipIdx.drop frame.journalStart).reverse
  let walk ← Walk.unsaveEntries frame records
    { state, boxes, boxed := boxes.len ≠ 0, boundary, sparse := [], entries := [] }
  let walk ← Walk.restoreBoxesAbove 0 walk.rounds walk
  let walk ← walk.restoreSparse
  let journal ← liftState (walk.state.journal.recordGroupExitWithRecords frame)
  pure
    ({ frame, entries := walk.entries },
     { walk.state with groups := walk.state.groups.tail, journal },
     walk.boxes)

def endGroupWithBoxes (stores : Stores R α) (expected : GroupKind) :
    Unsaving (GroupRestorations R α × Stores R α) := do
  let frame ← liftState (stores.state.closingGroup expected)
  let boxes ← stores.boxes.beginUnsave frame.level
  let (restorations, state, boxes) ← unsave stores.state frame boxes
  let boxes ← boxes.finish
  pure (restorations, { state, boxes })

def beginGroup (stores : Stores R α) (kind : GroupKind) (enteredLine : Nat) :
    Except StateError (Stores R α) := do
  let state ← stores.state.beginGroup kind enteredLine
  pure { state, boxes := stores.boxes.beginGroup state.currentLevel }

def saveStackOrderPosition (stores : Stores R α) : Nat :=
  stores.state.journal.activeSequence.length

end Stores

end Umber.Boxes
