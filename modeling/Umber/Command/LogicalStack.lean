import Umber.Command.PackedJournal

/-! Reversible stacks: popped rows stay in place until they are overwritten, and undo
records keep what a mark can still see. -/

set_option autoImplicit false

namespace Umber.Command

abbrev PayloadHandle := SlotId

/-- The mutable part of a stack element, captured and exchanged. -/
class LogicalStackElement (α : Type) (σ : outParam Type) where
  captureState : α → σ
  swapState : α → σ → α × σ

export LogicalStackElement (captureState swapState)

instance : LogicalStackElement Int Int where
  captureState value := value
  swapState value state := (state, value)

inductive ElementUndo (σ : Type) where
  | inlineState (index : Nat) (state : σ)
  | replacement (index : Nat) (payload : PayloadHandle)

def undoRecordsPerChunk : Nat := 16

structure LogicalStackMark where
  top : Nat
  undo : PackedJournalMark

structure LogicalStack (α σ : Type) where
  rows : List α
  top : Nat
  undo : PackedJournal (ElementUndo σ)
  displaced : SlotMap α
  fork : Option Nat
  recording : Bool
  interval : Nat
  touched : List Nat
  partiallyCaptured : List Nat

namespace ElementUndo

variable {α σ : Type} [LogicalStackElement α σ]

def swap (record : ElementUndo σ) (context : List α × SlotMap α) :
    Option (ElementUndo σ × List α × SlotMap α) :=
  match record with
  | .inlineState index state =>
    match context.1[index]? with
    | none => none
    | some row =>
      some (.inlineState index (swapState row state).2,
        context.1.set index (swapState row state).1, context.2)
  | .replacement index payload =>
    match context.1[index]?, context.2.view payload with
    | some row, some stored =>
      some (.replacement index payload, context.1.set index stored,
        context.2.update payload row)
    | _, _ => none

omit [LogicalStackElement α σ] in
def release (record : ElementUndo σ) (context : List α × SlotMap α) :
    Option (List α × SlotMap α) :=
  match record with
  | .inlineState _ _ => some context
  | .replacement _ payload =>
    match context.2.retire payload with
    | none => none
    | some retired => some (context.1, retired)

end ElementUndo

namespace LogicalStack

variable {α σ : Type}

def empty : LogicalStack α σ :=
  { rows := []
    top := 0
    undo := .empty undoRecordsPerChunk
    displaced := .empty
    fork := none
    recording := false
    interval := 1
    touched := []
    partiallyCaptured := [] }

def asSlice (stack : LogicalStack α σ) : List α :=
  stack.rows.take stack.top

/-- The next interval. When the counter wraps, the rows touched in older intervals are
forgotten. -/
def nextInterval (stack : LogicalStack α σ) : LogicalStack α σ :=
  let interval := max ((stack.interval + 1) % 18446744073709551616) 1
  { stack with
    interval := interval
    touched := if interval = 1 then stack.touched.map fun _ => 0 else stack.touched }

def displacesTop (stack : LogicalStack α σ) : Bool :=
  stack.recording &&
    (decide (stack.touched[stack.top]? ≠ some stack.interval) ||
      decide (stack.partiallyCaptured[stack.top]? = some stack.interval))

def push (stack : LogicalStack α σ) (value : α) : LogicalStack α σ :=
  if stack.top = stack.rows.length then
    { stack with
      rows := stack.rows ++ [value]
      touched := stack.touched ++ [stack.interval]
      partiallyCaptured := stack.partiallyCaptured ++ [0]
      top := stack.top + 1 }
  else
    let reused : LogicalStack α σ :=
      { stack with
        rows := stack.rows.set stack.top value
        touched := stack.touched.set stack.top stack.interval
        partiallyCaptured := stack.partiallyCaptured.set stack.top 0
        top := stack.top + 1 }
    match stack.displacesTop, stack.rows[stack.top]? with
    | true, some old =>
      { reused with
        displaced := stack.displaced.insert old
        undo := stack.undo.append (.replacement stack.top stack.displaced.nextId) }
    | _, _ => reused

def popProject (stack : LogicalStack α σ) : Option α × LogicalStack α σ :=
  match stack.top with
  | 0 => (none, stack)
  | top + 1 =>
    (stack.rows[top]?,
      if stack.recording = true then { stack with top := top }
      else
        { stack with
          top := top
          rows := stack.rows.dropLast
          touched := stack.touched.dropLast
          partiallyCaptured := stack.partiallyCaptured.dropLast })

def truncateTop (stack : LogicalStack α σ) (top : Nat) : Bool × LogicalStack α σ :=
  if stack.top < top then (false, stack)
  else
    (true,
      if stack.recording = true then { stack with top := top }
      else
        { stack with
          top := top
          rows := stack.rows.take top
          touched := stack.touched.take top
          partiallyCaptured := stack.partiallyCaptured.take top })

/-- Keep the state of a row the first time it is borrowed for mutation in an interval. -/
def record [LogicalStackElement α σ] (stack : LogicalStack α σ) (index : Nat) :
    LogicalStack α σ :=
  if stack.recording = false ∨ stack.touched[index]? = some stack.interval then stack
  else
    match stack.rows[index]? with
    | none => stack
    | some row =>
      { stack with
        touched := stack.touched.set index stack.interval
        partiallyCaptured := stack.partiallyCaptured.set index stack.interval
        undo := stack.undo.append (.inlineState index (captureState row)) }

def indexMut [LogicalStackElement α σ] (stack : LogicalStack α σ) (index : Nat) (value : α) :
    LogicalStack α σ :=
  { stack.record index with rows := (stack.record index).rows.set index value }

def getMut [LogicalStackElement α σ] (stack : LogicalStack α σ) (index : Nat) (value : α) :
    LogicalStack α σ :=
  if stack.top ≤ index then stack else stack.indexMut index value

def lastMut [LogicalStackElement α σ] (stack : LogicalStack α σ) (value : α) :
    LogicalStack α σ :=
  match stack.top with
  | 0 => stack
  | index + 1 => stack.indexMut index value

def mark (stack : LogicalStack α σ) : Option LogicalStackMark × LogicalStack α σ :=
  if stack.top < 4294967296 then
    (some { top := stack.top, undo := stack.undo.mark.1 },
      nextInterval { stack with recording := true, undo := stack.undo.mark.2 })
  else (none, { stack with recording := true })

def validates (stack : LogicalStack α σ) (mark : LogicalStackMark) : Bool :=
  decide (mark.top ≤ stack.rows.length) && stack.undo.validates mark.undo

def canRestoreCurrent (stack : LogicalStack α σ) (mark : LogicalStackMark) : Bool :=
  stack.fork.isSome && decide (mark.top ≤ stack.rows.length) &&
    stack.undo.canRestoreCurrent mark.undo

def releasePrefix (stack : LogicalStack α σ) (mark : LogicalStackMark) :
    Option (Option Nat × LogicalStack α σ) :=
  if stack.fork.isSome = true ∨ stack.validates mark = false then some (none, stack)
  else
    match stack.undo.releasePrefix mark.undo ElementUndo.release (stack.rows, stack.displaced) with
    | none => none
    | some (released, undo, _, displaced) =>
      some (released, { stack with undo := undo, displaced := displaced })

def acceptCheckpointCandidate (stack : LogicalStack α σ) : Option (LogicalStack α σ) :=
  match stack.fork with
  | none => none
  | some _ =>
    match stack.undo.acceptCheckpointCandidateWith ElementUndo.release
        (stack.rows, stack.displaced) with
    | none => none
    | some (undo, _, displaced) =>
      some (nextInterval { stack with fork := none, undo := undo, displaced := displaced })

variable [LogicalStackElement α σ]

def restore (stack : LogicalStack α σ) (mark : LogicalStackMark) :
    Option (Bool × LogicalStack α σ) :=
  if stack.fork.isSome = true ∨ stack.validates mark = false then some (false, stack)
  else
    match stack.undo.restoreWith mark.undo ElementUndo.swap ElementUndo.release
        (stack.rows, stack.displaced) with
    | none => none
    | some (restored, undo, rows, displaced) =>
      let swapped : LogicalStack α σ :=
        { stack with undo := undo, rows := rows, displaced := displaced }
      some (restored,
        if restored = true then nextInterval { swapped with top := mark.top } else swapped)

def restoreCurrent (stack : LogicalStack α σ) (mark : LogicalStackMark) :
    Option (Bool × LogicalStack α σ) :=
  if stack.canRestoreCurrent mark = false then some (false, stack)
  else
    match stack.undo.restoreCurrentWith mark.undo ElementUndo.swap ElementUndo.release
        (stack.rows, stack.displaced) with
    | none => none
    | some (restored, undo, rows, displaced) =>
      let swapped : LogicalStack α σ :=
        { stack with undo := undo, rows := rows, displaced := displaced }
      some (restored,
        if restored = true then nextInterval { swapped with top := mark.top } else swapped)

def beginCheckpointCandidate (stack : LogicalStack α σ) (mark : LogicalStackMark) :
    Option (LogicalStack α σ) :=
  if stack.fork.isSome = true ∨ stack.validates mark = false then none
  else
    match stack.undo.beginCheckpointCandidate mark.undo ElementUndo.swap
        (stack.rows, stack.displaced) with
    | none => none
    | some (undo, rows, displaced) =>
      some
        (nextInterval
          { stack with
            undo := undo
            rows := rows
            displaced := displaced
            top := mark.top
            fork := some stack.top })

def rejectCheckpointCandidate (stack : LogicalStack α σ) : Option (LogicalStack α σ) :=
  match stack.fork with
  | none => none
  | some acceptedTop =>
    match stack.undo.rejectCheckpointCandidateWith ElementUndo.swap ElementUndo.release
        (stack.rows, stack.displaced) with
    | none => none
    | some (undo, rows, displaced) =>
      some
        (nextInterval
          { stack with
            undo := undo
            rows := rows
            displaced := displaced
            top := acceptedTop
            fork := none })

end LogicalStack

end Umber.Command
