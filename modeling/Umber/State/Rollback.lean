import Umber.State.Checkpoint
import Umber.State.ScopingProperties

/-! Runs inside one open state transaction, and states that later group ends do not tell
apart. -/

set_option autoImplicit false

namespace Umber.State

namespace DenseState

variable {R : References}

/-- The states of all runs, of candidate generations and inside state transactions as well. -/
inductive Reached (assignable : StateCell → Prop) : DenseState R → Prop
  | start {state : DenseState R} : state.Fresh → Reached assignable state
  | assign {state next : DenseState R} {cell : StateCell} {value : StateWord R}
      {scope : AssignmentScope} :
      Reached assignable state → assignable cell → state.assign cell value scope = .ok next →
        Reached assignable next
  | grow {state next : DenseState R} :
      Reached assignable state → Grows state next → Reached assignable next
  | beginGroup {state next : DenseState R} {kind : GroupKind} {line : Nat} :
      Reached assignable state → state.beginGroup kind line = .ok next → Reached assignable next
  | endGroup {state next : DenseState R} {kind : GroupKind} {boxes : BoxUnsave} :
      Reached assignable state → state.endGroup kind boxes = .ok next → Reached assignable next
  | beginTransaction {state next : DenseState R} {operation : StateOperation} :
      Reached assignable state → state.beginStateTransaction = (operation, next) →
        Reached assignable next
  | rollTransaction {state next : DenseState R} {operation : StateOperation} :
      Reached assignable state → state.rollStateTransaction = (operation, next) →
        Reached assignable next
  | commitTransaction {state next : DenseState R} {position : Nat} :
      Reached assignable state → state.commitStateTransaction position = .ok next →
        Reached assignable next
  | rollbackTransaction {state next : DenseState R} {operation : StateOperation} :
      Reached assignable state → state.rollbackStateTransaction operation = .ok next →
        Reached assignable next
  | capture {state next : DenseState R} {cursor : JournalCursor} :
      Reached assignable state → state.journalCursor = .ok (cursor, next) →
        Reached assignable next
  | restore {state next : DenseState R} {cursor : JournalCursor} :
      Reached assignable state → state.restore cursor = .ok next → Reached assignable next
  | restoreAfterReplay {state next : DenseState R} {cursor : JournalCursor} :
      Reached assignable state → state.restoreAfterReplay cursor = .ok next →
        Reached assignable next
  | restoreCheckpoint {state between next : DenseState R} {cursor : JournalCursor}
      {dense : DenseStateCursor} :
      Reached assignable state → state.restore cursor = .ok between →
        between.restoreCheckpointCursor dense = .ok next → Reached assignable next
  | beginCandidate {state next : DenseState R} {cursor : JournalCursor} {dense : DenseStateCursor}
      {tail : AcceptedDenseStateTail} :
      Reached assignable state → state.beginCheckpointCandidate cursor dense = .ok (tail, next) →
        Reached assignable next
  | rejectCandidate {state candidate last next : DenseState R} {cursor : JournalCursor}
      {dense : DenseStateCursor} {tail : AcceptedDenseStateTail} :
      Reached assignable state →
        state.beginCheckpointCandidate cursor dense = .ok (tail, candidate) →
        Reached assignable last → last.rejectCheckpointCandidate cursor dense tail = .ok next →
        Reached assignable next
  | acceptCandidate {state next : DenseState R} :
      Reached assignable state → state.acceptCheckpointCandidate = .ok next →
        Reached assignable next

/-- The steps behind the begin of an operation, with the operations opened inside it, the
innermost one first. No step ends a group that was open when the operation began. -/
inductive Operates (assignable : StateCell → Prop) (start : DenseState R) :
    DenseState R → List StateOperation → Prop
  | begun {operation : StateOperation} {state : DenseState R} :
      start.beginStateTransaction = (operation, state) → Operates assignable start state []
  | assign {state next : DenseState R} {opens : List StateOperation} {cell : StateCell}
      {value : StateWord R} {scope : AssignmentScope} :
      Operates assignable start state opens → assignable cell →
        state.assign cell value scope = .ok next → Operates assignable start next opens
  | grow {state next : DenseState R} {opens : List StateOperation} :
      Operates assignable start state opens → Grows state next →
        Operates assignable start next opens
  | beginGroup {state next : DenseState R} {opens : List StateOperation} {kind : GroupKind}
      {line : Nat} :
      Operates assignable start state opens → state.beginGroup kind line = .ok next →
        Operates assignable start next opens
  | endGroup {state next : DenseState R} {opens : List StateOperation} {kind : GroupKind}
      {boxes : BoxUnsave} :
      Operates assignable start state opens → start.groups.length < state.groups.length →
        state.endGroup kind boxes = .ok next → Operates assignable start next opens
  | beginTransaction {state next : DenseState R} {opens : List StateOperation}
      {operation : StateOperation} :
      Operates assignable start state opens → state.beginStateTransaction = (operation, next) →
        Operates assignable start next (operation :: opens)
  | rollTransaction {state next : DenseState R} {opens : List StateOperation}
      {operation rolled : StateOperation} :
      Operates assignable start state (operation :: opens) →
        state.rollStateTransaction = (rolled, next) →
        Operates assignable start next (rolled :: opens)
  | commitTransaction {state next : DenseState R} {opens : List StateOperation}
      {operation : StateOperation} :
      Operates assignable start state (operation :: opens) →
        state.commitStateTransaction operation.transactionPosition = .ok next →
        Operates assignable start next opens
  | rollbackTransaction {state next : DenseState R} {opens : List StateOperation}
      {operation : StateOperation} :
      Operates assignable start state (operation :: opens) →
        state.rollbackStateTransaction operation = .ok next → Operates assignable start next opens

/-- The other state has the groups, the save sequence and the cells of the state. It may have
more cells. -/
structure Alike (state other : DenseState R) : Prop where
  groups : other.groups = state.groups
  sequence : other.journal.activeSequence = state.journal.activeSequence
  marks : other.journal.activeGroups = state.journal.activeGroups
  saveStack : other.journal.saveStack = state.journal.saveStack
  savePosition : other.journal.savePosition = state.journal.savePosition
  values : ∀ cell found, state.levelled cell = some found → other.levelled cell = some found

/-- Both calls fail with one error, or both succeed with states alike. -/
def Agree : Except StateError (DenseState R) → Except StateError (DenseState R) → Prop
  | .ok state, .ok other => Alike state other
  | .error error, .error other => error = other
  | _, _ => False

def endGroups (state : DenseState R) :
    List (GroupKind × BoxUnsave) → Except StateError (DenseState R)
  | [] => .ok state
  | (kind, boxes) :: later => do
    let state ← state.endGroup kind boxes
    endGroups state later

end DenseState

end Umber.State
