import Umber.State.DenseProperties

/-! Runs of a dense state with its checkpoints: assignments, groups, state
transactions, captures, restores and settled candidate generations. -/

set_option autoImplicit false

namespace Umber.State

variable {R : References}

structure Capture (R : References) where
  cursor : JournalCursor
  dense : DenseStateCursor
  contents : StateCell → Option (BankCell (StateWord R))

namespace DenseState

/-- A state that was never written: its journal is empty and its cells carry the
first serial. -/
structure Fresh (state : DenseState R) : Prop where
  journal : state.journal = .new
  groups : state.groups = []
  stamps : ∀ cell content, state.banks.contents cell = some content → content.saveSerial = 0

/-- One step outside state transactions, with the checkpoints captured so far. -/
inductive PlainStep (assignable : StateCell → Prop) :
    DenseState R → List (Capture R) → DenseState R → List (Capture R) → Prop
  | assign {state next : DenseState R} {history : List (Capture R)} {cell : StateCell}
      {value : StateWord R} {scope : AssignmentScope} :
      assignable cell → state.assign cell value scope = .ok next →
        PlainStep assignable state history next history
  | grow {state next : DenseState R} {history : List (Capture R)} :
      Grows state next → PlainStep assignable state history next history
  | beginGroup {state next : DenseState R} {history : List (Capture R)} {kind : GroupKind}
      {line : Nat} :
      state.beginGroup kind line = .ok next → PlainStep assignable state history next history
  | endGroup {state next : DenseState R} {history : List (Capture R)} {kind : GroupKind}
      {boxes : BoxUnsave} :
      state.endGroup kind boxes = .ok next → PlainStep assignable state history next history
  | capture {state next : DenseState R} {history : List (Capture R)} {cursor : JournalCursor} :
      state.journalCursor = .ok (cursor, next) →
        PlainStep assignable state history next
          (history ++ [⟨cursor, state.checkpointCursor, state.banks.contents⟩])
  | restore {state next : DenseState R} {history : List (Capture R)} {capture : Capture R} :
      capture ∈ history → state.restore capture.cursor = .ok next →
        PlainStep assignable state history next history
  | restoreAfterReplay {state next : DenseState R} {history : List (Capture R)}
      {capture : Capture R} :
      capture ∈ history → state.restoreAfterReplay capture.cursor = .ok next →
        PlainStep assignable state history next history
  /-- The restore of all stores, which drops the font rows loaded since. -/
  | restoreCheckpoint {state between next : DenseState R} {before after : List (Capture R)}
      {capture : Capture R} :
      state.restore capture.cursor = .ok between →
        between.restoreCheckpointCursor capture.dense = .ok next →
        PlainStep assignable state (before ++ capture :: after) next (before ++ [capture])

inductive Step (assignable : StateCell → Prop) :
    DenseState R → List (Capture R) → DenseState R → List (Capture R) → Prop
  | plain {state next : DenseState R} {history later : List (Capture R)} :
      PlainStep assignable state history next later → Step assignable state history next later
  | beginTransaction {state next : DenseState R} {history : List (Capture R)}
      {operation : StateOperation} :
      state.beginStateTransaction = (operation, next) → Step assignable state history next history
  | rollTransaction {state next : DenseState R} {history : List (Capture R)}
      {operation : StateOperation} :
      state.rollStateTransaction = (operation, next) → Step assignable state history next history
  | commitTransaction {state next : DenseState R} {history : List (Capture R)} {position : Nat} :
      state.commitStateTransaction position = .ok next → Step assignable state history next history
  | rollbackTransaction {state next : DenseState R} {history : List (Capture R)}
      {operation : StateOperation} :
      state.rollbackStateTransaction operation = .ok next →
        Step assignable state history next history

/-- Steps of a candidate generation, with the checkpoints of the candidate. -/
inductive CandidateRun (assignable : StateCell → Prop) (start : DenseState R) :
    DenseState R → List (Capture R) → Prop
  | begun : CandidateRun assignable start start []
  | step {state next : DenseState R} {history later : List (Capture R)} :
      CandidateRun assignable start state history →
        PlainStep assignable state history next later → CandidateRun assignable start next later

inductive Recorded (assignable : StateCell → Prop) : DenseState R → List (Capture R) → Prop
  | start {state : DenseState R} : state.Fresh → Recorded assignable state []
  | step {state next : DenseState R} {history later : List (Capture R)} :
      Recorded assignable state history → Step assignable state history next later →
        Recorded assignable next later
  | rejected {state candidate last next : DenseState R} {history later : List (Capture R)}
      {capture : Capture R} {tail : AcceptedDenseStateTail} :
      Recorded assignable state history → capture ∈ history →
        state.beginCheckpointCandidate capture.cursor capture.dense = .ok (tail, candidate) →
        CandidateRun assignable candidate last later →
        last.rejectCheckpointCandidate capture.cursor capture.dense tail = .ok next →
        Recorded assignable next history
  | accepted {state candidate last next : DenseState R} {before after later : List (Capture R)}
      {capture : Capture R} {tail : AcceptedDenseStateTail} :
      Recorded assignable state (before ++ capture :: after) →
        state.beginCheckpointCandidate capture.cursor capture.dense = .ok (tail, candidate) →
        CandidateRun assignable candidate last later →
        last.acceptCheckpointCandidate = .ok next →
        Recorded assignable next (before ++ [capture] ++ later)

end DenseState

end Umber.State
