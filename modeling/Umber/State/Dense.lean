import Umber.State.Journal

/-! The dense state: assignments, groups, transactions, checkpoints and
candidate generations over one set of banks. -/

set_option autoImplicit false

namespace Umber.State

inductive AssignmentScope where
  | «local»
  | global
deriving DecidableEq

structure DenseState (R : References) where
  banks : Banks R
  journal : SaveJournal R
  /-- The open groups, the innermost one first. -/
  groups : List GroupFrame
  nextGroupLineage : Nat

structure DenseStateCursor where
  fontRuntimeRows : Nat

structure AcceptedDenseStateTail where
  journal : AcceptedJournalTail
  fontRuntime : List FontRuntimeRow
  nextGroupLineage : Nat

/-- The positions of the box saves a group exit restores besides the scalar
ones, the next one first: those of the classical registers and those of the
extended ones. -/
structure BoxUnsave where
  dense : List Nat
  sparse : List Nat

def BoxUnsave.sparseBoundary (boxes : BoxUnsave) : Option Nat := boxes.sparse.getLast?

def scalarKey (index : Nat) : Nat := index <<< 32 ||| 4294967295

def leastKey : Option Nat → Option Nat → Option Nat
  | some left, some right => some (min left right)
  | some left, none => some left
  | none, right => right

/-! ## Fresh banks -/

def isUppercase (code : Nat) : Bool := 65 ≤ code && code ≤ 90

def isLowercase (code : Nat) : Bool := 97 ≤ code && code ≤ 122

def catcodeDefault (code : Nat) : Int64 :=
  if code = 0 then 9
  else if code = 13 then 5
  else if code = 32 then 10
  else if code = 37 then 14
  else if code = 92 then 0
  else if code = 127 then 15
  else if isUppercase code || isLowercase code then 11
  else 12

def lccodeDefault (code : Nat) : Int64 :=
  if isUppercase code then Int64.ofNat (code + 32)
  else if isLowercase code then Int64.ofNat code
  else 0

def uccodeDefault (code : Nat) : Int64 :=
  if isUppercase code then Int64.ofNat code
  else if isLowercase code then Int64.ofNat (code - 32)
  else 0

def sfcodeDefault (code : Nat) : Int64 := if isUppercase code then 999 else 1000

def mathcodeDefault (code : Nat) : Int64 :=
  if 48 ≤ code && code ≤ 57 then Int64.ofNat (7 <<< 12 ||| code)
  else if isUppercase code || isLowercase code then Int64.ofNat (7 <<< 12 ||| 1 <<< 8 ||| code)
  else Int64.ofNat code

def delcodeDefault (code : Nat) : Int64 := if code = 46 then 0 else -1

def codeDefault : CodeTableKind → Nat → Int64
  | .catcode => catcodeDefault
  | .lccode => lccodeDefault
  | .uccode => uccodeDefault
  | .sfcode => sfcodeDefault
  | .mathcode => mathcodeDefault
  | .delcode => delcodeDefault

def parameterCount : Nat := 128

def mathFamilyFontCount : Nat := 48

def unicodeScalarCount : Nat := 1114112

def Banks.new {R : References} (meaningCapacity : Nat) (undefined : R.Meaning) : Banks R :=
  { meanings := .new meaningCapacity undefined
    counts := .new fun _ => 0
    dimensions := .new fun _ => 0
    tokenRegisters := .new fun _ => none
    glueRegisters := .new fun _ => none
    muGlueRegisters := .new fun _ => none
    integerParameters := .fixed parameterCount 0 levelOne
    dimensionParameters := .fixed parameterCount 0 levelOne
    tokenParameters := .fixed parameterCount none levelOne
    glueParameters := .fixed parameterCount none levelOne
    currentFont := .ofLevelOne 0
    mathFamilyFonts := .fixed mathFamilyFontCount 0 levelOne
    codes := fun kind => .new unicodeScalarCount (codeDefault kind) levelOne
    fontRuntime := .new }

namespace DenseState

variable {R : References}

def new (meaningCapacity : Nat) (undefined : R.Meaning) : DenseState R :=
  { banks := .new meaningCapacity undefined
    journal := .new
    groups := []
    nextGroupLineage := 1 }

def readCell (state : DenseState R) (cell : StateCell) :
    Except StateError (BankCell (StateWord R)) :=
  state.banks.readCell cell

def writeCell (state : DenseState R) (cell : StateCell) (content : BankCell (StateWord R)) :
    Except StateError (DenseState R) := do
  let banks ← state.banks.writeCell cell content
  pure { state with banks }

def recordMutation (state : DenseState R) (mutation : Mutation R) : DenseState R :=
  { state with journal := state.journal.recordMutation mutation }

/-! ## Assignments -/

def currentLevel (state : DenseState R) : Nat :=
  match state.groups with
  | [] => levelOne
  | frame :: _ => frame.level

def assign (state : DenseState R) (cell : StateCell) (value : StateWord R) (scope : AssignmentScope) :
    Except StateError (DenseState R) := do
  let before ← state.readCell cell
  if !wordMatches cell value then .error .cellKindMismatch
  else
    let currentLevel := state.currentLevel
    let afterLevel :=
      match scope with
      | .global => levelOne
      | .local => currentLevel
    let savedAt :=
      if scope = .local && currentLevel ≠ levelOne && before.level ≠ currentLevel then
        some currentLevel
      else none
    let needsMutation := state.journal.needsMutation before.saveSerial savedAt
    let state ←
      state.writeCell cell { value, level := afterLevel, saveSerial := state.journal.saveSerial }
    if needsMutation then pure (state.recordMutation (.new cell before savedAt)) else pure state

def admitSymbol (state : DenseState R) (symbol : UInt32) : Except StateError (DenseState R) := do
  let meanings ← StateError.ofBank (state.banks.meanings.admitThrough symbol.toNat)
  pure { state with banks := { state.banks with meanings } }

def installFontRuntime (state : DenseState R) (font : UInt32) (prepared : PreparedFontRuntime) :
    Except StateError (DenseState R) := do
  let fontRuntime ← StateError.ofBank (state.banks.fontRuntime.install font prepared)
  pure { state with banks := { state.banks with fontRuntime } }

def ensurePdfTable (state : DenseState R) (font : UInt32) (table : UInt8)
    (defaults : UInt8 → Int32) : Except StateError (DenseState R) := do
  let fontRuntime ← StateError.ofBank (state.banks.fontRuntime.ensurePdfTable font table defaults)
  pure { state with banks := { state.banks with fontRuntime } }

def prepareDimenGrowth (state : DenseState R) (font number : UInt32) :
    Except StateError (DenseState R) := do
  let fontRuntime ← StateError.ofBank (state.banks.fontRuntime.prepareDimenGrowth font number)
  pure { state with banks := { state.banks with fontRuntime } }

def assignFontDimen (state : DenseState R) (font number : UInt32) (value : Scaled)
    (scope : AssignmentScope) : Except StateError (DenseState R) := do
  let previousCount ← StateError.ofBank (state.banks.fontRuntime.parameterCount font)
  let state ← state.prepareDimenGrowth font number
  let state ←
    if previousCount < number.toNat then
      if 2147483647 < number.toNat then .error .cellKindMismatch
      else
        state.assign (.fontRuntime (.parameterCount font)) (.integer (Int32.ofNat number.toNat)) scope
    else pure state
  state.assign (.fontRuntime (.dimen font number)) (.dimension value) scope

/-! ## Groups -/

def beginGroup (state : DenseState R) (kind : GroupKind) (enteredLine : Nat) :
    Except StateError (DenseState R) :=
  let depth := state.groups.length
  if 4294967296 ≤ depth + 2 then .error .groupDepthExhausted
  else if serialLimit ≤ state.nextGroupLineage + 1 then .error .groupLineageExhausted
  else if 4294967296 ≤ state.journal.activeSequence.length + 1 then .error .groupDepthExhausted
  else
    let frame :=
      { kind
        enteredLine
        lineage := state.nextGroupLineage
        journalStart := state.journal.activeSequence.length + 1
        level := depth + 2
        saveStackWordsBefore := state.journal.saveStack.words
        latestSavePushBefore := state.journal.saveStack.latestPush : GroupFrame }
    .ok { state with
      journal := state.journal.recordGroupEnter frame
      groups := frame :: state.groups
      nextGroupLineage := state.nextGroupLineage + 1 }

def closingGroup (state : DenseState R) (expected : GroupKind) : Except StateError GroupFrame :=
  match state.groups with
  | [] => .error (.groupMismatch expected none)
  | frame :: _ =>
    if frame.kind = expected then .ok frame
    else .error (.groupMismatch expected (some frame.kind))

def restoreGroupMutation (state : DenseState R) (saved : Mutation R) :
    Except StateError (DenseState R) := do
  let current ← state.readCell saved.cell
  if current.level = levelOne then pure state
  else
    let state ←
      state.writeCell saved.cell
        { value := saved.before
          level := saved.beforeLevel
          saveSerial := state.journal.saveSerial }
    pure (state.recordMutation (.new saved.cell current none))

structure Unwind (R : References) where
  state : DenseState R
  boxes : BoxUnsave
  boundary : Option Nat
  sparse : List (Nat × Mutation R)

/-- Restore the deferred records, with the box saves above each of them. -/
def restoreSparse (state : DenseState R) (boxes : BoxUnsave) :
    List (Nat × Mutation R) → Except StateError (DenseState R × BoxUnsave)
  | [] => .ok (state, { boxes with sparse := [] })
  | (index, saved) :: later => do
    let boxes := { boxes with sparse := boxes.sparse.dropWhile (scalarKey index < ·) }
    let state ← state.restoreGroupMutation saved
    restoreSparse state boxes later

def Unwind.restoreSparse (unwind : Unwind R) : Except StateError (Unwind R) := do
  let (state, boxes) ← DenseState.restoreSparse unwind.state unwind.boxes unwind.sparse
  pure { state, boxes, boundary := none, sparse := [] }

def Unwind.restoreSparseWhen (unwind : Unwind R) (passed : Bool) : Except StateError (Unwind R) :=
  if passed then unwind.restoreSparse else .ok unwind

def restoreBoxesAbove (limit : Nat) : List Nat → Unwind R → Except StateError (Unwind R)
  | [], unwind => .ok { unwind with boxes := { unwind.boxes with dense := [] } }
  | key :: later, unwind =>
    if limit < key then do
      let unwind ← unwind.restoreSparseWhen (unwind.boundary.any (key < ·))
      restoreBoxesAbove limit later unwind
    else .ok { unwind with boxes := { unwind.boxes with dense := key :: later } }

def Unwind.restoreEntry (unwind : Unwind R) (frame : GroupFrame) (index : Nat) :
    JournalEntry R → Except StateError (Unwind R)
  | .groupEnter _ => .ok unwind
  | .mutation saved =>
    if saved.savedAt = some frame.level then
      if isExtendedRegisterCell saved.cell then
        .ok { unwind with sparse := unwind.sparse ++ [(index, saved)] }
      else do
        let state ← unwind.state.restoreGroupMutation saved
        pure { unwind with state }
    else .ok unwind

def unsaveEntry (frame : GroupFrame) (unwind : Unwind R) (index : Nat) (entry : JournalEntry R) :
    Except StateError (Unwind R) := do
  let unwind ← restoreBoxesAbove (scalarKey index) unwind.boxes.dense unwind
  let unwind ← unwind.restoreSparseWhen (unwind.boundary.any (scalarKey index < ·))
  let unwind ← unwind.restoreEntry frame index entry
  unwind.restoreSparseWhen (unwind.boundary = some (scalarKey index))

def unsaveEntries (frame : GroupFrame) (unwind : Unwind R) :
    List (JournalEntry R × Nat) → Except StateError (Unwind R)
  | [] => .ok unwind
  | (entry, index) :: earlier => do
    let unwind ← unsaveEntry frame unwind index entry
    unsaveEntries frame unwind earlier

def unsave (state : DenseState R) (frame : GroupFrame) (boxes : BoxUnsave) :
    Except StateError (DenseState R) := do
  let boundary :=
    leastKey ((state.journal.groupSparseStart frame).map scalarKey) boxes.sparseBoundary
  let records := (state.journal.activeSequence.zipIdx.drop frame.journalStart).reverse
  let unwind ← unsaveEntries frame { state, boxes, boundary, sparse := [] } records
  let unwind ← restoreBoxesAbove 0 unwind.boxes.dense unwind
  let unwind ← unwind.restoreSparse
  let state := unwind.state
  let journal ← state.journal.recordGroupExitWithRecords frame
  pure { state with groups := state.groups.tail, journal }

def endGroup (state : DenseState R) (expected : GroupKind) (boxes : BoxUnsave) :
    Except StateError (DenseState R) := do
  let frame ← state.closingGroup expected
  state.unsave frame boxes

/-! ## State transactions -/

def openOperation (state : DenseState R) (position : Nat) (journal : SaveJournal R) :
    StateOperation :=
  { transactionPosition := position
    groupDepth := state.groups.length
    saveStack := journal.saveStack
    savePosition := journal.savePosition
    groupEntries := journal.currentGroupSaveMetadata.1
    groupSparseStart := journal.currentGroupSaveMetadata.2 }

def beginStateTransaction (state : DenseState R) : StateOperation × DenseState R :=
  let (position, journal) := state.journal.beginTransaction
  (state.openOperation position journal, { state with journal })

def rollStateTransaction (state : DenseState R) : StateOperation × DenseState R :=
  let (position, journal) := state.journal.rollTransaction
  (state.openOperation position journal, { state with journal })

def commitStateTransaction (state : DenseState R) (position : Nat) :
    Except StateError (DenseState R) := do
  let journal ← state.journal.commitTransaction position
  pure { state with journal }

/-- Write the prior values of an operation back, the newest one first. -/
def undoEntries (state : DenseState R) : List (Mutation R) → Except StateError (DenseState R)
  | [] => .ok state
  | mutation :: earlier => do
    let state ←
      state.writeCell mutation.cell
        { value := mutation.before
          level := mutation.beforeLevel
          saveSerial := state.journal.saveSerial }
    undoEntries state earlier

def rollbackStateTransaction (state : DenseState R) (operation : StateOperation) :
    Except StateError (DenseState R) := do
  let entries := (state.journal.transactionEntries.drop operation.transactionPosition).reverse
  let state ← state.undoEntries entries
  let journal ← state.journal.rollbackGroupSuffix operation
  let journal ← journal.finishTransactionRollback operation.transactionPosition
  let groups := state.groups.drop (state.groups.length - operation.groupDepth)
  pure { state with groups, journal }

/-! ## Checkpoints -/

def checkpointEligible (state : DenseState R) : Bool :=
  state.groups.isEmpty && state.journal.checkpointEligible

def journalCursor (state : DenseState R) : Except StateError (JournalCursor × DenseState R) := do
  let (cursor, journal) ← state.journal.checkpointCursor state.groups.length
  pure (cursor, { state with journal })

def checkpointCursor (state : DenseState R) : DenseStateCursor :=
  { fontRuntimeRows := state.banks.fontRuntime.cursor }

def validateRestoreCursor (state : DenseState R) (cursor : JournalCursor) (afterReplay : Bool) :
    Except StateError Unit :=
  let valid :=
    if afterReplay then state.journal.validateCursorAfterReplay cursor
    else state.journal.validateCursor cursor
  if !valid then .error .invalidCursor
  else if (state.journal.checkpointSuffix cursor).all fun chunk =>
      wordMatches chunk.delta.cell chunk.delta.alternate.value then .ok ()
  else .error .cellKindMismatch

def validateRestore (state : DenseState R) (cursor : JournalCursor) : Except StateError Unit :=
  if !state.checkpointEligible then .error .checkpointIneligible
  else state.validateRestoreCursor cursor false

def validateRestoreAfterReplay (state : DenseState R) (cursor : JournalCursor) :
    Except StateError Unit :=
  state.validateRestoreCursor cursor true

def swapChunk (banks : Banks R) (chunk : Chunk R) : Except StateError (Chunk R × Banks R) := do
  let (displaced, banks) ← banks.swapCell chunk.delta.cell chunk.delta.alternate
  pure ({ chunk with delta := { chunk.delta with alternate := displaced } }, banks)

def rewind (banks : Banks R) : List (Chunk R) → Except StateError (List (Chunk R) × Banks R)
  | [] => .ok ([], banks)
  | chunk :: later => do
    let (later, banks) ← rewind banks later
    let (chunk, banks) ← swapChunk banks chunk
    pure (chunk :: later, banks)

def redo (banks : Banks R) : List (Chunk R) → Except StateError (List (Chunk R) × Banks R)
  | [] => .ok ([], banks)
  | chunk :: later => do
    let (chunk, banks) ← swapChunk banks chunk
    let (later, banks) ← redo banks later
    pure (chunk :: later, banks)

def restoreValidated (state : DenseState R) (cursor : JournalCursor) :
    Except StateError (DenseState R) := do
  let (_, banks) ← rewind state.banks (state.journal.checkpointSuffix cursor)
  let journal := state.journal.restoreGroupCursorAfterReplay cursor
  let journal ← journal.truncateCheckpoint cursor
  pure { state with banks, journal, groups := [] }

def restore (state : DenseState R) (cursor : JournalCursor) : Except StateError (DenseState R) := do
  state.validateRestore cursor
  state.restoreValidated cursor

def restoreAfterReplay (state : DenseState R) (cursor : JournalCursor) :
    Except StateError (DenseState R) := do
  state.validateRestoreAfterReplay cursor
  state.restoreValidated cursor

def validateCheckpointCursor (state : DenseState R) (cursor : DenseStateCursor) : Bool :=
  cursor.fontRuntimeRows ≤ state.banks.fontRuntime.cursor

def restoreCheckpointCursor (state : DenseState R) (cursor : DenseStateCursor) :
    Except StateError (DenseState R) :=
  if state.validateCheckpointCursor cursor then
    let fontRuntime := state.banks.fontRuntime.truncate cursor.fontRuntimeRows
    .ok { state with banks := { state.banks with fontRuntime } }
  else .error .assertion

/-! ## Candidate generations -/

def beginCheckpointCandidate (state : DenseState R) (cursor : JournalCursor)
    (denseCursor : DenseStateCursor) :
    Except StateError (AcceptedDenseStateTail × DenseState R) := do
  if !state.checkpointEligible then .error .checkpointIneligible
  else
    state.validateRestore cursor
    if !state.validateCheckpointCursor denseCursor then .error .invalidCursor
    else
      let (suffix, banks) ← rewind state.banks (state.journal.checkpointSuffix cursor)
      let checkpointArena := state.journal.checkpointArena.setSuffix cursor.checkpoint suffix
      let (tail, journal) ←
        { state.journal with checkpointArena }.beginCheckpointCandidate cursor
      let rows := banks.fontRuntime.rows
      let fontRuntime := banks.fontRuntime.truncate denseCursor.fontRuntimeRows
      pure
        ({ journal := tail
           fontRuntime := rows.drop denseCursor.fontRuntimeRows
           nextGroupLineage := state.nextGroupLineage },
         { state with banks := { banks with fontRuntime }, journal })

def rejectCheckpointCandidate (state : DenseState R) (cursor : JournalCursor)
    (denseCursor : DenseStateCursor) (tail : AcceptedDenseStateTail) :
    Except StateError (DenseState R) := do
  let (_, banks) ← rewind state.banks (state.journal.checkpointSuffix cursor)
  if banks.fontRuntime.cursor < denseCursor.fontRuntimeRows then .error .assertion
  else
    let rows := (banks.fontRuntime.truncate denseCursor.fontRuntimeRows).rows ++ tail.fontRuntime
    let banks := { banks with fontRuntime := { rows } }
    let (detached, banks) ← redo banks state.journal.checkpointArena.detachedPrior
    let checkpointArena := state.journal.checkpointArena.setDetachedPrior detached
    let journal ← { state.journal with checkpointArena }.rejectCheckpointCandidate tail.journal
    pure { banks, journal, groups := [], nextGroupLineage := tail.nextGroupLineage }

def acceptCheckpointCandidate (state : DenseState R) : Except StateError (DenseState R) := do
  let journal ← state.journal.acceptCheckpointCandidate
  pure { state with journal }

end DenseState

end Umber.State
