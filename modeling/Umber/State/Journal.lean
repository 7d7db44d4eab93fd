import Umber.State.Cell

/-! The group-save, checkpoint-delta and operation-undo lanes of the state
journal. -/

set_option autoImplicit false

namespace Umber.State

/-! ## Packed cell coordinates -/

def CodeTableKind.tag : CodeTableKind → Nat
  | .catcode => 0
  | .lccode => 1
  | .uccode => 2
  | .sfcode => 3
  | .mathcode => 4
  | .delcode => 5

def codeTableKind : Nat → CodeTableKind
  | 0 => .catcode
  | 1 => .lccode
  | 2 => .uccode
  | 3 => .sfcode
  | 4 => .mathcode
  | _ => .delcode

structure JournalCell where
  bits : Nat
deriving DecidableEq

namespace JournalCell

def tagShift : Nat := 58

def payloadMask : Nat := (1 <<< tagShift) - 1

def fields : StateCell → Nat × Nat
  | .meaning index => (0, index.toNat)
  | .count index => (1, index.toNat)
  | .dimension index => (2, index.toNat)
  | .tokenRegister index => (3, index.toNat)
  | .glueRegister index => (4, index.toNat)
  | .boxRegister index => (5, index.toNat)
  | .muGlueRegister index => (6, index.toNat)
  | .integerParameter index => (7, index.toNat)
  | .dimensionParameter index => (8, index.toNat)
  | .tokenParameter index => (9, index.toNat)
  | .glueParameter index => (10, index.toNat)
  | .currentFont => (11, 0)
  | .mathFamilyFont index => (12, index.toNat)
  | .code kind index => (13, kind.tag <<< 32 ||| index.toNat)
  | .fontRuntime (.parameterCount font) => (14, font.toNat)
  | .fontRuntime (.dimen font number) => (15, font.toNat <<< 18 ||| number.toNat)
  | .fontRuntime (.hyphenChar font) => (16, font.toNat)
  | .fontRuntime (.skewChar font) => (17, font.toNat)
  | .fontRuntime (.pdfCode table font code) =>
    (18, table.toNat <<< 40 ||| font.toNat <<< 8 ||| code.toNat)
  | .fontRuntime (.ligaturesDisabled font) => (19, font.toNat)

def pack (cell : StateCell) : JournalCell :=
  { bits := (fields cell).1 <<< tagShift ||| (fields cell).2 }

/-- The cell of a tag and a payload; the tags above 19 are never packed. -/
def ofFields (tag payload : Nat) : StateCell :=
  let low := UInt32.ofNat payload
  match tag with
  | 0 => .meaning low
  | 1 => .count low.toUInt16
  | 2 => .dimension low.toUInt16
  | 3 => .tokenRegister low.toUInt16
  | 4 => .glueRegister low.toUInt16
  | 5 => .boxRegister low.toUInt16
  | 6 => .muGlueRegister low.toUInt16
  | 7 => .integerParameter low.toUInt16
  | 8 => .dimensionParameter low.toUInt16
  | 9 => .tokenParameter low.toUInt16
  | 10 => .glueParameter low.toUInt16
  | 11 => .currentFont
  | 12 => .mathFamilyFont low.toUInt8
  | 13 => .code (codeTableKind ((payload >>> 32) % 256)) low
  | 14 => .fontRuntime (.parameterCount low)
  | 15 =>
    .fontRuntime (.dimen (UInt32.ofNat (payload >>> 18)) (UInt32.ofNat (payload &&& (1 <<< 18) - 1)))
  | 16 => .fontRuntime (.hyphenChar low)
  | 17 => .fontRuntime (.skewChar low)
  | 18 =>
    .fontRuntime
      (.pdfCode (UInt8.ofNat (payload >>> 40)) (UInt32.ofNat (payload >>> 8)) (UInt8.ofNat payload))
  | _ => .fontRuntime (.ligaturesDisabled low)

def unpack (packed : JournalCell) : StateCell :=
  ofFields (packed.bits >>> tagShift) (packed.bits &&& payloadMask)

end JournalCell

/-! ## Records -/

structure Mutation (R : References) where
  packed : JournalCell
  before : StateWord R
  beforeLevel : Nat
  beforeSaveSerial : Nat
  savedAt : Option Nat

def Mutation.new {R : References} (cell : StateCell) (before : BankCell (StateWord R))
    (savedAt : Option Nat) : Mutation R :=
  { packed := .pack cell
    before := before.value
    beforeLevel := before.level
    beforeSaveSerial := before.saveSerial
    savedAt }

def Mutation.cell {R : References} (mutation : Mutation R) : StateCell := mutation.packed.unpack

structure GroupFrame where
  kind : GroupKind
  enteredLine : Nat
  lineage : Nat
  journalStart : Nat
  level : Nat
  saveStackWordsBefore : Nat
  latestSavePushBefore : Option (Nat × Nat)
deriving DecidableEq

inductive JournalEntry (R : References) where
  | mutation (mutation : Mutation R)
  | groupEnter (frame : GroupFrame)

structure SaveStackProjection where
  words : Nat
  latestPush : Option (Nat × Nat)

def SaveStackProjection.default : SaveStackProjection :=
  { words := 0, latestPush := none }

def isAbsentTokenParameter {R : References} : StateCell → StateWord R → Bool
  | .tokenParameter _, .tokenList none => true
  | _, _ => false

def canonicalRestoreWords {R : References} (mutation : Mutation R) : Option Nat :=
  match mutation.savedAt with
  | none => none
  | some _ =>
    if mutation.beforeLevel = levelZero ||
        isAbsentTokenParameter mutation.cell mutation.before then some 1
    else some 2

def SaveStackProjection.push {R : References} (projection : SaveStackProjection)
    (position : Nat) : JournalEntry R → SaveStackProjection
  | .mutation mutation =>
    match canonicalRestoreWords mutation with
    | none => projection
    | some words =>
      { words := projection.words + words, latestPush := some (position, words) }
  | .groupEnter _ => { words := projection.words + 1, latestPush := some (position, 1) }

structure GroupMark where
  frame : GroupFrame
  start : Nat
  entries : Nat
  sparseStart : Option Nat

structure CheckpointDelta (R : References) where
  cell : StateCell
  alternate : BankCell (StateWord R)

/-! ## The checkpoint arena -/

structure Chunk (R : References) where
  key : Nat
  delta : CheckpointDelta R

structure CheckpointMark where
  payloadChunks : Nat
  payloadTail : Option Nat

inductive ForkOwnership (R : References) where
  | accepted (payload : List (Chunk R))
  | forked (kept detachedPrior current : List (Chunk R))

structure CheckpointArena (R : References) where
  ownership : ForkOwnership R
  nextKey : Nat

namespace CheckpointArena

variable {R : References}

def new : CheckpointArena R := { ownership := .accepted [], nextKey := 0 }

def live (arena : CheckpointArena R) : List (Chunk R) :=
  match arena.ownership with
  | .accepted payload => payload
  | .forked kept _ current => kept ++ current

def push (arena : CheckpointArena R) (delta : CheckpointDelta R) : CheckpointArena R :=
  let chunk := { key := arena.nextKey, delta : Chunk R }
  { ownership :=
      match arena.ownership with
      | .accepted payload => .accepted (payload ++ [chunk])
      | .forked kept detachedPrior current => .forked kept detachedPrior (current ++ [chunk])
    nextKey := arena.nextKey + 1 }

def checkpointMark (arena : CheckpointArena R) : CheckpointMark :=
  { payloadChunks := arena.live.length, payloadTail := arena.live.getLast?.map (·.key) }

def keyBelow (chunks : List (Chunk R)) : Nat → Option Nat
  | 0 => none
  | index + 1 => chunks[index]?.map (·.key)

def validatesCheckpoint (arena : CheckpointArena R) (mark : CheckpointMark) : Bool :=
  mark.payloadChunks ≤ arena.live.length &&
    (mark.payloadChunks = 0 || mark.payloadTail = keyBelow arena.live mark.payloadChunks)

def setSuffix (arena : CheckpointArena R) (mark : CheckpointMark) (suffix : List (Chunk R)) :
    CheckpointArena R :=
  { arena with
    ownership :=
      match arena.ownership with
      | .accepted payload => .accepted (payload.take mark.payloadChunks ++ suffix)
      | .forked kept detachedPrior current =>
        .forked kept detachedPrior (current.take (mark.payloadChunks - kept.length) ++ suffix) }

def detachedPrior (arena : CheckpointArena R) : List (Chunk R) :=
  match arena.ownership with
  | .accepted _ => []
  | .forked _ detachedPrior _ => detachedPrior

def setDetachedPrior (arena : CheckpointArena R) (detachedPrior : List (Chunk R)) :
    CheckpointArena R :=
  { arena with
    ownership :=
      match arena.ownership with
      | .accepted payload => .accepted payload
      | .forked kept _ current => .forked kept detachedPrior current }

def beginCheckpointCandidate (arena : CheckpointArena R) (mark : CheckpointMark) :
    Except StateError (CheckpointArena R) :=
  match arena.ownership with
  | .forked .. => .error .invalidCursor
  | .accepted payload =>
    if arena.validatesCheckpoint mark then
      .ok { arena with
        ownership :=
          .forked (payload.take mark.payloadChunks) (payload.drop mark.payloadChunks) [] }
    else .error .invalidCursor

/-- Drop the live suffix behind a mark. A forked arena pops only its own
chunks. -/
def restoreCheckpoint (arena : CheckpointArena R) (mark : CheckpointMark) :
    Except StateError (CheckpointArena R) :=
  match arena.ownership with
  | .accepted payload =>
    .ok { arena with ownership := .accepted (payload.take mark.payloadChunks) }
  | .forked kept detachedPrior current =>
    if kept.length ≤ mark.payloadChunks then
      .ok { arena with
        ownership :=
          .forked kept detachedPrior (current.take (mark.payloadChunks - kept.length)) }
    else .error .assertion

def rejectCheckpointCandidate (arena : CheckpointArena R) : Except StateError (CheckpointArena R) :=
  match arena.ownership with
  | .accepted _ => .error .assertion
  | .forked kept detachedPrior _ =>
    .ok { arena with ownership := .accepted (kept ++ detachedPrior) }

def acceptCheckpointCandidate (arena : CheckpointArena R) : Except StateError (CheckpointArena R) :=
  match arena.ownership with
  | .accepted _ => .error .invalidCursor
  | .forked kept _ current => .ok { arena with ownership := .accepted (kept ++ current) }

end CheckpointArena

structure JournalCursor where
  checkpoint : CheckpointMark
  checkpointEntries : Nat
  groupDepth : Nat
  saveStack : SaveStackProjection
  savePosition : Nat

/-! ## The journal -/

structure SaveJournal (R : References) where
  activeSequence : List (JournalEntry R)
  /-- The open groups, the innermost one first. -/
  activeGroups : List GroupMark
  checkpointArena : CheckpointArena R
  checkpointEntries : Nat
  saveSerial : Nat
  checkpointFork : Bool
  transactionEntries : List (Mutation R)
  transactionDepth : Nat
  saveStack : SaveStackProjection
  savePosition : Nat

structure StateOperation where
  transactionPosition : Nat
  groupDepth : Nat
  saveStack : SaveStackProjection
  savePosition : Nat
  groupEntries : Nat
  groupSparseStart : Option Nat

structure AcceptedJournalTail where
  priorCheckpointEntries : Nat
  saveStack : SaveStackProjection
  savePosition : Nat

def serialLimit : Nat := 18446744073709551616

namespace SaveJournal

variable {R : References}

def new : SaveJournal R :=
  { activeSequence := []
    activeGroups := []
    checkpointArena := .new
    checkpointEntries := 0
    saveSerial := 0
    checkpointFork := false
    transactionEntries := []
    transactionDepth := 0
    saveStack := .default
    savePosition := 0 }

def checkpointEligible (journal : SaveJournal R) : Bool :=
  journal.activeGroups.isEmpty && journal.activeSequence.isEmpty &&
    journal.transactionDepth = 0 && journal.transactionEntries.isEmpty

def checkpointCursor (journal : SaveJournal R) (groupDepth : Nat) :
    Except StateError (JournalCursor × SaveJournal R) :=
  if groupDepth ≠ 0 || !journal.checkpointEligible then .error .checkpointIneligible
  else if serialLimit ≤ journal.saveSerial + 1 then .error .checkpointEpochExhausted
  else
    .ok
      ({ checkpoint := journal.checkpointArena.checkpointMark
         checkpointEntries := journal.checkpointEntries
         groupDepth
         saveStack := journal.saveStack
         savePosition := journal.savePosition },
       { journal with saveSerial := journal.saveSerial + 1 })

def retainDelta (journal : SaveJournal R) (mutation : Mutation R) : SaveJournal R :=
  if mutation.beforeSaveSerial ≠ journal.saveSerial then
    { journal with
      checkpointArena :=
        journal.checkpointArena.push
          { cell := mutation.cell
            alternate :=
              { value := mutation.before
                level := mutation.beforeLevel
                saveSerial := mutation.beforeSaveSerial } }
      checkpointEntries := journal.checkpointEntries + 1 }
  else journal

def countEntry (groups : List GroupMark) (index : Nat) (cell : StateCell) : List GroupMark :=
  match groups with
  | [] => []
  | group :: outer =>
    { group with
      entries := group.entries + 1
      sparseStart :=
        if group.sparseStart.isNone && isExtendedRegisterCell cell then some index
        else group.sparseStart } :: outer

def retainOperation (journal : SaveJournal R) (mutation : Mutation R) : SaveJournal R :=
  if journal.transactionDepth ≠ 0 then
    { journal with transactionEntries := journal.transactionEntries ++ [mutation] }
  else journal

def retainSave (journal : SaveJournal R) (mutation : Mutation R) : SaveJournal R :=
  match mutation.savedAt with
  | none => journal
  | some _ =>
    { journal with
      activeSequence := journal.activeSequence ++ [.mutation mutation]
      activeGroups :=
        countEntry journal.activeGroups journal.activeSequence.length mutation.cell
      saveStack := journal.saveStack.push (journal.activeSequence.length + 1) (.mutation mutation)
      savePosition := journal.activeSequence.length + 1 }

def recordMutation (journal : SaveJournal R) (mutation : Mutation R) : SaveJournal R :=
  ((journal.retainDelta mutation).retainOperation mutation).retainSave mutation

def needsMutation (journal : SaveJournal R) (beforeSaveSerial : Nat) (savedAt : Option Nat) : Bool :=
  beforeSaveSerial ≠ journal.saveSerial || savedAt.isSome || journal.transactionDepth ≠ 0

def beginTransaction (journal : SaveJournal R) : Nat × SaveJournal R :=
  (journal.transactionEntries.length,
    { journal with transactionDepth := journal.transactionDepth + 1 })

def currentGroupSaveMetadata (journal : SaveJournal R) : Nat × Option Nat :=
  match journal.activeGroups with
  | [] => (0, none)
  | group :: _ => (group.entries, group.sparseStart)

def rollTransaction (journal : SaveJournal R) : Nat × SaveJournal R :=
  let journal :=
    if journal.transactionDepth = 1 then { journal with transactionEntries := [] } else journal
  (journal.transactionEntries.length, journal)

def commitTransaction (journal : SaveJournal R) (position : Nat) :
    Except StateError (SaveJournal R) :=
  if journal.transactionDepth = 0 || journal.transactionEntries.length < position then
    .error .assertion
  else
    let transactionDepth := journal.transactionDepth - 1
    .ok { journal with
      transactionDepth
      transactionEntries := if transactionDepth = 0 then [] else journal.transactionEntries }

def finishTransactionRollback (journal : SaveJournal R) (position : Nat) :
    Except StateError (SaveJournal R) :=
  if journal.transactionDepth = 0 then .error .assertion
  else
    .ok { journal with
      transactionEntries := journal.transactionEntries.take position
      transactionDepth := journal.transactionDepth - 1 }

/-- Pop the groups above a depth, each with its segment of the sequence. -/
def popGroups (depth : Nat) (sequence : List (JournalEntry R)) :
    List GroupMark → List (JournalEntry R) × List GroupMark
  | [] => (sequence, [])
  | group :: outer =>
    if depth < (group :: outer).length then popGroups depth (sequence.take group.start) outer
    else (sequence, group :: outer)

def rollbackGroupSuffix (journal : SaveJournal R) (operation : StateOperation) :
    Except StateError (SaveJournal R) :=
  if journal.activeGroups.length < operation.groupDepth then .error .invalidCursor
  else
    let (sequence, groups) :=
      popGroups operation.groupDepth journal.activeSequence journal.activeGroups
    if sequence.length < operation.savePosition then .error .invalidCursor
    else
      .ok { journal with
        activeSequence := sequence.take operation.savePosition
        activeGroups :=
          match groups with
          | [] => []
          | group :: outer =>
            { group with
              entries := operation.groupEntries
              sparseStart := operation.groupSparseStart } :: outer
        saveStack := operation.saveStack
        savePosition := operation.savePosition }

def recordGroupEnter (journal : SaveJournal R) (frame : GroupFrame) : SaveJournal R :=
  let marker := journal.activeSequence.length
  { journal with
    activeSequence := journal.activeSequence ++ [.groupEnter frame]
    activeGroups := { frame, start := marker, entries := 0, sparseStart := none } :: journal.activeGroups
    saveStack := journal.saveStack.push (marker + 1) (JournalEntry.groupEnter frame : JournalEntry R)
    savePosition := marker + 1 }

def recordGroupExitWithRecords (journal : SaveJournal R) (frame : GroupFrame) :
    Except StateError (SaveJournal R) :=
  match journal.activeGroups with
  | [] => .error .assertion
  | group :: outer =>
    let activeSequence := journal.activeSequence.take group.start
    .ok { journal with
      activeSequence
      activeGroups := outer
      saveStack :=
        { words := frame.saveStackWordsBefore, latestPush := frame.latestSavePushBefore }
      savePosition := activeSequence.length }

def groupSparseStart (journal : SaveJournal R) (frame : GroupFrame) : Option Nat :=
  match journal.activeGroups with
  | [] => none
  | group :: _ => if group.frame = frame then group.sparseStart else none

def validateCursorShape (journal : SaveJournal R) (cursor : JournalCursor) : Bool :=
  cursor.checkpointEntries ≤ journal.checkpointEntries &&
    journal.checkpointArena.validatesCheckpoint cursor.checkpoint &&
    cursor.groupDepth = 0 && cursor.savePosition = 0

def validateCursor (journal : SaveJournal R) (cursor : JournalCursor) : Bool :=
  journal.validateCursorShape cursor && journal.checkpointEligible

def validateCursorAfterReplay (journal : SaveJournal R) (cursor : JournalCursor) : Bool :=
  journal.validateCursorShape cursor &&
    journal.transactionDepth = 0 && journal.transactionEntries.isEmpty

def restoreGroupCursorAfterReplay (journal : SaveJournal R) (cursor : JournalCursor) :
    SaveJournal R :=
  { journal with
    activeSequence := []
    activeGroups := []
    saveStack := cursor.saveStack
    savePosition := cursor.savePosition }

def checkpointSuffix (journal : SaveJournal R) (cursor : JournalCursor) : List (Chunk R) :=
  journal.checkpointArena.live.drop cursor.checkpoint.payloadChunks

def truncateCheckpoint (journal : SaveJournal R) (cursor : JournalCursor) :
    Except StateError (SaveJournal R) :=
  match journal.checkpointArena.restoreCheckpoint cursor.checkpoint with
  | .error error => .error error
  | .ok checkpointArena =>
    .ok { journal with
      checkpointArena
      checkpointEntries := cursor.checkpointEntries
      saveSerial := journal.saveSerial + 1
      saveStack := cursor.saveStack
      savePosition := cursor.savePosition }

def beginCheckpointCandidate (journal : SaveJournal R) (cursor : JournalCursor) :
    Except StateError (AcceptedJournalTail × SaveJournal R) :=
  if !journal.validateCursor cursor || journal.checkpointFork then .error .invalidCursor
  else if serialLimit ≤ journal.saveSerial + 2 then .error .checkpointEpochExhausted
  else
    match journal.checkpointArena.beginCheckpointCandidate cursor.checkpoint with
    | .error error => .error error
    | .ok checkpointArena =>
      .ok
        ({ priorCheckpointEntries := journal.checkpointEntries
           saveStack := journal.saveStack
           savePosition := journal.savePosition },
         { journal with
           checkpointArena
           checkpointEntries := cursor.checkpointEntries
           checkpointFork := true
           saveStack := .default
           savePosition := 0
           saveSerial := journal.saveSerial + 1 })

def rejectCheckpointCandidate (journal : SaveJournal R) (tail : AcceptedJournalTail) :
    Except StateError (SaveJournal R) :=
  match journal.checkpointArena.rejectCheckpointCandidate with
  | .error error => .error error
  | .ok checkpointArena =>
    .ok { journal with
      activeSequence := []
      activeGroups := []
      saveStack := tail.saveStack
      savePosition := tail.savePosition
      checkpointEntries := tail.priorCheckpointEntries
      checkpointArena
      checkpointFork := false
      saveSerial := journal.saveSerial + 1 }

def acceptCheckpointCandidate (journal : SaveJournal R) : Except StateError (SaveJournal R) :=
  if !journal.checkpointFork || !journal.activeGroups.isEmpty || !journal.activeSequence.isEmpty ||
      journal.transactionDepth ≠ 0 then .error .checkpointIneligible
  else
    match journal.checkpointArena.acceptCheckpointCandidate with
    | .error error => .error error
    | .ok checkpointArena =>
      .ok { journal with
        checkpointArena
        checkpointFork := false
        saveSerial := journal.saveSerial + 1 }

end SaveJournal

end Umber.State
