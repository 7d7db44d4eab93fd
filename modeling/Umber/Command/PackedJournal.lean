import Umber.Lib.SlotMap

/-! Fixed-chunk journals with one accepted lineage and one fork. A mark always lands
between chunks. -/

set_option autoImplicit false

namespace Umber.Command

abbrev ChunkKey := SlotId

structure JournalChunk (ρ : Type) where
  key : ChunkKey
  depth : Nat
  recordsBefore : Nat
  values : List ρ

structure PackedJournalMark where
  tail : Option ChunkKey
  chunks : Nat
  records : Nat
deriving DecidableEq

structure JournalFork where
  selected : PackedJournalMark
  priorChunks : Nat
  priorRecords : Nat

/-- `recordsPerChunk` is the constant that the journal's type carries. -/
structure PackedJournal (ρ : Type) where
  recordsPerChunk : Nat
  slots : SlotMap Unit
  current : List (JournalChunk ρ)
  detached : List (JournalChunk ρ)
  chunks : Nat
  records : Nat
  baseChunks : Nat
  baseRecords : Nat
  fork : Option JournalFork
  intervalTailOpen : Bool

namespace PackedJournal

variable {ρ γ : Type}

def empty (recordsPerChunk : Nat) : PackedJournal ρ :=
  { recordsPerChunk
    slots := .empty
    current := []
    detached := []
    chunks := 0
    records := 0
    baseChunks := 0
    baseRecords := 0
    fork := none
    intervalTailOpen := false }

def tail (journal : PackedJournal ρ) : Option ChunkKey :=
  journal.current.getLast?.map JournalChunk.key

def mark (journal : PackedJournal ρ) : PackedJournalMark × PackedJournal ρ :=
  ({ tail := journal.tail, chunks := journal.chunks, records := journal.records },
    { journal with intervalTailOpen := false })

def isBase (journal : PackedJournal ρ) (mark : PackedJournalMark) : Bool :=
  mark.chunks == journal.baseChunks && mark.records == journal.baseRecords

def validates (journal : PackedJournal ρ) (mark : PackedJournalMark) : Bool :=
  if mark.chunks < journal.baseChunks ∨ mark.records < journal.baseRecords ∨
      journal.chunks < mark.chunks ∨ journal.records < mark.records then false
  else if journal.isBase mark = true then true
  else
    match mark.tail with
    | none => false
    | some key =>
      match journal.current.find? (fun chunk => chunk.key == key) with
      | none => false
      | some chunk =>
        chunk.depth == mark.chunks &&
          chunk.recordsBefore + chunk.values.length == mark.records

/-! ## Appending -/

def acquireCurrentChunk (journal : PackedJournal ρ) : PackedJournal ρ :=
  { journal with
    slots := journal.slots.insert ()
    current := journal.current ++
      [{ key := journal.slots.nextId
         depth := journal.chunks + 1
         recordsBefore := journal.records
         values := [] }]
    chunks := journal.chunks + 1
    intervalTailOpen := true }

def needsChunk (journal : PackedJournal ρ) : Bool :=
  !journal.intervalTailOpen ||
    match journal.current.getLast? with
    | none => true
    | some chunk => chunk.values.length == journal.recordsPerChunk

def appendTail (value : ρ) : List (JournalChunk ρ) → List (JournalChunk ρ)
  | [] => []
  | [chunk] => [{ chunk with values := chunk.values ++ [value] }]
  | chunk :: next :: later => chunk :: appendTail value (next :: later)

def append (journal : PackedJournal ρ) (value : ρ) : PackedJournal ρ :=
  let ready := if journal.needsChunk = true then journal.acquireCurrentChunk else journal
  { ready with
    current := appendTail value ready.current
    records := ready.records + 1 }

/-! ## Visiting and releasing -/

def swapReverse (swap : ρ → γ → Option (ρ × γ)) : List ρ → γ → Option (List ρ × γ)
  | [], context => some ([], context)
  | value :: later, context =>
    match swapReverse swap later context with
    | none => none
    | some (laterSwapped, between) =>
      match swap value between with
      | none => none
      | some (swapped, after) => some (swapped :: laterSwapped, after)

def swapForward (swap : ρ → γ → Option (ρ × γ)) : List ρ → γ → Option (List ρ × γ)
  | [], context => some ([], context)
  | value :: later, context =>
    match swap value context with
    | none => none
    | some (swapped, between) =>
      match swapForward swap later between with
      | none => none
      | some (laterSwapped, after) => some (swapped :: laterSwapped, after)

def visitReverse (swap : ρ → γ → Option (ρ × γ)) :
    List (JournalChunk ρ) → γ → Option (List (JournalChunk ρ) × γ)
  | [], context => some ([], context)
  | chunk :: later, context =>
    match visitReverse swap later context with
    | none => none
    | some (laterVisited, between) =>
      match swapReverse swap chunk.values between with
      | none => none
      | some (values, after) => some ({ chunk with values := values } :: laterVisited, after)

def visitForward (swap : ρ → γ → Option (ρ × γ)) :
    List (JournalChunk ρ) → γ → Option (List (JournalChunk ρ) × γ)
  | [], context => some ([], context)
  | chunk :: later, context =>
    match swapForward swap chunk.values context with
    | none => none
    | some (values, between) =>
      match visitForward swap later between with
      | none => none
      | some (laterVisited, after) => some ({ chunk with values := values } :: laterVisited, after)

def releaseValues (release : ρ → γ → Option γ) : List ρ → γ → Option γ
  | [], context => some context
  | value :: later, context =>
    match release value context with
    | none => none
    | some after => releaseValues release later after

def releaseChunks (release : ρ → γ → Option γ) :
    List (JournalChunk ρ) → SlotMap Unit → γ → Option (SlotMap Unit × γ)
  | [], slots, context => some (slots, context)
  | chunk :: later, slots, context =>
    match releaseValues release chunk.values context with
    | none => none
    | some after =>
      match slots.retire chunk.key with
      | none => none
      | some retired => releaseChunks release later retired after

def cutBehind (key : ChunkKey) :
    List (JournalChunk ρ) → List (JournalChunk ρ) × List (JournalChunk ρ)
  | [] => ([], [])
  | chunk :: later =>
    if chunk.key = key then ([chunk], later)
    else (chunk :: (cutBehind key later).1, (cutBehind key later).2)

def cutAt (journal : PackedJournal ρ) (mark : PackedJournalMark) :
    List (JournalChunk ρ) × List (JournalChunk ρ) :=
  if journal.isBase mark = true then ([], journal.current)
  else
    match mark.tail with
    | none => ([], journal.current)
    | some key => cutBehind key journal.current

/-! ## Marks and candidates -/

def rewindTo (journal : PackedJournal ρ) (mark : PackedJournalMark)
    (swap : ρ → γ → Option (ρ × γ)) (release : ρ → γ → Option γ) (context : γ) :
    Option (PackedJournal ρ × γ) :=
  match visitReverse swap (journal.cutAt mark).2 context with
  | none => none
  | some (visited, swapped) =>
    match releaseChunks release visited.reverse journal.slots swapped with
    | none => none
    | some (slots, released) =>
      some
        ({ journal with
            slots := slots
            current := (journal.cutAt mark).1
            chunks := mark.chunks
            records := mark.records
            intervalTailOpen := false },
          released)

def restoreWith (journal : PackedJournal ρ) (mark : PackedJournalMark)
    (swap : ρ → γ → Option (ρ × γ)) (release : ρ → γ → Option γ) (context : γ) :
    Option (Bool × PackedJournal ρ × γ) :=
  if journal.fork.isSome = true ∨ journal.validates mark = false then
    some (false, journal, context)
  else
    match journal.rewindTo mark swap release context with
    | none => none
    | some (restored, after) => some (true, restored, after)

def canRestoreCurrent (journal : PackedJournal ρ) (mark : PackedJournalMark) : Bool :=
  match journal.fork with
  | none => false
  | some fork =>
    journal.validates mark && decide (fork.selected.chunks ≤ mark.chunks) &&
      decide (fork.selected.records ≤ mark.records)

def restoreCurrentWith (journal : PackedJournal ρ) (mark : PackedJournalMark)
    (swap : ρ → γ → Option (ρ × γ)) (release : ρ → γ → Option γ) (context : γ) :
    Option (Bool × PackedJournal ρ × γ) :=
  if journal.canRestoreCurrent mark = false then some (false, journal, context)
  else
    match journal.rewindTo mark swap release context with
    | none => none
    | some (restored, after) => some (true, restored, after)

def releasePrefix (journal : PackedJournal ρ) (mark : PackedJournalMark)
    (release : ρ → γ → Option γ) (context : γ) : Option (Option Nat × PackedJournal ρ × γ) :=
  if journal.fork.isSome = true ∨ journal.validates mark = false then
    some (none, journal, context)
  else if journal.isBase mark = true then some (some 0, journal, context)
  else
    match releaseChunks release (journal.cutAt mark).1 journal.slots context with
    | none => none
    | some (slots, released) =>
      some
        (some (journal.cutAt mark).1.length,
          { journal with
            slots := slots
            current := (journal.cutAt mark).2
            baseChunks := mark.chunks
            baseRecords := mark.records
            intervalTailOpen := false },
          released)

def beginCheckpointCandidate (journal : PackedJournal ρ) (mark : PackedJournalMark)
    (swap : ρ → γ → Option (ρ × γ)) (context : γ) : Option (PackedJournal ρ × γ) :=
  if journal.fork.isSome = true ∨ journal.validates mark = false then none
  else
    match visitReverse swap (journal.cutAt mark).2 context with
    | none => none
    | some (visited, swapped) =>
      some
        ({ journal with
            current := (journal.cutAt mark).1
            detached := visited
            chunks := mark.chunks
            records := mark.records
            fork := some
              { selected := mark
                priorChunks := journal.chunks
                priorRecords := journal.records }
            intervalTailOpen := false },
          swapped)

def rejectCheckpointCandidateWith (journal : PackedJournal ρ)
    (swap : ρ → γ → Option (ρ × γ)) (release : ρ → γ → Option γ) (context : γ) :
    Option (PackedJournal ρ × γ) :=
  match journal.fork with
  | none => none
  | some fork =>
    match journal.rewindTo fork.selected swap release context with
    | none => none
    | some (rewound, between) =>
      match visitForward swap journal.detached between with
      | none => none
      | some (visited, after) =>
        some
          ({ rewound with
              current := rewound.current ++ visited
              detached := []
              chunks := fork.priorChunks
              records := fork.priorRecords
              fork := none },
            after)

def acceptCheckpointCandidateWith (journal : PackedJournal ρ) (release : ρ → γ → Option γ)
    (context : γ) : Option (PackedJournal ρ × γ) :=
  match journal.fork with
  | none => none
  | some _ =>
    match releaseChunks release journal.detached journal.slots context with
    | none => none
    | some (slots, released) =>
      some
        ({ journal with
            slots := slots
            detached := []
            fork := none
            intervalTailOpen := false },
          released)

end PackedJournal

end Umber.Command
