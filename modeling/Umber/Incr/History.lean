

/-! Edits of an accepted revision, its named boundaries and their comparison with
the boundaries a candidate published. -/

set_option autoImplicit false

namespace Umber.Incr

/-! ## Edits -/

/-- A replacement of the bytes `[start, stop)` of the accepted source. -/
structure Edit where
  start : Nat
  stop : Nat
  replacement : List UInt8
  ordered : start ≤ stop

def Edit.apply (edit : Edit) (source : List UInt8) : List UInt8 :=
  source.take edit.start ++ edit.replacement ++ source.drop edit.stop

structure RevisionEditMap where
  oldStart : Nat
  oldEnd : Nat
  newEnd : Nat

def Edit.map (edit : Edit) : RevisionEditMap where
  oldStart := edit.start
  oldEnd := edit.stop
  newEnd := edit.start + edit.replacement.length

def RevisionEditMap.mapPosition (map : RevisionEditMap) (old : Nat) : Option Nat :=
  if old ≤ map.oldStart then
    some old
  else if map.oldEnd ≤ old then
    some (map.newEnd + (old - map.oldEnd))
  else none

theorem Edit.take_apply {edit : Edit} {source : List UInt8} {anchor : Nat}
    (below : anchor ≤ edit.start) (inside : edit.start ≤ source.length) :
    (edit.apply source).take anchor = source.take anchor := by
  have within : anchor ≤ (source.take edit.start).length := by
    rw [List.length_take]
    omega
  rw [Edit.apply, List.append_assoc, List.take_append_of_le_length within, List.take_take,
    Nat.min_eq_left below]

inductive EngineBoundary where
  | jobStart
  | outerParagraphEnd
  deriving DecidableEq

structure BoundaryKey where
  position : Nat
  boundary : EngineBoundary
  ordinal : Nat
  deriving DecidableEq

/-- Detached observation of one boundary. `Identity` is the type of reachable
state identities. -/
structure BoundaryRecord (Identity : Type) where
  revision : Nat
  key : BoundaryKey
  effectPrefix : Nat
  artifactPrefix : Nat
  reachableStateIdentity : Option Identity
  directConvergenceSource : Option BoundaryKey
  deriving DecidableEq

inductive RevisionExecutionPath where
  | cold
  | fastEdit
  | slowEdit
  | externalInputDelta
  | forcedJobStartFallback
  deriving DecidableEq

inductive SameHistoryStop where
  | matched
  | scheduleDiverged
  | hashesDiverged
  | noComparableBoundary
  | notAttempted

structure ReuseMetrics where
  executionPath : RevisionExecutionPath
  restartBoundary : Option BoundaryKey
  convergenceBoundary : Option BoundaryKey
  pagesRetainedPrefix : Nat
  pagesReused : Nat
  pagesRetyped : Nat
  reexecutedParagraphs : Nat
  sameHistoryAttempts : Nat
  sameHistoryHashMismatches : Nat
  traceNodesWalked : Nat
  suffixesAdopted : Nat
  sameHistoryStop : SameHistoryStop

variable {Identity : Type} [DecidableEq Identity]

/-- The position an accepted boundary has in the edited text; without an edit
map positions stay. -/
def mappedPosition (edit : Option RevisionEditMap) (position : Nat) : Option Nat :=
  match edit with
  | some map => map.mapPosition position
  | none => some position

def mappedKey (edit : Option RevisionEditMap) (key : BoundaryKey) : Option BoundaryKey :=
  (mappedPosition edit key.position).map fun position => { key with position := position }

def paragraphCount (history : List (BoundaryRecord Identity)) : Nat :=
  (history.filter fun record => record.key.boundary = .outerParagraphEnd).length

/-- What a pair of records says: their identities agree and the live matcher
named the accepted one as the source of the new one. -/
def recordsConverge (old new : BoundaryRecord Identity) : Bool :=
  old.reachableStateIdentity.isSome && old.reachableStateIdentity == new.reachableStateIdentity &&
    new.directConvergenceSource == some old.key

structure HistoryWalk where
  attempts : Nat
  mismatches : Nat
  convergence : Option BoundaryKey
  scheduleDiverged : Bool

/-- The walk over paired records; it ends at the first pair whose keys do not
agree. -/
def walkHistories (edit : Option RevisionEditMap) :
    List (BoundaryRecord Identity) → List (BoundaryRecord Identity) → HistoryWalk → HistoryWalk
  | old :: olds, new :: news, walk =>
    match mappedKey edit old.key with
    | none => { walk with scheduleDiverged := true }
    | some key =>
      if key ≠ new.key then
        { walk with scheduleDiverged := true }
      else if recordsConverge old new then
        walkHistories edit olds news
          { walk with
            attempts := walk.attempts + 1
            convergence := walk.convergence <|> some new.key }
      else
        walkHistories edit olds news
          { walk with attempts := walk.attempts + 1, mismatches := walk.mismatches + 1 }
  | [], _, walk => walk
  | _ :: _, [], walk => walk

def HistoryWalk.start : HistoryWalk where
  attempts := 0
  mismatches := 0
  convergence := none
  scheduleDiverged := false

structure HistoryComparison (Identity : Type) where
  executionPath : RevisionExecutionPath
  old : List (BoundaryRecord Identity)
  new : List (BoundaryRecord Identity)
  edit : Option RevisionEditMap
  pagesRetyped : Nat

def compareHistories (comparison : HistoryComparison Identity) : ReuseMetrics :=
  if comparison.executionPath = .cold ∨ comparison.old = [] then
    { executionPath := comparison.executionPath
      restartBoundary := none
      convergenceBoundary := none
      pagesRetainedPrefix := 0
      pagesReused := 0
      pagesRetyped := comparison.pagesRetyped
      reexecutedParagraphs := paragraphCount comparison.new
      sameHistoryAttempts := 0
      sameHistoryHashMismatches := 0
      traceNodesWalked := 0
      suffixesAdopted := 0
      sameHistoryStop := .notAttempted }
  else
    let walk := walkHistories comparison.edit comparison.old comparison.new .start
    { executionPath := comparison.executionPath
      restartBoundary := none
      convergenceBoundary := walk.convergence
      pagesRetainedPrefix := 0
      pagesReused := 0
      pagesRetyped := comparison.pagesRetyped
      reexecutedParagraphs := paragraphCount comparison.new
      sameHistoryAttempts := walk.attempts
      sameHistoryHashMismatches := walk.mismatches
      traceNodesWalked := walk.attempts
      suffixesAdopted := 0
      sameHistoryStop :=
        if walk.convergence.isSome then .matched
        else if walk.scheduleDiverged then .scheduleDiverged
        else if walk.attempts = 0 then .noComparableBoundary
        else .hashesDiverged }

end Umber.Incr
