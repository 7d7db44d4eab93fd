import Umber.Incr.Lane

/-! The live history of one candidate: publication of boundaries, the live
convergence matcher, budget releases and the rewind after a declined resource. -/

set_option autoImplicit false

namespace Umber.Incr

structure LiveConvergence (Identity : Type) where
  accepted : List (BoundaryRecord Identity)
  initialNextOld : Nat
  nextOld : Nat
  edit : Option RevisionEditMap
  restart : BoundaryKey
  matched : Option (BoundaryKey × BoundaryKey)
  scheduleDiverged : Bool

structure SharedOwnerRetention where
  owner : Nat
  family : CheckpointOwnerFamily
  bytes : Nat
  restartRoots : Nat

/-- `recordBytes` is the size the source charges for one detached record. -/
structure LiveHistoryState (Identity : Type) where
  revision : Nat
  records : List (BoundaryRecord Identity)
  occurrences : List ((Nat × EngineBoundary) × Nat)
  paragraphs : Nat
  checkpointKeys : List (Option Nat)
  jobStartReplayAnchor : Option Nat
  currentCandidateReplayAnchor : Option Nat
  checkpointRetentions : List (Option CheckpointRetention)
  recordBytes : Nat
  checkpointBudget : Nat
  sharedOwnerCharges : List SharedOwnerRetention
  checkpointMetadataBytes : Nat
  protectedOverageBytes : Nat
  convergence : Option (LiveConvergence Identity)

structure InheritedBoundary (Identity : Type) where
  key : Nat
  evidence : RetainedBoundaryEvidence Identity
  retention : CheckpointRetention
  publishRecord : Bool

namespace LiveHistoryState

variable {Identity : Type} [DecidableEq Identity]

def new (revision recordBytes checkpointBudget : Nat)
    (convergence : Option (LiveConvergence Identity)) : LiveHistoryState Identity where
  revision := revision
  records := []
  occurrences := []
  paragraphs := 0
  checkpointKeys := []
  jobStartReplayAnchor := none
  currentCandidateReplayAnchor := none
  checkpointRetentions := []
  recordBytes := recordBytes
  checkpointBudget := checkpointBudget
  sharedOwnerCharges := []
  checkpointMetadataBytes := 0
  protectedOverageBytes := 0
  convergence := convergence

def nextOrdinal (occurrences : List ((Nat × EngineBoundary) × Nat)) (place : Nat × EngineBoundary) :
    Nat :=
  (occurrences.lookup place).getD 0

def setOrdinal (occurrences : List ((Nat × EngineBoundary) × Nat)) (place : Nat × EngineBoundary)
    (next : Nat) : List ((Nat × EngineBoundary) × Nat) :=
  (place, next) :: occurrences.filter fun entry => entry.1 ≠ place

/-- The accepted row a new boundary is compared with. The matcher walks the
accepted rows in order and gives up at the first one whose key does not agree. -/
def convergenceTarget (state : LiveHistoryState Identity) (record : BoundaryRecord Identity) :
    Option BoundaryKey × LiveHistoryState Identity :=
  match state.convergence with
  | none => (none, state)
  | some comparison =>
    if comparison.matched.isSome || comparison.scheduleDiverged then (none, state)
    else if state.records.isEmpty && record.key == comparison.restart then (none, state)
    else
      let diverged :=
        { state with convergence := some { comparison with scheduleDiverged := true } }
      match comparison.accepted[comparison.nextOld]? with
      | none => (none, diverged)
      | some old =>
        match mappedKey comparison.edit old.key with
        | none => (none, diverged)
        | some key =>
          if key ≠ record.key then (none, diverged)
          else
            (some old.key,
              { state with
                convergence := some { comparison with nextOld := comparison.nextOld + 1 } })

def recordConvergenceMatch (state : LiveHistoryState Identity) (old new : BoundaryKey) :
    LiveHistoryState Identity :=
  { state with
    convergence := state.convergence.map fun comparison =>
      { comparison with matched := some (old, new) } }

def convergenceMatch (state : LiveHistoryState Identity) : Option (BoundaryKey × BoundaryKey) :=
  state.convergence.bind (·.matched)

def observeSharedOwners (charges : List SharedOwnerRetention) (retention : CheckpointRetention) :
    List SharedOwnerRetention :=
  retention.sharedOwners.foldl
    (fun charges charge =>
      if charges.any fun entry => entry.owner = charge.owner ∧ entry.family = charge.family then
        charges.map fun entry =>
          if entry.owner = charge.owner ∧ entry.family = charge.family then
            { entry with
              bytes := max entry.bytes charge.bytes
              restartRoots := entry.restartRoots + 1 }
          else entry
      else
        charges ++
          [{ owner := charge.owner
             family := charge.family
             bytes := charge.bytes
             restartRoots := 1 }])
    charges

/-- Every released owner was observed at publication; the source panics
otherwise. -/
def releaseSharedOwners (charges : List SharedOwnerRetention) (retention : CheckpointRetention) :
    List SharedOwnerRetention :=
  retention.sharedOwners.foldl
    (fun charges charge =>
      (charges.map fun entry =>
        if entry.owner = charge.owner ∧ entry.family = charge.family then
          { entry with restartRoots := entry.restartRoots - 1 }
        else entry).filter fun entry =>
          ¬ (entry.owner = charge.owner ∧ entry.family = charge.family ∧ entry.restartRoots = 0))
    charges

def inheritBoundary (state : LiveHistoryState Identity) (inherited : InheritedBoundary Identity) :
    LiveHistoryState Identity :=
  if inherited.publishRecord then
    { state with
      records := state.records ++
        [{ revision := state.revision
           key := inherited.evidence.key
           effectPrefix := inherited.evidence.effectPrefix
           artifactPrefix := inherited.evidence.artifactPrefix
           reachableStateIdentity := inherited.evidence.reachableStateIdentity
           directConvergenceSource := none }]
      occurrences := setOrdinal state.occurrences
        (inherited.evidence.position, inherited.evidence.boundary) (inherited.evidence.ordinal + 1)
      sharedOwnerCharges := observeSharedOwners state.sharedOwnerCharges inherited.retention
      checkpointMetadataBytes :=
        max state.checkpointMetadataBytes inherited.retention.checkpointMetadataBytes
      checkpointKeys := state.checkpointKeys ++ [some inherited.key]
      checkpointRetentions := state.checkpointRetentions ++ [some inherited.retention] }
  else { state with currentCandidateReplayAnchor := some inherited.key }

def restartMetadataBytes (state : LiveHistoryState Identity) : Nat :=
  (state.checkpointKeys.countP (·.isSome)) * state.checkpointMetadataBytes

def detachedBoundaryBytes (state : LiveHistoryState Identity) : Nat :=
  state.records.length * state.recordBytes

def sharedOwnerBytes (state : LiveHistoryState Identity) : Nat :=
  state.sharedOwnerCharges.foldl (fun total charge => total + charge.bytes) 0

def retainedBytes (state : LiveHistoryState Identity) : Nat :=
  state.sharedOwnerBytes + state.restartMetadataBytes + state.detachedBoundaryBytes

/-- The first index from `1` on that satisfies a predicate on the record and
its key. -/
def firstFrom (state : LiveHistoryState Identity)
    (accepted : Nat → BoundaryRecord Identity → Option Nat → Bool) : Option Nat :=
  ((state.records.zip state.checkpointKeys).zipIdx.find? fun entry =>
    entry.2 != 0 && accepted entry.2 entry.1.1 entry.1.2).map (·.2)

def restartVictim (state : LiveHistoryState Identity) : Option Nat :=
  (state.firstFrom fun _ record key =>
      key.isSome && record.key.boundary == .outerParagraphEnd) <|>
    state.firstFrom fun _ _ key => key.isSome

def evidenceVictim (state : LiveHistoryState Identity) : Option Nat :=
  if state.records.length ≤ 2 then none
  else
    let newest := state.records.length - 1
    (state.firstFrom fun index record _ =>
        index != newest && record.key.boundary == .outerParagraphEnd) <|>
      state.firstFrom fun index _ _ => index != newest

end LiveHistoryState

structure LiveHistorySink (Identity Runtime : Type) where
  state : LiveHistoryState Identity
  retained : BoundaryLane Identity Runtime

namespace LiveHistorySink

variable {Identity Runtime : Type} [DecidableEq Identity]

/-- Takes the restart root of one row back. A failing release panics in the
source; it cannot fail for a key the history holds. -/
def releaseRestart (sink : LiveHistorySink Identity Runtime) (victim : Nat) :
    LiveHistorySink Identity Runtime :=
  let key := (sink.state.checkpointKeys[victim]?).join
  let retention := (sink.state.checkpointRetentions[victim]?).join
  { state :=
      { sink.state with
        checkpointKeys := sink.state.checkpointKeys.set victim none
        checkpointRetentions := sink.state.checkpointRetentions.set victim none
        sharedOwnerCharges :=
          match retention with
          | some retention =>
            LiveHistoryState.releaseSharedOwners sink.state.sharedOwnerCharges retention
          | none => sink.state.sharedOwnerCharges }
    retained :=
      match key with
      | some key =>
        match sink.retained.releaseKey key with
        | .ok lane => lane
        | .error _ => sink.retained
      | none => sink.retained }

def pruneEvidence (sink : LiveHistorySink Identity Runtime) (victim : Nat) :
    LiveHistorySink Identity Runtime :=
  { sink with
    state :=
      { sink.state with
        records := sink.state.records.eraseIdx victim
        checkpointKeys := sink.state.checkpointKeys.eraseIdx victim
        checkpointRetentions := sink.state.checkpointRetentions.eraseIdx victim } }

/-- One round of the release loop; `none` when the budget is met or nothing is
left to release. -/
def releaseRound (sink : LiveHistorySink Identity Runtime) :
    Option (LiveHistorySink Identity Runtime) :=
  if sink.state.checkpointBudget < sink.state.retainedBytes then
    match sink.state.restartVictim with
    | some victim => some (sink.releaseRestart victim)
    | none => sink.state.evidenceVictim.map sink.pruneEvidence
  else none

def releaseRounds : Nat → LiveHistorySink Identity Runtime → LiveHistorySink Identity Runtime
  | 0, sink => sink
  | fuel + 1, sink =>
    match sink.releaseRound with
    | none => sink
    | some next => releaseRounds fuel next

def releaseFuel (sink : LiveHistorySink Identity Runtime) : Nat :=
  sink.state.records.length + sink.state.checkpointKeys.countP (·.isSome)

def releaseAll (sink : LiveHistorySink Identity Runtime) : LiveHistorySink Identity Runtime :=
  let settled := sink.releaseRounds sink.releaseFuel
  { settled with
    state :=
      { settled.state with
        protectedOverageBytes := settled.state.retainedBytes - settled.state.checkpointBudget } }

section Publication

variable (definitionsMatch : Runtime → Runtime → Bool)

def reachableStateMatches (checkpoint prior : EngineCheckpoint Identity Runtime) : Bool :=
  checkpoint.reachableStateIdentity.isSome &&
    checkpoint.reachableStateIdentity == prior.reachableStateIdentity &&
    definitionsMatch checkpoint.runtime prior.runtime

def matchPrior (sink : LiveHistorySink Identity Runtime)
    (checkpoint : EngineCheckpoint Identity Runtime) (target : Option BoundaryKey) :
    Option BoundaryKey :=
  target.filter fun key =>
    (sink.retained.detachedCheckpointAt key).any fun prior =>
      reachableStateMatches definitionsMatch checkpoint prior

def checkpoint (sink : LiveHistorySink Identity Runtime)
    (checkpoint : EngineCheckpoint Identity Runtime) : LiveHistorySink Identity Runtime :=
  let position := checkpoint.rootAnchor
  let boundary := checkpoint.boundary
  let state := sink.state
  let paragraphs :=
    if boundary = .outerParagraphEnd then state.paragraphs + 1 else state.paragraphs
  let ordinal := LiveHistoryState.nextOrdinal state.occurrences (position, boundary)
  let record : BoundaryRecord Identity :=
    { revision := state.revision
      key := { position := position, boundary := boundary, ordinal := ordinal }
      effectPrefix := checkpoint.effectPrefixLen
      artifactPrefix := checkpoint.artifactPrefixLen
      reachableStateIdentity := checkpoint.reachableStateIdentity
      directConvergenceSource := none }
  let (target, state) := state.convergenceTarget record
  let source := matchPrior definitionsMatch sink checkpoint target
  let record := { record with directConvergenceSource := source }
  let state :=
    match source with
    | some old => state.recordConvergenceMatch old record.key
    | none => state
  let evidence : RetainedBoundaryEvidence Identity :=
    { revision := state.revision
      position := position
      boundary := boundary
      ordinal := ordinal
      effectPrefix := checkpoint.effectPrefixLen
      artifactPrefix := checkpoint.artifactPrefixLen
      reachableStateIdentity := checkpoint.reachableStateIdentity }
  let (key, retained) := sink.retained.appendCell (some checkpoint) evidence
  let state :=
    { state with
      paragraphs := paragraphs
      occurrences := LiveHistoryState.setOrdinal state.occurrences (position, boundary) (ordinal + 1)
      records := state.records ++ [record] }
  if boundary = .jobStart then
    { state :=
        { state with
          checkpointKeys := state.checkpointKeys ++ [none]
          checkpointRetentions := state.checkpointRetentions ++ [none]
          jobStartReplayAnchor := some key }
      retained := retained }
  else
    { state :=
        { state with
          sharedOwnerCharges :=
            LiveHistoryState.observeSharedOwners state.sharedOwnerCharges checkpoint.retention
          checkpointMetadataBytes :=
            max state.checkpointMetadataBytes checkpoint.retention.checkpointMetadataBytes
          checkpointKeys := state.checkpointKeys ++ [some key]
          checkpointRetentions := state.checkpointRetentions ++ [some checkpoint.retention] }
      retained := retained }

/-- Publication of a boundary by the output ledger: the checkpoint, then every
release the budget asks for. -/
def publish (sink : LiveHistorySink Identity Runtime)
    (captured : EngineCheckpoint Identity Runtime) : LiveHistorySink Identity Runtime :=
  (sink.checkpoint definitionsMatch captured).releaseAll

end Publication

def stopRequested (sink : LiveHistorySink Identity Runtime) : Bool :=
  sink.state.convergenceMatch.isSome

end LiveHistorySink

inductive ReplayAnchorSlot where
  | jobStart
  | currentCandidate
  | history (index : Nat)
  deriving DecidableEq

structure ReplayAnchorLease where
  slot : ReplayAnchorSlot
  key : Nat
  deriving DecidableEq

namespace LiveHistoryState

variable {Identity : Type} [DecidableEq Identity]

/-- The latest restartable row of the candidate, else the root it was forked
from, else its job start. -/
def latestReplayAnchor (state : LiveHistoryState Identity) : Option ReplayAnchorLease :=
  match (state.checkpointKeys.zipIdx.reverse.findSome? fun entry =>
      entry.1.map fun key => { slot := .history entry.2, key := key }) with
  | some lease => some lease
  | none =>
    match state.currentCandidateReplayAnchor with
    | some key => some { slot := .currentCandidate, key := key }
    | none => state.jobStartReplayAnchor.map fun key => { slot := .jobStart, key := key }

def keptRecords (state : LiveHistoryState Identity) (slot : ReplayAnchorSlot) : Nat :=
  match slot with
  | .history index => min (index + 1) state.records.length
  | .jobStart =>
    match state.records.findIdx? fun record => record.key.boundary = .jobStart with
    | some index => index + 1
    | none => 0
  | .currentCandidate => 0

def occurrencesOf (records : List (BoundaryRecord Identity)) :
    List ((Nat × EngineBoundary) × Nat) :=
  records.foldl
    (fun occurrences record =>
      let place := (record.key.position, record.key.boundary)
      setOrdinal occurrences place (max (nextOrdinal occurrences place) (record.key.ordinal + 1)))
    []

def rewindConvergence (comparison : LiveConvergence Identity) (source : Option BoundaryKey) :
    LiveConvergence Identity :=
  { comparison with
    nextOld :=
      match source.bind fun source =>
          comparison.accepted.findIdx? fun record => record.key = source with
      | some index => index + 1
      | none => comparison.initialNextOld
    matched := none
    scheduleDiverged := false }

end LiveHistoryState

namespace LiveHistorySink

variable {Identity Runtime : Type} [DecidableEq Identity]

def releaseSuffix : Nat → LiveHistorySink Identity Runtime → LiveHistorySink Identity Runtime
  | 0, sink => sink
  | count + 1, sink =>
    releaseSuffix count (sink.releaseRestart (sink.state.checkpointKeys.length - 1) |> fun sink =>
      { sink with
        state :=
          { sink.state with
            checkpointKeys := sink.state.checkpointKeys.dropLast
            checkpointRetentions := sink.state.checkpointRetentions.dropLast } })

def rewindSource (state : LiveHistoryState Identity) (slot : ReplayAnchorSlot) :
    Option BoundaryKey :=
  match slot with
  | .history index => (state.records[index]?).bind (·.directConvergenceSource)
  | .jobStart | .currentCandidate => none

def rewindAfterAnchor (sink : LiveHistorySink Identity Runtime) (slot : ReplayAnchorSlot) :
    LiveHistorySink Identity Runtime :=
  let kept := sink.state.keptRecords slot
  let source := rewindSource sink.state slot
  let released := sink.releaseSuffix (sink.state.checkpointKeys.length - kept)
  let records := released.state.records.take kept
  let state :=
    { released.state with
      records := records
      paragraphs := paragraphCount records
      occurrences := LiveHistoryState.occurrencesOf records
      convergence := released.state.convergence.map fun comparison =>
        LiveHistoryState.rewindConvergence comparison source }
  { released with
    state := { state with protectedOverageBytes := state.retainedBytes - state.checkpointBudget } }

end LiveHistorySink

end Umber.Incr
