import Umber.Incr.Lane
import Umber.Incr.Live

/-! The editor session: selection of a restart, preparation of a completed
candidate against the accepted revision and its acceptance. -/

set_option autoImplicit false

namespace Umber.Incr

/-! ## Detached output -/

structure DetachedPreparedPage (Page : Type) where
  artifact : Page
  openOutOccurrences : List (Nat × Nat)

inductive EngineCompletionError where
  | outputSplice (message : String)

def effectOrdinalLimit : Nat := 4294967296

def rebaseOccurrence (oldEffects newEffects : Nat) (occurrence : Nat × Nat) :
    Except EngineCompletionError (Nat × Nat) :=
  if occurrence.2 ≤ oldEffects then .ok occurrence
  else if newEffects + (occurrence.2 - oldEffects) < effectOrdinalLimit then
    .ok (occurrence.1, newEffects + (occurrence.2 - oldEffects))
  else .error (.outputSplice "effect position overflow")

def DetachedPreparedPage.rebaseOpenOutSuffix {Page : Type} (page : DetachedPreparedPage Page)
    (oldEffects newEffects : Nat) : Except EngineCompletionError (DetachedPreparedPage Page) :=
  if effectOrdinalLimit ≤ oldEffects then .error (.outputSplice "old effect prefix overflow")
  else if effectOrdinalLimit ≤ newEffects then .error (.outputSplice "new effect prefix overflow")
  else do
    let occurrences ← page.openOutOccurrences.mapM (rebaseOccurrence oldEffects newEffects)
    return { page with openOutOccurrences := occurrences }

structure DetachedEngineCompletion (Effect Page : Type) where
  effectBase : Nat
  effects : List Effect
  pages : List (DetachedPreparedPage Page)

/-- Replaces the output behind a convergence point with the retained rows. -/
def DetachedEngineCompletion.spliceRetainedSuffix {Effect Page : Type}
    (completion retained : DetachedEngineCompletion Effect Page)
    (newEffectPrefix oldEffectPrefix newArtifactPrefix oldArtifactPrefix : Nat) :
    Except EngineCompletionError (DetachedEngineCompletion Effect Page) := do
  let newEffects := min (newEffectPrefix - completion.effectBase) completion.effects.length
  let oldEffects := min (oldEffectPrefix - retained.effectBase) retained.effects.length
  let adopted ← (retained.pages.drop (min oldArtifactPrefix retained.pages.length)).mapM
    fun page => page.rebaseOpenOutSuffix oldEffects newEffects
  pure
    { effectBase := completion.effectBase
      effects := completion.effects.take newEffects ++ retained.effects.drop oldEffects
      pages := completion.pages.take (min newArtifactPrefix completion.pages.length) ++ adopted }

/-- What the host supplied besides the root source. -/
abbrev RegisteredInputs := List (String × List UInt8)

structure Session (Identity Runtime Effect Page : Type) where
  revision : Nat
  source : List UInt8
  registeredInputs : RegisteredInputs
  recordBytes : Nat
  checkpointBudget : Nat
  history : List (BoundaryRecord Identity)
  priorGeneration : Option (BoundaryLane Identity Runtime)
  acceptedCompletion : Option (DetachedEngineCompletion Effect Page)

structure CandidatePlan where
  baseRevision : Nat
  baseSource : List UInt8
  revision : Nat
  source : List UInt8
  executionPath : RevisionExecutionPath
  restartLimit : Option Nat
  editMap : Option RevisionEditMap
  restartBoundary : Option BoundaryKey

structure CandidateCompletion (Identity Effect Page : Type) where
  completion : DetachedEngineCompletion Effect Page
  history : List (BoundaryRecord Identity)

/-- A candidate before it runs. `checkpoint` is the restored runtime of a
rooted candidate; without one the candidate starts at the job start. -/
structure RevisionCandidate (Identity Runtime : Type) where
  plan : CandidatePlan
  registeredInputs : RegisteredInputs
  checkpoint : Option (EngineCheckpoint Identity Runtime)
  inheritedBoundary : Option (InheritedBoundary Identity)
  materializedJobStart : Bool
  lane : BoundaryLane Identity Runtime
  comparisonHistory : List (BoundaryRecord Identity)
  comparisonStart : Option Nat

structure RevisionTransaction (Identity Runtime Effect Page : Type) where
  baseRevision : Nat
  baseSource : List UInt8
  revision : Nat
  source : List UInt8
  restartBoundary : Option BoundaryKey
  editMap : Option RevisionEditMap
  convergenceSourceBoundary : Option BoundaryKey
  completion : DetachedEngineCompletion Effect Page
  history : List (BoundaryRecord Identity)
  reuse : ReuseMetrics
  lane : BoundaryLane Identity Runtime

structure AcceptedOutput (Effect Page : Type) where
  revision : Nat
  completion : DetachedEngineCompletion Effect Page
  reuse : ReuseMetrics

inductive SessionError where
  | staleRevision (expected actual : Nat)
  | contentHashMismatch
  | nonMonotonicRevision
  | invalidEditRange
  | retainedEngine (error : RetainedEngineAccessError)
  | completion (error : EngineCompletionError)

/-- A reported error, or an internal expectation that does not hold and stops
the program. -/
inductive SessionFailure where
  | error (error : SessionError)
  | expectation (message : String)

def expect {α : Type} (value : Option α) (message : String) : Except SessionFailure α :=
  match value with
  | some value => .ok value
  | none => .error (.expectation message)

namespace Session

variable {Identity Runtime Effect Page : Type} [DecidableEq Identity]

def externalInputDeltaPlan (session : Session Identity Runtime Effect Page) : CandidatePlan where
  baseRevision := session.revision
  baseSource := session.source
  revision := session.revision
  source := session.source
  executionPath := .externalInputDelta
  restartLimit := none
  editMap := none
  restartBoundary := none

def advancePlan (session : Session Identity Runtime Effect Page) (nextRevision : Nat)
    (edit : Edit) (executionPath : RevisionExecutionPath) : CandidatePlan where
  baseRevision := session.revision
  baseSource := session.source
  revision := nextRevision
  source := edit.apply session.source
  executionPath := executionPath
  restartLimit := if executionPath = .slowEdit then some edit.start else none
  editMap := some edit.map
  restartBoundary := none

def selectRestart (session : Session Identity Runtime Effect Page) (plan : CandidatePlan) :
    Option (BoundaryCell Identity Runtime × EngineCheckpoint Identity Runtime ×
      BoundaryLane Identity Runtime) := do
  let prior ← session.priorGeneration
  let limit ← plan.restartLimit
  let selected ← prior.latestRestartAtOrBefore limit
  let checkpoint ← selected.checkpoint
  match prior.begin selected.record with
  | .ok forked => some (selected, checkpoint, forked)
  | .error _ => none

def candidate (session : Session Identity Runtime Effect Page) (plan : CandidatePlan) :
    RevisionCandidate Identity Runtime :=
  match session.selectRestart plan with
  | some (selected, checkpoint, forked) =>
    let selectedBoundary := selected.evidence.key
    { plan := { plan with restartBoundary := some selectedBoundary }
      registeredInputs := session.registeredInputs
      checkpoint := some checkpoint
      inheritedBoundary := some
        { key := selected.record
          evidence := selected.evidence
          retention := checkpoint.retention
          publishRecord := !session.history.any fun record => record.key = selectedBoundary }
      materializedJobStart := false
      lane := forked
      comparisonHistory := session.history
      comparisonStart :=
        (session.history.findIdx? fun record => record.key = selectedBoundary).map (· + 1) }
  | none =>
    { plan :=
        { plan with
          restartBoundary :=
            if session.priorGeneration.isSome then
              (session.history.find? fun record => record.key.boundary = .jobStart).map (·.key)
            else plan.restartBoundary }
      registeredInputs := session.registeredInputs
      checkpoint := none
      inheritedBoundary := none
      materializedJobStart := session.priorGeneration.isSome
      lane := .empty
      comparisonHistory := session.history
      comparisonStart := none }

/-- The comparison of the accepted rows behind the restart with the rows the
candidate published. -/
def compareCandidate (session : Session Identity Runtime Effect Page)
    (candidate : RevisionCandidate Identity Runtime)
    (completed : CandidateCompletion Identity Effect Page) : ReuseMetrics :=
  let oldStart := candidate.comparisonStart.getD session.history.length
  let startsAtRestart := candidate.plan.restartBoundary.any fun selected =>
    completed.history.head?.any fun record => record.key = selected
  compareHistories
    { executionPath := candidate.plan.executionPath
      old := session.history.drop oldStart
      new := completed.history.drop (if startsAtRestart then 1 else 0)
      edit := candidate.plan.editMap
      pagesRetyped := completed.completion.pages.length }

/-- With unchanged text and nothing compared, the selected root itself is taken
as the convergence point. -/
def unchangedContentConvergence (session : Session Identity Runtime Effect Page)
    (candidate : RevisionCandidate Identity Runtime) (reuse : ReuseMetrics) : Option BoundaryKey :=
  if reuse.sameHistoryAttempts = 0 ∧ candidate.plan.executionPath ≠ .cold ∧
      candidate.plan.baseSource = candidate.plan.source then
    candidate.plan.restartBoundary.filter fun selected =>
      session.history.any fun record =>
        record.key = selected && record.reachableStateIdentity.isSome
  else none

def decideConvergence (session : Session Identity Runtime Effect Page)
    (candidate : RevisionCandidate Identity Runtime)
    (completed : CandidateCompletion Identity Effect Page) : ReuseMetrics :=
  let reuse := session.compareCandidate candidate completed
  match session.unchangedContentConvergence candidate reuse with
  | some selected =>
    { reuse with
      sameHistoryAttempts := 1
      traceNodesWalked := 1
      convergenceBoundary := some selected
      sameHistoryStop := .matched }
  | none => reuse

def convergenceSource (session : Session Identity Runtime Effect Page) (plan : CandidatePlan)
    (convergence : BoundaryKey) (newRecord : BoundaryRecord Identity) :
    Option (Nat × BoundaryRecord Identity) :=
  (session.history.zipIdx.find? fun entry =>
    mappedKey plan.editMap entry.1.key == some convergence &&
      (plan.restartBoundary == some convergence ||
        entry.1.reachableStateIdentity == newRecord.reachableStateIdentity)).map
    fun entry => (entry.2, entry.1)

/-- The records a convergence decision joins: the new one and the accepted
one. -/
def convergencePair (session : Session Identity Runtime Effect Page) (plan : CandidatePlan)
    (completed : CandidateCompletion Identity Effect Page) (reuse : ReuseMetrics) :
    Option (BoundaryRecord Identity × Nat × BoundaryRecord Identity) := do
  let convergence ← reuse.convergenceBoundary
  let newRecord ← completed.history.find? fun record => record.key = convergence
  let (oldIndex, oldRecord) ← session.convergenceSource plan convergence newRecord
  return (newRecord, oldIndex, oldRecord)

def prepareRevisionCandidate (session : Session Identity Runtime Effect Page)
    (candidate : RevisionCandidate Identity Runtime)
    (completed : CandidateCompletion Identity Effect Page) (lane : BoundaryLane Identity Runtime) :
    Except SessionFailure (RevisionTransaction Identity Runtime Effect Page) := do
  let plan := candidate.plan
  let reuse := session.decideConvergence candidate completed
  let transaction (completion : DetachedEngineCompletion Effect Page) (reuse : ReuseMetrics)
      (source : Option BoundaryKey) : RevisionTransaction Identity Runtime Effect Page :=
    { baseRevision := plan.baseRevision
      baseSource := plan.baseSource
      revision := plan.revision
      source := plan.source
      restartBoundary := plan.restartBoundary
      editMap := plan.editMap
      convergenceSourceBoundary := source
      completion := completion
      history := completed.history
      reuse := { reuse with restartBoundary := plan.restartBoundary }
      lane := lane }
  match session.convergencePair plan completed reuse with
  | none => return transaction completed.completion reuse none
  | some (newRecord, oldIndex, oldRecord) =>
    let reuse :=
      { reuse with
        suffixesAdopted := session.history.length - oldIndex
        pagesRetainedPrefix := newRecord.artifactPrefix
        pagesReused :=
          match session.acceptedCompletion with
          | some accepted => accepted.pages.length - oldRecord.artifactPrefix
          | none => 0
        pagesRetyped := newRecord.artifactPrefix }
    match session.acceptedCompletion with
    | none => return transaction completed.completion reuse (some oldRecord.key)
    | some accepted =>
      match completed.completion.spliceRetainedSuffix accepted newRecord.effectPrefix
          oldRecord.effectPrefix newRecord.artifactPrefix oldRecord.artifactPrefix with
      | .error error => .error (.error (.completion error))
      | .ok spliced => return transaction spliced reuse (some oldRecord.key)

def rehomeRecord (edit : RevisionEditMap) (revision : Nat)
    (newRecord oldRecord record : BoundaryRecord Identity) :
    Except SessionFailure (BoundaryRecord Identity) := do
  let position ← expect (edit.mapPosition record.key.position)
    "adopted suffix anchors map outside the edit"
  pure
    { record with
      revision := revision
      key := { record.key with position := position }
      effectPrefix := newRecord.effectPrefix + (record.effectPrefix - oldRecord.effectPrefix)
      artifactPrefix := newRecord.artifactPrefix + (record.artifactPrefix - oldRecord.artifactPrefix) }

/-- The accepted history of a converged revision: the rows up to the restart
and the moved rows from the convergence row on. -/
def rehomeHistory (history : List (BoundaryRecord Identity)) (edit : RevisionEditMap)
    (revision : Nat) (restart oldConvergence : BoundaryKey) (newRecord : BoundaryRecord Identity) :
    Except SessionFailure (List (BoundaryRecord Identity)) := do
  let restartIndex ← expect (history.findIdx? fun record => record.key = restart)
    "restart boundary belongs to accepted history"
  let convergenceIndex ← expect (history.findIdx? fun record => record.key = oldConvergence)
    "convergence boundary belongs to accepted history"
  let oldRecord ← expect history[convergenceIndex]? "convergence boundary belongs to accepted history"
  let suffix ← (history.drop (max convergenceIndex (restartIndex + 1))).mapM
    (rehomeRecord edit revision newRecord oldRecord)
  return (history.take (restartIndex + 1)).map (fun record => { record with revision := revision }) ++
    suffix

def replaceHistory (history : List (BoundaryRecord Identity)) (restart : Option BoundaryKey)
    (published : List (BoundaryRecord Identity)) : List (BoundaryRecord Identity) :=
  match restart with
  | none => published
  | some selected =>
    if selected.boundary = .jobStart then
      match history.find? fun record => record.key = selected with
      | none => published
      | some anchor =>
        match published.findIdx? fun record => record.key = selected with
        | none => published
        | some index => published.modify index fun record =>
          { record with revision := anchor.revision }
    else
      let kept :=
        match history.findIdx? fun record => record.key = selected with
        | some index => index + 1
        | none => 0
      history.take kept ++ published

/-- The lane of the accepted generation once a converged candidate is dropped. -/
def rejectCandidateLane (prior lane : BoundaryLane Identity Runtime) :
    BoundaryLane Identity Runtime :=
  match lane.ownership with
  | .forked .. => lane.reject
  | .accepted _ => prior

def acceptConverged (session : Session Identity Runtime Effect Page)
    (transaction : RevisionTransaction Identity Runtime Effect Page)
    (prior : BoundaryLane Identity Runtime) (convergence : BoundaryKey) :
    Except SessionFailure (Session Identity Runtime Effect Page) := do
  let edit ← expect transaction.editMap "an editor convergence owns its revision map"
  let restart ← expect transaction.restartBoundary "an editor convergence owns its restart boundary"
  let oldConvergence ← expect transaction.convergenceSourceBoundary
    "convergence names the accepted suffix boundary"
  let newRecord ← expect (transaction.history.find? fun record => record.key = convergence)
    "convergence names the current boundary record"
  let plan : RetainedEditorRevisionRehomePlan :=
    { revision := transaction.revision
      edit := edit
      restart := restart
      convergence := oldConvergence
      newEffectPrefix := newRecord.effectPrefix
      newArtifactPrefix := newRecord.artifactPrefix }
  match (rejectCandidateLane prior transaction.lane).rehomeRevisionSuffix plan with
  | .error error => .error (.error (.retainedEngine error))
  | .ok lane =>
    let history ← rehomeHistory session.history edit transaction.revision restart oldConvergence
      newRecord
    pure
      { session with
        revision := transaction.revision
        source := transaction.source
        history := history
        priorGeneration := some lane
        acceptedCompletion := some transaction.completion }

def acceptRevision (session : Session Identity Runtime Effect Page)
    (transaction : RevisionTransaction Identity Runtime Effect Page) :
    Except SessionFailure (Session Identity Runtime Effect Page × AcceptedOutput Effect Page) := do
  if transaction.baseRevision ≠ session.revision then
    .error (.error (.staleRevision session.revision transaction.baseRevision))
  else if transaction.baseSource ≠ session.source then
    .error (.error .contentHashMismatch)
  else
    let output : AcceptedOutput Effect Page :=
      { revision := transaction.revision
        completion := transaction.completion
        reuse := transaction.reuse }
    match transaction.reuse.convergenceBoundary, session.priorGeneration with
    | some convergence, some prior =>
      let accepted ← session.acceptConverged transaction prior convergence
      return (accepted, output)
    | _, _ =>
      pure
        ({ session with
            revision := transaction.revision
            source := transaction.source
            history :=
              replaceHistory session.history transaction.restartBoundary transaction.history
            priorGeneration := some transaction.lane.accept
            acceptedCompletion := some transaction.completion },
          output)

end Session

/-! ## Execution of a candidate -/

variable {Identity Runtime : Type} [DecidableEq Identity]

def RevisionCandidate.liveConvergence (candidate : RevisionCandidate Identity Runtime) :
    Option (LiveConvergence Identity) :=
  match candidate.comparisonStart, candidate.plan.restartBoundary with
  | some nextOld, some restart =>
    some
      { accepted := candidate.comparisonHistory
        initialNextOld := nextOld
        nextOld := nextOld
        edit := candidate.plan.editMap
        restart := restart
        matched := none
        scheduleDiverged := false }
  | _, _ => none

def RevisionCandidate.startSink (candidate : RevisionCandidate Identity Runtime)
    (recordBytes checkpointBudget : Nat) : LiveHistorySink Identity Runtime :=
  let state := LiveHistoryState.new candidate.plan.revision recordBytes checkpointBudget
    candidate.liveConvergence
  match candidate.inheritedBoundary with
  | some inherited =>
    LiveHistorySink.releaseAll
      { state := state.inheritBoundary inherited, retained := candidate.lane }
  | none => { state := state, retained := candidate.lane }

inductive CandidateEvent (Identity Runtime : Type) where
  | publish (captured : EngineCheckpoint Identity Runtime)
  | suspend

/-- One event of a running candidate. A suspension without a replay anchor ends
the candidate with an error, and so does an event after the stop. -/
inductive CandidateStep (definitionsMatch : Runtime → Runtime → Bool) :
    LiveHistorySink Identity Runtime → CandidateEvent Identity Runtime →
      LiveHistorySink Identity Runtime → Prop where
  | publish {sink : LiveHistorySink Identity Runtime}
      {captured : EngineCheckpoint Identity Runtime} :
      sink.stopRequested = false →
      CandidateStep definitionsMatch sink (.publish captured)
        (sink.publish definitionsMatch captured)
  | suspend {sink : LiveHistorySink Identity Runtime} {anchor : ReplayAnchorLease} :
      sink.stopRequested = false →
      sink.state.latestReplayAnchor = some anchor →
      CandidateStep definitionsMatch sink .suspend (sink.rewindAfterAnchor anchor.slot)

inductive CandidateRun (definitionsMatch : Runtime → Runtime → Bool)
    (condition : LiveHistorySink Identity Runtime → CandidateEvent Identity Runtime → Prop)
    (start : LiveHistorySink Identity Runtime) :
    List (CandidateEvent Identity Runtime) → LiveHistorySink Identity Runtime → Prop where
  | start : CandidateRun definitionsMatch condition start [] start
  | step {events : List (CandidateEvent Identity Runtime)}
      {event : CandidateEvent Identity Runtime} {sink next : LiveHistorySink Identity Runtime} :
      CandidateRun definitionsMatch condition start events sink →
      condition sink event →
      CandidateStep definitionsMatch sink event next →
      CandidateRun definitionsMatch condition start (events ++ [event]) next

theorem CandidateRun.publish {definitionsMatch : Runtime → Runtime → Bool}
    {condition : LiveHistorySink Identity Runtime → CandidateEvent Identity Runtime → Prop}
    {start sink : LiveHistorySink Identity Runtime}
    {events : List (CandidateEvent Identity Runtime)}
    (run : CandidateRun definitionsMatch condition start events sink)
    (captured : EngineCheckpoint Identity Runtime) (safe : condition sink (.publish captured))
    (running : sink.stopRequested = false) :
    CandidateRun definitionsMatch condition start (events ++ [.publish captured])
      (sink.publish definitionsMatch captured) :=
  .step run safe (.publish running)

end Umber.Incr
