import Umber.Incr.Live
import Umber.Lib.Except

/-! The checkpoint budget of a live history call by call. Every place where the
source would panic is a fault here, and every release is handed to the caller. -/

set_option autoImplicit false

namespace Umber.Incr

inductive BudgetFault where
  | ownerNotObserved
  | ownerUnderflow
  | keyNotLive (error : RetainedEngineAccessError)
  | rootWithoutKey
  | rootWithoutRetention
  | prunedRowHasKey
  | prunedRowHasRetention
  | rowOutOfRange
  | historyNotEmpty
  | anchorOccupied
  | loopUnfinished
  deriving DecidableEq

def SharedOwnerRetention.key (entry : SharedOwnerRetention) : Nat × CheckpointOwnerFamily :=
  (entry.owner, entry.family)

def CheckpointOwnerCharge.key (charge : CheckpointOwnerCharge) : Nat × CheckpointOwnerFamily :=
  (charge.owner, charge.family)

/-- One step of `releaseSharedOwners`. -/
def releaseOwner (charges : List SharedOwnerRetention) (charge : CheckpointOwnerCharge) :
    Except BudgetFault (List SharedOwnerRetention) :=
  match charges.find? fun entry => entry.key = charge.key with
  | none => .error .ownerNotObserved
  | some entry =>
    if entry.restartRoots = 0 then .error .ownerUnderflow
    else .ok (LiveHistoryState.releaseSharedOwners charges ⟨[charge], 0⟩)

def releaseOwners (charges : List SharedOwnerRetention) (retention : CheckpointRetention) :
    Except BudgetFault (List SharedOwnerRetention) :=
  retention.sharedOwners.foldlM releaseOwner charges

namespace LiveHistoryState

variable {Identity : Type} [DecidableEq Identity]

def settleOverage (state : LiveHistoryState Identity) : LiveHistoryState Identity :=
  { state with protectedOverageBytes := state.retainedBytes - state.checkpointBudget }

def clearAnchor (state : LiveHistoryState Identity) (slot : ReplayAnchorSlot) :
    LiveHistoryState Identity :=
  match slot with
  | .history index => { state with checkpointKeys := state.checkpointKeys.set index none }
  | .currentCandidate => { state with currentCandidateReplayAnchor := none }
  | .jobStart => { state with jobStartReplayAnchor := none }

/-- The key of the latest anchor leaves the history until it is restored. -/
def takeLatestReplayAnchor (state : LiveHistoryState Identity) :
    Option (ReplayAnchorLease × LiveHistoryState Identity) :=
  state.latestReplayAnchor.map fun lease => (lease, state.clearAnchor lease.slot)

def restoreReplayAnchor (state : LiveHistoryState Identity) (lease : ReplayAnchorLease) :
    Except BudgetFault (LiveHistoryState Identity) :=
  match lease.slot with
  | .jobStart =>
    if state.jobStartReplayAnchor.isSome then .error .anchorOccupied
    else .ok { state with jobStartReplayAnchor := some lease.key }
  | .currentCandidate =>
    if state.currentCandidateReplayAnchor.isSome then .error .anchorOccupied
    else .ok { state with currentCandidateReplayAnchor := some lease.key }
  | .history index =>
    match state.checkpointKeys[index]? with
    | none => .error .rowOutOfRange
    | some (some _) => .error .anchorOccupied
    | some none =>
      .ok { state with checkpointKeys := state.checkpointKeys.set index (some lease.key) }

end LiveHistoryState

namespace LiveHistorySink

variable {Identity Runtime : Type} [DecidableEq Identity]

def takeVictim (sink : LiveHistorySink Identity Runtime) (victim : Nat) :
    Except BudgetFault (Nat × LiveHistorySink Identity Runtime) :=
  match (sink.state.checkpointKeys[victim]?).join with
  | none => .error .rootWithoutKey
  | some key =>
    match sink.retained.releaseKey key with
    | .error error => .error (.keyNotLive error)
    | .ok lane =>
      match (sink.state.checkpointRetentions[victim]?).join with
      | none => .error .rootWithoutRetention
      | some retention => do
        let charges ← releaseOwners sink.state.sharedOwnerCharges retention
        .ok (key,
          { state := LiveHistoryState.settleOverage
              { sink.state with
                checkpointKeys := sink.state.checkpointKeys.set victim none
                checkpointRetentions := sink.state.checkpointRetentions.set victim none
                sharedOwnerCharges := charges }
            retained := lane })

def removeVictim (sink : LiveHistorySink Identity Runtime) (victim : Nat) :
    Except BudgetFault (LiveHistorySink Identity Runtime) :=
  match sink.state.checkpointKeys[victim]?, sink.state.checkpointRetentions[victim]? with
  | some none, some none => .ok (sink.pruneEvidence victim)
  | some (some _), _ => .error .prunedRowHasKey
  | some none, some (some _) => .error .prunedRowHasRetention
  | _, _ => .error .rowOutOfRange

/-- Rounds of the release loop, up to the first restart root it releases. -/
def budgetRounds : Nat → LiveHistorySink Identity Runtime →
    Except BudgetFault (Option Nat × LiveHistorySink Identity Runtime)
  | 0, _ => .error .loopUnfinished
  | fuel + 1, sink =>
    if sink.state.checkpointBudget < sink.state.retainedBytes then
      match sink.state.restartVictim with
      | some victim => (sink.takeVictim victim).map fun taken => (some taken.1, taken.2)
      | none =>
        match sink.state.evidenceVictim with
        | some victim => sink.removeVictim victim >>= budgetRounds fuel
        | none => .ok (none, { sink with state := sink.state.settleOverage })
    else .ok (none, { sink with state := sink.state.settleOverage })

def takeBudgetRelease (sink : LiveHistorySink Identity Runtime) :
    Except BudgetFault (Option Nat × LiveHistorySink Identity Runtime) :=
  sink.budgetRounds (sink.state.records.length + 1)

def drainRounds : Nat → LiveHistorySink Identity Runtime →
    Except BudgetFault (List Nat × LiveHistorySink Identity Runtime)
  | 0, _ => .error .loopUnfinished
  | fuel + 1, sink =>
    match sink.takeBudgetRelease with
    | .error fault => .error fault
    | .ok (none, settled) => .ok ([], settled)
    | .ok (some key, next) =>
      (drainRounds fuel next).map fun drained => (key :: drained.1, drained.2)

def drainBudget (sink : LiveHistorySink Identity Runtime) :
    Except BudgetFault (List Nat × LiveHistorySink Identity Runtime) :=
  sink.drainRounds (sink.state.checkpointKeys.countP (·.isSome) + 1)

def dropLastRow (sink : LiveHistorySink Identity Runtime) : LiveHistorySink Identity Runtime :=
  { sink with
    state :=
      { sink.state with
        checkpointKeys := sink.state.checkpointKeys.dropLast
        checkpointRetentions := sink.state.checkpointRetentions.dropLast } }

def popRow (sink : LiveHistorySink Identity Runtime) :
    Except BudgetFault (Option Nat × LiveHistorySink Identity Runtime) :=
  match sink.state.checkpointKeys.getLast?.join with
  | none => .ok (none, sink.dropLastRow)
  | some key =>
    match sink.retained.releaseKey key with
    | .error error => .error (.keyNotLive error)
    | .ok lane =>
      match sink.state.checkpointRetentions.getLast?.join with
      | none => .ok (some key, { sink.dropLastRow with retained := lane })
      | some retention => do
        let charges ← releaseOwners sink.state.sharedOwnerCharges retention
        .ok (some key,
          { state := { sink.dropLastRow.state with sharedOwnerCharges := charges }
            retained := lane })

def popRows : Nat → LiveHistorySink Identity Runtime →
    Except BudgetFault (List Nat × LiveHistorySink Identity Runtime)
  | 0, sink => .ok ([], sink)
  | count + 1, sink => do
    let popped ← sink.popRow
    let rest ← popRows count popped.2
    .ok (popped.1.toList ++ rest.1, rest.2)

def truncateRecords (sink : LiveHistorySink Identity Runtime) (kept : Nat)
    (source : Option BoundaryKey) : LiveHistorySink Identity Runtime :=
  let records := sink.state.records.take kept
  { sink with
    state := LiveHistoryState.settleOverage
      { sink.state with
        records := records
        paragraphs := paragraphCount records
        occurrences := LiveHistoryState.occurrencesOf records
        convergence := sink.state.convergence.map fun comparison =>
          LiveHistoryState.rewindConvergence comparison source } }

def rewindReleasing (sink : LiveHistorySink Identity Runtime) (slot : ReplayAnchorSlot) :
    Except BudgetFault (List Nat × LiveHistorySink Identity Runtime) := do
  let kept := sink.state.keptRecords slot
  let popped ← sink.popRows (sink.state.checkpointKeys.length - kept)
  .ok (popped.1, popped.2.truncateRecords kept (rewindSource sink.state slot))

end LiveHistorySink

structure BudgetRun (Identity Runtime : Type) where
  sink : LiveHistorySink Identity Runtime
  leases : List ReplayAnchorLease
  released : List Nat

inductive BudgetEvent (Identity Runtime : Type) where
  | inherit (inherited : InheritedBoundary Identity)
  | publish (captured : EngineCheckpoint Identity Runtime)
  | release
  | take
  | rewind (lease : ReplayAnchorLease)
  | restore (lease : ReplayAnchorLease)

namespace BudgetRun

variable {Identity Runtime : Type} [DecidableEq Identity]

def start (revision recordBytes checkpointBudget : Nat)
    (convergence : Option (LiveConvergence Identity)) (lane : BoundaryLane Identity Runtime) :
    BudgetRun Identity Runtime where
  sink :=
    { state := .new revision recordBytes checkpointBudget convergence
      retained := lane }
  leases := []
  released := []

section Events

variable (definitionsMatch : Runtime → Runtime → Bool)

def step (run : BudgetRun Identity Runtime) :
    BudgetEvent Identity Runtime → Except BudgetFault (BudgetRun Identity Runtime)
  | .inherit inherited =>
    if run.sink.state.records.isEmpty then
      .ok { run with sink := { run.sink with state := run.sink.state.inheritBoundary inherited } }
    else .error .historyNotEmpty
  | .publish captured => .ok { run with sink := run.sink.checkpoint definitionsMatch captured }
  | .release =>
    run.sink.takeBudgetRelease.map fun taken =>
      { run with sink := taken.2, released := run.released ++ taken.1.toList }
  | .take =>
    match run.sink.state.takeLatestReplayAnchor with
    | none => .ok run
    | some taken =>
      .ok
        { run with
          sink := { run.sink with state := taken.2 }
          leases := taken.1 :: run.leases }
  | .rewind lease =>
    if lease ∈ run.leases then
      (run.sink.rewindReleasing lease.slot).map fun rewound =>
        { run with sink := rewound.2, released := run.released ++ rewound.1 }
    else .ok run
  | .restore lease =>
    if lease ∈ run.leases then
      (run.sink.state.restoreReplayAnchor lease).map fun state =>
        { run with sink := { run.sink with state := state }, leases := run.leases.erase lease }
    else .ok run

def steps (run : BudgetRun Identity Runtime) (events : List (BudgetEvent Identity Runtime)) :
    Except BudgetFault (BudgetRun Identity Runtime) :=
  events.foldlM (step definitionsMatch) run

end Events

end BudgetRun

end Umber.Incr
