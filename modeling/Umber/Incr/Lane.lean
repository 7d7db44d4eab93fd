import Umber.Incr.History

/-! Retained boundary rows of one engine generation. The slot pool that stores
the rows is left out: a row is named by its record number. -/

set_option autoImplicit false

namespace Umber.Incr

inductive CheckpointOwnerFamily where
  | command
  | mode
  | page
  | world
  | hyphenation
  | pdf
  | dependency
  | sourceFont
  | core
  deriving DecidableEq

structure CheckpointOwnerCharge where
  owner : Nat
  family : CheckpointOwnerFamily
  bytes : Nat

structure CheckpointRetention where
  sharedOwners : List CheckpointOwnerCharge
  checkpointMetadataBytes : Nat

/-- One captured boundary. `Runtime` is whatever a restore brings back. -/
structure EngineCheckpoint (Identity Runtime : Type) where
  boundary : EngineBoundary
  rootAnchor : Nat
  effectPrefixLen : Nat
  artifactPrefixLen : Nat
  reachableStateIdentity : Option Identity
  retention : CheckpointRetention
  runtime : Runtime

structure RetainedBoundaryEvidence (Identity : Type) where
  revision : Nat
  position : Nat
  boundary : EngineBoundary
  ordinal : Nat
  effectPrefix : Nat
  artifactPrefix : Nat
  reachableStateIdentity : Option Identity

def RetainedBoundaryEvidence.key {Identity : Type} (evidence : RetainedBoundaryEvidence Identity) :
    BoundaryKey where
  position := evidence.position
  boundary := evidence.boundary
  ordinal := evidence.ordinal

structure BoundaryCell (Identity Runtime : Type) where
  record : Nat
  evidence : RetainedBoundaryEvidence Identity
  checkpoint : Option (EngineCheckpoint Identity Runtime)

inductive BoundaryOwnership (Identity Runtime : Type) where
  | accepted (rows : List (BoundaryCell Identity Runtime))
  | forked (kept detachedPrior current : List (BoundaryCell Identity Runtime))

structure BoundaryLane (Identity Runtime : Type) where
  nextRecord : Nat
  ownership : BoundaryOwnership Identity Runtime
  protectedRecord : Option Nat

inductive RetainedEngineAccessError where
  | staleCheckpoint
  | protectedCheckpoint
  | liveAttachment
  deriving DecidableEq

structure RetainedEditorRevisionRehomePlan where
  revision : Nat
  edit : RevisionEditMap
  restart : BoundaryKey
  convergence : BoundaryKey
  newEffectPrefix : Nat
  newArtifactPrefix : Nat

namespace BoundaryLane

variable {Identity Runtime : Type}

def empty : BoundaryLane Identity Runtime where
  nextRecord := 0
  ownership := .accepted []
  protectedRecord := none

def visible (lane : BoundaryLane Identity Runtime) : List (BoundaryCell Identity Runtime) :=
  match lane.ownership with
  | .accepted rows => rows
  | .forked kept _ current => kept ++ current

def detachedCheckpointAt (lane : BoundaryLane Identity Runtime) (key : BoundaryKey) :
    Option (EngineCheckpoint Identity Runtime) :=
  match lane.ownership with
  | .accepted _ => none
  | .forked _ detachedPrior _ =>
    detachedPrior.findSome? fun cell =>
      if cell.evidence.key = key then cell.checkpoint else none

def appendCell (lane : BoundaryLane Identity Runtime)
    (checkpoint : Option (EngineCheckpoint Identity Runtime))
    (evidence : RetainedBoundaryEvidence Identity) : Nat × BoundaryLane Identity Runtime :=
  let record := lane.nextRecord
  let cell := { record := record, evidence := evidence, checkpoint := checkpoint }
  let protectsJobStart := lane.protectedRecord.isNone &&
    checkpoint.any fun checkpoint => checkpoint.boundary = .jobStart
  (record,
    { nextRecord := record + 1
      ownership :=
        match lane.ownership with
        | .accepted rows => .accepted (rows ++ [cell])
        | .forked kept detachedPrior current => .forked kept detachedPrior (current ++ [cell])
      protectedRecord := if protectsJobStart then some record else lane.protectedRecord })

def findVisible (lane : BoundaryLane Identity Runtime) (record : Nat) :
    Option (BoundaryCell Identity Runtime) :=
  lane.visible.find? fun cell => cell.record = record

def removeVisible (lane : BoundaryLane Identity Runtime) (record : Nat) :
    BoundaryLane Identity Runtime :=
  { lane with
    ownership :=
      match lane.ownership with
      | .accepted rows => .accepted (rows.eraseP fun cell => cell.record = record)
      | .forked kept detachedPrior current =>
        if kept.any fun cell => cell.record = record then
          .forked (kept.eraseP fun cell => cell.record = record) detachedPrior current
        else
          .forked kept detachedPrior (current.eraseP fun cell => cell.record = record) }

def releaseKey (lane : BoundaryLane Identity Runtime) (record : Nat) :
    Except RetainedEngineAccessError (BoundaryLane Identity Runtime) :=
  match (lane.findVisible record).bind (·.checkpoint) with
  | none => .error .staleCheckpoint
  | some _ =>
    if lane.protectedRecord = some record then .error .protectedCheckpoint
    else .ok (lane.removeVisible record)

def dropCheckpoint (record : Nat) (cell : BoundaryCell Identity Runtime) :
    BoundaryCell Identity Runtime :=
  if cell.record = record then { cell with checkpoint := none } else cell

def releaseJobStart (lane : BoundaryLane Identity Runtime) (record : Nat) :
    Except RetainedEngineAccessError (BoundaryLane Identity Runtime) :=
  match (lane.findVisible record).bind (·.checkpoint) with
  | none => .error .staleCheckpoint
  | some _ =>
    if lane.protectedRecord = some record then
      .ok
        { lane with
          ownership :=
            match lane.ownership with
            | .accepted rows => .accepted (rows.map (dropCheckpoint record))
            | .forked kept detachedPrior current =>
              .forked (kept.map (dropCheckpoint record)) detachedPrior
                (current.map (dropCheckpoint record))
          protectedRecord := none }
    else .error .protectedCheckpoint

def latestRestartAtOrBefore (lane : BoundaryLane Identity Runtime) (position : Nat) :
    Option (BoundaryCell Identity Runtime) :=
  lane.visible.foldl
    (fun selected cell =>
      if cell.checkpoint.isSome && cell.evidence.position ≤ position then some cell else selected)
    none

def begin (lane : BoundaryLane Identity Runtime) (record : Nat) :
    Except RetainedEngineAccessError (BoundaryLane Identity Runtime) :=
  match lane.ownership with
  | .forked .. => .error .liveAttachment
  | .accepted rows =>
    match rows.findIdx? fun cell => cell.record = record with
    | none => .error .staleCheckpoint
    | some index =>
      .ok { lane with ownership := .forked (rows.take (index + 1)) (rows.drop (index + 1)) [] }

def accept (lane : BoundaryLane Identity Runtime) : BoundaryLane Identity Runtime :=
  match lane.ownership with
  | .accepted _ => lane
  | .forked kept _ current => { lane with ownership := .accepted (kept ++ current) }

def reject (lane : BoundaryLane Identity Runtime) : BoundaryLane Identity Runtime :=
  match lane.ownership with
  | .accepted _ => lane
  | .forked kept detachedPrior _ => { lane with ownership := .accepted (kept ++ detachedPrior) }

/-- Whether the rows from the convergence row on can be moved into the edited
text. -/
def rehomeValid (plan : RetainedEditorRevisionRehomePlan) :
    List (BoundaryCell Identity Runtime) → Bool → Bool → Bool
  | [], restartSeen, convergenceSeen => restartSeen && convergenceSeen
  | cell :: rows, restartSeen, convergenceSeen =>
    let restartSeen := restartSeen || cell.evidence.key == plan.restart
    if cell.evidence.key == plan.convergence && !restartSeen then false
    else
      let convergenceSeen := convergenceSeen || cell.evidence.key == plan.convergence
      if convergenceSeen && (plan.edit.mapPosition cell.evidence.position).isNone then false
      else rehomeValid plan rows restartSeen convergenceSeen

/-- Moves an adopted row: its numbers change, its captured runtime does not. -/
def rehomeCell (plan : RetainedEditorRevisionRehomePlan) (oldEffectPrefix oldArtifactPrefix : Nat)
    (cell : BoundaryCell Identity Runtime) : BoundaryCell Identity Runtime :=
  let position := (plan.edit.mapPosition cell.evidence.position).getD cell.evidence.position
  let effectPrefix := plan.newEffectPrefix + (cell.evidence.effectPrefix - oldEffectPrefix)
  let artifactPrefix := plan.newArtifactPrefix + (cell.evidence.artifactPrefix - oldArtifactPrefix)
  { cell with
    evidence :=
      { cell.evidence with
        revision := plan.revision
        position := position
        effectPrefix := effectPrefix
        artifactPrefix := artifactPrefix }
    checkpoint := cell.checkpoint.map fun checkpoint =>
      { checkpoint with
        rootAnchor := position
        effectPrefixLen := effectPrefix
        artifactPrefixLen := artifactPrefix } }

/-- Keeps the rows up to the restart, drops those between it and the
convergence row and moves the rest. The last argument holds the old output
counts once the convergence row was met. -/
def rehomeRows (plan : RetainedEditorRevisionRehomePlan) :
    List (BoundaryCell Identity Runtime) → Bool → Option (Nat × Nat) →
      List (BoundaryCell Identity Runtime)
  | [], _, _ => []
  | cell :: rows, afterRestart, adopting =>
    let adopting :=
      if cell.evidence.key = plan.convergence then
        some (cell.evidence.effectPrefix, cell.evidence.artifactPrefix)
      else adopting
    match adopting with
    | some (effects, artifacts) =>
      rehomeCell plan effects artifacts cell ::
        rehomeRows plan rows (afterRestart || cell.evidence.key == plan.restart) adopting
    | none =>
      if afterRestart then rehomeRows plan rows afterRestart adopting
      else
        { cell with evidence := { cell.evidence with revision := plan.revision } } ::
          rehomeRows plan rows (cell.evidence.key == plan.restart) adopting

/-- Moves the accepted rows of a converged revision into the edited text. -/
def rehomeRevisionSuffix (lane : BoundaryLane Identity Runtime)
    (plan : RetainedEditorRevisionRehomePlan) :
    Except RetainedEngineAccessError (BoundaryLane Identity Runtime) :=
  match lane.ownership with
  | .forked .. => .error .liveAttachment
  | .accepted rows =>
    if rehomeValid plan rows false false then
      .ok { lane with ownership := .accepted (rehomeRows plan rows false none) }
    else .error .staleCheckpoint

end BoundaryLane

end Umber.Incr
