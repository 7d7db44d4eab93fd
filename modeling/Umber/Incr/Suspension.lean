import Umber.Incr.LiveProperties
import Umber.Incr.SessionProperties

/-! Execution of a candidate under a host that may decline resources. A declined
request discards the work behind the latest replay anchor and restores the root
held there. -/

set_option autoImplicit false

namespace Umber.Incr

variable {Identity Runtime Effect Page : Type}

structure Running (Identity Runtime : Type) where
  runtime : Runtime
  sink : LiveHistorySink Identity Runtime

/-- A candidate before its first step: a rooted one begins with the restored
root. -/
def RevisionCandidate.startRunning (candidate : RevisionCandidate Identity Runtime)
    (jobStart : Runtime) (recordBytes checkpointBudget : Nat) : Running Identity Runtime where
  runtime :=
    match candidate.checkpoint with
    | some root => root.runtime
    | none => jobStart
  sink := candidate.startSink recordBytes checkpointBudget

def BoundaryLane.rootAt (lane : BoundaryLane Identity Runtime) (record : Nat) :
    Option (EngineCheckpoint Identity Runtime) :=
  (lane.findVisible record).bind (·.checkpoint)

inductive ScheduleEvent where
  | proceed
  | decline

namespace Running

/-- A declined resource: the history is rewound to the latest replay anchor and
the root held there is restored. -/
def decline (running : Running Identity Runtime) : Option (Running Identity Runtime) := do
  let anchor ← running.sink.state.latestReplayAnchor
  let root ← running.sink.retained.rootAt anchor.key
  return { runtime := root.runtime, sink := running.sink.rewindAfterAnchor anchor.slot }

section Execution

variable [DecidableEq Identity]
variable (next : Runtime → Option (EngineCheckpoint Identity Runtime))
variable (definitionsMatch : Runtime → Runtime → Bool)

/-- Execution up to the next boundary. `next` is the boundary a runtime reaches
under the text of the candidate, if the job does not end before. -/
def proceed (running : Running Identity Runtime) : Option (Running Identity Runtime) :=
  if running.sink.stopRequested then none
  else
    (next running.runtime).map fun captured =>
      { runtime := captured.runtime, sink := running.sink.publish definitionsMatch captured }

def uninterrupted (start : Running Identity Runtime) : Nat → Option (Running Identity Runtime)
  | 0 => some start
  | count + 1 => (uninterrupted start count).bind (proceed next definitionsMatch)

/-- The runs of a candidate under a schedule of declined requests, each step of
which meets a condition. -/
inductive Scheduled
    (condition : List ScheduleEvent → Running Identity Runtime → ScheduleEvent → Prop)
    (start : Running Identity Runtime) :
    List ScheduleEvent → Running Identity Runtime → Prop where
  | start : Scheduled condition start [] start
  | proceed {events : List ScheduleEvent} {running after : Running Identity Runtime} :
      Scheduled condition start events running → condition events running .proceed →
      Running.proceed next definitionsMatch running = some after →
      Scheduled condition start (events ++ [.proceed]) after
  | decline {events : List ScheduleEvent} {running after : Running Identity Runtime} :
      Scheduled condition start events running → condition events running .decline →
      running.sink.stopRequested = false → running.decline = some after →
      Scheduled condition start (events ++ [.decline]) after

def finished (running : Running Identity Runtime) : Prop :=
  proceed next definitionsMatch running = none

end Execution

/-- The completed candidate of a finished run; its output is a part of the
runtime. -/
def completed (output : Runtime → DetachedEngineCompletion Effect Page)
    (running : Running Identity Runtime) : CandidateCompletion Identity Effect Page where
  completion := output running.runtime
  history := running.sink.state.records

end Running

end Umber.Incr
