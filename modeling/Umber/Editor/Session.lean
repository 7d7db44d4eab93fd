import Umber.Editor.Layout

/-! An editor session: edits become candidates with a new layout, and candidates are accepted. -/

set_option autoImplicit false

namespace Umber.Editor

open ExceptLib

variable {η : Type}

structure Edit (η : Type) where
  baseRevision : Nat
  expectedHash : η
  start : Nat
  stop : Nat
  replacement : List UInt8

inductive SessionError where
  | staleRevision (expected actual : Nat)
  | contentHashMismatch
  | nonMonotonicRevision
  | invalidEditRange
  | sourceMap (error : SourceMapError)
  | layout (error : EditorLayoutError)

structure Session (η : Type) where
  revision : Nat
  contentHash : η
  source : List UInt8
  fragments : FragmentStore
  layout : EditorLayout

structure CandidatePlan where
  revision : Nat
  source : List UInt8
  fragments : FragmentStore
  layout : EditorLayout

def mapError {ε ε' α : Type} (wrap : ε → ε') : Except ε α → Except ε' α
  | .ok value => .ok value
  | .error error => .error (wrap error)

def isCharBoundary (source : List UInt8) (offset : Nat) : Bool :=
  offset = 0 || offset = source.length ||
    (source[offset]?).any fun byte => byte < 0x80 || 0xC0 ≤ byte

def Edit.asReplacement (edit : Edit η) : Replacement :=
  { start := edit.start, stop := edit.stop, bytes := edit.replacement }

namespace Session

def start (contentHash : List UInt8 → η) (path : String) (revision : Nat) (source : List UInt8)
    (lineage : Nat) (reserved : Option Nat) : Except SessionError (Session η) := do
  let appended ← mapError .sourceMap
    ((FragmentStore.new lineage).append source revision reserved)
  let length ← mapError .layout (toU32 source.length)
  let layout ← mapError .layout (EditorLayout.new path revision
    [{ fragment := appended.1, start := 0, stop := length }] appended.2)
  pure
    { revision, contentHash := contentHash source, source, fragments := appended.2, layout }

def validateEdit [DecidableEq η] (session : Session η) (nextRevision : Nat) (edit : Edit η) :
    Except SessionError Unit :=
  if edit.baseRevision ≠ session.revision then
    .error (.staleRevision session.revision edit.baseRevision)
  else if edit.expectedHash ≠ session.contentHash then .error .contentHashMismatch
  else if nextRevision ≤ session.revision then .error .nonMonotonicRevision
  else if edit.stop < edit.start ∨ session.source.length < edit.stop ∨
      ¬ isCharBoundary session.source edit.start ∨ ¬ isCharBoundary session.source edit.stop then
    .error .invalidEditRange
  else .ok ()

/-- The candidate of an edit: the lines around it become a new fragment. -/
def startAdvanceCandidate [DecidableEq η] (session : Session η) (lineage : Nat)
    (reserved : Option Nat) (nextRevision : Nat) (edit : Edit η) :
    Except SessionError CandidatePlan := do
  session.validateEdit nextRevision edit
  let next := edit.asReplacement.apply session.source
  let expanded := lineExpandedReplacement session.source edit.asReplacement
  let appended ← mapError .sourceMap
    ((session.fragments.clone lineage).append expanded.bytes nextRevision reserved)
  let layout ← mapError .layout (replaceLayoutRange session.layout appended.2 expanded.start
    expanded.stop appended.1 expanded.bytes.length nextRevision)
  pure { revision := nextRevision, source := next, fragments := appended.2, layout }

def startUnchangedCandidate (session : Session η) (lineage : Nat) :
    Except SessionError CandidatePlan := do
  let layout ← mapError .layout (cloneLayout session.layout session.fragments)
  pure
    { revision := session.revision
      source := session.source
      fragments := session.fragments.clone lineage
      layout }

def acceptRevision (contentHash : List UInt8 → η) (plan : CandidatePlan) : Session η :=
  { revision := plan.revision
    contentHash := contentHash plan.source
    source := plan.source
    fragments := plan.fragments
    layout := plan.layout }

end Session

/-! ## Runs -/

/-- A session among others: all of them draw their lineages from one counter, and a session
has at most one candidate. -/
structure World (η : Type) where
  nextLineage : Nat
  session : Session η
  candidate : Option CandidatePlan

inductive Step [DecidableEq η] (contentHash : List UInt8 → η) : World η → World η → Prop where
  | elsewhere {world : World η} {later : Nat} :
      world.nextLineage ≤ later → Step contentHash world { world with nextLineage := later }
  | startAdvance {world : World η} {reserved : Option Nat} {nextRevision : Nat} {edit : Edit η}
      {plan : CandidatePlan} :
      world.candidate = none →
      world.session.startAdvanceCandidate world.nextLineage reserved nextRevision edit =
        .ok plan →
      Step contentHash world
        { world with nextLineage := world.nextLineage + 1, candidate := some plan }
  | startUnchanged {world : World η} {plan : CandidatePlan} :
      world.candidate = none →
      world.session.startUnchangedCandidate world.nextLineage = .ok plan →
      Step contentHash world
        { world with nextLineage := world.nextLineage + 1, candidate := some plan }
  | drop {world : World η} : Step contentHash world { world with candidate := none }
  | accept {world : World η} {plan : CandidatePlan} :
      world.candidate = some plan →
      Step contentHash world
        { world with session := Session.acceptRevision contentHash plan, candidate := none }

inductive Reached [DecidableEq η] (contentHash : List UInt8 → η) : World η → Prop where
  | start {path : String} {revision lineage : Nat} {source : List UInt8} {reserved : Option Nat}
      {session : Session η} :
      Session.start contentHash path revision source lineage reserved = .ok session →
      Reached contentHash { nextLineage := lineage + 1, session, candidate := none }
  | step {world next : World η} :
      Reached contentHash world → Step contentHash world next → Reached contentHash next

end Umber.Editor
