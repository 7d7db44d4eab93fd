import Umber.Lib.Ascending
import Umber.Lib.Bytes
import Umber.Vfs.Locate

/-! Snapshots of the layered storage: exact lookup, bounded listing, the preimage of the
generation identity, and the validity each snapshot shares with its clones. -/

set_option autoImplicit false

namespace Umber.Vfs

def utf8 (text : List Char) : Bytes :=
  text.flatMap String.utf8EncodeChar

def ResourceDomain.tag : ResourceDomain → UInt8
  | .tex => 1
  | .bibliography => 2
  | .generic => 3

def FileKind.tag : FileKind → UInt8
  | .texInput => 1
  | .tfm => 2
  | .formatImage => 3
  | .bibControl => 4
  | .bibData => 5
  | .bibConfiguration => 6
  | .xmlSchema => 7
  | .genericAsset => 8
  | .image => 9
  | .bibAux => 10
  | .classicBibData => 11
  | .bibStyle => 12
  | .virtualFont => 13
  | .pdfFontMap => 14
  | .pdfEncoding => 15
  | .pdfFontProgram => 16

def encodeLength (length : Nat) : Bytes :=
  Bytes.le 8 length

def encodeOrigin : FileOrigin → Bytes
  | .user => [1]
  | .resolved request =>
    [2] ++ [request.domain.tag] ++ [request.kind.tag] ++
      encodeLength (utf8 request.normalizedName).length ++ utf8 request.normalizedName
  | .generated => [3]

def encodeEntry (entry : VirtualPath × VirtualFile) : Bytes :=
  encodeLength (utf8 entry.1.text).length ++ utf8 entry.1.text ++ entry.2.contentId.bytes ++
    encodeOrigin entry.2.origin

def encodeMap (tag : UInt8) (files : FileMap) : Bytes :=
  [tag] ++ encodeLength files.size ++ files.entries.flatMap encodeEntry

namespace StorageGeneration

def preimage (generation : StorageGeneration) (pending : Option FileMap) : Bytes :=
  [1] ++ encodeMap 1 generation.user ++ encodeMap 2 generation.resolved ++
    encodeMap 3 generation.acceptedGenerated ++ encodeMap 4 (pending.getD .empty)

def identity (generation : StorageGeneration) (pending : Option FileMap) : ContentIdentity :=
  ContentIdentity.forDomain .virtualFileStorage (generation.preimage pending)

end StorageGeneration

def matchesPrefix (path root : VirtualPath) : Bool :=
  path = root || (root.text.isPrefixOf path.text &&
    (path.text.drop root.text.length).head? = some '/')

namespace VfsSnapshot

def pathsOf (files : FileMap) : List VirtualPath :=
  files.entries.map Prod.fst

def iterators (snapshot : VfsSnapshot) (job : Bool) : List (List VirtualPath) :=
  if job = true then
    (snapshot.pendingGenerated.map pathsOf).toList ++
      [pathsOf snapshot.generation.acceptedGenerated, pathsOf snapshot.generation.user]
  else [pathsOf snapshot.generation.resolved]

/-- The loop of a listing: the least path under an iterator, then every iterator at it. -/
def listLoop (snapshot : VfsSnapshot) (root : VirtualPath) (limit : Nat) :
    Nat → List (List VirtualPath) → List VirtualPath → Except SnapshotError (List VirtualPath)
  | 0, _, result => .ok result
  | fuel + 1, iterators, result =>
    match Ascending.least (iterators.filterMap List.head?) with
    | none => .ok result
    | some path =>
      let advanced := iterators.map (Ascending.advance path)
      if matchesPrefix path root = true ∧ (snapshot.getValid path).isSome = true then
        if result.length = limit then .error (.enumerationLimitExceeded limit)
        else snapshot.listLoop root limit fuel advanced (result ++ [path])
      else snapshot.listLoop root limit fuel advanced result

def listInner (snapshot : VfsSnapshot) (job : Bool) (root : VirtualPath) (limit : Nat) :
    Except SnapshotError (List VirtualPath) :=
  let iterators := snapshot.iterators job
  snapshot.listLoop root limit (Ascending.remaining iterators) iterators []

def list (snapshot : VfsSnapshot) (root : VirtualPath) (limit : Nat) :
    Except SnapshotError (List VirtualPath) :=
  if snapshot.valid = true then snapshot.listInner root.isJob root limit else .error .stale

end VfsSnapshot

abbrev Validity := List Bool

structure SnapshotHandle where
  generation : StorageGeneration
  pendingGenerated : Option FileMap
  place : Nat

def SnapshotHandle.read (handle : SnapshotHandle) (validity : Validity) : VfsSnapshot :=
  { generation := handle.generation
    pendingGenerated := handle.pendingGenerated
    valid := validity.getD handle.place false }

/-- A project with the snapshots taken of it and the validity of those its transaction
has issued. -/
structure Observed where
  project : Project
  captured : List SnapshotHandle
  validity : Validity
  issued : List Nat

inductive ObservedCommand where
  | project (command : Command)
  | copy (source : ProjectWorkspace)
  | snapshot
  | candidate
  | invalidate (handle : SnapshotHandle)

def Command.ends : Command → Bool
  | .accept | .discard => true
  | .workspace _ | .beginGenerated | .write _ _ => false

namespace Observed

def new (workspace : ProjectWorkspace) : Observed :=
  { project := { workspace := workspace, transaction := none }
    captured := []
    validity := []
    issued := [] }

def invalidateAll (places : List Nat) (validity : Validity) : Validity :=
  places.foldl (fun held place => held.set place false) validity

def capture (observed : Observed) (generation : StorageGeneration) (pending : Option FileMap) :
    Observed :=
  { observed with
    captured := observed.captured ++ [⟨generation, pending, observed.validity.length⟩]
    validity := observed.validity ++ [true] }

def settle (observed : Observed) (command : Command) (project : Project) : Observed :=
  if command.ends = true then
    { observed with
      project := project
      validity := invalidateAll observed.issued observed.validity
      issued := [] }
  else { observed with project := project }

def run (observed : Observed) : ObservedCommand → Option Observed
  | .project command =>
    match observed.project.run command with
    | none => none
    | some (project, _) => some (observed.settle command project)
  | .copy source =>
    match observed.project.copyFrom source with
    | none => none
    | some (project, _) => some { observed with project := project }
  | .snapshot =>
    match observed.project.transaction with
    | some _ => none
    | none => some (observed.capture observed.project.workspace.storage none)
  | .candidate =>
    match observed.project.transaction with
    | none => none
    | some transaction =>
      let taken := observed.capture transaction.base (some transaction.pending)
      some { taken with issued := observed.issued ++ [observed.validity.length] }
  | .invalidate handle =>
    some { observed with validity := observed.validity.set handle.place false }

def runAll (observed : Observed) : List ObservedCommand → Option Observed
  | [] => some observed
  | command :: rest =>
    match observed.run command with
    | none => none
    | some next => next.runAll rest

end Observed

/-- What some run reaches from a new workspace. A copied workspace is one that a run
reaches too. -/
inductive ObservedReachable : Observed → Prop where
  | new {limits : VfsLimits} {workspace : ProjectWorkspace} :
      ProjectWorkspace.new limits = .ok workspace → ObservedReachable (Observed.new workspace)
  | run {observed next : Observed} {command : ObservedCommand} :
      ObservedReachable observed → (∀ source, command ≠ .copy source) →
      observed.run command = some next → ObservedReachable next
  | copy {observed source next : Observed} :
      ObservedReachable observed → ObservedReachable source →
      observed.run (.copy source.project.workspace) = some next → ObservedReachable next

end Umber.Vfs
