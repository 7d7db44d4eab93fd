import Umber.Vfs.Files
import Umber.Vfs.Lifecycle

/-! The project workspace: layered storage, the resource ledger and the generated-file
transaction. Every operation returns the workspace it leaves behind, also when it
fails. -/

set_option autoImplicit false

namespace Umber.Vfs

/-- How an operation fails: with its own error, or by a failed expectation. -/
inductive Fault (ε : Type) where
  | error (error : ε)
  | panicked (message : String)

abbrev Reply (σ ε α : Type) := σ × Except (Fault ε) α

abbrev FileMap := OrderedMap VirtualPath VirtualFile

def FileMap.byteTotal (files : FileMap) : Nat :=
  files.total VirtualFile.size

structure StorageGeneration where
  user : FileMap
  resolved : FileMap
  acceptedGenerated : FileMap

namespace StorageGeneration

def empty : StorageGeneration :=
  { user := .empty, resolved := .empty, acceptedGenerated := .empty }

def replaceUser (storage : StorageGeneration) (path : JobPath) (bytes : Bytes) :
    StorageGeneration :=
  { storage with user := storage.user.insert path.1 ⟨path.1, bytes, .user⟩ }

def insertResolved (storage : StorageGeneration) (path : DistributionPath) (bytes : Bytes)
    (request : FileRequestKey) : StorageGeneration :=
  { storage with resolved := storage.resolved.insert path.1 ⟨path.1, bytes, .resolved request⟩ }

end StorageGeneration

structure FileRequest where
  key : FileRequestKey
  originalName : List Char
deriving DecidableEq

structure FileRequestBatch where
  required : List FileRequest
  probes : List FileRequest
  prefetchHints : List FileRequest

structure ResolvedFile where
  request : FileRequestKey
  virtualPath : List Char
  bytes : Bytes
  expectedDigest : Option ContentIdentity

inductive ProvisionOutcome where
  | inserted
  | alreadyPresent

inductive ProvisionError where
  | unexpectedRequest (request : FileRequestKey)
  | kindMismatch (expected actual : FileRequestKey)
  | invalidPath (request : FileRequestKey) (path : List Char) (message : String)
  | digestMismatch (request : FileRequestKey) (expected actual : ContentIdentity)
  | conflict (request : FileRequestKey) (existingPath incomingPath : VirtualPath)
      (existing incoming : ContentIdentity)
  | availabilityConflict (request : FileRequestKey)
  | pathConflict (path : VirtualPath) (existingRequest incomingRequest : FileRequestKey)
      (existing incoming : ContentIdentity)
  | limit (error : VfsLimitError)

inductive UserRegistrationError where
  | limit (error : VfsLimitError)
  | invalidPath (path : VirtualPath)

inductive BindingCopyError where
  | incompatibleLimits
  | missingPriorBinding (key : FileRequestKey)
  | changedPriorBinding (key : FileRequestKey)

inductive RetryError where
  | noProgress

inductive TransactionError where
  | invalidGeneratedPath (path : VirtualPath)
  | limit (error : VfsLimitError)

structure ResourceLedger where
  lifecycle : ResourceLifecycle FileRequestKey VirtualPath
  knownExists : OrderedMap FileRequestKey Unit
  userBytes : Nat
  resolvedBytes : Nat
  requiredAtBatchStart : Nat

namespace ResourceLedger

def empty : ResourceLedger :=
  { lifecycle := .empty
    knownExists := .empty
    userBytes := 0
    resolvedBytes := 0
    requiredAtBatchStart := 0 }

def noteExists (ledger : ResourceLedger) (request : FileRequestKey) : ResourceLedger :=
  if ledger.lifecycle.isBound request = true then ledger
  else { ledger with knownExists := ledger.knownExists.insert request () }

def markReady (ledger : ResourceLedger) (request : FileRequestKey) : ResourceLedger :=
  { ledger with knownExists := ledger.knownExists.remove request }

def blockingCount (ledger : ResourceLedger) : Nat :=
  (ledger.lifecycle.outstanding.filter fun entry => entry.2.isBlocking).length

end ResourceLedger

structure ProjectWorkspace where
  limits : VfsLimits
  storage : StorageGeneration
  ledger : ResourceLedger

def mapAdmission : AdmissionError FileRequestKey → Fault ProvisionError
  | .unexpected request | .negativeHint request => .error (.unexpectedRequest request)
  | .availabilityConflict request => .error (.availabilityConflict request)
  | .bindingConflict _ =>
    .panicked "file rebinding conflicts are diagnosed before lifecycle admission"

namespace ProjectWorkspace

def new (limits : VfsLimits) : Except VfsLimitError ProjectWorkspace :=
  match limits.validate with
  | .error problem => .error problem
  | .ok limits => .ok { limits := limits, storage := .empty, ledger := .empty }

def registerUser (workspace : ProjectWorkspace) (path : VirtualPath) (bytes : Bytes) :
    Reply ProjectWorkspace UserRegistrationError ProvisionOutcome :=
  if job : path.isJob = true then
    match workspace.limits.check .oneFileBytes bytes.length with
    | .error problem => (workspace, .error (.error (.limit problem)))
    | .ok () =>
      let existing := workspace.storage.user.get? path
      let nextFiles := workspace.storage.user.size + (if existing.isNone = true then 1 else 0)
      match workspace.limits.check .userFiles nextFiles with
      | .error problem => (workspace, .error (.error (.limit problem)))
      | .ok () =>
        let replaced := (existing.map VirtualFile.size).getD 0
        match workspace.limits.checkedReplacementTotal .userBytes
            workspace.ledger.userBytes replaced bytes.length with
        | .error problem => (workspace, .error (.error (.limit problem)))
        | .ok nextBytes =>
          let outcome : ProvisionOutcome :=
            if existing.any fun file => file.bytes = bytes then .alreadyPresent
            else .inserted
          ({ workspace with
              storage := workspace.storage.replaceUser ⟨path, job⟩ bytes
              ledger := { workspace.ledger with userBytes := nextBytes } },
            .ok outcome)
  else (workspace, .error (.error (.invalidPath path)))

def noteExists (workspace : ProjectWorkspace) (request : FileRequestKey) : ProjectWorkspace :=
  { workspace with ledger := workspace.ledger.noteExists request }

def withLifecycle (workspace : ProjectWorkspace)
    (lifecycle : ResourceLifecycle FileRequestKey VirtualPath) : ProjectWorkspace :=
  { workspace with ledger := { workspace.ledger with lifecycle := lifecycle } }

def authorizePrefetchHints (workspace : ProjectWorkspace) (requests : List FileRequestKey) :
    ProjectWorkspace :=
  workspace.withLifecycle (workspace.ledger.lifecycle.authorizeHints requests)

def authorizeBlockingFile (workspace : ProjectWorkspace) (request : FileRequestKey)
    (intent : RequestIntent) : Reply ProjectWorkspace Empty Unit :=
  if intent.isBlocking = true then
    (workspace.withLifecycle (workspace.ledger.lifecycle.authorizeBlocking request intent), .ok ())
  else (workspace, .error (.panicked "a synchronous request must block"))

/-- The prior positive bindings are looked up again in the candidate, in key order. -/
def checkPriorAdmitted (workspace source : ProjectWorkspace) :
    List (FileRequestKey × VirtualPath) → Except (Fault BindingCopyError) Unit
  | [] => .ok ()
  | (key, oldPath) :: rest =>
    match source.ledger.lifecycle.admitted key with
    | none => .error (.error (.missingPriorBinding key))
    | some newPath =>
      match workspace.storage.resolved.get? oldPath with
      | none => .error (.panicked "prior resolved binding has bytes")
      | some oldFile =>
        match source.storage.resolved.get? newPath with
        | none => .error (.panicked "candidate resolved binding has bytes")
        | some newFile =>
          if oldPath ≠ newPath ∨ oldFile.contentId ≠ newFile.contentId then
            .error (.error (.changedPriorBinding key))
          else checkPriorAdmitted workspace source rest

def checkPriorUnavailable (source : ProjectWorkspace) :
    List FileRequestKey → Except (Fault BindingCopyError) Unit
  | [] => .ok ()
  | key :: rest =>
    if source.ledger.lifecycle.isUnavailable key = true then checkPriorUnavailable source rest
    else .error (.error (.missingPriorBinding key))

def copyResolvedBindingsFrom (workspace source : ProjectWorkspace) :
    Reply ProjectWorkspace BindingCopyError Unit :=
  if workspace.limits ≠ source.limits then (workspace, .error (.error .incompatibleLimits))
  else
    match checkPriorAdmitted workspace source workspace.ledger.lifecycle.admittedEntries with
    | .error problem => (workspace, .error problem)
    | .ok () =>
      match checkPriorUnavailable source workspace.ledger.lifecycle.unavailableKeys with
      | .error problem => (workspace, .error problem)
      | .ok () =>
        ({ workspace with
            storage := { workspace.storage with resolved := source.storage.resolved }
            ledger := { workspace.ledger with
              lifecycle := source.ledger.lifecycle
              knownExists := source.ledger.knownExists
              resolvedBytes := source.ledger.resolvedBytes
              requiredAtBatchStart := source.ledger.requiredAtBatchStart } },
          .ok ())

def expect (workspace : ProjectWorkspace) (batch : FileRequestBatch) : ProjectWorkspace :=
  let begun := workspace.withLifecycle
    (workspace.ledger.lifecycle.beginBatch (batch.required.map FileRequest.key)
      (batch.probes.map FileRequest.key) (batch.prefetchHints.map FileRequest.key))
  { begun with
    ledger := { begun.ledger with requiredAtBatchStart := begun.ledger.blockingCount } }

def retry (workspace : ProjectWorkspace) : Reply ProjectWorkspace RetryError Unit :=
  let remaining := workspace.ledger.blockingCount
  if remaining = workspace.ledger.requiredAtBatchStart ∧ remaining ≠ 0 then
    (workspace, .error (.error .noProgress))
  else
    ({ workspace with ledger := { workspace.ledger with requiredAtBatchStart := remaining } },
      .ok ())

def provisionUnavailable (workspace : ProjectWorkspace) (request : FileRequestKey) :
    Reply ProjectWorkspace ProvisionError ProvisionOutcome :=
  if workspace.ledger.lifecycle.isUnavailable request = true then (workspace, .ok .alreadyPresent)
  else if (workspace.ledger.lifecycle.admitted request).isSome = true then
    (workspace, .error (.error (.availabilityConflict request)))
  else
    match workspace.limits.check .resolvedFiles
        (saturatingAdd workspace.ledger.lifecycle.bindingCount 1) with
    | .error problem => (workspace, .error (.error (.limit problem)))
    | .ok () =>
      match workspace.ledger.lifecycle.admitUnavailable request with
      | (lifecycle, .error problem) =>
        (workspace.withLifecycle lifecycle, .error (mapAdmission problem))
      | (lifecycle, .ok true) =>
        let bound := workspace.withLifecycle lifecycle
        ({ bound with ledger := bound.ledger.markReady request }, .ok .inserted)
      | (lifecycle, .ok false) => (workspace.withLifecycle lifecycle, .ok .alreadyPresent)

def validateResponse (limits : VfsLimits) (response : ResolvedFile) :
    Except ProvisionError VirtualPath :=
  match VirtualPath.distribution response.virtualPath with
  | .error problem =>
    .error (.invalidPath response.request response.virtualPath problem.message)
  | .ok path =>
    match limits.check .oneFileBytes response.bytes.length with
    | .error problem => .error (.limit problem)
    | .ok () =>
      let contentId := FileContentId.forBytes response.bytes
      match response.expectedDigest with
      | none => .ok path
      | some expected =>
        if expected ≠ contentId then
          .error (.digestMismatch response.request expected contentId)
        else .ok path

def requireExpected (workspace : ProjectWorkspace) (request : FileRequestKey) :
    Except ProvisionError Unit :=
  if workspace.ledger.lifecycle.isOutstanding request = true then .ok ()
  else
    match workspace.ledger.lifecycle.outstanding.find? fun entry =>
        entry.1.domain = request.domain ∧ entry.1.normalizedName = request.normalizedName with
    | some (expected, _) => .error (.kindMismatch expected request)
    | none => .error (.unexpectedRequest request)

def reprovision (workspace : ProjectWorkspace) (response : ResolvedFile)
    (path existingPath : VirtualPath) :
    Reply ProjectWorkspace ProvisionError ProvisionOutcome :=
  match workspace.storage.resolved.get? existingPath with
  | none => (workspace, .error (.panicked "provisioned request paths remain registered"))
  | some existing =>
    let contentId := FileContentId.forBytes response.bytes
    if existingPath = path ∧ existing.contentId = contentId then
      ({ workspace with ledger := workspace.ledger.markReady response.request },
        .ok .alreadyPresent)
    else
      (workspace, .error (.error
        (.conflict response.request existingPath path existing.contentId contentId)))

def admissible (workspace : ProjectWorkspace) (request : FileRequestKey)
    (mustBeExpected : Bool) : Except ProvisionError Unit :=
  if workspace.ledger.lifecycle.isUnavailable request = true then
    .error (.availabilityConflict request)
  else
    match if mustBeExpected = true then workspace.requireExpected request else .ok () with
    | .error problem => .error problem
    | .ok () =>
      match workspace.limits.check .resolvedFiles
          (saturatingAdd workspace.ledger.lifecycle.bindingCount 1) with
      | .error problem => .error (.limit problem)
      | .ok () => .ok ()

def claimPath (workspace : ProjectWorkspace) (response : ResolvedFile) (path : VirtualPath) :
    Reply ProjectWorkspace ProvisionError Unit :=
  let contentId := FileContentId.forBytes response.bytes
  match workspace.storage.resolved.get? path with
  | some existing =>
    match existing.origin with
    | .resolved existingRequest =>
      if existing.contentId ≠ contentId then
        (workspace, .error (.error (.pathConflict path existingRequest response.request
          existing.contentId contentId)))
      else (workspace, .ok ())
    | .user | .generated =>
      (workspace, .error (.panicked "resolved layer contains only resolved resources"))
  | none =>
    let attempted := workspace.ledger.resolvedBytes + response.bytes.length
    if usizeMax < attempted then
      (workspace, .error (.error (.limit (.limitExceeded .resolvedBytes
        workspace.limits.resolvedBytes usizeMax))))
    else
      match workspace.limits.check .resolvedBytes attempted with
      | .error problem => (workspace, .error (.error (.limit problem)))
      | .ok () =>
        let charged : ProjectWorkspace :=
          { workspace with ledger := { workspace.ledger with resolvedBytes := attempted } }
        if distribution : path.isDistribution = true then
          ({ charged with
              storage := charged.storage.insertResolved ⟨path, distribution⟩ response.bytes
                response.request },
            .ok ())
        else (charged, .error (.panicked "distribution canonicalization fixes the root"))

def bindRequest (workspace : ProjectWorkspace) (request : FileRequestKey) (path : VirtualPath)
    (mustBeExpected : Bool) : Reply ProjectWorkspace ProvisionError ProvisionOutcome :=
  match if mustBeExpected = true then workspace.ledger.lifecycle.admit_ request path
    else workspace.ledger.lifecycle.restore request path with
  | (lifecycle, .error problem) =>
    (workspace.withLifecycle lifecycle, .error (mapAdmission problem))
  | (lifecycle, .ok _) =>
    let bound := workspace.withLifecycle lifecycle
    ({ bound with ledger := bound.ledger.markReady request }, .ok .inserted)

def provisionInner (workspace : ProjectWorkspace) (response : ResolvedFile)
    (mustBeExpected : Bool) : Reply ProjectWorkspace ProvisionError ProvisionOutcome :=
  match validateResponse workspace.limits response with
  | .error problem => (workspace, .error (.error problem))
  | .ok path =>
    match workspace.ledger.lifecycle.admitted response.request with
    | some existingPath => workspace.reprovision response path existingPath
    | none =>
      match workspace.admissible response.request mustBeExpected with
      | .error problem => (workspace, .error (.error problem))
      | .ok () =>
        match workspace.claimPath response path with
        | (claimed, .error problem) => (claimed, .error problem)
        | (claimed, .ok ()) => claimed.bindRequest response.request path mustBeExpected

def provision (workspace : ProjectWorkspace) (response : ResolvedFile) :
    Reply ProjectWorkspace ProvisionError ProvisionOutcome :=
  workspace.provisionInner response true

def preload (workspace : ProjectWorkspace) (response : ResolvedFile) :
    Reply ProjectWorkspace ProvisionError ProvisionOutcome :=
  workspace.provisionInner response false

def provisionStaged (staged : ProjectWorkspace) :
    List ResolvedFile → Reply ProjectWorkspace ProvisionError (List ProvisionOutcome)
  | [] => (staged, .ok [])
  | response :: rest =>
    match staged.provision response with
    | (next, .error problem) => (next, .error problem)
    | (next, .ok outcome) =>
      match provisionStaged next rest with
      | (final, .error problem) => (final, .error problem)
      | (final, .ok outcomes) => (final, .ok (outcome :: outcomes))

/-- The staged copy replaces the workspace only when every response was provisioned. -/
def provisionBatch (workspace : ProjectWorkspace) (responses : List ResolvedFile) :
    Reply ProjectWorkspace ProvisionError (List ProvisionOutcome) :=
  match workspace.provisionStaged responses with
  | (_, .error problem) => (workspace, .error problem)
  | (staged, .ok outcomes) => (staged, .ok outcomes)

def clear (workspace : ProjectWorkspace) : ProjectWorkspace :=
  { workspace with
    storage := { workspace.storage with resolved := .empty }
    ledger := { workspace.ledger with
      lifecycle := .empty
      knownExists := .empty
      resolvedBytes := 0
      requiredAtBatchStart := 0 } }

def cancelOutstandingResources (workspace : ProjectWorkspace) : ProjectWorkspace :=
  let lifecycle := workspace.ledger.lifecycle.cancelOutstanding
  { workspace with
    ledger := { workspace.ledger with
      lifecycle := lifecycle
      knownExists := workspace.ledger.knownExists.retain fun request _ =>
        (lifecycle.admitted request).isSome || lifecycle.isUnavailable request
      requiredAtBatchStart := 0 } }

def clearGeneratedOutputs (workspace : ProjectWorkspace) : ProjectWorkspace :=
  { workspace with storage := { workspace.storage with acceptedGenerated := .empty } }

def get (workspace : ProjectWorkspace) (key : FileRequestKey) : Option VirtualFile :=
  (workspace.ledger.lifecycle.admitted key).bind workspace.storage.resolved.get?

end ProjectWorkspace

structure GeneratedTransaction where
  limits : VfsLimits
  base : StorageGeneration
  pending : FileMap
  logicalBytes : Nat

structure AcceptedGenerated where
  generatedFiles : Nat
  logicalBytes : Nat

namespace GeneratedTransaction

def new (target : StorageGeneration) (limits : VfsLimits) : GeneratedTransaction :=
  { limits := limits, base := target, pending := .empty, logicalBytes := 0 }

def admitWrite (transaction : GeneratedTransaction) (path : VirtualPath) (bytes : Bytes) :
    Except VfsLimitError Nat :=
  match transaction.limits.check .oneFileBytes bytes.length with
  | .error problem => .error problem
  | .ok () =>
    let replaced := ((transaction.pending.get? path).map VirtualFile.size).getD 0
    match transaction.limits.checkedReplacementTotal .generatedBytes transaction.logicalBytes
        replaced bytes.length with
    | .error problem => .error problem
    | .ok nextBytes =>
      match transaction.limits.check .stageBytes nextBytes with
      | .error problem => .error problem
      | .ok () =>
        let nextFiles := transaction.pending.size +
          (if (transaction.pending.get? path).isNone = true then 1 else 0)
        match transaction.limits.check .generatedFiles nextFiles with
        | .error problem => .error problem
        | .ok () =>
          match transaction.limits.check .stageFiles nextFiles with
          | .error problem => .error problem
          | .ok () => .ok nextBytes

def write (transaction : GeneratedTransaction) (path : VirtualPath) (bytes : Bytes) :
    Reply GeneratedTransaction TransactionError Unit :=
  if path.isJob = true then
    match transaction.admitWrite path bytes with
    | .error problem => (transaction, .error (.error (.limit problem)))
    | .ok nextBytes =>
      ({ transaction with
          pending := transaction.pending.insert path ⟨path, bytes, .generated⟩
          logicalBytes := nextBytes },
        .ok ())
  else (transaction, .error (.error (.invalidGeneratedPath path)))

def accept (transaction : GeneratedTransaction) (target : StorageGeneration) :
    Reply StorageGeneration TransactionError AcceptedGenerated :=
  ({ target with acceptedGenerated := transaction.pending },
    .ok { generatedFiles := transaction.pending.size, logicalBytes := transaction.logicalBytes })

end GeneratedTransaction

end Umber.Vfs
