import Umber.Vfs.Workspace

/-! Runs of a project: its workspace, the transaction that may hold it, and the
responses the host has supplied so far. -/

set_option autoImplicit false

namespace Umber.Vfs

inductive WorkspaceCommand where
  | registerUser (path : VirtualPath) (bytes : Bytes)
  | expect (batch : FileRequestBatch)
  | authorizePrefetchHints (requests : List FileRequestKey)
  | authorizeBlockingFile (request : FileRequestKey) (intent : RequestIntent)
  | noteExists (request : FileRequestKey)
  | provision (response : ResolvedFile)
  | provisionUnavailable (request : FileRequestKey)
  | provisionBatch (responses : List ResolvedFile)
  | preload (response : ResolvedFile)
  | retry
  | cancelOutstandingResources
  | clearGeneratedOutputs
  | clear

inductive Command where
  | workspace (command : WorkspaceCommand)
  | beginGenerated
  | write (path : VirtualPath) (bytes : Bytes)
  | accept
  | discard

inductive CommandError where
  | registration (error : UserRegistrationError)
  | provision (error : ProvisionError)
  | copy (error : BindingCopyError)
  | retry (error : RetryError)
  | transaction (error : TransactionError)

abbrev Answer := Except (Fault CommandError) Unit

def answer {ε α : Type} (wrap : ε → CommandError) : Except (Fault ε) α → Answer
  | .ok _ => .ok ()
  | .error (.error problem) => .error (.error (wrap problem))
  | .error (.panicked message) => .error (.panicked message)

def ProjectWorkspace.apply (workspace : ProjectWorkspace) :
    WorkspaceCommand → ProjectWorkspace × Answer
  | .registerUser path bytes =>
    let reply := workspace.registerUser path bytes
    (reply.1, answer .registration reply.2)
  | .expect batch => (workspace.expect batch, .ok ())
  | .authorizePrefetchHints requests => (workspace.authorizePrefetchHints requests, .ok ())
  | .authorizeBlockingFile request intent =>
    let reply := workspace.authorizeBlockingFile request intent
    (reply.1, answer nofun reply.2)
  | .noteExists request => (workspace.noteExists request, .ok ())
  | .provision response =>
    let reply := workspace.provision response
    (reply.1, answer .provision reply.2)
  | .provisionUnavailable request =>
    let reply := workspace.provisionUnavailable request
    (reply.1, answer .provision reply.2)
  | .provisionBatch responses =>
    let reply := workspace.provisionBatch responses
    (reply.1, answer .provision reply.2)
  | .preload response =>
    let reply := workspace.preload response
    (reply.1, answer .provision reply.2)
  | .retry =>
    let reply := workspace.retry
    (reply.1, answer .retry reply.2)
  | .cancelOutstandingResources => (workspace.cancelOutstandingResources, .ok ())
  | .clearGeneratedOutputs => (workspace.clearGeneratedOutputs, .ok ())
  | .clear => (workspace.clear, .ok ())

structure Project where
  workspace : ProjectWorkspace
  transaction : Option GeneratedTransaction

/-- A transaction borrows the workspace: no other operation is callable until it is
accepted or discarded. -/
def Project.run (project : Project) : Command → Option (Project × Answer)
  | .workspace command =>
    match project.transaction with
    | some _ => none
    | none =>
      let reply := project.workspace.apply command
      some ({ project with workspace := reply.1 }, reply.2)
  | .beginGenerated =>
    match project.transaction with
    | some _ => none
    | none =>
      let transaction :=
        GeneratedTransaction.new project.workspace.storage project.workspace.limits
      some ({ project with transaction := some transaction }, .ok ())
  | .write path bytes =>
    match project.transaction with
    | none => none
    | some transaction =>
      let reply := transaction.write path bytes
      some ({ project with transaction := some reply.1 }, answer .transaction reply.2)
  | .accept =>
    match project.transaction with
    | none => none
    | some transaction =>
      let reply := transaction.accept project.workspace.storage
      some ({ workspace := { project.workspace with storage := reply.1 }
              transaction := none },
        answer .transaction reply.2)
  | .discard =>
    match project.transaction with
    | none => none
    | some _ => some ({ project with transaction := none }, .ok ())

def Project.copyFrom (project : Project) (source : ProjectWorkspace) :
    Option (Project × Answer) :=
  match project.transaction with
  | some _ => none
  | none =>
    let reply := project.workspace.copyResolvedBindingsFrom source
    some ({ project with workspace := reply.1 }, answer .copy reply.2)

structure Supply where
  request : FileRequestKey
  path : VirtualPath
  bytes : Bytes
deriving DecidableEq

def ResolvedFile.supply (response : ResolvedFile) : List Supply :=
  match VirtualPath.distribution response.virtualPath with
  | .error _ => []
  | .ok path => [⟨response.request, path, response.bytes⟩]

def Command.supplies : Command → List Supply
  | .workspace (.provision response) | .workspace (.preload response) => response.supply
  | .workspace (.provisionBatch responses) => responses.flatMap ResolvedFile.supply
  | _ => []

def Command.supplied (command : Command) (answer : Answer) (before : List Supply) : List Supply :=
  match command, answer with
  | .workspace .clear, _ => []
  | _, .ok () => before ++ command.supplies
  | _, .error _ => before

/-- The projects some run reaches, each with the responses supplied to it in order.
A copied workspace is one that a run reaches too, and brings its own supplies. -/
inductive Reachable : Project → List Supply → Prop where
  | new {limits : VfsLimits} {workspace : ProjectWorkspace} :
      ProjectWorkspace.new limits = .ok workspace → Reachable ⟨workspace, none⟩ []
  | run {project next : Project} {supplied : List Supply} {command : Command} {answer : Answer} :
      Reachable project supplied → project.run command = some (next, answer) →
      Reachable next (command.supplied answer supplied)
  | copy {project source next : Project} {supplied brought : List Supply} :
      Reachable project supplied → Reachable source brought →
      project.copyFrom source.workspace = some (next, .ok ()) → Reachable next brought
  | copyFailed {project source next : Project} {supplied brought : List Supply}
      {fault : Fault CommandError} :
      Reachable project supplied → Reachable source brought →
      project.copyFrom source.workspace = some (next, .error fault) → Reachable next supplied

/-- A run without `clear` whose copies all meet a condition on the receiving and the
copied workspace. -/
inductive Continues (allowed : ProjectWorkspace → ProjectWorkspace → Prop) :
    Project → Project → Prop where
  | refl (project : Project) : Continues allowed project project
  | run {project middle next : Project} {command : Command} {answer : Answer} :
      Continues allowed project middle → command ≠ .workspace .clear →
      middle.run command = some (next, answer) → Continues allowed project next
  | copy {project middle source next : Project} {brought : List Supply} {answer : Answer} :
      Continues allowed project middle → Reachable source brought →
      allowed middle.workspace source.workspace →
      middle.copyFrom source.workspace = some (next, answer) → Continues allowed project next

end Umber.Vfs
