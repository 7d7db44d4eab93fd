import Umber.Vfs.BindingProperties

/-! How the bibliography finds its inputs: by the origin stored with a file of the
distribution, not by the ledger that binds requests to paths. -/

set_option autoImplicit false

namespace Umber.Vfs

inductive SnapshotError where
  | stale
  | enumerationLimitExceeded (limit : Nat)

structure VfsSnapshot where
  generation : StorageGeneration
  pendingGenerated : Option FileMap
  valid : Bool

namespace VfsSnapshot

def getValid (snapshot : VfsSnapshot) (path : VirtualPath) : Option VirtualFile :=
  if path.isJob = true then
    match snapshot.pendingGenerated.bind fun files => files.get? path with
    | some file => some file
    | none =>
      match snapshot.generation.acceptedGenerated.get? path with
      | some file => some file
      | none => snapshot.generation.user.get? path
  else snapshot.generation.resolved.get? path

def get (snapshot : VfsSnapshot) (path : VirtualPath) :
    Except SnapshotError (Option VirtualFile) :=
  if snapshot.valid = true then .ok (snapshot.getValid path) else .error .stale

def listVisible (snapshot : VfsSnapshot) (limit : Nat) :
    List VirtualPath → List VirtualPath → Except SnapshotError (List VirtualPath)
  | [], result => .ok result
  | path :: rest, result =>
    if (snapshot.getValid path).isSome = true then
      if result.length = limit then .error (.enumerationLimitExceeded limit)
      else listVisible snapshot limit rest (result ++ [path])
    else listVisible snapshot limit rest result

def listDistribution (snapshot : VfsSnapshot) (limit : Nat) :
    Except SnapshotError (List VirtualPath) :=
  if snapshot.valid = true then
    snapshot.listVisible limit (snapshot.generation.resolved.entries.map Prod.fst) []
  else .error .stale

end VfsSnapshot

def ProjectWorkspace.snapshot (workspace : ProjectWorkspace) : VfsSnapshot :=
  { generation := workspace.storage, pendingGenerated := none, valid := true }

def maximumListedPaths : Nat := 16384

def searchOrigins (snapshot : VfsSnapshot) (request : FileRequestKey) :
    List VirtualPath → Except (Fault SnapshotError) (Option VirtualFile)
  | [] => .ok none
  | path :: rest =>
    match snapshot.get path with
    | .error problem => .error (.error problem)
    | .ok none => .error (.panicked "visible file")
    | .ok (some file) =>
      if file.origin = .resolved request then .ok (some file)
      else searchOrigins snapshot request rest

def searchDistribution (snapshot : VfsSnapshot) (request : FileRequestKey) :
    Except (Fault SnapshotError) (Option VirtualFile) :=
  match snapshot.listDistribution maximumListedPaths with
  | .error problem => .error (.error problem)
  | .ok paths => searchOrigins snapshot request paths

def locate (snapshot : VfsSnapshot) (exact : Option VirtualPath) (request : FileRequestKey) :
    Except (Fault SnapshotError) (Option VirtualFile) :=
  match exact with
  | none => searchDistribution snapshot request
  | some path =>
    match snapshot.get path with
    | .error problem => .error (.error problem)
    | .ok (some file) => .ok (some file)
    | .ok none => searchDistribution snapshot request

structure Inputs where
  found : List VirtualFile
  missing : List FileRequest

/-- The style and database lookup of the control loop: what is missing is asked for. -/
def gatherInputs (snapshot : VfsSnapshot) :
    List FileRequest → Inputs → Except (Fault SnapshotError) Inputs
  | [], inputs => .ok inputs
  | request :: rest, inputs =>
    match locate snapshot none request.key with
    | .error problem => .error problem
    | .ok (some file) =>
      gatherInputs snapshot rest { inputs with found := inputs.found ++ [file] }
    | .ok none =>
      gatherInputs snapshot rest { inputs with missing := inputs.missing ++ [request] }

structure Traced (workspace : ProjectWorkspace) (supplied : List Supply) : Prop where
  files : ∀ path file, workspace.storage.resolved.get? path = some file →
    ∃ supply, supplied.find? (fun supply => supply.path = path) = some supply ∧
      file = ⟨path, supply.bytes, .resolved supply.request⟩
  owners : ∀ path file request, workspace.storage.resolved.get? path = some file →
    file.origin = .resolved request → workspace.ledger.lifecycle.admitted request = some path
  admitted : ∀ supply ∈ supplied,
    workspace.ledger.lifecycle.admitted supply.request = some supply.path
  backed : ∀ key path, workspace.ledger.lifecycle.admitted key = some path →
    ∃ supply ∈ supplied, supply.request = key
  rooted : ∀ path file, workspace.storage.resolved.get? path = some file →
    path.isDistribution = true

namespace Traced

open ProjectWorkspace ResourceLifecycle

variable {workspace source before after : ProjectWorkspace} {supplied brought : List Supply}

theorem sameLedger (traced : Traced before supplied) (same : SameLedger before after) :
    Traced after supplied where
  files := by
    rw [same.resolved]
    exact traced.files
  owners := by
    intro path file request found origin
    rw [same.resolved] at found
    rw [same.admitted]
    exact traced.owners path file request found origin
  admitted := by
    intro supply member
    rw [same.admitted]
    exact traced.admitted supply member
  backed := by
    intro key path admitted
    rw [same.admitted] at admitted
    exact traced.backed key path admitted
  rooted := by
    rw [same.resolved]
    exact traced.rooted

theorem admitted_withBinding {request key : FileRequestKey} {path other : VirtualPath}
    (unbound : workspace.ledger.lifecycle.bound request = none)
    (admitted : workspace.ledger.lifecycle.admitted key = some other) :
    (workspace.withBinding request path).ledger.lifecycle.admitted key = some other := by
  have apart : request ≠ key := by
    intro same
    rw [admitted_iff, ← same, unbound] at admitted
    cases admitted
  rw [admitted_iff] at admitted ⊢
  exact (bound_insert_other _ apart).trans admitted

theorem admitted_withBinding_self (workspace : ProjectWorkspace) (request : FileRequestKey)
    (path : VirtualPath) :
    (workspace.withBinding request path).ledger.lifecycle.admitted request = some path := by
  rw [admitted_iff]
  exact bound_insert_self _

theorem backed_withBinding {request key : FileRequestKey} {path other : VirtualPath}
    {bytes : Bytes} (traced : Traced workspace supplied)
    (admitted : (workspace.withBinding request path).ledger.lifecycle.admitted key = some other) :
    ∃ supply ∈ supplied ++ [⟨request, path, bytes⟩], supply.request = key := by
  rw [admitted_iff] at admitted
  rcases bound_insert admitted with ⟨rfl, _⟩ | earlier
  · exact ⟨⟨key, path, bytes⟩, List.mem_append_right _ List.mem_cons_self, rfl⟩
  obtain ⟨supply, member, same⟩ :=
    traced.backed key other (admitted_iff.mpr earlier)
  exact ⟨supply, List.mem_append_left _ member, same⟩

theorem find?_append_found {supply added : Supply} {path : VirtualPath}
    (found : supplied.find? (fun supply => supply.path = path) = some supply) :
    (supplied ++ [added]).find? (fun supply => supply.path = path) = some supply := by
  rw [List.find?_append, found]
  rfl

section

variable (traced : Traced workspace supplied)
include traced

/-- A response at a registered path adds a supply behind the one the file carries. -/
theorem append {added : Supply}
    (admitted : workspace.ledger.lifecycle.admitted added.request = some added.path) :
    Traced workspace (supplied ++ [added]) where
  files := by
    intro path file found
    obtain ⟨supply, first, carried⟩ := traced.files path file found
    exact ⟨supply, find?_append_found first, carried⟩
  owners := traced.owners
  admitted := by
    intro supply member
    rcases List.mem_append.mp member with earlier | last
    · exact traced.admitted supply earlier
    cases List.mem_singleton.mp last
    exact admitted
  backed := by
    intro key path held
    obtain ⟨supply, member, same⟩ := traced.backed key path held
    exact ⟨supply, List.mem_append_left _ member, same⟩
  rooted := traced.rooted

theorem shared {request : FileRequestKey} {path : VirtualPath} (bytes : Bytes)
    (unbound : workspace.ledger.lifecycle.bound request = none) :
    Traced (workspace.withBinding request path) (supplied ++ [⟨request, path, bytes⟩]) where
  files := by
    intro other file found
    obtain ⟨supply, first, carried⟩ := traced.files other file found
    exact ⟨supply, find?_append_found first, carried⟩
  owners := by
    intro other file owner found origin
    exact admitted_withBinding unbound (traced.owners other file owner found origin)
  admitted := by
    intro supply member
    rcases List.mem_append.mp member with earlier | last
    · exact admitted_withBinding unbound (traced.admitted supply earlier)
    cases List.mem_singleton.mp last
    exact admitted_withBinding_self _ _ _
  backed := fun _ _ admitted => backed_withBinding traced admitted
  rooted := traced.rooted

/-- Registering a path: no earlier response was supplied for it. -/
theorem registered (accounted : workspace.Accounted)
    {request : FileRequestKey} {path : VirtualPath} {bytes : Bytes}
    (distribution : path.isDistribution = true)
    (unbound : workspace.ledger.lifecycle.bound request = none)
    (absent : workspace.storage.resolved.get? path = none) :
    Traced ((workspace.withResolved request path bytes).withBinding request path)
      (supplied ++ [⟨request, path, bytes⟩]) where
  files := by
    intro other file found
    by_cases same : path = other
    · subst same
      have unsupplied : supplied.find? (fun supply => supply.path = path) = none := by
        rw [List.find?_eq_none]
        intro supply member samePath
        have held := traced.admitted supply member
        obtain ⟨earlier, registered⟩ := accounted.present _ _ held
        rw [of_decide_eq_true samePath, absent] at registered
        cases registered
      have stored := (get?_withResolved workspace request path bytes).symm.trans found
      cases stored
      refine ⟨⟨request, path, bytes⟩, ?_, rfl⟩
      rw [List.find?_append, unsupplied]
      simp
    have earlier : workspace.storage.resolved.get? other = some file :=
      (OrderedMap.get?_insert_other _ _ same).symm.trans found
    obtain ⟨supply, first, carried⟩ := traced.files other file earlier
    exact ⟨supply, find?_append_found first, carried⟩
  owners := by
    intro other file owner found origin
    by_cases same : path = other
    · subst same
      have stored := (get?_withResolved workspace request path bytes).symm.trans found
      cases stored
      cases origin
      exact admitted_withBinding_self _ _ _
    have earlier : workspace.storage.resolved.get? other = some file :=
      (OrderedMap.get?_insert_other _ _ same).symm.trans found
    have held := traced.owners other file owner earlier origin
    exact @admitted_withBinding (workspace.withResolved request path bytes) _ _ _ _ unbound held
  admitted := by
    intro supply member
    rcases List.mem_append.mp member with earlier | last
    · exact @admitted_withBinding (workspace.withResolved request path bytes) _ _ _ _ unbound
        (traced.admitted supply earlier)
    cases List.mem_singleton.mp last
    exact admitted_withBinding_self _ _ _
  backed := fun _ _ admitted => backed_withBinding traced admitted
  rooted := by
    intro other file found
    by_cases same : path = other
    · exact same ▸ distribution
    · exact traced.rooted other file ((OrderedMap.get?_insert_other _ _ same).symm.trans found)

end

theorem supply_of_canonical {response : ResolvedFile} {path : VirtualPath}
    (canonical : VirtualPath.distribution response.virtualPath = .ok path) :
    response.supply = [⟨response.request, path, response.bytes⟩] := by
  unfold ResolvedFile.supply
  rw [canonical]

theorem provisioned (traced : Traced workspace supplied) (accounted : workspace.Accounted)
    {response : ResolvedFile} {reply : Reply ProjectWorkspace ProvisionError ProvisionOutcome}
    (provisioned : Provisioned workspace response reply) {outcome : ProvisionOutcome}
    (succeeded : reply.2 = .ok outcome) : Traced reply.1 (supplied ++ response.supply) := by
  cases provisioned with
  | failed fault => cases succeeded
  | repeated canonical admitted =>
    rw [supply_of_canonical canonical]
    exact (traced.append admitted).sameLedger (markReady_sameLedger ..)
  | shared canonical unbound _ _ _ =>
    rw [supply_of_canonical canonical]
    exact traced.shared response.bytes unbound
  | registered canonical unbound _ absent _ => ?_
  rw [supply_of_canonical canonical]
  exact traced.registered accounted (VirtualPath.distribution_isDistribution canonical)
    unbound absent

theorem provisionStaged {responses : List ResolvedFile} {outcomes : List ProvisionOutcome}
    (traced : Traced workspace supplied) (accounted : workspace.Accounted)
    (succeeded : (workspace.provisionStaged responses).2 = .ok outcomes) :
    Traced (workspace.provisionStaged responses).1
      (supplied ++ responses.flatMap ResolvedFile.supply) := by
  induction responses generalizing workspace supplied outcomes with
  | nil =>
    rw [List.flatMap_nil, List.append_nil]
    exact traced
  | cons response rest ih => ?_
  have provisioned := provisionInner_provisioned workspace response true
  unfold ProjectWorkspace.provisionStaged ProjectWorkspace.provision at succeeded ⊢
  cases replied : workspace.provisionInner response true with
  | mk next result => ?_
  rw [replied] at provisioned succeeded
  cases result with
  | error fault => cases succeeded
  | ok outcome => ?_
  have tracedNext := Traced.provisioned traced accounted provisioned rfl
  have accountedNext := accounted.provisioned provisioned
  dsimp only at succeeded tracedNext accountedNext ⊢
  cases finished : next.provisionStaged rest with
  | mk final results => ?_
  rw [finished] at succeeded
  cases results with
  | error fault => cases succeeded
  | ok restOutcomes => ?_
  have carried := ih tracedNext accountedNext (congrArg Prod.snd finished)
  rw [finished, List.append_assoc] at carried
  exact carried

theorem copied {reply : Reply ProjectWorkspace BindingCopyError Unit}
    (sourceTraced : Traced source brought) (copied : Copied workspace source reply)
    (succeeded : reply.2 = .ok ()) : Traced reply.1 brought := by
  cases copied with
  | failed fault => cases succeeded
  | taken _ _ _ =>
    exact ⟨sourceTraced.files, sourceTraced.owners, sourceTraced.admitted, sourceTraced.backed,
      sourceTraced.rooted⟩

end Traced

end Umber.Vfs
