import Umber.Vfs.Workspace

/-! What each operation of a workspace can do, and the accounting it keeps. -/

set_option autoImplicit false

namespace Umber.Vfs

namespace ProjectWorkspace

structure Accounted (workspace : ProjectWorkspace) : Prop where
  present : ∀ key path, workspace.ledger.lifecycle.admitted key = some path →
    ∃ file, workspace.storage.resolved.get? path = some file
  userTotal : workspace.ledger.userBytes = workspace.storage.user.byteTotal
  userWithin : workspace.ledger.userBytes ≤ workspace.limits.userBytes
  resolvedTotal : workspace.ledger.resolvedBytes = workspace.storage.resolved.byteTotal
  resolvedWithin : workspace.ledger.resolvedBytes ≤ workspace.limits.resolvedBytes
  disjoint : ∀ key, workspace.ledger.lifecycle.isBound key = true →
    workspace.ledger.knownExists.contains key = false

structure Counted (workspace : ProjectWorkspace) : Prop where
  files : workspace.storage.resolved.size ≤ workspace.ledger.lifecycle.bindingCount
  bindings : workspace.ledger.lifecycle.bindingCount ≤ workspace.limits.resolvedFiles
  hard : workspace.limits.resolvedFiles ≤ VfsLimits.hardMax.resolvedFiles

def withBinding (workspace : ProjectWorkspace) (request : FileRequestKey) (path : VirtualPath) :
    ProjectWorkspace :=
  { workspace with
    ledger := { workspace.ledger with
      lifecycle := ⟨workspace.ledger.lifecycle.states.insert request (.admitted path)⟩
      knownExists := workspace.ledger.knownExists.remove request } }

def withResolved (workspace : ProjectWorkspace) (request : FileRequestKey) (path : VirtualPath)
    (bytes : Bytes) : ProjectWorkspace :=
  { workspace with
    storage := { workspace.storage with
      resolved := workspace.storage.resolved.insert path ⟨path, bytes, .resolved request⟩ }
    ledger := { workspace.ledger with
      resolvedBytes := workspace.ledger.resolvedBytes + bytes.length } }

variable {path : VirtualPath}

theorem validateResponse_ok {limits : VfsLimits} {response : ResolvedFile}
    (valid : validateResponse limits response = .ok path) :
    VirtualPath.distribution response.virtualPath = .ok path := by
  unfold validateResponse at valid
  cases canonical : VirtualPath.distribution response.virtualPath with
  | error problem =>
    rw [canonical] at valid
    cases valid
  | ok canonicalPath => ?_
  rw [canonical] at valid
  cases checked : limits.check .oneFileBytes response.bytes.length with
  | error problem =>
    simp only [checked] at valid
    cases valid
  | ok done => ?_
  simp only [checked] at valid
  split at valid
  · cases valid
    rfl
  split at valid
  · cases valid
  cases valid
  rfl

theorem admissible_ok {workspace : ProjectWorkspace} {request : FileRequestKey}
    {mustBeExpected : Bool} (admitted : workspace.admissible request mustBeExpected = .ok ()) :
    workspace.ledger.lifecycle.isUnavailable request = false ∧
      (mustBeExpected = true → workspace.ledger.lifecycle.isOutstanding request = true) ∧
      saturatingAdd workspace.ledger.lifecycle.bindingCount 1 ≤ workspace.limits.resolvedFiles := by
  unfold admissible at admitted
  split at admitted
  next => cases admitted
  rename_i available
  cases expected : (if mustBeExpected = true then workspace.requireExpected request
      else .ok ()) with
  | error problem =>
    rw [expected] at admitted
    cases admitted
  | ok done => ?_
  rw [expected] at admitted
  cases checked : workspace.limits.check .resolvedFiles
      (saturatingAdd workspace.ledger.lifecycle.bindingCount 1) with
  | error problem =>
    simp only [checked] at admitted
    cases admitted
  | ok done => ?_
  refine ⟨Bool.eq_false_iff.mpr available, ?_, VfsLimits.check_ok checked⟩
  intro must
  rw [if_pos must] at expected
  unfold requireExpected at expected
  split at expected
  next outstanding => exact outstanding
  next => split at expected <;> cases expected

/-- An admissible request without a positive binding is bound. -/
theorem bindRequest_of_admissible {workspace claimed : ProjectWorkspace}
    {request : FileRequestKey} {mustBeExpected : Bool}
    (unadmitted : workspace.ledger.lifecycle.admitted request = none)
    (admissible : workspace.admissible request mustBeExpected = .ok ())
    (same : claimed.ledger.lifecycle = workspace.ledger.lifecycle) :
    claimed.bindRequest request path mustBeExpected =
      (claimed.withBinding request path, .ok .inserted) := by
  obtain ⟨available, expected, _⟩ := admissible_ok admissible
  unfold bindRequest
  by_cases must : mustBeExpected = true
  · rw [if_pos must, same,
      ResourceLifecycle.admit_of_isOutstanding path (expected must)]
    unfold withBinding
    rw [same]
    rfl
  have unbound := ResourceLifecycle.bound_eq_none_of unadmitted available
  rw [if_neg must, same, ResourceLifecycle.restore_of_unbound path unbound]
  unfold withBinding
  rw [same]
  rfl

theorem claimPath_cases {workspace : ProjectWorkspace} {response : ResolvedFile}
    {path : VirtualPath} (distribution : path.isDistribution = true) :
    (∃ fault, workspace.claimPath response path = (workspace, .error fault)) ∨
    (∃ existing, workspace.storage.resolved.get? path = some existing ∧
      existing.contentId = FileContentId.forBytes response.bytes ∧
      workspace.claimPath response path = (workspace, .ok ())) ∨
    (workspace.storage.resolved.get? path = none ∧
      workspace.ledger.resolvedBytes + response.bytes.length ≤ workspace.limits.resolvedBytes ∧
      workspace.claimPath response path =
        (workspace.withResolved response.request path response.bytes, .ok ())) := by
  unfold claimPath
  cases found : workspace.storage.resolved.get? path with
  | some existing =>
    cases origin : existing.origin with
    | resolved existingRequest =>
      simp only [origin]
      by_cases changed : existing.contentId ≠ FileContentId.forBytes response.bytes
      · rw [if_pos changed]
        exact .inl ⟨_, rfl⟩
      rw [if_neg changed]
      exact .inr (.inl ⟨existing, rfl, Decidable.of_not_not changed, rfl⟩)
    | user =>
      simp only [origin]
      exact .inl ⟨_, rfl⟩
    | generated =>
      simp only [origin]
      exact .inl ⟨_, rfl⟩
  | none => ?_
  by_cases overflow : usizeMax < workspace.ledger.resolvedBytes + response.bytes.length
  · simp only [if_pos overflow]
    exact .inl ⟨_, rfl⟩
  cases checked : workspace.limits.check .resolvedBytes
      (workspace.ledger.resolvedBytes + response.bytes.length) with
  | error problem =>
    simp only [if_neg overflow, checked]
    exact .inl ⟨_, rfl⟩
  | ok done =>
    simp only [if_neg overflow, checked, dif_pos distribution]
    exact .inr (.inr ⟨trivial, VfsLimits.check_ok checked, rfl⟩)

/-- The four ways a response ends: an error that changes nothing, a repeated answer, a
request that shares a registered path, and a request that registers its path. -/
inductive Provisioned (workspace : ProjectWorkspace) (response : ResolvedFile) :
    Reply ProjectWorkspace ProvisionError ProvisionOutcome → Prop where
  | failed (fault : Fault ProvisionError) : Provisioned workspace response (workspace, .error fault)
  | repeated {path : VirtualPath} :
      VirtualPath.distribution response.virtualPath = .ok path →
      workspace.ledger.lifecycle.admitted response.request = some path →
      Provisioned workspace response
        ({ workspace with ledger := workspace.ledger.markReady response.request },
          .ok .alreadyPresent)
  | shared {path : VirtualPath} {existing : VirtualFile} :
      VirtualPath.distribution response.virtualPath = .ok path →
      workspace.ledger.lifecycle.bound response.request = none →
      saturatingAdd workspace.ledger.lifecycle.bindingCount 1 ≤ workspace.limits.resolvedFiles →
      workspace.storage.resolved.get? path = some existing →
      existing.contentId = FileContentId.forBytes response.bytes →
      Provisioned workspace response (workspace.withBinding response.request path, .ok .inserted)
  | registered {path : VirtualPath} :
      VirtualPath.distribution response.virtualPath = .ok path →
      workspace.ledger.lifecycle.bound response.request = none →
      saturatingAdd workspace.ledger.lifecycle.bindingCount 1 ≤ workspace.limits.resolvedFiles →
      workspace.storage.resolved.get? path = none →
      workspace.ledger.resolvedBytes + response.bytes.length ≤ workspace.limits.resolvedBytes →
      Provisioned workspace response
        ((workspace.withResolved response.request path response.bytes).withBinding
          response.request path, .ok .inserted)

theorem reprovision_provisioned {workspace : ProjectWorkspace} {response : ResolvedFile}
    {path existingPath : VirtualPath}
    (canonical : VirtualPath.distribution response.virtualPath = .ok path)
    (admitted : workspace.ledger.lifecycle.admitted response.request = some existingPath) :
    Provisioned workspace response (workspace.reprovision response path existingPath) := by
  unfold reprovision
  cases found : workspace.storage.resolved.get? existingPath with
  | none => exact .failed _
  | some existing => ?_
  by_cases same :
      existingPath = path ∧ existing.contentId = FileContentId.forBytes response.bytes
  · simp only [if_pos same]
    exact .repeated canonical (same.1 ▸ admitted)
  simp only [if_neg same]
  exact .failed _

theorem provisionInner_provisioned (workspace : ProjectWorkspace) (response : ResolvedFile)
    (mustBeExpected : Bool) :
    Provisioned workspace response (workspace.provisionInner response mustBeExpected) := by
  unfold provisionInner
  cases valid : validateResponse workspace.limits response with
  | error problem => exact .failed _
  | ok path => ?_
  have canonical := validateResponse_ok valid
  cases admitted : workspace.ledger.lifecycle.admitted response.request with
  | some existingPath => exact reprovision_provisioned canonical admitted
  | none => ?_
  cases admissible : workspace.admissible response.request mustBeExpected with
  | error problem => exact .failed _
  | ok done => ?_
  obtain ⟨available, _, room⟩ := admissible_ok admissible
  have unbound := ResourceLifecycle.bound_eq_none_of admitted available
  rcases @claimPath_cases workspace response path
      (VirtualPath.distribution_isDistribution canonical) with
    ⟨fault, claimed⟩ | ⟨existing, found, same, claimed⟩ | ⟨absent, within, claimed⟩
  · simp only [claimed]
    exact .failed _
  · simp only [claimed]
    rw [bindRequest_of_admissible admitted admissible rfl]
    exact .shared canonical unbound room found same
  simp only [claimed]
  have same : (workspace.withResolved response.request path
      response.bytes).ledger.lifecycle = workspace.ledger.lifecycle := rfl
  rw [bindRequest_of_admissible admitted admissible same]
  exact .registered canonical unbound room absent within

inductive MadeUnavailable (workspace : ProjectWorkspace) (request : FileRequestKey) :
    Reply ProjectWorkspace ProvisionError ProvisionOutcome → Prop where
  | failed (fault : Fault ProvisionError) :
      MadeUnavailable workspace request (workspace, .error fault)
  | repeated : MadeUnavailable workspace request (workspace, .ok .alreadyPresent)
  | inserted :
      workspace.ledger.lifecycle.bound request = none →
      saturatingAdd workspace.ledger.lifecycle.bindingCount 1 ≤ workspace.limits.resolvedFiles →
      MadeUnavailable workspace request
        ({ workspace with
            ledger := { workspace.ledger with
              lifecycle := ⟨workspace.ledger.lifecycle.states.insert request .unavailable⟩
              knownExists := workspace.ledger.knownExists.remove request } },
          .ok .inserted)

theorem provisionUnavailable_madeUnavailable (workspace : ProjectWorkspace)
    (request : FileRequestKey) :
    MadeUnavailable workspace request (workspace.provisionUnavailable request) := by
  unfold provisionUnavailable
  split
  next => exact .repeated
  rename_i available
  split
  next => exact .failed _
  rename_i unadmitted
  cases checked : workspace.limits.check .resolvedFiles
      (saturatingAdd workspace.ledger.lifecycle.bindingCount 1) with
  | error problem => exact .failed _
  | ok done => ?_
  have unbound : workspace.ledger.lifecycle.bound request = none :=
    ResourceLifecycle.bound_eq_none_of
      (Option.not_isSome_iff_eq_none.mp unadmitted) (Bool.eq_false_iff.mpr available)
  unfold ResourceLifecycle.admitUnavailable
  cases found : workspace.ledger.lifecycle.states.get? request with
  | none => exact .failed _
  | some state => ?_
  cases state with
  | admitted value => exact .failed _
  | unavailable => exact .repeated
  | outstanding intent => ?_
  by_cases blocking : intent.isBlocking = true
  · simp only [if_pos blocking]
    exact .inserted unbound (VfsLimits.check_ok checked)
  simp only [if_neg blocking]
  exact .failed _

/-- A registration fails and changes nothing, or replaces one user file. -/
inductive Registered (workspace : ProjectWorkspace) (path : VirtualPath) (bytes : Bytes) :
    Reply ProjectWorkspace UserRegistrationError ProvisionOutcome → Prop where
  | failed (fault : Fault UserRegistrationError) :
      Registered workspace path bytes (workspace, .error fault)
  | replaced {nextBytes : Nat} (outcome : ProvisionOutcome) :
      workspace.limits.checkedReplacementTotal .userBytes workspace.ledger.userBytes
        (((workspace.storage.user.get? path).map VirtualFile.size).getD 0) bytes.length =
          .ok nextBytes →
      Registered workspace path bytes
        ({ workspace with
            storage := { workspace.storage with
              user := workspace.storage.user.insert path ⟨path, bytes, .user⟩ }
            ledger := { workspace.ledger with userBytes := nextBytes } },
          .ok outcome)

theorem registerUser_registered (workspace : ProjectWorkspace) (path : VirtualPath)
    (bytes : Bytes) : Registered workspace path bytes (workspace.registerUser path bytes) := by
  unfold registerUser
  split
  next job =>
    cases checked : workspace.limits.check .oneFileBytes bytes.length with
    | error problem => exact .failed _
    | ok done => ?_
    dsimp only
    split
    · exact .failed _
    split
    next => exact .failed _
    next nextBytes total => exact .replaced _ total
  next => exact .failed _

/-- A copy fails and changes nothing, or takes over the resolved side of the source. -/
inductive Copied (workspace source : ProjectWorkspace) :
    Reply ProjectWorkspace BindingCopyError Unit → Prop where
  | failed (fault : Fault BindingCopyError) : Copied workspace source (workspace, .error fault)
  | taken :
      workspace.limits = source.limits →
      checkPriorAdmitted workspace source workspace.ledger.lifecycle.admittedEntries = .ok () →
      checkPriorUnavailable source workspace.ledger.lifecycle.unavailableKeys = .ok () →
      Copied workspace source
        ({ workspace with
            storage := { workspace.storage with resolved := source.storage.resolved }
            ledger := { source.ledger with userBytes := workspace.ledger.userBytes } },
          .ok ())

theorem copyResolvedBindingsFrom_copied (workspace source : ProjectWorkspace) :
    Copied workspace source (workspace.copyResolvedBindingsFrom source) := by
  unfold copyResolvedBindingsFrom
  split
  next => exact .failed _
  rename_i same
  cases admitted : checkPriorAdmitted workspace source
      workspace.ledger.lifecycle.admittedEntries with
  | error problem => exact .failed _
  | ok done => ?_
  cases unavailable : checkPriorUnavailable source workspace.ledger.lifecycle.unavailableKeys with
  | error problem => exact .failed _
  | ok done => exact .taken (Decidable.of_not_not same) admitted unavailable

theorem checkPriorAdmitted_ok {workspace source : ProjectWorkspace}
    {entries : List (FileRequestKey × VirtualPath)}
    (checked : checkPriorAdmitted workspace source entries = .ok ()) {key : FileRequestKey}
    (member : (key, path) ∈ entries) :
    source.ledger.lifecycle.admitted key = some path ∧
      ∃ old new, workspace.storage.resolved.get? path = some old ∧
        source.storage.resolved.get? path = some new ∧ new.contentId = old.contentId := by
  induction entries with
  | nil => cases member
  | cons entry rest ih => ?_
  obtain ⟨headKey, headPath⟩ := entry
  unfold checkPriorAdmitted at checked
  split at checked
  next => cases checked
  rename_i newPath admitted
  split at checked
  next => cases checked
  rename_i old foundOld
  split at checked
  next => cases checked
  rename_i new foundNew
  split at checked
  next => cases checked
  rename_i same
  rw [not_or, Decidable.not_not, Decidable.not_not] at same
  obtain ⟨rfl, sameContent⟩ := same
  rcases List.mem_cons.mp member with equal | later
  · cases equal
    exact ⟨admitted, old, new, foundOld, foundNew, sameContent.symm⟩
  · exact ih checked later

theorem checkPriorUnavailable_ok {source : ProjectWorkspace} {keys : List FileRequestKey}
    (checked : checkPriorUnavailable source keys = .ok ()) {key : FileRequestKey}
    (member : key ∈ keys) : source.ledger.lifecycle.isUnavailable key = true := by
  induction keys with
  | nil => cases member
  | cons head rest ih => ?_
  unfold checkPriorUnavailable at checked
  split at checked
  next unavailable =>
    rcases List.mem_cons.mp member with rfl | later
    · exact unavailable
    · exact ih checked later
  next => cases checked

end ProjectWorkspace

end Umber.Vfs
