import Umber.Vfs.Project
import Umber.Vfs.WorkspaceProperties

/-! Every reachable workspace is accounted for, and bindings are immutable along
runs. -/

set_option autoImplicit false

namespace Umber.Vfs

open ResourceLifecycle OrderedMap

namespace ProjectWorkspace

variable {before after workspace source : ProjectWorkspace}

/-- The later workspace differs from the earlier one in outstanding requests and in
metadata about unbound requests alone. -/
structure SameLedger (before after : ProjectWorkspace) : Prop where
  limits : after.limits = before.limits
  user : after.storage.user = before.storage.user
  resolved : after.storage.resolved = before.storage.resolved
  userBytes : after.ledger.userBytes = before.ledger.userBytes
  resolvedBytes : after.ledger.resolvedBytes = before.ledger.resolvedBytes
  bindings : before.ledger.lifecycle.SameBindings after.ledger.lifecycle
  known : ∀ key, before.ledger.lifecycle.isBound key = true →
    before.ledger.knownExists.contains key = false →
    after.ledger.knownExists.contains key = false

theorem SameLedger.refl (workspace : ProjectWorkspace) : SameLedger workspace workspace :=
  ⟨rfl, rfl, rfl, rfl, rfl, .refl _, fun _ _ absent => absent⟩

section

variable (same : SameLedger before after)
include same

theorem SameLedger.admitted (key : FileRequestKey) :
    after.ledger.lifecycle.admitted key = before.ledger.lifecycle.admitted key := by
  apply Option.ext
  intro path
  rw [admitted_iff, admitted_iff, same.bindings.bound]

theorem SameLedger.isUnavailable (key : FileRequestKey) :
    after.ledger.lifecycle.isUnavailable key = before.ledger.lifecycle.isUnavailable key := by
  apply Bool.eq_iff_iff.mpr
  rw [isUnavailable_iff, isUnavailable_iff, same.bindings.bound]

theorem SameLedger.isBound (key : FileRequestKey) :
    after.ledger.lifecycle.isBound key = before.ledger.lifecycle.isBound key := by
  apply Bool.eq_iff_iff.mpr
  rw [isBound_iff, isBound_iff, same.bindings.bound]

end

theorem Accounted.sameLedger (accounted : before.Accounted) (same : SameLedger before after) :
    after.Accounted where
  present := by
    intro key path admitted
    rw [same.admitted] at admitted
    rw [same.resolved]
    exact accounted.present key path admitted
  userTotal := by rw [same.userBytes, same.user, accounted.userTotal]
  userWithin := by
    rw [same.userBytes, same.limits]
    exact accounted.userWithin
  resolvedTotal := by rw [same.resolvedBytes, same.resolved, accounted.resolvedTotal]
  resolvedWithin := by
    rw [same.resolvedBytes, same.limits]
    exact accounted.resolvedWithin
  disjoint := by
    intro key bound
    rw [same.isBound] at bound
    exact same.known key bound (accounted.disjoint key bound)

theorem Counted.sameLedger (counted : before.Counted) (same : SameLedger before after) :
    after.Counted where
  files := by
    rw [same.resolved, same.bindings.count]
    exact counted.files
  bindings := by
    rw [same.limits, same.bindings.count]
    exact counted.bindings
  hard := by
    rw [same.limits]
    exact counted.hard

theorem withLifecycle_sameLedger {lifecycle : ResourceLifecycle FileRequestKey VirtualPath}
    (same : workspace.ledger.lifecycle.SameBindings lifecycle) :
    SameLedger workspace (workspace.withLifecycle lifecycle) :=
  ⟨rfl, rfl, rfl, rfl, rfl, same, fun _ _ absent => absent⟩

theorem contains_remove {known : OrderedMap FileRequestKey Unit} {request key : FileRequestKey}
    (absent : known.contains key = false) : (known.remove request).contains key = false := by
  unfold contains
  by_cases same : key = request
  · subst same
    rw [get?_remove_self]
    rfl
  rw [get?_remove_other _ same]
  exact absent

theorem contains_remove_self (known : OrderedMap FileRequestKey Unit) (request : FileRequestKey) :
    (known.remove request).contains request = false := by
  unfold contains
  rw [get?_remove_self]
  rfl

theorem markReady_sameLedger (workspace : ProjectWorkspace) (request : FileRequestKey) :
    SameLedger workspace { workspace with ledger := workspace.ledger.markReady request } :=
  ⟨rfl, rfl, rfl, rfl, rfl, .refl _, fun _ _ absent => contains_remove absent⟩

theorem noteExists_sameLedger (workspace : ProjectWorkspace) (request : FileRequestKey) :
    SameLedger workspace (workspace.noteExists request) := by
  unfold noteExists ResourceLedger.noteExists
  split
  next => exact .refl workspace
  rename_i unbound
  refine ⟨rfl, rfl, rfl, rfl, rfl, .refl _, ?_⟩
  intro key bound absent
  have apart : request ≠ key := by
    intro same
    exact unbound (same ▸ bound)
  unfold contains
  rw [get?_insert_other _ _ apart]
  exact absent

theorem expect_sameLedger (workspace : ProjectWorkspace) (batch : FileRequestBatch) :
    SameLedger workspace (workspace.expect batch) :=
  ⟨rfl, rfl, rfl, rfl, rfl, beginBatch_sameBindings .., fun _ _ absent => absent⟩

theorem authorizeBlockingFile_sameLedger (workspace : ProjectWorkspace)
    (request : FileRequestKey) (intent : RequestIntent) :
    SameLedger workspace (workspace.authorizeBlockingFile request intent).1 := by
  unfold authorizeBlockingFile
  split
  · exact withLifecycle_sameLedger (promote_sameBindings ..)
  · exact .refl workspace

theorem retry_sameLedger (workspace : ProjectWorkspace) :
    SameLedger workspace workspace.retry.1 := by
  unfold retry
  dsimp only
  split
  · exact .refl workspace
  · exact ⟨rfl, rfl, rfl, rfl, rfl, .refl _, fun _ _ absent => absent⟩

theorem cancelOutstandingResources_sameLedger (workspace : ProjectWorkspace) :
    SameLedger workspace workspace.cancelOutstandingResources := by
  refine ⟨rfl, rfl, rfl, rfl, rfl, cancelOutstanding_sameBindings _, ?_⟩
  intro key _ absent
  unfold contains at absent ⊢
  unfold cancelOutstandingResources
  dsimp only
  rw [get?_retain]
  cases found : workspace.ledger.knownExists.get? key with
  | none => rfl
  | some noted =>
    rw [found] at absent
    cases absent

/-- Placing a new binding over none keeps every other binding. -/
theorem bound_insert {lifecycle : ResourceLifecycle FileRequestKey VirtualPath}
    {request key : FileRequestKey} {state : AdmissionState VirtualPath}
    {binding : Option VirtualPath} (bound : (⟨lifecycle.states.insert request state⟩ :
      ResourceLifecycle FileRequestKey VirtualPath).bound key = some binding) :
    (key = request ∧ state.binding = some binding) ∨ lifecycle.bound key = some binding := by
  by_cases same : request = key
  · subst same
    rw [bound_insert_self] at bound
    exact .inl ⟨rfl, bound⟩
  rw [bound_insert_other _ same] at bound
  exact .inr bound

variable {request : FileRequestKey}

section

variable (accounted : workspace.Accounted)
include accounted

theorem disjoint_insert {state : AdmissionState VirtualPath} {key : FileRequestKey}
    (bound : (⟨workspace.ledger.lifecycle.states.insert request state⟩ :
      ResourceLifecycle FileRequestKey VirtualPath).isBound key = true) :
    (workspace.ledger.knownExists.remove request).contains key = false := by
  rw [isBound_iff] at bound
  obtain ⟨binding, held⟩ := Option.ne_none_iff_exists'.mp bound
  rcases bound_insert held with ⟨rfl, _⟩ | earlier
  · exact contains_remove_self _ _
  apply contains_remove
  apply accounted.disjoint
  rw [isBound_iff, earlier]
  exact Option.some_ne_none _

theorem Accounted.withBinding {path : VirtualPath} {file : VirtualFile}
    (found : workspace.storage.resolved.get? path = some file) :
    (workspace.withBinding request path).Accounted where
  present := by
    intro key other admitted
    rw [admitted_iff] at admitted
    rcases bound_insert admitted with ⟨_, held⟩ | earlier
    · cases held
      exact ⟨file, found⟩
    · exact accounted.present key other (admitted_iff.mpr earlier)
  userTotal := accounted.userTotal
  userWithin := accounted.userWithin
  resolvedTotal := accounted.resolvedTotal
  resolvedWithin := accounted.resolvedWithin
  disjoint := fun _ bound => disjoint_insert accounted bound

theorem Accounted.withResolved
    {path : VirtualPath} {bytes : Bytes} (absent : workspace.storage.resolved.get? path = none)
    (within : workspace.ledger.resolvedBytes + bytes.length ≤ workspace.limits.resolvedBytes) :
    (workspace.withResolved request path bytes).Accounted where
  present := by
    intro key other admitted
    obtain ⟨file, found⟩ := accounted.present key other admitted
    have apart : path ≠ other := by
      intro same
      rw [same, found] at absent
      cases absent
    exact ⟨file, (get?_insert_other _ _ apart).trans found⟩
  userTotal := accounted.userTotal
  userWithin := accounted.userWithin
  resolvedTotal := by
    have grown := total_insert_fresh VirtualFile.size
      (⟨path, bytes, .resolved request⟩ : VirtualFile) absent
    have kept := accounted.resolvedTotal
    show workspace.ledger.resolvedBytes + bytes.length = _
    rw [kept]
    exact grown.symm
  resolvedWithin := within
  disjoint := accounted.disjoint

end

theorem get?_withResolved (workspace : ProjectWorkspace) (request : FileRequestKey)
    (path : VirtualPath) (bytes : Bytes) :
    (workspace.withResolved request path bytes).storage.resolved.get? path =
      some ⟨path, bytes, .resolved request⟩ :=
  get?_insert_self ..

variable {reply : Reply ProjectWorkspace ProvisionError ProvisionOutcome}

theorem Accounted.provisioned {response : ResolvedFile}
    (accounted : workspace.Accounted) (provisioned : Provisioned workspace response reply) :
    reply.1.Accounted := by
  cases provisioned with
  | failed fault => exact accounted
  | repeated _ _ => exact accounted.sameLedger (markReady_sameLedger ..)
  | shared _ _ _ found _ => exact accounted.withBinding found
  | registered _ _ _ absent within =>
    exact (accounted.withResolved absent within).withBinding (get?_withResolved ..)

theorem Accounted.madeUnavailable
    (accounted : workspace.Accounted) (made : MadeUnavailable workspace request reply) :
    reply.1.Accounted := by
  cases made with
  | failed fault => exact accounted
  | repeated => exact accounted
  | inserted unbound room => ?_
  exact
    { present := by
        intro key path admitted
        rw [admitted_iff] at admitted
        rcases bound_insert admitted with ⟨_, held⟩ | earlier
        · cases held
        · exact accounted.present key path (admitted_iff.mpr earlier)
      userTotal := accounted.userTotal
      userWithin := accounted.userWithin
      resolvedTotal := accounted.resolvedTotal
      resolvedWithin := accounted.resolvedWithin
      disjoint := fun _ bound => disjoint_insert accounted bound }

theorem byteTotal_insert (files : FileMap) (path : VirtualPath) (file : VirtualFile) :
    (files.insert path file).total VirtualFile.size +
        ((files.get? path).map VirtualFile.size).getD 0 =
      files.total VirtualFile.size + file.size := by
  cases found : files.get? path with
  | none => exact total_insert_fresh VirtualFile.size file found
  | some old => exact total_insert_replaced VirtualFile.size file found

theorem Accounted.registered {path : VirtualPath} {bytes : Bytes}
    {reply : Reply ProjectWorkspace UserRegistrationError ProvisionOutcome}
    (accounted : workspace.Accounted) (registered : Registered workspace path bytes reply) :
    reply.1.Accounted := by
  cases registered with
  | failed fault => exact accounted
  | replaced outcome checked => ?_
  obtain ⟨held, total, within⟩ := VfsLimits.checkedReplacementTotal_ok checked
  exact
    { present := accounted.present
      userTotal := by
        have grown := byteTotal_insert workspace.storage.user path ⟨path, bytes, .user⟩
        have kept := accounted.userTotal
        have added : (⟨path, bytes, .user⟩ : VirtualFile).size = bytes.length := rfl
        unfold FileMap.byteTotal at kept ⊢
        dsimp only
        omega
      userWithin := within
      resolvedTotal := accounted.resolvedTotal
      resolvedWithin := accounted.resolvedWithin
      disjoint := accounted.disjoint }

theorem Accounted.copied {reply : Reply ProjectWorkspace BindingCopyError Unit}
    (accounted : workspace.Accounted) (sourceAccounted : source.Accounted)
    (copied : Copied workspace source reply) : reply.1.Accounted := by
  cases copied with
  | failed fault => exact accounted
  | taken sameLimits _ _ => ?_
  exact
    { present := sourceAccounted.present
      userTotal := accounted.userTotal
      userWithin := accounted.userWithin
      resolvedTotal := sourceAccounted.resolvedTotal
      resolvedWithin := by
        dsimp only
        rw [sameLimits]
        exact sourceAccounted.resolvedWithin
      disjoint := sourceAccounted.disjoint }

/-- One more binding fits when the saturated count was within the limit. -/
theorem Counted.room (counted : workspace.Counted)
    (room : saturatingAdd workspace.ledger.lifecycle.bindingCount 1 ≤
      workspace.limits.resolvedFiles) :
    workspace.ledger.lifecycle.bindingCount + 1 ≤ workspace.limits.resolvedFiles := by
  have hard := counted.hard
  have ceiling : VfsLimits.hardMax.resolvedFiles < usizeMax := by decide
  unfold saturatingAdd at room
  omega

theorem Counted.provisioned {response : ResolvedFile}
    (counted : workspace.Counted) (provisioned : Provisioned workspace response reply) :
    reply.1.Counted := by
  cases provisioned with
  | failed fault => exact counted
  | repeated _ _ => exact counted.sameLedger (markReady_sameLedger ..)
  | @shared path _ _ unbound room _ _ =>
    have grown := bindingCount_insert (.admitted path) unbound
    refine ⟨Nat.le_trans counted.files ?_, ?_, counted.hard⟩
    · exact grown ▸ Nat.le_add_right ..
    · exact grown ▸ counted.room room
  | @registered path _ unbound room absent _ => ?_
  have grown := bindingCount_insert (.admitted path) unbound
  refine ⟨?_, grown ▸ counted.room room, counted.hard⟩
  have files := counted.files
  have placed := total_insert_fresh (fun _ => 1)
    (⟨path, response.bytes, .resolved response.request⟩ : VirtualFile) absent
  rw [size_eq_total] at files ⊢
  refine Nat.le_trans (Nat.le_of_eq placed) (Nat.le_trans (Nat.add_le_add_right files 1) ?_)
  exact Nat.le_of_eq grown.symm

theorem Counted.madeUnavailable
    (counted : workspace.Counted) (made : MadeUnavailable workspace request reply) :
    reply.1.Counted := by
  cases made with
  | failed fault => exact counted
  | repeated => exact counted
  | inserted unbound room => ?_
  have grown := bindingCount_insert .unavailable unbound
  refine ⟨Nat.le_trans counted.files ?_, ?_, counted.hard⟩
  · exact grown ▸ Nat.le_add_right ..
  · exact grown ▸ counted.room room

theorem provisionStaged_invariant {invariant : ProjectWorkspace → Prop}
    (step : ∀ workspace response, invariant workspace → invariant (workspace.provision response).1)
    (responses : List ResolvedFile) : ∀ staged : ProjectWorkspace, invariant staged →
      invariant (staged.provisionStaged responses).1 := by
  induction responses with
  | nil => exact fun _ holds => holds
  | cons response rest ih => ?_
  intro staged holds
  have stepped := step staged response holds
  unfold provisionStaged
  cases replied : staged.provision response with
  | mk next result => ?_
  rw [replied] at stepped
  cases result with
  | error fault => exact stepped
  | ok outcome => ?_
  have carried := ih next stepped
  dsimp only
  cases finished : next.provisionStaged rest with
  | mk final results => ?_
  rw [finished] at carried
  cases results with
  | error fault => exact carried
  | ok outcomes => exact carried

theorem provisionBatch_invariant {invariant : ProjectWorkspace → Prop}
    (step : ∀ workspace response, invariant workspace → invariant (workspace.provision response).1)
    (responses : List ResolvedFile) (holds : invariant workspace) :
    invariant (workspace.provisionBatch responses).1 := by
  have staged := provisionStaged_invariant step responses workspace holds
  unfold provisionBatch
  cases finished : workspace.provisionStaged responses with
  | mk final results => ?_
  rw [finished] at staged
  cases results with
  | error fault => exact holds
  | ok outcomes => exact staged

structure Preserved (invariant : ProjectWorkspace → Prop) : Prop where
  sameLedger : ∀ {before after}, invariant before → SameLedger before after → invariant after
  registered : ∀ {workspace path bytes reply}, invariant workspace →
    Registered workspace path bytes reply → invariant reply.1
  provisioned : ∀ {workspace response reply}, invariant workspace →
    Provisioned workspace response reply → invariant reply.1
  madeUnavailable : ∀ {workspace request reply}, invariant workspace →
    MadeUnavailable workspace request reply → invariant reply.1

/-- Clearing apart, every command of a workspace is one of these steps. -/
theorem Preserved.apply {invariant : ProjectWorkspace → Prop} (preserved : Preserved invariant)
    {command : WorkspaceCommand} (kept : command ≠ .clear) (holds : invariant workspace) :
    invariant (workspace.apply command).1 := by
  cases command with
  | registerUser path bytes =>
    exact preserved.registered holds (registerUser_registered ..)
  | expect batch => exact preserved.sameLedger holds (expect_sameLedger ..)
  | authorizePrefetchHints requests =>
    exact preserved.sameLedger holds (withLifecycle_sameLedger (authorizeHints_sameBindings ..))
  | authorizeBlockingFile request intent =>
    exact preserved.sameLedger holds (authorizeBlockingFile_sameLedger ..)
  | noteExists request => exact preserved.sameLedger holds (noteExists_sameLedger ..)
  | provision response => exact preserved.provisioned holds (provisionInner_provisioned ..)
  | provisionUnavailable request =>
    exact preserved.madeUnavailable holds (provisionUnavailable_madeUnavailable ..)
  | provisionBatch responses =>
    refine provisionBatch_invariant ?_ responses holds
    intro staged response stagedHolds
    exact preserved.provisioned stagedHolds (provisionInner_provisioned ..)
  | preload response => exact preserved.provisioned holds (provisionInner_provisioned ..)
  | retry => exact preserved.sameLedger holds (retry_sameLedger workspace)
  | cancelOutstandingResources =>
    exact preserved.sameLedger holds (cancelOutstandingResources_sameLedger workspace)
  | clearGeneratedOutputs =>
    exact preserved.sameLedger holds ⟨rfl, rfl, rfl, rfl, rfl, .refl _, fun _ _ absent => absent⟩
  | clear => exact absurd rfl kept

theorem Accounted.preserved : Preserved Accounted where
  sameLedger := Accounted.sameLedger
  registered := Accounted.registered
  provisioned := Accounted.provisioned
  madeUnavailable := Accounted.madeUnavailable

theorem Counted.registered {path : VirtualPath} {bytes : Bytes}
    {reply : Reply ProjectWorkspace UserRegistrationError ProvisionOutcome}
    (counted : workspace.Counted) (registered : Registered workspace path bytes reply) :
    reply.1.Counted := by
  cases registered with
  | failed fault => exact counted
  | replaced outcome checked => exact ⟨counted.files, counted.bindings, counted.hard⟩

theorem Counted.preserved : Preserved Counted where
  sameLedger := Counted.sameLedger
  registered := Counted.registered
  provisioned := Counted.provisioned
  madeUnavailable := Counted.madeUnavailable

theorem Counted.copied {reply : Reply ProjectWorkspace BindingCopyError Unit}
    (counted : workspace.Counted) (sourceCounted : source.Counted)
    (copied : Copied workspace source reply) : reply.1.Counted := by
  cases copied with
  | failed fault => exact counted
  | taken sameLimits _ _ => ?_
  refine ⟨sourceCounted.files, ?_, counted.hard⟩
  dsimp only
  rw [sameLimits]
  exact sourceCounted.bindings

theorem Accounted.clear (accounted : workspace.Accounted) : workspace.clear.Accounted where
  present := nofun
  userTotal := accounted.userTotal
  userWithin := accounted.userWithin
  resolvedTotal := rfl
  resolvedWithin := Nat.zero_le _
  disjoint := fun _ _ => rfl

theorem Counted.clear (counted : workspace.Counted) : workspace.clear.Counted :=
  ⟨Nat.le_refl 0, Nat.zero_le _, counted.hard⟩

theorem new_sound {limits : VfsLimits} (created : ProjectWorkspace.new limits = .ok workspace) :
    workspace.Accounted ∧ workspace.Counted := by
  unfold new at created
  cases valid : limits.validate with
  | error problem =>
    rw [valid] at created
    cases created
  | ok validated => ?_
  obtain ⟨rfl, hard⟩ := VfsLimits.validate_ok valid
  rw [valid] at created
  cases created
  exact
    ⟨{ present := nofun
       userTotal := rfl
       userWithin := Nat.zero_le _
       resolvedTotal := rfl
       resolvedWithin := Nat.zero_le _
       disjoint := fun _ _ => rfl },
      ⟨Nat.le_refl 0, Nat.zero_le _, hard⟩⟩

/-- Every binding of the earlier workspace is still there, with a file that agrees with
the one it named. -/
structure Keeps (agrees : VirtualFile → VirtualFile → Prop) (before after : ProjectWorkspace) :
    Prop where
  admitted : ∀ key path file, before.ledger.lifecycle.admitted key = some path →
    before.storage.resolved.get? path = some file →
    after.ledger.lifecycle.admitted key = some path ∧
      ∃ kept, after.storage.resolved.get? path = some kept ∧ agrees file kept
  unavailable : ∀ key, before.ledger.lifecycle.isUnavailable key = true →
    after.ledger.lifecycle.isUnavailable key = true

section Keeps

variable {agrees : VirtualFile → VirtualFile → Prop}

theorem Keeps.refl (reflexive : ∀ file, agrees file file) (workspace : ProjectWorkspace) :
    Keeps agrees workspace workspace :=
  ⟨fun _ _ file admitted found => ⟨admitted, file, found, reflexive file⟩,
    fun _ unavailable => unavailable⟩

theorem Keeps.trans {middle : ProjectWorkspace}
    (transitive : ∀ first second third, agrees first second → agrees second third →
      agrees first third)
    (first : Keeps agrees before middle) (second : Keeps agrees middle after) :
    Keeps agrees before after := by
  constructor
  · intro key path file admitted found
    obtain ⟨middleAdmitted, carried, middleFound, agreesFirst⟩ :=
      first.admitted key path file admitted found
    obtain ⟨afterAdmitted, kept, afterFound, agreesSecond⟩ :=
      second.admitted key path carried middleAdmitted middleFound
    exact ⟨afterAdmitted, kept, afterFound, transitive _ _ _ agreesFirst agreesSecond⟩
  intro key unavailable
  exact second.unavailable key (first.unavailable key unavailable)

variable (reflexive : ∀ file, agrees file file)

include reflexive

theorem Keeps.sameLedger (same : SameLedger before after) : Keeps agrees before after := by
  constructor
  · intro key path file admitted found
    rw [same.admitted, same.resolved]
    exact ⟨admitted, file, found, reflexive file⟩
  intro key unavailable
  rw [same.isUnavailable]
  exact unavailable

theorem Keeps.insert {request : FileRequestKey} {state : AdmissionState VirtualPath}
    {known : OrderedMap FileRequestKey Unit}
    (unbound : workspace.ledger.lifecycle.bound request = none) :
    Keeps agrees workspace
      { workspace with
        ledger := { workspace.ledger with
          lifecycle := ⟨workspace.ledger.lifecycle.states.insert request state⟩
          knownExists := known } } := by
  have carried : ∀ key binding, workspace.ledger.lifecycle.bound key = some binding →
      (⟨workspace.ledger.lifecycle.states.insert request state⟩ :
        ResourceLifecycle FileRequestKey VirtualPath).bound key = some binding := by
    intro key binding bound
    have apart : request ≠ key := by
      intro same
      rw [same, bound] at unbound
      cases unbound
    rw [bound_insert_other _ apart]
    exact bound
  constructor
  · intro key path file admitted found
    rw [admitted_iff] at admitted ⊢
    exact ⟨carried key _ admitted, file, found, reflexive file⟩
  intro key unavailable
  rw [isUnavailable_iff] at unavailable ⊢
  exact carried key _ unavailable

theorem Keeps.withResolved {request : FileRequestKey} {path : VirtualPath} {bytes : Bytes}
    (absent : workspace.storage.resolved.get? path = none) :
    Keeps agrees workspace (workspace.withResolved request path bytes) := by
  constructor
  · intro key other file admitted found
    have apart : path ≠ other := by
      intro same
      rw [same, found] at absent
      cases absent
    exact ⟨admitted, file, (get?_insert_other _ _ apart).trans found, reflexive file⟩
  · exact fun _ unavailable => unavailable

theorem Keeps.preserved
    (transitive : ∀ first second third, agrees first second → agrees second third →
      agrees first third) (origin : ProjectWorkspace) :
    Preserved (Keeps agrees origin) where
  sameLedger keeps same := keeps.trans transitive (.sameLedger reflexive same)
  registered keeps registered := by
    cases registered with
    | failed fault => exact keeps
    | replaced outcome checked => exact ⟨keeps.admitted, keeps.unavailable⟩
  provisioned keeps provisioned := by
    cases provisioned with
    | failed fault => exact keeps
    | repeated _ _ =>
      exact keeps.trans transitive (.sameLedger reflexive (markReady_sameLedger ..))
    | shared _ unbound _ _ _ => exact keeps.trans transitive (.insert reflexive unbound)
    | registered _ unbound _ absent _ =>
      refine keeps.trans transitive ?_
      exact (Keeps.withResolved reflexive absent).trans transitive (.insert reflexive unbound)
  madeUnavailable keeps made := by
    cases made with
    | failed fault => exact keeps
    | repeated => exact keeps
    | inserted unbound _ => exact keeps.trans transitive (.insert reflexive unbound)

omit reflexive in
/-- A copy keeps a binding as far as the compared content identities tell. -/
theorem Keeps.copied {reply : Reply ProjectWorkspace BindingCopyError Unit}
    (reflexive : ∀ file, agrees file file)
    (compared : ∀ path old new, workspace.storage.resolved.get? path = some old →
      source.storage.resolved.get? path = some new → new.contentId = old.contentId → agrees old new)
    (copied : Copied workspace source reply) : Keeps agrees workspace reply.1 := by
  cases copied with
  | failed fault => exact .refl reflexive workspace
  | taken _ checkedAdmitted checkedUnavailable => ?_
  constructor
  · intro key path file admitted found
    obtain ⟨sourceAdmitted, old, new, foundOld, foundNew, sameContent⟩ :=
      checkPriorAdmitted_ok checkedAdmitted (mem_admittedEntries.mpr admitted)
    rw [found] at foundOld
    cases foundOld
    exact ⟨sourceAdmitted, new, foundNew, compared path file new found foundNew sameContent⟩
  intro key unavailable
  exact checkPriorUnavailable_ok checkedUnavailable (mem_unavailableKeys.mpr unavailable)

end Keeps

end ProjectWorkspace

end Umber.Vfs
