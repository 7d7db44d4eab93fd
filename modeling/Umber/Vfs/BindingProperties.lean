import Umber.Vfs.ProjectProperties

/-! Resource bindings over whole runs of a project. -/

set_option autoImplicit false

namespace Umber.Vfs

open ProjectWorkspace

variable {ε α : Type} {wrap : ε → CommandError} {result : Except (Fault ε) α}
  {fault : Fault CommandError}

theorem answer_error (failed : answer wrap result = .error fault) :
    ∃ inner, result = .error inner := by
  cases result with
  | ok value => cases failed
  | error inner => exact ⟨inner, rfl⟩

theorem answer_ok (succeeded : answer wrap result = .ok ()) : ∃ value, result = .ok value := by
  cases result with
  | ok value => exact ⟨value, rfl⟩
  | error inner => cases inner <;> cases succeeded

variable {workspace : ProjectWorkspace}

theorem ProjectWorkspace.provisionInner_failed {response : ResolvedFile} {mustBeExpected : Bool}
    {fault : Fault ProvisionError}
    (failed : (workspace.provisionInner response mustBeExpected).2 = .error fault) :
    (workspace.provisionInner response mustBeExpected).1 = workspace := by
  have provisioned := provisionInner_provisioned workspace response mustBeExpected
  generalize workspace.provisionInner response mustBeExpected = reply at provisioned failed ⊢
  cases provisioned with
  | failed inner => rfl
  | repeated _ _ => cases failed
  | shared _ _ _ _ _ => cases failed
  | registered _ _ _ _ _ => cases failed

theorem ProjectWorkspace.apply_failed {command : WorkspaceCommand}
    (failed : (workspace.apply command).2 = .error fault) :
    (workspace.apply command).1 = workspace := by
  cases command with
  | registerUser path bytes =>
    obtain ⟨inner, refused⟩ := answer_error failed
    have registered := registerUser_registered workspace path bytes
    simp only [ProjectWorkspace.apply]
    generalize workspace.registerUser path bytes = reply at registered refused ⊢
    cases registered with
    | failed _ => rfl
    | replaced _ _ => cases refused
  | authorizeBlockingFile request intent =>
    obtain ⟨inner, refused⟩ := answer_error failed
    simp only [ProjectWorkspace.apply]
    unfold authorizeBlockingFile at refused ⊢
    split at refused
    next => cases refused
    next nonblocking => rw [if_neg nonblocking]
  | provision response =>
    obtain ⟨inner, refused⟩ := answer_error failed
    exact provisionInner_failed refused
  | preload response =>
    obtain ⟨inner, refused⟩ := answer_error failed
    exact provisionInner_failed refused
  | provisionUnavailable request =>
    obtain ⟨inner, refused⟩ := answer_error failed
    have made := provisionUnavailable_madeUnavailable workspace request
    simp only [ProjectWorkspace.apply]
    generalize workspace.provisionUnavailable request = reply at made refused ⊢
    cases made with
    | failed _ => rfl
    | repeated => rfl
    | inserted _ _ => cases refused
  | provisionBatch responses =>
    obtain ⟨inner, refused⟩ := answer_error failed
    simp only [ProjectWorkspace.apply]
    unfold provisionBatch at refused ⊢
    split at refused
    next staged problem finished => rfl
    next => cases refused
  | retry =>
    obtain ⟨inner, refused⟩ := answer_error failed
    simp only [ProjectWorkspace.apply]
    unfold ProjectWorkspace.retry at refused ⊢
    dsimp only at refused ⊢
    split at refused
    next stuck => rw [if_pos stuck]
    next => cases refused
  | expect batch => cases failed
  | authorizePrefetchHints requests => cases failed
  | noteExists request => cases failed
  | cancelOutstandingResources => cases failed
  | clearGeneratedOutputs => cases failed
  | clear => cases failed

theorem GeneratedTransaction.write_failed {transaction : GeneratedTransaction}
    {path : VirtualPath} {bytes : Bytes} {fault : Fault TransactionError}
    (failed : (transaction.write path bytes).2 = .error fault) :
    (transaction.write path bytes).1 = transaction := by
  unfold write at failed ⊢
  split at failed
  next job =>
    rw [if_pos job]
    split at failed
    next => rfl
    next => cases failed
  next outside => rw [if_neg outside]

namespace Project

variable {project next : Project} {command : Command} {result : Answer}

/-- What a step of a project does to its workspace: nothing, one command, or the
publication of generated files. -/
theorem run_workspace (ran : project.run command = some (next, result)) :
    next.workspace = project.workspace ∨
    (∃ inner, command = .workspace inner ∧ next.workspace = (project.workspace.apply inner).1) ∨
    (∃ pending, command = .accept ∧
      next.workspace = { project.workspace with
        storage := { project.workspace.storage with acceptedGenerated := pending } }) := by
  unfold run at ran
  cases command with
  | workspace inner =>
    dsimp only at ran
    split at ran
    · cases ran
    cases ran
    exact .inr (.inl ⟨inner, rfl, rfl⟩)
  | beginGenerated =>
    dsimp only at ran
    split at ran
    · cases ran
    cases ran
    exact .inl rfl
  | write path bytes =>
    dsimp only at ran
    split at ran
    · cases ran
    cases ran
    exact .inl rfl
  | accept =>
    dsimp only at ran
    split at ran
    · cases ran
    next transaction _ =>
      cases ran
      exact .inr (.inr ⟨transaction.pending, rfl, rfl⟩)
  | discard => ?_
  dsimp only at ran
  split at ran
  · cases ran
  cases ran
  exact .inl rfl

variable {fault : Fault CommandError}

theorem run_failed (ran : project.run command = some (next, .error fault)) : next = project := by
  cases project with
  | mk workspace transaction => ?_
  unfold run at ran
  cases command with
  | workspace inner =>
    cases transaction with
    | some held => cases ran
    | none => ?_
    have replied := Option.some.inj ran
    have failed : (workspace.apply inner).2 = .error fault := congrArg Prod.snd replied
    have reached : (⟨(workspace.apply inner).1, none⟩ : Project) = next :=
      congrArg Prod.fst replied
    rw [← reached, apply_failed failed]
  | beginGenerated =>
    cases transaction with
    | some held => cases ran
    | none => cases ran
  | write path bytes =>
    cases transaction with
    | none => cases ran
    | some held => ?_
    have replied := Option.some.inj ran
    obtain ⟨inner, failed⟩ := answer_error (congrArg Prod.snd replied)
    have reached : (⟨workspace, some (held.write path bytes).1⟩ : Project) = next :=
      congrArg Prod.fst replied
    rw [← reached, GeneratedTransaction.write_failed failed]
  | accept =>
    cases transaction with
    | none => cases ran
    | some held => cases ran
  | discard => ?_
  cases transaction with
  | none => cases ran
  | some held => cases ran

variable {source : ProjectWorkspace}

/-- A copy is a copy of the workspace, and its answer is the copy's. -/
theorem copyFrom_cases (ran : project.copyFrom source = some (next, result)) :
    next = { project with workspace := (project.workspace.copyResolvedBindingsFrom source).1 } ∧
      result = answer .copy (project.workspace.copyResolvedBindingsFrom source).2 := by
  unfold copyFrom at ran
  split at ran
  · cases ran
  cases ran
  exact ⟨rfl, rfl⟩

theorem copyFrom_failed (ran : project.copyFrom source = some (next, .error fault)) :
    next = project := by
  obtain ⟨rfl, replied⟩ := copyFrom_cases ran
  obtain ⟨inner, failed⟩ := answer_error replied.symm
  have copied := copyResolvedBindingsFrom_copied project.workspace source
  generalize project.workspace.copyResolvedBindingsFrom source = reply at copied failed ⊢
  cases copied with
  | failed _ => rfl
  | taken _ _ _ => cases failed

end Project

theorem publish_sameLedger (workspace : ProjectWorkspace) (pending : FileMap) : SameLedger workspace
      { workspace with storage := { workspace.storage with acceptedGenerated := pending } } :=
  ⟨rfl, rfl, rfl, rfl, rfl, .refl _, fun _ _ absent => absent⟩

/-- A preserved invariant survives every step but a clearing one. -/
theorem ProjectWorkspace.Preserved.run {invariant : ProjectWorkspace → Prop}
    (preserved : Preserved invariant) {project next : Project} {command : Command}
    {result : Answer} (kept : command ≠ .workspace .clear)
    (ran : project.run command = some (next, result)) (holds : invariant project.workspace) :
    invariant next.workspace := by
  rcases Project.run_workspace ran with same | ⟨inner, rfl, applied⟩ | ⟨pending, rfl, published⟩
  · exact same ▸ holds
  · rw [applied]
    apply preserved.apply _ holds
    intro cleared
    exact kept (congrArg Command.workspace cleared)
  rw [published]
  exact preserved.sameLedger holds (publish_sameLedger ..)

variable {project : Project}

theorem run_clear {next : Project} {result : Answer}
    (ran : project.run (.workspace .clear) = some (next, result)) :
    next.workspace = project.workspace.clear := by
  rcases Project.run_workspace ran with same | ⟨inner, equal, applied⟩ | ⟨pending, equal, _⟩
  · unfold Project.run at ran
    dsimp only at ran
    split at ran
    · cases ran
    cases ran
    rfl
  · cases equal
    exact applied
  · cases equal

theorem Reachable.sound {supplied : List Supply} (reachable : Reachable project supplied) :
    project.workspace.Accounted ∧ project.workspace.Counted := by
  induction reachable with
  | new created => exact new_sound created
  | @run project next supplied command result _ ran ih =>
    obtain ⟨accounted, counted⟩ := ih
    by_cases cleared : command = .workspace .clear
    · subst cleared
      rw [run_clear ran]
      exact ⟨accounted.clear, counted.clear⟩
    exact ⟨Accounted.preserved.run cleared ran accounted, Counted.preserved.run cleared ran counted⟩
  | @copy project source next supplied brought _ _ ran ih sourceIH =>
    obtain ⟨rfl, _⟩ := Project.copyFrom_cases ran
    have copied := copyResolvedBindingsFrom_copied project.workspace source.workspace
    exact ⟨ih.1.copied sourceIH.1 copied, ih.2.copied sourceIH.2 copied⟩
  | copyFailed _ _ ran ih _ =>
    rw [Project.copyFrom_failed ran]
    exact ih

theorem Continues.keeps {allowed : ProjectWorkspace → ProjectWorkspace → Prop}
    {agrees : VirtualFile → VirtualFile → Prop} (reflexive : ∀ file, agrees file file)
    (transitive : ∀ first second third, agrees first second → agrees second third →
      agrees first third)
    (compared : ∀ {workspace source}, allowed workspace source → ∀ path old new,
      workspace.storage.resolved.get? path = some old →
      source.storage.resolved.get? path = some new → new.contentId = old.contentId → agrees old new)
    {project later : Project} (continues : Continues allowed project later) :
    Keeps agrees project.workspace later.workspace := by
  induction continues with
  | refl => exact .refl reflexive project.workspace
  | run _ kept ran ih =>
    exact (Keeps.preserved reflexive transitive _).run kept ran ih
  | @copy middle source next brought result _ _ permitted ran ih => ?_
  obtain ⟨rfl, _⟩ := Project.copyFrom_cases ran
  exact ih.trans transitive
    (.copied reflexive (compared permitted) (copyResolvedBindingsFrom_copied ..))

/-- Files of a shared path with the same content identity have the same bytes. -/
def BytesAgree (workspace source : ProjectWorkspace) : Prop :=
  ∀ path old new, workspace.storage.resolved.get? path = some old →
    source.storage.resolved.get? path = some new → new.contentId = old.contentId →
    new.bytes = old.bytes

/-- Reachable workspaces are accounted for, failures change nothing, and bindings are
immutable until a clear: in path, absence and content identity whatever is copied, and
in their bytes where copied workspaces hold no other bytes under a shared identity. -/
theorem bindings_immutable_and_accounted {project : Project} {supplied : List Supply}
    (reachable : Reachable project supplied) : project.workspace.Accounted ∧
      (∀ command next fault, project.run command = some (next, .error fault) → next = project) ∧
      (∀ source brought next fault, Reachable source brought →
        project.copyFrom source.workspace = some (next, .error fault) → next = project) ∧
      (∀ later, Continues (fun _ _ => True) project later →
        Keeps (fun old kept => kept.contentId = old.contentId) project.workspace later.workspace) ∧
      (∀ later, Continues BytesAgree project later →
        Keeps (fun old kept => kept.bytes = old.bytes) project.workspace later.workspace) := by
  refine ⟨reachable.sound.1, ?_, ?_, ?_, ?_⟩
  · exact fun _ _ _ ran => Project.run_failed ran
  · exact fun _ _ _ _ _ ran => Project.copyFrom_failed ran
  · intro later continues
    exact @Continues.keeps _ (fun old kept => kept.contentId = old.contentId) (fun _ => rfl)
      (fun _ _ _ first second => second.trans first) (fun _ _ _ _ _ _ same => same) _ _ continues
  intro later continues
  exact @Continues.keeps _ (fun old kept => kept.bytes = old.bytes) (fun _ => rfl)
    (fun _ _ _ first second => second.trans first) (fun permitted => permitted) _ _ continues

def plainStyle : FileRequestKey :=
  ⟨.bibliography, .bibStyle, "plain.bst".toList, rfl⟩

def plainStyleFile (bytes : Bytes) : ResolvedFile :=
  { request := plainStyle
    virtualPath := "/texlive/plain.bst".toList
    bytes := bytes
    expectedDigest := none }

def abbrvStyle : FileRequestKey :=
  ⟨.bibliography, .bibStyle, "abbrv.bst".toList, rfl⟩

def abbrvStyleFile (bytes : Bytes) : ResolvedFile :=
  { request := abbrvStyle
    virtualPath := "/texlive/abbrv.bst".toList
    bytes := bytes
    expectedDigest := none }

def emptyWorkspace : ProjectWorkspace :=
  { limits := .default, storage := .empty, ledger := .empty }

theorem emptyWorkspace_created : ProjectWorkspace.new .default = .ok emptyWorkspace := rfl

def preloadedProject (bytes : Bytes) : Project :=
  { workspace := (emptyWorkspace.preload (plainStyleFile bytes)).1, transaction := none }

theorem preloadedProject_reachable (bytes : Bytes) :
    ∃ supplied, Reachable (preloadedProject bytes) supplied :=
  ⟨_, @Reachable.run _ _ _ (.workspace (.preload (plainStyleFile bytes))) _
    (.new emptyWorkspace_created) rfl⟩

/-- A preloaded style: neither other bytes for its key nor a workspace that holds
other bytes change anything, and it stays through the preload of a second style. -/
theorem bindings_immutable_and_accounted_preloaded :
    ∃ later, (preloadedProject [1, 2]).run (.workspace (.preload (abbrvStyleFile [3]))) =
        some (later, .ok ()) ∧
      (∃ fault, later.run (.workspace (.preload (plainStyleFile [4]))) =
        some (later, .error fault)) ∧
      (∃ fault, later.copyFrom (preloadedProject [4]).workspace = some (later, .error fault)) ∧
      later.workspace.Accounted ∧
      ∃ kept, later.workspace.storage.resolved.get? ⟨"/texlive/plain.bst".toList⟩ = some kept ∧
        kept.bytes = [1, 2] := by
  obtain ⟨supplied, reachable⟩ := preloadedProject_reachable [1, 2]
  obtain ⟨brought, sourceReachable⟩ := preloadedProject_reachable [4]
  obtain ⟨later, ran⟩ : ∃ later, (preloadedProject [1, 2]).run
      (.workspace (.preload (abbrvStyleFile [3]))) = some (later, .ok ()) := ⟨_, rfl⟩
  obtain ⟨accounted, failures, copies, _, _⟩ :=
    bindings_immutable_and_accounted (.run reachable ran)
  obtain ⟨_, _, _, _, stays⟩ := bindings_immutable_and_accounted reachable
  refine ⟨later, ran, ?_, ?_, accounted, ?_⟩
  · obtain ⟨next, fault, refused⟩ : ∃ next fault, later.run
        (.workspace (.preload (plainStyleFile [4]))) = some (next, .error fault) := by
      cases ran
      exact ⟨_, _, rfl⟩
    obtain rfl := failures _ _ _ refused
    exact ⟨fault, refused⟩
  · obtain ⟨next, fault, refused⟩ : ∃ next fault,
        later.copyFrom (preloadedProject [4]).workspace = some (next, .error fault) := by
      cases ran
      exact ⟨_, _, rfl⟩
    obtain rfl := copies _ _ _ _ sourceReachable refused
    exact ⟨fault, refused⟩
  have kept := (stays later (.run (.refl _) (by simp) ran)).admitted plainStyle
    ⟨"/texlive/plain.bst".toList⟩ _ (by decide +kernel) rfl
  exact kept.2

/-- Forty bytes, and forty others with the same content identity: the first and the
fifth word of a file meet in one lane of the hash. -/
def zeroBytes : Bytes :=
  List.replicate 40 0

def collidingBytes : Bytes :=
  [1] ++ List.replicate 32 0 ++ [192, 217, 111, 199, 243, 217, 73]

/-- A copied workspace replaces the bytes of an admitted key by others of the same
content identity. -/
theorem copy_rebinds_colliding_bytes :
    ∃ (project later : Project) (supplied : List Supply) (old new : VirtualFile),
      Reachable project supplied ∧ Continues (fun _ _ => True) project later ∧
        project.workspace.get plainStyle = some old ∧
        later.workspace.get plainStyle = some new ∧ new.bytes ≠ old.bytes := by
  obtain ⟨supplied, reachable⟩ := preloadedProject_reachable zeroBytes
  obtain ⟨brought, sourceReachable⟩ := preloadedProject_reachable collidingBytes
  refine ⟨preloadedProject zeroBytes, _, supplied,
    ⟨⟨"/texlive/plain.bst".toList⟩, zeroBytes, .resolved plainStyle⟩,
    ⟨⟨"/texlive/plain.bst".toList⟩, collidingBytes, .resolved plainStyle⟩,
    reachable, .copy (.refl _) sourceReachable trivial rfl, ?_, ?_, ?_⟩
  · decide +kernel
  · decide +kernel
  · decide +kernel

end Umber.Vfs
