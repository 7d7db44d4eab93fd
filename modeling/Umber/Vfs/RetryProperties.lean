import Mathlib.Data.List.Basic
import Umber.Vfs.BindingProperties

/-! What a retry reports, over whole runs of a workspace. -/

set_option autoImplicit false

namespace Umber.Vfs

open ProjectWorkspace

def AdmissionState.demanded {ν : Type} : AdmissionState ν → Bool
  | .outstanding intent => intent.isBlocking
  | .admitted _ | .unavailable => true

namespace ResourceLifecycle

variable {κ ν : Type} [DecidableEq κ] [Ord κ] {lifecycle : ResourceLifecycle κ ν} {key other : κ}

def Demanded (lifecycle : ResourceLifecycle κ ν) (key : κ) : Prop :=
  ∃ state, lifecycle.states.get? key = some state ∧ state.demanded = true

def blockingKeys (lifecycle : ResourceLifecycle κ ν) : List κ :=
  (lifecycle.outstanding.filter fun entry => entry.2.isBlocking).map Prod.fst

omit [Ord κ] in
theorem mem_outstanding {intent : RequestIntent} : (key, intent) ∈ lifecycle.outstanding ↔
    lifecycle.states.get? key = some (.outstanding intent) := by
  unfold outstanding
  rw [List.mem_filterMap, OrderedMap.get?_eq_some_iff]
  constructor
  · rintro ⟨⟨stored, state⟩, member, mapped⟩
    cases state with
    | admitted value => cases mapped
    | unavailable => cases mapped
    | outstanding held =>
      cases mapped
      exact member
  intro member
  exact ⟨_, member, rfl⟩

omit [Ord κ] in
theorem mem_blockingKeys : key ∈ lifecycle.blockingKeys ↔
    ∃ intent, lifecycle.states.get? key = some (.outstanding intent) ∧
      intent.isBlocking = true := by
  unfold blockingKeys
  rw [List.mem_map]
  constructor
  · rintro ⟨⟨stored, intent⟩, member, rfl⟩
    obtain ⟨listed, blocking⟩ := List.mem_filter.mp member
    exact ⟨intent, mem_outstanding.mp listed, blocking⟩
  rintro ⟨intent, found, blocking⟩
  exact ⟨(key, intent), List.mem_filter.mpr ⟨mem_outstanding.mpr found, blocking⟩, rfl⟩

omit [DecidableEq κ] [Ord κ] in
theorem keys_filterMap {α β : Type} {select : κ × α → Option (κ × β)}
    (keeps : ∀ entry selected, select entry = some selected → selected.1 = entry.1)
    (entries : List (κ × α)) :
    ((entries.filterMap select).map Prod.fst).Sublist (entries.map Prod.fst) := by
  induction entries with
  | nil => exact .slnil
  | cons entry rest ih => ?_
  rw [List.filterMap_cons]
  cases chosen : select entry with
  | none => exact ih.cons entry.1
  | some selected =>
    rw [List.map_cons, List.map_cons, keeps entry selected chosen]
    exact ih.cons_cons entry.1

omit [DecidableEq κ] [Ord κ] in
theorem blockingKeys_nodup (lifecycle : ResourceLifecycle κ ν) : lifecycle.blockingKeys.Nodup := by
  unfold blockingKeys outstanding
  refine lifecycle.states.distinct.sublist ((List.filter_sublist.map _).trans ?_)
  apply keys_filterMap
  rintro ⟨key, state⟩ selected chosen
  cases state with
  | outstanding intent =>
    cases chosen
    rfl
  | admitted value => cases chosen
  | unavailable => cases chosen

omit [Ord κ] in
theorem isBound_iff_get? : lifecycle.isBound key = true ↔
    ∃ state, lifecycle.states.get? key = some state ∧ state.isOutstanding = false := by
  unfold isBound
  cases lifecycle.states.get? key with
  | none => simp
  | some state => cases state <;> simp [AdmissionState.isOutstanding]

omit [Ord κ] in
theorem not_bound_of_blocking (blocking : key ∈ lifecycle.blockingKeys) :
    lifecycle.isBound key = false := by
  obtain ⟨intent, found, _⟩ := mem_blockingKeys.mp blocking
  unfold isBound
  rw [found]

omit [Ord κ] in
theorem demanded_iff : lifecycle.Demanded key ↔
    key ∈ lifecycle.blockingKeys ∨ lifecycle.isBound key = true := by
  rw [mem_blockingKeys, isBound_iff_get?]
  constructor
  · rintro ⟨state, found, demanded⟩
    cases state with
    | outstanding intent => exact .inl ⟨intent, found, demanded⟩
    | admitted value => exact .inr ⟨_, found, rfl⟩
    | unavailable => exact .inr ⟨_, found, rfl⟩
  rintro (⟨intent, found, blocking⟩ | ⟨state, found, settled⟩)
  · exact ⟨_, found, blocking⟩
  refine ⟨state, found, ?_⟩
  cases state with
  | outstanding intent => cases settled
  | admitted value => rfl
  | unavailable => rfl

/-- An entry is overwritten without a demand being dropped. -/
theorem Demanded.insert {state : AdmissionState ν} (demanded : lifecycle.Demanded key)
    (raised : other = key → state.demanded = true) :
    (⟨lifecycle.states.insert other state⟩ : ResourceLifecycle κ ν).Demanded key := by
  by_cases same : other = key
  · subst same
    exact ⟨state, OrderedMap.get?_insert_self .., raised rfl⟩
  obtain ⟨held, found, holds⟩ := demanded
  exact ⟨held, (OrderedMap.get?_insert_other _ _ same).trans found, holds⟩

omit [DecidableEq κ] [Ord κ] in
theorem isBlocking_of_lt {existing intent : RequestIntent} (lower : compare existing intent = .lt) :
    intent.isBlocking = true := by
  cases existing <;> cases intent <;> first | rfl | cases lower

variable (demanded : lifecycle.Demanded key)
include demanded

theorem Demanded.promote {intent : RequestIntent} :
    (lifecycle.promote intent other).Demanded key := by
  unfold ResourceLifecycle.promote
  split
  next absent =>
    apply demanded.insert
    rintro rfl
    obtain ⟨state, found, _⟩ := demanded
    rw [absent] at found
    cases found
  next existing held =>
    split
    next lower => exact demanded.insert fun _ => isBlocking_of_lt lower
    next => exact demanded
  next => exact demanded
  next => exact demanded

theorem Demanded.authorizeHint : (lifecycle.authorizeHint other).Demanded key := by
  unfold ResourceLifecycle.authorizeHint
  split
  next absent =>
    apply demanded.insert
    rintro rfl
    obtain ⟨state, found, _⟩ := demanded
    rw [absent] at found
    cases found
  next => exact demanded

theorem Demanded.authorizeHints {keys : List κ} : (lifecycle.authorizeHints keys).Demanded key := by
  unfold ResourceLifecycle.authorizeHints
  induction keys generalizing lifecycle with
  | nil => exact demanded
  | cons head rest ih => exact ih demanded.authorizeHint

end ResourceLifecycle

namespace ProjectWorkspace

variable {workspace : ProjectWorkspace} {key : FileRequestKey}

def blockingKeys (workspace : ProjectWorkspace) : List FileRequestKey :=
  workspace.ledger.lifecycle.blockingKeys

theorem blockingCount_eq (workspace : ProjectWorkspace) :
    workspace.ledger.blockingCount = workspace.blockingKeys.length :=
  (List.length_map _).symm

structure Retains (before after : ProjectWorkspace) : Prop where
  demanded : ∀ key, before.ledger.lifecycle.Demanded key → after.ledger.lifecycle.Demanded key
  required : after.ledger.requiredAtBatchStart = before.ledger.requiredAtBatchStart

theorem Retains.refl (workspace : ProjectWorkspace) : Retains workspace workspace :=
  ⟨fun _ demanded => demanded, rfl⟩

theorem Retains.trans {before middle after : ProjectWorkspace} (first : Retains before middle)
    (second : Retains middle after) : Retains before after :=
  ⟨fun key demanded => second.demanded key (first.demanded key demanded),
    second.required.trans first.required⟩

theorem provision_retains (workspace : ProjectWorkspace) (response : ResolvedFile)
    (mustBeExpected : Bool) :
    Retains workspace (workspace.provisionInner response mustBeExpected).1 := by
  have provisioned := provisionInner_provisioned workspace response mustBeExpected
  generalize workspace.provisionInner response mustBeExpected = reply at provisioned ⊢
  cases provisioned with
  | failed fault => exact .refl workspace
  | repeated _ _ => exact ⟨fun _ demanded => demanded, rfl⟩
  | shared _ _ _ _ _ => exact ⟨fun _ demanded => demanded.insert fun _ => rfl, rfl⟩
  | registered _ _ _ _ _ => exact ⟨fun _ demanded => demanded.insert fun _ => rfl, rfl⟩

theorem provisionUnavailable_retains (workspace : ProjectWorkspace) (request : FileRequestKey) :
    Retains workspace (workspace.provisionUnavailable request).1 := by
  have made := provisionUnavailable_madeUnavailable workspace request
  generalize workspace.provisionUnavailable request = reply at made ⊢
  cases made with
  | failed fault => exact .refl workspace
  | repeated => exact .refl workspace
  | inserted _ _ => exact ⟨fun _ demanded => demanded.insert fun _ => rfl, rfl⟩

theorem provisionBatch_retains (workspace : ProjectWorkspace) (responses : List ResolvedFile) :
    Retains workspace (workspace.provisionBatch responses).1 :=
  provisionBatch_invariant
    (fun middle response kept => kept.trans (provision_retains middle response true)) responses
    (.refl workspace)

theorem authorizeBlockingFile_retains (workspace : ProjectWorkspace) (request : FileRequestKey)
    (intent : RequestIntent) : Retains workspace (workspace.authorizeBlockingFile request intent).1 := by
  unfold authorizeBlockingFile
  split
  · exact ⟨fun _ demanded => demanded.promote, rfl⟩
  · exact .refl workspace

theorem registerUser_retains (workspace : ProjectWorkspace) (path : VirtualPath) (bytes : Bytes) :
    Retains workspace (workspace.registerUser path bytes).1 := by
  have registered := registerUser_registered workspace path bytes
  generalize workspace.registerUser path bytes = reply at registered ⊢
  cases registered with
  | failed fault => exact .refl workspace
  | replaced _ _ => exact ⟨fun _ demanded => demanded, rfl⟩

theorem noteExists_retains (workspace : ProjectWorkspace) (request : FileRequestKey) :
    Retains workspace (workspace.noteExists request) := by
  unfold noteExists ResourceLedger.noteExists
  split
  · exact .refl workspace
  · exact ⟨fun _ demanded => demanded, rfl⟩

inductive Opened : ProjectWorkspace → Prop where
  | new {limits : VfsLimits} {workspace : ProjectWorkspace} :
      ProjectWorkspace.new limits = .ok workspace → Opened workspace
  | expect (workspace : ProjectWorkspace) (batch : FileRequestBatch) :
      Opened (workspace.expect batch)
  | retry {workspace next : ProjectWorkspace} : workspace.retry = (next, .ok ()) → Opened next
  | clear (workspace : ProjectWorkspace) : Opened workspace.clear

theorem Opened.required (opened : Opened workspace) :
    workspace.ledger.requiredAtBatchStart = workspace.blockingKeys.length := by
  rw [← blockingCount_eq]
  cases opened with
  | @new limits _ created =>
    unfold ProjectWorkspace.new at created
    split at created
    · cases created
    cases created
    rfl
  | expect earlier batch => rfl
  | @retry earlier _ retried =>
    unfold ProjectWorkspace.retry at retried
    dsimp only at retried
    split at retried
    · cases retried
    cases retried
    rfl
  | clear earlier => rfl

end ProjectWorkspace

/-- A workspace with the blocking requests of its last `expect` or successful `retry`,
and whether outstanding requests were cancelled since. -/
structure Attempt where
  workspace : ProjectWorkspace
  baseline : List FileRequestKey
  cancelled : Bool

namespace Attempt

def opened (workspace : ProjectWorkspace) : Attempt :=
  ⟨workspace, workspace.blockingKeys, false⟩

def step (attempt : Attempt) (command : WorkspaceCommand) : Attempt :=
  let reply := attempt.workspace.apply command
  match command, reply.2 with
  | .expect _, _ => opened reply.1
  | .retry, .ok () => opened reply.1
  | .cancelOutstandingResources, _ => { attempt with workspace := reply.1, cancelled := true }
  | _, _ => { attempt with workspace := reply.1 }

def run (attempt : Attempt) (commands : List WorkspaceCommand) : Attempt :=
  commands.foldl step attempt

def isBound (attempt : Attempt) (key : FileRequestKey) : Bool :=
  attempt.workspace.ledger.lifecycle.isBound key

def settled (attempt : Attempt) : List FileRequestKey :=
  attempt.baseline.filter attempt.isBound

def added (attempt : Attempt) : List FileRequestKey :=
  attempt.workspace.blockingKeys.filter fun key => decide (key ∉ attempt.baseline)

def reportsNoProgress (attempt : Attempt) : Prop :=
  attempt.workspace.retry.2 = .error (.error .noProgress)

/-- Blocking requests are outstanding, and none of the baseline has been bound since. -/
def Stalled (attempt : Attempt) : Prop :=
  attempt.workspace.blockingKeys ≠ [] ∧ ∀ key ∈ attempt.baseline, attempt.isBound key = false

/-- The counts of blocking requests tell whether the baseline has moved. -/
def Telling (attempt : Attempt) : Prop :=
  attempt.workspace.blockingKeys = [] ∨
    (attempt.cancelled = false ∧ (attempt.added.length = attempt.settled.length ↔
      attempt.settled = [])) ∨
    (attempt.cancelled = true ∧ attempt.settled ≠ [])

structure Tracked (attempt : Attempt) : Prop where
  distinct : attempt.baseline.Nodup
  counted : attempt.cancelled = false →
    attempt.workspace.ledger.requiredAtBatchStart = attempt.baseline.length ∧
      ∀ key ∈ attempt.baseline, attempt.workspace.ledger.lifecycle.Demanded key
  dropped : attempt.cancelled = true → attempt.workspace.ledger.requiredAtBatchStart = 0

variable {attempt : Attempt}

theorem tracked_opened {workspace : ProjectWorkspace}
    (required : workspace.ledger.requiredAtBatchStart = workspace.blockingKeys.length) :
    (opened workspace).Tracked where
  distinct := ResourceLifecycle.blockingKeys_nodup _
  counted := by
    intro _
    refine ⟨required, ?_⟩
    intro key blocking
    exact ResourceLifecycle.demanded_iff.mpr (.inl blocking)
  dropped := by
    intro cancelled
    cases cancelled

theorem Tracked.retained (tracked : attempt.Tracked) {workspace : ProjectWorkspace}
    (retains : attempt.workspace.Retains workspace) :
    ({ attempt with workspace := workspace } : Attempt).Tracked where
  distinct := tracked.distinct
  counted := by
    intro kept
    obtain ⟨required, demanded⟩ := tracked.counted kept
    exact ⟨retains.required.trans required,
      fun key member => retains.demanded key (demanded key member)⟩
  dropped := fun cancelled => retains.required.trans (tracked.dropped cancelled)

theorem step_retry (attempt : Attempt) :
    (attempt.reportsNoProgress ∧ attempt.step .retry = attempt) ∨
      (∃ next, attempt.workspace.retry = (next, .ok ()) ∧ attempt.step .retry = opened next) := by
  cases attempt with
  | mk workspace baseline cancelled => ?_
  by_cases stuck : workspace.ledger.blockingCount = workspace.ledger.requiredAtBatchStart ∧
      workspace.ledger.blockingCount ≠ 0
  · have refused : workspace.retry = (workspace, .error (.error .noProgress)) := if_pos stuck
    refine .inl ⟨congrArg Prod.snd refused, ?_⟩
    unfold Attempt.step ProjectWorkspace.apply
    dsimp only
    rw [refused]
    rfl
  have granted : workspace.retry = (_, .ok ()) := if_neg stuck
  refine .inr ⟨_, granted, ?_⟩
  unfold Attempt.step ProjectWorkspace.apply
  dsimp only
  rw [granted]
  rfl

section

variable (tracked : attempt.Tracked)
include tracked

theorem Tracked.retried : (attempt.step .retry).Tracked := by
  rcases step_retry attempt with ⟨_, same⟩ | ⟨next, granted, reached⟩
  · rw [same]
    exact tracked
  rw [reached]
  exact tracked_opened (ProjectWorkspace.Opened.retry granted).required

theorem Tracked.step {command : WorkspaceCommand}
    (kept : command ≠ .clear) : (attempt.step command).Tracked := by
  cases command with
  | registerUser path bytes => exact tracked.retained (registerUser_retains ..)
  | expect batch => exact tracked_opened (ProjectWorkspace.Opened.expect _ batch).required
  | authorizePrefetchHints requests =>
    exact tracked.retained ⟨fun _ demanded => demanded.authorizeHints, rfl⟩
  | authorizeBlockingFile request intent =>
    exact tracked.retained (authorizeBlockingFile_retains ..)
  | noteExists request => exact tracked.retained (noteExists_retains ..)
  | provision response => exact tracked.retained (provision_retains ..)
  | provisionUnavailable request =>
    exact tracked.retained (provisionUnavailable_retains ..)
  | provisionBatch responses =>
    exact tracked.retained (provisionBatch_retains ..)
  | preload response => exact tracked.retained (provision_retains ..)
  | retry => exact tracked.retried
  | cancelOutstandingResources =>
    exact ⟨tracked.distinct, fun kept => Bool.noConfusion kept, fun _ => rfl⟩
  | clearGeneratedOutputs => exact tracked.retained ⟨fun _ demanded => demanded, rfl⟩
  | clear => exact absurd rfl kept

theorem Tracked.run {commands : List WorkspaceCommand}
    (kept : ∀ command ∈ commands, command ≠ .clear) : (attempt.run commands).Tracked := by
  induction commands generalizing attempt with
  | nil => exact tracked
  | cons command rest ih =>
    obtain ⟨first, later⟩ := List.forall_mem_cons.mp kept
    exact ih (tracked.step first) later

theorem isBound_eq_not_blocking (kept : attempt.cancelled = false)
    {key : FileRequestKey} (member : key ∈ attempt.baseline) :
    attempt.isBound key = !decide (key ∈ attempt.workspace.blockingKeys) := by
  have demanded := (tracked.counted kept).2 key member
  by_cases blocking : key ∈ attempt.workspace.blockingKeys
  · rw [decide_eq_true blocking]
    exact ResourceLifecycle.not_bound_of_blocking blocking
  rw [decide_eq_false blocking]
  exact (ResourceLifecycle.demanded_iff.mp demanded).resolve_left blocking

/-- Until a cancellation, the blocking requests are the baseline without what has been
bound and with what has been added. -/
theorem Tracked.tally (kept : attempt.cancelled = false) :
    attempt.workspace.blockingKeys.length + attempt.settled.length =
      attempt.baseline.length + attempt.added.length := by
  have blockingSplit := List.length_eq_length_filter_add (l := attempt.workspace.blockingKeys)
    fun key => decide (key ∉ attempt.baseline)
  have baselineSplit := List.length_eq_length_filter_add (l := attempt.baseline) attempt.isBound
  have common : (attempt.workspace.blockingKeys.filter fun key =>
        !decide (key ∉ attempt.baseline)).Perm
      (attempt.baseline.filter fun key => !attempt.isBound key) := by
    have distinct : attempt.workspace.blockingKeys.Nodup :=
      ResourceLifecycle.blockingKeys_nodup _
    refine (List.perm_ext_iff_of_nodup (distinct.filter _) (tracked.distinct.filter _)).mpr ?_
    intro key
    rw [List.mem_filter, List.mem_filter]
    constructor
    · rintro ⟨blocking, inside⟩
      have member : key ∈ attempt.baseline := by simpa using inside
      rw [isBound_eq_not_blocking tracked kept member]
      exact ⟨member, by simpa using blocking⟩
    rintro ⟨member, unbound⟩
    rw [isBound_eq_not_blocking tracked kept member] at unbound
    exact ⟨by simpa using unbound, by simpa using member⟩
  have sameLength := common.length_eq
  unfold settled added
  omega

end

theorem reportsNoProgress_iff : attempt.reportsNoProgress ↔
    attempt.workspace.blockingKeys.length = attempt.workspace.ledger.requiredAtBatchStart ∧
      attempt.workspace.blockingKeys ≠ [] := by
  unfold reportsNoProgress ProjectWorkspace.retry
  dsimp only
  rw [blockingCount_eq]
  split
  next stuck => exact ⟨fun _ => ⟨stuck.1, List.length_pos_iff.mp (Nat.pos_of_ne_zero stuck.2)⟩,
      fun _ => rfl⟩
  rename_i moved
  constructor
  · intro refused
    cases refused
  rintro ⟨level, pending⟩
  exact absurd ⟨level, Nat.ne_of_gt (List.length_pos_iff.mpr pending)⟩ moved

theorem settled_eq_nil_iff : attempt.settled = [] ↔
    ∀ key ∈ attempt.baseline, attempt.isBound key = false := by
  unfold settled
  rw [List.filter_eq_nil_iff]
  simp only [Bool.not_eq_true]

/-- Along every run, `retry` reports no progress exactly when blocking requests are
outstanding and none of its baseline has been bound, if and only if the counts tell. -/
theorem retry_reports_progress_iff {workspace : ProjectWorkspace}
    (counted : workspace.Opened) {commands : List WorkspaceCommand}
    (kept : ∀ command ∈ commands, command ≠ .clear) :
    (((opened workspace).run commands).reportsNoProgress ↔
        ((opened workspace).run commands).Stalled) ↔ ((opened workspace).run commands).Telling := by
  have tracked := (tracked_opened counted.required).run kept
  generalize (opened workspace).run commands = attempt at tracked
  unfold Stalled Telling
  rw [reportsNoProgress_iff, ← settled_eq_nil_iff]
  by_cases idle : attempt.workspace.blockingKeys = []
  · simp [idle]
  have some_ : 0 < attempt.workspace.blockingKeys.length := List.length_pos_iff.mpr idle
  cases stage : attempt.cancelled with
  | true =>
    have dropped := tracked.dropped stage
    have unequal : attempt.workspace.blockingKeys.length ≠
        attempt.workspace.ledger.requiredAtBatchStart := by omega
    simp [idle, unequal]
  | false => ?_
  obtain ⟨required, _⟩ := tracked.counted stage
  have tally := tracked.tally stage
  have level : attempt.workspace.blockingKeys.length =
      attempt.workspace.ledger.requiredAtBatchStart ↔
        attempt.added.length = attempt.settled.length := by omega
  simp [idle, level]

def alphaStyle : FileRequestKey :=
  ⟨.bibliography, .bibStyle, "alpha.bst".toList, rfl⟩

def requiring (keys : List FileRequestKey) : FileRequestBatch :=
  { required := keys.map fun key => ⟨key, key.normalizedName⟩
    probes := []
    prefetchHints := [] }

def answered : Attempt :=
  (opened emptyWorkspace).run
    [.expect (requiring [plainStyle, alphaStyle]), .provision (plainStyleFile [1, 2])]

/-- Another style is required after the batch, and the first one is answered. -/
def exchanged : Attempt :=
  (opened emptyWorkspace).run
    [.expect (requiring [plainStyle]), .authorizeBlockingFile alphaStyle .required,
      .provision (plainStyleFile [1, 2])]

/-- Another style is required after the batch, and nothing is answered. -/
def widened : Attempt :=
  (opened emptyWorkspace).run
    [.expect (requiring [plainStyle]), .authorizeBlockingFile alphaStyle .required]

theorem retry_reports_progress_answered :
    answered.settled = [plainStyle] ∧ (answered.reportsNoProgress ↔ answered.Stalled) := by
  refine ⟨by decide +kernel, ?_⟩
  have kept : ∀ command ∈ [WorkspaceCommand.expect (requiring [plainStyle, alphaStyle]),
      .provision (plainStyleFile [1, 2])], command ≠ .clear := by simp
  apply (retry_reports_progress_iff (.new emptyWorkspace_created) kept).mpr
  refine .inr (.inl ⟨?_, ?_⟩)
  · decide +kernel
  · decide +kernel

/-- The retry stops although the whole baseline has been bound, and goes ahead although
none of it has. -/
theorem retry_misreports_progress : ¬(exchanged.reportsNoProgress ↔ exchanged.Stalled) ∧
      ¬(widened.reportsNoProgress ↔ widened.Stalled) := by
  rw [reportsNoProgress_iff, reportsNoProgress_iff]
  unfold Stalled
  decide +kernel

end Attempt

end Umber.Vfs
