import Umber.Vfs.Locate

/-! A supplied request is found again exactly when its response was the first for its
path. -/

set_option autoImplicit false

namespace Umber.Vfs

open ProjectWorkspace

namespace Traced

variable {workspace : ProjectWorkspace} {supplied : List Supply}

theorem madeUnavailable {request : FileRequestKey}
    {reply : Reply ProjectWorkspace ProvisionError ProvisionOutcome}
    (traced : Traced workspace supplied) (made : MadeUnavailable workspace request reply) :
    Traced reply.1 supplied := by
  cases made with
  | failed fault => exact traced
  | repeated => exact traced
  | inserted unbound _ => ?_
  have carried : ∀ key path, workspace.ledger.lifecycle.admitted key = some path →
      (⟨workspace.ledger.lifecycle.states.insert request .unavailable⟩ :
        ResourceLifecycle FileRequestKey VirtualPath).admitted key = some path := by
    intro key path admitted
    have apart : request ≠ key := by
      intro same
      rw [ResourceLifecycle.admitted_iff, ← same, unbound] at admitted
      cases admitted
    rw [ResourceLifecycle.admitted_iff] at admitted ⊢
    exact (ResourceLifecycle.bound_insert_other _ apart).trans admitted
  exact
    { files := traced.files
      owners := fun path file owner found origin =>
        carried owner path (traced.owners path file owner found origin)
      admitted := fun supply member => carried _ _ (traced.admitted supply member)
      backed := by
        intro key path admitted
        rw [ResourceLifecycle.admitted_iff] at admitted
        rcases bound_insert admitted with ⟨_, held⟩ | earlier
        · cases held
        · exact traced.backed key path (ResourceLifecycle.admitted_iff.mpr earlier)
      rooted := traced.rooted }

theorem registerUser {path : VirtualPath} {bytes : Bytes}
    {reply : Reply ProjectWorkspace UserRegistrationError ProvisionOutcome}
    (traced : Traced workspace supplied) (registered : Registered workspace path bytes reply) :
    Traced reply.1 supplied := by
  cases registered with
  | failed fault => exact traced
  | replaced outcome checked =>
    exact ⟨traced.files, traced.owners, traced.admitted, traced.backed, traced.rooted⟩

theorem empty (workspace : ProjectWorkspace) (files : workspace.storage.resolved = .empty)
    (lifecycle : workspace.ledger.lifecycle = .empty) : Traced workspace [] where
  files := by
    intro path file found
    rw [files] at found
    cases found
  owners := by
    intro path file request found
    rw [files] at found
    cases found
  admitted := nofun
  backed := by
    intro key path admitted
    rw [lifecycle] at admitted
    cases admitted
  rooted := by
    intro path file found
    rw [files] at found
    cases found

variable {command : Command}

/-- A command that hands over nothing leaves the supplies as they are. -/
theorem unsupplied {result : Answer} (nothing : command.supplies = [])
    (unclearing : command ≠ .workspace .clear) (traced : Traced workspace supplied) :
    Traced workspace (command.supplied result supplied) := by
  unfold Command.supplied
  split
  · exact absurd rfl unclearing
  · rw [nothing, List.append_nil]
    exact traced
  · exact traced

variable (traced : Traced workspace supplied) (accounted : workspace.Accounted)
include traced accounted

theorem provision {response : ResolvedFile} {mustBeExpected : Bool} 
    (supplies : command.supplies = response.supply) (unclearing : command ≠ .workspace .clear) :
    Traced (workspace.provisionInner response mustBeExpected).1 (command.supplied
        (answer .provision (workspace.provisionInner response mustBeExpected).2) supplied) := by
  have provisioned := provisionInner_provisioned workspace response mustBeExpected
  cases result : (workspace.provisionInner response mustBeExpected).2 with
  | error fault =>
    have kept : command.supplied (answer .provision
        (.error fault : Except (Fault ProvisionError) ProvisionOutcome)) supplied = supplied := by
      unfold Command.supplied
      cases fault with
      | error problem => split <;> simp_all [answer]
      | panicked message => split <;> simp_all [answer]
    rw [kept, provisionInner_failed result]
    exact traced
  | ok outcome => ?_
  have grown : command.supplied (answer .provision
      (.ok outcome : Except (Fault ProvisionError) ProvisionOutcome)) supplied =
      supplied ++ response.supply := by
    unfold Command.supplied
    split <;> simp_all [answer]
  rw [grown]
  exact traced.provisioned accounted provisioned result

theorem provisionBatch {responses : List ResolvedFile}
    : Traced (workspace.provisionBatch responses).1
      ((Command.workspace (.provisionBatch responses)).supplied
        (answer .provision (workspace.provisionBatch responses).2) supplied) := by
  unfold ProjectWorkspace.provisionBatch
  cases finished : workspace.provisionStaged responses with
  | mk final results => ?_
  cases results with
  | error fault =>
    cases fault with
    | error problem => exact traced
    | panicked message => exact traced
  | ok outcomes => ?_
  have carried := traced.provisionStaged accounted (congrArg Prod.snd finished)
  rw [finished] at carried
  exact carried

theorem apply {command : WorkspaceCommand} : Traced (workspace.apply command).1
      ((Command.workspace command).supplied (workspace.apply command).2 supplied) := by
  cases command with
  | registerUser path bytes =>
    refine Traced.unsupplied rfl nofun ?_
    exact traced.registerUser (registerUser_registered ..)
  | expect batch =>
    refine Traced.unsupplied rfl nofun ?_
    exact traced.sameLedger (expect_sameLedger ..)
  | authorizePrefetchHints requests =>
    refine Traced.unsupplied rfl nofun ?_
    exact traced.sameLedger
      (withLifecycle_sameLedger (ResourceLifecycle.authorizeHints_sameBindings ..))
  | authorizeBlockingFile request intent =>
    refine Traced.unsupplied rfl nofun ?_
    exact traced.sameLedger (authorizeBlockingFile_sameLedger ..)
  | noteExists request =>
    refine Traced.unsupplied rfl nofun ?_
    exact traced.sameLedger (noteExists_sameLedger ..)
  | provision response => exact traced.provision accounted rfl nofun
  | provisionUnavailable request =>
    refine Traced.unsupplied rfl nofun ?_
    exact traced.madeUnavailable (provisionUnavailable_madeUnavailable ..)
  | provisionBatch responses => exact traced.provisionBatch accounted
  | preload response => exact traced.provision accounted rfl nofun
  | retry =>
    refine Traced.unsupplied rfl nofun ?_
    exact traced.sameLedger (retry_sameLedger workspace)
  | cancelOutstandingResources =>
    refine Traced.unsupplied rfl nofun ?_
    exact traced.sameLedger (cancelOutstandingResources_sameLedger workspace)
  | clearGeneratedOutputs =>
    refine Traced.unsupplied rfl nofun ?_
    exact traced.sameLedger ⟨rfl, rfl, rfl, rfl, rfl, .refl _, fun _ _ absent => absent⟩
  | clear => exact Traced.empty _ rfl rfl

end Traced

theorem Reachable.traced {project : Project} {supplied : List Supply}
    (reachable : Reachable project supplied) : Traced project.workspace supplied := by
  induction reachable with
  | new created =>
    unfold ProjectWorkspace.new at created
    split at created
    · cases created
    cases created
    exact Traced.empty _ rfl rfl
  | @run project next supplied command result reached ran traced =>
    have accounted := reached.sound.1
    cases command with
    | workspace inner =>
      unfold Project.run at ran
      dsimp only at ran
      split at ran
      · cases ran
      cases ran
      exact traced.apply accounted
    | beginGenerated =>
      obtain same | ⟨inner, other, _⟩ | ⟨pending, other, _⟩ := Project.run_workspace ran
      · exact same ▸ .unsupplied rfl nofun traced
      · cases other
      · cases other
    | write path bytes =>
      obtain same | ⟨inner, other, _⟩ | ⟨pending, other, _⟩ := Project.run_workspace ran
      · exact same ▸ .unsupplied rfl nofun traced
      · cases other
      · cases other
    | discard =>
      obtain same | ⟨inner, other, _⟩ | ⟨pending, other, _⟩ := Project.run_workspace ran
      · exact same ▸ .unsupplied rfl nofun traced
      · cases other
      · cases other
    | accept => ?_
    obtain same | ⟨inner, other, _⟩ | ⟨pending, _, published⟩ := Project.run_workspace ran
    · exact same ▸ .unsupplied rfl nofun traced
    · cases other
    rw [published]
    have kept := traced.sameLedger (publish_sameLedger project.workspace pending)
    exact .unsupplied rfl nofun kept
  | @copy project source next supplied brought _ _ ran _ sourceTraced =>
    obtain ⟨rfl, replied⟩ := Project.copyFrom_cases ran
    obtain ⟨done, succeeded⟩ := answer_ok replied.symm
    exact sourceTraced.copied (copyResolvedBindingsFrom_copied ..) succeeded
  | copyFailed _ _ ran traced _ =>
    rw [Project.copyFrom_failed ran]
    exact traced

theorem VirtualPath.not_isJob_of_isDistribution {path : VirtualPath}
    (distribution : path.isDistribution = true) : path.isJob = false := by
  cases path with
  | mk text => ?_
  unfold isDistribution distributionRoot at distribution
  unfold isJob jobRoot
  cases text with
  | nil => cases distribution
  | cons slash rest => ?_
  cases rest with
  | nil => simp [List.isPrefixOf] at distribution
  | cons letter rest => ?_
  simp only [List.isPrefixOf, Bool.and_eq_true, beq_iff_eq] at distribution
  obtain ⟨_, isT, _⟩ := distribution
  subst isT
  simp [List.isPrefixOf]

theorem VfsSnapshot.listVisible_ok {snapshot : VfsSnapshot} {limit : Nat}
    (paths result : List VirtualPath)
    (visible : ∀ path ∈ paths, (snapshot.getValid path).isSome = true)
    (room : result.length + paths.length ≤ limit) :
    snapshot.listVisible limit paths result = .ok (result ++ paths) := by
  induction paths generalizing result with
  | nil =>
    rw [List.append_nil]
    rfl
  | cons path rest ih => ?_
  have below : result.length ≠ limit := by
    simp only [List.length_cons] at room
    omega
  unfold listVisible
  rw [if_pos (visible path List.mem_cons_self), if_neg below]
  rw [ih (result ++ [path]) (fun other member => visible other (List.mem_cons_of_mem _ member))]
  · rw [List.append_assoc, List.singleton_append]
  simp only [List.length_append, List.length_cons, List.length_nil] at room ⊢
  omega

section Search

variable {snapshot : VfsSnapshot} {request : FileRequestKey} {paths : List VirtualPath}

theorem searchOrigins_found {file : VirtualFile}
    (visible : ∀ path ∈ paths, ∃ seen, snapshot.get path = .ok (some seen))
    (alone : ∀ path ∈ paths, ∀ seen, snapshot.get path = .ok (some seen) →
      seen.origin = .resolved request → seen = file) {path : VirtualPath} (member : path ∈ paths)
    (found : snapshot.get path = .ok (some file)) (origin : file.origin = .resolved request) :
    searchOrigins snapshot request paths = .ok (some file) := by
  induction paths with
  | nil => cases member
  | cons head rest ih => ?_
  obtain ⟨seen, shown⟩ := visible head List.mem_cons_self
  unfold searchOrigins
  rw [shown]
  dsimp only
  by_cases owned : seen.origin = .resolved request
  · rw [if_pos owned, alone head List.mem_cons_self seen shown owned]
  rw [if_neg owned]
  rcases List.mem_cons.mp member with rfl | later
  · rw [found] at shown
    cases shown
    exact absurd origin owned
  exact ih (fun other inRest => visible other (List.mem_cons_of_mem _ inRest))
    (fun other inRest => alone other (List.mem_cons_of_mem _ inRest)) later

theorem searchOrigins_missing
    (visible : ∀ path ∈ paths, ∃ seen, snapshot.get path = .ok (some seen) ∧
      seen.origin ≠ .resolved request) : searchOrigins snapshot request paths = .ok none := by
  induction paths with
  | nil => rfl
  | cons head rest ih => ?_
  obtain ⟨seen, shown, other⟩ := visible head List.mem_cons_self
  unfold searchOrigins
  rw [shown]
  dsimp only
  rw [if_neg other]
  exact ih fun path inRest => visible path (List.mem_cons_of_mem _ inRest)

theorem locate_eq_search {exact : Option VirtualPath} (valid : snapshot.valid = true)
    (noExact : exact.bind snapshot.getValid = none) :
    locate snapshot exact request = searchDistribution snapshot request := by
  unfold locate
  cases exact with
  | none => rfl
  | some path => ?_
  have unseen : snapshot.getValid path = none := noExact
  have shown : snapshot.get path = .ok none := by
    unfold VfsSnapshot.get
    rw [if_pos valid, unseen]
  simp only [shown]

end Search

/-- Two first matches that pass each other's test are one element. -/
theorem find?_eq_find? {α : Type} {left right : α → Bool} {elements : List α} {first second : α}
    (foundLeft : elements.find? left = some first) (foundRight : elements.find? right = some second)
    (passesRight : right first = true) (passesLeft : left second = true) : first = second := by
  induction elements with
  | nil => cases foundLeft
  | cons head rest ih => ?_
  cases isLeft : left head with
  | true =>
    rw [List.find?_cons_of_pos isLeft] at foundLeft
    cases foundLeft
    rw [List.find?_cons_of_pos passesRight] at foundRight
    exact Option.some.inj foundRight
  | false => ?_
  cases isRight : right head with
  | true =>
    rw [List.find?_cons_of_pos isRight] at foundRight
    cases foundRight
    rw [passesLeft] at isLeft
    cases isLeft
  | false => ?_
  rw [List.find?_cons_of_neg (Bool.eq_false_iff.mp isLeft)] at foundLeft
  rw [List.find?_cons_of_neg (Bool.eq_false_iff.mp isRight)] at foundRight
  exact ih foundLeft foundRight

section Reached

variable {project : Project} {supplied : List Supply}

/-- The snapshot of a reachable workspace lists the whole resolved layer. -/
theorem Reachable.listDistribution (reachable : Reachable project supplied) :
    project.workspace.snapshot.listDistribution maximumListedPaths =
      .ok (project.workspace.storage.resolved.entries.map Prod.fst) := by
  have traced := reachable.traced
  have counted := reachable.sound.2
  unfold VfsSnapshot.listDistribution
  rw [if_pos (show project.workspace.snapshot.valid = true from rfl)]
  refine VfsSnapshot.listVisible_ok _ [] ?_ ?_
  · intro path member
    obtain ⟨⟨listed, file⟩, inEntries, rfl⟩ := List.mem_map.mp member
    have found := OrderedMap.get?_eq_some_iff.mpr inEntries
    unfold VfsSnapshot.getValid
    rw [if_neg (Bool.eq_false_iff.mp
      (VirtualPath.not_isJob_of_isDistribution (traced.rooted listed file found)))]
    rw [show project.workspace.snapshot.generation.resolved.get? listed = some file from found]
    rfl
  have files := counted.files
  have bindings := counted.bindings
  have hard := counted.hard
  have ceiling : VfsLimits.hardMax.resolvedFiles ≤ maximumListedPaths := by decide
  unfold OrderedMap.size at files
  rw [List.length_map, List.length_nil]
  show 0 + project.workspace.storage.resolved.entries.length ≤ maximumListedPaths
  omega

variable {path : VirtualPath} {file : VirtualFile} (reachable : Reachable project supplied)
include reachable

theorem Reachable.get_listed (found : project.workspace.storage.resolved.get? path = some file) :
    project.workspace.snapshot.get path = .ok (some file) := by
  unfold VfsSnapshot.get VfsSnapshot.getValid
  rw [if_pos (show project.workspace.snapshot.valid = true from rfl), if_neg (Bool.eq_false_iff.mp
    (VirtualPath.not_isJob_of_isDistribution (reachable.traced.rooted path file found)))]
  exact congrArg Except.ok found

/-- A file is found for a request when it carries the request as its origin. -/
theorem Reachable.search_found {request : FileRequestKey}
    (found : project.workspace.storage.resolved.get? path = some file)
    (origin : file.origin = .resolved request) :
    searchDistribution project.workspace.snapshot request = .ok (some file) := by
  have traced := reachable.traced
  unfold searchDistribution
  rw [reachable.listDistribution]
  refine searchOrigins_found ?_ ?_
    (List.mem_map.mpr ⟨(path, file), OrderedMap.get?_eq_some_iff.mp found, rfl⟩)
    (reachable.get_listed found) origin
  · intro listed member
    obtain ⟨⟨_, seen⟩, inEntries, rfl⟩ := List.mem_map.mp member
    exact ⟨seen, reachable.get_listed (OrderedMap.get?_eq_some_iff.mpr inEntries)⟩
  intro listed member seen shown owned
  obtain ⟨⟨_, stored⟩, inEntries, rfl⟩ := List.mem_map.mp member
  have here := OrderedMap.get?_eq_some_iff.mpr inEntries
  have equal := (reachable.get_listed here).symm.trans shown
  cases equal
  -- both files carry the request, so both lie at the path it is admitted to
  have there := traced.owners _ _ request here owned
  have admitted := traced.owners path file request found origin
  rw [admitted] at there
  cases there
  rw [found] at here
  cases here
  rfl

theorem Reachable.search_missing {request : FileRequestKey}
    (unowned : ∀ path file, project.workspace.storage.resolved.get? path = some file →
      file.origin ≠ .resolved request) :
    searchDistribution project.workspace.snapshot request = .ok none := by
  unfold searchDistribution
  rw [reachable.listDistribution]
  refine searchOrigins_missing ?_
  intro listed member
  obtain ⟨⟨_, seen⟩, inEntries, rfl⟩ := List.mem_map.mp member
  have here := OrderedMap.get?_eq_some_iff.mpr inEntries
  exact ⟨seen, reachable.get_listed here, unowned _ seen here⟩

/-- The lookup of an admitted request: its file where its response was the first for
the path, and nothing where another response was. -/
theorem Reachable.search_admitted {key : FileRequestKey}
    (admitted : project.workspace.ledger.lifecycle.admitted key = some path) {supply : Supply}
    (provisioned : supplied.find? (fun supply => supply.request = key) = some supply) :
    supply.path = path ∧ (supplied.find? (fun supply => supply.path = path) = some supply →
        searchDistribution project.workspace.snapshot key =
          .ok (some ⟨path, supply.bytes, .resolved key⟩)) ∧
      (supplied.find? (fun supply => supply.path = path) ≠ some supply →
        searchDistribution project.workspace.snapshot key = .ok none) := by
  have traced := reachable.traced
  have sameKey : supply.request = key := by simpa using List.find?_some provisioned
  have samePath : supply.path = path := by
    have held := traced.admitted supply (List.mem_of_find?_eq_some provisioned)
    rw [sameKey, admitted] at held
    exact (Option.some.inj held).symm
  obtain ⟨file, found⟩ := reachable.sound.1.present key path admitted
  obtain ⟨first, earliest, rfl⟩ := traced.files path file found
  refine ⟨samePath, ?_, ?_⟩
  · intro isFirst
    rw [earliest] at isFirst
    cases isFirst
    rw [← sameKey]
    exact reachable.search_found found rfl
  intro notFirst
  refine reachable.search_missing ?_
  intro other seen shown owned
  apply notFirst
  -- a file that carries the key lies at the key's path, and its supply is the key's
  have there := traced.owners other seen key shown owned
  rw [admitted] at there
  cases there
  rw [found] at shown
  cases shown
  rw [earliest]
  have firstKey : first.request = key := FileOrigin.resolved.inj owned
  rw [find?_eq_find? provisioned earliest (decide_eq_true samePath) (decide_eq_true firstKey)]

theorem Reachable.search_total (request : FileRequestKey) :
    ∃ found, searchDistribution project.workspace.snapshot request = .ok found := by
  by_cases owned : ∃ path file, project.workspace.storage.resolved.get? path = some file ∧
      file.origin = .resolved request
  · obtain ⟨path, file, found, origin⟩ := owned
    exact ⟨_, reachable.search_found found origin⟩
  refine ⟨_, reachable.search_missing ?_⟩
  intro path file found origin
  exact owned ⟨path, file, found, origin⟩

end Reached

/-- The lookup asks for the requests that are not located, and for no other. -/
theorem gatherInputs_missing {snapshot : VfsSnapshot}
    (total : ∀ key, ∃ found, locate snapshot none key = .ok found)
    (requests : List FileRequest) (inputs : Inputs) :
    ∃ gathered, gatherInputs snapshot requests inputs = .ok gathered ∧
      ∀ request, request ∈ gathered.missing ↔ request ∈ inputs.missing ∨
        (request ∈ requests ∧ locate snapshot none request.key = .ok none) := by
  induction requests generalizing inputs with
  | nil => exact ⟨inputs, rfl, fun request => by simp⟩
  | cons head rest ih => ?_
  unfold gatherInputs
  obtain ⟨found, located⟩ := total head.key
  rw [located]
  cases found with
  | some file =>
    obtain ⟨gathered, ran, asked⟩ := ih { inputs with found := inputs.found ++ [file] }
    refine ⟨gathered, ran, fun request => (asked request).trans ?_⟩
    constructor
    · rintro (earlier | ⟨member, missing⟩)
      · exact .inl earlier
      · exact .inr ⟨List.mem_cons_of_mem _ member, missing⟩
    rintro (earlier | ⟨member, missing⟩)
    · exact .inl earlier
    rcases List.mem_cons.mp member with rfl | later
    · rw [located] at missing
      cases missing
    · exact .inr ⟨later, missing⟩
  | none => ?_
  obtain ⟨gathered, ran, asked⟩ := ih { inputs with missing := inputs.missing ++ [head] }
  refine ⟨gathered, ran, fun request => (asked request).trans ?_⟩
  constructor
  · rintro (earlier | ⟨member, missing⟩)
    · rcases List.mem_append.mp earlier with before | last
      · exact .inl before
      cases List.mem_singleton.mp last
      exact .inr ⟨List.mem_cons_self, located⟩
    · exact .inr ⟨List.mem_cons_of_mem _ member, missing⟩
  rintro (earlier | ⟨member, missing⟩)
  · exact .inl (List.mem_append_left _ earlier)
  rcases List.mem_cons.mp member with rfl | later
  · exact .inl (List.mem_append_right _ List.mem_cons_self)
  · exact .inr ⟨later, missing⟩

/-- An admitted request is located with the path and the bytes supplied for it exactly
when its response was the first one supplied for its path; otherwise the control loop
asks for it again. -/
theorem supplied_found_again_iff {project : Project} {supplied : List Supply}
    (reachable : Reachable project supplied) {key : FileRequestKey} {path : VirtualPath}
    (admitted : project.workspace.ledger.lifecycle.admitted key = some path)
    {exact : Option VirtualPath} (noExact : exact.bind project.workspace.snapshot.getValid = none) :
    ∃ supply, supplied.find? (fun supply => supply.request = key) = some supply ∧
      supply.path = path ∧ ((∃ file, locate project.workspace.snapshot exact key = .ok (some file) ∧
          file.path = path ∧ file.bytes = supply.bytes) ↔
        supplied.find? (fun supply => supply.path = path) = some supply) ∧
      ∀ requests request, request ∈ requests → request.key = key →
        ∃ inputs, gatherInputs project.workspace.snapshot requests ⟨[], []⟩ = .ok inputs ∧
          (request ∈ inputs.missing ↔
            supplied.find? (fun supply => supply.path = path) ≠ some supply) := by
  obtain ⟨witness, member, asked⟩ := reachable.traced.backed key path admitted
  have some_ : (supplied.find? fun supply => supply.request = key).isSome = true :=
    List.find?_isSome.mpr ⟨witness, member, decide_eq_true asked⟩
  obtain ⟨supply, provisioned⟩ := Option.isSome_iff_exists.mp some_
  obtain ⟨samePath, located, unlocated⟩ := reachable.search_admitted admitted provisioned
  have searched : ∀ other, locate project.workspace.snapshot none other =
      searchDistribution project.workspace.snapshot other :=
    fun other => locate_eq_search rfl rfl
  refine ⟨supply, provisioned, samePath, ?_, ?_⟩
  · rw [locate_eq_search rfl noExact]
    constructor
    · rintro ⟨file, found, _, _⟩
      by_cases first : supplied.find? (fun supply => supply.path = path) = some supply
      · exact first
      rw [unlocated first] at found
      cases found
    intro first
    exact ⟨_, located first, rfl, rfl⟩
  intro requests request inRequests sameKey
  have total : ∀ other, ∃ found, locate project.workspace.snapshot none other = .ok found := by
    intro other
    rw [searched]
    exact reachable.search_total other
  obtain ⟨inputs, ran, missing⟩ := gatherInputs_missing total requests ⟨[], []⟩
  refine ⟨inputs, ran, (missing request).trans ?_⟩
  rw [searched, sameKey]
  constructor
  · rintro (earlier | ⟨_, absent⟩) first
    · cases earlier
    rw [located first] at absent
    cases absent
  intro later
  exact .inr ⟨inRequests, unlocated later⟩

/-- Of two styles supplied one after the other the second one is found again, and
not asked for again. -/
theorem supplied_found_again_preloaded :
    ∃ project, Reachable project [⟨plainStyle, ⟨"/texlive/plain.bst".toList⟩, [1, 2]⟩,
        ⟨abbrvStyle, ⟨"/texlive/abbrv.bst".toList⟩, [3]⟩] ∧
      (∃ file, locate project.workspace.snapshot none abbrvStyle = .ok (some file) ∧
        file.path = ⟨"/texlive/abbrv.bst".toList⟩ ∧ file.bytes = [3]) ∧
      ∃ inputs, gatherInputs project.workspace.snapshot [⟨abbrvStyle, "abbrv".toList⟩] ⟨[], []⟩ =
        .ok inputs ∧ ⟨abbrvStyle, "abbrv".toList⟩ ∉ inputs.missing := by
  obtain ⟨project, ran⟩ : ∃ project, (preloadedProject [1, 2]).run
      (.workspace (.preload (abbrvStyleFile [3]))) = some (project, .ok ()) := ⟨_, rfl⟩
  have first : Reachable (preloadedProject [1, 2]) _ :=
    @Reachable.run _ _ _ (.workspace (.preload (plainStyleFile [1, 2]))) _
      (.new emptyWorkspace_created) rfl
  have reachable := Reachable.run first ran
  have admitted : project.workspace.ledger.lifecycle.admitted abbrvStyle =
      some ⟨"/texlive/abbrv.bst".toList⟩ := by
    cases ran
    decide +kernel
  have noExact : (none : Option VirtualPath).bind project.workspace.snapshot.getValid = none := rfl
  obtain ⟨supply, provisioned, _, found, asked⟩ :=
    supplied_found_again_iff reachable admitted noExact
  cases provisioned
  obtain ⟨inputs, gathered, missing⟩ := asked [⟨abbrvStyle, "abbrv".toList⟩] _
    List.mem_cons_self rfl
  refine ⟨project, reachable, found.mpr (by decide +kernel), inputs, gathered, fun still => ?_⟩
  exact missing.mp still (by decide +kernel)

def plainStyleAsInput : FileRequestKey :=
  ⟨.tex, .texInput, "plain.bst".toList, rfl⟩

def sharedPathCommands : List Command :=
  [.workspace (.authorizePrefetchHints [plainStyleAsInput, plainStyle]),
    .workspace (.provision { plainStyleFile [1, 2] with request := plainStyleAsInput }),
    .workspace (.provision (plainStyleFile [1, 2]))]

/-- Run commands one after the other, with the responses supplied so far. -/
def Project.runAll : List Command → Project → List Supply → Option (Project × List Supply)
  | [], project, supplied => some (project, supplied)
  | command :: rest, project, supplied =>
    match project.run command with
    | none => none
    | some (next, result) => runAll rest next (command.supplied result supplied)

theorem Reachable.runAll {commands : List Command} {project next : Project}
    {supplied grown : List Supply} (reachable : Reachable project supplied)
    (ran : Project.runAll commands project supplied = some (next, grown)) :
    Reachable next grown := by
  induction commands generalizing project supplied with
  | nil =>
    cases ran
    exact reachable
  | cons command rest ih => ?_
  unfold Project.runAll at ran
  split at ran
  next => cases ran
  next middle result stepped => exact ih (.run reachable stepped) ran

/-- Two requests of different kinds are provisioned at one path: the second is admitted,
and yet neither located nor taken off the list of what is asked for. -/
theorem shared_path_asked_again :
    ∃ (project : Project) (supplied : List Supply) (file : VirtualFile) (inputs : Inputs),
      Reachable project supplied ∧ project.workspace.get plainStyle = some file ∧
        locate project.workspace.snapshot none plainStyle = .ok none ∧
        gatherInputs project.workspace.snapshot [⟨plainStyle, "plain".toList⟩] ⟨[], []⟩ =
          .ok inputs ∧ inputs.missing = [⟨plainStyle, "plain".toList⟩] := by
  have start : Reachable ⟨emptyWorkspace, none⟩ [] := .new emptyWorkspace_created
  cases ran : Project.runAll sharedPathCommands ⟨emptyWorkspace, none⟩ [] with
  | none =>
    have completes : (Project.runAll sharedPathCommands ⟨emptyWorkspace, none⟩ []).isSome =
        true := by decide +kernel
    rw [ran] at completes
    cases completes
  | some outcome => ?_
  obtain ⟨project, supplied⟩ := outcome
  have reached := start.runAll ran
  have evaluated : (Project.runAll sharedPathCommands ⟨emptyWorkspace, none⟩ []).any
      (fun outcome =>
        outcome.1.workspace.get plainStyle =
            some ⟨⟨"/texlive/plain.bst".toList⟩, [1, 2], .resolved plainStyleAsInput⟩ ∧
          (locate outcome.1.workspace.snapshot none plainStyle).toOption = some none ∧
          ((gatherInputs outcome.1.workspace.snapshot [⟨plainStyle, "plain".toList⟩]
            ⟨[], []⟩).toOption.map Inputs.missing) =
              some [⟨plainStyle, "plain".toList⟩]) = true := by
    decide +kernel
  rw [ran] at evaluated
  obtain ⟨held, unlocated, asked⟩ := of_decide_eq_true evaluated
  have missing : locate project.workspace.snapshot none plainStyle = .ok none := by
    cases located : locate project.workspace.snapshot none plainStyle with
    | error fault =>
      rw [located] at unlocated
      cases unlocated
    | ok found => ?_
    rw [located] at unlocated
    cases unlocated
    rfl
  cases gathered : gatherInputs project.workspace.snapshot [⟨plainStyle, "plain".toList⟩]
      ⟨[], []⟩ with
  | error fault =>
    rw [gathered] at asked
    cases asked
  | ok inputs =>
    rw [gathered] at asked
    exact ⟨project, supplied, _, inputs, reached, held, missing, gathered, Option.some.inj asked⟩

end Umber.Vfs
