import Umber.Lib.SelfDelimiting
import Umber.Vfs.Snapshot

/-! Snapshots keep what they captured until they are invalidated, list what they find, and
are told apart by their preimages. -/

set_option autoImplicit false

namespace Umber.Vfs

open Std VirtualPath

theorem VirtualPath.compare_eq (left right : VirtualPath) :
    compare left right = compare left.text right.text := by
  cases left with
  | mk leftText => ?_
  cases right with
  | mk rightText =>
    show (compare leftText rightText).then .eq = compare leftText rightText
    cases compare leftText rightText <;> rfl

instance : TransOrd VirtualPath where
  eq_swap := by
    intro left right
    rw [compare_eq, compare_eq]
    exact OrientedCmp.eq_swap
  isLE_trans := by
    intro first second third low high
    rw [compare_eq] at low high ⊢
    exact TransOrd.isLE_trans low high

instance : LawfulEqOrd VirtualPath where
  compare_self := by
    intro path
    rw [compare_eq]
    exact ReflOrd.compare_self
  eq_of_compare := by
    intro left right same
    rw [compare_eq] at same
    cases left with
    | mk leftText =>
      cases right with
      | mk rightText => exact congrArg mk (LawfulEqOrd.eq_of_compare same)

structure FileMap.Layer (root : VirtualPath → Bool) (files : FileMap) : Prop where
  ordered : files.Ordered
  rooted : ∀ path file, files.get? path = some file → root path = true

theorem FileMap.layer_empty (root : VirtualPath → Bool) : FileMap.Layer root (.empty : FileMap) :=
  ⟨OrderedMap.ordered_empty, fun _ _ absent => by cases absent⟩

variable {files : FileMap}

theorem FileMap.Layer.insert {root : VirtualPath → Bool} {path : VirtualPath} {file : VirtualFile}
    (layer : files.Layer root) (rooted : root path = true) :
    FileMap.Layer root (OrderedMap.insert files path file) := by
  refine ⟨layer.ordered.insert path file, ?_⟩
  intro other held found
  by_cases same : path = other
  · exact same ▸ rooted
  rw [OrderedMap.get?_insert_other _ _ same] at found
  exact layer.rooted other held found

structure StorageGeneration.Layered (storage : StorageGeneration) : Prop where
  user : storage.user.Layer isJob
  resolved : storage.resolved.Layer isDistribution
  acceptedGenerated : storage.acceptedGenerated.Layer isJob

structure VfsSnapshot.Layered (snapshot : VfsSnapshot) : Prop where
  generation : snapshot.generation.Layered
  pending : ∀ files, snapshot.pendingGenerated = some files → files.Layer isJob

namespace VfsSnapshot

variable {snapshot : VfsSnapshot} {root path : VirtualPath}

def layers (snapshot : VfsSnapshot) (path : VirtualPath) : List FileMap :=
  if path.isJob = true then
    [snapshot.pendingGenerated.getD .empty, snapshot.generation.acceptedGenerated,
      snapshot.generation.user]
  else [snapshot.generation.resolved]

theorem getValid_eq (snapshot : VfsSnapshot) (path : VirtualPath) :
    snapshot.getValid path = (snapshot.layers path).findSome? (·.get? path) := by
  unfold getValid layers
  by_cases job : path.isJob = true
  · rw [if_pos job, if_pos job]
    simp only [List.findSome?_cons, List.findSome?_nil]
    cases snapshot.pendingGenerated with
    | none =>
      cases snapshot.generation.acceptedGenerated.get? path <;>
        cases snapshot.generation.user.get? path <;> rfl
    | some files => ?_
    cases pended : files.get? path <;>
      cases snapshot.generation.acceptedGenerated.get? path <;>
        cases snapshot.generation.user.get? path <;> simp [pended]
  rw [if_neg job, if_neg job]
  simp only [List.findSome?_cons, List.findSome?_nil]
  cases snapshot.generation.resolved.get? path <;> rfl

def Below (root path : VirtualPath) : Prop :=
  path = root ∨ ∃ rest, path.text = root.text ++ '/' :: rest

theorem matchesPrefix_iff : matchesPrefix path root = true ↔ Below root path := by
  unfold matchesPrefix Below
  rw [Bool.or_eq_true, decide_eq_true_iff, Bool.and_eq_true, decide_eq_true_iff,
    List.isPrefixOf_iff_prefix]
  refine or_congr Iff.rfl ?_
  constructor
  · rintro ⟨⟨rest, split⟩, next⟩
    rw [← split, List.drop_left] at next
    obtain ⟨later, rfl⟩ := List.head?_eq_some_iff.mp next
    exact ⟨later, split.symm⟩
  rintro ⟨rest, split⟩
  rw [split, List.drop_left]
  exact ⟨List.prefix_append .., rfl⟩

def visible (snapshot : VfsSnapshot) (root path : VirtualPath) : Bool :=
  matchesPrefix path root && (snapshot.getValid path).isSome

theorem listLoop_eq {limit fuel : Nat} {iterators : List (List VirtualPath)}
    {result : List VirtualPath} (room : result.length ≤ limit) :
    snapshot.listLoop root limit fuel iterators result =
      if result.length + ((Ascending.merge fuel iterators).filter (snapshot.visible root)).length ≤
          limit then .ok (result ++ (Ascending.merge fuel iterators).filter (snapshot.visible root))
      else .error (.enumerationLimitExceeded limit) := by
  induction fuel generalizing iterators result with
  | zero =>
    unfold listLoop Ascending.merge
    simp [room]
  | succ fuel ih => ?_
  unfold listLoop Ascending.merge
  cases Ascending.least (iterators.filterMap List.head?) with
  | none => simp [room]
  | some path => ?_
  dsimp only
  by_cases shown : snapshot.visible root path = true
  · have kept := shown
    unfold visible at shown
    rw [Bool.and_eq_true] at shown
    rw [if_pos shown, List.filter_cons_of_pos kept]
    by_cases full : result.length = limit
    · rw [if_pos full, if_neg (by rw [List.length_cons]; omega)]
    have more : (result ++ [path]).length ≤ limit := by
      rw [List.length_append, List.length_singleton]
      omega
    rw [if_neg full, ih more, List.append_assoc, List.length_append,
      List.length_singleton, List.length_cons, Nat.add_assoc, Nat.add_comm 1]
    rfl
  have dropped := shown
  unfold visible at shown
  rw [Bool.and_eq_true] at shown
  rw [if_neg shown, ih room, List.filter_cons_of_neg dropped]

/-- The iterators of a namespace hold the paths of its layers. -/
theorem mem_iterators {job : Bool} (path : VirtualPath) :
    (∃ iterator ∈ snapshot.iterators job, path ∈ iterator) ↔ ∃ files ∈ if job = true then
          [snapshot.pendingGenerated.getD .empty, snapshot.generation.acceptedGenerated,
            snapshot.generation.user] else [snapshot.generation.resolved],
        ∃ file, files.get? path = some file := by
  unfold iterators pathsOf
  cases job with
  | false => simp [OrderedMap.mem_keys_iff]
  | true => cases snapshot.pendingGenerated <;> simp [OrderedMap.mem_keys_iff]

theorem Layered.iterators (layered : snapshot.Layered) (job : Bool) :
    ∀ iterator ∈ snapshot.iterators job, Ascending iterator := by
  intro iterator listed
  unfold VfsSnapshot.iterators at listed
  cases job with
  | false =>
    rw [List.mem_singleton.mp listed]
    exact layered.generation.resolved.ordered
  | true => ?_
  rw [if_pos rfl, List.mem_append] at listed
  rcases listed with pending | settled
  · obtain ⟨files, held, rfl⟩ := Option.map_eq_some_iff.mp (Option.mem_toList.mp pending)
    exact (layered.pending files held).ordered
  simp only [List.mem_cons, List.not_mem_nil, or_false] at settled
  rcases settled with rfl | rfl
  · exact layered.generation.acceptedGenerated.ordered
  · exact layered.generation.user.ordered

theorem isJob_of_below (canonical : root.isJob = true ∨ root.isDistribution = true)
    (below : Below root path) : path.isJob = root.isJob := by
  rcases below with rfl | ⟨rest, split⟩
  · rfl
  unfold isJob isDistribution at *
  rw [split]
  rcases canonical with job | distribution
  · rw [job]
    exact List.isPrefixOf_iff_prefix.mpr
      ((List.isPrefixOf_iff_prefix.mp job).trans (List.prefix_append ..))
  obtain ⟨later, whole⟩ := List.isPrefixOf_iff_prefix.mp distribution
  rw [← whole]
  rfl

/-- What a listing promises: the visible paths below a prefix in strictly ascending
order, or an error when they are more than the limit. -/
structure Lists (snapshot : VfsSnapshot) (root : VirtualPath) (limit : Nat)
    (reply : Except SnapshotError (List VirtualPath)) : Prop where
  listed : ∀ paths, reply = .ok paths → Ascending paths ∧ paths.length ≤ limit ∧
    ∀ path, path ∈ paths ↔ Below root path ∧ (snapshot.getValid path).isSome = true
  exceeded : ∀ problem, reply = .error problem → problem = .enumerationLimitExceeded limit ∧
    ∃ paths, Ascending paths ∧ limit < paths.length ∧
      ∀ path, path ∈ paths ↔ Below root path ∧ (snapshot.getValid path).isSome = true

theorem listInner_lists (layered : snapshot.Layered)
    (canonical : root.isJob = true ∨ root.isDistribution = true) (limit : Nat) :
    snapshot.Lists root limit (snapshot.listInner root.isJob root limit) := by
  obtain ⟨ascending, members⟩ := Ascending.merge_spec (layered.iterators root.isJob)
    (Nat.le_refl (Ascending.remaining (snapshot.iterators root.isJob)))
  unfold listInner
  dsimp only
  rw [listLoop_eq (Nat.zero_le limit)]
  generalize Ascending.merge _ (snapshot.iterators root.isJob) = merged at ascending members
  have shown : ∀ path, path ∈ merged.filter (snapshot.visible root) ↔
      Below root path ∧ (snapshot.getValid path).isSome = true := by
    intro path
    rw [List.mem_filter, visible, Bool.and_eq_true, matchesPrefix_iff]
    constructor
    · exact fun kept => kept.2
    rintro ⟨below, found⟩
    refine ⟨(members path).mpr ((mem_iterators path).mpr ?_), below, found⟩
    rw [← isJob_of_below canonical below]
    rw [getValid_eq, List.findSome?_isSome_iff] at found
    obtain ⟨files, layer, present⟩ := found
    exact ⟨files, layer, Option.isSome_iff_exists.mp present⟩
  have ordered : Ascending (merged.filter (snapshot.visible root)) :=
    List.Pairwise.sublist List.filter_sublist ascending
  rw [List.length_nil, Nat.zero_add, List.nil_append]
  split
  next within =>
    refine ⟨?_, fun _ failed => by cases failed⟩
    rintro paths ⟨⟩
    exact ⟨ordered, within, shown⟩
  next beyond =>
    refine ⟨fun _ succeeded => (by cases succeeded), ?_⟩
    rintro problem ⟨⟩
    exact ⟨rfl, _, ordered, Nat.lt_of_not_le beyond, shown⟩

end VfsSnapshot

theorem utf8_injective {left right : List Char} (same : utf8 left = utf8 right) : left = right := by
  have encoded : left.utf8Encode = right.utf8Encode := by
    unfold List.utf8Encode
    exact congrArg List.toByteArray same
  have decoded := congrArg ByteArray.utf8Decode? encoded
  rw [List.utf8Decode?_utf8Encode, List.utf8Decode?_utf8Encode] at decoded
  exact Array.mk.inj (Option.some.inj decoded)

def Addressable (text : List Char) : Prop :=
  (utf8 text).length < Bytes.span 8

def FileOrigin.Addressable : FileOrigin → Prop
  | .user | .generated => True
  | .resolved request => Vfs.Addressable request.normalizedName

def FileMap.Addressable (files : FileMap) : Prop :=
  files.size < Bytes.span 8 ∧
    ∀ entry ∈ files.entries, Vfs.Addressable entry.1.text ∧ entry.2.origin.Addressable

theorem encodeText_delimiting :
    SelfDelimiting (fun text : List Char => encodeLength (utf8 text).length ++ utf8 text)
      Addressable := by
  have counted := SelfDelimiting.counted (SelfDelimiting.le 8) (@SelfDelimiting.single UInt8)
  have bytes : SelfDelimiting (fun bytes : Bytes => encodeLength bytes.length ++ bytes)
      fun bytes => bytes.length < Bytes.span 8 := by
    intro left right leftIn rightIn leftRest rightRest same
    refine counted left right ⟨leftIn, fun _ _ => trivial⟩ ⟨rightIn, fun _ _ => trivial⟩ _ _ ?_
    dsimp only
    rw [List.flatMap_singleton', List.flatMap_singleton']
    exact same
  exact bytes.comap (fun _ within => within) fun _ _ _ _ same => utf8_injective same

theorem ResourceDomain.tag_injective {left right : ResourceDomain} (same : left.tag = right.tag) :
    left = right := by
  cases left <;> cases right <;> first | rfl | cases same

theorem FileKind.tag_injective {left right : FileKind} (same : left.tag = right.tag) :
    left = right := by
  cases left <;> cases right <;> first | rfl | cases same

theorem encodeOrigin_delimiting : SelfDelimiting encodeOrigin FileOrigin.Addressable := by
  intro left right leftIn rightIn leftRest rightRest same
  cases left with
  | user =>
    cases right with
    | user => exact ⟨rfl, List.append_cancel_left same⟩
    | resolved request => cases same
    | generated => cases same
  | generated =>
    cases right with
    | user => cases same
    | resolved request => cases same
    | generated => exact ⟨rfl, List.append_cancel_left same⟩
  | resolved request => ?_
  cases right with
  | user => cases same
  | generated => cases same
  | resolved other => ?_
  cases request with
  | mk domain kind name natural => ?_
  cases other with
  | mk otherDomain otherKind otherName otherNatural => ?_
  simp only [encodeOrigin, List.cons_append, List.nil_append, List.append_assoc,
    List.cons.injEq, true_and] at same
  obtain ⟨sameDomain, sameKind, names⟩ := same
  rw [← List.append_assoc, ← List.append_assoc] at names
  obtain ⟨sameName, sameRest⟩ :=
    encodeText_delimiting name otherName leftIn rightIn _ _ names
  cases ResourceDomain.tag_injective sameDomain
  cases FileKind.tag_injective sameKind
  cases sameName
  exact ⟨rfl, sameRest⟩

def VirtualFile.view (file : VirtualFile) : ContentIdentity × FileOrigin :=
  (file.contentId, file.origin)

def encodeView (entry : VirtualPath × ContentIdentity × FileOrigin) : Bytes :=
  (encodeLength (utf8 entry.1.text).length ++ utf8 entry.1.text) ++
    (entry.2.1.bytes ++ encodeOrigin entry.2.2)

def ViewAddressable (entry : VirtualPath × ContentIdentity × FileOrigin) : Prop :=
  Addressable entry.1.text ∧ entry.2.1.bytes.length = 32 ∧ entry.2.2.Addressable

theorem contentId_length (file : VirtualFile) : file.contentId.bytes.length = 32 := by
  unfold VirtualFile.contentId FileContentId.forBytes ContentIdentity.forDomain hashV2Parts
    V2Hasher.finish
  simp [leBytesOfWord]

theorem encodeEntry_eq (entry : VirtualPath × VirtualFile) :
    encodeEntry entry = encodeView (entry.1, entry.2.view) := by
  unfold encodeEntry encodeView VirtualFile.view
  simp only [List.append_assoc]

theorem encodeView_delimiting : SelfDelimiting encodeView ViewAddressable := by
  have content : SelfDelimiting ContentIdentity.bytes fun id => id.bytes.length = 32 :=
    .ofLength (fun _ sized => sized) fun left right _ _ same => by
      cases left
      cases right
      exact congrArg ContentIdentity.mk same
  have text : SelfDelimiting
      (fun path : VirtualPath => encodeLength (utf8 path.text).length ++ utf8 path.text)
      fun path => Addressable path.text :=
    encodeText_delimiting.comap (fun _ within => within) fun left right _ _ same => by
      cases left
      cases right
      exact congrArg mk same
  exact text.append (content.append encodeOrigin_delimiting)

def FileMap.views (files : FileMap) : List (VirtualPath × ContentIdentity × FileOrigin) :=
  files.entries.map fun entry => (entry.1, entry.2.view)

theorem encodeMap_eq (tag : UInt8) (files : FileMap) : encodeMap tag files =
      [tag] ++ (encodeLength files.views.length ++ files.views.flatMap encodeView) := by
  unfold encodeMap FileMap.views OrderedMap.size
  rw [List.length_map, List.flatMap_map, List.append_assoc, funext encodeEntry_eq]

theorem FileMap.Addressable.views (addressable : files.Addressable) :
    files.views.length < Bytes.span 8 ∧ ∀ view ∈ files.views, ViewAddressable view := by
  obtain ⟨size, entries⟩ := addressable
  unfold FileMap.views
  rw [List.length_map]
  refine ⟨size, ?_⟩
  intro view listed
  obtain ⟨entry, member, rfl⟩ := List.mem_map.mp listed
  obtain ⟨path, origin⟩ := entries entry member
  exact ⟨path, contentId_length entry.2, origin⟩

variable {tag : UInt8} {left right : FileMap}

/-- Encoded layers followed by anything determine their views and what follows. -/
theorem encodeMap_delimiting (leftIn : left.Addressable) (rightIn : right.Addressable)
    {leftRest rightRest : Bytes}
    (same : encodeMap tag left ++ leftRest = encodeMap tag right ++ rightRest) :
    left.views = right.views ∧ leftRest = rightRest := by
  have delimiting := SelfDelimiting.mark [tag]
    (SelfDelimiting.counted (SelfDelimiting.le 8) encodeView_delimiting)
  rw [encodeMap_eq, encodeMap_eq] at same
  exact delimiting _ _ leftIn.views rightIn.views _ _ same

/-- Two layers hold the same paths with the same content identities and origins. -/
def FileMap.SameFiles (left right : FileMap) : Prop :=
  ∀ path, (left.get? path).map VirtualFile.view = (right.get? path).map VirtualFile.view

theorem FileMap.views_eq_iff {root other : VirtualPath → Bool} (leftLayer : left.Layer root)
    (rightLayer : right.Layer other) : left.views = right.views ↔ left.SameFiles right :=
  OrderedMap.viewed_entries_eq_iff VirtualFile.view leftLayer.ordered rightLayer.ordered

theorem encodeMap_congr (same : left.views = right.views) :
    encodeMap tag left = encodeMap tag right := by
  rw [encodeMap_eq, encodeMap_eq, same]

namespace VfsSnapshot

def pending (snapshot : VfsSnapshot) : FileMap :=
  snapshot.pendingGenerated.getD .empty

def preimage (snapshot : VfsSnapshot) : Bytes :=
  snapshot.generation.preimage snapshot.pendingGenerated

structure Addressable (snapshot : VfsSnapshot) : Prop where
  user : snapshot.generation.user.Addressable
  resolved : snapshot.generation.resolved.Addressable
  acceptedGenerated : snapshot.generation.acceptedGenerated.Addressable
  pending : snapshot.pending.Addressable

structure SameLayers (left right : VfsSnapshot) : Prop where
  user : left.generation.user.SameFiles right.generation.user
  resolved : left.generation.resolved.SameFiles right.generation.resolved
  acceptedGenerated :
    left.generation.acceptedGenerated.SameFiles right.generation.acceptedGenerated
  pending : left.pending.SameFiles right.pending

theorem Layered.pending_layer {snapshot : VfsSnapshot} (layered : snapshot.Layered) :
    snapshot.pending.Layer isJob := by
  unfold VfsSnapshot.pending
  cases held : snapshot.pendingGenerated with
  | none => exact FileMap.layer_empty _
  | some files => exact layered.pending files held

theorem preimage_eq_iff {left right : VfsSnapshot} (leftLayered : left.Layered)
    (rightLayered : right.Layered) (leftIn : left.Addressable) (rightIn : right.Addressable) :
    left.preimage = right.preimage ↔ left.SameLayers right := by
  have user := FileMap.views_eq_iff leftLayered.generation.user rightLayered.generation.user
  have resolved :=
    FileMap.views_eq_iff leftLayered.generation.resolved rightLayered.generation.resolved
  have accepted := FileMap.views_eq_iff leftLayered.generation.acceptedGenerated
    rightLayered.generation.acceptedGenerated
  have pendings := FileMap.views_eq_iff leftLayered.pending_layer rightLayered.pending_layer
  unfold preimage StorageGeneration.preimage
  simp only [List.append_assoc]
  constructor
  · intro same
    obtain ⟨users, same⟩ :=
      encodeMap_delimiting leftIn.user rightIn.user (List.append_cancel_left same)
    obtain ⟨resolveds, same⟩ := encodeMap_delimiting leftIn.resolved rightIn.resolved same
    obtain ⟨accepteds, same⟩ :=
      encodeMap_delimiting leftIn.acceptedGenerated rightIn.acceptedGenerated same
    have last : encodeMap 4 left.pending ++ [] = encodeMap 4 right.pending ++ [] := by
      rw [List.append_nil, List.append_nil]
      exact same
    obtain ⟨lasts, _⟩ := encodeMap_delimiting leftIn.pending rightIn.pending last
    exact ⟨user.mp users, resolved.mp resolveds, accepted.mp accepteds, pendings.mp lasts⟩
  intro same
  have last : encodeMap 4 (left.pendingGenerated.getD .empty) =
      encodeMap 4 (right.pendingGenerated.getD .empty) :=
    encodeMap_congr (pendings.mpr same.pending)
  rw [encodeMap_congr (user.mpr same.user), encodeMap_congr (resolved.mpr same.resolved),
    encodeMap_congr (accepted.mpr same.acceptedGenerated), last]

end VfsSnapshot

theorem StorageGeneration.layered_empty : StorageGeneration.empty.Layered :=
  ⟨FileMap.layer_empty _, FileMap.layer_empty _, FileMap.layer_empty _⟩

namespace ProjectWorkspace

variable {workspace : ProjectWorkspace}

theorem registerUser_layered {path : VirtualPath} {bytes : Bytes}
    (layered : workspace.storage.Layered) :
    (workspace.registerUser path bytes).1.storage.Layered := by
  have registered := registerUser_registered workspace path bytes
  by_cases job : path.isJob = true
  · generalize workspace.registerUser path bytes = reply at registered ⊢
    cases registered with
    | failed fault => exact layered
    | replaced _ _ => exact ⟨layered.user.insert job, layered.resolved, layered.acceptedGenerated⟩
  have refused : workspace.registerUser path bytes =
      (workspace, .error (.error (.invalidPath path))) := dif_neg job
  rw [refused]
  exact layered

theorem provisionInner_layered (response : ResolvedFile) (mustBeExpected : Bool)
    (layered : workspace.storage.Layered) :
    (workspace.provisionInner response mustBeExpected).1.storage.Layered := by
  have provisioned := provisionInner_provisioned workspace response mustBeExpected
  generalize workspace.provisionInner response mustBeExpected = reply at provisioned ⊢
  cases provisioned with
  | failed fault => exact layered
  | repeated _ _ => exact layered
  | shared _ _ _ _ _ => exact layered
  | registered canonical _ _ _ _ =>
    have rooted := distribution_isDistribution canonical
    exact ⟨layered.user, layered.resolved.insert rooted, layered.acceptedGenerated⟩

theorem provisionUnavailable_layered (request : FileRequestKey)
    (layered : workspace.storage.Layered) :
    (workspace.provisionUnavailable request).1.storage.Layered := by
  have made := provisionUnavailable_madeUnavailable workspace request
  generalize workspace.provisionUnavailable request = reply at made ⊢
  cases made with
  | failed fault => exact layered
  | repeated => exact layered
  | inserted _ _ => exact layered

theorem apply_layered (command : WorkspaceCommand) (layered : workspace.storage.Layered) :
    (workspace.apply command).1.storage.Layered := by
  cases command with
  | registerUser path bytes => exact registerUser_layered layered
  | expect batch => exact layered
  | authorizePrefetchHints requests => exact layered
  | authorizeBlockingFile request intent =>
    rw [show (workspace.apply (.authorizeBlockingFile request intent)).1 =
      (workspace.authorizeBlockingFile request intent).1 from rfl]
    unfold authorizeBlockingFile
    split
    · exact layered
    · exact layered
  | noteExists request =>
    rw [show (workspace.apply (.noteExists request)).1 = workspace.noteExists request from rfl]
    exact layered
  | provision response => exact provisionInner_layered response true layered
  | provisionUnavailable request => exact provisionUnavailable_layered request layered
  | provisionBatch responses =>
    exact @provisionBatch_invariant workspace (fun reached => reached.storage.Layered)
      (fun _ response held => provisionInner_layered response true held) responses layered
  | preload response => exact provisionInner_layered response false layered
  | retry =>
    rw [show (workspace.apply .retry).1 = workspace.retry.1 from rfl]
    unfold ProjectWorkspace.retry
    dsimp only
    split
    · exact layered
    · exact layered
  | cancelOutstandingResources => exact layered
  | clearGeneratedOutputs =>
    exact ⟨layered.user, layered.resolved, FileMap.layer_empty _⟩
  | clear => exact ⟨layered.user, FileMap.layer_empty _, layered.acceptedGenerated⟩

end ProjectWorkspace

structure GeneratedTransaction.Layered (transaction : GeneratedTransaction) : Prop where
  base : transaction.base.Layered
  pending : transaction.pending.Layer isJob

theorem GeneratedTransaction.write_layered {transaction : GeneratedTransaction}
    (path : VirtualPath) (bytes : Bytes) (layered : transaction.Layered) :
    (transaction.write path bytes).1.Layered := by
  unfold GeneratedTransaction.write
  split
  next job =>
    split
    · exact layered
    · exact ⟨layered.base, layered.pending.insert job⟩
  next => exact layered

structure Project.Layered (project : Project) : Prop where
  workspace : project.workspace.storage.Layered
  transaction : ∀ transaction, project.transaction = some transaction → transaction.Layered

theorem Project.Layered.run {project next : Project} {command : Command} {answer : Answer}
    (layered : project.Layered) (ran : project.run command = some (next, answer)) :
    next.Layered := by
  unfold Project.run at ran
  cases held : project.transaction with
  | none =>
    cases command with
    | workspace inner =>
      simp only [held, Option.some.injEq, Prod.mk.injEq] at ran
      obtain ⟨rfl, _⟩ := ran
      refine ⟨ProjectWorkspace.apply_layered inner layered.workspace, ?_⟩
      intro transaction some_
      cases some_
    | beginGenerated =>
      simp only [held, Option.some.injEq, Prod.mk.injEq] at ran
      obtain ⟨rfl, _⟩ := ran
      refine ⟨layered.workspace, ?_⟩
      rintro transaction ⟨⟩
      exact ⟨layered.workspace, FileMap.layer_empty _⟩
    | write path bytes => simp [held] at ran
    | accept => simp [held] at ran
    | discard => simp [held] at ran
  | some transaction => ?_
  have pending := layered.transaction transaction held
  cases command with
  | workspace inner => simp [held] at ran
  | beginGenerated => simp [held] at ran
  | write path bytes =>
    simp only [held, Option.some.injEq, Prod.mk.injEq] at ran
    obtain ⟨rfl, _⟩ := ran
    refine ⟨layered.workspace, ?_⟩
    rintro written ⟨⟩
    exact GeneratedTransaction.write_layered path bytes pending
  | accept =>
    simp only [held, Option.some.injEq, Prod.mk.injEq] at ran
    obtain ⟨rfl, _⟩ := ran
    refine ⟨⟨layered.workspace.user, layered.workspace.resolved, pending.pending⟩, ?_⟩
    rintro ended ⟨⟩
  | discard => ?_
  simp only [held, Option.some.injEq, Prod.mk.injEq] at ran
  obtain ⟨rfl, _⟩ := ran
  refine ⟨layered.workspace, ?_⟩
  rintro ended ⟨⟩

theorem Project.Layered.copyFrom {project next : Project} {source : ProjectWorkspace}
    {answer : Answer} (layered : project.Layered) (sourced : source.storage.Layered)
    (ran : project.copyFrom source = some (next, answer)) : next.Layered := by
  obtain ⟨rfl, _⟩ := Project.copyFrom_cases ran
  have copied := ProjectWorkspace.copyResolvedBindingsFrom_copied project.workspace source
  generalize project.workspace.copyResolvedBindingsFrom source = reply at copied ⊢
  cases copied with
  | failed fault => exact ⟨layered.workspace, layered.transaction⟩
  | taken _ _ _ =>
    exact ⟨⟨layered.workspace.user, sourced.resolved, layered.workspace.acceptedGenerated⟩,
      layered.transaction⟩

def SnapshotHandle.Layered (handle : SnapshotHandle) : Prop :=
  handle.generation.Layered ∧
    ∀ files, handle.pendingGenerated = some files → files.Layer isJob

theorem SnapshotHandle.Layered.read {handle : SnapshotHandle} (layered : handle.Layered)
    (validity : Validity) : (handle.read validity).Layered :=
  ⟨layered.1, layered.2⟩

namespace Observed

variable {observed next later : Observed} {command : ObservedCommand} {handle : SnapshotHandle}

structure Sound (observed : Observed) : Prop where
  project : observed.project.Layered
  captured : ∀ handle ∈ observed.captured, handle.Layered
  placed : ∀ handle ∈ observed.captured, handle.place < observed.validity.length
  issued : observed.project.transaction = none → observed.issued = []

theorem length_invalidateAll (places : List Nat) (validity : Validity) :
    (invalidateAll places validity).length = validity.length := by
  induction places generalizing validity with
  | nil => rfl
  | cons place rest ih => exact (ih _).trans List.length_set

theorem Sound.capture (sound : observed.Sound) {generation : StorageGeneration}
    {pending : Option FileMap} (layered : generation.Layered)
    (pendingLayered : ∀ files, pending = some files → files.Layer isJob) :
    (observed.capture generation pending).Sound where
  project := sound.project
  captured := by
    intro handle held
    rcases List.mem_append.mp held with earlier | fresh
    · exact sound.captured handle earlier
    rw [List.mem_singleton.mp fresh]
    exact ⟨layered, pendingLayered⟩
  placed := by
    intro handle held
    unfold Observed.capture
    rw [List.length_append, List.length_singleton]
    rcases List.mem_append.mp held with earlier | fresh
    · exact Nat.lt_succ_of_lt (sound.placed handle earlier)
    rw [List.mem_singleton.mp fresh]
    exact Nat.lt_succ_self _
  issued := sound.issued

variable {project : Project} {answer : Answer}

theorem ends_transaction {next : Project} {command : Command}
    (ran : project.run command = some (next, answer)) (open_ : command.ends = false)
    (closed : next.transaction = none) : project.transaction = none := by
  unfold Project.run at ran
  cases held : project.transaction with
  | none => rfl
  | some transaction => ?_
  cases command with
  | workspace inner => simp [held] at ran
  | beginGenerated => simp [held] at ran
  | write path bytes =>
    simp only [held, Option.some.injEq, Prod.mk.injEq] at ran
    obtain ⟨rfl, _⟩ := ran
    cases closed
  | accept => cases open_
  | discard => cases open_

theorem Sound.settle (sound : observed.Sound) {command : Command}
    (ran : observed.project.run command = some (project, answer)) :
    (observed.settle command project).Sound := by
  have layered := sound.project.run ran
  unfold Observed.settle
  by_cases ends : command.ends = true
  · rw [if_pos ends]
    refine ⟨layered, sound.captured, ?_, fun _ => rfl⟩
    intro handle held
    rw [length_invalidateAll]
    exact sound.placed handle held
  rw [if_neg ends]
  refine ⟨layered, sound.captured, sound.placed, ?_⟩
  intro closed
  exact sound.issued (ends_transaction ran (Bool.eq_false_iff.mpr ends) closed)

theorem Sound.run (sound : observed.Sound)
    (sourced : ∀ source, command = .copy source → source.storage.Layered)
    (ran : observed.run command = some next) : next.Sound := by
  cases command with
  | project inner =>
    unfold Observed.run at ran
    dsimp only at ran
    split at ran
    next => cases ran
    next project answer stepped =>
      cases ran
      exact sound.settle stepped
  | copy source =>
    unfold Observed.run at ran
    dsimp only at ran
    split at ran
    next => cases ran
    rename_i project answer copied
    cases ran
    have layered := sound.project.copyFrom (sourced source rfl) copied
    obtain ⟨rfl, _⟩ := Project.copyFrom_cases copied
    exact ⟨layered, sound.captured, sound.placed, sound.issued⟩
  | snapshot =>
    unfold Observed.run at ran
    dsimp only at ran
    split at ran
    next => cases ran
    cases ran
    exact sound.capture sound.project.workspace fun _ absent => by cases absent
  | candidate =>
    unfold Observed.run at ran
    dsimp only at ran
    split at ran
    next => cases ran
    rename_i transaction held
    cases ran
    have layered := sound.project.transaction transaction held
    have taken := @Sound.capture observed sound transaction.base (some transaction.pending)
      layered.base fun files same => Option.some.inj same ▸ layered.pending
    refine ⟨taken.project, taken.captured, taken.placed, ?_⟩
    intro closed
    cases held.symm.trans closed
  | invalidate handle => ?_
  cases ran
  refine ⟨sound.project, sound.captured, ?_, sound.issued⟩
  intro other held
  rw [List.length_set]
  exact sound.placed other held

theorem new_sound {limits : VfsLimits} {workspace : ProjectWorkspace}
    (created : ProjectWorkspace.new limits = .ok workspace) : (new workspace).Sound := by
  unfold ProjectWorkspace.new at created
  split at created
  · cases created
  cases created
  refine ⟨⟨StorageGeneration.layered_empty, fun _ absent => by cases absent⟩, ?_, ?_, fun _ => rfl⟩
  · exact fun _ absent => absurd absent List.not_mem_nil
  · exact fun _ absent => absurd absent List.not_mem_nil

end Observed

theorem ObservedReachable.sound {observed : Observed} (reachable : ObservedReachable observed) :
    observed.Sound := by
  induction reachable with
  | new created => exact Observed.new_sound created
  | run _ plain ran ih => exact ih.run (fun source same => absurd same (plain source)) ran
  | @copy observed source next _ _ ran ih sourceIH => ?_
  refine ih.run ?_ ran
  rintro _ ⟨⟩
  exact sourceIH.project.workspace

def ObservedCommand.invalidates (place : Nat) : ObservedCommand → Bool
  | .invalidate revoked => revoked.place = place
  | .project _ | .copy _ | .snapshot | .candidate => false

def ObservedCommand.ends : ObservedCommand → Bool
  | .project command => command.ends
  | .copy _ | .snapshot | .candidate | .invalidate _ => false

namespace Observed

variable {observed next later : Observed} {command : ObservedCommand} {handle : SnapshotHandle}
  {place : Nat}

def Valid (observed : Observed) (place : Nat) : Prop :=
  observed.validity.getD place false = true

/-- A place is invalidated by hand, or with the transaction that issued its snapshot. -/
def Revoked (observed : Observed) (commands : List ObservedCommand) (place : Nat) : Prop :=
  (∃ command ∈ commands, command.invalidates place = true) ∨
    (place ∈ observed.issued ∧ ∃ command ∈ commands, command.ends = true)

theorem getD_set (validity : Validity) (other place : Nat) :
    (validity.set other false).getD place false = true ↔
      validity.getD place false = true ∧ other ≠ place := by
  rw [List.getD_eq_getElem?_getD, List.getD_eq_getElem?_getD, List.getElem?_set]
  by_cases same : other = place
  · subst same
    by_cases within : other < validity.length
    · simp [within]
    · simp [within]
  · simp [same]

theorem getD_invalidateAll (places : List Nat) (validity : Validity) (place : Nat) :
    (invalidateAll places validity).getD place false = true ↔
      validity.getD place false = true ∧ place ∉ places := by
  induction places generalizing validity with
  | nil => simp [invalidateAll]
  | cons first rest ih => ?_
  have stepped : invalidateAll (first :: rest) validity =
      invalidateAll rest (validity.set first false) := rfl
  rw [stepped, ih, getD_set, List.mem_cons, not_or, and_assoc]
  exact and_congr Iff.rfl (and_congr ⟨Ne.symm, Ne.symm⟩ Iff.rfl)

structure Steps (observed : Observed) (command : ObservedCommand) (next : Observed) : Prop where
  grows : observed.validity.length ≤ next.validity.length
  captured : ∀ handle ∈ observed.captured, handle ∈ next.captured
  valid : ∀ place, place < observed.validity.length → (next.Valid place ↔
    observed.Valid place ∧ command.invalidates place = false ∧
      ¬(place ∈ observed.issued ∧ command.ends = true))
  issued : ∀ place, place < observed.validity.length → (place ∈ next.issued ↔
    place ∈ observed.issued ∧ command.ends = false)

theorem capture_valid (generation : StorageGeneration) (pending : Option FileMap)
    (within : place < observed.validity.length) :
    (observed.capture generation pending).Valid place ↔ observed.Valid place := by
  unfold Valid Observed.capture
  dsimp only
  rw [List.getD_eq_getElem?_getD, List.getD_eq_getElem?_getD, List.getElem?_append_left within]

theorem run_steps (ran : observed.run command = some next) : Steps observed command next := by
  cases command with
  | project inner =>
    unfold Observed.run at ran
    dsimp only at ran
    split at ran
    next => cases ran
    rename_i project answer stepped
    cases ran
    unfold settle
    cases ends : inner.ends with
    | true =>
      refine ⟨Nat.le_of_eq (length_invalidateAll _ _).symm, fun _ held => held, ?_, ?_⟩
      · intro place _
        unfold Valid
        rw [if_pos rfl, getD_invalidateAll]
        simp [ObservedCommand.invalidates, ObservedCommand.ends, ends]
      · simp [ObservedCommand.ends, ends]
    | false => ?_
    refine ⟨Nat.le_of_eq rfl, fun _ held => held, ?_, ?_⟩
    · simp [Valid, ObservedCommand.invalidates, ObservedCommand.ends, ends]
    · simp [ObservedCommand.ends, ends]
  | copy source =>
    unfold Observed.run at ran
    dsimp only at ran
    split at ran
    next => cases ran
    rename_i project answer copied
    cases ran
    refine ⟨Nat.le_of_eq rfl, fun _ held => held, ?_, ?_⟩
    · simp [Valid, ObservedCommand.invalidates, ObservedCommand.ends]
    · simp [ObservedCommand.ends]
  | snapshot =>
    unfold Observed.run at ran
    dsimp only at ran
    split at ran
    next => cases ran
    cases ran
    refine ⟨?_, fun _ held => List.mem_append_left _ held, ?_, ?_⟩
    · unfold Observed.capture
      rw [List.length_append]
      exact Nat.le_add_right ..
    · intro place within
      rw [capture_valid _ _ within]
      simp [ObservedCommand.invalidates, ObservedCommand.ends]
    · simp [Observed.capture, ObservedCommand.ends]
  | candidate =>
    unfold Observed.run at ran
    dsimp only at ran
    split at ran
    next => cases ran
    rename_i transaction held
    cases ran
    refine ⟨?_, fun _ held => List.mem_append_left _ held, ?_, ?_⟩
    · unfold Observed.capture
      rw [List.length_append]
      exact Nat.le_add_right ..
    · intro place within
      refine (capture_valid transaction.base (some transaction.pending) within).trans ?_
      simp [ObservedCommand.invalidates, ObservedCommand.ends]
    intro place within
    have apart : place ≠ observed.validity.length := Nat.ne_of_lt within
    simp [ObservedCommand.ends, apart]
  | invalidate handle => ?_
  cases ran
  refine ⟨Nat.le_of_eq List.length_set.symm, fun _ held => held, ?_, ?_⟩
  · intro place _
    unfold Valid
    rw [getD_set]
    simp [ObservedCommand.invalidates, ObservedCommand.ends]
  · simp [ObservedCommand.ends]

theorem runAll_keeps {commands : List ObservedCommand}
    (ran : observed.runAll commands = some later) :
    (∀ handle ∈ observed.captured, handle ∈ later.captured) ∧
      ∀ place, place < observed.validity.length →
        (later.Valid place ↔ observed.Valid place ∧ ¬observed.Revoked commands place) := by
  induction commands generalizing observed with
  | nil =>
    cases ran
    refine ⟨fun _ held => held, fun place _ => ?_⟩
    simp [Revoked]
  | cons command rest ih => ?_
  unfold runAll at ran
  cases stepped : observed.run command with
  | none => simp [stepped] at ran
  | some next => ?_
  simp only [stepped] at ran
  have steps := run_steps stepped
  obtain ⟨captured, valid⟩ := ih ran
  refine ⟨fun handle held => captured handle (steps.captured handle held), ?_⟩
  intro place within
  rw [valid place (Nat.lt_of_lt_of_le within steps.grows), steps.valid place within]
  unfold Revoked
  simp only [List.mem_cons, exists_eq_or_imp, steps.issued place within]
  generalize (∃ later ∈ rest, ObservedCommand.invalidates place later = true) = revoked
  generalize (∃ later ∈ rest, later.ends = true) = ended
  cases ObservedCommand.invalidates place command <;> cases command.ends <;>
    simp [and_assoc, and_comm, and_left_comm]

end Observed

/-- Reads of a snapshot under the validity of a later state: what it captured while it is
valid, and an error once it has been revoked. -/
structure SnapshotHandle.Isolated (handle : SnapshotHandle) (observed later : Observed)
    (commands : List ObservedCommand) : Prop where
  held : handle ∈ later.captured
  kept : observed.Valid handle.place → ¬observed.Revoked commands handle.place →
    ∀ path, (handle.read later.validity).get path =
      .ok (((handle.read observed.validity).layers path).findSome? (·.get? path))
  revoked : observed.Revoked commands handle.place →
    ∀ path, (handle.read later.validity).get path = .error .stale

/-- Snapshots are isolated until they are revoked, their listings agree with their lookup,
and their preimages tell their layers apart. -/
theorem snapshots_isolated_listed_identified {observed : Observed}
    (reachable : ObservedReachable observed) {handle : SnapshotHandle}
    (captured : handle ∈ observed.captured) :
    (∀ commands later, observed.runAll commands = some later →
      handle.Isolated observed later commands) ∧
    (observed.Valid handle.place → ∀ root : VirtualPath,
      root.isJob = true ∨ root.isDistribution = true → ∀ limit,
        (handle.read observed.validity).Lists root limit
          ((handle.read observed.validity).list root limit)) ∧
    (∀ other, ObservedReachable other → ∀ right ∈ other.captured,
      (handle.read observed.validity).Addressable → (right.read other.validity).Addressable →
        ((handle.read observed.validity).preimage = (right.read other.validity).preimage ↔
          (handle.read observed.validity).SameLayers (right.read other.validity))) := by
  have sound := reachable.sound
  have layered := sound.captured handle captured
  refine ⟨?_, ?_, ?_⟩
  · intro commands later ran
    obtain ⟨held, valid⟩ := Observed.runAll_keeps ran
    have here := valid handle.place (sound.placed handle captured)
    refine ⟨held handle captured, ?_, ?_⟩
    · intro fresh unrevoked path
      have still : (handle.read later.validity).valid = true := here.mpr ⟨fresh, unrevoked⟩
      rw [← VfsSnapshot.getValid_eq]
      exact if_pos still
    intro revoked path
    exact if_neg fun still => (here.mp still).2 revoked
  · intro valid root canonical limit
    have lists := VfsSnapshot.listInner_lists (layered.read observed.validity) canonical limit
    have listed : (handle.read observed.validity).list root limit =
        (handle.read observed.validity).listInner root.isJob root limit := if_pos valid
    rw [listed]
    exact lists
  intro other otherReachable right rightCaptured leftIn rightIn
  exact VfsSnapshot.preimage_eq_iff (layered.read _)
    ((otherReachable.sound.captured right rightCaptured).read _) leftIn rightIn

def draftPath : VirtualPath :=
  ⟨"/job/draft".toList⟩

def draftFile : VirtualFile :=
  ⟨draftPath, [1], .generated⟩

def draftTransaction : GeneratedTransaction :=
  { limits := .default
    base := .empty
    pending := OrderedMap.insert .empty draftPath draftFile
    logicalBytes := 1 }

def draftSnapshot : SnapshotHandle :=
  { generation := .empty, pendingGenerated := some draftTransaction.pending, place := 0 }

def drafted : Observed :=
  { project := { workspace := emptyWorkspace, transaction := some draftTransaction }
    captured := [draftSnapshot]
    validity := [true]
    issued := [0] }

theorem drafted_reachable : ObservedReachable drafted := by
  have begun : ObservedReachable
      ⟨⟨emptyWorkspace, some (.new .empty .default)⟩, [], [], []⟩ :=
    @ObservedReachable.run _ _ (.project .beginGenerated) (.new emptyWorkspace_created)
      (fun _ same => by cases same) rfl
  have written : ObservedReachable ⟨⟨emptyWorkspace, some draftTransaction⟩, [], [], []⟩ :=
    @ObservedReachable.run _ _ (.project (.write draftPath [1])) begun
      (fun _ same => by cases same) rfl
  exact @ObservedReachable.run _ _ .candidate written (fun _ same => by cases same) rfl

theorem snapshots_isolated_listed_identified_drafted :
    (draftSnapshot.read drafted.validity).get draftPath = .ok (some draftFile) ∧
      (draftSnapshot.read drafted.validity).list draftPath 1 = .ok [draftPath] ∧
      (draftSnapshot.read drafted.validity).Lists draftPath 1
        ((draftSnapshot.read drafted.validity).list draftPath 1) := by
  obtain ⟨isolated, lists, _⟩ :=
    snapshots_isolated_listed_identified drafted_reachable (List.mem_singleton_self draftSnapshot)
  have kept := (isolated [] drafted rfl).kept rfl (by simp [Observed.Revoked])
  exact ⟨(kept draftPath).trans rfl, rfl, lists rfl draftPath (.inl rfl) 1⟩

/-- The snapshot a transaction has issued stops answering once the transaction is accepted. -/
theorem accept_revokes_issued : ∃ later, drafted.runAll [.project .accept] = some later ∧
    (draftSnapshot.read drafted.validity).get draftPath = .ok (some draftFile) ∧
      (draftSnapshot.read later.validity).get draftPath = .error .stale :=
  ⟨_, rfl, rfl, rfl⟩

end Umber.Vfs
