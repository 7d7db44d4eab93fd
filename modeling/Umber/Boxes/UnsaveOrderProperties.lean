import Umber.Boxes.UnsaveProperties

/-! The walk over the saves of a group visits them in the order of `unsaveOrder`. -/

set_option autoImplicit false

namespace Umber.Boxes

open ExceptLib Umber.State Save

variable {R : References} {α : Type}

/-! ## Keys -/

/-- The saves of a group in the two stores: the records of the journal, and those of the
boxes, each with the number of journal entries before it. -/
inductive Interleaved (level base : Nat) :
    List (Save R) → List (Mutation R) → List DurableMutation → Prop
  | nil : Interleaved level base [] [] []
  | scalar {saves : List (Save R)} {records : List (Mutation R)} {boxes : List DurableMutation}
      {cell : StateCell} {record : Mutation R} :
      Interleaved level base saves records boxes → record.cell = cell →
        record.savedAt = some level →
        Interleaved level base (saves ++ [.scalar cell record]) (records ++ [record]) boxes
  | box {saves : List (Save R)} {records : List (Mutation R)} {boxes : List DurableMutation}
      {record : DurableMutation} :
      Interleaved level base saves records boxes →
        record.groupSavePosition = base + records.length →
        Interleaved level base (saves ++ [.box record]) records (boxes ++ [record])

theorem boxKey_eq {position index : Nat} (small : index < 4294967296) :
    position <<< 32 ||| index = position * 4294967296 + index :=
  JournalCell.shiftLeft_or position rfl small

theorem scalarKey_eq (index : Nat) : scalarKey index = index * 4294967296 + 4294967295 :=
  JournalCell.shiftLeft_or index rfl (by decide)

def ceiling (base scalars boxes : Nat) : Nat := (base + scalars) * 4294967296 + boxes

variable {level base key : Nat} {saves : List (Save R)} {records : List (Mutation R)}
  {boxes : List DurableMutation}

namespace Interleaved

variable (interleaved : Interleaved level base saves records boxes)
include interleaved

theorem keyed {cell : StateCell}
    {record : Mutation R} (member : .scalar cell record ∈ saves) : record.cell = cell := by
  induction interleaved with
  | nil => cases member
  | scalar _ named _ ih =>
    rcases List.mem_append.mp member with earlier | last
    · exact ih earlier
    cases List.mem_singleton.mp last
    exact named
  | box _ _ ih => ?_
  rcases List.mem_append.mp member with earlier | last
  · exact ih earlier
  · cases List.mem_singleton.mp last

theorem position :
    ∀ record ∈ boxes, base ≤ record.groupSavePosition ∧
      record.groupSavePosition ≤ base + records.length := by
  induction interleaved with
  | nil => exact nofun
  | scalar _ _ _ ih =>
    intro record member
    obtain ⟨low, high⟩ := ih record member
    rw [List.length_append, List.length_singleton]
    exact ⟨low, by omega⟩
  | box _ here ih => ?_
  intro record member
  rcases List.mem_append.mp member with earlier | last
  · exact ih record earlier
  rw [List.mem_singleton.mp last, here]
  exact ⟨Nat.le_add_right _ _, Nat.le_refl _⟩

theorem key_lt (small : boxes.length ≤ 4294967296) {index : Nat} {record : DurableMutation}
    (held : boxes[index]? = some record) :
    record.groupSavePosition <<< 32 ||| index < ceiling base records.length boxes.length := by
  obtain ⟨inside, _⟩ := List.getElem?_eq_some_iff.mp held
  obtain ⟨_, high⟩ := interleaved.position record (List.mem_of_getElem? held)
  rw [boxKey_eq (by omega), ceiling]
  have scaled := Nat.mul_le_mul_right 4294967296 high
  omega

theorem dense_saves (dense : ∀ save ∈ saves, save.isSparse = false) :
    (∀ record ∈ records, isExtendedRegisterCell record.cell = false) ∧
      ∀ record ∈ boxes, record.isSparse = false := by
  induction interleaved with
  | nil =>
    constructor
    · intro _ member
      cases member
    intro _ member
    cases member
  | @scalar saves records boxes cell record _ keyed _ ih =>
    obtain ⟨scalars, rest⟩ := ih fun save member => dense save (List.mem_append_left _ member)
    have last : isExtendedRegisterCell cell = false :=
      dense (.scalar cell record) (List.mem_append_right _ (List.mem_singleton.mpr rfl))
    refine ⟨fun held member => ?_, rest⟩
    rcases List.mem_append.mp member with earlier | same
    · exact scalars held earlier
    cases List.mem_singleton.mp same
    rw [keyed]
    exact last
  | @box saves records boxes record _ _ ih => ?_
  obtain ⟨scalars, rest⟩ := ih fun save member => dense save (List.mem_append_left _ member)
  have last : record.isSparse = false :=
    dense (.box record) (List.mem_append_right _ (List.mem_singleton.mpr rfl))
  refine ⟨scalars, fun held member => ?_⟩
  rcases List.mem_append.mp member with earlier | same
  · exact rest held earlier
  cases List.mem_singleton.mp same
  exact last

end Interleaved

/-! ## The boundary and the deferred records -/

def scalarBoundary (base : Nat) (records : List (Mutation R)) : Option Nat :=
  (records.findIdx? fun record => isExtendedRegisterCell record.cell).map fun index =>
    scalarKey (base + index)

def boxBoundary (boxes : List DurableMutation) : Option Nat :=
  (boxes.findIdx? DurableMutation.isSparse).bind fun index =>
    boxes[index]?.map fun record => record.groupSavePosition <<< 32 ||| index

def boundaryOf (base : Nat) (records : List (Mutation R)) (boxes : List DurableMutation) :
    Option Nat :=
  leastKey (scalarBoundary base records) (boxBoundary boxes)

theorem scalarBoundary_concat (base : Nat) (records : List (Mutation R)) (record : Mutation R) :
    scalarBoundary base (records ++ [record]) = (scalarBoundary base records).or
        (if isExtendedRegisterCell record.cell then some (scalarKey (base + records.length))
          else none) := by
  unfold scalarBoundary
  rw [List.findIdx?_append]
  cases records.findIdx? fun record => isExtendedRegisterCell record.cell with
  | some index => rfl
  | none => ?_
  cases sparse : isExtendedRegisterCell record.cell with
  | true => simp [sparse]
  | false => simp [sparse]

theorem boxBoundary_concat (boxes : List DurableMutation) (record : DurableMutation) :
    boxBoundary (boxes ++ [record]) = (boxBoundary boxes).or
        (if record.isSparse then some (record.groupSavePosition <<< 32 ||| boxes.length)
          else none) := by
  unfold boxBoundary
  rw [List.findIdx?_append]
  cases found : boxes.findIdx? DurableMutation.isSparse with
  | some index =>
    have inside : index < boxes.length := by
      have := List.findIdx?_eq_some_iff_findIdx_eq.mp found
      omega
    simp [List.getElem?_append_left inside, List.getElem?_eq_getElem inside]
  | none => ?_
  cases sparse : record.isSparse with
  | true => simp [sparse]
  | false => simp [sparse]

theorem scalarBoundary_lt (count : Nat)
    (first : scalarBoundary base records = some key) : key < ceiling base records.length count := by
  obtain ⟨index, found, rfl⟩ := Option.map_eq_some_iff.mp first
  have inside := List.findIdx?_eq_some_iff_findIdx_eq.mp found
  rw [scalarKey_eq, ceiling]
  have scaled : (base + index + 1) * 4294967296 ≤ (base + records.length) * 4294967296 :=
    Nat.mul_le_mul_right _ (by omega)
  omega

/-- The records of the sparse scalars, with their positions, the newest one first. -/
def deferredOf (base : Nat) : List (Mutation R) → List (Nat × Mutation R)
  | [] => []
  | record :: later =>
    deferredOf (base + 1) later ++
      if isExtendedRegisterCell record.cell then [(base, record)] else []

theorem deferredOf_append (base : Nat) (records later : List (Mutation R)) :
    deferredOf base (records ++ later) =
      deferredOf (base + records.length) later ++ deferredOf base records := by
  induction records generalizing base with
  | nil => simp [deferredOf]
  | cons record rest ih => ?_
  have shifted : base + 1 + rest.length = base + (record :: rest).length := by
    rw [List.length_cons]
    omega
  simp only [List.cons_append, deferredOf, ih, List.append_assoc, shifted]

theorem deferredOf_dense (dense : ∀ record ∈ records, isExtendedRegisterCell record.cell = false) :
    deferredOf base records = [] := by
  induction records generalizing base with
  | nil => rfl
  | cons record rest ih => ?_
  rw [deferredOf, ih fun held member => dense held (List.mem_cons_of_mem _ member),
    dense record List.mem_cons_self]
  rfl

theorem deferredOf_below :
    ∀ deferred ∈ deferredOf base records, deferred.1 < base + records.length := by
  induction records generalizing base with
  | nil =>
    intro deferred member
    cases member
  | cons record rest ih => ?_
  intro deferred member
  rw [List.length_cons]
  rcases List.mem_append.mp member with later | first
  · have below := ih deferred later
    omega
  split at first
  · rw [List.mem_singleton.mp first]
    dsimp only
    omega
  · cases first

namespace Interleaved

variable (interleaved : Interleaved level base saves records boxes)
include interleaved

section

variable (small : boxes.length ≤ 4294967296)
include small

theorem boxBoundary_lt (first : boxBoundary boxes = some key) :
    key < ceiling base records.length boxes.length := by
  obtain ⟨index, _, keyed⟩ := Option.bind_eq_some_iff.mp first
  obtain ⟨record, held, rfl⟩ := Option.map_eq_some_iff.mp keyed
  exact interleaved.key_lt small held

theorem boundary_lt (bounded : boundaryOf base records boxes = some key) :
    key < ceiling base records.length boxes.length := by
  unfold boundaryOf at bounded
  cases scalar : scalarBoundary base records with
  | none =>
    rw [scalar] at bounded
    exact interleaved.boxBoundary_lt small bounded
  | some first => ?_
  have below := scalarBoundary_lt boxes.length scalar
  rw [scalar] at bounded
  cases box : boxBoundary boxes with
  | none =>
    rw [box] at bounded
    cases bounded
    exact below
  | some second => ?_
  rw [box] at bounded
  cases bounded
  exact Nat.lt_of_le_of_lt (Nat.min_le_left _ _) below

theorem boundary_scalar (bounded : boundaryOf base records boxes = some key)
    (record : Mutation R) : boundaryOf base (records ++ [record]) boxes = some key := by
  have below := interleaved.boundary_lt small bounded
  unfold boundaryOf at bounded ⊢
  rw [scalarBoundary_concat]
  cases scalar : scalarBoundary base records with
  | some first =>
    rw [scalar] at bounded
    exact bounded
  | none => ?_
  rw [scalar] at bounded
  have box : boxBoundary boxes = some key := bounded
  rw [box]
  split
  · have least : min (scalarKey (base + records.length)) key = key := by
      rw [scalarKey_eq]
      unfold ceiling at below
      omega
    exact congrArg some least
  · rfl

end

theorem boundary_box {record : DurableMutation} (small : (boxes ++ [record]).length ≤ 4294967296)
    (bounded : boundaryOf base records boxes = some key)
    (here : record.groupSavePosition = base + records.length) :
    boundaryOf base records (boxes ++ [record]) = some key := by
  rw [List.length_append, List.length_singleton] at small
  have below := interleaved.boundary_lt (by omega) bounded
  unfold boundaryOf at bounded ⊢
  rw [boxBoundary_concat]
  cases box : boxBoundary boxes with
  | some first =>
    rw [box] at bounded
    exact bounded
  | none => ?_
  rw [box] at bounded
  cases scalar : scalarBoundary base records with
  | none =>
    rw [scalar] at bounded
    cases bounded
  | some first => ?_
  rw [scalar] at bounded
  cases bounded
  split
  · have least : min key (record.groupSavePosition <<< 32 ||| boxes.length) = key := by
      rw [boxKey_eq (by omega), here]
      unfold ceiling at below
      omega
    exact congrArg some least
  · rfl

end Interleaved

section

variable (unbounded : boundaryOf base records boxes = none)
include unbounded

theorem boundaryOf_eq_none : scalarBoundary base records = none ∧ boxBoundary boxes = none := by
  unfold boundaryOf at unbounded
  cases scalar : scalarBoundary base records <;> cases box : boxBoundary boxes <;>
    simp [scalar, box, leastKey] at unbounded ⊢

theorem boundary_first_scalar (record : Mutation R) : boundaryOf base (records ++ [record]) boxes =
      if isExtendedRegisterCell record.cell then some (scalarKey (base + records.length))
      else none := by
  obtain ⟨scalar, box⟩ := boundaryOf_eq_none unbounded
  unfold boundaryOf
  rw [scalarBoundary_concat, scalar, box]
  split <;> rfl

theorem boundary_first_box
    (record : DurableMutation) : boundaryOf base records (boxes ++ [record]) =
      if record.isSparse then some (record.groupSavePosition <<< 32 ||| boxes.length)
      else none := by
  obtain ⟨scalar, box⟩ := boundaryOf_eq_none unbounded
  unfold boundaryOf
  rw [scalar, boxBoundary_concat, box]
  split <;> rfl

end

section

variable (interleaved : Interleaved level base saves records boxes)
include interleaved

theorem Interleaved.boundary_le_scalar (small : boxes.length ≤ 4294967296) {record : Mutation R}
    (bounded : boundaryOf base (records ++ [record]) boxes = some key) :
    key ≤ scalarKey (base + records.length) := by
  cases before : boundaryOf base records boxes with
  | some earlier =>
    have below := interleaved.boundary_lt small before
    rw [interleaved.boundary_scalar small before] at bounded
    cases bounded
    rw [scalarKey_eq]
    unfold ceiling at below
    omega
  | none => ?_
  rw [boundary_first_scalar before] at bounded
  split at bounded
  · cases bounded
    exact Nat.le_refl _
  · cases bounded

theorem Interleaved.sparse_of_bounded  (bounded : boundaryOf base records boxes = some key) :
    ∃ save ∈ saves, save.isSparse = true := by
  by_cases present : ∃ save ∈ saves, save.isSparse = true
  · exact present
  have dense : ∀ save ∈ saves, save.isSparse = false := fun save member =>
    Bool.eq_false_iff.mpr fun sparse => present ⟨save, member, sparse⟩
  obtain ⟨scalars, others⟩ := interleaved.dense_saves dense
  have noScalar : scalarBoundary base records = none := by
    unfold scalarBoundary
    rw [List.findIdx?_eq_none_iff.mpr scalars]
    rfl
  have noBox : boxBoundary boxes = none := by
    unfold boxBoundary
    rw [List.findIdx?_eq_none_iff.mpr others]
    rfl
  unfold boundaryOf at bounded
  rw [noScalar, noBox] at bounded
  cases bounded

/-- Saves are all dense when they have no boundary. -/
theorem Interleaved.dense_of_unbounded 
    (small : boxes.length ≤ 4294967296) (unbounded : boundaryOf base records boxes = none) :
    ∀ save ∈ saves, save.isSparse = false := by
  induction interleaved with
  | nil =>
    intro _ member
    cases member
  | @scalar saves records boxes cell record earlier keyed _ ih =>
    cases before : boundaryOf base records boxes with
    | some key =>
      rw [earlier.boundary_scalar small before] at unbounded
      cases unbounded
    | none => ?_
    rw [boundary_first_scalar before, keyed] at unbounded
    intro save member
    rcases List.mem_append.mp member with inside | last
    · exact ih small before save inside
    cases List.mem_singleton.mp last
    cases sparse : isExtendedRegisterCell cell with
    | false => exact sparse
    | true =>
      rw [sparse] at unbounded
      cases unbounded
  | @box saves records boxes record earlier here ih => ?_
  have fewer : boxes.length ≤ 4294967296 := by
    rw [List.length_append, List.length_singleton] at small
    omega
  cases before : boundaryOf base records boxes with
  | some key =>
    rw [earlier.boundary_box small before here] at unbounded
    cases unbounded
  | none => ?_
  rw [boundary_first_box before] at unbounded
  intro save member
  rcases List.mem_append.mp member with inside | last
  · exact ih fewer before save inside
  cases List.mem_singleton.mp last
  cases sparse : record.isSparse with
  | false => exact sparse
  | true =>
    rw [sparse] at unbounded
    cases unbounded

end

/-! ## The sparse block -/

namespace Walk

variable {walk : Walk R α} {all : List DurableMutation} {front : Bool → List DurableMutation}

def passes : List (Nat × Mutation R) → Nat → Bool
  | [], _ => true
  | (index, _) :: _, key => scalarKey index < key

def settleDeferred : List (Nat × Mutation R) → Walk R α → Unsaving (Walk R α)
  | [], walk => .ok walk
  | (_, saved) :: later, walk => do
    let walk ← walk.restoreScalar saved
    restoreDeferred later walk

/-- The rest of the sparse block, with the rounds left to its first loop. -/
def sweep (deferred : List (Nat × Mutation R)) (rounds : Nat) (walk : Walk R α) :
    Unsaving (Walk R α) := do
  let walk ← restoreSparseBoxes (passes deferred) rounds walk
  settleDeferred deferred walk

theorem restoreDeferred_eq (deferred : List (Nat × Mutation R)) (walk : Walk R α) :
    restoreDeferred deferred walk = sweep deferred walk.rounds walk := by
  cases deferred with
  | nil =>
    change _ = (restoreSparseBoxes (fun _ => true) walk.rounds walk >>= fun walk => .ok walk)
    rw [restoreDeferred]
    cases restoreSparseBoxes (fun _ => true) walk.rounds walk with
    | error error => rfl
    | ok last => rfl
  | cons first later => rfl

variable {rounds : Nat}

theorem restoreSparseBoxes_stop {test : Nat → Bool} (stop : (walk.nextKey true).any test = false) :
    restoreSparseBoxes test rounds walk = .ok walk := by
  cases rounds with
  | zero => rfl
  | succ rounds =>
    rw [restoreSparseBoxes, stop]
    rfl

variable {deferred : List (Nat × Mutation R)}

theorem sweep_stop (stop : (walk.nextKey true).any (passes deferred) = false) :
    sweep deferred rounds walk = settleDeferred deferred walk := by
  unfold sweep
  rw [restoreSparseBoxes_stop stop]
  rfl

theorem sweep_box (next : (walk.nextKey true).any (passes deferred) = true) :
    sweep deferred (rounds + 1) walk = (do
      let walk ← walk.restoreBox true
      sweep deferred rounds walk) := by
  unfold sweep
  rw [restoreSparseBoxes, next]
  change ((walk.restoreBox true >>= _) >>= _) = _
  cases walk.restoreBox true with
  | error error => rfl
  | ok last => rfl

variable {index : Nat} {record : DurableMutation}

theorem passes_deferredOf (small : index < 4294967296)
    (here : record.groupSavePosition = base + records.length) :
    passes (deferredOf base records) (record.groupSavePosition <<< 32 ||| index) = true := by
  have below := @deferredOf_below R base records
  cases shape : deferredOf base records with
  | nil => rfl
  | cons first later => ?_
  have first_below := below first (by rw [shape]; exact List.mem_cons_self)
  have scaled : (first.1 + 1) * 4294967296 ≤ (base + records.length) * 4294967296 :=
    Nat.mul_le_mul_right _ (by omega)
  change decide (scalarKey first.1 < _) = true
  rw [scalarKey_eq, boxKey_eq small, here]
  exact decide_eq_true (by omega)

theorem SameRecords.trans {walk middle last : Walk R α} (first : SameRecords walk middle)
    (second : SameRecords middle last) : SameRecords walk last :=
  ⟨second.boundary.trans first.boundary, second.sparse.trans first.sparse⟩

section

variable (faces : Faces walk all front)
include faces

theorem Faces.front_le (sparse : Bool) : (front sparse).length ≤ walk.rounds := by
  rw [faces.rounds]
  exact (faces.stands.within sparse).length_le

variable (many : all.length ≤ 4294967296)
include many

theorem Faces.length_le
    {sparse : Bool} (ends : front sparse = boxes) : boxes.length ≤ 4294967296 := by
  have within := (faces.stands.within sparse).length_le
  rw [ends] at within
  omega

theorem Faces.length_lt
    {sparse : Bool} (ends : front sparse = boxes ++ [record]) : boxes.length < 4294967296 := by
  have small := faces.length_le many ends
  rw [List.length_append, List.length_singleton] at small
  omega

/-- The next box save stands below the record that was saved after all of them. -/
theorem Faces.nextKey_le {sparse : Bool}
    (interleaved : Interleaved level base saves records boxes) (ends : front sparse = boxes)
    (next : walk.nextKey sparse = some key) : key ≤ scalarKey (base + records.length) := by
  obtain ⟨index, mutation, found, _, rfl⟩ := faces.of_nextKey next
  rw [ends] at found
  have few := faces.length_le many ends
  have below := interleaved.key_lt few found
  rw [scalarKey_eq]
  unfold ceiling at below
  omega

end

structure Swept (walk : Walk R α) (all : List DurableMutation) (dense : List DurableMutation)
    (last : Walk R α) : Prop where
  faces : ∃ front : Bool → List DurableMutation,
    Faces last all front ∧ front true = [] ∧ front false = dense
  same : SameRecords walk last

/-- The sparse saves are restored in reverse save order. -/
theorem sweep_performs (interleaved : Interleaved level base saves records boxes)
    (many : all.length ≤ 4294967296) :
    ∀ {walk : Walk R α} {front : Bool → List DurableMutation} {rounds : Nat},
      Faces walk all front → front true = boxes → boxes.length ≤ rounds →
      Performs (sweep (deferredOf base records) rounds walk) walk
        (saves.filter isSparse).reverse (Swept walk all (front false)) := by
  induction interleaved with
  | nil =>
    intro walk front rounds faces ends _
    have stop : walk.nextKey true = none := faces.nextKey_none fun held member => by
      rw [ends] at member
      cases member
    rw [sweep_stop (by rw [stop]; rfl)]
    exact performs_ok rfl rfl rfl ⟨⟨front, faces, ends, rfl⟩, rfl, rfl⟩
  | @scalar saves records boxes cell record earlier keyed _ ih =>
    intro walk front rounds faces ends enough
    rw [deferredOf_append, deferredOf, deferredOf, keyed, List.nil_append, List.filter_append,
      List.reverse_append]
    cases sparse : isExtendedRegisterCell cell with
    | false =>
      have dropped : [scalar cell record].filter isSparse = [] :=
        List.filter_cons_of_neg (by rw [isSparse_scalar, sparse]; exact Bool.false_ne_true)
      rw [dropped]
      exact ih faces ends enough
    | true => ?_
    have held : [scalar cell record].filter isSparse = [.scalar cell record] :=
      List.filter_cons_of_pos sparse
    rw [held]
    have stop : (walk.nextKey true).any
        (passes ((base + records.length, record) :: deferredOf base records)) = false := by
      cases next : walk.nextKey true with
      | none => rfl
      | some key =>
        exact decide_eq_false (Nat.not_lt.mpr (faces.nextKey_le many earlier ends next))
    rw [if_pos rfl, List.cons_append, List.nil_append, sweep_stop stop]
    change Performs (walk.restoreScalar record >>= restoreDeferred (deferredOf base records))
      walk ([.scalar cell record] ++ _) _
    refine (restoreScalar_performs cell record).bind fun middle same => ?_
    have faces := faces.same same
    rw [restoreDeferred_eq]
    refine (ih faces ends (by rw [← ends]; exact faces.front_le true)).mono fun last swept => ?_
    exact ⟨swept.faces, SameRecords.trans ⟨same.boundary, same.sparse⟩ swept.same⟩
  | @box saves records boxes record earlier here ih => ?_
  intro walk front rounds faces ends enough
  rw [List.filter_append, List.reverse_append]
  rw [List.length_append, List.length_singleton] at enough
  cases sparse : record.isSparse with
  | false =>
    have dropped : [(box record : Save R)].filter isSparse = [] :=
      List.filter_cons_of_neg (by rw [isSparse_box, sparse]; exact Bool.false_ne_true)
    rw [dropped]
    have skipped := faces.skip ends (by rw [sparse]; exact Bool.false_ne_true)
    have swept := @ih walk _ rounds skipped (setAt_same _ _ _) (by omega)
    rw [setAt_other _ _ Bool.false_ne_true] at swept
    exact swept
  | true => ?_
  have held : [(box record : Save R)].filter isSparse = [.box record] :=
    List.filter_cons_of_pos sparse
  rw [held]
  obtain ⟨rounds, rfl⟩ : ∃ fewer, rounds = fewer + 1 := ⟨rounds - 1, by omega⟩
  have few := faces.length_lt many ends
  have next : (walk.nextKey true).any (passes (deferredOf base records)) = true := by
    rw [faces.nextKey ends sparse]
    exact passes_deferredOf few here
  rw [sweep_box next]
  refine (faces.restoreBox ends sparse).bind fun middle restored => ?_
  have swept := @ih middle _ rounds restored.1 (setAt_same _ _ _) (by omega)
  rw [setAt_other _ _ Bool.false_ne_true] at swept
  exact swept.mono fun last done => ⟨done.faces, restored.2.trans done.same⟩

/-- The sparse block, when every sparse save is still there. -/
theorem restoreSparse_performs (interleaved : Interleaved level base saves records all)
    (many : all.length ≤ 4294967296) (faces : Faces walk all front) (ends : front true = all)
    (deferred : walk.sparse = deferredOf base records) :
    Performs walk.restoreSparse walk (saves.filter isSparse).reverse fun last =>
      last.sparse = [] ∧ last.boundary = walk.boundary ∧ ∃ after : Bool → List DurableMutation,
          Faces last all after ∧ after true = [] ∧ after false = front false := by
  unfold restoreSparse
  rw [deferred, restoreDeferred_eq]
  have swept := @sweep_performs R α level base saves records all all interleaved many
    { walk with sparse := [] } front walk.rounds ⟨faces.stands, faces.boxed⟩ ends
    (Nat.le_of_eq faces.rounds.symm)
  exact swept.mono fun last done => ⟨done.same.sparse, done.same.boundary, done.faces⟩

/-! ## The rest of the walk -/

def positions (base : Nat) (records : List (Mutation R)) : List (JournalEntry R × Nat) :=
  ((records.map JournalEntry.mutation).zipIdx base).reverse

theorem positions_concat (base : Nat) (records : List (Mutation R)) (record : Mutation R) :
    positions base (records ++ [record]) =
      (.mutation record, base + records.length) :: positions base records := by
  unfold positions
  rw [List.map_append, List.zipIdx_append, List.reverse_append, List.length_map]
  rfl

/-- The dense box saves above this key are restored before the next position. -/
def limitOf : List (JournalEntry R × Nat) → Nat
  | [] => 0
  | (_, index) :: _ => scalarKey index

def finishing (frame : GroupFrame) (entries : List (JournalEntry R × Nat)) (walk : Walk R α) :
    Unsaving (Walk R α) := do
  let walk ← unsaveEntries frame entries walk
  let walk ← restoreBoxesAbove 0 walk.rounds walk
  walk.restoreSparse

def settling (frame : GroupFrame) : List (JournalEntry R × Nat) → Walk R α → Unsaving (Walk R α)
  | [], walk => walk.restoreSparse
  | (entry, index) :: earlier, walk => do
    let walk ← walk.settleEntry frame entry index
    finishing frame earlier walk

/-- The walk from a position on, with the rounds left to its first loop. -/
def ending (frame : GroupFrame) (entries : List (JournalEntry R × Nat)) (rounds : Nat)
    (walk : Walk R α) : Unsaving (Walk R α) := do
  let walk ← restoreBoxesAbove (limitOf entries) rounds walk
  settling frame entries walk

theorem finishing_eq (frame : GroupFrame) (entries : List (JournalEntry R × Nat))
    (walk : Walk R α) : finishing frame entries walk = ending frame entries walk.rounds walk := by
  cases entries with
  | nil => rfl
  | cons first earlier => ?_
  unfold finishing ending
  rw [unsaveEntries, bind_assoc]
  refine congrArg _ (funext fun middle => ?_)
  rw [bind_assoc]
  rfl

theorem restoreBoxesAbove_stop {limit : Nat} (stop : (walk.nextKey false).filter (limit < ·) = none) :
     restoreBoxesAbove limit rounds walk = .ok walk := by
  cases rounds with
  | zero => rfl
  | succ rounds =>
    rw [restoreBoxesAbove, stop]

variable {entries : List (JournalEntry R × Nat)} {frame : GroupFrame}

theorem ending_stop (stop : (walk.nextKey false).filter (limitOf entries < ·) = none) :
    ending frame entries rounds walk = settling frame entries walk := by
  unfold ending
  rw [restoreBoxesAbove_stop stop]
  rfl

theorem ending_box {key : Nat} (next : walk.nextKey false = some key)
    (above : limitOf entries < key) :
    ending frame entries (rounds + 1) walk = (do
      let walk ← walk.restoreSparseWhen (walk.boundary.any (key < ·))
      let walk ← walk.restoreBox false
      ending frame entries rounds walk) := by
  have selected : (walk.nextKey false).filter (limitOf entries < ·) = some key := by
    rw [next]
    simp [above]
  unfold ending
  rw [restoreBoxesAbove, selected]
  dsimp only
  rw [bind_assoc]
  refine congrArg _ (funext fun middle => ?_)
  rw [bind_assoc]

theorem limit_below (positive : 0 < base)
    (small : index < 4294967296) (here : record.groupSavePosition = base + records.length) :
    limitOf (positions base records) < record.groupSavePosition <<< 32 ||| index := by
  rw [boxKey_eq small, here]
  cases shape : records.reverse with
  | nil =>
    rw [List.reverse_eq_nil_iff.mp shape]
    change 0 < _
    omega
  | cons last earlier => ?_
  have split_ : records = earlier.reverse ++ [last] := by
    rw [← List.reverse_reverse records, shape, List.reverse_cons]
  rw [split_, positions_concat]
  change scalarKey _ < _
  rw [scalarKey_eq, List.length_append, List.length_singleton]
  omega

theorem ending_scalar (faces : Faces walk all front)
    (many : all.length ≤ 4294967296) (interleaved : Interleaved level base saves records boxes)
    (ends : front false = boxes) (record : Mutation R) :
    ending frame (positions base (records ++ [record])) rounds walk = (do
      let walk ← walk.settleEntry frame (.mutation record) (base + records.length)
      ending frame (positions base records) walk.rounds walk) := by
  rw [positions_concat]
  have stop : (walk.nextKey false).filter
      (limitOf ((JournalEntry.mutation record, base + records.length) :: positions base records) <
        ·) = none := by
    cases next : walk.nextKey false with
    | none => rfl
    | some key => ?_
    have low := faces.nextKey_le many interleaved ends next
    have passed : ¬ decide (scalarKey (base + records.length) < key) = true := by simpa using low
    exact if_neg passed
  rw [ending_stop stop]
  change (walk.settleEntry frame (.mutation record) (base + records.length) >>= _) = _
  exact congrArg _ (funext fun middle => finishing_eq frame _ middle)

theorem restoreEntry_eq {record : Mutation R}
    (saved : record.savedAt = some frame.level) (walk : Walk R α) :
    walk.restoreEntry frame index (.mutation record) =
      if isExtendedRegisterCell record.cell then
        .ok { walk with sparse := walk.sparse ++ [(index, record)] }
      else walk.restoreScalar record := by
  change (if record.savedAt = some frame.level then _ else _) = _
  rw [if_pos saved]

def Exhausted (walk : Walk R α) : Prop := ∀ sparse, walk.boxes.cursor sparse = none

theorem Faces.exhausted (faces : Faces walk all front) (dense : front false = [])
    (clear : ∀ held ∈ front true, held.isSparse = false) : Exhausted walk := by
  intro sparse
  rw [faces.stands.cursors]
  cases sparse with
  | false =>
    rw [dense]
    rfl
  | true => exact rposition_eq_none fun held member => by rw [clear held member]; rfl

theorem restoreSparse_empty (faces : Faces walk all front) (nothing : walk.sparse = [])
    (clear : ∀ held ∈ front true, held.isSparse = false) : walk.restoreSparse = .ok walk := by
  have kept : { walk with sparse := [] } = walk := by rw [← nothing]
  have stop : walk.nextKey true = none := faces.nextKey_none fun held member => by
    rw [clear held member]
    exact Bool.false_ne_true
  unfold restoreSparse
  rw [nothing, kept, restoreDeferred]
  exact restoreSparseBoxes_stop (by rw [stop]; rfl)

/-- Behind the sparse block the saves are restored backward. -/
theorem ending_flushed {frame : GroupFrame} (levels : frame.level = level)
    (interleaved : Interleaved level base saves records boxes)
    (many : all.length ≤ 4294967296) (positive : 0 < base)
    (dense : ∀ save ∈ saves, save.isSparse = false) :
    ∀ {walk : Walk R α} {front : Bool → List DurableMutation} {rounds : Nat},
      Faces walk all front → front false = boxes → boxes.length ≤ rounds →
      walk.boundary = none → walk.sparse = [] →
      (∀ held ∈ front true, held.isSparse = false) →
      Performs (ending frame (positions base records) rounds walk) walk saves.reverse
        Exhausted := by
  induction interleaved with
  | nil =>
    intro walk front rounds faces ends _ boundary nothing clear
    have stop : walk.nextKey false = none := faces.nextKey_none fun held member => by
      rw [ends] at member
      cases member
    rw [ending_stop (by rw [stop]; rfl)]
    change Performs walk.restoreSparse walk [] _
    rw [restoreSparse_empty faces nothing clear]
    exact performs_ok rfl rfl rfl (faces.exhausted ends clear)
  | @scalar saves records boxes cell record earlier keyed savedAt ih =>
    intro walk front rounds faces ends enough boundary nothing clear
    have last : isExtendedRegisterCell record.cell = false := by
      rw [keyed]
      exact dense (.scalar cell record) (List.mem_append_right _ (List.mem_singleton.mpr rfl))
    rw [ending_scalar faces many earlier ends, List.reverse_append]
    have settled : walk.settleEntry frame (.mutation record) (base + records.length) =
        walk.restoreScalar record >>= fun walk =>
          walk.restoreSparseWhen (walk.boundary = some (scalarKey (base + records.length))) := by
      unfold settleEntry
      rw [boundary]
      change (walk.restoreEntry frame _ _ >>= _) = _
      rw [restoreEntry_eq (by rw [savedAt, levels]), last]
      rfl
    rw [settled, bind_assoc]
    refine (restoreScalar_performs cell record).bind fun middle same => ?_
    have unbounded : middle.boundary = none := same.boundary.trans boundary
    rw [unbounded]
    change Performs (ending frame (positions base records) middle.rounds middle) middle _ _
    have faces := faces.same same
    exact ih (fun save member => dense save (List.mem_append_left _ member)) faces ends
      (by rw [← ends]; exact faces.front_le false) unbounded (same.sparse.trans nothing) clear
  | @box saves records boxes record earlier here ih => ?_
  intro walk front rounds faces ends enough boundary nothing clear
  have last : record.isSparse = false :=
    dense (.box record) (List.mem_append_right _ (List.mem_singleton.mpr rfl))
  rw [List.length_append, List.length_singleton] at enough
  obtain ⟨rounds, rfl⟩ : ∃ fewer, rounds = fewer + 1 := ⟨rounds - 1, by omega⟩
  have few := faces.length_lt many ends
  rw [ending_box (faces.nextKey ends last) (limit_below positive few here), boundary,
    List.reverse_append]
  change Performs (walk.restoreBox false >>= _) walk ([.box record] ++ saves.reverse) _
  refine (faces.restoreBox ends last).bind fun middle restored => ?_
  refine ih (fun save member => dense save (List.mem_append_left _ member)) restored.1
    (setAt_same _ _ _) (by omega) (restored.2.boundary.trans boundary)
    (restored.2.sparse.trans nothing) ?_
  rw [setAt_other _ _ (Ne.symm Bool.false_ne_true)]
  exact clear

structure Flushed (all : List DurableMutation) (dense : List DurableMutation) (last : Walk R α) :
    Prop where
  boundary : last.boundary = none
  sparse : last.sparse = []
  faces : ∃ front : Bool → List DurableMutation,
    Faces last all front ∧ front true = [] ∧ front false = dense

theorem restoreSparseWhen_performs {whole : List (Save R)} (complete : Interleaved level base whole records all)
    (many : all.length ≤ 4294967296) (faces : Faces walk all front) (ends : front true = all)
    (deferred : walk.sparse = deferredOf base records) :
    Performs (walk.restoreSparseWhen true) walk (whole.filter isSparse).reverse
      (Flushed all (front false)) := by
  have flushed := restoreSparse_performs complete many faces ends deferred
  have flagged : walk.restoreSparseWhen true =
      (walk.restoreSparse >>= fun last => .ok { last with boundary := none }) := rfl
  rw [flagged, ← List.append_nil (whole.filter isSparse).reverse]
  refine flushed.bind fun last done => ?_
  obtain ⟨after, faces, clear, dense⟩ := done.2.2
  exact performs_ok rfl rfl rfl ⟨rfl, done.1, after, ⟨faces.stands, faces.boxed⟩, clear, dense⟩

section Phases

variable {whole : List (Save R)} {allRecords : List (Mutation R)}
  {frame : GroupFrame}

/-- The walk before the sparse block: every sparse save is there, and the records behind the
position are deferred. -/
structure Unflushed (walk : Walk R α) (base : Nat) (all : List DurableMutation)
    (records later : List (Mutation R)) (boxes : List DurableMutation) (boundary : Nat) : Prop where
  faces : ∃ front : Bool → List DurableMutation,
    Faces walk all front ∧ front true = all ∧ front false = boxes
  sparse : walk.sparse = deferredOf (base + records.length) later
  boundary : walk.boundary = some boundary

variable {later : List (Mutation R)} {boundary : Nat}

def orderBefore (saves whole : List (Save R)) : List (Save R) :=
  ((saves.dropWhile fun save => !save.isSparse).filter fun save => !save.isSparse).reverse ++
    (whole.filter isSparse).reverse ++ (saves.takeWhile fun save => !save.isSparse).reverse

theorem while_concat {saves : List (Save R)} (save : Save R)
    (some_sparse : ∃ held ∈ saves, held.isSparse = true) :
    (saves ++ [save]).takeWhile (fun save => !save.isSparse) =
        saves.takeWhile (fun save => !save.isSparse) ∧
      (saves ++ [save]).dropWhile (fun save => !save.isSparse) =
        saves.dropWhile (fun save => !save.isSparse) ++ [save] := by
  induction saves with
  | nil =>
    obtain ⟨_, member, _⟩ := some_sparse
    cases member
  | cons first rest ih => ?_
  cases sparse : first.isSparse with
  | true => simp [sparse]
  | false => ?_
  have later : ∃ held ∈ rest, held.isSparse = true := by
    obtain ⟨held, member, selected⟩ := some_sparse
    rcases List.mem_cons.mp member with rfl | inside
    · rw [sparse] at selected
      cases selected
    · exact ⟨held, inside, selected⟩
  obtain ⟨taken, dropped⟩ := ih later
  simp [sparse, taken, dropped]

theorem orderBefore_concat {saves whole : List (Save R)} (save : Save R)
    (some_sparse : ∃ held ∈ saves, held.isSparse = true) : orderBefore (saves ++ [save]) whole =
      (if save.isSparse then [] else [save]) ++ orderBefore saves whole := by
  obtain ⟨taken, dropped⟩ := while_concat save some_sparse
  unfold orderBefore
  rw [taken, dropped, List.filter_append, List.reverse_append]
  cases sparse : save.isSparse with
  | true => simp [sparse]
  | false => simp [sparse]

theorem orderBefore_first {saves whole : List (Save R)} (save : Save R)
    (dense : ∀ held ∈ saves, held.isSparse = false) (sparse : save.isSparse = true) :
    orderBefore (saves ++ [save]) whole =
      (whole.filter isSparse).reverse ++ saves.reverse := by
  have passed : ∀ held ∈ saves, (!held.isSparse) = true := fun held member => by
    rw [dense held member]
    rfl
  unfold orderBefore
  rw [List.takeWhile_append_of_pos passed, List.dropWhile_append_of_pos passed]
  simp [sparse]

/-- A boundary at the key of the next record is that of the last save, which is a box. -/
theorem boundary_tie (interleaved : Interleaved level base saves records boxes)
    (small : boxes.length ≤ 4294967296)
    (tied : boundaryOf base records boxes = some (scalarKey (base + records.length))) :
    ∃ (earlier : List (Save R)) (head : DurableMutation) (fewer : List DurableMutation),
      saves = earlier ++ [.box head] ∧ boxes = fewer ++ [head] ∧ head.isSparse = true ∧
        Interleaved level base earlier records fewer ∧ boundaryOf base records fewer = none := by
  cases interleaved with
  | nil => cases tied
  | @scalar saves records boxes cell record earlier keyed _ =>
    rw [List.length_append, List.length_singleton, scalarKey_eq] at tied
    cases before : boundaryOf base records boxes with
    | some key =>
      have below := earlier.boundary_lt small before
      rw [earlier.boundary_scalar small before] at tied
      have same := Option.some.inj tied
      unfold ceiling at below
      omega
    | none => ?_
    rw [boundary_first_scalar before] at tied
    split at tied
    · have same := Option.some.inj tied
      rw [scalarKey_eq] at same
      omega
    · cases tied
  | @box saves records boxes record earlier here => ?_
  have few := small
  rw [List.length_append, List.length_singleton] at few
  cases before : boundaryOf base records boxes with
  | some key =>
    have below := earlier.boundary_lt (by omega) before
    rw [earlier.boundary_box small before here] at tied
    have same := Option.some.inj tied
    rw [scalarKey_eq] at same
    unfold ceiling at below
    omega
  | none => ?_
  rw [boundary_first_box before] at tied
  split at tied
  · rename_i sparse
    exact ⟨saves, record, boxes, rfl, rfl, sparse, earlier, before⟩
  · cases tied

/-- A record is restored, or deferred with those behind it. -/
theorem restoreEntry_performs {cell : StateCell} {record : Mutation R} (saved : record.savedAt = some frame.level)
    (keyed : record.cell = cell)
    (unflushed : Unflushed walk base all (records ++ [record]) later boxes boundary) :
    Performs (walk.restoreEntry frame (base + records.length) (.mutation record)) walk
      (if (scalar cell record).isSparse then [] else [.scalar cell record])
      fun middle => Unflushed middle base all records (record :: later) boxes boundary := by
  obtain ⟨front, faces, ends, fronted⟩ := unflushed.faces
  have deferred := unflushed.sparse
  rw [List.length_append, List.length_singleton] at deferred
  rw [restoreEntry_eq saved, keyed, isSparse_scalar]
  cases sparse : isExtendedRegisterCell cell with
  | true =>
    refine performs_ok rfl rfl rfl ⟨⟨front, ⟨faces.stands, faces.boxed⟩, ends, fronted⟩, ?_,
      unflushed.boundary⟩
    dsimp only
    rw [deferred, deferredOf, keyed, sparse]
    rfl
  | false => ?_
  refine (restoreScalar_performs cell record).mono fun middle same => ?_
  refine ⟨⟨front, faces.same same, ends, fronted⟩, ?_, same.boundary.trans unflushed.boundary⟩
  rw [same.sparse, deferred, deferredOf, keyed, sparse]
  exact (List.append_nil _).symm

theorem orderBefore_self (saves : List (Save R)) :
    orderBefore saves saves = unsaveOrder isSparse saves := by
  have none_earlier : (saves.takeWhile fun save => !save.isSparse).filter isSparse = [] := by
    refine List.filter_eq_nil_iff.mpr fun save member sparse => ?_
    have passed := List.all_eq_true.mp List.all_takeWhile save member
    rw [sparse] at passed
    cases passed
  have sparse : saves.filter isSparse =
      (saves.dropWhile fun save => !save.isSparse).filter isSparse := by
    have split_ := congrArg (List.filter isSparse)
      (@List.takeWhile_append_dropWhile _ (fun save : Save R => !save.isSparse) saves)
    rw [List.filter_append, none_earlier, List.nil_append] at split_
    exact split_.symm
  unfold orderBefore unsaveOrder
  rw [sparse]

theorem unsaveOrder_dense {saves : List (Save R)} (dense : ∀ save ∈ saves, save.isSparse = false) :
    unsaveOrder isSparse saves = saves.reverse := by
  have passed : ∀ save ∈ saves, (!save.isSparse) = true := fun save member => by
    rw [dense save member]
    rfl
  have taken := @List.takeWhile_append_of_pos _ _ saves [] passed
  have dropped := @List.dropWhile_append_of_pos _ _ saves [] passed
  rw [List.append_nil] at taken dropped
  unfold unsaveOrder
  simp [taken, dropped]

/-- Before the sparse block the backward walk leaves the sparse boxes out. -/
theorem Unflushed.skip {record : DurableMutation}
    (unflushed : Unflushed walk base all records later (boxes ++ [record]) boundary)
    (sparse : record.isSparse = true) : Unflushed walk base all records later boxes boundary := by
  obtain ⟨front, faces, ends, fronted⟩ := unflushed.faces
  refine ⟨⟨setAt front false boxes, faces.skip fronted
    (by rw [sparse]; exact Ne.symm Bool.false_ne_true), ?_, setAt_same _ _ _⟩,
    unflushed.sparse, unflushed.boundary⟩
  rw [setAt_other _ _ (Ne.symm Bool.false_ne_true)]
  exact ends

theorem Unflushed.restoreBox {record : DurableMutation}
    (unflushed : Unflushed walk base all records later (boxes ++ [record]) boundary)
    (dense : record.isSparse = false) : Performs (walk.restoreBox false) walk [.box record]
      fun middle => Unflushed middle base all records later boxes boundary := by
  obtain ⟨front, faces, ends, fronted⟩ := unflushed.faces
  refine (faces.restoreBox fronted dense).mono fun middle restored => ?_
  refine ⟨⟨_, restored.1, ?_, setAt_same _ _ _⟩, restored.2.sparse.trans unflushed.sparse,
    restored.2.boundary.trans unflushed.boundary⟩
  rw [setAt_other _ _ (Ne.symm Bool.false_ne_true)]
  exact ends

/-- Nothing stands between the position of a record and its own entry. -/
theorem ending_entry {record : Mutation R} {rounds : Nat} (many : all.length ≤ 4294967296)
    (earlier : Interleaved level base saves records boxes)
    (bounded : boundaryOf base (records ++ [record]) boxes = some boundary)
    (unflushed : Unflushed walk base all (records ++ [record]) later boxes boundary) :
    ending frame (positions base (records ++ [record])) rounds walk =
      (do
        let walk ← walk.restoreEntry frame (base + records.length) (.mutation record)
        let walk ← walk.restoreSparseWhen
          (walk.boundary = some (scalarKey (base + records.length)))
        ending frame (positions base records) walk.rounds walk) := by
  obtain ⟨front, faces, ends, fronted⟩ := unflushed.faces
  have low := earlier.boundary_le_scalar (faces.length_le many fronted) bounded
  have passed : walk.boundary.any (scalarKey (base + records.length) < ·) = false := by
    rw [unflushed.boundary]
    exact decide_eq_false (Nat.not_lt.mpr low)
  rw [ending_scalar faces many earlier fronted]
  unfold settleEntry
  rw [passed, bind_assoc]
  change ((walk.restoreEntry frame (base + records.length) (.mutation record) >>= _) >>= _) = _
  rw [bind_assoc]

variable (levels : frame.level = level) (complete : Interleaved level base whole allRecords all)
  (many : all.length ≤ 4294967296) (positive : 0 < base)
include levels complete many positive

/-- The sparse block stands right above the saves that are left. -/
theorem ending_due (interleaved : Interleaved level base saves records boxes)
    (dense : ∀ save ∈ saves, save.isSparse = false) (splits : allRecords = records ++ later)
    {rounds : Nat} (unflushed : Unflushed walk base all records later boxes boundary)
    (due : ceiling base records.length boxes.length ≤ boundary) (enough : boxes.length ≤ rounds) :
    Performs (ending frame (positions base records) rounds walk) walk
      ((whole.filter isSparse).reverse ++ saves.reverse) Exhausted := by
  have deferred : walk.sparse = deferredOf base allRecords := by
    rw [unflushed.sparse, splits, deferredOf_append,
      deferredOf_dense (interleaved.dense_saves dense).1, List.append_nil]
  obtain ⟨front, faces, ends, fronted⟩ := unflushed.faces
  have flush := restoreSparseWhen_performs complete many faces ends deferred
  rw [fronted] at flush
  cases interleaved with
  | nil =>
    have stop : walk.nextKey false = none := faces.nextKey_none fun held member => by
      rw [fronted] at member
      cases member
    rw [ending_stop (by rw [stop]; rfl), List.reverse_nil, List.append_nil]
    change Performs walk.restoreSparse walk _ _
    refine (restoreSparse_performs complete many faces ends deferred).mono fun last done => ?_
    obtain ⟨after, faces, clear, rest⟩ := done.2.2
    refine faces.exhausted (rest.trans fronted) fun held member => ?_
    rw [clear] at member
    cases member
  | @scalar saves records boxes cell record earlier keyed savedAt =>
    have interleaved := Interleaved.scalar earlier keyed savedAt
    rw [ending_scalar faces many earlier fronted]
    have above : walk.boundary.any (scalarKey (base + records.length) < ·) = true := by
      rw [unflushed.boundary]
      refine decide_eq_true ?_
      rw [scalarKey_eq]
      unfold ceiling at due
      rw [List.length_append, List.length_singleton] at due
      omega
    unfold settleEntry
    rw [above, bind_assoc]
    refine flush.bind fun middle flushed => ?_
    obtain ⟨after, faces, clear, rest⟩ := flushed.faces
    have ended := @ending_flushed R α level base _ _ _ all frame levels interleaved many positive
      dense middle after rounds faces rest enough flushed.boundary flushed.sparse
      (fun held member => by rw [clear] at member; cases member)
    rw [ending_scalar faces many earlier rest] at ended
    unfold settleEntry at ended
    rw [flushed.boundary] at ended
    exact ended
  | @box saves records boxes record earlier here => ?_
  have interleaved := Interleaved.box earlier here
  have last : record.isSparse = false :=
    dense (.box record) (List.mem_append_right _ (List.mem_singleton.mpr rfl))
  rw [List.length_append, List.length_singleton] at enough due
  obtain ⟨rounds, rfl⟩ : ∃ fewer, rounds = fewer + 1 := ⟨rounds - 1, by omega⟩
  have few := faces.length_lt many fronted
  have below := limit_below positive few here
  rw [ending_box (faces.nextKey fronted last) below]
  have above : walk.boundary.any ((record.groupSavePosition <<< 32 ||| boxes.length) < ·) =
      true := by
    rw [unflushed.boundary]
    refine decide_eq_true ?_
    rw [boxKey_eq few, here]
    unfold ceiling at due
    omega
  rw [above]
  refine flush.bind fun middle flushed => ?_
  obtain ⟨after, faces, clear, rest⟩ := flushed.faces
  have ended := @ending_flushed R α level base _ _ _ all frame levels interleaved many positive
    dense middle after (rounds + 1) faces rest
    (by rw [List.length_append, List.length_singleton]; exact enough) flushed.boundary
    flushed.sparse (fun held member => by rw [clear] at member; cases member)
  rw [ending_box (faces.nextKey rest last) below, flushed.boundary] at ended
  exact ended

/-- The sparse block, and the dense saves before it. -/
theorem flush_ending {fewer : List DurableMutation}
    (interleaved : Interleaved level base saves records fewer)
    (dense : ∀ save ∈ saves, save.isSparse = false) (splits : allRecords = records ++ later)
    (unflushed : Unflushed walk base all records later boxes boundary)
    (skips : boxes = fewer ∨ ∃ head, boxes = fewer ++ [head] ∧ head.isSparse = true) :
    Performs
      (do
        let last ← walk.restoreSparseWhen true
        ending frame (positions base records) last.rounds last)
      walk ((whole.filter isSparse).reverse ++ saves.reverse) Exhausted := by
  obtain ⟨front, faces, ends, fronted⟩ := unflushed.faces
  have deferred : walk.sparse = deferredOf base allRecords := by
    rw [unflushed.sparse, splits, deferredOf_append base records,
      deferredOf_dense (interleaved.dense_saves dense).1, List.append_nil]
  refine (restoreSparseWhen_performs complete many faces ends deferred).bind fun last flushed => ?_
  obtain ⟨after, faces, clear, rest⟩ := flushed.faces
  have noSparse : ∀ held ∈ after true, held.isSparse = false := fun held member => by
    rw [clear] at member
    cases member
  have enough := faces.front_le false
  rcases skips with rfl | ⟨head, rfl, sparse⟩
  · rw [rest, fronted] at enough
    exact ending_flushed levels interleaved many positive dense faces (rest.trans fronted) enough
      flushed.boundary flushed.sparse noSparse
  rw [rest, fronted, List.length_append, List.length_singleton] at enough
  have skipped := faces.skip (rest.trans fronted) (by rw [sparse]; exact Ne.symm Bool.false_ne_true)
  refine ending_flushed levels interleaved many positive dense skipped (setAt_same _ _ _)
    (by omega) flushed.boundary flushed.sparse fun held member => ?_
  rw [setAt_other _ _ (Ne.symm Bool.false_ne_true)] at member
  exact noSparse held member

/-- The sparse block right behind the record at its boundary. -/
theorem flush_tied (interleaved : Interleaved level base saves records boxes)
    (small : boxes.length ≤ 4294967296) (splits : allRecords = records ++ later)
    (unflushed : Unflushed walk base all records later boxes boundary)
    (tied : boundaryOf base records boxes = some (scalarKey (base + records.length))) :
    Performs
      (do
        let last ← walk.restoreSparseWhen true
        ending frame (positions base records) last.rounds last)
      walk (orderBefore saves whole) Exhausted := by
  obtain ⟨first, head, fewer, rfl, rfl, sparse, dense, unbounded⟩ :=
    boundary_tie interleaved small tied
  rw [List.length_append, List.length_singleton] at small
  have allDense := dense.dense_of_unbounded (by omega) unbounded
  rw [orderBefore_first (.box head) allDense sparse]
  exact flush_ending levels complete many positive dense allDense splits unflushed
    (.inr ⟨head, rfl, sparse⟩)

/-- The walk from a position whose saves are not all dense. -/
theorem ending_unflushed (interleaved : Interleaved level base saves records boxes) :
    ∀ {walk : Walk R α} {later : List (Mutation R)} {boundary rounds : Nat},
      allRecords = records ++ later → boundaryOf base records boxes = some boundary →
      Unflushed walk base all records later boxes boundary → boxes.length ≤ rounds →
      Performs (ending frame (positions base records) rounds walk) walk (orderBefore saves whole)
        Exhausted := by
  induction interleaved with
  | nil =>
    intro walk later boundary rounds _ bounded
    cases bounded
  | @scalar saves records boxes cell record earlier keyed savedAt ih =>
    intro walk later boundary rounds splits bounded unflushed enough
    obtain ⟨front, faces, ends, fronted⟩ := unflushed.faces
    have small := faces.length_le many fronted
    have entry := restoreEntry_performs (by rw [savedAt, levels]) keyed unflushed
    have resplit : allRecords = records ++ record :: later := by
      rw [splits, List.append_assoc]
      rfl
    rw [ending_entry many earlier bounded unflushed]
    cases before : boundaryOf base records boxes with
    | some key =>
      rw [earlier.boundary_scalar small before] at bounded
      cases bounded
      rw [orderBefore_concat _ (earlier.sparse_of_bounded before)]
      refine entry.bind fun middle unflushed => ?_
      obtain ⟨front, faces, ends, fronted⟩ := unflushed.faces
      rw [unflushed.boundary]
      by_cases tied : boundary = scalarKey (base + records.length)
      · rw [decide_eq_true (congrArg some tied)]
        exact flush_tied levels complete many positive earlier small resplit unflushed
          (by rw [before, tied])
      have apart : (some boundary = some (scalarKey (base + records.length))) = False :=
        eq_false fun same => tied (Option.some.inj same)
      rw [decide_eq_false (by rw [apart]; exact not_false)]
      refine ih resplit before unflushed ?_
      rw [← fronted]
      exact faces.front_le false
    | none => ?_
    rw [boundary_first_scalar before] at bounded
    split at bounded
    · rename_i sparse
      rw [keyed] at sparse
      cases bounded
      have dense := earlier.dense_of_unbounded small before
      rw [orderBefore_first (.scalar cell record) dense sparse]
      have held : (scalar cell record).isSparse = true := sparse
      rw [held, if_pos rfl] at entry
      refine entry.bind fun middle unflushed => ?_
      rw [unflushed.boundary, decide_eq_true rfl]
      exact flush_ending levels complete many positive earlier dense resplit unflushed (.inl rfl)
    · cases bounded
  | @box saves records boxes record earlier here ih => ?_
  intro walk later boundary rounds splits bounded unflushed enough
  obtain ⟨front, faces, ends, fronted⟩ := unflushed.faces
  have few := faces.length_lt many fronted
  have small : (boxes ++ [record]).length ≤ 4294967296 := by
    rw [List.length_append, List.length_singleton]
    omega
  rw [List.length_append, List.length_singleton] at enough
  cases sparse : record.isSparse with
  | true =>
    have skipped := unflushed.skip sparse
    cases before : boundaryOf base records boxes with
    | some key =>
      rw [earlier.boundary_box small before here] at bounded
      cases bounded
      rw [orderBefore_concat _ (earlier.sparse_of_bounded before), isSparse_box, sparse]
      exact ih splits before skipped (by omega)
    | none => ?_
    have dense := earlier.dense_of_unbounded (by omega) before
    rw [orderBefore_first (.box record) dense sparse]
    rw [boundary_first_box before, sparse] at bounded
    cases bounded
    refine ending_due levels complete many positive earlier dense splits skipped ?_ (by omega)
    rw [boxKey_eq few, here]
    exact Nat.le_refl _
  | false => ?_
  cases before : boundaryOf base records boxes with
  | none =>
    rw [boundary_first_box before, sparse] at bounded
    cases bounded
  | some key => ?_
  rw [earlier.boundary_box small before here] at bounded
  cases bounded
  have below := earlier.boundary_lt (by omega) before
  have passed : walk.boundary.any
      ((record.groupSavePosition <<< 32 ||| boxes.length) < ·) = false := by
    rw [unflushed.boundary]
    refine decide_eq_false (Nat.not_lt.mpr ?_)
    rw [boxKey_eq few, here]
    exact Nat.le_of_lt below
  obtain ⟨rounds, rfl⟩ : ∃ fewer, rounds = fewer + 1 := ⟨rounds - 1, by omega⟩
  rw [orderBefore_concat _ (earlier.sparse_of_bounded before), isSparse_box,
    sparse, ending_box (faces.nextKey fronted sparse) (limit_below positive few here),
    passed]
  change Performs (walk.restoreBox false >>= _) walk ([.box record] ++ _) _
  exact (unflushed.restoreBox sparse).bind fun middle restored =>
    ih splits before restored (by omega)

/-- The walk from its start visits every save, in order. -/
theorem finishing_performs (faces : Faces walk all fun _ => all) (nothing : walk.sparse = [])
    (bounded : walk.boundary = boundaryOf base allRecords all) :
    Performs (finishing frame (positions base allRecords) walk) walk
      (unsaveOrder isSparse whole) Exhausted := by
  rw [finishing_eq]
  have enough := faces.front_le false
  cases boundary : boundaryOf base allRecords all with
  | none =>
    have dense := complete.dense_of_unbounded many boundary
    rw [unsaveOrder_dense dense]
    exact ending_flushed levels complete many positive dense faces rfl enough
      (bounded.trans boundary) nothing (complete.dense_saves dense).2
  | some key => ?_
  rw [← orderBefore_self]
  refine ending_unflushed levels complete many positive complete (List.append_nil _).symm
    boundary ⟨⟨_, faces, rfl, rfl⟩, ?_, bounded.trans boundary⟩ enough
  rw [nothing, deferredOf]

end Phases

end Walk

end Umber.Boxes
