/-! Slot maps: values under generational names. A name is dead once its slot is
retired, and a slot is reused under a new incarnation. -/

set_option autoImplicit false

structure SlotId where
  slot : Nat
  incarnation : Nat
deriving DecidableEq

structure Slot (β : Type) where
  incarnation : Nat
  content : Option β

structure SlotMap (β : Type) where
  slots : List (Slot β)
  free : List Nat
  distinct : free.Nodup
  vacant : ∀ index ∈ free, ∃ slot, slots[index]? = some slot ∧ slot.content = none

namespace SlotMap

variable {β : Type}

def empty : SlotMap β :=
  { slots := [], free := [], distinct := .nil, vacant := nofun }

def view (map : SlotMap β) (id : SlotId) : Option β :=
  map.slots[id.slot]?.bind fun slot => if slot.incarnation = id.incarnation then slot.content else none

def incarnation (map : SlotMap β) (index : Nat) : Nat :=
  (map.slots[index]?.map Slot.incarnation).getD 1

def nextId (map : SlotMap β) : SlotId :=
  match map.free with
  | [] => ⟨map.slots.length, 1⟩
  | index :: _ => ⟨index, map.incarnation index⟩

variable {slots : List (Slot β)} {slot : Slot β}

theorem vacant_append : ∀ index ∈ ([] : List Nat), ∃ found, (slots ++ [slot])[index]? = some found ∧
      found.content = none :=
  nofun

variable {index : Nat} {rest : List Nat}

theorem vacant_tail {map : SlotMap β} (free : map.free = index :: rest) :
    ∀ other ∈ rest, ∃ found, (map.slots.set index slot)[other]? = some found ∧
      found.content = none := by
  intro other member
  have apart : index ≠ other := by
    intro same
    have distinct := map.distinct
    rw [free, List.nodup_cons] at distinct
    exact distinct.1 (same ▸ member)
  rw [List.getElem?_set_ne apart]
  exact map.vacant other (free ▸ List.mem_cons_of_mem _ member)

def insert (map : SlotMap β) (value : β) : SlotMap β :=
  match free : map.free with
  | [] =>
    { slots := map.slots ++ [⟨1, some value⟩]
      free := []
      distinct := .nil
      vacant := vacant_append }
  | index :: rest =>
    { slots := map.slots.set index ⟨map.incarnation index, some value⟩
      free := rest
      distinct := (List.nodup_cons.mp (free ▸ map.distinct)).2
      vacant := vacant_tail free }

theorem slot_lt {map : SlotMap β} {id : SlotId} (live : (map.view id).isSome = true) :
    id.slot < map.slots.length := by
  unfold view at live
  cases found : map.slots[id.slot]? with
  | none =>
    rw [found] at live
    cases live
  | some slot => exact (List.getElem?_eq_some_iff.mp found).1

theorem not_free_of_live {map : SlotMap β} {id : SlotId} (live : (map.view id).isSome = true) :
    id.slot ∉ map.free := by
  intro member
  obtain ⟨slot, found, none_⟩ := map.vacant id.slot member
  unfold view at live
  rw [found] at live
  simp only [Option.bind_some] at live
  split at live
  · rw [none_] at live
    cases live
  · cases live

def retire (map : SlotMap β) (id : SlotId) : Option (SlotMap β) :=
  if live : (map.view id).isSome = true then
    some
      { slots := map.slots.set id.slot ⟨id.incarnation + 1, none⟩
        free := id.slot :: map.free
        distinct := List.nodup_cons.mpr ⟨not_free_of_live live, map.distinct⟩
        vacant := by
          intro index member
          rcases List.mem_cons.mp member with rfl | earlier
          · exact ⟨_, List.getElem?_set_self (slot_lt live), rfl⟩
          have apart : id.slot ≠ index := by
            intro same
            exact not_free_of_live live (same ▸ earlier)
          rw [List.getElem?_set_ne apart]
          exact map.vacant index earlier }
  else none

def update (map : SlotMap β) (id : SlotId) (value : β) : SlotMap β :=
  if live : (map.view id).isSome = true then
    { slots := map.slots.set id.slot ⟨id.incarnation, some value⟩
      free := map.free
      distinct := map.distinct
      vacant := by
        intro index member
        have apart : id.slot ≠ index := by
          intro same
          exact not_free_of_live live (same ▸ member)
        rw [List.getElem?_set_ne apart]
        exact map.vacant index member }
  else map

/-! ## Views -/

variable {other : SlotId}

theorem view_set_ne {map : SlotMap β} {id : SlotId} (apart : id.slot ≠ other.slot)
    (same : slots = map.slots.set id.slot slot) : (slots[other.slot]?.bind fun slot =>
      if slot.incarnation = other.incarnation then slot.content else none) = map.view other := by
  rw [same, List.getElem?_set_ne apart]
  rfl

theorem nextId_of_nil {map : SlotMap β} (none_ : map.free = []) :
    map.nextId = ⟨map.slots.length, 1⟩ := by
  unfold nextId
  rw [none_]

theorem nextId_of_cons {map : SlotMap β} (free : map.free = index :: rest) :
    map.nextId = ⟨index, map.incarnation index⟩ := by
  unfold nextId
  rw [free]

theorem view_nextId (map : SlotMap β) : map.view map.nextId = none := by
  unfold nextId view
  split
  · rw [List.getElem?_eq_none (Nat.le_refl _)]
    rfl
  rename_i index rest free
  obtain ⟨slot, found, none_⟩ := map.vacant index (free ▸ List.mem_cons_self)
  rw [found]
  simp only [Option.bind_some, none_, ite_self]

theorem view_insert_self (map : SlotMap β) (value : β) :
    (map.insert value).view map.nextId = some value := by
  unfold insert
  split
  · rename_i none_
    rw [nextId_of_nil none_]
    unfold view
    simp
  rename_i index rest free
  obtain ⟨slot, found, _⟩ := map.vacant index (free ▸ List.mem_cons_self)
  have inside := (List.getElem?_eq_some_iff.mp found).1
  rw [nextId_of_cons free]
  unfold view
  simp [inside]

theorem view_insert_of_ne {map : SlotMap β} {value : β} {id : SlotId} (apart : id ≠ map.nextId) :
    (map.insert value).view id = map.view id := by
  unfold insert
  split
  · rename_i free
    rw [nextId_of_nil free] at apart
    unfold view
    dsimp only
    rcases Nat.lt_trichotomy id.slot map.slots.length with before | same | behind
    · rw [List.getElem?_append_left before]
    · rw [same, List.getElem?_eq_none (Nat.le_refl _), List.getElem?_append_right (Nat.le_refl _),
        Nat.sub_self]
      have different : (1 : Nat) ≠ id.incarnation := by
        intro first
        refine apart ?_
        cases id
        simp_all
      simp [different]
    · rw [List.getElem?_eq_none (Nat.le_of_lt behind), List.getElem?_eq_none (by simp; omega)]
  rename_i index rest free
  rw [nextId_of_cons free] at apart
  unfold view
  dsimp only
  by_cases same : index = id.slot
  · obtain ⟨slot, found, none_⟩ := map.vacant index (free ▸ List.mem_cons_self)
    have inside := (List.getElem?_eq_some_iff.mp found).1
    have different : map.incarnation index ≠ id.incarnation := by
      intro first
      refine apart ?_
      cases id
      simp_all
    rw [← same, List.getElem?_set_self inside, found]
    simp [different, none_]
  · rw [List.getElem?_set_ne same]

theorem retire_eq_none {map : SlotMap β} {id : SlotId} : map.retire id = none ↔ map.view id = none := by
  unfold retire
  split
  · rename_i live
    refine ⟨fun none_ => (nomatch none_), fun dead => ?_⟩
    rw [dead] at live
    cases live
  rename_i dead
  refine ⟨fun _ => ?_, fun _ => rfl⟩
  simpa using dead

theorem view_eq_of_incarnation {map : SlotMap β} {id : SlotId} (live : (map.view id).isSome = true)
    (sameSlot : id.slot = other.slot) (apart : other ≠ id) : map.view other = none := by
  unfold view at live ⊢
  rw [← sameSlot]
  cases found : map.slots[id.slot]? with
  | none => rfl
  | some slot => ?_
  rw [found] at live
  simp only [Option.bind_some] at live ⊢
  split at live
  · rename_i own
    rw [if_neg]
    intro also
    refine apart ?_
    cases id
    cases other
    simp_all
  · cases live

theorem view_retire {map retired : SlotMap β} {id : SlotId} (retiring : map.retire id = some retired)
    (other : SlotId) : retired.view other = if other = id then none else map.view other := by
  unfold retire at retiring
  split at retiring
  case isFalse => cases retiring
  rename_i live
  cases retiring
  by_cases same : other = id
  · rw [if_pos same, same]
    unfold view
    rw [List.getElem?_set_self (slot_lt live)]
    simp
  rw [if_neg same]
  by_cases sameSlot : id.slot = other.slot
  · rw [view_eq_of_incarnation live sameSlot same]
    unfold view
    rw [← sameSlot, List.getElem?_set_self (slot_lt live)]
    simp
  · exact view_set_ne sameSlot rfl

theorem view_update {map : SlotMap β} {id : SlotId} {value : β} (live : (map.view id).isSome = true)
    (other : SlotId) : (map.update id value).view other =
      if other = id then some value else map.view other := by
  unfold update
  rw [dif_pos live]
  by_cases same : other = id
  · rw [if_pos same, same]
    unfold view
    rw [List.getElem?_set_self (slot_lt live)]
    simp
  rw [if_neg same]
  by_cases sameSlot : id.slot = other.slot
  · rw [view_eq_of_incarnation live sameSlot same]
    unfold view
    rw [← sameSlot, List.getElem?_set_self (slot_lt live)]
    have different : id.incarnation ≠ other.incarnation := by
      intro also
      refine same ?_
      cases id
      cases other
      simp_all
    simp [different]
  · exact view_set_ne sameSlot rfl

/-! ## Holders -/

def Holds (map : SlotMap β) (names : List SlotId) : Prop :=
  ∀ id, names.count id = if (map.view id).isSome then 1 else 0

variable {map retired : SlotMap β} {names others : List SlotId} {id : SlotId} {value : β}

section

variable (holds : map.Holds names)
include holds

theorem Holds.congr (same : ∀ id, others.count id = names.count id) : map.Holds others :=
  fun id => (same id).trans (holds id)

theorem Holds.perm (same : others.Perm names) : map.Holds others :=
  holds.congr fun id => same.count_eq id

theorem Holds.nodup : names.Nodup := by
  rw [List.nodup_iff_count]
  intro id
  rw [holds id]
  split
  · exact Nat.le_refl 1
  · exact Nat.zero_le 1

theorem Holds.live (member : id ∈ names) : (map.view id).isSome = true := by
  have positive := List.count_pos_iff.mpr member
  rw [holds id] at positive
  split at positive
  · assumption
  · cases positive

theorem Holds.insert (value : β) : (map.insert value).Holds (map.nextId :: names) := by
  intro id
  rw [List.count_cons]
  by_cases same : id = map.nextId
  · rw [same, view_insert_self]
    have none_ := holds map.nextId
    rw [view_nextId] at none_
    simp_all
  rw [view_insert_of_ne same, holds id]
  have apart : (map.nextId == id) = false := by simpa using fun also => same also.symm
  simp [apart]

end

theorem Holds.retire (holds : map.Holds (id :: names)) :
    ∃ retired, map.retire id = some retired ∧ retired.Holds names := by
  cases retiring : map.retire id with
  | none =>
    have live := holds.live List.mem_cons_self
    rw [retire_eq_none.mp retiring] at live
    cases live
  | some retired => ?_
  refine ⟨retired, rfl, fun other => ?_⟩
  have before := holds other
  rw [view_retire retiring]
  rw [List.count_cons] at before
  by_cases same : other = id
  · have live := holds.live List.mem_cons_self
    rw [same] at before ⊢
    rw [live] at before
    simp at before ⊢
    exact before
  have apart : (id == other) = false := by simpa using fun also => same also.symm
  simp [same, apart] at before ⊢
  exact before

theorem Holds.update (holds : map.Holds names) (live : (map.view id).isSome = true) (value : β) :
    (map.update id value).Holds names := by
  intro other
  rw [holds other, view_update live]
  by_cases same : other = id
  · rw [if_pos same, same, live]
    rfl
  · rw [if_neg same]

/-! ## Names given out -/

/-- A name has been given out: it is live, or its slot has gone on to a later
incarnation. -/
def Issued (map : SlotMap β) (id : SlotId) : Prop :=
  ∃ slot, map.slots[id.slot]? = some slot ∧
    (id.incarnation < slot.incarnation ∨
      id.incarnation = slot.incarnation ∧ slot.content.isSome = true)

theorem issued_of_live (live : (map.view id).isSome = true) : map.Issued id := by
  unfold view at live
  cases found : map.slots[id.slot]? with
  | none =>
    rw [found] at live
    cases live
  | some slot => ?_
  rw [found, Option.bind_some] at live
  split at live
  next same => exact ⟨slot, found, Or.inr ⟨same.symm, live⟩⟩
  next => cases live

theorem Issued.ne_nextId (issued : map.Issued id) : id ≠ map.nextId := by
  rintro rfl
  obtain ⟨slot, found, given⟩ := issued
  cases free : map.free with
  | nil =>
    rw [nextId_of_nil free, List.getElem?_eq_none (Nat.le_refl _)] at found
    cases found
  | cons index rest => ?_
  rw [nextId_of_cons free] at found given
  obtain ⟨unused, here, empty⟩ := map.vacant index (free ▸ List.mem_cons_self)
  dsimp only at found given
  rw [here] at found
  cases found
  have incarnation : map.incarnation index = slot.incarnation := by
    unfold SlotMap.incarnation
    rw [here]
    rfl
  rw [incarnation, empty] at given
  rcases given with later | ⟨-, content⟩
  · exact Nat.lt_irrefl _ later
  · cases content

theorem Issued.insert (issued : map.Issued id) (value : β) : (map.insert value).Issued id := by
  by_cases same : id = map.nextId
  · exact absurd same issued.ne_nextId
  obtain ⟨slot, found, given⟩ := issued
  have inside := (List.getElem?_eq_some_iff.mp found).1
  unfold SlotMap.insert
  split
  next free => exact ⟨slot, (List.getElem?_append_left inside).trans found, given⟩
  rename_i index rest free
  by_cases reused : index = id.slot
  · subst reused
    refine ⟨_, List.getElem?_set_self inside, ?_⟩
    have incarnation : map.incarnation id.slot = slot.incarnation := by
      unfold SlotMap.incarnation
      rw [found]
      rfl
    dsimp only
    rw [incarnation]
    exact given.imp_right fun live => ⟨live.1, rfl⟩
  · exact ⟨slot, (List.getElem?_set_ne reused).trans found, given⟩

theorem Issued.retire (issued : map.Issued id) (retiring : map.retire other = some retired) :
    retired.Issued id := by
  obtain ⟨slot, found, given⟩ := issued
  have inside := (List.getElem?_eq_some_iff.mp found).1
  unfold SlotMap.retire at retiring
  split at retiring
  case isFalse => cases retiring
  rename_i live
  cases retiring
  by_cases same : other.slot = id.slot
  · refine ⟨⟨other.incarnation + 1, none⟩, ?_, Or.inl ?_⟩
    · dsimp only
      rw [same, List.getElem?_set_self inside]
    have current : slot.incarnation = other.incarnation := by
      unfold view at live
      rw [same, found, Option.bind_some] at live
      split at live
      next own => exact own
      next => cases live
    dsimp only
    omega
  · exact ⟨slot, (List.getElem?_set_ne same).trans found, given⟩

end SlotMap
