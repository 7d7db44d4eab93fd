import Umber.Boxes.UnsaveOrder
import Umber.State.JournalProperties

/-! The reverse walk over two stores of saves restores every save once: the dense ones in
reverse save order, the sparse ones where the first of them was saved. -/

set_option autoImplicit false

namespace Umber.Boxes

open ExceptLib Umber.State

/-! ## Positions -/

section Positions

variable {β : Type} {test : β → Bool}

theorem rposition_concat (values : List β) (value : β) : rposition test (values ++ [value]) =
      if test value then some values.length else rposition test values := by
  induction values with
  | nil => rfl
  | cons first rest ih => ?_
  rw [List.cons_append, rposition, ih]
  cases passes : test value with
  | true => rfl
  | false => rfl

theorem rposition_eq_some {values : List β} {index : Nat}
    (found : rposition test values = some index) :
    ∃ value, values[index]? = some value ∧ test value = true := by
  induction values generalizing index with
  | nil => cases found
  | cons first rest ih => ?_
  rw [rposition] at found
  cases earlier : rposition test rest with
  | some position =>
    rw [earlier] at found
    cases found
    exact ih earlier
  | none => ?_
  rw [earlier] at found
  dsimp only at found
  split at found
  · rename_i passes
    cases found
    exact ⟨first, rfl, passes⟩
  · cases found

theorem rposition_map {γ : Type} (place : γ → β) (values : List γ) :
    rposition test (values.map place) = rposition (fun value => test (place value)) values := by
  induction values with
  | nil => rfl
  | cons first rest ih => rw [List.map_cons, rposition, rposition, ih]

theorem rposition_congr_map {γ : Type} (place : γ → β) {values others : List γ}
    (same : values.map place = others.map place) :
    rposition (fun value => test (place value)) values =
      rposition (fun value => test (place value)) others := by
  have left := @rposition_map β test γ place values
  have right := @rposition_map β test γ place others
  rw [← left, ← right, same]

theorem rposition_eq_none {values : List β} (absent : ∀ value ∈ values, test value = false) :
    rposition test values = none := by
  induction values with
  | nil => rfl
  | cons first rest ih =>
    rw [rposition, ih fun value member => absent value (List.mem_cons_of_mem _ member)]
    simp [absent first List.mem_cons_self]

end Positions

variable {R : References} {α : Type}

/-! ## Visits -/

namespace Stores

theorem visitAll_append (stores : Stores R α) (saves later : List (Save R)) :
    stores.visitAll (saves ++ later) = (do
      let first ← stores.visitAll saves
      let second ← first.2.visitAll later
      pure (first.1 ++ second.1, second.2)) := by
  induction saves generalizing stores with
  | nil =>
    rw [List.nil_append, visitAll, ok_bind]
    cases stores.visitAll later with
    | error error => rfl
    | ok result => rfl
  | cons save rest ih => ?_
  rw [List.cons_append, visitAll, visitAll]
  cases stores.visit save with
  | error error => rfl
  | ok visited => ?_
  rw [ok_bind, ok_bind, ih]
  cases visited.2.visitAll rest with
  | error error => rfl
  | ok between => ?_
  rw [ok_bind, ok_bind]
  change _ = (between.2.visitAll later >>= _)
  cases between.2.visitAll later with
  | error error => rfl
  | ok last => rfl

end Stores

namespace Walk

def stores (walk : Walk R α) : Stores R α := { state := walk.state, boxes := walk.boxes.state }

/-- A part of the walk restores saves one by one and then has a property. -/
def Performs (computation : Unsaving (Walk R α)) (walk : Walk R α) (saves : List (Save R))
    (holds : Walk R α → Prop) : Prop :=
  match walk.stores.visitAll saves with
  | .error error => computation = .error error
  | .ok (entries, stores) => ∃ last, computation = .ok last ∧ last.stores = stores ∧
      last.entries = walk.entries ++ entries ∧ last.boxes.retained = walk.boxes.retained ∧
      holds last

variable {walk : Walk R α} {computation : Unsaving (Walk R α)} {saves later : List (Save R)}
  {holds : Walk R α → Prop}

theorem Performs.error {failure : UnsaveError} (performs : Performs computation walk saves holds)
    (visited : walk.stores.visitAll saves = .error failure) : computation = .error failure := by
  unfold Performs at performs
  rw [visited] at performs
  exact performs

theorem Performs.ok {result : List (GroupRestorationEntry R α) × Stores R α}
    (performs : Performs computation walk saves holds)
    (visited : walk.stores.visitAll saves = .ok result) :
    ∃ last, computation = .ok last ∧ last.stores = result.2 ∧
      last.entries = walk.entries ++ result.1 ∧ last.boxes.retained = walk.boxes.retained ∧
      holds last := by
  unfold Performs at performs
  rw [visited] at performs
  exact performs

theorem performs_ok {last : Walk R α} (stores : last.stores = walk.stores)
    (entries : last.entries = walk.entries)
    (retained : last.boxes.retained = walk.boxes.retained) (held : holds last) :
    Performs (.ok last) walk [] holds :=
  ⟨last, rfl, stores, by rw [entries, List.append_nil], retained, held⟩

theorem Performs.bind {next : Walk R α → Unsaving (Walk R α)} {between : Walk R α → Prop}
    (first : Performs computation walk saves between)
    (second : ∀ middle, between middle → Performs (next middle) middle later holds) :
    Performs (computation >>= next) walk (saves ++ later) holds := by
  unfold Performs at first ⊢
  rw [Stores.visitAll_append]
  cases visited : walk.stores.visitAll saves with
  | error error =>
    rw [visited] at first
    dsimp only at first
    rw [first]
    rfl
  | ok result => ?_
  obtain ⟨entries, stores⟩ := result
  rw [visited] at first
  obtain ⟨middle, rfl, rfl, appended, retained, held⟩ := first
  have second := second middle held
  unfold Performs at second
  rw [ok_bind, ok_bind]
  dsimp only
  cases continued : middle.stores.visitAll later with
  | error error =>
    rw [continued] at second
    exact second
  | ok result => ?_
  obtain ⟨further, last⟩ := result
  rw [continued] at second
  obtain ⟨final, done, stores, more, kept, held⟩ := second
  exact ⟨final, done, stores, by rw [more, appended, List.append_assoc], kept.trans retained, held⟩

theorem Performs.mono {weaker : Walk R α → Prop} (performs : Performs computation walk saves holds)
    (implies : ∀ last, holds last → weaker last) : Performs computation walk saves weaker := by
  unfold Performs at performs ⊢
  cases visited : walk.stores.visitAll saves with
  | error error =>
    rw [visited] at performs
    exact performs
  | ok result => ?_
  rw [visited] at performs
  obtain ⟨last, done, stores, entries, retained, held⟩ := performs
  exact ⟨last, done, stores, entries, retained, implies last held⟩

structure SameBoxes (walk last : Walk R α) : Prop where
  boxes : last.boxes = walk.boxes
  boxed : last.boxed = walk.boxed
  boundary : last.boundary = walk.boundary
  sparse : last.sparse = walk.sparse

theorem restoreScalar_performs (cell : StateCell) (record : Mutation R) :
    Performs (walk.restoreScalar record) walk [.scalar cell record] (SameBoxes walk) := by
  unfold Performs restoreScalar
  simp only [Stores.visitAll, Stores.visit]
  cases restoring : liftState (restoreGroupMutation (α := α) walk.state record) with
  | error error =>
    have visiting : liftState (restoreGroupMutation (α := α) walk.stores.state record) =
        .error error := restoring
    rw [visiting]
    rfl
  | ok restored => ?_
  have visiting : liftState (restoreGroupMutation (α := α) walk.stores.state record) =
      .ok restored := restoring
  rw [visiting]
  exact ⟨_, rfl, rfl, rfl, rfl, rfl, rfl, rfl, rfl⟩

end Walk

/-! ## The box saves that are still to be restored -/

def placeOf (mutation : DurableMutation) : Nat × Nat :=
  (mutation.index, mutation.groupSavePosition)

structure Stands (boxes : BoxUnsave α) (all : List DurableMutation)
    (front : Bool → List DurableMutation) : Prop where
  places : boxes.group.entries.map placeOf = all.map placeOf
  within : ∀ sparse, front sparse <+: all
  kept : ∀ (sparse : Bool) (index : Nat) (mutation : DurableMutation),
    (front sparse)[index]? = some mutation → mutation.isSparse = sparse →
      boxes.group.entries[index]? = some mutation
  cursors : ∀ sparse,
    boxes.cursor sparse = rposition (fun entry => entry.isSparse == sparse) (front sparse)

variable {mutation : DurableMutation}

theorem get_within {whole front : List DurableMutation}
    (within : front ++ [mutation] <+: whole) : whole[front.length]? = some mutation := by
  obtain ⟨rest, rfl⟩ := within
  rw [List.append_assoc, List.getElem?_append_right (Nat.le_refl _), Nat.sub_self]
  rfl

theorem take_within {whole front : List DurableMutation}
    (within : front ++ [mutation] <+: whole) : whole.take front.length = front := by
  obtain ⟨rest, rfl⟩ := within
  rw [List.append_assoc, List.take_left]

theorem set_places {entries : List DurableMutation} {index : Nat}
    (held : entries[index]? = some mutation) :
    (entries.set index { mutation with alternate := none }).map placeOf =
      entries.map placeOf := by
  rw [List.map_set]
  refine List.ext_getElem? fun position => ?_
  by_cases same : index = position
  · subst same
    obtain ⟨inside, found⟩ := List.getElem?_eq_some_iff.mp held
    rw [List.getElem?_set_self (by simpa using inside), List.getElem?_map, held]
    rfl
  · rw [List.getElem?_set_ne same]

namespace Stands

variable {boxes : BoxUnsave α} {all rest : List DurableMutation}
  {front : Bool → List DurableMutation} {mutation : DurableMutation} {sparse : Bool}
  (stands : Stands boxes all front)
include stands

theorem len : boxes.len = all.length := by
  have lengths := congrArg List.length stands.places
  simpa [BoxUnsave.len] using lengths

/-- The key of a save does not depend on what was restored. -/
theorem key {index : Nat} (held : all[index]? = some mutation) :
    boxes.key index = some (mutation.groupSavePosition <<< 32 ||| index) := by
  have same : (boxes.group.entries.map placeOf)[index]? = (all.map placeOf)[index]? := by
    rw [stands.places]
  rw [List.getElem?_map, List.getElem?_map, held] at same
  obtain ⟨entry, found, places⟩ := Option.map_eq_some_iff.mp same
  unfold BoxUnsave.key
  rw [found, Option.map_some, show entry.groupSavePosition = mutation.groupSavePosition from
    congrArg Prod.snd places]

variable (last : front sparse = rest ++ [mutation])
include last

/-- The cursor passes over a save of the other kind. -/
theorem skip (other : mutation.isSparse ≠ sparse) : Stands boxes all (setAt front sparse rest) := by
  have passed : (mutation.isSparse == sparse) = false := by simpa using other
  refine ⟨stands.places, fun kind => ?_, fun kind index held found => ?_, fun kind => ?_⟩
  · by_cases same : kind = sparse
    · subst same
      rw [setAt_same]
      exact (List.prefix_append _ _).trans (last ▸ stands.within kind)
    rw [setAt_other _ _ same]
    exact stands.within kind
  · by_cases same : kind = sparse
    · subst same
      rw [setAt_same] at found
      obtain ⟨inside, _⟩ := List.getElem?_eq_some_iff.mp found
      refine stands.kept kind index held ?_
      rw [last, List.getElem?_append_left inside]
      exact found
    rw [setAt_other _ _ same] at found
    exact stands.kept kind index held found
  by_cases same : kind = sparse
  · subst same
    rw [setAt_same, stands.cursors, last, rposition_concat, passed]
    rfl
  rw [setAt_other _ _ same]
  exact stands.cursors kind

variable (selected : mutation.isSparse = sparse)
include selected

theorem cursor : boxes.cursor sparse = some rest.length := by
  rw [stands.cursors, last, rposition_concat, selected]
  simp

theorem nextKey :
    boxes.nextKey sparse = some (mutation.groupSavePosition <<< 32 ||| rest.length) := by
  unfold BoxUnsave.nextKey
  rw [stands.cursor last selected]
  exact stands.key (get_within (last ▸ stands.within sparse))

/-- The save under a cursor is restored, and the cursor moves on. -/
theorem restore :
    ∃ after : DurableBoxState α → BoxUnsave α,
      boxes.restore sparse = (do
        let restored ← boxes.state.restoreMutation mutation
        pure (restored.1, after restored.2)) ∧
      ∀ state, (after state).state = state ∧ (after state).retained = boxes.retained ∧
        Stands (after state) all (setAt front sparse rest) := by
  have within : rest ++ [mutation] <+: all := last ▸ stands.within sparse
  have found : boxes.group.entries[rest.length]? = some mutation :=
    stands.kept sparse rest.length mutation (by rw [last]; simp) selected
  let entries := boxes.group.entries.set rest.length { mutation with alternate := none }
  let moved (state : DurableBoxState α) : BoxUnsave α :=
    { boxes with state, group := { boxes.group with entries } }
  have places : entries.map placeOf = all.map placeOf := (set_places found).trans stands.places
  refine ⟨fun state => (moved state).setCursor sparse ((moved state).before rest.length sparse),
    ?_, fun state => ?_⟩
  · unfold BoxUnsave.restore
    rw [stands.cursor last selected]
    dsimp only
    rw [found]
  have next : (moved state).before rest.length sparse =
      rposition (fun entry => entry.isSparse == sparse) rest := by
    have same : (entries.take rest.length).map placeOf = rest.map placeOf := by
      rw [List.map_take, places, ← List.map_take, take_within within]
    exact @rposition_congr_map _ (fun place => decide (255 < place.1) == sparse) _ placeOf _ _ same
  dsimp only
  rw [next]
  have group : ((moved state).setCursor sparse
      (rposition (fun entry => entry.isSparse == sparse) rest)).group.entries = entries := by
    cases sparse <;> rfl
  refine ⟨by cases sparse <;> rfl, by cases sparse <;> rfl, ?_, fun kind => ?_,
    fun kind index held placed same => ?_, fun kind => ?_⟩
  · rw [group]
    exact places
  · by_cases same : kind = sparse
    · subst same
      rw [setAt_same]
      exact (List.prefix_append _ _).trans within
    rw [setAt_other _ _ same]
    exact stands.within kind
  · rw [group]
    have still : boxes.group.entries[index]? = some held ∧ index ≠ rest.length := by
      by_cases kinds : kind = sparse
      · subst kinds
        rw [setAt_same] at placed
        obtain ⟨inside, _⟩ := List.getElem?_eq_some_iff.mp placed
        refine ⟨stands.kept kind index held ?_ same, Nat.ne_of_lt inside⟩
        rw [last, List.getElem?_append_left inside]
        exact placed
      rw [setAt_other _ _ kinds] at placed
      refine ⟨stands.kept kind index held placed same, ?_⟩
      rintro rfl
      have both := (stands.kept kind rest.length held placed same).symm.trans found
      rw [Option.some.inj both] at same
      exact kinds (same.symm.trans selected)
    change (boxes.group.entries.set rest.length _)[index]? = _
    rw [List.getElem?_set_ne (Ne.symm still.2)]
    exact still.1
  by_cases same : kind = sparse
  · subst same
    rw [setAt_same]
    cases kind <;> rfl
  rw [setAt_other _ _ same]
  have others : ((moved state).setCursor sparse
      (rposition (fun entry => entry.isSparse == sparse) rest)).cursor kind =
        boxes.cursor kind := by
    cases sparse <;> cases kind <;> first | rfl | exact absurd rfl same
  rw [others]
  exact stands.cursors kind

end Stands

namespace Walk

variable {walk last : Walk R α} {all rest : List DurableMutation}
  {front : Bool → List DurableMutation} {mutation : DurableMutation} {sparse : Bool}

/-- A walk over the saves of two fronts. A group without box saves is walked without them. -/
structure Faces (walk : Walk R α) (all : List DurableMutation)
    (front : Bool → List DurableMutation) : Prop where
  stands : Stands walk.boxes all front
  boxed : walk.boxed = true ∨ all = []

structure SameRecords (walk last : Walk R α) : Prop where
  boundary : last.boundary = walk.boundary
  sparse : last.sparse = walk.sparse

variable (faces : Faces walk all front)
include faces

theorem Faces.rounds : walk.rounds = all.length :=
  faces.stands.len

theorem Faces.same (same : SameBoxes walk last) : Faces last all front := by
  refine ⟨?_, ?_⟩
  · rw [same.boxes]
    exact faces.stands
  rw [same.boxed]
  exact faces.boxed

theorem Faces.nextKey (ends : front sparse = rest ++ [mutation])
    (selected : mutation.isSparse = sparse) :
    walk.nextKey sparse = some (mutation.groupSavePosition <<< 32 ||| rest.length) := by
  have boxed : walk.boxed = true := by
    rcases faces.boxed with boxed | empty
    · exact boxed
    have within := faces.stands.within sparse
    rw [ends, empty] at within
    have absurd_ := List.prefix_nil.mp within
    simp at absurd_
  unfold Walk.nextKey
  rw [if_pos boxed]
  exact faces.stands.nextKey ends selected

theorem Faces.of_nextKey {key : Nat} (next : walk.nextKey sparse = some key) :
    ∃ (index : Nat) (held : DurableMutation), (front sparse)[index]? = some held ∧
      held.isSparse = sparse ∧ key = held.groupSavePosition <<< 32 ||| index := by
  unfold Walk.nextKey at next
  split at next
  · obtain ⟨index, cursor, keyed⟩ := Option.bind_eq_some_iff.mp next
    rw [faces.stands.cursors] at cursor
    obtain ⟨held, found, selected⟩ := rposition_eq_some cursor
    have placed : all[index]? = some held := by
      obtain ⟨later, shape⟩ := faces.stands.within sparse
      obtain ⟨inside, _⟩ := List.getElem?_eq_some_iff.mp found
      rw [← shape, List.getElem?_append_left inside]
      exact found
    rw [faces.stands.key placed] at keyed
    exact ⟨index, held, found, by simpa using selected, (Option.some.inj keyed).symm⟩
  · cases next

theorem Faces.nextKey_none
    (passed : ∀ held ∈ front sparse, held.isSparse ≠ sparse) : walk.nextKey sparse = none := by
  have cursor : walk.boxes.cursor sparse = none := by
    rw [faces.stands.cursors]
    exact rposition_eq_none fun held member => by simpa using passed held member
  unfold Walk.nextKey BoxUnsave.nextKey
  rw [cursor]
  split <;> rfl

theorem Faces.skip (ends : front sparse = rest ++ [mutation])
    (other : mutation.isSparse ≠ sparse) : Faces walk all (setAt front sparse rest) :=
  ⟨faces.stands.skip ends other, faces.boxed⟩

theorem Faces.restoreBox (ends : front sparse = rest ++ [mutation])
    (selected : mutation.isSparse = sparse) :
    Performs (walk.restoreBox sparse) walk [.box mutation] fun last =>
      Faces last all (setAt front sparse rest) ∧ SameRecords walk last := by
  obtain ⟨after, restoring, stands⟩ := faces.stands.restore ends selected
  unfold Performs Walk.restoreBox
  rw [restoring]
  simp only [Stores.visitAll, Stores.visit]
  cases restored : walk.boxes.state.restoreMutation mutation with
  | error error =>
    have visiting : walk.stores.boxes.restoreMutation mutation = .error error := restored
    rw [visiting]
    rfl
  | ok result => ?_
  have visiting : walk.stores.boxes.restoreMutation mutation = .ok result := restored
  obtain ⟨state, retained, kept⟩ := stands result.2
  rw [visiting]
  refine ⟨_, rfl, ?_, rfl, retained, ⟨kept, faces.boxed⟩, rfl, rfl⟩
  unfold Walk.stores
  dsimp only
  rw [state]

end Walk

end Umber.Boxes
