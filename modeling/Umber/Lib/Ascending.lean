import Umber.Lib.OrderedMap

/-! Strictly ascending lists: their merge, in which every iterator at the least head moves
on, and ordered maps whose keys ascend. -/

set_option autoImplicit false

open Std

def Ascending {α : Type} [Ord α] (values : List α) : Prop :=
  values.Pairwise fun left right => compare left right = .lt

namespace Ascending

variable {α : Type} [Ord α]

def least : List α → Option α
  | [] => none
  | value :: rest =>
    match least rest with
    | none => some value
    | some other => if compare other value = .lt then some other else some value

def advance [DecidableEq α] (value : α) : List α → List α
  | [] => []
  | head :: rest => if head = value then rest else head :: rest

def merge [DecidableEq α] : Nat → List (List α) → List α
  | 0, _ => []
  | fuel + 1, iterators =>
    match least (iterators.filterMap List.head?) with
    | none => []
    | some value => value :: merge fuel (iterators.map (advance value))

def remaining : List (List α) → Nat
  | [] => 0
  | iterator :: rest => iterator.length + remaining rest

theorem least_eq_none_iff {values : List α} : least values = none ↔ values = [] := by
  cases values with
  | nil => simp [least]
  | cons value rest => ?_
  unfold least
  cases least rest with
  | none => simp
  | some other => by_cases lower : compare other value = .lt <;> simp [lower]

variable [TransOrd α]

variable {left right : α}

theorem isLE_of_not_lt (low : compare right left ≠ .lt) : (compare left right).isLE = true := by
  have swapped : compare left right = (compare right left).swap := OrientedCmp.eq_swap
  rw [swapped]
  cases found : compare right left with
  | lt => exact absurd found low
  | eq => rfl
  | gt => rfl

theorem not_lt_trans {first second third : α} (low : compare second first ≠ .lt)
    (high : compare third second ≠ .lt) : compare third first ≠ .lt := by
  have bothLE := TransOrd.isLE_trans (isLE_of_not_lt low) (isLE_of_not_lt high)
  have swapped : compare first third = (compare third first).swap := OrientedCmp.eq_swap
  intro lower
  rw [swapped, lower] at bothLE
  cases bothLE

omit [TransOrd α] in
theorem not_lt_self [ReflOrd α] (value : α) : compare value value ≠ .lt := by
  rw [ReflOrd.compare_self]
  decide

theorem ne_of_lt (lower : compare left right = .lt) : left ≠ right := by
  rintro rfl
  exact not_lt_self left lower

theorem eq_or_lt_of_not_lt [LawfulEqOrd α] (low : compare right left ≠ .lt) :
    right = left ∨ compare left right = .lt := by
  cases found : compare left right with
  | lt => exact .inr rfl
  | eq => exact .inl (LawfulEqOrd.eq_of_compare found).symm
  | gt =>
    rw [OrientedCmp.gt_iff_lt] at found
    exact absurd found low

theorem least_spec {values : List α} {value : α} (found : least values = some value) :
    value ∈ values ∧ ∀ other ∈ values, compare other value ≠ .lt := by
  induction values generalizing value with
  | nil => cases found
  | cons head rest ih => ?_
  unfold least at found
  cases tail : least rest with
  | none =>
    rw [tail] at found
    cases found
    rw [least_eq_none_iff.mp tail]
    refine ⟨List.mem_singleton_self _, ?_⟩
    intro other member
    rw [List.mem_singleton.mp member]
    exact not_lt_self head
  | some other => ?_
  obtain ⟨member, lowest⟩ := ih tail
  simp only [tail] at found
  by_cases lower : compare other head = .lt
  · rw [if_pos lower] at found
    cases found
    refine ⟨List.mem_cons_of_mem _ member, ?_⟩
    intro candidate listed
    rcases List.mem_cons.mp listed with rfl | later
    · intro below
      exact absurd (TransCmp.lt_trans below lower) (not_lt_self candidate)
    · exact lowest candidate later
  rw [if_neg lower] at found
  cases found
  refine ⟨List.mem_cons_self, ?_⟩
  intro candidate listed
  rcases List.mem_cons.mp listed with rfl | later
  · exact not_lt_self candidate
  · exact not_lt_trans lower (lowest candidate later)

omit [Ord α] [TransOrd α] in
theorem advance_cons [DecidableEq α] (value head : α) (rest : List α) :
    advance value (head :: rest) = if head = value then rest else head :: rest := rfl

variable [DecidableEq α] {iterator : List α} {iterators : List (List α)} {value other : α}

omit [TransOrd α] in
theorem advance_ascending (ascending : Ascending iterator) (value : α) :
    Ascending (advance value iterator) := by
  cases iterator with
  | nil => exact ascending
  | cons head rest => ?_
  rw [advance_cons]
  split
  · exact List.Pairwise.of_cons ascending
  · exact ascending

omit [Ord α] [TransOrd α] in
theorem advance_sublist (value : α) (iterator : List α) :
    (advance value iterator).Sublist iterator := by
  cases iterator with
  | nil => exact .slnil
  | cons head rest => ?_
  rw [advance_cons]
  split
  · exact List.sublist_cons_self ..
  · exact .refl _

/-- Nothing of an ascending iterator is at or below a least head once it has moved on. -/
theorem lt_of_mem_advance [LawfulEqOrd α] (ascending : Ascending iterator)
    (lowest : ∀ head ∈ iterator.head?, compare head value ≠ .lt)
    (member : other ∈ advance value iterator) : compare value other = .lt := by
  cases iterator with
  | nil => cases member
  | cons head rest => ?_
  obtain ⟨above, _⟩ := List.pairwise_cons.mp ascending
  rw [advance_cons] at member
  split at member
  next same => exact same ▸ above other member
  rename_i apart
  have below : compare value head = .lt :=
    (eq_or_lt_of_not_lt (lowest head rfl)).resolve_left apart
  rcases List.mem_cons.mp member with rfl | later
  · exact below
  · exact TransCmp.lt_trans below (above other later)

omit [Ord α] [TransOrd α] in
theorem mem_or_eq_of_mem (member : other ∈ iterator) :
    other ∈ advance value iterator ∨ other = value := by
  cases iterator with
  | nil => cases member
  | cons head rest => ?_
  rw [advance_cons]
  split
  next same =>
    rcases List.mem_cons.mp member with rfl | later
    · exact .inr same
    · exact .inl later
  next => exact .inl member

omit [Ord α] [TransOrd α] in
theorem length_advance_of_head (stands : iterator.head? = some value) :
    (advance value iterator).length < iterator.length := by
  cases iterator with
  | nil => cases stands
  | cons head rest => ?_
  cases stands
  rw [advance_cons]
  rw [if_pos rfl]
  exact Nat.lt_succ_self _

omit [Ord α] [TransOrd α] in
theorem remaining_advance_le (value : α) (iterators : List (List α)) :
    remaining (iterators.map (advance value)) ≤ remaining iterators := by
  induction iterators with
  | nil => exact Nat.zero_le _
  | cons iterator rest ih => ?_
  have shorter := (advance_sublist value iterator).length_le
  simp only [List.map_cons, remaining]
  omega

omit [Ord α] [TransOrd α] in
theorem remaining_advance_lt (stands : iterator ∈ iterators) (here : iterator.head? = some value) :
    remaining (iterators.map (advance value)) < remaining iterators := by
  induction iterators with
  | nil => cases stands
  | cons first rest ih => ?_
  have shorter := (advance_sublist value first).length_le
  have others := remaining_advance_le value rest
  simp only [List.map_cons, remaining]
  rcases List.mem_cons.mp stands with rfl | later
  · have strict := length_advance_of_head here
    omega
  have strict := ih later
  omega

omit [Ord α] [TransOrd α] [DecidableEq α] in
theorem length_le_remaining (listed : iterator ∈ iterators) :
    iterator.length ≤ remaining iterators := by
  induction iterators with
  | nil => cases listed
  | cons first rest ih => ?_
  simp only [remaining]
  rcases List.mem_cons.mp listed with rfl | later
  · exact Nat.le_add_right ..
  · exact Nat.le_add_left_of_le (ih later)

/-- The merge of ascending iterators ascends and visits what they hold. -/
theorem merge_spec [LawfulEqOrd α] {fuel : Nat}
    (ascending : ∀ iterator ∈ iterators, Ascending iterator) (enough : remaining iterators ≤ fuel) :
    Ascending (merge fuel iterators) ∧
      ∀ value, value ∈ merge fuel iterators ↔ ∃ iterator ∈ iterators, value ∈ iterator := by
  induction fuel generalizing iterators with
  | zero =>
    refine ⟨.nil, fun value => ⟨fun absent => absurd absent List.not_mem_nil, ?_⟩⟩
    rintro ⟨iterator, listed, member⟩
    have within := length_le_remaining listed
    have positive := List.length_pos_of_mem member
    omega
  | succ fuel ih => ?_
  unfold merge
  cases found : least (iterators.filterMap List.head?) with
  | none =>
    have headless := least_eq_none_iff.mp found
    refine ⟨.nil, fun value => ⟨fun absent => absurd absent List.not_mem_nil, ?_⟩⟩
    rintro ⟨iterator, listed, member⟩
    cases iterator with
    | nil => cases member
    | cons head rest => ?_
    have headed : head ∈ iterators.filterMap List.head? :=
      List.mem_filterMap.mpr ⟨_, listed, rfl⟩
    rw [headless] at headed
    cases headed
  | some first => ?_
  obtain ⟨headed, lowest⟩ := least_spec found
  obtain ⟨holder, held, stands⟩ := List.mem_filterMap.mp headed
  have advanced : ∀ iterator ∈ iterators.map (advance first), Ascending iterator := by
    intro moved listed
    obtain ⟨iterator, member, rfl⟩ := List.mem_map.mp listed
    exact advance_ascending (ascending iterator member) first
  have shorter := remaining_advance_lt held stands
  obtain ⟨ordered, members⟩ := ih advanced (by omega)
  refine ⟨List.pairwise_cons.mpr ⟨?_, ordered⟩, ?_⟩
  · intro other later
    obtain ⟨moved, listed, member⟩ := (members other).mp later
    obtain ⟨iterator, place, rfl⟩ := List.mem_map.mp listed
    refine lt_of_mem_advance (ascending iterator place) ?_ member
    intro head stood
    exact lowest head (List.mem_filterMap.mpr ⟨iterator, place, stood⟩)
  intro other
  rw [List.mem_cons, members]
  constructor
  · rintro (rfl | ⟨moved, listed, member⟩)
    · exact ⟨holder, held, List.mem_of_mem_head? stands⟩
    obtain ⟨iterator, place, rfl⟩ := List.mem_map.mp listed
    exact ⟨iterator, place, (advance_sublist first iterator).subset member⟩
  rintro ⟨iterator, place, member⟩
  rcases @mem_or_eq_of_mem α _ iterator first other member with later | same
  · exact .inr ⟨_, List.mem_map_of_mem place, later⟩
  · exact .inl same

omit [DecidableEq α] in
/-- Ascending lists with the same members are the same. -/
theorem eq_of_mem_iff {left right : List α} (leftAscending : Ascending left)
    (rightAscending : Ascending right) (same : ∀ value, value ∈ left ↔ value ∈ right) :
    left = right := by
  have distinct : ∀ {values : List α}, Ascending values → values.Nodup := fun ascending =>
    List.Pairwise.imp ne_of_lt ascending
  have permuted := (List.perm_ext_iff_of_nodup (distinct leftAscending)
    (distinct rightAscending)).mpr same
  refine List.Perm.eq_of_pairwise ?_ leftAscending rightAscending permuted
  intro first second _ _ below above
  exact absurd (TransCmp.lt_trans below above) (not_lt_self first)

end Ascending

namespace OrderedMap

open Ascending

variable {κ ν : Type} [DecidableEq κ] [Ord κ] [TransOrd κ] [LawfulEqOrd κ]

def Ordered (map : OrderedMap κ ν) : Prop :=
  Ascending (map.entries.map Prod.fst)

omit [DecidableEq κ] [TransOrd κ] [LawfulEqOrd κ] in
theorem ordered_empty : (empty : OrderedMap κ ν).Ordered :=
  List.Pairwise.nil

omit [DecidableEq κ] in
theorem placeEntry_ascending {key : κ} {value : ν} {entries : List (κ × ν)}
    (absent : key ∉ entries.map Prod.fst) (ascending : Ascending (entries.map Prod.fst)) :
    Ascending ((placeEntry key value entries).map Prod.fst) := by
  induction entries with
  | nil => exact List.pairwise_singleton ..
  | cons entry rest ih => ?_
  rw [List.map_cons, List.mem_cons, not_or] at absent
  obtain ⟨above, later⟩ := List.pairwise_cons.mp ascending
  unfold placeEntry
  split
  next below =>
    refine List.pairwise_cons.mpr ⟨?_, ascending⟩
    intro other member
    rcases List.mem_cons.mp member with rfl | further
    · exact below
    · exact TransCmp.lt_trans below (above other further)
  rename_i notBelow
  have before : compare entry.1 key = .lt :=
    (eq_or_lt_of_not_lt notBelow).resolve_left absent.1
  refine List.pairwise_cons.mpr ⟨?_, ih absent.2 later⟩
  intro other member
  rcases List.mem_cons.mp ((keys_placeEntry key value rest).mem_iff.mp member) with
    rfl | further
  · exact before
  · exact above other further

theorem Ordered.insert {map : OrderedMap κ ν} (ordered : map.Ordered) (key : κ) (value : ν) :
    (map.insert key value).Ordered := by
  unfold OrderedMap.insert Ordered
  split
  next =>
    rw [keys_replaceEntry]
    exact ordered
  next absent => exact placeEntry_ascending absent ordered

omit [Ord κ] [LawfulEqOrd κ] [TransOrd κ] in
theorem mem_keys_iff {map : OrderedMap κ ν} {key : κ} :
    key ∈ map.entries.map Prod.fst ↔ ∃ value, map.get? key = some value := by
  rw [← Option.ne_none_iff_exists']
  unfold get?
  rw [ne_eq, lookup_eq_none_iff, Decidable.not_not]

omit [Ord κ] [LawfulEqOrd κ] [TransOrd κ] in
theorem viewed_eq_of_lookup {μ : Type} (view : ν → μ) {left right : List (κ × ν)}
    (keys : left.map Prod.fst = right.map Prod.fst) (distinct : (left.map Prod.fst).Nodup)
    (same : ∀ key, (lookup key left).map view = (lookup key right).map view) :
    left.map (fun entry => (entry.1, view entry.2)) =
      right.map (fun entry => (entry.1, view entry.2)) := by
  induction left generalizing right with
  | nil =>
    cases right with
    | nil => rfl
    | cons entry rest => cases keys
  | cons entry rest ih => ?_
  cases right with
  | nil => cases keys
  | cons other later => ?_
  simp only [List.map_cons, List.cons.injEq] at keys
  obtain ⟨sameKey, laterKeys⟩ := keys
  obtain ⟨fresh, restDistinct⟩ := List.nodup_cons.mp distinct
  have headView := same entry.1
  unfold lookup at headView
  rw [if_pos rfl, if_pos sameKey.symm] at headView
  simp only [Option.map_some, Option.some.injEq] at headView
  have tails : ∀ key, (lookup key rest).map view = (lookup key later).map view := by
    intro key
    by_cases here : entry.1 = key
    · have leftAbsent : lookup key rest = none :=
        lookup_eq_none_iff.mpr (here ▸ fresh)
      have rightAbsent : lookup key later = none := by
        rw [lookup_eq_none_iff, ← laterKeys]
        exact here ▸ fresh
      rw [leftAbsent, rightAbsent]
    have passed := same key
    unfold lookup at passed
    rwa [if_neg here, if_neg (sameKey ▸ here)] at passed
  rw [List.map_cons, List.map_cons, sameKey, headView, ih laterKeys restDistinct tails]

omit [LawfulEqOrd κ] in
/-- Ordered maps that look the same through a view have the same viewed entries. -/
theorem viewed_entries_eq_iff {μ : Type} {left right : OrderedMap κ ν} (view : ν → μ)
    (leftOrdered : left.Ordered) (rightOrdered : right.Ordered) :
    left.entries.map (fun entry => (entry.1, view entry.2)) =
        right.entries.map (fun entry => (entry.1, view entry.2)) ↔
      ∀ key, (left.get? key).map view = (right.get? key).map view := by
  constructor
  · intro same key
    have seen : ∀ (map : OrderedMap κ ν), (map.get? key).map view =
        lookup key (map.entries.map fun entry => (entry.1, view entry.2)) := by
      intro map
      unfold get?
      induction map.entries with
      | nil => rfl
      | cons entry rest ih => ?_
      unfold lookup
      by_cases here : entry.1 = key
      · simp [here]
      · simpa [here] using ih
    rw [seen left, seen right, same]
  intro same
  have keys : left.entries.map Prod.fst = right.entries.map Prod.fst := by
    refine eq_of_mem_iff leftOrdered rightOrdered ?_
    intro key
    have agree := congrArg Option.isSome (same key)
    rw [Option.isSome_map, Option.isSome_map] at agree
    rw [mem_keys_iff, mem_keys_iff, ← Option.isSome_iff_exists, ← Option.isSome_iff_exists, agree]
  exact viewed_eq_of_lookup view keys left.distinct same

end OrderedMap
