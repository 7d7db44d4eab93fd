/-! Ordered maps as lists of entries with distinct keys. An insertion replaces the
entry of its key or takes the place the order of keys gives it. -/

set_option autoImplicit false

structure OrderedMap (κ ν : Type) where
  entries : List (κ × ν)
  distinct : (entries.map Prod.fst).Nodup

namespace OrderedMap

variable {κ ν : Type}

def empty : OrderedMap κ ν :=
  { entries := [], distinct := .nil }

section Entries

variable [DecidableEq κ]

def lookup (key : κ) : List (κ × ν) → Option ν
  | [] => none
  | entry :: rest => if entry.1 = key then some entry.2 else lookup key rest

def replaceEntry (key : κ) (value : ν) : List (κ × ν) → List (κ × ν)
  | [] => []
  | entry :: rest =>
    if entry.1 = key then (key, value) :: rest else entry :: replaceEntry key value rest

def placeEntry [Ord κ] (key : κ) (value : ν) : List (κ × ν) → List (κ × ν)
  | [] => [(key, value)]
  | entry :: rest =>
    if compare key entry.1 = .lt then (key, value) :: entry :: rest
    else entry :: placeEntry key value rest

def sumOf (measure : ν → Nat) : List (κ × ν) → Nat
  | [] => 0
  | entry :: rest => measure entry.2 + sumOf measure rest

variable {key : κ} {entries : List (κ × ν)}

theorem lookup_eq_none_iff : lookup key entries = none ↔ key ∉ entries.map Prod.fst := by
  induction entries with
  | nil => simp [lookup]
  | cons entry rest ih => ?_
  unfold lookup
  by_cases same : entry.1 = key
  · simp [same]
  simp only [if_neg same, List.map_cons, List.mem_cons, not_or, ih]
  exact ⟨fun absent => ⟨fun equal => same equal.symm, absent⟩, fun absent => absent.2⟩

variable {value : ν}

theorem lookup_eq_some_of_mem (distinct : (entries.map Prod.fst).Nodup)
    (member : (key, value) ∈ entries) : lookup key entries = some value := by
  induction entries with
  | nil => cases member
  | cons entry rest ih => ?_
  rw [List.map_cons, List.nodup_cons] at distinct
  unfold lookup
  rcases List.mem_cons.mp member with rfl | later
  · rw [if_pos rfl]
  have apart : entry.1 ≠ key := by
    intro same
    exact distinct.1 (same ▸ List.mem_map_of_mem later)
  rw [if_neg apart]
  exact ih distinct.2 later

theorem mem_of_lookup (found : lookup key entries = some value) : (key, value) ∈ entries := by
  induction entries with
  | nil => cases found
  | cons entry rest ih => ?_
  unfold lookup at found
  by_cases same : entry.1 = key
  · rw [if_pos same] at found
    cases found
    subst same
    exact List.mem_cons_self
  rw [if_neg same] at found
  exact List.mem_cons_of_mem _ (ih found)

theorem keys_replaceEntry (key : κ) (value : ν) (entries : List (κ × ν)) :
    (replaceEntry key value entries).map Prod.fst = entries.map Prod.fst := by
  induction entries with
  | nil => rfl
  | cons entry rest ih => ?_
  unfold replaceEntry
  by_cases same : entry.1 = key
  · simp [same]
  · simp [same, ih]

omit [DecidableEq κ] in
theorem keys_placeEntry [Ord κ] (key : κ) (value : ν) (entries : List (κ × ν)) :
    ((placeEntry key value entries).map Prod.fst).Perm (key :: entries.map Prod.fst) := by
  induction entries with
  | nil => exact .refl _
  | cons entry rest ih => ?_
  unfold placeEntry
  split
  · exact .refl _
  · exact (ih.cons entry.1).trans (.swap ..)

theorem lookup_replaceEntry_self (present : key ∈ entries.map Prod.fst) :
    lookup key (replaceEntry key value entries) = some value := by
  induction entries with
  | nil => cases present
  | cons entry rest ih => ?_
  unfold replaceEntry
  by_cases same : entry.1 = key
  · rw [if_pos same]
    exact if_pos rfl
  rw [if_neg same]
  unfold lookup
  rw [if_neg same]
  rcases List.mem_cons.mp present with equal | later
  · exact absurd equal.symm same
  · exact ih later

variable {other : κ}

theorem lookup_replaceEntry_other (apart : key ≠ other) :
    lookup other (replaceEntry key value entries) = lookup other entries := by
  induction entries with
  | nil => rfl
  | cons entry rest ih => ?_
  unfold replaceEntry
  by_cases same : entry.1 = key
  · rw [if_pos same]
    unfold lookup
    rw [if_neg apart, if_neg (fun equal => apart (same.symm.trans equal))]
  rw [if_neg same]
  unfold lookup
  rw [ih]

theorem lookup_placeEntry_self [Ord κ] (absent : key ∉ entries.map Prod.fst) :
    lookup key (placeEntry key value entries) = some value := by
  induction entries with
  | nil => exact if_pos rfl
  | cons entry rest ih => ?_
  rw [List.map_cons, List.mem_cons, not_or] at absent
  unfold placeEntry
  split
  · exact if_pos rfl
  unfold lookup
  rw [if_neg (fun same => absent.1 same.symm)]
  exact ih absent.2

theorem lookup_placeEntry_other [Ord κ] (apart : key ≠ other) :
    lookup other (placeEntry key value entries) = lookup other entries := by
  induction entries with
  | nil => exact if_neg apart
  | cons entry rest ih => ?_
  unfold placeEntry
  split
  · conv => lhs; unfold lookup
    rw [if_neg apart]
  unfold lookup
  rw [ih]

theorem sumOf_replaceEntry {measure : ν → Nat} {old : ν} (found : lookup key entries = some old) :
    sumOf measure (replaceEntry key value entries) + measure old =
      sumOf measure entries + measure value := by
  induction entries with
  | nil => cases found
  | cons entry rest ih => ?_
  unfold lookup at found
  unfold replaceEntry
  by_cases same : entry.1 = key
  · rw [if_pos same] at found
    cases found
    rw [if_pos same]
    show measure value + sumOf measure rest + measure entry.2 =
      measure entry.2 + sumOf measure rest + measure value
    omega
  rw [if_neg same] at found
  rw [if_neg same]
  unfold sumOf
  have carried := ih found
  omega

omit [DecidableEq κ] in
theorem sumOf_placeEntry [Ord κ] (measure : ν → Nat) (key : κ) (value : ν)
    (entries : List (κ × ν)) :
    sumOf measure (placeEntry key value entries) = sumOf measure entries + measure value := by
  induction entries with
  | nil => simp [placeEntry, sumOf]
  | cons entry rest ih => ?_
  unfold placeEntry
  split
  · simp only [sumOf]
    omega
  simp only [sumOf, ih]
  omega

theorem lookup_filter {keep : κ → ν → Bool} (distinct : (entries.map Prod.fst).Nodup) :
    lookup key (entries.filter fun entry => keep entry.1 entry.2) =
      (lookup key entries).filter (keep key) := by
  induction entries with
  | nil => rfl
  | cons entry rest ih => ?_
  rw [List.map_cons, List.nodup_cons] at distinct
  by_cases same : entry.1 = key
  · subst same
    have absent : lookup entry.1 rest = none := lookup_eq_none_iff.mpr distinct.1
    by_cases kept : keep entry.1 entry.2 = true
    · simp [lookup, kept, Option.filter]
    have dropped : (entry :: rest).filter (fun entry => keep entry.1 entry.2) =
        rest.filter fun entry => keep entry.1 entry.2 := by
      simp [kept]
    rw [dropped, ih distinct.2, absent]
    simp [lookup, kept, Option.filter]
  have passed : lookup key ((entry :: rest).filter fun entry => keep entry.1 entry.2) =
      lookup key (rest.filter fun entry => keep entry.1 entry.2) := by
    by_cases kept : keep entry.1 entry.2 = true
    · rw [List.filter_cons, if_pos kept]
      exact if_neg same
    · rw [List.filter_cons, if_neg kept]
  rw [passed, ih distinct.2]
  conv => rhs; unfold lookup
  rw [if_neg same]

end Entries

variable [DecidableEq κ]

def get? (map : OrderedMap κ ν) (key : κ) : Option ν :=
  lookup key map.entries

def contains (map : OrderedMap κ ν) (key : κ) : Bool :=
  (map.get? key).isSome

def insert [Ord κ] (map : OrderedMap κ ν) (key : κ) (value : ν) : OrderedMap κ ν :=
  if present : key ∈ map.entries.map Prod.fst then
    { entries := replaceEntry key value map.entries
      distinct := by
        rw [keys_replaceEntry]
        exact map.distinct }
  else
    { entries := placeEntry key value map.entries
      distinct := by
        refine (keys_placeEntry key value map.entries).nodup_iff.mpr ?_
        exact List.nodup_cons.mpr ⟨present, map.distinct⟩ }

def retain (map : OrderedMap κ ν) (keep : κ → ν → Bool) : OrderedMap κ ν :=
  { entries := map.entries.filter fun entry => keep entry.1 entry.2
    distinct := map.distinct.sublist (List.filter_sublist.map _) }

def remove (map : OrderedMap κ ν) (key : κ) : OrderedMap κ ν :=
  map.retain fun other _ => decide (other ≠ key)

def total (measure : ν → Nat) (map : OrderedMap κ ν) : Nat :=
  sumOf measure map.entries

def size (map : OrderedMap κ ν) : Nat :=
  map.entries.length

@[simp] theorem get?_empty (key : κ) : (empty : OrderedMap κ ν).get? key = none := rfl

variable {map : OrderedMap κ ν} {key : κ}

theorem get?_eq_some_iff {value : ν} : map.get? key = some value ↔ (key, value) ∈ map.entries :=
  ⟨mem_of_lookup, lookup_eq_some_of_mem map.distinct⟩

theorem get?_insert_self [Ord κ] (map : OrderedMap κ ν) (key : κ) (value : ν) :
    (map.insert key value).get? key = some value := by
  unfold insert get?
  split
  next present => exact lookup_replaceEntry_self present
  next absent => exact lookup_placeEntry_self absent

variable {other : κ}

theorem get?_insert_other [Ord κ] (map : OrderedMap κ ν) (value : ν) (apart : key ≠ other) :
    (map.insert key value).get? other = map.get? other := by
  unfold insert get?
  split
  · exact lookup_replaceEntry_other apart
  · exact lookup_placeEntry_other apart

theorem get?_retain (map : OrderedMap κ ν) (keep : κ → ν → Bool) (key : κ) :
    (map.retain keep).get? key = (map.get? key).filter (keep key) :=
  lookup_filter map.distinct

theorem get?_remove_self (map : OrderedMap κ ν) (key : κ) : (map.remove key).get? key = none := by
  unfold remove
  rw [get?_retain]
  cases map.get? key with
  | none => rfl
  | some value => simp

theorem get?_remove_other (map : OrderedMap κ ν) (apart : other ≠ key) :
    (map.remove key).get? other = map.get? other := by
  unfold remove
  rw [get?_retain]
  cases map.get? other with
  | none => rfl
  | some value => simp [apart]

theorem total_insert_replaced [Ord κ] (measure : ν → Nat) {old : ν} (value : ν)
    (found : map.get? key = some old) :
    (map.insert key value).total measure + measure old = map.total measure + measure value := by
  have present : key ∈ map.entries.map Prod.fst := List.mem_map_of_mem (mem_of_lookup found)
  unfold insert total
  rw [dif_pos present]
  exact sumOf_replaceEntry found

theorem total_insert_fresh [Ord κ] (measure : ν → Nat) (value : ν) (absent : map.get? key = none) :
    (map.insert key value).total measure = map.total measure + measure value := by
  unfold insert total
  rw [dif_neg (lookup_eq_none_iff.mp absent)]
  exact sumOf_placeEntry measure key value map.entries

omit [DecidableEq κ] in
theorem size_eq_total (map : OrderedMap κ ν) : map.size = map.total fun _ => 1 := by
  unfold size total
  induction map.entries with
  | nil => rfl
  | cons entry rest ih =>
    unfold sumOf
    rw [List.length_cons, ih, Nat.add_comm]

end OrderedMap
