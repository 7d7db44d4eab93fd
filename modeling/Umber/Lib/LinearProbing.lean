/-! Open addressing with linear probing: an item stands at the first slot from its home on
that was free when it came. -/

set_option autoImplicit false

namespace LinearProbing

variable {α : Type}

def slotAt (size home distance : Nat) : Nat := (home + distance) % size

variable {size : Nat}

theorem slotAt_lt (positive : 0 < size) (home distance : Nat) :
    slotAt size home distance < size := Nat.mod_lt _ positive

variable {home : Nat}

theorem slotAt_zero (inside : home < size) : slotAt size home 0 = home :=
  Nat.mod_eq_of_lt inside

variable {distance : Nat}

theorem slotAt_eq (inside : home < size) (near : distance < size) : slotAt size home distance =
      if home + distance < size then home + distance else home + distance - size := by
  unfold slotAt
  split
  next low => exact Nat.mod_eq_of_lt low
  next high => rw [Nat.mod_eq_sub_mod (by omega), Nat.mod_eq_of_lt (by omega)]

variable {other : Nat}

theorem slotAt_injective (inside : home < size) (near : distance < size) (close : other < size)
    (same : slotAt size home distance = slotAt size home other) : distance = other := by
  rw [slotAt_eq inside near, slotAt_eq inside close] at same
  split at same
  next => split at same <;> omega
  next => split at same <;> omega

theorem slotAt_next (size home distance : Nat) :
    slotAt size ((home + 1) % size) distance = slotAt size home (distance + 1) := by
  rw [slotAt, slotAt, Nat.mod_add_mod, Nat.add_assoc, Nat.add_comm 1]

variable {slot : Nat}

theorem exists_slotAt (inside : slot < size) (start : home < size) :
    ∃ distance, distance < size ∧ slotAt size home distance = slot := by
  by_cases behind : home ≤ slot
  · refine ⟨slot - home, by omega, ?_⟩
    rw [slotAt, Nat.add_sub_cancel' behind, Nat.mod_eq_of_lt inside]
  refine ⟨slot + size - home, by omega, ?_⟩
  have around : home + (slot + size - home) = slot + size := by omega
  rw [slotAt, around, Nat.add_mod_right, Nat.mod_eq_of_lt inside]

def Filled (buckets : List (Option α)) (slot : Nat) : Prop :=
  ∃ item, buckets[slot]? = some (some item)

structure Placed (home : α → Nat) (items : List α) (buckets : List (Option α)) : Prop where
  members : ∀ (slot : Nat) item, buckets[slot]? = some (some item) → item ∈ items
  unique : ∀ (slot other : Nat) item, buckets[slot]? = some (some item) →
    buckets[other]? = some (some item) → slot = other
  placed : ∀ item, item ∈ items → ∃ distance, distance < buckets.length ∧
    buckets[slotAt buckets.length (home item) distance]? = some (some item) ∧
    ∀ nearer, nearer < distance → Filled buckets (slotAt buckets.length (home item) nearer)
  filled : buckets.countP Option.isSome = items.length

variable {item : α}

theorem getElem?_replicate_ne_some :
    (List.replicate size (none : Option α))[slot]? ≠ some (some item) := by
  intro found
  have none := List.eq_of_mem_replicate (List.mem_of_getElem? found)
  cases none

theorem placed_empty (home : α → Nat) (size : Nat) :
    Placed home [] (List.replicate size none) where
  members := fun _ _ found => absurd found getElem?_replicate_ne_some
  unique := fun _ _ _ found => absurd found getElem?_replicate_ne_some
  placed := nofun
  filled := by
    rw [List.countP_replicate]
    rfl

variable {items : List α} {buckets : List (Option α)}

/-- A table with fewer items than slots has a free slot. -/
theorem Placed.exists_free {home : α → Nat} (placed : Placed home items buckets)
    (room : items.length < buckets.length) : ∃ slot : Nat, buckets[slot]? = some none := by
  refine Classical.byContradiction fun none => ?_
  have full : buckets.countP Option.isSome = buckets.length := by
    refine List.countP_eq_length.mpr fun bucket member => ?_
    cases bucket with
    | some item => rfl
    | none =>
      obtain ⟨slot, inside, same⟩ := List.mem_iff_getElem.mp member
      exact absurd ⟨slot, List.getElem?_eq_some_iff.mpr ⟨inside, same⟩⟩ none
  have count := placed.filled
  omega

theorem getElem?_set_of_some {bucket : Option α} (free : buckets[slot]? = some none)
    (found : (buckets.set slot (some item))[other]? = some bucket) :
    other = slot ∧ bucket = some item ∨ other ≠ slot ∧ buckets[other]? = some bucket := by
  by_cases same : slot = other
  · subst same
    have inside := (List.getElem?_eq_some_iff.mp free).1
    rw [List.getElem?_set_self inside] at found
    exact .inl ⟨rfl, (Option.some.inj found).symm⟩
  rw [List.getElem?_set_ne same] at found
  exact .inr ⟨fun impossible => same impossible.symm, found⟩

theorem Filled.set (item : α) (free : buckets[slot]? = some none) (filled : Filled buckets other) :
    Filled (buckets.set slot (some item)) other := by
  obtain ⟨older, found⟩ := filled
  have apart : slot ≠ other := by
    intro same
    rw [same, found] at free
    cases free
  exact ⟨older, by rw [List.getElem?_set_ne apart]; exact found⟩

/-- A new item at the first free slot from its home on. -/
theorem Placed.insert {home : α → Nat} (placed : Placed home items buckets) (fresh : item ∉ items)
    (near : distance < buckets.length)
    (free : buckets[slotAt buckets.length (home item) distance]? = some none)
    (behind : ∀ nearer, nearer < distance →
      Filled buckets (slotAt buckets.length (home item) nearer)) :
    Placed home (items ++ [item])
      (buckets.set (slotAt buckets.length (home item) distance) (some item)) where
  members := by
    intro slot other found
    rcases getElem?_set_of_some free found with ⟨_, same⟩ | ⟨_, older⟩
    · exact List.mem_append_right _ (List.mem_singleton.mpr (Option.some.inj same))
    · exact List.mem_append_left _ (placed.members slot other older)
  unique := by
    intro slot second other found again
    rcases getElem?_set_of_some free found with ⟨here, same⟩ | ⟨_, older⟩
    · rcases getElem?_set_of_some free again with ⟨there, _⟩ | ⟨_, older⟩
      · rw [here, there]
      rw [Option.some.inj same] at older
      exact absurd (placed.members second item older) fresh
    rcases getElem?_set_of_some free again with ⟨_, same⟩ | ⟨_, oldest⟩
    · rw [Option.some.inj same] at older
      exact absurd (placed.members slot item older) fresh
    · exact placed.unique slot second other older oldest
  placed := by
    intro other member
    rw [List.length_set]
    rcases List.mem_append.mp member with older | new
    · obtain ⟨away, near, found, filled⟩ := placed.placed other older
      refine ⟨away, near, ?_, fun nearer less => (filled nearer less).set item free⟩
      obtain ⟨kept, again⟩ := Filled.set item free ⟨other, found⟩
      rcases getElem?_set_of_some free again with ⟨here, _⟩ | ⟨_, same⟩
      · rw [here, free] at found
        cases found
      rw [found] at same
      cases same
      exact again
    obtain rfl := List.mem_singleton.mp new
    refine ⟨distance, near, ?_, fun nearer less => (behind nearer less).set _ free⟩
    rw [List.getElem?_set_self (List.getElem?_eq_some_iff.mp free).1]
  filled := by
    obtain ⟨inside, same⟩ := List.getElem?_eq_some_iff.mp free
    have filled := placed.filled
    rw [List.countP_set inside, same, List.length_append, filled]
    simp

/-! ## Probing -/

def probe (stop : Option α → Bool) (buckets : List (Option α)) : Nat → Nat → Option Nat
  | 0, _ => none
  | rounds + 1, slot =>
    if buckets[slot]?.any stop then some slot
    else probe stop buckets rounds ((slot + 1) % buckets.length)

theorem probe_eq_some {stop : Option α → Bool} {rounds : Nat} (inside : home < buckets.length)
    (near : distance < rounds)
    (stops : (buckets[slotAt buckets.length home distance]?).any stop = true)
    (goes : ∀ nearer, nearer < distance →
      (buckets[slotAt buckets.length home nearer]?).any stop = false) :
    probe stop buckets rounds home = some (slotAt buckets.length home distance) := by
  induction rounds generalizing home distance with
  | zero => omega
  | succ rounds ih => ?_
  rw [probe]
  cases distance with
  | zero =>
    rw [slotAt_zero inside] at stops ⊢
    rw [if_pos stops]
  | succ distance => ?_
  have first := goes 0 (Nat.succ_pos _)
  rw [slotAt_zero inside] at first
  rw [if_neg (by rw [first]; exact Bool.false_ne_true), ← slotAt_next]
  refine ih (Nat.mod_lt _ (by omega)) (Nat.lt_of_succ_lt_succ near) ?_ ?_
  · rw [slotAt_next]
    exact stops
  intro nearer less
  rw [slotAt_next]
  exact goes (nearer + 1) (Nat.succ_lt_succ less)

/-- Of the distances at which a search would stop, it takes the least. -/
theorem exists_least {stop : Nat → Prop} {distance : Nat} (stops : stop distance) :
    ∃ least, least ≤ distance ∧ stop least ∧ ∀ nearer, nearer < least → ¬ stop nearer := by
  induction distance using Nat.strongRecOn with
  | _ distance ih => ?_
  by_cases nearer : ∃ nearer, nearer < distance ∧ stop nearer
  · obtain ⟨nearer, less, earlier⟩ := nearer
    obtain ⟨least, below, found, minimal⟩ := ih nearer less earlier
    exact ⟨least, by omega, found, minimal⟩
  · exact ⟨distance, Nat.le_refl _, stops, fun other less found => nearer ⟨other, less, found⟩⟩

/-- A table with a free slot has one that a probe finds, behind filled slots. -/
theorem probe_free (inside : home < buckets.length) (free : buckets[slot]? = some none) :
    ∃ distance, distance < buckets.length ∧
      probe Option.isNone buckets buckets.length home = some (slotAt buckets.length home distance) ∧
      buckets[slotAt buckets.length home distance]? = some none ∧
      ∀ nearer, nearer < distance → Filled buckets (slotAt buckets.length home nearer) := by
  have positive : 0 < buckets.length := by omega
  obtain ⟨away, near, same⟩ := exists_slotAt (List.getElem?_eq_some_iff.mp free).1 inside
  have stops : buckets[slotAt buckets.length home away]? = some none := by rw [same]; exact free
  obtain ⟨least, below, found, minimal⟩ := @exists_least
    (fun distance => buckets[slotAt buckets.length home distance]? = some none) away stops
  have filled : ∀ nearer, nearer < least →
      Filled buckets (slotAt buckets.length home nearer) := by
    intro nearer less
    cases present : buckets[slotAt buckets.length home nearer]? with
    | none =>
      have beyond := List.getElem?_eq_none_iff.mp present
      have bound := slotAt_lt positive home nearer
      omega
    | some bucket => ?_
    cases bucket with
    | none => exact absurd present (minimal nearer less)
    | some item => exact ⟨item, present⟩
  refine ⟨least, by omega, probe_eq_some inside (by omega) (by rw [found]; rfl) ?_, found, filled⟩
  intro nearer less
  obtain ⟨item, other⟩ := filled nearer less
  rw [other]
  rfl

variable {wanted : α → Bool}

/-- A search for an item of the table stops at the item. -/
theorem Placed.probe_item {home : α → Nat} (placed : Placed home items buckets)
    (member : item ∈ items) (found : wanted item = true)
    (only : ∀ other ∈ items, wanted other = true → other = item)
    (inside : home item < buckets.length) :
    ∃ slot, probe (fun bucket => bucket.all wanted) buckets buckets.length (home item) = some slot ∧
      buckets[slot]? = some (some item) := by
  obtain ⟨distance, near, here, filled⟩ := placed.placed item member
  refine ⟨_, probe_eq_some inside near (by rw [here]; exact found) ?_, here⟩
  intro nearer less
  obtain ⟨other, present⟩ := filled nearer less
  rw [present]
  refine Bool.eq_false_iff.mpr fun stops => ?_
  have same := only other (placed.members _ other present) stops
  have twice := placed.unique _ _ item (same ▸ present) here
  have distances := slotAt_injective inside (by omega) near twice
  omega

/-- A search for no item of the table ends at a free slot or goes all around. -/
theorem Placed.probe_missing {home : α → Nat} (placed : Placed home items buckets)
    (missing : ∀ item ∈ items, wanted item = false) (rounds start : Nat)
    (found : probe (fun bucket => bucket.all wanted) buckets rounds start = some slot) :
    buckets[slot]? = some none := by
  induction rounds generalizing start with
  | zero => cases found
  | succ rounds ih => ?_
  rw [probe] at found
  split at found
  next stops =>
    cases found
    cases present : buckets[slot]? with
    | none =>
      rw [present] at stops
      cases stops
    | some bucket => ?_
    cases bucket with
    | none => rfl
    | some item => ?_
    have absent := missing item (placed.members slot item present)
    rw [present] at stops
    exact absurd absent (by simpa using stops)
  next => exact ih _ found

end LinearProbing
