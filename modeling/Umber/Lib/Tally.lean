/-! Tables that count, under each key, how many holders the key has. A table has
one entry for a key with holders and none for a key without. -/

set_option autoImplicit false

variable {α κ : Type}

structure Tally (key : α → κ) (count : α → Nat) (table : List α) (holders : κ → Nat) : Prop where
  distinct : (table.map key).Nodup
  counted : ∀ entry ∈ table, count entry = holders (key entry)
  positive : ∀ entry ∈ table, 0 < count entry
  complete : ∀ held, 0 < holders held → ∃ entry ∈ table, key entry = held

namespace Tally

variable {key : α → κ} {count : α → Nat} {table : List α} {holders : κ → Nat}

theorem empty (none : ∀ held, holders held = 0) : Tally key count [] holders where
  distinct := .nil
  counted := nofun
  positive := nofun
  complete := fun held some => absurd some (by simp [none held])

theorem congr {other : κ → Nat} (tally : Tally key count table holders)
    (same : ∀ held, other held = holders held) : Tally key count table other where
  distinct := tally.distinct
  counted := fun entry member => by rw [tally.counted entry member, same]
  positive := tally.positive
  complete := fun held some => tally.complete held (same held ▸ some)

theorem holders_eq_zero (tally : Tally key count table holders) {held : κ}
    (absent : ∀ entry ∈ table, key entry ≠ held) : holders held = 0 := by
  rcases Nat.eq_zero_or_pos (holders held) with zero | some
  · exact zero
  obtain ⟨entry, member, same⟩ := tally.complete held some
  exact absurd same (absent entry member)

section Update

variable [DecidableEq κ] {update : α → α} {held : κ}

def updated (table : List α) (key : α → κ) (held : κ) (update : α → α) : List α :=
  table.map fun entry => if key entry = held then update entry else entry

theorem map_key_updated (keeps : ∀ entry, key (update entry) = key entry) :
    (updated table key held update).map key = table.map key := by
  unfold updated
  rw [List.map_map]
  apply List.map_congr_left
  intro entry _
  by_cases same : key entry = held
  · simp [same, keeps]
  · simp [same]

theorem mem_updated {result : α} (member : result ∈ updated table key held update) :
    ∃ entry ∈ table, (key entry = held ∧ result = update entry) ∨
      (key entry ≠ held ∧ result = entry) := by
  obtain ⟨entry, included, same⟩ := List.mem_map.mp member
  refine ⟨entry, included, ?_⟩
  by_cases target : key entry = held
  · exact .inl ⟨target, by simpa [target] using same.symm⟩
  · exact .inr ⟨target, by simpa [target] using same.symm⟩

variable (tally : Tally key count table holders)
include tally

theorem raise (keeps : ∀ entry, key (update entry) = key entry)
    (raises : ∀ entry, count (update entry) = count entry + 1)
    (present : ∃ entry ∈ table, key entry = held) :
    Tally key count (updated table key held update)
      (fun other => holders other + if held = other then 1 else 0) where
  distinct := by
    rw [map_key_updated keeps]
    exact tally.distinct
  counted := by
    intro result member
    obtain ⟨entry, included, ⟨target, rfl⟩ | ⟨other, rfl⟩⟩ := mem_updated member
    · simp [raises, keeps, tally.counted entry included, target]
    · simp [tally.counted result included, Ne.symm other]
  positive := by
    intro result member
    obtain ⟨entry, included, ⟨_, rfl⟩ | ⟨_, rfl⟩⟩ := mem_updated member
    · simp [raises]
    · exact tally.positive result included
  complete := by
    intro other some
    have found : ∃ entry ∈ table, key entry = other := by
      by_cases same : held = other
      · exact same ▸ present
      · exact tally.complete other (by simpa [same] using some)
    obtain ⟨entry, included, rfl⟩ := found
    refine ⟨_, List.mem_map_of_mem included, ?_⟩
    by_cases target : key entry = held
    · simp [target, keeps]
    · simp [target]

theorem enter {entry : α}
    (single : count entry = 1) (absent : ∀ other ∈ table, key other ≠ key entry) :
    Tally key count (table ++ [entry])
      (fun other => holders other + if key entry = other then 1 else 0) where
  distinct := by
    rw [List.map_append, List.nodup_append]
    refine ⟨tally.distinct, by simp, ?_⟩
    intro held member other single same
    obtain ⟨older, included, rfl⟩ := List.mem_map.mp member
    simp only [List.map_cons, List.map_nil, List.mem_singleton] at single
    exact absent older included (same.trans single)
  counted := by
    intro other member
    rcases List.mem_append.mp member with older | newer
    · simp [tally.counted other older, Ne.symm (absent other older)]
    cases List.mem_singleton.mp newer
    simp [single, tally.holders_eq_zero absent]
  positive := by
    intro other member
    rcases List.mem_append.mp member with older | newer
    · exact tally.positive other older
    cases List.mem_singleton.mp newer
    simp [single]
  complete := by
    intro other some
    by_cases same : key entry = other
    · exact ⟨entry, by simp, same⟩
    obtain ⟨older, included, found⟩ := tally.complete other (by simpa [same] using some)
    exact ⟨older, List.mem_append_left _ included, found⟩

/-- A holder of a key leaves; the last one takes the entry with it. -/
theorem lower (keeps : ∀ entry, key (update entry) = key entry)
    (lowers : ∀ entry, count (update entry) = count entry - 1) :
    Tally key count
      ((updated table key held update).filter fun entry => ¬ (key entry = held ∧ count entry = 0))
      (fun other => holders other - if held = other then 1 else 0) where
  distinct :=
    (map_key_updated keeps ▸ tally.distinct).sublist (List.filter_sublist.map key)
  counted := by
    intro result member
    obtain ⟨entry, included, ⟨target, rfl⟩ | ⟨other, rfl⟩⟩ :=
      mem_updated (List.mem_filter.mp member).1
    · simp [lowers, keeps, tally.counted entry included, target]
    · simp [tally.counted result included, Ne.symm other]
  positive := by
    intro result member
    obtain ⟨updated, kept⟩ := List.mem_filter.mp member
    obtain ⟨entry, included, ⟨target, rfl⟩ | ⟨_, rfl⟩⟩ := mem_updated updated
    · have nonzero : count (update entry) ≠ 0 := by simpa [keeps, target] using kept
      exact Nat.pos_of_ne_zero nonzero
    · exact tally.positive result included
  complete := by
    intro other some
    obtain ⟨entry, included, rfl⟩ := tally.complete other (by omega)
    by_cases target : held = key entry
    · refine ⟨update entry, List.mem_filter.mpr ⟨?_, ?_⟩, keeps entry⟩
      · exact List.mem_map.mpr ⟨entry, included, by simp [target]⟩
      have counted := tally.counted entry included
      simp only [target, if_true] at some
      have remains : count (update entry) ≠ 0 := by rw [lowers]; omega
      simp [remains]
    refine ⟨entry, List.mem_filter.mpr ⟨?_, ?_⟩, rfl⟩
    · exact List.mem_map.mpr ⟨entry, included, by simp [Ne.symm target]⟩
    · simp [Ne.symm target]

end Update

end Tally
