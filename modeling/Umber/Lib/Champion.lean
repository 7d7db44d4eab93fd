/-! Champions of slots: of the values of one group and slot only a cheapest one
is kept, and of one group only those within a margin of its cheapest one. -/

set_option autoImplicit false

namespace Champion

variable {α γ σ : Type} [DecidableEq γ] [DecidableEq σ]

section Record

variable (group : α → γ) (slot : α → σ) (cost : α → Int)

/-- Replace the champion of a slot in the group that a list starts with. An equal
later value replaces an earlier one. -/
def replace (value : α) : List α → Option (List α)
  | [] => none
  | current :: rest =>
    if group current ≠ group value then none
    else if slot current = slot value then
      some ((if cost value ≤ cost current then value else current) :: rest)
    else (replace value rest).map (current :: ·)

def record (champions : List α) (value : α) : List α :=
  match replace group slot cost value champions.reverse with
  | some replaced => replaced.reverse
  | none => champions ++ [value]

variable {group slot cost} {champions replaced : List α} {value other : α}

theorem mem_replace (found : replace group slot cost value champions = some replaced)
    (member : other ∈ replaced) : other ∈ champions ∨ other = value := by
  induction champions generalizing replaced with
  | nil => cases found
  | cons current rest ih => ?_
  unfold replace at found
  split at found
  · cases found
  split at found
  · cases found
    rcases List.mem_cons.mp member with same | later
    · rw [same]
      split
      · exact .inr rfl
      · exact .inl List.mem_cons_self
    · exact .inl (List.mem_cons_of_mem _ later)
  obtain ⟨behind, inner, rfl⟩ := Option.map_eq_some_iff.mp found
  rcases List.mem_cons.mp member with same | later
  · rw [same]
    exact .inl List.mem_cons_self
  rcases ih inner later with earlier | same
  · exact .inl (List.mem_cons_of_mem _ earlier)
  · exact .inr same

/-- Whatever stood in the list, or was entered, has a champion that is no
dearer. -/
theorem replace_covers (found : replace group slot cost value champions = some replaced)
    (member : other ∈ champions ∨ other = value) :
    ∃ champion ∈ replaced, group champion = group other ∧ slot champion = slot other ∧
      cost champion ≤ cost other := by
  induction champions generalizing replaced with
  | nil => cases found
  | cons current rest ih => ?_
  unfold replace at found
  split at found
  · cases found
  rename_i sameGroup
  have sameGroup := Decidable.not_not.mp sameGroup
  split at found
  · rename_i sameSlot
    cases found
    by_cases cheaper : cost value ≤ cost current
    · rw [if_pos cheaper]
      rcases member with listed | same
      · rcases List.mem_cons.mp listed with same | later
        · rw [same]
          exact ⟨value, List.mem_cons_self, sameGroup.symm, sameSlot.symm, cheaper⟩
        · exact ⟨other, List.mem_cons_of_mem _ later, rfl, rfl, Int.le_refl _⟩
      rw [same]
      exact ⟨value, List.mem_cons_self, rfl, rfl, Int.le_refl _⟩
    rw [if_neg cheaper]
    rcases member with listed | same
    · exact ⟨other, listed, rfl, rfl, Int.le_refl _⟩
    rw [same]
    exact ⟨current, List.mem_cons_self, sameGroup, sameSlot, Int.le_of_lt (Int.not_le.mp cheaper)⟩
  obtain ⟨behind, inner, rfl⟩ := Option.map_eq_some_iff.mp found
  rcases member with listed | same
  · rcases List.mem_cons.mp listed with same | later
    · rw [same]
      exact ⟨current, List.mem_cons_self, rfl, rfl, Int.le_refl _⟩
    obtain ⟨champion, held, facts⟩ := ih inner (.inl later)
    exact ⟨champion, List.mem_cons_of_mem _ held, facts⟩
  obtain ⟨champion, held, facts⟩ := ih inner (.inr same)
  exact ⟨champion, List.mem_cons_of_mem _ held, facts⟩

theorem mem_record (member : other ∈ record group slot cost champions value) :
    other ∈ champions ∨ other = value := by
  unfold record at member
  split at member
  · rename_i replaced found
    rcases mem_replace found (List.mem_reverse.mp member) with earlier | same
    · exact .inl (List.mem_reverse.mp earlier)
    · exact .inr same
  rcases List.mem_append.mp member with earlier | last
  · exact .inl earlier
  · exact .inr (List.mem_singleton.mp last)

theorem record_covers (member : other ∈ champions ∨ other = value) :
    ∃ champion ∈ record group slot cost champions value,
      group champion = group other ∧ slot champion = slot other ∧ cost champion ≤ cost other := by
  unfold record
  split
  · rename_i replaced found
    have listed : other ∈ champions.reverse ∨ other = value :=
      member.imp List.mem_reverse.mpr id
    obtain ⟨champion, held, facts⟩ := replace_covers found listed
    exact ⟨champion, List.mem_reverse.mpr held, facts⟩
  refine ⟨other, ?_, rfl, rfl, Int.le_refl _⟩
  rcases member with earlier | same
  · exact List.mem_append_left _ earlier
  rw [same]
  exact List.mem_append_right _ List.mem_cons_self

theorem record_ne_nil : record group slot cost champions value ≠ [] := by
  obtain ⟨champion, held, _⟩ :=
    @record_covers α γ σ _ _ group slot cost champions value value (.inr rfl)
  exact List.ne_nil_of_mem held

section Labels

variable {κ : Type} {label : α → κ}

theorem replace_nodup (found : replace group slot cost value champions = some replaced)
    (nodup : (champions.map label).Nodup) (fresh : label value ∉ champions.map label) :
    (replaced.map label).Nodup := by
  induction champions generalizing replaced with
  | nil => cases found
  | cons current rest ih => ?_
  obtain ⟨apart, nodup⟩ := List.nodup_cons.mp nodup
  rw [List.map_cons, List.mem_cons, not_or] at fresh
  unfold replace at found
  split at found
  · cases found
  split at found
  · cases found
    rw [List.map_cons]
    refine List.nodup_cons.mpr ⟨?_, nodup⟩
    split
    · exact fresh.2
    · exact apart
  obtain ⟨behind, inner, rfl⟩ := Option.map_eq_some_iff.mp found
  rw [List.map_cons]
  refine List.nodup_cons.mpr ⟨fun member => ?_, ih inner nodup fresh.2⟩
  obtain ⟨other, listed, same⟩ := List.mem_map.mp member
  rcases mem_replace inner listed with earlier | rfl
  · rw [← same] at apart
    exact apart (List.mem_map_of_mem earlier)
  · exact fresh.1 same

/-- A value with a label of its own leaves the labels distinct. -/
theorem record_nodup (nodup : (champions.map label).Nodup)
    (fresh : label value ∉ champions.map label) :
    ((record group slot cost champions value).map label).Nodup := by
  unfold record
  split
  · rename_i replaced found
    rw [List.map_reverse]
    refine (List.reverse_perm _).nodup_iff.mpr (replace_nodup found ?_ ?_)
    · rw [List.map_reverse]
      exact (List.reverse_perm _).nodup_iff.mpr nodup
    rw [List.map_reverse, List.mem_reverse]
    exact fresh
  rw [List.map_append]
  refine List.nodup_append.mpr ⟨nodup, by simp, fun held member last same => ?_⟩
  rw [List.map_singleton, List.mem_singleton] at same
  rw [same]
  rintro rfl
  exact fresh member

end Labels

end Record

section Margin

variable (group : α → γ) (cost : α → Int)

def leastCost (champions : List α) (value : α) : Option Int :=
  ((champions.filter fun other => group other = group value).map cost).min?

/-- The value is within a margin of the least cost of its group, and below a
cap. -/
def withinMargin (margin cap : Int) (champions : List α) (value : α) : Bool :=
  (leastCost group cost champions value).any fun least =>
    decide (cost value ≤ min (least + margin) cap)

variable {group cost} {champions : List α} {value : α} {margin cap : Int}

/-- A cheapest value of the group of a listed one. -/
theorem exists_leastCost (member : value ∈ champions) :
    ∃ cheapest ∈ champions, group cheapest = group value ∧
      leastCost group cost champions value = some (cost cheapest) ∧
      ∀ other ∈ champions, group other = group value → cost cheapest ≤ cost other := by
  have listed : cost value ∈
      (champions.filter fun other => group other = group value).map cost :=
    List.mem_map_of_mem (List.mem_filter.mpr ⟨member, decide_eq_true rfl⟩)
  obtain ⟨least, found⟩ : ∃ least, leastCost group cost champions value = some least := by
    cases found : leastCost group cost champions value with
    | none =>
      rw [List.min?_eq_none_iff.mp found] at listed
      cases listed
    | some least => exact ⟨least, rfl⟩
  obtain ⟨held, bound⟩ := List.min?_eq_some_iff.mp found
  obtain ⟨cheapest, kept, rfl⟩ := List.mem_map.mp held
  obtain ⟨inside, same⟩ := List.mem_filter.mp kept
  refine ⟨cheapest, inside, of_decide_eq_true same, found, fun other listedOther sameOther => ?_⟩
  exact bound _ (List.mem_map_of_mem (List.mem_filter.mpr ⟨listedOther, decide_eq_true sameOther⟩))

/-- Each listed value is kept, or it is dearer by more than the margin than one
of its group that is kept, or dearer than the cap. -/
theorem withinMargin_covers (nonneg : 0 ≤ margin) (member : value ∈ champions) :
    withinMargin group cost margin cap champions value = true ∨
      (∃ cheapest ∈ champions, group cheapest = group value ∧ cost cheapest + margin < cost value ∧
        (cost cheapest ≤ cap → withinMargin group cost margin cap champions cheapest = true)) ∨
      cap < cost value := by
  obtain ⟨cheapest, held, same, found, least⟩ := @exists_leastCost _ _ _ group cost _ _ member
  by_cases near : cost value ≤ cost cheapest + margin
  · by_cases below : cost value ≤ cap
    · refine .inl ?_
      unfold withinMargin
      rw [found]
      exact decide_eq_true (Int.le_min.mpr ⟨near, below⟩)
    · exact .inr (.inr (Int.not_le.mp below))
  refine .inr (.inl ⟨cheapest, held, same, Int.not_le.mp near, fun below => ?_⟩)
  obtain ⟨_, _, _, foundAgain, _⟩ := @exists_leastCost _ _ _ group cost _ _ held
  have sameLeast : leastCost group cost champions cheapest = some (cost cheapest) := by
    rw [← found]
    unfold leastCost
    rw [same]
  unfold withinMargin
  rw [sameLeast]
  exact decide_eq_true (Int.le_min.mpr ⟨Int.le_add_of_nonneg_right nonneg, below⟩)

theorem le_cap_of_withinMargin (within : withinMargin group cost margin cap champions value = true) :
    cost value ≤ cap := by
  unfold withinMargin at within
  cases found : leastCost group cost champions value with
  | none =>
    rw [found] at within
    cases within
  | some least =>
    rw [found] at within
    exact Int.le_trans (of_decide_eq_true within) (Int.min_le_right ..)

end Margin

/-! ## The least value -/

def pairLt (left right : Int × Int) : Prop :=
  left.1 < right.1 ∨ left.1 = right.1 ∧ left.2 < right.2

instance (left right : Int × Int) : Decidable (pairLt left right) :=
  inferInstanceAs (Decidable (_ ∨ _))

def leastBy (key : α → Int × Int) : List α → Option α
  | [] => none
  | value :: rest =>
    match leastBy key rest with
    | none => some value
    | some other => if pairLt (key other) (key value) then some other else some value

variable {values : List α}

theorem leastBy_eq_none {key : α → Int × Int} : leastBy key values = none ↔ values = [] := by
  cases values with
  | nil => exact ⟨fun _ => rfl, fun _ => rfl⟩
  | cons value rest => ?_
  refine ⟨fun none_ => ?_, nofun⟩
  unfold leastBy at none_
  split at none_
  · cases none_
  split at none_
  · cases none_
  · cases none_

theorem leastBy_spec {key : α → Int × Int} {least : α} (found : leastBy key values = some least) :
    least ∈ values ∧ ∀ other ∈ values, ¬ pairLt (key other) (key least) := by
  induction values generalizing least with
  | nil => cases found
  | cons value rest ih => ?_
  unfold leastBy at found
  split at found
  · rename_i none_
    cases found
    rw [leastBy_eq_none.mp none_]
    refine ⟨List.mem_cons_self, fun other member => ?_⟩
    rw [List.mem_singleton.mp member]
    unfold pairLt
    omega
  rename_i other some_
  obtain ⟨held, least⟩ := ih some_
  split at found
  · rename_i less
    cases found
    refine ⟨List.mem_cons_of_mem _ held, fun another member => ?_⟩
    rcases List.mem_cons.mp member with rfl | later
    · unfold pairLt at less ⊢
      omega
    · exact least another later
  rename_i notLess
  cases found
  refine ⟨List.mem_cons_self, fun another member => ?_⟩
  rcases List.mem_cons.mp member with rfl | later
  · unfold pairLt
    omega
  have bound := least another later
  unfold pairLt at notLess bound ⊢
  omega

theorem exists_leastBy (key : α → Int × Int) (some_ : values ≠ []) :
    ∃ least, leastBy key values = some least ∧ least ∈ values := by
  cases found : leastBy key values with
  | none => exact absurd (leastBy_eq_none.mp found) some_
  | some least => exact ⟨least, rfl, (leastBy_spec found).1⟩

end Champion
