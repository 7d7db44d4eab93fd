import Mathlib.Data.List.Induction
import Umber.Lib.Champion

/-! The groups and slots of recorded champions: a stream leaves one champion for each of them
unless a slot comes back behind another group. -/

set_option autoImplicit false

namespace Champion

variable {α γ σ : Type}

def Separated (keys : List (γ × σ)) : Prop :=
  ∃ before key between after, keys = before ++ key :: (between ++ key :: after) ∧
    ∃ other ∈ between, other.1 ≠ key.1

/-- Keys in the order of their groups are not separated. -/
theorem not_separated_of_pairwise {keys : List (γ × σ)} {le : γ → γ → Prop}
    (antisymm : ∀ left right, le left right → le right left → left = right)
    (ordered : keys.Pairwise fun left right => le left.1 right.1) : ¬ Separated keys := by
  rintro ⟨before, twin, between, after, rfl, other, held, apart⟩
  have rest := (List.pairwise_append.mp ordered).2.1
  obtain ⟨above, inside⟩ := List.pairwise_cons.mp rest
  have first := above other (List.mem_append_left _ held)
  have second := (List.pairwise_append.mp inside).2.2 other held twin List.mem_cons_self
  exact apart (antisymm _ _ second first)

variable [DecidableEq γ]

def lastRun (group : γ) (keys : List (γ × σ)) : List (γ × σ) :=
  keys.reverse.takeWhile fun key => key.1 = group

/-- Enter a key: it is new unless it stands in the last run of its group. -/
def recordKey [DecidableEq σ] (keys : List (γ × σ)) (key : γ × σ) : List (γ × σ) :=
  if key ∈ lastRun key.1 keys then keys else keys ++ [key]

section Record

variable [DecidableEq σ] (group : α → γ) (slot : α → σ) (cost : α → Int)

def keyOf (value : α) : γ × σ := (group value, slot value)

variable {group slot cost}

theorem replace_keys (value : α) (champions : List α) : (keyOf group slot value ∈
        (champions.map (keyOf group slot)).takeWhile (fun key => key.1 = group value) →
      ∃ replaced, replace group slot cost value champions = some replaced ∧
        replaced.map (keyOf group slot) = champions.map (keyOf group slot)) ∧
    (keyOf group slot value ∉
        (champions.map (keyOf group slot)).takeWhile (fun key => key.1 = group value) →
      replace group slot cost value champions = none) := by
  induction champions with
  | nil => exact ⟨fun member => absurd member List.not_mem_nil, fun _ => rfl⟩
  | cons current rest ih => ?_
  rw [List.map_cons, List.takeWhile_cons, replace]
  by_cases sameGroup : group current = group value
  · have passed : decide ((keyOf group slot current).1 = group value) = true :=
      decide_eq_true sameGroup
    rw [passed, if_pos rfl, if_neg (not_not_intro sameGroup)]
    by_cases sameSlot : slot current = slot value
    · rw [if_pos sameSlot]
      have same : keyOf group slot value = keyOf group slot current :=
        Prod.ext sameGroup.symm sameSlot.symm
      refine ⟨fun _ => ⟨_, rfl, ?_⟩, fun absent => absurd ?_ absent⟩
      · rw [List.map_cons]
        split
        · rw [same]
        · rfl
      rw [same]
      exact List.mem_cons_self
    rw [if_neg sameSlot]
    have apart : keyOf group slot value ≠ keyOf group slot current := fun same =>
      sameSlot (congrArg Prod.snd same).symm
    constructor
    · intro member
      rcases List.mem_cons.mp member with same | later
      · exact absurd same apart
      obtain ⟨replaced, found, keys⟩ := ih.1 later
      exact ⟨current :: replaced, by rw [found]; rfl, by rw [List.map_cons, keys]⟩
    intro absent
    rw [ih.2 fun later => absent (List.mem_cons_of_mem _ later)]
    rfl
  have failed : decide ((keyOf group slot current).1 = group value) = false :=
    decide_eq_false sameGroup
  rw [failed, if_neg Bool.false_ne_true, if_pos sameGroup]
  exact ⟨fun member => absurd member List.not_mem_nil, fun _ => rfl⟩

/-- The keys of the champions do not depend on what they cost. -/
theorem record_keys (champions : List α) (value : α) :
    (record group slot cost champions value).map (keyOf group slot) =
      recordKey (champions.map (keyOf group slot)) (keyOf group slot value) := by
  obtain ⟨present, absent⟩ := @replace_keys α γ σ _ _ group slot cost value champions.reverse
  rw [List.map_reverse] at present absent
  unfold record recordKey lastRun
  by_cases member : keyOf group slot value ∈
      (champions.map (keyOf group slot)).reverse.takeWhile fun key => key.1 = group value
  · obtain ⟨replaced, found, keys⟩ := present member
    rw [found]
    dsimp only
    rw [List.map_reverse, keys, List.reverse_reverse]
    exact (if_pos member).symm
  rw [absent member]
  dsimp only
  rw [List.map_append, List.map_cons, List.map_nil]
  exact (if_neg member).symm

theorem foldl_record_keys (values champions : List α) :
    (values.foldl (record group slot cost) champions).map (keyOf group slot) =
      (values.map (keyOf group slot)).foldl recordKey (champions.map (keyOf group slot)) := by
  induction values generalizing champions with
  | nil => rfl
  | cons value rest ih =>
    rw [List.foldl_cons, ih, record_keys, List.map_cons, List.foldl_cons]

end Record

section Keys

variable {keys : List (γ × σ)} {key : γ × σ} {group : γ}

theorem mem_takeWhile {test : α → Bool} {values : List α} {value : α} :
    value ∈ values.takeWhile test ↔
      ∃ before after, values = before ++ value :: after ∧ test value = true ∧
        ∀ other ∈ before, test other = true := by
  induction values with
  | nil => simp
  | cons first rest ih => ?_
  rw [List.takeWhile_cons]
  constructor
  · intro member
    split at member
    · rename_i passes
      rcases List.mem_cons.mp member with rfl | later
      · exact ⟨[], rest, rfl, passes, fun _ absent => absurd absent List.not_mem_nil⟩
      obtain ⟨before, after, rfl, own, earlier⟩ := ih.mp later
      exact ⟨first :: before, after, rfl, own, List.forall_mem_cons.mpr ⟨passes, earlier⟩⟩
    · cases member
  rintro ⟨before, after, shape, own, earlier⟩
  cases before with
  | nil =>
    obtain ⟨rfl, rfl⟩ := List.cons.inj shape
    rw [if_pos own]
    exact List.mem_cons_self
  | cons head before => ?_
  obtain ⟨rfl, rfl⟩ := List.cons.inj shape
  obtain ⟨passes, earlier⟩ := List.forall_mem_cons.mp earlier
  rw [if_pos passes]
  exact List.mem_cons_of_mem _ (ih.mpr ⟨before, after, rfl, own, earlier⟩)

theorem mem_lastRun : key ∈ lastRun group keys ↔
    ∃ before after, keys = before ++ key :: after ∧ key.1 = group ∧
      ∀ other ∈ after, other.1 = group := by
  unfold lastRun
  rw [mem_takeWhile]
  constructor
  · rintro ⟨before, after, shape, own, earlier⟩
    refine ⟨after.reverse, before.reverse, ?_, of_decide_eq_true own, fun other member => ?_⟩
    · rw [← List.reverse_reverse keys, shape]
      simp
    · exact of_decide_eq_true (earlier other (List.mem_reverse.mp member))
  rintro ⟨before, after, rfl, own, behind⟩
  refine ⟨after.reverse, before.reverse, by simp, decide_eq_true own, fun other member => ?_⟩
  exact decide_eq_true (behind other (List.mem_reverse.mp member))

theorem lastRun_concat (group : γ) (keys : List (γ × σ)) (key : γ × σ) :
    lastRun group (keys ++ [key]) = if key.1 = group then key :: lastRun group keys else [] := by
  unfold lastRun
  rw [List.reverse_append, List.reverse_singleton, List.singleton_append, List.takeWhile_cons]
  by_cases same : key.1 = group
  · rw [if_pos same, if_pos (decide_eq_true same)]
  · rw [if_neg same, if_neg (by simpa using same)]

variable {other : γ × σ}

/-- A key that stands before another group and in the last run comes back. -/
theorem separated_of_lastRun {before between : List (γ × σ)}
    (listed : key ∈ lastRun key.1 (before ++ key :: between)) (held : other ∈ between)
    (apart : other.1 ≠ key.1) : Separated (before ++ key :: between) := by
  obtain ⟨earlier, after, shape, _, behind⟩ := mem_lastRun.mp listed
  have outside : other ∉ after := fun inside => apart (behind other inside)
  rcases List.append_eq_append_iff.mp shape with ⟨middle, rfl, ends⟩ | ⟨middle, rfl, ends⟩
  · cases middle with
    | nil =>
      obtain ⟨_, rfl⟩ := List.cons.inj ends
      exact absurd held outside
    | cons first middle =>
      obtain ⟨rfl, rfl⟩ := List.cons.inj ends
      refine ⟨before, key, middle, after, rfl, other, ?_, apart⟩
      rcases List.mem_append.mp held with inside | later
      · exact inside
      rcases List.mem_cons.mp later with rfl | last
      · exact absurd rfl apart
      · exact absurd last outside
  cases middle with
  | nil =>
    obtain ⟨_, rfl⟩ := List.cons.inj ends
    exact absurd held outside
  | cons first middle =>
    obtain ⟨_, rfl⟩ := List.cons.inj ends
    exact absurd (List.mem_append_right _ (List.mem_cons_of_mem _ held)) outside

theorem separated_concat :
    Separated (keys ++ [key]) ↔ Separated keys ∨ key ∈ keys ∧ key ∉ lastRun key.1 keys := by
  constructor
  · rintro ⟨before, twin, between, after, shape, other, held, apart⟩
    rcases List.eq_nil_or_concat after with rfl | ⟨rest, last, rfl⟩
    · have ends : keys ++ [key] = (before ++ twin :: between) ++ [twin] := by
        rw [shape]
        simp
      obtain ⟨rfl, same⟩ := List.append_inj' ends rfl
      obtain ⟨rfl, _⟩ := List.cons.inj same
      by_cases listed : key ∈ lastRun key.1 (before ++ key :: between)
      · exact .inl (separated_of_lastRun listed held apart)
      · exact .inr ⟨List.mem_append_right _ List.mem_cons_self, listed⟩
    have ends : keys ++ [key] = (before ++ twin :: (between ++ twin :: rest)) ++ [last] := by
      rw [shape]
      simp
    obtain ⟨rfl, _⟩ := List.append_inj' ends rfl
    exact .inl ⟨before, twin, between, rest, rfl, other, held, apart⟩
  rintro (⟨before, twin, between, after, rfl, other⟩ | ⟨member, absent⟩)
  · exact ⟨before, twin, between, after ++ [key], by simp, other⟩
  obtain ⟨before, between, rfl⟩ := List.append_of_mem member
  refine ⟨before, key, between, [], by simp, ?_⟩
  by_cases same : ∃ other ∈ between, other.1 ≠ key.1
  · exact same
  refine absurd (mem_lastRun.mpr ⟨before, between, rfl, rfl, fun other held => ?_⟩) absent
  exact Decidable.not_not.mp fun apart => same ⟨other, held, apart⟩

variable [DecidableEq σ]

theorem mem_recordKey : other ∈ recordKey keys key ↔ other ∈ keys ∨ other = key := by
  unfold recordKey
  split
  · rename_i listed
    refine ⟨.inl, fun member => ?_⟩
    rcases member with held | rfl
    · exact held
    obtain ⟨before, after, rfl, _⟩ := mem_lastRun.mp listed
    exact List.mem_append_right _ List.mem_cons_self
  · rw [List.mem_append, List.mem_singleton]

theorem mem_lastRun_recordKey : other ∈ lastRun group (recordKey keys key) ↔
      if key.1 = group then other = key ∨ other ∈ lastRun group keys else False := by
  unfold recordKey
  split
  · rename_i listed
    split
    · rename_i same
      subst same
      refine ⟨.inr, fun either => ?_⟩
      rcases either with rfl | held
      · exact listed
      · exact held
    rename_i apart
    refine ⟨fun member => ?_, False.elim⟩
    rcases List.eq_nil_or_concat keys with rfl | ⟨earlier, last, rfl⟩
    · cases member
    rw [List.concat_eq_append, lastRun_concat] at listed member
    split at listed
    · rename_i ends
      rw [if_neg (by rw [ends]; exact apart)] at member
      cases member
    · cases listed
  rw [lastRun_concat]
  split
  · rw [List.mem_cons]
  · simp

theorem mem_foldl_recordKey (keys : List (γ × σ)) :
    (∀ key, key ∈ keys.foldl recordKey [] ↔ key ∈ keys) ∧
      ∀ group key, key ∈ lastRun group (keys.foldl recordKey []) ↔ key ∈ lastRun group keys := by
  induction keys using List.reverseRecOn with
  | nil => exact ⟨fun _ => Iff.rfl, fun _ _ => Iff.rfl⟩
  | append_singleton keys last ih => ?_
  rw [List.foldl_append, List.foldl_cons, List.foldl_nil]
  refine ⟨fun key => ?_, fun group key => ?_⟩
  · rw [mem_recordKey, ih.1, List.mem_append, List.mem_singleton]
  rw [mem_lastRun_recordKey, ih.2, lastRun_concat]
  split
  · rw [List.mem_cons]
  · simp

/-- A stream leaves each key once just when no key comes back behind another group. -/
theorem foldl_recordKey_nodup (keys : List (γ × σ)) :
    (keys.foldl recordKey []).Nodup ↔ ¬ Separated keys := by
  induction keys using List.reverseRecOn with
  | nil =>
    refine ⟨fun _ separated => ?_, fun _ => List.nodup_nil⟩
    obtain ⟨before, key, between, after, shape, _⟩ := separated
    simp at shape
  | append_singleton keys last ih => ?_
  obtain ⟨members, runs⟩ := mem_foldl_recordKey keys
  rw [separated_concat, List.foldl_append, List.foldl_cons, List.foldl_nil, recordKey, not_or, ← ih]
  by_cases listed : last ∈ lastRun last.1 (keys.foldl recordKey [])
  · rw [if_pos listed]
    have listed := (runs last.1 last).mp listed
    exact ⟨fun nodup => ⟨nodup, fun both => both.2 listed⟩, fun both => both.1⟩
  rw [if_neg listed, List.nodup_append]
  have absent : last ∉ lastRun last.1 keys := fun held => listed ((runs last.1 last).mpr held)
  constructor
  · rintro ⟨nodup, _, apart⟩
    refine ⟨nodup, fun both => ?_⟩
    exact apart last ((members last).mpr both.1) last (List.mem_singleton.mpr rfl) rfl
  rintro ⟨nodup, fresh⟩
  refine ⟨nodup, by simp, fun key held other same => ?_⟩
  rw [List.mem_singleton.mp same]
  rintro rfl
  exact fresh ⟨(members key).mp held, absent⟩

end Keys

end Champion
