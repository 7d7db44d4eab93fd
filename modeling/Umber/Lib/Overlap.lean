/-! Overlaps of a pattern with a text: prefixes of the pattern that end the text. A
table of the overlaps of the pattern with itself finds the longest one after each
symbol without reading the text again. -/

set_option autoImplicit false

namespace Overlap

variable {α : Type}

def Overlaps (pattern text : List α) (count : Nat) : Prop :=
  count ≤ pattern.length ∧ pattern.take count <:+ text

structure Longest (pattern text : List α) (bound count : Nat) : Prop where
  overlaps : Overlaps pattern text count
  within : count ≤ bound
  longest : ∀ other, other ≤ bound → Overlaps pattern text other → other ≤ count

variable {pattern text : List α} {symbol : α}

theorem overlaps_zero (pattern text : List α) : Overlaps pattern text 0 :=
  ⟨Nat.zero_le _, by rw [List.take_zero]; exact List.nil_suffix⟩

theorem concat_suffix_concat {left right : List α} {last symbol : α} :
    left ++ [last] <:+ right ++ [symbol] ↔ left <:+ right ∧ last = symbol := by
  constructor
  · rintro ⟨start, equal⟩
    rw [← List.append_assoc] at equal
    obtain ⟨same, lastSame⟩ := List.append_inj' equal rfl
    exact ⟨⟨start, same⟩, List.singleton_inj.mp lastSame⟩
  rintro ⟨⟨start, rfl⟩, rfl⟩
  exact ⟨start, (List.append_assoc ..).symm⟩

/-- An overlap grows by a symbol when the pattern goes on with it. -/
theorem overlaps_concat {count : Nat} : Overlaps pattern (text ++ [symbol]) (count + 1) ↔
      Overlaps pattern text count ∧ pattern[count]? = some symbol := by
  unfold Overlaps
  constructor
  · rintro ⟨within, suffix⟩
    have inside : count < pattern.length := within
    rw [List.take_succ_eq_append_getElem inside, concat_suffix_concat] at suffix
    refine ⟨⟨Nat.le_of_lt inside, suffix.1⟩, ?_⟩
    rw [List.getElem?_eq_getElem inside, suffix.2]
  rintro ⟨⟨_, suffix⟩, found⟩
  obtain ⟨inside, same⟩ := List.getElem?_eq_some_iff.mp found
  refine ⟨inside, ?_⟩
  rw [List.take_succ_eq_append_getElem inside, concat_suffix_concat]
  exact ⟨suffix, same⟩

/-- The shorter of two overlaps is an overlap of the pattern with the longer. -/
theorem Overlaps.nested {short long : Nat} (shorter : Overlaps pattern text short)
    (longer : Overlaps pattern text long) (ordered : short ≤ long) :
    Overlaps pattern (pattern.take long) short := by
  refine ⟨shorter.1, List.suffix_of_suffix_length_le shorter.2 longer.2 ?_⟩
  rw [List.length_take, List.length_take, Nat.min_eq_left shorter.1, Nat.min_eq_left longer.1]
  exact ordered

theorem Overlaps.trans {short long : Nat} (inner : Overlaps pattern (pattern.take long) short)
    (outer : Overlaps pattern text long) : Overlaps pattern text short :=
  ⟨inner.1, inner.2.trans outer.2⟩

/-- Each entry is the longest proper overlap of one more symbol of the pattern with
itself. -/
def Table (pattern : List α) (failure : List Nat) : Prop :=
  ∀ index count, failure[index]? = some count →
    Longest pattern (pattern.take (index + 1)) index count

section Fall

variable [DecidableEq α]

/-- Fall back through the table until the pattern goes on with a symbol. -/
def fallBack (pattern : List α) (failure : List Nat) (symbol : α) : Nat → Nat → Option Nat
  | _, 0 => some 0
  | 0, _ + 1 => none
  | fuel + 1, matched + 1 =>
    match pattern[matched + 1]? with
    | none => none
    | some word =>
      if symbol = word then some (matched + 1)
      else
        match failure[matched]? with
        | none => none
        | some shorter => fallBack pattern failure symbol fuel shorter

def advance (pattern : List α) (symbol : α) (matched : Nat) : Nat :=
  if pattern[matched]? = some symbol then matched + 1 else matched

theorem fallBack_spec {failure : List Nat} (table : Table pattern failure) (fuel : Nat) :
    ∀ matched, matched ≤ fuel → matched < pattern.length → matched ≤ failure.length →
      Overlaps pattern text matched →
      ∃ count, fallBack pattern failure symbol fuel matched = some count ∧ count ≤ matched ∧
        Overlaps pattern text count ∧ (count = 0 ∨ pattern[count]? = some symbol) ∧
        ∀ other, other ≤ matched → Overlaps pattern text other →
          pattern[other]? = some symbol → other ≤ count := by
  induction fuel with
  | zero =>
    intro matched fits _ _ overlaps
    cases Nat.le_zero.mp fits
    exact ⟨0, by simp [fallBack], Nat.le_refl 0, overlaps, .inl rfl, fun _ bound _ _ => bound⟩
  | succ fuel ih => ?_
  intro matched fits inside covered overlaps
  cases matched with
  | zero =>
    exact ⟨0, by simp [fallBack], Nat.le_refl 0, overlaps, .inl rfl, fun _ bound _ _ => bound⟩
  | succ matched => ?_
  unfold fallBack
  rw [List.getElem?_eq_getElem inside]
  dsimp only
  by_cases same : symbol = pattern[matched + 1]
  · rw [if_pos same]
    refine ⟨matched + 1, rfl, Nat.le_refl _, overlaps, .inr ?_, fun _ bound _ _ => bound⟩
    rw [List.getElem?_eq_getElem inside, same]
  rw [if_neg same]
  have entry : failure[matched]? = some failure[matched] :=
    List.getElem?_eq_getElem covered
  have longest := table matched _ entry
  rw [entry]
  dsimp only
  obtain ⟨count, fell, bound, countOverlaps, stops, best⟩ :=
    ih failure[matched] (Nat.le_trans longest.within (Nat.le_of_succ_le_succ fits))
      (Nat.lt_of_le_of_lt longest.within (Nat.lt_of_succ_lt inside))
      (Nat.le_trans longest.within (Nat.le_of_succ_le covered))
      (longest.overlaps.trans overlaps)
  refine ⟨count, fell, ?_, countOverlaps, stops, ?_⟩
  · exact Nat.le_trans bound (Nat.le_succ_of_le longest.within)
  intro other fitsOther otherOverlaps goesOn
  have proper : other ≤ matched := by
    rcases Nat.lt_or_eq_of_le fitsOther with less | equal
    · exact Nat.le_of_lt_succ less
    subst equal
    rw [List.getElem?_eq_getElem inside] at goesOn
    exact absurd (Option.some.inj goesOn).symm same
  have inner := otherOverlaps.nested overlaps (Nat.le_succ_of_le proper)
  exact best other (longest.longest other proper inner) otherOverlaps goesOn

/-- After one more symbol: the overlap the table leads to is the longest that extends an
overlap within the bound. -/
theorem fallBack_advance_spec {failure : List Nat} (table : Table pattern failure) (symbol : α)
    {matched : Nat} (inside : matched < pattern.length) (covered : matched ≤ failure.length)
    (overlaps : Overlaps pattern text matched) :
    ∃ count, fallBack pattern failure symbol matched matched = some count ∧
      Longest pattern (text ++ [symbol]) (matched + 1) (advance pattern symbol count) := by
  obtain ⟨count, fell, bound, countOverlaps, stops, best⟩ :=
    fallBack_spec table matched matched (Nat.le_refl _) inside covered overlaps
  refine ⟨count, fell, ?_⟩
  unfold advance
  split
  next goesOn =>
    refine ⟨overlaps_concat.mpr ⟨countOverlaps, goesOn⟩, Nat.succ_le_succ bound, ?_⟩
    intro other fits otherOverlaps
    cases other with
    | zero => exact Nat.zero_le _
    | succ other =>
      obtain ⟨inner, next⟩ := overlaps_concat.mp otherOverlaps
      exact Nat.succ_le_succ (best other (Nat.le_of_succ_le_succ fits) inner next)
  rename_i stuck
  rcases stops with rfl | goesOn
  · refine ⟨overlaps_zero _ _, Nat.zero_le _, ?_⟩
    intro other fits otherOverlaps
    cases other with
    | zero => exact Nat.le_refl 0
    | succ other => ?_
    obtain ⟨inner, next⟩ := overlaps_concat.mp otherOverlaps
    cases Nat.le_zero.mp (best other (Nat.le_of_succ_le_succ fits) inner next)
    exact absurd next stuck
  · exact absurd goesOn stuck

def extendTable (pattern : List α) : Nat → List Nat → Option (List Nat)
  | 0, failure => some failure
  | more + 1, failure =>
    match failure[failure.length - 1]?, pattern[failure.length]? with
    | some matched, some symbol =>
      match fallBack pattern failure symbol matched matched with
      | none => none
      | some count => extendTable pattern more (failure ++ [advance pattern symbol count])
    | _, _ => none

omit [DecidableEq α] in
theorem Table.concat {failure : List Nat} {count : Nat} (table : Table pattern failure)
    (longest : Longest pattern (pattern.take (failure.length + 1)) failure.length count) :
    Table pattern (failure ++ [count]) := by
  intro index found entry
  rcases Nat.lt_or_ge index failure.length with earlier | later
  · rw [List.getElem?_append_left earlier] at entry
    exact table index found entry
  have last : index = failure.length := by
    have inside := (List.getElem?_eq_some_iff.mp entry).1
    rw [List.length_append, List.length_singleton] at inside
    exact Nat.le_antisymm (Nat.le_of_lt_succ inside) later
  subst last
  rw [List.getElem?_append_right (Nat.le_refl _), Nat.sub_self] at entry
  cases entry
  exact longest

theorem extendTable_spec (more : Nat) :
    ∀ failure : List Nat, failure ≠ [] → failure.length + more = pattern.length →
      Table pattern failure → ∃ full, extendTable pattern more failure = some full ∧
        full.length = pattern.length ∧ Table pattern full := by
  induction more with
  | zero => exact fun failure _ total table => ⟨failure, rfl, total, table⟩
  | succ more ih => ?_
  intro failure nonempty total table
  have inside : failure.length < pattern.length := by omega
  have positive : 0 < failure.length := List.length_pos_iff.mpr nonempty
  have lastInside : failure.length - 1 < failure.length := by omega
  have entry : failure[failure.length - 1]? = some failure[failure.length - 1] :=
    List.getElem?_eq_getElem lastInside
  have symbolFound : pattern[failure.length]? = some pattern[failure.length] :=
    List.getElem?_eq_getElem inside
  have longest := table _ _ entry
  have size : failure.length - 1 + 1 = failure.length := by omega
  rw [size] at longest
  obtain ⟨count, fell, extended⟩ := fallBack_advance_spec table pattern[failure.length]
    (Nat.lt_of_le_of_lt longest.within (by omega)) (by have := longest.within; omega)
    longest.overlaps
  rw [← List.take_succ_eq_append_getElem inside] at extended
  have proper : Longest pattern (pattern.take (failure.length + 1)) failure.length
      (advance pattern pattern[failure.length] count) := by
    refine ⟨extended.overlaps, ?_, ?_⟩
    · have := extended.within
      have := longest.within
      omega
    intro other fits overlaps
    apply extended.longest other _ overlaps
    -- a longer overlap would extend one beyond the previous entry
    cases other with
    | zero => exact Nat.zero_le _
    | succ other =>
      rw [List.take_succ_eq_append_getElem inside, overlaps_concat] at overlaps
      exact Nat.succ_le_succ (longest.longest other (by omega) overlaps.1)
  unfold extendTable
  rw [entry, symbolFound]
  dsimp only
  rw [fell]
  dsimp only
  refine ih _ (by simp) ?_ (table.concat proper)
  rw [List.length_append, List.length_singleton]
  omega

end Fall

end Overlap
