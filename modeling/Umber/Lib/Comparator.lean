/-! Comparisons that order the values of a kind, the circles where they do not, what becomes of
circles under a missing value and a mixture of two comparisons, and what sorting gives. -/

set_option autoImplicit false

namespace Comparator

variable {α β : Type}

structure Orders (compares : α → α → Ordering) (members : α → Prop) : Prop where
  oriented : ∀ {left right}, members left → members right →
    compares left right = (compares right left).swap
  trans : ∀ {first next last}, members first → members next → members last →
    (compares first next).isLE → (compares next last).isLE → (compares first last).isLE

section

variable {compares : α → α → Ordering} {members : α → Prop}

/-- On the values of the kind the laws of an order hold. -/
theorem Orders.transCmp (orders : Orders compares members) :
    Std.TransCmp fun (left right : { value // members value }) => compares left.1 right.1 :=
  { eq_swap := fun {left right} => orders.oriented left.2 right.2
    isLE_trans := fun {first next last} =>
      orders.trans first.2 next.2 last.2 }

theorem Orders.isLE_or (orders : Orders compares members) {left right : α}
    (leftMember : members left) (rightMember : members right) :
    (compares left right).isLE ∨ compares right left = .lt := by
  have swapped := orders.oriented leftMember rightMember
  cases result : compares right left with
  | lt => exact .inr rfl
  | eq | gt =>
    rw [result] at swapped
    rw [swapped]
    exact .inl rfl

/-- Values compared by what a function gives for them. -/
theorem transCmp_image (key : α → β) (compares : β → β → Ordering) [Std.TransCmp compares] :
    Std.TransCmp fun left right => compares (key left) (key right) :=
  { eq_swap := Std.OrientedCmp.eq_swap
    isLE_trans := Std.TransCmp.isLE_trans }

end

/-- Three values that each come no later than the next one round. -/
structure Circle (compares : α → α → Ordering) (first next last : α) : Prop where
  low : (compares first next).isLE
  high : (compares next last).isLE
  back : (compares last first).isLE

structure Level (compares : α → α → Ordering) (first next last : α) : Prop where
  low : compares first next = .eq
  high : compares next last = .eq
  back : compares last first = .eq

section

variable {compares : α → α → Ordering} {members : α → Prop} {first next last : α}

theorem Circle.round (circle : Circle compares first next last) : Circle compares next last first :=
  { low := circle.high, high := circle.back, back := circle.low }

theorem Level.turned [Std.OrientedCmp compares] (level : Level compares last next first) :
    Level compares first next last :=
  { low := Std.OrientedCmp.eq_symm level.high
    high := Std.OrientedCmp.eq_symm level.low
    back := Std.OrientedCmp.eq_symm level.back }

/-- The values of a circle are level where a lawful comparison gives the same results. -/
theorem Circle.level {other : β → β → Ordering} [Std.TransCmp other] {low between high : β}
    (circle : Circle compares first next last) (below : compares first next = other low between)
    (above : compares next last = other between high)
    (back : compares last first = other high low) : Level compares first next last := by
  obtain ⟨one, two, three⟩ := circle
  rw [below] at one
  rw [above] at two
  rw [back] at three
  exact
    { low := below.trans
        (Std.OrientedCmp.isLE_antisymm one (Std.TransCmp.isLE_trans two three))
      high := above.trans
        (Std.OrientedCmp.isLE_antisymm two (Std.TransCmp.isLE_trans three one))
      back := back.trans
        (Std.OrientedCmp.isLE_antisymm three (Std.TransCmp.isLE_trans one two)) }

/-- A comparison orders values when every circle of them is level. -/
theorem Orders.of_circles [Std.OrientedCmp compares]
    (level : ∀ first next last, members first → members next → members last →
      Circle compares first next last → Level compares first next last) :
    Orders compares members := by
  refine ⟨fun _ _ => Std.OrientedCmp.eq_swap, ?_⟩
  intro first next last firstMember nextMember lastMember low high
  have swapped := @Std.OrientedCmp.eq_swap _ compares _ first last
  cases back : compares last first with
  | lt =>
    have same := (level first next last firstMember nextMember lastMember
      ⟨low, high, Ordering.isLE_of_eq_lt back⟩).back
    rw [back] at same
    cases same
  | eq | gt =>
    rw [swapped, back]
    rfl

end

section Optional

variable {compares : α → α → Ordering} {missing : Ordering}

def optional (missing : Ordering) (compares : α → α → Ordering) :
    Option α → Option α → Ordering
  | none, none => .eq
  | none, some _ => missing
  | some _, none => missing.swap
  | some left, some right => compares left right

instance optional_orientedCmp [Std.OrientedCmp compares] :
    Std.OrientedCmp (optional missing compares) where
  eq_swap {left right} := by
    cases left with
    | none =>
      cases right with
      | none => rfl
      | some right => exact Ordering.swap_swap.symm
    | some left => ?_
    cases right with
    | none => rfl
    | some right => exact @Std.OrientedCmp.eq_swap _ compares _ left right

theorem optional_none (apart : missing ≠ .eq) {other : Option α}
    (there : (optional missing compares none other).isLE)
    (back : (optional missing compares other none).isLE) : other = none := by
  cases other with
  | none => rfl
  | some value => ?_
  cases missing with
  | lt => cases back
  | eq => exact absurd rfl apart
  | gt => cases there

/-- Where a missing value is apart, a circle has only missing values or none. -/
theorem Circle.present (apart : missing ≠ .eq) {first next last : Option α}
    (circle : Circle (optional missing compares) first next last) :
    Level (optional missing compares) first next last ∨ ∃ low between high,
      first = some low ∧ next = some between ∧ last = some high ∧
        Circle compares low between high := by
  obtain ⟨low, high, back⟩ := circle
  cases first with
  | none =>
    refine .inl ?_
    cases next with
    | none =>
      rw [optional_none apart high back]
      exact ⟨rfl, rfl, rfl⟩
    | some between => ?_
    cases last with
    | none => cases optional_none apart low high
    | some last => ?_
    cases missing with
    | lt => cases back
    | eq => exact absurd rfl apart
    | gt => cases low
  | some first => ?_
  cases next with
  | none =>
    cases last with
    | none => cases optional_none apart back low
    | some last => ?_
    cases missing with
    | lt => cases low
    | eq => exact absurd rfl apart
    | gt => cases high
  | some next => ?_
  cases last with
  | none =>
    cases missing with
    | lt => cases high
    | eq => exact absurd rfl apart
    | gt => cases back
  | some last => exact .inr ⟨_, _, _, rfl, rfl, rfl, low, high, back⟩

end Optional

section Mixed

variable {number : α → Option β} {numeric : β → β → Ordering} {text : α → α → Ordering}

def mixed (number : α → Option β) (numeric : β → β → Ordering) (text : α → α → Ordering)
    (left right : α) : Ordering :=
  match number left, number right with
  | some leftNumber, some rightNumber => numeric leftNumber rightNumber
  | _, _ => text left right

variable {left right : α}

theorem mixed_numbers {leftNumber rightNumber : β} (leftNumeric : number left = some leftNumber)
    (rightNumeric : number right = some rightNumber) :
    mixed number numeric text left right = numeric leftNumber rightNumber := by
  rw [mixed, leftNumeric, rightNumeric]

theorem mixed_left (plain : number left = none) :
    mixed number numeric text left right = text left right := by
  rw [mixed, plain]

theorem mixed_right (plain : number right = none) :
    mixed number numeric text left right = text left right := by
  rw [mixed, plain]
  cases number left with
  | none => rfl
  | some leftNumber => rfl

instance mixed_orientedCmp [Std.OrientedCmp numeric] [Std.OrientedCmp text] :
    Std.OrientedCmp (mixed number numeric text) where
  eq_swap {left right} := by
    cases leftNumber : number left with
    | none =>
      rw [mixed_left leftNumber, mixed_right leftNumber]
      exact Std.OrientedCmp.eq_swap
    | some leftValue => ?_
    cases rightNumber : number right with
    | none =>
      rw [mixed_right rightNumber, mixed_left rightNumber]
      exact Std.OrientedCmp.eq_swap
    | some rightValue =>
      rw [mixed_numbers leftNumber rightNumber, mixed_numbers rightNumber leftNumber]
      exact Std.OrientedCmp.eq_swap

/-- A text that is no number between two numbers. -/
structure Straddles (number : α → Option β) (low between high : α) : Prop where
  low : (number low).isSome
  between : number between = none
  high : (number high).isSome

/-- A circle that is not level has a text between two numbers. -/
theorem Circle.straddles [Std.TransCmp numeric] [Std.TransCmp text] {first next last : α}
    (circle : Circle (mixed number numeric text) first next last) :
    Level (mixed number numeric text) first next last ∨ Straddles number first next last ∨
      Straddles number next last first ∨ Straddles number last first next := by
  cases one : number first with
  | none =>
    cases two : number next with
    | none => exact .inl (circle.level (mixed_left one) (mixed_left two) (mixed_right one))
    | some between => ?_
    cases three : number last with
    | none => exact .inl (circle.level (mixed_left one) (mixed_right three) (mixed_left three))
    | some high =>
      exact .inr (.inr (.inr ⟨by rw [three]; rfl, one, by rw [two]; rfl⟩))
  | some low => ?_
  cases two : number next with
  | none =>
    cases three : number last with
    | none => exact .inl (circle.level (mixed_right two) (mixed_left two) (mixed_left three))
    | some high => exact .inr (.inl ⟨by rw [one]; rfl, two, by rw [three]; rfl⟩)
  | some between => ?_
  cases three : number last with
  | none => exact .inr (.inr (.inl ⟨by rw [two]; rfl, three, by rw [one]; rfl⟩))
  | some high =>
    exact .inl (circle.level (mixed_numbers one two) (mixed_numbers two three)
      (mixed_numbers three one))

end Mixed

section Sorting

variable {compares : α → α → Ordering} {values result : List α}

def sortBy (compares : α → α → Ordering) (values : List α) : List α :=
  values.mergeSort fun left right => (compares left right).isLE

def Ascending (compares : α → α → Ordering) (values result : List α) : Prop :=
  result.Perm values ∧ result.Pairwise fun left right => compares left right = .lt

theorem sortBy_perm (compares : α → α → Ordering) (values : List α) :
    (sortBy compares values).Perm values :=
  List.mergeSort_perm _ _

variable (orders : Orders compares (· ∈ values))
include orders

theorem sortBy_pairwise :
    (sortBy compares values).Pairwise fun left right => (compares left right).isLE = true := by
  -- Only the values of the list are ordered, so the sort is looked at over these alone.
  have attached : (values.attach.mergeSort fun left right =>
      (compares left.1 right.1).isLE).Pairwise fun left right =>
        (compares left.1 right.1).isLE = true := by
    refine List.pairwise_mergeSort ?_ ?_ _
    · intro first next last low high
      exact orders.trans first.2 next.2 last.2 low high
    intro left right
    rw [Bool.or_eq_true]
    rcases orders.isLE_or left.2 right.2 with low | high
    · exact .inl low
    · exact .inr (Ordering.isLE_of_eq_lt high)
  have mapped : (values.attach.mergeSort fun left right =>
      (compares left.1 right.1).isLE).map Subtype.val = sortBy compares values := by
    rw [List.map_mergeSort (s := fun left right => (compares left right).isLE)
      fun _ _ _ _ => rfl, List.attach_map_subtype_val]
    rfl
  rw [← mapped]
  exact List.pairwise_map.mpr attached

/-- Distinct values that only compare equal to themselves come in one ascending order. -/
theorem Ascending.unique {other : List α}
    (ascending : Ascending compares values result) (others : Ascending compares values other) :
    other = result := by
  refine List.Perm.eq_of_pairwise ?_ others.2 ascending.2 (others.1.trans ascending.1.symm)
  intro left right leftMember rightMember low high
  have swapped := orders.oriented (others.1.mem_iff.mp leftMember)
    (ascending.1.mem_iff.mp rightMember)
  rw [low, high] at swapped
  cases swapped

theorem sortBy_ascending (distinct : values.Nodup)
    (apart : ∀ left ∈ values, ∀ right ∈ values, compares left right = .eq → left = right) :
    Ascending compares values (sortBy compares values) := by
  have perm := sortBy_perm compares values
  refine ⟨perm, ?_⟩
  have sorted := (sortBy_pairwise orders).and ((perm.nodup_iff).mpr distinct)
  refine sorted.imp_of_mem ?_
  rintro left right leftMember rightMember ⟨low, different⟩
  cases result : compares left right with
  | lt => rfl
  | eq =>
    exact absurd
      (apart left (perm.mem_iff.mp leftMember) right (perm.mem_iff.mp rightMember) result)
      different
  | gt =>
    rw [result] at low
    cases low

end Sorting

end Comparator
