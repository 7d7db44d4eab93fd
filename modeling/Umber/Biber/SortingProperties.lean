import Umber.Biber.Sorting

/-! Sorting a data list is sorting by a total order exactly when no key of a numeric component
that is no number stands between two numbers against their order, among the entries that nothing
before that component tells apart. -/

set_option autoImplicit false

namespace Umber.Biber

open Comparator (Orders Ascending Circle Level)

variable {tables : UnicodeTables}

instance : Std.TransCmp compareNat :=
  inferInstanceAs (Std.TransCmp (@compare Nat instOrdNat))

instance : Std.TransCmp compareInt :=
  inferInstanceAs (Std.TransCmp (@compare Int instOrdInt))

instance comparePrimary_transCmp : Std.TransCmp fun left right : List Nat × List Nat =>
    List.compareLex compareNat left.1 right.1 :=
  Comparator.transCmp_image _ _

instance compareCase_transCmp : Std.TransCmp fun left right : List Nat × List Nat =>
    List.compareLex compareNat left.2 right.2 :=
  Comparator.transCmp_image _ _

instance compareCollation_transCmp : Std.TransCmp compareCollation :=
  inferInstanceAs (Std.TransCmp (compareLex
    (fun left right : List Nat × List Nat => List.compareLex compareNat left.1 right.1)
    (fun left right : List Nat × List Nat => List.compareLex compareNat left.2 right.2)))

instance (options : SortOptions) : Std.TransCmp (compareTexts tables options) :=
  Comparator.transCmp_image (fun value => collationKey tables value options) compareCollation

def compareNumeric (tables : UnicodeTables) (options : SortOptions) : Text → Text → Ordering :=
  Comparator.mixed parseI128 compareInt (compareTexts tables options)

def MissingOrder.side : MissingOrder → Ordering
  | .first => .lt
  | .last => .gt

def compareUndirected (tables : UnicodeTables) (options : SortOptions) :
    Option Text → Option Text → Ordering :=
  Comparator.optional options.missing.side
    (if options.numeric then compareNumeric tables options else compareTexts tables options)

def SortDirection.order : SortDirection → Ordering → Ordering
  | .ascending, order => order
  | .descending, order => order.swap

theorem compareComponent_eq (options : SortOptions) (left right : Option Text) :
    compareComponent tables left right options =
      options.direction.order (compareUndirected tables options left right) := by
  have undirected : compareUndirected tables options left right =
      compareComponent tables left right { options with direction := .ascending } := by
    unfold compareUndirected compareComponent MissingOrder.side
    cases left with
    | none =>
      cases right with
      | none => rfl
      | some right => cases options.missing <;> rfl
    | some left => ?_
    cases right with
    | none => cases options.missing <;> rfl
    | some right => ?_
    dsimp only [Comparator.optional]
    cases options.numeric with
    | true =>
      rw [if_pos rfl, if_pos rfl]
      unfold compareNumeric Comparator.mixed
      cases parseI128 left with
      | none => rfl
      | some leftNumber => ?_
      cases parseI128 right with
      | none => rfl
      | some rightNumber => rfl
    | false => rfl
  rw [undirected]
  unfold compareComponent SortDirection.order
  cases options.direction with
  | ascending => rfl
  | descending => rfl

theorem MissingOrder.side_ne (missing : MissingOrder) : missing.side ≠ .eq := by
  cases missing with
  | first => exact fun same => by cases same
  | last => exact fun same => by cases same

instance (options : SortOptions) : Std.OrientedCmp (compareUndirected tables options) := by
  unfold compareUndirected
  cases options.numeric with
  | true => exact inferInstanceAs (Std.OrientedCmp (Comparator.optional _
      (Comparator.mixed parseI128 compareInt (compareTexts tables options))))
  | false => exact inferInstanceAs (Std.OrientedCmp (Comparator.optional _
      (compareTexts tables options)))

instance compareComponent_orientedCmp (options : SortOptions) :
    Std.OrientedCmp fun left right => compareComponent tables left right options where
  eq_swap {left right} := by
    have swapped := @Std.OrientedCmp.eq_swap _ (compareUndirected tables options) _ left right
    rw [compareComponent_eq, compareComponent_eq, swapped]
    cases options.direction with
    | ascending => rfl
    | descending => rfl

/-- In a numeric component, a key that is no number and numbers on both sides of it. -/
def Straddles (low between high : Option Text) : Prop :=
  ∃ lowKey betweenKey highKey, low = some lowKey ∧ between = some betweenKey ∧
    high = some highKey ∧ Comparator.Straddles parseI128 lowKey betweenKey highKey

theorem Straddles.turned {low between high : Option Text} (straddles : Straddles low between high) :
    Straddles high between low := by
  obtain ⟨lowKey, betweenKey, highKey, atLow, atBetween, atHigh, lowNumber, plain, highNumber⟩ :=
    straddles
  exact ⟨highKey, betweenKey, lowKey, atHigh, atBetween, atLow, highNumber, plain, lowNumber⟩

variable {options : SortOptions} {first next last : Option Text}

theorem undirected_straddles (circle : Circle (compareUndirected tables options) first next last) :
    Level (compareUndirected tables options) first next last ∨
      options.numeric = true ∧ (Straddles first next last ∨ Straddles next last first ∨
        Straddles last first next) := by
  rcases Circle.present options.missing.side_ne circle with level |
    ⟨low, between, high, rfl, rfl, rfl, inner⟩
  · exact .inl level
  cases numeric : options.numeric with
  | false =>
    rw [numeric, if_neg (fun same => by cases same)] at inner
    have level := @Circle.level _ _ _ _ _ _ (compareTexts tables options) _ _ _ _ inner rfl rfl rfl
    refine .inl ?_
    rw [compareUndirected, numeric, if_neg (fun same => by cases same)]
    exact ⟨level.low, level.high, level.back⟩
  | true => ?_
  rw [numeric, if_pos rfl, compareNumeric] at inner
  rcases inner.straddles with level | straddles
  · refine .inl ?_
    rw [compareUndirected, numeric, if_pos rfl]
    exact ⟨level.low, level.high, level.back⟩
  refine .inr ⟨rfl, straddles.imp ?_ (Or.imp ?_ ?_)⟩
  all_goals exact fun found => ⟨_, _, _, rfl, rfl, rfl, found⟩

/-- Keys that a component puts in a circle are equal in it, or one of them is no number and the
two others are. -/
theorem component_straddles
    (circle : Circle (fun left right => compareComponent tables left right options)
      first next last) :
    Level (fun left right => compareComponent tables left right options) first next last ∨
      options.numeric = true ∧ (Straddles first next last ∨ Straddles next last first ∨
        Straddles last first next) := by
  have same : (fun left right => compareComponent tables left right options) = fun left right =>
      options.direction.order (compareUndirected tables options left right) := by
    funext left right
    exact compareComponent_eq options left right
  rw [same] at circle ⊢
  cases direction : options.direction with
  | ascending =>
    rw [direction] at circle
    exact undirected_straddles circle
  | descending => ?_
  rw [direction] at circle
  obtain ⟨low, high, back⟩ := circle
  have swapped := @Std.OrientedCmp.eq_swap _ (compareUndirected tables options) _
  have turned : Circle (compareUndirected tables options) last next first :=
    { low := swapped ▸ high, high := swapped ▸ low, back := swapped ▸ back }
  rcases undirected_straddles turned with level | ⟨numeric, straddles⟩
  · refine .inl ?_
    constructor
    case low => exact Ordering.swap_eq_eq.mpr level.turned.low
    case high => exact Ordering.swap_eq_eq.mpr level.turned.high
    case back => exact Ordering.swap_eq_eq.mpr level.turned.back
  refine .inr ⟨numeric, ?_⟩
  rcases straddles with found | found | found
  · exact .inl found.turned
  · exact .inr (.inr found.turned)
  · exact .inr (.inl found.turned)

/-- Where a component finds two keys equal, both are there or both are missing. -/
theorem isSome_of_eq {left right : Option Text}
    (equal : compareComponent tables left right options = .eq) : left.isSome = right.isSome := by
  have undirected : compareUndirected tables options left right = .eq := by
    rw [compareComponent_eq] at equal
    cases direction : options.direction with
    | ascending =>
      rw [direction] at equal
      exact equal
    | descending =>
      rw [direction] at equal
      exact Ordering.swap_eq_eq.mp equal
  cases left with
  | none =>
    cases right with
    | none => rfl
    | some right => exact absurd undirected options.missing.side_ne
  | some left => ?_
  cases right with
  | none => exact absurd (Ordering.swap_eq_eq.mp undirected) options.missing.side_ne
  | some right => rfl

theorem compareKeys_cons (tie : Ordering) (component : SortComponent)
    (components : List SortComponent) (left right : Option Text)
    (lefts rights : List (Option Text)) :
    compareKeys tables tie (component :: components) (left :: lefts) (right :: rights) =
      (compareComponent tables left right component.options).then
        (if component.options.finalValue ∧ left.isSome ∧ right.isSome then tie
          else compareKeys tables tie components lefts rights) := by
  rw [compareKeys]
  cases compareComponent tables left right component.options with
  | lt => rfl
  | eq => rfl
  | gt => rfl

/-- Comparing rows by the components from a place on. -/
def compareFrom (tables : UnicodeTables) (components : List SortComponent) (index : Nat)
    (left right : KeyedEntry) : Ordering :=
  compareKeys tables (compareNat left.sourceOrder right.sourceOrder) (components.drop index)
    (left.keys.drop index) (right.keys.drop index)

/-- No component before a place tells two rows apart or ends their comparison. -/
def TiedBefore (tables : UnicodeTables) (components : List SortComponent) (index : Nat)
    (left right : KeyedEntry) : Prop :=
  ∀ earlier < index, ∀ component leftKey rightKey, components[earlier]? = some component →
    left.keys[earlier]? = some leftKey → right.keys[earlier]? = some rightKey →
    compareComponent tables leftKey rightKey component.options = .eq ∧
      ¬ (component.options.finalValue = true ∧ leftKey.isSome = true ∧ rightKey.isSome = true)

/-- How rows with keys that are equal in a component are told apart: by their places where it is
final, and else by the components after it. -/
def compareAfter (tables : UnicodeTables) (components : List SortComponent) (index : Nat)
    (component : SortComponent) (left right : KeyedEntry) : Ordering :=
  if component.options.finalValue then compareNat left.sourceOrder right.sourceOrder
  else compareFrom tables components (index + 1) left right

variable {components : List SortComponent} {rows : List KeyedEntry}

/-- Three rows that nothing before a numeric component tells apart, the second with a key in it
that is no number, the two others with numbers. -/
structure Straddle (tables : UnicodeTables) (components : List SortComponent)
    (rows : List KeyedEntry) where
  index : Nat
  component : SortComponent
  found : components[index]? = some component
  numeric : component.options.numeric = true
  low : KeyedEntry
  between : KeyedEntry
  high : KeyedEntry
  members : low ∈ rows ∧ between ∈ rows ∧ high ∈ rows
  belowTied : TiedBefore tables components index low between
  aboveTied : TiedBefore tables components index between high
  acrossTied : TiedBefore tables components index low high
  lowKey : Text
  betweenKey : Text
  highKey : Text
  lowAt : low.keys[index]? = some (some lowKey)
  betweenAt : between.keys[index]? = some (some betweenKey)
  highAt : high.keys[index]? = some (some highKey)
  lowNumber : Int
  highNumber : Int
  lowNumeric : parseI128 lowKey = some lowNumber
  plain : parseI128 betweenKey = none
  highNumeric : parseI128 highKey = some highNumber

namespace Straddle

/-- The lower number against the text, by their collation keys. -/
def below (straddle : Straddle tables components rows) : Ordering :=
  (straddle.component.options.direction.order
    (compareTexts tables straddle.component.options straddle.lowKey straddle.betweenKey)).then
    (compareAfter tables components straddle.index straddle.component straddle.low
      straddle.between)

def above (straddle : Straddle tables components rows) : Ordering :=
  (straddle.component.options.direction.order
    (compareTexts tables straddle.component.options straddle.betweenKey straddle.highKey)).then
    (compareAfter tables components straddle.index straddle.component straddle.between
      straddle.high)

/-- The two numbers. -/
def across (straddle : Straddle tables components rows) : Ordering :=
  (straddle.component.options.direction.order
    (compareInt straddle.lowNumber straddle.highNumber)).then
    (compareAfter tables components straddle.index straddle.component straddle.low straddle.high)

end Straddle

/-- A text that comes between two numbers comes there as the numbers do. -/
def Consistent (tables : UnicodeTables) (components : List SortComponent)
    (rows : List KeyedEntry) : Prop :=
  ∀ straddle : Straddle tables components rows,
    straddle.below = .lt → straddle.above = .lt → straddle.across = .lt

/-- Comparing keys without regard to places, and then the places. -/
theorem compareKeys_tie (tie : Ordering) (components : List SortComponent)
    (lefts rights : List (Option Text)) : compareKeys tables tie components lefts rights =
      (compareKeys tables .eq components lefts rights).then tie := by
  induction components generalizing lefts rights with
  | nil => rfl
  | cons component components smaller => ?_
  cases lefts with
  | nil => rfl
  | cons left lefts => ?_
  cases rights with
  | nil => rfl
  | cons right rights => ?_
  rw [compareKeys_cons, compareKeys_cons, Ordering.then_assoc]
  by_cases final : component.options.finalValue = true ∧ left.isSome = true ∧
      right.isSome = true
  · rw [if_pos final, if_pos final]
    rfl
  · rw [if_neg final, if_neg final, smaller lefts rights]

theorem compareNat_eq {left right : Nat} (equal : compareNat left right = .eq) : left = right :=
  Nat.compare_eq_eq.mp equal

theorem compareNat_lt {left right : Nat} (less : compareNat left right = .lt) : left < right :=
  Nat.compare_eq_lt.mp less

variable {index : Nat} {component : SortComponent} {left right : KeyedEntry}
  {leftKey rightKey : Option Text}

section

variable (found : components[index]? = some component)
include found

/-- One component of the comparison, and what comes after it where it finds the keys equal. -/
theorem compareFrom_step
    (leftAt : left.keys[index]? = some leftKey) (rightAt : right.keys[index]? = some rightKey) :
    compareFrom tables components index left right =
      (compareComponent tables leftKey rightKey component.options).then
        (if component.options.finalValue ∧ leftKey.isSome ∧ rightKey.isSome then
          compareNat left.sourceOrder right.sourceOrder
        else compareFrom tables components (index + 1) left right) := by
  obtain ⟨inside, rfl⟩ := List.getElem?_eq_some_iff.mp found
  obtain ⟨leftInside, rfl⟩ := List.getElem?_eq_some_iff.mp leftAt
  obtain ⟨rightInside, rfl⟩ := List.getElem?_eq_some_iff.mp rightAt
  unfold compareFrom
  rw [List.drop_eq_getElem_cons inside, List.drop_eq_getElem_cons leftInside,
    List.drop_eq_getElem_cons rightInside, compareKeys_cons]

theorem compareFrom_values {leftKey rightKey : Text}
    (numeric : component.options.numeric = true) (leftAt : left.keys[index]? = some (some leftKey))
    (rightAt : right.keys[index]? = some (some rightKey)) :
    compareFrom tables components index left right = (component.options.direction.order
      (compareNumeric tables component.options leftKey rightKey)).then
        (compareAfter tables components index component left right) := by
  rw [compareFrom_step found leftAt rightAt, compareComponent_eq, compareUndirected, numeric,
    if_pos rfl, compareAfter]
  simp only [Comparator.optional, Option.isSome_some, and_true]

theorem compareFrom_equal
    (leftAt : left.keys[index]? = some leftKey) (rightAt : right.keys[index]? = some rightKey)
    (equal : compareComponent tables leftKey rightKey component.options = .eq) :
    compareFrom tables components index left right =
      if component.options.finalValue ∧ leftKey.isSome then
        compareNat left.sourceOrder right.sourceOrder
      else compareFrom tables components (index + 1) left right := by
  rw [compareFrom_step found leftAt rightAt, equal]
  simp only [← isSome_of_eq equal, and_self]
  rfl

end

theorem compareFrom_swap (index : Nat) (left right : KeyedEntry) :
    compareFrom tables components index left right =
      (compareFrom tables components index right left).swap := by
  unfold compareFrom
  generalize left.keys.drop index = lefts
  generalize right.keys.drop index = rights
  rw [show compareNat left.sourceOrder right.sourceOrder = _ from Std.OrientedCmp.eq_swap]
  generalize compareNat right.sourceOrder left.sourceOrder = tie
  induction components.drop index generalizing lefts rights with
  | nil => rfl
  | cons component components smaller => ?_
  cases lefts with
  | nil => cases rights <;> rfl
  | cons leftKey lefts => ?_
  cases rights with
  | nil => rfl
  | cons rightKey rights => ?_
  have swapped := @Std.OrientedCmp.eq_swap _ (fun left right =>
    compareComponent tables left right component.options) _ leftKey rightKey
  rw [compareKeys_cons, compareKeys_cons, swapped, smaller lefts rights, Ordering.swap_then]
  by_cases final : component.options.finalValue = true ∧ leftKey.isSome = true ∧
      rightKey.isSome = true
  · rw [if_pos final, if_pos ⟨final.1, final.2.2, final.2.1⟩]
  · rw [if_neg final, if_neg fun turned => final ⟨turned.1, turned.2.2, turned.2.1⟩]

instance (components : List SortComponent) (index : Nat) :
    Std.OrientedCmp (compareFrom tables components index) where
  eq_swap := compareFrom_swap index _ _

instance (components : List SortComponent) : Std.OrientedCmp (compareKeyed tables components) where
  eq_swap := compareFrom_swap 0 _ _

theorem tiedBefore_zero (left right : KeyedEntry) : TiedBefore tables components 0 left right :=
  fun _ before => absurd before (Nat.not_lt_zero _)

theorem TiedBefore.symm (tied : TiedBefore tables components index left right) :
    TiedBefore tables components index right left := by
  intro earlier before component rightKey leftKey found rightAt leftAt
  obtain ⟨equal, goes⟩ := tied earlier before component leftKey rightKey found leftAt rightAt
  exact ⟨@Std.OrientedCmp.eq_symm _ (fun left right =>
    compareComponent tables left right component.options) _ _ _ equal,
    fun ends => goes ⟨ends.1, ends.2.2, ends.2.1⟩⟩

theorem TiedBefore.succ (tied : TiedBefore tables components index left right)
    (found : components[index]? = some component) (leftAt : left.keys[index]? = some leftKey)
    (rightAt : right.keys[index]? = some rightKey)
    (equal : compareComponent tables leftKey rightKey component.options = .eq)
    (goes : ¬ (component.options.finalValue = true ∧ leftKey.isSome = true)) :
    TiedBefore tables components (index + 1) left right := by
  intro earlier before other one two otherFound oneAt twoAt
  rcases Nat.lt_or_eq_of_le (Nat.le_of_lt_succ before) with strictly | rfl
  · exact tied earlier strictly other one two otherFound oneAt twoAt
  rw [found] at otherFound
  rw [leftAt] at oneAt
  rw [rightAt] at twoAt
  cases otherFound
  cases oneAt
  cases twoAt
  exact ⟨equal, fun ends => goes ⟨ends.1, ends.2.1⟩⟩

/-- Rows with one key for each component, each with a place of its own. -/
structure Keyed (components : List SortComponent) (rows : List KeyedEntry) : Prop where
  length : ∀ {row}, row ∈ rows → row.keys.length = components.length
  apart : ∀ {left right}, left ∈ rows → right ∈ rows → left.sourceOrder = right.sourceOrder →
    left = right

namespace Keyed

variable {index : Nat} (keyed : Keyed components rows)
include keyed

theorem keyAt {row : KeyedEntry} (member : row ∈ rows)
    (inside : index < components.length) : ∃ key, row.keys[index]? = some key :=
  ⟨_, List.getElem?_eq_getElem (by rw [keyed.length member]; exact inside)⟩

theorem compareFrom_eq {index : Nat} {left right : KeyedEntry}
    (leftMember : left ∈ rows) (rightMember : right ∈ rows)
    (equal : compareFrom tables components index left right = .eq) : left = right := by
  rw [compareFrom, compareKeys_tie, Ordering.then_eq_eq] at equal
  exact keyed.apart leftMember rightMember (compareNat_eq equal.2)

theorem compareKeyed_eq {left right : KeyedEntry}
    (leftMember : left ∈ rows) (rightMember : right ∈ rows) (inside : index ≤ components.length)
    (tied : TiedBefore tables components index left right) :
    compareKeyed tables components left right = compareFrom tables components index left right := by
  induction index with
  | zero => rfl
  | succ index smaller => ?_
  have found := List.getElem?_eq_getElem inside
  obtain ⟨leftKey, leftAt⟩ := keyed.keyAt leftMember inside
  obtain ⟨rightKey, rightAt⟩ := keyed.keyAt rightMember inside
  obtain ⟨equal, goes⟩ := tied index (Nat.lt_succ_self _) _ _ _ found leftAt rightAt
  rw [smaller (Nat.le_of_lt inside) fun earlier before => tied earlier (Nat.lt_succ_of_lt before),
    compareFrom_step found leftAt rightAt, equal, if_neg goes]
  rfl

end Keyed

namespace Straddle

variable (straddle : Straddle tables components rows)

theorem below_eq : compareFrom tables components straddle.index straddle.low
    straddle.between = straddle.below := by
  rw [compareFrom_values straddle.found straddle.numeric straddle.lowAt straddle.betweenAt,
    compareNumeric, Comparator.mixed_right straddle.plain]
  rfl

theorem above_eq : compareFrom tables components straddle.index straddle.between
    straddle.high = straddle.above := by
  rw [compareFrom_values straddle.found straddle.numeric straddle.betweenAt straddle.highAt,
    compareNumeric, Comparator.mixed_left straddle.plain]
  rfl

theorem across_eq : compareFrom tables components straddle.index straddle.low
    straddle.high = straddle.across := by
  rw [compareFrom_values straddle.found straddle.numeric straddle.lowAt straddle.highAt,
    compareNumeric, Comparator.mixed_numbers straddle.lowNumeric straddle.highNumeric]
  rfl

end Straddle

section

variable (keyed : Keyed components rows)
include keyed

/-- A comparison that orders the entries orders texts and numbers alike. -/
theorem Keyed.consistent (orders : Orders (compareKeyed tables components) (· ∈ rows)) :
    Consistent tables components rows := by
  intro straddle below above
  obtain ⟨lowMember, betweenMember, highMember⟩ := straddle.members
  obtain ⟨inside, _⟩ := List.getElem?_eq_some_iff.mp straddle.found
  have within := Nat.le_of_lt inside
  rw [← straddle.below_eq,
    ← keyed.compareKeyed_eq lowMember betweenMember within straddle.belowTied] at below
  rw [← straddle.above_eq,
    ← keyed.compareKeyed_eq betweenMember highMember within straddle.aboveTied] at above
  rw [← straddle.across_eq, ← keyed.compareKeyed_eq lowMember highMember within straddle.acrossTied]
  have lawful := orders.transCmp
  exact @Std.TransCmp.lt_of_lt_of_isLE _ _ lawful ⟨_, lowMember⟩ ⟨_, betweenMember⟩
    ⟨_, highMember⟩ below (Ordering.isLE_of_eq_lt above)

/-- Rows in a circle whose keys straddle come in another order than their numbers. -/
theorem Consistent.not_straddles
    (consistent : Consistent tables components rows) {low between high : KeyedEntry}
    {lowKey betweenKey highKey : Option Text} (lowMember : low ∈ rows)
    (betweenMember : between ∈ rows) (highMember : high ∈ rows)
    (found : components[index]? = some component) (numeric : component.options.numeric = true)
    (belowTied : TiedBefore tables components index low between)
    (aboveTied : TiedBefore tables components index between high)
    (acrossTied : TiedBefore tables components index low high)
    (lowAt : low.keys[index]? = some lowKey) (betweenAt : between.keys[index]? = some betweenKey)
    (highAt : high.keys[index]? = some highKey)
    (circle : Circle (compareFrom tables components index) low between high) :
    ¬ Straddles lowKey betweenKey highKey := by
  rintro ⟨lowText, betweenText, highText, rfl, rfl, rfl, lowSome, plain, highSome⟩
  obtain ⟨lowNumber, lowNumeric⟩ := Option.isSome_iff_exists.mp lowSome
  obtain ⟨highNumber, highNumeric⟩ := Option.isSome_iff_exists.mp highSome
  let straddle : Straddle tables components rows :=
    { index, component, found, numeric, low, between, high
      members := ⟨lowMember, betweenMember, highMember⟩
      belowTied, aboveTied, acrossTied, lowAt, betweenAt, highAt, lowNumber, highNumber
      lowKey := lowText, betweenKey := betweenText, highKey := highText
      lowNumeric, plain, highNumeric }
  -- A row with a number is not the one without, so the rows of the circle are strictly ordered.
  have strict : ∀ left right, left ∈ rows → right ∈ rows →
      left.keys[index]? ≠ right.keys[index]? →
      (compareFrom tables components index left right).isLE →
      compareFrom tables components index left right = .lt := by
    intro left right leftMember rightMember different less
    cases order : compareFrom tables components index left right with
    | lt => rfl
    | eq => exact absurd (by rw [keyed.compareFrom_eq leftMember rightMember order]) different
    | gt =>
      rw [order] at less
      cases less
  have below := strict low between lowMember betweenMember
    (by rw [lowAt, betweenAt]; rintro ⟨⟩; rw [plain] at lowNumeric; cases lowNumeric) circle.low
  have above := strict between high betweenMember highMember
    (by rw [betweenAt, highAt]; rintro ⟨⟩; rw [plain] at highNumeric; cases highNumeric)
    circle.high
  have across := consistent straddle (straddle.below_eq ▸ below) (straddle.above_eq ▸ above)
  rw [← straddle.across_eq] at across
  exact Std.OrientedCmp.not_lt_of_isLE circle.back across

/-- From any component on, entries that nothing before it tells apart come in no circle. -/
theorem Consistent.level (consistent : Consistent tables components rows)
    {index : Nat} {first next last : KeyedEntry} (firstMember : first ∈ rows)
    (nextMember : next ∈ rows) (lastMember : last ∈ rows) (inside : index ≤ components.length)
    (low : TiedBefore tables components index first next)
    (high : TiedBefore tables components index next last)
    (back : TiedBefore tables components index last first)
    (circle : Circle (compareFrom tables components index) first next last) :
    Level (compareFrom tables components index) first next last := by
  have places := Comparator.transCmp_image KeyedEntry.sourceOrder compareNat
  induction remaining : components.length - index generalizing index with
  | zero =>
    have atEnd : ∀ left right, compareFrom tables components index left right =
        compareNat left.sourceOrder right.sourceOrder := by
      intro left right
      rw [compareFrom, List.drop_eq_nil_of_le (Nat.le_of_sub_eq_zero remaining)]
      rfl
    exact circle.level (atEnd _ _) (atEnd _ _) (atEnd _ _)
  | succ remaining smaller => ?_
  have within : index < components.length := by omega
  have found := List.getElem?_eq_getElem within
  obtain ⟨firstKey, firstAt⟩ := keyed.keyAt firstMember within
  obtain ⟨nextKey, nextAt⟩ := keyed.keyAt nextMember within
  obtain ⟨lastKey, lastAt⟩ := keyed.keyAt lastMember within
  have here : Circle (fun left right => compareComponent tables left right
      components[index].options) firstKey nextKey lastKey :=
    { low := Ordering.isLE_left_of_isLE_then (compareFrom_step found firstAt nextAt ▸ circle.low)
      high := Ordering.isLE_left_of_isLE_then (compareFrom_step found nextAt lastAt ▸ circle.high)
      back := Ordering.isLE_left_of_isLE_then
        (compareFrom_step found lastAt firstAt ▸ circle.back) }
  rcases component_straddles here with level | ⟨numeric, straddles⟩
  · have nextSome := isSome_of_eq level.low
    have lastSome := isSome_of_eq level.high
    have lowStep := compareFrom_equal found firstAt nextAt level.low
    have highStep := compareFrom_equal found nextAt lastAt level.high
    have backStep := compareFrom_equal found lastAt firstAt level.back
    rw [← nextSome] at highStep
    rw [← lastSome, ← nextSome] at backStep
    by_cases ends : components[index].options.finalValue = true ∧
        firstKey.isSome = true
    · rw [if_pos ends] at lowStep highStep backStep
      exact circle.level lowStep highStep backStep
    rw [if_neg ends] at lowStep highStep backStep
    have later := @smaller (index + 1) (by omega)
      (low.succ found firstAt nextAt level.low ends)
      (high.succ found nextAt lastAt level.high (nextSome ▸ ends))
      (back.succ found lastAt firstAt level.back (lastSome ▸ nextSome ▸ ends))
      ⟨lowStep ▸ circle.low, highStep ▸ circle.high, backStep ▸ circle.back⟩ (by omega)
    exact ⟨lowStep.trans later.low, highStep.trans later.high, backStep.trans later.back⟩
  rcases straddles with straddle | straddle | straddle
  · exact absurd straddle (consistent.not_straddles keyed firstMember nextMember lastMember
      found numeric low high back.symm firstAt nextAt lastAt circle)
  · exact absurd straddle (consistent.not_straddles keyed nextMember lastMember firstMember
      found numeric high back low.symm nextAt lastAt firstAt circle.round)
  exact absurd straddle (consistent.not_straddles keyed lastMember firstMember nextMember
    found numeric back low high.symm lastAt firstAt nextAt circle.round.round)

end

section

variable (tables : UnicodeTables) (builder : DataListBuilder)

/-- What sorting the entries of a data list by its template means: the template orders the
entries, equal ones only themselves, and they come in the one ascending order, where those whose
keys are equal keep their places. -/
structure SortsInOrder : Prop where
  entries : Orders (compareKeyed tables builder.template.components) (· ∈ builder.keyed)
  apart : ∀ left ∈ builder.keyed, ∀ right ∈ builder.keyed,
    compareKeyed tables builder.template.components left right = .eq → left = right
  sorted : Ascending (compareKeyed tables builder.template.components) builder.keyed
    (Comparator.sortBy (compareKeyed tables builder.template.components) builder.keyed)
  unique : ∀ other,
    Ascending (compareKeyed tables builder.template.components) builder.keyed other →
    other = Comparator.sortBy (compareKeyed tables builder.template.components) builder.keyed
  stable : (Comparator.sortBy (compareKeyed tables builder.template.components)
    builder.keyed).Pairwise fun earlier later =>
      compareKeys tables .eq builder.template.components earlier.keys later.keys = .eq →
        earlier.sourceOrder < later.sourceOrder
  returns : (∃ error, builder.sortedEntries tables = .error error) ∨
    builder.sortedEntries tables = .ok ((Comparator.sortBy
      (compareKeyed tables builder.template.components) builder.keyed).map fun keyed =>
        { id := keyed.entry.id, keys := keyed.keys })

end

variable {builder : DataListBuilder} {row : KeyedEntry}

theorem keyed_of_getElem (found : builder.keyed[index]? = some row) :
    row.sourceOrder = index ∧ row.keys.length = builder.template.components.length := by
  rw [DataListBuilder.keyed, List.getElem?_mapIdx] at found
  obtain ⟨entry, _, rfl⟩ := Option.map_eq_some_iff.mp found
  exact ⟨rfl, List.length_map _⟩

theorem keyed_getElem (member : row ∈ builder.keyed) :
    builder.keyed[row.sourceOrder]? = some row := by
  obtain ⟨index, found⟩ := List.mem_iff_getElem?.mp member
  rw [(keyed_of_getElem found).1]
  exact found

theorem keyed_nodup (builder : DataListBuilder) : builder.keyed.Nodup := by
  refine List.pairwise_iff_getElem.mpr fun first last firstInside lastInside before same => ?_
  have firstPlace := keyed_of_getElem (List.getElem?_eq_getElem firstInside)
  have lastPlace := keyed_of_getElem (List.getElem?_eq_getElem lastInside)
  rw [same] at firstPlace
  exact absurd (firstPlace.1.symm.trans lastPlace.1) (Nat.ne_of_lt before)

theorem keyed_keyed (builder : DataListBuilder) :
    Keyed builder.template.components builder.keyed := by
  constructor
  · intro row member
    obtain ⟨index, found⟩ := List.mem_iff_getElem?.mp member
    exact (keyed_of_getElem found).2
  intro left right leftMember rightMember places
  have found := keyed_getElem leftMember
  rw [places, keyed_getElem rightMember] at found
  cases found
  rfl

theorem Consistent.sortsInOrder
    (consistent : Consistent tables builder.template.components builder.keyed) :
    SortsInOrder tables builder := by
  have entries : Orders (compareKeyed tables builder.template.components) (· ∈ builder.keyed) := by
    refine .of_circles fun first next last firstMember nextMember lastMember circle => ?_
    exact consistent.level (keyed_keyed builder) firstMember nextMember lastMember (Nat.zero_le _)
      (tiedBefore_zero _ _) (tiedBefore_zero _ _) (tiedBefore_zero _ _) circle
  have apart : ∀ left ∈ builder.keyed, ∀ right ∈ builder.keyed,
      compareKeyed tables builder.template.components left right = .eq → left = right :=
    fun _ leftMember _ rightMember equal =>
      @Keyed.compareFrom_eq _ _ _ (keyed_keyed builder) 0 _ _ leftMember rightMember equal
  have sorted := Comparator.sortBy_ascending entries (keyed_nodup builder) apart
  constructor
  case entries => exact entries
  case apart => exact apart
  case sorted => exact sorted
  case unique => exact fun other ascending => sorted.unique entries ascending
  case stable =>
    refine sorted.2.imp fun {earlier later} less equal => ?_
    rw [compareKeyed, compareKeys_tie, equal] at less
    exact compareNat_lt less
  case returns =>
    unfold DataListBuilder.sortedEntries
    by_cases components :
        builder.template.components.length > builder.limits.maximumSortComponents
    · exact .inl ⟨_, if_pos components⟩
    rw [if_neg components]
    by_cases entries : builder.appearing.length > builder.limits.maximumEntries
    · exact .inl ⟨_, if_pos entries⟩
    rw [if_neg entries]
    by_cases keys : (builder.keyed.any fun keyed =>
        keyed.keyChars > builder.limits.maximumKeyChars) = true
    · exact .inl ⟨_, if_pos keys⟩
    · exact .inr (if_neg keys)

/-- Sorting a data list sorts by a total order exactly when the texts between numbers come there
as the numbers do. -/
theorem sortedEntries_iff (tables : UnicodeTables) (builder : DataListBuilder) :
    SortsInOrder tables builder ↔ Consistent tables builder.template.components builder.keyed :=
  ⟨fun sorts => (keyed_keyed builder).consistent sorts.entries, Consistent.sortsInOrder⟩

def asciiTables : UnicodeTables :=
  { nfkd := id
    isCombiningMark := fun _ => false
    toLowercase := fun character => [character.toLower]
    isLowercase := Char.isLower
    isUppercase := Char.isUpper }

def volume (id value : String) : Entry :=
  { id := id.toList
    entryType := "article".toList
    fields := [("volume".toList, .literal value.toList)]
    options := [] }

def volumes : DataListBuilder :=
  { entries := [volume "first" "9", volume "second" "10", volume "third" "1a"]
    template :=
      { components := [{ field := .field "volume".toList, options := { numeric := true } }]
        nonempty := List.cons_ne_nil _ _ } }

/-- 9 comes before 10 as a number, 10 before 1a and 1a before 9 as texts. -/
theorem volumes_unsorted : ¬ SortsInOrder asciiTables volumes := by
  intro sorts
  have reversed := sorts.entries.trans
    (List.get_mem volumes.keyed ⟨0, by decide +kernel⟩)
    (List.get_mem volumes.keyed ⟨1, by decide +kernel⟩)
    (List.get_mem volumes.keyed ⟨2, by decide +kernel⟩)
    (by decide +kernel) (by decide +kernel)
  exact absurd reversed (by decide +kernel)

end Umber.Biber
