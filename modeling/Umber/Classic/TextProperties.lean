import Umber.Classic.Text

/-! Text units, prefixes and slices against what is said of them. -/

set_option autoImplicit false

namespace Umber.Classic

/-- Where a reading of braces stands: in ordinary groups, or in a group that begins with a
control sequence and opens outside of all others. -/
inductive Reading where
  | plain (level : Nat)
  | control (depth : Nat)

/-- The units of a text where a brace group is one only when it opens outside of all groups and a
backslash follows. -/
def topUnitsFrom : Reading → Nat → List Char → List TextUnit
  | .plain _, _, [] => []
  | .plain 0, position, '{' :: '\\' :: rest => topUnitsFrom (.control 0) (position + 2) rest
  | .plain level, position, character :: rest =>
    if character = '{' then topUnitsFrom (.plain (level + 1)) (position + 1) rest
    else if character = '}' then topUnitsFrom (.plain (level - 1)) (position + 1) rest
    else { last := position + 1 } :: topUnitsFrom (.plain level) (position + 1) rest
  | .control _, position, [] => [{ last := position }]
  | .control depth, position, character :: rest =>
    if character = '{' then topUnitsFrom (.control (depth + 1)) (position + 1) rest
    else if character = '}' then
      match depth with
      | 0 => { last := position + 1 } :: topUnitsFrom (.plain 0) (position + 1) rest
      | depth + 1 => topUnitsFrom (.control depth) (position + 1) rest
    else topUnitsFrom (.control depth) (position + 1) rest

def topUnits (value : List Char) : List TextUnit :=
  topUnitsFrom (.plain 0) 0 value

/-- In an ordinary group no brace is followed by a backslash and one more character. -/
def controlsOnTop : Reading → List Char → Bool
  | .plain _, [] => true
  | .plain 0, '{' :: '\\' :: rest => controlsOnTop (.control 0) rest
  | .plain (_ + 1), '{' :: '\\' :: rest => rest.isEmpty
  | .plain level, character :: rest =>
    if character = '{' then controlsOnTop (.plain (level + 1)) rest
    else if character = '}' then controlsOnTop (.plain (level - 1)) rest
    else controlsOnTop (.plain level) rest
  | .control _, [] => true
  | .control depth, character :: rest =>
    if character = '{' then controlsOnTop (.control (depth + 1)) rest
    else if character = '}' then
      match depth with
      | 0 => controlsOnTop (.plain 0) rest
      | depth + 1 => controlsOnTop (.control depth) rest
    else controlsOnTop (.control depth) rest

def Reading.groupDepth : Reading → Nat
  | .plain _ => 0
  | .control depth => depth + 1

section

variable {position : Nat} {rest : List Char}

theorem textUnitsFrom_open (ordinary : ∀ later, rest ≠ '\\' :: later) :
    textUnitsFrom 0 position ('{' :: rest) = textUnitsFrom 0 (position + 1) rest := by
  rw [textUnitsFrom]
  · rfl
  · exact fun later _ same => ordinary later same

variable {character : Char}

theorem textUnitsFrom_other (opens : character ≠ '{') (closes : character ≠ '}') :
    textUnitsFrom 0 position (character :: rest) =
      { last := position + 1 } :: textUnitsFrom 0 (position + 1) rest := by
  rw [textUnitsFrom.eq_3 _ _ _ fun later same _ => opens same]
  exact if_neg fun brace => brace.elim opens closes

variable {depth : Nat}

theorem textUnitsFrom_inside (opens : character ≠ '{') (closes : character ≠ '}') :
    textUnitsFrom (depth + 1) position (character :: rest) =
      textUnitsFrom (depth + 1) (position + 1) rest := by
  cases depth <;> exact (if_neg opens).trans (if_neg closes)

variable {level : Nat}

theorem controlsOnTop_open (ordinary : ∀ later, rest ≠ '\\' :: later) :
    controlsOnTop (.plain level) ('{' :: rest) = controlsOnTop (.plain (level + 1)) rest := by
  rw [controlsOnTop.eq_4 level _ _ (fun later _ _ same => ordinary later same)
    (fun _ later _ _ same => ordinary later same)]
  rfl

theorem controlsOnTop_close :
    controlsOnTop (.plain level) ('}' :: rest) = controlsOnTop (.plain (level - 1)) rest := by
  cases level <;> rfl

theorem controlsOnTop_other (opens : character ≠ '{') (closes : character ≠ '}') :
    controlsOnTop (.plain level) (character :: rest) = controlsOnTop (.plain level) rest := by
  rw [controlsOnTop.eq_4 level _ _ (fun later _ same _ => opens same)
    (fun _ later _ same _ => opens same)]
  exact (if_neg opens).trans (if_neg closes)

theorem controlsOnTop_inside (opens : character ≠ '{') (closes : character ≠ '}') :
    controlsOnTop (.control depth) (character :: rest) = controlsOnTop (.control depth) rest := by
  cases depth <;> exact (if_neg opens).trans (if_neg closes)

end

/-- Units end behind the position they are read from, or at it where a group has no end. -/
theorem textUnitsFrom_after (depth position : Nat) (value : List Char) :
    ∀ unit ∈ textUnitsFrom depth position value,
      position < unit.last ∨ (position = unit.last ∧ depth ≠ 0 ∧ value = []) := by
  have step : ∀ {position depth next : Nat} {rest : List Char} {unit : TextUnit},
      position < next → (next < unit.last ∨ (next = unit.last ∧ depth ≠ 0 ∧ rest = [])) →
        position < unit.last := by
    intro position depth next rest unit less read
    rcases read with later | ⟨same, _, _⟩
    · exact Nat.lt_trans less later
    · exact same ▸ less
  fun_induction textUnitsFrom depth position value with
  | case1 => exact fun unit member => absurd member List.not_mem_nil
  | case2 position rest smaller =>
    exact fun unit member => .inl (step (Nat.lt_add_of_pos_right Nat.two_pos) (smaller unit member))
  | case3 position character rest ordinary brace smaller =>
    exact fun unit member => .inl (step (Nat.lt_succ_self _) (smaller unit member))
  | case4 position character rest ordinary brace smaller =>
    intro unit member
    rcases List.mem_cons.mp member with rfl | later
    · exact .inl (Nat.lt_succ_self _)
    · exact .inl (step (Nat.lt_succ_self _) (smaller unit later))
  | case5 depth position =>
    intro unit member
    rw [List.mem_singleton.mp member]
    exact .inr ⟨rfl, Nat.succ_ne_zero _, rfl⟩
  | case6 depth position rest smaller =>
    exact fun unit member => .inl (step (Nat.lt_succ_self _) (smaller unit member))
  | case7 position rest opens smaller =>
    intro unit member
    rcases List.mem_cons.mp member with rfl | later
    · exact .inl (Nat.lt_succ_self _)
    · exact .inl (step (Nat.lt_succ_self _) (smaller unit later))
  | case8 position rest depth opens smaller =>
    exact fun unit member => .inl (step (Nat.lt_succ_self _) (smaller unit member))
  | case9 depth position character rest opens closes smaller =>
    exact fun unit member => .inl (step (Nat.lt_succ_self _) (smaller unit member))

/-- A control sequence in an ordinary group is one unit for the code, and characters for the
reading, unless the text ends with its backslash. -/
theorem textUnits_inner_control (level position : Nat) (rest : List Char) :
    textUnitsFrom 0 position ('{' :: '\\' :: rest) =
        topUnitsFrom (.plain (level + 1)) position ('{' :: '\\' :: rest) ↔ rest.isEmpty = true := by
  have spelled : topUnitsFrom (.plain (level + 1)) position ('{' :: '\\' :: rest) =
      { last := position + 2 } :: topUnitsFrom (.plain (level + 2)) (position + 2) rest := by
    cases rest <;> rfl
  rw [spelled]
  cases rest with
  | nil => exact iff_of_true rfl rfl
  | cons character rest => ?_
  refine iff_of_false (fun same => ?_) Bool.false_ne_true
  have listed : (⟨position + 2⟩ : TextUnit) ∈
      textUnitsFrom 1 (position + 2) (character :: rest) :=
    same ▸ List.mem_cons_self
  rcases textUnitsFrom_after 1 (position + 2) (character :: rest) _ listed with
    later | ⟨_, _, empty⟩
  · exact absurd later (Nat.lt_irrefl _)
  · cases empty

theorem textUnits_eq_top_iff (reading : Reading) (position : Nat) (value : List Char) :
    textUnitsFrom reading.groupDepth position value = topUnitsFrom reading position value ↔
      controlsOnTop reading value = true := by
  fun_induction topUnitsFrom reading position value with
  | case1 level position => exact iff_of_true rfl rfl
  | case2 position rest smaller => exact smaller
  | case3 level position rest ordinary smaller =>
    by_cases control : ∃ later, rest = '\\' :: later
    · obtain ⟨later, rfl⟩ := control
      cases level with
      | zero => exact absurd rfl fun same => ordinary later rfl rfl same
      | succ level => exact textUnits_inner_control level position later
    have plain : ∀ later, rest ≠ '\\' :: later := fun later same => control ⟨later, same⟩
    rw [controlsOnTop_open plain, Reading.groupDepth, textUnitsFrom_open plain]
    exact smaller
  | case4 level position rest ordinary opens smaller =>
    rw [controlsOnTop_close]
    exact smaller
  | case5 level position character rest ordinary opens closes smaller =>
    rw [controlsOnTop_other opens closes, Reading.groupDepth, textUnitsFrom_other opens closes]
    exact (List.cons_inj_right _).trans smaller
  | case6 depth position => exact iff_of_true rfl rfl
  | case7 depth position rest smaller => cases depth <;> exact smaller
  | case8 position rest opens smaller => exact (List.cons_inj_right _).trans smaller
  | case9 position rest depth opens smaller => exact smaller
  | case10 depth position character rest opens closes smaller =>
    rw [controlsOnTop_inside opens closes, Reading.groupDepth, textUnitsFrom_inside opens closes]
    exact smaller

/-! ## Prefixes -/

/-- The depth of braces behind a text, if each closing one closes another. -/
def closedDepth : Nat → List Char → Option Nat
  | depth, [] => some depth
  | depth, character :: rest =>
    if character = '{' then closedDepth (depth + 1) rest
    else if character = '}' then
      match depth with
      | 0 => none
      | depth + 1 => closedDepth depth rest
    else closedDepth depth rest

def Balanced (value : List Char) : Prop :=
  closedDepth 0 value = some 0

theorem closedDepth_append (depth : Nat) (value more : List Char) :
    closedDepth depth (value ++ more) =
      (closedDepth depth value).bind fun depth => closedDepth depth more := by
  fun_induction closedDepth depth value with
  | case1 depth => rfl
  | case2 depth rest smaller => exact smaller
  | case3 rest opens => rfl
  | case4 rest opens depth smaller => exact smaller
  | case5 depth character rest opens closes smaller =>
    have passed : ∀ tail, closedDepth depth (character :: tail) = closedDepth depth tail := by
      intro tail
      cases depth <;> exact (if_neg opens).trans (if_neg closes)
    rw [List.cons_append, passed]
    exact smaller

variable {depth : Nat} {value : List Char}

theorem braceDepth_of_closedDepth {behind : Nat} (closed : closedDepth depth value = some behind) :
    braceDepth depth value = behind := by
  fun_induction closedDepth depth value with
  | case1 depth => exact Option.some.inj closed
  | case2 depth rest smaller => exact smaller closed
  | case3 rest opens => cases closed
  | case4 rest opens depth smaller => exact smaller closed
  | case5 depth character rest opens closes smaller =>
    rw [braceDepth, if_neg opens, if_neg closes]
    exact smaller closed

theorem closedDepth_replicate (depth : Nat) :
    closedDepth depth (List.replicate depth '}') = some 0 := by
  induction depth with
  | zero => rfl
  | succ depth smaller => exact smaller

/-- Closing what a prefix of a balanced text has left open balances it. -/
theorem Balanced.close {kept rest : List Char} (balanced : Balanced (kept ++ rest)) :
    Balanced (kept ++ List.replicate (braceDepth 0 kept) '}') := by
  unfold Balanced at balanced ⊢
  rw [closedDepth_append] at balanced ⊢
  obtain ⟨depth, closed, _⟩ := Option.bind_eq_some_iff.mp balanced
  rw [braceDepth_of_closedDepth closed, closed]
  exact closedDepth_replicate depth

theorem textUnitsFrom_closers (depth position closers : Nat) :
    (textUnitsFrom depth position (List.replicate closers '}')).length =
      (textUnitsFrom depth position []).length := by
  induction closers generalizing depth position with
  | zero => rfl
  | succ closers smaller => ?_
  rcases depth with _ | _ | depth
  · exact smaller 0 (position + 1)
  · exact congrArg (· + 1) (smaller 0 (position + 1))
  · exact smaller (depth + 1) (position + 1)

theorem textUnitsFrom_close_length (depth position closers : Nat) (value : List Char) :
    (textUnitsFrom depth position (value ++ List.replicate closers '}')).length =
      (textUnitsFrom depth position value).length := by
  fun_induction textUnitsFrom depth position value with
  | case1 position => exact textUnitsFrom_closers 0 position closers
  | case2 position rest smaller => exact smaller
  | case3 position character rest ordinary brace smaller =>
    rcases brace with rfl | rfl
    · have plain : ∀ later, rest ++ List.replicate closers '}' ≠ '\\' :: later := by
        intro later same
        cases rest with
        | nil =>
          cases closers with
          | zero => cases same
          | succ closers => cases same
        | cons first rest =>
          cases same
          exact ordinary rest rfl rfl
      rw [List.cons_append, textUnitsFrom_open plain]
      exact smaller
    · exact smaller
  | case4 position character rest ordinary brace smaller =>
    have opens : character ≠ '{' := fun same => brace (.inl same)
    have closes : character ≠ '}' := fun same => brace (.inr same)
    rw [List.cons_append, textUnitsFrom_other opens closes]
    exact congrArg (· + 1) smaller
  | case5 depth position => exact textUnitsFrom_closers (depth + 1) position closers
  | case6 depth position rest smaller => cases depth <;> exact smaller
  | case7 position rest opens smaller => exact congrArg (· + 1) smaller
  | case8 position rest depth opens smaller => exact smaller
  | case9 depth position character rest opens closes smaller =>
    rw [List.cons_append, textUnitsFrom_inside opens closes]
    exact smaller

theorem take_behind {position last : Nat} (later : position < last) (character : Char)
    (rest : List Char) :
    (character :: rest).take (last - position) = character :: rest.take (last - (position + 1)) := by
  obtain ⟨more, rfl⟩ := Nat.exists_eq_add_of_lt later
  rw [show position + more + 1 - position = more + 1 by omega,
    show position + more + 1 - (position + 1) = more by omega]
  rfl

/-- The text up to the end of a unit has the units up to this one. -/
theorem textUnitsFrom_take {position : Nat} {index : Nat} {unit : TextUnit}
    (found : (textUnitsFrom depth position value)[index]? = some unit) :
    (textUnitsFrom depth position (value.take (unit.last - position))).length = index + 1 := by
  have behind : ∀ {depth position index : Nat} {rest : List Char},
      (textUnitsFrom depth position rest)[index]? = some unit → position ≤ unit.last := by
    intro depth position index rest found
    rcases textUnitsFrom_after depth position rest unit (List.mem_of_getElem? found) with
      later | ⟨same, _⟩
    · exact Nat.le_of_lt later
    · exact Nat.le_of_eq same
  fun_induction textUnitsFrom depth position value generalizing index with
  | case1 position => cases found
  | case2 position rest smaller =>
    have least := behind found
    rw [take_behind (by omega), take_behind (by omega)]
    exact smaller found
  | case3 position character rest ordinary brace smaller =>
    rw [take_behind (behind found)]
    rcases brace with rfl | rfl
    · have plain : ∀ later, rest.take (unit.last - (position + 1)) ≠ '\\' :: later := by
        intro later same
        cases rest with
        | nil =>
          rw [List.take_nil] at same
          cases same
        | cons first rest => ?_
        cases count : unit.last - (position + 1) with
        | zero =>
          rw [count] at same
          cases same
        | succ more => ?_
        rw [count] at same
        cases same
        exact ordinary rest rfl rfl
      rw [textUnitsFrom_open plain]
      exact smaller found
    · exact smaller found
  | case4 position character rest ordinary brace smaller =>
    have opens : character ≠ '{' := fun same => brace (.inl same)
    have closes : character ≠ '}' := fun same => brace (.inr same)
    cases index with
    | zero =>
      cases found
      rw [take_behind (Nat.lt_succ_self _), Nat.sub_self, textUnitsFrom_other opens closes]
      rfl
    | succ index =>
      rw [take_behind (behind found), textUnitsFrom_other opens closes]
      exact congrArg (· + 1) (smaller found)
  | case5 depth position =>
    cases index with
    | zero =>
      rw [List.take_nil]
      rfl
    | succ index => cases found
  | case6 depth position rest smaller =>
    rw [take_behind (behind found)]
    cases depth <;> exact smaller found
  | case7 position rest opens smaller =>
    cases index with
    | zero =>
      cases found
      rw [take_behind (Nat.lt_succ_self _), Nat.sub_self]
      rfl
    | succ index =>
      rw [take_behind (behind found)]
      exact congrArg (· + 1) (smaller found)
  | case8 position rest depth opens smaller =>
    rw [take_behind (behind found)]
    exact smaller found
  | case9 depth position character rest opens closes smaller =>
    rw [take_behind (behind found), textUnitsFrom_inside opens closes]
    exact smaller found

/-- A prefix is a part of the text and closing braces behind it, balanced where the text is, and
as long in units as was asked for, as far as there are so many. -/
structure PrefixMeets (value : List Char) (count : Int64) : Prop where
  kept : ∃ kept closers, classicTextPrefix value count =
    value.take kept ++ List.replicate closers '}'
  balanced : Balanced value → Balanced (classicTextPrefix value count)
  length : textLength (classicTextPrefix value count) =
    min count.toInt.toNat (textLength value)

theorem classicTextPrefix_meets (value : List Char) (count : Int64) : PrefixMeets value count := by
  by_cases none_ : count.toInt ≤ 0
  · have empty : classicTextPrefix value count = [] := if_pos none_
    have zero : count.toInt.toNat = 0 := Int.toNat_of_nonpos none_
    refine ⟨⟨0, 0, by rw [empty]; rfl⟩, fun _ => by rw [empty]; rfl, ?_⟩
    rw [empty, zero, Nat.zero_min]
    rfl
  obtain ⟨index, counted⟩ : ∃ index, count.toInt.toNat = index + 1 :=
    Nat.exists_eq_succ_of_ne_zero (by omega)
  obtain ⟨last, spelled, units⟩ : ∃ last, classicTextPrefix value count =
      value.take last ++ List.replicate (braceDepth 0 (value.take last)) '}' ∧
      textLength (value.take last) = min (index + 1) (textLength value) := by
    cases found : (classicTextUnits value)[index]? with
    | some unit =>
      refine ⟨unit.last, ?_, ?_⟩
      · rw [classicTextPrefix, if_neg none_, counted, Nat.add_sub_cancel, found]
      have within := (List.getElem?_eq_some_iff.mp found).1
      have least : min (index + 1) (textLength value) = index + 1 := Nat.min_eq_left within
      rw [least]
      exact textUnitsFrom_take found
    | none => ?_
    refine ⟨value.length, ?_, ?_⟩
    · rw [classicTextPrefix, if_neg none_, counted, Nat.add_sub_cancel, found]
    have beyond := List.getElem?_eq_none_iff.mp found
    have least : min (index + 1) (textLength value) = textLength value :=
      Nat.min_eq_right (Nat.le_succ_of_le beyond)
    rw [List.take_length, least]
  refine ⟨⟨last, _, spelled⟩, fun balanced => ?_, ?_⟩
  · rw [spelled]
    rw [← List.take_append_drop last value] at balanced
    exact balanced.close
  rw [spelled, counted, ← units]
  exact textUnitsFrom_close_length 0 0 _ _

/-! ## Slices -/

/-- The slice is there, a contiguous part of the text, and no longer than asked for. -/
def SliceMeets (value : List Char) (start count : Int64) : Prop :=
  ∃ slice, classicSubstring value start count = some slice ∧ slice <:+: value ∧
    slice.length ≤ count.toInt.toNat

theorem checked128_eq {number : Int} (low : -170141183460469231731687303715884105728 ≤ number)
    (high : number < 170141183460469231731687303715884105728) : checked128 number = some number :=
  if_pos ⟨low, high⟩

theorem slice_infix (value : List Char) (first width : Nat) :
    (value.drop first).take width <:+: value :=
  (List.take_prefix width (value.drop first)).isInfix.trans (List.drop_suffix first value).isInfix

theorem classicSubstring_meets (fits : value.length < 9223372036854775808) (start count : Int64) :
    SliceMeets value start count := by
  have startLow := start.le_toInt
  have startHigh := start.toInt_lt
  have countLow := count.le_toInt
  have countHigh := count.toInt_lt
  unfold SliceMeets classicSubstring
  by_cases nothing : count.toInt ≤ 0 ∨ start.toInt = 0
  · rw [if_pos nothing]
    exact ⟨[], rfl, List.nil_infix, Nat.zero_le _⟩
  rw [if_neg nothing, checked128_eq (by omega) (by omega)]
  dsimp only [bind, Option.bind]
  by_cases whole : count.toInt ≥ value.length ∧ (start.toInt = 1 ∨ start.toInt = -1)
  · rw [if_pos whole]
    exact ⟨value, rfl, List.infix_refl value, by omega⟩
  rw [if_neg whole, checked128_eq (by omega) (by omega)]
  dsimp only
  by_cases outside : start.toInt > value.length ∨ start.toInt < -value.length
  · rw [if_pos outside]
    exact ⟨[], rfl, List.nil_infix, Nat.zero_le _⟩
  rw [if_neg outside]
  by_cases forward : start.toInt > 0
  · rw [if_pos forward, checked128_eq (by omega) (by omega)]
    dsimp only
    rw [checked128_eq (by omega) (by omega)]
    refine ⟨_, rfl, slice_infix value _ _, ?_⟩
    rw [List.length_take]
    omega
  rw [if_neg forward, checked128_eq (by omega) (by omega)]
  dsimp only
  rw [checked128_eq (by omega) (by omega)]
  dsimp only
  rw [checked128_eq (by omega) (by omega)]
  refine ⟨_, rfl, slice_infix value _ _, ?_⟩
  rw [List.length_take]
  omega

end Umber.Classic
