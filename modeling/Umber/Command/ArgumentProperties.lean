import Umber.Command.ArgumentWriter

/-! The writer holds a visible argument and a held-back candidate, and its cursor tells
the depth of the argument and whether it is one group. -/

set_option autoImplicit false

namespace Umber.Command

/-- The argument opens with a left brace that nothing but its last word can close. -/
def OpensGroup (words : List TokenWord) : Prop :=
  ∃ opening rest, words = opening :: rest ∧ opening.isBeginGroup = true ∧
    ∀ left right, rest = left ++ right → right ≠ [] → braceDepth 1 left ≠ some 0

variable {depth : Nat}

theorem braceDepth_cons_begin {opening : TokenWord} (rest : List TokenWord)
    (begins : opening.isBeginGroup = true) :
    braceDepth depth (opening :: rest) = braceDepth (depth + 1) rest := by
  show (stepDepth depth opening).bind (fun after => braceDepth after rest) = _
  rw [stepDepth_begin depth begins]
  rfl

theorem opensGroup_singleton (word : TokenWord) : OpensGroup [word] ↔ word.isBeginGroup = true := by
  constructor
  · rintro ⟨opening, rest, equal, begins, _⟩
    cases equal
    exact begins
  intro begins
  refine ⟨word, [], rfl, begins, ?_⟩
  intro left right split nonempty
  exact absurd (List.append_eq_nil_iff.mp split.symm).2 nonempty

variable {words : List TokenWord}

/-- A closed argument does not open a group that a further word closes. -/
theorem not_opensGroup_concat (word : TokenWord) (nonempty : words ≠ [])
    (closed : braceDepth 0 words = some 0) : ¬ OpensGroup (words ++ [word]) := by
  rintro ⟨opening, rest, equal, begins, open_⟩
  cases words with
  | nil => exact nonempty rfl
  | cons first tail => ?_
  rw [List.cons_append] at equal
  cases equal
  rw [braceDepth_cons_begin tail begins] at closed
  exact open_ tail [word] rfl (List.cons_ne_nil _ _) closed

theorem opensGroup_concat (word : TokenWord) (nonempty : words ≠ [])
    (reached : braceDepth 0 words = some depth) (inside : depth ≠ 0) :
    OpensGroup (words ++ [word]) ↔ OpensGroup words := by
  cases words with
  | nil => exact absurd rfl nonempty
  | cons first tail => ?_
  constructor
  · rintro ⟨opening, rest, equal, begins, open_⟩
    rw [List.cons_append] at equal
    cases equal
    refine ⟨first, tail, rfl, begins, ?_⟩
    intro left right split ne
    exact open_ left (right ++ [word]) (by rw [split, List.append_assoc]) (by simp)
  rintro ⟨opening, rest, equal, begins, open_⟩
  cases equal
  refine ⟨first, tail ++ [word], rfl, begins, ?_⟩
  intro left right split ne
  rw [braceDepth_cons_begin tail begins] at reached
  -- the split leaves the new word on the right: alone, or behind words of the tail
  rcases List.eq_nil_or_concat right with empty | ⟨start, final, snoc⟩
  · exact absurd empty ne
  rw [snoc, List.concat_eq_append, ← List.append_assoc] at split
  obtain ⟨same, _⟩ := List.append_inj' split rfl
  cases start with
  | nil =>
    rw [List.append_nil] at same
    subst same
    intro zero
    rw [reached] at zero
    exact inside (Option.some.inj zero)
  | cons head more => exact open_ left (head :: more) same (List.cons_ne_nil _ _)

variable {after : Nat}

/-- Words that never close what was open one level deeper are balanced one level up. -/
theorem braceDepth_pred
    (open_ : ∀ left right, words = left ++ right → braceDepth (depth + 1) left ≠ some 0)
    (reached : braceDepth (depth + 1) words = some (after + 1)) :
    braceDepth depth words = some after := by
  induction words generalizing depth with
  | nil =>
    cases reached
    rfl
  | cons word rest ih => ?_
  have first := open_ [word] rest rfl
  rw [braceDepth_singleton] at first
  unfold braceDepth at reached ⊢
  cases stepped : stepDepth (depth + 1) word with
  | none =>
    rw [stepped] at reached
    cases reached
  | some middle => ?_
  rw [stepped] at reached first
  cases middle with
  | zero => exact absurd rfl first
  | succ middle => ?_
  have below : stepDepth depth word = some middle := by
    unfold stepDepth at stepped ⊢
    split at stepped
    next begins =>
      rw [if_pos begins]
      cases stepped
      rfl
    rename_i begins
    rw [if_neg begins]
    split at stepped
    next ends =>
      rw [if_neg (Nat.succ_ne_zero depth)] at stepped
      have positive : depth ≠ 0 := by
        intro zero
        subst zero
        cases stepped
      rw [if_pos ends, if_neg positive]
      have value := Option.some.inj stepped
      exact congrArg some (by omega)
    next ends =>
      rw [if_neg ends]
      cases stepped
      rfl
  rw [below]
  refine ih ?_ reached
  intro left right split
  have whole := open_ (word :: left) right (by rw [split]; rfl)
  unfold braceDepth at whole
  rw [stepped] at whole
  exact whole

theorem opensGroup_closed_iff (closed : braceDepth 0 words = some 0) :
    OpensGroup words ↔ OneGroup words := by
  constructor
  · rintro ⟨opening, rest, rfl, begins, open_⟩
    rw [braceDepth_cons_begin rest begins] at closed
    rcases List.eq_nil_or_concat rest with rfl | ⟨inner, closing, snoc⟩
    · cases closed
    rw [List.concat_eq_append] at snoc
    subst snoc
    have proper : braceDepth 1 inner ≠ some 0 := open_ inner [closing] rfl (by simp)
    cases middle : braceDepth 1 inner with
    | none =>
      rw [braceDepth_append, middle] at closed
      cases closed
    | some depth => ?_
    rw [braceDepth_concat closing middle] at closed
    have ended : closing.isEndGroup = true ∧ depth = 1 := by
      have positive : depth ≠ 0 := fun zero => proper (zero ▸ middle)
      unfold stepDepth at closed
      split at closed
      next => cases closed
      split at closed
      next ends =>
        have value := Option.some.inj closed
        exact ⟨ends, by omega⟩
      next => exact absurd (Option.some.inj closed) positive
    obtain ⟨ends, rfl⟩ := ended
    refine ⟨opening, inner, closing, rfl, begins, ends, ?_⟩
    refine braceDepth_pred ?_ middle
    intro left right split
    exact open_ left (right ++ [closing]) (by rw [split, List.append_assoc]) (by simp)
  rintro ⟨opening, inner, closing, rfl, begins, ends, balanced⟩
  refine ⟨opening, inner ++ [closing], rfl, begins, ?_⟩
  intro left right split nonempty
  rcases List.eq_nil_or_concat right with rfl | ⟨start, final, snoc⟩
  · exact absurd rfl nonempty
  rw [snoc, List.concat_eq_append, ← List.append_assoc] at split
  obtain ⟨same, _⟩ := List.append_inj' split rfl
  unfold Balanced at balanced
  rw [same, braceDepth_append] at balanced
  cases middle : braceDepth 0 left with
  | none =>
    rw [middle] at balanced
    cases balanced
  | some depth =>
    rw [braceDepth_succ middle]
    exact fun zero => nomatch Option.some.inj zero

structure CursorFor (cursor : ScannerCursor) (visible : List TokenWord) : Prop where
  depth : braceDepth 0 visible = some cursor.braceDepth
  count : cursor.wordCount = visible.length
  candidate : cursor.outerGroupCandidate = true ↔ OpensGroup visible

theorem CursorFor.start : CursorFor .start [] where
  depth := rfl
  count := rfl
  candidate := by
    constructor
    · intro impossible
      cases impossible
    rintro ⟨opening, rest, equal, _⟩
    cases equal

variable {cursor : ScannerCursor}

theorem CursorFor.settle {visible : List TokenWord} (known : CursorFor cursor visible)
    {word : TokenWord} (paragraph : Bool)
    (allowed : cursor.braceDepth ≠ 0 ∨ word.isEndGroup = false) :
    CursorFor (cursor.settleArgumentWord word paragraph) (visible ++ [word]) where
  depth := by
    rw [braceDepth_concat word known.depth]
    unfold stepDepth ScannerCursor.settleArgumentWord
    dsimp only
    split
    next => rfl
    split
    next ends =>
      have positive : cursor.braceDepth ≠ 0 := by
        rcases allowed with positive | notEnd
        · exact positive
        rw [ends] at notEnd
        cases notEnd
      rw [if_neg positive]
    next => rfl
  count := by
    rw [List.length_append, List.length_singleton, ← known.count]
    rfl
  candidate := by
    unfold ScannerCursor.settleArgumentWord
    dsimp only
    rw [known.count]
    cases visible with
    | nil =>
      rw [List.length_nil, if_pos rfl, List.nil_append]
      exact (opensGroup_singleton word).symm
    | cons first rest => ?_
    rw [if_neg (by simp)]
    have nonempty : first :: rest ≠ [] := List.cons_ne_nil _ _
    by_cases zero : cursor.braceDepth = 0
    · rw [if_pos zero]
      have closed := zero ▸ known.depth
      constructor
      · intro impossible
        cases impossible
      intro opens
      exact absurd opens (not_opensGroup_concat word nonempty closed)
    rw [if_neg zero, known.candidate]
    exact (opensGroup_concat word nonempty known.depth zero).symm

theorem CursorFor.removable_iff {visible : List TokenWord} (known : CursorFor cursor visible)
    (closed : braceDepth 0 visible = some 0) :
    cursor.removableOuterGroup = true ↔ OneGroup visible := by
  have zero : cursor.braceDepth = 0 := by
    have depth := known.depth
    rw [closed] at depth
    exact (Option.some.inj depth).symm
  unfold ScannerCursor.removableOuterGroup
  rw [zero, Bool.and_eq_true, known.candidate, opensGroup_closed_iff closed]
  exact ⟨fun both => both.1, fun group => ⟨group, rfl⟩⟩

theorem CursorFor.settleWords {visible : List TokenWord} (known : CursorFor cursor visible)
    (reached : braceDepth cursor.braceDepth words = some after) :
    CursorFor (cursor.settleWords words) (visible ++ words) := by
  induction words generalizing cursor visible with
  | nil =>
    rw [List.append_nil]
    exact known
  | cons word rest ih => ?_
  have allowed : cursor.braceDepth ≠ 0 ∨ word.isEndGroup = false := by
    cases ends : word.isEndGroup with
    | false => exact .inr rfl
    | true => ?_
    refine .inl ?_
    intro zero
    unfold braceDepth at reached
    rw [stepDepth_end _ ends, if_pos zero] at reached
    cases reached
  have settled := known.settle false allowed
  have stepped : stepDepth cursor.braceDepth word =
      some (cursor.settleArgumentWord word false).braceDepth :=
    (braceDepth_concat word known.depth).symm.trans settled.depth
  have next : braceDepth (cursor.settleArgumentWord word false).braceDepth rest =
      some after := by
    unfold braceDepth at reached
    rw [stepped] at reached
    exact reached
  have carried := ih settled next
  rw [List.append_assoc] at carried
  exact carried

/-- What the lane holds from the start of the argument on: the visible words, and the
words held back behind them. -/
structure Holds (scratch : ArgumentScratch) (base visible held : List TokenWord) : Prop where
  lane : scratch.macroWords = base ++ (visible ++ held)
  start : scratch.writer.start = base.length
  visibleEnd : scratch.writer.visibleEnd = base.length + visible.length
  endTrim : scratch.writer.endTrim = 0
  holdbackLen : scratch.writer.holdbackLen = held.length
  holdbackStart : held ≠ [] → scratch.writer.holdbackStart = base.length + visible.length
  cursor : CursorFor scratch.writer.cursor visible

namespace Holds

variable {scratch : ArgumentScratch} {base visible held : List TokenWord}

theorem begin_ (base : List TokenWord) : Holds (.beginArgumentWriter base) base [] [] where
  lane := (List.append_nil base).symm
  start := rfl
  visibleEnd := rfl
  endTrim := rfl
  holdbackLen := rfl
  holdbackStart := fun nonempty => absurd rfl nonempty
  cursor := .start

theorem length_lane (holds : Holds scratch base visible held) :
    scratch.macroWords.length = base.length + visible.length + held.length := by
  rw [holds.lane, List.length_append, List.length_append]
  omega

variable {after : Nat}

theorem appendPlainSpan (holds : Holds scratch base visible []) {words : List TokenWord}
    (reached : braceDepth scratch.depth words = some after) :
    ∃ appended, scratch.appendPlainSpan words = .ok appended ∧
      Holds appended base (visible ++ words) [] := by
  unfold ArgumentScratch.appendPlainSpan
  rw [holds.holdbackLen]
  refine ⟨_, rfl, ?_⟩
  exact
    { lane := by simp [holds.lane]
      start := holds.start
      visibleEnd := by
        dsimp only
        rw [holds.length_lane, List.length_append, List.length_nil]
        omega
      endTrim := holds.endTrim
      holdbackLen := holds.holdbackLen
      holdbackStart := fun nonempty => absurd rfl nonempty
      cursor := holds.cursor.settleWords reached }

theorem appendHotDelivery (holds : Holds scratch base visible []) {word : TokenWord}
    (paragraph : Bool) (allowed : scratch.depth ≠ 0 ∨ word.isEndGroup = false) :
    ∃ appended, scratch.appendHotDelivery word paragraph = .ok appended ∧
      Holds appended base (visible ++ [word]) [] := by
  unfold ArgumentScratch.appendHotDelivery
  rw [holds.holdbackLen]
  refine ⟨_, rfl, ?_⟩
  exact
    { lane := by simp [holds.lane]
      start := holds.start
      visibleEnd := by
        dsimp only
        rw [holds.length_lane, List.length_append, List.length_singleton, List.length_nil]
        omega
      endTrim := holds.endTrim
      holdbackLen := holds.holdbackLen
      holdbackStart := fun nonempty => absurd rfl nonempty
      cursor := holds.cursor.settle paragraph allowed }

section

variable (holds : Holds scratch base visible held)
include holds

theorem appendDelimiterWord (word : TokenWord) :
    Holds (scratch.appendDelimiterWord word) base visible (held ++ [word]) where
  lane := by
    show scratch.macroWords ++ [word] = _
    rw [holds.lane]
    simp
  start := holds.start
  visibleEnd := holds.visibleEnd
  endTrim := holds.endTrim
  holdbackLen := by
    show scratch.writer.holdbackLen + 1 = _
    rw [holds.holdbackLen, List.length_append, List.length_singleton]
  holdbackStart := by
    intro _
    show (if scratch.writer.holdbackLen = 0 then scratch.writer.visibleEnd
      else scratch.writer.holdbackStart) = _
    cases held with
    | nil =>
      rw [if_pos (show scratch.writer.holdbackLen = 0 from holds.holdbackLen)]
      exact holds.visibleEnd
    | cons first rest =>
      rw [if_neg (by rw [holds.holdbackLen]; simp)]
      exact holds.holdbackStart (List.cons_ne_nil _ _)
  cursor := holds.cursor

/-- Revealing moves words from the held-back part to the argument, and copies none. -/
theorem reveal {count : Nat} (nonempty : held ≠ [])
    (fits : count ≤ held.length) (reached : braceDepth scratch.depth (held.take count) = some after) :
     ∃ revealed, scratch.revealDelimiterWords count = .ok revealed ∧
      Holds revealed base (visible ++ held.take count) (held.drop count) := by
  have start := holds.holdbackStart nonempty
  have length := holds.length_lane
  have taken : (scratch.macroWords.drop scratch.writer.visibleEnd).take
      (scratch.writer.holdbackStart + count - scratch.writer.visibleEnd) = held.take count := by
    rw [start, holds.visibleEnd, Nat.add_sub_cancel_left, holds.lane, ← List.append_assoc,
      ← List.length_append, List.drop_left]
  unfold ArgumentScratch.revealDelimiterWords
  rw [holds.holdbackLen, if_neg (Nat.not_lt.mpr fits)]
  dsimp only
  rw [if_neg (by rw [start, length]; omega)]
  refine ⟨_, rfl, ?_⟩
  exact
    { lane := by
        show scratch.macroWords = _
        rw [holds.lane, List.append_assoc, List.take_append_drop]
      start := holds.start
      visibleEnd := by
        dsimp only
        rw [start, List.length_append, List.length_take, Nat.min_eq_left fits]
        omega
      endTrim := holds.endTrim
      holdbackLen := by
        dsimp only
        rw [List.length_drop]
      holdbackStart := by
        intro _
        dsimp only
        rw [start, List.length_append, List.length_take, Nat.min_eq_left fits]
        omega
      cursor := by
        dsimp only
        rw [taken]
        exact holds.cursor.settleWords reached }

/-- Truncating drops the held-back words and keeps the argument. -/
theorem truncate (nonempty : held ≠ []) :
    ∃ truncated, scratch.truncateDelimiterSuffix = .ok truncated ∧
      Holds truncated base visible [] := by
  have start := holds.holdbackStart nonempty
  have length := holds.length_lane
  unfold ArgumentScratch.truncateDelimiterSuffix
  dsimp only
  rw [holds.holdbackLen, start, if_neg (by rw [length]; omega)]
  refine ⟨_, rfl, ?_⟩
  exact
    { lane := by
        dsimp only
        rw [holds.lane, ← List.append_assoc, ← List.length_append, List.take_left, List.append_nil]
      start := holds.start
      visibleEnd := rfl
      endTrim := holds.endTrim
      holdbackLen := rfl
      holdbackStart := fun empty => absurd rfl empty
      cursor := holds.cursor }

theorem matchWords : scratch.matchWords = .ok visible := by
  have length := holds.length_lane
  unfold ArgumentScratch.matchWords
  dsimp only
  rw [holds.endTrim, holds.visibleEnd, holds.start, if_neg (by rw [length]; omega), holds.lane,
    List.drop_left, Nat.sub_zero, Nat.add_sub_cancel_left, List.take_left]

end

/-- A finished argument loses its outer braces exactly when it is one group. -/
theorem strip (holds : Holds scratch base visible []) (closed : braceDepth 0 visible = some 0) :
    ∃ stripped, scratch.stripArgumentOuterGroup = .ok stripped ∧
      stripped.macroWords = base ++ visible ∧
      (OneGroup visible → stripped.matchWords = .ok visible.tail.dropLast) ∧
      (¬ OneGroup visible → stripped.matchWords = .ok visible) := by
  have removable := holds.cursor.removable_iff closed
  have lane : scratch.macroWords = base ++ visible := by rw [holds.lane, List.append_nil]
  unfold ArgumentScratch.stripArgumentOuterGroup
  by_cases group : OneGroup visible
  · rw [if_pos (removable.mpr group)]
    obtain ⟨opening, inner, closing, rfl, _, _, _⟩ := group
    unfold ArgumentScratch.stripOuterGroup
    rw [if_neg (by rw [holds.visibleEnd, holds.start, holds.endTrim]; simp)]
    refine ⟨_, rfl, lane, ?_, fun not => absurd ⟨opening, inner, closing, rfl, ‹_›, ‹_›, ‹_›⟩ not⟩
    intro _
    have whole : scratch.macroWords = (base ++ [opening]) ++ (inner ++ [closing]) := by
      rw [lane]
      simp
    unfold ArgumentScratch.matchWords
    dsimp only
    rw [holds.endTrim, holds.visibleEnd, holds.start, if_neg (by rw [lane]; simp)]
    have place : base.length + 1 = (base ++ [opening]).length := by simp
    rw [place, whole, List.drop_left]
    have size : base.length + (opening :: (inner ++ [closing])).length - (0 + 1) -
        (base ++ [opening]).length = inner.length := by
      simp
      omega
    rw [size, List.take_left, List.tail_cons, List.dropLast_concat]
  rw [if_neg (fun removes => group (removable.mp removes))]
  exact ⟨scratch, rfl, lane, fun is => absurd is group, fun _ => holds.matchWords⟩

end Holds

end Umber.Command
