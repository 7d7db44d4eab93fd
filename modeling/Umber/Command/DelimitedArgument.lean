import Umber.Command.DelimiterProperties

/-! Delimited arguments as TeX reads them: the shortest balanced words before the
delimiter, with TeX's own back-up loop behind every partial match. -/

set_option autoImplicit false

namespace Umber.Command

open Overlap

/-- Compare the delimiter from one place on with its start, up to the words matched so
far, and then the current word. -/
def texMatches (delimiter : List TokenWord) (current : TokenWord) : Nat → Nat → Nat → Bool
  | 0, _, start => decide (delimiter[start]? = some current)
  | more + 1, place, start =>
    decide (delimiter[place]? = delimiter[start]?) &&
      texMatches delimiter current more (place + 1) (start + 1)

/-- TeX contributes one matched word after another until the rest of them and the current
word are the start of the delimiter again: the number of words contributed, and of words
matched then. -/
def texBackUp (delimiter : List TokenWord) (current : TokenWord) : Nat → Nat → Nat × Nat
  | 0, place => (place, 0)
  | more + 1, place =>
    if texMatches delimiter current more (place + 1) 0 = true then (place + 1, more + 1)
    else texBackUp delimiter current more (place + 1)

variable {delimiter : List TokenWord} {current : TokenWord}

theorem texMatches_iff (more : Nat) :
    ∀ place start, place + more ≤ delimiter.length → start ≤ place →
      (texMatches delimiter current more place start = true ↔
        (delimiter.drop place).take more = (delimiter.drop start).take more ∧
          delimiter[start + more]? = some current) := by
  induction more with
  | zero =>
    intro place start _ _
    unfold texMatches
    rw [List.take_zero, List.take_zero, decide_eq_true_iff]
    exact ⟨fun found => ⟨rfl, found⟩, fun both => both.2⟩
  | succ more ih => ?_
  intro place start fits before
  have placeInside : place < delimiter.length := by omega
  have startInside : start < delimiter.length := by omega
  unfold texMatches
  rw [Bool.and_eq_true, decide_eq_true_iff,
    ih (place + 1) (start + 1) (by omega) (Nat.succ_le_succ before),
    List.drop_eq_getElem_cons placeInside, List.drop_eq_getElem_cons startInside,
    List.take_succ_cons, List.take_succ_cons, List.cons.injEq,
    List.getElem?_eq_getElem placeInside, List.getElem?_eq_getElem startInside,
    Option.some.injEq, and_assoc, Nat.add_right_comm, Nat.add_assoc start]

variable {count : Nat}

/-- The comparison from a place finds the overlap that starts there. -/
theorem texMatches_overlaps {more : Nat} (fits : more ≤ count) (inside : count ≤ delimiter.length) :
    texMatches delimiter current more (count - more) 0 = true ↔
      Overlaps delimiter (delimiter.take count ++ [current]) (more + 1) := by
  have shift : count - (count - more) = more := Nat.sub_sub_self fits
  have length : (delimiter.take more).length = more := by
    rw [List.length_take, Nat.min_eq_left (Nat.le_trans fits inside)]
  have whole : (delimiter.take count).length = count := by
    rw [List.length_take, Nat.min_eq_left inside]
  have suffix : (delimiter.drop (count - more)).take more = delimiter.take more ↔
      delimiter.take more <:+ delimiter.take count := by
    rw [List.suffix_iff_eq_drop, length, whole, List.drop_take, shift]
    exact eq_comm
  rw [texMatches_iff more _ 0 (by omega) (Nat.zero_le _), overlaps_concat, List.drop_zero,
    Nat.zero_add, suffix]
  exact ⟨fun both => ⟨⟨Nat.le_trans fits inside, both.1⟩, both.2⟩, fun both => ⟨both.1.2, both.2⟩⟩

/-- The loop stops at the longest overlap, with all words before it contributed. -/
theorem texBackUp_spec {delimiter : List TokenWord} {current : TokenWord} {count : Nat}
    (inside : count ≤ delimiter.length) (more : Nat) (fits : more ≤ count) :
    ∃ retained, texBackUp delimiter current more (count - more) =
        (if retained = 0 then count else count + 1 - retained, retained) ∧
      Longest delimiter (delimiter.take count ++ [current]) more retained := by
  induction more with
  | zero =>
    exact ⟨0, rfl, overlaps_zero _ _, Nat.le_refl 0, fun _ bound _ => bound⟩
  | succ more ih => ?_
  have place : count - (more + 1) + 1 = count - more := by omega
  unfold texBackUp
  rw [place]
  by_cases found : texMatches delimiter current more (count - more) 0 = true
  · rw [if_pos found]
    refine ⟨more + 1, ?_, (texMatches_overlaps (by omega) inside).mp found, Nat.le_refl _,
      fun _ bound _ => bound⟩
    rw [if_neg (Nat.succ_ne_zero more), Nat.add_sub_add_right]
  rw [if_neg found]
  obtain ⟨retained, ran, longest⟩ := ih (Nat.le_of_succ_le fits)
  refine ⟨retained, ran, longest.overlaps, Nat.le_succ_of_le longest.within, ?_⟩
  intro other bound overlaps
  rcases Nat.lt_or_eq_of_le bound with less | equal
  · exact longest.longest other (Nat.le_of_lt_succ less) overlaps
  subst equal
  exact absurd ((texMatches_overlaps (by omega) inside).mpr overlaps) found

theorem buildDelimiterFailure_spec (isDelimiter : IsDelimiter delimiter) :
    ∃ failure, buildDelimiterFailure delimiter = .ok failure ∧
      failure.length = delimiter.length ∧ Table delimiter failure := by
  have first : Table delimiter [0] := by
    intro index found entry
    cases index with
    | zero =>
      cases entry
      exact ⟨overlaps_zero _ _, Nat.le_refl 0, fun _ bound _ => bound⟩
    | succ index => cases entry
  cases delimiter with
  | nil => exact absurd rfl isDelimiter.nonempty
  | cons word rest => ?_
  obtain ⟨full, built, size, table⟩ :=
    extendTable_spec rest.length [0] (by simp) (Nat.add_comm ..) first
  refine ⟨full, ?_, size, table⟩
  unfold buildDelimiterFailure
  dsimp only
  rw [built]

theorem delimiterOverlap_texBackUp {failure : List Nat} {word : TokenWord}
    (table : Table delimiter failure) (covered : failure.length = delimiter.length)
    (proper : count < delimiter.length) (mismatch : delimiter[count]? ≠ some word) :
    ∃ retained, delimiterOverlap delimiter failure count word = .ok retained ∧
      texBackUp delimiter word count 0 =
        (if retained = 0 then count else count + 1 - retained, retained) := by
  obtain ⟨retained, overlap, bound, found⟩ := delimiterOverlap_spec table covered proper mismatch
  obtain ⟨other, ran, longest⟩ :=
    @texBackUp_spec delimiter word count (Nat.le_of_lt proper) count (Nat.le_refl count)
  have same : other = retained := by
    apply Nat.le_antisymm
    · exact found.longest other (Nat.le_succ_of_le longest.within) longest.overlaps
    · exact longest.longest retained bound found.overlaps
  rw [Nat.sub_self] at ran
  exact ⟨retained, overlap, same ▸ ran⟩

theorem scanDelimitedArgument_finished {plan : MacroPlan}
    (isDelimiter : IsDelimiter plan.delimiter) (long : plan.long = true)
    (windows : List ResidentWindow) (base stream : List TokenWord) :
    ∃ outcome, scanDelimitedArgument plan windows base stream = .ok outcome ∧
      Finished plan base stream outcome := by
  obtain ⟨failure, built, covered, table⟩ := buildDelimiterFailure_spec isDelimiter
  unfold scanDelimitedArgument
  rw [built]
  exact scanLoop_finished isDelimiter long table covered
    ⟨windows, stream, .beginArgumentWriter base⟩ (.start isDelimiter base)

/-- The depth is known before a stray right brace and never behind it. -/
theorem braceDepth_extraRightBrace {before rest : List TokenWord} {brace : TokenWord}
    (ends : brace.isEndGroup = true) (balanced : Balanced before) :
    braceDepth 0 (before ++ brace :: rest) = none := by
  rw [braceDepth_append, balanced]
  show (stepDepth 0 brace).bind _ = none
  rw [stepDepth_end 0 ends, if_pos rfl]
  rfl

/-- The first stray right brace is not behind another. -/
theorem extraRightBrace_le {before rest otherBefore otherRest : List TokenWord}
    {brace otherBrace : TokenWord} (ends : brace.isEndGroup = true) (balanced : Balanced before)
    (otherBalanced : Balanced otherBefore)
    (same : before ++ brace :: rest = otherBefore ++ otherBrace :: otherRest) :
    otherBefore.length ≤ before.length := by
  apply Nat.le_of_not_lt
  intro shorter
  have front : before ++ [brace] <+: before ++ brace :: rest :=
    ⟨rest, by rw [List.append_assoc]; rfl⟩
  have otherFront : otherBefore <+: before ++ brace :: rest := same ▸ List.prefix_append ..
  have within : before ++ [brace] <+: otherBefore := by
    apply List.prefix_of_prefix_length_le front otherFront
    rw [List.length_append, List.length_singleton]
    exact shorter
  obtain ⟨more, rfl⟩ := within
  have stray := @braceDepth_extraRightBrace before more brace ends balanced
  unfold Balanced at otherBalanced
  rw [List.append_assoc, List.singleton_append, stray] at otherBalanced
  cases otherBalanced

/-- A delimited argument is the shortest balanced words before the delimiter, without the
braces around them where they are one group. A stray right brace is reported with the
words before it, and no word is lost, repeated or moved. The overlap table gives back the
words TeX's loop gives back. -/
theorem scanDelimitedArgument_shortest {plan : MacroPlan}
    (isDelimiter : IsDelimiter plan.delimiter) (long : plan.long = true)
    (windows : List ResidentWindow) (base stream : List TokenWord) :
    (∀ argument rest, stream = argument ++ plan.delimiter ++ rest → Balanced argument →
      (∀ shorter, Delimits plan.delimiter shorter stream → argument.length ≤ shorter.length) →
      ∃ done, scanDelimitedArgument plan windows base stream = .ok (.matched done rest) ∧
        done.macroWords = base ++ argument ∧
        (OneGroup argument → done.matchWords = .ok argument.tail.dropLast) ∧
        (¬ OneGroup argument → done.matchWords = .ok argument)) ∧
    (∀ before brace rest, stream = before ++ brace :: rest → brace.isEndGroup = true →
      Balanced before → (∀ argument, ¬ Delimits plan.delimiter argument stream) →
      ∃ done, scanDelimitedArgument plan windows base stream =
          .ok (.extraRightBrace done (plan.recoveryPar :: brace :: rest)) ∧
        done.macroWords = base ++ before ∧ done.matchWords = .ok before) ∧
    (∀ depth, braceDepth 0 stream = some depth →
      (∀ argument, ¬ Delimits plan.delimiter argument stream) →
      ∃ done, scanDelimitedArgument plan windows base stream = .ok (.inputEnded done)) ∧
    (∃ failure, buildDelimiterFailure plan.delimiter = .ok failure ∧
      ∀ count word, count < plan.delimiter.length → plan.delimiter[count]? ≠ some word →
        ∃ retained, delimiterOverlap plan.delimiter failure count word = .ok retained ∧
          texBackUp plan.delimiter word count 0 =
            (if retained = 0 then count else count + 1 - retained, retained)) := by
  obtain ⟨outcome, ran, finished⟩ :=
    scanDelimitedArgument_finished isDelimiter long windows base stream
  obtain ⟨failure, built, covered, table⟩ := buildDelimiterFailure_spec isDelimiter
  refine ⟨?_, ?_, ?_, failure, built, ?_⟩
  · intro argument rest split_ balanced shortest
    have delimits : Delimits plan.delimiter argument stream := ⟨⟨rest, split_.symm⟩, balanced⟩
    cases finished with
    | @matched done found left whole foundBalanced foundShortest lane grouped ungrouped =>
      have foundDelimits : Delimits plan.delimiter found stream :=
        ⟨⟨left, whole.symm⟩, foundBalanced⟩
      have size : argument.length = found.length :=
        Nat.le_antisymm (shortest found foundDelimits) (foundShortest argument delimits)
      rw [whole, List.append_assoc, List.append_assoc] at split_
      obtain ⟨rfl, same⟩ := List.append_inj split_ size.symm
      cases List.append_cancel_left same
      exact ⟨done, ran, lane, grouped, ungrouped⟩
    | extraRightBrace _ _ _ unmatched _ _ => exact absurd delimits (unmatched argument)
    | inputEnded _ unmatched => exact absurd delimits (unmatched argument)
  · intro before brace rest split_ ends balanced unmatched
    cases finished with
    | @matched done found left whole foundBalanced _ _ _ _ =>
      exact absurd ⟨⟨left, whole.symm⟩, foundBalanced⟩ (unmatched found)
    | @extraRightBrace done foundBefore foundRest foundBrace whole foundEnds foundBalanced _ lane
        words =>
        rw [whole] at split_
        have size : foundBefore.length = before.length := by
          apply Nat.le_antisymm
          · exact extraRightBrace_le ends balanced foundBalanced split_.symm
          · exact extraRightBrace_le foundEnds foundBalanced balanced split_
        obtain ⟨rfl, same⟩ := List.append_inj split_ size
        cases same
        exact ⟨done, ran, lane, words⟩
    | inputEnded reached _ =>
      rw [split_, braceDepth_extraRightBrace ends balanced] at reached
      cases reached
  · intro depth reached unmatched
    cases finished with
    | @matched done found left whole foundBalanced _ _ _ _ =>
      exact absurd ⟨⟨left, whole.symm⟩, foundBalanced⟩ (unmatched found)
    | extraRightBrace whole ends balanced _ _ _ =>
      rw [whole, braceDepth_extraRightBrace ends balanced] at reached
      cases reached
    | @inputEnded done _ _ _ => exact ⟨done, ran⟩
  intro count word proper mismatch
  exact delimiterOverlap_texBackUp table covered proper mismatch

/-- A macro with the parameter text `#1aab`, whose delimiter overlaps itself. -/
def overlappingPlan : MacroPlan :=
  { delimiter := [.character 97 .letter, .character 97 .letter, .character 98 .letter]
    long := true
    paragraphToken := none
    recoveryPar := .controlSequence 0
    outer := fun _ => false }

theorem overlappingPlan_isDelimiter : IsDelimiter overlappingPlan.delimiter where
  nonempty := by decide
  noRightBrace := by decide
  leftBraceLast := by decide

theorem scanDelimitedArgument_shortest_overlapping :
    ∃ done, scanDelimitedArgument overlappingPlan [⟨2, true, false⟩] []
        [.character 97 .letter, .character 97 .letter, .character 97 .letter,
          .character 98 .letter, .controlSequence 7] = .ok (.matched done [.controlSequence 7]) ∧
        done.macroWords = [] ++ [.character 97 .letter] ∧
        (OneGroup [.character 97 .letter] → done.matchWords = .ok []) ∧
        (¬ OneGroup [.character 97 .letter] → done.matchWords = .ok [.character 97 .letter]) := by
  refine (scanDelimitedArgument_shortest overlappingPlan_isDelimiter rfl [⟨2, true, false⟩] []
    _).1 [.character 97 .letter] [.controlSequence 7] rfl rfl ?_
  rintro shorter ⟨⟨rest, split_⟩, _⟩
  cases shorter with
  | nil => simp [overlappingPlan] at split_
  | cons word shorter => exact Nat.succ_le_succ (Nat.zero_le _)

end Umber.Command
