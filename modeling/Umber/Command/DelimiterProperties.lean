import Umber.Command.ArgumentProperties
import Umber.Command.MacroArgument

/-! Delimited arguments are the shortest balanced words before the delimiter, however
the words are delivered. -/

set_option autoImplicit false

namespace Umber.Command

open Overlap ArgumentRunAdmission

structure IsDelimiter (delimiter : List TokenWord) : Prop where
  nonempty : delimiter ≠ []
  noRightBrace : ∀ word ∈ delimiter, word.isEndGroup = false
  leftBraceLast : ∀ word ∈ delimiter.dropLast, word.isBeginGroup = false

def Delimits (delimiter argument stream : List TokenWord) : Prop :=
  argument ++ delimiter <+: stream ∧ Balanced argument

namespace IsDelimiter

variable {delimiter : List TokenWord} (isDelimiter : IsDelimiter delimiter)
include isDelimiter

theorem length_pos : 0 < delimiter.length :=
  List.length_pos_iff.mpr isDelimiter.nonempty

theorem plain_dropLast :
    ∀ word ∈ delimiter.dropLast, word.isBeginGroup ≠ true ∧ word.isEndGroup ≠ true := by
  intro word member
  refine ⟨Bool.eq_false_iff.mp (isDelimiter.leftBraceLast word member), ?_⟩
  exact Bool.eq_false_iff.mp (isDelimiter.noRightBrace word ((List.dropLast_sublist delimiter).subset member))

/-- A proper start of the delimiter has no braces. -/
theorem plain_take {count : Nat} (proper : count < delimiter.length) :
    ∀ word ∈ delimiter.take count, word.isBeginGroup ≠ true ∧ word.isEndGroup ≠ true := by
  intro word member
  apply isDelimiter.plain_dropLast
  rw [List.dropLast_eq_take]
  have shorter : delimiter.take count = (delimiter.take (delimiter.length - 1)).take count := by
    rw [List.take_take, Nat.min_eq_left (Nat.le_sub_one_of_lt proper)]
  rw [shorter] at member
  exact List.mem_of_mem_take member

end IsDelimiter

structure Progress (delimiter consumed : List TokenWord) (depth count : Nat) : Prop where
  reached : braceDepth 0 consumed = some depth
  proper : count < delimiter.length
  inside : depth ≠ 0 → count = 0
  longest : depth = 0 → Longest delimiter consumed (delimiter.length - 1) count
  unmatched : ∀ argument, ¬ Delimits delimiter argument consumed

namespace Progress

variable {delimiter consumed : List TokenWord} {depth count : Nat} {word : TokenWord}

theorem start (isDelimiter : IsDelimiter delimiter) : Progress delimiter [] 0 0 where
  reached := rfl
  proper := isDelimiter.length_pos
  inside := fun _ => rfl
  longest := by
    intro _
    refine ⟨overlaps_zero _ _, Nat.zero_le _, ?_⟩
    intro other fits overlaps
    have empty := List.suffix_nil.mp overlaps.2
    have size := congrArg List.length empty
    rw [List.length_take, List.length_nil, Nat.min_eq_left overlaps.1] at size
    exact Nat.le_of_eq size
  unmatched := by
    rintro argument ⟨isPrefix, _⟩
    have empty := List.prefix_nil.mp isPrefix
    exact isDelimiter.nonempty (List.append_eq_nil_iff.mp empty).2

/-- The delimiter is complete exactly when its last word comes behind all others. -/
theorem unmatched_concat (isDelimiter : IsDelimiter delimiter)
    (progress : Progress delimiter consumed depth count)
    (incomplete : depth = 0 → count + 1 = delimiter.length → delimiter[count]? ≠ some word) :
    ∀ argument, ¬ Delimits delimiter argument (consumed ++ [word]) := by
  rintro argument ⟨isPrefix, balanced⟩
  rcases List.prefix_concat_iff.mp isPrefix with whole | earlier
  · obtain ⟨init, last, snoc⟩ := (List.eq_nil_or_concat delimiter).resolve_left isDelimiter.nonempty
    rw [List.concat_eq_append] at snoc
    have init_eq : delimiter.dropLast = init := by rw [snoc, List.dropLast_concat]
    have size : init.length + 1 = delimiter.length := by
      rw [snoc, List.length_append, List.length_singleton]
    rw [snoc, ← List.append_assoc] at whole
    obtain ⟨same, lastSame⟩ := List.append_inj' whole rfl
    have zero : depth = 0 := by
      have reached := progress.reached
      unfold Balanced at balanced
      rw [← same, braceDepth_append, balanced, Option.bind_some,
        braceDepth_of_plain 0 (init_eq ▸ isDelimiter.plain_dropLast)] at reached
      exact (Option.some.inj reached).symm
    have overlaps : Overlaps delimiter consumed init.length := by
      refine ⟨by omega, ?_⟩
      rw [snoc, List.take_left]
      exact ⟨argument, same⟩
    have reached : init.length ≤ count :=
      (progress.longest zero).longest init.length (by omega) overlaps
    have proper := progress.proper
    have exact_ : count = init.length := by omega
    refine incomplete zero (by omega) ?_
    rw [exact_, snoc, List.getElem?_append_right (Nat.le_refl _), Nat.sub_self]
    exact congrArg some (List.singleton_inj.mp lastSame)
  · exact progress.unmatched argument ⟨earlier, balanced⟩

theorem hold (isDelimiter : IsDelimiter delimiter)
    (progress : Progress delimiter consumed depth count) (zero : depth = 0)
    (next : delimiter[count]? = some word) (more : count + 1 < delimiter.length) :
    Progress delimiter (consumed ++ [word]) 0 (count + 1) := by
  obtain ⟨inside, same⟩ := List.getElem?_eq_some_iff.mp next
  have longest := progress.longest zero
  have plain : word.isBeginGroup ≠ true ∧ word.isEndGroup ≠ true := by
    apply isDelimiter.plain_take more
    rw [List.take_succ_eq_append_getElem inside, same]
    exact List.mem_append_right _ List.mem_cons_self
  refine ⟨?_, more, fun positive => absurd rfl positive, ?_, ?_⟩
  · rw [braceDepth_concat word progress.reached, zero]
    exact stepDepth_plain 0 plain.1 plain.2
  · intro _
    refine ⟨overlaps_concat.mpr ⟨longest.overlaps, next⟩, by omega, ?_⟩
    intro other fits overlaps
    cases other with
    | zero => exact Nat.zero_le _
    | succ other =>
      exact Nat.succ_le_succ (longest.longest other (by omega) (overlaps_concat.mp overlaps).1)
  · exact progress.unmatched_concat isDelimiter fun _ complete => absurd complete (by omega)

/-- After a word that does not go on, the table leads to the longest overlap. -/
theorem longest_concat (progress : Progress delimiter consumed depth count) (zero : depth = 0)
    {retained : Nat} (found : Longest delimiter (delimiter.take count ++ [word]) (count + 1) retained)
    (fits : retained ≤ delimiter.length - 1) :
    Longest delimiter (consumed ++ [word]) (delimiter.length - 1) retained := by
  have longest := progress.longest zero
  refine ⟨⟨found.overlaps.1, ?_⟩, fits, ?_⟩
  · refine found.overlaps.2.trans ?_
    obtain ⟨start, equal⟩ := longest.overlaps.2
    exact ⟨start, by rw [← List.append_assoc, equal]⟩
  intro other bound overlaps
  cases other with
  | zero => exact Nat.zero_le _
  | succ other => ?_
  obtain ⟨shorter, next⟩ := overlaps_concat.mp overlaps
  have within : other ≤ count := longest.longest other (by omega) shorter
  have inner := shorter.nested longest.overlaps within
  exact found.longest (other + 1) (by omega) (overlaps_concat.mpr ⟨inner, next⟩)

/-- A shorter start of the delimiter stays held back. -/
theorem retain (isDelimiter : IsDelimiter delimiter)
    (progress : Progress delimiter consumed depth count) (zero : depth = 0)
    (mismatch : delimiter[count]? ≠ some word) {retained : Nat}
    (found : Longest delimiter (delimiter.take count ++ [word]) (count + 1) retained)
    (some_ : retained ≠ 0) (bound : retained ≤ count) :
    Progress delimiter (consumed ++ [word]) 0 retained := by
  have proper := progress.proper
  have plain : word.isBeginGroup ≠ true ∧ word.isEndGroup ≠ true := by
    have overlaps := found.overlaps
    obtain ⟨shorter, rfl⟩ : ∃ shorter, retained = shorter + 1 :=
      ⟨retained - 1, by omega⟩
    obtain ⟨_, next⟩ := overlaps_concat.mp overlaps
    obtain ⟨inside, same⟩ := List.getElem?_eq_some_iff.mp next
    apply isDelimiter.plain_take (Nat.lt_of_le_of_lt bound proper)
    rw [List.take_succ_eq_append_getElem inside, same]
    exact List.mem_append_right _ List.mem_cons_self
  refine ⟨?_, by omega, fun positive => absurd rfl positive, ?_, ?_⟩
  · rw [braceDepth_concat word progress.reached, zero]
    exact stepDepth_plain 0 plain.1 plain.2
  · exact fun _ => progress.longest_concat zero found (by omega)
  · exact progress.unmatched_concat isDelimiter fun _ _ => mismatch

theorem ordinary (isDelimiter : IsDelimiter delimiter)
    (progress : Progress delimiter consumed depth count)
    (mismatch : depth = 0 → delimiter[count]? ≠ some word)
    (none_ : depth = 0 → Longest delimiter (consumed ++ [word]) (delimiter.length - 1) 0)
    {after : Nat} (stepped : stepDepth depth word = some after) :
    Progress delimiter (consumed ++ [word]) after 0 := by
  refine ⟨?_, isDelimiter.length_pos, fun _ => rfl, ?_, ?_⟩
  · rw [braceDepth_concat word progress.reached, stepped]
  · intro zero
    by_cases outside : depth = 0
    · exact none_ outside
    have ends : word.isEndGroup = true := by
      cases ends : word.isEndGroup with
      | true => rfl
      | false => ?_
      subst zero
      unfold stepDepth at stepped
      rw [ends] at stepped
      split at stepped
      · cases stepped
      · exact absurd (Option.some.inj stepped) outside
    refine ⟨overlaps_zero _ _, Nat.zero_le _, ?_⟩
    intro other fits overlaps
    cases other with
    | zero => exact Nat.le_refl 0
    | succ other => ?_
    have next := (overlaps_concat.mp overlaps).2
    have noEnd := isDelimiter.noRightBrace word (List.mem_of_getElem? next)
    rw [ends] at noEnd
    cases noEnd
  · exact progress.unmatched_concat isDelimiter fun outside _ => mismatch outside

/-- With nothing held back, a word other than the first of the delimiter matches
nothing. -/
theorem none_of_mismatch (progress : Progress delimiter consumed depth 0)
    (mismatch : depth = 0 → delimiter[0]? ≠ some word) (zero : depth = 0) :
    Longest delimiter (consumed ++ [word]) (delimiter.length - 1) 0 := by
  refine ⟨overlaps_zero _ _, Nat.zero_le _, ?_⟩
  intro other fits overlaps
  cases other with
  | zero => exact Nat.le_refl 0
  | succ other => ?_
  obtain ⟨shorter, next⟩ := overlaps_concat.mp overlaps
  have none_ := (progress.longest zero).longest other (by omega) shorter
  cases Nat.le_zero.mp none_
  exact absurd next (mismatch zero)

end Progress

/-- A match in progress: the lane holds the words consumed so far, the last of them held
back as the start of the delimiter. -/
structure Matching (delimiter base consumed : List TokenWord) (scratch : ArgumentScratch)
    (visible : List TokenWord) (count : Nat) : Prop where
  holds : Holds scratch base visible (delimiter.take count)
  words : consumed = visible ++ delimiter.take count
  progress : Progress delimiter consumed scratch.depth count

namespace Matching

variable {plan : MacroPlan} {base consumed visible : List TokenWord} {scratch : ArgumentScratch}
  {count : Nat}

theorem start (isDelimiter : IsDelimiter plan.delimiter) (base : List TokenWord) :
    Matching plan.delimiter base [] (.beginArgumentWriter base) [] 0 :=
  ⟨.begin_ base, rfl, .start isDelimiter⟩

theorem length_held (matching : Matching plan.delimiter base consumed scratch visible count) :
    (plan.delimiter.take count).length = count := by
  rw [List.length_take, Nat.min_eq_left (Nat.le_of_lt matching.progress.proper)]

theorem prefixLen (matching : Matching plan.delimiter base consumed scratch visible count) :
    scratch.delimiterPrefixLen = count :=
  matching.holds.holdbackLen.trans matching.length_held

/-- A lane whose visible part and cursor are known, at the depth of the progress. -/
theorem of_holds {delimiter : List TokenWord} {depth : Nat} (isDelimiter : IsDelimiter delimiter)
    (holds : Holds scratch base visible (delimiter.take count))
    (words : consumed = visible ++ delimiter.take count)
    (progress : Progress delimiter consumed depth count) :
    Matching delimiter base consumed scratch visible count := by
  have same : depth = scratch.depth := by
    have reached := progress.reached
    rw [words, braceDepth_append, holds.cursor.depth, Option.bind_some,
      braceDepth_of_plain _ (isDelimiter.plain_take progress.proper)] at reached
    exact (Option.some.inj reached).symm
  exact ⟨holds, words, same ▸ progress⟩

end Matching

inductive SettledAs (delimiter base consumed : List TokenWord) (word : TokenWord) :
    Settled → Prop where
  | more {next : ArgumentScratch} {visible : List TokenWord} {count : Nat} :
      Matching delimiter base (consumed ++ [word]) next visible count →
      SettledAs delimiter base consumed word (.more next)
  | matched {done : ArgumentScratch} {argument : List TokenWord} :
      consumed ++ [word] = argument ++ delimiter → Balanced argument →
      done.macroWords = base ++ argument →
      (OneGroup argument → done.matchWords = .ok argument.tail.dropLast) →
      (¬ OneGroup argument → done.matchWords = .ok argument) →
      SettledAs delimiter base consumed word (.matched done)
  | extraRightBrace {done : ArgumentScratch} :
      word.isEndGroup = true → Balanced consumed → done.macroWords = base ++ consumed →
      done.matchWords = .ok consumed →
      SettledAs delimiter base consumed word (.extraRightBrace done)

section Settle

variable {plan : MacroPlan} {base consumed visible : List TokenWord} {scratch : ArgumentScratch}
  {count : Nat} {word : TokenWord} {failure : List Nat}

theorem settleOrdinary_spec (isDelimiter : IsDelimiter plan.delimiter) (long : plan.long = true)
    {depth : Nat} (holds : Holds scratch base consumed [])
    (progress : Progress plan.delimiter consumed depth count)
    (mismatch : depth = 0 → plan.delimiter[count]? ≠ some word)
    (none_ : depth = 0 → Longest plan.delimiter (consumed ++ [word])
      (plan.delimiter.length - 1) 0) : ∃ settled, settleOrdinary plan scratch word = .ok settled ∧
      SettledAs plan.delimiter base consumed word settled := by
  have same : depth = scratch.depth := by
    have reached := progress.reached
    rw [holds.cursor.depth] at reached
    exact (Option.some.inj reached).symm
  subst same
  unfold settleOrdinary
  by_cases extra : scratch.depth = 0 ∧ word.isEndGroup = true
  · rw [if_pos extra]
    refine ⟨_, rfl, .extraRightBrace extra.2 ?_ ?_ holds.matchWords⟩
    · unfold Balanced
      rw [progress.reached, extra.1]
    · rw [holds.lane, List.append_nil]
  rw [if_neg extra, if_neg (by rw [long]; exact fun both => nomatch both.2)]
  have allowed : scratch.depth ≠ 0 ∨ word.isEndGroup = false := by
    by_cases zero : scratch.depth = 0
    · exact .inr (Bool.eq_false_iff.mpr fun ends => extra ⟨zero, ends⟩)
    · exact .inl zero
  obtain ⟨appended, ran, appendedHolds⟩ :=
    holds.appendHotDelivery (decide (some word = plan.paragraphToken)) allowed
  rw [ran]
  have stepped : stepDepth scratch.depth word = some appended.depth :=
    (braceDepth_concat word progress.reached).symm.trans appendedHolds.cursor.depth
  have moved := progress.ordinary isDelimiter mismatch none_ stepped
  refine ⟨_, rfl, @SettledAs.more _ _ _ _ _ (consumed ++ [word]) 0 ⟨?_, ?_, moved⟩⟩
  · rw [List.take_zero]
    exact appendedHolds
  · rw [List.take_zero, List.append_nil]

/-- The table leads to the longest start of the delimiter that ends with the word. -/
theorem delimiterOverlap_spec {delimiter : List TokenWord} (table : Table delimiter failure)
    (covered : failure.length = delimiter.length) (proper : count < delimiter.length)
    (mismatch : delimiter[count]? ≠ some word) :
    ∃ retained, delimiterOverlap delimiter failure count word = .ok retained ∧
      retained ≤ count ∧ Longest delimiter (delimiter.take count ++ [word]) (count + 1) retained := by
  have whole : Overlaps delimiter (delimiter.take count) count :=
    ⟨Nat.le_of_lt proper, List.suffix_refl _⟩
  obtain ⟨matched, fell, found⟩ := fallBack_advance_spec table word proper (by omega) whole
  have bound : advance delimiter word matched ≤ count := by
    rcases Nat.lt_or_eq_of_le found.within with less | equal
    · exact Nat.le_of_lt_succ less
    have overlaps := found.overlaps
    rw [equal] at overlaps
    exact absurd (overlaps_concat.mp overlaps).2 mismatch
  refine ⟨_, ?_, bound, found⟩
  unfold delimiterOverlap
  rw [fell]
  exact congrArg Except.ok (Nat.min_eq_left (Nat.le_trans bound (Nat.le_sub_one_of_lt proper)))

theorem settleFailedPrefix_spec (isDelimiter : IsDelimiter plan.delimiter)
    (long : plan.long = true) (table : Table plan.delimiter failure)
    (covered : failure.length = plan.delimiter.length)
    (matching : Matching plan.delimiter base consumed scratch visible count)
    (held : count ≠ 0) (mismatch : plan.delimiter[count]? ≠ some word) :
    ∃ settled, settleFailedPrefix plan failure scratch word = .ok settled ∧
      SettledAs plan.delimiter base consumed word settled := by
  have progress := matching.progress
  have proper := progress.proper
  have length := matching.length_held
  have zero : scratch.depth = 0 := by
    cases depth : scratch.depth with
    | zero => rfl
    | succ depth => exact absurd (progress.inside (by rw [depth]; simp)) held
  obtain ⟨retained, overlap, bound, found⟩ := delimiterOverlap_spec table covered proper mismatch
  unfold settleFailedPrefix
  dsimp only
  rw [matching.prefixLen, overlap]
  dsimp only
  have nonempty : plan.delimiter.take count ≠ [] := by
    intro empty
    rw [empty] at length
    exact held length.symm
  have plainHeld := isDelimiter.plain_take proper
  by_cases none_ : retained = 0
  · -- nothing is retained: every held word is revealed, and the word is ordinary
    subst none_
    rw [if_pos rfl]
    obtain ⟨revealed, ran, revealedHolds⟩ := matching.holds.reveal nonempty
      (Nat.le_of_eq length.symm)
      (by rw [List.take_of_length_le (Nat.le_of_eq length)]; exact braceDepth_of_plain _ plainHeld)
    rw [List.take_of_length_le (Nat.le_of_eq length),
      List.drop_of_length_le (Nat.le_of_eq length), ← matching.words] at revealedHolds
    rw [ran]
    dsimp only
    rw [if_neg (fun positive => positive rfl)]
    exact settleOrdinary_spec isDelimiter long revealedHolds progress (fun _ => mismatch)
      (fun outside => progress.longest_concat outside found (Nat.zero_le _))
  rw [if_neg none_]
  have fits : count + 1 - retained ≤ (plan.delimiter.take count).length := by omega
  obtain ⟨revealed, ran, revealedHolds⟩ := matching.holds.reveal nonempty fits
    (braceDepth_of_plain scratch.depth fun other member =>
      plainHeld other (List.mem_of_mem_take member))
  rw [ran]
  dsimp only
  rw [if_pos none_]
  have kept : (plan.delimiter.take count).drop (count + 1 - retained) ++ [word] =
      plan.delimiter.take retained := by
    have suffix := found.overlaps.2
    have size : (plan.delimiter.take retained).length = retained := by
      rw [List.length_take, Nat.min_eq_left (by omega)]
    rw [List.suffix_iff_eq_drop] at suffix
    rw [suffix, List.length_append, List.length_singleton, size, length,
      List.drop_append_of_le_length (by omega)]
  have appended := revealedHolds.appendDelimiterWord word
  rw [kept] at appended
  have words : consumed ++ [word] =
      (visible ++ (plan.delimiter.take count).take (count + 1 - retained)) ++
        plan.delimiter.take retained := by
    rw [matching.words, ← kept, List.append_assoc, List.append_assoc, ← List.append_assoc
      ((plan.delimiter.take count).take _), List.take_append_drop]
  exact ⟨_, rfl, .more (Matching.of_holds isDelimiter appended words
    (progress.retain isDelimiter zero mismatch found none_ bound))⟩

theorem settleComplete_spec (matching : Matching plan.delimiter base consumed scratch visible count)
    (zero : scratch.depth = 0) (next : plan.delimiter[count]? = some word)
    (complete : count + 1 = plan.delimiter.length) :
    ∃ settled, settleComplete (scratch.appendDelimiterWord word) = .ok settled ∧
      SettledAs plan.delimiter base consumed word settled := by
  obtain ⟨inside, same⟩ := List.getElem?_eq_some_iff.mp next
  have whole : plan.delimiter.take count ++ [word] = plan.delimiter := by
    rw [← same, ← List.take_succ_eq_append_getElem inside, complete, List.take_length]
  have held := matching.holds.appendDelimiterWord word
  have balanced : braceDepth 0 visible = some 0 := by
    rw [matching.holds.cursor.depth]
    exact congrArg some zero
  obtain ⟨truncated, cut, truncatedHolds⟩ := held.truncate (by simp)
  obtain ⟨stripped, ran, lane, grouped, ungrouped⟩ := truncatedHolds.strip balanced
  unfold settleComplete
  rw [cut]
  dsimp only
  rw [ran]
  refine ⟨_, rfl, .matched ?_ balanced lane grouped ungrouped⟩
  rw [matching.words, List.append_assoc, whole]

theorem settleDelivery_spec (isDelimiter : IsDelimiter plan.delimiter) (long : plan.long = true)
    (table : Table plan.delimiter failure) (covered : failure.length = plan.delimiter.length)
    (matching : Matching plan.delimiter base consumed scratch visible count) (word : TokenWord) :
    ∃ settled, settleDelivery plan failure scratch word = .ok settled ∧
      SettledAs plan.delimiter base consumed word settled := by
  unfold settleDelivery
  dsimp only
  rw [matching.prefixLen]
  by_cases extends_ : scratch.depth = 0 ∧ plan.delimiter[count]? = some word
  · obtain ⟨zero, next⟩ := extends_
    have held := matching.holds.appendDelimiterWord word
    have size : (scratch.appendDelimiterWord word).delimiterPrefixLen = count + 1 := by
      show scratch.writer.holdbackLen + 1 = count + 1
      rw [← matching.prefixLen]
      rfl
    rw [if_pos ⟨zero, next⟩, size]
    by_cases complete : count + 1 = plan.delimiter.length
    · rw [if_pos complete]
      exact settleComplete_spec matching zero next complete
    rw [if_neg complete]
    have more : count + 1 < plan.delimiter.length :=
      Nat.lt_of_le_of_ne matching.progress.proper complete
    obtain ⟨inside, same⟩ := List.getElem?_eq_some_iff.mp next
    have grown : plan.delimiter.take count ++ [word] = plan.delimiter.take (count + 1) := by
      rw [List.take_succ_eq_append_getElem inside, same]
    rw [grown] at held
    refine ⟨_, rfl, .more (Matching.of_holds isDelimiter held ?_
      (matching.progress.hold isDelimiter zero next more))⟩
    rw [← grown, ← List.append_assoc, ← matching.words]
  rw [if_neg extends_]
  have mismatch : scratch.depth = 0 → plan.delimiter[count]? ≠ some word :=
    fun zero next => extends_ ⟨zero, next⟩
  by_cases held : count = 0
  · subst held
    rw [if_neg (fun positive => positive rfl)]
    have holds := matching.holds
    have words := matching.words
    rw [List.take_zero] at holds words
    rw [List.append_nil] at words
    subst words
    exact settleOrdinary_spec isDelimiter long holds matching.progress mismatch
      (matching.progress.none_of_mismatch mismatch)
  rw [if_pos held]
  have zero : scratch.depth = 0 := by
    cases depth : scratch.depth with
    | zero => rfl
    | succ depth => exact absurd (matching.progress.inside (by rw [depth]; simp)) held
  exact settleFailedPrefix_spec isDelimiter long table covered matching held (mismatch zero)

end Settle

section Run

variable {plan : MacroPlan} {base consumed visible : List TokenWord} {scratch : ArgumentScratch}

/-- An admitted word is neither the first of the delimiter at depth zero nor a right brace
there, and the admission keeps count of the depth. -/
theorem admits_spec {admission next : ArgumentRunAdmission} {word : TokenWord}
    (floor : admission.closeFloor = 0) (delimited : admission.completesUndelimited = false)
    (admitted : admission.admits word = (true, next)) :
    (admission.depth = 0 → some word ≠ admission.stopWord) ∧
      stepDepth admission.depth word = some next.depth ∧ next.closeFloor = 0 ∧
      next.completesUndelimited = false ∧ next.stopWord = admission.stopWord := by
  unfold admits at admitted
  split at admitted
  next => cases admitted
  rename_i open_
  have unstopped : admission.depth = 0 → some word ≠ admission.stopWord :=
    fun zero same => open_ (.inr ⟨zero, same⟩)
  split at admitted
  next begins =>
    cases admitted
    exact ⟨unstopped, stepDepth_begin _ begins.1, floor, delimited, rfl⟩
  split at admitted
  next ends =>
    have positive : admission.depth ≠ 0 := by
      rcases ends.2.2 with above | ⟨completes, _⟩
      · omega
      rw [delimited] at completes
      cases completes
    unfold close at admitted
    cases admitted
    refine ⟨unstopped, ?_, floor, delimited, rfl⟩
    rw [stepDepth_end _ ends.1, if_neg positive]
  unfold close at admitted
  obtain ⟨plain, rfl⟩ := Prod.mk.inj admitted
  refine ⟨unstopped, ?_, floor, delimited, rfl⟩
  have braceless : word.isBeginGroup ≠ true ∧ word.isEndGroup ≠ true := by
    unfold admitsPlain at plain
    unfold TokenWord.isBeginGroup TokenWord.isEndGroup
    constructor
    · intro begins
      rw [of_decide_eq_true begins] at plain
      cases plain
    intro ends
    rw [of_decide_eq_true ends] at plain
    cases plain
  exact stepDepth_plain _ braceless.1 braceless.2

theorem takeWhile_progress {delimiter : List TokenWord} (isDelimiter : IsDelimiter delimiter)
    (words : List TokenWord) {admission : ArgumentRunAdmission}
    (floor : admission.closeFloor = 0) (delimited : admission.completesUndelimited = false)
    (stop : admission.stopWord = delimiter.head?) {consumed : List TokenWord}
    (progress : Progress delimiter consumed admission.depth 0) :
    ∃ depth, braceDepth admission.depth (admission.takeWhile words) = some depth ∧
      Progress delimiter (consumed ++ admission.takeWhile words) depth 0 := by
  induction words generalizing admission consumed with
  | nil =>
    refine ⟨admission.depth, rfl, ?_⟩
    unfold takeWhile
    rw [List.append_nil]
    exact progress
  | cons word rest ih => ?_
  unfold takeWhile
  cases admitted : admission.admits word with
  | mk taken next => ?_
  cases taken with
  | false =>
    refine ⟨admission.depth, rfl, ?_⟩
    rw [List.append_nil]
    exact progress
  | true => ?_
  obtain ⟨unstopped, stepped, floorNext, delimitedNext, stopNext⟩ :=
    admits_spec floor delimited admitted
  have mismatch : admission.depth = 0 → delimiter[0]? ≠ some word := by
    intro zero same
    apply unstopped zero
    rw [stop, List.head?_eq_getElem?, same]
  have moved := progress.ordinary isDelimiter mismatch
    (progress.none_of_mismatch mismatch) stepped
  obtain ⟨depth, reached, final⟩ :=
    ih floorNext delimitedNext (stopNext.trans stop) moved
  refine ⟨depth, ?_, ?_⟩
  · unfold braceDepth
    rw [stepped]
    exact reached
  rw [List.append_assoc] at final
  exact final

/-- A run takes words from the front of the stream. -/
theorem takeWhile_front (words : List TokenWord) (admission : ArgumentRunAdmission) :
    admission.takeWhile words <+: words := by
  induction words generalizing admission with
  | nil => exact List.prefix_refl _
  | cons word rest ih => ?_
  unfold takeWhile
  cases admission.admits word with
  | mk taken next => ?_
  cases taken with
  | false => exact List.nil_prefix
  | true => exact List.cons_prefix_cons.mpr ⟨rfl, ih next⟩

theorem consumeArgumentRun_spec (isDelimiter : IsDelimiter plan.delimiter)
    (window : ResidentWindow) (stream : List TokenWord)
    (matching : Matching plan.delimiter base consumed scratch visible 0) :
    ∃ appended run, consumeArgumentRun plan window scratch stream =
        .ok (appended, stream.drop run.length) ∧ stream = run ++ stream.drop run.length ∧
      Matching plan.delimiter base (consumed ++ run) appended (consumed ++ run) 0 := by
  have holds := matching.holds
  have words := matching.words
  rw [List.take_zero] at holds words
  rw [List.append_nil] at words
  subst words
  obtain ⟨depth, reached, progress⟩ := @takeWhile_progress plan.delimiter isDelimiter
    (stream.take window.length) (delimiterAdmission plan window scratch.depth)
    rfl rfl rfl _ matching.progress
  obtain ⟨appended, ran, appendedHolds⟩ := holds.appendPlainSpan reached
  have front := (takeWhile_front (stream.take window.length)
    (delimiterAdmission plan window scratch.depth)).trans (List.take_prefix _ _)
  refine ⟨appended, (delimiterAdmission plan window scratch.depth).takeWhile
    (stream.take window.length), ?_, ?_, ?_⟩
  · unfold consumeArgumentRun
    dsimp only
    rw [ran]
  · exact (List.prefix_iff_eq_append.mp front).symm
  refine Matching.of_holds isDelimiter ?_ ?_ progress
  · rw [List.take_zero]
    exact appendedHolds
  · rw [List.take_zero, List.append_nil]

end Run

inductive Finished (plan : MacroPlan) (base stream : List TokenWord) : MatchOutcome → Prop where
  | matched {done : ArgumentScratch} {argument rest : List TokenWord} :
      stream = argument ++ plan.delimiter ++ rest → Balanced argument →
      (∀ shorter, Delimits plan.delimiter shorter stream → argument.length ≤ shorter.length) →
      done.macroWords = base ++ argument →
      (OneGroup argument → done.matchWords = .ok argument.tail.dropLast) →
      (¬ OneGroup argument → done.matchWords = .ok argument) →
      Finished plan base stream (.matched done rest)
  | extraRightBrace {done : ArgumentScratch} {before rest : List TokenWord} {brace : TokenWord} :
      stream = before ++ brace :: rest → brace.isEndGroup = true → Balanced before →
      (∀ argument, ¬ Delimits plan.delimiter argument stream) →
      done.macroWords = base ++ before → done.matchWords = .ok before →
      Finished plan base stream (.extraRightBrace done (plan.recoveryPar :: brace :: rest))
  | inputEnded {done : ArgumentScratch} {depth : Nat} :
      braceDepth 0 stream = some depth →
      (∀ argument, ¬ Delimits plan.delimiter argument stream) →
      Finished plan base stream (.inputEnded done)

section Finish

variable {plan : MacroPlan} {base consumed visible : List TokenWord} {failure : List Nat}

/-- A delimiter behind a stray right brace is not at depth zero. -/
theorem not_delimits_of_extraRightBrace {delimiter before rest : List TokenWord}
    {brace : TokenWord} (isDelimiter : IsDelimiter delimiter) (ends : brace.isEndGroup = true)
    (balanced : Balanced before) (unmatched : ∀ argument, ¬ Delimits delimiter argument before) :
    ∀ argument, ¬ Delimits delimiter argument (before ++ brace :: rest) := by
  rintro argument ⟨isPrefix, argumentBalanced⟩
  have front : before ++ [brace] <+: before ++ brace :: rest :=
    ⟨rest, by rw [List.append_assoc]; rfl⟩
  have stray : braceDepth 0 (before ++ [brace]) = none := by
    rw [braceDepth_concat brace balanced, stepDepth_end 0 ends, if_pos rfl]
  rcases Nat.lt_or_ge before.length (argument ++ delimiter).length with longer | shorter
  · have reaches : before ++ [brace] <+: argument ++ delimiter := by
      apply List.prefix_of_prefix_length_le front isPrefix
      rw [List.length_append, List.length_singleton]
      exact longer
    rcases Nat.lt_or_ge before.length argument.length with inside | outside
    · have within : before ++ [brace] <+: argument := by
        apply List.prefix_of_prefix_length_le reaches (List.prefix_append ..)
        rw [List.length_append, List.length_singleton]
        exact inside
      obtain ⟨more, rfl⟩ := within
      unfold Balanced at argumentBalanced
      rw [braceDepth_append, stray] at argumentBalanced
      cases argumentBalanced
    obtain ⟨more, equal⟩ := reaches
    have found : (argument ++ delimiter)[before.length]? = some brace := by
      rw [← equal, List.append_assoc, List.getElem?_append_right (Nat.le_refl _), Nat.sub_self]
      rfl
    rw [List.getElem?_append_right outside] at found
    have noEnd := isDelimiter.noRightBrace brace (List.mem_of_getElem? found)
    rw [ends] at noEnd
    cases noEnd
  have within : argument ++ delimiter <+: before :=
    List.prefix_of_prefix_length_le isPrefix (List.prefix_append ..) shorter
  exact unmatched argument ⟨within, argumentBalanced⟩

variable (isDelimiter : IsDelimiter plan.delimiter)
include isDelimiter

theorem deliverWord_spec (long : plan.long = true)
    (table : Table plan.delimiter failure) (covered : failure.length = plan.delimiter.length)
    {state : MatchState} {count : Nat}
    (matching : Matching plan.delimiter base consumed state.scratch visible count) :
    (∃ outcome, deliverWord plan failure state = .ok (.inl outcome) ∧
      Finished plan base (consumed ++ state.stream) outcome) ∨
    (∃ next taken nextVisible nextCount, deliverWord plan failure state = .ok (.inr next) ∧
      consumed ++ state.stream = taken ++ next.stream ∧
      Matching plan.delimiter base taken next.scratch nextVisible nextCount) := by
  unfold deliverWord
  cases state with
  | mk windows stream scratch => ?_
  cases stream with
  | nil =>
    have all : consumed ++ [] = consumed := List.append_nil consumed
    dsimp only
    rw [all]
    exact .inl ⟨_, rfl, .inputEnded matching.progress.reached matching.progress.unmatched⟩
  | cons word rest => ?_
  obtain ⟨settled, ran, as⟩ :=
    settleDelivery_spec isDelimiter long table covered matching word
  dsimp only
  rw [ran]
  have joined : consumed ++ word :: rest = (consumed ++ [word]) ++ rest := by
    rw [List.append_assoc]
    rfl
  cases as with
  | more nextMatching => exact .inr ⟨_, _, _, _, rfl, joined, nextMatching⟩
  | @matched done argument whole balanced lane grouped ungrouped =>
    refine .inl ⟨_, rfl, .matched ?_ balanced ?_ lane grouped ungrouped⟩
    · rw [joined, whole]
    intro shorter delimits
    -- a shorter argument would have been found among the words consumed before
    apply Nat.le_of_not_lt
    intro less
    apply matching.progress.unmatched shorter
    refine ⟨?_, delimits.2⟩
    apply List.prefix_of_prefix_length_le delimits.1 (List.prefix_append ..)
    have size := congrArg List.length whole
    simp only [List.length_append, List.length_singleton] at size ⊢
    omega
  | extraRightBrace ends balanced lane words => ?_
  refine .inl ⟨_, rfl, .extraRightBrace rfl ends balanced ?_ lane words⟩
  exact not_delimits_of_extraRightBrace isDelimiter ends balanced matching.progress.unmatched

/-- A round finishes the match or goes on with it. -/
theorem matchRound_spec (long : plan.long = true)
    (table : Table plan.delimiter failure) (covered : failure.length = plan.delimiter.length)
    {state : MatchState} {count : Nat}
    (matching : Matching plan.delimiter base consumed state.scratch visible count) :
    (∃ outcome, matchRound plan failure state = .ok (.inl outcome) ∧
      Finished plan base (consumed ++ state.stream) outcome) ∨
    (∃ next taken nextVisible nextCount, matchRound plan failure state = .ok (.inr next) ∧
      consumed ++ state.stream = taken ++ next.stream ∧
      Matching plan.delimiter base taken next.scratch nextVisible nextCount) := by
  unfold matchRound
  cases looks : state.windows with
  | nil => exact deliverWord_spec isDelimiter long table covered matching
  | cons window later => ?_
  dsimp only
  by_cases free : state.scratch.delimiterPrefixLen = 0
  · rw [if_pos free]
    have none_ : count = 0 := matching.prefixLen.symm.trans free
    subst none_
    obtain ⟨appended, run, ran, split_, nextMatching⟩ :=
      consumeArgumentRun_spec isDelimiter window state.stream matching
    have joined : consumed ++ state.stream =
        (consumed ++ run) ++ state.stream.drop run.length := by
      rw [List.append_assoc, ← split_]
    rw [ran]
    dsimp only
    by_cases settles : window.settlesTransition = true
    · rw [if_pos settles]
      exact .inr ⟨_, _, _, _, rfl, joined, nextMatching⟩
    rw [if_neg settles, joined]
    exact @deliverWord_spec _ _ _ _ _ isDelimiter long table covered
      ⟨later, state.stream.drop run.length, appended⟩ _ nextMatching
  rw [if_neg free]
  exact @deliverWord_spec _ _ _ _ _ isDelimiter long table covered
    { state with windows := later } _ matching

/-- Every run of the loop from a match in progress finishes the match. -/
theorem scanLoop_finished (long : plan.long = true)
    (table : Table plan.delimiter failure) (covered : failure.length = plan.delimiter.length)
    (state : MatchState) {consumed visible : List TokenWord} {count : Nat}
    (matching : Matching plan.delimiter base consumed state.scratch visible count) :
    ∃ outcome, scanLoop plan failure state = .ok outcome ∧
      Finished plan base (consumed ++ state.stream) outcome := by
  generalize bound : state.size = size
  induction size using Nat.strongRecOn generalizing state consumed visible count with
  | ind size ih => ?_
  unfold scanLoop
  rcases matchRound_spec isDelimiter long table covered matching with
    ⟨outcome, ran, finished⟩ | ⟨next, taken, nextVisible, nextCount, ran, same, nextMatching⟩
  · rw [ran]
    exact ⟨outcome, rfl, finished⟩
  rw [ran, same]
  exact ih next.size (bound ▸ matchRound_smaller ran) next nextMatching rfl

end Finish

end Umber.Command
