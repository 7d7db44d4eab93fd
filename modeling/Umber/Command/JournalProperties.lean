import Umber.Command.PackedJournal

/-! Sound journals: their marks cut the lane between chunks, and stay cuts while records
are appended, exchanged and released. -/

set_option autoImplicit false

namespace Umber.Command

variable {ρ γ : Type}

def recordsOf (chunks : List (JournalChunk ρ)) : List ρ :=
  chunks.flatMap JournalChunk.values

def keysOf (chunks : List (JournalChunk ρ)) : List ChunkKey :=
  chunks.map JournalChunk.key

@[simp] theorem recordsOf_nil : recordsOf ([] : List (JournalChunk ρ)) = [] := rfl

@[simp] theorem recordsOf_cons (chunk : JournalChunk ρ) (later : List (JournalChunk ρ)) :
    recordsOf (chunk :: later) = chunk.values ++ recordsOf later := rfl

theorem recordsOf_append (before after : List (JournalChunk ρ)) :
    recordsOf (before ++ after) = recordsOf before ++ recordsOf after :=
  List.flatMap_append

theorem recordsOf_reverse (chunks : List (JournalChunk ρ)) :
    (recordsOf chunks.reverse).Perm (recordsOf chunks) :=
  (List.reverse_perm chunks).flatMap_right _

/-! ## Coordinates -/

inductive Spans : Nat → Nat → List (JournalChunk ρ) → Nat → Nat → Prop
  | nil {chunks records : Nat} : Spans chunks records [] chunks records
  | cons {chunks records chunksAfter recordsAfter : Nat} {chunk : JournalChunk ρ}
      {later : List (JournalChunk ρ)} :
      chunk.depth = chunks + 1 → chunk.recordsBefore = records → chunk.values ≠ [] →
        Spans (chunks + 1) (records + chunk.values.length) later chunksAfter recordsAfter →
        Spans chunks records (chunk :: later) chunksAfter recordsAfter

namespace Spans

variable {chunks records middleChunks middleRecords chunksAfter recordsAfter : Nat}
  {before after lane : List (JournalChunk ρ)} {chunk : JournalChunk ρ}

theorem append (first : Spans chunks records before middleChunks middleRecords)
    (second : Spans middleChunks middleRecords after chunksAfter recordsAfter) :
    Spans chunks records (before ++ after) chunksAfter recordsAfter := by
  induction first with
  | nil => exact second
  | cons depth position nonempty _ ih => exact .cons depth position nonempty (ih second)

theorem cut (spans : Spans chunks records (before ++ after) chunksAfter recordsAfter) :
    ∃ middleChunks middleRecords, Spans chunks records before middleChunks middleRecords ∧
      Spans middleChunks middleRecords after chunksAfter recordsAfter := by
  induction before generalizing chunks records with
  | nil => exact ⟨chunks, records, .nil, spans⟩
  | cons chunk before ih => ?_
  cases spans with
  | cons depth position nonempty rest =>
    obtain ⟨middleChunks, middleRecords, first, second⟩ := ih rest
    exact ⟨middleChunks, middleRecords, .cons depth position nonempty first, second⟩

section

variable (spans : Spans chunks records lane chunksAfter recordsAfter)
include spans

theorem chunks_eq : chunksAfter = chunks + lane.length := by
  induction spans with
  | nil => rfl
  | cons _ _ _ _ ih =>
    rw [ih, List.length_cons]
    omega

theorem records_eq : recordsAfter = records + (recordsOf lane).length := by
  induction spans with
  | nil => rfl
  | cons _ _ _ _ ih =>
    rw [ih, recordsOf_cons, List.length_append]
    omega

theorem records_lt (nonempty : lane ≠ []) : records < recordsAfter := by
  cases spans with
  | nil => exact absurd rfl nonempty
  | cons _ _ filled rest => ?_
  have positive := List.length_pos_iff.mpr filled
  have := rest.records_eq
  omega

end

theorem concat (first : Spans chunks records lane middleChunks middleRecords)
    (depth : chunk.depth = middleChunks + 1) (position : chunk.recordsBefore = middleRecords)
    (filled : chunk.values ≠ []) : Spans chunks records (lane ++ [chunk]) (middleChunks + 1)
      (middleRecords + chunk.values.length) :=
  first.append (.cons depth position filled .nil)

/-- The last chunk knows the coordinate behind it. -/
theorem of_concat (spans : Spans chunks records (lane ++ [chunk]) chunksAfter recordsAfter) :
    Spans chunks records lane (chunksAfter - 1) chunk.recordsBefore ∧
      chunk.depth = chunksAfter ∧ 0 < chunksAfter ∧ chunk.values ≠ [] ∧
      recordsAfter = chunk.recordsBefore + chunk.values.length := by
  obtain ⟨middleChunks, middleRecords, first, second⟩ := spans.cut
  cases second with
  | cons depth position nonempty rest => ?_
  subst position
  cases rest with
  | nil => exact ⟨first, depth, Nat.succ_pos _, nonempty, rfl⟩

end Spans

def shapeOf (chunk : JournalChunk ρ) : ChunkKey × Nat × Nat × Nat :=
  (chunk.key, chunk.depth, chunk.recordsBefore, chunk.values.length)

def SameShape (chunks others : List (JournalChunk ρ)) : Prop :=
  chunks.map shapeOf = others.map shapeOf

namespace SameShape

variable {chunks others : List (JournalChunk ρ)}

theorem keys (same : SameShape chunks others) : keysOf chunks = keysOf others := by
  have mapped := congrArg (List.map Prod.fst) same
  rw [List.map_map, List.map_map] at mapped
  exact mapped

theorem spans {first records last recordsAfter : Nat} (same : SameShape chunks others)
    (spans : Spans first records chunks last recordsAfter) :
    Spans first records others last recordsAfter := by
  induction spans generalizing others with
  | nil =>
    cases others with
    | nil => exact .nil
    | cons other others => cases same
  | @cons first records last recordsAfter chunk later depth position filled rest ih => ?_
  cases others with
  | nil => cases same
  | cons other others => ?_
  obtain ⟨shape, shapes⟩ := List.cons.inj same
  unfold shapeOf at shape
  simp only [Prod.mk.injEq] at shape
  obtain ⟨_, sameDepth, samePosition, sameLength⟩ := shape
  have sameRest : Spans (first + 1) (records + other.values.length) others last
      recordsAfter := sameLength ▸ ih shapes
  refine .cons (sameDepth ▸ depth) (samePosition ▸ position) ?_ sameRest
  intro empty
  rw [empty] at sameLength
  exact filled (List.length_eq_zero_iff.mp sameLength)

end SameShape

/-! ## Visiting and releasing -/

namespace PackedJournal

variable {swap : ρ → γ → Option (ρ × γ)} {release : ρ → γ → Option γ}
  {first second swapped : List ρ} {context : γ}

theorem swapReverse_append {after : γ}
    (ran : swapReverse swap (first ++ second) context = some (swapped, after)) :
    ∃ secondSwapped between firstSwapped,
      swapReverse swap second context = some (secondSwapped, between) ∧
      swapReverse swap first between = some (firstSwapped, after) ∧
      swapped = firstSwapped ++ secondSwapped := by
  induction first generalizing swapped after with
  | nil => exact ⟨swapped, after, [], ran, rfl, rfl⟩
  | cons value first ih => ?_
  rw [List.cons_append] at ran
  unfold swapReverse at ran
  cases rest : swapReverse swap (first ++ second) context with
  | none =>
    rw [rest] at ran
    cases ran
  | some result => ?_
  obtain ⟨restSwapped, between⟩ := result
  obtain ⟨secondSwapped, middle, firstSwapped, ranSecond, ranFirst, rfl⟩ := ih rest
  rw [rest] at ran
  dsimp only at ran
  cases one : swap value between with
  | none =>
    rw [one] at ran
    cases ran
  | some last => ?_
  rw [one] at ran
  cases ran
  refine ⟨secondSwapped, middle, last.1 :: firstSwapped, ranSecond, ?_, rfl⟩
  unfold swapReverse
  rw [ranFirst]
  dsimp only
  rw [one]

theorem swapForward_append {after : γ}
    (ran : swapForward swap (first ++ second) context = some (swapped, after)) :
    ∃ firstSwapped between secondSwapped,
      swapForward swap first context = some (firstSwapped, between) ∧
      swapForward swap second between = some (secondSwapped, after) ∧
      swapped = firstSwapped ++ secondSwapped := by
  induction first generalizing context swapped with
  | nil => exact ⟨[], context, swapped, rfl, ran, rfl⟩
  | cons value first ih => ?_
  rw [List.cons_append] at ran
  unfold swapForward at ran
  cases one : swap value context with
  | none =>
    rw [one] at ran
    cases ran
  | some front => ?_
  rw [one] at ran
  dsimp only at ran
  cases rest : swapForward swap (first ++ second) front.2 with
  | none =>
    rw [rest] at ran
    cases ran
  | some result => ?_
  obtain ⟨restSwapped, final⟩ := result
  rw [rest] at ran
  cases ran
  obtain ⟨firstSwapped, between, secondSwapped, ranFirst, ranSecond, split_⟩ := ih rest
  refine ⟨front.1 :: firstSwapped, between, secondSwapped, ?_, ranSecond, ?_⟩
  · unfold swapForward
    rw [one]
    dsimp only
    rw [ranFirst]
  rw [split_]
  rfl

variable {values : List ρ}

theorem swapReverse_length {after : γ}
    (ran : swapReverse swap values context = some (swapped, after)) :
    swapped.length = values.length := by
  induction values generalizing swapped after with
  | nil =>
    cases ran
    rfl
  | cons value values ih => ?_
  unfold swapReverse at ran
  split at ran
  next => cases ran
  rename_i between rest
  split at ran
  next => cases ran
  cases ran
  rw [List.length_cons, List.length_cons, ih rest]

theorem swapForward_length {after : γ}
    (ran : swapForward swap values context = some (swapped, after)) :
    swapped.length = values.length := by
  induction values generalizing context swapped with
  | nil =>
    cases ran
    rfl
  | cons value values ih => ?_
  unfold swapForward at ran
  split at ran
  next => cases ran
  split at ran
  next => cases ran
  next rest =>
    cases ran
    rw [List.length_cons, List.length_cons, ih rest]

/-- Chunks are visited as their records are exchanged. -/
theorem visitReverse_of_swapReverse {chunks : List (JournalChunk ρ)} {after : γ}
    (ran : swapReverse swap (recordsOf chunks) context = some (swapped, after)) :
    ∃ visited, visitReverse swap chunks context = some (visited, after) ∧
      recordsOf visited = swapped ∧ SameShape visited chunks := by
  induction chunks generalizing swapped after with
  | nil =>
    cases ran
    exact ⟨[], rfl, rfl, rfl⟩
  | cons chunk later ih => ?_
  obtain ⟨laterSwapped, between, values, ranLater, ranHere, rfl⟩ := swapReverse_append ran
  obtain ⟨laterVisited, visited, same, shape⟩ := ih ranLater
  refine ⟨{ chunk with values := values } :: laterVisited, ?_, ?_, ?_⟩
  · unfold visitReverse
    rw [visited]
    dsimp only
    rw [ranHere]
  · rw [recordsOf_cons, same]
  unfold SameShape
  rw [List.map_cons, List.map_cons, shape]
  unfold shapeOf
  rw [swapReverse_length ranHere]

theorem visitForward_of_swapForward {chunks : List (JournalChunk ρ)} {after : γ}
    (ran : swapForward swap (recordsOf chunks) context = some (swapped, after)) :
    ∃ visited, visitForward swap chunks context = some (visited, after) ∧
      recordsOf visited = swapped ∧ SameShape visited chunks := by
  induction chunks generalizing context swapped with
  | nil =>
    cases ran
    exact ⟨[], rfl, rfl, rfl⟩
  | cons chunk later ih => ?_
  obtain ⟨values, between, laterSwapped, ranHere, ranLater, rfl⟩ := swapForward_append ran
  obtain ⟨laterVisited, visited, same, shape⟩ := ih ranLater
  refine ⟨{ chunk with values := values } :: laterVisited, ?_, ?_, ?_⟩
  · unfold visitForward
    rw [ranHere]
    dsimp only
    rw [visited]
  · rw [recordsOf_cons, same]
  unfold SameShape
  rw [List.map_cons, List.map_cons, shape]
  unfold shapeOf
  rw [swapForward_length ranHere]

/-- What is owed for the records still to be released, and how one release settles it. -/
def Settles (release : ρ → γ → Option γ) (owed : List ρ → γ → Prop) : Prop :=
  ∀ value later context, owed (value :: later) context →
    ∃ after, release value context = some after ∧ owed later after

variable {owed : List ρ → γ → Prop}

theorem releaseValues_spec (settles : Settles release owed) (values : List ρ) {later : List ρ}
    (due : owed (values ++ later) context) :
    ∃ after, releaseValues release values context = some after ∧ owed later after := by
  induction values generalizing context with
  | nil => exact ⟨context, rfl, due⟩
  | cons value values ih => ?_
  obtain ⟨between, one, rest⟩ := settles _ _ _ due
  obtain ⟨after, ran, left⟩ := ih rest
  refine ⟨after, ?_, left⟩
  unfold releaseValues
  rw [one]
  exact ran

theorem releaseChunks_spec (settles : Settles release owed) (chunks : List (JournalChunk ρ))
    {others : List ChunkKey} {slots : SlotMap Unit} (holds : slots.Holds (keysOf chunks ++ others))
    (due : owed (recordsOf chunks) context) :
    ∃ released after, releaseChunks release chunks slots context = some (released, after) ∧
      released.Holds others ∧ owed [] after := by
  induction chunks generalizing slots context with
  | nil => exact ⟨slots, context, rfl, holds, due⟩
  | cons chunk later ih => ?_
  obtain ⟨between, ranHere, dueLater⟩ := releaseValues_spec settles chunk.values due
  obtain ⟨retired, retiring, holdsLater⟩ := holds.retire
  obtain ⟨released, after, ranLater, left, none_⟩ := ih holdsLater dueLater
  refine ⟨released, after, ?_, left, none_⟩
  unfold releaseChunks
  rw [ranHere]
  dsimp only
  rw [retiring]
  exact ranLater

end PackedJournal

/-! ## Sound journals -/

structure Cuts (baseChunks baseRecords : Nat) (mark : PackedJournalMark)
    (before after lane : List (JournalChunk ρ)) : Prop where
  split : lane = before ++ after
  spans : Spans baseChunks baseRecords before mark.chunks mark.records
  tail : before ≠ [] → mark.tail = before.getLast?.map JournalChunk.key

structure Boundary (journal : PackedJournal ρ) (mark : PackedJournalMark) : Prop where
  cuts : ∃ before after,
    Cuts journal.baseChunks journal.baseRecords mark before after journal.current
  closed : journal.intervalTailOpen = true → mark.chunks < journal.chunks

structure Sound (journal : PackedJournal ρ) : Prop where
  spans : Spans journal.baseChunks journal.baseRecords journal.current journal.chunks
    journal.records
  keys : journal.slots.Holds (keysOf journal.current ++ keysOf journal.detached)
  forked : ∀ fork, journal.fork = some fork → Boundary journal fork.selected ∧
    Spans fork.selected.chunks fork.selected.records journal.detached fork.priorChunks
      fork.priorRecords
  unforked : journal.fork = none → journal.detached = []

namespace PackedJournal

variable {journal : PackedJournal ρ} {mark : PackedJournalMark}
  {before after : List (JournalChunk ρ)}

theorem sound_empty (recordsPerChunk : Nat) :
    Sound (empty recordsPerChunk : PackedJournal ρ) where
  spans := .nil
  keys := by
    intro id
    have vacant : (SlotMap.empty : SlotMap Unit).view id = none := rfl
    show List.count id [] = if ((SlotMap.empty : SlotMap Unit).view id).isSome then 1 else 0
    rw [vacant]
    rfl
  forked := nofun
  unforked := fun _ => rfl

theorem keys_nodup (sound : Sound journal) : (keysOf journal.current).Nodup :=
  (List.nodup_append.mp sound.keys.nodup).1

/-- A mark with nothing before it is at the base, and no other mark is. -/
theorem isBase_iff {lane : List (JournalChunk ρ)}
    (cuts : Cuts journal.baseChunks journal.baseRecords mark before after lane) :
    journal.isBase mark = true ↔ before = [] := by
  unfold isBase
  rw [Bool.and_eq_true, beq_iff_eq, beq_iff_eq]
  constructor
  · rintro ⟨chunks, _⟩
    have count := cuts.spans.chunks_eq
    exact List.length_eq_zero_iff.mp (by omega)
  rintro rfl
  exact ⟨cuts.spans.chunks_eq, cuts.spans.records_eq⟩

theorem cutBehind_concat {lane after : List (JournalChunk ρ)} {chunk : JournalChunk ρ}
    (distinct : (keysOf (lane ++ [chunk] ++ after)).Nodup) :
    cutBehind chunk.key (lane ++ [chunk] ++ after) = (lane ++ [chunk], after) := by
  induction lane with
  | nil =>
    show cutBehind chunk.key (chunk :: after) = ([chunk], after)
    unfold cutBehind
    rw [if_pos rfl]
  | cons first lane ih => ?_
  obtain ⟨fresh, rest⟩ := List.nodup_cons.mp distinct
  have apart : first.key ≠ chunk.key := by
    intro same
    apply fresh
    rw [same]
    exact List.mem_map_of_mem (by simp)
  show cutBehind chunk.key (first :: (lane ++ [chunk] ++ after)) = _
  unfold cutBehind
  rw [if_neg apart, ih rest]
  rfl

theorem cutAt_of_cuts (sound : Sound journal)
    (cuts : Cuts journal.baseChunks journal.baseRecords mark before after journal.current) :
    journal.cutAt mark = (before, after) := by
  unfold cutAt
  by_cases base : before = []
  · rw [if_pos ((isBase_iff cuts).mpr base), base]
    have split_ := cuts.split
    rw [base, List.nil_append] at split_
    rw [split_]
  rw [if_neg (fun isBase => base ((isBase_iff cuts).mp isBase)), cuts.tail base]
  obtain ⟨init, last, rfl⟩ := (List.eq_nil_or_concat before).resolve_left base
  rw [List.concat_eq_append, List.getLast?_concat]
  have distinct := keys_nodup sound
  rw [cuts.split, List.concat_eq_append] at distinct
  rw [cuts.split, List.concat_eq_append]
  exact cutBehind_concat distinct

theorem find?_concat {lane after : List (JournalChunk ρ)} {chunk : JournalChunk ρ}
    (distinct : (keysOf (lane ++ [chunk] ++ after)).Nodup) :
    (lane ++ [chunk] ++ after).find? (fun other => other.key == chunk.key) = some chunk := by
  rw [List.find?_eq_some_iff_append]
  refine ⟨beq_self_eq_true _, lane, after, by rw [List.append_assoc]; rfl, ?_⟩
  intro other member
  unfold keysOf at distinct
  rw [List.map_append, List.map_append] at distinct
  have apart := (List.nodup_append.mp (List.nodup_append.mp distinct).1).2.2 other.key
    (List.mem_map_of_mem member) chunk.key (by simp)
  simpa using apart

/-- The marks a journal accepts are those that cut the current lane. -/
theorem validates_iff (sound : Sound journal) : journal.validates mark = true ↔ ∃ before after,
      Cuts journal.baseChunks journal.baseRecords mark before after journal.current := by
  constructor
  · intro valid
    unfold validates at valid
    split at valid
    next => cases valid
    split at valid
    next base =>
      unfold isBase at base
      rw [Bool.and_eq_true, beq_iff_eq, beq_iff_eq] at base
      exact ⟨[], journal.current, rfl, base.1 ▸ base.2 ▸ .nil, fun some_ => absurd rfl some_⟩
    split at valid
    next => cases valid
    rename_i key tail
    split at valid
    next => cases valid
    rename_i chunk found
    obtain ⟨same, lane, later, split_, _⟩ := List.find?_eq_some_iff_append.mp found
    rw [Bool.and_eq_true, beq_iff_eq, beq_iff_eq] at valid
    have whole : journal.current = (lane ++ [chunk]) ++ later := by
      rw [split_, List.append_assoc]
      rfl
    have spans := sound.spans
    rw [whole] at spans
    obtain ⟨chunks, records, first, _⟩ := spans.cut
    obtain ⟨_, depth, _, _, position⟩ := first.of_concat
    refine ⟨lane ++ [chunk], later, whole, ?_, ?_⟩
    · rw [← valid.1, ← valid.2, depth, ← position]
      exact first
    intro _
    rw [List.getLast?_concat, tail]
    exact congrArg some (beq_iff_eq.mp same).symm
  rintro ⟨before, after, cuts⟩
  have spans := sound.spans
  rw [cuts.split] at spans
  obtain ⟨chunks, records, first, rest⟩ := spans.cut
  have count := first.chunks_eq
  have counted := cuts.spans.chunks_eq
  have position := first.records_eq
  have positioned := cuts.spans.records_eq
  have chunksLater := rest.chunks_eq
  have recordsLater := rest.records_eq
  unfold validates
  rw [if_neg (by omega)]
  by_cases base : before = []
  · rw [if_pos ((isBase_iff cuts).mpr base)]
  rw [if_neg (fun isBase => base ((isBase_iff cuts).mp isBase)), cuts.tail base]
  obtain ⟨init, last, rfl⟩ := (List.eq_nil_or_concat before).resolve_left base
  rw [List.concat_eq_append] at *
  rw [List.getLast?_concat]
  have distinct := keys_nodup sound
  rw [cuts.split] at distinct
  have found := find?_concat distinct
  rw [← cuts.split] at found
  dsimp only [Option.map_some]
  rw [found]
  obtain ⟨_, depth, _, _, end_⟩ := cuts.spans.of_concat
  simp only [depth, end_, beq_self_eq_true, Bool.and_self]

/-! ### Appending -/

theorem appendTail_concat (value : ρ) (lane : List (JournalChunk ρ)) (chunk : JournalChunk ρ) :
    appendTail value (lane ++ [chunk]) =
      lane ++ [{ chunk with values := chunk.values ++ [value] }] := by
  induction lane with
  | nil => rfl
  | cons first lane ih => ?_
  cases lane with
  | nil => rfl
  | cons second lane => ?_
  show first :: appendTail value (second :: lane ++ [chunk]) = _
  rw [ih]
  rfl

/-- A record goes into a chunk of its own or behind the last one of an open interval. -/
theorem append_cases (journal : PackedJournal ρ) (value : ρ) :
    journal.append value =
        { journal with
          slots := journal.slots.insert ()
          current := journal.current ++
            [{ key := journal.slots.nextId
               depth := journal.chunks + 1
               recordsBefore := journal.records
               values := [value] }]
          chunks := journal.chunks + 1
          records := journal.records + 1
          intervalTailOpen := true } ∨
    journal.intervalTailOpen = true ∧ ∃ lane chunk, journal.current = lane ++ [chunk] ∧
      journal.append value =
        { journal with
          current := lane ++ [{ chunk with values := chunk.values ++ [value] }]
          records := journal.records + 1 } := by
  unfold append
  by_cases needs : journal.needsChunk = true
  · left
    dsimp only
    rw [if_pos needs]
    unfold acquireCurrentChunk
    dsimp only
    rw [appendTail_concat]
    rfl
  right
  dsimp only
  rw [if_neg needs]
  unfold needsChunk at needs
  rw [Bool.not_eq_true, Bool.or_eq_false_iff, Bool.not_eq_false'] at needs
  refine ⟨needs.1, ?_⟩
  rcases List.eq_nil_or_concat journal.current with none_ | ⟨lane, chunk, snoc⟩
  · have full := needs.2
    rw [none_] at full
    cases full
  rw [List.concat_eq_append] at snoc
  refine ⟨lane, chunk, snoc, ?_⟩
  rw [snoc, appendTail_concat]

@[simp] theorem append_detached (journal : PackedJournal ρ) (value : ρ) :
    (journal.append value).detached = journal.detached := by
  rcases append_cases journal value with same | ⟨_, _, _, _, same⟩ <;> rw [same]

@[simp] theorem append_fork (journal : PackedJournal ρ) (value : ρ) :
    (journal.append value).fork = journal.fork := by
  rcases append_cases journal value with same | ⟨_, _, _, _, same⟩ <;> rw [same]

@[simp] theorem append_baseRecords (journal : PackedJournal ρ) (value : ρ) :
    (journal.append value).baseRecords = journal.baseRecords := by
  rcases append_cases journal value with same | ⟨_, _, _, _, same⟩ <;> rw [same]

@[simp] theorem append_baseChunks (journal : PackedJournal ρ) (value : ρ) :
    (journal.append value).baseChunks = journal.baseChunks := by
  rcases append_cases journal value with same | ⟨_, _, _, _, same⟩ <;> rw [same]

theorem recordsOf_append_current (journal : PackedJournal ρ) (value : ρ) :
    recordsOf (journal.append value).current = recordsOf journal.current ++ [value] := by
  rcases append_cases journal value with same | ⟨_, lane, chunk, snoc, same⟩
  · rw [same, recordsOf_append]
    rfl
  rw [same, snoc, recordsOf_append, recordsOf_append, List.append_assoc]
  simp

section

variable (sound : Sound journal)
include sound

theorem chunks_le
    (cuts : Cuts journal.baseChunks journal.baseRecords mark before after journal.current) :
    mark.chunks + after.length = journal.chunks ∧
      mark.records + (recordsOf after).length = journal.records := by
  have whole := sound.spans.chunks_eq
  have total := sound.spans.records_eq
  rw [cuts.split, List.length_append] at whole
  rw [cuts.split, recordsOf_append, List.length_append] at total
  have counted := cuts.spans.chunks_eq
  have positioned := cuts.spans.records_eq
  omega

theorem append_cuts
    (cuts : Cuts journal.baseChunks journal.baseRecords mark before after journal.current)
    (closed : journal.intervalTailOpen = true → mark.chunks < journal.chunks) (value : ρ) :
    (∃ later, Cuts journal.baseChunks journal.baseRecords mark before later
      (journal.append value).current) ∧ mark.chunks < (journal.append value).chunks := by
  have count := (chunks_le sound cuts).1
  rcases append_cases journal value with same | ⟨open_, lane, chunk, snoc, same⟩
  · have split_ : ∀ fresh, journal.current ++ [fresh] = before ++ (after ++ [fresh]) := by
      intro fresh
      rw [cuts.split, List.append_assoc]
    rw [same]
    refine ⟨⟨after ++ [_], split_ _, cuts.spans, cuts.tail⟩, ?_⟩
    show mark.chunks < journal.chunks + 1
    omega
  rw [same]
  have inside := closed open_
  refine ⟨?_, inside⟩
  have behind : after ≠ [] := by
    rintro rfl
    rw [List.length_nil] at count
    omega
  obtain ⟨init, last, rfl⟩ := (List.eq_nil_or_concat after).resolve_left behind
  have joined := cuts.split
  rw [snoc, List.concat_eq_append, ← List.append_assoc] at joined
  obtain ⟨rfl, _⟩ := List.append_inj' joined rfl
  exact ⟨init ++ [_], List.append_assoc .., cuts.spans, cuts.tail⟩

theorem append_boundary (boundary : Boundary journal mark) (value : ρ) :
    Boundary (journal.append value) mark := by
  obtain ⟨before, after, cuts⟩ := boundary.cuts
  obtain ⟨⟨later, grown⟩, inside⟩ := append_cuts sound cuts boundary.closed value
  refine ⟨⟨before, later, ?_⟩, fun _ => inside⟩
  rw [append_baseChunks, append_baseRecords]
  exact grown

theorem append_sound (value : ρ) : Sound (journal.append value) := by
  have forked : ∀ fork, journal.fork = some fork →
      Boundary (journal.append value) fork.selected ∧
        Spans fork.selected.chunks fork.selected.records journal.detached fork.priorChunks
          fork.priorRecords :=
    fun fork found => ⟨append_boundary sound (sound.forked fork found).1 value,
      (sound.forked fork found).2⟩
  rcases append_cases journal value with same | ⟨_, lane, chunk, snoc, same⟩
  · rw [same] at forked ⊢
    refine ⟨sound.spans.concat rfl rfl (by simp), ?_, forked, sound.unforked⟩
    refine (sound.keys.insert ()).perm ?_
    unfold keysOf
    rw [List.map_append, List.append_assoc]
    exact List.perm_middle
  rw [same] at forked ⊢
  have spans := sound.spans
  rw [snoc] at spans
  obtain ⟨first, depth, positive, _, position⟩ := spans.of_concat
  refine ⟨?_, ?_, forked, sound.unforked⟩
  · have grown := @first.concat _ _ _ _ _ _ { chunk with values := chunk.values ++ [value] }
      (by rw [depth]; omega) rfl (by simp)
    have chunks : journal.chunks - 1 + 1 = journal.chunks := by omega
    rw [chunks, List.length_append, List.length_singleton, ← Nat.add_assoc, ← position] at grown
    exact grown
  have keys := sound.keys
  rw [snoc] at keys
  unfold keysOf at keys ⊢
  rw [List.map_append] at keys ⊢
  exact keys

end

/-! ### Marks -/

theorem mark_boundary (boundary : Boundary journal mark) : Boundary journal.mark.2 mark :=
  ⟨boundary.cuts, nofun⟩

theorem mark_sound (sound : Sound journal) : Sound journal.mark.2 :=
  ⟨sound.spans, sound.keys,
    fun fork found => ⟨mark_boundary (sound.forked fork found).1, (sound.forked fork found).2⟩,
    sound.unforked⟩

theorem mark_new (sound : Sound journal) : Boundary journal.mark.2 journal.mark.1 :=
  ⟨⟨journal.current, [], (List.append_nil _).symm, sound.spans, fun _ => rfl⟩,
    nofun⟩

/-! ### Nested cuts -/

variable {baseChunks baseRecords : Nat} {otherBefore otherAfter : List (JournalChunk ρ)}
  {other : PackedJournalMark} {lane before after : List (JournalChunk ρ)}

/-- Of two cuts of a lane the one with fewer chunks is inside the other. -/
theorem cuts_nested (cuts : Cuts baseChunks baseRecords mark before after lane)
    (otherCuts : Cuts baseChunks baseRecords other otherBefore otherAfter lane)
    (ordered : other.chunks ≤ mark.chunks) :
    ∃ middle, before = otherBefore ++ middle ∧ otherAfter = middle ++ after ∧
      Spans other.chunks other.records middle mark.chunks mark.records := by
  have count := cuts.spans.chunks_eq
  have otherCount := otherCuts.spans.chunks_eq
  have same := cuts.split.symm.trans otherCuts.split
  obtain ⟨middle, joined, rest⟩ : ∃ middle, before = otherBefore ++ middle ∧
      otherAfter = middle ++ after := by
    rcases List.append_eq_append_iff.mp same with ⟨middle, longer, rest⟩ | found
    · have none_ : middle = [] := by
        have size := congrArg List.length longer
        rw [List.length_append] at size
        exact List.length_eq_zero_iff.mp (by omega)
      subst none_
      exact ⟨[], by rw [longer, List.append_nil, List.append_nil], rest.symm⟩
    · exact found
  refine ⟨middle, joined, rest, ?_⟩
  have spans := cuts.spans
  rw [joined] at spans
  obtain ⟨chunks, records, first, second⟩ := spans.cut
  have chunksSame := first.chunks_eq.trans otherCuts.spans.chunks_eq.symm
  have recordsSame := first.records_eq.trans otherCuts.spans.records_eq.symm
  rw [chunksSame, recordsSame] at second
  exact second

/-- The lane up to a cut is cut by the earlier marks. -/
theorem cuts_front (cuts : Cuts baseChunks baseRecords mark before after lane)
    (otherCuts : Cuts baseChunks baseRecords other otherBefore otherAfter lane)
    (ordered : other.chunks ≤ mark.chunks) :
    ∃ middle, Cuts baseChunks baseRecords other otherBefore middle before := by
  obtain ⟨middle, joined, _, _⟩ := cuts_nested cuts otherCuts ordered
  exact ⟨middle, joined, otherCuts.spans, otherCuts.tail⟩

/-- The lane behind a cut is cut by the later marks. -/
theorem cuts_back (cuts : Cuts baseChunks baseRecords mark before after lane)
    (otherCuts : Cuts baseChunks baseRecords other otherBefore otherAfter lane)
    (ordered : mark.chunks ≤ other.chunks) :
    ∃ middle, Cuts mark.chunks mark.records other middle otherAfter after := by
  obtain ⟨middle, joined, rest, spans⟩ := cuts_nested otherCuts cuts ordered
  refine ⟨middle, rest, spans, ?_⟩
  intro nonempty
  have whole : otherBefore ≠ [] := by
    rw [joined]
    exact fun empty => nonempty (List.append_eq_nil_iff.mp empty).2
  obtain ⟨init, last, rfl⟩ := (List.eq_nil_or_concat middle).resolve_left nonempty
  rw [otherCuts.tail whole, joined, List.concat_eq_append, ← List.append_assoc,
    List.getLast?_concat, List.getLast?_concat]

/-- A lane of the same shape is cut in the same places. -/
theorem cuts_shape {lane other before after :
    List (JournalChunk ρ)} (cuts : Cuts baseChunks baseRecords mark before after lane)
    (shape : SameShape lane other) :
    ∃ otherBefore otherAfter, Cuts baseChunks baseRecords mark otherBefore otherAfter other := by
  unfold SameShape at shape
  rw [cuts.split, List.map_append] at shape
  obtain ⟨otherBefore, otherAfter, split_, front, _⟩ := List.map_eq_append_iff.mp shape.symm
  have same : SameShape before otherBefore := front.symm
  refine ⟨otherBefore, otherAfter, split_, same.spans cuts.spans, ?_⟩
  intro nonempty
  have whole : before ≠ [] := by
    rintro rfl
    exact nonempty (List.map_eq_nil_iff.mp front)
  have keys := congrArg List.getLast? same.keys
  unfold keysOf at keys
  rw [List.getLast?_map, List.getLast?_map] at keys
  rw [cuts.tail whole, keys]

/-! ### Rewinding -/

variable {slots : SlotMap Unit}

theorem rewound_sound (sound : Sound journal)
    (cuts : Cuts journal.baseChunks journal.baseRecords mark before after journal.current)
    (selected : ∀ fork, journal.fork = some fork → fork.selected.chunks ≤ mark.chunks)
    (holds : slots.Holds (keysOf before ++ keysOf journal.detached)) :
    Sound
      { journal with
        slots := slots
        current := before
        chunks := mark.chunks
        records := mark.records
        intervalTailOpen := false } where
  spans := cuts.spans
  keys := holds
  forked := by
    intro fork found
    obtain ⟨boundary, spans⟩ := sound.forked fork found
    obtain ⟨selectedBefore, _, selectedCuts⟩ := boundary.cuts
    obtain ⟨middle, front⟩ := cuts_front cuts selectedCuts (selected fork found)
    exact ⟨⟨⟨selectedBefore, middle, front⟩, nofun⟩, spans⟩
  unforked := sound.unforked

theorem rewindTo_spec {swap : ρ → γ → Option (ρ × γ)} {release : ρ → γ → Option γ}
    (sound : Sound journal)
    (cuts : Cuts journal.baseChunks journal.baseRecords mark before after journal.current)
    {context swappedContext : γ} {swapped : List ρ}
    (ran : swapReverse swap (recordsOf after) context = some (swapped, swappedContext))
    {owed : List ρ → γ → Prop} (settles : Settles release owed)
    (due : ∀ records : List ρ, records.Perm swapped → owed records swappedContext) :
    ∃ slots released, journal.rewindTo mark swap release context =
        some
          ({ journal with
              slots := slots
              current := before
              chunks := mark.chunks
              records := mark.records
              intervalTailOpen := false },
            released) ∧
      owed [] released ∧ slots.Holds (keysOf before ++ keysOf journal.detached) := by
  obtain ⟨visited, visiting, same, shape⟩ := visitReverse_of_swapReverse ran
  have keys := sound.keys
  rw [cuts.split] at keys
  have holds : journal.slots.Holds
      (keysOf visited.reverse ++ (keysOf before ++ keysOf journal.detached)) := by
    refine keys.perm ?_
    have middle : (keysOf visited.reverse).Perm (keysOf after) := by
      rw [← shape.keys]
      exact (List.reverse_perm visited).map _
    unfold keysOf at middle ⊢
    rw [List.map_append, List.append_assoc]
    refine (List.Perm.append_right _ middle).trans ?_
    rw [← List.append_assoc, ← List.append_assoc]
    exact List.Perm.append_right _ List.perm_append_comm
  have due' : owed (recordsOf visited.reverse) swappedContext :=
    due _ (same ▸ recordsOf_reverse visited)
  obtain ⟨slots, released, ranRelease, left, none_⟩ :=
    releaseChunks_spec settles visited.reverse holds due'
  refine ⟨slots, released, ?_, none_, left⟩
  unfold rewindTo
  rw [cutAt_of_cuts sound cuts]
  dsimp only
  rw [visiting]
  dsimp only
  rw [ranRelease]

variable {visited : List (JournalChunk ρ)} (sound : Sound journal)
include sound

/-- A lane forked at a cut: its front stays, and what is behind is set aside. -/
theorem forked_sound (unforked : journal.fork = none)
    (cuts : Cuts journal.baseChunks journal.baseRecords mark before after journal.current)
    (shape : SameShape visited after) :
    Sound
      { journal with
        current := before
        detached := visited
        chunks := mark.chunks
        records := mark.records
        fork := some
          { selected := mark
            priorChunks := journal.chunks
            priorRecords := journal.records }
        intervalTailOpen := false } where
  spans := cuts.spans
  keys := by
    have keys := sound.keys
    rw [sound.unforked unforked, cuts.split] at keys
    show journal.slots.Holds (keysOf before ++ keysOf visited)
    rw [shape.keys]
    unfold keysOf at keys ⊢
    rw [List.map_append, List.map_nil, List.append_nil] at keys
    exact keys
  forked := by
    intro fork found
    cases found
    refine ⟨⟨⟨before, [], (List.append_nil _).symm, cuts.spans, cuts.tail⟩, nofun⟩, ?_⟩
    have whole := sound.spans
    rw [cuts.split] at whole
    obtain ⟨chunks, records, first, second⟩ := whole.cut
    have chunksSame := first.chunks_eq.trans cuts.spans.chunks_eq.symm
    have recordsSame := first.records_eq.trans cuts.spans.records_eq.symm
    rw [chunksSame, recordsSame] at second
    exact SameShape.spans shape.symm second
  unforked := nofun

/-- The front of a rejected candidate joined with what was set aside. -/
theorem rejoined_sound {fork : JournalFork} (forked : journal.fork = some fork)
    (cuts : Cuts journal.baseChunks journal.baseRecords fork.selected before after
      journal.current) (shape : SameShape visited journal.detached)
    (holds : slots.Holds (keysOf before ++ keysOf journal.detached)) :
    Sound
      { journal with
        slots := slots
        current := before ++ visited
        detached := []
        chunks := fork.priorChunks
        records := fork.priorRecords
        fork := none
        intervalTailOpen := false } where
  spans := cuts.spans.append (SameShape.spans shape.symm (sound.forked fork forked).2)
  keys := by
    show slots.Holds (keysOf (before ++ visited) ++ keysOf [])
    rw [← shape.keys] at holds
    unfold keysOf at holds ⊢
    rw [List.map_append, List.map_nil, List.append_nil]
    exact holds
  forked := nofun
  unforked := fun _ => rfl

theorem accepted_sound (holds : slots.Holds (keysOf journal.current)) :
    Sound
      { journal with
        slots := slots
        detached := []
        fork := none
        intervalTailOpen := false } where
  spans := sound.spans
  keys := by
    show slots.Holds (keysOf journal.current ++ keysOf [])
    unfold keysOf at holds ⊢
    rw [List.map_nil, List.append_nil]
    exact holds
  forked := nofun
  unforked := fun _ => rfl

/-- A lane whose front was released begins at the cut. -/
theorem released_sound (unforked : journal.fork = none)
    (cuts : Cuts journal.baseChunks journal.baseRecords mark before after journal.current)
    (holds : slots.Holds (keysOf after)) :
    Sound
      { journal with
        slots := slots
        current := after
        baseChunks := mark.chunks
        baseRecords := mark.records
        intervalTailOpen := false } where
  spans := by
    have whole := sound.spans
    rw [cuts.split] at whole
    obtain ⟨chunks, records, first, second⟩ := whole.cut
    have chunksSame := first.chunks_eq.trans cuts.spans.chunks_eq.symm
    have recordsSame := first.records_eq.trans cuts.spans.records_eq.symm
    rw [chunksSame, recordsSame] at second
    exact second
  keys := by
    show slots.Holds (keysOf after ++ keysOf journal.detached)
    rw [sound.unforked unforked]
    unfold keysOf at holds ⊢
    rw [List.map_nil, List.append_nil]
    exact holds
  forked := fun fork found => nomatch found.symm.trans unforked
  unforked := sound.unforked

end PackedJournal

end Umber.Command
