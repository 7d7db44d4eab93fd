import Umber.Command.JournalProperties

/-! Runs of a journal whose records are numbered, with the lineage each mark denoted
when it was captured. -/

set_option autoImplicit false

namespace Umber.Command

variable {ρ γ : Type}

def numberedSwap (swap : ρ → γ → Option (ρ × γ)) (record : Nat × ρ) (context : γ) :
    Option ((Nat × ρ) × γ) :=
  (swap record.2 context).map fun swapped => ((record.1, swapped.1), swapped.2)

def numberedRelease (release : ρ → γ → Option γ) (record : Nat × ρ) (context : γ) : Option γ :=
  release record.2 context

def numbersOf (chunks : List (JournalChunk (Nat × ρ))) : List Nat :=
  (recordsOf chunks).map Prod.fst

/-- A journal with the numbers of its released records, the next number, and its
marks with the numbers they denoted. -/
structure JournalRun (ρ : Type) where
  journal : PackedJournal (Nat × ρ)
  released : List Nat
  next : Nat
  marks : List (PackedJournalMark × List Nat)

namespace JournalRun

def start (recordsPerChunk : Nat) : JournalRun ρ where
  journal := .empty recordsPerChunk
  released := []
  next := 0
  marks := []

def lineage (run : JournalRun ρ) : List Nat := run.released ++ numbersOf run.journal.current

/-- The run after a change of its journal. The base may have moved along the
lineage. -/
def change (run : JournalRun ρ) (journal : PackedJournal (Nat × ρ)) : JournalRun ρ :=
  { run with journal, released := run.lineage.take journal.baseRecords }

inductive Step : JournalRun ρ → JournalRun ρ → Prop
  | append {run : JournalRun ρ} (value : ρ) :
      Step run { run with
        journal := run.journal.append (run.next, value)
        next := run.next + 1 }
  | mark {run : JournalRun ρ} :
      Step run { run with
        journal := run.journal.mark.2
        marks := (run.journal.mark.1, run.lineage) :: run.marks }
  | restore {run : JournalRun ρ} {γ : Type} {mark : PackedJournalMark}
      {swap : ρ → γ → Option (ρ × γ)} {release : ρ → γ → Option γ} {context after : γ}
      {accepted : Bool} {journal : PackedJournal (Nat × ρ)} :
      run.journal.restoreWith mark (numberedSwap swap) (numberedRelease release) context =
        some (accepted, journal, after) → Step run (run.change journal)
  | restoreCurrent {run : JournalRun ρ} {γ : Type} {mark : PackedJournalMark}
      {swap : ρ → γ → Option (ρ × γ)} {release : ρ → γ → Option γ} {context after : γ}
      {accepted : Bool} {journal : PackedJournal (Nat × ρ)} :
      run.journal.restoreCurrentWith mark (numberedSwap swap) (numberedRelease release) context =
        some (accepted, journal, after) → Step run (run.change journal)
  | release {run : JournalRun ρ} {γ : Type} {mark : PackedJournalMark}
      {release : ρ → γ → Option γ} {context after : γ} {chunks : Option Nat}
      {journal : PackedJournal (Nat × ρ)} :
      run.journal.releasePrefix mark (numberedRelease release) context =
        some (chunks, journal, after) → Step run (run.change journal)
  | begin {run : JournalRun ρ} {γ : Type} {mark : PackedJournalMark}
      {swap : ρ → γ → Option (ρ × γ)} {context after : γ} {journal : PackedJournal (Nat × ρ)} :
      run.journal.beginCheckpointCandidate mark (numberedSwap swap) context =
        some (journal, after) → Step run (run.change journal)
  | accept {run : JournalRun ρ} {γ : Type} {release : ρ → γ → Option γ} {context after : γ}
      {journal : PackedJournal (Nat × ρ)} :
      run.journal.acceptCheckpointCandidateWith (numberedRelease release) context =
        some (journal, after) → Step run (run.change journal)
  | reject {run : JournalRun ρ} {γ : Type} {swap : ρ → γ → Option (ρ × γ)}
      {release : ρ → γ → Option γ} {context after : γ} {journal : PackedJournal (Nat × ρ)} :
      run.journal.rejectCheckpointCandidateWith (numberedSwap swap) (numberedRelease release)
        context = some (journal, after) → Step run (run.change journal)

inductive Reached : JournalRun ρ → Prop
  | start (recordsPerChunk : Nat) : Reached (start recordsPerChunk)
  | step {run next : JournalRun ρ} : Reached run → Step run next → Reached next

end JournalRun

/-! ## Changes of a journal -/

def traceOf (chunk : JournalChunk (Nat × ρ)) : ChunkKey × Nat × Nat × List Nat :=
  (chunk.key, chunk.depth, chunk.recordsBefore, chunk.values.map Prod.fst)

def SameTrace (chunks others : List (JournalChunk (Nat × ρ))) : Prop :=
  chunks.map traceOf = others.map traceOf

namespace SameTrace

variable {chunks others : List (JournalChunk (Nat × ρ))}

theorem shape (same : SameTrace chunks others) : SameShape chunks others := by
  have mapped := congrArg
    (List.map fun trace => (trace.1, trace.2.1, trace.2.2.1, trace.2.2.2.length)) same
  rw [List.map_map, List.map_map] at mapped
  have forget : ((fun trace : ChunkKey × Nat × Nat × List Nat =>
      (trace.1, trace.2.1, trace.2.2.1, trace.2.2.2.length)) ∘ traceOf) =
        (shapeOf : JournalChunk (Nat × ρ) → _) := by
    funext chunk
    simp [traceOf, shapeOf]
  rw [forget] at mapped
  exact mapped

theorem numbers (same : SameTrace chunks others) : numbersOf chunks = numbersOf others := by
  have numbered : ∀ lane : List (JournalChunk (Nat × ρ)),
      numbersOf lane = (lane.map traceOf).flatMap fun trace => trace.2.2.2 := by
    intro lane
    rw [numbersOf, recordsOf, List.map_flatMap, List.flatMap_map]
    rfl
  rw [numbered, numbered, same]

theorem append {later laterOthers : List (JournalChunk (Nat × ρ))}
    (first : SameTrace chunks others) (second : SameTrace later laterOthers) :
    SameTrace (chunks ++ later) (others ++ laterOthers) := by
  unfold SameTrace at *
  rw [List.map_append, List.map_append, first, second]

end SameTrace

namespace PackedJournal

variable {swap : ρ → γ → Option (ρ × γ)} {release : ρ → γ → Option γ} {context after : γ}

theorem swapReverse_numbers {values swapped : List (Nat × ρ)}
    (ran : swapReverse (numberedSwap swap) values context = some (swapped, after)) :
    swapped.map Prod.fst = values.map Prod.fst := by
  induction values generalizing swapped after with
  | nil =>
    cases ran
    rfl
  | cons value values ih => ?_
  unfold swapReverse at ran
  split at ran
  next => cases ran
  rename_i laterSwapped between rest
  unfold numberedSwap at ran
  cases one : swap value.2 between with
  | none =>
    rw [one] at ran
    cases ran
  | some result => ?_
  rw [one] at ran
  cases ran
  rw [List.map_cons, List.map_cons, ih rest]

theorem swapForward_numbers {values swapped : List (Nat × ρ)}
    (ran : swapForward (numberedSwap swap) values context = some (swapped, after)) :
    swapped.map Prod.fst = values.map Prod.fst := by
  induction values generalizing context swapped with
  | nil =>
    cases ran
    rfl
  | cons value values ih => ?_
  unfold swapForward at ran
  cases one : swap value.2 context with
  | none =>
    rw [numberedSwap, one] at ran
    cases ran
  | some result => ?_
  rw [numberedSwap, one] at ran
  dsimp only [Option.map_some] at ran
  split at ran
  next => cases ran
  next rest =>
    cases ran
    rw [List.map_cons, List.map_cons, ih rest]

theorem visitReverse_trace {chunks visited : List (JournalChunk (Nat × ρ))}
    (ran : visitReverse (numberedSwap swap) chunks context = some (visited, after)) :
    SameTrace visited chunks := by
  induction chunks generalizing visited after with
  | nil =>
    cases ran
    rfl
  | cons chunk later ih => ?_
  unfold visitReverse at ran
  split at ran
  next => cases ran
  rename_i laterVisited between rest
  split at ran
  next => cases ran
  rename_i values last swapped
  cases ran
  unfold SameTrace
  rw [List.map_cons, List.map_cons, ih rest]
  unfold traceOf
  rw [swapReverse_numbers swapped]

theorem visitForward_trace {chunks visited : List (JournalChunk (Nat × ρ))}
    (ran : visitForward (numberedSwap swap) chunks context = some (visited, after)) :
    SameTrace visited chunks := by
  induction chunks generalizing context visited with
  | nil =>
    cases ran
    rfl
  | cons chunk later ih => ?_
  unfold visitForward at ran
  split at ran
  next => cases ran
  rename_i values between swapped
  split at ran
  next => cases ran
  rename_i laterVisited last rest
  cases ran
  unfold SameTrace
  rw [List.map_cons, List.map_cons, ih rest]
  unfold traceOf
  rw [swapForward_numbers swapped]

/-- Released chunks give up their keys, and no other key is lost. -/
theorem releaseChunks_holds {chunks : List (JournalChunk ρ)} {others : List ChunkKey}
    {slots released : SlotMap Unit}
    (ran : releaseChunks release chunks slots context = some (released, after))
    (holds : slots.Holds (keysOf chunks ++ others)) :
    released.Holds others ∧ ∀ key, slots.Issued key → released.Issued key := by
  induction chunks generalizing slots context with
  | nil =>
    cases ran
    exact ⟨holds, fun _ issued => issued⟩
  | cons chunk later ih => ?_
  unfold releaseChunks at ran
  split at ran
  next => cases ran
  rename_i between settled
  obtain ⟨retired, retiring, left⟩ := holds.retire
  rw [retiring] at ran
  obtain ⟨after, kept⟩ := ih ran left
  exact ⟨after, fun key issued => kept key (issued.retire retiring)⟩

def rewound (journal : PackedJournal ρ) (mark : PackedJournalMark)
    (before : List (JournalChunk ρ)) (slots : SlotMap Unit) : PackedJournal ρ :=
  { journal with
    slots, current := before, chunks := mark.chunks, records := mark.records
    intervalTailOpen := false }

/-- What an operation can do to a journal: nothing, a rewind, the release of a
prefix, a fork, or the end of a fork. -/
inductive Changes (journal : PackedJournal (Nat × ρ)) : PackedJournal (Nat × ρ) → Prop
  | unchanged : Changes journal journal
  | rewound {mark : PackedJournalMark} {before after : List (JournalChunk (Nat × ρ))}
      {slots : SlotMap Unit} :
      Cuts journal.baseChunks journal.baseRecords mark before after journal.current →
      (∀ fork, journal.fork = some fork → fork.selected.chunks ≤ mark.chunks) →
      slots.Holds (keysOf before ++ keysOf journal.detached) →
      (∀ key, journal.slots.Issued key → slots.Issued key) →
      Changes journal (journal.rewound mark before slots)
  | released {mark : PackedJournalMark} {before after : List (JournalChunk (Nat × ρ))}
      {slots : SlotMap Unit} :
      journal.fork = none →
      Cuts journal.baseChunks journal.baseRecords mark before after journal.current →
      slots.Holds (keysOf after) → (∀ key, journal.slots.Issued key → slots.Issued key) →
      Changes journal { journal with
        slots, current := after, baseChunks := mark.chunks, baseRecords := mark.records
        intervalTailOpen := false }
  | forked {mark : PackedJournalMark} {before after visited : List (JournalChunk (Nat × ρ))} :
      journal.fork = none →
      Cuts journal.baseChunks journal.baseRecords mark before after journal.current →
      SameTrace visited after →
      Changes journal { journal with
        current := before, detached := visited, chunks := mark.chunks, records := mark.records
        fork := some
          { selected := mark, priorChunks := journal.chunks, priorRecords := journal.records }
        intervalTailOpen := false }
  | accepted {slots : SlotMap Unit} :
      slots.Holds (keysOf journal.current) →
      (∀ key, journal.slots.Issued key → slots.Issued key) →
      Changes journal { journal with
        slots, detached := [], fork := none, intervalTailOpen := false }
  | rejoined {fork : JournalFork} {before after visited : List (JournalChunk (Nat × ρ))}
      {slots : SlotMap Unit} :
      journal.fork = some fork →
      Cuts journal.baseChunks journal.baseRecords fork.selected before after journal.current →
      SameTrace visited journal.detached →
      slots.Holds (keysOf before ++ keysOf journal.detached) →
      (∀ key, journal.slots.Issued key → slots.Issued key) →
      Changes journal { journal with
        slots, current := before ++ visited, detached := [], chunks := fork.priorChunks
        records := fork.priorRecords, fork := none, intervalTailOpen := false }

variable {journal changed : PackedJournal (Nat × ρ)} {mark : PackedJournalMark}
  {before after : List (JournalChunk (Nat × ρ))} {context last : γ}

section

variable (sound : Sound journal)
include sound

theorem rewindTo_rewound
    (cuts : Cuts journal.baseChunks journal.baseRecords mark before after journal.current)
    (ran : journal.rewindTo mark (numberedSwap swap) (numberedRelease release) context =
      some (changed, last)) : ∃ slots, changed = journal.rewound mark before slots ∧
      slots.Holds (keysOf before ++ keysOf journal.detached) ∧
      ∀ key, journal.slots.Issued key → slots.Issued key := by
  unfold rewindTo at ran
  rw [cutAt_of_cuts sound cuts] at ran
  dsimp only at ran
  split at ran
  next => cases ran
  rename_i visited swapped visiting
  split at ran
  next => cases ran
  rename_i slots released releasing
  cases ran
  have keys := sound.keys
  rw [cuts.split] at keys
  have holds : journal.slots.Holds
      (keysOf visited.reverse ++ (keysOf before ++ keysOf journal.detached)) := by
    refine keys.perm ?_
    have middle : (keysOf visited.reverse).Perm (keysOf after) := by
      rw [← (visitReverse_trace visiting).shape.keys]
      exact (List.reverse_perm visited).map _
    unfold keysOf at middle ⊢
    rw [List.map_append, List.append_assoc]
    refine (List.Perm.append_right _ middle).trans ?_
    rw [← List.append_assoc, ← List.append_assoc]
    exact List.Perm.append_right _ List.perm_append_comm
  obtain ⟨left, kept⟩ := releaseChunks_holds releasing holds
  exact ⟨slots, rfl, left, kept⟩

theorem restoreWith_changes {accepted : Bool}
    (ran : journal.restoreWith mark (numberedSwap swap) (numberedRelease release) context =
      some (accepted, changed, last)) : Changes journal changed := by
  unfold restoreWith at ran
  split at ran
  next =>
    cases ran
    exact .unchanged
  rename_i able
  rw [not_or, Bool.not_eq_true, Bool.not_eq_false] at able
  obtain ⟨before, after, cuts⟩ := (validates_iff sound).mp able.2
  split at ran
  next => cases ran
  rename_i restored final rewinding
  cases ran
  obtain ⟨slots, rfl, holds, kept⟩ := rewindTo_rewound sound cuts rewinding
  refine .rewound cuts ?_ holds kept
  intro fork found
  rw [found] at able
  cases able.1

theorem restoreCurrentWith_changes {accepted : Bool}
    (ran : journal.restoreCurrentWith mark (numberedSwap swap) (numberedRelease release) context =
      some (accepted, changed, last)) : Changes journal changed := by
  unfold restoreCurrentWith at ran
  split at ran
  next =>
    cases ran
    exact .unchanged
  rename_i able
  rw [Bool.not_eq_false] at able
  unfold canRestoreCurrent at able
  split at able
  next => cases able
  rename_i fork forked
  rw [Bool.and_eq_true, Bool.and_eq_true, decide_eq_true_eq, decide_eq_true_eq] at able
  obtain ⟨before, after, cuts⟩ := (validates_iff sound).mp able.1.1
  split at ran
  next => cases ran
  rename_i restored final rewinding
  cases ran
  obtain ⟨slots, rfl, holds, kept⟩ := rewindTo_rewound sound cuts rewinding
  refine .rewound cuts ?_ holds kept
  intro other found
  rw [forked] at found
  cases found
  exact able.1.2

theorem releasePrefix_changes {chunks : Option Nat}
    (ran : journal.releasePrefix mark (numberedRelease release) context =
      some (chunks, changed, last)) : Changes journal changed := by
  unfold releasePrefix at ran
  split at ran
  next =>
    cases ran
    exact .unchanged
  rename_i able
  rw [not_or, Bool.not_eq_true, Bool.not_eq_false] at able
  have unforked : journal.fork = none :=
    Option.isNone_iff_eq_none.mp (Option.isSome_eq_false_iff.mp able.1)
  obtain ⟨before, after, cuts⟩ := (validates_iff sound).mp able.2
  split at ran
  next =>
    cases ran
    exact .unchanged
  rw [cutAt_of_cuts sound cuts] at ran
  dsimp only at ran
  split at ran
  next => cases ran
  rename_i slots released releasing
  cases ran
  have keys := sound.keys
  rw [cuts.split, sound.unforked unforked] at keys
  unfold keysOf at keys
  rw [List.map_append, List.map_nil, List.append_nil] at keys
  obtain ⟨left, kept⟩ := releaseChunks_holds releasing keys
  exact .released unforked cuts left kept

theorem beginCheckpointCandidate_changes
    (ran : journal.beginCheckpointCandidate mark (numberedSwap swap) context =
      some (changed, last)) : Changes journal changed := by
  unfold beginCheckpointCandidate at ran
  split at ran
  next => cases ran
  rename_i able
  rw [not_or, Bool.not_eq_true, Bool.not_eq_false] at able
  have unforked : journal.fork = none :=
    Option.isNone_iff_eq_none.mp (Option.isSome_eq_false_iff.mp able.1)
  obtain ⟨before, after, cuts⟩ := (validates_iff sound).mp able.2
  rw [cutAt_of_cuts sound cuts] at ran
  dsimp only at ran
  split at ran
  next => cases ran
  next visited swapped visiting =>
    cases ran
    exact .forked unforked cuts (visitReverse_trace visiting)

theorem acceptCheckpointCandidateWith_changes
    (ran : journal.acceptCheckpointCandidateWith (numberedRelease release) context =
      some (changed, last)) : Changes journal changed := by
  unfold acceptCheckpointCandidateWith at ran
  split at ran
  next => cases ran
  rename_i fork forked
  split at ran
  next => cases ran
  rename_i slots released releasing
  cases ran
  obtain ⟨left, kept⟩ :=
    releaseChunks_holds releasing (sound.keys.perm List.perm_append_comm)
  exact .accepted left kept

theorem rejectCheckpointCandidateWith_changes
    (ran : journal.rejectCheckpointCandidateWith (numberedSwap swap) (numberedRelease release)
      context = some (changed, last)) : Changes journal changed := by
  unfold rejectCheckpointCandidateWith at ran
  split at ran
  next => cases ran
  rename_i fork forked
  obtain ⟨boundary, -⟩ := sound.forked fork forked
  obtain ⟨before, after, cuts⟩ := boundary.cuts
  split at ran
  next => cases ran
  rename_i rewound between rewinding
  obtain ⟨slots, rfl, holds, kept⟩ := rewindTo_rewound sound cuts rewinding
  split at ran
  next => cases ran
  next visited final visiting =>
    cases ran
    exact .rejoined forked cuts (visitForward_trace visiting) holds kept

end

theorem Changes.sound (changes : Changes journal changed) (sound : Sound journal) :
    Sound changed := by
  cases changes with
  | unchanged => exact sound
  | rewound cuts selected holds _ => exact rewound_sound sound cuts selected holds
  | released unforked cuts holds _ => exact released_sound sound unforked cuts holds
  | forked unforked cuts trace => exact forked_sound sound unforked cuts trace.shape
  | accepted holds _ => exact accepted_sound sound holds
  | rejoined forked cuts trace holds _ => exact rejoined_sound sound forked cuts trace.shape holds

end PackedJournal

end Umber.Command
