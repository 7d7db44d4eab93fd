import Umber.State.CandidateProperties

/-! Checkpoint restores are exact and candidate generations settle exactly, in
every run. -/

set_option autoImplicit false

namespace Umber.State

open ExceptLib UndoLog

namespace DenseState

variable {R : References} {state next candidate last : DenseState R}
  {before after history later : List (Capture R)} {capture : Capture R}
  {tail : AcceptedDenseStateTail}

theorem Fresh.paired (fresh : state.Fresh) : state.Paired := by
  unfold Paired
  rw [fresh.groups, fresh.journal]
  rfl

theorem Recorded.coherent (recorded : Recorded StateCell.Representable state history) :
    Coherent state history ∧
      (∃ payload, state.journal.checkpointArena.ownership = .accepted payload) ∧ state.Paired := by
  induction recorded with
  | start fresh =>
    refine ⟨fresh.coherent, ⟨[], ?_⟩, fresh.paired⟩
    rw [fresh.journal]
    rfl
  | step _ step ih =>
    obtain ⟨coherent, ⟨payload, owned⟩, paired⟩ := ih
    obtain ⟨kept, persists⟩ := coherent.step step
    refine ⟨kept, ?_, persists.paired paired⟩
    have side := persists.side
    rw [owned] at side
    exact side.of_accepted
  | rejected _ member begins run rejects ih =>
    obtain ⟨coherent, _, _⟩ := ih
    obtain ⟨before, after, rfl⟩ := List.append_of_mem member
    obtain ⟨suffix, banks, begun⟩ := coherent.beginCheckpointCandidate member begins
    obtain ⟨settled, rejecting, resumed⟩ :=
      (begun.pending coherent run).rejected coherent member
    cases rejecting.symm.trans rejects
    obtain ⟨groups, activeGroups, _⟩ := checkpointEligible_iff.mp resumed.eligible
    refine ⟨coherent.resumed resumed, ⟨_, resumed.accepted⟩, ?_⟩
    unfold Paired
    rw [groups, activeGroups]
    rfl
  | accepted _ begins run accepts ih => ?_
  obtain ⟨coherent, _, _⟩ := ih
  obtain ⟨suffix, banks, begun⟩ := coherent.beginCheckpointCandidate
    (List.mem_append_right _ List.mem_cons_self) begins
  obtain ⟨_, _, owned, kept, eligible⟩ := (begun.pending coherent run).accepted accepts
  obtain ⟨groups, activeGroups, _⟩ := checkpointEligible_iff.mp eligible
  refine ⟨kept, owned, ?_⟩
  unfold Paired
  rw [groups, activeGroups]
  rfl

/-! ## Restores -/

/-- A cursor that is accepted can be restored, and its cells come back. -/
theorem Coherent.restores (coherent : Coherent state history) (member : capture ∈ history)
    {payload : List (Chunk R)} (owned : state.journal.checkpointArena.ownership = .accepted payload)
    (validated : state.validateRestore capture.cursor = .ok ()) :
    ∃ next, state.restore capture.cursor = .ok next ∧
      (∀ cell content, capture.contents cell = some content →
        next.banks.contents cell = some content) ∧
      Coherent next history ∧ next.lane = state.lane.take capture.mark ∧
      next.checkpointEligible = true := by
  obtain ⟨next, restoring⟩ := @restoreValidated_of_accepted R _ _ capture.cursor _ coherent owned
  have restored : state.restore capture.cursor = .ok next := by
    unfold DenseState.restore
    rw [validated]
    exact restoring
  obtain ⟨eligible, names⟩ := (coherent.validateRestore_iff (coherent.issued capture member)).mp validated
  obtain ⟨_, rewoundTo⟩ := coherent.restore member restored
  obtain ⟨_, _, _, outside⟩ := checkpointEligible_iff.mp eligible
  refine ⟨next, restored, fun cell content captured => ?_,
    coherent.rewoundTo member names rewoundTo, rewoundTo.lane, ?_⟩
  · rw [rewoundTo.contents]
    exact (coherent.holds capture member names).contents cell content captured
  obtain ⟨_, stays, groups, activeGroups, sequence⟩ := restoreValidated_persists coherent restoring
  exact checkpointEligible_iff.mpr ⟨groups, activeGroups, sequence, stays outside⟩

/-- Whatever a checkpoint that is still accepted captured comes back, and so do
the checkpoints before it. -/
theorem restore_is_exact (recorded : Recorded StateCell.Representable state history) :
    (∀ before capture after, history = before ++ capture :: after →
      state.validateRestore capture.cursor = .ok () →
        ∃ next, state.restore capture.cursor = .ok next ∧
          (∀ cell content, capture.contents cell = some content →
            next.banks.contents cell = some content) ∧
          ∀ earlier ∈ before, state.validateRestore earlier.cursor = .ok () →
            next.validateRestore earlier.cursor = .ok () ∧
              ∃ again, next.restore earlier.cursor = .ok again ∧
                ∀ cell content, earlier.contents cell = some content →
                  again.banks.contents cell = some content) ∧
      ∀ cell content, state.banks.contents cell = some content →
        content.saveSerial = state.journal.saveSerial →
          ∀ capture ∈ history, state.journal.validateCursorShape capture.cursor = true →
            ∃ chunk ∈ state.journal.checkpointSuffix capture.cursor, chunk.delta.cell = cell := by
  obtain ⟨coherent, ⟨payload, owned⟩, _⟩ := recorded.coherent
  refine ⟨?_, fun cell content found stamp capture member valid => ?_⟩
  · rintro before capture after rfl validated
    have member : capture ∈ before ++ capture :: after :=
      List.mem_append_right _ List.mem_cons_self
    have names := ((coherent.validateRestore_iff (coherent.issued capture member)).mp validated).2
    obtain ⟨next, restored, contents, kept, lane, eligible⟩ :=
      coherent.restores member owned validated
    refine ⟨next, restored, contents, fun earlier listed accepted => ?_⟩
    have held : earlier ∈ before ++ capture :: after := List.mem_append_left _ listed
    have earlierNames := ((coherent.validateRestore_iff (coherent.issued earlier held)).mp accepted).2
    have order := (List.pairwise_append.mp coherent.ordered).2.2 earlier listed capture
      List.mem_cons_self earlierNames names
    have still : next.validateRestore earlier.cursor = .ok () := by
      refine (kept.validateRestore_iff (kept.issued earlier held)).mpr ⟨eligible, ?_⟩
      rw [lane]
      exact earlierNames.take order.1
    obtain ⟨other, nextOwned⟩ : ∃ other,
        next.journal.checkpointArena.ownership = .accepted other := by
      have persists := (coherent.step (.plain (.restore member restored))).2.side
      rw [owned] at persists
      exact persists.of_accepted
    obtain ⟨again, restoring, back, _⟩ := kept.restores held nextOwned still
    exact ⟨still, again, restoring, back⟩
  have names := (coherent.validateCursorShape (coherent.issued capture member)).mp valid
  exact (coherent.holds capture member names).covered cell content found stamp

theorem fresh_new (meaningCapacity : Nat) (undefined : R.Meaning) :
    (DenseState.new meaningCapacity undefined).Fresh :=
  ⟨rfl, rfl, fun _ _ found => (Banks.contents_new found).2⟩

/-- A counter is captured, assigned and restored. -/
theorem restore_is_exact_count :
    ∃ (captured assigned next : DenseState plainReferences) (cursor : JournalCursor),
      (new 16 () : DenseState plainReferences).journalCursor = .ok (cursor, captured) ∧
      captured.assign (.count 300) (.integer 7) .global = .ok assigned ∧
      assigned.validateRestore cursor = .ok () ∧ assigned.restore cursor = .ok next ∧
      next.banks.contents (.count 300) = some (.ofLevelOne (.integer 0)) := by
  have start : Recorded StateCell.Representable (new 16 () : DenseState plainReferences) _ :=
    .start (@fresh_new plainReferences 16 ())
  obtain ⟨cursor, captured, capturing⟩ : ∃ cursor captured,
      (new 16 () : DenseState plainReferences).journalCursor = .ok (cursor, captured) :=
    ⟨_, _, rfl⟩
  have run := Recorded.step start (.plain (.capture capturing))
  obtain ⟨assigned, assigning⟩ :
      ∃ assigned, captured.assign (.count 300) (.integer 7) .global = .ok assigned := by
    cases capturing
    exact ⟨_, rfl⟩
  have run := Recorded.step run
    (.plain (.assign (show StateCell.Representable (.count 300) from trivial) assigning))
  have validated : assigned.validateRestore cursor = .ok () := by
    cases capturing
    cases assigning
    rfl
  obtain ⟨next, restored, contents, _⟩ := (restore_is_exact run).1 [] _ [] rfl validated
  exact ⟨captured, assigned, next, cursor, capturing, assigning, validated, restored,
    contents _ _ rfl⟩

/-- A parameter of 19 bits assigned behind a checkpoint keeps its value when the
checkpoint is restored. -/
theorem restore_loses_wide_parameter :
    ∃ (start captured assigned final : DenseState plainReferences) (cursor : JournalCursor),
      twoFonts = .ok start ∧ start.journalCursor = .ok (cursor, captured) ∧
        captured.assign (.fontRuntime (.dimen 0 262145)) (.dimension 5) .global = .ok assigned ∧
        Recorded (fun _ => True) assigned
          [⟨cursor, start.checkpointCursor, start.banks.contents⟩] ∧
        assigned.restore cursor = .ok final ∧
        start.banks.contents (.fontRuntime (.dimen 0 262145)) =
          some { value := .dimension 0, level := 1, saveSerial := 0 } ∧
        final.banks.contents (.fontRuntime (.dimen 0 262145)) =
          some { value := .dimension 5, level := 1, saveSerial := 1 } := by
  obtain ⟨first, start, fonts, installing, adding, wide, narrow⟩ := twoFonts_ok
  have journal : start.journal = .new := by
    cases installing
    cases adding
    rfl
  have groups : start.groups = [] := by
    cases installing
    cases adding
    rfl
  have capturing : start.journalCursor = .ok
      ({ checkpoint := { payloadChunks := 0, payloadTail := none }
         checkpointEntries := 0
         groupDepth := 0
         saveStack := .default
         savePosition := 0 },
       { start with journal := { (.new : SaveJournal plainReferences) with saveSerial := 1 } }) := by
    unfold DenseState.journalCursor
    rw [journal, groups]
    rfl
  obtain ⟨assigned, assigning⟩ := @assign_of_contents plainReferences
    { start with journal := { (.new : SaveJournal plainReferences) with saveSerial := 1 } }
    _ (.dimension 5) _ wide rfl .global
  obtain ⟨displaced, banks, found, written, shape⟩ := assign_eq_ok assigning
  cases wide.symm.trans found
  have contents := written.put
  -- The retained value names the first parameter of the second font.
  let chunk : Chunk plainReferences :=
    { key := 0
      delta := { cell := .fontRuntime (.dimen 1 1), alternate := .ofLevelOne (.dimension 0) } }
  have retained : assignedJournal
      { start with journal := { (.new : SaveJournal plainReferences) with saveSerial := 1 } }
      (.fontRuntime (.dimen 0 262145)) .global (.ofLevelOne (.dimension 0)) =
        { (.new : SaveJournal plainReferences) with
          checkpointArena := { ownership := .accepted [chunk], nextKey := 1 }
          checkpointEntries := 1
          saveSerial := 1 } := by
    have aliased : (JournalCell.pack (.fontRuntime (.dimen 0 262145))).unpack =
        .fontRuntime (.dimen 1 1) := by decide
    have named : (Mutation.new (.fontRuntime (.dimen 0 262145))
        (.ofLevelOne (.dimension 0)) none : Mutation plainReferences).cell =
        .fontRuntime (.dimen 1 1) := aliased
    have unsaved : savedLevel
        { start with journal := { (.new : SaveJournal plainReferences) with saveSerial := 1 } }
        .global 1 = none := by simp [savedLevel]
    unfold assignedJournal
    simp only [BankCell.ofLevelOne, levelOne]
    rw [unsaved]
    change SaveJournal.recordMutation _ _ = _
    unfold SaveJournal.recordMutation SaveJournal.retainDelta
    erw [named]
    rfl
  have exchangeable : Exchangeable banks chunk := by
    refine ⟨⟨.ofLevelOne (.dimension 0), ?_⟩, trivial, rfl⟩
    rw [contents, put_other _ _ (by decide)]
    exact narrow
  obtain ⟨exchanged, final, _, swapping, finalContents, _⟩ := swapChunk_ok exchangeable
  rw [retained, groups] at shape
  refine ⟨start, _, assigned,
    { banks := final
      journal := { (.new : SaveJournal plainReferences) with
        checkpointArena := { ownership := .accepted [], nextKey := 1 }
        saveSerial := 2 }
      groups := []
      nextGroupLineage := start.nextGroupLineage }, _, fonts, capturing, assigning, ?_, ?_, wide, ?_⟩
  · have fresh : Recorded (fun _ => True) (new 16 () : DenseState plainReferences) [] :=
      .start (@fresh_new plainReferences 16 ())
    have grown := (fresh.step (.plain (.grow (.font installing)))).step
      (.plain (.grow (.font adding)))
    exact (grown.step (.plain (.capture capturing))).step (.plain (.assign trivial assigning))
  · rw [shape]
    have rewinding : rewind banks [chunk] =
        .ok ([{ chunk with delta := { chunk.delta with alternate := exchanged } }], final) := by
      rw [rewind, rewind, ok_bind]
      simp only [swapping, ok_bind]
      rfl
    change (restoreValidated _ _) = _
    unfold restoreValidated
    change (rewind banks [chunk] >>= _) = _
    rw [rewinding]
    rfl
  rw [finalContents, put_other _ _ (by decide), contents, put_same]
  rfl

/-! ## Candidate generations -/

/-- A candidate exposes the checkpoint it began at. Rejecting it gives the
accepted cells and checkpoints back; accepting it keeps its cells and just those
checkpoints that stand no later in the lane than the one it began at. -/
theorem candidate_settles
    (recorded : Recorded StateCell.Representable state (before ++ capture :: after))
    (begins : state.beginCheckpointCandidate capture.cursor capture.dense = .ok (tail, candidate))
    (run : CandidateRun StateCell.Representable candidate last later) :
    (∀ cell content, capture.contents cell = some content →
      candidate.banks.contents cell = some content) ∧
    (∃ next, last.rejectCheckpointCandidate capture.cursor capture.dense tail = .ok next ∧
      (∀ cell content, state.banks.contents cell = some content →
        next.banks.contents cell = some content) ∧ ∀ other ∈ before ++ capture :: after,
        (next.validateRestore other.cursor = .ok () ↔ state.validateRestore other.cursor = .ok ()) ∧
        (next.validateRestore other.cursor = .ok () →
          ∃ restored, next.restore other.cursor = .ok restored ∧
            ∀ cell content, other.contents cell = some content →
              restored.banks.contents cell = some content)) ∧
    ∀ next, last.acceptCheckpointCandidate = .ok next → next.banks = last.banks ∧
      (∀ other ∈ before ++ [capture], state.validateRestore other.cursor = .ok () →
        next.validateRestore other.cursor = .ok () ∧
          ∃ restored, next.restore other.cursor = .ok restored ∧
            ∀ cell content, other.contents cell = some content →
              restored.banks.contents cell = some content) ∧
      ∀ other ∈ after, next.validateRestore other.cursor = .ok () ↔
        state.validateRestore other.cursor = .ok () ∧
          other.cursor.checkpoint.payloadChunks = capture.cursor.checkpoint.payloadChunks := by
  obtain ⟨coherent, _, _⟩ := recorded.coherent
  have member : capture ∈ before ++ capture :: after :=
    List.mem_append_right _ List.mem_cons_self
  obtain ⟨suffix, banks, begun⟩ := coherent.beginCheckpointCandidate member begins
  have pending := begun.pending coherent run
  refine ⟨fun cell content captured => begun.exposes coherent captured, ?_, fun next accepts => ?_⟩
  · obtain ⟨next, rejects, resumed⟩ := pending.rejected coherent member
    have kept := coherent.resumed resumed
    refine ⟨next, rejects, resumed.contents, fun other held => ⟨?_, fun accepted => ?_⟩⟩
    · have issued := coherent.issued other held
      rw [kept.validateRestore_iff issued, coherent.validateRestore_iff issued, resumed.lane,
        resumed.eligible, begun.eligible]
    obtain ⟨restored, restoring, contents, _⟩ := kept.restores held resumed.accepted accepted
    exact ⟨restored, restoring, contents⟩
  obtain ⟨kept, lane, ⟨payload, owned⟩, lasting, eligible⟩ := pending.accepted accepts
  have named : ∀ other ∈ before ++ capture :: after,
      (next.validateRestore other.cursor = .ok () ↔
        state.validateRestore other.cursor = .ok () ∧ other.mark ≤ capture.mark) := by
    intro other held
    have issued := coherent.issued other held
    rw [lasting.validateRestore_iff issued, coherent.validateRestore_iff issued, lane, eligible,
      begun.eligible, pending.names_iff issued, and_assoc]
  obtain ⟨_, behind, across⟩ := List.pairwise_append.mp coherent.ordered
  have order := (List.pairwise_cons.mp behind).1
  refine ⟨kept, fun other listed accepted => ?_, fun other listed => ?_⟩
  · have held : other ∈ before ++ capture :: after := by
      rcases List.mem_append.mp listed with earlier | same
      · exact List.mem_append_left _ earlier
      rw [List.mem_singleton.mp same]
      exact member
    have otherNames := ((coherent.validateRestore_iff (coherent.issued other held)).mp accepted).2
    have inside : other.mark ≤ capture.mark := by
      rcases List.mem_append.mp listed with earlier | same
      · exact (across other earlier capture List.mem_cons_self otherNames begun.names).1
      · exact Nat.le_of_eq (by rw [List.mem_singleton.mp same])
    have still := (named other held).mpr ⟨accepted, inside⟩
    obtain ⟨restored, restoring, contents, _⟩ :=
      lasting.restores (List.mem_append_left _ listed) owned still
    exact ⟨still, restored, restoring, contents⟩
  have held : other ∈ before ++ capture :: after :=
    List.mem_append_right _ (List.mem_cons_of_mem _ listed)
  rw [named other held]
  constructor
  · rintro ⟨accepted, inside⟩
    have otherNames := ((coherent.validateRestore_iff (coherent.issued other held)).mp accepted).2
    exact ⟨accepted, Nat.le_antisymm inside (order other listed begun.names otherNames).1⟩
  rintro ⟨accepted, same⟩
  exact ⟨accepted, Nat.le_of_eq same⟩

/-- A counter written between two checkpoints and in a candidate begun at the
first one. -/
theorem candidate_settles_count :
    ∃ (first written second candidate last rejected accepted : DenseState plainReferences)
      (cursor later : JournalCursor) (tail : AcceptedDenseStateTail),
      (new 16 () : DenseState plainReferences).journalCursor = .ok (cursor, first) ∧
      first.assign (.count 300) (.integer 7) .global = .ok written ∧
      written.journalCursor = .ok (later, second) ∧ second.beginCheckpointCandidate cursor
        (new 16 () : DenseState plainReferences).checkpointCursor = .ok (tail, candidate) ∧
      candidate.assign (.count 300) (.integer 9) .global = .ok last ∧
      last.rejectCheckpointCandidate cursor
        (new 16 () : DenseState plainReferences).checkpointCursor tail = .ok rejected ∧
      rejected.banks.contents (.count 300) = second.banks.contents (.count 300) ∧
      last.acceptCheckpointCandidate = .ok accepted ∧
      accepted.validateRestore cursor = .ok () ∧ accepted.validateRestore later ≠ .ok () := by
  have start : Recorded StateCell.Representable (new 16 () : DenseState plainReferences) _ :=
    .start (@fresh_new plainReferences 16 ())
  obtain ⟨cursor, first, capturing⟩ : ∃ cursor captured,
      (new 16 () : DenseState plainReferences).journalCursor = .ok (cursor, captured) :=
    ⟨_, _, rfl⟩
  have run := Recorded.step start (.plain (.capture capturing))
  have counted : StateCell.Representable (.count 300) := trivial
  obtain ⟨written, assigning⟩ :
      ∃ written, first.assign (.count 300) (.integer 7) .global = .ok written := by
    cases capturing
    exact ⟨_, rfl⟩
  have run := Recorded.step run (.plain (.assign counted assigning))
  obtain ⟨later, second, capturingLater⟩ : ∃ later second,
      written.journalCursor = .ok (later, second) := by
    cases capturing
    cases assigning
    exact ⟨_, _, rfl⟩
  have run := Recorded.step run (.plain (.capture capturingLater))
  obtain ⟨tail, candidate, begins⟩ : ∃ tail candidate,
      second.beginCheckpointCandidate cursor
        (new 16 () : DenseState plainReferences).checkpointCursor = .ok (tail, candidate) := by
    cases capturing
    cases assigning
    cases capturingLater
    exact ⟨_, _, rfl⟩
  obtain ⟨last, changing⟩ :
      ∃ last, candidate.assign (.count 300) (.integer 9) .global = .ok last := by
    cases capturing
    cases assigning
    cases capturingLater
    cases begins
    exact ⟨_, rfl⟩
  have candidateRun := CandidateRun.step .begun (.assign counted changing)
  obtain ⟨_, ⟨rejected, rejecting, back, _⟩, accepting⟩ :=
    @candidate_settles _ _ _ _ [] [_] _ _ _ run begins candidateRun
  obtain ⟨accepted, accepts⟩ : ∃ accepted, last.acceptCheckpointCandidate = .ok accepted := by
    cases capturing
    cases assigning
    cases capturingLater
    cases begins
    cases changing
    exact ⟨_, rfl⟩
  obtain ⟨_, earlier, dropped⟩ := accepting accepted accepts
  refine ⟨first, written, second, candidate, last, rejected, accepted, cursor, later, tail,
    capturing, assigning, capturingLater, begins, changing, rejecting, ?_, accepts, ?_, ?_⟩
  · have found : ∃ content, second.banks.contents (.count 300) = some content := by
      cases capturing
      cases assigning
      cases capturingLater
      exact ⟨_, rfl⟩
    obtain ⟨content, found⟩ := found
    rw [back _ _ found, found]
  · refine (earlier _ List.mem_cons_self ?_).1
    cases capturing
    cases assigning
    cases capturingLater
    rfl
  intro still
  have same := ((dropped _ List.mem_cons_self).mp still).2
  cases capturing
  cases assigning
  cases capturingLater
  cases same

/-- Of two checkpoints with no write between them the later one stays accepted
with the earlier one. -/
theorem candidate_keeps_coincident :
    ∃ (first second candidate accepted : DenseState plainReferences)
      (cursor later : JournalCursor) (tail : AcceptedDenseStateTail),
      (new 16 () : DenseState plainReferences).journalCursor = .ok (cursor, first) ∧
      first.journalCursor = .ok (later, second) ∧ second.beginCheckpointCandidate cursor
        (new 16 () : DenseState plainReferences).checkpointCursor = .ok (tail, candidate) ∧
      candidate.acceptCheckpointCandidate = .ok accepted ∧
      accepted.validateRestore later = .ok () :=
  ⟨_, _, _, _, _, _, _, rfl, rfl, rfl, rfl, rfl⟩

end DenseState

end Umber.State
