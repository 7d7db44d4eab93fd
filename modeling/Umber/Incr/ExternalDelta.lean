import Umber.Incr.HistoryProperties
import Umber.Incr.SessionProperties

/-! Candidates whose text is the accepted text: when they are accepted with
their own output. -/

set_option autoImplicit false

namespace Umber.Incr

namespace Session

variable {Identity Runtime Effect Page : Type} [DecidableEq Identity]

inductive UnchangedTextPlan (session : Session Identity Runtime Effect Page) :
    CandidatePlan → Prop where
  | externalInputDelta : UnchangedTextPlan session session.externalInputDeltaPlan
  | advance {nextRevision : Nat} {edit : Edit} {path : RevisionExecutionPath} :
      path = .slowEdit ∨ path = .forcedJobStartFallback →
      edit.apply session.source = session.source →
      UnchangedTextPlan session (session.advancePlan nextRevision edit path)

/-- Preparation and acceptance succeed, and nothing of the previous output is
adopted. -/
def AcceptsOwnOutput (session : Session Identity Runtime Effect Page)
    (candidate : RevisionCandidate Identity Runtime)
    (completed : CandidateCompletion Identity Effect Page)
    (lane : BoundaryLane Identity Runtime) : Prop :=
  ∃ transaction next output,
    session.prepareRevisionCandidate candidate completed lane = .ok transaction ∧
    session.acceptRevision transaction = .ok (next, output) ∧
    output.completion = completed.completion ∧ output.reuse.suffixesAdopted = 0

/-- The accepted rows behind the restart, paired with the rows the candidate
published. -/
def comparedPairs (session : Session Identity Runtime Effect Page)
    (candidate : RevisionCandidate Identity Runtime)
    (published : List (BoundaryRecord Identity)) :
    List (BoundaryRecord Identity × BoundaryRecord Identity) :=
  let startsAtRestart := candidate.plan.restartBoundary.any fun selected =>
    published.head?.any fun record => record.key = selected
  alignedPairs candidate.plan.editMap
    (session.history.drop (candidate.comparisonStart.getD session.history.length))
    (published.drop (if startsAtRestart then 1 else 0))

/-- Whether the restart of a candidate is an accepted row with an identity. -/
def restartRecorded (session : Session Identity Runtime Effect Page)
    (candidate : RevisionCandidate Identity Runtime) : Bool :=
  candidate.plan.restartBoundary.any fun selected =>
    session.history.any fun record =>
      record.key = selected && record.reachableStateIdentity.isSome

/-- Nothing leads the comparison to reuse: no aligned pair converges, and if no
pair is aligned at all, then the restart is not an accepted row with an
identity. -/
def nothingReused (session : Session Identity Runtime Effect Page)
    (candidate : RevisionCandidate Identity Runtime)
    (published : List (BoundaryRecord Identity)) : Bool :=
  let pairs := session.comparedPairs candidate published
  (pairs.all fun pair => !recordsConverge pair.1 pair.2) &&
    !(pairs.isEmpty && session.restartRecorded candidate)

variable {session : Session Identity Runtime Effect Page}

omit [DecidableEq Identity] in
theorem UnchangedTextPlan.fields
    {plan : CandidatePlan} (unchanged : session.UnchangedTextPlan plan) :
    plan.executionPath ≠ .cold ∧ plan.baseSource = session.source ∧
      plan.source = session.source ∧ plan.baseRevision = session.revision := by
  cases unchanged with
  | externalInputDelta => exact ⟨by simp [externalInputDeltaPlan], rfl, rfl, rfl⟩
  | advance path text =>
    refine ⟨?_, rfl, text, rfl⟩
    rcases path with rfl | rfl <;> simp [advancePlan]

theorem decideConvergence_none_iff {session : Session Identity Runtime Effect Page}
    {candidate : RevisionCandidate Identity Runtime}
    {completed : CandidateCompletion Identity Effect Page}
    (warm : candidate.plan.executionPath ≠ .cold)
    (unchanged : candidate.plan.baseSource = candidate.plan.source) :
    (session.decideConvergence candidate completed).convergenceBoundary = none ↔
      session.nothingReused candidate completed.history = true := by
  have compared := @compareHistories_eq Identity _
    { executionPath := candidate.plan.executionPath
      old := session.history.drop (candidate.comparisonStart.getD session.history.length)
      new := completed.history.drop
        (if candidate.plan.restartBoundary.any fun selected =>
            completed.history.head?.any fun record => record.key = selected then 1 else 0)
      edit := candidate.plan.editMap
      pagesRetyped := completed.completion.pages.length } warm
  change (session.compareCandidate candidate completed).convergenceBoundary = _ ∧
    (session.compareCandidate candidate completed).sameHistoryAttempts =
      (session.comparedPairs candidate completed.history).length at compared
  obtain ⟨convergence, attempts⟩ := compared
  have noPair : (session.compareCandidate candidate completed).convergenceBoundary = none ↔
      ((session.comparedPairs candidate completed.history).all fun pair =>
        !recordsConverge pair.1 pair.2) = true := by
    rw [convergence]
    simp only [convergedPair, Option.map_eq_none_iff, List.find?_eq_none, List.all_eq_true,
      Bool.not_eq_true']
    exact ⟨fun h pair member => by simpa using h pair member,
      fun h pair member => by simpa using h pair member⟩
  have shortcut : session.unchangedContentConvergence candidate
      (session.compareCandidate candidate completed) = none ↔
        ((session.comparedPairs candidate completed.history).isEmpty &&
          session.restartRecorded candidate) = false := by
    rw [unchangedContentConvergence, attempts]
    by_cases empty : session.comparedPairs candidate completed.history = []
    · cases selected : candidate.plan.restartBoundary with
      | none => simp [empty, restartRecorded, selected]
      | some key => simp [empty, warm, unchanged, restartRecorded, selected]
    · simp [empty]
  simp only [decideConvergence, nothingReused, Bool.and_eq_true, ← noPair, Bool.not_eq_true',
    ← shortcut]
  cases chosen : session.unchangedContentConvergence candidate
      (session.compareCandidate candidate completed) with
  | none => simp
  | some selected => simp

theorem decideConvergence_suffixesAdopted (session : Session Identity Runtime Effect Page)
    (candidate : RevisionCandidate Identity Runtime)
    (completed : CandidateCompletion Identity Effect Page) :
    (session.decideConvergence candidate completed).suffixesAdopted = 0 := by
  have compared : (session.compareCandidate candidate completed).suffixesAdopted = 0 :=
    compareHistories_suffixesAdopted _
  unfold decideConvergence
  simp only
  split
  · exact compared
  · exact compared

omit [DecidableEq Identity] in
theorem acceptRevision_unconverged {transaction : RevisionTransaction Identity Runtime Effect Page}
    (revision : transaction.baseRevision = session.revision)
    (text : transaction.baseSource = session.source)
    (unconverged : transaction.reuse.convergenceBoundary = none) :
    ∃ next output, session.acceptRevision transaction = .ok (next, output) ∧
      output.completion = transaction.completion ∧ output.reuse = transaction.reuse := by
  simp only [acceptRevision, unconverged, revision, text, ne_eq, not_true_eq_false, if_false]
  exact ⟨_, _, rfl, rfl, rfl⟩

omit [DecidableEq Identity] in
/-- Acceptance of a converged revision needs the accepted row it joins. -/
theorem acceptConverged_source {session next : Session Identity Runtime Effect Page}
    {transaction : RevisionTransaction Identity Runtime Effect Page}
    {prior : BoundaryLane Identity Runtime} {convergence : BoundaryKey}
    (accepted : session.acceptConverged transaction prior convergence = .ok next) :
    ∃ source, transaction.convergenceSourceBoundary = some source := by
  simp only [acceptConverged, ExceptLib.bind_eq_ok] at accepted
  obtain ⟨edit, _, restart, _, source, found, _⟩ := accepted
  exact ⟨source, expect_eq_ok found⟩

/-- A converged candidate is never accepted as its own output: acceptance
fails, or rows of the previous output are adopted. -/
theorem not_acceptsOwnOutput_of_converged {candidate : RevisionCandidate Identity Runtime}
    {completed : CandidateCompletion Identity Effect Page} {lane : BoundaryLane Identity Runtime}
    {convergence : BoundaryKey} (accepted : session.priorGeneration.isSome = true)
    (converged : (session.decideConvergence candidate completed).convergenceBoundary =
      some convergence) : ¬ session.AcceptsOwnOutput candidate completed lane := by
  rintro ⟨transaction, next, output, prepared, acceptance, _, noneAdopted⟩
  obtain ⟨prior, priorGeneration⟩ := Option.isSome_iff_exists.mp accepted
  cases pair : session.convergencePair candidate.plan completed
      (session.decideConvergence candidate completed) with
  | none =>
    simp only [prepareRevisionCandidate, pair, pure, Except.pure, Except.ok.injEq] at prepared
    subst prepared
    simp only [acceptRevision, converged, priorGeneration] at acceptance
    split at acceptance
    · contradiction
    split at acceptance
    · contradiction
    obtain ⟨accepted, joined, _⟩ := ExceptLib.bind_eq_ok.mp acceptance
    obtain ⟨source, found⟩ := acceptConverged_source joined
    contradiction
  | some found => ?_
  obtain ⟨newRecord, oldIndex, oldRecord⟩ := found
  have adopted : transaction.reuse.suffixesAdopted = session.history.length - oldIndex := by
    simp only [prepareRevisionCandidate, pair] at prepared
    split at prepared
    · cases prepared
      rfl
    split at prepared
    · contradiction
    cases prepared
    rfl
  have bound := (List.getElem?_eq_some_iff.mp (convergencePair_index pair)).1
  have reuse : output.reuse = transaction.reuse := by
    simp only [acceptRevision, bind, Except.bind] at acceptance
    split at acceptance
    · contradiction
    split at acceptance
    · contradiction
    split at acceptance
    · split at acceptance
      · contradiction
      cases acceptance
      rfl
    cases acceptance
    rfl
  rw [reuse, adopted] at noneAdopted
  omega

theorem acceptsOwnOutput_of_unconverged {candidate : RevisionCandidate Identity Runtime}
    {completed : CandidateCompletion Identity Effect Page} {lane : BoundaryLane Identity Runtime}
    (revision : candidate.plan.baseRevision = session.revision)
    (text : candidate.plan.baseSource = session.source)
    (unconverged : (session.decideConvergence candidate completed).convergenceBoundary = none) :
    session.AcceptsOwnOutput candidate completed lane := by
  have pair := @convergencePair_none _ _ _ _ _ session candidate.plan completed _ unconverged
  have prepared : ∃ transaction,
      session.prepareRevisionCandidate candidate completed lane = .ok transaction ∧
        transaction.baseRevision = session.revision ∧ transaction.baseSource = session.source ∧
        transaction.completion = completed.completion ∧
        transaction.reuse.convergenceBoundary = none ∧ transaction.reuse.suffixesAdopted = 0 := by
    rw [prepareRevisionCandidate, pair]
    exact ⟨_, rfl, revision, text, rfl, unconverged,
      decideConvergence_suffixesAdopted session candidate completed⟩
  obtain ⟨transaction, prepared, revision, text, own, unconverged, noneAdopted⟩ := prepared
  obtain ⟨next, output, accepted, completion, reuse⟩ :=
    acceptRevision_unconverged revision text unconverged
  exact ⟨transaction, next, output, prepared, accepted, completion.trans own, reuse ▸ noneAdopted⟩

/-- A candidate with unchanged text is accepted with its own output exactly
when nothing in the two histories leads to reuse. -/
theorem unchanged_text_accepts_own_iff
    {plan : CandidatePlan} (completed : CandidateCompletion Identity Effect Page)
    (lane : BoundaryLane Identity Runtime) (accepted : session.priorGeneration.isSome = true)
    (unchanged : session.UnchangedTextPlan plan) :
    session.AcceptsOwnOutput (session.candidate plan) completed lane ↔
      session.nothingReused (session.candidate plan) completed.history = true := by
  obtain ⟨warm, baseText, text, revision⟩ := unchanged.fields
  obtain ⟨path, source, baseSource, baseRevision⟩ := session.candidate_plan_fields plan
  have decided := @decideConvergence_none_iff _ _ _ _ _ session (session.candidate plan) completed
    (path ▸ warm) (by rw [baseSource, source, baseText, text])
  rw [← decided]
  cases convergence :
      (session.decideConvergence (session.candidate plan) completed).convergenceBoundary with
  | none =>
    simp only [iff_true]
    exact acceptsOwnOutput_of_unconverged (baseRevision.trans revision)
      (baseSource.trans baseText) convergence
  | some key =>
    simp only [reduceCtorEq, iff_false]
    exact not_acceptsOwnOutput_of_converged accepted convergence

def boundaryRow (position : Nat) (boundary : EngineBoundary) (effects identity : Nat) :
    BoundaryRecord Nat where
  revision := 1
  key := { position := position, boundary := boundary, ordinal := 0 }
  effectPrefix := effects
  artifactPrefix := 0
  reachableStateIdentity := some identity
  directConvergenceSource := none

def jobStartSession : Session Nat Unit Nat Nat where
  revision := 1
  source := [65]
  registeredInputs := [("chapter", [66])]
  recordBytes := 1
  checkpointBudget := 100
  history := [boundaryRow 0 .jobStart 0 7]
  priorGeneration := some .empty
  acceptedCompletion := some { effectBase := 0, effects := [1], pages := [⟨10, []⟩] }

def jobStartRerun : CandidateCompletion Nat Nat Nat where
  completion := { effectBase := 0, effects := [2], pages := [⟨20, []⟩] }
  history := [boundaryRow 0 .jobStart 0 7]

def paragraphSession : Session Nat Unit Nat Nat where
  revision := 1
  source := [65, 10, 66, 10]
  registeredInputs := [("chapter", [66])]
  recordBytes := 1
  checkpointBudget := 100
  history :=
    [boundaryRow 0 .jobStart 0 7, boundaryRow 2 .outerParagraphEnd 1 8,
      boundaryRow 4 .outerParagraphEnd 2 9]
  priorGeneration := some
    { nextRecord := 1
      ownership := .accepted
        [{ record := 0
           evidence :=
             { revision := 1
               position := 2
               boundary := .outerParagraphEnd
               ordinal := 0
               effectPrefix := 1
               artifactPrefix := 0
               reachableStateIdentity := some 8 }
           checkpoint := some
             { boundary := .outerParagraphEnd
               rootAnchor := 2
               effectPrefixLen := 1
               artifactPrefixLen := 0
               reachableStateIdentity := some 8
               retention := { sharedOwners := [], checkpointMetadataBytes := 1 }
               runtime := () } }]
      protectedRecord := none }
  acceptedCompletion := some { effectBase := 0, effects := [1, 2, 3], pages := [] }

/-- A rerun behind the first paragraph that meets the second one in another
state is accepted with its own output. -/
theorem unchanged_text_accepts_own_after_first_paragraph :
    paragraphSession.AcceptsOwnOutput
      (paragraphSession.candidate
        (paragraphSession.advancePlan 2 ⟨2, 3, [66], by decide⟩ .slowEdit))
      { completion := { effectBase := 0, effects := [1, 5, 6], pages := [] }
        history := [boundaryRow 4 .outerParagraphEnd 2 10] }
      .empty :=
  (unchanged_text_accepts_own_iff _ .empty rfl (.advance (.inl rfl) rfl)).mpr (by decide)

/-- The rerun of an external input delta stops at an internal expectation. -/
theorem external_input_delta_violates_expectation :
    ¬ jobStartSession.AcceptsOwnOutput
        (jobStartSession.candidate jobStartSession.externalInputDeltaPlan) jobStartRerun .empty ∧
      (do
        let transaction ← jobStartSession.prepareRevisionCandidate
          (jobStartSession.candidate jobStartSession.externalInputDeltaPlan) jobStartRerun .empty
        let (_, output) ← jobStartSession.acceptRevision transaction
        return output.completion.effects) =
        .error (.expectation "an editor convergence owns its revision map") := by
  refine ⟨?_, rfl⟩
  rintro ⟨transaction, next, output, prepared, accepted, _⟩
  have run : jobStartSession.prepareRevisionCandidate
      (jobStartSession.candidate jobStartSession.externalInputDeltaPlan) jobStartRerun .empty >>=
        jobStartSession.acceptRevision =
          .error (.expectation "an editor convergence owns its revision map") := rfl
  rw [prepared, ExceptLib.ok_bind, accepted] at run
  contradiction

end Session

end Umber.Incr
