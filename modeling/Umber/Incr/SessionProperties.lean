import Umber.Incr.Session
import Umber.Lib.Except

/-! What a session promises about the candidates it starts and the convergence
decisions it takes. -/

set_option autoImplicit false

namespace Umber.Incr

section

/-! ## The rows of a spliced completion -/

variable {Effect Page : Type}

theorem rebaseOpenOutSuffix_artifact {page next : DetachedPreparedPage Page}
    {oldEffects newEffects : Nat} (rebased : page.rebaseOpenOutSuffix oldEffects newEffects = .ok next) :
    next.artifact = page.artifact := by
  simp only [DetachedPreparedPage.rebaseOpenOutSuffix] at rebased
  split at rebased
  next => contradiction
  split at rebased
  next => contradiction
  obtain ⟨occurrences, _, result⟩ := ExceptLib.bind_eq_ok.mp rebased
  cases result
  rfl

theorem mapM_rebaseOpenOutSuffix_artifact {pages next : List (DetachedPreparedPage Page)}
    {oldEffects newEffects : Nat}
    (rebased : pages.mapM (fun page => page.rebaseOpenOutSuffix oldEffects newEffects) = .ok next) :
    next.map (·.artifact) = pages.map (·.artifact) := by
  induction pages generalizing next with
  | nil =>
    cases rebased
    rfl
  | cons page pages ih => ?_
  rw [List.mapM_cons] at rebased
  obtain ⟨first, one, rest⟩ := ExceptLib.bind_eq_ok.mp rebased
  obtain ⟨later, many, result⟩ := ExceptLib.bind_eq_ok.mp rest
  cases result
  rw [List.map_cons, List.map_cons, rebaseOpenOutSuffix_artifact one, ih many]

/-- A spliced completion keeps the new rows before the convergence point and the
retained ones behind it. -/
theorem spliceRetainedSuffix_rows {completion retained spliced : DetachedEngineCompletion Effect Page}
    {newEffectPrefix oldEffectPrefix newArtifactPrefix oldArtifactPrefix : Nat}
    (joined : completion.spliceRetainedSuffix retained newEffectPrefix oldEffectPrefix
      newArtifactPrefix oldArtifactPrefix = .ok spliced) :
    spliced.effectBase = completion.effectBase ∧
      spliced.effects = completion.effects.take (newEffectPrefix - completion.effectBase) ++
        retained.effects.drop (oldEffectPrefix - retained.effectBase) ∧
      spliced.pages.map (·.artifact) = (completion.pages.take newArtifactPrefix ++
          retained.pages.drop oldArtifactPrefix).map (·.artifact) := by
  obtain ⟨adopted, rebased, result⟩ := ExceptLib.bind_eq_ok.mp joined
  cases result
  refine ⟨rfl, ?_, ?_⟩
  · rw [← List.take_eq_take_min, ← List.drop_eq_drop_min]
  rw [List.map_append, List.map_append, mapM_rebaseOpenOutSuffix_artifact rebased]
  rw [← List.take_eq_take_min, ← List.drop_eq_drop_min]

end

theorem expect_eq_ok {α : Type} {value : Option α} {message : String} {result : α}
    (found : expect value message = .ok result) : value = some result := by
  cases value with
  | none => cases found
  | some value =>
    cases found
    rfl

namespace Session

variable {Identity Runtime Effect Page : Type}

theorem candidate_plan_fields (session : Session Identity Runtime Effect Page)
    (plan : CandidatePlan) : (session.candidate plan).plan.executionPath = plan.executionPath ∧
      (session.candidate plan).plan.source = plan.source ∧
      (session.candidate plan).plan.baseSource = plan.baseSource ∧
      (session.candidate plan).plan.baseRevision = plan.baseRevision := by
  unfold candidate
  split <;> exact ⟨rfl, rfl, rfl, rfl⟩

theorem candidate_comparisonHistory (session : Session Identity Runtime Effect Page)
    (plan : CandidatePlan) : (session.candidate plan).comparisonHistory = session.history := by
  unfold candidate
  split <;> rfl

variable {session : Session Identity Runtime Effect Page} {plan : CandidatePlan}

/-- What a session promises about a rooted candidate it starts. -/
theorem candidate_rooted {first : Nat}
    (started : (session.candidate plan).comparisonStart = some first) :
    ∃ selected checkpoint forked, session.selectRestart plan = some (selected, checkpoint, forked) ∧
      (session.candidate plan).plan.restartBoundary = some selected.evidence.key ∧
      (session.candidate plan).lane = forked ∧
      ∃ inherited, (session.candidate plan).inheritedBoundary = some inherited ∧
        inherited.publishRecord = false := by
  unfold candidate at started ⊢
  cases selection : session.selectRestart plan with
  | none => simp [selection] at started
  | some found => ?_
  obtain ⟨selected, checkpoint, forked⟩ := found
  simp only [selection] at started ⊢
  refine ⟨selected, checkpoint, forked, rfl, rfl, rfl, _, rfl, ?_⟩
  cases index : session.history.findIdx? fun record => record.key = selected.evidence.key with
  | none => simp [index] at started
  | some place => ?_
  obtain ⟨record, present, same⟩ :=
    List.findIdx?_eq_some_iff_getElem.mp index |> fun ⟨bound, same, _⟩ =>
      (⟨_, List.getElem_mem bound, same⟩ : ∃ record ∈ session.history,
        decide (record.key = selected.evidence.key) = true)
  simp only [Bool.not_eq_false', List.any_eq_true]
  exact ⟨record, present, same⟩

/-- Only a slow edit restarts from a retained row. -/
theorem advancePlan_warm {nextRevision : Nat} {edit : Edit} {path : RevisionExecutionPath}
    {selection : BoundaryCell Identity Runtime × EngineCheckpoint Identity Runtime ×
      BoundaryLane Identity Runtime}
    (selected : session.selectRestart (session.advancePlan nextRevision edit path) =
      some selection) : (session.advancePlan nextRevision edit path).executionPath ≠ .cold := by
  simp only [selectRestart, Option.bind_eq_bind, Option.bind_eq_some_iff] at selected
  obtain ⟨_, _, limit, limited, _⟩ := selected
  intro cold
  simp only [advancePlan] at cold limited
  simp [cold] at limited

variable [DecidableEq Identity]

theorem convergencePair_none {session : Session Identity Runtime Effect Page}
    {plan : CandidatePlan} {completed : CandidateCompletion Identity Effect Page}
    {reuse : ReuseMetrics} (unconverged : reuse.convergenceBoundary = none) :
    session.convergencePair plan completed reuse = none := by
  simp [convergencePair, unconverged]

/-- The accepted record of a convergence decision has an index in the accepted
history. -/
theorem convergencePair_index {completed : CandidateCompletion Identity Effect Page}
    {reuse : ReuseMetrics} {newRecord oldRecord : BoundaryRecord Identity} {oldIndex : Nat}
    (pair : session.convergencePair plan completed reuse = some (newRecord, oldIndex, oldRecord)) :
    session.history[oldIndex]? = some oldRecord := by
  simp only [convergencePair, convergenceSource, Option.bind_eq_bind, Option.bind_eq_some_iff,
    Option.map_eq_some_iff, Option.pure_def, Option.some.injEq, Prod.mk.injEq] at pair
  obtain ⟨_, _, _, _, _, ⟨entry, found, rfl⟩, _, rfl, rfl⟩ := pair
  exact List.mk_mem_zipIdx_iff_getElem?.mp (List.mem_of_find?_eq_some found)

end Session

end Umber.Incr
