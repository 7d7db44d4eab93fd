import Umber.Incr.History

/-! What the comparison of two histories reports. -/

set_option autoImplicit false

namespace Umber.Incr

variable {Identity : Type} [DecidableEq Identity]

/-- The pairs a comparison looks at: it stops at the first pair whose keys do
not agree. -/
def alignedPairs (edit : Option RevisionEditMap) :
    List (BoundaryRecord Identity) → List (BoundaryRecord Identity) →
      List (BoundaryRecord Identity × BoundaryRecord Identity)
  | old :: olds, new :: news =>
    if mappedKey edit old.key = some new.key then (old, new) :: alignedPairs edit olds news
    else []
  | [], _ => []
  | _ :: _, [] => []

def convergedPair (edit : Option RevisionEditMap) (old new : List (BoundaryRecord Identity)) :
    Option (BoundaryRecord Identity × BoundaryRecord Identity) :=
  (alignedPairs edit old new).find? fun pair => recordsConverge pair.1 pair.2

theorem walkHistories_eq (edit : Option RevisionEditMap) (old new : List (BoundaryRecord Identity))
    (walk : HistoryWalk) : (walkHistories edit old new walk).attempts =
        walk.attempts + (alignedPairs edit old new).length ∧
      (walkHistories edit old new walk).convergence =
        (walk.convergence <|> (convergedPair edit old new).map (·.2.key)) := by
  induction old generalizing new walk with
  | nil => simp [walkHistories, alignedPairs, convergedPair]
  | cons old olds ih => ?_
  cases new with
  | nil => simp [walkHistories, alignedPairs, convergedPair]
  | cons new news => ?_
  simp only [walkHistories]
  cases mapped : mappedKey edit old.key with
  | none => simp [alignedPairs, convergedPair, mapped]
  | some key => ?_
  by_cases same : key = new.key
  · subst same
    have aligned : alignedPairs edit (old :: olds) (new :: news) =
        (old, new) :: alignedPairs edit olds news := by
      simp [alignedPairs, mapped]
    simp only [ne_eq, not_true_eq_false, if_false]
    split
    next converge =>
      obtain ⟨attempts, convergence⟩ := ih news
        { walk with
          attempts := walk.attempts + 1
          convergence := walk.convergence <|> some new.key }
      have first : convergedPair edit (old :: olds) (new :: news) = some (old, new) := by
        simp [convergedPair, aligned, converge]
      rw [attempts, convergence, first, aligned]
      constructor
      · simp only [List.length_cons]
        omega
      · cases walk.convergence <;> simp
    rename_i differ
    obtain ⟨attempts, convergence⟩ := ih news
      { walk with
        attempts := walk.attempts + 1
        mismatches := walk.mismatches + 1 }
    have later : convergedPair edit (old :: olds) (new :: news) =
        convergedPair edit olds news := by
      simp [convergedPair, aligned, differ]
    rw [attempts, convergence, later, aligned]
    constructor
    · simp only [List.length_cons]
      omega
    · rfl
  have unaligned : alignedPairs edit (old :: olds) (new :: news) = [] := by
    simp [alignedPairs, mapped, same]
  simp [convergedPair, unaligned, same]

/-- A comparison reports the first aligned pair that converges, and how many
pairs were aligned. -/
theorem compareHistories_eq {comparison : HistoryComparison Identity}
    (warm : comparison.executionPath ≠ .cold) : (compareHistories comparison).convergenceBoundary =
        (convergedPair comparison.edit comparison.old comparison.new).map (·.2.key) ∧
      (compareHistories comparison).sameHistoryAttempts =
        (alignedPairs comparison.edit comparison.old comparison.new).length := by
  obtain ⟨attempts, convergence⟩ :=
    walkHistories_eq comparison.edit comparison.old comparison.new .start
  by_cases empty : comparison.old = []
  · have unaligned : alignedPairs comparison.edit comparison.old comparison.new = [] := by
      simp [empty, alignedPairs]
    simp [compareHistories, empty, convergedPair, alignedPairs]
  simp only [compareHistories, warm, empty, or_self, if_false]
  rw [attempts, convergence]
  exact ⟨by simp [HistoryWalk.start], by simp [HistoryWalk.start]⟩

theorem compareHistories_suffixesAdopted (comparison : HistoryComparison Identity) :
    (compareHistories comparison).suffixesAdopted = 0 := by
  unfold compareHistories
  split <;> rfl

end Umber.Incr
