import Umber.Page.Output

/-! The best break of a page is the latest of its cheapest legal breaks. -/

set_option autoImplicit false

namespace Umber.PageBuilder

open Umber.Typeset

/-- The states of the pages of a document, with the legal breaks met so far on the page. -/
inductive PageRun : List LegalBreak → PageState → Prop where
  | start : PageRun [] (.new [])
  | contribute {log state} (nodes : List PageNode) (run : PageRun log state) :
      PageRun log (state.contribute nodes)
  | round {log state node rest params round} (run : PageRun log state)
      (quiet : state.fireUp = none) (front : state.contribution = node :: rest)
      (built : buildNode params state node rest.head? = .ok round) :
      PageRun (log ++ (legalBreak state node rest.head?).toOption.join.toList) round.state
  | output {log state params fireUp broken} (returned : List PageNode)
      (discardRewrittenBreak : Bool) (run : PageRun log state) (fired : state.fireUp = some fireUp)
      (put : prepareBox255 params state fireUp = .ok broken) :
      PageRun [] (prependOutputHeldover broken.1 returned discardRewrittenBreak)

def leastCost (log : List LegalBreak) : Int :=
  log.foldl (fun least legal => if legal.cost ≤ least then legal.cost else least)
    VerticalBreak.awfulBad

structure Cheapest (log : List LegalBreak) (choice : Choice) : Prop where
  least : choice.leastPageCost = leastCost log
  best : choice.bestPageBreak =
    (log.reverse.find? fun legal => legal.cost = leastCost log).map LegalBreak.place

structure BestOf (log : List LegalBreak) (choice : Choice) : Prop extends
    Cheapest log choice where
  fired : choice.fireUp.isSome = log.any fun legal =>
    legal.cost = VerticalBreak.awfulBad ∨ legal.penalty ≤ VerticalBreak.ejectPenalty

variable {log : List LegalBreak} {state : PageState}

theorem BestOf.visit (best : BestOf log state.choice) (legal : LegalBreak) :
    BestOf (log ++ [legal]) (state.visit legal).choice := by
  obtain ⟨⟨least, known⟩, fired⟩ := best
  replace least : state.leastPageCost = leastCost log := least
  have grown : leastCost (log ++ [legal]) =
      if legal.cost ≤ state.leastPageCost then legal.cost else state.leastPageCost := by
    rw [least]
    exact List.foldl_append
  rw [← least] at known
  have noted : Cheapest (log ++ [legal]) (state.noteBest legal).choice ∧
      (state.noteBest legal).choice.fireUp = state.choice.fireUp := by
    unfold PageState.noteBest
    split
    next cheaper =>
      rw [if_pos cheaper] at grown
      exact ⟨⟨grown.symm, by simp [grown, PageState.choice, PageState.recordBestPageBreak]⟩, rfl⟩
    next dearer =>
      rw [if_neg dearer] at grown
      have costly : legal.cost ≠ state.leastPageCost := fun same => dearer (Int.le_of_eq same)
      exact ⟨⟨grown.symm, by simpa [grown, costly] using known⟩, rfl⟩
  unfold PageState.visit
  split
  next fires =>
    refine ⟨⟨noted.1.least, noted.1.best⟩, ?_⟩
    simp [PageState.choice, PageState.recordPageFireUp, fires]
  next calm => exact ⟨noted.1, by simp [noted.2, calm, fired]⟩

/-- However a page grows, the break recorded is the last one of least cost among those met. -/
theorem bestPageBreak_latest_cheapest (run : PageRun log state) :
    BestOf log state.choice ∧ (state.hasBox = false → log = []) := by
  induction run with
  | start => exact ⟨⟨⟨rfl, rfl⟩, rfl⟩, fun _ => rfl⟩
  | contribute nodes run ih => exact ih
  | output returned discardRewrittenBreak run fired put ih =>
    exact ⟨⟨⟨rfl, rfl⟩, rfl⟩, fun _ => rfl⟩
  | @round log state node rest params round run quiet front built ih => ?_
  have turned := buildNode_turned front quiet _ built
  have unmet (bare : state.hasBox = false) :
      log ++ (legalBreak state node rest.head?).toOption.join.toList = [] := by
    rw [ih.2 bare, legalBreak, show breakPenalty state node _ = none from if_pos bare]
    rfl
  refine ⟨?_, fun after => unmet (Bool.eq_false_iff.mpr fun boxed =>
    absurd (turned.boxed boxed) (Bool.eq_false_iff.mp after))⟩
  rcases turned.decided with ⟨bare, unset⟩ | ⟨_, ⟨legal, seen, rfl⟩, chosen⟩
  · rw [unmet bare, unset]
    exact ⟨⟨rfl, rfl⟩, rfl⟩
  rw [chosen, seen]
  cases legal with
  | none => exact (List.append_nil log).symm ▸ ih.1
  | some legal => exact ih.1.visit legal

def plainPage : PageParams :=
  ⟨9, 0, .zero, 0, fun _ => 0, fun _ => 0, fun _ => .zero, fun _ => none⟩

theorem bestPageBreak_of_penalty : ∃ log, ∃ state : PageState, log.map LegalBreak.place = [2] ∧
    BestOf log state.choice ∧ (state.hasBox = false → log = []) :=
  ⟨_, _, rfl, bestPageBreak_latest_cheapest (
    @PageRun.round _ _ _ _ plainPage _ (@PageRun.round _ _ _ _ plainPage _ (
      @PageRun.round _ _ _ _ plainPage _ (@PageRun.round _ _ _ _ plainPage _ (
        .contribute [.rule (some 9) none, .penalty 5] .start) rfl rfl rfl) rfl rfl rfl)
      rfl rfl rfl) rfl rfl rfl)⟩

end Umber.PageBuilder
