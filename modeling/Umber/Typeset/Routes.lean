import Umber.Typeset.PassProperties

/-! The break sequences of a paragraph, independent of the search for them. -/

set_option autoImplicit false

namespace Umber.Typeset

open ExceptLib

structure RouteEnd where
  site : Option Nat
  line : Nat
  fitness : Fitness
  hyphenated : Bool
  demerits : Int

namespace RouteEnd

def start : RouteEnd :=
  { site := none, line := 0, fitness := .decent, hyphenated := false, demerits := 0 }

def candidate (route : RouteEnd) : Candidate :=
  { Candidate.initial with breakSite := route.site, line := route.line }

end RouteEnd

namespace Pass

variable {pass : Pass} {limit : Int} {index : Nat} {breaks : List Nat} {route : RouteEnd}
  {site : Breakpoint}

def extend (pass : Pass) (route : RouteEnd) (index : Nat) (site : Breakpoint) (score : LineScore) :
    RouteEnd :=
  { site := some index
    line := route.line + 1
    fitness := score.fitness
    hyphenated := site.hyphenated
    demerits :=
      route.demerits +
        lineDemerits pass.params route.hyphenated route.fitness (min score.badness infBad)
          site.penalty score.fitness site (pass.terminal site) }

/-- A sequence of breaks among the first breakpoints. A line may pass a breakpoint
that is not forced and where it is not overfull, and may end where a break is
allowed and its badness is within the limit. -/
inductive Follows (pass : Pass) (limit : Int) : Nat → List Nat → RouteEnd → Prop where
  | start : Follows pass limit 0 [] .start
  | passes {index : Nat} {breaks : List Nat} {route : RouteEnd} {site : Breakpoint}
      {score : LineScore} (followed : Follows pass limit index breaks route)
      (found : pass.tape.breakSites[index]? = some site)
      (scoring : pass.scoreLine route.candidate site = .ok score) (stays : score.badness ≤ infBad)
      (optional : forced site = false) : Follows pass limit (index + 1) breaks route
  | breaks {index : Nat} {breaks : List Nat} {route : RouteEnd} {site : Breakpoint}
      {score : LineScore} (followed : Follows pass limit index breaks route)
      (found : pass.tape.breakSites[index]? = some site)
      (scoring : pass.scoreLine route.candidate site = .ok score)
      (open_ : site.penalty < infPenalty) (within : score.badness ≤ limit) :
      Follows pass limit (index + 1) (breaks ++ [index]) (pass.extend route index site score)

def Sequence (pass : Pass) (limit : Int) (breaks : List Nat) (total : Int) : Prop :=
  ∃ route, pass.Follows limit pass.tape.breakSites.length breaks route ∧ route.demerits = total

def Feasible (pass : Pass) (breaks : List Nat) (total : Int) : Prop :=
  pass.Sequence (min pass.tolerance infBad) breaks total

theorem Follows.mono {more : Int} (le : limit ≤ more)
    (followed : pass.Follows limit index breaks route) : pass.Follows more index breaks route := by
  induction followed with
  | start => exact .start
  | passes _ found scoring stays optional ih => exact .passes ih found scoring stays optional
  | breaks _ found scoring open_ within ih =>
    exact .breaks ih found scoring open_ (Int.le_trans within le)

theorem Feasible.sequence {total : Int} (feasible : pass.Feasible breaks total) :
    pass.Sequence pass.tolerance breaks total := by
  obtain ⟨route, followed, same⟩ := feasible
  exact ⟨route, followed.mono (Int.min_le_left ..), same⟩

theorem Follows.site_lt (followed : pass.Follows limit index breaks route) {last : Nat}
    (ended : route.site = some last) : last < index := by
  induction followed with
  | start => cases ended
  | passes _ _ _ _ _ ih => exact Nat.lt_succ_of_lt (ih ended)
  | breaks =>
    cases ended
    exact Nat.lt_succ_self _

def hyphenatedAt (pass : Pass) (last : Option Nat) : Bool :=
  (last.bind fun index => pass.tape.breakSites[index]?).any Breakpoint.hyphenated

theorem Follows.hyphenated (followed : pass.Follows limit index breaks route) :
    route.hyphenated = pass.hyphenatedAt route.site := by
  induction followed with
  | start => rfl
  | passes _ _ _ _ _ ih => exact ih
  | breaks _ found =>
    unfold hyphenatedAt extend
    simp only [Option.bind_some, found, Option.any_some]

/-! ## Enumerating the sequences -/

def followAt (pass : Pass) (limit : Int) (index : Nat) (site : Breakpoint)
    (taken : List Nat × RouteEnd) : List (List Nat × RouteEnd) :=
  (pass.scoreLine taken.2.candidate site).toOption.toList.flatMap fun score =>
    (if score.badness ≤ infBad ∧ forced site = false then [taken] else []) ++
      if site.penalty < infPenalty ∧ score.badness ≤ limit then
        [(taken.1 ++ [index], pass.extend taken.2 index site score)]
      else []

def follow (pass : Pass) (limit : Int) : Nat → List (List Nat × RouteEnd)
  | 0 => [([], .start)]
  | index + 1 =>
    pass.tape.breakSites[index]?.toList.flatMap fun site =>
      (pass.follow limit index).flatMap (pass.followAt limit index site)

theorem Follows.mem_follow (followed : pass.Follows limit index breaks route) :
    (breaks, route) ∈ pass.follow limit index := by
  induction followed with
  | start => exact List.mem_cons_self
  | @passes index breaks route site score _ found scoring stays optional ih =>
    refine List.mem_flatMap.mpr ⟨site, by simp [found], List.mem_flatMap.mpr ⟨_, ih, ?_⟩⟩
    refine List.mem_flatMap.mpr ⟨score, by simp [scoring, Except.toOption], ?_⟩
    rw [if_pos ⟨stays, optional⟩]
    exact List.mem_append_left _ List.mem_cons_self
  | @breaks index breaks route site score _ found scoring open_ within ih => ?_
  refine List.mem_flatMap.mpr ⟨site, by simp [found], List.mem_flatMap.mpr ⟨_, ih, ?_⟩⟩
  refine List.mem_flatMap.mpr ⟨score, by simp [scoring, Except.toOption], ?_⟩
  refine List.mem_append_right _ ?_
  rw [if_pos ⟨open_, within⟩]
  exact List.mem_cons_self

theorem Follows.index_le (followed : pass.Follows limit index breaks route) :
    index ≤ pass.tape.breakSites.length := by
  cases followed with
  | start => exact Nat.zero_le _
  | passes _ found => exact (List.getElem?_eq_some_iff.mp found).1
  | breaks _ found => exact (List.getElem?_eq_some_iff.mp found).1

/-- No sum of demerits reaches the bounds at which the search clamps it. -/
def Unclamped (pass : Pass) : Prop :=
  ∀ index breaks route, pass.Follows pass.tolerance index breaks route →
    -1073741824 < route.demerits ∧ route.demerits < awfulBad

theorem unclamped_of_follow
    (checked : (List.range (pass.tape.breakSites.length + 1)).all (fun index =>
      (pass.follow pass.tolerance index).all fun taken =>
        decide (-1073741824 < taken.2.demerits) && decide (taken.2.demerits < awfulBad)) = true) :
    pass.Unclamped := by
  intro index breaks route followed
  have inside := List.mem_range.mpr (Nat.lt_succ_of_le followed.index_le)
  have here := List.all_eq_true.mp (List.all_eq_true.mp checked index inside) _ followed.mem_follow
  simp only [Bool.and_eq_true, decide_eq_true_eq] at here
  exact here

end Pass

end Umber.Typeset
