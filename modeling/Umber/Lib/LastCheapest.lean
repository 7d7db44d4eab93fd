/-! The latest of the cheapest places of a search that looks at one place after the other. -/

set_option autoImplicit false

/-- Of the places before a bound that have a cost, the best one has the least cost, and the ones
behind it cost more. -/
structure LastCheapest (cost : Nat → Option Int) (bound best : Nat) (least : Int) : Prop where
  within : best < bound
  found : cost best = some least
  below : ∀ place < bound, ∀ price, cost place = some price → least ≤ price
  behind : ∀ place < bound, best < place → ∀ price, cost place = some price → least < price

namespace LastCheapest

variable {cost : Nat → Option Int} {bound best : Nat} {least price : Int}

theorem skip (cheapest : LastCheapest cost bound best least) (free : cost bound = none) :
    LastCheapest cost (bound + 1) best least := by
  refine ⟨Nat.lt_succ_of_lt cheapest.within, cheapest.found, fun place inside other found => ?_,
    fun place inside after other found => ?_⟩
  all_goals
    rcases Nat.lt_succ_iff_lt_or_eq.mp inside with earlier | rfl
  · exact cheapest.below place earlier other found
  · rw [free] at found
    cases found
  · exact cheapest.behind place earlier after other found
  rw [free] at found
  cases found

theorem keep (cheapest : LastCheapest cost bound best least) (here : cost bound = some price)
    (dearer : least < price) : LastCheapest cost (bound + 1) best least := by
  refine ⟨Nat.lt_succ_of_lt cheapest.within, cheapest.found, fun place inside other found => ?_,
    fun place inside after other found => ?_⟩
  all_goals
    rcases Nat.lt_succ_iff_lt_or_eq.mp inside with earlier | rfl
  · exact cheapest.below place earlier other found
  · cases here.symm.trans found
    exact Int.le_of_lt dearer
  · exact cheapest.behind place earlier after other found
  cases here.symm.trans found
  exact dearer

/-- A place that is no dearer than all before it is the new best one. -/
theorem take (here : cost bound = some price)
    (cheaper : ∀ place < bound, ∀ other, cost place = some other → price ≤ other) :
    LastCheapest cost (bound + 1) bound price := by
  refine ⟨Nat.lt_succ_self bound, here, fun place inside other found => ?_,
    fun place inside after => ?_⟩
  · rcases Nat.lt_succ_iff_lt_or_eq.mp inside with earlier | rfl
    · exact cheaper place earlier other found
    cases here.symm.trans found
    exact Int.le_refl price
  · exact absurd after (Nat.not_lt.mpr (Nat.le_of_lt_succ inside))

end LastCheapest
