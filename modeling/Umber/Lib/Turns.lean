/-! Loops whose turns may fail: the states in which a turn went on, and the outcome. -/

set_option autoImplicit false

namespace Turns

variable {State ε : Type}

inductive Turn (State : Type) where
  | again (next : State)
  | leave (last : State)

inductive Run (turn : State → Except ε (Turn State)) : State → List State → Except ε State → Prop
  | failed {state : State} {error : ε} (fails : turn state = .error error) :
      Run turn state [] (.error error)
  | left {state last : State} (leaves : turn state = .ok (.leave last)) :
      Run turn state [] (.ok last)
  | again {state next : State} {visited : List State} {outcome : Except ε State}
      (goes : turn state = .ok (.again next)) (rest : Run turn next visited outcome) :
      Run turn state (state :: visited) outcome

def Turn.proceed (loop : State → Except ε State) : Turn State → Except ε State
  | .again next => loop next
  | .leave last => .ok last

variable {turn : State → Except ε (Turn State)}
  {state : State} {visited : List State} {outcome : Except ε State}

/-- A loop with fuel for every turn has the outcome of the run. -/
theorem Run.loop_eq (loop : Nat → State → Except ε State)
    (unfolds : ∀ fuel state, loop (fuel + 1) state = turn state >>= Turn.proceed (loop fuel))
    (run : Run turn state visited outcome) {fuel : Nat} (enough : visited.length < fuel) :
    loop fuel state = outcome := by
  obtain ⟨fuel, rfl⟩ : ∃ before, fuel = before + 1 := ⟨fuel - 1, by omega⟩
  induction run generalizing fuel with
  | failed fails =>
    rw [unfolds, fails]
    rfl
  | left leaves =>
    rw [unfolds, leaves]
    rfl
  | again goes rest ih => ?_
  rw [List.length_cons] at enough
  obtain ⟨before, rfl⟩ : ∃ before, fuel = before + 1 := ⟨fuel - 1, by omega⟩
  rw [unfolds, goes]
  exact ih before (by omega)

theorem Run.goes_again {copy : State} (run : Run turn state visited outcome)
    (member : copy ∈ visited) : ∃ next, turn copy = .ok (.again next) := by
  induction run with
  | failed fails => cases member
  | left leaves => cases member
  | again goes rest ih => ?_
  rcases List.mem_cons.mp member with rfl | later
  · exact ⟨_, goes⟩
  · exact ih later

/-- What holds of the turn that leaves, and from each turn back, holds of the loop. -/
theorem loop_induct (motive : State → State → Prop) (loop : Nat → State → Except ε State)
    (unfolds : ∀ fuel state, loop (fuel + 1) state = turn state >>= Turn.proceed (loop fuel))
    (dry : ∀ state last, loop 0 state ≠ .ok last)
    (again : ∀ state next last, turn state = .ok (.again next) → motive next last →
      motive state last)
    (leave : ∀ state last, turn state = .ok (.leave last) → motive state last)
    {fuel : Nat} {state last : State} (looped : loop fuel state = .ok last) :
    motive state last := by
  induction fuel generalizing state with
  | zero => exact absurd looped (dry state last)
  | succ fuel ih => ?_
  rw [unfolds] at looped
  cases turned : turn state with
  | error error =>
    rw [turned] at looped
    cases looped
  | ok result => ?_
  rw [turned] at looped
  cases result with
  | again next => exact again state next last turned (ih looped)
  | leave final =>
    cases Except.ok.inj looped
    exact leave state last turned

theorem exists_run (measure : State → Nat)
    (lowers : ∀ state next, turn state = .ok (.again next) → measure next < measure state)
    (state : State) :
    ∃ visited outcome, Run turn state visited outcome ∧ visited.length ≤ measure state := by
  induction bound : measure state using Nat.strongRecOn generalizing state with
  | ind bound ih => ?_
  subst bound
  cases turned : turn state with
  | error error => exact ⟨[], _, .failed turned, Nat.zero_le _⟩
  | ok result => ?_
  cases result with
  | leave last => exact ⟨[], _, .left turned, Nat.zero_le _⟩
  | again next => ?_
  have lower := lowers state next turned
  obtain ⟨visited, outcome, rest, short⟩ := ih _ lower next rfl
  exact ⟨state :: visited, outcome, .again turned rest,
    Nat.succ_le_of_lt (Nat.lt_of_le_of_lt short lower)⟩

/-! ## Rows -/

/-- Positions from a start on, `size + gap` apart, as many as end at an edge or before. -/
structure Row (start size gap edge : Int) (positions : List Int) : Prop where
  placed : ∀ (index : Nat) (position : Int), positions[index]? = some position →
    position = start + index * (size + gap)
  fits : ∀ position ∈ positions, position + size ≤ edge
  apart : positions.Pairwise fun left right => left + size ≤ right
  full : edge < start + positions.length * (size + gap) + size

structure Walks (turn : State → Except ε (Turn State)) (position : State → Int)
    (size gap edge resume : Int) : Prop where
  again : ∀ state next, turn state = .ok (.again next) →
    position state + size ≤ edge ∧ position next = position state + size + gap
  leave : ∀ state last, turn state = .ok (.leave last) →
    edge < position state + size ∧ position last = resume

variable {position : State → Int} {size gap edge resume : Int}

theorem Walks.exists_run (walks : Walks turn position size gap edge resume) (positive : 0 < size)
    (nonneg : 0 ≤ gap) (state : State) : ∃ visited outcome, Run turn state visited outcome ∧
      visited.length ≤ (edge - position state).toNat :=
  Turns.exists_run (fun state => (edge - position state).toNat)
    (fun state next goes => by
      obtain ⟨fits, moved⟩ := walks.again state next goes
      omega)
    state

theorem Walks.row (walks : Walks turn position size gap edge resume) (positive : 0 < size)
    (nonneg : 0 ≤ gap) {last : State} (run : Run turn state visited (.ok last)) :
    Row (position state) size gap edge (visited.map position) ∧ position last = resume := by
  generalize ended : Except.ok last = outcome at run
  induction run with
  | failed fails => cases ended
  | left leaves =>
    cases ended
    obtain ⟨beyond, resumes⟩ := walks.leave _ _ leaves
    refine ⟨⟨fun _ _ found => ?_, fun _ member => ?_, .nil, ?_⟩, resumes⟩
    · rw [List.map_nil, List.getElem?_nil] at found
      cases found
    · cases member
    · simpa using beyond
  | @again state next visited outcome goes rest ih => ?_
  obtain ⟨row, resumes⟩ := ih ended
  obtain ⟨fits, moved⟩ := walks.again _ _ goes
  have wide : 0 ≤ size + gap := by omega
  refine ⟨⟨?_, ?_, ?_, ?_⟩, resumes⟩
  · intro index at_ found
    cases index with
    | zero =>
      cases Option.some.inj found
      rw [Int.natCast_zero, Int.zero_mul, Int.add_zero]
    | succ index => ?_
    have there := row.placed index at_ found
    rw [there, moved, Int.natCast_succ, Int.add_mul]
    omega
  · intro at_ member
    rcases List.mem_cons.mp member with rfl | member
    · exact fits
    · exact row.fits _ member
  · refine List.pairwise_cons.mpr ⟨fun at_ member => ?_, row.apart⟩
    obtain ⟨index, found⟩ := List.mem_iff_getElem?.mp member
    have there := row.placed index at_ found
    have ahead : 0 ≤ (index : Int) * (size + gap) :=
      Int.mul_nonneg (Int.natCast_nonneg _) wide
    omega
  have full := row.full
  rw [moved] at full
  rw [List.map_cons, List.length_cons, Int.natCast_succ, Int.add_mul]
  omega

/-- A row on `quotient * size + remainder` with less than `size` over holds `quotient`
positions. -/
theorem Row.count {start quotient remainder : Int} {positions : List Int}
    (row : Row start size gap edge positions) (nonneg : 0 ≤ gap) (positive : 0 < size)
    (quotientNonneg : 0 ≤ quotient) (less : remainder < size) {cur : Int}
    (extent : edge = cur + (quotient * size + remainder)) (behind : cur ≤ start)
    (margin : start - cur ≤ remainder - (quotient - 1) * gap) :
    (positions.length : Int) = quotient := by
  have wide : 0 < size + gap := by omega
  have full := row.full
  apply Int.le_antisymm
  · apply Int.not_lt.mp
    intro many
    obtain ⟨before, length⟩ : ∃ before, positions.length = before + 1 :=
      ⟨positions.length - 1, by omega⟩
    obtain ⟨last, found⟩ : ∃ last, positions[before]? = some last :=
      ⟨_, List.getElem?_eq_getElem (by omega)⟩
    have there := row.placed _ _ found
    have fits := row.fits _ (List.mem_of_getElem? found)
    have least : quotient * (size + gap) ≤ (before : Int) * (size + gap) :=
      Int.mul_le_mul_of_nonneg_right (by omega) (Int.le_of_lt wide)
    have gaps : 0 ≤ quotient * gap := Int.mul_nonneg quotientNonneg nonneg
    rw [Int.mul_add] at least
    omega
  apply Int.not_lt.mp
  intro few
  have most : (positions.length : Int) * (size + gap) ≤ (quotient - 1) * (size + gap) :=
    Int.mul_le_mul_of_nonneg_right (by omega) (Int.le_of_lt wide)
  rw [Int.mul_add (quotient - 1), Int.sub_mul quotient 1 size] at most
  omega

end Turns
