/-! Logs of displaced values over a map of live cells: exchanging a log backwards
and forwards. -/

set_option autoImplicit false

namespace UndoLog

variable {κ α : Type} [DecidableEq κ]

def put (live : κ → Option α) (cell : κ) (value : α) : κ → Option α :=
  fun other => if other = cell then some value else live other

@[simp] theorem put_same (live : κ → Option α) (cell : κ) (value : α) :
    put live cell value cell = some value := if_pos rfl

variable {cell other : κ}

theorem put_other (live : κ → Option α) (value : α) (apart : other ≠ cell) :
    put live cell value other = live other := if_neg apart

theorem put_put_self {live : κ → Option α} {displaced : α} (found : live cell = some displaced)
    (value : α) : put (put live cell value) cell displaced = live := by
  funext other
  by_cases same : other = cell
  · subst same
    rw [put_same, found]
  · rw [put_other _ _ same, put_other _ _ same]

def oldest : List (κ × α) → κ → Option α
  | [], _ => none
  | entry :: later, cell => if entry.1 = cell then some entry.2 else oldest later cell

def rewound (log : List (κ × α)) (live : κ → Option α) (cell : κ) : Option α :=
  match oldest log cell with
  | some value => some value
  | none => live cell

theorem rewound_nil (live : κ → Option α) : rewound [] live = live := rfl

theorem rewound_cons (entry : κ × α) (later : List (κ × α)) (live : κ → Option α) :
    rewound (entry :: later) live = put (rewound later live) entry.1 entry.2 := by
  funext cell
  by_cases same : entry.1 = cell
  · simp only [rewound, oldest, put, if_pos same, if_pos same.symm]
  · simp only [rewound, oldest, put, if_neg same, if_neg (Ne.symm same)]

theorem rewound_append (log later : List (κ × α)) (live : κ → Option α) :
    rewound (log ++ later) live = rewound log (rewound later live) := by
  induction log with
  | nil => rfl
  | cons entry rest ih => rw [List.cons_append, rewound_cons, ih, rewound_cons]

/-- A cell the log does not name keeps its live value. -/
theorem rewound_unnamed {log : List (κ × α)} (live : κ → Option α)
    (unnamed : ∀ entry ∈ log, entry.1 ≠ cell) : rewound log live cell = live cell := by
  induction log with
  | nil => rfl
  | cons entry later ih =>
    rw [rewound_cons, put_other _ _ (Ne.symm (unnamed entry List.mem_cons_self)),
      ih fun other member => unnamed other (List.mem_cons_of_mem _ member)]

/-- A cell the log names does not depend on its live value. -/
theorem rewound_named {log : List (κ × α)} (named : ∃ entry ∈ log, entry.1 = cell)
    (live other : κ → Option α) : rewound log live cell = rewound log other cell := by
  induction log with
  | nil =>
    obtain ⟨_, member, _⟩ := named
    cases member
  | cons entry later ih => ?_
  rw [rewound_cons, rewound_cons]
  by_cases same : cell = entry.1
  · rw [same, put_same, put_same]
  rw [put_other _ _ same, put_other _ _ same]
  obtain ⟨found, member, cells⟩ := named
  rcases List.mem_cons.mp member with rfl | inner
  · exact absurd cells.symm same
  · exact ih ⟨found, inner, cells⟩

theorem rewound_congr (log : List (κ × α)) {live other : κ → Option α}
    (same : live cell = other cell) : rewound log live cell = rewound log other cell := by
  unfold rewound
  rw [same]

/-- A log that displaced a cell rewinds it, whatever was written there. -/
theorem rewound_concat_put (log : List (κ × α)) {live : κ → Option α} {displaced : α}
    (found : live cell = some displaced) (value : α) :
    rewound (log ++ [(cell, displaced)]) (put live cell value) = rewound log live := by
  rw [rewound_append, rewound_cons, rewound_nil, put_put_self found]

/-- Writing a cell the log names does not show when it is rewound. -/
theorem rewound_put_named {log : List (κ × α)} (named : ∃ entry ∈ log, entry.1 = cell)
    (live : κ → Option α) (value : α) : rewound log (put live cell value) = rewound log live := by
  funext other
  by_cases same : other = cell
  · subst same
    exact rewound_named named _ _
  · exact rewound_congr log (put_other live value same)

theorem rewound_put_other (log : List (κ × α)) (live : κ → Option α) (value : α)
    (apart : other ≠ cell) : rewound log (put live cell value) other = rewound log live other :=
  rewound_congr log (put_other live value apart)

variable {value : α}

/-- A rewound value is one the log keeps or the live one. -/
theorem rewound_eq_some {log : List (κ × α)} {live : κ → Option α}
    (found : rewound log live cell = some value) :
    (∃ entry ∈ log, entry.2 = value) ∨ live cell = some value := by
  induction log with
  | nil => exact .inr found
  | cons entry later ih => ?_
  rw [rewound_cons] at found
  by_cases same : cell = entry.1
  · rw [same, put_same] at found
    exact .inl ⟨entry, List.mem_cons_self, Option.some.inj found⟩
  rw [put_other _ _ same] at found
  rcases ih found with ⟨kept, member, equal⟩ | here
  · exact .inl ⟨kept, List.mem_cons_of_mem _ member, equal⟩
  · exact .inr here

/-- More live cells do not change what was rewound. -/
theorem rewound_mono {log : List (κ × α)} {live other : κ → Option α}
    (extends_ : live cell = some value → other cell = some value)
    (found : rewound log live cell = some value) : rewound log other cell = some value := by
  by_cases named : ∃ entry ∈ log, entry.1 = cell
  · rw [rewound_named named other live]
    exact found
  have unnamed : ∀ entry ∈ log, entry.1 ≠ cell := fun entry member same =>
    named ⟨entry, member, same⟩
  rw [rewound_unnamed _ unnamed] at found ⊢
  exact extends_ found

/-! ## Exchanging a log -/

/-- A log exchanged from its end: the values it displaced, and the live map. -/
inductive Rewinds :
    (κ → Option α) → List (κ × α) → List (κ × α) → (κ → Option α) → Prop
  | nil {live : κ → Option α} : Rewinds live [] [] live
  | cons {live between : κ → Option α} {later displacedLater : List (κ × α)} {cell : κ}
      {value displaced : α} :
      Rewinds live later displacedLater between → between cell = some displaced →
        Rewinds live ((cell, value) :: later) ((cell, displaced) :: displacedLater)
          (put between cell value)

inductive Redoes :
    (κ → Option α) → List (κ × α) → List (κ × α) → (κ → Option α) → Prop
  | nil {live : κ → Option α} : Redoes live [] [] live
  | cons {live final : κ → Option α} {later displacedLater : List (κ × α)} {cell : κ}
      {value displaced : α} :
      live cell = some displaced → Redoes (put live cell value) later displacedLater final →
        Redoes live ((cell, value) :: later) ((cell, displaced) :: displacedLater) final

variable {live final : κ → Option α} {log displaced : List (κ × α)}

theorem Rewinds.final_eq (rewinds : Rewinds live log displaced final) : final = rewound log live := by
  induction rewinds with
  | nil => rfl
  | cons _ _ ih => rw [rewound_cons, ih]

/-- Forwards over what was displaced backwards gives everything back. -/
theorem Rewinds.redoes (rewinds : Rewinds live log displaced final) :
    Redoes final displaced log live := by
  induction rewinds with
  | nil => exact .nil
  | cons _ found ih => ?_
  refine .cons (put_same ..) ?_
  rw [put_put_self found]
  exact ih

/-- Backwards over what was displaced forwards gives everything back. -/
theorem Redoes.rewound (redoes : Redoes live log displaced final) :
    rewound displaced final = live := by
  induction redoes with
  | nil => rfl
  | cons found _ ih => rw [rewound_cons, ih, put_put_self found]

/-- A log displaces the same values whenever it is exchanged from the same map. -/
theorem Redoes.unique (redoes : Redoes live log displaced final) {other : List (κ × α)}
    {otherFinal : κ → Option α} (again : Redoes live log other otherFinal) :
    displaced = other ∧ final = otherFinal := by
  induction redoes generalizing other with
  | nil =>
    cases again
    exact ⟨rfl, rfl⟩
  | cons found _ ih => ?_
  cases again with
  | cons foundAgain rest => ?_
  obtain ⟨rfl, same⟩ := ih rest
  rw [found] at foundAgain
  cases foundAgain
  exact ⟨rfl, same⟩

theorem Rewinds.cells (rewinds : Rewinds live log displaced final) :
    displaced.map Prod.fst = log.map Prod.fst := by
  induction rewinds with
  | nil => rfl
  | cons _ _ ih => rw [List.map_cons, List.map_cons, ih]

theorem Redoes.unnamed (redoes : Redoes live log displaced final)
    (unnamed : ∀ entry ∈ log, entry.1 ≠ cell) : final cell = live cell := by
  induction redoes with
  | nil => rfl
  | cons _ _ ih =>
    rw [ih fun entry member => unnamed entry (List.mem_cons_of_mem _ member),
      put_other _ _ (Ne.symm (unnamed _ List.mem_cons_self))]

/-- Forwards over another map that agrees on the cells of the log. -/
theorem Redoes.congr (redoes : Redoes live log displaced final) {inside : κ → Prop}
    (named : ∀ entry ∈ log, inside entry.1) {other : κ → Option α}
    (agree : ∀ cell, inside cell → other cell = live cell) :
    ∃ result, Redoes other log displaced result ∧ ∀ cell, inside cell → result cell = final cell := by
  induction redoes generalizing other with
  | nil => exact ⟨other, .nil, agree⟩
  | @cons live final later displacedLater cell value displaced found _ ih => ?_
  have here : inside cell := named (cell, value) List.mem_cons_self
  obtain ⟨result, rest, agrees⟩ := @ih (fun entry member =>
    named entry (List.mem_cons_of_mem _ member)) (put other cell value) (by
      intro at_ held
      by_cases same : at_ = cell
      · subst same
        rw [put_same, put_same]
      · rw [put_other _ _ same, put_other _ _ same, agree at_ held])
  exact ⟨result, .cons ((agree cell here).trans found) rest, agrees⟩

end UndoLog
