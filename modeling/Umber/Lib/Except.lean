/-! Peeling successful computations apart. -/

set_option autoImplicit false

namespace ExceptLib

variable {ε α β : Type}

theorem bind_eq_ok {computation : Except ε α} {next : α → Except ε β} {result : β} :
    computation >>= next = .ok result ↔
      ∃ value, computation = .ok value ∧ next value = .ok result := by
  cases computation with
  | error error => simp [bind, Except.bind]
  | ok value => simp [bind, Except.bind]

theorem bind_congr_ok {computation : Except ε α} {next other : α → Except ε β}
    (same : ∀ value, computation = .ok value → next value = other value) :
    computation >>= next = computation >>= other := by
  cases computation with
  | error error => rfl
  | ok value => exact same value rfl

theorem bind_eq_error {computation : Except ε α} {next : α → Except ε β} {error : ε} :
    computation >>= next = .error error ↔
      computation = .error error ∨ ∃ value, computation = .ok value ∧ next value = .error error := by
  cases computation with
  | error other => simp [bind, Except.bind]
  | ok value => simp [bind, Except.bind]

theorem bind_ne_error {computation : Except ε α} {next : α → Except ε β} {error : ε}
    (first : computation ≠ .error error) (later : ∀ value, next value ≠ .error error) :
    computation >>= next ≠ .error error := by
  intro failed
  rcases bind_eq_error.mp failed with failed | ⟨value, _, failed⟩
  · exact first failed
  · exact later value failed

theorem ok_bind (value : α) (next : α → Except ε β) :
    (Except.ok value : Except ε α) >>= next = next value := rfl

theorem error_bind (error : ε) (next : α → Except ε β) :
    (Except.error error : Except ε α) >>= next = .error error := rfl

theorem pure_eq_ok {value result : α} :
    (pure value : Except ε α) = .ok result ↔ value = result := by
  simp [pure, Except.pure]

theorem exists_ok_ite (condition : Prop) [Decidable condition] (left right : α) :
    ∃ value, (if condition then pure left else pure right : Except ε α) = .ok value := by
  split
  · exact ⟨left, rfl⟩
  · exact ⟨right, rfl⟩

theorem exists_of_isOk {computation : Except ε α} (isOk : computation.isOk = true) :
    ∃ value, computation = .ok value := by
  cases computation with
  | error error => cases isOk
  | ok value => exact ⟨value, rfl⟩

theorem exists_of_toOption_any {computation : Except ε α} {test : α → Bool}
    (passes : computation.toOption.any test = true) :
    ∃ value, computation = .ok value ∧ test value = true := by
  cases computation with
  | error error => cases passes
  | ok value => exact ⟨value, rfl, passes⟩

/-- What a step does not change, mapping it over a list does not change. -/
theorem map_of_mapM {γ : Type} {step : α → Except ε β} {before : α → γ} {after : β → γ}
    (kept : ∀ value result, step value = .ok result → after result = before value)
    {values : List α} {results : List β} (mapped : values.mapM step = .ok results) :
    results.map after = values.map before := by
  induction values generalizing results with
  | nil =>
    cases pure_eq_ok.mp mapped
    rfl
  | cons value values ih => ?_
  rw [List.mapM_cons] at mapped
  obtain ⟨first, stepped, mapped⟩ := bind_eq_ok.mp mapped
  obtain ⟨rest, stepping, mapped⟩ := bind_eq_ok.mp mapped
  cases pure_eq_ok.mp mapped
  rw [List.map_cons, List.map_cons, kept _ _ stepped, ih stepping]

/-- What a computation returns, if it returns, satisfies a fact. -/
def Ensures (computation : Except ε α) (fact : α → Prop) : Prop :=
  ∀ value, computation = .ok value → fact value

namespace Ensures

variable {computation : Except ε α} {next : α → Except ε β} {fact : α → Prop} {goal : β → Prop}

theorem ok {value : α} (holds : fact value) : Ensures (.ok value : Except ε α) fact := by
  rintro _ ⟨⟩
  exact holds

theorem error (error : ε) : Ensures (.error error : Except ε α) fact := by
  rintro _ ⟨⟩

theorem bind (first : Ensures computation fact)
    (later : ∀ value, fact value → Ensures (next value) goal) :
    Ensures (computation >>= next) goal := by
  intro result returned
  obtain ⟨value, here, there⟩ := bind_eq_ok.mp returned
  exact later value (first value here) result there

theorem after (later : ∀ value, computation = .ok value → Ensures (next value) goal) :
    Ensures (computation >>= next) goal :=
  bind (fun _ returned => returned) later

theorem ite {condition : Prop} [Decidable condition] {other : Except ε α}
    (left : condition → Ensures computation fact) (right : ¬ condition → Ensures other fact) :
    Ensures (if condition then computation else other) fact := by
  split
  next holds => exact left holds
  next fails => exact right fails

end Ensures

end ExceptLib
