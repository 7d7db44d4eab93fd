import Umber.Bib.RawParser

/-! Places in a decoded source where a text may be cut, and what they are in the bytes the
source was decoded from. -/

set_option autoImplicit false

namespace Umber.Bib

/-! ## Checked results -/

/-- What a checked result must satisfy, and what it may have stopped for. -/
def Checked.Meets {α : Type} (result : Checked α) (bad : Stop → Prop) (post : α → Prop) : Prop :=
  match result with
  | .ok value => post value
  | .error problem => bad problem

namespace Checked.Meets

variable {α : Type} {result : Checked α} {bad : Stop → Prop} {post weaker : α → Prop}
  (meets : result.Meets bad post)
include meets

theorem cases_ :
    (∃ problem, result = .error problem ∧ bad problem) ∨
      ∃ value, result = .ok value ∧ post value := by
  cases result with
  | ok value => exact .inr ⟨value, rfl, meets⟩
  | error problem => exact .inl ⟨problem, rfl, meets⟩

theorem imp (implies : ∀ value, post value → weaker value) : result.Meets bad weaker := by
  rcases meets.cases_ with ⟨problem, rfl, stopped⟩ | ⟨value, rfl, holds⟩
  · exact stopped
  · exact implies value holds

theorem of_ok {value : α} (ran : result = .ok value) : post value := by
  subst ran
  exact meets

theorem of_error {problem : Stop} (stopped : result = .error problem) : bad problem := by
  subst stopped
  exact meets

end Checked.Meets

/-! ## Boundaries -/

variable {byte : UInt8}

theorem isContinuation_ascii (ascii : byte.toNat < 0x80) : Utf8.isContinuation byte = false := by
  cases continuation : Utf8.isContinuation byte with
  | false => rfl
  | true =>
    have := Utf8.isContinuation_ge continuation
    omega

theorem isCharBoundary_zero (text : Text) : isCharBoundary text 0 = true := by
  simp [isCharBoundary]

theorem isCharBoundary_length (text : Text) : isCharBoundary text text.length = true := by
  simp [isCharBoundary]

variable {text : Text} {index : Nat}

theorem isCharBoundary_of_get (found : text[index]? = some byte)
    (first : Utf8.isContinuation byte = false) : isCharBoundary text index = true := by
  simp [isCharBoundary, found, first]

theorem isCharBoundary_le (boundary : isCharBoundary text index = true) : index ≤ text.length := by
  by_cases inside : index < text.length
  · omega
  rw [isCharBoundary, List.getElem?_eq_none (by omega)] at boundary
  simp only [Bool.or_eq_true, beq_iff_eq] at boundary
  omega

def Separated (text : Text) : Prop :=
  ∀ (index : Nat) (byte next : UInt8), text[index]? = some byte → byte.toNat < 0x80 →
    text[index + 1]? = some next → Utf8.isContinuation next = false

theorem Separated.of_valid (valid : Utf8.Valid text) : Separated text := by
  intro index byte next found ascii following
  obtain ⟨inside, rfl⟩ := List.getElem?_eq_some_iff.mp found
  have split : text = text.take index ++ text[index] :: text.drop (index + 1) := by
    rw [List.getElem_cons_drop, List.take_append_drop]
  have tailValid := valid.after_ascii ascii split
  rw [← Nat.add_zero (index + 1), ← List.getElem?_drop] at following
  cases tail : text.drop (index + 1) with
  | nil => simp [tail] at following
  | cons first rest => ?_
  rw [tail] at tailValid following
  simp only [List.getElem?_cons_zero, Option.some.injEq] at following
  exact following ▸ tailValid.head_not_continuation

theorem Separated.after (separated : Separated text) (found : text[index]? = some byte)
    (ascii : byte.toNat < 0x80) : isCharBoundary text (index + 1) = true := by
  have inside := (List.getElem?_eq_some_iff.mp found).1
  cases following : text[index + 1]? with
  | none =>
    have atEnd : index + 1 = text.length := by
      have := List.getElem?_eq_none_iff.mp following
      omega
    exact atEnd ▸ isCharBoundary_length text
  | some next =>
    exact isCharBoundary_of_get following (separated index byte next found ascii following)

/-- A run of ASCII bytes stops where a text may be cut. -/
theorem Separated.run {text : Text} (separated : Separated text) {test : UInt8 → Bool}
    {index : Nat} (boundary : isCharBoundary text index = true)
    (ascii : ∀ byte, test byte = true → byte.toNat < 0x80) :
    isCharBoundary text (index + ((text.drop index).takeWhile test).length) = true := by
  generalize rest : text.drop index = following
  induction following generalizing index with
  | nil => simpa using boundary
  | cons first others ih => ?_
  have found : text[index]? = some first := by
    rw [← Nat.add_zero index, ← List.getElem?_drop, rest]
    rfl
  cases passes : test first with
  | false => simpa [List.takeWhile_cons, passes] using boundary
  | true => ?_
  have later := ih (separated.after found (ascii first passes))
    (by rw [← List.drop_drop, rest]; rfl)
  rw [List.takeWhile_cons_of_pos passes, List.length_cons]
  rwa [show index + ((others.takeWhile test).length + 1) =
    index + 1 + (others.takeWhile test).length by omega]

variable {first last : Nat}

theorem slice_ok (ordered : first ≤ last) (firstBoundary : isCharBoundary text first = true)
    (lastBoundary : isCharBoundary text last = true) :
    slice text first last = .ok ((text.drop first).take (last - first)) :=
  if_pos ⟨ordered, firstBoundary, lastBoundary⟩

theorem getElem?_slice (inside : index < last - first) :
    ((text.drop first).take (last - first))[index]? = text[first + index]? := by
  rw [List.getElem?_take_of_lt inside, List.getElem?_drop]

/-- What holds of the places of a text holds of the places of a slice of it. -/
theorem Separated.slice (separated : Separated text) (first last : Nat) :
    Separated ((text.drop first).take (last - first)) := by
  intro index byte next found ascii following
  have inside := (List.getElem?_eq_some_iff.mp following).1
  rw [List.length_take] at inside
  rw [getElem?_slice (by omega)] at found following
  exact separated (first + index) byte next found ascii following

namespace RawSource

variable (source : RawSource)

/-! ## Runs of bytes -/

theorem le_advanceWhile (test : UInt8 → Bool) (at_ : Nat) : at_ ≤ source.advanceWhile test at_ :=
  Nat.le_add_right _ _

variable {at_ : Nat}

theorem advanceWhile_le (test : UInt8 → Bool) (bound : at_ ≤ source.input.length) :
    source.advanceWhile test at_ ≤ source.input.length := by
  have := (List.takeWhile_sublist test (l := source.input.drop at_)).length_le
  rw [List.length_drop] at this
  unfold advanceWhile
  omega

theorem advanceWhile_stops (test : UInt8 → Bool) {byte : UInt8}
    (found : source.input[source.advanceWhile test at_]? = some byte) : test byte = false := by
  unfold advanceWhile at found
  rw [← List.getElem?_drop] at found
  generalize source.input.drop at_ = rest at found
  induction rest with
  | nil => simp at found
  | cons first others ih => ?_
  cases passes : test first with
  | true =>
    rw [List.takeWhile_cons_of_pos passes, List.length_cons, List.getElem?_cons_succ] at found
    exact ih found
  | false => ?_
  rw [List.takeWhile_cons_of_neg (by simp [passes])] at found
  simp only [List.length_nil, List.getElem?_cons_zero, Option.some.injEq] at found
  exact found ▸ passes

variable {test : UInt8 → Bool}

/-- A run that only an ASCII byte ends stops where a text may be cut. -/
theorem advanceWhile_boundary (bound : at_ ≤ source.input.length)
    (ascii : ∀ byte, test byte = false → byte.toNat < 0x80) :
    isCharBoundary source.input (source.advanceWhile test at_) = true := by
  cases found : source.input[source.advanceWhile test at_]? with
  | none =>
    have atEnd : source.advanceWhile test at_ = source.input.length := by
      have := List.getElem?_eq_none_iff.mp found
      have := source.advanceWhile_le test bound
      omega
    exact atEnd ▸ isCharBoundary_length _
  | some byte =>
    exact isCharBoundary_of_get found
      (isContinuation_ascii (ascii byte (source.advanceWhile_stops test found)))

theorem advanceWhile_boundary_ascii (separated : Separated source.input)
    (boundary : isCharBoundary source.input at_ = true)
    (ascii : ∀ byte, test byte = true → byte.toNat < 0x80) :
    isCharBoundary source.input (source.advanceWhile test at_) = true :=
  separated.run boundary ascii

end RawSource

end Umber.Bib
