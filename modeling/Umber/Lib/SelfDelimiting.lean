import Umber.Lib.Bytes

/-! Encodings that show where they end: whatever follows, the encoded value and the rest
are determined. -/

set_option autoImplicit false

/-- On its domain, an encoding followed by anything determines its value and what follows. -/
def SelfDelimiting {α β : Type} (encode : α → List β) (domain : α → Prop) : Prop :=
  ∀ left right, domain left → domain right → ∀ leftRest rightRest,
    encode left ++ leftRest = encode right ++ rightRest → left = right ∧ leftRest = rightRest

namespace SelfDelimiting

variable {α β γ : Type} {encode : α → List β} {domain : α → Prop}

theorem ofLength {length : Nat} (sized : ∀ value, domain value → (encode value).length = length)
    (injective : ∀ left right, domain left → domain right → encode left = encode right →
      left = right) : SelfDelimiting encode domain := by
  intro left right leftIn rightIn leftRest rightRest same
  have lengths : (encode left).length = (encode right).length :=
    (sized left leftIn).trans (sized right rightIn).symm
  obtain ⟨sameCode, sameRest⟩ := List.append_inj same lengths
  exact ⟨injective left right leftIn rightIn sameCode, sameRest⟩

theorem append {other : γ → List β} {otherDomain : γ → Prop}
    (first : SelfDelimiting encode domain) (second : SelfDelimiting other otherDomain) :
    SelfDelimiting (fun pair : α × γ => encode pair.1 ++ other pair.2)
      fun pair => domain pair.1 ∧ otherDomain pair.2 := by
  rintro ⟨left, leftOther⟩ ⟨right, rightOther⟩ leftIn rightIn leftRest rightRest same
  rw [List.append_assoc, List.append_assoc] at same
  obtain ⟨sameFirst, further⟩ := first left right leftIn.1 rightIn.1 _ _ same
  obtain ⟨sameSecond, sameRest⟩ := second leftOther rightOther leftIn.2 rightIn.2 _ _ further
  exact ⟨Prod.ext sameFirst sameSecond, sameRest⟩

/-- The encoding of what an injection makes of a value. -/
theorem comap {view : γ → α} {viewed : γ → Prop} (delimiting : SelfDelimiting encode domain)
    (within : ∀ value, viewed value → domain (view value))
    (injective : ∀ left right, viewed left → viewed right → view left = view right →
      left = right) : SelfDelimiting (fun value => encode (view value)) viewed := by
  intro left right leftIn rightIn leftRest rightRest same
  obtain ⟨sameView, sameRest⟩ :=
    delimiting _ _ (within left leftIn) (within right rightIn) leftRest rightRest same
  exact ⟨injective left right leftIn rightIn sameView, sameRest⟩

theorem mark (tag : List β) (delimiting : SelfDelimiting encode domain) :
    SelfDelimiting (fun value => tag ++ encode value) domain := by
  intro left right leftIn rightIn leftRest rightRest same
  rw [List.append_assoc, List.append_assoc] at same
  exact delimiting left right leftIn rightIn leftRest rightRest (List.append_cancel_left same)

/-- A list of encodings, once its length is known. -/
theorem flatMap (delimiting : SelfDelimiting encode domain) {left right : List α}
    (leftIn : ∀ value ∈ left, domain value) (rightIn : ∀ value ∈ right, domain value)
    (lengths : left.length = right.length) {leftRest rightRest : List β}
    (same : left.flatMap encode ++ leftRest = right.flatMap encode ++ rightRest) :
    left = right ∧ leftRest = rightRest := by
  induction left generalizing right with
  | nil =>
    cases right with
    | nil => exact ⟨rfl, same⟩
    | cons head rest => cases lengths
  | cons head rest ih => ?_
  cases right with
  | nil => cases lengths
  | cons other later => ?_
  obtain ⟨headIn, restIn⟩ := List.forall_mem_cons.mp leftIn
  obtain ⟨otherIn, laterIn⟩ := List.forall_mem_cons.mp rightIn
  rw [List.flatMap_cons, List.flatMap_cons, List.append_assoc, List.append_assoc] at same
  obtain ⟨sameHead, further⟩ := delimiting head other headIn otherIn _ _ same
  obtain ⟨sameTail, sameRest⟩ :=
    ih restIn laterIn (Nat.succ.inj lengths) further
  exact ⟨by rw [sameHead, sameTail], sameRest⟩

theorem counted {count : Nat → List β} {bounded : Nat → Prop}
    (counts : SelfDelimiting count bounded) (delimiting : SelfDelimiting encode domain) :
    SelfDelimiting (fun values : List α => count values.length ++ values.flatMap encode)
      fun values => bounded values.length ∧ ∀ value ∈ values, domain value := by
  intro left right leftIn rightIn leftRest rightRest same
  rw [List.append_assoc, List.append_assoc] at same
  obtain ⟨lengths, further⟩ := counts _ _ leftIn.1 rightIn.1 _ _ same
  exact delimiting.flatMap leftIn.2 rightIn.2 lengths further

theorem le (width : Nat) : SelfDelimiting (Bytes.le width) (· < Bytes.span width) := by
  refine ofLength (fun value _ => Bytes.length_le width value) ?_
  intro left right leftIn rightIn same
  rw [← Bytes.ofLe_le_of_lt leftIn, ← Bytes.ofLe_le_of_lt rightIn, same]

theorem single : SelfDelimiting (fun value : β => [value]) fun _ => True :=
  @ofLength _ _ _ _ 1 (fun _ _ => rfl) fun _ _ _ _ same => List.singleton_inj.mp same

end SelfDelimiting
