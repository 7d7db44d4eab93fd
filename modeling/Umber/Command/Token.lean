/-! Token words and their brace structure. -/

set_option autoImplicit false

namespace Umber.Command

inductive Catcode where
  | escape
  | beginGroup
  | endGroup
  | mathShift
  | alignmentTab
  | endLine
  | parameter
  | superscript
  | subscript
  | ignored
  | space
  | letter
  | other
  | active
  | comment
  | invalid
deriving DecidableEq

inductive TokenWord where
  | character (code : Nat) (catcode : Catcode)
  | controlSequence (symbol : Nat)
  | parameter (slot : Nat)
  | frozen (token : Nat)
deriving DecidableEq

namespace TokenWord

def literalCatcode : TokenWord → Option Catcode
  | .character _ catcode => some catcode
  | .controlSequence _ | .parameter _ | .frozen _ => none

def isControlSequence : TokenWord → Bool
  | .controlSequence _ => true
  | .character _ _ | .parameter _ | .frozen _ => false

def isBeginGroup (word : TokenWord) : Bool :=
  word.literalCatcode = some .beginGroup

def isEndGroup (word : TokenWord) : Bool :=
  word.literalCatcode = some .endGroup

theorem not_isEndGroup_of_isBeginGroup {word : TokenWord} (begins : word.isBeginGroup = true) :
    word.isEndGroup = false := by
  unfold isBeginGroup at begins
  unfold isEndGroup
  rw [of_decide_eq_true begins]
  rfl

end TokenWord

/-- The brace depth after one word, unless it is a right brace at depth zero. -/
def stepDepth (depth : Nat) (word : TokenWord) : Option Nat :=
  if word.isBeginGroup = true then some (depth + 1)
  else if word.isEndGroup = true then (if depth = 0 then none else some (depth - 1))
  else some depth

def braceDepth (depth : Nat) : List TokenWord → Option Nat
  | [] => some depth
  | word :: rest => (stepDepth depth word).bind fun after => braceDepth after rest

def Balanced (words : List TokenWord) : Prop :=
  braceDepth 0 words = some 0

/-- A left brace, balanced words, and the right brace that closes the first. -/
def OneGroup (words : List TokenWord) : Prop :=
  ∃ opening inner closing, words = opening :: (inner ++ [closing]) ∧
    opening.isBeginGroup = true ∧ closing.isEndGroup = true ∧ Balanced inner

theorem braceDepth_append (depth : Nat) (left right : List TokenWord) :
    braceDepth depth (left ++ right) =
      (braceDepth depth left).bind fun after => braceDepth after right := by
  induction left generalizing depth with
  | nil => rfl
  | cons word rest ih => ?_
  rw [List.cons_append]
  show (stepDepth depth word).bind (fun after => braceDepth after (rest ++ right)) =
    ((stepDepth depth word).bind fun after => braceDepth after rest).bind
      fun after => braceDepth after right
  cases stepDepth depth word with
  | none => rfl
  | some after => exact ih after

theorem braceDepth_singleton (depth : Nat) (word : TokenWord) :
    braceDepth depth [word] = stepDepth depth word := by
  unfold braceDepth
  cases stepDepth depth word with
  | none => rfl
  | some after => rfl

variable {depth after : Nat} {words : List TokenWord}

theorem braceDepth_concat (word : TokenWord) (reached : braceDepth depth words = some after) :
    braceDepth depth (words ++ [word]) = stepDepth after word := by
  rw [braceDepth_append, reached]
  exact braceDepth_singleton after word

variable {word : TokenWord}

theorem stepDepth_begin (depth : Nat) (begins : word.isBeginGroup = true) :
    stepDepth depth word = some (depth + 1) :=
  if_pos begins

theorem stepDepth_end (depth : Nat) (ends : word.isEndGroup = true) :
    stepDepth depth word = if depth = 0 then none else some (depth - 1) := by
  have begins : word.isBeginGroup ≠ true := by
    intro begins
    rw [TokenWord.not_isEndGroup_of_isBeginGroup begins] at ends
    cases ends
  unfold stepDepth
  rw [if_neg begins, if_pos ends]

theorem stepDepth_plain (depth : Nat) (begins : word.isBeginGroup ≠ true)
    (ends : word.isEndGroup ≠ true) : stepDepth depth word = some depth := by
  unfold stepDepth
  rw [if_neg begins, if_neg ends]

/-- Words without braces leave the depth as it is. -/
theorem braceDepth_of_plain (depth : Nat)
    (plain : ∀ word ∈ words, word.isBeginGroup ≠ true ∧ word.isEndGroup ≠ true) :
    braceDepth depth words = some depth := by
  induction words with
  | nil => rfl
  | cons word rest ih => ?_
  obtain ⟨begins, ends⟩ := plain word List.mem_cons_self
  unfold braceDepth
  rw [stepDepth_plain depth begins ends]
  exact ih fun other member => plain other (List.mem_cons_of_mem _ member)

theorem stepDepth_succ (reached : stepDepth depth word = some after) :
    stepDepth (depth + 1) word = some (after + 1) := by
  unfold stepDepth at reached ⊢
  split at reached
  next begins =>
    cases reached
    rw [if_pos begins]
  rename_i begins
  rw [if_neg begins]
  split at reached
  next ends =>
    rw [if_pos ends, if_neg (Nat.succ_ne_zero depth)]
    split at reached
    next => cases reached
    next positive =>
      cases reached
      exact congrArg some (by omega)
  next ends =>
    cases reached
    rw [if_neg ends]

theorem braceDepth_succ (reached : braceDepth depth words = some after) :
    braceDepth (depth + 1) words = some (after + 1) := by
  induction words generalizing depth with
  | nil =>
    cases reached
    rfl
  | cons word rest ih => ?_
  unfold braceDepth at reached ⊢
  cases stepped : stepDepth depth word with
  | none =>
    rw [stepped] at reached
    cases reached
  | some middle => ?_
  rw [stepped] at reached
  rw [stepDepth_succ stepped]
  exact ih reached

end Umber.Command
