import Mathlib.Data.List.Basic
import Mathlib.Data.List.TakeDrop

/-! UTF-8 byte sequences: the first encoded scalar of a byte list, and the lists
that consist of whole encoded scalars. -/

set_option autoImplicit false

namespace Utf8

def isContinuation (byte : UInt8) : Bool :=
  0x80 ≤ byte.toNat && byte.toNat ≤ 0xBF

/-- The bytes that may follow the first byte of a three-byte sequence. -/
def isSecondOfThree (first second : UInt8) : Bool :=
  isContinuation second &&
    (first.toNat != 0xE0 || 0xA0 ≤ second.toNat) &&
    (first.toNat != 0xED || second.toNat ≤ 0x9F)

def isSecondOfFour (first second : UInt8) : Bool :=
  isContinuation second &&
    (first.toNat != 0xF0 || 0x90 ≤ second.toNat) &&
    (first.toNat != 0xF4 || second.toNat ≤ 0x8F)

/-- The scalar encoded at the front of a byte list, with its width in bytes. -/
def decode : List UInt8 → Option (Nat × Nat)
  | [] => none
  | a :: rest =>
    if a.toNat < 0x80 then
      some (a.toNat, 1)
    else if a.toNat < 0xC2 then
      none
    else if a.toNat < 0xE0 then
      match rest with
      | b :: _ =>
        if isContinuation b then
          some ((a.toNat - 0xC0) * 64 + (b.toNat - 0x80), 2)
        else none
      | [] => none
    else if a.toNat < 0xF0 then
      match rest with
      | b :: c :: _ =>
        if isSecondOfThree a b && isContinuation c then
          some (((a.toNat - 0xE0) * 64 + (b.toNat - 0x80)) * 64 + (c.toNat - 0x80), 3)
        else none
      | _ => none
    else if a.toNat < 0xF5 then
      match rest with
      | b :: c :: d :: _ =>
        if isSecondOfFour a b && isContinuation c && isContinuation d then
          some ((((a.toNat - 0xF0) * 64 + (b.toNat - 0x80)) * 64 + (c.toNat - 0x80)) * 64 +
            (d.toNat - 0x80), 4)
        else none
      | _ => none
    else none

inductive Valid : List UInt8 → Prop where
  | nil : Valid []
  | step {bytes : List UInt8} {scalar width : Nat} :
      decode bytes = some (scalar, width) → Valid (bytes.drop width) → Valid bytes

def validWithin : Nat → List UInt8 → Bool
  | _, [] => true
  | 0, _ :: _ => false
  | fuel + 1, byte :: rest =>
    match decode (byte :: rest) with
    | some (_, width) => validWithin fuel ((byte :: rest).drop width)
    | none => false

def isValid (bytes : List UInt8) : Bool :=
  validWithin bytes.length bytes

variable {byte : UInt8}

theorem isContinuation_ge (continuation : isContinuation byte = true) : 0x80 ≤ byte.toNat := by
  simp only [isContinuation, Bool.and_eq_true, decide_eq_true_eq] at continuation
  exact continuation.1

variable {first second : UInt8}

theorem isSecondOfThree_ge (accepted : isSecondOfThree first second = true) :
    0x80 ≤ second.toNat := by
  simp only [isSecondOfThree, Bool.and_eq_true] at accepted
  exact isContinuation_ge accepted.1.1

theorem isSecondOfFour_ge (accepted : isSecondOfFour first second = true) :
    0x80 ≤ second.toNat := by
  simp only [isSecondOfFour, Bool.and_eq_true] at accepted
  exact isContinuation_ge accepted.1.1

variable {bytes : List UInt8} {scalar width : Nat}

/-- A decoded sequence is a nonempty initial part of the list; its scalar is
fixed by that part, and a longer sequence holds no ASCII byte. -/
theorem decode_eq_some (decoded : decode bytes = some (scalar, width)) :
    ∃ encoded rest, bytes = encoded ++ rest ∧ encoded.length = width ∧ 0 < width ∧
      (∀ other, decode (encoded ++ other) = some (scalar, width)) ∧
      (1 < width → ∀ byte ∈ encoded, 0x80 ≤ byte.toNat) := by
  revert decoded
  fun_cases decode bytes with
  | case1 => simp
  | case2 a rest ascii =>
    intro decoded
    simp only [Option.some.injEq, Prod.mk.injEq] at decoded
    obtain ⟨rfl, rfl⟩ := decoded
    exact ⟨[a], rest, by simp [decode, ascii]⟩
  | case3 => simp
  | case4 a nonascii leading two b rest continuation =>
    intro decoded
    simp only [Option.some.injEq, Prod.mk.injEq] at decoded
    obtain ⟨rfl, rfl⟩ := decoded
    refine ⟨[a, b], rest, by simp, by simp, by simp, ?_, ?_⟩
    · simp [decode, nonascii, leading, two, continuation]
    have := isContinuation_ge continuation
    simp
    omega
  | case5 => simp
  | case6 => simp
  | case7 a nonascii leading notTwo three b c rest accepted =>
    intro decoded
    simp only [Option.some.injEq, Prod.mk.injEq] at decoded
    obtain ⟨rfl, rfl⟩ := decoded
    refine ⟨[a, b, c], rest, by simp, by simp, by simp, ?_, ?_⟩
    · simp [decode, nonascii, leading, notTwo, three, accepted]
    simp only [Bool.and_eq_true] at accepted
    have := isSecondOfThree_ge accepted.1
    have := isContinuation_ge accepted.2
    simp
    omega
  | case8 => simp
  | case9 => simp
  | case10 a nonascii leading notTwo notThree four b c d rest accepted =>
    intro decoded
    simp only [Option.some.injEq, Prod.mk.injEq] at decoded
    obtain ⟨rfl, rfl⟩ := decoded
    refine ⟨[a, b, c, d], rest, by simp, by simp, by simp, ?_, ?_⟩
    · simp [decode, nonascii, leading, notTwo, notThree, four, accepted]
    simp only [Bool.and_eq_true] at accepted
    have := isSecondOfFour_ge accepted.1.1
    have := isContinuation_ge accepted.1.2
    have := isContinuation_ge accepted.2
    simp
    omega
  | case11 => simp
  | case12 => simp
  | case13 => simp

variable {fuel : Nat}

theorem validWithin_sound (accepted : validWithin fuel bytes = true) : Valid bytes := by
  induction fuel generalizing bytes with
  | zero =>
    cases bytes with
    | nil => exact .nil
    | cons => simp [validWithin] at accepted
  | succ fuel ih => ?_
  cases bytes with
  | nil => exact .nil
  | cons byte rest => ?_
  simp only [validWithin] at accepted
  split at accepted
  next scalar width decoded => exact .step decoded (ih accepted)
  next => contradiction

theorem Valid.validWithin (valid : Valid bytes) (enough : bytes.length ≤ fuel) :
    validWithin fuel bytes = true := by
  induction valid generalizing fuel with
  | nil => cases fuel <;> rfl
  | @step bytes scalar width decoded _ ih => ?_
  obtain ⟨encoded, rest, rfl, length, positive, _⟩ := decode_eq_some decoded
  cases bytes : encoded ++ rest with
  | nil => simp [bytes, decode] at decoded
  | cons byte tail => ?_
  rw [bytes] at decoded enough ih
  cases fuel with
  | zero => simp at enough
  | succ fuel => ?_
  simp only [Utf8.validWithin, decoded]
  apply ih
  simp only [List.length_drop, List.length_cons] at enough ⊢
  omega

theorem isValid_iff : isValid bytes = true ↔ Valid bytes :=
  ⟨validWithin_sound, fun valid => valid.validWithin (Nat.le_refl _)⟩

instance (bytes : List UInt8) : Decidable (Valid bytes) :=
  decidable_of_iff _ isValid_iff

variable {before rest : List UInt8}

theorem Valid.after_ascii (valid : Valid bytes) (ascii : byte.toNat < 0x80)
    (split : bytes = before ++ byte :: rest) : Valid rest := by
  induction valid generalizing before with
  | nil => simp at split
  | @step bytes scalar width decoded tailValid ih => ?_
  obtain ⟨encoded, tail, rfl, length, positive, _, high⟩ := decode_eq_some decoded
  rw [← length, List.drop_left] at tailValid ih
  rcases List.append_eq_append_iff.mp split with
    ⟨middle, rfl, tailSplit⟩ | ⟨middle, rfl, encodedSplit⟩
  · exact ih tailSplit
  cases middle with
  | nil => exact @ih [] encodedSplit.symm
  | cons first others => ?_
  simp only [List.cons_append, List.cons.injEq] at encodedSplit
  obtain ⟨rfl, rfl⟩ := encodedSplit
  by_cases long : 1 < width
  · have := high long byte (by simp)
    omega
  simp only [List.length_append, List.length_cons] at length
  have : others = [] := List.eq_nil_of_length_eq_zero (by omega)
  subst this
  exact tailValid

theorem Valid.before_ascii (valid : Valid bytes) (ascii : byte.toNat < 0x80)
    (split : bytes = before ++ byte :: rest) : Valid before := by
  induction valid generalizing before with
  | nil => simp at split
  | @step bytes scalar width decoded tailValid ih => ?_
  obtain ⟨encoded, tail, rfl, length, positive, stable, high⟩ := decode_eq_some decoded
  rw [← length, List.drop_left] at tailValid ih
  rcases List.append_eq_append_iff.mp split with
    ⟨middle, rfl, tailSplit⟩ | ⟨middle, rfl, encodedSplit⟩
  · refine .step (stable middle) ?_
    rw [← length, List.drop_left]
    exact ih tailSplit
  by_cases atFront : before = []
  · exact atFront ▸ .nil
  cases middle with
  | nil =>
    rw [List.append_nil] at length stable
    refine .step (by simpa using stable []) ?_
    simp [← length, Valid.nil]
  | cons first others => ?_
  simp only [List.cons_append, List.cons.injEq] at encodedSplit
  obtain ⟨rfl, rfl⟩ := encodedSplit
  have long : 1 < width := by
    have := List.length_pos_iff.mpr atFront
    simp only [List.length_append, List.length_cons] at length
    omega
  have := high long byte (by simp)
  omega

theorem Valid.after_asciis {asciis : List UInt8} (valid : Valid (before ++ asciis ++ rest))
    (nonempty : asciis ≠ []) (ascii : ∀ byte ∈ asciis, byte.toNat < 0x80) : Valid rest := by
  rcases List.eq_nil_or_concat asciis with empty | ⟨init, last, rfl⟩
  · contradiction
  · exact valid.after_ascii (ascii last (by simp)) (by simp : _ = (before ++ init) ++ last :: rest)

/-- A valid list may be cut in front of an ASCII byte. -/
theorem Valid.cut {following : List UInt8} (valid : Valid (before ++ following))
    (ascii : ∀ byte ∈ following.head?, byte.toNat < 0x80) : Valid before := by
  cases following with
  | nil => simpa using valid
  | cons byte rest => exact valid.before_ascii (ascii byte (by simp)) rfl

/-- The bytes of an encoded scalar: one that starts it, then continuations. -/
theorem decode_shape (decoded : decode bytes = some (scalar, width)) :
    ∃ first others, bytes.take width = first :: others ∧ isContinuation first = false ∧
      (∀ byte ∈ others, isContinuation byte = true) ∧ (0x80 ≤ scalar → 0x80 ≤ first.toNat) := by
  revert decoded
  fun_cases decode bytes with
  | case1 => simp
  | case2 a rest ascii =>
    intro decoded
    simp only [Option.some.injEq, Prod.mk.injEq] at decoded
    obtain ⟨rfl, rfl⟩ := decoded
    exact ⟨a, [], by simp, by simp [isContinuation]; omega, by simp, by simp⟩
  | case3 => simp
  | case4 a nonascii leading two b rest continuation =>
    intro decoded
    simp only [Option.some.injEq, Prod.mk.injEq] at decoded
    obtain ⟨rfl, rfl⟩ := decoded
    exact ⟨a, [b], by simp, by simp [isContinuation]; omega, by simp [continuation],
      fun _ => by omega⟩
  | case5 => simp
  | case6 => simp
  | case7 a nonascii leading notTwo three b c rest accepted =>
    intro decoded
    simp only [Option.some.injEq, Prod.mk.injEq] at decoded
    obtain ⟨rfl, rfl⟩ := decoded
    simp only [isSecondOfThree, Bool.and_eq_true] at accepted
    exact ⟨a, [b, c], by simp, by simp [isContinuation]; omega,
      by simp [accepted.1.1.1, accepted.2], fun _ => by omega⟩
  | case8 => simp
  | case9 => simp
  | case10 a nonascii leading notTwo notThree four b c d rest accepted =>
    intro decoded
    simp only [Option.some.injEq, Prod.mk.injEq] at decoded
    obtain ⟨rfl, rfl⟩ := decoded
    simp only [isSecondOfFour, Bool.and_eq_true] at accepted
    exact ⟨a, [b, c, d], by simp, by simp [isContinuation]; omega,
      by simp [accepted.1.1.1.1, accepted.1.2, accepted.2], fun _ => by omega⟩
  | case11 => simp
  | case12 => simp
  | case13 => simp

theorem Valid.head_not_continuation (valid : Valid (byte :: rest)) :
    isContinuation byte = false := by
  cases valid with
  | @step _ scalar width decoded _ => ?_
  obtain ⟨first, others, taken, notContinuation, -, -⟩ := decode_shape decoded
  cases width with
  | zero => simp at taken
  | succ width =>
    simp only [List.take_succ_cons, List.cons.injEq] at taken
    exact taken.1 ▸ notContinuation

end Utf8
