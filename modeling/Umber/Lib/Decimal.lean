import Mathlib.Algebra.Order.Floor.Semifield
import Mathlib.Data.Nat.Digits.Defs
import Mathlib.Data.Rat.Floor
import Mathlib.Tactic.FieldSimp
import Mathlib.Tactic.Linarith
import Mathlib.Tactic.Ring

/-! Decimal digit strings read as integers and as fractions, and the floors of
their multiples. -/

set_option autoImplicit false

namespace Decimal

def numeral (digits : List ℕ) : ℕ := Nat.ofDigits 10 digits.reverse

def fraction (digits : List ℕ) : ℚ := numeral digits / 10 ^ digits.length

/-- Multiplies a fraction by an integer from its last digit, dropping what
falls below one at every digit. -/
def truncatedMultiple (scale : ℕ) (digits : List ℕ) : ℕ :=
  digits.foldr (fun digit rest => (rest + digit * scale) / 10) 0

@[simp] theorem numeral_nil : numeral [] = 0 := rfl

@[simp] theorem fraction_nil : fraction [] = 0 := by simp [fraction]

theorem numeral_append (front back : List ℕ) :
    numeral (front ++ back) = numeral front * 10 ^ back.length + numeral back := by
  simp only [numeral, List.reverse_append, Nat.ofDigits_append, List.length_reverse]
  ring

theorem numeral_singleton (digit : ℕ) : numeral [digit] = digit := by
  simp [numeral]

theorem numeral_cons (digit : ℕ) (digits : List ℕ) :
    numeral (digit :: digits) = digit * 10 ^ digits.length + numeral digits := by
  have appended := numeral_append [digit] digits
  rwa [numeral_singleton] at appended

variable {digits : List ℕ}

theorem numeral_lt (areDigits : ∀ digit ∈ digits, digit ≤ 9) :
    numeral digits < 10 ^ digits.length := by
  have bound := @Nat.ofDigits_lt_base_pow_length 10 digits.reverse (by omega)
    (fun digit member => Nat.lt_succ_of_le (areDigits digit (List.mem_reverse.mp member)))
  rwa [List.length_reverse] at bound

theorem fraction_append (front back : List ℕ) :
    fraction (front ++ back) = (numeral front + fraction back) / 10 ^ front.length := by
  simp only [fraction, numeral_append, List.length_append]
  push_cast
  field_simp
  ring

theorem fraction_cons (digit : ℕ) (digits : List ℕ) :
    fraction (digit :: digits) = (digit + fraction digits) / 10 := by
  have appended := fraction_append [digit] digits
  simpa only [numeral_singleton, List.length_singleton, pow_one, List.singleton_append]
    using appended

theorem fraction_nonneg (digits : List ℕ) : 0 ≤ fraction digits := by
  unfold fraction
  positivity

theorem fraction_lt_one (areDigits : ∀ digit ∈ digits, digit ≤ 9) : fraction digits < 1 := by
  rw [fraction, div_lt_one (by positivity)]
  exact_mod_cast numeral_lt areDigits

/-- The truncations at the single digits make one truncation of the product. -/
theorem truncatedMultiple_eq_floor (scale : ℕ) (digits : List ℕ) :
    truncatedMultiple scale digits = ⌊(scale : ℚ) * fraction digits⌋₊ := by
  induction digits with
  | nil => simp [truncatedMultiple]
  | cons digit digits ih => ?_
  have nonneg : (0 : ℚ) ≤ scale * fraction digits :=
    mul_nonneg (Nat.cast_nonneg scale) (fraction_nonneg digits)
  have split : (scale : ℚ) * fraction (digit :: digits) =
      (scale * fraction digits + ((digit * scale : ℕ) : ℚ)) / (10 : ℕ) := by
    rw [fraction_cons]
    push_cast
    ring
  rw [split, Nat.floor_div_natCast, Nat.floor_add_natCast nonneg, ← ih]
  rfl

theorem truncatedMultiple_le (scale : ℕ)
    (areDigits : ∀ digit ∈ digits, digit ≤ 9) : truncatedMultiple scale digits ≤ scale := by
  induction digits with
  | nil => exact Nat.zero_le scale
  | cons digit digits ih => ?_
  have tail := ih (fun other member => areDigits other (List.mem_cons_of_mem digit member))
  have head := areDigits digit List.mem_cons_self
  have product : digit * scale ≤ 9 * scale := Nat.mul_le_mul_right scale head
  change (truncatedMultiple scale digits + digit * scale) / 10 ≤ scale
  omega

/-- A multiple by a power of two is decided, up to its floor, by as many digits
as the power has twos. -/
theorem floor_pow_two_mul_take (power : ℕ) (areDigits : ∀ digit ∈ digits, digit ≤ 9) :
    ⌊(2 ^ power : ℚ) * fraction (digits.take power)⌋₊ = ⌊(2 ^ power : ℚ) * fraction digits⌋₊ := by
  rcases Nat.lt_or_ge digits.length power with short | long
  · rw [List.take_of_length_le (Nat.le_of_lt short)]
  have taken : (digits.take power).length = power := List.length_take_of_le long
  have rest : ∀ digit ∈ digits.drop power, digit ≤ 9 :=
    fun digit member => areDigits digit (List.mem_of_mem_drop member)
  have halves : ∀ value : ℚ,
      (2 ^ power : ℚ) * (value / 10 ^ power) = value / (5 ^ power : ℕ) := by
    intro value
    have factors : (10 : ℚ) ^ power = 2 ^ power * 5 ^ power := by
      rw [← mul_pow]
      norm_num
    rw [factors]
    push_cast
    field_simp
  have whole : fraction (digits.take power) = (numeral (digits.take power) : ℚ) / 10 ^ power := by
    rw [fraction, taken]
  have parts : fraction digits =
      (numeral (digits.take power) + fraction (digits.drop power)) / 10 ^ power := by
    have appended := fraction_append (digits.take power) (digits.drop power)
    rwa [List.take_append_drop, taken] at appended
  have below : ⌊fraction (digits.drop power)⌋₊ = 0 :=
    Nat.floor_eq_zero.mpr (fraction_lt_one rest)
  rw [whole, parts, halves, halves, Nat.floor_div_natCast, Nat.floor_div_natCast,
    Nat.floor_natCast, add_comm, Nat.floor_add_natCast (fraction_nonneg _), below, zero_add]

end Decimal
