import Umber.Arith.Scaled
import Umber.Lib.Decimal
import Mathlib.Tactic.IntervalCases

/-! Decimal fractions are rounded once, and a printed value is the shortest
decimal that is read back as the value. -/

set_option autoImplicit false

open ExceptLib Decimal

namespace Umber.Arith

variable {value : Int}

@[simp] theorem i32_ok (fits : InI32 value) : i32 value = .ok value := if_pos fits

@[simp] theorem i64_ok (fits : InI64 value) : i64 value = .ok value := if_pos fits

theorem ensure_ok {condition : Prop} [Decidable condition] (message : String)
    (holds : condition) : ensure condition message = .ok () := if_pos holds

/-! ## Reading -/

def AreDigits (digits : List UInt8) : Prop := ∀ digit ∈ digits, digit ≤ 9

instance (digits : List UInt8) : Decidable (AreDigits digits) :=
  inferInstanceAs (Decidable (∀ _ ∈ _, _))

def digitValues (digits : List UInt8) : List ℕ := digits.map UInt8.toNat

variable {digits : List UInt8}

theorem digitValues_le (areDigits : AreDigits digits) :
    ∀ value ∈ digitValues digits, value ≤ 9 := by
  intro value member
  obtain ⟨digit, present, rfl⟩ := List.mem_map.mp member
  exact areDigits digit present

theorem AreDigits.take (areDigits : AreDigits digits) (count : Nat) :
    AreDigits (digits.take count) :=
  fun digit member => areDigits digit (List.mem_of_mem_take member)

variable {digit : UInt8}

theorem roundDecimalDigit_eq {a : ℕ} (isDigit : digit ≤ 9) (bound : a ≤ 131072) :
    roundDecimalDigit digit a = .ok (((a + digit.toNat * 131072) / 10 : ℕ) : Int) := by
  have small : digit.toNat ≤ 9 := isDigit
  have nonneg : (0 : Int) ≤ a + digit.toNat * 2 * unity := by
    unfold unity
    omega
  rw [roundDecimalDigit, ensure_ok _ isDigit, ok_bind, i32_ok (by unfold InI32; omega), ok_bind,
    i32_ok (by unfold InI32 unity; omega), ok_bind, i32_ok (by unfold InI32 unity; omega), ok_bind,
    Int.tdiv_eq_ediv_of_nonneg nonneg]
  have quotient : ((a : Int) + digit.toNat * 2 * unity) / 10 =
      (((a + digit.toNat * 131072) / 10 : ℕ) : Int) := by
    unfold unity
    omega
  rw [quotient, i32_ok (by unfold InI32; omega)]

theorem foldrM_roundDecimalDigit (areDigits : AreDigits digits) :
    digits.foldrM roundDecimalDigit 0 =
      .ok ((truncatedMultiple 131072 (digitValues digits) : ℕ) : Int) := by
  induction digits with
  | nil => rfl
  | cons digit digits ih => ?_
  have tail : AreDigits digits :=
    fun other member => areDigits other (List.mem_cons_of_mem digit member)
  have bound := truncatedMultiple_le 131072 (digitValues_le tail)
  rw [List.foldrM_cons, ih tail, ok_bind,
    roundDecimalDigit_eq (areDigits digit List.mem_cons_self) bound]
  rfl

/-- The half-up rounding of a fraction to a scaled value. -/
theorem half_floor (value : ℚ) (nonneg : 0 ≤ value) :
    (((⌊(131072 : ℚ) * value⌋₊ + 1) / 2 : ℕ) : Int) = ⌊(65536 : ℚ) * value + 1 / 2⌋ := by
  have positive : (0 : ℚ) ≤ 131072 * value := by positivity
  have shape : (65536 : ℚ) * value + 1 / 2 = (131072 * value + 1) / (2 : ℕ) := by
    push_cast
    ring
  have whole : (0 : ℚ) ≤ (131072 * value + 1) / (2 : ℕ) := by positivity
  rw [shape, ← Int.natCast_floor_eq_floor whole, Nat.floor_div_natCast, Nat.floor_add_one positive]

theorem roundDecimalFraction_eq (areDigits : AreDigits digits) : roundDecimalFraction digits =
      .ok ⌊(65536 : ℚ) * fraction (digitValues digits) + 1 / 2⌋ := by
  have bound := truncatedMultiple_le 131072 (digitValues_le (areDigits.take 17))
  have shortened : digitValues (digits.take 17) = (digitValues digits).take 17 :=
    List.map_take
  have truncated : truncatedMultiple 131072 (digitValues (digits.take 17)) =
      ⌊(131072 : ℚ) * fraction (digitValues digits)⌋₊ := by
    have decided := floor_pow_two_mul_take 17 (digitValues_le areDigits)
    norm_num at decided
    rw [truncatedMultiple_eq_floor, shortened]
    exact_mod_cast decided
  rw [roundDecimalFraction, foldrM_roundDecimalDigit (areDigits.take 17), ok_bind,
    i32_ok (by unfold InI32; omega), ok_bind, Int.tdiv_eq_ediv_of_nonneg (by omega),
    i32_ok (by unfold InI32; omega), ← half_floor _ (fraction_nonneg _), ← truncated]
  congr 1

/-- Rounding happens once, on the whole digit string, and the digits after the
seventeenth do not change it. -/
theorem roundDecimalFraction_exact {digits : List UInt8} (areDigits : AreDigits digits) :
    roundDecimalFraction digits =
        .ok ⌊(65536 : ℚ) * fraction (digitValues digits) + 1 / 2⌋ ∧
      ⌊(65536 : ℚ) * fraction (digitValues (digits.take 17)) + 1 / 2⌋ =
        ⌊(65536 : ℚ) * fraction (digitValues digits) + 1 / 2⌋ := by
  have whole := roundDecimalFraction_eq areDigits
  have kept := roundDecimalFraction_eq (areDigits.take 17)
  have same : roundDecimalFraction (digits.take 17) = roundDecimalFraction digits := by
    simp only [roundDecimalFraction, List.take_take, Nat.min_self]
  refine ⟨whole, ?_⟩
  rw [same, whole] at kept
  exact (Except.ok.inj kept).symm

/-- A third, in more digits than are looked at. -/
def manyThirds : List UInt8 := List.replicate 19 3 ++ [4]

theorem roundDecimalFraction_exact_third : roundDecimalFraction manyThirds =
        .ok ⌊(65536 : ℚ) * fraction (digitValues manyThirds) + 1 / 2⌋ ∧
      ⌊(65536 : ℚ) * fraction (digitValues (manyThirds.take 17)) + 1 / 2⌋ =
        ⌊(65536 : ℚ) * fraction (digitValues manyThirds) + 1 / 2⌋ :=
  roundDecimalFraction_exact (by decide +kernel)

/-! ## Printing -/

def digitText (digits : List UInt8) : String :=
  String.ofList (digits.map fun digit => Char.ofNat (digit.toNat + 48))

/-- The decimals with the given number of digits that are read back as a
fraction: their numeral lies in a half-open interval. -/
def Reads (scaledFraction : Int) (length : ℕ) (value : Int) : Prop :=
  (2 * scaledFraction - 1) * 10 ^ length ≤ 131072 * value ∧
    131072 * value < (2 * scaledFraction + 1) * 10 ^ length

theorem round_eq_iff_reads (digits : List ℕ) (scaledFraction : Int) :
    ⌊(65536 : ℚ) * fraction digits + 1 / 2⌋ = scaledFraction ↔
      Reads scaledFraction digits.length (numeral digits) := by
  have positive : (0 : ℚ) < 10 ^ digits.length := by positivity
  have shape : (65536 : ℚ) * fraction digits =
      65536 * numeral digits / 10 ^ digits.length := by
    rw [fraction]
    ring
  rw [Int.floor_eq_iff, ← sub_le_iff_le_add, ← lt_sub_iff_add_lt, shape, le_div_iff₀ positive,
    div_lt_iff₀ positive, Reads]
  constructor
  · rintro ⟨low, high⟩
    constructor
    · have scaled : ((2 * scaledFraction - 1) * 10 ^ digits.length : ℚ) ≤
          131072 * numeral digits := by linarith
      exact_mod_cast scaled
    have scaled : (131072 * numeral digits : ℚ) <
        (2 * scaledFraction + 1) * 10 ^ digits.length := by linarith
    exact_mod_cast scaled
  rintro ⟨low, high⟩
  have lowScaled : ((2 * scaledFraction - 1) * 10 ^ digits.length : ℚ) ≤
      131072 * numeral digits := by exact_mod_cast low
  have highScaled : (131072 * numeral digits : ℚ) <
      (2 * scaledFraction + 1) * 10 ^ digits.length := by exact_mod_cast high
  constructor <;> linarith

theorem digitCharacter_ok {digit : ℕ} (small : digit ≤ 9) :
    digitCharacter (digit : Int) = .ok (Char.ofNat (digit + 48)) := by
  rw [digitCharacter, if_pos (by omega), if_pos (by omega), Int.toNat_natCast]

theorem push_digit (text : String) (digit : UInt8) (digits : List UInt8) :
    text.push (Char.ofNat (digit.toNat + 48)) ++ digitText digits =
      text ++ digitText (digit :: digits) := by
  simp [digitText, ← String.toList_inj]

theorem push_last_digit (text : String) (digit : UInt8) :
    text.push (Char.ofNat (digit.toNat + 48)) = text ++ digitText [digit] := by
  simp [digitText]

/-- With fewer than seventeen digits no decimal lies halfway between two scaled
fractions. -/
theorem not_halfway {length : ℕ} (short : length ≤ 5) (scaledFraction value : Int) :
    (2 * scaledFraction + 1) * 10 ^ length ≠ 131072 * value := by
  interval_cases length <;> omega

/-- The digits of a value below ten thousand millionths, as a byte. -/
theorem exists_digit {fraction : Int} (low : 0 ≤ fraction) (high : fraction < 655360) :
    ∃ digit : UInt8, digit ≤ 9 ∧ (digit.toNat : Int) = fraction.tdiv unity := by
  have quotient : fraction.tdiv unity = fraction / 65536 := Int.tdiv_eq_ediv_of_nonneg low
  refine ⟨UInt8.ofNat (fraction / 65536).toNat, ?_, ?_⟩
  · rw [UInt8.le_iff_toNat_le, UInt8.toNat_ofNat']
    change (fraction / 65536).toNat % 256 ≤ 9
    omega
  rw [quotient, UInt8.toNat_ofNat']
  omega

variable {fraction : Int}

/-- One round of the digit loop: the digit it pushes and the values it leaves. -/
theorem printScaledDigits_round {adjusted delta : Int} (rounds : ℕ) (text : String)
    (adjustment : adjusted = if unity < delta then fraction + (32768 - 50000) else fraction)
    (low : 0 ≤ adjusted) (high : adjusted < 655360) (bounded : 0 ≤ delta ∧ delta ≤ 100000)
    (isDigit : digit ≤ 9) (value : (digit.toNat : Int) = adjusted.tdiv unity) :
    printScaledDigits (rounds + 1) text fraction delta =
      if 10 * (adjusted % 65536) ≤ delta * 10 then .ok (text.push (Char.ofNat (digit.toNat + 48)))
      else printScaledDigits rounds (text.push (Char.ofNat (digit.toNat + 48)))
          (10 * (adjusted % 65536)) (delta * 10) := by
  have small : digit.toNat ≤ 9 := isDigit
  have first : roundFinalDigit fraction delta = .ok adjusted := by
    rw [roundFinalDigit, adjustment]
    split
    · rename_i large
      rw [if_pos large] at adjustment
      exact i64_ok (by unfold InI64; omega)
    · rfl
  have remainder : adjusted.tmod unity = adjusted % 65536 := Int.tmod_eq_emod_of_nonneg low
  rw [printScaledDigits, first, ok_bind, ← value, digitCharacter_ok small, ok_bind, remainder,
    i64_ok (by unfold InI64; omega), ok_bind, i64_ok (by unfold InI64; omega), ok_bind]

/-- What the rounds after the first `count` digits of a scaled fraction push:
digits that complete a decimal read back as the fraction, while no decimal of
an intermediate length is. -/
structure Completes (scaledFraction value : Int) (count : ℕ) (digits : List UInt8) : Prop where
  nonempty : digits ≠ []
  short : digits.length + count ≤ 5
  areDigits : AreDigits digits
  reads : Reads scaledFraction (digits.length + count)
    (value * 10 ^ digits.length + numeral (digitValues digits))
  shortest : ∀ length, count < length → length < digits.length + count →
    ∀ other, ¬Reads scaledFraction length other

theorem Completes.single {scaledFraction value : Int} {count : ℕ} {digit : UInt8}
    (isDigit : digit ≤ 9) (short : count + 1 ≤ 5)
    (reads : Reads scaledFraction (count + 1) (10 * value + digit.toNat)) :
    Completes scaledFraction value count [digit] where
  nonempty := List.cons_ne_nil _ _
  short := by
    rw [List.length_singleton]
    omega
  areDigits := fun other member => List.mem_singleton.mp member ▸ isDigit
  reads := by
    have shape : value * 10 ^ [digit].length + numeral (digitValues [digit]) =
        10 * value + digit.toNat := by
      simp [digitValues, numeral_singleton]
      ring
    rw [shape, List.length_singleton, Nat.add_comm]
    exact reads
  shortest := fun length above below => by
    rw [List.length_singleton] at below
    omega

theorem Completes.cons {scaledFraction value : Int} {count : ℕ} {digit : UInt8}
    {digits : List UInt8} (isDigit : digit ≤ 9)
    (unread : ∀ other, ¬Reads scaledFraction (count + 1) other)
    (rest : Completes scaledFraction (10 * value + digit.toNat) (count + 1) digits) :
    Completes scaledFraction value count (digit :: digits) where
  nonempty := List.cons_ne_nil _ _
  short := by
    have short := rest.short
    rw [List.length_cons]
    omega
  areDigits := fun other member => by
    rcases List.mem_cons.mp member with rfl | later
    · exact isDigit
    · exact rest.areDigits other later
  reads := by
    have shape : value * 10 ^ (digit :: digits).length +
          numeral (digitValues (digit :: digits)) =
        (10 * value + digit.toNat) * 10 ^ digits.length +
          numeral (digitValues digits) := by
      simp only [digitValues, List.map_cons, numeral_cons, List.length_cons, List.length_map]
      push_cast
      ring
    have lengths : (digit :: digits).length + count = digits.length + (count + 1) := by
      rw [List.length_cons]
      omega
    rw [shape, lengths]
    exact rest.reads
  shortest := fun length above below other => by
    rcases Nat.lt_or_ge (count + 1) length with later | now
    · rw [List.length_cons] at below
      exact rest.shortest length later (by omega) other
    have same : length = count + 1 := by omega
    rw [same]
    exact unread other

/-- The error a prefix of the digits leaves, ten times enlarged at each digit. -/
def Remaining (scaledFraction value fraction : Int) (count : ℕ) : Prop :=
  fraction = 5 * ((2 * scaledFraction + 1) * 10 ^ count - 131072 * value)

theorem Remaining.next {scaledFraction value fraction : Int} {count : ℕ}
    (remaining : Remaining scaledFraction value fraction count) :
    Remaining scaledFraction (10 * value + fraction / 65536) (10 * (fraction % 65536))
      (count + 1) := by
  have power : (10 : Int) ^ (count + 1) = 10 * 10 ^ count := by ring
  unfold Remaining at remaining ⊢
  rw [power]
  have division := Int.emod_add_mul_ediv fraction 65536
  linarith

variable {scaledFraction : Int} {count : ℕ}

/-- The loop's test decides whether the digits pushed so far are read back as
the fraction. -/
theorem Remaining.reads (short : count ≤ 5)
    (remaining : Remaining scaledFraction value fraction count) (low : 0 ≤ fraction)
    (stops : fraction ≤ 10 * 10 ^ count) : Reads scaledFraction count value := by
  have apart := not_halfway short scaledFraction value
  unfold Remaining at remaining
  constructor
  · linarith
  have upper : 131072 * value ≤ (2 * scaledFraction + 1) * 10 ^ count := by linarith
  exact lt_of_le_of_ne upper (Ne.symm apart)

theorem Remaining.unread (remaining : Remaining scaledFraction value fraction count)
    (high : fraction < 655360) (continues : 10 * 10 ^ count < fraction) (other : Int) :
    ¬Reads scaledFraction count other := by
  rintro ⟨below, above⟩
  unfold Remaining at remaining
  rcases Int.lt_or_le value other with later | earlier
  · have next : value + 1 ≤ other := later
    linarith
  · linarith

/-- The fifth digit is rounded; it always ends the loop. -/
theorem printScaledDigits_fifth (text : String)
    (remaining : Remaining scaledFraction value fraction 4) (low : 100000 < fraction)
    (high : fraction < 655360) :
    ∃ digits, printScaledDigits 1 text fraction 100000 = .ok (text ++ digitText digits) ∧
      Completes scaledFraction value 4 digits := by
  have adjustment : fraction - 17232 =
      if unity < 100000 then fraction + (32768 - 50000) else fraction := by
    rw [if_pos (by decide)]
    ring
  obtain ⟨digit, isDigit, digitValue⟩ := @exists_digit (fraction - 17232) (by omega) (by omega)
  have quotient : (digit.toNat : Int) = (fraction - 17232) / 65536 := by
    rw [digitValue]
    exact Int.tdiv_eq_ediv_of_nonneg (by omega)
  refine ⟨[digit], ?_, ?_⟩
  · rw [printScaledDigits_round 0 text adjustment (by omega) (by omega) (by decide) isDigit
      digitValue, if_pos (by omega), push_last_digit]
  refine Completes.single isDigit (by omega) ?_
  unfold Remaining at remaining
  unfold Reads
  norm_num at remaining ⊢
  omega

theorem printScaledDigits_completes {scaledFraction : Int} (rounds count : ℕ)
    (total : rounds + 1 + count = 5) (value fraction : Int) (text : String)
    (remaining : Remaining scaledFraction value fraction count) (low : 0 ≤ fraction)
    (high : fraction < 655360) (continues : count = 0 ∨ 10 * 10 ^ count < fraction) : ∃ digits,
      printScaledDigits (rounds + 1) text fraction (10 * 10 ^ count) =
        .ok (text ++ digitText digits) ∧ Completes scaledFraction value count digits := by
  induction rounds generalizing count value fraction text with
  | zero =>
    have last : count = 4 := by omega
    subst last
    have above : 100000 < fraction := by
      rcases continues with impossible | above
      · omega
      norm_num at above
      exact above
    exact printScaledDigits_fifth text remaining above high
  | succ rounds ih => ?_
  have early : count ≤ 3 := by omega
  have power : (10 : Int) ^ count ≤ 10 ^ 3 := pow_le_pow_right₀ (by norm_num) early
  have positive : (0 : Int) < 10 ^ count := by positivity
  norm_num at power
  have adjustment : fraction =
      if unity < 10 * 10 ^ count then fraction + (32768 - 50000) else fraction := by
    rw [if_neg (by unfold unity; omega)]
  obtain ⟨digit, isDigit, digitValue⟩ := exists_digit low high
  have quotient : (digit.toNat : Int) = fraction / 65536 := by
    rw [digitValue]
    exact Int.tdiv_eq_ediv_of_nonneg low
  have next := remaining.next
  rw [← quotient] at next
  have delta : (10 * 10 ^ count * 10 : Int) = 10 * 10 ^ (count + 1) := by ring
  rw [printScaledDigits_round _ text adjustment low high (by omega) isDigit digitValue, delta]
  by_cases stops : 10 * (fraction % 65536) ≤ 10 * 10 ^ (count + 1)
  · refine ⟨[digit], ?_, ?_⟩
    · rw [if_pos stops, push_last_digit]
    · exact Completes.single isDigit (by omega) (next.reads (by omega) (by omega) stops)
  have unread := next.unread (by omega) (lt_of_not_ge stops)
  obtain ⟨digits, printed, completes⟩ := ih (count + 1) (by omega) (10 * value + digit.toNat)
    (10 * (fraction % 65536)) (text.push (Char.ofNat (digit.toNat + 48))) next (by omega)
    (by omega) (Or.inr (lt_of_not_ge stops))
  refine ⟨digit :: digits, ?_, completes.cons isDigit unread⟩
  rw [if_neg stops, printed, push_digit]

/-- A printed value is read back as the value, with at most five digits after
the point, and with no shorter nonempty digit string in their place. -/
theorem printScaled_shortest (value : Scaled) : ∃ (whole : ℕ) (digits : List UInt8),
      printScaled value = .ok ((if value.toInt < 0 then "-" else "") ++ toString whole ++ "." ++
        digitText digits) ∧ digits ≠ [] ∧ digits.length ≤ 5 ∧ AreDigits digits ∧
      (∃ fraction, roundDecimalFraction digits = .ok fraction ∧
        (value.toInt.natAbs : Int) = whole * 65536 + fraction) ∧
      ∀ shorter : List UInt8, shorter ≠ [] → shorter.length < digits.length → AreDigits shorter →
        ∀ fraction, roundDecimalFraction shorter = .ok fraction →
          (value.toInt.natAbs : Int) ≠ whole * 65536 + fraction := by
  have bounds : -2147483648 ≤ value.toInt ∧ value.toInt ≤ 2147483647 :=
    ⟨value.le_toInt, Int.le_of_lt_add_one value.toInt_lt⟩
  have magnitude :
      (if value.toInt < 0 then -value.toInt else value.toInt) = value.toInt.natAbs := by
    split <;> omega
  have scaledFraction : (value.toInt.natAbs : Int) =
      (value.toInt.natAbs / 65536 : ℕ) * 65536 + (value.toInt.natAbs % 65536 : ℕ) := by omega
  obtain ⟨digits, printed, completes⟩ :=
    @printScaledDigits_completes (value.toInt.natAbs % 65536 : ℕ) 4 0 rfl 0
      (10 * (value.toInt.natAbs % 65536 : ℕ) + 5)
      (((if value.toInt < 0 then "-" else "") ++
        toString (value.toInt.natAbs / 65536 : ℕ)).push '.')
      (by unfold Remaining; ring) (by omega) (by omega) (Or.inl rfl)
  have reads := completes.reads
  rw [zero_mul, zero_add, Nat.add_zero] at reads
  have lengths : ∀ digits : List UInt8, (digitValues digits).length = digits.length :=
    fun digits => List.length_map _
  refine ⟨value.toInt.natAbs / 65536, digits, ?_, completes.nonempty, completes.short,
    completes.areDigits, ⟨(value.toInt.natAbs % 65536 : ℕ), ?_, scaledFraction⟩, ?_⟩
  · have division :
        (value.toInt.natAbs : Int).tdiv unity = (value.toInt.natAbs / 65536 : ℕ) := rfl
    have remainder : (value.toInt.natAbs : Int).tmod unity = (value.toInt.natAbs % 65536 : ℕ) := rfl
    rw [printScaled, magnitude, i64_ok (by unfold InI64; omega), ok_bind]
    dsimp only
    rw [division, remainder, i64_ok (by unfold InI64; omega), ok_bind,
      i64_ok (by unfold InI64; omega), ok_bind]
    rw [show (10 * 10 ^ 0 : Int) = 10 from rfl] at printed
    rw [show toString (((value.toInt.natAbs / 65536 : ℕ) : Int)) =
      toString (value.toInt.natAbs / 65536 : ℕ) from rfl, printed]
    congr 2
  · rw [roundDecimalFraction_eq completes.areDigits]
    congr 1
    rw [round_eq_iff_reads, lengths]
    exact reads
  intro shorter nonempty short areDigits fraction rounded equal
  rw [roundDecimalFraction_eq areDigits] at rounded
  have same : fraction = (value.toInt.natAbs % 65536 : ℕ) := by omega
  have read := (round_eq_iff_reads _ _).mp ((Except.ok.inj rounded).trans same)
  rw [lengths] at read
  have positive : 0 < shorter.length := List.length_pos_iff.mpr nonempty
  exact completes.shortest shorter.length positive short _ read

end Umber.Arith
