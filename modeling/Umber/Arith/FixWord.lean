import Umber.Arith.Scaled

/-! Metric words of font files as scaled points. -/

set_option autoImplicit false

namespace Umber.Arith

open ExceptLib

inductive TfmConversionError where
  | invalidAtSize
  | invalidFixWord
  | arithmeticOverflow

/-- `overflow` is an operation on machine integers that leaves its range, `unfinished` a loop
that has used up the rounds the model grants it. -/
inductive TfmStop where
  | conversion (error : TfmConversionError)
  | overflow
  | unfinished

structure FixWord where
  a : UInt8
  b : UInt8
  c : UInt8
  d : UInt8

def checkedI32 (value : Int) : Except TfmStop Int :=
  if InI32 value then .ok value else .error .overflow

def checkedI64 (value : Int) : Except TfmStop Int :=
  if InI64 value then .ok value else .error .overflow

def tfmStoreScaledLimit : Int := 8388608

def tfmSizeLimit : Int := 134217728

def tfmFixWordRadix : Int := 256

/-- The size below the limit and the scale that makes up for the halvings. -/
def normalSize : Nat → Int → Int → Except TfmStop (Int × Int)
  | 0, _, _ => .error .unfinished
  | rounds + 1, z, alpha =>
    if tfmStoreScaledLimit ≤ z then do
      let doubled ← checkedI32 (alpha + alpha)
      normalSize rounds (z.tdiv 2) doubled
    else .ok (z, alpha)

def scaledLow (word : FixWord) (z beta : Int) : Except TfmStop Int := do
  let d ← checkedI64 (word.d.toNat * z)
  let c ← checkedI64 (word.c.toNat * z)
  let low ← checkedI64 (d.tdiv tfmFixWordRadix + c)
  let b ← checkedI64 (word.b.toNat * z)
  let sum ← checkedI64 (low.tdiv tfmFixWordRadix + b)
  .ok (sum.tdiv beta)

def signed (word : FixWord) (sw alpha : Int) : Except TfmStop Int :=
  if word.a = 0 then .ok sw
  else if word.a = 255 then checkedI64 (sw - alpha)
  else .error (.conversion .invalidFixWord)

def tfmFixWordToScaled (word : FixWord) (fontSize : Scaled) : Except TfmStop Scaled :=
  if fontSize.toInt ≤ 0 ∨ tfmSizeLimit ≤ fontSize.toInt then .error (.conversion .invalidAtSize)
  else do
    let normal ← normalSize 32 fontSize.toInt 16
    let beta := (256 : Int).tdiv normal.2
    let alpha ← checkedI32 (normal.2 * normal.1)
    let sw ← scaledLow word normal.1 beta
    let value ← signed word sw alpha
    if InI32 value then .ok (Int32.ofInt value) else .error (.conversion .arithmeticOverflow)

/-! ## One rounding -/

def FixWord.value (word : FixWord) : Int :=
  (if word.a.toNat < 128 then (word.a.toNat : Int) else word.a.toNat - 256) * 16777216 +
    word.b.toNat * 65536 + word.c.toNat * 256 + word.d.toNat

def doubled : Nat → Int → Int
  | 0, value => value
  | rounds + 1, value => doubled rounds value * 2

def halved : Nat → Int → Int
  | 0, value => value
  | rounds + 1, value => halved rounds value / 2

structure NormalSize (size : Int) (rounds : Nat) (z beta : Int) : Prop where
  halved : z = halved rounds size
  below : z < 8388608
  least : ∀ earlier, earlier < rounds → 8388608 ≤ Arith.halved earlier size
  divisor : beta * doubled rounds 1 = 16

theorem normalSize_cases {size : Int} (positive : 0 < size) (small : size < 134217728) :
    ∃ rounds z beta, NormalSize size rounds z beta ∧ rounds ≤ 4 ∧
      normalSize 32 size 16 = .ok (z, 16 * doubled rounds 1) := by
  have step : ∀ {fuel : Nat} {z alpha : Int}, 8388608 ≤ z → 0 < alpha → alpha ≤ 128 →
      normalSize (fuel + 1) z alpha = normalSize fuel (z / 2) (alpha + alpha) := by
    intro fuel z alpha large positive bounded
    have fits : InI32 (alpha + alpha) := by
      unfold InI32
      omega
    rw [normalSize, tfmStoreScaledLimit, if_pos large, checkedI32, if_pos fits, ok_bind,
      Int.tdiv_eq_ediv_of_nonneg (by omega)]
  have stop : ∀ {fuel : Nat} {z alpha : Int}, z < 8388608 →
      normalSize (fuel + 1) z alpha = .ok (z, alpha) := by
    intro fuel z alpha below
    rw [normalSize, tfmStoreScaledLimit, if_neg (by omega)]
  by_cases zero : size < 8388608
  · refine ⟨0, size, 16, ⟨rfl, zero, (fun _ below => absurd below (Nat.not_lt_zero _)), rfl⟩,
      Nat.zero_le _, stop zero⟩
  by_cases one : size / 2 < 8388608
  · refine ⟨1, size / 2, 8, ⟨rfl, one, fun earlier below => ?_, rfl⟩, by decide, ?_⟩
    · obtain rfl : earlier = 0 := by omega
      exact Int.not_lt.mp zero
    rw [step (by omega) (by decide) (by decide), stop one]
    rfl
  by_cases two : size / 2 / 2 < 8388608
  · refine ⟨2, size / 2 / 2, 4, ⟨rfl, two, fun earlier below => ?_, rfl⟩, by decide, ?_⟩
    · obtain rfl | rfl : earlier = 0 ∨ earlier = 1 := by omega
      · exact Int.not_lt.mp zero
      · exact Int.not_lt.mp one
    rw [step (by omega) (by decide) (by decide), step (by omega) (by decide) (by decide), stop two]
    rfl
  by_cases three : size / 2 / 2 / 2 < 8388608
  · refine ⟨3, size / 2 / 2 / 2, 2, ⟨rfl, three, fun earlier below => ?_, rfl⟩, by decide, ?_⟩
    · obtain rfl | rfl | rfl : earlier = 0 ∨ earlier = 1 ∨ earlier = 2 := by omega
      · exact Int.not_lt.mp zero
      · exact Int.not_lt.mp one
      · exact Int.not_lt.mp two
    rw [step (by omega) (by decide) (by decide), step (by omega) (by decide) (by decide),
      step (by omega) (by decide) (by decide), stop three]
    rfl
  have four : size / 2 / 2 / 2 / 2 < 8388608 := by omega
  refine ⟨4, size / 2 / 2 / 2 / 2, 1, ⟨rfl, four, fun earlier below => ?_, rfl⟩, by decide, ?_⟩
  · obtain rfl | rfl | rfl | rfl : earlier = 0 ∨ earlier = 1 ∨ earlier = 2 ∨ earlier = 3 := by
      omega
    · exact Int.not_lt.mp zero
    · exact Int.not_lt.mp one
    · exact Int.not_lt.mp two
    · exact Int.not_lt.mp three
  rw [step (by omega) (by decide) (by decide), step (by omega) (by decide) (by decide),
    step (by omega) (by decide) (by decide), step (by omega) (by decide) (by decide),
    stop four]
  rfl

theorem byte_mul {z : Int} (positive : 0 ≤ z) (byte : UInt8) :
    0 ≤ (byte.toNat : Int) * z ∧ (byte.toNat : Int) * z ≤ 255 * z := by
  have small := byte.toNat_lt
  exact ⟨Int.mul_nonneg (by omega) positive, Int.mul_le_mul_of_nonneg_right (by omega) positive⟩

/-- The three nested divisions are one division, whatever the divisor of the size. -/
theorem scaledLow_eq (word : FixWord) {z beta : Int} (positive : 0 ≤ z) (below : z < 8388608) :
    scaledLow word z beta =
      .ok ((word.b.toNat * z * 65536 + word.c.toNat * z * 256 + word.d.toNat * z) / 65536 / beta) := by
  obtain ⟨bLow, bHigh⟩ := byte_mul positive word.b
  obtain ⟨cLow, cHigh⟩ := byte_mul positive word.c
  obtain ⟨dLow, dHigh⟩ := byte_mul positive word.d
  have within : ∀ {value : Int}, 0 ≤ value → value ≤ 1000000000000 → InI64 value := by
    intro value low high
    unfold InI64
    omega
  have low : ((word.d.toNat : Int) * z).tdiv 256 = word.d.toNat * z / 256 :=
    Int.tdiv_eq_ediv_of_nonneg dLow
  have middle : ((word.d.toNat : Int) * z / 256 + word.c.toNat * z).tdiv 256 =
      (word.d.toNat * z / 256 + word.c.toNat * z) / 256 :=
    Int.tdiv_eq_ediv_of_nonneg (by omega)
  have whole : (word.d.toNat * z / 256 + word.c.toNat * z) / 256 + word.b.toNat * z =
      (word.b.toNat * z * 65536 + word.c.toNat * z * 256 + word.d.toNat * z) / 65536 := by omega
  rw [scaledLow, checkedI64, if_pos (within dLow (by omega)), ok_bind, checkedI64,
    if_pos (within cLow (by omega)), ok_bind, tfmFixWordRadix, low, checkedI64,
    if_pos (within (by omega) (by omega)), ok_bind, checkedI64, if_pos (within bLow (by omega)),
    ok_bind, middle, checkedI64, if_pos (within (by omega) (by omega)), ok_bind, whole,
    Int.tdiv_eq_ediv_of_nonneg (by omega)]

def Scales (scale beta : Int) : Prop :=
  scale = 1 ∧ beta = 16 ∨ scale = 2 ∧ beta = 8 ∨ scale = 4 ∧ beta = 4 ∨ scale = 8 ∧ beta = 2 ∨
    scale = 16 ∧ beta = 1

theorem NormalSize.scale {size z beta : Int} {rounds : Nat} (normal : NormalSize size rounds z beta)
    (positive : 0 < size) (few : rounds ≤ 4) :
    0 ≤ z ∧ doubled rounds 1 * z ≤ size ∧ size < doubled rounds 1 * z + doubled rounds 1 ∧
      Scales (doubled rounds 1) beta := by
  have halved := normal.halved
  have divisor := normal.divisor
  unfold Scales
  obtain rfl | rfl | rfl | rfl | rfl :
      rounds = 0 ∨ rounds = 1 ∨ rounds = 2 ∨ rounds = 3 ∨ rounds = 4 := by omega
  all_goals
    simp only [doubled, Arith.halved, true_and] at halved divisor ⊢
    omega

variable {scale beta : Int}

theorem Scales.tdiv (scales : Scales scale beta) : (256 : Int).tdiv (16 * scale) = beta := by
  obtain ⟨rfl, rfl⟩ | ⟨rfl, rfl⟩ | ⟨rfl, rfl⟩ | ⟨rfl, rfl⟩ | ⟨rfl, rfl⟩ := scales
  all_goals rfl

/-- The separate correction of negative words falls in with the one division. -/
theorem Scales.floor (scales : Scales scale beta) (total z : Int) :
    total / 65536 / beta = total / (65536 * beta) ∧
      total / 65536 / beta - 16 * (scale * z) = (total - 16777216 * z) / (65536 * beta) := by
  obtain ⟨rfl, rfl⟩ | ⟨rfl, rfl⟩ | ⟨rfl, rfl⟩ | ⟨rfl, rfl⟩ | ⟨rfl, rfl⟩ := scales
  all_goals omega

theorem Scales.near (scales : Scales scale beta) (product : Int) :
    1048576 * (product / (65536 * beta)) ≤ scale * product ∧
      scale * product < 1048576 * (product / (65536 * beta)) + 1048576 := by
  obtain ⟨rfl, rfl⟩ | ⟨rfl, rfl⟩ | ⟨rfl, rfl⟩ | ⟨rfl, rfl⟩ | ⟨rfl, rfl⟩ := scales
  all_goals omega

theorem FixWord.value_mul {word : FixWord} (sign : word.a = 0 ∨ word.a = 255) (z : Int) :
    word.value * z = word.b.toNat * z * 65536 + word.c.toNat * z * 256 + word.d.toNat * z -
        if word.a = 0 then 0 else 16777216 * z := by
  unfold value
  rcases sign with same | same
  · have zero : word.a.toNat = 0 := by rw [same]; rfl
    rw [if_pos same, zero, if_pos (by decide)]
    grind
  have full : word.a.toNat = 255 := by rw [same]; rfl
  have apart : word.a ≠ 0 := by rw [same]; decide
  rw [if_neg apart, full, if_neg (by decide)]
  grind

structure Converts (size : Scaled) (rounds : Nat) (z beta : Int) (word : FixWord)
    (value : Scaled) : Prop where
  result : tfmFixWordToScaled word size = .ok value
  floor : value.toInt = word.value * z / (65536 * beta)
  near : (1048576 * value.toInt - word.value * size.toInt).natAbs <
    1048576 + word.value.natAbs * (size.toInt - doubled rounds 1 * z).natAbs

theorem converts {size : Scaled} {rounds : Nat} {z beta : Int} (positive : 0 < size.toInt)
    (small : size.toInt < 134217728) (normal : NormalSize size.toInt rounds z beta)
    (few : rounds ≤ 4)
    (normalised : normalSize 32 size.toInt 16 = .ok (z, 16 * doubled rounds 1)) {word : FixWord}
    (sign : word.a = 0 ∨ word.a = 255) : ∃ value, Converts size rounds z beta word value := by
  obtain ⟨zero, low, high, scales⟩ := normal.scale positive few
  obtain ⟨bLow, bHigh⟩ := byte_mul zero word.b
  obtain ⟨cLow, cHigh⟩ := byte_mul zero word.c
  obtain ⟨dLow, dHigh⟩ := byte_mul zero word.d
  have scaled := @scaledLow_eq word z beta zero normal.below
  have product := FixWord.value_mul sign z
  have bytes : 0 ≤ word.b.toNat * z * 65536 + word.c.toNat * z * 256 + word.d.toNat * z ∧
      word.b.toNat * z * 65536 + word.c.toNat * z * 256 + word.d.toNat * z ≤ 16777215 * z := by
    omega
  generalize word.b.toNat * z * 65536 + word.c.toNat * z * 256 + word.d.toNat * z = total at *
  obtain ⟨least, most⟩ := scales.near (word.value * z)
  obtain ⟨plain, corrected⟩ := scales.floor total z
  have scaleUp : 16 * doubled rounds 1 * z = 16 * (doubled rounds 1 * z) := Int.mul_assoc ..
  have scalePositive : 0 ≤ doubled rounds 1 := by
    unfold Scales at scales
    omega
  have scaleLow : 0 ≤ doubled rounds 1 * z := Int.mul_nonneg scalePositive zero
  -- The words of both signs stay below sixteen times the size.
  have bounds : InI32 (word.value * z / (65536 * beta)) := by
    have within : -16777216 * z ≤ word.value * z ∧ word.value * z ≤ 16777216 * z := by
      split at product <;> omega
    have lower := Int.mul_le_mul_of_nonneg_left within.1 scalePositive
    have upper := Int.mul_le_mul_of_nonneg_left within.2 scalePositive
    rw [Int.mul_left_comm _ (-16777216)] at lower
    rw [Int.mul_left_comm _ 16777216] at upper
    unfold InI32
    omega
  have value : signed word (total / 65536 / beta) (16 * doubled rounds 1 * z) =
      .ok (word.value * z / (65536 * beta)) := by
    unfold signed
    rcases sign with same | same
    · rw [if_pos same] at product ⊢
      rw [product, Int.sub_zero, plain]
    have apart : word.a ≠ 0 := by rw [same]; decide
    have fits : InI64 (word.value * z / (65536 * beta)) := by
      unfold InI32 at bounds
      unfold InI64
      omega
    rw [if_neg apart] at product ⊢
    rw [if_pos same, scaleUp, corrected, ← product, checkedI64, if_pos fits]
  have alphaFits : InI32 (16 * doubled rounds 1 * z) := by
    unfold InI32
    omega
  refine ⟨Int32.ofInt (word.value * z / (65536 * beta)), ?_, ?_, ?_⟩
  · rw [tfmFixWordToScaled, tfmSizeLimit, if_neg (by omega), normalised, ok_bind]
    dsimp only
    rw [scales.tdiv, checkedI32, if_pos alphaFits, ok_bind, scaled, ok_bind, value, ok_bind,
      if_pos bounds]
  · exact Int32.toInt_ofInt_of_le bounds.1 (Int.lt_add_one_of_le bounds.2)
  have toInt := Int32.toInt_ofInt_of_le bounds.1 (Int.lt_add_one_of_le bounds.2)
  have split := Int.mul_left_comm word.value (doubled rounds 1) z
  have rest := Int.mul_sub word.value size.toInt (doubled rounds 1 * z)
  have remainder := Int.natAbs_mul word.value (size.toInt - doubled rounds 1 * z)
  rw [toInt, ← remainder]
  omega

/-- At every metric size there is one divisor with which every signed word converts without
overflow, by one rounding; so the conversion is monotone in the word. -/
theorem tfmFixWordToScaled_floor (size : Scaled) (positive : 0 < size.toInt)
    (small : size.toInt < 134217728) :
    ∃ (rounds : Nat) (z beta : Int), NormalSize size.toInt rounds z beta ∧
      0 ≤ size.toInt - doubled rounds 1 * z ∧ size.toInt - doubled rounds 1 * z < doubled rounds 1 ∧
      (∀ word : FixWord, word.a = 0 ∨ word.a = 255 →
        ∃ value, Converts size rounds z beta word value) ∧
      ∀ (word other : FixWord) (value greater : Scaled), word.value ≤ other.value →
        (word.a = 0 ∨ word.a = 255) → (other.a = 0 ∨ other.a = 255) →
        tfmFixWordToScaled word size = .ok value → tfmFixWordToScaled other size = .ok greater →
        value.toInt ≤ greater.toInt := by
  obtain ⟨rounds, z, beta, normal, few, normalised⟩ := normalSize_cases positive small
  obtain ⟨zero, low, high, scales⟩ := normal.scale positive few
  have all : ∀ word : FixWord, word.a = 0 ∨ word.a = 255 →
      ∃ value, Converts size rounds z beta word value :=
    fun _ sign => converts positive small normal few normalised sign
  refine ⟨rounds, z, beta, normal, by omega, by omega, all, ?_⟩
  intro word other value greater ordered sign otherSign converted otherConverted
  obtain ⟨found, exact_⟩ := all word sign
  obtain ⟨otherFound, otherExact⟩ := all other otherSign
  cases exact_.result.symm.trans converted
  cases otherExact.result.symm.trans otherConverted
  rw [exact_.floor, otherExact.floor]
  have divisor : 0 < 65536 * beta := by
    unfold Scales at scales
    omega
  exact Int.ediv_le_ediv divisor (Int.mul_le_mul_of_nonneg_right ordered zero)

theorem tfmFixWordToScaled_floor_largest :
    ∃ (rounds : Nat) (z beta : Int), NormalSize 134217727 rounds z beta ∧
      ∀ word : FixWord, word.a = 0 ∨ word.a = 255 →
        ∃ value, Converts 134217727 rounds z beta word value := by
  obtain ⟨rounds, z, beta, normal, _, _, converts, _⟩ :=
    tfmFixWordToScaled_floor 134217727 (by decide) (by decide)
  exact ⟨rounds, z, beta, normal, converts⟩

end Umber.Arith
