import Scorecard.Number.Basic
import Scorecard.Proofs.Number.Rounding

/-!
# Exact values of numbers

A finite number is worth a whole count of quanta, and every operation on finite numbers is the exact
operation on their values followed by one rounding. Each operation has one lemma that says so; the
arguments about sums, products and quotients are then arguments about integers. Integers of at most
53 bits are their own rounding, so the lemmas for mixed numbers make no difference between an exact
sum of integers and a rounded sum of floats.

The whole part of a bounded value has at most 53 bits. Bounds add up and multiply like the values,
and rounding does not pass them, so a computation on bounded values stays far from the ends of the
range.
-/

namespace Scorecard

/-- A quotient of a signed count of quanta, rounded. -/
def roundedValue (value : ℤ) (divisor : ℕ) : ℤ :=
  value.sign * roundedQuotient value.natAbs divisor

theorem roundedValue_natCast (value divisor : ℕ) :
    roundedValue value divisor = roundedQuotient value divisor := by
  rcases Nat.eq_zero_or_pos value with rfl | positive
  · simp [roundedValue]
  · simp [roundedValue, Int.sign_eq_one_of_pos (Int.natCast_pos.mpr positive)]

theorem roundedValue_neg (value : ℤ) (divisor : ℕ) :
    roundedValue (-value) divisor = -roundedValue value divisor := by
  simp [roundedValue]

theorem roundedValue_mono {value larger : ℤ} (le : value ≤ larger) (divisor : ℕ) :
    roundedValue value divisor ≤ roundedValue larger divisor := by
  obtain ⟨magnitude, rfl | rfl⟩ := value.eq_nat_or_neg <;>
    obtain ⟨largerMagnitude, rfl | rfl⟩ := larger.eq_nat_or_neg <;>
    simp only [roundedValue_neg, roundedValue_natCast]
  · exact_mod_cast roundedQuotient_mono (by omega) divisor
  · have both_zero : magnitude = 0 ∧ largerMagnitude = 0 := by omega
    simp [both_zero]
  · omega
  · have magnitude_le := roundedQuotient_mono (show largerMagnitude ≤ magnitude by omega) divisor
    omega

theorem roundedValue_mul_right (value : ℤ) (divisor : ℕ) {scale : ℕ} (positive : 0 < scale) :
    roundedValue (value * scale) (divisor * scale) = roundedValue value divisor := by
  simp [roundedValue, Int.sign_mul, Int.natAbs_mul, roundedQuotient_mul_right _ _ positive,
    Int.sign_eq_one_of_pos (Int.natCast_pos.mpr positive)]

/-- Integers of at most 53 bits, shifted by any number of places, are their own rounding. -/
theorem roundedValue_eq_self {significand : ℤ} (small : |significand| ≤ 2 ^ 53) (shift : ℕ) :
    roundedValue (significand * 2 ^ shift) 1 = significand * 2 ^ shift := by
  have magnitude_small : significand.natAbs ≤ 2 ^ 53 := by
    have := abs_le.mp small
    omega
  have exact_magnitude := roundedQuotient_of_dvd Nat.one_pos
    (two_pow_shiftFor_dvd magnitude_small shift)
  have split : (significand * 2 ^ shift).natAbs = significand.natAbs * 2 ^ shift := by
    simp [Int.natAbs_mul, Int.natAbs_pow]
  rw [Nat.mul_one, ← split] at exact_magnitude
  rw [roundedValue, exact_magnitude, Int.sign_mul_natAbs]

namespace Magnitude

theorem signed_natAbs (magnitude : Magnitude) (negative : Bool) :
    (magnitude.signed negative).natAbs = magnitude.quanta := by
  cases negative <;> simp [signed]

theorem signed_not (magnitude : Magnitude) (negative : Bool) :
    magnitude.signed (!negative) = -magnitude.signed negative := by
  cases negative <;> simp [signed]

theorem quanta_eq_zero_iff (magnitude : Magnitude) :
    magnitude.quanta = 0 ↔ magnitude.significand = 0 := by
  simp [quanta]

/-- A rounded magnitude under the sign of the quotient is the rounded value. -/
theorem signed_eq_roundedValue {value : ℤ} {negative : Bool} {denominator : ℕ}
    {magnitude : Magnitude} (sign : value ≠ 0 → negative = decide (value < 0))
    (worth : magnitude.quanta = roundedQuotient value.natAbs denominator) :
    magnitude.signed negative = roundedValue value denominator := by
  rw [signed, worth]
  rcases lt_trichotomy value 0 with below | rfl | above
  · simp [sign below.ne, below, roundedValue, Int.sign_eq_neg_one_of_neg below]
  · simp [roundedValue]
  · simp [sign above.ne', above.le, roundedValue, Int.sign_eq_one_of_pos above]

end Magnitude

namespace Binary64

theorem isFinite_iff_quanta? (number : Binary64) :
    number.isFinite = true ↔ ∃ value, number.quanta? = some value := by
  cases number <;> simp [isFinite, quanta?]

/-- A number with a value is a magnitude under a sign. -/
theorem exists_finite_of_quanta? {number : Binary64} {value : ℤ}
    (worth : number.quanta? = some value) :
    ∃ negative magnitude, number = .finite negative magnitude ∧
      magnitude.signed negative = value := by
  cases number with
  | nan => simp [quanta?] at worth
  | infinite negative => simp [quanta?] at worth
  | finite negative magnitude => exact ⟨negative, magnitude, rfl, Option.some.inj worth⟩

/-- The rounding of a quotient under a sign is worth the rounded value. -/
theorem quanta?_ofQuotient {value : ℤ} {negative : Bool} {denominator : ℕ}
    (sign : value ≠ 0 → negative = decide (value < 0))
    (safe : value.natAbs / denominator < safeBound) :
    (ofQuotient negative value.natAbs denominator).quanta? =
      some (roundedValue value denominator) := by
  obtain ⟨magnitude, rounded, worth⟩ := exists_ofQuotient negative safe
  rw [rounded, quanta?, Magnitude.signed_eq_roundedValue sign worth]

theorem quanta?_ofQuanta {value : ℤ} (safe : value.natAbs < safeBound) :
    (ofQuanta value).quanta? = some (roundedValue value 1) :=
  quanta?_ofQuotient (fun _ => rfl) (by simpa using safe)

theorem quanta?_neg {number : Binary64} {value : ℤ} (worth : number.quanta? = some value) :
    number.neg.quanta? = some (-value) := by
  rcases exists_finite_of_quanta? worth with ⟨negative, magnitude, rfl, rfl⟩
  rw [neg, quanta?, Magnitude.signed_not]

/-- Sums of zeros keep a sign, but not in their value. -/
theorem quanta?_add_eq {left right : Binary64} {leftValue rightValue : ℤ}
    (leftWorth : left.quanta? = some leftValue) (rightWorth : right.quanta? = some rightValue) :
    (left.add right).quanta? = (ofQuanta (leftValue + rightValue)).quanta? := by
  rcases exists_finite_of_quanta? leftWorth with ⟨leftNegative, leftMagnitude, rfl, rfl⟩
  rcases exists_finite_of_quanta? rightWorth with ⟨rightNegative, rightMagnitude, rfl, rfl⟩
  simp only [add]
  split
  · next zeros =>
      have sum_eq :
          leftMagnitude.signed leftNegative + rightMagnitude.signed rightNegative = 0 := by
        simp [Magnitude.signed, Magnitude.quanta, zeros]
      have safe : (0 : ℤ).natAbs < safeBound := Nat.two_pow_pos _
      rw [sum_eq, quanta?_ofQuanta safe]
      simp [zero, quanta?, Magnitude.signed, Magnitude.quanta, Magnitude.zero, roundedValue]
  · rfl

theorem quanta?_add {left right : Binary64} {leftValue rightValue : ℤ}
    (leftWorth : left.quanta? = some leftValue) (rightWorth : right.quanta? = some rightValue)
    (safe : (leftValue + rightValue).natAbs < safeBound) :
    (left.add right).quanta? = some (roundedValue (leftValue + rightValue) 1) := by
  rw [quanta?_add_eq leftWorth rightWorth, quanta?_ofQuanta safe]

theorem quanta?_sub {left right : Binary64} {leftValue rightValue : ℤ}
    (leftWorth : left.quanta? = some leftValue) (rightWorth : right.quanta? = some rightValue)
    (safe : (leftValue - rightValue).natAbs < safeBound) :
    (left.sub right).quanta? = some (roundedValue (leftValue - rightValue) 1) := by
  rw [Int.sub_eq_add_neg] at safe ⊢
  exact quanta?_add leftWorth (quanta?_neg rightWorth) safe

/-- The sign of an exact product or quotient, where it is not zero. -/
theorem sign_ne_eq (left right : Magnitude) (leftNegative rightNegative : Bool)
    (nonzero : left.signed leftNegative * right.signed rightNegative ≠ 0) :
    (leftNegative != rightNegative) =
      decide (left.signed leftNegative * right.signed rightNegative < 0) := by
  have left_pos : 0 < (left.quanta : ℤ) := by
    have : left.signed leftNegative ≠ 0 := left_ne_zero_of_mul nonzero
    have := left.signed_natAbs leftNegative
    omega
  have right_pos : 0 < (right.quanta : ℤ) := by
    have : right.signed rightNegative ≠ 0 := right_ne_zero_of_mul nonzero
    have := right.signed_natAbs rightNegative
    omega
  have product_pos := mul_pos left_pos right_pos
  cases leftNegative <;> cases rightNegative <;> simp [Magnitude.signed] <;> omega

theorem quanta?_mul {left right : Binary64} {leftValue rightValue : ℤ}
    (leftWorth : left.quanta? = some leftValue) (rightWorth : right.quanta? = some rightValue)
    (safe : (leftValue * rightValue).natAbs / quantaInOne < safeBound) :
    (left.mul right).quanta? = some (roundedValue (leftValue * rightValue) quantaInOne) := by
  rcases exists_finite_of_quanta? leftWorth with ⟨leftNegative, leftMagnitude, rfl, rfl⟩
  rcases exists_finite_of_quanta? rightWorth with ⟨rightNegative, rightMagnitude, rfl, rfl⟩
  have magnitudes : leftMagnitude.quanta * rightMagnitude.quanta =
      (leftMagnitude.signed leftNegative * rightMagnitude.signed rightNegative).natAbs := by
    simp only [Int.natAbs_mul, Magnitude.signed_natAbs]
  simp only [mul, magnitudes]
  exact quanta?_ofQuotient (sign_ne_eq _ _ _ _) safe

/-- The quotient by a positive number. -/
theorem quanta?_div {left right : Binary64} {leftValue : ℤ} {rightValue : ℕ}
    (leftWorth : left.quanta? = some leftValue) (rightWorth : right.quanta? = some (rightValue : ℤ))
    (positive : 0 < rightValue)
    (safe : (leftValue * quantaInOne).natAbs / rightValue < safeBound) :
    (left.div right).quanta? = some (roundedValue (leftValue * quantaInOne) rightValue) := by
  rcases exists_finite_of_quanta? leftWorth with ⟨leftNegative, leftMagnitude, rfl, rfl⟩
  rcases exists_finite_of_quanta? rightWorth with ⟨rightNegative, rightMagnitude, rfl, rightSigned⟩
  have rightQuanta : rightMagnitude.quanta = rightValue := by
    rw [← rightMagnitude.signed_natAbs rightNegative, rightSigned, Int.natAbs_natCast]
  have nonzero : rightMagnitude.significand ≠ 0 := by
    rw [Ne, ← Magnitude.quanta_eq_zero_iff, rightQuanta]
    exact positive.ne'
  have rightSign : rightNegative = false := by
    by_contra negative
    simp only [Bool.not_eq_false] at negative
    simp only [negative, Magnitude.signed, if_true] at rightSigned
    omega
  subst rightSign
  have magnitudes : leftMagnitude.quanta * quantaInOne =
      (leftMagnitude.signed leftNegative * quantaInOne).natAbs := by
    simp only [Int.natAbs_mul, Magnitude.signed_natAbs, Int.natAbs_natCast]
  simp only [div, if_neg nonzero, rightQuanta]
  rw [magnitudes]
  refine quanta?_ofQuotient (fun product_ne => ?_) safe
  have left_pos : 0 < (leftMagnitude.quanta : ℤ) := by
    have left_ne := left_ne_zero_of_mul product_ne
    have := leftMagnitude.signed_natAbs leftNegative
    omega
  have product_pos := mul_pos left_pos (Int.natCast_pos.mpr quantaInOne_pos)
  cases leftNegative with
  | false => simpa [Magnitude.signed] using product_pos.le
  | true => simpa [Magnitude.signed] using product_pos

end Binary64

theorem natCast_quantaInOne : (quantaInOne : ℤ) = 2 ^ quantaExponent := by
  rw [quantaInOne_eq, Nat.cast_pow, Nat.cast_ofNat]

theorem natCast_quantaInOne_pos : 0 < (quantaInOne : ℤ) :=
  Int.natCast_pos.mpr quantaInOne_pos

/-- Integers of at most 53 bits are their own rounding. -/
theorem roundedValue_int {value : ℤ} (small : |value| ≤ 2 ^ 53) :
    roundedValue (value * quantaInOne) 1 = value * quantaInOne := by
  rw [natCast_quantaInOne]
  exact roundedValue_eq_self small quantaExponent

/-- A value of at most so many units, whatever its sign. -/
def Within (bound : ℕ) (value : ℤ) : Prop :=
  |value| ≤ bound * quantaInOne

namespace Within

variable {bound otherBound : ℕ} {value otherValue : ℤ}

theorem mono (within : Within bound value) (le : bound ≤ otherBound) : Within otherBound value :=
  within.trans (mul_le_mul_of_nonneg_right (by exact_mod_cast le) natCast_quantaInOne_pos.le)

theorem add (within : Within bound value) (otherWithin : Within otherBound otherValue) :
    Within (bound + otherBound) (value + otherValue) := by
  rw [Within, Nat.cast_add, add_mul]
  exact (abs_add_le _ _).trans (add_le_add within otherWithin)

theorem neg (within : Within bound value) : Within bound (-value) := by
  rwa [Within, abs_neg]

theorem sub (within : Within bound value) (otherWithin : Within otherBound otherValue) :
    Within (bound + otherBound) (value - otherValue) := by
  rw [sub_eq_add_neg]
  exact within.add otherWithin.neg

theorem mul_int {factor : ℤ} (within : Within bound value) (factor_le : |factor| ≤ otherBound) :
    Within (bound * otherBound) (value * factor) := by
  rw [Within, abs_mul, Nat.cast_mul, mul_right_comm]
  exact mul_le_mul within factor_le (abs_nonneg _) (by positivity)

theorem of_int {whole : ℤ} (le : |whole| ≤ bound) : Within bound (whole * quantaInOne) := by
  rw [Within, abs_mul, Nat.abs_cast]
  exact mul_le_mul_of_nonneg_right le natCast_quantaInOne_pos.le

theorem int_le {whole : ℤ} (within : Within bound (whole * quantaInOne)) : |whole| ≤ bound := by
  rw [Within, abs_mul, Nat.abs_cast] at within
  exact le_of_mul_le_mul_right within natCast_quantaInOne_pos

theorem natAbs_le (within : Within bound value) : value.natAbs ≤ bound * quantaInOne := by
  zify
  exact within

theorem natAbs_lt_safeBound (within : Within bound value) (small : bound ≤ 2 ^ 53) :
    value.natAbs < safeBound := by
  calc value.natAbs ≤ bound * quantaInOne := within.natAbs_le
    _ ≤ 2 ^ 53 * quantaInOne := Nat.mul_le_mul_right _ small
    _ = 2 ^ (53 + quantaExponent) := by rw [quantaInOne_eq, Nat.pow_add]
    _ < safeBound := by
      rw [safeBound]
      apply Nat.pow_lt_pow_right (by decide)
      rw [quantaExponent_eq]
      decide

/-- Rounding does not pass a bound that is its own rounding. -/
theorem rounded_of_exact {divisor : ℕ} (within : Within (bound * divisor) value)
    (positive : 0 < divisor)
    (exactly : roundedValue (bound * quantaInOne) 1 = bound * quantaInOne) :
    Within bound (roundedValue value divisor) := by
  have bound_exact : roundedValue ((bound * divisor : ℕ) * quantaInOne) divisor =
      bound * quantaInOne := by
    have scaled := roundedValue_mul_right (bound * quantaInOne) 1 positive
    rw [Nat.one_mul, exactly] at scaled
    rwa [Nat.cast_mul, mul_right_comm]
  rw [Within, abs_le] at within ⊢
  have lower := roundedValue_mono within.1 divisor
  have upper := roundedValue_mono within.2 divisor
  rw [roundedValue_neg, bound_exact] at lower
  rw [bound_exact] at upper
  exact ⟨lower, upper⟩

/-- Rounding does not pass a bound of at most 53 bits. -/
theorem rounded {divisor : ℕ} (within : Within (bound * divisor) value) (positive : 0 < divisor)
    (small : bound ≤ 2 ^ 53) : Within bound (roundedValue value divisor) := by
  apply within.rounded_of_exact positive
  apply roundedValue_int
  rw [Nat.abs_cast]
  exact_mod_cast small

end Within

theorem within_half : Within 1 ((quantaInOne / 2 : ℕ) : ℤ) := by
  rw [Within, Nat.abs_cast, Nat.cast_one, one_mul]
  exact_mod_cast Nat.div_le_self _ _

theorem Binary64.quanta?_ofInt {value : ℤ} (small : |value| ≤ 2 ^ 53) :
    (ofInt value).quanta? = some (value * quantaInOne) := by
  have within : Within (2 ^ 53) (value * quantaInOne) := .of_int (by exact_mod_cast small)
  have worth := quanta?_ofQuanta (within.natAbs_lt_safeBound le_rfl)
  rwa [roundedValue_int small] at worth

theorem le_quantaExponent {cuts : ℕ} (le : cuts ≤ 1074) : cuts ≤ quantaExponent := by
  rwa [quantaExponent_eq]

theorem quantaInOne_eq_mul_two : quantaInOne = 2 ^ (quantaExponent - 1) * 2 := by
  have exponent_pos : 1 ≤ quantaExponent := le_quantaExponent (by decide)
  rw [quantaInOne_eq, ← Nat.pow_succ, Nat.succ_eq_add_one, Nat.sub_add_cancel exponent_pos]

theorem Binary64.quanta?_half : half.quanta? = some ((quantaInOne / 2 : ℕ) : ℤ) := by
  have unit_eq := quantaInOne_eq_mul_two
  have representable := two_pow_shiftFor_dvd (show 1 ≤ 2 ^ 53 by decide) (quantaExponent - 1)
  rw [Nat.one_mul] at representable
  have exact_half := roundedQuotient_of_dvd (show 0 < 2 by decide) representable
  have within : Within 1 (quantaInOne : ℤ) := by
    rw [Within, Nat.abs_cast, Nat.cast_one, one_mul]
  have safe : (quantaInOne : ℤ).natAbs / 2 < safeBound :=
    (Nat.div_le_self _ _).trans_lt (within.natAbs_lt_safeBound (by decide))
  have worth : (ofQuotient false (quantaInOne : ℤ).natAbs 2).quanta? = _ :=
    quanta?_ofQuotient (fun _ => by simp) safe
  rw [roundedValue_natCast, unit_eq, exact_half, ← unit_eq, Int.natAbs_natCast] at worth
  rw [half, worth, unit_eq, Nat.mul_div_cancel _ (by decide)]

end Scorecard
