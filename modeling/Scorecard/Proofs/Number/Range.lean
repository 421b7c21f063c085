import Scorecard.Number.Basic
import Scorecard.Proofs.Number.Rounding

/-!
# Integers in the range of floats

A quotient rounds to a finite number if it does not reach `2 ^ 2098` quanta as it is rounded. Since
rounding is monotone, what decides about an integer is one number: half a step below the first power
of two that is out of range, a tie goes up.
-/

namespace Scorecard

namespace Binary64

theorem isFinite_ofQuotient_iff (negative : Bool) (numerator denominator : ℕ) :
    (ofQuotient negative numerator denominator).isFinite = true ↔
      roundedQuotient numerator denominator < 2 ^ 2098 := by
  have upper := significand_le_two_pow numerator denominator
  have lower := @two_pow_le_significand numerator denominator
  have finite : (ofQuotient negative numerator denominator).isFinite =
      if roundHalfEven numerator (denominator * 2 ^ shiftFor (numerator / denominator)) =
        2 ^ 53 then
        decide (shiftFor (numerator / denominator) + 1 ≤ 2045)
      else decide (shiftFor (numerator / denominator) ≤ 2045) := by
    simp only [ofQuotient]
    split <;> split <;> simp_all [isFinite]
  rw [finite, roundedQuotient]
  generalize shiftFor (numerator / denominator) = shift at upper lower ⊢
  generalize roundHalfEven numerator (denominator * 2 ^ shift) = significand at upper lower ⊢
  split
  · next carry =>
      have rounded : significand * 2 ^ shift < 2 ^ 2098 ↔ shift + 1 ≤ 2045 := by
        rw [carry, ← pow_add, Nat.pow_lt_pow_iff_right (by decide)]
        omega
      rw [rounded, decide_eq_true_eq]
  · next small =>
      have rounded : significand * 2 ^ shift < 2 ^ 2098 ↔ shift ≤ 2045 := by
        constructor
        · contrapose
          intro large
          rw [Nat.not_lt]
          calc 2 ^ 2098
              = 2 ^ 52 * 2 ^ 2046 := by rw [← pow_add]
            _ ≤ significand * 2 ^ shift :=
                Nat.mul_le_mul (lower (by omega)) (pow_right_mono₀ one_le_two (by omega))
        · intro shift_le
          calc significand * 2 ^ shift
              < 2 ^ 53 * 2 ^ shift := Nat.mul_lt_mul_of_pos_right (by omega) (Nat.two_pow_pos _)
            _ ≤ 2 ^ 53 * 2 ^ 2045 := Nat.mul_le_mul_left _ (pow_right_mono₀ one_le_two shift_le)
            _ = 2 ^ 2098 := by rw [← pow_add]
      rw [rounded, decide_eq_true_eq]

/-- The least natural number that is too large to be a float. -/
def beyond : ℕ := 2 ^ 1024 - 2 ^ 970

theorem roundedQuotient_beyond : roundedQuotient (beyond * quantaInOne) 1 = 2 ^ 2098 := by
  decide +kernel

theorem roundedQuotient_below : roundedQuotient (beyond * quantaInOne - 1) 1 < 2 ^ 2098 := by
  decide +kernel

theorem beyond_pos : 0 < beyond := by
  rw [Nat.pos_iff_ne_zero]
  intro zero
  have same : beyond * quantaInOne - 1 = beyond * quantaInOne := by rw [zero, Nat.zero_mul]
  have below := roundedQuotient_below
  rw [same, roundedQuotient_beyond] at below
  exact lt_irrefl _ below

theorem isFinite_ofInt_iff (value : ℤ) : (ofInt value).isFinite = true ↔ value.natAbs < beyond := by
  rw [ofInt, ofQuanta, isFinite_ofQuotient_iff, Int.natAbs_mul, Int.natAbs_natCast]
  constructor
  · intro finite
    by_contra large
    have scaled : beyond * quantaInOne ≤ value.natAbs * quantaInOne :=
      Nat.mul_le_mul_right _ (Nat.le_of_not_lt large)
    have rounded := roundedQuotient_mono scaled 1
    rw [roundedQuotient_beyond] at rounded
    exact absurd finite (Nat.not_lt.mpr rounded)
  · intro small
    have scaled : value.natAbs * quantaInOne < beyond * quantaInOne :=
      Nat.mul_lt_mul_of_pos_right small quantaInOne_pos
    exact (roundedQuotient_mono (Nat.le_sub_one_of_lt scaled) 1).trans_lt roundedQuotient_below

end Binary64

namespace Number

theorem floatOfInt_eq (value : ℤ) :
    floatOfInt value =
      if value.natAbs < Binary64.beyond then .ok (Binary64.ofInt value)
      else .error .integerBeyondFloat := by
  simp only [floatOfInt, Binary64.isFinite_ofInt_iff]

/-- The float nearest to a number, infinite if the number is out of range. -/
def nearest : Number → Binary64
  | .int value => .ofInt value
  | .float value => value

theorem toFloat_eq_nearest {number : Number} {float : Binary64}
    (converts : number.toFloat = .ok float) : number.toFloat = .ok number.nearest := by
  cases number with
  | float value => rfl
  | int value =>
      rw [toFloat, floatOfInt_eq] at converts ⊢
      split at converts
      · next small => rw [if_pos small, nearest]
      · cases converts

end Number

end Scorecard
