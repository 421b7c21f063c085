import Scorecard.Proofs.Except
import Scorecard.Proofs.Number.Fractions
import Scorecard.Proofs.Scoring.Monotone

/-!
# Exact scores of integers

The base of integer scores is a rounded tenth of an integer, and most tenths are no floats. No
rounding ever shows in the score: every step is monotone, and every step is exact on counts of
sixteenths. A tenth that is to be rounded to a whole number lies between two counts of sixteenths
that are rounded to it, so it is rounded there too, whatever happens to it on the way. Totals so
large that sixteenths are lost are beyond the bounds of the score, and there monotonicity is all
that is needed.
-/

namespace Scorecard

/-- So many sixteenths of one. -/
def sixteenths (count : ℤ) : ℤ :=
  count * 2 ^ (quantaExponent - 4)

theorem sixteenths_eq (count : ℤ) : sixteenths count = fraction 4 count :=
  rfl

theorem four_le_quantaExponent : 4 ≤ quantaExponent :=
  le_quantaExponent (by decide)

/-- Taking whole points off sixteenths, adding a half and rounding down are exact. -/
theorem halfUp_sixteenths_sub (count points : ℤ) (small : |count - 16 * points| ≤ 2 ^ 52) :
    Number.halfUp (roundedValue (sixteenths count - points * quantaInOne) 1) =
      (count + 8) / 16 - points := by
  rw [abs_le] at small
  have difference_small : |count - points * 2 ^ 4| ≤ 2 ^ 53 := abs_le.mpr ⟨by omega, by omega⟩
  have moved_small : |count - points * 2 ^ 4 + 2 ^ 3| ≤ 2 ^ 53 := abs_le.mpr ⟨by omega, by omega⟩
  rw [sixteenths_eq, mul_quantaInOne_eq_fraction four_le_quantaExponent, ← fraction_sub,
    roundedValue_fraction difference_small,
    Number.halfUp_fraction four_le_quantaExponent moved_small]
  omega

/-- A tenth of an integer, rounded. -/
def roundedTenth (total : ℤ) : ℤ :=
  roundedValue (total * quantaInOne) 10

theorem sixteenths_le_roundedTenth {count total : ℤ} (small : |count| ≤ 2 ^ 53)
    (le : count * 10 ≤ 16 * total) : sixteenths count ≤ roundedTenth total :=
  fraction_le_roundedValue four_le_quantaExponent (by decide) small (by omega)

theorem roundedTenth_le_sixteenths {count total : ℤ} (small : |count| ≤ 2 ^ 53)
    (le : 16 * total ≤ count * 10) : roundedTenth total ≤ sixteenths count :=
  roundedValue_le_fraction four_le_quantaExponent (by decide) small (by omega)

section

variable (total whole : ℤ) {points : ℤ}

/-- A tenth that reaches a whole number up to a half is at least eight sixteenths below it. -/
theorem le_halfUp_roundedTenth (small : |whole| ≤ 1000) (few : |points| ≤ 10)
    (le : 10 * whole ≤ total + 5) :
    whole - points ≤
      Number.halfUp (roundedValue (roundedTenth total - points * quantaInOne) 1) := by
  rw [abs_le] at small few
  have lower : sixteenths (16 * whole - 8) ≤ roundedTenth total :=
    sixteenths_le_roundedTenth (abs_le.mpr ⟨by omega, by omega⟩) (by omega)
  have exactly := halfUp_sixteenths_sub (16 * whole - 8) points (abs_le.mpr ⟨by omega, by omega⟩)
  calc whole - points
      = (16 * whole - 8 + 8) / 16 - points := by omega
    _ = Number.halfUp (roundedValue (sixteenths (16 * whole - 8) - points * quantaInOne) 1) :=
        exactly.symm
    _ ≤ Number.halfUp (roundedValue (roundedTenth total - points * quantaInOne) 1) :=
        Number.halfUp_mono (roundedValue_mono (sub_le_sub_right lower _) 1)

/-- A tenth of an integer that stays below a half above a whole number is at most seven sixteenths
above it. -/
theorem halfUp_roundedTenth_le (small : |whole| ≤ 1000) (few : |points| ≤ 10)
    (lt : total + 5 < 10 * whole + 10) :
    Number.halfUp (roundedValue (roundedTenth total - points * quantaInOne) 1) ≤
      whole - points := by
  rw [abs_le] at small few
  have upper : roundedTenth total ≤ sixteenths (16 * whole + 7) :=
    roundedTenth_le_sixteenths (abs_le.mpr ⟨by omega, by omega⟩) (by omega)
  have exactly := halfUp_sixteenths_sub (16 * whole + 7) points (abs_le.mpr ⟨by omega, by omega⟩)
  calc Number.halfUp (roundedValue (roundedTenth total - points * quantaInOne) 1)
      ≤ Number.halfUp (roundedValue (sixteenths (16 * whole + 7) - points * quantaInOne) 1) :=
        Number.halfUp_mono (roundedValue_mono (sub_le_sub_right upper _) 1)
    _ = (16 * whole + 7 + 8) / 16 - points := exactly
    _ = whole - points := by omega

end

/-- Between the bounds of the score a rounded tenth is held from both sides; beyond them one side is
enough. -/
theorem devScoreOf_roundedTenth (total : ℤ) {penalty : ℤ} (nonneg : 0 ≤ penalty) :
    devScoreOf (roundedTenth total) penalty =
      max 0 (min 100 ((total - 10 * appliedPoints penalty + 5).fdiv 10)) := by
  have points_nonneg := appliedPoints_nonneg nonneg
  have points_le := appliedPoints_le penalty
  rw [devScoreOf, Int.fdiv_eq_ediv_of_nonneg _ (by decide)]
  generalize appliedPoints penalty = points at *
  have few : |points| ≤ 10 := abs_le.mpr ⟨by omega, points_le⟩
  rcases lt_or_ge total (-5) with below | notBelow
  · have upper := halfUp_roundedTenth_le total (-1) (by decide) few (by omega)
    omega
  rcases lt_or_ge 1105 total with above | notAbove
  · have lower := le_halfUp_roundedTenth total 111 (by decide) few (by omega)
    omega
  · have small : |(total + 5) / 10| ≤ 1000 := abs_le.mpr ⟨by omega, by omega⟩
    have lower := le_halfUp_roundedTenth total _ small few (by omega)
    have upper := halfUp_roundedTenth_le total _ small few (by omega)
    omega

/-- Rounding a quotient does not pass a power of two. -/
theorem Within.rounded_two_pow {exponent divisor : ℕ} {value : ℤ}
    (within : Within (2 ^ exponent * divisor) value) (positive : 0 < divisor) :
    Within (2 ^ exponent) (roundedValue value divisor) := by
  apply within.rounded_of_exact positive
  have small : |(1 : ℤ)| ≤ 2 ^ 53 := by norm_num
  have shifted := roundedValue_eq_self small (exponent + quantaExponent)
  rw [one_mul, pow_add, ← natCast_quantaInOne] at shifted
  exact_mod_cast shifted

/-- The power of two that bounds a value in the range with room for two bits. -/
theorem Within.natAbs_lt_safeBound_of_lt {exponent bound : ℕ} {value : ℤ}
    (within : Within bound value) (room : exponent + 2 + quantaExponent = safeExponent)
    (lt : bound < 2 ^ (exponent + 2)) : value.natAbs < safeBound := by
  calc value.natAbs
      ≤ bound * quantaInOne := within.natAbs_le
    _ < 2 ^ (exponent + 2) * quantaInOne := Nat.mul_lt_mul_of_pos_right lt quantaInOne_pos
    _ = safeBound := by rw [quantaInOne_eq, safeBound, ← room, ← pow_add]

/-- An integer that is a float is taken from a float as it is. -/
theorem Number.float_sub_int {left : Binary64} {right value : ℤ}
    (worth : (Binary64.ofInt right).quanta? = some value) :
    (Number.float left).sub (.int right) = .ok (.float (left.sub (.ofInt right))) := by
  have taken : Number.toFloat (.int right) = .ok (.ofInt right) := floatOfInt_of_quanta? worth
  change Number.onFloats .sub (.float left) (.int right) = _
  rw [onFloats, taken]
  rfl

namespace Scores

variable {codeQuality timeComplexity spaceComplexity security readability : ℤ}

/-- Ten times the weighted mean of integer scores. -/
def weightedTotal (codeQuality timeComplexity spaceComplexity security readability : ℤ) : ℤ :=
  3 * codeQuality + 2 * timeComplexity + 2 * security + 2 * readability + spaceComplexity

theorem weighted_ints (codeQuality timeComplexity spaceComplexity security readability : ℤ) :
    (weighted ⟨.int codeQuality, .int timeComplexity, .int spaceComplexity, .int security,
      .int readability⟩).mapM (fun (score, weight) => score.mul (.int weight)) =
      .ok [.int (codeQuality * 3), .int (timeComplexity * 2), .int (security * 2),
        .int (readability * 2), .int (spaceComplexity * 1)] :=
  rfl

theorem weightedBase_ints (codeQuality timeComplexity spaceComplexity security readability : ℤ) :
    weightedBase ⟨.int codeQuality, .int timeComplexity, .int spaceComplexity, .int security,
        .int readability⟩ =
      (Number.int (weightedTotal codeQuality timeComplexity spaceComplexity security
        readability)).divBy 10 := by
  have summed : Number.sum [.int (codeQuality * 3), .int (timeComplexity * 2), .int (security * 2),
      .int (readability * 2), .int (spaceComplexity * 1)] =
      .ok (.int (weightedTotal codeQuality timeComplexity spaceComplexity security
        readability)) := by
    have inOrder : weightedTotal codeQuality timeComplexity spaceComplexity security readability =
        0 + codeQuality * 3 + timeComplexity * 2 + security * 2 + readability * 2 +
          spaceComplexity * 1 := by
      rw [weightedTotal]
      ring
    rw [inOrder]
    rfl
  rw [weightedBase, weighted_ints, ok_bind, summed, ok_bind]

variable {total penalty : ℤ} {scores : Scores} (exponent : ℕ)

/-- A total that leaves room below the end of the range has a tenth. -/
theorem exists_divBy_ten (small : |total| < 2 ^ (exponent + 3))
    (room : exponent + 2 + quantaExponent = safeExponent) :
    ∃ base, (Number.int total).divBy 10 = .ok base ∧ base.quanta? = some (roundedTenth total) ∧
      Within (2 ^ exponent) (roundedTenth total) := by
  have scaled : (total * quantaInOne).natAbs < 2 * safeBound := by
    have small_nat : total.natAbs < 2 ^ (exponent + 3) := by
      zify
      exact small
    calc (total * quantaInOne).natAbs
        = total.natAbs * quantaInOne := by rw [Int.natAbs_mul, Int.natAbs_natCast]
      _ < 2 ^ (exponent + 3) * quantaInOne := Nat.mul_lt_mul_of_pos_right small_nat quantaInOne_pos
      _ = 2 * safeBound := by
        rw [quantaInOne_eq, safeBound, ← room]
        ring
  have safe : (total * quantaInOne).natAbs / 10 < safeBound := by omega
  rcases Number.exists_divBy_int safe with ⟨base, divided, worth⟩
  refine ⟨base, divided, worth, Within.rounded_two_pow ?_ (by decide)⟩
  have fits : |total| ≤ ((2 ^ (exponent + 3) : ℕ) : ℤ) := by exact_mod_cast small.le
  refine (Within.of_int fits).mono ?_
  rw [pow_add]
  omega

/-- Far from the end of the range, all that is done to a base returns. -/
theorem devScore_of_base {exponent : ℕ} {base : Binary64} {value : ℤ}
    (weighted : scores.weightedBase = .ok base) (worth : base.quanta? = some value)
    (within : Within (2 ^ exponent) value) (room : exponent + 2 + quantaExponent = safeExponent)
    (nonneg : 0 ≤ penalty) : devScore scores (.int penalty) = .ok (devScoreOf value penalty) := by
  have points_le : |appliedPoints penalty| ≤ (10 : ℕ) := by
    rw [abs_of_nonneg (appliedPoints_nonneg nonneg)]
    exact appliedPoints_le penalty
  have pointsWorth := Binary64.quanta?_ofInt (points_le.trans (by norm_num))
  rw [devScore, weighted, ok_bind]
  change ((Number.float base).sub (.int (appliedPoints penalty)) >>= fun value => do
    return max 0 (min 100 (← Number.roundHalfUp value))) = _
  rw [Number.float_sub_int pointsWorth, ok_bind, devScoreOf]
  generalize appliedPoints penalty = points at *
  have large : 10 < 2 ^ exponent := by
    rw [quantaExponent_eq, safeExponent] at room
    calc 10 < 2 ^ 4 := by norm_num
      _ ≤ 2 ^ exponent := Nat.pow_le_pow_right Nat.two_pos (by omega)
  have twice : 2 ^ (exponent + 1) = 2 * 2 ^ exponent := by ring
  have fourfold : 2 ^ (exponent + 2) = 4 * 2 ^ exponent := by ring
  -- The bound is doubled by the points and by the half, and rounding keeps to it in between.
  have difference : Within (2 ^ (exponent + 1)) (value - points * quantaInOne) :=
    (within.sub (.of_int points_le)).mono (by omega)
  have differenceWorth := Binary64.quanta?_sub worth pointsWorth
    (difference.natAbs_lt_safeBound_of_lt room (by omega))
  have rounded : Within (2 ^ (exponent + 1)) (roundedValue (value - points * quantaInOne) 1) :=
    .rounded_two_pow (by rwa [mul_one]) Nat.one_pos
  have sumWorth := Binary64.quanta?_add differenceWorth Binary64.quanta?_half
    ((rounded.add within_half).natAbs_lt_safeBound_of_lt room (by omega))
  have whole : Number.roundHalfUp (.float (base.sub (.ofInt points))) =
      .ok (Number.halfUp (roundedValue (value - points * quantaInOne) 1)) :=
    Number.floor_eq sumWorth
  rw [whole, ok_bind]
  rfl

end Scores

/-- The score of integers is what exact arithmetic gives, as long as a tenth of their weighted total
fits a float. -/
theorem devScore_ints {codeQuality timeComplexity spaceComplexity security readability penalty : ℤ}
    (nonneg : 0 ≤ penalty)
    (fits : |3 * codeQuality + 2 * timeComplexity + 2 * security + 2 * readability +
      spaceComplexity| < 2 ^ 1023) :
    devScore ⟨.int codeQuality, .int timeComplexity, .int spaceComplexity, .int security,
        .int readability⟩ (.int penalty) =
      .ok (max 0 (min 100 ((3 * codeQuality + 2 * timeComplexity + 2 * security +
        2 * readability + spaceComplexity - 10 * min (2 * penalty) 10 + 5).fdiv 10))) := by
  rcases Scores.exists_divBy_ten 1020 fits (by rw [quantaExponent_eq, safeExponent]) with
    ⟨base, divided, worth, within⟩
  have weighted :=
    Scores.weightedBase_ints codeQuality timeComplexity spaceComplexity security readability
  rw [Scores.devScore_of_base (weighted.trans divided) worth within
      (by rw [quantaExponent_eq, safeExponent]) nonneg,
    devScoreOf_roundedTenth _ nonneg, appliedPoints, mul_comm penalty]

/-- A base of 64.5, whose half goes up after the points are taken, and a total near the end of the
range. -/
theorem devScore_ints_halfAndHuge :
    devScore ⟨.int 99, .int 87, .int 72, .int 1, .int 50⟩ (.int 2) = .ok 61 ∧
      devScore ⟨.int (2 * 10 ^ 307), .int (-10 ^ 307), .int 0, .int 7, .int 0⟩ (.int 0) =
        .ok 100 := by
  constructor
  · rw [devScore_ints (by decide) (by decide +kernel)]
    decide
  · rw [devScore_ints (by decide) (by decide +kernel)]
    decide +kernel

end Scorecard
