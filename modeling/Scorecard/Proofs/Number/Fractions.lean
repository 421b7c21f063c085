import Scorecard.Proofs.Number.Arithmetic

/-!
# Binary fractions

A fraction with a power of two below the line is its own rounding, as long as it has few bits above
the line. Such fractions are the marks that a rounded quotient does not pass: a quotient between two
of them is rounded to a number between them. So to round a quotient to a float and then to a whole
number gives what rounding it at once would give, if the marks are fine enough to part it from the
next half.
-/

namespace Scorecard

/-- So many parts of one that is cut in two so many times. -/
def fraction (cuts : ℕ) (count : ℤ) : ℤ :=
  count * 2 ^ (quantaExponent - cuts)

section

variable {cuts : ℕ} {count larger : ℤ}

theorem fraction_mono (le : count ≤ larger) : fraction cuts count ≤ fraction cuts larger :=
  mul_le_mul_of_nonneg_right le (by positivity)

theorem fraction_add (left right : ℤ) :
    fraction cuts (left + right) = fraction cuts left + fraction cuts right :=
  add_mul left right _

theorem fraction_sub (left right : ℤ) :
    fraction cuts (left - right) = fraction cuts left - fraction cuts right :=
  sub_mul left right _

theorem roundedValue_fraction (small : |count| ≤ 2 ^ 53) :
    roundedValue (fraction cuts count) 1 = fraction cuts count :=
  roundedValue_eq_self small _

theorem mul_quantaInOne_eq_fraction (possible : cuts ≤ quantaExponent) (whole : ℤ) :
    whole * quantaInOne = fraction cuts (whole * 2 ^ cuts) := by
  rw [natCast_quantaInOne, fraction, mul_assoc, ← pow_add, Nat.add_sub_cancel' possible]

theorem quantaInOne_eq_fraction (possible : cuts ≤ quantaExponent) :
    (quantaInOne : ℤ) = fraction cuts (2 ^ cuts) := by
  rw [← one_mul (quantaInOne : ℤ), mul_quantaInOne_eq_fraction possible, one_mul]

/-- Parts that are cut once more count twice. -/
theorem fraction_succ_two_mul (possible : cuts < quantaExponent) (count : ℤ) :
    fraction (cuts + 1) (2 * count) = fraction cuts count := by
  have exponent : quantaExponent - cuts = quantaExponent - (cuts + 1) + 1 := by omega
  rw [fraction, fraction, exponent]
  ring

theorem half_eq_fraction (possible : cuts < quantaExponent) :
    ((quantaInOne / 2 : ℕ) : ℤ) = fraction (cuts + 1) (2 ^ cuts) := by
  have twice : (quantaInOne : ℤ) = 2 * fraction (cuts + 1) (2 ^ cuts) := by
    rw [quantaInOne_eq_fraction possible, fraction, fraction, Nat.succ_eq_add_one, pow_succ]
    ring
  omega

theorem fdiv_fraction (possible : cuts ≤ quantaExponent) (count : ℤ) :
    (fraction cuts count).fdiv quantaInOne = count / 2 ^ cuts := by
  rw [Int.fdiv_eq_ediv_of_nonneg _ natCast_quantaInOne_pos.le, quantaInOne_eq_fraction possible]
  exact Int.mul_ediv_mul_of_pos_left count (2 ^ cuts) (by positivity)

/-- A fraction to which a half can be added exactly is rounded as it is. -/
theorem Number.halfUp_fraction (possible : cuts < quantaExponent)
    (small : |count + 2 ^ cuts| ≤ 2 ^ 53) :
    halfUp (fraction (cuts + 1) count) = (count + 2 ^ cuts) / 2 ^ (cuts + 1) := by
  rw [halfUp, half_eq_fraction possible, ← fraction_add, roundedValue_fraction small,
    fdiv_fraction possible]

variable {total : ℤ} {divisor : ℕ}

/-- Times the divisor and divided by it, a fraction is rounded to itself. -/
theorem roundedValue_fraction_mul (positive : 0 < divisor) (small : |count| ≤ 2 ^ 53) :
    roundedValue (fraction cuts (count * divisor)) divisor = fraction cuts count := by
  have scaled := roundedValue_mul_right (fraction cuts count) 1 positive
  rw [roundedValue_fraction small, one_mul] at scaled
  rwa [fraction, mul_right_comm]

theorem fraction_le_roundedValue (possible : cuts ≤ quantaExponent) (positive : 0 < divisor)
    (small : |count| ≤ 2 ^ 53) (le : count * divisor ≤ total * 2 ^ cuts) :
    fraction cuts count ≤ roundedValue (total * quantaInOne) divisor := by
  rw [← roundedValue_fraction_mul positive small, mul_quantaInOne_eq_fraction possible]
  exact roundedValue_mono (fraction_mono le) divisor

theorem roundedValue_le_fraction (possible : cuts ≤ quantaExponent) (positive : 0 < divisor)
    (small : |count| ≤ 2 ^ 53) (le : total * 2 ^ cuts ≤ count * divisor) :
    roundedValue (total * quantaInOne) divisor ≤ fraction cuts count := by
  rw [← roundedValue_fraction_mul positive small, mul_quantaInOne_eq_fraction possible]
  exact roundedValue_mono (fraction_mono le) divisor

end

namespace Number

/-- A quotient of integers that is below a half is below it by a part of one with twice the divisor
below the line, and one cut in two 41 times has finer parts than that. So rounding the quotient does
not reach the half. -/
theorem halfUp_quotient {total : ℤ} {divisor : ℕ} (positive : 0 < divisor) (few : divisor ≤ 2 ^ 40)
    (small : |total| ≤ 1000 * divisor) :
    halfUp (roundedValue (total * quantaInOne) divisor) =
      (2 * total + divisor).fdiv (2 * divisor) := by
  have possible : 40 < quantaExponent := le_quantaExponent (by decide)
  have divisor_pos : 0 < (2 * divisor : ℤ) := by positivity
  have few_cast : (divisor : ℤ) ≤ 2 ^ 40 := by exact_mod_cast few
  rw [Int.fdiv_eq_ediv_of_nonneg _ divisor_pos.le]
  have reached := Int.ediv_mul_le (2 * total + divisor) divisor_pos.ne'
  have passed := Int.lt_ediv_add_one_mul_self (2 * total + divisor) divisor_pos
  have whole_le : |(2 * total + divisor) / (2 * divisor)| ≤ 1001 := by
    rw [abs_le] at small ⊢
    constructor
    · exact (Int.le_ediv_iff_mul_le divisor_pos).mpr (by omega)
    · exact Int.ediv_le_of_le_mul divisor_pos (by omega)
  generalize (2 * total + divisor : ℤ) / (2 * divisor) = whole at reached passed whole_le ⊢
  rw [abs_le] at whole_le
  have lower :
      fraction 41 (whole * 2 ^ 41 - 2 ^ 40) ≤ roundedValue (total * quantaInOne) divisor := by
    refine fraction_le_roundedValue possible positive (abs_le.mpr ⟨by omega, by omega⟩) ?_
    linarith
  have upper :
      roundedValue (total * quantaInOne) divisor ≤ fraction 41 (whole * 2 ^ 41 + (2 ^ 40 - 1)) := by
    refine roundedValue_le_fraction possible positive (abs_le.mpr ⟨by omega, by omega⟩) ?_
    linarith
  apply le_antisymm
  · apply (halfUp_mono upper).trans_eq
    rw [halfUp_fraction possible (abs_le.mpr ⟨by omega, by omega⟩)]
    omega
  · apply Eq.trans_le _ (halfUp_mono lower)
    rw [halfUp_fraction possible (abs_le.mpr ⟨by omega, by omega⟩)]
    omega

/-- The difference of two thirds is a third, a sixth away from every half. Each third is rounded to
a number between the sixteenths beside it, so their difference is rounded to one of less than two
sixteenths off. -/
theorem halfUp_thirds {left right : ℤ} (leftSmall : |left| ≤ 1000) (rightSmall : |right| ≤ 1000) :
    halfUp (roundedValue (roundedValue (left * quantaInOne) 3 -
        roundedValue (right * quantaInOne) 3) 1) =
      (2 * (left - right) + 3).fdiv 6 := by
  have possible : 3 < quantaExponent := le_quantaExponent (by decide)
  have thirds : ∀ total : ℤ, |total| ≤ 1000 →
      fraction 4 (total * 16 / 3) ≤ roundedValue (total * quantaInOne) 3 ∧
        roundedValue (total * quantaInOne) 3 ≤ fraction 4 ((total * 16 + 2) / 3) := by
    intro total small
    rw [abs_le] at small
    constructor
    · exact fraction_le_roundedValue possible (by decide) (abs_le.mpr ⟨by omega, by omega⟩)
        (by omega)
    · exact roundedValue_le_fraction possible (by decide) (abs_le.mpr ⟨by omega, by omega⟩)
        (by omega)
  rcases thirds left leftSmall with ⟨leftLower, leftUpper⟩
  rcases thirds right rightSmall with ⟨rightLower, rightUpper⟩
  have lower := roundedValue_mono (sub_le_sub leftLower rightUpper) 1
  have upper := roundedValue_mono (sub_le_sub leftUpper rightLower) 1
  rw [abs_le] at leftSmall rightSmall
  rw [← fraction_sub, roundedValue_fraction (abs_le.mpr ⟨by omega, by omega⟩)] at lower upper
  rw [Int.fdiv_eq_ediv_of_nonneg _ (by decide)]
  apply le_antisymm
  · apply (halfUp_mono upper).trans
    rw [halfUp_fraction possible (abs_le.mpr ⟨by omega, by omega⟩)]
    omega
  · apply le_trans _ (halfUp_mono lower)
    rw [halfUp_fraction possible (abs_le.mpr ⟨by omega, by omega⟩)]
    omega

/-- As long as nothing passes 53 bits, a sum of integers is not rounded. -/
theorem roundedSum_ints {wholes : List ℤ} {bound : ℕ} (within : ∀ whole ∈ wholes, |whole| ≤ bound)
    (small : wholes.length * bound ≤ 2 ^ 53) :
    roundedSum (wholes.map (· * (quantaInOne : ℤ))) = wholes.sum * quantaInOne := by
  -- The induction is on the integers that are left; the bound of the running total grows with each.
  suffices running : ∀ (start : ℤ) (startBound : ℕ), |start| ≤ startBound →
      startBound + wholes.length * bound ≤ 2 ^ 53 →
      (wholes.map (· * (quantaInOne : ℤ))).foldl (fun total value => roundedValue (total + value) 1)
        (start * quantaInOne) = (start + wholes.sum) * quantaInOne by
    simpa [roundedSum] using running 0 0 (by simp) (by omega)
  clear small
  induction wholes with
  | nil => simp
  | cons whole wholes ih =>
      rw [List.forall_mem_cons] at within
      intro start startBound start_le small
      rw [List.length_cons, Nat.add_mul, Nat.one_mul] at small
      have total_le : |start + whole| ≤ ((startBound + bound : ℕ) : ℤ) := by
        rw [Nat.cast_add]
        exact (abs_add_le start whole).trans (add_le_add start_le within.1)
      have exactly : roundedValue (start * quantaInOne + whole * quantaInOne) 1 =
          (start + whole) * quantaInOne := by
        rw [← add_mul]
        exact roundedValue_int (total_le.trans (by exact_mod_cast (by omega)))
      rw [List.map_cons, List.foldl_cons, exactly, List.sum_cons, ← add_assoc]
      exact ih within.2 (start + whole) (startBound + bound) total_le (by omega)

end Number

end Scorecard
