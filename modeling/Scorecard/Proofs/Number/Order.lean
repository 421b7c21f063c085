import Scorecard.Proofs.Number.Arithmetic

/-!
# Order of numbers

Finite numbers compare by their values, whether they are integers or floats. A score is a finite
number from zero to a hundred; holding a number between two bounds leaves one of the three numbers.
-/

namespace Scorecard

namespace Number

variable {number left right : Number} {leftValue rightValue : ℤ}

/-- The order of finite numbers is the order of their values. -/
theorem lessThan_eq (leftWorth : left.quanta? = some leftValue)
    (rightWorth : right.quanta? = some rightValue) :
    left.lessThan right = decide (leftValue < rightValue) := by
  cases left with
  | int leftWhole =>
      cases right with
      | int rightWhole =>
          simp only [quanta?, Option.some.injEq] at leftWorth rightWorth
          subst leftWorth rightWorth
          simp [lessThan, mul_lt_mul_iff_left₀ natCast_quantaInOne_pos]
      | float rightFloat =>
          simp only [quanta?, Option.some.injEq] at leftWorth
          rcases Binary64.exists_finite_of_quanta? rightWorth with
            ⟨rightNegative, rightMagnitude, rfl, rfl⟩
          rw [lessThan, Binary64.intLessThan, leftWorth]
  | float leftFloat =>
      rcases Binary64.exists_finite_of_quanta? leftWorth with
        ⟨leftNegative, leftMagnitude, rfl, rfl⟩
      cases right with
      | int rightWhole =>
          simp only [quanta?, Option.some.injEq] at rightWorth
          rw [lessThan, Binary64.lessThanInt, rightWorth]
      | float rightFloat =>
          rcases Binary64.exists_finite_of_quanta? rightWorth with
            ⟨rightNegative, rightMagnitude, rfl, rfl⟩
          rw [lessThan, Binary64.lessThan]

/-- The exact value of a number in quanta, zero if it is not finite. -/
def exactValue (number : Number) : ℤ :=
  number.quanta?.getD 0

/-- Both numbers are finite, and the value of the first is at most that of the second. -/
def AtMost (left right : Number) : Prop :=
  ∃ leftValue ∈ left.quanta?, ∃ rightValue ∈ right.quanta?, leftValue ≤ rightValue

theorem AtMost.value_le (atMost : left.AtMost right) : left.exactValue ≤ right.exactValue := by
  obtain ⟨leftValue, leftWorth, rightValue, rightWorth, le⟩ := atMost
  rwa [exactValue, exactValue, Option.mem_def.mp leftWorth, Option.mem_def.mp rightWorth]

/-- Numbers are in order if both are finite and the second is not below the first. -/
theorem atMost_iff_lessThan (left right : Number) :
    left.AtMost right ↔
      left.quanta?.isSome ∧ right.quanta?.isSome ∧ right.lessThan left = false := by
  constructor
  · rintro ⟨leftValue, leftWorth, rightValue, rightWorth, le⟩
    simp only [Option.mem_def] at leftWorth rightWorth
    simp [leftWorth, rightWorth, lessThan_eq rightWorth leftWorth, le]
  · rintro ⟨leftFinite, rightFinite, notBelow⟩
    obtain ⟨leftValue, leftWorth⟩ := Option.isSome_iff_exists.mp leftFinite
    obtain ⟨rightValue, rightWorth⟩ := Option.isSome_iff_exists.mp rightFinite
    rw [lessThan_eq rightWorth leftWorth, decide_eq_false_iff_not, not_lt] at notBelow
    exact ⟨leftValue, leftWorth, rightValue, rightWorth, notBelow⟩

instance (left right : Number) : Decidable (left.AtMost right) :=
  decidable_of_iff _ (atMost_iff_lessThan left right).symm

/-- A finite number from zero to a hundred. -/
def IsScore (number : Number) : Prop :=
  AtMost (.int 0) number ∧ number.AtMost (.int 100)

instance (number : Number) : Decidable number.IsScore :=
  inferInstanceAs (Decidable (_ ∧ _))

theorem isScore_iff :
    number.IsScore ↔
      ∃ value, number.quanta? = some value ∧ 0 ≤ value ∧ value ≤ 100 * quantaInOne := by
  constructor
  · rintro ⟨⟨low, lowWorth, value, worth, low_le⟩, ⟨_, worth', high, highWorth, le_high⟩⟩
    simp only [quanta?, Option.mem_def, Option.some.injEq] at lowWorth worth worth' highWorth
    rw [worth, Option.some.injEq] at worth'
    exact ⟨value, worth, by omega, by omega⟩
  · rintro ⟨value, worth, nonneg, le⟩
    exact ⟨⟨0, by simp [quanta?], value, worth, nonneg⟩, ⟨value, worth, _, rfl, le⟩⟩

namespace IsScore

theorem worth (isScore : number.IsScore) : number.quanta? = some number.exactValue := by
  obtain ⟨value, worth, _⟩ := isScore_iff.mp isScore
  rw [exactValue, worth, Option.getD_some]

theorem nonneg (isScore : number.IsScore) : 0 ≤ number.exactValue := by
  obtain ⟨value, worth, nonneg, _⟩ := isScore_iff.mp isScore
  rwa [exactValue, worth]

theorem within (isScore : number.IsScore) : Within 100 number.exactValue := by
  obtain ⟨value, worth, nonneg, le⟩ := isScore_iff.mp isScore
  rw [exactValue, worth, Option.getD_some, Within, abs_of_nonneg nonneg]
  exact le

end IsScore

theorem clamp_eq (worth : number.quanta? = some leftValue) :
    clamp number (.int 0) (.int 100) =
      if leftValue ≤ 0 then .int 0 else if leftValue < 100 * quantaInOne then number
      else .int 100 := by
  have zeroWorth : quanta? (.int 0) = some 0 := by simp [quanta?]
  have hundredWorth : quanta? (.int 100) = some (100 * (quantaInOne : ℤ)) := rfl
  have unit_pos := natCast_quantaInOne_pos
  simp only [clamp, clampOn, minOn, maxOn, id, lessThan_eq worth hundredWorth, decide_eq_true_eq]
  by_cases below : leftValue < 100 * (quantaInOne : ℤ)
  · simp only [if_pos below, lessThan_eq zeroWorth worth, decide_eq_true_eq]
    by_cases positive : 0 < leftValue
    · rw [if_pos positive, if_neg (not_le.mpr positive)]
    · rw [if_neg positive, if_pos (not_lt.mp positive)]
  · have hundred_pos : 0 < 100 * (quantaInOne : ℤ) := by omega
    rw [if_neg below, lessThan_eq zeroWorth hundredWorth, decide_eq_true hundred_pos, if_pos rfl,
      if_neg (by omega)]

/-- A finite number held between zero and a hundred is a score. -/
theorem clamp_isScore (worth : number.quanta? = some leftValue) :
    (clamp number (.int 0) (.int 100)).IsScore := by
  rw [clamp_eq worth]
  split
  · decide
  · next positive =>
      split
      · next below => exact isScore_iff.mpr ⟨leftValue, worth, (not_le.mp positive).le, below.le⟩
      · decide

/-- To hold a number that is held already changes nothing. -/
theorem clamp_clamp (worth : number.quanta? = some leftValue) :
    clamp (clamp number (.int 0) (.int 100)) (.int 0) (.int 100) =
      clamp number (.int 0) (.int 100) := by
  rw [clamp_eq worth]
  split
  · decide
  · next positive =>
      split
      · next below => rw [clamp_eq worth, if_neg positive, if_pos below]
      · decide

theorem int_equals {whole : ℤ} (worth : number.quanta? = some (whole * quantaInOne)) :
    (int whole).equals number = true := by
  cases number with
  | float value =>
      rw [equals, Binary64.equalsInt, beq_iff_eq]
      exact worth
  | int value =>
      rw [quanta?, Option.some.injEq] at worth
      rw [equals, beq_iff_eq]
      exact (mul_right_cancel₀ natCast_quantaInOne_pos.ne' worth).symm

/-- A score that is held between the bounds keeps its value. -/
theorem IsScore.clamp_equals (isScore : number.IsScore) :
    (clamp number (.int 0) (.int 100)).equals number = true := by
  obtain ⟨value, worth, nonneg, le⟩ := isScore_iff.mp isScore
  rw [clamp_eq worth]
  split
  · next zero =>
      apply int_equals
      rw [worth, le_antisymm zero nonneg, zero_mul]
  · split
    · cases number with
      | int whole => exact beq_self_eq_true whole
      | float float =>
          rcases Binary64.exists_finite_of_quanta? worth with ⟨negative, magnitude, rfl, _⟩
          simp [equals, Binary64.equals]
    · apply int_equals
      rw [worth, le_antisymm le (not_lt.mp ‹_›)]

end Number

end Scorecard
