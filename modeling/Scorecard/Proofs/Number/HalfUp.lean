import Scorecard.Proofs.Number.Finite
import Scorecard.Proofs.Number.Fractions
import Scorecard.Proofs.Number.LeadingBits

/-!
# Rounding to the nearest integer

A float is rounded to an integer by adding a half and taking the floor, and the sum with the half is
rounded to a float itself. What that does depends on the worth of the last bit:

* If it is more than one, the float is an integer and the half is lost.
* If it is one, the float is an integer and the sum lies halfway between two integers. It goes to
  the even one, so an odd integer is rounded to the next one.
* If it is less, but the float is at least a half,
  the sum is exact or is rounded between two floats of one unit.
* A float below a half keeps its sum below one,
  unless it is the largest one. Half more than that lies halfway between one and the float before,
  and goes to one.

So all floats but those of two kinds are rounded exactly, and these are rounded one too high. An
integer becomes a float first, which leaves its 53 leading bits.
-/

namespace Scorecard

namespace Number

/-- The integer that a value would be rounded to, a half going up, if the sum with the half were not
rounded. -/
def exactHalfUp (value : ℤ) : ℤ :=
  (value + (quantaInOne / 2 : ℕ)).fdiv quantaInOne

theorem exactHalfUp_whole (whole : ℤ) : exactHalfUp (whole * quantaInOne) = whole :=
  fdiv_whole_add_half whole

variable {cuts : ℕ} {count value : ℤ}

/-- Where the last bit is worth one or less, only a tie moves an integer. -/
theorem halfUp_whole {whole : ℤ} (small : |whole| < 2 ^ 53) :
    halfUp (whole * quantaInOne) = whole + if Odd whole ∧ 2 ^ 52 < |whole| then 1 else 0 := by
  rcases le_or_gt |2 * whole + 1| (2 ^ 53) with exactly | tie
  · have inside : ¬ (Odd whole ∧ 2 ^ 52 < |whole|) := by
      rintro ⟨_, large⟩
      rw [abs_le] at exactly
      rw [lt_abs] at large
      omega
    rw [halfUp_int exactly, if_neg inside, add_zero]
  · have below : |2 * whole + 1| < 2 ^ 54 := by
      rw [abs_lt] at small ⊢
      omega
    rw [halfUp, whole_add_half_eq, roundedValue_tie tie below,
      Nat.sub_add_cancel (le_quantaExponent (by decide)), ← natCast_quantaInOne,
      Int.mul_fdiv_cancel _ natCast_quantaInOne_pos.ne']
    congr 1
    rw [lt_abs] at tie
    split
    · next odd => exact Int.odd_iff.mp odd.1
    · next notOdd =>
        rw [not_and, Int.odd_iff, lt_abs] at notOdd
        omega

theorem fdiv_quantaInOne_eq {whole : ℤ} (low : whole * quantaInOne ≤ value)
    (high : value < (whole + 1) * quantaInOne) : value.fdiv quantaInOne = whole := by
  rw [Int.fdiv_eq_ediv_of_nonneg _ natCast_quantaInOne_pos.le,
    Int.ediv_eq_iff_of_pos natCast_quantaInOne_pos]
  rw [add_mul, one_mul] at high
  exact ⟨low, high⟩

/-- Rounding keeps a sum between two floats, and so in the unit that they stand in. -/
theorem halfUp_of_between (whole : ℤ) {low high : ℤ} (lowExact : roundedValue low 1 = low)
    (highExact : roundedValue high 1 = high) (reached : whole * quantaInOne ≤ low)
    (notPassed : high < (whole + 1) * quantaInOne) (low_le : low ≤ value + (quantaInOne / 2 : ℕ))
    (le_high : value + (quantaInOne / 2 : ℕ) ≤ high) :
    halfUp value = exactHalfUp value := by
  have rounded_ge := roundedValue_mono low_le 1
  have rounded_le := roundedValue_mono le_high 1
  rw [lowExact] at rounded_ge
  rw [highExact] at rounded_le
  rw [halfUp, exactHalfUp,
    fdiv_quantaInOne_eq (reached.trans rounded_ge) (rounded_le.trans_lt notPassed),
    fdiv_quantaInOne_eq (reached.trans low_le) (le_high.trans_lt notPassed)]

/-- A sum of more than 53 bits has just passed a power of two, and the next number of 53 bits that
it can be rounded to is no further than a half above that power. -/
theorem halfUp_fraction_of_few (few : cuts ≤ 52) (small : |count| < 2 ^ 53) :
    halfUp (fraction (cuts + 1) count) = exactHalfUp (fraction (cuts + 1) count) := by
  have possible : cuts < quantaExponent := le_quantaExponent (by omega)
  rcases le_or_gt |count + 2 ^ cuts| (2 ^ 53) with exactly | large
  · rw [halfUp, exactHalfUp, half_eq_fraction possible, ← fraction_add,
      roundedValue_fraction exactly]
  · have part_pos : (0 : ℤ) < 2 ^ cuts := by positivity
    rw [abs_lt] at small
    have passed : 2 ^ 53 < count + 2 ^ cuts := by
      rw [lt_abs] at large
      omega
    obtain ⟨fewer, rfl⟩ : ∃ fewer, cuts = fewer + 1 := by
      apply Nat.exists_eq_add_one_of_ne_zero
      rintro rfl
      omega
    have lowExact :
        roundedValue (fraction (fewer + 1 + 1) (2 ^ 53)) 1 = fraction (fewer + 1 + 1) (2 ^ 53) :=
      roundedValue_fraction (by norm_num)
    have highExact : roundedValue (fraction (fewer + 1 + 1) (2 ^ 53 + 2 ^ (fewer + 1))) 1 =
        fraction (fewer + 1 + 1) (2 ^ 53 + 2 ^ (fewer + 1)) := by
      have doubled : (2 : ℤ) ^ 53 + 2 ^ (fewer + 1) = 2 * (2 ^ 52 + 2 ^ fewer) := by ring
      have fewer_le : (2 : ℤ) ^ fewer ≤ 2 ^ 51 := pow_le_pow_right₀ one_le_two (by omega)
      have fewer_pos : (0 : ℤ) < 2 ^ fewer := by positivity
      rw [doubled, fraction_succ_two_mul possible]
      exact roundedValue_fraction (abs_le.mpr ⟨by omega, by omega⟩)
    have whole_eq : 2 ^ (51 - fewer) * (quantaInOne : ℤ) = fraction (fewer + 1 + 1) (2 ^ 53) := by
      rw [mul_quantaInOne_eq_fraction possible, ← pow_add]
      congr 2
      omega
    apply halfUp_of_between (2 ^ (51 - fewer)) lowExact highExact
    · exact whole_eq.le
    · rw [add_mul, one_mul, whole_eq, quantaInOne_eq_fraction possible, ← fraction_add]
      apply mul_lt_mul_of_pos_right _ (by positivity)
      have twice := pow_succ (2 : ℤ) (fewer + 1)
      omega
    · rw [half_eq_fraction possible, ← fraction_add]
      exact fraction_mono passed.le
    · rw [half_eq_fraction possible, ← fraction_add]
      exact fraction_mono (by omega)

/-- A float below one has 53 bits behind the point, so a sum up to the largest of them stays below
one. -/
theorem halfUp_of_lt_half (low : fraction 53 (-2 ^ 52) ≤ value)
    (high : value ≤ fraction 53 (2 ^ 52 - 1)) : halfUp value = exactHalfUp value := by
  have possible : 52 < quantaExponent := le_quantaExponent (by decide)
  have zero_eq : fraction 53 0 = 0 := zero_mul _
  have lowExact : roundedValue (fraction 53 0) 1 = fraction 53 0 :=
    roundedValue_fraction (by norm_num)
  have highExact : roundedValue (fraction 53 (2 ^ 53 - 1)) 1 = fraction 53 (2 ^ 53 - 1) :=
    roundedValue_fraction (by norm_num)
  apply halfUp_of_between 0 lowExact highExact
  · rw [zero_mul, zero_eq]
  · rw [zero_add, one_mul, quantaInOne_eq_fraction possible]
    exact mul_lt_mul_of_pos_right (by norm_num) (by positivity)
  · rw [half_eq_fraction possible]
    have sum_ge := add_le_add_left low (fraction 53 (2 ^ 52))
    rwa [← fraction_add, neg_add_cancel] at sum_ge
  · rw [half_eq_fraction possible]
    have sum_le := add_le_add_left high (fraction 53 (2 ^ 52))
    rwa [← fraction_add] at sum_le

/-- Half more than the largest float below a half is a tie, which goes to one. -/
theorem halfUp_below_half :
    halfUp (fraction 54 (2 ^ 53 - 1)) = exactHalfUp (fraction 54 (2 ^ 53 - 1)) + 1 := by
  have possible : 53 < quantaExponent := le_quantaExponent (by decide)
  have sum_eq : fraction 54 (2 ^ 53 - 1) + (quantaInOne / 2 : ℕ) = fraction 54 (2 ^ 54 - 1) := by
    rw [half_eq_fraction possible, ← fraction_add]
    norm_num
  have tie : roundedValue (fraction 54 (2 ^ 54 - 1)) 1 = fraction 53 (2 ^ 53) := by
    have rounded : roundedValue ((2 * (2 ^ 53 - 1) + 1) * 2 ^ (quantaExponent - 54)) 1 = _ :=
      roundedValue_tie (by norm_num) (by norm_num) _
    have exponent : quantaExponent - 54 + 1 = quantaExponent - 53 := by omega
    rwa [exponent] at rounded
  rw [halfUp, exactHalfUp, sum_eq, tie, fdiv_fraction (by omega), fdiv_fraction possible]
  decide

end Number

/-- So many quanta as a number of units. -/
def inUnits (value : ℤ) : ℚ :=
  value / quantaInOne

theorem cast_quantaInOne_pos : (0 : ℚ) < quantaInOne :=
  Nat.cast_pos.mpr quantaInOne_pos

theorem inUnits_inj {left right : ℤ} : inUnits left = inUnits right ↔ left = right := by
  rw [inUnits, inUnits, div_left_inj' cast_quantaInOne_pos.ne', Int.cast_inj]

theorem inUnits_whole (whole : ℤ) : inUnits (whole * quantaInOne) = whole := by
  rw [inUnits, Int.cast_mul, Int.cast_natCast, mul_div_cancel_right₀ _ cast_quantaInOne_pos.ne']

theorem inUnits_fraction {cuts : ℕ} (possible : cuts ≤ quantaExponent) (count : ℤ) :
    inUnits (fraction cuts count) = count / 2 ^ cuts := by
  have scaled := inUnits_whole count
  rw [mul_quantaInOne_eq_fraction possible] at scaled
  rw [eq_div_iff (by positivity), ← scaled, inUnits, inUnits, fraction, fraction]
  push_cast
  ring

/-- The floor of half more, without any rounding. -/
theorem floor_inUnits_add_half (value : ℤ) :
    ⌊inUnits value + 1 / 2⌋ = Number.exactHalfUp value := by
  have possible : 0 < quantaExponent := le_quantaExponent (by decide)
  have half_eq : inUnits ((quantaInOne / 2 : ℕ) : ℤ) = 1 / 2 := by
    rw [half_eq_fraction possible, inUnits_fraction possible]
    norm_num
  rw [← half_eq, inUnits, inUnits, ← add_div, ← Int.cast_add, Rat.floor_intCast_div_natCast,
    Number.exactHalfUp, Int.fdiv_eq_ediv_of_nonneg _ natCast_quantaInOne_pos.le]

/-- The numbers whose sum with a half is carried too far: the largest float below a half, and the
odd integers of 53 bits. -/
def HalfCarries (value : ℚ) : Prop :=
  value = 1 / 2 - 1 / 2 ^ 54 ∨ value.den = 1 ∧ Odd value.num ∧ 2 ^ 52 < |value| ∧ |value| < 2 ^ 53

instance (value : ℚ) : Decidable (HalfCarries value) :=
  inferInstanceAs (Decidable (_ ∨ _))

theorem halfCarries_intCast (whole : ℤ) :
    HalfCarries whole ↔ Odd whole ∧ 2 ^ 52 < |whole| ∧ |whole| < 2 ^ 53 := by
  have noInteger : (whole : ℚ) ≠ 1 / 2 - 1 / 2 ^ 54 := by
    intro same
    have scaled : (2 : ℚ) ^ 54 * whole = 2 ^ 53 - 1 := by
      rw [same]
      norm_num
    have exactly : (2 : ℤ) ^ 54 * whole = 2 ^ 53 - 1 := by exact_mod_cast scaled
    omega
  rw [HalfCarries, or_iff_right noInteger, Rat.den_intCast, Rat.num_intCast, and_iff_right rfl]
  norm_cast

theorem inUnits_below_half : inUnits (fraction 54 (2 ^ 53 - 1)) = 1 / 2 - 1 / 2 ^ 54 := by
  rw [inUnits_fraction (le_quantaExponent (by decide))]
  norm_num

theorem HalfCarries.eq_or_lt {value : ℤ} (carries : HalfCarries (inUnits value)) :
    value = fraction 54 (2 ^ 53 - 1) ∨ 2 ^ 52 * (quantaInOne : ℤ) < |value| := by
  rcases carries with below | ⟨-, -, large, -⟩
  · left
    rwa [← inUnits_below_half, inUnits_inj] at below
  · right
    rw [inUnits, abs_div, Nat.abs_cast, lt_div_iff₀ cast_quantaInOne_pos] at large
    exact_mod_cast large

namespace Magnitude

theorem exists_signed_eq (magnitude : Magnitude) (negative : Bool) :
    ∃ count : ℤ, magnitude.signed negative = count * 2 ^ magnitude.shift ∧
      |count| = magnitude.significand := by
  cases negative with
  | false => exact ⟨magnitude.significand, by simp [signed, quanta], Nat.abs_cast _⟩
  | true => exact ⟨-magnitude.significand, by simp [signed, quanta], by simp⟩

theorem abs_signed (magnitude : Magnitude) (negative : Bool) :
    |magnitude.signed negative| = magnitude.quanta := by
  rw [Int.abs_eq_natAbs, signed_natAbs]

variable {magnitude : Magnitude} (negative : Bool)

/-- The last bit is worth one or more. -/
theorem halfUp_of_whole (whole : quantaExponent ≤ magnitude.shift) :
    Number.halfUp (magnitude.signed negative) = Number.exactHalfUp (magnitude.signed negative) +
      if HalfCarries (inUnits (magnitude.signed negative)) then 1 else 0 := by
  have some_pos : 1 ≤ quantaExponent := le_quantaExponent (by decide)
  have normal : 2 ^ 52 ≤ magnitude.significand := magnitude.normal.resolve_left (by omega)
  have bounded := magnitude.significand_lt
  rcases magnitude.exists_signed_eq negative with ⟨count, signed_eq, count_abs⟩
  rcases whole.eq_or_lt with unit | above
  · have signed_whole : magnitude.signed negative = count * quantaInOne := by
      rw [signed_eq, natCast_quantaInOne, unit]
    have small : |count| < 2 ^ 53 := by omega
    simp only [signed_whole, Number.halfUp_whole small, Number.exactHalfUp_whole, inUnits_whole,
      halfCarries_intCast, small, and_true]
  · obtain ⟨places, shift_eq⟩ : ∃ places, magnitude.shift = places + 1 + quantaExponent :=
      ⟨magnitude.shift - quantaExponent - 1, by omega⟩
    have signed_whole : magnitude.signed negative = count * 2 ^ (places + 1) * quantaInOne := by
      rw [signed_eq, natCast_quantaInOne, shift_eq, pow_add _ (places + 1), mul_assoc]
    have quarter : 4 * (quantaInOne / 2) ≤ 2 ^ magnitude.shift := by
      have twice : 2 * quantaInOne ≤ 2 ^ magnitude.shift := by
        rw [quantaInOne_eq, ← pow_succ']
        exact Nat.pow_le_pow_right Nat.two_pos above
      omega
    have large : 2 ^ 53 ≤ |count * 2 ^ (places + 1)| := by
      have two_le : (2 : ℤ) ≤ 2 ^ (places + 1) := le_self_pow₀ one_le_two (by omega)
      rw [abs_mul, abs_of_nonneg (zero_le_two.trans two_le)]
      calc (2 : ℤ) ^ 53
          = 2 ^ 52 * 2 := by norm_num
        _ ≤ |count| * 2 ^ (places + 1) :=
            mul_le_mul (by omega) two_le zero_le_two (abs_nonneg count)
    have plain : ¬ HalfCarries (inUnits (magnitude.signed negative)) := by
      rw [signed_whole, inUnits_whole, halfCarries_intCast]
      exact fun carries => absurd carries.2.2 (not_lt.mpr large)
    rw [if_neg plain, add_zero, Number.halfUp, roundedValue_signed_add normal negative quarter,
      signed_whole, Number.exactHalfUp_whole, Int.mul_fdiv_cancel _ natCast_quantaInOne_pos.ne']

section

variable (behind : magnitude.shift < quantaExponent) (few : quantaExponent < magnitude.shift + 54)
include behind few

theorem halfUp_of_few :
    Number.halfUp (magnitude.signed negative) = Number.exactHalfUp (magnitude.signed negative) := by
  have enough : 54 ≤ quantaExponent := le_quantaExponent (by decide)
  have bounded := magnitude.significand_lt
  rcases magnitude.exists_signed_eq negative with ⟨count, signed_eq, count_abs⟩
  obtain ⟨cuts, shift_eq⟩ : ∃ cuts, magnitude.shift = quantaExponent - (cuts + 1) :=
    ⟨quantaExponent - magnitude.shift - 1, by omega⟩
  rw [signed_eq, shift_eq]
  exact Number.halfUp_fraction_of_few (by omega) (by omega)

theorem not_halfCarries_of_few : ¬ HalfCarries (inUnits (magnitude.signed negative)) := by
  intro carries
  rcases carries.eq_or_lt with below | large
  · have enough : 54 ≤ quantaExponent := le_quantaExponent (by decide)
    have normal : 2 ^ 52 ≤ magnitude.significand := magnitude.normal.resolve_left (by omega)
    have low : 2 ^ 52 * 2 ^ magnitude.shift ≤ magnitude.quanta := Nat.mul_le_mul_right _ normal
    have part_le : 2 * 2 ^ (quantaExponent - 54) ≤ 2 ^ magnitude.shift := by
      rw [← pow_succ']
      exact Nat.pow_le_pow_right Nat.two_pos (by omega)
    have part_pos := Nat.two_pow_pos (quantaExponent - 54)
    have quanta_eq : magnitude.quanta = (2 ^ 53 - 1) * 2 ^ (quantaExponent - 54) := by
      rw [← magnitude.signed_natAbs negative, below, fraction, Int.natAbs_mul, Int.natAbs_pow]
      norm_num
    omega
  · have high := magnitude.quanta_lt
    have unit_ge : 2 * 2 ^ magnitude.shift ≤ quantaInOne := by
      rw [← pow_succ', quantaInOne_eq]
      exact Nat.pow_le_pow_right Nat.two_pos behind
    rw [abs_signed] at large
    omega

end

section

variable (small : magnitude.shift + 54 ≤ quantaExponent)
  (notBelow : magnitude.signed negative ≠ fraction 54 (2 ^ 53 - 1))
include small notBelow

theorem signed_within_half :
    fraction 53 (-2 ^ 52) ≤ magnitude.signed negative ∧
      magnitude.signed negative ≤ fraction 53 (2 ^ 52 - 1) := by
  have possible : 53 < quantaExponent := le_quantaExponent (by decide)
  have lowEnd : fraction 53 (-2 ^ 52) = fraction 54 (-2 ^ 53) :=
    (fraction_succ_two_mul possible _).symm
  have highEnd : fraction 53 (2 ^ 52 - 1) = fraction 54 (2 ^ 53 - 2) :=
    (fraction_succ_two_mul possible _).symm
  rw [lowEnd, highEnd]
  rcases magnitude.exists_signed_eq negative with ⟨count, signed_eq, count_abs⟩
  have count_le : |count| ≤ 2 ^ 53 - 1 := by
    have bounded := magnitude.significand_lt
    omega
  rw [abs_le] at count_le
  rcases small.lt_or_eq with lower | last
  · -- A smaller last bit makes the number less than a quarter.
    have unit_le : 2 * (2 : ℤ) ^ magnitude.shift ≤ 2 ^ (quantaExponent - 54) := by
      rw [← pow_succ']
      exact pow_le_pow_right₀ one_le_two (by omega)
    have unit_pos : (0 : ℤ) < 2 ^ magnitude.shift := by positivity
    have low : -2 ^ 53 * 2 ^ magnitude.shift ≤ count * 2 ^ magnitude.shift :=
      mul_le_mul_of_nonneg_right (by omega) unit_pos.le
    have high : count * 2 ^ magnitude.shift ≤ 2 ^ 53 * 2 ^ magnitude.shift :=
      mul_le_mul_of_nonneg_right (by omega) unit_pos.le
    rw [signed_eq, fraction, fraction]
    omega
  · have signed_fraction : magnitude.signed negative = fraction 54 count := by
      rw [signed_eq, fraction, ← last, Nat.add_sub_cancel]
    have count_ne : count ≠ 2 ^ 53 - 1 := by
      rintro rfl
      exact notBelow signed_fraction
    rw [signed_fraction]
    exact ⟨fraction_mono (by omega), fraction_mono (by omega)⟩

theorem halfUp_of_small :
    Number.halfUp (magnitude.signed negative) = Number.exactHalfUp (magnitude.signed negative) := by
  rcases signed_within_half negative small notBelow with ⟨low, high⟩
  exact Number.halfUp_of_lt_half low high

theorem not_halfCarries_of_small : ¬ HalfCarries (inUnits (magnitude.signed negative)) := by
  intro carries
  rcases carries.eq_or_lt with below | large
  · exact notBelow below
  · have unit_eq : (quantaInOne : ℤ) = fraction 53 (2 ^ 53) :=
      quantaInOne_eq_fraction (le_quantaExponent (by decide))
    have part_pos : (0 : ℤ) < 2 ^ (quantaExponent - 53) := by positivity
    rcases signed_within_half negative small notBelow with ⟨low, high⟩
    rw [unit_eq, fraction, lt_abs] at large
    rw [fraction] at low high
    omega

end

theorem halfUp_signed (magnitude : Magnitude) (negative : Bool) :
    Number.halfUp (magnitude.signed negative) =
      ⌊inUnits (magnitude.signed negative) + 1 / 2⌋ +
        if HalfCarries (inUnits (magnitude.signed negative)) then 1 else 0 := by
  rw [floor_inUnits_add_half]
  rcases le_or_gt quantaExponent magnitude.shift with whole | behind
  · exact halfUp_of_whole negative whole
  rcases le_or_gt (magnitude.shift + 54) quantaExponent with small | few
  · by_cases below : magnitude.signed negative = fraction 54 (2 ^ 53 - 1)
    · rw [below, Number.halfUp_below_half, if_pos (.inl inUnits_below_half)]
    · rw [halfUp_of_small negative small below,
        if_neg (not_halfCarries_of_small negative small below), add_zero]
  · rw [halfUp_of_few negative behind few, if_neg (not_halfCarries_of_few negative behind few),
      add_zero]

end Magnitude

theorem Binary64.quanta?_ofInt_of_isFinite {whole : ℤ} (finite : (ofInt whole).isFinite = true) :
    (ofInt whole).quanta? = some (roundedValue whole 1 * quantaInOne) := by
  rw [ofInt] at finite ⊢
  rw [quanta?_ofQuanta_of_isFinite finite, natCast_quantaInOne, roundedValue_mul_two_pow]

theorem HalfCarries.roundedValue_eq {whole : ℤ} (carries : HalfCarries whole) :
    roundedValue whole 1 = whole :=
  roundedValue_eq_self_of_small ((halfCarries_intCast whole).mp carries).2.2.le

/-- No other integer is rounded to one that a half carries too far. -/
theorem halfCarries_roundedValue (whole : ℤ) :
    HalfCarries (roundedValue whole 1 : ℤ) ↔ HalfCarries whole := by
  rcases lt_or_ge |whole| (2 ^ 53) with small | large
  · rw [roundedValue_eq_self_of_small small.le]
  · have mark : roundedValue (2 ^ 53) 1 = 2 ^ 53 := roundedValue_eq_self_of_small (by norm_num)
    have rounded_large : 2 ^ 53 ≤ |roundedValue whole 1| := by
      rcases le_abs.mp large with above | below
      · have rounded := roundedValue_mono above 1
        rw [mark] at rounded
        exact le_abs.mpr (.inl rounded)
      · have rounded := roundedValue_mono below 1
        rw [mark, roundedValue_neg] at rounded
        exact le_abs.mpr (.inr rounded)
    rw [halfCarries_intCast, halfCarries_intCast]
    omega

namespace Number

theorem roundHalfUp_of_quanta? {number : Binary64} {value : ℤ}
    (worth : number.quanta? = some value) :
    roundHalfUp (.float number) =
      .ok (⌊inUnits value + 1 / 2⌋ + if HalfCarries (inUnits value) then 1 else 0) := by
  rcases Binary64.exists_finite_of_quanta? worth with ⟨negative, magnitude, rfl, rfl⟩
  have sumWorth :=
    Binary64.quanta?_add_of_isFinite worth Binary64.quanta?_half (Binary64.isFinite_add_half rfl)
  rw [← magnitude.halfUp_signed negative]
  exact floor_eq sumWorth

theorem roundHalfUp_int (whole : ℤ) :
    roundHalfUp (.int whole) =
      if whole.natAbs < Binary64.beyond then .ok
        (roundedValue whole 1 + if HalfCarries whole then 1 else 0)
      else .error .integerBeyondFloat := by
  rw [roundHalfUp, toFloat, floatOfInt_eq]
  split
  · next small =>
      have worth :=
        Binary64.quanta?_ofInt_of_isFinite ((Binary64.isFinite_ofInt_iff whole).mpr small)
      have rounded := roundHalfUp_of_quanta? worth
      rw [floor_inUnits_add_half, exactHalfUp_whole, inUnits_whole] at rounded
      simp only [halfCarries_roundedValue] at rounded
      exact rounded
  · rfl

/-- A finite float is rounded to the floor of half more than it, or to the next integer if the half
carries. An integer in the range of floats is rounded to 53 bits first. So it stays what it is
exactly if there are only zeros behind these bits and the half does not carry. -/
theorem roundHalfUp_eq_floor_add_half (negative : Bool) (magnitude : Magnitude) (whole : ℤ) :
    roundHalfUp (.float (.finite negative magnitude)) =
        .ok (⌊inUnits (magnitude.signed negative) + 1 / 2⌋ +
          if HalfCarries (inUnits (magnitude.signed negative)) then 1 else 0) ∧
      (roundHalfUp (.int whole) =
        if whole.natAbs < Binary64.beyond then .ok
          (roundedValue whole 1 + if HalfCarries whole then 1 else 0)
        else .error .integerBeyondFloat) ∧
      (roundHalfUp (.int whole) = .ok whole ↔
        whole.natAbs < Binary64.beyond ∧ 2 ^ shiftFor whole.natAbs ∣ whole.natAbs ∧
        ¬ HalfCarries whole) := by
  refine ⟨roundHalfUp_of_quanta? rfl, roundHalfUp_int whole, ?_⟩
  rw [roundHalfUp_int, ← roundedValue_eq_self_iff]
  by_cases small : whole.natAbs < Binary64.beyond
  · rw [if_pos small, Except.ok.injEq, and_iff_right small]
    by_cases carries : HalfCarries whole
    · simp [carries, carries.roundedValue_eq]
    · simp [carries]
  · simp [small]

end Number

/-- The largest float below a half. -/
def Magnitude.belowHalf : Magnitude where
  significand := 2 ^ 53 - 1
  shift := 1020
  significand_lt := by decide
  shift_le := by decide
  normal := .inr (by decide)

/-- The largest float below a half is rounded to one, an odd integer to the next one, and an integer
that is no float to one that is. -/
theorem Number.roundHalfUp_belowHalf :
    inUnits (Magnitude.belowHalf.signed false) = 1 / 2 - 1 / 2 ^ 54 ∧
      roundHalfUp (.float (.finite false .belowHalf)) = .ok 1 ∧
      ¬ ((1 : ℤ) ≤ inUnits (Magnitude.belowHalf.signed false) + 1 / 2) ∧
      roundHalfUp (.int (2 ^ 52 + 1)) = .ok (2 ^ 52 + 2) ∧
      roundHalfUp (.int (2 ^ 53 + 1)) = .ok (2 ^ 53) := by
  decide +kernel

end Scorecard
