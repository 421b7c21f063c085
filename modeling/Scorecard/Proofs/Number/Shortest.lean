import Scorecard.Proofs.Number.Digits
import Scorecard.Proofs.Number.Nearest

/-!
# The shortest numeral

A numeral in the interval of a magnitude reads back as that magnitude. The search for the shortest
one ends with such a numeral, because seventeen digits are always enough: on that grid two
neighbouring numerals lie closer together than the interval is wide, since `2 ^ 53` is below `10 ^
16`, so one of the two around the value lies in it.
-/

namespace Scorecard

namespace Decimal

/-- The value of a numeral. -/
def value (decimal : Decimal) : ℚ :=
  decimal.coefficient * 10 ^ decimal.exponent

theorem scaleUp_pos (exponent : ℤ) : 0 < scaleUp exponent :=
  Nat.pow_pos (by decide)

theorem scaleDown_pos (exponent : ℤ) : 0 < scaleDown exponent :=
  Nat.pow_pos (by decide)

theorem two_pow_le_ten_pow {bits digits : ℕ} (fits : 2 ^ bits ≤ 10 ^ digits) (times : ℕ) :
    2 ^ (bits * times) ≤ 10 ^ (digits * times) := by
  rw [pow_mul, pow_mul]
  exact Nat.pow_le_pow_left fits times

/-- The two scales of an exponent differ by its power of ten. -/
theorem scaleUp_mul {exponent : ℤ} {above below : ℕ} (difference : (above : ℤ) = exponent + below) :
    scaleUp exponent * 10 ^ below = scaleDown exponent * 10 ^ above := by
  rw [scaleUp, scaleDown, ← pow_add, ← pow_add]
  congr 1
  omega

theorem scaleUp_eq (exponent : ℤ) :
    (scaleUp exponent : ℚ) = 10 ^ exponent * scaleDown exponent := by
  rw [scaleUp, scaleDown]
  push_cast
  rw [← zpow_natCast, ← zpow_natCast, ← zpow_add₀ (by norm_num)]
  congr 1
  omega

/-- Numerals of one value are worth the same number of quanta. -/
theorem scaled_eq {left right : Decimal} (same : left.value = right.value) :
    left.coefficient * scaleUp left.exponent * quantaInOne * scaleDown right.exponent =
      right.coefficient * scaleUp right.exponent * quantaInOne * scaleDown left.exponent := by
  have scaled : (left.coefficient * scaleUp left.exponent * scaleDown right.exponent : ℚ) =
      right.coefficient * scaleUp right.exponent * scaleDown left.exponent := by
    rw [scaleUp_eq, scaleUp_eq]
    rw [value, value] at same
    linear_combination (scaleDown left.exponent * scaleDown right.exponent : ℚ) * same
  have exactly : left.coefficient * scaleUp left.exponent * scaleDown right.exponent =
      right.coefficient * scaleUp right.exponent * scaleDown left.exponent := by
    exact_mod_cast scaled
  linear_combination quantaInOne * exactly

/-- Moving trailing zeros into the exponent keeps the value. -/
theorem value_trim (decimal : Decimal) (bound : ℕ) :
    (decimal.trim bound).value = decimal.value := by
  induction bound generalizing decimal with
  | zero => rfl
  | succ bound ih =>
      rw [trim]
      split
      · next divides =>
          rw [ih, value, value]
          have whole : decimal.coefficient = decimal.coefficient / 10 * 10 := by omega
          have cast : (decimal.coefficient : ℚ) = (decimal.coefficient / 10 : ℕ) * 10 := by
            exact_mod_cast whole
          rw [cast, zpow_add₀ (by norm_num)]
          ring
      · rfl

end Decimal

namespace Magnitude

theorem covers_iff (magnitude : Magnitude) (decimal : Decimal) :
    magnitude.covers decimal = true ↔
      magnitude.Rounds (decimal.coefficient * Decimal.scaleUp decimal.exponent * quantaInOne)
        (Decimal.scaleDown decimal.exponent) := by
  have place : decimal.coefficient * (4 * quantaInOne) * Decimal.scaleUp decimal.exponent =
      4 * (decimal.coefficient * Decimal.scaleUp decimal.exponent * quantaInOne) := by ring
  simp only [covers, Rounds, place]
  split <;> simp

theorem covers_congr {magnitude : Magnitude} {left right : Decimal}
    (same : left.value = right.value) (covered : magnitude.covers left = true) :
    magnitude.covers right = true := by
  rw [covers_iff] at covered ⊢
  exact covered.congr (Decimal.scaled_eq same) (Decimal.scaleDown_pos _) (Decimal.scaleDown_pos _)

theorem covers_of_onGrid? {magnitude : Magnitude} {exponent : ℤ} {decimal : Decimal}
    (found : magnitude.onGrid? exponent = some decimal) : magnitude.covers decimal = true := by
  simp only [onGrid?] at found
  split at found
  · cases found
  · next floor _ =>
      cases found
      exact floor
  · next _ ceiling =>
      cases found
      exact ceiling
  · next floor ceiling =>
      split at found
      · cases found
        exact floor
      · cases found
        exact ceiling

theorem rounds_of_strictly {magnitude : Magnitude} {numerator denominator : ℕ}
    (above : (4 * magnitude.quanta - magnitude.twiceGapBelow) * denominator < 4 * numerator)
    (below : 4 * numerator < (4 * magnitude.quanta + 2 * magnitude.gapAbove) * denominator) :
    magnitude.Rounds numerator denominator := by
  simp only [Rounds]
  split
  · exact ⟨above.le, below.le⟩
  · exact ⟨above, below⟩

/-- The interval is wider than a grid of seventeen digits. -/
theorem grid_lt_interval {magnitude : Magnitude} {grid denominator : ℕ}
    (fine : grid * 10 ^ 16 ≤ magnitude.quanta * denominator) (positive : 0 < denominator) :
    4 * grid < magnitude.twiceGapBelow * denominator + 2 * magnitude.gapAbove * denominator := by
  have unit_pos := Nat.mul_pos (Nat.two_pow_pos magnitude.shift) positive
  have quanta_eq : magnitude.quanta * denominator =
      magnitude.significand * (2 ^ magnitude.shift * denominator) := by
    rw [quanta, mul_assoc]
  have top := Nat.mul_le_mul_right (2 ^ magnitude.shift * denominator) magnitude.significand_lt.le
  rw [twiceGapBelow, gapAbove, mul_assoc 2]
  split
  · next ends =>
      rw [ends.1] at quanta_eq
      omega
  · rw [mul_assoc 2]
    omega

/-- Of the two numerals next to a magnitude on a grid finer than the interval, one is in the
interval: the lower one unless the magnitude is too far above it, and then the upper one is near
enough. -/
theorem covers_floor_or_ceiling {magnitude : Magnitude} {exponent : ℤ}
    (fine : quantaInOne * Decimal.scaleUp exponent * 10 ^ 16 ≤
      magnitude.quanta * Decimal.scaleDown exponent) :
    magnitude.covers ⟨magnitude.quanta * Decimal.scaleDown exponent /
        (quantaInOne * Decimal.scaleUp exponent), exponent⟩ = true ∨
      magnitude.covers ⟨magnitude.quanta * Decimal.scaleDown exponent /
        (quantaInOne * Decimal.scaleUp exponent) + 1, exponent⟩ = true := by
  have scale_pos := Decimal.scaleDown_pos exponent
  have grid_pos := Nat.mul_pos quantaInOne_pos (Decimal.scaleUp_pos exponent)
  have gap_pos := Nat.mul_pos (Nat.two_pow_pos magnitude.shift) scale_pos
  have narrow := grid_lt_interval fine scale_pos
  have split := Nat.div_add_mod (magnitude.quanta * Decimal.scaleDown exponent)
    (quantaInOne * Decimal.scaleUp exponent)
  have remainder_lt := Nat.mod_lt (magnitude.quanta * Decimal.scaleDown exponent) grid_pos
  simp only [covers_iff]
  generalize magnitude.quanta * Decimal.scaleDown exponent /
    (quantaInOne * Decimal.scaleUp exponent) = floor at split
  generalize magnitude.quanta * Decimal.scaleDown exponent %
    (quantaInOne * Decimal.scaleUp exponent) = remainder at split remainder_lt
  have floor_eq : floor * Decimal.scaleUp exponent * quantaInOne =
      quantaInOne * Decimal.scaleUp exponent * floor := by ring
  have ceiling_eq : (floor + 1) * Decimal.scaleUp exponent * quantaInOne =
      quantaInOne * Decimal.scaleUp exponent * floor + quantaInOne * Decimal.scaleUp exponent := by
    ring
  by_cases near : 4 * remainder < magnitude.twiceGapBelow * Decimal.scaleDown exponent
  · left
    apply rounds_of_strictly
    · rw [floor_eq, Nat.sub_mul, mul_assoc 4]
      omega
    · rw [floor_eq, Nat.add_mul, mul_assoc 4, gapAbove, mul_assoc 2]
      omega
  · right
    apply rounds_of_strictly
    · rw [ceiling_eq, Nat.sub_mul, mul_assoc 4]
      omega
    · rw [ceiling_eq, Nat.add_mul, mul_assoc 4]
      omega

/-- A grid finer than the interval has a numeral in it. -/
theorem onGrid?_isSome {magnitude : Magnitude} {exponent : ℤ}
    (fine : quantaInOne * Decimal.scaleUp exponent * 10 ^ 16 ≤
      magnitude.quanta * Decimal.scaleDown exponent) :
    (magnitude.onGrid? exponent).isSome = true := by
  simp only [onGrid?]
  split
  · next noFloor noCeiling =>
      rcases covers_floor_or_ceiling fine with floor | ceiling
      · rw [floor] at noFloor
        cases noFloor
      · rw [ceiling] at noCeiling
        cases noCeiling
  · rfl
  · rfl
  · split <;> rfl

theorem quantaInOne_le_pow_digitOffset : quantaInOne ≤ 10 ^ digitOffset := by
  calc quantaInOne ≤ 2 ^ (3 * digitOffset) := by
        rw [quantaInOne_eq, quantaExponent_eq, digitOffset]
        exact Nat.pow_le_pow_right two_pos (by decide)
    _ ≤ 10 ^ (1 * digitOffset) := Decimal.two_pow_le_ten_pow (by decide : 2 ^ 3 ≤ 10 ^ 1) _
    _ = 10 ^ digitOffset := by rw [one_mul]

/-- Seventeen digits are enough. -/
theorem fine_leadingExponent {magnitude : Magnitude} (positive : 0 < magnitude.significand) :
    quantaInOne * Decimal.scaleUp (magnitude.leadingExponent - 16) * 10 ^ 16 ≤
      magnitude.quanta * Decimal.scaleDown (magnitude.leadingExponent - 16) := by
  have scaled_pos : 0 < magnitude.quanta * 10 ^ digitOffset / quantaInOne :=
    Nat.div_pos (quantaInOne_le_pow_digitOffset.trans
      (Nat.le_mul_of_pos_left _ (quanta_pos positive))) quantaInOne_pos
  have leading_le := pow_length_decimalDigits_le scaled_pos
  rw [Nat.le_div_iff_mul_le quantaInOne_pos] at leading_le
  have length_pos := length_decimalDigits_pos (magnitude.quanta * 10 ^ digitOffset / quantaInOne)
  have exponents :
      ((decimalDigits (magnitude.quanta * 10 ^ digitOffset / quantaInOne)).length - 1 : ℕ) =
        magnitude.leadingExponent - 16 + (digitOffset + 16 : ℕ) := by
    rw [leadingExponent]
    push_cast
    omega
  have scales := Decimal.scaleUp_mul exponents
  apply Nat.le_of_mul_le_mul_right _ (Nat.pow_pos (by decide) : 0 < 10 ^ digitOffset)
  calc quantaInOne * Decimal.scaleUp (magnitude.leadingExponent - 16) * 10 ^ 16 * 10 ^ digitOffset
      = quantaInOne *
          (Decimal.scaleUp (magnitude.leadingExponent - 16) * 10 ^ (digitOffset + 16)) := by
        rw [pow_add]
        ring
    _ = 10 ^ ((decimalDigits (magnitude.quanta * 10 ^ digitOffset / quantaInOne)).length - 1) *
          quantaInOne * Decimal.scaleDown (magnitude.leadingExponent - 16) := by
        rw [scales]
        ring
    _ ≤ magnitude.quanta * 10 ^ digitOffset *
          Decimal.scaleDown (magnitude.leadingExponent - 16) := Nat.mul_le_mul_right _ leading_le
    _ = magnitude.quanta * Decimal.scaleDown (magnitude.leadingExponent - 16) *
        10 ^ digitOffset := by
        ring

/-- The shortest numeral reads back: it has the value of one in the interval. -/
theorem covers_shortest {magnitude : Magnitude} (positive : 0 < magnitude.significand) :
    magnitude.covers magnitude.shortest = true := by
  have some_found : ((List.range 17).findSome? fun (more : ℕ) =>
      magnitude.onGrid? (magnitude.leadingExponent - more)).isSome = true := by
    rw [List.findSome?_isSome_iff]
    exact ⟨16, by decide, onGrid?_isSome (fine_leadingExponent positive)⟩
  rcases Option.isSome_iff_exists.mp some_found with ⟨decimal, found⟩
  rcases List.exists_of_findSome?_eq_some found with ⟨more, _, onGrid⟩
  simp only [shortest, found, Option.getD_some]
  exact covers_congr (Decimal.value_trim decimal 17).symm (covers_of_onGrid? onGrid)

end Magnitude

namespace Decimal

theorem largest_le : 2 ^ 53 * 2 ^ 2045 ≤ 10 ^ 310 * quantaInOne := by
  calc 2 ^ 53 * 2 ^ 2045 = 2 ^ 1024 * quantaInOne := by
        rw [quantaInOne_eq, quantaExponent_eq, ← pow_add, ← pow_add]
    _ ≤ 2 ^ (205 * 5) * quantaInOne :=
        Nat.mul_le_mul_right _ (Nat.pow_le_pow_right two_pos (show 1024 ≤ 205 * 5 by decide))
    _ ≤ 10 ^ (62 * 5) * quantaInOne :=
        Nat.mul_le_mul_right _ (two_pow_le_ten_pow (by norm_num) 5)

theorem twice_quantaInOne_le : 2 * quantaInOne ≤ 10 ^ 331 := by
  calc 2 * quantaInOne = 2 ^ (43 * 25) := by
        rw [quantaInOne_eq, quantaExponent_eq, ← pow_succ']
    _ ≤ 10 ^ (13 * 25) := two_pow_le_ten_pow (by norm_num) 25
    _ ≤ 10 ^ 331 := Nat.pow_le_pow_right (by decide) (show 13 * 25 ≤ 331 by decide)

/-- A numeral in an interval is worth at least half a quantum. -/
theorem two_scaleDown_le {magnitude : Magnitude} {decimal : Decimal}
    (covered : magnitude.covers decimal = true) (positive : 0 < magnitude.significand) :
    2 * scaleDown decimal.exponent ≤
      4 * (decimal.coefficient * scaleUp decimal.exponent * quantaInOne) := by
  have low := ((magnitude.covers_iff decimal).mp covered).between.1
  refine le_trans (Nat.mul_le_mul_right _ ?_) low
  have gap_pos := Nat.two_pow_pos magnitude.shift
  have quanta_ge := Nat.le_mul_of_pos_left (2 ^ magnitude.shift) positive
  rw [← Magnitude.quanta] at quanta_ge
  rw [Magnitude.twiceGapBelow]
  split <;> omega

theorem coefficient_pos {magnitude : Magnitude} {decimal : Decimal}
    (covered : magnitude.covers decimal = true) (positive : 0 < magnitude.significand) :
    0 < decimal.coefficient := by
  have low := two_scaleDown_le covered positive
  have scale_pos := scaleDown_pos decimal.exponent
  by_contra zero
  rw [Nat.eq_zero_of_not_pos zero, zero_mul, zero_mul] at low
  omega

/-- A numeral in an interval does not lie above the range of the format. -/
theorem leading_le {magnitude : Magnitude} {decimal : Decimal}
    (covered : magnitude.covers decimal = true) (positive : 0 < decimal.coefficient) :
    (decimalDigits decimal.coefficient).length + decimal.exponent ≤ 310 := by
  have high := ((magnitude.covers_iff decimal).mp covered).lt_top (scaleDown_pos _)
  have length_pos := length_decimalDigits_pos decimal.coefficient
  have leading := pow_length_decimalDigits_le positive
  generalize (decimalDigits decimal.coefficient).length = length at length_pos leading ⊢
  by_contra beyond
  rcases Int.eq_ofNat_of_zero_le (show 0 ≤ (length - 1 : ℤ) + decimal.exponent by omega) with
    ⟨above, above_eq⟩
  have scales := scaleUp_mul (show (above : ℤ) = decimal.exponent + (length - 1 : ℕ) by omega)
  have large : 10 ^ above * quantaInOne * scaleDown decimal.exponent ≤
      decimal.coefficient * scaleUp decimal.exponent * quantaInOne := by
    calc 10 ^ above * quantaInOne * scaleDown decimal.exponent
        = scaleDown decimal.exponent * 10 ^ above * quantaInOne := by ring
      _ = 10 ^ (length - 1) * scaleUp decimal.exponent * quantaInOne := by
          rw [← scales]
          ring
      _ ≤ decimal.coefficient * scaleUp decimal.exponent * quantaInOne :=
          Nat.mul_le_mul_right _ (Nat.mul_le_mul_right _ leading)
  have below : decimal.coefficient * scaleUp decimal.exponent * quantaInOne <
      2 ^ 53 * 2 ^ 2045 * scaleDown decimal.exponent := by
    calc decimal.coefficient * scaleUp decimal.exponent * quantaInOne
        < 2 ^ 53 * (scaleDown decimal.exponent * 2 ^ magnitude.shift) := high
      _ ≤ 2 ^ 53 * (scaleDown decimal.exponent * 2 ^ 2045) :=
          Nat.mul_le_mul_left _ (Nat.mul_le_mul_left _
            (Nat.pow_le_pow_right (by decide) magnitude.shift_le))
      _ = 2 ^ 53 * 2 ^ 2045 * scaleDown decimal.exponent := by
          rw [mul_comm (scaleDown _), mul_assoc]
  have power_le := Nat.pow_le_pow_right (by decide : 0 < 10) (show 310 ≤ above by omega)
  have largest_le_above := largest_le.trans (Nat.mul_le_mul_right quantaInOne power_le)
  exact absurd (large.trans_lt below) (not_lt.mpr (Nat.mul_le_mul_right _ largest_le_above))

/-- A numeral in an interval does not lie below the range of the format. -/
theorem le_leading {magnitude : Magnitude} {decimal : Decimal}
    (covered : magnitude.covers decimal = true) (positive : 0 < magnitude.significand) :
    -330 ≤ (decimalDigits decimal.coefficient).length + decimal.exponent := by
  have low := two_scaleDown_le covered positive
  have leading := lt_pow_length_decimalDigits decimal.coefficient
  generalize (decimalDigits decimal.coefficient).length = length at leading ⊢
  by_contra beyond
  rcases Int.eq_ofNat_of_zero_le (show 0 ≤ -((length : ℤ) + decimal.exponent) by omega) with
    ⟨below, below_eq⟩
  have scales := scaleUp_mul (show ((0 : ℕ) : ℤ) = decimal.exponent + (length + below : ℕ) by omega)
  rw [pow_zero, mul_one, pow_add] at scales
  have small : 2 * (scaleUp decimal.exponent * 10 ^ length) * 10 ^ below <
      2 * (scaleUp decimal.exponent * 10 ^ length) * (2 * quantaInOne) := by
    calc 2 * (scaleUp decimal.exponent * 10 ^ length) * 10 ^ below
        = 2 * scaleDown decimal.exponent := by
          rw [← scales]
          ring
      _ ≤ 4 * (decimal.coefficient * scaleUp decimal.exponent * quantaInOne) := low
      _ < 4 * (10 ^ length * scaleUp decimal.exponent * quantaInOne) :=
          Nat.mul_lt_mul_of_pos_left (Nat.mul_lt_mul_of_pos_right
            (Nat.mul_lt_mul_of_pos_right leading (scaleUp_pos _)) quantaInOne_pos) (by decide)
      _ = 2 * (scaleUp decimal.exponent * 10 ^ length) * (2 * quantaInOne) := by ring
  have power_lt := Nat.lt_of_mul_lt_mul_left small
  have power_le := Nat.pow_le_pow_right (by decide : 0 < 10) (show 331 ≤ below by omega)
  exact absurd (power_le.trans_lt power_lt) (not_lt.mpr twice_quantaInOne_le)

/-- A numeral in the interval of a magnitude is read as that magnitude. -/
theorem toBinary64_of_covers {magnitude : Magnitude} {decimal : Decimal}
    (covered : magnitude.covers decimal = true) (positive : 0 < magnitude.significand)
    (negative : Bool) : decimal.toBinary64 negative = .finite negative magnitude := by
  have coefficient_pos := coefficient_pos covered positive
  have notAbove := leading_le covered coefficient_pos
  have notBelow := le_leading covered positive
  simp only [toBinary64, if_neg coefficient_pos.ne']
  rw [if_neg (by omega), if_neg (by omega)]
  exact Binary64.ofQuotient_of_rounds ((magnitude.covers_iff decimal).mp covered) (scaleDown_pos _)
    negative

/-- The shortest numeral of a magnitude, and every other one of its value, is read as that
magnitude. -/
theorem toBinary64_of_value_eq {magnitude : Magnitude} {decimal : Decimal}
    (same : decimal.value = magnitude.shortest.value) (positive : 0 < magnitude.significand)
    (negative : Bool) : decimal.toBinary64 negative = .finite negative magnitude :=
  toBinary64_of_covers (Magnitude.covers_congr same.symm (Magnitude.covers_shortest positive))
    positive negative

end Decimal

end Scorecard
