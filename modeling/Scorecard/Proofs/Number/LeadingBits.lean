import Scorecard.Proofs.Number.Nearest
import Scorecard.Proofs.Number.Value

/-!
# Leading bits

Rounding leaves the 53 leading bits of a number, wherever they stand. One more bit makes a tie,
which goes to the even number. What is added far behind the last bit is lost.
-/

namespace Scorecard

theorem roundedQuotient_mul_two_pow (quanta places : ℕ) :
    roundedQuotient (quanta * 2 ^ places) 1 = roundedQuotient quanta 1 * 2 ^ places := by
  rcases lt_or_ge quanta (2 ^ 53) with small | large
  · have kept := roundedQuotient_of_dvd Nat.one_pos (two_pow_shiftFor_dvd small.le 0)
    have moved := roundedQuotient_of_dvd Nat.one_pos (two_pow_shiftFor_dvd small.le places)
    rw [mul_one] at moved
    rw [pow_zero, mul_one, mul_one] at kept
    rw [moved, kept]
  · have shifted : shiftFor quanta ≠ 0 := by
      have log_ge : 53 ≤ quanta.log2 := (Nat.le_log2 (by omega)).mpr large
      rw [shiftFor]
      omega
    have low := (Nat.le_div_iff_mul_le (Nat.two_pow_pos _)).mp (two_pow_le_div_shiftFor shifted)
    have high := (Nat.div_lt_iff_lt_mul (Nat.two_pow_pos _)).mp (div_two_pow_shiftFor_lt quanta)
    have shift_eq : shiftFor (quanta * 2 ^ places) = shiftFor quanta + places := by
      apply Magnitude.shiftFor_eq
      · right
        rw [pow_add, ← mul_assoc]
        exact Nat.mul_le_mul_right _ low
      · rw [pow_add, ← mul_assoc]
        exact Nat.mul_lt_mul_of_pos_right high (Nat.two_pow_pos places)
    rw [roundedQuotient, roundedQuotient, Nat.div_one, Nat.div_one, shift_eq, one_mul, one_mul,
      pow_add, roundHalfEven_mul_right _ _ (Nat.two_pow_pos places), mul_assoc]

theorem roundedValue_mul_two_pow (value : ℤ) (places : ℕ) :
    roundedValue (value * 2 ^ places) 1 = roundedValue value 1 * 2 ^ places := by
  have unit_pos : (0 : ℤ) < 2 ^ places := by positivity
  have natAbs_eq : (value * 2 ^ places).natAbs = value.natAbs * 2 ^ places := by
    rw [Int.natAbs_mul, Int.natAbs_pow]
    rfl
  rw [roundedValue, roundedValue, natAbs_eq, roundedQuotient_mul_two_pow, Int.sign_mul,
    Int.sign_eq_one_of_pos unit_pos]
  push_cast
  ring

theorem roundedValue_eq_self_of_small {whole : ℤ} (small : |whole| ≤ 2 ^ 53) :
    roundedValue whole 1 = whole := by
  have kept := roundedValue_eq_self small 0
  rwa [pow_zero, mul_one] at kept

/-- An integer is its own rounding exactly if there are only zeros behind its leading bits. -/
theorem roundedValue_eq_self_iff (whole : ℤ) :
    roundedValue whole 1 = whole ↔ 2 ^ shiftFor whole.natAbs ∣ whole.natAbs := by
  constructor
  · intro same
    have natAbs_eq : roundedQuotient whole.natAbs 1 = whole.natAbs := by
      have magnitudes := congrArg Int.natAbs same
      rcases eq_or_ne whole 0 with rfl | nonzero
      · simp
      · rwa [roundedValue, Int.natAbs_mul, Int.natAbs_sign_of_ne_zero nonzero, one_mul,
          Int.natAbs_natCast] at magnitudes
    rw [roundedQuotient, Nat.div_one] at natAbs_eq
    exact Dvd.intro_left _ natAbs_eq
  · intro representable
    have kept := roundedQuotient_of_dvd Nat.one_pos representable
    rw [mul_one] at kept
    rw [roundedValue, kept, Int.sign_mul_natAbs]

theorem roundHalfEven_tie (lower : ℕ) : roundHalfEven (2 * lower + 1) 2 = lower + lower % 2 := by
  simp only [roundHalfEven]
  split <;> omega

/-- An odd number of 54 bits lies halfway between two of 53 bits, and goes to the even one. -/
theorem roundedQuotient_tie {lower : ℕ} (low : 2 ^ 52 ≤ lower) (high : lower < 2 ^ 53) (shift : ℕ) :
    roundedQuotient ((2 * lower + 1) * 2 ^ shift) 1 = (lower + lower % 2) * 2 ^ (shift + 1) := by
  have shift_eq : shiftFor ((2 * lower + 1) * 2 ^ shift / 1) = shift + 1 := by
    rw [Nat.div_one]
    apply Magnitude.shiftFor_eq
    · right
      rw [pow_succ' 2 shift, ← mul_assoc]
      exact Nat.mul_le_mul_right _ (by omega)
    · rw [pow_succ' 2 shift, ← mul_assoc]
      exact Nat.mul_lt_mul_of_pos_right (by omega) (Nat.two_pow_pos shift)
  rw [roundedQuotient, shift_eq, one_mul, pow_succ' 2 shift,
    roundHalfEven_mul_right _ _ (Nat.two_pow_pos shift), roundHalfEven_tie]

theorem roundedValue_tie {lower : ℤ} (low : 2 ^ 53 < |2 * lower + 1|)
    (high : |2 * lower + 1| < 2 ^ 54) (shift : ℕ) :
    roundedValue ((2 * lower + 1) * 2 ^ shift) 1 = (lower + lower % 2) * 2 ^ (shift + 1) := by
  rw [lt_abs] at low
  rw [abs_lt] at high
  rcases le_or_gt 0 lower with nonneg | negative
  · lift lower to ℕ using nonneg
    have rounded : roundedQuotient ((2 * lower + 1) * 2 ^ shift) 1 = _ :=
      roundedQuotient_tie (by omega) (by omega) shift
    have natCast := roundedValue_natCast ((2 * lower + 1) * 2 ^ shift) 1
    rw [rounded] at natCast
    exact_mod_cast natCast
  · -- Under the other sign the upper neighbour becomes the lower one.
    obtain ⟨opposite, rfl⟩ : ∃ opposite : ℕ, lower = -(opposite + 1) :=
      ⟨(-lower - 1).toNat, by omega⟩
    have rounded : roundedQuotient ((2 * opposite + 1) * 2 ^ shift) 1 = _ :=
      roundedQuotient_tie (by omega) (by omega) shift
    have natCast := roundedValue_natCast ((2 * opposite + 1) * 2 ^ shift) 1
    rw [rounded] at natCast
    have turned :
        (2 * (-(opposite + 1 : ℤ)) + 1) * 2 ^ shift = -((2 * opposite + 1) * 2 ^ shift : ℕ) := by
      push_cast
      ring
    have parity :
        -(opposite + 1 : ℤ) + -(opposite + 1 : ℤ) % 2 = -(opposite + opposite % 2 : ℕ) := by omega
    rw [turned, roundedValue_neg, natCast, parity]
    push_cast
    ring

/-- What is at most a quarter of the last bit is lost in a sum. -/
theorem Magnitude.roundedValue_signed_add {magnitude : Magnitude}
    (normal : 2 ^ 52 ≤ magnitude.significand) (negative : Bool) {offset : ℕ}
    (small : 4 * offset ≤ 2 ^ magnitude.shift) :
    roundedValue (magnitude.signed negative + offset) 1 = magnitude.signed negative := by
  have unit_le : 2 ^ magnitude.shift ≤ magnitude.quanta := Nat.le_mul_of_pos_left _ (by omega)
  have unit_pos := Nat.two_pow_pos magnitude.shift
  have gap : magnitude.twiceGapBelow = 2 * 2 ^ magnitude.shift ∨
      magnitude.twiceGapBelow = 2 ^ magnitude.shift ∧ magnitude.significand = 2 ^ 52 := by
    rw [twiceGapBelow]
    split
    · next ends => exact .inr ⟨rfl, ends.1⟩
    · exact .inl rfl
  cases negative with
  | false =>
      have rounds : magnitude.Rounds (magnitude.quanta + offset) 1 := by
        simp only [Rounds, gapAbove]
        split <;> omega
      have natCast := roundedValue_natCast (magnitude.quanta + offset) 1
      rw [roundedQuotient_of_rounds rounds Nat.one_pos] at natCast
      exact_mod_cast natCast
  | true =>
      have rounds : magnitude.Rounds (magnitude.quanta - offset) 1 := by
        simp only [Rounds, gapAbove]
        split <;> omega
      have natCast := roundedValue_natCast (magnitude.quanta - offset) 1
      have turned : magnitude.signed true + offset = -((magnitude.quanta - offset : ℕ) : ℤ) := by
        simp only [signed, if_true]
        omega
      rw [turned, roundedValue_neg, natCast, roundedQuotient_of_rounds rounds Nat.one_pos, signed,
        if_pos rfl]

end Scorecard
