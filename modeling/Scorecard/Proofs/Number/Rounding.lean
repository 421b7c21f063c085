import Mathlib
import Scorecard.Number.Binary64

/-!
# Rounding to binary64

A rational number of quanta is rounded by one function of its numerator and denominator. Leaving the
largest finite number aside, the result is again a whole number of quanta, so rounding is a function
from the natural numbers to themselves. It depends on the quotient alone, keeps the order, and
leaves every magnitude of the format where it is.

Monotonicity needs the split of the numerators by the shift that they lead to. Within one shift it
is monotonicity of the rounded division. A larger shift starts at the power of two that a smaller
one ends at, because a rounded significand stays between `2 ^ 52` and `2 ^ 53`.
-/

namespace Scorecard

theorem roundHalfEven_mono {numerator larger : ℕ} (le : numerator ≤ larger) (denominator : ℕ) :
    roundHalfEven numerator denominator ≤ roundHalfEven larger denominator := by
  have quotient_le : numerator / denominator ≤ larger / denominator := Nat.div_le_div_right le
  rcases quotient_le.lt_or_eq with below | same
  · calc roundHalfEven numerator denominator
        ≤ numerator / denominator + 1 := roundHalfEven_le _ _
      _ ≤ larger / denominator := below
      _ ≤ roundHalfEven larger denominator := div_le_roundHalfEven _ _
  · have split := Nat.div_add_mod numerator denominator
    have splitLarger := Nat.div_add_mod larger denominator
    rw [same] at split
    have remainder_le : numerator % denominator ≤ larger % denominator := by omega
    simp only [roundHalfEven, same]
    split <;> split <;> omega

theorem roundHalfEven_mul_right (numerator denominator : ℕ) {scale : ℕ} (positive : 0 < scale) :
    roundHalfEven (numerator * scale) (denominator * scale) =
      roundHalfEven numerator denominator := by
  have double : 2 * (numerator % denominator * scale) = 2 * (numerator % denominator) * scale := by
    ring
  simp only [roundHalfEven, Nat.mul_div_mul_right _ _ positive, Nat.mul_mod_mul_right, double,
    Nat.mul_lt_mul_right positive, Nat.mul_left_inj positive.ne']

theorem roundHalfEven_mul_self (quotient : ℕ) {denominator : ℕ} (positive : 0 < denominator) :
    roundHalfEven (quotient * denominator) denominator = quotient := by
  simp only [roundHalfEven, Nat.mul_div_cancel _ positive, Nat.mul_mod_left]
  rw [if_neg (by omega)]

/-- The quotient of two natural numbers, rounded to the nearest magnitude as if there were no
largest one. -/
def roundedQuotient (numerator denominator : ℕ) : ℕ :=
  roundHalfEven numerator (denominator * 2 ^ shiftFor (numerator / denominator)) *
    2 ^ shiftFor (numerator / denominator)

theorem shiftFor_mono {quanta larger : ℕ} (le : quanta ≤ larger) :
    shiftFor quanta ≤ shiftFor larger := by
  have log_le : quanta.log2 ≤ larger.log2 := by
    simpa only [Nat.log2_eq_log_two] using Nat.log_mono_right le
  simp only [shiftFor]
  omega

/-- A rounded significand never exceeds the power of two above it. -/
theorem significand_le_two_pow (numerator denominator : ℕ) :
    roundHalfEven numerator (denominator * 2 ^ shiftFor (numerator / denominator)) ≤ 2 ^ 53 := by
  have rounded := roundHalfEven_le numerator
    (denominator * 2 ^ shiftFor (numerator / denominator))
  rw [← Nat.div_div_eq_div_mul] at rounded
  have below := div_two_pow_shiftFor_lt (numerator / denominator)
  omega

/-- The significand of a shifted number has its top bit set. -/
theorem two_pow_le_significand {numerator denominator : ℕ}
    (shifted : shiftFor (numerator / denominator) ≠ 0) :
    2 ^ 52 ≤ roundHalfEven numerator (denominator * 2 ^ shiftFor (numerator / denominator)) := by
  have rounded := div_le_roundHalfEven numerator
    (denominator * 2 ^ shiftFor (numerator / denominator))
  rw [← Nat.div_div_eq_div_mul] at rounded
  have above := two_pow_le_div_shiftFor shifted
  omega

theorem roundedQuotient_mono {numerator larger : ℕ} (le : numerator ≤ larger) (denominator : ℕ) :
    roundedQuotient numerator denominator ≤ roundedQuotient larger denominator := by
  have shift_le := shiftFor_mono (Nat.div_le_div_right (c := denominator) le)
  rcases shift_le.lt_or_eq with below | same
  · calc roundedQuotient numerator denominator
        ≤ 2 ^ 53 * 2 ^ shiftFor (numerator / denominator) :=
          Nat.mul_le_mul_right _ (significand_le_two_pow _ _)
      _ = 2 ^ 52 * 2 ^ (shiftFor (numerator / denominator) + 1) := by ring
      _ ≤ 2 ^ 52 * 2 ^ shiftFor (larger / denominator) :=
          Nat.mul_le_mul_left _ (Nat.pow_le_pow_right (by decide) below)
      _ ≤ roundedQuotient larger denominator :=
          Nat.mul_le_mul_right _ (two_pow_le_significand (by omega))
  · simp only [roundedQuotient, same]
    exact Nat.mul_le_mul_right _ (roundHalfEven_mono le _)

theorem roundedQuotient_mul_right (numerator denominator : ℕ) {scale : ℕ} (positive : 0 < scale) :
    roundedQuotient (numerator * scale) (denominator * scale) =
      roundedQuotient numerator denominator := by
  simp only [roundedQuotient, Nat.mul_div_mul_right _ _ positive]
  rw [Nat.mul_right_comm denominator scale, roundHalfEven_mul_right _ _ positive]

@[simp]
theorem roundedQuotient_zero (denominator : ℕ) : roundedQuotient 0 denominator = 0 := by
  simp [roundedQuotient, roundHalfEven]

/-- A count of quanta that its shift divides is a magnitude of the format, and rounding leaves
it. -/
theorem roundedQuotient_of_dvd {quanta denominator : ℕ} (positive : 0 < denominator)
    (representable : 2 ^ shiftFor quanta ∣ quanta) :
    roundedQuotient (quanta * denominator) denominator = quanta := by
  obtain ⟨significand, split⟩ := representable
  simp only [roundedQuotient, Nat.mul_div_cancel _ positive]
  generalize shiftFor quanta = shift at split ⊢
  subst split
  have regrouped : 2 ^ shift * significand * denominator =
      significand * (denominator * 2 ^ shift) := by ring
  rw [regrouped, roundHalfEven_mul_self _ (by positivity), Nat.mul_comm]

/-- Every natural number of at most 53 bits, shifted by any number of places, is a magnitude. -/
theorem two_pow_shiftFor_dvd {significand : ℕ} (small : significand ≤ 2 ^ 53) (shift : ℕ) :
    2 ^ shiftFor (significand * 2 ^ shift) ∣ significand * 2 ^ shift := by
  rcases small.lt_or_eq with below | rfl
  · apply Dvd.dvd.mul_left
    apply Nat.pow_dvd_pow
    rcases Nat.eq_zero_or_pos significand with rfl | positive
    · simp [shiftFor]
    · have log_lt : (significand * 2 ^ shift).log2 < 53 + shift := by
        rw [Nat.log2_lt (by positivity), Nat.pow_add]
        exact Nat.mul_lt_mul_of_pos_right below (by positivity)
      simp only [shiftFor]
      omega
  · rw [← Nat.pow_add]
    apply Nat.pow_dvd_pow
    simp only [shiftFor, Nat.log2_two_pow]
    omega

/-- Quotients below two to this power round to finite numbers: it leaves room for a carry. -/
def safeExponent : ℕ := 2096

/-- What quotients that are sure to round to finite numbers stay below. -/
def safeBound : ℕ := 2 ^ safeExponent

theorem shiftFor_le_of_lt_safeBound {quanta : ℕ} (safe : quanta < safeBound) :
    shiftFor quanta ≤ 2044 := by
  rcases Nat.eq_zero_or_pos quanta with rfl | positive
  · simp [shiftFor]
  · rw [safeBound, ← Nat.log2_lt positive.ne'] at safe
    simp only [shiftFor]
    simp only [safeExponent] at safe
    omega

namespace Binary64

/-- A quotient in the safe range rounds to a finite number, which has the rounded count of
quanta. -/
theorem exists_ofQuotient (negative : Bool) {numerator denominator : ℕ}
    (safe : numerator / denominator < safeBound) :
    ∃ magnitude, ofQuotient negative numerator denominator = .finite negative magnitude ∧
      magnitude.quanta = roundedQuotient numerator denominator := by
  have shift_le := shiftFor_le_of_lt_safeBound safe
  simp only [ofQuotient]
  split
  · next carry =>
      rw [dif_pos (by omega)]
      refine ⟨_, rfl, ?_⟩
      simp only [Magnitude.quanta, roundedQuotient, carry]
      ring
  · next =>
      rw [dif_pos (by omega)]
      exact ⟨_, rfl, rfl⟩

end Binary64

end Scorecard
