import Scorecard.Proofs.Number.Rounding

/-!
# Nearest magnitudes

A quotient rounds to a magnitude if it lies between the points halfway to the neighbours of the
magnitude, which belong to the interval if the significand is even. The interval of a power of two
reaches into the binade below, where the magnitudes stand closer; a quotient there is rounded up to
the power of two by a carry.
-/

namespace Scorecard

/-- The nearest integer: twice the distance is at most the denominator, and less if the integer is
odd. -/
theorem roundHalfEven_eq {numerator denominator nearest : ℕ}
    (lower : 2 * nearest * denominator ≤ 2 * numerator + denominator)
    (upper : 2 * numerator ≤ 2 * nearest * denominator + denominator)
    (even : nearest % 2 = 0 ∨ (2 * nearest * denominator < 2 * numerator + denominator ∧
      2 * numerator < 2 * nearest * denominator + denominator)) (positive : 0 < denominator) :
    roundHalfEven numerator denominator = nearest := by
  have split := Nat.div_add_mod numerator denominator
  have remainder_lt := Nat.mod_lt numerator positive
  simp only [roundHalfEven]
  generalize numerator / denominator = quotient at split ⊢
  generalize numerator % denominator = remainder at split remainder_lt ⊢
  rw [mul_comm] at split
  rw [mul_assoc] at lower upper even
  have quotient_le : quotient ≤ nearest := by
    by_contra above
    have product : (nearest + 1) * denominator ≤ quotient * denominator :=
      Nat.mul_le_mul_right _ (by omega)
    rw [add_mul, one_mul] at product
    omega
  have le_succ : nearest ≤ quotient + 1 := by
    by_contra above
    have product : (quotient + 2) * denominator ≤ nearest * denominator :=
      Nat.mul_le_mul_right _ (by omega)
    rw [add_mul] at product
    omega
  rcases quotient_le.lt_or_eq with below | rfl
  · have same : nearest = quotient + 1 := by omega
    subst same
    rw [add_mul, one_mul] at lower even
    have remainder_ge : denominator ≤ 2 * remainder := by omega
    rw [if_pos]
    rcases remainder_ge.lt_or_eq with above | tie
    · exact .inl above
    · exact .inr ⟨tie, by omega⟩
  · rw [if_neg]
    rintro (above | ⟨tie, odd⟩)
    · omega
    · omega

namespace Magnitude

theorem quanta_pos {magnitude : Magnitude} (positive : 0 < magnitude.significand) :
    0 < magnitude.quanta :=
  Nat.mul_pos positive (Nat.two_pow_pos _)

theorem quanta_lt (magnitude : Magnitude) : magnitude.quanta < 2 ^ 53 * 2 ^ magnitude.shift :=
  Nat.mul_lt_mul_of_pos_right magnitude.significand_lt (Nat.two_pow_pos _)

/-- What is worth a significand of 53 bits under a shift is shifted back by it. -/
theorem shiftFor_eq {quanta shift : ℕ} (low : shift = 0 ∨ 2 ^ 52 * 2 ^ shift ≤ quanta)
    (high : quanta < 2 ^ 53 * 2 ^ shift) : shiftFor quanta = shift := by
  rcases Nat.eq_zero_or_pos quanta with rfl | positive
  · rcases low with rfl | low
    · rfl
    · have := Nat.two_pow_pos shift
      omega
  · rw [← pow_add, ← Nat.log2_lt positive.ne'] at high
    simp only [shiftFor]
    rcases low with rfl | low
    · omega
    · rw [← pow_add, ← Nat.le_log2 positive.ne'] at low
      omega

theorem shiftFor_quanta (magnitude : Magnitude) : shiftFor magnitude.quanta = magnitude.shift := by
  refine shiftFor_eq ?_ magnitude.quanta_lt
  rcases magnitude.normal with unshifted | normal
  · exact .inl unshifted
  · exact .inr (Nat.mul_le_mul_right _ normal)

/-- A magnitude is known by its count of quanta. -/
theorem ext_quanta {left right : Magnitude} (same : left.quanta = right.quanta) : left = right := by
  have shifts : left.shift = right.shift := by
    rw [← left.shiftFor_quanta, ← right.shiftFor_quanta, same]
  have significands : left.significand = right.significand := by
    rw [quanta, quanta, shifts] at same
    exact Nat.eq_of_mul_eq_mul_right (Nat.two_pow_pos _) same
  cases left
  cases right
  simp_all

/-- Whether a quotient lies in the interval of those that round to the magnitude. -/
def Rounds (magnitude : Magnitude) (numerator denominator : ℕ) : Prop :=
  let low := (4 * magnitude.quanta - magnitude.twiceGapBelow) * denominator
  let high := (4 * magnitude.quanta + 2 * magnitude.gapAbove) * denominator
  if magnitude.significand % 2 = 0 then low ≤ 4 * numerator ∧ 4 * numerator ≤ high
  else low < 4 * numerator ∧ 4 * numerator < high

theorem Rounds.between {magnitude : Magnitude} {numerator denominator : ℕ}
    (rounds : magnitude.Rounds numerator denominator) :
    (4 * magnitude.quanta - magnitude.twiceGapBelow) * denominator ≤ 4 * numerator ∧
      4 * numerator ≤ (4 * magnitude.quanta + 2 * magnitude.gapAbove) * denominator := by
  simp only [Rounds] at rounds
  split at rounds
  · exact rounds
  · exact ⟨rounds.1.le, rounds.2.le⟩

theorem Rounds.strictly {magnitude : Magnitude} {numerator denominator : ℕ}
    (rounds : magnitude.Rounds numerator denominator) (odd : magnitude.significand % 2 ≠ 0) :
    (4 * magnitude.quanta - magnitude.twiceGapBelow) * denominator < 4 * numerator ∧
      4 * numerator < (4 * magnitude.quanta + 2 * magnitude.gapAbove) * denominator := by
  simpa only [Rounds, if_neg odd] using rounds

/-- The interval depends on the quotient alone. -/
theorem Rounds.congr {magnitude : Magnitude} {numerator denominator other otherDenominator : ℕ}
    (rounds : magnitude.Rounds numerator denominator)
    (same : numerator * otherDenominator = other * denominator) (positive : 0 < denominator)
    (otherPositive : 0 < otherDenominator) : magnitude.Rounds other otherDenominator := by
  have scaled : 4 * numerator * otherDenominator = 4 * other * denominator := by
    rw [mul_assoc, same, mul_assoc]
  have le_iff : ∀ bound, bound * denominator ≤ 4 * numerator ↔
      bound * otherDenominator ≤ 4 * other := by
    intro bound
    rw [← Nat.mul_le_mul_right_iff otherPositive, scaled, Nat.mul_right_comm,
      Nat.mul_le_mul_right_iff positive]
  have ge_iff : ∀ bound, 4 * numerator ≤ bound * denominator ↔
      4 * other ≤ bound * otherDenominator := by
    intro bound
    rw [← Nat.mul_le_mul_right_iff otherPositive, scaled, Nat.mul_right_comm bound,
      Nat.mul_le_mul_right_iff positive]
  simp only [Rounds, ← not_le, le_iff, ge_iff] at rounds ⊢
  exact rounds

/-- The lower end of the interval, away from the powers of two. -/
theorem low_eq {magnitude : Magnitude} (denominator : ℕ)
    (inner : ¬ (magnitude.significand = 2 ^ 52 ∧ 0 < magnitude.shift)) :
    (4 * magnitude.quanta - magnitude.twiceGapBelow) * denominator =
      4 * (magnitude.significand * (denominator * 2 ^ magnitude.shift)) -
        2 * (denominator * 2 ^ magnitude.shift) := by
  rw [twiceGapBelow, if_neg inner, quanta, Nat.sub_mul]
  congr 1 <;> ring

theorem high_eq (magnitude : Magnitude) (denominator : ℕ) :
    (4 * magnitude.quanta + 2 * magnitude.gapAbove) * denominator =
      4 * (magnitude.significand * (denominator * 2 ^ magnitude.shift)) +
        2 * (denominator * 2 ^ magnitude.shift) := by
  rw [quanta, gapAbove]
  ring

theorem Rounds.lt_top {magnitude : Magnitude} {numerator denominator : ℕ}
    (rounds : magnitude.Rounds numerator denominator) (positive : 0 < denominator) :
    numerator < 2 ^ 53 * (denominator * 2 ^ magnitude.shift) := by
  have unit_pos := Nat.mul_pos positive (Nat.two_pow_pos magnitude.shift)
  have high := rounds.between.2
  rw [high_eq] at high
  have top := Nat.mul_le_mul_right (denominator * 2 ^ magnitude.shift) magnitude.significand_lt
  rw [Nat.succ_mul] at top
  omega

/-- A quotient below the least magnitude of a shift belongs to that one, if to any of the shift, and
is rounded to it by a carry. -/
theorem roundedQuotient_of_carried {magnitude : Magnitude} {numerator denominator : ℕ}
    (rounds : magnitude.Rounds numerator denominator) (positive : 0 < denominator)
    (shifted : magnitude.shift ≠ 0)
    (carried : numerator < 2 ^ 52 * (denominator * 2 ^ magnitude.shift)) :
    roundedQuotient numerator denominator = magnitude.quanta := by
  have unit_pos := Nat.mul_pos positive (Nat.two_pow_pos magnitude.shift)
  have low := rounds.between.1
  have least : magnitude.significand = 2 ^ 52 := by
    by_contra inner
    rw [low_eq denominator fun ends => inner ends.1] at low
    have normal : 2 ^ 52 ≤ magnitude.significand := magnitude.normal.resolve_left shifted
    have above := Nat.mul_le_mul_right (denominator * 2 ^ magnitude.shift)
      (show 2 ^ 52 + 1 ≤ magnitude.significand by omega)
    rw [Nat.succ_mul] at above
    omega
  rcases Nat.exists_eq_add_one_of_ne_zero shifted with ⟨shift, shift_eq⟩
  have unit_eq : denominator * 2 ^ magnitude.shift = 2 * (denominator * 2 ^ shift) := by
    rw [shift_eq]
    ring
  have low_carried : (4 * magnitude.quanta - magnitude.twiceGapBelow) * denominator =
      4 * (2 ^ 53 * (denominator * 2 ^ shift)) - 2 * (denominator * 2 ^ shift) := by
    rw [twiceGapBelow, if_pos ⟨least, by omega⟩, quanta, least, Nat.sub_mul, shift_eq]
    congr 1 <;> ring
  rw [low_carried] at low
  rw [unit_eq] at carried unit_pos
  have shiftFor_quotient : shiftFor (numerator / denominator) = shift := by
    apply shiftFor_eq
    · right
      rw [Nat.le_div_iff_mul_le positive, mul_assoc, mul_comm _ denominator]
      omega
    · rw [Nat.div_lt_iff_lt_mul positive, mul_assoc, mul_comm _ denominator]
      omega
  have significand_eq : roundHalfEven numerator (denominator * 2 ^ shift) = 2 ^ 53 := by
    apply roundHalfEven_eq
    · omega
    · omega
    · exact .inl (by decide)
    · omega
  rw [roundedQuotient, shiftFor_quotient, significand_eq, quanta, least, shift_eq]
  ring

/-- A quotient in the interval of a magnitude is rounded to it. -/
theorem roundedQuotient_of_rounds {magnitude : Magnitude} {numerator denominator : ℕ}
    (rounds : magnitude.Rounds numerator denominator) (positive : 0 < denominator) :
    roundedQuotient numerator denominator = magnitude.quanta := by
  by_cases carried : magnitude.shift ≠ 0 ∧ numerator < 2 ^ 52 * (denominator * 2 ^ magnitude.shift)
  · exact roundedQuotient_of_carried rounds positive carried.1 carried.2
  have unit_pos := Nat.mul_pos positive (Nat.two_pow_pos magnitude.shift)
  have above : magnitude.shift = 0 ∨ 2 ^ 52 * (denominator * 2 ^ magnitude.shift) ≤ numerator := by
    omega
  have shift_eq : shiftFor (numerator / denominator) = magnitude.shift := by
    apply shiftFor_eq
    · refine above.imp_right fun above => ?_
      rwa [Nat.le_div_iff_mul_le positive, mul_assoc, mul_comm _ denominator]
    · rw [Nat.div_lt_iff_lt_mul positive, mul_assoc, mul_comm _ denominator]
      exact rounds.lt_top positive
  rw [roundedQuotient, shift_eq, quanta]
  congr 1
  have low := rounds.between.1
  have high := rounds.between.2
  rw [high_eq] at high
  apply roundHalfEven_eq
  · by_cases ends : magnitude.significand = 2 ^ 52 ∧ 0 < magnitude.shift
    · rw [ends.1]
      omega
    · rw [low_eq denominator ends] at low
      rw [mul_assoc]
      omega
  · rw [mul_assoc]
    omega
  · by_cases even : magnitude.significand % 2 = 0
    · exact .inl even
    · have strict := rounds.strictly even
      rw [high_eq, low_eq denominator
        (by rintro ⟨ends, _⟩; rw [ends] at even; exact even (by decide))] at strict
      have unit_le := Nat.le_mul_of_pos_left (denominator * 2 ^ magnitude.shift)
        (show 0 < magnitude.significand by omega)
      rw [mul_assoc]
      omega
  · exact unit_pos

end Magnitude

/-- A quotient in the interval of a magnitude is rounded to it, as far as the format reaches. -/
theorem Binary64.ofQuotient_of_rounds {magnitude : Magnitude} {numerator denominator : ℕ}
    (rounds : magnitude.Rounds numerator denominator) (positive : 0 < denominator)
    (negative : Bool) : ofQuotient negative numerator denominator = .finite negative magnitude := by
  have worth := Magnitude.roundedQuotient_of_rounds rounds positive
  have bounded := magnitude.quanta_lt
  have shift_le := magnitude.shift_le
  rw [← worth] at bounded
  simp only [roundedQuotient] at worth bounded
  simp only [ofQuotient]
  split
  · next carry =>
      rw [carry, Nat.mul_lt_mul_left (by decide), Nat.pow_lt_pow_iff_right (by decide)] at bounded
      rw [dif_pos (by omega)]
      congr 1
      apply Magnitude.ext_quanta
      rw [← worth, carry]
      simp only [Magnitude.quanta]
      ring
  · next =>
      have inRange : shiftFor (numerator / denominator) ≤ magnitude.shift := by
        by_contra beyond
        have significand_ge :=
          two_pow_le_significand (show shiftFor (numerator / denominator) ≠ 0 by omega)
        have reaches : 2 ^ 52 * 2 ^ (magnitude.shift + 1) ≤ roundHalfEven numerator
            (denominator * 2 ^ shiftFor (numerator / denominator)) *
              2 ^ shiftFor (numerator / denominator) :=
          Nat.mul_le_mul significand_ge (Nat.pow_le_pow_right (by decide) (by omega))
        rw [pow_succ] at reaches
        omega
      rw [dif_pos (by omega)]
      congr 1
      exact Magnitude.ext_quanta worth

end Scorecard
