import Scorecard.Number.Basic
import Scorecard.Proofs.Number.Value

/-!
# Arithmetic of numbers

On bounded numbers every operation returns, and its result is worth the rounding of the exact result
on the values. The lemmas make no difference between integers and floats: an exact sum of integers
is its own rounding, and an integer that meets a float keeps its value.
-/

namespace Scorecard

namespace Number

/-- The exact value of a finite number, in quanta. -/
def quanta? : Number → Option ℤ
  | .int value => some (value * quantaInOne)
  | .float value => value.quanta?

variable {number left right : Number} {value leftValue rightValue : ℤ}
  {bound leftBound rightBound : ℕ}

theorem floatOfInt_of_quanta? {whole : ℤ} (worth : (Binary64.ofInt whole).quanta? = some value) :
    floatOfInt whole = .ok (Binary64.ofInt whole) := by
  rw [floatOfInt, if_pos ((Binary64.isFinite_iff_quanta? _).mpr ⟨value, worth⟩)]

/-- Taken as a float, a number keeps its value. -/
theorem exists_toFloat (worth : number.quanta? = some value) (within : Within bound value)
    (small : bound ≤ 2 ^ 53) :
    ∃ float, number.toFloat = .ok float ∧ float.quanta? = some value := by
  cases number with
  | int whole =>
      simp only [quanta?, Option.some.injEq] at worth
      subst worth
      have whole_le := (within.mono small).int_le
      have floatWorth := Binary64.quanta?_ofInt (by exact_mod_cast whole_le)
      exact ⟨_, floatOfInt_of_quanta? floatWorth, floatWorth⟩
  | float float => exact ⟨float, rfl, worth⟩

/-- An operation on floats takes both numbers at their values. -/
theorem exists_onFloats (operation : Binary64 → Binary64 → Binary64)
    (leftWorth : left.quanta? = some leftValue) (rightWorth : right.quanta? = some rightValue)
    (leftWithin : Within leftBound leftValue) (rightWithin : Within rightBound rightValue)
    (leftSmall : leftBound ≤ 2 ^ 53) (rightSmall : rightBound ≤ 2 ^ 53) :
    ∃ leftFloat rightFloat,
      onFloats operation left right = .ok (.float (operation leftFloat rightFloat)) ∧
        leftFloat.quanta? = some leftValue ∧ rightFloat.quanta? = some rightValue := by
  obtain ⟨leftFloat, leftTaken, leftFloatWorth⟩ := exists_toFloat leftWorth leftWithin leftSmall
  obtain ⟨rightFloat, rightTaken, rightFloatWorth⟩ :=
    exists_toFloat rightWorth rightWithin rightSmall
  refine ⟨leftFloat, rightFloat, ?_, leftFloatWorth, rightFloatWorth⟩
  rw [onFloats, leftTaken, rightTaken]
  rfl

/-- The sum is worth the rounded sum of the values. -/
theorem exists_add (leftWorth : left.quanta? = some leftValue)
    (rightWorth : right.quanta? = some rightValue) (leftWithin : Within leftBound leftValue)
    (rightWithin : Within rightBound rightValue) (small : leftBound + rightBound ≤ 2 ^ 53) :
    ∃ sum, left.add right = .ok sum ∧
      sum.quanta? = some (roundedValue (leftValue + rightValue) 1) := by
  have within := leftWithin.add rightWithin
  have rounded : ∃ sum, onFloats .add left right = .ok sum ∧
      sum.quanta? = some (roundedValue (leftValue + rightValue) 1) := by
    obtain ⟨leftFloat, rightFloat, added, leftFloatWorth, rightFloatWorth⟩ :=
      exists_onFloats .add leftWorth rightWorth leftWithin rightWithin (by omega) (by omega)
    exact ⟨_, added,
      Binary64.quanta?_add leftFloatWorth rightFloatWorth (within.natAbs_lt_safeBound small)⟩
  cases left with
  | float leftFloat => exact rounded
  | int leftWhole =>
      cases right with
      | float rightFloat => exact rounded
      | int rightWhole =>
          simp only [quanta?, Option.some.injEq] at leftWorth rightWorth
          subst leftWorth rightWorth
          rw [← add_mul] at within ⊢
          have whole_le := (within.mono small).int_le
          exact ⟨_, rfl, by rw [roundedValue_int (by exact_mod_cast whole_le)]; rfl⟩

/-- The difference is worth the rounded difference of the values. -/
theorem exists_sub (leftWorth : left.quanta? = some leftValue)
    (rightWorth : right.quanta? = some rightValue) (leftWithin : Within leftBound leftValue)
    (rightWithin : Within rightBound rightValue) (small : leftBound + rightBound ≤ 2 ^ 53) :
    ∃ difference, left.sub right = .ok difference ∧
      difference.quanta? = some (roundedValue (leftValue - rightValue) 1) := by
  have within := leftWithin.sub rightWithin
  have rounded : ∃ difference, onFloats .sub left right = .ok difference ∧
      difference.quanta? = some (roundedValue (leftValue - rightValue) 1) := by
    obtain ⟨leftFloat, rightFloat, subtracted, leftFloatWorth, rightFloatWorth⟩ :=
      exists_onFloats .sub leftWorth rightWorth leftWithin rightWithin (by omega) (by omega)
    exact ⟨_, subtracted,
      Binary64.quanta?_sub leftFloatWorth rightFloatWorth (within.natAbs_lt_safeBound small)⟩
  cases left with
  | float leftFloat => exact rounded
  | int leftWhole =>
      cases right with
      | float rightFloat => exact rounded
      | int rightWhole =>
          simp only [quanta?, Option.some.injEq] at leftWorth rightWorth
          subst leftWorth rightWorth
          rw [← sub_mul] at within ⊢
          have whole_le := (within.mono small).int_le
          exact ⟨_, rfl, by rw [roundedValue_int (by exact_mod_cast whole_le)]; rfl⟩

/-- The product with an integer is worth the rounded multiple of the value. -/
theorem exists_mul_int {factor : ℤ} {factorBound : ℕ} (worth : number.quanta? = some value)
    (numberWithin : Within bound value) (numberSmall : bound ≤ 2 ^ 53)
    (factor_le : |factor| ≤ factorBound) (factorSmall : factorBound ≤ 2 ^ 53)
    (small : bound * factorBound ≤ 2 ^ 53) :
    ∃ product, number.mul (.int factor) = .ok product ∧
      product.quanta? = some (roundedValue (value * factor) 1) := by
  have within := numberWithin.mul_int factor_le
  cases number with
  | int whole =>
      simp only [quanta?, Option.some.injEq] at worth
      subst worth
      rw [mul_right_comm] at within ⊢
      have whole_le := (within.mono small).int_le
      exact ⟨_, rfl, by rw [roundedValue_int (by exact_mod_cast whole_le)]; rfl⟩
  | float float =>
      obtain ⟨leftFloat, rightFloat, multiplied, leftFloatWorth, rightFloatWorth⟩ :=
        exists_onFloats .mul worth (show quanta? (.int factor) = _ from rfl) numberWithin
          (.of_int factor_le) numberSmall factorSmall
      have regrouped : value * (factor * quantaInOne) = value * factor * quantaInOne :=
        (mul_assoc ..).symm
      have safe : (value * (factor * quantaInOne)).natAbs / quantaInOne < safeBound := by
        rw [regrouped, Int.natAbs_mul, Int.natAbs_natCast, Nat.mul_div_cancel _ quantaInOne_pos]
        exact within.natAbs_lt_safeBound small
      have productWorth := Binary64.quanta?_mul leftFloatWorth rightFloatWorth safe
      have scaled := roundedValue_mul_right (value * factor) 1 quantaInOne_pos
      rw [Nat.one_mul] at scaled
      rw [regrouped, scaled] at productWorth
      exact ⟨_, multiplied, productWorth⟩

/-- An integer is divided as the exact value that it is, not as a float, while the quotient is in
the range. -/
theorem exists_divBy_int {whole : ℤ} {divisor : ℕ}
    (safe : (whole * quantaInOne).natAbs / divisor < safeBound) :
    ∃ quotient, (int whole).divBy divisor = .ok quotient ∧
      quotient.quanta? = some (roundedValue (whole * quantaInOne) divisor) := by
  have sign : whole * quantaInOne ≠ 0 → decide (whole < 0) = decide (whole * quantaInOne < 0) := by
    intro
    simp [mul_neg_iff, quantaInOne_pos]
  have worth := Binary64.quanta?_ofQuotient sign safe
  rw [Int.natAbs_mul, Int.natAbs_natCast] at worth
  refine ⟨_, ?_, worth⟩
  rw [divBy, if_pos ((Binary64.isFinite_iff_quanta? _).mpr ⟨_, worth⟩)]

/-- The quotient by a small positive integer is worth the rounded quotient of the value. -/
theorem exists_divBy {divisor : ℕ} (worth : number.quanta? = some value)
    (within : Within bound value) (small : bound ≤ 2 ^ 53) (positive : 0 < divisor)
    (divisorSmall : divisor ≤ 2 ^ 53) :
    ∃ quotient, number.divBy divisor = .ok quotient ∧
      quotient.quanta? = some (roundedValue value divisor) := by
  cases number with
  | int whole =>
      simp only [quanta?, Option.some.injEq] at worth
      subst worth
      exact exists_divBy_int ((Nat.div_le_self _ _).trans_lt (within.natAbs_lt_safeBound small))
  | float float =>
      have divisor_le : |(divisor : ℤ)| ≤ 2 ^ 53 := by
        rw [Nat.abs_cast]
        exact_mod_cast divisorSmall
      have divisorWorth := Binary64.quanta?_ofInt divisor_le
      rw [← Nat.cast_mul] at divisorWorth
      have safe : (value * quantaInOne).natAbs / (divisor * quantaInOne) < safeBound := by
        rw [Int.natAbs_mul, Int.natAbs_natCast, Nat.mul_div_mul_right _ _ quantaInOne_pos]
        exact (Nat.div_le_self _ _).trans_lt (within.natAbs_lt_safeBound small)
      have quotientWorth := Binary64.quanta?_div worth divisorWorth
        (Nat.mul_pos positive quantaInOne_pos) safe
      rw [roundedValue_mul_right _ _ quantaInOne_pos] at quotientWorth
      refine ⟨_, ?_, quotientWorth⟩
      rw [divBy, floatOfInt_of_quanta? divisorWorth]
      rfl

/-- Half a unit more than a whole number of units is less than one more unit. -/
theorem fdiv_whole_add_half (whole : ℤ) :
    (whole * quantaInOne + (quantaInOne / 2 : ℕ)).fdiv quantaInOne = whole := by
  have half_lt : quantaInOne / 2 < quantaInOne := Nat.div_lt_self quantaInOne_pos (by decide)
  rw [Int.fdiv_eq_ediv_of_nonneg _ natCast_quantaInOne_pos.le, add_comm,
    Int.add_mul_ediv_right _ _ natCast_quantaInOne_pos.ne',
    Int.ediv_eq_zero_of_lt (Int.natCast_nonneg _) (by exact_mod_cast half_lt), zero_add]

theorem floor_eq {float : Binary64} (worth : float.quanta? = some value) :
    floor float = .ok (value.fdiv quantaInOne) := by
  rcases Binary64.exists_finite_of_quanta? worth with ⟨negative, magnitude, rfl, rfl⟩
  rw [floor]

/-- The integer that a value is rounded to, a half going up. -/
def halfUp (value : ℤ) : ℤ :=
  (roundedValue (value + (quantaInOne / 2 : ℕ)) 1).fdiv quantaInOne

theorem roundHalfUp_eq (worth : number.quanta? = some value) (within : Within bound value)
    (small : bound + 1 ≤ 2 ^ 53) : roundHalfUp number = .ok (halfUp value) := by
  obtain ⟨float, taken, floatWorth⟩ := exists_toFloat worth within (by omega)
  rw [roundHalfUp, taken]
  exact floor_eq (Binary64.quanta?_add floatWorth Binary64.quanta?_half
    ((within.add within_half).natAbs_lt_safeBound small))

theorem halfUp_mono {larger : ℤ} (le : value ≤ larger) : halfUp value ≤ halfUp larger := by
  rw [halfUp, halfUp, Int.fdiv_eq_ediv_of_nonneg _ natCast_quantaInOne_pos.le,
    Int.fdiv_eq_ediv_of_nonneg _ natCast_quantaInOne_pos.le]
  exact Int.ediv_le_ediv natCast_quantaInOne_pos (roundedValue_mono (by omega) 1)

/-- With half a unit more, a number of whole units is an odd number of halves. -/
theorem whole_add_half_eq (whole : ℤ) :
    whole * quantaInOne + (quantaInOne / 2 : ℕ) = (2 * whole + 1) * 2 ^ (quantaExponent - 1) := by
  have half_eq : quantaInOne / 2 = 2 ^ (quantaExponent - 1) := by
    rw [quantaInOne_eq_mul_two, Nat.mul_div_cancel _ (by decide)]
  rw [half_eq, quantaInOne_eq_mul_two]
  push_cast
  ring

/-- A value that counts whole units is rounded to that count. -/
theorem halfUp_int {whole : ℤ} (small : |2 * whole + 1| ≤ 2 ^ 53) :
    halfUp (whole * quantaInOne) = whole := by
  rw [halfUp, whole_add_half_eq, roundedValue_eq_self small, ← whole_add_half_eq,
    fdiv_whole_add_half]

/-- The sum of values from left to right, rounded after each step. -/
def roundedSum (values : List ℤ) : ℤ :=
  values.foldl (fun total value => roundedValue (total + value) 1) 0

/-- The sum of numbers is worth the rounded sum of their values. -/
theorem exists_sum {numbers : List Number} {values : List ℤ}
    (worth : List.Forall₂ (fun number value => number.quanta? = some value) numbers values)
    (within : ∀ value ∈ values, Within bound value) (small : values.length * bound ≤ 2 ^ 53) :
    ∃ total, sum numbers = .ok total ∧ total.quanta? = some (roundedSum values) ∧
      Within (values.length * bound) (roundedSum values) := by
  -- The induction is on the numbers that are left; the bound of the running total grows with each.
  suffices running : ∀ (start : Number) (startValue : ℤ) (startBound : ℕ),
      start.quanta? = some startValue → Within startBound startValue →
      startBound + values.length * bound ≤ 2 ^ 53 →
      ∃ total, numbers.foldlM add start = .ok total ∧
        total.quanta? = some
          (values.foldl (fun total value => roundedValue (total + value) 1) startValue) ∧
        Within (startBound + values.length * bound)
          (values.foldl (fun total value => roundedValue (total + value) 1) startValue) by
    have ran := running (.int 0) 0 0 (by simp [quanta?]) (by simp [Within]) (by omega)
    simpa only [sum, roundedSum, Nat.zero_add] using ran
  clear small
  induction worth with
  | nil =>
      intro start startValue startBound startWorth startWithin startSmall
      exact ⟨start, rfl, startWorth, by simpa using startWithin⟩
  | @cons number value numbers values numberWorth worth tailSums =>
      intro start startValue startBound startWorth startWithin startSmall
      simp only [List.length_cons, Nat.add_mul, Nat.one_mul] at startSmall ⊢
      have valueWithin := within value List.mem_cons_self
      obtain ⟨next, added, nextWorth⟩ :=
        exists_add startWorth numberWorth startWithin valueWithin (by omega)
      have nextWithin := Within.rounded
        (by rw [Nat.mul_one]; exact startWithin.add valueWithin) Nat.one_pos (by omega)
      obtain ⟨total, summed, totalWorth, totalWithin⟩ :=
        tailSums (fun other mem => within other (List.mem_cons_of_mem _ mem)) next _ _ nextWorth
          nextWithin (by omega)
      refine ⟨total, ?_, totalWorth, totalWithin.mono (by omega)⟩
      rw [List.foldlM_cons, added]
      exact summed

theorem roundedSum_mono {values larger : List ℤ} (le : List.Forall₂ (· ≤ ·) values larger) :
    roundedSum values ≤ roundedSum larger := by
  suffices running : ∀ start largerStart : ℤ, start ≤ largerStart →
      values.foldl (fun total value => roundedValue (total + value) 1) start ≤
        larger.foldl (fun total value => roundedValue (total + value) 1) largerStart from
    running 0 0 le_rfl
  induction le with
  | nil => exact fun _ _ start_le => start_le
  | cons value_le _ tail_le =>
      intro start largerStart start_le
      exact tail_le _ _ (roundedValue_mono (add_le_add start_le value_le) 1)

end Number

end Scorecard
