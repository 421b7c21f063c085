import Scorecard.Number.Basic
import Scorecard.Proofs.Number.Range
import Scorecard.Proofs.Number.Value
import Scorecard.Proofs.Yields

/-!
# Finite sums and means

A sum of floats is finite unless it leaves the range on the way, and what is not finite stays so. A
mean is finite if the sum is, and rounding it to an integer asks for nothing more, so the sum alone
decides whether there is a rounded mean. Numbers below a high bound have a finite sum however many
there are: where the sum gets near the end of the range, what is added to it is lost in rounding.
-/

namespace Scorecard

theorem roundedQuotient_anti (numerator : ℕ) {denominator larger : ℕ} (positive : 0 < denominator)
    (le : denominator ≤ larger) :
    roundedQuotient numerator larger ≤ roundedQuotient numerator denominator := by
  calc roundedQuotient numerator larger
      = roundedQuotient (numerator * denominator) (larger * denominator) :=
        (roundedQuotient_mul_right _ _ positive).symm
    _ ≤ roundedQuotient (numerator * larger) (larger * denominator) :=
        roundedQuotient_mono (Nat.mul_le_mul_left _ le) _
    _ = roundedQuotient numerator denominator := by
        rw [Nat.mul_comm larger denominator, roundedQuotient_mul_right _ _ (positive.trans_le le)]

namespace Binary64

/-- How far the largest magnitudes are shifted. -/
def lastShift : ℕ := 2045

/-- Next to the largest magnitude there is room for a half. -/
theorem quanta_add_lt (magnitude : Magnitude) :
    magnitude.quanta + quantaInOne / 2 < beyond * quantaInOne := by
  have largest : (2 ^ 53 - 1) * 2 ^ lastShift + quantaInOne / 2 < beyond * quantaInOne := by
    decide +kernel
  have significand_le : magnitude.significand ≤ 2 ^ 53 - 1 :=
    Nat.le_sub_one_of_lt magnitude.significand_lt
  have shift_le : magnitude.shift ≤ lastShift := magnitude.shift_le
  have quanta_le : magnitude.quanta ≤ (2 ^ 53 - 1) * 2 ^ lastShift :=
    Nat.mul_le_mul significand_le (Nat.pow_le_pow_right Nat.two_pos shift_le)
  omega

theorem isFinite_ofQuanta_iff (value : ℤ) :
    (ofQuanta value).isFinite = true ↔ value.natAbs < beyond * quantaInOne := by
  rw [ofQuanta, isFinite_ofQuotient_iff]
  constructor
  · intro finite
    by_contra large
    have rounded := roundedQuotient_mono (Nat.le_of_not_lt large) 1
    rw [roundedQuotient_beyond] at rounded
    exact absurd finite (Nat.not_lt.mpr rounded)
  · intro small
    exact (roundedQuotient_mono (Nat.le_sub_one_of_lt small) 1).trans_lt roundedQuotient_below

theorem isFinite_add_iff {left right : Binary64} {leftValue rightValue : ℤ}
    (leftWorth : left.quanta? = some leftValue) (rightWorth : right.quanta? = some rightValue) :
    (left.add right).isFinite = true ↔ (leftValue + rightValue).natAbs < beyond * quantaInOne := by
  rw [isFinite_iff_quanta?, quanta?_add_eq leftWorth rightWorth, ← isFinite_iff_quanta?,
    isFinite_ofQuanta_iff]

/-- A sum is finite only if what is added is. -/
theorem isFinite_of_add {left right : Binary64} (finite : (left.add right).isFinite = true) :
    left.isFinite = true ∧ right.isFinite = true := by
  cases left with
  | nan => cases finite
  | infinite leftNegative =>
      cases right with
      | nan => cases finite
      | finite rightNegative rightMagnitude => cases finite
      | infinite rightNegative =>
          simp only [add] at finite
          split at finite <;> cases finite
  | finite leftNegative leftMagnitude =>
      cases right with
      | nan => cases finite
      | infinite rightNegative => cases finite
      | finite rightNegative rightMagnitude => exact ⟨rfl, rfl⟩

/-- Adding a half is finite exactly for finite numbers. -/
theorem isFinite_add_half {number : Binary64} (finite : number.isFinite = true) :
    (number.add half).isFinite = true := by
  cases number with
  | nan => cases finite
  | infinite negative => cases finite
  | finite negative magnitude =>
      rw [isFinite_add_iff rfl quanta?_half]
      have room := quanta_add_lt magnitude
      have signed := magnitude.signed_natAbs negative
      omega

theorem exists_of_isFinite_ofQuotient {negative : Bool} {numerator denominator : ℕ}
    (finite : (ofQuotient negative numerator denominator).isFinite = true) :
    ∃ magnitude, ofQuotient negative numerator denominator = .finite negative magnitude ∧
      magnitude.quanta = roundedQuotient numerator denominator := by
  simp only [ofQuotient] at finite ⊢
  split
  · next carry =>
      rw [dif_pos carry] at finite
      split
      · refine ⟨_, rfl, ?_⟩
        simp only [Magnitude.quanta, roundedQuotient, carry]
        ring
      · next out =>
          rw [dif_neg out] at finite
          cases finite
  · next noCarry =>
      rw [dif_neg noCarry] at finite
      split
      · exact ⟨_, rfl, rfl⟩
      · next out =>
          rw [dif_neg out] at finite
          cases finite

theorem quanta?_ofQuanta_of_isFinite {value : ℤ} (finite : (ofQuanta value).isFinite = true) :
    (ofQuanta value).quanta? = some (roundedValue value 1) := by
  rcases exists_of_isFinite_ofQuotient finite with ⟨magnitude, rounded, worth⟩
  rw [ofQuanta, rounded, quanta?, Magnitude.signed_eq_roundedValue (fun _ => rfl) worth]

theorem quanta?_add_of_isFinite {left right : Binary64} {leftValue rightValue : ℤ}
    (leftWorth : left.quanta? = some leftValue) (rightWorth : right.quanta? = some rightValue)
    (finite : (left.add right).isFinite = true) :
    (left.add right).quanta? = some (roundedValue (leftValue + rightValue) 1) := by
  have same := quanta?_add_eq leftWorth rightWorth
  rw [isFinite_iff_quanta?, same, ← isFinite_iff_quanta?] at finite
  rw [same, quanta?_ofQuanta_of_isFinite finite]

/-- The sum of floats from left to right. -/
def total (floats : List Binary64) : Binary64 :=
  floats.foldl add (zero false)

/-- A sum is finite only if every float in it is. -/
theorem isFinite_of_total {floats : List Binary64} (finite : (total floats).isFinite = true) :
    ∀ float ∈ floats, float.isFinite = true := by
  suffices running : ∀ start : Binary64, (floats.foldl add start).isFinite = true →
      start.isFinite = true ∧ ∀ float ∈ floats, float.isFinite = true from
    (running _ finite).2
  clear finite
  induction floats with
  | nil => exact fun start finite => ⟨finite, by simp⟩
  | cons float floats ih =>
      intro start finite
      rcases ih _ finite with ⟨sumFinite, rest⟩
      rcases isFinite_of_add sumFinite with ⟨startFinite, floatFinite⟩
      exact ⟨startFinite, List.forall_mem_cons.mpr ⟨floatFinite, rest⟩⟩

/-- Two to this power bounds floats that have a finite sum, however many there are. -/
def summableExponent : ℕ := 960

/-- Up to this bound any number of floats has a finite sum. -/
def summableBound : ℕ := 2 ^ summableExponent

/-- Rounding keeps a bound that is rounded to another one within that one. -/
theorem within_roundedValue {bound result : ℕ} {value : ℤ}
    (rounds : roundedQuotient (bound * quantaInOne) 1 = result * quantaInOne)
    (within : Within bound value) : Within result (roundedValue value 1) := by
  have largest : roundedValue (bound * quantaInOne : ℤ) 1 = result * quantaInOne := by
    have natCast := roundedValue_natCast (bound * quantaInOne) 1
    rw [rounds] at natCast
    exact_mod_cast natCast
  rw [Within, abs_le] at within ⊢
  have upper := roundedValue_mono within.2 1
  have lower := roundedValue_mono within.1 1
  rw [roundedValue_neg, largest] at lower
  rw [largest] at upper
  exact ⟨lower, upper⟩

/-- What the bound is chosen for: it is a float and far from the end of the range, and what is added
to the largest sum is lost in rounding. -/
theorem summableBound_spec :
    roundedQuotient (summableBound * quantaInOne) 1 = summableBound * quantaInOne ∧
      roundedQuotient ((2 ^ 53 * summableBound + summableBound) * quantaInOne) 1 =
        2 ^ 53 * summableBound * quantaInOne ∧
      (2 ^ 53 * summableBound + summableBound) * quantaInOne < safeBound ∧
      2 * summableBound < beyond ∧ 100 ≤ summableBound := by
  decide +kernel

/-- Bounded floats have a finite sum, however many there are. -/
theorem isFinite_total {floats : List Binary64}
    (bounded : ∀ float ∈ floats, ∃ value, float.quanta? = some value ∧ Within summableBound value) :
    (total floats).isFinite = true := by
  suffices running : ∀ (start : Binary64) (startValue : ℤ), start.quanta? = some startValue →
      Within (2 ^ 53 * summableBound) startValue →
      ∃ value, (floats.foldl add start).quanta? = some value by
    -- The bound of the running total does not grow: at the bound, what is added is rounded off.
    apply (isFinite_iff_quanta? _).mpr (running (zero false) 0 rfl _)
    rw [Within, abs_zero]
    positivity
  induction floats with
  | nil => exact fun start startValue worth _ => ⟨startValue, worth⟩
  | cons float floats ih =>
      intro start startValue startWorth startWithin
      rw [List.forall_mem_cons] at bounded
      rcases bounded.1 with ⟨value, worth, within⟩
      rcases summableBound_spec with ⟨_, rounds, room, _⟩
      have sumWithin :
          (startValue + value).natAbs ≤ (2 ^ 53 * summableBound + summableBound) * quantaInOne := by
        have both := startWithin.add within
        rw [Within, Int.abs_eq_natAbs] at both
        exact_mod_cast both
      have safe : (startValue + value).natAbs < safeBound := lt_of_le_of_lt sumWithin room
      exact ih bounded.2 _ _ (quanta?_add startWorth worth safe)
        (within_roundedValue rounds (startWithin.add within))

/-- A positive count in the range of floats is a float of at least one. -/
theorem exists_ofInt {count : ℕ} (positive : 0 < count) (few : count < beyond) :
    ∃ magnitude, ofInt count = .finite false magnitude ∧ quantaInOne ≤ magnitude.quanta := by
  have finite : (ofInt count).isFinite = true := (isFinite_ofInt_iff count).mpr few
  have sign : decide ((count : ℤ) * quantaInOne < 0) = false := by
    rw [decide_eq_false_iff_not, not_lt]
    exact mul_nonneg (Int.natCast_nonneg _) (Int.natCast_nonneg _)
  rw [ofInt, ofQuanta, sign] at finite ⊢
  rcases exists_of_isFinite_ofQuotient finite with ⟨magnitude, rounded, worth⟩
  refine ⟨magnitude, rounded, ?_⟩
  have one : roundedQuotient quantaInOne 1 = quantaInOne := by decide +kernel
  rw [worth, ← one]
  apply roundedQuotient_mono
  rw [one, Int.natAbs_mul, Int.natAbs_natCast, Int.natAbs_natCast]
  exact Nat.le_mul_of_pos_left _ positive

/-- Dividing by a positive count keeps a number finite. -/
theorem isFinite_div {number : Binary64} (finite : number.isFinite = true) {count : ℕ}
    (positive : 0 < count) (few : count < beyond) : (number.div (ofInt count)).isFinite = true := by
  rcases exists_ofInt positive few with ⟨divisor, divisor_eq, one_le⟩
  cases number with
  | nan => cases finite
  | infinite negative => cases finite
  | finite negative magnitude =>
      have nonzero : divisor.significand ≠ 0 := by
        rw [Ne, ← Magnitude.quanta_eq_zero_iff]
        exact (quantaInOne_pos.trans_le one_le).ne'
      rw [divisor_eq, div, if_neg nonzero, isFinite_ofQuotient_iff]
      have small : magnitude.quanta ≤ beyond * quantaInOne - 1 := by
        have room := quanta_add_lt magnitude
        omega
      have scaled := roundedQuotient_mul_right magnitude.quanta 1 quantaInOne_pos
      rw [Nat.one_mul] at scaled
      calc roundedQuotient (magnitude.quanta * quantaInOne) divisor.quanta
          ≤ roundedQuotient (magnitude.quanta * quantaInOne) quantaInOne :=
            roundedQuotient_anti _ quantaInOne_pos one_le
        _ = roundedQuotient magnitude.quanta 1 := scaled
        _ ≤ roundedQuotient (beyond * quantaInOne - 1) 1 := roundedQuotient_mono small 1
        _ < 2 ^ 2098 := roundedQuotient_below

end Binary64

namespace Number

/-- The faults of taking a float as an integer. -/
def wholeFaults : Binary64 → List Fault
  | .nan => [.nanToInteger]
  | .infinite _ => [.infinityToInteger]
  | .finite .. => []

theorem wholeFaults_eq_nil_iff {value : Binary64} :
    wholeFaults value = [] ↔ value.isFinite = true := by
  cases value <;> simp [wholeFaults, Binary64.isFinite]

theorem mem_wholeFaults {value : Binary64} {fault : Fault} (mem : fault ∈ wholeFaults value) :
    fault = .nanToInteger ∨ fault = .infinityToInteger := by
  cases value <;> simp_all [wholeFaults]

theorem wholeFaults_of_isFinite {value : Binary64} (finite : value.isFinite = true) :
    wholeFaults value = [] :=
  wholeFaults_eq_nil_iff.mpr finite

theorem exists_floor_yields (value : Binary64) :
    ∃ whole, Yields (floor value) whole (wholeFaults value) := by
  cases value with
  | nan => exact ⟨0, rfl⟩
  | infinite negative => exact ⟨0, rfl⟩
  | finite negative magnitude => exact ⟨_, rfl⟩

theorem wholeFaults_add_half (value : Binary64) :
    wholeFaults (value.add .half) = wholeFaults value := by
  cases value with
  | nan => rfl
  | infinite negative =>
      rcases Binary64.exists_finite_of_quanta? Binary64.quanta?_half with
        ⟨halfNegative, halfMagnitude, half_eq, _⟩
      rw [half_eq]
      rfl
  | finite negative magnitude => exact wholeFaults_of_isFinite (Binary64.isFinite_add_half rfl)

/-- A float is rounded to an integer unless it is not finite. -/
theorem exists_roundHalfUp_yields (value : Binary64) :
    ∃ whole, Yields (roundHalfUp (.float value)) whole (wholeFaults value) := by
  rw [← wholeFaults_add_half value]
  exact exists_floor_yields _

theorem wholeFaults_div (value : Binary64) {count : ℕ} (positive : 0 < count)
    (few : count < Binary64.beyond) :
    wholeFaults (value.div (.ofInt count)) = wholeFaults value := by
  cases value with
  | nan => rfl
  | infinite negative =>
      rcases Binary64.exists_ofInt positive few with ⟨divisor, divisor_eq, _⟩
      rw [divisor_eq]
      rfl
  | finite negative magnitude =>
      exact wholeFaults_of_isFinite (Binary64.isFinite_div rfl positive few)

theorem sum_floats {floats : List Binary64} (nonempty : floats ≠ []) :
    sum (floats.map .float) = .ok (.float (Binary64.total floats)) := by
  have running : ∀ (rest : List Binary64) (start : Binary64),
      (rest.map float).foldlM add (.float start) =
        .ok (.float (rest.foldl Binary64.add start)) := by
    intro rest
    induction rest with
    | nil => exact fun start => rfl
    | cons first rest ih => exact fun start => ih (start.add first)
  have zero_eq : floatOfInt 0 = .ok (.zero false) := by decide +kernel
  cases floats with
  | nil => contradiction
  | cons first rest =>
      have started :
          add (.int 0) (.float first) = .ok (.float ((Binary64.zero false).add first)) := by
        change onFloats .add (.int 0) (.float first) = _
        rw [onFloats, toFloat, zero_eq]
        rfl
      rw [sum, List.map_cons, List.foldlM_cons, started]
      exact running rest _

theorem mean_of_ne_nil {numbers : List Number} (nonempty : numbers ≠ []) :
    mean numbers = (sum numbers).bind fun total => total.divBy numbers.length := by
  cases numbers with
  | nil => contradiction
  | cons first rest => rfl

/-- The mean of floats is there unless there are more of them than a float can count. -/
theorem mean_yields {floats : List Binary64} (nonempty : floats ≠ []) :
    Yields (mean (floats.map .float)) ((Binary64.total floats).div (.ofInt floats.length))
      (if floats.length < Binary64.beyond then [] else [.integerBeyondFloat]) := by
  have present : floats.map Number.float ≠ [] := List.map_eq_nil_iff.not.mpr nonempty
  rw [mean_of_ne_nil present, sum_floats nonempty, List.length_map, Except.bind, divBy,
    floatOfInt_eq, Int.natAbs_natCast]
  split <;> rfl

theorem sum_ints (values : List ℤ) : sum (values.map .int) = .ok (.int values.sum) := by
  suffices running : ∀ start : ℤ,
      (values.map Number.int).foldlM add (.int start) = .ok (.int (start + values.sum)) by
    rw [sum, running, Int.zero_add]
  induction values with
  | nil =>
      intro start
      rw [List.sum_nil, Int.add_zero]
      rfl
  | cons value values ih =>
      intro start
      rw [List.map_cons, List.foldlM_cons, List.sum_cons, ← Int.add_assoc]
      exact ih (start + value)

theorem natAbs_sum_le {values : List ℤ} {bound : ℕ}
    (within : ∀ value ∈ values, value.natAbs ≤ bound) :
    values.sum.natAbs ≤ values.length * bound := by
  induction values with
  | nil => simp
  | cons value values ih =>
      rw [List.forall_mem_cons] at within
      rw [List.sum_cons, List.length_cons, Nat.succ_mul]
      have rest := ih within.2
      have first := within.1
      omega

/-- The mean of integers in the range of floats is no further from zero than the integers are. -/
theorem exists_mean_ints {values : List ℤ} {bound : ℕ} (nonempty : values ≠ [])
    (within : ∀ value ∈ values, value.natAbs ≤ bound) (room : bound < Binary64.beyond) :
    ∃ negative magnitude, mean (values.map .int) = .ok (.finite negative magnitude) ∧
      magnitude.quanta ≤ roundedQuotient (bound * quantaInOne) 1 := by
  have positive : 0 < values.length := List.length_pos_iff.mpr nonempty
  have rounded_le : roundedQuotient (values.sum.natAbs * quantaInOne) values.length ≤
      roundedQuotient (bound * quantaInOne) 1 := by
    calc roundedQuotient (values.sum.natAbs * quantaInOne) values.length
        ≤ roundedQuotient (values.length * bound * quantaInOne) values.length :=
          roundedQuotient_mono (Nat.mul_le_mul_right _ (natAbs_sum_le within)) _
      _ = roundedQuotient (bound * quantaInOne * values.length) (1 * values.length) := by
          rw [Nat.one_mul, Nat.mul_comm values.length, Nat.mul_right_comm]
      _ = roundedQuotient (bound * quantaInOne) 1 := roundedQuotient_mul_right _ _ positive
  have below : bound * quantaInOne ≤ Binary64.beyond * quantaInOne - 1 :=
    Nat.le_sub_one_of_lt (Nat.mul_lt_mul_of_pos_right room quantaInOne_pos)
  have finite : (Binary64.ofQuotient (decide (values.sum < 0)) (values.sum.natAbs * quantaInOne)
      values.length).isFinite = true := by
    rw [Binary64.isFinite_ofQuotient_iff]
    exact rounded_le.trans_lt
      ((roundedQuotient_mono below 1).trans_lt Binary64.roundedQuotient_below)
  rcases Binary64.exists_of_isFinite_ofQuotient finite with ⟨magnitude, quotient, quanta_eq⟩
  refine ⟨decide (values.sum < 0), magnitude, ?_, quanta_eq.trans_le rounded_le⟩
  have present : values.map Number.int ≠ [] := List.map_eq_nil_iff.not.mpr nonempty
  rw [mean_of_ne_nil present, sum_ints, List.length_map, Except.bind, divBy, if_pos finite,
    quotient]

end Number

end Scorecard
