/-!
# Binary64 numbers

A binary64 number is a finite number, an infinity or not a number. A finite number is a sign and a
magnitude, and a magnitude is a significand below `2 ^ 53` shifted left: it counts quanta of
`2 ^ -1074`, the least positive number of the format. Every finite magnitude is a whole number of
quanta, so arithmetic is exact arithmetic on natural numbers followed by one rounding to the nearest
number of the format, a tie going to the even significand.

`Binary64.ofQuotient` is that one rounding. The lemmas before it show that what it packs is always
in range: the rounded significand never exceeds `2 ^ 53`, and a shifted significand has its top bit
set.
-/

namespace Scorecard

-- Powers are those of the core library, whatever other instances are in scope.
attribute [local instance (high)] instPowNat

/-- The quotient of two natural numbers rounded to the nearest integer, a tie to the even one. -/
def roundHalfEven (numerator denominator : Nat) : Nat :=
  let quotient := numerator / denominator
  let remainder := numerator % denominator
  if denominator < 2 * remainder ∨ (denominator = 2 * remainder ∧ quotient % 2 = 1) then
    quotient + 1
  else
    quotient

theorem div_le_roundHalfEven (numerator denominator : Nat) :
    numerator / denominator ≤ roundHalfEven numerator denominator := by
  simp only [roundHalfEven]
  split <;> omega

theorem roundHalfEven_le (numerator denominator : Nat) :
    roundHalfEven numerator denominator ≤ numerator / denominator + 1 := by
  simp only [roundHalfEven]
  split <;> omega

/-- The exponent of the format: the least positive number is `2 ^ -quantaExponent`. -/
def quantaExponent : Nat := 1074

/-- The count of quanta in one. -/
def quantaInOne : Nat := 2 ^ quantaExponent

theorem quantaExponent_eq : quantaExponent = 1074 :=
  rfl

theorem quantaInOne_eq : quantaInOne = 2 ^ quantaExponent :=
  rfl

theorem quantaInOne_pos : 0 < quantaInOne :=
  Nat.two_pow_pos quantaExponent

attribute [irreducible] quantaExponent quantaInOne

/-- The magnitude of a finite number: `significand * 2 ^ shift` quanta. Each magnitude has one form,
because a shifted significand has its top bit set. -/
structure Magnitude where
  /-- The leading bits of the number. -/
  significand : Nat
  /-- How many places the significand is shifted left. -/
  shift : Nat
  significand_lt : significand < 2 ^ (53 : Nat)
  shift_le : shift ≤ 2045
  normal : shift = 0 ∨ 2 ^ (52 : Nat) ≤ significand
deriving DecidableEq

/-- A number of the binary64 format. Both zeros are finite and differ in sign only. -/
inductive Binary64 where
  | finite (negative : Bool) (magnitude : Magnitude)
  | infinite (negative : Bool)
  | nan
deriving DecidableEq

namespace Magnitude

/-- The magnitude as a count of quanta. -/
def quanta (magnitude : Magnitude) : Nat :=
  magnitude.significand * 2 ^ magnitude.shift

/-- The exact value of the magnitude under a sign, in quanta. -/
def signed (magnitude : Magnitude) (negative : Bool) : Int :=
  if negative then -(magnitude.quanta : Int) else magnitude.quanta

/-- The magnitude of zero. -/
def zero : Magnitude where
  significand := 0
  shift := 0
  significand_lt := by decide
  shift_le := by decide
  normal := .inl rfl

/-- The distance to the next larger magnitude. -/
def gapAbove (magnitude : Magnitude) : Nat :=
  2 ^ magnitude.shift

/-- Twice the distance to the next smaller magnitude: at a power of two the numbers below stand
twice as close. -/
def twiceGapBelow (magnitude : Magnitude) : Nat :=
  if magnitude.significand = 2 ^ (52 : Nat) ∧ 0 < magnitude.shift then 2 ^ magnitude.shift
  else 2 * 2 ^ magnitude.shift

end Magnitude

/-- How far a count of quanta is shifted right so that 53 bits remain. -/
def shiftFor (quanta : Nat) : Nat :=
  quanta.log2 - 52

theorem div_two_pow_shiftFor_lt (quanta : Nat) : quanta / 2 ^ shiftFor quanta < 2 ^ (53 : Nat) := by
  apply (Nat.div_lt_iff_lt_mul (Nat.two_pow_pos _)).mpr
  rw [← Nat.pow_add]
  have below : quanta < 2 ^ (quanta.log2 + 1) := Nat.lt_log2_self
  have enough : 2 ^ (quanta.log2 + 1) ≤ 2 ^ (53 + shiftFor quanta) :=
    Nat.pow_le_pow_right (by decide) (by simp only [shiftFor]; omega)
  omega

theorem two_pow_le_div_shiftFor {quanta : Nat} (shifted : shiftFor quanta ≠ 0) :
    2 ^ (52 : Nat) ≤ quanta / 2 ^ shiftFor quanta := by
  apply (Nat.le_div_iff_mul_le (Nat.two_pow_pos _)).mpr
  rw [← Nat.pow_add]
  have exponent : 52 + shiftFor quanta = quanta.log2 := by
    simp only [shiftFor] at shifted ⊢
    omega
  rw [exponent]
  apply Nat.log2_self_le
  rintro rfl
  exact shifted (by decide)

namespace Binary64

/-- The positive or negative zero. -/
def zero (negative : Bool) : Binary64 :=
  .finite negative .zero

/-- The number nearest to `numerator / denominator` quanta, a tie going to the even significand.
Beyond the largest finite number the result is infinite. -/
def ofQuotient (negative : Bool) (numerator denominator : Nat) : Binary64 :=
  let quanta := numerator / denominator
  let significand := roundHalfEven numerator (denominator * 2 ^ shiftFor quanta)
  have floor : numerator / (denominator * 2 ^ shiftFor quanta) = quanta / 2 ^ shiftFor quanta :=
    (Nat.div_div_eq_div_mul ..).symm
  if carry : significand = 2 ^ (53 : Nat) then
    if inRange : shiftFor quanta + 1 ≤ 2045 then
      .finite negative ⟨2 ^ (52 : Nat), shiftFor quanta + 1, by decide, inRange,
        .inr (Nat.le_refl _)⟩
    else
      .infinite negative
  else
    if inRange : shiftFor quanta ≤ 2045 then
      .finite negative ⟨significand, shiftFor quanta,
        by
          have floor_lt := div_two_pow_shiftFor_lt quanta
          have rounded := roundHalfEven_le numerator (denominator * 2 ^ shiftFor quanta)
          rw [floor] at rounded
          omega,
        inRange,
        by
          by_cases shifted : shiftFor quanta = 0
          · exact .inl shifted
          · have floor_ge := two_pow_le_div_shiftFor shifted
            have rounded := div_le_roundHalfEven numerator (denominator * 2 ^ shiftFor quanta)
            rw [floor] at rounded
            exact .inr (Nat.le_trans floor_ge rounded)⟩
    else
      .infinite negative

/-- The number nearest to a whole count of quanta, signed; an exact zero is positive. -/
def ofQuanta (quanta : Int) : Binary64 :=
  ofQuotient (quanta < 0) quanta.natAbs 1

/-- The number nearest to an integer; infinite if the integer is out of range. -/
def ofInt (value : Int) : Binary64 :=
  ofQuanta (value * quantaInOne)

/-- One half. -/
def half : Binary64 :=
  ofQuotient false quantaInOne 2

/-- The exact value of a finite number, in quanta. -/
def quanta? : Binary64 → Option Int
  | .finite negative magnitude => some (magnitude.signed negative)
  | .infinite _ => none
  | .nan => none

/-- Whether the number is neither infinite nor not a number. -/
def isFinite : Binary64 → Bool
  | .finite .. => true
  | .infinite _ => false
  | .nan => false

/-- Whether the number equals zero. -/
def isZero : Binary64 → Bool
  | .finite _ magnitude => magnitude.significand == 0
  | .infinite _ => false
  | .nan => false

/-- The number with its sign turned. -/
def neg : Binary64 → Binary64
  | .finite negative magnitude => .finite (!negative) magnitude
  | .infinite negative => .infinite (!negative)
  | .nan => .nan

/-- The rounded sum. A sum of zeros is negative only if both are. -/
def add : Binary64 → Binary64 → Binary64
  | .nan, _ => .nan
  | _, .nan => .nan
  | .infinite left, .infinite right => if left = right then .infinite left else .nan
  | .infinite left, .finite .. => .infinite left
  | .finite .., .infinite right => .infinite right
  | .finite leftNegative left, .finite rightNegative right =>
      if left.significand = 0 ∧ right.significand = 0 then
        zero (leftNegative && rightNegative)
      else
        ofQuanta (left.signed leftNegative + right.signed rightNegative)

/-- The rounded difference. -/
def sub (left right : Binary64) : Binary64 :=
  left.add right.neg

/-- The rounded product. -/
def mul : Binary64 → Binary64 → Binary64
  | .nan, _ => .nan
  | _, .nan => .nan
  | .infinite left, .infinite right => .infinite (left != right)
  | .infinite left, .finite right magnitude =>
      if magnitude.significand = 0 then .nan else .infinite (left != right)
  | .finite left magnitude, .infinite right =>
      if magnitude.significand = 0 then .nan else .infinite (left != right)
  | .finite left leftMagnitude, .finite right rightMagnitude =>
      ofQuotient (left != right) (leftMagnitude.quanta * rightMagnitude.quanta) quantaInOne

/-- The rounded quotient; a division by zero gives an infinity, and zero by zero is not a number. -/
def div : Binary64 → Binary64 → Binary64
  | .nan, _ => .nan
  | _, .nan => .nan
  | .infinite _, .infinite _ => .nan
  | .infinite left, .finite right _ => .infinite (left != right)
  | .finite left _, .infinite right => zero (left != right)
  | .finite left leftMagnitude, .finite right rightMagnitude =>
      if rightMagnitude.significand = 0 then
        if leftMagnitude.significand = 0 then .nan else .infinite (left != right)
      else
        ofQuotient (left != right) (leftMagnitude.quanta * quantaInOne) rightMagnitude.quanta

/-- The order of the numbers; nothing is below or above what is not a number. -/
def lessThan : Binary64 → Binary64 → Bool
  | .nan, _ => false
  | _, .nan => false
  | .infinite left, .infinite right => left && !right
  | .infinite left, .finite .. => left
  | .finite .., .infinite right => !right
  | .finite leftNegative left, .finite rightNegative right =>
      left.signed leftNegative < right.signed rightNegative

/-- Equality of values: the zeros are equal, and what is not a number differs from itself. -/
def equals : Binary64 → Binary64 → Bool
  | .nan, _ => false
  | _, .nan => false
  | .infinite left, .infinite right => left == right
  | .infinite _, .finite .. => false
  | .finite .., .infinite _ => false
  | .finite leftNegative left, .finite rightNegative right =>
      if left.significand = 0 then right.significand = 0
      else leftNegative = rightNegative ∧ left = right

/-- The order against an integer, decided exactly. -/
def lessThanInt (left : Binary64) (right : Int) : Bool :=
  match left with
  | .nan => false
  | .infinite negative => negative
  | .finite negative magnitude =>
      magnitude.signed negative < right * quantaInOne

/-- The order of an integer against a number, decided exactly. -/
def intLessThan (left : Int) (right : Binary64) : Bool :=
  match right with
  | .nan => false
  | .infinite negative => !negative
  | .finite negative magnitude =>
      left * quantaInOne < magnitude.signed negative

/-- Equality with an integer, decided exactly. -/
def equalsInt (left : Binary64) (right : Int) : Bool :=
  left.quanta? == some (right * quantaInOne)

end Binary64

end Scorecard
