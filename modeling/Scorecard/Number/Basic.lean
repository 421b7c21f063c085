import Scorecard.Fault
import Scorecard.Number.Decimal

/-!
# Numbers

A number is an integer of any size or a binary64 float. Integers stay exact among themselves and
become floats where they meet one, which fails if they are out of range. Comparisons are always
exact. Dividing two integers rounds the exact quotient once.
-/

namespace Scorecard

/-- An integer or a float. -/
inductive Number where
  | int (value : Int)
  | float (value : Binary64)
deriving DecidableEq

namespace Number

/-- The nearest float to an integer. -/
def floatOfInt (value : Int) : Except Fault Binary64 :=
  let nearest := Binary64.ofInt value
  if nearest.isFinite then .ok nearest else .error .integerBeyondFloat

/-- The number as a float. -/
def toFloat : Number → Except Fault Binary64
  | .int value => floatOfInt value
  | .float value => .ok value

/-- The float that results from an operation on both numbers as floats. -/
def onFloats (operation : Binary64 → Binary64 → Binary64) (left right : Number) :
    Except Fault Number := do
  let leftFloat ← left.toFloat
  let rightFloat ← right.toFloat
  return .float (operation leftFloat rightFloat)

/-- The sum. -/
def add : Number → Number → Except Fault Number
  | .int left, .int right => .ok (.int (left + right))
  | left, right => onFloats .add left right

/-- The difference. -/
def sub : Number → Number → Except Fault Number
  | .int left, .int right => .ok (.int (left - right))
  | left, right => onFloats .sub left right

/-- The product. -/
def mul : Number → Number → Except Fault Number
  | .int left, .int right => .ok (.int (left * right))
  | left, right => onFloats .mul left right

/-- The quotient by a positive integer, always a float. -/
def divBy : Number → Nat → Except Fault Binary64
  | .int value, divisor =>
      let quotient := Binary64.ofQuotient (value < 0) (value.natAbs * quantaInOne) divisor
      if quotient.isFinite then .ok quotient else .error .quotientBeyondFloat
  | .float value, divisor => do
      return value.div (← floatOfInt divisor)

/-- Whether the first number is below the second. -/
def lessThan : Number → Number → Bool
  | .int left, .int right => left < right
  | .int left, .float right => Binary64.intLessThan left right
  | .float left, .int right => left.lessThanInt right
  | .float left, .float right => left.lessThan right

/-- Whether two numbers have one value. -/
def equals : Number → Number → Bool
  | .int left, .int right => left == right
  | .int left, .float right => right.equalsInt left
  | .float left, .int right => left.equalsInt right
  | .float left, .float right => left.equals right

/-- The sum from left to right, starting from the integer zero. Each addition is rounded by itself,
as in the built-in sum of the interpreter up to version 3.11. From version 3.12 on that sum
compensates for the rounding of floats. The package allows both, but the compensated sum is another
function, and the monotony of scores does not hold with it. -/
def sum (numbers : List Number) : Except Fault Number :=
  numbers.foldlM Number.add (.int 0)

/-- The mean; that of no numbers is zero. -/
def mean (numbers : List Number) : Except Fault Binary64 :=
  match numbers with
  | [] => .ok (.zero false)
  | _ => do (← sum numbers).divBy numbers.length

/-- The largest integer not above a float. -/
def floor (value : Binary64) : Except Fault Int :=
  match value with
  | .nan => .error .nanToInteger
  | .infinite _ => .error .infinityToInteger
  | .finite negative magnitude => .ok (Int.fdiv (magnitude.signed negative) quantaInOne)

/-- The integer part of a float. -/
def truncate (value : Binary64) : Except Fault Int :=
  match value with
  | .nan => .error .nanToInteger
  | .infinite _ => .error .infinityToInteger
  | .finite negative magnitude => .ok (Int.tdiv (magnitude.signed negative) quantaInOne)

/-- The nearest integer, a half going up: half is added as a float, then the floor is taken. -/
def roundHalfUp (value : Number) : Except Fault Int := do
  floor ((← value.toFloat).add .half)

/-- The smaller of two values under a key, the first one unless the second is smaller. -/
def minOn {α : Type} (key : α → Number) (first second : α) : α :=
  if (key second).lessThan (key first) then second else first

/-- The larger of two values under a key, the first one unless the second is larger. -/
def maxOn {α : Type} (key : α → Number) (first second : α) : α :=
  if (key first).lessThan (key second) then second else first

/-- One of three values: the bound that the value passes, or else the value. A bound that equals the
value is preferred to it. -/
def clampOn {α : Type} (key : α → Number) (value low high : α) : α :=
  maxOn key low (minOn key high value)

/-- The number held between two bounds. -/
def clamp (value low high : Number) : Number :=
  clampOn id value low high

end Number

end Scorecard
