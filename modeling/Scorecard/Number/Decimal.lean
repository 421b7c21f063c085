import Scorecard.Number.Binary64

/-!
# Decimal numerals of binary64 numbers

A decimal numeral is a coefficient and a power of ten. A numeral is read by rounding its exact value
once. For writing there are two choices of digits: the fewest that read back as the same number,
found by testing the two neighbours of the value on ever finer decimal grids, or a fixed count of
digits rounded half to even.
-/

namespace Scorecard

-- Powers are those of the core library, whatever other instances are in scope.
attribute [local instance (high)] instPowNat

/-- The numeral `coefficient * 10 ^ exponent`. -/
structure Decimal where
  /-- The digits, read as one natural number. -/
  coefficient : Nat
  /-- The power of ten. -/
  exponent : Int
deriving DecidableEq

/-- The decimal digits of a natural number, most significant first. -/
def decimalDigits (value : Nat) : List Char :=
  Nat.toDigits 10 value

namespace Decimal

/-- The power of ten by which a numeral is multiplied. -/
def scaleUp (exponent : Int) : Nat :=
  10 ^ exponent.toNat

/-- The power of ten by which a numeral is divided. -/
def scaleDown (exponent : Int) : Nat :=
  10 ^ (-exponent).toNat

/-- The numeral with the trailing zeros of its coefficient moved into the exponent; the bound counts
the zeros that may go. -/
def trim (decimal : Decimal) : Nat → Decimal
  | 0 => decimal
  | bound + 1 =>
      if decimal.coefficient % 10 = 0 then
        trim ⟨decimal.coefficient / 10, decimal.exponent + 1⟩ bound
      else
        decimal

/-- The number nearest to a numeral. Numerals far outside the range of the format are settled by
their order of magnitude alone, so that a huge exponent costs nothing. -/
def toBinary64 (decimal : Decimal) (negative : Bool) : Binary64 :=
  let magnitude := (decimalDigits decimal.coefficient).length + decimal.exponent
  if decimal.coefficient = 0 then .zero negative
  else if 310 < magnitude then .infinite negative
  else if magnitude < -330 then .zero negative
  else
    .ofQuotient negative (decimal.coefficient * scaleUp decimal.exponent * quantaInOne)
      (scaleDown decimal.exponent)

end Decimal

/-- A power of ten by which every positive magnitude becomes at least one. -/
def digitOffset : Nat := 400

attribute [irreducible] digitOffset

namespace Magnitude

/-- The exponent of the leading decimal digit: the largest `e` with `10 ^ e` not above the value. -/
def leadingExponent (magnitude : Magnitude) : Int :=
  (decimalDigits (magnitude.quanta * 10 ^ digitOffset / quantaInOne)).length -
    (digitOffset + 1 : Nat)

/-- Whether a numeral lies in the interval of values that round to the magnitude; the ends belong to
it if the significand is even. -/
def covers (magnitude : Magnitude) (decimal : Decimal) : Bool :=
  let place := decimal.coefficient * (4 * quantaInOne) * Decimal.scaleUp decimal.exponent
  let scale := Decimal.scaleDown decimal.exponent
  let low := (4 * magnitude.quanta - magnitude.twiceGapBelow) * scale
  let high := (4 * magnitude.quanta + 2 * magnitude.gapAbove) * scale
  if magnitude.significand % 2 = 0 then low ≤ place ∧ place ≤ high else low < place ∧ place < high

/-- The distance of a numeral from the magnitude, in units common to one decimal grid. -/
def distance (magnitude : Magnitude) (decimal : Decimal) : Nat :=
  let place := decimal.coefficient * quantaInOne * Decimal.scaleUp decimal.exponent
  let value := magnitude.quanta * Decimal.scaleDown decimal.exponent
  (place - value) + (value - place)

/-- The nearest numeral with the given power of ten that reads back as the magnitude, if there is
one. Of two equally near the even one is taken. -/
def onGrid? (magnitude : Magnitude) (exponent : Int) : Option Decimal :=
  let floor : Decimal :=
    ⟨magnitude.quanta * Decimal.scaleDown exponent / (quantaInOne * Decimal.scaleUp exponent),
      exponent⟩
  let ceiling : Decimal := ⟨floor.coefficient + 1, exponent⟩
  match magnitude.covers floor, magnitude.covers ceiling with
  | false, false => none
  | true, false => some floor
  | false, true => some ceiling
  | true, true =>
      let below := magnitude.distance floor
      let above := magnitude.distance ceiling
      if below < above ∨ (below = above ∧ floor.coefficient % 2 = 0) then some floor
      else some ceiling

/-- The numeral with the fewest digits that reads back as the magnitude. Seventeen digits always
do. -/
def shortest (magnitude : Magnitude) : Decimal :=
  let leading := magnitude.leadingExponent
  let found := (List.range 17).findSome? fun (more : Nat) => magnitude.onGrid? (leading - more)
  (found.getD ⟨0, 0⟩).trim 17

/-- The numeral with the given positive count of digits that is nearest to the magnitude, a tie
going to the even coefficient. -/
def rounded (magnitude : Magnitude) (count : Nat) : Decimal :=
  let exponent := magnitude.leadingExponent - (count - 1)
  let coefficient := roundHalfEven (magnitude.quanta * Decimal.scaleDown exponent)
    (quantaInOne * Decimal.scaleUp exponent)
  Decimal.trim ⟨coefficient, exponent⟩ (count + 1)

end Magnitude

/-- How a number is written. -/
structure Layout where
  /-- The count of digits, or none for the fewest that read back. -/
  digits : Option Nat
  /-- Leading digits at this power of ten and above are written without an exponent. -/
  positionalFrom : Int
  /-- Leading digits at this power of ten and above are written with an exponent. -/
  positionalBelow : Int
  /-- Whether a whole number ends in a point and a zero. -/
  marksWhole : Bool

namespace Layout

/-- The fewest digits that read back, positional from `10 ^ -4` and below `10 ^ 16`, whole numbers
with a point and a zero. -/
def exact : Layout where
  digits := none
  positionalFrom := -4
  positionalBelow := 16
  marksWhole := true

/-- Six digits, positional from `10 ^ -4` and below `10 ^ 6`, trailing zeros and a bare point
dropped. -/
def general : Layout where
  digits := some 6
  positionalFrom := -4
  positionalBelow := 6
  marksWhole := false

/-- An exponent: a mark, a sign and at least two digits. -/
def exponentText (exponent : Int) : List Char :=
  let digits := decimalDigits exponent.natAbs
  let padded := if digits.length < 2 then '0' :: digits else digits
  'e' :: (if exponent < 0 then '-' else '+') :: padded

/-- The digits of a positive number with `leading` as the power of ten of the first one, laid out
with or without an exponent. -/
def place (layout : Layout) (digits : List Char) (leading : Int) : List Char :=
  if layout.positionalFrom ≤ leading ∧ leading < layout.positionalBelow then
    if leading < 0 then
      '0' :: '.' :: (List.replicate (-leading - 1).toNat '0' ++ digits)
    else
      let whole := leading.toNat + 1
      if digits.length ≤ whole then
        digits ++ List.replicate (whole - digits.length) '0' ++
          (if layout.marksWhole then ['.', '0'] else [])
      else
        digits.take whole ++ '.' :: digits.drop whole
  else
    match digits with
    | [] => []
    | [digit] => digit :: exponentText leading
    | digit :: rest => digit :: '.' :: (rest ++ exponentText leading)

/-- A magnitude in the layout. -/
def magnitudeText (layout : Layout) (magnitude : Magnitude) : List Char :=
  if magnitude.significand = 0 then
    if layout.marksWhole then ['0', '.', '0'] else ['0']
  else
    let decimal := match layout.digits with
      | none => magnitude.shortest
      | some count => magnitude.rounded count
    let digits := decimalDigits decimal.coefficient
    layout.place digits (decimal.exponent + digits.length - 1)

/-- A number in the layout. -/
def render (layout : Layout) : Binary64 → List Char
  | .nan => ['n', 'a', 'n']
  | .infinite negative => (if negative then ['-'] else []) ++ ['i', 'n', 'f']
  | .finite negative magnitude =>
      (if negative then ['-'] else []) ++ layout.magnitudeText magnitude

end Layout

end Scorecard
