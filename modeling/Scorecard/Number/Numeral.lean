import Scorecard.Number.Decimal
import Scorecard.Fault
import Scorecard.Text.Blank
import Scorecard.Text.DecimalDigit

/-!
# Reading numerals

A numeral may stand between white space, carry a sign, use the digits of any script and set its
digits apart by single underscores. An integer has digits only; a float may have a fraction and an
exponent, or be an infinity or not a number by name.
-/

namespace Scorecard

namespace Numeral

/-- White space around a numeral within ASCII; the information separators are none. -/
def isPadding (c : Char) : Bool :=
  (9 ≤ c.toNat && c.toNat ≤ 13) || c == ' '

/-- A character beyond ASCII as numerals see it: a digit as its ASCII digit, white space as a
space. -/
def plain (c : Char) : Char :=
  if c.toNat < 128 then c
  else if isBlank c then ' '
  else match decimalValue? c with
    | some value => Char.ofNat (48 + value)
    | none => c

/-- The text in ASCII digits and without the white space around it. -/
def core (text : List Char) : List Char :=
  let plainText := (text.map plain).dropWhile isPadding
  (plainText.reverse.dropWhile isPadding).reverse

/-- The sign of a numeral and what follows it. -/
def splitSign : List Char → Bool × List Char
  | '-' :: rest => (true, rest)
  | '+' :: rest => (false, rest)
  | text => (false, text)

/-- The text without its underscores, if each of them stands between two digits. The first argument
tells whether a digit stands before the text. -/
def joinDigits? : Bool → List Char → Option (List Char)
  | _, [] => some []
  | afterDigit, '_' :: rest =>
      if afterDigit && ((rest.head?.map Char.isDigit).getD false) then joinDigits? false rest
      else none
  | _, c :: rest => (joinDigits? c.isDigit rest).map (c :: ·)

/-- The value of ASCII digits. -/
def valueOf (digits : List Char) : Nat :=
  digits.foldl (fun value digit => value * 10 + (digit.toNat - 48)) 0

/-- The integer that a text denotes, unless it denotes none or has too many digits. -/
def toInteger? (text : List Char) : Option Int := do
  let (negative, rest) := splitSign (core text)
  let digits ← joinDigits? false rest
  if digits.isEmpty || !digits.all Char.isDigit || digitLimit < digits.length then
    none
  else
    some (if negative then -(valueOf digits : Int) else valueOf digits)

/-- The exponent of a numeral after its digits: absent, or a mark and a signed whole number. -/
def exponent? : List Char → Option Int
  | [] => some 0
  | mark :: rest =>
      if mark = 'e' ∨ mark = 'E' then
        let (negative, digits) := splitSign rest
        if digits.isEmpty || !digits.all Char.isDigit then none
        else some (if negative then -(valueOf digits : Int) else valueOf digits)
      else
        none

/-- The unsigned decimal numeral that a text is. -/
def decimal? (text : List Char) : Option Decimal := do
  let whole := text.takeWhile Char.isDigit
  let afterWhole := text.dropWhile Char.isDigit
  let (fraction, afterFraction) := match afterWhole with
    | '.' :: rest => (rest.takeWhile Char.isDigit, rest.dropWhile Char.isDigit)
    | _ => ([], afterWhole)
  if whole.isEmpty && fraction.isEmpty then
    none
  else
    let power ← exponent? afterFraction
    some ⟨valueOf (whole ++ fraction), power - fraction.length⟩

/-- The float that a text denotes. -/
def toFloat? (text : List Char) : Option Binary64 := do
  let bare ← joinDigits? false (core text)
  let (negative, rest) := splitSign bare
  let name := rest.map Char.toLower
  if name = ['i', 'n', 'f'] ∨ name = "infinity".toList then
    some (.infinite negative)
  else if name = ['n', 'a', 'n'] then
    some .nan
  else
    (decimal? rest).map (·.toBinary64 negative)

end Numeral

end Scorecard
