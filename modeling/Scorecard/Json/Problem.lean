/-!
# Where a JSON text breaks off

A text that is not JSON is refused at the first character that cannot belong to one. The refusal
names what was expected there and the place, counted from the start of the text and within its line.
-/

namespace Scorecard

namespace Json

/-- What a JSON text lacks or holds too much of. -/
inductive Expectation where
  | value
  | memberName
  | colon
  | comma
  | endOfText
  | closingQuote
  | noControlCharacter
  | knownEscape
  | fourHexDigits
  | noByteOrderMark
deriving DecidableEq

/-- The wording of an unmet expectation. -/
def Expectation.message : Expectation → String
  | .value => "Expecting value"
  | .memberName => "Expecting property name enclosed in double quotes"
  | .colon => "Expecting ':' delimiter"
  | .comma => "Expecting ',' delimiter"
  | .endOfText => "Extra data"
  | .closingQuote => "Unterminated string starting at"
  | .noControlCharacter => "Invalid control character at"
  | .knownEscape => "Invalid \\escape"
  | .fourHexDigits => "Invalid \\uXXXX escape"
  | .noByteOrderMark => "Unexpected UTF-8 BOM (decode using utf-8-sig)"

/-- An unmet expectation and its place: the count of characters before it, its line and its
column. -/
structure Problem where
  expectation : Expectation
  position : Nat
  line : Nat
  column : Nat
deriving DecidableEq

/-- The problem at a position of a text. Lines and columns are counted from one. -/
def Problem.at (expectation : Expectation) (text : List Char) (position : Nat) : Problem where
  expectation := expectation
  position := position
  line := (text.take position).count '\n' + 1
  column := ((text.take position).reverse.takeWhile (· != '\n')).length + 1

/-- The wording of a problem. -/
def Problem.message (problem : Problem) : String :=
  s!"{problem.expectation.message}: line {problem.line} column {problem.column} " ++
    s!"(char {problem.position})"

end Json

end Scorecard
