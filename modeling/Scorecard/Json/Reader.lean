import Scorecard.Data
import Scorecard.Json.Text
import Scorecard.Text.Lines

/-!
# Reading JSON

A reader of a value takes it from the start of a text and gives what follows. White space is the
space, the tab and the two line controls. Numbers without fraction and exponent are integers of any
size up to the limit on digits, all others are floats; infinities and not a number have names. Of
members with one name the last one counts, in the place of the first.

Every step into a value or past a separator uses at least one character, so twice the length of the
text bounds the depth of the recursion.
-/

namespace Scorecard

namespace Json

/-- Why a text cannot be read: it is refused at a place, or a numeral in it is too long. -/
inductive Failure where
  | refused (refusal : Refusal)
  | numeralTooLong (digits : Nat)

/-- Whether a character is white space between the parts of a value. -/
def isSpace (c : Char) : Bool :=
  c == ' ' || c == '\t' || c == '\n' || c == '\r'

/-- The text from its first character that is not white space. -/
def skipSpace (text : List Char) : List Char :=
  text.dropWhile isSpace

/-- The refusal of a text at its start. -/
def refuse {α : Type} (expectation : Expectation) (text : List Char) : Except Failure α :=
  .error (.refused ⟨expectation, text.length⟩)

/-- Reads a string after its opening quote. -/
def string (rest : List Char) : Except Failure (String × List Char) :=
  match stringRest (rest.length + 1) 0 rest with
  | .ok (text, after) => .ok (String.ofList text, after)
  | .error refusal => .error (.refused refusal)

/-- The fraction of a number: the digits after a point, if there are any. -/
def fraction (text : List Char) : List Char × List Char :=
  match text with
  | '.' :: rest =>
      if ((rest.head?.map Char.isDigit).getD false) then
        (rest.takeWhile Char.isDigit, rest.dropWhile Char.isDigit)
      else
        ([], text)
  | _ => ([], text)

/-- The exponent of a number, if a mark and at least one digit stand there. -/
def exponent? (text : List Char) : Option (Int × List Char) :=
  match text with
  | mark :: rest =>
      if mark = 'e' ∨ mark = 'E' then
        let (negative, digits) := Numeral.splitSign rest
        if ((digits.head?.map Char.isDigit).getD false) then
          let value : Int := Numeral.valueOf (digits.takeWhile Char.isDigit)
          some (if negative then -value else value, digits.dropWhile Char.isDigit)
        else
          none
      else
        none
  | [] => none

/-- The whole part of a number: a zero, or all digits if the first one is another. -/
def wholePart (text : List Char) : List Char :=
  match text with
  | '0' :: _ => ['0']
  | _ => text.takeWhile Char.isDigit

/-- Reads a number after its sign. -/
def unsignedNumber (negative : Bool) (start text : List Char) : Except Failure (Data × List Char) :=
  let whole := wholePart text
  if whole.isEmpty then
    refuse .value start
  else
    let (places, afterPlaces) := fraction (text.drop whole.length)
    match places, exponent? afterPlaces with
    | [], none =>
        if digitLimit < whole.length then
          .error (.numeralTooLong whole.length)
        else
          let value : Int := Numeral.valueOf whole
          .ok (.int (if negative then -value else value), afterPlaces)
    | _, power =>
        let (exponent, after) := power.getD (0, afterPlaces)
        let decimal : Decimal := ⟨Numeral.valueOf (whole ++ places), exponent - places.length⟩
        .ok (.float (decimal.toBinary64 negative), after)

/-- Reads a value that is neither a string nor a container: a name or a number. -/
def plainValue (text : List Char) : Except Failure (Data × List Char) :=
  let names : List (String × Data) :=
    [("null", .null), ("true", .bool true), ("false", .bool false), ("NaN", .float .nan),
      ("Infinity", .float (.infinite false)), ("-Infinity", .float (.infinite true))]
  let named := names.findSome? fun (name, value) =>
    (dropStart? name.toList text).map fun after => (value, after)
  match named with
  | some result => .ok result
  | none =>
      match text with
      | '-' :: rest => unsignedNumber true text rest
      | _ => unsignedNumber false text text

mutual

/-- Reads a value. -/
def value : (fuel : Nat) → List Char → Except Failure (Data × List Char)
  | 0, text => refuse .value text
  | fuel + 1, text =>
      match text with
      | '"' :: rest => do
          let (content, after) ← string rest
          return (.text content, after)
      | '[' :: rest => do
          let start := skipSpace rest
          match start with
          | ']' :: after => return (.list [], after)
          | _ =>
              let (items, after) ← items fuel start
              return (.list items, after)
      | '\x7b' :: rest => do
          let start := skipSpace rest
          match start with
          | '\x7d' :: after => return (.mapping [], after)
          | _ =>
              let (pairs, after) ← members fuel start
              return (.mapping (Entries.ofPairs pairs), after)
      | _ => plainValue text

/-- Reads the items of a list that has at least one more, up to its closing bracket. -/
def items : (fuel : Nat) → List Char → Except Failure (List Data × List Char)
  | 0, text => refuse .value text
  | fuel + 1, text => do
      let (first, afterFirst) ← value fuel text
      let separator := skipSpace afterFirst
      match separator with
      | ']' :: after => return ([first], after)
      | ',' :: rest =>
          let (others, after) ← items fuel (skipSpace rest)
          return (first :: others, after)
      | _ => refuse .comma separator

/-- Reads the members of a mapping that has at least one more, up to its closing brace. -/
def members : (fuel : Nat) → List Char → Except Failure (List (Scalar × Data) × List Char)
  | 0, text => refuse .memberName text
  | fuel + 1, text =>
      match text with
      | '"' :: rest => do
          let (name, afterName) ← string rest
          let colon := skipSpace afterName
          match colon with
          | ':' :: afterColon =>
              let (first, afterFirst) ← value fuel (skipSpace afterColon)
              let separator := skipSpace afterFirst
              match separator with
              | '\x7d' :: after => return ([(.text name, first)], after)
              | ',' :: next =>
                  let (others, after) ← members fuel (skipSpace next)
                  return ((.text name, first) :: others, after)
              | _ => refuse .comma separator
          | _ => refuse .colon colon
      | _ => refuse .memberName text

end

/-- Reads a whole text: one value with white space around it. -/
def wholeText (text : List Char) : Except Failure Data := do
  if text.head? = some (Char.ofNat 0xFEFF) then
    refuse .noByteOrderMark text
  let (result, after) ← value (2 * text.length + 2) (skipSpace text)
  let rest := skipSpace after
  if rest.isEmpty then return result else refuse .endOfText rest

/-- The value that a text denotes. -/
def decode (text : String) : Except Fault Data :=
  let characters := text.toList
  match wholeText characters with
  | .ok result => .ok result
  | .error (.refused refusal) =>
      .error (.malformedJson
        (.at refusal.expectation characters (characters.length - refusal.remaining)))
  | .error (.numeralTooLong digits) => .error (.numeralTooLong digits)

end Json

end Scorecard
