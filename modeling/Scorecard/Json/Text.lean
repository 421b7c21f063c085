import Scorecard.Json.Problem
import Scorecard.Text.Quoted

/-!
# JSON strings

A string stands between double quotes. Writing escapes the double quote, the backslash, the controls
and everything beyond ASCII, the latter by its UTF-16 units. Reading takes any escape of the format
and refuses a control character that is not escaped.

A reader's refusal gives the count of characters that were left, so that it need not know its place
in the whole text.
-/

namespace Scorecard

namespace Json

/-- A unit of UTF-16 as an escape. -/
def unitEscape (unit : Nat) : List Char :=
  '\\' :: 'u' :: hexDigits 4 unit

/-- A character as it stands in a string. -/
def stringChar (c : Char) : List Char :=
  if c = '"' ∨ c = '\\' then ['\\', c]
  else if c = '\n' then ['\\', 'n']
  else if c = '\r' then ['\\', 'r']
  else if c = '\t' then ['\\', 't']
  else if c.toNat = 8 then ['\\', 'b']
  else if c.toNat = 12 then ['\\', 'f']
  else if 32 ≤ c.toNat ∧ c.toNat < 127 then [c]
  else if c.toNat < 0x10000 then unitEscape c.toNat
  else
    unitEscape (0xD800 + (c.toNat - 0x10000) / 0x400) ++
      unitEscape (0xDC00 + (c.toNat - 0x10000) % 0x400)

/-- A text as a string. -/
def stringText (text : List Char) : List Char :=
  '"' :: (text.flatMap stringChar ++ ['"'])

/-- The value of a hexadecimal digit. -/
def hexValue? (c : Char) : Option Nat :=
  if c.isDigit then some (c.toNat - 48)
  else if 'a' ≤ c ∧ c ≤ 'f' then some (c.toNat - 87)
  else if 'A' ≤ c ∧ c ≤ 'F' then some (c.toNat - 55)
  else none

/-- The value of the four hexadecimal digits at the start of a text that goes on after them. -/
def unit? : List Char → Option Nat
  | a :: b :: c :: d :: _ :: _ => do
      return (((← hexValue? a) * 16 + (← hexValue? b)) * 16 + (← hexValue? c)) * 16 +
        (← hexValue? d)
  | _ => none

/-- A refusal: what was expected, and how many characters were left there. -/
structure Refusal where
  expectation : Expectation
  remaining : Nat

/-- Whether a unit is the first of a pair. -/
def isHighSurrogate (unit : Nat) : Bool :=
  0xD800 ≤ unit && unit ≤ 0xDBFF

/-- Whether a unit is the second of a pair. -/
def isLowSurrogate (unit : Nat) : Bool :=
  0xDC00 ≤ unit && unit ≤ 0xDFFF

/-- The character of a unit; one that belongs to a pair and stands alone becomes the replacement
character. -/
def unitChar (unit : Nat) : Char :=
  if isHighSurrogate unit || isLowSurrogate unit then Char.ofNat 0xFFFD else Char.ofNat unit

/-- Reads the escape after `\u`: its character and how many characters it takes. A first unit of a
pair takes the escape after it along if that is the second one. -/
def unicodeEscape (text : List Char) : Except Refusal (Char × Nat) :=
  match unit? text with
  | none => .error ⟨.fourHexDigits, text.length + 1⟩
  | some unit =>
      match text.drop 4 with
      | '\\' :: 'u' :: next =>
          if isHighSurrogate unit && 4 < next.length then
            match unit? next with
            | none => .error ⟨.fourHexDigits, next.length + 1⟩
            | some second =>
                if isLowSurrogate second then
                  .ok (Char.ofNat (0x10000 + (unit - 0xD800) * 0x400 + (second - 0xDC00)), 10)
                else
                  .ok (unitChar unit, 4)
          else
            .ok (unitChar unit, 4)
      | _ => .ok (unitChar unit, 4)

/-- Reads the escape after a backslash: its character and how many characters it takes. -/
def escape (text : List Char) : Except Refusal (Char × Nat) :=
  match text with
  | 'u' :: rest => (unicodeEscape rest).map fun (c, length) => (c, length + 1)
  | '"' :: _ => .ok ('"', 1)
  | '\\' :: _ => .ok ('\\', 1)
  | '/' :: _ => .ok ('/', 1)
  | 'b' :: _ => .ok (Char.ofNat 8, 1)
  | 'f' :: _ => .ok (Char.ofNat 12, 1)
  | 'n' :: _ => .ok ('\n', 1)
  | 'r' :: _ => .ok ('\r', 1)
  | 't' :: _ => .ok ('\t', 1)
  | _ => .error ⟨.knownEscape, text.length + 1⟩

/-- Reads the rest of a string, up to its closing quote, and gives what follows it. `opening` counts
the characters left at the opening quote; `skip` characters belong to the escape before. -/
def stringRest (opening : Nat) : (skip : Nat) → List Char → Except Refusal (List Char × List Char)
  | _, [] => .error ⟨.closingQuote, opening⟩
  | skip + 1, _ :: rest => stringRest opening skip rest
  | 0, c :: rest =>
      if c = '"' then .ok ([], rest)
      else if c = '\\' then
        if rest.isEmpty then .error ⟨.closingQuote, opening⟩
        else do
          let (escaped, length) ← escape rest
          let (text, after) ← stringRest opening length rest
          return (escaped :: text, after)
      else if c.toNat < 32 then .error ⟨.noControlCharacter, rest.length + 1⟩
      else do
        let (text, after) ← stringRest opening 0 rest
        return (c :: text, after)

end Json

end Scorecard
