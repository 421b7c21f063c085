import Scorecard.Text.Blank
import Scorecard.Text.Word

/-!
# Patterns

A pattern is a list of alternatives, and an alternative is a list of steps, each taking one
character of a class, a run of them, or perhaps one. A run is always taken whole: in every pattern
of this library the step after a run accepts no character of the run's class, so giving characters
back could not help, and a pattern has at most one match at a place. The first alternative that
matches decides.

Occurrences are found from left to right and do not overlap.
-/

namespace Scorecard

/-- One step of a pattern. -/
inductive Step where
  /-- One character of the class. -/
  | one (accepts : Char → Bool)
  /-- The whole run of characters of the class, which may be empty. -/
  | run (accepts : Char → Bool)
  /-- The whole run of characters of the class, of which there is at least one. -/
  | nonemptyRun (accepts : Char → Bool)
  /-- One character of the class if it stands there. -/
  | optional (accepts : Char → Bool)

/-- Alternatives, each a list of steps. -/
abbrev Pattern := List (List Step)

namespace Step

/-- The steps of a fixed text. -/
def literal (text : String) : List Step :=
  text.toList.map fun expected => .one (· == expected)

/-- Whether a character is a lower-case letter up to case. Three letters have further forms beyond
ASCII: the dotted and dotless i, the Kelvin sign and the long s. -/
def isLetterUpToCase (letter c : Char) : Bool :=
  c.toLower == letter ||
    (letter == 'i' && (c.toNat == 0x130 || c.toNat == 0x131)) ||
    (letter == 'k' && c.toNat == 0x212A) ||
    (letter == 's' && c.toNat == 0x17F)

/-- The steps of a lower-case text up to case. -/
def caseless (text : String) : List Step :=
  text.toList.map fun letter => .one (isLetterUpToCase letter)

/-- A run of white space. -/
def blanks : Step := .run isBlank

/-- White space that cannot be missing. -/
def gap : Step := .nonemptyRun isBlank

/-- A word. -/
def word : Step := .nonemptyRun isWord

/-- The character that is given. -/
def char (expected : Char) : Step := .one (· == expected)

/-- Any characters up to the one that is given. -/
def upTo (closing : Char) : List Step := [.run (· != closing), .char closing]

/-- The count of characters that the steps take from the start of a text. -/
def length? : List Step → List Char → Option Nat
  | [], _ => some 0
  | .one accepts :: steps, text =>
      match text with
      | [] => none
      | c :: rest => if accepts c then (length? steps rest).map (· + 1) else none
  | .run accepts :: steps, text =>
      let count := (text.takeWhile accepts).length
      (length? steps (text.drop count)).map (· + count)
  | .nonemptyRun accepts :: steps, text =>
      let count := (text.takeWhile accepts).length
      if count = 0 then none else (length? steps (text.drop count)).map (· + count)
  | .optional accepts :: steps, text =>
      let count := ((text.take 1).takeWhile accepts).length
      (length? steps (text.drop count)).map (· + count)

end Step

namespace Pattern

/-- The count of characters that the pattern takes from the start of a text. -/
def length? (pattern : Pattern) (text : List Char) : Option Nat :=
  pattern.findSome? fun steps => Step.length? steps text

/-- Whether the pattern takes something from the start of a text. -/
def matchesStart (pattern : Pattern) (text : List Char) : Bool :=
  (pattern.length? text).isSome

/-- Whether the pattern occurs in a text. -/
def occursIn (pattern : Pattern) : List Char → Bool
  | [] => pattern.matchesStart []
  | c :: rest => pattern.matchesStart (c :: rest) || occursIn pattern rest

/-- The occurrences of the pattern from left to right; `skip` characters belong to the one
before. -/
def occurrencesAfter (pattern : Pattern) : (skip : Nat) → List Char → List (List Char)
  | _, [] => []
  | skip + 1, _ :: rest => occurrencesAfter pattern skip rest
  | 0, c :: rest =>
      match pattern.length? (c :: rest) with
      | none => occurrencesAfter pattern 0 rest
      | some length => (c :: rest).take length :: occurrencesAfter pattern (length - 1) rest

/-- The occurrences of the pattern in a text, from left to right and without overlap. -/
def occurrences (pattern : Pattern) (text : List Char) : List (List Char) :=
  pattern.occurrencesAfter 0 text

/-- The count of occurrences. -/
def count (pattern : Pattern) (text : List Char) : Nat :=
  (pattern.occurrences text).length

/-- What is left without the occurrences of the pattern; `skip` characters belong to the one
before. -/
def eraseAfter (pattern : Pattern) : (skip : Nat) → List Char → List Char
  | _, [] => []
  | skip + 1, _ :: rest => eraseAfter pattern skip rest
  | 0, c :: rest =>
      match pattern.length? (c :: rest) with
      | none => c :: eraseAfter pattern 0 rest
      | some length => eraseAfter pattern (length - 1) rest

/-- The text without the occurrences of the pattern. -/
def erase (pattern : Pattern) (text : List Char) : List Char :=
  pattern.eraseAfter 0 text

end Pattern

end Scorecard
