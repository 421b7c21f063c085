import Scorecard.Fault

/-!
# Globs

A glob describes paths piece by piece. Wildcards stay within one component; two wider pieces stand
for any directories above or between. A piece that can take more or less takes as much as it can and
gives back only if what follows does not fit, so a glob takes a path in at most one way, the first
that fits. Where the glob ends, the path ends too, or goes on below a directory; the two cases are
told apart.
-/

namespace Scorecard

/-- A class of characters in brackets. -/
structure CharClass where
  isNegated : Bool
  /-- The ranges from the first to the last character; single characters are ranges of their own. -/
  ranges : List (Char × Char)
deriving DecidableEq

namespace CharClass

/-- The ranges that the characters between brackets denote. A hyphen between two characters makes a
range; one at either end stands for itself. -/
def rangesOf : List Char → List (Char × Char)
  | [] => []
  | first :: '-' :: last :: rest => (first, last) :: rangesOf rest
  | c :: rest => (c, c) :: rangesOf rest

/-- Whether a range runs downwards, so that the class is not one. -/
def isDescending (charClass : CharClass) : Bool :=
  charClass.ranges.any fun (first, last) => last < first

/-- Whether the class accepts a character. -/
def accepts (charClass : CharClass) (c : Char) : Bool :=
  charClass.ranges.any (fun (first, last) => first ≤ c && c ≤ last) != charClass.isNegated

end CharClass

/-- A piece of a glob. -/
inductive GlobPiece where
  /-- The given character. -/
  | char (expected : Char)
  /-- One character of a component. -/
  | one
  /-- Any characters of a component. -/
  | run
  /-- One character of a class, which may be a slash. -/
  | charClass (charClass : CharClass)
  /-- Any directories that the path starts with, or none. -/
  | above
  /-- Any directories that follow a component, or none. -/
  | between
deriving DecidableEq

/-- How a glob ends. -/
inductive GlobEnding where
  /-- At the end of the path, or at a directory with something below it. -/
  | atOrBelow
  /-- At a directory with something below it. The flag tells whether the glob was written for
  directories. -/
  | below (forDirectories : Bool)
deriving DecidableEq

/-- How a glob takes a path: itself, or only by a directory above it. -/
inductive Hold where
  | direct
  | byDirectory
deriving DecidableEq

namespace Glob

/-- The rests of a text after each count of characters from the greatest down to none. -/
def restsDown (count : Nat) (text : List Char) : List (List Char) :=
  ((List.range (count + 1)).map fun taken => text.drop taken).reverse

/-- The characters before the first line feed. -/
def firstLine (text : List Char) : List Char :=
  text.takeWhile (· != '\n')

/-- What follows each slash of the first line, the nearest slash first. A slash at the start does
not count; the flag tells whether a character stands before the text. -/
def afterSlashes : (started : Bool) → List Char → List (List Char)
  | _, [] => []
  | started, c :: rest =>
      if c = '\n' then []
      else if started && c == '/' then rest :: afterSlashes true rest
      else afterSlashes true rest

/-- The rests that a piece may leave of a text, in the order in which they are tried. -/
def GlobPiece.rests : GlobPiece → List Char → List (List Char)
  | .char expected, text =>
      match text with
      | [] => []
      | c :: rest => if c = expected then [rest] else []
  | .one, text =>
      match text with
      | [] => []
      | c :: rest => if c = '/' then [] else [rest]
  | .run, text => restsDown (text.takeWhile (· != '/')).length text
  | .charClass charClass, text =>
      match text with
      | [] => []
      | c :: rest => if charClass.accepts c then [rest] else []
  | .above, text => (afterSlashes false text).reverse ++ [text]
  | .between, text =>
      match text with
      | '/' :: rest => (restsDown (firstLine rest).length rest).dropLast ++ [text]
      | _ => [text]

/-- How an ending takes what is left of a path. A line feed at the very end is not looked at. -/
def GlobEnding.hold? : GlobEnding → List Char → Option Hold
  | .atOrBelow, text =>
      match text with
      | '/' :: _ => some .byDirectory
      | [] => some .direct
      | ['\n'] => some .direct
      | _ => none
  | .below forDirectories, text =>
      match text with
      | '/' :: _ => some (if forDirectories then .byDirectory else .direct)
      | _ => none

/-- How pieces and an ending take a path. -/
def hold? (ending : GlobEnding) : List GlobPiece → List Char → Option Hold
  | [], text => GlobEnding.hold? ending text
  | piece :: pieces, text => (GlobPiece.rests piece text).findSome? (hold? ending pieces)

end Glob

end Scorecard
