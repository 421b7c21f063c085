/-!
# Lines and pieces of a text

A text is cut at each line feed, so it always has one line more than it has line feeds. Universal
line ends turn a carriage return, alone or before a line feed, into a line feed. A text may also be
cut at every character that ends a line in any script.
-/

namespace Scorecard

/-- The pieces of a text between the occurrences of a character; there is always at least one. -/
def splitAtChar (separator : Char) : List Char → List (List Char)
  | [] => [[]]
  | c :: rest =>
      if c = separator then
        [] :: splitAtChar separator rest
      else
        match splitAtChar separator rest with
        | [] => [[c]]
        | piece :: pieces => (c :: piece) :: pieces

/-- The lines of a text, cut at the line feeds. -/
def splitLines (text : List Char) : List (List Char) :=
  splitAtChar '\n' text

/-- The text with every line end written as a line feed. -/
def universalNewlines : List Char → List Char
  | [] => []
  | '\r' :: '\n' :: rest => '\n' :: universalNewlines rest
  | c :: rest => (if c = '\r' then '\n' else c) :: universalNewlines rest

/-- Whether a character ends a line in some script. -/
def endsLine (c : Char) : Bool :=
  [0x0A, 0x0B, 0x0C, 0x0D, 0x1C, 0x1D, 0x1E, 0x85, 0x2028, 0x2029].contains c.toNat

/-- Cuts at every line end; the first argument holds the characters of the current line, last one
first. A last line without an end counts if it is not empty. -/
def splitAllLinesAfter : List Char → List Char → List (List Char)
  | [], [] => []
  | line, [] => [line.reverse]
  | line, '\r' :: '\n' :: rest => line.reverse :: splitAllLinesAfter [] rest
  | line, c :: rest =>
      if endsLine c then line.reverse :: splitAllLinesAfter [] rest
      else splitAllLinesAfter (c :: line) rest

/-- The lines of a text, cut at the line ends of every script. -/
def splitAllLines (text : List Char) : List (List Char) :=
  splitAllLinesAfter [] text

/-- Pieces put together with a separator between them. -/
def joinWith (separator : List Char) : List (List Char) → List Char
  | [] => []
  | [piece] => piece
  | piece :: pieces => piece ++ separator ++ joinWith separator pieces

/-- What follows `start` in a text that begins with it. -/
def dropStart? : List Char → List Char → Option (List Char)
  | [], text => some text
  | _ :: _, [] => none
  | expected :: start, c :: text => if expected = c then dropStart? start text else none

/-- What follows the first occurrence of a piece. -/
def dropThrough? (piece : List Char) : List Char → Option (List Char)
  | [] => dropStart? piece []
  | c :: rest =>
      match dropStart? piece (c :: rest) with
      | some after => some after
      | none => dropThrough? piece rest

/-- Whether a text ends with the given characters. -/
def endsWith (ending text : List Char) : Bool :=
  (dropStart? ending.reverse text.reverse).isSome

end Scorecard
