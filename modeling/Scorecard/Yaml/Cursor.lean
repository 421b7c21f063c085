import Scorecard.Text.Lines

/-!
# Places in a YAML text

A cursor is a place in a text: what follows, and the count of characters, the line and the column
before it. Indentation is a matter of columns, so every step keeps them. A byte order mark takes no
column.
-/

namespace Scorecard

namespace Yaml

/-- Whether a character ends a line. -/
def isBreak (c : Char) : Bool :=
  c == '\n' || c == '\r' || [0x85, 0x2028, 0x2029].contains c.toNat

/-- Whether a character is a space, a tab or the end of a line. -/
def isGap (c : Char) : Bool :=
  c == ' ' || c == '\t' || isBreak c

/-- Whether a place is at the end of the text or before a space, a tab or the end of a line. -/
def atGap (next : Option Char) : Bool :=
  (next.map isGap).getD true

/-- A place in a text. -/
structure Cursor where
  rest : List Char
  index : Nat := 0
  line : Nat := 0
  column : Nat := 0

namespace Cursor

/-- The place after the next character. -/
def step (cursor : Cursor) : Cursor :=
  match cursor.rest with
  | [] => cursor
  | c :: rest =>
      let moved := { cursor with rest := rest, index := cursor.index + 1 }
      if isBreak c && !(c == '\r' && rest.head? == some '\n') then
        { moved with line := cursor.line + 1, column := 0 }
      else if c.toNat == 0xFEFF then moved
      else { moved with column := cursor.column + 1 }

/-- The place after a count of characters. -/
def skip (cursor : Cursor) : Nat → Cursor
  | 0 => cursor
  | count + 1 => cursor.step.skip count

/-- The next character. -/
def next (cursor : Cursor) : Option Char :=
  cursor.rest.head?

/-- The character after the next one. -/
def second (cursor : Cursor) : Option Char :=
  cursor.rest[1]?

/-- The next characters of a class, and the place after them. -/
def takeWhile (cursor : Cursor) (accepts : Char → Bool) : List Char × Cursor :=
  let taken := cursor.rest.takeWhile accepts
  (taken, cursor.skip taken.length)

/-- The place after the next characters of a class. -/
def skipWhile (cursor : Cursor) (accepts : Char → Bool) : Cursor :=
  (cursor.takeWhile accepts).2

/-- The end of a line at a place, as a line feed unless it is a separator of its own. -/
def lineBreak? (cursor : Cursor) : Option (Char × Cursor) :=
  match cursor.rest with
  | '\r' :: '\n' :: _ => some ('\n', cursor.skip 2)
  | c :: _ =>
      if c.toNat == 0x2028 || c.toNat == 0x2029 then some (c, cursor.step)
      else if isBreak c then some ('\n', cursor.step)
      else none
  | [] => none

/-- Whether a mark between documents stands at a place. -/
def atDocumentMark (cursor : Cursor) (mark : Char) : Bool :=
  match cursor.rest with
  | a :: b :: c :: rest => a == mark && b == mark && c == mark && atGap rest.head?
  | _ => false

/-- Whether a mark of any kind between documents stands at a place. -/
def atAnyDocumentMark (cursor : Cursor) : Bool :=
  cursor.atDocumentMark '-' || cursor.atDocumentMark '.'

end Cursor

end Yaml

end Scorecard
