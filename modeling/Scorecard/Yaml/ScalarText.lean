import Scorecard.Json.Text
import Scorecard.Yaml.Cursor

/-!
# The texts of YAML scalars

A scalar is plain, in single or double quotes, or a block. Inside each, the end of a line is folded:
a single one becomes a space, and of several the first is dropped. A literal block keeps them all.
Every reader takes a scalar from a place and gives its text and the place after it, or nothing if
the scalar is broken off. The recursions are bounded by the length of the text.
-/

namespace Scorecard

namespace Yaml

/-- The count of characters of a plain scalar up to a gap or an indicator that ends it. -/
def plainLength (inFlow : Bool) : List Char → Nat
  | [] => 0
  | c :: rest =>
      let colonEnds :=
        match rest.head? with
        | none => true
        | some after => isGap after || (inFlow && ",[]\x7b\x7d".toList.contains after)
      if isGap c || (c == ':' && colonEnds) || (inFlow && ",?[]\x7b\x7d".toList.contains c) then 0
      else 1 + plainLength inFlow rest

/-- The empty lines at a place, each with the spaces before it; none if a mark between documents
follows one of them. -/
def emptyLines? : (fuel : Nat) → Cursor → Option (List Char × Cursor)
  | 0, _ => none
  | fuel + 1, cursor =>
      let start := cursor.skipWhile (· == ' ')
      match start.lineBreak? with
      | none => some ([], start)
      | some (c, after) =>
          if after.atAnyDocumentMark then none
          else (emptyLines? fuel after).map fun (lines, place) => (c :: lines, place)

/-- An end of a line together with the empty lines after it, folded. -/
def folded (lineEnd : Char) (empty : List Char) : List Char :=
  if lineEnd != '\n' then lineEnd :: empty else if empty.isEmpty then [' '] else empty

/-- What stands between two parts of a plain scalar: spaces, or folded ends of lines. Also tells
whether a line ended. Nothing stands there if a mark between documents follows. -/
def plainSpaces (cursor : Cursor) : List Char × Bool × Cursor :=
  let (spaces, after) := cursor.takeWhile (· == ' ')
  match after.lineBreak? with
  | none => (spaces, false, after)
  | some (lineEnd, next) =>
      if next.atAnyDocumentMark then ([], true, next)
      else
        match emptyLines? (next.rest.length + 1) next with
        | none => ([], true, next)
        | some (empty, place) => (folded lineEnd empty, true, place)

/-- A plain scalar from a place on. Outside of flow collections it goes on only on lines that are
indented enough. Also tells whether a line ended after the scalar's last part. -/
def plainFrom (inFlow : Bool) (indent : Int) :
    (fuel : Nat) → Cursor → (spaces : List Char) → (lineEnded : Bool) → List Char × Bool × Cursor
  | 0, cursor, _, lineEnded => ([], lineEnded, cursor)
  | fuel + 1, cursor, spaces, lineEnded =>
      let length := plainLength inFlow cursor.rest
      if cursor.next == some '#' || length == 0 then ([], lineEnded, cursor)
      else
        let part := spaces ++ cursor.rest.take length
        let (nextSpaces, broke, place) := plainSpaces (cursor.skip length)
        if nextSpaces.isEmpty || place.next == some '#' ||
          (!inFlow && (place.column : Int) < indent) then
          (part, broke, place)
        else
          let (others, ended, last) := plainFrom inFlow indent fuel place nextSpaces broke
          (part ++ others, ended, last)

/-- A plain scalar. -/
def plainScalar (inFlow : Bool) (indent : Int) (cursor : Cursor) : List Char × Bool × Cursor :=
  plainFrom inFlow indent (cursor.rest.length + 1) cursor [] false

/-- The empty lines inside a quoted scalar, with the blanks before them and after the last; a mark
between documents breaks the scalar off. -/
def quotedEmptyLines? : (fuel : Nat) → Cursor → Option (List Char × Cursor)
  | 0, _ => none
  | fuel + 1, cursor =>
      if cursor.atAnyDocumentMark then none
      else
        let start := cursor.skipWhile fun c => c == ' ' || c == '\t'
        match start.lineBreak? with
        | none => some ([], start)
        | some (c, after) =>
            (quotedEmptyLines? fuel after).map fun (lines, place) => (c :: lines, place)

/-- Blanks inside a quoted scalar: kept within a line, folded around the end of a line. -/
def quotedSpaces? (cursor : Cursor) : Option (List Char × Cursor) :=
  let (blanks, after) := cursor.takeWhile fun c => c == ' ' || c == '\t'
  match after.rest, after.lineBreak? with
  | [], _ => none
  | _, none => some (blanks, after)
  | _, some (lineEnd, next) =>
      (quotedEmptyLines? (next.rest.length + 1) next).map fun (empty, place) =>
        (folded lineEnd empty, place)

/-- The characters of short escapes in double quotes. -/
def shortEscapes : List (Char × Nat) :=
  [('0', 0), ('a', 7), ('b', 8), ('t', 9), ('\t', 9), ('n', 10), ('v', 11), ('f', 12), ('r', 13),
    ('e', 27), (' ', 32), ('"', 34), ('\\', 92), ('/', 47), ('N', 0x85), ('_', 0xA0), ('L', 0x2028),
    ('P', 0x2029)]

/-- The counts of digits of numeric escapes in double quotes. -/
def numericEscapes : List (Char × Nat) :=
  [('x', 2), ('u', 4), ('U', 8)]

/-- An escape after its backslash; an escaped end of a line takes the empty lines after it along. -/
def doubleEscape? (cursor : Cursor) : Option (List Char × Cursor) := do
  let c ← cursor.next
  match shortEscapes.lookup c, numericEscapes.lookup c with
  | some code, _ => return ([Char.ofNat code], cursor.step)
  | none, some width =>
      let digits := (cursor.rest.drop 1).take width
      let values ← digits.mapM Json.hexValue?
      let code := values.foldl (fun code value => code * 16 + value) 0
      if digits.length = width ∧ code < 0x110000 then
        return ([Char.ofNat code], cursor.skip (width + 1))
      else
        none
  | none, none =>
      let (_, after) ← cursor.lineBreak?
      quotedEmptyLines? (after.rest.length + 1) after

/-- The parts of a quoted scalar up to its closing quote. -/
def quotedFrom? (quote : Char) : (fuel : Nat) → Cursor → Option (List Char × Cursor)
  | 0, _ => none
  | fuel + 1, cursor => do
      let c ← cursor.next
      let (part, place) ←
        if c == quote then
          if quote == '\'' && cursor.second == some '\'' then pure (['\''], cursor.skip 2)
          else return ([], cursor.step)
        else if quote == '"' && c == '\\' then doubleEscape? cursor.step
        else if isGap c then quotedSpaces? cursor
        else pure ([c], cursor.step)
      let (others, last) ← quotedFrom? quote fuel place
      return (part ++ others, last)

/-- A quoted scalar, from its opening quote on. -/
def quotedScalar? (quote : Char) (cursor : Cursor) : Option (List Char × Cursor) :=
  quotedFrom? quote (cursor.rest.length + 1) cursor.step

/-- How the ends of lines after a block are treated. -/
inductive Chomping where
  /-- The last one is kept. -/
  | clip
  /-- None is kept. -/
  | strip
  /-- All are kept. -/
  | keep
deriving DecidableEq

/-- The treatment that a sign in the head of a block stands for. -/
def chompingOf? : Option Char → Option Chomping
  | some '+' => some .keep
  | some '-' => some .strip
  | _ => none

/-- The indentation that a digit in the head of a block stands for. -/
def blockIndentOf? : Option Char → Option Nat
  | some c => if c.isDigit then some (c.toNat - 48) else none
  | none => none

/-- The sign and the digit after the mark of a block, in any order. A zero is no indentation. -/
def blockHead? (cursor : Cursor) : Option (Chomping × Option Nat × Cursor) := do
  let (chomping, increment, place) :=
    match chompingOf? cursor.next, blockIndentOf? cursor.next with
    | some chomping, _ =>
        match blockIndentOf? cursor.second with
        | some increment => (chomping, some increment, cursor.skip 2)
        | none => (chomping, none, cursor.step)
    | none, some increment =>
        match chompingOf? cursor.second with
        | some chomping => (chomping, some increment, cursor.skip 2)
        | none => (Chomping.clip, some increment, cursor.step)
    | none, none => (Chomping.clip, none, cursor)
  if increment = some 0 ∨ !((place.next.map fun c => c == ' ' || isBreak c).getD true) then none
  else return (chomping, increment, place)

/-- The rest of a line that holds nothing but spaces and a comment, and its end. -/
def ignoredLine? (cursor : Cursor) : Option Cursor :=
  let start := cursor.skipWhile (· == ' ')
  let after := if start.next == some '#' then start.skipWhile (!isBreak ·) else start
  match after.rest, after.lineBreak? with
  | [], _ => some after
  | _, some (_, place) => some place
  | _, none => none

/-- The empty lines before a block without a given indentation, and the widest of their indents. -/
def blockIndentation : (fuel : Nat) → Cursor → (widest : Nat) → List Char × Nat × Cursor
  | 0, cursor, widest => ([], widest, cursor)
  | fuel + 1, cursor, widest =>
      if cursor.next == some ' ' then
        blockIndentation fuel cursor.step (max widest cursor.step.column)
      else
        match cursor.lineBreak? with
        | none => ([], widest, cursor)
        | some (c, after) =>
            let (lines, indent, place) := blockIndentation fuel after widest
            (c :: lines, indent, place)

/-- Spaces up to the given column. -/
def skipIndent (indent : Nat) (cursor : Cursor) : Cursor :=
  cursor.skip ((cursor.rest.take (indent - cursor.column)).takeWhile (· == ' ')).length

/-- The empty lines inside a block, and the indentation after them. -/
def blockBreaks (indent : Nat) : (fuel : Nat) → Cursor → List Char × Cursor
  | 0, cursor => ([], cursor)
  | fuel + 1, cursor =>
      let start := skipIndent indent cursor
      match start.lineBreak? with
      | none => ([], start)
      | some (c, after) =>
          let (lines, place) := blockBreaks indent fuel after
          (c :: lines, place)

/-- Whether the line at a place starts with a blank. -/
def startsBlank (cursor : Cursor) : Bool :=
  cursor.next == some ' ' || cursor.next == some '\t'

/-- The lines of a block, `breaks` being the empty lines before the next one. Gives the text, the
end of its last line, the empty lines after it and the place after them. -/
def blockLines (isFolded : Bool) (indent : Nat) :
    (fuel : Nat) → Cursor → (breaks : List Char) → List Char × List Char × List Char × Cursor
  | 0, cursor, breaks => ([], [], breaks, cursor)
  | fuel + 1, cursor, breaks =>
      let goesOn (place : Cursor) : Bool := place.column == indent && !place.rest.isEmpty
      if goesOn cursor then
        let (line, lineEndPlace) := cursor.takeWhile (!isBreak ·)
        let (lineEnd, after) := match lineEndPlace.lineBreak? with
          | none => ([], lineEndPlace)
          | some (c, place) => ([c], place)
        let (nextBreaks, place) := blockBreaks indent (after.rest.length + 1) after
        if goesOn place then
          let joint :=
            if isFolded && lineEnd == ['\n'] && !startsBlank cursor && !startsBlank place then
              if nextBreaks.isEmpty then [' '] else []
            else lineEnd
          let (others, lastEnd, trailing, last) := blockLines isFolded indent fuel place nextBreaks
          (breaks ++ line ++ joint ++ others, lastEnd, trailing, last)
        else
          (breaks ++ line, lineEnd, nextBreaks, place)
      else
        ([], [], breaks, cursor)

/-- A block scalar after its mark. `parentIndent` is the indentation of what holds it. -/
def blockScalar? (isFolded : Bool) (parentIndent : Int) (cursor : Cursor) :
    Option (List Char × Cursor) := do
  let (chomping, increment, afterHead) ← blockHead? cursor.step
  let start ← ignoredLine? afterHead
  let least := max 1 (parentIndent + 1).toNat
  let fuel := start.rest.length + 1
  let (breaks, indent, first) := match increment with
    | some width =>
        let indent := least + width - 1
        let (breaks, place) := blockBreaks indent fuel start
        (breaks, indent, place)
    | none =>
        let (breaks, widest, place) := blockIndentation fuel start 0
        (breaks, max least widest, place)
  let (text, lastEnd, trailing, place) := blockLines isFolded indent fuel first breaks
  let ending := match chomping with
    | .clip => lastEnd
    | .strip => []
    | .keep => lastEnd ++ trailing
  return (text ++ ending, place)

end Yaml

end Scorecard
