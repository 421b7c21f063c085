import Scorecard.Data
import Scorecard.Json.Text

/-!
# Writing JSON

A value is written on one line, or with each item and member on a line of its own, indented by its
depth. Floats are written with the fewest digits that read back, so reading a written value gives
the value again; infinities and not a number are written by name. Only texts, numbers, truth values
and the absent value are scalars of the format: any other scalar is written as the text that shows
it.
-/

namespace Scorecard

namespace Json

/-- A float as a number of the format, or by name. -/
def floatText : Binary64 → String
  | .nan => "NaN"
  | .infinite negative => if negative then "-Infinity" else "Infinity"
  | value => String.ofList (Layout.exact.render value)

/-- A text as a string of the format. -/
def textLiteral (text : String) : String :=
  String.ofList (stringText text.toList)

/-- A scalar of the format, or the text that shows another one. -/
def scalarText : Scalar → Except Fault String
  | .null => .ok "null"
  | .bool value => .ok (if value then "true" else "false")
  | .int value => integerText value
  | .float value => .ok (floatText value)
  | .text value => .ok (textLiteral value)
  | other => do return textLiteral (← other.display)

/-- The name of a member: the text of its key. -/
def memberName : Scalar → Except Fault String
  | .text value => .ok (textLiteral value)
  | other => do return textLiteral (← scalarText other)

/-- How the parts of a container are set apart. -/
inductive Style where
  /-- On one line. -/
  | compact
  /-- On lines of their own, indented by two spaces for each level. -/
  | indented
deriving DecidableEq

/-- What stands before each part of a container at a depth, and before its closing bracket at the
depth above. -/
def Style.lineBreak (style : Style) (depth : Nat) : String :=
  match style with
  | .compact => ""
  | .indented => "\n" ++ String.ofList (List.replicate (2 * depth) ' ')

/-- What stands between two parts of a container, apart from the break. -/
def Style.separator (style : Style) : String :=
  match style with
  | .compact => ", "
  | .indented => ","

/-- The parts of a container between its brackets. -/
def bracketed (style : Style) (depth : Nat) (opening closing : String) (parts : List String) :
    String :=
  match parts with
  | [] => opening ++ closing
  | _ =>
      let inner := style.lineBreak (depth + 1)
      opening ++ inner ++ (style.separator ++ inner).intercalate parts ++
        style.lineBreak depth ++ closing

mutual

/-- A value at a depth. -/
def valueText (style : Style) (depth : Nat) : Data → Except Fault String
  | .scalar value => scalarText value
  | .list items => do
      return bracketed style depth "[" "]" (← itemTexts style (depth + 1) items)
  | .mapping entries => do
      return bracketed style depth "\x7b" "\x7d" (← memberTexts style (depth + 1) entries)

/-- The items of a list. -/
def itemTexts (style : Style) (depth : Nat) : List Data → Except Fault (List String)
  | [] => .ok []
  | item :: rest => do
      let first ← valueText style depth item
      return first :: (← itemTexts style depth rest)

/-- The members of a mapping. -/
def memberTexts (style : Style) (depth : Nat) : List (Scalar × Data) → Except Fault (List String)
  | [] => .ok []
  | (key, item) :: rest => do
      let name ← memberName key
      let text ← valueText style depth item
      return (name ++ ": " ++ text) :: (← memberTexts style depth rest)

end

/-- The text that denotes a value. -/
def encode (style : Style) (data : Data) : Except Fault String :=
  valueText style 0 data

end Json

end Scorecard
