import Scorecard.Yaml.Cursor
import Scorecard.Yaml.Implicit

/-!
# Writing YAML

A flat document is a mapping of names to plain values, texts, lists of texts and mappings of texts.
It is written in block style, one entry or item on a line, the items of a list no deeper than its
name. A text is plain where it reads back as the same text, in single quotes where it would not, and
in double quotes where it holds characters that those cannot. Long texts are folded at spaces after
the line width.
-/

namespace Scorecard

namespace Yaml

/-- The column after which a text is folded. -/
def lineWidth : Nat := 80

/-- What the characters of a text allow. -/
structure TextAnalysis where
  /-- Whether the text can be plain outside of flow collections. -/
  allowsPlain : Bool
  /-- Whether the text can stand in single quotes. -/
  allowsSingleQuotes : Bool
  /-- Whether the text has several lines. -/
  isMultiline : Bool

/-- Whether a line feed or a line separator beyond ASCII. -/
def isWrittenBreak (c : Char) : Bool :=
  c == '\n' || [0x85, 0x2028, 0x2029].contains c.toNat

/-- Whether a plain text cannot hold an indicator between the given neighbours. -/
def isBlockIndicator (isFirst : Bool) (before : Option Char) (c : Char) (after : Option Char) :
    Bool :=
  if isFirst then
    "#,[]\x7b\x7d&*!|>'\"%@".toList.contains c || c.toNat == 0x60 ||
      ("?:-".toList.contains c && atGap after)
  else
    (c == ':' && atGap after) || (c == '#' && atGap before)

/-- Whether an indicator stands in a text at which a plain one would be cut. -/
def hasBlockIndicator : (isFirst : Bool) → (before : Option Char) → List Char → Bool
  | _, _, [] => false
  | isFirst, before, c :: rest =>
      isBlockIndicator isFirst before c rest.head? || hasBlockIndicator false (some c) rest

/-- Whether a character of one class stands right before one of another. -/
def hasPair (first second : Char → Bool) : List Char → Bool
  | a :: b :: rest => (first a && second b) || hasPair first second (b :: rest)
  | _ => false

/-- What the characters of a text allow. -/
def analyzeText (text : List Char) : TextAnalysis :=
  if text.isEmpty then ⟨true, true, false⟩
  else
    let isSpace (c : Char) : Bool := c == ' '
    let isSpecial (c : Char) : Bool := !(c == '\n' || (0x20 ≤ c.toNat && c.toNat ≤ 0x7E))
    let isEdge (c : Option Char) : Bool := (c.map fun c => isSpace c || isWrittenBreak c).getD false
    let hasMark :=
      (dropStart? ['-', '-', '-'] text).isSome || (dropStart? ['.', '.', '.'] text).isSome
    let isMultiline := text.any isWrittenBreak
    let isUnquotable := hasPair isSpace isWrittenBreak text || text.any isSpecial ||
      hasPair isWrittenBreak isSpace text
    { allowsPlain :=
        !(isEdge text.head? || isEdge text.getLast? || isUnquotable || isMultiline || hasMark ||
          hasBlockIndicator true none text)
      allowsSingleQuotes := !isUnquotable
      isMultiline }

/-- How a text is set apart. -/
inductive TextStyle where
  | plain
  | singleQuotes
  | doubleQuotes
deriving DecidableEq

/-- The style of a text: plain if it reads back as a text, else the simplest quotes that can hold
it. A key on one line has neither several lines nor an empty plain text. -/
def styleOf (text : List Char) (isKey : Bool) : TextStyle :=
  let analysis := analyzeText text
  if Kind.ofForm text = .text && analysis.allowsPlain &&
    !(isKey && (text.isEmpty || analysis.isMultiline))
  then .plain
  else if analysis.allowsSingleQuotes && !(isKey && analysis.isMultiline) then .singleQuotes
  else .doubleQuotes

/-- A new line indented by a count of spaces. -/
def newLine (indent : Nat) : List Char :=
  '\n' :: List.replicate indent ' '

/-- A text with its single spaces after the line width turned into new lines. Runs of spaces and of
line feeds are taken whole; the first argument bounds their count. -/
def foldText (indent : Nat) (mayFold inQuotes : Bool) :
    (fuel : Nat) → (isStart : Bool) → (column : Nat) → List Char → List Char
  | 0, _, _, text => text
  | _ + 1, _, _, [] => []
  | fuel + 1, isStart, column, c :: rest =>
      if c == ' ' then
        let spaces := (c :: rest).takeWhile (· == ' ')
        let after := (c :: rest).drop spaces.length
        let mayBreak := mayFold && spaces.length == 1 && lineWidth < column &&
          !(inQuotes && (isStart || after.isEmpty))
        if mayBreak then newLine indent ++ foldText indent mayFold inQuotes fuel false indent after
        else
          spaces ++ foldText indent mayFold inQuotes fuel false (column + spaces.length) after
      else if c == '\n' then
        let breaks := (c :: rest).takeWhile (· == '\n')
        let after := (c :: rest).drop breaks.length
        '\n' :: List.replicate (breaks.length - 1) '\n' ++ newLine indent ++
          foldText indent mayFold inQuotes fuel false indent after
      else if c == '\'' && inQuotes then
        '\'' :: '\'' :: foldText indent mayFold inQuotes fuel false (column + 2) rest
      else
        c :: foldText indent mayFold inQuotes fuel false (column + 1) rest

/-- The short escapes in double quotes. -/
def writtenEscapes : List (Nat × Char) :=
  [(0, '0'), (7, 'a'), (8, 'b'), (9, 't'), (10, 'n'), (11, 'v'), (12, 'f'), (13, 'r'), (27, 'e'),
    (34, '"'), (92, '\\'), (0x85, 'N'), (0xA0, '_'), (0x2028, 'L'), (0x2029, 'P')]

/-- The escape that a character needs in double quotes. -/
def doubleQuoteEscape? (c : Char) : Option (List Char) :=
  let code := c.toNat
  let upperDigits (width : Nat) : List Char := (hexDigits width code).map Char.toUpper
  match writtenEscapes.lookup code with
  | some letter => some ['\\', letter]
  | none =>
      if 0x20 ≤ code && code ≤ 0x7E then none
      else if code ≤ 0xFF then some ('\\' :: 'x' :: upperDigits 2)
      else if code ≤ 0xFFFF then some ('\\' :: 'u' :: upperDigits 4)
      else some ('\\' :: 'U' :: upperDigits 8)

/-- The break of a text in double quotes before the given rest: a backslash ends the line, and
another one keeps a space at the start of the next. -/
def doubleQuoteBreak (indent : Nat) (next : Option Char) : List Char × Nat :=
  if next == some ' ' then ('\\' :: newLine indent ++ ['\\'], indent + 1)
  else ('\\' :: newLine indent, indent)

/-- The characters of a text in double quotes. `index` counts those before, `total` all of them, and
`waiting` those since the last escape, break or space that have taken no column yet. -/
def doubleQuoteBody (indent : Nat) (mayFold : Bool) (total : Nat) :
    (index column waiting : Nat) → List Char → List Char
  | _, _, _, [] => []
  | index, column, waiting, c :: rest =>
      let isInside := mayFold && 0 < index && index + 1 < total
      match doubleQuoteEscape? c with
      | some escape =>
          let after := column + waiting + escape.length
          if isInside && lineWidth + 1 < after then
            let (lineBreak, start) := doubleQuoteBreak indent rest.head?
            escape ++ lineBreak ++ doubleQuoteBody indent mayFold total (index + 1) start 0 rest
          else
            escape ++ doubleQuoteBody indent mayFold total (index + 1) after 0 rest
      | none =>
          if isInside && (c == ' ' || waiting == 0) && lineWidth < column + waiting then
            let (lineBreak, start) := doubleQuoteBreak indent (some c)
            lineBreak ++ c :: doubleQuoteBody indent mayFold total (index + 1) start 1 rest
          else
            c :: doubleQuoteBody indent mayFold total (index + 1) column (waiting + 1) rest

/-- A text that starts at a column; further lines of it are indented. -/
def writtenText (text : List Char) (isKey : Bool) (column indent : Nat) : List Char :=
  let fuel := text.length + 1
  match styleOf text isKey with
  | .plain => foldText indent (!isKey) false fuel true column text
  | .singleQuotes =>
      '\'' :: foldText indent (!isKey) true fuel true (column + 1) text ++ ['\'']
  | .doubleQuotes =>
      '"' :: doubleQuoteBody indent (!isKey) text.length 0 (column + 1) 0 text ++ ['"']

/-- The greatest length of a key on one line. -/
def keyLengthLimit : Nat := 122

/-- An entry of a mapping of texts at an indentation. A key that is empty, long or of several lines
has a mark of its own. -/
def writtenEntry (indent : Nat) (key value : List Char) : List Char :=
  let spaces := List.replicate indent ' '
  let isSimple := !key.isEmpty && key.length ≤ keyLengthLimit && !(analyzeText key).isMultiline
  if isSimple then
    let name := writtenText key true indent (indent + 2)
    spaces ++ name ++ ':' :: ' ' ::
      writtenText value false (indent + name.length + 2) (indent + 2) ++ ['\n']
  else
    spaces ++ '?' :: ' ' :: writtenText key false (indent + 2) (indent + 2) ++ newLine indent ++
      ':' :: ' ' :: writtenText value false (indent + 2) (indent + 2) ++ ['\n']

/-- A value of a flat document. -/
inductive FlatValue where
  /-- A number, a truth value or the absent value by its text. -/
  | plain (text : String)
  | texts (items : List String)
  | mapping (entries : List (String × String))

/-- The value of an entry after its name. -/
def FlatValue.written : FlatValue → List Char
  | .plain text => ' ' :: text.toList ++ ['\n']
  | .texts [] => " []\n".toList
  | .texts items =>
      '\n' :: items.flatMap fun item => '-' :: ' ' :: writtenText item.toList false 2 2 ++ ['\n']
  | .mapping [] => " \x7b\x7d\n".toList
  | .mapping entries =>
      '\n' :: entries.flatMap fun (key, value) => writtenEntry 2 key.toList value.toList

/-- The text of a flat document. -/
def encodeFlat (document : List (String × FlatValue)) : String :=
  String.ofList (document.flatMap fun (name, value) => name.toList ++ ':' :: value.written)

end Yaml

end Scorecard
