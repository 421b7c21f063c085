import Scorecard.Text.Lines
import Scorecard.Text.Pattern

/-!
# Nested loops

The depth of nested loops is read off line by line. In code with braces a loop header goes one level
down and a line with a closing brace one level up. In code with indentation the enclosing loops are
those whose indent is smaller and has stayed smaller since. Depths below the threshold are not worth
a note.
-/

namespace Scorecard

/-- The least depth of nesting that is reported. -/
def nestingThreshold : Nat := 3

/-- A depth that reaches the threshold, or zero. -/
def reportedDepth (depth : Nat) : Nat :=
  if nestingThreshold ≤ depth then depth else 0

/-- The indent of a line: the count of blanks before its first other character; a blank line has
none. -/
def indentOf? (line : List Char) : Option Nat :=
  let indent := (line.takeWhile isBlank).length
  if indent = line.length then none else some indent

/-- The head of a loop in code with braces: its word and a condition in parentheses. -/
def braceLoop : Pattern :=
  [Step.literal "for" ++ [.blanks, .char '('] ++ Step.upTo ')',
    Step.literal "while" ++ [.blanks, .char '('] ++ Step.upTo ')']

/-- The head of a loop at the start of an indented line. -/
def indentLoop : Pattern :=
  [[.blanks] ++ Step.literal "for" ++ [.gap], [.blanks] ++ Step.literal "while" ++ [.gap]]

/-- The current and the greatest depth. -/
structure BraceNesting where
  depth : Nat
  deepest : Nat

/-- The depths after one more line. -/
def BraceNesting.next (state : BraceNesting) (line : List Char) : BraceNesting :=
  let depth := if braceLoop.occursIn line then state.depth + 1 else state.depth
  { depth := if line.contains '}' then depth - 1 else depth
    deepest := max state.deepest depth }

/-- The depth of nested loops in code with braces. -/
def braceNestingDepth (source : List Char) : Nat :=
  reportedDepth ((splitLines source).foldl BraceNesting.next ⟨0, 0⟩).deepest

/-- The indents of the enclosing loops, innermost first, and the greatest count of them. -/
structure IndentNesting where
  enclosing : List Nat
  deepest : Nat

/-- The enclosing loops after one more line: those indented no less than the line have ended. -/
def IndentNesting.next (state : IndentNesting) (line : List Char) : IndentNesting :=
  match indentOf? line with
  | none => state
  | some indent =>
      let enclosing := state.enclosing.dropWhile (indent ≤ ·)
      if indentLoop.matchesStart line then
        { enclosing := indent :: enclosing, deepest := max state.deepest (enclosing.length + 1) }
      else
        { state with enclosing }

/-- The depth of nested loops in code with indentation. -/
def indentNestingDepth (source : List Char) : Nat :=
  reportedDepth ((splitLines source).foldl IndentNesting.next ⟨[], 0⟩).deepest

end Scorecard
