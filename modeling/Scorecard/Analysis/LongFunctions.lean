import Scorecard.Analysis.Nesting

/-!
# Long functions

In code with braces a function starts at a line that holds a signature and opens more braces than it
closes, and ends where the braces balance. In code with indentation it starts at a definition and
ends before the next line that is indented no deeper. Functions inside another one belong to it. A
function is long if it spans more lines than the limit.
-/

namespace Scorecard

/-- The greatest count of lines of a function that is not long. -/
def functionLineLimit : Int := 50

/-- How many more braces a line opens than it closes. -/
def braceDelta (line : List Char) : Int :=
  (line.count '{' : Int) - line.count '}'

/-- A function that has started and not ended, and the count of long ones before it. -/
structure FunctionScan (α : Type) where
  /-- The lines so far and what tells where the function ends. -/
  current : Option (Nat × α)
  long : Nat

/-- The count of long functions, the unfinished one included. -/
def FunctionScan.total {α : Type} (state : FunctionScan α) (limit : Int) : Nat :=
  match state.current with
  | none => state.long
  | some (span, _) => if limit < span then state.long + 1 else state.long

/-- A pattern tells of a line whether it occurs in it. -/
instance : Coe Pattern (List Char → Bool) where
  coe := Pattern.occursIn

/-- One more line of code with braces; the open braces tell where a function ends. -/
def nextBraceLine (hasSignature : List Char → Bool) (limit : Int) (state : FunctionScan Int)
    (line : List Char) : FunctionScan Int :=
  match state.current with
  | none =>
      if hasSignature line ∧ 0 < braceDelta line then
        { state with current := some (1, braceDelta line) }
      else
        state
  | some (span, balance) =>
      let grown : FunctionScan Int :=
        { state with current := some (span + 1, balance + braceDelta line) }
      if balance + braceDelta line ≤ 0 then { current := none, long := grown.total limit }
      else grown

/-- The count of long functions in code with braces. -/
def countLongBraceFunctions (source : List Char) (hasSignature : List Char → Bool)
    (limit : Int) : Nat :=
  ((splitLines source).foldl (nextBraceLine hasSignature limit) ⟨none, 0⟩).total limit

/-- The head of a definition at the start of an indented line. -/
def indentDefinition : Pattern :=
  [[.blanks] ++ Step.literal "def" ++ [.gap, .word, .blanks, .char '(']]

/-- Whether a line ends a function with the given indent: it is not blank and not indented
deeper. -/
def endsFunction (indent : Nat) (line : List Char) : Bool :=
  match indentOf? line with
  | none => false
  | some lineIndent => lineIndent ≤ indent

/-- One more line of code with indentation; the indent of its definition tells where a function
ends. -/
def nextIndentLine (limit : Int) (state : FunctionScan Nat) (line : List Char) : FunctionScan Nat :=
  let start (state : FunctionScan Nat) : FunctionScan Nat :=
    if indentDefinition.matchesStart line then
      { state with current := some (1, (indentOf? line).getD 0) }
    else
      state
  match state.current with
  | none => start state
  | some (span, indent) =>
      if endsFunction indent line then start { current := none, long := state.total limit }
      else { state with current := some (span + 1, indent) }

/-- The count of long functions in code with indentation. -/
def countLongIndentFunctions (source : List Char) (limit : Int) : Nat :=
  ((splitLines source).foldl (nextIndentLine limit) ⟨none, 0⟩).total limit

end Scorecard
