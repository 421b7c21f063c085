import Scorecard.Text.Lines
import Scorecard.Text.Pattern

/-!
# Probes

A probe fires or does not fire on a text, however often what it looks for occurs. Most probes are
patterns. One looks for texts that stand in a given order on one line: the earliest occurrence of
each leaves the most room for the rest, so one pass over each line decides.
-/

namespace Scorecard

/-- Something that fires on a text or does not. -/
inductive Probe where
  /-- The pattern occurs. -/
  | pattern (shape : Pattern)
  /-- One line holds the texts one after the other. -/
  | ordered (tokens : List String)

/-- Whether a line holds the texts in order, each after the end of the one before. -/
def holdsInOrder : List String → List Char → Bool
  | [], _ => true
  | token :: tokens, line =>
      match dropThrough? token.toList line with
      | none => false
      | some after => holdsInOrder tokens after

/-- Whether one line of a text holds the texts in order. -/
def orderedTokensFire (tokens : List String) (source : List Char) : Bool :=
  (splitLines source).any (holdsInOrder tokens)

namespace Probe

/-- Whether the probe fires. -/
def fires (probe : Probe) (source : List Char) : Bool :=
  match probe with
  | .pattern shape => shape.occursIn source
  | .ordered tokens => orderedTokensFire tokens source

end Probe

/-- How many of the probes fire. -/
def countFiring (probes : List Probe) (source : List Char) : Nat :=
  probes.countP (·.fires source)

/-- A character that is a quote. -/
def isQuote (c : Char) : Bool :=
  c == '"' || c == '\''

/-- The rest of a credential after its name: a sign and a text in quotes that is not empty. -/
def quotedValue : List Step :=
  [.blanks, .char '=', .blanks, .one isQuote, .nonemptyRun (!isQuote ·), .one isQuote]

/-- A name up to case that is given a text in quotes. -/
def credential (name : String) : Probe :=
  .pattern [Step.caseless name ++ quotedValue]

/-- The name of an interface key, its words set apart by at most one character, that is given a text
in quotes. -/
def interfaceKey : Probe :=
  .pattern [Step.caseless "api" ++ [.optional fun c => c == '_' || c == '-'] ++
    Step.caseless "key" ++ quotedValue]

/-- A call: the name, blanks and an opening parenthesis. -/
def call (name : String) : List Step :=
  Step.literal name ++ [.blanks, .char '(']

/-- The call of a risky function. -/
def riskyCall (name : String) : Probe :=
  .pattern [call name]

end Scorecard
