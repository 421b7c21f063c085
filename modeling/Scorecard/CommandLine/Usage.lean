import Scorecard.Text.Quoted

/-!
# Usage problems

A usage problem is a reason why a command line cannot be read. Each names its cause and, where there
is one, the option or operand that it concerns.
-/

namespace Scorecard

namespace CommandLine

/-- Why a command line cannot be read. -/
inductive UsageProblem where
  /-- The start of an option's name fits several names. -/
  | ambiguousOption (word : String) (candidates : List String)
  /-- An option that takes no value has one attached. -/
  | unwantedValue (option value : String)
  /-- An option that takes a value has none. -/
  | missingValue (option : String)
  /-- A value that is to be an integer is none. -/
  | notInteger (option value : String)
  /-- A value is none of the choices. -/
  | notChoice (argument value : String) (choices : List String)
  /-- An operand is missing. -/
  | missingOperand (name : String)
  /-- Words are neither options nor operands. -/
  | unrecognized (words : List String)
deriving DecidableEq

/-- A text in quotes. -/
def inQuotes (text : String) : String :=
  String.ofList (quoted text.toList)

/-- The wording of a usage problem. -/
def UsageProblem.message : UsageProblem → String
  | .ambiguousOption word candidates =>
      s!"ambiguous option: {word} could match " ++ ", ".intercalate candidates
  | .unwantedValue option value => s!"argument {option}: ignored explicit argument {inQuotes value}"
  | .missingValue option => s!"argument {option}: expected one argument"
  | .notInteger option value => s!"argument {option}: invalid int value: {inQuotes value}"
  | .notChoice argument value choices =>
      s!"argument {argument}: invalid choice: {inQuotes value} (choose from " ++
        ", ".intercalate (choices.map inQuotes) ++ ")"
  | .missingOperand name => s!"the following arguments are required: {name}"
  | .unrecognized words => "unrecognized arguments: " ++ " ".intercalate words

/-- Why the reading of a command line ends without a command. -/
inductive Stop where
  /-- The version is asked for. -/
  | version
  /-- Help on a program is asked for. -/
  | help (program : String)
  /-- A program is not used as it should be. -/
  | misuse (program : String) (problem : UsageProblem)
deriving DecidableEq

end CommandLine

end Scorecard
