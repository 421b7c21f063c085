import Scorecard.Json.Problem
import Scorecard.Text.Utf8

/-!
# Faults

A fault is a reason why an answer cannot be given. Each names its cause; the wording is one function
of the cause. Which faults a caller recovers from is a matter of their kind: a broken document is
one kind, a file that cannot be reached another.
-/

namespace Scorecard

/-- Why the file system refuses an operation. -/
inductive FileProblem where
  | missing
  | isDirectory
  | notDirectory
  | exists
deriving DecidableEq

/-- The number and wording of a refusal. -/
def FileProblem.message : FileProblem → String
  | .missing => "[Errno 2] No such file or directory"
  | .isDirectory => "[Errno 21] Is a directory"
  | .notDirectory => "[Errno 20] Not a directory"
  | .exists => "[Errno 17] File exists"

/-- Which part of a date or time is out of range. -/
inductive CalendarProblem where
  | year (value : Int)
  | month
  | day
  | hour
  | minute
  | second
  | offset
deriving DecidableEq

/-- The wording of a part that is out of range. -/
def CalendarProblem.message : CalendarProblem → String
  | .year value => s!"year {value} is out of range"
  | .month => "month must be in 1..12"
  | .day => "day is out of range for month"
  | .hour => "hour must be in 0..23"
  | .minute => "minute must be in 0..59"
  | .second => "second must be in 0..59"
  | .offset => "offset must be strictly between -24 and 24 hours"

/-- The greatest count of digits that an integer may have when it is read from or written to
text. -/
def digitLimit : Nat := 4300

/-- Why an answer cannot be given. -/
inductive Fault where
  /-- An integer is too large to be a float. -/
  | integerBeyondFloat
  /-- The quotient of two integers is too large to be a float. -/
  | quotientBeyondFloat
  /-- An infinity has no integer part. -/
  | infinityToInteger
  /-- What is not a number has no integer part. -/
  | nanToInteger
  /-- A numeral has more digits than are read. -/
  | numeralTooLong (digits : Nat)
  /-- An integer has more digits than are written. -/
  | integerTooLong
  /-- A text is not JSON. -/
  | malformedJson (problem : Json.Problem)
  /-- A text is not YAML, or holds a value that cannot be built. -/
  | malformedYaml
  /-- A text that is to be an integer of the given base is none. -/
  | notAnInteger (base : Nat) (text : String)
  /-- A text that is to be a float is none. -/
  | notAFloat (text : String)
  /-- A text that is to be a numeral is empty. -/
  | emptyNumeral
  /-- A date or time is outside the calendar. -/
  | calendar (problem : CalendarProblem)
  /-- Octets are not UTF-8. -/
  | undecodable (problem : Utf8.Problem)
  /-- A line of ignore rules is not a pattern. -/
  | invalidPattern (line : String)
  /-- A bracket expression holds a range that runs downwards. -/
  | descendingRange
  /-- The file system refuses an operation on the path. -/
  | file (problem : FileProblem) (path : String)
deriving DecidableEq

namespace Fault

/-- The wording of a fault. -/
def message : Fault → String
  | .integerBeyondFloat => "int too large to convert to float"
  | .quotientBeyondFloat => "integer division result too large for a float"
  | .infinityToInteger => "cannot convert float infinity to integer"
  | .nanToInteger => "cannot convert float NaN to integer"
  | .numeralTooLong digits =>
      s!"Exceeds the limit ({digitLimit} digits) for integer string conversion: value has " ++
        s!"{digits} digits; use sys.set_int_max_str_digits() to increase the limit"
  | .integerTooLong =>
      s!"Exceeds the limit ({digitLimit} digits) for integer string conversion; " ++
        "use sys.set_int_max_str_digits() to increase the limit"
  | .malformedJson problem => problem.message
  | .malformedYaml => "<yaml error>"
  | .notAnInteger base text =>
      s!"invalid literal for int() with base {base}: {String.ofList (quoted text.toList)}"
  | .notAFloat text => s!"could not convert string to float: {String.ofList (quoted text.toList)}"
  | .emptyNumeral => "string index out of range"
  | .calendar problem => problem.message
  | .undecodable problem => problem.message
  | .invalidPattern line => s!"Invalid git pattern: {String.ofList (quoted line.toList)}"
  | .descendingRange => "bad character range"
  | .file problem path => s!"{problem.message}: {String.ofList (quoted path.toList)}"

/-- Whether the fault lies with the file system. -/
def isFileProblem : Fault → Bool
  | .file .. => true
  | _ => false

/-- Whether the fault lies with a value that a reader was given. -/
def isBadValue : Fault → Bool
  | .nanToInteger => true
  | .numeralTooLong _ => true
  | .integerTooLong => true
  | .malformedJson _ => true
  | .notAnInteger .. => true
  | .notAFloat _ => true
  | .calendar _ => true
  | .undecodable _ => true
  | .invalidPattern _ => true
  | _ => false

end Fault

end Scorecard
