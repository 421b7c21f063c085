import Scorecard.Data

/-!
# Static metrics

Six counts describe a piece of code. On the wire each has a name in camel case; a reader also takes
the name in snake case, makes negative counts zero and holds the last count to zero or one. Anything
that denotes no integer counts zero.
-/

namespace Scorecard

/-- The counts of a piece of code. -/
structure Metrics where
  /-- The depth of nested loops, if it is worth a note. -/
  nestedLoops : Int := 0
  /-- How often the code writes to the console. -/
  consoleLogs : Int := 0
  /-- How many functions are too long. -/
  longFunctions : Int := 0
  /-- How many kinds of risky code occur. -/
  securityRisks : Int := 0
  /-- How many names say little. -/
  poorNaming : Int := 0
  /-- Whether risky operations are not guarded. -/
  missingErrorHandling : Int := 0
deriving DecidableEq

namespace Metrics

/-- No counts at all. -/
def zero : Metrics := {}

/-- The counts with their names on the wire, in their order. -/
def named (metrics : Metrics) : List (String × Int) :=
  [("nestedLoops", metrics.nestedLoops), ("consoleLogs", metrics.consoleLogs),
    ("longFunctions", metrics.longFunctions), ("securityRisks", metrics.securityRisks),
    ("poorNaming", metrics.poorNaming), ("missingErrorHandling", metrics.missingErrorHandling)]

/-- Whether every count is zero. -/
def isClean (metrics : Metrics) : Bool :=
  metrics.named.all fun (_, count) => count == 0

/-- The counts as a document. -/
def toData (metrics : Metrics) : Data :=
  .mapping (metrics.named.map fun (name, count) => (.text name, .int count))

/-- The count under one of two names; the first name is asked first, and a value that denotes no
integer counts zero. -/
def countIn (entries : Entries) (wireName plainName : String) : Except Fault Int := do
  let value := ((entries.get? wireName).orElse fun _ => entries.get? plainName).getD (.int 0)
  return max 0 ((← value.toInteger?).getD 0)

/-- The counts that a document holds; a document that is no mapping holds none. -/
def ofData (data : Data) : Except Fault Metrics :=
  match data with
  | .mapping entries => do
      let nestedLoops ← countIn entries "nestedLoops" "nested_loops"
      let consoleLogs ← countIn entries "consoleLogs" "console_logs"
      let longFunctions ← countIn entries "longFunctions" "long_functions"
      let securityRisks ← countIn entries "securityRisks" "security_risks"
      let poorNaming ← countIn entries "poorNaming" "poor_naming"
      let missing ← countIn entries "missingErrorHandling" "missing_error_handling"
      return {
        nestedLoops, consoleLogs, longFunctions, securityRisks, poorNaming
        missingErrorHandling := min 1 missing }
  | _ => .ok .zero

end Metrics

end Scorecard
