import Scorecard.Analysis.LongFunctions
import Scorecard.Analysis.Metrics
import Scorecard.Analysis.Naming
import Scorecard.Analysis.Probes
import Scorecard.Language

/-!
# The rules of the families

The rules of a family are data: what writes to the console, which probes tell of risks, what guards
an operation and which operations need a guard, and how functions and loops are laid out. The
analysis is one function of the rules and a text. It parses nothing, so comments and strings count
like any text.
-/

namespace Scorecard

/-- How operations that may fail are guarded. -/
structure ErrorHandling where
  tryBlock : Pattern
  catchBlock : Pattern
  riskyOperation : Pattern

/-- How blocks are laid out. -/
inductive BlockLayout where
  /-- Braces around blocks; the pattern is a signature of a function. -/
  | braces (signature : Pattern)
  /-- Blocks by indentation. -/
  | indentation

/-- The lexical rules of a family. -/
structure Rules where
  layout : BlockLayout
  consoleLog : Pattern
  securityProbes : List Probe
  errorHandling : ErrorHandling

/-- One if a text has risky operations and not both parts of a guard, else zero. -/
def missingErrorHandling (source : List Char) (handling : ErrorHandling) : Nat :=
  if handling.riskyOperation.count source = 0 then 0
  else if handling.tryBlock.count source = 0 ∨ handling.catchBlock.count source = 0 then 1
  else 0

namespace BlockLayout

/-- The depth of nested loops. -/
def nestingDepth (layout : BlockLayout) (source : List Char) : Nat :=
  match layout with
  | .braces _ => braceNestingDepth source
  | .indentation => indentNestingDepth source

/-- The count of functions longer than the limit. -/
def countLongFunctions (layout : BlockLayout) (source : List Char) (limit : Int) : Nat :=
  match layout with
  | .braces signature => countLongBraceFunctions source signature limit
  | .indentation => countLongIndentFunctions source limit

end BlockLayout

namespace Rules

/-- A parameter list in parentheses. -/
def parameters : List Step :=
  [.char '('] ++ Step.upTo ')'

/-- Blanks and an opening brace. -/
def body : List Step := [.blanks, .char '\x7b']

/-- The guard of families with braces: an operation tried in a block and a handler. -/
def braceTry : Pattern := [Step.literal "try" ++ body]

/-- The handler of families with braces. -/
def braceCatch : Pattern := [call "catch"]

/-- The rules for scripts of the web: a signature is a named function, a named arrow function or a
method. -/
def js : Rules where
  layout := .braces [
    Step.literal "function" ++ [.gap, .word, .blanks] ++ parameters ++ body,
    Step.literal "const" ++ [.gap, .word, .blanks, .char '=', .blanks] ++ parameters ++ [.blanks] ++
      Step.literal "=>" ++ body,
    [.word, .blanks] ++ parameters ++ body]
  consoleLog := [Step.literal "console.log"]
  securityProbes := [credential "password", interfaceKey, credential "secret", credential "token",
    riskyCall "eval", .ordered ["SELECT", "FROM", "WHERE", "+"]]
  errorHandling := {
    tryBlock := braceTry
    catchBlock := braceCatch
    riskyOperation := [Step.literal "await", Step.literal ".then("] }

/-- The rules for code with indentation. -/
def python : Rules where
  layout := .indentation
  consoleLog := [call "print"]
  securityProbes := [credential "password", interfaceKey, credential "secret", riskyCall "eval",
    riskyCall "exec", .pattern [Step.literal "pickle.loads"]]
  errorHandling := {
    tryBlock := [Step.literal "try:"]
    catchBlock := [Step.literal "except"]
    riskyOperation := [call "open"] }

/-- The rules for code with typed signatures. -/
def cpp : Rules where
  layout := .braces [[.word, .gap, .word, .blanks] ++ parameters ++ body]
  consoleLog := [Step.literal "cout" ++ [.blanks] ++ Step.literal "<<"]
  securityProbes := [riskyCall "gets", riskyCall "strcpy", riskyCall "strcat", riskyCall "sprintf"]
  errorHandling := {
    tryBlock := braceTry
    catchBlock := braceCatch
    riskyOperation := [Step.literal "fopen", Step.literal "ifstream", Step.literal "ofstream"] }

/-- The metrics of a text under the rules. -/
def analyze (rules : Rules) (source : List Char) : Metrics where
  nestedLoops := rules.layout.nestingDepth source
  consoleLogs := rules.consoleLog.count source
  longFunctions := rules.layout.countLongFunctions source functionLineLimit
  securityRisks := countFiring rules.securityProbes source
  poorNaming := countPoorNaming source
  missingErrorHandling := missingErrorHandling source rules.errorHandling

end Rules

/-- The rules of a family. -/
def Family.rules : Family → Rules
  | .js => .js
  | .python => .python
  | .cpp => .cpp

end Scorecard
