import Scorecard.CommandLine.Grammar
import Scorecard.Config.Template

/-!
# Commands

A command is what a command line asks for, with its options in their types. Words that neither the
program nor the command knows are gathered, those of the outer program first, and end the reading.
-/

namespace Scorecard

/-- Which code a command is about. -/
structure Selection where
  /-- Files, directories and the mark of the standard input. -/
  targets : List String
  language : Option String := none
  root : Option String := none
  /-- The files of the configuration. -/
  configs : List String := []
  /-- The file to which the JSON output is written. -/
  jsonPath : Option String := none
deriving DecidableEq

/-- What a command line asks for. -/
inductive Command where
  /-- The metrics of code. -/
  | analyze (selection : Selection)
  /-- The scores of code. -/
  | score (selection : Selection) (evaluation : Option String) (interview : Bool)
      (markdownPath : Option String) (failUnder workers : Option Int)
  /-- The prompts for an evaluator of code. -/
  | prompt (selection : Selection) (interview : Bool)
  /-- The statistics of reports. -/
  | stats (reports : List String)
  /-- The configuration in force. -/
  | showConfig (path : String) (configs : List String) (output : Option String)
  /-- A check of configuration files. -/
  | validateConfig (path : String) (configs : List String)
  /-- A new configuration file. -/
  | init (path : String) (output : Option String) (preset : Template) (force : Bool)
deriving DecidableEq

namespace CommandLine

/-- The name of the program. -/
def programName : String := "devscore"

/-- The version of the program. -/
def programVersion : String := "0.1.0"

/-- The name of the program with those of a command. -/
def programOf (commands : List String) : String :=
  " ".intercalate (programName :: commands)

/-- The option that asks for help. -/
def helpOption : OptionSpec := ⟨["-h", "--help"], .help⟩

/-- An option with one long name. -/
def long (name : String) (kind : OptionKind) : OptionSpec :=
  ⟨["--" ++ name], kind⟩

/-- The options that select code. -/
def selectionOptions : List OptionSpec :=
  [long "language" .text, long "root" .text, long "config" .text, long "json" .text]

/-- The grammar of the program. -/
def programGrammar : Grammar where
  program := programName
  options := [helpOption, long "version" .version, ⟨["-v", "--verbose"], .flag⟩]
  operands := .command "cmd" ["analyze", "score", "prompt", "stats", "config", "init"]

/-- The grammar of the command that gives metrics. -/
def analyzeGrammar : Grammar where
  program := programOf ["analyze"]
  options := helpOption :: selectionOptions
  operands := .several "targets"

/-- The grammar of the command that gives scores. -/
def scoreGrammar : Grammar where
  program := programOf ["score"]
  options := helpOption :: selectionOptions ++
    [long "evaluation" .text, long "interview" .flag, long "md" .text, long "fail-under" .integer,
      long "workers" .integer]
  operands := .several "targets"

/-- The grammar of the command that gives prompts. -/
def promptGrammar : Grammar where
  program := programOf ["prompt"]
  options := helpOption :: selectionOptions ++ [long "interview" .flag]
  operands := .several "targets"

/-- The grammar of the command that gives statistics. -/
def statsGrammar : Grammar where
  program := programOf ["stats"]
  options := [helpOption]
  operands := .several "reports"

/-- The grammar of the commands on configurations. -/
def configGrammar : Grammar where
  program := programOf ["config"]
  options := [helpOption]
  operands := .command "config_cmd" ["show", "validate"]

/-- The grammar of the command that shows a configuration. -/
def showConfigGrammar : Grammar where
  program := programOf ["config", "show"]
  options := [helpOption, long "config" .text, long "output" .text]
  operands := .optional "path"

/-- The grammar of the command that checks configuration files. -/
def validateConfigGrammar : Grammar where
  program := programOf ["config", "validate"]
  options := [helpOption, long "config" .text]
  operands := .optional "path"

/-- The grammar of the command that makes a configuration file. -/
def initGrammar : Grammar where
  program := programOf ["init"]
  options :=
    [helpOption, long "output" .text, long "preset" (.choice (Template.all.map Template.name)),
      long "force" .flag]
  operands := .optional "path"

end CommandLine

open CommandLine

/-- The selection that has been read. -/
def Selection.ofReading (reading : Reading) : Selection where
  targets := reading.operands.getD []
  language := reading.text? "--language"
  root := reading.text? "--root"
  configs := reading.texts "--config"
  jsonPath := reading.text? "--json"

namespace Command

/-- The directory among the operands, which is the current one if it is not given. -/
def directoryOf (reading : Reading) : String :=
  ((reading.operands.getD []).head?).getD "."

/-- The command of a name and the words after it, with the words that it does not know. -/
def ofWords (name : String) (words : List String) : Except Stop (Command × List String) :=
  match name with
  | "analyze" => do
      let reading ← analyzeGrammar.read words
      return (.analyze (.ofReading reading), reading.unknown)
  | "score" => do
      let reading ← scoreGrammar.read words
      return (.score (.ofReading reading) (reading.text? "--evaluation") (reading.has "--interview")
        (reading.text? "--md") (reading.integer? "--fail-under") (reading.integer? "--workers"),
        reading.unknown)
  | "prompt" => do
      let reading ← promptGrammar.read words
      return (.prompt (.ofReading reading) (reading.has "--interview"), reading.unknown)
  | "stats" => do
      let reading ← statsGrammar.read words
      return (.stats (reading.operands.getD []), reading.unknown)
  | "config" => do
      let outer ← configGrammar.read words
      let inner := (outer.operands.getD []).drop 1
      if (outer.operands.getD []).head? = some "show" then
        let reading ← showConfigGrammar.read inner
        return (.showConfig (directoryOf reading) (reading.texts "--config")
          (reading.text? "--output"), outer.unknown ++ reading.unknown)
      else
        let reading ← validateConfigGrammar.read inner
        return (.validateConfig (directoryOf reading) (reading.texts "--config"),
          outer.unknown ++ reading.unknown)
  | _ => do
      let reading ← initGrammar.read words
      let preset := (reading.text? "--preset").bind Template.ofName?
      return (.init (directoryOf reading) (reading.text? "--output") (preset.getD .full)
        (reading.has "--force"), reading.unknown)

/-- The command that a command line asks for. -/
def ofArguments (arguments : List String) : Except Stop Command := do
  let outer ← programGrammar.read arguments
  let words := outer.operands.getD []
  let (command, unknown) ← ofWords (words.head?.getD "") (words.drop 1)
  match outer.unknown ++ unknown with
  | [] => return command
  | left => throw (.misuse programName (.unrecognized left))

end Command

end Scorecard
