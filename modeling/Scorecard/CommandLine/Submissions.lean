import Scorecard.CommandLine.Command
import Scorecard.CommandLine.Session
import Scorecard.Config.Loading
import Scorecard.Evaluation.Basic
import Scorecard.Selection.Discovery
import Scorecard.Timestamp

/-!
# Submissions of a command line

The code that a command line selects is gathered as submissions: the standard input first, then the
files that the targets stand for, each with its path from the root as its label and the time of its
last change.
-/

namespace Scorecard

/-- The target that stands for the standard input. -/
def inputTarget : String := "-"

/-- A text that is given and not empty. -/
def given? (text : Option String) : Option String :=
  text.filter (· != "")

namespace Surroundings

/-- The text of the standard input, with line feeds for all line ends. -/
def inputText (surroundings : Surroundings) : Except Fault String :=
  match Utf8.decode surroundings.input with
  | .ok text => .ok (String.ofList (universalNewlines text))
  | .error problem => .error (.undecodable problem)

end Surroundings

namespace Selection

/-- The targets that are paths. -/
def paths (selection : Selection) : List Path :=
  (selection.targets.filter (· != inputTarget)).map Path.ofString

/-- Whether code comes from the standard input. -/
def takesInput (selection : Selection) : Bool :=
  selection.targets.contains inputTarget

/-- The root: the one that is given, or the directory among the targets if there is just one, or the
current directory. -/
def rootIn (selection : Selection) (tree : FileTree) : Path :=
  match given? selection.root with
  | some root => (Path.ofString root).resolve tree.here
  | none =>
      match selection.paths.filter tree.isDirectory with
      | [directory] => directory.resolve tree.here
      | _ => tree.here

/-- The configuration files that are named, if any are. -/
def namedConfigs (configs : List String) : Option (List Path) :=
  if configs.isEmpty then none else some (configs.map Path.ofString)

end Selection

/-- The path from the root, or the path as it is if it does not lead below the root. -/
def labelOf (tree : FileTree) (root path : Path) : String :=
  match (path.resolve tree.here).below? (root.resolve tree.here) with
  | some relative => relative.display
  | none => path.display

/-- The submission of a source file. -/
def submissionOfFile (tree : FileTree) (root : Path) (language : Option String)
    (interviewMode : Bool) (path : Path) : Except Fault Submission := do
  let text ← tree.readTextReplacing path
  let (_, modified) ← tree.readFile path
  let name := ((given? language).or (Language.ofPath? path)).getD ""
  return {
    code := .text (String.ofList text)
    language := .text name
    interviewMode
    label := labelOf tree root path
    submittedAt := ← Timestamp.render modified }

/-- The submissions of source files; one that cannot be read is left out, which is noted. -/
def submissionsOfFiles (root : Path) (language : Option String) (interviewMode : Bool) :
    List Path → Action (List Submission)
  | [] => return []
  | path :: rest => do
      match submissionOfFile (← Action.tree) root language interviewMode path with
      | .ok submission =>
          return submission :: (← submissionsOfFiles root language interviewMode rest)
      | .error fault =>
          if fault.isFileProblem then
            Action.note (.skippedSource path.display fault)
            submissionsOfFiles root language interviewMode rest
          else
            throw fault

/-- The submission of the standard input. -/
def submissionOfInput (surroundings : Surroundings) (language : String) (interviewMode : Bool) :
    Except Fault Submission := do
  return {
    code := .text (← surroundings.inputText), language := .text language, interviewMode,
    label := "<stdin>" }

/-- The submissions of a selection. There are none to be had if the standard input has no language
or a target does not exist, which is noted. -/
def gatherSubmissions (surroundings : Surroundings) (selection : Selection) (config : Config)
    (root : Path) (interviewMode : Bool) : Action (Option (List Submission)) := do
  if selection.takesInput && (given? selection.language).isNone then
    Action.note .languageRequired
    return none
  let fromInput ← if selection.takesInput then
      let language := selection.language.getD ""
      Action.ofExcept ((submissionOfInput surroundings language interviewMode).map ([·]))
    else pure []
  let tree ← Action.tree
  let missing := selection.paths.filter fun path => !tree.contains path
  if !missing.isEmpty then
    missing.forM fun path => Action.note (.missingTarget path.display)
    return none
  let files ← if selection.paths.isEmpty then pure []
    else Action.ofExcept (Discovery.files tree root config selection.paths)
  let submissions :=
    fromInput ++ (← submissionsOfFiles root selection.language interviewMode files)
  if submissions.isEmpty then Action.note .nothingSelected
  return some submissions

end Scorecard
