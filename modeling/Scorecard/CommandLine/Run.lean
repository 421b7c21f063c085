import Scorecard.CommandLine.Submissions
import Scorecard.Config.Validation
import Scorecard.Evaluation.Pipeline
import Scorecard.Evaluation.Prompt
import Scorecard.Report.Markdown
import Scorecard.Report.Reader
import Scorecard.Report.Statistics

/-!
# Running commands

A command succeeds or fails, and does so for reasons that are noted; a fault ends it early. A
command that fails has changed no file, except that scores below the threshold are known only after
the report is written.
-/

namespace Scorecard

/-- How a command ends. -/
inductive Exit where
  | success
  | failure
deriving DecidableEq

/-- The number that a command ends with. -/
def Exit.code : Exit → Nat
  | .success => 0
  | .failure => 1

namespace Command

/-- Loads the configuration of a selection. -/
def loadConfig (root : Path) (configs : List String) : Action Config := do
  Action.ofRecorded (Config.load (← Action.tree) root (Selection.namedConfigs configs))

/-- Writes a document to a file if one is given, and else prints the text that stands for it. -/
def deliver (jsonPath : Option String) (output : String) (now : Int) (document : Data)
    (printed : Except Fault String) : Action Unit := do
  match given? jsonPath with
  | none => Action.print (← Action.ofExcept printed)
  | some path => do
      let text ← Action.ofExcept (Json.encode .indented document)
      Action.writeText (.ofString path) text now
      Action.note (.wrote output path)

/-- What the analysis of a submission shows. -/
def analysisOf (routes : Routes) (submission : Submission) : Recorded Data := do
  let metrics ← Scorecard.analyze submission.code submission.language routes
  let family ← Recorded.ofExcept (Language.familyOf submission.language routes)
  let name ← Recorded.ofExcept (Language.nameText submission.language)
  let penalty := staticPenalty metrics
  return .mapping [
    (.text "label", .text submission.label),
    (.text "language", .text (Language.normalize name)),
    (.text "family", optionalText (family.map Family.name)),
    (.text "static_analysis", metrics.toData),
    (.text "static_penalty", .int penalty),
    (.text "applied_penalty", .int (appliedPoints penalty))]

/-- Gives the metrics of a selection. -/
def runAnalyze (surroundings : Surroundings) (selection : Selection) : Action Exit := do
  let root := selection.rootIn (← Action.tree)
  let config ← loadConfig root selection.configs
  match ← gatherSubmissions surroundings selection config root false with
  | none => return .failure
  | some submissions => do
      let analyses ← Action.ofRecorded (submissions.mapM (analysisOf config.languageRoutes))
      deliver selection.jsonPath "static analysis" surroundings.now (.list analyses)
        (Json.encode .indented (.list analyses))
      return .success

/-- The prompt for a submission, and what is shown with it. -/
def promptOf (routes : Routes) (interviewMode : Bool) (submission : Submission) :
    Recorded (String × Data) := do
  let metrics ← Scorecard.analyze submission.code submission.language routes
  let name ← Recorded.ofExcept (Language.nameText submission.language)
  let language := if Language.normalize name = "" then name else Language.normalize name
  let code := String.ofList (← Recorded.ofExcept (codeText submission.code))
  let prompt ← Recorded.ofExcept (Prompt.build code language interviewMode metrics)
  return (prompt, .mapping [
    (.text "label", .text submission.label),
    (.text "language", .text language),
    (.text "interview_mode", .bool interviewMode),
    (.text "static_analysis", metrics.toData),
    (.text "prompt", .text prompt)])

/-- What stands between prompts. -/
def promptSeparator : String := "\n\n---\n\n"

/-- Gives the prompts for a selection. -/
def runPrompt (surroundings : Surroundings) (selection : Selection) (interview : Bool) :
    Action Exit := do
  let root := selection.rootIn (← Action.tree)
  let config ← loadConfig root selection.configs
  let interviewMode := interview || config.interviewMode
  match ← gatherSubmissions surroundings selection config root interviewMode with
  | none => return .failure
  | some submissions => do
      let prompts ← Action.ofRecorded
        (submissions.mapM (promptOf config.languageRoutes interviewMode))
      deliver selection.jsonPath "evaluation prompts" surroundings.now (.list (prompts.map (·.2)))
        (.ok (promptSeparator.intercalate (prompts.map (·.1))))
      return .success

/-- The evaluator that a command line names. -/
def evaluatorOf (surroundings : Surroundings) (evaluation : Option String) : Action Evaluator := do
  match given? evaluation with
  | none => do
      Action.note .neutralScores
      return .neutral
  | some name =>
      if name = inputTarget then
        return .payload (← Action.ofExcept surroundings.inputText)
      else
        return .file (.ofString name)

/-- The report on submissions and their results. -/
def reportOn (now : Int) (submissions : List Submission) (results : List EvaluationResult) :
    Except Fault Report := do
  let generatedAt ← Timestamp.render now
  let entries := (submissions.zip results).map fun (submission, result) =>
    { label := submission.label
      submittedAt := if submission.submittedAt = "" then generatedAt else submission.submittedAt
      result : SubmissionReport }
  let statistics ← Statistics.ofReports entries
  return { schemaVersion, generatedAt, submissions := entries, statistics := some statistics }

/-- Writes a report to the files that are given, and prints it if no Markdown file is. -/
def deliverReport (report : Report) (jsonPath markdownPath : Option String) (now : Int) :
    Action Unit := do
  match given? jsonPath with
  | none => pure ()
  | some path => do
      Action.replaceTree (report.write (← Action.tree) (.ofString path) now)
      Action.note (.wrote "JSON report" path)
  let markdown ← Action.ofExcept (report.toMarkdown Report.defaultMaxItems)
  match given? markdownPath with
  | none => Action.print markdown
  | some path => do
      Action.writeText (.ofString path) markdown now
      Action.note (.wrote "Markdown report" path)

/-- The entries of a report below a threshold. -/
def entriesBelow (report : Report) (threshold : Int) : List SubmissionReport :=
  report.submissions.filter fun entry => entry.result.devScore < threshold

/-- Fails if an entry of a report is below the threshold, if there is one. -/
def gate (report : Report) (threshold : Option Int) : Action Exit := do
  match threshold with
  | none => return .success
  | some least => do
      let failing := entriesBelow report least
      failing.forM fun entry =>
        Action.note (.belowThreshold (labelOrDefault entry.label) entry.result.devScore least)
      return if failing.isEmpty then .success else .failure

/-- Scores a selection and delivers the report, which comes with the configuration in force; there
is none if the selection is not to be had. -/
def deliverScores (surroundings : Surroundings) (selection : Selection) (evaluation : Option String)
    (interview : Bool) (markdownPath : Option String) : Action (Option (Report × Config)) := do
  let root := selection.rootIn (← Action.tree)
  let config ← loadConfig root selection.configs
  let interviewMode := interview || config.interviewMode
  if evaluation = some inputTarget && selection.takesInput then
    Action.note .inputTakenTwice
    return none
  match ← gatherSubmissions surroundings selection config root interviewMode with
  | none => return none
  | some submissions => do
      let evaluator ← evaluatorOf surroundings evaluation
      let results ← Action.ofRecorded
        (evaluateAll (← Action.tree) evaluator config.languageRoutes submissions)
      let report ← Action.ofExcept (reportOn surroundings.now submissions results)
      deliverReport report selection.jsonPath markdownPath surroundings.now
      return some (report, config)

/-- Gives the scores of a selection under the threshold that the configuration leads to. -/
def runScoreUnder (threshold : Config → Option Int) (surroundings : Surroundings)
    (selection : Selection) (evaluation : Option String) (interview : Bool)
    (markdownPath : Option String) : Action Exit := do
  match ← deliverScores surroundings selection evaluation interview markdownPath with
  | none => return .failure
  | some (report, config) => gate report (threshold config)

/-- Gives the scores of a selection. A threshold on the command line stands before that of the
configuration. -/
def runScore (surroundings : Surroundings) (selection : Selection) (evaluation : Option String)
    (interview : Bool) (markdownPath : Option String) (failUnder : Option Int) : Action Exit :=
  runScoreUnder (fun config => failUnder.or config.failUnder) surroundings selection evaluation
    interview markdownPath

/-- The entries of reports, in the order of the files, or none if one cannot be read, which is
noted. -/
def readReports : List Path → Action (Option (List SubmissionReport))
  | [] => return some []
  | path :: rest => do
      match Report.read (← Action.tree) path with
      | .ok report => return (← readReports rest).map (report.submissions ++ ·)
      | .error fault =>
          if fault.isFileProblem || fault.isBadValue then
            Action.note (.unreadableReport path.display fault)
            return none
          else
            throw fault

/-- Gives the statistics of reports. -/
def runStats (reports : List String) : Action Exit := do
  match ← readReports (reports.map Path.ofString) with
  | none => return .failure
  | some entries => do
      let statistics ← Action.ofExcept (Statistics.ofReports entries)
      Action.print (← Action.ofExcept (Json.encode .indented statistics.toData))
      return .success

/-- Shows the configuration in force. -/
def runShowConfig (now : Int) (path : String) (configs : List String) (output : Option String) :
    Action Exit := do
  let root := (Path.ofString path).resolve (← Action.tree).here
  let config ← loadConfig root configs
  let text ← Action.ofExcept config.encode
  match given? output with
  | none => Action.print text
  | some output => Action.writeText (root.join (.ofString output)) text now
  return .success

/-- Checks configuration files. -/
def runValidateConfig (path : String) (configs : List String) : Action Exit := do
  let tree ← Action.tree
  let root := (Path.ofString path).resolve tree.here
  if configs.isEmpty && !tree.contains (root.child Config.fileName) then
    Action.note (.configNotFound (root.child Config.fileName).display)
    return .failure
  let findings ← Action.ofExcept
    (Config.checkFiles tree (Config.paths root (Selection.namedConfigs configs)))
  if findings.isEmpty then
    Action.note .validConfig
    return .success
  findings.forM fun finding => Action.note (.invalidConfig finding)
  return .failure

/-- Makes a configuration file. -/
def runInit (now : Int) (path : String) (output : Option String) (preset : Template)
    (force : Bool) : Action Exit := do
  let tree ← Action.tree
  let root := (Path.ofString path).resolve tree.here
  let target := root.join (.ofString ((given? output).getD Config.fileName))
  if tree.contains target && !force then
    Action.note (.configExists target.display)
    return .failure
  Action.writeText target preset.text now
  Action.note (.wrote "config" target.display)
  return .success

/-- Runs a command. The count of workers changes nothing but the speed. -/
def run (surroundings : Surroundings) : Command → Action Exit
  | .analyze selection => runAnalyze surroundings selection
  | .score selection evaluation interview markdownPath failUnder _ =>
      runScore surroundings selection evaluation interview markdownPath failUnder
  | .prompt selection interview => runPrompt surroundings selection interview
  | .stats reports => runStats reports
  | .showConfig path configs output => runShowConfig surroundings.now path configs output
  | .validateConfig path configs => runValidateConfig path configs
  | .init path output preset force => runInit surroundings.now path output preset force

end Command

end Scorecard
